/-
When a stranger spoils an order. Hashes and nullifiers are two name spaces
that all users share, and no call checks that the name it consumes is its
sender's: a registration takes any fresh hash, a cancellation spends any
fresh nullifier. `order_survives_iff` says that this is the only way to
spoil: of one account's registrations, cancellations and sweeps, those
that register `h` make the owner's registration revert, those that spend
`n` make the execution with `n` revert, and nothing else matters.

One direction is the two runs of Alike.lean. The other follows the book of
Custody/: what is opened or spent stays so.
-/
import Zstrategy.Execution.Authorisation
import Zstrategy.Execution.Strangers

namespace Zstrategy.Contracts

open Lib Code

variable {net : Net} {u a : Address} {h n : Bytes32} {N : Bytes32 → Prop} {s t w w' : World}
  {m : Msg} {txs : List Transaction}

-- ================================================================= success

/-- The call returns, under a script for the code it calls out to. -/
def Succeeds (net : Net) (script : List (Reply × List Outside)) (i : Msg × Call) (w : World) :
    Prop :=
  (runCall net script i w).isSome

instance decidableSucceeds (script : List (Reply × List Outside)) (i : Msg × Call) (w : World) :
    Decidable (Succeeds net script i w) :=
  inferInstanceAs (Decidable (_ = true))

theorem Succeeds.canReturn {script : List (Reply × List Outside)} {i : Msg × Call}
    (hs : Succeeds net script i w) : (entry net i w).CanReturn := by
  obtain ⟨w', hw'⟩ := Option.isSome_iff_exists.1 hs
  obtain ⟨r, hplay, -⟩ := Option.map_eq_some_iff.1 hw'
  exact Outcome.CanReturn.of_play hplay

-- ============================================================ the two runs

theorem entry_alike {call : Call} (hcall : Alike u h N (dispatch net m call) s t) :
    Alike u h N (entry net (m, call)) s t := by
  refine hcall.then fun s t hst => ?_
  exact ⟨hst.outline, hst.record, hst.nullifiers, hst.locked, hst.free⟩

theorem nonpayable_alike {body : Contract Unit} (hbody : Alike u h N body s t) :
    Alike u h N (nonpayable m body) s t :=
  .require id fun _ => hbody

/-- What outside code does in the first run it can do in the second. -/
theorem inside_respects : Outcome.Respects (Outside.inside net) (Agree u h N) := by
  intro e s t s' hst he
  have hbal : t.balances = s.balances := hst.shown World.balances fun _ => rfl
  have heth : t.eth = s.eth := hst.shown World.eth fun _ => rfl
  unfold Outside.inside at he ⊢
  cases e with
  | externals x =>
      cases he
      refine ⟨{ t with ext := x }, rfl, ?_⟩
      exact hst.neutral (f := fun w => { w with ext := x })
        ⟨fun _ => rfl, fun _ => rfl, fun _ => rfl, fun _ _ => rfl, fun _ _ => rfl⟩
  | transfer token src dst x =>
      simp only [Outside.idle, Outside.effect, hbal, Bool.false_eq_true, reduceIte] at he ⊢
      split at he
      case isFalse => cases he
      case isTrue hg =>
        cases he
        exact ⟨_, if_pos hg, hst.moveToken token src dst x⟩
  | mint token dst x =>
      simp only [Outside.idle, Outside.effect, Bool.false_eq_true, reduceIte] at he ⊢
      split at he
      case isFalse => cases he
      case isTrue hg =>
        cases he
        refine ⟨t.mintToken token dst x, if_pos hg, ?_⟩
        exact hst.neutral
          ⟨fun _ => rfl, fun _ => rfl, fun _ => rfl, fun _ _ => rfl, fun _ _ => rfl⟩
  | payEth src dst x =>
      simp only [Outside.idle, Outside.effect, heth, Bool.false_eq_true, reduceIte] at he ⊢
      split at he
      case isFalse => cases he
      case isTrue hg =>
        cases he
        exact ⟨_, if_pos hg, hst.moveEth src dst x⟩
  | tick x => cases he

theorem Succeeds.alike {script : List (Reply × List Outside)} {call : Call}
    (hs : Succeeds net script (m, call) s)
    (hcall : Alike u h N (dispatch net m call) s t) :
    Succeeds net script (m, call) t := by
  obtain ⟨w, hw⟩ := Option.isSome_iff_exists.1 hs
  obtain ⟨r, hplay, -⟩ := Option.map_eq_some_iff.1 hw
  obtain ⟨b, t', hplay', -⟩ := (entry_alike hcall).play inside_respects hplay
  show (runCall net script (m, call) t).isSome
  unfold runCall
  rw [hplay']
  rfl

-- ========================================================== what is consumed

/-- No condition on the acts. -/
abbrev anyAct : Act → Prop := fun _ => True

/-- A stranger's call makes its acts in any state. -/
theorem public_trans {call : Call} (hcall : call.Public) :
    (dispatch net m call).wp (bookRely net anyAct w)
      (fun _ w' => Trans net anyAct (call.shows m.sender) w w') w := by
  have hb : Tracks net anyAct w w := ⟨0, .refl w⟩
  have h₀ : Trans net anyAct 0 w w := .refl w
  rw [← zero_add (call.shows m.sender)]
  unfold Call.Public at hcall
  cases call with
  | registerCommitment h tIn tOut size minOut expiry kind =>
      exact wp_nonpayable (CommitmentRegistry.registerCommitment_trans hb h₀ trivial)
  | registerCommitmentBatch hs tIn tOut sizes minOuts expiries kind =>
      exact wp_nonpayable (CommitmentRegistry.registerCommitmentBatch_trans hb h₀
        fun _ _ => trivial)
  | cancelCommitment h n =>
      exact wp_nonpayable (CommitmentRegistry.cancelCommitment_trans hb h₀ trivial)
  | sweepExpired hs =>
      exact wp_nonpayable (CommitmentRegistry.sweepExpired_trans hb h₀ fun _ _ _ => trivial)
  | _ => exact hcall.elim

/-- A step that forgets nothing: hashes stay taken, nullifiers spent. -/
structure Keeps (w w' : World) : Prop where
  taken : ∀ h, (w.registry.commitments h).status ≠ .NONE →
    (w'.registry.commitments h).status ≠ .NONE
  spent : ∀ n, w.registry.nullifiers n = true → w'.registry.nullifiers n = true

theorem Keeps.refl (w : World) : Keeps w w :=
  ⟨fun _ => id, fun _ => id⟩

theorem Keeps.trans {w'' : World} (h : Keeps w w') (h' : Keeps w' w'') : Keeps w w'' :=
  ⟨fun k hk => h'.taken k (h.taken k hk), fun k hk => h'.spent k (h.spent k hk)⟩

/-- What a call that returned has consumed, and what it found fresh. -/
structure Consumed (call : Call) (w w' : World) : Prop where
  fresh : ∀ h, call.Registers h → (w.registry.commitments h).status = .NONE
  taken : ∀ h, call.Registers h → (w'.registry.commitments h).status ≠ .NONE
  spent : ∀ n, call.Spends n → w'.registry.nullifiers n = true

namespace Transaction

variable {tx : Transaction}

theorem consumes (hcall : tx.call.Public) (hout : tx.outcome net w = some w') :
    Keeps w w' ∧ Consumed tx.call w w' := by
  obtain ⟨r, hplay, rfl⟩ := Option.map_eq_some_iff.1 hout
  refine Outcome.Sat.play_quiet (Q := fun _ w' => Keeps w w' ∧ Consumed tx.call w w') ?_ hplay
  refine Outcome.Sat.silent (Γ := bookRely net anyAct w) ?_ (fun s => .refl s) fun _ _ => rfl
  show Code.wp _ (entry net (tx.msg, tx.call)) _ _
  unfold entry
  rw [wp_bind]
  refine wp_mono (public_trans hcall) ?_
  intro _ w' ht
  obtain ⟨d, es, rs, hp, -, -, rfl⟩ := ht
  have hkeeps : Keeps w w' :=
    ⟨fun h => (evolves_path hp h).follows.ne_none, fun n hn => spent_path hp hn⟩
  have hdone : Consumed tx.call w w' := by
    constructor
    · intro h hreg
      obtain ⟨i, hi, ho⟩ := Call.mem_shows_of_registers (u := tx.msg.sender) hreg
      exact opened_path hp (Multiset.mem_add.2 (.inl hi)) ho
    · intro h hreg
      obtain ⟨i, hi, ho⟩ := Call.mem_shows_of_registers (u := tx.msg.sender) hreg
      exact registered_path hp (Multiset.mem_add.2 (.inl hi)) ho
    · intro n hn
      obtain ⟨h, hsettles⟩ := hn
      refine consumed_path (h := h) hp ?_
      rw [pairs_add, pairs_call, hsettles]
      exact Multiset.mem_add.2 (.inl (Multiset.mem_singleton_self _))
  exact ⟨⟨hkeeps.taken, hkeeps.spent⟩, hdone.fresh, hdone.taken, hdone.spent⟩

theorem apply_keeps (hcall : tx.call.Public) : Keeps w (tx.apply net w) := by
  unfold apply
  cases hout : tx.outcome net w with
  | none => exact .refl w
  | some w' => exact (consumes hcall hout).1

/-- What is consumed before a sequence of calls is consumed after it. -/
theorem applyAll_keeps (hpub : ∀ tx ∈ txs, tx.call.Public) :
    Keeps w (applyAll net txs w) := by
  induction txs generalizing w with
  | nil => exact .refl w
  | cons tx txs ih =>
      exact (apply_keeps (hpub _ List.mem_cons_self)).trans
        (ih fun tx htx => hpub tx (List.mem_cons_of_mem _ htx))

/-- What one call of a sequence consumes is consumed after the sequence. -/
theorem consumed_after {p : Call → Prop} (hpub : ∀ tx ∈ txs, tx.call.Public)
    (hgoes : Goes net p txs w) :
    ∃ call w₁ w₂, p call ∧ Keeps w w₁ ∧ Consumed call w₁ w₂
      ∧ Keeps w₂ (applyAll net txs w) := by
  induction txs generalizing w with
  | nil => exact hgoes.elim
  | cons tx txs ih =>
      have hrest : ∀ tx ∈ txs, tx.call.Public :=
        fun tx htx => hpub tx (List.mem_cons_of_mem _ htx)
      rcases hgoes with ⟨hp, hret⟩ | hgoes
      · obtain ⟨w', hout⟩ := Option.isSome_iff_exists.1 hret
        refine ⟨tx.call, w, w', hp, .refl w, (consumes (hpub _ List.mem_cons_self) hout).2, ?_⟩
        have happly : tx.apply net w = w' := by
          unfold apply
          rw [hout]
          rfl
        unfold applyAll
        rw [happly]
        exact applyAll_keeps hrest
      · obtain ⟨call, w₁, w₂, hp, hbefore, hdone, hafter⟩ := ih hrest hgoes
        exact ⟨call, w₁, w₂, hp, (apply_keeps (hpub _ List.mem_cons_self)).trans hbefore,
          hdone, hafter⟩

/-- A sequence of a stranger's calls that consumes neither `h` nor a
nullifier in `N` keeps the agreement. -/
theorem agree_all (hs : Agree u h N s w) (hspared : Spared u h s)
    (htxs : ∀ tx ∈ txs, tx.call.Public ∧ tx.msg.sender ≠ u)
    (hreg : ¬Goes net (Call.Registers h) txs w)
    (hspend : ∀ n, N n → ¬Goes net (Call.Spends n) txs w) :
    Agree u h N s (applyAll net txs w) := by
  induction txs generalizing w with
  | nil => exact hs
  | cons tx txs ih =>
      obtain ⟨hcall, hm⟩ := htxs _ List.mem_cons_self
      refine ih ?_ (fun tx htx => htxs tx (List.mem_cons_of_mem _ htx))
        (fun hgoes => hreg (.inr hgoes)) fun n hn hgoes => hspend n hn (.inr hgoes)
      unfold apply
      cases hout : tx.outcome net w with
      | none => exact hs
      | some w' =>
          have hret : (tx.outcome net w).isSome := by
            rw [hout]
            rfl
          refine hs.trans (Transaction.agree (.refl u h N w) (hspared.agree hs) hcall hm ?_ ?_ hout)
          · exact fun hr => hreg (.inl ⟨hr, hret⟩)
          · exact fun n hsp hn => hspend n hn (.inl ⟨hsp, hret⟩)

end Transaction

-- ============================================================ what is needed

/-- A registration needs a fresh hash. -/
theorem fresh_of_canReturn {tIn tOut : Address} {size minOut : U256} {expiry : UInt64}
    {kind : CommitmentKind}
    (hret : (entry net (m, .registerCommitment h tIn tOut size minOut expiry kind)
      w).CanReturn) : (w.registry.commitments h).status = .NONE := by
  refine Outcome.Sat.of_canReturn ?_ hret
  show Code.wp Rely.any (entry net (m, .registerCommitment h tIn tOut size minOut expiry kind))
    _ w
  unfold entry dispatch nonpayable CommitmentRegistry.registerCommitment
  rw [wp_bind, wp_bind]
  refine wp_require_any fun _ => ?_
  rw [CommitmentRegistry.wp_nonReentrant]
  refine ⟨fun _ => ?_, fun _ => trivial⟩
  rw [wp_bind, CommitmentRegistry.wp_whenNotPaused]
  refine ⟨fun _ => ?_, fun _ => trivial⟩
  simp only [wp_bind, wp_read]
  refine wp_require_any fun _ => wp_require_any fun _ => wp_require_any fun _ =>
    wp_require_any fun _ => wp_require_any fun _ => wp_require_any fun _ =>
    wp_require_any fun _ => wp_require_any fun hnone => ?_
  exact Outcome.Sat.any fun _ _ => Outcome.Sat.any fun _ _ => hnone

-- ================================================================ the theorem

/-- A stranger's sequence of calls spoils `u`'s registration of `h` exactly
when one of them registers `h`, and the execution of `u`'s order `h` with
`n` exactly when one of them spends `n`. -/
theorem order_survives_iff (hau : a ≠ u)
    (htxs : ∀ tx ∈ txs, tx.call.Public ∧ tx.msg.sender = a) :
    let after := Transaction.applyAll net txs w
    (∀ m h tIn tOut size minOut expiry kind script, m.sender = u →
        Succeeds net script (m, .registerCommitment h tIn tOut size minOut expiry kind) w →
        (Succeeds net script (m, .registerCommitment h tIn tOut size minOut expiry kind) after
          ↔ ¬Transaction.Goes net (Call.Registers h) txs w))
      ∧ ∀ m h n proof fillRef script, (w.registry.commitments h).status = .PENDING →
        (w.registry.commitments h).owner = u →
        w.timestamp ≤ (w.registry.commitments h).expiry.toNat →
        Succeeds net script (m, .executeCommitment h n proof fillRef) w →
        (Succeeds net script (m, .executeCommitment h n proof fillRef) after
          ↔ ¬Transaction.Goes net (Call.Spends n) txs w) := by
  intro after
  have hpub : ∀ tx ∈ txs, tx.call.Public := fun tx htx => (htxs tx htx).1
  have hstranger : ∀ tx ∈ txs, tx.call.Public ∧ tx.msg.sender ≠ u := by
    intro tx htx
    obtain ⟨hcall, hsender⟩ := htxs tx htx
    exact ⟨hcall, by rw [hsender]; exact hau⟩
  constructor
  · intro m h tIn tOut size minOut expiry kind script hm hsucc
    subst hm
    have hnone := fresh_of_canReturn hsucc.canReturn
    constructor
    · intro hafter hgoes
      obtain ⟨call, w₁, w₂, hreg, -, hdone, hkeeps⟩ := Transaction.consumed_after hpub hgoes
      exact hkeeps.taken h (hdone.taken h hreg) (fresh_of_canReturn hafter.canReturn)
    · intro hno
      -- no nullifier matters to a registration
      have hst : Agree m.sender h (fun _ => False) w after :=
        Transaction.agree_all (.refl _ _ _ _) (.inl hnone) hstranger hno fun _ hf => hf.elim
      exact hsucc.alike (nonpayable_alike (CommitmentRegistry.registerCommitment_alike hst))
  · intro m h n proof fillRef script hpending howner hlive hsucc
    constructor
    · intro hafter hgoes
      obtain ⟨call, w₁, w₂, hsp, -, hdone, hkeeps⟩ := Transaction.consumed_after hpub hgoes
      obtain ⟨y, hy⟩ := CommitmentRegistry.Authorised.of_canReturn hafter.canReturn
      have hspent : after.registry.nullifiers n = true :=
        hkeeps.spent n (hdone.spent n hsp)
      rw [hy.unspent] at hspent
      nomatch hspent
    · intro hno
      -- a hash that is taken is not registered
      have htaken : ¬Transaction.Goes net (Call.Registers h) txs w := by
        intro hgoes
        obtain ⟨call, w₁, w₂, hreg, hkeeps, hdone, -⟩ := Transaction.consumed_after hpub hgoes
        refine hkeeps.taken h ?_ (hdone.fresh h hreg)
        rw [hpending]
        exact fun heq => nomatch heq
      have hst : Agree u h (· = n) w after := by
        refine Transaction.agree_all (.refl _ _ _ _) (.inr ⟨hpending, howner, hlive⟩) hstranger
          htaken ?_
        intro n' hn'
        rw [hn']
        exact hno
      exact hsucc.alike
        (nonpayable_alike
          (CommitmentRegistry.executeCommitment_alike (N := fun k => k = n) rfl hst))

-- ================================================================== a sample

/-- User 9 buys in, user 8 orders 77 and user 9 orders 99. -/
def sampleOrders : List ChainMove :=
  sampleSetup ++
    [call 7 (.setPriceFeed 10 30), call 7 (.setPriceFeed 11 31),
      .outside (.transfer 10 8 9 50), call 9 (.deposit 3 10 50),
      call 8 (.registerCommitment 77 10 11 60 5 2000 .ORDER_FILL),
      call 9 (.registerCommitment 99 10 11 30 5 2000 .ORDER_FILL)]

def sampleShared : World :=
  (chain sampleNet).endState sampleOrders sampleWorld

theorem sampleShared_reachable : Reachable sampleNet ⟨sampleShared, []⟩ :=
  ⟨sampleWorld, sampleWorld_deployed, .of_endState (fun _ _ _ => trivial) (by decide +kernel)⟩

/-- User 8's order filled with the nullifier 500; the router pays 60. -/
def sampleFilling : Msg × Call := (⟨8, 0, 1, 1⟩, .executeCommitment 77 500 [] 0)

def samplePaid : List (Reply × List Outside) := [(⟨60, 60⟩, [])]

/-- User 8's next order. -/
def sampleRegistration : Msg × Call :=
  (⟨8, 0, 1, 1⟩, .registerCommitment 78 10 11 30 5 2000 .ORDER_FILL)

/-- User 9 cancels its own order with a nullifier of its choice. -/
def sampleCancel (n : Bytes32) : Transaction := ⟨⟨9, 0, 1, 1⟩, .cancelCommitment 99 n, []⟩

/-- User 9 registers a hash of its choice. -/
def sampleTake (h : Bytes32) : Transaction :=
  ⟨⟨9, 0, 1, 1⟩, .registerCommitment h 10 11 10 5 2000 .ORDER_FILL, []⟩

theorem order_survives_iff_sample :
    Succeeds sampleNet samplePaid sampleFilling
        (Transaction.applyAll sampleNet [sampleCancel 501, sampleTake 79] sampleShared)
      ∧ Succeeds sampleNet [] sampleRegistration
        (Transaction.applyAll sampleNet [sampleCancel 501, sampleTake 79] sampleShared) := by
  have htxs : ∀ tx ∈ [sampleCancel 501, sampleTake 79],
      tx.call.Public ∧ tx.msg.sender = 9 := by
    intro tx htx
    rcases List.mem_cons.1 htx with rfl | htx
    · exact ⟨trivial, rfl⟩
    · cases List.mem_singleton.1 htx
      exact ⟨trivial, rfl⟩
  have hne : (9 : Address) ≠ 8 := by decide
  constructor
  · refine ((order_survives_iff (w := sampleShared) hne htxs).2 _ 77 500 [] 0 samplePaid
      (by decide +kernel) (by decide +kernel) (by decide +kernel) (by decide +kernel)).2 ?_
    intro hgoes
    rcases hgoes with ⟨⟨h, hh⟩, -⟩ | ⟨⟨h, hh⟩, -⟩ | hf
    · have hn : some (501 : Bytes32) = some 500 := congrArg (Option.map Prod.snd) hh
      exact absurd hn (by decide)
    · nomatch hh
    · exact hf
  · refine ((order_survives_iff (w := sampleShared) hne htxs).1 _ 78 10 11 30 5 2000
      .ORDER_FILL [] rfl (by decide +kernel)).2 ?_
    intro hgoes
    rcases hgoes with ⟨hh, -⟩ | ⟨hh, -⟩ | hf
    · exact hh
    · have hh : (79 : Bytes32) = 78 := hh
      exact absurd hh (by decide)
    · exact hf

/-- A reachable state, and a stranger's call that spoils the execution of a
live order, and one that spoils a registration. -/
theorem stranger_spoils_orders :
    Reachable sampleNet ⟨sampleShared, []⟩
      ∧ (sampleShared.registry.commitments 77).owner = 8
      ∧ (sampleShared.registry.commitments 77).status = .PENDING
      ∧ Succeeds sampleNet samplePaid sampleFilling sampleShared
      ∧ ¬Succeeds sampleNet samplePaid sampleFilling
          (Transaction.applyAll sampleNet [sampleCancel 500] sampleShared)
      ∧ Succeeds sampleNet [] sampleRegistration sampleShared
      ∧ ¬Succeeds sampleNet [] sampleRegistration
          (Transaction.applyAll sampleNet [sampleTake 78] sampleShared) := by
  refine ⟨sampleShared_reachable, ?_⟩
  decide +kernel

end Zstrategy.Contracts
