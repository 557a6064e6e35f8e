/-
Who can change what. The charter is everything the contracts do not decide
by themselves: the guardian and the settings of the registry, and of each
vault its owner and the registry it obeys. Along any run, with any nesting
of calls, a part of the charter that changed was changed by a call that
returned, sent by the account that had the right to it.

The right is read where the stretch begins. That is enough for the
induction: the account changes only with its part of the charter, so a
stretch that leaves the part alone leaves the right alone.
-/
import Zstrategy.Registry.LogReplay
import Zstrategy.Execution.Receipts

namespace Zstrategy.Contracts

open Lib Code

open Function (update)

variable {net : Net} {w w' : World}

-- ================================================================= the charter

structure Charter where
  settings : Settings
  guardian : Address
  /-- Owner and registry of each vault. -/
  vaults : Address → Address × Address
  /-- Owner and registry of the gas vault. -/
  gasVault : Address × Address

def World.charter (w : World) : Charter where
  settings := w.registry.settings
  guardian := w.registry.guardian
  vaults v := ((w.vaults v).owner, (w.vaults v).registry)
  gasVault := (w.gasVault.owner, w.gasVault.registry)

theorem charter_onVault {g : CollateralVault → CollateralVault}
    (hg : ∀ V, (g V).owner = V.owner ∧ (g V).registry = V.registry) (v : Address) (w : World) :
    (w.onVault v g).charter = w.charter := by
  have hvaults : (w.onVault v g).charter.vaults = w.charter.vaults := by
    funext x
    by_cases hx : x = v
    · subst hx
      simp [World.charter, World.onVault, hg]
    · simp [World.charter, World.onVault, hx]
  unfold World.charter at hvaults ⊢
  exact congrArg (Charter.mk _ _ · _) hvaults

-- ======================================================= what leaves it alone

instance charter_free (v : Address) (F : CollateralVault → Address → Address → ℕ) :
    (modify (World.onVault v fun V => { V with freeBalance := F V })
      : Contract Unit).Frames World.charter :=
  .modify (charter_onVault (g := fun V => { V with freeBalance := F V }) (fun _ => ⟨rfl, rfl⟩) v)

instance charter_locked (v : Address) (F : CollateralVault → Bytes32 → Address → ℕ) :
    (modify (World.onVault v fun V => { V with lockedBalance := F V })
      : Contract Unit).Frames World.charter :=
  .modify (charter_onVault (g := fun V => { V with lockedBalance := F V }) (fun _ => ⟨rfl, rfl⟩) v)

instance charter_entered (v : Address) (b : Bool) :
    (modify (World.onVault v fun V => { V with entered := b })
      : Contract Unit).Frames World.charter :=
  .modify (charter_onVault (g := fun V => { V with entered := b }) (fun _ => ⟨rfl, rfl⟩) v)

instance charter_gas (F : GasVault → Address → ℕ) :
    (modify (World.onGasVault fun g => { g with balanceOf := F g })
      : Contract Unit).Frames World.charter :=
  .modify fun _ => rfl

instance charter_gasEntered (b : Bool) :
    (modify (World.onGasVault fun g => { g with entered := b })
      : Contract Unit).Frames World.charter :=
  .modify fun _ => rfl

instance charter_records (F : CommitmentRegistry → Bytes32 → CommitmentRecord) :
    (modify (World.onRegistry fun r => { r with commitments := F r })
      : Contract Unit).Frames World.charter :=
  .modify fun _ => rfl

instance charter_nullifiers (F : CommitmentRegistry → Bytes32 → Bool) :
    (modify (World.onRegistry fun r => { r with nullifiers := F r })
      : Contract Unit).Frames World.charter :=
  .modify fun _ => rfl

instance charter_registryEntered (b : Bool) :
    (modify (World.onRegistry fun r => { r with entered := b })
      : Contract Unit).Frames World.charter :=
  .modify fun _ => rfl

instance charter_moveToken (t src dst : Address) (a : ℕ) :
    (modify (World.moveToken t src dst a) : Contract Unit).Frames World.charter :=
  .modify fun _ => rfl

instance charter_moveEth (src dst : Address) (a : ℕ) :
    (modify (World.moveEth src dst a) : Contract Unit).Frames World.charter :=
  .modify fun _ => rfl

instance charter_emit (e : Event) :
    (modify (World.emit e) : Contract Unit).Frames World.charter :=
  .modify fun _ => rfl

section Programs

variable (m : Msg) (v u t sender dst : Address) (h n : Bytes32) (a : U256) (x : ℕ)

namespace CollateralVault

instance charter_deposit : (deposit net m v t a).Frames World.charter := by
  unfold deposit nonReentrant safeTransferFrom standardMove addFree emit
  infer_instance

instance charter_withdraw : (withdraw net m v t a).Frames World.charter := by
  unfold withdraw nonReentrant safeTransfer standardMove subFree emit
  infer_instance

instance charter_lockCollateral : (lockCollateral sender v h u t a).Frames World.charter := by
  unfold lockCollateral onlyRegistry subFree addLocked emit
  infer_instance

instance charter_releaseForExecution :
    (releaseForExecution net sender v h t a dst).Frames World.charter := by
  unfold releaseForExecution onlyRegistry subLocked safeTransfer standardMove emit
  infer_instance

instance charter_returnCollateral :
    (returnCollateral sender v h u t a).Frames World.charter := by
  unfold returnCollateral onlyRegistry subLocked addFree emit
  infer_instance

end CollateralVault

namespace GasVault

instance charter_credit : (credit u x).Frames World.charter := by
  unfold credit addBalance emit
  infer_instance

instance charter_sendValue (reason : String) :
    (sendValue net dst x reason).Frames World.charter := by
  unfold sendValue
  infer_instance

instance charter_deposit : (deposit net m).Frames World.charter := by
  unfold deposit receiveValue
  infer_instance

instance charter_withdraw : (withdraw net m a).Frames World.charter := by
  unfold withdraw nonReentrant subBalance emit
  infer_instance

instance charter_debit : (debit net sender u dst x h).Frames World.charter := by
  unfold debit onlyRegistry nonReentrant subBalance emit
  infer_instance

end GasVault

instance UniswapV3Adapter.charter_swap (p : AdapterParams) (tIn tOut r : Address) (y : U256) :
    (swap net v p tIn tOut a y r).Frames World.charter := by
  have happroved : (modify fun w : World =>
      { w with routerApproved := update2 w.routerApproved v tIn true }
      : Contract Unit).Frames World.charter := .modify fun _ => rfl
  unfold swap forceApprove
  infer_instance

namespace CommitmentRegistry

variable (tIn tOut : Address) (kind : CommitmentKind)

instance charter_nonReentrant {body : Contract Unit} [hbody : body.Frames World.charter] :
    (nonReentrant body).Frames World.charter := by
  unfold nonReentrant
  infer_instance

instance charter_setStatus (st : CommitmentStatus) :
    (setStatus h st).Frames World.charter := by
  unfold setStatus setRecord
  infer_instance

instance charter_spend : (spend n).Frames World.charter := by
  unfold spend
  infer_instance

instance charter_vaultReturn : (vaultReturn net h u t a).Frames World.charter := by
  unfold vaultReturn
  infer_instance

instance charter_openCommitment (r : CommitmentRecord) :
    (openCommitment net h r).Frames World.charter := by
  unfold openCommitment setRecord vaultLock emit
  infer_instance

instance charter_registerCommitment (size minOut : U256) (expiry : UInt64) :
    (registerCommitment net m h tIn tOut size minOut expiry kind).Frames World.charter := by
  unfold registerCommitment whenNotPaused
  infer_instance

instance charter_registerRows (rows : List BatchRow) :
    (registerRows net m tIn tOut kind rows).Frames World.charter := by
  induction rows with
  | nil => exact .pure ()
  | cons row rows ih =>
      unfold registerRows registerRow
      infer_instance

instance charter_registerCommitmentBatch (hs : List Bytes32) (sizes minOuts : List U256)
    (expiries : List UInt64) :
    (registerCommitmentBatch net m hs tIn tOut sizes minOuts expiries kind).Frames
      World.charter := by
  unfold registerCommitmentBatch whenNotPaused
  infer_instance

instance charter_adapterSwap (r : Address) (y : U256) :
    (adapterSwap net tIn tOut a y r).Frames World.charter := by
  have hswap : ∀ w : World, (match net.adapter w.registry.dexAdapter with
      | some p => UniswapV3Adapter.swap net w.registry.dexAdapter p tIn tOut a y r
      | none => do
          let z ← ask (.swap w.registry.dexAdapter tIn tOut a y r)
          return z.returned : Contract U256).Frames World.charter := by
    intro w
    cases net.adapter w.registry.dexAdapter with
    | some p => exact UniswapV3Adapter.charter_swap _ _ _ _ _ _ _
    | none => exact .bind
  unfold adapterSwap
  infer_instance

instance charter_authorise (proof : List UInt8) (fillRef : UInt64) :
    (authorise h n proof fillRef).Frames World.charter := by
  unfold authorise
  infer_instance

instance charter_vaultRelease : (vaultRelease net h t a dst).Frames World.charter := by
  unfold vaultRelease
  infer_instance

instance charter_debitGas : (debitGas net m u h).Frames World.charter := by
  unfold debitGas gasVaultDebit
  infer_instance

instance charter_executeCommitment (proof : List UInt8) (fillRef : UInt64) :
    (executeCommitment net m h n proof fillRef).Frames World.charter := by
  unfold executeCommitment whenNotPaused emit
  infer_instance

instance charter_cancelCommitment : (cancelCommitment net m h n).Frames World.charter := by
  unfold cancelCommitment emit
  infer_instance

instance charter_sweepAll (hs : List Bytes32) : (sweepAll net hs).Frames World.charter := by
  induction hs with
  | nil => exact .pure ()
  | cons h hs ih =>
      unfold sweepAll sweepOne emit
      infer_instance

instance charter_sweepExpired (hs : List Bytes32) :
    (sweepExpired net hs).Frames World.charter := by
  unfold sweepExpired
  infer_instance

end CommitmentRegistry

end Programs

-- =============================================================== the rights

/-- The vault whose owner has to make the call. -/
def Call.ofVault : Call → Option Address
  | .setVaultRegistry v _ => some v
  | .transferVaultOwnership v _ => some v
  | .renounceVaultOwnership v => some v
  | _ => none

/-- The gas vault's owner has to make the call. -/
def Call.ofGasVault : Call → Bool
  | .setGasVaultRegistry _ | .transferGasVaultOwnership _ | .renounceGasVaultOwnership => true
  | _ => false

def Call.governs (call : Call) : Bool :=
  call.setter.isSome || call.ofVault.isSome || call.ofGasVault

/-- A call that does not govern leaves the charter alone. -/
theorem charter_dispatch (m : Msg) {call : Call} (hcall : call.governs = false) :
    (dispatch net m call).Frames World.charter := by
  have hpaid : ∀ {body : Contract Unit}, body.Frames World.charter →
      (nonpayable m body).Frames World.charter := by
    intro body _
    unfold nonpayable
    infer_instance
  cases call with
  | gasDeposit | gasReceive => exact GasVault.charter_deposit m
  | adapterSwap x tIn tOut amountIn minOut recipient =>
      rw [dispatch]
      cases net.adapter x with
      | none => exact ⟨fun _ => trivial⟩
      | some a => exact hpaid .bind
  | registerCommitmentBatch => exact hpaid (CommitmentRegistry.charter_registerCommitmentBatch ..)
  | deposit | withdraw | lockCollateral | releaseForExecution | returnCollateral
  | registerCommitment | executeCommitment | cancelCommitment | sweepExpired | gasWithdraw
  | gasDebit => exact hpaid inferInstance
  | _ => cases hcall

variable {α : Type} {right : α → Receipt → Prop} {new more : List Receipt} {a b c : α}

/-- A part of the charter is as it was, or one of the calls was made by
right. -/
def Answered (right : α → Receipt → Prop) (new : List Receipt) (a b : α) : Prop :=
  b = a ∨ ∃ r ∈ new, right a r

theorem Answered.trans (h : Answered right new a b) (h' : Answered right more b c) :
    Answered right (new ++ more) a c := by
  rcases h with rfl | ⟨r, hr, hright⟩
  · rcases h' with rfl | ⟨r, hr, hright⟩
    · exact Or.inl rfl
    · exact Or.inr ⟨r, List.mem_append_right new hr, hright⟩
  · exact Or.inr ⟨r, List.mem_append_left more hr, hright⟩

/-- Each part of the charter is as it was, or one of the calls was made by
the account in charge of the part. -/
structure GovernedBy (new : List Receipt) (x y : Charter) : Prop where
  registry : Answered (fun a r => r.sender = a.2 ∧ r.call.setter.isSome = true) new
    (x.settings, x.guardian) (y.settings, y.guardian)
  vaults : ∀ v, Answered (fun a r => r.sender = a.1 ∧ r.call.ofVault = some v) new (x.vaults v)
    (y.vaults v)
  gasVault : Answered (fun a r => r.sender = a.1 ∧ r.call.ofGasVault = true) new x.gasVault
    y.gasVault

theorem GovernedBy.refl (new : List Receipt) (x : Charter) : GovernedBy new x x :=
  ⟨Or.inl rfl, fun _ => Or.inl rfl, Or.inl rfl⟩

theorem GovernedBy.trans {x y z : Charter} (h : GovernedBy new x y) (h' : GovernedBy more y z) :
    GovernedBy (new ++ more) x z :=
  ⟨h.registry.trans h'.registry, fun v => (h.vaults v).trans (h'.vaults v),
    h.gasVault.trans h'.gasVault⟩

variable {ok : Address → Prop}

/-- The calls in between, all by accounts of one kind, account for what
changed. -/
def Governed (ok : Address → Prop) (x y : Charter × List Receipt) : Prop :=
  ∃ new, y.2 = x.2 ++ new ∧ (∀ r ∈ new, ok r.sender) ∧ GovernedBy new x.1 y.1

theorem Governed.refl (x : Charter × List Receipt) : Governed ok x x :=
  ⟨[], (List.append_nil _).symm, by simp, .refl [] x.1⟩

theorem Governed.trans {x y z : Charter × List Receipt} (h : Governed ok x y)
    (h' : Governed ok y z) : Governed ok x z := by
  obtain ⟨new, hnew, hok, hgov⟩ := h
  obtain ⟨more, hmore, hok', hgov'⟩ := h'
  refine ⟨new ++ more, ?_, fun r hr => ?_, hgov.trans hgov'⟩
  · rw [hmore, hnew, List.append_assoc]
  · exact (List.mem_append.1 hr).elim (hok r) (hok' r)

/-- One call. -/
theorem Governed.one {x y : Charter} {rs : List Receipt} {r : Receipt} (hr : ok r.sender)
    (h : GovernedBy [r] x y) : Governed ok (x, rs) (y, rs ++ [r]) := by
  refine ⟨[r], rfl, fun r' hr' => ?_, h⟩
  rw [List.mem_singleton.1 hr']
  exact hr

-- =========================================================== calls that govern

/-- A vault's owner changes what its part of the charter says. -/
theorem governed_vault {v : Address} {g : CollateralVault → CollateralVault} {r : Receipt}
    (hsender : r.sender = (w.vaults v).owner) (hcall : r.call.ofVault = some v) :
    GovernedBy [r] w.charter (w.onVault v g).charter := by
  refine ⟨Or.inl rfl, fun x => ?_, Or.inl rfl⟩
  by_cases hx : x = v
  · subst hx
    exact Or.inr ⟨r, List.mem_cons_self, hsender, hcall⟩
  · refine Or.inl ?_
    simp [World.charter, World.onVault, hx]

/-- What a call that governs may do, once it passed its checks. -/
theorem dispatch_governs {Γ : Rely World Request Reply} (herr : ∀ e, Γ.err e) {m : Msg}
    {call : Call} {Q : Unit → World → Prop} (hcall : call.governs = true)
    (hQ : ∀ w', w'.receipts = w.receipts →
      GovernedBy [⟨w'.timestamp, m.sender, call⟩] w.charter w'.charter → Q () w') :
    (dispatch net m call).wp Γ Q w := by
  have check : ∀ {p q : Prop} {e : String}, (p → q) → (p → q) ∧ (¬p → Γ.err e) :=
    fun h => ⟨h, fun _ => herr _⟩
  cases hset : call.setter with
  | some g =>
      refine dispatch_setter herr hset fun hm => hQ _ rfl ⟨Or.inr ?_, fun _ => ?_, ?_⟩
      · refine ⟨_, List.mem_cons_self, hm, ?_⟩
        rw [hset]
        rfl
      · exact Or.inl rfl
      · exact Or.inl rfl
  | none =>
      cases call with
      | setVaultRegistry v r =>
          simp only [dispatch, nonpayable, CollateralVault.setRegistry, wp_bind, wp_require,
            CollateralVault.wp_onlyOwner, wp_read, CollateralVault.wp_emit, wp_modify]
          refine check fun _ => check fun hm => check fun _ => hQ _ rfl ?_
          exact governed_vault (w := w.emit (.vault v _)) hm rfl
      | transferVaultOwnership v a =>
          simp only [dispatch, nonpayable, CollateralVault.transferOwnership, wp_bind,
            wp_require, CollateralVault.wp_onlyOwner, wp_modify]
          refine check fun _ => check fun hm => check fun _ => hQ _ rfl ?_
          exact governed_vault hm rfl
      | renounceVaultOwnership v =>
          simp only [dispatch, nonpayable, CollateralVault.renounceOwnership, wp_bind,
            wp_require, CollateralVault.wp_onlyOwner, wp_modify]
          refine check fun _ => check fun hm => hQ _ rfl ?_
          exact governed_vault hm rfl
      | setGasVaultRegistry r =>
          simp only [dispatch, nonpayable, GasVault.setRegistry, wp_bind, wp_require,
            GasVault.wp_onlyOwner, wp_read, GasVault.wp_emit, wp_modify]
          refine check fun _ => check fun hm => check fun _ => hQ _ rfl ?_
          exact ⟨Or.inl rfl, fun _ => Or.inl rfl, Or.inr ⟨_, List.mem_cons_self, hm, rfl⟩⟩
      | transferGasVaultOwnership a =>
          simp only [dispatch, nonpayable, GasVault.transferOwnership, wp_bind, wp_require,
            GasVault.wp_onlyOwner, wp_modify]
          refine check fun _ => check fun hm => check fun _ => hQ _ rfl ?_
          exact ⟨Or.inl rfl, fun _ => Or.inl rfl, Or.inr ⟨_, List.mem_cons_self, hm, rfl⟩⟩
      | renounceGasVaultOwnership =>
          simp only [dispatch, nonpayable, GasVault.renounceOwnership, wp_bind, wp_require,
            GasVault.wp_onlyOwner, wp_modify]
          refine check fun _ => check fun hm => hQ _ rfl ?_
          exact ⟨Or.inl rfl, fun _ => Or.inl rfl, Or.inr ⟨_, List.mem_cons_self, hm, rfl⟩⟩
      | pause | unpause | setDEXAdapter | setGasVault | setCollateralVault | setGuardian
      | setPriceFeed | setOracleStaleness | setVerifier => cases hset
      | _ => cases hcall

-- ==================================================================== the chain

/-- The charter and the calls that returned. -/
def World.governance (w : World) : Charter × List Receipt := (w.charter, w.receipts)

variable {P : World → ChainMove → Prop}

theorem sound_governed (hP : ∀ s i, P s (.enter i) → ok i.1.sender) :
    (chain net).Sound P (fun _ => True) fun w w' => Governed ok w.governance w'.governance := by
  refine ⟨fun _ => Governed.refl _, fun _ _ _ => Governed.trans, ?_, ?_⟩
  · intro i w _ hi _
    have hok : ok i.1.sender := hP w i hi
    refine (wp_bind ..).2 ?_
    by_cases hcall : i.2.governs = true
    · refine dispatch_governs (fun _ => trivial) hcall fun w' hreceipts hgov => ⟨trivial, ?_⟩
      have hstart : w.governance = (w.charter, w'.receipts) := Prod.ext rfl hreceipts.symm
      rw [hstart]
      exact .one hok hgov
    · have hcharter : (dispatch net i.1 i.2).Frames World.charter :=
        charter_dispatch i.1 (Bool.eq_false_of_not_eq_true hcall)
      have hhistory : (dispatch net i.1 i.2).Frames World.history := frames_dispatch i.1 i.2
      have hcalled := (hcharter.pair hhistory).rely (S := chain net) (s := w) (I := fun _ => True)
        (R := fun x y => Governed ok (x.1, x.2.2) (y.1, y.2.2)) (fun _ _ _ => Governed.trans)
        (Governed.refl _) trivial
      refine wp_mono hcalled ?_
      intro _ w' hw'
      exact ⟨trivial, hw'.2.trans
        (.one (r := ⟨w'.timestamp, i.1.sender, i.2⟩) hok (.refl _ w'.charter))⟩
  · intro e w w' _ _ houtside
    have he : e.effect net w = some w' := houtside
    have hcharter : w'.charter = w.charter := by
      cases e with
      | externals x => cases he; rfl
      | tick x => cases he; rfl
      | transfer | mint | payEth =>
          simp only [Outside.effect] at he
          split at he
          · cases he; rfl
          · cases he
    have hsame : w'.governance = w.governance := Prod.ext hcharter (receipts_outside he)
    rw [hsame]
    exact ⟨trivial, .refl _⟩

theorem run_governed (hP : ∀ s i, P s (.enter i) → ok i.1.sender)
    (hrun : (chain net).Run P ⟨w, []⟩ ⟨w', []⟩) : Governed ok w.governance w'.governance :=
  hrun.rel (sound_governed hP) trivial

/-- An account that makes no call keeps what it is in charge of. -/
theorem charter_without {d : Address}
    (hrun : (chain net).Run (fun _ m => ∀ i, m = .enter i → i.1.sender ≠ d) ⟨w, []⟩ ⟨w', []⟩) :
    (w.charter.guardian = d → w'.charter.settings = w.charter.settings
        ∧ w'.charter.guardian = d)
      ∧ (∀ v, (w.charter.vaults v).1 = d → w'.charter.vaults v = w.charter.vaults v)
      ∧ (w.charter.gasVault.1 = d → w'.charter.gasVault = w.charter.gasVault) := by
  have hgoverned : Governed (fun a => a ≠ d) w.governance w'.governance :=
    run_governed (fun s i hi => hi i rfl) hrun
  obtain ⟨new, -, hothers, hgov⟩ := hgoverned
  refine ⟨fun hd => ?_, fun v hd => ?_, fun hd => ?_⟩
  · rcases hgov.registry with hsame | ⟨r, hr, hsender, -⟩
    · exact ⟨congrArg Prod.fst hsame, (congrArg Prod.snd hsame).trans hd⟩
    · exact absurd (hsender.trans hd) (hothers r hr)
  · rcases hgov.vaults v with hsame | ⟨r, hr, hsender, -⟩
    · exact hsame
    · exact absurd (hsender.trans hd) (hothers r hr)
  · rcases hgov.gasVault with hsame | ⟨r, hr, hsender, -⟩
    · exact hsame
    · exact absurd (hsender.trans hd) (hothers r hr)

/-- From one point between transactions to another, in any run: if the
registry's settings or its guardian changed, the account that was guardian
at the first point made a setter call that returned; if a vault's owner or
registry changed, its owner made a call on it, and likewise for the gas
vault. -/
theorem changes_are_governed (hrun : (chain net).Run P ⟨w, []⟩ ⟨w', []⟩) :
    ∃ new, w'.receipts = w.receipts ++ new
      ∧ ((w'.registry.settings, w'.registry.guardian) ≠ (w.registry.settings, w.registry.guardian) →
          ∃ r ∈ new, r.sender = w.registry.guardian ∧ r.call.setter.isSome = true)
      ∧ (∀ v, ((w'.vaults v).owner, (w'.vaults v).registry)
            ≠ ((w.vaults v).owner, (w.vaults v).registry) →
          ∃ r ∈ new, r.sender = (w.vaults v).owner ∧ r.call.ofVault = some v)
      ∧ ((w'.gasVault.owner, w'.gasVault.registry) ≠ (w.gasVault.owner, w.gasVault.registry) →
          ∃ r ∈ new, r.sender = w.gasVault.owner ∧ r.call.ofGasVault = true) := by
  have hgoverned : Governed (fun _ => True) w.governance w'.governance :=
    run_governed (fun _ _ _ => trivial) hrun
  obtain ⟨new, hnew, -, hgov⟩ := hgoverned
  refine ⟨new, hnew, fun hne => ?_, fun v hne => ?_, fun hne => ?_⟩
  · exact hgov.registry.resolve_left hne
  · exact (hgov.vaults v).resolve_left hne
  · exact hgov.gasVault.resolve_left hne

/-- In the sample deployment the guardian sets a verifier. -/
theorem changes_are_governed_sample :
    ∃ w' new, (chain sampleNet).Run anyMove ⟨sampleWorld, []⟩ ⟨w', []⟩
      ∧ w'.receipts = sampleWorld.receipts ++ new
      ∧ ∃ r ∈ new, r.sender = sampleWorld.registry.guardian ∧ r.call.setter.isSome = true := by
  have hrun : (chain sampleNet).Run anyMove ⟨sampleWorld, []⟩
      ⟨(chain sampleNet).endState sampleSetup sampleWorld, []⟩ :=
    .of_endState (fun _ _ _ => trivial) rfl
  obtain ⟨new, hnew, hregistry, -⟩ := changes_are_governed hrun
  refine ⟨_, new, hrun, hnew, hregistry fun hsame => ?_⟩
  have hverifier := congrFun (congrArg (fun x => x.1.verifiers) hsame) 0
  nomatch hverifier

end Zstrategy.Contracts
