/-
`scripts/return-vault-balances.ts`: a user sweeps expired orders, cancels
others, and withdraws what is then free of each token, and the gas. The
script reads a balance and then sends the withdrawal of that amount; before
and after each of its actions anybody else may send transactions, and run
any code inside them.

What it relies on is that a free balance falls by calls of its user only:
so what was read can still be withdrawn. And what a user has in the vault
changes by the user's calls and by executions only: so the withdrawals of
a token, its executed orders and its open ones are all there was.

# What the accounts rest on

`Book.claim` says, path by path, how the claim of a user on a token changes;
here it is read over the stretches of the script, with the receipts that it
leaves. The user's own calls are those of the script, so that the sum of the
withdrawals can be read off its steps; all that others contribute is the
executions. For a sweep and a cancellation the script also has their effect
on the commitment, which `evolves_of_run` carries to the end.
-/
import Zstrategy.Custody.Claims
import Zstrategy.Custody.Exit
import Zstrategy.Custody.Settlement
import Zstrategy.Custody.Sweeps
import Zstrategy.Registry.Governance

namespace Zstrategy.Contracts

open Lib Code

open Function (update)

variable {net : Net} {w w₁ w₂ w' : World} {v u t : Address}

-- ==================================================================== the script

inductive ReturnStep where
  | sweepExpired (hashes : List Bytes32)
  | cancel (h n : Bytes32)
  | withdraw (token : Address)
  | withdrawGas
  deriving DecidableEq

/-- What `main` is given. -/
structure ReturnConfig where
  user : Address
  collateralVault : Address
  expiredCommitments : List Bytes32
  /-- commitmentHash, nullifier -/
  cancelEntries : List (Bytes32 × Bytes32)
  /-- From a `Set`, so none comes twice. -/
  tokens : List Address

/-- The steps of `main`, in order. -/
def ReturnConfig.steps (cfg : ReturnConfig) : List ReturnStep :=
  (if cfg.expiredCommitments.length > 0 then [.sweepExpired cfg.expiredCommitments] else [])
  ++ cfg.cancelEntries.map (fun entry => .cancel entry.1 entry.2)
  ++ cfg.tokens.map .withdraw
  ++ [.withdrawGas]

/-- The balance that a step reads before it sends its transaction. -/
def ReturnStep.balance (v u : Address) (w : World) : ReturnStep → Option ℕ
  | .withdraw token => some ((w.vaults v).freeBalance u token)
  | .withdrawGas => some (w.gasVault.balanceOf u)
  | _ => none

/-- The transaction of a step; `x` is the balance it read. -/
def ReturnStep.call (v : Address) (x : U256) : ReturnStep → Call
  | .sweepExpired hashes => .sweepExpired hashes
  | .cancel h n => .cancelCommitment h n
  | .withdraw token => .withdraw v token x
  | .withdrawGas => .gasWithdraw x

/-- Moves of others that leave the wiring. -/
def ByOthers (net : Net) (v u : Address) (w : World) (mv : ChainMove) : Prop :=
  KeepsWiring net v w mv ∧ ∀ i, mv = .enter i → i.1.sender ≠ u

/-- Transactions of others. -/
def Bystanders (net : Net) (v u : Address) (w w' : World) : Prop :=
  (chain net).Run (ByOthers net v u) ⟨w, []⟩ ⟨w', []⟩

/-- The calls of `u` among those that returned. -/
def callsOf (u : Address) (rs : List Receipt) : List Call :=
  (rs.filter fun r => r.sender = u).map Receipt.call

/-- A transaction of `u` that returned. Others' code may run inside it. -/
def Sent (net : Net) (v u : Address) (i : Msg × Call) (w w' : World) : Prop :=
  i.1.sender = u ∧ ∃ c rs, (chain net).step ⟨w, []⟩ (.enter i) = some c
    ∧ (chain net).Run (ByOthers net v u) c ⟨w', []⟩
    ∧ w'.receipts = w.receipts ++ rs ∧ callsOf u rs = [i.2]

/-- A run of the script by `u`. A balance of zero is not withdrawn, and a
transaction that reverts ends the script. -/
inductive ReturnScript (net : Net) (v u : Address) : List ReturnStep → World → World → Prop
  | finish {w w' : World} : Bystanders net v u w w' → ReturnScript net v u [] w w'
  | skip {w w₁ w' : World} {s : ReturnStep} {steps : List ReturnStep} :
      Bystanders net v u w w₁ → s.balance v u w₁ = some 0 →
      ReturnScript net v u steps w₁ w' → ReturnScript net v u (s :: steps) w w'
  | send {w w₁ w₂ w₃ w' : World} {s : ReturnStep} {steps : List ReturnStep} {m : Msg} {x : U256} :
      Bystanders net v u w w₁ → (∀ b, s.balance v u w₁ = some b → x.val = b ∧ b ≠ 0) →
      Bystanders net v u w₁ w₂ → Sent net v u (m, s.call v x) w₂ w₃ →
      ReturnScript net v u steps w₃ w' → ReturnScript net v u (s :: steps) w w'

-- ============================================================== whose calls they are

/-- The calls of a user, one stretch after another. -/
theorem callsOf_append (rs rs' : List Receipt) :
    callsOf u (rs ++ rs') = callsOf u rs ++ callsOf u rs' := by
  unfold callsOf
  rw [List.filter_append, List.map_append]

/-- Others make no call of `u`. -/
theorem Bystanders.calls (h : Bystanders net v u w w') :
    ∃ rs, w'.receipts = w.receipts ++ rs ∧ callsOf u rs = [] := by
  have hgoverned : Governed (fun a => a ≠ u) w.governance w'.governance :=
    run_governed (fun s i hi => hi.2 i rfl) h
  obtain ⟨rs, hrs, hothers, -⟩ := hgoverned
  refine ⟨rs, hrs, ?_⟩
  have hnone : (rs.filter fun r => r.sender = u) = [] := by
    rw [List.filter_eq_nil_iff]
    intro r hr hu
    exact hothers r hr (of_decide_eq_true hu)
  unfold callsOf
  rw [hnone]
  rfl

/-- Others keep the wiring. -/
theorem Bystanders.keeps (h : Bystanders net v u w w') :
    (chain net).Run (KeepsWiring net v) ⟨w, []⟩ ⟨w', []⟩ :=
  h.mono fun _ _ hm => hm.1

/-- So do the transactions of the script. -/
theorem Sent.keeps {s : ReturnStep} {m : Msg} {x : U256}
    (h : Sent net v u (m, s.call v x) w w') :
    (chain net).Run (KeepsWiring net v) ⟨w, []⟩ ⟨w', []⟩ := by
  obtain ⟨-, c, rs, hstep, hrun, -⟩ := h
  have hfirst : KeepsWiring net v w (.enter (m, s.call v x)) := by
    cases s <;> trivial
  exact (System.Run.single hfirst hstep).trans (hrun.mono fun _ _ hm => hm.1)

/-- A sum over the calls of `u`. -/
theorem sum_callsOf {f : Receipt → ℕ} {g : Call → ℕ}
    (h : ∀ r, f r = if r.sender = u then g r.call else 0) (rs : List Receipt) :
    (rs.map f).sum = ((callsOf u rs).map g).sum := by
  induction rs with
  | nil => rfl
  | cons r rs ih =>
      rw [List.map_cons, List.sum_cons, ih, h]
      by_cases hu : r.sender = u
      · rw [if_pos hu]
        simp [callsOf, hu]
      · rw [if_neg hu]
        simp [callsOf, hu]

/-- What a call withdraws of `t` from the vault at `v`. -/
def Call.withdraws (v t : Address) : Call → ℕ
  | .withdraw v' t' x => if v' = v ∧ t' = t then x.val else 0
  | _ => 0

/-- What a user withdrew is what his calls withdraw. -/
theorem withdrawn_eq (rs : List Receipt) :
    withdrawn v u t rs = ((callsOf u rs).map (Call.withdraws v t)).sum := by
  apply sum_callsOf
  intro r
  cases hc : r.call with
  | withdraw v' t' x =>
      by_cases hu : r.sender = u
      · simp [Call.withdraws, hu]
      · simp [hu]
  | _ => exact (ite_self 0).symm

/-- A receipt of the user is one of his calls. -/
theorem mem_callsOf {rs : List Receipt} {r : Receipt} (hr : r ∈ rs) (hu : r.sender = u) :
    r.call ∈ callsOf u rs :=
  List.mem_map.2 ⟨r, List.mem_filter.2 ⟨hr, decide_eq_true hu⟩, rfl⟩

/-- Who makes no deposit deposits nothing. -/
theorem deposited_eq_zero {rs : List Receipt}
    (h : ∀ v' t' x, Call.deposit v' t' x ∉ callsOf u rs) : deposited v u t rs = 0 := by
  unfold deposited
  rw [List.sum_eq_zero_iff]
  intro y hy
  obtain ⟨r, hr, rfl⟩ := List.mem_map.1 hy
  cases hc : r.call with
  | deposit v' t' x =>
      have hother : r.sender ≠ u := by
        intro hu
        have hmem : r.call ∈ callsOf u rs := mem_callsOf hr hu
        rw [hc] at hmem
        exact h v' t' x hmem
      simp [hother]
  | _ => rfl

/-- Who makes no call registers nothing. -/
theorem registered_eq_zero {rs : List Receipt} (h : callsOf u rs = []) :
    registered u t rs = 0 := by
  unfold registered
  rw [List.sum_eq_zero_iff]
  intro x hx
  obtain ⟨r, hr, rfl⟩ := List.mem_map.1 hx
  have hother : r.sender ≠ u := by
    intro hu
    have hmem : r.call ∈ callsOf u rs := mem_callsOf hr hu
    rw [h] at hmem
    cases hmem
  cases r.call <;> simp [hother]

-- =================================================================== the race

/-- What changes a claim, and what a free balance falls by. -/
theorem claims_of_run (hw : w₁.book.Wired net v)
    (h : (chain net).Run (KeepsWiring net v) ⟨w₁, []⟩ ⟨w₂, []⟩) (u t : Address) :
    ∃ rs, w₂.receipts = w₁.receipts ++ rs
      ∧ w₂.claim v u t + (withdrawn v u t rs + executedStake w₂.registry.commitments u t rs)
        = w₁.claim v u t + deposited v u t rs
      ∧ (w₁.vaults v).freeBalance u t
        ≤ (w₂.vaults v).freeBalance u t + (withdrawn v u t rs + registered u t rs) := by
  obtain ⟨m, es, rs, hp, -, hrec, rfl⟩ := run_trans (KeepsWiring.allows net v) h
  rw [zero_add] at hp
  have hclaim := claim_path (u := u) (t := t) hp hw w₂.registry.commitments fun h => .refl _
  have hfree := free_path (u := u) (t := t) hp hw
  rw [tally_credits, tally_debits] at hclaim
  rw [tally_takes] at hfree
  exact ⟨rs, hrec, hclaim, hfree⟩

/-- A balance that `u` read can be withdrawn, whatever others did since,
short of pointing the registry or the vault elsewhere: the owner of the
vault could make an account of his own its registry, and lock any balance
with it. -/
theorem read_balance_withdraws {w₀ : World} (hd : Deployed w₀) (hw : Wired net v w₀)
    (hbefore : (chain net).Run (KeepsWiring net v) ⟨w₀, []⟩ ⟨w₁, []⟩)
    (hothers : Bystanders net v u w₁ w₂) (hpay : PaysOut net t v u w₂) {x : U256}
    (hread : x.val = (w₁.vaults v).freeBalance u t) (hx : x.val ≠ 0) :
    Completes net (⟨u, 0, 0, 0⟩, .withdraw v t x) (fun _ => True) w₂ := by
  have hrun : (chain net).Run (KeepsWiring net v) ⟨w₀, []⟩ ⟨w₂, []⟩ :=
    hbefore.trans hothers.keeps
  obtain ⟨-, hguards⟩ := guards_free hd hrun
  have howed : w₂.owed v t ≤ w₂.balances t v :=
    (run_trans (KeepsWiring.allows net v) hrun).covered hd hw.isVault hpay.standard
  have hheld : (w₂.vaults v).freeBalance u t ≤ w₂.balances t v :=
    lock_fits (h := 0) howed (Nat.zero_le _)
  have hfree : (w₁.vaults v).freeBalance u t ≤ (w₂.vaults v).freeBalance u t := by
    obtain ⟨rs, hrs, -, hfall⟩ := claims_of_run (run_wired hw hbefore) hothers.keeps u t
    obtain ⟨rs', hrs', hnone⟩ := hothers.calls
    rw [hrs] at hrs'
    cases List.append_cancel_left hrs'
    rw [withdrawn_eq, hnone, registered_eq_zero hnone] at hfall
    exact hfall
  refine (withdrawable_free hpay (hguards v) hheld x).2 ⟨Nat.pos_of_ne_zero hx, ?_⟩
  exact hread.trans_le hfree

-- ================================================================== the accounts

/-- A transaction of the script makes one call of the user. -/
theorem Sent.calls {i : Msg × Call} (h : Sent net v u i w w') :
    ∃ rs, w'.receipts = w.receipts ++ rs ∧ callsOf u rs = [i.2] := by
  obtain ⟨-, c, rs, -, -, hrs, hcalls⟩ := h
  exact ⟨rs, hrs, hcalls⟩

namespace ReturnScript

variable {steps before after : List ReturnStep}

/-- The whole script keeps the wiring. -/
theorem keeps (h : ReturnScript net v u steps w w') :
    (chain net).Run (KeepsWiring net v) ⟨w, []⟩ ⟨w', []⟩ := by
  induction h with
  | finish hothers => exact hothers.keeps
  | skip hothers _ _ ih => exact hothers.keeps.trans ih
  | send hread _ hothers hsent _ ih =>
      exact hread.keeps.trans (hothers.keeps.trans (hsent.keeps.trans ih))

/-- The calls of `u` are those of the steps, and a step that reads no
balance makes its call. -/
theorem calls (h : ReturnScript net v u steps w w') :
    ∃ rs, w'.receipts = w.receipts ++ rs
      ∧ (∀ c ∈ callsOf u rs, ∃ s ∈ steps, ∃ x, c = s.call v x)
      ∧ ∀ s ∈ steps, (∀ w, s.balance v u w = none) → ∃ x, s.call v x ∈ callsOf u rs := by
  induction h with
  | finish hothers =>
      obtain ⟨rs, hrs, hnone⟩ := hothers.calls
      refine ⟨rs, hrs, fun c hc => ?_, fun s hs => nomatch hs⟩
      rw [hnone] at hc
      cases hc
  | @skip w w₁ w' s steps hothers hzero _ ih =>
      obtain ⟨rs, hrs, hnone⟩ := hothers.calls
      obtain ⟨rs', hrs', hof, hmade⟩ := ih
      refine ⟨rs ++ rs', ?_, ?_, ?_⟩
      · rw [hrs', hrs, List.append_assoc]
      · intro c hc
        rw [callsOf_append, hnone, List.nil_append] at hc
        obtain ⟨s', hs', hx⟩ := hof c hc
        exact ⟨s', List.mem_cons_of_mem s hs', hx⟩
      · rw [callsOf_append, hnone, List.nil_append]
        refine List.forall_mem_cons.2 ⟨fun hblind => ?_, hmade⟩
        rw [hblind] at hzero
        cases hzero
  | @send w w₁ w₂ w₃ w' s steps m x hread hbalance hothers hsent _ ih =>
      obtain ⟨rs, hrs, hnone⟩ := hread.calls
      obtain ⟨rs₁, hrs₁, hnone₁⟩ := hothers.calls
      obtain ⟨rs₂, hrs₂, hcall⟩ := hsent.calls
      obtain ⟨rs', hrs', hof, hmade⟩ := ih
      have hcalls : callsOf u (rs ++ rs₁ ++ rs₂ ++ rs') = s.call v x :: callsOf u rs' := by
        rw [callsOf_append, callsOf_append, callsOf_append, hnone, hnone₁, hcall]
        rfl
      refine ⟨rs ++ rs₁ ++ rs₂ ++ rs', ?_, ?_, ?_⟩
      · simp only [hrs', hrs₂, hrs₁, hrs, List.append_assoc]
      · rw [hcalls]
        refine List.forall_mem_cons.2 ⟨⟨s, List.mem_cons_self, x, rfl⟩, fun c hc => ?_⟩
        obtain ⟨s', hs', hx⟩ := hof c hc
        exact ⟨s', List.mem_cons_of_mem s hs', hx⟩
      · rw [hcalls]
        refine List.forall_mem_cons.2 ⟨fun _ => ⟨x, List.mem_cons_self⟩, fun s' hs' hblind => ?_⟩
        obtain ⟨y, hy⟩ := hmade s' hs' hblind
        exact ⟨y, List.mem_cons_of_mem _ hy⟩

/-- A script is run in two parts. -/
theorem split (h : ReturnScript net v u (before ++ after) w w') :
    ∃ w₁, ReturnScript net v u before w w₁ ∧ ReturnScript net v u after w₁ w' := by
  induction before generalizing w with
  | nil => exact ⟨w, .finish (.refl _), h⟩
  | cons s before ih =>
      cases h with
      | skip hothers hzero hrest =>
          obtain ⟨w₁, hbefore, hafter⟩ := ih hrest
          exact ⟨w₁, .skip hothers hzero hbefore, hafter⟩
      | send hread hbalance hothers hsent hrest =>
          obtain ⟨w₁, hbefore, hafter⟩ := ih hrest
          exact ⟨w₁, .send hread hbalance hothers hsent hbefore, hafter⟩

/-- Steps that leave a token alone. -/
theorem untouched (h : ReturnScript net v u steps w w') (ht : .withdraw t ∉ steps) :
    ∃ rs, w'.receipts = w.receipts ++ rs ∧ withdrawn v u t rs = 0 ∧ deposited v u t rs = 0 := by
  obtain ⟨rs, hrs, hof, -⟩ := h.calls
  refine ⟨rs, hrs, ?_, ?_⟩
  · rw [withdrawn_eq, List.sum_eq_zero_iff]
    intro y hy
    obtain ⟨c, hc, rfl⟩ := List.mem_map.1 hy
    obtain ⟨s, hs, x, rfl⟩ := hof c hc
    cases s with
    | withdraw token =>
        have htoken : token ≠ t := by
          rintro rfl
          exact ht hs
        simp [ReturnStep.call, Call.withdraws, htoken]
    | sweepExpired | cancel | withdrawGas => rfl
  · refine deposited_eq_zero fun v' t' x hc => ?_
    obtain ⟨s, -, y, hy⟩ := hof _ hc
    cases s <;> cases hy

/-- The step that withdraws a token: the point at which it reads the
balance, and what is withdrawn from then on. -/
theorem reads (h : ReturnScript net v u (.withdraw t :: after) w w') (ht : .withdraw t ∉ after) :
    ∃ w₁ rs, Bystanders net v u w w₁ ∧ (chain net).Run (KeepsWiring net v) ⟨w₁, []⟩ ⟨w', []⟩
      ∧ w'.receipts = w₁.receipts ++ rs
      ∧ withdrawn v u t rs = (w₁.vaults v).freeBalance u t := by
  cases h with
  | @skip _ w₁ _ _ _ hothers hzero hrest =>
      obtain ⟨rs, hrs, hnone, -⟩ := hrest.untouched ht
      refine ⟨w₁, rs, hothers, hrest.keeps, hrs, ?_⟩
      rw [hnone]
      exact (Option.some.inj hzero).symm
  | @send _ w₁ w₂ w₃ _ _ _ m x hread hbalance hothers hsent hrest =>
      obtain ⟨rs₁, hrs₁, hnone₁⟩ := hothers.calls
      obtain ⟨rs₂, hrs₂, hcall⟩ := hsent.calls
      obtain ⟨rs, hrs, hnone, -⟩ := hrest.untouched ht
      refine ⟨w₁, rs₁ ++ rs₂ ++ rs, hread,
        hothers.keeps.trans (hsent.keeps.trans hrest.keeps), ?_, ?_⟩
      · simp only [hrs, hrs₂, hrs₁, List.append_assoc]
      · rw [withdrawn_eq] at hnone
        rw [withdrawn_eq, callsOf_append, callsOf_append, hnone₁, hcall, List.nil_append,
          List.map_append, List.sum_append, hnone, ← (hbalance _ rfl).1]
        simp [ReturnStep.call, Call.withdraws]

end ReturnScript

/-- A call that settled a commitment: it is not pending any more. -/
theorem settled_of_call {w₀ : World} (hd : Deployed w₀) {d : Multiset Item} {ok : Act → Prop}
    (ht : Trans net ok d w₀ w) {h n : Bytes32} (hcall : (h, n) ∈ settlements w.receipts) :
    (w.registry.commitments h).status.Terminal := by
  have hmatching := matching_run hd ht
  have hconsumed : h ∈ w.book.consumed :=
    hmatching.left_of_mem (Multiset.mem_add.2 (.inr (Multiset.mem_coe.2 hcall)))
  rcases hconsumed with hstatus | hstatus
  · have hexecuted : (w.registry.commitments h).status = .EXECUTED := hstatus
    rw [hexecuted]
    trivial
  · have hcancelled : (w.registry.commitments h).status = .CANCELLED := hstatus
    rw [hcancelled]
    trivial

-- =================================================================== the sweeps

namespace CommitmentRegistry

/-- Giving back a stake leaves the registry and the time. -/
theorem vaultReturn_quiet {h : Bytes32} {a : U256} {Q : Unit → World → Prop}
    (hv : net.isVault w.registry.vault = true)
    (hQ : ∀ w', w'.registry = w.registry → w'.timestamp = w.timestamp → Q () w') :
    (vaultReturn net h u t a).wp Rely.quiet Q w := by
  unfold vaultReturn CollateralVault.returnCollateral
  simp only [wp_bind, wp_read, wp_ite, CollateralVault.wp_onlyRegistry, wp_require,
    CollateralVault.wp_subLocked, CollateralVault.wp_addFree, CollateralVault.wp_emit]
  refine ⟨fun _ => ?_, fun hno => absurd hv hno⟩
  refine ⟨fun _ => ⟨fun _ => ⟨fun _ => ⟨fun _ => ?_, fun _ => trivial⟩, fun _ => trivial⟩,
    fun _ => trivial⟩, fun _ => trivial⟩
  exact hQ _ rfl rfl

/-- What the loop goes through is not due after it, and nothing becomes due. -/
theorem sweepAll_quiet {hs : List Bytes32} (hv : net.isVault w.registry.vault = true) :
    (sweepAll net hs).wp Rely.quiet (fun _ w' => ∀ x, w'.Due x → w.Due x ∧ x ∉ hs) w := by
  induction hs generalizing w with
  | nil => exact fun x hx => ⟨hx, List.not_mem_nil⟩
  | cons h hs ih =>
      rw [sweepAll, wp_bind]
      unfold sweepOne
      simp only [wp_bind, wp_read, wp_ite, wp_setStatus, wp_pure, wp_emit]
      refine ⟨fun hdue => ?_, fun hnot => ?_⟩
      · refine vaultReturn_quiet hv fun w' hregistry htime => ?_
        have hv' : net.isVault w'.registry.vault = true := by
          rw [hregistry]
          exact hv
        refine wp_mono (ih hv') fun _ w'' hrest x hx => ?_
        obtain ⟨⟨hpend, hexpired⟩, hnew⟩ := hrest x hx
        have hrecord : w'.registry.commitments x
            = update w.registry.commitments h
              ((w.registry.commitments h).close .EXPIRED) x :=
          congrArg (fun r : CommitmentRegistry => r.commitments x) hregistry
        have hpend' : (w'.registry.commitments x).status = .PENDING := hpend
        have hexpired' : (w'.registry.commitments x).expiry.toNat < w'.timestamp := hexpired
        have hne : x ≠ h := by
          rintro rfl
          rw [hrecord, Function.update_self] at hpend'
          cases hpend'
        rw [hrecord, Function.update_of_ne hne] at hpend' hexpired'
        rw [htime] at hexpired'
        refine ⟨⟨hpend', hexpired'⟩, ?_⟩
        rintro (_ | ⟨_, hmem⟩)
        · exact hne rfl
        · exact hnew hmem
      · refine wp_mono (ih hv) fun _ w' hrest x hx => ?_
        obtain ⟨hdue, hnew⟩ := hrest x hx
        refine ⟨hdue, ?_⟩
        rintro (_ | ⟨_, hmem⟩)
        · exact hnot hdue
        · exact hnew hmem

end CommitmentRegistry

/-- A sweep of `u`: right after it nothing that it swept is due. -/
theorem Sent.sweeps {m : Msg} {hs : List Bytes32} (hv : net.isVault w.registry.vault = true)
    (h : Sent net v u (m, .sweepExpired hs) w w') :
    ∃ w₁, (chain net).Run (KeepsWiring net v) ⟨w, []⟩ ⟨w₁, []⟩
      ∧ Bystanders net v u w₁ w' ∧ ∀ x ∈ hs, ¬w₁.Due x := by
  obtain ⟨-, c, rs, hstep, hrest, hrs, hcalls⟩ := h
  have hwp : (entry net (m, .sweepExpired hs)).wp Rely.quiet
      (fun _ w' => ∀ x ∈ hs, ¬w'.Due x) w := by
    unfold entry
    simp only [dispatch, nonpayable, CommitmentRegistry.sweepExpired, receipt, wp_bind,
      wp_require, CommitmentRegistry.wp_nonReentrant, wp_modify]
    refine ⟨fun _ => ⟨fun _ => ?_, fun _ => trivial⟩, fun _ => trivial⟩
    refine wp_mono (CommitmentRegistry.sweepAll_quiet (w := w.setRegistryEntered true) hv)
      fun _ w' hswept x hx hdue => ?_
    exact (hswept x hdue).2 hx
  have hc : settle w [] (entry net (m, .sweepExpired hs) w) = c := by
    simp only [System.step] at hstep
    split at hstep
    · exact Option.some.inj hstep
    · cases hstep
  rcases Outcome.sat_quiet hwp with ⟨e, hrevert⟩ | ⟨_, w₁, hdone, hnone⟩
  · -- a reverted call leaves no receipt
    rw [hrevert] at hc
    cases hc
    obtain ⟨rs', hrs', hnocall⟩ := Bystanders.calls hrest
    rw [hrs] at hrs'
    cases List.append_cancel_left hrs'
    rw [hnocall] at hcalls
    cases hcalls
  · rw [hdone] at hc
    cases hc
    have hkeeps : KeepsWiring net v w (.enter (m, .sweepExpired hs)) := trivial
    exact ⟨w₁, .single hkeeps hstep, hrest, hnone⟩

/-- A record only goes on. -/
theorem evolves_of_run (h : (chain net).Run (KeepsWiring net v) ⟨w, []⟩ ⟨w', []⟩) (x : Bytes32) :
    (w.registry.commitments x).Evolves (w'.registry.commitments x) := by
  obtain ⟨m, es, rs, hp, -⟩ := run_trans (KeepsWiring.allows net v) h
  exact evolves_path hp x

/-- A settled commitment stays settled. -/
theorem settled_later (h : (chain net).Run (KeepsWiring net v) ⟨w, []⟩ ⟨w', []⟩) {x : Bytes32}
    (hx : (w.registry.commitments x).status.Terminal) :
    (w'.registry.commitments x).status.Terminal := by
  rw [(evolves_of_run h x).follows.terminal hx]
  exact hx

/-- An order that is due stays due until it is settled. -/
theorem due_or_settled (h : (chain net).Run (KeepsWiring net v) ⟨w, []⟩ ⟨w', []⟩) {x : Bytes32}
    (hdue : w.Due x) : w'.Due x ∨ (w'.registry.commitments x).status.Terminal := by
  have hev := evolves_of_run h x
  have hopen : (w.registry.commitments x).status ≠ .NONE := by
    rw [hdue.1]
    decide
  have hclosed := hev.frozen hopen
  have hne := hev.follows.ne_none hopen
  cases hstatus : (w'.registry.commitments x).status with
  | NONE => exact absurd hstatus hne
  | PENDING =>
      refine Or.inl ⟨hstatus, ?_⟩
      rw [hclosed]
      exact hdue.2.trans_le (steady_run h).1
  | EXECUTED | CANCELLED | EXPIRED => exact Or.inr trivial

/-- An order that was open and expired when the script began is settled
once it was swept. -/
theorem ReturnScript.swept {w₀ : World} {steps : List ReturnStep} {hs : List Bytes32} {x : Bytes32}
    (hw : Wired net v w₀) (hrun : (chain net).Run (KeepsWiring net v) ⟨w₀, []⟩ ⟨w, []⟩)
    (h : ReturnScript net v u steps w w') (hsteps : .sweepExpired hs ∈ steps) (hx : x ∈ hs)
    (hdue : w.Due x) : (w'.registry.commitments x).status.Terminal := by
  induction h with
  | finish => cases hsteps
  | @skip w w₁ w' s steps hothers hzero hrest ih =>
      rcases due_or_settled hothers.keeps hdue with hstill | hsettled
      · refine ih (hrun.trans hothers.keeps) ?_ hstill
        rcases List.mem_cons.1 hsteps with rfl | hlater
        · cases hzero
        · exact hlater
      · exact settled_later hrest.keeps hsettled
  | @send w w₁ w₂ w₃ w' s steps m y hread hbalance hothers hsent hrest ih =>
      have hhere : (chain net).Run (KeepsWiring net v) ⟨w, []⟩ ⟨w₂, []⟩ :=
        hread.keeps.trans hothers.keeps
      rcases List.mem_cons.1 hsteps with rfl | hlater
      · -- nothing is due right after the sweep
        have hwired := run_wired hw (hrun.trans hhere)
        have hvault : w₂.registry.vault = v := hwired.vault
        have hv : net.isVault w₂.registry.vault = true := by
          rw [hvault]
          exact hwired.isVault
        obtain ⟨wm, hsweep, hafter, hnone⟩ := Sent.sweeps hv hsent
        rcases due_or_settled (hhere.trans hsweep) hdue with hstill | hsettled
        · exact absurd hstill (hnone x hx)
        · exact settled_later (hafter.keeps.trans hrest.keeps) hsettled
      · have hsent' := hhere.trans hsent.keeps
        rcases due_or_settled hsent' hdue with hstill | hsettled
        · exact ih (hrun.trans hsent') hlater hstill
        · exact settled_later hrest.keeps hsettled

-- =================================================================== the result

/-- What the script returns, in a run of it that comes to its end. For each
of its tokens there is a point at which it read the balance; what it
withdrew of the token is all that the user had in the vault when it began,
but for what was executed before that point and what was open there; and no
order that the script cancelled, and none that it swept and that was open
and expired when it began, was. -/
theorem return_script_accounts {cfg : ReturnConfig} {w₀ : World} (hd : Deployed w₀)
    (hw : Wired net cfg.collateralVault w₀)
    (hrun : (chain net).Run (KeepsWiring net cfg.collateralVault) ⟨w₀, []⟩ ⟨w, []⟩)
    (hscript : ReturnScript net cfg.collateralVault cfg.user cfg.steps w w')
    (hnodup : cfg.tokens.Nodup) (ht : t ∈ cfg.tokens) :
    ∃ w₁ rs₁ rs₂, w₁.receipts = w.receipts ++ rs₁ ∧ w'.receipts = w₁.receipts ++ rs₂
      ∧ (chain net).Run (KeepsWiring net cfg.collateralVault) ⟨w, []⟩ ⟨w₁, []⟩
      ∧ (chain net).Run (KeepsWiring net cfg.collateralVault) ⟨w₁, []⟩ ⟨w', []⟩
      ∧ withdrawn cfg.collateralVault cfg.user t (rs₁ ++ rs₂)
        = (w₁.vaults cfg.collateralVault).freeBalance cfg.user t
      ∧ withdrawn cfg.collateralVault cfg.user t (rs₁ ++ rs₂)
          + executedStake w₁.registry.commitments cfg.user t rs₁
          + ∑ h, (w₁.registry.commitments h).pendingStake cfg.user t
        = w.claim cfg.collateralVault cfg.user t
      ∧ (∀ entry ∈ cfg.cancelEntries, (w₁.registry.commitments entry.1).status.Terminal)
      ∧ ∀ h ∈ cfg.expiredCommitments, w.Due h →
        (w₁.registry.commitments h).status.Terminal := by
  obtain ⟨user, v, expired, cancels, tokens⟩ := cfg
  obtain ⟨as, bs, rfl⟩ := List.append_of_mem ht
  obtain ⟨hbs, has⟩ : t ∉ bs ∧ t ∉ as := by
    obtain ⟨-, hcons, hdisjoint⟩ := List.nodup_append.1 hnodup
    exact ⟨(List.nodup_cons.1 hcons).1,
      fun hmem => hdisjoint t hmem t List.mem_cons_self rfl⟩
  obtain ⟨before, hbefore⟩ : ∃ before, before
      = (if expired.length > 0 then [ReturnStep.sweepExpired expired] else [])
        ++ cancels.map (fun entry => ReturnStep.cancel entry.1 entry.2)
        ++ as.map ReturnStep.withdraw := ⟨_, rfl⟩
  have hsteps : ReturnConfig.steps ⟨user, v, expired, cancels, as ++ t :: bs⟩
      = before ++ .withdraw t :: (bs.map .withdraw ++ [.withdrawGas]) := by
    rw [hbefore]
    simp [ReturnConfig.steps, List.append_assoc]
  have hafter : .withdraw t ∉ bs.map ReturnStep.withdraw ++ [.withdrawGas] := by
    simp [hbs]
  have huntouched : .withdraw t ∉ before := by
    rw [hbefore]
    split <;> simp [has]
  rw [hsteps] at hscript
  obtain ⟨wa, hfirst, hrest⟩ := hscript.split
  obtain ⟨w₁, rs, hothers, hlast, hrs, hpaid⟩ := hrest.reads hafter
  have hbefore₁ : (chain net).Run (KeepsWiring net v) ⟨w, []⟩ ⟨w₁, []⟩ :=
    hfirst.keeps.trans hothers.keeps
  -- the calls of the script up to the point at which it reads the balance
  obtain ⟨ra, hra, -, hmade⟩ := hfirst.calls
  obtain ⟨ra', hra', hnone, hnodeposit⟩ := hfirst.untouched huntouched
  rw [hra] at hra'
  cases List.append_cancel_left hra'
  obtain ⟨rb, hrb, hnone', hnodeposit'⟩ :=
    (ReturnScript.finish hothers).untouched List.not_mem_nil
  obtain ⟨rs₁, hrs₁, hclaim, -⟩ := claims_of_run (run_wired hw hrun) hbefore₁ user t
  have hall : rs₁ = ra ++ rb := by
    rw [hrb, hra, List.append_assoc] at hrs₁
    exact (List.append_cancel_left hrs₁).symm
  have hwithdrawn : ∀ x y, withdrawn v user t (x ++ y)
      = withdrawn v user t x + withdrawn v user t y := by
    intro x y
    unfold withdrawn
    rw [List.map_append, List.sum_append]
  have hdeposited : deposited v user t (ra ++ rb) = 0 := by
    unfold deposited at hnodeposit hnodeposit' ⊢
    rw [List.map_append, List.sum_append, hnodeposit, hnodeposit']
  have hearlier : withdrawn v user t rs₁ = 0 := by
    rw [hall, hwithdrawn, hnone, hnone']
  rw [hearlier, hall, hdeposited, ← hall] at hclaim
  refine ⟨w₁, rs₁, rs, hrs₁, hrs, hbefore₁, hlast, ?_, ?_, ?_, ?_⟩
  · rw [hwithdrawn, hearlier, hpaid, Nat.zero_add]
  · rw [hwithdrawn, hearlier, hpaid]
    show 0 + (w₁.vaults v).freeBalance user t + executedStake w₁.registry.commitments user t rs₁
      + ∑ h, (w₁.registry.commitments h).pendingStake user t = w.claim v user t
    have hclaim₁ : (w₁.vaults v).freeBalance user t
        + ∑ h, (w₁.registry.commitments h).pendingStake user t
        + (0 + executedStake w₁.registry.commitments user t rs₁) = w.claim v user t + 0 := hclaim
    omega
  · intro entry hentry
    have hmem : .cancel entry.1 entry.2 ∈ before := by
      rw [hbefore]
      refine List.mem_append_left _ (List.mem_append_right _ ?_)
      exact List.mem_map.2 ⟨entry, hentry, rfl⟩
    obtain ⟨x, hcall⟩ := hmade _ hmem fun _ => rfl
    obtain ⟨r, hr, hrcall⟩ := List.mem_map.1 hcall
    have hsettled : (entry.1, entry.2) ∈ settlements wa.receipts := by
      rw [hra]
      refine List.mem_filterMap.2 ⟨r, List.mem_append_right _ (List.mem_of_mem_filter hr), ?_⟩
      rw [hrcall]
      rfl
    have htrans := run_trans (KeepsWiring.allows net v) (hrun.trans hfirst.keeps)
    exact settled_later hothers.keeps (settled_of_call hd htrans hsettled)
  · intro h hh hdue
    have hmem : .sweepExpired expired ∈ before := by
      rw [hbefore, if_pos (List.length_pos_of_mem hh)]
      exact List.mem_append_left _ (List.mem_append_left _ List.mem_cons_self)
    exact settled_later hothers.keeps (hfirst.swept hw hrun hmem hh hdue)

-- ================================================================== a sample

/-- A transaction that runs no code of others. -/
theorem Sent.of_step {i : Msg × Call} (now : ℕ) (hsender : i.1.sender = u)
    (hstep : (chain net).step ⟨w, []⟩ (.enter i) = some ⟨w', []⟩)
    (hreceipts : w'.receipts = w.receipts ++ [⟨now, u, i.2⟩]) : Sent net v u i w w' :=
  ⟨hsender, ⟨w', []⟩, _, hstep, .refl _, hreceipts, by simp [callsOf]⟩

/-- User 8 has two expired orders, one that is not, and a free balance;
the script knows one of the expired ones. -/
def sampleReturn : ReturnConfig where
  user := 8
  collateralVault := 3
  expiredCommitments := [77]
  cancelEntries := [(79, 500)]
  tokens := [10]

/-- What comes after the orders of `sampleExpiring`; user 9 sweeps the other
expired order between the script's last read and its withdrawal. -/
def sampleReturning : List ChainMove :=
  [call 8 (.sweepExpired [77]), call 8 (.cancelCommitment 79 500), call 9 (.sweepExpired [78]),
    call 8 (.withdraw 3 10 70)]

/-- The world after the first `k` of them. -/
def returningWorld (k : ℕ) : World :=
  (chain sampleNet).endState (sampleReturning.take k)
    ((chain sampleNet).endState sampleExpiring sampleWorld)

/-- The deposits and registrations of the sample. -/
theorem sampleReturn_before :
    (chain sampleNet).Run (KeepsWiring sampleNet 3) ⟨sampleWorld, []⟩ ⟨returningWorld 0, []⟩ := by
  show (chain sampleNet).Run (KeepsWiring sampleNet 3) ⟨sampleWorld, []⟩
    ⟨(chain sampleNet).endState sampleExpiring sampleWorld, []⟩
  refine .of_endState ?_ (by decide +kernel)
  simp [sampleExpiring, sampleSetup, call, KeepsWiring, Call.KeepsWiring]

/-- A stranger's transaction between two steps. -/
theorem sampleReturn_others : Bystanders sampleNet 3 8 (returningWorld 2) (returningWorld 3) := by
  have hothers : ByOthers sampleNet 3 8 (returningWorld 2) (call 9 (.sweepExpired [78])) := by
    refine ⟨trivial, fun i hi => ?_⟩
    cases hi
    decide
  exact .single hothers rfl

/-- The first transaction of the script. -/
theorem sampleReturn_sweep : Sent sampleNet 3 8 (⟨8, 0, 1, 1⟩, .sweepExpired [77])
    (returningWorld 0) (returningWorld 1) := .of_step 2500 rfl rfl rfl

/-- The second. -/
theorem sampleReturn_cancel : Sent sampleNet 3 8 (⟨8, 0, 1, 1⟩, .cancelCommitment 79 500)
    (returningWorld 1) (returningWorld 2) := .of_step 2500 rfl rfl rfl

/-- The whole script. -/
theorem sampleReturn_run :
    ReturnScript sampleNet 3 8 sampleReturn.steps (returningWorld 0) (returningWorld 4) := by
  have hwithdraw : Sent sampleNet 3 8 (⟨8, 0, 1, 1⟩, .withdraw 3 10 70) (returningWorld 3)
      (returningWorld 4) := .of_step 2500 rfl rfl rfl
  have hread : ∀ b, ReturnStep.balance 3 8 (returningWorld 2) (.withdraw 10) = some b →
      (70 : U256).val = b ∧ b ≠ 0 := by
    intro b hb
    have hfree : b = 70 := by
      rw [← Option.some.inj hb]
      decide +kernel
    rw [hfree]
    decide
  have hgas : ReturnStep.balance 3 8 (returningWorld 4) .withdrawGas = some 0 := rfl
  have hfinal := ReturnScript.send (x := 70) (.refl _) hread sampleReturn_others hwithdraw
    (.skip (.refl _) hgas (.finish (.refl _)))
  have hlater := ReturnScript.send (x := 0) (s := .cancel 79 500) (.refl _) (fun _ h => nomatch h)
    (.refl _) sampleReturn_cancel hfinal
  exact .send (x := 0) (s := .sweepExpired [77]) (.refl _) (fun _ h => nomatch h) (.refl _)
    sampleReturn_sweep hlater

/-- It withdraws 70; the order that user 9 swept was open when it read. -/
theorem return_script_accounts_sample :
    ∃ w₁ : World, (w₁.vaults 3).freeBalance 8 10 = 70
      ∧ 70 + ∑ h, (w₁.registry.commitments h).pendingStake 8 10 = (returningWorld 0).claim 3 8 10
      ∧ (w₁.registry.commitments 77).status.Terminal
      ∧ (w₁.registry.commitments 79).status.Terminal := by
  have hrun : ReturnScript sampleNet sampleReturn.collateralVault sampleReturn.user
      sampleReturn.steps (returningWorld 0) (returningWorld 4) := sampleReturn_run
  have hwired : Wired sampleNet sampleReturn.collateralVault sampleWorld := sampleWorld_wired
  have htoken : (10 : Address) ∈ sampleReturn.tokens := List.mem_cons_self
  have hdue : (returningWorld 0).Due 77 := by decide +kernel
  obtain ⟨w₁, rs₁, rs₂, hrs₁, hrs₂, -, -, hpaid, hclaim, hcancels, hexpired⟩ :=
    return_script_accounts sampleWorld_deployed hwired sampleReturn_before hrun (by decide) htoken
  have hreceipts : (returningWorld 4).receipts = (returningWorld 0).receipts
      ++ [⟨2500, 8, .sweepExpired [77]⟩, ⟨2500, 8, .cancelCommitment 79 500⟩,
        ⟨2500, 9, .sweepExpired [78]⟩, ⟨2500, 8, .withdraw 3 10 70⟩] := rfl
  rw [hrs₂, hrs₁, List.append_assoc] at hreceipts
  have hcalls := List.append_cancel_left hreceipts
  have hexecuted : executedStake w₁.registry.commitments 8 10 rs₁ = 0 := by
    have hnone : executedStake w₁.registry.commitments 8 10 (rs₁ ++ rs₂) = 0 := by
      rw [hcalls]
      rfl
    unfold executedStake at hnone ⊢
    rw [List.map_append, List.sum_append] at hnone
    exact Nat.eq_zero_of_add_eq_zero_right hnone
  have hamount : withdrawn 3 8 10 (rs₁ ++ rs₂) = 70 := by
    rw [hcalls]
    decide +kernel
  refine ⟨w₁, hpaid.symm.trans hamount, ?_, hexpired 77 List.mem_cons_self hdue,
    hcancels (79, 500) List.mem_cons_self⟩
  refine Eq.trans ?_ hclaim
  show 70 + _ = withdrawn 3 8 10 (rs₁ ++ rs₂) + executedStake w₁.registry.commitments 8 10 rs₁ + _
  rw [hamount, hexecuted]
  rfl

/-- In between the balance rose to 100, and 70 can still be withdrawn. -/
theorem read_balance_withdraws_sample :
    ((returningWorld 3).vaults 3).freeBalance 8 10 = 100
      ∧ Completes sampleNet (⟨8, 0, 0, 0⟩, .withdraw 3 10 70) (fun _ => True)
        (returningWorld 3) := by
  have hbefore : (chain sampleNet).Run (KeepsWiring sampleNet 3) ⟨sampleWorld, []⟩
      ⟨returningWorld 2, []⟩ := by
    have hsweep := Sent.keeps (s := .sweepExpired [77]) (x := 0) sampleReturn_sweep
    have hcancel := Sent.keeps (s := .cancel 79 500) (x := 0) sampleReturn_cancel
    exact sampleReturn_before.trans (hsweep.trans hcancel)
  have hpays : PaysOut sampleNet 10 3 8 (returningWorld 3) :=
    ⟨rfl, by decide +kernel, fun _ => rfl⟩
  refine ⟨by decide +kernel, ?_⟩
  exact read_balance_withdraws sampleWorld_deployed sampleWorld_wired hbefore
    sampleReturn_others hpays (by decide +kernel) (by decide)

end Zstrategy.Contracts
