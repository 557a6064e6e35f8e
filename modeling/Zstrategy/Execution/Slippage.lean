/-
Slippage. `minOut` is stored at registration, proved to the circuit, and
handed to the adapter, which replaces it by 0 on its way to the router. So
nothing the registry runs can tell a router that pays the owner from one
that pays nothing: `executeCommitment` is blind to what was paid, and
every successful execution has a twin in which the owner receives nothing.

So the converse direction is the one with content: a commitment is protected
only where no execution of it can succeed, or where there is nothing to
protect. What makes an execution succeed is spelled out in `Checked`, which
reads only the state and the arguments, and `authorise_still`,
`vaultRelease_still` and `adapterSwap_still` follow the code under a rely
that answers every call and does nothing else.
-/
import Zstrategy.Execution.Authorisation
import Zstrategy.Lib.Transcript

namespace Zstrategy.Contracts

open Lib Code

variable {net : Net}

-- ================================================================= blindness

/-- A request that asks a router for no minimum. -/
def Request.NoMinimum : Request → Prop
  | .exactInputSingle _ params => params.amountOutMinimum = 0
  | _ => True

/-- The same reply of a router that paid nothing. -/
def Reply.unpaid (x : Reply) : Reply := { x with paid := 0 }

/-- Code that asks for no minimum and never learns what was paid. -/
abbrev PaidBlind {α : Type} (c : Contract α) : Prop :=
  c.Blind Request.NoMinimum Reply.unpaid

open Code.Blind

/-- A call that names no minimum may as well pay nothing. -/
theorem PaidBlind.ask {req : Request} (hreq : req.NoMinimum) :
    PaidBlind (do let _ ← ask req : Contract Unit) :=
  Code.Blind.ask hreq (fun _ => rfl) fun _ => Code.Blind.pure ()

/-- A reply of which only the returned word is used. -/
theorem PaidBlind.returned {req : Request} (hreq : req.NoMinimum) :
    PaidBlind (do let x ← Code.ask req; return x.returned : Contract U256) :=
  Code.Blind.ask hreq (fun _ => rfl) fun _ => Code.Blind.pure _

/-- A transfer of tokens does not read what was paid. -/
theorem safeTransfer_blind (self t dst : Address) (a : U256) :
    PaidBlind (safeTransfer net self t dst a) := by
  unfold safeTransfer standardMove
  refine .ite (.bind .read fun w => ?_) (PaidBlind.ask trivial)
  exact .bind (.require _ _) fun _ => .bind (.require _ _) fun _ => .modify _

/-- Nor does the vault. -/
theorem releaseForExecution_blind (s v : Address) (h : Bytes32) (t : Address) (a : U256)
    (dst : Address) :
    PaidBlind (CollateralVault.releaseForExecution net s v h t a dst) := by
  unfold CollateralVault.releaseForExecution CollateralVault.onlyRegistry
    CollateralVault.subLocked
  refine .bind (.bind .read fun _ => .require _ _) fun _ => .bind .read fun _ => ?_
  refine .bind (.require _ _) fun _ => .bind ?_ fun _ => ?_
  · exact .bind .read fun _ => .bind (.ofExcept _) fun _ => .modify _
  · exact .bind (safeTransfer_blind v t dst a) fun _ => .modify _

/-- Nor does the adapter's approval. -/
theorem forceApprove_blind (t spender : Address) :
    PaidBlind (forceApprove net t spender) := by
  unfold forceApprove
  exact .ite (.pure ()) (PaidBlind.ask trivial)

/-- The adapter asks the router for no minimum. -/
theorem swap_blind (x : Address) (a : AdapterParams) (tIn tOut : Address)
    (amountIn minOut : U256) (u : Address) :
    PaidBlind (UniswapV3Adapter.swap net x a tIn tOut amountIn minOut u) := by
  unfold UniswapV3Adapter.swap
  refine .bind .read fun w => ?_
  have hrouter : PaidBlind (do
      let x ← Code.ask (.exactInputSingle a.router
        (UniswapV3Adapter.routerParams a tIn tOut amountIn minOut u))
      return x.returned) := PaidBlind.returned rfl
  refine .ite (.bind (forceApprove_blind tIn a.router) fun _ => ?_) hrouter
  exact .bind (.modify _) fun _ => hrouter

/-- Nor does the gas vault. -/
theorem debit_blind (s u k : Address) (x : ℕ) (h : Bytes32) :
    PaidBlind (GasVault.debit net s u k x h) := by
  unfold GasVault.debit GasVault.onlyRegistry GasVault.nonReentrant GasVault.subBalance
    GasVault.sendValue GasVault.credit GasVault.addBalance
  refine .bind (.bind .read fun _ => .require _ _) fun _ => .bind .read fun _ => ?_
  refine .bind (.require _ _) fun _ => .bind (.modify _) fun _ => .bind ?_ fun _ => .modify _
  refine .bind .read fun _ => .bind (.require _ _) fun _ => .bind ?_ fun _ => .bind ?_ ?_
  · exact .bind .read fun _ => .bind (.ofExcept _) fun _ => .modify _
  · refine .bind .read fun _ => .bind (.require _ _) fun _ => .bind (.modify _) fun _ => ?_
    refine .ite (.bind (.require _ _) fun _ => .bind ?_ fun _ => .modify _)
      (PaidBlind.ask trivial)
    exact .bind .read fun _ => .bind (.ofExcept _) fun _ => .modify _
  · exact fun _ => .modify _

namespace CommitmentRegistry

/-- Nor do the checks, which call nobody. -/
theorem authorise_blind (h n : Bytes32) (proof : List UInt8) (x : UInt64) :
    PaidBlind (authorise h n proof x) := by
  unfold authorise
  refine .bind .read fun _ => .bind (.require _ _) fun _ => .bind (.require _ _) fun _ => ?_
  refine .bind (.require _ _) fun _ => .bind (.require _ _) fun _ => ?_
  exact .bind (.ofExcept _) fun _ => .bind (.require _ _) fun _ => .pure _

/-- Nor does the registry's call of the vault. -/
theorem vaultRelease_blind (h : Bytes32) (t : Address) (a : U256) (dst : Address) :
    PaidBlind (vaultRelease net h t a dst) := by
  unfold vaultRelease
  refine .bind .read fun w => .ite ?_ (PaidBlind.ask trivial)
  exact releaseForExecution_blind _ _ h t a dst

/-- Nor does its call of the adapter, which asks the router for no
minimum. -/
theorem adapterSwap_blind (tIn tOut : Address) (amountIn minOut : U256) (u : Address) :
    PaidBlind (adapterSwap net tIn tOut amountIn minOut u) := by
  unfold adapterSwap
  refine .bind .read fun w => ?_
  cases net.adapter w.registry.dexAdapter with
  | some a => exact swap_blind _ a tIn tOut amountIn minOut u
  | none => exact PaidBlind.returned trivial

/-- Nor does its call of the gas vault. -/
theorem debitGas_blind (m : Msg) (u : Address) (h : Bytes32) :
    PaidBlind (debitGas net m u h) := by
  unfold debitGas gasVaultDebit
  refine .ite (.pure ()) (.bind (.ofExcept _) fun _ => .bind (.ofExcept _) fun _ => ?_)
  exact .bind .read fun _ => .ite (debit_blind _ u m.sender _ h) (PaidBlind.ask trivial)

/-- So the execution as a whole does not. -/
theorem executeCommitment_blind (m : Msg) (h n : Bytes32) (proof : List UInt8)
    (x : UInt64) : PaidBlind (executeCommitment net m h n proof x) := by
  unfold executeCommitment nonReentrant whenNotPaused
  refine .bind .read fun _ => .bind (.require _ _) fun _ => .bind (.modify _) fun _ =>
    .bind ?_ fun _ => .modify _
  refine .bind (.bind .read fun _ => .require _ _) fun _ => ?_
  refine .bind (authorise_blind h n proof x) fun y => .bind (.modify _) fun _ => ?_
  refine .bind (.bind .read fun _ => .modify _) fun _ => .bind .read fun _ => ?_
  refine .bind (vaultRelease_blind h _ _ _) fun _ => .bind .read fun _ => ?_
  refine .bind (adapterSwap_blind _ _ _ _ _) fun _ => .bind .read fun _ => ?_
  exact .bind (debitGas_blind m _ h) fun _ => .bind .read fun _ => .modify _

end CommitmentRegistry

-- ============================================================ what is checked

/-- The checks that our vault makes before it lets `a` of `t` go to `dst`. -/
structure CollateralVault.Releases (net : Net) (w : World) (h : Bytes32) (t : Address)
    (a : U256) (dst : Address) : Prop where
  registry : net.registry = (w.vaults w.registry.vault).registry
  locked : a.val ≤ (w.vaults w.registry.vault).lockedBalance h t
  accepted : net.standard t = true → w.ext.refuses t w.registry.vault dst a.val = false
  held : net.standard t = true → a.val ≤ w.balances t w.registry.vault

namespace CommitmentRegistry

variable {w : World} {h n : Bytes32} {proof : List UInt8} {x y : UInt64} {m : Msg}
  {t dst : Address} {a : U256} {r : Reply}

/-- The checks that an execution passes before control leaves our code. -/
structure Checked (net : Net) (w : World) (h n : Bytes32) (proof : List UInt8) (x : UInt64) :
    Prop where
  free : w.registry.entered = false
  running : w.registry.paused = false
  authorised : ∃ y, Authorised w h n proof x y
  released : net.isVault w.registry.vault = true →
    CollateralVault.Releases net w h (w.registry.commitments h).tokenIn
      (w.registry.commitments h).size w.registry.dexAdapter

/-- A release that returns has found the lock. -/
theorem vaultRelease_checks :
    (vaultRelease net h t a dst).wp Rely.any (fun _ _ =>
      net.isVault w.registry.vault = true → CollateralVault.Releases net w h t a dst) w := by
  unfold vaultRelease CollateralVault.releaseForExecution
  simp only [wp_bind, wp_read, wp_ite]
  refine ⟨fun _ => ?_, fun hv => ⟨trivial, fun _ _ _ _ _ hv' => absurd hv' hv⟩⟩
  rw [CollateralVault.wp_onlyRegistry]
  refine ⟨fun hreg => wp_require_any fun hle => ?_, fun _ => trivial⟩
  simp only [CollateralVault.wp_subLocked, wp_safeTransfer, CollateralVault.wp_emit]
  refine ⟨fun _ => ⟨fun hstd => ?_, fun hstd => ?_⟩, fun _ => trivial⟩
  · refine ⟨fun hacc => ⟨fun hheld _ => ?_, fun _ => trivial⟩, fun _ => trivial⟩
    exact ⟨hreg, hle, fun _ => hacc, fun _ => hheld⟩
  · refine ⟨trivial, fun _ _ _ _ _ _ => ⟨hreg, hle, ?_, ?_⟩⟩
    · exact fun hs => absurd hs hstd
    · exact fun hs => absurd hs hstd

/-- An execution that returns has passed the checks. -/
theorem executeCommitment_checks :
    (executeCommitment net m h n proof x).wp Rely.any
      (fun _ _ => Checked net w h n proof x) w := by
  unfold executeCommitment
  rw [wp_nonReentrant]
  refine ⟨fun hfree => ?_, fun _ => trivial⟩
  rw [wp_bind, wp_whenNotPaused]
  refine ⟨fun hrun => ?_, fun _ => trivial⟩
  rw [wp_bind]
  refine wp_authorise (fun _ => trivial) fun y hy => ?_
  simp only [wp_bind, wp_spend, wp_setStatus, wp_read, World.commitments_setRecord]
  refine wp_mono vaultRelease_checks fun _ w' hrel => ?_
  refine Outcome.Sat.any fun _ w' => Outcome.Sat.any fun _ w' => ⟨hfree, hrun, ⟨y, ?_⟩, ?_⟩
  · exact ⟨hy.pending, hy.live, hy.unspent, hy.configured, hy.reference, hy.verified⟩
  · intro hv
    obtain ⟨hreg, hle, hacc, hheld⟩ := hrel hv
    exact ⟨hreg, hle, hacc, hheld⟩

/-- With everything authorised the checks pass. -/
theorem authorise_still {Q : UInt64 → World → Prop} (hy : Authorised w h n proof x y)
    (hQ : Q y w) : (authorise h n proof x).wp (Rely.still r) Q w := by
  unfold authorise
  rw [wp_bind, wp_read]
  simp only [wp_bind, wp_require, wp_pure, hy.reference, wp_ofExcept_ok]
  refine ⟨fun _ => ⟨fun _ => ⟨fun _ => ⟨fun _ => ⟨fun _ => hQ, ?_⟩, ?_⟩, ?_⟩, ?_⟩, ?_⟩
  · exact absurd hy.verified
  · exact absurd hy.configured
  · exact absurd hy.unspent
  · exact absurd hy.live
  · exact absurd hy.pending

/-- With the lock in place the vault pays. -/
theorem vaultRelease_still {Q : Unit → World → Prop}
    (hrel : net.isVault w.registry.vault = true → CollateralVault.Releases net w h t a dst)
    (hQ : ∀ w', w'.registry = w.registry → Q () w') :
    (vaultRelease net h t a dst).wp (Rely.still r) Q w := by
  unfold vaultRelease CollateralVault.releaseForExecution
  simp only [wp_bind, wp_read, wp_ite, CollateralVault.wp_onlyRegistry, wp_require,
    CollateralVault.wp_subLocked, wp_safeTransfer, CollateralVault.wp_emit, wp_ask_iff,
    asks_still]
  refine ⟨fun hv => ?_, fun _ => hQ _ rfl⟩
  obtain ⟨hreg, hle, hacc, hheld⟩ := hrel hv
  refine ⟨fun _ => ⟨fun _ => ⟨fun _ => ⟨fun hs => ?_, fun _ => hQ _ rfl⟩, ?_⟩, ?_⟩, ?_⟩
  · exact ⟨fun _ => ⟨fun _ => hQ _ rfl, absurd (hheld hs)⟩, absurd (hacc hs)⟩
  · exact absurd hle
  · exact absurd hle
  · exact absurd hreg

/-- With the adapter in place the router is asked and answers. -/
theorem adapterSwap_still {p : AdapterParams} {tOut u : Address} {b : U256}
    {Q : U256 → World → Prop} (hp : net.adapter w.registry.dexAdapter = some p)
    (hQ : ∀ w', w'.registry = w.registry → Q r.returned w') :
    (adapterSwap net t tOut a b u).wp (Rely.still r) Q w := by
  unfold adapterSwap
  simp only [wp_bind, wp_read, hp]
  unfold UniswapV3Adapter.swap forceApprove
  simp only [wp_bind, wp_read, wp_ite, wp_ask_iff, wp_pure, wp_modify, asks_still]
  exact ⟨fun _ => ⟨fun _ => hQ _ rfl, fun _ => hQ _ rfl⟩, fun _ => hQ _ rfl⟩

/-- An owner's execution that passes the checks returns, if whatever is
called returns at once. -/
theorem executeCommitment_still {p : AdapterParams} (hc : Checked net w h n proof x)
    (hp : net.adapter w.registry.dexAdapter = some p)
    (hm : m.sender = (w.registry.commitments h).owner) :
    (executeCommitment net m h n proof x).wp (Rely.still r) (fun _ _ => True) w := by
  obtain ⟨hfree, hrun, ⟨y, hy⟩, hrel⟩ := hc
  unfold executeCommitment
  rw [wp_nonReentrant]
  refine ⟨fun _ => ?_, absurd hfree⟩
  rw [wp_bind, wp_whenNotPaused]
  refine ⟨fun _ => ?_, absurd hrun⟩
  rw [wp_bind]
  refine authorise_still (y := y) ?_ ?_
  · exact ⟨hy.pending, hy.live, hy.unspent, hy.configured, hy.reference, hy.verified⟩
  simp only [wp_bind, wp_spend, wp_setStatus, wp_read, World.commitments_setRecord]
  refine vaultRelease_still (fun hv => ?_) fun w₁ h₁ => ?_
  · obtain ⟨hreg, hle, hacc, hheld⟩ := hrel hv
    exact ⟨hreg, hle, hacc, hheld⟩
  refine adapterSwap_still (p := p) (by rw [h₁]; exact hp) fun w₂ h₂ => ?_
  have howner : m.sender = (w₂.registry.commitments h).owner := by
    rw [h₂, h₁]
    show _ = ((World.setRecord _ _ _).registry.commitments h).owner
    rw [World.commitments_setRecord]
    exact hm
  unfold debitGas
  rw [if_pos howner]
  exact trivial

end CommitmentRegistry

-- ================================================================ executions

/-- A commitment in a reachable state whose adapter is a
`UniswapV3Adapter`. -/
structure Offer (net : Net) where
  world : World
  stack : List (Frame World Request Reply)
  reachable : Reachable net ⟨world, stack⟩
  params : AdapterParams
  adapter : net.adapter world.registry.dexAdapter = some params
  commitmentHash : Bytes32

/-- A call of `executeCommitment` for it. -/
structure Execution (net : Net) extends Offer net where
  msg : Msg
  nullifier : Bytes32
  proof : List UInt8
  fillRef : UInt64

/-- A router never pays less than the minimum it is given. -/
def Honoured : Request → Reply → Prop
  | .exactInputSingle _ params, x => params.amountOutMinimum ≤ x.paid
  | _, _ => True

/-- What routers paid the owner of `r` in `tokenOut`. -/
def received (r : CommitmentRecord) (tr : List (Request × Reply)) : ℕ :=
  (tr.map fun t =>
    match t.1 with
    | .exactInputSingle _ params =>
        if params.recipient = r.owner ∧ params.tokenOut = r.tokenOut then t.2.paid.val
        else 0
    | _ => 0).sum

/-- Routers that pay nothing pay the owner nothing. -/
theorem received_eq_zero {r : CommitmentRecord} {tr : List (Request × Reply)}
    (h : ∀ t ∈ tr, t.2.paid = 0) : received r tr = 0 := by
  refine List.sum_eq_zero fun x hx => ?_
  obtain ⟨t, ht, rfl⟩ := List.mem_map.1 hx
  split
  · rw [h t ht]
    split <;> rfl
  · rfl

def Offer.record (o : Offer net) : CommitmentRecord :=
  o.world.registry.commitments o.commitmentHash

namespace Execution

variable (e : Execution net)

def outcome : Outcome World Request Reply Unit :=
  entry net (e.msg, .executeCommitment e.commitmentHash e.nullifier e.proof e.fillRef) e.world

/-- The call can end this way, over routers that honour the minimum they
are given and anything else the outside can do. -/
def Ends (tr : List (Request × Reply)) (res : Option (Unit × World)) : Prop :=
  e.outcome.Ends (chain net).during Honoured tr res

/-- Slippage protection: a call that succeeds has paid the owner the
recorded minimum, and a call that does not succeed has changed nothing. -/
def Protected : Prop :=
  ∀ tr res, e.Ends tr res →
    (res.isSome → e.record.minOut.val ≤ received e.record tr)
      ∧ (res = none → after e.world res = e.world)

/-- The call reverts whatever routers and other outside code do. -/
def Reverts : Prop := ∀ tr res, e.Ends tr res → res = none

/-- The whole transaction is blind to what is paid. -/
theorem outcome_blind : e.outcome.Blind Request.NoMinimum Reply.unpaid := by
  refine Outcome.Blind.bind ?_ fun _ _ => trivial
  exact Code.Blind.bind (.require _ _)
    (fun _ => CommitmentRegistry.executeCommitment_blind e.msg _ _ _ _) e.world

/-- A minimum of 0 is honoured by paying nothing. -/
theorem honoured_unpaid {req : Request} (x : Reply) (h : req.NoMinimum) :
    Honoured req x.unpaid := by
  cases req with
  | exactInputSingle router params =>
      show params.amountOutMinimum ≤ 0
      rw [show params.amountOutMinimum = 0 from h]
  | _ => exact trivial

/-- The twin of an ending, in which the owner receives nothing. -/
theorem Ends.unpaid {e : Execution net} {tr : List (Request × Reply)}
    {res : Option (Unit × World)} (h : e.Ends tr res) :
    ∃ tr', e.Ends tr' res ∧ received e.record tr' = 0 := by
  refine ⟨_, Outcome.Ends.replace h e.outcome_blind fun _ x hreq _ =>
    honoured_unpaid x hreq, received_eq_zero fun t ht => ?_⟩
  obtain ⟨t, -, rfl⟩ := List.mem_map.1 ht
  rfl

/-- Nothing but a minimum of 0 is protected, in a call that can succeed. -/
theorem protected_iff : e.Protected ↔ e.record.minOut = 0 ∨ e.Reverts := by
  constructor
  · intro hprot
    by_contra hnot
    obtain ⟨hmin, hsucceeds⟩ := not_or.1 hnot
    simp only [Reverts, not_forall] at hsucceeds
    obtain ⟨tr, res, hends, hres⟩ := hsucceeds
    obtain ⟨tr', hends', hzero⟩ := hends.unpaid
    have hle := (hprot tr' res hends').1 (Option.isSome_iff_ne_none.2 hres)
    rw [hzero] at hle
    exact hmin (Fin.ext (Nat.le_zero.1 hle))
  · rintro (hmin | hnone) tr res hends
    · refine ⟨fun _ => ?_, fun hres => by rw [hres]; rfl⟩
      rw [hmin]
      exact Nat.zero_le _
    · rw [hnone tr res hends]
      exact ⟨nofun, fun _ => rfl⟩

end Execution

namespace Offer

variable (o : Offer net)

/-- A call of `executeCommitment`, by any caller. -/
def execution (msg : Msg) (nullifier : Bytes32) (proof : List UInt8) (fillRef : UInt64) :
    Execution net :=
  { o with msg, nullifier, proof, fillRef }

/-- Slippage protection of a commitment, whoever executes it. -/
def Protected : Prop :=
  ∀ msg nullifier proof fillRef, (o.execution msg nullifier proof fillRef).Protected

/-- Some nullifier, proof and fill reference pass the checks. -/
def Fillable : Prop :=
  ∃ nullifier proof fillRef,
    CommitmentRegistry.Checked net o.world o.commitmentHash nullifier proof fillRef

/-- Only what passes the checks can succeed, and for its owner it does. -/
theorem reverts_iff :
    (∀ msg nullifier proof fillRef, (o.execution msg nullifier proof fillRef).Reverts)
      ↔ ¬o.Fillable := by
  constructor
  · rintro hrev ⟨nullifier, proof, fillRef, hc⟩
    let e := o.execution ⟨o.record.owner, 0, 1, 1⟩ nullifier proof fillRef
    have hret : e.outcome.answered ⟨0, 0⟩ = true := by
      refine Outcome.Sat.answered (Q := fun _ _ => True) ?_
      show (entry net (e.msg, _)).wp _ _ o.world
      unfold entry dispatch nonpayable receipt
      simp only [wp_bind, wp_require, wp_modify]
      exact ⟨fun _ => CommitmentRegistry.executeCommitment_still hc o.adapter rfl, absurd rfl⟩
    have hstay : ∀ w, (chain net).during w w := fun w => .refl ⟨w, []⟩
    obtain ⟨tr, res, hends, -⟩ := Outcome.Ends.of_answered e.outcome_blind hstay
      (fun _ => Execution.honoured_unpaid ⟨0, 0⟩) hret
    exact Option.some_ne_none res (hrev _ _ _ _ tr (some res) hends)
  · intro hnot msg nullifier proof fillRef tr res hends
    cases res with
    | none => rfl
    | some r =>
        refine absurd ⟨nullifier, proof, fillRef, ?_⟩ hnot
        refine Outcome.Ends.post (Q := fun _ _ => CommitmentRegistry.Checked net o.world
          o.commitmentHash nullifier proof fillRef) hends ?_ r rfl
        show (entry net (msg, _)).wp _ _ o.world
        unfold entry dispatch nonpayable receipt
        simp only [wp_bind, wp_modify]
        exact wp_require_any fun _ => CommitmentRegistry.executeCommitment_checks

end Offer

/-- A commitment is protected only by a minimum of 0, or by being out of
anyone's reach. -/
theorem slippage_protected_iff (o : Offer net) :
    o.Protected ↔ o.record.minOut = 0 ∨ ¬o.Fillable := by
  have hcall : ∀ msg nullifier proof fillRef,
      (o.execution msg nullifier proof fillRef).Protected ↔ o.record.minOut = 0
        ∨ (o.execution msg nullifier proof fillRef).Reverts :=
    fun _ _ _ _ => Execution.protected_iff _
  rw [← o.reverts_iff]
  simp only [Offer.Protected, hcall, forall_or_left]

-- ================================================================== a sample

/-- Both verifiers and both feeds are set up, user 8 deposits 100 and
registers an order that accepts no less than 5. -/
def sampleOpening : List ChainMove :=
  sampleSetup ++
    [call 7 (.setPriceFeed 10 30), call 7 (.setPriceFeed 11 30),
      call 8 (.registerCommitment 77 10 11 60 5 2000 .ORDER_FILL)]

/-- The state after it. -/
def sampleOpen : ChainConfig :=
  ((chain sampleNet).play sampleOpening ⟨sampleWorld, []⟩).getD ⟨sampleWorld, []⟩

/-- The state of the sample is one the chain reaches. -/
theorem sampleOpen_reachable : Reachable sampleNet sampleOpen := by
  have hsome : ((chain sampleNet).play sampleOpening ⟨sampleWorld, []⟩).isSome = true := by
    decide +kernel
  obtain ⟨c, hc⟩ := Option.isSome_iff_exists.1 hsome
  have hopen : sampleOpen = c := by rw [sampleOpen, hc, Option.getD_some]
  rw [hopen]
  exact ⟨sampleWorld, sampleWorld_deployed, .of_play (fun _ _ _ => trivial) hc⟩

/-- User 8 executes the order. -/
def sampleExecution : Execution sampleNet where
  world := sampleOpen.world
  stack := sampleOpen.stack
  reachable := sampleOpen_reachable
  params := ⟨5, 3000⟩
  adapter := by
    rw [show sampleOpen.world.registry.dexAdapter = 4 by decide +kernel]
    rfl
  msg := ⟨8, 0, 1, 1⟩
  commitmentHash := 77
  nullifier := 500
  proof := []
  fillRef := 0

/-- The router pays nothing, and the execution succeeds. -/
theorem slippage_unprotected : ∃ o : Offer sampleNet, ¬o.Protected := by
  refine ⟨sampleExecution.toOffer, fun hprot => ?_⟩
  have hret : sampleExecution.outcome.answered ⟨0, 0⟩ = true := by decide +kernel
  have hhon : ∀ req : Request, req.NoMinimum → Honoured req ⟨0, 0⟩ :=
    fun req => Execution.honoured_unpaid ⟨0, 0⟩
  have hstay : ∀ w, (chain sampleNet).during w w := fun w => .refl ⟨w, []⟩
  obtain ⟨tr, res, hends, hall⟩ :=
    Outcome.Ends.of_answered sampleExecution.outcome_blind hstay hhon hret
  have hcall : sampleExecution.Protected := hprot _ _ _ _
  have hle := (hcall tr (some res) hends).1 rfl
  rw [received_eq_zero fun t ht => by rw [hall t ht]] at hle
  exact absurd hle (by decide +kernel)

end Zstrategy.Contracts
