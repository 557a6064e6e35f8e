/-
Two messages, and the exits they can come from. Each is raised at one
check only: `insufficient locked balance` by the vault when the registry
takes collateral back, `nullifier spent` by the registry before it settles
a commitment. The lemmas say so once, for any rely that does not mind the
other messages; what a caller has to bring is that the check passes, or
that the rely does not mind its message either.

The point of going through a rely is that no run is mentioned: `Lenient`
says which messages are minded, a proof along the text of an exit finds the
one check that could raise each, and `entry_avoids` makes of it that no run
of the call reverts with it.
-/
import Zstrategy.Contracts.Rules

namespace Zstrategy.Contracts

open Lib Code

variable {net : Net} {w : World} {Γ : Rely World Request Reply}

/-- The vault's message when a lock does not cover an amount. -/
def insufficientLocked : String := "Vault: insufficient locked balance"

/-- The registry's message for a nullifier that was used before. -/
def nullifierSpent : String := "Registry: nullifier spent"

def tracked : List String := [insufficientLocked, nullifierSpent]

/-- A rely that owes nothing and minds at most the tracked messages. -/
structure Lenient (Γ : Rely World Request Reply) : Prop where
  inv : ∀ w, Γ.inv w
  err : ∀ e, e ∉ tracked → Γ.err e

theorem Lenient.avoids {e : String} (he : e ∈ tracked) : Lenient (.avoids e) where
  inv _ := trivial
  err _ hm := fun heq => hm (heq ▸ he)

/-- A check with another message. -/
theorem Lenient.other (hΓ : Lenient Γ) {p q : Prop} {e : String} (he : e ∉ tracked)
    (h : p → q) : (p → q) ∧ (¬p → Γ.err e) :=
  ⟨h, fun _ => hΓ.err e he⟩

/-- A tracked check: it passes, or its message is not minded. -/
theorem checked {p q : Prop} {e : String} (hp : Γ.err e ∨ p) (h : p → q) :
    (p → q) ∧ (¬p → Γ.err e) :=
  ⟨h, fun hn => hp.resolve_right hn⟩

theorem Lenient.asks (hΓ : Lenient Γ) {req : Request} {P : Reply → World → Prop}
    (h : ∀ x w', P x w') : Asks Γ req P w :=
  ⟨hΓ.inv w, fun w' x _ _ _ => h x w'⟩

theorem Lenient.moves (hΓ : Lenient Γ) {t src dst : Address} {a : U256}
    {Q : Unit → World → Prop} (h : ∀ w', Q () w') : Moves Γ t src dst a Q w :=
  hΓ.other (by decide) fun _ => hΓ.other (by decide) fun _ => h _

variable (hΓ : Lenient Γ)

include hΓ

namespace GasVault

theorem credit_lenient {u : Address} {x : ℕ} {Q : Unit → World → Prop}
    (hQ : ∀ w', Q () w') : (credit u x).wp Γ Q w := by
  unfold credit
  simp only [wp_bind, wp_require, wp_addBalance, wp_emit]
  exact hΓ.other (by decide) fun _ => hΓ.other (by decide) fun _ => hQ _

theorem debit_lenient {sender u k : Address} {x : ℕ} {h : Bytes32}
    {Q : Unit → World → Prop} (hQ : ∀ w', Q () w') :
    (debit net sender u k x h).wp Γ Q w := by
  unfold debit sendValue
  simp only [wp_bind, wp_onlyRegistry, wp_nonReentrant, wp_read, wp_require,
    wp_subBalance, wp_modify, wp_ite, wp_ask_iff, wp_pure, wp_emit]
  refine hΓ.other (by decide) fun _ => hΓ.other (by decide) fun _ => ?_
  refine hΓ.other (by decide) fun _ => hΓ.other (by decide) fun _ => ?_
  refine hΓ.other (by decide) fun _ => ⟨fun _ => ?_, fun _ => ?_⟩
  · exact credit_lenient hΓ fun _ => hQ _
  · exact hΓ.asks fun _ _ => hQ _

end GasVault

namespace CommitmentRegistry

theorem adapterSwap_lenient {tIn tOut u : Address} {x y : U256}
    {Q : U256 → World → Prop} (hQ : ∀ r w', Q r w') :
    (adapterSwap net tIn tOut x y u).wp Γ Q w := by
  unfold adapterSwap
  simp only [wp_bind, wp_read]
  cases net.adapter w.registry.dexAdapter with
  | none => exact hΓ.asks fun _ _ => hQ _ _
  | some a =>
      unfold UniswapV3Adapter.swap forceApprove
      simp only [wp_bind, wp_read, wp_ite, wp_ask_iff, wp_pure, wp_modify]
      have hrouter : ∀ w' : World, Asks Γ (.exactInputSingle a.router
          (UniswapV3Adapter.routerParams a tIn tOut x y u)) (fun r => Q r.returned) w' :=
        fun _ => hΓ.asks fun _ _ => hQ _ _
      exact ⟨fun _ => ⟨fun _ => hrouter _, fun _ => hΓ.asks fun _ _ => hrouter _⟩,
        fun _ => hrouter _⟩

theorem debitGas_lenient {m : Msg} {u : Address} {h : Bytes32} {Q : Unit → World → Prop}
    (hQ : ∀ w', Q () w') : (debitGas net m u h).wp Γ Q w := by
  unfold debitGas gasVaultDebit
  simp only [wp_ite, wp_pure, wp_bind, wp_checkedMul, wp_read, wp_ask_iff]
  refine ⟨fun _ => hQ _, fun _ => hΓ.other (by decide) fun _ => ?_⟩
  refine hΓ.other (by decide) fun _ => ⟨fun _ => ?_, fun _ => hΓ.asks fun _ _ => hQ _⟩
  exact GasVault.debit_lenient hΓ hQ

theorem readFeed_lenient {x : Address} {P : Feed → World → Prop} (hP : ∀ f, P f w) :
    (ofExcept (readFeed w x) : Contract Feed).wp Γ P w := by
  unfold readFeed
  split
  next f _ => exact hP f
  next => exact hΓ.err _ (by decide)

theorem fillReference_lenient {c : CommitmentRecord} {x : UInt64}
    {P : UInt64 → World → Prop} (hP : ∀ y, P y w) :
    (ofExcept (fillReference w c x) : Contract UInt64).wp Γ P w := by
  unfold fillReference
  cases c.kind with
  | ORDER_FILL =>
      simp only [wp_ofExcept_bind, wp_expect, readOraclePrice, wp_checkedSub,
        wp_checkedMul]
      refine hΓ.other (by decide) fun _ => hΓ.other (by decide) fun _ => ?_
      refine hΓ.other (by decide) fun _ => ?_
      refine readFeed_lenient hΓ fun f => readFeed_lenient hΓ fun g => ?_
      refine hΓ.other (by decide) fun _ => hΓ.other (by decide) fun _ => ?_
      refine hΓ.other (by decide) fun _ => hΓ.other (by decide) fun _ => ?_
      refine hΓ.other (by decide) fun _ => hΓ.other (by decide) fun _ => ?_
      refine hΓ.other (by decide) fun _ => hΓ.other (by decide) fun _ => ?_
      exact hΓ.other (by decide) fun _ => hP _
  | DCA =>
      simp only [wp_ofExcept_bind, wp_expect]
      exact hΓ.other (by decide) fun _ => hΓ.other (by decide) fun _ => hP _

variable {h n : Bytes32} {m : Msg}

theorem authorise_lenient {proof : List UInt8} {x : UInt64} {Q : UInt64 → World → Prop}
    (hn : Γ.err nullifierSpent ∨ w.registry.nullifiers n = false)
    (hQ : ∀ y, (w.registry.commitments h).status = .PENDING → Q y w) :
    (authorise h n proof x).wp Γ Q w := by
  have hfill : ∀ {P : UInt64 → World → Prop}, (∀ y, P y w) →
      (ofExcept (fillReference w (w.registry.commitments h) x)
        : Contract UInt64).wp Γ P w := fillReference_lenient hΓ
  unfold authorise
  rw [wp_bind, wp_read]
  simp only [wp_bind, wp_require, wp_pure]
  refine hΓ.other (by decide) fun hp => hΓ.other (by decide) fun _ => ?_
  refine checked hn fun _ => hΓ.other (by decide) fun _ => ?_
  exact hfill fun y => hΓ.other (by decide) fun _ => hQ y hp

/-- An execution raises neither message if the nullifier is unspent and
the vault covers a pending order. -/
theorem executeCommitment_lenient {proof : List UInt8} {x : UInt64}
    (hn : Γ.err nullifierSpent ∨ w.registry.nullifiers n = false)
    (hv : (w.registry.commitments h).status = .PENDING →
      Γ.err insufficientLocked ∨ (w.registry.commitments h).size.val
        ≤ (w.vaults w.registry.vault).lockedBalance h (w.registry.commitments h).tokenIn) :
    (executeCommitment net m h n proof x).wp Γ (fun _ _ => True) w := by
  unfold executeCommitment
  rw [wp_nonReentrant]
  refine hΓ.other (by decide) fun _ => ?_
  rw [wp_bind, wp_whenNotPaused]
  refine hΓ.other (by decide) fun _ => ?_
  rw [wp_bind]
  refine authorise_lenient hΓ hn fun y hp => ?_
  simp only [wp_bind, wp_spend, wp_setStatus, wp_read, World.commitments_setRecord]
  have hrest : ∀ w' : World, (adapterSwap net (w'.registry.commitments h).tokenIn
      (w'.registry.commitments h).tokenOut (w'.registry.commitments h).size
      (w'.registry.commitments h).minOut (w'.registry.commitments h).owner).wp Γ
      (fun _ w' => (debitGas net m (w'.registry.commitments h).owner h).wp Γ
        (fun _ _ => True) w') w' :=
    fun w' => adapterSwap_lenient hΓ fun _ _ => debitGas_lenient hΓ fun _ => trivial
  unfold vaultRelease
  simp only [wp_bind, wp_read, wp_ite]
  refine ⟨fun _ => ?_, fun _ => hΓ.asks fun _ w' => hrest w'⟩
  unfold CollateralVault.releaseForExecution
  simp only [wp_bind, CollateralVault.wp_onlyRegistry, wp_read, wp_require,
    CollateralVault.wp_subLocked, wp_safeTransfer, CollateralVault.wp_emit]
  refine hΓ.other (by decide) fun _ => checked (hv hp) fun _ => ?_
  refine hΓ.other (by decide) fun _ => ⟨fun _ => ?_, fun _ => ?_⟩
  · exact hΓ.moves fun w' => hrest _
  · exact hΓ.asks fun _ w' => hrest _

end CommitmentRegistry

omit hΓ

/-- A call whose body avoids a tracked message avoids it. -/
theorem entry_avoids {e : String} (he : e ∈ tracked) {m : Msg} {call : Call}
    {body : Contract Unit} (hbody : body.wp (.avoids e) (fun _ _ => True) w)
    (hd : dispatch net m call = nonpayable m body) :
    ¬(entry net (m, call) w).CanRevert e := by
  have hcall : (nonpayable m body).wp (.avoids e) (fun _ _ => True) w := by
    unfold nonpayable
    rw [wp_bind, wp_require]
    exact (Lenient.avoids he).other (by decide) fun _ => hbody
  refine Outcome.Sat.not_canRevert (Q := fun _ _ => True) ?_
  show (entry net (m, call)).wp (.avoids e) _ w
  rw [entry, hd, wp_bind]
  exact wp_mono hcall fun _ _ _ => trivial

end Zstrategy.Contracts
