/-
One rule for each small program the contracts are built from, in the form
`wp_…`: what has to hold before it for a postcondition to hold after it,
for any rely. Proofs about an entry point use these and never unfold the
small programs.

A rule that ends in a write says the written state outright; the reverting
branch is the rely's `err`.

The writes have names (`setFree`, `spend`, …), so that a postcondition
speaks of named states, and of each a simp lemma says what it leaves alone.
Where a token or an adapter is called, the rule leaves the choice to the
rely: `Asks` is what has to hold if the code called is foreign, `Moves` what
has to hold if the token is a standard one.
-/
import Zstrategy.Contracts.Chain

namespace Zstrategy.Contracts

open Lib Code

open Function (update)

variable {net : Net} {Γ : Rely World Request Reply} {w : World}

-- =========================================================== named writes

namespace World

def setFree (v u t : Address) (x : ℕ) : World → World :=
  onVault v fun V => { V with freeBalance := update2 V.freeBalance u t x }

def setLocked (v : Address) (h : Bytes32) (t : Address) (x : ℕ) : World → World :=
  onVault v fun V => { V with lockedBalance := update2 V.lockedBalance h t x }

/-- A write to a free balance leaves the locks. -/
@[simp] theorem lockedBalance_setFree (v u t : Address) (x : ℕ) (y : Address) :
    ((w.setFree v u t x).vaults y).lockedBalance = (w.vaults y).lockedBalance := by
  by_cases hy : y = v <;> simp [setFree, onVault, hy]

/-- A write to a lock leaves the free balances. -/
@[simp] theorem freeBalance_setLocked (v : Address) (h : Bytes32) (t : Address)
    (x : ℕ) (y : Address) :
    ((w.setLocked v h t x).vaults y).freeBalance = (w.vaults y).freeBalance := by
  by_cases hy : y = v <;> simp [setLocked, onVault, hy]

def setEntered (v : Address) (b : Bool) : World → World :=
  onVault v fun V => { V with entered := b }

def setRecord (h : Bytes32) (r : CommitmentRecord) : World → World :=
  onRegistry fun R => { R with commitments := update R.commitments h r }

/-- A record reads as it was written. -/
@[simp] theorem commitments_setRecord (h : Bytes32) (r : CommitmentRecord) :
    (w.setRecord h r).registry.commitments h = r := by
  simp [setRecord, onRegistry]

def spend (n : Bytes32) : World → World :=
  onRegistry fun R => { R with nullifiers := update R.nullifiers n true }

def setGasEntered (b : Bool) : World → World :=
  onGasVault fun g => { g with entered := b }

def setRegistryEntered (b : Bool) : World → World :=
  onRegistry fun R => { R with entered := b }

def setGas (u : Address) (x : ℕ) : World → World :=
  onGasVault fun g => { g with balanceOf := update g.balanceOf u x }

end World

-- ============================================================== arithmetic

/-- A subtraction, which panics below zero. -/
@[simp] theorem wp_checkedSub (a b : ℕ) (P : ℕ → World → Prop) :
    (ofExcept (checkedSub a b) : Contract ℕ).wp Γ P w
      ↔ (b ≤ a → P (a - b) w) ∧ (¬b ≤ a → Γ.err panicArithmetic) :=
  wp_ofExcept_ite _ _ _ _

/-- An addition, which panics from 2^256 on. -/
@[simp] theorem wp_checkedAdd (a b : ℕ) (P : ℕ → World → Prop) :
    (ofExcept (checkedAdd a b) : Contract ℕ).wp Γ P w
      ↔ (a + b < 2 ^ 256 → P (a + b) w)
        ∧ (¬a + b < 2 ^ 256 → Γ.err panicArithmetic) :=
  wp_ofExcept_ite _ _ _ _

/-- A multiplication, which panics from 2^256 on. -/
@[simp] theorem wp_checkedMul (a b : ℕ) (P : ℕ → World → Prop) :
    (ofExcept (checkedMul a b) : Contract ℕ).wp Γ P w
      ↔ (a * b < 2 ^ 256 → P (a * b) w)
        ∧ (¬a * b < 2 ^ 256 → Γ.err panicArithmetic) :=
  wp_ofExcept_ite _ _ _ _

/-- A `require` in a pure part. -/
theorem wp_expect (p : Prop) [Decidable p] (reason : String)
    (P : Unit → World → Prop) :
    (ofExcept (expect p reason) : Contract Unit).wp Γ P w
      ↔ (p → P () w) ∧ (¬p → Γ.err reason) :=
  wp_ofExcept_ite _ _ _ _

-- ============================================================= token moves

/-- Control leaves with `req`; whatever comes back meets `P`. -/
def Asks (Γ : Rely World Request Reply) (req : Request)
    (P : Reply → World → Prop) (w : World) : Prop :=
  Γ.inv w ∧ ∀ w' x, Γ.inv w' → Γ.rel w w' → Γ.answers req x → P x w'

/-- A question to foreign code is what the rely makes of it. -/
theorem wp_ask_iff (req : Request) (P : Reply → World → Prop) :
    (ask req : Contract Reply).wp Γ P w ↔ Asks Γ req P w := Iff.rfl

/-- Where the answer is known and nothing happens meanwhile. -/
theorem asks_still {x : Reply} {req : Request} {P : Reply → World → Prop} :
    Asks (Rely.still x) req P w ↔ P x w := by
  constructor
  · exact fun h => h.2 w x trivial rfl rfl
  · refine fun h => ⟨trivial, ?_⟩
    rintro w' y - rfl rfl
    exact h

/-- What it takes to move a standard token, and what the move is. -/
def Moves (Γ : Rely World Request Reply) (t src dst : Address) (a : U256)
    (Q : Unit → World → Prop) (w : World) : Prop :=
  (w.ext.refuses t src dst a.val = false →
      (a.val ≤ w.balances t src → Q () (w.moveToken t src dst a.val))
        ∧ (¬a.val ≤ w.balances t src → Γ.err "ERC20: insufficient balance"))
    ∧ (¬w.ext.refuses t src dst a.val = false → Γ.err "ERC20: refused")

/-- A standard token moves the amount or reverts. -/
theorem wp_standardMove (t src dst : Address) (a : U256)
    (Q : Unit → World → Prop) :
    (standardMove t src dst a).wp Γ Q w ↔ Moves Γ t src dst a Q w := by
  unfold standardMove Moves
  simp only [wp_bind, wp_read, wp_require, wp_modify]

/-- `safeTransferFrom`: a standard token moves, any other is asked. -/
theorem wp_safeTransferFrom (t src dst : Address) (a : U256)
    (Q : Unit → World → Prop) :
    (safeTransferFrom net t src dst a).wp Γ Q w
      ↔ (net.standard t = true → Moves Γ t src dst a Q w)
        ∧ (¬net.standard t = true →
            Asks Γ (.transferFrom t src dst a) (fun _ => Q ()) w) := by
  unfold safeTransferFrom
  simp only [wp_ite, wp_standardMove, wp_bind, wp_ask_iff, wp_pure]

/-- `safeTransfer`: a standard token moves, any other is asked. -/
theorem wp_safeTransfer (self t dst : Address) (a : U256)
    (Q : Unit → World → Prop) :
    (safeTransfer net self t dst a).wp Γ Q w
      ↔ (net.standard t = true → Moves Γ t self dst a Q w)
        ∧ (¬net.standard t = true →
            Asks Γ (.transfer t dst a) (fun _ => Q ()) w) := by
  unfold safeTransfer
  simp only [wp_ite, wp_standardMove, wp_bind, wp_ask_iff, wp_pure]

-- =============================================================== the vault

namespace CollateralVault

/-- The lock is free, and is free again afterwards. -/
theorem wp_nonReentrant (v : Address) (body : Contract Unit)
    (Q : Unit → World → Prop) :
    (nonReentrant v body).wp Γ Q w
      ↔ ((w.vaults v).entered = false →
          body.wp Γ (fun _ w' => Q () (w'.setEntered v false))
            (w.setEntered v true))
        ∧ (¬(w.vaults v).entered = false →
          Γ.err "ReentrancyGuardReentrantCall()") := by
  unfold nonReentrant
  simp only [wp_bind, wp_read, wp_require, wp_modify]
  rfl

/-- The caller is the registry the vault has. -/
theorem wp_onlyRegistry (sender v : Address) (Q : Unit → World → Prop) :
    (onlyRegistry sender v).wp Γ Q w
      ↔ (sender = (w.vaults v).registry → Q () w)
        ∧ (¬sender = (w.vaults v).registry →
          Γ.err "Vault: caller not registry") := by
  unfold onlyRegistry
  simp only [wp_bind, wp_read, wp_require]

/-- The caller owns the vault. -/
theorem wp_onlyOwner (sender v : Address) (Q : Unit → World → Prop) :
    (onlyOwner sender v).wp Γ Q w
      ↔ (sender = (w.vaults v).owner → Q () w)
        ∧ (¬sender = (w.vaults v).owner →
          Γ.err "OwnableUnauthorizedAccount(address)") := by
  unfold onlyOwner
  simp only [wp_bind, wp_read, wp_require]

/-- A free balance pays. -/
theorem wp_subFree (v u t : Address) (a : U256) (Q : Unit → World → Prop) :
    (subFree v u t a).wp Γ Q w
      ↔ (a.val ≤ (w.vaults v).freeBalance u t →
          Q () (w.setFree v u t ((w.vaults v).freeBalance u t - a.val)))
        ∧ (¬a.val ≤ (w.vaults v).freeBalance u t → Γ.err panicArithmetic) := by
  unfold subFree
  simp only [wp_bind, wp_read, wp_checkedSub, wp_modify]
  rfl

/-- A free balance receives. -/
theorem wp_addFree (v u t : Address) (a : U256) (Q : Unit → World → Prop) :
    (addFree v u t a).wp Γ Q w
      ↔ ((w.vaults v).freeBalance u t + a.val < 2 ^ 256 →
          Q () (w.setFree v u t ((w.vaults v).freeBalance u t + a.val)))
        ∧ (¬(w.vaults v).freeBalance u t + a.val < 2 ^ 256 →
          Γ.err panicArithmetic) := by
  unfold addFree
  simp only [wp_bind, wp_read, wp_checkedAdd, wp_modify]
  rfl

/-- A lock pays. -/
theorem wp_subLocked (v : Address) (h : Bytes32) (t : Address) (a : U256)
    (Q : Unit → World → Prop) :
    (subLocked v h t a).wp Γ Q w
      ↔ (a.val ≤ (w.vaults v).lockedBalance h t →
          Q () (w.setLocked v h t ((w.vaults v).lockedBalance h t - a.val)))
        ∧ (¬a.val ≤ (w.vaults v).lockedBalance h t → Γ.err panicArithmetic) := by
  unfold subLocked
  simp only [wp_bind, wp_read, wp_checkedSub, wp_modify]
  rfl

/-- A lock receives. -/
theorem wp_addLocked (v : Address) (h : Bytes32) (t : Address) (a : U256)
    (Q : Unit → World → Prop) :
    (addLocked v h t a).wp Γ Q w
      ↔ ((w.vaults v).lockedBalance h t + a.val < 2 ^ 256 →
          Q () (w.setLocked v h t ((w.vaults v).lockedBalance h t + a.val)))
        ∧ (¬(w.vaults v).lockedBalance h t + a.val < 2 ^ 256 →
          Γ.err panicArithmetic) := by
  unfold addLocked
  simp only [wp_bind, wp_read, wp_checkedAdd, wp_modify]
  rfl

/-- An event of the vault is logged. -/
theorem wp_emit (v : Address) (e : VaultEvent) (Q : Unit → World → Prop) :
    (emit v e).wp Γ Q w ↔ Q () (w.emit (.vault v e)) := Iff.rfl

end CollateralVault

-- =========================================================== the gas vault

namespace GasVault

/-- Likewise for the gas vault. -/
theorem wp_nonReentrant (body : Contract Unit) (Q : Unit → World → Prop) :
    (nonReentrant body).wp Γ Q w
      ↔ (w.gasVault.entered = false →
          body.wp Γ (fun _ w' => Q () (w'.setGasEntered false))
            (w.setGasEntered true))
        ∧ (¬w.gasVault.entered = false →
          Γ.err "ReentrancyGuardReentrantCall()") := by
  unfold nonReentrant
  simp only [wp_bind, wp_read, wp_require, wp_modify]
  rfl

/-- The caller is the registry the gas vault has. -/
theorem wp_onlyRegistry (sender : Address) (Q : Unit → World → Prop) :
    (onlyRegistry sender).wp Γ Q w
      ↔ (sender = w.gasVault.registry → Q () w)
        ∧ (¬sender = w.gasVault.registry → Γ.err "GasVault: not registry") := by
  unfold onlyRegistry
  simp only [wp_bind, wp_read, wp_require]

/-- The caller owns the gas vault. -/
theorem wp_onlyOwner (sender : Address) (Q : Unit → World → Prop) :
    (onlyOwner sender).wp Γ Q w
      ↔ (sender = w.gasVault.owner → Q () w)
        ∧ (¬sender = w.gasVault.owner →
          Γ.err "OwnableUnauthorizedAccount(address)") := by
  unfold onlyOwner
  simp only [wp_bind, wp_read, wp_require]

/-- A balance of gas receives. -/
theorem wp_addBalance (u : Address) (a : ℕ) (Q : Unit → World → Prop) :
    (addBalance u a).wp Γ Q w
      ↔ (w.gasVault.balanceOf u + a < 2 ^ 256 →
          Q () (w.setGas u (w.gasVault.balanceOf u + a)))
        ∧ (¬w.gasVault.balanceOf u + a < 2 ^ 256 → Γ.err panicArithmetic) := by
  unfold addBalance
  simp only [wp_bind, wp_read, wp_checkedAdd, wp_modify]
  rfl

/-- A balance of gas pays. -/
theorem wp_subBalance (u : Address) (a : ℕ) (Q : Unit → World → Prop) :
    (subBalance u a).wp Γ Q w
      ↔ (a ≤ w.gasVault.balanceOf u →
          Q () (w.setGas u (w.gasVault.balanceOf u - a)))
        ∧ (¬a ≤ w.gasVault.balanceOf u → Γ.err panicArithmetic) := by
  unfold subBalance
  simp only [wp_bind, wp_read, wp_checkedSub, wp_modify]
  rfl

/-- An event of the gas vault is logged. -/
theorem wp_emit (e : GasVaultEvent) (Q : Unit → World → Prop) :
    (emit e).wp Γ Q w ↔ Q () (w.emit (.gasVault e)) := Iff.rfl

end GasVault

-- ============================================================ the registry

namespace CommitmentRegistry

/-- Likewise for the registry, whose entry points share one lock. -/
theorem wp_nonReentrant (body : Contract Unit) (Q : Unit → World → Prop) :
    (nonReentrant body).wp Γ Q w
      ↔ (w.registry.entered = false →
          body.wp Γ (fun _ w' => Q () (w'.setRegistryEntered false))
            (w.setRegistryEntered true))
        ∧ (¬w.registry.entered = false →
          Γ.err "ReentrancyGuardReentrantCall()") := by
  unfold nonReentrant
  simp only [wp_bind, wp_read, wp_require, wp_modify]
  rfl

/-- The registry is not paused. -/
theorem wp_whenNotPaused (Q : Unit → World → Prop) :
    whenNotPaused.wp Γ Q w
      ↔ (w.registry.paused = false → Q () w)
        ∧ (¬w.registry.paused = false → Γ.err "Registry: paused") := by
  unfold whenNotPaused
  simp only [wp_bind, wp_read, wp_require]

/-- The caller is the guardian. -/
theorem wp_onlyGuardian (m : Msg) (Q : Unit → World → Prop) :
    (onlyGuardian m).wp Γ Q w
      ↔ (m.sender = w.registry.guardian → Q () w)
        ∧ (¬m.sender = w.registry.guardian →
          Γ.err "Registry: caller not guardian") := by
  unfold onlyGuardian
  simp only [wp_bind, wp_read, wp_require]

/-- An event of the registry is logged. -/
theorem wp_emit (e : RegistryEvent) (Q : Unit → World → Prop) :
    (emit e).wp Γ Q w ↔ Q () (w.emit (.registry e)) := Iff.rfl

/-- A commitment's slot is written. -/
theorem wp_setRecord (h : Bytes32) (r : CommitmentRecord)
    (Q : Unit → World → Prop) :
    (setRecord h r).wp Γ Q w ↔ Q () (w.setRecord h r) := Iff.rfl

/-- Its status is, and the other fields stay. -/
theorem wp_setStatus (h : Bytes32) (s : CommitmentStatus)
    (Q : Unit → World → Prop) :
    (setStatus h s).wp Γ Q w
      ↔ Q () (w.setRecord h { w.registry.commitments h with status := s }) :=
  Iff.rfl

/-- A nullifier is spent. -/
theorem wp_spend (n : Bytes32) (Q : Unit → World → Prop) :
    (spend n).wp Γ Q w ↔ Q () (w.spend n) := Iff.rfl

variable {h n : Bytes32} {proof : List UInt8} {x y : UInt64}

/-- The checks of `executeCommitment`, passed with fill reference `y`. -/
structure Authorised (w : World) (h n : Bytes32) (proof : List UInt8) (x y : UInt64) :
    Prop where
  pending : (w.registry.commitments h).status = .PENDING
  live : w.timestamp ≤ (w.registry.commitments h).expiry.toNat
  unspent : w.registry.nullifiers n = false
  configured : w.registry.verifiers (w.registry.commitments h).kind.toUInt8 ≠ 0
  reference : fillReference w (w.registry.commitments h) x = .ok y
  verified : w.ext.verify (w.registry.verifiers (w.registry.commitments h).kind.toUInt8)
    proof (publicInputs h n y (w.registry.commitments h)) = true

/-- What passes is all a program learns, if it may revert for any reason. -/
theorem wp_authorise {Q : UInt64 → World → Prop} (herr : ∀ e, Γ.err e)
    (hQ : ∀ y, Authorised w h n proof x y → Q y w) :
    (authorise h n proof x).wp Γ Q w := by
  have check : ∀ {p q : Prop} {e : String}, (p → q) → (p → q) ∧ (¬p → Γ.err e) :=
    fun h => ⟨h, fun _ => herr _⟩
  unfold authorise
  rw [wp_bind, wp_read]
  simp only [wp_bind, wp_require, wp_ofExcept, wp_pure]
  refine check fun hpending => check fun hlive => check fun hunspent => check fun hconf => ?_
  refine ⟨fun y href => check fun hproof => hQ y ?_, fun _ _ => herr _⟩
  exact ⟨hpending, hlive, hunspent, hconf, href, hproof⟩

end CommitmentRegistry

end Zstrategy.Contracts
