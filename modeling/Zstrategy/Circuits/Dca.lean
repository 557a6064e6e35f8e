/-
`circuits/dca/src/main.nr`: one round of a schedule executes inside its
private time window.

The window is private, the time of the fill public. The commitment hashes
the window with the rest, so a prover cannot choose another.
-/
import Zstrategy.Circuits.Noir

namespace Zstrategy.Circuits.Dca

open Lib

/-- The private witnesses. -/
structure Private where
  scheduledLo : UInt64
  scheduledHi : UInt64
  nonce : Field
  userSecret : Field
  deriving DecidableEq

/-- The 192 bytes `compute_commitment` hashes. -/
def commitmentPreimage (t : Terms) (p : Private) : Vector UInt8 192 :=
  let preimage := Vector.replicate 192 0
  let preimage := fill preimage 0 (fieldToAddressBytes t.tokenIn)
  let preimage := fill preimage 20 (fieldToAddressBytes t.tokenOut)
  let preimage := fill preimage 40 (fieldToBytesBe t.size)
  let preimage := fill preimage 72 (fieldToBytesBe t.minOut)
  let preimage := fill preimage 104 (u64ToBytesBe p.scheduledLo)
  let preimage := fill preimage 112 (u64ToBytesBe p.scheduledHi)
  let preimage := fill preimage 120 (u64ToBytesBe t.expiry)
  let preimage := fill preimage 128 (fieldToBytesBe p.nonce)
  fill preimage 160 (fieldToBytesBe p.userSecret)

def computeCommitment (keccak256 : Hash) (t : Terms) (p : Private) : Field :=
  hashToField keccak256 (commitmentPreimage t p).toList

/-- `.ok` when every constraint holds. -/
def main (keccak256 : Hash) (p : Private) (x : PublicInputs) : Except String Unit := do
  let executionTimestamp := x.fillRef
  assertAddressField x.terms.tokenIn
  assertAddressField x.terms.tokenOut
  let computedCommitment := computeCommitment keccak256 x.terms p
  expect (computedCommitment = x.commitmentHash) "commitment mismatch"
  expect (executionTimestamp ≥ p.scheduledLo) "too early: before scheduled window"
  expect (executionTimestamp ≤ p.scheduledHi) "too late: after scheduled window"
  expect (executionTimestamp < x.terms.expiry) "commitment expired"
  let computedNullifier := computeNullifier keccak256 p.userSecret p.nonce
  expect (computedNullifier = x.nullifier) "nullifier mismatch"

-- ================================================================= the row

/-- What the preimage says, field by field. -/
def row (t : Terms) (p : Private) : Row :=
  [(20, t.tokenIn.val), (20, t.tokenOut.val), (32, t.size.val), (32, t.minOut.val),
    (8, p.scheduledLo.toNat), (8, p.scheduledHi.toNat), (8, t.expiry.toNat),
    (32, p.nonce.val), (32, p.userSecret.val)]

variable {t t' : Terms} {p p' : Private}

theorem toList_commitmentPreimage (t : Terms) (p : Private) :
    (commitmentPreimage t p).toList = pack (row t p) := by
  have h := (Holds.zero (n := 192)).fill 0 (fieldToAddressBytes t.tokenIn) rfl (by omega)
  have h := h.fill 20 (fieldToAddressBytes t.tokenOut) (by simp) (by omega)
  have h := h.fill 40 (fieldToBytesBe t.size) (by simp) (by omega)
  have h := h.fill 72 (fieldToBytesBe t.minOut) (by simp) (by omega)
  have h := h.fill 104 (u64ToBytesBe p.scheduledLo) (by simp) (by omega)
  have h := h.fill 112 (u64ToBytesBe p.scheduledHi) (by simp) (by omega)
  have h := h.fill 120 (u64ToBytesBe t.expiry) (by simp) (by omega)
  have h := h.fill 128 (fieldToBytesBe p.nonce) (by simp) (by omega)
  have h := h.fill 160 (fieldToBytesBe p.userSecret) (by simp) (by omega)
  rw [commitmentPreimage, h.toList_eq (by simp)]
  simp [row]

theorem row_fits (h : t.AddressFields) (p : Private) : (row t p).Fits := by
  intro q hq
  simp only [row, List.mem_cons, List.not_mem_nil, or_false] at hq
  rcases hq with rfl | rfl | rfl | rfl | rfl | rfl | rfl | rfl | rfl
  · exact h.1
  · exact h.2
  · exact t.size.lt
  · exact t.minOut.lt
  · exact UInt64.fits _
  · exact UInt64.fits _
  · exact UInt64.fits _
  · exact p.nonce.lt
  · exact p.userSecret.lt

/-- The private fill condition. -/
def Private.Fills (p : Private) (executionTimestamp : UInt64) : Prop :=
  p.scheduledLo ≤ executionTimestamp ∧ executionTimestamp ≤ p.scheduledHi

/-- What an accepted run of `main` has checked. -/
theorem main_eq_ok {keccak256 : Hash} {x : PublicInputs} {u : Unit} :
    main keccak256 p x = .ok u
      ↔ x.terms.AddressFields ∧ computeCommitment keccak256 x.terms p = x.commitmentHash
        ∧ p.Fills x.fillRef ∧ x.fillRef < x.terms.expiry
        ∧ computeNullifier keccak256 p.userSecret p.nonce = x.nullifier := by
  unfold main Private.Fills Terms.AddressFields
  simp [assertAddressField_ok, bind_eq_ok, expect_eq_ok, and_assoc]

/-- With both hashes right, neither mismatch is reported. -/
theorem main_ne_mismatch {keccak256 : Hash} {x : PublicInputs} {m : String}
    (hc : computeCommitment keccak256 x.terms p = x.commitmentHash)
    (hn : computeNullifier keccak256 p.userSecret p.nonce = x.nullifier)
    (hm : m = "commitment mismatch" ∨ m = "nullifier mismatch") :
    main keccak256 p x ≠ .error m := by
  unfold main assertAddressField
  intro h
  rcases hm with rfl | rfl <;>
    simp [expect_bind_eq_error, expect_eq_error, hc, hn] at h

/-- The expiry is only complained of inside the window. -/
theorem main_eq_expired {keccak256 : Hash} {x : PublicInputs}
    (h : main keccak256 p x = .error "commitment expired") :
    p.Fills x.fillRef ∧ x.terms.expiry ≤ x.fillRef := by
  unfold main assertAddressField at h
  simp [expect_bind_eq_error, expect_eq_error] at h
  obtain ⟨-, -, -, hlo, hhi, hexp⟩ := h
  exact ⟨⟨hlo, hhi⟩, hexp⟩

/-- Equal preimages open to the same terms and the same private schedule. -/
theorem preimage_inj (h : t.AddressFields) (h' : t'.AddressFields)
    (heq : (commitmentPreimage t p).toList = (commitmentPreimage t' p').toList) :
    t = t' ∧ p = p' := by
  rw [toList_commitmentPreimage, toList_commitmentPreimage] at heq
  have hw : (row t p).map Prod.fst = (row t' p').map Prod.fst := rfl
  have hrow := pack_inj hw (row_fits h p) (row_fits h' p') heq
  simp only [row, List.cons.injEq, Prod.mk.injEq, true_and, and_true] at hrow
  obtain ⟨hin, hout, hsize, hmin, hlo, hhi, hexp, hnonce, hsecret⟩ := hrow
  obtain ⟨tIn, tOut, size, minOut, expiry⟩ := t
  obtain ⟨lo, hi, nonce, userSecret⟩ := p
  refine ⟨?_, ?_⟩
  · rw [Terms.mk.injEq]
    exact ⟨Fin.ext hin, Fin.ext hout, Fin.ext hsize, Fin.ext hmin, UInt64.toNat_inj.1 hexp⟩
  · rw [Private.mk.injEq]
    exact ⟨UInt64.toNat_inj.1 hlo, UInt64.toNat_inj.1 hhi, Fin.ext hnonce, Fin.ext hsecret⟩

end Zstrategy.Circuits.Dca
