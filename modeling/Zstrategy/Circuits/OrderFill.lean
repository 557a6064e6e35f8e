/-
`circuits/order_fill/src/main.nr`: a limit order fills when the oracle
price has crossed its private price.

The user's price and the direction are private and hashed into the
commitment; the price of the pair is public, as the fill reference. Both
prices are of 64 bits by their types.
-/
import Zstrategy.Circuits.Noir

namespace Zstrategy.Circuits.OrderFill

open Lib

/-- The private witnesses. -/
structure Private where
  price : UInt64
  /-- `false` is BUY. -/
  direction : Bool
  nonce : Field
  userSecret : Field
  deriving DecidableEq

/-- The 185 bytes `compute_commitment` hashes. -/
def commitmentPreimage (t : Terms) (p : Private) : Vector UInt8 185 :=
  let preimage := Vector.replicate 185 0
  let preimage := fill preimage 0 (fieldToAddressBytes t.tokenIn)
  let preimage := fill preimage 20 (fieldToAddressBytes t.tokenOut)
  let preimage := fill preimage 40 (fieldToBytesBe t.size)
  let preimage := fill preimage 72 (fieldToBytesBe t.minOut)
  let preimage := fill preimage 104 (u64ToBytesBe t.expiry)
  let preimage := fill preimage 112 (u64ToBytesBe p.price)
  let preimage := preimage.setIfInBounds 120 (UInt8.ofNat p.direction.toNat)
  let preimage := fill preimage 121 (fieldToBytesBe p.nonce)
  fill preimage 153 (fieldToBytesBe p.userSecret)

def computeCommitment (keccak256 : Hash) (t : Terms) (p : Private) : Field :=
  hashToField keccak256 (commitmentPreimage t p).toList

/-- `.ok` when every constraint holds. -/
def main (keccak256 : Hash) (p : Private) (x : PublicInputs) : Except String Unit := do
  let oraclePrice := x.fillRef
  assertAddressField x.terms.tokenIn
  assertAddressField x.terms.tokenOut
  let computedCommitment := computeCommitment keccak256 x.terms p
  expect (computedCommitment = x.commitmentHash) "commitment mismatch"
  if !p.direction then
    expect (oraclePrice ≤ p.price) "buy fill condition not met"
  else
    expect (oraclePrice ≥ p.price) "sell fill condition not met"
  let computedNullifier := computeNullifier keccak256 p.userSecret p.nonce
  expect (computedNullifier = x.nullifier) "nullifier mismatch"

-- ================================================================= the row

/-- What the preimage says, field by field. -/
def row (t : Terms) (p : Private) : Row :=
  [(20, t.tokenIn.val), (20, t.tokenOut.val), (32, t.size.val), (32, t.minOut.val),
    (8, t.expiry.toNat), (8, p.price.toNat), (1, p.direction.toNat), (32, p.nonce.val),
    (32, p.userSecret.val)]

variable {t t' : Terms} {p p' : Private}

theorem toList_commitmentPreimage (t : Terms) (p : Private) :
    (commitmentPreimage t p).toList = pack (row t p) := by
  have h := (Holds.zero (n := 185)).fill 0 (fieldToAddressBytes t.tokenIn) rfl (by omega)
  have h := h.fill 20 (fieldToAddressBytes t.tokenOut) (by simp) (by omega)
  have h := h.fill 40 (fieldToBytesBe t.size) (by simp) (by omega)
  have h := h.fill 72 (fieldToBytesBe t.minOut) (by simp) (by omega)
  have h := h.fill 104 (u64ToBytesBe t.expiry) (by simp) (by omega)
  have h := h.fill 112 (u64ToBytesBe p.price) (by simp) (by omega)
  have h := h.set 120 (UInt8.ofNat p.direction.toNat) (by simp) (by omega)
  have h := h.fill 121 (fieldToBytesBe p.nonce) (by simp) (by omega)
  have h := h.fill 153 (fieldToBytesBe p.userSecret) (by simp) (by omega)
  have hone : toBE 1 p.direction.toNat = [UInt8.ofNat p.direction.toNat] := rfl
  rw [commitmentPreimage, h.toList_eq (by simp)]
  simp [row, hone]

theorem row_fits (h : t.AddressFields) (p : Private) : (row t p).Fits := by
  have hd : p.direction.toNat < 256 ^ 1 := by cases p.direction <;> decide
  intro q hq
  simp only [row, List.mem_cons, List.not_mem_nil, or_false] at hq
  rcases hq with rfl | rfl | rfl | rfl | rfl | rfl | rfl | rfl | rfl
  · exact h.1
  · exact h.2
  · exact t.size.lt
  · exact t.minOut.lt
  · exact UInt64.fits _
  · exact UInt64.fits _
  · exact hd
  · exact p.nonce.lt
  · exact p.userSecret.lt

/-- The private fill condition. -/
def Private.Fills (p : Private) (oraclePrice : UInt64) : Prop :=
  if p.direction then p.price ≤ oraclePrice else oraclePrice ≤ p.price

/-- What an accepted run of `main` has checked. -/
theorem main_eq_ok {keccak256 : Hash} {x : PublicInputs} {u : Unit} :
    main keccak256 p x = .ok u
      ↔ x.terms.AddressFields ∧ computeCommitment keccak256 x.terms p = x.commitmentHash
        ∧ p.Fills x.fillRef
        ∧ computeNullifier keccak256 p.userSecret p.nonce = x.nullifier := by
  unfold main Private.Fills Terms.AddressFields
  rw [bind_eq_ok]
  cases hd : p.direction <;>
    simp [assertAddressField_ok, bind_eq_ok, expect_eq_ok, and_assoc]

/-- With both hashes right, neither mismatch is reported. -/
theorem main_ne_mismatch {keccak256 : Hash} {x : PublicInputs} {m : String}
    (hc : computeCommitment keccak256 x.terms p = x.commitmentHash)
    (hn : computeNullifier keccak256 p.userSecret p.nonce = x.nullifier)
    (hm : m = "commitment mismatch" ∨ m = "nullifier mismatch") :
    main keccak256 p x ≠ .error m := by
  unfold main assertAddressField
  intro h
  cases hd : p.direction <;>
    rcases hm with rfl | rfl <;>
    simp [expect_bind_eq_error, expect_eq_error, hc, hn, hd] at h

/-- Equal preimages open to the same terms and the same private order. -/
theorem preimage_inj (h : t.AddressFields) (h' : t'.AddressFields)
    (heq : (commitmentPreimage t p).toList = (commitmentPreimage t' p').toList) :
    t = t' ∧ p = p' := by
  rw [toList_commitmentPreimage, toList_commitmentPreimage] at heq
  have hw : (row t p).map Prod.fst = (row t' p').map Prod.fst := rfl
  have hrow := pack_inj hw (row_fits h p) (row_fits h' p') heq
  simp only [row, List.cons.injEq, Prod.mk.injEq, true_and, and_true] at hrow
  obtain ⟨hin, hout, hsize, hmin, hexp, hprice, hdir, hnonce, hsecret⟩ := hrow
  obtain ⟨tIn, tOut, size, minOut, expiry⟩ := t
  obtain ⟨price, direction, nonce, userSecret⟩ := p
  have hdir : direction = p'.direction := by
    cases direction <;> cases hp : p'.direction <;> simp_all
  refine ⟨?_, ?_⟩
  · rw [Terms.mk.injEq]
    exact ⟨Fin.ext hin, Fin.ext hout, Fin.ext hsize, Fin.ext hmin, UInt64.toNat_inj.1 hexp⟩
  · rw [Private.mk.injEq]
    exact ⟨UInt64.toNat_inj.1 hprice, hdir, Fin.ext hnonce, Fin.ext hsecret⟩

end Zstrategy.Circuits.OrderFill
