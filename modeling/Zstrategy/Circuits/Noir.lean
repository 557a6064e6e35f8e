/-
What the two circuits share. `order_fill` and `dca` carry the same copies
of the byte helpers, of `assert_address_field` and of `compute_nullifier`;
they are modelled once.

A `Field` is only encoded, decoded and compared here, never added or
multiplied, so it is a number below the BN254 scalar modulus. The hash is
a parameter.

The helpers return arrays as the source's do, and the circuits write these
into their own at offsets computed by hand. What an accepted run says of
such an array is that it is a packed row (Lib/Bytes), and what it says of an
assertion is the equation that was asserted.
-/
import Mathlib.Data.Fin.Basic
import Zstrategy.Lib.Bytes
import Zstrategy.Lib.Checked

namespace Zstrategy.Circuits

open Lib

/-- The BN254 scalar field modulus. -/
def P : ℕ :=
  21888242871839275222246405745257275088548364400416034343698204186575808495617

instance : NeZero P := ⟨by decide⟩

abbrev Field := Fin P

/-- The digest of a byte string. -/
abbrev Hash := List UInt8 → Vector UInt8 32

/-- `v.to_be_bytes::<32>()`, the canonical encoding. -/
def Field.toBeBytes (v : Field) : Vector UInt8 32 := bytesBE 32 v.val

/-- `Field::from_be_bytes::<32>(bytes)`; reduces modulo `P`. -/
def Field.fromBeBytes (bytes : Vector UInt8 32) : Field :=
  Fin.ofNat P (ofBE bytes.toList)

/-- A number as a field element. -/
def Field.of (n : ℕ) : Field := Fin.ofNat P n

theorem Field.of_val {n : ℕ} (h : n < P) : (Field.of n).val = n := Nat.mod_eq_of_lt h

-- =================================================================== inputs

/-- The fields a registration fixes on chain. -/
structure Terms where
  tokenIn : Field
  tokenOut : Field
  size : Field
  minOut : Field
  expiry : UInt64
  deriving DecidableEq

/-- The public parameters of either `main`. The second one is
`oracle_price` in `order_fill` and `execution_timestamp` in `dca`. -/
structure PublicInputs where
  commitmentHash : Field
  fillRef : UInt64
  nullifier : Field
  terms : Terms
  deriving DecidableEq

/-- The public parameters in the order both circuits declare them. -/
def PublicInputs.words (x : PublicInputs) : List ℕ :=
  [x.commitmentHash.val, x.fillRef.toNat, x.nullifier.val, x.terms.tokenIn.val,
    x.terms.tokenOut.val, x.terms.size.val, x.terms.minOut.val, x.terms.expiry.toNat]

-- ================================================================== helpers

def u64ToBytesBe (v : UInt64) : Vector UInt8 8 :=
  #v[((v >>> 56) &&& 0xff).toUInt8,
     ((v >>> 48) &&& 0xff).toUInt8,
     ((v >>> 40) &&& 0xff).toUInt8,
     ((v >>> 32) &&& 0xff).toUInt8,
     ((v >>> 24) &&& 0xff).toUInt8,
     ((v >>> 16) &&& 0xff).toUInt8,
     ((v >>> 8) &&& 0xff).toUInt8,
     (v &&& 0xff).toUInt8]

def fieldToBytesBe (v : Field) : Vector UInt8 32 := v.toBeBytes

/-- The low 20 bytes. -/
def fieldToAddressBytes (v : Field) : Vector UInt8 20 :=
  let bytes := v.toBeBytes
  Vector.ofFn fun i => bytes[12 + i.val]

/-- The high 12 bytes of an address must be zero. -/
def assertAddressField (v : Field) : Except String Unit :=
  let bytes := v.toBeBytes
  expect (∀ i : Fin 12, bytes[i.val] = 0) "address field has non-zero high bytes"

/-- The digest of a preimage, as a field element. -/
def hashToField (keccak256 : Hash) (preimage : List UInt8) : Field :=
  Field.fromBeBytes (keccak256 preimage)

/-- The 64 bytes `compute_nullifier` hashes. -/
def nullifierPreimage (userSecret nonce : Field) : Vector UInt8 64 :=
  let preimage := Vector.replicate 64 0
  let preimage := fill preimage 0 (fieldToBytesBe userSecret)
  fill preimage 32 (fieldToBytesBe nonce)

def computeNullifier (keccak256 : Hash) (userSecret nonce : Field) : Field :=
  hashToField keccak256 (nullifierPreimage userSecret nonce).toList

-- ============================================================ their encodings

theorem P_le : P ≤ 256 ^ 32 := by decide

theorem Field.lt (v : Field) : v.val < 256 ^ 32 :=
  Nat.lt_of_lt_of_le v.isLt P_le

theorem Field.fromBeBytes_bytesBE {n : ℕ} (h : n < 256 ^ 32) :
    Field.fromBeBytes (bytesBE 32 n) = Fin.ofNat P n := by
  rw [Field.fromBeBytes, toList_bytesBE, ofBE_toBE_of_lt h]

theorem UInt64.fits (v : UInt64) : v.toNat < 256 ^ 8 := v.toNat_lt

@[simp] theorem toList_fieldToBytesBe (v : Field) :
    (fieldToBytesBe v).toList = toBE 32 v.val := rfl

@[simp] theorem toList_u64ToBytesBe (v : UInt64) :
    (u64ToBytesBe v).toList = toBE 8 v.toNat := by
  have hbyte : ∀ x : UInt64, (x &&& 0xff).toUInt8 = UInt8.ofNat x.toNat := by
    intro x
    apply UInt8.toNat_inj.1
    rw [UInt64.toNat_toUInt8, UInt64.toNat_and, UInt8.toNat_ofNat']
    rw [show (0xff : UInt64).toNat = 2 ^ 8 - 1 from rfl, Nat.and_two_pow_sub_one_eq_mod,
      Nat.mod_mod]
  unfold u64ToBytesBe
  simp only [hbyte, UInt64.toNat_shiftRight, Nat.shiftRight_eq_div_pow, toBE]
  simp [Nat.div_div_eq_div_mul]

/-- The canonical bytes of a field element, split where an address starts. -/
theorem toList_toBeBytes (v : Field) :
    v.toBeBytes.toList = toBE 12 (v.val / 256 ^ 20) ++ toBE 20 v.val :=
  toBE_add 12 20 v.val

/-- The address bytes of any field element, by value. -/
@[simp] theorem toList_fieldToAddressBytes (v : Field) :
    (fieldToAddressBytes v).toList = toBE 20 v.val := by
  have hdrop : (fieldToAddressBytes v).toList = v.toBeBytes.toList.drop 12 :=
    toList_ofFn_add (m := 12) (k := 20) v.toBeBytes
  rw [hdrop, toList_toBeBytes, List.drop_left' (length_toBE 12 _)]

/-- An address field passes when it fits 20 bytes. -/
theorem assertAddressField_ok {v : Field} {x : Unit} :
    assertAddressField v = .ok x ↔ v.val < 256 ^ 20 := by
  have hfit : v.val / 256 ^ 20 < 256 ^ 12 :=
    Nat.div_lt_of_lt_mul (by rw [← pow_add]; exact v.lt)
  have hbytes : (∀ i : Fin 12, v.toBeBytes[i.val] = 0)
      ↔ ∀ b ∈ toBE 12 (v.val / 256 ^ 20), b = 0 := by
    rw [forall_getElem_lt (m := 12) (k := 20) v.toBeBytes fun b => b = 0,
      toList_toBeBytes, List.take_left' (length_toBE 12 _)]
  unfold assertAddressField
  rw [expect_eq_ok, hbytes, toBE_eq_zero hfit, Nat.div_eq_zero_iff]
  simp

/-- Both tokens are addresses. -/
def Terms.AddressFields (t : Terms) : Prop :=
  t.tokenIn.val < 256 ^ 20 ∧ t.tokenOut.val < 256 ^ 20

/-- The secret, then the nonce. -/
theorem toList_nullifierPreimage (userSecret nonce : Field) :
    (nullifierPreimage userSecret nonce).toList
      = pack [(32, userSecret.val), (32, nonce.val)] := by
  have h₁ := (Holds.zero (n := 64)).fill 0 (fieldToBytesBe userSecret) rfl (by omega)
  have h₂ := h₁.fill 32 (fieldToBytesBe nonce) (by simp) (by omega)
  rw [nullifierPreimage, h₂.toList_eq (by simp)]
  simp

end Zstrategy.Circuits
