/-
The client's encoders and the circuits' agree: on values below the field
modulus both write the same row, so they hash the same bytes, reduce the
same digest, and a commitment and nullifier the client computed pass the
circuit's two comparisons.

The two sides are written in different styles: the client packs a list of
typed values, the circuit fills an array piece by piece at offsets computed
by hand. Each kind is brought to the same `Row` first; after that nothing
depends on the kind, and `Strategy` is either of them.
-/
import Zstrategy.Circuits.Binding
import Zstrategy.Client.Commitment

namespace Zstrategy.Client

open Lib Contracts

open Circuits (P Terms hashToField nullifierPreimage)

variable {viem : Viem}

/-- A `0x…` string or a number as a circuit input. -/
def toField (x : Bytes32) : Circuits.Field := .of x.val

theorem toField_val {x : Bytes32} (h : x.val < P) : (toField x).val = x.val :=
  Circuits.Field.of_val h

theorem toField_address (a : Address) : (toField a.toBytes32).val = a.val :=
  Circuits.Field.of_val (Nat.lt_trans a.isLt (by decide))

/-- Reducing a digest gives the number of the field element the circuit
decodes from it. -/
theorem reduceToField_digest (bytes : List UInt8) :
    (reduceToField (viem.digest bytes)).val = (hashToField viem.keccak256 bytes).val := by
  have hdigest : ofBE (viem.keccak256 bytes).toList < 2 ^ 256 := by
    have hlt := ofBE_lt (viem.keccak256 bytes).toList
    rwa [Vector.length_toList] at hlt
  have hfit : ∀ n, n % P < 2 ^ 256 := fun n =>
    Nat.lt_trans (Nat.mod_lt n (by decide)) (by decide)
  show ofBE (viem.keccak256 bytes).toList % 2 ^ 256 % P % 2 ^ 256
    = ofBE (viem.keccak256 bytes).toList % P
  rw [Nat.mod_eq_of_lt hdigest, Nat.mod_eq_of_lt (hfit _)]

/-- The digest of bytes the circuit hashes too, read back as a field
element. -/
theorem toField_reduceToField {bs bs' : List UInt8} (h : bs = bs') :
    toField (reduceToField (viem.digest bs)) = hashToField viem.keccak256 bs' := by
  subst h
  apply Fin.ext
  have hlt : (reduceToField (viem.digest bs)).val < P := by
    rw [reduceToField_digest]
    exact Fin.isLt _
  rw [toField_val hlt, reduceToField_digest]

/-- The secret, then the nonce, in both encodings. -/
theorem nullifier_row (hviem : viem.FollowsAbi) {secret nonce : Bytes32}
    (hs : secret.val < P) (hn : nonce.val < P) :
    viem.encodePacked (nullifierPacked secret nonce)
      = (nullifierPreimage (toField secret) (toField nonce)).toList := by
  rw [hviem, Circuits.toList_nullifierPreimage, toField_val hs, toField_val hn]
  rfl

-- ================================================================ ORDER_FILL

namespace PreimageFields

/-- The numbers that have to be field elements are. -/
structure Canonical (p : PreimageFields) : Prop where
  size : p.size.val < P
  minOut : p.minOut.val < P
  nonce : p.nonce.val < P
  userSecret : p.userSecret.val < P

/-- The public order, as the prover passes it to the circuit. -/
def terms (p : PreimageFields) : Terms :=
  ⟨toField p.tokenIn.toBytes32, toField p.tokenOut.toBytes32, toField p.size,
    toField p.minOut, p.expiry⟩

/-- The private order, as the prover passes it to the circuit. -/
def witness (p : PreimageFields) : Circuits.OrderFill.Private :=
  ⟨p.price, p.direction = .SELL, toField p.nonce, toField p.userSecret⟩

theorem packed_eq (hviem : viem.FollowsAbi) {p : PreimageFields} (h : p.Canonical) :
    viem.encodePacked p.packed
      = (Circuits.OrderFill.commitmentPreimage p.terms p.witness).toList := by
  have hdir : (decide (p.direction = .SELL)).toNat = p.direction.toUInt8.toNat := by
    cases p.direction <;> rfl
  rw [hviem, Circuits.OrderFill.toList_commitmentPreimage]
  simp only [packed, List.map_cons, List.map_nil, Packed.abi, Circuits.OrderFill.row, terms,
    witness, toField_address, toField_val h.size, toField_val h.minOut, toField_val h.nonce,
    toField_val h.userSecret, hdir]

end PreimageFields

-- ======================================================================= DCA

namespace DcaPreimageFields

/-- The numbers that have to be field elements are. -/
structure Canonical (p : DcaPreimageFields) : Prop where
  size : p.size.val < P
  minOut : p.minOut.val < P
  nonce : p.nonce.val < P
  userSecret : p.userSecret.val < P

/-- The public round, as the prover passes it to the circuit. -/
def terms (p : DcaPreimageFields) : Terms :=
  ⟨toField p.tokenIn.toBytes32, toField p.tokenOut.toBytes32, toField p.size,
    toField p.minOut, p.expiry⟩

/-- The private round, as the prover passes it to the circuit. -/
def witness (p : DcaPreimageFields) : Circuits.Dca.Private :=
  ⟨p.scheduledLo, p.scheduledHi, toField p.nonce, toField p.userSecret⟩

theorem packed_eq (hviem : viem.FollowsAbi) {p : DcaPreimageFields} (h : p.Canonical) :
    viem.encodePacked p.packed
      = (Circuits.Dca.commitmentPreimage p.terms p.witness).toList := by
  rw [hviem, Circuits.Dca.toList_commitmentPreimage]
  simp only [packed, List.map_cons, List.map_nil, Packed.abi, Circuits.Dca.row, terms,
    witness, toField_address, toField_val h.size, toField_val h.minOut, toField_val h.nonce,
    toField_val h.userSecret]

end DcaPreimageFields

-- ================================================================= agreement

/-- What the client encodes and hashes for a strategy of either kind. -/
inductive Strategy where
  | orderFill (p : PreimageFields)
  | dca (p : DcaPreimageFields)

namespace Strategy

variable (viem)

def Canonical : Strategy → Prop
  | .orderFill p => p.Canonical
  | .dca p => p.Canonical

/-- The arguments packed for the commitment. -/
def packed : Strategy → List Packed
  | .orderFill p => p.packed
  | .dca p => p.packed

/-- How many bytes they take. -/
def width : Strategy → ℕ
  | .orderFill _ => 185
  | .dca _ => 192

/-- The arguments packed for the nullifier. -/
def nullifierPacked : Strategy → List Packed
  | .orderFill p => Client.nullifierPacked p.userSecret p.nonce
  | .dca p => Client.nullifierPacked p.userSecret p.nonce

def commitment : Strategy → Bytes32
  | .orderFill p => commitmentHash viem p
  | .dca p => dcaCommitmentHash viem p

def nullifier : Strategy → Bytes32
  | .orderFill p => nullifierHash viem p.userSecret p.nonce
  | .dca p => dcaNullifierHash viem p.userSecret p.nonce

/-- The circuit run for it: the same fields, with the commitment and the
nullifier the client computed, at some fill reference. -/
def assignment (fillRef : UInt64) (s : Strategy) : Circuits.Assignment :=
  match s with
  | .orderFill p => .orderFill p.witness
      ⟨toField (s.commitment viem), fillRef, toField (s.nullifier viem), p.terms⟩
  | .dca p => .dca p.witness
      ⟨toField (s.commitment viem), fillRef, toField (s.nullifier viem), p.terms⟩

variable {viem} {s : Strategy}

theorem packed_eq (hviem : viem.FollowsAbi) (h : s.Canonical) (fillRef : UInt64) :
    viem.encodePacked s.packed = (s.assignment viem fillRef).preimage := by
  cases s with
  | orderFill p => exact p.packed_eq hviem h
  | dca p => exact p.packed_eq hviem h

theorem nullifierPacked_eq (hviem : viem.FollowsAbi) (h : s.Canonical) (fillRef : UInt64) :
    viem.encodePacked s.nullifierPacked
      = (nullifierPreimage (s.assignment viem fillRef).userSecret
          (s.assignment viem fillRef).nonce).toList := by
  cases s with
  | orderFill p => exact nullifier_row hviem h.userSecret h.nonce
  | dca p => exact nullifier_row hviem h.userSecret h.nonce

theorem commitment_eq (s : Strategy) :
    s.commitment viem = reduceToField (viem.digest (viem.encodePacked s.packed)) := by
  cases s with
  | orderFill p => rfl
  | dca p => rfl

theorem nullifier_eq (s : Strategy) :
    s.nullifier viem = reduceToField (viem.digest (viem.encodePacked s.nullifierPacked)) := by
  cases s with
  | orderFill p => rfl
  | dca p => rfl

theorem length_preimage (fillRef : UInt64) (s : Strategy) :
    (s.assignment viem fillRef).preimage.length = s.width := by
  cases s with
  | orderFill p => exact Vector.length_toList
  | dca p => exact Vector.length_toList

theorem inputs_eq (viem : Viem) (fillRef : UInt64) (s : Strategy) :
    (s.assignment viem fillRef).inputs.commitmentHash = toField (s.commitment viem)
      ∧ (s.assignment viem fillRef).inputs.nullifier = toField (s.nullifier viem) := by
  cases s with
  | orderFill p => exact ⟨rfl, rfl⟩
  | dca p => exact ⟨rfl, rfl⟩

end Strategy

/-- Client and circuit encode and hash a strategy alike, for both kinds
and at every fill reference: the same bytes, the same length, the same
field elements, and no mismatch reported. -/
theorem encoders_agree (hviem : viem.FollowsAbi) (s : Strategy) (hs : s.Canonical)
    (fillRef : UInt64) :
    let a := s.assignment viem fillRef
    viem.encodePacked s.packed = a.preimage
      ∧ (viem.encodePacked s.packed).length = s.width
      ∧ viem.encodePacked s.nullifierPacked
        = (nullifierPreimage a.userSecret a.nonce).toList
      ∧ (viem.encodePacked s.nullifierPacked).length = 64
      ∧ (s.commitment viem).val = (a.computeCommitment viem.keccak256).val
      ∧ (s.nullifier viem).val = (a.derived viem.keccak256).val
      ∧ a.main viem.keccak256 ≠ .error "commitment mismatch"
      ∧ a.main viem.keccak256 ≠ .error "nullifier mismatch" := by
  intro a
  have hbytes : viem.encodePacked s.packed = a.preimage := s.packed_eq hviem hs fillRef
  have hnull : viem.encodePacked s.nullifierPacked
      = (nullifierPreimage a.userSecret a.nonce).toList :=
    s.nullifierPacked_eq hviem hs fillRef
  obtain ⟨hcin, hnin⟩ := s.inputs_eq viem fillRef
  have hc : a.computeCommitment viem.keccak256 = a.inputs.commitmentHash := by
    rw [a.computeCommitment_eq, hcin, s.commitment_eq, toField_reduceToField hbytes]
  have hn : a.derived viem.keccak256 = a.inputs.nullifier := by
    rw [hnin, s.nullifier_eq, toField_reduceToField hnull]
    rfl
  refine ⟨hbytes, ?_, hnull, ?_, ?_, ?_, ?_, ?_⟩
  · rw [hbytes, s.length_preimage]
  · rw [hnull, Vector.length_toList]
  · rw [s.commitment_eq, reduceToField_digest, hbytes, a.computeCommitment_eq]
  · rw [s.nullifier_eq, reduceToField_digest, hnull]
    rfl
  · exact Circuits.Assignment.main_ne_mismatch hc hn (.inl rfl)
  · exact Circuits.Assignment.main_ne_mismatch hc hn (.inr rfl)

-- ================================================================== a sample

/-- The sample digests, and packing by the ABI. -/
def sampleViem : Viem := ⟨Circuits.sampleKeccak, fun vs => pack (vs.map Packed.abi)⟩

/-- The sample order, as the client holds it. -/
def sampleFields : PreimageFields := ⟨10, 11, 60, 5, 2000, 100000000, .BUY, 6, 7⟩

/-- The sample round, as the client holds it. -/
def sampleDcaFields : DcaPreimageFields := ⟨10, 11, 60, 5, 900, 1000, 2000, 6, 7⟩

theorem encoders_agree_sample :
    (commitmentHash sampleViem sampleFields).val = Circuits.samplePriceHash.val
      ∧ (dcaCommitmentHash sampleViem sampleDcaFields).val
        = Circuits.sampleWindowHash.val := by
  have hviem : sampleViem.FollowsAbi := fun _ => rfl
  have horder : (Strategy.orderFill sampleFields).Canonical :=
    ⟨by decide, by decide, by decide, by decide⟩
  have hround : (Strategy.dca sampleDcaFields).Canonical :=
    ⟨by decide, by decide, by decide, by decide⟩
  obtain ⟨-, -, -, -, hprice, -⟩ := encoders_agree hviem _ horder 0
  obtain ⟨-, -, -, -, hwindow, -⟩ := encoders_agree hviem _ hround 0
  rw [Circuits.Assignment.computeCommitment_eq] at hprice hwindow
  refine ⟨hprice.trans ?_, hwindow.trans ?_⟩
  · rw [show sampleViem.keccak256 = Circuits.sampleKeccak from rfl,
      Circuits.sampleKeccak_field, Strategy.length_preimage]
    rfl
  · rw [show sampleViem.keccak256 = Circuits.sampleKeccak from rfl,
      Circuits.sampleKeccak_field, Strategy.length_preimage]
    rfl

end Zstrategy.Client
