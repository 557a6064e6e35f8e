/-
Commitments are binding. An accepted assignment of either circuit is
determined, up to the fill reference, by the bytes its commitment hashes;
the two circuits and the nullifiers hash strings of different lengths. So
a commitment hash that collides with no other one in use stands for one
circuit, one set of terms and one nullifier.

No hash into a 254-bit field is injective on all preimages. What the last
part of `commitment_binding` assumes is injectivity on a set of preimages in use.
-/
import Mathlib.Data.Set.Function
import Zstrategy.Circuits.Dca
import Zstrategy.Circuits.OrderFill

namespace Zstrategy.Circuits

open Lib

inductive Circuit where
  | orderFill | dca
  deriving DecidableEq

/-- Witnesses and public inputs for one of the circuits. -/
inductive Assignment where
  | orderFill (p : OrderFill.Private) (x : PublicInputs)
  | dca (p : Dca.Private) (x : PublicInputs)
  deriving DecidableEq

namespace Assignment

def circuit : Assignment → Circuit
  | .orderFill _ _ => .orderFill
  | .dca _ _ => .dca

def inputs : Assignment → PublicInputs
  | .orderFill _ x | .dca _ x => x

def userSecret : Assignment → Field
  | .orderFill p _ => p.userSecret
  | .dca p _ => p.userSecret

def nonce : Assignment → Field
  | .orderFill p _ => p.nonce
  | .dca p _ => p.nonce

/-- The bytes its `compute_commitment` hashes. -/
def preimage : Assignment → List UInt8
  | .orderFill p x => (OrderFill.commitmentPreimage x.terms p).toList
  | .dca p x => (Dca.commitmentPreimage x.terms p).toList

variable (keccak256 : Hash)

def computeCommitment : Assignment → Field
  | .orderFill p x => OrderFill.computeCommitment keccak256 x.terms p
  | .dca p x => Dca.computeCommitment keccak256 x.terms p

/-- The nullifier its `main` derives. -/
def derived (a : Assignment) : Field :=
  computeNullifier keccak256 a.userSecret a.nonce

/-- The circuit's `main`. -/
def main : Assignment → Except String Unit
  | .orderFill p x => OrderFill.main keccak256 p x
  | .dca p x => Dca.main keccak256 p x

def Accepted (a : Assignment) : Prop := a.main keccak256 = .ok ()

variable {keccak256 : Hash} {a b : Assignment}

theorem computeCommitment_eq (a : Assignment) :
    a.computeCommitment keccak256 = hashToField keccak256 a.preimage := by
  cases a with
  | orderFill p x => rfl
  | dca p x => rfl

/-- With both hashes right, neither mismatch is reported. -/
theorem main_ne_mismatch {m : String}
    (hc : a.computeCommitment keccak256 = a.inputs.commitmentHash)
    (hn : a.derived keccak256 = a.inputs.nullifier)
    (hm : m = "commitment mismatch" ∨ m = "nullifier mismatch") :
    a.main keccak256 ≠ .error m := by
  cases a with
  | orderFill p x => exact OrderFill.main_ne_mismatch hc hn hm
  | dca p x => exact Dca.main_ne_mismatch hc hn hm

/-- What acceptance says of the two hashes. -/
theorem Accepted.hashes (h : a.Accepted keccak256) :
    a.inputs.terms.AddressFields
      ∧ hashToField keccak256 a.preimage = a.inputs.commitmentHash
      ∧ a.derived keccak256 = a.inputs.nullifier := by
  cases a with
  | orderFill p x =>
      obtain ⟨haddr, hc, -, hn⟩ := OrderFill.main_eq_ok.1 h
      exact ⟨haddr, hc, hn⟩
  | dca p x =>
      obtain ⟨haddr, hc, -, -, hn⟩ := Dca.main_eq_ok.1 h
      exact ⟨haddr, hc, hn⟩

/-- Two accepted assignments with one preimage differ in nothing but the
fill reference. -/
theorem Accepted.eq_of_preimage (ha : a.Accepted keccak256) (hb : b.Accepted keccak256)
    (h : a.preimage = b.preimage) :
    a.circuit = b.circuit ∧ a.inputs.terms = b.inputs.terms
      ∧ a.derived keccak256 = b.derived keccak256 := by
  have hlen := congrArg List.length h
  have haddr := ha.hashes.1
  have haddr' := hb.hashes.1
  cases a with
  | orderFill p x =>
      cases b with
      | orderFill p' x' =>
          obtain ⟨ht, rfl⟩ := OrderFill.preimage_inj haddr haddr' h
          exact ⟨rfl, ht, rfl⟩
      | dca p' x' => simp [preimage] at hlen
  | dca p x =>
      cases b with
      | orderFill p' x' => simp [preimage] at hlen
      | dca p' x' =>
          obtain ⟨ht, rfl⟩ := Dca.preimage_inj haddr haddr' h
          exact ⟨rfl, ht, rfl⟩

end Assignment

/-- Commitments are binding, and the preimages of the two circuits and of
the nullifiers never meet. -/
theorem commitment_binding (keccak256 : Hash) :
    (∀ p p' x x', OrderFill.main keccak256 p x = .ok () →
        OrderFill.main keccak256 p' x' = .ok () →
        (OrderFill.commitmentPreimage x.terms p).toList
          = (OrderFill.commitmentPreimage x'.terms p').toList →
        x.terms = x'.terms ∧ p = p')
      ∧ (∀ p p' x x', Dca.main keccak256 p x = .ok () →
        Dca.main keccak256 p' x' = .ok () →
        (Dca.commitmentPreimage x.terms p).toList
          = (Dca.commitmentPreimage x'.terms p').toList →
        x.terms = x'.terms ∧ p = p')
      ∧ (∀ t p t' p', (OrderFill.commitmentPreimage t p).toList
          ≠ (Dca.commitmentPreimage t' p').toList)
      ∧ (∀ t p secret nonce, (OrderFill.commitmentPreimage t p).toList
          ≠ (nullifierPreimage secret nonce).toList)
      ∧ ∀ used, Set.InjOn (hashToField keccak256) used →
        ∀ a b : Assignment, a.Accepted keccak256 → b.Accepted keccak256 →
          a.preimage ∈ used → b.preimage ∈ used →
          a.inputs.commitmentHash = b.inputs.commitmentHash →
          a.circuit = b.circuit ∧ a.inputs.terms = b.inputs.terms
            ∧ a.inputs.nullifier = b.inputs.nullifier := by
  refine ⟨fun p p' x x' h h' heq => ?_, fun p p' x x' h h' heq => ?_,
    fun t p t' p' heq => ?_, fun t p secret nonce heq => ?_, ?_⟩
  · exact OrderFill.preimage_inj (OrderFill.main_eq_ok.1 h).1 (OrderFill.main_eq_ok.1 h').1 heq
  · exact Dca.preimage_inj (Dca.main_eq_ok.1 h).1 (Dca.main_eq_ok.1 h').1 heq
  · simpa using congrArg List.length heq
  · simpa using congrArg List.length heq
  · intro used hinj a b ha hb hau hbu hhash
    obtain ⟨-, hca, hna⟩ := ha.hashes
    obtain ⟨-, hcb, hnb⟩ := hb.hashes
    have hpre : a.preimage = b.preimage := hinj hau hbu (by rw [hca, hcb, hhash])
    obtain ⟨hkind, hterms, hnull⟩ := ha.eq_of_preimage hb hpre
    exact ⟨hkind, hterms, by rw [← hna, ← hnb, hnull]⟩

-- ================================================================= a sample

def sampleTerms : Terms := ⟨10, 11, 60, 5, 2000⟩

/-- The Keccak-256 digests of the sample preimages below, told apart by
their lengths. -/
def sampleKeccak : Hash := fun bs => bytesBE 32 <|
  if bs.length = 185 then
    0x98789be9c921c6346b5be584fc4e87c5eba908d87129bfdf18025fcc394c768b
  else if bs.length = 192 then
    0xb673d0fd34f9335e96ea943a603f329a995cc5c779bc60ecea9781057b7bd1a3
  else 0x4ced6d0d36392b04cc5d8761b1327b3bbba6e1089c77f60a9a9ca18e05e4f00e

def sampleNullifier : Field :=
  Fin.ofNat P 0x4ced6d0d36392b04cc5d8761b1327b3bbba6e1089c77f60a9a9ca18e05e4f00e

/-- A BUY at 1.0. -/
def samplePrice : OrderFill.Private := ⟨100000000, false, 6, 7⟩

def samplePriceHash : Field :=
  Fin.ofNat P 0x98789be9c921c6346b5be584fc4e87c5eba908d87129bfdf18025fcc394c768b

/-- A round with the window from 900 to 1000. -/
def sampleWindow : Dca.Private := ⟨900, 1000, 6, 7⟩

def sampleWindowHash : Field :=
  Fin.ofNat P 0xb673d0fd34f9335e96ea943a603f329a995cc5c779bc60ecea9781057b7bd1a3

theorem sampleTerms_address : sampleTerms.AddressFields := ⟨by decide, by decide⟩

/-- The digests, as field elements. -/
theorem sampleKeccak_field (bs : List UInt8) :
    hashToField sampleKeccak bs
      = if bs.length = 185 then samplePriceHash
        else if bs.length = 192 then sampleWindowHash else sampleNullifier := by
  unfold hashToField sampleKeccak
  split_ifs
  · exact Field.fromBeBytes_bytesBE (by decide)
  · exact Field.fromBeBytes_bytesBE (by decide)
  · exact Field.fromBeBytes_bytesBE (by decide)

theorem sampleNullifier_derived :
    computeNullifier sampleKeccak 7 6 = sampleNullifier := by
  rw [computeNullifier, sampleKeccak_field, Vector.length_toList]
  rfl

theorem samplePriceHash_derived :
    OrderFill.computeCommitment sampleKeccak sampleTerms samplePrice = samplePriceHash := by
  rw [OrderFill.computeCommitment, sampleKeccak_field, Vector.length_toList]
  rfl

theorem sampleWindowHash_derived :
    Dca.computeCommitment sampleKeccak sampleTerms sampleWindow = sampleWindowHash := by
  rw [Dca.computeCommitment, sampleKeccak_field, Vector.length_toList]
  rfl

/-- The order fills at any oracle price up to its own. -/
theorem samplePrice_accepted {x : UInt64} (hx : x ≤ 100000000) :
    OrderFill.main sampleKeccak samplePrice
      ⟨samplePriceHash, x, sampleNullifier, sampleTerms⟩ = .ok () :=
  OrderFill.main_eq_ok.2
    ⟨sampleTerms_address, samplePriceHash_derived, hx, sampleNullifier_derived⟩

/-- The round executes at any time of its window. -/
theorem sampleWindow_accepted {x : UInt64} (hlo : 900 ≤ x) (hhi : x ≤ 1000) :
    Dca.main sampleKeccak sampleWindow
      ⟨sampleWindowHash, x, sampleNullifier, sampleTerms⟩ = .ok () := by
  have hexp : x < sampleTerms.expiry := UInt64.lt_of_le_of_lt hhi (by decide)
  exact Dca.main_eq_ok.2 ⟨sampleTerms_address, sampleWindowHash_derived, ⟨hlo, hhi⟩, hexp,
    sampleNullifier_derived⟩

/-- Two runs for the order, at two oracle prices, and one for the round. -/
theorem commitment_binding_sample :
    ∃ a b c : Assignment, a ≠ b ∧ a.inputs.nullifier = b.inputs.nullifier
      ∧ c.circuit = .dca ∧ a.inputs.commitmentHash ≠ c.inputs.commitmentHash := by
  let a : Assignment :=
    .orderFill samplePrice ⟨samplePriceHash, 100000000, sampleNullifier, sampleTerms⟩
  let b : Assignment :=
    .orderFill samplePrice ⟨samplePriceHash, 99999999, sampleNullifier, sampleTerms⟩
  let c : Assignment :=
    .dca sampleWindow ⟨sampleWindowHash, 950, sampleNullifier, sampleTerms⟩
  have ha : a.Accepted sampleKeccak := samplePrice_accepted (by decide)
  have hb : b.Accepted sampleKeccak := samplePrice_accepted (by decide)
  have hc : c.Accepted sampleKeccak := sampleWindow_accepted (by decide) (by decide)
  have hinj : Set.InjOn (hashToField sampleKeccak) {a.preimage, c.preimage} := by
    rw [Set.injOn_pair, ha.hashes.2.1, hc.hashes.2.1]
    intro heq
    exact absurd heq (by decide)
  obtain ⟨-, -, -, -, hone⟩ := commitment_binding sampleKeccak
  refine ⟨a, b, c, ?_, ?_, rfl, fun heq => ?_⟩
  · decide
  · exact (hone _ hinj _ _ ha hb (.inl rfl) (.inl rfl) rfl).2.2
  · have hkind := (hone _ hinj _ _ ha hc (.inl rfl) (.inr rfl) heq).1
    cases hkind

end Zstrategy.Circuits
