/-
From a strategy to the public inputs the registry checks. The strings of a
request spell the fields of the strategy, noir_js reads them back, and what
it reads is the assignment of `Client.Strategy`: the numbers of the record
the strategy was registered under, in the order both circuits declare.

Which of the fields are field elements is said by `SecretsFit` and
`AmountsFit`. A registered amount need not be one; then noir_js refuses it,
and there is no proof.
-/
import Zstrategy.Keeper.Prover

namespace Zstrategy.Client

open Lib Contracts Keeper

open Circuits (P)

variable {viem : Viem} {lib : Ethers} {abi : Abi}

/-- The direction as the keeper calls it. -/
def StrategyDirection.keeper : StrategyDirection → Direction
  | .BUY => .BUY
  | .SELL => .SELL

theorem StrategyDirection.keeper_flag (d : StrategyDirection) :
    d.keeper.flag = decide (d = .SELL) := by
  cases d <;> rfl

theorem StrategyDirection.keeper_eq (d : StrategyDirection) :
    d.keeper = if decide (d = .SELL) then .SELL else .BUY := by
  cases d <;> rfl

namespace Strategy

def kind : Strategy → CommitmentKind
  | .orderFill _ => .ORDER_FILL
  | .dca _ => .DCA

/-- What a registration makes public. -/
def terms : Strategy → Address × Address × U256 × U256 × UInt64
  | .orderFill p => (p.tokenIn, p.tokenOut, p.size, p.minOut, p.expiry)
  | .dca p => (p.tokenIn, p.tokenOut, p.size, p.minOut, p.expiry)

def secret : Strategy → Bytes32
  | .orderFill p => p.userSecret
  | .dca p => p.userSecret

def nonce : Strategy → Bytes32
  | .orderFill p => p.nonce
  | .dca p => p.nonce

/-- The map that stands for a strategy at a fill reference. -/
def inputs (viem : Viem) (lib : Ethers) (fillRef : UInt64) (s : Strategy) : InputMap :=
  match s with
  | .orderFill p => OrderFillWitness.inputs
      { price := p.price.toNat
        direction := p.direction.keeper
        nonce := .string (hex p.nonce)
        userSecret := hex p.userSecret
        commitmentHash := hex (commitmentHash viem p)
        oraclePrice := fillRef.toNat
        nullifier := .string (hex (nullifierHash viem p.userSecret p.nonce))
        tokenIn := lib.shown p.tokenIn
        tokenOut := lib.shown p.tokenOut
        size := p.size.val
        minOut := p.minOut.val
        expiry := p.expiry.toNat }
  | .dca p => DcaWitness.inputs
      { scheduledLo := toString p.scheduledLo.toNat
        scheduledHi := toString p.scheduledHi.toNat
        nonce := .string (hex p.nonce)
        userSecret := hex p.userSecret
        commitmentHash := hex (dcaCommitmentHash viem p)
        executionTimestamp := fillRef.toNat
        nullifier := .string (hex (dcaNullifierHash viem p.userSecret p.nonce))
        tokenIn := lib.shown p.tokenIn
        tokenOut := lib.shown p.tokenOut
        size := p.size.val
        minOut := p.minOut.val
        expiry := toString p.expiry.toNat }

/-- The secrets are field elements; the amounts need not be. -/
structure SecretsFit (s : Strategy) : Prop where
  secret : s.secret.val < P
  nonce : s.nonce.val < P

/-- The amounts are field elements. -/
def AmountsFit (s : Strategy) : Prop := s.terms.2.2.1.val < P ∧ s.terms.2.2.2.1.val < P

instance (s : Strategy) : Decidable s.AmountsFit := inferInstanceAs (Decidable (_ ∧ _))

theorem canonical_iff {s : Strategy} (h : s.SecretsFit) : s.Canonical ↔ s.AmountsFit := by
  cases s with
  | orderFill p => exact ⟨fun hc => ⟨hc.size, hc.minOut⟩, fun ha => ⟨ha.1, ha.2, h.nonce, h.secret⟩⟩
  | dca p => exact ⟨fun hc => ⟨hc.size, hc.minOut⟩, fun ha => ⟨ha.1, ha.2, h.nonce, h.secret⟩⟩

end Strategy

theorem reduceToField_lt (x : Bytes32) : (reduceToField x).val < P := by
  have hlt : x.val % BN254_FIELD_MODULUS < P := Nat.mod_lt _ (by decide)
  show x.val % BN254_FIELD_MODULUS % 2 ^ 256 < P
  exact Nat.lt_of_le_of_lt (Nat.mod_le _ _) hlt

-- ==================================================================== reading

section Reading

variable (habi : abi.Documented lib) {inputs : InputMap} {name : String}

include habi

theorem field_hex {x : Bytes32} (hname : inputs.lookup name = some (.string (hex x)))
    (hx : x.val < P) : abi.field inputs name = some (toField x) := by
  unfold Abi.field
  rw [hname]
  show (abi.scalar _).map Circuits.Field.of = _
  rw [habi.hex, if_pos hx]
  rfl

theorem field_address {a : Address} (hname : inputs.lookup name = some (.string (lib.shown a))) :
    abi.field inputs name = some (toField a.toBytes32) := by
  unfold Abi.field
  rw [hname]
  show (abi.scalar _).map Circuits.Field.of = _
  rw [habi.address]
  rfl

theorem field_amount {x : U256}
    (hname : inputs.lookup name = some (.string (toString (x.val : ℤ)))) :
    abi.field inputs name = if x.val < P then some (toField x) else none := by
  have hscalar := habi.decimal x.val
  unfold Abi.field
  rw [hname]
  show (abi.scalar (.string (toString x.val))).map Circuits.Field.of = _
  rw [hscalar]
  split <;> rfl

theorem u64_toString {x : UInt64}
    (hname : inputs.lookup name = some (.string (toString x.toNat))) :
    abi.u64 inputs name = some x := by
  have hlt : x.toNat < 2 ^ 64 := x.toNat_lt
  have hfits : x.toNat < P := Nat.lt_trans hlt (by decide)
  unfold Abi.u64
  rw [hname]
  show (abi.scalar _).bind _ = _
  rw [habi.decimal, if_pos hfits]
  show (if x.toNat < 2 ^ 64 then some (UInt64.ofNat x.toNat) else none) = some x
  rw [if_pos hlt, UInt64.ofNat_toNat]

/-- The public inputs, from the strings of the public fields. -/
theorem publicInputs_eq {fillRefName : String} {h n : Bytes32} {fillRef : UInt64}
    {tokenIn tokenOut : Address} {size minOut : U256} {expiry : UInt64}
    (hh : inputs.lookup "commitment_hash" = some (.string (hex h))) (hhfit : h.val < P)
    (hr : inputs.lookup fillRefName = some (.string (toString fillRef.toNat)))
    (hn : inputs.lookup "nullifier" = some (.string (hex n))) (hnfit : n.val < P)
    (hin : inputs.lookup "token_in" = some (.string (lib.shown tokenIn)))
    (hout : inputs.lookup "token_out" = some (.string (lib.shown tokenOut)))
    (hsize : inputs.lookup "size" = some (.string (toString (size.val : ℤ))))
    (hmin : inputs.lookup "min_out" = some (.string (toString (minOut.val : ℤ))))
    (hexp : inputs.lookup "expiry" = some (.string (toString expiry.toNat))) :
    abi.publicInputs fillRefName inputs
      = if size.val < P ∧ minOut.val < P then
          some ⟨toField h, fillRef, toField n, ⟨toField tokenIn.toBytes32,
            toField tokenOut.toBytes32, toField size, toField minOut, expiry⟩⟩
        else none := by
  unfold Abi.publicInputs
  rw [field_hex habi hh hhfit, u64_toString habi hr, field_hex habi hn hnfit,
    field_address habi hin, field_address habi hout, field_amount habi hsize,
    field_amount habi hmin, u64_toString habi hexp]
  by_cases hs : size.val < P
  · by_cases hm : minOut.val < P
    · rw [if_pos hs, if_pos hm, if_pos ⟨hs, hm⟩]
      rfl
    · have hboth : ¬(size.val < P ∧ minOut.val < P) := fun h => hm h.2
      rw [if_pos hs, if_neg hm, if_neg hboth]
      rfl
  · have hboth : ¬(size.val < P ∧ minOut.val < P) := fun h => hs h.1
    rw [if_neg hs, if_neg hboth]
    rfl

/-- noir_js reads the assignment of a strategy from its strings, unless an
amount is no field element. -/
theorem read_inputs {s : Strategy} (hs : s.SecretsFit) (fillRef : UInt64) :
    abi.read s.kind.circuit (s.inputs viem lib fillRef)
      = if s.AmountsFit then some (s.assignment viem fillRef) else none := by
  cases s with
  | orderFill p =>
      have hpublic :
          abi.publicInputs "oracle_price" (Strategy.inputs viem lib fillRef (.orderFill p)) = _ :=
        publicInputs_eq habi rfl (reduceToField_lt _) rfl rfl (reduceToField_lt _) rfl rfl rfl rfl
          rfl
      have hprice : abi.u64 (Strategy.inputs viem lib fillRef (.orderFill p)) "price"
          = some p.price := u64_toString habi rfl
      have hnonce : abi.field (Strategy.inputs viem lib fillRef (.orderFill p)) "nonce" = _ :=
        field_hex habi rfl hs.nonce
      have hsecret : abi.field (Strategy.inputs viem lib fillRef (.orderFill p)) "user_secret"
          = _ := field_hex habi rfl hs.secret
      have hflag : Abi.flag (Strategy.inputs viem lib fillRef (.orderFill p)) "direction"
          = some (decide (p.direction = .SELL)) := congrArg some p.direction.keeper_flag
      show (do
        let price ← abi.u64 _ "price"
        let direction ← Abi.flag _ "direction"
        let nonce ← abi.field _ "nonce"
        let userSecret ← abi.field _ "user_secret"
        let x ← abi.publicInputs "oracle_price" _
        return Circuits.Assignment.orderFill ⟨price, direction, nonce, userSecret⟩ x) = _
      rw [hpublic, hprice, hflag, hnonce, hsecret]
      by_cases hfit : p.size.val < P ∧ p.minOut.val < P
      · have hamounts : (Strategy.orderFill p).AmountsFit := hfit
        rw [if_pos hfit, if_pos hamounts]
        rfl
      · have hamounts : ¬(Strategy.orderFill p).AmountsFit := hfit
        rw [if_neg hfit, if_neg hamounts]
        rfl
  | dca p =>
      have hpublic : abi.publicInputs "execution_timestamp"
          (Strategy.inputs viem lib fillRef (.dca p)) = _ :=
        publicInputs_eq habi rfl (reduceToField_lt _) rfl rfl (reduceToField_lt _) rfl rfl rfl rfl
          rfl
      have hlo : abi.u64 (Strategy.inputs viem lib fillRef (.dca p)) "scheduled_lo"
          = some p.scheduledLo := u64_toString habi rfl
      have hhi : abi.u64 (Strategy.inputs viem lib fillRef (.dca p)) "scheduled_hi"
          = some p.scheduledHi := u64_toString habi rfl
      have hnonce : abi.field (Strategy.inputs viem lib fillRef (.dca p)) "nonce" = _ :=
        field_hex habi rfl hs.nonce
      have hsecret : abi.field (Strategy.inputs viem lib fillRef (.dca p)) "user_secret" = _ :=
        field_hex habi rfl hs.secret
      show (do
        let scheduledLo ← abi.u64 _ "scheduled_lo"
        let scheduledHi ← abi.u64 _ "scheduled_hi"
        let nonce ← abi.field _ "nonce"
        let userSecret ← abi.field _ "user_secret"
        let x ← abi.publicInputs "execution_timestamp" _
        return Circuits.Assignment.dca ⟨scheduledLo, scheduledHi, nonce, userSecret⟩ x) = _
      rw [hpublic, hlo, hhi, hnonce, hsecret]
      by_cases hfit : p.size.val < P ∧ p.minOut.val < P
      · have hamounts : (Strategy.dca p).AmountsFit := hfit
        rw [if_pos hfit, if_pos hamounts]
        rfl
      · have hamounts : ¬(Strategy.dca p).AmountsFit := hfit
        rw [if_neg hfit, if_neg hamounts]
        rfl

end Reading

-- ================================================================== the record

/-- The record of a registration of the strategy. -/
def Strategy.Opens (s : Strategy) (c : CommitmentRecord) : Prop :=
  c.kind = s.kind ∧ (c.tokenIn, c.tokenOut, c.size, c.minOut, c.expiry) = s.terms

/-- A record's public inputs, as circuit inputs. -/
theorem map_publicInputs {h n : Bytes32} {fillRef : UInt64} {c : CommitmentRecord}
    (hh : h.val < P) (hn : n.val < P) (hsize : c.size.val < P) (hmin : c.minOut.val < P) :
    (CommitmentRegistry.publicInputs h n fillRef c).map Fin.val
      = Circuits.PublicInputs.words ⟨toField h, fillRef, toField n, ⟨toField c.tokenIn.toBytes32,
          toField c.tokenOut.toBytes32, toField c.size, toField c.minOut, c.expiry⟩⟩ := by
  simp only [CommitmentRegistry.publicInputs, Circuits.PublicInputs.words, List.map_cons,
    List.map_nil, Bytes32.ofUInt64_val, Address.toBytes32_val, toField_val hh, toField_val hn,
    toField_val hsize, toField_val hmin, toField_address]

/-- The registry lays out the public inputs of the assignment. -/
theorem publicInputs_of_opens {s : Strategy} {c : CommitmentRecord} (hc : s.Opens c)
    (ha : s.AmountsFit) (fillRef : UInt64) :
    (CommitmentRegistry.publicInputs (s.commitment viem) (s.nullifier viem) fillRef c).map Fin.val
      = (s.assignment viem fillRef).inputs.words := by
  obtain ⟨hkind, hterms⟩ := hc
  obtain ⟨owner, expiry, status, kind, tokenIn, tokenOut, size, minOut⟩ := c
  cases s with
  | orderFill p =>
      cases hterms
      exact map_publicInputs (reduceToField_lt _) (reduceToField_lt _) ha.1 ha.2
  | dca p =>
      cases hterms
      exact map_publicInputs (reduceToField_lt _) (reduceToField_lt _) ha.1 ha.2

-- =================================================================== the proof

/-- The private condition at a fill reference: a price, or a time. -/
def Strategy.Fills (fillRef : UInt64) : Strategy → Prop
  | .orderFill p => p.witness.Fills fillRef
  | .dca p => p.witness.Fills fillRef ∧ fillRef < p.expiry

/-- Of a canonical strategy the circuit checks nothing but its condition. -/
theorem accepted_iff (hviem : viem.FollowsAbi) {s : Strategy} (hs : s.Canonical)
    (fillRef : UInt64) :
    (s.assignment viem fillRef).Accepted viem.keccak256 ↔ s.Fills fillRef := by
  have hbytes := s.packed_eq hviem hs fillRef
  have hnull := s.nullifierPacked_eq hviem hs fillRef
  obtain ⟨hcin, hnin⟩ := s.inputs_eq viem fillRef
  have hc : (s.assignment viem fillRef).computeCommitment viem.keccak256
      = (s.assignment viem fillRef).inputs.commitmentHash := by
    rw [Circuits.Assignment.computeCommitment_eq, hcin, s.commitment_eq,
      toField_reduceToField hbytes]
  have hn : (s.assignment viem fillRef).derived viem.keccak256
      = (s.assignment viem fillRef).inputs.nullifier := by
    rw [hnin, s.nullifier_eq, toField_reduceToField hnull]
    rfl
  have haddress : ∀ a : Address, (toField a.toBytes32).val < 256 ^ 20 := fun a => by
    rw [toField_address]
    exact a.isLt
  cases s with
  | orderFill p =>
      refine Circuits.OrderFill.main_eq_ok.trans ?_
      exact ⟨fun h => h.2.2.1, fun h => ⟨⟨haddress _, haddress _⟩, hc, h, hn⟩⟩
  | dca p =>
      refine Circuits.Dca.main_eq_ok.trans ?_
      exact ⟨fun h => ⟨h.2.2.1, h.2.2.2.1⟩,
        fun h => ⟨⟨haddress _, haddress _⟩, hc, h.1, h.2, hn⟩⟩

/-- The proof of a strategy is made when its amounts are field elements and
its condition holds, and then a verifier that agrees with bb.js accepts it
for the record of the strategy. -/
theorem generateProof_inputs {prover : Prover} (name : String) (hviem : viem.FollowsAbi)
    (habi : abi.Documented lib) (hprover : prover.Documented abi viem.keccak256) {s : Strategy}
    (hs : s.SecretsFit) (fillRef : UInt64) :
    ((∃ proof, generateProof prover name s.kind.circuit (s.inputs viem lib fillRef) = .ok proof)
        ↔ s.AmountsFit ∧ s.Fills fillRef)
      ∧ ∀ proof, generateProof prover name s.kind.circuit (s.inputs viem lib fillRef) = .ok proof →
        ∀ (w : World) (c : CommitmentRecord), prover.AgreesWith w → s.Opens c →
          w.registry.verifiers c.kind.toUInt8 ≠ 0 →
          w.ext.verify (w.registry.verifiers c.kind.toUInt8) proof
            (CommitmentRegistry.publicInputs (s.commitment viem) (s.nullifier viem) fillRef c)
            = true := by
  have hread : abi.read s.kind.circuit (s.inputs viem lib fillRef) = _ :=
    read_inputs habi hs fillRef
  have hcircuit : (s.assignment viem fillRef).circuit = s.kind.circuit := by
    cases s with
    | orderFill p => rfl
    | dca p => rfl
  have hexecutes : ∀ a, prover.execute s.kind.circuit (s.inputs viem lib fillRef) = .ok a
      → a = s.assignment viem fillRef ∧ s.AmountsFit ∧ a.Accepted viem.keccak256 := by
    intro a ha
    obtain ⟨hsome, hacc⟩ := (hprover.executes _ _ a).1 ha
    rw [hread] at hsome
    split at hsome
    case isFalse => cases hsome
    case isTrue hfit =>
      cases hsome
      exact ⟨rfl, hfit, hacc⟩
  refine ⟨⟨?_, ?_⟩, ?_⟩
  · intro hproof
    obtain ⟨proof, hproof⟩ := hproof
    obtain ⟨a, data, ha, -⟩ := generateProof_eq_ok.1 hproof
    obtain ⟨rfl, hfit, hacc⟩ := hexecutes a ha
    exact ⟨hfit, (accepted_iff hviem ((s.canonical_iff hs).2 hfit) fillRef).1 hacc⟩
  · intro hcond
    obtain ⟨hfit, hfills⟩ := hcond
    have hacc := (accepted_iff hviem ((s.canonical_iff hs).2 hfit) fillRef).2 hfills
    have hsolved : prover.execute s.kind.circuit (s.inputs viem lib fillRef)
        = .ok (s.assignment viem fillRef) :=
      (hprover.executes _ _ _).2 ⟨by rw [hread, if_pos hfit], hacc⟩
    obtain ⟨data, hdata, -, hverify⟩ := hprover.proves _ hacc
    rw [hcircuit] at hverify
    exact ⟨data.proof, generateProof_eq_ok.2 ⟨_, data, hsolved, hdata, hverify, rfl⟩⟩
  · intro proof hproof w c hagrees hc hconfigured
    obtain ⟨a, data, ha, hdata, hverify, rfl⟩ := generateProof_eq_ok.1 hproof
    obtain ⟨rfl, hfit, hacc⟩ := hexecutes a ha
    obtain ⟨data', hdata', hwords, -⟩ := hprover.proves _ hacc
    cases hdata.symm.trans hdata'
    have hkind : c.kind = s.kind := hc.1
    rw [← hkind] at hverify
    refine hagrees c.kind data _ hconfigured hverify ?_
    rw [hwords]
    exact publicInputs_of_opens hc hfit fillRef

end Zstrategy.Client
