/-
What a successful `executeCommitment` has established, across the three
programs that share the work: the registry checks status, expiry and the
freshness of the fill reference, lays out eight public inputs, and asks a
verifier; the verifier vouches for a run of the kind's circuit on them.

The verifier is outside code. `VerifierSound` is what a SNARK verifier
promises: it accepts only canonical field elements for which the circuit
has accepting witnesses.
-/
import Zstrategy.Circuits.Binding
import Zstrategy.Contracts.Rules

namespace Zstrategy.Contracts

open Lib Code

open Circuits (Assignment Circuit Hash P computeNullifier)

variable {net : Net} {w : World} {h n : Bytes32} {proof : List UInt8} {x y : UInt64}

-- ============================================================ what was checked

namespace CommitmentRegistry

/-- An execution that returns was authorised. -/
theorem Authorised.of_canReturn {m : Msg}
    (hret : (entry net (m, .executeCommitment h n proof x) w).CanReturn) :
    ∃ y, Authorised w h n proof x y := by
  refine Outcome.Sat.of_canReturn ?_ hret
  show (entry net (m, .executeCommitment h n proof x)).wp Rely.any _ w
  unfold entry dispatch nonpayable executeCommitment
  rw [wp_bind, wp_bind]
  refine wp_require_any fun _ => ?_
  rw [wp_nonReentrant]
  refine ⟨fun _ => ?_, fun _ => trivial⟩
  rw [wp_bind, wp_whenNotPaused]
  refine ⟨fun _ => ?_, fun _ => trivial⟩
  rw [wp_bind]
  refine wp_authorise (fun _ => trivial) fun y hy => ?_
  refine Outcome.Sat.any fun _ _ => Outcome.Sat.any fun _ _ => ?_
  -- the lock is set, which none of the checks reads
  exact ⟨y, ⟨hy.pending, hy.live, hy.unspent, hy.configured, hy.reference, hy.verified⟩⟩

/-- The reference of an ORDER_FILL is the oracle price; nothing is supplied. -/
theorem fillReference_order {c : CommitmentRecord} (hk : c.kind = .ORDER_FILL) :
    fillReference w c x = .ok y ↔ x = 0 ∧ readOraclePrice w c.tokenIn c.tokenOut = .ok y := by
  rw [fillReference, hk]
  exact expect_bind_eq_ok

/-- The reference of a DCA round is the supplied time, neither in the
future nor older than five minutes. -/
theorem fillReference_dca {c : CommitmentRecord} (hk : c.kind = .DCA) :
    fillReference w c x = .ok y
      ↔ x.toNat ≤ w.timestamp ∧ w.timestamp - x.toNat ≤ 300 ∧ x = y := by
  rw [fillReference, hk]
  refine expect_bind_eq_ok.trans (and_congr_right' (expect_bind_eq_ok.trans ?_))
  exact and_congr_right' ⟨fun hxy => by cases hxy; rfl, fun hxy => by rw [hxy]; rfl⟩

end CommitmentRegistry

-- ================================================================ the verifier

/-- The circuit behind a kind. -/
def CommitmentKind.circuit : CommitmentKind → Circuit
  | .ORDER_FILL => .orderFill
  | .DCA => .dca

/-- The configured verifiers accept only canonical inputs that some
witnesses of the kind's circuit go with. -/
def VerifierSound (keccak256 : Hash) (w : World) : Prop :=
  ∀ kind proof inputs, w.registry.verifiers (CommitmentKind.toUInt8 kind) ≠ 0 →
    w.ext.verify (w.registry.verifiers kind.toUInt8) proof inputs = true →
    (∀ i ∈ inputs, i.val < P)
      ∧ ∃ a : Assignment, a.circuit = kind.circuit ∧ a.Accepted keccak256
        ∧ a.inputs.words = inputs.map Fin.val

/-- The terms a record stores, as circuit inputs. -/
def CommitmentRecord.terms (r : CommitmentRecord) : Circuits.Terms :=
  ⟨.of r.tokenIn.val, .of r.tokenOut.val, .of r.size.val, .of r.minOut.val, r.expiry⟩

/-- The registry's positions are the circuits' positions. -/
theorem publicInputs_words {a : Circuits.PublicInputs} {r : CommitmentRecord}
    (hwords : a.words = (CommitmentRegistry.publicInputs h n y r).map Fin.val) :
    a.commitmentHash.val = h.val ∧ a.fillRef = y ∧ a.nullifier.val = n.val
      ∧ a.terms = r.terms := by
  simp only [Circuits.PublicInputs.words, CommitmentRegistry.publicInputs, List.map_cons,
    List.map_nil, List.cons.injEq, Address.toBytes32_val, Bytes32.ofUInt64_val, and_true]
    at hwords
  obtain ⟨hc, hfill, hn, hin, hout, hsize, hmin, hexp⟩ := hwords
  obtain ⟨_, _, _, tIn, tOut, size, minOut, expiry⟩ := a
  refine ⟨hc, UInt64.toNat_inj.1 hfill, hn, ?_⟩
  have hof : ∀ {v : Circuits.Field} {k : ℕ}, v.val = k → v = .of k := by
    rintro v _ rfl
    exact Fin.ext (Circuits.Field.of_val v.isLt).symm
  rw [CommitmentRecord.terms, Circuits.Terms.mk.injEq]
  exact ⟨hof hin, hof hout, hof hsize, hof hmin, UInt64.toNat_inj.1 hexp⟩

-- ================================================================ the theorem

/-- A commitment that executes was ordered: the record's terms and some
witnesses hash to `h`, `n` belongs to the same witnesses, and the private
fill condition holds of the reference the registry used. -/
theorem execution_authorised {keccak256 : Hash} (hsound : VerifierSound keccak256 w)
    {m : Msg} (hret : (entry net (m, .executeCommitment h n proof x) w).CanReturn) :
    let r := w.registry.commitments h
    r.size.val < P ∧ r.minOut.val < P ∧ w.timestamp ≤ r.expiry.toNat
      ∧ match r.kind with
        | .ORDER_FILL => ∃ (p : Circuits.OrderFill.Private) (price : UInt64),
            (Circuits.OrderFill.computeCommitment keccak256 r.terms p).val = h.val
              ∧ (computeNullifier keccak256 p.userSecret p.nonce).val = n.val
              ∧ CommitmentRegistry.readOraclePrice w r.tokenIn r.tokenOut = .ok price
              ∧ (p.direction = false → price ≤ p.price)
              ∧ (p.direction = true → price ≥ p.price)
        | .DCA => ∃ p : Circuits.Dca.Private,
            (Circuits.Dca.computeCommitment keccak256 r.terms p).val = h.val
              ∧ (computeNullifier keccak256 p.userSecret p.nonce).val = n.val
              ∧ p.scheduledLo ≤ x ∧ x ≤ p.scheduledHi ∧ x < r.expiry
              ∧ x.toNat ≤ w.timestamp ∧ w.timestamp - x.toNat ≤ 300 := by
  intro r
  obtain ⟨y, hy⟩ := CommitmentRegistry.Authorised.of_canReturn hret
  obtain ⟨hcanon, a, hkind, hacc, hwords⟩ := hsound r.kind proof _ hy.configured hy.verified
  have hsize : r.size.val < P := hcanon _ (by simp [CommitmentRegistry.publicInputs, r])
  have hmin : r.minOut.val < P := hcanon _ (by simp [CommitmentRegistry.publicInputs, r])
  obtain ⟨hc, hfill, hn, hterms⟩ := publicInputs_words hwords
  refine ⟨hsize, hmin, hy.live, ?_⟩
  cases hk : r.kind with
  | ORDER_FILL =>
      rw [hk] at hkind
      cases a with
      | dca p i => cases hkind
      | orderFill p i =>
          simp only [Assignment.inputs] at hc hfill hn hterms
          obtain ⟨-, hcommit, hfills, hnull⟩ := Circuits.OrderFill.main_eq_ok.1 hacc
          obtain ⟨-, hprice⟩ := (CommitmentRegistry.fillReference_order hk).1 hy.reference
          rw [hterms] at hcommit
          rw [hfill, Circuits.OrderFill.Private.Fills] at hfills
          refine ⟨p, y, by rw [hcommit, hc], by rw [hnull, hn], hprice, fun hd => ?_,
            fun hd => ?_⟩
          · simpa [hd] using hfills
          · simpa [hd] using hfills
  | DCA =>
      rw [hk] at hkind
      cases a with
      | orderFill p i => cases hkind
      | dca p i =>
          simp only [Assignment.inputs] at hc hfill hn hterms
          obtain ⟨-, hcommit, ⟨hlo, hhi⟩, hexp, hnull⟩ := Circuits.Dca.main_eq_ok.1 hacc
          obtain ⟨hpast, hfresh, rfl⟩ := (CommitmentRegistry.fillReference_dca hk).1 hy.reference
          rw [hfill] at hlo hhi hexp
          rw [hterms] at hcommit hexp
          exact ⟨p, by rw [hcommit, hc], by rw [hnull, hn], hlo, hhi, hexp, hpast, hfresh⟩

-- ================================================================== a sample

def sampleOrderHash : Bytes32 := Circuits.samplePriceHash.castLE (by decide)

def sampleRoundHash : Bytes32 := Circuits.sampleWindowHash.castLE (by decide)

def sampleSpend : Bytes32 := Circuits.sampleNullifier.castLE (by decide)

/-- The order at the oracle price 1.0. -/
def sampleFill : Assignment :=
  .orderFill Circuits.samplePrice
    ⟨Circuits.samplePriceHash, 100000000, Circuits.sampleNullifier, Circuits.sampleTerms⟩

/-- The round at 950. -/
def sampleTick : Assignment :=
  .dca Circuits.sampleWindow
    ⟨Circuits.sampleWindowHash, 950, Circuits.sampleNullifier, Circuits.sampleTerms⟩

/-- The verifiers 20 and 21 accept these two and nothing else. -/
def sampleVerify (v : Address) (_ : List UInt8) (inputs : List Bytes32) : Bool :=
  (v == 20 && inputs.map Fin.val == sampleFill.inputs.words)
    || (v == 21 && inputs.map Fin.val == sampleTick.inputs.words)

/-- Both commitments are registered by user 8 and the vault holds their
collateral. -/
def sampleReady : World :=
  { sampleWorld with
    registry := { sampleWorld.registry with
      verifiers := fun k => if k = 0 then 20 else if k = 1 then 21 else 0
      priceFeeds := fun _ => 30
      commitments := fun h =>
        if h = sampleOrderHash then ⟨8, 2000, .PENDING, .ORDER_FILL, 10, 11, 60, 5⟩
        else if h = sampleRoundHash then ⟨8, 2000, .PENDING, .DCA, 10, 11, 60, 5⟩
        else .empty }
    vaults := fun _ => ⟨false, 7, 1, fun _ _ => 0, fun _ t => if t = 10 then 60 else 0⟩
    balances := fun _ a => if a = 3 then 120 else 0
    ext := { sampleWorld.ext with verify := sampleVerify } }

theorem sampleReady_sound : VerifierSound Circuits.sampleKeccak sampleReady := by
  have hsmall : ∀ a : Assignment, (∀ k ∈ a.inputs.words, k < P) → ∀ inputs : List Bytes32,
      inputs.map Fin.val = a.inputs.words → ∀ i ∈ inputs, i.val < P :=
    fun a ha inputs heq i hi => ha _ (heq ▸ List.mem_map_of_mem hi)
  intro kind proof inputs _ hv
  cases kind with
  | ORDER_FILL =>
      have hw : inputs.map Fin.val = sampleFill.inputs.words := by
        simpa [sampleReady, sampleVerify, CommitmentKind.toUInt8] using hv
      exact ⟨hsmall _ (by decide) _ hw, sampleFill, rfl,
        Circuits.samplePrice_accepted (UInt64.le_refl _), hw.symm⟩
  | DCA =>
      have hw : inputs.map Fin.val = sampleTick.inputs.words := by
        simpa [sampleReady, sampleVerify, CommitmentKind.toUInt8] using hv
      exact ⟨hsmall _ (by decide) _ hw, sampleTick, rfl,
        Circuits.sampleWindow_accepted (by decide) (by decide), hw.symm⟩

theorem execution_authorised_sample :
    (∃ (p : Circuits.OrderFill.Private) (price : UInt64),
        CommitmentRegistry.readOraclePrice sampleReady 10 11 = .ok price
          ∧ (p.direction = false → price ≤ p.price))
      ∧ ∃ p : Circuits.Dca.Private, p.scheduledLo ≤ 950 ∧ 950 ≤ p.scheduledHi := by
  have horder : (entry sampleNet (⟨8, 0, 1, 1⟩,
      .executeCommitment sampleOrderHash sampleSpend [] 0) sampleReady).CanReturn :=
    .of_answered (x := ⟨7, 7⟩) (by decide +kernel)
  have hround : (entry sampleNet (⟨8, 0, 1, 1⟩,
      .executeCommitment sampleRoundHash sampleSpend [] 950) sampleReady).CanReturn :=
    .of_answered (x := ⟨7, 7⟩) (by decide +kernel)
  obtain ⟨-, -, -, p, price, -, -, hprice, hbuy, -⟩ :=
    execution_authorised sampleReady_sound horder
  obtain ⟨-, -, -, q, -, -, hlo, hhi, -⟩ := execution_authorised sampleReady_sound hround
  exact ⟨⟨p, price, hprice, hbuy⟩, q, hlo, hhi⟩

end Zstrategy.Contracts
