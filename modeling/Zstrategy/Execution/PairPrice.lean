/-
One price, derived three times: by the registry when it executes, by the
keeper when it proves, by the backend when it triggers. Each derivation
gets a lemma that says when it succeeds and with what; the agreement is
read off the three.

The registry computes in checked `uint256`, the keeper in bigints and the
backend in `big.Int`, with the difference of the decimals taken in a
`uint8`. Where that difference wraps, or where the price no longer fits 64
bits, the three may part; `BackendFollows` says exactly where they do not.
-/
import Mathlib.Algebra.Order.Floor.Ring
import Mathlib.Data.Rat.Floor
import Mathlib.Tactic.NormNum
import Zstrategy.Backend.Oracle
import Zstrategy.Contracts.Chain
import Zstrategy.Keeper.Oracle

namespace Zstrategy.Contracts

open Lib

variable {shown : Address → String} {w : World} {tokenIn tokenOut : Address}
  {rIn rOut : Feed}

/-- The feed configured for `token` answers `r`. -/
structure Reads (w : World) (token : Address) (r : Feed) : Prop where
  configured : w.registry.priceFeeds token ≠ 0
  reading : w.ext.feed (w.registry.priceFeeds token) = some r

-- ============================================================== the formula

/-- The answer at 18 decimals, for a feed of at most 18. -/
def Feed.norm (r : Feed) : ℕ :=
  r.answer.toNat * 10 ^ (18 - r.decimals.toNat)

/-- The answer as the backend scales it: the exponent is a `uint8`. -/
def Feed.wrapped (r : Feed) : ℕ :=
  r.answer.toNat * 10 ^ (18 - r.decimals).toNat

/-- `floor(answerIn * 10^(18-dIn) * 10^dOut / (answerOut * 10^(18-dOut)))`,
over the rationals: an exponent may be negative. -/
def pairPrice (rIn rOut : Feed) : ℤ :=
  ⌊(rIn.answer * (10 : ℚ) ^ (18 - rIn.decimals.toNat : ℤ) * 10 ^ rOut.decimals.toNat)
    / (rOut.answer * (10 : ℚ) ^ (18 - rOut.decimals.toNat : ℤ))⌋

/-- The products `_readOraclePrice` forms stay in a word. A feed of more
than 18 decimals stops it before it forms one. -/
def ProductsFit (rIn rOut : Feed) : Prop :=
  rIn.decimals.toNat ≤ 18 → rOut.decimals.toNat ≤ 18 →
    rIn.norm < 2 ^ 256 ∧ rOut.norm < 2 ^ 256
      ∧ rIn.norm * 10 ^ rOut.decimals.toNat < 2 ^ 256

theorem Feed.norm_pos {r : Feed} (h : 0 < r.answer) : 0 < r.norm := by
  have hpos : 0 < r.answer.toNat := by omega
  exact Nat.mul_pos hpos (Nat.pow_pos (by decide))

theorem Feed.wrapped_pos {r : Feed} (h : 0 < r.answer) : 0 < r.wrapped := by
  have hpos : 0 < r.answer.toNat := by omega
  exact Nat.mul_pos hpos (Nat.pow_pos (by decide))

/-- The scaled answer as the keeper computes it. -/
theorem Feed.norm_cast {r : Feed} (h : 0 < r.answer) :
    r.answer * 10 ^ (18 - (r.decimals.toNat : ℤ)).toNat = r.norm := by
  have hexp : (18 - (r.decimals.toNat : ℤ)).toNat = 18 - r.decimals.toNat := by omega
  have hans : r.answer = (r.answer.toNat : ℤ) := (Int.toNat_of_nonneg h.le).symm
  unfold Feed.norm
  rw [hexp, Nat.cast_mul, ← hans, Nat.cast_pow, Nat.cast_ofNat]

/-- The scaled answer as the backend computes it. -/
theorem Feed.wrapped_cast {r : Feed} (h : 0 < r.answer) :
    r.answer * Backend.scale r.decimals = r.wrapped := by
  have hans : r.answer = (r.answer.toNat : ℤ) := (Int.toNat_of_nonneg h.le).symm
  unfold Feed.wrapped Backend.scale
  rw [Nat.cast_mul, ← hans, Nat.cast_pow, Nat.cast_ofNat]

/-- Up to 18 decimals nothing wraps. -/
theorem Feed.wrapped_eq_norm {r : Feed} (h : r.decimals.toNat ≤ 18) :
    r.wrapped = r.norm := by
  have hsub : (18 - r.decimals).toNat = 18 - r.decimals.toNat :=
    UInt8.toNat_sub_of_le 18 r.decimals (UInt8.le_iff_toNat_le.2 h)
  unfold Feed.wrapped Feed.norm
  rw [hsub]

/-- Up to 18 decimals the formula is the natural division all three do. -/
theorem pairPrice_eq (hIn : 0 < rIn.answer) (hOut : 0 < rOut.answer)
    (dIn : rIn.decimals.toNat ≤ 18) (dOut : rOut.decimals.toNat ≤ 18) :
    pairPrice rIn rOut = (rIn.norm * 10 ^ rOut.decimals.toNat / rOut.norm : ℕ) := by
  have hcast : ∀ r : Feed, 0 < r.answer → r.decimals.toNat ≤ 18 →
      (r.answer : ℚ) * (10 : ℚ) ^ (18 - r.decimals.toNat : ℤ) = (r.norm : ℚ) := by
    intro r hr hd
    have hexp : (18 - r.decimals.toNat : ℤ) = ((18 - r.decimals.toNat : ℕ) : ℤ) := by omega
    have hans : (r.answer : ℚ) = (r.answer.toNat : ℚ) := by
      rw [← Int.cast_natCast, Int.toNat_of_nonneg hr.le]
    rw [hexp, zpow_natCast, hans]
    unfold Feed.norm
    push_cast
    rfl
  unfold pairPrice
  rw [hcast rIn hIn dIn, hcast rOut hOut dOut, ← Nat.cast_ofNat, ← Nat.cast_pow,
    ← Nat.cast_mul, Rat.floor_natCast_div_natCast, Int.natCast_ediv]

-- ========================================================== three derivations

/-- What the registry derives. -/
theorem registry_price (hin : Reads w tokenIn rIn) (hout : Reads w tokenOut rOut)
    {p : UInt64} :
    CommitmentRegistry.readOraclePrice w tokenIn tokenOut = .ok p
      ↔ (0 < rIn.answer ∧ 0 < rOut.answer ∧ rIn.decimals.toNat ≤ 18
          ∧ rOut.decimals.toNat ≤ 18)
        ∧ (rIn.norm < 2 ^ 256 ∧ rOut.norm < 2 ^ 256
          ∧ rIn.norm * 10 ^ rOut.decimals.toNat < 2 ^ 256)
        ∧ 0 < rIn.norm * 10 ^ rOut.decimals.toNat / rOut.norm
        ∧ rIn.norm * 10 ^ rOut.decimals.toNat / rOut.norm < 2 ^ 64
        ∧ p = UInt64.ofNat (rIn.norm * 10 ^ rOut.decimals.toNat / rOut.norm) := by
  have hpure : ∀ z, (pure z : Except String UInt64) = .ok p ↔ p = z := by
    intro z
    exact ⟨fun h => (Except.ok.inj h).symm, fun h => congrArg Except.ok h.symm⟩
  unfold CommitmentRegistry.readOraclePrice CommitmentRegistry.readFeed
  simp only [bind_eq_ok, expect_eq_ok, checkedSub_eq_ok, checkedMul_eq_ok, hin.reading,
    hout.reading, exists_const, Except.ok.injEq, exists_eq_left', and_assoc, exists_eq_left,
    hpure]
  simp only [← Feed.norm.eq_1]
  constructor
  · intro h
    obtain ⟨-, -, ha, hb, hd, hn, he, hm, hs, hpos, hlt, hp⟩ := h
    exact ⟨ha, hb, hd, he, hn, hm, hs, hpos, hlt, hp⟩
  · intro h
    obtain ⟨ha, hb, hd, he, hn, hm, hs, hpos, hlt, hp⟩ := h
    exact ⟨hin.configured, hout.configured, ha, hb, hd, hn, he, hm, hs, hpos, hlt, hp⟩

theorem fetchFeed_eq_ok {token : Address} {r : Feed} (h : Reads w token r)
    {d : Keeper.FeedData} :
    Keeper.fetchFeed shown w (w.registry.priceFeeds token) = .ok d
      ↔ 0 < r.answer ∧ d = ⟨r.answer, r.decimals.toNat⟩ := by
  unfold Keeper.fetchFeed
  rw [h.reading]
  simp only [expect_bind_eq_ok]
  exact and_congr_right fun _ =>
    ⟨fun e => (Except.ok.inj e).symm, fun e => congrArg Except.ok e.symm⟩

/-- What the keeper derives. -/
theorem keeper_price (hin : Reads w tokenIn rIn) (hout : Reads w tokenOut rOut) {p : ℤ} :
    Keeper.fetchPairPrice shown w tokenIn tokenOut = .ok p
      ↔ (0 < rIn.answer ∧ 0 < rOut.answer ∧ rIn.decimals.toNat ≤ 18
          ∧ rOut.decimals.toNat ≤ 18)
        ∧ 0 < rIn.norm * 10 ^ rOut.decimals.toNat / rOut.norm
        ∧ rIn.norm * 10 ^ rOut.decimals.toNat / rOut.norm < 2 ^ 64
        ∧ p = (rIn.norm * 10 ^ rOut.decimals.toNat / rOut.norm : ℕ) := by
  have hpure : ∀ z, (pure z : Except String ℤ) = .ok p ↔ p = z := by
    intro z
    exact ⟨fun h => (Except.ok.inj h).symm, fun h => congrArg Except.ok h.symm⟩
  unfold Keeper.fetchPairPrice
  simp only [bind_eq_ok, expect_eq_ok, Keeper.bigintPow_eq_ok, Keeper.bigintDiv_eq_ok,
    fetchFeed_eq_ok hin, fetchFeed_eq_ok hout, exists_const, and_assoc, exists_and_left,
    exists_eq_left, hpure]
  rw [and_iff_right hin.configured, and_iff_right hout.configured]
  refine and_congr_right fun ha => and_congr_right fun hb => ?_
  have hquot :
      (rIn.answer * 10 ^ (18 - (rIn.decimals.toNat : ℤ)).toNat
          * 10 ^ (rOut.decimals.toNat : ℤ).toNat).tdiv
        (rOut.answer * 10 ^ (18 - (rOut.decimals.toNat : ℤ)).toNat)
        = (rIn.norm * 10 ^ rOut.decimals.toNat / rOut.norm : ℕ) := by
    rw [Feed.norm_cast ha, Feed.norm_cast hb, Int.toNat_natCast, Int.natCast_ediv,
      Int.tdiv_eq_ediv_of_nonneg (by positivity)]
    push_cast
    rfl
  have hne : (rOut.norm : ℤ) ≠ 0 := by
    have hpos := Feed.norm_pos hb
    omega
  rw [hquot, Feed.norm_cast hb]
  generalize rIn.norm * 10 ^ rOut.decimals.toNat / rOut.norm = price
  constructor
  · intro h
    obtain ⟨hd, he, -, -, hpos, hle, hp⟩ := h
    exact ⟨by omega, by omega, by omega, by omega, hp⟩
  · intro h
    obtain ⟨hd, he, hpos, hlt, hp⟩ := h
    exact ⟨by omega, by omega, by omega, hne, by omega, by omega, hp⟩

theorem callChainlinkFeed_eq_ok {token : Address} {r : Feed} (h : Reads w token r)
    {d : ℤ × UInt8} :
    Backend.callChainlinkFeed shown w (w.registry.priceFeeds token) = .ok d
      ↔ 0 < r.answer ∧ d = (r.answer, r.decimals) := by
  unfold Backend.callChainlinkFeed
  rw [h.reading]
  simp only [expect_bind_eq_ok]
  exact and_congr_right fun _ =>
    ⟨fun e => (Except.ok.inj e).symm, fun e => congrArg Except.ok e.symm⟩

/-- What the backend derives. -/
theorem backend_price (hin : Reads w tokenIn rIn) (hout : Reads w tokenOut rOut) {p : ℤ} :
    Backend.fetchPairPrice shown w tokenIn tokenOut = .ok p
      ↔ (0 < rIn.answer ∧ 0 < rOut.answer)
        ∧ 0 < rIn.wrapped * 10 ^ rOut.decimals.toNat / rOut.wrapped
        ∧ p = (rIn.wrapped * 10 ^ rOut.decimals.toNat / rOut.wrapped : ℕ) := by
  have hpure : ∀ z, (pure z : Except String ℤ) = .ok p ↔ p = z := by
    intro z
    exact ⟨fun h => (Except.ok.inj h).symm, fun h => congrArg Except.ok h.symm⟩
  unfold Backend.fetchPairPrice Backend.callRegistryPriceFeed
  simp only [bind_eq_ok, expect_eq_ok, Backend.wrapError_eq_ok, callChainlinkFeed_eq_ok hin,
    callChainlinkFeed_eq_ok hout, exists_const, and_assoc, exists_and_left, exists_eq_left,
    hpure]
  rw [and_iff_right hin.configured, and_iff_right hout.configured]
  refine and_congr_right fun ha => and_congr_right fun hb => ?_
  have hquot :
      rIn.answer * Backend.scale rIn.decimals * 10 ^ rOut.decimals.toNat
          / (rOut.answer * Backend.scale rOut.decimals)
        = (rIn.wrapped * 10 ^ rOut.decimals.toNat / rOut.wrapped : ℕ) := by
    rw [Feed.wrapped_cast ha, Feed.wrapped_cast hb, Int.natCast_ediv]
    push_cast
    rfl
  rw [hquot, Int.natCast_pos]

-- ================================================================ agreement

/-- All three derive the price of the formula, or none derives one. -/
def PricesAgree (shown : Address → String) (w : World) (tokenIn tokenOut : Address)
    (rIn rOut : Feed) : Prop :=
  (∃ p : ℕ, (p : ℤ) = pairPrice rIn rOut ∧ 0 < p ∧ p < 2 ^ 64
      ∧ CommitmentRegistry.readOraclePrice w tokenIn tokenOut = .ok (UInt64.ofNat p)
      ∧ Keeper.fetchPairPrice shown w tokenIn tokenOut = .ok (p : ℤ)
      ∧ Backend.fetchPairPrice shown w tokenIn tokenOut = .ok (p : ℤ))
    ∨ ((∃ e, CommitmentRegistry.readOraclePrice w tokenIn tokenOut = .error e)
      ∧ (∃ e, Keeper.fetchPairPrice shown w tokenIn tokenOut = .error e)
      ∧ ∃ e, Backend.fetchPairPrice shown w tokenIn tokenOut = .error e)

/-- The readings on which the backend's two omissions do not show: no
64-bit ceiling up to 18 decimals, and wrapped exponents above. -/
def BackendFollows (rIn rOut : Feed) : Prop :=
  rIn.answer ≤ 0 ∨ rOut.answer ≤ 0
    ∨ (rIn.decimals.toNat ≤ 18 ∧ rOut.decimals.toNat ≤ 18
      ∧ rIn.norm * 10 ^ rOut.decimals.toNat < 2 ^ 64 * rOut.norm)
    ∨ ((18 < rIn.decimals.toNat ∨ 18 < rOut.decimals.toNat)
      ∧ rIn.wrapped * 10 ^ rOut.decimals.toNat < rOut.wrapped)

theorem exists_error {α : Type} {e : Except String α} :
    (∃ m, e = .error m) ↔ ∀ a, e ≠ .ok a := by
  cases e with
  | ok a => simp
  | error m => simp

/-- Up to 18 decimals only the ceiling can tell the backend apart. -/
theorem prices_agree_of_le (hin : Reads w tokenIn rIn) (hout : Reads w tokenOut rOut)
    (hfit : ProductsFit rIn rOut) (ha : 0 < rIn.answer) (hb : 0 < rOut.answer)
    (hd : rIn.decimals.toNat ≤ 18) (he : rOut.decimals.toNat ≤ 18) :
    PricesAgree shown w tokenIn tokenOut rIn rOut
      ↔ rIn.norm * 10 ^ rOut.decimals.toNat / rOut.norm < 2 ^ 64 := by
  have hformula := pairPrice_eq ha hb hd he
  have hwords := hfit hd he
  unfold PricesAgree
  simp only [exists_error, Ne, registry_price hin hout, keeper_price hin hout,
    backend_price hin hout, Feed.wrapped_eq_norm hd, Feed.wrapped_eq_norm he, hformula]
  generalize rIn.norm * 10 ^ rOut.decimals.toNat / rOut.norm = price at *
  constructor
  · intro h
    rcases h with ⟨p, hp, -, hlt, -⟩ | ⟨-, -, hback⟩
    · omega
    · by_contra hge
      exact hback price ⟨⟨ha, hb⟩, by omega, rfl⟩
  · intro hlt
    by_cases hzero : price = 0
    · right
      exact ⟨fun p h => by omega, fun p h => by omega, fun p h => by omega⟩
    · left
      have hpos : 0 < price := by omega
      exact ⟨price, rfl, hpos, hlt, ⟨⟨ha, hb, hd, he⟩, hwords, hpos, hlt, rfl⟩,
        ⟨⟨ha, hb, hd, he⟩, hpos, hlt, rfl⟩, ⟨ha, hb⟩, hpos, rfl⟩

/-- Above 18 decimals the registry and the keeper fail, so agreement is the
backend's failure. -/
theorem prices_agree_of_gt (hin : Reads w tokenIn rIn) (hout : Reads w tokenOut rOut)
    (ha : 0 < rIn.answer) (hb : 0 < rOut.answer)
    (hgt : 18 < rIn.decimals.toNat ∨ 18 < rOut.decimals.toNat) :
    PricesAgree shown w tokenIn tokenOut rIn rOut
      ↔ rIn.wrapped * 10 ^ rOut.decimals.toNat < rOut.wrapped := by
  have hlt : rIn.wrapped * 10 ^ rOut.decimals.toNat < rOut.wrapped
      ↔ rIn.wrapped * 10 ^ rOut.decimals.toNat / rOut.wrapped = 0 := by
    rw [Nat.div_eq_zero_iff]
    have hpos := Feed.wrapped_pos hb
    omega
  rw [hlt]
  unfold PricesAgree
  simp only [exists_error, Ne, registry_price hin hout, keeper_price hin hout,
    backend_price hin hout]
  generalize rIn.wrapped * 10 ^ rOut.decimals.toNat / rOut.wrapped = price
  constructor
  · intro h
    rcases h with ⟨p, -, -, -, hreg, -⟩ | ⟨-, -, hback⟩
    · omega
    · by_contra hne
      exact hback price ⟨⟨ha, hb⟩, by omega, rfl⟩
  · intro hzero
    right
    exact ⟨fun p h => by omega, fun p h => by omega, fun p h => by omega⟩

/-- The three derivations agree exactly where the backend follows. -/
theorem prices_agree_iff (shown : Address → String) (w : World)
    (tokenIn tokenOut : Address) (rIn rOut : Feed) (hin : Reads w tokenIn rIn)
    (hout : Reads w tokenOut rOut) (hfit : ProductsFit rIn rOut) :
    PricesAgree shown w tokenIn tokenOut rIn rOut ↔ BackendFollows rIn rOut := by
  unfold BackendFollows
  by_cases hpos : 0 < rIn.answer ∧ 0 < rOut.answer
  · obtain ⟨ha, hb⟩ := hpos
    by_cases hle : rIn.decimals.toNat ≤ 18 ∧ rOut.decimals.toNat ≤ 18
    · obtain ⟨hd, he⟩ := hle
      rw [prices_agree_of_le hin hout hfit ha hb hd he,
        Nat.div_lt_iff_lt_mul (Feed.norm_pos hb)]
      omega
    · rw [prices_agree_of_gt hin hout ha hb (by omega)]
      omega
  · have hfail : PricesAgree shown w tokenIn tokenOut rIn rOut := by
      right
      simp only [exists_error, Ne, registry_price hin hout, keeper_price hin hout,
        backend_price hin hout]
      exact ⟨fun p h => by omega, fun p h => by omega, fun p h => by omega⟩
    exact iff_of_true hfail (by omega)

-- ================================================================== readings

/-- `a` has a feed that reads `rIn`; `b`, if it is another token, one that
reads `rOut`; no other token has a feed. -/
def pairWorld (a b : Address) (rIn rOut : Feed) : World :=
  { sampleWorld with
    registry := { sampleWorld.registry with
      priceFeeds := fun token => if token = a then 20 else if token = b then 21 else 0 }
    ext := { sampleWorld.ext with
      feed := fun feed => if feed = 20 then some rIn else if feed = 21 then some rOut else none } }

theorem pairWorld_in (a b : Address) (rIn rOut : Feed) :
    Reads (pairWorld a b rIn rOut) a rIn where
  configured := by simp [pairWorld]
  reading := by simp [pairWorld]

theorem pairWorld_out {a b : Address} (h : b ≠ a) (rIn rOut : Feed) :
    Reads (pairWorld a b rIn rOut) b rOut where
  configured := by simp [pairWorld, h]
  reading := by simp [pairWorld, h]

theorem pairWorld_other {a b c : Address} (ha : c ≠ a) (hb : c ≠ b) (rIn rOut : Feed) :
    (pairWorld a b rIn rOut).registry.priceFeeds c = 0 := by
  simp [pairWorld, ha, hb]

/-- The sample pair, tokens 10 and 11. -/
def quotedWorld (rIn rOut : Feed) : World := pairWorld 10 11 rIn rOut

theorem quotedWorld_in (rIn rOut : Feed) : Reads (quotedWorld rIn rOut) 10 rIn :=
  pairWorld_in 10 11 rIn rOut

theorem quotedWorld_out (rIn rOut : Feed) : Reads (quotedWorld rIn rOut) 11 rOut :=
  pairWorld_out (by decide) rIn rOut

/-- A feed of 18 decimals over one of 8: the three agree on the price. -/
theorem prices_agree_iff_sample :
    PricesAgree (fun _ => "") (quotedWorld ⟨3000 * 10 ^ 18, 0, 18⟩ ⟨10 ^ 8, 0, 8⟩) 10 11
      ⟨3000 * 10 ^ 18, 0, 18⟩ ⟨10 ^ 8, 0, 8⟩ :=
  (prices_agree_iff _ _ 10 11 _ _ (quotedWorld_in _ _) (quotedWorld_out _ _)
    (fun _ _ => by decide)).2 (.inr (.inr (.inl (by decide))))

/-- A token at 100000 USD against one at 0.0000001 USD, 8 decimals each:
the registry and the keeper refuse a price of 10^20, the backend returns
it. -/
theorem backend_price_above_ceiling :
    ProductsFit ⟨10 ^ 13, 0, 8⟩ ⟨10, 0, 8⟩
      ∧ ¬ PricesAgree (fun _ => "") (quotedWorld ⟨10 ^ 13, 0, 8⟩ ⟨10, 0, 8⟩) 10 11
        ⟨10 ^ 13, 0, 8⟩ ⟨10, 0, 8⟩ := by
  have hfit : ProductsFit ⟨10 ^ 13, 0, 8⟩ ⟨10, 0, 8⟩ := fun _ _ => by decide
  refine ⟨hfit, ?_⟩
  rw [prices_agree_of_le (quotedWorld_in _ _) (quotedWorld_out _ _) hfit (by decide)
    (by decide) (by decide) (by decide)]
  decide

end Zstrategy.Contracts
