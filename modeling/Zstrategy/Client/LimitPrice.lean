/-
When a limit order fills only at the user's price. The page hands the
registry the tokens in the order they are spent, so for a SELL the
derived price is quote per base, as the target is, and for a BUY it is
base per quote, while the target still is quote per base.

For a BUY the test the circuit makes is `1 / m <= target` for a market price
`m`, where the user asked for `m <= target`. The two disagree only where the
market is above both the target and its reciprocal; `Inverted` is that
region, in the integers that the code computes with, and `inverted_iff`
brings it there without fractions.
-/
import Mathlib.Algebra.Order.Field.Basic
import Mathlib.Data.Rat.Cast.Order
import Mathlib.Tactic.FieldSimp
import Mathlib.Tactic.Linarith
import Zstrategy.Client.Orders
import Zstrategy.Contracts.Chain

namespace Zstrategy.Client

open Lib Contracts

variable {w : World} {f : Form} {base quote : ℕ}

/-- The feed of `token` reads `answer`, with 8 decimals. -/
structure Quoted (w : World) (token : Address) (answer : ℕ) : Prop where
  configured : w.registry.priceFeeds token ≠ 0
  reading : ∃ updatedAt,
    w.ext.feed (w.registry.priceFeeds token) = some ⟨answer, updatedAt, 8⟩
  positive : 0 < answer

/-- What the registry derives from two 8-decimal readings. -/
theorem readOraclePrice_eq_ok {tIn tOut : Address} {x y : ℕ} (hx : Quoted w tIn x)
    (hy : Quoted w tOut y) {p : UInt64} :
    CommitmentRegistry.readOraclePrice w tIn tOut = .ok p
      ↔ x * 10 ^ 18 < 2 ^ 256 ∧ y * 10 ^ 10 < 2 ^ 256 ∧ y ≤ x * 10 ^ 8
        ∧ x * 10 ^ 8 / y < 2 ^ 64 ∧ p.toNat = x * 10 ^ 8 / y := by
  obtain ⟨tx, hfx⟩ := hx.reading
  obtain ⟨ty, hfy⟩ := hy.reading
  have hdiv : x * 10 ^ 10 * 10 ^ 8 / (y * 10 ^ 10) = x * 10 ^ 8 / y := by
    rw [Nat.mul_right_comm, Nat.mul_div_mul_right _ _ (by norm_num)]
  have hscale : x * 10 ^ 10 * 10 ^ 8 = x * 10 ^ 18 := by rw [Nat.mul_assoc, ← pow_add]
  have hnorm : x * 10 ^ 10 ≤ x * 10 ^ 18 :=
    Nat.mul_le_mul_left x (Nat.pow_le_pow_right (by decide) (by decide))
  have hword : ∀ z < 2 ^ 64,
      (pure (UInt64.ofNat z) : Except String UInt64) = .ok p ↔ p.toNat = z := by
    intro z hz
    have hof : (UInt64.ofNat z).toNat = z := UInt64.toNat_ofNat_of_lt' hz
    constructor
    · rintro ⟨⟩
      exact hof
    · rintro rfl
      rw [UInt64.ofNat_toNat]
      rfl
  have hpos : 0 < x * 10 ^ 8 / y ↔ y ≤ x * 10 ^ 8 :=
    Nat.div_pos_iff.trans (and_iff_right hy.positive)
  unfold CommitmentRegistry.readOraclePrice CommitmentRegistry.readFeed
  simp only [bind_eq_ok, expect_eq_ok, checkedSub_eq_ok, checkedMul_eq_ok, hfx, hfy,
    exists_const, Except.ok.injEq, exists_eq_left', and_assoc, exists_eq_left,
    Int.toNat_natCast, show (8 : UInt8).toNat = 8 from rfl, Nat.reduceSub, hdiv, hpos]
  constructor
  · rintro ⟨-, -, -, -, -, -, -, hout, hin, hle, hlt, hp⟩
    exact ⟨hscale.symm.trans_lt hin, hout, hle, hlt, (hword _ hlt).1 hp⟩
  · rintro ⟨hin, hout, hle, hlt, hp⟩
    have hx' : (0 : ℤ) < x := Int.natCast_pos.2 hx.positive
    have hy' : (0 : ℤ) < y := Int.natCast_pos.2 hy.positive
    exact ⟨hx.configured, hy.configured, hx', hy', by decide, hnorm.trans_lt hin, by decide,
      hout, hscale.trans_lt hin, hle, hlt, (hword _ hlt).2 hp⟩

-- ================================================================ the fill test

/-- The fill test that authorises an execution: the circuit's comparison
of the committed price with the price the registry derives. -/
def FillTest (w : World) (f : Form) : Prop :=
  ∃ (p : UInt64) (o : Circuits.OrderFill.Private),
    CommitmentRegistry.readOraclePrice w f.tokenIn f.tokenOut = .ok p
      ∧ o.price.toNat = f.priceBig ∧ (o.direction = true ↔ f.direction = .SELL)
      ∧ o.Fills p

/-- The target price, in quote per base. -/
def Form.target (f : Form) : ℚ := f.targetPrice / 10 ^ 8

/-- An order that passes the fill test passes at the user's price, up to
one unit of the fixed point. -/
def PriceRespected (w : World) (f : Form) (base quote : ℕ) : Prop :=
  FillTest w f →
    match f.side with
    | .BUY => (base / quote : ℚ) ≤ f.target + 1 / 10 ^ 8
    | .SELL => f.target - 1 / 10 ^ 8 ≤ (base / quote : ℚ)

/-- A committed price that fits the circuit's `u64`, and how it compares. -/
theorem fillTest_iff :
    FillTest w f ↔ f.priceBig < 2 ^ 64
      ∧ ∃ p, CommitmentRegistry.readOraclePrice w f.tokenIn f.tokenOut = .ok p
        ∧ if f.side = .SELL then f.priceBig ≤ p.toNat else p.toNat ≤ f.priceBig := by
  have hdir : f.direction = .SELL ↔ f.side = .SELL := by
    unfold Form.direction
    split <;> simp_all
  constructor
  · rintro ⟨p, o, hp, hprice, hd, hfills⟩
    refine ⟨hprice ▸ o.price.toNat_lt, p, hp, ?_⟩
    rw [hdir] at hd
    unfold Circuits.OrderFill.Private.Fills at hfills
    split
    case isTrue hs =>
      rw [if_pos (hd.2 hs)] at hfills
      rw [← hprice]
      exact UInt64.le_iff_toNat_le.1 hfills
    case isFalse hs =>
      rw [if_neg fun ho => hs (hd.1 ho)] at hfills
      rw [← hprice]
      exact UInt64.le_iff_toNat_le.1 hfills
  · rintro ⟨hlt, p, hp, hcmp⟩
    have hof : (UInt64.ofNat f.priceBig).toNat = f.priceBig := UInt64.toNat_ofNat_of_lt' hlt
    refine ⟨p, ⟨.ofNat f.priceBig, f.side = .SELL, 0, 0⟩, hp, hof, by simp [hdir], ?_⟩
    unfold Circuits.OrderFill.Private.Fills
    by_cases hs : f.side = .SELL
    · rw [if_pos hs] at hcmp
      rw [if_pos (by simpa using hs)]
      exact UInt64.le_iff_toNat_le.2 (by rw [hof]; exact hcmp)
    · rw [if_neg hs] at hcmp
      rw [if_neg (by simpa using hs)]
      exact UInt64.le_iff_toNat_le.2 (by rw [hof]; exact hcmp)

-- ================================================================ the condition

/-- The inverted test passes although the market is above the target: the
market price `m` is above the target and above the target's inverse (by
more than a unit of the fixed point), and within what the registry's
arithmetic and the circuit's `u64` represent. -/
structure Inverted (base quote target : ℕ) : Prop where
  above : ((target + 1 : ℕ) : ℚ) / 10 ^ 8 < base / quote
  inverse : 10 ^ 8 / ((target + 1 : ℕ) : ℚ) < base / quote
  derived : (base / quote : ℚ) ≤ 10 ^ 8
  encoded : target < 2 ^ 64
  scaled : quote * 10 ^ 18 < 2 ^ 256
  normalised : base * 10 ^ 10 < 2 ^ 256

/-- The comparisons of `Inverted`, without fractions. -/
theorem inverted_iff {target : ℕ} (hb : 0 < base) (hq : 0 < quote) :
    Inverted base quote target ↔ (target + 1) * quote < base * 10 ^ 8
      ∧ quote * 10 ^ 8 / base ≤ target ∧ base ≤ quote * 10 ^ 8
      ∧ target < 2 ^ 64 ∧ quote * 10 ^ 18 < 2 ^ 256 ∧ base * 10 ^ 10 < 2 ^ 256 := by
  have hq' : (0 : ℚ) < quote := by exact_mod_cast hq
  have ht' : (0 : ℚ) < ((target + 1 : ℕ) : ℚ) := by positivity
  have habove : ((target + 1 : ℕ) : ℚ) / 10 ^ 8 < base / quote
      ↔ (target + 1) * quote < base * 10 ^ 8 := by
    rw [div_lt_div_iff₀ (by positivity) hq']
    exact_mod_cast Iff.rfl
  have hinverse : 10 ^ 8 / ((target + 1 : ℕ) : ℚ) < base / quote
      ↔ quote * 10 ^ 8 / base ≤ target := by
    rw [div_lt_div_iff₀ ht' hq', ← Nat.lt_succ_iff, Nat.div_lt_iff_lt_mul hb, mul_comm quote,
      mul_comm (target.succ)]
    exact_mod_cast Iff.rfl
  have hderived : (base / quote : ℚ) ≤ 10 ^ 8 ↔ base ≤ quote * 10 ^ 8 := by
    rw [div_le_iff₀ hq', mul_comm]
    exact_mod_cast Iff.rfl
  constructor
  · rintro ⟨h₁, h₂, h₃, h₄, h₅, h₆⟩
    exact ⟨habove.1 h₁, hinverse.1 h₂, hderived.1 h₃, h₄, h₅, h₆⟩
  · rintro ⟨h₁, h₂, h₃, h₄, h₅, h₆⟩
    exact ⟨habove.2 h₁, hinverse.2 h₂, hderived.2 h₃, h₄, h₅, h₆⟩

/-- A limit order fills only at the user's price exactly when it is a SELL
or the inverted comparison does not happen to pass. -/
theorem limit_price_iff (hb : Quoted w f.pair.baseToken base)
    (hq : Quoted w f.pair.quoteToken quote) (hl : f.kind = .LIMIT) :
    PriceRespected w f base quote
      ↔ f.side = .SELL ∨ ¬Inverted base quote f.targetPrice := by
  have hbig : f.priceBig = f.targetPrice := by rw [Form.priceBig, hl]
  have hq' : (0 : ℚ) < quote := by exact_mod_cast hq.positive
  cases hs : f.side with
  | SELL =>
      have htIn : f.tokenIn = f.pair.baseToken := if_pos hs
      have htOut : f.tokenOut = f.pair.quoteToken := if_pos hs
      refine iff_of_true (fun hfill => ?_) (.inl rfl)
      obtain ⟨-, p, hp, hcmp⟩ := fillTest_iff.1 hfill
      rw [htIn, htOut, readOraclePrice_eq_ok hb hq] at hp
      rw [if_pos hs, hbig, hp.2.2.2.2, Nat.le_div_iff_mul_le hq.positive] at hcmp
      have hcmp' : (f.targetPrice * quote : ℚ) ≤ base * 10 ^ 8 := by exact_mod_cast hcmp
      have hle : f.target ≤ base / quote := by
        rw [Form.target, div_le_div_iff₀ (by positivity) hq']
        exact hcmp'
      rw [hs]
      show f.target - 1 / 10 ^ 8 ≤ _
      linarith
  | BUY =>
      have hne : f.side ≠ .SELL := by rw [hs]; decide
      have htIn : f.tokenIn = f.pair.quoteToken := if_neg hne
      have htOut : f.tokenOut = f.pair.baseToken := if_neg hne
      have hunit : f.target + 1 / 10 ^ 8 = ((f.targetPrice + 1 : ℕ) : ℚ) / 10 ^ 8 := by
        rw [Form.target]
        push_cast
        ring
      have hfill : FillTest w f ↔ f.targetPrice < 2 ^ 64
          ∧ (quote * 10 ^ 18 < 2 ^ 256 ∧ base * 10 ^ 10 < 2 ^ 256 ∧ base ≤ quote * 10 ^ 8)
          ∧ quote * 10 ^ 8 / base ≤ f.targetPrice := by
        rw [fillTest_iff, htIn, htOut, hbig]
        simp only [readOraclePrice_eq_ok hq hb, if_neg hne]
        constructor
        · rintro ⟨hlt, p, ⟨hin, hout, hle, -, hp⟩, hcmp⟩
          exact ⟨hlt, ⟨hin, hout, hle⟩, hp ▸ hcmp⟩
        · rintro ⟨hlt, ⟨hin, hout, hle⟩, hcmp⟩
          have hp64 : quote * 10 ^ 8 / base < 2 ^ 64 := by omega
          refine ⟨hlt, .ofNat (quote * 10 ^ 8 / base), ⟨hin, hout, hle, hp64, ?_⟩, ?_⟩
          · exact UInt64.toNat_ofNat_of_lt' hp64
          · rw [UInt64.toNat_ofNat_of_lt' hp64]
            exact hcmp
      have hmarket : (base / quote : ℚ) ≤ f.target + 1 / 10 ^ 8
          ↔ ¬(f.targetPrice + 1) * quote < base * 10 ^ 8 := by
        rw [hunit, div_le_div_iff₀ hq' (by positivity), not_lt]
        exact_mod_cast Iff.rfl
      have hgoal : PriceRespected w f base quote
          ↔ (FillTest w f → ¬(f.targetPrice + 1) * quote < base * 10 ^ 8) := by
        unfold PriceRespected
        rw [hs]
        exact imp_congr_right fun _ => hmarket
      rw [hgoal, hfill, inverted_iff hb.positive hq.positive]
      constructor
      · rintro h
        refine .inr fun ⟨h₁, h₂, h₃, h₄, h₅, h₆⟩ => ?_
        exact h ⟨h₄, ⟨h₅, h₆, h₃⟩, h₂⟩ h₁
      · rintro (h | h) ⟨h₄, ⟨h₅, h₆, h₃⟩, h₂⟩ h₁
        · cases h
        · exact h ⟨h₁, h₂, h₃, h₄, h₅, h₆⟩

-- ================================================================== a sample

/-- Token 10 at 3000 USD against token 11 at 1 USD. -/
def sampleMarket : World :=
  { sampleWorld with
    registry := { sampleWorld.registry with priceFeeds := fun t => if t = 10 then 30 else 31 }
    ext := { sampleWorld.ext with
      feed := fun a => if a = 30 then some ⟨300000000000, 1000, 8⟩
        else some ⟨100000000, 1000, 8⟩ } }

/-- A limit order on the pair, at a target price. -/
def sampleForm (side : Side) (targetPrice : ℕ) : Form :=
  ⟨⟨10, 11⟩, .LIMIT, side, targetPrice, 60, 5, 2000⟩

theorem sampleMarket_base : Quoted sampleMarket 10 300000000000 :=
  ⟨by decide, ⟨1000, rfl⟩, by decide⟩

theorem sampleMarket_quote : Quoted sampleMarket 11 100000000 :=
  ⟨by decide, ⟨1000, rfl⟩, by decide⟩

/-- A BUY at 2000 passes the fill test while the market is at 3000. -/
theorem buy_fills_above_target :
    ∃ (w : World) (f : Form) (base quote : ℕ), Quoted w f.pair.baseToken base
      ∧ Quoted w f.pair.quoteToken quote ∧ f.kind = .LIMIT ∧ 0 < f.targetPrice
      ∧ ¬PriceRespected w f base quote := by
  refine ⟨sampleMarket, sampleForm .BUY 200000000000, _, _, sampleMarket_base,
    sampleMarket_quote, rfl, by decide, fun hresp => ?_⟩
  have hfill : FillTest sampleMarket (sampleForm .BUY 200000000000) :=
    fillTest_iff.2 ⟨by decide, 33333, rfl, by decide⟩
  have hle : ((300000000000 : ℕ) / (100000000 : ℕ) : ℚ)
      ≤ ((200000000000 : ℕ) : ℚ) / 10 ^ 8 + 1 / 10 ^ 8 := hresp hfill
  norm_num at hle

theorem limit_price_iff_sample :
    PriceRespected sampleMarket (sampleForm .SELL 200000000000) 300000000000 100000000
      ∧ PriceRespected sampleMarket (sampleForm .BUY 400000000000) 300000000000
        100000000 := by
  have hiff := fun side target => limit_price_iff (f := sampleForm side target)
    sampleMarket_base sampleMarket_quote rfl
  refine ⟨(hiff .SELL _).2 (.inl rfl), (hiff .BUY _).2 (.inr fun hinv => ?_)⟩
  have habove := hinv.above
  norm_num [sampleForm] at habove

end Zstrategy.Client
