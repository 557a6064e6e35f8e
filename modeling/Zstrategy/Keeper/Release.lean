/-
When `POST /api/execute` lets the secret of a commitment be reconstructed,
against the order the commitment hides. The re-verification tests the
request's own parameters; the order is in the preimage, which the keeper
does not see. So the check protects an order exactly as far as the request
repeats it.

# The theorem

The environment of a request is everything but the request: the node, its
feeds, the clock. So the check is worth as much as the worst environment
lets through. In one direction (`genuineOnly_of_covers`) the request's own
test is as strong as the order's, and nothing has to be known of the
environment. In the other (`covers_of_genuineOnly`) a request that asks for
more is met in a moment made for it: `exists_quoting` quotes any price a
pair can have while no other pair has one, and `exists_not_fillsDuring`
waits until a window is over.
-/
import Zstrategy.Execution.Authorisation
import Zstrategy.Execution.PairPrice
import Zstrategy.Keeper.Server

namespace Zstrategy.Keeper

open Lib Contracts

variable {shown : Address → String} {lib : Ethers} {w : World} {now : ℕ}
  {body : ExecuteBody} {h : Bytes32} {a b : Address} {ts : Option ℕ}

-- ============================================================ the commitment

/-- The private half of a commitment. -/
inductive Order where
  | orderFill (p : Circuits.OrderFill.Private)
  | dca (p : Circuits.Dca.Private)

/-- What `compute_commitment` of the order's circuit returns. -/
def Order.computeCommitment (keccak256 : Circuits.Hash) (t : Circuits.Terms) :
    Order → Circuits.Field
  | .orderFill p => Circuits.OrderFill.computeCommitment keccak256 t p
  | .dca p => Circuits.Dca.computeCommitment keccak256 t p

/-- The order committed under `h`. The registry registers no commitment of
a token against itself. -/
structure Committed (keccak256 : Circuits.Hash) (h : Bytes32) where
  tokenIn : Address
  tokenOut : Address
  size : Circuits.Field
  minOut : Circuits.Field
  expiry : UInt64
  order : Order
  distinct : tokenIn ≠ tokenOut
  opens : (order.computeCommitment keccak256
    ⟨.of tokenIn.val, .of tokenOut.val, size, minOut, expiry⟩).val = h.val

/-- The fill condition of an order at a pair price. -/
def Order.FillsAt (price : ℤ) : Order → Prop
  | .orderFill p => conditionMet p.direction price p.price.toNat = true
  | .dca _ => False

/-- The fill condition of an order at a time. -/
def Order.FillsDuring (now : ℕ) : Order → Prop
  | .orderFill _ => False
  | .dca p => p.scheduledLo.toNat ≤ now ∧ now ≤ p.scheduledHi.toNat

variable {keccak256 : Circuits.Hash} {o : Committed keccak256 h}

/-- The fill condition of the committed order holds now: its pair has a
price that fills it, or the time lies in its window. -/
def Committed.FillHolds (o : Committed keccak256 h) (shown : Address → String) (w : World)
    (now : ℕ) : Prop :=
  (∃ price, fetchPairPrice shown w o.tokenIn o.tokenOut = .ok price ∧ o.order.FillsAt price)
    ∨ o.order.FillsDuring now

/-- A request releases the secret of `h` only when the order fills. -/
def Committed.GenuineOnly (o : Committed keccak256 h) (lib : Ethers) (body : ExecuteBody) :
    Prop :=
  ∀ w now ts, execute lib w now body = .reconstruct h ts → o.FillHolds lib.shown w now

-- =============================================================== the request

/-- The time is in the window the request names. -/
def ExecuteBody.AdmitsTime (body : ExecuteBody) (now : ℕ) : Prop :=
  ∃ lo hi, body.scheduledLo.asNumber = some lo ∧ body.scheduledHi.asNumber = some hi
    ∧ lo.leInt now ∧ hi.geInt now

/-- The price meets the limit the request names. -/
def ExecuteBody.AdmitsPrice (body : ExecuteBody) (price : ℤ) : Prop :=
  ∃ lp, body.limitPrice.toBigIntOrZero = some lp
    ∧ conditionMet body.sells price lp = true

/-- The prices a pair of tokens can have: of a token against itself only
the scale of its feed. -/
def Quotable (a b : Address) (price : ℤ) : Prop :=
  0 < price ∧ price < 2 ^ 64 ∧ (a = b → ∃ d : ℕ, d ≤ 18 ∧ price = 10 ^ d)

/-- The request asks for no more than the order allows. A DCA request: every
time in its window is in the window of the order, which is a DCA order. Any
other: the order is on the same pair, and every price of the pair that meets
the limit of the request fills it. -/
def Committed.Covers (o : Committed keccak256 h) (lib : Ethers) (body : ExecuteBody) : Prop :=
  ∀ a b, body.validate lib = .ok (h, a, b) →
    if body.kind = .string "DCA" then
      ∀ now, body.AdmitsTime now → o.order.FillsDuring now
    else
      ∀ price, Quotable a b price → body.AdmitsPrice price →
        (a = o.tokenIn ∧ b = o.tokenOut) ∧ o.order.FillsAt price

theorem reverifyWindow_eq_reconstruct {h' : Bytes32} :
    reverifyWindow now body h' = .reconstruct h ts
      ↔ h' = h ∧ body.AdmitsTime now ∧ ts = some now := by
  unfold reverifyWindow ExecuteBody.AdmitsTime
  cases hlo : body.scheduledLo.asNumber with
  | none => simp
  | some lo =>
      cases hhi : body.scheduledHi.asNumber with
      | none => simp
      | some hi =>
          simp only [Option.some.injEq, exists_and_left, exists_eq_left']
          by_cases hin : lo.leInt now ∧ hi.geInt now
          · rw [if_pos hin, Reverified.reconstruct.injEq, and_iff_right hin, eq_comm (a := ts)]
          · rw [if_neg hin]
            exact iff_of_false (fun hbad => nomatch hbad) (fun hbad => hin hbad.2.1)

theorem reverifyPrice_eq_reconstruct {h' : Bytes32} :
    reverifyPrice lib w body h' a b = .reconstruct h ts
      ↔ h' = h ∧ (∃ price, fetchPairPrice lib.shown w a b = .ok price
        ∧ body.AdmitsPrice price) ∧ ts = none := by
  unfold reverifyPrice ExecuteBody.AdmitsPrice
  cases hprice : fetchPairPrice lib.shown w a b with
  | error e => simp
  | ok price =>
      cases hlp : body.limitPrice.toBigIntOrZero with
      | none => simp
      | some lp =>
          simp only [Except.ok.injEq, Option.some.injEq, exists_eq_left']
          by_cases hmet : conditionMet body.sells price lp = true
          · rw [if_pos hmet, Reverified.reconstruct.injEq, and_iff_right hmet,
              eq_comm (a := ts)]
          · rw [if_neg hmet]
            exact iff_of_false (fun hbad => nomatch hbad) (fun hbad => hmet hbad.2.1)

/-- When a request reaches the reconstruction of `h`. -/
theorem execute_eq_reconstruct :
    execute lib w now body = .reconstruct h ts
      ↔ ∃ a b, body.validate lib = .ok (h, a, b)
        ∧ if body.kind = .string "DCA" then body.AdmitsTime now ∧ ts = some now
          else (∃ price, fetchPairPrice lib.shown w a b = .ok price ∧ body.AdmitsPrice price)
            ∧ ts = none := by
  unfold execute
  cases hv : body.validate lib with
  | error e => simp
  | ok v =>
      obtain ⟨h', a, b⟩ := v
      by_cases hk : body.kind = .string "DCA"
      · simp only [if_pos hk, reverifyWindow_eq_reconstruct, Except.ok.injEq, Prod.mk.injEq]
        constructor
        · intro hreq
          obtain ⟨rfl, hin⟩ := hreq
          exact ⟨a, b, ⟨rfl, rfl, rfl⟩, hin⟩
        · intro hreq
          obtain ⟨_, _, ⟨rfl, _, _⟩, hin⟩ := hreq
          exact ⟨rfl, hin⟩
      · simp only [if_neg hk, reverifyPrice_eq_reconstruct, Except.ok.injEq, Prod.mk.injEq]
        constructor
        · intro hreq
          obtain ⟨rfl, hmet⟩ := hreq
          exact ⟨a, b, ⟨rfl, rfl, rfl⟩, hmet⟩
        · intro hreq
          obtain ⟨_, _, ⟨rfl, rfl, rfl⟩, hmet⟩ := hreq
          exact ⟨rfl, hmet⟩

-- ========================================================== possible prices

theorem fetchFeed_ok {feed : Address} {d : FeedData}
    (h : fetchFeed shown w feed = .ok d) : ∃ r, w.ext.feed feed = some r := by
  unfold fetchFeed at h
  cases hr : w.ext.feed feed with
  | none => rw [hr] at h; cases h
  | some r => exact ⟨r, rfl⟩

/-- A pair with a price has two feeds that answer. -/
theorem fetchPairPrice_reads {price : ℤ} (h : fetchPairPrice shown w a b = .ok price) :
    ∃ rIn rOut, Reads w a rIn ∧ Reads w b rOut := by
  unfold fetchPairPrice at h
  simp only [bind_eq_ok, expect_eq_ok] at h
  obtain ⟨-, hin, -, hout, d, hd, e, he, -⟩ := h
  obtain ⟨rIn, hrIn⟩ := fetchFeed_ok hd
  obtain ⟨rOut, hrOut⟩ := fetchFeed_ok he
  exact ⟨rIn, rOut, ⟨hin, hrIn⟩, ⟨hout, hrOut⟩⟩

/-- A price the keeper derives is a price the pair can have. -/
theorem quotable_of_fetch {price : ℤ} (h : fetchPairPrice shown w a b = .ok price) :
    Quotable a b price := by
  obtain ⟨rIn, rOut, hin, hout⟩ := fetchPairPrice_reads h
  obtain ⟨⟨hpos, -, hd, -⟩, hlo, hhi, rfl⟩ := (keeper_price hin hout).1 h
  refine ⟨by omega, by omega, ?_⟩
  intro hab
  subst hab
  have hsame : rIn = rOut := Option.some.inj (hin.reading.symm.trans hout.reading)
  subst hsame
  refine ⟨rIn.decimals.toNat, hd, ?_⟩
  rw [Nat.mul_div_cancel_left _ (Feed.norm_pos hpos)]
  push_cast
  rfl

/-- In the world made for a pair no other token has a feed. -/
theorem pairWorld_reads {rIn rOut r : Feed} {c : Address}
    (h : Reads (pairWorld a b rIn rOut) c r) : c = a ∨ c = b := by
  by_contra hother
  rw [not_or] at hother
  exact h.configured (pairWorld_other hother.1 hother.2 rIn rOut)

/-- Twice `price + 1/2`. Over 2 it rounds down to `price`; 2 over it rounds
down to nothing. -/
def halfAbove (price : ℤ) : Feed := ⟨2 * price + 1, 0, 0⟩

def two : Feed := ⟨2, 0, 0⟩

theorem two_norm : two.norm = 2 * 10 ^ 18 := rfl

theorem halfAbove_norm (price : ℤ) :
    (halfAbove price).norm = (2 * price + 1).toNat * 10 ^ 18 := rfl

theorem quoting_distinct {price : ℤ} (hab : a ≠ b) (hlo : 0 < price) (hhi : price < 2 ^ 64) :
    fetchPairPrice shown (pairWorld a b (halfAbove price) two) a b = .ok price := by
  have hin := pairWorld_in a b (halfAbove price) two
  have hout := pairWorld_out hab.symm (halfAbove price) two
  have hquot : (halfAbove price).norm * 10 ^ two.decimals.toNat / two.norm
      = price.toNat := by
    rw [halfAbove_norm, two_norm, show two.decimals.toNat = 0 from rfl]
    omega
  have hdec : (halfAbove price).decimals.toNat ≤ 18 := Nat.zero_le 18
  have hpos : 0 < (halfAbove price).answer := by
    show 0 < 2 * price + 1
    omega
  rw [keeper_price hin hout, hquot]
  exact ⟨⟨hpos, by decide, hdec, by decide⟩, by omega, by omega, by omega⟩

theorem quoting_inverse {price q : ℤ} (hab : a ≠ b) (hlo : 0 < price) :
    fetchPairPrice shown (pairWorld a b (halfAbove price) two) b a ≠ .ok q := by
  have hin := pairWorld_in a b (halfAbove price) two
  have hout := pairWorld_out hab.symm (halfAbove price) two
  have hquot : two.norm * 10 ^ (halfAbove price).decimals.toNat / (halfAbove price).norm
      = 0 := by
    rw [halfAbove_norm, two_norm, show (halfAbove price).decimals.toNat = 0 from rfl]
    exact Nat.div_eq_of_lt (by omega)
  rw [Ne, keeper_price hout hin, hquot]
  omega

/-- A token against itself has the scale of its feed as its price. -/
theorem quoting_same {d : ℕ} (hd : d ≤ 18) :
    fetchPairPrice shown (pairWorld a a ⟨1, 0, .ofNat d⟩ two) a a = .ok (10 ^ d) := by
  have hin := pairWorld_in a a ⟨1, 0, .ofNat d⟩ two
  have hdec : (⟨1, 0, .ofNat d⟩ : Feed).decimals.toNat = d :=
    Nat.mod_eq_of_lt (Nat.lt_of_le_of_lt hd (by decide))
  have hpos : 0 < (⟨1, 0, .ofNat d⟩ : Feed).answer := Int.one_pos
  have hlt : 10 ^ d < 2 ^ 64 :=
    Nat.lt_of_le_of_lt (Nat.pow_le_pow_right (by decide) hd) (by decide)
  rw [keeper_price hin hin, Nat.mul_div_cancel_left _ (Feed.norm_pos hpos), hdec]
  exact ⟨⟨hpos, hpos, hd, hd⟩, Nat.pow_pos (by decide), hlt, by push_cast; rfl⟩

/-- Every price a pair can have, it has in a world where no other pair of
two tokens has one. -/
theorem exists_quoting {price : ℤ} (h : Quotable a b price) (shown : Address → String) :
    ∃ w, fetchPairPrice shown w a b = .ok price
      ∧ ∀ c d q, c ≠ d → fetchPairPrice shown w c d = .ok q → a = c ∧ b = d := by
  obtain ⟨hlo, hhi, hscale⟩ := h
  by_cases hab : a = b
  · obtain ⟨d, hd, rfl⟩ := hscale hab
    subst hab
    refine ⟨_, quoting_same hd, ?_⟩
    intro c e q hne hq
    obtain ⟨rIn, rOut, hin, hout⟩ := fetchPairPrice_reads hq
    have hc := pairWorld_reads hin
    have he := pairWorld_reads hout
    rw [or_self] at hc he
    exact absurd (hc.trans he.symm) hne
  · refine ⟨_, quoting_distinct hab hlo hhi, ?_⟩
    intro c d q hne hq
    obtain ⟨rIn, rOut, hin, hout⟩ := fetchPairPrice_reads hq
    rcases pairWorld_reads hin with rfl | rfl <;> rcases pairWorld_reads hout with rfl | rfl
    · exact absurd rfl hne
    · exact ⟨rfl, rfl⟩
    · exact absurd hq (quoting_inverse hab hlo)
    · exact absurd rfl hne

-- =============================================================== the release

/-- No feed is configured. -/
def unquotedWorld : World :=
  { sampleWorld with registry := { sampleWorld.registry with priceFeeds := fun _ => 0 } }

theorem unquoted_price {price : ℤ} : fetchPairPrice shown unquotedWorld a b ≠ .ok price := by
  intro h
  obtain ⟨rIn, rOut, hin, -⟩ := fetchPairPrice_reads h
  exact hin.configured rfl

/-- After its window an order does not fill at any time. -/
theorem exists_not_fillsDuring (x : Order) : ∃ now, ¬ x.FillsDuring now := by
  cases x with
  | orderFill p => exact ⟨0, id⟩
  | dca p =>
      refine ⟨p.scheduledHi.toNat + 1, ?_⟩
      intro h
      have hlate := h.2
      omega

/-- A request that covers the order is released only when the order fills. -/
theorem genuineOnly_of_covers (hcov : o.Covers lib body) : o.GenuineOnly lib body := by
  intro w now ts hexec
  obtain ⟨a, b, hvalid, hcond⟩ := execute_eq_reconstruct.1 hexec
  have hreq := hcov a b hvalid
  by_cases hk : body.kind = .string "DCA"
  · rw [if_pos hk] at hcond hreq
    exact .inr (hreq now hcond.1)
  · rw [if_neg hk] at hcond hreq
    obtain ⟨⟨price, hprice, hadmits⟩, -⟩ := hcond
    obtain ⟨⟨rfl, rfl⟩, hfills⟩ := hreq price (quotable_of_fetch hprice) hadmits
    exact .inl ⟨price, hprice, hfills⟩

/-- A request that does not cover the order is released at some moment when
the order does not fill. -/
theorem covers_of_genuineOnly (hgen : o.GenuineOnly lib body) : o.Covers lib body := by
  intro a b hvalid
  by_cases hk : body.kind = .string "DCA"
  · rw [if_pos hk]
    intro now hadmits
    have hexec : execute lib unquotedWorld now body = .reconstruct h (some now) :=
      execute_eq_reconstruct.2 ⟨a, b, hvalid, by rw [if_pos hk]; exact ⟨hadmits, rfl⟩⟩
    rcases hgen _ _ _ hexec with ⟨price, hprice, -⟩ | hfills
    · exact absurd hprice unquoted_price
    · exact hfills
  · rw [if_neg hk]
    intro price hquot hadmits
    obtain ⟨w, hprice, honly⟩ := exists_quoting hquot lib.shown
    obtain ⟨now, hlate⟩ := exists_not_fillsDuring o.order
    have hexec : execute lib w now body = .reconstruct h none :=
      execute_eq_reconstruct.2
        ⟨a, b, hvalid, by rw [if_neg hk]; exact ⟨⟨price, hprice, hadmits⟩, rfl⟩⟩
    rcases hgen _ _ _ hexec with ⟨q, hq, hfills⟩ | hfills
    · obtain ⟨rfl, rfl⟩ := honly _ _ q o.distinct hq
      cases hprice.symm.trans hq
      exact ⟨⟨rfl, rfl⟩, hfills⟩
    · exact absurd hfills hlate

/-- The check protects the order exactly against the requests that ask for
no more than it allows. -/
theorem released_only_on_fill_iff (keccak256 : Circuits.Hash) (h : Bytes32)
    (o : Committed keccak256 h) (lib : Ethers) (body : ExecuteBody) :
    o.GenuineOnly lib body ↔ o.Covers lib body :=
  ⟨covers_of_genuineOnly, genuineOnly_of_covers⟩

-- ================================================================== a sample

/-- The BUY at 1.0 of token 10 for token 11. -/
def sampleCommitted : Committed Circuits.sampleKeccak sampleOrderHash where
  tokenIn := 10
  tokenOut := 11
  size := 60
  minOut := 5
  expiry := 2000
  order := .orderFill Circuits.samplePrice
  distinct := by decide
  opens := congrArg Fin.val Circuits.samplePriceHash_derived

/-- The library on the texts of the request below. -/
def sampleEthers : Ethers where
  bytes32 x :=
    if x = .string "0x074bb091258ce5b7426b146177ca7eae730d4fff03fd6e2b4c5c7f10694c7688" then
      some sampleOrderHash
    else none
  address x :=
    if x = .string "0x000000000000000000000000000000000000000a" then some 10
    else if x = .string "0x000000000000000000000000000000000000000b" then some 11
    else none
  shown _ := ""

/-- The BUY at 1.0, sent as a DCA round that is always due. -/
def relabelledBody : ExecuteBody where
  commitmentHash := .string "0x074bb091258ce5b7426b146177ca7eae730d4fff03fd6e2b4c5c7f10694c7688"
  kind := .string "DCA"
  tokenIn := .string "0x000000000000000000000000000000000000000a"
  tokenOut := .string "0x000000000000000000000000000000000000000b"
  size := .string "60"
  minOut := .string "5"
  expiry := .number (.finite 2000)
  limitPrice := .string "100000000"
  direction := .number (.finite 0)
  nonce := .string "6"
  nullifier := .string "0x1c891e9a55078adb140d41ab2fb122de9372f8c022be857956baabfa15e4f00d"
  scheduledLo := .number (.finite 0)
  scheduledHi := .number (.finite 4000000000)

/-- The pair stands at 2.0; the secret of the BUY at 1.0 is reconstructed. -/
theorem relabelled_order_released :
    execute sampleEthers (quotedWorld ⟨2 * 10 ^ 8, 0, 8⟩ ⟨10 ^ 8, 0, 8⟩) 1000 relabelledBody
        = .reconstruct sampleOrderHash (some 1000)
      ∧ fetchPairPrice sampleEthers.shown
          (quotedWorld ⟨2 * 10 ^ 8, 0, 8⟩ ⟨10 ^ 8, 0, 8⟩) 10 11 = .ok (2 * 10 ^ 8)
      ∧ ¬ sampleCommitted.GenuineOnly sampleEthers relabelledBody := by
  have hexec : execute sampleEthers (quotedWorld ⟨2 * 10 ^ 8, 0, 8⟩ ⟨10 ^ 8, 0, 8⟩) 1000
      relabelledBody = .reconstruct sampleOrderHash (some 1000) := by
    refine execute_eq_reconstruct.2 ⟨10, 11, by rfl, ?_⟩
    rw [if_pos (show relabelledBody.kind = .string "DCA" from rfl)]
    exact ⟨⟨.finite 0, .finite 4000000000, rfl, rfl, by decide, by decide⟩, rfl⟩
  have hprice : fetchPairPrice sampleEthers.shown
      (quotedWorld ⟨2 * 10 ^ 8, 0, 8⟩ ⟨10 ^ 8, 0, 8⟩) 10 11 = .ok (2 * 10 ^ 8) :=
    (keeper_price (quotedWorld_in _ _) (quotedWorld_out _ _)).2 (by decide)
  refine ⟨hexec, hprice, ?_⟩
  intro hgen
  rcases hgen _ _ _ hexec with ⟨price, hfetch, hfills⟩ | hfills
  · cases hfetch.symm.trans hprice
    have hbuy : conditionMet false (2 * 10 ^ 8) 100000000 = false := by decide
    exact Bool.false_ne_true (hbuy.symm.trans hfills)
  · exact hfills

end Zstrategy.Keeper
