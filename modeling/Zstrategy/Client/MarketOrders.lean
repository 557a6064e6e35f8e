/-
`frontend/src/app/(dashboard)/orders/page.tsx`, from the mounting of the
page to a click on its submit button: the clock that the first animation
frame sets and nothing sets again, the condition that enables the button,
and `handleSubmit` up to the registration it asks for.

The button looks at the price of a LIMIT order only, `handleSubmit` at any
price, and the price a MARKET SELL commits to is zero. The expiry of a
MARKET order is ten minutes after the clock of the page, however long the
page has been there.

The text fields are read as in `Zstrategy.Client.Orders`, and a minimum
output always fits its type: from 10^21 on, `toFixed` gives a text that
`parseUnits` refuses. The server that lists the keepers, the wallet, the
encryption and IndexedDB are parameters.
-/
import Zstrategy.Client.Agreement
import Zstrategy.Client.Orders
import Zstrategy.Keeper.Shares
import Zstrategy.Lib.Machine

namespace Zstrategy.Client

open Lib Contracts Keeper

-- ==================================================================== the page

/-- What `Date.now()` returns, in milliseconds; a date goes no further. -/
abbrev Millis := Fin 8640000000000001

inductive TimeInForce where
  | H1 | H24 | D7 | GTC
  deriving DecidableEq

/-- `TIME_IN_FORCE`. -/
def TimeInForce.seconds : TimeInForce → ℕ
  | .H1 => 3600
  | .H24 => 86400
  | .D7 => 604800
  | .GTC => 30 * 86400

def MARKET_EXPIRY_SECONDS : ℕ := 10 * 60

def PER_EXECUTION_ETH_ESTIMATE : ℕ := 6000000 * 1000000000 * 12000 / 10000

/-- `useAccount`: a wallet that is connected has an address. -/
structure Account where
  address : Option Address
  isConnected : Bool
  known : isConnected = true → address.isSome

/-- What a rendering of the page has besides its clock. -/
structure OrderInputs where
  account : Account
  pair : TradingPair
  kind : StrategyKind
  side : Side
  tif : TimeInForce
  /-- The target price times `10 ^ ORACLE_DECIMALS`. -/
  targetPrice : ℕ
  amountBig : ℕ
  minOutBig : U256
  gasBalance : Option ℕ
  marketOraclePrice : Option ℕ
  busy : Bool
  /-- What `getDraftNonce` returns. -/
  nonce : Bytes32

/-- The page, its state `now`, and the time it is. -/
structure OrdersPage where
  inputs : OrderInputs
  now : Option ℕ
  time : Millis

namespace OrdersPage

variable (p : OrdersPage)

/-- The order as the form describes it. -/
def form (size : U256) (expiry : UInt64) : Form where
  pair := p.inputs.pair
  kind := p.inputs.kind
  side := p.inputs.side
  targetPrice := p.inputs.targetPrice
  amountBig := size
  minOutBig := p.inputs.minOutBig
  expiry := expiry

/-- No amount and no expiry enters it. -/
def priceBig : ℕ := (p.form 0 0).priceBig

def gasShortfall : Bool :=
  match p.inputs.gasBalance with
  | none => true
  | some gasBalance => gasBalance < PER_EXECUTION_ETH_ESTIMATE

/-- A clock of zero is as good as none. -/
def expiry : Option ℕ :=
  match p.now with
  | none => none
  | some now =>
      if now = 0 then none
      else if p.inputs.kind = .MARKET then some (now + MARKET_EXPIRY_SECONDS)
      else some (now + p.inputs.tif.seconds)

/-- The submit button. -/
def enabled : Bool :=
  !(!p.inputs.account.isConnected
    || p.inputs.busy
    || p.inputs.amountBig = 0
    || p.gasShortfall
    || p.inputs.kind = .LIMIT && p.priceBig = 0
    || p.inputs.kind = .MARKET && p.inputs.marketOraclePrice = none)

end OrdersPage

-- ==================================================================== its life

inductive RenderEvent where
  /-- Time passes. -/
  | pass (time : Millis)
  /-- The animation frame that was asked for on mounting. -/
  | frame
  /-- The form, the wallet, a balance or the oracle price changes. -/
  | render (inputs : OrderInputs)

def OrdersPage.mount (inputs : OrderInputs) (time : Millis) : OrdersPage := ⟨inputs, none, time⟩

/-- The page between two submissions. -/
def ordersPage : Machine OrdersPage RenderEvent where
  step
    | .pass time, p => if p.time ≤ time then some { p with time := time } else none
    | .frame, p =>
        match p.now with
        | none => some { p with now := some (p.time.val / 1000) }
        | some _ => none
    | .render inputs, p => some { p with inputs := inputs }

-- =============================================================== the submission

structure KeeperPubkey where
  id : String
  pubkey : String
  deriving DecidableEq

/-- What `handleSubmit` waits for. -/
structure SubmitEnv where
  listKeepers : Except String (List KeeperPubkey)
  signMessage : String → Except String (List UInt8)
  splitAndEncryptSecret : Bytes32 → List KeeperPubkey → Except String (List EncryptedShare)
  saveStrategy : Bytes32 → PreimageFields → Except String Unit

/-- The keepers are listed, and shares can be made for them; the wallet
signs; the order is saved. -/
structure SubmitEnv.Succeeds (env : SubmitEnv) : Prop where
  keepers : ∃ keepers, env.listKeepers = .ok keepers
    ∧ ∀ userSecret, ∃ shares, env.splitAndEncryptSecret userSecret keepers = .ok shares
  signs : ∀ message, ∃ signature, env.signMessage message = .ok signature
  saves : ∀ hash order, env.saveStrategy hash order = .ok ()

/-- The call of `register`, with the order it commits to and the shares of
its secret. The tokens, the amounts and the expiry of the call are those
of the order. -/
structure RegisterCall where
  commitmentHash : Bytes32
  order : PreimageFields
  kind : ℕ
  encryptedShares : List EncryptedShare

inductive Submission where
  /-- `handleSubmit` returns before it does anything. -/
  | ignored
  | failed (submitError : String)
  | registered (call : RegisterCall)

namespace OrdersPage

variable (viem : Viem) (env : SubmitEnv) (p : OrdersPage)

/-- The fields of the commitment. -/
def order (expiry : ℕ) (userSecret : Bytes32) : PreimageFields :=
  let form := p.form (.ofNat _ p.inputs.amountBig) (.ofNat expiry)
  { tokenIn := form.tokenIn
    tokenOut := form.tokenOut
    size := form.amountBig
    minOut := form.minOutBig
    expiry := form.expiry
    price := .ofNat p.priceBig
    direction := form.direction
    nonce := p.inputs.nonce
    userSecret }

/-- `encodePacked` throws on a number that its type does not hold. -/
def encode (expiry : ℕ) (userSecret : Bytes32) : Except String PreimageFields := do
  expect (p.inputs.amountBig < 2 ^ 256) (integerOutOfRange 256 p.inputs.amountBig)
  expect (expiry < 2 ^ 64) (integerOutOfRange 64 expiry)
  expect (p.priceBig < 2 ^ 64) (integerOutOfRange 64 p.priceBig)
  return p.order expiry userSecret

/-- The `try` block. -/
def submit (address : Address) (expiry : ℕ) : Except String RegisterCall := do
  let strategyId := deriveStrategyId viem address p.inputs.nonce
  let keepers ← env.listKeepers
  let signature ← env.signMessage (strategyIdSigningMessage strategyId)
  let userSecret := deriveUserSecret viem signature
  let order ← p.encode expiry userSecret
  let encryptedShares ← env.splitAndEncryptSecret userSecret keepers
  env.saveStrategy (Client.commitmentHash viem order) order
  return ⟨Client.commitmentHash viem order, order, 0, encryptedShares⟩

def handleSubmit : Submission :=
  match p.inputs.account.address, p.expiry with
  | some address, some expiry =>
      if p.inputs.account.isConnected = false ∨ p.inputs.amountBig = 0 ∨ p.priceBig = 0 then
        .ignored
      else
        match p.submit viem env address expiry with
        | .ok call => .registered call
        | .error message => .failed message
  | _, _ => .ignored

end OrdersPage

-- ============================================================ clocks and prices

section Reading

variable {viem : Viem} {env : SubmitEnv} {p p' : OrdersPage}

/-- The clock is that of a moment since the page was mounted. -/
def SinceMount (start : Millis) (p : OrdersPage) : Prop :=
  start ≤ p.time ∧ ∀ now, p.now = some now →
    ∃ frame : Millis, start ≤ frame ∧ frame ≤ p.time ∧ now = frame.val / 1000

theorem SinceMount.step {start : Millis} {e : RenderEvent} (hp : SinceMount start p)
    (h : ordersPage.step e p = some p') : SinceMount start p' := by
  obtain ⟨hle, hclock⟩ := hp
  cases e with
  | pass time =>
      simp only [ordersPage] at h
      split at h
      · rename_i hlater
        cases h
        refine ⟨le_trans hle hlater, ?_⟩
        intro now hnow
        obtain ⟨frame, hfirst, hlast, heq⟩ := hclock now hnow
        exact ⟨frame, hfirst, le_trans hlast hlater, heq⟩
      · cases h
  | frame =>
      simp only [ordersPage] at h
      split at h
      · cases h
        refine ⟨hle, ?_⟩
        intro now hnow
        cases hnow
        exact ⟨p.time, hle, le_refl _, rfl⟩
      · cases h
  | render inputs =>
      cases h
      exact ⟨hle, hclock⟩

theorem sinceMount_of_run {inputs : OrderInputs} {start : Millis}
    (hrun : ordersPage.Run Machine.anyStep (.mount inputs start) p) : SinceMount start p := by
  refine hrun.inv (I := SinceMount start) (fun p e p' hp _ hstep => hp.step hstep) ?_
  refine ⟨le_refl _, ?_⟩
  intro now hnow
  cases hnow

/-- The sentinel of a MARKET order. -/
theorem priceBig_market (hmarket : p.inputs.kind = .MARKET) :
    p.priceBig = if p.inputs.side = .SELL then 0 else 2 ^ 64 - 1 := by
  unfold OrdersPage.priceBig Form.priceBig OrdersPage.form Form.direction
  rw [hmarket]
  cases p.inputs.side with
  | BUY => rfl
  | SELL => rfl

theorem expiry_market (hmarket : p.inputs.kind = .MARKET) {expiry : ℕ} :
    p.expiry = some expiry
      ↔ ∃ now, p.now = some now ∧ now ≠ 0 ∧ expiry = now + MARKET_EXPIRY_SECONDS := by
  unfold OrdersPage.expiry
  cases p.now with
  | none => simp
  | some now =>
      by_cases hzero : now = 0
      · simp [hzero]
      · simp [hzero, hmarket, eq_comm]

theorem encode_eq_ok {expiry : ℕ} {userSecret : Bytes32} {order : PreimageFields} :
    p.encode expiry userSecret = .ok order
      ↔ p.inputs.amountBig < 2 ^ 256 ∧ expiry < 2 ^ 64 ∧ p.priceBig < 2 ^ 64
        ∧ p.order expiry userSecret = order := by
  unfold OrdersPage.encode
  simp only [bind_eq_ok, expect_eq_ok, exists_const]
  exact and_congr_right fun _ => and_congr_right fun _ => and_congr_right fun _ =>
    ⟨Except.ok.inj, congrArg _⟩

/-- With the rest going well, a submission comes as far as its encoding. -/
theorem submit_eq_ok (henv : env.Succeeds) {address : Address} {expiry : ℕ} :
    (∃ call, p.submit viem env address expiry = .ok call)
      ↔ p.inputs.amountBig < 2 ^ 256 ∧ expiry < 2 ^ 64 ∧ p.priceBig < 2 ^ 64 := by
  obtain ⟨keepers, hkeepers, hsplit⟩ := henv.keepers
  refine ⟨?_, ?_⟩
  · intro hcall
    obtain ⟨call, hcall⟩ := hcall
    unfold OrdersPage.submit at hcall
    obtain ⟨_, -, hcall⟩ := bind_eq_ok.1 hcall
    obtain ⟨_, -, hcall⟩ := bind_eq_ok.1 hcall
    obtain ⟨order, horder, -⟩ := bind_eq_ok.1 hcall
    obtain ⟨hamount, hexpiry, hprice, -⟩ := encode_eq_ok.1 horder
    exact ⟨hamount, hexpiry, hprice⟩
  · intro hfits
    obtain ⟨hamount, hexpiry, hprice⟩ := hfits
    obtain ⟨signature, hsignature⟩ := henv.signs
      (strategyIdSigningMessage (deriveStrategyId viem address p.inputs.nonce))
    obtain ⟨shares, hshares⟩ := hsplit (deriveUserSecret viem signature)
    obtain ⟨order, horder⟩ : ∃ order, p.order expiry (deriveUserSecret viem signature) = order :=
      ⟨_, rfl⟩
    have hencode := encode_eq_ok.2 ⟨hamount, hexpiry, hprice, horder⟩
    refine ⟨⟨commitmentHash viem order, order, 0, shares⟩, ?_⟩
    unfold OrdersPage.submit
    refine bind_eq_ok.2 ⟨keepers, hkeepers, bind_eq_ok.2 ⟨signature, hsignature, ?_⟩⟩
    refine bind_eq_ok.2 ⟨_, hencode, bind_eq_ok.2 ⟨shares, hshares, ?_⟩⟩
    exact bind_eq_ok.2 ⟨(), henv.saves _ _, rfl⟩

/-- The order of a submission is that of the page. -/
theorem order_of_submit {address : Address} {expiry : ℕ} {call : RegisterCall}
    (h : p.submit viem env address expiry = .ok call) :
    ∃ userSecret, call.order = p.order expiry userSecret := by
  unfold OrdersPage.submit at h
  obtain ⟨_, -, h⟩ := bind_eq_ok.1 h
  obtain ⟨signature, -, h⟩ := bind_eq_ok.1 h
  obtain ⟨order, horder, h⟩ := bind_eq_ok.1 h
  obtain ⟨_, -, h⟩ := bind_eq_ok.1 h
  obtain ⟨_, -, h⟩ := bind_eq_ok.1 h
  obtain ⟨-, -, -, heq⟩ := encode_eq_ok.1 horder
  cases h
  exact ⟨_, heq.symm⟩

theorem handleSubmit_eq_registered {call : RegisterCall} :
    p.handleSubmit viem env = .registered call
      ↔ ∃ address expiry, p.inputs.account.address = some address ∧ p.expiry = some expiry
        ∧ p.inputs.account.isConnected = true ∧ p.inputs.amountBig ≠ 0 ∧ p.priceBig ≠ 0
        ∧ p.submit viem env address expiry = .ok call := by
  unfold OrdersPage.handleSubmit
  refine ⟨?_, ?_⟩
  · intro h
    split at h
    · rename_i address expiry haddress hexpiry
      split at h
      · cases h
      · rename_i hguard
        obtain ⟨hconnected, hrest⟩ := not_or.1 hguard
        obtain ⟨hamount, hprice⟩ := not_or.1 hrest
        split at h
        · rename_i hsubmit
          cases h
          exact ⟨address, expiry, haddress, hexpiry, eq_true_of_ne_false hconnected, hamount,
            hprice, hsubmit⟩
        · cases h
    · cases h
  · intro h
    obtain ⟨address, expiry, haddress, hexpiry, hconnected, hamount, hprice, hsubmit⟩ := h
    rw [haddress, hexpiry]
    dsimp only
    rw [if_neg, hsubmit]
    rintro (hno | hno | hno)
    · rw [hconnected] at hno
      cases hno
    · exact hamount hno
    · exact hprice hno

theorem connected_of_enabled (h : p.enabled = true) :
    p.inputs.account.isConnected = true ∧ p.inputs.amountBig ≠ 0 := by
  unfold OrdersPage.enabled at h
  simp only [Bool.not_eq_true', Bool.or_eq_false_iff, decide_eq_false_iff_not] at h
  obtain ⟨⟨⟨⟨⟨hconnected, -⟩, hamount⟩, -⟩, -⟩, -⟩ := h
  exact ⟨by simpa using hconnected, hamount⟩

/-- A date is far below what the encoding of an expiry holds. -/
theorem expiry_fits (frame : Millis) : frame.val / 1000 + MARKET_EXPIRY_SECONDS < 2 ^ 64 := by
  have hlt := frame.isLt
  unfold MARKET_EXPIRY_SECONDS
  omega

/-- An order at `u64.max` is bought at any price. -/
theorem fills_any {expiry : ℕ} {userSecret : Bytes32} (hmarket : p.inputs.kind = .MARKET)
    (hbuy : p.inputs.side = .BUY) (oraclePrice : UInt64) :
    (p.order expiry userSecret).witness.Fills oraclePrice := by
  have hdirection : (p.order expiry userSecret).direction = .BUY := by
    unfold OrdersPage.order OrdersPage.form Form.direction
    simp [hbuy]
  have hprice : (p.order expiry userSecret).price = .ofNat (2 ^ 64 - 1) := by
    show UInt64.ofNat p.priceBig = _
    rw [priceBig_market hmarket, hbuy]
    rfl
  have hnot : (p.order expiry userSecret).witness.direction = false := by
    show decide (_ = _) = false
    rw [hdirection]
    rfl
  unfold Circuits.OrderFill.Private.Fills
  rw [hnot, if_neg (by decide)]
  show oraclePrice ≤ (p.order expiry userSecret).price
  rw [hprice, UInt64.le_iff_toNat_le]
  exact Nat.le_of_lt_succ oraclePrice.toNat_lt

end Reading

-- ============================================================= what is fillable

/-- The click registers an order that has not expired, and any oracle price
passes the comparison of the circuit. -/
def OrdersPage.Fillable (viem : Viem) (env : SubmitEnv) (p : OrdersPage) : Prop :=
  ∃ call, p.handleSubmit viem env = .registered call
    ∧ p.time.val < 1000 * call.order.expiry.toNat
    ∧ ∀ oraclePrice, call.order.witness.Fills oraclePrice

/-- An enabled MARKET order is a BUY, of an amount that its type holds, on a
page whose clock was set less than ten minutes ago, or it is lost. -/
theorem market_order_fillable_iff {viem : Viem} {env : SubmitEnv} {inputs : OrderInputs}
    {start : Millis} {p : OrdersPage} (henv : env.Succeeds)
    (hrun : ordersPage.Run Machine.anyStep (.mount inputs start) p)
    (hmarket : p.inputs.kind = .MARKET) (henabled : p.enabled = true) :
    p.Fillable viem env
      ↔ p.inputs.side = .BUY ∧ p.inputs.amountBig < 2 ^ 256
        ∧ ∃ frame : Millis, start ≤ frame ∧ frame ≤ p.time ∧ 1000 ≤ frame.val
          ∧ p.now = some (frame.val / 1000)
          ∧ p.time.val < 1000 * (frame.val / 1000 + MARKET_EXPIRY_SECONDS) := by
  obtain ⟨hconnected, hamount⟩ := connected_of_enabled henabled
  obtain ⟨-, hclock⟩ := sinceMount_of_run hrun
  refine ⟨?_, ?_⟩
  · intro hfillable
    obtain ⟨call, hcall, hlive, -⟩ := hfillable
    obtain ⟨address, expiry, -, hexpiry, -, -, hprice, hsubmit⟩ :=
      handleSubmit_eq_registered.1 hcall
    obtain ⟨hfits, -, -⟩ := (submit_eq_ok henv).1 ⟨call, hsubmit⟩
    obtain ⟨now, hnow, hzero, heq⟩ := (expiry_market hmarket).1 hexpiry
    obtain ⟨frame, hfirst, hlast, hframe⟩ := hclock now hnow
    obtain ⟨userSecret, horder⟩ := order_of_submit hsubmit
    have hregistered : call.order.expiry.toNat = expiry := by
      rw [horder]
      show (UInt64.ofNat expiry).toNat = expiry
      rw [heq, hframe]
      exact UInt64.toNat_ofNat_of_lt' (expiry_fits frame)
    refine ⟨?_, hfits, frame, hfirst, hlast, ?_, ?_, ?_⟩
    · -- the sentinel of a SELL does not pass the guard
      rw [priceBig_market hmarket] at hprice
      cases hside : p.inputs.side with
      | BUY => rfl
      | SELL => exact absurd (if_pos hside) hprice
    · by_contra hearly
      exact hzero (by omega)
    · rw [hnow, hframe]
    · rw [hregistered, heq, hframe] at hlive
      exact hlive
  · intro hcond
    obtain ⟨hbuy, hfits, frame, hfirst, hlast, hlate, hnow, hfresh⟩ := hcond
    obtain ⟨address, haddress⟩ := Option.isSome_iff_exists.1 (p.inputs.account.known hconnected)
    have hexpiry := (expiry_market hmarket).2 ⟨frame.val / 1000, hnow, by omega, rfl⟩
    have hprice : p.priceBig = 2 ^ 64 - 1 := by
      rw [priceBig_market hmarket, hbuy]
      rfl
    have hsubmitted : ∃ call, p.submit viem env address
        (frame.val / 1000 + MARKET_EXPIRY_SECONDS) = .ok call :=
      (submit_eq_ok henv).2 ⟨hfits, expiry_fits frame, by rw [hprice]; decide⟩
    obtain ⟨call, hsubmit⟩ := hsubmitted
    obtain ⟨userSecret, horder⟩ := order_of_submit hsubmit
    have hcall : p.handleSubmit viem env = .registered call :=
      handleSubmit_eq_registered.2 ⟨address, _, haddress, hexpiry, hconnected, hamount,
        by rw [hprice]; decide, hsubmit⟩
    refine ⟨call, hcall, ?_, ?_⟩
    · rw [horder]
      show p.time.val < 1000 * (UInt64.ofNat _).toNat
      rw [UInt64.toNat_ofNat_of_lt' (expiry_fits frame)]
      exact hfresh
    · rw [horder]
      exact fills_any hmarket hbuy

-- ===================================================================== samples

/-- A wallet with gas, and a MARKET order of one ether's worth. -/
def marketInputs (side : Side) : OrderInputs where
  account := ⟨some 0xf1, true, fun _ => rfl⟩
  pair := ⟨0x0a, 0x0b⟩
  kind := .MARKET
  side := side
  tif := .D7
  targetPrice := 0
  amountBig := 1000000000000000000
  minOutBig := 1980000000
  gasBalance := some 10000000000000000
  marketOraclePrice := some 200000000000
  busy := false
  nonce := 7

/-- Everything answers. -/
def calmEnv : SubmitEnv where
  listKeepers := .ok [⟨"keeper-1", "0x04"⟩]
  signMessage _ := .ok [1]
  splitAndEncryptSecret _ keepers := .ok (keepers.map fun keeper => ⟨keeper.id, "0xaa"⟩)
  saveStrategy _ _ := .ok ()

theorem calmEnv_succeeds : calmEnv.Succeeds :=
  ⟨⟨_, rfl, fun _ => ⟨_, rfl⟩⟩, fun _ => ⟨_, rfl⟩, fun _ _ => rfl⟩

/-- A page that was mounted `age` milliseconds ago and drew its first frame
at once. -/
def agedPage (side : Side) (age : Millis) : OrdersPage :=
  ordersPage.endOf (fun _ _ => true) [.frame, .pass (1700000000000 + age)]
    (.mount (marketInputs side) 1700000000000)

theorem run_agedPage {side : Side} {age : Millis}
    (h : (ordersPage.playIf (fun _ _ => true) [.frame, .pass (1700000000000 + age)]
      (.mount (marketInputs side) 1700000000000)).isSome) :
    ordersPage.Run Machine.anyStep (.mount (marketInputs side) 1700000000000)
      (agedPage side age) :=
  .endOf (fun _ _ _ => trivial) h

theorem market_order_fillable_sample :
    (agedPage .BUY 5000).Fillable sampleViem calmEnv
      ∧ ¬(agedPage .BUY 600000).Fillable sampleViem calmEnv := by
  have hyoung : (agedPage .BUY 5000).Fillable sampleViem calmEnv ↔ _ :=
    market_order_fillable_iff calmEnv_succeeds (run_agedPage (by decide)) (by decide) (by decide)
  have hold : (agedPage .BUY 600000).Fillable sampleViem calmEnv ↔ _ :=
    market_order_fillable_iff calmEnv_succeeds (run_agedPage (by decide)) (by decide) (by decide)
  refine ⟨?_, ?_⟩
  · exact hyoung.2 ⟨by decide, by decide, 1700000000000, by decide, by decide, by decide,
      by decide, by decide⟩
  · intro hfillable
    obtain ⟨-, -, frame, -, -, -, hnow, hfresh⟩ := hold.1 hfillable
    have hclock : (agedPage .BUY 600000).now = some 1700000000 := by decide
    have htime : (agedPage .BUY 600000).time.val = 1700000600000 := by decide
    rw [hclock, Option.some.injEq] at hnow
    rw [htime, ← hnow] at hfresh
    exact absurd hfresh (by decide)

/-- A MARKET SELL is enabled, and the click does nothing. -/
theorem market_sell_ignored :
    ordersPage.Run Machine.anyStep (.mount (marketInputs .SELL) 1700000000000)
        (agedPage .SELL 5000)
      ∧ (agedPage .SELL 5000).inputs.kind = .MARKET ∧ (agedPage .SELL 5000).enabled = true
      ∧ (agedPage .SELL 5000).handleSubmit sampleViem calmEnv = .ignored :=
  ⟨run_agedPage (by decide), by decide, by decide, rfl⟩

end Zstrategy.Client
