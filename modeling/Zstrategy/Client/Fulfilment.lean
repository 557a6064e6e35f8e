/-
A strategy on its way from the page that makes it to the transaction that
executes it. The page prints its fields, the backend keeps the strings and
sends them on, the keeper reads them, decides, and hands them to the
prover; at each stage the strings stand for the fields of one `Strategy`.
So what the backend and the keeper check is the condition the circuit
checks, and what the registry checks follows.

The results are about either kind of strategy first, and then about what
each of the two pages posts.

Each section is one stage, and its results say of the strings that come in
that they stand for the strategy, and of those that go out that they still
do. Where a stage compares numbers that it has read from its strings, the
comparison is that of the fields.
-/
import Zstrategy.Client.MarketOrders
import Zstrategy.Client.Rounds
import Zstrategy.Client.Wire
import Zstrategy.Backend.Registration
import Zstrategy.Keeper.Reconstruct
import Zstrategy.Keeper.Release

namespace Zstrategy

open Lib Contracts Keeper

open Circuits (P)

-- ================================================================== the request

/-- The JSON body of a trigger, as the keeper parses it. -/
def Backend.ExecuteRequest.body (r : Backend.ExecuteRequest) (js : Js) : ExecuteBody where
  commitmentHash := .string r.commitmentHash
  kind := .string r.kind
  tokenIn := .string r.tokenIn
  tokenOut := .string r.tokenOut
  size := .string r.size
  minOut := .string r.minOut
  expiry := .number (js.parse r.expiry)
  limitPrice := .string r.limitPrice
  direction := .number (js.parse r.direction)
  nonce := .string r.nonce
  nullifier := .string r.nullifier
  scheduledLo := (r.scheduledLo.map fun x => Json.number (js.parse x)).getD .null
  scheduledHi := (r.scheduledHi.map fun x => Json.number (js.parse x)).getD .null

namespace Client

variable {viem : Viem} {lib : Ethers} {abi : Abi} {js : Js} {prover : Prover}
  {text : Address → String}

/-- What ethers makes of the texts the pages print. -/
structure Readable (lib : Ethers) (text : Address → String) : Prop where
  bytes32 : ∀ x, lib.bytes32 (.string (hex x)) = some x
  address : ∀ a, lib.address (.string (text a)) = some a
  nonempty : ∀ a, text a ≠ ""

namespace Strategy

/-- The times, which JSON carries as numbers. -/
def TimesFit : Strategy → Prop
  | .orderFill p => p.expiry.toNat ≤ 2 ^ 53
  | .dca p => p.scheduledLo.toNat ≤ 2 ^ 53 ∧ p.scheduledHi.toNat ≤ 2 ^ 53
      ∧ p.expiry.toNat ≤ 2 ^ 53

/-- The trigger that spells a strategy. -/
def executeRequest (viem : Viem) (text : Address → String) (s : Strategy) :
    Backend.ExecuteRequest :=
  match s with
  | .orderFill p =>
      { commitmentHash := hex (commitmentHash viem p)
        kind := "ORDER_FILL"
        tokenIn := text p.tokenIn
        tokenOut := text p.tokenOut
        size := toString p.size.val
        minOut := toString p.minOut.val
        expiry := p.expiry.toNat
        limitPrice := toString p.price.toNat
        direction := if p.direction = .SELL then 1 else 0
        nonce := hex p.nonce
        nullifier := hex (nullifierHash viem p.userSecret p.nonce)
        scheduledLo := none
        scheduledHi := none }
  | .dca p =>
      { commitmentHash := hex (dcaCommitmentHash viem p)
        kind := "DCA"
        tokenIn := text p.tokenIn
        tokenOut := text p.tokenOut
        size := toString p.size.val
        minOut := toString p.minOut.val
        expiry := p.expiry.toNat
        limitPrice := "0"
        direction := 0
        nonce := hex p.nonce
        nullifier := hex (dcaNullifierHash viem p.userSecret p.nonce)
        scheduledLo := some p.scheduledLo.toNat
        scheduledHi := some p.scheduledHi.toNat }

/-- What `submitExecution` is called with for a strategy. -/
def submitRequest (viem : Viem) (s : Strategy) (executionTimestamp : Option ℕ) : SubmitRequest :=
  match s with
  | .orderFill p =>
      { commitmentHash := hex (commitmentHash viem p)
        kind := .ORDER_FILL
        tokenIn := p.tokenIn
        tokenOut := p.tokenOut
        size := p.size.val
        minOut := p.minOut.val
        expiry := some (.finite p.expiry.toNat)
        limitPrice := p.price.toNat
        direction := p.direction.keeper
        nonce := .string (hex p.nonce)
        nullifier := .string (hex (nullifierHash viem p.userSecret p.nonce))
        scheduledLo := none
        scheduledHi := none
        executionTimestamp
        userSecret := hex p.userSecret }
  | .dca p =>
      { commitmentHash := hex (dcaCommitmentHash viem p)
        kind := .DCA
        tokenIn := p.tokenIn
        tokenOut := p.tokenOut
        size := p.size.val
        minOut := p.minOut.val
        expiry := some (.finite p.expiry.toNat)
        limitPrice := 0
        direction := .BUY
        nonce := .string (hex p.nonce)
        nullifier := .string (hex (dcaNullifierHash viem p.userSecret p.nonce))
        scheduledLo := some (.finite p.scheduledLo.toNat)
        scheduledHi := some (.finite p.scheduledHi.toNat)
        executionTimestamp
        userSecret := hex p.userSecret }

/-- The condition of a strategy at a moment, with the time the keeper
notes. -/
def Due (lib : Ethers) (w : World) (now : ℕ) (s : Strategy) (executionTimestamp : Option ℕ) :
    Prop :=
  match s with
  | .orderFill p => executionTimestamp = none ∧ ∃ price : UInt64,
      fetchPairPrice lib.shown w p.tokenIn p.tokenOut = .ok (price.toNat : ℤ)
        ∧ p.witness.Fills price
  | .dca p => executionTimestamp = some now ∧ p.scheduledLo.toNat ≤ now
      ∧ now ≤ p.scheduledHi.toNat

end Strategy

-- =================================================================== validation

theorem hex_lastDigits (x : Bytes32) :
    hex x = "0x" ++ String.ofList (lastDigits 16 64 x.val) := by
  have hlt : x.val < 16 ^ 64 := Nat.lt_of_lt_of_le x.isLt (by decide)
  unfold hex
  rw [← pad_toDigits (by decide) (by decide) hlt]

/-- A `0x…` string is the hexadecimal text of its bytes. -/
theorem hex_eq (x : Bytes32) : hex x = "0x" ++ String.ofList (Hex.encode (toBE 32 x.val)) := by
  rw [hex_lastDigits, Hex.encode_toBE]

theorem hex_ne_empty (x : Bytes32) : hex x ≠ "" := by
  intro h
  have hlist := congrArg String.toList h
  simp [hex] at hlist

theorem falsy_string {t : String} (h : t ≠ "") : (Json.string t).falsy = false :=
  decide_eq_false h

theorem validate_body (hlib : Readable lib text) (s : Strategy) :
    ((s.executeRequest viem text).body js).validate lib
      = .ok (s.commitment viem, s.terms.1, s.terms.2.1) := by
  cases s with
  | orderFill p =>
      simp only [Strategy.executeRequest, Backend.ExecuteRequest.body, ExecuteBody.validate,
        falsy_string (hex_ne_empty _), falsy_string (hlib.nonempty _),
        falsy_string (toString_ne_empty _), hlib.bytes32, hlib.address]
      rfl
  | dca p =>
      simp only [Strategy.executeRequest, Backend.ExecuteRequest.body, ExecuteBody.validate,
        falsy_string (hex_ne_empty _), falsy_string (hlib.nonempty _),
        falsy_string (toString_ne_empty _), hlib.bytes32, hlib.address]
      rfl

-- ============================================================= the re-verification

/-- A price that was fetched is one of 64 bits. -/
theorem fetchPairPrice_uint64 {w : World} {tokenIn tokenOut : Address} {price : ℤ}
    (h : fetchPairPrice lib.shown w tokenIn tokenOut = .ok price) :
    ∃ x : UInt64, price = (x.toNat : ℤ) := by
  obtain ⟨hpos, hlt, -⟩ := quotable_of_fetch h
  refine ⟨.ofNat price.toNat, ?_⟩
  rw [UInt64.toNat_ofNat_of_lt' (by change _ < 2 ^ 64; omega)]
  omega

/-- The keeper's comparison is the circuit's. -/
theorem conditionMet_iff {p : PreimageFields} {price : UInt64} :
    conditionMet (decide (p.direction = .SELL)) (price.toNat : ℤ) (p.price.toNat : ℤ) = true
      ↔ p.witness.Fills price := by
  unfold conditionMet Circuits.OrderFill.Private.Fills
  show _ ↔ if decide (p.direction = .SELL) = true then p.price ≤ price else price ≤ p.price
  by_cases hsell : p.direction = .SELL
  · simp [hsell, UInt64.le_iff_toNat_le]
  · simp [hsell, UInt64.le_iff_toNat_le]

theorem sells_body (hjs : js.Documented) {p : PreimageFields} :
    ((Strategy.executeRequest viem text (.orderFill p)).body js).sells
      = decide (p.direction = .SELL) := by
  have hzero : js.parse 0 = .finite 0 := hjs.parse 0 (by decide)
  have hone : js.parse 1 = .finite 1 := hjs.parse 1 (by decide)
  show decide (Json.number (js.parse (if p.direction = .SELL then 1 else 0))
    = .number (.finite 1)) = _
  by_cases hsell : p.direction = .SELL
  · rw [if_pos hsell, hone, decide_eq_true rfl, decide_eq_true hsell]
  · rw [if_neg hsell, hzero, decide_eq_false hsell]
    exact decide_eq_false (by decide)

theorem admitsPrice_body (hjs : js.Documented) {p : PreimageFields} {price : UInt64} :
    ((Strategy.executeRequest viem text (.orderFill p)).body js).AdmitsPrice price.toNat
      ↔ p.witness.Fills price := by
  have hlimit :
      ((Strategy.executeRequest viem text (.orderFill p)).body js).limitPrice.toBigIntOrZero
        = some (p.price.toNat : ℤ) := Json.textToBigInt_toString _
  unfold ExecuteBody.AdmitsPrice
  rw [hlimit, sells_body hjs]
  simp only [Option.some.injEq, exists_eq_left']
  exact conditionMet_iff

theorem admitsTime_body (hjs : js.Documented) {p : DcaPreimageFields}
    (hp : (Strategy.dca p).TimesFit) {now : ℕ} :
    ((Strategy.executeRequest viem text (.dca p)).body js).AdmitsTime now
      ↔ p.scheduledLo.toNat ≤ now ∧ now ≤ p.scheduledHi.toNat := by
  have hlo : ((Strategy.executeRequest viem text (.dca p)).body js).scheduledLo
      = .number (.finite p.scheduledLo.toNat) :=
    congrArg Json.number (hjs.parse _ hp.1)
  have hhi : ((Strategy.executeRequest viem text (.dca p)).body js).scheduledHi
      = .number (.finite p.scheduledHi.toNat) :=
    congrArg Json.number (hjs.parse _ hp.2.1)
  unfold ExecuteBody.AdmitsTime
  rw [hlo, hhi]
  simp [Json.asNumber, JsNumber.leInt, JsNumber.geInt]

/-- The keeper goes on to the secret exactly when the condition of the
strategy holds. -/
theorem execute_body (hlib : Readable lib text) (hjs : js.Documented) {s : Strategy}
    (hs : s.TimesFit) {w : World} {now : ℕ} {h : Bytes32} {executionTimestamp : Option ℕ} :
    execute lib w now ((s.executeRequest viem text).body js) = .reconstruct h executionTimestamp
      ↔ h = s.commitment viem ∧ s.Due lib w now executionTimestamp := by
  rw [execute_eq_reconstruct, validate_body hlib]
  simp only [Except.ok.injEq, Prod.mk.injEq]
  cases s with
  | orderFill p =>
      have hkind : ¬ ((Strategy.executeRequest viem text (.orderFill p)).body js).kind
          = .string "DCA" := by
        show Json.string "ORDER_FILL" ≠ .string "DCA"
        decide
      simp only [if_neg hkind]
      refine ⟨?_, ?_⟩
      · intro hreq
        obtain ⟨a, b, ⟨rfl, rfl, rfl⟩, hmet, htime⟩ := hreq
        obtain ⟨price, hprice, hadmits⟩ := hmet
        obtain ⟨x, rfl⟩ := fetchPairPrice_uint64 hprice
        exact ⟨rfl, htime, x, hprice, (admitsPrice_body hjs).1 hadmits⟩
      · intro hdue
        obtain ⟨rfl, htime, x, hprice, hfills⟩ := hdue
        exact ⟨_, _, ⟨rfl, rfl, rfl⟩, ⟨_, hprice, (admitsPrice_body hjs).2 hfills⟩, htime⟩
  | dca p =>
      have hkind : ((Strategy.executeRequest viem text (.dca p)).body js).kind
          = .string "DCA" := rfl
      simp only [if_pos hkind, admitsTime_body hjs hs]
      refine ⟨?_, ?_⟩
      · intro hreq
        obtain ⟨a, b, ⟨rfl, rfl, rfl⟩, hwindow, htime⟩ := hreq
        exact ⟨rfl, htime, hwindow⟩
      · intro hdue
        obtain ⟨rfl, htime, hwindow⟩ := hdue
        exact ⟨_, _, ⟨rfl, rfl, rfl⟩, hwindow, htime⟩

-- =================================================================== the handler

/-- The conversions of the handler give back the strategy. -/
theorem submitRequest_body (hjs : js.Documented) {s : Strategy} (hs : s.TimesFit)
    {executionTimestamp : Option ℕ} :
    ((s.executeRequest viem text).body js).submitRequest js s.terms.1 s.terms.2.1
        executionTimestamp (hex s.secret)
      = some (s.submitRequest viem executionTimestamp) := by
  cases s with
  | orderFill p =>
      have hsize : ((Strategy.executeRequest viem text (.orderFill p)).body js).size.toBigInt
          = some (p.size.val : ℤ) := Json.textToBigInt_toString _
      have hmin : ((Strategy.executeRequest viem text (.orderFill p)).body js).minOut.toBigInt
          = some (p.minOut.val : ℤ) := Json.textToBigInt_toString _
      have hlimit :
          ((Strategy.executeRequest viem text (.orderFill p)).body js).limitPrice.toBigIntOrZero
            = some (p.price.toNat : ℤ) := Json.textToBigInt_toString _
      have hexpiry :
          js.toNumber ((Strategy.executeRequest viem text (.orderFill p)).body js).expiry
            = some (.finite p.expiry.toNat) := congrArg some (hjs.parse _ hs)
      unfold ExecuteBody.submitRequest
      rw [hsize, hmin, hlimit, hexpiry, sells_body hjs, ← p.direction.keeper_eq]
      rfl
  | dca p =>
      have hsize : ((Strategy.executeRequest viem text (.dca p)).body js).size.toBigInt
          = some (p.size.val : ℤ) := Json.textToBigInt_toString _
      have hmin : ((Strategy.executeRequest viem text (.dca p)).body js).minOut.toBigInt
          = some (p.minOut.val : ℤ) := Json.textToBigInt_toString _
      have hlimit : ((Strategy.executeRequest viem text (.dca p)).body js).limitPrice.toBigIntOrZero
          = some 0 := Json.textToBigInt_toString 0
      have hexpiry : js.toNumber ((Strategy.executeRequest viem text (.dca p)).body js).expiry
          = some (.finite p.expiry.toNat) := congrArg some (hjs.parse _ hs.2.2)
      have hlo : ((Strategy.executeRequest viem text (.dca p)).body js).scheduledLo.asNumber
          = some (.finite p.scheduledLo.toNat) := congrArg some (hjs.parse _ hs.1)
      have hhi : ((Strategy.executeRequest viem text (.dca p)).body js).scheduledHi.asNumber
          = some (.finite p.scheduledHi.toNat) := congrArg some (hjs.parse _ hs.2.1)
      have hbuys : ((Strategy.executeRequest viem text (.dca p)).body js).sells = false := by
        have hzero : js.parse 0 = .finite 0 := hjs.parse 0 (by decide)
        show decide (Json.number (js.parse 0) = .number (.finite 1)) = false
        rw [hzero]
        exact decide_eq_false (by decide)
      unfold ExecuteBody.submitRequest
      rw [hsize, hmin, hlimit, hbuys, hexpiry, hlo, hhi]
      rfl

/-- Once the secret is back, `submitExecution` is called for the strategy. -/
theorem handleExecute_body (hlib : Readable lib text) (hjs : js.Documented) {s : Strategy}
    (hs : s.TimesFit) {reconstruct : String → Except String String} {w : World} {now : ℕ}
    {executionTimestamp : Option ℕ}
    (hsecret : reconstruct (hex (s.commitment viem)) = .ok (hex s.secret))
    (hdue : s.Due lib w now executionTimestamp) :
    handleExecute lib js reconstruct w now ((s.executeRequest viem text).body js)
      = .submitted (s.submitRequest viem executionTimestamp) := by
  have hexecute : execute lib w now ((s.executeRequest viem text).body js)
      = .reconstruct (s.commitment viem) executionTimestamp :=
    (execute_body hlib hjs hs).2 ⟨rfl, hdue⟩
  have hhash : ((s.executeRequest viem text).body js).hash = hex (s.commitment viem) := by
    cases s with
    | orderFill p => rfl
    | dca p => rfl
  unfold handleExecute
  simp only [hexecute, validate_body hlib, hhash, hsecret, submitRequest_body hjs hs]

-- =================================================================== the attempt

namespace Strategy

/-- The reference an attempt proves against: the price it fetches, or the
time the keeper noted. -/
def Reference (lib : Ethers) (w : World) (executionTimestamp : Option ℕ) (fillRef : UInt64)
    (s : Strategy) : Prop :=
  match s with
  | .orderFill p =>
      fetchPairPrice lib.shown w p.tokenIn p.tokenOut = .ok (fillRef.toNat : ℤ)
  | .dca _ => executionTimestamp = some fillRef.toNat

/-- The `fillRef` argument of the transaction. -/
def argument (fillRef : UInt64) : Strategy → UInt64
  | .orderFill _ => 0
  | .dca _ => fillRef

/-- As the two proof generators call themselves. -/
def name : Strategy → String
  | .orderFill _ => "order_fill"
  | .dca _ => "dca"

end Strategy

/-- A time that was noted while a strategy was due. -/
theorem reference_of_due {s : Strategy} {p : DcaPreimageFields} (hp : s = .dca p) {w : World}
    {now : ℕ} {executionTimestamp : Option ℕ} (hdue : s.Due lib w now executionTimestamp) :
    ∃ fillRef : UInt64, executionTimestamp = some fillRef.toNat := by
  subst hp
  obtain ⟨htime, -, hhi⟩ := hdue
  have hlt : now < 2 ^ 64 := Nat.lt_of_le_of_lt hhi p.scheduledHi.toNat_lt
  exact ⟨.ofNat now, by rw [htime, UInt64.toNat_ofNat_of_lt' hlt]⟩

/-- An attempt proves the strategy against the reference it finds. -/
theorem prove_submitRequest (hjs : js.Documented) {s : Strategy} (hs : s.TimesFit) {w₀ w : World}
    {now₀ now : ℕ} {executionTimestamp : Option ℕ} (hdue : s.Due lib w₀ now₀ executionTimestamp)
    {proof : List UInt8} {x : ℕ} :
    (s.submitRequest viem executionTimestamp).prove lib js prover w now = .ok (proof, x)
      ↔ ∃ fillRef, s.Reference lib w executionTimestamp fillRef
        ∧ generateProof prover s.name s.kind.circuit (s.inputs viem lib fillRef) = .ok proof
        ∧ x = (s.argument fillRef).toNat := by
  cases s with
  | orderFill p =>
      have hexpiry : bigIntOfNumber (some (.finite p.expiry.toNat))
          = some (p.expiry.toNat : ℤ) := by
        unfold bigIntOfNumber Json.toBigInt
        simp
      rw [prove_orderFill rfl]
      refine ⟨?_, ?_⟩
      · intro hmade
        obtain ⟨price, expiry, hprice, hread, hproof, hx⟩ := hmade
        obtain ⟨fillRef, rfl⟩ := fetchPairPrice_uint64 hprice
        cases hexpiry.symm.trans hread
        exact ⟨fillRef, hprice, hproof, hx⟩
      · intro hfound
        obtain ⟨fillRef, hprice, hproof, hx⟩ := hfound
        exact ⟨_, _, hprice, hexpiry, hproof, hx⟩
  | dca p =>
      obtain ⟨noted, rfl⟩ := reference_of_due rfl hdue
      have hlo : shownOrThrow js (some (.finite p.scheduledLo.toNat))
          = .ok (toString p.scheduledLo.toNat) := congrArg Except.ok (hjs.shown _ hs.1)
      have hhi : shownOrThrow js (some (.finite p.scheduledHi.toNat))
          = .ok (toString p.scheduledHi.toNat) := congrArg Except.ok (hjs.shown _ hs.2.1)
      have hexpiry : js.print (some (.finite p.expiry.toNat)) = toString p.expiry.toNat :=
        hjs.shown _ hs.2.2
      have hinputs : ((Strategy.submitRequest viem (.dca p) (some noted.toNat)).dcaWitness lib js
          (toString p.scheduledLo.toNat) (toString p.scheduledHi.toNat) noted.toNat).inputs
          = Strategy.inputs viem lib noted (.dca p) := by
        unfold SubmitRequest.dcaWitness Strategy.submitRequest
        rw [hexpiry]
        rfl
      rw [prove_dca rfl]
      refine ⟨?_, ?_⟩
      · intro hmade
        obtain ⟨lo, hi, hlo', hhi', hproof, hx⟩ := hmade
        cases hlo.symm.trans hlo'
        cases hhi.symm.trans hhi'
        refine ⟨noted, rfl, ?_, hx⟩
        rw [← hinputs]
        exact hproof
      · intro hfound
        obtain ⟨fillRef, href, hproof, hx⟩ := hfound
        cases UInt64.toNat_inj.1 (Option.some.inj href)
        refine ⟨_, _, hlo, hhi, ?_, hx⟩
        rw [← hinputs] at hproof
        exact hproof

-- ==================================================================== all stages

/-- Among its rows for a commitment the keeper can decrypt enough shares of
a secret. -/
def HoldsSecret {tss : Threshold} (keys : Keyset tss) (k : ℕ) (t : ShareTable) (hash : String)
    (secret : List UInt8) : Prop :=
  ∃ n shares, tss.Splits n k secret shares
    ∧ ((getSharesForCommitment t hash).filterMap (decryptRow keys)).Subperm shares
    ∧ k ≤ ((getSharesForCommitment t hash).filterMap (decryptRow keys)).length

/-- How the keeper and the registry serve the trigger of a strategy. -/
structure Served (viem : Viem) (lib : Ethers) (js : Js) (prover : Prover) (s : Strategy)
    (body : ExecuteBody) : Prop where
  /-- It goes on to the secret exactly when the condition holds. -/
  released : ∀ w now h executionTimestamp,
    execute lib w now body = .reconstruct h executionTimestamp
      ↔ h = s.commitment viem ∧ s.Due lib w now executionTimestamp
  /-- With enough shares it submits the strategy. -/
  submitted : ∀ (tss : Threshold) (keys : Keyset tss) (k : ℕ) (t : ShareTable) w now
    executionTimestamp, tss.Lawful →
    HoldsSecret keys k t (hex (s.commitment viem)) (toBE 32 s.secret.val) →
    s.Due lib w now executionTimestamp →
    handleExecute lib js (fun h => reconstructUserSecret keys k h (getSharesForCommitment t h)) w
        now body
      = .submitted (s.submitRequest viem executionTimestamp)
  /-- A later attempt has a proof exactly when the circuit's condition holds
  of the reference it finds. -/
  proved : ∀ w₀ now₀ executionTimestamp, s.Due lib w₀ now₀ executionTimestamp → ∀ w now,
    (∃ out, (s.submitRequest viem executionTimestamp).prove lib js prover w now = .ok out)
      ↔ s.AmountsFit ∧ ∃ fillRef, s.Reference lib w executionTimestamp fillRef ∧ s.Fills fillRef
  /-- The registry accepts the proof for the registered strategy, while it
  finds the same reference: the commitment is pending and not expired, its
  nullifier unspent, and a verifier set for its kind. -/
  accepted : ∀ w₀ now₀ executionTimestamp, s.Due lib w₀ now₀ executionTimestamp →
    ∀ w now proof x,
    (s.submitRequest viem executionTimestamp).prove lib js prover w now = .ok (proof, x) →
    ∃ fillRef, s.Reference lib w executionTimestamp fillRef
      ∧ x = (s.argument fillRef).toNat
      ∧ ∀ w' c, w'.registry.commitments (s.commitment viem) = c → s.Opens c →
        c.status = .PENDING → w'.timestamp ≤ c.expiry.toNat →
        w'.registry.nullifiers (s.nullifier viem) = false →
        w'.registry.verifiers c.kind.toUInt8 ≠ 0 → prover.AgreesWith w' →
        CommitmentRegistry.fillReference w' c (s.argument fillRef) = .ok fillRef →
        CommitmentRegistry.Authorised w' (s.commitment viem) (s.nullifier viem) proof
          (s.argument fillRef) fillRef

/-- The trigger that spells a strategy is served as the strategy. -/
theorem served (hviem : viem.FollowsAbi) (hlib : Readable lib text) (hjs : js.Documented)
    (habi : abi.Documented lib) (hprover : prover.Documented abi viem.keccak256) {s : Strategy}
    (hsecrets : s.SecretsFit) (htimes : s.TimesFit) :
    Served viem lib js prover s ((s.executeRequest viem text).body js) := by
  have hgenerate := generateProof_inputs s.name hviem habi hprover hsecrets
  refine ⟨fun w now h ts => execute_body hlib hjs htimes, ?_, ?_, ?_⟩
  · intro tss keys k t w now ts htss hholds hdue
    obtain ⟨n, shares, hsplit, hsub, hk⟩ := hholds
    have hsecret := reconstructUserSecret_eq (h := hex (s.commitment viem)) htss hsplit
      (length_toBE 32 _) hsub
    rw [if_pos hk, ← hex_eq] at hsecret
    exact handleExecute_body hlib hjs htimes hsecret hdue
  · intro w₀ now₀ ts hdue w now
    refine ⟨?_, ?_⟩
    · intro hmade
      obtain ⟨⟨proof, x⟩, hmade⟩ := hmade
      obtain ⟨fillRef, href, hproof, -⟩ := (prove_submitRequest hjs htimes hdue).1 hmade
      obtain ⟨hfit, hfills⟩ := (hgenerate fillRef).1.1 ⟨proof, hproof⟩
      exact ⟨hfit, fillRef, href, hfills⟩
    · intro hcond
      obtain ⟨hfit, fillRef, href, hfills⟩ := hcond
      obtain ⟨proof, hproof⟩ := (hgenerate fillRef).1.2 ⟨hfit, hfills⟩
      exact ⟨(proof, _), (prove_submitRequest hjs htimes hdue).2 ⟨fillRef, href, hproof, rfl⟩⟩
  · intro w₀ now₀ ts hdue w now proof x hmade
    obtain ⟨fillRef, href, hproof, hx⟩ := (prove_submitRequest hjs htimes hdue).1 hmade
    refine ⟨fillRef, href, hx, ?_⟩
    rintro w' c rfl hopens hpending hlive hunspent hconfigured hagrees hreference
    exact ⟨hpending, hlive, hunspent, hconfigured, hreference,
      (hgenerate fillRef).2 proof hproof w' _ hagrees hopens hconfigured⟩

end Client

end Zstrategy
