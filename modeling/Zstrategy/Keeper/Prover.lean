/-
`keeper/src/zk/orderFill.ts` and `dca.ts`, and how `submitExecution` calls
them: the maps of inputs they hand to Noir, the proof, and the gate that
verifies it before it is used.

noir_js and bb.js are outside the repository. `Abi.Documented` says how an
input map is read, `Prover.Documented` that what satisfies the circuit is
proved and verifies. A solved witness is the assignment it solves.
-/
import Zstrategy.Client.Agreement
import Zstrategy.Execution.Authorisation
import Zstrategy.Keeper.Numerals
import Zstrategy.Keeper.Server

namespace Zstrategy.Keeper

open Lib Contracts

open Circuits (Assignment Circuit Field Hash P)

-- ================================================================== the inputs

/-- What `noir.execute` is given. -/
abbrev InputMap := List (String × Json)

inductive Direction where
  | BUY | SELL
  deriving DecidableEq

/-- `direction === "SELL" ? 1 : 0`, then `direction === 1`. -/
def Direction.flag (d : Direction) : Bool := d = .SELL

structure OrderFillWitness where
  price : ℤ
  direction : Direction
  nonce : Json
  userSecret : String
  commitmentHash : String
  oraclePrice : ℤ
  nullifier : Json
  tokenIn : String
  tokenOut : String
  size : ℤ
  minOut : ℤ
  expiry : ℤ

/-- `witnessInputs` of `generateOrderFillProof`. -/
def OrderFillWitness.inputs (x : OrderFillWitness) : InputMap :=
  [("price", .string (toString x.price)),
    ("direction", .bool x.direction.flag),
    ("nonce", x.nonce),
    ("user_secret", .string x.userSecret),
    ("commitment_hash", .string x.commitmentHash),
    ("oracle_price", .string (toString x.oraclePrice)),
    ("nullifier", x.nullifier),
    ("token_in", .string x.tokenIn),
    ("token_out", .string x.tokenOut),
    ("size", .string (toString x.size)),
    ("min_out", .string (toString x.minOut)),
    ("expiry", .string (toString x.expiry))]

/-- The times are numbers, given as `toString` prints them. -/
structure DcaWitness where
  scheduledLo : String
  scheduledHi : String
  nonce : Json
  userSecret : String
  commitmentHash : String
  executionTimestamp : ℕ
  nullifier : Json
  tokenIn : String
  tokenOut : String
  size : ℤ
  minOut : ℤ
  expiry : String

/-- `witnessInputs` of `generateDcaProof`. -/
def DcaWitness.inputs (x : DcaWitness) : InputMap :=
  [("scheduled_lo", .string x.scheduledLo),
    ("scheduled_hi", .string x.scheduledHi),
    ("nonce", x.nonce),
    ("user_secret", .string x.userSecret),
    ("commitment_hash", .string x.commitmentHash),
    ("execution_timestamp", .string (toString x.executionTimestamp)),
    ("nullifier", x.nullifier),
    ("token_in", .string x.tokenIn),
    ("token_out", .string x.tokenOut),
    ("size", .string (toString x.size)),
    ("min_out", .string (toString x.minOut)),
    ("expiry", .string x.expiry)]

-- ===================================================================== the ABI

/-- How noir_js reads a scalar. -/
structure Abi where
  scalar : Json → Option ℕ

namespace Abi

variable (abi : Abi)

def field (inputs : InputMap) (name : String) : Option Field := do
  let x ← inputs.lookup name
  (abi.scalar x).map Field.of

def u64 (inputs : InputMap) (name : String) : Option UInt64 := do
  let x ← inputs.lookup name
  let n ← abi.scalar x
  if n < 2 ^ 64 then some (.ofNat n) else none

def flag (inputs : InputMap) (name : String) : Option Bool :=
  match inputs.lookup name with
  | some (.bool b) => some b
  | _ => none

/-- The public inputs, by the names both circuits declare. -/
def publicInputs (fillRef : String) (inputs : InputMap) : Option Circuits.PublicInputs := do
  let commitmentHash ← abi.field inputs "commitment_hash"
  let fillRef ← abi.u64 inputs fillRef
  let nullifier ← abi.field inputs "nullifier"
  let tokenIn ← abi.field inputs "token_in"
  let tokenOut ← abi.field inputs "token_out"
  let size ← abi.field inputs "size"
  let minOut ← abi.field inputs "min_out"
  let expiry ← abi.u64 inputs "expiry"
  return ⟨commitmentHash, fillRef, nullifier, ⟨tokenIn, tokenOut, size, minOut, expiry⟩⟩

/-- The parameters of a circuit's `main`. -/
def read (circuit : Circuit) (inputs : InputMap) : Option Assignment :=
  match circuit with
  | .orderFill => do
      let price ← abi.u64 inputs "price"
      let direction ← flag inputs "direction"
      let nonce ← abi.field inputs "nonce"
      let userSecret ← abi.field inputs "user_secret"
      let x ← abi.publicInputs "oracle_price" inputs
      return .orderFill ⟨price, direction, nonce, userSecret⟩ x
  | .dca => do
      let scheduledLo ← abi.u64 inputs "scheduled_lo"
      let scheduledHi ← abi.u64 inputs "scheduled_hi"
      let nonce ← abi.field inputs "nonce"
      let userSecret ← abi.field inputs "user_secret"
      let x ← abi.publicInputs "execution_timestamp" inputs
      return .dca ⟨scheduledLo, scheduledHi, nonce, userSecret⟩ x

end Abi

/-- A decimal or `0x…` text is the number it spells; nothing from the
modulus on is read. -/
structure Abi.Documented (abi : Abi) (lib : Ethers) : Prop where
  decimal : ∀ n : ℕ, abi.scalar (.string (toString n)) = if n < P then some n else none
  hex : ∀ x : Bytes32, abi.scalar (.string (Client.hex x)) = if x.val < P then some x.val else none
  address : ∀ a : Address, abi.scalar (.string (lib.shown a)) = some a.val

-- =================================================================== the proofs

/-- What `backend.generateProof` returns. -/
structure ProofData where
  proof : List UInt8
  publicInputs : List ℕ

/-- The two compiled circuits, each with its interpreter and its backend. -/
structure Prover where
  execute : Circuit → InputMap → Except String Assignment
  generateProof : Assignment → Except String ProofData
  verifyProof : Circuit → ProofData → Except String Bool

structure Prover.Documented (prover : Prover) (abi : Abi) (keccak256 : Hash) : Prop where
  executes : ∀ circuit inputs a, prover.execute circuit inputs = .ok a
    ↔ abi.read circuit inputs = some a ∧ a.Accepted keccak256
  proves : ∀ a : Assignment, a.Accepted keccak256 → ∃ data, prover.generateProof a = .ok data
    ∧ data.publicInputs = a.inputs.words ∧ prover.verifyProof a.circuit data = .ok true

/-- The verifiers on the chain accept what bb.js accepts. -/
def Prover.AgreesWith (prover : Prover) (w : World) : Prop :=
  ∀ kind data inputs, w.registry.verifiers (CommitmentKind.toUInt8 kind) ≠ 0 →
    prover.verifyProof kind.circuit data = .ok true → inputs.map Fin.val = data.publicInputs →
    w.ext.verify (w.registry.verifiers kind.toUInt8) data.proof inputs = true

/-- What both functions do with their inputs; `name` is in the errors. -/
def generateProof (prover : Prover) (name : String) (circuit : Circuit) (inputs : InputMap) :
    Except String (List UInt8) := do
  let witness ← prover.execute circuit inputs
  let proofData ← prover.generateProof witness
  match prover.verifyProof circuit proofData with
  | .error err =>
      .error ("[ZK] " ++ name ++ " off-chain verifyProof threw — refusing to submit: " ++ err)
  | .ok ok => do
      expect (ok = true)
        ("[ZK] " ++ name ++ " off-chain verifyProof returned FAIL — refusing to submit")
      return proofData.proof

/-- A proof that is returned verified. -/
theorem generateProof_eq_ok {prover : Prover} {name : String} {circuit : Circuit}
    {inputs : InputMap} {proof : List UInt8} :
    generateProof prover name circuit inputs = .ok proof
      ↔ ∃ a data, prover.execute circuit inputs = .ok a ∧ prover.generateProof a = .ok data
        ∧ prover.verifyProof circuit data = .ok true ∧ data.proof = proof := by
  unfold generateProof
  refine ⟨?_, ?_⟩
  · intro h
    obtain ⟨a, ha, h⟩ := bind_eq_ok.1 h
    obtain ⟨data, hdata, h⟩ := bind_eq_ok.1 h
    split at h
    · cases h
    · rename_i ok hverify
      obtain ⟨hok, h⟩ := expect_bind_eq_ok.1 h
      cases h
      rw [hok] at hverify
      exact ⟨a, data, ha, hdata, hverify, rfl⟩
  · intro h
    obtain ⟨a, data, ha, hdata, hverify, hproof⟩ := h
    refine bind_eq_ok.2 ⟨a, ha, bind_eq_ok.2 ⟨data, hdata, ?_⟩⟩
    rw [hverify]
    exact expect_bind_eq_ok.2 ⟨rfl, congrArg _ hproof⟩

def generateOrderFillProof (prover : Prover) (x : OrderFillWitness) : Except String (List UInt8) :=
  generateProof prover "order_fill" .orderFill x.inputs

def generateDcaProof (prover : Prover) (x : DcaWitness) : Except String (List UInt8) :=
  generateProof prover "dca" .dca x.inputs

-- ================================================================ one attempt

/-- The numbers of JavaScript, beyond what `Json` says of them. -/
structure Js where
  /-- The double a JSON integer is read as. -/
  parse : ℤ → JsNumber
  /-- `Number(text)`; `none` is NaN. -/
  number : String → Option JsNumber
  /-- `x.toString()`. -/
  shown : JsNumber → String

/-- Up to `2 ^ 53` an integer is itself, and is printed in full. -/
structure Js.Documented (js : Js) : Prop where
  parse : ∀ n : ℕ, n ≤ 2 ^ 53 → js.parse n = .finite n
  shown : ∀ n : ℕ, n ≤ 2 ^ 53 → js.shown (.finite n) = toString n

/-- `Number(x)`. -/
def Js.toNumber (js : Js) : Json → Option JsNumber
  | .undefined => none
  | .null => some (.finite 0)
  | .bool b => some (.finite b.toNat)
  | .number x => some x
  | .string s | .compound s => js.number s

/-- `x.toString()`, of NaN as well. -/
def Js.print (js : Js) : Option JsNumber → String
  | none => "NaN"
  | some x => js.shown x

/-- `BigInt(x)` of a number; it throws on NaN. -/
def bigIntOfNumber : Option JsNumber → Option ℤ
  | none => none
  | some x => (Json.number x).toBigInt

/-- `ExecuteRequest`. The tokens are as `getAddress` prints them. -/
structure SubmitRequest where
  commitmentHash : String
  kind : CommitmentKind
  tokenIn : Address
  tokenOut : Address
  size : ℤ
  minOut : ℤ
  expiry : Option JsNumber
  limitPrice : ℤ
  direction : Direction
  nonce : Json
  nullifier : Json
  scheduledLo : Option JsNumber
  scheduledHi : Option JsNumber
  executionTimestamp : Option ℕ
  userSecret : String

variable (lib : Ethers) (js : Js) (prover : Prover)

/-- `x.toString()` throws on `undefined`. -/
def shownOrThrow (x : Option JsNumber) : Except String String :=
  match x with
  | none => .error "TypeError"
  | some x => .ok (js.shown x)

/-- The argument of `generateOrderFillProof`. -/
def SubmitRequest.orderFillWitness (req : SubmitRequest) (pairPrice expiry : ℤ) :
    OrderFillWitness where
  price := req.limitPrice
  direction := req.direction
  nonce := req.nonce
  userSecret := req.userSecret
  commitmentHash := req.commitmentHash
  oraclePrice := pairPrice
  nullifier := req.nullifier
  tokenIn := lib.shown req.tokenIn
  tokenOut := lib.shown req.tokenOut
  size := req.size
  minOut := req.minOut
  expiry := expiry

/-- The argument of `generateDcaProof`. -/
def SubmitRequest.dcaWitness (req : SubmitRequest) (scheduledLo scheduledHi : String)
    (fillRef : ℕ) : DcaWitness where
  scheduledLo := scheduledLo
  scheduledHi := scheduledHi
  nonce := req.nonce
  userSecret := req.userSecret
  commitmentHash := req.commitmentHash
  executionTimestamp := fillRef
  nullifier := req.nullifier
  tokenIn := lib.shown req.tokenIn
  tokenOut := lib.shown req.tokenOut
  size := req.size
  minOut := req.minOut
  expiry := js.print req.expiry

/-- The part of an attempt of `submitExecution` that makes the proof and
picks `fillRef`. -/
def SubmitRequest.prove (req : SubmitRequest) (w : World) (now : ℕ) :
    Except String (List UInt8 × ℕ) :=
  match req.kind with
  | .DCA => do
      let fillRef := req.executionTimestamp.getD now
      let scheduledLo ← shownOrThrow js req.scheduledLo
      let scheduledHi ← shownOrThrow js req.scheduledHi
      let proof ← generateDcaProof prover
        (req.dcaWitness lib js scheduledLo scheduledHi fillRef)
      return (proof, fillRef)
  | .ORDER_FILL => do
      let pairPrice ← fetchPairPrice lib.shown w req.tokenIn req.tokenOut
      match bigIntOfNumber req.expiry with
      | none => .error "RangeError"
      | some expiry => do
          let proof ← generateOrderFillProof prover (req.orderFillWitness lib pairPrice expiry)
          return (proof, 0)

section Prove

variable {lib js prover} {req : SubmitRequest} {w : World} {now x : ℕ} {proof : List UInt8}

theorem prove_orderFill (hkind : req.kind = .ORDER_FILL) :
    req.prove lib js prover w now = .ok (proof, x)
      ↔ ∃ pairPrice expiry, fetchPairPrice lib.shown w req.tokenIn req.tokenOut = .ok pairPrice
        ∧ bigIntOfNumber req.expiry = some expiry
        ∧ generateOrderFillProof prover (req.orderFillWitness lib pairPrice expiry) = .ok proof
        ∧ x = 0 := by
  unfold SubmitRequest.prove
  rw [hkind]
  refine ⟨?_, ?_⟩
  · intro h
    obtain ⟨pairPrice, hprice, h⟩ := bind_eq_ok.1 h
    split at h
    · cases h
    · rename_i expiry hexpiry
      obtain ⟨made, hmade, h⟩ := bind_eq_ok.1 h
      cases h
      exact ⟨pairPrice, expiry, hprice, hexpiry, hmade, rfl⟩
  · intro h
    obtain ⟨pairPrice, expiry, hprice, hexpiry, hmade, rfl⟩ := h
    refine bind_eq_ok.2 ⟨pairPrice, hprice, ?_⟩
    rw [hexpiry]
    exact bind_eq_ok.2 ⟨proof, hmade, rfl⟩

theorem prove_dca (hkind : req.kind = .DCA) :
    req.prove lib js prover w now = .ok (proof, x)
      ↔ ∃ lo hi, shownOrThrow js req.scheduledLo = .ok lo
        ∧ shownOrThrow js req.scheduledHi = .ok hi
        ∧ generateDcaProof prover
            (req.dcaWitness lib js lo hi (req.executionTimestamp.getD now)) = .ok proof
        ∧ x = req.executionTimestamp.getD now := by
  unfold SubmitRequest.prove
  rw [hkind]
  refine ⟨?_, ?_⟩
  · intro h
    obtain ⟨lo, hlo, h⟩ := bind_eq_ok.1 h
    obtain ⟨hi, hhi, h⟩ := bind_eq_ok.1 h
    obtain ⟨made, hmade, h⟩ := bind_eq_ok.1 h
    cases h
    exact ⟨lo, hi, hlo, hhi, hmade, rfl⟩
  · intro h
    obtain ⟨lo, hi, hlo, hhi, hmade, rfl⟩ := h
    exact bind_eq_ok.2 ⟨lo, hlo, bind_eq_ok.2 ⟨hi, hhi, bind_eq_ok.2 ⟨proof, hmade, rfl⟩⟩⟩

end Prove

-- ================================================================== the handler

/-- The `commitmentHash` of a request that passed the checks. -/
def ExecuteBody.hash (body : ExecuteBody) : String :=
  match body.commitmentHash with
  | .string s => s
  | _ => ""

/-- The argument of `submitExecution`; `none` if a conversion throws. -/
def ExecuteBody.submitRequest (body : ExecuteBody) (tokenIn tokenOut : Address)
    (executionTimestamp : Option ℕ) (userSecret : String) : Option SubmitRequest := do
  let size ← body.size.toBigInt
  let minOut ← body.minOut.toBigInt
  let limitPrice ← body.limitPrice.toBigIntOrZero
  return {
    commitmentHash := body.hash
    kind := if body.kind = .string "DCA" then .DCA else .ORDER_FILL
    tokenIn
    tokenOut
    size
    minOut
    expiry := js.toNumber body.expiry
    limitPrice
    direction := if body.sells then .SELL else .BUY
    nonce := body.nonce
    nullifier := body.nullifier
    scheduledLo := body.scheduledLo.asNumber
    scheduledHi := body.scheduledHi.asNumber
    executionTimestamp
    userSecret }

/-- How `POST /api/execute` ends. -/
inductive Handled where
  | answered (status : ℕ) (error : String)
  /-- 202 is sent, and then the handler throws. -/
  | thrown
  /-- 202 is sent, and `submitExecution` called. -/
  | submitted (req : SubmitRequest)

/-- `POST /api/execute`; `reconstruct` is `reconstructUserSecret`. -/
def handleExecute (reconstruct : String → Except String String) (w : World) (now : ℕ)
    (body : ExecuteBody) : Handled :=
  match execute lib w now body, body.validate lib with
  | .refused status error, _ | _, .error (status, error) => .answered status error
  | .reconstruct _ executionTimestamp, .ok (_, tokenIn, tokenOut) =>
      match reconstruct body.hash with
      | .error err => .answered 500 ("Reconstruction failed: " ++ err)
      | .ok userSecret =>
          match body.submitRequest js tokenIn tokenOut executionTimestamp userSecret with
          | none => .thrown
          | some req => .submitted req

end Zstrategy.Keeper
