/-
`frontend/src/app/(dashboard)/dca/page.tsx`, a click on its submit button:
one secret, recovered for the nonce of the page, and for each round a
window of the schedule, a nonce of its own and a commitment. The rounds are
saved, registered in one batch and posted to the backend as one group.

The clock, the draws of `randomBytes32`, the wallet, the server that lists
the keepers, the encryption and IndexedDB are parameters.
-/
import Zstrategy.Client.MarketOrders
import Zstrategy.Client.Rounds
import Zstrategy.Client.StrategyStore
import Zstrategy.Backend.Registration

namespace Zstrategy.Client

open Lib Contracts Keeper Backend

open Circuits (P)

-- ==================================================================== the page

def DCA_KIND : ℕ := 1

/-- What a rendering of the page has. -/
structure DcaInputs where
  account : Account
  chainId : ℤ
  pair : TradingPair
  side : Side
  sizeBig : ℕ
  /-- `0` if the field holds no integer. -/
  roundCount : ℤ
  intervalKey : {key : String × ℤ // key ∈ INTERVALS}
  /-- What `getSharedNonce` returns. -/
  sharedNonce : Bytes32

namespace DcaInputs

variable (p : DcaInputs)

def tokenIn : Address := if p.side = .BUY then p.pair.quoteToken else p.pair.baseToken

def tokenOut : Address := if p.side = .BUY then p.pair.baseToken else p.pair.quoteToken

def roundCountValid : Bool := 2 ≤ p.roundCount ∧ p.roundCount ≤ 10

def interval : ℤ := p.intervalKey.val.2

end DcaInputs

/-- What `handleSubmit` waits for or draws. -/
structure DcaEnv where
  listKeepers : Except String (List KeeperPubkey)
  signMessage : String → Except String (List UInt8)
  splitAndEncryptSecret : Bytes32 → List KeeperPubkey → Except String (List EncryptedShare)
  saveDcaRounds : List DcaRoundRecord → Except String Unit
  /-- `Date.now()`. -/
  now : Millis
  /-- The nonce of each round. -/
  randomBytes32 : ℕ → Bytes32

/-- The keepers are listed, and shares can be made for them; the wallet
signs; the rounds are saved. -/
structure DcaEnv.Succeeds (env : DcaEnv) : Prop where
  keepers : ∃ keepers, env.listKeepers = .ok keepers
    ∧ ∀ userSecret, ∃ shares, env.splitAndEncryptSecret userSecret keepers = .ok shares
  signs : ∀ message, ∃ signature, env.signMessage message = .ok signature
  saves : ∀ records, env.saveDcaRounds records = .ok ()

/-- The call of `registerBatch`, and the body that is posted once it is
confirmed. -/
structure RegisterBatchCall where
  commitmentHashes : List Bytes32
  tokenIn : Address
  tokenOut : Address
  sizes : List ℕ
  minOuts : List ℕ
  expiries : List ℤ
  kind : ℕ
  post : RegisterDcaGroupBody

inductive DcaSubmission where
  /-- `handleSubmit` returns before it does anything. -/
  | ignored
  | failed (submitError : String)
  | registered (call : RegisterBatchCall)

-- ================================================================== the rounds

namespace DcaInputs

variable (viem : Viem) (text : Address → String) (p : DcaInputs)

/-- The fields of a round; `encodePacked` throws on the first number that its
type does not hold. -/
def fields (userSecret : Bytes32) (r : Window) (nonce : Bytes32) :
    Except String DcaPreimageFields := do
  expect (p.sizeBig < 2 ^ 256) (integerOutOfRange 256 p.sizeBig)
  match roundFields ⟨p.tokenIn, p.tokenOut, .ofNat _ p.sizeBig, userSecret⟩ r nonce with
  | none =>
      let unfit := [r.scheduledLo, r.scheduledHi, r.expiry].find? fun x => (toUint64 x).isNone
      .error (integerOutOfRange 64 (unfit.getD r.expiry))
  | some fields => .ok fields

/-- What is saved of a round. -/
def record (owner : Address) (strategyId : Bytes32) (currentNow : ℕ) (i : ℕ) (r : Window)
    (f : DcaPreimageFields) : DcaRoundRecord where
  commitmentHash := hex (dcaCommitmentHash viem f)
  dcaGroupId := hex strategyId
  owner := toLowerCase (text owner)
  strategyId := hex strategyId
  nonce := hex f.nonce
  nullifier := hex (dcaNullifierHash viem f.userSecret f.nonce)
  tokenIn := text p.tokenIn
  tokenOut := text p.tokenOut
  size := toString p.sizeBig
  minOut := "0"
  expiry := r.expiry
  scheduledLo := r.scheduledLo
  scheduledHi := r.scheduledHi
  roundIndex := i
  createdAt := currentNow

/-- What is posted of a round. -/
def round (r : DcaRoundRecord) : DcaRoundInput where
  commitmentHash := r.commitmentHash
  nonce := r.nonce
  nullifier := r.nullifier
  size := r.size
  minOut := "0"
  expiry := r.expiry
  scheduledLo := r.scheduledLo
  scheduledHi := r.scheduledHi

/-- The windows, each with the nonce drawn for it. -/
def schedule (env : DcaEnv) : List (Window × Bytes32) :=
  let currentNow := env.now.val / 1000
  (buildSchedule p.roundCount.toNat p.interval currentNow).zip
    ((List.range p.roundCount.toNat).map env.randomBytes32)

/-- The `try` block. -/
def submit (env : DcaEnv) (address : Address) : Except String RegisterBatchCall := do
  let strategyId := deriveStrategyId viem address p.sharedNonce
  let keepers ← env.listKeepers
  let signature ← env.signMessage (strategyIdSigningMessage strategyId)
  let userSecret := deriveUserSecret viem signature
  let sched := p.schedule env
  let rounds ← sched.mapM fun x => p.fields userSecret x.1 x.2
  let encryptedShares ← env.splitAndEncryptSecret userSecret keepers
  let records := (sched.zip rounds).mapIdx fun i x =>
    p.record viem text address strategyId (env.now.val / 1000) i x.1.1 x.2
  env.saveDcaRounds records
  return {
    commitmentHashes := rounds.map (dcaCommitmentHash viem)
    tokenIn := p.tokenIn
    tokenOut := p.tokenOut
    sizes := List.replicate p.roundCount.toNat p.sizeBig
    minOuts := List.replicate p.roundCount.toNat 0
    expiries := sched.map fun x => x.1.expiry
    kind := DCA_KIND
    post :=
      { chainID := p.chainId
        tokenIn := text p.tokenIn
        tokenOut := text p.tokenOut
        encryptedShares
        rounds := records.map round } }

def handleSubmit (env : DcaEnv) : DcaSubmission :=
  match p.account.address with
  | none => .ignored
  | some address =>
      if p.account.isConnected = false ∨ p.sizeBig = 0 ∨ p.roundCountValid = false then .ignored
      else
        match p.submit viem text env address with
        | .ok call => .registered call
        | .error message => .failed message

end DcaInputs

end Zstrategy.Client
