/-
`internal/handler/http/handler.go`: the three requests that register
strategies. Each writes two stores, the backend's `pending_strategies` and
the keeper's `shares`, and each in its own order: `/strategies` saves and
then forwards in a goroutine, `/strategies/execute-sync` forwards and then
saves, `/dca-strategies` saves round by round and then forwards one payload
for all rounds.

Requests are served concurrently. A step of the machine is one call to the
database or to the keeper, or the arrival of a request; what fails is part
of the label. What a request does once its row is saved and its shares are
forwarded (the kind of the execution record, the monitor, the wait for the
execution) touches neither store and is left out.
-/
import Zstrategy.Backend.Repositories
import Zstrategy.Keeper.Shares
import Zstrategy.Lib.Machine

namespace Zstrategy.Backend

open Lib Keeper

-- =================================================================== bodies

structure RegisterStrategyBody where
  commitmentHash : String
  kind : String
  chainID : ℤ
  tokenIn : String
  tokenOut : String
  size : String
  minOut : String
  expiry : ℤ
  limitPrice : String
  direction : ℤ
  nonce : String
  nullifier : String
  scheduledLo : Option ℤ
  scheduledHi : Option ℤ
  encryptedShares : List EncryptedShare
  deriving DecidableEq

structure DcaRoundInput where
  commitmentHash : String
  nonce : String
  nullifier : String
  size : String
  minOut : String
  expiry : ℤ
  scheduledLo : ℤ
  scheduledHi : ℤ
  deriving DecidableEq

structure RegisterDcaGroupBody where
  chainID : ℤ
  tokenIn : String
  tokenOut : String
  encryptedShares : List EncryptedShare
  rounds : List DcaRoundInput
  deriving DecidableEq

inductive Request where
  | strategies (body : RegisterStrategyBody)
  | executeSync (body : RegisterStrategyBody)
  | dcaStrategies (body : RegisterDcaGroupBody)
  /-- The body does not bind. -/
  | malformed (err : String)
  deriving DecidableEq

inductive Response where
  | refused (status : ℕ) (error : String)
  | accepted (commitmentHash : String)
  | groupAccepted (saved : ℕ)
  deriving DecidableEq

namespace Request

def encryptedShares : Request → List EncryptedShare
  | strategies body | executeSync body => body.encryptedShares
  | dcaStrategies body => body.encryptedShares
  | malformed _ => []

/-- The hashes it names, one for each row it is to save. -/
def hashes : Request → List String
  | strategies body | executeSync body => [body.commitmentHash]
  | dcaStrategies body => body.rounds.map DcaRoundInput.commitmentHash
  | malformed _ => []

end Request

-- =============================================================== validation

/-- `parseStrategyKind`; `none` is the empty kind. -/
def parseStrategyKind (raw : String) : Option StrategyKind :=
  if raw = "LIMIT" then some .LIMIT
  else if raw = "MARKET" then some .MARKET
  else if raw = "DCA" then some .DCA
  else if raw = "ORDER_FILL" then some .LIMIT
  else none

/-- The strategy `registerStrategy` saves; the database stamps `updatedAt`. -/
def RegisterStrategyBody.strategy (body : RegisterStrategyBody) (kind : StrategyKind) :
    PendingStrategy where
  commitmentHash := body.commitmentHash
  chainID := body.chainID
  kind := kind
  tokenIn := body.tokenIn
  tokenOut := body.tokenOut
  size := body.size
  minOut := body.minOut
  expiry := body.expiry
  limitPrice := if body.limitPrice = "" then "0" else body.limitPrice
  direction := body.direction
  nonce := body.nonce
  nullifier := body.nullifier
  scheduledLo := body.scheduledLo
  scheduledHi := body.scheduledHi
  status := .PENDING
  updatedAt := 0

/-- The strategy of one round of a group. -/
def RegisterDcaGroupBody.strategy (body : RegisterDcaGroupBody) (round : DcaRoundInput) :
    PendingStrategy where
  commitmentHash := round.commitmentHash
  chainID := body.chainID
  kind := .DCA
  tokenIn := body.tokenIn
  tokenOut := body.tokenOut
  size := round.size
  minOut := round.minOut
  expiry := round.expiry
  limitPrice := "0"
  direction := 0
  nonce := round.nonce
  nullifier := round.nullifier
  scheduledLo := some round.scheduledLo
  scheduledHi := some round.scheduledHi
  status := .PENDING
  updatedAt := 0

/-- The checks of `registerStrategy`. -/
def RegisterStrategyBody.check (body : RegisterStrategyBody) (waitForExecution : Bool) :
    Except Response PendingStrategy :=
  if body.commitmentHash = "" ∨ body.tokenIn = "" ∨ body.tokenOut = "" ∨ body.size = ""
      ∨ body.minOut = "" ∨ body.nonce = "" ∨ body.nullifier = "" then
    .error (.refused 400 "missing required fields")
  else
    let kind := (parseStrategyKind body.kind).getD .LIMIT
    if waitForExecution ∧ kind ≠ .MARKET then
      .error (.refused 400 "execute-sync is only supported for MARKET strategies")
    else if waitForExecution ∧ body.encryptedShares = [] then
      .error (.refused 400 "execute-sync requires encrypted shares")
    else .ok (body.strategy kind)

-- ============================================================ the keeper call

/-- What becomes of one call to the keeper. -/
inductive Reply where
  /-- Nothing is stored; `error` is what the call returns. -/
  | failed (error : String)
  /-- The keeper handles the request, its response does not arrive. -/
  | lost (receivedAt : ℤ) (error : String)
  | answered (receivedAt : ℤ)
  deriving DecidableEq

/-- `forwardSharesToKeeper`: what it returns, and the keeper's table. -/
def forwardSharesToKeeper (myIds : List String) (reply : Reply) (hashes : List String)
    (shares : List EncryptedShare) (t : ShareTable) : Except String Unit × ShareTable :=
  match reply with
  | .failed error => (.error error, t)
  | .lost receivedAt error =>
      (.error ("forward shares to keeper: " ++ error),
        (postShares myIds receivedAt hashes shares t).2)
  | .answered receivedAt =>
      let (status, t') := postShares myIds receivedAt hashes shares t
      (if status = 201 ∨ status = 200 then .ok ()
        else .error ("keeper /api/shares returned " ++ toString status), t')

/-- The hashes of a payload whose rows differ after the call. -/
def altered (hashes : List String) (shares : List EncryptedShare) (t t' : ShareTable) :
    List String :=
  hashes.filter fun h => shares.any fun r =>
    decide (t'.find (h, r.keeperId) ≠ t.find (h, r.keeperId))

-- ================================================================== requests

/-- The call a request is before. -/
inductive Job where
  /-- `execute-sync`, before `forwardSharesToKeeper`. -/
  | forwarding (s : PendingStrategy)
  /-- `registerStrategy`, before `Save`. -/
  | saving (s : PendingStrategy)
  /-- `RegisterDcaGroup`, before the `Save` of the next round. -/
  | rounds (body : RegisterDcaGroupBody) (rest : List DcaRoundInput)
  /-- The goroutine, before `forwardSharesToKeeper`. -/
  | delivering (hashes : List String)
  | finished
  deriving DecidableEq

/-- A request with where it stands, what it was answered, the hashes whose
rows it saved and the hashes whose share rows it changed. -/
structure Served where
  request : Request
  job : Job
  answer : Option Response
  saved : List String
  altered : List String
  deriving DecidableEq

/-- Both stores and every request so far. -/
structure Desk where
  strategies : StrategyTable
  shares : ShareTable
  served : List Served

inductive DeskStep where
  | arrive (request : Request)
  /-- The `i`-th request makes its next call. -/
  | move (i : ℕ) (now : ℤ) (fault : Fault) (reply : Reply)

/-- A request as it arrives. -/
def Request.arrive (request : Request) : Served :=
  let start := fun job => ⟨request, job, none, [], []⟩
  let refuse := fun response => ⟨request, .finished, some response, [], []⟩
  match request with
  | .strategies body =>
      match body.check false with
      | .ok s => start (.saving s)
      | .error response => refuse response
  | .executeSync body =>
      match body.check true with
      | .ok s => start (.forwarding s)
      | .error response => refuse response
  | .dcaStrategies body =>
      if body.tokenIn = "" ∨ body.tokenOut = "" ∨ body.rounds = [] then
        refuse (.refused 400 "missing required fields")
      else start (.rounds body body.rounds)
  | .malformed err => refuse (.refused 400 ("invalid body: " ++ err))

/-- The goroutine is started only if there are shares to forward. -/
def Request.deliver (request : Request) : Job :=
  if request.encryptedShares = [] then .finished else .delivering request.hashes

namespace Desk

variable (myIds : List String)

/-- The `i`-th request becomes `e`. -/
def put (d : Desk) (i : ℕ) (e : Served) : Desk :=
  { d with served := d.served.set i e }

/-- `forwardSharesToKeeper` of the `i`-th request, which goes on with `done`. -/
def forward (d : Desk) (i : ℕ) (e : Served) (reply : Reply) (hashes : List String)
    (done : Except String Unit → Served → Served) : Desk :=
  let (result, shares) :=
    forwardSharesToKeeper myIds reply hashes e.request.encryptedShares d.shares
  let changed := Backend.altered hashes e.request.encryptedShares d.shares shares
  { d.put i (done result { e with altered := e.altered ++ changed }) with shares }

/-- `strategyRepo.Save` of the `i`-th request, which goes on with `done`. -/
def save (d : Desk) (i : ℕ) (e : Served) (now : ℤ) (fault : Fault) (s : PendingStrategy)
    (done : Except String Unit → Served → Served) : Desk :=
  match StrategyRepo.save fault { s with updatedAt := now } d.strategies with
  | .ok strategies =>
      { d.put i (done (.ok ()) { e with saved := e.saved ++ [s.commitmentHash] }) with
        strategies }
  | .error err => d.put i (done (.error err) e)

/-- `execute-sync` after the forward. -/
def afterForward (s : PendingStrategy) : Except String Unit → Served → Served
  | .ok (), e => { e with job := .saving s }
  | .error err, e => { e with job := .finished, answer := some (.refused 502 err) }

/-- `registerStrategy` after the `Save`. -/
def afterSave (s : PendingStrategy) : Except String Unit → Served → Served
  | .ok (), e =>
      match e.request with
      | .executeSync _ => { e with job := .finished }
      | _ => { e with job := e.request.deliver, answer := some (.accepted s.commitmentHash) }
  | .error err, e => { e with job := .finished, answer := some (.refused 500 err) }

/-- The next call of a request. -/
def move (d : Desk) (i : ℕ) (e : Served) (now : ℤ) (fault : Fault) (reply : Reply) :
    Option Desk :=
  match e.job with
  | .forwarding s => some (d.forward myIds i e reply [s.commitmentHash] (afterForward s))
  | .saving s => some (d.save i e now fault s (afterSave s))
  | .rounds body (round :: rest) =>
      some (d.save i e now fault (body.strategy round) fun _ e =>
        { e with job := .rounds body rest })
  | .rounds _ [] =>
      some (d.put i
        { e with
          job := e.request.deliver, answer := some (.groupAccepted e.saved.length) })
  | .delivering hashes =>
      some (d.forward myIds i e reply hashes fun _ e => { e with job := .finished })
  | .finished => none

def step (d : Desk) : DeskStep → Option Desk
  | .arrive request => some { d with served := d.served ++ [request.arrive] }
  | .move i now fault reply =>
      (d.served[i]?).bind fun e => d.move myIds i e now fault reply

end Desk

/-- The requests as a machine, over the keeper with the keys `myIds`. -/
def desk (myIds : List String) : Machine Desk DeskStep where
  step l d := d.step myIds l

/-- No row in either store, no request yet. -/
def Desk.initial : Desk := ⟨.empty, .empty, []⟩

end Zstrategy.Backend
