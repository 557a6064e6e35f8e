/-
Synchronous executions, call by call. A request waits in `WaitForExecuted`
until the indexer's `HandleExecuted` hands it the record, over a channel
of capacity one that it leaves in `executedWaiters`.

The machine takes any number of calls of both functions, and one step of
one of them at a time: a call to the database, a section under the mutex,
a send, the choice of a `select`. What a section under the mutex does is
one step, since nothing in it waits. `notifyExecuted` walks its slice
outside the mutex, so the slices are kept with their backing arrays.

`HandleExecuted` also stops the monitor, marks the strategy done and has
the shares dropped; nothing here reads what that writes.
-/
import Zstrategy.Backend.IndexerService
import Zstrategy.Lib.Machine
import Zstrategy.Lib.Slices

namespace Zstrategy.Backend

open Lib Go

open Function (update)

-- ================================================================ the waiters

/-- What `WaitForExecuted` returns. -/
inductive WaitEnd where
  | record (rec : ExecutionRecord)
  /-- `ErrExecutionWaitTimeout`. -/
  | timeout
  /-- `ctx.Err()`. -/
  | cancelled
  | failed (e : String)
  deriving DecidableEq

/-- What a call of `WaitForExecuted` is before. -/
inductive WaitAt where
  /-- The first `FindByHash`. -/
  | reading
  /-- The append to `executedWaiters`. -/
  | attaching
  /-- The second `FindByHash`. -/
  | rereading
  /-- The `select`. -/
  | waiting
  /-- The deferred `removeExecutedWaiter`. -/
  | removing (r : WaitEnd)
  | returned (r : WaitEnd)
  deriving DecidableEq

/-- A call of `WaitForExecuted`. Its channel goes by its number. -/
structure Waiter where
  commitmentHash : String
  stands : WaitAt
  deriving DecidableEq

/-- What the `select` takes. -/
inductive Pick where
  | channel | timer | done
  deriving DecidableEq

/-- What ends the call after a `FindByHash`, if anything. -/
def afterRead : Except String (Option ExecutionRecord) → Option WaitEnd
  | .ok (some rec) => if rec.status = .executed then some (.record rec) else none
  | .ok none => none
  | .error e => some (.failed e)

-- ================================================================= the events

/-- What a call of `HandleExecuted` is before. -/
inductive ExecuteAt where
  /-- `FindByHash`, in `lookupKindLabel`. -/
  | labelling
  /-- `GetByHash`, there. -/
  | lookingUp
  /-- `UpdateStatus`. -/
  | updating (kind : StrategyKind)
  /-- `FindByHash`. -/
  | readingBack (kind : StrategyKind)
  /-- `Save`. -/
  | saving (rec : ExecutionRecord)
  /-- The section of `notifyExecuted` under the mutex. -/
  | taking (rec : ExecutionRecord)
  /-- The send to the channel at `next`. -/
  | sending (rec : ExecutionRecord) (next : ℕ)
  | finished
  | failed (e : String)
  deriving DecidableEq

/-- A call of `HandleExecuted`. -/
structure Executed where
  commitmentHash : String
  txHash : String
  chainID : ℤ
  blockNumber : UInt64
  gasUsed : UInt64
  blockTime : ℤ
  stands : ExecuteAt
  deriving DecidableEq

/-- The record that `HandleExecuted` saves. -/
def Executed.record (e : Executed) (kind : StrategyKind) : ExecutionRecord where
  commitmentHash := e.commitmentHash
  chainID := e.chainID
  status := .executed
  kind := kind
  txHash := e.txHash
  blockNumber := e.blockNumber
  gasUsed := e.gasUsed
  registeredAt := e.blockTime
  executedAt := some e.blockTime

/-- `HandleExecuted` after its second `FindByHash`. -/
def Executed.afterReadBack (e : Executed) (kind : StrategyKind) :
    Except String (Option ExecutionRecord) → ExecuteAt
  | .ok (some rec) => .taking rec
  | .ok none => .saving (e.record kind)
  | .error m => .failed m

-- ================================================================= the slices

/-- What holds a slice of channels. -/
inductive Place where
  /-- `executedWaiters[commitmentHash]`. -/
  | entry (commitmentHash : String)
  /-- The local `waiters` of a `notifyExecuted`. -/
  | taken (j : ℕ)
  deriving DecidableEq

abbrev Channels := Slices Place ℕ

/-- The loop of `removeExecutedWaiter`. -/
def dropChannel (commitmentHash : String) (ch : ℕ) (s : Channels) : Channels :=
  if ch ∈ s.view (.entry commitmentHash) then
    s.deleteAt (.entry commitmentHash) ((s.view (.entry commitmentHash)).idxOf ch)
  else s

/-- `removeExecutedWaiter`: an entry that is empty is deleted. -/
def removeExecutedWaiter (commitmentHash : String) (ch : ℕ) (s : Channels) : Channels :=
  let waiters := dropChannel commitmentHash ch s
  if waiters.view (.entry commitmentHash) = [] then waiters.clear (.entry commitmentHash)
  else waiters

/-- A send that gives up on a full channel. -/
def trySend (ch : ℕ) (rec : ExecutionRecord) (channels : ℕ → Option ExecutionRecord) :
    ℕ → Option ExecutionRecord :=
  if channels ch = none then update channels ch (some rec) else channels

-- ================================================================= the machine

/-- The tables, `executedWaiters`, the channels, and the calls. -/
structure Lobby where
  executions : ExecutionTable
  strategies : StrategyTable
  slices : Channels
  channels : ℕ → Option ExecutionRecord
  waiters : List Waiter
  events : List Executed

inductive LobbyStep where
  /-- The `i`-th waiter. An append that has to move leaves room for `spare`
  channels more; `pick` is what a `select` takes. -/
  | wait (i : ℕ) (fault : Fault) (spare : ℕ) (pick : Pick)
  /-- The `j`-th event. -/
  | event (j : ℕ) (fault : Fault)
  deriving DecidableEq

/-- What goes wrong with the call to the database. -/
def LobbyStep.fault : LobbyStep → Fault
  | .wait _ fault _ _ => fault
  | .event _ fault => fault

namespace Lobby

/-- The `i`-th waiter comes to stand at `a`. -/
def putWaiter (d : Lobby) (i : ℕ) (w : Waiter) (a : WaitAt) : Lobby :=
  { d with waiters := d.waiters.set i { w with stands := a } }

/-- The `j`-th event comes to stand at `a`. -/
def putEvent (d : Lobby) (j : ℕ) (e : Executed) (a : ExecuteAt) : Lobby :=
  { d with events := d.events.set j { e with stands := a } }

/-- The next step of `WaitForExecuted`. -/
def moveWaiter (d : Lobby) (i : ℕ) (w : Waiter) (fault : Fault) (spare : ℕ) (pick : Pick) :
    Option Lobby :=
  let h := w.commitmentHash
  match w.stands with
  | .reading =>
      match afterRead (ExecutionRepo.findByHash fault h d.executions) with
      | some r => some (d.putWaiter i w (.returned r))
      | none => some (d.putWaiter i w .attaching)
  | .attaching =>
      some { d.putWaiter i w .rereading with slices := d.slices.append (.entry h) i spare }
  | .rereading =>
      match afterRead (ExecutionRepo.findByHash fault h d.executions) with
      | some r => some (d.putWaiter i w (.removing r))
      | none => some (d.putWaiter i w .waiting)
  | .waiting =>
      match pick with
      | .channel => (d.channels i).map fun rec =>
          { d.putWaiter i w (.removing (.record rec)) with channels := update d.channels i none }
      | .timer => some (d.putWaiter i w (.removing .timeout))
      | .done => some (d.putWaiter i w (.removing .cancelled))
  | .removing r =>
      some { d.putWaiter i w (.returned r) with slices := removeExecutedWaiter h i d.slices }
  | .returned _ => none

/-- The next step of `HandleExecuted`. -/
def moveEvent (svc : IndexerService) (d : Lobby) (j : ℕ) (e : Executed) (fault : Fault) :
    Option Lobby :=
  let h := e.commitmentHash
  match e.stands with
  | .labelling =>
      match ExecutionRepo.findByHash fault h d.executions with
      | .ok (some rec) => some (d.putEvent j e (.updating rec.kind))
      | _ => some (d.putEvent j e (if svc.hasStrategyRepo then .lookingUp else .updating .LIMIT))
  | .lookingUp =>
      match StrategyRepo.getByHash fault h d.strategies with
      | .ok (some pending) => some (d.putEvent j e (.updating pending.kind))
      | _ => some (d.putEvent j e (.updating .LIMIT))
  | .updating kind =>
      match ExecutionRepo.updateStatus fault h .executed e.txHash e.blockNumber e.gasUsed
          (some e.blockTime) d.executions with
      | .ok executions => some { d.putEvent j e (.readingBack kind) with executions }
      | .error m => some (d.putEvent j e (.failed m))
  | .readingBack kind =>
      some (d.putEvent j e
        (e.afterReadBack kind (ExecutionRepo.findByHash fault h d.executions)))
  | .saving rec =>
      match ExecutionRepo.save fault rec d.executions with
      | .ok executions => some { d.putEvent j e (.taking rec) with executions }
      | .error m => some (d.putEvent j e (.failed m))
  | .taking rec =>
      some { d.putEvent j e (.sending rec 0) with
        slices := d.slices.move (.entry rec.commitmentHash) (.taken j) }
  | .sending rec next =>
      match (d.slices.view (.taken j))[next]? with
      | some ch =>
          some { d.putEvent j e (.sending rec (next + 1)) with
            channels := trySend ch rec d.channels }
      | none => some (d.putEvent j e .finished)
  | .finished => none
  | .failed _ => none

def step (svc : IndexerService) (d : Lobby) : LobbyStep → Option Lobby
  | .wait i fault spare pick =>
      (d.waiters[i]?).bind fun w => d.moveWaiter i w fault spare pick
  | .event j fault => (d.events[j]?).bind fun e => d.moveEvent svc j e fault

end Lobby

/-- Waiters and events, in any order. -/
def lobby (svc : IndexerService) : Machine Lobby LobbyStep where
  step l d := d.step svc l

/-- Nobody has begun, and nobody waits; the tables hold anything. -/
structure Lobby.Opening (d : Lobby) : Prop where
  slices : d.slices = Slices.empty
  channels : ∀ ch, d.channels ch = none
  waiters : ∀ w ∈ d.waiters, w.stands = .reading
  events : ∀ e ∈ d.events, e.stands = .labelling

end Zstrategy.Backend
