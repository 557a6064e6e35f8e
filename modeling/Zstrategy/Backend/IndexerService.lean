/-
`internal/service/indexer.go`: what the indexer does with each lifecycle
event, on the two tables, the monitors and the waiters of synchronous
executions.

`db i` is what goes wrong with the `i`-th call to the database a handler
makes. The metrics are left out, and the request that drops the keeper's
shares runs in a goroutine of its own: only its start is recorded.

Each handler is written in the vocabulary of Lib/Go, so that it reads as its
source does: a query that fails returns the error, a stop or a notification
cannot fail, and a slice of the hash text may panic.
-/
import Zstrategy.Backend.Monitors
import Zstrategy.Lib.Go

namespace Zstrategy.Backend

open Lib Go
open Function (update)

/-- What the handlers work on. -/
structure Service where
  executions : ExecutionTable
  strategies : StrategyTable
  monitors : Monitors
  /-- `executedWaiters`; a channel is named by a number. -/
  executedWaiters : String → List ℕ
  /-- What each channel, of capacity one, holds. -/
  channels : ℕ → Option ExecutionRecord
  /-- The commitments whose shares the keeper was asked to drop. -/
  prunes : List String

/-- How the service was wired. -/
structure IndexerService where
  hasStrategyRepo : Bool
  hasMonitor : Bool
  keeperURL : String

/-- What the environment decides in one handler call. -/
structure Env where
  db : ℕ → Fault
  now : ℤ

namespace Service

def onExecutions (f : ExecutionTable → ExecutionTable) (s : Service) : Service :=
  { s with executions := f s.executions }

def onStrategies (f : StrategyTable → StrategyTable) (s : Service) : Service :=
  { s with strategies := f s.strategies }

def onMonitors (f : Monitors → Monitors) (s : Service) : Service :=
  { s with monitors := f s.monitors }

end Service

/-- `commitmentHash[:10]`: panics on a shorter text. -/
def short (commitmentHash : String) : Go Service Unit :=
  unlessPanic (10 ≤ commitmentHash.utf8ByteSize)
    "runtime error: slice bounds out of range [:10]"

/-- `onChainKindToStrategyKind`. -/
def onChainKindToStrategyKind (kind : String) : StrategyKind :=
  if kind = "DCA" then .DCA else .LIMIT

namespace MonitorService

/-- `UpdateStatus`: an error is logged, under a short hash. -/
def updateStatus (fault : Fault) (now : ℤ) (commitmentHash : String)
    (status : StrategyStatus) : Go Service Unit := do
  let s ← read
  match StrategyRepo.updateStatus fault now commitmentHash status s.strategies with
  | .ok t => modify (Service.onStrategies fun _ => t)
  | .error _ => short commitmentHash
  if status = .DONE then
    modify (Service.onMonitors (Monitors.stopMonitoring commitmentHash))

end MonitorService

namespace IndexerService

variable (svc : IndexerService) (env : Env)

/-- `go s.pruneKeeperShares(commitmentHash)`. -/
def pruneKeeperShares (commitmentHash : String) : Go Service Unit :=
  if svc.keeperURL = "" then pure ()
  else modify fun s => { s with prunes := s.prunes ++ [commitmentHash] }

/-- `lookupKindLabel`, which makes the first two calls of its handler. -/
def lookupKindLabel (commitmentHash : String) : Go Service StrategyKind := do
  let s ← read
  match ExecutionRepo.findByHash (env.db 0) commitmentHash s.executions with
  | .ok (some rec) => return rec.kind
  | _ =>
      if svc.hasStrategyRepo then
        match StrategyRepo.getByHash (env.db 1) commitmentHash s.strategies with
        | .ok (some pending) => return pending.kind
        | _ => return .LIMIT
      else return .LIMIT

/-- The kind a new record gets: the stored strategy's, if there is one. -/
def recordKind (commitmentHash kind : String) : Go Service StrategyKind := do
  let s ← read
  if svc.hasStrategyRepo then
    let pending ← check (StrategyRepo.getByHash (env.db 1) commitmentHash s.strategies)
    match pending with
    | some p => return p.kind
    | none => return onChainKindToStrategyKind kind
  else return onChainKindToStrategyKind kind

/-- `s.repo.Save(ctx, rec)`. -/
def saveRecord (fault : Fault) (rec : ExecutionRecord) : Go Service Unit := do
  let s ← read
  let t ← check (ExecutionRepo.save fault rec s.executions)
  modify (Service.onExecutions fun _ => t)

/-- `s.repo.UpdateStatus(ctx, …)`. -/
def updateRecord (fault : Fault) (commitmentHash : String) (status : ExecutionStatus)
    (txHash : String) (blockNumber gasUsed : UInt64) (executedAt : Option ℤ) :
    Go Service Unit := do
  let s ← read
  let t ← check (ExecutionRepo.updateStatus fault commitmentHash status txHash blockNumber
    gasUsed executedAt s.executions)
  modify (Service.onExecutions fun _ => t)

def handleRegistered (commitmentHash kind : String) (chainID blockTime : ℤ) :
    Go Service Unit := do
  let s ← read
  let exist ← check (ExecutionRepo.existsByHash (env.db 0) commitmentHash s.executions)
  if exist then pure ()
  else do
    let k ← recordKind svc env commitmentHash kind
    saveRecord (env.db 2)
      { commitmentHash, chainID, status := .registered, kind := k, txHash := "",
        blockNumber := 0, gasUsed := 0, registeredAt := blockTime, executedAt := none }

/-- What the three terminal handlers do first: stop the monitor, mark the
strategy done, drop the keeper's shares. -/
def finishStrategy (commitmentHash : String) : Go Service Unit := do
  if svc.hasMonitor then do
    modify (Service.onMonitors (Monitors.stopMonitoring commitmentHash))
    MonitorService.updateStatus (env.db 2) env.now commitmentHash .DONE
  pruneKeeperShares svc commitmentHash

/-- `notifyExecuted`: a send to a full channel is dropped. -/
def notifyExecuted (rec : ExecutionRecord) : Go Service Unit :=
  modify fun s =>
    { s with
      executedWaiters := update s.executedWaiters rec.commitmentHash []
      channels := fun ch =>
        if ch ∈ s.executedWaiters rec.commitmentHash ∧ s.channels ch = none then some rec
        else s.channels ch }

def handleExecuted (commitmentHash txHash : String) (chainID : ℤ)
    (blockNumber gasUsed : UInt64) (blockTime : ℤ) : Go Service Unit := do
  let kind ← lookupKindLabel svc env commitmentHash
  finishStrategy svc env commitmentHash
  updateRecord (env.db 3) commitmentHash .executed txHash blockNumber gasUsed (some blockTime)
  let s ← read
  let found ← check (ExecutionRepo.findByHash (env.db 4) commitmentHash s.executions)
  match found with
  | some rec => notifyExecuted rec
  | none => do
      let record : ExecutionRecord :=
        { commitmentHash, chainID, status := .executed, kind, txHash, blockNumber, gasUsed,
          registeredAt := blockTime, executedAt := some blockTime }
      saveRecord (env.db 5) record
      notifyExecuted record

def handleCancelled (commitmentHash txHash : String) (blockNumber : UInt64) :
    Go Service Unit := do
  let _ ← lookupKindLabel svc env commitmentHash
  finishStrategy svc env commitmentHash
  updateRecord (env.db 3) commitmentHash .cancelled txHash blockNumber 0 none

def handleExpired (commitmentHash : String) (blockNumber : UInt64) : Go Service Unit := do
  let _ ← lookupKindLabel svc env commitmentHash
  finishStrategy svc env commitmentHash
  updateRecord (env.db 3) commitmentHash .expired "" blockNumber 0 none

end IndexerService

-- ================================================================= the calls

/-- A call of one of the four handlers. -/
inductive HandlerCall where
  | registered (commitmentHash kind : String) (chainID blockTime : ℤ)
  | executed (commitmentHash txHash : String) (chainID : ℤ) (blockNumber gasUsed : UInt64)
      (blockTime : ℤ)
  | cancelled (commitmentHash txHash : String) (blockNumber : UInt64)
  | expired (commitmentHash : String) (blockNumber : UInt64)
  deriving DecidableEq

namespace HandlerCall

def commitmentHash : HandlerCall → String
  | .registered h .. => h
  | .executed h .. => h
  | .cancelled h .. => h
  | .expired h .. => h

/-- The status that the event behind the call stands for. -/
def status : HandlerCall → ExecutionStatus
  | .registered .. => .registered
  | .executed .. => .executed
  | .cancelled .. => .cancelled
  | .expired .. => .expired

def run (svc : IndexerService) (env : Env) : HandlerCall → Go Service Unit
  | .registered h kind chainID t => svc.handleRegistered env h kind chainID t
  | .executed h tx chainID b g t => svc.handleExecuted env h tx chainID b g t
  | .cancelled h tx b => svc.handleCancelled env h tx b
  | .expired h b => svc.handleExpired env h b

end HandlerCall

-- ================================================================= a sample

/-- A backend that has just started, wired as in production. -/
def freshService : Service :=
  ⟨Table.empty, Table.empty, Monitors.empty, fun _ => [], fun _ => none, []⟩

def productionIndexer : IndexerService := ⟨true, true, "http://keeper"⟩

/-- No database call fails. -/
def calmEnv : Env := ⟨fun _ => none, 0⟩

/-- A commitment hash as the indexer prints it. -/
def sampleHash : String :=
  "0x00000000000000000000000000000000000000000000000000000000000000aa"

end Zstrategy.Backend
