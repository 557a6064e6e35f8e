/-
`domain/entity.go` and `internal/repository`: the backend's two tables and
the queries on them. Both tables have a unique index on
`commitment_hash`, so a `Table` carries it.

Every query may also fail for reasons of the database (a lost connection,
a cancelled context, a text too long for its column); `fault` is that
failure, decided by the environment. A query that fails changes nothing.
Columns that nothing here reads (row ids, creation times) are left out.

An update that finds no row is a success, as it is in SQL.
-/
import Mathlib.Data.Int.Notation
import Zstrategy.Lib.Table

namespace Zstrategy.Backend

open Lib

-- ================================================================= entities

inductive StrategyStatus where
  | PENDING | EXECUTING | DONE
  deriving DecidableEq, Repr

inductive ExecutionStatus where
  | registered | executed | cancelled | expired
  deriving DecidableEq, Repr

inductive StrategyKind where
  | LIMIT | DCA | MARKET
  deriving DecidableEq, Repr

/-- A row of `pending_strategies`. -/
structure PendingStrategy where
  commitmentHash : String
  chainID : ℤ
  kind : StrategyKind
  tokenIn : String
  tokenOut : String
  size : String
  minOut : String
  expiry : ℤ
  limitPrice : String
  direction : ℤ
  nonce : String
  nullifier : String
  scheduledLo : Option ℤ
  scheduledHi : Option ℤ
  status : StrategyStatus
  updatedAt : ℤ
  deriving DecidableEq

/-- A row of `execution_records`. -/
structure ExecutionRecord where
  commitmentHash : String
  chainID : ℤ
  status : ExecutionStatus
  kind : StrategyKind
  txHash : String
  blockNumber : UInt64
  gasUsed : UInt64
  registeredAt : ℤ
  executedAt : Option ℤ
  deriving DecidableEq

abbrev ExecutionTable := Table ExecutionRecord.commitmentHash

abbrev StrategyTable := Table PendingStrategy.commitmentHash

/-- What goes wrong with one call to the database, if anything. -/
abbrev Fault := Option String

/-- A query that fails on a fault, under the text the repository adds. -/
def query {α : Type} (context : String) (fault : Fault) (result : α) : Except String α :=
  match fault with
  | some e => .error (context ++ e)
  | none => .ok result

theorem query_eq_ok {α : Type} {context : String} {fault : Fault} {result a : α} :
    query context fault result = .ok a ↔ fault = none ∧ a = result := by
  cases fault with
  | none => simp [query, eq_comm]
  | some e => simp [query]

/-- How the driver words a violation of the unique constraint on
`commitment_hash`, which Postgres names after the table. -/
def duplicateKey (table : String) : String :=
  "ERROR: duplicate key value violates unique constraint \"" ++ table
    ++ "_commitment_hash_key\" (SQLSTATE 23505)"

-- ============================================================ execution_repo

namespace ExecutionRepo

/-- `Save`. -/
def save (fault : Fault) (rec : ExecutionRecord) (t : ExecutionTable) :
    Except String ExecutionTable := do
  let inserted ← query "save execution record: " fault (t.insert rec)
  match inserted with
  | some t' => .ok t'
  | none => .error ("save execution record: " ++ duplicateKey "execution_records")

/-- The columns `UpdateStatus` writes. -/
def setStatus (status : ExecutionStatus) (txHash : String) (blockNumber gasUsed : UInt64)
    (executedAt : Option ℤ) (rec : ExecutionRecord) : ExecutionRecord :=
  { rec with status, txHash, blockNumber, gasUsed, executedAt }

theorem setStatus_key (status : ExecutionStatus) (txHash : String)
    (blockNumber gasUsed : UInt64) (executedAt : Option ℤ) (rec : ExecutionRecord) :
    (setStatus status txHash blockNumber gasUsed executedAt rec).commitmentHash
      = rec.commitmentHash := rfl

/-- `UpdateStatus`; no row is no error. -/
def updateStatus (fault : Fault) (commitmentHash : String) (status : ExecutionStatus)
    (txHash : String) (blockNumber gasUsed : UInt64) (executedAt : Option ℤ)
    (t : ExecutionTable) : Except String ExecutionTable :=
  query "update status: " fault
    (t.update commitmentHash (setStatus status txHash blockNumber gasUsed executedAt)
      (setStatus_key status txHash blockNumber gasUsed executedAt))

/-- `UpdateKind`. -/
def updateKind (fault : Fault) (commitmentHash : String) (kind : StrategyKind)
    (t : ExecutionTable) : Except String ExecutionTable :=
  query "update kind: " fault
    (t.update commitmentHash (fun rec => { rec with kind }) fun _ => rfl)

/-- `ExistsByHash`. -/
def existsByHash (fault : Fault) (commitmentHash : String) (t : ExecutionTable) :
    Except String Bool :=
  query "" fault (t.find commitmentHash).isSome

/-- `FindByHash`. -/
def findByHash (fault : Fault) (commitmentHash : String) (t : ExecutionTable) :
    Except String (Option ExecutionRecord) :=
  query "find by hash: " fault (t.find commitmentHash)

theorem save_eq_ok {fault : Fault} {rec : ExecutionRecord} {t t' : ExecutionTable} :
    save fault rec t = .ok t' ↔ fault = none ∧ t.insert rec = some t' := by
  cases fault with
  | none =>
      cases hinsert : t.insert rec with
      | none => simp [save, query, bind, Except.bind, hinsert]
      | some u => simp [save, query, bind, Except.bind, hinsert]
  | some e => simp [save, query, bind, Except.bind]

theorem updateStatus_find {fault : Fault} {c tx : String} {status : ExecutionStatus}
    {b g : UInt64} {x : Option ℤ} {t t' : ExecutionTable}
    (h : updateStatus fault c status tx b g x t = .ok t') (k : String) :
    t'.find k = if k = c then (t.find c).map (setStatus status tx b g x) else t.find k := by
  obtain ⟨-, rfl⟩ := query_eq_ok.1 h
  exact Table.find_update t c _ _ k

end ExecutionRepo

-- ============================================================= strategy_repo

namespace StrategyRepo

/-- `Save`. -/
def save (fault : Fault) (s : PendingStrategy) (t : StrategyTable) :
    Except String StrategyTable := do
  let inserted ← query "save pending strategy: " fault (t.insert s)
  match inserted with
  | some t' => .ok t'
  | none => .error ("save pending strategy: " ++ duplicateKey "pending_strategies")

/-- `GetByHash`. -/
def getByHash (fault : Fault) (commitmentHash : String) (t : StrategyTable) :
    Except String (Option PendingStrategy) :=
  query "get pending strategy: " fault (t.find commitmentHash)

/-- The columns a status update writes. -/
def setStatus (now : ℤ) (status : StrategyStatus) (s : PendingStrategy) : PendingStrategy :=
  { s with status, updatedAt := now }

theorem setStatus_key (now : ℤ) (status : StrategyStatus) (s : PendingStrategy) :
    (setStatus now status s).commitmentHash = s.commitmentHash := rfl

/-- `UpdateStatus`; no row is no error. -/
def updateStatus (fault : Fault) (now : ℤ) (commitmentHash : String)
    (status : StrategyStatus) (t : StrategyTable) : Except String StrategyTable :=
  query "update strategy status: " fault
    (t.update commitmentHash (setStatus now status) (setStatus_key now status))

/-- The read of `ResetStuckExecuting`. -/
def findStuck (fault : Fault) (now olderThan : ℤ) (t : StrategyTable) :
    Except String (List PendingStrategy) :=
  query "find stuck executing: " fault
    (t.rows.filter fun s => s.status = .EXECUTING
      && (decide (olderThan ≤ 0) || decide (s.updatedAt < now - olderThan)))

/-- The write of `ResetStuckExecuting`: `WHERE commitment_hash IN hashes`. -/
def resetStuck (fault : Fault) (now : ℤ) (hashes : List String) (t : StrategyTable) :
    Except String StrategyTable :=
  query "reset stuck executing: " fault
    (t.updateWhere (fun s => s.commitmentHash ∈ hashes) (setStatus now .PENDING)
      (setStatus_key now .PENDING))

/-- `ListPending`. -/
def listPending (fault : Fault) (t : StrategyTable) : Except String (List PendingStrategy) :=
  query "list pending strategies: " fault (t.rows.filter fun s => s.status = .PENDING)

theorem save_eq_ok {fault : Fault} {s : PendingStrategy} {t t' : StrategyTable} :
    save fault s t = .ok t' ↔ fault = none ∧ t.insert s = some t' := by
  cases fault with
  | none =>
      cases hinsert : t.insert s with
      | none => simp [save, query, bind, Except.bind, hinsert]
      | some u => simp [save, query, bind, Except.bind, hinsert]
  | some e => simp [save, query, bind, Except.bind]

theorem updateStatus_find {fault : Fault} {now : ℤ} {c : String} {status : StrategyStatus}
    {t t' : StrategyTable} (h : updateStatus fault now c status t = .ok t') (k : String) :
    t'.find k = if k = c then (t.find c).map (setStatus now status) else t.find k := by
  obtain ⟨-, rfl⟩ := query_eq_ok.1 h
  exact Table.find_update t c _ _ k

end StrategyRepo

end Zstrategy.Backend
