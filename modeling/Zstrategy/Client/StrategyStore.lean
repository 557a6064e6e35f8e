/-
`frontend/src/lib/strategyStore.ts`: the client's IndexedDB, two object
stores keyed by commitment hash, each with an index on the owner. The
orders page writes the one, the DCA page the other.

A store is a table with the hash as its key, so a strategy that is saved
again overwrites its own row and leaves the others.
-/
import Mathlib
import Zstrategy.Client.Orders
import Zstrategy.Lib.Table

namespace Zstrategy.Client

open Lib

/-- `toLowerCase`, on the ASCII of an address. -/
def toLowerCase (text : String) : String := String.ofList (text.toList.map Char.toLower)

theorem toLowerCase_toLowerCase (text : String) :
    toLowerCase (toLowerCase text) = toLowerCase text := by
  simp [toLowerCase, Function.comp_def, Char.toLower_toLower_eq_toLower]

structure StrategyRecord where
  commitmentHash : String
  /-- In lower case, says the source. -/
  owner : String
  strategyId : String
  nonce : String
  tokenIn : String
  tokenOut : String
  size : String
  minOut : String
  expiry : ℤ
  price : String
  direction : StrategyDirection
  kind : StrategyKind
  createdAt : ℤ
  deriving DecidableEq

structure DcaRoundRecord where
  commitmentHash : String
  dcaGroupId : String
  owner : String
  strategyId : String
  nonce : String
  nullifier : String
  tokenIn : String
  tokenOut : String
  size : String
  minOut : String
  expiry : ℤ
  scheduledLo : ℤ
  scheduledHi : ℤ
  roundIndex : ℤ
  createdAt : ℤ
  deriving DecidableEq

/-- The two object stores. -/
structure ClientDb where
  strategies : Table StrategyRecord.commitmentHash
  dcaRounds : Table DcaRoundRecord.commitmentHash

namespace ClientDb

/-- The stores as `onupgradeneeded` creates them. -/
def empty : ClientDb := ⟨.empty, .empty⟩

def saveStrategy (db : ClientDb) (record : StrategyRecord) : ClientDb :=
  { db with strategies := db.strategies.put record }

def saveDcaRounds (db : ClientDb) (rounds : List DcaRoundRecord) : ClientDb :=
  { db with dcaRounds := rounds.foldl Table.put db.dcaRounds }

/-- `getAll` of the owner index, which answers in the order of the keys. -/
def listStrategiesForOwner (db : ClientDb) (owner : String) : List StrategyRecord :=
  let ownerKey := toLowerCase owner
  (db.strategies.rows.filter fun r => r.owner = ownerKey).mergeSort
    fun r r' => r.commitmentHash ≤ r'.commitmentHash

/-- What the pages write. -/
inductive Save where
  | strategy (record : StrategyRecord)
  | dcaRounds (rounds : List DcaRoundRecord)

def save (db : ClientDb) : Save → ClientDb
  | .strategy record => db.saveStrategy record
  | .dcaRounds rounds => db.saveDcaRounds rounds

/-- The content after a sequence of writes. -/
def after (saves : List Save) : ClientDb := saves.foldl save empty

-- ==================================================================== lookups

variable {db : ClientDb} {owner : String} {r : StrategyRecord}

theorem mem_listStrategiesForOwner :
    r ∈ db.listStrategiesForOwner owner
      ↔ r ∈ db.strategies.rows ∧ r.owner = toLowerCase owner := by
  rw [listStrategiesForOwner, List.mem_mergeSort, List.mem_filter, decide_eq_true_eq]

/-- No two of them have one key. -/
theorem nodup_listStrategiesForOwner (db : ClientDb) (owner : String) :
    ((db.listStrategiesForOwner owner).map StrategyRecord.commitmentHash).Nodup := by
  have hsub : ((db.strategies.rows.filter fun r => r.owner = toLowerCase owner).map
      StrategyRecord.commitmentHash).Nodup :=
    (List.Sublist.map _ List.filter_sublist).nodup db.strategies.unique
  exact ((List.mergeSort_perm _ _).map _).nodup_iff.2 hsub

end ClientDb

end Zstrategy.Client
