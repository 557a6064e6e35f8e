/-
`internal/service/monitor.go`: one run of the backend process, as the
goroutines of `MonitorService` and of its callers taking atomic steps in
any order. A step is one call to the database, one section under the
mutex, one request or one reply; what a goroutine does between two of them
touches nothing shared. `Routine` is where a goroutine stands.

A write under a monitor's context is two steps: it is sent only while the
context lives, and once sent it may still land after the context is
cancelled. The rollback, the sweeps and the handlers write under contexts
that no monitor cancels.

Times are in nanoseconds, the clock never goes back, and the handlers and
the sweeper come after `RehydrateFromDB`, as in `main.go`. The metrics of
evaluations and triggers are left out, and so is the root shutdown.

The step of a goroutine is one function, `MonitorState.run`, with a case for
each place it can stand in. `ran_of_run` turns it into the relation `Ran`,
one constructor for each way to go on, and the invariants of the monitors
are proved by cases on that.
-/
import Zstrategy.Backend.ChainIndexer
import Zstrategy.Backend.Monitors
import Zstrategy.Backend.Oracle
import Zstrategy.Lib.Machine

namespace Zstrategy.Backend

open Lib Contracts

-- ================================================================= constants

def second : ℕ := 10 ^ 9

/-- `time.Time.Unix`. -/
def unix (t : ℤ) : ℤ := t / second

def monitorTickInterval : ℕ := 30 * second

def stuckExecutingThreshold : ℕ := 600 * second

def stuckSweepInterval : ℕ := 300 * second

/-- A `time.Ticker`. Its channel holds one tick, so what a slow receiver
misses is dropped: `taken` is the number of periods up to the last
receive. -/
structure Ticker where
  start : ℤ
  period : ℕ
  taken : ℤ
  deriving DecidableEq

namespace Ticker

def elapsed (t : Ticker) (now : ℤ) : ℤ := (now - t.start) / t.period

/-- A tick waits in the channel. -/
def Due (t : Ticker) (now : ℤ) : Prop := t.taken < t.elapsed now

instance instDecidableDue (t : Ticker) (now : ℤ) : Decidable (t.Due now) :=
  inferInstanceAs (Decidable (_ < _))

def take (t : Ticker) (now : ℤ) : Ticker := { t with taken := t.elapsed now }

end Ticker

-- ======================================================== the fill condition

/-- The digits that `SetString` scans for base ten. -/
def decimal (cs : List Char) : Option ℕ := readDigits (digitValue 10) 10 0 cs

/-- `new(big.Int).SetString(text, 10)`. -/
def setString (text : String) : Option ℤ :=
  match text.toList with
  | [] => none
  | '-' :: c :: cs => (decimal (c :: cs)).map fun n => -(n : ℤ)
  | '+' :: c :: cs => (decimal (c :: cs)).map Int.ofNat
  | c :: cs => (decimal (c :: cs)).map Int.ofNat

/-- What `fetchPairPrice` returns: an error, or a positive price. -/
abbrev PairPrice := Except String {price : ℤ // 0 < price}

/-- `isFillConditionMet`. -/
def isFillConditionMet (hasRegistry : Bool) (s : PendingStrategy) (now : ℤ)
    (pairPrice : PairPrice) : Except String Bool :=
  match s.kind with
  | .MARKET => .ok true
  | .DCA =>
      match s.scheduledLo, s.scheduledHi with
      | some lo, some hi => .ok (lo ≤ now ∧ now ≤ hi)
      | _, _ => .ok false
  | .LIMIT =>
      if hasRegistry then
        match wrapError "pair price" pairPrice with
        | .error e => .error e
        | .ok oraclePrice =>
            match setString s.limitPrice with
            | none => .error ("invalid limit_price: " ++ s.limitPrice)
            | some limitPrice =>
                if s.direction = 1 then .ok (limitPrice ≤ oraclePrice.val)
                else .ok (oraclePrice.val ≤ limitPrice)
      else .ok false

/-- What an evaluation finds, if it writes. -/
inductive Verdict where
  | expired | met
  deriving DecidableEq

/-- The status it writes. -/
def Verdict.status : Verdict → StrategyStatus
  | .expired => .DONE
  | .met => .EXECUTING

/-- `evaluateAndMaybeTrigger` up to its write. -/
def judge (hasRegistry : Bool) (s : PendingStrategy) (now : ℤ) (pairPrice : PairPrice) :
    Except String (Option Verdict) :=
  if 0 < s.expiry ∧ s.expiry < now then .ok (some .expired)
  else
    match isFillConditionMet hasRegistry s now pairPrice with
    | .error e => .error e
    | .ok met => .ok (if met then some .met else none)

-- ================================================================= the state

/-- The JSON body of `POST /api/execute`. -/
structure ExecuteRequest where
  commitmentHash : String
  kind : String
  tokenIn : String
  tokenOut : String
  size : String
  minOut : String
  expiry : ℤ
  limitPrice : String
  direction : ℤ
  nonce : String
  nullifier : String
  scheduledLo : Option ℤ
  scheduledHi : Option ℤ
  deriving DecidableEq

/-- The payload of `triggerKeeper`. -/
def PendingStrategy.executeRequest (s : PendingStrategy) : ExecuteRequest where
  commitmentHash := s.commitmentHash
  kind := if s.kind = .DCA then "DCA" else "ORDER_FILL"
  tokenIn := s.tokenIn
  tokenOut := s.tokenOut
  size := s.size
  minOut := s.minOut
  expiry := s.expiry
  limitPrice := s.limitPrice
  direction := s.direction
  nonce := s.nonce
  nullifier := s.nullifier
  scheduledLo := s.scheduledLo
  scheduledHi := s.scheduledHi

/-- A `POST /api/execute`, the monitor it goes back to, and when it went. -/
structure Post where
  request : ExecuteRequest
  sender : ℕ
  time : ℤ
  deriving DecidableEq

/-- What a `monitorLoop` carries. -/
structure Loop where
  ctx : ℕ
  strategy : PendingStrategy
  ticker : Ticker
  deriving DecidableEq

def Loop.hash (l : Loop) : String := l.strategy.commitmentHash

/-- Who calls `ResetStuckExecuting`. -/
inductive Sweep where
  | rehydrate
  | periodic (ticker : Ticker)
  deriving DecidableEq

def Sweep.olderThan : Sweep → ℕ
  | .rehydrate => 0
  | .periodic _ => stuckExecutingThreshold

/-- Where a goroutine stands: the step it takes next. -/
inductive Routine where
  /-- `monitorLoop`, before it makes its ticker. -/
  | begin (ctx : ℕ) (s : PendingStrategy)
  /-- `monitorLoop`, in the `select`. -/
  | select (l : Loop)
  /-- `evaluateAndMaybeTrigger`, from its start. -/
  | evaluate (l : Loop)
  /-- Before the status update, with it on its way, and after it. -/
  | write (l : Loop) (v : Verdict)
  | sent (l : Loop) (v : Verdict)
  | wrote (l : Loop) (v : Verdict)
  /-- `triggerKeeper`: before the request, before the reply, before the
  reset to `PENDING`, before the restart. -/
  | trigger (s : PendingStrategy) (sender : ℕ)
  | posted (s : PendingStrategy)
  | rollback (s : PendingStrategy)
  | resume (s : PendingStrategy)
  /-- `StartStuckSweeper`, in the `select`. -/
  | idle (ticker : Ticker)
  /-- `ResetStuckExecuting`: before its read and before its write. -/
  | find (w : Sweep)
  | reset (w : Sweep) (stuck : List PendingStrategy)
  /-- `RehydrateFromDB`, before `ListPending`. -/
  | list
  /-- A sweep or `RehydrateFromDB`, restarting the rest of its rows. -/
  | startAll (w : Sweep) (rest : List PendingStrategy)
  /-- A request that saved `s`, before `StartMonitoring`. -/
  | registered (s : PendingStrategy)
  /-- `HandleExecuted`, `HandleCancelled`, `HandleExpired`, before
  `StopMonitoring`. -/
  | stopFirst (commitmentHash : String)
  /-- `UpdateStatus(ctx, commitmentHash, DONE)`: before the write, and
  before `StopMonitoring`. -/
  | finish (commitmentHash : String) (recovers : Bool)
  | finished (commitmentHash : String)
  | ended
  deriving DecidableEq

/-- The backend process. -/
structure MonitorState where
  strategies : StrategyTable
  monitors : Monitors
  routines : List Routine
  /-- The requests to the keeper, in order. -/
  posts : List Post
  now : ℤ
  /-- `RehydrateFromDB` has returned. -/
  booted : Bool
  /-- A goroutine panicked. -/
  crashed : Bool

/-- What can happen next. -/
inductive MonitorStep where
  | wait (d : ℕ)
  /-- A request saves `s`, which every handler builds `PENDING`. -/
  | register (s : PendingStrategy) (fault : Fault)
  /-- The indexer has a terminal event; `topic` is its commitment. -/
  | event (topic : Bytes32)
  /-- The keeper calls `MarkStrategyDone`. -/
  | callback (commitmentHash : String)
  /-- The `i`-th goroutine takes its next step; `reply` is the status of
  the keeper's answer, if one comes. -/
  | run (i : ℕ) (fault : Fault) (pairPrice : PairPrice) (reply : Option ℕ)
  /-- The `select` of the `i`-th goroutine takes `ctx.Done()`. -/
  | leave (i : ℕ)

-- ================================================================= the steps

namespace MonitorState

variable (st : MonitorState)

/-- The `i`-th goroutine goes on as `j`. -/
def put (i : ℕ) (j : Routine) : MonitorState :=
  { st with routines := st.routines.set i j }

/-- `go f()`. -/
def spawn (j : Routine) : MonitorState :=
  { st with routines := st.routines ++ [j] }

/-- A panic that nothing recovers. -/
def crash : MonitorState :=
  { st with routines := [], crashed := true }

/-- Go on as `next` after a line that logs `commitmentHash[:10]`. -/
def slice (commitmentHash : String) (next : MonitorState) : MonitorState :=
  if 10 ≤ commitmentHash.utf8ByteSize then next else st.crash

/-- `startMonitoring`. -/
def start (s : PendingStrategy) : MonitorState :=
  match st.monitors.stopChans s.commitmentHash with
  | some _ => st
  | none =>
      { st.spawn (.begin st.monitors.goroutines.length s) with
        monitors := st.monitors.startMonitoring s }

/-- `StopMonitoring`. -/
def stop (commitmentHash : String) : MonitorState :=
  { st with monitors := st.monitors.stopMonitoring commitmentHash }

/-- The monitor's update failed: `UpdateStatus` logs it and goes on to
stop, the trigger path logs it and returns. -/
def updateFailed (i : ℕ) (l : Loop) : Verdict → MonitorState
  | .expired => st.slice l.hash (st.put i (.wrote l .expired))
  | .met => st.slice l.hash (st.put i (.select l))

/-- After `ResetStuckExecuting`: on to `ListPending`, or to the next tick. -/
def afterReset : Sweep → Routine
  | .rehydrate => .list
  | .periodic ticker => .idle ticker

/-- `RehydrateFromDB` returns and `StartStuckSweeper` starts. -/
def boot (i : ℕ) : MonitorState :=
  { (st.put i .ended).spawn (.idle ⟨st.now, stuckSweepInterval, 0⟩) with booted := true }

/-- The next step of the `i`-th goroutine. -/
def run (hasRegistry : Bool) (i : ℕ) (fault : Fault) (pairPrice : PairPrice)
    (reply : Option ℕ) : Routine → Option MonitorState
  | .begin ctx s =>
      some (st.put i (.evaluate ⟨ctx, s, ⟨st.now, monitorTickInterval, 0⟩⟩))
  | .select l =>
      if l.ticker.Due st.now then
        some (st.put i (.evaluate { l with ticker := l.ticker.take st.now }))
      else none
  | .evaluate l =>
      match judge hasRegistry l.strategy (unix st.now) pairPrice with
      | .error _ => some (st.slice l.hash (st.put i (.select l)))
      | .ok none => some (st.put i (.select l))
      | .ok (some v) => some (st.slice l.hash (st.put i (.write l v)))
  | .write l v =>
      if st.monitors.cancelled l.ctx then some (st.updateFailed i l v)
      else some (st.put i (.sent l v))
  | .sent l v =>
      match StrategyRepo.updateStatus fault st.now l.hash v.status st.strategies with
      | .ok t => some { st.put i (.wrote l v) with strategies := t }
      | .error _ => some (st.updateFailed i l v)
  | .wrote l .expired => some ((st.stop l.hash).put i (.select l))
  | .wrote l .met =>
      some (((st.stop l.hash).put i (.select l)).spawn (.trigger l.strategy l.ctx))
  | .trigger s sender =>
      some { st.put i (.posted s) with
        posts := st.posts ++ [⟨s.executeRequest, sender, st.now⟩] }
  | .posted s =>
      match reply with
      | none => some (st.slice s.commitmentHash (st.put i .ended))
      | some code =>
          if code = 202 ∨ code = 200 then
            some (st.slice s.commitmentHash (st.put i .ended))
          else some (st.slice s.commitmentHash (st.put i (.rollback s)))
  | .rollback s =>
      match StrategyRepo.updateStatus fault st.now s.commitmentHash .PENDING
          st.strategies with
      | .ok t =>
          some { st.put i (.resume { s with status := .PENDING }) with strategies := t }
      | .error _ => some (st.put i .ended)
  | .resume s => some ((st.put i .ended).start s)
  | .idle ticker =>
      if ticker.Due st.now then
        some (st.put i (.find (.periodic (ticker.take st.now))))
      else none
  | .find w =>
      match StrategyRepo.findStuck fault st.now w.olderThan st.strategies with
      | .error _ => some (st.put i (afterReset w))
      | .ok [] => some (st.put i (afterReset w))
      | .ok (s :: stuck) => some (st.put i (.reset w (s :: stuck)))
  | .reset w stuck =>
      match StrategyRepo.resetStuck fault st.now (stuck.map PendingStrategy.commitmentHash)
          st.strategies with
      | .error _ => some (st.put i (afterReset w))
      | .ok t =>
          match w with
          | .rehydrate => some { st.put i .list with strategies := t }
          | .periodic ticker =>
              let reset := stuck.map fun s => { s with status := .PENDING }
              some { st.put i (.startAll (.periodic ticker) reset) with strategies := t }
  | .list =>
      match StrategyRepo.listPending fault st.strategies with
      | .error _ => some (st.boot i)
      | .ok rows => some (st.put i (.startAll .rehydrate rows))
  | .startAll w (s :: rest) => some ((st.put i (.startAll w rest)).start s)
  | .startAll .rehydrate [] => some (st.boot i)
  | .startAll (.periodic ticker) [] => some (st.put i (.idle ticker))
  | .registered s => some ((st.put i .ended).start s)
  | .stopFirst commitmentHash =>
      some ((st.stop commitmentHash).put i (.finish commitmentHash false))
  | .finish commitmentHash recovers =>
      match StrategyRepo.updateStatus fault st.now commitmentHash .DONE st.strategies with
      | .ok t => some { st.put i (.finished commitmentHash) with strategies := t }
      | .error _ =>
          if 10 ≤ commitmentHash.utf8ByteSize then
            some (st.put i (.finished commitmentHash))
          else if recovers then some (st.put i .ended)
          else some st.crash
  | .finished commitmentHash => some ((st.stop commitmentHash).put i .ended)
  | .ended => none

/-- `Save`: the request goes on to `StartMonitoring`, or is refused. -/
def register (s : PendingStrategy) (fault : Fault) : Option MonitorState :=
  let row := { s with status := .PENDING, updatedAt := st.now }
  match StrategyRepo.save fault row st.strategies with
  | .ok t => some { st.spawn (.registered row) with strategies := t }
  | .error _ => some st

def step (hasRegistry : Bool) : MonitorStep → Option MonitorState
  | .wait d => some { st with now := st.now + d }
  | .register s fault => if st.booted then st.register s fault else none
  | .event topic =>
      if st.booted then some (st.spawn (.stopFirst (hexHash topic))) else none
  | .callback commitmentHash =>
      if st.booted ∧ commitmentHash ≠ "" then
        some (st.spawn (.finish commitmentHash true))
      else none
  | .run i fault pairPrice reply =>
      match st.routines[i]? with
      | none => none
      | some j => st.run hasRegistry i fault pairPrice reply j
  | .leave i =>
      match st.routines[i]? with
      | some (.select l) =>
          if st.monitors.cancelled l.ctx then some (st.put i .ended) else none
      | _ => none

-- =========================================================== their footprints

section Footprint

variable {st : MonitorState} {i : ℕ} {j k : Routine} {s : PendingStrategy} {h : String}

theorem mem_put (hk : k ∈ (st.put i j).routines) : k ∈ st.routines ∨ k = j :=
  List.mem_or_eq_of_mem_set hk

theorem mem_spawn (hk : k ∈ (st.spawn j).routines) : k ∈ st.routines ∨ k = j := by
  rcases List.mem_append.1 hk with hold | hnew
  · exact Or.inl hold
  · exact Or.inr (List.mem_singleton.1 hnew)

/-- A restart adds one goroutine, or finds a monitor and adds none. -/
theorem mem_start (hk : k ∈ (st.start s).routines) :
    k ∈ st.routines ∨ st.monitors.stopChans s.commitmentHash = none
      ∧ k = .begin st.monitors.goroutines.length s := by
  unfold start at hk
  cases hs : st.monitors.stopChans s.commitmentHash with
  | some tm =>
      rw [hs] at hk
      exact Or.inl hk
  | none =>
      rw [hs] at hk
      have hspawn : k ∈ (st.spawn (.begin st.monitors.goroutines.length s)).routines := hk
      rcases mem_spawn hspawn with hold | hnew
      · exact Or.inl hold
      · exact Or.inr ⟨rfl, hnew⟩

theorem start_strategies : (st.start s).strategies = st.strategies := by
  unfold start
  cases st.monitors.stopChans s.commitmentHash <;> rfl

theorem start_posts : (st.start s).posts = st.posts := by
  unfold start
  cases st.monitors.stopChans s.commitmentHash <;> rfl

theorem start_now : (st.start s).now = st.now := by
  unfold start
  cases st.monitors.stopChans s.commitmentHash <;> rfl

theorem start_monitors : (st.start s).monitors = st.monitors.startMonitoring s := by
  unfold start Monitors.startMonitoring
  cases st.monitors.stopChans s.commitmentHash <;> rfl

/-- What survives a log line that slices the hash. -/
theorem slice_cases (st : MonitorState) (h : String) (next : MonitorState) :
    10 ≤ h.utf8ByteSize ∧ st.slice h next = next ∨ st.slice h next = st.crash := by
  unfold slice
  by_cases hsize : 10 ≤ h.utf8ByteSize
  · exact Or.inl ⟨hsize, if_pos hsize⟩
  · exact Or.inr (if_neg hsize)

end Footprint

-- ============================================================== one step undone

/-- What the next step of a goroutine that stands at `j` can come to: a
constructor for each way through `run`, with what it found out. -/
inductive Ran (hasRegistry : Bool) (fault : Fault) (pairPrice : PairPrice) (i : ℕ) :
    Routine → MonitorState → Prop where
  | begun (ctx : ℕ) (s : PendingStrategy) :
      Ran hasRegistry fault pairPrice i (.begin ctx s)
        (st.put i (.evaluate ⟨ctx, s, ⟨st.now, monitorTickInterval, 0⟩⟩))
  | ticked (l : Loop) (hdue : l.ticker.Due st.now) :
      Ran hasRegistry fault pairPrice i (.select l)
        (st.put i (.evaluate { l with ticker := l.ticker.take st.now }))
  | unjudged (l : Loop) :
      Ran hasRegistry fault pairPrice i (.evaluate l) (st.slice l.hash (st.put i (.select l)))
  | unmet (l : Loop) :
      Ran hasRegistry fault pairPrice i (.evaluate l) (st.put i (.select l))
  | judged (l : Loop) (v : Verdict)
      (hjudge : judge hasRegistry l.strategy (unix st.now) pairPrice = .ok (some v)) :
      Ran hasRegistry fault pairPrice i (.evaluate l)
        (st.slice l.hash (st.put i (.write l v)))
  | cancelled (l : Loop) (v : Verdict) (hdead : st.monitors.cancelled l.ctx = true) :
      Ran hasRegistry fault pairPrice i (.write l v) (st.updateFailed i l v)
  | sent (l : Loop) (v : Verdict) (halive : st.monitors.cancelled l.ctx = false) :
      Ran hasRegistry fault pairPrice i (.write l v) (st.put i (.sent l v))
  | wrote (l : Loop) (v : Verdict) (t : StrategyTable)
      (hu : StrategyRepo.updateStatus fault st.now l.hash v.status st.strategies = .ok t) :
      Ran hasRegistry fault pairPrice i (.sent l v)
        { st.put i (.wrote l v) with strategies := t }
  | unwritten (l : Loop) (v : Verdict) :
      Ran hasRegistry fault pairPrice i (.sent l v) (st.updateFailed i l v)
  | expired (l : Loop) :
      Ran hasRegistry fault pairPrice i (.wrote l .expired)
        ((st.stop l.hash).put i (.select l))
  | met (l : Loop) :
      Ran hasRegistry fault pairPrice i (.wrote l .met)
        (((st.stop l.hash).put i (.select l)).spawn (.trigger l.strategy l.ctx))
  | posted (s : PendingStrategy) (sender : ℕ) :
      Ran hasRegistry fault pairPrice i (.trigger s sender)
        { st.put i (.posted s) with
          posts := st.posts ++ [⟨s.executeRequest, sender, st.now⟩] }
  | answered (s : PendingStrategy) :
      Ran hasRegistry fault pairPrice i (.posted s)
        (st.slice s.commitmentHash (st.put i .ended))
  | rejected (s : PendingStrategy) :
      Ran hasRegistry fault pairPrice i (.posted s)
        (st.slice s.commitmentHash (st.put i (.rollback s)))
  | rolledBack (s : PendingStrategy) (t : StrategyTable)
      (hu : StrategyRepo.updateStatus fault st.now s.commitmentHash .PENDING st.strategies
        = .ok t) :
      Ran hasRegistry fault pairPrice i (.rollback s)
        { st.put i (.resume { s with status := .PENDING }) with strategies := t }
  | stranded (s : PendingStrategy) :
      Ran hasRegistry fault pairPrice i (.rollback s) (st.put i .ended)
  | resumed (s : PendingStrategy) :
      Ran hasRegistry fault pairPrice i (.resume s) ((st.put i .ended).start s)
  | woken (ticker : Ticker) :
      Ran hasRegistry fault pairPrice i (.idle ticker)
        (st.put i (.find (.periodic (ticker.take st.now))))
  | noneStuck (w : Sweep) :
      Ran hasRegistry fault pairPrice i (.find w) (st.put i (afterReset w))
  | someStuck (w : Sweep) (stuck : List PendingStrategy)
      (hu : StrategyRepo.findStuck fault st.now w.olderThan st.strategies = .ok stuck) :
      Ran hasRegistry fault pairPrice i (.find w) (st.put i (.reset w stuck))
  | notReset (w : Sweep) (stuck : List PendingStrategy) :
      Ran hasRegistry fault pairPrice i (.reset w stuck) (st.put i (afterReset w))
  | rehydrated (stuck : List PendingStrategy) (t : StrategyTable)
      (hu : StrategyRepo.resetStuck fault st.now (stuck.map PendingStrategy.commitmentHash)
        st.strategies = .ok t) :
      Ran hasRegistry fault pairPrice i (.reset .rehydrate stuck)
        { st.put i .list with strategies := t }
  | swept (ticker : Ticker) (stuck : List PendingStrategy) (t : StrategyTable)
      (hu : StrategyRepo.resetStuck fault st.now (stuck.map PendingStrategy.commitmentHash)
        st.strategies = .ok t) :
      Ran hasRegistry fault pairPrice i (.reset (.periodic ticker) stuck)
        { st.put i (.startAll (.periodic ticker)
            (stuck.map fun s => { s with status := .PENDING })) with strategies := t }
  | unlisted :
      Ran hasRegistry fault pairPrice i .list (st.boot i)
  | listed (rows : List PendingStrategy)
      (hu : StrategyRepo.listPending fault st.strategies = .ok rows) :
      Ran hasRegistry fault pairPrice i .list (st.put i (.startAll .rehydrate rows))
  | started (w : Sweep) (s : PendingStrategy) (rest : List PendingStrategy) :
      Ran hasRegistry fault pairPrice i (.startAll w (s :: rest))
        ((st.put i (.startAll w rest)).start s)
  | booted :
      Ran hasRegistry fault pairPrice i (.startAll .rehydrate []) (st.boot i)
  | slept (ticker : Ticker) :
      Ran hasRegistry fault pairPrice i (.startAll (.periodic ticker) [])
        (st.put i (.idle ticker))
  | registered (s : PendingStrategy) :
      Ran hasRegistry fault pairPrice i (.registered s) ((st.put i .ended).start s)
  | stoppedFirst (c : String) :
      Ran hasRegistry fault pairPrice i (.stopFirst c)
        ((st.stop c).put i (.finish c false))
  | marked (c : String) (recovers : Bool) (t : StrategyTable)
      (hu : StrategyRepo.updateStatus fault st.now c .DONE st.strategies = .ok t) :
      Ran hasRegistry fault pairPrice i (.finish c recovers)
        { st.put i (.finished c) with strategies := t }
  | unmarked (c : String) (recovers : Bool) (hsize : 10 ≤ c.utf8ByteSize) :
      Ran hasRegistry fault pairPrice i (.finish c recovers) (st.put i (.finished c))
  | recovered (c : String) (hsize : ¬10 ≤ c.utf8ByteSize) :
      Ran hasRegistry fault pairPrice i (.finish c true) (st.put i .ended)
  | panicked (c : String) (hsize : ¬10 ≤ c.utf8ByteSize) :
      Ran hasRegistry fault pairPrice i (.finish c false) st.crash
  | stopped (c : String) :
      Ran hasRegistry fault pairPrice i (.finished c) ((st.stop c).put i .ended)

variable {st : MonitorState} {st' : MonitorState} {i : ℕ} {j : Routine}

theorem ran_of_run {hasRegistry : Bool} {fault : Fault} {pairPrice : PairPrice}
    {reply : Option ℕ} (h : st.run hasRegistry i fault pairPrice reply j = some st') :
    st.Ran hasRegistry fault pairPrice i j st' := by
  cases j with
  | begin ctx s =>
      cases h
      exact .begun ctx s
  | select l =>
      simp only [run] at h
      split at h
      · rename_i hdue
        cases h
        exact .ticked l hdue
      · cases h
  | evaluate l =>
      simp only [run] at h
      split at h
      · cases h
        exact .unjudged l
      · cases h
        exact .unmet l
      · rename_i v hjudge
        cases h
        exact .judged l v hjudge
  | write l v =>
      simp only [run] at h
      split at h
      · rename_i hdead
        cases h
        exact .cancelled l v hdead
      · rename_i halive
        cases h
        exact .sent l v (eq_false_of_ne_true halive)
  | sent l v =>
      simp only [run] at h
      split at h
      · rename_i t hu
        cases h
        exact .wrote l v t hu
      · cases h
        exact .unwritten l v
  | wrote l v =>
      cases v with
      | expired =>
          cases h
          exact .expired l
      | met =>
          cases h
          exact .met l
  | trigger s sender =>
      cases h
      exact .posted s sender
  | posted s =>
      simp only [run] at h
      split at h
      · cases h
        exact .answered s
      · split at h
        · cases h
          exact .answered s
        · cases h
          exact .rejected s
  | rollback s =>
      simp only [run] at h
      split at h
      · rename_i t hu
        cases h
        exact .rolledBack s t hu
      · cases h
        exact .stranded s
  | resume s =>
      cases h
      exact .resumed s
  | idle ticker =>
      simp only [run] at h
      split at h
      · cases h
        exact .woken ticker
      · cases h
  | find w =>
      simp only [run] at h
      split at h
      · cases h
        exact .noneStuck w
      · cases h
        exact .noneStuck w
      · rename_i s stuck hu
        cases h
        exact .someStuck w (s :: stuck) hu
  | reset w stuck =>
      simp only [run] at h
      split at h
      · cases h
        exact .notReset w stuck
      · rename_i t hu
        cases w with
        | rehydrate =>
            cases h
            exact .rehydrated stuck t hu
        | periodic ticker =>
            cases h
            exact .swept ticker stuck t hu
  | list =>
      simp only [run] at h
      split at h
      · cases h
        exact .unlisted
      · rename_i rows hu
        cases h
        exact .listed rows hu
  | startAll w rest =>
      cases rest with
      | cons s rest =>
          cases h
          exact .started w s rest
      | nil =>
          cases w with
          | rehydrate =>
              cases h
              exact .booted
          | periodic ticker =>
              cases h
              exact .slept ticker
  | registered s =>
      cases h
      exact .registered s
  | stopFirst c =>
      cases h
      exact .stoppedFirst c
  | finish c recovers =>
      simp only [run] at h
      split at h
      · rename_i t hu
        cases h
        exact .marked c recovers t hu
      · split at h
        · rename_i hsize
          cases h
          exact .unmarked c recovers hsize
        · rename_i hsize
          cases recovers with
          | true =>
              cases h
              exact .recovered c hsize
          | false =>
              cases h
              exact .panicked c hsize
  | finished c =>
      cases h
      exact .stopped c
  | ended => cases h

end MonitorState

/-- The process as a machine; a crash ends it. -/
def monitorService (hasRegistry : Bool) : Machine MonitorState MonitorStep where
  step l st := if st.crashed then none else st.step hasRegistry l

/-- The process as it starts, with the rows the database holds. -/
def MonitorState.initial (strategies : StrategyTable) (now : ℤ) : MonitorState :=
  ⟨strategies, .empty, [.find .rehydrate], [], now, false, false⟩

end Zstrategy.Backend
