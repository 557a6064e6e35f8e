/-
Two goroutines and the kind of an execution record. `registerStrategy`
saves the strategy and then upgrades the record, if there is one;
`HandleRegistered` makes the record, of the strategy's kind if there is a
strategy. Each looks for what the other may already have done, so that
either can come first.

The machine takes the calls to the database one by one, of any number of
posts and of events. What it does about one hash is a `Race`, with the two
rows read as their kinds only. The race is lost in one way: the post looks
for the record while the event, having found no strategy, is about to save
it.

The refinement `Intake.Shows` ties the two: what the machine's tables, post
and event look like to the one hash is a state of the race, and a step of
the machine that is about the hash is a step of the race. Whoever else has
posts and events in progress has them for other hashes, and touches neither
row.
-/
import Zstrategy.Backend.IndexerService
import Zstrategy.Lib.Machine

namespace Zstrategy.Backend

open Lib Go

-- ==================================================================== the posts

/-- The call a post is before. -/
inductive PostAt where
  /-- `strategyRepo.Save`. -/
  | saving
  /-- `FindByHash`, in `UpdateExecutionStrategyKind`. -/
  | finding
  /-- `UpdateKind`, there. -/
  | updating
  | finished
  deriving DecidableEq

/-- `registerStrategy` on the strategy it has made of the request. -/
structure Posting where
  strategy : PendingStrategy
  stands : PostAt
  deriving DecidableEq

/-- `UpdateExecutionStrategyKind` after its `FindByHash`. -/
def afterFind : Except String (Option ExecutionRecord) → PostAt
  | .ok (some rec) => if rec.kind = .MARKET then .finished else .updating
  | .ok none => .finished
  | .error _ => .finished

-- =================================================================== the events

/-- The call an event is before. -/
inductive EventAt where
  /-- `ExistsByHash`. -/
  | checking
  /-- `GetByHash`. -/
  | looking
  /-- `Save`, of a record of this kind. -/
  | saving (kind : StrategyKind)
  | finished
  deriving DecidableEq

/-- `HandleRegistered`. -/
structure Registered where
  commitmentHash : String
  kind : String
  chainID : ℤ
  blockTime : ℤ
  stands : EventAt
  deriving DecidableEq

/-- `HandleRegistered` after its `ExistsByHash`. -/
def afterExists : Except String Bool → EventAt
  | .ok true => .finished
  | .ok false => .looking
  | .error _ => .finished

/-- `HandleRegistered` after its `GetByHash`. -/
def afterGet (kind : String) : Except String (Option PendingStrategy) → EventAt
  | .ok (some pending) => .saving pending.kind
  | .ok none => .saving (onChainKindToStrategyKind kind)
  | .error _ => .finished

/-- The record that `HandleRegistered` saves. -/
def Registered.record (e : Registered) (kind : StrategyKind) : ExecutionRecord where
  commitmentHash := e.commitmentHash
  chainID := e.chainID
  status := .registered
  kind := kind
  txHash := ""
  blockNumber := 0
  gasUsed := 0
  registeredAt := e.blockTime
  executedAt := none

-- ================================================================== the machine

/-- The two tables, the posts and the events. -/
structure Intake where
  strategies : StrategyTable
  executions : ExecutionTable
  posts : List Posting
  events : List Registered

inductive IntakeStep where
  /-- The `i`-th post makes its next call. -/
  | post (i : ℕ) (now : ℤ) (fault : Fault)
  /-- The `j`-th event makes its next call. -/
  | event (j : ℕ) (fault : Fault)
  deriving DecidableEq

/-- What goes wrong with the call. -/
def IntakeStep.fault : IntakeStep → Fault
  | .post _ _ fault => fault
  | .event _ fault => fault

namespace Intake

/-- The `i`-th post comes to stand at `a`. -/
def putPost (d : Intake) (i : ℕ) (p : Posting) (a : PostAt) : Intake :=
  { d with posts := d.posts.set i { p with stands := a } }

/-- The `j`-th event comes to stand at `b`. -/
def putEvent (d : Intake) (j : ℕ) (e : Registered) (b : EventAt) : Intake :=
  { d with events := d.events.set j { e with stands := b } }

/-- The next call of a post. Only a MARKET post touches the record. -/
def movePost (d : Intake) (i : ℕ) (p : Posting) (now : ℤ) (fault : Fault) : Option Intake :=
  let h := p.strategy.commitmentHash
  match p.stands with
  | .saving =>
      match StrategyRepo.save fault { p.strategy with updatedAt := now } d.strategies with
      | .ok strategies =>
          some { d.putPost i p (if p.strategy.kind = .MARKET then .finding else .finished) with
            strategies }
      | .error _ => some (d.putPost i p .finished)
  | .finding => some (d.putPost i p (afterFind (ExecutionRepo.findByHash fault h d.executions)))
  | .updating =>
      match ExecutionRepo.updateKind fault h .MARKET d.executions with
      | .ok executions => some { d.putPost i p .finished with executions }
      | .error _ => some (d.putPost i p .finished)
  | .finished => none

/-- The next call of an event. -/
def moveEvent (d : Intake) (j : ℕ) (e : Registered) (fault : Fault) : Option Intake :=
  let h := e.commitmentHash
  match e.stands with
  | .checking =>
      some (d.putEvent j e (afterExists (ExecutionRepo.existsByHash fault h d.executions)))
  | .looking =>
      some (d.putEvent j e (afterGet e.kind (StrategyRepo.getByHash fault h d.strategies)))
  | .saving kind =>
      match ExecutionRepo.save fault (e.record kind) d.executions with
      | .ok executions => some { d.putEvent j e .finished with executions }
      | .error _ => some (d.putEvent j e .finished)
  | .finished => none

def step (d : Intake) : IntakeStep → Option Intake
  | .post i now fault => (d.posts[i]?).bind fun p => d.movePost i p now fault
  | .event j fault => (d.events[j]?).bind fun e => d.moveEvent j e fault

end Intake

/-- Posts and events, in any order. -/
def intake : Machine Intake IntakeStep where
  step l d := d.step l

-- ==================================================================== one hash

/-- Where the post and the event of one hash stand, and the kinds of its
two rows. -/
structure Race where
  post : PostAt
  event : EventAt
  strategy : Option StrategyKind
  record : Option StrategyKind

namespace Race

/-- Neither has begun. -/
def start : Race := ⟨.saving, .checking, none, none⟩

/-- The post makes its next call. -/
def movePost (r : Race) : Race :=
  match r.post with
  | .saving =>
      if r.strategy = none then { r with post := .finding, strategy := some .MARKET }
      else { r with post := .finished }
  | .finding =>
      if r.record = none ∨ r.record = some .MARKET then { r with post := .finished }
      else { r with post := .updating }
  | .updating => { r with post := .finished, record := r.record.map fun _ => .MARKET }
  | .finished => r

/-- The event, on the chain of this kind, makes its next call. -/
def moveEvent (onChain : StrategyKind) (r : Race) : Race :=
  match r.event with
  | .checking => { r with event := if r.record = none then .looking else .finished }
  | .looking => { r with event := .saving (r.strategy.getD onChain) }
  | .saving kind =>
      if r.record = none then { r with event := .finished, record := some kind }
      else { r with event := .finished }
  | .finished => r

/-- The post is about to look for a record that the event is about to save
under another kind. -/
def Overtaking (r : Race) : Prop :=
  r.post = .finding ∧ ∃ k, k ≠ .MARKET ∧ r.event = .saving k

/-- Nothing has gone wrong. -/
structure Kept (r : Race) : Prop where
  strategy : r.strategy = if r.post = .saving then none else some .MARKET
  record : r.event ≠ .finished → r.record = none ∧ r.post ≠ .updating
  held : ∀ k, r.event = .saving k → r.post = .finished → k = .MARKET
  done : r.event = .finished → ∃ k, r.record = some k ∧ (r.post = .finished → k = .MARKET)

/-- The post is through and the record has, or gets, the wrong kind. -/
def Lost (r : Race) : Prop :=
  r.post = .finished ∧ ∃ k, k ≠ .MARKET
    ∧ ((r.event = .saving k ∧ r.record = none) ∨ (r.event = .finished ∧ r.record = some k))

/-- Nothing is lost at the start. -/
theorem kept_start : Kept start := by
  refine ⟨rfl, fun _ => ⟨rfl, by decide⟩, ?_, ?_⟩
  · intro k hk
    cases hk
  · intro h
    cases h

variable {r : Race} {onChain : StrategyKind}

/-- The post moves, unless it overtakes. -/
theorem Kept.movePost (h : r.Kept) (ho : ¬ r.Overtaking) : r.movePost.Kept := by
  obtain ⟨hstrategy, hrecord, hheld, hdone⟩ := h
  unfold Race.movePost
  cases hp : r.post with
  | saving =>
      rw [hp, if_pos rfl] at hstrategy
      dsimp only
      rw [if_pos hstrategy]
      refine ⟨rfl, fun he => ⟨(hrecord he).1, PostAt.noConfusion⟩, ?_, ?_⟩
      · intro k _ hf
        cases hf
      · intro he
        obtain ⟨k, hk, -⟩ := hdone he
        exact ⟨k, hk, PostAt.noConfusion⟩
  | finding =>
      rw [hp] at hstrategy
      dsimp only
      by_cases hr : r.record = none ∨ r.record = some .MARKET
      · rw [if_pos hr]
        refine ⟨hstrategy, fun he => ⟨(hrecord he).1, PostAt.noConfusion⟩, ?_, ?_⟩
        · -- the step on which the race is lost
          intro k he _
          by_contra hk
          exact ho ⟨hp, k, hk, he⟩
        · intro he
          obtain ⟨k, hk, -⟩ := hdone he
          rw [hk] at hr
          exact ⟨k, hk, fun _ => by simpa using hr⟩
      · rw [if_neg hr]
        have hend : r.event = .finished := by
          by_contra he
          exact hr (.inl (hrecord he).1)
        refine ⟨hstrategy, fun he => absurd hend he, ?_, ?_⟩
        · intro k _ hf
          cases hf
        · intro he
          obtain ⟨k, hk, -⟩ := hdone he
          exact ⟨k, hk, PostAt.noConfusion⟩
  | updating =>
      rw [hp] at hstrategy
      have hend : r.event = .finished := by
        by_contra he
        exact (hrecord he).2 hp
      obtain ⟨k, hk, -⟩ := hdone hend
      refine ⟨hstrategy, fun he => absurd hend he, ?_, fun _ => ⟨.MARKET, ?_, fun _ => rfl⟩⟩
      · intro k he
        cases hend.symm.trans he
      · dsimp only
        rw [hk, Option.map_some]
  | finished => exact ⟨hstrategy, hrecord, hheld, hdone⟩

/-- The event moves. -/
theorem Kept.moveEvent (h : r.Kept) : (r.moveEvent onChain).Kept := by
  obtain ⟨hstrategy, hrecord, hheld, hdone⟩ := h
  have hopen : r.event ≠ .finished → r.record = none := fun he => (hrecord he).1
  unfold Race.moveEvent
  cases he : r.event with
  | checking =>
      rw [he] at hrecord hopen
      dsimp only
      rw [if_pos (hopen EventAt.noConfusion)]
      exact ⟨hstrategy, fun _ => hrecord EventAt.noConfusion, fun _ => EventAt.noConfusion,
        EventAt.noConfusion⟩
  | looking =>
      rw [he] at hrecord
      refine ⟨hstrategy, fun _ => hrecord EventAt.noConfusion, ?_, EventAt.noConfusion⟩
      intro k hk hp
      have hmarket : r.strategy = some .MARKET := by
        rw [hstrategy, if_neg (hp.trans_ne PostAt.noConfusion)]
      dsimp only at hk
      rw [hmarket] at hk
      exact (EventAt.saving.inj hk).symm
  | saving kind =>
      rw [he] at hopen
      dsimp only
      rw [if_pos (hopen EventAt.noConfusion)]
      exact ⟨hstrategy, fun hk => absurd rfl hk, fun _ => EventAt.noConfusion,
        fun _ => ⟨kind, rfl, hheld kind he⟩⟩
  | finished => exact ⟨hstrategy, hrecord, hheld, hdone⟩

/-- On a kept race the post finds nothing while the event still has its
record to save. -/
theorem Kept.lost_of_overtaking (h : r.Kept) (ho : r.Overtaking) : r.movePost.Lost := by
  obtain ⟨hp, k, hk, he⟩ := ho
  obtain ⟨hnone, -⟩ := h.record (he.trans_ne EventAt.noConfusion)
  unfold Race.movePost
  rw [hp]
  dsimp only
  rw [if_pos (.inl hnone)]
  exact ⟨rfl, k, hk, .inl ⟨he, hnone⟩⟩

/-- What is lost stays lost when the post moves. -/
theorem Lost.movePost (h : r.Lost) : r.movePost.Lost := by
  unfold Race.movePost
  rw [h.1]
  exact h

/-- And when the event does. -/
theorem Lost.moveEvent (h : r.Lost) : (r.moveEvent onChain).Lost := by
  obtain ⟨hp, k, hk, hcase⟩ := h
  unfold Race.moveEvent
  rcases hcase with ⟨he, hnone⟩ | ⟨he, hrec⟩
  · rw [he]
    dsimp only
    rw [if_pos hnone]
    exact ⟨hp, k, hk, .inr ⟨rfl, rfl⟩⟩
  · rw [he]
    exact ⟨hp, k, hk, .inr ⟨he, hrec⟩⟩

/-- A call: of the `i`-th post, of the `j`-th event, or of neither. -/
def next (i j : ℕ) (onChain : StrategyKind) (r : Race) : IntakeStep → Race
  | .post i' _ _ => if i' = i then r.movePost else r
  | .event j' _ => if j' = j then r.moveEvent onChain else r

end Race

-- ================================================================= the refinement

/-- The machine holds, for the hash `h`, one MARKET post, one event and two
rows, and they stand as in `r`. -/
structure Intake.Shows (h : String) (i j : ℕ) (onChain : StrategyKind) (d : Intake)
    (r : Race) : Prop where
  post : ∃ s : PendingStrategy,
    d.posts[i]? = some ⟨s, r.post⟩ ∧ s.commitmentHash = h ∧ s.kind = .MARKET
  event : ∃ e : Registered, d.events[j]? = some e ∧ e.commitmentHash = h
    ∧ onChainKindToStrategyKind e.kind = onChain ∧ e.stands = r.event
  onlyPost : ∀ (i' : ℕ) p, d.posts[i']? = some p → p.strategy.commitmentHash = h → i' = i
  onlyEvent : ∀ (j' : ℕ) e, d.events[j']? = some e → e.commitmentHash = h → j' = j
  strategy : (d.strategies.find h).map PendingStrategy.kind = r.strategy
  record : (d.executions.find h).map ExecutionRecord.kind = r.record

namespace Intake

variable {h : String} {i j i' j' : ℕ} {onChain : StrategyKind} {d d' : Intake} {r : Race}

/-- A post moves, and with it the tables. -/
theorem Shows.putPost (hs : d.Shows h i j onChain r) {p : Posting} (hp : d.posts[i']? = some p)
    (a : PostAt) (t : StrategyTable) (u : ExecutionTable) :
    Shows h i j onChain { d.putPost i' p a with strategies := t, executions := u }
      ⟨if i' = i then a else r.post, r.event, (t.find h).map PendingStrategy.kind,
        (u.find h).map ExecutionRecord.kind⟩ := by
  obtain ⟨⟨s, hpost, hhash, hkind⟩, hevent, honly, honly', -, -⟩ := hs
  refine ⟨⟨s, ?_, hhash, hkind⟩, hevent, fun n q hq hqh => ?_, honly', rfl, rfl⟩
  · unfold Intake.putPost
    obtain ⟨hlt, -⟩ := List.getElem?_eq_some_iff.1 hp
    by_cases hi : i' = i
    · subst hi
      have heq : p = ⟨s, r.post⟩ := Option.some.inj (hp.symm.trans hpost)
      rw [if_pos rfl, heq, List.getElem?_set_self hlt]
    · rw [if_neg hi, List.getElem?_set_ne hi, hpost]
  · obtain ⟨q', hq', hsame⟩ : ∃ q', d.posts[n]? = some q' ∧ q'.strategy = q.strategy := by
      unfold Intake.putPost at hq
      by_cases hn : i' = n
      · subst hn
        obtain ⟨hlt, -⟩ := List.getElem?_eq_some_iff.1 hp
        rw [List.getElem?_set_self hlt] at hq
        rw [← Option.some.inj hq]
        exact ⟨p, hp, rfl⟩
      · rw [List.getElem?_set_ne hn] at hq
        exact ⟨q, hq, rfl⟩
    exact honly n q' hq' (hsame ▸ hqh)

/-- An event moves, and with it the records. -/
theorem Shows.putEvent (hs : d.Shows h i j onChain r) {e : Registered}
    (he : d.events[j']? = some e) (b : EventAt) (u : ExecutionTable) :
    Shows h i j onChain { d.putEvent j' e b with executions := u }
      ⟨r.post, if j' = j then b else r.event, r.strategy,
        (u.find h).map ExecutionRecord.kind⟩ := by
  obtain ⟨hpost, ⟨e₀, hevent, hhash, hkind, hstands⟩, honly, honly', hstrategy, -⟩ := hs
  refine ⟨hpost, ?_, honly, fun n q hq hqh => ?_, hstrategy, rfl⟩
  · unfold Intake.putEvent
    obtain ⟨hlt, -⟩ := List.getElem?_eq_some_iff.1 he
    by_cases hj : j' = j
    · subst hj
      have heq : e = e₀ := Option.some.inj (he.symm.trans hevent)
      rw [if_pos rfl, List.getElem?_set_self hlt, heq]
      exact ⟨_, rfl, hhash, hkind, rfl⟩
    · rw [if_neg hj, List.getElem?_set_ne hj]
      exact ⟨e₀, hevent, hhash, hkind, hstands⟩
  · obtain ⟨q', hq', hsame⟩ :
        ∃ q', d.events[n]? = some q' ∧ q'.commitmentHash = q.commitmentHash := by
      unfold Intake.putEvent at hq
      by_cases hn : j' = n
      · subst hn
        obtain ⟨hlt, -⟩ := List.getElem?_eq_some_iff.1 he
        rw [List.getElem?_set_self hlt] at hq
        rw [← Option.some.inj hq]
        exact ⟨e, he, rfl⟩
      · rw [List.getElem?_set_ne hn] at hq
        exact ⟨q, hq, rfl⟩
    exact honly' n q' hq' (hsame ▸ hqh)

/-- Without a fault only a row that is already there keeps one from being
saved. -/
theorem exists_of_save_strategy {s : PendingStrategy} {t : StrategyTable} {e : String}
    (h : StrategyRepo.save none s t = .error e) : t.find s.commitmentHash ≠ none := by
  intro hfind
  obtain ⟨t', ht'⟩ := Table.exists_insert hfind
  rw [StrategyRepo.save_eq_ok.2 ⟨rfl, ht'⟩] at h
  cases h

/-- Without a fault, a save fails only where there is a record. -/
theorem exists_of_save_record {rec : ExecutionRecord} {t : ExecutionTable} {e : String}
    (h : ExecutionRepo.save none rec t = .error e) : t.find rec.commitmentHash ≠ none := by
  intro hfind
  obtain ⟨t', ht'⟩ := Table.exists_insert hfind
  rw [ExecutionRepo.save_eq_ok.2 ⟨rfl, ht'⟩] at h
  cases h

/-- The post of the hash makes its next call. -/
theorem Shows.moveOwnPost (hs : d.Shows h i j onChain r) {p : Posting} {now : ℤ}
    (hp : d.posts[i]? = some p) (hstep : d.movePost i p now none = some d') :
    d'.Shows h i j onChain r.movePost := by
  have hput := hs.putPost hp
  simp only [↓reduceIte] at hput
  obtain ⟨⟨s, hpost, rfl, hkind⟩, -, -, -, hstrategy, hrecord⟩ := hs
  obtain rfl : p = ⟨s, r.post⟩ := Option.some.inj (hp.symm.trans hpost)
  unfold Intake.movePost at hstep
  unfold Race.movePost
  cases hr : r.post with
  | saving =>
      rw [hr] at hstep
      dsimp only at hstep ⊢
      rw [hr] at hput
      split at hstep
      · rename_i t ht
        cases hstep
        obtain ⟨-, hinsert⟩ := StrategyRepo.save_eq_ok.1 ht
        have hfresh : d.strategies.find s.commitmentHash = none := by
          have hnone := Table.fresh_of_insert hinsert
          exact hnone
        rw [hfresh, Option.map_none] at hstrategy
        rw [if_pos hkind, if_pos hstrategy.symm, ← hrecord]
        have hfind := Table.find_insert hinsert s.commitmentHash
        rw [if_pos rfl] at hfind
        have hshows := hput .finding t d.executions
        rw [hfind, Option.map_some] at hshows
        exact hkind ▸ hshows
      · rename_i e he
        cases hstep
        have hsome : r.strategy ≠ none := by
          rw [← hstrategy, Ne, Option.map_eq_none_iff]
          have hold := exists_of_save_strategy he
          exact hold
        rw [if_neg hsome, ← hstrategy, ← hrecord]
        exact hput .finished d.strategies d.executions
  | finding =>
      rw [hr] at hstep hput
      dsimp only at hstep ⊢
      cases hstep
      have hshows : ∀ a, (d.putPost i ⟨s, .finding⟩ a).Shows s.commitmentHash i j onChain
          { r with post := a } := by
        intro a
        have hshows := hput a d.strategies d.executions
        rw [hstrategy, hrecord] at hshows
        exact hshows
      unfold ExecutionRepo.findByHash query
      cases hfind : d.executions.find s.commitmentHash with
      | none =>
          rw [hfind] at hrecord
          rw [if_pos (.inl hrecord.symm)]
          exact hshows .finished
      | some rec =>
          rw [hfind, Option.map_some] at hrecord
          unfold afterFind
          dsimp only
          by_cases hmarket : rec.kind = .MARKET
          · rw [if_pos hmarket, if_pos (.inr (by rw [← hrecord, hmarket]))]
            exact hshows .finished
          · have hother : ¬(r.record = none ∨ r.record = some .MARKET) := by
              rw [← hrecord]
              simpa using hmarket
            rw [if_neg hmarket, if_neg hother]
            exact hshows .updating
  | updating =>
      rw [hr] at hstep hput
      dsimp only at hstep ⊢
      unfold ExecutionRepo.updateKind query at hstep
      dsimp only at hstep
      cases hstep
      have hfind := Table.find_update d.executions s.commitmentHash
        (fun rec => { rec with kind := .MARKET }) (fun _ => rfl) s.commitmentHash
      rw [if_pos rfl] at hfind
      have hshows := hput .finished d.strategies (d.executions.update s.commitmentHash
        (fun rec => { rec with kind := .MARKET }) fun _ => rfl)
      rw [hfind, hstrategy, Option.map_map] at hshows
      rw [← hrecord, Option.map_map]
      exact hshows
  | finished =>
      rw [hr] at hstep
      cases hstep

/-- A post of another hash leaves both rows alone. -/
theorem Shows.moveOtherPost (hs : d.Shows h i j onChain r) (hi : i' ≠ i) {p : Posting} {now : ℤ}
    (hp : d.posts[i']? = some p) (hstep : d.movePost i' p now none = some d') :
    d'.Shows h i j onChain r := by
  have hne : p.strategy.commitmentHash ≠ h := fun heq => hi (hs.onlyPost i' p hp heq)
  have hput : ∀ a (t : StrategyTable) (u : ExecutionTable),
      t.find h = d.strategies.find h → u.find h = d.executions.find h →
      Shows h i j onChain { d.putPost i' p a with strategies := t, executions := u } r := by
    intro a t u ht hu
    have hshows := hs.putPost hp a t u
    rw [if_neg hi, ht, hu, hs.strategy, hs.record] at hshows
    exact hshows
  unfold Intake.movePost at hstep
  cases hr : p.stands with
  | saving =>
      rw [hr] at hstep
      dsimp only at hstep
      split at hstep
      · rename_i t ht
        cases hstep
        obtain ⟨-, hinsert⟩ := StrategyRepo.save_eq_ok.1 ht
        refine hput _ t d.executions ?_ rfl
        rw [Table.find_insert hinsert, if_neg hne]
      · cases hstep
        exact hput .finished d.strategies d.executions rfl rfl
  | finding =>
      rw [hr] at hstep
      cases hstep
      exact hput _ d.strategies d.executions rfl rfl
  | updating =>
      rw [hr] at hstep
      cases hstep
      refine hput .finished d.strategies (d.executions.update _ _ _) rfl ?_
      rw [Table.find_update, if_neg hne.symm]
  | finished =>
      rw [hr] at hstep
      cases hstep

/-- The event of the hash makes its next call. -/
theorem Shows.moveOwnEvent (hs : d.Shows h i j onChain r) {e : Registered}
    (he : d.events[j]? = some e) (hstep : d.moveEvent j e none = some d') :
    d'.Shows h i j onChain (r.moveEvent onChain) := by
  have hput := hs.putEvent he
  simp only [↓reduceIte] at hput
  obtain ⟨-, ⟨e₀, hevent, rfl, hchain, hstands⟩, -, -, hstrategy, hrecord⟩ := hs
  obtain rfl : e = e₀ := Option.some.inj (he.symm.trans hevent)
  have hsame : ∀ b, (d.putEvent j e b).Shows e.commitmentHash i j onChain
      { r with event := b } := by
    intro b
    have hshows := hput b d.executions
    rw [hrecord] at hshows
    exact hshows
  unfold Intake.moveEvent at hstep
  unfold Race.moveEvent
  rw [hstands] at hstep
  cases hr : r.event with
  | checking =>
      rw [hr] at hstep
      cases hstep
      unfold ExecutionRepo.existsByHash query
      cases hfind : d.executions.find e.commitmentHash with
      | none =>
          rw [hfind, Option.map_none] at hrecord
          rw [if_pos hrecord.symm]
          exact hsame .looking
      | some rec =>
          have hsome : r.record ≠ none := by
            rw [← hrecord, hfind]
            exact Option.some_ne_none _
          rw [if_neg hsome]
          exact hsame .finished
  | looking =>
      rw [hr] at hstep
      cases hstep
      unfold StrategyRepo.getByHash query
      cases hfind : d.strategies.find e.commitmentHash with
      | none =>
          rw [hfind] at hstrategy
          dsimp only [afterGet]
          rw [← hstrategy, Option.map_none, Option.getD_none, ← hchain]
          have hshows := hsame (.saving (onChainKindToStrategyKind e.kind))
          rw [← hstrategy, ← hchain] at hshows
          exact hshows
      | some pending =>
          rw [hfind] at hstrategy
          dsimp only [afterGet]
          rw [← hstrategy, Option.map_some, Option.getD_some]
          have hshows := hsame (.saving pending.kind)
          rw [← hstrategy] at hshows
          exact hshows
  | saving kind =>
      rw [hr] at hstep
      dsimp only at hstep ⊢
      split at hstep
      · rename_i u hu
        cases hstep
        obtain ⟨-, hinsert⟩ := ExecutionRepo.save_eq_ok.1 hu
        have hfresh : d.executions.find e.commitmentHash = none := by
          have hnone := Table.fresh_of_insert hinsert
          exact hnone
        rw [hfresh, Option.map_none] at hrecord
        rw [if_pos hrecord.symm]
        have hfind : u.find e.commitmentHash = some (e.record kind) := by
          have hkey : (e.record kind).commitmentHash = e.commitmentHash := rfl
          rw [Table.find_insert hinsert, if_pos hkey]
        have hshows := hput .finished u
        rw [hfind] at hshows
        exact hshows
      · rename_i err herr
        cases hstep
        have hsome : r.record ≠ none := by
          rw [← hrecord, Ne, Option.map_eq_none_iff]
          have hold := exists_of_save_record herr
          exact hold
        rw [if_neg hsome]
        exact hsame .finished
  | finished =>
      rw [hr] at hstep
      cases hstep

/-- An event of another hash leaves both rows alone. -/
theorem Shows.moveOtherEvent (hs : d.Shows h i j onChain r) (hj : j' ≠ j) {e : Registered}
    (he : d.events[j']? = some e) (hstep : d.moveEvent j' e none = some d') :
    d'.Shows h i j onChain r := by
  have hne : e.commitmentHash ≠ h := fun heq => hj (hs.onlyEvent j' e he heq)
  have hput : ∀ b (u : ExecutionTable), u.find h = d.executions.find h →
      Shows h i j onChain { d.putEvent j' e b with executions := u } r := by
    intro b u hu
    have hshows := hs.putEvent he b u
    rw [if_neg hj, hu, hs.record] at hshows
    exact hshows
  unfold Intake.moveEvent at hstep
  cases hr : e.stands with
  | checking =>
      rw [hr] at hstep
      cases hstep
      exact hput _ d.executions rfl
  | looking =>
      rw [hr] at hstep
      cases hstep
      exact hput _ d.executions rfl
  | saving kind =>
      rw [hr] at hstep
      dsimp only at hstep
      split at hstep
      · rename_i u hu
        cases hstep
        obtain ⟨-, hinsert⟩ := ExecutionRepo.save_eq_ok.1 hu
        refine hput _ u ?_
        have hother : (e.record kind).commitmentHash ≠ h := hne
        rw [Table.find_insert hinsert, if_neg hother]
      · cases hstep
        exact hput .finished d.executions rfl
  | finished =>
      rw [hr] at hstep
      cases hstep

/-- The machine does to the two rows what the race does. -/
theorem Shows.step (hs : d.Shows h i j onChain r) {l : IntakeStep} (hl : l.fault = none)
    (hstep : d.step l = some d') : d'.Shows h i j onChain (r.next i j onChain l) := by
  cases l with
  | post i' now fault =>
      cases hl
      obtain ⟨p, hp, hmove⟩ := Option.bind_eq_some_iff.1 hstep
      unfold Race.next
      dsimp only
      by_cases hi : i' = i
      · subst hi
        rw [if_pos rfl]
        exact hs.moveOwnPost hp hmove
      · rw [if_neg hi]
        exact hs.moveOtherPost hi hp hmove
  | event j' fault =>
      cases hl
      obtain ⟨e, he, hmove⟩ := Option.bind_eq_some_iff.1 hstep
      unfold Race.next
      dsimp only
      by_cases hj : j' = j
      · subst hj
        rw [if_pos rfl]
        exact hs.moveOwnEvent he hmove
      · rw [if_neg hj]
        exact hs.moveOtherEvent hj he hmove

/-- One post of kind MARKET and one event of the hash `h`, the `i`-th and
the `j`-th, neither begun; nothing is stored under `h`. -/
structure Once (h : String) (i j : ℕ) (d : Intake) : Prop where
  post : ∃ s : PendingStrategy,
    d.posts[i]? = some ⟨s, .saving⟩ ∧ s.commitmentHash = h ∧ s.kind = .MARKET
  event : ∃ e : Registered,
    d.events[j]? = some e ∧ e.commitmentHash = h ∧ e.stands = .checking
  onlyPost : ∀ (i' : ℕ) p, d.posts[i']? = some p → p.strategy.commitmentHash = h → i' = i
  onlyEvent : ∀ (j' : ℕ) e, d.events[j']? = some e → e.commitmentHash = h → j' = j
  strategy : d.strategies.find h = none
  record : d.executions.find h = none

/-- The post of `h` looks for the record while the event of `h` is about to
save it under a kind that is not MARKET. -/
def TooEarly (i j : ℕ) (d : Intake) (l : IntakeStep) : Prop :=
  (∃ now fault, l = .post i now fault)
    ∧ (∃ p, d.posts[i]? = some p ∧ p.stands = .finding)
    ∧ ∃ e, d.events[j]? = some e ∧ ∃ k, k ≠ .MARKET ∧ e.stands = .saving k

/-- Both are through. -/
def Through (i j : ℕ) (d : Intake) : Prop :=
  (∃ p, d.posts[i]? = some p ∧ p.stands = .finished)
    ∧ ∃ e, d.events[j]? = some e ∧ e.stands = .finished

/-- At the start both are before their first call. -/
theorem Once.shows (hd : d.Once h i j) : ∃ onChain, d.Shows h i j onChain Race.start := by
  obtain ⟨hpost, ⟨e, he, hhash, hstands⟩, honly, honly', hstrategy, hrecord⟩ := hd
  refine ⟨onChainKindToStrategyKind e.kind, hpost, ⟨e, he, hhash, rfl, hstands⟩, honly, honly',
    ?_, ?_⟩
  · rw [hstrategy]
    rfl
  · rw [hrecord]
    rfl

/-- The step that comes too early is the one that overtakes. -/
theorem Shows.tooEarly_iff (hs : d.Shows h i j onChain r) (now : ℤ) (fault : Fault) :
    d.TooEarly i j (.post i now fault) ↔ r.Overtaking := by
  obtain ⟨⟨s, hpost, -, -⟩, ⟨e, hevent, -, -, hstands⟩, -, -, -, -⟩ := hs
  constructor
  · intro ht
    obtain ⟨-, ⟨p, hp, hfinding⟩, e', he', k, hk, hsaving⟩ := ht
    cases hpost.symm.trans hp
    cases hevent.symm.trans he'
    exact ⟨hfinding, k, hk, hstands ▸ hsaving⟩
  · intro ho
    obtain ⟨hfinding, k, hk, hsaving⟩ := ho
    exact ⟨⟨now, fault, rfl⟩, ⟨_, hpost, hfinding⟩, e, hevent, k, hk, hstands.trans hsaving⟩

/-- When both are through, so is the race. -/
theorem Shows.through (hs : d.Shows h i j onChain r) (hd : d.Through i j) :
    r.post = .finished ∧ r.event = .finished := by
  obtain ⟨⟨s, hpost, -, -⟩, ⟨e, hevent, -, -, hstands⟩, -, -, -, -⟩ := hs
  obtain ⟨⟨p, hp, hfinished⟩, e', he', hfinished'⟩ := hd
  cases hpost.symm.trans hp
  cases hevent.symm.trans he'
  exact ⟨hfinished, hstands ▸ hfinished'⟩

end Intake

-- ===================================================================== the runs

section runs

variable {h : String} {i j : ℕ} {onChain : StrategyKind} {r : Race}

/-- A step of anybody keeps the race, if the post does not overtake. -/
theorem Race.Kept.next (hr : r.Kept) {l : IntakeStep}
    (ho : ∀ now fault, l = .post i now fault → ¬ r.Overtaking) :
    (r.next i j onChain l).Kept := by
  unfold Race.next
  cases l with
  | post i' now fault =>
      dsimp only
      split
      · rename_i hi
        exact hr.movePost (ho now fault (by rw [hi]))
      · exact hr
  | event j' fault =>
      dsimp only
      split
      · exact hr.moveEvent
      · exact hr

/-- No step wins it back. -/
theorem Race.Lost.next (hr : r.Lost) (l : IntakeStep) : (r.next i j onChain l).Lost := by
  unfold Race.next
  cases l with
  | post i' now fault =>
      dsimp only
      split
      · exact hr.movePost
      · exact hr
  | event j' fault =>
      dsimp only
      split
      · exact hr.moveEvent
      · exact hr

/-- Without a step taken too early the race is kept. -/
theorem kept_of_run {start d : Intake} (hstart : start.Once h i j)
    (hrun : intake.Run (fun d l => l.fault = none ∧ ¬ d.TooEarly i j l) start d) :
    ∃ onChain r, d.Shows h i j onChain r ∧ r.Kept := by
  refine hrun.inv (I := fun d => ∃ onChain r, d.Shows h i j onChain r ∧ r.Kept) ?_ ?_
  · intro d l d' hd hl hstep
    obtain ⟨onChain, r, hs, hr⟩ := hd
    refine ⟨onChain, _, hs.step hl.1 hstep, hr.next fun now fault heq => ?_⟩
    rw [heq, hs.tooEarly_iff] at hl
    exact hl.2
  · obtain ⟨onChain, hs⟩ := hstart.shows
    exact ⟨onChain, _, hs, Race.kept_start⟩

/-- Any run either takes no step too early or has lost the race. -/
theorem run_or_lost {start d : Intake} (hstart : start.Once h i j)
    (hrun : intake.Run (fun _ l => l.fault = none) start d) :
    intake.Run (fun d l => l.fault = none ∧ ¬ d.TooEarly i j l) start d
      ∨ ∃ onChain r, d.Shows h i j onChain r ∧ r.Lost := by
  induction hrun with
  | refl => exact .inl (.refl _)
  | @tail d d' l hrun hl hstep ih =>
      rcases ih with hkept | ⟨onChain, r, hs, hr⟩
      · by_cases hearly : d.TooEarly i j l
        · obtain ⟨onChain, r, hs, hr⟩ := kept_of_run hstart hkept
          obtain ⟨now, fault, heq⟩ := hearly.1
          subst heq
          have ho := (hs.tooEarly_iff now fault).1 hearly
          have hlost := hr.lost_of_overtaking ho
          have hs' := hs.step hl hstep
          rw [Race.next, if_pos rfl] at hs'
          exact .inr ⟨onChain, _, hs', hlost⟩
        · exact .inl (hkept.tail l ⟨hl, hearly⟩ hstep)
      · exact .inr ⟨onChain, _, hs.step hl hstep, hr.next l⟩

/-- MARKET keeps its kind exactly in the runs in which the post never looks
for the record between the event's fruitless look for the strategy and the
event's save. -/
theorem market_kind_kept_iff {start d : Intake} (hstart : start.Once h i j)
    (hrun : intake.Run (fun _ l => l.fault = none) start d) (hd : d.Through i j) :
    (∃ rec, d.executions.find h = some rec ∧ rec.kind = .MARKET)
      ↔ intake.Run (fun d l => l.fault = none ∧ ¬ d.TooEarly i j l) start d := by
  constructor
  · intro hmarket
    obtain ⟨rec, hrec, hkind⟩ := hmarket
    rcases run_or_lost hstart hrun with hkept | ⟨onChain, r, hs, -, k, hk, hlost⟩
    · exact hkept
    · exfalso
      obtain ⟨-, hend⟩ := hs.through hd
      rcases hlost with ⟨hsaving, -⟩ | ⟨-, hrecord⟩
      · cases hend.symm.trans hsaving
      · rw [← hs.record, hrec, Option.map_some, Option.some.injEq, hkind] at hrecord
        exact hk hrecord.symm
  · intro hkept
    obtain ⟨onChain, r, hs, hr⟩ := kept_of_run hstart hkept
    obtain ⟨hpost, hend⟩ := hs.through hd
    obtain ⟨k, hk, hmarket⟩ := hr.done hend
    obtain ⟨rec, hrec, hkind⟩ := Option.map_eq_some_iff.1 (hs.record.trans hk)
    exact ⟨rec, hrec, hkind.trans (hmarket hpost)⟩

end runs

-- =================================================================== the samples

/-- A MARKET order as the page posts it. -/
def raceStrategy : PendingStrategy where
  commitmentHash := sampleHash
  chainID := 421614
  kind := .MARKET
  tokenIn := "0x01"
  tokenOut := "0x02"
  size := "1000"
  minOut := "900"
  expiry := 2000
  limitPrice := "0"
  direction := 0
  nonce := "0x03"
  nullifier := "0x04"
  scheduledLo := none
  scheduledHi := none
  status := .PENDING
  updatedAt := 0

/-- It is posted when its event fires. -/
def raceIntake : Intake where
  strategies := .empty
  executions := .empty
  posts := [⟨raceStrategy, .saving⟩]
  events := [⟨sampleHash, "ORDER_FILL", 421614, 1000, .checking⟩]

/-- One post and one event, of one hash. -/
theorem raceIntake_once : raceIntake.Once sampleHash 0 0 := by
  refine ⟨⟨_, rfl, rfl, rfl⟩, ⟨_, rfl, rfl, rfl⟩, ?_, ?_, rfl, rfl⟩
  · intro i p hp _
    have hlt := (List.getElem?_eq_some_iff.1 hp).1
    simpa [raceIntake] using hlt
  · intro j e he _
    have hlt := (List.getElem?_eq_some_iff.1 he).1
    simpa [raceIntake] using hlt

/-- The event looks for the record and the strategy, the post saves and
looks, the event saves, the post upgrades. -/
def keptSteps : List IntakeStep :=
  [.event 0 none, .event 0 none, .post 0 1000 none, .event 0 none, .post 0 1001 none,
    .post 0 1002 none]

/-- A run in which each comes before the other once, and the kind is
kept. -/
theorem market_kind_kept_iff_sample :
    ∃ d, intake.play keptSteps raceIntake = some d
      ∧ (d.executions.find sampleHash).map ExecutionRecord.kind = some .MARKET
      ∧ intake.Run (fun d l => l.fault = none ∧ ¬ d.TooEarly 0 0 l) raceIntake d := by
  have hplay : (intake.play keptSteps raceIntake).isSome = true := by decide +kernel
  obtain ⟨d, hd⟩ := Option.isSome_iff_exists.1 hplay
  have hrun : intake.Run (fun _ l => l.fault = none) raceIntake d :=
    .of_play (fun _ l hl => (show ∀ l ∈ keptSteps, l.fault = none by decide) l hl) hd
  obtain rfl : d = Option.get _ hplay := by simp [hd]
  have hthrough : (Option.get _ hplay).Through 0 0 := ⟨⟨_, rfl, rfl⟩, _, rfl, rfl⟩
  have hkind : ((Option.get _ hplay).executions.find sampleHash).map ExecutionRecord.kind
      = some .MARKET := by
    rfl
  refine ⟨_, hd, hkind, (market_kind_kept_iff raceIntake_once hrun hthrough).1 ?_⟩
  obtain ⟨rec, hrec, hmarket⟩ := Option.map_eq_some_iff.1 hkind
  exact ⟨rec, hrec, hmarket⟩

/-- The post looks for the record one call before the event saves it. -/
def lostSteps : List IntakeStep :=
  [.event 0 none, .event 0 none, .post 0 1000 none, .post 0 1001 none, .event 0 none]

/-- A run in which the post overtakes, and the record says LIMIT. -/
theorem market_kind_lost :
    raceIntake.Once sampleHash 0 0 ∧ (∀ l ∈ lostSteps, l.fault = none)
      ∧ ∃ d, intake.play lostSteps raceIntake = some d ∧ d.Through 0 0
        ∧ (d.executions.find sampleHash).map ExecutionRecord.kind = some .LIMIT := by
  have hplay : (intake.play lostSteps raceIntake).isSome = true := by decide +kernel
  obtain ⟨d, hd⟩ := Option.isSome_iff_exists.1 hplay
  obtain rfl : d = Option.get _ hplay := by simp [hd]
  exact ⟨raceIntake_once, by decide, _, hd, ⟨⟨_, rfl, rfl⟩, _, rfl, rfl⟩, rfl⟩

end Zstrategy.Backend
