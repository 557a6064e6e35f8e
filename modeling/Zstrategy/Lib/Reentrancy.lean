/-
The re-entrant machine. A `System` is a set of public entry points over
one shared state; everything else is outside code. Whenever control is
with the outside it may call any entry point it can name, answer or fail
the call it is serving, open a sub-call of its own and later keep or undo
it, and change what it owns. A call that reverts, wherever it stands,
puts back the state it started from.

# The stack

A configuration is the current state and the stack of unfinished calls:
an `inner` frame is one of our programs waiting for a reply (with the
state to restore if it reverts), an `outer` frame is a sub-call of the
outside. The empty stack is the point between two transactions. Since
control is with the outside in every configuration, "at every point where
control leaves the programs" is "in every configuration".

# The rule

`Run.sound` is the only induction over runs. Given an invariant `I` and a
transitive relation `R`, if every entry point keeps them when read alone
(`Sat` against the rely they form), then `I` holds in every configuration
of every run and `R` relates the start to every point between
transactions. The stack invariant `StackOk` carries the argument: each
waiting program is safe for whatever `I`-state comes `R`-after the state
it left.
-/
import Zstrategy.Lib.Resumption

namespace Zstrategy.Lib

variable {σ q ρ ι ε : Type}

-- ============================================================= the machine

/-- Programs open to the outside, and what the outside is able to do. -/
structure System (σ q ρ ι ε : Type) where
  /-- The program behind an entry point. -/
  entry : ι → Code σ q ρ Unit
  /-- The calls that outside code can make. -/
  opened : ι → Bool
  /-- The replies that a request can get. -/
  answers : q → ρ → Bool
  /-- A change the outside makes by itself; `none` if it cannot. -/
  outside : ε → σ → Option σ
  /-- Changes that only happen between two transactions. -/
  idle : ε → Bool

/-- What happens next. -/
inductive Move (ρ ι ε : Type) where
  /-- Outside code calls an entry point. -/
  | enter (i : ι)
  /-- The call being served returns a reply. -/
  | answer (x : ρ)
  /-- The call being served reverts. -/
  | fail
  /-- Outside code opens a sub-call of its own. -/
  | checkpoint
  /-- The sub-call of the outside returns. -/
  | commit
  /-- The sub-call of the outside reverts. -/
  | rollback
  /-- Outside code changes what it owns. -/
  | outside (e : ε)

/-- An unfinished call, with the state it reverts to. -/
inductive Frame (σ q ρ : Type) where
  | inner (snap : σ) (req : q) (resume : σ → ρ → Outcome σ q ρ Unit)
  | outer (snap : σ)

/-- The state, and the unfinished calls, innermost first. -/
structure Config (σ q ρ : Type) where
  world : σ
  stack : List (Frame σ q ρ)

/-- The configuration an outcome leaves: a revert restores `snap`, a
pending call becomes the top frame. -/
def settle (snap : σ) (rest : List (Frame σ q ρ)) :
    Outcome σ q ρ Unit → Config σ q ρ
  | .revert _ => ⟨snap, rest⟩
  | .done _ s => ⟨s, rest⟩
  | .call s req k => ⟨s, .inner snap req k :: rest⟩

/-- One step of the machine; `none` if the move is not possible here. -/
def System.step (S : System σ q ρ ι ε) (c : Config σ q ρ) :
    Move ρ ι ε → Option (Config σ q ρ)
  | .enter i =>
      if S.opened i then some (settle c.world c.stack (S.entry i c.world))
      else none
  | .answer x =>
      match c.stack with
      | .inner snap req k :: rest =>
          if S.answers req x then some (settle snap rest (k c.world x))
          else none
      | _ => none
  | .fail =>
      match c.stack with
      | .inner snap _ _ :: rest => some ⟨snap, rest⟩
      | _ => none
  | .checkpoint => some ⟨c.world, .outer c.world :: c.stack⟩
  | .commit =>
      match c.stack with
      | .outer _ :: rest => some ⟨c.world, rest⟩
      | _ => none
  | .rollback =>
      match c.stack with
      | .outer snap :: rest => some ⟨snap, rest⟩
      | _ => none
  | .outside e =>
      if S.idle e && !c.stack.isEmpty then none
      else (S.outside e c.world).map fun s => ⟨s, c.stack⟩

/-- Runs whose moves all meet `P`, a condition on the state a move is
made in. -/
inductive System.Run (S : System σ q ρ ι ε) (P : σ → Move ρ ι ε → Prop) :
    Config σ q ρ → Config σ q ρ → Prop
  | refl (c : Config σ q ρ) : S.Run P c c
  | tail {c c' c'' : Config σ q ρ} (m : Move ρ ι ε) :
      S.Run P c c' → P c'.world m → S.step c' m = some c'' → S.Run P c c''

/-- No condition on the moves. -/
def anyMove : σ → Move ρ ι ε → Prop := fun _ _ => True

variable {S : System σ q ρ ι ε} {P P' : σ → Move ρ ι ε → Prop}

theorem System.Run.trans {c c' c'' : Config σ q ρ} (h : S.Run P c c')
    (h' : S.Run P c' c'') : S.Run P c c'' := by
  induction h' with
  | refl => exact h
  | tail m _ hP hs ih => exact .tail m ih hP hs

theorem System.Run.mono {c c' : Config σ q ρ} (h : S.Run P c c')
    (hP : ∀ s m, P s m → P' s m) : S.Run P' c c' := by
  induction h with
  | refl => exact .refl _
  | tail m _ hm hs ih => exact .tail m ih (hP _ _ hm) hs

/-- Each move of a run is made in a state that the run has reached. -/
theorem System.Run.reached {c c' : Config σ q ρ} (h : S.Run P c c') :
    S.Run (fun s m => P s m ∧ ∃ st, S.Run P c ⟨s, st⟩) c c' := by
  induction h with
  | refl => exact .refl _
  | tail m hrun hm hs ih => exact .tail m ih ⟨hm, _, hrun⟩ hs

theorem System.Run.single {c c' : Config σ q ρ} {m : Move ρ ι ε}
    (hP : P c.world m) (hs : S.step c m = some c') : S.Run P c c' :=
  .tail m (.refl c) hP hs

/-- Calls that revert outright can be left out of a run. -/
theorem System.Run.skip {c c' : Config σ q ρ} (h : S.Run P c c')
    (hP : ∀ s m, P s m → P' s m ∨ ∃ i e, m = .enter i ∧ S.entry i s = .revert e) :
    S.Run P' c c' := by
  induction h with
  | refl => exact .refl _
  | tail m _ hm hs ih =>
      rcases hP _ m hm with hm | ⟨i, e, rfl, he⟩
      · exact .tail m ih hm hs
      · simp only [System.step, he, settle] at hs
        split at hs
        case isFalse => cases hs
        case isTrue =>
          cases hs
          exact ih

/-- The configuration after a list of moves, if each is possible. -/
def System.play (S : System σ q ρ ι ε) :
    List (Move ρ ι ε) → Config σ q ρ → Option (Config σ q ρ)
  | [], c => some c
  | m :: ms, c => (S.step c m).bind (S.play ms)

theorem System.Run.of_play {ms : List (Move ρ ι ε)} {c c' : Config σ q ρ}
    (hP : ∀ s, ∀ m ∈ ms, P s m) (h : S.play ms c = some c') : S.Run P c c' := by
  induction ms generalizing c with
  | nil =>
      cases h
      exact .refl _
  | cons m ms ih =>
      obtain ⟨c₁, hs, hrest⟩ := Option.bind_eq_some_iff.1 h
      have hfirst : S.Run P c c₁ := .single (hP _ m (by simp)) hs
      exact hfirst.trans (ih (fun s m' hm => hP s m' (by simp [hm])) hrest)

/-- The state after a list of moves that ends between transactions. -/
def System.endState (S : System σ q ρ ι ε) (ms : List (Move ρ ι ε)) (s : σ) : σ :=
  ((S.play ms ⟨s, []⟩).map Config.world).getD s

theorem System.Run.of_endState {ms : List (Move ρ ι ε)} {s : σ} (hP : ∀ s, ∀ m ∈ ms, P s m)
    (h : (S.play ms ⟨s, []⟩).any (fun c => c.stack.isEmpty) = true) :
    S.Run P ⟨s, []⟩ ⟨S.endState ms s, []⟩ := by
  cases hplay : S.play ms ⟨s, []⟩ with
  | none =>
      rw [hplay] at h
      nomatch h
  | some c =>
      obtain ⟨s', stack⟩ := c
      rw [hplay] at h
      have hstack : stack = [] := List.isEmpty_iff.1 h
      have hend : S.endState ms s = s' := by
        unfold System.endState
        rw [hplay]
        rfl
      rw [hend]
      rw [hstack] at hplay
      exact .of_play hP hplay

-- ================================================================ the rule

/-- `I` and `R` as a rely over the system's replies. -/
def System.rely (S : System σ q ρ ι ε) (I : σ → Prop) (R : σ → σ → Prop) :
    Rely σ q ρ :=
  ⟨I, R, fun req x => S.answers req x = true, fun _ => True⟩

/-- What has to be checked of a system, one entry point at a time, for
`I` and `R` to hold along its runs. -/
structure System.Sound (S : System σ q ρ ι ε) (P : σ → Move ρ ι ε → Prop)
    (I : σ → Prop) (R : σ → σ → Prop) : Prop where
  refl : ∀ s, R s s
  trans : ∀ s s' s'', R s s' → R s' s'' → R s s''
  entry : ∀ i s, S.opened i = true → P s (.enter i) → I s →
    (S.entry i s).Sat (S.rely I R) fun _ s' => I s' ∧ R s s'
  outside : ∀ e s s', P s (.outside e) → I s → S.outside e s = some s' →
    I s' ∧ R s s'

variable {I : σ → Prop} {R : σ → σ → Prop}

/-- Every unfinished call is safe to resume, to revert and to finish, and
the bottom of the stack is `R`-after the start. -/
def StackOk (S : System σ q ρ ι ε) (I : σ → Prop) (R : σ → σ → Prop) (s₀ : σ) :
    σ → List (Frame σ q ρ) → Prop
  | w, [] => R s₀ w
  | w, .inner snap req k :: rest =>
      (∃ s, R s w ∧ ∀ s' x, I s' → R s s' → S.answers req x = true →
          (k s' x).Sat (S.rely I R) fun _ s'' => I s'' ∧ R snap s'')
        ∧ I snap ∧ StackOk S I R s₀ snap rest
  | w, .outer snap :: rest => R snap w ∧ I snap ∧ StackOk S I R s₀ snap rest

/-- A stack stays safe when the state moves along `R`. -/
theorem StackOk.move (htr : ∀ s s' s'', R s s' → R s' s'' → R s s'')
    {s₀ w w' : σ} {st : List (Frame σ q ρ)} (h : StackOk S I R s₀ w st)
    (hR : R w w') : StackOk S I R s₀ w' st := by
  cases st with
  | nil => exact htr _ _ _ h hR
  | cons f rest =>
      cases f with
      | inner snap req k =>
          obtain ⟨⟨s, hs, hk⟩, hi, hrest⟩ := h
          exact ⟨⟨s, htr _ _ _ hs hR, hk⟩, hi, hrest⟩
      | outer snap => exact ⟨htr _ _ _ h.1 hR, h.2⟩

/-- A safe outcome settles into a safe configuration. -/
theorem StackOk.settle (htr : ∀ s s' s'', R s s' → R s' s'' → R s s'')
    (hrefl : ∀ s, R s s) {s₀ snap : σ} {rest : List (Frame σ q ρ)}
    {o : Outcome σ q ρ Unit} (hi : I snap) (hst : StackOk S I R s₀ snap rest)
    (ho : o.Sat (S.rely I R) fun _ s' => I s' ∧ R snap s') :
    I (settle snap rest o).world
      ∧ StackOk S I R s₀ (settle snap rest o).world
          (settle snap rest o).stack := by
  cases o with
  | revert e => exact ⟨hi, hst⟩
  | done a s => exact ⟨ho.1, hst.move htr ho.2⟩
  | call s req k => exact ⟨ho.1, ⟨s, hrefl s, ho.2⟩, hi, hst⟩

/-- One step keeps the invariant and the stack safe. -/
theorem System.Sound.step (hS : S.Sound P I R) {s₀ : σ} {c c' : Config σ q ρ}
    {m : Move ρ ι ε} (hP : P c.world m) (hs : S.step c m = some c')
    (hi : I c.world) (hst : StackOk S I R s₀ c.world c.stack) :
    I c'.world ∧ StackOk S I R s₀ c'.world c'.stack := by
  obtain ⟨w, st⟩ := c
  cases m with
  | enter i =>
      simp only [System.step] at hs
      split at hs
      case isFalse => cases hs
      case isTrue ho =>
        cases hs
        exact hst.settle hS.trans hS.refl hi (hS.entry i w ho hP hi)
  | answer x =>
      simp only [System.step] at hs
      split at hs
      next snap req k rest =>
        split at hs
        case isFalse => cases hs
        case isTrue hx =>
          cases hs
          obtain ⟨⟨s, hs, hk⟩, hsnap, hrest⟩ := hst
          exact hrest.settle hS.trans hS.refl hsnap (hk w x hi hs hx)
      next => cases hs
  | fail =>
      simp only [System.step] at hs
      split at hs
      next snap req k rest =>
        cases hs
        exact hst.2
      next => cases hs
  | checkpoint =>
      cases hs
      exact ⟨hi, hS.refl w, hi, hst⟩
  | commit =>
      simp only [System.step] at hs
      split at hs
      next snap rest =>
        cases hs
        exact ⟨hi, hst.2.2.move hS.trans hst.1⟩
      next => cases hs
  | rollback =>
      simp only [System.step] at hs
      split at hs
      next snap rest =>
        cases hs
        exact hst.2
      next => cases hs
  | outside e =>
      simp only [System.step] at hs
      split at hs
      case isTrue => cases hs
      case isFalse =>
        obtain ⟨s, he, rfl⟩ := Option.map_eq_some_iff.1 hs
        obtain ⟨hi', hR⟩ := hS.outside e w s hP hi he
        exact ⟨hi', hst.move hS.trans hR⟩

/-- Soundness along runs: what holds entry point by entry point holds in
every configuration, under every interleaving of nested calls. -/
theorem System.Run.sound (hS : S.Sound P I R) {s₀ : σ} {c : Config σ q ρ}
    (hrun : S.Run P ⟨s₀, []⟩ c) (h₀ : I s₀) :
    I c.world ∧ StackOk S I R s₀ c.world c.stack := by
  induction hrun with
  | refl => exact ⟨h₀, hS.refl s₀⟩
  | tail m _ hP hs ih => exact hS.step hP hs ih.1 ih.2

/-- The invariant, in every configuration. -/
theorem System.Run.inv (hS : S.Sound P I R) {s₀ : σ} {c : Config σ q ρ}
    (hrun : S.Run P ⟨s₀, []⟩ c) (h₀ : I s₀) : I c.world :=
  (hrun.sound hS h₀).1

/-- The relation, from the start to any point between transactions. -/
theorem System.Run.rel (hS : S.Sound P I R) {s₀ s : σ}
    (hrun : S.Run P ⟨s₀, []⟩ ⟨s, []⟩) (h₀ : I s₀) : R s₀ s :=
  (hrun.sound hS h₀).2

end Zstrategy.Lib
