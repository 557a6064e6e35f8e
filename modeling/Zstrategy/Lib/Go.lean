/-
Sequential code that works on a shared state, returns a value or an error,
and may panic. An error is a value: the state keeps what was done before
it. A panic ends everything, so it has no state.

`eq_ok` lemmas turn "the code returned normally" into what each part did;
`Calm` code never panics.

What is said of such code is said of its parts: each of the notions below
(normal return, frame, relation, no error, no panic) has one lemma for each
way of putting code together, and a proof about a function follows its text,
with no unfolding of `>>=`.
-/
namespace Zstrategy.Lib

/-- How a piece of code ends. -/
inductive Go.Result (σ α : Type) where
  | ok (a : α) (s : σ)
  | err (e : String) (s : σ)
  | panic (text : String)

/-- Code on the state `σ`. -/
def Go (σ α : Type) : Type := σ → Go.Result σ α

namespace Go

variable {σ α β : Type}

protected def pure (a : α) : Go σ α := fun s => .ok a s

protected def bind (c : Go σ α) (f : α → Go σ β) : Go σ β := fun s =>
  match c s with
  | .ok a s' => f a s'
  | .err e s' => .err e s'
  | .panic text => .panic text

instance instMonadGo : Monad (Go σ) where
  pure := Go.pure
  bind := Go.bind

/-- The current state. -/
def read : Go σ σ := fun s => .ok s s

def modify (f : σ → σ) : Go σ Unit := fun s => .ok () (f s)

/-- `if err != nil { return err }`. -/
def check (e : Except String α) : Go σ α := fun s =>
  match e with
  | .ok a => .ok a s
  | .error m => .err m s

/-- Keep the error as a value. -/
def attempt (c : Go σ α) : Go σ (Except String α) := fun s =>
  match c s with
  | .ok a s' => .ok (.ok a) s'
  | .err e s' => .ok (.error e) s'
  | .panic text => .panic text

/-- A runtime panic, unless `p`. -/
def unlessPanic (p : Prop) [Decidable p] (text : String) : Go σ Unit := fun s =>
  if p then .ok () s else .panic text

-- ============================================================ normal returns

variable {s s' : σ} {a : α} {b : β}

/-- A sequence returned: the first part did, and the second from where it
stopped. -/
theorem bind_ok {c : Go σ α} {f : α → Go σ β} :
    (c >>= f) s = .ok b s' ↔ ∃ a t, c s = .ok a t ∧ f a t = .ok b s' := by
  show Go.bind c f s = _ ↔ _
  unfold Go.bind
  cases c s with
  | ok x t =>
      constructor
      · intro h
        exact ⟨x, t, rfl, h⟩
      · intro h
        obtain ⟨y, u, hxy, hf⟩ := h
        cases hxy
        exact hf
  | err e t => simp
  | panic text => simp

/-- A value is returned as it is, and the state stays. -/
theorem pure_eq_ok {x : α} : (Pure.pure x : Go σ α) s = .ok a s' ↔ x = a ∧ s = s' := by
  show Result.ok x s = _ ↔ _
  simp

/-- A read returns the state. -/
theorem read_eq_ok {t : σ} : (read : Go σ σ) s = .ok t s' ↔ s = t ∧ s = s' := by
  simp [read]

/-- A write leaves the state it computes. -/
theorem modify_eq_ok {f : σ → σ} {u : Unit} : modify f s = .ok u s' ↔ f s = s' := by
  simp [modify]

/-- An `if err != nil` that was passed: there was no error. -/
theorem check_eq_ok {e : Except String α} : check e s = .ok a s' ↔ e = .ok a ∧ s = s' := by
  cases e with
  | ok x => simp [check]
  | error m => simp [check]

/-- An access that may panic has returned: it was in bounds. -/
theorem unlessPanic_eq_ok {p : Prop} [Decidable p] {text : String} {u : Unit} :
    unlessPanic p text s = .ok u s' ↔ p ∧ s = s' := by
  by_cases hp : p <;> simp [unlessPanic, hp]

/-- `c` returns normally from `s`. -/
def Returns (c : Go σ α) (s : σ) : Prop := ∃ a s', c s = .ok a s'

/-- A sequence returns if its parts do. -/
theorem Returns.bind {c : Go σ α} {f : α → Go σ β} (hc : Returns c s)
    (hf : ∀ a s', c s = .ok a s' → Returns (f a) s') : Returns (c >>= f) s := by
  obtain ⟨a, t, hfirst⟩ := hc
  obtain ⟨b, u, hrest⟩ := hf a t hfirst
  exact ⟨b, u, bind_ok.2 ⟨a, t, hfirst, hrest⟩⟩

/-- A value is returned. -/
theorem Returns.pure (a : α) : Returns (Pure.pure a : Go σ α) s := ⟨a, s, rfl⟩

/-- A read returns. -/
theorem Returns.read : Returns (read : Go σ σ) s := ⟨s, s, rfl⟩

/-- A write returns. -/
theorem Returns.modify (f : σ → σ) : Returns (modify f) s := ⟨(), f s, rfl⟩

/-- The check of a value that is no error returns. -/
theorem Returns.check (a : α) : Returns (check (.ok a) : Go σ α) s := ⟨a, s, rfl⟩

-- ==================================================================== frames

/-- Code that leaves `f` of the state alone when it returns normally. -/
def Keeps {γ : Type} (f : σ → γ) (c : Go σ α) : Prop :=
  ∀ s a s', c s = .ok a s' → f s' = f s

section Keeps

variable {γ : Type} {f : σ → γ}

/-- A sequence keeps what its parts keep. -/
theorem Keeps.bind {c : Go σ α} {g : α → Go σ β} (hc : Keeps f c) (hg : ∀ a, Keeps f (g a)) :
    Keeps f (c >>= g) := by
  intro s b s' h
  obtain ⟨a, t, ha, hb⟩ := bind_ok.1 h
  rw [hg a t b s' hb, hc s a t ha]

/-- A returned value changes nothing. -/
theorem Keeps.pure (a : α) : Keeps f (Pure.pure a : Go σ α) := by
  intro s b s' h
  obtain ⟨-, rfl⟩ := pure_eq_ok.1 h
  rfl

/-- A read changes nothing. -/
theorem Keeps.read : Keeps f (read : Go σ σ) := by
  intro s t s' h
  obtain ⟨-, rfl⟩ := read_eq_ok.1 h
  rfl

/-- A write keeps what it does not touch. -/
theorem Keeps.modify {g : σ → σ} (hg : ∀ s, f (g s) = f s) : Keeps f (modify g) := by
  intro s u s' h
  rw [← modify_eq_ok.1 h, hg]

/-- A check changes nothing. -/
theorem Keeps.check (e : Except String α) : Keeps f (check e : Go σ α) := by
  intro s a s' h
  obtain ⟨-, rfl⟩ := check_eq_ok.1 h
  rfl

/-- An access changes nothing. -/
theorem Keeps.unlessPanic (p : Prop) [Decidable p] (text : String) :
    Keeps f (unlessPanic p text : Go σ Unit) := by
  intro s u s' h
  obtain ⟨-, rfl⟩ := unlessPanic_eq_ok.1 h
  rfl

end Keeps

-- ================================================================= relations

/-- It left a state that satisfies `P`, or none. -/
def Result.Leaves (P : σ → Prop) : Result σ α → Prop
  | .ok _ s => P s
  | .err _ s => P s
  | .panic _ => True

/-- Code that, unless it panics, ends where `R` relates it to its start,
whether it returns a value or an error. -/
def Ends (R : σ → σ → Prop) (c : Go σ α) : Prop := ∀ s, (c s).Leaves (R s)

section Ends

variable {R : σ → σ → Prop}

/-- A normal return is one of the ends. -/
theorem Ends.of_ok {c : Go σ α} (hc : Ends R c) (h : c s = .ok a s') : R s s' := by
  have hs := hc s
  rw [h] at hs
  exact hs

/-- Relations of the parts compose. -/
theorem Ends.bind (htrans : ∀ s t u, R s t → R t u → R s u) {c : Go σ α} {g : α → Go σ β}
    (hc : Ends R c) (hg : ∀ a, Ends R (g a)) : Ends R (c >>= g) := by
  intro s
  have hs := hc s
  show (Go.bind c g s).Leaves (R s)
  unfold Go.bind
  cases hcs : c s with
  | ok a t =>
      rw [hcs] at hs
      have ht := hg a t
      dsimp only
      cases hgt : g a t with
      | ok b u =>
          rw [hgt] at ht
          exact htrans s t u hs ht
      | err e u =>
          rw [hgt] at ht
          exact htrans s t u hs ht
      | panic text => trivial
  | err e t =>
      rw [hcs] at hs
      exact hs
  | panic text => trivial

variable (hrefl : ∀ s, R s s)

include hrefl

/-- A returned value relates the state to itself. -/
theorem Ends.pure (a : α) : Ends R (Pure.pure a : Go σ α) := fun s => hrefl s

/-- So does a read. -/
theorem Ends.read : Ends R (read : Go σ σ) := fun s => hrefl s

/-- So does a check, whether it passes or not. -/
theorem Ends.check (e : Except String α) : Ends R (check e : Go σ α) := by
  intro s
  cases e with
  | ok a => exact hrefl s
  | error m => exact hrefl s

/-- So does an access, and its panic has no state. -/
theorem Ends.unlessPanic (p : Prop) [Decidable p] (text : String) :
    Ends R (unlessPanic p text : Go σ Unit) := by
  intro s
  unfold Go.unlessPanic
  by_cases hp : p
  · rw [if_pos hp]
    exact hrefl s
  · rw [if_neg hp]
    trivial

omit hrefl

/-- A write relates the state to the written one. -/
theorem Ends.modify {f : σ → σ} (hf : ∀ s, R s (f s)) : Ends R (modify f) := hf

/-- Catching the error changes nothing about the state. -/
theorem Ends.attempt {c : Go σ α} (hc : Ends R c) : Ends R c.attempt := by
  intro s
  have hs := hc s
  unfold Go.attempt
  cases hcs : c s with
  | ok a t =>
      rw [hcs] at hs
      exact hs
  | err e t =>
      rw [hcs] at hs
      exact hs
  | panic text => trivial

end Ends

-- ================================================================= no errors

/-- Code that never returns an error. -/
def Sure (c : Go σ α) : Prop := ∀ s e s', c s ≠ .err e s'

section Sure

/-- A sequence has no error if its parts have none. -/
theorem Sure.bind {c : Go σ α} {f : α → Go σ β} (hc : Sure c) (hf : ∀ a, Sure (f a)) :
    Sure (c >>= f) := by
  intro s e s'
  show Go.bind c f s ≠ _
  unfold Go.bind
  cases h : c s with
  | ok a t => exact hf a t e s'
  | err e' t => exact absurd h (hc s e' t)
  | panic text => simp

/-- A returned value is no error. -/
theorem Sure.pure (a : α) : Sure (Pure.pure a : Go σ α) := by
  intro s e s' h
  cases h

/-- A read has no error. -/
theorem Sure.read : Sure (read : Go σ σ) := by
  intro s e s' h
  cases h

/-- A write has no error. -/
theorem Sure.modify (f : σ → σ) : Sure (modify f) := by
  intro s e s' h
  cases h

/-- An access has no error: it panics or returns. -/
theorem Sure.unlessPanic (p : Prop) [Decidable p] (text : String) :
    Sure (unlessPanic p text : Go σ Unit) := by
  intro s e s'
  by_cases hp : p <;> simp [Go.unlessPanic, hp]

/-- What comes after code without errors decides where the whole ends. -/
theorem Sure.ends {P : σ → Prop} {c : Go σ α} {f : α → Go σ β} (hc : Sure c)
    (hf : ∀ a, Ends (fun _ => P) (f a)) : Ends (fun _ => P) (c >>= f) := by
  intro s
  show (Go.bind c f s).Leaves P
  unfold Go.bind
  cases h : c s with
  | ok a t => exact hf a t
  | err e t => exact absurd h (hc s e t)
  | panic text => trivial

/-- Code after it keeps what the first part reached. -/
theorem Ends.andThen {P : σ → Prop} {c : Go σ α} {f : α → Go σ β} (hc : Ends (fun _ => P) c)
    (hf : ∀ a, Ends (fun s s' => P s → P s') (f a)) : Ends (fun _ => P) (c >>= f) := by
  intro s
  have hs := hc s
  show (Go.bind c f s).Leaves P
  unfold Go.bind
  cases h : c s with
  | ok a t =>
      rw [h] at hs
      have ht := hf a t
      dsimp only
      cases hft : f a t with
      | ok b u =>
          rw [hft] at ht
          exact ht hs
      | err e u =>
          rw [hft] at ht
          exact ht hs
      | panic text => trivial
  | err e t =>
      rw [h] at hs
      exact hs
  | panic text => trivial

end Sure

-- ================================================================ no panics

/-- Code that never panics. -/
def Calm (c : Go σ α) : Prop := ∀ s text, c s ≠ .panic text

/-- A sequence does not panic if its parts do not. -/
theorem Calm.bind {c : Go σ α} {f : α → Go σ β} (hc : Calm c) (hf : ∀ a, Calm (f a)) :
    Calm (c >>= f) := by
  intro s text
  show Go.bind c f s ≠ _
  unfold Go.bind
  cases h : c s with
  | ok a t => exact hf a t text
  | err e t => simp
  | panic text' => exact absurd h (hc s text')

/-- A returned value is no panic. -/
theorem Calm.pure (a : α) : Calm (Pure.pure a : Go σ α) := by
  intro s text h
  nomatch h

/-- A read does not panic. -/
theorem Calm.read : Calm (read : Go σ σ) := by
  intro s text h
  nomatch h

/-- A write does not panic. -/
theorem Calm.modify (f : σ → σ) : Calm (modify f) := by
  intro s text h
  nomatch h

/-- An error is not a panic. -/
theorem Calm.check (e : Except String α) : Calm (check e : Go σ α) := by
  intro s text
  cases e <;> simp [Go.check]

/-- Catching an error does not panic. -/
theorem Calm.attempt {c : Go σ α} (hc : Calm c) : Calm c.attempt := by
  intro s text
  unfold Go.attempt
  cases h : c s with
  | ok a t => simp
  | err e t => simp
  | panic text' => exact absurd h (hc s text')

/-- An access in bounds does not panic. -/
theorem Calm.unlessPanic {p : Prop} [Decidable p] (hp : p) (text : String) :
    Calm (unlessPanic p text : Go σ Unit) := by
  intro s text' h
  simp [Go.unlessPanic, hp] at h

end Go

end Zstrategy.Lib
