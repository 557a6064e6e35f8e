/-
Two runs of programs that call out. `Outcome.play` carries one outcome to
its end against a script: a reply to each pending call, with the changes
the called code makes before it replies. `Outcome.Sim` relates two
outcomes of which the second can do whatever the first does: where the
first asks, the second asks the same, and where the first returns, so does
the second.

The rules for `Sim` are one for each piece of code; `Sim.play` then says
that a script that carries the first run to a return carries the second.

The scripts are what makes the comparison fair: both runs meet the same
outside, which answers in the same way and changes its own things in the
same way, whatever it was asked for. So a difference between the two runs is
one that the programs have made.
-/
import Zstrategy.Lib.Resumption

namespace Zstrategy.Lib

variable {σ q ρ ε α β γ δ : Type}

namespace Outcome

-- ================================================================== a script

/-- The changes the called code makes, one after the other. -/
def acts (act : ε → σ → Option σ) : List ε → σ → Option σ
  | [], s => some s
  | e :: es, s => (act e s).bind (acts act es)

/-- Run to the end; `none` on a revert, or where the script is too short or
the called code cannot do what it says. -/
def play (act : ε → σ → Option σ) : Outcome σ q ρ α → List (ρ × List ε) → Option (α × σ)
  | .revert _, _ => none
  | .done a s, _ => some (a, s)
  | .call _ _ _, [] => none
  | .call s _ k, (x, es) :: script =>
      (acts act es s).bind fun s' => (k s' x).play act script

/-- What plays to a return can return. -/
theorem CanReturn.of_play {act : ε → σ → Option σ} {o : Outcome σ q ρ α}
    {script : List (ρ × List ε)} {r : α × σ} (h : o.play act script = some r) :
    o.CanReturn := by
  induction o generalizing script with
  | revert e => nomatch h
  | done a s => exact trivial
  | call s req k ih =>
      cases script with
      | nil => nomatch h
      | cons p script =>
          obtain ⟨x, es⟩ := p
          obtain ⟨s', -, hplay⟩ := Option.bind_eq_some_iff.1 h
          exact ⟨s', x, ih s' x hplay⟩

/-- Called code that only replies. -/
def quiet (ε : Type) (replies : List ρ) : List (ρ × List ε) :=
  replies.map fun x => (x, [])

/-- What holds under every interference holds under none. -/
theorem Sat.silent {Γ : Rely σ q ρ} {Q : α → σ → Prop} {o : Outcome σ q ρ α}
    (h : o.Sat Γ Q) (hrel : ∀ s, Γ.rel s s) (hans : ∀ req x, Γ.answers req x) :
    o.Sat Rely.silent Q := by
  refine h.weaken (fun _ _ => trivial) ?_ (fun req x _ => hans req x) fun _ _ => trivial
  intro s s' hs _ hsame
  cases hsame
  exact ⟨hs, hrel s⟩

/-- What a program shows under replies without any change holds where it
plays to a return. -/
theorem Sat.play_quiet {act : ε → σ → Option σ} {Q : α → σ → Prop} {o : Outcome σ q ρ α}
    {replies : List ρ} {r : α × σ} (h : o.Sat Rely.silent Q)
    (hplay : o.play act (quiet ε replies) = some r) : Q r.1 r.2 := by
  induction o generalizing replies with
  | revert e => nomatch hplay
  | done a s =>
      cases hplay
      exact h
  | call s req k ih =>
      cases replies with
      | nil => nomatch hplay
      | cons x replies =>
          exact ih s x (h.2 s x trivial rfl trivial) hplay

-- ============================================================ the simulation

/-- The second outcome does what the first does: `R` relates the states
control leaves and comes back in, `Q` what is returned. -/
def Sim (R : σ → σ → Prop) (Q : α → σ → β → σ → Prop) :
    Outcome σ q ρ α → Outcome σ q ρ β → Prop
  | .revert _, _ => True
  | .done a s, .done b t => Q a s b t
  | .call s req k, .call t req' k' =>
      req = req' ∧ R s t ∧ ∀ s' t' x, R s' t' → (k s' x).Sim R Q (k' t' x)
  | _, _ => False

variable {R : σ → σ → Prop}

theorem Sim.bind {Q : α → σ → β → σ → Prop} {Q' : γ → σ → δ → σ → Prop}
    {o : Outcome σ q ρ α} {o' : Outcome σ q ρ β} {f : α → σ → Outcome σ q ρ γ}
    {g : β → σ → Outcome σ q ρ δ} (h : o.Sim R Q o')
    (hf : ∀ a s b t, Q a s b t → (f a s).Sim R Q' (g b t)) :
    (o.bind f).Sim R Q' (o'.bind g) := by
  induction o generalizing o' with
  | revert e => exact trivial
  | done a s =>
      cases o' with
      | revert e => exact h.elim
      | done b t => exact hf a s b t h
      | call t req k => exact h.elim
  | call s req k ih =>
      cases o' with
      | revert e => exact h.elim
      | done b t => exact h.elim
      | call t req' k' =>
          obtain ⟨hreq, hR, hk⟩ := h
          exact ⟨hreq, hR, fun s' t' x hR' => ih s' x (hk s' t' x hR')⟩

/-- Changes the called code makes to one state it can make to the other. -/
def Respects (act : ε → σ → Option σ) (R : σ → σ → Prop) : Prop :=
  ∀ e s t s', R s t → act e s = some s' → ∃ t', act e t = some t' ∧ R s' t'

theorem Respects.acts {act : ε → σ → Option σ} (hact : Respects act R) {es : List ε}
    {s t s' : σ} (hR : R s t) (h : Outcome.acts act es s = some s') :
    ∃ t', Outcome.acts act es t = some t' ∧ R s' t' := by
  induction es generalizing s t with
  | nil =>
      cases h
      exact ⟨t, rfl, hR⟩
  | cons e es ih =>
      obtain ⟨s₁, hs₁, hrest⟩ := Option.bind_eq_some_iff.1 h
      obtain ⟨t₁, ht₁, hR₁⟩ := hact e s t s₁ hR hs₁
      obtain ⟨t', ht', hR'⟩ := ih hR₁ hrest
      exact ⟨t', by rw [Outcome.acts, ht₁]; exact ht', hR'⟩

/-- A script that carries the first outcome to a return carries the second. -/
theorem Sim.play {act : ε → σ → Option σ} (hact : Respects act R)
    {Q : α → σ → β → σ → Prop} {o : Outcome σ q ρ α} {o' : Outcome σ q ρ β}
    (h : o.Sim R Q o') {script : List (ρ × List ε)} {a : α} {s : σ}
    (hplay : o.play act script = some (a, s)) :
    ∃ b t, o'.play act script = some (b, t) ∧ Q a s b t := by
  induction o generalizing o' script with
  | revert e => nomatch hplay
  | done a' s' =>
      cases hplay
      cases o' with
      | revert e => exact h.elim
      | done b t => exact ⟨b, t, rfl, h⟩
      | call t req k => exact h.elim
  | call s₁ req k ih =>
      cases o' with
      | revert e => exact h.elim
      | done b t => exact h.elim
      | call t₁ req' k' =>
          cases script with
          | nil => nomatch hplay
          | cons p script =>
              obtain ⟨x, es⟩ := p
              obtain ⟨-, hR, hk⟩ := h
              obtain ⟨s₂, hs₂, hrest⟩ := Option.bind_eq_some_iff.1 hplay
              obtain ⟨t₂, ht₂, hR₂⟩ := hact.acts hR hs₂
              obtain ⟨b, t, hb, hQ⟩ := ih s₂ x (hk s₂ t₂ x hR₂) hrest
              refine ⟨b, t, ?_, hQ⟩
              rw [Outcome.play, ht₂]
              exact hb

end Outcome

-- ================================================================= the rules

namespace Code

variable {R : σ → σ → Prop} {Q : α → σ → β → σ → Prop} {s t : σ}

/-- `Sim` of two programs at two start states. -/
def Sim (R : σ → σ → Prop) (Q : α → σ → β → σ → Prop) (c : Code σ q ρ α)
    (d : Code σ q ρ β) (s t : σ) : Prop :=
  (c s).Sim R Q (d t)

theorem Sim.bind {Q' : γ → σ → δ → σ → Prop} {c : Code σ q ρ α} {d : Code σ q ρ β}
    {f : α → Code σ q ρ γ} {g : β → Code σ q ρ δ} (h : c.Sim R Q d s t)
    (hf : ∀ a s b t, Q a s b t → (f a).Sim R Q' (g b) s t) :
    (c >>= f).Sim R Q' (d >>= g) s t :=
  Outcome.Sim.bind h hf

theorem Sim.pure {a : α} {b : β} (h : Q a s b t) :
    (pure a : Code σ q ρ α).Sim R Q (pure b) s t := h

/-- A check: if the first run passes it, so does the second. -/
theorem Sim.require {f : Unit → Code σ q ρ α} {g : Unit → Code σ q ρ β} {p p' : Prop}
    [Decidable p] [Decidable p'] {e e' : String} (hp : p → p')
    (h : p → (f ()).Sim R Q (g ()) s t) :
    (Code.require p e >>= f).Sim R Q (Code.require p' e' >>= g) s t := by
  show Outcome.Sim R Q ((Code.require p e s).bind fun a s' => f a s')
    ((Code.require p' e' t).bind fun a s' => g a s')
  unfold Code.require
  by_cases h₁ : p
  · rw [if_pos h₁, if_pos (hp h₁)]
    exact h h₁
  · rw [if_neg h₁]
    exact trivial

/-- A check with nothing after it. -/
theorem Sim.guard {Q : Unit → σ → Unit → σ → Prop} {p p' : Prop} [Decidable p]
    [Decidable p'] {e e' : String} (hp : p → p') (hQ : Q () s () t) :
    (Code.require p e : Code σ q ρ Unit).Sim R Q (Code.require p' e') s t := by
  unfold Sim Code.require
  by_cases h : p
  · rw [if_pos h, if_pos (hp h)]
    exact hQ
  · rw [if_neg h]
    exact trivial

theorem Sim.read {f : σ → Code σ q ρ α} {g : σ → Code σ q ρ β}
    (h : (f s).Sim R Q (g t) s t) :
    (Code.read >>= f).Sim R Q (Code.read >>= g) s t := h

theorem Sim.modify {f g : σ → σ} {k : Unit → Code σ q ρ α} {k' : Unit → Code σ q ρ β}
    (h : (k ()).Sim R Q (k' ()) (f s) (g t)) :
    (Code.modify f >>= k).Sim R Q (Code.modify g >>= k') s t := h

/-- Both runs ask the same. -/
theorem Sim.ask {req req' : q} {f : ρ → Code σ q ρ α} {g : ρ → Code σ q ρ β}
    (hreq : req = req') (hR : R s t)
    (h : ∀ s' t' x, R s' t' → (f x).Sim R Q (g x) s' t') :
    (Code.ask req >>= f).Sim R Q (Code.ask req' >>= g) s t :=
  ⟨hreq, hR, h⟩

/-- A computation: what the first run gets has a counterpart. -/
theorem Sim.ofExcept {x : Except String γ} {y : Except String δ} {f : γ → Code σ q ρ α}
    {g : δ → Code σ q ρ β}
    (h : ∀ c, x = .ok c → ∃ d, y = .ok d ∧ (f c).Sim R Q (g d) s t) :
    (Code.ofExcept x >>= f).Sim R Q (Code.ofExcept y >>= g) s t := by
  cases x with
  | error e => exact trivial
  | ok c =>
      obtain ⟨d, rfl, hsim⟩ := h c rfl
      exact hsim

/-- Both runs take the same branch. -/
theorem Sim.ite {p p' : Prop} [Decidable p] [Decidable p'] (hp : p ↔ p')
    {c c' : Code σ q ρ α} {d d' : Code σ q ρ β} (hpos : p → c.Sim R Q d s t)
    (hneg : ¬p → c'.Sim R Q d' s t) :
    (if p then c else c').Sim R Q (if p' then d else d') s t := by
  by_cases h : p
  · rw [if_pos h, if_pos (hp.1 h)]
    exact hpos h
  · rw [if_neg h, if_neg (fun h' => h (hp.2 h'))]
    exact hneg h

end Code

end Zstrategy.Lib
