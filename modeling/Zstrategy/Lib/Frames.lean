/-
What a program never writes itself. `c.Frames f`: wherever `c` gives up
control, for a call or for good, `f` of the state is what it was when `c`
last had control. Called code may change `f`; so an invariant of `f` that
called code keeps is kept by the program, and so is a preorder.

`Frames` is stronger than `Keeps`, which allows a write that is taken
back. It is a class for the same reason: the instances follow the text.
-/
import Zstrategy.Lib.Keeps

namespace Zstrategy.Lib

variable {σ q ρ ι ε α β τ : Type} {f : σ → τ}

namespace Outcome

/-- From `f` at `x` on, only called code changes `f`. -/
def Frames (f : σ → τ) (x : τ) : Outcome σ q ρ α → Prop
  | .revert _ => True
  | .done _ s => f s = x
  | .call s _ k => f s = x ∧ ∀ s' y, (k s' y).Frames f (f s')

theorem Frames.bind {o : Outcome σ q ρ α} {k : α → σ → Outcome σ q ρ β} {x : τ}
    (ho : o.Frames f x) (hk : ∀ a s, (k a s).Frames f (f s)) : (o.bind k).Frames f x := by
  induction o generalizing x with
  | revert e => trivial
  | done a s =>
      have hx : f s = x := ho
      rw [← hx]
      exact hk a s
  | call s req l ih => exact ⟨ho.1, fun s' y => ih s' y (ho.2 s' y)⟩

/-- An invariant of `f` and a transitive relation on it, if called code keeps them. -/
theorem Frames.sat {o : Outcome σ q ρ α} {x : τ} (h : o.Frames f x) {I : τ → Prop}
    {R : τ → τ → Prop} (htrans : ∀ y z u, R y z → R z u → R y u) {y : τ} (hx : R y x) (hI : I x) :
    o.Sat ⟨fun s => I (f s), fun s s' => R (f s) (f s'), fun _ _ => True, fun _ => True⟩
      fun _ s => I (f s) ∧ R y (f s) := by
  induction o generalizing x with
  | revert e => trivial
  | done a s =>
      have hs : f s = x := h
      rw [← hs] at hx hI
      exact ⟨hI, hx⟩
  | call s req k ih =>
      obtain ⟨hs, hk⟩ := h
      rw [← hs] at hx hI
      refine ⟨hI, fun s' z hI' hR _ => ?_⟩
      exact ih s' z (hk s' z) (htrans _ _ _ hx hR) hI'

/-- Two views at once. -/
theorem Frames.pair {υ : Type} {g : σ → υ} {o : Outcome σ q ρ α} {x : τ} {y : υ}
    (hf : o.Frames f x) (hg : o.Frames g y) : o.Frames (fun s => (f s, g s)) (x, y) := by
  induction o generalizing x y with
  | revert e => trivial
  | done a s => exact Prod.ext hf hg
  | call s req k ih => exact ⟨Prod.ext hf.1 hg.1, fun s' z => ih s' z (hf.2 s' z) (hg.2 s' z)⟩

end Outcome

class Code.Frames (f : σ → τ) (c : Code σ q ρ α) : Prop where
  frames : ∀ s, (c s).Frames f (f s)

namespace Code.Frames

-- ============================================================ the instances

instance pure (a : α) : (pure a : Code σ q ρ α).Frames f := ⟨fun _ => rfl⟩

instance read : (read : Code σ q ρ σ).Frames f := ⟨fun _ => rfl⟩

instance require (p : Prop) [Decidable p] (e : String) :
    (require p e : Code σ q ρ Unit).Frames f := by
  refine ⟨fun s => ?_⟩
  unfold Code.require
  split
  · rfl
  · trivial

instance ofExcept (x : Except String α) : (ofExcept x : Code σ q ρ α).Frames f := by
  refine ⟨fun s => ?_⟩
  cases x with
  | ok a => rfl
  | error e => trivial

instance ask (req : q) : (ask req : Code σ q ρ ρ).Frames f := ⟨fun _ => ⟨rfl, fun _ _ => rfl⟩⟩

instance bind {c : Code σ q ρ α} {k : α → Code σ q ρ β} [hc : c.Frames f]
    [hk : ∀ a, (k a).Frames f] : (c >>= k).Frames f :=
  ⟨fun s => Outcome.Frames.bind (hc.frames s) fun a s' => (hk a).frames s'⟩

-- the search pays for every quantifier it goes under, and most steps return nothing

instance andThen {c : Code σ q ρ Unit} {k : Unit → Code σ q ρ β} [hc : c.Frames f]
    [hk : (k ()).Frames f] : (c >>= k).Frames f := by
  have hall : ∀ a, (k a).Frames f := fun _ => hk
  exact .bind

instance ite {p : Prop} [Decidable p] {c d : Code σ q ρ α} [hc : c.Frames f]
    [hd : d.Frames f] : (if p then c else d).Frames f := by
  split
  · exact hc
  · exact hd

/-- Two views at once. -/
theorem pair {υ : Type} {g : σ → υ} {c : Code σ q ρ α} (hf : c.Frames f) (hg : c.Frames g) :
    c.Frames fun s => (f s, g s) :=
  ⟨fun s => Outcome.Frames.pair (hf.frames s) (hg.frames s)⟩

/-- A write elsewhere. -/
theorem modify {g : σ → σ} (hg : ∀ s, f (g s) = f s) :
    (modify g : Code σ q ρ Unit).Frames f :=
  ⟨hg⟩

end Code.Frames

/-- A framed program among others that keep `I` and `R` of `f`. -/
theorem Code.Frames.rely {S : System σ q ρ ι ε} {c : Code σ q ρ α} (hc : c.Frames f)
    {I : τ → Prop} {R : τ → τ → Prop} (htrans : ∀ y z u, R y z → R z u → R y u) {s : σ} {y : τ}
    (hR : R y (f s)) (hI : I (f s)) :
    c.wp (S.rely (fun s => I (f s)) fun s s' => R (f s) (f s'))
      (fun _ s' => I (f s') ∧ R y (f s')) s := by
  have hsat := (hc.frames s).sat htrans hR hI
  exact hsat.weaken (fun _ => id) (fun _ _ _ hi hr => ⟨hi, hr⟩) (fun _ _ _ => trivial) fun _ => id

/-- What neither the programs nor the moves outside write stays, wherever
the run stands. -/
theorem System.Run.frames {S : System σ q ρ ι ε} {P : σ → Move ρ ι ε → Prop}
    (hentry : ∀ i, (S.entry i).Frames f)
    (houtside : ∀ e s s', P s (.outside e) → S.outside e s = some s' → f s' = f s) {s : σ}
    {c : Config σ q ρ} (hrun : S.Run P ⟨s, []⟩ c) : f c.world = f s := by
  have hsound : S.Sound P (fun s' => f s' = f s) fun _ _ => True := by
    refine ⟨fun _ => trivial, fun _ _ _ _ _ => trivial, ?_, ?_⟩
    · intro i s' _ _ hs'
      have hsat := ((hentry i).frames s').sat (I := fun x => x = f s) (R := fun _ _ => True)
        (y := f s') (fun _ _ _ _ _ => trivial) trivial hs'
      exact hsat.weaken (fun _ => id) (fun _ _ _ hi _ => ⟨hi, trivial⟩) (fun _ _ _ => trivial)
        fun _ => id
    · exact fun e s' s'' hP hs' he => ⟨(houtside e s' s'' hP he).trans hs', trivial⟩
  exact hrun.inv hsound rfl

end Zstrategy.Lib
