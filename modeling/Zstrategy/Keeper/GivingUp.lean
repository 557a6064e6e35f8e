/-
When the keeper tells the backend that an order is done. A refusal by the
registry is a fact about the chain at the point where the call was run;
what it says of a settled, expired or spent order stays true to the moment
of the post. The other refusals that are taken as definitive do not say
that the order is dead: the registry is paused, the hash is not registered
yet, the proof does not go with the price of the moment, or the text comes
from code that the registry calls. And the budget of attempts may run out
on anything.
-/
import Zstrategy.Custody.Guards
import Zstrategy.Custody.Settlement
import Zstrategy.Execution.Authorisation
import Zstrategy.Keeper.Submitter

namespace Zstrategy.Keeper

open Lib Contracts Code CommitmentRegistry

-- ================================================================ the messages

/-- What each definitive text looks like. -/
theorem definitive_shape : ∀ text ∈ definitive, ∃ t, text.toList = 'R' :: t
    ∧ '(' ∉ text.toList ∧ text.toList.getLast? ≠ some ' ' := by
  intro text htext
  simp only [definitive, List.mem_cons, List.not_mem_nil, or_false] at htext
  rcases htext with rfl | rfl | rfl | rfl | rfl | rfl | rfl
  all_goals exact ⟨_, rfl, by decide, by decide⟩

theorem numeral_no_capital (x : Numeral) : 'R' ∉ x.val.toList := by
  intro hmem
  have hlow := List.all_eq_true.1 x.property 'R' hmem
  simp at hlow

/-- What stands around the quoted message, where no definitive text begins. -/
theorem toList_replayMessage (txHash : Numeral) (m : String) (data : Option Numeral) :
    ∃ before after, (replayMessage txHash m data).toList = before ++ (m.toList ++ after)
      ∧ 'R' ∉ before ∧ (after = [] ∨ ∃ rest, after = ' ' :: '(' :: rest ∧ 'R' ∉ rest) := by
  have hopen : 'R' ∉ "Transaction reverted: ".toList := by decide
  have hquote : 'R' ∉ " — replay revert: ".toList := by decide
  have hsplit : ∀ p q r x y : String, (p ++ q ++ r ++ x ++ y).toList
      = p.toList ++ q.toList ++ r.toList ++ (x.toList ++ y.toList) := by
    intro p q r x y
    rw [String.toList_append, String.toList_append, String.toList_append,
      String.toList_append, List.append_assoc]
  have hbefore : 'R' ∉ "Transaction reverted: ".toList ++ txHash.val.toList
      ++ " — replay revert: ".toList := by
    rw [List.mem_append, List.mem_append, not_or, not_or]
    exact ⟨⟨hopen, numeral_no_capital txHash⟩, hquote⟩
  cases data with
  | none => exact ⟨_, "".toList, hsplit _ _ _ _ _, hbefore, Or.inl rfl⟩
  | some d =>
      refine ⟨_, (" (data=" ++ d.val ++ ")").toList, hsplit _ _ _ _ _, hbefore, Or.inr ?_⟩
      have hdata : 'R' ∉ "data=".toList := by decide
      have hclose : 'R' ∉ ")".toList := by decide
      refine ⟨"data=".toList ++ d.val.toList ++ ")".toList, ?_, ?_⟩
      · rw [String.toList_append, String.toList_append]
        rfl
      · rw [List.mem_append, List.mem_append, not_or, not_or]
        exact ⟨⟨hdata, numeral_no_capital d⟩, hclose⟩

/-- A definitive text in the error of a replay is in the error of the call. -/
theorem includes_replayMessage {txHash : Numeral} {m text : String} {data : Option Numeral}
    (htext : text ∈ definitive) (h : includes (replayMessage txHash m data) text = true) :
    includes m text = true := by
  obtain ⟨t, hshape, hparen, hlast⟩ := definitive_shape text htext
  obtain ⟨before, after, hparts, hbefore, hafter⟩ := toList_replayMessage txHash m data
  unfold includes at h ⊢
  rw [occurs_iff, hshape] at h ⊢
  rw [hshape] at hparen hlast
  rw [hparts] at h
  have hin := infix_of_infix_append hbefore h
  rcases hafter with rfl | ⟨rest, rfl, hrest⟩
  · rw [List.append_nil] at hin
    exact hin
  · apply infix_of_infix_concat hlast
    apply infix_of_infix_separator hparen hrest
    rw [List.append_assoc]
    exact hin

/-- An error quotes the reason of the revert, and nothing else of ours. -/
structure CallErrors.Quotes (errors : CallErrors) : Prop where
  estimateGas : ∀ reason, ∀ text ∈ definitive,
    includes (errors.estimateGas reason) text = includes reason text
  call : ∀ reason, ∀ text ∈ definitive,
    includes (errors.call reason) text = includes reason text

/-- A refusal that reads as definitive has a definitive reason. -/
theorem definitive_reason {errors : CallErrors} (hq : errors.Quotes) {f : Failure}
    {a : Attempt} {w : World} {reason : String} (hf : f.refusal = some (a, w, reason))
    (h : isDefinitiveRevert (f.message errors) = true) : isDefinitiveRevert reason = true := by
  unfold isDefinitiveRevert at h ⊢
  rw [List.any_eq_true] at h ⊢
  obtain ⟨text, htext, hin⟩ := h
  refine ⟨text, htext, ?_⟩
  cases f with
  | estimate a w reason =>
      cases hf
      rw [← hq.estimateGas reason text htext]
      exact hin
  | replay txHash a w reason data =>
      cases hf
      rw [← hq.call reason text htext]
      exact includes_replayMessage htext hin
  | other message => cases hf

-- ================================================================ the refusals

section Refusals

variable {net : Net} {req : ExecuteRequest} {w : World} {a : Attempt}

/-- Why the registry itself refuses an execution. -/
inductive Refused (req : ExecuteRequest) (a : Attempt) (w : World) : String → Prop
  | entered : Refused req a w "ReentrancyGuardReentrantCall()"
  | paused (h : w.registry.paused = true) : Refused req a w "Registry: paused"
  | notPending (h : (w.registry.commitments req.commitmentHash).status ≠ .PENDING) :
      Refused req a w "Registry: not pending"
  | expired (hpending : (w.registry.commitments req.commitmentHash).status = .PENDING)
      (h : (w.registry.commitments req.commitmentHash).expiry.toNat < w.timestamp) :
      Refused req a w "Registry: expired"
  | spent (h : w.registry.nullifiers req.nullifier = true) :
      Refused req a w "Registry: nullifier spent"
  | unset : Refused req a w "Registry: verifier not set for kind"
  | reference {e : String}
      (h : fillReference w (w.registry.commitments req.commitmentHash) a.fillRef = .error e) :
      Refused req a w e
  | unverified {y : UInt64}
      (hy : fillReference w (w.registry.commitments req.commitmentHash) a.fillRef = .ok y)
      (h : w.ext.verify (w.registry.verifiers
          (w.registry.commitments req.commitmentHash).kind.toUInt8) a.proof
        (publicInputs req.commitmentHash req.nullifier y
          (w.registry.commitments req.commitmentHash)) = false) :
      Refused req a w "Registry: invalid proof"

/-- A call is refused by the registry itself, or other code has been
called with everything checked. -/
def CalledOut (req : ExecuteRequest) (a : Attempt) (w : World) : Prop :=
  ∃ y, Authorised w req.commitmentHash req.nullifier a.proof a.fillRef y

/-- Nothing is owed once `A` is known. -/
theorem sat_of_known {A : Prop} (hA : A) {E : String → Prop} {α : Type}
    {o : Outcome World Request Reply α} :
    o.Sat ⟨fun _ => A, fun _ _ => True, fun _ _ => True, fun e => E e ∨ A⟩
      fun _ _ => A := by
  have hany : o.Sat Rely.any fun _ _ => A := Outcome.Sat.any fun _ _ => hA
  exact Outcome.Sat.weaken hany (fun _ _ => hA) (fun _ _ _ _ _ => ⟨trivial, trivial⟩)
    (fun _ _ _ => trivial) fun _ _ => Or.inr hA

/-- The checks, inside the lock, which none of them reads. -/
theorem wp_authorise_refused {Γ : Rely World Request Reply} {Q : UInt64 → World → Prop}
    (herr : ∀ e, Refused req a w e → Γ.err e)
    (hQ : ∀ y, Authorised w req.commitmentHash req.nullifier a.proof a.fillRef y →
      Q y (w.setRegistryEntered true)) :
    (authorise req.commitmentHash req.nullifier a.proof a.fillRef).wp Γ Q
      (w.setRegistryEntered true) := by
  unfold authorise
  rw [wp_bind, wp_read]
  simp only [wp_bind, wp_require, wp_ofExcept, wp_pure]
  refine ⟨fun hpending => ?_, fun h => herr _ (.notPending h)⟩
  refine ⟨fun hlive => ?_, fun h => herr _ (.expired hpending (Nat.lt_of_not_le h))⟩
  refine ⟨fun hunspent => ?_, fun h => herr _ (.spent (Bool.eq_true_of_not_eq_false h))⟩
  refine ⟨fun hset => ?_, fun _ => herr _ .unset⟩
  refine ⟨fun y hy => ?_, fun e he => herr e (.reference he)⟩
  refine ⟨fun hverify => hQ y ?_,
    fun h => herr _ (.unverified hy (Bool.eq_false_of_not_eq_true h))⟩
  exact ⟨hpending, hlive, hunspent, hset, hy, hverify⟩

/-- Until other code is called, the registry has refused or checked
everything. -/
theorem refused_or_calledOut :
    (a.code net req).wp ⟨fun _ => CalledOut req a w, fun _ _ => True, fun _ _ => True,
      fun e => Refused req a w e ∨ CalledOut req a w⟩ (fun _ _ => CalledOut req a w) w := by
  unfold Attempt.code executeCommitment
  rw [CommitmentRegistry.wp_nonReentrant]
  refine ⟨fun _ => ?_, fun _ => Or.inl .entered⟩
  rw [wp_bind, wp_whenNotPaused]
  refine ⟨fun _ => ?_, fun hpaused => Or.inl (.paused (Bool.eq_true_of_not_eq_false hpaused))⟩
  rw [wp_bind]
  refine wp_authorise_refused (fun e he => Or.inl he) fun y hy => ?_
  have hknown : CalledOut req a w := ⟨y, hy⟩
  exact sat_of_known hknown

/-- What a failed call says. -/
theorem refused_of_failsWith {reason : String}
    (h : failsWith reason (a.code net req w) = true) :
    CalledOut req a w ∨ ∃ e, Refused req a w e
      ∧ (e = reason ∨ e = "feed call reverted" ∨ e = "Registry: invalid proof") := by
  have hsat : (a.code net req w).Sat _ _ := refused_or_calledOut
  cases hcode : a.code net req w with
  | revert e =>
      rw [hcode] at h hsat
      rcases hsat with hrefused | hout
      · apply Or.inr
        refine ⟨e, hrefused, ?_⟩
        simpa [failsWith, or_assoc] using h
      · exact Or.inl hout
  | done u w' =>
      rw [hcode] at h
      cases h
  | call w' q resume =>
      rw [hcode] at hsat
      exact Or.inl hsat.1

-- =========================================================== the price reference

/-- What the reading of a price ends in reads as definitive only where the
feed speaks. -/
def FeedOrPassing (e : String) : Prop :=
  e = "feed call reverted" ∨ isDefinitiveRevert e = false

theorem fillReference_error {c : CommitmentRecord} {x : UInt64} {e : String}
    (h : fillReference w c x = .error e) : FeedOrPassing e := by
  have hpass : ∀ {p q : Prop} {e : String}, isDefinitiveRevert e = false → (p → q) →
      (p → q) ∧ (¬p → FeedOrPassing e) :=
    fun he hpq => ⟨hpq, fun _ => Or.inr he⟩
  have hpanic : isDefinitiveRevert panicArithmetic = false := by decide
  have hfeed : ∀ {f : Address} {P : Feed → World → Prop}, (∀ z, P z w) →
      (ofExcept (readFeed w f) : Contract Feed).wp
        ⟨fun _ => True, fun _ _ => True, fun _ _ => True, FeedOrPassing⟩ P w := by
    intro f P hP
    unfold readFeed
    cases w.ext.feed f with
    | none => exact Or.inl rfl
    | some z => exact hP z
  have hall : (ofExcept (fillReference w c x) : Contract UInt64).wp
      ⟨fun _ => True, fun _ _ => True, fun _ _ => True, FeedOrPassing⟩
      (fun _ _ => True) w := by
    unfold fillReference
    cases c.kind with
    | ORDER_FILL =>
        simp only [wp_ofExcept_bind, wp_expect, readOraclePrice, wp_checkedSub, wp_checkedMul]
        refine hpass (by decide) fun _ => hpass (by decide) fun _ => ?_
        refine hpass (by decide) fun _ => ?_
        refine hfeed fun f => hfeed fun g => ?_
        refine hpass (by decide) fun _ => hpass (by decide) fun _ => ?_
        -- the five checked operations
        refine hpass hpanic fun _ => hpass hpanic fun _ => hpass hpanic fun _ => ?_
        refine hpass hpanic fun _ => hpass hpanic fun _ => ?_
        exact hpass (by decide) fun _ => hpass (by decide) fun _ => trivial
    | DCA =>
        simp only [wp_ofExcept_bind, wp_expect]
        exact hpass (by decide) fun _ => hpass (by decide) fun _ => trivial
  exact ((wp_ofExcept _ _).1 hall).2 e h

-- ============================================================ what they say

/-- The order can never be executed again. -/
def Dead (req : ExecuteRequest) (w : World) : Prop :=
  (w.registry.commitments req.commitmentHash).status ≠ .PENDING
    ∨ (w.registry.commitments req.commitmentHash).expiry.toNat < w.timestamp
    ∨ w.registry.nullifiers req.nullifier = true
    ∨ (req.kind = .DCA ∧ req.scheduledHi + DCA_FILL_REF_MAX_AGE < w.timestamp)

/-- The reasons that no later transaction takes back. -/
def Settled (req : ExecuteRequest) (w : World) : Prop :=
  (w.registry.commitments req.commitmentHash).status.Terminal
    ∨ ((w.registry.commitments req.commitmentHash).status = .PENDING
      ∧ (w.registry.commitments req.commitmentHash).expiry.toNat < w.timestamp)
    ∨ w.registry.nullifiers req.nullifier = true

/-- The definitive refusals of an order that need not be dead. -/
inductive FoundAlive (req : ExecuteRequest) (a : Attempt) (w : World) : Prop
  | paused (h : w.registry.paused = true)
  /-- The hash is not registered, or not yet. -/
  | unregistered (h : (w.registry.commitments req.commitmentHash).status = .NONE)
  /-- The proof does not go with the reference of that moment: the price the
  feeds give, or the time of the fill. -/
  | rejected {y : UInt64}
      (hy : fillReference w (w.registry.commitments req.commitmentHash) a.fillRef = .ok y)
      (h : w.ext.verify (w.registry.verifiers
          (w.registry.commitments req.commitmentHash).kind.toUInt8) a.proof
        (publicInputs req.commitmentHash req.nullifier y
          (w.registry.commitments req.commitmentHash)) = false)
  /-- A price feed reverts with a text of its own. -/
  | feed (h : fillReference w (w.registry.commitments req.commitmentHash) a.fillRef
      = .error "feed call reverted")
  /-- Everything is checked; a vault, a token, the adapter or an executor
  has the text. -/
  | calledOut (h : CalledOut req a w)

/-- What a definitive refusal says of the order. -/
theorem settled_or_foundAlive {reason : String}
    (h : failsWith reason (a.code net req w) = true)
    (hdef : isDefinitiveRevert reason = true) : Settled req w ∨ FoundAlive req a w := by
  rcases refused_of_failsWith h with hout | ⟨e, hrefused, htext⟩
  · exact Or.inr (.calledOut hout)
  have hpassing : isDefinitiveRevert e = false → e = "Registry: invalid proof"
      ∨ e = "feed call reverted" := by
    intro he
    rcases htext with rfl | rfl | rfl
    · rw [hdef] at he
      cases he
    · exact Or.inr rfl
    · exact Or.inl rfl
  cases hrefused with
  | entered => exact absurd (hpassing (by decide)) (by decide)
  | paused hpaused => exact Or.inr (.paused hpaused)
  | notPending hstatus =>
      cases hs : (w.registry.commitments req.commitmentHash).status with
      | NONE => exact Or.inr (.unregistered hs)
      | PENDING => exact absurd hs hstatus
      | EXECUTED | CANCELLED | EXPIRED =>
          apply Or.inl
          apply Or.inl
          rw [hs]
          trivial
  | expired hpending hlate => exact Or.inl (Or.inr (Or.inl ⟨hpending, hlate⟩))
  | spent hspent => exact Or.inl (Or.inr (Or.inr hspent))
  | unset => exact absurd (hpassing (by decide)) (by decide)
  | reference href =>
      rcases fillReference_error href with rfl | hpass
      · exact Or.inr (.feed href)
      · rcases hpassing hpass with rfl | rfl
        · exact absurd hpass (by decide)
        · exact Or.inr (.feed href)
  | unverified hy hrejected => exact Or.inr (.rejected hy hrejected)

/-- A settled order is dead ever after. -/
theorem Settled.dead {w' : World} {P : World → ChainMove → Prop} (h : Settled req w)
    (hrun : (chain net).Run P ⟨w, []⟩ ⟨w', []⟩) : Dead req w' := by
  have hany : (chain net).Run anyMove ⟨w, []⟩ ⟨w', []⟩ := hrun.mono fun _ _ _ => trivial
  obtain ⟨htime, -⟩ := steady_run hrun
  obtain ⟨d, m, es, rs, hpath, -⟩ := run_tracks allows_any hany
  have hev : (w.registry.commitments req.commitmentHash).Evolves
      (w'.registry.commitments req.commitmentHash) := evolves_path hpath _
  rcases h with hterminal | ⟨hpending, hlate⟩ | hspent
  · apply Or.inl
    rw [hev.follows.terminal hterminal]
    intro hpending
    rw [hpending] at hterminal
    exact hterminal
  · apply Or.inr
    apply Or.inl
    have hopen : (w.registry.commitments req.commitmentHash).status ≠ .NONE := by
      rw [hpending]
      decide
    have hexpiry : (w'.registry.commitments req.commitmentHash).expiry
        = (w.registry.commitments req.commitmentHash).expiry := by
      rw [hev.frozen hopen]
      rfl
    rw [hexpiry]
    exact Nat.lt_of_lt_of_le hlate htime
  · exact Or.inr (Or.inr (Or.inl (spent_path hpath hspent)))

end Refusals

-- ====================================================================== runs

section Runs

variable {net : Net} {config : SubmitConfig} {errors : CallErrors} {req : ExecuteRequest}
  {s s' : Submission}

/-- Why a post is on its way. -/
structure Warranted (config : SubmitConfig) (errors : CallErrors) (why : GivenUp)
    (s : Submission) : Prop where
  foreign : isUserFixableRevert (s.lastError.message errors) = false
  definitive : why = .definitive → isDefinitiveRevert (s.lastError.message errors) = true
  exhausted : why = .exhausted → config.maxRetries ≤ s.attempt

/-- The chain at the noted points leads to the chain now; a refusal was
given at one of them; a post has its reason. -/
structure Grounded (net : Net) (config : SubmitConfig) (errors : CallErrors)
    (req : ExecuteRequest) (s : Submission) : Prop where
  past : ∀ p ∈ s.past, (chain net).Run anyMove ⟨p, []⟩ s.chain
  refused : ∀ a p reason, s.lastError.refusal = some (a, p, reason) →
    p ∈ s.past ∧ failsWith reason (a.code net req p) = true
  warranted : ∀ why reason, s.phase = .notifying why reason → Warranted config errors why s

namespace Grounded

/-- A step that neither ends an attempt nor gives up. -/
theorem moved {phase : Phase} {attempt : ℕ} {posts : List DonePost}
    (h : Grounded net config errors req s)
    (hphase : ∀ why reason, phase ≠ .notifying why reason) :
    Grounded net config errors req
      { s with phase := phase, attempt := attempt, posts := posts } where
  past := h.past
  refused := h.refused
  warranted why reason heq := absurd heq (hphase why reason)

/-- An attempt ends in an error. -/
theorem caught {f : Failure} (h : Grounded net config errors req s)
    (hf : ∀ a p reason, f.refusal = some (a, p, reason) →
      p ∈ s.past ∧ failsWith reason (a.code net req p) = true) :
    Grounded net config errors req (s.caught errors req f) where
  past := h.past
  refused := hf
  warranted := by
    intro why reason heq
    simp only [Submission.caught] at heq
    split at heq
    · cases heq
    · rename_i hforeign
      split at heq
      · rename_i hdefinitive
        cases heq
        exact ⟨Bool.eq_false_of_not_eq_true hforeign, fun _ => hdefinitive,
          fun hw => by cases hw⟩
      · cases heq

theorem caught_other (message : String) (h : Grounded net config errors req s) :
    Grounded net config errors req (s.caught errors req (.other message)) := by
  apply h.caught
  intro a p reason href
  cases href

/-- After the loop. -/
theorem exhausted (h : Grounded net config errors req s)
    (hbudget : config.maxRetries ≤ s.attempt) :
    Grounded net config errors req (s.exhausted errors req) where
  past := h.past
  refused := h.refused
  warranted := by
    intro why reason heq
    simp only [Submission.exhausted] at heq
    split at heq
    · cases heq
    · rename_i hforeign
      cases heq
      exact ⟨Bool.eq_false_of_not_eq_true hforeign, (fun hw => by cases hw),
        fun _ => hbudget⟩

/-- A simulated call. -/
theorem simulate {a : Attempt} {answer : Answer} {next : Submission}
    {refused : World → String → Failure} {failed : String → Failure}
    (h : Grounded net config errors req s) (hnext : Grounded net config errors req next)
    (hrefused : ∀ w reason, (refused w reason).refusal = some (a, w, reason))
    (hfailed : ∀ m, (failed m).refusal = none)
    (hs : s.simulate net errors req a answer next refused failed = some s') :
    Grounded net config errors req s' := by
  cases answer with
  | ok =>
      cases hs
      exact hnext
  | reverted i reason =>
      simp only [Submission.simulate] at hs
      split at hs
      · cases hs
      · rename_i w hw
        split at hs
        · rename_i hfails
          cases hs
          apply h.caught
          intro b p text href
          rw [hrefused] at href
          cases href
          exact ⟨List.mem_of_getElem? hw, hfails⟩
        · cases hs
  | failed message =>
      cases hs
      apply h.caught
      intro b p text href
      rw [hfailed] at href
      cases href

theorem onChain {move : ChainMove} (h : Grounded net config errors req s)
    (hs : s.onChain net move = some s') : Grounded net config errors req s' := by
  unfold Submission.onChain at hs
  split at hs
  · cases hs
  · rename_i c hc
    cases hs
    refine ⟨?_, ?_, ?_⟩
    · intro p hp
      have hold : p ∈ s.past → (chain net).Run anyMove ⟨p, []⟩ c :=
        fun hmem => .tail move (h.past p hmem) trivial hc
      show (chain net).Run anyMove ⟨p, []⟩ c
      simp only at hp
      split at hp
      · rename_i hidle
        rcases List.mem_append.1 hp with hmem | hnew
        · exact hold hmem
        · rw [List.mem_singleton.1 hnew]
          obtain ⟨w, stack⟩ := c
          rw [List.isEmpty_iff] at hidle
          cases hidle
          exact .refl _
      · exact hold hp
    · intro a p reason href
      obtain ⟨hmem, hfails⟩ := h.refused a p reason href
      refine ⟨?_, hfails⟩
      simp only
      split
      · exact List.mem_append_left _ hmem
      · exact hmem
    · intro why reason heq
      have hwhy : Warranted config errors why s := h.warranted why reason heq
      exact ⟨hwhy.foreign, hwhy.definitive, hwhy.exhausted⟩

theorem step {e : SubmitStep} (h : Grounded net config errors req s)
    (hs : s.step net config errors req e = some s') : Grounded net config errors req s' := by
  cases e with
  | chain move => exact h.onChain hs
  | go =>
      simp only [Submission.step] at hs
      split at hs
      · split at hs
        · cases hs
          exact h.moved fun _ _ heq => by cases heq
        · rename_i hbudget
          cases hs
          exact h.exhausted (Nat.le_of_not_lt hbudget)
      · cases hs
        exact h.moved fun _ _ heq => by cases heq
      · cases hs
        exact h.moved fun _ _ heq => by cases heq
      · cases hs
  | prove now outcome =>
      simp only [Submission.step] at hs
      split at hs
      · cases hs
        exact h.moved fun _ _ heq => by cases heq
      · cases hs
        exact h.caught_other _
      · cases hs
  | feeData outcome =>
      simp only [Submission.step] at hs
      split at hs
      · cases hs
        exact h.moved fun _ _ heq => by cases heq
      · cases hs
        exact h.caught_other _
      · cases hs
  | estimate answer =>
      simp only [Submission.step] at hs
      split at hs
      · refine h.simulate ?_ (fun _ _ => rfl) (fun _ => rfl) hs
        exact h.moved fun _ _ heq => by cases heq
      · cases hs
  | send outcome =>
      simp only [Submission.step] at hs
      split at hs
      · cases hs
        exact h.moved fun _ _ heq => by cases heq
      · cases hs
        exact h.caught_other _
      · cases hs
  | wait outcome =>
      simp only [Submission.step] at hs
      split at hs
      · cases hs
        exact h.moved fun _ _ heq => by cases heq
      · cases hs
        exact h.moved fun _ _ heq => by cases heq
      · cases hs
        exact h.caught_other _
      · cases hs
  | replay blockNumber data answer =>
      simp only [Submission.step] at hs
      split at hs
      · exact h.simulate (h.caught_other _) (fun _ _ => rfl) (fun _ => rfl) hs
      · cases hs

theorem machine {e : SubmitStep} (h : Grounded net config errors req s)
    (hs : (submitter net config errors req).step e s = some s') :
    Grounded net config errors req s' := by
  cases e with
  | chain move => exact h.onChain hs
  | _ =>
      simp only [submitter] at hs
      split at hs
      · exact h.step hs
      · cases hs

theorem initial (w : World) : Grounded net config errors req (.initial w) where
  past := by
    intro p hp
    rw [List.mem_singleton.1 hp]
    exact .refl _
  refused := by
    intro a p reason href
    cases href
  warranted := by
    intro why reason heq
    cases heq

theorem run {w : World}
    (hrun : (submitter net config errors req).Run Machine.anyStep (.initial w) s) :
    Grounded net config errors req s :=
  hrun.inv (fun _ _ _ h _ hs => h.machine hs) (initial w)

end Grounded

/-- A post comes from `notifying`, between transactions. -/
theorem notifying_of_post {e : SubmitStep}
    (hs : (submitter net config errors req).step e s = some s') (hpost : s'.posts ≠ s.posts) :
    s.chain.stack = [] ∧ s'.chain = s.chain ∧ ∃ why reason, s.phase = .notifying why reason := by
  have hsim : ∀ {a answer next refused failed},
      s.simulate net errors req a answer next refused failed = some s' →
      next.posts = s.posts → s'.posts = s.posts := by
    intro a answer next refused failed h hnext
    cases answer with
    | ok =>
        cases h
        exact hnext
    | reverted i reason =>
        simp only [Submission.simulate] at h
        split at h
        · cases h
        · split at h
          · cases h
            rfl
          · cases h
    | failed message =>
        cases h
        rfl
  cases e with
  | chain move =>
      simp only [submitter, Submission.onChain] at hs
      split at hs
      · cases hs
      · cases hs
        exact absurd rfl hpost
  | go =>
      simp only [submitter] at hs
      split at hs
      · rename_i hidle
        simp only [Submission.step] at hs
        split at hs
        · split at hs
          · cases hs
            exact absurd rfl hpost
          · cases hs
            exact absurd rfl hpost
        · cases hs
          exact absurd rfl hpost
        · rename_i why reason hphase
          cases hs
          exact ⟨List.isEmpty_iff.1 hidle, rfl, why, reason, hphase⟩
        · cases hs
      · cases hs
  | estimate answer =>
      simp only [submitter, Submission.step] at hs
      split at hs
      · split at hs
        · exact absurd (hsim hs rfl) hpost
        · cases hs
      · cases hs
  | replay blockNumber data answer =>
      simp only [submitter, Submission.step] at hs
      split at hs
      · split at hs
        · exact absurd (hsim hs rfl) hpost
        · cases hs
      · cases hs
  | _ =>
      simp only [submitter, Submission.step] at hs
      split at hs
      · split at hs
        all_goals
          cases hs
          try exact absurd rfl hpost
      · cases hs

end Runs

-- ================================================================ the theorem

/-- The keeper gives up an order for a reason: the attempts are used up, or
the last error has one of the definitive texts. The order is then dead at
the moment of the post, or the text is not the registry's refusal of a call
at all, or the registry refused the call, at a point of this run that the
chain has passed, for one of the reasons that do not mean that the order is
dead. -/
theorem keeper_gives_up {net : Net} {config : SubmitConfig} {errors : CallErrors}
    {req : ExecuteRequest} (hquotes : errors.Quotes) {w : World} {s s' : Submission}
    {e : SubmitStep}
    (hrun : (submitter net config errors req).Run Machine.anyStep (.initial w) s)
    (hs : (submitter net config errors req).step e s = some s') (hpost : s'.posts ≠ s.posts) :
    isUserFixableRevert (s.lastError.message errors) = false
      ∧ (config.maxRetries ≤ s.attempt
        ∨ isDefinitiveRevert (s.lastError.message errors) = true
          ∧ (Dead req s'.chain.world
            ∨ s.lastError.refusal = none
            ∨ ∃ a p reason, s.lastError.refusal = some (a, p, reason)
              ∧ isDefinitiveRevert reason = true ∧ p ∈ s.past
              ∧ (chain net).Run anyMove ⟨p, []⟩ s.chain ∧ FoundAlive req a p)) := by
  have hground : Grounded net config errors req s := Grounded.run hrun
  obtain ⟨hidle, hchain, why, reason, hphase⟩ := notifying_of_post hs hpost
  have hwhy := hground.warranted why reason hphase
  refine ⟨hwhy.foreign, ?_⟩
  cases why with
  | exhausted => exact Or.inl (hwhy.exhausted rfl)
  | definitive =>
      have hmessage := hwhy.definitive rfl
      refine Or.inr ⟨hmessage, ?_⟩
      cases href : s.lastError.refusal with
      | none => exact Or.inr (Or.inl rfl)
      | some refusal =>
          obtain ⟨a, p, text⟩ := refusal
          obtain ⟨hmem, hfails⟩ := hground.refused a p text href
          have hpath := hground.past p hmem
          have hdef := definitive_reason hquotes href hmessage
          rcases settled_or_foundAlive hfails hdef with hsettled | hfound
          · apply Or.inl
            rw [hchain]
            obtain ⟨⟨w', stack⟩, _, _, _, _, _⟩ := s
            cases hidle
            exact hsettled.dead hpath
          · exact Or.inr (Or.inr ⟨a, p, text, rfl, hdef, hmem, hpath, hfound⟩)

-- ==================================================================== samples

/-- `execution reverted: "…"` -/
def sampleQuote (reason : String) : String := "execution reverted: \"" ++ reason ++ "\""

def sampleErrors : CallErrors := ⟨sampleQuote, sampleQuote⟩

theorem includes_sampleQuote {reason text : String} (htext : text ∈ definitive) :
    includes (sampleQuote reason) text = includes reason text := by
  have hparts : (sampleQuote reason).toList
      = "execution reverted: \"".toList ++ (reason.toList ++ ['"']) := by
    unfold sampleQuote
    rw [String.toList_append, String.toList_append, List.append_assoc]
    rfl
  have hopen : 'R' ∉ "execution reverted: \"".toList := by decide
  have hclose : text.toList.getLast? ≠ some '"' := by
    simp only [definitive, List.mem_cons, List.not_mem_nil, or_false] at htext
    rcases htext with rfl | rfl | rfl | rfl | rfl | rfl | rfl
    all_goals decide
  obtain ⟨t, hshape, -, -⟩ := definitive_shape text htext
  rw [hshape] at hclose
  rw [Bool.eq_iff_iff]
  unfold includes
  rw [occurs_iff, occurs_iff, hparts, hshape]
  constructor
  · intro h
    exact infix_of_infix_concat hclose (infix_of_infix_append hopen h)
  · intro h
    exact h.trans ((List.prefix_append _ _).isInfix.trans (List.suffix_append _ _).isInfix)

theorem sampleErrors_quotes : sampleErrors.Quotes :=
  ⟨fun _ _ htext => includes_sampleQuote htext, fun _ _ htext => includes_sampleQuote htext⟩

def sampleConfig : SubmitConfig := ⟨2, "http://backend/"⟩

/-- The order that `sampleListed` registers. -/
def sampleRequest : ExecuteRequest := ⟨77, "0x4d", .ORDER_FILL, 500, 0, none⟩

def sampleListed : List SubmitStep :=
  (sampleSetup ++ [call 8 (.registerCommitment 77 10 11 60 5 2000 .ORDER_FILL)]).map .chain

/-- An attempt up to its call. -/
def sampleAttempt : List SubmitStep :=
  [.go, .prove 0 (.ok []), .feeData (.ok ⟨9, 0, 1, 1⟩)]

/-- The owner cancels, and the keeper's call reverts. -/
def sampleCancelled : List SubmitStep :=
  sampleListed ++ .chain (call 8 (.cancelCommitment 77 501)) :: sampleAttempt
    ++ [.estimate (.reverted 5 "Registry: not pending")]

/-- The guardian pauses for a moment, and the keeper's call reverts. -/
def samplePaused : List SubmitStep :=
  sampleListed ++ .chain (call 7 .pause) :: sampleAttempt
    ++ [.estimate (.reverted 5 "Registry: paused"), .chain (call 7 .unpause)]

/-- The node does not answer. -/
def sampleTimeout : List SubmitStep :=
  sampleAttempt ++ [.estimate (.failed "timeout"), .go]

def sampleExhausted : List SubmitStep :=
  sampleListed ++ sampleTimeout ++ sampleTimeout ++ [.go]

/-- `submitExecution(sampleRequest)` after these steps. -/
def sampleSubmission (steps : List SubmitStep) : Submission :=
  (submitter sampleNet sampleConfig sampleErrors sampleRequest).endOf (fun _ _ => true) steps
    (.initial sampleWorld)

theorem keeper_gives_up_sample :
    let s := sampleSubmission sampleCancelled
    let s' := sampleSubmission (sampleCancelled ++ [.go])
    s'.posts = [⟨"http://backend/api/v1/strategies/0x4d/done",
        "execution reverted: \"Registry: not pending\""⟩]
      ∧ (sampleConfig.maxRetries ≤ s.attempt
        ∨ isDefinitiveRevert (s.lastError.message sampleErrors) = true
          ∧ (Dead sampleRequest s'.chain.world
            ∨ s.lastError.refusal = none
            ∨ ∃ a p reason, s.lastError.refusal = some (a, p, reason)
              ∧ isDefinitiveRevert reason = true ∧ p ∈ s.past
              ∧ (chain sampleNet).Run anyMove ⟨p, []⟩ s.chain ∧ FoundAlive sampleRequest a p)) := by
  intro s s'
  have hrun : (submitter sampleNet sampleConfig sampleErrors sampleRequest).Run Machine.anyStep
      (.initial sampleWorld) s := .endOf (fun _ _ _ => trivial) (by decide +kernel)
  have hstep : (submitter sampleNet sampleConfig sampleErrors sampleRequest).step .go s
      = some s' := rfl
  have hnone : s.posts.length = 0 := by decide +kernel
  have hone : s'.posts.length = 1 := by decide +kernel
  refine ⟨by decide +kernel, (keeper_gives_up sampleErrors_quotes hrun hstep ?_).2⟩
  intro heq
  rw [heq, hnone] at hone
  cases hone

/-- An order that is not dead: it is registered, its time has not come and
its nullifier is unspent. -/
theorem not_dead {req : ExecuteRequest} {w : World} (hkind : req.kind = .ORDER_FILL)
    (hpending : (w.registry.commitments req.commitmentHash).status = .PENDING)
    (hlive : w.timestamp ≤ (w.registry.commitments req.commitmentHash).expiry.toNat)
    (hunspent : w.registry.nullifiers req.nullifier = false) : ¬Dead req w := by
  intro h
  rcases h with hstatus | hlate | hspent | ⟨hdca, -⟩
  · exact hstatus hpending
  · omega
  · rw [hunspent] at hspent
    cases hspent
  · rw [hkind] at hdca
    cases hdca

/-- After these steps the keeper posts, and the order is not dead. -/
def PostsAlive (steps : List SubmitStep) : Prop :=
  let s := sampleSubmission steps
  let s' := sampleSubmission (steps ++ [.go])
  (submitter sampleNet sampleConfig sampleErrors sampleRequest).Run Machine.anyStep
      (.initial sampleWorld) s
    ∧ (submitter sampleNet sampleConfig sampleErrors sampleRequest).step .go s = some s'
    ∧ s'.posts ≠ s.posts
    ∧ s'.chain.world.registry.paused = false ∧ ¬Dead sampleRequest s'.chain.world

/-- The keeper gives up a live order when the registry is paused for the
length of one call, and when the node does not answer as often as the
keeper tries. -/
theorem gives_up_live_orders : PostsAlive samplePaused ∧ PostsAlive sampleExhausted := by
  constructor
  · refine ⟨.endOf (fun _ _ _ => trivial) (by decide +kernel), rfl, ?_, by decide +kernel, ?_⟩
    · decide +kernel
    · exact not_dead rfl (by decide +kernel) (by decide +kernel) (by decide +kernel)
  · refine ⟨.endOf (fun _ _ _ => trivial) (by decide +kernel), rfl, ?_, by decide +kernel, ?_⟩
    · decide +kernel
    · exact not_dead rfl (by decide +kernel) (by decide +kernel) (by decide +kernel)

end Zstrategy.Keeper
