/-
The vault's functions on the book: each incurs its own act, settles it
where it emits, and leaves the rest of the world's book alone. The
standard tokens move inside the act; for any other token control leaves
in the middle, before the act for a deposit and after it for a payment.

A deposit or a withdrawal is shown by the receipt of its call, so its item
is still outstanding when the text ends. What a release or a return settles
is shown by the event at its end. Each of the three functions for the
registry is used twice: by our registry, as the end of an act of its own,
and by a foreign one, as an act in itself.
-/
import Zstrategy.Custody.Tracking

namespace Zstrategy.Contracts

open Lib Code

variable {net : Net} {ok : Act → Prop} {o : World} {d d' : Multiset Item}
variable {s w : World}

-- ============================================================ proof steps

/-- A check that may fail: the failing side owes nothing. -/
theorem check {p q : Prop} {e : String} (h : p → q) :
    (p → q) ∧ (¬p → (bookRely net ok o).err e) :=
  ⟨h, fun _ => bookRely_err e⟩

theorem Moves.of_book {t src dst : Address} {a : U256} {Q : Unit → World → Prop}
    (h : a.val ≤ w.balances t src → Q () (w.moveToken t src dst a.val)) :
    Moves (bookRely net ok o) t src dst a Q w :=
  check fun _ => check h

/-- A token payment that ends an act: whatever the act did so far is in
`w`, and the payment is what is left of its effect. A standard token moves
at once; with any other the act is complete when control leaves. -/
theorem safeTransfer_trans {act : Act} {v t dst : Address} {a : U256} {w₀ : World}
    (hb : Tracks net ok o s) (h : Trans net ok d s w₀) (hok : ok act)
    (hg : w₀.book.CanPay net t v a.val → act.guard net w₀.book)
    (he : act.effect net w₀.book = w.book.pay net t v dst a.val)
    (hbal : w.balances = w₀.balances) (hl : w.log = w₀.log)
    (hr : w.receipts = w₀.receipts) :
    (safeTransfer net v t dst a).wp (bookRely net ok o)
      (fun _ w' => Trans net ok (d + act.incurs net w₀.book) s w') w := by
  rw [wp_safeTransfer]
  constructor
  · intro hs
    refine Moves.of_book fun hle => h.act hok (hg fun _ => ?_) ?_ hl hr
    · show a.val ≤ w₀.balances t v
      rw [← hbal]
      exact hle
    · rw [book_moveToken hs, he]
  · intro hs
    refine (h.act hok (hg fun hs' => absurd hs' hs) ?_ hl hr).ask hb
      fun _ _ h => h
    rw [he, Book.pay, if_neg hs]

namespace CollateralVault

theorem nonReentrant_trans {v : Address} {body : Contract Unit}
    (h : Trans net ok d s w)
    (hbody : ∀ w', Trans net ok d s w' → w'.book = w.book →
      body.wp (bookRely net ok o) (fun _ w'' => Trans net ok d' s w'') w') :
    (nonReentrant v body).wp (bookRely net ok o)
      (fun _ w' => Trans net ok d' s w') w := by
  rw [wp_nonReentrant]
  refine check fun _ => wp_mono (hbody _ (h.same ?_ rfl rfl) ?_) ?_
  · exact book_setEntered v true
  · exact book_setEntered v true
  · intro _ w'' h''
    exact h''.same (book_setEntered v false) rfl rfl

-- ==================================================================== users

/-- The tokens come first, so a foreign token is called before the act. -/
theorem deposit_trans {m : Msg} {v t : Address} {a : U256}
    (hb : Tracks net ok o s) (h : Trans net ok d s w)
    (hv : net.isVault v = true) (hu : net.isVault m.sender = false)
    (hok : ok (.deposit v m.sender t a.val)) :
    (deposit net m v t a).wp (bookRely net ok o)
      (fun _ w' => Trans net ok (d + {.deposit v m.sender t a.val}) s w') w := by
  unfold deposit
  refine nonReentrant_trans h fun w h _ => ?_
  simp only [wp_bind, wp_require, wp_safeTransferFrom, wp_addFree, wp_emit]
  refine check fun ha => ⟨fun hs => ?_, fun hs => ?_⟩
  · refine Moves.of_book fun hbal => check fun hfree => .note ?_ rfl
    refine h.act hok ⟨hv, hu, ha, fun _ => hbal, hfree⟩ ?_ rfl rfl
    rw [book_setFree, book_moveToken hs]
    rfl
  · refine h.ask hb fun _ w h => check fun hfree => .note ?_ rfl
    refine h.act hok ⟨hv, hu, ha, fun hs' => absurd hs' hs, hfree⟩ ?_ rfl rfl
    rw [book_setFree, Act.effect, Book.pay, if_neg hs]
    rfl

/-- The free balance falls first, so a foreign token is called after it. -/
theorem withdraw_trans {m : Msg} {v t : Address} {a : U256}
    (hb : Tracks net ok o s) (h : Trans net ok d s w)
    (hv : net.isVault v = true) (hu : net.isVault m.sender = false)
    (hok : ok (.withdraw v m.sender t a.val)) :
    (withdraw net m v t a).wp (bookRely net ok o)
      (fun _ w' => Trans net ok (d + {.withdraw v m.sender t a.val}) s w') w := by
  unfold withdraw
  refine nonReentrant_trans h fun w h _ => ?_
  simp only [wp_bind, wp_require, wp_read, wp_subFree, wp_emit]
  refine check fun ha => check fun hfree => check fun _ => ?_
  refine wp_mono (safeTransfer_trans hb h hok ?_ ?_ rfl rfl rfl)
    fun _ w' h' => h'.note rfl
  · exact fun hpay => ⟨hv, hu, ha, hfree, hpay⟩
  · rw [book_setFree]
    rfl

end CollateralVault

-- ============================================================ registry only

namespace World

/-- The two writes of `lockCollateral`. -/
def lock (v : Address) (h : Bytes32) (u t : Address) (a : ℕ) (w : World) : World :=
  (w.setFree v u t (w.book.free v u t - a)).setLocked v h t
    (w.book.locked v h t + a)

/-- The two writes of `returnCollateral`. -/
def giveBack (v : Address) (h : Bytes32) (u t : Address) (a : ℕ) (w : World) :
    World :=
  (w.setLocked v h t (w.book.locked v h t - a)).setFree v u t
    (w.book.free v u t + a)

end World

@[simp] theorem book_lock (v : Address) (h : Bytes32) (u t : Address) (a : ℕ) :
    (w.lock v h u t a).book = w.book.lock v h u t a := by
  rw [World.lock, book_setLocked, book_setFree]
  rfl

@[simp] theorem book_giveBack (v : Address) (h : Bytes32) (u t : Address) (a : ℕ) :
    (w.giveBack v h u t a).book = w.book.giveBack v h u t a := by
  rw [World.giveBack, book_setFree, book_setLocked]
  rfl

/-
The three functions below serve two kinds of act: a foreign registry's
own, and the end of an act of our registry, which has come from `w₀` to
`w` without control leaving. Both are the same proof step: what the
function does to `w` is what was left of the act's effect on `w₀`.
-/
namespace CollateralVault

variable {sender v u t dst : Address} {h : Bytes32} {a : U256}
variable {act : Act} {w₀ : World}

/-- The end of a registration: free collateral becomes locked, and no token
moves. -/
theorem lockCollateral_trans (hw : Trans net ok d s w₀) (hok : ok act)
    (hg : sender = w.book.registryOf v → a.val ≤ w.book.free v u t →
      w.book.locked v h t + a.val < 2 ^ 256 → act.guard net w₀.book)
    (he : act.effect net w₀.book = w.book.lock v h u t a.val)
    (hl : w.log = w₀.log) (hr : w.receipts = w₀.receipts) :
    (lockCollateral sender v h u t a).wp (bookRely net ok o)
      (fun _ w' => Trans net ok (d + act.incurs net w₀.book) s w') w := by
  unfold lockCollateral
  simp only [wp_bind, wp_onlyRegistry, wp_read, wp_require, wp_subFree, wp_addLocked,
    wp_emit]
  refine check fun hreg => check fun hfree => check fun _ => check fun hmax => ?_
  rw [World.lockedBalance_setFree] at hmax ⊢
  refine .note (hw.act hok (hg hreg hfree hmax) ?_ hl hr) rfl
  rw [he, ← book_lock]
  rfl

/-- The end of a cancellation or an expiry: the lock becomes free again, and
the event shows it. -/
theorem returnCollateral_trans (hw : Trans net ok d s w₀) (hok : ok act)
    (hg : sender = w.book.registryOf v → a.val ≤ w.book.locked v h t →
      w.book.free v u t + a.val < 2 ^ 256 → act.guard net w₀.book)
    (he : act.effect net w₀.book = w.book.giveBack v h u t a.val)
    (hd : act.incurs net w₀.book = d' + {.settled v h t a.val})
    (hl : w.log = w₀.log) (hr : w.receipts = w₀.receipts) :
    (returnCollateral sender v h u t a).wp (bookRely net ok o)
      (fun _ w' => Trans net ok (d + d') s w') w := by
  unfold returnCollateral
  simp only [wp_bind, wp_onlyRegistry, wp_read, wp_require, wp_subLocked, wp_addFree,
    wp_emit]
  refine check fun hreg => check fun hle => check fun _ => check fun hmax => ?_
  rw [World.freeBalance_setLocked] at hmax ⊢
  have hact : Trans net ok (d + act.incurs net w₀.book) s (w.giveBack v h u t a.val) :=
    hw.act hok (hg hreg hle hmax) (by rw [he, book_giveBack]) hl hr
  rw [hd, ← add_assoc] at hact
  exact hact.emit

/-- The end of an execution in the vault: the lock is paid out, and
the event shows it. -/
theorem releaseForExecution_trans (hb : Tracks net ok o s)
    (hw : Trans net ok d s w₀) (hok : ok act)
    (hg : sender = w.book.registryOf v → a.val ≤ w.book.locked v h t →
      w₀.book.CanPay net t v a.val → act.guard net w₀.book)
    (he : act.effect net w₀.book = w.book.release net v h t a.val dst)
    (hd : act.incurs net w₀.book = d' + {.settled v h t a.val})
    (hbal : w.balances = w₀.balances) (hl : w.log = w₀.log)
    (hr : w.receipts = w₀.receipts) :
    (releaseForExecution net sender v h t a dst).wp (bookRely net ok o)
      (fun _ w' => Trans net ok (d + d') s w') w := by
  unfold releaseForExecution
  simp only [wp_bind, wp_onlyRegistry, wp_read, wp_require, wp_subLocked, wp_emit]
  refine check fun hreg => check fun hle => check fun _ => ?_
  refine wp_mono (safeTransfer_trans hb hw hok (hg hreg hle) ?_ hbal hl hr) ?_
  · rw [he, book_setLocked]
    rfl
  · intro _ w' h'
    rw [hd, ← add_assoc] at h'
    exact h'.emit

-- ============================================================== other calls

variable {m : Msg}

/-- A sender that is not ours is not our registry. -/
private theorem foreign (hv : net.isVault v = true) (hs : sender ≠ net.registry)
    (hreg : sender = w.book.registryOf v) : w.book.Foreign net v :=
  ⟨hv, hreg ▸ hs⟩

/-- Called by a registry that is not ours, the function is the act
`lock`. -/
theorem foreign_lock_trans (hw : Trans net ok d s w) (hv : net.isVault v = true)
    (hs : sender ≠ net.registry) (hok : ok (.lock v h u t a.val)) :
    (lockCollateral sender v h u t a).wp (bookRely net ok o)
      (fun _ w' => Trans net ok d s w') w := by
  have hlock : (lockCollateral sender v h u t a).wp (bookRely net ok o)
      (fun _ w' => Trans net ok (d + 0) s w') w :=
    lockCollateral_trans hw hok
      (fun hreg hfree hmax => ⟨foreign hv hs hreg, hfree, hmax⟩) rfl rfl rfl
  rwa [add_zero] at hlock

/-- Here it is the act `giveBack`. -/
theorem foreign_return_trans (hw : Trans net ok d s w) (hv : net.isVault v = true)
    (hs : sender ≠ net.registry) (hok : ok (.giveBack v h u t a.val)) :
    (returnCollateral sender v h u t a).wp (bookRely net ok o)
      (fun _ w' => Trans net ok d s w') w := by
  have hreturn : (returnCollateral sender v h u t a).wp (bookRely net ok o)
      (fun _ w' => Trans net ok (d + 0) s w') w :=
    returnCollateral_trans hw hok
      (fun hreg hle hmax => ⟨foreign hv hs hreg, hle, hmax⟩) rfl (zero_add _).symm rfl rfl
  rwa [add_zero] at hreturn

/-- And here `release`. -/
theorem foreign_release_trans (hb : Tracks net ok o s) (hw : Trans net ok d s w)
    (hv : net.isVault v = true) (hs : sender ≠ net.registry)
    (hok : ok (.release v h t a.val dst)) :
    (releaseForExecution net sender v h t a dst).wp (bookRely net ok o)
      (fun _ w' => Trans net ok d s w') w := by
  have hrelease : (releaseForExecution net sender v h t a dst).wp (bookRely net ok o)
      (fun _ w' => Trans net ok (d + 0) s w') w :=
    releaseForExecution_trans hb hw hok
      (fun hreg hle hpay => ⟨foreign hv hs hreg, hle, hpay⟩) rfl (zero_add _).symm rfl rfl
      rfl
  rwa [add_zero] at hrelease

theorem setRegistry_trans {r : Address} (hw : Trans net ok d s w)
    (hok : ok (.setVaultRegistry v r)) :
    (setRegistry m v r).wp (bookRely net ok o)
      (fun _ w' => Trans net ok d s w') w := by
  unfold setRegistry
  simp only [wp_bind, wp_onlyOwner, wp_read, wp_require, wp_emit, wp_modify]
  refine check fun _ => check fun _ => ?_
  refine (hw.note rfl).silent hok trivial rfl ?_ rfl rfl
  rw [book_onVault]
  simp [Act.effect, World.book, World.emit]

/-- A write to a vault's owner slot. -/
private theorem book_setOwner (x : Address) :
    (World.onVault v (fun V => { V with owner := x }) w).book = w.book := by
  rw [book_onVault]
  simp [World.book]

theorem transferOwnership_trans {x : Address} (hw : Trans net ok d s w) :
    (transferOwnership m v x).wp (bookRely net ok o)
      (fun _ w' => Trans net ok d s w') w := by
  unfold transferOwnership
  simp only [wp_bind, wp_onlyOwner, wp_require, wp_modify]
  exact check fun _ => check fun _ => hw.same (book_setOwner x) rfl rfl

theorem renounceOwnership_trans (hw : Trans net ok d s w) :
    (renounceOwnership m v).wp (bookRely net ok o)
      (fun _ w' => Trans net ok d s w') w := by
  unfold renounceOwnership
  simp only [wp_bind, wp_onlyOwner, wp_modify]
  exact check fun _ => hw.same (book_setOwner 0) rfl rfl

end CollateralVault

end Zstrategy.Contracts
