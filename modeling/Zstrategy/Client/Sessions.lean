/-
How the orders page hands out nonces, and when two orders of one user
share a nullifier. A page draws a nonce when it is mounted and keeps it in
`nonceRef`; `handleSubmit` reads it and does not replace it, so all orders
of one page session share the nonce, and with it the secret and the
nullifier. The registry spends a nullifier once: of the orders that share
one, the first to be settled blocks the others.

What `randomBytes32` returned is part of an event, and so is whether the
registration that a submission asks for goes through.

# From nonces to blocking

`Tracked` follows the tabs: the orders of one session share its nonce, and
nonces of different sessions were drawn at different moments, so they differ
if the draws do. On the other side two orders have one nullifier exactly if
they have one nonce (`Tracked.nullifier_eq_iff`), as long as the digests in
use do not collide. What is left is the chain: with one nullifier the first
settlement blocks the second, with two it cannot.
-/
import Zstrategy.Client.Orders
import Zstrategy.Contracts.Messages
import Zstrategy.Custody.Settlement

namespace Zstrategy.Client

open Lib Contracts

open Function (update)

-- =================================================================== the page

structure Wallet where
  address : Address
  signMessage : String → List UInt8

/-- The secret that the wallet recovers for a nonce. -/
def Wallet.userSecret (wallet : Wallet) (viem : Viem) (nonce : Bytes32) : Bytes32 :=
  let strategyId := deriveStrategyId viem wallet.address nonce
  deriveUserSecret viem (wallet.signMessage (strategyIdSigningMessage strategyId))

/-- The orders page in one tab. -/
structure Page where
  form : Form
  nonceRef : Option Bytes32

/-- The tabs of one wallet, everything `randomBytes32` returned in them,
and the orders that are registered. -/
structure Browser where
  page : ℕ → Page
  drawn : List Bytes32
  registered : List PreimageFields

namespace Browser

/-- No page mounted yet. -/
def start (form : Form) : Browser := ⟨fun _ => ⟨form, none⟩, [], []⟩

/-- The nonces of the registered orders. -/
def nonces (b : Browser) : List Bytes32 := b.registered.map PreimageFields.nonce

def edit (b : Browser) (i : ℕ) (form : Form) : Browser :=
  { b with page := update b.page i { b.page i with form } }

/-- `nonceRef.current = randomBytes32()`. -/
def reroll (b : Browser) (i : ℕ) (draw : Bytes32) : Browser :=
  { b with
    page := update b.page i { b.page i with nonceRef := some draw }
    drawn := b.drawn ++ [draw] }

def getDraftNonce (b : Browser) (i : ℕ) (draw : Bytes32) : Browser × Bytes32 :=
  match (b.page i).nonceRef with
  | some nonce => (b, nonce)
  | none => (b.reroll i draw, draw)

variable (viem : Viem) (wallet : Wallet)

/-- Up to the order that `register` is called with, if it comes to that. -/
def handleSubmit (b : Browser) (i : ℕ) (draw : Bytes32) :
    Browser × Option PreimageFields :=
  let form := (b.page i).form
  if form.amountBig = 0 ∨ form.priceBig = 0 ∨ form.expiry = 0 then (b, none)
  else
    let (b, nonce) := b.getDraftNonce i draw
    -- `encodePacked` throws on a price that is no `uint64`
    if form.priceBig < 2 ^ 64 then
      (b, some
        { tokenIn := form.tokenIn
          tokenOut := form.tokenOut
          size := form.amountBig
          minOut := form.minOutBig
          expiry := form.expiry
          price := .ofNat form.priceBig
          direction := form.direction
          nonce
          userSecret := wallet.userSecret viem nonce })
    else (b, none)

/-- The registry refuses a hash that is registered already. -/
def register (b : Browser) (order : PreimageFields) : Option Browser :=
  if commitmentHash viem order ∈ b.registered.map (commitmentHash viem) then none
  else some { b with registered := b.registered ++ [order] }

end Browser

/-- What happens in a tab. -/
inductive PageEvent where
  /-- The page is loaded. -/
  | mount (i : ℕ) (form : Form) (draw : Bytes32)
  | edit (i : ℕ) (form : Form)
  /-- A click on submit, and whether the order gets registered. -/
  | submit (i : ℕ) (draw : Bytes32) (success : Bool)

namespace Browser

variable (viem : Viem) (wallet : Wallet)

def step (b : Browser) : PageEvent → Option Browser
  | .mount i form draw => some ((b.edit i form).reroll i draw)
  | .edit i form => some (b.edit i form)
  | .submit i draw success =>
      let (b', order) := b.handleSubmit viem wallet i draw
      if success = true then order.bind (b'.register viem) else some b'

/-- The tabs after a list of events, if each is possible. -/
def run : List PageEvent → Browser → Option Browser
  | [], b => some b
  | e :: es, b => (b.step viem wallet e).bind (run es)

end Browser

-- ================================================================== sessions

/-- The tabs whose session has a registered order, after the event. -/
def PageEvent.use (used : ℕ → Bool) : PageEvent → ℕ → Bool
  | .mount i _ _ => update used i false
  | .edit _ _ => used
  | .submit i _ success => if success = true then update used i true else used

/-- The event is no second successful submission of its session. -/
def PageEvent.First (used : ℕ → Bool) : PageEvent → Prop
  | .submit i _ success => success = true → used i = false
  | _ => True

/-- No session, from one loading of the page to the next, has two
successful submissions. -/
def OnePerSession (used : ℕ → Bool) : List PageEvent → Prop
  | [] => True
  | e :: es => e.First used ∧ OnePerSession (e.use used) es

variable {viem : Viem} {wallet : Wallet} {b b' : Browser} {used : ℕ → Bool}

/-- What the page keeps to. Each tab has a nonce of its own, which was
drawn; an order has the nonce of its session and the secret that goes with
it. -/
structure Tracked (viem : Viem) (wallet : Wallet) (b : Browser) (used : ℕ → Bool) :
    Prop where
  drawn : ∀ n ∈ b.nonces, n ∈ b.drawn
  secret : ∀ p ∈ b.registered, p.userSecret = wallet.userSecret viem p.nonce
  held : ∀ i n, (b.page i).nonceRef = some n → n ∈ b.drawn
  own : ∀ i j n, (b.page i).nonceRef = some n → (b.page j).nonceRef = some n → i = j
  used_iff : ∀ i, used i = true ↔ ∃ n ∈ b.nonces, (b.page i).nonceRef = some n

theorem Tracked.start (form : Form) :
    Tracked viem wallet (.start form) fun _ => false where
  drawn _ h := absurd h List.not_mem_nil
  secret _ h := absurd h List.not_mem_nil
  held _ _ h := nomatch h
  own _ _ _ h := nomatch h
  used_iff _ := ⟨nofun, fun ⟨_, h, _⟩ => absurd h List.not_mem_nil⟩

theorem Browser.nonceRef_edit (b : Browser) (i j : ℕ) (form : Form) :
    ((b.edit i form).page j).nonceRef = (b.page j).nonceRef := by
  unfold Browser.edit
  by_cases hj : j = i
  · subst hj
    simp only [Function.update_self]
  · simp only [Function.update_of_ne hj]

theorem Browser.nonceRef_reroll (b : Browser) (i j : ℕ) (draw : Bytes32) :
    ((b.reroll i draw).page j).nonceRef = if j = i then some draw else (b.page j).nonceRef := by
  unfold Browser.reroll
  by_cases hj : j = i
  · subst hj
    simp only [Function.update_self, if_true]
  · simp only [Function.update_of_ne hj, if_neg hj]

theorem Tracked.edit (h : Tracked viem wallet b used) (i : ℕ) (form : Form) :
    Tracked viem wallet (b.edit i form) used where
  drawn := h.drawn
  secret := h.secret
  held j n := by
    rw [Browser.nonceRef_edit]
    exact h.held j n
  own j k n := by
    rw [Browser.nonceRef_edit, Browser.nonceRef_edit]
    exact h.own j k n
  used_iff j := by
    rw [Browser.nonceRef_edit]
    exact h.used_iff j

/-- A fresh draw starts a session without orders. -/
theorem Tracked.reroll (h : Tracked viem wallet b used) (i : ℕ) {draw : Bytes32}
    (hfresh : draw ∉ b.drawn) :
    Tracked viem wallet (b.reroll i draw) (update used i false) where
  drawn n hn := List.mem_append_left _ (h.drawn n hn)
  secret := h.secret
  held j n hj := by
    rw [Browser.nonceRef_reroll] at hj
    split at hj
    · cases hj
      exact List.mem_append_right _ (List.mem_singleton_self _)
    · exact List.mem_append_left _ (h.held j n hj)
  own j k n hj hk := by
    rw [Browser.nonceRef_reroll] at hj hk
    split at hj <;> split at hk
    · omega
    · cases hj
      exact absurd (h.held k _ hk) hfresh
    · cases hk
      exact absurd (h.held j _ hj) hfresh
    · exact h.own j k n hj hk
  used_iff j := by
    rw [Browser.nonceRef_reroll]
    by_cases hj : j = i
    · subst hj
      rw [Function.update_self, if_pos rfl]
      constructor
      · nofun
      · rintro ⟨n, hn, ⟨⟩⟩
        exact absurd (h.drawn _ hn) hfresh
    · rw [Function.update_of_ne hj, if_neg hj]
      exact h.used_iff j

/-- The first order of a session, or one more. -/
theorem Tracked.register (h : Tracked viem wallet b used) {i : ℕ} {p : PreimageFields}
    (href : (b.page i).nonceRef = some p.nonce)
    (hsecret : p.userSecret = wallet.userSecret viem p.nonce) :
    Tracked viem wallet { b with registered := b.registered ++ [p] }
      (update used i true) := by
  have hmem : ∀ n, n ∈ (b.registered ++ [p]).map PreimageFields.nonce
      ↔ n ∈ b.nonces ∨ n = p.nonce := by
    intro n
    rw [List.map_append, List.mem_append, List.map_singleton, List.mem_singleton]
    exact Iff.rfl
  refine ⟨fun n hn => ?_, fun q hq => ?_, h.held, h.own, fun j => ?_⟩
  · rcases (hmem n).1 hn with hn | rfl
    · exact h.drawn n hn
    · exact h.held i _ href
  · rcases List.mem_append.1 hq with hq | hq
    · exact h.secret q hq
    · rw [List.mem_singleton.1 hq]
      exact hsecret
  · by_cases hj : j = i
    · subst hj
      rw [Function.update_self]
      exact iff_of_true rfl ⟨p.nonce, (hmem _).2 (.inr rfl), href⟩
    · rw [Function.update_of_ne hj, h.used_iff]
      constructor
      · rintro ⟨n, hn, hjn⟩
        exact ⟨n, (hmem n).2 (.inl hn), hjn⟩
      · rintro ⟨n, hn, hjn⟩
        rcases (hmem n).1 hn with hn | rfl
        · exact ⟨n, hn, hjn⟩
        · exact absurd (h.own j i _ hjn href) hj

/-- A submission reads the nonce of its tab, drawing it if there is none,
and uses it and its secret for the order. -/
theorem Browser.handleSubmit_spec (viem : Viem) (wallet : Wallet) (b : Browser) (i : ℕ)
    (draw : Bytes32) :
    let out := b.handleSubmit viem wallet i draw
    (out.1 = b ∨ (b.page i).nonceRef = none ∧ out.1 = b.reroll i draw)
      ∧ ∀ p, out.2 = some p → (out.1.page i).nonceRef = some p.nonce
          ∧ p.userSecret = wallet.userSecret viem p.nonce := by
  have hdraft : ((b.getDraftNonce i draw).1 = b
        ∨ (b.page i).nonceRef = none ∧ (b.getDraftNonce i draw).1 = b.reroll i draw)
      ∧ ((b.getDraftNonce i draw).1.page i).nonceRef
        = some (b.getDraftNonce i draw).2 := by
    unfold Browser.getDraftNonce
    split
    case h_1 nonce href => exact ⟨.inl rfl, href⟩
    case h_2 href =>
      refine ⟨.inr ⟨href, rfl⟩, ?_⟩
      rw [Browser.nonceRef_reroll, if_pos rfl]
  unfold Browser.handleSubmit
  simp only
  split
  · exact ⟨.inl rfl, nofun⟩
  · split
    · refine ⟨hdraft.1, ?_⟩
      rintro p ⟨⟩
      exact ⟨hdraft.2, rfl⟩
    · exact ⟨hdraft.1, nofun⟩

theorem Browser.register_eq_some {p : PreimageFields} :
    b.register viem p = some b'
      ↔ commitmentHash viem p ∉ b.registered.map (commitmentHash viem)
        ∧ b' = { b with registered := b.registered ++ [p] } := by
  unfold Browser.register
  split
  case isTrue hin => simp [hin]
  case isFalse hnew => simp [hnew, eq_comm]

/-- A failed submission leaves what `handleSubmit` left, a successful one
adds the order. -/
theorem Browser.step_submit {i : ℕ} {draw : Bytes32} {success : Bool}
    (hs : b.step viem wallet (.submit i draw success) = some b') :
    let out := b.handleSubmit viem wallet i draw
    success = false ∧ b' = out.1
      ∨ success = true ∧ ∃ p, out.2 = some p
        ∧ b' = { out.1 with registered := out.1.registered ++ [p] } := by
  intro out
  cases success with
  | false => exact .inl ⟨rfl, (Option.some.inj hs).symm⟩
  | true =>
      refine .inr ⟨rfl, ?_⟩
      obtain ⟨p, hp, hreg⟩ := Option.bind_eq_some_iff.1 hs
      exact ⟨p, hp, (Browser.register_eq_some.1 hreg).2⟩

/-- Nothing that was drawn is forgotten. -/
theorem Browser.drawn_step {e : PageEvent} (hs : b.step viem wallet e = some b') :
    b.drawn.Sublist b'.drawn := by
  cases e with
  | mount i form draw =>
      cases hs
      exact List.sublist_append_left _ _
  | edit i form =>
      cases hs
      exact .refl _
  | submit i draw success =>
      have hout : b.drawn.Sublist (b.handleSubmit viem wallet i draw).1.drawn := by
        rcases (b.handleSubmit_spec viem wallet i draw).1 with h | ⟨-, h⟩
        · rw [h]
        · rw [h]
          exact List.sublist_append_left _ _
      rcases Browser.step_submit hs with ⟨-, rfl⟩ | ⟨-, p, -, rfl⟩
      · exact hout
      · exact hout

theorem Browser.drawn_run {es : List PageEvent} (hr : b.run viem wallet es = some b') :
    b.drawn.Sublist b'.drawn := by
  induction es generalizing b with
  | nil =>
      cases hr
      exact .refl _
  | cons e es ih =>
      obtain ⟨b₁, hs, hr⟩ := Option.bind_eq_some_iff.1 hr
      exact (Browser.drawn_step hs).trans (ih hr)

/-- One event keeps to the rules, and keeps the nonces of the orders apart
as long as it is no second success of its session. -/
theorem Tracked.step (h : Tracked viem wallet b used) {e : PageEvent}
    (hs : b.step viem wallet e = some b') (hd : b'.drawn.Nodup) :
    Tracked viem wallet b' (e.use used)
      ∧ (b'.nonces.Nodup ↔ b.nonces.Nodup ∧ e.First used) := by
  have hfresh : ∀ {n : Bytes32}, (b.drawn ++ [n]).Nodup → n ∉ b.drawn := by
    intro n hn hmem
    exact (List.disjoint_of_nodup_append hn) hmem (List.mem_singleton_self n)
  cases e with
  | mount i form draw =>
      cases hs
      exact ⟨(h.edit i form).reroll i (hfresh hd), (and_iff_left trivial).symm⟩
  | edit i form =>
      cases hs
      exact ⟨h.edit i form, (and_iff_left trivial).symm⟩
  | submit i draw success =>
      obtain ⟨hpage, horder⟩ := b.handleSubmit_spec viem wallet i draw
      set out := b.handleSubmit viem wallet i draw with hout
      have hdrawn : b'.drawn = out.1.drawn := by
        rcases Browser.step_submit hs with ⟨-, rfl⟩ | ⟨-, p, -, rfl⟩ <;> rfl
      have hnonces : out.1.nonces = b.nonces := by
        rcases hpage with hb | ⟨-, hb⟩
        · rw [hb]
        · rw [hb]
          rfl
      -- a tab without a nonce has no order, so drawing one changes no session
      have hmid : Tracked viem wallet out.1 used := by
        rcases hpage with hb | ⟨hnone, hb⟩
        · rwa [hb]
        · have hunused : used i = false := by
            rw [← Bool.not_eq_true, h.used_iff]
            rintro ⟨n, -, hn⟩
            cases hnone.symm.trans hn
          rw [hdrawn, hb] at hd
          have hreroll := h.reroll i (hfresh hd)
          rwa [← hb, ← hunused, Function.update_eq_self] at hreroll
      rcases Browser.step_submit hs with ⟨rfl, rfl⟩ | ⟨rfl, p, hp, rfl⟩
      · refine ⟨hmid, ?_⟩
        rw [← hout, hnonces]
        exact (and_iff_left nofun).symm
      · obtain ⟨href, hsecret⟩ := horder p hp
        refine ⟨hmid.register href hsecret, ?_⟩
        have hfirst : used i = false ↔ p.nonce ∉ out.1.nonces := by
          rw [← Bool.not_eq_true, hmid.used_iff, not_iff_not]
          constructor
          · rintro ⟨n, hn, hin⟩
            cases href.symm.trans hin
            exact hn
          · exact fun hn => ⟨_, hn, href⟩
        have hadd : ({ out.1 with registered := out.1.registered ++ [p] } : Browser).nonces
            = out.1.nonces ++ [p.nonce] := List.map_append
        rw [← hout, hadd, ← List.concat_eq_append, List.nodup_concat, ← hfirst, hnonces]
        exact ⟨fun h => ⟨h.2, fun _ => h.1⟩, fun h => ⟨h.2 rfl, h.1⟩⟩

/-- The same for a whole run. -/
theorem Tracked.run (h : Tracked viem wallet b used) {es : List PageEvent}
    (hr : b.run viem wallet es = some b') (hd : b'.drawn.Nodup) :
    (∃ used', Tracked viem wallet b' used')
      ∧ (b'.nonces.Nodup ↔ b.nonces.Nodup ∧ OnePerSession used es) := by
  induction es generalizing b used with
  | nil =>
      cases hr
      exact ⟨⟨used, h⟩, (and_iff_left trivial).symm⟩
  | cons e es ih =>
      obtain ⟨b₁, hs, hr⟩ := Option.bind_eq_some_iff.1 hr
      obtain ⟨h₁, hstep⟩ := h.step hs (hd.sublist (Browser.drawn_run hr))
      obtain ⟨htracked, hrest⟩ := ih h₁ hr
      refine ⟨htracked, ?_⟩
      rw [hrest, hstep, and_assoc]
      exact Iff.rfl

-- ================================================================ nullifiers

/-- The nullifier the page computes for an order. -/
def PreimageFields.nullifier (viem : Viem) (p : PreimageFields) : Bytes32 :=
  nullifierHash viem p.userSecret p.nonce

/-- No two of the given strings have the same digest in the field. -/
def Viem.CollisionFree (viem : Viem) (strings : Set (List UInt8)) : Prop :=
  strings.InjOn fun bs => reduceToField (viem.digest bs)

/-- The strings hashed for the nullifiers of the registered orders. -/
def Browser.nullifierStrings (viem : Viem) (b : Browser) : Set (List UInt8) :=
  {bs | ∃ p ∈ b.registered, bs = viem.encodePacked (nullifierPacked p.userSecret p.nonce)}

/-- It is enough that equal nullifiers come from equal secrets and nonces. -/
theorem Browser.collisionFree (h : ∀ p ∈ b.registered, ∀ q ∈ b.registered,
      p.nullifier viem = q.nullifier viem → p.userSecret = q.userSecret ∧ p.nonce = q.nonce) :
    viem.CollisionFree (b.nullifierStrings viem) := by
  rintro _ ⟨p, hp, rfl⟩ _ ⟨q, hq, rfl⟩ heq
  obtain ⟨hs, hn⟩ := h p hp q hq heq
  rw [hs, hn]

theorem nullifierPacked_inj (hviem : viem.FollowsAbi) {s s' n n' : Bytes32}
    (h : viem.encodePacked (nullifierPacked s n) = viem.encodePacked (nullifierPacked s' n')) :
    n = n' := by
  have hfits : ∀ s n : Bytes32, Row.Fits ((nullifierPacked s n).map Packed.abi) := by
    intro s n
    refine List.forall_mem_cons.2 ⟨?_, List.forall_mem_singleton.2 ?_⟩
    · exact s.isLt
    · exact n.isLt
  rw [hviem, hviem] at h
  have hrow : (nullifierPacked s n).map Packed.abi = (nullifierPacked s' n').map Packed.abi :=
    pack_inj rfl (hfits s n) (hfits s' n') h
  simp only [nullifierPacked, List.map_cons, List.map_nil, Packed.abi, List.cons.injEq,
    Prod.mk.injEq, true_and, and_true] at hrow
  exact Fin.ext hrow.2

/-- Orders of one wallet have the same nullifier exactly if they have the
same nonce. -/
theorem Tracked.nullifier_eq_iff (h : Tracked viem wallet b used) (hviem : viem.FollowsAbi)
    (hhash : viem.CollisionFree (b.nullifierStrings viem)) {p q : PreimageFields}
    (hp : p ∈ b.registered) (hq : q ∈ b.registered) :
    p.nullifier viem = q.nullifier viem ↔ p.nonce = q.nonce := by
  constructor
  · intro heq
    exact nullifierPacked_inj hviem (hhash ⟨p, hp, rfl⟩ ⟨q, hq, rfl⟩ heq)
  · intro heq
    rw [PreimageFields.nullifier, PreimageFields.nullifier, h.secret p hp, h.secret q hq, heq]

-- ================================================================== blocking

/-- Settling `a`, a hash with its nullifier, can make the execution of `b`
fail: in some run in which nothing else was settled with `b`'s nullifier. -/
def Blocks (net : Net) (a b : Bytes32 × Bytes32) : Prop :=
  ∃ w c m proof fillRef, Deployed w ∧ (chain net).Run anyMove ⟨w, []⟩ ⟨c, []⟩
    ∧ (∀ s ∈ settlements c.receipts, s.2 = b.2 → s = a)
    ∧ (entry net (m, .executeCommitment b.1 b.2 proof fillRef) c).CanRevert nullifierSpent

theorem not_blocks {net : Net} {a b : Bytes32 × Bytes32} (h : a.2 ≠ b.2) :
    ¬Blocks net a b := by
  rintro ⟨w, c, m, proof, fillRef, hd, hrun, hown, hrevert⟩
  have hunspent : c.registry.nullifiers b.2 = false := by
    rw [← Bool.not_eq_true]
    intro hspent
    have hm := matching_run hd (run_trans allows_any hrun)
    obtain ⟨x, hx⟩ := hm.exists_right (show b.2 ∈ c.book.spentSet from hspent)
    have hmem : (x, b.2) ∈ settlements c.receipts := by
      rcases Multiset.mem_add.1 hx with hx | hx
      · exact absurd hx (Multiset.notMem_zero _)
      · exact Multiset.mem_coe.1 hx
    exact h (congrArg Prod.snd (hown _ hmem rfl)).symm
  have hother : insufficientLocked ≠ nullifierSpent := by decide
  refine entry_avoids (by decide) ?_ rfl hrevert
  exact CommitmentRegistry.executeCommitment_lenient (.avoids (by decide)) (.inr hunspent)
    fun _ => .inl hother

/-- The registered orders have different nullifiers, and settling one
never makes the execution of another fail for a spent nullifier. -/
def Browser.NeverBlock (net : Net) (viem : Viem) (b : Browser) : Prop :=
  b.registered.Pairwise fun p q =>
    let order := fun p => (commitmentHash viem p, PreimageFields.nullifier viem p)
    p.nullifier viem ≠ q.nullifier viem
      ∧ ¬Blocks net (order p) (order q) ∧ ¬Blocks net (order q) (order p)

/-- The orders of one wallet never block each other exactly when no page
session has two successful submissions. -/
theorem orders_never_block_iff (net : Net) (hviem : viem.FollowsAbi) {form : Form}
    {es : List PageEvent} (hrun : (Browser.start form).run viem wallet es = some b)
    (hdraws : b.drawn.Nodup) (hhash : viem.CollisionFree (b.nullifierStrings viem)) :
    b.NeverBlock net viem ↔ OnePerSession (fun _ => false) es := by
  obtain ⟨⟨used, h⟩, hnonces⟩ := (Tracked.start form).run hrun hdraws
  have hfresh : (Browser.start form).nonces.Nodup := List.nodup_nil
  rw [← and_iff_right (b := OnePerSession _ es) hfresh, ← hnonces]
  show _ ↔ (b.registered.map PreimageFields.nonce).Pairwise (· ≠ ·)
  rw [List.pairwise_map]
  refine List.Pairwise.iff_of_mem fun {p q} hp hq => ?_
  have hne := not_congr (h.nullifier_eq_iff hviem hhash hp hq)
  constructor
  · exact fun hpq => hne.1 hpq.1
  · intro hpq
    have hnull := hne.2 hpq
    exact ⟨hnull, not_blocks hnull, not_blocks (Ne.symm hnull)⟩

-- ================================================================== a sample

/-- A SELL at a target price. -/
def sellForm (targetPrice : ℕ) : Form := ⟨⟨10, 11⟩, .LIMIT, .SELL, targetPrice, 40, 5, 2000⟩

/-- The order it makes, with the secret of the sample wallet. -/
def sellOrder (price : UInt64) (nonce : Bytes32) : PreimageFields :=
  ⟨10, 11, 40, 5, 2000, price, .SELL, nonce,
    0x1b03a3b29b3ee4a645f03c5e4205113d5847eed9e72256c45b1b6af454c2c554⟩

def sampleWallet : Wallet := ⟨8, fun _ => List.replicate 65 27⟩

/-- The digests of the strings hashed for three such orders. -/
def keccakTable : List (List UInt8 × ℕ) :=
  let encode := fun vs => pack (vs.map Packed.abi)
  [(List.replicate 65 27,
      0x1b03a3b29b3ee4a645f03c5e4205113d5847eed9e72256c45b1b6af454c2c554),
    (encode (sellOrder 200000000000 6).packed,
      0xd965ccd7211553b966c2071fbdbe6fb47c471ccc4fcab0970bef04f7c87b14fd),
    (encode (sellOrder 250000000000 6).packed,
      0xf5c2878ea3428136806127f4bd47dd54b3ba261cec7248ba4c1454da8311686e),
    (encode (sellOrder 200000000000 7).packed,
      0x169995a98fd2b4e21bf94d40b20efe243042f22b8ed779867c4b2b5f8250259c),
    (encode (nullifierPacked (sellOrder 0 6).userSecret 6),
      0x8d1eec9fddf16be4c608e60d18da9206f8caae8ec6c11d343d095e375cf34d9b),
    (encode (nullifierPacked (sellOrder 0 7).userSecret 7),
      0xd9956a7d79f43713785b1f478adc5c0d461bfba00e2a71afcba6b4ff531fc6fa)]

def tableViem : Viem :=
  ⟨fun bs => bytesBE 32 ((keccakTable.lookup bs).getD 0), fun vs => pack (vs.map Packed.abi)⟩

/-- Two submissions in one session, the price changed in between. -/
def oneSession : List PageEvent :=
  [.mount 0 (sellForm 200000000000) 6, .submit 0 0 true,
    .edit 0 (sellForm 250000000000), .submit 0 0 true]

/-- Two submissions, the page loaded anew in between. -/
def twoSessions : List PageEvent :=
  [.mount 0 (sellForm 200000000000) 6, .submit 0 0 true,
    .mount 0 (sellForm 200000000000) 7, .submit 0 0 true]

/-- The hashes and the nullifier of the two orders in one session. -/
def firstHash : Bytes32 := 0x17d4930b9c4ed3128580f045b7b90e3fdb777baa68e4ee51fc672ea8087b14f9

def secondHash : Bytes32 := 0x3ccff503d4a6065e6cfcb6435c12382eab69cb28bd315e3f8aa88f6d3116869

def sharedNullifier : Bytes32 :=
  0x2c564fba1b8e2b9155685aa015d7e14ca862ddfdd34e3c11b545730f7cf34d99

/-- Both are registered, the first is executed. -/
def settlingMoves : List ChainMove :=
  sampleSetup ++
    [call 7 (.setPriceFeed 10 30), call 7 (.setPriceFeed 11 31),
      call 8 (.registerCommitment firstHash 10 11 40 5 2000 .ORDER_FILL),
      call 8 (.registerCommitment secondHash 10 11 40 5 2000 .ORDER_FILL),
      call 8 (.executeCommitment firstHash sharedNullifier [] 0), .answer ⟨40, 40⟩]

theorem first_blocks_second :
    Blocks sampleNet (firstHash, sharedNullifier) (secondHash, sharedNullifier) := by
  have hplay : ((chain sampleNet).play settlingMoves ⟨sampleWorld, []⟩).map
      (fun c => (c.stack.isEmpty, settlements c.world.receipts,
        (entry sampleNet (⟨8, 0, 1, 1⟩, .executeCommitment secondHash sharedNullifier [] 0)
          c.world).reason))
      = some (true, [(firstHash, sharedNullifier)], some nullifierSpent) := by
    decide +kernel
  obtain ⟨⟨w, stack⟩, hc, heq⟩ := Option.map_eq_some_iff.1 hplay
  simp only [Prod.mk.injEq, List.isEmpty_iff] at heq
  obtain ⟨rfl, hcalls, hreason⟩ := heq
  have hrun := System.Run.of_play (P := anyMove) (fun _ _ _ => trivial) hc
  refine ⟨sampleWorld, w, _, _, _, sampleWorld_deployed, hrun, ?_, .of_reason hreason⟩
  rw [hcalls]
  exact fun s hs _ => List.mem_singleton.1 hs

/-- What a sample session registers. -/
theorem sample_registers :
    ((Browser.start (sellForm 0)).run tableViem sampleWallet oneSession).map
        (fun b => (b.drawn, b.registered))
        = some ([6], [sellOrder 200000000000 6, sellOrder 250000000000 6])
      ∧ ((Browser.start (sellForm 0)).run tableViem sampleWallet twoSessions).map
        (fun b => (b.drawn, b.registered))
        = some ([6, 7], [sellOrder 200000000000 6, sellOrder 200000000000 7]) := by
  decide +kernel

/-- Two orders of one session share a nullifier, and the execution of one
makes the execution of the other revert. -/
theorem session_orders_block :
    ∃ (net : Net) (viem : Viem) (wallet : Wallet) (form : Form) (es : List PageEvent)
      (b : Browser), viem.FollowsAbi ∧ (Browser.start form).run viem wallet es = some b
        ∧ b.drawn.Nodup ∧ viem.CollisionFree (b.nullifierStrings viem)
        ∧ ¬b.NeverBlock net viem
        ∧ ∃ p ∈ b.registered, ∃ q ∈ b.registered, p.nullifier viem = q.nullifier viem
          ∧ Blocks net (commitmentHash viem p, p.nullifier viem)
            (commitmentHash viem q, q.nullifier viem) := by
  obtain ⟨b, hrun, heq⟩ := Option.map_eq_some_iff.1 sample_registers.1
  obtain ⟨hdrawn, hreg⟩ := Prod.mk.inj heq
  let p := sellOrder 200000000000 6
  let q := sellOrder 250000000000 6
  have hshared : p.nullifier tableViem = sharedNullifier
      ∧ q.nullifier tableViem = sharedNullifier
      ∧ commitmentHash tableViem p = firstHash ∧ commitmentHash tableViem q = secondHash := by
    decide +kernel
  obtain ⟨hp, hq, hfirst, hsecond⟩ := hshared
  have hsame : p.nullifier tableViem = q.nullifier tableViem := hp.trans hq.symm
  refine ⟨sampleNet, tableViem, sampleWallet, _, _, b, fun _ => rfl, hrun, ?_, ?_, ?_,
    p, ?_, q, ?_, hsame, ?_⟩
  · rw [hdrawn]
    decide
  · apply Browser.collisionFree
    rw [hreg]
    decide +kernel
  · intro hnever
    rw [Browser.NeverBlock, hreg, List.pairwise_pair] at hnever
    exact hnever.1 hsame
  · rw [hreg]
    exact List.mem_cons_self
  · rw [hreg]
    exact List.mem_cons_of_mem _ List.mem_cons_self
  · rw [hp, hq, hfirst, hsecond]
    exact first_blocks_second

theorem orders_never_block_iff_sample :
    ∃ b, (Browser.start (sellForm 0)).run tableViem sampleWallet twoSessions = some b
      ∧ b.registered.length = 2 ∧ b.NeverBlock sampleNet tableViem := by
  obtain ⟨b, hrun, heq⟩ := Option.map_eq_some_iff.1 sample_registers.2
  obtain ⟨hdrawn, hreg⟩ := Prod.mk.inj heq
  have hdraws : b.drawn.Nodup := by
    rw [hdrawn]
    decide
  have hhash : tableViem.CollisionFree (b.nullifierStrings tableViem) := by
    apply Browser.collisionFree
    rw [hreg]
    decide +kernel
  refine ⟨b, hrun, congrArg List.length hreg, ?_⟩
  refine (orders_never_block_iff sampleNet (fun _ => rfl) hrun hdraws hhash).2 ?_
  exact ⟨trivial, fun _ => rfl, trivial, fun _ => rfl, trivial⟩

end Zstrategy.Client
