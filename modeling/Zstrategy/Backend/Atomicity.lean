/-
Registration against the two stores it writes. `Atomic` is what the two
stores owe each other; `Orderly` is the condition on a step under which it
is kept: an `execute-sync` request that has stored shares gets its row, no
other request saves the hash in between, and no round of a group fails to
save.

# The invariant

`Inv` says where every row comes from. A saved hash has one request that
saved it, and its share rows are that request's; a share row of a hash not
yet saved belongs to an `execute-sync` request between its forward and its
`Save`. Each request stands in for itself in `Served.Sound`, by the call it
is before.
-/
import Zstrategy.Backend.IndexerService
import Zstrategy.Backend.Registration

namespace Zstrategy.Backend

open Lib Keeper

variable {myIds : List String}

-- =============================================================== the property

structure Atomic (d : Desk) : Prop where
  /-- A request leaves the share rows of a hash it did not save. -/
  untouched : ∀ e ∈ d.served, e.job = .finished → ∀ h ∈ e.altered, h ∈ e.saved
  /-- A saved row has a request that saved it, and the shares held for its
  hash are among those of that request. -/
  own : ∀ s ∈ d.strategies.rows, ∃ e ∈ d.served, s.commitmentHash ∈ e.saved
    ∧ ∀ row ∈ d.shares.rows, row.commitmentHash = s.commitmentHash →
      ⟨row.keeperId, row.ciphertext⟩ ∈ e.request.encryptedShares
  /-- A group answered as accepted has the row of every round saved. -/
  complete : ∀ e ∈ d.served, ∀ n, e.answer = some (.groupAccepted n) →
    e.saved = e.request.hashes

-- ============================================================== the condition

/-- An `execute-sync` request that changed the share rows of `h` and is
before the `Save` of `h`. -/
def Served.Awaits (e : Served) (h : String) : Prop :=
  ∃ s, e.job = .saving s ∧ s.commitmentHash = h ∧ h ∈ e.altered

/-- `Save` has no reason to fail, and no other request awaits the hash. -/
structure Desk.Free (d : Desk) (i : ℕ) (fault : Fault) (h : String) : Prop where
  works : fault = none
  fresh : d.strategies.find h = none
  clear : ∀ (j : ℕ) (e : Served), j ≠ i → d.served[j]? = some e → ¬ e.Awaits h

/-- The call would change the share rows of `h`. -/
def Desk.Alters (d : Desk) (myIds : List String) (reply : Reply) (h : String)
    (shares : List EncryptedShare) : Prop :=
  h ∈ altered [h] shares d.shares (forwardSharesToKeeper myIds reply [h] shares d.shares).2

/-- What a step may not meet. -/
def Orderly (myIds : List String) (d : Desk) : DeskStep → Prop
  | .arrive _ => True
  | .move i _ fault reply => ∀ e : Served, d.served[i]? = some e →
      match e.job with
      | .forwarding s =>
          d.Alters myIds reply s.commitmentHash e.request.encryptedShares →
            (∃ receivedAt, reply = .answered receivedAt)
              ∧ d.strategies.find s.commitmentHash = none
      | .saving s =>
          (s.commitmentHash ∈ e.altered
            ∨ fault = none ∧ d.strategies.find s.commitmentHash = none) →
          d.Free i fault s.commitmentHash
      | .rounds _ (round :: _) => d.Free i fault round.commitmentHash
      | _ => True

-- The condition can be evaluated: it asks of the other requests only those
-- that are there.

instance Served.instDecidableAwaits (e : Served) (h : String) : Decidable (e.Awaits h) :=
  match e with
  | ⟨_, .saving s, _, _, altered⟩ =>
      decidable_of_iff (s.commitmentHash = h ∧ h ∈ altered)
        ⟨fun ⟨hs, hin⟩ => ⟨s, rfl, hs, hin⟩, fun ⟨_, heq, hs, hin⟩ => by
          cases heq
          exact ⟨hs, hin⟩⟩
  | ⟨_, .forwarding _, _, _, _⟩ | ⟨_, .rounds _ _, _, _, _⟩ | ⟨_, .delivering _, _, _, _⟩
  | ⟨_, .finished, _, _, _⟩ => isFalse fun ⟨_, heq, _⟩ => nomatch heq

theorem Desk.free_iff {d : Desk} {i : ℕ} {fault : Fault} {h : String} :
    d.Free i fault h ↔ fault = none ∧ d.strategies.find h = none
      ∧ ∀ x ∈ d.served.zipIdx, x.2 ≠ i → ¬ x.1.Awaits h := by
  constructor
  · rintro ⟨hworks, hfresh, hclear⟩
    refine ⟨hworks, hfresh, fun x hx hne => ?_⟩
    exact hclear x.2 x.1 hne (List.mem_zipIdx_iff_getElem?.1 hx)
  · rintro ⟨hworks, hfresh, hclear⟩
    refine ⟨hworks, hfresh, fun j e hne he => ?_⟩
    exact hclear (e, j) (List.mem_zipIdx_iff_getElem?.2 he) hne

instance Desk.instDecidableFree (d : Desk) (i : ℕ) (fault : Fault) (h : String) :
    Decidable (d.Free i fault h) :=
  decidable_of_iff' _ Desk.free_iff

instance Desk.instDecidableAlters (d : Desk) (reply : Reply) (h : String)
    (shares : List EncryptedShare) : Decidable (d.Alters myIds reply h shares) :=
  inferInstanceAs (Decidable (h ∈ altered _ _ _ _))

instance Reply.instDecidableAnswered (reply : Reply) :
    Decidable (∃ receivedAt, reply = .answered receivedAt) :=
  match reply with
  | .answered receivedAt => isTrue ⟨receivedAt, rfl⟩
  | .failed _ | .lost _ _ => isFalse fun ⟨_, h⟩ => nomatch h

instance instDecidableOrderly (d : Desk) (l : DeskStep) : Decidable (Orderly myIds d l) := by
  cases l with
  | arrive request => exact isTrue trivial
  | move i now fault reply =>
      cases hi : d.served[i]? with
      | none => exact isTrue fun _ he => nomatch hi.symm.trans he
      | some e =>
          obtain ⟨request, job, answer, saved, altered⟩ := e
          cases job with
          | forwarding s =>
              refine decidable_of_iff (d.Alters myIds reply s.commitmentHash
                request.encryptedShares → (∃ receivedAt, reply = .answered receivedAt)
                  ∧ d.strategies.find s.commitmentHash = none) ⟨?_, fun h => h _ hi⟩
              intro h _ he
              cases hi.symm.trans he
              exact h
          | saving s =>
              refine decidable_of_iff ((s.commitmentHash ∈ altered
                ∨ fault = none ∧ d.strategies.find s.commitmentHash = none) →
                d.Free i fault s.commitmentHash) ⟨?_, fun h => h _ hi⟩
              intro h _ he
              cases hi.symm.trans he
              exact h
          | rounds body rest =>
              cases rest with
              | nil =>
                  refine isTrue fun _ he => ?_
                  cases hi.symm.trans he
                  trivial
              | cons round rest =>
                  refine decidable_of_iff (d.Free i fault round.commitmentHash)
                    ⟨?_, fun h => h _ hi⟩
                  intro h _ he
                  cases hi.symm.trans he
                  exact h
          | delivering hashes | finished =>
              refine isTrue fun _ he => ?_
              cases hi.symm.trans he
              trivial

-- ============================================================= the keeper call

variable {reply : Reply} {hashes : List String} {shares : List EncryptedShare}
  {t : ShareTable} {k : String × String} {row : ShareRow} {h : String}

/-- Only the rows of the payload can change. -/
theorem forward_other (hk : ∀ hash ∈ hashes, ∀ r ∈ shares, (hash, r.keeperId) ≠ k) :
    (forwardSharesToKeeper myIds reply hashes shares t).2.find k = t.find k := by
  cases reply with
  | failed error => rfl
  | lost receivedAt error => exact find_postShares_other hk
  | answered receivedAt => exact find_postShares_other hk

/-- After the call a row was there or carries a share of the payload. -/
theorem forward_find
    (hfind : (forwardSharesToKeeper myIds reply hashes shares t).2.find k = some row) :
    t.find k = some row
      ∨ k.1 ∈ hashes ∧ ⟨row.keeperId, row.ciphertext⟩ ∈ shares := by
  have hpost : ∀ now, (postShares myIds now hashes shares t).2.find k = some row →
      t.find k = some row ∨ k.1 ∈ hashes ∧ ⟨row.keeperId, row.ciphertext⟩ ∈ shares := by
    intro now hnow
    rcases find_postShares hnow with hold | ⟨hk, r, hr, rfl⟩
    · exact .inl hold
    · exact .inr ⟨hk, hr⟩
  cases reply with
  | failed error => exact .inl hfind
  | lost receivedAt error => exact hpost receivedAt hfind
  | answered receivedAt => exact hpost receivedAt hfind

/-- `altered` lists the hashes of the payload one of whose rows the call
changed, and no other row changes. -/
theorem mem_altered :
    h ∈ altered hashes shares t (forwardSharesToKeeper myIds reply hashes shares t).2
      ↔ ∃ id, (forwardSharesToKeeper myIds reply hashes shares t).2.find (h, id)
        ≠ t.find (h, id) := by
  unfold altered
  rw [List.mem_filter, List.any_eq_true]
  constructor
  · intro hmem
    obtain ⟨-, r, -, hne⟩ := hmem
    exact ⟨r.keeperId, of_decide_eq_true hne⟩
  · intro hex
    obtain ⟨id, hne⟩ := hex
    by_contra hnot
    apply hne
    apply forward_other
    intro hash hhash r hr heq
    cases heq
    exact hnot ⟨hhash, r, hr, decide_eq_true hne⟩

/-- A row that is new carries a share of the payload, under a hash whose rows
the call changed. -/
theorem forward_new
    (hfind : (forwardSharesToKeeper myIds reply hashes shares t).2.find k = some row) :
    t.find k = some row
      ∨ k.1 ∈ altered hashes shares t (forwardSharesToKeeper myIds reply hashes shares t).2
        ∧ ⟨row.keeperId, row.ciphertext⟩ ∈ shares := by
  by_cases hsame : t.find k = some row
  · exact .inl hsame
  · obtain ⟨-, hshare⟩ := (forward_find hfind).resolve_left hsame
    refine .inr ⟨mem_altered.2 ⟨k.2, ?_⟩, hshare⟩
    rw [hfind]
    exact Ne.symm hsame

theorem altered_subset {t' : ShareTable} (hmem : h ∈ altered hashes shares t t') :
    h ∈ hashes :=
  (List.mem_filter.1 hmem).1

/-- An answered call that changed a row returns no error. -/
theorem forward_ok {receivedAt : ℤ}
    (hmem : h ∈ altered hashes shares t
      (forwardSharesToKeeper myIds (.answered receivedAt) hashes shares t).2) :
    (forwardSharesToKeeper myIds (.answered receivedAt) hashes shares t).1 = .ok () := by
  obtain ⟨id, hne⟩ := mem_altered.1 hmem
  by_cases hstatus : (postShares myIds receivedAt hashes shares t).1 = 201
  · show (if _ ∨ _ then _ else _) = _
    rw [if_pos (.inl hstatus)]
  · exact absurd (congrArg (fun t => t.find (h, id)) (postShares_refused hstatus)) hne

-- ============================================================== the invariant

/-- What a group may have been answered. -/
def Served.Answered (e : Served) : Prop :=
  ∀ n, e.answer = some (.groupAccepted n) → e.saved = e.request.hashes

/-- A request on its own, by the call it is before. -/
def Served.Sound (e : Served) : Prop :=
  match e.job with
  | .forwarding s =>
      e.altered = [] ∧ e.request.hashes = [s.commitmentHash] ∧ e.saved = [] ∧ e.answer = none
  | .saving s =>
      (∀ h ∈ e.altered, h = s.commitmentHash) ∧ e.request.hashes = [s.commitmentHash]
        ∧ e.saved = [] ∧ e.answer = none
  | .rounds _ rest =>
      e.altered = []
        ∧ e.saved ++ rest.map DcaRoundInput.commitmentHash = e.request.hashes
        ∧ e.answer = none
  | .delivering hashes =>
      (∀ h ∈ e.altered, h ∈ e.saved) ∧ (∀ h ∈ hashes, h ∈ e.saved) ∧ e.Answered
  | .finished => (∀ h ∈ e.altered, h ∈ e.saved) ∧ e.Answered

structure Desk.Inv (d : Desk) : Prop where
  sound : ∀ (i : ℕ) (e : Served), d.served[i]? = some e → e.Sound
  /-- The saved hashes are the keys of the table. -/
  saved : ∀ h, d.strategies.find h ≠ none ↔
    ∃ (i : ℕ) (e : Served), d.served[i]? = some e ∧ h ∈ e.saved
  once : ∀ (i j : ℕ) (e e' : Served) (h : String), d.served[i]? = some e → d.served[j]? = some e' →
    h ∈ e.saved → h ∈ e'.saved → i = j
  /-- A share row is of the request that saved its hash, or of one that
  awaits it. -/
  held : ∀ k row, d.shares.find k = some row →
    ∃ (i : ℕ) (e : Served), d.served[i]? = some e
    ∧ (k.1 ∈ e.saved ∨ e.Awaits k.1 ∧ d.strategies.find k.1 = none)
    ∧ ⟨row.keeperId, row.ciphertext⟩ ∈ e.request.encryptedShares

theorem Desk.Inv.atomic {d : Desk} (hinv : d.Inv) : Atomic d where
  untouched := by
    intro e he hjob h hh
    obtain ⟨i, hi⟩ := List.mem_iff_getElem?.1 he
    have hsound := hinv.sound i e hi
    unfold Served.Sound at hsound
    rw [hjob] at hsound
    exact hsound.1 h hh
  own := by
    intro s hs
    have hfind : d.strategies.find s.commitmentHash = some s := Table.find_of_mem hs
    have hne : d.strategies.find s.commitmentHash ≠ none := by
      rw [hfind]
      exact Option.some_ne_none s
    obtain ⟨i, e, he, hsaved⟩ := (hinv.saved _).1 hne
    refine ⟨e, List.mem_iff_getElem?.2 ⟨i, he⟩, hsaved, ?_⟩
    intro row hrow hhash
    have hkey : d.shares.find row.key = some row := Table.find_of_mem hrow
    obtain ⟨j, e', he', hwhose, hshare⟩ := hinv.held _ _ hkey
    have hk : row.key.1 = s.commitmentHash := hhash
    rw [hk] at hwhose
    rcases hwhose with hsaved' | ⟨-, hnone⟩
    · have hij : i = j := hinv.once i j e e' _ he he' hsaved hsaved'
      subst hij
      cases he.symm.trans he'
      exact hshare
    · exact absurd hnone hne
  complete := by
    intro e he n hn
    obtain ⟨i, hi⟩ := List.mem_iff_getElem?.1 he
    have hsound := hinv.sound i e hi
    unfold Served.Sound at hsound
    cases hjob : e.job with
    | forwarding s =>
        rw [hjob] at hsound
        rw [hsound.2.2.2] at hn
        nomatch hn
    | saving s =>
        rw [hjob] at hsound
        rw [hsound.2.2.2] at hn
        nomatch hn
    | rounds body rest =>
        rw [hjob] at hsound
        rw [hsound.2.2] at hn
        nomatch hn
    | delivering hashes =>
        rw [hjob] at hsound
        exact hsound.2.2 n hn
    | finished =>
        rw [hjob] at hsound
        exact hsound.2 n hn

theorem Desk.Inv.initial : Desk.initial.Inv where
  sound := by simp [Desk.initial]
  saved := by simp [Desk.initial]
  once := by simp [Desk.initial]
  held := by simp [Desk.initial]

-- ================================================================== one step

section Step

variable {d : Desk} {i j : ℕ} {e e' x : Served}

/-- The requests after the `i`-th one has become `e'`. -/
theorem getElem?_put (hi : d.served[i]? = some e) :
    (d.put i e').served[j]? = some x ↔ j = i ∧ x = e' ∨ j ≠ i ∧ d.served[j]? = some x := by
  have hlt := (List.getElem?_eq_some_iff.1 hi).1
  unfold Desk.put
  by_cases hij : j = i
  · subst hij
    simp [List.getElem?_set_self hlt, eq_comm]
  · simp [List.getElem?_set_ne (Ne.symm hij), hij]

/-- A hash no request has saved is saved once by the `i`-th. -/
theorem Desk.Inv.once_put {new : List String} (hinv : d.Inv) (hi : d.served[i]? = some e)
    (hsaved : e'.saved = e.saved ++ new)
    (hfresh : ∀ (j : ℕ) (x : Served), d.served[j]? = some x → ∀ h ∈ new, h ∉ x.saved)
    {j : ℕ} {x : Served} {h : String} (hj : (d.put i e').served[j]? = some x)
    (hx : h ∈ x.saved) (hself : h ∈ e'.saved) : i = j := by
  rcases (getElem?_put hi).1 hj with ⟨rfl, -⟩ | ⟨-, hold⟩
  · rfl
  · rw [hsaved, List.mem_append] at hself
    rcases hself with hmem | hnew
    · exact hinv.once i j e x h hi hold hmem hx
    · exact absurd hx (hfresh j x hold h hnew)

theorem Desk.Inv.once_of_put {new : List String} (hinv : d.Inv) (hi : d.served[i]? = some e)
    (hsaved : e'.saved = e.saved ++ new)
    (hfresh : ∀ (j : ℕ) (x : Served), d.served[j]? = some x → ∀ h ∈ new, h ∉ x.saved)
    (j j' : ℕ) (x x' : Served) (h : String) (hj : (d.put i e').served[j]? = some x)
    (hj' : (d.put i e').served[j']? = some x') (hx : h ∈ x.saved) (hx' : h ∈ x'.saved) :
    j = j' := by
  rcases (getElem?_put hi).1 hj with ⟨rfl, rfl⟩ | ⟨-, hold⟩
  · exact hinv.once_put hi hsaved hfresh hj' hx' hx
  · rcases (getElem?_put hi).1 hj' with ⟨rfl, rfl⟩ | ⟨-, hold'⟩
    · exact (hinv.once_put hi hsaved hfresh hj hx hx').symm
    · exact hinv.once j j' x x' h hold hold' hx hx'

/-- A request that saves nothing moves: it may store shares, of a hash it
saved or awaits. -/
theorem Desk.Inv.forward {t' : ShareTable} (hinv : d.Inv) (hi : d.served[i]? = some e)
    (hrequest : e'.request = e.request) (hsaved : e'.saved = e.saved) (hsound : e'.Sound)
    (hawaits : ∀ h, e.Awaits h → e'.Awaits h)
    (hfind : ∀ k row, t'.find k = some row → d.shares.find k = some row
      ∨ (k.1 ∈ e.saved ∨ e'.Awaits k.1 ∧ d.strategies.find k.1 = none)
        ∧ ⟨row.keeperId, row.ciphertext⟩ ∈ e.request.encryptedShares) :
    Desk.Inv { d.put i e' with shares := t' } where
  sound := by
    intro j x hj
    rcases (getElem?_put hi).1 hj with ⟨-, rfl⟩ | ⟨-, hj⟩
    · exact hsound
    · exact hinv.sound j x hj
  saved := by
    intro h
    rw [show ({ d.put i e' with shares := t' } : Desk).strategies = d.strategies from rfl,
      hinv.saved h]
    constructor
    · intro hold
      obtain ⟨j, x, hj, hx⟩ := hold
      by_cases hij : j = i
      · subst hij
        cases hi.symm.trans hj
        exact ⟨j, e', (getElem?_put hi).2 (.inl ⟨rfl, rfl⟩), hsaved ▸ hx⟩
      · exact ⟨j, x, (getElem?_put hi).2 (.inr ⟨hij, hj⟩), hx⟩
    · intro hnew
      obtain ⟨j, x, hj, hx⟩ := hnew
      rcases (getElem?_put hi).1 hj with ⟨-, rfl⟩ | ⟨-, hj⟩
      · exact ⟨i, e, hi, hsaved ▸ hx⟩
      · exact ⟨j, x, hj, hx⟩
  once := hinv.once_of_put hi (hsaved.trans (List.append_nil _).symm) (by simp)
  held := by
    intro k row hrow
    have hself : ({ d.put i e' with shares := t' } : Desk).served[i]? = some e' :=
      (getElem?_put hi).2 (.inl ⟨rfl, rfl⟩)
    rcases hfind k row hrow with hold | ⟨hwhose, hshare⟩
    · obtain ⟨j, x, hj, hwhose, hshare⟩ := hinv.held k row hold
      by_cases hij : j = i
      · subst hij
        cases hi.symm.trans hj
        refine ⟨j, e', hself, ?_, hrequest ▸ hshare⟩
        rcases hwhose with hin | ⟨hwait, hnone⟩
        · exact .inl (hsaved ▸ hin)
        · exact .inr ⟨hawaits _ hwait, hnone⟩
      · exact ⟨j, x, (getElem?_put hi).2 (.inr ⟨hij, hj⟩), hwhose, hshare⟩
    · refine ⟨i, e', hself, ?_, hrequest ▸ hshare⟩
      rw [hsaved]
      exact hwhose

/-- A request saves a free hash. -/
theorem Desk.Inv.save {t' : StrategyTable} {fault : Fault} {s : PendingStrategy}
    (hinv : d.Inv) (hi : d.served[i]? = some e) (hrequest : e'.request = e.request)
    (hsaved : e'.saved = e.saved ++ [s.commitmentHash]) (hsound : e'.Sound)
    (hawaits : ∀ h, e.Awaits h → h = s.commitmentHash)
    (hfree : d.Free i fault s.commitmentHash) (hinsert : d.strategies.insert s = some t') :
    Desk.Inv { d.put i e' with strategies := t' } := by
  have hself : ({ d.put i e' with strategies := t' } : Desk).served[i]? = some e' :=
    (getElem?_put hi).2 (.inl ⟨rfl, rfl⟩)
  have hfresh : ∀ (j : ℕ) (x : Served), d.served[j]? = some x →
      s.commitmentHash ∉ x.saved := by
    intro j x hj hx
    exact (hinv.saved _).2 ⟨j, x, hj, hx⟩ hfree.fresh
  refine ⟨?_, ?_, ?_, ?_⟩
  · intro j x hj
    rcases (getElem?_put hi).1 hj with ⟨-, rfl⟩ | ⟨-, hj⟩
    · exact hsound
    · exact hinv.sound j x hj
  · intro h
    rw [show ({ d.put i e' with strategies := t' } : Desk).strategies = t' from rfl,
      Table.find_insert hinsert]
    by_cases hh : s.commitmentHash = h
    · subst hh
      rw [if_pos rfl]
      refine iff_of_true (Option.some_ne_none s) ⟨i, e', hself, ?_⟩
      rw [hsaved]
      simp
    · rw [if_neg hh, hinv.saved h]
      constructor
      · intro hold
        obtain ⟨j, x, hj, hx⟩ := hold
        by_cases hij : j = i
        · subst hij
          cases hi.symm.trans hj
          exact ⟨j, e', hself, by rw [hsaved]; exact List.mem_append_left _ hx⟩
        · exact ⟨j, x, (getElem?_put hi).2 (.inr ⟨hij, hj⟩), hx⟩
      · intro hnew
        obtain ⟨j, x, hj, hx⟩ := hnew
        rcases (getElem?_put hi).1 hj with ⟨-, rfl⟩ | ⟨-, hj⟩
        · rw [hsaved, List.mem_append, List.mem_singleton] at hx
          exact ⟨i, e, hi, hx.resolve_right (Ne.symm hh)⟩
        · exact ⟨j, x, hj, hx⟩
  · apply hinv.once_of_put hi hsaved
    intro j x hj h hh
    rw [List.mem_singleton] at hh
    exact hh ▸ hfresh j x hj
  · intro k row hrow
    obtain ⟨j, x, hj, hwhose, hshare⟩ := hinv.held k row hrow
    by_cases hij : j = i
    · subst hij
      cases hi.symm.trans hj
      refine ⟨j, e', hself, .inl ?_, hrequest ▸ hshare⟩
      rw [hsaved, List.mem_append, List.mem_singleton]
      exact hwhose.imp id fun hwait => hawaits _ hwait.1
    · refine ⟨j, x, (getElem?_put hi).2 (.inr ⟨hij, hj⟩), ?_, hshare⟩
      rcases hwhose with hin | ⟨hwait, hnone⟩
      · exact .inl hin
      · have hother : s.commitmentHash ≠ k.1 := by
          intro heq
          rw [heq] at hfree
          exact hfree.clear j x hij hj hwait
        refine .inr ⟨hwait, ?_⟩
        rw [show ({ d.put i e' with strategies := t' } : Desk).strategies = t' from rfl,
          Table.find_insert hinsert, if_neg hother]
        exact hnone

-- =============================================================== each request

/-- `Save` of a free hash succeeds. -/
theorem Desk.Free.save {fault : Fault} {s : PendingStrategy} (now : ℤ)
    (hfree : d.Free i fault s.commitmentHash) :
    ∃ t', StrategyRepo.save fault { s with updatedAt := now } d.strategies = .ok t'
      ∧ d.strategies.insert { s with updatedAt := now } = some t' := by
  cases hinsert : d.strategies.insert { s with updatedAt := now } with
  | none =>
      have hsome := Table.insert_eq_none.1 hinsert
      rw [show PendingStrategy.commitmentHash { s with updatedAt := now } = s.commitmentHash
        from rfl, hfree.fresh] at hsome
      nomatch hsome
  | some t' => exact ⟨t', StrategyRepo.save_eq_ok.2 ⟨hfree.works, hinsert⟩, rfl⟩

/-- The goroutine of a request whose hashes are saved. -/
theorem Served.sound_deliver (haltered : ∀ h ∈ e.altered, h ∈ e.saved)
    (hhashes : ∀ h ∈ e.request.hashes, h ∈ e.saved) (hanswered : e.Answered)
    (hjob : e.job = e.request.deliver) : e.Sound := by
  unfold Served.Sound
  rw [hjob]
  unfold Request.deliver
  by_cases hnone : e.request.encryptedShares = []
  · rw [if_pos hnone]
    exact ⟨haltered, hanswered⟩
  · rw [if_neg hnone]
    exact ⟨haltered, hhashes, hanswered⟩

theorem Desk.forward_eq {done : Except String Unit → Served → Served} :
    d.forward myIds i e reply hashes done
      = { d.put i (done
            (forwardSharesToKeeper myIds reply hashes e.request.encryptedShares d.shares).1
            { e with
              altered := e.altered ++ altered hashes e.request.encryptedShares d.shares
                (forwardSharesToKeeper myIds reply hashes e.request.encryptedShares
                  d.shares).2 }) with
          shares :=
            (forwardSharesToKeeper myIds reply hashes e.request.encryptedShares
              d.shares).2 } := rfl

theorem Desk.Inv.forwarding {now : ℤ} {fault : Fault} {s : PendingStrategy} (hinv : d.Inv)
    (hi : d.served[i]? = some e) (hjob : e.job = .forwarding s)
    (hord : Orderly myIds d (.move i now fault reply)) :
    (d.forward myIds i e reply [s.commitmentHash] (afterForward s)).Inv := by
  have hsound := hinv.sound i e hi
  unfold Served.Sound at hsound
  rw [hjob] at hsound
  obtain ⟨haltered, hhashes, hsaved, hanswer⟩ := hsound
  have hcond := hord e hi
  rw [hjob] at hcond
  have hnot : ∀ h, ¬ e.Awaits h := by
    intro h hwait
    obtain ⟨s', hs', -⟩ := hwait
    rw [hjob] at hs'
    nomatch hs'
  rw [Desk.forward_eq, haltered, List.nil_append]
  generalize hcall : forwardSharesToKeeper myIds reply [s.commitmentHash]
    e.request.encryptedShares d.shares = call
  have hnew := @forward_new myIds reply [s.commitmentHash] e.request.encryptedShares d.shares
  have hmem : ∀ h ∈ altered [s.commitmentHash] e.request.encryptedShares d.shares call.2,
      h = s.commitmentHash ∧ call.1 = .ok () ∧ d.strategies.find h = none := by
    intro h hh
    have heq : h = s.commitmentHash := List.mem_singleton.1 (altered_subset hh)
    subst heq
    rw [← hcall] at hh ⊢
    obtain ⟨⟨receivedAt, rfl⟩, hnone⟩ := hcond hh
    exact ⟨rfl, forward_ok hh, hnone⟩
  rw [hcall] at hnew
  refine hinv.forward hi ?_ ?_ ?_ (fun h hwait => absurd hwait (hnot h)) ?_
  · cases call.1 <;> rfl
  · cases call.1 <;> rfl
  · cases hresult : call.1 with
    | ok u => exact ⟨fun h hh => (hmem h hh).1, hhashes, hsaved, hanswer⟩
    | error err =>
        refine ⟨?_, nofun⟩
        intro h hh
        obtain ⟨-, hok, -⟩ := hmem h hh
        rw [hresult] at hok
        nomatch hok
  · intro k row hfind
    rcases hnew hfind with hold | ⟨hchanged, hshare⟩
    · exact .inl hold
    · obtain ⟨hk, hok, hnone⟩ := hmem k.1 hchanged
      rw [hok]
      exact .inr ⟨.inr ⟨⟨s, rfl, hk.symm, hchanged⟩, hnone⟩, hshare⟩

/-- After its `Save`, `execute-sync` is done and any other request goes on to
deliver. -/
theorem Desk.afterSave_ok (s : PendingStrategy) (e : Served) :
    (afterSave s (.ok ()) e).request = e.request
      ∧ (afterSave s (.ok ()) e).saved = e.saved
      ∧ (afterSave s (.ok ()) e).altered = e.altered
      ∧ ((afterSave s (.ok ()) e).answer = e.answer
          ∧ (afterSave s (.ok ()) e).job = .finished
        ∨ (afterSave s (.ok ()) e).answer = some (.accepted s.commitmentHash)
          ∧ (afterSave s (.ok ()) e).job = e.request.deliver) := by
  unfold afterSave
  cases hrequest : e.request <;> simp [hrequest]

theorem Desk.Inv.saving {now : ℤ} {fault : Fault} {s : PendingStrategy} (hinv : d.Inv)
    (hi : d.served[i]? = some e) (hjob : e.job = .saving s)
    (hord : Orderly myIds d (.move i now fault reply)) :
    (d.save i e now fault s (afterSave s)).Inv := by
  have hsound := hinv.sound i e hi
  unfold Served.Sound at hsound
  rw [hjob] at hsound
  obtain ⟨haltered, hhashes, hsaved, hanswer⟩ := hsound
  have hcond := hord e hi
  rw [hjob] at hcond
  have hawaits : ∀ h, e.Awaits h → h = s.commitmentHash := by
    intro h hwait
    obtain ⟨-, -, -, hmem⟩ := hwait
    exact haltered h hmem
  unfold Desk.save
  cases hsave : StrategyRepo.save fault { s with updatedAt := now } d.strategies with
  | error err =>
      -- a request that changed rows would have found its hash free
      have hnone : s.commitmentHash ∉ e.altered := by
        intro hmem
        obtain ⟨t', hok, -⟩ := (hcond (.inl hmem)).save now
        rw [hsave] at hok
        nomatch hok
      refine hinv.forward hi ?_ ?_ ?_ ?_ (fun k row hold => .inl hold)
      · rfl
      · rfl
      · exact ⟨fun h hh => absurd (haltered h hh ▸ hh) hnone, nofun⟩
      · intro h hwait
        obtain ⟨-, -, -, hmem⟩ := hwait
        exact absurd (haltered h hmem ▸ hmem) hnone
  | ok t' =>
      obtain ⟨hworks, hinsert⟩ := StrategyRepo.save_eq_ok.1 hsave
      have hfresh : d.strategies.find s.commitmentHash = none :=
        Table.fresh_of_insert (a := { s with updatedAt := now }) hinsert
      have hfree := hcond (.inr ⟨hworks, hfresh⟩)
      refine hinv.save (s := { s with updatedAt := now }) hi ?_ ?_ ?_ hawaits hfree hinsert
      · exact (Desk.afterSave_ok s _).1
      · exact (Desk.afterSave_ok s _).2.1
      · have hsaved : ∀ h, h = s.commitmentHash → h ∈ e.saved ++ [s.commitmentHash] := by
          intro h hh
          rw [hh]
          exact List.mem_append_right _ (List.mem_singleton_self _)
        obtain ⟨hreq, hsv, halt, hrest⟩ :=
          Desk.afterSave_ok s { e with saved := e.saved ++ [s.commitmentHash] }
        have halt' : ∀ h ∈ (afterSave s (.ok ())
            { e with saved := e.saved ++ [s.commitmentHash] }).altered,
            h ∈ (afterSave s (.ok ())
              { e with saved := e.saved ++ [s.commitmentHash] }).saved := by
          rw [halt, hsv]
          exact fun h hh => hsaved h (haltered h hh)
        rcases hrest with ⟨hans, hjob'⟩ | ⟨hans, hjob'⟩
        · unfold Served.Sound
          rw [hjob']
          refine ⟨halt', ?_⟩
          intro n hn
          rw [hans, hanswer] at hn
          nomatch hn
        · refine Served.sound_deliver halt' ?_ ?_ (hjob'.trans (congrArg _ hreq.symm))
          · rw [hreq, hsv, hhashes]
            exact fun h hh => hsaved h (List.mem_singleton.1 hh)
          · intro n hn
            rw [hans] at hn
            nomatch hn

theorem Desk.Inv.round {now : ℤ} {fault : Fault} {body : RegisterDcaGroupBody}
    {round : DcaRoundInput} {rest : List DcaRoundInput} (hinv : d.Inv)
    (hi : d.served[i]? = some e) (hjob : e.job = .rounds body (round :: rest))
    (hord : Orderly myIds d (.move i now fault reply)) :
    (d.save i e now fault (body.strategy round) fun _ e =>
      { e with job := .rounds body rest }).Inv := by
  have hsound := hinv.sound i e hi
  unfold Served.Sound at hsound
  rw [hjob] at hsound
  obtain ⟨haltered, hhashes, hanswer⟩ := hsound
  have hfree := hord e hi
  rw [hjob] at hfree
  have hfree : d.Free i fault (body.strategy round).commitmentHash := hfree
  obtain ⟨t', hsave, hinsert⟩ := hfree.save now
  unfold Desk.save
  rw [hsave]
  refine hinv.save (s := { body.strategy round with updatedAt := now }) hi ?_ ?_ ?_ ?_ hfree
    hinsert
  · rfl
  · rfl
  · refine ⟨haltered, ?_, hanswer⟩
    rw [List.append_assoc]
    exact hhashes
  · intro h hwait
    obtain ⟨s', hs', -⟩ := hwait
    rw [hjob] at hs'
    nomatch hs'

theorem Desk.Inv.answer {body : RegisterDcaGroupBody} (hinv : d.Inv)
    (hi : d.served[i]? = some e) (hjob : e.job = .rounds body []) :
    (d.put i
      { e with
        job := e.request.deliver, answer := some (.groupAccepted e.saved.length) }).Inv := by
  have hsound := hinv.sound i e hi
  unfold Served.Sound at hsound
  rw [hjob] at hsound
  obtain ⟨haltered, hhashes, -⟩ := hsound
  rw [List.map_nil, List.append_nil] at hhashes
  refine hinv.forward hi ?_ ?_ ?_ ?_ (fun k row hold => .inl hold)
  · rfl
  · rfl
  · refine Served.sound_deliver ?_ ?_ (fun _ _ => hhashes) rfl
    · simp [haltered]
    · intro h hh
      exact hhashes ▸ hh
  · intro h hwait
    obtain ⟨s', hs', -⟩ := hwait
    rw [hjob] at hs'
    nomatch hs'

theorem Desk.Inv.delivering (hinv : d.Inv) (hi : d.served[i]? = some e)
    (hjob : e.job = .delivering hashes) :
    (d.forward myIds i e reply hashes fun _ e => { e with job := .finished }).Inv := by
  have hsound := hinv.sound i e hi
  unfold Served.Sound at hsound
  rw [hjob] at hsound
  obtain ⟨haltered, hhashes, hanswered⟩ := hsound
  rw [Desk.forward_eq]
  refine hinv.forward hi ?_ ?_ ?_ ?_ ?_
  · rfl
  · rfl
  · refine ⟨?_, hanswered⟩
    intro h hh
    rcases List.mem_append.1 hh with hold | hnew
    · exact haltered h hold
    · exact hhashes h (altered_subset hnew)
  · intro h hwait
    obtain ⟨s', hs', -⟩ := hwait
    rw [hjob] at hs'
    nomatch hs'
  · intro k row hfind
    rcases forward_new hfind with hold | ⟨hchanged, hshare⟩
    · exact .inl hold
    · exact .inr ⟨.inl (hhashes _ (altered_subset hchanged)), hshare⟩

/-- The checks refuse a body with 400 or let its own strategy through. -/
theorem RegisterStrategyBody.check_cases (body : RegisterStrategyBody) (wait : Bool) :
    (∃ m, body.check wait = .error (.refused 400 m))
      ∨ ∃ kind, body.check wait = .ok (body.strategy kind) := by
  unfold RegisterStrategyBody.check
  simp only
  split
  · exact .inl ⟨_, rfl⟩
  · split
    · exact .inl ⟨_, rfl⟩
    · split
      · exact .inl ⟨_, rfl⟩
      · exact .inr ⟨_, rfl⟩

/-- A request that arrives has written nothing. -/
theorem Request.arrive_sound (request : Request) :
    request.arrive.Sound ∧ request.arrive.saved = [] := by
  have hrefused : ∀ m, (⟨request, .finished, some (.refused 400 m), [], []⟩ : Served).Sound :=
    fun m => ⟨nofun, nofun⟩
  unfold Request.arrive
  cases request with
  | strategies body =>
      rcases body.check_cases false with ⟨m, hcheck⟩ | ⟨kind, hcheck⟩ <;> simp only [hcheck]
      · exact ⟨hrefused m, trivial⟩
      · exact ⟨⟨nofun, rfl, rfl, rfl⟩, trivial⟩
  | executeSync body =>
      rcases body.check_cases true with ⟨m, hcheck⟩ | ⟨kind, hcheck⟩ <;> simp only [hcheck]
      · exact ⟨hrefused m, trivial⟩
      · exact ⟨⟨rfl, rfl, rfl, rfl⟩, trivial⟩
  | dcaStrategies body =>
      by_cases hmissing : body.tokenIn = "" ∨ body.tokenOut = "" ∨ body.rounds = []
      · simp only [if_pos hmissing]
        exact ⟨hrefused _, trivial⟩
      · simp only [if_neg hmissing]
        exact ⟨⟨rfl, rfl, rfl⟩, trivial⟩
  | malformed err => exact ⟨hrefused _, rfl⟩

theorem Desk.Inv.arrive (hinv : d.Inv) (request : Request) :
    Desk.Inv { d with served := d.served ++ [request.arrive] } := by
  obtain ⟨hsound, hsaved⟩ := request.arrive_sound
  have hcases : ∀ {j : ℕ} {x : Served}, (d.served ++ [request.arrive])[j]? = some x →
      x = request.arrive ∨ d.served[j]? = some x := by
    intro j x hj
    rw [List.getElem?_append] at hj
    split at hj
    · exact .inr hj
    · exact .inl (List.mem_singleton.1 (List.mem_of_getElem? hj))
  have hold : ∀ {j : ℕ} {x : Served}, d.served[j]? = some x →
      (d.served ++ [request.arrive])[j]? = some x := by
    intro j x hj
    rw [List.getElem?_append_left (List.getElem?_eq_some_iff.1 hj).1, hj]
  refine ⟨?_, ?_, ?_, ?_⟩
  · intro j x hj
    rcases hcases hj with rfl | hj
    · exact hsound
    · exact hinv.sound j x hj
  · intro h
    rw [hinv.saved h]
    constructor
    · intro hex
      obtain ⟨j, x, hj, hx⟩ := hex
      exact ⟨j, x, hold hj, hx⟩
    · intro hex
      obtain ⟨j, x, hj, hx⟩ := hex
      rcases hcases hj with rfl | hj
      · rw [hsaved] at hx
        nomatch hx
      · exact ⟨j, x, hj, hx⟩
  · intro j j' x x' h hj hj' hx hx'
    rcases hcases hj with rfl | hj
    · rw [hsaved] at hx
      nomatch hx
    · rcases hcases hj' with rfl | hj'
      · rw [hsaved] at hx'
        nomatch hx'
      · exact hinv.once j j' x x' h hj hj' hx hx'
  · intro k row hrow
    obtain ⟨j, x, hj, hwhose, hshare⟩ := hinv.held k row hrow
    exact ⟨j, x, hold hj, hwhose, hshare⟩

end Step

-- ==================================================================== whole runs

/-- Every orderly step keeps the invariant. -/
theorem inv_step {d d' : Desk} {l : DeskStep} (hinv : d.Inv) (hord : Orderly myIds d l)
    (hstep : (desk myIds).step l d = some d') : d'.Inv := by
  cases l with
  | arrive request =>
      cases hstep
      exact hinv.arrive request
  | move i now fault reply =>
      obtain ⟨e, hi, hmove⟩ := Option.bind_eq_some_iff.1 hstep
      unfold Desk.move at hmove
      cases hjob : e.job with
      | forwarding s =>
          rw [hjob] at hmove
          cases hmove
          exact hinv.forwarding hi hjob hord
      | saving s =>
          rw [hjob] at hmove
          cases hmove
          exact hinv.saving hi hjob hord
      | rounds body rest =>
          rw [hjob] at hmove
          cases rest with
          | nil =>
              cases hmove
              exact hinv.answer hi hjob
          | cons round rest =>
              cases hmove
              exact hinv.round hi hjob hord
      | delivering hashes =>
          rw [hjob] at hmove
          cases hmove
          exact hinv.delivering hi hjob
      | finished =>
          rw [hjob] at hmove
          nomatch hmove

/-- In every history whose steps are orderly, the two stores agree in every
state it reaches. -/
theorem registration_atomic (myIds : List String) (d : Desk)
    (hrun : (desk myIds).Run (Orderly myIds) .initial d) : Atomic d :=
  (hrun.inv (fun _ _ _ hinv hord hstep => inv_step hinv hord hstep) .initial).atomic

-- ================================================================== a sample

/-- A LIMIT or MARKET order on the sample hash with one share. -/
def sampleBody (kind ciphertext : String) : RegisterStrategyBody where
  commitmentHash := sampleHash
  kind := kind
  chainID := 31337
  tokenIn := "0x000000000000000000000000000000000000000a"
  tokenOut := "0x000000000000000000000000000000000000000b"
  size := "60"
  minOut := "5"
  expiry := 2000
  limitPrice := "100000000"
  direction := 0
  nonce := "6"
  nullifier := "7"
  scheduledLo := none
  scheduledHi := none
  encryptedShares := [⟨"keeper-1", ciphertext⟩]

/-- The order is saved and its share delivered. -/
def honestRequest : List DeskStep :=
  [.arrive (.strategies (sampleBody "LIMIT" "0xaa")),
    .move 0 1000 none (.failed "unused"), .move 0 1000 none (.answered 1001)]

/-- Hashes that nobody else uses. -/
def freshHash (digit : Char) : String := "0x" ++ String.ofList (List.replicate 64 digit)

/-- The order; then an `execute-sync`, which goes on to wait, and a group of
two rounds. Their calls come in turn, and the reply to the last is lost. -/
def honestRequests : List DeskStep :=
  honestRequest ++
    [.arrive (.executeSync { sampleBody "MARKET" "0xbb" with commitmentHash := freshHash '1' }),
      .arrive (.dcaStrategies ⟨31337, "0x0a", "0x0b", [⟨"keeper-1", "0xcc"⟩],
        [⟨freshHash '2', "6", "7", "60", "5", 2000, 900, 1000⟩,
          ⟨freshHash '3', "8", "9", "60", "5", 3000, 1900, 2000⟩]⟩),
      .move 1 1002 none (.answered 1002), .move 2 1003 none (.failed "unused"),
      .move 1 1004 none (.failed "unused"), .move 2 1005 none (.failed "unused"),
      .move 2 1006 none (.failed "unused"), .move 2 1007 none (.lost 1007 "EOF")]

theorem registration_atomic_sample :
    ∃ d, (desk ["keeper-1"]).Run (Orderly ["keeper-1"]) .initial d
      ∧ d.served.map (fun e => (e.answer, e.saved, e.altered))
        = [(some (.accepted sampleHash), [sampleHash], [sampleHash]),
          (none, [freshHash '1'], [freshHash '1']),
          (some (.groupAccepted 2), [freshHash '2', freshHash '3'], [freshHash '2', freshHash '3'])]
      ∧ Atomic d := by
  have hrun : (desk ["keeper-1"]).Run (Orderly ["keeper-1"]) .initial
      ((desk ["keeper-1"]).endOf (fun d l => decide (Orderly ["keeper-1"] d l)) honestRequests
        .initial) :=
    .endOf (fun _ _ => of_decide_eq_true) (by decide +kernel)
  exact ⟨_, hrun, by decide +kernel, registration_atomic ["keeper-1"] _ hrun⟩

/-- The same order, then a stranger's `execute-sync` and a group for its
hash. -/
def foreignRequests : List DeskStep :=
  honestRequest ++
    [.arrive (.executeSync (sampleBody "MARKET" "0xbb")),
      .move 1 1002 none (.answered 1002), .move 1 1002 none (.failed "unused"),
      .arrive (.dcaStrategies
        ⟨31337, "0x0a", "0x0b", [], [⟨sampleHash, "6", "7", "60", "5", 2000, 900, 1000⟩]⟩),
      .move 2 1003 none (.failed "unused"), .move 2 1003 none (.failed "unused")]

/-- No call fails. The stranger is refused and the keeper holds his share;
the group is accepted and no round of it is saved. -/
theorem foreign_hash_overwrites :
    ∃ d, (desk ["keeper-1"]).Run Machine.anyStep .initial d
      ∧ d.shares.rows = [⟨sampleHash, "keeper-1", "0xbb", 1002⟩]
      ∧ d.served.map (fun e => (e.answer, e.saved, e.altered))
        = [(some (.accepted sampleHash), [sampleHash], [sampleHash]),
          (some (.refused 500 ("save pending strategy: " ++ duplicateKey "pending_strategies")), [],
            [sampleHash]),
          (some (.groupAccepted 0), [], [])]
      ∧ ¬ Atomic d := by
  obtain ⟨d, hd⟩ : ∃ d, (desk ["keeper-1"]).play foreignRequests .initial = some d :=
    Option.isSome_iff_exists.1 (by decide +kernel)
  have hend : ((desk ["keeper-1"]).play foreignRequests .initial).map
      (fun d => (d.shares.rows, d.served.map fun e => (e.answer, e.saved, e.altered)))
      = some ([⟨sampleHash, "keeper-1", "0xbb", 1002⟩],
        [(some (.accepted sampleHash), [sampleHash], [sampleHash]),
          (some (.refused 500 ("save pending strategy: " ++ duplicateKey "pending_strategies")), [],
            [sampleHash]),
          (some (.groupAccepted 0), [], [])]) := by
    decide +kernel
  rw [hd, Option.map_some, Option.some.injEq, Prod.mk.injEq] at hend
  obtain ⟨hrows, hserved⟩ := hend
  refine ⟨d, .of_play (fun _ _ _ => trivial) hd, hrows, hserved, ?_⟩
  intro hatomic
  have hstranger : ((desk ["keeper-1"]).play foreignRequests .initial).map
      (fun d => d.served.any fun e => decide (e.job = .finished)
        && decide (sampleHash ∈ e.altered) && decide (sampleHash ∉ e.saved)) = some true := by
    decide +kernel
  rw [hd, Option.map_some, Option.some.injEq, List.any_eq_true] at hstranger
  obtain ⟨e, he, hbad⟩ := hstranger
  rw [Bool.and_eq_true, Bool.and_eq_true, decide_eq_true_iff, decide_eq_true_iff,
    decide_eq_true_iff] at hbad
  obtain ⟨⟨hjob, hin⟩, hout⟩ := hbad
  exact hout (hatomic.untouched e he hjob sampleHash hin)

end Zstrategy.Backend
