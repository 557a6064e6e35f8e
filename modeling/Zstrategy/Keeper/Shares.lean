/-
`keeper/src/store/shares.ts` and `POST /api/shares`: the encrypted shares
the keeper holds, one row per commitment and keeper id, and the handler
that stores them. The backend sends the body, so its fields are typed; a
list the backend has none of arrives as `null` and counts as empty here.

A request is refused as a whole or stored as a whole, and of what it carries
the keeper stores the entries whose key it has. So the one lemma about the
table, `find_postShares`, says of every row that it was there or came with
the request.
-/
import Mathlib.Data.Int.Notation
import Zstrategy.Lib.Table

namespace Zstrategy.Keeper

open Lib

/-- An entry of `encryptedShares`. -/
structure EncryptedShare where
  keeperId : String
  ciphertext : String
  deriving DecidableEq

structure ShareRow where
  commitmentHash : String
  keeperId : String
  ciphertext : String
  receivedAt : ℤ
  deriving DecidableEq

/-- The primary key of `shares`. -/
def ShareRow.key (r : ShareRow) : String × String := (r.commitmentHash, r.keeperId)

abbrev ShareTable := Table ShareRow.key

/-- The row of one `INSERT OR REPLACE`. -/
def ShareRow.of (now : ℤ) (hash : String) (r : EncryptedShare) : ShareRow :=
  ⟨hash, r.keeperId, r.ciphertext, now⟩

-- ================================================================== storing

/-- The inner loop of `insertShares`. -/
def insertHash (now : ℤ) (hash : String) (shares : List EncryptedShare) (t : ShareTable) :
    ShareTable :=
  shares.foldl (fun t r => t.put (.of now hash r)) t

/-- `insertShares`. -/
def insertShares (now : ℤ) (commitmentHashes : List String) (shares : List EncryptedShare)
    (t : ShareTable) : ShareTable :=
  commitmentHashes.foldl (fun t hash => insertHash now hash shares t) t

/-- `ethers.isHexString(h, 32)`. -/
def isHexString32 (h : String) : Bool :=
  match h.toList with
  | '0' :: 'x' :: digits =>
      digits.length = 64
        && digits.all fun c => ('0' ≤ c && c ≤ '9') || ('a' ≤ c && c ≤ 'f')
          || ('A' ≤ c && c ≤ 'F')
  | _ => false

/-- The entries this keeper has a key for; `myIds` is its `publicKeyset`. -/
def ownShares (myIds : List String) (shares : List EncryptedShare) : List EncryptedShare :=
  shares.filter fun s => s.keeperId ∈ myIds

/-- `POST /api/shares`: the response's status and the table after it. -/
def postShares (myIds : List String) (now : ℤ) (commitmentHashes : List String)
    (encryptedShares : List EncryptedShare) (t : ShareTable) : ℕ × ShareTable :=
  if commitmentHashes = [] then (400, t)
  else if commitmentHashes.any fun h => !isHexString32 h then (400, t)
  else if encryptedShares = [] then (400, t)
  else
    let myShares := ownShares myIds encryptedShares
    if myShares = [] then (201, t)
    else (201, insertShares now commitmentHashes myShares t)

-- =========================================================== what is stored

variable {now : ℤ} {hash : String} {hashes : List String} {shares : List EncryptedShare}
  {t : ShareTable} {k : String × String} {row : ShareRow}

/-- Where a row comes from: it was there, or it carries one of the shares. -/
theorem find_insertHash (h : (insertHash now hash shares t).find k = some row) :
    t.find k = some row
      ∨ k.1 = hash ∧ ∃ r ∈ shares, row = .of now hash r := by
  unfold insertHash at h
  induction shares generalizing t with
  | nil => exact .inl h
  | cons r rest ih =>
      rcases ih h with hold | ⟨hk, r', hr', hrow⟩
      · rw [Table.find_put] at hold
        by_cases hkey : (ShareRow.of now hash r).key = k
        · rw [if_pos hkey] at hold
          subst hkey
          exact .inr ⟨rfl, r, List.mem_cons_self, (Option.some.inj hold).symm⟩
        · rw [if_neg hkey] at hold
          exact .inl hold
      · exact .inr ⟨hk, r', List.mem_cons_of_mem r hr', hrow⟩

/-- Only the keys of the payload change. -/
theorem find_insertHash_other (hk : ∀ r ∈ shares, (hash, r.keeperId) ≠ k) :
    (insertHash now hash shares t).find k = t.find k := by
  unfold insertHash
  induction shares generalizing t with
  | nil => rfl
  | cons r rest ih =>
      rw [List.foldl_cons, ih fun r' hr' => hk r' (List.mem_cons_of_mem r hr'),
        Table.find_put]
      exact if_neg (hk r List.mem_cons_self)

theorem find_insertShares (h : (insertShares now hashes shares t).find k = some row) :
    t.find k = some row
      ∨ k.1 ∈ hashes ∧ ∃ r ∈ shares, row = .of now k.1 r := by
  unfold insertShares at h
  induction hashes generalizing t with
  | nil => exact .inl h
  | cons hash rest ih =>
      rcases ih h with hold | ⟨hk, hrow⟩
      · rcases find_insertHash hold with hold | ⟨hk, hrow⟩
        · exact .inl hold
        · rw [← hk] at hrow
          exact .inr ⟨hk ▸ List.mem_cons_self, hrow⟩
      · exact .inr ⟨List.mem_cons_of_mem hash hk, hrow⟩

theorem find_insertShares_other
    (hk : ∀ hash ∈ hashes, ∀ r ∈ shares, (hash, r.keeperId) ≠ k) :
    (insertShares now hashes shares t).find k = t.find k := by
  unfold insertShares
  induction hashes generalizing t with
  | nil => rfl
  | cons hash rest ih =>
      rw [List.foldl_cons, ih fun hash' h' => hk hash' (List.mem_cons_of_mem hash h'),
        find_insertHash_other (hk hash List.mem_cons_self)]

section postShares

variable {myIds : List String}

/-- The handler either leaves the table or stores the keeper's own shares. -/
theorem postShares_cases (myIds : List String) (now : ℤ) (hashes : List String)
    (shares : List EncryptedShare) (t : ShareTable) :
    (postShares myIds now hashes shares t).2 = t
      ∨ (postShares myIds now hashes shares t).2
        = insertShares now hashes (ownShares myIds shares) t := by
  unfold postShares
  by_cases hnone : hashes = []
  · exact .inl (by rw [if_pos hnone])
  rw [if_neg hnone]
  by_cases hbad : (hashes.any fun h => !isHexString32 h) = true
  · exact .inl (by rw [if_pos hbad])
  rw [if_neg hbad]
  by_cases hempty : shares = []
  · exact .inl (by rw [if_pos hempty])
  rw [if_neg hempty]
  by_cases hown : ownShares myIds shares = []
  · exact .inl (by simp only [if_pos hown])
  · exact .inr (by simp only [if_neg hown])

/-- After a request a row was there or carries one of the request's shares. -/
theorem find_postShares (h : (postShares myIds now hashes shares t).2.find k = some row) :
    t.find k = some row
      ∨ k.1 ∈ hashes ∧ ∃ r ∈ shares, row = .of now k.1 r := by
  rcases postShares_cases myIds now hashes shares t with hleft | hstored
  · rw [hleft] at h
    exact .inl h
  · rw [hstored] at h
    rcases find_insertShares h with hold | ⟨hk, r, hr, hrow⟩
    · exact .inl hold
    · exact .inr ⟨hk, r, (List.mem_filter.1 hr).1, hrow⟩

theorem find_postShares_other
    (hk : ∀ hash ∈ hashes, ∀ r ∈ shares, (hash, r.keeperId) ≠ k) :
    (postShares myIds now hashes shares t).2.find k = t.find k := by
  rcases postShares_cases myIds now hashes shares t with hleft | hstored
  · rw [hleft]
  · rw [hstored, find_insertShares_other]
    intro hash hhash r hr
    exact hk hash hhash r (List.mem_filter.1 hr).1

/-- A refused request stores nothing. -/
theorem postShares_refused (h : (postShares myIds now hashes shares t).1 ≠ 201) :
    (postShares myIds now hashes shares t).2 = t := by
  revert h
  unfold postShares
  by_cases hnone : hashes = []
  · simp [hnone]
  by_cases hbad : (hashes.any fun h => !isHexString32 h) = true
  · simp [hbad, hnone]
  by_cases hempty : shares = []
  · simp [hempty, hbad, hnone]
  by_cases hown : ownShares myIds shares = []
  · simp [hown, hempty, hbad, hnone]
  · simp [hown, hempty, hbad, hnone]

end postShares

end Zstrategy.Keeper
