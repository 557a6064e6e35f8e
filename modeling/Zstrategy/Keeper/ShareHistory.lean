/-
What the shares table holds after any sequence of inserts and deletes, and
what is reconstructed from it. A `SealedSplit` is a complete split of one
secret, each share encrypted to its keeper. Inserting one replaces every
row of every listed commitment, so the rows of a commitment always belong
to one split, the latest since its last deletion (`holds_after`); a row
that can no longer be decrypted only takes a share away.

The other half is the secret itself: any threshold of the shares of one
split combine to it, which is the library's promise and a parameter here.
That a table never mixes two splits is what makes the promise applicable.
-/
import Zstrategy.Keeper.Reconstruct

namespace Zstrategy.Keeper

open Lib

variable {lib : Threshold} {keys : Keyset lib} {k : ℕ}

-- ==================================================================== the data

/-- `e` carries `share` to its keeper. -/
def Seals (lib : Threshold) (x : KeeperKeypair lib × List UInt8) (e : EncryptedShare) : Prop :=
  e.keeperId = x.1.id ∧ ∃ cipher, lib.Encrypts x.1.privateKey x.2 cipher
    ∧ e.ciphertext = "0x" ++ String.ofList (Hex.encode cipher)

/-- A split of a 32-byte secret among all published keepers. -/
structure SealedSplit (keys : Keyset lib) (k : ℕ) where
  secret : List UInt8
  shares : List (List UInt8)
  encrypted : List EncryptedShare
  length_secret : secret.length = 32
  splits : lib.Splits keys.keypairs.length k secret shares
  seals : List.Forall₂ (Seals lib) (keys.keypairs.zip shares) encrypted

/-- A call to the store. -/
inductive ShareCall (keys : Keyset lib) (k : ℕ) where
  | insert (now : ℤ) (commitmentHashes : List String) (split : SealedSplit keys k)
  | delete (commitmentHash : String)

def ShareCall.run (t : ShareTable) : ShareCall keys k → ShareTable
  | .insert now hashes split => insertShares now hashes split.encrypted t
  | .delete hash => deleteSharesForCommitment hash t

/-- The split inserted for `h` last, unless its rows were deleted since. -/
def ShareCall.latest (h : String) (last : Option (SealedSplit keys k)) :
    ShareCall keys k → Option (SealedSplit keys k)
  | .insert _ hashes split => if h ∈ hashes then some split else last
  | .delete hash => if hash = h then none else last

def tableAfter (calls : List (ShareCall keys k)) : ShareTable :=
  calls.foldl ShareCall.run .empty

def latestSplit (h : String) (calls : List (ShareCall keys k)) : Option (SealedSplit keys k) :=
  calls.foldl (ShareCall.latest h) none

-- =================================================================== one split

theorem Keyset.getKeypairById_of_mem {kp : KeeperKeypair lib} (h : kp ∈ keys.keypairs) :
    keys.getKeypairById kp.id = some kp := by
  unfold Keyset.getKeypairById
  cases hfind : keys.keypairs.find? fun kp' => kp'.id = kp.id with
  | none =>
      have hne := List.find?_eq_none.1 hfind kp h
      simp at hne
  | some kp' =>
      have hid : kp'.id = kp.id := by simpa using List.find?_some hfind
      rw [List.inj_on_of_nodup_map keys.distinct (List.mem_of_find?_eq_some hfind) h hid]

/-- A complete split has one entry for each keeper. -/
theorem SealedSplit.ids (hlib : lib.Lawful) (s : SealedSplit keys k) :
    s.encrypted.map EncryptedShare.keeperId = keys.keypairs.map KeeperKeypair.id := by
  have hlen : keys.keypairs.length ≤ s.shares.length :=
    Nat.le_of_eq (hlib.length _ _ _ _ s.splits).symm
  have hzip : (keys.keypairs.zip s.shares).map Prod.fst = keys.keypairs := List.map_fst_zip hlen
  have hids : ∀ {xs : List (KeeperKeypair lib × List UInt8)} {es : List EncryptedShare},
      List.Forall₂ (Seals lib) xs es →
      es.map EncryptedShare.keeperId = (xs.map Prod.fst).map KeeperKeypair.id := by
    intro xs es h
    induction h with
    | nil => rfl
    | cons hxe _ ih => simp only [List.map_cons, ih, hxe.1]
  rw [hids s.seals, hzip]

/-- The rows of the split under `h` decrypt to its shares, in order. -/
theorem SealedSplit.decrypts (hlib : lib.Lawful) (s : SealedSplit keys k) (now : ℤ) (h : String) :
    (s.encrypted.map (ShareRow.of now h)).filterMap (decryptRow keys) = s.shares := by
  have hlen : s.shares.length ≤ keys.keypairs.length :=
    Nat.le_of_eq (hlib.length _ _ _ _ s.splits)
  have hzip : (keys.keypairs.zip s.shares).map Prod.snd = s.shares := List.map_snd_zip hlen
  have hkey : ∀ x ∈ keys.keypairs.zip s.shares, keys.getKeypairById x.1.id = some x.1 :=
    fun x hx => Keyset.getKeypairById_of_mem (List.of_mem_zip hx).1
  have hrows : ∀ {xs : List (KeeperKeypair lib × List UInt8)} {es : List EncryptedShare},
      List.Forall₂ (Seals lib) xs es → (∀ x ∈ xs, keys.getKeypairById x.1.id = some x.1) →
      (es.map (ShareRow.of now h)).filterMap (decryptRow keys) = xs.map Prod.snd := by
    intro xs es hseals
    induction hseals with
    | nil => exact fun _ => rfl
    | @cons x e xs es hxe _ ih =>
        intro hxs
        obtain ⟨hx, hxs⟩ := List.forall_mem_cons.1 hxs
        obtain ⟨hid, cipher, henc, hcipher⟩ := hxe
        have hrow : decryptRow keys (ShareRow.of now h e) = some x.2 := by
          unfold decryptRow ShareRow.of
          rw [hid, hx, hcipher]
          simp [Hex.decode_encode, hlib.decrypts _ _ _ henc]
        rw [List.map_cons, List.filterMap_cons, hrow, ih hxs]
        rfl
  rw [hrows s.seals hkey, hzip]

-- =================================================================== the table

/-- The rows of a split under `h`; none without one. -/
def splitRows (now : ℤ) (h : String) : Option (SealedSplit keys k) → List ShareRow
  | some s => s.encrypted.map (ShareRow.of now h)
  | none => []

/-- The rows of `h` are those of one split. -/
def HoldsSplit (h : String) (last : Option (SealedSplit keys k)) (t : ShareTable) : Prop :=
  ∃ now, ∀ row : ShareRow, row.commitmentHash = h →
    (row ∈ t.rows ↔ row ∈ splitRows now h last)

/-- An entry of a payload without a repeated id is found under every hash
it was inserted for. -/
theorem find_insertShares_of_mem {now : ℤ} {hashes : List String} {es : List EncryptedShare}
    (hes : (es.map EncryptedShare.keeperId).Nodup) {h : String} (hh : h ∈ hashes)
    {e : EncryptedShare} (he : e ∈ es) (t : ShareTable) :
    (insertShares now hashes es t).find (h, e.keeperId) = some (.of now h e) := by
  unfold insertShares
  induction hashes generalizing t with
  | nil => cases hh
  | cons hash rest ih =>
      rw [List.foldl_cons]
      by_cases hrest : h ∈ rest
      · exact ih hrest _
      · have hhash : h = hash := (List.mem_cons.1 hh).resolve_right hrest
        subst hhash
        have hlater : ∀ hash ∈ rest, ∀ r ∈ es, (hash, r.keeperId) ≠ (h, e.keeperId) := by
          intro hash hmem r _ heq
          exact hrest ((Prod.mk.inj heq).1 ▸ hmem)
        have hother : (insertShares now rest es (insertHash now h es t)).find (h, e.keeperId)
            = (insertHash now h es t).find (h, e.keeperId) := find_insertShares_other hlater
        rw [insertShares] at hother
        rw [hother, insertHash, ← List.foldl_map]
        refine Table.find_foldl_put (a := ShareRow.of now h e) ?_ (List.mem_map_of_mem he) t
        have hkeys : (es.map (ShareRow.of now h)).map ShareRow.key
            = (es.map EncryptedShare.keeperId).map fun id => (h, id) := by
          rw [List.map_map, List.map_map]
          rfl
        rw [hkeys]
        exact hes.map fun _ _ heq => (Prod.mk.inj heq).2

/-- One call. -/
theorem HoldsSplit.run (hlib : lib.Lawful) {h : String} {last : Option (SealedSplit keys k)}
    {t : ShareTable} (ht : HoldsSplit h last t) (c : ShareCall keys k) :
    HoldsSplit h (c.latest h last) (c.run t) := by
  obtain ⟨now, hrows⟩ := ht
  cases c with
  | insert now' hashes s =>
      by_cases hh : h ∈ hashes
      · refine ⟨now', fun row hrow => ?_⟩
        have hnodup : (s.encrypted.map EncryptedShare.keeperId).Nodup := by
          rw [s.ids hlib]
          exact keys.distinct
        rw [ShareCall.latest, if_pos hh, Table.mem_iff_find, ShareCall.run]
        constructor
        · intro hfind
          -- the split has an entry for every keeper, so also for the one of the row
          have hid : row.keeperId ∈ s.encrypted.map EncryptedShare.keeperId := by
            rcases find_insertShares hfind with hold | ⟨-, e, he, heq⟩
            · have hmem := (hrows row hrow).1 (Table.mem_of_find hold)
              cases last with
              | none => cases hmem
              | some s' =>
                  obtain ⟨e, he, heq⟩ := List.mem_map.1 hmem
                  rw [s.ids hlib, ← s'.ids hlib, ← heq]
                  exact List.mem_map_of_mem he
            · rw [heq]
              exact List.mem_map_of_mem he
          obtain ⟨e, he, heq⟩ := List.mem_map.1 hid
          have hnew : (insertShares now' hashes s.encrypted t).find (h, e.keeperId)
              = some (.of now' h e) := find_insertShares_of_mem hnodup hh he t
          have hkey : row.key = (h, e.keeperId) := by rw [ShareRow.key, hrow, heq]
          rw [hkey] at hfind
          rw [Option.some.inj (hfind.symm.trans hnew)]
          exact List.mem_map_of_mem he
        · intro hmem
          obtain ⟨e, he, rfl⟩ := List.mem_map.1 hmem
          exact find_insertShares_of_mem hnodup hh he t
      · refine ⟨now, fun row hrow => ?_⟩
        have hother : ∀ hash ∈ hashes, ∀ r ∈ s.encrypted, (hash, r.keeperId) ≠ row.key := by
          intro hash hmem r _ heq
          have hhash : hash = h := (Prod.mk.inj heq).1.trans hrow
          exact hh (hhash ▸ hmem)
        rw [ShareCall.latest, if_neg hh, ← hrows row hrow, Table.mem_iff_find, ShareCall.run,
          find_insertShares_other hother, ← Table.mem_iff_find]
  | delete hash =>
      by_cases hh : hash = h
      · refine ⟨now, fun row hrow => ?_⟩
        rw [ShareCall.latest, if_pos hh]
        simp [ShareCall.run, deleteSharesForCommitment, Table.deleteWhere, splitRows, hh, hrow]
      · refine ⟨now, fun row hrow => ?_⟩
        rw [ShareCall.latest, if_neg hh, ← hrows row hrow]
        simp [ShareCall.run, deleteSharesForCommitment, Table.deleteWhere, hrow, Ne.symm hh]

/-- Any sequence of calls. -/
theorem holds_after (hlib : lib.Lawful) (h : String) (calls : List (ShareCall keys k)) :
    HoldsSplit h (latestSplit h calls) (tableAfter calls) := by
  have hfold : ∀ (calls : List (ShareCall keys k)) (last : Option (SealedSplit keys k)) t,
      HoldsSplit h last t →
      HoldsSplit h (calls.foldl (ShareCall.latest h) last) (calls.foldl ShareCall.run t) := by
    intro calls
    induction calls with
    | nil => exact fun _ _ ht => ht
    | cons c calls ih => exact fun last t ht => ih _ _ (ht.run hlib c)
  refine hfold calls none .empty ⟨0, fun row _ => ?_⟩
  simp [Table.empty, splitRows]

/-- The rows of `h`, in whatever order. -/
theorem getShares_perm (hlib : lib.Lawful) (h : String) (calls : List (ShareCall keys k)) :
    ∃ now, (getSharesForCommitment (tableAfter calls) h).Perm
      (splitRows now h (latestSplit h calls)) := by
  obtain ⟨now, hrows⟩ := holds_after hlib h calls
  have hkeys : ((getSharesForCommitment (tableAfter calls) h).map ShareRow.key).Nodup :=
    (List.Sublist.map _ List.filter_sublist).nodup (tableAfter calls).unique
  have hsplit : (splitRows now h (latestSplit h calls)).Nodup := by
    cases latestSplit h calls with
    | none => exact List.nodup_nil
    | some s =>
        have hids : (s.encrypted.map EncryptedShare.keeperId).Nodup := by
          rw [s.ids hlib]
          exact keys.distinct
        refine (List.Nodup.of_map EncryptedShare.keeperId hids).map_on ?_
        intro e he e' he' heq
        have hid : e.keeperId = e'.keeperId := congrArg ShareRow.keeperId heq
        exact List.inj_on_of_nodup_map hids he he' hid
  refine ⟨now, (List.perm_ext_iff_of_nodup (List.Nodup.of_map _ hkeys) hsplit).2 fun row => ?_⟩
  have hhash : ∀ last : Option (SealedSplit keys k), row ∈ splitRows now h last →
      row.commitmentHash = h := by
    intro last hmem
    cases last with
    | none => cases hmem
    | some s =>
        obtain ⟨e, -, rfl⟩ := List.mem_map.1 hmem
        rfl
  rw [getSharesForCommitment, List.mem_filter, decide_eq_true_eq]
  exact ⟨fun hmem => (hrows row hmem.2).1 hmem.1,
    fun hmem => ⟨(hrows row (hhash _ hmem)).2 hmem, hhash _ hmem⟩⟩

-- ================================================================= the theorem

/-- What became of a stored row: nothing, or nobody here can decrypt it any
more, its keeper id being unknown or its ciphertext damaged. -/
def Ages (keys : Keyset lib) (row row' : ShareRow) : Prop :=
  row' = row ∨ row'.commitmentHash = row.commitmentHash ∧ decryptRow keys row' = none

/-- Damage takes shares away and adds none. -/
theorem ages_sublist {rows rows' : List ShareRow} (h : List.Forall₂ (Ages keys) rows rows') :
    (rows'.filterMap (decryptRow keys)).Sublist (rows.filterMap (decryptRow keys)) := by
  induction h with
  | nil => exact List.Sublist.refl _
  | @cons row row' rows rows' hrow _ ih =>
      rw [List.filterMap_cons, List.filterMap_cons]
      rcases hrow with rfl | ⟨-, hnone⟩
      · cases decryptRow keys row' with
        | none => exact ih
        | some share => exact ih.cons_cons share
      · rw [hnone]
        cases decryptRow keys row with
        | none => exact ih
        | some share => exact ih.cons share

/-- After any calls the rows of `h` are those of the latest split since the
last deletion. After any damage to them, read in any order: its secret if
enough rows still decrypt, and an error otherwise. -/
theorem reconstruct_latest (hlib : lib.Lawful) (calls : List (ShareCall keys k)) (h : String)
    {aged rows : List ShareRow}
    (haged : List.Forall₂ (Ages keys) (getSharesForCommitment (tableAfter calls) h) aged)
    (hread : rows.Perm aged) :
    (∃ now, (getSharesForCommitment (tableAfter calls) h).Perm
      (splitRows now h (latestSplit h calls)))
    ∧ match latestSplit h calls with
    | some s =>
        if k ≤ rows.countP fun row => (decryptRow keys row).isSome then
          reconstructUserSecret keys k h rows
            = .ok ("0x" ++ String.ofList (Hex.encode s.secret))
        else ∃ e, reconstructUserSecret keys k h rows = .error e
    | none => ∃ e, reconstructUserSecret keys k h rows = .error e := by
  obtain ⟨now, hperm⟩ := getShares_perm hlib h calls
  refine ⟨⟨now, hperm⟩, ?_⟩
  have hcount : (rows.countP fun row => (decryptRow keys row).isSome)
      = (rows.filterMap (decryptRow keys)).length := by
    rw [List.length_filterMap_eq_countP]
  cases hlast : latestSplit h calls with
  | some s =>
      rw [hlast] at hperm
      have hsub : (rows.filterMap (decryptRow keys)).Subperm s.shares := by
        rw [← s.decrypts hlib now h]
        have hstored := (hperm.filterMap (decryptRow keys)).subperm
        exact ((hread.filterMap _).subperm.trans (ages_sublist haged).subperm).trans hstored
      simp only
      rw [hcount]
      exact reconstructUserSecret_eq hlib s.splits s.length_secret hsub
  | none =>
      rw [hlast] at hperm
      have hnil : rows = [] := by
        have hstored : getSharesForCommitment (tableAfter calls) h = [] := hperm.eq_nil
        rw [hstored] at haged
        cases haged
        exact hread.eq_nil
      subst hnil
      simp only
      unfold reconstructUserSecret
      split
      · exact ⟨_, rfl⟩
      · obtain ⟨e, he⟩ := hlib.combine_nil
        simp only [decryptRows, he]
        split
        · exact ⟨_, rfl⟩
        · exact ⟨e, rfl⟩

-- ==================================================================== a sample

/-- The secret of 32 sevens and its shares at 1, 2 and 3 on a line through
it, each followed by where it is taken. -/
def sampleSecret : List UInt8 := List.replicate 32 7

def sampleShare (x : UInt8) : List UInt8 := List.replicate 32 (7 ^^^ x) ++ [x]

/-- A cipher that puts the key in front, and shares of the one secret. -/
def sampleThreshold : Threshold where
  PrivateKey := UInt8
  eciesDecrypt key cipher :=
    match cipher with
    | [] => none
    | c :: text => if c = key then some text else none
  Encrypts key text cipher := cipher = key :: text
  Splits n k secret shares :=
    n = 3 ∧ k = 2 ∧ secret = sampleSecret ∧ shares = [1, 2, 3].map sampleShare
  combine parts :=
    if parts.length < 2 then .error "expected at least 2 shares"
    else if ∀ p ∈ parts, p ∈ [1, 2, 3].map sampleShare then .ok sampleSecret
    else .error "invalid shares"

theorem sampleThreshold_lawful : sampleThreshold.Lawful where
  decrypts key text cipher h := by
    rw [show cipher = key :: text from h]
    exact if_pos rfl
  length n k secret shares h := by
    obtain ⟨rfl, -, -, rfl⟩ := h
    rfl
  distinct n k secret shares h := by
    obtain ⟨-, -, -, rfl⟩ := h
    decide
  combines n k secret shares h parts hlen _ hsub := by
    obtain ⟨-, rfl, rfl, rfl⟩ := h
    have hlong : ¬parts.length < 2 := by omega
    show (if parts.length < 2 then _ else _) = _
    rw [if_neg hlong]
    exact if_pos fun p hp => hsub hp
  combine_nil := ⟨_, rfl⟩

def sampleKeys : Keyset sampleThreshold where
  keypairs := [⟨"keeper-0", (11 : UInt8)⟩, ⟨"keeper-1", (12 : UInt8)⟩, ⟨"keeper-2", (13 : UInt8)⟩]
  distinct := by decide

/-- The share at `x`, encrypted with a key. -/
def sampleSealed (id : String) (key x : UInt8) : EncryptedShare :=
  ⟨id, "0x" ++ String.ofList (Hex.encode (key :: sampleShare x))⟩

def sampleSplit : SealedSplit sampleKeys 2 where
  secret := sampleSecret
  shares := [1, 2, 3].map sampleShare
  encrypted := [sampleSealed "keeper-0" 11 1, sampleSealed "keeper-1" 12 2,
    sampleSealed "keeper-2" 13 3]
  length_secret := rfl
  splits := ⟨rfl, rfl, rfl, rfl⟩
  seals := .cons ⟨rfl, _, rfl, rfl⟩ (.cons ⟨rfl, _, rfl, rfl⟩ (.cons ⟨rfl, _, rfl, rfl⟩ .nil))

/-- Two rounds share a secret; the second is settled. -/
def sampleCalls : List (ShareCall sampleKeys 2) :=
  [.insert 5 ["0x01", "0x02"] sampleSplit, .delete "0x02"]

def sampleRow (e : EncryptedShare) : ShareRow := .of 5 "0x01" e

/-- The first row of the first round, after its ciphertext was lost. -/
def lostRow : ShareRow := ⟨"0x01", "keeper-0", "0x", 5⟩

/-- The first round is recovered from the two rows left, read backwards. -/
theorem reconstruct_latest_sample :
    reconstructUserSecret sampleKeys 2 "0x01"
        [sampleRow (sampleSealed "keeper-2" 13 3), sampleRow (sampleSealed "keeper-1" 12 2),
          lostRow]
      = .ok ("0x" ++ String.ofList (Hex.encode sampleSecret)) := by
  have hrows : getSharesForCommitment (tableAfter sampleCalls) "0x01"
      = [sampleRow (sampleSealed "keeper-0" 11 1), sampleRow (sampleSealed "keeper-1" 12 2),
        sampleRow (sampleSealed "keeper-2" 13 3)] := by
    decide +kernel
  have haged : List.Forall₂ (Ages sampleKeys)
      (getSharesForCommitment (tableAfter sampleCalls) "0x01")
      [lostRow, sampleRow (sampleSealed "keeper-1" 12 2),
        sampleRow (sampleSealed "keeper-2" 13 3)] := by
    rw [hrows]
    exact .cons (Or.inr ⟨rfl, by decide⟩) (.cons (Or.inl rfl) (.cons (Or.inl rfl) .nil))
  have hread : [sampleRow (sampleSealed "keeper-2" 13 3), sampleRow (sampleSealed "keeper-1" 12 2),
      lostRow].Perm [lostRow, sampleRow (sampleSealed "keeper-1" 12 2),
        sampleRow (sampleSealed "keeper-2" 13 3)] := by
    decide +kernel
  have hmain := (reconstruct_latest sampleThreshold_lawful sampleCalls "0x01" haged hread).2
  have hlatest : latestSplit "0x01" sampleCalls = some sampleSplit := rfl
  have henough : 2 ≤ [sampleRow (sampleSealed "keeper-2" 13 3),
      sampleRow (sampleSealed "keeper-1" 12 2), lostRow].countP
        fun row => (decryptRow sampleKeys row).isSome := by
    decide +kernel
  rw [hlatest] at hmain
  simp only [if_pos henough] at hmain
  exact hmain

end Zstrategy.Keeper
