/-
`keeper/src/threshold/reconstruct.ts` and what it reads: `keys.ts`,
`store/shares.ts`. The encrypted shares of a commitment are read in any
order, decrypted until `k` are there, and combined.

eciesjs and shamir-secret-sharing are outside the repository: `Threshold`
is what the keeper calls of them, `Threshold.Lawful` what they document. A
split is a relation, since splitting and encrypting are randomised.
-/
import Mathlib.Data.List.Perm.Subperm
import Zstrategy.Keeper.Shares
import Zstrategy.Lib.Hex

namespace Zstrategy.Keeper

open Lib

-- =============================================================== the libraries

structure Threshold where
  PrivateKey : Type
  /-- `decrypt(secret, ciphertext)` of eciesjs; `none` if it throws. -/
  eciesDecrypt : PrivateKey → List UInt8 → Option (List UInt8)
  /-- The ciphertexts that `encrypt` to the matching public key returns. -/
  Encrypts : PrivateKey → List UInt8 → List UInt8 → Prop
  /-- The shares that `split(secret, n, k)` returns. -/
  Splits : ℕ → ℕ → List UInt8 → List (List UInt8) → Prop
  /-- `combine(shares)`. -/
  combine : List (List UInt8) → Except String (List UInt8)

/-- Decryption inverts encryption; a split has `n` distinct shares, of
which any `k` combine to the secret; there is nothing to combine in no
shares. -/
structure Threshold.Lawful (lib : Threshold) : Prop where
  decrypts : ∀ key text cipher, lib.Encrypts key text cipher →
    lib.eciesDecrypt key cipher = some text
  length : ∀ n k secret shares, lib.Splits n k secret shares → shares.length = n
  distinct : ∀ n k secret shares, lib.Splits n k secret shares → shares.Nodup
  combines : ∀ n k secret shares, lib.Splits n k secret shares →
    ∀ parts : List (List UInt8), parts.length = k → parts.Nodup → parts ⊆ shares →
      lib.combine parts = .ok secret
  combine_nil : ∃ e, lib.combine [] = .error e

-- ==================================================================== the keys

variable (lib : Threshold)

structure KeeperKeypair where
  id : String
  privateKey : lib.PrivateKey

/-- `loadOrCreateKeypairs`: the ids are those of different keepers. -/
structure Keyset where
  keypairs : List (KeeperKeypair lib)
  distinct : (keypairs.map KeeperKeypair.id).Nodup

variable {lib}

def Keyset.getKeypairById (keys : Keyset lib) (id : String) : Option (KeeperKeypair lib) :=
  keys.keypairs.find? fun k => k.id = id

-- ================================================================= the shares

/-- The rows of a commitment, in some order. -/
def getSharesForCommitment (t : ShareTable) (commitmentHash : String) : List ShareRow :=
  t.rows.filter fun r => r.commitmentHash = commitmentHash

def deleteSharesForCommitment (commitmentHash : String) (t : ShareTable) : ShareTable :=
  t.deleteWhere fun r => r.commitmentHash = commitmentHash

variable (keys : Keyset lib)

/-- One turn of the loop: the share of a row, if the keeper has its key and
it decrypts. -/
def decryptRow (row : ShareRow) : Option (List UInt8) := do
  let kp ← keys.getKeypairById row.keeperId
  lib.eciesDecrypt kp.privateKey (Hex.decode (row.ciphertext.toList.drop 2))

/-- The loop, with the shares decrypted so far. -/
def decryptRows (thresholdK : ℕ) (decrypted : List (List UInt8)) :
    List ShareRow → List (List UInt8)
  | [] => decrypted
  | row :: rest =>
      if thresholdK ≤ decrypted.length then decrypted
      else
        match decryptRow keys row with
        | some plain => decryptRows thresholdK (decrypted ++ [plain]) rest
        | none => decryptRows thresholdK decrypted rest

/-- The first ten characters, in the error texts. -/
def short (commitmentHash : String) : String := String.ofList (commitmentHash.toList.take 10)

/-- `reconstructUserSecret`, on the rows that `getSharesForCommitment`
returned. -/
def reconstructUserSecret (thresholdK : ℕ) (commitmentHash : String) (shares : List ShareRow) :
    Except String String :=
  if shares.length < thresholdK then
    .error ("[Reconstruct] not enough shares for " ++ short commitmentHash ++ "…: have "
      ++ toString shares.length ++ ", need " ++ toString thresholdK)
  else
    let decrypted := decryptRows keys thresholdK [] shares
    if decrypted.length < thresholdK then
      .error ("[Reconstruct] insufficient decryptable shares for " ++ short commitmentHash
        ++ "…: decrypted " ++ toString decrypted.length ++ ", needed " ++ toString thresholdK)
    else
      match lib.combine decrypted with
      | .error e => .error e
      | .ok secretBytes =>
          if secretBytes.length ≠ 32 then
            .error ("[Reconstruct] expected 32-byte secret, got " ++ toString secretBytes.length)
          else .ok ("0x" ++ String.ofList (Hex.encode secretBytes))

-- ==================================================================== the loop

variable {keys} {k : ℕ}

/-- The loop takes the first shares that decrypt, up to the threshold. -/
theorem decryptRows_eq (rows : List ShareRow) (acc : List (List UInt8)) (hacc : acc.length ≤ k) :
    decryptRows keys k acc rows
      = acc ++ (rows.filterMap (decryptRow keys)).take (k - acc.length) := by
  induction rows generalizing acc with
  | nil => simp [decryptRows]
  | cons row rest ih =>
      unfold decryptRows
      by_cases hfull : k ≤ acc.length
      · have hzero : k - acc.length = 0 := by omega
        rw [if_pos hfull, hzero, List.take_zero, List.append_nil]
      · rw [if_neg hfull]
        cases hrow : decryptRow keys row with
        | none =>
            simp only [List.filterMap_cons, hrow]
            exact ih acc hacc
        | some plain =>
            have hlen : (acc ++ [plain]).length ≤ k := by
              rw [List.length_append, List.length_singleton]
              omega
            have hnext : k - acc.length = (k - (acc ++ [plain]).length) + 1 := by
              rw [List.length_append, List.length_singleton]
              omega
            simp only [List.filterMap_cons, hrow]
            rw [ih _ hlen, hnext, List.take_succ_cons, List.append_assoc]
            rfl

theorem nodup_of_subperm {α : Type} {xs ys : List α} (h : xs.Subperm ys) (hys : ys.Nodup) :
    xs.Nodup := by
  obtain ⟨zs, hperm, hsub⟩ := h
  exact hperm.nodup_iff.1 (hsub.nodup hys)

/-- The shares of a split in the rows are enough, or the call throws. -/
theorem reconstructUserSecret_eq {h : String} {rows : List ShareRow} (hlib : lib.Lawful)
    {n : ℕ} {secret : List UInt8} {shares : List (List UInt8)}
    (hsplit : lib.Splits n k secret shares) (hsecret : secret.length = 32)
    (hrows : (rows.filterMap (decryptRow keys)).Subperm shares) :
    if k ≤ (rows.filterMap (decryptRow keys)).length then
      reconstructUserSecret keys k h rows = .ok ("0x" ++ String.ofList (Hex.encode secret))
    else ∃ e, reconstructUserSecret keys k h rows = .error e := by
  have hloop : decryptRows keys k [] rows = (rows.filterMap (decryptRow keys)).take k := by
    rw [decryptRows_eq rows [] (Nat.zero_le k)]
    rfl
  have hle : (rows.filterMap (decryptRow keys)).length ≤ rows.length :=
    List.length_filterMap_le _ _
  unfold reconstructUserSecret
  simp only [hloop]
  split
  case isTrue hk =>
    have hlen : ((rows.filterMap (decryptRow keys)).take k).length = k :=
      List.length_take_of_le hk
    have hsub : ((rows.filterMap (decryptRow keys)).take k).Subperm shares :=
      (List.take_sublist _ _).subperm.trans hrows
    have hcombine := hlib.combines n k secret shares hsplit _ hlen
      (nodup_of_subperm hsub (hlib.distinct n k secret shares hsplit)) hsub.subset
    rw [if_neg (by omega), if_neg (by omega), hcombine]
    simp only [hsecret, ne_eq, not_true_eq_false, if_false]
  case isFalse hk =>
    split
    · exact ⟨_, rfl⟩
    · have hshort : ((rows.filterMap (decryptRow keys)).take k).length < k := by
        rw [List.length_take]
        omega
      exact ⟨_, if_pos hshort⟩

end Zstrategy.Keeper
