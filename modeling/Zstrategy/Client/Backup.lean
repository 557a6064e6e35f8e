/-
`frontend/src/lib/backup.ts`: export of an owner's strategies to an
encrypted file and import of such a file. The two directions are inverse
on the strategies store; the store of DCA rounds is in neither of them.

The browser is outside the repository. `Web` is what these functions call:
JSON on the two shapes they use, PBKDF2 and AES-GCM. `Web.RoundTrips` is
what the platform promises of it for one export. The random bytes of an
export and its time stamp are arguments. An import that fails has not
touched the stores.
-/
import Zstrategy.Client.StrategyStore
import Zstrategy.Lib.Base64
import Zstrategy.Lib.Checked

namespace Zstrategy.Client

open Lib

-- ================================================================ the platform

structure BackupFile where
  format : String
  version : ℤ
  kdf : String
  iterations : ℤ
  salt : String
  iv : String
  ciphertext : String
  owner : String
  deriving DecidableEq

/-- A decrypted JSON text: an array of records, or anything else. -/
inductive Payload where
  | records (rs : List StrategyRecord)
  | other

structure Web where
  /-- `JSON.stringify(strategies)` and `JSON.parse`, `none` if it throws. -/
  stringify : List StrategyRecord → String
  parse : String → Option Payload
  /-- The same for the envelope. -/
  stringifyFile : BackupFile → String
  parseFile : String → Option BackupFile
  Key : Type
  /-- PBKDF2 with SHA-256: password, salt, iterations. -/
  deriveKey : List UInt8 → List UInt8 → ℕ → Key
  /-- AES-GCM: key, iv, text. Decryption fails on a text that the key and
  the iv have not produced. -/
  encrypt : Key → List UInt8 → List UInt8 → List UInt8
  decrypt : Key → List UInt8 → List UInt8 → Option (List UInt8)
  /-- What `TextDecoder` makes of bytes that are no UTF-8. -/
  repair : List UInt8 → String

/-- The two JSON texts of an export read back as what they were made of,
the one of the array begins with a bracket, and decryption inverts
encryption. -/
structure Web.RoundTrips (web : Web) (rs : List StrategyRecord) (file : BackupFile) : Prop where
  parse_stringify : web.parse (web.stringify rs) = some (.records rs)
  bracket : (web.stringify rs).toList.head? = some '['
  parse_stringifyFile : web.parseFile (web.stringifyFile file) = some file
  decrypt_encrypt : ∀ key iv text, web.decrypt key iv (web.encrypt key iv text) = some text

/-- `new TextEncoder().encode`. -/
def textEncode (text : String) : List UInt8 := text.toUTF8.data.toList

/-- `new TextDecoder().decode`, which drops a byte order mark. -/
def Web.textDecode (web : Web) (bytes : List UInt8) : String :=
  let text := (String.fromUTF8? ⟨bytes.toArray⟩).getD (web.repair bytes)
  match text.toList with
  | c :: cs => if c = Char.ofNat 0xFEFF then String.ofList cs else text
  | [] => text

/-- `length`, in units of UTF-16. -/
def jsLength (text : String) : ℕ :=
  (text.toList.map fun c => if c.toNat < 2 ^ 16 then 1 else 2).sum

-- =================================================================== the source

def FORMAT_TAG : String := "zstrategy-backup"
def FORMAT_VERSION : ℤ := 1
def PBKDF2_ITERATIONS : ℕ := 250000
def SALT_BYTES : ℕ := 16
def IV_BYTES : ℕ := 12

def bytesToBase64 (bytes : List UInt8) : String := String.ofList (Base64.encode bytes)

/-- `none` if `atob` throws. -/
def base64ToBytes (b64 : String) : Option (List UInt8) := Base64.decode b64.toList

variable (web : Web)

def deriveKey (password : String) (salt : List UInt8) : web.Key :=
  web.deriveKey (textEncode password) salt PBKDF2_ITERATIONS

/-- The envelope of an export. -/
def backupFile (strategies : List StrategyRecord) (owner password : String)
    (salt : Vector UInt8 SALT_BYTES) (iv : Vector UInt8 IV_BYTES) : BackupFile :=
  let key := deriveKey web password salt.toList
  let plaintext := textEncode (web.stringify strategies)
  let ciphertext := web.encrypt key iv.toList plaintext
  { format := FORMAT_TAG
    version := FORMAT_VERSION
    kdf := "PBKDF2-SHA256"
    iterations := PBKDF2_ITERATIONS
    salt := bytesToBase64 salt.toList
    iv := bytesToBase64 iv.toList
    ciphertext := bytesToBase64 ciphertext
    owner := toLowerCase owner }

structure Exported where
  count : ℕ
  filename : String
  /-- The text of the download. -/
  text : String

/-- `salt` and `iv` are what `getRandomValues` filled in, `ts` the time. -/
def exportStrategies (db : ClientDb) (owner password : String)
    (salt : Vector UInt8 SALT_BYTES) (iv : Vector UInt8 IV_BYTES) (ts : String) :
    Except String Exported := do
  expect (8 ≤ jsLength password) "Password must be at least 8 characters"
  let strategies := db.listStrategiesForOwner owner
  expect (strategies ≠ []) "No strategies to export"
  let digits := String.ofList ((owner.toList.drop 2).take 6)
  pure
    { count := strategies.length
      filename := "zstrategy-" ++ digits ++ "-" ++ ts ++ ".zstrategy"
      text := web.stringifyFile (backupFile web strategies owner password salt iv) }

structure Imported where
  db : ClientDb
  count : ℕ
  owner : String

/-- A value, or an exception with a text. -/
def orThrow {α : Type} (x : Option α) (reason : String) : Except String α :=
  match x with
  | some a => .ok a
  | none => .error reason

def importStrategies (db : ClientDb) (fileText password : String) :
    Except String Imported := do
  let parsed ← orThrow (web.parseFile fileText) "File is not valid JSON"
  expect (parsed.format = FORMAT_TAG) "File is not a zstrategy backup"
  expect (parsed.version = FORMAT_VERSION)
    ("Unsupported backup version " ++ toString parsed.version)
  let salt ← orThrow (base64ToBytes parsed.salt) "InvalidCharacterError"
  let iv ← orThrow (base64ToBytes parsed.iv) "InvalidCharacterError"
  let ct ← orThrow (base64ToBytes parsed.ciphertext) "InvalidCharacterError"
  let key := deriveKey web password salt
  let plaintext ← orThrow (web.decrypt key iv ct) "Wrong password or corrupted file"
  let json := web.textDecode plaintext
  let payload ← orThrow (web.parse json) "SyntaxError"
  match payload with
  | .other => throw "Backup payload is malformed"
  | .records records =>
      pure
        { db := records.foldl ClientDb.saveStrategy db
          count := records.length
          owner := parsed.owner }

-- =================================================================== round trip

variable {web} {owner password ts : String} {salt : Vector UInt8 SALT_BYTES}
  {iv : Vector UInt8 IV_BYTES} {rs : List StrategyRecord}

theorem base64ToBytes_bytesToBase64 (bytes : List UInt8) :
    base64ToBytes (bytesToBase64 bytes) = some bytes := by
  rw [base64ToBytes, bytesToBase64, String.toList_ofList, Base64.decode_encode]

/-- Without a byte order mark in front a text survives. -/
theorem textDecode_textEncode {text : String} {c : Char} (h : text.toList.head? = some c)
    (hc : c ≠ Char.ofNat 0xFEFF) : web.textDecode (textEncode text) = text := by
  have hbytes : (⟨(textEncode text).toArray⟩ : ByteArray) = text.toUTF8 := by
    rw [textEncode, Array.toArray_toList]
  have hutf : String.fromUTF8? text.toUTF8 = some text := by
    unfold String.fromUTF8?
    rw [String.toUTF8_eq_toByteArray, dif_pos text.isValidUTF8]
    rfl
  obtain ⟨cs, hlist⟩ := List.head?_eq_some_iff.1 h
  unfold Web.textDecode
  rw [hbytes, hutf, Option.getD_some]
  simp only [hlist]
  exact if_neg hc

/-- The text that an export downloads. -/
theorem text_of_export {db : ClientDb} {e : Exported}
    (he : exportStrategies web db owner password salt iv ts = .ok e) :
    e.text = web.stringifyFile
      (backupFile web (db.listStrategiesForOwner owner) owner password salt iv) := by
  unfold exportStrategies at he
  obtain ⟨-, he⟩ := expect_bind_eq_ok.1 he
  obtain ⟨-, he⟩ := expect_bind_eq_ok.1 he
  cases he
  rfl

/-- What an import makes of it: the records are saved one by one. -/
theorem importStrategies_exported
    (hweb : web.RoundTrips rs (backupFile web rs owner password salt iv)) (db : ClientDb) :
    importStrategies web db (web.stringifyFile (backupFile web rs owner password salt iv)) password
      = .ok ⟨rs.foldl ClientDb.saveStrategy db, rs.length, toLowerCase owner⟩ := by
  have htext : web.textDecode (textEncode (web.stringify rs)) = web.stringify rs :=
    textDecode_textEncode hweb.bracket (by decide)
  unfold importStrategies
  rw [hweb.parse_stringifyFile]
  simp [orThrow, backupFile, expect, base64ToBytes_bytesToBase64, hweb.decrypt_encrypt, htext,
    hweb.parse_stringify, bind, pure, Except.bind, Except.pure]

-- ================================================================= the theorem

/-- `address` is the owner's, in whatever case it is written. -/
def Owns (owner address : String) : Prop := toLowerCase address = toLowerCase owner

/-- `db'` is what the owner had in `db`, both kinds of record, and nothing
else. -/
structure Restored (owner : String) (db db' : ClientDb) : Prop where
  strategies : ∀ r ∈ db.strategies.rows, Owns owner r.owner → r ∈ db'.strategies.rows
  dcaRounds : ∀ r ∈ db.dcaRounds.rows, Owns owner r.owner → r ∈ db'.dcaRounds.rows
  noOtherStrategy : ∀ r ∈ db'.strategies.rows, r ∈ db.strategies.rows ∧ Owns owner r.owner
  noOtherRound : ∀ r ∈ db'.dcaRounds.rows, r ∈ db.dcaRounds.rows ∧ Owns owner r.owner

theorem saveStrategy_foldl (rs : List StrategyRecord) (db : ClientDb) :
    rs.foldl ClientDb.saveStrategy db
      = { db with strategies := rs.foldl Table.put db.strategies } := by
  induction rs generalizing db with
  | nil => rfl
  | cons r rs ih =>
      rw [List.foldl_cons, ih]
      rfl

/-- The strategies of an owner, put into an empty store. -/
theorem mem_restored {db : ClientDb} {r : StrategyRecord} :
    r ∈ ((db.listStrategiesForOwner owner).foldl ClientDb.saveStrategy .empty).strategies.rows
      ↔ r ∈ db.strategies.rows ∧ r.owner = toLowerCase owner := by
  rw [saveStrategy_foldl, ← ClientDb.mem_listStrategiesForOwner]
  constructor
  · intro h
    rcases Table.mem_foldl_put h with hlist | hempty
    · exact hlist
    · cases hempty
  · intro h
    exact Table.mem_of_find (Table.find_foldl_put (db.nodup_listStrategiesForOwner owner) h _)

/-- A backup restores what its owner has stored if that is no DCA round,
and no strategy under an address that is not in lower case. -/
theorem backup_restores_iff {saves : List ClientDb.Save}
    (hweb : web.RoundTrips ((ClientDb.after saves).listStrategiesForOwner owner)
      (backupFile web ((ClientDb.after saves).listStrategiesForOwner owner) owner password salt
        iv))
    {e : Exported}
    (he : exportStrategies web (ClientDb.after saves) owner password salt iv ts = .ok e) :
    let db := ClientDb.after saves
    (∃ i, importStrategies web .empty e.text password = .ok i ∧ Restored owner db i.db)
      ↔ (∀ r ∈ db.dcaRounds.rows, ¬Owns owner r.owner)
        ∧ ∀ r ∈ db.strategies.rows, Owns owner r.owner → r.owner = toLowerCase owner := by
  intro db
  rw [text_of_export he, importStrategies_exported hweb]
  constructor
  · intro h
    obtain ⟨i, hi, hdb⟩ := h
    cases hi
    refine ⟨fun r hr howns => ?_, fun r hr howns => ?_⟩
    · have hmem := hdb.dcaRounds r hr howns
      rw [saveStrategy_foldl] at hmem
      cases hmem
    · exact (mem_restored.1 (hdb.strategies r hr howns)).2
  · intro h
    obtain ⟨hrounds, hlower⟩ := h
    refine ⟨_, rfl, fun r hr howns => ?_, fun r hr howns => absurd howns (hrounds r hr),
      fun r hr => ?_, fun r hr => ?_⟩
    · exact mem_restored.2 ⟨hr, hlower r hr howns⟩
    · obtain ⟨hmem, howner⟩ := mem_restored.1 hr
      refine ⟨hmem, ?_⟩
      rw [Owns, howner, toLowerCase_toLowerCase]
    · rw [saveStrategy_foldl] at hr
      cases hr

-- ==================================================================== a sample

/-- A LIMIT order of owner `0xaa`. -/
def sampleRecord : StrategyRecord where
  commitmentHash := "0x01"
  owner := "0xaa"
  strategyId := "0x02"
  nonce := "0x03"
  tokenIn := "0x0a"
  tokenOut := "0x0b"
  size := "60"
  minOut := "5"
  expiry := 2000
  price := "100000000"
  direction := .BUY
  kind := .LIMIT
  createdAt := 1000

/-- A round of the same owner. -/
def sampleRound : DcaRoundRecord where
  commitmentHash := "0x04"
  dcaGroupId := "0x05"
  owner := "0xaa"
  strategyId := "0x05"
  nonce := "0x06"
  nullifier := "0x07"
  tokenIn := "0x0a"
  tokenOut := "0x0b"
  size := "30"
  minOut := "0"
  expiry := 1922
  scheduledLo := 1365
  scheduledHi := 1493
  roundIndex := 0
  createdAt := 1000

/-- The JSON text of the one order. -/
def sampleJson : String :=
  "[\x7b\"commitmentHash\":\"0x01\",\"owner\":\"0xaa\",\"strategyId\":\"0x02\"," ++
  "\"nonce\":\"0x03\",\"tokenIn\":\"0x0a\",\"tokenOut\":\"0x0b\",\"size\":\"60\"," ++
  "\"minOut\":\"5\",\"expiry\":2000,\"price\":\"100000000\",\"direction\":0," ++
  "\"kind\":\"LIMIT\",\"createdAt\":1000\x7d]"

/-- The envelope as `JSON.stringify(file, null, 2)` writes it; none of its
texts needs an escape. -/
def fileJson (f : BackupFile) : String :=
  "\x7b\n  \"format\": \"" ++ f.format ++ "\",\n  \"version\": " ++ toString f.version
    ++ ",\n  \"kdf\": \"" ++ f.kdf ++ "\",\n  \"iterations\": " ++ toString f.iterations
    ++ ",\n  \"salt\": \"" ++ f.salt ++ "\",\n  \"iv\": \"" ++ f.iv
    ++ "\",\n  \"ciphertext\": \"" ++ f.ciphertext ++ "\",\n  \"owner\": \"" ++ f.owner
    ++ "\"\n\x7d"

/-- A browser that can read the one array and the one envelope; its cipher
puts the salt and the iv in front. -/
def sampleWeb (file : Option BackupFile) : Web where
  stringify rs := if rs = [sampleRecord] then sampleJson else "[]"
  parse text := if text = sampleJson then some (.records [sampleRecord]) else none
  stringifyFile := fileJson
  parseFile text := file.filter fun f => fileJson f = text
  Key := List UInt8
  deriveKey _ salt _ := salt
  encrypt key iv text := key ++ iv ++ text
  decrypt key iv text := some (text.drop (key.length + iv.length))
  repair _ := ""

def sampleSalt : Vector UInt8 SALT_BYTES := Vector.replicate _ 1
def sampleIv : Vector UInt8 IV_BYTES := Vector.replicate _ 2

def sampleFile : BackupFile :=
  backupFile (sampleWeb none) [sampleRecord] "0xAA" "password" sampleSalt sampleIv

theorem sampleWeb_roundTrips : (sampleWeb (some sampleFile)).RoundTrips [sampleRecord]
    (backupFile (sampleWeb (some sampleFile)) [sampleRecord] "0xAA" "password" sampleSalt
      sampleIv) where
  parse_stringify := by simp [sampleWeb]
  bracket := by
    have htext : (sampleWeb (some sampleFile)).stringify [sampleRecord] = sampleJson := by
      simp [sampleWeb]
    rw [htext]
    decide +kernel
  parse_stringifyFile := by
    have hfile : backupFile (sampleWeb (some sampleFile)) [sampleRecord] "0xAA" "password"
        sampleSalt sampleIv = sampleFile := rfl
    rw [hfile]
    simp [sampleWeb]
  decrypt_encrypt key iv text := by
    have hdrop : ∀ key : List UInt8,
        some ((key ++ iv ++ text).drop (key.length + iv.length)) = some text :=
      fun key => congrArg some (List.drop_left' List.length_append)
    exact hdrop key

/-- The order alone, and with the round. -/
def orderSaved : List ClientDb.Save := [.strategy sampleRecord]
def roundSaved : List ClientDb.Save := [.strategy sampleRecord, .dcaRounds [sampleRound]]

theorem sample_listed :
    (ClientDb.after orderSaved).listStrategiesForOwner "0xAA" = [sampleRecord]
      ∧ (ClientDb.after roundSaved).listStrategiesForOwner "0xAA" = [sampleRecord] := by
  have howner : toLowerCase "0xAA" = "0xaa" := by decide
  constructor <;>
    simp [ClientDb.listStrategiesForOwner, howner, ClientDb.after, orderSaved, roundSaved,
      ClientDb.save, ClientDb.saveStrategy, ClientDb.saveDcaRounds, ClientDb.empty, Table.put,
      Table.empty, sampleRecord]

/-- Both can be exported. -/
theorem sample_exported :
    (∃ e, exportStrategies (sampleWeb (some sampleFile)) (ClientDb.after orderSaved) "0xAA"
        "password" sampleSalt sampleIv "t" = .ok e)
      ∧ ∃ e, exportStrategies (sampleWeb (some sampleFile)) (ClientDb.after roundSaved) "0xAA"
        "password" sampleSalt sampleIv "t" = .ok e := by
  have hlength : 8 ≤ jsLength "password" := by decide
  obtain ⟨horder, hround⟩ := sample_listed
  constructor
  · refine ⟨_, expect_bind_eq_ok.2 ⟨hlength, expect_bind_eq_ok.2 ⟨?_, rfl⟩⟩⟩
    rw [horder]
    simp
  · refine ⟨_, expect_bind_eq_ok.2 ⟨hlength, expect_bind_eq_ok.2 ⟨?_, rfl⟩⟩⟩
    rw [hround]
    simp

/-- The order comes back. -/
theorem backup_restores_iff_sample :
    ∃ e i, exportStrategies (sampleWeb (some sampleFile)) (ClientDb.after orderSaved) "0xAA"
        "password" sampleSalt sampleIv "t" = .ok e
      ∧ importStrategies (sampleWeb (some sampleFile)) .empty e.text "password" = .ok i
      ∧ Restored "0xAA" (ClientDb.after orderSaved) i.db := by
  obtain ⟨e, he⟩ := sample_exported.1
  have hweb := sampleWeb_roundTrips
  rw [← sample_listed.1] at hweb
  obtain ⟨i, hi, hdb⟩ := (backup_restores_iff hweb he).2 (by
    refine ⟨fun r hr => ?_, fun r hr _ => ?_⟩
    · cases hr
    · have hone : r = sampleRecord := by
        simpa [ClientDb.after, orderSaved, ClientDb.save, ClientDb.saveStrategy, ClientDb.empty,
          Table.put, Table.empty] using hr
      rw [hone]
      decide)
  exact ⟨e, i, he, hi, hdb⟩

/-- The round does not, though its owner exported. -/
theorem rounds_not_restored :
    ∃ e, exportStrategies (sampleWeb (some sampleFile)) (ClientDb.after roundSaved) "0xAA"
        "password" sampleSalt sampleIv "t" = .ok e
      ∧ sampleRound ∈ (ClientDb.after roundSaved).dcaRounds.rows ∧ Owns "0xAA" sampleRound.owner
      ∧ (∀ i, importStrategies (sampleWeb (some sampleFile)) .empty e.text "password" = .ok i →
          sampleRound ∉ i.db.dcaRounds.rows)
      ∧ ¬∃ i, importStrategies (sampleWeb (some sampleFile)) .empty e.text "password" = .ok i
        ∧ Restored "0xAA" (ClientDb.after roundSaved) i.db := by
  obtain ⟨e, he⟩ := sample_exported.2
  have hweb := sampleWeb_roundTrips
  rw [← sample_listed.2] at hweb
  have hmem : sampleRound ∈ (ClientDb.after roundSaved).dcaRounds.rows := List.mem_singleton_self _
  have howns : Owns "0xAA" sampleRound.owner := by unfold Owns; decide
  have hlost : ∀ i,
      importStrategies (sampleWeb (some sampleFile)) .empty e.text "password" = .ok i →
      sampleRound ∉ i.db.dcaRounds.rows := by
    intro i hi hround
    rw [text_of_export he, importStrategies_exported hweb] at hi
    cases hi
    rw [saveStrategy_foldl] at hround
    cases hround
  refine ⟨e, he, hmem, howns, hlost, fun h => ?_⟩
  obtain ⟨i, hi, hdb⟩ := h
  exact hlost i hi (hdb.dcaRounds _ hmem howns)

end Zstrategy.Client
