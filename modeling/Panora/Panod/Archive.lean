/-
  Panora.Panod.Archive — the file a backup is written to.

  `build_archive` and `open_archive` (`crates/panora-core/src/backup.rs`): a magic, a version, a
  salt, and a tar of `entries.json` and `blobs/<hash>`, sealed under a key derived from the
  passphrase.  Argon2, the cipher, tar and serde_json are parameters (`Libraries`).

  Main result: `archive_round_trips` — an archive opens, under its passphrase, as what was packed.
-/
import Panora.Panod.RoundTrip

namespace Panora.Panod

open Storage Lib Lib.Fallible List

/-! ## §1. Writing and reading the file -/

/-- What an archive is made with; an error is the text the library gives. -/
structure Libraries where
  deriveKey : String → Bytes → Key
  sealBytes : Key → Bytes → Bytes → Bytes
  openBytes : Key → Bytes → Option Bytes
  writeTar : List (String × Bytes) → Bytes
  readTar : Bytes → Except String (List (String × Bytes))
  writeJson : List BackupEntry → Bytes
  readJson : Bytes → Except String (List BackupEntry)

section File

variable (L : Libraries) (env : Env) (passphrase : String) (salt nonce : Bytes)

def magic : Bytes := utf8 "PNRB"

def formatVersion : Byte := 1

def saltLen : Nat := 16

def headerLen : Nat := 4 + 1 + saltLen

/-- The files of the tar. -/
def Archive.files (archive : Archive) : List (String × Bytes) :=
  ("entries.json", L.writeJson archive.manifest)
    :: archive.blobs.map (fun blob => ("blobs/" ++ blob.1, blob.2))

/-- `build_archive`, with the salt and the nonce that are drawn. -/
def buildFile (records : List (BackupEntry × List MimePayload)) : Bytes :=
  magic ++ formatVersion :: (salt ++ L.sealBytes (L.deriveKey passphrase salt) nonce
    (L.writeTar ((buildArchive records).files L)))

/-- One file of the tar: the manifest, a blob, or nothing that is looked at. -/
def readFile (found : Option (List BackupEntry) × List (String × Bytes))
    (file : String × Bytes) : Except Error (Option (List BackupEntry) × List (String × Bytes)) :=
  if file.1 = "entries.json" then
    match L.readJson file.2 with
    | .ok manifest => .ok (some manifest, found.2)
    | .error e => .error (.storage e)
  else if "blobs/".toList.isPrefixOf file.1.toList then
    .ok (found.1, found.2 ++ [(String.ofList (file.1.toList.drop 6), file.2)])
  else .ok found

/-- `open_archive`. -/
def openFile (bytes : Bytes) : Except Error (List (BackupEntry × List MimePayload)) :=
  if bytes.length < headerLen ∨ bytes.take 4 ≠ magic then
    .error (.storage "not a Panora backup archive")
  else if bytes.getD 4 0 ≠ formatVersion then
    .error (.storage ("backup archive format version " ++ toString (bytes.getD 4 0).val
      ++ " is not supported by this build"))
  else
    match L.openBytes (L.deriveKey passphrase ((bytes.drop 5).take saltLen)) (bytes.drop headerLen) with
    | none => .error (.storage "wrong passphrase, or the archive is corrupt")
    | some tar =>
      match L.readTar tar with
      | .error e => .error (.storage ("reading the backup archive: " ++ e))
      | .ok files =>
        (files.foldlM (readFile L) (none, [])).bind fun (manifest, blobs) =>
          match manifest with
          | none => .error (.storage "backup archive has no entries.json")
          | some manifest => openArchive env ⟨manifest, blobs⟩

/-! ## §2. The round trip -/

/-- The libraries give back what goes into this archive. -/
structure Libraries.Faithful (key : Key) (archive : Archive) : Prop where
  opened : L.openBytes key (L.sealBytes key nonce (L.writeTar (archive.files L)))
    = some (L.writeTar (archive.files L))
  untarred : L.readTar (L.writeTar (archive.files L)) = .ok (archive.files L)
  parsed : L.readJson (L.writeJson archive.manifest) = .ok archive.manifest

/-- The blobs are read under their hashes. -/
theorem foldlM_readFile (blobs : List (String × Bytes)) :
    ∀ found, (blobs.map (fun blob => ("blobs/" ++ blob.1, blob.2))).foldlM (readFile L) found
      = .ok (found.1, found.2 ++ blobs) := by
  induction blobs with
  | nil => exact fun found => congrArg Except.ok (Prod.ext rfl (append_nil _).symm)
  | cons blob blobs ih =>
    intro found
    have hname : ("blobs/" ++ blob.1).toList = "blobs/".toList ++ blob.1.toList :=
      String.toList_append
    have hother : "blobs/" ++ blob.1 ≠ "entries.json" := by
      intro heq
      have hhead := congrArg (fun s => s.toList.head?) heq
      simp only [hname] at hhead
      exact absurd (show some 'b' = some 'e' from hhead) (by decide)
    have hstep : readFile L found ("blobs/" ++ blob.1, blob.2)
        = .ok (found.1, found.2 ++ [blob]) := by
      simp only [readFile, if_neg hother, hname]
      rw [if_pos (by rw [ isPrefixOf_iff_prefix]; exact prefix_append _ _),
        drop_left' (by decide), String.ofList_toList]
    rw [map_cons, foldlM_cons, hstep]
    refine (ih _).trans ?_
    rw [append_assoc]
    rfl

/-- **An archive opens as what was packed.** -/
theorem archive_round_trips {records : List (BackupEntry × List MimePayload)}
    (hsalt : salt.length = saltLen)
    (hlibraries : L.Faithful nonce (L.deriveKey passphrase salt) (buildArchive records))
    (hpacked : ∀ record ∈ records, Packed env record)
    (hnames : ∀ p ∈ records.flatMap Prod.snd, ∀ q ∈ records.flatMap Prod.snd,
      env.hash.contentHash p.data = env.hash.contentHash q.data → p.data = q.data) :
    openFile L env passphrase (buildFile L passphrase salt nonce records) = .ok records := by
  have hmagic : magic.length = 4 := by decide
  have hversion : ∀ rest : Bytes, (magic ++ formatVersion :: rest).getD 4 0 = formatVersion :=
    fun _ => rfl
  have hafter : ∀ rest : Bytes, (magic ++ formatVersion :: rest).drop 5 = rest := fun _ => rfl
  have hsealed : ∀ rest : Bytes, (magic ++ formatVersion :: (salt ++ rest)).drop headerLen = rest := by
    intro rest
    rw [show headerLen = 5 + saltLen from rfl, ← drop_drop, hafter, drop_left' hsalt]
  have hread : ((buildArchive records).files L).foldlM (readFile L) (none, [])
      = .ok (some (buildArchive records).manifest, (buildArchive records).blobs) := by
    have hfirst : readFile L (none, []) ("entries.json", L.writeJson (buildArchive records).manifest)
        = .ok (some (buildArchive records).manifest, []) := by
      simp only [readFile, if_true, hlibraries.parsed]
    rw [Archive.files, foldlM_cons, hfirst]
    exact foldlM_readFile L _ _
  unfold openFile buildFile
  rw [if_neg, hversion, if_neg (not_not.mpr rfl), hafter, take_left' hsalt, hsealed,
    hlibraries.opened]
  · simp only [hlibraries.untarred, hread]
    exact openArchive_buildArchive hpacked hnames
  · rw [not_or, not_not, not_lt]
    refine ⟨?_, rfl⟩
    simp only [length_append, length_cons, hmagic, hsalt, headerLen]
    omega

end File

namespace Sample

/-- Two entries that share a text. -/
def shared : List (BackupEntry × List MimePayload) :=
  ["one", "two"].map fun preview => (⟨"", preview, .text, "text/plain", 1, none, .clipboard, 0, 0,
    false, false, [("text/plain", hash.contentHash [97])]⟩, [⟨"text/plain", [97]⟩])

/-- Libraries that know these entries. -/
def libraries : Libraries where
  deriveKey passphrase salt := utf8 passphrase ++ salt
  sealBytes _ nonce data := nonce ++ data
  openBytes _ bytes := some (bytes.drop 2)
  writeTar files := files.flatMap Prod.snd
  readTar _ := .ok [("entries.json", [7]), ("blobs/" ++ hash.contentHash [97], [97])]
  writeJson _ := [7]
  readJson _ := .ok (shared.map Prod.fst)

theorem archive_round_trips_shared :
    openFile libraries env "secret"
      (buildFile libraries "secret" (List.replicate 16 0) [1, 2] shared) = .ok shared :=
  archive_round_trips libraries env "secret" (replicate 16 0) [1, 2] rfl
    ⟨rfl, by decide +kernel, rfl⟩ (by unfold Packed; decide +kernel) (by decide +kernel)

end Sample

end Panora.Panod
