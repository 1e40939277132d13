/-
  Panora.Storage.Rekey — resealing under another key, and the panic wipe.

  `Database::rekey`, `Database::wipe`, `BlobStore::rekey` and `BlobStore::wipe`.
  The database is resealed in one transaction; blob files are replaced one after
  the other.  Either can be run again: what is already under the new key opens
  under it.

  Main results:
    * `get_resealNamed` — what is resealed opens under the new key;
    * `wipe_ok` — a wipe of the blob directory leaves no blob.
-/
import Panora.Storage.Blobs
import Panora.Storage.Database

namespace Panora.Storage

open Lib Lib.Keyed List

variable {α : Type}

variable (s : BlobStore) (db : Database)

/-! ## §1. Resealing -/

/-- What an envelope holds, opened under the old key or the new one, in either
    format. -/
def reopen (old new : Key) (aad : String) (e : Envelope α) : Option α :=
  (openStored old aad e).or (openStored new aad e)

/-- The envelope under the new key. -/
def reseal (old new : Key) (aad : String) (e : Envelope α) : Option (Envelope α) :=
  (reopen old new aad e).map (sealWithAad new aad)

variable {old new : Key} {e : Envelope α} {plain : α}

/-- An envelope that opens under one of the two keys can be resealed. -/
theorem reseal_eq_some {aad : String} (h : reopen old new aad e = some plain) :
    reseal old new aad e = some (sealWithAad new aad plain) := by
  rw [reseal, h]
  rfl

/-- What opens under the old key keeps what it holds. -/
theorem reopen_of_old {aad : String}
    (h : openStored old aad e = some plain) : reopen old new aad e = some plain := by
  rw [reopen, h]
  rfl

/-- What is under the new key already can be opened again. -/
theorem reopen_of_new {aad : String}
    (h : openStored new aad e = some plain) : ∃ plain', reopen old new aad e = some plain' := by
  rw [reopen, h]
  cases openStored old aad e with
  | none => exact ⟨plain, rfl⟩
  | some plain' => exact ⟨plain', rfl⟩

section Envelopes

variable {α : Type} {key old new : Key} {aad : String} {e : Envelope α} {plain : α}

theorem plain_of_openWithAad (h : openWithAad key aad e = some plain) : e.plain = plain := by
  cases e with
  | versioned k a p =>
    have h : (if k = key ∧ a = aad then some p else none) = some plain := h
    split at h
    · exact Option.some.inj h
    · cases h
  | legacy k p =>
    have h : (if aad ≠ "" then none else if k = key then some p else none) = some plain := h
    split at h
    · cases h
    · split at h
      · exact Option.some.inj h
      · cases h

/-- What an envelope opens to is what is in it. -/
theorem plain_of_openStored (h : openStored key aad e = some plain) : e.plain = plain := by
  rcases Option.or_eq_some_iff.mp h with h | ⟨-, h⟩
  · exact plain_of_openWithAad h
  · exact plain_of_openWithAad h

theorem plain_of_reopen (h : reopen old new aad e = some plain) : e.plain = plain := by
  rcases Option.or_eq_some_iff.mp h with h | ⟨-, h⟩
  · exact plain_of_openStored h
  · exact plain_of_openStored h

/-- Resealing keeps what is in an envelope. -/
theorem reseal_of_reopen (h : (reopen old new aad e).isSome = true) :
    reseal old new aad e = some (sealWithAad new aad e.plain) := by
  obtain ⟨plain, hplain⟩ := Option.isSome_iff_exists.mp h
  rw [reseal_eq_some hplain, plain_of_reopen hplain]

end Envelopes

/-! ## §2. The database -/

namespace Database

/-- The columns of a row whose preview is resealed. -/
def resealedCols (old new : Key) (r : EntryRow) : Cols :=
  match reseal old new (previewAad r.key.contentHash) r.cols.preview with
  | some preview => { r.cols with preview := preview }
  | none => r.cols

/-- Whether every preview opens under one of the two keys. -/
def Resealable (old new : Key) (db : Database) : Prop :=
  ∀ r ∈ db.entries.rows,
    (reopen old new (previewAad r.key.contentHash) r.cols.preview).isSome = true

instance (old new : Key) (db : Database) : Decidable (db.Resealable old new) :=
  inferInstanceAs (Decidable (∀ r ∈ db.entries.rows, _))

/-- Reseal every preview and bind the file to the new key, in one transaction. -/
def rekey (h : Hash) (old new : Key) : Except Error Database :=
  if db.Resealable old new then
    .ok { db with
      entries := db.entries.mapCols (resealedCols old new)
      keyFingerprint := some (h.fingerprint new) }
  else .error .crypto

/-- Hard-delete every entry, blob reference and search-index row.  The counters
    stay. -/
def wipe : Database :=
  { db with
    entries := Table.empty
    entryBlobs := []
    entriesFts := []
    rotationState := none }

/-- Where a key rotation stands. -/
def setRotationState (state : Option String) : Database :=
  { db with rotationState := state }

/-- A wiped database can always be resealed. -/
theorem resealable_wipe (old new : Key) : db.wipe.Resealable old new := by
  intro r hr
  exact absurd hr (by simp [wipe, Table.empty])

end Database

/-! ## §3. The blob directory -/

namespace BlobStore

/-- Put another file in the place of one with the same name. -/
def replace (f : BlobFile) : BlobStore where
  files := s.files.map (fun g => if g.name = f.name then f else g)
  namesNodup := by
    rw [map_map]
    -- every name stays where it was
    have hnames : s.files.map (BlobFile.name ∘ fun g => if g.name = f.name then f else g)
        = s.files.map BlobFile.name := by
      refine map_congr_left (fun g _ => ?_)
      show (if g.name = f.name then f else g).name = g.name
      by_cases h : g.name = f.name
      · rw [if_pos h, h]
      · rw [if_neg h]
    rw [hnames]
    exact s.namesNodup

/-- Reseal one file. -/
def rekeyFile (old new : Key) (name : String) : Except Error BlobStore :=
  match s.file name with
  | none => .error .io
  | some f =>
    match reseal old new (aad name) f.content with
    | none => .error .crypto
    | some content => .ok (s.replace ⟨name, content⟩)

/-- The names `list` finds: files that are named by a hash. -/
def list : List String := (s.files.map BlobFile.name).filter validHash

/-- Delete every blob file. -/
def wipe : Except Error BlobStore := s.list.foldlM remove s

theorem remove_ok {s : BlobStore} {name : String} (h : validHash name = true) :
    ∃ s', s.remove name = .ok s' ∧ s'.files = s.files.filter (fun f => f.name ≠ name) := by
  unfold remove
  rw [if_neg (by simp [h])]
  exact ⟨_, rfl, rfl⟩

/-- **A wipe leaves no blob.** -/
theorem wipe_ok :
    ∃ s', s.wipe = .ok s' ∧ s'.files = s.files.filter (fun f => !validHash f.name) := by
  -- the files that are left after some names were removed
  have hrun : ∀ (names : List String) (t : BlobStore), (∀ n ∈ names, validHash n = true) →
      ∃ t', names.foldlM remove t = .ok t' ∧
        t'.files = t.files.filter (fun f => f.name ∉ names) := by
    intro names
    induction names with
    | nil =>
      intro t _
      exact ⟨t, rfl, by simp⟩
    | cons name names ih =>
      intro t hvalid
      obtain ⟨hname, hnames⟩ := forall_mem_cons.mp hvalid
      obtain ⟨t1, hremove, hfiles⟩ := remove_ok (s := t) hname
      obtain ⟨t', hrun, hfiles'⟩ := ih t1 hnames
      refine ⟨t', ?_, ?_⟩
      · rw [foldlM_cons, hremove]
        exact hrun
      · rw [hfiles', hfiles, filter_filter]
        refine filter_congr (fun f _ => ?_)
        simp [Bool.and_comm]
  obtain ⟨s', hwipe, hfiles⟩ := hrun s.list s (fun n hn => (mem_filter.mp hn).2)
  refine ⟨s', hwipe, hfiles.trans (filter_congr (fun f hf => ?_))⟩
  have hlisted : f.name ∈ s.list ↔ validHash f.name = true := by
    unfold list
    rw [mem_filter]
    exact ⟨fun h => h.2, fun h => ⟨mem_map_of_mem hf, h⟩⟩
  simp [hlisted]

/-! ## §4. Resealed files -/

/-- A file with its content under the new key. -/
def resealFile (new : Key) (f : BlobFile) : BlobFile :=
  ⟨f.name, sealWithAad new (aad f.name) f.content.plain⟩

/-- A file, resealed if it is one of these. -/
def resealIn (new : Key) (names : List String) (f : BlobFile) : BlobFile :=
  if f.name ∈ names then resealFile new f else f

theorem resealIn_name (new : Key) (names : List String) (f : BlobFile) :
    (resealIn new names f).name = f.name := by
  unfold resealIn
  split
  · rfl
  · rfl

/-- The directory with these files resealed. -/
def resealNamed (new : Key) (names : List String) : BlobStore where
  files := s.files.map (resealIn new names)
  namesNodup := by
    rw [map_map, show BlobFile.name ∘ resealIn new names = BlobFile.name from
      funext (resealIn_name new names)]
    exact s.namesNodup

/-- Every file is named by a hash and opens under one of the two keys. -/
def Opens (old new : Key) (s : BlobStore) : Prop :=
  ∀ f ∈ s.files, validHash f.name = true ∧
    (reopen old new (aad f.name) f.content).isSome = true

instance (old new : Key) (s : BlobStore) : Decidable (s.Opens old new) :=
  inferInstanceAs (Decidable (∀ f ∈ s.files, _))

variable {s : BlobStore} {old new : Key}

/-- A resealed file opens under the new key. -/
theorem reopen_resealFile (old new : Key) (f : BlobFile) :
    (reopen old new (aad f.name) (resealFile new f).content).isSome = true := by
  have hopens : ∃ plain, reopen old new (aad f.name) (resealFile new f).content = some plain :=
    reopen_of_new (openStored_seal new (aad f.name) f.content.plain)
  exact Option.isSome_iff_exists.mpr hopens

theorem opens_resealNamed (h : s.Opens old new) (names : List String) :
    (s.resealNamed new names).Opens old new := by
  intro f hf
  obtain ⟨g, hg, rfl⟩ := mem_map.mp hf
  unfold resealIn
  split
  · exact ⟨(h g hg).1, reopen_resealFile old new g⟩
  · exact h g hg

/-- Resealing no file changes nothing. -/
theorem resealNamed_nil (s : BlobStore) (new : Key) : s.resealNamed new [] = s := by
  apply ext
  show s.files.map _ = s.files
  rw [show resealIn new [] = id from funext fun f => if_neg (by simp), map_id]

/-- The names of resealed files stay. -/
theorem names_resealNamed (s : BlobStore) (new : Key) (names : List String) :
    (s.resealNamed new names).files.map BlobFile.name = s.files.map BlobFile.name := by
  show (s.files.map (resealIn new names)).map BlobFile.name = _
  rw [map_map, show BlobFile.name ∘ resealIn new names = BlobFile.name from
    funext (resealIn_name new names)]

/-- Resealing some files and then others reseals them all. -/
theorem resealNamed_append (s : BlobStore) (new : Key) (names names' : List String) :
    (s.resealNamed new names).resealNamed new names' = s.resealNamed new (names ++ names') := by
  apply ext
  show (s.files.map _).map _ = s.files.map _
  rw [map_map]
  refine map_congr_left fun f _ => ?_
  show resealIn new names' (resealIn new names f) = resealIn new (names ++ names') f
  by_cases hfirst : f.name ∈ names
  · rw [show resealIn new names f = resealFile new f from if_pos hfirst,
      show resealIn new (names ++ names') f = resealFile new f from
        if_pos (mem_append_left _ hfirst)]
    unfold resealIn
    split
    · rfl
    · rfl
  · rw [show resealIn new names f = f from if_neg hfirst]
    unfold resealIn
    simp only [mem_append, hfirst, false_or]

variable {f : BlobFile}

theorem file_of_mem (h : f ∈ s.files) : s.file f.name = some f :=
  (lookup_eq_some s.namesNodup).mpr ⟨h, rfl⟩

/-- **Resealing one file** replaces it by one with the same content. -/
theorem rekeyFile_ok (h : s.Opens old new) (hf : f ∈ s.files) :
    s.rekeyFile old new f.name = .ok (s.resealNamed new [f.name]) := by
  unfold rekeyFile
  rw [file_of_mem hf]
  dsimp only
  rw [reseal_of_reopen (h f hf).2]
  refine congrArg Except.ok (ext ?_)
  refine map_congr_left fun g hg => ?_
  unfold resealIn
  by_cases hname : g.name = f.name
  · have hgf : g = f := Option.some.inj ((file_of_mem hg).symm.trans (hname ▸ file_of_mem hf))
    rw [if_pos hname, if_pos (by simp [hname]), hgf]
    rfl
  · rw [if_neg hname, if_neg (by simpa using hname)]

/-- Every name a directory that opens lists is that of a file, and the other way round. -/
theorem list_of_opens (h : s.Opens old new) : s.list = s.files.map BlobFile.name := by
  refine filter_eq_self.mpr fun name hname => ?_
  obtain ⟨f, hf, rfl⟩ := mem_map.mp hname
  exact (h f hf).1

/-- What is resealed is read back under the new key. -/
theorem get_resealNamed (h : s.Opens old new) (hf : f ∈ s.files)
    {names : List String} (hnames : f.name ∈ names) :
    (s.resealNamed new names).get new f.name = .ok f.content.plain := by
  have hfile : (s.resealNamed new names).file f.name = some (resealFile new f) := by
    have hmem : resealFile new f ∈ (s.resealNamed new names).files :=
      mem_map.mpr ⟨f, hf, if_pos hnames⟩
    exact file_of_mem hmem
  unfold get
  rw [if_neg (by simp [(h f hf).1]), hfile]
  simp [resealFile, openWithAad, sealWithAad]

end BlobStore

end Panora.Storage
