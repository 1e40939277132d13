/-
  Panora.Storage.Blobs — the encrypted blob store.

  `crates/panora-core/src/storage/blob.rs`: one file for each content, named by
  the hash of what is in it and sealed under a context that names the hash.  No
  two files have one name; that is a field of the store.
-/
import Panora.Lib.Keyed
import Panora.Storage.Cipher

namespace Panora.Storage

open Lib.Keyed List

/-- A file of the blob directory. -/
structure BlobFile where
  name : String
  content : Envelope Bytes
  deriving DecidableEq, Repr

/-- The blob directory. -/
structure BlobStore where
  files : List BlobFile
  namesNodup : (files.map BlobFile.name).Nodup

namespace BlobStore

@[ext] theorem ext {s t : BlobStore} (h : s.files = t.files) : s = t := by
  obtain ⟨files, _⟩ := s
  obtain ⟨files', _⟩ := t
  have h : files = files' := h
  subst h
  rfl

instance : DecidableEq BlobStore := fun s t =>
  decidable_of_iff (s.files = t.files) ⟨ext, fun h => h ▸ rfl⟩

/-- The directory of a new history. -/
def empty : BlobStore := ⟨[], nodup_nil⟩

/-- What binds a blob to its name. -/
def aad (hash : String) : String := "panora/blob/v1/" ++ hash

/-- The file with this name. -/
def file (s : BlobStore) (name : String) : Option BlobFile := lookup BlobFile.name s.files name

/-- Write a file that is not there. -/
def create (s : BlobStore) (f : BlobFile) (h : s.file f.name = none) : BlobStore where
  files := s.files ++ [f]
  namesNodup := by
    rw [map_append, nodup_append]
    refine ⟨s.namesNodup, by simp, ?_⟩
    intro a ha b hb
    obtain ⟨g, hg, rfl⟩ := mem_map.mp ha
    rw [show b = f.name by simpa using hb]
    exact lookup_eq_none.mp h g hg

/-- A name that is not a hash is refused. -/
def invalidName : Error := .config "invalid blob content hash"

/-- Store plaintext; returns the content hash.  Nothing is written when the
    content is already there. -/
def put (s : BlobStore) (h : Hash) (cipher : Key) (plaintext : Bytes) :
    Except Error (String × BlobStore) :=
  let hash := h.contentHash plaintext
  if validHash hash = false then .error invalidName
  else match hfile : s.file hash with
    | some _ => .ok (hash, s)
    | none => .ok (hash, s.create ⟨hash, sealWithAad cipher (aad hash) plaintext⟩ hfile)

/-- Read and decrypt a blob.  A file of the format before versions opens without
    its context; a versioned one does not. -/
def get (s : BlobStore) (cipher : Key) (hash : String) : Except Error Bytes :=
  if validHash hash = false then .error invalidName
  else match s.file hash with
    | none => .error .io
    | some f =>
      match openWithAad cipher (aad hash) f.content, f.content with
      | some plaintext, _ => .ok plaintext
      | none, .legacy _ _ =>
        match openPlain cipher f.content with
        | some plaintext => .ok plaintext
        | none => .error .crypto
      | none, .versioned _ _ _ => .error .crypto

/-- Delete a blob; one that is not there is no error. -/
def remove (s : BlobStore) (hash : String) : Except Error BlobStore :=
  if validHash hash = false then .error invalidName
  else .ok
    { files := s.files.filter (fun f => f.name ≠ hash)
      namesNodup := s.namesNodup.sublist (filter_sublist.map BlobFile.name) }

/-- `remove`, where a failure is only logged. -/
def removeOrWarn (s : BlobStore) (hash : String) : BlobStore :=
  match s.remove hash with
  | .ok s => s
  | .error _ => s

/-! ## What a write does to a file -/

variable {s s' : BlobStore} {name : String}

theorem file_create {f : BlobFile} (h : s.file f.name = none) :
    (s.create f h).file name = if name = f.name then some f else s.file name := by
  show ((s.files ++ [f]).find? (fun g => g.name == name)) = _
  rw [find?_append]
  by_cases hname : name = f.name
  · -- no file had this name before
    subst hname
    have hnone : s.files.find? (fun g => g.name == f.name) = none := h
    rw [if_pos rfl, hnone]
    simp
  · rw [if_neg hname]
    have hlast : [f].find? (fun g => g.name == name) = none := by
      simp [Ne.symm hname]
    rw [hlast, Option.or_none]
    rfl

/-- Reading a blob looks at the file of that name alone. -/
theorem get_congr (cipher : Key) (h : s'.file name = s.file name) :
    s'.get cipher name = s.get cipher name := by
  unfold get
  rw [h]

/-- What is read is in a file. -/
theorem file_of_get {cipher : Key} {data : Bytes} (h : s.get cipher name = .ok data) :
    ∃ f, s.file name = some f := by
  unfold get at h
  split at h
  next => cases h
  next =>
    split at h
    next => cases h
    next f hf => exact ⟨f, hf⟩

theorem file_removeOrWarn (s : BlobStore) {hash : String} (h : name ≠ hash) :
    (s.removeOrWarn hash).file name = s.file name := by
  unfold removeOrWarn remove
  split
  next t ht =>
    split at ht
    · cases ht
    · cases ht
      show ((s.files.filter _).find? _) = _
      rw [find?_filter]
      refine congrArg (fun p => s.files.find? p) (funext fun g => ?_)
      by_cases hg : g.name = name
      · simp [hg, h]
      · simp [hg]
  next => rfl

theorem file_removeAll {refs : List String} (h : name ∉ refs) :
    ∀ s : BlobStore, (refs.foldl removeOrWarn s).file name = s.file name := by
  induction refs with
  | nil => exact fun s => rfl
  | cons ref refs ih =>
    intro s
    rw [mem_cons, not_or] at h
    obtain ⟨hne, hrefs⟩ := h
    rw [foldl_cons, ih hrefs, file_removeOrWarn s hne]

/-- A file that is left was there before. -/
theorem file_of_removeAll (refs : List String) : ∀ (s : BlobStore) {f : BlobFile},
    f ∈ (refs.foldl removeOrWarn s).files → f ∈ s.files ∧
      (refs.foldl removeOrWarn s).file f.name = s.file f.name := by
  intro s f hf
  have hsub : ∀ (refs : List String) (s : BlobStore),
      (refs.foldl removeOrWarn s).files ⊆ s.files := by
    intro refs
    induction refs with
    | nil => exact fun s => Subset.refl _
    | cons ref refs ih =>
      intro s
      refine Subset.trans (ih (s.removeOrWarn ref)) ?_
      unfold removeOrWarn remove
      split
      next t ht =>
        split at ht
        · cases ht
        · cases ht
          exact filter_sublist.subset
      next => exact Subset.refl _
  have hmem := hsub refs s hf
  refine ⟨hmem, ?_⟩
  -- both look-ups find this very file
  rw [file, file, (lookup_eq_some (refs.foldl removeOrWarn s).namesNodup).mpr ⟨hf, rfl⟩,
    (lookup_eq_some s.namesNodup).mpr ⟨hmem, rfl⟩]

/-! ## What `put` does -/

/-- Content is put where it already is, or into a file of its own that opens. -/
theorem put_cases {h : Hash} {cipher : Key} {plaintext : Bytes} {ref : String}
    (hput : s.put h cipher plaintext = .ok (ref, s')) :
    ref = h.contentHash plaintext ∧ (∀ name f, s.file name = some f → s'.file name = some f) ∧
      (s'.file ref).isSome = true ∧
      ∀ f ∈ s'.files, f ∈ s.files ∨
        (f.name = ref ∧ s'.get cipher ref = .ok plaintext) := by
  have hvalid : validHash (h.contentHash plaintext) = true := h.contentHash_valid plaintext
  unfold put at hput
  rw [if_neg (by simp [hvalid])] at hput
  split at hput
  next f hf =>
    cases hput
    exact ⟨rfl, fun _ _ hfile => hfile, by rw [hf]; rfl, fun f hmem => Or.inl hmem⟩
  next hnone =>
    cases hput
    refine ⟨rfl, ?_, ?_, ?_⟩
    · intro name f hfile
      rw [file_create]
      by_cases hname : name = h.contentHash plaintext
      · rw [hname, hnone] at hfile
        cases hfile
      · rw [if_neg hname, hfile]
    · rw [file_create, if_pos rfl]
      rfl
    · intro f hf
      rcases mem_append.mp hf with hf | hf
      · exact Or.inl hf
      · rw [mem_singleton.mp hf]
        refine Or.inr ⟨rfl, ?_⟩
        unfold get
        rw [if_neg (by simp [hvalid]), file_create, if_pos rfl]
        simp [openWithAad, sealWithAad]

/-- Putting content never fails and returns its hash. -/
theorem put_ok (s : BlobStore) (h : Hash) (cipher : Key) (plaintext : Bytes) :
    ∃ s', s.put h cipher plaintext = .ok (h.contentHash plaintext, s') := by
  have hvalid : ¬ validHash (h.contentHash plaintext) = false := by
    rw [h.contentHash_valid]
    simp
  unfold put
  rw [if_neg hvalid]
  split
  next f hf => exact ⟨s, rfl⟩
  next hf => exact ⟨_, rfl⟩

end BlobStore

end Panora.Storage
