/-
  Panora.Storage.BlobMap — the blob store as a map from hashes to contents.

  `crates/panora-core/src/storage/blob.rs`, over whole runs of calls: an open store is the
  directory and the cipher in memory; `put` and `remove` can meet an error of the file
  system, `rekey` one while it lists the directory or at any of its files.  What is due is
  what was put and not removed since.

  `rekey` replaces file after file and takes the new cipher only at its end.  Where it stops
  in between, the files it replaced do not open under the cipher in memory any more, and
  `put` leaves them as they are.

  Main results:
    * `rekeyFiles_eq` — what resealing leaves, wherever it stops;
    * `blob_store_is_map_iff` — which runs keep every content that is due;
    * `rekey_resumes` — what resealing leaves of any mix of keys and formats.
-/
import Panora.Lib.Trace
import Panora.Storage.Rekey

namespace Panora.Storage

open Lib Lib.Keyed Storage.Database List

/-! ## §1. Calls that can fail -/

/-- The order in which the directory lists its files. -/
structure DirOrder where
  order : List String → List String
  perm : ∀ names, (order names).Perm names

/-- Where `rekey` meets an error of the file system. -/
inductive RekeyFault where
  | none
  /-- While the directory is listed. -/
  | listing
  /-- At the file with this index, which is then left as it is. -/
  | file (index : Nat)

/-- An open store: the directory, and the cipher in memory. -/
structure OpenStore where
  blobs : BlobStore
  cipher : Key

namespace BlobStore

/-- Reseal these files in turn, up to the one with index `stop`. -/
def rekeyFiles (old new : Key) :
    List String → Option Nat → BlobStore → Except Error Unit × BlobStore
  | [], _, s => (.ok (), s)
  | name :: names, stop, s =>
    if stop = some 0 then (.error .io, s)
    else match s.rekeyFile old new name with
      | .error e => (.error e, s)
      | .ok s' => rekeyFiles old new names (stop.map Nat.pred) s'

end BlobStore

namespace OpenStore

variable (h : Hash)

/-- Store plaintext.  With a fault, writing the file fails; where there is one already,
    nothing is written. -/
def put (s : OpenStore) (plaintext : Bytes) (fault : Bool) : Except Error String × OpenStore :=
  if fault && (s.blobs.file (h.contentHash plaintext)).isNone then (.error .io, s)
  else match s.blobs.put h s.cipher plaintext with
    | .error e => (.error e, s)
    | .ok (hash, blobs) => (.ok hash, { s with blobs := blobs })

/-- Read and decrypt a blob. -/
def get (s : OpenStore) (hash : String) : Except Error Bytes := s.blobs.get s.cipher hash

/-- Delete a blob.  With a fault, a file that is there stays. -/
def remove (s : OpenStore) (hash : String) (fault : Bool) : Except Error Unit × OpenStore :=
  if fault && (s.blobs.file hash).isSome then (.error .io, s)
  else match s.blobs.remove hash with
    | .error e => (.error e, s)
    | .ok blobs => (.ok (), { s with blobs := blobs })

/-- Re-seal every blob under `new`, then start using it. -/
def rekey (s : OpenStore) (new : Key) (dir : DirOrder) (fault : RekeyFault) :
    Except Error Unit × OpenStore :=
  let stop : Option Nat := match fault with
    | .file index => some index
    | _ => none
  match fault with
  | .listing => (.error .io, s)
  | _ =>
    match BlobStore.rekeyFiles s.cipher new (dir.order s.blobs.list) stop s.blobs with
    | (.error e, blobs) => (.error e, { s with blobs := blobs })
    | (.ok (), blobs) => (.ok (), { blobs := blobs, cipher := new })

end OpenStore

/-! ## §2. Runs of calls -/

/-- A call, and what goes wrong in it. -/
inductive BlobCall where
  | put (content : Bytes) (fault : Bool)
  | get (hash : String)
  | remove (hash : String) (fault : Bool)
  | rekey (new : Key) (dir : DirOrder) (fault : RekeyFault)

/-- The contents a call puts. -/
def BlobCall.puts : BlobCall → List Bytes
  | .put content _ => [content]
  | _ => []

/-- An open store and what is due: the contents whose last `put` returned `Ok` and whose
    hash was not removed since. -/
structure Tracked extends OpenStore where
  due : List Bytes

namespace Tracked

variable (h : Hash)

/-- A new store. -/
def start (key : Key) : Tracked := { blobs := BlobStore.empty, cipher := key, due := [] }

/-- One call. -/
def step (s : Tracked) : BlobCall → Tracked
  | .put content fault =>
    match s.toOpenStore.put h content fault with
    | (.ok _, store) => { toOpenStore := store, due := content :: s.due }
    | (.error _, store) => { toOpenStore := store, due := s.due }
  | .get _ => s
  | .remove hash fault =>
    match s.toOpenStore.remove hash fault with
    | (.ok _, store) =>
      { toOpenStore := store, due := s.due.filter (fun x => h.contentHash x ≠ hash) }
    | (.error _, store) => { toOpenStore := store, due := s.due }
  | .rekey new dir fault => { toOpenStore := (s.toOpenStore.rekey new dir fault).2, due := s.due }

/-- Every content that is due is read back. -/
def AllLoad (s : Tracked) : Prop :=
  ∀ x ∈ s.due, s.toOpenStore.get (h.contentHash x) = .ok x

/-- A `rekey` to another key that stops after at least one file and before the last. -/
def StopsMidway (s : Tracked) : BlobCall → Prop
  | .rekey new _ (.file index) => new ≠ s.cipher ∧ 0 < index ∧ index < s.blobs.list.length
  | _ => False

end Tracked

/-! ## §3. What resealing leaves -/

namespace BlobStore

/-- The files resealed before the stop. -/
def resealedBefore (names : List String) : Option Nat → List String
  | none => names
  | some index => names.take index

/-- Whether the stop comes before the end. -/
def stopsIn (names : List String) : Option Nat → Bool
  | none => false
  | some index => decide (index < names.length)

/-- **What resealing leaves, wherever it stops**: the files before the stop are under the
    new key, the others as they were. -/
theorem rekeyFiles_eq {old new : Key} (names : List String) :
    ∀ (stop : Option Nat) (s : BlobStore), s.Opens old new →
      (∀ n ∈ names, n ∈ s.files.map BlobFile.name) →
      rekeyFiles old new names stop s
        = (if stopsIn names stop then .error .io else .ok (),
            s.resealNamed new (resealedBefore names stop)) := by
  induction names with
  | nil =>
    intro stop s _ _
    have hnone : resealedBefore [] stop = [] := by
      cases stop with
      | none => rfl
      | some index => exact take_nil
    have hend : stopsIn [] stop = false := by
      cases stop with
      | none => rfl
      | some index => exact decide_eq_false (Nat.not_lt_zero index)
    rw [hnone, hend, resealNamed_nil]
    rfl
  | cons name names ih =>
    intro stop s hopens hnames
    obtain ⟨hname, hrest⟩ := forall_mem_cons.mp hnames
    obtain ⟨f, hf, rfl⟩ := mem_map.mp hname
    unfold rekeyFiles
    by_cases hstop : stop = some 0
    · -- the stop is at this file
      rw [if_pos hstop, hstop]
      show _ = (_, s.resealNamed new [])
      rw [resealNamed_nil]
      rfl
    · rw [if_neg hstop, rekeyFile_ok hopens hf]
      dsimp only
      have hnext : ∀ n ∈ names, n ∈ (s.resealNamed new [f.name]).files.map BlobFile.name := by
        rw [names_resealNamed]
        exact hrest
      rw [ih _ _ (opens_resealNamed hopens [f.name]) hnext, resealNamed_append]
      cases stop with
      | none => rfl
      | some index =>
        cases index with
        | zero => exact absurd rfl hstop
        | succ index => simp [stopsIn, resealedBefore]

end BlobStore

/-! ## §4. What is due -/

namespace OpenStore

/-- What `put` does: nothing and an error; nothing, where there is a file already; or a file
    of its own under the cipher in memory. -/
theorem put_cases (s : OpenStore) (h : Hash) (x : Bytes) (fault : Bool) :
    (∃ e, s.put h x fault = (.error e, s)) ∨
      (∃ f ∈ s.blobs.files, f.name = h.contentHash x
        ∧ s.put h x fault = (.ok (h.contentHash x), s)) ∨
      ∃ blobs : BlobStore, blobs.files = s.blobs.files
          ++ [⟨h.contentHash x, sealWithAad s.cipher (BlobStore.aad (h.contentHash x)) x⟩]
        ∧ s.put h x fault = (.ok (h.contentHash x), { s with blobs := blobs }) := by
  have hvalid : ¬ validHash (h.contentHash x) = false := by simp [h.contentHash_valid]
  unfold put
  by_cases hfault : (fault && (s.blobs.file (h.contentHash x)).isNone) = true
  · rw [if_pos hfault]
    exact .inl ⟨_, rfl⟩
  · rw [if_neg hfault]
    right
    unfold BlobStore.put
    rw [if_neg hvalid]
    split
    next hash blobs hput =>
      split at hput
      next => cases hput
      next => cases hput
    next hash blobs hput =>
      split at hput
      next f hfile =>
        cases hput
        obtain ⟨hmem, hname⟩ := mem_of_lookup hfile
        exact .inl ⟨f, hmem, hname, rfl⟩
      next hfile =>
        cases hput
        exact .inr ⟨_, rfl, rfl⟩

/-- What `remove` does: nothing and an error, or there is no such file any more. -/
theorem remove_cases (s : OpenStore) (hash : String) (fault : Bool) :
    (∃ e, s.remove hash fault = (.error e, s)) ∨
      ∃ blobs : BlobStore, blobs.files = s.blobs.files.filter (fun f => f.name ≠ hash)
        ∧ s.remove hash fault = (.ok (), { s with blobs := blobs }) := by
  unfold remove
  by_cases hfault : (fault && (s.blobs.file hash).isSome) = true
  · rw [if_pos hfault]
    exact .inl ⟨_, rfl⟩
  · rw [if_neg hfault]
    unfold BlobStore.remove
    by_cases hvalid : validHash hash = false
    · rw [if_pos hvalid]
      exact .inl ⟨_, rfl⟩
    · rw [if_neg hvalid]
      exact .inr ⟨_, rfl, rfl⟩

end OpenStore

namespace Tracked

variable {h : Hash}

/-- Files and what is due correspond: each file is that of a due content, sealed under some
    key, and each due content has a file.  `pool` is all that is ever put. -/
structure Consistent (h : Hash) (pool : List Bytes) (s : Tracked) : Prop where
  pooled : ∀ x ∈ s.due, x ∈ pool
  files : ∀ f ∈ s.blobs.files, ∃ x ∈ s.due, ∃ key,
    f = ⟨h.contentHash x, .versioned key (BlobStore.aad (h.contentHash x)) x⟩
  present : ∀ x ∈ s.due, ∃ f ∈ s.blobs.files, f.name = h.contentHash x

/-- Every file is sealed under the cipher in memory. -/
def UnderCipher (s : Tracked) : Prop :=
  ∀ f ∈ s.blobs.files, f.content.sealedUnder = s.cipher

variable {pool : List Bytes} {s : Tracked}

/-- What is read of a file sealed under `key`. -/
theorem get_sealed {key : Key} {x : Bytes}
    (hf : ⟨h.contentHash x, .versioned key (BlobStore.aad (h.contentHash x)) x⟩ ∈ s.blobs.files) :
    s.toOpenStore.get (h.contentHash x) = if key = s.cipher then .ok x else .error .crypto := by
  unfold OpenStore.get BlobStore.get
  rw [if_neg (by simp [h.contentHash_valid])]
  have hfile : s.blobs.file (h.contentHash x)
      = some ⟨h.contentHash x, .versioned key (BlobStore.aad (h.contentHash x)) x⟩ :=
    BlobStore.file_of_mem hf
  rw [hfile]
  dsimp only [openWithAad]
  by_cases hkey : key = s.cipher
  · simp [hkey]
  · simp [hkey]

/-- **What is due loads exactly where every file is under the cipher in memory.** -/
theorem Consistent.allLoad_iff (hc : s.Consistent h pool)
    (hideal : Set.InjOn h.contentHash {x | x ∈ pool}) : s.AllLoad h ↔ s.UnderCipher := by
  constructor
  · intro hload f hf
    obtain ⟨x, hx, key, rfl⟩ := hc.files f hf
    have hget := hload x hx
    rw [get_sealed hf] at hget
    by_contra hne
    have hkey : key ≠ s.cipher := hne
    rw [if_neg hkey] at hget
    cases hget
  · intro hunder x hx
    obtain ⟨f, hf, hname⟩ := hc.present x hx
    obtain ⟨y, hy, key, rfl⟩ := hc.files f hf
    have hyx : y = x := hideal (hc.pooled y hy) (hc.pooled x hx) hname
    have hkey : key = s.cipher := hunder _ hf
    rw [← hyx, get_sealed hf, if_pos hkey]

/-- A store whose files are all under the cipher in memory opens. -/
theorem Consistent.opens (hc : s.Consistent h pool) (hunder : s.UnderCipher) (new : Key) :
    s.blobs.Opens s.cipher new := by
  intro f hf
  have hkey := hunder f hf
  obtain ⟨x, -, key, rfl⟩ := hc.files f hf
  refine ⟨h.contentHash_valid x, ?_⟩
  have hopen : openStored s.cipher (BlobStore.aad (h.contentHash x))
      (.versioned key (BlobStore.aad (h.contentHash x)) x) = some x := by
    rw [← show key = s.cipher from hkey]
    exact openStored_seal key _ x
  rw [reopen_of_old hopen]
  rfl

/-- Resealing some files keeps the correspondence. -/
theorem Consistent.resealNamed (hc : s.Consistent h pool) (new cipher : Key)
    (names : List String) : Consistent h pool
      { blobs := s.blobs.resealNamed new names, cipher := cipher, due := s.due } where
  pooled := hc.pooled
  files f hf := by
    obtain ⟨g, hg, rfl⟩ := mem_map.mp hf
    obtain ⟨x, hx, key, rfl⟩ := hc.files g hg
    unfold BlobStore.resealIn
    split
    · exact ⟨x, hx, new, rfl⟩
    · exact ⟨x, hx, key, rfl⟩
  present x hx := by
    obtain ⟨f, hf, hname⟩ := hc.present x hx
    exact ⟨_, mem_map_of_mem hf, (BlobStore.resealIn_name new names f).trans hname⟩

/-! ## §5. What one call keeps -/

/-- The files of a consistent store are all listed. -/
theorem Consistent.list_eq (hc : s.Consistent h pool) (hunder : s.UnderCipher) :
    s.blobs.list = s.blobs.files.map BlobFile.name :=
  BlobStore.list_of_opens (hc.opens hunder s.cipher)

/-- A `put` that succeeds adds its content to what is due. -/
theorem Consistent.put (hc : s.Consistent h pool) (hunder : s.UnderCipher) {content : Bytes}
    (hpool : content ∈ pool) (fault : Bool) :
    (s.step h (.put content fault)).Consistent h pool
      ∧ (s.step h (.put content fault)).UnderCipher := by
  have hpooled : ∀ x ∈ content :: s.due, x ∈ pool :=
    forall_mem_cons.mpr ⟨hpool, hc.pooled⟩
  have hdue : ∀ f ∈ s.blobs.files, ∃ x ∈ content :: s.due, ∃ key,
      f = ⟨h.contentHash x, .versioned key (BlobStore.aad (h.contentHash x)) x⟩ := by
    intro f hf
    obtain ⟨x, hx, key, heq⟩ := hc.files f hf
    exact ⟨x, mem_cons_of_mem _ hx, key, heq⟩
  rcases s.toOpenStore.put_cases h content fault with
    ⟨e, hput⟩ | ⟨f, hf, hname, hput⟩ | ⟨blobs, hfiles, hput⟩
  · rw [show s.step h (.put content fault) = s by simp only [step, hput]]
    exact ⟨hc, hunder⟩
  · -- there is a file already
    rw [show s.step h (.put content fault) = { s with due := content :: s.due } by
      simp only [step, hput]]
    refine ⟨⟨hpooled, hdue, ?_⟩, hunder⟩
    intro x hx
    rcases mem_cons.mp hx with rfl | hx
    · exact ⟨f, hf, hname⟩
    · exact hc.present x hx
  · rw [show s.step h (.put content fault)
        = { blobs := blobs, cipher := s.cipher, due := content :: s.due } by
      simp only [step, hput]]
    have hmem : ∀ f, f ∈ blobs.files ↔ f ∈ s.blobs.files ∨ f = ⟨h.contentHash content,
        .versioned s.cipher (BlobStore.aad (h.contentHash content)) content⟩ := by
      intro f
      rw [hfiles, mem_append, mem_singleton]
      rfl
    refine ⟨⟨hpooled, ?_, ?_⟩, ?_⟩
    · intro f hf
      rcases (hmem f).mp hf with hf | rfl
      · exact hdue f hf
      · exact ⟨content, mem_cons_self, s.cipher, rfl⟩
    · intro x hx
      rcases mem_cons.mp hx with rfl | hx
      · exact ⟨_, (hmem _).mpr (.inr rfl), rfl⟩
      · obtain ⟨f, hf, hname⟩ := hc.present x hx
        exact ⟨f, (hmem f).mpr (.inl hf), hname⟩
    · intro f hf
      rcases (hmem f).mp hf with hf | rfl
      · exact hunder f hf
      · rfl

/-- What is removed is no longer due. -/
theorem Consistent.remove (hc : s.Consistent h pool) (hunder : s.UnderCipher) (hash : String)
    (fault : Bool) : (s.step h (.remove hash fault)).Consistent h pool
      ∧ (s.step h (.remove hash fault)).UnderCipher := by
  rcases s.toOpenStore.remove_cases hash fault with ⟨e, hremove⟩ | ⟨blobs, hfiles, hremove⟩
  · rw [show s.step h (.remove hash fault) = s by simp only [step, hremove]]
    exact ⟨hc, hunder⟩
  · have hstep : s.step h (.remove hash fault)
        = ⟨⟨blobs, s.cipher⟩, s.due.filter (fun x => h.contentHash x ≠ hash)⟩ := by
      simp only [step, hremove]
    rw [hstep]
    refine ⟨⟨?_, ?_, ?_⟩, ?_⟩
    · exact fun x hx => hc.pooled x (mem_of_mem_filter hx)
    · intro f hf
      have hf : f ∈ blobs.files := hf
      rw [hfiles] at hf
      obtain ⟨hf, hne⟩ := mem_filter.mp hf
      obtain ⟨x, hx, key, rfl⟩ := hc.files f hf
      exact ⟨x, mem_filter.mpr ⟨hx, hne⟩, key, rfl⟩
    · intro x hx
      obtain ⟨hx, hne⟩ := mem_filter.mp hx
      obtain ⟨f, hf, hname⟩ := hc.present x hx
      refine ⟨f, ?_, hname⟩
      show f ∈ blobs.files
      rw [hfiles]
      exact mem_filter.mpr ⟨hf, by rw [hname]; exact hne⟩
    · intro f hf
      have hf : f ∈ blobs.files := hf
      rw [hfiles] at hf
      exact hunder f (mem_of_mem_filter hf)

/-- After some files were resealed under `new` while the cipher stayed, every file is under
    the cipher exactly if that is `new` or no file was resealed. -/
theorem underCipher_resealNamed_iff (hunder : s.UnderCipher) {new : Key} {names : List String}
    (hnames : ∀ n ∈ names, n ∈ s.blobs.files.map BlobFile.name) :
    UnderCipher { blobs := s.blobs.resealNamed new names, cipher := s.cipher, due := s.due }
      ↔ new = s.cipher ∨ names = [] := by
  constructor
  · intro hafter
    cases names with
    | nil => exact .inr rfl
    | cons name names =>
      left
      obtain ⟨f, hf, hname⟩ := mem_map.mp (hnames name mem_cons_self)
      have hfirst := hafter _ (mem_map_of_mem hf)
      rw [BlobStore.resealIn, if_pos (by rw [hname]; exact mem_cons_self)] at hfirst
      exact hfirst
  · intro hkey f hf
    obtain ⟨g, hg, rfl⟩ := mem_map.mp hf
    unfold BlobStore.resealIn
    split
    next hin =>
      rcases hkey with hkey | hnone
      · exact hkey
      · rw [hnone] at hin
        cases hin
    next => exact hunder g hg

/-- **A `rekey` keeps what is due readable** unless it stops midway. -/
theorem Consistent.rekey (hc : s.Consistent h pool) (hunder : s.UnderCipher) (new : Key)
    (dir : DirOrder) (fault : RekeyFault) :
    (s.step h (.rekey new dir fault)).Consistent h pool ∧
      ((s.step h (.rekey new dir fault)).UnderCipher ↔
        ¬ s.StopsMidway (.rekey new dir fault)) := by
  have hperm := dir.perm s.blobs.list
  have hlist := hc.list_eq hunder
  have hnames : ∀ n ∈ dir.order s.blobs.list, n ∈ s.blobs.files.map BlobFile.name :=
    fun n hn => hlist ▸ hperm.mem_iff.mp hn
  have hrun := fun stop =>
    BlobStore.rekeyFiles_eq _ stop s.blobs (hc.opens hunder new) hnames
  -- all files are resealed and the cipher is taken
  have hall : UnderCipher { blobs := s.blobs.resealNamed new (dir.order s.blobs.list)
                            cipher := new, due := s.due } := by
    intro f hf
    obtain ⟨g, hg, rfl⟩ := mem_map.mp hf
    have hin : g.name ∈ dir.order s.blobs.list := by
      rw [hperm.mem_iff, hlist]
      exact mem_map_of_mem hg
    rw [BlobStore.resealIn, if_pos hin]
    rfl
  unfold step OpenStore.rekey
  cases fault with
  | none =>
    dsimp only
    rw [hrun none]
    exact ⟨hc.resealNamed new new _, iff_of_true hall (fun hstops => hstops)⟩
  | listing => exact ⟨hc, iff_of_true hunder (fun hstops => hstops)⟩
  | file index =>
    have hlen : (dir.order s.blobs.list).length = s.blobs.list.length := hperm.length_eq
    dsimp only [StopsMidway]
    by_cases hend : index < (dir.order s.blobs.list).length
    · -- the files before the stop are resealed and the cipher stays
      have hstops : BlobStore.stopsIn (dir.order s.blobs.list) (some index) = true :=
        decide_eq_true hend
      rw [hrun (some index), if_pos hstops]
      refine ⟨hc.resealNamed new s.cipher _, ?_⟩
      have htake : ∀ n ∈ (dir.order s.blobs.list).take index,
          n ∈ s.blobs.files.map BlobFile.name :=
        fun n hn => hnames n (mem_of_mem_take hn)
      refine (underCipher_resealNamed_iff hunder htake).trans ?_
      rw [take_eq_nil_iff]
      have hpos : (dir.order s.blobs.list) ≠ [] := ne_nil_of_length_pos (by omega)
      constructor
      · rintro (hkey | hzero | hnil) ⟨hne, hgt, -⟩
        · exact hne hkey
        · omega
        · exact hpos hnil
      · intro hnot
        by_contra hneither
        rw [not_or, not_or] at hneither
        exact hnot ⟨hneither.1, by omega, by omega⟩
    · have hstops : ¬ BlobStore.stopsIn (dir.order s.blobs.list) (some index) = true := by
        simp [BlobStore.stopsIn, hend]
      have hbefore : BlobStore.resealedBefore (dir.order s.blobs.list) (some index)
          = dir.order s.blobs.list := take_of_length_le (by omega)
      rw [hrun (some index), if_neg hstops, hbefore]
      refine ⟨hc.resealNamed new new _, iff_of_true hall ?_⟩
      rintro ⟨-, -, hlt⟩
      omega

/-- **What a call does** to a store in which all that is due loads. -/
theorem Consistent.step (hc : s.Consistent h pool) (hunder : s.UnderCipher) {c : BlobCall}
    (hpool : ∀ x ∈ c.puts, x ∈ pool) :
    (s.step h c).Consistent h pool ∧ ((s.step h c).UnderCipher ↔ ¬ s.StopsMidway c) := by
  cases c with
  | put content fault =>
    obtain ⟨hcons, hafter⟩ := hc.put hunder (hpool content (mem_singleton_self _)) fault
    exact ⟨hcons, iff_of_true hafter (fun hstops => hstops)⟩
  | get hash => exact ⟨hc, iff_of_true hunder (fun hstops => hstops)⟩
  | remove hash fault =>
    obtain ⟨hcons, hafter⟩ := hc.remove hunder hash fault
    exact ⟨hcons, iff_of_true hafter (fun hstops => hstops)⟩
  | rekey new dir fault => exact hc.rekey hunder new dir fault

end Tracked

/-! ## §6. Whole runs -/

open Tracked in
/-- **The blob store is a map from hashes to contents** as long as no `rekey` stops midway.
    Over every run of calls on a new store, whatever goes wrong in them and in whatever order
    the directory lists its files: after every call each content that was put and not removed
    since is read back, exactly when no `rekey` to another key met an error after its first
    file and before its last. -/
theorem blob_store_is_map_iff (h : Hash) (key : Key) (calls : List BlobCall)
    (hideal : Set.InjOn h.contentHash {x | x ∈ calls.flatMap BlobCall.puts}) :
    (∀ s ∈ Trace.states (Tracked.step h) (start key) calls, s.AllLoad h) ↔
      Trace.Never (Tracked.step h) StopsMidway (start key) calls := by
  have hpool : ∀ c ∈ calls, ∀ x ∈ c.puts, x ∈ calls.flatMap BlobCall.puts :=
    fun c hc x hx => mem_flatMap.mpr ⟨c, hc, hx⟩
  have hstart : (start key).Consistent h (calls.flatMap BlobCall.puts) :=
    ⟨by simp [start], by simp [start, BlobStore.empty], by simp [start]⟩
  have hempty : (start key).AllLoad h := by simp [AllLoad, start]
  refine Trace.forall_states_iff_of_kept (P := Consistent h (calls.flatMap BlobCall.puts)) calls ?_
    hstart hempty
  intro s c hc hcons hload
  obtain ⟨hnext, hafter⟩ := hcons.step ((hcons.allLoad_iff hideal).mp hload) (hpool c hc)
  exact ⟨hnext, (hnext.allLoad_iff hideal).trans hafter⟩

namespace BlobSample

/-- One name for the content `[1]`, another for everything else. -/
def twoNames : Hash where
  contentHash data := String.ofList (replicate 64 (if data = [1] then 'b' else 'a'))
  contentHash_valid data := by
    by_cases h : data = [1]
    · rw [if_pos h]
      decide
    · rw [if_neg h]
      decide
  fingerprint _ := ""

/-- Files are listed in the order they were written. -/
def asWritten : DirOrder := ⟨fun names => names, fun _ => Perm.refl _⟩

theorem twoNames_injOn : Set.InjOn twoNames.contentHash {x | x ∈ [[0], [1]]} := by
  intro x hx y hy heq
  simp only [Set.mem_ofPred_eq, mem_cons, not_mem_nil, or_false] at hx hy
  rcases hx with rfl | rfl <;> rcases hy with rfl | rfl
  · rfl
  · exact absurd heq (by decide)
  · exact absurd heq (by decide)
  · rfl

/-- Two contents are put and resealed. -/
def resealed : List BlobCall := [.put [0] false, .put [1] false, .rekey [8] asWritten .none]

/-- Without an error, both are read back after every call. -/
theorem blob_store_is_map_iff_resealed :
    Trace.Never (Tracked.step twoNames) Tracked.StopsMidway (Tracked.start [7]) resealed ∧
      ∀ s ∈ Trace.states (Tracked.step twoNames) (Tracked.start [7]) resealed,
        s.AllLoad twoNames := by
  have hnever : Trace.Never (Tracked.step twoNames) Tracked.StopsMidway (Tracked.start [7])
      resealed := ⟨fun h => h, fun h => h, fun h => h, trivial⟩
  exact ⟨hnever, (blob_store_is_map_iff twoNames [7] resealed twoNames_injOn).mpr hnever⟩

/-- Two contents are put, and resealing meets an error at the second file.  The first is then
    under the new key, the cipher in memory is the old one: the content cannot be read, and
    putting it again is answered with `Ok` and changes nothing. -/
theorem stopped_rekey_loses_content :
    let s := Trace.after (Tracked.step twoNames) (Tracked.start [7])
      [.put [0] false, .put [1] false, .rekey [8] asWritten (.file 1)]
    [0] ∈ s.due ∧ s.toOpenStore.get (twoNames.contentHash [0]) = .error .crypto ∧
      (s.toOpenStore.put twoNames [0] false).1 = .ok (twoNames.contentHash [0]) ∧
      (s.step twoNames (.put [0] false)).toOpenStore.get (twoNames.contentHash [0])
        = .error .crypto := by
  refine ⟨?_, ?_, ?_, ?_⟩
  · decide +kernel
  · rfl
  · rfl
  · rfl

end BlobSample

/-! ## §7. Resealing again -/

/-- The preview of a row, resealed. -/
def resealedPreview (new : Key) (r : EntryRow) : Cols :=
  { r.cols with
    preview := sealWithAad new (previewAad r.key.contentHash) r.cols.preview.plain }

/-- Resealing leaves every preview under the new key, and what is in it as it was. -/
theorem Database.rekey_eq {db : Database} {old new : Key} (h : Hash) (hdb : db.Resealable old new) :
    db.rekey h old new = .ok { db with
      entries := db.entries.mapCols (resealedPreview new)
      keyFingerprint := some (h.fingerprint new) } := by
  unfold rekey
  rw [if_pos hdb]
  have hentries : db.entries.mapCols (resealedCols old new)
      = db.entries.mapCols (resealedPreview new) := by
    apply Table.ext
    refine map_congr_left fun r hr => ?_
    simp only [Table.setCols, resealedCols, resealedPreview, reseal_of_reopen (hdb r hr)]
  rw [hentries]

/-- Without an error, resealing leaves every file under the new key, and what is in it as it
    was. -/
theorem OpenStore.rekey_eq {s : OpenStore} {new : Key} (hs : s.blobs.Opens s.cipher new)
    (dir : DirOrder) : ∃ blobs, s.rekey new dir .none = (.ok (), ⟨blobs, new⟩) ∧
      blobs.files = s.blobs.files.map (BlobStore.resealFile new) := by
  have hlist := BlobStore.list_of_opens hs
  have hmem : ∀ n, n ∈ dir.order s.blobs.list ↔ n ∈ s.blobs.files.map BlobFile.name := by
    intro n
    rw [(dir.perm _).mem_iff, hlist]
  refine ⟨s.blobs.resealNamed new (dir.order s.blobs.list), ?_, ?_⟩
  · unfold OpenStore.rekey
    dsimp only
    rw [BlobStore.rekeyFiles_eq _ none s.blobs hs fun n hn => (hmem n).mp hn]
    rfl
  · refine map_congr_left fun f hf => ?_
    exact if_pos ((hmem f.name).mpr (mem_map_of_mem hf))

/-- **Resealing resumes and loses nothing.**  However previews and blobs are mixed between the
    two keys and the two formats, resealing leaves each of them under the new key with what was
    in it, and resealing once more, from whichever key, leaves everything as it is. -/
theorem rekey_resumes (h : Hash) (db : Database) (s : OpenStore) (old new : Key)
    (hdb : db.Resealable old new) (hs : s.blobs.Opens s.cipher new) (dir : DirOrder) :
    ∃ db' s', db.rekey h old new = .ok db' ∧ s.rekey new dir .none = (.ok (), s') ∧
      db'.entries.rows = db.entries.rows.map (Table.setCols (resealedPreview new)) ∧
      s'.blobs.files = s.blobs.files.map (BlobStore.resealFile new) ∧
      ∀ (old' : Key) (dir' : DirOrder), db'.rekey h old' new = .ok db' ∧
        (OpenStore.rekey ⟨s'.blobs, old'⟩ new dir' .none) = (.ok (), s') := by
  obtain ⟨blobs, hrekey, hfiles⟩ := s.rekey_eq hs dir
  refine ⟨_, ⟨blobs, new⟩, rekey_eq h hdb, hrekey, rfl, hfiles, fun old' dir' => ⟨?_, ?_⟩⟩
  · rw [rekey_eq h]
    · -- a row resealed twice is the row resealed once
      have hagain : (db.entries.mapCols (resealedPreview new)).mapCols (resealedPreview new)
          = db.entries.mapCols (resealedPreview new) := by
        apply Table.ext
        exact map_map
      rw [hagain]
    · intro r hr
      obtain ⟨r₀, -, rfl⟩ := Table.mem_mapCols.mp hr
      exact Option.isSome_iff_exists.mpr (reopen_of_new (openStored_seal _ _ _))
  · have hopens : blobs.Opens old' new := by
      intro f hf
      rw [hfiles] at hf
      obtain ⟨g, hg, rfl⟩ := mem_map.mp hf
      exact ⟨(hs g hg).1, BlobStore.reopen_resealFile old' new g⟩
    obtain ⟨blobs', hagain, hfiles'⟩ := OpenStore.rekey_eq (s := ⟨blobs, old'⟩) hopens dir'
    have hsame : blobs' = blobs := by
      apply BlobStore.ext
      rw [hfiles', hfiles, map_map]
      rfl
    rw [hagain, hsame]

namespace BlobSample

/-- A row with this preview. -/
def previewRow (id : Nat) (content : Bytes) (preview : Envelope String) : EntryRow :=
  ⟨id, ⟨twoNames.contentHash content, .clipboard⟩,
    { preview
      kind := .text
      primaryMime := "text/plain"
      sizeBytes := 1
      sourceApp := none
      createdAt := 0
      lastSeenAt := 0
      pinned := false
      sensitive := false
      deviceId := "here"
      lamport := 1
      deleted := false
      deletedAt := 0
      changeSeq := id }⟩

/-- The preview of a content, sealed under the new key. -/
def newPreview (content : Bytes) (text : String) : Envelope String :=
  sealWithAad [8] (previewAad (twoNames.contentHash content)) text

/-- A preview in the old format under the old key, and one under the new key already. -/
def halfwayDb : Database :=
  { Database.empty with
    entries := ⟨[previewRow 1 [0] (.legacy [7] "first"), previewRow 2 [1] (newPreview [1] "second")],
      by decide, by decide⟩ }

/-- Two blobs in the same way. -/
def halfwayBlobs : OpenStore :=
  ⟨⟨[⟨twoNames.contentHash [0], .legacy [7] [0]⟩,
      ⟨twoNames.contentHash [1], sealWithAad [8] (BlobStore.aad (twoNames.contentHash [1])) [1]⟩],
    by decide⟩, [7]⟩

/-- Resealing that was stopped halfway is resumed. -/
theorem rekey_resumes_halfway : ∃ db' s', halfwayDb.rekey twoNames [7] [8] = .ok db' ∧
    halfwayBlobs.rekey [8] asWritten .none = (.ok (), s') ∧
    db'.entries.rows.map (fun r => r.cols.preview)
      = [newPreview [0] "first", newPreview [1] "second"] := by
  obtain ⟨db', s', hdb, hs, hrows, -⟩ := rekey_resumes twoNames halfwayDb halfwayBlobs [7] [8]
    (by decide +kernel) (by decide +kernel) asWritten
  refine ⟨db', s', hdb, hs, ?_⟩
  rw [hrows]
  rfl

end BlobSample

end Panora.Storage
