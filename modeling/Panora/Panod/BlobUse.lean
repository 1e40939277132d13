/-
  Panora.Panod.BlobUse — which blob files are in use.

  A blob may be shared by entries, selections, thumbnails and tombstones.  It is put before
  it is attached, and removed only after a clean-up finds that no row refers to it.  Every
  request is cut where it awaits: other requests run between its parts.

  Main results:
    * `leftWithout_stripTombstones`, `leftWithout_purgeTombstones` — a clean-up returns the
      references its own deletions left without a row;
    * `blobs_in_use_stay` — after any run of such parts every reference names a file, and
      right after `maintain` the files are the references.
-/
import Panora.Panod.Damage
import Panora.Panod.Suspend

namespace Panora.Panod

open Storage Lib Lib.Op Storage.Database Storage.BlobStore List

/-! ## §1. What a clean-up returns -/

/-- `refs` are the references `db` has and `db'` has not, each once. -/
structure LeftWithout (db db' : Database) (refs : List String) : Prop where
  once : refs.Nodup
  iff : ∀ ref, ref ∈ refs ↔ (∃ b ∈ db.entryBlobs, b.blobRef = ref) ∧
    ∀ b ∈ db'.entryBlobs, b.blobRef ≠ ref

section CleanUp

variable {db db' : Database} {ref : String}

theorem orphaned_iff : db.orphaned ref = true ↔ ∀ b ∈ db.entryBlobs, b.blobRef ≠ ref := by
  unfold orphaned
  simp

/-- **Stripping returns the references it left without a row.** -/
theorem leftWithout_stripTombstones (db : Database) (before : Int) :
    LeftWithout db (db.stripTombstones before).2 (db.stripTombstones before).1 where
  once := (nodup_dedup _).filter _
  iff := by
    intro ref
    show ref ∈ filter _ _ ↔ _
    rw [mem_filter, mem_dedup, orphaned_iff]
    refine and_congr_left fun hgone => ?_
    constructor
    · intro hmem
      obtain ⟨b, hb, rfl⟩ := mem_map.mp hmem
      exact ⟨b, (mem_filter.mp hb).1, rfl⟩
    · rintro ⟨b, hb, rfl⟩
      -- a row that is gone was one of those deleted
      refine mem_map_of_mem (mem_filter.mpr ⟨hb, ?_⟩)
      by_contra hkept
      exact hgone b (mem_filter.mpr ⟨hb, by simpa using hkept⟩) rfl

/-- What the loop of a purge has collected: the references of the rows it deleted. -/
structure Collected (db : Database) (acc : List String × Database) : Prop where
  refs : ∀ ref ∈ acc.1, ∃ b ∈ db.entryBlobs, b.blobRef = ref
  kept : ∀ b ∈ db.entryBlobs, b ∈ acc.2.entryBlobs ∨ b.blobRef ∈ acc.1
  fewer : ∀ b ∈ acc.2.entryBlobs, b ∈ db.entryBlobs

theorem Collected.purgeRow {acc : List String × Database} (h : Collected db acc) (id : Nat) :
    Collected db (purgeRow acc id) := by
  cases hget : acc.2.entries.get id with
  | none =>
    simp only [Database.purgeRow, hget]
    exact h
  | some r =>
    by_cases hdel : r.cols.deleted = true
    · simp only [Database.purgeRow, hget, if_pos hdel]
      have hof : ∀ b, b ∈ acc.2.blobsOf id ↔ b ∈ acc.2.entryBlobs ∧ b.entryId = id := by
        intro b
        unfold blobsOf
        rw [mem_insertionSort, mem_filter, decide_eq_true_eq]
      refine ⟨?_, ?_, ?_⟩
      · intro ref href
        rcases mem_append.mp href with hold | hnew
        · exact h.refs ref hold
        · obtain ⟨b, hb, rfl⟩ := mem_map.mp hnew
          exact ⟨b, h.fewer b ((hof b).mp hb).1, rfl⟩
      · intro b hb
        rcases h.kept b hb with hthere | hgone
        · by_cases hid : b.entryId = id
          · exact .inr (mem_append_right _
              (mem_map_of_mem ((hof b).mpr ⟨hthere, hid⟩)))
          · exact .inl (mem_filter.mpr ⟨hthere, by simpa using hid⟩)
        · exact .inr (mem_append_left _ hgone)
      · intro b hb
        exact h.fewer b (mem_filter.mp hb).1
    · simp only [Database.purgeRow, hget, if_neg hdel]
      exact h

theorem collected_foldl (db : Database) : ∀ (ids : List Nat) {acc : List String × Database},
    Collected db acc → Collected db (ids.foldl purgeRow acc)
  | [], _, h => h
  | id :: ids, _, h => collected_foldl db ids (h.purgeRow id)

/-- **Purging returns the references it left without a row.** -/
theorem leftWithout_purge (db : Database) (ids : List Nat) :
    LeftWithout db (db.purge ids).2 (db.purge ids).1 where
  once := (nodup_dedup _).filter _
  iff := by
    intro ref
    have hcollected : Collected db (ids.foldl purgeRow ([], db)) :=
      collected_foldl db ids ⟨by simp, fun b hb => .inl hb, fun b hb => hb⟩
    show ref ∈ filter _ _ ↔ _
    rw [mem_filter, mem_dedup, mem_insertionSort, orphaned_iff]
    refine and_congr_left fun hgone => ?_
    constructor
    · exact hcollected.refs ref
    · rintro ⟨b, hb, rfl⟩
      rcases hcollected.kept b hb with hkept | hmem
      · exact absurd rfl (hgone b hkept)
      · exact hmem

theorem leftWithout_purgeTombstones (db : Database) (before : Int) :
    LeftWithout db (db.purgeTombstones before).2 (db.purgeTombstones before).1 :=
  leftWithout_purge db _

end CleanUp

/-! ## §2. The hourly upkeep, and importing -/

/-- The blobs no row refers to. -/
def orphans (d : Daemon) : List String :=
  d.blobs.list.filter (fun name => name ∉ d.db.entryBlobs.map BlobRow.blobRef)

/-- Retention, then a scan for blobs no row refers to.  Returns how many were removed. -/
def maintain (env : Env) : Request Nat := do
  let _ ← collectGarbage env
  let hashes ← reads orphans
  removeBlobs hashes
  pure hashes.length

/-- What an imported entry is recorded as; a restore always moves an entry up. -/
def importedEntry (env : Env) (record : BackupEntry) (payloads : List MimePayload)
    (lamport : Int) : NewEntry where
  key := ⟨env.hash.payloadHash payloads, record.selection⟩
  preview := record.preview
  kind := record.kind
  primaryMime := record.primaryMime
  sizeBytes := record.sizeBytes
  sourceApp := record.sourceApp
  now := record.lastSeenAt
  deviceId := env.deviceId
  lamport := lamport
  bumpOnDuplicate := true

/-- Flag an imported secret, or index the text of anything else. -/
def markImported (env : Env) (record : BackupEntry) (payloads : List MimePayload) (id : Nat) :
    Request Unit :=
  if record.sensitive then updateDb (fun db => ((), db.markSensitive id))
  else if env.config.indexFullText then
    let data : ClipboardData :=
      ⟨record.selection, payloads, payloads.map MimePayload.mime, record.sourceApp⟩
    match env.content.indexText (env.content.text data) record.kind with
    | some content => updateDb (fun db => ((), db.indexContent id content))
    | none => pure ()
  else pure ()

/-- Pin what was pinned when it was exported. -/
def pinImported (record : BackupEntry) (id : Nat) : Request Unit :=
  if record.pinned then changeDb (fun db => db.setPinned id true) else pure ()

/-- Restore one entry of an archive. -/
def importEntry (env : Env) (record : BackupEntry) (payloads : List MimePayload) :
    Request Entry := do
  let lamport ← updateDb tickLamport
  let id ← step (fun d =>
    let (id, db) := d.db.upsertEntry d.dbCipher (importedEntry env record payloads lamport)
    (id, { d with db }))
  changeDb (fun db => db.stamp id lamport env.deviceId)
  markImported env record payloads id
  payloads.forM (fun p => storeBlob env id p.mime p.data)
  pinImported record id
  getEntry id

/-- Merge the entries of an archive into the history. -/
def importAll (env : Env) (records : List (BackupEntry × List MimePayload)) : Request Unit :=
  records.forM (fun r => do let _ ← importEntry env r.1 r.2)

/-! ## §3. Runs -/

/-- What runs without being interrupted: a request, or a part of one between awaits. -/
inductive Segment where
  /-- A capture up to its thumbnail, and the rest of it. -/
  | capture (env : Env) (data : ClipboardData)
  | captured (env : Env) (id : Nat) (thumbnail : Option Bytes)
  /-- A thumbnail made when the popup asked for it. -/
  | preview (env : Env) (id : Nat) (png : Bytes)
  | imported (env : Env) (record : BackupEntry) (payloads : List MimePayload)
  | pin (env : Env) (id : Nat) (pinned : Bool)
  | delete (env : Env) (id : Nat)
  | restore (env : Env) (id : Nat)
  | clear (env : Env)
  /-- A remote record up to its thumbnail, and the rest of it. -/
  | receive (env : Env) (sent : SyncRecord)
  | received (env : Env) (record : SyncRecord) (id : Nat) (thumbnail : Option Bytes)
  | retention (env : Env)
  | purge (before : Int)
  | maintain (env : Env)

/-- What it does. -/
def Segment.request : Segment → Request Unit
  | .capture env data => do let _ ← storeRow env data
  | .captured env id thumbnail => do let _ ← storeRest env id thumbnail
  | .preview env id png => storeBlob env id thumbnailMime png
  | .imported env record payloads => do let _ ← importEntry env record payloads
  | .pin env id pinned => setPinned env id pinned
  | .delete env id => Panod.delete env id
  | .restore env id => do let _ ← Panod.restore env id
  | .clear env => do let _ ← Panod.clear env
  | .receive env sent => do let _ ← beginRecord env sent
  | .received env record id thumbnail => do let _ ← finishNew env record id thumbnail
  | .retention env => do let _ ← collectGarbage env
  | .purge before => purgeTombstonedBefore before
  | .maintain env => do let _ ← Panod.maintain env

/-- A run. -/
def runSegments (d : Daemon) (segments : List Segment) : Daemon :=
  segments.foldl (fun d s => (exec s.request d).2) d

/-- Intact blobs stay so. -/
abbrev KeepsIntact {α : Type} (x : Request α) : Prop :=
  Keeps (fun d d' => Intact d → Intact d') x

section Kept

variable {α β : Type} {d : Daemon}

theorem keepsIntact_bind {x : Request α} {f : α → Request β} (hx : KeepsIntact x)
    (hf : ∀ a, KeepsIntact (f a)) : KeepsIntact (x >>= f) :=
  keeps_bind (fun _ _ _ h h' hint => h' (h hint)) hx hf

/-- What advances the feed keeps the blobs intact. -/
theorem keepsIntact_of_advances (touched : Nat → Prop) {x : Request α}
    (h : Advances touched x) : KeepsIntact x :=
  fun d => (h d).intact

theorem keepsIntact_of_outlasts {x : Request α} {Q : α → Prop}
    (h : ∀ d0, Maintains (Advanced (fun _ => False) d0) x Q) : KeepsIntact x :=
  keepsIntact_of_advances _ (keeps_of_maintains Advanced.refl h)

theorem keepsIntact_pure (a : α) : KeepsIntact (pure a : Request α) := fun _ h => h

theorem keepsIntact_markImported (env : Env) (record : BackupEntry) (payloads : List MimePayload)
    (id : Nat) : KeepsIntact (markImported env record payloads id) := by
  unfold markImported
  split
  · exact fun d hint => ⟨hint.opens, hint.there⟩
  · split
    · dsimp only
      split
      · exact fun d hint => ⟨hint.opens, hint.there⟩
      · exact keepsIntact_pure ()
    · exact keepsIntact_pure ()

theorem keepsIntact_pinImported (record : BackupEntry) (id : Nat) :
    KeepsIntact (pinImported record id) := by
  unfold pinImported
  split
  · exact keepsIntact_of_advances (fun _ => False) (advances_tracked id _)
  · exact keepsIntact_pure ()

theorem keepsIntact_importEntry (env : Env) (record : BackupEntry) (payloads : List MimePayload) :
    KeepsIntact (importEntry env record payloads) := by
  unfold importEntry
  refine keepsIntact_bind (fun d hint => ⟨hint.opens, hint.there⟩) fun lamport => ?_
  refine keepsIntact_bind (keeps_step fun d hint => ⟨hint.opens, ?_⟩) fun id => ?_
  · -- the upsert writes no reference
    show ∀ b ∈ (d.db.upsertEntry d.dbCipher (importedEntry env record payloads lamport)).2.entryBlobs,
      (d.blobs.file b.blobRef).isSome = true
    rw [(upsertEntry_eq d.db d.dbCipher _).2]
    exact hint.there
  · apply keepsIntact_bind (keepsIntact_of_advances (fun _ => False) (advances_tracked id _))
    intro _
    apply keepsIntact_bind (keepsIntact_markImported env record payloads id)
    intro _
    apply keepsIntact_bind (keepsIntact_of_advances (fun i => i = id) (advances_storeBlobs env id payloads))
    intro _
    apply keepsIntact_bind (keepsIntact_pinImported record id)
    intro _
    exact keeps_look (fun _ h => h) _

end Kept

/-! ## §4. The scan for orphans -/

section Scan

variable {d : Daemon} {name : String}

/-- The directory once they are removed. -/
def withoutOrphans (d : Daemon) : Daemon :=
  { d with blobs := (orphans d).foldl removeOrWarn d.blobs }

theorem Intact.withoutOrphans (h : Intact d) : Intact (withoutOrphans d) where
  opens := by
    intro f hf
    obtain ⟨hmem, hsame⟩ := file_of_removeAll (orphans d) d.blobs hf
    obtain ⟨data, hget⟩ := h.opens f hmem
    exact ⟨data, (get_congr d.blobCipher hsame).trans hget⟩
  there := by
    intro b hb
    have hused : b.blobRef ∉ orphans d := by
      intro hmem
      have hnone := (mem_filter.mp hmem).2
      exact of_decide_eq_true hnone (mem_map_of_mem hb)
    show (((orphans d).foldl removeOrWarn d.blobs).file b.blobRef).isSome = true
    rw [file_removeAll hused]
    exact h.there b hb

/-- A name that is a hash is not left behind. -/
theorem notMem_removeAll (refs : List String) (hvalid : validHash name = true) :
    ∀ (s : BlobStore), name ∈ refs → ∀ f ∈ (refs.foldl removeOrWarn s).files,
      f.name ≠ name := by
  induction refs with
  | nil => exact fun s hmem => absurd hmem (by simp)
  | cons ref refs ih =>
    intro s hmem f hf
    rcases mem_cons.mp hmem with rfl | hlater
    · -- gone at once, and what the others leave was there before
      have hleft := (file_of_removeAll refs (s.removeOrWarn name) hf).1
      unfold removeOrWarn remove at hleft
      rw [if_neg (by simp [hvalid])] at hleft
      exact of_decide_eq_true (mem_filter.mp hleft).2
    · exact ih (s.removeOrWarn ref) hlater f hf

/-- Blobs that open are named by their hash. -/
theorem Intact.validHash_name (h : Intact d) {f : BlobFile} (hf : f ∈ d.blobs.files) :
    validHash f.name = true := by
  obtain ⟨data, hget⟩ := h.opens f hf
  by_contra hbad
  unfold BlobStore.get at hget
  rw [if_pos (by simpa using hbad)] at hget
  cases hget

/-- **What the scan leaves is what the rows refer to.** -/
theorem Intact.names_withoutOrphans (h : Intact d) :
    (∃ f ∈ (Panod.withoutOrphans d).blobs.files, f.name = name)
      ↔ ∃ b ∈ d.db.entryBlobs, b.blobRef = name := by
  constructor
  · rintro ⟨f, hf, rfl⟩
    by_contra hunused
    have hmem := (file_of_removeAll (orphans d) d.blobs hf).1
    have hvalid := h.validHash_name hmem
    have horphan : f.name ∈ orphans d := by
      apply mem_filter.mpr
      constructor
      · exact mem_filter.mpr ⟨mem_map_of_mem hmem, hvalid⟩
      · apply decide_eq_true
        intro hmap
        obtain ⟨b, hb, hname⟩ := mem_map.mp hmap
        exact hunused ⟨b, hb, hname⟩
    exact notMem_removeAll (orphans d) hvalid d.blobs horphan f hf rfl
  · rintro ⟨b, hb, rfl⟩
    have hthere := h.withoutOrphans.there b hb
    obtain ⟨f, hfile⟩ := Option.isSome_iff_exists.mp hthere
    obtain ⟨hf, hname⟩ :=
      (Keyed.lookup_eq_some (Panod.withoutOrphans d).blobs.namesNodup).mp hfile
    exact ⟨f, hf, hname⟩

/-- The upkeep is a retention pass and the scan. -/
theorem exec_maintain (env : Env) (d : Daemon) :
    ∃ d1 removed, exec (collectGarbage env) d = (.ok removed, d1) ∧
      exec (maintain env) d = (.ok (orphans d1).length, withoutOrphans d1) := by
  obtain ⟨d1, hgc, -⟩ := exec_collectGarbage env d
  refine ⟨d1, _, hgc, ?_⟩
  unfold maintain
  rw [exec_bind_ok hgc]
  rfl

/-- A retention pass leaves the blobs intact. -/
theorem Intact.afterPass {env : Env} {removed : Nat} {d1 : Daemon} (h : Intact d)
    (hgc : exec (collectGarbage env) d = (.ok removed, d1)) : Intact d1 := by
  have hpass : Advanced (fun _ => False) d (exec (collectGarbage env) d).2 :=
    advances_collectGarbage env d
  rw [hgc] at hpass
  exact hpass.intact h

end Scan

theorem keepsIntact_maintain (env : Env) : KeepsIntact (maintain env) := by
  intro d hint
  obtain ⟨d1, removed, hgc, hrun⟩ := exec_maintain env d
  show Intact (exec (maintain env) d).2
  rw [hrun]
  exact (hint.afterPass hgc).withoutOrphans

/-! ## §5. Every run -/

/-- What follows a request that keeps the blobs intact is dropped. -/
theorem keepsIntact_discard {α : Type} {x : Request α} (h : KeepsIntact x) :
    KeepsIntact (do let _ ← x) :=
  keepsIntact_bind h fun _ => keepsIntact_pure ()

/-- **Every part keeps the blobs intact.** -/
theorem Segment.keepsIntact (s : Segment) : KeepsIntact s.request := by
  cases s with
  | capture env data =>
    exact keepsIntact_discard
      (keepsIntact_of_advances (fun _ => False) (advances_storeRow env data))
  | captured env id thumbnail =>
    exact keepsIntact_discard
      (keepsIntact_of_advances (fun _ => False) (advances_storeRest env id thumbnail))
  | preview env id png =>
    exact keepsIntact_of_advances _ (advances_storeBlob env id thumbnailMime png)
  | imported env record payloads =>
    exact keepsIntact_discard (keepsIntact_importEntry env record payloads)
  | pin env id pinned =>
    exact keepsIntact_of_outlasts fun d => (outlasts_advanced env d).setPinned trivial pinned
  | delete env id =>
    exact keepsIntact_of_outlasts fun d => (outlasts_advanced env d).delete trivial
  | restore env id =>
    exact keepsIntact_discard
      (keepsIntact_of_outlasts fun d => (outlasts_advanced env d).restore trivial)
  | clear env =>
    exact keepsIntact_discard
      (keepsIntact_of_outlasts fun d => (outlasts_advanced env d).clear)
  | receive env sent =>
    exact keepsIntact_discard
      (keepsIntact_of_outlasts fun d => (outlasts_advanced env d).beginRecord trivial)
  | received env record id thumbnail =>
    exact keepsIntact_discard
      (keepsIntact_of_outlasts fun d => (outlasts_advanced env d).finishNew trivial record thumbnail)
  | retention env =>
    exact keepsIntact_discard
      (keepsIntact_of_advances (fun _ => False) (advances_collectGarbage env))
  | purge before =>
    exact keepsIntact_of_advances (fun _ => False) (advances_purgeTombstonedBefore before)
  | maintain env => exact keepsIntact_discard (keepsIntact_maintain env)

/-- **Every run keeps the blobs intact.** -/
theorem intact_runSegments (segments : List Segment) : ∀ {d : Daemon}, Intact d →
    Intact (runSegments d segments) := by
  induction segments with
  | nil => exact fun h => h
  | cons s segments ih => exact fun {d} h => ih (s.keepsIntact d h)

/-- **No blob in use is ever removed.**  After any run of parts of requests every reference
    names a file; a clean-up returns the references its deletions left without a row; and
    right after the upkeep the files are the references. -/
theorem blobs_in_use_stay (d : Daemon) (hint : Intact d) (segments : List Segment) :
    (∀ b ∈ (runSegments d segments).db.entryBlobs,
      ((runSegments d segments).blobs.file b.blobRef).isSome = true) ∧
    (∀ before, LeftWithout (runSegments d segments).db
      ((runSegments d segments).db.stripTombstones before).2
      ((runSegments d segments).db.stripTombstones before).1) ∧
    (∀ before, LeftWithout (runSegments d segments).db
      ((runSegments d segments).db.purgeTombstones before).2
      ((runSegments d segments).db.purgeTombstones before).1) ∧
    ∀ env, ∃ removed d', Op.exec (maintain env) (runSegments d segments) = (.ok removed, d') ∧
      ∀ name, (∃ f ∈ d'.blobs.files, f.name = name)
        ↔ ∃ b ∈ d'.db.entryBlobs, b.blobRef = name := by
  have hrun : Intact (runSegments d segments) := intact_runSegments segments hint
  refine ⟨hrun.there, leftWithout_stripTombstones _, leftWithout_purgeTombstones _, ?_⟩
  intro env
  obtain ⟨d1, removed, hgc, hmaintain⟩ := exec_maintain env (runSegments d segments)
  exact ⟨_, _, hmaintain, fun name => (hrun.afterPass hgc).names_withoutOrphans⟩

namespace Sample

/-- A note is copied and deleted, and the upkeep runs. -/
def copyAndDelete : List Segment :=
  [.capture env (captureOf (note [97] 1)), .captured env 1 none, .delete env 1, .maintain env]

theorem blobs_in_use_stay_copyAndDelete :
    Intact fresh ∧ ∀ b ∈ (runSegments fresh copyAndDelete).db.entryBlobs,
      ((runSegments fresh copyAndDelete).blobs.file b.blobRef).isSome = true :=
  ⟨intact_fresh, (blobs_in_use_stay fresh intact_fresh copyAndDelete).1⟩

end Sample

end Panora.Panod
