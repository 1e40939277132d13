/-
  Panora.Panod.GiveBack — what undoing a deletion gives back.

  `Daemon::delete` and `Daemon::restore`.  A deletion sets two columns of the row and takes its
  row out of the search index; the undo resets the columns and writes a row of the index anew,
  with the preview and without the text beyond it.  In between, retention and other requests run.

  Main results:
    * `Segment.parked` — what is done to other entries leaves a deleted row, its references
      and its blobs alone until the undo window closes;
    * `undo_gives_back_iff` — the undo gives the entry back exactly when no search needs the
      indexed text to find it.
-/
import Panora.Panod.Made
import Panora.Storage.Search

namespace Panora.Panod

open Storage Lib Lib.Op Lib.Table Storage.Database List

/-! ## §1. A row that is left alone -/

/-- The row with this id and its references are as they were. -/
structure Untouched (id : Nat) (db db' : Database) : Prop where
  row : db'.entries.get id = db.entries.get id
  refs : db'.refsOf id = db.refsOf id

section Untouched

variable {db db' db'' : Database} {id i : Nat} {r : EntryRow}

theorem Untouched.refl (id : Nat) (db : Database) : Untouched id db db := ⟨rfl, rfl⟩

theorem Untouched.trans (h : Untouched id db db') (h' : Untouched id db' db'') :
    Untouched id db db'' := ⟨h'.row.trans h.row, h'.refs.trans h.refs⟩

/-- A statement that writes neither rows nor references. -/
theorem untouched_of_eq (hentries : db'.entries = db.entries)
    (hrefs : db'.entryBlobs = db.entryBlobs) : Untouched id db db' := by
  refine ⟨by rw [hentries], ?_⟩
  unfold refsOf
  rw [hrefs]

theorem untouched_plainUpdate (hne : id ≠ i) (f : Cols → Cols) :
    Untouched id db (db.plainUpdate i f) := ⟨get_update_of_ne db.entries hne f, rfl⟩

theorem untouched_trackedUpdate (hne : id ≠ i) (f : Cols → Cols) :
    Untouched id db (db.trackedUpdate i f) := by
  refine ⟨get_trackedUpdate_ne hne f, ?_⟩
  unfold refsOf
  rw [entryBlobs_trackedUpdate]

theorem untouched_changing (hne : id ≠ i) {f : Cols → Cols}
    (h : db.changing i (db.trackedUpdate i f) = .ok db') : Untouched id db db' := by
  rw [changing_eq h]
  exact untouched_trackedUpdate hne f

theorem untouched_tombstone (hne : id ≠ i) {now : Int} {refs : List String}
    (h : db.tombstone i now = .ok (refs, db')) : Untouched id db db' := by
  obtain ⟨after, hchanging, heq⟩ := Fallible.map_ok_iff.mp h
  rw [← (Prod.mk.inj heq).2]
  exact (untouched_changing hne hchanging).trans (untouched_of_eq rfl rfl)

theorem untouched_attachBlob (hne : id ≠ i) {mime ref : String}
    (h : db.attachBlob i mime ref = .ok db') : Untouched id db db' := by
  unfold attachBlob at h
  split at h
  · cases h
  · cases h
    refine ⟨rfl, ?_⟩
    unfold refsOf
    show (db.entryBlobs.filter _ ++ [_]).filter _ = _
    rw [filter_append, filter_filter,
      filter_cons_of_neg (by simpa using Ne.symm hne), filter_nil, append_nil]
    refine filter_congr fun b _ => ?_
    by_cases hb : b.entryId = id
    · have hother : ¬ (b.entryId = i ∧ b.mime = mime) := fun h => hne (hb.symm.trans h.1)
      rw [decide_eq_true hother, Bool.and_true]
    · rw [decide_eq_false hb, Bool.false_and]

/-- A capture of other content writes another row. -/
theorem untouched_upsertEntry (hrow : db.entries.get id = some r) (cipher : Key)
    {e : NewEntry} (hne : e.key ≠ r.key) :
    Untouched id db (db.upsertEntry cipher e).2 ∧ (db.upsertEntry cipher e).1 ≠ id := by
  obtain ⟨hid, hwrote⟩ := wrote_upsertEntry db cipher e
  obtain ⟨hr, rfl⟩ := get_eq_some.mp hrow
  have hfind : (db.upsertEntry cipher e).2.entries.find r.key = some r := by
    rw [hwrote.others r.key hne.symm]
    exact find_eq_some.mpr ⟨hr, rfl⟩
  refine ⟨⟨(get_of_find hfind).trans hrow.symm, ?_⟩, ?_⟩
  · unfold refsOf
    rw [(upsertEntry_eq db cipher e).2]
  · -- the row that was written has another key
    rw [hid]
    intro heq
    obtain ⟨hwritten, hkey⟩ := find_eq_some.mp hwrote.row
    have hsame := eq_of_id_eq hwritten (find_eq_some.mp hfind).1 heq
    rw [hsame] at hkey
    exact hne hkey.symm

end Untouched

/-! ## §2. A deleted row, while other requests run -/

/-- The row `r` is there, its references are those it had in `d0`, and so are their files. -/
structure Parked (d0 : Daemon) (r : EntryRow) (d : Daemon) : Prop where
  row : d.db.entries.get r.id = some r
  refs : d.db.refsOf r.id = d0.db.refsOf r.id
  files : ∀ b ∈ d0.db.refsOf r.id, ∀ f, d0.blobs.file b.blobRef = some f →
    d.blobs.file b.blobRef = some f
  dbCipher : d.dbCipher = d0.dbCipher
  blobCipher : d.blobCipher = d0.blobCipher

section Parked

variable {α : Type} {d0 d d' : Daemon} {r : EntryRow} {env : Env} {i : Nat}

theorem Parked.untouched (h : Parked d0 r d) {db' : Database} (hun : Untouched r.id d.db db') :
    Parked d0 r { d with db := db' } :=
  ⟨hun.row.trans h.row, hun.refs.trans h.refs, h.files, h.dbCipher, h.blobCipher⟩

/-- What was taken away was not of this row. -/
theorem Parked.thinned (h : Parked d0 r d) (hthinned : Thinned d d')
    (hrow : d'.db.entries.get r.id = some r) (hrefs : d'.db.refsOf r.id = d.db.refsOf r.id)
    (hcipher : d'.dbCipher = d.dbCipher) : Parked d0 r d' where
  row := hrow
  refs := hrefs.trans h.refs
  files b hb f hf := by
    have hmem : b ∈ d'.db.entryBlobs := by
      rw [← h.refs, ← hrefs] at hb
      exact (mem_filter.mp hb).1
    rw [hthinned.files b hmem]
    exact h.files b hb f hf
  dbCipher := hcipher.trans h.dbCipher
  blobCipher := hthinned.cipher.trans h.blobCipher

theorem parked_onDb {f : Database → Except Error (α × Database)}
    (hf : ∀ db a db', f db = .ok (a, db') → Untouched r.id db db') :
    Preserves (Parked d0 r) (onDb f) :=
  preserves_of_keeps (keeps_onDb (fun _ h => h) fun d a db' hrun hd =>
    hd.untouched (hf d.db a db' hrun))

theorem parked_changeDb {f : Database → Except Error Database}
    (hf : ∀ db db', f db = .ok db' → Untouched r.id db db') :
    Preserves (Parked d0 r) (changeDb f) :=
  preserves_of_keeps (keeps_changeDb (fun _ h => h) fun d db' hrun hd =>
    hd.untouched (hf d.db db' hrun))

theorem parked_updateDb {f : Database → α × Database} (hf : ∀ db, Untouched r.id db (f db).2) :
    Preserves (Parked d0 r) (updateDb f) :=
  maintains_step fun d hd => ⟨hd.untouched (hf d.db), trivial⟩

theorem parked_tick (d0 : Daemon) (r : EntryRow) :
    Preserves (Parked d0 r) (updateDb tickLamport) :=
  parked_updateDb fun _ => untouched_of_eq rfl rfl

theorem parked_tracked (d0 : Daemon) (hne : i ≠ r.id) (f : Cols → Cols) :
    Preserves (Parked d0 r) (changeDb (fun db => db.changing i (db.trackedUpdate i f))) :=
  parked_changeDb fun _ _ h => untouched_changing hne.symm h

theorem parked_storeBlob (d0 : Daemon) (env : Env) (hne : i ≠ r.id) (mime : String)
    (data : Bytes) : Preserves (Parked d0 r) (storeBlob env i mime data) := by
  refine maintains_bind (preserves_of_keeps (keeps_attempt_map (fun _ h => h)
    fun d ⟨ref, blobs⟩ hput hd => ?_)) fun _ _ =>
      parked_changeDb fun _ _ h => untouched_attachBlob hne.symm h
  obtain ⟨-, hkept, -, -⟩ := BlobStore.put_cases hput
  exact ⟨hd.row, hd.refs, fun b hb f hf => hkept b.blobRef f (hd.files b hb f hf), hd.dbCipher,
    hd.blobCipher⟩

/-! ### Retention -/

/-- A purge leaves a deletion that is not older than it. -/
theorem parked_purge (d0 : Daemon) {before : Int} (htime : before ≤ r.cols.deletedAt) :
    Preserves (Parked d0 r) (purgeTombstonedBefore before) := by
  intro d hd
  refine ⟨?_, fun _ _ => trivial⟩
  have hrow : (d.db.purgeTombstones before).2.entries.get r.id = some r := by
    obtain ⟨hr, -⟩ := get_eq_some.mp hd.row
    rw [entries_purgeTombstones]
    refine get_eq_some.mpr ⟨mem_keepOnly.mpr ⟨hr, ?_⟩, rfl⟩
    have hnot : ¬ r.cols.deletedAt < before := by omega
    simp [hnot]
  have hpurged : refsOf (d.db.purgeTombstones before).2 r.id = d.db.refsOf r.id :=
    (purged_purge _ d.db).formats r (get_eq_some.mp hrow).1
  exact hd.thinned (thinned_purgeTombstonedBefore before d) hrow hpurged rfl

/-- Stripping leaves a deletion that is not older than it. -/
theorem parked_stripDeleted (d0 : Daemon) (htime : env.now - undoGraceSecs ≤ r.cols.deletedAt) :
    Preserves (Parked d0 r) (stripDeleted env) := by
  intro d hd
  refine ⟨?_, fun _ _ => trivial⟩
  have hthinned := thinned_stripDeleted env d
  unfold stripDeleted at hthinned ⊢
  split
  next hon =>
    rw [if_pos hon] at hthinned
    refine hd.thinned hthinned hd.row ?_ rfl
    refine refsOf_filter (fun b => decide (b.entryId ∉ (d.db.entries.rows.filter
      (strippable (env.now - undoGraceSecs))).map Row.id)) ?_ rfl
    intro b _ hb
    rw [decide_eq_true_iff, hb]
    intro hmem
    obtain ⟨r', hr', hid⟩ := mem_map.mp hmem
    obtain ⟨hrow, hstrip⟩ := mem_filter.mp hr'
    rw [eq_of_id_eq hrow (get_eq_some.mp hd.row).1 hid] at hstrip
    have hnot : ¬ r.cols.deletedAt < env.now - undoGraceSecs := by omega
    simp [strippable, hnot] at hstrip
  next => exact hd

/-- Tombstones are kept at least as long as they can be undone. -/
theorem purgeCutoff_le (env : Env) : purgeCutoff env ≤ env.now - undoGraceSecs := by
  have hdays := env.config.tombstoneDays_range.1
  unfold purgeCutoff undoGraceSecs
  split
  · omega
  · exact le_refl _

/-! ### Requests -/

/-- A capture of other content, up to its thumbnail. -/
theorem parked_storeRow (d0 : Daemon) {data : ClipboardData} (hne : keyOf env data ≠ r.key) :
    Maintains (Parked d0 r) (storeRow env data) (fun i => i ≠ r.id) := by
  unfold storeRow
  refine maintains_bind (parked_tick d0 r) fun lamport _ => ?_
  refine maintains_bind (Q := fun i => i ≠ r.id) (maintains_step fun d hd => ?_) fun i hi => ?_
  · obtain ⟨hun, hid⟩ := untouched_upsertEntry hd.row d.dbCipher
      (e := newEntry env data lamport) hne
    exact ⟨hd.untouched hun, hid⟩
  · refine maintains_bind (parked_tracked d0 hi _) fun _ _ => ?_
    refine maintains_bind (Q := fun _ => True) ?_ fun _ _ => ?_
    · unfold markSecret
      split
      · exact parked_updateDb fun _ => untouched_plainUpdate hi.symm _
      · exact maintains_pure trivial
    refine maintains_bind (Q := fun _ => True) ?_ fun _ _ => ?_
    · unfold indexCapture
      split
      · split
        · exact parked_updateDb fun _ => untouched_of_eq rfl rfl
        · exact maintains_pure trivial
      · exact maintains_pure trivial
    refine maintains_bind (maintains_forM fun p _ =>
      parked_storeBlob d0 env hi p.mime p.data) fun _ _ => ?_
    exact maintains_pure hi

theorem parked_importEntry (d0 : Daemon) {record : BackupEntry} {payloads : List MimePayload}
    (hne : (⟨env.hash.payloadHash payloads, record.selection⟩ : EntryKey) ≠ r.key) :
    Preserves (Parked d0 r) (importEntry env record payloads) := by
  unfold importEntry
  refine maintains_bind (parked_tick d0 r) fun lamport _ => ?_
  refine maintains_bind (Q := fun i => i ≠ r.id) (maintains_step fun d hd => ?_) fun i hi => ?_
  · obtain ⟨hun, hid⟩ := untouched_upsertEntry hd.row d.dbCipher
      (e := importedEntry env record payloads lamport) hne
    exact ⟨hd.untouched hun, hid⟩
  · refine maintains_bind (parked_tracked d0 hi _) fun _ _ => ?_
    refine maintains_bind (Q := fun _ => True) ?_ fun _ _ => ?_
    · unfold markImported
      split
      · exact parked_updateDb fun _ => untouched_plainUpdate hi.symm _
      · split
        · dsimp only
          split
          · exact parked_updateDb fun _ => untouched_of_eq rfl rfl
          · exact maintains_pure trivial
        · exact maintains_pure trivial
    refine maintains_bind (maintains_forM fun p _ =>
      parked_storeBlob d0 env hi p.mime p.data) fun _ _ => ?_
    refine maintains_bind (Q := fun _ => True) ?_ fun _ _ => maintains_look _
    unfold pinImported
    split
    · exact parked_tracked d0 hi _
    · exact maintains_pure trivial

theorem parked_restoreRow (d0 : Daemon) (hne : i ≠ r.id) :
    Preserves (Parked d0 r) (restoreRow i) := by
  refine preserves_of_keeps (keeps_attempt_map (fun _ h => h) fun d db' hrun hd =>
    hd.untouched ?_)
  obtain ⟨entry, -, hrest⟩ := Fallible.bind_ok_iff.mp hrun
  split at hrest
  · cases hrest
    exact (untouched_trackedUpdate hne.symm _).trans (untouched_of_eq rfl rfl)
  · cases hrest
    exact Untouched.refl r.id d.db

/-- **No statement about other entries spoils a deletion that can still be undone.** -/
theorem outlasts_parked (d0 : Daemon) (hdel : r.cols.deleted = true)
    (htime : env.now - undoGraceSecs ≤ r.cols.deletedAt) :
    Outlasts env (Parked d0 r) (· ≠ r.id) (· ≠ r.key) where
  evictable hd r' hr' hid := by
    obtain ⟨hr', hlive, -⟩ := mem_liveUnpinned.mp hr'
    rw [eq_of_id_eq hr' (get_eq_some.mp hd.row).1 hid, hdel] at hlive
    exact Bool.noConfusion hlive
  tombstone hi _ := parked_onDb fun _ _ _ h => untouched_tombstone (Ne.symm hi) h
  strip := parked_stripDeleted d0 htime
  purge := parked_purge d0 ((purgeCutoff_le env).trans htime)
  tracked hi f := parked_tracked d0 hi f
  times hi _ _ := parked_changeDb fun _ _ h =>
    changing_eq h ▸ untouched_plainUpdate (Ne.symm hi) _
  thumbnail hi png := parked_storeBlob d0 env hi thumbnailMime png
  clock hd _ := hd.untouched (untouched_of_eq rfl rfl)
  named hd r' hr' hkey hid := hkey
    (congrArg Row.key (eq_of_id_eq hr' (get_eq_some.mp hd.row).1 hid))
  row hkey := parked_storeRow d0 hkey
  lifted hi := parked_restoreRow d0 hi

theorem parked_maintain (d0 : Daemon) (hdel : r.cols.deleted = true)
    (htime : env.now - undoGraceSecs ≤ r.cols.deletedAt) :
    Preserves (Parked d0 r) (maintain env) := by
  intro d hd
  refine ⟨?_, fun _ _ => trivial⟩
  obtain ⟨d1, removed, hgc, hrun⟩ := exec_maintain env d
  have hpass := ((outlasts_parked d0 hdel htime).collectGarbage d hd).1
  rw [hgc] at hpass
  rw [hrun]
  refine ⟨hpass.row, hpass.refs, ?_, hpass.dbCipher, hpass.blobCipher⟩
  intro b hb f hf
  -- what is referred to is no orphan
  have hused : b.blobRef ∉ orphans d1 := by
    intro hmem
    rw [← hpass.refs] at hb
    exact of_decide_eq_true (mem_filter.mp hmem).2
      (mem_map_of_mem (mem_filter.mp hb).1)
  show ((orphans d1).foldl BlobStore.removeOrWarn d1.blobs).file b.blobRef = some f
  rw [BlobStore.file_removeAll hused]
  exact hpass.files b hb f hf

end Parked

/-! ## §3. Runs on other entries -/

namespace Segment

/-- When it runs; a purge of its own counts from the end of the undo window. -/
def time : Segment → Int
  | .capture env _ | .captured env _ _ | .preview env _ _ | .imported env _ _ | .pin env _ _
  | .delete env _ | .restore env _ | .clear env | .receive env _ | .received env _ _ _
  | .retention env | .maintain env => env.now
  | .purge before => before + undoGraceSecs

/-- It is about other entries than the one with this key and id. -/
def Spares (k : EntryKey) (id : Nat) : Segment → Prop
  | .capture env data => keyOf env data ≠ k
  | .imported env record payloads => (⟨env.hash.payloadHash payloads, record.selection⟩ : EntryKey) ≠ k
  | .receive _ sent => sent.key ≠ k
  | .captured _ i _ | .preview _ i _ | .pin _ i _ | .delete _ i | .restore _ i
  | .received _ _ i _ => i ≠ id
  | .clear _ | .retention _ | .purge _ | .maintain _ => True

/-- **What is done to other entries leaves a deletion that can still be undone.** -/
theorem parked (s : Segment) (d0 : Daemon) {r : EntryRow} (hdel : r.cols.deleted = true)
    (htime : s.time - undoGraceSecs ≤ r.cols.deletedAt) (hspares : s.Spares r.key r.id) :
    Preserves (Parked d0 r) s.request := by
  have hdrop : ∀ {α : Type} {x : Request α} {Q : α → Prop}, Maintains (Parked d0 r) x Q →
      Preserves (Parked d0 r) (do let _ ← x) :=
    fun hx => maintains_bind hx fun _ _ => maintains_pure trivial
  cases s with
  | capture env data => exact hdrop (parked_storeRow d0 hspares)
  | captured env i thumbnail => exact hdrop ((outlasts_parked d0 hdel htime).storeRest hspares thumbnail)
  | preview env i png => exact parked_storeBlob d0 env hspares thumbnailMime png
  | imported env record payloads => exact hdrop (parked_importEntry d0 hspares)
  | pin env i pinned => exact (outlasts_parked d0 hdel htime).setPinned hspares pinned
  | delete env i => exact (outlasts_parked d0 hdel htime).delete hspares
  | restore env i => exact hdrop ((outlasts_parked d0 hdel htime).restore hspares)
  | clear env => exact hdrop (outlasts_parked d0 hdel htime).clear
  | receive env sent => exact hdrop ((outlasts_parked d0 hdel htime).beginRecord hspares)
  | received env record i thumbnail =>
    exact hdrop ((outlasts_parked d0 hdel htime).finishNew hspares record thumbnail)
  | retention env => exact hdrop (outlasts_parked d0 hdel htime).collectGarbage
  | purge before =>
    have hbefore : before + undoGraceSecs - undoGraceSecs ≤ r.cols.deletedAt := htime
    exact parked_purge d0 (by omega)
  | maintain env => exact hdrop (parked_maintain d0 hdel htime)

end Segment

/-- **A run on other entries** leaves it too. -/
theorem parked_runSegments (d0 : Daemon) {r : EntryRow} (hdel : r.cols.deleted = true) :
    ∀ (segments : List Segment) (d : Daemon),
      (∀ s ∈ segments, s.time - undoGraceSecs ≤ r.cols.deletedAt ∧ s.Spares r.key r.id) →
      Parked d0 r d → Parked d0 r (runSegments d segments) := by
  intro segments
  induction segments with
  | nil => exact fun _ _ hd => hd
  | cons s segments ih =>
    intro d hsegments hd
    obtain ⟨⟨htime, hspares⟩, hrest⟩ := forall_mem_cons.mp hsegments
    exact ih _ hrest (s.parked d0 hdel htime hspares d hd).1

/-! ## §4. The deletion and its undo -/

/-- The database once a row is stamped with the next local Lamport value. -/
def stampedDb (env : Env) (id : Nat) (db : Database) : Database :=
  db.tickLamport.2.trackedUpdate id (fun c => c.stamped db.tickLamport.1 env.deviceId)

/-- The row as a deletion leaves it. -/
def deletedRow (r : EntryRow) (now lamport : Int) (deviceId : String) (seq : Nat) : EntryRow :=
  { r with cols := (((r.cols.tombstoned now).stamped lamport deviceId).numbered seq) }

/-- The row as an undo leaves it. -/
def undeletedRow (r : EntryRow) (lamport : Int) (deviceId : String) (seq : Nat) : EntryRow :=
  { r with cols := ((r.cols.restored.stamped lamport deviceId).numbered seq) }

section Undo

variable {env : Env} {d d' : Daemon} {id : Nat} {r : EntryRow}

theorem exec_stampLocal_eq (env : Env) (h : d.db.entries.get id = some r) :
    exec (stampLocal env id) d = (.ok (), { d with db := stampedDb env id d.db }) := by
  have hstamp : d.db.tickLamport.2.stamp id d.db.tickLamport.1 env.deviceId
      = .ok (stampedDb env id d.db) := by
    have hget : d.db.tickLamport.2.entries.get id = some r := h
    unfold stamp changing
    rw [hget]
    rfl
  unfold stampLocal
  rw [exec_bind_ok (exec_updateDb _ d)]
  exact exec_changeDb_ok hstamp

theorem get_stampedDb (env : Env) {db : Database} (h : db.entries.get id = some r) :
    ∃ lamport seq, (stampedDb env id db).entries.get id
      = some { r with cols := (r.cols.stamped lamport env.deviceId).numbered seq } := by
  have hget : db.tickLamport.2.entries.get id = some r := h
  exact ⟨_, _, get_trackedUpdate hget _⟩

theorem entryBlobs_stampedDb (env : Env) (id : Nat) (db : Database) :
    (stampedDb env id db).entryBlobs = db.entryBlobs := entryBlobs_trackedUpdate _ _ _

theorem entriesFts_stampedDb (env : Env) (id : Nat) (db : Database) :
    (stampedDb env id db).entriesFts = db.entriesFts := entriesFts_trackedUpdate _ _ _

/-- **A deletion leaves the row marked**, with its references and blobs. -/
theorem parked_of_delete (h : exec (delete env id) d = (.ok (), d')) :
    ∃ r lamport seq, d.db.entries.get id = some r ∧ r.cols.deleted = false ∧
      Parked d (deletedRow r env.now lamport env.deviceId seq) d' := by
  unfold delete at h
  cases hget : d.db.entries.get id with
  | none =>
    rw [exec_bind_error (exec_getEntry_error hget)] at h
    cases h
  | some r =>
    obtain ⟨-, hid⟩ := get_eq_some.mp hget
    rw [exec_bind_ok (exec_getEntry_ok hget)] at h
    have hentry : (rowToEntry d.dbCipher r).deleted = r.cols.deleted := rfl
    rw [hentry] at h
    by_cases hdel : r.cols.deleted = true
    · rw [if_pos hdel] at h
      cases h
    · rw [if_neg hdel] at h
      -- the tombstone
      have htombstone : d.db.tombstone id env.now = .ok ((d.db.blobsOf id).map BlobRow.blobRef,
          { d.db.trackedUpdate id (fun c => c.tombstoned env.now) with
            entriesFts := (d.db.trackedUpdate id (fun c => c.tombstoned env.now)).entriesFts.filter
              (fun f => f.rowid ≠ id) }) := by
        unfold tombstone changing
        rw [hget]
        rfl
      rw [exec_bind_ok (exec_onDb_ok htombstone)] at h
      have hget1 := get_trackedUpdate hget (fun c => c.tombstoned env.now)
      -- its stamp
      generalize hdb1 : ({ d.db.trackedUpdate id (fun c => c.tombstoned env.now) with
        entriesFts := (d.db.trackedUpdate id (fun c => c.tombstoned env.now)).entriesFts.filter
          (fun f => f.rowid ≠ id) } : Database) = db1 at h
      have hrow1 : db1.entries.get id
          = some { r with cols := (r.cols.tombstoned env.now).numbered (d.db.changeSeq + 1) } := by
        rw [← hdb1]
        exact hget1
      have hrefs1 : db1.entryBlobs = d.db.entryBlobs := by
        rw [← hdb1]
        exact entryBlobs_trackedUpdate _ _ _
      have hstamp := exec_stampLocal_eq (d := { d with db := db1 }) env hrow1
      obtain ⟨lamport, seq, hget2⟩ := get_stampedDb env hrow1
      rw [exec_bind_ok hstamp] at h
      -- and a retention pass
      have hparked : Parked d (deletedRow r env.now lamport env.deviceId seq)
          { d with db := stampedDb env id db1 } := by
        have hrefs : (stampedDb env id db1).refsOf r.id = d.db.refsOf r.id := by
          unfold refsOf
          rw [entryBlobs_stampedDb, hrefs1]
        refine ⟨?_, hrefs, fun _ _ _ hf => hf, rfl, rfl⟩
        show (stampedDb env id db1).entries.get r.id = _
        rw [hid]
        exact hget2
      have htime : env.now - undoGraceSecs ≤ env.now := by
        unfold undoGraceSecs
        omega
      have hpass : Parked d (deletedRow r env.now lamport env.deviceId seq)
          (exec (collectGarbage env) { d with db := stampedDb env id db1 }).2 :=
        ((outlasts_parked d rfl htime).collectGarbage _ hparked).1
      obtain ⟨d2, hgc, -⟩ := exec_collectGarbage env { d with db := stampedDb env id db1 }
      rw [exec_bind_ok hgc] at h
      rw [hgc] at hpass
      cases h
      exact ⟨r, lamport, seq, rfl, by simpa using hdel, hpass⟩

/-- **An undo lifts the mark**, and writes the row of the index anew. -/
theorem exec_restore_of_deleted {entry : Entry} (hrow : d.db.entries.get id = some r)
    (hdel : r.cols.deleted = true) (h : exec (restore env id) d = (.ok entry, d')) :
    (∃ lamport seq, d'.db.entries.get id = some (undeletedRow r lamport env.deviceId seq)) ∧
      d'.db.entryBlobs = d.db.entryBlobs ∧ d'.blobs = d.blobs ∧ d'.dbCipher = d.dbCipher ∧
      d'.blobCipher = d.blobCipher ∧
      d'.db.ftsAt id = [⟨id, (rowToEntry d.dbCipher r).preview, none⟩] := by
  have htime : d.db.deletedAt id = .ok (some r.cols.deletedAt) := by
    unfold deletedAt
    rw [hrow]
    show Except.ok (if r.cols.deleted then _ else _) = _
    rw [if_pos hdel]
  have hfirst : exec (attempt (ε := Error) (fun d : Daemon =>
      (d.db.deletedAt id).map (fun time => (time, d)))) d = (.ok (some r.cols.deletedAt), d) :=
    exec_attempt_ok (by rw [htime]; rfl)
  unfold restore at h
  rw [exec_bind_ok hfirst] at h
  by_cases hpast : pastUndo env (some r.cols.deletedAt) = true
  · rw [if_pos hpast] at h
    cases h
  · rw [if_neg hpast] at h
    -- the mark
    have hdb : d.db.restore d.dbCipher id = .ok ((d.db.trackedUpdate id Cols.restored).reindex id
        (rowToEntry d.dbCipher r).preview) := by
      have hentry : (rowToEntry d.dbCipher r).deleted = r.cols.deleted := rfl
      unfold Database.restore Database.get
      rw [hrow]
      show (if (rowToEntry d.dbCipher r).deleted then _ else _) = _
      rw [hentry, if_pos hdel]
    generalize hdb1 : (d.db.trackedUpdate id Cols.restored).reindex id
      (rowToEntry d.dbCipher r).preview = db1 at hdb
    have hmark : exec (restoreRow id) d = (.ok (), { d with db := db1 }) :=
      exec_attempt_ok (by rw [hdb]; rfl)
    rw [exec_bind_ok hmark] at h
    have hrow1 : db1.entries.get id
        = some { r with cols := r.cols.restored.numbered (d.db.changeSeq + 1) } := by
      rw [← hdb1]
      exact get_trackedUpdate hrow Cols.restored
    have hrefs1 : db1.entryBlobs = d.db.entryBlobs := by
      rw [← hdb1]
      exact entryBlobs_trackedUpdate _ _ _
    have hfts1 : db1.ftsAt id = [⟨id, (rowToEntry d.dbCipher r).preview, none⟩] := by
      rw [← hdb1]
      unfold ftsAt reindex
      rw [filter_append, filter_filter]
      have hnone : (d.db.trackedUpdate id Cols.restored).entriesFts.filter
          (fun f => decide (f.rowid = id) && decide (f.rowid ≠ id)) = [] := by
        refine filter_eq_nil_iff.mpr fun f _ hf => ?_
        simp only [Bool.and_eq_true, decide_eq_true_eq] at hf
        exact hf.2 hf.1
      rw [hnone]
      simp
    -- its stamp
    have hstamp := exec_stampLocal_eq (d := { d with db := db1 }) env hrow1
    obtain ⟨lamport, seq, hget2⟩ := get_stampedDb env hrow1
    rw [exec_bind_ok hstamp, exec_getEntry_ok hget2] at h
    cases h
    refine ⟨⟨lamport, seq, hget2⟩, ?_, rfl, rfl, rfl, ?_⟩
    · show (stampedDb env id db1).entryBlobs = _
      rw [entryBlobs_stampedDb, hrefs1]
    · rw [← hfts1]
      unfold ftsAt
      show (stampedDb env id db1).entriesFts.filter _ = _
      rw [entriesFts_stampedDb]

end Undo

/-! ## §5. What is given back -/

/-- The entry is what it was, but for its stamp: every column a query shows, its payloads, and
    the searches that find it. -/
structure GivenBack (t : TextEngine) (id : Nat) (d d' : Daemon) : Prop where
  entry : ∃ e lamport deviceId, d.db.get d.dbCipher id = .ok e ∧
    d'.db.get d'.dbCipher id = .ok { e with lamport, deviceId }
  payloads : ∀ payloads, loadPayloads d id = .ok payloads → loadPayloads d' id = .ok payloads
  searches : ∀ q, d.db.finds d.dbCipher t q id = true → d'.db.finds d'.dbCipher t q id = true

/-- No search needs the indexed text to find the entry: what finds it also matches it with its
    preview alone in the index. -/
def FoundByPreview (t : TextEngine) (id : Nat) (d : Daemon) : Prop :=
  ∀ e, d.db.get d.dbCipher id = .ok e → ∀ q, d.db.finds d.dbCipher t q id = true →
    q.matchesEntry t e [⟨id, e.preview, none⟩] = true

/-- **The undo of a deletion gives the entry back exactly when no search needs the indexed text
    to find it**, whatever was done to other entries in between. -/
theorem undo_gives_back_iff (t : TextEngine) {env envR : Env} {id : Nat} {d d1 d3 : Daemon}
    {entry : Entry} {segments : List Segment}
    (hdelete : Op.exec (delete env id) d = (.ok (), d1))
    (hspares : ∀ r, d.db.entries.get id = some r → ∀ s ∈ segments, s.Spares r.key id)
    (hclock : (env.now :: segments.map Segment.time ++ [envR.now]).Pairwise (· ≤ ·))
    (hwindow : envR.now - undoGraceSecs ≤ env.now)
    (hrestore : Op.exec (restore envR id) (runSegments d1 segments) = (.ok entry, d3)) :
    GivenBack t id d d3 ↔ FoundByPreview t id d := by
  obtain ⟨r, lamport, seq, hget, hlive, hparked1⟩ := parked_of_delete hdelete
  obtain ⟨hr, hid⟩ := get_eq_some.mp hget
  -- the row is still there when the undo comes
  have hparked : Parked d (deletedRow r env.now lamport env.deviceId seq)
      (runSegments d1 segments) := by
    refine parked_runSegments d rfl segments d1 (fun s hs => ⟨?_, ?_⟩) hparked1
    · have hle : s.time ≤ envR.now := (pairwise_append.mp hclock).2.2 s.time
        (mem_cons_of_mem _ (mem_map_of_mem hs)) envR.now (mem_singleton.mpr rfl)
      show s.time - undoGraceSecs ≤ env.now
      omega
    · have hother := hspares r hget s hs
      rw [← hid] at hother
      exact hother
  have hrow2 : (runSegments d1 segments).db.entries.get id
      = some (deletedRow r env.now lamport env.deviceId seq) := by
    rw [← hid]
    exact hparked.row
  obtain ⟨⟨lamport', seq', hget3⟩, hrefs, hblobs, hdbCipher, hblobCipher, hfts⟩ :=
    exec_restore_of_deleted hrow2 rfl hrestore
  have hcipher : d3.dbCipher = d.dbCipher := hdbCipher.trans hparked.dbCipher
  -- what a query shows of the row
  have hentry : d.db.get d.dbCipher id = .ok (rowToEntry d.dbCipher r) := by
    rw [Database.get, hget]
  have hshown : rowToEntry d3.dbCipher (undeletedRow
        (deletedRow r env.now lamport env.deviceId seq) lamport' envR.deviceId seq')
      = { rowToEntry d.dbCipher r with
          lamport := lamport', deviceId := envR.deviceId } := by
    rw [hcipher]
    simp [rowToEntry, undeletedRow, deletedRow, Cols.tombstoned, Cols.restored,
      Cols.stamped, Cols.numbered, hlive]
  have hentry3 : d3.db.get d3.dbCipher id = .ok { rowToEntry d.dbCipher r with
      lamport := lamport', deviceId := envR.deviceId } := by
    rw [Database.get, hget3, ← hshown]
  have hfinds : ∀ q, d3.db.finds d3.dbCipher t q id = q.matchesEntry t
      (rowToEntry d.dbCipher r) [⟨id, (rowToEntry d.dbCipher r).preview, none⟩] := by
    intro q
    have hpreview : (rowToEntry (runSegments d1 segments).dbCipher
        (deletedRow r env.now lamport env.deviceId seq)).preview
        = (rowToEntry d.dbCipher r).preview := by
      rw [hparked.dbCipher]
      rfl
    unfold finds
    rw [hget3, hfts, hpreview]
    show q.matchesEntry t (rowToEntry d3.dbCipher _) _ = _
    rw [hshown]
    rfl
  have hpayloads : ∀ payloads, loadPayloads d id = .ok payloads →
      loadPayloads d3 id = .ok payloads := by
    intro payloads hload
    obtain ⟨hr3, hid3⟩ := get_eq_some.mp hget3
    have hrefsOf : d3.db.refsOf r.id = d.db.refsOf r.id := by
      have hsame : d3.db.refsOf r.id = (runSegments d1 segments).db.refsOf r.id := by
        unfold refsOf
        rw [hrefs]
      exact hsame.trans hparked.refs
    have hformats : SameFormats d d3 r.id := by
      refine ⟨formatsOf_congr hrefsOf, hblobCipher.trans hparked.blobCipher, ?_⟩
      intro b hb f hf
      obtain ⟨hb, hbid, -⟩ := mem_formatsOf.mp hb
      rw [hblobs]
      exact hparked.files b (mem_filter.mpr ⟨hb, decide_eq_true hbid⟩) f hf
    rw [← hid] at hload
    rw [← hid3]
    exact loadPayloads_of_same hr hlive hr3 rfl (hid3.trans hid.symm) hformats hload
  constructor
  · intro hback e he q hq
    rw [hentry] at he
    cases he
    rw [← hfinds q]
    exact hback.searches q hq
  · intro hfound
    refine ⟨⟨_, lamport', envR.deviceId, hentry, hentry3⟩, hpayloads, ?_⟩
    intro q hq
    rw [hfinds q]
    exact hfound _ hentry q hq

namespace Sample

/-- A word is found where it occurs. -/
def plainEngine : TextEngine where
  matchesRow words phrases preview content :=
    (words ++ phrases).all (fun w => decide (w.toList <:+: preview.toList) ||
      content.any (fun text => decide (w.toList <:+: text.toList)))
  compile _ := none
  contains app name := decide (name.toList <:+: app.toList)

/-- A search for one word. -/
def searchFor (word : String) : QueryFilter where
  parsed := ⟨[word], [], none, none, none, none, none, none⟩
  kind := none
  app := none
  before := none
  after := none
  regex := none
  pinnedOnly := false

/-- An environment in which the text goes on after the preview. -/
def longTexts : Env :=
  { env with content := { content with indexText := fun _ _ => some "note and more" } }

/-- A daemon that holds a long text. -/
def longText : Daemon := stored longTexts plainNote (blank [1])

/-- The daemon once the text is deleted, and once that is undone. -/
def deletedText : Daemon := (exec (delete longTexts 1) longText).2

def undoneText : Daemon := (exec (restore longTexts 1) deletedText).2

/-- **A word beyond the preview** finds the entry before the deletion and not after its undo,
    though the undo succeeds. -/
theorem undo_loses_full_text :
    (Op.exec (delete longTexts 1) longText).1 = .ok () ∧
      (Op.exec (restore longTexts 1) deletedText).1.toBool = true ∧
      longText.db.finds longText.dbCipher plainEngine (searchFor "more") 1 = true ∧
      undoneText.db.finds undoneText.dbCipher plainEngine (searchFor "more") 1 = false ∧
      ¬ GivenBack plainEngine 1 longText undoneText := by
  have hbefore : longText.db.finds longText.dbCipher plainEngine (searchFor "more") 1 = true := by
    decide +kernel
  have hafter : undoneText.db.finds undoneText.dbCipher plainEngine (searchFor "more") 1
      = false := by decide +kernel
  refine ⟨by decide +kernel, by decide +kernel, hbefore, hafter, ?_⟩
  intro hback
  have hfinds := hback.searches (searchFor "more") hbefore
  rw [hafter] at hfinds
  exact Bool.false_ne_true hfinds

/-- A daemon that holds a text that is all preview. -/
def shortText : Daemon := stored env plainNote (blank [1])

/-- Another copy, and the hourly upkeep. -/
def meanwhile : List Segment :=
  [.capture env twoFormats, .captured env 2 none, .maintain env]

/-- A text that is all preview is given back. -/
theorem undo_gives_back_iff_short :
    ∃ d1 entry d3, Op.exec (delete env 1) shortText = (.ok (), d1) ∧
      Op.exec (restore env 1) (runSegments d1 meanwhile) = (.ok entry, d3) ∧
      GivenBack plainEngine 1 shortText d3 := by
  cases hdelete : exec (delete env 1) shortText with
  | mk result d1 =>
    have hok : result = .ok () := by
      have hfst : (exec (delete env 1) shortText).1 = .ok () := by decide +kernel
      rw [hdelete] at hfst
      exact hfst
    subst hok
    have hd1 : d1 = (exec (delete env 1) shortText).2 := by rw [hdelete]
    cases hrestore : exec (restore env 1) (runSegments d1 meanwhile) with
    | mk result d3 =>
      cases result with
      | error e =>
        have hsome : (exec (restore env 1) (runSegments
            (exec (delete env 1) shortText).2 meanwhile)).1.toBool = true := by decide +kernel
        rw [← hd1, hrestore] at hsome
        exact absurd hsome Bool.false_ne_true
      | ok entry =>
        refine ⟨d1, entry, d3, rfl, hrestore, (undo_gives_back_iff plainEngine hdelete ?_
          (by decide +kernel) (by decide +kernel) hrestore).mpr ?_⟩
        · intro r hr
          have hkey : r.key = keyOf env plainNote := by
            have hrow : ∀ r ∈ shortText.db.entries.rows, r.key = keyOf env plainNote := by
              decide +kernel
            exact hrow r (get_eq_some.mp hr).1
          rw [hkey]
          intro s hs
          simp only [meanwhile, mem_cons, not_mem_nil, or_false] at hs
          rcases hs with rfl | rfl | rfl
          · show keyOf env twoFormats ≠ keyOf env plainNote
            decide +kernel
          · show 2 ≠ 1
            decide
          · exact trivial
        · -- the index has the preview alone
          have hfts : shortText.db.ftsAt 1 = [⟨1, "note", none⟩] := by decide +kernel
          intro e he q hq
          have hpreview : e.preview = "note" := by
            have hgot : (shortText.db.get shortText.dbCipher 1).map Entry.preview
                = .ok "note" := by decide +kernel
            rw [he] at hgot
            exact Except.ok.inj hgot
          unfold finds at hq
          unfold Database.get at he
          cases hget : shortText.db.entries.get 1 with
          | none =>
            rw [hget] at hq
            exact absurd hq Bool.false_ne_true
          | some r =>
            rw [hget, hfts] at hq
            rw [hget] at he
            rw [hpreview, ← Except.ok.inj he]
            exact hq

end Sample

end Panora.Panod
