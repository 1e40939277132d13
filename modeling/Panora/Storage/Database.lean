/-
  Panora.Storage.Database — the history database.

  `crates/panora-core/src/storage/db.rs`: the tables and the statements the
  daemon runs on them.  A statement that names a row fails with `notFound` when
  there is none.  Where a statement reads or writes a preview it takes the cipher.

  The change counter: a trigger numbers every inserted row, and every row whose
  Lamport value, device, deletion or pin a statement sets.  `trackedUpdate` is an
  UPDATE that fires it, `plainUpdate` one that does not.
-/
import Panora.Lib.Table
import Panora.Storage.Cipher

namespace Panora.Storage

open Lib Lib.Table

/-! ## §1. Tables -/

/-- The columns of a row of `entries` besides its id, content hash and selection. -/
structure Cols where
  preview : Envelope String
  kind : ContentKind
  primaryMime : String
  sizeBytes : Int
  sourceApp : Option String
  createdAt : Int
  lastSeenAt : Int
  pinned : Bool
  /-- Looks like a secret. -/
  sensitive : Bool
  deviceId : String
  lamport : Int
  deleted : Bool
  /-- When the tombstone was set; 0 for a retention eviction. -/
  deletedAt : Int
  /-- The local change counter the sync feed follows. -/
  changeSeq : Nat
  deriving DecidableEq, Repr

namespace Cols

/-- The row takes a change number. -/
def numbered (c : Cols) (changeSeq : Nat) : Cols := { c with changeSeq }

/-- The row's state was made by a device at a Lamport value. -/
def stamped (c : Cols) (lamport : Int) (deviceId : String) : Cols := { c with lamport, deviceId }

def pinnedAs (c : Cols) (pinned : Bool) : Cols := { c with pinned }

def timed (c : Cols) (createdAt lastSeenAt : Int) : Cols := { c with createdAt, lastSeenAt }

def seenAt (c : Cols) (lastSeenAt : Int) : Cols := { c with lastSeenAt }

/-- The earliest creation and the latest sighting either side knows of. -/
def widened (c : Cols) (createdAt lastSeenAt : Int) : Cols :=
  c.timed (min c.createdAt createdAt) (max c.lastSeenAt lastSeenAt)

def tombstoned (c : Cols) (now : Int) : Cols := { c with deleted := true, deletedAt := now }

def restored (c : Cols) : Cols := { c with deleted := false, deletedAt := 0 }

/-- The row looks like a secret. -/
def flagged (c : Cols) : Cols := { c with sensitive := true }

end Cols

/-- A row of `entries`. -/
abbrev EntryRow := Row EntryKey Cols

/-- A row of `entry_blobs`. -/
structure BlobRow where
  entryId : Nat
  mime : String
  blobRef : String
  deriving DecidableEq, Repr

/-- A row of the search index; it holds plain text. -/
structure FtsRow where
  rowid : Nat
  preview : String
  content : Option String
  deriving DecidableEq, Repr

/-- The database file: its tables, and what `meta` holds. -/
structure Database where
  entries : Table EntryKey Cols
  entryBlobs : List BlobRow
  entriesFts : List FtsRow
  lamportClock : Option Int
  changeSeq : Nat
  keyFingerprint : Option String
  rotationState : Option String
  deriving DecidableEq

/-- A history entry as the queries return it. -/
structure Entry where
  id : Nat
  contentHash : String
  preview : String
  kind : ContentKind
  primaryMime : String
  sizeBytes : Int
  sourceApp : Option String
  selection : Selection
  createdAt : Int
  lastSeenAt : Int
  pinned : Bool
  sensitive : Bool
  deviceId : String
  lamport : Int
  deleted : Bool
  deriving DecidableEq, Repr

namespace Database

/-- The file of a new history. -/
def empty : Database := ⟨Table.empty, [], [], none, 0, none, none⟩

variable (db : Database)

/-- What binds a preview to its row. -/
def previewAad (contentHash : String) : String := "panora/entry-preview/v1/" ++ contentHash

/-- A row as an entry; a preview that does not open shows as such. -/
def rowToEntry (cipher : Key) (r : EntryRow) : Entry where
  id := r.id
  contentHash := r.key.contentHash
  preview := (openStored cipher (previewAad r.key.contentHash) r.cols.preview).getD
    "[decryption failed]"
  kind := r.cols.kind
  primaryMime := r.cols.primaryMime
  sizeBytes := r.cols.sizeBytes
  sourceApp := r.cols.sourceApp
  selection := r.key.selection
  createdAt := r.cols.createdAt
  lastSeenAt := r.cols.lastSeenAt
  pinned := r.cols.pinned
  sensitive := r.cols.sensitive
  deviceId := r.cols.deviceId
  lamport := r.cols.lamport
  deleted := r.cols.deleted

/-- Fetch a single entry by id; tombstoned rows too. -/
def get (db : Database) (cipher : Key) (id : Nat) : Except Error Entry :=
  match db.entries.get id with
  | some r => .ok (rowToEntry cipher r)
  | none => .error (.notFound id)

/-- The row holding this content in this selection, tombstoned or not. -/
def find (db : Database) (cipher : Key) (k : EntryKey) : Option Entry :=
  (db.entries.find k).map (rowToEntry cipher)

/-! ## §2. Updates of one row -/

/-- An UPDATE of columns the change counter does not follow. -/
def plainUpdate (id : Nat) (f : Cols → Cols) : Database :=
  { db with entries := db.entries.update id f }

/-- An UPDATE that sets the Lamport value, device, deletion or pin: the row takes
    the next change number. -/
def trackedUpdate (id : Nat) (f : Cols → Cols) : Database :=
  match db.entries.get id with
  | none => db
  | some _ =>
    { db with
      changeSeq := db.changeSeq + 1
      entries := db.entries.update id (fun c => (f c).numbered (db.changeSeq + 1)) }

/-- A statement that must change a row. -/
def changing (id : Nat) (after : Database) : Except Error Database :=
  match db.entries.get id with
  | none => .error (.notFound id)
  | some _ => .ok after

/-- Mark a row's current state as made by `deviceId` at `lamport`. -/
def stamp (id : Nat) (lamport : Int) (deviceId : String) : Except Error Database :=
  db.changing id (db.trackedUpdate id (fun c => c.stamped lamport deviceId))

/-- Set or clear the pinned flag. -/
def setPinned (id : Nat) (pinned : Bool) : Except Error Database :=
  db.changing id (db.trackedUpdate id (fun c => c.pinnedAs pinned))

/-- Set a row's timestamps outright. -/
def setTimes (id : Nat) (createdAt lastSeenAt : Int) : Except Error Database :=
  db.changing id (db.plainUpdate id (fun c => c.timed createdAt lastSeenAt))

/-- Take over another device's state: pin flag, the earliest creation and latest
    sighting, and the stamp. -/
def applyRemoteState (id : Nat) (pinned : Bool) (createdAt lastSeenAt : Int)
    (lamport : Int) (deviceId : String) : Except Error Database :=
  db.changing id (db.trackedUpdate id (fun c =>
    ((c.pinnedAs pinned).widened createdAt lastSeenAt).stamped lamport deviceId))

/-- Flag an entry as sensitive. -/
def markSensitive (id : Nat) : Database :=
  db.plainUpdate id Cols.flagged

/-! ## §3. Tombstones -/

/-- List blob references of an entry.  SQLite answers from the index of the
    primary key, so they come in the order of their MIME types. -/
def blobsOf (entryId : Nat) : List BlobRow :=
  (db.entryBlobs.filter (fun b => b.entryId = entryId)).insertionSort
    (fun a b => a.mime ≤ b.mime)

/-- Mark an entry deleted at time `now`; returns its blob references. -/
def tombstone (id : Nat) (now : Int) : Except Error (List String × Database) :=
  let blobs := (db.blobsOf id).map BlobRow.blobRef
  (db.changing id (db.trackedUpdate id (fun c => c.tombstoned now))).map
    (fun db => (blobs, { db with entriesFts := db.entriesFts.filter (fun f => f.rowid ≠ id) }))

/-- Put a fresh row into the search index. -/
def reindex (id : Nat) (preview : String) : Database :=
  { db with
    entriesFts := db.entriesFts.filter (fun f => f.rowid ≠ id) ++ [⟨id, preview, none⟩] }

/-- Undo a deletion: the tombstone is lifted and the entry is searchable again. -/
def restore (cipher : Key) (id : Nat) : Except Error Database :=
  (db.get cipher id).bind fun entry =>
    if entry.deleted then
      .ok ((db.trackedUpdate id Cols.restored).reindex id entry.preview)
    else .ok db

/-- When an entry was deleted: `some 0` for a retention eviction, `none` if it is
    not deleted. -/
def deletedAt (db : Database) (id : Nat) : Except Error (Option Int) :=
  match db.entries.get id with
  | none => .error (.notFound id)
  | some r => .ok (if r.cols.deleted then some r.cols.deletedAt else none)

/-! ## §4. Capturing -/

/-- What `upsert_entry` is called with. -/
structure NewEntry where
  key : EntryKey
  preview : String
  kind : ContentKind
  primaryMime : String
  sizeBytes : Int
  sourceApp : Option String
  now : Int
  deviceId : String
  lamport : Int
  bumpOnDuplicate : Bool

/-- The latest sighting of any other row, 0 if there is none. -/
def newestOther (id : Nat) : Int :=
  (((db.entries.rows.filter (fun r => r.id ≠ id)).map (fun r => r.cols.lastSeenAt)).max?).getD 0

/-- The columns of a row that is new. -/
def NewEntry.cols (e : NewEntry) (cipher : Key) (changeSeq : Nat) : Cols where
  preview := sealWithAad cipher (previewAad e.key.contentHash) e.preview
  kind := e.kind
  primaryMime := e.primaryMime
  sizeBytes := e.sizeBytes
  sourceApp := e.sourceApp
  createdAt := e.now
  lastSeenAt := e.now
  pinned := false
  sensitive := false
  deviceId := e.deviceId
  lamport := e.lamport
  deleted := false
  deletedAt := 0
  changeSeq := changeSeq

/-- The columns of a tombstoned row that comes back: all but the time of its
    deletion are those of a new one. -/
def NewEntry.revived (e : NewEntry) (cipher : Key) (c : Cols) : Cols :=
  { e.cols cipher c.changeSeq with deletedAt := c.deletedAt }

/-- Insert a new entry, revive a tombstoned one, or, when the same content is
    copied again, move it to the top unless told not to.  Returns its id. -/
def upsertEntry (cipher : Key) (e : NewEntry) : Nat × Database :=
  match h : db.entries.find e.key with
  | some r =>
    if r.cols.deleted then
      (r.id, (db.trackedUpdate r.id (e.revived cipher)).reindex r.id e.preview)
    else if e.bumpOnDuplicate then
      (r.id, db.plainUpdate r.id (fun c => c.seenAt (max e.now (db.newestOther r.id + 1))))
    else (r.id, db)
  | none =>
    (db.entries.nextId,
      { db with
        changeSeq := db.changeSeq + 1
        entries := db.entries.insert e.key (e.cols cipher (db.changeSeq + 1)) h
        entriesFts := db.entriesFts ++ [⟨db.entries.nextId, e.preview, none⟩] })

/-- Index the text of an entry beyond its preview. -/
def indexContent (id : Nat) (content : String) : Database :=
  { db with
    entriesFts := db.entriesFts.map
      (fun f => if f.rowid = id then { f with content := some content } else f) }

/-- Attach a blob reference to an entry, in place of one of the same format; the
    entry must be there (a foreign key). -/
def attachBlob (entryId : Nat) (mime blobRef : String) : Except Error Database :=
  match db.entries.get entryId with
  | none => .error .database
  | some _ =>
    .ok { db with
      entryBlobs := db.entryBlobs.filter (fun b => ¬ (b.entryId = entryId ∧ b.mime = mime))
        ++ [⟨entryId, mime, blobRef⟩] }

/-! ## §5. The Lamport clock -/

/-- The highest Lamport value of a row that is within reason, 0 if there is none. -/
def maxRowLamport : Int :=
  (((db.entries.rows.filter (fun r => r.cols.lamport < lamportObserveLimit)).map
    (fun r => r.cols.lamport)).max?).getD 0

/-- The Lamport value for the next local change. -/
def tickLamport : Int × Database :=
  let next := max (db.lamportClock.getD 0) db.maxRowLamport + 1
  (next, { db with lamportClock := some next })

/-- Record a Lamport value received from another device. -/
def observeLamport (seen : Int) : Database :=
  { db with
    lamportClock := some (match db.lamportClock with
      | none => seen
      | some clock => max clock seen) }

/-! ## §6. What the statements do to the rows -/

/-- `db'` has the row `r` at `k`, and every other row as `db` has it. -/
structure Wrote (db : Database) (k : EntryKey) (r : EntryRow) (db' : Database) : Prop where
  row : db'.entries.find k = some r
  entries : db'.entries = db.entries.put k r.cols

variable {db db' db'' : Database} {k : EntryKey} {r r' : EntryRow} {id : Nat}

theorem Wrote.refl (h : db.entries.find k = some r) : db.Wrote k r db := by
  refine ⟨h, ?_⟩
  rw [← update_eq_put h (fun c => c)]
  apply Table.ext
  show _ = db.entries.rows.map _
  rw [List.map_congr_left (g := fun x => x), List.map_id']
  intro x _
  simp [setCols]

theorem Wrote.trans (h : db.Wrote k r db') (h' : db'.Wrote k r' db'') : db.Wrote k r' db'' :=
  ⟨h'.row, by rw [h'.entries, h.entries, put_put]⟩

/-- The other rows are as they were. -/
theorem Wrote.others (h : db.Wrote k r db') (k' : EntryKey) (hne : k' ≠ k) :
    db'.entries.find k' = db.entries.find k' := by
  rw [h.entries]
  exact find_put_of_ne hne

/-- A statement that leaves the rows alone. -/
theorem Wrote.of_entries_eq (h : db.Wrote k r db') (heq : db''.entries = db'.entries) :
    db.Wrote k r db'' := by
  refine ⟨?_, heq.trans h.entries⟩
  rw [heq]
  exact h.row

theorem Wrote.get (h : db.Wrote k r db') : db'.entries.get r.id = some r :=
  get_of_find h.row

/-- A row is the one that was written, or was there under another key. -/
theorem Wrote.mem (h : db.Wrote k r db') (hr' : r' ∈ db'.entries.rows) :
    r' = r ∨ (r' ∈ db.entries.rows ∧ r'.key ≠ k) := by
  have hfind : db'.entries.find r'.key = some r' := find_eq_some.mpr ⟨hr', rfl⟩
  by_cases hkey : r'.key = k
  · rw [hkey, h.row] at hfind
    exact Or.inl (Option.some.inj hfind).symm
  · rw [h.others r'.key hkey] at hfind
    exact Or.inr ⟨(find_eq_some.mp hfind).1, hkey⟩

/-- A row that is new joins the others. -/
theorem Wrote.rows_append (h : db.Wrote k r db') (hnew : db.entries.find k = none) :
    db'.entries.rows = db.entries.rows ++ [r] := by
  have hrow := h.row
  rw [h.entries, put_of_new hnew, find_insert_self hnew] at hrow
  rw [h.entries, put_of_new hnew, ← Option.some.inj hrow]
  rfl

theorem wrote_plainUpdate (h : db.entries.find k = some r) (f : Cols → Cols) :
    db.Wrote k { r with cols := f r.cols } (db.plainUpdate r.id f) :=
  ⟨find_update_self h f, update_eq_put h f⟩

theorem trackedUpdate_eq (h : db.entries.get id = some r) (f : Cols → Cols) :
    db.trackedUpdate id f = { db with
      changeSeq := db.changeSeq + 1
      entries := db.entries.update id (fun c => (f c).numbered (db.changeSeq + 1)) } := by
  unfold trackedUpdate
  rw [h]

theorem wrote_trackedUpdate (h : db.entries.find k = some r) (f : Cols → Cols) :
    db.Wrote k { r with cols := (f r.cols).numbered (db.changeSeq + 1) }
      (db.trackedUpdate r.id f) := by
  rw [trackedUpdate_eq (get_of_find h)]
  exact ⟨find_update_self h _, update_eq_put h fun c => (f c).numbered (db.changeSeq + 1)⟩

theorem changing_ok (h : db.entries.find k = some r) (after : Database) :
    db.changing r.id after = .ok after := by
  unfold changing
  rw [get_of_find h]

/-- **A statement on a row that is there succeeds and writes that row alone.** -/
theorem wrote_stamp (h : db.entries.find k = some r) (lamport : Int) (deviceId : String) :
    ∃ db', db.stamp r.id lamport deviceId = .ok db' ∧ db.Wrote k
      { r with cols := (r.cols.stamped lamport deviceId).numbered (db.changeSeq + 1) } db' :=
  ⟨_, changing_ok h _, wrote_trackedUpdate h (fun c => c.stamped lamport deviceId)⟩

theorem wrote_setTimes (h : db.entries.find k = some r) (createdAt lastSeenAt : Int) :
    ∃ db', db.setTimes r.id createdAt lastSeenAt = .ok db' ∧ db.Wrote k
      { r with cols := r.cols.timed createdAt lastSeenAt } db' :=
  ⟨_, changing_ok h _, wrote_plainUpdate h (fun c => c.timed createdAt lastSeenAt)⟩

theorem wrote_applyRemoteState (h : db.entries.find k = some r) (pinned : Bool)
    (createdAt lastSeenAt lamport : Int) (deviceId : String) :
    ∃ db', db.applyRemoteState r.id pinned createdAt lastSeenAt lamport deviceId = .ok db' ∧
      db.Wrote k { r with cols :=
        (((r.cols.pinnedAs pinned).widened createdAt lastSeenAt).stamped lamport
          deviceId).numbered (db.changeSeq + 1) } db' :=
  ⟨_, changing_ok h _, wrote_trackedUpdate h
    (fun c => ((c.pinnedAs pinned).widened createdAt lastSeenAt).stamped lamport deviceId)⟩

theorem wrote_tombstone (h : db.entries.find k = some r) (now : Int) :
    ∃ refs db', db.tombstone r.id now = .ok (refs, db') ∧ db.Wrote k
      { r with cols := (r.cols.tombstoned now).numbered (db.changeSeq + 1) } db' := by
  refine ⟨_, _, by rw [tombstone, changing_ok h]; rfl, ?_⟩
  exact (wrote_trackedUpdate h (fun c => c.tombstoned now)).of_entries_eq rfl

/-- The row `upsert_entry` leaves. -/
def upsertedRow (db : Database) (cipher : Key) (e : NewEntry) : EntryRow :=
  match db.entries.find e.key with
  | some r =>
    if r.cols.deleted then
      { r with cols := (e.revived cipher r.cols).numbered (db.changeSeq + 1) }
    else if e.bumpOnDuplicate then
      { r with cols := r.cols.seenAt (max e.now (db.newestOther r.id + 1)) }
    else r
  | none => ⟨db.entries.nextId, e.key, e.cols cipher (db.changeSeq + 1)⟩

/-- An entry that is here keeps its row. -/
theorem upsertedRow_of_find {cipher : Key} {e : NewEntry} (h : db.entries.find e.key = some r) :
    (db.upsertedRow cipher e).id = r.id ∧ (db.upsertedRow cipher e).key = r.key := by
  unfold upsertedRow
  rw [h]
  dsimp only
  split
  · exact ⟨rfl, rfl⟩
  · split
    · exact ⟨rfl, rfl⟩
    · exact ⟨rfl, rfl⟩

/-- A new one has the next number. -/
theorem upsertedRow_of_new {cipher : Key} {e : NewEntry} (h : db.entries.find e.key = none) :
    db.upsertedRow cipher e = ⟨db.entries.nextId, e.key, e.cols cipher (db.changeSeq + 1)⟩ := by
  unfold upsertedRow
  rw [h]

theorem wrote_upsertEntry (db : Database) (cipher : Key) (e : NewEntry) :
    (db.upsertEntry cipher e).1 = (db.upsertedRow cipher e).id ∧
      db.Wrote e.key (db.upsertedRow cipher e) (db.upsertEntry cipher e).2 := by
  unfold upsertEntry
  split
  next r hr =>
    unfold upsertedRow
    rw [hr]
    by_cases hdel : r.cols.deleted = true
    · simp only [if_pos hdel, true_and]
      exact (wrote_trackedUpdate hr (e.revived cipher)).of_entries_eq rfl
    · by_cases hbump : e.bumpOnDuplicate = true
      · simp only [if_neg hdel, if_pos hbump, true_and]
        exact wrote_plainUpdate hr (fun c => c.seenAt (max e.now (db.newestOther r.id + 1)))
      · simp only [if_neg hdel, if_neg hbump, true_and]
        exact Wrote.refl hr
  next hnone =>
    rw [upsertedRow_of_new hnone]
    exact ⟨rfl, find_insert_self hnone, (put_of_new hnone).symm⟩

/-- After a capture the row is live. -/
theorem upsertedRow_deleted (db : Database) (cipher : Key) (e : NewEntry) :
    (db.upsertedRow cipher e).cols.deleted = false := by
  unfold upsertedRow
  split
  next r hr =>
    by_cases hdel : r.cols.deleted = true
    · rw [if_pos hdel]
      rfl
    · have hlive : r.cols.deleted = false := by simpa using hdel
      rw [if_neg hdel]
      split
      · exact hlive
      · exact hlive
  next => rfl

/-- Content that is not here, or is deleted here, is recorded as new. -/
theorem upsertedRow_cols (db : Database) (cipher : Key) (e : NewEntry)
    (h : ∀ r, db.entries.find e.key = some r → r.cols.deleted = true) :
    ∃ deletedAt, (db.upsertedRow cipher e).cols
      = { e.cols cipher (db.changeSeq + 1) with deletedAt := deletedAt } := by
  unfold upsertedRow
  split
  next r hr =>
    rw [if_pos (h r hr)]
    exact ⟨r.cols.deletedAt, rfl⟩
  next => exact ⟨0, rfl⟩

end Database

end Panora.Storage
