/-
  Panora.Panod.Store — recording a capture.

  `Daemon::store`.  A capture is written in two parts: up to the rendering of a
  thumbnail, which is awaited, and after it; other requests may run in between.

  Main result: `exec_storeRow` — the first part succeeds and writes its own row
  alone.
-/
import Panora.Panod.Retention

namespace Panora.Panod

open Storage Lib Lib.Op Storage.Database

variable (env : Env) (data : ClipboardData)

/-! ## §1. Captures -/

/-- The format thumbnails are kept under. -/
def thumbnailMime : String := "application/x-panora-thumbnail"

/-- The preview of a secret. -/
def sensitiveMask : String := "••••••••"

/-- What the text of a capture looks like, if it looks like a secret. -/
def secretIn : Option String :=
  match env.content.classify data with
  | .text | .richText => env.content.detect (env.content.text data)
  | _ => none

/-- Whether a capture is recorded behind a mask. -/
def masked : Bool :=
  (secretIn env data).isSome && env.config.sensitivePolicy == .mask

/-- The preview of a capture. -/
def previewOf : String :=
  match secretIn env data with
  | some found =>
    if masked env data then sensitiveMask ++ " " ++ found
    else env.content.makePreview (env.content.text data) data
  | none => env.content.makePreview (env.content.text data) data

/-- The entry a capture is. -/
def keyOf : EntryKey :=
  ⟨env.hash.payloadHash data.payloads, data.selection⟩

/-- What a capture is recorded as. -/
def newEntry (lamport : Int) : NewEntry where
  key := keyOf env data
  preview := previewOf env data
  kind := env.content.classify data
  primaryMime := (data.payloads.head?.map MimePayload.mime).getD "application/octet-stream"
  sizeBytes := data.totalSize
  sourceApp := data.sourceApp
  now := env.now
  deviceId := env.deviceId
  lamport := lamport
  bumpOnDuplicate := env.config.duplicatePolicy != .ignore

/-- Write content into the blob directory. -/
def putBlob (data : Bytes) : Request String :=
  attempt (fun d =>
    (d.blobs.put env.hash d.blobCipher data).map (fun (ref, blobs) => (ref, { d with blobs })))

/-- Write one payload and attach it. -/
def storeBlob (id : Nat) (mime : String) (data : Bytes) : Request Unit := do
  let blobRef ← putBlob env data
  changeDb (fun db => db.attachBlob id mime blobRef)

/-- The picture to make a thumbnail of. -/
def imageOf : Option Bytes :=
  if env.content.classify data = .image then
    (data.payloads.find? (fun p => p.mime.startsWith "image/")).map MimePayload.data
  else none

/-- Flag the row of a capture that looks like a secret. -/
def markSecret (id : Nat) : Request Unit :=
  if (secretIn env data).isSome then updateDb (fun db => ((), db.markSensitive id)) else pure ()

/-- Index the text of a capture, where that is on and the text is not masked. -/
def indexCapture (id : Nat) : Request Unit :=
  if env.config.indexFullText && !masked env data then
    match env.content.indexText (env.content.text data) (env.content.classify data) with
    | some content => updateDb (fun db => ((), db.indexContent id content))
    | none => pure ()
  else pure ()

/-- A capture up to the rendering of its thumbnail: the row, its stamp and its
    payloads.  Returns the row's id. -/
def storeRow : Request Nat := do
  let lamport ← updateDb tickLamport
  let id ← step (fun d =>
    let (id, db) := d.db.upsertEntry d.dbCipher (newEntry env data lamport)
    (id, { d with db }))
  -- a re-copy of an existing row keeps its old stamp in `upsertEntry`
  changeDb (fun db => db.stamp id lamport env.deviceId)
  markSecret env data id
  indexCapture env data id
  data.payloads.forM (fun p => storeBlob env id p.mime p.data)
  pure id

/-- Keep a thumbnail, if there is one. -/
def storeThumbnail (id : Nat) : Option Bytes → Request Unit
  | some png => storeBlob env id thumbnailMime png
  | none => pure ()

/-- Fetch a single entry. -/
def getEntry (id : Nat) : Request Entry :=
  attempt (fun d => (d.db.get d.dbCipher id).map (fun entry => (entry, d)))

/-- The rest of a capture: its thumbnail, retention, and the entry as it is then. -/
def storeRest (id : Nat) (thumbnail : Option Bytes) : Request Entry := do
  storeThumbnail env id thumbnail
  let _ ← collectGarbage env
  getEntry id

/-- Persist captured data. -/
def store : Request Entry := do
  let id ← storeRow env data
  storeRest env id ((imageOf env data).bind env.content.renderThumbnail)

/-! ## §2. What a capture writes -/

/-- Only the search index, the blob references and the blobs changed. -/
structure Aside (d d' : Daemon) : Prop where
  entries : d'.db.entries = d.db.entries
  changeSeq : d'.db.changeSeq = d.db.changeSeq
  lamportClock : d'.db.lamportClock = d.db.lamportClock
  dbCipher : d'.dbCipher = d.dbCipher

variable {env : Env} {d d' : Daemon} {id : Nat} {r : EntryRow} {k : EntryKey}

theorem Aside.refl (d : Daemon) : Aside d d := ⟨rfl, rfl, rfl, rfl⟩

theorem Aside.trans {d'' : Daemon} (h : Aside d d') (h' : Aside d' d'') : Aside d d'' :=
  ⟨h'.entries.trans h.entries, h'.changeSeq.trans h.changeSeq,
    h'.lamportClock.trans h.lamportClock, h'.dbCipher.trans h.dbCipher⟩

/-- Only blobs and the references to them changed. -/
def Attached (d d' : Daemon) : Prop :=
  d' = { d with blobs := d'.blobs, db := { d.db with entryBlobs := d'.db.entryBlobs } }

theorem Attached.refl (d : Daemon) : Attached d d := rfl

theorem Attached.trans (d d' d'' : Daemon) (h : Attached d d') (h' : Attached d' d'') :
    Attached d d'' := by
  unfold Attached at h h' ⊢
  rw [h] at h'
  exact h'

theorem attached_storeBlob (env : Env) (id : Nat) (mime : String) (data : Bytes) :
    Keeps Attached (storeBlob env id mime data) := by
  refine keeps_bind Attached.trans
    (keeps_attempt_map Attached.refl fun d ⟨ref, blobs⟩ _ => rfl) fun ref => ?_
  refine keeps_changeDb Attached.refl fun d db' hattach => ?_
  unfold attachBlob at hattach
  split at hattach
  · exact nomatch hattach
  · cases hattach
    rfl

/-- A payload of a row that is there can be kept. -/
theorem exec_storeBlob (env : Env) (h : d.db.entries.get id = some r) (mime : String) (data : Bytes) :
    ∃ d', exec (storeBlob env id mime data) d = (.ok (), d') ∧ Aside d d' := by
  obtain ⟨blobs, hput⟩ := d.blobs.put_ok env.hash d.blobCipher data
  have hblob : exec (putBlob env data) d
      = (.ok (env.hash.contentHash data), { d with blobs }) :=
    exec_attempt_ok (by rw [hput]; rfl)
  have hattach : ∃ db, d.db.attachBlob id mime (env.hash.contentHash data) = .ok db ∧
      Aside d { d with blobs, db } := by
    rw [attachBlob, h]
    exact ⟨_, rfl, rfl, rfl, rfl, rfl⟩
  obtain ⟨db, hattach, haside⟩ := hattach
  refine ⟨{ d with blobs, db }, ?_, haside⟩
  unfold storeBlob
  rw [exec_bind_ok hblob]
  exact exec_changeDb_ok hattach

theorem exec_storeBlobs (env : Env) (payloads : List MimePayload) : ∀ d : Daemon,
    d.db.entries.get id = some r →
      ∃ d', exec (payloads.forM (fun p => storeBlob env id p.mime p.data)) d = (.ok (), d') ∧
        Aside d d' := by
  induction payloads with
  | nil =>
    intro d _
    exact ⟨d, rfl, Aside.refl d⟩
  | cons p payloads ih =>
    intro d h
    obtain ⟨d1, hrun1, haside1⟩ := exec_storeBlob env h p.mime p.data
    obtain ⟨d2, hrun2, haside2⟩ := ih d1 (by rw [haside1.entries]; exact h)
    refine ⟨d2, ?_, haside1.trans haside2⟩
    rw [List.forM_eq_forM, List.forM_cons, exec_bind_ok hrun1]
    exact hrun2

theorem exec_storeThumbnail (env : Env) (h : d.db.entries.get id = some r) (thumbnail : Option Bytes) :
    ∃ d', exec (storeThumbnail env id thumbnail) d = (.ok (), d') ∧ Aside d d' := by
  cases thumbnail with
  | none => exact ⟨d, rfl, Aside.refl d⟩
  | some png => exact exec_storeBlob env h thumbnailMime png

theorem exec_indexCapture (env : Env) (data : ClipboardData) (id : Nat) (d : Daemon) :
    ∃ d', exec (indexCapture env data id) d = (.ok (), d') ∧ Aside d d' := by
  unfold indexCapture
  split
  · split
    · exact ⟨_, rfl, rfl, rfl, rfl, rfl⟩
    · exact ⟨d, rfl, Aside.refl d⟩
  · exact ⟨d, rfl, Aside.refl d⟩

/-- The row of a capture as `upsert_entry` leaves it. -/
def upsertedCapture (env : Env) (data : ClipboardData) (d : Daemon) : EntryRow :=
  d.db.tickLamport.2.upsertedRow d.dbCipher (newEntry env data d.db.tickLamport.1)

/-- Its columns once it is stamped. -/
def stampedCols (env : Env) (data : ClipboardData) (d : Daemon) : Cols :=
  ((upsertedCapture env data d).cols.stamped d.db.tickLamport.1 env.deviceId).numbered
    ((d.db.tickLamport.2.upsertEntry d.dbCipher
      (newEntry env data d.db.tickLamport.1)).2.changeSeq + 1)

/-- The row a capture leaves. -/
def capturedRow (env : Env) (data : ClipboardData) (d : Daemon) : EntryRow :=
  { upsertedCapture env data d with
    cols := if (secretIn env data).isSome then (stampedCols env data d).flagged
      else stampedCols env data d }

theorem exec_markSecret (env : Env) (data : ClipboardData) (d : Daemon)
    (h : d.db.entries.find k = some r) :
    ∃ d', exec (markSecret env data r.id) d = (.ok (), d') ∧
      d.db.Wrote k { r with cols := if (secretIn env data).isSome then r.cols.flagged
        else r.cols } d'.db ∧ d'.dbCipher = d.dbCipher ∧
      d'.db.lamportClock = d.db.lamportClock ∧ d'.db.changeSeq = d.db.changeSeq := by
  unfold markSecret
  by_cases hsecret : (secretIn env data).isSome = true
  · rw [if_pos hsecret]
    simp only [hsecret, if_true]
    exact ⟨_, rfl, wrote_plainUpdate h Cols.flagged, rfl, rfl, rfl⟩
  · rw [if_neg hsecret]
    simp only [hsecret]
    exact ⟨d, rfl, Wrote.refl h, rfl, rfl, rfl⟩

/-- A capture up to its payloads: the row and its stamp. -/
def recordRow (env : Env) (data : ClipboardData) : Request Nat := do
  let lamport ← updateDb tickLamport
  let id ← step (fun d =>
    let (id, db) := d.db.upsertEntry d.dbCipher (newEntry env data lamport)
    (id, { d with db }))
  changeDb (fun db => db.stamp id lamport env.deviceId)
  markSecret env data id
  indexCapture env data id
  pure id

theorem storeRow_eq (env : Env) (data : ClipboardData) :
    storeRow env data = (do
      let id ← recordRow env data
      data.payloads.forM (fun p => storeBlob env id p.mime p.data)
      pure id) := by
  simp only [storeRow, recordRow, bind_assoc, pure_bind]

/-- **A capture up to its payloads** succeeds and writes its own row alone. -/
theorem exec_recordRow (env : Env) (data : ClipboardData) (d : Daemon) :
    ∃ d', exec (recordRow env data) d = (.ok (capturedRow env data d).id, d') ∧
      d.db.Wrote (keyOf env data) (capturedRow env data d) d'.db ∧
      d'.dbCipher = d.dbCipher := by
  have hupserted : (d.db.tickLamport.2.upsertEntry d.dbCipher
      (newEntry env data d.db.tickLamport.1)).1 = (upsertedCapture env data d).id ∧
      d.db.tickLamport.2.Wrote (keyOf env data) (upsertedCapture env data d)
        (d.db.tickLamport.2.upsertEntry d.dbCipher (newEntry env data d.db.tickLamport.1)).2 :=
    wrote_upsertEntry _ _ _
  obtain ⟨hid, hupsert⟩ := hupserted
  obtain ⟨db2, hstamp, hwrote2⟩ :=
    wrote_stamp hupsert.row d.db.tickLamport.1 env.deviceId
  obtain ⟨d3, hmark, hwrote3, hcipher3, -, -⟩ :=
    exec_markSecret env data { d with db := db2 } hwrote2.row
  obtain ⟨d4, hindex, haside⟩ := exec_indexCapture env data
    (upsertedCapture env data d).id d3
  refine ⟨d4, ?_, ?_, ?_⟩
  · unfold recordRow
    rw [exec_bind_ok (exec_updateDb _ d), exec_bind_ok (exec_step _ _)]
    simp only [hid]
    rw [exec_bind_ok (exec_changeDb_ok hstamp), exec_bind_ok hmark,
      exec_bind_ok hindex]
    rfl
  · have hwrote := ((hupsert.trans hwrote2).trans hwrote3).of_entries_eq haside.entries
    exact ⟨hwrote.row, hwrote.entries⟩
  · rw [haside.dbCipher, hcipher3]

/-- **A capture up to its thumbnail** succeeds and writes its own row alone. -/
theorem exec_storeRow (env : Env) (data : ClipboardData) (d : Daemon) :
    ∃ d', exec (storeRow env data) d = (.ok (capturedRow env data d).id, d') ∧
      d.db.Wrote (keyOf env data) (capturedRow env data d) d'.db ∧
      d'.dbCipher = d.dbCipher := by
  obtain ⟨d1, hrecord, hwrote, hcipher⟩ := exec_recordRow env data d
  obtain ⟨d2, hblobs, haside⟩ := exec_storeBlobs env data.payloads d1 hwrote.get
  refine ⟨d2, ?_, hwrote.of_entries_eq haside.entries, haside.dbCipher.trans hcipher⟩
  rw [storeRow_eq, exec_bind_ok hrecord, exec_bind_ok hblobs]
  rfl

/-- The daemon when a capture runs retention. -/
def captureState (env : Env) (data : ClipboardData) (d : Daemon) : Daemon :=
  (exec (do
    let id ← storeRow env data
    storeThumbnail env id ((imageOf env data).bind env.content.renderThumbnail)) d).2

/-- A capture has written its own row, and no other, when retention runs; what it
    returns is its row as retention leaves it. -/
theorem exec_store (env : Env) (data : ClipboardData) (d : Daemon) :
    d.db.Wrote (keyOf env data) (capturedRow env data d) (captureState env data d).db ∧
      (captureState env data d).dbCipher = d.dbCipher ∧
      exec (store env data) d = exec (getEntry (capturedRow env data d).id)
        (exec (collectGarbage env) (captureState env data d)).2 := by
  obtain ⟨d1, hrow, hwrote, hcipher⟩ := exec_storeRow env data d
  obtain ⟨d2, hthumb, haside⟩ := exec_storeThumbnail env hwrote.get
    ((imageOf env data).bind env.content.renderThumbnail)
  obtain ⟨d3, hgc, -⟩ := exec_collectGarbage env d2
  have hstate : captureState env data d = d2 := by
    unfold captureState
    rw [exec_bind_ok hrow, hthumb]
  rw [hstate]
  refine ⟨hwrote.of_entries_eq haside.entries, haside.dbCipher.trans hcipher, ?_⟩
  unfold store storeRest
  rw [exec_bind_ok hrow, exec_bind_ok hthumb, exec_bind_ok hgc, hgc]

/-- The history before a capture, with the row of the capture in its place. -/
def capturedDb (env : Env) (data : ClipboardData) (d : Daemon) : Database :=
  { d.db with entries := d.db.entries.put (keyOf env data) (capturedRow env data d).cols }

/-- Its rows are those retention finds. -/
theorem entries_captureState (env : Env) (data : ClipboardData) (d : Daemon) :
    (captureState env data d).db.entries = (capturedDb env data d).entries :=
  (exec_store env data d).1.entries

theorem exec_getEntry_ok (h : d.db.entries.get id = some r) :
    exec (getEntry id) d = (.ok (rowToEntry d.dbCipher r), d) :=
  Op.exec_attempt_ok (by rw [Database.get, h]; rfl)

theorem exec_getEntry_error (h : d.db.entries.get id = none) :
    exec (getEntry id) d = (.error (.notFound id), d) :=
  Op.exec_attempt_error (by rw [Database.get, h]; rfl)

/-- What a capture leaves is live. -/
theorem capturedRow_deleted (env : Env) (data : ClipboardData) (d : Daemon) :
    (capturedRow env data d).cols.deleted = false := by
  have h : (upsertedCapture env data d).cols.deleted = false :=
    upsertedRow_deleted _ _ _
  unfold capturedRow
  by_cases hsecret : (secretIn env data).isSome = true
  · simp only [if_pos hsecret]
    exact h
  · simp only [if_neg hsecret]
    exact h

/-- Content that is not live here is recorded unpinned and seen now. -/
theorem capturedRow_fresh {data : ClipboardData}
    (h : ∀ r, d.db.entries.find (keyOf env data) = some r → r.cols.deleted = true) :
    (capturedRow env data d).cols.pinned = false ∧
      (capturedRow env data d).cols.lastSeenAt = env.now := by
  obtain ⟨deletedAt, hcols⟩ := upsertedRow_cols d.db.tickLamport.2
    d.dbCipher (newEntry env data d.db.tickLamport.1) h
  have hcols : (upsertedCapture env data d).cols = _ := hcols
  unfold capturedRow stampedCols
  rw [hcols]
  by_cases hsecret : (secretIn env data).isSome = true
  · simp only [if_pos hsecret]
    exact ⟨rfl, rfl⟩
  · simp only [if_neg hsecret]
    exact ⟨rfl, rfl⟩

end Panora.Panod
