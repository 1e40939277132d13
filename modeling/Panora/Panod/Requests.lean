/-
  Panora.Panod.Requests — what a user asks of the history.

  `Daemon::set_pinned`, `delete`, `restore`, `stamp_local`, `clear` and the storage
  side of `wipe`.

  Main results: `exec_pin`, `exec_tombstone`, `exec_restoreRow` — what the first
  statement of a request does to the row of its entry.
-/
import Panora.Panod.Sync
import Panora.Storage.Numbering

namespace Panora.Panod

open Storage Lib Lib.Op Storage.Database

/-! ## §1. The requests -/

/-- Stamp a row with the next local Lamport value. -/
def stampLocal (env : Env) (id : Nat) : Request Unit := do
  let lamport ← updateDb tickLamport
  changeDb (fun db => db.stamp id lamport env.deviceId)

/-- Toggle the pin state. -/
def setPinned (env : Env) (id : Nat) (pinned : Bool) : Request Unit := do
  changeDb (fun db => db.setPinned id pinned)
  stampLocal env id

/-- Delete an entry; one that is deleted already is not found. -/
def delete (env : Env) (id : Nat) : Request Unit := do
  let entry ← getEntry id
  if entry.deleted then throw (.notFound id)
  else
    let _ ← onDb (fun db => db.tombstone id env.now)
    stampLocal env id
    let _ ← collectGarbage env
    pure ()

/-- Whether a deletion can no longer be undone. -/
def pastUndo (env : Env) : Option Int → Bool
  | some time => time = 0 || time < env.now - undoGraceSecs
  | none => false

/-- Lift the tombstone of a row. -/
def restoreRow (id : Nat) : Request Unit :=
  attempt (fun d => (d.db.restore d.dbCipher id).map (fun db => ((), { d with db })))

/-- Undo a deletion while the undo window is open. -/
def restore (env : Env) (id : Nat) : Request Entry := do
  let time ← attempt (fun d => (d.db.deletedAt id).map (fun time => (time, d)))
  if pastUndo env time then throw (.notFound id)
  else
    restoreRow id
    stampLocal env id
    getEntry id

/-- Clear the history, keeping pinned entries; returns how many were cleared. -/
def clear (env : Env) : Request Nat := do
  let ids ← onDb clearAll
  let _ ← collectGarbage env
  pure ids.length

/-- Reseal the database and use the new key from here on. -/
def rekeyDb (env : Env) (new : Key) : Request Unit :=
  attempt (fun d => (d.db.rekey env.hash d.dbCipher new).map
    (fun db => ((), { d with db, dbCipher := new })))

/-- Reseal one blob file. -/
def rekeyBlob (new : Key) (name : String) : Request Unit :=
  attempt (fun d => (d.blobs.rekeyFile d.blobCipher new name).map
    (fun blobs => ((), { d with blobs })))

/-- Reseal every blob file, then use the new key from here on. -/
def rekeyBlobs (new : Key) : Request Unit := do
  let names ← reads (fun d : Daemon => d.blobs.list)
  names.forM (rekeyBlob new)
  update (fun d => { d with blobCipher := new })

/-- Delete every blob file. -/
def wipeBlobs : Request Unit :=
  attempt (fun d => d.blobs.wipe.map (fun blobs => ((), { d with blobs })))

/-- What a panic wipe does to the storage: everything is deleted, and the fresh key
    is taken into use. -/
def wipeStorage (env : Env) (fresh : Key) : Request Unit := do
  updateDb (fun db => ((), db.wipe))
  wipeBlobs
  rekeyDb env fresh
  rekeyBlobs fresh

/-! ## §2. Resealing keeps what `meta` says -/

/-- The counters and the marker of a rotation are as they were. -/
structure SameMeta (d d' : Daemon) : Prop where
  clock : d'.db.lamportClock = d.db.lamportClock
  seq : d'.db.changeSeq = d.db.changeSeq
  rotation : d'.db.rotationState = d.db.rotationState

theorem SameMeta.refl (d : Daemon) : SameMeta d d := ⟨rfl, rfl, rfl⟩

theorem SameMeta.trans (d d' d'' : Daemon) (h : SameMeta d d') (h' : SameMeta d' d'') :
    SameMeta d d'' :=
  ⟨h'.clock.trans h.clock, h'.seq.trans h.seq, h'.rotation.trans h.rotation⟩

theorem sameMeta_rekeyDb (env : Env) (new : Key) : Keeps SameMeta (rekeyDb env new) := by
  refine keeps_attempt_map SameMeta.refl fun d db hrekey => ?_
  unfold rekey at hrekey
  split at hrekey
  · cases hrekey
    exact ⟨rfl, rfl, rfl⟩
  · cases hrekey

theorem sameMeta_rekeyBlobs (new : Key) : Keeps SameMeta (rekeyBlobs new) := by
  apply keeps_bind SameMeta.trans (keeps_reads SameMeta.refl _)
  intro names
  refine keeps_bind SameMeta.trans (keeps_forM SameMeta.refl SameMeta.trans ?_ names)
    fun _ => keeps_update fun d => ⟨rfl, rfl, rfl⟩
  exact fun name => keeps_attempt_map SameMeta.refl fun _ _ _ => ⟨rfl, rfl, rfl⟩

theorem sameMeta_wipeBlobs : Keeps SameMeta wipeBlobs :=
  keeps_attempt_map SameMeta.refl fun _ _ _ => ⟨rfl, rfl, rfl⟩

/-! ## §3. What a statement does to the row of an entry -/

variable {d : Daemon} {k : EntryKey} {r : EntryRow}

/-- The row of an entry that was pinned or unpinned. -/
theorem exec_pin (h : d.db.entries.find k = some r) (pinned : Bool) :
    ∃ d', exec (changeDb (fun db => db.setPinned r.id pinned)) d = (.ok (), d') ∧
      d.db.Wrote k { r with cols := (r.cols.pinnedAs pinned).numbered (d.db.changeSeq + 1) }
        d'.db ∧
      d'.db.lamportClock = d.db.lamportClock := by
  have hrun : d.db.setPinned r.id pinned
      = .ok (d.db.trackedUpdate r.id (fun c => c.pinnedAs pinned)) := changing_ok h _
  refine ⟨_, exec_changeDb_ok hrun,
    wrote_trackedUpdate h (fun c => c.pinnedAs pinned), ?_⟩
  exact lamportClock_trackedUpdate d.db r.id _

/-- The row of an entry that was deleted. -/
theorem exec_tombstone (h : d.db.entries.find k = some r) (now : Int) :
    ∃ refs d', exec (onDb (fun db => db.tombstone r.id now)) d = (.ok refs, d') ∧
      d.db.Wrote k { r with cols := (r.cols.tombstoned now).numbered (d.db.changeSeq + 1) }
        d'.db ∧
      d'.db.lamportClock = d.db.lamportClock := by
  obtain ⟨refs, db', hrun, hwrote⟩ := wrote_tombstone h now
  refine ⟨refs, { d with db := db' }, exec_onDb_ok hrun, hwrote, ?_⟩
  obtain ⟨db1, hchanging, heq⟩ := Fallible.map_ok_iff.mp hrun
  cases heq
  show db1.lamportClock = d.db.lamportClock
  rw [changing_eq hchanging]
  exact lamportClock_trackedUpdate d.db r.id _

/-- The row of an entry whose deletion was lifted. -/
def restoredRow (d : Daemon) (r : EntryRow) : EntryRow :=
  if r.cols.deleted then { r with cols := r.cols.restored.numbered (d.db.changeSeq + 1) } else r

theorem exec_restoreRow (h : d.db.entries.find k = some r) :
    ∃ d', exec (restoreRow r.id) d = (.ok (), d') ∧ d.db.Wrote k (restoredRow d r) d'.db ∧
      d'.db.lamportClock = d.db.lamportClock := by
  have hget : d.db.get d.dbCipher r.id = .ok (rowToEntry d.dbCipher r) := by
    rw [Database.get, Table.get_of_find h]
  have hdeleted : (rowToEntry d.dbCipher r).deleted = r.cols.deleted := rfl
  unfold restoredRow
  by_cases hdel : r.cols.deleted = true
  · rw [if_pos hdel]
    have hrun : d.db.restore d.dbCipher r.id
        = .ok ((d.db.trackedUpdate r.id Cols.restored).reindex r.id
          (rowToEntry d.dbCipher r).preview) := by
      unfold Database.restore
      rw [hget]
      show (if (rowToEntry d.dbCipher r).deleted then _ else _) = _
      rw [hdeleted, if_pos hdel]
    refine ⟨_, exec_attempt_ok (by rw [hrun]; rfl),
      (wrote_trackedUpdate h Cols.restored).of_entries_eq rfl, ?_⟩
    exact lamportClock_trackedUpdate d.db r.id _
  · rw [if_neg hdel]
    have hrun : d.db.restore d.dbCipher r.id = .ok d.db := by
      unfold Database.restore
      rw [hget]
      show (if (rowToEntry d.dbCipher r).deleted then _ else _) = _
      rw [hdeleted, if_neg hdel]
    exact ⟨d, exec_attempt_ok (by rw [hrun]; rfl), Wrote.refl h, rfl⟩

end Panora.Panod
