/-
  Panora.Panod.Race — local changes while a record is applied.

  `Daemon::apply_record` decides by last-writer-wins before the thumbnail is
  awaited and writes the record's state after it, without looking again.  Local
  requests on the same entry may run in between.

  Main results:
    * `Act.step` — what one local request does to the entry and the clock;
    * `resume_cases` — what the end of applying a record leaves of the entry;
    * `newest_operation_settles_iff` — when the entry ends in the state of the newest
      operation.
-/
import Panora.Panod.Convergence
import Panora.Panod.Leak

namespace Panora.Panod

open Storage Storage.Database Lib Lib.Op Lib.Table List

/-! ## §1. Local requests and a record -/

/-- A request of the user on one entry. -/
inductive Local where
  | pin (pinned : Bool)
  | delete
  | restore
  /-- A copy of the same content, up to the await of its thumbnail. -/
  | copy (data : ClipboardData)
  /-- The rest of a copy. -/
  | finishCopy (id : Nat) (thumbnail : Option Bytes)

/-- A request on the row an entry has now. -/
def onEntry (k : EntryKey) (f : Nat → Request Unit) : Request Unit := do
  let row ← reads (fun d : Daemon => d.db.entries.find k)
  match row with
  | some r => f r.id
  | none => throw (.notFound 0)

/-- What is run. -/
def Local.request (env : Env) (k : EntryKey) : Local → Request Unit
  | .pin pinned => onEntry k (fun id => setPinned env id pinned)
  | .delete => onEntry k (Panod.delete env)
  | .restore => onEntry k (fun id => do let _ ← Panod.restore env id)
  | .copy data => do let _ ← storeRow env data
  | .finishCopy id thumbnail => do let _ ← storeRest env id thumbnail

/-- A request and the time it runs at. -/
structure Act where
  now : Int
  op : Local

/-- A copy is a copy of this entry. -/
def Act.About (env : Env) (k : EntryKey) (a : Act) : Prop :=
  ∀ data, a.op = .copy data → keyOf env data = k

/-- Whether a request makes a state of its own. -/
def Local.writes : Local → Bool
  | .finishCopy _ _ => false
  | _ => true

/-- The history, and the states the local requests that succeeded have made. -/
structure Acted where
  daemon : Daemon
  log : List Carried

/-- The same device at another time. -/
def Env.atTime (env : Env) (now : Int) : Env := { env with now }

/-- Run one request. -/
def Act.run (env : Env) (k : EntryKey) (s : Acted) (a : Act) : Acted :=
  match exec (a.op.request (env.atTime a.now) k) s.daemon with
  | (.ok _, d) =>
    ⟨d, if a.op.writes then s.log ++ ((d.db.entries.find k).map carriedBy).toList else s.log⟩
  | (.error _, d) => ⟨d, s.log⟩

/-- Run some requests one after the other. -/
def Act.runAll (env : Env) (k : EntryKey) (d : Daemon) (acts : List Act) : Acted :=
  acts.foldl (Act.run env k) ⟨d, []⟩

/-- How a record and local requests on its entry came out. -/
structure Raced where
  daemon : Daemon
  /-- Applying the record waited, and then wrote the record's state. -/
  overwrote : Bool
  /-- What the requests made while it waited. -/
  during : List Carried
  /-- What the requests made after it. -/
  afterwards : List Carried

/-- A record is applied; some local requests run while it waits (or after it, if it
    does not wait), it goes on at `resumed`, and some more run. -/
def race (env : Env) (sent : SyncRecord) (d : Daemon) (window : List Act) (resumed : Int)
    (after : List Act) : Raced :=
  let (stage, d1) := exec (beginRecord env sent) d
  let s := Act.runAll env sent.key d1 window
  match stage with
  | .ok (.waiting id image) =>
    let (result, d2) := exec (resumeRecord (env.atTime resumed) (clampTimes env sent)
      (.waiting id image)) s.daemon
    let t := Act.runAll env sent.key d2 after
    ⟨t.daemon, result.isOk, s.log, t.log⟩
  | _ =>
    let t := Act.runAll env sent.key s.daemon after
    ⟨t.daemon, false, s.log, t.log⟩

/-- The stamp of a state. -/
def Carried.stamp (c : Carried) : Stamp := stampOf c.lamport c.deviceId

/-- The row is in the state of the newest of these operations. -/
def Settles (r : EntryRow) (ops : List Carried) : Prop :=
  ∃ w ∈ ops, (∀ w' ∈ ops, w'.stamp ≤ w.stamp) ∧
    r.cols.deleted = w.deleted ∧ r.cols.pinned = w.pinned

instance (r : EntryRow) (ops : List Carried) : Decidable (Settles r ops) :=
  inferInstanceAs (Decidable (∃ w ∈ ops, _))

/-! ## §2. What a request leaves alone -/

variable {env : Env} {d d' d'' : Daemon} {k : EntryKey} {r r' : EntryRow} {id : Nat}
  {sent : SyncRecord} {image : Bytes} {α : Type}

/-- The value of the Lamport clock. -/
def clock (d : Daemon) : Int := d.db.lamportClock.getD 0

/-- Rows stay, are evicted or are purged, and the clock stands still. -/
structure Idle (d d' : Daemon) : Prop where
  rows : AllSurvive d.db d'.db
  clock : d'.db.lamportClock = d.db.lamportClock

theorem Idle.refl (d : Daemon) : Idle d d := ⟨fun r hr => ⟨r, hr, .inl rfl⟩, rfl⟩

theorem Idle.trans (h : Idle d d') (h' : Idle d' d'') : Idle d d'' :=
  ⟨h.rows.trans h'.rows, h'.clock.trans h.clock⟩

theorem idle_of_eq (hentries : d'.db.entries = d.db.entries)
    (hclock : d'.db.lamportClock = d.db.lamportClock) : Idle d d' :=
  ⟨fun r hr => ⟨r, by rw [← hentries]; exact hr, .inl rfl⟩, hclock⟩

/-- An operation that leaves an entry alone. -/
abbrev Idles (x : Request α) : Prop := Keeps Idle x

theorem idles_bind {β : Type} {x : Request α} {f : α → Request β} (hx : Idles x)
    (hf : ∀ a, Idles (f a)) : Idles (x >>= f) :=
  keeps_bind (fun _ _ _ h h' => h.trans h') hx hf

variable {s t : Acted} {c e : Carried} {d1 : Daemon} {now : Int} {base : Option EntryRow}

theorem lamportClock_purge (ids : List Nat) (db : Database) :
    (db.purge ids).2.lamportClock = db.lamportClock := by
  refine purge_keeps (R := fun db db' => db'.lamportClock = db.lamportClock) (fun _ => rfl)
    (fun h h' => h'.trans h) (fun acc id => ?_) ids db
  unfold purgeRow
  dsimp only
  split
  · rfl
  · split <;> rfl

/-- Keeping a format leaves the rows and the clock alone. -/
theorem idles_storeBlob (env : Env) (id : Nat) (mime : String) (data : Bytes) :
    Idles (storeBlob env id mime data) := fun d =>
  have hattached := attached_storeBlob env id mime data d
  idle_of_eq (congrArg (fun d => d.db.entries) hattached)
    (congrArg (fun d => d.db.lamportClock) hattached)

section Clock

/-- The clock stands still. -/
def SameClock (d d' : Daemon) : Prop := d'.db.lamportClock = d.db.lamportClock

theorem SameClock.refl (d : Daemon) : SameClock d d := rfl

theorem SameClock.trans (h : SameClock d d') (h' : SameClock d' d'') : SameClock d d'' :=
  Eq.trans h' h

/-- An operation that leaves the clock alone. -/
abbrev KeepsClock (x : Request α) : Prop := Keeps SameClock x

theorem keepsClock_bind {β : Type} {x : Request α} {f : α → Request β} (hx : KeepsClock x)
    (hf : ∀ a, KeepsClock (f a)) : KeepsClock (x >>= f) :=
  keeps_bind (R := SameClock) (fun _ _ _ h h' => h.trans h') hx hf

theorem keepsClock_pure (a : α) : KeepsClock (pure a : Request α) := fun _ => rfl

theorem keepsClock_tracked (id : Nat) (f : Cols → Cols) :
    KeepsClock (changeDb (fun db => db.changing id (db.trackedUpdate id f))) := by
  refine keeps_changeDb SameClock.refl fun d db' h => ?_
  rw [changing_eq h]
  exact lamportClock_trackedUpdate d.db id _

theorem keepsClock_setTimes (id : Nat) (createdAt lastSeenAt : Int) :
    KeepsClock (changeDb (fun db => db.setTimes id createdAt lastSeenAt)) := by
  refine keeps_changeDb SameClock.refl fun d db' h => ?_
  rw [changing_eq h]
  rfl

theorem keepsClock_tombstone (id : Nat) (now : Int) :
    KeepsClock (onDb (fun db => db.tombstone id now)) := by
  refine keeps_onDb SameClock.refl fun d refs db' h => ?_
  obtain ⟨db1, hchanging, heq⟩ := Fallible.map_ok_iff.mp h
  cases heq
  show db1.lamportClock = d.db.lamportClock
  rw [changing_eq hchanging]
  exact lamportClock_trackedUpdate d.db id _

theorem keepsClock_stripDeleted (env : Env) : KeepsClock (stripDeleted env) := by
  unfold stripDeleted
  split
  · exact fun _ => rfl
  · exact fun _ => rfl

theorem keepsClock_purge (before : Int) : KeepsClock (purgeTombstonedBefore before) :=
  fun d => lamportClock_purge _ d.db

theorem keepsClock_storeBlob (env : Env) (id : Nat) (mime : String) (data : Bytes) :
    KeepsClock (storeBlob env id mime data) :=
  fun d => (idles_storeBlob env id mime data d).clock

/-- **No statement but a tick moves the clock.** -/
theorem amends_sameClock (env : Env) (d : Daemon) : Amends env (SameClock d) (fun _ => True) where
  toRetains := retains_of_keeps (fun _ _ _ h h' => h.trans h') keepsClock_tombstone
    (keepsClock_stripDeleted env) (keepsClock_purge _) d
  tracked _ f := Keeps.preserves (fun _ _ _ h h' => h.trans h') (keepsClock_tracked _ f) d
  times _ a b := Keeps.preserves (fun _ _ _ h h' => h.trans h') (keepsClock_setTimes _ a b) d
  thumbnail _ png :=
    Keeps.preserves (fun _ _ _ h h' => h.trans h') (keepsClock_storeBlob env _ _ png) d

theorem keepsClock_collectGarbage (env : Env) : KeepsClock (collectGarbage env) :=
  keeps_of_maintains SameClock.refl fun d => (amends_sameClock env d).collectGarbage

theorem lamportClock_upsertEntry (db : Database) (cipher : Key) (e : NewEntry) :
    (db.upsertEntry cipher e).2.lamportClock = db.lamportClock := by
  unfold upsertEntry
  split
  · split
    · exact lamportClock_trackedUpdate db _ _
    · split <;> rfl
  · rfl

theorem keepsClock_afterUpsert (env : Env) (data : ClipboardData) (id : Nat) (lamport : Int) :
    KeepsClock (do
      changeDb (fun db => db.stamp id lamport env.deviceId)
      markSecret env data id
      indexCapture env data id
      data.payloads.forM (fun p => storeBlob env id p.mime p.data)
      pure id) := by
  refine keepsClock_bind (keepsClock_tracked id _) fun _ => ?_
  refine keepsClock_bind ?_ fun _ => keepsClock_bind ?_ fun _ =>
    keepsClock_bind ?_ fun _ => keepsClock_pure id
  · unfold markSecret
    split
    · exact fun _ => rfl
    · exact keepsClock_pure ()
  · unfold indexCapture
    split
    · split
      · exact fun _ => rfl
      · exact keepsClock_pure ()
    · exact keepsClock_pure ()
  · induction data.payloads with
    | nil => exact keepsClock_pure ()
    | cons p payloads ih =>
      rw [forM_eq_forM, forM_cons]
      exact keepsClock_bind (keepsClock_storeBlob env id p.mime p.data) fun _ => ih

end Clock

theorem idles_collectGarbage (env : Env) : Idles (collectGarbage env) :=
  fun d => ⟨collectGarbage_allSurvive env d, keepsClock_collectGarbage env d⟩

/-- The rest of a capture. -/
theorem idles_storeRest (env : Env) (id : Nat) (thumbnail : Option Bytes) :
    Idles (storeRest env id thumbnail) := by
  refine idles_bind ?_ fun _ => idles_bind (idles_collectGarbage env) fun _ => ?_
  · cases thumbnail with
    | none => exact Idle.refl
    | some png => exact idles_storeBlob env id thumbnailMime png
  · exact keeps_look Idle.refl _

/-! ## §3. What a request that succeeds does -/

/-- The clock has gone on, the entry has the clock's value as its stamp, and the rows
    of other entries are those that were there. -/
structure Stamps (env : Env) (k : EntryKey) (d d' : Daemon) : Prop where
  clock : clock d < clock d'
  stamp : ∀ r', d'.db.entries.find k = some r' →
    r'.cols.lamport = Panod.clock d' ∧ r'.cols.deviceId = env.deviceId
  others : ∀ k' r', k' ≠ k → d'.db.entries.find k' = some r' →
    ∃ r, d.db.entries.find k' = some r ∧ r.id = r'.id

theorem clock_lt_tickLamport (d : Daemon) : clock d < d.db.tickLamport.1 := by
  unfold clock tickLamport
  dsimp only
  omega

/-- Nothing that only evicts or purges spoils it. -/
theorem Stamps.idle (h : Stamps env k d d') (hidle : Idle d' d'') : Stamps env k d d'' := by
  have hclock : Panod.clock d'' = Panod.clock d' := by
    unfold Panod.clock
    rw [hidle.clock]
  refine ⟨by rw [hclock]; exact h.clock, fun r'' hr'' => ?_, fun k' r'' hne hr'' => ?_⟩
  · obtain ⟨r', hr', hs⟩ := find_of_allSurvive hidle.rows hr''
    rw [hclock]
    rcases hs with rfl | ⟨n, rfl⟩
    · exact h.stamp _ hr'
    · exact h.stamp r' hr'
  · obtain ⟨r', hr', hs⟩ := find_of_allSurvive hidle.rows hr''
    obtain ⟨r, hr, hid⟩ := h.others k' r' hne hr'
    exact ⟨r, hr, hid.trans hs.id_eq.symm⟩

/-- A row that was written and then stamped with the next value. -/
theorem exec_stampLocal (env : Env) (hwrote : d.db.Wrote k r d'.db)
    (hclock : d'.db.lamportClock = d.db.lamportClock) :
    ∃ d'' n, exec (stampLocal env r.id) d' = (.ok (), d'') ∧ Stamps env k d d'' ∧
      d''.db.entries.find k = some { r with
        cols := (r.cols.stamped d'.db.tickLamport.1 env.deviceId).numbered n } := by
  have hrow : d'.db.tickLamport.2.entries.find k = some r := hwrote.row
  obtain ⟨db', hstamp, hstamped⟩ := wrote_stamp hrow d'.db.tickLamport.1 env.deviceId
  have htick : clock { d' with db := db' } = d'.db.tickLamport.1 := by
    unfold clock
    show db'.lamportClock.getD 0 = _
    rw [changing_eq hstamp, lamportClock_trackedUpdate]
    rfl
  refine ⟨{ d' with db := db' }, _, ?_, ⟨?_, fun r' hr' => ?_, fun k' r' hne hr' => ?_⟩, hstamped.row⟩
  · unfold stampLocal
    rw [exec_bind_ok (exec_updateDb _ d')]
    exact exec_changeDb_ok hstamp
  · have hsame : clock d' = clock d := by
      unfold clock
      rw [hclock]
    rw [htick, ← hsame]
    exact clock_lt_tickLamport d'
  · have hr' : db'.entries.find k = some r' := hr'
    rw [hstamped.row] at hr'
    cases hr'
    rw [htick]
    exact ⟨rfl, rfl⟩
  · have hr' : db'.entries.find k' = some r' := hr'
    have hsame : d'.db.tickLamport.2.entries.find k' = d.db.entries.find k' :=
      hwrote.others k' hne
    rw [hstamped.others k' hne, hsame] at hr'
    exact ⟨r', hr', rfl⟩

/-- A capture ticks the clock once; after that nothing touches it. -/
theorem clock_storeRow (env : Env) (data : ClipboardData) (d : Daemon) :
    clock (exec (storeRow env data) d).2 = d.db.tickLamport.1 := by
  have hupsert : (d.db.tickLamport.2.upsertEntry d.dbCipher
      (newEntry env data d.db.tickLamport.1)).2.lamportClock = d.db.tickLamport.2.lamportClock :=
    lamportClock_upsertEntry _ _ _
  have hrest := keepsClock_afterUpsert env data
    (d.db.tickLamport.2.upsertEntry d.dbCipher (newEntry env data d.db.tickLamport.1)).1
    d.db.tickLamport.1 { d with db := (d.db.tickLamport.2.upsertEntry d.dbCipher
      (newEntry env data d.db.tickLamport.1)).2 }
  unfold storeRow
  rw [exec_bind_ok (exec_updateDb _ d), exec_bind_ok (exec_step _ _)]
  unfold SameClock at hrest
  unfold clock
  exact congrArg (fun c => c.getD 0) (hrest.trans hupsert)

/-- A row's stamp after a capture. -/
theorem stamps_storeRow {data : ClipboardData} (hkey : keyOf env data = k)
    (h : exec (storeRow env data) d = (.ok id, d')) : Stamps env k d d' := by
  have hclock := clock_storeRow env data d
  rw [h] at hclock
  have hclock : clock d' = d.db.tickLamport.1 := hclock
  obtain ⟨d1, hrun, hwrote, -⟩ := exec_storeRow env data d
  rw [hrun] at h
  cases h
  rw [hkey] at hwrote
  refine ⟨by rw [hclock]; exact clock_lt_tickLamport d, fun r' hr' => ?_, fun k' r' hne hr' => ?_⟩
  · rw [hwrote.row] at hr'
    cases hr'
    rw [hclock]
    unfold capturedRow
    by_cases hsecret : (secretIn env data).isSome = true
    · simp only [if_pos hsecret]
      exact ⟨rfl, rfl⟩
    · simp only [if_neg hsecret]
      exact ⟨rfl, rfl⟩
  · rw [hwrote.others k' hne] at hr'
    exact ⟨r', hr', rfl⟩

/-- A request on an entry that has no row fails; on a row it is run. -/
theorem exec_onEntry (k : EntryKey) (f : Nat → Request Unit) (d : Daemon) :
    (d.db.entries.find k = none ∧ exec (onEntry k f) d = (.error (.notFound 0), d)) ∨
      ∃ r, d.db.entries.find k = some r ∧ exec (onEntry k f) d = exec (f r.id) d := by
  unfold onEntry
  rw [exec_bind_ok (exec_reads _ d)]
  cases hfind : d.db.entries.find k with
  | none => exact .inl ⟨rfl, rfl⟩
  | some r => exact .inr ⟨r, rfl, rfl⟩

theorem exec_setPinned (h : d.db.entries.find k = some r) (pinned : Bool) :
    ∃ d', exec (setPinned env r.id pinned) d = (.ok (), d') ∧ Stamps env k d d' := by
  obtain ⟨d1, hrun, hwrote, hclock⟩ := exec_pin h pinned
  obtain ⟨d2, n, hstamp, hstamps, -⟩ := exec_stampLocal env hwrote hclock
  refine ⟨d2, ?_, hstamps⟩
  unfold setPinned
  rw [exec_bind_ok hrun]
  exact hstamp

/-- A deletion of something that is live is stamped; of something deleted it fails. -/
theorem exec_delete (h : d.db.entries.find k = some r) :
    (r.cols.deleted = true ∧ exec (delete env r.id) d = (.error (.notFound r.id), d)) ∨
      r.cols.deleted = false ∧
        ∃ d', exec (delete env r.id) d = (.ok (), d') ∧ Stamps env k d d' := by
  have hentry := exec_getEntry_ok (get_of_find h)
  have hdeleted : (rowToEntry d.dbCipher r).deleted = r.cols.deleted := rfl
  unfold delete
  rw [exec_bind_ok hentry, hdeleted]
  by_cases hdel : r.cols.deleted = true
  · rw [if_pos hdel]
    exact .inl ⟨hdel, rfl⟩
  · rw [if_neg hdel]
    refine .inr ⟨Bool.eq_false_of_not_eq_true hdel, ?_⟩
    obtain ⟨refs, d1, hrun, hwrote, hclock⟩ := exec_tombstone h env.now
    obtain ⟨d2, n, hstamp, hstamps, -⟩ := exec_stampLocal env hwrote hclock
    obtain ⟨d3, hgc, -⟩ := exec_collectGarbage env d2
    have hidle := idles_collectGarbage env d2
    rw [hgc] at hidle
    refine ⟨d3, ?_, hstamps.idle hidle⟩
    rw [exec_bind_ok hrun, exec_bind_ok hstamp, exec_bind_ok hgc]
    rfl

/-- Undoing a deletion is stamped, or fails because the undo window is closed. -/
theorem exec_restore (h : d.db.entries.find k = some r) :
    (∃ e, exec (restore env r.id) d = (.error e, d)) ∨
      ∃ entry d', exec (restore env r.id) d = (.ok entry, d') ∧ Stamps env k d d' := by
  have htime : exec (attempt (fun d : Daemon =>
      (d.db.deletedAt r.id).map (fun time => (time, d)))) d
      = (.ok (if r.cols.deleted then some r.cols.deletedAt else none), d) :=
    exec_attempt_ok (by rw [deletedAt, get_of_find h]; rfl)
  unfold restore
  rw [exec_bind_ok htime]
  by_cases hpast : pastUndo env (if r.cols.deleted then some r.cols.deletedAt else none) = true
  · rw [if_pos hpast]
    exact .inl ⟨_, rfl⟩
  · rw [if_neg hpast]
    right
    obtain ⟨d1, hrun, hwrote, hclock⟩ := exec_restoreRow h
    have hid : (restoredRow d r).id = r.id := by
      unfold restoredRow
      split <;> rfl
    obtain ⟨d2, n, hstamp, hstamps, hrow⟩ := exec_stampLocal env hwrote hclock
    have hget := get_of_find hrow
    rw [hid] at hstamp
    dsimp only at hget
    rw [hid] at hget
    exact ⟨_, d2, (exec_bind_ok hrun _).trans
      ((exec_bind_ok hstamp _).trans (exec_getEntry_ok hget)), hstamps⟩

/-- A request that fails leaves the entry alone; one that succeeds stamps it, if it makes a
    state of its own. -/
def Acts (env : Env) (k : EntryKey) (writes : Bool) (d : Daemon)
    (run : Except Error Unit × Daemon) : Prop :=
  match run.1, writes with
  | .ok _, true => Stamps env k d run.2
  | _, _ => Idle d run.2

theorem acts_onEntry {f : Nat → Request Unit}
    (h : ∀ r, d.db.entries.find k = some r → Acts env k true d (exec (f r.id) d)) :
    Acts env k true d (exec (onEntry k f) d) := by
  rcases exec_onEntry k f d with ⟨-, hrun⟩ | ⟨r, hr, hrun⟩
  · rw [hrun]
    exact Idle.refl d
  · rw [hrun]
    exact h r hr

/-- The time of a request plays no part in its stamp. -/
theorem Stamps.atTime (h : Stamps (env.atTime now) k d d') : Stamps env k d d' :=
  ⟨h.clock, h.stamp, h.others⟩

/-- **One local request.** -/
theorem Act.step (a : Act) (habout : a.About env k) (d : Daemon) :
    Acts env k a.op.writes d (exec (a.op.request (env.atTime a.now) k) d) := by
  obtain ⟨now, op⟩ := a
  cases op with
  | pin pinned =>
    refine acts_onEntry fun r hr => ?_
    obtain ⟨d', hrun, hstamps⟩ := @exec_setPinned (env.atTime now) d k r hr pinned
    rw [hrun]
    exact hstamps.atTime
  | delete =>
    refine acts_onEntry fun r hr => ?_
    rcases @exec_delete (env.atTime now) d k r hr with ⟨-, hfail⟩ | ⟨-, d', hok, hstamps⟩
    · rw [hfail]
      exact Idle.refl d
    · rw [hok]
      exact hstamps.atTime
  | restore =>
    refine acts_onEntry fun r hr => ?_
    rcases @exec_restore (env.atTime now) d k r hr with ⟨e, hfail⟩ | ⟨entry, d', hok, hstamps⟩
    · rw [exec_bind_error hfail]
      exact Idle.refl d
    · rw [exec_bind_ok hok]
      exact hstamps.atTime
  | copy data =>
    obtain ⟨d1, hrun, -⟩ := exec_storeRow (env.atTime now) data d
    have hkey : keyOf (env.atTime now) data = k := habout data rfl
    have hstamps := stamps_storeRow hkey hrun
    show Acts env k true d (exec (storeRow (env.atTime now) data >>= fun _ => pure ()) d)
    rw [exec_bind_ok hrun]
    exact hstamps.atTime
  | finishCopy id thumbnail =>
    have hidle : Idles (Local.request (env.atTime now) k (.finishCopy id thumbnail)) :=
      idles_bind (idles_storeRest (env.atTime now) id thumbnail) fun _ => Idle.refl
    unfold Acts
    split
    next hwrites => exact absurd hwrites (by simp [Local.writes])
    next => exact hidle d

/-! ## §4. A run of requests -/

/-- The entry says this, unless retention evicted it or it has no row. -/
def Tells (k : EntryKey) (d : Daemon) (c : Carried) : Prop :=
  ∀ r, d.db.entries.find k = some r → evictedRow r ∨ carriedBy r = c

theorem Tells.idle (h : Tells k d c) (hidle : Idle d d') : Tells k d' c := by
  intro r' hr'
  obtain ⟨r, hr, hs⟩ := find_of_allSurvive hidle.rows hr'
  rcases hs.eq_or_evicted with rfl | hevicted
  · exact h _ hr
  · exact .inl hevicted

/-- What holds after some requests: the clock has not gone back, other entries have the
    rows they had, the log has increasing stamps of this device, and the entry says what
    the log says last. -/
structure Logged (env : Env) (k : EntryKey) (d : Daemon) (s : Acted) : Prop where
  clock : clock d ≤ Panod.clock s.daemon
  others : ∀ k' r', k' ≠ k → s.daemon.db.entries.find k' = some r' →
    ∃ r, d.db.entries.find k' = some r ∧ r.id = r'.id
  quiet : s.log = [] → ∀ r', s.daemon.db.entries.find k = some r' →
    ∃ r, d.db.entries.find k = some r ∧ Survives r r'
  last : ∀ w ∈ s.log.getLast?, Tells k s.daemon w
  stamps : ∀ w ∈ s.log, w.deviceId = env.deviceId ∧
    Panod.clock d < w.lamport ∧ w.lamport ≤ Panod.clock s.daemon
  increasing : s.log.Pairwise (fun a b => a.lamport < b.lamport)

theorem logged_nil (env : Env) (k : EntryKey) (d : Daemon) : Logged env k d ⟨d, []⟩ where
  clock := le_refl _
  others _ r' _ hr' := ⟨r', hr', rfl⟩
  quiet _ r' hr' := ⟨r', hr', .inl rfl⟩
  last _ h := absurd h (by simp)
  stamps _ h := absurd h (by simp)
  increasing := Pairwise.nil

/-- A step that leaves the entry alone. -/
theorem Logged.idle (h : Logged env k d s) (hidle : Idle s.daemon d') :
    Logged env k d ⟨d', s.log⟩ := by
  have hclock : Panod.clock d' = Panod.clock s.daemon := by
    unfold Panod.clock
    rw [hidle.clock]
  refine ⟨by rw [hclock]; exact h.clock, fun k' r' hne hr' => ?_, fun hnil r' hr' => ?_,
    fun w hw => (h.last w hw).idle hidle, fun w hw => by rw [hclock]; exact h.stamps w hw,
    h.increasing⟩
  · obtain ⟨r1, hr1, hs⟩ := find_of_allSurvive hidle.rows hr'
    obtain ⟨r, hr, hid⟩ := h.others k' r1 hne hr1
    exact ⟨r, hr, hid.trans hs.id_eq.symm⟩
  · obtain ⟨r1, hr1, hs⟩ := find_of_allSurvive hidle.rows hr'
    obtain ⟨r, hr, hs1⟩ := h.quiet hnil r1 hr1
    exact ⟨r, hr, hs1.trans hs⟩

/-- A step that stamps the entry. -/
theorem Logged.stamped (h : Logged env k d s) (hstamps : Stamps env k s.daemon d') :
    Logged env k d ⟨d', s.log ++ ((d'.db.entries.find k).map carriedBy).toList⟩ := by
  have hclock : Panod.clock d ≤ Panod.clock d' := le_of_lt (lt_of_le_of_lt h.clock hstamps.clock)
  have hothers : ∀ k' r', k' ≠ k → d'.db.entries.find k' = some r' →
      ∃ r, d.db.entries.find k' = some r ∧ r.id = r'.id := by
    intro k' r' hne hr'
    obtain ⟨r1, hr1, hid1⟩ := hstamps.others k' r' hne hr'
    obtain ⟨r, hr, hid⟩ := h.others k' r1 hne hr1
    exact ⟨r, hr, hid.trans hid1⟩
  have hold : ∀ w ∈ s.log, w.deviceId = env.deviceId ∧ Panod.clock d < w.lamport ∧
      w.lamport < Panod.clock d' := by
    intro w hw
    obtain ⟨hdev, hlow, hhigh⟩ := h.stamps w hw
    exact ⟨hdev, hlow, lt_of_le_of_lt hhigh hstamps.clock⟩
  cases hfind : d'.db.entries.find k with
  | none =>
    -- nothing is said of an entry that has no row
    have hnone : ∀ r', ¬ d'.db.entries.find k = some r' := by
      intro r' hr'
      rw [hfind] at hr'
      cases hr'
    simp only [Option.map_none, Option.toList_none, append_nil]
    exact ⟨hclock, hothers, fun _ r' hr' => absurd hr' (hnone r'),
      fun w _ r' hr' => absurd hr' (hnone r'),
      fun w hw => ⟨(hold w hw).1, (hold w hw).2.1, le_of_lt (hold w hw).2.2⟩, h.increasing⟩
  | some r' =>
    obtain ⟨hlamport, hdevice⟩ := hstamps.stamp r' hfind
    have hnew : (carriedBy r').lamport = Panod.clock d' := hlamport
    simp only [Option.map_some, Option.toList_some]
    refine ⟨hclock, hothers, fun hnil => absurd hnil (by simp), fun w hw => ?_, fun w hw => ?_, ?_⟩
    · rw [getLast?_append, getLast?_singleton] at hw
      cases hw
      intro r hr
      have hr : d'.db.entries.find k = some r := hr
      rw [hfind] at hr
      cases hr
      exact .inr rfl
    · rcases mem_append.mp hw with hw | hw
      · exact ⟨(hold w hw).1, (hold w hw).2.1, le_of_lt (hold w hw).2.2⟩
      · rw [mem_singleton.mp hw]
        exact ⟨hdevice, by rw [hnew]; exact lt_of_le_of_lt h.clock hstamps.clock, le_of_eq hnew⟩
    · refine pairwise_append.mpr ⟨h.increasing, pairwise_singleton _ _, ?_⟩
      intro a ha b hb
      rw [mem_singleton.mp hb, hnew]
      exact (hold a ha).2.2

/-- One request keeps it. -/
theorem Act.run_logged {a : Act} (habout : a.About env k) (h : Logged env k d s) :
    Logged env k d (a.run env k s) := by
  have hstep := a.step habout s.daemon
  unfold Act.run
  cases hrun : exec (a.op.request (env.atTime a.now) k) s.daemon with
  | mk result d' =>
    rw [hrun] at hstep
    cases result with
    | error e => exact h.idle hstep
    | ok _ =>
      cases hwrites : a.op.writes with
      | true =>
        rw [hwrites] at hstep
        exact h.stamped hstep
      | false =>
        rw [hwrites] at hstep
        exact h.idle hstep

/-- **A run of requests keeps it.** -/
theorem runAll_logged {acts : List Act} (habout : ∀ a ∈ acts, a.About env k) (d : Daemon) :
    Logged env k d (Act.runAll env k d acts) := by
  have hfold : ∀ s : Acted, Logged env k d s → Logged env k d (acts.foldl (Act.run env k) s) := by
    induction acts with
    | nil => exact fun s h => h
    | cons a acts ih =>
      intro s h
      obtain ⟨ha, hacts⟩ := forall_mem_cons.mp habout
      exact ih hacts _ (Act.run_logged ha h)
  exact hfold ⟨d, []⟩ (logged_nil env k d)

/-! ## §5. The end of applying a record -/

/-- The rest of a capture returns the row if it is still there, and fails if it is not. -/
theorem storeRest_cases (env : Env) (id : Nat) (thumbnail : Option Bytes) (d : Daemon) :
    (∃ d' r, exec (storeRest env id thumbnail) d = (.ok (rowToEntry d'.dbCipher r), d') ∧
      d'.db.entries.get id = some r ∧ Idle d d') ∨
    ∃ e d', exec (storeRest env id thumbnail) d = (.error e, d') ∧
      d'.db.entries.get id = none ∧ Idle d d' := by
  have hidle := idles_storeRest env id thumbnail d
  cases hrun : exec (storeRest env id thumbnail) d with
  | mk result d' =>
    rw [hrun] at hidle
    cases result with
    | ok entry =>
      obtain ⟨-, d1, -, hrest⟩ := exec_bind_eq_ok.mp hrun
      obtain ⟨-, d2, -, hentry⟩ := exec_bind_eq_ok.mp hrest
      cases hget : d2.db.entries.get id with
      | none =>
        rw [exec_getEntry_error hget] at hentry
        cases hentry
      | some r =>
        rw [exec_getEntry_ok hget] at hentry
        cases hentry
        exact .inl ⟨d', r, rfl, hget, hidle⟩
    | error e =>
      refine .inr ⟨e, d', rfl, ?_, hidle⟩
      cases hget' : d'.db.entries.get id with
      | none => rfl
      | some r' =>
        -- a row that is there was there, and then nothing fails
        obtain ⟨r, hr, -⟩ := get_of_allSurvive hidle.rows hget'
        obtain ⟨d1, hthumb, -⟩ := exec_storeThumbnail env hr thumbnail
        obtain ⟨d2, hgc, -⟩ := exec_collectGarbage env d1
        unfold storeRest at hrun
        rw [exec_bind_ok hthumb, exec_bind_ok hgc] at hrun
        cases hget : d2.db.entries.get id with
        | none =>
          rw [exec_getEntry_error hget] at hrun
          cases hrun
          exact absurd (hget.symm.trans hget') (by simp)
        | some r =>
          rw [exec_getEntry_ok hget] at hrun
          cases hrun

/-- **After the await**: the record's state is written over whatever the row says by
    then, or the row is gone. -/
theorem resume_cases (env : Env) (record : SyncRecord) (id : Nat) (image : Bytes) (d : Daemon) :
    (∃ d1 r d' n, Idle d d1 ∧ d1.db.entries.get id = some r ∧
      exec (resumeRecord env record (.waiting id image)) d = (.ok .yes, d') ∧
      d1.db.Wrote r.key { r with cols :=
        (takenOver record (r.cols.timed record.createdAt record.lastSeenAt)).numbered n } d'.db) ∨
    ∃ e d', exec (resumeRecord env record (.waiting id image)) d = (.error e, d') ∧
      d'.db.entries.get id = none ∧ Idle d d' := by
  rcases storeRest_cases env id (env.content.renderThumbnail image) d with
    ⟨d1, r, hrest, hget, hidle⟩ | ⟨e, d1, hrest, hget, hidle⟩
  · have hid : (rowToEntry d1.dbCipher r).id = r.id := rfl
    obtain ⟨db1, htimes, hwrote1⟩ := wrote_setTimes (find_of_get hget) record.createdAt
      record.lastSeenAt
    obtain ⟨d2, htake, hwrote2, -⟩ := exec_takeOver (d := { d1 with db := db1 }) record hwrote1.row
    refine .inl ⟨d1, r, d2, _, hidle, hget, ?_, hwrote1.trans hwrote2⟩
    show exec (finishNew env record id (env.content.renderThumbnail image)) d = _
    unfold finishNew
    rw [exec_bind_ok hrest, hid]
    exact (exec_bind_ok (exec_changeDb_ok htimes) _).trans (exec_bind_ok htake _)
  · refine .inr ⟨e, d1, ?_, hget, hidle⟩
    exact exec_bind_error hrest _

/-- The clock stands still over it. -/
theorem clock_resume (env : Env) (record : SyncRecord) (id : Nat) (image : Bytes) (d : Daemon) :
    clock (exec (resumeRecord env record (.waiting id image)) d).2 = clock d := by
  have hkeeps := ((amends_sameClock env d).finishNew (i := id) trivial record
    (env.content.renderThumbnail image) d (SameClock.refl d)).1
  exact congrArg (fun c => c.getD 0) hkeeps

/-- The row that was written before the await is the entry's own, whatever ran since. -/
theorem Waits.owned (h : Waits env sent d id image d1) (hlogged : Logged env sent.key d1 s)
    (hget : s.daemon.db.entries.get id = some r) : r.key = sent.key := by
  by_contra hne
  obtain ⟨r1, hr1, hid1⟩ := hlogged.others r.key r hne (find_of_get hget)
  obtain ⟨r0, hr0, hid0, -⟩ := h.find
  have hid : r.id = id := (get_eq_some.mp hget).2
  have hsame : r1 = r0 := eq_of_id_eq (find_eq_some.mp hr1).1
    (find_eq_some.mp hr0).1 (hid1.trans (hid.trans hid0.symm))
  rw [← (find_eq_some.mp hr1).2, hsame, (find_eq_some.mp hr0).2] at hne
  exact hne rfl

/-! ## §6. How a race comes out -/

/-- What was said before some requests that made nothing is said after them. -/
theorem Logged.tells (h : Logged env k d s) (hc : Tells k d c)
    (hnil : s.log = []) : Tells k s.daemon c := by
  intro r' hr'
  obtain ⟨r, hr, hs⟩ := h.quiet hnil r' hr'
  rcases hs.eq_or_evicted with rfl | hevicted
  · exact hc _ hr
  · exact .inl hevicted

/-- What is said after two runs of requests: what the last of them made, or what was
    said before. -/
theorem Logged.tells_last (h : Logged env k d s) (hc : Tells k d c) :
    Tells k s.daemon (s.log.getLast?.getD c) := by
  cases hlast : s.log.getLast? with
  | none => exact h.tells hc (getLast?_eq_none_iff.mp hlast)
  | some w => exact h.last w hlast

/-- The same after two runs. -/
theorem Logged.tells_both (h : Logged env k d s) (hc : Tells k d c) (h' : Logged env k d' t)
    (hidle : Idle s.daemon d') : Tells k t.daemon ((s.log ++ t.log).getLast?.getD c) := by
  rw [getLast?_append, Option.getD_or]
  exact h'.tells_last ((h.tells_last hc).idle hidle)

/-- The logs of two runs, one after the other. -/
theorem Logged.append (h : Logged env k d s) (h' : Logged env k d' t)
    (hclock : Panod.clock s.daemon ≤ Panod.clock d') :
    (∀ w ∈ s.log ++ t.log, w.deviceId = env.deviceId) ∧
      (s.log ++ t.log).Pairwise (fun a b => a.lamport < b.lamport) := by
  constructor
  · intro w hw
    rcases mem_append.mp hw with hw | hw
    · exact (h.stamps w hw).1
    · exact (h'.stamps w hw).1
  · refine pairwise_append.mpr ⟨h.increasing, h'.increasing, fun a ha b hb => ?_⟩
    have hlow := (h.stamps a ha).2.2
    have hhigh := (h'.stamps b hb).2.1
    omega

/-- What is known of a race that is over. -/
structure Outcome (env : Env) (sent : SyncRecord) (d : Daemon) (s : Raced) : Prop where
  device : ∀ w ∈ s.during ++ s.afterwards, w.deviceId = env.deviceId
  increasing : (s.during ++ s.afterwards).Pairwise (fun a b => a.lamport < b.lamport)
  /-- A record is written over what was made while it waited only if it is live and
      newer than what was here at the start. -/
  older : s.overwrote = true → sent.deleted = false ∧
    ∀ r, d.db.entries.find sent.key = some r → rowStamp r < sent.stamp
  none : s.during ++ s.afterwards = [] →
    Tells sent.key s.daemon (settled sent (d.db.entries.find sent.key))
  last : ∀ w ∈ (s.during ++ s.afterwards).getLast?, ¬ (s.overwrote = true ∧ s.afterwards = []) →
    Tells sent.key s.daemon w
  overwritten : s.overwrote = true → s.afterwards = [] → ∀ w ∈ s.during.getLast?,
    Tells sent.key s.daemon ⟨sent.lamport, sent.deviceId, sent.pinned, w.deleted⟩

/-- Once it has not waited, or is done, the record's entry says what it should. -/
theorem tells_finished (hacc : Acceptable env sent) (h : (exec (applyRecord env sent) d).2 = d1) :
    Tells sent.key d1 (settled sent (d.db.entries.find sent.key)) := by
  intro r hr
  by_cases hevicted : evictedRow r
  · exact .inl hevicted
  · rw [← h] at hr
    exact .inr (applyRecord_row hacc.wellFormed hacc.admitted hr hevicted)

/-- A record that does not wait, and some requests after it. -/
theorem outcome_finished (hacc : Acceptable env sent)
    (h : (exec (applyRecord env sent) d).2 = d1) (hs : Logged env sent.key d1 s)
    (ht : Logged env sent.key s.daemon t) : Outcome env sent d ⟨t.daemon, false, s.log, t.log⟩ := by
  obtain ⟨hdevice, hincreasing⟩ := hs.append ht (le_refl _)
  have hfinal := hs.tells_both (tells_finished hacc h) ht (Idle.refl _)
  refine ⟨hdevice, hincreasing, fun h => absurd h (by simp), fun hnil => ?_, fun w hw _ => ?_,
    fun h => absurd h (by simp)⟩
  · rw [show s.log ++ t.log = [] from hnil] at hfinal
    exact hfinal
  · rw [show (s.log ++ t.log).getLast? = some w from hw] at hfinal
    exact hfinal

/-- A row a record's state is written over: what it says, and that an eviction stays. -/
theorem carriedBy_overwritten (record : SyncRecord) (r : EntryRow) (createdAt lastSeenAt : Int)
    (n : Nat) :
    carriedBy { r with cols := (takenOver record (r.cols.timed createdAt lastSeenAt)).numbered n }
      = ⟨record.lamport, record.deviceId, record.pinned, r.cols.deleted⟩ := rfl

theorem evictedRow_overwritten (record : SyncRecord) {createdAt lastSeenAt : Int} {n : Nat}
    (h : evictedRow r) : evictedRow
      { r with cols := (takenOver record (r.cols.timed createdAt lastSeenAt)).numbered n } :=
  ⟨h.1, h.2⟩

/-- What the record's state leaves of what was said. -/
theorem tells_overwritten {d1 d2 : Daemon} {n : Nat}
    (hwaits : Waits env sent d id image d1) (hs : Logged env sent.key d1 s)
    (hc : Tells sent.key s.daemon c) {dg : Daemon} (hidle : Idle s.daemon dg)
    (hget : dg.db.entries.get id = some r)
    (hwrote : dg.db.Wrote r.key { r with cols := (takenOver (clampTimes env sent)
      (r.cols.timed (clampTimes env sent).createdAt (clampTimes env sent).lastSeenAt)).numbered n }
        d2.db) :
    Tells sent.key d2 ⟨sent.lamport, sent.deviceId, sent.pinned, c.deleted⟩ := by
  obtain ⟨r0, hr0, hsurvives⟩ := get_of_allSurvive hidle.rows hget
  have hkey : r.key = sent.key := hsurvives.key_eq.trans (hwaits.owned hs hr0)
  intro r' hr'
  rw [← hkey, hwrote.row] at hr'
  cases hr'
  -- an eviction is not undone, and what is deleted stays deleted
  have htells := hc.idle hidle r (by rw [← hkey]; exact find_of_get hget)
  rcases htells with hevicted | hcarried
  · exact .inl (evictedRow_overwritten _ hevicted)
  · right
    have hdel : r.cols.deleted = c.deleted := congrArg Carried.deleted hcarried
    rw [carriedBy_overwritten, hdel]
    rfl

/-- A record that waited, the requests that ran meanwhile, its end, and some more. -/
theorem outcome_waited {d1 d2 : Daemon} {result : Except Error Applied}
    (hwaits : Waits env sent d id image d1) (hs : Logged env sent.key d1 s)
    (hresume : exec (resumeRecord (env.atTime now) (clampTimes env sent) (.waiting id image))
      s.daemon = (result, d2)) (ht : Logged env sent.key d2 t) :
    Outcome env sent d ⟨t.daemon, result.isOk, s.log, t.log⟩ := by
  obtain ⟨r0, hr0, hid0, hcarried0⟩ := hwaits.find
  have hclock : clock d2 = clock s.daemon := by
    have := clock_resume (env.atTime now) (clampTimes env sent) id image s.daemon
    rw [hresume] at this
    exact this
  obtain ⟨hdevice, hincreasing⟩ := hs.append ht (le_of_eq hclock.symm)
  have holder : sent.deleted = false ∧
      ∀ r, d.db.entries.find sent.key = some r → rowStamp r < sent.stamp :=
    ⟨hwaits.live, fun r hr => (hwaits.older r hr).2⟩
  have hstart : Tells sent.key d1 (carriedBy r0) := by
    intro r hr
    rw [hr0] at hr
    cases hr
    exact .inr rfl
  have hsettled : settled sent (d.db.entries.find sent.key) = remoteState sent := by
    cases hfind : d.db.entries.find sent.key with
    | none => rfl
    | some r =>
      rw [settled, if_pos (holder.2 r hfind), if_neg (by rw [holder.1]; simp)]
  rcases resume_cases (env.atTime now) (clampTimes env sent) id image s.daemon with
    ⟨dg, r, d', n, hidle, hget, hrun, hwrote⟩ | ⟨e, d', hrun, hgone, hidle⟩
  · rw [hrun] at hresume
    cases hresume
    have hover : ∀ c, Tells sent.key s.daemon c →
        Tells sent.key d2 ⟨sent.lamport, sent.deviceId, sent.pinned, c.deleted⟩ :=
      fun c hc => tells_overwritten hwaits hs hc hidle hget hwrote
    refine ⟨hdevice, hincreasing, fun _ => holder, fun hnil => ?_, fun w hw hnot => ?_,
      fun _ hafter w hw => ?_⟩
    · obtain ⟨hsnil, htnil⟩ := append_eq_nil_iff.mp hnil
      have hrow := hover _ (hs.tells hstart hsnil)
      rw [hcarried0] at hrow
      rw [hsettled, remoteState, filed, holder.1]
      exact ht.tells hrow htnil
    · have hne : t.log ≠ [] := fun hnil => hnot ⟨rfl, hnil⟩
      have hw : (s.log ++ t.log).getLast? = some w := hw
      rw [getLast?_append_of_ne_nil _ hne] at hw
      exact ht.last w hw
    · exact ht.tells (hover w (hs.last w hw)) hafter
  · rw [hrun] at hresume
    cases hresume
    refine ⟨hdevice, hincreasing, fun h => absurd h (by simp [Except.isOk, Except.toBool]),
      fun hnil => ?_, fun w hw _ => ?_, fun h => absurd h (by simp [Except.isOk, Except.toBool])⟩
    · -- with no copy in between, the row that is gone was the entry's
      obtain ⟨hsnil, htnil⟩ := append_eq_nil_iff.mp hnil
      intro r' hr'
      obtain ⟨r1, hr1, hs1⟩ := ht.quiet htnil r' hr'
      obtain ⟨r2, hr2, hs2⟩ := find_of_allSurvive hidle.rows hr1
      obtain ⟨r3, hr3, hs3⟩ := hs.quiet hsnil r2 hr2
      rw [hr0] at hr3
      cases hr3
      have hthere := get_of_find hr1
      rw [hs2.id_eq, hs3.id_eq, hid0, hgone] at hthere
      cases hthere
    · have hfinal := hs.tells_both hstart ht hidle
      rw [show (s.log ++ t.log).getLast? = some w from hw] at hfinal
      exact hfinal

/-- **How a race comes out.** -/
theorem race_outcome (hacc : Acceptable env sent) {window after : List Act}
    (hwindow : ∀ a ∈ window, a.About env sent.key) (hafter : ∀ a ∈ after, a.About env sent.key)
    (d : Daemon) (resumed : Int) : Outcome env sent d (race env sent d window resumed after) := by
  unfold race
  cases hbegin : exec (beginRecord env sent) d with
  | mk stage d1 =>
    have hs := runAll_logged hwindow d1
    cases stage with
    | error e =>
      exact outcome_finished hacc (by rw [applyRecord_eq, exec_bind_error hbegin]) hs
        (runAll_logged hafter _)
    | ok stage =>
      cases stage with
      | finished became =>
        exact outcome_finished hacc (by rw [applyRecord_eq, exec_bind_ok hbegin]; rfl) hs
          (runAll_logged hafter _)
      | waiting id image =>
        exact outcome_waited (beginRecord_waiting hbegin) hs rfl (runAll_logged hafter _)

/-! ## §7. When the newest operation settles it -/

/-- The operations on the entry: what made its state at the start, the record, and the
    local requests that succeeded. -/
def operations (sent : SyncRecord) (base : Option EntryRow) (s : Raced) : List Carried :=
  (base.map carriedBy).toList ++ remoteState sent :: (s.during ++ s.afterwards)

/-- What was there before the local requests. -/
def earlier (sent : SyncRecord) (base : Option EntryRow) : List Carried :=
  (base.map carriedBy).toList ++ [remoteState sent]

/-- The newest operation settles the entry, in terms of how the race came out.  With no
    local request it does, but for the pin of a deletion.  If the record was written
    over the last local state, the two have to agree on what the older of them loses.
    Otherwise the last local state stands: it has to be the newest, or to say the same. -/
def NewestStands (sent : SyncRecord) (base : Option EntryRow) (s : Raced) : Prop :=
  match (s.during ++ s.afterwards).getLast? with
  | none => ∀ r, base = some r → sent.deleted = true → rowStamp r < sent.stamp →
      r.cols.pinned = sent.pinned
  | some w =>
    if s.overwrote = true ∧ s.afterwards = [] then
      (sent.stamp ≤ w.stamp ∧ w.pinned = sent.pinned) ∨
        (w.stamp ≤ sent.stamp ∧ w.deleted = false)
    else
      (∀ e ∈ earlier sent base, e.stamp ≤ w.stamp) ∨
        ∃ e ∈ earlier sent base, (∀ e' ∈ earlier sent base, e'.stamp ≤ e.stamp) ∧
          w.stamp ≤ e.stamp ∧ e.deleted = w.deleted ∧ e.pinned = w.pinned

theorem mem_earlier : e ∈ earlier sent base ↔
    (∃ b, base = some b ∧ e = carriedBy b) ∨ e = remoteState sent := by
  unfold earlier
  cases base with
  | none => simp
  | some b => simp

theorem mem_operations {s : Raced} :
    e ∈ operations sent base s ↔ e ∈ earlier sent base ∨ e ∈ s.during ++ s.afterwards := by
  unfold operations earlier
  simp only [mem_append, mem_cons, not_mem_nil, or_false]
  tauto

/-- Of one device, the greater Lamport value is the newer stamp. -/
theorem stamp_lt_stamp {a b : Carried} (hdevice : a.deviceId = b.deviceId)
    (hlt : a.lamport < b.lamport) : a.stamp < b.stamp := by
  unfold Carried.stamp stampOf
  rw [hdevice]
  exact Prod.Lex.toLex_lt_toLex.mpr (.inl hlt)

/-- The last local state is the newest local state, and the only one that is. -/
theorem Outcome.last_newest {s : Raced} (h : Outcome env sent d s) {w w' : Carried}
    (hw : (s.during ++ s.afterwards).getLast? = some w) (hw' : w' ∈ s.during ++ s.afterwards) :
    w'.stamp ≤ w.stamp ∧ (w.stamp ≤ w'.stamp → w' = w) := by
  obtain ⟨init, hinit⟩ := getLast?_eq_some_iff.mp hw
  have hincreasing := h.increasing
  have hdevice := h.device
  rw [hinit] at hincreasing hdevice hw'
  rcases mem_append.mp hw' with hmem | hmem
  · have hlt : w'.lamport < w.lamport :=
      (pairwise_append.mp hincreasing).2.2 w' hmem w (by simp)
    have hstamp := stamp_lt_stamp ((hdevice w' (by simp [hmem])).trans
      (hdevice w (by simp)).symm) hlt
    exact ⟨le_of_lt hstamp, fun hle => absurd hle (not_le_of_gt hstamp)⟩
  · rw [mem_singleton.mp hmem]
    exact ⟨le_refl _, fun _ => rfl⟩

variable {base : Option EntryRow} {s : Raced} {w : Carried}

/-- With no local request. -/
theorem settles_none (hnil : s.during ++ s.afterwards = []) (hr : carriedBy r = settled sent base) :
    Settles r (operations sent base s) ↔ ∀ b, base = some b → sent.deleted = true →
      rowStamp b < sent.stamp → b.cols.pinned = sent.pinned := by
  have hops : ∀ e, e ∈ operations sent base s ↔ e ∈ earlier sent base := by
    intro e
    rw [mem_operations, hnil]
    simp
  have hdel : r.cols.deleted = (settled sent base).deleted := congrArg Carried.deleted hr
  have hpin : r.cols.pinned = (settled sent base).pinned := congrArg Carried.pinned hr
  unfold Settles
  simp only [hops, hdel, hpin]
  cases base with
  | none =>
    refine ⟨fun _ b hb => absurd hb (by simp), fun _ => ?_⟩
    exact ⟨remoteState sent, mem_earlier.mpr (.inr rfl), fun e he => by
      rcases mem_earlier.mp he with ⟨b, hb, -⟩ | rfl
      · cases hb
      · exact le_refl _, rfl, rfl⟩
  | some b =>
    have hcases : ∀ e, e ∈ earlier sent (some b) ↔ e = carriedBy b ∨ e = remoteState sent := by
      intro e
      rw [mem_earlier]
      simp
    simp only [hcases, settled]
    by_cases hwins : rowStamp b < sent.stamp
    · simp only [if_pos hwins]
      by_cases hsent : sent.deleted = true
      · simp only [if_pos hsent]
        constructor
        · rintro ⟨g, hg | hg, hgreatest, -, hgpin⟩ b' hb' - -
          · have := hgreatest (remoteState sent) (.inr rfl)
            rw [hg] at this
            exact absurd hwins (not_lt_of_ge this)
          · cases hb'
            rw [hg] at hgpin
            exact hgpin
        · intro h
          refine ⟨remoteState sent, .inr rfl, ?_, hsent.symm, h b rfl hsent hwins⟩
          rintro e (rfl | rfl)
          · exact le_of_lt hwins
          · exact le_refl _
      · simp only [if_neg hsent]
        refine ⟨fun _ _ _ hdeleted => absurd hdeleted hsent, fun _ => ?_⟩
        refine ⟨remoteState sent, .inr rfl, ?_, rfl, rfl⟩
        rintro e (rfl | rfl)
        · exact le_of_lt hwins
        · exact le_refl _
    · simp only [if_neg hwins]
      refine ⟨fun _ b' hb' _ hlt => ?_, fun _ => ?_⟩
      · cases hb'
        exact absurd hlt hwins
      · refine ⟨carriedBy b, .inl rfl, ?_, rfl, rfl⟩
        rintro e (rfl | rfl)
        · exact le_refl _
        · exact not_lt.mp hwins

/-- With local requests, the newest operation is the last of them or one before them. -/
theorem settles_iff (h : Outcome env sent d s)
    (hw : (s.during ++ s.afterwards).getLast? = some w) :
    Settles r (operations sent base s) ↔
      ((∀ e ∈ earlier sent base, e.stamp ≤ w.stamp) ∧
        r.cols.deleted = w.deleted ∧ r.cols.pinned = w.pinned) ∨
      ∃ e ∈ earlier sent base, (∀ e' ∈ earlier sent base, e'.stamp ≤ e.stamp) ∧
        w.stamp ≤ e.stamp ∧ r.cols.deleted = e.deleted ∧ r.cols.pinned = e.pinned := by
  have hmem : w ∈ s.during ++ s.afterwards := mem_of_getLast? hw
  unfold Settles
  simp only [mem_operations]
  constructor
  · rintro ⟨g, hg | hg, hgreatest, hgdel, hgpin⟩
    · exact .inr ⟨g, hg, fun e he => hgreatest e (.inl he), hgreatest w (.inr hmem), hgdel, hgpin⟩
    · obtain rfl := (h.last_newest hw hg).2 (hgreatest w (.inr hmem))
      exact .inl ⟨fun e he => hgreatest e (.inl he), hgdel, hgpin⟩
  · rintro (⟨hall, hdel, hpin⟩ | ⟨e, he, hgreatest, hle, hdel, hpin⟩)
    · refine ⟨w, .inr hmem, fun e he => ?_, hdel, hpin⟩
      rcases he with he | he
      · exact hall e he
      · exact (h.last_newest hw he).1
    · refine ⟨e, .inl he, fun e' he' => ?_, hdel, hpin⟩
      rcases he' with he' | he'
      · exact hgreatest e' he'
      · exact le_trans (h.last_newest hw he').1 hle

/-- With the last local state still there. -/
theorem settles_last (h : Outcome env sent d s)
    (hw : (s.during ++ s.afterwards).getLast? = some w) (hr : carriedBy r = w) :
    Settles r (operations sent base s) ↔
      (∀ e ∈ earlier sent base, e.stamp ≤ w.stamp) ∨
        ∃ e ∈ earlier sent base, (∀ e' ∈ earlier sent base, e'.stamp ≤ e.stamp) ∧
          w.stamp ≤ e.stamp ∧ e.deleted = w.deleted ∧ e.pinned = w.pinned := by
  have hdel : r.cols.deleted = w.deleted := congrArg Carried.deleted hr
  have hpin : r.cols.pinned = w.pinned := congrArg Carried.pinned hr
  rw [settles_iff h hw, hdel, hpin]
  simp only [and_true, eq_comm]

/-- With the record written over the last local state. -/
theorem settles_over (h : Outcome env sent d s) (hover : s.overwrote = true)
    (hw : (s.during ++ s.afterwards).getLast? = some w)
    (hr : carriedBy r = ⟨sent.lamport, sent.deviceId, sent.pinned, w.deleted⟩) :
    Settles r (operations sent (d.db.entries.find sent.key) s) ↔
      (sent.stamp ≤ w.stamp ∧ w.pinned = sent.pinned) ∨
        (w.stamp ≤ sent.stamp ∧ w.deleted = false) := by
  obtain ⟨hlive, hbase⟩ := h.older hover
  have hdel : r.cols.deleted = w.deleted := congrArg Carried.deleted hr
  have hpin : r.cols.pinned = sent.pinned := congrArg Carried.pinned hr
  -- what was here at the start is older than the record
  have hearlier : ∀ e ∈ earlier sent (d.db.entries.find sent.key), e.stamp ≤ sent.stamp := by
    intro e he
    rcases mem_earlier.mp he with ⟨b, hb, rfl⟩ | rfl
    · exact le_of_lt (hbase b hb)
    · exact le_refl _
  have hremote : remoteState sent ∈ earlier sent (d.db.entries.find sent.key) :=
    mem_earlier.mpr (.inr rfl)
  rw [settles_iff h hw, hdel, hpin]
  constructor
  · rintro (⟨hall, -, hsame⟩ | ⟨g, hg, hgreatest, hwg, hgdel, -⟩)
    · exact .inl ⟨hall _ hremote, hsame.symm⟩
    · rcases mem_earlier.mp hg with ⟨b, hb, rfl⟩ | rfl
      · exact absurd (hbase b hb) (not_lt_of_ge (hgreatest _ hremote))
      · exact .inr ⟨hwg, hgdel.trans hlive⟩
  · rintro (⟨hle, hsame⟩ | ⟨hle, hwlive⟩)
    · exact .inl ⟨fun e he => le_trans (hearlier e he) hle, rfl, hsame.symm⟩
    · exact .inr ⟨_, hremote, hearlier, hle, hwlive.trans hlive.symm, rfl⟩

/-- **A completed local change can be overwritten by an older record.**  After a record
    was applied and local requests ran on its entry, in any interleaving, the entry is in
    the state of the newest operation exactly if `NewestStands`. -/
theorem newest_operation_settles_iff (env : Env) (sent : SyncRecord) (d : Daemon)
    (window : List Act) (resumed : Int) (after : List Act) (hacc : Acceptable env sent)
    (hwindow : ∀ a ∈ window, a.About env sent.key) (hafter : ∀ a ∈ after, a.About env sent.key)
    (r : EntryRow)
    (hr : (race env sent d window resumed after).daemon.db.entries.find sent.key = some r)
    (hkept : ¬ evictedRow r) :
    Settles r (operations sent (d.db.entries.find sent.key) (race env sent d window resumed after))
      ↔ NewestStands sent (d.db.entries.find sent.key) (race env sent d window resumed after) := by
  have hout := race_outcome hacc hwindow hafter d resumed
  have htells : ∀ c, Tells sent.key (race env sent d window resumed after).daemon c →
      carriedBy r = c := fun c hc => (hc r hr).resolve_left hkept
  unfold NewestStands
  cases hlast : ((race env sent d window resumed after).during ++
      (race env sent d window resumed after).afterwards).getLast? with
  | none =>
    have hnil := getLast?_eq_none_iff.mp hlast
    exact settles_none hnil (htells _ (hout.none hnil))
  | some w =>
    by_cases hover : (race env sent d window resumed after).overwrote = true ∧
        (race env sent d window resumed after).afterwards = []
    · simp only [if_pos hover]
      refine settles_over hout hover.1 hlast (htells _ (hout.overwritten hover.1 hover.2 w ?_))
      rw [hover.2, append_nil] at hlast
      exact hlast
    · simp only [if_neg hover]
      exact settles_last hout hlast (htells _ (hout.last w hlast hover))

namespace Sample

/-- The user pins a picture while its thumbnail is made. -/
def pinMeanwhile (sent : SyncRecord) : Raced :=
  race pictures sent fresh [⟨1700000001, .pin true⟩] 1700000002 []

/-- A picture from a phone that is not pinned there. -/
def snapshot : SyncRecord := { photo with pinned := false }

/-- **The pin succeeded with the newer stamp, and is gone.** -/
theorem older_record_overwrites_a_pin :
    (pinMeanwhile snapshot).during = [⟨9, "here", true, false⟩] ∧
      ∃ r ∈ (pinMeanwhile snapshot).daemon.db.entries.rows, r.key = snapshot.key ∧
        carriedBy r = ⟨7, "phone", false, false⟩ ∧
        ¬ Settles r (operations snapshot none (pinMeanwhile snapshot)) := by
  decide +kernel

theorem acceptable_photo : Acceptable pictures photo :=
  ⟨by decide +kernel, fun _ => by decide +kernel⟩

/-- A record that is pinned itself agrees with the pin. -/
theorem newest_operation_settles_a_pin :
    ∃ r, (pinMeanwhile photo).daemon.db.entries.find photo.key = some r ∧
      Settles r (operations photo none (pinMeanwhile photo)) := by
  have hrow : ((pinMeanwhile photo).daemon.db.entries.find photo.key).isSome = true ∧
      ∀ r ∈ (pinMeanwhile photo).daemon.db.entries.rows, r.cols.deleted = false := by
    decide +kernel
  have hrace : (pinMeanwhile photo).during = [⟨9, "here", true, false⟩] ∧
      (pinMeanwhile photo).afterwards = [] ∧ (pinMeanwhile photo).overwrote = true := by
    decide +kernel
  obtain ⟨r, hr⟩ := Option.isSome_iff_exists.mp hrow.1
  refine ⟨r, hr, ?_⟩
  have hlive := hrow.2 r (find_eq_some.mp hr).1
  refine (newest_operation_settles_iff pictures photo fresh [⟨1700000001, .pin true⟩] 1700000002 []
    acceptable_photo (fun a ha => ?_) (fun a ha => absurd ha (by simp)) r hr
    (fun h => absurd (hlive.symm.trans h.1) (by simp))).mpr ?_
  · intro data hcopy
    rw [mem_singleton.mp ha] at hcopy
    cases hcopy
  · show NewestStands photo none (pinMeanwhile photo)
    unfold NewestStands
    rw [hrace.1, hrace.2.1]
    simp only [append_nil, getLast?_singleton, hrace.2.2, true_and, if_true]
    exact .inl ⟨by decide, rfl⟩

end Sample

end Panora.Panod
