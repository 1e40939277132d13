/-
  Panora.Panod.Clock — the Lamport clock of a history.

  `Database::tick_lamport` and `observe_lamport`, as the daemon uses them.  The clock
  is the library's: it follows a value below 2^52 only, whether a peer sends it or a
  row holds it.  So no peer can push it near 2^53, where its stamps would be refused.
  The other side of this: a row may carry a stamp above everything the clock has been
  told of, and then a change made here does not win over it.

  Main results:
    * `Write.follows`                 — what a write does to the clock is what its log says;
    * `lamport_clock_safe`            — what every tick gives, in any run of writes;
    * `local_change_newest_iff`       — when a change made here is the newest state of its row;
    * `pin_loses_to_high_stamp`       — a pin that loses to the state it changed.
-/
import Panora.Lib.Lamport
import Panora.Panod.Race

namespace Panora.Panod

open Storage Storage.Database Lib Lib.Op

variable {env : Env} {d d' : Daemon} {k : EntryKey} {r r' : EntryRow} {id : Nat} {α : Type}

/-! ## §1. The clock of the database -/

/-- The Lamport values in the rows. -/
def rowLamports (db : Database) : List Int := db.entries.rows.map (fun r => r.cols.lamport)

theorem maxRowLamport_eq (db : Database) :
    db.maxRowLamport = Lamport.greatest lamportObserveLimit (rowLamports db) := by
  unfold maxRowLamport Lamport.greatest rowLamports
  rw [List.filter_map]
  rfl

/-- The next local value is the library's tick. -/
theorem tickLamport_eq (d : Daemon) :
    d.db.tickLamport.1 = Lamport.tick lamportObserveLimit (clock d) (rowLamports d.db) := by
  show max (d.db.lamportClock.getD 0) d.db.maxRowLamport + 1 = _
  rw [maxRowLamport_eq]
  rfl

theorem lamportObserveLimit_pos : 0 < lamportObserveLimit := by decide

variable {record : SyncRecord}

/-- Recording a value that passes the check of a record brings the clock up to it. -/
theorem clock_observed (hpos : 1 ≤ record.lamport) (hbelow : record.lamport < lamportObserveLimit) :
    clock (observed record d) = max (clock d) record.lamport := by
  unfold observed observe clock
  rw [if_pos hbelow]
  show (d.db.observeLamport record.lamport).lamportClock.getD 0 = _
  unfold observeLamport
  cases hclock : d.db.lamportClock with
  | none =>
    show record.lamport = max 0 record.lamport
    omega
  | some c => rfl

/-- A value beyond the limit does not move it. -/
theorem observed_eq (hbeyond : ¬ record.lamport < lamportObserveLimit) : observed record d = d := by
  unfold observed observe
  rw [if_neg hbeyond]
  rfl

/-! ## §2. What a write does to the clock -/

/-- A tick of the database as it is. -/
def tickEvent (d : Daemon) : Lamport.Event := .ticked (rowLamports d.db) d.db.tickLamport.1

/-- What applying a record does to the clock. -/
def recordLog (env : Env) (sent : SyncRecord) (d : Daemon) : List Lamport.Event :=
  let record := clampTimes env sent
  if malformed env sent then []
  else
    (if record.lamport < lamportObserveLimit then [.observed record.lamport] else [])
    ++ (if storedAnew env record (d.db.find d.dbCipher sent.key) then
        [tickEvent (observed record d)] else [])

/-- What a write does to the clock. -/
def Write.clockLog : Write → Daemon → List Lamport.Event
  | .capture _ _, d => [tickEvent d]
  | .tick, d => [tickEvent d]
  | .remoteRecord env record, d => recordLog env record d
  | _, _ => []

/-- What a run of writes does to the clock. -/
def clockLog : Daemon → List Write → List Lamport.Event
  | _, [] => []
  | d, w :: ws => w.clockLog d ++ clockLog (exec w.request d).2 ws

/-- The history after a run of writes. -/
def afterWrites (d : Daemon) (ws : List Write) : Daemon :=
  ws.foldl (fun d w => (exec w.request d).2) d

/-- An operation that leaves the clock alone follows the empty log. -/
theorem follows_nil {x : Request α} (h : KeepsClock x) (d : Daemon) :
    Lamport.Follows lamportObserveLimit (clock d) [] (clock (exec x d).2) := by
  show clock (exec x d).2 = clock d
  unfold clock
  rw [show (exec x d).2.db.lamportClock = d.db.lamportClock from h d]

theorem lamportClock_restore {db db' : Database} {cipher : Key} (h : db.restore cipher id = .ok db') :
    db'.lamportClock = db.lamportClock := by
  unfold Database.restore at h
  obtain ⟨entry, -, h⟩ := Fallible.bind_ok_iff.mp h
  split at h
  next =>
    cases h
    exact lamportClock_trackedUpdate db id _
  next =>
    cases h
    rfl

theorem keepsClock_restoreRow (id : Nat) : KeepsClock (restoreRow id) :=
  keeps_attempt_map SameClock.refl fun _ _ h => lamportClock_restore h

theorem keepsClock_storeRest (env : Env) (id : Nat) (thumbnail : Option Bytes) :
    KeepsClock (storeRest env id thumbnail) :=
  fun d => (idles_storeRest env id thumbnail d).clock

/-- A wipe keeps the clock, so stamps made after it stay above those made before. -/
theorem keepsClock_wipeStorage (env : Env) (fresh : Key) : KeepsClock (wipeStorage env fresh) :=
  keepsClock_bind (fun _ => rfl) fun _ =>
    keepsClock_bind (fun d => (sameMeta_wipeBlobs d).clock) fun _ =>
      keepsClock_bind (fun d => (sameMeta_rekeyDb env fresh d).clock) fun _ =>
        fun d => (sameMeta_rekeyBlobs fresh d).clock

/-- A tombstone from elsewhere has a stamp of its own. -/
theorem keepsClock_applyDeletion (env : Env) (record : SyncRecord) (here : Option Entry) :
    KeepsClock (applyDeletion env record here) :=
  keeps_of_maintains SameClock.refl fun d =>
    (amends_sameClock env d).applyDeletion record fun _ _ => trivial

/-- A record that takes the path of a capture ticks the clock once. -/
theorem clock_applyNew (h : admitted env record = true) (d : Daemon) :
    clock (exec (applyNew env record) d).2 = d.db.tickLamport.1 := by
  obtain ⟨d1, hrun, -⟩ := exec_storeRow env (captureOf record) d
  have hclock := clock_storeRow env (captureOf record) d
  rw [hrun] at hclock
  -- what follows leaves the clock alone, whether it succeeds or not
  have hrest := ((amends_sameClock env d1).finishNew (i := (capturedRow env (captureOf record) d).id)
    trivial record ((imageOf env (captureOf record)).bind env.content.renderThumbnail) d1
    (SameClock.refl d1)).1
  unfold applyNew store
  rw [if_pos h, bind_assoc, exec_bind_ok hrun]
  rw [← hclock]
  exact congrArg (fun c => c.getD 0) hrest

/-- A record that wins ticks the clock if it takes the path of a capture. -/
theorem clock_applyWinning (env : Env) {here : Option Entry}
    (hloses : loses record here = false) (d : Daemon) :
    clock (exec (applyWinning env record here) d).2
      = if storedAnew env record here then d.db.tickLamport.1 else clock d := by
  have hkeep : ∀ {x : Request Applied}, KeepsClock x → clock (exec x d).2 = clock d :=
    fun h => follows_nil h d
  unfold applyWinning storedAnew
  rw [hloses]
  by_cases hdeleted : record.deleted = true
  · rw [if_pos hdeleted]
    simp only [hdeleted, Bool.not_true, Bool.and_false, Bool.false_and, Bool.false_eq_true,
      if_false]
    exact hkeep (keepsClock_applyDeletion env record here)
  · rw [if_neg hdeleted]
    have hlive : record.deleted = false := by simpa using hdeleted
    cases hhere : here.filter (fun entry => !entry.deleted) with
    | some entry =>
      simp only [Option.isNone_some, Bool.and_false, Bool.false_and, Bool.false_eq_true, if_false]
      exact hkeep (keepsClock_bind (keepsClock_tracked _ _) fun _ => keepsClock_pure _)
    | none =>
      simp only [hlive, Bool.not_false, Option.isNone_none, Bool.and_true, Bool.true_and]
      by_cases hadmitted : admitted env record = true
      · rw [if_pos hadmitted]
        exact clock_applyNew hadmitted d
      · rw [if_neg hadmitted]
        apply hkeep
        unfold applyNew
        rw [if_neg hadmitted]
        exact keepsClock_pure _

/-- One tick, and nothing after it. -/
theorem follows_tickEvent (d : Daemon) {clock' : Int} (h : clock' = d.db.tickLamport.1) :
    Lamport.Follows lamportObserveLimit (clock d) [tickEvent d] clock' :=
  ⟨tickLamport_eq d, h⟩

/-- **A record from another device**: the clock follows its stamp if that is below the
    limit, and ticks if the record is stored as something new. -/
theorem follows_applyRecord (env : Env) (sent : SyncRecord) (d : Daemon) :
    Lamport.Follows lamportObserveLimit (clock d) (recordLog env sent d)
      (clock (exec (applyRecord env sent) d).2) := by
  unfold recordLog
  by_cases hbad : malformed env sent
  · rw [exec_applyRecord_malformed hbad]
    simp only [if_pos hbad]
    rfl
  · rw [exec_applyRecord hbad]
    simp only [if_neg hbad]
    have hpos : 1 ≤ (clampTimes env sent).lamport := by
      by_contra hnot
      exact hbad (Or.inl (Or.inr (fun h => hnot h.1)))
    refine Lamport.follows_append.mpr ⟨clock (observed (clampTimes env sent) d), ?_, ?_⟩
    · -- the value is followed, or it is beyond the limit and nothing happens
      by_cases hbelow : (clampTimes env sent).lamport < lamportObserveLimit
      · rw [if_pos hbelow]
        exact ⟨hbelow, clock_observed hpos hbelow⟩
      · rw [if_neg hbelow, observed_eq hbelow]
        rfl
    · cases hloses : loses (clampTimes env sent) (d.db.find d.dbCipher sent.key) with
      | true =>
        have hnot : storedAnew env (clampTimes env sent) (d.db.find d.dbCipher sent.key)
            = false := by
          unfold storedAnew
          rw [hloses]
          rfl
        rw [hnot]
        rfl
      | false =>
        have hclock := clock_applyWinning env hloses (observed (clampTimes env sent) d)
        show Lamport.Follows lamportObserveLimit _ _
          (clock (exec (applyWinning env (clampTimes env sent) _) _).2)
        cases hanew : storedAnew env (clampTimes env sent) (d.db.find d.dbCipher sent.key) with
        | true =>
          rw [hanew] at hclock
          exact follows_tickEvent _ hclock
        | false =>
          rw [hanew] at hclock
          exact hclock

/-- **Every write**: the clock does what the log says. -/
theorem Write.follows (w : Write) (d : Daemon) :
    Lamport.Follows lamportObserveLimit (clock d) (w.clockLog d)
      (clock (exec w.request d).2) := by
  cases w with
  | capture env data =>
    obtain ⟨d1, hrun, -⟩ := exec_storeRow env data d
    have hclock := clock_storeRow env data d
    rw [hrun] at hclock
    apply follows_tickEvent
    show clock (exec (storeRow env data >>= fun _ => pure ()) d).2 = _
    rw [exec_bind_ok hrun]
    exact hclock
  | tick =>
    apply follows_tickEvent
    show clock (exec (updateDb tickLamport >>= fun _ => pure ()) d).2 = _
    rw [exec_bind_ok (exec_updateDb _ d)]
    rfl
  | remoteRecord env record =>
    have h := follows_applyRecord env record d
    have hsame : (exec (Write.remoteRecord env record).request d).2
        = (exec (applyRecord env record) d).2 := by
      show (exec (applyRecord env record >>= fun _ => pure ()) d).2 = _
      rw [exec_bind]
      cases exec (applyRecord env record) d with
      | mk result d1 => cases result <;> rfl
    rw [hsame]
    exact h
  -- the rest leaves the clock alone
  | thumbnail env id png => exact follows_nil (keepsClock_storeBlob env id thumbnailMime png) d
  | pin id pinned => exact follows_nil (keepsClock_tracked id _) d
  | tombstone id now =>
    exact follows_nil (keepsClock_bind (keepsClock_tombstone id now) fun _ => keepsClock_pure ()) d
  | restore id => exact follows_nil (keepsClock_restoreRow id) d
  | stamp id lamport deviceId => exact follows_nil (keepsClock_tracked id _) d
  | setTimes id createdAt lastSeenAt =>
    exact follows_nil (keepsClock_setTimes id createdAt lastSeenAt) d
  | remoteState id pinned createdAt lastSeenAt lamport deviceId =>
    exact follows_nil (keepsClock_tracked id _) d
  | strip env => exact follows_nil (keepsClock_stripDeleted env) d
  | purge before => exact follows_nil (keepsClock_purge before) d
  | retention env =>
    exact follows_nil (keepsClock_bind (keepsClock_collectGarbage env) fun _ =>
      keepsClock_pure ()) d
  | wipe env fresh => exact follows_nil (keepsClock_wipeStorage env fresh) d

/-- A run of writes. -/
theorem follows_clockLog (ws : List Write) (d : Daemon) :
    Lamport.Follows lamportObserveLimit (clock d) (clockLog d ws) (clock (afterWrites d ws)) := by
  induction ws generalizing d with
  | nil => rfl
  | cons w ws ih => exact Lamport.follows_append.mpr ⟨_, w.follows d, ih _⟩

/-- **The Lamport clock is safe.**  In any run of writes on a new database, hostile
    records among them, every tick gives more than every tick before it, than every
    value the clock followed, and than every row holds below 2^52 at that time; and as
    long as fewer than 2^52 ticks were made before it, it is below 2^53. -/
theorem lamport_clock_safe (key blobKey : Key) (blobs : BlobStore) (ws : List Write)
    (before after : List Lamport.Event) (rows : List Int) (value : Int)
    (hlog : clockLog ⟨Database.empty, key, blobs, blobKey⟩ ws
      = before ++ .ticked rows value :: after) :
    (∀ t ∈ Lamport.ticks before, t < value) ∧ (∀ v ∈ Lamport.seen before, v < value)
      ∧ (∀ v ∈ rows, v < lamportObserveLimit → v < value)
      ∧ ((Lamport.ticks before).length < 2 ^ 52 → value < lamportCeiling) := by
  have hrun := follows_clockLog ws ⟨empty, key, blobs, blobKey⟩
  rw [hlog] at hrun
  obtain ⟨hticks, hseen, hrows, hupper⟩ := hrun.ticked lamportObserveLimit_pos
  refine ⟨hticks, hseen, hrows, fun hfew => ?_⟩
  -- a new clock stands at 0, so the peers bring it to 2^52 - 1 at most
  have hstart : clock ⟨empty, key, blobs, blobKey⟩ = 0 := rfl
  rw [hstart] at hupper
  unfold lamportObserveLimit at hupper
  unfold lamportCeiling
  omega

namespace Sample

/-- A local change, a record just below the limit of what the clock follows, one just
    below the limit of what is accepted, and local changes between them. -/
def hostileRun : List Write :=
  [.tick, .remoteRecord Sample.env (note [0] (2 ^ 52 - 1)), .tick,
    .remoteRecord Sample.env (note [1] (2 ^ 53 - 1)), .tick]

/-- The record beyond the limit is stored, which is a tick of its own, and the next
    change is numbered one above the one before. -/
theorem lamport_clock_safe_hostileRun :
    clockLog fresh hostileRun
        = [.ticked [] 1, .observed (2 ^ 52 - 1), .ticked [] (2 ^ 52),
            .ticked [2 ^ 52 - 1] (2 ^ 52 + 1), .ticked [2 ^ 52 - 1] (2 ^ 52 + 2)]
          ++ .ticked [2 ^ 52 - 1, 2 ^ 53 - 1] (2 ^ 52 + 3) :: []
      ∧ (2 ^ 52 + 3 : Int) < lamportCeiling := by
  have hlog : clockLog fresh hostileRun
      = [.ticked [] 1, .observed (2 ^ 52 - 1), .ticked [] (2 ^ 52),
          .ticked [2 ^ 52 - 1] (2 ^ 52 + 1), .ticked [2 ^ 52 - 1] (2 ^ 52 + 2)]
        ++ .ticked [2 ^ 52 - 1, 2 ^ 53 - 1] (2 ^ 52 + 3) :: [] := by
    decide +kernel
  exact ⟨hlog, (lamport_clock_safe [1] [1] BlobStore.empty hostileRun _ _ _ _ hlog).2.2.2
    (by decide)⟩

end Sample

/-! ## §3. A change made here -/

/-- What a user does to an entry that is there. -/
inductive LocalChange where
  | pin (pinned : Bool)
  | delete
  | restore
  | recopy (data : ClipboardData)

/-- The request behind it. -/
def LocalChange.request (env : Env) (id : Nat) : LocalChange → Request Unit
  | .pin pinned => setPinned env id pinned
  | .delete => Panod.delete env id
  | .restore => do let _ ← Panod.restore env id
  | .recopy data => do let _ ← store env data

/-- A re-copy is a copy of the entry it is about. -/
def LocalChange.About (env : Env) (k : EntryKey) : LocalChange → Prop
  | .recopy data => keyOf env data = k
  | _ => True

/-- The rows have the Lamport values they had, and the clock stands still. -/
def SameLamports (d d' : Daemon) : Prop :=
  rowLamports d'.db = rowLamports d.db ∧ SameClock d d'

theorem tickLamport_of_sameLamports (h : SameLamports d d') :
    d'.db.tickLamport.1 = d.db.tickLamport.1 := by
  rw [tickLamport_eq, tickLamport_eq, h.1]
  unfold clock
  rw [show d'.db.lamportClock = d.db.lamportClock from h.2]

theorem rowLamports_trackedUpdate (db : Database) (id : Nat) {f : Cols → Cols}
    (hf : ∀ c, (f c).lamport = c.lamport) :
    rowLamports (db.trackedUpdate id f) = rowLamports db := by
  unfold trackedUpdate rowLamports
  split
  next => rfl
  next =>
    show ((db.entries.update id _).rows).map _ = _
    unfold Table.update Table.mapCols
    rw [List.map_map]
    apply List.map_congr_left
    intro r hr
    show (if r.id = id then _ else _ : Cols).lamport = r.cols.lamport
    split
    · exact hf r.cols
    · rfl

theorem SameLamports.refl (d : Daemon) : SameLamports d d := ⟨rfl, rfl⟩

/-- Pinning, deleting and lifting a deletion leave every Lamport value as it is. -/
theorem sameLamports_setPinned (id : Nat) (pinned : Bool) :
    Keeps SameLamports (changeDb (fun db => db.setPinned id pinned)) := by
  refine keeps_changeDb SameLamports.refl fun d db' h => ?_
  rw [changing_eq h]
  exact ⟨rowLamports_trackedUpdate d.db id (fun _ => rfl), lamportClock_trackedUpdate d.db id _⟩

theorem sameLamports_tombstone (id : Nat) (now : Int) :
    Keeps SameLamports (onDb (fun db => db.tombstone id now)) := by
  refine keeps_onDb SameLamports.refl fun d refs db' h => ?_
  obtain ⟨db'', hchanging, heq⟩ := Fallible.map_ok_iff.mp h
  cases heq
  cases changing_eq hchanging
  exact ⟨rowLamports_trackedUpdate d.db id (fun _ => rfl), lamportClock_trackedUpdate d.db id _⟩

theorem sameLamports_restoreRow (id : Nat) : Keeps SameLamports (restoreRow id) := by
  refine keeps_attempt_map SameLamports.refl fun d db' hrestore =>
    ⟨?_, lamportClock_restore hrestore⟩
  obtain ⟨entry, -, hrestore⟩ := Fallible.bind_ok_iff.mp hrestore
  split at hrestore
  next =>
    cases hrestore
    exact rowLamports_trackedUpdate d.db id (fun _ => rfl)
  next =>
    cases hrestore
    rfl

/-- A stamp takes the next value. -/
theorem clock_stampLocal (h : exec (stampLocal env id) d = (.ok (), d')) :
    clock d' = d.db.tickLamport.1 := by
  unfold stampLocal at h
  rw [exec_bind_ok (exec_updateDb _ d)] at h
  have hkeeps : KeepsClock (changeDb (fun db => db.stamp id d.db.tickLamport.1 env.deviceId)) :=
    keepsClock_tracked id _
  have hclock := hkeeps { d with db := d.db.tickLamport.2 }
  rw [h] at hclock
  exact congrArg (fun c => c.getD 0) hclock

/-- A statement that leaves the Lamport values alone, and then a stamp. -/
theorem clock_of_stampLocal {x : Request α} (hx : Keeps SameLamports x) {a : α} {d1 : Daemon}
    (hrun : exec x d = (.ok a, d1)) (hstamp : exec (stampLocal env id) d1 = (.ok (), d')) :
    clock d' = d.db.tickLamport.1 := by
  have hsame := hx d
  rw [hrun] at hsame
  rw [clock_stampLocal hstamp, tickLamport_of_sameLamports hsame]

/-- **A change made here ticks the clock once**, whichever it is. -/
theorem LocalChange.clock_eq (c : LocalChange)
    (hrun : exec (c.request env id) d = (.ok (), d')) : clock d' = d.db.tickLamport.1 := by
  cases c with
  | pin pinned =>
    obtain ⟨_, d1, hpin, hstamp⟩ := exec_bind_eq_ok.mp hrun
    exact clock_of_stampLocal (sameLamports_setPinned id pinned) hpin hstamp
  | delete =>
    obtain ⟨entry, d1, hget, hrun⟩ := exec_bind_eq_ok.mp hrun
    have hd1 : d1 = d := exec_attempt_read hget
    rw [hd1] at hrun
    split at hrun
    next => cases hrun
    next =>
      obtain ⟨refs, d2, htombstone, hrun⟩ := exec_bind_eq_ok.mp hrun
      obtain ⟨_, d3, hstamp, hrun⟩ := exec_bind_eq_ok.mp hrun
      obtain ⟨n, d4, hgc, hpure⟩ := exec_bind_eq_ok.mp hrun
      cases hpure
      rw [← clock_of_stampLocal (sameLamports_tombstone id env.now) htombstone hstamp]
      -- retention leaves the clock alone
      have hkeeps := keepsClock_collectGarbage env d3
      rw [hgc] at hkeeps
      exact congrArg (fun c => c.getD 0) hkeeps
  | restore =>
    obtain ⟨entry, d1, hrestore, hpure⟩ := exec_bind_eq_ok.mp hrun
    cases hpure
    obtain ⟨time, d2, htime, hrun⟩ := exec_bind_eq_ok.mp hrestore
    have hd2 : d2 = d := exec_attempt_read htime
    rw [hd2] at hrun
    split at hrun
    next => cases hrun
    next =>
      obtain ⟨_, d3, hrow, hrun⟩ := exec_bind_eq_ok.mp hrun
      obtain ⟨_, d4, hstamp, hget⟩ := exec_bind_eq_ok.mp hrun
      have hd4 : d' = d4 := exec_attempt_read hget
      rw [hd4]
      exact clock_of_stampLocal (sameLamports_restoreRow id) hrow hstamp
  | recopy data =>
    obtain ⟨entry, d1, hstore, hpure⟩ := exec_bind_eq_ok.mp hrun
    cases hpure
    obtain ⟨id', d2, hrow, hrest⟩ := exec_bind_eq_ok.mp hstore
    have hclock := clock_storeRow env data d
    rw [hrow] at hclock
    have hkeeps := keepsClock_storeRest env id'
      ((imageOf env data).bind env.content.renderThumbnail) d2
    rw [hrest] at hkeeps
    rw [← hclock]
    exact congrArg (fun c => c.getD 0) hkeeps

/-- **A change made here stamps the row** with this device and the clock's value. -/
theorem LocalChange.stamps (c : LocalChange) (habout : c.About env k)
    (hr : d.db.entries.find k = some r)
    (hrun : exec (c.request env r.id) d = (.ok (), d')) : Stamps env k d d' := by
  cases c with
  | pin pinned =>
    obtain ⟨d1, hok, hstamps⟩ := exec_setPinned hr pinned
    cases hok.symm.trans hrun
    exact hstamps
  | delete =>
    rcases exec_delete hr with ⟨-, hfail⟩ | ⟨-, d1, hok, hstamps⟩
    · exact absurd (hfail.symm.trans hrun) (by simp)
    · cases hok.symm.trans hrun
      exact hstamps
  | restore =>
    obtain ⟨entry, d1, hrestore, hpure⟩ := exec_bind_eq_ok.mp hrun
    cases hpure
    rcases exec_restore hr with ⟨e, hfail⟩ | ⟨entry', d2, hok, hstamps⟩
    · exact absurd (hfail.symm.trans hrestore) (by simp)
    · cases hok.symm.trans hrestore
      exact hstamps
  | recopy data =>
    obtain ⟨entry, d1, hstore, hpure⟩ := exec_bind_eq_ok.mp hrun
    cases hpure
    obtain ⟨id', d2, hrow, hrest⟩ := exec_bind_eq_ok.mp hstore
    have hidle := idles_storeRest env id'
      ((imageOf env data).bind env.content.renderThumbnail) d2
    rw [hrest] at hidle
    exact (stamps_storeRow habout hrow).idle hidle

/-- **When a change made here is the newest state of its row.**  For any history and any
    pin, unpin, deletion, restoration or re-copy of a row that is there: if it succeeds
    and the row is still there, its stamp wins over the one the row had exactly when
    that was below 2^52, or not above the clock, or equal to the next value and of a
    smaller device. -/
theorem local_change_newest_iff (env : Env) (d d' : Daemon) (k : EntryKey) (r r' : EntryRow)
    (c : LocalChange) (habout : c.About env k) (hr : d.db.entries.find k = some r)
    (hrun : Op.exec (c.request env r.id) d = (.ok (), d'))
    (hr' : d'.db.entries.find k = some r') :
    lwwWins (rowStamp r') (rowStamp r) = true ↔
      r.cols.lamport < lamportObserveLimit ∨ r.cols.lamport ≤ clock d
        ∨ (r.cols.lamport = d.db.tickLamport.1 ∧ r.cols.deviceId < env.deviceId) := by
  obtain ⟨hlamport, hdevice⟩ := (c.stamps habout hr hrun).stamp r' hr'
  rw [c.clock_eq hrun] at hlamport
  have hwins : lwwWins (rowStamp r') (rowStamp r) = true ↔
      r.cols.lamport < d.db.tickLamport.1
        ∨ r.cols.lamport = d.db.tickLamport.1 ∧ r.cols.deviceId < env.deviceId := by
    unfold lwwWins rowStamp stampOf
    rw [decide_eq_true_eq, Prod.Lex.toLex_lt_toLex, hlamport, hdevice]
  -- below the limit the rows count, at or above it the clock alone does
  have hbelow : r.cols.lamport < d.db.tickLamport.1 ↔
      r.cols.lamport < lamportObserveLimit ∨ r.cols.lamport ≤ clock d := by
    rw [tickLamport_eq]
    by_cases hlimit : r.cols.lamport < lamportObserveLimit
    · have hmem : r.cols.lamport ∈ rowLamports d.db :=
        List.mem_map_of_mem (Table.find_eq_some.mp hr).1
      exact iff_of_true (Lamport.row_lt_tick (clock d) hmem hlimit) (Or.inl hlimit)
    · rw [Lamport.lt_tick_iff lamportObserveLimit_pos (not_lt.mp hlimit)]
      exact (or_iff_right hlimit).symm
  rw [hwins, hbelow, or_assoc]

namespace Sample

/-- A record a peer may send, at 2^52. -/
def highNote : SyncRecord := note [104] (2 ^ 52)

/-- The history after it was applied. -/
def highNoted : Daemon := (exec (syncApply Sample.env [highNote]) fresh).2

/-- The history after the user pinned it. -/
def highPinned : Daemon := (exec (setPinned Sample.env 1 true) highNoted).2

/-- **A pin that loses.**  A legal record stamped 2^52 is applied to a new history; the
    user then pins the entry.  The pin succeeds, and its stamp loses to the one the row
    had: a peer that holds the earlier state ignores it. -/
theorem pin_loses_to_high_stamp :
    ¬ malformed Sample.env highNote
      ∧ (Op.exec (syncApply Sample.env [highNote]) fresh).1 = .ok ⟨1, 0, 0⟩
      ∧ (highNoted.db.entries.find highNote.key).map rowStamp
          = some (stampOf (2 ^ 52) "phone")
      ∧ (Op.exec (setPinned Sample.env 1 true) highNoted).1 = .ok ()
      ∧ (highPinned.db.entries.find highNote.key).map rowStamp = some (stampOf 2 "here")
      ∧ lwwWins (stampOf 2 "here") (stampOf (2 ^ 52) "phone") = false := by
  decide +kernel

/-- The condition fails there: the row's value is beyond the limit, the clock, and the
    next value. -/
theorem local_change_newest_iff_highNoted :
    ∃ r r', highNoted.db.entries.find highNote.key = some r
      ∧ highPinned.db.entries.find highNote.key = some r'
      ∧ ¬ (r.cols.lamport < lamportObserveLimit ∨ r.cols.lamport ≤ clock highNoted
        ∨ (r.cols.lamport = highNoted.db.tickLamport.1 ∧ r.cols.deviceId < Sample.env.deviceId))
      ∧ lwwWins (rowStamp r') (rowStamp r) = false := by
  have hrow : (highNoted.db.entries.find highNote.key).map (fun r => (r.id, r.cols.lamport))
      = some (1, 2 ^ 52) := by decide +kernel
  have hclock : clock highNoted = 1 ∧ highNoted.db.tickLamport.1 = 2 := by decide +kernel
  have hok : (exec (setPinned Sample.env 1 true) highNoted).1 = .ok () := by decide +kernel
  have hrun : exec (setPinned Sample.env 1 true) highNoted = (.ok (), highPinned) := by
    unfold highPinned
    rw [← hok]
  have hstays : (highPinned.db.entries.find highNote.key).isSome = true := by decide +kernel
  obtain ⟨r, hr, heq⟩ := Option.map_eq_some_iff.mp hrow
  obtain ⟨r', hr'⟩ := Option.isSome_iff_exists.mp hstays
  injection heq with hid hlamport
  have hnot : ¬ (r.cols.lamport < lamportObserveLimit ∨ r.cols.lamport ≤ clock highNoted
      ∨ (r.cols.lamport = highNoted.db.tickLamport.1
        ∧ r.cols.deviceId < Sample.env.deviceId)) := by
    rw [hlamport, hclock.1, hclock.2]
    unfold lamportObserveLimit
    omega
  rw [← hid] at hrun
  have hiff := local_change_newest_iff Sample.env highNoted highPinned highNote.key r r'
    (.pin true) trivial hr hrun hr'
  exact ⟨r, r', hr, hr', hnot, Bool.eq_false_of_not_eq_true (fun h => hnot (hiff.mp h))⟩

end Sample

end Panora.Panod
