/-
  Panora.Panod.Sync — applying records from other devices.

  `Daemon::sync_apply` and `Daemon::apply_record`: each record on its own, by
  last-writer-wins.  A live record of something that is not here goes through the
  same path as a copy made on this machine.

  Main result: `applyRecord_fate` — everything that applying a record can do.
-/
import Panora.Panod.Store

namespace Panora.Panod

open Storage Lib Lib.Op Storage.Database

variable (env : Env) (record : SyncRecord)

/-! ## §1. The requests -/

/-- What became of a record. -/
inductive Applied where
  | yes
  | ignored
  | rejected
  deriving DecidableEq, Repr

/-- How far another device's clock may be ahead, in seconds. -/
def syncClockSkew : Int := 300

/-- `i64::clamp`. -/
def clamp (x lo hi : Int) : Int := if x < lo then lo else if hi < x then hi else x

/-- Times come from the other device's clock: keep them within reason. -/
def clampTimes : SyncRecord :=
  let latest := env.now + syncClockSkew
  let createdAt := clamp record.createdAt 0 latest
  { record with createdAt, lastSeenAt := clamp record.lastSeenAt createdAt latest }

/-- A record without a device or with a Lamport value out of range. -/
def badStamp : Prop :=
  record.deviceId = "" ∨ ¬ (1 ≤ record.lamport ∧ record.lamport < lamportCeiling)

/-- A live record whose payloads are not those it names. -/
def badContent : Prop :=
  record.deleted = false ∧
    (record.payloads = [] ∨ env.hash.payloadHash record.payloads ≠ record.contentHash)

instance (record : SyncRecord) : Decidable (badStamp record) :=
  inferInstanceAs (Decidable (_ ∨ _))

instance (env : Env) (record : SyncRecord) : Decidable (badContent env record) :=
  inferInstanceAs (Decidable (_ ∧ _))

/-- The clock follows a Lamport value that is within reason. -/
def observe : Request Unit :=
  if record.lamport < lamportObserveLimit then
    updateDb (fun db => ((), db.observeLamport record.lamport))
  else pure ()

/-- What a record carries, as a capture. -/
def captureOf : ClipboardData where
  selection := record.selection
  payloads := record.payloads
  offeredMimes := record.payloads.map MimePayload.mime
  sourceApp := record.sourceApp

/-- Whether the receiver records what a record carries: the primary selection only
    where it is on, no format above the limit, and what the privacy gate allows. -/
def admitted : Bool :=
  !(record.selection == .primary && !env.config.recordPrimary) &&
    !(record.payloads.any (fun p => env.config.maxMimeBytes < p.data.length)) &&
    env.content.privacyAllows (captureOf record) && env.content.contentAllowed (captureOf record)

/-- Take over the record's pin state, times and stamp. -/
def takeOver (id : Nat) : Request Unit :=
  changeDb (fun db => db.applyRemoteState id record.pinned record.createdAt record.lastSeenAt
    record.lamport record.deviceId)

/-- Tombstone a row that is still live, and run retention. -/
def deleteLive (entry : Entry) : Request Unit :=
  if entry.deleted then pure ()
  else do
    let _ ← onDb (fun db => db.tombstone entry.id env.now)
    let _ ← collectGarbage env
    pure ()

/-- A tombstone that wins. -/
def applyDeletion : Option Entry → Request Applied
  | none => pure .ignored
  | some entry => do
    deleteLive env entry
    changeDb (fun db => db.stamp entry.id record.lamport record.deviceId)
    pure .yes

/-- A live record of something that is not here, or was deleted here earlier. -/
def applyNew : Request Applied :=
  if admitted env record then do
    let entry ← store env (captureOf record)
    changeDb (fun db => db.setTimes entry.id record.createdAt record.lastSeenAt)
    takeOver record entry.id
    pure .yes
  else pure .ignored

/-- A record that wins over what is here. -/
def applyWinning (here : Option Entry) : Request Applied :=
  if record.deleted then applyDeletion env record here
  else match here.filter (fun entry => !entry.deleted) with
    | some entry => do
      takeOver record entry.id
      pure .yes
    | none => applyNew env record

/-- Whether a record loses to what is here. -/
def loses : Option Entry → Bool
  | some entry => !lwwWins record.stamp (stampOf entry.lamport entry.deviceId)
  | none => false

/-- Apply one record. -/
def applyRecord (sent : SyncRecord) : Request Applied :=
  let record := clampTimes env sent
  if badStamp record ∨ badContent env record then pure .rejected
  else do
    observe record
    let here ← readDb (fun db cipher => db.find cipher record.key)
    if loses record here then pure .ignored else applyWinning env record here

/-- How many records were applied, ignored and rejected. -/
structure Tally where
  applied : Nat
  ignored : Nat
  rejected : Nat
  deriving DecidableEq, Repr

def Tally.count (t : Tally) : Applied → Tally
  | .yes => { t with applied := t.applied + 1 }
  | .ignored => { t with ignored := t.ignored + 1 }
  | .rejected => { t with rejected := t.rejected + 1 }

/-- Apply one record and count it. -/
def applyNext (t : Tally) (record : SyncRecord) : Request Tally := do
  let became ← applyRecord env record
  pure (t.count became)

/-- Apply records from another device. -/
def syncApply (records : List SyncRecord) : Request Tally :=
  records.foldlM (applyNext env) ⟨0, 0, 0⟩

/-! ## §2. What applying a record does -/

variable {env : Env} {d d' : Daemon} {k : EntryKey} {r : EntryRow} {record sent : SyncRecord}

/-- The daemon after it has seen a record's Lamport value. -/
def observed (record : SyncRecord) (d : Daemon) : Daemon := (exec (observe record) d).2

theorem exec_observe (record : SyncRecord) (d : Daemon) :
    exec (observe record) d = (.ok (), observed record d) := by
  unfold observed observe
  split
  · rfl
  · rfl

@[simp] theorem entries_observed (record : SyncRecord) (d : Daemon) :
    (observed record d).db.entries = d.db.entries := by
  unfold observed observe
  split
  · rfl
  · rfl

theorem entryBlobs_observed (record : SyncRecord) (d : Daemon) :
    (observed record d).db.entryBlobs = d.db.entryBlobs := by
  unfold observed observe
  split
  · rfl
  · rfl

@[simp] theorem dbCipher_observed (record : SyncRecord) (d : Daemon) :
    (observed record d).dbCipher = d.dbCipher := by
  unfold observed observe
  split
  · rfl
  · rfl

@[simp] theorem clampTimes_key (env : Env) (sent : SyncRecord) :
    (clampTimes env sent).key = sent.key := rfl

@[simp] theorem clampTimes_stamp (env : Env) (sent : SyncRecord) :
    (clampTimes env sent).stamp = sent.stamp := rfl

/-- The stamp of a row. -/
def rowStamp (r : EntryRow) : Stamp := stampOf r.cols.lamport r.cols.deviceId

/-- A record loses unless it is newer. -/
theorem loses_row (record : SyncRecord) {cipher : Key} :
    loses record (some (rowToEntry cipher r)) = true ↔ ¬ rowStamp r < record.stamp := by
  show (!decide (rowStamp r < record.stamp)) = true ↔ _
  rw [Bool.not_eq_true', decide_eq_false_iff_not]

/-- A record that is not what a device may send. -/
def malformed (env : Env) (record : SyncRecord) : Prop :=
  badStamp record ∨ badContent env record

instance (env : Env) (record : SyncRecord) : Decidable (malformed env record) :=
  inferInstanceAs (Decidable (_ ∨ _))

/-- The capture of a well-formed live record is about the record's entry. -/
theorem keyOf_captureOf (h : ¬ malformed env sent) (hlive : sent.deleted = false) :
    keyOf env (captureOf (clampTimes env sent)) = sent.key := by
  have hhash : env.hash.payloadHash sent.payloads = sent.contentHash := by
    by_contra hne
    exact h (Or.inr ⟨hlive, Or.inr hne⟩)
  show (⟨env.hash.payloadHash sent.payloads, sent.selection⟩ : EntryKey) = sent.key
  rw [hhash]
  rfl

theorem exec_applyRecord_malformed (h : malformed env sent) :
    exec (applyRecord env sent) d = (.ok .rejected, d) := by
  have h : badStamp (clampTimes env sent) ∨ badContent env (clampTimes env sent) := h
  unfold applyRecord
  simp only [if_pos h]
  rfl

/-- A well-formed record is compared with what is here. -/
theorem exec_applyRecord (h : ¬ malformed env sent) (d : Daemon) :
    exec (applyRecord env sent) d
      = exec (if loses (clampTimes env sent) (d.db.find d.dbCipher sent.key) then pure .ignored
        else applyWinning env (clampTimes env sent) (d.db.find d.dbCipher sent.key))
        (observed (clampTimes env sent) d) := by
  have h : ¬ (badStamp (clampTimes env sent) ∨ badContent env (clampTimes env sent)) := h
  unfold applyRecord
  simp only [if_neg h]
  rw [exec_bind_ok (exec_observe _ d), exec_bind_ok (exec_readDb _ _)]
  simp only [find, entries_observed, dbCipher_observed, clampTimes_key]
  rfl

/-- A record that is not newer than the row that is here. -/
theorem exec_applyRecord_loses (h : ¬ malformed env sent)
    (hfind : d.db.entries.find sent.key = some r) (hloses : ¬ rowStamp r < sent.stamp) :
    exec (applyRecord env sent) d = (.ok .ignored, observed (clampTimes env sent) d) := by
  have hhere : d.db.find d.dbCipher sent.key = some (rowToEntry d.dbCipher r) := by
    rw [find, hfind]
    rfl
  rw [exec_applyRecord h, hhere,
    if_pos ((loses_row (clampTimes env sent)).mpr hloses)]
  rfl

/-- The columns of a row that has taken a record's state over. -/
def takenOver (record : SyncRecord) (c : Cols) : Cols :=
  ((c.pinnedAs record.pinned).widened record.createdAt record.lastSeenAt).stamped record.lamport
    record.deviceId

theorem exec_takeOver (record : SyncRecord) (h : d.db.entries.find k = some r) :
    ∃ d', exec (takeOver record r.id) d = (.ok (), d') ∧
      d.db.Wrote k { r with cols := (takenOver record r.cols).numbered (d.db.changeSeq + 1) }
        d'.db ∧ d'.dbCipher = d.dbCipher := by
  obtain ⟨db', hrun, hwrote⟩ := wrote_applyRemoteState h record.pinned record.createdAt
    record.lastSeenAt record.lamport record.deviceId
  exact ⟨{ d with db := db' }, exec_changeDb_ok hrun, hwrote, rfl⟩

/-- A live record of something that is live here. -/
theorem exec_applyWinning_live (env : Env) (record : SyncRecord) (hlive : record.deleted = false)
    (h : d.db.entries.find k = some r) (hr : r.cols.deleted = false) :
    ∃ d', exec (applyWinning env record (some (rowToEntry d.dbCipher r))) d
        = (.ok .yes, d') ∧
      d.db.Wrote k { r with cols := (takenOver record r.cols).numbered (d.db.changeSeq + 1) }
        d'.db := by
  obtain ⟨d', hrun, hwrote, -⟩ := exec_takeOver record h
  refine ⟨d', ?_, hwrote⟩
  have hhere : (some (rowToEntry d.dbCipher r)).filter (fun entry => !entry.deleted)
      = some (rowToEntry d.dbCipher r) := by
    simp [Option.filter, rowToEntry, hr]
  unfold applyWinning
  rw [if_neg (by simp [hlive]), hhere]
  exact exec_bind_ok hrun _

/-- A deletion of something that is not here. -/
theorem exec_applyWinning_unknown (hdel : record.deleted = true) :
    exec (applyWinning env record none) d = (.ok .ignored, d) := by
  unfold applyWinning
  rw [if_pos hdel]
  rfl

/-- A deletion of something that is deleted here. -/
theorem exec_applyWinning_tombstone (env : Env) (record : SyncRecord) (hdel : record.deleted = true)
    (h : d.db.entries.find k = some r) (hr : r.cols.deleted = true) :
    ∃ d', exec (applyWinning env record (some (rowToEntry d.dbCipher r))) d
        = (.ok .yes, d') ∧
      d.db.Wrote k
        { r with cols :=
            (r.cols.stamped record.lamport record.deviceId).numbered (d.db.changeSeq + 1) }
        d'.db := by
  obtain ⟨db', hrun, hwrote⟩ := wrote_stamp h record.lamport record.deviceId
  refine ⟨{ d with db := db' }, ?_, hwrote⟩
  have hskip : exec (deleteLive env (rowToEntry d.dbCipher r)) d = (.ok (), d) := by
    have hdeleted : (rowToEntry d.dbCipher r).deleted = true := hr
    unfold deleteLive
    rw [if_pos hdeleted]
    rfl
  unfold applyWinning applyDeletion
  rw [if_pos hdel]
  dsimp only
  rw [exec_bind_ok hskip, exec_bind_ok (exec_changeDb_ok hrun)]
  rfl

/-- The daemon when applying a deletion runs retention. -/
def tombstoneState (env : Env) (id : Nat) (d : Daemon) : Daemon :=
  (exec (onDb (fun db => db.tombstone id env.now)) d).2

theorem wrote_tombstoneState (env : Env) (h : d.db.entries.find k = some r) :
    ∃ refs, exec (onDb (fun db => db.tombstone r.id env.now)) d
        = (.ok refs, tombstoneState env r.id d) ∧
      d.db.Wrote k { r with cols := (r.cols.tombstoned env.now).numbered (d.db.changeSeq + 1) }
        (tombstoneState env r.id d).db := by
  obtain ⟨refs, db', hrun, hwrote⟩ := wrote_tombstone h env.now
  have hexec : exec (onDb (fun db => db.tombstone r.id env.now)) d
      = (.ok refs, { d with db := db' }) := exec_onDb_ok hrun
  refine ⟨refs, ?_, ?_⟩
  · rw [tombstoneState, hexec]
  · rw [tombstoneState, hexec]
    exact hwrote

/-- A tombstone of this moment is needed still. -/
theorem find_collectGarbage_deleted (env : Env) {n : Nat} (h : d.db.entries.find k
      = some { r with cols := (r.cols.tombstoned env.now).numbered n }) :
    (exec (collectGarbage env) d).2.db.entries.find k
      = some { r with cols := (r.cols.tombstoned env.now).numbered n } := by
  obtain ⟨d', hrun, hentries, -⟩ := exec_collectGarbage env d
  have hcutoff : ¬ env.now < purgeCutoff env := by
    have := env.config.tombstoneDays_range
    unfold purgeCutoff undoGraceSecs
    split
    · omega
    · omega
  rw [hrun, hentries, Table.find_keepOnly, find_afterRules h (Or.inl rfl)]
  simp [Option.filter, purgeable, Cols.tombstoned, Cols.numbered, hcutoff]

/-- A deletion of something that is live here: the row is tombstoned, retention
    runs, and the row takes the record's stamp. -/
theorem exec_applyWinning_delete (env : Env) (record : SyncRecord) (hdel : record.deleted = true)
    (h : d.db.entries.find k = some r) (hr : r.cols.deleted = false) :
    ∃ d' n m, exec (applyWinning env record (some (rowToEntry d.dbCipher r))) d
        = (.ok .yes, d') ∧
      (exec (collectGarbage env) (tombstoneState env r.id d)).2.db.Wrote k
        { r with cols :=
            (((r.cols.tombstoned env.now).numbered n).stamped record.lamport
              record.deviceId).numbered m }
        d'.db := by
  obtain ⟨refs, htomb, hwrote⟩ := wrote_tombstoneState env h
  obtain ⟨d2, hgc, -⟩ := exec_collectGarbage env (tombstoneState env r.id d)
  have hrow := find_collectGarbage_deleted env hwrote.row
  rw [hgc] at hrow ⊢
  obtain ⟨db', hstamp, hwrote'⟩ := wrote_stamp hrow record.lamport record.deviceId
  refine ⟨{ d2 with db := db' }, _, _, ?_, hwrote'⟩
  have hdelete : exec (deleteLive env (rowToEntry d.dbCipher r)) d = (.ok (), d2) := by
    have hlive : (rowToEntry d.dbCipher r).deleted = false := hr
    unfold deleteLive
    rw [if_neg (by simp [hlive])]
    exact (exec_bind_ok htomb _).trans (exec_bind_ok hgc _)
  unfold applyWinning applyDeletion
  rw [if_pos hdel]
  dsimp only
  rw [exec_bind_ok hdelete]
  exact exec_bind_ok (exec_changeDb_ok hstamp) _

/-- A live record of something that is not live here is recorded as a capture. -/
theorem applyWinning_new (env : Env) (record : SyncRecord) {here : Option Entry} (hlive : record.deleted = false)
    (hhere : ∀ entry ∈ here, entry.deleted = true) :
    applyWinning env record here = applyNew env record := by
  have hnone : here.filter (fun entry => !entry.deleted) = none := by
    cases here with
    | none => rfl
    | some entry => simp [Option.filter, hhere entry rfl]
  unfold applyWinning
  rw [if_neg (by simp [hlive]), hnone]

/-- What applying a well-formed record does. -/
inductive Fate (env : Env) (sent : SyncRecord) (d : Daemon) : Prop where
  | unknown (here : d.db.entries.find sent.key = none) (deletion : sent.deleted = true)
      (run : exec (applyRecord env sent) d = (.ok .ignored, observed (clampTimes env sent) d))
  | older (r : EntryRow) (here : d.db.entries.find sent.key = some r)
      (notNewer : ¬ rowStamp r < sent.stamp)
      (run : exec (applyRecord env sent) d = (.ok .ignored, observed (clampTimes env sent) d))
  | recorded (live : sent.deleted = false)
      (here : ∀ r, d.db.entries.find sent.key = some r →
        r.cols.deleted = true ∧ rowStamp r < sent.stamp)
      (run : exec (applyRecord env sent) d
        = exec (applyNew env (clampTimes env sent)) (observed (clampTimes env sent) d))
  | merged (r : EntryRow) (d' : Daemon) (n : Nat)
      (here : d.db.entries.find sent.key = some r) (newer : rowStamp r < sent.stamp)
      (live : sent.deleted = false) (rowLive : r.cols.deleted = false)
      (run : exec (applyRecord env sent) d = (.ok .yes, d'))
      (wrote : d.db.Wrote sent.key
        { r with cols := (takenOver (clampTimes env sent) r.cols).numbered n } d'.db)
  | restamped (r : EntryRow) (d' : Daemon) (n : Nat)
      (here : d.db.entries.find sent.key = some r) (newer : rowStamp r < sent.stamp)
      (deletion : sent.deleted = true) (rowDeleted : r.cols.deleted = true)
      (run : exec (applyRecord env sent) d = (.ok .yes, d'))
      (wrote : d.db.Wrote sent.key
        { r with cols := (r.cols.stamped sent.lamport sent.deviceId).numbered n } d'.db)
  | removed (r : EntryRow) (d' : Daemon) (n m : Nat)
      (here : d.db.entries.find sent.key = some r) (newer : rowStamp r < sent.stamp)
      (deletion : sent.deleted = true) (rowLive : r.cols.deleted = false)
      (run : exec (applyRecord env sent) d = (.ok .yes, d'))
      (wrote : (exec (collectGarbage env)
          (tombstoneState env r.id (observed (clampTimes env sent) d))).2.db.Wrote sent.key
        { r with cols := (((r.cols.tombstoned env.now).numbered n).stamped sent.lamport
          sent.deviceId).numbered m } d'.db)

/-- What is written over what was seen is written over what was there. -/
theorem wrote_observed {db' : Database}
    (h : (observed (clampTimes env sent) d).db.Wrote k r db') : d.db.Wrote k r db' :=
  ⟨h.row, h.entries.trans (by rw [entries_observed])⟩

/-- **Everything that applying a well-formed record can do.** -/
theorem applyRecord_fate (hwf : ¬ malformed env sent) (d : Daemon) : Fate env sent d := by
  have hexec := exec_applyRecord hwf d
  cases hfind : d.db.entries.find sent.key with
  | none =>
    rw [show d.db.find d.dbCipher sent.key = none by rw [find, hfind]; rfl,
      if_neg (by simp [loses])] at hexec
    by_cases hdel : sent.deleted = true
    · exact .unknown hfind hdel (hexec.trans (exec_applyWinning_unknown hdel))
    · have hlive : sent.deleted = false := Bool.eq_false_iff.mpr hdel
      rw [applyWinning_new env (clampTimes env sent) hlive (fun _ h => absurd h (by simp))] at hexec
      exact .recorded hlive (fun r hr => absurd (hfind.symm.trans hr) (by simp)) hexec
  | some r =>
    by_cases hwins : rowStamp r < sent.stamp
    · have hfind' : (observed (clampTimes env sent) d).db.entries.find sent.key = some r := by
        rw [entries_observed, hfind]
      rw [show d.db.find d.dbCipher sent.key
          = some (rowToEntry (observed (clampTimes env sent) d).dbCipher r) by
            rw [find, hfind, dbCipher_observed]; rfl,
        if_neg (fun hloses => (loses_row (clampTimes env sent)).mp hloses hwins)] at hexec
      by_cases hdel : sent.deleted = true
      · by_cases hr : r.cols.deleted = true
        · obtain ⟨d', hrun, hwrote⟩ :=
            exec_applyWinning_tombstone env (clampTimes env sent) hdel hfind' hr
          exact .restamped r d' _ hfind hwins hdel hr (hexec.trans hrun)
            (wrote_observed hwrote)
        · have hr : r.cols.deleted = false := Bool.eq_false_iff.mpr hr
          obtain ⟨d', n, m, hrun, hwrote⟩ :=
            exec_applyWinning_delete env (clampTimes env sent) hdel hfind' hr
          exact .removed r d' n m hfind hwins hdel hr (hexec.trans hrun) hwrote
      · have hlive : sent.deleted = false := Bool.eq_false_iff.mpr hdel
        by_cases hr : r.cols.deleted = true
        · rw [applyWinning_new env (clampTimes env sent) hlive
            (fun entry hentry => by cases hentry; exact hr)] at hexec
          refine .recorded hlive (fun r' hr' => ?_) hexec
          obtain rfl : r = r' := Option.some.inj (hfind.symm.trans hr')
          exact ⟨hr, hwins⟩
        · have hr : r.cols.deleted = false := Bool.eq_false_iff.mpr hr
          obtain ⟨d', hrun, hwrote⟩ :=
            exec_applyWinning_live env (clampTimes env sent) hlive hfind' hr
          exact .merged r d' _ hfind hwins hlive hr (hexec.trans hrun)
            (wrote_observed hwrote)
    · exact .older r hfind hwins (exec_applyRecord_loses hwf hfind hwins)

/-- The daemon after the retention pass of a capture. -/
def retained (env : Env) (data : ClipboardData) (d : Daemon) : Daemon :=
  (exec (collectGarbage env) (captureState env data d)).2

theorem exec_applyNew_refused (h : admitted env record = false) :
    exec (applyNew env record) d = (.ok .ignored, d) := by
  unfold applyNew
  rw [if_neg (by simp [h])]
  rfl

/-- A record whose row outlives its own capture is applied. -/
theorem exec_applyNew_stored (record : SyncRecord) (h : admitted env record = true)
    (hrow : (retained env (captureOf record) d).db.entries.get
      (capturedRow env (captureOf record) d).id = some r) :
    ∃ d' n, exec (applyNew env record) d = (.ok .yes, d') ∧
      (retained env (captureOf record) d).db.Wrote r.key
        { r with cols :=
            (takenOver record (r.cols.timed record.createdAt record.lastSeenAt)).numbered n }
        d'.db := by
  obtain ⟨-, -, hstore⟩ := exec_store env (captureOf record) d
  have hentry := hstore.trans (exec_getEntry_ok hrow)
  obtain ⟨db1, htimes, hwrote1⟩ := wrote_setTimes (Table.find_of_get hrow)
    record.createdAt record.lastSeenAt
  obtain ⟨d2, htake, hwrote2, -⟩ := exec_takeOver
    (d := { retained env (captureOf record) d with db := db1 }) record hwrote1.row
  refine ⟨d2, _, ?_, hwrote1.trans hwrote2⟩
  unfold applyNew
  rw [if_pos h, exec_bind_ok hentry]
  exact (exec_bind_ok (exec_changeDb_ok htimes) _).trans (exec_bind_ok htake _)

/-- A record whose row its own capture evicts and purges fails the request. -/
theorem exec_applyNew_evicted (record : SyncRecord) (h : admitted env record = true)
    (hrow : (retained env (captureOf record) d).db.entries.get
      (capturedRow env (captureOf record) d).id = none) :
    exec (applyNew env record) d
      = (.error (.notFound (capturedRow env (captureOf record) d).id),
        retained env (captureOf record) d) := by
  obtain ⟨-, -, hstore⟩ := exec_store env (captureOf record) d
  have hentry := hstore.trans (exec_getEntry_error hrow)
  unfold applyNew
  rw [if_pos h]
  exact exec_bind_error hentry _

end Panora.Panod
