/-
  Panora.Panod.Suspend — applying a record, up to its await and after it.

  `Daemon::apply_record` decides by last-writer-wins and writes the row of a new
  entry; the rendering of a thumbnail is awaited inside `Daemon::store`, and the
  record's own state is written after that.  Nothing else in it waits, so other
  requests run at this one point only.

  Main results:
    * `beginRecord_waiting_iff` — when it waits, and what the row is like then;
    * `applyRecord_row` — what the row is like when it is done.
-/
import Panora.Panod.Reader

namespace Panora.Panod

open Storage Storage.Database Lib Lib.Op Lib.Table

/-! ## §1. While it waits -/

variable {env : Env} {d d' dw : Daemon} {sent : SyncRecord} {id : Nat} {image : Bytes}
  {k : EntryKey} {r r' : EntryRow}

/-- Applying the record waits: it is one the receiver takes in, newer than anything
    here, of an entry that is not live here, and its row is written. -/
structure Waits (env : Env) (sent : SyncRecord) (d : Daemon) (id : Nat) (image : Bytes)
    (dw : Daemon) : Prop where
  wellFormed : ¬ malformed env sent
  live : sent.deleted = false
  admitted : admitted env (clampTimes env sent) = true
  older : ∀ r, d.db.entries.find sent.key = some r →
    r.cols.deleted = true ∧ rowStamp r < sent.stamp
  image : imageOf env (captureOf (clampTimes env sent)) = some image
  row : exec (storeRow env (captureOf (clampTimes env sent)))
    (observed (clampTimes env sent) d) = (.ok id, dw)

/-- A well-formed record is compared with what is here. -/
theorem exec_beginRecord (h : ¬ malformed env sent) (d : Daemon) :
    exec (beginRecord env sent) d
      = exec (if loses (clampTimes env sent) (d.db.find d.dbCipher sent.key)
          then pure (.finished .ignored)
          else beginWinning env (clampTimes env sent) (d.db.find d.dbCipher sent.key))
        (observed (clampTimes env sent) d) := by
  have h : ¬ (badStamp (clampTimes env sent) ∨ badContent env (clampTimes env sent)) := h
  unfold beginRecord
  simp only [if_neg h]
  rw [exec_bind_ok (exec_observe _ d), exec_bind_ok (exec_readDb _ _)]
  simp only [Database.find, entries_observed, dbCipher_observed, clampTimes_key]
  rfl

/-- A live record of an entry that is not live here, newer than what is here, that is taken in:
    it takes the path of a capture. -/
def storedAnew (env : Env) (record : SyncRecord) (here : Option Entry) : Bool :=
  !loses record here && !record.deleted
    && (here.filter (fun entry => !entry.deleted)).isNone && admitted env record

/-- A well-formed record that is stored so. -/
def Anew (env : Env) (sent : SyncRecord) (d : Daemon) : Prop :=
  ¬ malformed env sent ∧
    storedAnew env (clampTimes env sent) (d.db.find d.dbCipher sent.key) = true

instance (env : Env) (sent : SyncRecord) (d : Daemon) : Decidable (Anew env sent d) :=
  inferInstanceAs (Decidable (_ ∧ _))

theorem storedAnew_iff : storedAnew env (clampTimes env sent) (d.db.find d.dbCipher sent.key) = true ↔
    sent.deleted = false ∧ admitted env (clampTimes env sent) = true ∧
      ∀ r, d.db.entries.find sent.key = some r → r.cols.deleted = true ∧ rowStamp r < sent.stamp := by
  have hclamped : (clampTimes env sent).deleted = sent.deleted := rfl
  unfold storedAnew Database.find
  cases d.db.entries.find sent.key with
  | none => simp [loses, hclamped]
  | some r =>
    have hdeleted : (rowToEntry d.dbCipher r).deleted = r.cols.deleted := rfl
    have hloses : loses (clampTimes env sent) (some (rowToEntry d.dbCipher r)) = true ↔
        ¬ rowStamp r < sent.stamp := loses_row (clampTimes env sent)
    cases hl : loses (clampTimes env sent) (some (rowToEntry d.dbCipher r)) with
    | true =>
      simp [hl, hloses.mp hl]
    | false =>
      have hnewer : rowStamp r < sent.stamp := by
        by_contra hnot
        rw [hloses.mpr hnot] at hl
        cases hl
      cases hdel : r.cols.deleted <;> simp [hl, hnewer, hclamped, Option.filter, hdeleted, hdel]

/-- A record that is stored anew is captured. -/
theorem exec_beginRecord_anew (h : Anew env sent d) :
    exec (beginRecord env sent) d
      = exec (beginNew env (clampTimes env sent)) (observed (clampTimes env sent) d) := by
  obtain ⟨hwf, hanew⟩ := h
  unfold storedAnew at hanew
  simp only [Bool.and_eq_true, Bool.not_eq_true', Option.isNone_iff_eq_none] at hanew
  obtain ⟨⟨⟨hloses, hlive⟩, hhere⟩, -⟩ := hanew
  rw [exec_beginRecord hwf, hloses]
  unfold beginWinning
  simp only [hlive, hhere, Bool.false_eq_true, if_false]

/-- What ends with a verdict does not wait. -/
theorem not_waiting {x : Request Applied} :
    Op.exec (x >>= fun became => pure (Stage.finished became)) d ≠ (.ok (.waiting id image), dw) := by
  intro h
  obtain ⟨became, d1, -, hpure⟩ := exec_bind_eq_ok.mp h
  cases hpure

theorem beginNew_waiting {record : SyncRecord} (hadm : Panod.admitted env record = true) :
    exec (beginNew env record) d = (.ok (.waiting id image), dw) ↔
      imageOf env (captureOf record) = some image ∧
        exec (storeRow env (captureOf record)) d = (.ok id, dw) := by
  unfold beginNew
  rw [if_pos hadm]
  cases himage : imageOf env (captureOf record) with
  | none =>
    refine ⟨fun h => ?_, fun h => by simp at h⟩
    obtain ⟨id', d1, -, hrest⟩ := exec_bind_eq_ok.mp h
    exact absurd hrest not_waiting
  | some image' =>
    constructor
    · intro h
      obtain ⟨id', d1, hrow, hrest⟩ := exec_bind_eq_ok.mp h
      cases hrest
      exact ⟨rfl, hrow⟩
    · rintro ⟨himage, hrow⟩
      cases himage
      rw [exec_bind_ok hrow]
      rfl

/-- A record that is not stored anew does not wait. -/
theorem anew_of_waiting (h : exec (beginRecord env sent) d = (.ok (.waiting id image), dw)) :
    Anew env sent d := by
  have hwf : ¬ malformed env sent := by
    intro hbad
    have hbad : badStamp (clampTimes env sent) ∨ badContent env (clampTimes env sent) := hbad
    unfold beginRecord at h
    simp only [if_pos hbad] at h
    cases h
  refine ⟨hwf, ?_⟩
  rw [exec_beginRecord hwf] at h
  by_cases hloses : loses (clampTimes env sent) (d.db.find d.dbCipher sent.key) = true
  · rw [if_pos hloses] at h
    cases h
  rw [if_neg hloses] at h
  unfold beginWinning at h
  by_cases hdel : (clampTimes env sent).deleted = true
  · rw [if_pos hdel] at h
    exact absurd h not_waiting
  rw [if_neg hdel] at h
  cases hhere : (d.db.find d.dbCipher sent.key).filter (fun entry => !entry.deleted) with
  | some entry =>
    rw [hhere] at h
    obtain ⟨-, d1, -, hpure⟩ := exec_bind_eq_ok.mp h
    cases hpure
  | none =>
    rw [hhere] at h
    by_cases hadm : Panod.admitted env (clampTimes env sent) = true
    · simp [storedAnew, hloses, hdel, hhere, hadm]
    · unfold beginNew at h
      rw [if_neg hadm] at h
      cases h

/-- **When applying a record waits.** -/
theorem beginRecord_waiting_iff :
    exec (beginRecord env sent) d = (.ok (.waiting id image), dw) ↔
      Waits env sent d id image dw := by
  constructor
  · intro h
    have hanew := anew_of_waiting h
    obtain ⟨hlive, hadm, holder⟩ := storedAnew_iff.mp hanew.2
    rw [exec_beginRecord_anew hanew] at h
    obtain ⟨himage, hrow⟩ := (beginNew_waiting hadm).mp h
    exact ⟨hanew.1, hlive, hadm, holder, himage, hrow⟩
  · intro h
    rw [exec_beginRecord_anew ⟨h.wellFormed, storedAnew_iff.mpr ⟨h.live, h.admitted, h.older⟩⟩]
    exact (beginNew_waiting h.admitted).mpr ⟨h.image, h.row⟩

theorem beginRecord_waiting (h : exec (beginRecord env sent) d = (.ok (.waiting id image), dw)) :
    Waits env sent d id image dw := beginRecord_waiting_iff.mp h

/-- The daemon once the row of a record that is stored anew is written, and that row. -/
def rowWritten (env : Env) (sent : SyncRecord) (d : Daemon) : Daemon :=
  (exec (storeRow env (captureOf (clampTimes env sent))) (observed (clampTimes env sent) d)).2

@[inherit_doc rowWritten]
def writtenRow (env : Env) (sent : SyncRecord) (d : Daemon) : EntryRow :=
  capturedRow env (captureOf (clampTimes env sent)) (observed (clampTimes env sent) d)

/-- **A record that is stored anew waits if it has a picture to render**, with its row
    written. -/
theorem exec_beginRecord_waits (h : Anew env sent d)
    (himage : imageOf env (captureOf (clampTimes env sent)) = some image) :
    exec (beginRecord env sent) d
      = (.ok (.waiting (writtenRow env sent d).id image), rowWritten env sent d) := by
  obtain ⟨hlive, hadm, holder⟩ := storedAnew_iff.mp h.2
  obtain ⟨d1, hrun, -⟩ := exec_storeRow env (captureOf (clampTimes env sent))
    (observed (clampTimes env sent) d)
  refine beginRecord_waiting_iff.mpr ⟨h.1, hlive, hadm, holder, himage, ?_⟩
  unfold rowWritten
  rw [hrun]
  rfl

/-- What a capture made of something that is not live here says. -/
theorem carriedBy_capturedRow {data : ClipboardData}
    (h : ∀ r, d.db.entries.find (keyOf env data) = some r → r.cols.deleted = true) :
    carriedBy (capturedRow env data d)
      = ⟨d.db.tickLamport.1, env.deviceId, false, false⟩ := by
  have hpin := (capturedRow_fresh h).1
  have hdel := capturedRow_deleted env data d
  unfold carriedBy
  rw [hpin, hdel]
  unfold capturedRow
  by_cases hsecret : (secretIn env data).isSome = true
  · simp only [if_pos hsecret]
    rfl
  · simp only [if_neg hsecret]
    rfl

/-- **The row while it waits**: live, unpinned, with the next stamp of this device. -/
theorem Waits.written (h : Waits env sent d id image dw) :
    dw = rowWritten env sent d ∧ id = (writtenRow env sent d).id ∧
      dw.db.entries.find sent.key = some (writtenRow env sent d) ∧
      carriedBy (writtenRow env sent d)
        = ⟨(observed (clampTimes env sent) d).db.tickLamport.1, env.deviceId, false, false⟩ := by
  have hkey : keyOf env (captureOf (clampTimes env sent)) = sent.key :=
    keyOf_captureOf h.wellFormed h.live
  obtain ⟨d1, hrun, hwrote, -⟩ := exec_storeRow env (captureOf (clampTimes env sent))
    (observed (clampTimes env sent) d)
  unfold rowWritten
  rw [h.row] at hrun ⊢
  cases hrun
  refine ⟨rfl, rfl, by rw [← hkey]; exact hwrote.row, carriedBy_capturedRow (fun r hr => ?_)⟩
  rw [entries_observed, hkey] at hr
  exact (h.older r hr).1

theorem Waits.find (h : Waits env sent d id image dw) :
    ∃ r, dw.db.entries.find sent.key = some r ∧ r.id = id ∧
      carriedBy r = ⟨(observed (clampTimes env sent) d).db.tickLamport.1, env.deviceId,
        false, false⟩ := by
  obtain ⟨-, hid, hfind, hcarried⟩ := h.written
  exact ⟨_, hfind, hid.symm, hcarried⟩

/-! ## §2. Retention, seen from one row -/

/-- A row that retention evicted: deleted, with no undo window. -/
def evictedRow (r : EntryRow) : Prop := r.cols.deleted = true ∧ r.cols.deletedAt = 0

/-- What a row may have become: itself, or evicted. -/
def Survives (r r' : EntryRow) : Prop :=
  r' = r ∨ ∃ n, r' = { r with cols := (r.cols.tombstoned 0).numbered n }

theorem Survives.trans {r'' : EntryRow} (h : Survives r r') (h' : Survives r' r'') :
    Survives r r'' := by
  rcases h' with rfl | ⟨n, rfl⟩
  · exact h
  · rcases h with rfl | ⟨m, rfl⟩
    · exact .inr ⟨n, rfl⟩
    · exact .inr ⟨n, rfl⟩

theorem Survives.id_eq (h : Survives r r') : r'.id = r.id := by
  rcases h with rfl | ⟨n, rfl⟩ <;> rfl

theorem Survives.key_eq (h : Survives r r') : r'.key = r.key := by
  rcases h with rfl | ⟨n, rfl⟩ <;> rfl

theorem Survives.eq_or_evicted (h : Survives r r') : r' = r ∨ evictedRow r' := by
  rcases h with rfl | ⟨n, rfl⟩
  · exact .inl rfl
  · exact .inr ⟨rfl, rfl⟩

/-- Every row a database has, the other had, or it is evicted. -/
def AllSurvive (db db' : Database) : Prop :=
  ∀ r' ∈ db'.entries.rows, ∃ r ∈ db.entries.rows, Survives r r'

theorem AllSurvive.trans {db db' db'' : Database} (h : AllSurvive db db')
    (h' : AllSurvive db' db'') : AllSurvive db db'' := by
  intro r'' hr''
  obtain ⟨r', hr', hs'⟩ := h' r'' hr''
  obtain ⟨r, hr, hs⟩ := h r' hr'
  exact ⟨r, hr, hs.trans hs'⟩

theorem Rule.Sound.allSurvive {rule : Rule} (h : rule.Sound) (db : Database) :
    AllSurvive db (rule.run db) := by
  intro r' hr'
  obtain ⟨seq, hentries⟩ := (h db).2.entries
  rw [hentries] at hr'
  obtain ⟨r, hr, rfl⟩ := mem_mapCols.mp hr'
  refine ⟨r, hr, ?_⟩
  unfold setCols evictedCols
  by_cases hid : r.id ∈ rule.ids db
  · rw [if_pos hid]
    exact .inr ⟨seq r.id, rfl⟩
  · rw [if_neg hid]
    exact .inl rfl

/-- **A retention pass** leaves a row as it is, evicts it, or purges it. -/
theorem collectGarbage_allSurvive (env : Env) (d : Daemon) :
    AllSurvive d.db (exec (collectGarbage env) d).2.db := by
  obtain ⟨d', hrun, hentries, -⟩ := exec_collectGarbage env d
  have hrules : AllSurvive d.db (afterRules env d.db) :=
    (((sound_limitRule env).allSurvive _).trans ((sound_ageRule env).allSurvive _)).trans
      (((sound_secretRule env).allSurvive _).trans ((sound_bytesRule env).allSurvive _))
  intro r' hr'
  rw [hrun, hentries] at hr'
  exact hrules r' (mem_keepOnly.mp hr').1

/-- The row of an entry after a pass. -/
theorem find_of_allSurvive {db db' : Database} (h : AllSurvive db db')
    (hr' : db'.entries.find k = some r') : ∃ r, db.entries.find k = some r ∧ Survives r r' := by
  obtain ⟨hmem, hkey⟩ := find_eq_some.mp hr'
  obtain ⟨r, hr, hs⟩ := h r' hmem
  exact ⟨r, find_eq_some.mpr ⟨hr, hs.key_eq.symm.trans hkey⟩, hs⟩

theorem get_of_allSurvive {db db' : Database} (h : AllSurvive db db')
    (hr' : db'.entries.get id = some r') : ∃ r, db.entries.get id = some r ∧ Survives r r' := by
  obtain ⟨hmem, hid⟩ := get_eq_some.mp hr'
  obtain ⟨r, hr, hs⟩ := h r' hmem
  exact ⟨r, get_eq_some.mpr ⟨hr, hs.id_eq.symm.trans hid⟩, hs⟩

/-! ## §3. When it is done -/

/-- What a record says of its entry. -/
def remoteState (sent : SyncRecord) : Carried := (filed sent).2

/-- What a row says that gave way to a deletion: it keeps its pin. -/
def deletedBy (sent : SyncRecord) (r : EntryRow) : Carried :=
  ⟨sent.lamport, sent.deviceId, r.cols.pinned, true⟩

/-- What an entry says once a record was applied to it. -/
def settled (sent : SyncRecord) : Option EntryRow → Carried
  | some r =>
    if rowStamp r < sent.stamp then
      if sent.deleted then deletedBy sent r else remoteState sent
    else carriedBy r
  | none => remoteState sent

/-- What taking a record's state over leaves of a row. -/
theorem carriedBy_takenOver {c : Cols} {n : Nat} (hlive : sent.deleted = false)
    (h : r'.cols = (takenOver (clampTimes env sent) c).numbered n) (hc : c.deleted = false) :
    carriedBy r' = remoteState sent := by
  unfold carriedBy remoteState filed
  rw [h, hlive, ← hc]
  rfl

/-- A capture that was applied ends in the record's state, or evicted. -/
theorem applyNew_row (hwf : ¬ malformed env sent) (hlive : sent.deleted = false)
    (hadm : Panod.admitted env (clampTimes env sent) = true)
    (hr' : (exec (applyNew env (clampTimes env sent)) d).2.db.entries.find sent.key = some r')
    (hkept : ¬ evictedRow r') : carriedBy r' = remoteState sent := by
  have hkey := keyOf_captureOf hwf hlive
  obtain ⟨hwrote, -, -⟩ := exec_store env (captureOf (clampTimes env sent)) d
  rw [hkey] at hwrote
  have hsurvive : AllSurvive (captureState env (captureOf (clampTimes env sent)) d).db
      (retained env (captureOf (clampTimes env sent)) d).db := collectGarbage_allSurvive env _
  cases hget : (retained env (captureOf (clampTimes env sent)) d).db.entries.get
      (capturedRow env (captureOf (clampTimes env sent)) d).id with
  | none =>
    -- its row was purged: whatever is found there would be that row
    rw [exec_applyNew_evicted (clampTimes env sent) hadm hget] at hr'
    obtain ⟨r, hr, hs⟩ := find_of_allSurvive hsurvive hr'
    rw [hwrote.row] at hr
    cases hr
    have hthere := get_of_find hr'
    rw [hs.id_eq, hget] at hthere
    cases hthere
  | some r =>
    obtain ⟨d', n, hrun, hwrote'⟩ := exec_applyNew_stored (clampTimes env sent) hadm hget
    obtain ⟨r0, hr0, hs⟩ := get_of_allSurvive hsurvive hget
    rw [hwrote.get] at hr0
    cases hr0
    have hkey' : r.key = sent.key := hs.key_eq.trans (find_eq_some.mp hwrote.row).2
    rw [hrun, ← hkey', hwrote'.row] at hr'
    cases hr'
    rcases hs.eq_or_evicted with rfl | hevicted
    · exact carriedBy_takenOver hlive rfl (capturedRow_deleted env (captureOf (clampTimes env sent)) d)
    · exact absurd ⟨hevicted.1, hevicted.2⟩ hkept

/-- **Once a record was applied**, its entry says what the newer of the two says; a
    deletion leaves the pin. -/
theorem applyRecord_row (hwf : ¬ malformed env sent)
    (hadm : sent.deleted = false → Panod.admitted env (clampTimes env sent) = true)
    (hr' : (exec (applyRecord env sent) d).2.db.entries.find sent.key = some r')
    (hkept : ¬ evictedRow r') : carriedBy r' = settled sent (d.db.entries.find sent.key) := by
  cases applyRecord_fate hwf d with
  | unknown here _ run =>
    rw [run, entries_observed, here] at hr'
    cases hr'
  | older r here notNewer run =>
    rw [run, entries_observed, here] at hr'
    cases hr'
    rw [here, settled, if_neg notNewer]
  | recorded live here run =>
    rw [run] at hr'
    rw [applyNew_row hwf live (hadm live) hr' hkept]
    cases hfind : d.db.entries.find sent.key with
    | none => rfl
    | some r => rw [settled, if_pos (here r hfind).2, if_neg (by simp [live])]
  | merged r d' n here newer live rowLive run wrote =>
    rw [run, wrote.row] at hr'
    cases hr'
    rw [here, settled, if_pos newer, if_neg (by simp [live])]
    exact carriedBy_takenOver live rfl rowLive
  | restamped r d' n here newer deletion rowDeleted run wrote =>
    rw [run, wrote.row] at hr'
    cases hr'
    rw [here, settled, if_pos newer, if_pos deletion, deletedBy, ← rowDeleted]
    rfl
  | removed r d' n m here newer deletion rowLive run wrote =>
    rw [run, wrote.row] at hr'
    cases hr'
    rw [here, settled, if_pos newer, if_pos deletion]
    rfl

end Panora.Panod
