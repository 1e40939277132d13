/-
  Panora.Panod.Convergence — what sync leaves depends on the records, not their order.

  Seen from outside, a history is a register for each entry: the newest state
  seen, if any.  Applying a record is `Lww.absorbAt`: the newer state is taken,
  and a deletion of something that is not here is dropped.

  Main results:
    * `view_applyRecord` — applying a record refines `absorbAt`;
    * `sync_converges_iff` — any order and any repetition of the records give the
      same visible history exactly when no entry that is not here is deleted by
      the newest of its records and live in an older one.
-/
import Panora.Lib.Lww
import Panora.Panod.Sample
import Panora.Panod.Sync

namespace Panora.Panod

open Storage Lib Lib.Lww Lib.Op List

/-! ## §1. A history seen from outside -/

/-- The state of an entry: who made it when, and, unless it is deleted, its pin. -/
structure EntryState where
  key : EntryKey
  stamp : Stamp
  pin : Option Bool
  deriving DecidableEq

/-- An entry that is there. -/
def EntryState.live (s : EntryState) : Bool := s.pin.isSome

/-- The state a row is in. -/
def rowState (r : EntryRow) : EntryState :=
  ⟨r.key, rowStamp r, if r.cols.deleted then none else some r.cols.pinned⟩

/-- The state a record carries. -/
def recordState (r : SyncRecord) : EntryState :=
  ⟨r.key, r.stamp, if r.deleted then none else some r.pinned⟩

/-- What a daemon holds, entry by entry. -/
def view (d : Daemon) (k : EntryKey) : Option EntryState := (d.db.entries.find k).map rowState

/-- The visible history: the live entries, with their pin and stamp. -/
def visibleHistory (d : Daemon) (k : EntryKey) : Option EntryState :=
  visible EntryState.live (view d k)

/-- Take one more state in. -/
abbrev takeIn : (EntryKey → Option EntryState) → EntryState → EntryKey → Option EntryState :=
  absorbAt EntryState.stamp EntryState.live EntryState.key

theorem recordState_live (r : SyncRecord) : (recordState r).live = true ↔ r.deleted = false := by
  unfold EntryState.live recordState
  cases r.deleted <;> simp

section Steps

variable {env : Env} {d d' : Daemon} {k : EntryKey} {r : EntryRow} {sent : SyncRecord}

variable {s : EntryState}

/-- A row that is written is what is held for its entry. -/
theorem view_of_wrote (h : d.db.Wrote s.key r d'.db)
    (hnew : absorb EntryState.stamp EntryState.live (view d s.key) s = some (rowState r)) :
    view d' = takeIn (view d) s := by
  funext k'
  unfold takeIn absorbAt
  by_cases hk : s.key = k'
  · subst hk
    rw [if_pos rfl, hnew, view, h.row]
    rfl
  · rw [if_neg hk, view, view, h.others k' (Ne.symm hk)]

/-- A state that is not taken leaves everything as it is. -/
theorem view_of_same (h : d'.db.entries = d.db.entries)
    (hold : absorb EntryState.stamp EntryState.live (view d s.key) s = view d s.key) :
    view d' = takeIn (view d) s := by
  funext k'
  unfold takeIn absorbAt
  by_cases hk : s.key = k'
  · subst hk
    rw [if_pos rfl, hold, view, view, h]
  · rw [if_neg hk, view, view, h]

/-- Something that is held gives way to a newer state. -/
theorem absorb_newer {a : EntryState} (h : a.stamp < s.stamp) :
    absorb EntryState.stamp EntryState.live (some a) s = some s := by
  rw [absorb, newer, if_pos h]

theorem absorb_older {a : EntryState} (h : ¬ a.stamp < s.stamp) :
    absorb EntryState.stamp EntryState.live (some a) s = some a := by
  rw [absorb, newer, if_neg h]

theorem absorb_unknown_live (h : s.live = true) :
    absorb EntryState.stamp EntryState.live none s = some s := by
  rw [absorb, if_pos h]

theorem absorb_unknown_deleted (h : s.live = false) :
    absorb EntryState.stamp EntryState.live none s = none := by
  rw [absorb, h]
  rfl

/-! ## §2. Applying a record, while retention evicts nothing -/

/-- The daemon in which applying a record runs retention, if it does. -/
def gcPoint (env : Env) (sent : SyncRecord) (d : Daemon) : Option Daemon :=
  let record := clampTimes env sent
  let d1 := observed record d
  let captured := if admitted env record then some (captureState env (captureOf record) d1)
    else none
  match d.db.entries.find sent.key with
  | none => if sent.deleted then none else captured
  | some r =>
    if rowStamp r < sent.stamp then
      if sent.deleted then
        if r.cols.deleted then none else some (tombstoneState env r.id d1)
      else if r.cols.deleted then captured else none
    else none

/-- Retention run here leaves every row as it is. -/
def Quiet (env : Env) (d : Daemon) : Prop :=
  (exec (collectGarbage env) d).2.db.entries = d.db.entries

/-- No retention limit is hit while these records are applied. -/
def QuietRun (env : Env) : Daemon → List SyncRecord → Prop
  | _, [] => True
  | d, sent :: rest => (∀ g ∈ gcPoint env sent d, Quiet env g) ∧
      QuietRun env (exec (applyRecord env sent) d).2 rest

instance (env : Env) (d : Daemon) : Decidable (Quiet env d) := inferInstanceAs (Decidable (_ = _))

instance decidableQuietRun (env : Env) : ∀ d l, Decidable (QuietRun env d l)
  | _, [] => inferInstanceAs (Decidable True)
  | d, sent :: rest =>
    have := decidableQuietRun env (exec (applyRecord env sent) d).2 rest
    inferInstanceAs (Decidable ((∀ g ∈ gcPoint env sent d, Quiet env g) ∧ _))

/-- A record a device may send, that the receiver's gate lets through. -/
structure Acceptable (env : Env) (sent : SyncRecord) : Prop where
  wellFormed : ¬ malformed env sent
  admitted : sent.deleted = false → admitted env sent = true

/-- The times of a row. -/
def times (r : EntryRow) : Int × Int := (r.cols.createdAt, r.cols.lastSeenAt)

/-- The times a record carries. -/
def recordTimes (record : SyncRecord) : Int × Int := (record.createdAt, record.lastSeenAt)

/-- Times taken over next to those of a live row, if there is one: the earliest creation and
    the latest sighting. -/
def mergedTimes (t : Int × Int) : Option EntryRow → Int × Int
  | some r => (min r.cols.createdAt t.1, max r.cols.lastSeenAt t.2)
  | none => t

/-- The row, if it is live. -/
def ifLive (r : EntryRow) : Option EntryRow := if r.cols.deleted then none else some r

/-- A record that is recorded as a capture ends in its own state, with its own times. -/
theorem exec_applyNew_quiet (hacc : Acceptable env sent) (hlive : sent.deleted = false)
    (hquiet : Quiet env (captureState env (captureOf (clampTimes env sent)) d)) :
    ∃ d' r, exec (applyNew env (clampTimes env sent)) d = (.ok .yes, d') ∧
      d.db.Wrote sent.key r d'.db ∧ rowState r = recordState sent ∧
      times r = mergedTimes (recordTimes (clampTimes env sent)) none := by
  obtain ⟨hwrote, -, -⟩ := exec_store env (captureOf (clampTimes env sent)) d
  rw [keyOf_captureOf hacc.wellFormed hlive] at hwrote
  have hkept : (retained env (captureOf (clampTimes env sent)) d).db.entries
      = (captureState env (captureOf (clampTimes env sent)) d).db.entries := hquiet
  obtain ⟨d', n, hrun, hwrote'⟩ := exec_applyNew_stored (clampTimes env sent)
    (hacc.admitted hlive) (by rw [hkept]; exact hwrote.get)
  have hkey := (Table.find_eq_some.mp hwrote.row).2
  rw [hkey] at hwrote'
  refine ⟨d', _, hrun, (hwrote.of_entries_eq hkept).trans hwrote', ?_, ?_⟩
  · have hdel := capturedRow_deleted env (captureOf (clampTimes env sent)) d
    simp only [rowState, recordState, rowStamp, hlive, takenOver, Cols.numbered,
      Cols.stamped, Cols.widened, Cols.timed, Cols.pinnedAs, hdel]
    rfl
  · -- set first, the times are what they are widened by
    simp only [times, mergedTimes, recordTimes, takenOver, Cols.numbered, Cols.stamped, Cols.widened,
      Cols.timed, Cols.pinnedAs, min_self, max_self]

/-- The row of a record's entry took the record's state, which is newer than the one before. -/
structure Takes (env : Env) (sent : SyncRecord) (d d' : Daemon) (r : EntryRow) : Prop where
  wellFormed : ¬ malformed env sent
  newer : ∀ old, d.db.entries.find sent.key = some old → rowStamp old < sent.stamp
  wrote : d.db.Wrote sent.key r d'.db
  state : rowState r = recordState sent
  times : sent.deleted = false → Panod.times r
    = mergedTimes (recordTimes (clampTimes env sent)) ((d.db.entries.find sent.key).bind ifLive)

/-- Why a well-formed record changes nothing. -/
inductive Unneeded (env : Env) (sent : SyncRecord) (d : Daemon) : Prop where
  | unknown (here : d.db.entries.find sent.key = none) (deletion : sent.deleted = true)
  | older (r : EntryRow) (here : d.db.entries.find sent.key = some r)
      (notNewer : ¬ rowStamp r < sent.stamp)
  | refused (live : sent.deleted = false) (gate : admitted env (clampTimes env sent) = false)

/-- **A well-formed record, while retention evicts nothing**: its row takes its state, or the
    record is not needed. -/
theorem exec_applyRecord_quiet (hwf : ¬ malformed env sent)
    (hquiet : ∀ g ∈ gcPoint env sent d, Quiet env g) :
    (∃ d' r, exec (applyRecord env sent) d = (.ok .yes, d') ∧ Takes env sent d d' r ∧
        (d.db.entries.find sent.key = none → sent.deleted = false)) ∨
      exec (applyRecord env sent) d = (.ok .ignored, observed (clampTimes env sent) d) ∧
        Unneeded env sent d := by
  -- what the row that is here says about it
  have hsome : ∀ {r}, d.db.entries.find sent.key = some r → rowStamp r < sent.stamp →
      r.key = sent.key ∧ (d.db.entries.find sent.key = none → sent.deleted = false) ∧
        ∀ old, d.db.entries.find sent.key = some old → rowStamp old < sent.stamp := by
    intro r hr hnewer
    refine ⟨(Table.find_eq_some.mp hr).2, fun hnone => absurd (hr.symm.trans hnone) (by simp), ?_⟩
    intro old hold
    rwa [← Option.some.inj (hr.symm.trans hold)]
  cases applyRecord_fate hwf d with
  | unknown here deletion run => exact .inr ⟨run, .unknown here deletion⟩
  | older r here notNewer run => exact .inr ⟨run, .older r here notNewer⟩
  | recorded live here run =>
    by_cases hadm : admitted env (clampTimes env sent) = true
    · have hpoint : captureState env (captureOf (clampTimes env sent))
          (observed (clampTimes env sent) d) ∈ gcPoint env sent d := by
        unfold gcPoint
        cases hfind : d.db.entries.find sent.key with
        | none => simp [live, hadm]
        | some r => simp [live, hadm, (here r hfind).1, (here r hfind).2]
      obtain ⟨d', r, hrun, hwrote, hstate, htimes⟩ :=
        exec_applyNew_quiet ⟨hwf, fun _ => hadm⟩ live (hquiet _ hpoint)
      have hgone : (d.db.entries.find sent.key).bind ifLive = none := by
        cases hfind : d.db.entries.find sent.key with
        | none => rfl
        | some r => rw [Option.bind_some, ifLive, if_pos (here r hfind).1]
      exact .inl ⟨d', r, run.trans hrun, ⟨hwf, fun old hold => (here old hold).2,
        wrote_observed hwrote, hstate, fun _ => by rw [htimes, hgone]⟩, fun _ => live⟩
    · have hadm : admitted env (clampTimes env sent) = false := Bool.eq_false_iff.mpr hadm
      exact .inr ⟨run.trans (exec_applyNew_refused hadm), .refused live hadm⟩
  | merged r d' n here newer live rowLive run wrote =>
    obtain ⟨hkey, hnone, hnewer⟩ := hsome here newer
    refine .inl ⟨d', _, run, ⟨hwf, hnewer, wrote, ?_, fun _ => ?_⟩, hnone⟩
    · simp only [rowState, recordState, hkey, live, takenOver, Cols.numbered, Cols.stamped,
        Cols.widened, Cols.timed, Cols.pinnedAs, rowLive]
      rfl
    · rw [here, Option.bind_some, ifLive, if_neg (by simp [rowLive])]
      rfl
  | restamped r d' n here newer deletion rowDeleted run wrote =>
    obtain ⟨hkey, hnone, hnewer⟩ := hsome here newer
    refine .inl ⟨d', _, run, ⟨hwf, hnewer, wrote, ?_, fun hlive => absurd deletion (by simp [hlive])⟩,
      hnone⟩
    simp only [rowState, recordState, hkey, deletion, Cols.numbered, Cols.stamped, rowDeleted,
      if_true]
    rfl
  | removed r d' n m here newer deletion rowLive run wrote =>
    obtain ⟨hkey, hnone, hnewer⟩ := hsome here newer
    have hpoint : tombstoneState env r.id (observed (clampTimes env sent) d)
        ∈ gcPoint env sent d := by
      simp [gcPoint, here, newer, deletion, rowLive]
    obtain ⟨_, -, hwrote0⟩ := wrote_tombstoneState env
      (show (observed (clampTimes env sent) d).db.entries.find sent.key = some r by
        rw [entries_observed, here])
    have hwrote := wrote_observed ((hwrote0.of_entries_eq (hquiet _ hpoint)).trans wrote)
    refine .inl ⟨d', _, run, ⟨hwf, hnewer, hwrote, ?_,
      fun hlive => absurd deletion (by simp [hlive])⟩, hnone⟩
    simp only [rowState, recordState, hkey, deletion, Cols.numbered, Cols.stamped,
      Cols.tombstoned, if_true]
    rfl

/-- **Applying a record takes its state in**, as long as retention evicts nothing. -/
theorem view_applyRecord (hacc : Acceptable env sent)
    (hquiet : ∀ g ∈ gcPoint env sent d, Quiet env g) :
    ∃ became d', exec (applyRecord env sent) d = (.ok became, d') ∧
      view d' = takeIn (view d) (recordState sent) := by
  have hview : view d sent.key = (d.db.entries.find sent.key).map rowState := rfl
  obtain ⟨d', r, hrun, htakes, hlive⟩ | ⟨hrun, hunneeded⟩ :=
    exec_applyRecord_quiet hacc.wellFormed hquiet
  · refine ⟨.yes, d', hrun, view_of_wrote (s := recordState sent) htakes.wrote ?_⟩
    show absorb _ _ (view d sent.key) _ = _
    rw [hview, htakes.state]
    cases hfind : d.db.entries.find sent.key with
    | none => exact absorb_unknown_live (by simp [EntryState.live, recordState, hlive hfind])
    | some old => exact absorb_newer (htakes.newer old hfind)
  · refine ⟨.ignored, _, hrun, view_of_same (by simp) ?_⟩
    show absorb _ _ (view d sent.key) _ = view d sent.key
    rw [hview]
    cases hunneeded with
    | unknown here deletion =>
      rw [here]
      exact absorb_unknown_deleted (by simp [EntryState.live, recordState, deletion])
    | older r here notNewer =>
      rw [here]
      exact absorb_older notNewer
    | refused live gate => exact absurd ((hacc.admitted live).symm.trans gate) (by simp)

/-! ## §3. Convergence -/

/-- **Applying records takes their states in**, one after the other. -/
theorem view_syncApply (records : List SyncRecord) (hacc : ∀ r ∈ records, Acceptable env r) :
    ∀ (t : Tally) (d : Daemon), QuietRun env d records →
      ∃ t' d', exec (records.foldlM (applyNext env) t) d = (.ok t', d') ∧
        view d' = (records.map recordState).foldl takeIn (view d) := by
  induction records with
  | nil =>
    intro t d _
    exact ⟨t, d, rfl, rfl⟩
  | cons sent rest ih =>
    intro t d hquiet
    obtain ⟨hsent, hrest⟩ := forall_mem_cons.mp hacc
    obtain ⟨became, d1, hrun, hview⟩ := view_applyRecord hsent hquiet.1
    have hquiet' : QuietRun env d1 rest := by
      have := hquiet.2
      rwa [hrun] at this
    obtain ⟨t', d', hrun', hview'⟩ := ih hrest (t.count became) d1 hquiet'
    refine ⟨t', d', ?_, ?_⟩
    · have hnext : exec (applyNext env t sent) d = (.ok (t.count became), d1) := by
        unfold applyNext
        rw [exec_bind_ok hrun]
        rfl
      rw [foldlM_cons, exec_bind_ok hnext]
      exact hrun'
    · rw [hview', hview, map_cons, foldl_cons]

end Steps

/-- The visible history after applying records. -/
def historyAfter (env : Env) (d : Daemon) (records : List SyncRecord) :
    EntryKey → Option EntryState :=
  visibleHistory (exec (syncApply env records) d).2

/-- **When sync converges.**  Records that may be sent and pass the gate, of which
    no two of one entry have one stamp, are applied while no retention limit is
    hit.  Applying them in any order and with any repetition gives the same live
    entries, pins and stamps exactly when, for each entry that has no row here and
    for which some record is live, the newest record is live. -/
theorem sync_converges_iff (env : Env) (d : Daemon) (records : List SyncRecord)
    (hacc : ∀ r ∈ records, Acceptable env r)
    (huniq : ∀ r ∈ records, ∀ r' ∈ records, r.key = r'.key → r.stamp = r'.stamp → r = r')
    (hquiet : ∀ l : List SyncRecord, (∀ r, r ∈ l ↔ r ∈ records) → QuietRun env d l) :
    (∀ l : List SyncRecord, (∀ r, r ∈ l ↔ r ∈ records) →
        historyAfter env d l = historyAfter env d records)
      ↔ ∀ k, d.db.entries.find k = none → (∃ r ∈ records, r.key = k ∧ r.deleted = false) →
        ∃ g ∈ records, g.key = k ∧ g.deleted = false ∧
          ∀ r ∈ records, r.key = k → r.stamp ≤ g.stamp := by
  have hafter : ∀ l : List SyncRecord, (∀ r, r ∈ l ↔ r ∈ records) →
      ∀ k, historyAfter env d l k
        = visible EntryState.live ((l.map recordState).foldl takeIn (view d) k) := by
    intro l hset k
    obtain ⟨t', d', hrun, hview⟩ := view_syncApply l (fun r hr => hacc r ((hset r).mp hr))
      ⟨0, 0, 0⟩ d (hquiet l hset)
    show visible EntryState.live (view (exec (syncApply env l) d).2 k) = _
    rw [show exec (syncApply env l) d = (.ok t', d') from hrun, hview]
  have hmain := messages_converge_iff EntryState.stamp EntryState.live EntryState.key recordState
    (l := records) (view d)
    (fun r hr r' hr' heq => huniq r hr r' hr' (congrArg EntryState.key heq)
      (congrArg EntryState.stamp heq))
    (fun r hr r' hr' hkey hstamp => congrArg recordState (huniq r hr r' hr' hkey hstamp))
  have hsame : ∀ l : List SyncRecord, (∀ r, r ∈ l ↔ r ∈ records) →
      (historyAfter env d l = historyAfter env d records ↔ ∀ k,
        visible EntryState.live ((l.map recordState).foldl takeIn (view d) k)
          = visible EntryState.live ((records.map recordState).foldl takeIn (view d) k)) := by
    intro l hset
    rw [funext_iff]
    refine forall_congr' fun k => ?_
    rw [hafter l hset k, hafter records (fun _ => Iff.rfl) k]
  rw [forall₂_congr hsame, hmain]
  refine forall_congr' fun k => ?_
  simp only [view, Option.map_eq_none_iff, recordState_live]
  rfl

/-! ## §4. A deletion that comes before its entry -/

namespace Sample

/-- Something copied on a phone. -/
def added : SyncRecord := note [104, 105] 3

/-- Its deletion, a little later. -/
def removed : SyncRecord := { added with deleted := true, lamport := 5, payloads := [] }

/-- It is copied once more after it was deleted. -/
def recopied : SyncRecord := { added with lamport := 7 }

theorem acceptable_all : ∀ r ∈ [added, removed, recopied], Acceptable env r := by
  have hwellFormed : ∀ r ∈ [added, removed, recopied], ¬ malformed env r := by
    decide +kernel
  have hadmitted : ∀ r ∈ [added, removed, recopied], r.deleted = false → admitted env r = true := by
    decide +kernel
  exact fun r hr => ⟨hwellFormed r hr, hadmitted r hr⟩

/-- A deletion that arrives before the entry it deletes is lost, and the entry
    comes back to life; in the other order it stays deleted. -/
theorem deletion_before_its_entry_is_lost :
    (∀ r ∈ [added, removed], Acceptable env r) ∧
      (∀ r ∈ [added, removed], ∀ r' ∈ [added, removed],
        r.key = r'.key → r.stamp = r'.stamp → r = r') ∧
      QuietRun env fresh [added, removed] ∧ QuietRun env fresh [removed, added] ∧
      historyAfter env fresh [added, removed] added.key = none ∧
      historyAfter env fresh [removed, added] added.key = some (recordState added) := by
  refine ⟨?_, by decide +kernel, by decide +kernel⟩
  intro r hr
  rcases mem_pair.mp hr with rfl | rfl
  · exact acceptable_all _ (by simp)
  · exact acceptable_all _ (by simp)

/-- A daemon that has the last copy ignores all that comes after it. -/
theorem quietRun_of_recopied {d : Daemon} (hrow : ∃ r, d.db.entries.find added.key = some r ∧
    ¬ rowStamp r < recopied.stamp) : ∀ l : List SyncRecord, (∀ r ∈ l, r = removed ∨ r = recopied) →
      QuietRun env d l := by
  intro l
  induction l generalizing d with
  | nil => exact fun _ => trivial
  | cons sent rest ih =>
    intro hall
    obtain ⟨hsent, hrest⟩ := forall_mem_cons.mp hall
    obtain ⟨r, hfind, hheld⟩ := hrow
    have hkey : sent.key = added.key := by
      rcases hsent with rfl | rfl <;> rfl
    have hwellFormed : ¬ malformed env sent :=
      (acceptable_all sent (mem_cons_of_mem _ (mem_pair.mpr hsent))).wellFormed
    have hle : sent.stamp ≤ recopied.stamp := by
      rcases hsent with rfl | rfl <;> decide
    rw [← hkey] at hfind
    have hloses : ¬ rowStamp r < sent.stamp := fun hlt => hheld (lt_of_lt_of_le hlt hle)
    refine ⟨?_, ?_⟩
    · simp [gcPoint, hfind, hloses]
    · rw [exec_applyRecord_loses hwellFormed hfind hloses]
      exact ih ⟨r, by rw [entries_observed, ← hkey]; exact hfind, hheld⟩ hrest

/-- The deletion was sent first, and ignored. -/
def warned : Daemon := (exec (applyRecord env removed) fresh).2

/-- Until the copy comes, deletions are ignored. -/
theorem quietRun_pair : ∀ (l : List SyncRecord) (d : Daemon), (d = fresh ∨ d = warned) →
    (∀ r ∈ l, r = removed ∨ r = recopied) → QuietRun env d l := by
  intro l
  induction l with
  | nil => exact fun _ _ _ => trivial
  | cons sent rest ih =>
    intro d hd hall
    obtain ⟨hsent, hrest⟩ := forall_mem_cons.mp hall
    rcases hsent with rfl | rfl
    · have hignored : (exec (applyRecord env removed) warned).2 = warned := by
        decide +kernel
      rcases hd with rfl | rfl
      · exact ⟨by decide +kernel, ih _ (.inr rfl) hrest⟩
      · exact ⟨by decide +kernel, ih _ (.inr hignored) hrest⟩
    · rcases hd with rfl | rfl
      · exact ⟨by decide +kernel, quietRun_of_recopied (by decide +kernel) rest hrest⟩
      · exact ⟨by decide +kernel, quietRun_of_recopied (by decide +kernel) rest hrest⟩

/-- A deletion and a later copy converge in either order, and if they are repeated. -/
theorem sync_converges_copied_again :
    historyAfter env fresh [removed, recopied, removed] = historyAfter env fresh [recopied, removed] := by
  have hboth : ∀ r ∈ [recopied, removed], r = recopied ∨ r = removed := fun r hr => mem_pair.mp hr
  refine (sync_converges_iff env fresh [recopied, removed] ?_ (by decide +kernel) ?_).mpr ?_ _ ?_
  · exact fun r hr => acceptable_all r (mem_cons_of_mem _ (mem_pair.mpr (hboth r hr).symm))
  · intro l hl
    exact quietRun_pair l fresh (.inl rfl) fun r hr => (hboth r ((hl r).mp hr)).symm
  · rintro k - ⟨r, hr, hkey, hlive⟩
    rcases hboth r hr with rfl | rfl
    · refine ⟨recopied, hr, hkey, hlive, fun r' hr' _ => ?_⟩
      rcases hboth r' hr' with rfl | rfl <;> decide
    · cases hlive
  · intro r
    simp only [mem_cons, not_mem_nil, or_false]
    tauto

end Sample

end Panora.Panod
