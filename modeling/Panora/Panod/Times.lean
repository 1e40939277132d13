/-
  Panora.Panod.Times — the times of entries two devices sync.

  A record's times are merged into the row of the device that takes the record: the earliest
  creation and the latest sighting.  The device the record comes from keeps its own times:
  what it gets back has its own stamp, and a state never beats itself.

  Main results:
    * `phase_record`, `phase_run` — of each entry at most one device takes the other's state,
      once, and the other device's row stays as it was;
    * `times_agree_iff` — the times agree exactly when, of each entry live on both, they were
      the same or the device with the newer state had the earliest creation and the latest
      sighting already.
-/
import Panora.Panod.Quiesce
import Panora.Panod.Reader

namespace Panora.Panod

open Storage Lib Lib.Table Function Option Bool Prod
open Storage.Database (Numbered SameRow)

/-! ## §1. Two devices -/

/-- Two devices that sync: what each runs with, and what each shares. -/
structure Peers where
  envs : Bool → Env
  scopes : Bool → SyncScope

namespace Peers

/-- A page of one device's feed is read and applied at the other. -/
def transfer (x : Peers) (turn : Bool × Int × Nat) : Transfer Bool where
  source := turn.1
  target := !turn.1
  reader := x.envs turn.1
  applier := x.envs (!turn.1)
  since := turn.2.1
  limit := turn.2.2
  scope := x.scopes turn.1

/-- The devices after `n` pages. -/
def after (x : Peers) (net : Bool → Daemon) (turns : Nat → Bool × Int × Nat) (n : Nat) :
    Bool → Daemon :=
  netAt net (fun m => x.transfer (turns m)) n

/-- The complete feed of a device. -/
def feed (x : Peers) (net : Bool → Daemon) (i : Bool) : List SyncRecord :=
  ((net i).db.entries.rows.filter shown).filterMap (offered (x.envs i) (net i) (x.scopes i))

/-- Neither feed has anything new: of no record is there more to apply. -/
def Settled (x : Peers) (net : Bool → Daemon) : Prop :=
  ∀ i, ∀ record ∈ x.feed net i,
    (Op.exec (applyRecord (x.envs (!i)) record) (net (!i))).1 ≠ .ok .yes

instance (x : Peers) (net : Bool → Daemon) : Decidable (x.Settled net) :=
  inferInstanceAs (Decidable (∀ i, ∀ record ∈ x.feed net i, _ ≠ _))

/-- The clocks are within the allowed skew: each device takes the other's times as they are. -/
def WithinSkew (x : Peers) (net : Bool → Daemon) : Prop :=
  ∀ i, ∀ r ∈ (net i).db.entries.rows, 0 ≤ r.cols.createdAt ∧
    r.cols.createdAt ≤ r.cols.lastSeenAt ∧ r.cols.lastSeenAt ≤ (x.envs (!i)).now + syncClockSkew

instance (x : Peers) (net : Bool → Daemon) : Decidable (x.WithinSkew net) :=
  inferInstanceAs (Decidable (∀ i, ∀ r ∈ (net i).db.entries.rows, _))

/-- The feed of device `i` has a record of this row that the other device does not reject. -/
def Carries (x : Peers) (net : Bool → Daemon) (i : Bool) (r : EntryRow) : Prop :=
  shown r = true ∧ ∃ record, offered (x.envs i) (net i) (x.scopes i) r = some record ∧
    ¬ malformed (x.envs (!i)) record

end Peers

/-- Change numbers in order and blobs that can be read, on both devices. -/
def Healthy (net : Bool → Daemon) : Prop := ∀ i, Numbered (net i).db ∧ Intact (net i)

section Entry

variable {x : Peers} {net0 net : Bool → Daemon} {k : EntryKey} {i : Bool}

variable {d' : Daemon} {r rs : EntryRow} {payloads : List MimePayload} {record : SyncRecord}

theorem mem_feed : record ∈ x.feed net i ↔ ∃ r ∈ (net i).db.entries.rows, shown r = true ∧
      offered (x.envs i) (net i) (x.scopes i) r = some record := by
  unfold Peers.feed
  rw [List.mem_filterMap]
  constructor
  · rintro ⟨r, hr, hoffered⟩
    exact ⟨r, (List.mem_filter.mp hr).1, (List.mem_filter.mp hr).2, hoffered⟩
  · rintro ⟨r, hr, hshown, hoffered⟩
    exact ⟨r, List.mem_filter.mpr ⟨hr, hshown⟩, hoffered⟩

/-- What a page carries is in the feed. -/
theorem mem_feed_of_page {turn : Bool × Int × Nat}
    (h : record ∈ (x.transfer turn).page net) : record ∈ x.feed net turn.1 := by
  unfold Transfer.page at h
  split at h
  next records next more hpage =>
    obtain ⟨r, hr, hshown, hmade⟩ := mem_syncChanges hpage h
    refine mem_feed.mpr ⟨r, hr, hshown, ?_⟩
    unfold offered
    rw [show recordOf (x.envs turn.1) (net turn.1) (x.scopes turn.1) r = .ok (some record)
      from hmade]
  next => cases h

/-! ## §2. One entry -/

/-- A device whose row of the entry, and what its feed makes of it, is as it was. -/
structure Still (k : EntryKey) (d0 d : Daemon) : Prop where
  row : d.db.entries.find k = d0.db.entries.find k
  payloads : ∀ r, d0.db.entries.find k = some r → payloadsOf d r = payloadsOf d0 r

/-- Device `i` took over the other's row `r0` of the entry, as `r`. -/
structure TookOver (x : Peers) (net0 : Bool → Daemon) (k : EntryKey) (i : Bool) (d : Daemon)
    (r0 r : EntryRow) : Prop where
  source : (net0 (!i)).db.entries.find k = some r0
  carried : x.Carries net0 (!i) r0
  newer : ∀ old, (net0 i).db.entries.find k = some old → rowStamp old < rowStamp r0
  row : d.db.entries.find k = some r
  stamp : rowStamp r = rowStamp r0
  deleted : r.cols.deleted = r0.cols.deleted
  times : r0.cols.deleted = false →
    Panod.times r = mergedTimes (Panod.times r0) (((net0 i).db.entries.find k).bind ifLive)

/-- How far the exchange of an entry has come: nothing happened to it, or one device took over
    the other's row. -/
def Phase (x : Peers) (net0 : Bool → Daemon) (k : EntryKey) (net : Bool → Daemon) : Prop :=
  (∀ i, Still k (net0 i) (net i)) ∨
    ∃ i r0 r, TookOver x net0 k i (net i) r0 r ∧ Still k (net0 (!i)) (net (!i))

theorem Still.refl (k : EntryKey) (d : Daemon) : Still k d d := ⟨rfl, fun _ _ => rfl⟩

variable {d : Daemon}

theorem Still.trans {d0 d' : Daemon} (h : Still k d0 d) (h' : Still k d d') : Still k d0 d' where
  row := h'.row.trans h.row
  payloads r hr := (h'.payloads r (h.row.trans hr)).trans (h.payloads r hr)

/-- A row that was not written is offered as it was. -/
theorem still_of_find {d' : Daemon} (h : Advanced (fun _ => False) d d')
    (hnum : Numbered d.db) (hint : Intact d)
    (hfind : d'.db.entries.find k = d.db.entries.find k) : Still k d d' where
  row := hfind
  payloads := by
    intro r hr
    obtain ⟨hmem, hkey⟩ := find_eq_some.mp hr
    have hr' : r ∈ d'.db.entries.rows := (find_eq_some.mp (hfind.trans hr)).1
    obtain ⟨r1, hr1, hsame, hpayloads⟩ := h.offered_kept hint hr' (hnum.le r hmem)
    -- the row it was is the row of the same key
    have hr1find : d.db.entries.find k = some r1 :=
      find_eq_some.mpr ⟨hr1, hsame.key.symm.trans hkey⟩
    rw [hr] at hr1find
    cases hr1find
    exact hpayloads

/-- What a device offers of a row that is as it was is what it offered. -/
theorem Still.offered {d0 : Daemon} (h : Still k d0 d) (env : Env) (scope : SyncScope)
    (hr : d0.db.entries.find k = some r) :
    Panod.offered env d scope r = Panod.offered env d0 scope r := by
  unfold Panod.offered recordOf
  rw [h.payloads r hr]

theorem Peers.Carries.of_still (hstill : Still k (net0 i) (net i))
    (hr : (net0 i).db.entries.find k = some r) : x.Carries net i r ↔ x.Carries net0 i r := by
  unfold Peers.Carries
  rw [hstill.offered (x.envs i) (x.scopes i) hr]

/-- Times within the skew are taken as they are. -/
theorem clampTimes_of_reach {env : Env}
    (h : 0 ≤ r.cols.createdAt ∧ r.cols.createdAt ≤ r.cols.lastSeenAt ∧
      r.cols.lastSeenAt ≤ env.now + syncClockSkew) :
    recordTimes (clampTimes env (recordWith r payloads)) = times r := by
  obtain ⟨hpos, hle, hnow⟩ := h
  have hcreated : clamp r.cols.createdAt 0 (env.now + syncClockSkew) = r.cols.createdAt := by
    unfold clamp
    rw [if_neg (by omega), if_neg (by omega)]
  have hseen : clamp r.cols.lastSeenAt r.cols.createdAt (env.now + syncClockSkew)
      = r.cols.lastSeenAt := by
    unfold clamp
    rw [if_neg (by omega), if_neg (by omega)]
  show (clamp r.cols.createdAt 0 (env.now + syncClockSkew),
    clamp r.cols.lastSeenAt (clamp r.cols.createdAt 0 (env.now + syncClockSkew))
      (env.now + syncClockSkew)) = _
  rw [hcreated, hseen]
  rfl

/-! ## §3. One record -/

theorem Healthy.update (h : Healthy net) (hadv : Advanced (fun _ => False) (net i) d') :
    Healthy (update net i d') := by
  intro j
  by_cases hj : j = i
  · subst hj
    rw [update_self]
    exact ⟨hadv.numbered (h j).1, hadv.intact (h j).2⟩
  · rw [update_of_ne hj]
    exact h j

/-- Nothing that leaves the row of the entry alone changes how far its exchange has come. -/
theorem Phase.of_still (h : Phase x net0 k net) (hstill : Still k (net i) d') :
    Phase x net0 k (update net i d') := by
  rcases h with hall | ⟨j, r0, r, htook, hsource⟩
  · left
    intro j
    by_cases hj : j = i
    · subst hj
      rw [update_self]
      exact (hall j).trans hstill
    · rw [update_of_ne hj]
      exact hall j
  · right
    refine ⟨j, r0, r, ?_, ?_⟩
    · by_cases hj : j = i
      · subst hj
        rw [update_self]
        exact { htook with row := hstill.row.trans htook.row }
      · rw [update_of_ne hj]
        exact htook
    · by_cases hj : (!j) = i
      · rw [hj] at hsource ⊢
        rw [update_self]
        exact hsource.trans hstill
      · rw [update_of_ne hj]
        exact hsource

/-- Where a device is still to take the other's row, nothing has happened to the entry: a
    second time its stamp would have to beat itself. -/
theorem Phase.all_still (h : Phase x net0 k net) (hfind : (net (!i)).db.entries.find k = some rs)
    (hnewer : ∀ old, (net i).db.entries.find k = some old → rowStamp old < rowStamp rs) :
    ∀ j, Still k (net0 j) (net j) := by
  rcases h with hall | ⟨j, r0, r, htook, hsource⟩
  · exact hall
  exfalso
  by_cases hj : j = i
  · subst hj
    have hsame := hsource.row.trans htook.source
    rw [hfind] at hsame
    cases hsame
    have hlt := hnewer r htook.row
    rw [htook.stamp] at hlt
    exact lt_irrefl _ hlt
  · have hj' : j = !i := eq_not.mpr hj
    subst hj'
    have hsrc := htook.source
    rw [Bool.not_not] at hsource hsrc
    have hlt := hnewer r0 (hsource.row.trans hsrc)
    have hrow := htook.row
    rw [hfind] at hrow
    cases hrow
    rw [htook.stamp] at hlt
    exact lt_irrefl _ hlt

theorem deleted_of_state
    (h : rowState r = recordState (recordWith rs payloads)) : r.cols.deleted = rs.cols.deleted := by
  have hpin := congrArg EntryState.live h
  have hrow : ∀ r : EntryRow, (rowState r).live = !r.cols.deleted := by
    intro r
    unfold EntryState.live rowState
    cases r.cols.deleted <;> rfl
  have hrecord : (recordState (recordWith rs payloads)).live = !rs.cols.deleted := hrow rs
  rw [hrow, hrecord] at hpin
  exact not_inj hpin

/-- A record that is applied is the other's row taken over. -/
theorem tookOver_of_takes (hskew : x.WithinSkew net0) (hall : ∀ j, Still rs.key (net0 j) (net j))
    (hrs : rs ∈ (net (!i)).db.entries.rows) (hshown : shown rs = true)
    (hoffered : offered (x.envs (!i)) (net (!i)) (x.scopes (!i)) rs = some (recordWith rs payloads))
    (htakes : Takes (x.envs i) (recordWith rs payloads) (net i) d' r) :
    TookOver x net0 rs.key i d' rs r := by
  have hfind0 : (net0 (!i)).db.entries.find rs.key = some rs :=
    (hall (!i)).row.symm.trans (find_eq_some.mpr ⟨hrs, rfl⟩)
  refine ⟨hfind0, ⟨hshown, recordWith rs payloads, ?_, ?_⟩, ?_, htakes.wrote.row,
    congrArg EntryState.stamp htakes.state, deleted_of_state htakes.state, ?_⟩
  · rw [← (hall (!i)).offered _ _ hfind0]
    exact hoffered
  · rw [Bool.not_not]
    exact htakes.wellFormed
  · intro old hold
    exact htakes.newer old ((hall i).row.trans hold)
  · intro hlive
    have hreach := hskew (!i) rs (find_eq_some.mp hfind0).1
    rw [Bool.not_not] at hreach
    rw [← (hall i).row, htakes.times hlive, clampTimes_of_reach hreach]
    rfl

/-- **What one record does to the exchange of an entry.** -/
theorem phase_record (hskew : x.WithinSkew net0) (hphase : Phase x net0 k net)
    (hhealthy : Healthy net) {sent : SyncRecord} (hsent : sent ∈ x.feed net (!i))
    (hidle : IdleAt (x.envs i) (net i) sent) :
    ∃ became d', Op.exec (applyRecord (x.envs i) sent) (net i) = (.ok became, d') ∧
      Phase x net0 k (update net i d') ∧ Healthy (update net i d') := by
  obtain ⟨became, d', hrun, hbecame⟩ := exec_applyRecord_idle hidle
  have hadv : Advanced (fun _ => False) (net i) d' := by
    have hstep : Advanced (fun _ => False) (net i)
        (Op.exec (applyRecord (x.envs i) sent) (net i)).2 :=
      advances_applyRecord (x.envs i) sent (net i)
    rwa [hrun] at hstep
  refine ⟨became, d', hrun, ?_, hhealthy.update hadv⟩
  by_cases hsame : d'.db.entries.find k = (net i).db.entries.find k
  · exact hphase.of_still (still_of_find hadv (hhealthy i).1 (hhealthy i).2 hsame)
  · -- the row of the entry was written: the record is about it and was applied
    cases became with
    | ignored => exact absurd (by rw [show d'.db.entries = _ from hbecame]) hsame
    | rejected => exact absurd (by rw [show d'.db.entries = _ from hbecame]) hsame
    | yes =>
      obtain ⟨r, htakes⟩ := hbecame
      have hkey : sent.key = k := by
        by_contra hne
        exact hsame (htakes.wrote.others k (Ne.symm hne))
      obtain ⟨rs, hrs, hshown, hoffered⟩ := mem_feed.mp hsent
      obtain ⟨payloads, -, -, rfl⟩ := (offered_eq_some.mp hoffered).2
      have hrskey : rs.key = k := hkey
      subst hrskey
      have hall := hphase.all_still (find_eq_some.mpr ⟨hrs, rfl⟩) htakes.newer
      refine .inr ⟨i, rs, r, ?_, ?_⟩
      · rw [update_self]
        exact tookOver_of_takes hskew hall hrs hshown hoffered htakes
      · rw [update_of_ne (by cases i <;> decide)]
        exact hall (!i)

/-! ## §4. A page, and every schedule -/

/-- **A page.** -/
theorem phase_page (hskew : x.WithinSkew net0) (records : List SyncRecord) :
    ∀ {net : Bool → Daemon} (t : Tally), Phase x net0 k net → Healthy net →
      (∀ sent ∈ records, sent ∈ x.feed net (!i)) → IdleRun (x.envs i) (net i) records →
      ∃ t' d', Op.exec (records.foldlM (applyNext (x.envs i)) t) (net i) = (.ok t', d') ∧
        Phase x net0 k (update net i d') ∧ Healthy (update net i d') := by
  induction records with
  | nil =>
    intro net t hphase hhealthy _ _
    refine ⟨t, net i, rfl, ?_, ?_⟩
    · rwa [update_eq_self]
    · rwa [update_eq_self]
  | cons sent rest ih =>
    intro net t hphase hhealthy hfeed hidle
    obtain ⟨hsent, hrest⟩ := List.forall_mem_cons.mp hfeed
    obtain ⟨became, d1, hrun, hphase1, hhealthy1⟩ :=
      phase_record hskew hphase hhealthy hsent hidle.1
    -- the device the page comes from is as it was
    have hsource : update net i d1 (!i) = net (!i) :=
      update_of_ne (by cases i <;> decide) _ _
    have hrest1 : ∀ sent ∈ rest, sent ∈ x.feed (update net i d1) (!i) := by
      intro record hrecord
      unfold Peers.feed
      rw [hsource]
      exact hrest record hrecord
    have hidle1 : IdleRun (x.envs i) (update net i d1 i) rest := by
      have hlater := hidle.2
      rw [update_self]
      rwa [hrun] at hlater
    obtain ⟨t', d', hrun', hphase', hhealthy'⟩ :=
      ih (t.count became) hphase1 hhealthy1 hrest1 hidle1
    rw [update_self] at hrun'
    rw [update_idem] at hphase' hhealthy'
    have hnext : Op.exec (applyNext (x.envs i) t sent) (net i) = (.ok (t.count became), d1) := by
      unfold applyNext
      rw [Op.exec_bind_ok hrun]
      rfl
    refine ⟨t', d', ?_, hphase', hhealthy'⟩
    rw [List.foldlM_cons, Op.exec_bind_ok hnext]
    exact hrun'

/-- **Every schedule.** -/
theorem phase_run (hskew : x.WithinSkew net0) (hhealthy : Healthy net0)
    (turns : Nat → Bool × Int × Nat) (k : EntryKey) : ∀ n,
    (∀ m, m < n → (x.transfer (turns m)).Idle (x.after net0 turns m)) →
      Phase x net0 k (x.after net0 turns n) ∧ Healthy (x.after net0 turns n) := by
  intro n
  induction n with
  | zero => exact fun _ => ⟨.inl fun i => Still.refl k (net0 i), hhealthy⟩
  | succ n ih =>
    intro hidle
    obtain ⟨hphase, hhealthy1⟩ := ih fun m hm => hidle m (Nat.lt_succ_of_lt hm)
    obtain ⟨t', d', hrun, hphase', hhealthy'⟩ :=
      phase_page (i := !(turns n).1) hskew
        ((x.transfer (turns n)).page (x.after net0 turns n)) ⟨0, 0, 0⟩ hphase hhealthy1
        (by
          intro sent hsent
          rw [Bool.not_not]
          exact mem_feed_of_page hsent)
        (hidle n (Nat.lt_succ_self n))
    have hstep : x.after net0 turns (n + 1)
        = update (x.after net0 turns n) (!(turns n).1) d' := by
      show update (x.after net0 turns n) (!(turns n).1)
        ((x.transfer (turns n)).outcome (x.after net0 turns n)).2 = _
      rw [show (x.transfer (turns n)).outcome (x.after net0 turns n) = (.ok t', d') from hrun]
    rw [hstep]
    exact ⟨hphase', hhealthy'⟩

end Entry

/-! ## §5. Agreement -/

/-- What the devices that have the entry say of it. -/
def saidOf (read : EntryRow → Int) (net : Bool → Daemon) (k : EntryKey) : Set Int :=
  {t | ∃ i r, (net i).db.entries.find k = some r ∧ r.cols.deleted = false ∧ read r = t}

/-- When they say it was created. -/
def createdOn : (Bool → Daemon) → EntryKey → Set Int := saidOf (fun r => r.cols.createdAt)

/-- When they last saw it. -/
def seenOn : (Bool → Daemon) → EntryKey → Set Int := saidOf (fun r => r.cols.lastSeenAt)

/-- If the entry is live on both devices, its times are the same on both: the earliest
    creation and the latest sighting of those there were before. -/
def TimesAgree (before net : Bool → Daemon) (k : EntryKey) : Prop :=
  ∀ r : Bool → EntryRow, (∀ i, (net i).db.entries.find k = some (r i)) →
    (∀ i, (r i).cols.deleted = false) → times (r true) = times (r false) ∧
      ∀ i, IsLeast (createdOn before k) (r i).cols.createdAt ∧
        IsGreatest (seenOn before k) (r i).cols.lastSeenAt

/-- The row `newer` of device `i` is in its feed, its state is the newer one, and it has the
    earliest creation and the latest sighting. -/
structure Outdoes (x : Peers) (net : Bool → Daemon) (i : Bool) (newer older : EntryRow) :
    Prop where
  carried : x.Carries net i newer
  stamp : rowStamp older < rowStamp newer
  created : newer.cols.createdAt ≤ older.cols.createdAt
  seen : older.cols.lastSeenAt ≤ newer.cols.lastSeenAt

section Agreement

variable {x : Peers} {net0 net : Bool → Daemon} {k : EntryKey} {i : Bool}

/-- One row for device `i`, another for the other device. -/
def pick (i : Bool) (r r0 : EntryRow) (j : Bool) : EntryRow := if j = i then r else r0

theorem pick_self (i : Bool) (r r0 : EntryRow) : pick i r r0 i = r := if_pos rfl

theorem pick_not (i : Bool) (r r0 : EntryRow) : pick i r r0 (!i) = r0 :=
  if_neg (not_ne_self i)

variable {r r0 : EntryRow}

theorem forall_pick {P : Bool → EntryRow → Prop} (h : P i r)
    (h0 : P (!i) r0) : ∀ j, P j (pick i r r0 j) := by
  intro j
  by_cases hj : j = i
  · subst hj
    rw [pick_self]
    exact h
  · rw [eq_not.mpr hj, pick_not]
    exact h0

/-- A newer state of an entry that is live on both is applied. -/
theorem not_settled_of_newer {rs : EntryRow} (hcarried : x.Carries net i rs)
    (hrs : (net i).db.entries.find k = some rs) (hlive : rs.cols.deleted = false)
    (hr : (net (!i)).db.entries.find k = some r) (hrlive : r.cols.deleted = false)
    (hstamp : rowStamp r < rowStamp rs) : ¬ x.Settled net := by
  intro hsettled
  obtain ⟨hmem, rfl⟩ := find_eq_some.mp hrs
  obtain ⟨hshown, record, hoffered, hwf⟩ := hcarried
  refine hsettled i record (mem_feed.mpr ⟨rs, hmem, hshown, hoffered⟩) ?_
  obtain ⟨payloads, -, -, rfl⟩ := (offered_eq_some.mp hoffered).2
  have hfind : (net (!i)).db.find (net (!i)).dbCipher (recordWith rs payloads).key
      = some (Database.rowToEntry (net (!i)).dbCipher r) := by
    rw [Database.find, show (recordWith rs payloads).key = rs.key from rfl, hr]
    rfl
  rw [exec_applyRecord hwf, hfind,
    if_neg (fun hloses => (loses_row (clampTimes (x.envs (!i)) (recordWith rs payloads))).mp
      hloses hstamp)]
  obtain ⟨d', hrun, -⟩ := exec_applyWinning_live (x.envs (!i))
    (clampTimes (x.envs (!i)) (recordWith rs payloads)) hlive
    (d := observed (clampTimes (x.envs (!i)) (recordWith rs payloads)) (net (!i)))
    (by rw [entries_observed]; exact hr) hrlive
  rw [dbCipher_observed] at hrun
  rw [hrun]

theorem ifLive_eq_some {r' : EntryRow} : ifLive r = some r' ↔ r = r' ∧ r.cols.deleted = false := by
  unfold ifLive
  cases r.cols.deleted <;> simp

/-- Of an entry that is live on one device: what this device says, and the other if it is
    live there. -/
theorem mem_saidOf {read : EntryRow → Int} {t : Int}
    (h0 : (net (!i)).db.entries.find k = some r0) (hlive : r0.cols.deleted = false) :
    t ∈ saidOf read net k ↔
      read r0 = t ∨ ∃ r, ((net i).db.entries.find k).bind ifLive = some r ∧ read r = t := by
  constructor
  · rintro ⟨j, r, hr, hrlive, rfl⟩
    by_cases hj : j = i
    · subst hj
      exact .inr ⟨r, by rw [hr]; exact ifLive_eq_some.mpr ⟨rfl, hrlive⟩, rfl⟩
    · rw [eq_not.mpr hj, h0] at hr
      cases hr
      exact .inl rfl
  · rintro (rfl | ⟨r, hr, rfl⟩)
    · exact ⟨!i, r0, h0, hlive, rfl⟩
    · obtain ⟨r', hr', hif⟩ := bind_eq_some_iff.mp hr
      obtain ⟨rfl, hrlive⟩ := ifLive_eq_some.mp hif
      exact ⟨i, r', hr', hrlive, rfl⟩

/-- Times that are no later created and no earlier seen than those of the other row, if it is
    live, are the earliest and the latest. -/
theorem extremes_of_row (h0 : (net (!i)).db.entries.find k = some r0)
    (hlive : r0.cols.deleted = false)
    (hother : ∀ r, ((net i).db.entries.find k).bind ifLive = some r →
      r0.cols.createdAt ≤ r.cols.createdAt ∧ r.cols.lastSeenAt ≤ r0.cols.lastSeenAt) :
    IsLeast (createdOn net k) r0.cols.createdAt ∧
      IsGreatest (seenOn net k) r0.cols.lastSeenAt := by
  refine ⟨⟨(mem_saidOf h0 hlive).mpr (.inl rfl), ?_⟩, (mem_saidOf h0 hlive).mpr (.inl rfl), ?_⟩
  · intro t ht
    rcases (mem_saidOf h0 hlive).mp ht with rfl | ⟨r, hr, rfl⟩
    · exact le_refl _
    · exact (hother r hr).1
  · intro t ht
    rcases (mem_saidOf h0 hlive).mp ht with rfl | ⟨r, hr, rfl⟩
    · exact le_refl _
    · exact (hother r hr).2

/-- Merging leaves times as they are exactly when they are the extremes already. -/
theorem mergedTimes_eq {old : Option EntryRow} :
    mergedTimes (times r0) old = times r0 ↔ ∀ r, old = some r →
      r0.cols.createdAt ≤ r.cols.createdAt ∧ r.cols.lastSeenAt ≤ r0.cols.lastSeenAt := by
  cases old with
  | none => simp [mergedTimes]
  | some r => simp [mergedTimes, times]

/-- Two rows that are live on their devices, one taken over by the other. -/
theorem TookOver.agree_iff (htook : TookOver x net0 k i (net i) r0 r)
    (hsource : Still k (net0 (!i)) (net (!i))) (hlive : r0.cols.deleted = false) :
    TimesAgree net0 net k ↔ ∀ old, ((net0 i).db.entries.find k).bind ifLive = some old →
      r0.cols.createdAt ≤ old.cols.createdAt ∧ old.cols.lastSeenAt ≤ r0.cols.lastSeenAt := by
  rw [← mergedTimes_eq, ← htook.times hlive]
  have hfinal : (net (!i)).db.entries.find k = some r0 := hsource.row.trans htook.source
  constructor
  · intro hagree
    -- the rows there are in the end
    have hrows := hagree (pick i r r0) (forall_pick (P := fun j r => (net j).db.entries.find k = some r) htook.row hfinal)
      (forall_pick (P := fun _ r => r.cols.deleted = false) (htook.deleted.trans hlive) hlive)
    have htimes := hrows.1
    cases i with
    | true => exact htimes
    | false => exact htimes.symm
  · intro htimes rows hrows hrowslive
    have hi : rows i = r := some.inj ((hrows i).symm.trans htook.row)
    have hni : rows (!i) = r0 := some.inj ((hrows (!i)).symm.trans hfinal)
    have hall : ∀ j, Panod.times (rows j) = Panod.times r0 := by
      intro j
      by_cases hj : j = i
      · subst hj
        rw [hi, htimes]
      · rw [eq_not.mpr hj, hni]
    have hext := extremes_of_row htook.source hlive
      (mergedTimes_eq.mp ((htook.times hlive).symm.trans htimes))
    refine ⟨(hall true).trans (hall false).symm, fun j => ?_⟩
    have hcreated : (rows j).cols.createdAt = r0.cols.createdAt := congrArg fst (hall j)
    have hseen : (rows j).cols.lastSeenAt = r0.cols.lastSeenAt := congrArg snd (hall j)
    rw [hcreated, hseen]
    exact hext

/-- Where nothing happened to an entry, its times agree exactly when they did. -/
theorem agree_iff_of_still (hall : ∀ j, Still k (net0 j) (net j)) :
    TimesAgree net0 net k ↔ ∀ r : Bool → EntryRow,
      (∀ j, (net0 j).db.entries.find k = some (r j)) → (∀ j, (r j).cols.deleted = false) →
        times (r true) = times (r false) := by
  constructor
  · intro hagree r hr hlive
    exact (hagree r (fun j => (hall j).row.trans (hr j)) hlive).1
  · intro hsame r hr hlive
    have hr0 : ∀ j, (net0 j).db.entries.find k = some (r j) :=
      fun j => (hall j).row.symm.trans (hr j)
    have htimes := hsame r hr0 hlive
    refine ⟨htimes, fun j => ?_⟩
    have hboth : times (r j) = times (r (!j)) := by
      cases j with
      | true => exact htimes
      | false => exact htimes.symm
    have hj : (net0 (!!j)).db.entries.find k = some (r j) := by
      rw [Bool.not_not]
      exact hr0 j
    apply extremes_of_row hj (hlive j)
    intro old hold
    rw [hr0 (!j)] at hold
    obtain ⟨rfl, -⟩ := ifLive_eq_some.mp hold
    have hcreated : (r j).cols.createdAt = (r (!j)).cols.createdAt := congrArg fst hboth
    have hseen : (r j).cols.lastSeenAt = (r (!j)).cols.lastSeenAt := congrArg snd hboth
    exact ⟨le_of_eq hcreated, le_of_eq hseen.symm⟩

end Agreement

/-- **When the times of two synced devices agree.**  Two devices whose clocks are within the
    allowed skew read pages of each other's feeds and apply them, in any order, until neither
    feed has anything new, while retention evicts nothing.  Every entry that is then live on
    both has on both the earliest creation and the latest sighting either had exactly when, of
    each entry that was live on both, the times were the same or the device with the newer
    state had both already. -/
theorem times_agree_iff (x : Peers) (net : Bool → Daemon) (hhealthy : Healthy net)
    (hskew : x.WithinSkew net) (turns : Nat → Bool × Int × Nat) (n : Nat)
    (hidle : ∀ m, m < n → (x.transfer (turns m)).Idle (x.after net turns m))
    (hsettled : x.Settled (x.after net turns n)) :
    (∀ k, TimesAgree net (x.after net turns n) k) ↔
      ∀ k (r : Bool → EntryRow), (∀ i, (net i).db.entries.find k = some (r i)) →
        (∀ i, (r i).cols.deleted = false) →
          times (r true) = times (r false) ∨ ∃ i, Outdoes x net i (r i) (r (!i)) := by
  refine forall_congr' fun k => ?_
  rcases (phase_run hskew hhealthy turns k n hidle).1 with hall | ⟨i, r0, r1, htook, hsource⟩
  · -- nothing happened to the entry, so its newer state was not sent
    rw [agree_iff_of_still hall]
    refine forall_congr' fun r => forall_congr' fun hr => forall_congr' fun hlive => ?_
    constructor
    · exact .inl
    · rintro (hsame | ⟨i, hout⟩)
      · exact hsame
      · have hrow : ∀ j, (x.after net turns n j).db.entries.find k = some (r j) :=
          fun j => (hall j).row.trans (hr j)
        have hcarried := (Peers.Carries.of_still (hall i) (hr i)).mpr hout.carried
        exact absurd hsettled (not_settled_of_newer hcarried (hrow i) (hlive i) (hrow (!i))
          (hlive (!i)) hout.stamp)
  · by_cases hlive0 : r0.cols.deleted = false
    · rw [htook.agree_iff hsource hlive0]
      constructor
      · intro hold r hr hlive
        have hr0 : r (!i) = r0 := some.inj ((hr (!i)).symm.trans htook.source)
        obtain ⟨hcreated, hseen⟩ := hold (r i) (by
          rw [hr i]
          exact ifLive_eq_some.mpr ⟨rfl, hlive i⟩)
        refine .inr ⟨!i, ?_⟩
        rw [Bool.not_not, hr0]
        exact ⟨htook.carried, htook.newer (r i) (hr i), hcreated, hseen⟩
      · intro hcond old hold
        obtain ⟨r, hr, hif⟩ := bind_eq_some_iff.mp hold
        obtain ⟨rfl, hrlive⟩ := ifLive_eq_some.mp hif
        have hnewer := htook.newer r hr
        -- the rows there were at the start
        have hrows := hcond (pick i r r0) 
          (forall_pick (P := fun j r => (net j).db.entries.find k = some r) hr htook.source)
          (forall_pick (P := fun _ r => r.cols.deleted = false) hrlive hlive0)
        rcases hrows with hsame | ⟨j, hout⟩
        · have htimes : times r = times r0 := by
            cases i with
            | true => exact hsame
            | false => exact hsame.symm
          have hcreated : r.cols.createdAt = r0.cols.createdAt := congrArg fst htimes
          have hseen : r.cols.lastSeenAt = r0.cols.lastSeenAt := congrArg snd htimes
          exact ⟨le_of_eq hcreated.symm, le_of_eq hseen⟩
        · by_cases hj : j = i
          · -- the row that was taken over is the newer one
            subst hj
            have hstamp := hout.stamp
            rw [pick_self, pick_not] at hstamp
            exact absurd hstamp (lt_asymm hnewer)
          · have hj' : j = !i := eq_not.mpr hj
            subst hj'
            have hcreated := hout.created
            have hseen := hout.seen
            rw [Bool.not_not, pick_self, pick_not] at hcreated hseen
            exact ⟨hcreated, hseen⟩
    · -- a deletion was taken over: the entry is not live on both, and was not before
      have hdel : r0.cols.deleted = true := by simpa using hlive0
      constructor
      · intro _ r hr hlive
        have hr0 : r (!i) = r0 := some.inj ((hr (!i)).symm.trans htook.source)
        exact absurd (hlive (!i)) (by rw [hr0, hdel]; simp)
      · intro _ r hr hlive
        have hr1 : r i = r1 := some.inj ((hr i).symm.trans htook.row)
        exact absurd (hlive i) (by rw [hr1, htook.deleted, hdel]; simp)

namespace Sample

/-- The same text is copied on two devices, a minute and a half apart. -/
def copiedTwice : Peers where
  envs here := if here then env else { env with deviceId := "there", now := 1699999910 }
  scopes _ := ⟨false, false⟩

/-- Both have it, each with the time of its own copy. -/
def bothCopied (i : Bool) : Daemon :=
  (Op.exec (storeRow (copiedTwice.envs i) (captureOf (note [97] 1))) fresh).2

/-- The devices take turns. -/
def turns (n : Nat) : Bool × Int × Nat := (n % 2 == 0, 0, 32)

theorem copiedTwice_withinSkew : copiedTwice.WithinSkew bothCopied := by decide +kernel

theorem copiedTwice_idle : ∀ m, m < 2 →
    (copiedTwice.transfer (turns m)).Idle (copiedTwice.after bothCopied turns m) := by
  decide +kernel

theorem copiedTwice_settled : copiedTwice.Settled (copiedTwice.after bothCopied turns 2) := by
  decide +kernel

theorem healthy_bothCopied : Healthy bothCopied := by
  intro i
  have hadv : Advanced (fun _ => False) fresh (bothCopied i) :=
    advances_storeRow (copiedTwice.envs i) (captureOf (note [97] 1)) fresh
  exact ⟨hadv.numbered Database.numbered_empty, hadv.intact intact_fresh⟩

/-- The device with the newer state never hears of the later copy. -/
theorem newer_device_keeps_its_times : Healthy bothCopied ∧ copiedTwice.WithinSkew bothCopied ∧
    (∀ m, m < 2 →
      (copiedTwice.transfer (turns m)).Idle (copiedTwice.after bothCopied turns m)) ∧
    copiedTwice.Settled (copiedTwice.after bothCopied turns 2) ∧
    ¬ TimesAgree bothCopied (copiedTwice.after bothCopied turns 2) (note [97] 1).key := by
  refine ⟨healthy_bothCopied, copiedTwice_withinSkew, copiedTwice_idle, copiedTwice_settled, ?_⟩
  have hrows : ∀ i, ((copiedTwice.after bothCopied turns 2 i).db.entries.find
      (note [97] 1).key).map (fun r => (r.cols.deleted, times r))
        = some (false, 1699999910, if i then 1700000000 else 1699999910) := by
    decide +kernel
  intro hagree
  obtain ⟨r, hr, hread⟩ := map_eq_some_iff.mp (hrows true)
  obtain ⟨r', hr', hread'⟩ := map_eq_some_iff.mp (hrows false)
  have hsame := (hagree (fun i => if i then r else r')
    (by
      intro i
      cases i with
      | true => exact hr
      | false => exact hr')
    (by
      intro i
      cases i with
      | true => exact congrArg fst hread
      | false => exact congrArg fst hread')).1
  have htimes : times r = (1699999910, 1700000000) := congrArg snd hread
  have htimes' : times r' = (1699999910, 1699999910) := congrArg snd hread'
  have heq : times r = times r' := hsame
  rw [htimes, htimes'] at heq
  exact absurd heq (by decide)

theorem times_agree_iff_copiedTwice :
    (∀ k, TimesAgree bothCopied (copiedTwice.after bothCopied turns 2) k) ↔
      ∀ k (r : Bool → EntryRow), (∀ i, (bothCopied i).db.entries.find k = some (r i)) →
        (∀ i, (r i).cols.deleted = false) →
          times (r true) = times (r false) ∨ ∃ i, Outdoes copiedTwice bothCopied i (r i) (r (!i)) :=
  times_agree_iff copiedTwice bothCopied healthy_bothCopied copiedTwice_withinSkew turns 2
    copiedTwice_idle copiedTwice_settled

end Sample

end Panora.Panod
