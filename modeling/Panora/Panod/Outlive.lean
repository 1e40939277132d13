/-
  Panora.Panod.Outlive — a record and the retention pass of its own capture.

  A live record of something that is not here is recorded as a capture, and the
  capture runs retention before it reads its row back.  The pass may evict the row
  it has just written and purge it at once; the capture then fails with `notFound`,
  and with it the whole batch.

  Main results:
    * `get_retained_iff` — the row outlives the pass exactly when it fits;
    * `applyAll_ok_iff` — a batch is applied exactly when every record that is
      recorded as a capture fits when its turn comes.
-/
import Panora.Panod.Sample
import Panora.Panod.Sync

namespace Panora.Panod

open Storage Lib Lib.Table Storage.Database List

/-! ## §1. Which rules can evict a row seen just now -/

section Rules

variable {env : Env} {db db' : Database} {k : EntryKey} {r : EntryRow} {ids : List Nat}

/-- A selection that an eviction leaves alone: it has no tombstones and none of
    the evicted rows. -/
theorem Evicted.filter_eq {p : EntryRow → Bool} (h : Evicted db ids db')
    (hdeleted : ∀ r : EntryRow, r.cols.deleted = true → p r = false)
    (hids : ∀ r ∈ db.entries.rows, r.id ∈ ids → p r = false) :
    db'.entries.rows.filter p = db.entries.rows.filter p := by
  obtain ⟨seq, hentries⟩ := h.entries
  rw [hentries]
  show (db.entries.rows.map (setCols (evictedCols ids seq))).filter p = _
  rw [filter_map]
  have hsame : ∀ r ∈ db.entries.rows, r.id ∉ ids →
      setCols (evictedCols ids seq) r = r := by
    intro r _ hid
    rw [setCols, evictedCols, if_neg hid]
  have hfilter : db.entries.rows.filter (p ∘ setCols (evictedCols ids seq))
      = db.entries.rows.filter p := by
    refine filter_congr fun r hr => ?_
    by_cases hid : r.id ∈ ids
    · rw [hids r hr hid]
      refine hdeleted _ ?_
      rw [setCols, evictedCols, if_pos hid]
      rfl
    · rw [Function.comp_apply, hsame r hr hid]
  rw [hfilter, map_congr_left (g := fun r => r), map_id']
  intro r hr
  obtain ⟨hmem, hp⟩ := mem_filter.mp hr
  refine hsame r hmem fun hid => ?_
  rw [hids r hmem hid] at hp
  exact absurd hp (by simp)

/-- The pinned entries are not touched. -/
theorem Evicted.pinnedBytes_eq (h : Evicted db ids db') : db'.pinnedBytes = db.pinnedBytes := by
  have hfilter := h.filter_eq (p := fun r => !r.cols.deleted && r.cols.pinned)
    (fun r hr => by simp [hr]) (by
      intro r hr hid
      obtain ⟨r', hr', heq⟩ := h.evictable r.id hid
      obtain ⟨hmem, -, hpin⟩ := mem_liveUnpinned.mp hr'
      rw [eq_of_id_eq hmem hr heq] at hpin
      simp [hpin])
  unfold pinnedBytes
  rw [hfilter]

/-- Evicting only older rows does not change what stands before a row. -/
theorem Evicted.bytesDownTo_eq (h : Evicted db ids db')
    (holder : ∀ r' ∈ db.entries.rows, r'.id ∈ ids → r'.cols.lastSeenAt < r.cols.lastSeenAt) :
    db'.bytesDownTo r = db.bytesDownTo r := by
  have hfilter := h.filter_eq
    (p := fun r' => decide (Database.newerOrEqual r' r) && Database.evictable r')
    (fun r' hr' => by simp [Database.evictable, hr']) (by
      intro r' hr' hid
      have hlt := holder r' hr' hid
      have hnot : ¬ newerOrEqual r' r := by
        unfold newerOrEqual
        omega
      simp [hnot])
  unfold bytesDownTo liveUnpinned
  rw [filter_filter, filter_filter, hfilter]

/-- A selecting rule evicts the rows it selects. -/
theorem mem_ids_evictRows (select : Database → List EntryRow)
    (h : ∀ db, ∀ r ∈ select db, r ∈ db.liveUnpinned) (hr : r ∈ db.entries.rows) :
    r.id ∈ Rule.ids (fun db => db.evictRows (select db)) db ↔ r ∈ select db := by
  have hrows : ∀ r ∈ select db, r ∈ db.entries.rows :=
    fun r hr => (mem_filter.mp (h db r hr)).1
  obtain ⟨db', seq, hrun, -⟩ := evictRows_ok db _ hrows
  simp only [Rule.ids, hrun, mem_map]
  constructor
  · intro hid
    obtain ⟨r', hr', heq⟩ := hid
    rw [← eq_of_id_eq (hrows r' hr') hr heq]
    exact hr'
  · intro hsel
    exact ⟨r, hsel, rfl⟩

theorem mem_ids_when {rule : Rule} {on : Prop} [Decidable on] {id : Nat} :
    id ∈ (Rule.when on rule).ids db ↔ on ∧ id ∈ rule.ids db := by
  unfold Rule.ids Rule.when
  by_cases hon : on
  · simp [hon]
  · simp [hon]

theorem mem_ids_limitRule (hr : r ∈ db.entries.rows) : r.id ∈ (limitRule env).ids db
    ↔ r ∈ (env.engine.newestFirst db.liveUnpinned).drop env.config.maxEntries :=
  mem_ids_evictRows (fun db =>
      (env.engine.newestFirst db.liveUnpinned).drop env.config.maxEntries)
    (fun db _ hr => (env.engine.perm db.liveUnpinned).mem_iff.mp (mem_of_mem_drop hr)) hr

/-- The age limit evicts only what was last seen before now. -/
theorem older_of_mem_ageRule (hr : r ∈ db.entries.rows) (hid : r.id ∈ (ageRule env).ids db) :
    r.cols.lastSeenAt < env.now := by
  obtain ⟨hon, hid⟩ := mem_ids_when.mp hid
  have hsel := (mem_ids_evictRows (fun db => db.liveUnpinned.filter
      (fun r => r.cols.lastSeenAt < env.now - env.config.maxAgeDays * 86400))
    (fun _ _ hr => (mem_filter.mp hr).1) hr).mp hid
  have hlt := of_decide_eq_true (mem_filter.mp hsel).2
  omega

/-- So does the limit on secrets. -/
theorem older_of_mem_secretRule (hr : r ∈ db.entries.rows)
    (hid : r.id ∈ (secretRule env).ids db) : r.cols.lastSeenAt < env.now := by
  obtain ⟨hon, hid⟩ := mem_ids_when.mp hid
  have hsel := (mem_ids_evictRows (fun db => db.liveUnpinned.filter
      (fun r => r.cols.sensitive && r.cols.lastSeenAt < env.now
        - env.config.sensitiveTtlMinutes * 60))
    (fun _ _ hr => (mem_filter.mp hr).1) hr).mp hid
  have hlt := (Bool.and_eq_true_iff.mp (mem_filter.mp hsel).2).2
  have hlt := of_decide_eq_true hlt
  omega

theorem mem_ids_bytesRule {id : Nat} : id ∈ (bytesRule env).ids db
    ↔ 0 < env.config.maxTotalBytes ∧ id ∈ db.overBudget env.config.maxTotalBytes := by
  obtain ⟨db', hrun, -⟩ := enforceTotalBytes_ok db env.config.maxTotalBytes
  unfold bytesRule
  rw [mem_ids_when]
  simp only [Rule.ids, hrun]

/-! ## §2. When a capture's row outlives its retention pass -/

/-- Among the newest `max_entries`. -/
def withinLimit (env : Env) (db : Database) (r : EntryRow) : Bool :=
  decide (r ∉ (env.engine.newestFirst db.liveUnpinned).drop env.config.maxEntries)

/-- With `pinned` bytes and the rows newer than it, the row is within `max_total_bytes`. -/
def withinBytes (env : Env) (pinned : Nat) (l : List EntryRow) (r : EntryRow) : Bool :=
  decide (0 < env.config.maxTotalBytes → env.config.maxTotalBytes < u64Max →
    pinned + bytes (l.filter (fun r' => newerOrEqual r' r))
      ≤ env.config.maxTotalBytes)

/-- The row is among the newest `max_entries`, and the pinned entries, those of the newest
    `max_entries` that are newer than it and the row itself fit in `max_total_bytes`. -/
@[mk_iff] structure Fits (env : Env) (db : Database) (r : EntryRow) : Prop where
  entries : withinLimit env db r = true
  bytes : withinBytes env db.pinnedBytes (db.liveUnpinned.filter (withinLimit env db)) r = true

/-- An eviction takes its rows out of the live unpinned ones. -/
theorem Evicted.liveUnpinned_eq (h : Evicted db ids db') :
    db'.liveUnpinned = db.liveUnpinned.filter (fun r => r.id ∉ ids) := by
  have hfilter := h.filter_eq (p := fun r => decide (r.id ∉ ids) && Database.evictable r)
    (fun r hr => by simp [Database.evictable, hr]) (fun r _ hid => by simp [hid])
  unfold liveUnpinned
  rw [filter_filter, ← hfilter]
  refine filter_congr fun r hr => ?_
  -- a row that was evicted is a tombstone now
  obtain ⟨seq, hentries⟩ := h.entries
  rw [hentries] at hr
  obtain ⟨r0, -, rfl⟩ := mem_map.mp hr
  by_cases hid : r0.id ∈ ids
  · simp [Table.setCols, Database.evictedCols, Database.evictable, Cols.tombstoned,
      Cols.numbered, hid]
  · simp [setCols, hid]

theorem Rule.Sound.liveUnpinned_run {rule : Rule} (h : rule.Sound) (db : Database) :
    (rule.run db).liveUnpinned = db.liveUnpinned.filter (fun r => r.id ∉ rule.ids db) :=
  (h db).2.liveUnpinned_eq

/-- A rule that says of each live unpinned row whether it stays. -/
theorem Rule.Sound.liveUnpinned_run_eq {rule : Rule} (h : rule.Sound) {keep : EntryRow → Bool}
    (hkeep : ∀ r ∈ db.liveUnpinned, (r.id ∉ rule.ids db ↔ keep r = true)) :
    (rule.run db).liveUnpinned = db.liveUnpinned.filter keep := by
  rw [h.liveUnpinned_run]
  refine filter_congr fun r hr => ?_
  rw [Bool.eq_iff_iff, decide_eq_true_eq]
  exact hkeep r hr

theorem liveUnpinned_limitRule (env : Env) (db : Database) :
    ((limitRule env).run db).liveUnpinned = db.liveUnpinned.filter (withinLimit env db) := by
  refine (sound_limitRule env).liveUnpinned_run_eq fun r hr => ?_
  rw [mem_ids_limitRule (mem_liveUnpinned.mp hr).1]
  exact (decide_eq_true_iff).symm

/-- The byte limit counts what the entry limit leaves. -/
theorem bytes_limitRule (env : Env) (db : Database) (r : EntryRow) :
    ((limitRule env).run db).pinnedBytes + ((limitRule env).run db).bytesDownTo r
      = db.pinnedBytes + bytes ((db.liveUnpinned.filter (withinLimit env db)).filter
        (fun r' => newerOrEqual r' r)) := by
  rw [(sound_limitRule env db).2.pinnedBytes_eq, bytesDownTo, liveUnpinned_limitRule]

/-- The two middle rules leave a row that was seen now, and what stands before it. -/
theorem find_middleRules (env : Env) (hr : db.entries.find k = some r)
    (hseen : r.cols.lastSeenAt = env.now) :
    ((secretRule env).run ((ageRule env).run db)).entries.find k = some r ∧
      ((secretRule env).run ((ageRule env).run db)).pinnedBytes = db.pinnedBytes ∧
      ((secretRule env).run ((ageRule env).run db)).bytesDownTo r = db.bytesDownTo r := by
  have h2 := (sound_ageRule env db).2
  have holder2 : ∀ r' ∈ db.entries.rows, r'.id ∈ (ageRule env).ids db →
      r'.cols.lastSeenAt < r.cols.lastSeenAt := by
    intro r' hr' hid
    have := older_of_mem_ageRule hr' hid
    omega
  have hfind2 := h2.find_of_notMem hr (fun hid => by
    have := holder2 r (find_eq_some.mp hr).1 hid
    omega)
  have h3 := (sound_secretRule env ((ageRule env).run db)).2
  have holder3 : ∀ r' ∈ ((ageRule env).run db).entries.rows,
      r'.id ∈ (secretRule env).ids ((ageRule env).run db) →
        r'.cols.lastSeenAt < r.cols.lastSeenAt := by
    intro r' hr' hid
    have := older_of_mem_secretRule hr' hid
    omega
  refine ⟨h3.find_of_notMem hfind2 (fun hid => ?_), h3.pinnedBytes_eq.trans h2.pinnedBytes_eq,
    (h3.bytesDownTo_eq holder3).trans (h2.bytesDownTo_eq holder2)⟩
  have := holder3 r (find_eq_some.mp hfind2).1 hid
  omega

theorem mem_liveUnpinned_of_find (hr : db.entries.find k = some r)
    (hlive : r.cols.deleted = false) (hpin : r.cols.pinned = false) : r ∈ db.liveUnpinned :=
  mem_liveUnpinned.mpr ⟨(find_eq_some.mp hr).1, hlive, hpin⟩

/-- Whether the byte limit evicts a row is decided after the entry limit. -/
theorem mem_ids_bytesRule_iff (hr : db.entries.find k = some r) (hlive : r.cols.deleted = false)
    (hpin : r.cols.pinned = false) (hseen : r.cols.lastSeenAt = env.now) :
    r.id ∈ (bytesRule env).ids ((secretRule env).run ((ageRule env).run db))
      ↔ 0 < env.config.maxTotalBytes ∧ env.config.maxTotalBytes < u64Max ∧
        env.config.maxTotalBytes < db.pinnedBytes + db.bytesDownTo r := by
  obtain ⟨hfind, hpinned, hdown⟩ := find_middleRules env hr hseen
  rw [mem_ids_bytesRule,
    mem_overBudget_iff (mem_liveUnpinned_of_find hfind hlive hpin), hpinned, hdown]

/-- **A row that was seen now and fits is left by the rules.** -/
theorem find_afterRules_of_fits (hr : db.entries.find k = some r)
    (hlive : r.cols.deleted = false) (hpin : r.cols.pinned = false)
    (hseen : r.cols.lastSeenAt = env.now) (hfits : Fits env db r) :
    (afterRules env db).entries.find k = some r := by
  have hmem := (find_eq_some.mp hr).1
  have hfind1 := (sound_limitRule env db).2.find_of_notMem hr
    (fun hid => of_decide_eq_true hfits.entries ((mem_ids_limitRule hmem).mp hid))
  have hfind3 := (find_middleRules env hfind1 hseen).1
  refine (sound_bytesRule env _).2.find_of_notMem hfind3 (fun hid => ?_)
  obtain ⟨hon, hmax, hover⟩ := (mem_ids_bytesRule_iff hfind1 hlive hpin hseen).mp hid
  have := of_decide_eq_true hfits.bytes hon hmax
  rw [bytes_limitRule] at hover
  omega

/-- **One that does not fit is evicted.** -/
theorem find_afterRules_of_not_fits (hr : db.entries.find k = some r)
    (hlive : r.cols.deleted = false) (hpin : r.cols.pinned = false)
    (hseen : r.cols.lastSeenAt = env.now) (hfits : ¬ Fits env db r) :
    ∃ n, (afterRules env db).entries.find k
      = some { r with cols := (r.cols.tombstoned 0).numbered n } := by
  have hmem := (find_eq_some.mp hr).1
  by_cases hlimit : r.id ∈ (limitRule env).ids db
  · -- evicted by the entry limit: the other rules leave the tombstone as it is
    obtain ⟨n, hfind1⟩ := (sound_limitRule env db).2.find_of_mem hr hlimit
    refine ⟨n, ?_⟩
    have hfind2 := (sound_ageRule env).find_run hfind1 (Or.inl rfl)
    have hfind3 := (sound_secretRule env).find_run hfind2 (Or.inl rfl)
    exact (sound_bytesRule env).find_run hfind3 (Or.inl rfl)
  · have hfind1 := (sound_limitRule env db).2.find_of_notMem hr hlimit
    have hfind3 := (find_middleRules env hfind1 hseen).1
    refine (sound_bytesRule env _).2.find_of_mem hfind3 ?_
    rw [mem_ids_bytesRule_iff hfind1 hlive hpin hseen]
    by_contra hnot
    rw [bytes_limitRule] at hnot
    refine hfits ⟨decide_eq_true fun hdrop => hlimit ((mem_ids_limitRule hmem).mpr hdrop),
      decide_eq_true fun hon hmax => ?_⟩
    by_contra hover
    exact hnot ⟨hon, hmax, by omega⟩

end Rules

section Captures

variable {env : Env} {d : Daemon} {data : ClipboardData} {sent : SyncRecord}

/-! Of what a capture leaves, retention reads the rows alone. -/

theorem liveUnpinned_captureState (env : Env) (data : ClipboardData) (d : Daemon) :
    (captureState env data d).db.liveUnpinned = (capturedDb env data d).liveUnpinned := by
  unfold liveUnpinned
  rw [entries_captureState]

theorem pinnedBytes_captureState (env : Env) (data : ClipboardData) (d : Daemon) :
    (captureState env data d).db.pinnedBytes = (capturedDb env data d).pinnedBytes := by
  unfold pinnedBytes
  rw [entries_captureState]

theorem withinLimit_captureState (env : Env) (data : ClipboardData) (d : Daemon) :
    withinLimit env (captureState env data d).db = withinLimit env (capturedDb env data d) := by
  funext r
  unfold withinLimit
  rw [liveUnpinned_captureState]

theorem fits_captureState (env : Env) (data : ClipboardData) (d : Daemon) (r : EntryRow) :
    Fits env (captureState env data d).db r ↔ Fits env (capturedDb env data d) r := by
  rw [fits_iff, fits_iff, withinLimit_captureState, liveUnpinned_captureState,
    pinnedBytes_captureState]

/-- **The row of new content outlives its own capture** exactly when it fits, or
    the clock is so early that evictions are not purged. -/
theorem get_retained_iff (env : Env) (d : Daemon) (data : ClipboardData)
    (hnew : ∀ r, d.db.entries.find (keyOf env data) = some r → r.cols.deleted = true) :
    (∃ r, (retained env data d).db.entries.get (capturedRow env data d).id = some r)
      ↔ Fits env (capturedDb env data d) (capturedRow env data d) ∨ purgeCutoff env ≤ 0 := by
  rw [← fits_captureState]
  obtain ⟨hpin, hseen⟩ := capturedRow_fresh hnew
  have hlive := capturedRow_deleted env data d
  obtain ⟨hwrote, -, -⟩ := exec_store env data d
  obtain ⟨d', hgc, hentries, -⟩ := exec_collectGarbage env (captureState env data d)
  have hget : (retained env data d).db.entries.get (capturedRow env data d).id
      = ((afterRules env (captureState env data d).db).entries.get
        (capturedRow env data d).id).filter (fun r => !purgeable env r) := by
    unfold retained
    rw [hgc, hentries, get_keepOnly]
  by_cases hfits : Fits env (captureState env data d).db (capturedRow env data d)
  · have hrow := get_of_find (find_afterRules_of_fits hwrote.row hlive hpin hseen hfits)
    rw [hget, hrow]
    simp [Option.filter, purgeable, hlive, hfits]
  · obtain ⟨n, hrow⟩ := find_afterRules_of_not_fits hwrote.row hlive hpin hseen hfits
    have hrow := get_of_find hrow
    rw [hget, hrow]
    -- an eviction has deletion time 0, so it is purged when the cutoff is past that
    by_cases hcut : 0 < purgeCutoff env
    · have hlate : ¬ purgeCutoff env ≤ 0 := by omega
      simp [Option.filter, purgeable, hfits, Cols.tombstoned, Cols.numbered, hcut, hlate]
    · have hearly : purgeCutoff env ≤ 0 := by omega
      simp [Option.filter, purgeable, hfits, Cols.tombstoned, Cols.numbered, hcut, hearly]

/-! ## §3. When a batch is applied -/

/-- The record is recorded as a capture: it may be sent, is live, passes the gate,
    and is newer than a deletion here, if there is a row at all. -/
structure Recorded (env : Env) (sent : SyncRecord) (d : Daemon) : Prop where
  wellFormed : ¬ malformed env sent
  live : sent.deleted = false
  admitted : admitted env sent = true
  newer : ∀ r, d.db.entries.find sent.key = some r →
    r.cols.deleted = true ∧ rowStamp r < sent.stamp

/-- The record's row outlives the retention pass of its capture: with the row in its place
    in the history before, it fits. -/
def Outlives (env : Env) (sent : SyncRecord) (d : Daemon) : Prop :=
  let d1 := observed (clampTimes env sent) d
  let data := captureOf (clampTimes env sent)
  Fits env (capturedDb env data d1) (capturedRow env data d1) ∨ purgeCutoff env ≤ 0

/-- The operation succeeds. -/
def Succeeds {α : Type} (x : Request α) (d : Daemon) : Prop := ∃ a d', Op.exec x d = (.ok a, d')

theorem exec_applyRecord_recorded (h : Recorded env sent d) :
    Op.exec (applyRecord env sent) d
      = Op.exec (applyNew env (clampTimes env sent)) (observed (clampTimes env sent) d) := by
  cases applyRecord_fate h.wellFormed d with
  | recorded _ _ run => exact run
  | older r here notNewer _ => exact absurd (h.newer r here).2 notNewer
  | merged r _ _ here _ _ rowLive _ _ => exact absurd (h.newer r here).1 (by simp [rowLive])
  | unknown _ deletion _ => exact absurd deletion (by simp [h.live])
  | restamped _ _ _ _ _ deletion _ _ _ => exact absurd deletion (by simp [h.live])
  | removed _ _ _ _ _ _ deletion _ _ _ => exact absurd deletion (by simp [h.live])

/-- Nothing but a capture can fail. -/
theorem applyRecord_succeeds (h : ¬ Recorded env sent d) : Succeeds (applyRecord env sent) d := by
  by_cases hbad : malformed env sent
  · exact ⟨_, _, exec_applyRecord_malformed hbad⟩
  cases applyRecord_fate hbad d with
  | unknown _ _ run => exact ⟨_, _, run⟩
  | older _ _ _ run => exact ⟨_, _, run⟩
  | merged _ d' _ _ _ _ _ run _ => exact ⟨_, d', run⟩
  | restamped _ d' _ _ _ _ _ run _ => exact ⟨_, d', run⟩
  | removed _ d' _ _ _ _ _ _ run _ => exact ⟨_, d', run⟩
  | recorded live here run =>
    -- it is refused at the gate
    have hadm : admitted env (clampTimes env sent) = false := by
      by_contra hadm
      exact h ⟨hbad, live, Bool.eq_true_of_not_eq_false hadm, here⟩
    exact ⟨_, _, run.trans (exec_applyNew_refused hadm)⟩

/-- **One record is applied** unless it is recorded as a capture whose row its own
    retention pass removes. -/
theorem applyRecord_ok_iff :
    Succeeds (applyRecord env sent) d ↔ (Recorded env sent d → Outlives env sent d) := by
  by_cases hrec : Recorded env sent d
  · have hiff := get_retained_iff env (observed (clampTimes env sent) d)
      (captureOf (clampTimes env sent)) (by
        rw [keyOf_captureOf hrec.wellFormed hrec.live]
        intro r hr
        exact (hrec.newer r (by simpa using hr)).1)
    unfold Succeeds
    rw [exec_applyRecord_recorded hrec]
    by_cases hout : Outlives env sent d
    · obtain ⟨r, hr⟩ := hiff.mpr hout
      obtain ⟨d', n, hrun, -⟩ := exec_applyNew_stored (clampTimes env sent)
        hrec.admitted hr
      exact ⟨fun _ _ => hout, fun _ => ⟨_, d', hrun⟩⟩
    · -- the row is gone when the capture reads it back
      have hgone : (retained env (captureOf (clampTimes env sent))
          (observed (clampTimes env sent) d)).db.entries.get
            (capturedRow env (captureOf (clampTimes env sent))
              (observed (clampTimes env sent) d)).id = none := by
        rw [Option.eq_none_iff_forall_ne_some]
        intro r hr
        exact hout (hiff.mp ⟨r, hr⟩)
      refine ⟨fun h => ?_, fun h => absurd (h hrec) hout⟩
      obtain ⟨a, d', hrun⟩ := h
      rw [exec_applyNew_evicted (clampTimes env sent) hrec.admitted hgone] at hrun
      exact absurd (congrArg Prod.fst hrun) (by simp)
  · exact ⟨fun _ h => absurd h hrec, fun _ => applyRecord_succeeds hrec⟩

/-- Every record that is recorded as a capture outlives it, when its turn comes. -/
def BatchOutlives (env : Env) : Daemon → List SyncRecord → Prop
  | _, [] => True
  | d, sent :: rest => (Recorded env sent d → Outlives env sent d) ∧
      BatchOutlives env (Op.exec (applyRecord env sent) d).2 rest

theorem applyAll_ok_iff (records : List SyncRecord) : ∀ (t : Tally) (d : Daemon),
    Succeeds (records.foldlM (applyNext env) t) d ↔ BatchOutlives env d records := by
  induction records with
  | nil => exact fun t d => ⟨fun _ => trivial, fun _ => ⟨t, d, rfl⟩⟩
  | cons sent rest ih =>
    intro t d
    unfold BatchOutlives
    rw [← applyRecord_ok_iff]
    unfold Succeeds at ih ⊢
    rw [foldlM_cons]
    cases hrun : Op.exec (applyRecord env sent) d with
    | mk result d1 =>
      cases result with
      | error e =>
        have hnext : Op.exec (applyNext env t sent) d = (.error e, d1) :=
          Op.exec_bind_error hrun _
        simp [Op.exec_bind_error hnext]
      | ok became =>
        have hnext : Op.exec (applyNext env t sent) d = (.ok (t.count became), d1) := by
          unfold applyNext
          rw [Op.exec_bind_ok hrun]
          rfl
        rw [Op.exec_bind_ok hnext, ih]
        exact ⟨fun h => ⟨⟨became, d1, rfl⟩, h⟩, fun h => h.2⟩

end Captures

/-- **When a batch is applied.**  For every daemon, configuration and batch, with no
    I/O failure, `sync_apply` succeeds exactly when every record that is recorded
    as a capture fits the retention limits when its turn comes. -/
theorem sync_apply_succeeds_iff (env : Env) (d : Daemon) (records : List SyncRecord) :
    Succeeds (syncApply env records) d ↔ BatchOutlives env d records :=
  applyAll_ok_iff records ⟨0, 0, 0⟩ d

namespace Sample

/-- Four bytes in all. -/
def tight : Env := { env with config := { config with
  maxTotalBytes := 4
  maxTotalBytes_range := by decide } }

/-- A pinned note of four bytes. -/
def keepsake : SyncRecord := { note [107, 101, 101, 112] 2 with pinned := true }

/-- A note of two bytes. -/
def latecomer : SyncRecord := note [104, 105] 3

/-- Where a pinned note takes all the bytes there are, the next note fails the batch
    it comes in, and fails it again when the batch is sent again. -/
theorem pinned_bytes_wedge_the_batch :
    let d1 := (Op.exec (syncApply tight [keepsake]) fresh).2
    let d2 := (Op.exec (syncApply tight [latecomer]) d1).2
    Op.exec (syncApply tight [keepsake]) fresh = (.ok ⟨1, 0, 0⟩, d1) ∧
      (Op.exec (syncApply tight [latecomer]) d1).1 = .error (.notFound 2) ∧
      (Op.exec (syncApply tight [latecomer]) d2).1 = .error (.notFound 2) := by
  decide +kernel

end Sample

end Panora.Panod
