/-
  Panora.Panod.Pass — what a retention pass guarantees.

  The four rules run one after the other over a set that shrinks.  What they leave of
  the live unpinned rows is written down in one place (`keptRows`), from the database
  before the pass; everything a pass promises is read off that.

  Main results:
    * `liveUnpinned_afterRules` — which rows the rules leave;
    * `retention_postcondition` — the limits hold after a pass, pinned entries stay, an
      eviction cannot be undone, and a second pass evicts nothing;
    * `image_limit_iff` — when there are no more images left than `max_images`, which no
      rule looks at.
-/
import Panora.Panod.Outlive
import Panora.Panod.Requests

namespace Panora.Panod

open Storage Lib Lib.Op Lib.Table Storage.Database List

/-! ## §1. Which rows the rules leave -/

/-- The live pinned rows. -/
def livePinned (db : Database) : List EntryRow :=
  db.entries.rows.filter (fun r => !r.cols.deleted && r.cols.pinned)

/-- The payload bytes of the live history, in the `u64` the byte limit counts in. -/
def liveBytes (db : Database) : Nat :=
  saturatingAdd (bytes (livePinned db)) (bytes db.liveUnpinned)

/-- Not older than `max_age_days`, where that is set. -/
def withinAge (env : Env) (r : EntryRow) : Bool :=
  decide (0 < env.config.maxAgeDays →
    env.now - env.config.maxAgeDays * 86400 ≤ r.cols.lastSeenAt)

/-- A secret past `sensitive_ttl_minutes`, where that is set. -/
def expiredSecret (env : Env) (r : EntryRow) : Bool :=
  decide (0 < env.config.sensitiveTtlMinutes ∧ r.cols.sensitive = true ∧
    r.cols.lastSeenAt < env.now - env.config.sensitiveTtlMinutes * 60)

/-- What the first three rules leave of the live unpinned rows. -/
def recentRows (env : Env) (db : Database) : List EntryRow :=
  ((db.liveUnpinned.filter (withinLimit env db)).filter (withinAge env)).filter
    (fun r => !expiredSecret env r)

/-- What all four leave. -/
def keptRows (env : Env) (db : Database) : List EntryRow :=
  (recentRows env db).filter (withinBytes env db.pinnedBytes (recentRows env db))

section Rules

variable {env : Env} {db db' : Database} {r : EntryRow} {ids : List Nat}

theorem liveUnpinned_ageRule (env : Env) (db : Database) :
    ((ageRule env).run db).liveUnpinned = db.liveUnpinned.filter (withinAge env) := by
  refine (sound_ageRule env).liveUnpinned_run_eq fun r hr => ?_
  unfold ageRule withinAge enforceAge
  rw [mem_ids_when, mem_ids_evictRows (fun db => db.liveUnpinned.filter
      (fun r => r.cols.lastSeenAt < env.now - env.config.maxAgeDays * 86400))
    (fun _ _ hr => (mem_filter.mp hr).1) (mem_liveUnpinned.mp hr).1, mem_filter,
    decide_eq_true_eq, decide_eq_true_eq]
  constructor
  · intro hnot hon
    by_contra hlt
    exact hnot ⟨hon, hr, by omega⟩
  · intro hkeep hevicted
    have := hkeep hevicted.1
    have := hevicted.2.2
    omega

theorem liveUnpinned_secretRule (env : Env) (db : Database) :
    ((secretRule env).run db).liveUnpinned
      = db.liveUnpinned.filter (fun r => !expiredSecret env r) := by
  refine (sound_secretRule env).liveUnpinned_run_eq fun r hr => ?_
  unfold secretRule expiredSecret expireSensitive
  rw [mem_ids_when, mem_ids_evictRows (fun db => db.liveUnpinned.filter
      (fun r => r.cols.sensitive && r.cols.lastSeenAt < env.now
        - env.config.sensitiveTtlMinutes * 60))
    (fun _ _ hr => (mem_filter.mp hr).1) (mem_liveUnpinned.mp hr).1, mem_filter,
    Bool.not_eq_true', decide_eq_false_iff_not]
  refine not_congr ?_
  simp [hr]

theorem liveUnpinned_bytesRule (env : Env) (db : Database) :
    ((bytesRule env).run db).liveUnpinned
      = db.liveUnpinned.filter (withinBytes env db.pinnedBytes db.liveUnpinned) := by
  refine (sound_bytesRule env).liveUnpinned_run_eq fun r hr => ?_
  unfold withinBytes
  rw [mem_ids_bytesRule, mem_overBudget_iff hr, decide_eq_true_eq]
  show ¬ (_ ∧ _ ∧ _ < _ + bytes (db.liveUnpinned.filter _)) ↔ _
  constructor
  · intro hnot hon hmax
    by_contra hover
    exact hnot ⟨hon, hmax, by omega⟩
  · intro hfits hover
    have := hfits hover.1 hover.2.1
    have := hover.2.2
    omega

/-- **What the four rules leave** of the live unpinned rows. -/
theorem liveUnpinned_afterRules (env : Env) (db : Database) :
    (afterRules env db).liveUnpinned = keptRows env db := by
  have hpinned : ((secretRule env).run ((ageRule env).run ((limitRule env).run db))).pinnedBytes
      = db.pinnedBytes := by
    rw [(sound_secretRule env _).2.pinnedBytes_eq, (sound_ageRule env _).2.pinnedBytes_eq,
      (sound_limitRule env _).2.pinnedBytes_eq]
  unfold afterRules keptRows recentRows
  rw [liveUnpinned_bytesRule, hpinned, liveUnpinned_secretRule, liveUnpinned_ageRule,
    liveUnpinned_limitRule]

/-- A live row that the rules leave pinned was so before, and stays so. -/
theorem Rule.Sound.livePinned_run {rule : Rule} (h : rule.Sound) (db : Database) :
    livePinned (rule.run db) = livePinned db := by
  refine (h db).2.filter_eq (fun r hr => by simp [hr]) fun r hr hid => ?_
  obtain ⟨r', hr', heq⟩ := (h db).2.evictable r.id hid
  obtain ⟨hmem, -, hpin⟩ := mem_liveUnpinned.mp hr'
  rw [eq_of_id_eq hmem hr heq] at hpin
  simp [hpin]

theorem livePinned_afterRules (env : Env) (db : Database) :
    livePinned (afterRules env db) = livePinned db := by
  unfold afterRules
  rw [(sound_bytesRule env).livePinned_run, (sound_secretRule env).livePinned_run,
    (sound_ageRule env).livePinned_run, (sound_limitRule env).livePinned_run]

end Rules

/-! ## §2. What a pass leaves -/

section Pass

variable {env : Env} {d d' : Daemon} {r : EntryRow}

/-- Purging takes away tombstones only. -/
theorem filter_keepOnly_purgeable (env : Env) (db : Database) {p : EntryRow → Bool}
    (hdeleted : ∀ r : EntryRow, r.cols.deleted = true → p r = false) :
    (db.entries.keepOnly (fun r => !purgeable env r)).rows.filter p
      = db.entries.rows.filter p := by
  show (db.entries.rows.filter _).filter p = _
  rw [filter_filter]
  refine filter_congr fun r _ => ?_
  by_cases hdel : r.cols.deleted = true
  · simp [hdeleted r hdel]
  · simp [purgeable, hdel]

variable {db db' : Database} {rule : Rule}

theorem liveUnpinned_of_purged {env : Env}
    (h : db'.entries = db.entries.keepOnly (fun r => !purgeable env r)) :
    db'.liveUnpinned = db.liveUnpinned := by
  unfold liveUnpinned
  rw [h]
  exact filter_keepOnly_purgeable env db (fun r hr => by simp [evictable, hr])

theorem livePinned_of_purged {env : Env}
    (h : db'.entries = db.entries.keepOnly (fun r => !purgeable env r)) :
    livePinned db' = livePinned db := by
  unfold livePinned
  rw [h]
  exact filter_keepOnly_purgeable env db (fun r hr => by simp [hr])

/-- What the entry limit leaves is as many rows as it allows. -/
theorem length_withinLimit (env : Env) (db : Database) :
    (db.liveUnpinned.filter (withinLimit env db)).length ≤ env.config.maxEntries := by
  have hperm := env.engine.perm db.liveUnpinned
  have hnodup : (env.engine.newestFirst db.liveUnpinned).Nodup :=
    hperm.nodup_iff.mpr (nodup_liveUnpinned db).of_map
  have hids : ((env.engine.newestFirst db.liveUnpinned).map (fun r => r)).Nodup := by
    rw [map_id']
    exact hnodup
  have htake := Keyed.filter_notMem_drop hids env.config.maxEntries
  rw [map_id'] at htake
  rw [(hperm.symm.filter (withinLimit env db)).length_eq]
  show ((env.engine.newestFirst db.liveUnpinned).filter (fun r => decide (r ∉ _))).length ≤ _
  rw [htake, length_take]
  omega

theorem mem_recentRows : r ∈ recentRows env db ↔ r ∈ db.liveUnpinned ∧
    withinLimit env db r = true ∧ withinAge env r = true ∧ expiredSecret env r = false := by
  unfold recentRows
  rw [mem_filter, mem_filter, mem_filter]
  simp [and_assoc]

theorem keptRows_sublist (env : Env) (db : Database) :
    (keptRows env db).Sublist (recentRows env db) := filter_sublist

theorem length_keptRows (env : Env) (db : Database) :
    (keptRows env db).length ≤ env.config.maxEntries := by
  have hrecent : (recentRows env db).Sublist (db.liveUnpinned.filter (withinLimit env db)) :=
    filter_sublist.trans filter_sublist
  exact (((keptRows_sublist env db).trans hrecent).length_le).trans (length_withinLimit env db)

/-- Some row is the oldest. -/
theorem exists_oldest : ∀ l : List EntryRow, l ≠ [] → ∃ r ∈ l, ∀ r' ∈ l, newerOrEqual r' r
  | [], h => absurd rfl h
  | [r], _ => ⟨r, mem_singleton_self r, fun r' hr' => by
      rw [mem_singleton.mp hr']
      exact .inr ⟨rfl, le_refl _⟩⟩
  | a :: b :: l, _ => by
    obtain ⟨r, hr, hall⟩ := exists_oldest (b :: l) (by simp)
    rcases total_of newerOrEqual a r with hle | hle
    · refine ⟨r, mem_cons_of_mem _ hr, fun r' hr' => ?_⟩
      rcases mem_cons.mp hr' with rfl | hr'
      · exact hle
      · exact hall r' hr'
    · refine ⟨a, mem_cons_self, fun r' hr' => ?_⟩
      rcases mem_cons.mp hr' with rfl | hr'
      · exact .inr ⟨rfl, le_refl _⟩
      · exact trans_of newerOrEqual (hall r' hr') hle

theorem bytes_le_of_sublist {l l' : List EntryRow} (h : l.Sublist l') : bytes l ≤ bytes l' :=
  (h.map byteSize).sum_le_sum (fun _ _ => Nat.zero_le _)

/-- **What the byte limit leaves fits**, or it leaves nothing: the oldest row that is left
    fits with all that are newer. -/
theorem bytes_keptRows (env : Env) (db : Database) (hon : 0 < env.config.maxTotalBytes) :
    saturatingAdd db.pinnedBytes (bytes (keptRows env db))
      ≤ env.config.maxTotalBytes ∨ keptRows env db = [] := by
  by_cases hempty : keptRows env db = []
  · exact .inr hempty
  left
  by_cases hmax : env.config.maxTotalBytes < u64Max
  · obtain ⟨r, hr, hall⟩ := exists_oldest _ hempty
    have hfits := of_decide_eq_true (mem_filter.mp hr).2 hon hmax
    have hsub : (keptRows env db).Sublist
        ((recentRows env db).filter (fun r' => newerOrEqual r' r)) := by
      have hself : (keptRows env db).filter (fun r' => newerOrEqual r' r)
          = keptRows env db := by
        rw [filter_eq_self]
        exact fun r' hr' => decide_eq_true (hall r' hr')
      rw [← hself]
      exact (keptRows_sublist env db).filter _
    have hle := bytes_le_of_sublist hsub
    unfold saturatingAdd
    omega
  · unfold saturatingAdd
    omega

/-- With no negative sizes the pinned bytes are those of the pinned rows. -/
theorem pinnedBytes_eq (hsizes : ∀ r ∈ db.entries.rows, 0 ≤ r.cols.sizeBytes) :
    db.pinnedBytes = bytes (livePinned db) := by
  have hsum : ∀ l : List EntryRow, (∀ r ∈ l, 0 ≤ r.cols.sizeBytes) →
      (l.map (fun r => r.cols.sizeBytes)).sum = (bytes l : Int) := by
    intro l hl
    induction l with
    | nil => rfl
    | cons r l ih =>
      have hr := hl r mem_cons_self
      have hone : bytes (r :: l) = byteSize r + bytes l := by
        simp [bytes]
      rw [map_cons, sum_cons, ih (fun r hr => hl r (mem_cons_of_mem _ hr)), hone]
      unfold byteSize
      omega
  show ((livePinned db).map (fun r : EntryRow => r.cols.sizeBytes)).sum.toNat = _
  rw [hsum (livePinned db) (fun r hr => hsizes r (mem_filter.mp hr).1)]
  rfl

/-- A live row after the rules: it stays, or it is a tombstone with no undo window. -/
theorem find_afterRules_cases (env : Env) {k : EntryKey} (hr : db.entries.find k = some r) :
    (afterRules env db).entries.find k = some r ∨
      ∃ n, (afterRules env db).entries.find k
        = some { r with cols := (r.cols.tombstoned 0).numbered n } := by
  have hrule : ∀ {rule : Rule}, rule.Sound → ∀ {db : Database},
      (db.entries.find k = some r ∨
        ∃ n, db.entries.find k = some { r with cols := (r.cols.tombstoned 0).numbered n }) →
      ((rule.run db).entries.find k = some r ∨
        ∃ n, (rule.run db).entries.find k
          = some { r with cols := (r.cols.tombstoned 0).numbered n }) := by
    intro rule hsound db hbefore
    rcases hbefore with hstays | ⟨n, hgone⟩
    · by_cases hid : r.id ∈ rule.ids db
      · exact .inr ((hsound db).2.find_of_mem hstays hid)
      · exact .inl ((hsound db).2.find_of_notMem hstays hid)
    · exact .inr ⟨n, hsound.find_run hgone (.inl rfl)⟩
  exact hrule (sound_bytesRule env) (hrule (sound_secretRule env)
    (hrule (sound_ageRule env) (hrule (sound_limitRule env) (.inl hr))))

/-- Undoing fails where there is no row, or a tombstone with no undo window. -/
theorem restore_notFound {id : Nat}
    (h : ∀ r', d.db.entries.get id = some r' → r'.cols.deleted = true ∧ r'.cols.deletedAt = 0) :
    (exec (restore env id) d).1 = .error (.notFound id) := by
  cases hget : d.db.entries.get id with
  | none =>
    have hfail : d.db.deletedAt id = .error (.notFound id) := by
      rw [deletedAt, hget]
    unfold restore
    rw [exec_bind_error (exec_attempt_error (by rw [hfail]; rfl))]
  | some r' =>
    obtain ⟨hdel, hzero⟩ := h r' hget
    have htime : d.db.deletedAt id = .ok (some 0) := by
      rw [deletedAt, hget]
      simp [hdel, hzero]
    unfold restore
    rw [exec_bind_ok (exec_attempt_ok (by rw [htime]; rfl))]
    simp [pastUndo]

/-- A rule that finds nothing to evict. -/
def Rule.Idle (rule : Rule) (db : Database) : Prop := rule db = .ok ([], db)

theorem Rule.Idle.run_eq (h : rule.Idle db) : rule.run db = db ∧ rule.ids db = [] := by
  unfold Rule.run Rule.ids
  rw [show rule db = .ok ([], db) from h]
  exact ⟨rfl, rfl⟩

theorem Rule.idle_when {on : Prop} [Decidable on]
    (h : on → rule.Idle db) : (Rule.when on rule).Idle db := by
  unfold Rule.Idle Rule.when
  by_cases hon : on
  · rw [if_pos hon]
    exact h hon
  · rw [if_neg hon]

theorem evictRows_nil {rows : List EntryRow} (h : rows = []) :
    db.evictRows rows = .ok ([], db) := by
  rw [h]
  rfl

/-- No rule finds anything to evict. -/
structure RulesIdle (env : Env) (db : Database) : Prop where
  limit : (limitRule env).Idle db
  age : (ageRule env).Idle db
  secret : (secretRule env).Idle db
  bytes : (bytesRule env).Idle db

theorem RulesIdle.evictedIds_eq (h : RulesIdle env db) : evictedIds env db = [] := by
  unfold evictedIds
  simp only [h.limit.run_eq.1, h.limit.run_eq.2, h.age.run_eq.1, h.age.run_eq.2,
    h.secret.run_eq.1, h.secret.run_eq.2, h.bytes.run_eq.2, append_nil]

/-- **The rules find nothing** where every limit holds. -/
theorem rulesIdle (hlimit : db.liveUnpinned.length ≤ env.config.maxEntries)
    (hage : ∀ r ∈ db.liveUnpinned, withinAge env r = true)
    (hsecret : ∀ r ∈ db.liveUnpinned, expiredSecret env r = false)
    (hbytes : 0 < env.config.maxTotalBytes → db.overBudget env.config.maxTotalBytes = []) :
    RulesIdle env db where
  limit := by
    refine evictRows_nil (drop_eq_nil_of_le ?_)
    rw [(env.engine.perm db.liveUnpinned).length_eq]
    exact hlimit
  age := by
    refine Rule.idle_when fun hon => evictRows_nil (filter_eq_nil_iff.mpr fun r hr => ?_)
    have := of_decide_eq_true (hage r hr) hon
    rw [decide_eq_true_eq]
    omega
  secret := by
    refine Rule.idle_when fun hon => evictRows_nil (filter_eq_nil_iff.mpr fun r hr => ?_)
    have hnot := of_decide_eq_false (hsecret r hr)
    rw [Bool.and_eq_true, decide_eq_true_eq]
    exact fun hexpired => hnot ⟨hon, hexpired⟩
  bytes := by
    refine Rule.idle_when fun hon => ?_
    show (db.evict (db.overBudget env.config.maxTotalBytes)).map _ = _
    rw [hbytes hon]
    rfl

/-- A pass over live rows that finds nothing to evict changes nothing. -/
theorem exec_collectGarbage_idle (hidle : RulesIdle env d.db)
    (hlive : ∀ r ∈ d.db.entries.rows, r.cols.deleted = false) :
    exec (collectGarbage env) d = (.ok 0, d) := by
  have hstrip : ∀ before, d.db.stripTombstones before = ([], d.db) := by
    intro before
    have hids : d.db.entries.rows.filter (strippable before) = [] := by
      rw [filter_eq_nil_iff]
      intro r hr
      simp [strippable, hlive r hr]
    unfold stripTombstones
    rw [hids]
    simp [show ([] : List String).dedup = [] from rfl]
  have hpurge : ∀ before, d.db.purgeTombstones before = ([], d.db) := by
    intro before
    have hids : d.db.entries.rows.filter
        (fun r => r.cols.deleted && decide (r.cols.deletedAt < before)) = [] := by
      rw [filter_eq_nil_iff]
      intro r hr
      simp [hlive r hr]
    unfold purgeTombstones
    rw [hids]
    rfl
  have hstripped : exec (stripDeleted env) d = (.ok (), d) := by
    unfold stripDeleted
    split
    · rw [exec_bind_ok (exec_updateDb _ d), hstrip]
      rfl
    · rfl
  have hpurged : exec (purgeTombstonedBefore (purgeCutoff env)) d = (.ok (), d) := by
    unfold purgeTombstonedBefore
    rw [exec_bind_ok (exec_updateDb _ d), hpurge]
    rfl
  unfold collectGarbage
  rw [exec_bind_ok (exec_onDb_ok hidle.limit), exec_bind_ok (exec_onDb_ok hidle.age),
    exec_bind_ok (exec_onDb_ok hidle.secret), exec_bind_ok (exec_onDb_ok hidle.bytes),
    exec_bind_ok hstripped, exec_bind_ok hpurged]
  rfl

/-- What is left once more fits: nothing is over the byte limit. -/
theorem overBudget_eq_nil
    (h : saturatingAdd db.pinnedBytes (bytes db.liveUnpinned)
      ≤ env.config.maxTotalBytes ∨ db.liveUnpinned = []) :
    db.overBudget env.config.maxTotalBytes = [] := by
  rw [eq_nil_iff_forall_not_mem]
  intro id hid
  obtain ⟨r, hr, rfl⟩ := overBudget_evictable db _ id hid
  obtain ⟨hmax, hover⟩ := (mem_overBudget_iff hr).mp hid
  have hdown : db.bytesDownTo r ≤ bytes db.liveUnpinned :=
    bytes_le_of_sublist filter_sublist
  rcases h with hfits | hempty
  · unfold saturatingAdd at hfits
    omega
  · rw [hempty] at hr
    cases hr

/-- Every live unpinned row is kept. -/
def AllKept (env : Env) (db : Database) : Prop := ∀ r ∈ db.liveUnpinned, r ∈ keptRows env db

/-- What the pass of a capture keeps is read off the history with the capture's row. -/
theorem keptRows_captureState (env : Env) (data : ClipboardData) (d : Daemon) :
    keptRows env (captureState env data d).db = keptRows env (capturedDb env data d) := by
  unfold keptRows recentRows
  rw [withinLimit_captureState, liveUnpinned_captureState, pinnedBytes_captureState]

theorem allKept_captureState (env : Env) (data : ClipboardData) (d : Daemon) :
    AllKept env (captureState env data d).db ↔ AllKept env (capturedDb env data d) := by
  unfold AllKept
  rw [keptRows_captureState, liveUnpinned_captureState]

theorem AllKept.rulesIdle (h : AllKept env db) : RulesIdle env db := by
  have hrecent : ∀ r ∈ db.liveUnpinned, r ∈ recentRows env db :=
    fun r hr => (keptRows_sublist env db).subset (h r hr)
  have hall : db.liveUnpinned.filter (withinLimit env db) = db.liveUnpinned :=
    filter_eq_self.mpr fun r hr => (mem_recentRows.mp (hrecent r hr)).2.1
  refine Panod.rulesIdle ?_ (fun r hr => (mem_recentRows.mp (hrecent r hr)).2.2.1)
    (fun r hr => (mem_recentRows.mp (hrecent r hr)).2.2.2) (fun hon => overBudget_eq_nil ?_)
  · rw [← hall]
    exact length_withinLimit env db
  · have heq : keptRows env db = db.liveUnpinned := by
      have hsub : (keptRows env db).Sublist db.liveUnpinned :=
        ((keptRows_sublist env db).trans (filter_sublist.trans
          (filter_sublist.trans filter_sublist)))
      have hnodup : db.liveUnpinned.Nodup := (nodup_liveUnpinned db).of_map
      exact hsub.eq_of_length_le (subperm_of_subset hnodup h).length_le
    rw [← heq]
    exact bytes_keptRows env db hon

/-- A row that is live after a pass was there before it, and was kept. -/
theorem mem_of_live_after
    (hentries : db'.entries = (afterRules env db).entries.keepOnly (fun r => !purgeable env r))
    (hr : r ∈ db'.entries.rows) (hlive : r.cols.deleted = false) :
    r ∈ db.entries.rows ∧ (r.cols.pinned = false → r ∈ keptRows env db) := by
  by_cases hpin : r.cols.pinned = true
  · have hmem : r ∈ livePinned db' := mem_filter.mpr ⟨hr, by simp [hlive, hpin]⟩
    rw [livePinned_of_purged hentries, livePinned_afterRules] at hmem
    exact ⟨(mem_filter.mp hmem).1, fun hnot => by rw [hpin] at hnot; exact absurd hnot (by simp)⟩
  · have hmem : r ∈ db'.liveUnpinned := mem_liveUnpinned.mpr ⟨hr, hlive, by simpa using hpin⟩
    rw [liveUnpinned_of_purged hentries, liveUnpinned_afterRules] at hmem
    have hbefore := mem_recentRows.mp ((keptRows_sublist env db).subset hmem)
    exact ⟨(mem_liveUnpinned.mp hbefore.1).1, fun _ => hmem⟩

end Pass

/-- What a retention pass from `d` to `d'` promises. -/
structure Retained (env : Env) (d d' : Daemon) : Prop where
  entries : d'.db.liveUnpinned.length ≤ env.config.maxEntries
  age : 0 < env.config.maxAgeDays → ∀ r ∈ d'.db.liveUnpinned,
    env.now - env.config.maxAgeDays * 86400 ≤ r.cols.lastSeenAt
  secrets : 0 < env.config.sensitiveTtlMinutes → ∀ r ∈ d'.db.liveUnpinned,
    r.cols.sensitive = true → env.now - env.config.sensitiveTtlMinutes * 60 ≤ r.cols.lastSeenAt
  bytes : 0 < env.config.maxTotalBytes →
    liveBytes d'.db ≤ env.config.maxTotalBytes ∨ d'.db.liveUnpinned = []
  /-- No pinned entry was evicted, or touched. -/
  pinned : livePinned d'.db = livePinned d.db
  /-- A row that was live and is not any more cannot be restored, at any later time. -/
  forGood : ∀ r ∈ d.db.entries.rows, r.cols.deleted = false →
    (∀ r' ∈ d'.db.entries.rows, r'.id = r.id → r'.cols.deleted = true) →
      ∀ later : Env, (exec (restore later r.id) d').1 = .error (.notFound r.id)
  /-- A second pass evicts nothing. -/
  again : (exec (collectGarbage env) d').1 = .ok 0

/-- **The postcondition of retention.**  For every daemon and configuration, a pass
    succeeds, and after it every limit holds, the pinned entries are as they were, no
    eviction can be undone, and another pass at the same time evicts nothing. -/
theorem retention_postcondition (env : Env) (d : Daemon)
    (hsizes : ∀ r ∈ d.db.entries.rows, 0 ≤ r.cols.sizeBytes) :
    ∃ evicted d', Op.exec (collectGarbage env) d = (.ok evicted, d') ∧ Retained env d d' := by
  obtain ⟨d', hrun, hentries, -⟩ := exec_collectGarbage env d
  have hlive : d'.db.liveUnpinned = keptRows env d.db :=
    (liveUnpinned_of_purged hentries).trans (liveUnpinned_afterRules env d.db)
  have hpinned : livePinned d'.db = livePinned d.db :=
    (livePinned_of_purged hentries).trans (livePinned_afterRules env d.db)
  have hpinnedBytes : d'.db.pinnedBytes = d.db.pinnedBytes := by
    show ((livePinned d'.db).map (fun r : EntryRow => r.cols.sizeBytes)).sum.toNat = _
    rw [hpinned]
    rfl
  have hkept : ∀ r ∈ d'.db.liveUnpinned,
      withinAge env r = true ∧ expiredSecret env r = false := by
    intro r hr
    rw [hlive] at hr
    exact (mem_recentRows.mp ((keptRows_sublist env d.db).subset hr)).2.2
  have hentryLimit : d'.db.liveUnpinned.length ≤ env.config.maxEntries := by
    rw [hlive]
    exact length_keptRows env d.db
  have hbytes : 0 < env.config.maxTotalBytes →
      saturatingAdd d'.db.pinnedBytes (bytes d'.db.liveUnpinned)
        ≤ env.config.maxTotalBytes ∨ d'.db.liveUnpinned = [] := by
    rw [hpinnedBytes, hlive]
    exact bytes_keptRows env d.db
  refine ⟨_, d', hrun, hentryLimit, ?_, ?_, ?_, hpinned, ?_, ?_⟩
  · intro hon r hr
    exact of_decide_eq_true (hkept r hr).1 hon
  · intro hon r hr hsensitive
    have hnot := of_decide_eq_false (hkept r hr).2
    by_contra hlt
    exact hnot ⟨hon, hsensitive, by omega⟩
  · intro hon
    unfold liveBytes
    rw [hpinned, ← pinnedBytes_eq hsizes, ← hpinnedBytes]
    exact hbytes hon
  · intro r hr hwas hgone later
    refine restore_notFound fun r' hr' => ?_
    obtain ⟨hmem, hid⟩ := get_eq_some.mp hr'
    have hfind : d.db.entries.find r.key = some r := find_eq_some.mpr ⟨hr, rfl⟩
    have hdel := hgone r' hmem hid
    -- the row that is left under this id is the one the rules left
    rw [hentries] at hmem
    have hrules := (mem_keepOnly.mp hmem).1
    rcases find_afterRules_cases env hfind with hstays | ⟨n, hevicted⟩
    · rw [eq_of_id_eq hrules (find_eq_some.mp hstays).1 hid, hwas] at hdel
      cases hdel
    · have hsame : r' = { r with cols := (r.cols.tombstoned 0).numbered n } :=
        eq_of_id_eq hrules (find_eq_some.mp hevicted).1 hid
      rw [hsame]
      exact ⟨rfl, rfl⟩
  · obtain ⟨d'', hagain, -⟩ := exec_collectGarbage env d'
    have hidle : RulesIdle env d'.db :=
      rulesIdle hentryLimit (fun r hr => (hkept r hr).1) (fun r hr => (hkept r hr).2)
        (fun hon => overBudget_eq_nil (hbytes hon))
    rw [hagain, hidle.evictedIds_eq]
    rfl

/-! ## §3. The limit on images -/

/-- The live unpinned images. -/
def images (db : Database) : List EntryRow :=
  db.liveUnpinned.filter (fun r => r.cols.kind = .image)

/-- At most `max_images` are left, and those left are the most recently seen. -/
structure ImagesLimited (env : Env) (db db' : Database) : Prop where
  count : (images db').length ≤ env.config.maxImages
  newest : ∀ r ∈ images db', ∀ r' ∈ images db, r' ∉ images db' →
    r'.cols.lastSeenAt ≤ r.cols.lastSeenAt

section Images

variable {env : Env} {db : Database} {r r' : EntryRow}

/-- A row the byte limit leaves is no older than one it evicts. -/
theorem seen_le_of_not_withinBytes {l : List EntryRow} {pinned : Nat}
    (hr : withinBytes env pinned l r = true) (hr' : withinBytes env pinned l r' = false) :
    r'.cols.lastSeenAt ≤ r.cols.lastSeenAt := by
  by_contra hlt
  refine of_decide_eq_false hr' fun hon hmax => ?_
  have hfits := of_decide_eq_true hr hon hmax
  have hsub : (l.filter (fun x => newerOrEqual x r')).Sublist
      (l.filter (fun x => newerOrEqual x r)) := by
    refine monotone_filter_right l fun x hx => ?_
    have hx := of_decide_eq_true hx
    refine decide_eq_true ?_
    unfold newerOrEqual at hx ⊢
    omega
  have := bytes_le_of_sublist hsub
  omega

/-- A row among the newest is no older than one that is not. -/
theorem seen_le_of_not_withinLimit (hr : r ∈ db.liveUnpinned) (hin : withinLimit env db r = true)
    (hout : withinLimit env db r' = false) : r'.cols.lastSeenAt ≤ r.cols.lastSeenAt := by
  have hsorted := env.engine.sorted db.liveUnpinned
  rw [← take_append_drop env.config.maxEntries (env.engine.newestFirst db.liveUnpinned)]
    at hsorted
  have hmem : r ∈ env.engine.newestFirst db.liveUnpinned :=
    (env.engine.perm db.liveUnpinned).mem_iff.mpr hr
  rw [← take_append_drop env.config.maxEntries (env.engine.newestFirst db.liveUnpinned)]
    at hmem
  have hdrop := of_decide_eq_false hout
  rcases mem_append.mp hmem with hfront | hback
  · exact (pairwise_append.mp hsorted).2.2 r hfront r' (not_not.mp hdrop)
  · exact absurd hback (of_decide_eq_true hin)

/-- Of two live unpinned rows, one kept and one not: the one kept was seen no earlier,
    unless the other is a secret that expired. -/
theorem seen_le_of_kept (hr : r ∈ keptRows env db) (hr' : r' ∈ db.liveUnpinned)
    (hgone : r' ∉ keptRows env db) (hsecret : expiredSecret env r' = false) :
    r'.cols.lastSeenAt ≤ r.cols.lastSeenAt := by
  obtain ⟨hrecent, hbytes⟩ := mem_filter.mp hr
  obtain ⟨hlive, hlimit, hage, -⟩ := mem_recentRows.mp hrecent
  by_cases hlimit' : withinLimit env db r' = true
  · by_cases hage' : withinAge env r' = true
    · -- only the byte limit is left to evict it
      have hrecent' := mem_recentRows.mpr ⟨hr', hlimit', hage', hsecret⟩
      refine seen_le_of_not_withinBytes hbytes ?_
      by_contra hfits
      exact hgone (mem_filter.mpr ⟨hrecent', by simpa using hfits⟩)
    · have hold := of_decide_eq_false (show withinAge env r' = false by simpa using hage')
      have hon : 0 < env.config.maxAgeDays := by
        by_contra hoff
        exact hold (fun hon => absurd hon hoff)
      have hyoung := of_decide_eq_true hage hon
      have : ¬ env.now - env.config.maxAgeDays * 86400 ≤ r'.cols.lastSeenAt :=
        fun hle => hold (fun _ => hle)
      omega
  · exact seen_le_of_not_withinLimit hlive hlimit (by simpa using hlimit')

end Images

/-- **When the image limit holds.**  For every daemon and configuration: after a pass at
    most `max_images` live unpinned images are left, the most recently seen ones, exactly
    when the other limits leave so few, and no image they leave is older than an image
    that expired as a secret. -/
theorem image_limit_iff (env : Env) (d : Daemon) :
    ImagesLimited env d.db (Op.exec (collectGarbage env) d).2.db
      ↔ ((keptRows env d.db).filter (fun r => r.cols.kind = .image)).length
          ≤ env.config.maxImages
        ∧ ∀ r ∈ keptRows env d.db, r.cols.kind = .image → ∀ r' ∈ images d.db,
          expiredSecret env r' = true → r'.cols.lastSeenAt ≤ r.cols.lastSeenAt := by
  obtain ⟨d', hrun, hentries, -⟩ := exec_collectGarbage env d
  have hlive : d'.db.liveUnpinned = keptRows env d.db :=
    (liveUnpinned_of_purged hentries).trans (liveUnpinned_afterRules env d.db)
  have himages : images d'.db = (keptRows env d.db).filter (fun r => r.cols.kind = .image) := by
    unfold images
    rw [hlive]
  have hmem : ∀ {r}, r ∈ images d'.db ↔ r ∈ keptRows env d.db ∧ r.cols.kind = .image := by
    intro r
    rw [himages, mem_filter, decide_eq_true_eq]
  rw [hrun]
  constructor
  · intro h
    refine ⟨by rw [← himages]; exact h.count, fun r hr hkind r' hr' hexpired => ?_⟩
    refine h.newest r (hmem.mpr ⟨hr, hkind⟩) r' hr' fun hleft => ?_
    -- what expired is not left
    have hrecent := (keptRows_sublist env d.db).subset (hmem.mp hleft).1
    rw [(mem_recentRows.mp hrecent).2.2.2] at hexpired
    cases hexpired
  · intro h
    refine ⟨by rw [himages]; exact h.1, fun r hr r' hr' hgone => ?_⟩
    obtain ⟨hkept, hkind⟩ := hmem.mp hr
    obtain ⟨hlive', hkind'⟩ := mem_filter.mp hr'
    by_cases hexpired : expiredSecret env r' = true
    · exact h.2 r hkept hkind r' hr' hexpired
    · refine seen_le_of_kept hkept hlive' (fun hin => hgone (hmem.mpr ⟨hin, ?_⟩))
        (by simpa using hexpired)
      exact of_decide_eq_true hkind'

namespace Sample

/-- Two pictures are one more than this allows. -/
def onePicture : Env := { env with
  content := { content with classify := fun _ => .image }
  config := { config with maxImages := 1 } }

/-- A picture that was copied. -/
def picture (bytes : Bytes) : ClipboardData := ⟨.clipboard, [⟨"image/png", bytes⟩], [], none⟩

/-- The history after two pictures. -/
def album : Daemon :=
  (exec (do
    let _ ← store onePicture (picture [1])
    store onePicture (picture [2])) fresh).2

/-- **Both pictures stay**, after their captures and after another pass. -/
theorem images_stay_beyond_limit :
    0 < onePicture.config.maxImages ∧
      (images (Op.exec (collectGarbage onePicture) album).2.db).length = 2 ∧
      ¬ ImagesLimited onePicture album.db (Op.exec (collectGarbage onePicture) album).2.db := by
  have hcount : (images (exec (collectGarbage onePicture) album).2.db).length = 2 := by
    decide +kernel
  refine ⟨by decide, hcount, fun h => ?_⟩
  have := h.count
  rw [hcount] at this
  exact absurd this (by decide)

/-- The pass over the two pictures. -/
theorem retention_postcondition_album :
    ∃ evicted d', Op.exec (collectGarbage onePicture) album = (.ok evicted, d') ∧
      Retained onePicture album d' :=
  retention_postcondition onePicture album (by decide +kernel)

end Sample

end Panora.Panod
