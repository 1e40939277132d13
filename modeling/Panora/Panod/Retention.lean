/-
  Panora.Panod.Retention — the retention pass.

  `Daemon::collect_garbage`: the four rules in turn, then the tombstones that are
  no longer needed, then the blobs nothing refers to.

  Main results:
    * `exec_collectGarbage` — a pass always succeeds, and what rows it leaves;
    * `find_afterRules` — a row that is pinned or already deleted is not evicted.
-/
import Panora.Panod.State

namespace Panora.Panod

open Storage Lib Lib.Table Storage.Database

variable (env : Env) {rule : Rule}

/-! ## §1. The retention pass -/

/-- How long a deletion can be undone, in seconds. -/
def undoGraceSecs : Int := 30

/-- A retention rule: the ids it evicted and the database after. -/
abbrev Rule := Database → Except Error (List Nat × Database)

/-- A rule that is run only where it is switched on. -/
def Rule.when (on : Prop) [Decidable on] (rule : Rule) : Rule := fun db =>
  if on then rule db else .ok ([], db)

/-- `history.max_entries`. -/
def limitRule : Rule := fun db => db.enforceLimit env.engine env.config.maxEntries

/-- `history.max_age_days`; 0 is off. -/
def ageRule : Rule := Rule.when (0 < env.config.maxAgeDays)
  (fun db => db.enforceAge (env.now - env.config.maxAgeDays * 86400))

/-- `privacy.sensitive_ttl_minutes`; 0 is off. -/
def secretRule : Rule := Rule.when (0 < env.config.sensitiveTtlMinutes)
  (fun db => db.expireSensitive (env.now - env.config.sensitiveTtlMinutes * 60))

/-- `history.max_total_bytes`; 0 is off. -/
def bytesRule : Rule := Rule.when (0 < env.config.maxTotalBytes)
  (fun db => db.enforceTotalBytes env.config.maxTotalBytes)

/-- Remove blobs; a failure is only logged. -/
def removeBlobs (refs : List String) : Request Unit :=
  Op.update (fun d => { d with blobs := refs.foldl BlobStore.removeOrWarn d.blobs })

/-- Drop the rows of entries tombstoned before `before`, then the blobs nothing
    references any more. -/
def purgeTombstonedBefore (before : Int) : Request Unit := do
  let refs ← updateDb (fun db => db.purgeTombstones before)
  removeBlobs refs

/-- The time from before which tombstones are purged. -/
def purgeCutoff : Int :=
  if env.config.syncEnabled then env.now - env.config.tombstoneDays * 86400
  else env.now - undoGraceSecs

/-- With sync on, a user's deletion keeps its row past the undo window, without
    its payloads. -/
def stripDeleted : Request Unit :=
  if env.config.syncEnabled then do
    let refs ← updateDb (fun db => db.stripTombstones (env.now - undoGraceSecs))
    removeBlobs refs
  else pure ()

/-- Apply retention policies and remove unreferenced blobs from disk. -/
def collectGarbage : Request Nat := do
  let byLimit ← onDb (limitRule env)
  let byAge ← onDb (ageRule env)
  let secrets ← onDb (secretRule env)
  let byBytes ← onDb (bytesRule env)
  stripDeleted env
  purgeTombstonedBefore (purgeCutoff env)
  pure (byLimit ++ byAge ++ secrets ++ byBytes).length

/-! ## §2. What a pass leaves -/

/-- `db'` is `db` with these rows evicted, each of which could be. -/
structure Evicted (db : Database) (ids : List Nat) (db' : Database) : Prop where
  entries : ∃ seq, db'.entries = db.entries.mapCols (evictedCols ids seq)
  evictable : ∀ id ∈ ids, ∃ r ∈ db.liveUnpinned, r.id = id

/-- What a rule leaves of the database. -/
def Rule.run (rule : Rule) (db : Database) : Database :=
  match rule db with
  | .ok (_, db') => db'
  | .error _ => db

/-- The ids a rule evicts. -/
def Rule.ids (rule : Rule) (db : Database) : List Nat :=
  match rule db with
  | .ok (ids, _) => ids
  | .error _ => []

/-- A rule that always succeeds and evicts only what may be evicted. -/
def Rule.Sound (rule : Rule) : Prop := ∀ db,
  rule db = .ok (rule.ids db, rule.run db) ∧ Evicted db (rule.ids db) (rule.run db)

variable {db db' : Database} {env : Env} {k : EntryKey} {r : EntryRow}

theorem Rule.sound_of_evicted
    (h : ∀ db, ∃ ids db', rule db = .ok (ids, db') ∧ Evicted db ids db') : rule.Sound := by
  intro db
  obtain ⟨ids, db', hrun, hevicted⟩ := h db
  unfold Rule.ids Rule.run
  rw [hrun]
  exact ⟨rfl, hevicted⟩

theorem evicted_nil (db : Database) : Evicted db [] db := by
  obtain ⟨db', seq, hrun, hrows⟩ := evict_ok [] db (by simp)
  injection hrun with hrun
  exact ⟨⟨seq, (congrArg entries hrun).trans hrows⟩, by simp⟩

theorem Rule.sound_when (h : rule.Sound) (on : Prop) [Decidable on] :
    (Rule.when on rule).Sound := by
  apply Rule.sound_of_evicted
  intro db
  unfold Rule.when
  by_cases hon : on
  · rw [if_pos hon]
    exact ⟨_, _, h db⟩
  · rw [if_neg hon]
    exact ⟨_, _, rfl, evicted_nil db⟩

/-- A rule that evicts selected live unpinned rows is sound. -/
theorem sound_evictRows {select : Database → List EntryRow}
    (h : ∀ db, ∀ r ∈ select db, r ∈ db.liveUnpinned) :
    Rule.Sound (fun db => db.evictRows (select db)) := by
  apply Rule.sound_of_evicted
  intro db
  obtain ⟨db', seq, hrun, hrows⟩ := evictRows_ok db (select db)
    (fun r hr => (List.mem_filter.mp (h db r hr)).1)
  refine ⟨_, db', hrun, ⟨seq, hrows⟩, fun id hid => ?_⟩
  obtain ⟨r, hr, rfl⟩ := List.mem_map.mp hid
  exact ⟨r, h db r hr, rfl⟩

theorem sound_limitRule (env : Env) : (limitRule env).Sound :=
  sound_evictRows fun db _ hr => (env.engine.perm db.liveUnpinned).mem_iff.mp
    (List.mem_of_mem_drop hr)

theorem sound_ageRule (env : Env) : (ageRule env).Sound :=
  Rule.sound_when (sound_evictRows fun _ _ hr => (List.mem_filter.mp hr).1) _

theorem sound_secretRule (env : Env) : (secretRule env).Sound :=
  Rule.sound_when (sound_evictRows fun _ _ hr => (List.mem_filter.mp hr).1) _

theorem overBudget_evictable (db : Database) (maxBytes : Nat) :
    ∀ id ∈ db.overBudget maxBytes, ∃ r ∈ db.liveUnpinned, r.id = id := by
  intro id hid
  rcases budget_subset maxBytes _ _ id hid with h | h
  · cases h
  · obtain ⟨r, hr, rfl⟩ := List.mem_map.mp h
    exact ⟨r, (List.perm_insertionSort _ _).mem_iff.mp hr, rfl⟩

theorem enforceTotalBytes_ok (db : Database) (maxBytes : Nat) :
    ∃ db', db.enforceTotalBytes maxBytes = .ok (db.overBudget maxBytes, db') ∧
      Evicted db (db.overBudget maxBytes) db' := by
  have hthere := overBudget_evictable db maxBytes
  obtain ⟨db', seq, hrun, hrows⟩ := evict_ok _ db (fun id hid => by
    obtain ⟨r, hr, rfl⟩ := hthere id hid
    exact ⟨r, get_eq_some.mpr ⟨(List.mem_filter.mp hr).1, rfl⟩⟩)
  refine ⟨db', ?_, ⟨seq, hrows⟩, hthere⟩
  show (db.evict (db.overBudget maxBytes)).map _ = _
  rw [hrun]
  rfl

theorem sound_bytesRule (env : Env) : (bytesRule env).Sound :=
  Rule.sound_when (Rule.sound_of_evicted fun db =>
    ⟨_, enforceTotalBytes_ok db env.config.maxTotalBytes⟩) _

/-- A row that is not evicted stays as it is. -/
theorem Evicted.find_of_notMem {ids : List Nat} (h : Evicted db ids db')
    (hr : db.entries.find k = some r) (hid : r.id ∉ ids) : db'.entries.find k = some r := by
  obtain ⟨seq, hentries⟩ := h.entries
  rw [hentries, find_mapCols, hr, Option.map_some, setCols, evictedCols,
    if_neg hid]

/-- A row that is evicted is a tombstone with no undo window. -/
theorem Evicted.find_of_mem {ids : List Nat} (h : Evicted db ids db')
    (hr : db.entries.find k = some r) (hid : r.id ∈ ids) :
    ∃ n, db'.entries.find k = some { r with cols := (r.cols.tombstoned 0).numbered n } := by
  obtain ⟨seq, hentries⟩ := h.entries
  refine ⟨seq r.id, ?_⟩
  rw [hentries, find_mapCols, hr, Option.map_some, setCols, evictedCols,
    if_pos hid]

theorem mem_liveUnpinned : r ∈ db.liveUnpinned ↔
    r ∈ db.entries.rows ∧ r.cols.deleted = false ∧ r.cols.pinned = false := by
  rw [liveUnpinned, List.mem_filter, evictable]
  simp

/-- A row that is deleted or pinned is not evicted. -/
theorem Evicted.notMem {ids : List Nat} (h : Evicted db ids db')
    (hr : db.entries.find k = some r) (hkept : r.cols.deleted = true ∨ r.cols.pinned = true) :
    r.id ∉ ids := by
  intro hid
  obtain ⟨r', hr', heq⟩ := h.evictable r.id hid
  obtain ⟨hmem, hdel, hpin⟩ := mem_liveUnpinned.mp hr'
  rw [eq_of_id_eq hmem (find_eq_some.mp hr).1 heq] at hdel hpin
  rcases hkept with h | h
  · rw [h] at hdel
    cases hdel
  · rw [h] at hpin
    cases hpin

/-- What the four rules leave. -/
def afterRules (env : Env) (db : Database) : Database :=
  (bytesRule env).run ((secretRule env).run ((ageRule env).run ((limitRule env).run db)))

/-- The ids the four rules evict. -/
def evictedIds (env : Env) (db : Database) : List Nat :=
  let db1 := (limitRule env).run db
  let db2 := (ageRule env).run db1
  let db3 := (secretRule env).run db2
  (limitRule env).ids db ++ (ageRule env).ids db1 ++ (secretRule env).ids db2 ++
    (bytesRule env).ids db3

/-- A tombstone that is no longer needed. -/
def purgeable (env : Env) (r : EntryRow) : Bool :=
  r.cols.deleted && r.cols.deletedAt < purgeCutoff env

theorem exec_rule (h : rule.Sound) (d : Daemon) :
    Op.exec (onDb rule) d = (.ok (rule.ids d.db), { d with db := rule.run d.db }) :=
  exec_onDb_ok (h d.db).1

theorem exec_stripDeleted (env : Env) (d : Daemon) :
    ∃ d', Op.exec (stripDeleted env) d = (.ok (), d') ∧ d'.db.entries = d.db.entries ∧
      d'.dbCipher = d.dbCipher := by
  unfold stripDeleted
  split
  · exact ⟨_, rfl, rfl, rfl⟩
  · exact ⟨d, rfl, rfl, rfl⟩

theorem exec_purgeTombstonedBefore (before : Int) (d : Daemon) :
    ∃ d', Op.exec (purgeTombstonedBefore before) d = (.ok (), d') ∧
      d'.db.entries = (d.db.purgeTombstones before).2.entries ∧ d'.dbCipher = d.dbCipher :=
  ⟨_, rfl, rfl, rfl⟩

/-- **A retention pass always succeeds**: the rules evict, then what is not needed
    any more is purged. -/
theorem exec_collectGarbage (env : Env) (d : Daemon) :
    ∃ d', Op.exec (collectGarbage env) d = (.ok (evictedIds env d.db).length, d') ∧
      d'.db.entries = (afterRules env d.db).entries.keepOnly (fun r => !purgeable env r) ∧
      d'.dbCipher = d.dbCipher := by
  obtain ⟨d1, hstrip, hentries1, hcipher1⟩ :=
    exec_stripDeleted env { d with db := afterRules env d.db }
  obtain ⟨d2, hpurge, hentries2, hcipher2⟩ := exec_purgeTombstonedBefore (purgeCutoff env) d1
  refine ⟨d2, ?_, ?_, hcipher2.trans hcipher1⟩
  · unfold collectGarbage
    rw [Op.exec_bind_ok (exec_rule (sound_limitRule env) d),
      Op.exec_bind_ok (exec_rule (sound_ageRule env) _),
      Op.exec_bind_ok (exec_rule (sound_secretRule env) _),
      Op.exec_bind_ok (exec_rule (sound_bytesRule env) _)]
    exact (Op.exec_bind_ok hstrip _).trans (Op.exec_bind_ok hpurge _)
  · rw [hentries2, entries_purgeTombstones, hentries1]
    rfl

/-- A rule leaves a row it may not evict. -/
theorem Rule.Sound.find_run (hsound : rule.Sound)
    (hr : db.entries.find k = some r) (hkept : r.cols.deleted = true ∨ r.cols.pinned = true) :
    (rule.run db).entries.find k = some r :=
  (hsound db).2.find_of_notMem hr ((hsound db).2.notMem hr hkept)

/-- A row the rules may not evict is there after them. -/
theorem find_afterRules (hr : db.entries.find k = some r)
    (hkept : r.cols.deleted = true ∨ r.cols.pinned = true) :
    (afterRules env db).entries.find k = some r := by
  have h1 := (sound_limitRule env).find_run hr hkept
  have h2 := (sound_ageRule env).find_run h1 hkept
  have h3 := (sound_secretRule env).find_run h2 hkept
  exact (sound_bytesRule env).find_run h3 hkept

end Panora.Panod
