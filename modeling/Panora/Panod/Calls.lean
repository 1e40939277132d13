/-
  Panora.Panod.Calls — the calls of a capture.

  `Daemon::store` writes the row, its stamp, its index and each blob one after the
  other, and every one of these calls may fail.  Here it is the sequence of its calls,
  retention split into single evictions.

  Main results:
    * `run_storeCalls` — the calls make up `store`;
    * `lasts_passCalls` — the rows of a retention pass, each visible up to the call that
      evicts it.
-/
import Panora.Lib.Script
import Panora.Panod.Made
import Panora.Storage.Index

namespace Panora.Panod

open Storage Lib Lib.Op Lib.Script Storage.Database Storage.BlobStore List Except

section

variable (env : Env) (data : ClipboardData)

/-! ## §1. The calls of a capture -/

/-- What the daemon calls, one call after another. -/
abbrev Calls (α : Type) := Script Daemon Error α

/-- `Database::tombstone`, statement by statement. -/
def tombstoneCalls (id : Nat) (now : Int) : Calls Unit := do
  of (changeDb (fun db => db.changing id (db.trackedUpdate id (fun c => c.tombstoned now))))
  of (updateDb (fun db =>
    ((), { db with entriesFts := db.entriesFts.filter (fun f => f.rowid ≠ id) })))

/-- A retention rule: the query that selects, and then one eviction after another. -/
def ruleCalls (select : Database → List Nat) : Calls (List Nat) := do
  let ids ← of (readDb (fun db _ => select db))
  ids.forM (fun id => tombstoneCalls id 0)
  pure ids

/-- A rule that is run only where it is switched on. -/
def ruleCallsWhen (on : Prop) [Decidable on] (select : Database → List Nat) : Calls (List Nat) :=
  if on then ruleCalls select else pure []

/-- `Daemon::collect_garbage`. -/
def passCalls : Calls Nat := do
  let byLimit ← ruleCalls (fun db =>
    ((env.engine.newestFirst db.liveUnpinned).drop env.config.maxEntries).map Row.id)
  let byAge ← ruleCallsWhen (0 < env.config.maxAgeDays) (fun db =>
    (db.liveUnpinned.filter
      (fun r => r.cols.lastSeenAt < env.now - env.config.maxAgeDays * 86400)).map Row.id)
  let secrets ← ruleCallsWhen (0 < env.config.sensitiveTtlMinutes) (fun db =>
    (db.liveUnpinned.filter (fun r => r.cols.sensitive &&
      r.cols.lastSeenAt < env.now - env.config.sensitiveTtlMinutes * 60)).map Row.id)
  let byBytes ← ruleCallsWhen (0 < env.config.maxTotalBytes)
    (fun db => db.overBudget env.config.maxTotalBytes)
  of (stripDeleted env)
  of (purgeTombstonedBefore (purgeCutoff env))
  pure (byLimit ++ byAge ++ secrets ++ byBytes).length

/-- `BlobStore::put`, then `Database::attach_blob`. -/
def blobCalls (id : Nat) (mime : String) (data : Bytes) : Calls Unit := do
  let blobRef ← of (putBlob env data)
  of (changeDb (fun db => db.attachBlob id mime blobRef))

/-- Whether the text of a capture is indexed. -/
def indexed : Bool :=
  env.config.indexFullText && !masked env data &&
    (env.content.indexText (env.content.text data) (env.content.classify data)).isSome

/-- Flag the row of a capture that looks like a secret. -/
def markCalls (id : Nat) : Calls Unit :=
  if (secretIn env data).isSome then of (markSecret env data id) else pure ()

/-- Index the text of a capture. -/
def indexCalls (id : Nat) : Calls Unit :=
  if indexed env data then of (indexCapture env data id) else pure ()

/-- What a capture does to its row once it is there: its stamp, its flag and its index. -/
def settleCalls (lamport : Int) (id : Nat) : Calls Unit := do
  of (changeDb (fun db => db.stamp id lamport env.deviceId))
  markCalls env data id
  indexCalls env data id

/-- A capture up to its payloads. -/
def recordCalls : Calls Nat := do
  let lamport ← of (updateDb tickLamport)
  let id ← of (step (fun d =>
    let (id, db) := d.db.upsertEntry d.dbCipher (newEntry env data lamport)
    (id, { d with db })))
  settleCalls env data lamport id
  pure id

/-- Keep a thumbnail, if there is one. -/
def thumbnailCalls (id : Nat) : Option Bytes → Calls Unit
  | some png => blobCalls env id thumbnailMime png
  | none => pure ()

/-- A capture after its payloads. -/
def restCalls (id : Nat) : Calls Entry := do
  thumbnailCalls env id ((imageOf env data).bind env.content.renderThumbnail)
  let _ ← passCalls env
  of (getEntry id)

/-- `Daemon::store`. -/
def storeCalls : Calls Entry := do
  let id ← recordCalls env data
  data.payloads.forM (fun p => blobCalls env id p.mime p.data)
  restCalls env data id

/-- The calls up to the first payload. -/
def recordCount : Nat :=
  3 + (if (secretIn env data).isSome then 1 else 0) + (if indexed env data then 1 else 0)

/-- The payloads that are attached when call number `n` is made. -/
def written (n : Nat) : List MimePayload :=
  data.payloads.take ((n - recordCount env data) / 2)

/-- The calls up to the retention pass. -/
def passStart : Nat :=
  recordCount env data + 2 * data.payloads.length +
    if ((imageOf env data).bind env.content.renderThumbnail).isSome then 2 else 0

/-! ## §2. When the row of a capture is visible -/

/-- The calls of a rule that evicts these rows, with a mark at the one that evicts this row: the
    query, and two statements for each row. -/
def ruleEnds (id : Nat) (ids : List Nat) : List Bool :=
  false :: ids.flatMap (fun i => [i == id, false])

/-- The calls of a pass on this history, with a mark where this row is evicted: the rules, and
    two calls that clean up. -/
def passEnds (db : Database) (id : Nat) : List Bool :=
  let db1 := (limitRule env).run db
  let db2 := (ageRule env).run db1
  let db3 := (secretRule env).run db2
  ruleEnds id ((limitRule env).ids db)
    ++ ((if 0 < env.config.maxAgeDays then ruleEnds id ((ageRule env).ids db1) else [])
    ++ ((if 0 < env.config.sensitiveTtlMinutes then ruleEnds id ((secretRule env).ids db2) else [])
    ++ ((if 0 < env.config.maxTotalBytes then ruleEnds id ((bytesRule env).ids db3) else [])
    ++ [false, false])))

/-- The row of the capture is visible when call number `n` is made: the second call writes it,
    and retention, call by call, has not come to it. -/
def ShownAt (n : Nat) (d : Daemon) : Prop :=
  2 ≤ n ∧ true ∉ (passEnds env (capturedDb env data d) (capturedRow env data d).id).take
    (n - passStart env data)

instance (n : Nat) (d : Daemon) : Decidable (ShownAt env data n d) :=
  inferInstanceAs (Decidable (_ ∧ _))

/-- The entry is visible. -/
def Visible (d : Daemon) (id : Nat) : Prop :=
  ∃ r ∈ d.db.entries.rows, r.id = id ∧ r.cols.deleted = false

section Visible

variable {d d' : Daemon} {id i : Nat} {α : Type} {x : Request α} {a : α}

/-- A row is visible as long as it is there and not deleted. -/
theorem visible_iff :
    Visible d id ↔ ∃ r, d.db.entries.get id = some r ∧ r.cols.deleted = false := by
  constructor
  · rintro ⟨r, hr, hid, hlive⟩
    exact ⟨r, Table.get_eq_some.mpr ⟨hr, hid⟩, hlive⟩
  · rintro ⟨r, hget, hlive⟩
    obtain ⟨hr, hid⟩ := Table.get_eq_some.mp hget
    exact ⟨r, hr, hid, hlive⟩

/-- A call that writes no row. -/
theorem lasts_aside (hx : exec x d = (.ok a, d')) (h : d'.db.entries = d.db.entries) :
    Lasts (Visible · id) (of x) d a d' [false] := by
  refine lasts_of hx ?_
  unfold Visible
  rw [h]
  simp

/-- The statement that evicts a row, and the one after it. -/
theorem lasts_tombstoneCalls {now : Int} {refs : List String} {db' : Database}
    (h : d.db.tombstone i now = .ok (refs, db')) :
    Lasts (Visible · id) (tombstoneCalls i now) d () { d with db := db' } [i == id, false] := by
  obtain ⟨after, hchanging, heq⟩ := Fallible.map_ok_iff.mp h
  rw [← (Prod.mk.inj heq).2]
  refine (lasts_of (exec_changeDb_ok hchanging) ?_).bind (lasts_aside (exec_updateDb _ _) rfl)
  rw [visible_iff, visible_iff, changing_eq hchanging]
  by_cases hi : i = id
  · cases hget : d.db.entries.get i with
    | none =>
      unfold Database.changing at hchanging
      rw [hget] at hchanging
      cases hchanging
    | some r => simp [← hi, get_trackedUpdate hget, Cols.tombstoned, Cols.numbered]
  · simp [get_trackedUpdate_ne (Ne.symm hi), hi]

end Visible

/-! ## §3. What the calls make up -/

section Run

variable {env : Env} {data : ClipboardData} {d d' : Daemon} {id : Nat} {r : EntryRow}

/-- The calls of one payload are the request that stores it. -/
theorem run_blobCalls (env : Env) (id : Nat) (mime : String) (data : Bytes) :
    (blobCalls env id mime data).run = storeBlob env id mime data := by
  unfold blobCalls storeBlob
  simp only [run_bind, run_of]

/-- Where nothing is to be indexed no call is made. -/
theorem indexCapture_of_not (h : indexed env data = false) :
    indexCapture env data id = pure () := by
  unfold indexCapture
  split
  next hon =>
    split
    next content htext => simp [indexed, hon, htext] at h
    next => rfl
  next => rfl

theorem run_markCalls (env : Env) (data : ClipboardData) (id : Nat) :
    (markCalls env data id).run = markSecret env data id :=
  run_when fun hnone => if_neg (by rw [hnone]; exact Bool.false_ne_true)

theorem run_indexCalls (env : Env) (data : ClipboardData) (id : Nat) :
    (indexCalls env data id).run = indexCapture env data id :=
  run_when indexCapture_of_not

/-- The calls up to the row are the part of a capture that records it. -/
theorem run_recordCalls (env : Env) (data : ClipboardData) :
    (recordCalls env data).run = recordRow env data := by
  unfold recordCalls settleCalls recordRow
  simp only [run_bind, run_of, run_pure, run_markCalls, run_indexCalls,
    bind_assoc]

/-- Evictions made one statement after another leave what `evict` leaves. -/
theorem lasts_evictCalls (id : Nat) (ids : List Nat) : ∀ (d : Daemon) {db' : Database},
    d.db.evict ids = .ok db' →
      Lasts (Visible · id) (ids.forM (fun i => tombstoneCalls i 0)) d () { d with db := db' }
        (ids.flatMap (fun i => [i == id, false])) := by
  induction ids with
  | nil =>
    intro d db' h
    cases h
    exact lasts_pure ()
  | cons i ids ih =>
    intro d db' h
    unfold evict at h
    rw [foldlM_cons] at h
    obtain ⟨db1, hstep, hrest⟩ := Fallible.bind_ok_iff.mp h
    obtain ⟨⟨refs, db2⟩, htombstone, rfl⟩ := Fallible.map_ok_iff.mp hstep
    rw [forM_eq_forM, forM_cons]
    exact (lasts_tombstoneCalls htombstone).bind (ih { d with db := db2 } hrest)

/-- A rule that evicts what it selects. -/
abbrev evicting (select : Database → List Nat) : Rule :=
  fun db => (db.evict (select db)).map (fun db' => (select db, db'))

variable {select : Database → List Nat}

/-- **A rule, call by call.** -/
theorem lasts_ruleCalls (h : (evicting select).Sound) (id : Nat) (d : Daemon) :
    Lasts (Visible · id) (ruleCalls select) d ((evicting select).ids d.db)
      { d with db := (evicting select).run d.db } (ruleEnds id ((evicting select).ids d.db)) := by
  obtain ⟨db', hevict, hpair⟩ := Fallible.map_ok_iff.mp (h d.db).1
  obtain ⟨hids, hrun⟩ := Prod.mk.inj hpair
  rw [← hids, ← hrun]
  have hlasts := (lasts_evictCalls id _ d hevict).bind (f := fun _ => pure (select d.db))
    (lasts_pure _)
  rw [append_nil] at hlasts
  exact (lasts_aside (exec_readDb _ d) rfl).bind hlasts

/-- A rule that is switched off makes no call; one that is on ends the row where it selects it. -/
theorem lasts_ruleCallsWhen {on : Prop} [Decidable on] (h : (evicting select).Sound) (id : Nat)
    (d : Daemon) :
    Lasts (Visible · id) (ruleCallsWhen on select) d ((Rule.when on (evicting select)).ids d.db)
      { d with db := (Rule.when on (evicting select)).run d.db }
      (if on then ruleEnds id ((Rule.when on (evicting select)).ids d.db) else []) := by
  unfold ruleCallsWhen Rule.when Rule.ids Rule.run
  by_cases hon : on
  · simp only [if_pos hon]
    exact lasts_ruleCalls h id d
  · simp only [if_neg hon]
    exact lasts_pure []

/-- The calls of a rule, one a row, are the rule. -/
theorem run_ruleCalls (h : (evicting select).Sound) :
    (ruleCalls select).run = onDb (evicting select) :=
  ext fun d => (lasts_ruleCalls h 0 d).run.trans (exec_rule h d).symm

theorem run_ruleCallsWhen {on : Prop} [Decidable on] (h : (evicting select).Sound) :
    (ruleCallsWhen on select).run = onDb (Rule.when on (evicting select)) :=
  ext fun d => (lasts_ruleCallsWhen h 0 d).run.trans (exec_rule (Rule.sound_when h on) d).symm

/-! The rules of a pass evict what they select. -/

theorem sound_overAge (env : Env) : (evicting fun db => (db.liveUnpinned.filter
    (fun r => r.cols.lastSeenAt < env.now - env.config.maxAgeDays * 86400)).map Row.id).Sound :=
  sound_evictRows fun _ _ hr => (mem_filter.mp hr).1

theorem sound_overTtl (env : Env) : (evicting fun db => (db.liveUnpinned.filter
    (fun r => r.cols.sensitive &&
      r.cols.lastSeenAt < env.now - env.config.sensitiveTtlMinutes * 60)).map Row.id).Sound :=
  sound_evictRows fun _ _ hr => (mem_filter.mp hr).1

theorem sound_overBudget (env : Env) :
    (evicting fun db => db.overBudget env.config.maxTotalBytes).Sound :=
  Rule.sound_of_evicted fun db => ⟨_, enforceTotalBytes_ok db env.config.maxTotalBytes⟩

/-- The calls of all rules, and of the clean-up after them, are a retention pass. -/
theorem run_passCalls (env : Env) : (passCalls env).run = collectGarbage env := by
  unfold passCalls collectGarbage
  simp only [run_bind, run_of, run_pure]
  rw [run_ruleCalls (sound_limitRule env)]
  simp only [run_ruleCallsWhen (sound_overAge env), run_ruleCallsWhen (sound_overTtl env),
    run_ruleCallsWhen (sound_overBudget env)]
  rfl

/-- **A pass, call by call**: a row is visible up to the call that evicts it. -/
theorem lasts_passCalls (env : Env) (id : Nat) (d : Daemon) :
    ∃ n d', Lasts (Visible · id) (passCalls env) d n d' (passEnds env d.db id) := by
  obtain ⟨d1, hstrip, hentries1, -⟩ := exec_stripDeleted env { d with db := afterRules env d.db }
  obtain ⟨d2, hpurge, hentries2, -⟩ := exec_purgeTombstonedBefore (purgeCutoff env) d1
  -- what is purged was not visible
  have hpurged : Lasts (Visible · id) (of (purgeTombstonedBefore (purgeCutoff env))) d1 () d2
      [false] := by
    refine lasts_of hpurge ?_
    rw [visible_iff, visible_iff, hentries2, entries_purgeTombstones, Table.get_keepOnly]
    simp only [Option.filter_eq_some_iff, and_true]
    constructor
    · rintro ⟨r, ⟨hget, -⟩, hlive⟩
      exact ⟨r, hget, hlive⟩
    · rintro ⟨r, hget, hlive⟩
      exact ⟨r, ⟨hget, by simp [hlive]⟩, hlive⟩
  refine ⟨(evictedIds env d.db).length, d2, ?_⟩
  unfold passCalls passEnds
  refine Lasts.bind (lasts_ruleCalls (sound_limitRule env) id d) ?_
  refine Lasts.bind (lasts_ruleCallsWhen (sound_overAge env) id _) ?_
  refine Lasts.bind (lasts_ruleCallsWhen (sound_overTtl env) id _) ?_
  refine Lasts.bind (lasts_ruleCallsWhen (sound_overBudget env) id _) ?_
  show Lasts _ _ _ _ _ ([false] ++ ([false] ++ []))
  refine Lasts.bind (lasts_aside hstrip hentries1) ?_
  exact Lasts.bind hpurged (lasts_pure _)

/-- Two histories with the same rows for retention to look at. -/
structure SameLive (db db' : Database) : Prop where
  rows : db.liveUnpinned = db'.liveUnpinned
  pinned : db.pinnedBytes = db'.pinnedBytes

variable {db db' : Database} {rule : Rule}

/-- A rule that selects the same rows leaves the same rows live. -/
theorem SameLive.run (h : SameLive db db') (hsound : rule.Sound)
    (hids : rule.ids db = rule.ids db') : SameLive (rule.run db) (rule.run db') := by
  refine ⟨?_, ?_⟩
  · rw [hsound.liveUnpinned_run, hsound.liveUnpinned_run, h.rows, hids]
  · rw [(hsound db).2.pinnedBytes_eq, (hsound db').2.pinnedBytes_eq, h.pinned]

/-- What a rule evicts depends on its selection only. -/
theorem ids_evicting (h : (evicting select).Sound) (hselect : select db = select db') :
    (evicting select).ids db = (evicting select).ids db' := by
  have hids : ∀ db, (evicting select).ids db = select db := by
    intro db
    obtain ⟨db1, -, hpair⟩ := Fallible.map_ok_iff.mp (h db).1
    exact (Prod.mk.inj hpair).1.symm
  rw [hids, hids, hselect]

theorem ids_evictingWhen {on : Prop} [Decidable on] (h : (evicting select).Sound)
    (hselect : select db = select db') :
    (Rule.when on (evicting select)).ids db = (Rule.when on (evicting select)).ids db' := by
  unfold Rule.when Rule.ids
  by_cases hon : on
  · simp only [if_pos hon]
    exact ids_evicting h hselect
  · simp only [if_neg hon]

/-- A pass makes the same calls on both. -/
theorem SameLive.passEnds (env : Env) (h : SameLive db db') (id : Nat) :
    passEnds env db id = passEnds env db' id := by
  have hlimit : (limitRule env).ids db = (limitRule env).ids db' :=
    ids_evicting (sound_limitRule env) (by simp only [h.rows])
  have h1 := h.run (sound_limitRule env) hlimit
  have hage : (ageRule env).ids ((limitRule env).run db)
      = (ageRule env).ids ((limitRule env).run db') :=
    ids_evictingWhen (sound_overAge env) (by simp only [h1.rows])
  have h2 := h1.run (sound_ageRule env) hage
  have hsecret : (secretRule env).ids ((ageRule env).run ((limitRule env).run db))
      = (secretRule env).ids ((ageRule env).run ((limitRule env).run db')) :=
    ids_evictingWhen (sound_overTtl env) (by simp only [h2.rows])
  have h3 := h2.run (sound_secretRule env) hsecret
  have hbytes : (bytesRule env).ids ((secretRule env).run ((ageRule env).run ((limitRule env).run db)))
      = (bytesRule env).ids
        ((secretRule env).run ((ageRule env).run ((limitRule env).run db'))) :=
    ids_evictingWhen (sound_overBudget env) (by simp only [overBudget, h3.rows, h3.pinned])
  unfold Panod.passEnds
  simp only [hlimit, hage, hsecret, hbytes]

/-- The calls of a thumbnail, if there is one, are the request that stores it. -/
theorem run_thumbnailCalls (env : Env) (id : Nat) (thumbnail : Option Bytes) :
    (thumbnailCalls env id thumbnail).run = storeThumbnail env id thumbnail := by
  cases thumbnail with
  | none => rfl
  | some png => exact run_blobCalls env id thumbnailMime png

/-- **The calls make up the capture.** -/
theorem run_storeCalls (env : Env) (data : ClipboardData) :
    (storeCalls env data).run = store env data := by
  unfold storeCalls restCalls store storeRest
  rw [storeRow_eq]
  simp only [run_bind, run_of, run_forM, run_recordCalls, run_blobCalls,
    run_thumbnailCalls, run_passCalls, bind_assoc, pure_bind]

end Run

end

end Panora.Panod
