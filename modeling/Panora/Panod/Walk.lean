/-
  Panora.Panod.Walk — requests, statement by statement.

  Requests are made of few statements: a row is recorded, amended, tombstoned or lifted, a
  thumbnail is attached, the Lamport clock goes on, and a retention pass evicts, strips and purges.
  What each of these keeps, every request keeps, whether it succeeds or fails half way.

  Main results:
    * `Retains.collectGarbage` — a retention pass;
    * `Outlasts.delete`, `Outlasts.restore`, `Outlasts.applyRecord` — requests.
-/
import Panora.Panod.Requests

namespace Panora.Panod

open Storage Lib Lib.Op

variable (env : Env) (record : SyncRecord)

/-! ## §1. The two parts -/

/-- How far applying a record has come. -/
inductive Stage where
  | finished (became : Applied)
  /-- Waiting for the thumbnail of this image, to go with this row. -/
  | waiting (id : Nat) (image : Bytes)
  deriving DecidableEq

/-- What follows the await: the rest of the capture, then the record's own state. -/
def finishNew (id : Nat) (thumbnail : Option Bytes) : Request Applied := do
  let entry ← storeRest env id thumbnail
  changeDb (fun db => db.setTimes entry.id record.createdAt record.lastSeenAt)
  takeOver record entry.id
  pure .yes

/-- A live record of something that is not here, up to the await. -/
def beginNew : Request Stage :=
  if admitted env record then do
    let id ← storeRow env (captureOf record)
    match imageOf env (captureOf record) with
    | some image => pure (.waiting id image)
    | none => do
      let became ← finishNew env record id none
      pure (.finished became)
  else pure (.finished .ignored)

/-- A record that wins over what is here, up to the await. -/
def beginWinning (here : Option Entry) : Request Stage :=
  if record.deleted then do
    let became ← applyDeletion env record here
    pure (.finished became)
  else match here.filter (fun entry => !entry.deleted) with
    | some entry => do
      takeOver record entry.id
      pure (.finished .yes)
    | none => beginNew env record

/-- Apply one record, up to the await. -/
def beginRecord (sent : SyncRecord) : Request Stage :=
  let record := clampTimes env sent
  if badStamp record ∨ badContent env record then pure (.finished .rejected)
  else do
    observe record
    let here ← readDb (fun db cipher => db.find cipher record.key)
    if loses record here then pure (.finished .ignored) else beginWinning env record here

/-- Go on after the await, with the record as it was clamped before it. -/
def resumeRecord : Stage → Request Applied
  | .finished became => pure became
  | .waiting id image => finishNew env record id (env.content.renderThumbnail image)

theorem applyNew_eq : applyNew env record = beginNew env record >>= resumeRecord env record := by
  unfold applyNew beginNew
  by_cases h : admitted env record = true
  · rw [if_pos h, if_pos h]
    unfold store
    simp only [bind_assoc]
    refine congrArg _ (funext fun id => ?_)
    cases himage : imageOf env (captureOf record) with
    | none => simp [resumeRecord, finishNew]
    | some image => simp [resumeRecord, finishNew]
  · rw [if_neg h, if_neg h]
    rfl

/-- **The two parts together are what applying a record does.** -/
theorem applyRecord_eq (sent : SyncRecord) : applyRecord env sent
      = beginRecord env sent >>= resumeRecord env (clampTimes env sent) := by
  unfold applyRecord beginRecord
  dsimp only
  by_cases hbad : badStamp (clampTimes env sent) ∨ badContent env (clampTimes env sent)
  · rw [if_pos hbad, if_pos hbad]
    rfl
  · rw [if_neg hbad, if_neg hbad]
    simp only [bind_assoc]
    refine congrArg _ (funext fun _ => congrArg _ (funext fun here => ?_))
    by_cases hloses : loses (clampTimes env sent) here = true
    · rw [if_pos hloses, if_pos hloses]
      rfl
    · rw [if_neg hloses, if_neg hloses]
      unfold applyWinning beginWinning
      split
      · simp [resumeRecord]
      · cases here.filter (fun entry => !entry.deleted) with
        | some entry => simp [resumeRecord]
        | none => exact applyNew_eq env (clampTimes env sent)

/-! ## §2. What the statements keep -/

/-- The statements of a retention pass keep `P`; the rows it may evict are among `I`. -/
structure Retains (env : Env) (P : Daemon → Prop) (I : Nat → Prop) : Prop where
  evictable : ∀ {d}, P d → ∀ r ∈ d.db.liveUnpinned, I r.id
  tombstone : ∀ {i}, I i → ∀ now, Preserves P (onDb fun db => db.tombstone i now)
  strip : Preserves P (stripDeleted env)
  purge : Preserves P (purgeTombstonedBefore (purgeCutoff env))

/-- And so do the statements that amend a row among `I`. -/
structure Amends (env : Env) (P : Daemon → Prop) (I : Nat → Prop) : Prop
    extends Retains env P I where
  tracked : ∀ {i}, I i → ∀ f,
    Preserves P (changeDb fun db => db.changing i (db.trackedUpdate i f))
  times : ∀ {i}, I i → ∀ createdAt lastSeenAt,
    Preserves P (changeDb fun db => db.setTimes i createdAt lastSeenAt)
  thumbnail : ∀ {i}, I i → ∀ png, Preserves P (storeBlob env i thumbnailMime png)

/-- And so do all; the rows of the entries `K` are among `I`. -/
structure Outlasts (env : Env) (P : Daemon → Prop) (I : Nat → Prop) (K : EntryKey → Prop) : Prop
    extends Amends env P I where
  clock : ∀ {d}, P d → ∀ clock, P { d with db := { d.db with lamportClock := clock } }
  named : ∀ {d}, P d → ∀ r ∈ d.db.entries.rows, K r.key → I r.id
  row : ∀ {data}, K (keyOf env data) → Maintains P (storeRow env data) I
  lifted : ∀ {i}, I i → Preserves P (restoreRow i)

variable {env : Env} {P : Daemon → Prop} {I : Nat → Prop} {K : EntryKey → Prop} {i : Nat}

/-! ## §3. Retention -/

/-- A rule tombstones the rows it selects, one after another. -/
def Rule.Evicts (rule : Rule) : Prop :=
  ∀ db ids db', rule db = .ok (ids, db') → db.evict ids = .ok db'

theorem evicts_ids (f : Database → List Nat) :
    Rule.Evicts (fun db => (db.evict (f db)).map (fun db' => (f db, db'))) := by
  intro db ids db' hrun
  obtain ⟨db1, hevict, heq⟩ := Fallible.map_ok_iff.mp hrun
  cases heq
  exact hevict

theorem Rule.Evicts.when {rule : Rule} (h : rule.Evicts) {on : Prop} [Decidable on] :
    (Rule.when on rule).Evicts := by
  intro db ids db' hrun
  unfold Rule.when at hrun
  split at hrun
  · exact h db ids db' hrun
  · cases hrun
    rfl

theorem Retains.rule (h : Retains env P I) {rule : Rule} (hsound : rule.Sound)
    (hevicts : rule.Evicts) : Preserves P (onDb rule) := by
  refine maintains_attempt ?_
  intro d a d' hd hrun
  obtain ⟨⟨ids, db'⟩, hrule, heq⟩ := Fallible.map_ok_iff.mp hrun
  cases heq
  obtain ⟨hok, hevicted⟩ := hsound d.db
  rw [hrule] at hok
  cases hok
  refine ⟨Database.evict_keeps (R := fun db db' => P { d with db } → P { d with db := db' })
    (fun _ h => h) (fun h h' hdb => h' (h hdb)) ?_ (hevicts _ _ _ hrule) hd,
      trivial⟩
  intro i hi db refs db' htombstone hdb
  obtain ⟨r, hr, rfl⟩ := hevicted.evictable i hi
  have hkept := (h.tombstone (h.evictable hd r hr) 0 { d with db } hdb).1
  rw [exec_onDb_ok htombstone] at hkept
  exact hkept

/-- **A retention pass.** -/
theorem Retains.collectGarbage (h : Retains env P I) : Preserves P (collectGarbage env) := by
  unfold Panod.collectGarbage
  refine maintains_bind (h.rule (sound_limitRule env) (evicts_ids _)) fun _ _ => ?_
  refine maintains_bind (h.rule (sound_ageRule env) (evicts_ids _).when) fun _ _ => ?_
  refine maintains_bind (h.rule (sound_secretRule env) (evicts_ids _).when) fun _ _ => ?_
  refine maintains_bind (h.rule (sound_bytesRule env) (evicts_ids _).when) fun _ _ => ?_
  refine maintains_bind h.strip fun _ _ => ?_
  exact maintains_bind h.purge fun _ _ => maintains_pure trivial

/-- A relation that the statements of a pass keep. -/
theorem retains_of_keeps {R : Daemon → Daemon → Prop}
    (htrans : ∀ d d' d'', R d d' → R d' d'' → R d d'')
    (htombstone : ∀ i now, Keeps R (onDb fun db => db.tombstone i now))
    (hstrip : Keeps R (stripDeleted env))
    (hpurge : Keeps R (purgeTombstonedBefore (purgeCutoff env))) (d : Daemon) :
    Retains env (R d) (fun _ => True) where
  evictable _ _ _ := trivial
  tombstone _ now := Keeps.preserves htrans (htombstone _ now) d
  strip := Keeps.preserves htrans hstrip d
  purge := Keeps.preserves htrans hpurge d

theorem keeps_collectGarbage {R : Daemon → Daemon → Prop} (hrefl : ∀ d, R d d)
    (htrans : ∀ d d' d'', R d d' → R d' d'' → R d d'')
    (htombstone : ∀ i now, Keeps R (onDb fun db => db.tombstone i now))
    (hstrip : Keeps R (stripDeleted env))
    (hpurge : Keeps R (purgeTombstonedBefore (purgeCutoff env))) :
    Keeps R (collectGarbage env) :=
  keeps_of_maintains hrefl fun d =>
    (retains_of_keeps htrans htombstone hstrip hpurge d).collectGarbage

theorem Retains.clearAll (h : Retains env P I) : Preserves P (onDb Database.clearAll) :=
  h.rule (sound_evictRows fun _ _ hr => hr) (evicts_ids _)

theorem Retains.clear (h : Retains env P I) : Preserves P (clear env) :=
  maintains_bind h.clearAll fun _ _ =>
    maintains_bind h.collectGarbage fun _ _ => maintains_pure trivial

/-! ## §4. Amending a row -/

theorem maintains_getEntry (i : Nat) : Maintains P (getEntry i) (fun entry => entry.id = i) := by
  refine maintains_attempt ?_
  intro d entry d' hd hrun
  obtain ⟨entry', hget, heq⟩ := Fallible.map_ok_iff.mp hrun
  cases heq
  refine ⟨hd, ?_⟩
  unfold Database.get at hget
  cases hrow : d.db.entries.get i with
  | none =>
    rw [hrow] at hget
    exact nomatch hget
  | some r =>
    rw [hrow] at hget
    cases hget
    exact (Table.get_eq_some.mp hrow).2

/-- **The rest of a capture.** -/
theorem Amends.storeRest (h : Amends env P I) (hi : I i) (thumbnail : Option Bytes) :
    Maintains P (storeRest env i thumbnail) (fun entry => I entry.id) := by
  unfold Panod.storeRest
  refine maintains_bind (Q := fun _ => True) ?_ fun _ _ =>
    maintains_bind h.collectGarbage fun _ _ =>
      (maintains_getEntry i).weaken fun _ hid => hid.symm ▸ hi
  cases thumbnail with
  | none => exact maintains_pure trivial
  | some png => exact h.thumbnail hi png

theorem Amends.finishNew (h : Amends env P I) (hi : I i) (record : SyncRecord)
    (thumbnail : Option Bytes) : Preserves P (finishNew env record i thumbnail) := by
  refine maintains_bind (h.storeRest hi thumbnail) fun entry hentry => ?_
  refine maintains_bind (h.times hentry _ _) fun _ _ => ?_
  exact maintains_bind (h.tracked hentry _) fun _ _ => maintains_pure trivial

theorem Amends.applyDeletion (h : Amends env P I) (record : SyncRecord) {here : Option Entry}
    (hhere : ∀ entry, here = some entry → I entry.id) :
    Preserves P (applyDeletion env record here) := by
  cases here with
  | none => exact maintains_pure trivial
  | some entry =>
    have hi := hhere entry rfl
    refine maintains_bind (Q := fun _ => True) ?_ fun _ _ =>
      maintains_bind (h.tracked hi _) fun _ _ => maintains_pure trivial
    unfold deleteLive
    split
    · exact maintains_pure trivial
    · refine maintains_bind (h.tombstone hi env.now) fun _ _ => ?_
      exact maintains_bind h.collectGarbage fun _ _ => maintains_pure trivial

/-! ## §5. Requests -/

namespace Outlasts

theorem tick (h : Outlasts env P I K) : Preserves P (updateDb Database.tickLamport) :=
  maintains_step fun _ hd => ⟨h.clock hd _, trivial⟩

theorem stampLocal (h : Outlasts env P I K) (hi : I i) : Preserves P (stampLocal env i) :=
  maintains_bind h.tick fun _ _ => h.tracked hi _

theorem observe (h : Outlasts env P I K) (record : SyncRecord) :
    Preserves P (observe record) := by
  unfold Panod.observe
  split
  · exact maintains_step fun _ hd => ⟨h.clock hd _, trivial⟩
  · exact maintains_pure trivial

theorem setPinned (h : Outlasts env P I K) (hi : I i) (pinned : Bool) :
    Preserves P (setPinned env i pinned) :=
  maintains_bind (h.tracked hi _) fun _ _ => h.stampLocal hi

/-- **A deletion.** -/
theorem delete (h : Outlasts env P I K) (hi : I i) : Preserves P (delete env i) := by
  unfold Panod.delete
  refine maintains_bind (maintains_getEntry i) fun entry _ => ?_
  split
  · exact maintains_throw _
  · refine maintains_bind (h.tombstone hi env.now) fun _ _ => ?_
    refine maintains_bind (h.stampLocal hi) fun _ _ => ?_
    exact maintains_bind h.collectGarbage fun _ _ => maintains_pure trivial

/-- **Its undo.** -/
theorem restore (h : Outlasts env P I K) (hi : I i) : Preserves P (restore env i) := by
  unfold Panod.restore
  refine maintains_bind (maintains_look _) fun time _ => ?_
  split
  · exact maintains_throw _
  · refine maintains_bind (h.lifted hi) fun _ _ => ?_
    refine maintains_bind (h.stampLocal hi) fun _ _ => ?_
    exact (maintains_getEntry i).weaken fun _ _ => trivial

end Outlasts

/-- The row a record waits with is among `I`. -/
def Stage.On (I : Nat → Prop) : Stage → Prop
  | .finished _ => True
  | .waiting id _ => I id

namespace Outlasts

theorem beginNew (h : Outlasts env P I K) {record : SyncRecord}
    (hkey : K (keyOf env (captureOf record))) :
    Maintains P (beginNew env record) (Stage.On I) := by
  unfold Panod.beginNew
  split
  · refine maintains_bind (h.row hkey) fun i hi => ?_
    split
    · exact maintains_pure hi
    · exact maintains_bind (h.finishNew hi record none) fun _ _ => maintains_pure trivial
  · exact maintains_pure trivial

/-- **A record, up to its await.** -/
theorem beginRecord (h : Outlasts env P I K) {sent : SyncRecord} (hkey : K sent.key) :
    Maintains P (beginRecord env sent) (Stage.On I) := by
  unfold Panod.beginRecord
  dsimp only
  split
  next => exact maintains_pure trivial
  next hwf =>
    refine maintains_bind (h.observe _) fun _ _ => ?_
    -- what is here of the record's entry has its key
    refine maintains_bind (Q := fun here => ∀ entry, here = some entry → I entry.id)
      (maintains_reads fun d hd entry hfind => ?_) fun here hhere => ?_
    · obtain ⟨r, hr, rfl⟩ := Option.map_eq_some_iff.mp hfind
      obtain ⟨hr, hsame⟩ := Table.find_eq_some.mp hr
      exact h.named hd r hr (hsame.symm ▸ hkey)
    · split
      · exact maintains_pure trivial
      · unfold beginWinning
        split
        next =>
          exact maintains_bind (h.applyDeletion _ hhere) fun _ _ => maintains_pure trivial
        next hlive =>
          split
          next entry hentry =>
            have hi := hhere entry (Option.filter_eq_some_iff.mp hentry).1
            exact maintains_bind (h.tracked hi _) fun _ _ => maintains_pure trivial
          next =>
            have hlive : (clampTimes env sent).deleted = false := by simpa using hlive
            have hsame : keyOf env (captureOf (clampTimes env sent)) = sent.key :=
              keyOf_captureOf hwf hlive
            exact h.beginNew (hsame.symm ▸ hkey)

/-- **A record.** -/
theorem applyRecord (h : Outlasts env P I K) {sent : SyncRecord} (hkey : K sent.key) :
    Preserves P (applyRecord env sent) := by
  rw [applyRecord_eq]
  refine maintains_bind (h.beginRecord hkey) fun stage hstage => ?_
  cases stage with
  | finished became => exact maintains_pure trivial
  | waiting i image => exact h.finishNew hstage _ _

end Outlasts

end Panora.Panod
