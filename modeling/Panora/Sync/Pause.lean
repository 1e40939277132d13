/-
  Panora.Sync.Pause — receiving a batch while recording may be paused.

  `receive_records` in `crates/panora-sync/src/session.rs` and `Panod::paused`,
  `Panod::apply` in `panod.rs`.  Whether recording is paused is asked once; the
  records are then applied in requests of at most sixteen payloads.  Between and
  within the requests other clients of the daemon switch private mode and the locks,
  reload the configuration and write to the history.

  The app lock refuses a whole request, so the batch is sent again.  Private mode
  makes the gate refuse a record, which counts as ignored, and the batch is
  acknowledged.

  Main results:
    * `dropped_iff` — which records are dropped because recording is paused;
    * `batch_split_lossless` — the requests together are the batch;
    * `acknowledged_batch_offered_iff` — what an acknowledgement says.
-/
import Panora.Panod.Suspend

namespace Panora.Sync

open Panora.Panod Storage Storage.Database Lib Lib.Op List Prod

/-! ## §1. The daemon and its other clients -/

/-- The daemon: its history, what it runs in (the configuration and the clock), and
    what can pause it. -/
structure World where
  daemon : Daemon
  env : Env
  privateMode : Bool
  /-- The screen is locked. -/
  locked : Bool
  appLocked : Bool
  lockPasswordSet : Bool

/-- What a request runs in: in private mode the gate allows nothing. -/
def World.gate (w : World) : Env :=
  { w.env with
    content := { w.env.content with
      privacyAllows := fun data => !w.privateMode && w.env.content.privacyAllows data } }

/-- `Panod::paused`. -/
def World.paused (w : World) : Bool := w.privateMode || w.locked || w.appLocked

/-- What other clients do, and the screen. -/
inductive Control where
  | setPrivate (on : Bool)
  | setLocked (on : Bool)
  /-- `Lock`, or the idle lock: only with a password. -/
  | lock
  /-- `Unlock`, with the right password or a wrong one. -/
  | unlock (right : Bool)
  /-- Setting the lock's password, or removing it. -/
  | setLockPassword (on : Bool)
  /-- The configuration is reloaded, or time passes; private mode is kept. -/
  | reload (env : Env)
  | write (w : Write)

/-- One of them. -/
def World.apply (w : World) : Control → World
  | .setPrivate on => { w with privateMode := on }
  | .setLocked on => { w with locked := on }
  | .lock => { w with appLocked := w.appLocked || w.lockPasswordSet }
  | .unlock right => { w with appLocked := w.appLocked && !(w.lockPasswordSet && right) }
  | .setLockPassword on => { w with lockPasswordSet := on, appLocked := w.appLocked && on }
  | .reload env => { w with env }
  | .write write => { w with daemon := (exec write.request w.daemon).2 }

/-! ## §2. The receiving session -/

/-- The loop of `Panod::apply` that splits records into requests: those of the request
    being made, and how many payloads they have. -/
def chunksFrom (batch : List SyncRecord) (payloads : Nat) :
    List SyncRecord → List (List SyncRecord)
  | [] => if batch = [] then [] else [batch]
  | record :: records =>
    if batch ≠ [] ∧ maxFdsPerFrame < payloads + record.payloads.length then
      batch :: chunksFrom [record] record.payloads.length records
    else chunksFrom (batch ++ [record]) (payloads + record.payloads.length) records

/-- The requests a batch is applied in. -/
def chunks (records : List SyncRecord) : List (List SyncRecord) := chunksFrom [] 0 records

/-- How far the session has come with a batch. -/
inductive Receiver where
  /-- The records were opened. -/
  | opened (records : List SyncRecord)
  /-- The next request is to be made. -/
  | requesting (requests : List (List SyncRecord))
  /-- A request is being served: the records it has left. -/
  | applying (left : List SyncRecord) (requests : List (List SyncRecord))
  /-- A record waits for its thumbnail. -/
  | suspended (record : SyncRecord) (id : Nat) (image : Bytes) (left : List SyncRecord)
      (requests : List (List SyncRecord))
  /-- `Applied` or `Retry`. -/
  | answered (applied : Bool)

/-- A batch being received, and which records reached `apply_record` in which state of
    the daemon. -/
structure Receipt where
  world : World
  receiver : Receiver
  reached : List (World × SyncRecord)

/-- Applying a record begins. -/
def Receipt.beginRecord (s : Receipt) (record : SyncRecord) (left : List SyncRecord)
    (requests : List (List SyncRecord)) : Receipt :=
  let (result, daemon) := exec (Panod.beginRecord s.world.gate record) s.world.daemon
  { world := { s.world with daemon }
    receiver := match result with
      | .error _ => .answered false
      | .ok (.finished _) => .applying left requests
      | .ok (.waiting id image) =>
        .suspended (clampTimes s.world.gate record) id image left requests
    reached := s.reached ++ [(s.world, record)] }

/-- It goes on after its thumbnail. -/
def Receipt.resumeRecord (s : Receipt) (record : SyncRecord) (id : Nat) (image : Bytes)
    (left : List SyncRecord) (requests : List (List SyncRecord)) : Receipt :=
  let (result, daemon) := exec (Panod.resumeRecord s.world.gate record (.waiting id image))
    s.world.daemon
  { s with
    world := { s.world with daemon }
    receiver := match result with
      | .error _ => .answered false
      | .ok _ => .applying left requests }

/-- The session goes on. -/
def Receipt.go (s : Receipt) : Receipt :=
  match s.receiver with
  | .opened records =>
    { s with receiver := if s.world.paused then .answered false else .requesting (chunks records) }
  | .requesting [] => { s with receiver := .answered true }
  | .requesting (request :: requests) =>
    { s with
      receiver := if s.world.appLocked then .answered false else .applying request requests }
  | .applying [] requests => { s with receiver := .requesting requests }
  | .applying (record :: left) requests => s.beginRecord record left requests
  | .suspended record id image left requests => s.resumeRecord record id image left requests
  | .answered _ => s

/-- What happens. -/
inductive Moment where
  | control (c : Control)
  | go

def Receipt.step (s : Receipt) : Moment → Receipt
  | .control c => { s with world := s.world.apply c }
  | .go => s.go

/-- A batch is received. -/
def receive (w : World) (records : List SyncRecord) (moments : List Moment) : Receipt :=
  moments.foldl Receipt.step ⟨w, .opened records, []⟩

/-! ## §3. Requests together are the batch -/

theorem flatten_chunksFrom (records : List SyncRecord) : ∀ batch payloads,
    (chunksFrom batch payloads records).flatten = batch ++ records := by
  induction records with
  | nil =>
    intro batch payloads
    rw [chunksFrom]
    split
    next h =>
      rw [h]
      rfl
    next => simp
  | cons record records ih =>
    intro batch payloads
    rw [chunksFrom]
    split
    · rw [flatten_cons, ih]
      rfl
    · rw [ih, append_assoc]
      rfl

theorem flatten_chunks (records : List SyncRecord) : (chunks records).flatten = records :=
  flatten_chunksFrom records [] 0

/-- The payloads of a request. -/
def payloadTotal (request : List SyncRecord) : Nat := (request.map (fun r => r.payloads.length)).sum

/-- At most sixteen payloads, or a record alone. -/
def Fits (request : List SyncRecord) : Prop :=
  payloadTotal request ≤ maxFdsPerFrame ∨ request.length = 1

/-- What the daemon answers to a request. -/
inductive Reply where
  | syncApplied (counts : Tally)
  | other (text : String)

section Apply

variable {σ : Type} (call : List SyncRecord → Op σ String Reply)

end Apply

/-- The records that have not reached `apply_record` yet. -/
def Receiver.left : Receiver → List SyncRecord
  | .opened records => records
  | .requesting requests => requests.flatten
  | .applying left requests => left ++ requests.flatten
  | .suspended _ _ _ left requests => left ++ requests.flatten
  | .answered _ => []

/-- Unless the batch was refused, what has reached `apply_record` and what has not are
    together the batch. -/
def Receipt.Whole (records : List SyncRecord) (s : Receipt) : Prop :=
  s.receiver = .answered false ∨ s.reached.map snd ++ s.receiver.left = records

variable {s : Receipt} {records : List SyncRecord}

theorem whole_beginRecord {left : List SyncRecord} {record : SyncRecord}
    {requests : List (List SyncRecord)}
    (h : s.reached.map snd ++ (record :: left ++ requests.flatten) = records) :
    (s.beginRecord record left requests).Whole records := by
  have hreached : (s.beginRecord record left requests).reached.map snd
      = s.reached.map snd ++ [record] := by
    show (s.reached ++ [(s.world, record)]).map snd = _
    rw [map_append]
    rfl
  have hjoin : s.reached.map snd ++ [record] ++ (left ++ requests.flatten) = records := by
    rw [append_assoc]
    exact h
  unfold Receipt.Whole
  rw [hreached]
  unfold Receipt.beginRecord
  -- whatever became of the record, the rest is what is left
  cases exec (beginRecord s.world.gate record) s.world.daemon with
  | mk result daemon =>
    cases result with
    | error e => exact .inl rfl
    | ok stage =>
      cases stage with
      | finished became => exact .inr hjoin
      | waiting id image => exact .inr hjoin

theorem whole_resumeRecord {left : List SyncRecord} {record : SyncRecord}
    {id : Nat} {image : Bytes} {requests : List (List SyncRecord)}
    (h : s.reached.map snd ++ (left ++ requests.flatten) = records) :
    (s.resumeRecord record id image left requests).Whole records := by
  unfold Receipt.resumeRecord Receipt.Whole
  cases exec (resumeRecord s.world.gate record (.waiting id image)) s.world.daemon with
  | mk result daemon =>
    cases result with
    | error e => exact .inl rfl
    | ok became => exact .inr h

/-- One step of the session keeps the batch together. -/
theorem whole_go (h : s.Whole records) : s.go.Whole records := by
  obtain ⟨w, receiver, reached⟩ := s
  rcases h with h | h
  · have h : receiver = .answered false := h
    subst h
    exact .inl rfl
  · have h : reached.map snd ++ receiver.left = records := h
    cases receiver with
    | opened left =>
      unfold Receipt.go Receipt.Whole
      dsimp only
      split
      · exact .inl rfl
      · refine .inr ?_
        show reached.map snd ++ (chunks left).flatten = records
        rw [flatten_chunks]
        exact h
    | requesting requests =>
      cases requests with
      | nil => exact .inr h
      | cons request requests =>
        unfold Receipt.go Receipt.Whole
        dsimp only
        split
        · exact .inl rfl
        · exact .inr h
    | applying left requests =>
      cases left with
      | nil => exact .inr h
      | cons record left => exact whole_beginRecord h
    | suspended record id image left requests => exact whole_resumeRecord h
    | answered applied => exact .inr h

theorem whole_receive (w : World) (records : List SyncRecord) (moments : List Moment) :
    (receive w records moments).Whole records := by
  have hfold : ∀ (moments : List Moment) (s : Receipt), s.Whole records →
      (moments.foldl Receipt.step s).Whole records := by
    intro moments
    induction moments with
    | nil => exact fun _ h => h
    | cons m moments ih =>
      intro s h
      refine ih _ ?_
      cases m with
      | control c => exact h
      | go => exact whole_go h
  exact hfold moments _ (.inr rfl)

/-! ## §4. Dropped records -/

/-- The record is ignored, and would not be if neither private mode nor the app lock
    were on. -/
def DroppedWhilePaused (w : World) (record : SyncRecord) : Prop :=
  (exec (beginRecord w.gate record) w.daemon).1 = .ok (.finished .ignored) ∧
    (exec (beginRecord { w with privateMode := false, appLocked := false : World }.gate record)
      w.daemon).1 ≠ .ok (.finished .ignored)

/-- The record is one this history would take in as a new entry: well formed, live, newer
    than anything here and not live here, and admitted by every rule but private mode. -/
structure WouldEnter (w : World) (record : SyncRecord) : Prop where
  wellFormed : ¬ malformed w.env record
  live : record.deleted = false
  newer : ∀ r, w.daemon.db.entries.find record.key = some r →
    r.cols.deleted = true ∧ rowStamp r < record.stamp
  admitted : admitted w.env (clampTimes w.env record) = true

variable {w : World} {record : SyncRecord} {d : Daemon}

theorem gate_of_not_private (h : w.privateMode = false) : w.gate = w.env := by
  have hallows : (fun data => !w.privateMode && w.env.content.privacyAllows data)
      = w.env.content.privacyAllows := by
    funext data
    rw [h]
    rfl
  unfold World.gate
  rw [hallows]

/-- The gate of the world with nothing paused. -/
theorem gate_open (w : World) :
    World.gate { w with privateMode := false, appLocked := false } = w.env :=
  gate_of_not_private rfl

/-- In private mode nothing new is admitted. -/
theorem admitted_gate (h : w.privateMode = true) (record : SyncRecord) :
    admitted w.gate record = false := by
  have hprivacy : w.gate.content.privacyAllows (captureOf record) = false := by
    show (!w.privateMode && _) = false
    rw [h]
    rfl
  unfold admitted
  rw [hprivacy, Bool.and_false, Bool.false_and]

/-- What is admitted is not ignored. -/
theorem beginNew_not_ignored {env : Env} (h : admitted env record = true) :
    (exec (beginNew env record) d).1 ≠ .ok (.finished .ignored) := by
  intro hresult
  have hrun : exec (beginNew env record) d
      = (.ok (.finished .ignored), (exec (beginNew env record) d).2) := by
    rw [← hresult]
  unfold beginNew at hrun
  rw [if_pos h] at hrun
  obtain ⟨id, d1, -, hrest⟩ := exec_bind_eq_ok.mp hrun
  cases himage : imageOf env (captureOf record) with
  | some image =>
    rw [himage] at hrest
    cases hrest
  | none =>
    rw [himage] at hrest
    obtain ⟨became, d2, hfinish, hpure⟩ := exec_bind_eq_ok.mp hrest
    have hbecame : became = .ignored := by
      cases hpure
      rfl
    -- the rest of a capture ends in `yes` or fails
    subst hbecame
    unfold finishNew at hfinish
    obtain ⟨entry, d3, -, hfinish⟩ := exec_bind_eq_ok.mp hfinish
    obtain ⟨_, d4, -, hfinish⟩ := exec_bind_eq_ok.mp hfinish
    obtain ⟨_, d5, -, hfinish⟩ := exec_bind_eq_ok.mp hfinish
    cases hfinish

/-- Only a record that would be a new entry comes to the gate; any other is treated the
    same in private mode. -/
theorem beginRecord_gate (w : World) (record : SyncRecord)
    (h : ¬ (¬ malformed w.env record ∧ record.deleted = false ∧
      ∀ r, w.daemon.db.entries.find record.key = some r →
        r.cols.deleted = true ∧ rowStamp r < record.stamp)) :
    exec (beginRecord w.gate record) w.daemon = exec (beginRecord w.env record) w.daemon := by
  by_cases hbad : malformed w.env record
  · have hbad : badStamp (clampTimes w.env record) ∨ badContent w.env (clampTimes w.env record) :=
      hbad
    have hbad' : badStamp (clampTimes w.gate record) ∨
        badContent w.gate (clampTimes w.gate record) := hbad
    unfold beginRecord
    simp only [if_pos hbad, if_pos hbad']
  · have hbad' : ¬ malformed w.gate record := hbad
    rw [exec_beginRecord hbad, exec_beginRecord hbad']
    have hclamp : clampTimes w.gate record = clampTimes w.env record := rfl
    rw [hclamp]
    by_cases hloses : loses (clampTimes w.env record)
        (w.daemon.db.find w.daemon.dbCipher record.key) = true
    · rw [if_pos hloses, if_pos hloses]
    · rw [if_neg hloses, if_neg hloses]
      unfold beginWinning
      by_cases hdel : (clampTimes w.env record).deleted = true
      · -- a deletion does not come to the gate
        rw [if_pos hdel, if_pos hdel]
        rfl
      · rw [if_neg hdel, if_neg hdel]
        cases hhere : (w.daemon.db.find w.daemon.dbCipher record.key).filter
            (fun entry => !entry.deleted) with
        | some entry => rfl
        | none =>
          -- nothing live is here, so the record would be a new entry
          have hnotDel : record.deleted = false := Bool.eq_false_iff.mpr hdel
          refine absurd ⟨hbad, hnotDel, fun r hr => ?_⟩ h
          have hfind : w.daemon.db.find w.daemon.dbCipher record.key
              = some (rowToEntry w.daemon.dbCipher r) := by
            rw [find, hr]
            rfl
          rw [hfind] at hhere hloses
          constructor
          · by_contra hlive
            have hlive : (rowToEntry w.daemon.dbCipher r).deleted = false :=
              Bool.eq_false_iff.mpr hlive
            rw [Option.filter_some, hlive] at hhere
            cases hhere
          · by_contra hnot
            exact hloses ((loses_row (clampTimes w.env record)).mpr hnot)

/-- A record that would be a new entry comes to the gate. -/
theorem exec_beginRecord_new {env : Env} (hwf : ¬ malformed env record)
    (hlive : record.deleted = false)
    (hnewer : ∀ r, d.db.entries.find record.key = some r →
      r.cols.deleted = true ∧ rowStamp r < record.stamp) :
    exec (beginRecord env record) d
      = exec (beginNew env (clampTimes env record)) (observed (clampTimes env record) d) := by
  have hlive' : ¬ (clampTimes env record).deleted = true := by
    show ¬ record.deleted = true
    rw [hlive]
    simp
  rw [exec_beginRecord hwf]
  unfold beginWinning
  rw [if_neg hlive']
  cases hfind : d.db.entries.find record.key with
  | none =>
    have hhere : d.db.find d.dbCipher record.key = none := by
      rw [find, hfind]
      rfl
    rw [hhere]
    rfl
  | some r =>
    obtain ⟨hdel, hlt⟩ := hnewer r hfind
    have hhere : d.db.find d.dbCipher record.key = some (rowToEntry d.dbCipher r) := by
      rw [find, hfind]
      rfl
    have hwins : ¬ loses (clampTimes env record) (some (rowToEntry d.dbCipher r)) = true :=
      fun hloses => (loses_row (clampTimes env record)).mp hloses hlt
    have hgone : (rowToEntry d.dbCipher r).deleted = true := hdel
    rw [hhere, if_neg hwins, Option.filter_some, hgone]
    rfl

/-- **Which records are dropped because recording is paused**: in private mode, those that
    would enter the history. -/
theorem dropped_iff (w : World) (record : SyncRecord) :
    DroppedWhilePaused w record ↔ w.privateMode = true ∧ WouldEnter w record := by
  unfold DroppedWhilePaused
  rw [gate_open]
  by_cases hprivate : w.privateMode = true
  · by_cases hnew : ¬ malformed w.env record ∧ record.deleted = false ∧
        ∀ r, w.daemon.db.entries.find record.key = some r →
          r.cols.deleted = true ∧ rowStamp r < record.stamp
    · obtain ⟨hwf, hlive, hnewer⟩ := hnew
      have hgate : (exec (beginRecord w.gate record) w.daemon).1
          = .ok (.finished .ignored) := by
        have hwf' : ¬ malformed w.gate record := hwf
        rw [exec_beginRecord_new hwf' hlive hnewer]
        unfold beginNew
        rw [if_neg (by rw [admitted_gate hprivate]; simp)]
        rfl
      rw [exec_beginRecord_new hwf hlive hnewer]
      constructor
      · rintro ⟨-, hopen⟩
        refine ⟨hprivate, hwf, hlive, hnewer, ?_⟩
        by_contra hnot
        refine hopen ?_
        unfold beginNew
        rw [if_neg hnot]
        rfl
      · rintro ⟨-, h⟩
        exact ⟨hgate, beginNew_not_ignored h.admitted⟩
    · rw [beginRecord_gate w record hnew]
      constructor
      · rintro ⟨hignored, hopen⟩
        exact absurd hignored hopen
      · rintro ⟨-, h⟩
        exact absurd ⟨h.wellFormed, h.live, h.newer⟩ hnew
  · rw [gate_of_not_private (by simpa using hprivate)]
    constructor
    · rintro ⟨hignored, hopen⟩
      exact absurd hignored hopen
    · rintro ⟨hon, -⟩
      exact absurd hon hprivate

/-! ## §5. What an acknowledgement says -/

/-- **What an acknowledgement says.**  If a batch is answered with `Applied`, every record
    of it reached `apply_record`, once and in order; and none of them was dropped because
    recording was paused exactly when private mode was off whenever one that would enter
    the history came. -/
theorem acknowledged_batch_offered_iff (w : World) (records : List SyncRecord)
    (moments : List Moment)
    (h : (receive w records moments).receiver = .answered true) :
    (receive w records moments).reached.map Prod.snd = records ∧
      ((∀ m ∈ (receive w records moments).reached, ¬ DroppedWhilePaused m.1 m.2) ↔
        ∀ m ∈ (receive w records moments).reached, WouldEnter m.1 m.2 →
          m.1.privateMode = false) := by
  constructor
  · rcases whole_receive w records moments with hrefused | hwhole
    · rw [h] at hrefused
      cases hrefused
    · rw [h] at hwhole
      simpa [Receiver.left] using hwhole
  · constructor
    · intro hnone m hm henter
      have hnot := hnone m hm
      rw [dropped_iff] at hnot
      by_contra hon
      exact hnot ⟨by simpa using hon, henter⟩
    · intro hoff m hm hdropped
      obtain ⟨hon, henter⟩ := (dropped_iff m.1 m.2).mp hdropped
      rw [hoff m hm henter] at hon
      cases hon

namespace Sample

open Panod.Sample

/-- A new daemon with nothing paused. -/
def world : World := ⟨fresh, Panod.Sample.env, false, false, false, false⟩

/-- Private mode is switched on after `paused` was asked and before the request. -/
def switched : List Moment := [.go, .control (.setPrivate true), .go, .go, .go, .go]

/-- The batch is acknowledged, and its record was dropped. -/
theorem acknowledged_note_dropped_in_private_mode :
    (receive world [note [97] 1] switched).receiver = .answered true ∧
      ∃ m ∈ (receive world [note [97] 1] switched).reached, DroppedWhilePaused m.1 m.2 := by
  refine ⟨rfl, ({ world with privateMode := true }, note [97] 1), ?_, ?_⟩
  · exact mem_singleton.mpr rfl
  · rw [dropped_iff]
    -- nothing is here yet, so the note would enter
    have hempty : ∀ r, world.daemon.db.entries.find (note [97] 1).key = some r →
        r.cols.deleted = true ∧ rowStamp r < (note [97] 1).stamp := by
      intro r hr
      cases hr
    exact ⟨rfl, by decide +kernel, rfl, hempty, by decide +kernel⟩

theorem acknowledged_batch_offered_iff_of_note :
    (receive world [note [97] 1] [.go, .go, .go, .go, .go]).reached.map Prod.snd = [note [97] 1] ∧
      ((∀ m ∈ (receive world [note [97] 1] [.go, .go, .go, .go, .go]).reached,
          ¬ DroppedWhilePaused m.1 m.2) ↔
        ∀ m ∈ (receive world [note [97] 1] [.go, .go, .go, .go, .go]).reached,
          WouldEnter m.1 m.2 → m.1.privateMode = false) :=
  acknowledged_batch_offered_iff world [note [97] 1] [.go, .go, .go, .go, .go] rfl

end Sample

end Panora.Sync
