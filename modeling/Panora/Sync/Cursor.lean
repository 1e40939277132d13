/-
  Panora.Sync.Cursor — how far a peer has been told.

  `session_loop` and `push` in `crates/panora-sync/src/session.rs`, `Shared::cursor`
  and `set_cursor` in `node.rs`.  A node keeps one cursor for a peer.  Any number of
  sessions with that peer read it, ask the daemon for a page after it, and set it:
  when the peer answers `Applied`, or when the page held nothing but the peer's own
  records.  A push is cut where it awaits, so other sessions, the daemon and the
  peer go on in between.

  Main results:
    * `Passed.page` — a page goes on from what was passed before it;
    * `step_sound`, `run_sound` — what every event, and so every run, keeps;
    * `cursor_safe` — what a stored cursor says.
-/
import Panora.Panod.Reader
import Panora.Sync.Records

namespace Panora.Sync

open Panora.Panod Storage Storage.Database Lib List Option

/-! ## §1. The node -/

/-- A record and the change number it was handed out at. -/
structure Item where
  seq : Nat
  record : SyncRecord
  deriving DecidableEq, Repr

/-- The same state of the same entry, at the same change number. -/
def Item.Same (x y : Item) : Prop := x.seq = y.seq ∧ filed x.record = filed y.record

instance (x y : Item) : Decidable (x.Same y) := inferInstanceAs (Decidable (_ ∧ _))

/-- What a page from `since` to `next` holds. -/
def itemsOf (env : Env) (d : Daemon) (scope : SyncScope) (since next : Int) : List Item :=
  ((changedSince d.db since).filter (fun r => (r.cols.changeSeq : Int) ≤ next)).filterMap
    (fun r => (offered env d scope r).map (fun record => ⟨r.cols.changeSeq, record⟩))

/-- A batch that was sent and not yet answered. -/
structure InFlight where
  batch : Nat
  next : Int
  more : Bool
  /-- What the batch holds. -/
  items : List Item

/-- Where a push stands: the loop of the session goes on only when it is done. -/
inductive Stage where
  | idle
  /-- The cursor was read, and the daemon was asked. -/
  | asked (since : Int)
  /-- The daemon has answered. -/
  | answered (since : Int) (items : List Item) (next : Int) (more : Bool)

def Stage.isIdle : Stage → Bool
  | .idle => true
  | _ => false

/-- One session with the peer. -/
structure Session where
  peerDevice : Option String
  inFlight : Option InFlight
  wantPush : Bool
  nextBatch : Nat
  stage : Stage

/-- A session that begins. -/
def Session.new : Session := ⟨none, none, true, 1, .idle⟩

/-- A node as one peer sees it.  What was handed out and what was acknowledged is kept
    to speak about; the node itself does not know. -/
structure Node where
  daemon : Daemon
  cursor : Int
  sessions : Nat → Session
  handed : List Item
  acked : List Item

/-- A node that has never met the peer. -/
def Node.start (d : Daemon) : Node := ⟨d, 0, fun _ => Session.new, [], []⟩

/-- What happens. -/
inductive Event where
  /-- The daemon writes. -/
  | write (w : Write)
  /-- A session begins, in the place of an ended one or beside others. -/
  | start (i : Nat)
  /-- The peer says who it is. -/
  | hello (i : Nat)
  /-- A tick, a nudge or a change of the history. -/
  | wake (i : Nat)
  /-- The session begins a push; `ready` if the peer is a member and the key is held. -/
  | ask (i : Nat) (ready : Bool)
  /-- The daemon answers. -/
  | serve (i : Nat)
  /-- The push goes on with the page; `sealed` if the records could be sealed. -/
  | send (i : Nat) (sealed : Bool)
  /-- The peer says that it applied a batch, whether or not there is such a batch. -/
  | applied (i : Nat) (batch : Nat)
  /-- The peer asks for a batch again. -/
  | retry (i : Nat) (batch : Nat)

/-- A session goes on. -/
def Node.set (n : Node) (i : Nat) (s : Session) : Node :=
  { n with sessions := fun j => if j = i then s else n.sessions j }

variable (env : Env) (scope : SyncScope) (peerDevice : String)

/-- The daemon answers a session. -/
def Node.serve (n : Node) (i : Nat) : Node :=
  match (n.sessions i).stage with
  | .asked since =>
    match syncChanges env n.daemon since page scope with
    | .error _ => n.set i { n.sessions i with stage := .idle }
    | .ok (_, next, more) =>
      let items := itemsOf env n.daemon scope since next
      Node.set { n with handed := n.handed ++ items } i
        { n.sessions i with stage := .answered since items next more }
  | _ => n

/-- A push goes on with its page: what the peer made itself is not sent, and where
    that is all the cursor moves at once. -/
def Node.send (n : Node) (i : Nat) (sealed : Bool) : Node :=
  let s := n.sessions i
  match s.stage with
  | .answered since items next more =>
    let out := items.filter (fun x => some x.record.deviceId ≠ s.peerDevice)
    if out = [] then
      Node.set { n with cursor := if next ≠ since then next else n.cursor } i
        { s with stage := .idle, wantPush := more }
    else if sealed then
      n.set i { s with
        stage := .idle
        inFlight := some ⟨s.nextBatch, next, more, out⟩
        nextBatch := s.nextBatch + 1 }
    else n.set i { s with stage := .idle }
  | _ => n

/-- The peer's `Applied` reaches a session. -/
def Node.applied (n : Node) (i batch : Nat) : Node :=
  let s := n.sessions i
  match s.inFlight with
  | some flight =>
    if s.stage.isIdle ∧ flight.batch = batch then
      Node.set { n with cursor := flight.next, acked := n.acked ++ flight.items } i
        { s with inFlight := none, wantPush := flight.more || s.wantPush }
    else n
  | none => n

/-- The peer's `Retry` reaches a session. -/
def Node.retry (n : Node) (i batch : Nat) : Node :=
  let s := n.sessions i
  match s.inFlight with
  | some flight =>
    if s.stage.isIdle ∧ flight.batch = batch then n.set i { s with inFlight := none } else n
  | none => n

/-- The loop of a session comes to its push. -/
def Node.ask (n : Node) (i : Nat) (ready : Bool) : Node :=
  let s := n.sessions i
  if s.stage.isIdle ∧ s.wantPush ∧ s.inFlight.isNone ∧ s.peerDevice.isSome then
    n.set i { s with wantPush := false, stage := if ready then .asked n.cursor else .idle }
  else n

/-- One event. -/
def Node.step (n : Node) : Event → Node
  | .write w => { n with daemon := (Op.exec w.request n.daemon).2 }
  | .start i => n.set i Session.new
  | .hello i => n.set i { n.sessions i with peerDevice := some peerDevice, wantPush := true }
  | .wake i => n.set i { n.sessions i with wantPush := true }
  | .ask i ready => n.ask i ready
  | .serve i => n.serve env scope i
  | .send i sealed => n.send i sealed
  | .applied i batch => n.applied i batch
  | .retry i batch => n.retry i batch

/-- A run of a node that has never met the peer. -/
def Node.run (d : Daemon) (events : List Event) : Node :=
  events.foldl (Node.step env scope peerDevice) (Node.start d)

/-! ## §2. What a page holds -/

variable {env scope peerDevice} {d d' : Daemon} {since next : Int} {records : List SyncRecord}
  {done rest : List EntryRow} {told told' : List Item} {r : EntryRow} {record : SyncRecord}

variable {x : Item}

theorem mem_itemsOf : x ∈ itemsOf env d scope since next ↔
    ∃ r ∈ d.db.entries.rows, shown r = true ∧ since < r.cols.changeSeq ∧
      (r.cols.changeSeq : Int) ≤ next ∧ r.cols.changeSeq = x.seq ∧
      offered env d scope r = some x.record := by
  unfold itemsOf
  rw [mem_filterMap]
  constructor
  · rintro ⟨r, hr, hx⟩
    obtain ⟨hmem, hle⟩ := mem_filter.mp hr
    obtain ⟨hrow, hshown, hsince⟩ := mem_changedSince.mp hmem
    obtain ⟨record, hrecord, rfl⟩ := map_eq_some_iff.mp hx
    exact ⟨r, hrow, hshown, hsince, of_decide_eq_true hle, rfl, hrecord⟩
  · rintro ⟨r, hrow, hshown, hsince, hle, hseq, hrecord⟩
    refine ⟨r, mem_filter.mpr ⟨mem_changedSince.mpr ⟨hrow, hshown, hsince⟩,
      decide_eq_true hle⟩, ?_⟩
    rw [hrecord, map_some, hseq]

/-- **What a page holds are the records `sync_changes` answers with.** -/
theorem records_itemsOf {limit : Nat} {more : Bool} (hnum : Numbered d.db)
    (hpage : syncChanges env d since limit scope = .ok (records, next, more)) :
    (itemsOf env d scope since next).map Item.record = records := by
  obtain ⟨done, rest, hof, -⟩ := syncChanges_ok hnum hpage
  -- the rows up to the new cursor are those that were passed
  have hpassed : (changedSince d.db since).filter (fun r => (r.cols.changeSeq : Int) ≤ next)
      = done := by
    rw [hof.split, filter_append, filter_eq_self.mpr, filter_eq_nil_iff.mpr, append_nil]
    · intro r hr hle
      have := hof.next_lt hnum hr
      have := of_decide_eq_true hle
      omega
    · exact fun r hr => decide_eq_true (hof.le_next hnum hr)
  unfold itemsOf
  rw [hpassed, hof.records, map_filterMap]
  refine filterMap_congr fun r _ => ?_
  cases offered env d scope r with
  | none => rfl
  | some record => rfl

/-! ## §3. What was passed -/

/-- The peer was told this, or made it itself. -/
def Told (peerDevice : String) (told : List Item) (x : Item) : Prop :=
  (∃ y ∈ told, y.Same x) ∨ x.record.deviceId = peerDevice

/-- Everything the feed has up to a cursor could be read, and the peer was told it. -/
structure Passed (env : Env) (scope : SyncScope) (peerDevice : String) (d : Daemon)
    (told : List Item) (c : Int) : Prop where
  within : c ≤ d.db.changeSeq
  rows : ∀ r ∈ d.db.entries.rows, shown r = true → (r.cols.changeSeq : Int) ≤ c →
    ∃ x, recordOf env d scope r = .ok x ∧
      ∀ record ∈ x, Told peerDevice told ⟨r.cols.changeSeq, record⟩

theorem offered_of_recordOf {x : Option SyncRecord} (h : recordOf env d scope r = .ok x) :
    offered env d scope r = x := by
  unfold offered
  rw [h]

theorem recordOf_of_offered (h : offered env d scope r = some record) :
    recordOf env d scope r = .ok (some record) := by
  unfold offered at h
  split at h
  next x hx => rw [hx, h]
  next => cases h

/-- What is told stands for every record of the same state. -/
theorem Told.same {y : Item} (h : Told peerDevice told x) (hsame : x.Same y) :
    Told peerDevice told y := by
  rcases h with ⟨z, hz, hzx⟩ | hown
  · exact .inl ⟨z, hz, hzx.1.trans hsame.1, hzx.2.trans hsame.2⟩
  · -- the device is part of the state
    have hdevice : x.record.deviceId = y.record.deviceId :=
      congrArg (fun s : EntryKey × Carried => s.2.deviceId) hsame.2
    exact .inr (hdevice.symm.trans hown)

theorem Passed.mono {c : Int} (h : Passed env scope peerDevice d told c)
    (hsub : ∀ x, Told peerDevice told x → Told peerDevice told' x) :
    Passed env scope peerDevice d told' c where
  within := h.within
  rows r hr hshown hle := by
    obtain ⟨x, hx, htold⟩ := h.rows r hr hshown hle
    exact ⟨x, hx, fun record hrecord => hsub _ (htold record hrecord)⟩

theorem told_append (told told' : List Item) (h : Told peerDevice told x) :
    Told peerDevice (told ++ told') x := by
  rcases h with ⟨y, hy, hsame⟩ | hown
  · exact .inl ⟨y, mem_append_left _ hy, hsame⟩
  · exact .inr hown

/-- What the peer made itself need not be sent. -/
theorem told_filter {items out : List Item}
    (hout : ∀ x ∈ items, x ∉ out → x.record.deviceId = peerDevice)
    (h : Told peerDevice (told ++ items) x) : Told peerDevice (told ++ out) x := by
  rcases h with ⟨y, hy, hsame⟩ | hown
  · rcases mem_append.mp hy with hy | hy
    · exact .inl ⟨y, mem_append_left _ hy, hsame⟩
    · by_cases hmem : y ∈ out
      · exact .inl ⟨y, mem_append_right _ hmem, hsame⟩
      · have hy' : Told peerDevice (told ++ out) y := .inr (hout y hy hmem)
        exact hy'.same hsame
  · exact .inr hown

/-- No row has the number 0. -/
theorem Passed.zero (hnum : Numbered d.db) : Passed env scope peerDevice d told 0 where
  within := by omega
  rows r hr _ hle := by
    have := hnum.pos r hr
    omega

/-- **What the daemon writes** leaves what was passed passed: a row at or before the
    cursor was there, in the same state. -/
theorem Passed.advanced {c : Int} (h : Passed env scope peerDevice d told c)
    (hadv : Advanced (fun _ => False) d d') : Passed env scope peerDevice d' told c where
  within := by
    have := h.within
    have := hadv.counter
    omega
  rows r' hr' hshown hle := by
    have hwithin := h.within
    obtain ⟨r, hr, hsame, hkept⟩ := hadv.recordOf_kept env scope hr' (by omega)
    have hseq : r'.cols.changeSeq = r.cols.changeSeq := hsame.cols.changeSeq
    obtain ⟨x, hx, htold⟩ := h.rows r hr (shown_of_same hsame hshown) (by omega)
    obtain ⟨x', hx', hfiled⟩ := hkept x hx
    refine ⟨x', hx', fun record' hrecord' => ?_⟩
    -- the record was the same but for its times
    rw [mem_def.mp hrecord', map_some] at hfiled
    obtain ⟨record, hrecord, hstate⟩ := map_eq_some_iff.mp hfiled.symm
    exact (htold record hrecord).same ⟨hseq.symm, hstate⟩

/-- **A page goes on from what was passed before it.** -/
theorem Passed.page (h : Passed env scope peerDevice d told since) (hnum : Numbered d.db)
    (hpage : PageOf env d scope since records next done rest) :
    Passed env scope peerDevice d (told ++ itemsOf env d scope since next) next where
  within := (page_of_syncChanges hnum hpage).within h.within
  rows r hr hshown hle := by
    by_cases hold : (r.cols.changeSeq : Int) ≤ since
    · obtain ⟨x, hx, htold⟩ := h.rows r hr hshown hold
      exact ⟨x, hx, fun record hrecord => told_append _ _ (htold record hrecord)⟩
    · have hmem : r ∈ done ++ rest := by
        rw [← hpage.split]
        exact mem_changedSince.mpr ⟨hr, hshown, by omega⟩
      have hdone : r ∈ done := by
        rcases mem_append.mp hmem with hdone | hrest
        · exact hdone
        · have := hpage.next_lt hnum hrest
          omega
      obtain ⟨x, hx⟩ := hpage.loads r hdone
      refine ⟨x, hx, fun record hrecord => .inl ⟨⟨r.cols.changeSeq, record⟩, ?_, rfl, rfl⟩⟩
      refine mem_append_right _ (mem_itemsOf.mpr ⟨r, hr, hshown, by omega, hle, rfl, ?_⟩)
      rw [offered_of_recordOf hx]
      exact hrecord

/-! ## §4. What was handed out -/

/-- A row that still has the number a record was handed out at still has its state. -/
structure Stands (env : Env) (scope : SyncScope) (d : Daemon) (x : Item) : Prop where
  within : x.seq ≤ d.db.changeSeq
  row : ∀ r ∈ d.db.entries.rows, r.cols.changeSeq = x.seq →
    ∃ record, recordOf env d scope r = .ok (some record) ∧ filed record = filed x.record

theorem Stands.advanced (h : Stands env scope d x)
    (hadv : Advanced (fun _ => False) d d') : Stands env scope d' x where
  within := le_trans h.within hadv.counter
  row r' hr' hseq := by
    obtain ⟨r, hr, hsame, hkept⟩ := hadv.recordOf_kept env scope hr' (by rw [hseq]; exact h.within)
    have hseq' : r.cols.changeSeq = x.seq := hsame.cols.changeSeq.symm.trans hseq
    obtain ⟨record, hrecord, hfiled⟩ := h.row r hr hseq'
    obtain ⟨x', hx', hmap⟩ := hkept _ hrecord
    obtain ⟨record', rfl, hstate⟩ := map_eq_some_iff.mp (hmap.trans (map_some record filed))
    exact ⟨record', hx', hstate.trans hfiled⟩

theorem stands_itemsOf (hnum : Numbered d.db)
    (h : x ∈ itemsOf env d scope since next) : Stands env scope d x := by
  obtain ⟨r, hr, -, -, -, hseq, hrecord⟩ := mem_itemsOf.mp h
  refine ⟨hseq ▸ hnum.le r hr, fun r' hr' hseq' => ?_⟩
  -- no two rows have one number
  have hrow : r' = r :=
    inj_on_of_nodup_map hnum.nodup hr' hr (hseq'.trans hseq.symm)
  exact ⟨x.record, hrow ▸ recordOf_of_offered hrecord, rfl⟩

/-! ## §5. Runs -/

/-- What a session may rely on, given what the peer has acknowledged. -/
structure Session.Sound (env : Env) (scope : SyncScope) (peerDevice : String) (d : Daemon)
    (acked : List Item) (s : Session) : Prop where
  device : ∀ device ∈ s.peerDevice, device = peerDevice
  asked : ∀ since, s.stage = .asked since → Passed env scope peerDevice d acked since
  answered : ∀ since items next more, s.stage = .answered since items next more →
    Passed env scope peerDevice d (acked ++ items) next
  flight : ∀ f ∈ s.inFlight, Passed env scope peerDevice d (acked ++ f.items) f.next

/-- What holds at every point of a run. -/
structure Node.Sound (env : Env) (scope : SyncScope) (peerDevice : String) (n : Node) : Prop where
  numbered : Numbered n.daemon.db
  cursor : Passed env scope peerDevice n.daemon n.acked n.cursor
  sessions : ∀ i, (n.sessions i).Sound env scope peerDevice n.daemon n.acked
  handed : ∀ x ∈ n.handed, Stands env scope n.daemon x

variable {n : Node} {s : Session}

theorem Session.sound_new (acked : List Item) : Session.new.Sound env scope peerDevice d acked where
  device := by simp [Session.new]
  asked := by simp [Session.new]
  answered := by simp [Session.new]
  flight := by simp [Session.new]

/-- More acknowledged, the same daemon. -/
theorem Session.Sound.acked (h : s.Sound env scope peerDevice d told)
    (hsub : ∀ x, Told peerDevice told x → Told peerDevice told' x) :
    s.Sound env scope peerDevice d told' where
  device := h.device
  asked since hstage := (h.asked since hstage).mono hsub
  answered since items next more hstage := by
    refine (h.answered since items next more hstage).mono (fun x hx => ?_)
    rcases hx with ⟨y, hy, hsame⟩ | hown
    · rcases mem_append.mp hy with hy | hy
      · exact told_append _ _ (hsub x (.inl ⟨y, hy, hsame⟩))
      · exact .inl ⟨y, mem_append_right _ hy, hsame⟩
    · exact .inr hown
  flight f hf := by
    refine (h.flight f hf).mono (fun x hx => ?_)
    rcases hx with ⟨y, hy, hsame⟩ | hown
    · rcases mem_append.mp hy with hy | hy
      · exact told_append _ _ (hsub x (.inl ⟨y, hy, hsame⟩))
      · exact .inl ⟨y, mem_append_right _ hy, hsame⟩
    · exact .inr hown

theorem Session.Sound.advanced (h : s.Sound env scope peerDevice d told)
    (hadv : Advanced (fun _ => False) d d') : s.Sound env scope peerDevice d' told where
  device := h.device
  asked since hstage := (h.asked since hstage).advanced hadv
  answered since items next more hstage := (h.answered since items next more hstage).advanced hadv
  flight f hf := (h.flight f hf).advanced hadv

/-- One session goes on, the others stay. -/
theorem Node.Sound.set (h : n.Sound env scope peerDevice) (i : Nat)
    (hs : s.Sound env scope peerDevice n.daemon n.acked) :
    (n.set i s).Sound env scope peerDevice where
  numbered := h.numbered
  cursor := h.cursor
  sessions j := by
    show (if j = i then s else n.sessions j).Sound env scope peerDevice n.daemon n.acked
    by_cases hj : j = i
    · rw [if_pos hj]
      exact hs
    · rw [if_neg hj]
      exact h.sessions j
  handed := h.handed

/-- A session whose push is done. -/
theorem Session.Sound.pushed (h : s.Sound env scope peerDevice d told) (want : Bool) :
    Session.Sound env scope peerDevice d told { s with stage := .idle, wantPush := want } where
  device := h.device
  asked := by simp
  answered := by simp
  flight := h.flight

theorem sound_start (hnum : Numbered d.db) : (Node.start d).Sound env scope peerDevice where
  numbered := hnum
  cursor := Passed.zero hnum
  sessions _ := Session.sound_new []
  handed := by simp [Node.start]

theorem sound_write (h : n.Sound env scope peerDevice) (w : Write) :
    Node.Sound env scope peerDevice { n with daemon := (Op.exec w.request n.daemon).2 } := by
  have hadv := w.advances n.daemon
  exact ⟨hadv.numbered h.numbered, h.cursor.advanced hadv,
    fun i => (h.sessions i).advanced hadv, fun x hx => (h.handed x hx).advanced hadv⟩

theorem sound_ask (h : n.Sound env scope peerDevice) (i : Nat) (ready : Bool) :
    (n.ask i ready).Sound env scope peerDevice := by
  unfold Node.ask
  dsimp only
  split
  · refine h.set i ⟨(h.sessions i).device, fun since hstage => ?_, ?_, (h.sessions i).flight⟩
    · -- the cursor that was read is the stored one
      cases ready with
      | true =>
        cases hstage
        exact h.cursor
      | false => cases hstage
    · intro since items next more hstage
      cases ready with
      | true => cases hstage
      | false => cases hstage
  · exact h

theorem sound_serve (h : n.Sound env scope peerDevice) (i : Nat) :
    (n.serve env scope i).Sound env scope peerDevice := by
  unfold Node.serve
  split
  next since hstage =>
    split
    next => exact h.set i ((h.sessions i).pushed (n.sessions i).wantPush)
    next records next more hpage =>
      obtain ⟨done, rest, hof, -⟩ := syncChanges_ok h.numbered hpage
      have hpassed := ((h.sessions i).asked since hstage).page h.numbered hof
      have hbase : Node.Sound env scope peerDevice
          { n with handed := n.handed ++ itemsOf env n.daemon scope since next } := by
        refine ⟨h.numbered, h.cursor, h.sessions, fun x hx => ?_⟩
        rcases mem_append.mp hx with hx | hx
        · exact h.handed x hx
        · exact stands_itemsOf h.numbered hx
      refine hbase.set i ⟨(h.sessions i).device, by simp, ?_, (h.sessions i).flight⟩
      intro since' items' next' more' heq
      cases heq
      exact hpassed
  next => exact h

theorem sound_send (h : n.Sound env scope peerDevice) (i : Nat) (sealed : Bool) :
    (n.send i sealed).Sound env scope peerDevice := by
  unfold Node.send
  dsimp only
  split
  next since items next more hstage =>
    have hs := h.sessions i
    -- what is not sent the peer made itself
    have hown : ∀ x ∈ items,
        x ∉ items.filter (fun x => some x.record.deviceId ≠ (n.sessions i).peerDevice) →
          x.record.deviceId = peerDevice := by
      intro x hx hout
      refine hs.device _ (mem_def.mpr ?_)
      by_contra hne
      exact hout (mem_filter.mpr ⟨hx, decide_eq_true (fun heq => hne heq.symm)⟩)
    have hpassed := (hs.answered since items next more hstage).mono (fun _ hx => told_filter hown hx)
    split
    next hempty =>
      rw [hempty, append_nil] at hpassed
      have hcursor : Passed env scope peerDevice n.daemon n.acked
          (if next ≠ since then next else n.cursor) := by
        split
        · exact hpassed
        · exact h.cursor
      have hbase : Node.Sound env scope peerDevice
          { n with cursor := if next ≠ since then next else n.cursor } :=
        ⟨h.numbered, hcursor, h.sessions, h.handed⟩
      exact hbase.set i (hs.pushed more)
    next =>
      split
      · refine h.set i ⟨hs.device, by simp, by simp, fun f hf => ?_⟩
        cases hf
        exact hpassed
      · exact h.set i (hs.pushed (n.sessions i).wantPush)
  next => exact h

theorem sound_applied (h : n.Sound env scope peerDevice) (i batch : Nat) :
    (n.applied i batch).Sound env scope peerDevice := by
  unfold Node.applied
  dsimp only
  split
  next flight hflight =>
    split
    next =>
      have hsub : ∀ x, Told peerDevice n.acked x → Told peerDevice (n.acked ++ flight.items) x :=
        fun x hx => told_append _ _ hx
      have hbase : Node.Sound env scope peerDevice
          { n with cursor := flight.next, acked := n.acked ++ flight.items } :=
        ⟨h.numbered, (h.sessions i).flight flight hflight,
          fun j => (h.sessions j).acked hsub, h.handed⟩
      have hs := (h.sessions i).acked hsub
      exact hbase.set i ⟨hs.device, hs.asked, hs.answered, by simp⟩
    next => exact h
  next => exact h

theorem sound_retry (h : n.Sound env scope peerDevice) (i batch : Nat) :
    (n.retry i batch).Sound env scope peerDevice := by
  unfold Node.retry
  dsimp only
  split
  next flight _ =>
    split
    next =>
      have hs := h.sessions i
      exact h.set i ⟨hs.device, hs.asked, hs.answered, by simp⟩
    next => exact h
  next => exact h

/-- **Every event keeps it.** -/
theorem step_sound (h : n.Sound env scope peerDevice) (e : Event) :
    (n.step env scope peerDevice e).Sound env scope peerDevice := by
  cases e with
  | write w => exact sound_write h w
  | start i => exact h.set i (Session.sound_new _)
  | hello i =>
    have hs := h.sessions i
    refine h.set i ⟨fun device hdevice => ?_, hs.asked, hs.answered, hs.flight⟩
    cases hdevice
    rfl
  | wake i =>
    have hs := h.sessions i
    exact h.set i ⟨hs.device, hs.asked, hs.answered, hs.flight⟩
  | ask i ready => exact sound_ask h i ready
  | serve i => exact sound_serve h i
  | send i sealed => exact sound_send h i sealed
  | applied i batch => exact sound_applied h i batch
  | retry i batch => exact sound_retry h i batch

/-- **So does every run.** -/
theorem run_sound (hnum : Numbered d.db) (events : List Event) :
    (Node.run env scope peerDevice d events).Sound env scope peerDevice := by
  have hfold : ∀ (events : List Event) (n : Node), n.Sound env scope peerDevice →
      (events.foldl (Node.step env scope peerDevice) n).Sound env scope peerDevice := by
    intro events
    induction events with
    | nil => exact fun _ h => h
    | cons e events ih => exact fun n h => ih _ (step_sound h e)
  exact hfold events _ (sound_start hnum)

/-! ## §6. What a stored cursor says -/

/-- **Session cursors are safe.**  After any run, a record that was handed out at or
    before the stored cursor was acknowledged, or is the peer's own, or its entry is no
    longer at that change number in the feed; and whatever the feed still has at or
    before the cursor was acknowledged or is the peer's own. -/
theorem cursor_safe (env : Env) (scope : SyncScope) (peerDevice : String) (d : Daemon)
    (hnum : Numbered d.db) (events : List Event) :
    let n := Node.run env scope peerDevice d events
    (∀ x ∈ n.handed, (x.seq : Int) ≤ n.cursor →
      (∃ y ∈ n.acked, y.Same x) ∨ x.record.deviceId = peerDevice ∨
        ∀ r ∈ n.daemon.db.entries.rows, r.cols.changeSeq = x.seq → shown r = false) ∧
      ∀ r ∈ n.daemon.db.entries.rows, shown r = true → (r.cols.changeSeq : Int) ≤ n.cursor →
        ∀ record, offered env n.daemon scope r = some record →
          (∃ y ∈ n.acked, y.Same ⟨r.cols.changeSeq, record⟩) ∨ record.deviceId = peerDevice := by
  dsimp only
  have h := @run_sound env scope peerDevice d hnum events
  generalize Node.run env scope peerDevice d events = n at h
  have hfeed : ∀ r ∈ n.daemon.db.entries.rows, shown r = true →
      (r.cols.changeSeq : Int) ≤ n.cursor → ∀ record, offered env n.daemon scope r = some record →
        Told peerDevice n.acked ⟨r.cols.changeSeq, record⟩ := by
    intro r hr hshown hle record hrecord
    obtain ⟨x, hx, htold⟩ := h.cursor.rows r hr hshown hle
    rw [offered_of_recordOf hx] at hrecord
    exact htold record hrecord
  refine ⟨fun x hx hle => ?_, hfeed⟩
  by_cases hgone : ∀ r ∈ n.daemon.db.entries.rows, r.cols.changeSeq = x.seq → shown r = false
  · exact .inr (.inr hgone)
  · -- its row is still there, with the state that was handed out
    push Not at hgone
    obtain ⟨r, hr, hseq, hshown⟩ := hgone
    obtain ⟨record, hrecord, hfiled⟩ := (h.handed x hx).row r hr hseq
    have htold := hfeed r hr (by simpa using hshown) (by omega) record (offered_of_recordOf hrecord)
    rcases htold.same (⟨hseq, hfiled⟩ : Item.Same _ x) with hacked | hown
    · exact .inl hacked
    · exact .inr (.inl hown)

namespace Sample

open Panod.Sample

/-- A text is copied and sent; the phone asks for it again, and before it is sent again
    the text is pinned, with the tick and the stamp that go with it. -/
def retried : List Event :=
  [.write (.capture Panod.Sample.env (captureOf (note [97] 1))), .hello 0, .ask 0 true, .serve 0,
    .send 0 true, .retry 0 1, .write (.pin 1 true), .write .tick, .write (.stamp 1 2 "here"), .wake 0,
    .ask 0 true, .serve 0, .send 0 true, .applied 0 2]

/-- The record that was sent first was handed out before the cursor, was never in a
    batch that was acknowledged, and is not the phone's own. -/
theorem retried_record_is_never_acknowledged :
    ∃ x ∈ (Node.run Panod.Sample.env ⟨false, false⟩ "phone" fresh retried).handed,
      (x.seq : Int) ≤ (Node.run Panod.Sample.env ⟨false, false⟩ "phone" fresh retried).cursor ∧
      (∀ y ∈ (Node.run Panod.Sample.env ⟨false, false⟩ "phone" fresh retried).acked, y ≠ x) ∧
      x.record.deviceId ≠ "phone" := by
  decide +kernel

theorem cursor_safe_of_retried :
    Numbered fresh.db ∧
      ∀ x ∈ (Node.run Panod.Sample.env ⟨false, false⟩ "phone" fresh retried).handed,
        (x.seq : Int) ≤ (Node.run Panod.Sample.env ⟨false, false⟩ "phone" fresh retried).cursor →
        (∃ y ∈ (Node.run Panod.Sample.env ⟨false, false⟩ "phone" fresh retried).acked, y.Same x) ∨
          x.record.deviceId = "phone" ∨
          ∀ r ∈ (Node.run Panod.Sample.env ⟨false, false⟩ "phone" fresh
            retried).daemon.db.entries.rows, r.cols.changeSeq = x.seq → shown r = false :=
  ⟨numbered_empty,
    (cursor_safe Panod.Sample.env ⟨false, false⟩ "phone" fresh numbered_empty retried).1⟩

end Sample

end Panora.Sync
