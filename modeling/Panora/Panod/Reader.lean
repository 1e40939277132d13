/-
  Panora.Panod.Reader — a device that keeps reading the feed.

  The rows of the history are an offer in the sense of `Lib.Feed`: a row stands at
  its change number.  Whatever the daemon does makes a later offer, and a page of the
  feed is a page of the offer, so a reader that resumes from the cursor it was given
  misses nothing, however its pages and the daemon's writes are interleaved.

  Main results:
    * `later_of_advanced` — what writing does to the offer;
    * `page_of_syncChanges` — a page of the feed is a page of the offer;
    * `feed_complete` — a reader that is told there is no more holds the current
      state of every entry that can be sent.
-/
import Panora.Panod.Advance
import Panora.Panod.Sample

namespace Panora.Panod

open Storage Storage.Database Lib List Option Bool

/-! ## §1. The feed as an offer -/

/-- What a record says of the state of its entry. -/
structure Carried where
  lamport : Int
  deviceId : String
  pinned : Bool
  deleted : Bool
  deriving DecidableEq, Repr

/-- The state of a row. -/
def carriedBy (r : EntryRow) : Carried := ⟨r.cols.lamport, r.cols.deviceId, r.cols.pinned, r.cols.deleted⟩

/-- A record as a reader files it. -/
def filed (record : SyncRecord) : EntryKey × Carried :=
  (record.key, ⟨record.lamport, record.deviceId, record.pinned, record.deleted⟩)

/-- A row of which the feed makes a record: it is shown and in scope, and its
    payloads can be read and sent. -/
def Eligible (env : Env) (d : Daemon) (scope : SyncScope) (r : EntryRow) : Prop :=
  shown r = true ∧ scope.includes r.cols.kind r.cols.pinned r.cols.deleted = true ∧
    ∃ payloads, payloadsOf d r = .ok payloads ∧ sendable env r payloads = true

variable {env : Env} {d d' : Daemon} {scope : SyncScope} {limit : Nat} {since : Int}
  {r r' : EntryRow} {record : SyncRecord}

/-- What is offered is the record of the row. -/
theorem offered_eq_some : offered env d scope r = some record ↔
    scope.includes r.cols.kind r.cols.pinned r.cols.deleted = true ∧
      ∃ payloads, payloadsOf d r = .ok payloads ∧ sendable env r payloads = true ∧
        recordWith r payloads = record := by
  unfold offered recordOf
  by_cases hscope : scope.includes r.cols.kind r.cols.pinned r.cols.deleted = true
  · rw [if_pos hscope]
    cases hpayloads : payloadsOf d r with
    | error e => simp [Except.map]
    | ok payloads =>
      by_cases hsend : sendable env r payloads = true
      · simp [Except.map, hsend, hscope]
      · simp [Except.map, hsend]
  · rw [if_neg hscope]
    simp [hscope]

/-- A row of which the feed makes a record, and the record it files. -/
theorem eligible_iff : Eligible env d scope r ↔
    shown r = true ∧ ∃ record, offered env d scope r = some record := by
  unfold Eligible
  refine and_congr_right (fun _ => ?_)
  constructor
  · rintro ⟨hscope, payloads, hpayloads, hsend⟩
    exact ⟨recordWith r payloads, offered_eq_some.mpr ⟨hscope, payloads, hpayloads, hsend, rfl⟩⟩
  · rintro ⟨record, hrecord⟩
    obtain ⟨hscope, payloads, hpayloads, hsend, -⟩ := offered_eq_some.mp hrecord
    exact ⟨hscope, payloads, hpayloads, hsend⟩

theorem filed_of_offered (h : offered env d scope r = some record) :
    filed record = (r.key, carriedBy r) := by
  obtain ⟨-, payloads, -, -, rfl⟩ := offered_eq_some.mp h
  rfl

/-- The row at a position of the feed, if one is there that can be sent. -/
def rowAt (env : Env) (d : Daemon) (scope : SyncScope) (p : Int) : Option EntryRow :=
  d.db.entries.rows.find?
    (fun r => r.cols.changeSeq = p && shown r && (offered env d scope r).isSome)

theorem rowAt_eq_some (hnum : Numbered d.db) {p : Int} : rowAt env d scope p = some r ↔
    r ∈ d.db.entries.rows ∧ r.cols.changeSeq = p ∧ Eligible env d scope r := by
  unfold rowAt
  rw [eligible_iff, ← isSome_iff_exists]
  constructor
  · intro h
    have hr := find?_some h
    rw [and_eq_true, and_eq_true, decide_eq_true_iff] at hr
    exact ⟨mem_of_find?_eq_some h, hr.1.1, hr.1.2, hr.2⟩
  · rintro ⟨hr, hseq, hshown, hoffered⟩
    -- numbers are distinct, so no other row is found before it
    cases hfind : d.db.entries.rows.find?
        (fun r => r.cols.changeSeq = p && shown r && (offered env d scope r).isSome) with
    | none =>
      have := find?_eq_none.mp hfind r hr
      rw [hshown, hoffered] at this
      exact absurd hseq (by simpa using this)
    | some r' =>
      have hr' := find?_some hfind
      rw [and_eq_true, and_eq_true, decide_eq_true_iff] at hr'
      have hsame : r'.cols.changeSeq = r.cols.changeSeq := by
        have := hr'.1.1
        omega
      rw [inj_on_of_nodup_map hnum.nodup (mem_of_find?_eq_some hfind) hr hsame]

/-- The feed of a daemon: at each change number, the state of the row that has it. -/
def offer (env : Env) (d : Daemon) (scope : SyncScope) (hnum : Numbered d.db) :
    Feed.Offer Int EntryKey Carried where
  counter := d.db.changeSeq
  item p := (rowAt env d scope p).map (fun r => (r.key, carriedBy r))
  bounded p x h := by
    obtain ⟨r, hrow, -⟩ := map_eq_some_iff.mp h
    obtain ⟨hr, hseq, -⟩ := (rowAt_eq_some hnum).mp hrow
    have := hnum.le r hr
    omega
  once p q x y hp hq hkey := by
    obtain ⟨r, hrow, rfl⟩ := map_eq_some_iff.mp hp
    obtain ⟨r', hrow', rfl⟩ := map_eq_some_iff.mp hq
    obtain ⟨hr, hseq, -⟩ := (rowAt_eq_some hnum).mp hrow
    obtain ⟨hr', hseq', -⟩ := (rowAt_eq_some hnum).mp hrow'
    -- a key has one row
    have := inj_on_of_nodup_map d.db.entries.keysNodup hr hr' hkey
    rw [← hseq, ← hseq', this]

theorem item_offer {hnum : Numbered d.db} {p : Int} {x : EntryKey × Carried} :
    (offer env d scope hnum).item p = some x ↔
      ∃ r ∈ d.db.entries.rows, r.cols.changeSeq = p ∧ Eligible env d scope r ∧
        (r.key, carriedBy r) = x := by
  show (rowAt env d scope p).map _ = some x ↔ _
  rw [map_eq_some_iff]
  constructor
  · rintro ⟨r, hrow, heq⟩
    obtain ⟨hr, hseq, hel⟩ := (rowAt_eq_some hnum).mp hrow
    exact ⟨r, hr, hseq, hel, heq⟩
  · rintro ⟨r, hr, hseq, hel, heq⟩
    exact ⟨r, (rowAt_eq_some hnum).mpr ⟨hr, hseq, hel⟩, heq⟩

/-! ## §2. Writing and reading -/

/-- A row that is shown was shown: a secret stays a secret. -/
theorem shown_of_same (hsame : SameRow r r') (h : shown r' = true) : shown r = true := by
  unfold shown at h ⊢
  rw [and_eq_true, not_eq_true', not_eq_true', hsame.cols.deleted,
    hsame.cols.deletedAt] at h
  rw [and_eq_true, not_eq_true', not_eq_true']
  refine ⟨?_, h.2⟩
  cases hsecret : r.cols.sensitive with
  | false => rfl
  | true =>
    rw [hsame.cols.sensitive hsecret] at h
    exact absurd h.1 (by simp)

/-- A row whose number is not new was as eligible as it is. -/
theorem eligible_of_kept (hsame : SameRow r r') (hpayloads : payloadsOf d' r' = payloadsOf d r)
    (h : Eligible env d' scope r') : Eligible env d scope r := by
  obtain ⟨hshown, hscope, payloads, hload, hsend⟩ := h
  refine ⟨shown_of_same hsame hshown, ?_, payloads, by rw [← hpayloads]; exact hload, ?_⟩
  · rw [hsame.cols.kind, hsame.cols.pinned, hsame.cols.deleted] at hscope
    exact hscope
  · unfold sendable at hsend ⊢
    rw [hsame.cols.deleted, hsame.key] at hsend
    exact hsend

/-- A row whose number is not new, and that could be read, is read as it was. -/
theorem Advanced.recordOf_kept (h : Advanced (fun _ => False) d d') (env : Env)
    (scope : SyncScope) (hr' : r' ∈ d'.db.entries.rows) (hle : r'.cols.changeSeq ≤ d.db.changeSeq) :
    ∃ r ∈ d.db.entries.rows, SameRow r r' ∧ ∀ x, recordOf env d scope r = .ok x →
      ∃ x', recordOf env d' scope r' = .ok x' ∧ x'.map filed = x.map filed := by
  obtain ⟨r, hr, hsame, hpayloads⟩ := h.payloads_kept hr' hle
  refine ⟨r, hr, hsame, fun x hx => ?_⟩
  have hscope : scope.includes r'.cols.kind r'.cols.pinned r'.cols.deleted
      = scope.includes r.cols.kind r.cols.pinned r.cols.deleted := by
    rw [hsame.cols.kind, hsame.cols.pinned, hsame.cols.deleted]
  unfold recordOf at hx ⊢
  rw [hscope]
  by_cases hin : scope.includes r.cols.kind r.cols.pinned r.cols.deleted = true
  · rw [if_pos hin] at hx ⊢
    obtain ⟨payloads, hread, rfl⟩ := Fallible.map_ok_iff.mp hx
    rw [hpayloads payloads hread]
    refine ⟨_, rfl, ?_⟩
    have hsend : sendable env r' payloads = sendable env r payloads := by
      unfold sendable
      rw [hsame.cols.deleted, hsame.key]
    have hfiled : filed (recordWith r' payloads) = filed (recordWith r payloads) := by
      show (r'.key, carriedBy r') = (r.key, carriedBy r)
      rw [carriedBy, carriedBy, hsame.key, hsame.cols.lamport, hsame.cols.deviceId,
        hsame.cols.pinned, hsame.cols.deleted]
    show Option.map filed (if sendable env r' payloads then some (recordWith r' payloads) else none)
      = _
    rw [hsend]
    split
    · exact congrArg some hfiled
    · rfl
  · rw [if_neg hin] at hx ⊢
    cases hx
    exact ⟨none, rfl, rfl⟩

/-- **What the daemon does makes a later offer.** -/
theorem later_of_advanced (h : Advanced (fun _ => False) d d') (hint : Intact d)
    (hnum : Numbered d.db) :
    Feed.Later (offer env d scope hnum) (offer env d' scope (h.numbered hnum)) where
  counter := by
    have := h.counter
    show (d.db.changeSeq : Int) ≤ d'.db.changeSeq
    omega
  item p x hp hx := by
    obtain ⟨r', hr', hseq, hel, heq⟩ := item_offer.mp hx
    have hp : p ≤ (d.db.changeSeq : Int) := hp
    obtain ⟨r, hr, hsame, hpayloads⟩ := h.offered_kept hint hr' (by omega)
    refine item_offer.mpr ⟨r, hr, ?_, eligible_of_kept hsame hpayloads hel, ?_⟩
    · rw [← hseq, hsame.cols.changeSeq]
    · rw [← heq, carriedBy, carriedBy, hsame.key, hsame.cols.lamport, hsame.cols.deviceId,
        hsame.cols.pinned, hsame.cols.deleted]

variable {records : List SyncRecord} {next : Int} {more : Bool} {done rest : List EntryRow}

/-- **A page of the feed is a page of the offer.** -/
theorem page_of_syncChanges (hnum : Numbered d.db)
    (h : PageOf env d scope since records next done rest) :
    Feed.Page (offer env d scope hnum) since (records.map filed) next where
  forward := h.since_le
  within hwithin := by
    show next ≤ (d.db.changeSeq : Int)
    rcases cursorAfter_eq since done with ⟨-, hcursor⟩ | ⟨last, hlast, hcursor⟩
    · rw [h.next, hcursor]
      exact hwithin
    · rw [h.next, hcursor]
      have hmem : last ∈ changedSince d.db since := by
        rw [h.split]
        exact mem_append_left rest (mem_of_getLast? hlast)
      have := hnum.le last (mem_changedSince.mp hmem).1
      omega
  complete p x hp hle hx := by
    obtain ⟨r, hr, hseq, hel, rfl⟩ := item_offer.mp hx
    obtain ⟨hshown, record, hrecord⟩ := eligible_iff.mp hel
    have hmem : r ∈ done ++ rest := by
      rw [← h.split]
      exact mem_changedSince.mpr ⟨hr, hshown, by omega⟩
    rcases mem_append.mp hmem with hdone | hrest
    · rw [← filed_of_offered hrecord]
      refine mem_map_of_mem ?_
      rw [h.records]
      exact mem_filterMap.mpr ⟨r, hdone, hrecord⟩
    · have := h.next_lt hnum hrest
      omega
  sound x hx := by
    obtain ⟨record, hmem, rfl⟩ := mem_map.mp hx
    rw [h.records] at hmem
    obtain ⟨r, hdone, hrecord⟩ := mem_filterMap.mp hmem
    have hrow : r ∈ changedSince d.db since := by
      rw [h.split]
      exact mem_append_left rest hdone
    obtain ⟨hr, hshown, hsince⟩ := mem_changedSince.mp hrow
    refine ⟨r.cols.changeSeq, hsince, h.le_next hnum hdone, item_offer.mpr ⟨r, hr, rfl, ?_, ?_⟩⟩
    · exact eligible_iff.mpr ⟨hshown, record, hrecord⟩
    · exact (filed_of_offered hrecord).symm

/-- Where every row after the cursor can be read, a page can be made. -/
theorem syncChanges_ok_of_loads (hnum : Numbered d.db) (env : Env) (since : Int) (limit : Nat)
    (scope : SyncScope)
    (h : ∀ r ∈ changedSince d.db since, ∃ record, recordOf env d scope r = .ok record) :
    ∃ records next more, syncChanges env d since limit scope = .ok (records, next, more) := by
  cases hpage : syncChanges env d since limit scope with
  | ok page => exact ⟨page.1, page.2.1, page.2.2, rfl⟩
  | error e =>
    obtain ⟨r, hr, herror⟩ := syncChanges_error hnum hpage
    obtain ⟨record, hrecord⟩ := h r hr
    rw [hrecord] at herror
    cases herror

/-- With every blob readable, a page can always be made. -/
theorem Intact.syncChanges_ok (hint : Intact d) (hnum : Numbered d.db) (env : Env) (since : Int)
    (limit : Nat) (scope : SyncScope) :
    ∃ records next more, syncChanges env d since limit scope = .ok (records, next, more) :=
  syncChanges_ok_of_loads hnum env since limit scope
    (fun _ hr => hint.recordOf_ok env scope (mem_changedSince.mp hr).1)

/-! ## §3. Runs -/

/-- What writes to the history. -/
inductive Write where
  /-- A capture: an insert, a re-copy or a revival, with its stamp and payloads. -/
  | capture (env : Env) (data : ClipboardData)
  | thumbnail (env : Env) (id : Nat) (png : Bytes)
  | pin (id : Nat) (pinned : Bool)
  | tombstone (id : Nat) (now : Int)
  | restore (id : Nat)
  | tick
  | stamp (id : Nat) (lamport : Int) (deviceId : String)
  | setTimes (id : Nat) (createdAt lastSeenAt : Int)
  | remoteState (id : Nat) (pinned : Bool) (createdAt lastSeenAt lamport : Int)
      (deviceId : String)
  | remoteRecord (env : Env) (record : SyncRecord)
  | strip (env : Env)
  | purge (before : Int)
  | retention (env : Env)
  | wipe (env : Env) (fresh : Key)

/-- The statements behind it. -/
def Write.request : Write → Request Unit
  | .capture env data => do let _ ← storeRow env data
  | .thumbnail env id png => storeThumbnail env id (some png)
  | .pin id pinned => changeDb (fun db => db.setPinned id pinned)
  | .tombstone id now => do let _ ← onDb (fun db => db.tombstone id now)
  | .restore id => restoreRow id
  | .tick => do let _ ← updateDb tickLamport
  | .stamp id lamport deviceId => changeDb (fun db => db.stamp id lamport deviceId)
  | .setTimes id createdAt lastSeenAt => changeDb (fun db => db.setTimes id createdAt lastSeenAt)
  | .remoteState id pinned createdAt lastSeenAt lamport deviceId =>
    changeDb (fun db => db.applyRemoteState id pinned createdAt lastSeenAt lamport deviceId)
  | .remoteRecord env record => do let _ ← applyRecord env record
  | .strip env => stripDeleted env
  | .purge before => purgeTombstonedBefore before
  | .retention env => do let _ ← collectGarbage env
  | .wipe env fresh => wipeStorage env fresh

/-- **Every write advances the feed.** -/
theorem Write.advances (w : Write) : Advances (fun _ => False) w.request := by
  cases w with
  | capture env data => exact advances_bind (advances_storeRow env data) fun _ => advances_pure ()
  | thumbnail env id png => exact advances_thumbnail env id png
  | pin id pinned => exact advances_tracked id _
  | tombstone id now => exact advances_bind (advances_tombstone id now) fun _ => advances_pure ()
  | restore id => exact advances_restoreRow id
  | tick => exact advances_bind advances_tickLamport fun _ => advances_pure ()
  | stamp id lamport deviceId => exact advances_tracked id _
  | setTimes id createdAt lastSeenAt => exact advances_setTimes id createdAt lastSeenAt
  | remoteState id pinned createdAt lastSeenAt lamport deviceId =>
    exact advances_tracked id _
  | remoteRecord env record =>
    exact advances_bind (advances_applyRecord env record) fun _ => advances_pure ()
  | strip env => exact advances_stripDeleted env
  | purge before => exact advances_purgeTombstonedBefore before
  | retention env => exact advances_bind (advances_collectGarbage env) fun _ => advances_pure ()
  | wipe env fresh => exact advances_wipeStorage env fresh

/-- What happens to a history that is being read. -/
inductive Event where
  | write (w : Write)
  | read (limit : Nat)

/-- A history and the device that reads it. -/
structure Session where
  daemon : Daemon
  reader : Feed.Reader Int EntryKey Carried

/-- A device that has read nothing. -/
def Session.start (d : Daemon) : Session := ⟨d, ⟨0, fun _ => none⟩⟩

/-- One event.  The reader resumes from the cursor it was last given. -/
def Session.step (env : Env) (scope : SyncScope) (s : Session) : Event → Session
  | .write w => { s with daemon := (Op.exec w.request s.daemon).2 }
  | .read limit =>
    match syncChanges env s.daemon s.reader.cursor limit scope with
    | .ok (records, next, _) => { s with reader := s.reader.take (records.map filed) next }
    | .error _ => s

/-- A run. -/
def Session.run (env : Env) (scope : SyncScope) (d : Daemon) (events : List Event) : Session :=
  events.foldl (Session.step env scope) (Session.start d)

/-- What holds at every point of a run. -/
structure Session.Sound (env : Env) (scope : SyncScope) (s : Session) : Prop where
  numbered : Numbered s.daemon.db
  intact : Intact s.daemon
  upToDate : Feed.UpToDate (offer env s.daemon scope numbered) s.reader

theorem Session.sound_start (hnum : Numbered d.db) (hint : Intact d) :
    (Session.start d).Sound env scope where
  numbered := hnum
  intact := hint
  upToDate := by
    refine ⟨?_, fun p x hp hx => ?_⟩
    · show (0 : Int) ≤ d.db.changeSeq
      omega
    · -- no row has the number 0
      obtain ⟨r, hr, hseq, -⟩ := item_offer.mp hx
      have hp : p ≤ 0 := hp
      have := hnum.pos r hr
      omega

/-- One event keeps it, and only advances the history. -/
theorem Session.step_sound {s : Session} (h : s.Sound env scope) (e : Event) :
    (s.step env scope e).Sound env scope ∧
      Advanced (fun _ => False) s.daemon (s.step env scope e).daemon := by
  cases e with
  | write w =>
    have hadv := w.advances s.daemon
    exact ⟨⟨hadv.numbered h.numbered, hadv.intact h.intact,
      h.upToDate.later (later_of_advanced hadv h.intact h.numbered)⟩, hadv⟩
  | read limit =>
    obtain ⟨records, next, more, hpage⟩ :=
      h.intact.syncChanges_ok h.numbered env s.reader.cursor limit scope
    obtain ⟨done, rest, hof, -⟩ := syncChanges_ok h.numbered hpage
    have hstep : s.step env scope (.read limit)
        = { s with reader := s.reader.take (records.map filed) next } := by
      unfold Session.step
      simp only [hpage]
    rw [hstep]
    exact ⟨⟨h.numbered, h.intact, h.upToDate.page (page_of_syncChanges h.numbered hof)⟩,
      Advanced.refl s.daemon⟩

/-- So does a run of them. -/
theorem Session.foldl_sound (events : List Event) : ∀ {s : Session}, s.Sound env scope →
    (events.foldl (Session.step env scope) s).Sound env scope ∧
      Advanced (fun _ => False) s.daemon (events.foldl (Session.step env scope) s).daemon := by
  induction events with
  | nil => exact fun {s} h => ⟨h, Advanced.refl s.daemon⟩
  | cons e events ih =>
    intro s h
    obtain ⟨hsound, hadv⟩ := Session.step_sound h e
    obtain ⟨hsound', hadv'⟩ := ih hsound
    exact ⟨hsound', hadv.trans hadv'⟩

/-- A reader that was told there is no more holds the state of every row that can be
    sent. -/
theorem Session.Sound.got_all {s : Session} (h : s.Sound env scope)
    (hpage : syncChanges env s.daemon s.reader.cursor limit scope = .ok (records, next, false))
    (hr : r ∈ s.daemon.db.entries.rows) (hel : Eligible env s.daemon scope r) :
    (s.reader.take (records.map filed) next).got r.key = some (carriedBy r) := by
  obtain ⟨done, rest, hof, hmore⟩ := syncChanges_ok h.numbered hpage
  have hrest : rest = [] := by
    by_contra hne
    exact absurd (hmore.mpr hne) (by simp)
  -- every row that can be sent stands at or before the new cursor
  have hle : (r.cols.changeSeq : Int) ≤ next := by
    by_cases hold : (r.cols.changeSeq : Int) ≤ s.reader.cursor
    · exact le_trans hold hof.since_le
    · have hmem : r ∈ done ++ rest := by
        rw [← hof.split]
        exact mem_changedSince.mpr ⟨hr, hel.1, by omega⟩
      rw [hrest, append_nil] at hmem
      exact hof.le_next h.numbered hmem
  exact (h.upToDate.page (page_of_syncChanges h.numbered hof)).holds r.cols.changeSeq
    (r.key, carriedBy r) hle (item_offer.mpr ⟨r, hr, rfl, hel, rfl⟩)

/-- **Feed completeness.**  However writes and pages are interleaved: change numbers
    are distinct, never beyond the counter and never used for another state again; a
    page can always be read; its cursor advances where there is more; and where there
    is no more, the last record the reader got for each row that can be sent has the
    row's state. -/
theorem feed_complete (env : Env) (scope : SyncScope) (d : Daemon) (hnum : Numbered d.db)
    (hint : Intact d) (events : List Event) :
    let s := Session.run env scope d events
    Numbered s.daemon.db ∧
      (∀ later, let s' := Session.run env scope d (events ++ later)
        s.daemon.db.changeSeq ≤ s'.daemon.db.changeSeq ∧
          ∀ r' ∈ s'.daemon.db.entries.rows, r'.cols.changeSeq ≤ s.daemon.db.changeSeq →
            ∃ r ∈ s.daemon.db.entries.rows, SameRow r r') ∧
      ∀ limit, ∃ records next more,
        syncChanges env s.daemon s.reader.cursor limit scope = .ok (records, next, more) ∧
          (more = true → s.reader.cursor < next) ∧
          (more = false → ∀ r ∈ s.daemon.db.entries.rows, Eligible env s.daemon scope r →
            (s.reader.take (records.map filed) next).got r.key = some (carriedBy r)) := by
  dsimp only
  obtain ⟨hsound, -⟩ := Session.foldl_sound events (Session.sound_start hnum hint)
  have hsound : (Session.run env scope d events).Sound env scope := hsound
  refine ⟨hsound.numbered, fun later => ?_, fun limit => ?_⟩
  · have happend : Session.run env scope d (events ++ later)
        = later.foldl (Session.step env scope) (Session.run env scope d events) :=
      foldl_append
    rw [happend]
    obtain ⟨-, hadv⟩ := Session.foldl_sound later hsound
    refine ⟨hadv.counter, fun r' hr' hle => ?_⟩
    obtain ⟨r, hr, hsame, -⟩ := hadv.kept r' hr' hle
    exact ⟨r, hr, hsame⟩
  · obtain ⟨records, next, more, hpage⟩ :=
      hsound.intact.syncChanges_ok hsound.numbered env _ limit scope
    refine ⟨records, next, more, hpage, fun hmore => ?_, fun hmore r hr hel => ?_⟩
    · obtain ⟨done, rest, hof, hiff⟩ := syncChanges_ok hsound.numbered hpage
      refine hof.since_lt (hof.progress (fun hnil => ?_))
      rw [hof.split] at hnil
      exact hiff.mp hmore (append_eq_nil_iff.mp hnil).2
    · rw [hmore] at hpage
      exact hsound.got_all hpage hr hel

/-- A history with nothing in it has no blob that cannot be read. -/
theorem intact_fresh : Intact Sample.fresh :=
  ⟨fun _ hf => absurd hf (by simp [Sample.fresh, BlobStore.empty]),
    fun _ hb => absurd hb (by simp [Sample.fresh, empty])⟩

/-- A text is copied, read, pinned and deleted. -/
theorem feed_complete_of_fresh :
    Numbered Sample.fresh.db ∧ Intact Sample.fresh ∧
      ∃ records next more, syncChanges Sample.env
        (Session.run Sample.env ⟨false, false⟩ Sample.fresh
          [.write (.capture Sample.env (captureOf (Sample.note [104, 105] 3))), .read 32,
            .write (.pin 1 true), .write (.tombstone 1 1700000000)]).daemon
        (Session.run Sample.env ⟨false, false⟩ Sample.fresh
          [.write (.capture Sample.env (captureOf (Sample.note [104, 105] 3))), .read 32,
            .write (.pin 1 true), .write (.tombstone 1 1700000000)]).reader.cursor 32
        ⟨false, false⟩ = .ok (records, next, more) := by
  refine ⟨numbered_empty, intact_fresh, ?_⟩
  obtain ⟨records, next, more, hpage, -⟩ := (feed_complete Sample.env ⟨false, false⟩ Sample.fresh
    numbered_empty intact_fresh _).2.2 32
  exact ⟨records, next, more, hpage⟩

/-- **An upgraded history is read in full.**  The migration to version 5 of the schema numbers
    rows that never had a number.  However writes and pages are interleaved after it, a page can
    be read, and where there is no more the reader has the state of every row that can be sent. -/
theorem upgraded_feed_complete (env : Env) (scope : SyncScope) (d : Daemon)
    (hids : ∀ r ∈ d.db.entries.rows, 0 < r.id) (hint : Intact d) (events : List Event) (limit : Nat) :
    let s := Session.run env scope { d with db := d.db.migrateChangeSeq } events
    ∃ records next more,
      syncChanges env s.daemon s.reader.cursor limit scope = .ok (records, next, more) ∧
        (more = false → ∀ r ∈ s.daemon.db.entries.rows, Eligible env s.daemon scope r →
          (s.reader.take (records.map filed) next).got r.key = some (carriedBy r)) := by
  -- the blobs are as they were, and the reader starts before the first number
  have hstart : (Session.start { d with db := d.db.migrateChangeSeq }).Sound env scope :=
    Session.sound_start (numbered_migrateChangeSeq hids) ⟨hint.opens, hint.there⟩
  obtain ⟨hsound, -⟩ := Session.foldl_sound events hstart
  obtain ⟨records, next, more, hpage⟩ :=
    hsound.intact.syncChanges_ok hsound.numbered env _ limit scope
  refine ⟨records, next, more, hpage, fun hmore r hr hel => ?_⟩
  rw [hmore] at hpage
  exact hsound.got_all hpage hr hel

/-- A history with a text in it. -/
def beforeUpgrade : Daemon :=
  (Op.exec (store Sample.env (captureOf (Sample.note [104] 3))) Sample.fresh).2

theorem upgraded_feed_complete_note : ∃ records next more,
    syncChanges Sample.env { beforeUpgrade with db := beforeUpgrade.db.migrateChangeSeq } 0 32
      ⟨false, false⟩ = .ok (records, next, more) := by
  have hadv : Advanced (fun _ => False) Sample.fresh beforeUpgrade := advances_store _ _ _
  obtain ⟨records, next, more, hpage, -⟩ := upgraded_feed_complete Sample.env ⟨false, false⟩
    beforeUpgrade (by decide +kernel) (hadv.intact intact_fresh) [] 32
  exact ⟨records, next, more, hpage⟩

end Panora.Panod
