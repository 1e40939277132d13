/-
  Panora.Panod.Persist — offering an entry again when its owner has gone.

  On a display that drops the content of an application that exits, the daemon puts the
  content back (`persist_after_owner_gone`).  What it puts back is found by a row id,
  `last_stored`, that captures and stores with copy write and that some changes of the
  clipboard do not.

  Events and requests are taken one after another; every one runs in an environment of its
  own, so that time passes and settings change between them.  SQLite gives a new row the
  largest id in use plus one (`Table.insert`), so the id of a row that is purged may pass to
  another entry.

  Main results:
    * `Watching.extended_step` — a deed gives the next number to the entry it writes;
    * `Watching.follows_after` — the history of a run tells whose the remembered row is;
    * `reoffers_known_iff` — when what is offered again is the entry the last change of the
      clipboard known to the daemon put there.
-/
import Panora.Panod.Desktop
import Panora.Panod.Outcome
import Panora.Panod.Succession

namespace Panora.Panod

open Storage Lib

/-! ## §1. Offers -/

/-- The formats of an entry that are offered where one format is asked for; a text request also
    accepts the other plain-text aliases. -/
def onlyFormat (payloads : List MimePayload) : Option String → List MimePayload
  | none => payloads
  | some only =>
    let exact := payloads.filter (fun p => eqIgnoreAsciiCase p.mime only)
    if exact ≠ [] then exact
    else if isTextMime only then
      ((textMimes.findSome? (fun m => payloads.find? (fun p => p.mime = m))).or
        (payloads.find? (fun p => isTextMime p.mime))).toList
    else []

/-- `offer_entry_as`: what of an entry goes to the backend, unless that fails. -/
def offerOf (d : Daemon) (id : Nat) (only : Option String) : Option (List MimePayload) :=
  match loadPayloads d id with
  | .error _ => none
  | .ok payloads =>
    if onlyFormat payloads only = [] then none else some (onlyFormat payloads only)

/-- `Database::touch`: move an entry to the top. -/
def touch (env : Env) (id : Nat) : Request Unit :=
  changeDb (fun db =>
    match db.entries.get id with
    | none => .error (.notFound id)
    | some r =>
      if r.cols.deleted then .error (.notFound id)
      else .ok (db.plainUpdate id (fun c => c.seenAt (max env.now (db.newestOther id + 1)))))

/-! ## §2. Events and requests -/

/-- The daemon while it watches the clipboard. -/
structure Watching where
  daemon : Daemon
  live : Live

/-- A daemon that has just started. -/
def Watching.start (d : Daemon) : Watching := ⟨d, ⟨0, false, fun _ => none⟩⟩

inductive Deed where
  /-- A change that passes the gates. -/
  | captured (env : Env) (data : ClipboardData)
  /-- A change that does not. -/
  | dismissed (selection : Selection)
  /-- `accepted` is what the backend answers to the offer. -/
  | recalled (env : Env) (id : Nat) (only : Option String) (target : Selection) (accepted : Bool)
  /-- A store request, with or without copy. -/
  | stored (env : Env) (data : ClipboardData) (copy accepted : Bool)
  /-- Any other request: deletes, clears, retention, imports, sync. -/
  | segment (s : Segment)
  | ownerGone (persistenceEnabled : Bool) (selection : Selection)
  /-- A delayed clear sets the flag, or takes it back. -/
  | clearing (on : Bool)
  /-- `replaced` says whether the keyring took the fresh key. -/
  | wiped (env : Env) (fresh : Key) (replaced : Bool)

namespace Watching

/-- The entry a recall puts on a selection, unless it fails. -/
def recalls (w : Watching) (id : Nat) (only : Option String) (accepted : Bool) : Option EntryKey :=
  match w.daemon.db.entries.get id with
  | none => none
  | some r =>
    if r.cols.deleted then none
    else if accepted && (offerOf w.daemon id only).isSome then some r.key
    else none

/-- The entry a store request leaves on the clipboard, unless it fails. -/
def copies (accepted : Bool) (daemon : Daemon) (entry : Entry) : Bool :=
  accepted && (offerOf daemon entry.id none).isSome

def step (w : Watching) : Deed → Watching
  | .captured env data =>
    let live := w.live.changed data.selection
    match Op.exec (store env data) w.daemon with
    | (.ok entry, daemon) => ⟨daemon, live.remember data.selection entry.id⟩
    | (.error _, daemon) => ⟨daemon, live⟩
  | .dismissed selection => { w with live := w.live.changed selection }
  | .recalled env id only _ accepted =>
    match w.recalls id only accepted with
    | none => w
    | some _ => ⟨(Op.exec (touch env id) w.daemon).2, w.live.bump⟩
  | .stored env data copy accepted =>
    match Op.exec (store env data) w.daemon with
    | (.ok entry, daemon) =>
      if copy && copies accepted daemon entry then ⟨daemon, w.live.remember .clipboard entry.id⟩
      else ⟨daemon, w.live⟩
    | (.error _, daemon) => ⟨daemon, w.live⟩
  | .segment s => { w with daemon := (Op.exec s.request w.daemon).2 }
  | .ownerGone persistenceEnabled selection =>
    { w with live := (w.live.ownerGone persistenceEnabled selection).2 }
  | .clearing on => { w with live := { w.live with clearing := on } }
  | .wiped env fresh replaced =>
    match Op.exec (wipeStorage env fresh) w.daemon with
    | (.ok _, daemon) =>
      if replaced then ⟨daemon, { w.live with lastStored := fun _ => none }⟩
      else ⟨daemon, w.live⟩
    | (.error _, daemon) => ⟨daemon, w.live⟩

/-- What is offered when the owner of a selection has gone, and the row it is read from. -/
def reoffer (w : Watching) (persistenceEnabled : Bool) (selection : Selection) :
    Option (Nat × List MimePayload) :=
  match (w.live.ownerGone persistenceEnabled selection).1 with
  | none => none
  | some id =>
    match w.daemon.db.entries.get id with
    | none => none
    | some r => if r.cols.deleted then none else (offerOf w.daemon id none).map fun p => (id, p)

end Watching

/-! ## §3. What the daemon knows of a selection -/

/-- What a deed does to a selection, as far as the daemon knows. -/
inductive Put where
  /-- An entry was recorded from it, or stored and put there, and its row remembered. -/
  | remembered (id : Nat) (key : EntryKey)
  | recalled (key : EntryKey)
  /-- Something that was not recorded, or nothing. -/
  | unrecorded
  deriving DecidableEq, Repr

/-- The entry an answer is about. -/
def entryKey (entry : Entry) : EntryKey := ⟨entry.contentHash, entry.selection⟩

/-- What a deed puts on a selection. -/
def Watching.puts (w : Watching) (selection : Selection) : Deed → Option Put
  | .captured env data =>
    if data.selection = selection then
      match (Op.exec (store env data) w.daemon).1 with
      | .ok entry => some (.remembered entry.id (entryKey entry))
      | .error _ => some .unrecorded
    else none
  | .dismissed s => if s = selection then some .unrecorded else none
  | .recalled _ id only target accepted =>
    if target = selection then (w.recalls id only accepted).map .recalled else none
  | .stored env data copy accepted =>
    if selection = .clipboard then
      match Op.exec (store env data) w.daemon with
      | (.ok entry, daemon) =>
        if copy && copies accepted daemon entry then
          some (.remembered entry.id (entryKey entry))
        else none
      | (.error _, _) => none
    else none
  | .ownerGone _ s => if s = selection then some .unrecorded else none
  | .wiped env fresh replaced =>
    match Op.exec (wipeStorage env fresh) w.daemon with
    | (.ok _, _) => if replaced then some .unrecorded else none
    | (.error _, _) => none
  | .segment _ => none
  | .clearing _ => none

/-- The entry a deed writes a row for. -/
def Deed.writes : Deed → Option EntryKey
  | .captured env data => some (keyOf env data)
  | .stored env data _ _ => some (keyOf env data)
  | .segment s => s.writes
  | .dismissed _ | .recalled .. | .ownerGone .. | .clearing _ | .wiped .. => none

/-- A row that was remembered, for which entry, and which entry the number was given to last. -/
structure Remembered where
  id : Nat
  key : EntryKey
  holder : EntryKey
  deriving DecidableEq, Repr

/-- The last change of a selection that was remembered, and the last recall to it since. -/
structure History where
  remembered : Option Remembered
  recalledSince : Option EntryKey
  deriving DecidableEq, Repr

namespace History

def none : History := ⟨Option.none, Option.none⟩

/-- A row is written: the next number passes to its entry. -/
def pass (h : History) (next : Nat) : Option EntryKey → History
  | some k => { h with remembered := h.remembered.map fun m =>
      if m.id = next then { m with holder := k } else m }
  | Option.none => h

def note (h : History) : Option Put → History
  | some (.remembered id key) => ⟨some ⟨id, key, key⟩, Option.none⟩
  | some (.recalled key) => { h with recalledSince := some key }
  | some .unrecorded => none
  | Option.none => h

/-- What the last change put there, if it was recorded. -/
def known (h : History) : Option EntryKey :=
  h.recalledSince.or (h.remembered.map Remembered.key)

variable {h : History} {m : Remembered}

theorem pass_id (h : History) (next : Nat) (written : Option EntryKey) :
    (h.pass next written).remembered.map Remembered.id = h.remembered.map Remembered.id := by
  unfold pass
  split
  · cases h.remembered with
    | none => rfl
    | some m =>
      dsimp only [Option.map]
      split <;> rfl
  · rfl

/-- The entry a number was given to last, after something is written. -/
theorem of_pass {next : Nat} {written : Option EntryKey} {m' : Remembered}
    (hm' : (h.pass next written).remembered = some m') :
    ∃ m, h.remembered = some m ∧ m'.id = m.id ∧
      m'.holder = if m.id = next then written.getD m.holder else m.holder := by
  unfold pass at hm'
  split at hm'
  · obtain ⟨m, hm, rfl⟩ := Option.map_eq_some_iff.mp hm'
    refine ⟨m, hm, ?_⟩
    split
    · exact ⟨rfl, rfl⟩
    · exact ⟨rfl, rfl⟩
  · refine ⟨m', hm', rfl, ?_⟩
    split <;> rfl

theorem known_of_remembered (hm : h.remembered = some m) :
    h.known = some (h.recalledSince.getD m.key) := by
  unfold known
  rw [hm]
  cases h.recalledSince <;> rfl

end History

/-- The history of a selection over a run. -/
def historyFrom (selection : Selection) : Watching → History → List Deed → History
  | _, h, [] => h
  | w, h, deed :: deeds =>
    historyFrom selection (w.step deed)
      ((h.pass w.daemon.db.entries.nextId deed.writes).note (w.puts selection deed)) deeds

/-- The row is the live row of the entry, and these are its payloads. -/
def Shows (d : Daemon) (k : EntryKey) (id : Nat) (payloads : List MimePayload) : Prop :=
  ∃ r, d.db.entries.get id = some r ∧ r.key = k ∧ r.cols.deleted = false ∧
    loadPayloads d id = .ok payloads

/-- After a run, an owner that goes has nothing offered but the payloads of the entry the last
    known change put there. -/
def ReoffersKnown (d : Daemon) (deeds : List Deed) (persistenceEnabled : Bool)
    (selection : Selection) : Prop :=
  ∀ id payloads, (Trace.after Watching.step (.start d) deeds).reoffer persistenceEnabled selection
      = some (id, payloads) →
    ∃ k, (historyFrom selection (.start d) .none deeds).known = some k ∧
      Shows (Trace.after Watching.step (.start d) deeds).daemon k id payloads

/-! ## §4. The remembered row -/

namespace Live

theorem lastStored_forget (l : Live) (s selection : Selection) : (l.forget s).lastStored selection =
    if selection = s then none else l.lastStored selection :=
  Function.update_apply ..

theorem lastStored_remember (l : Live) (s selection : Selection) (id : Nat) :
    (l.remember s id).lastStored selection =
      if selection = s then some id else l.lastStored selection :=
  Function.update_apply ..

theorem lastStored_changed (l : Live) (s selection : Selection) :
    (l.changed s).lastStored selection = if selection = s then none else l.lastStored selection :=
  lastStored_forget l.bump s selection

/-- An owner that goes takes the remembered row along, whatever is done about it. -/
theorem lastStored_ownerGone (persists : Bool) (l : Live) (s : Selection) :
    (l.ownerGone persists s).2.lastStored .clipboard =
      if .clipboard = s then none else l.lastStored .clipboard := by
  unfold ownerGone persistAfterOwnerGone
  dsimp only
  split
  · exact lastStored_forget _ s .clipboard
  · split
    · split
      next hs => exact (if_neg (fun h => hs h.symm)).symm
      · exact lastStored_forget _ s .clipboard
    · exact lastStored_forget _ s .clipboard

/-- The row looked up when an owner has gone. -/
theorem ownerGone_eq_some {persists : Bool} {l : Live} {s : Selection} {id : Nat} :
    (l.ownerGone persists s).1 = some id ↔ s = .clipboard ∧ persists = true ∧
      l.clearing = false ∧ l.lastStored .clipboard = some id := by
  unfold ownerGone persistAfterOwnerGone
  dsimp only [bump]
  cases s <;> cases persists <;> cases l.clearing <;> simp

end Live

/-- A recall writes the times of a row that is there. -/
theorem fewer_touch (env : Env) (id : Nat) : Op.Keeps Fewer (touch env id) := by
  refine keeps_changeDb Fewer.refl fun d db' hrun => ?_
  split at hrun
  · cases hrun
  · split at hrun
    · cases hrun
    · rw [← Except.ok.inj hrun]
      exact fewer_of_mapCols rfl rfl

/-- A wipe leaves nothing. -/
theorem extended_wipeStorage (env : Env) (fresh : Key) :
    Op.Keeps (Extended none) (wipeStorage env fresh) := by
  intro d
  obtain ⟨blobs, -, hrun⟩ := exec_wipeStorage env fresh d
  rw [hrun]
  exact ⟨fun r hr => absurd hr List.not_mem_nil, fun _ b hb => absurd hb List.not_mem_nil⟩

namespace Watching

/-- **A deed leaves the remembered row of the clipboard as what it puts there says**: a recall
    changes nothing. -/
theorem lastStored_step (w : Watching) (deed : Deed) :
    (w.step deed).live.lastStored .clipboard =
      match w.puts .clipboard deed with
      | some (.remembered id _) => some id
      | some .unrecorded => none
      | some (.recalled _) => w.live.lastStored .clipboard
      | none => w.live.lastStored .clipboard := by
  cases deed with
  | captured env data =>
    simp only [step, puts]
    cases hrun : Op.exec (store env data) w.daemon with
    | mk result daemon =>
      cases hsel : data.selection with
      | clipboard =>
        cases result with
        | ok entry => simp [Live.lastStored_remember]
        | error e => simp [Live.lastStored_changed]
      | primary =>
        cases result with
        | ok entry => simp [Live.lastStored_remember, Live.lastStored_changed]
        | error e => simp [Live.lastStored_changed]
  | dismissed s =>
    simp only [step, puts, Live.lastStored_changed]
    cases s <;> rfl
  | recalled env id only target accepted =>
    simp only [step, puts]
    cases w.recalls id only accepted with
    | none => cases target <;> rfl
    | some k => cases target <;> rfl
  | stored env data copy accepted =>
    simp only [step, puts, if_true]
    cases hrun : Op.exec (store env data) w.daemon with
    | mk result daemon =>
      cases result with
      | ok entry =>
        dsimp only
        split
        · simp [Live.lastStored_remember]
        · rfl
      | error e => rfl
  | segment s => rfl
  | ownerGone persists s =>
    simp only [step, puts, Live.lastStored_ownerGone]
    cases s <;> rfl
  | clearing on => rfl
  | wiped env fresh replaced =>
    simp only [step, puts]
    cases hrun : Op.exec (wipeStorage env fresh) w.daemon with
    | mk result daemon =>
      cases result with
      | ok u => cases replaced <;> rfl
      | error e => rfl

theorem daemon_captured (w : Watching) (env : Env) (data : ClipboardData) :
    (w.step (.captured env data)).daemon = (Op.exec (store env data) w.daemon).2 := by
  simp only [step]
  split
  next h => rw [h]
  next h => rw [h]

theorem daemon_stored (w : Watching) (env : Env) (data : ClipboardData) (copy accepted : Bool) :
    (w.step (.stored env data copy accepted)).daemon = (Op.exec (store env data) w.daemon).2 := by
  simp only [step]
  split
  next h =>
    rw [h]
    split <;> rfl
  next h => rw [h]

/-- **A deed gives a number that is free to the entry it writes, and to no other.** -/
theorem extended_step (w : Watching) (deed : Deed) :
    Extended deed.writes w.daemon (w.step deed).daemon := by
  have hsame : Extended none w.daemon w.daemon := (Fewer.refl w.daemon).extended
  cases deed with
  | captured env data =>
    rw [daemon_captured]
    exact extended_store env data w.daemon
  | stored env data copy accepted =>
    rw [daemon_stored]
    exact extended_store env data w.daemon
  | recalled env id only target accepted =>
    simp only [step]
    split
    · exact hsame
    · exact (fewer_touch env id w.daemon).extended
  | segment s => exact extended_segment s w.daemon
  | wiped env fresh replaced =>
    have hwiped := extended_wipeStorage env fresh w.daemon
    simp only [step]
    split
    next h =>
      rw [h] at hwiped
      split <;> exact hwiped
    next h =>
      rw [h] at hwiped
      exact hwiped
  | dismissed | ownerGone | clearing => exact hsame

/-- The entry a capture answers with has the row. -/
theorem row_of_store {env : Env} {data : ClipboardData} {d d' : Daemon} {entry : Entry}
    (h : Op.exec (store env data) d = (.ok entry, d')) {r : EntryRow}
    (hr : d'.db.entries.get entry.id = some r) : r.key = entryKey entry := by
  rw [(exec_store env data d).2.2] at h
  cases hget : (Op.exec (collectGarbage env) (captureState env data d)).2.db.entries.get
      (capturedRow env data d).id with
  | none =>
    rw [exec_getEntry_error hget] at h
    cases h
  | some r' =>
    rw [exec_getEntry_ok hget] at h
    cases h
    have hid : (Database.rowToEntry (Op.exec (collectGarbage env) (captureState env data d)).2.dbCipher
      r').id = (capturedRow env data d).id := (Table.get_eq_some.mp hget).2
    rw [hid, hget] at hr
    cases hr
    rfl

/-- What is remembered is the row of the entry it is remembered for. -/
theorem row_of_puts {w : Watching} {deed : Deed} {id : Nat} {key : EntryKey}
    (h : w.puts .clipboard deed = some (.remembered id key)) {r : EntryRow}
    (hr : (w.step deed).daemon.db.entries.get id = some r) : r.key = key := by
  cases deed with
  | captured env data =>
    rw [daemon_captured] at hr
    simp only [puts] at h
    split at h
    · cases hrun : Op.exec (store env data) w.daemon with
      | mk result daemon =>
        rw [hrun] at h hr
        cases result with
        | ok entry =>
          cases h
          exact row_of_store hrun hr
        | error e => cases h
    · cases h
  | stored env data copy accepted =>
    rw [daemon_stored] at hr
    simp only [puts, if_true] at h
    cases hrun : Op.exec (store env data) w.daemon with
    | mk result daemon =>
      rw [hrun] at h hr
      cases result with
      | ok entry =>
        dsimp only at h
        split at h
        · cases h
          exact row_of_store hrun hr
        · cases h
      | error e => cases h
  | wiped env fresh replaced =>
    simp only [puts] at h
    split at h
    · split at h <;> cases h
    · cases h
  | dismissed | recalled | ownerGone | segment | clearing => simp [puts] at h

/-- What the history says of the remembered row: which it is, and whose. -/
structure Follows (w : Watching) (h : History) : Prop where
  slot : w.live.lastStored .clipboard = h.remembered.map Remembered.id
  holder : ∀ m, h.remembered = some m → ∀ r, w.daemon.db.entries.get m.id = some r →
    r.key = m.holder

/-- **A deed leaves the remembered row as the history notes it.** -/
theorem Follows.step {w : Watching} {h : History} (hw : Follows w h) (deed : Deed) :
    Follows (w.step deed)
      ((h.pass w.daemon.db.entries.nextId deed.writes).note (w.puts .clipboard deed)) := by
  have hext := extended_step w deed
  have hslot := lastStored_step w deed
  -- the number is given away only where no row has it
  have hpass : Follows ⟨(w.step deed).daemon, w.live⟩
      (h.pass w.daemon.db.entries.nextId deed.writes) := by
    refine ⟨hw.slot.trans (History.pass_id ..).symm, fun m' hm' r hr => ?_⟩
    obtain ⟨m, hm, hid, hholder⟩ := History.of_pass hm'
    rw [hid] at hr
    rw [hholder]
    cases hold : w.daemon.db.entries.get m.id with
    | none =>
      obtain ⟨hwrites, hnext⟩ := hext.new_key hold hr
      rw [hwrites, if_pos hnext]
      rfl
    | some r0 =>
      have hlt := Table.id_lt_nextId (Table.get_eq_some.mp hold).1
      rw [(Table.get_eq_some.mp hold).2] at hlt
      rw [if_neg (Nat.ne_of_lt hlt), hext.same_key hold hr]
      exact hw.holder m hm r0 hold
  cases hput : w.puts .clipboard deed with
  | none =>
    rw [hput] at hslot
    exact ⟨hslot.trans hpass.slot, hpass.holder⟩
  | some put =>
    rw [hput] at hslot
    cases put with
    | remembered id key =>
      refine ⟨hslot, fun m hm r hr => ?_⟩
      cases hm
      exact row_of_puts hput hr
    | recalled key => exact ⟨hslot.trans hpass.slot, hpass.holder⟩
    | unrecorded => exact ⟨hslot, fun m hm => by cases hm⟩

/-- **The history of a run tells whose the remembered row is.** -/
theorem follows_after (deeds : List Deed) : ∀ (w : Watching) (h : History), Follows w h →
    Follows (Trace.after step w deeds) (historyFrom .clipboard w h deeds) := by
  induction deeds with
  | nil => exact fun _ _ hw => hw
  | cons deed deeds ih => exact fun w h hw => ih (w.step deed) _ (hw.step deed)

/-- Only a live entry is offered, and what is offered is what it loads. -/
theorem live_of_offerOf {d : Daemon} {id : Nat} {payloads : List MimePayload}
    (h : offerOf d id none = some payloads) :
    ∃ r, d.db.entries.get id = some r ∧ r.cols.deleted = false ∧
      loadPayloads d id = .ok payloads := by
  unfold offerOf at h
  cases hload : loadPayloads d id with
  | error e =>
    rw [hload] at h
    cases h
  | ok loaded =>
    rw [hload] at h
    dsimp only at h
    split at h
    · cases h
    · cases h
      unfold loadPayloads Database.get at hload
      cases hget : d.db.entries.get id with
      | none => simp [hget, Except.bind] at hload
      | some r =>
        refine ⟨r, rfl, ?_, rfl⟩
        cases hdel : r.cols.deleted with
        | false => rfl
        | true => simp [hget, Except.bind, Database.rowToEntry, hdel] at hload

theorem reoffer_eq_some {w : Watching} {persists : Bool} {s : Selection} {id : Nat}
    {payloads : List MimePayload} : w.reoffer persists s = some (id, payloads) ↔
      s = .clipboard ∧ persists = true ∧ w.live.clearing = false ∧
      w.live.lastStored .clipboard = some id ∧ offerOf w.daemon id none = some payloads := by
  unfold reoffer
  constructor
  · intro h
    cases hgone : (w.live.ownerGone persists s).1 with
    | none => simp [hgone] at h
    | some id' =>
      obtain ⟨hs, hpersists, hclearing, hid⟩ := Live.ownerGone_eq_some.mp hgone
      rw [hgone] at h
      dsimp only at h
      split at h
      · cases h
      · split at h
        · cases h
        · obtain ⟨payloads', hoffer, heq⟩ := Option.map_eq_some_iff.mp h
          cases heq
          exact ⟨hs, hpersists, hclearing, hid, hoffer⟩
  · rintro ⟨hs, hpersists, hclearing, hid, hoffer⟩
    rw [Live.ownerGone_eq_some.mpr ⟨hs, hpersists, hclearing, hid⟩]
    obtain ⟨r, hget, hlive, -⟩ := live_of_offerOf hoffer
    simp [hget, hlive, hoffer]

end Watching

/-! ## §5. What is offered again -/

/-- **What is offered again is the entry the last known change put on the clipboard exactly when
    the entry that was given the number of the remembered row last is the one recalled since, or,
    if none was recalled, the one that was remembered**: no other entry was recalled since, and
    the row was not purged and its number given to another. -/
theorem reoffers_known_iff (d : Daemon) (deeds : List Deed) (persistenceEnabled : Bool)
    (selection : Selection) :
    ReoffersKnown d deeds persistenceEnabled selection ↔
      (selection = .clipboard → persistenceEnabled = true →
        (Trace.after Watching.step (.start d) deeds).live.clearing = false →
        ∀ m, (historyFrom .clipboard (.start d) .none deeds).remembered = some m →
          (offerOf (Trace.after Watching.step (.start d) deeds).daemon m.id none).isSome = true →
          m.holder = (historyFrom .clipboard (.start d) .none deeds).recalledSince.getD m.key) := by
  have hfollows := Watching.follows_after deeds (.start d) .none
    ⟨rfl, fun m hm => by cases hm⟩
  constructor
  · intro h hclipboard hpersists hclearing m hm hoffered
    subst hclipboard
    obtain ⟨payloads, hoffer⟩ := Option.isSome_iff_exists.mp hoffered
    have hslot := hfollows.slot
    rw [hm] at hslot
    obtain ⟨k, hk, r, hr, rfl, -⟩ := h m.id payloads
      (Watching.reoffer_eq_some.mpr ⟨rfl, hpersists, hclearing, hslot, hoffer⟩)
    rw [History.known_of_remembered hm] at hk
    rw [Option.some.inj hk]
    exact (hfollows.holder m hm r hr).symm
  · intro h id payloads hreoffer
    obtain ⟨rfl, hpersists, hclearing, hid, hoffer⟩ := Watching.reoffer_eq_some.mp hreoffer
    rw [hfollows.slot] at hid
    obtain ⟨m, hm, rfl⟩ := Option.map_eq_some_iff.mp hid
    obtain ⟨r, hget, hlive, hload⟩ := Watching.live_of_offerOf hoffer
    refine ⟨_, History.known_of_remembered hm, r, hget, ?_, hlive, hload⟩
    rw [hfollows.holder m hm r hget]
    exact h rfl hpersists hclearing m hm (Option.isSome_iff_exists.mpr ⟨payloads, hoffer⟩)

namespace Sample

/-- Two texts are copied, and the first is recalled. -/
def copyCopyRecall : List Deed :=
  [.captured env (copied [97]), .captured env (copied [98]),
    .recalled env 1 none .clipboard true]

/-- A recall is not remembered: when the owner goes, the second text takes the place of the
    first, which was put there last. -/
theorem older_copy_is_offered_again :
    (Trace.after Watching.step (.start fresh) copyCopyRecall).reoffer true .clipboard
      = some (2, [⟨"text/plain", [98]⟩]) ∧
    (historyFrom .clipboard (.start fresh) .none copyCopyRecall).known
      = some (keyOf env (copied [97])) ∧
    loadPayloads (Trace.after Watching.step (.start fresh) copyCopyRecall).daemon 1
      = .ok [⟨"text/plain", [97]⟩] ∧
    ¬ ReoffersKnown fresh copyCopyRecall true .clipboard := by
  have hreoffer : (Trace.after Watching.step (.start fresh) copyCopyRecall).reoffer true
      .clipboard = some (2, [⟨"text/plain", [98]⟩]) := by decide +kernel
  have hknown : (historyFrom .clipboard (.start fresh) .none copyCopyRecall).known
      = some (keyOf env (copied [97])) := by decide +kernel
  have hrow : ((Trace.after Watching.step (.start fresh) copyCopyRecall).daemon.db.entries.get
      2).map Row.key = some (keyOf env (copied [98])) := by decide +kernel
  refine ⟨hreoffer, hknown, by decide +kernel, ?_⟩
  intro h
  obtain ⟨k, hk, r, hr, hkey, -⟩ := h _ _ hreoffer
  rw [hknown] at hk
  rw [hr, Option.map_some, hkey, ← Option.some.inj hk] at hrow
  exact absurd hrow (by decide +kernel)

end Sample

end Panora.Panod
