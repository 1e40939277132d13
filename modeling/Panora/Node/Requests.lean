/-
  Panora.Node.Requests — requests of a node that run side by side.

  Every control connection is a task of its own, and so is every session and every
  pairing.  A task holds the state's lock for one function of `Panora.Node.State` at a
  time; between two of them it waits for the network or the user, and any other task may
  run.  A step here is one such function; a run is any list of steps.

  A join keeps, while it waits, the joiner it began with: the identity of that moment.  An
  admission keeps the copy of the group it was made on.

  Who may pair, and when, is left open (`answer` takes any window, `approve` comes at any
  time): every run of the node is a run here.

  A run leaves a log of events.

  Main result: `World.step_happens` — all that one step can do.
-/
import Panora.Lib.Since
import Panora.Node.State

namespace Panora.Node

open Panora.Group
open Panora.Pairing (PairCrypto Joiner Inviter PairMessage PairingWindow Block Invitation)

/-! ## §1. Steps -/

/-- A join request under way. -/
inductive Join where
  /-- It passed `check_can_join`, and looks for the inviting device or dials it. -/
  | allowed
  /-- It talks to the inviting device. -/
  | running (joiner : Joiner)
  deriving DecidableEq

/-- A pairing under way on the inviting side. -/
inductive Admission where
  | answering (inviter : Inviter)
  /-- It was approved on a copy, and the welcome is being written. -/
  | welcoming (roster : Roster) (admitted : GroupState)
  deriving DecidableEq

/-- The state, and the tasks that wait. -/
structure World where
  state : SyncState
  joins : Nat → Option Join
  admissions : Nat → Option Admission

/-- A node that has just started. -/
def World.start (state : SyncState) : World := ⟨state, fun _ => none, fun _ => none⟩

/-- What a node is configured with. -/
structure Config where
  deviceId : String
  texts : SyncState.Texts

/-- What a task does while it holds the lock. -/
inductive Step where
  /-- `invite` and `pair` begin. -/
  | ensureGroup (now : Int) (drawnId drawnKey : Bytes)
  /-- `join` and `join_by_code` begin. -/
  | checkCanJoin (task : Nat)
  | startJoin (task : Nat) (invitation : Option Invitation) (now : Int) (drawn : Block)
  | finishJoin (task : Nat) (offer : PairMessage) (answer : Bool) (welcome : PairMessage)
  | remove (device : String) (now : Int) (drawn : Nat → Bytes)
  | leave (fresh : DeviceIdentity)
  | receiveRosters (rosters : List Roster) (now : Int) (drawn : Nat → Bytes)
  | receiveKey (key : GroupKey)
  /-- A device wants to pair. -/
  | answer (task : Nat) (window : PairingWindow) (now : Int)
  | exchange (task : Nat) (commit : PairMessage) (drawn : Block) (reveal join : PairMessage)
  | approve (task : Nat) (now : Int)
  | finishAdmission (task : Nat)

/-- The identity a step draws. -/
def Step.fresh : Step → Option DeviceIdentity
  | .leave fresh => some fresh
  | _ => none

/-- What a step leaves in the log. -/
inductive Event where
  /-- A group was made. -/
  | created
  /-- A join passed `check_can_join`. -/
  | allowed (task : Nat)
  /-- A join took the identity of the moment. -/
  | started (task : Nat)
  /-- A join stored its group. -/
  | joined (task : Nat)
  /-- An admission was made on a copy of the group. -/
  | copied (task : Nat)
  /-- The copy took the group's place. -/
  | adopted (task : Nat)
  | left
  /-- The group moved on; is this device a member now? -/
  | updated (member : Bool)
  deriving DecidableEq

/-- What a step did. -/
structure Did where
  world : World
  event : Option Event
  /-- Was the state written? -/
  saved : Bool

variable (C : PairCrypto) (cfg : Config)

/-- The messages of a pairing, up to the user's answer. -/
def exchange (i : Inviter) (commit : PairMessage) (drawn : Block) (reveal join : PairMessage) :
    Option Inviter :=
  match i.onCommit C commit drawn with
  | (.error _, _) => none
  | (.ok _, i) =>
    match i.onReveal C reveal with
    | (.error _, _) => none
    | (.ok _, i) =>
      match i.onJoin C join with
      | (.error _, _) => none
      | (.ok _, i) => some i

/-- Is the current roster the one `roster` follows? -/
def SyncState.isBefore (s : SyncState) (roster : Roster) : Bool :=
  s.group.any fun g =>
    match g.current with
    | .ok cur => decide (cur.hash C.group = roster.prev)
    | .error _ => false

variable {w : World} {t : Nat} {now : Int} {joiner : Joiner}

namespace World

/-- Nothing happened. -/
def quiet (w : World) : Did := ⟨w, none, false⟩

/-- The state changed within its group. -/
def update (w : World) (s : SyncState) (saved : Bool) : Did :=
  ⟨{ w with state := s }, some (.updated s.isMember), saved⟩

def setJoin (w : World) (task : Nat) (join : Option Join) : World :=
  { w with joins := fun t => if t = task then join else w.joins t }

def setAdmission (w : World) (task : Nat) (admission : Option Admission) : World :=
  { w with admissions := fun t => if t = task then admission else w.admissions t }

/-- One step. -/
def step (w : World) : Step → Did
  | .ensureGroup now drawnId drawnKey =>
    match w.state.ensureGroup C cfg.deviceId now drawnId drawnKey with
    | (.ok true, s) => ⟨{ w with state := s }, some .created, true⟩
    | (_, _) => w.quiet
  | .checkCanJoin task =>
    match w.state.checkCanJoin with
    | .ok () => ⟨w.setJoin task (some .allowed), some (.allowed task), false⟩
    | .error _ => w.quiet
  | .startJoin task invitation now drawn =>
    match w.joins task, w.state.startJoin C cfg.deviceId invitation now drawn with
    | some .allowed, .ok (joiner, _) =>
      ⟨w.setJoin task (some (.running joiner)), some (.started task), false⟩
    | _, _ => w.quiet
  | .finishJoin task offer answer welcome =>
    match w.joins task with
    | some (.running joiner) =>
      match runJoiner C joiner offer answer welcome with
      | .ok group =>
        ⟨{ w.setJoin task none with state := w.state.storeJoined group }, some (.joined task), true⟩
      -- another address of the invitation may be tried
      | .error _ => (w.setJoin task (some .allowed)).quiet
    | _ => w.quiet
  | .remove device now drawn =>
    match w.state.remove C cfg.texts device now drawn with
    | (.ok _, s) => w.update s true
    | (.error _, s) => w.update s false
  | .leave fresh => ⟨{ w with state := w.state.leave fresh }, some .left, true⟩
  | .receiveRosters rosters now drawn =>
    match w.state.receiveRosters C rosters now drawn with
    | (.nothing, s) | (.tellSender, s) => w.update s false
    | (.changed _, s) | (.removed, s) => w.update s true
  | .receiveKey key =>
    match w.state.receiveKey C key with
    | (new, s) => w.update s new
  | .answer task window now =>
    match w.state.group with
    | none => w.quiet
    | some g =>
      match Inviter.new C w.state.identity g window now with
      | .error _ => w.quiet
      | .ok i => (w.setAdmission task (some (.answering i))).quiet
  | .exchange task commit drawn reveal join =>
    match w.admissions task with
    | some (.answering i) =>
      (w.setAdmission task ((exchange C i commit drawn reveal join).map .answering)).quiet
    | _ => w.quiet
  | .approve task now =>
    match w.admissions task with
    | some (.answering i) =>
      match w.state.approveOnCopy C i now with
      | (.ok (_, roster), _, admitted) =>
        ⟨w.setAdmission task (some (.welcoming roster admitted)), some (.copied task), false⟩
      | (.error _, _, _) => (w.setAdmission task none).quiet
    | _ => w.quiet
  | .finishAdmission task =>
    match w.admissions task with
    | some (.welcoming roster admitted) =>
      let ended := w.setAdmission task none
      match w.state.finishAdmission C roster admitted with
      | (.ok (), s) =>
        if w.state.isBefore C roster then ⟨{ ended with state := s }, some (.adopted task), true⟩
        else ended.update s true
      | (.error _, s) => ended.update s false
    | _ => w.quiet

/-- A run, step by step. -/
def trace : World → List Step → List Did
  | _, [] => []
  | w, st :: sts => w.step C cfg st :: trace (w.step C cfg st).world sts

variable {C} {cfg}

theorem step_startJoin {invitation : Option Invitation}
    {drawn : Block} {commit : PairMessage} (hallowed : w.joins t = some .allowed)
    (hstart : w.state.startJoin C cfg.deviceId invitation now drawn = .ok (joiner, commit)) :
    w.step C cfg (.startJoin t invitation now drawn)
      = ⟨w.setJoin t (some (.running joiner)), some (.started t), false⟩ := by
  simp only [step, hallowed, hstart]

theorem step_finishJoin {offer welcome : PairMessage} {answer : Bool}
    {group : GroupState} (hrunning : w.joins t = some (.running joiner))
    (hrun : runJoiner C joiner offer answer welcome = .ok group) :
    w.step C cfg (.finishJoin t offer answer welcome)
      = ⟨{ w.setJoin t none with state := w.state.storeJoined group }, some (.joined t), true⟩ := by
  simp only [step, hrunning, hrun]

end World

/-- The log of a run. -/
def events (run : List Did) : List Event := run.filterMap Did.event

/-- The state files a run writes, oldest first. -/
def files (run : List Did) : List Stored :=
  (run.filter Did.saved).map (fun d => d.world.state.save)

@[simp] theorem events_cons (d : Did) (run : List Did) :
    events (d :: run) = d.event.toList ++ events run := by
  unfold events
  cases hd : d.event with
  | none => rw [List.filterMap_cons_none hd]; rfl
  | some e => rw [List.filterMap_cons_some hd]; rfl

theorem mem_files_cons {f : Stored} {d : Did} {run : List Did} :
    f ∈ files (d :: run) ↔ (d.saved = true ∧ f = d.world.state.save) ∨ f ∈ files run := by
  unfold files
  rw [List.filter_cons]
  cases d.saved with
  | true => simp
  | false => simp

/-! ## §2. What a step can do -/

variable {C} {cfg}

/-- No task began to talk or to admit. -/
structure World.Fewer (w w' : World) : Prop where
  joins : ∀ t, w'.joins t ≠ none → w.joins t ≠ none
  running : ∀ t j, w'.joins t = some (.running j) → w.joins t = some (.running j)
  welcoming : ∀ t r a, w'.admissions t = some (.welcoming r a) →
    w.admissions t = some (.welcoming r a)

theorem World.Fewer.refl (w : World) : World.Fewer w w :=
  ⟨fun _ h => h, fun _ _ h => h, fun _ _ _ h => h⟩

/-- What an admission keeps: the group moved on by one roster, which lists this device. -/
structure Copied (C : PairCrypto) (g : GroupState) (roster : Roster) (admitted : GroupState) :
    Prop where
  keeps : g.WellKept C.group → g.SameGroup admitted ∧ admitted.WellKept C.group
  member : admitted.isMember = .ok true
  follows : ∃ cur, g.rosters.getLast? = some cur ∧ cur.hash C.group = roster.prev
    ∧ cur.groupId = roster.groupId ∧ admitted.rosters.getLast? = some roster

/-- **All that one step can do**, with the identity it draws. -/
inductive Happens (C : PairCrypto) (w : World) : Option DeviceIdentity → Did → Prop where
  | quiet {w' : World} (hstate : w'.state = w.state) (hfewer : w.Fewer w') : Happens C w none w'.quiet
  | created {g : GroupState} (hnone : w.state.group = none) (hkept : g.WellKept C.group)
      (hme : g.me = w.state.identity.publicKey C.group) (hmember : g.isMember = .ok true) :
      Happens C w none ⟨{ w with state := w.state.storeJoined g }, some .created, true⟩
  | allowed (t : Nat) (hmember : w.state.isMember = false) :
      Happens C w none ⟨w.setJoin t (some .allowed), some (.allowed t), false⟩
  | started (t : Nat) {joiner : Joiner} (hallowed : w.joins t = some .allowed)
      (hidentity : joiner.identity = w.state.identity) :
      Happens C w none ⟨w.setJoin t (some (.running joiner)), some (.started t), false⟩
  | joined (t : Nat) {joiner : Joiner} {g : GroupState}
      (hrunning : w.joins t = some (.running joiner)) (hkept : g.WellKept C.group)
      (hme : g.me = joiner.identity.publicKey C.group) (hmember : g.isMember = .ok true) :
      Happens C w none ⟨{ w.setJoin t none with state := w.state.storeJoined g }, some (.joined t), true⟩
  | updated (w' : World) {saved : Bool} (hwithin : w.state.Within C w'.state) (hfewer : w.Fewer w') :
      Happens C w none (w'.update w'.state saved)
  | left (fresh : DeviceIdentity) :
      Happens C w (some fresh) ⟨{ w with state := w.state.leave fresh }, some .left, true⟩
  | copied (t : Nat) {g admitted : GroupState} {roster : Roster} (hgroup : w.state.group = some g)
      (hcopied : Copied C g roster admitted) :
      Happens C w none
        ⟨w.setAdmission t (some (.welcoming roster admitted)), some (.copied t), false⟩
  | adopted (t : Nat) {g admitted : GroupState} {roster cur : Roster}
      (hwelcoming : w.admissions t = some (.welcoming roster admitted))
      (hgroup : w.state.group = some g) (hcur : g.rosters.getLast? = some cur)
      (hhash : cur.hash C.group = roster.prev) :
      Happens C w none ⟨{ w.setAdmission t none with state := w.state.storeJoined admitted },
        some (.adopted t), true⟩

variable {s : SyncState}

/-- A group that was made lists the device that made it. -/
theorem ensureGroup_created {s' : SyncState} {deviceId : String} {drawnId drawnKey : Bytes}
    (h : s.ensureGroup C deviceId now drawnId drawnKey = (.ok true, s')) :
    s.group = none ∧ ∃ g, s' = s.storeJoined g ∧ g.WellKept C.group
      ∧ g.me = s.identity.publicKey C.group ∧ g.isMember = .ok true := by
  unfold SyncState.ensureGroup at h
  split at h
  next g hg =>
    split at h
    next => cases h
    next => cases h
    next => cases h
  next hnone =>
    split at h
    next => cases h
    next g hg =>
      have hstored := (Prod.mk.inj h).2
      have hkept := GroupState.wellKept_create hg
      simp only [GroupState.create, Lib.Fallible.bind_unit_ok_iff, Except.ok.injEq] at hg
      obtain ⟨-, -, hg⟩ := hg
      subst hg
      refine ⟨hnone, _, hstored.symm, hkept, rfl, ?_⟩
      simp [GroupState.isMember, GroupState.current, Except.map, Roster.member, Lib.Keyed.lookup]

theorem startJoin_identity {deviceId : String} {invitation : Option Invitation}
    {drawn : Block} {commit : PairMessage}
    (h : s.startJoin C deviceId invitation now drawn = .ok (joiner, commit)) :
    joiner.identity = s.identity := by
  simp only [SyncState.startJoin, Joiner.start, Lib.Fallible.bind_ok_iff] at h
  obtain ⟨-, -, -, -, -, -, h⟩ := h
  injection h with h
  rw [← (Prod.mk.inj h).1]

/-- What an approval on a copy made. -/
theorem approveOnCopy_ok {i i' : Inviter} {welcome : PairMessage}
    {roster : Roster} {admitted : GroupState}
    (h : s.approveOnCopy C i now = (.ok (welcome, roster), i', admitted)) :
    ∃ g, s.group = some g ∧ Copied C g roster admitted := by
  unfold SyncState.approveOnCopy at h
  split at h
  next => cases h
  next g hg =>
    refine ⟨g, hg, ?_⟩
    rcases i.approve_spec (C := C) g now with
      ⟨e, g', herror⟩ | ⟨session, request, roster', g', key, -, -, -, hadd, -, hok⟩
    · exact absurd (h.symm.trans herror) (by simp)
    obtain ⟨hmade, hrest⟩ := Prod.mk.inj (h.symm.trans hok)
    obtain rfl := (Prod.mk.inj (Except.ok.inj hmade)).2
    obtain rfl := (Prod.mk.inj hrest).2
    obtain ⟨cur, hadded⟩ := GroupState.addMember_ok hadd
    have hsame := GroupState.sameGroup_addMember (C := C.group) g i.identity
      (Inviter.memberOf request now) now
    have hkept := fun hg : g.WellKept C.group => GroupState.wellKept_addMember hg i.identity
      (Inviter.memberOf request now) now
    rw [hadd] at hsame hkept
    have hlast : admitted.rosters.getLast? = some roster := by
      rw [hadded.state]
      exact GroupState.push_getLast? C.group g roster
    refine ⟨fun hg => ⟨hsame, hkept hg⟩, ?_, cur, hadded.current, hadded.succeeds.prev.symm,
      hadded.succeeds.groupId.symm, hlast⟩
    -- the device that admits stays listed
    obtain ⟨x, hx⟩ := Option.ne_none_iff_exists'.mp hadded.member
    obtain ⟨hmem, hident⟩ := Lib.Keyed.mem_of_lookup hx
    have hlisted : roster.member admitted.me = some x := by
      rw [hsame.me]
      refine hadded.valid.member_eq_some.mpr ⟨?_, hident⟩
      rw [hadded.roster]
      exact mem_withMember.mpr (Or.inl hmem)
    unfold GroupState.isMember
    rw [GroupState.current_eq_ok_iff.mpr hlast]
    show Except.ok (roster.member admitted.me).isSome = _
    rw [hlisted]
    rfl

namespace World

@[simp] theorem joins_setJoin_self (w : World) (t : Nat) (join : Option Join) :
    (w.setJoin t join).joins t = join := if_pos rfl

theorem joins_setJoin_of_ne (w : World) {t' : Nat} (h : t' ≠ t) (join : Option Join) :
    (w.setJoin t join).joins t' = w.joins t' := if_neg h

@[simp] theorem admissions_setAdmission_self (w : World) (t : Nat) (admission : Option Admission) :
    (w.setAdmission t admission).admissions t = admission := if_pos rfl

theorem admissions_setAdmission_of_ne (w : World) {t' : Nat} (h : t' ≠ t)
    (admission : Option Admission) :
    (w.setAdmission t admission).admissions t' = w.admissions t' := if_neg h

/-- A join that is taken off the list, or put back to waiting. -/
theorem fewer_setJoin (join : Option Join) (hjoin : w.joins t ≠ none)
    (hnot : ∀ j, join ≠ some (.running j)) : w.Fewer (w.setJoin t join) where
  joins := by
    intro t' h
    by_cases hsame : t' = t
    · rw [hsame]
      exact hjoin
    · rwa [joins_setJoin_of_ne w hsame] at h
  running := by
    intro t' j h
    by_cases hsame : t' = t
    · rw [hsame, joins_setJoin_self] at h
      exact absurd h (hnot j)
    · rwa [joins_setJoin_of_ne w hsame] at h
  welcoming := fun _ _ _ h => h

theorem fewer_setAdmission (admission : Option Admission)
    (hnot : ∀ r a, admission ≠ some (.welcoming r a)) : w.Fewer (w.setAdmission t admission) where
  joins := fun _ h => h
  running := fun _ _ h => h
  welcoming := by
    intro t' r a h
    by_cases hsame : t' = t
    · rw [hsame, admissions_setAdmission_self] at h
      exact absurd h (hnot r a)
    · rwa [admissions_setAdmission_of_ne w hsame] at h

/-- Nothing happens but that the tasks change. -/
theorem happens_quiet : Happens C w none w.quiet := .quiet rfl (Fewer.refl w)

/-- The state moves on within its group. -/
theorem happens_update (h : w.state.Within C s) (saved : Bool) :
    Happens C w none (w.update s saved) :=
  Happens.updated { w with state := s } h ⟨fun _ h => h, fun _ _ h => h, fun _ _ _ h => h⟩

/-- How an admission ends. -/
theorem happens_finishAdmission (w : World) (task : Nat) :
    Happens C w none (w.step C cfg (.finishAdmission task)) := by
  simp only [step]
  split
  next roster admitted hwelcoming =>
    have hfewer : w.Fewer (w.setAdmission task none) := fewer_setAdmission _ (by simp)
    rcases w.state.finishAdmission_cases (C := C) roster admitted with
      ⟨e, hend⟩ | ⟨g, cur, hg, hcur, hhash, hend⟩ | ⟨g, cur, out, hg, hcur, hhash, -, hend⟩
    · rw [hend]
      exact .updated (w.setAdmission task none) (SyncState.Within.refl w.state) hfewer
    · have hbefore : w.state.isBefore C roster = true := by
        unfold SyncState.isBefore
        rw [hg]
        simp [hcur, hhash]
      rw [hend]
      simp only [hbefore, if_true]
      exact .adopted task hwelcoming hg (GroupState.current_eq_ok_iff.mp hcur) hhash
    · have hbefore : w.state.isBefore C roster = false := by
        unfold SyncState.isBefore
        rw [hg]
        simp [hcur, hhash]
      have hwithin : w.state.Within C
          { w.state with group := some (g.applyChain C.group [roster]).2 } :=
        SyncState.Within.of_group hg (SyncState.keeps_applyChain g [roster])
      rw [hend]
      cases out with
      | error e =>
        exact .updated { w.setAdmission task none with state := _ } hwithin
          ⟨hfewer.joins, hfewer.running, hfewer.welcoming⟩
      | ok u =>
        simp only [hbefore, Bool.false_eq_true, if_false]
        exact .updated { w.setAdmission task none with state := _ } hwithin
          ⟨hfewer.joins, hfewer.running, hfewer.welcoming⟩
  next => exact happens_quiet

/-- **All that one step can do**, whichever it is. -/
theorem step_happens (w : World) (st : Step) : Happens C w st.fresh (w.step C cfg st) := by
  cases st with
  | ensureGroup now drawnId drawnKey =>
    simp only [step]
    split
    next s hs =>
      obtain ⟨hnone, g, rfl, hkept, hme, hmember⟩ := ensureGroup_created hs
      exact .created hnone hkept hme hmember
    next => exact happens_quiet
  | checkCanJoin task =>
    simp only [step, SyncState.checkCanJoin]
    cases hmember : w.state.isMember with
    | true => exact happens_quiet
    | false => exact .allowed task hmember
  | startJoin task invitation now drawn =>
    simp only [step]
    split
    next joiner commit hjoin hstart => exact .started task hjoin (startJoin_identity hstart)
    next => exact happens_quiet
  | finishJoin task offer answer welcome =>
    simp only [step]
    split
    next joiner hrunning =>
      split
      next group hrun =>
        obtain ⟨hme, hkept, hmember⟩ := runJoiner_ok hrun
        exact .joined task hrunning hkept hme hmember
      next =>
        exact .quiet rfl (fewer_setJoin _ (by rw [hrunning]; simp) (by simp))
    next => exact happens_quiet
  | remove device now drawn =>
    have hwithin := w.state.within_remove (C := C) cfg.texts device now drawn
    simp only [step]
    split
    next s hs =>
      rw [hs] at hwithin
      exact happens_update hwithin true
    next s hs =>
      rw [hs] at hwithin
      exact happens_update hwithin false
  | leave fresh => exact .left fresh
  | receiveRosters rosters now drawn =>
    have hwithin := w.state.within_receiveRosters (C := C) rosters now drawn
    simp only [step]
    split
    next s hs =>
      rw [hs] at hwithin
      exact happens_update hwithin false
    next s hs =>
      rw [hs] at hwithin
      exact happens_update hwithin false
    next s hs =>
      rw [hs] at hwithin
      exact happens_update hwithin true
    next s hs =>
      rw [hs] at hwithin
      exact happens_update hwithin true
  | receiveKey key =>
    exact happens_update (w.state.within_receiveKey (C := C) key) _
  | answer task window now =>
    simp only [step]
    split
    next => exact happens_quiet
    next =>
      split
      next => exact happens_quiet
      next => exact .quiet rfl (fewer_setAdmission _ (by simp))
  | exchange task commit drawn reveal join =>
    simp only [step]
    split
    next i _ =>
      refine .quiet rfl (fewer_setAdmission _ ?_)
      intro r a h
      cases hex : Node.exchange C i commit drawn reveal join with
      | none =>
        rw [hex] at h
        cases h
      | some i' =>
        rw [hex] at h
        cases h
    next => exact happens_quiet
  | approve task now =>
    simp only [step]
    split
    next i _ =>
      split
      next welcome roster i' admitted happrove =>
        obtain ⟨g, hg, hcopied⟩ := approveOnCopy_ok happrove
        exact .copied task hg hcopied
      next => exact .quiet rfl (fewer_setAdmission _ (by simp))
    next => exact happens_quiet
  | finishAdmission task => exact happens_finishAdmission w task

end World

end Panora.Node
