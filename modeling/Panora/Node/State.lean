/-
  Panora.Node.State — the state a sync node keeps, and what requests do to it.

  `crates/panora-sync/src/state.rs` and the parts of `node.rs` that hold the state's
  lock: each is one function here, run from lock to unlock.  What a request awaits
  (dialling, pairing messages, the user) lies between two such functions.

  The cursors of the peers and the change feed are left out: nothing here reads them.
  Sealing and writing the file is taken to succeed; the file is what was stored.

  Main results:
    * `SyncState.load_save_iff` — when a saved state loads;
    * `runJoiner_ok` — the group a join ends with;
    * `finishAdmission_cases`, `receiveRosters_cases` — what becomes of the group.
-/
import Panora.Group.Keep
import Panora.Pairing.Protocol

namespace Panora.Node

open Panora.Group
open Panora.Pairing (PairCrypto Joiner Inviter PairMessage Block Invitation ofGroup ofGroup_ok_iff)
open Panora.Lib.Fallible

/-- The errors of the crate. -/
abbrev Error := Panora.Pairing.Error

variable (C : PairCrypto)

/-! ## §1. What is kept between runs -/

/-- A device's persistent sync state. -/
structure SyncState where
  identity : DeviceIdentity
  deviceName : String
  group : Option GroupState
  deriving DecidableEq

/-- The state file, opened. -/
structure Stored where
  version : Nat
  identity : DeviceIdentity
  deviceName : String
  group : Option GroupStateRepr
  deriving DecidableEq

def stateVersion : Nat := 1

namespace SyncState

/-- A new device: fresh identity, no group. -/
def new (deviceName : String) (drawn : DeviceIdentity) : Except Error SyncState :=
  (ofGroup (validateName deviceName)).bind fun _ => .ok ⟨drawn, deviceName, none⟩

/-- What is written. -/
def save (s : SyncState) : Stored :=
  ⟨stateVersion, s.identity, s.deviceName, s.group.map GroupState.toRepr⟩

/-- Reading the stored group; one that does not validate is no JSON of a state. -/
def loadGroup : Option GroupStateRepr → Except Error (Option GroupState)
  | none => .ok none
  | some repr => ((GroupState.tryFrom C.group repr).mapError fun _ => .json).map some

/-- Load the state. -/
def load (f : Stored) : Except Error SyncState :=
  (loadGroup C f.group).bind fun group =>
  if f.version ≠ stateVersion then .error (.protocol "sync state file has an unknown version")
  else
    (ofGroup (validateName f.deviceName)).bind fun _ =>
    if group.any (fun g => decide (g.me ≠ f.identity.publicKey C.group)) then
      .error (.group (.roster "the stored group belongs to another identity"))
    else .ok ⟨f.identity, f.deviceName, group⟩

/-! ## §2. Requests -/

/-- Start a group if there is none; says whether one was made. -/
def ensureGroup (deviceId : String) (s : SyncState) (now : Int) (drawnId drawnKey : Bytes) :
    Except Error Bool × SyncState :=
  match s.group with
  | some g =>
    match g.isMember with
    | .error e => (.error (.group e), s)
    | .ok true => (.ok false, s)
    | .ok false =>
      (.error (.group (.roster "this device is not a member of its group; leave it first")), s)
  | none =>
    match GroupState.create C.group s.identity deviceId s.deviceName now drawnId drawnKey with
    | .error e => (.error (.group e), s)
    | .ok group => (.ok true, { s with group := some group })

/-- Is this device a member of a group? -/
def isMember (s : SyncState) : Bool :=
  s.group.any (fun g => match g.isMember with | .ok b => b | .error _ => false)

def checkCanJoin (s : SyncState) : Except Error Unit :=
  if s.isMember then
    .error (.group (.roster "this device is already in a group; leave it first"))
  else .ok ()

/-- The first step of a join that connected: the identity and the name of the moment. -/
def startJoin (deviceId : String) (s : SyncState) (invitation : Option Invitation) (now : Int)
    (drawn : Block) : Except Error (Joiner × PairMessage) :=
  Joiner.start C s.identity deviceId s.deviceName invitation now drawn

/-- The last step of a join. -/
def storeJoined (s : SyncState) (group : GroupState) : SyncState := { s with group := some group }

/-- What the texts of `remove` are compared with. -/
structure Texts where
  /-- `PublicIdentity::fingerprint`. -/
  fingerprint : PublicIdentity → String
  /-- `str::trim`. -/
  trim : String → String
  /-- `str::to_lowercase`. -/
  toLowercase : String → String

/-- The one device `device` means. -/
def chosen (T : Texts) (members : List Member) (device : String) : Except Error Member :=
  let wanted := T.trim device
  let exact_ := members.filter (fun m => T.fingerprint m.identity == T.toLowercase wanted)
  let found :=
    if exact_.isEmpty then
      members.filter (fun m => m.name == wanted
        || (decide (4 ≤ (utf8 wanted).length)
          && (T.toLowercase wanted).isPrefixOf (T.fingerprint m.identity)))
    else exact_
  match found with
  | [one] => .ok one
  | [] => .error (.group (.device "no device in the group matches that"))
  | _ => .error (.group (.device "several devices match; use more of the fingerprint"))

/-- Remove a device. -/
def remove (T : Texts) (s : SyncState) (device : String) (now : Int) (drawn : Nat → Bytes) :
    Except Error (Member × GroupKey) × SyncState :=
  match s.group with
  | none => (.error (.group (.roster "no group")), s)
  | some g =>
    match ofGroup g.current with
    | .error e => (.error e, s)
    | .ok cur =>
      match chosen T cur.members device with
      | .error e => (.error e, s)
      | .ok member =>
        match g.removeMember C.group s.identity member.identity now drawn with
        | (.error e, g) => (.error (.group e), { s with group := some g })
        | (.ok (_, key), g) => (.ok (member, key), { s with group := some g })

/-- Leave the group: forget it and take a new identity. -/
def leave (s : SyncState) (fresh : DeviceIdentity) : SyncState :=
  { s with identity := fresh, group := none }

/-! ## §3. What peers send -/

/-- Store a key a peer shared; says whether it was new. -/
def receiveKey (s : SyncState) (key : GroupKey) : Bool × SyncState :=
  match s.group with
  | none => (false, s)
  | some g =>
    match g.acceptKey C.group key with
    | (.ok new, g) => (new, { s with group := some g })
    | (.error _, g) => (false, { s with group := some g })

/-- What to do after a peer's rosters were applied. -/
inductive Outcome where
  | nothing
  | tellSender
  | changed (newKeys : List GroupKey)
  | removed
  deriving DecidableEq

/-- Apply a peer's rosters, and redo this device's changes after a lost fork. -/
def receiveRosters (s : SyncState) (rosters : List Roster) (now : Int) (drawn : Nat → Bytes) :
    Outcome × SyncState :=
  match s.group with
  | none => (.nothing, s)
  | some g =>
    match g.applyChain C.group rosters with
    | (.ok .unchanged, g) => (.nothing, { s with group := some g })
    | (.ok .forkLost, g) => (.tellSender, { s with group := some g })
    | (.ok .advanced, g) => (.changed [], { s with group := some g })
    | (.ok (.replaced changes), g) =>
      match GroupState.reapply C.group s.identity now drawn g changes with
      | (.ok redone, g) => (.changed (redone.filterMap Prod.snd), { s with group := some g })
      | (.error _, g) => (.changed [], { s with group := some g })
    | (.ok .removedThisDevice, g) => (.removed, { s with group := some g })
    | (.error _, g) => (.tellSender, { s with group := some g })

/-! ## §4. Admitting a device -/

/-- Admit a device on a copy of the group; the state itself does not change. -/
def approveOnCopy (s : SyncState) (i : Inviter) (now : Int) :
    Except Error (PairMessage × Roster) × Inviter × GroupState :=
  match s.group with
  | none => (.error (.group (.roster "no group")), i, ⟨[], [], []⟩)
  | some g => i.approve C g now

/-- Once the welcome is out: keep the copy, or add the new roster the ordinary way if the
    device list changed meanwhile. -/
def finishAdmission (s : SyncState) (roster : Roster) (admitted : GroupState) :
    Except Error Unit × SyncState :=
  match s.group with
  | none => (.error (.group (.roster "the group went away during pairing")), s)
  | some g =>
    match g.current with
    | .error e => (.error (.group e), s)
    | .ok cur =>
      if cur.hash C.group = roster.prev then (.ok (), { s with group := some admitted })
      else
        match g.applyChain C.group [roster] with
        | (.error e, g) => (.error (.group e), { s with group := some g })
        | (.ok _, g) => (.ok (), { s with group := some g })

end SyncState

/-! ## §5. A joiner's exchange -/

/-- The joiner's side of a pairing, with the messages that reach it and the user's answer.
    It touches no shared state. -/
def runJoiner (joiner : Joiner) (offer : PairMessage) (answer : Bool) (welcome : PairMessage) :
    Except Error GroupState :=
  match joiner.onOffer C offer with
  | (.error e, _) => .error e
  | (.ok _, joiner) =>
    if !answer then .error .cancelled
    else
      match joiner.confirm C with
      | (.error e, _) => .error e
      | (.ok _, joiner) => (joiner.onWelcome C welcome).1

/-! ## §6. What becomes of the state -/

variable {C}

namespace SyncState

variable {s s' : SyncState}

/-- A state that was loaded, or could be. -/
structure Sound (C : PairCrypto) (s : SyncState) : Prop where
  name : validateName s.deviceName = .ok ()
  kept : ∀ g ∈ s.group, g.WellKept C.group
  me : ∀ g ∈ s.group, g.me = s.identity.publicKey C.group

theorem loadGroup_save (hkept : ∀ g ∈ s.group, g.WellKept C.group) :
    loadGroup C s.save.group = .ok s.group := by
  cases hgroup : s.group with
  | none =>
    unfold save
    rw [hgroup]
    rfl
  | some g =>
    have hvalid := (GroupState.validate_ok_iff C.group g).mpr (hkept g hgroup)
    have htry : GroupState.tryFrom C.group g.toRepr = .ok g :=
      bind_ok_iff.mpr ⟨(), hvalid, rfl⟩
    show loadGroup C (s.group.map GroupState.toRepr) = _
    rw [hgroup]
    show ((GroupState.tryFrom C.group g.toRepr).mapError _).map some = _
    rw [htry]
    rfl

/-- **When a saved state loads**: its group, well kept, belongs to the identity beside it. -/
theorem load_save_iff (hname : validateName s.deviceName = .ok ())
    (hkept : ∀ g ∈ s.group, g.WellKept C.group) :
    (∃ loaded, load C s.save = .ok loaded)
      ↔ ∀ g ∈ s.group, g.me = s.identity.publicKey C.group := by
  have hcheck : (s.group.any (fun g => decide (g.me ≠ s.identity.publicKey C.group))) = false
      ↔ ∀ g ∈ s.group, g.me = s.identity.publicKey C.group := by
    cases s.group with
    | none => simp
    | some g => simp
  have hload : load C s.save =
      if s.group.any (fun g => decide (g.me ≠ s.identity.publicKey C.group)) then
        .error (.group (.roster "the stored group belongs to another identity"))
      else .ok s := by
    unfold load
    rw [loadGroup_save hkept]
    show (ofGroup (validateName s.deviceName)).bind _ = _
    rw [ofGroup_ok_iff.mpr hname]
    rfl
  rw [← hcheck, hload]
  cases s.group.any (fun g => decide (g.me ≠ s.identity.publicKey C.group)) with
  | true => simp
  | false => simp

/-- The group moved on within itself, or there is none. -/
structure Within (C : PairCrypto) (s s' : SyncState) : Prop where
  identity : s'.identity = s.identity
  deviceName : s'.deviceName = s.deviceName
  group : s'.group = s.group ∨ ∃ g g', s.group = some g ∧ s'.group = some g'
    ∧ (g.WellKept C.group → g.SameGroup g' ∧ g'.WellKept C.group)

theorem Within.refl (s : SyncState) : Within C s s := ⟨rfl, rfl, .inl rfl⟩

theorem Within.of_group {g g' : GroupState} (h : s.group = some g)
    (hg : g.WellKept C.group → g.SameGroup g' ∧ g'.WellKept C.group) :
    Within C s { s with group := some g' } :=
  ⟨rfl, rfl, .inr ⟨g, g', h, rfl, hg⟩⟩

theorem Within.sound (h : Within C s s') (hs : s.Sound C) : s'.Sound C := by
  have hname : validateName s'.deviceName = .ok () := by
    rw [h.deviceName]
    exact hs.name
  rcases h.group with hsame | ⟨g, g', hg, hg', hkeep⟩
  · refine ⟨hname, ?_, ?_⟩
    · rw [hsame]
      exact hs.kept
    · rw [hsame, h.identity]
      exact hs.me
  · obtain ⟨hsame, hkept⟩ := hkeep (hs.kept g hg)
    refine ⟨hname, ?_, ?_⟩
    · intro x hx
      rw [hg'] at hx
      cases hx
      exact hkept
    · intro x hx
      rw [hg'] at hx
      cases hx
      rw [h.identity, hsame.me]
      exact hs.me g hg

theorem within_remove (T : Texts) (s : SyncState) (device : String) (now : Int)
    (drawn : Nat → Bytes) : Within C s (s.remove C T device now drawn).2 := by
  unfold remove
  cases hgroup : s.group with
  | none => exact Within.refl s
  | some g =>
    dsimp only
    split
    next => exact Within.refl s
    next =>
    split
    next => exact Within.refl s
    next member _ =>
    have hkeep : g.WellKept C.group →
        g.SameGroup (g.removeMember C.group s.identity member.identity now drawn).2
          ∧ (g.removeMember C.group s.identity member.identity now drawn).2.WellKept C.group :=
      fun hkept => ⟨GroupState.sameGroup_removeMember g _ _ now drawn,
        GroupState.wellKept_removeMember hkept _ _ now drawn⟩
    rcases hremove : g.removeMember C.group s.identity member.identity now drawn with ⟨out, g'⟩
    rw [hremove] at hkeep
    cases out with
    | error e => exact Within.of_group hgroup hkeep
    | ok rk => exact Within.of_group hgroup hkeep

theorem within_receiveKey (s : SyncState) (key : GroupKey) : Within C s (s.receiveKey C key).2 := by
  unfold receiveKey
  cases hgroup : s.group with
  | none => exact Within.refl s
  | some g =>
    have hkeep : g.WellKept C.group → g.SameGroup (g.acceptKey C.group key).2
        ∧ (g.acceptKey C.group key).2.WellKept C.group :=
      fun hkept => ⟨GroupState.sameGroup_acceptKey g key, GroupState.wellKept_acceptKey hkept key⟩
    dsimp only
    rcases haccept : g.acceptKey C.group key with ⟨out, g'⟩
    rw [haccept] at hkeep
    cases out with
    | error e => exact Within.of_group hgroup hkeep
    | ok new => exact Within.of_group hgroup hkeep

/-- Applying a chain keeps the group. -/
theorem keeps_applyChain (g : GroupState) (chain : List Roster) (hkept : g.WellKept C.group) :
    g.SameGroup (g.applyChain C.group chain).2 ∧ (g.applyChain C.group chain).2.WellKept C.group :=
  ⟨GroupState.sameGroup_applyChain hkept chain, GroupState.wellKept_applyChain hkept chain⟩

theorem within_receiveRosters (s : SyncState) (rosters : List Roster) (now : Int)
    (drawn : Nat → Bytes) : Within C s (s.receiveRosters C rosters now drawn).2 := by
  unfold receiveRosters
  cases hgroup : s.group with
  | none => exact Within.refl s
  | some g =>
    have hkeep := keeps_applyChain (C := C) g rosters
    dsimp only
    rcases happly : g.applyChain C.group rosters with ⟨out, g'⟩
    rw [happly] at hkeep
    cases out with
    | error e => exact Within.of_group hgroup hkeep
    | ok update =>
    cases update with
    | unchanged => exact Within.of_group hgroup hkeep
    | advanced => exact Within.of_group hgroup hkeep
    | forkLost => exact Within.of_group hgroup hkeep
    | removedThisDevice => exact Within.of_group hgroup hkeep
    | replaced changes =>
      dsimp only
      have hredo : g.WellKept C.group →
          g.SameGroup (GroupState.reapply C.group s.identity now drawn g' changes).2
            ∧ (GroupState.reapply C.group s.identity now drawn g' changes).2.WellKept C.group :=
        fun hkept => ⟨(hkeep hkept).1.trans (GroupState.sameGroup_reapply _ now drawn changes g'),
          GroupState.wellKept_reapply _ now drawn (hkeep hkept).2⟩
      rcases hreapply : GroupState.reapply C.group s.identity now drawn g' changes with ⟨out, g''⟩
      rw [hreapply] at hredo
      cases out with
      | error e => exact Within.of_group hgroup hredo
      | ok redone => exact Within.of_group hgroup hredo

/-- **How an admission ends**: the copy is kept where the list has not changed, and the
    roster is applied where it has. -/
theorem finishAdmission_cases (s : SyncState) (roster : Roster) (admitted : GroupState) :
    (∃ e, s.finishAdmission C roster admitted = (.error e, s)) ∨
      (∃ g cur, s.group = some g ∧ g.current = .ok cur ∧ cur.hash C.group = roster.prev
        ∧ s.finishAdmission C roster admitted = (.ok (), { s with group := some admitted })) ∨
      ∃ g cur out, s.group = some g ∧ g.current = .ok cur ∧ cur.hash C.group ≠ roster.prev
        ∧ (out = .ok () ↔ ∃ update, (g.applyChain C.group [roster]).1 = .ok update)
        ∧ s.finishAdmission C roster admitted
          = (out, { s with group := some (g.applyChain C.group [roster]).2 }) := by
  unfold finishAdmission
  cases hgroup : s.group with
  | none => exact .inl ⟨_, rfl⟩
  | some g =>
    dsimp only
    cases hcur : g.current with
    | error e => exact .inl ⟨_, rfl⟩
    | ok cur =>
      dsimp only
      by_cases hsame : cur.hash C.group = roster.prev
      · rw [if_pos hsame]
        exact .inr (.inl ⟨g, cur, rfl, hcur, hsame, rfl⟩)
      · rw [if_neg hsame]
        right
        right
        rcases happly : g.applyChain C.group [roster] with ⟨out, g'⟩
        cases out with
        | error e =>
          exact ⟨g, cur, .error (.group e), rfl, hcur, hsame, by simp [happly], by simp [happly]⟩
        | ok update =>
          exact ⟨g, cur, .ok (), rfl, hcur, hsame, by simp [happly], by simp [happly]⟩

end SyncState

/-- **The group a join ends with** is this joiner's: well kept, and it lists the device. -/
theorem runJoiner_ok {joiner : Joiner} {offer : PairMessage} {answer : Bool}
    {welcome : PairMessage} {group : GroupState}
    (h : runJoiner C joiner offer answer welcome = .ok group) :
    group.me = joiner.identity.publicKey C.group ∧ group.WellKept C.group
      ∧ group.isMember = .ok true := by
  unfold runJoiner at h
  rcases joiner.onOffer_spec (C := C) offer with
    ⟨e, hoffer⟩ | ⟨_, inviter, _, _, session, -, -, -, hoffer⟩
  · rw [hoffer] at h
    cases h
  rw [hoffer] at h
  dsimp only at h
  split at h
  next => cases h
  next =>
  generalize hkeyed : ({ joiner with
    state := some (.keyed session inviter false) } : Joiner) = keyed at h
  have hidentity : keyed.identity = joiner.identity := by rw [← hkeyed]
  rcases keyed.confirm_spec (C := C) with ⟨e, hconfirm⟩ | ⟨session', inviter', -, hconfirm⟩
  · rw [hconfirm] at h
    cases h
  rw [hconfirm] at h
  dsimp only at h
  generalize hlast : ({ keyed with
    state := some (.keyed session' inviter' true) } : Joiner) = last at h
  have hidentity : last.identity = joiner.identity := by
    rw [← hlast]
    exact hidentity
  rcases last.onWelcome_spec (C := C) welcome with
    ⟨e, hwelcome⟩ | ⟨box, session'', inviter'', group', -, -, haccept, hwelcome⟩
  · rw [hwelcome] at h
    cases h
  rw [hwelcome] at h
  injection h with h
  subst h
  obtain ⟨body, parent, current, hwelcomed⟩ := Joiner.acceptWelcome_ok haccept
  rw [← hidentity]
  exact ⟨by rw [GroupState.joined_ok hwelcomed.joined],
    GroupState.wellKept_joined hwelcomed.joined, GroupState.isMember_joined hwelcomed.joined⟩

end Panora.Node
