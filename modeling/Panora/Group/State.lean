/-
  Panora.Group.State — one device's view of its group, and what changes it.

  `crates/panora-sync/src/group.rs`, second half: `GroupKey`, `GroupState` and
  its methods.  A method that takes `&mut self` returns its result together with
  the state it leaves, also when it fails: `reapply` stops at the first change
  that fails and keeps what it did before.

  Random draws are arguments: the group id and the key of `create`, the key
  `remove_member` introduces, and for `reapply` one key for each epoch.
-/
import Panora.Group.Fork

namespace Panora.Group

open Lib.Fallible Lib.Keyed

variable (C : Crypto)

/-! ## §1. Group keys and the state -/

/-- The shared symmetric key of one key epoch. -/
structure GroupKey where
  epoch : Nat
  key : Bytes
  deriving DecidableEq, Repr

/-- The value a roster publishes so that a received key can be checked. -/
def GroupKey.check (k : GroupKey) (groupId : Bytes) : Bytes :=
  C.keyedHash k.key (put (put (utf8 "panora group key check v1") groupId) (u64Bytes k.epoch))

/-- Does the key match what roster `r` publishes, in group `groupId`? -/
def GroupKey.matchesRoster (k : GroupKey) (groupId : Bytes) (r : Roster) : Bool :=
  r.keyEpoch == k.epoch && r.keyCheck == k.check C groupId

/-- What applying a roster from a peer did. -/
inductive RosterUpdate where
  | unchanged
  | advanced
  | forkLost
  | replaced (reapply : List Change)
  | removedThisDevice
  deriving DecidableEq, Repr

/-- This device's view of its group. -/
structure GroupState where
  me : PublicIdentity
  /-- The rosters kept, oldest first. -/
  rosters : List Roster
  keys : List GroupKey
  deriving DecidableEq, Repr

/-- What is written to disk: the same fields, unchecked. -/
structure GroupStateRepr where
  me : PublicIdentity
  rosters : List Roster
  keys : List GroupKey
  deriving DecidableEq, Repr

namespace GroupState

variable (s : GroupState)

/-- The current roster; the source panics when there is none. -/
def current : Except Error Roster :=
  match s.rosters.getLast? with
  | some r => .ok r
  | none => .error .panic

def groupId : Except Error Bytes :=
  s.current.map Roster.groupId

/-- Whether this device is in the current roster. -/
def isMember : Except Error Bool :=
  s.current.map (fun r => (r.member s.me).isSome)

/-- Whether another device is in the current roster. -/
def isPeer (identity : PublicIdentity) : Except Error Bool :=
  s.current.map (fun r => decide (identity ≠ s.me) && (r.member identity).isSome)

/-- The key of the current roster, if this device holds it. -/
def currentKey : Except Error (Option GroupKey) :=
  s.current.map (fun r => s.keys.find? (fun k => k.matchesRoster C r.groupId r))

/-! ## §2. Loading and starting -/

/-- Each roster after the first verifies and follows the one before. -/
def validateLinks (C : Crypto) (before : Roster) : List Roster → Except Error Unit
  | [] => .ok ()
  | r :: rs =>
      (r.verify C).bind fun _ =>
      (checkSuccessor C before r).bind fun _ =>
      validateLinks C r rs

/-- Each stored key matches some roster. -/
def validateKeys (C : Crypto) (rosters : List Roster) (groupId : Bytes) :
    List GroupKey → Except Error Unit
  | [] => .ok ()
  | k :: ks =>
      if ¬ rosters.any (k.matchesRoster C groupId) then
        .error (.roster "a stored key matches no roster")
      else
        validateKeys C rosters groupId ks

/-- The checks a loaded state must pass. -/
def validate : Except Error Unit :=
  match s.rosters with
  | [] => .error (.roster "group has no roster")
  | first :: rest =>
      if s.rosters.length > keptRosters then
        .error (.roster "too many rosters kept")
      else
        (first.verify C).bind fun _ =>
        (validateLinks C first rest).bind fun _ =>
        validateKeys C s.rosters first.groupId s.keys

/-- What is saved. -/
def toRepr : GroupStateRepr := ⟨s.me, s.rosters, s.keys⟩

/-- Loading: nothing is taken that does not validate. -/
def tryFrom (repr : GroupStateRepr) : Except Error GroupState :=
  let s : GroupState := ⟨repr.me, repr.rosters, repr.keys⟩
  (s.validate C).bind fun _ => .ok s

/-- Start a new group with this device as its only member. -/
def create (identity : DeviceIdentity) (deviceId name : String) (now : Int)
    (drawnId drawnKey : Bytes) : Except Error GroupState :=
  (validateDeviceId deviceId).bind fun _ =>
  (validateName name).bind fun _ =>
  let key : GroupKey := ⟨0, drawnKey⟩
  let roster : Roster :=
    { groupId := drawnId, epoch := 0, prev := zeroHash, createdAt := now, keyEpoch := 0
      keyCheck := key.check C drawnId
      members := [⟨identity.publicKey C, deviceId, name, now⟩]
      signer := identity.publicKey C, signature := [] }
  .ok ⟨identity.publicKey C, [roster.signed C identity], [key]⟩

/-- The state a newly paired device starts from. -/
def joined (me : PublicIdentity) (rosters : List Roster) (key : GroupKey) :
    Except Error GroupState :=
  let s : GroupState := ⟨me, rosters, [key]⟩
  (s.validate C).bind fun _ =>
  s.isMember.bind fun isMember =>
  if !isMember then
    .error (.roster "the welcome roster does not list this device")
  else
    (s.currentKey C).bind fun currentKey =>
    if currentKey.isNone then
      .error (.roster "the welcome key does not match the roster")
    else
      .ok s

/-! ## §3. Keeping rosters and keys -/

/-- Drop keys no kept roster refers to. -/
def prune : GroupState :=
  match s.rosters.getLast? with
  | none => s
  | some cur =>
      { s with keys := s.keys.filter (fun k => s.rosters.any (k.matchesRoster C cur.groupId)) }

/-- Append a roster, and drop the oldest beyond the number kept. -/
def push (roster : Roster) : GroupState :=
  let rosters := s.rosters ++ [roster]
  prune C { s with rosters := rosters.drop (rosters.length - keptRosters) }

/-- Store a key received from a member. -/
def acceptKey (key : GroupKey) : Except Error Bool × GroupState :=
  match s.current with
  | .error e => (.error e, s)
  | .ok cur =>
      if (cur.member s.me).isNone then
        (.error (.roster "this device is not a member of the group"), s)
      else if ¬ s.rosters.any (key.matchesRoster C cur.groupId) then
        (.error (.roster "key does not match any known roster"), s)
      else if s.keys.any (fun k =>
          k.epoch == key.epoch && k.check C cur.groupId == key.check C cur.groupId) then
        (.ok false, s)
      else
        (.ok true, prune C { s with keys := s.keys ++ [key] })

/-! ## §4. Changing the membership -/

/-- The next roster, before the change itself. -/
def change (C : Crypto) (s : GroupState) (signer : DeviceIdentity) (now : Int) :
    Except Error Roster :=
  s.isMember.bind fun isMember =>
  if signer.publicKey C ≠ s.me ∨ ¬ isMember then
    .error (.roster "only a member can change the group")
  else
    s.current.bind fun cur =>
    .ok { cur with epoch := cur.epoch + 1, prev := cur.hash C, createdAt := now }

/-- Sign a changed roster and check it the way any other device will. -/
def signNext (signer : DeviceIdentity) (next : Roster) : Except Error Roster :=
  let next := next.signed C signer
  (next.verify C).bind fun _ =>
  s.current.bind fun cur =>
  (checkSuccessor C cur next).bind fun _ =>
  .ok next

/-- The roster that adds `member`. -/
def additionRoster (signer : DeviceIdentity) (member : Member) (now : Int) : Except Error Roster :=
  (validateDeviceId member.deviceId).bind fun _ =>
  (validateName member.name).bind fun _ =>
  (s.change C signer now).bind fun next =>
  if (next.member member.identity).isSome then
    .error (.device "this device is already in the group")
  else if next.members.any (fun m => m.deviceId == member.deviceId) then
    .error (.device "another device in the group already uses this device id")
  else if next.members.length ≥ maxMembers then
    .error (.device "the group already has 16 devices")
  else
    s.signNext C signer { next with
      members := (next.members ++ [member]).insertionSort (fun a b => a.identity ≤ b.identity) }

/-- Add a device. -/
def addMember (signer : DeviceIdentity) (member : Member)
    (now : Int) : Except Error Roster × GroupState :=
  match s.additionRoster C signer member now with
  | .error e => (.error e, s)
  | .ok next => (.ok next, s.push C next)

/-- The roster that removes `target` and introduces the drawn key. -/
def removalRoster (signer : DeviceIdentity)
    (target : PublicIdentity) (now : Int) (drawn : Nat → Bytes) :
    Except Error (Roster × GroupKey) :=
  if target = s.me then
    .error (.device "a device cannot remove itself; remove it from another device")
  else
    (s.change C signer now).bind fun next =>
    let members := next.members.filter (fun m => decide (m.identity ≠ target))
    if members.length = next.members.length then
      .error (.device "that device is not in the group")
    else
      let key : GroupKey := ⟨next.epoch, drawn next.epoch⟩
      (s.signNext C signer { next with
        members := members, keyEpoch := next.epoch, keyCheck := key.check C next.groupId }).bind
        fun next => .ok (next, key)

/-- Remove a device and introduce a new group key. -/
def removeMember (signer : DeviceIdentity)
    (target : PublicIdentity) (now : Int) (drawn : Nat → Bytes) :
    Except Error (Roster × GroupKey) × GroupState :=
  match s.removalRoster C signer target now drawn with
  | .error e => (.error e, s)
  | .ok (next, key) => (.ok (next, key), { s with keys := s.keys ++ [key] }.push C next)

/-! ## §5. Applying a peer's rosters -/

/-- `checkSuccessor` against the roster before, where there is one. -/
def checkFollows (before : Option Roster) (r : Roster) : Except Error Unit :=
  match before with
  | none => .ok ()
  | some b => checkSuccessor C b r

/-- Each roster of a received chain verifies, belongs to the group, and follows the
    one before it in the chain. -/
def checkChain (C : Crypto) (groupId : Bytes) :
    Option Roster → List Roster → Except Error Unit
  | _, [] => .ok ()
  | before, r :: rs =>
      (r.verify C).bind fun _ =>
      if r.groupId ≠ groupId then
        .error (.roster "roster belongs to another group")
      else
        (checkFollows C before r).bind fun _ =>
        checkChain C groupId (some r) rs

/-- The held roster of an epoch, where `first` is the epoch of the oldest one. -/
def heldAt (first epoch : Nat) : Option Roster :=
  if epoch < first then none else s.rosters[epoch - first]?

/-- Where a received chain leaves what this device holds. -/
structure ForkPoint where
  /-- How many of the held rosters lie before the fork. -/
  idx : Nat
  /-- The held roster the incoming ones grow from. -/
  parent : Roster
  /-- The received rosters this device does not hold. -/
  incoming : List Roster
  deriving DecidableEq, Repr

/-- What of `chain` is new: the part past older history and past what is held. -/
def newPart (first : Nat) (chain : List Roster) : List Roster :=
  (chain.dropWhile (fun r => decide (r.epoch < first))).dropWhile
    (fun r => (s.heldAt first r.epoch).any (fun h => h.hash C == r.hash C))

/-- Check a received chain and find where it leaves what is held; `none` when it
    does not. -/
def findFork (chain : List Roster) : Except Error (Option ForkPoint) :=
  if chain.isEmpty || decide (chain.length > keptRosters) then
    .error (.roster "a roster chain holds 1 to 8 rosters")
  else
    s.groupId.bind fun gid =>
    (checkChain C gid none chain).bind fun _ =>
    match s.rosters with
    | [] => .error .panic
    | oldest :: _ =>
        let first := oldest.epoch
        match newPart C s first chain with
        | [] => .ok none
        | head :: tail =>
            s.current.bind fun cur =>
            if head.epoch > cur.epoch + 1 then
              .error (.roster "rosters in between are missing; fetch the chain")
            else if head.epoch ≤ first then
              .error (.roster "the chain forks before this device's roster history")
            else
              let idx := head.epoch - first
              match s.rosters[idx - 1]? with
              | none => .error .panic
              | some parent =>
                  match checkSuccessor C parent head with
                  | .error _ => .error (.roster
                      "roster does not follow what this device holds; fetch the chain")
                  | .ok () => .ok (some ⟨idx, parent, head :: tail⟩)

/-- Take the incoming rosters over, and notice when they removed this device. -/
def graft (f : ForkPoint) (update : RosterUpdate) : Except Error RosterUpdate × GroupState :=
  let s := f.incoming.foldl (push C) s
  match s.isMember with
  | .error e => (.error e, s)
  | .ok isMember =>
      if !isMember && (removedAlong f.parent f.incoming).contains s.me then
        (.ok .removedThisDevice, { s with keys := [] })
      else
        (.ok update, s)

/-- Apply a member's rosters, oldest first and consecutive. -/
def applyChain (chain : List Roster) : Except Error RosterUpdate × GroupState :=
  match s.findFork C chain with
  | .error e => (.error e, s)
  | .ok none => (.ok .unchanged, s)
  | .ok (some f) =>
      if f.idx = s.rosters.length then
        s.graft C f .advanced
      else if !forkWinner C f.parent f.incoming (s.rosters.drop f.idx) then
        (.ok .forkLost, s)
      else
        { s with rosters := s.rosters.take f.idx }.graft C f
          (.replaced (changesToReapply f.parent (s.rosters.drop f.idx) s.me))

/-! ## §6. Redoing changes -/

/-- Redo the changes a lost fork dropped, where they still make sense.  The first
    one that fails ends the loop. -/
def reapply (C : Crypto) (signer : DeviceIdentity) (now : Int) (drawn : Nat → Bytes) :
    GroupState → List Change → Except Error (List (Roster × Option GroupKey)) × GroupState
  | s, [] => (.ok [], s)
  | s, .added m :: changes =>
      match s.current with
      | .error e => (.error e, s)
      | .ok cur =>
          let taken := (cur.member m.identity).isSome
            || cur.members.any (fun x => x.deviceId == m.deviceId)
          if taken then
            reapply C signer now drawn s changes
          else
            match s.addMember C signer m now with
            | (.error e, s) => (.error e, s)
            | (.ok roster, s) =>
                let (out, s) := reapply C signer now drawn s changes
                (out.map ((roster, none) :: ·), s)
  | s, .removed i :: changes =>
      match s.isPeer i with
      | .error e => (.error e, s)
      | .ok false => reapply C signer now drawn s changes
      | .ok true =>
          match s.removeMember C signer i now drawn with
          | (.error e, s) => (.error e, s)
          | (.ok (roster, key), s) =>
              let (out, s) := reapply C signer now drawn s changes
              (out.map ((roster, some key) :: ·), s)

end GroupState

end Panora.Group
