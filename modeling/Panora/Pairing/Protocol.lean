/-
  Panora.Pairing.Protocol — the two sides of a pairing.

  `crates/panora-sync/src/pairing.rs`: two state machines that turn messages into
  messages.  Each call takes the state out first and puts one back only if it succeeds,
  so any error ends the pairing: a later call finds no state.

  The cryptography is symbolic.  An envelope is the key and the associated data it was
  made with, and what is in it; it opens under these and no others, and bytes that are
  no envelope do not open.  Hashes and X25519 are parameters (`PairCrypto`).

  Random draws are arguments: the ephemeral secrets of the two sides.

  Main results: `Inviter.onCommit_spec`, `onReveal_spec`, `onJoin_spec`, `approve_spec`
  and `Joiner.onOffer_spec`, `confirm_spec`, `onWelcome_spec` — each call fails and ends
  the session, or succeeds on the one message it waits for.
-/
import Panora.Group.Reload
import Panora.Pairing.Window

namespace Panora.Pairing

open Panora.Group
open Panora.Lib.Fallible

/-! ## §1. Primitives -/

/-- The primitives of `ring` and `blake3` that pairing calls: those of the group code,
    and hashes into thirty-two bytes and X25519 besides. -/
structure PairCrypto where
  /-- Ed25519, and the hashes of rosters. -/
  group : Crypto
  /-- `blake3::derive_key`. -/
  derive : String → Bytes → Block
  /-- `blake3::keyed_hash`. -/
  keyed : Block → Bytes → Block
  /-- The public half of an X25519 secret. -/
  ephemeralPublic : Block → Block
  /-- X25519; `none` for a peer key that yields the all-zero secret. -/
  agree : Block → Block → Option Block

/-- Protocol name and version. -/
def protocolName : String := "panora-pair/1"

/-- The six-digit code both screens show. -/
structure SasCode where
  value : Nat
  deriving DecidableEq, Repr

/-- What a joining device says about itself. -/
structure JoinRequest where
  identity : PublicIdentity
  deviceId : String
  name : String
  deriving DecidableEq, Repr

structure JoinBody where
  identity : PublicIdentity
  deviceId : String
  name : String
  signature : Bytes
  deriving DecidableEq, Repr

structure WelcomeBody where
  signature : Bytes
  rosters : List Roster
  key : GroupKey
  deriving DecidableEq, Repr

/-- What travels sealed. -/
inductive Body where
  | join (body : JoinBody)
  | welcome (body : WelcomeBody)
  deriving DecidableEq, Repr

/-- The bytes of a sealed field. -/
inductive Sealed where
  /-- An envelope made with this key and this associated data. -/
  | envelope (key th : Block) (body : Body)
  /-- Anything else. -/
  | other (bytes : Bytes)
  deriving DecidableEq

/-- A pairing protocol message. -/
inductive PairMessage where
  | commit (protocol : String) (mode : PairingMode) (commitment : Block) (proof : Option Block)
  | offer (ephemeral : Block) (inviter : PublicIdentity)
  | reveal (ephemeral : Block)
  | join (box : Sealed)
  | welcome (box : Sealed)
  | abort (reason : AbortReason)
  deriving DecidableEq

/-- An X25519 key pair for one session. -/
structure Ephemeral where
  secret : Block
  publicKey : Block
  deriving DecidableEq

variable (C : PairCrypto)

def Ephemeral.generate (drawn : Block) : Ephemeral := ⟨drawn, C.ephemeralPublic drawn⟩

/-- X25519 with the peer's key. -/
def Ephemeral.agree (e : Ephemeral) (peer : Block) : Except Error Block :=
  match C.agree e.secret peer with
  | some shared => .ok shared
  | none => .error (.auth "the other device sent an invalid key")

def commitmentOf (ephemeral : Block) : Block :=
  C.derive "panora-pair/1 commitment" ephemeral.val

/-- What a joiner holding the invitation secret attaches to its commit. -/
def invitationProof (secret commitment : Block) : Block :=
  C.keyed (C.derive "panora-pair/1 invitation proof" secret.val) commitment.val

def outOfOrder : Error := .protocol "unexpected message, or pairing already ended"

/-- Whether `msg` may start a session in `window`. -/
def checkCommit (window : PairingWindow) : PairMessage → Except Error Unit
  | .commit protocol mode commitment proof =>
    if protocol ≠ protocolName then .error (.protocol "unsupported pairing protocol version")
    else if mode ≠ window.mode then .error .modeMismatch
    else
      match window.invitation with
      | some invitation =>
        if proof ≠ some (invitationProof C invitation.secret commitment) then
          .error (.auth "the other device does not hold the invitation")
        else .ok ()
      | none => .ok ()
  | _ => .error outOfOrder

/-! ## §2. The keys of a session -/

/-- Transcript fields, in protocol order. -/
structure Transcript where
  mode : PairingMode
  commitment : Block
  inviterEphemeral : Block
  inviter : PublicIdentity
  joinerEphemeral : Block
  deriving DecidableEq

/-- How the transcript names a mode. -/
def PairingMode.label : PairingMode → Bytes
  | .invitation => utf8 "invitation"
  | .code => utf8 "code"

/-- What is hashed of a transcript. -/
def Transcript.encode (t : Transcript) : Bytes :=
  let out := utf8 protocolName
  let out := put out t.mode.label
  let out := put out t.commitment.val
  let out := put out t.inviterEphemeral.val
  let out := put out t.inviter
  put out t.joinerEphemeral.val

/-- Keys of one pairing session. -/
structure Session where
  th : Block
  joinerToInviter : Block
  inviterToJoiner : Block
  code : SasCode
  deriving DecidableEq

/-- The hash of a transcript. -/
def Transcript.hash (t : Transcript) : Block := C.derive "panora-pair/1 transcript" t.encode

/-- What the session key is derived from: the X25519 secret, the invitation's secret or
    zeros, and the transcript hash. -/
def keyMaterial (t : Transcript) (shared : Block) (secret : Option Block) : Bytes :=
  shared.val ++ (secret.getD zeroBlock).val ++ (t.hash C).val

/-- `u64::from_le_bytes` of the first eight bytes. -/
def firstU64 (b : Block) : Nat := ofBe (b.val.take 8).reverse

def Session.derive (t : Transcript) (shared : Block) (secret : Option Block) : Session :=
  let prk := C.derive "panora-pair/1 session key" (keyMaterial C t shared secret)
  let raw := C.keyed prk (utf8 "short authentication string")
  { th := t.hash C
    joinerToInviter := C.keyed prk (utf8 "joiner to inviter")
    inviterToJoiner := C.keyed prk (utf8 "inviter to joiner")
    code := ⟨firstU64 raw % 1000000⟩ }

/-- What a side signs. -/
def Session.signedContext (s : Session) (label : String) : Bytes :=
  put (put (utf8 protocolName) (utf8 label)) s.th.val

/-- Seal a body for this session. -/
def sealBody (key th : Block) (body : Body) : Sealed := .envelope key th body

/-- Open what the other side sealed. -/
def openSealed (key th : Block) (box : Sealed) (failure : String) : Except Error Body :=
  match box with
  | .envelope key' th' body =>
    if key' = key ∧ th' = th then .ok body else .error (.auth failure)
  | .other _ => .error (.auth failure)

/-- Check an identity's signature. -/
def verifySignature (identity : PublicIdentity) (message signature : Bytes) : Except Error Unit :=
  if C.group.verifies identity message signature then .ok ()
  else .error (.auth "signature does not match the device identity")

/-! ## §3. The joiner -/

inductive JoinerState where
  | committed (ephemeral : Ephemeral) (commitment : Block)
  | keyed (session : Session) (inviter : PublicIdentity) (sentJoin : Bool)
  deriving DecidableEq

/-- The new device's side. -/
structure Joiner where
  identity : DeviceIdentity
  deviceId : String
  name : String
  invitation : Option Invitation
  state : Option JoinerState
  deriving DecidableEq

namespace Joiner

/-- The mode this joiner pairs in. -/
def mode (j : Joiner) : PairingMode := if j.invitation.isSome then .invitation else .code

/-- An invitation that can still be used, and was made elsewhere. -/
def checkInvitation (identity : DeviceIdentity) (now : Int) : Option Invitation → Except Error Unit
  | some inv =>
    if inv.isExpired now then .error (.expired "the invitation has expired")
    else if inv.inviter = identity.publicKey C.group then
      .error (.invitation "this invitation was made on this device")
    else .ok ()
  | none => .ok ()

/-- Begin joining.  Returns the first message to send. -/
def start (identity : DeviceIdentity) (deviceId name : String) (invitation : Option Invitation)
    (now : Int) (drawn : Block) : Except Error (Joiner × PairMessage) :=
  (ofGroup (validateDeviceId deviceId)).bind fun _ =>
  (ofGroup (validateName name)).bind fun _ =>
  (checkInvitation C identity now invitation).bind fun _ =>
  let ephemeral := Ephemeral.generate C drawn
  let commitment := commitmentOf C ephemeral.publicKey
  let joiner : Joiner :=
    ⟨identity, deviceId, name, invitation, some (.committed ephemeral commitment)⟩
  let proof := invitation.map (fun inv => invitationProof C inv.secret commitment)
  .ok (joiner, .commit protocolName joiner.mode commitment proof)

/-- What the joiner derives from an offer. -/
def acceptOffer (j : Joiner) (ephemeral : Ephemeral) (commitment inviterEphemeral : Block)
    (inviter : PublicIdentity) : Except Error Session :=
  if inviter = j.identity.publicKey C.group then
    .error (.auth "the other device claims this device's identity")
  else if j.invitation.any (fun inv => decide (inv.inviter ≠ inviter)) then
    .error (.auth "the device that answered is not the one that made the invitation")
  else
    (ephemeral.agree C inviterEphemeral).bind fun shared =>
    .ok (Session.derive C
      ⟨j.mode, commitment, inviterEphemeral, inviter, ephemeral.publicKey⟩ shared
      (j.invitation.map Invitation.secret))

/-- Handle the inviter's offer; returns the reveal to send. -/
def onOffer (j : Joiner) (msg : PairMessage) : Except Error PairMessage × Joiner :=
  let spent := { j with state := none }
  match msg, j.state with
  | .abort reason, _ => (.error (.aborted reason), spent)
  | .offer inviterEphemeral inviter, some (.committed ephemeral commitment) =>
    match j.acceptOffer C ephemeral commitment inviterEphemeral inviter with
    | .error e => (.error e, spent)
    | .ok session =>
      (.ok (.reveal ephemeral.publicKey), { j with state := some (.keyed session inviter false) })
  | _, _ => (.error outOfOrder, spent)

/-- The code to show, in code mode. -/
def code (j : Joiner) : Option SasCode :=
  match j.state, j.mode with
  | some (.keyed session _ _), .code => some session.code
  | _, _ => none

/-- Go ahead: returns the sealed join message. -/
def confirm (j : Joiner) : Except Error PairMessage × Joiner :=
  match j.state with
  | some (.keyed session inviter false) =>
    let body : JoinBody :=
      ⟨j.identity.publicKey C.group, j.deviceId, j.name,
        C.group.sign j.identity.secret (session.signedContext "join")⟩
    (.ok (.join (sealBody session.joinerToInviter session.th (.join body))),
      { j with state := some (.keyed session inviter true) })
  | _ => (.error outOfOrder, j)

/-- The last two of some rosters. -/
def lastTwo (rosters : List Roster) : Except Error (Roster × Roster) :=
  match rosters.reverse with
  | current :: parent :: _ => .ok (parent, current)
  | _ => .error (.protocol "a welcome carries at least two rosters")

/-- What the joiner makes of a welcome. -/
def acceptWelcome (j : Joiner) (session : Session) (inviter : PublicIdentity) (box : Sealed) :
    Except Error GroupState :=
  (openSealed session.inviterToJoiner session.th box "could not open the welcome").bind fun
  | .join _ => .error .json
  | .welcome body =>
    (verifySignature C inviter (session.signedContext "welcome") body.signature).bind fun _ =>
    (lastTwo body.rosters).bind fun (parent, current) =>
    let me := j.identity.publicKey C.group
    (ofGroup (parent.verify C.group)).bind fun _ =>
    (ofGroup (current.verify C.group)).bind fun _ =>
    (ofGroup (checkSuccessor C.group parent current)).bind fun _ =>
    let admitted := decide (current.signer = inviter) && (parent.member me).isNone
      && (current.member me).any (fun m => m.deviceId == j.deviceId && m.name == j.name)
    if !admitted then
      .error (.group (.roster "the welcome roster does not admit this device as it asked"))
    else ofGroup (GroupState.joined C.group me body.rosters body.key)

/-- Handle the welcome; returns this device's new group. -/
def onWelcome (j : Joiner) (msg : PairMessage) : Except Error GroupState × Joiner :=
  let spent := { j with state := none }
  match msg, j.state with
  | .abort reason, _ => (.error (.aborted reason), spent)
  | .welcome box, some (.keyed session inviter true) =>
    (j.acceptWelcome C session inviter box, spent)
  | _, _ => (.error outOfOrder, spent)

end Joiner

/-! ## §4. The inviter -/

inductive InviterState where
  | awaitCommit
  | offered (ephemeral : Ephemeral) (commitment : Block)
  | keyed (session : Session)
  | pending (session : Session) (request : JoinRequest)
  deriving DecidableEq

/-- A member's side, for one incoming device.  It holds the window for the whole
    session. -/
structure Inviter where
  identity : DeviceIdentity
  window : PairingWindow
  groupId : Bytes
  mode : PairingMode
  secret : Option Block
  state : Option InviterState
  deriving DecidableEq

namespace Inviter

/-- Start answering one device, if `window` is open at `now`.  Uses up an attempt. -/
def new (identity : DeviceIdentity) (group : GroupState) (window : PairingWindow) (now : Int) :
    Except Error Inviter :=
  (ofGroup group.isMember).bind fun isMember =>
  if group.me ≠ identity.publicKey C.group ∨ ¬ isMember then
    .error (.group (.roster "this device is not a member of the group"))
  else if window.invitation.any (fun inv => decide (inv.inviter ≠ identity.publicKey C.group)) then
    .error (.invitation "the invitation was made by another device")
  else
    (window.begin now).bind fun begun =>
    (ofGroup group.groupId).bind fun groupId =>
    .ok ⟨identity, begun, groupId, begun.mode, window.invitation.map Invitation.secret,
      some .awaitCommit⟩

/-- Handle the joiner's commitment; returns the offer to send. -/
def onCommit (i : Inviter) (msg : PairMessage) (drawn : Block) :
    Except Error PairMessage × Inviter :=
  let spent := { i with state := none }
  match msg, i.state with
  | .abort reason, _ => (.error (.aborted reason), spent)
  | .commit protocol mode commitment proof, some .awaitCommit =>
    match checkCommit C i.window (.commit protocol mode commitment proof) with
    | .error e => (.error e, spent)
    | .ok () =>
      let ephemeral := Ephemeral.generate C drawn
      (.ok (.offer ephemeral.publicKey (i.identity.publicKey C.group)),
        { i with state := some (.offered ephemeral commitment) })
  | _, _ => (.error outOfOrder, spent)

/-- What the inviter derives from a reveal. -/
def acceptReveal (i : Inviter) (ephemeral : Ephemeral) (committed joinerEphemeral : Block) :
    Except Error Session :=
  if commitmentOf C joinerEphemeral ≠ committed then
    .error (.auth "the other device broke its commitment")
  else
    (ephemeral.agree C joinerEphemeral).bind fun shared =>
    .ok (Session.derive C
      ⟨i.mode, committed, ephemeral.publicKey, i.identity.publicKey C.group, joinerEphemeral⟩
      shared i.secret)

/-- Handle the joiner's reveal. -/
def onReveal (i : Inviter) (msg : PairMessage) : Except Error Unit × Inviter :=
  let spent := { i with state := none }
  match msg, i.state with
  | .abort reason, _ => (.error (.aborted reason), spent)
  | .reveal joinerEphemeral, some (.offered ephemeral committed) =>
    match i.acceptReveal C ephemeral committed joinerEphemeral with
    | .error e => (.error e, spent)
    | .ok session => (.ok (), { i with state := some (.keyed session) })
  | _, _ => (.error outOfOrder, spent)

/-- The code to show, in code mode. -/
def code (i : Inviter) : Option SasCode :=
  match i.state, i.mode with
  | some (.keyed session), .code => some session.code
  | some (.pending session _), .code => some session.code
  | _, _ => none

/-- What the inviter says of a join it cannot open. -/
def joinFailure : PairingMode → String
  | .invitation => "the other device does not hold this invitation"
  | .code => "the keys differ: the codes did not match"

/-- Who a sealed introduction is from. -/
def acceptJoin (i : Inviter) (session : Session) (box : Sealed) : Except Error JoinRequest :=
  (openSealed session.joinerToInviter session.th box (joinFailure i.mode)).bind fun
  | .welcome _ => .error .json
  | .join body =>
    (verifySignature C body.identity (session.signedContext "join") body.signature).bind fun _ =>
    (ofGroup (validateDeviceId body.deviceId)).bind fun _ =>
    (ofGroup (validateName body.name)).bind fun _ =>
    if body.identity = i.identity.publicKey C.group then
      .error (.auth "the other device claims this device's identity")
    else .ok ⟨body.identity, body.deviceId, body.name⟩

/-- Handle the joiner's sealed introduction. -/
def onJoin (i : Inviter) (msg : PairMessage) : Except Error JoinRequest × Inviter :=
  let spent := { i with state := none }
  match msg, i.state with
  | .abort reason, _ => (.error (.aborted reason), spent)
  | .join box, some (.keyed session) =>
    match i.acceptJoin C session box with
    | .error e => (.error e, spent)
    | .ok request => (.ok request, { i with state := some (.pending session request) })
  | _, _ => (.error outOfOrder, spent)

/-- Admit the device: adds it to `group`, closes the window, and returns the welcome to
    send and the new roster. -/
def approve (i : Inviter) (group : GroupState) (now : Int) :
    Except Error (PairMessage × Roster) × Inviter × GroupState :=
  let spent := { i with state := none }
  match i.state with
  | some (.pending session request) =>
    if !i.window.isLive now then
      (.error (.invitation "the pairing window closed"), spent, group)
    else
      match ofGroup group.groupId with
      | .error e => (.error e, spent, group)
      | .ok groupId =>
        if groupId ≠ i.groupId then
          (.error (.group (.roster "the group changed during pairing")), spent, group)
        else
          match group.addMember C.group i.identity
              ⟨request.identity, request.deviceId, request.name, now⟩ now with
          | (.error e, group) => (.error (.group e), spent, group)
          | (.ok roster, group) =>
            match ofGroup (group.currentKey C.group) with
            | .error e => (.error e, spent, group)
            | .ok none =>
              (.error (.group (.roster "this device does not hold the current key yet")),
                spent, group)
            | .ok (some key) =>
              let body : WelcomeBody :=
                ⟨C.group.sign i.identity.secret (session.signedContext "welcome"),
                  group.rosters, key⟩
              (.ok (.welcome (sealBody session.inviterToJoiner session.th (.welcome body)), roster),
                { spent with window := i.window.close }, group)
  | _ => (.error outOfOrder, spent, group)

/-- Decline. -/
def reject (i : Inviter) : PairMessage × Inviter := (.abort .rejected, { i with state := none })

end Inviter

/-! ## §5. What a call can do -/

variable {C}

theorem Ephemeral.agree_ok {e : Ephemeral} {peer shared : Block}
    (h : e.agree C peer = .ok shared) : C.agree e.secret peer = some shared := by
  unfold Ephemeral.agree at h
  cases hagree : C.agree e.secret peer with
  | none =>
    rw [hagree] at h
    cases h
  | some s =>
    rw [hagree] at h
    injection h with h
    rw [h]

/-- What opens was sealed under this key, for this transcript. -/
theorem openSealed_ok {key th : Block} {box : Sealed} {failure : String} {body : Body}
    (h : openSealed key th box failure = .ok body) : box = .envelope key th body := by
  cases box with
  | other bytes => exact absurd h (by simp [openSealed])
  | envelope key' th' body' =>
    simp only [openSealed] at h
    split at h
    next hsame =>
      injection h with h
      rw [hsame.1, hsame.2, h]
    next => cases h

/-- The join an inviter takes was sealed for its session. -/
theorem Inviter.acceptJoin_ok {i : Inviter} {session : Session} {box : Sealed}
    {request : JoinRequest} (h : i.acceptJoin C session box = .ok request) :
    ∃ body : JoinBody, box = .envelope session.joinerToInviter session.th (.join body)
      ∧ request = ⟨body.identity, body.deviceId, body.name⟩ := by
  obtain ⟨body, hopen, hrest⟩ := bind_ok_iff.mp h
  cases body with
  | welcome body => cases hrest
  | join body =>
    simp only [bind_ok_iff, check_ok_iff] at hrest
    obtain ⟨-, -, -, -, -, -, -, hrequest⟩ := hrest
    injection hrequest with hrequest
    exact ⟨body, openSealed_ok hopen, hrequest.symm⟩

/-- What a joiner found in the welcome it took. -/
structure Joiner.Welcomed (C : PairCrypto) (j : Joiner) (session : Session)
    (inviter : PublicIdentity) (box : Sealed) (group : GroupState) (body : WelcomeBody)
    (parent current : Roster) : Prop where
  envelope : box = .envelope session.inviterToJoiner session.th (.welcome body)
  rosters : body.rosters.reverse.take 2 = [current, parent]
  valid : current.Valid C.group
  signer : current.signer = inviter
  newcomer : parent.member (j.identity.publicKey C.group) = none
  listed : ∃ m, current.member (j.identity.publicKey C.group) = some m
    ∧ m.deviceId = j.deviceId ∧ m.name = j.name
  joined : GroupState.joined C.group (j.identity.publicKey C.group) body.rosters body.key
    = .ok group

theorem Joiner.lastTwo_ok {rosters : List Roster} {parent current : Roster}
    (h : lastTwo rosters = .ok (parent, current)) : rosters.reverse.take 2 = [current, parent] := by
  unfold lastTwo at h
  split at h
  next c p rest heq =>
    injection h with h
    obtain ⟨rfl, rfl⟩ := Prod.mk.inj h
    rw [heq]
    rfl
  next => cases h

/-- The welcome a joiner takes was sealed for its session and admits it as it asked. -/
theorem Joiner.acceptWelcome_ok {j : Joiner} {session : Session} {inviter : PublicIdentity}
    {box : Sealed} {group : GroupState} (h : j.acceptWelcome C session inviter box = .ok group) :
    ∃ body parent current, Welcomed C j session inviter box group body parent current := by
  obtain ⟨body, hopen, hrest⟩ := bind_ok_iff.mp h
  cases body with
  | join body => cases hrest
  | welcome body =>
    simp only [bind_ok_iff, check_ok_iff, Unique.exists_iff, ofGroup_ok_iff] at hrest
    obtain ⟨-, ⟨parent, current⟩, hlast, -, hverify, -, hadmitted, hjoined⟩ := hrest
    simp only [Bool.not_eq_true, Bool.not_eq_false', Bool.and_eq_true, decide_eq_true_eq,
      Option.isNone_iff_eq_none, Option.any_eq_true, beq_iff_eq] at hadmitted
    obtain ⟨⟨hsigner, hnew⟩, m, hm, hdevice, hname⟩ := hadmitted
    exact ⟨body, parent, current,
      { envelope := openSealed_ok hopen
        rosters := lastTwo_ok hlast
        valid := (verify_ok_iff C.group current).mp hverify
        signer := hsigner
        newcomer := hnew
        listed := ⟨m, hm, hdevice, hname⟩
        joined := hjoined }⟩

namespace Inviter

variable {i : Inviter}

theorem onCommit_spec (i : Inviter) (msg : PairMessage) (drawn : Block) :
    (∃ e, i.onCommit C msg drawn = (.error e, { i with state := none })) ∨
      ∃ protocol mode commitment proof, msg = .commit protocol mode commitment proof
        ∧ i.state = some .awaitCommit
        ∧ checkCommit C i.window (.commit protocol mode commitment proof) = .ok ()
        ∧ i.onCommit C msg drawn
          = (.ok (.offer (Ephemeral.generate C drawn).publicKey (i.identity.publicKey C.group)),
            { i with state := some (.offered (Ephemeral.generate C drawn) commitment) }) := by
  unfold onCommit
  dsimp only
  split
  next => exact .inl ⟨_, rfl⟩
  next protocol mode commitment proof hstate =>
    cases hcheck : checkCommit C i.window (.commit protocol mode commitment proof) with
    | error e => exact .inl ⟨e, rfl⟩
    | ok u => exact .inr ⟨protocol, mode, commitment, proof, rfl, hstate, hcheck, rfl⟩
  next => exact .inl ⟨_, rfl⟩

theorem onReveal_spec (i : Inviter) (msg : PairMessage) :
    (∃ e, i.onReveal C msg = (.error e, { i with state := none })) ∨
      ∃ joinerEphemeral ephemeral committed session, msg = .reveal joinerEphemeral
        ∧ i.state = some (.offered ephemeral committed)
        ∧ i.acceptReveal C ephemeral committed joinerEphemeral = .ok session
        ∧ i.onReveal C msg = (.ok (), { i with state := some (.keyed session) }) := by
  unfold onReveal
  dsimp only
  split
  next => exact .inl ⟨_, rfl⟩
  next joinerEphemeral ephemeral committed hstate =>
    cases hsession : i.acceptReveal C ephemeral committed joinerEphemeral with
    | error e => exact .inl ⟨e, rfl⟩
    | ok session =>
      exact .inr ⟨joinerEphemeral, ephemeral, committed, session, rfl, hstate, hsession, rfl⟩
  next => exact .inl ⟨_, rfl⟩

theorem onJoin_spec (i : Inviter) (msg : PairMessage) :
    (∃ e, i.onJoin C msg = (.error e, { i with state := none })) ∨
      ∃ box session request, msg = .join box ∧ i.state = some (.keyed session)
        ∧ i.acceptJoin C session box = .ok request
        ∧ i.onJoin C msg = (.ok request, { i with state := some (.pending session request) }) := by
  unfold onJoin
  dsimp only
  split
  next => exact .inl ⟨_, rfl⟩
  next box session hstate =>
    cases hrequest : i.acceptJoin C session box with
    | error e => exact .inl ⟨e, rfl⟩
    | ok request => exact .inr ⟨box, session, request, rfl, hstate, hrequest, rfl⟩
  next => exact .inl ⟨_, rfl⟩

/-- The device a request asks to be listed as. -/
def memberOf (request : JoinRequest) (now : Int) : Member :=
  ⟨request.identity, request.deviceId, request.name, now⟩

/-- The welcome to an admitted device. -/
def welcomeFor (C : PairCrypto) (i : Inviter) (session : Session) (group : GroupState)
    (key : GroupKey) : PairMessage :=
  .welcome (sealBody session.inviterToJoiner session.th (.welcome
    ⟨C.group.sign i.identity.secret (session.signedContext "welcome"), group.rosters, key⟩))

theorem approve_spec (i : Inviter) (group : GroupState) (now : Int) :
    (∃ e group', i.approve C group now = (.error e, { i with state := none }, group')) ∨
      ∃ session request roster group' key, i.state = some (.pending session request)
        ∧ i.window.isLive now = true ∧ group.groupId = .ok i.groupId
        ∧ group.addMember C.group i.identity (memberOf request now) now = (.ok roster, group')
        ∧ group'.currentKey C.group = .ok (some key)
        ∧ i.approve C group now
          = (.ok (i.welcomeFor C session group' key, roster),
            { i with state := none, window := i.window.close }, group') := by
  unfold approve
  dsimp only
  split
  next session request hstate =>
    cases hlive : i.window.isLive now with
    | false => exact .inl ⟨_, _, rfl⟩
    | true =>
    cases hgroup : group.groupId with
    | error e => exact .inl ⟨_, _, rfl⟩
    | ok groupId =>
    by_cases hsame : groupId ≠ i.groupId
    · exact .inl ⟨.group (.roster "the group changed during pairing"), group, if_pos hsame⟩
    · have heq : groupId = i.groupId := not_not.mp hsame
      subst heq
      cases hadd : group.addMember C.group i.identity (memberOf request now) now with
      | mk result group' =>
      have hadd' : group.addMember C.group i.identity
          ⟨request.identity, request.deviceId, request.name, now⟩ now = (result, group') := hadd
      cases result with
      | error e =>
        left
        exact ⟨.group e, group', by simp [ofGroup, Except.mapError, hadd']⟩
      | ok roster =>
      cases hkey : group'.currentKey C.group with
      | error e =>
        left
        exact ⟨.group e, group', by simp [ofGroup, Except.mapError, hadd', hkey]⟩
      | ok found =>
      cases found with
      | none =>
        left
        exact ⟨_, group', by simp [ofGroup, Except.mapError, hadd', hkey]; rfl⟩
      | some key =>
        right
        exact ⟨session, request, roster, group', key, hstate, rfl, rfl, hadd, hkey,
          by simp [ofGroup, Except.mapError, hadd', hkey, welcomeFor]⟩
  next => exact .inl ⟨_, _, rfl⟩

end Inviter

namespace Joiner

theorem onOffer_spec (j : Joiner) (msg : PairMessage) :
    (∃ e, j.onOffer C msg = (.error e, { j with state := none })) ∨
      ∃ inviterEphemeral inviter ephemeral commitment session,
        msg = .offer inviterEphemeral inviter
        ∧ j.state = some (.committed ephemeral commitment)
        ∧ j.acceptOffer C ephemeral commitment inviterEphemeral inviter = .ok session
        ∧ j.onOffer C msg = (.ok (.reveal ephemeral.publicKey),
          { j with state := some (.keyed session inviter false) }) := by
  unfold onOffer
  dsimp only
  split
  next => exact .inl ⟨_, rfl⟩
  next inviterEphemeral inviter ephemeral commitment hstate =>
    cases hsession : j.acceptOffer C ephemeral commitment inviterEphemeral inviter with
    | error e => exact .inl ⟨e, rfl⟩
    | ok session =>
      exact .inr ⟨inviterEphemeral, inviter, ephemeral, commitment, session, rfl, hstate,
        hsession, rfl⟩
  next => exact .inl ⟨_, rfl⟩

/-- What a joiner says about itself, sealed for a session. -/
def joinFor (C : PairCrypto) (j : Joiner) (session : Session) : PairMessage :=
  .join (sealBody session.joinerToInviter session.th (.join
    ⟨j.identity.publicKey C.group, j.deviceId, j.name,
      C.group.sign j.identity.secret (session.signedContext "join")⟩))

theorem confirm_spec (j : Joiner) :
    (∃ e, j.confirm C = (.error e, j)) ∨
      ∃ session inviter, j.state = some (.keyed session inviter false)
        ∧ j.confirm C = (.ok (j.joinFor C session),
          { j with state := some (.keyed session inviter true) }) := by
  unfold confirm
  split
  next session inviter hstate => exact .inr ⟨session, inviter, hstate, rfl⟩
  next => exact .inl ⟨_, rfl⟩

theorem onWelcome_spec (j : Joiner) (msg : PairMessage) :
    (∃ e, j.onWelcome C msg = (.error e, { j with state := none })) ∨
      ∃ box session inviter group, msg = .welcome box
        ∧ j.state = some (.keyed session inviter true)
        ∧ j.acceptWelcome C session inviter box = .ok group
        ∧ j.onWelcome C msg = (.ok group, { j with state := none }) := by
  unfold onWelcome
  dsimp only
  split
  next => exact .inl ⟨_, rfl⟩
  next box session inviter hstate =>
    cases hgroup : j.acceptWelcome C session inviter box with
    | error e => exact .inl ⟨e, rfl⟩
    | ok group => exact .inr ⟨box, session, inviter, group, rfl, hstate, hgroup, rfl⟩
  next => exact .inl ⟨_, rfl⟩

end Joiner

end Panora.Pairing
