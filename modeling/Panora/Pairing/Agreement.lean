/-
  Panora.Pairing.Agreement — what the two sides of a pairing agree on.

  An attacker carries every message, and runs sessions of its own.  So a run of a joiner
  takes any offer, and a run of an inviter takes any commitment, any reveal and any join;
  nothing is assumed about where these came from.  Two such runs meet only in a sealed
  message that one made and the other accepted.

  A sealed message carries the session: it opens under one key and one transcript hash.
  The transcript's encoding is injective, so the hash fixes the mode, the commitment, both
  ephemeral keys and the inviter's identity; the key fixes the key of the session, and so
  the other keys and the code.

  Hashes are ideal on what the two runs put in (`NoCollision`): no hash into thirty-two
  bytes is ideal on every input.

  Main result: `pairing_agreement`.
-/
import Panora.Group.Change
import Panora.Pairing.Protocol

namespace Panora.Pairing

open Panora.Group List Option Prod
open Panora.Lib.Fallible

/-! ## §1. The transcript is injective -/

/-- A field as `put` appends it. -/
def field (f : Bytes) : Bytes := u64Bytes f.length ++ f

theorem put_eq (out f : Bytes) : put out f = out ++ field f := append_assoc _ _ _

theorem field_inj {f g : Bytes} (h : field f = field g) : f = g :=
  append_inj_right h ((length_beBytes 8 _).trans (length_beBytes 8 _).symm)

/-- A field says where it ends. -/
theorem field_append_inj {f g rest rest' : Bytes} (h : field f ++ rest = field g ++ rest')
    (hf : f.length < 256 ^ 8) (hg : g.length < 256 ^ 8) : f = g ∧ rest = rest' := by
  unfold field at h
  rw [append_assoc, append_assoc] at h
  obtain ⟨hbytes, hrest⟩ :=
    append_inj h ((length_beBytes 8 _).trans (length_beBytes 8 _).symm)
  have hlength : f.length = g.length := by
    rw [← ofBe_beBytes hf, ← ofBe_beBytes hg]
    exact congrArg ofBe hbytes
  exact append_inj hrest hlength

theorem PairingMode.label_inj {m m' : PairingMode} (h : m.label = m'.label) : m = m' := by
  have hlength := congrArg length h
  cases m with
  | invitation =>
    cases m' with
    | invitation => rfl
    | code => exact absurd hlength (by decide +kernel)
  | code =>
    cases m' with
    | invitation => exact absurd hlength (by decide +kernel)
    | code => rfl

theorem PairingMode.length_label (m : PairingMode) : m.label.length < 256 ^ 8 := by
  cases m with
  | invitation => decide +kernel
  | code => decide +kernel

theorem Block.length_lt (b : Block) : b.val.length < 256 ^ 8 := by
  rw [b.property]
  decide

theorem Transcript.encode_eq (t : Transcript) :
    t.encode = utf8 protocolName ++ (field t.mode.label ++ (field t.commitment.val
      ++ (field t.inviterEphemeral.val ++ (field t.inviter ++ field t.joinerEphemeral.val)))) := by
  show put (put (put (put (put (utf8 protocolName) t.mode.label) t.commitment.val)
    t.inviterEphemeral.val) t.inviter) t.joinerEphemeral.val = _
  simp only [put_eq, append_assoc]

/-- **A transcript is read back from its encoding.** -/
theorem Transcript.encode_injective {t t' : Transcript} (h : t.encode = t'.encode) : t = t' := by
  rw [encode_eq, encode_eq] at h
  have h := append_cancel_left h
  obtain ⟨hmode, h⟩ := field_append_inj h t.mode.length_label t'.mode.length_label
  obtain ⟨hcommit, h⟩ := field_append_inj h t.commitment.length_lt t'.commitment.length_lt
  obtain ⟨hie, h⟩ :=
    field_append_inj h t.inviterEphemeral.length_lt t'.inviterEphemeral.length_lt
  -- the inviter's field is found from the end: the one after it has a fixed length
  have hlast : (field t.joinerEphemeral.val).length = (field t'.joinerEphemeral.val).length := by
    simp [field, u64Bytes, t.joinerEphemeral.property, t'.joinerEphemeral.property]
  obtain ⟨hinviter, hje⟩ := append_inj' h hlast
  cases t
  cases t'
  simp only [mk.injEq]
  exact ⟨PairingMode.label_inj hmode, Subtype.ext hcommit, Subtype.ext hie, field_inj hinviter,
    Subtype.ext (field_inj hje)⟩

/-! ## §2. Two runs -/

variable {C : PairCrypto}

/-- A joiner that confirmed: it started, took an offer, and made its join.  Only an offer
    is taken (`Joiner.onOffer_spec`). -/
structure JoinerRun (C : PairCrypto) where
  identity : DeviceIdentity
  deviceId : String
  name : String
  invitation : Option Invitation
  now : Int
  /-- Its ephemeral secret. -/
  drawn : Block
  /-- The offer that reached it. -/
  inviterEphemeral : Block
  inviter : PublicIdentity
  first : Joiner
  commit : PairMessage
  started : Joiner.start C identity deviceId name invitation now drawn = .ok (first, commit)
  keyed : Joiner
  reveal : PairMessage
  offered : first.onOffer C (.offer inviterEphemeral inviter) = (.ok reveal, keyed)
  last : Joiner
  join : PairMessage
  confirmed : keyed.confirm C = (.ok join, last)

/-- An inviter that took a join: its window let it start, and it took a commitment, a
    reveal and a join (`Inviter.onCommit_spec`, `onReveal_spec`, `onJoin_spec`). -/
structure InviterRun (C : PairCrypto) where
  identity : DeviceIdentity
  group : GroupState
  window : PairingWindow
  now : Int
  /-- Its ephemeral secret. -/
  drawn : Block
  /-- The commitment that reached it, whatever came with it. -/
  commitment : Block
  protocol : String
  asked : PairingMode
  proof : Option Block
  /-- The key revealed to it. -/
  joinerEphemeral : Block
  /-- The join that reached it. -/
  join : PairMessage
  first : Inviter
  opened : Inviter.new C identity group window now = .ok first
  second : Inviter
  offer : PairMessage
  committed : first.onCommit C (.commit protocol asked commitment proof) drawn = (.ok offer, second)
  third : Inviter
  revealed : second.onReveal C (.reveal joinerEphemeral) = (.ok (), third)
  last : Inviter
  request : JoinRequest
  taken : third.onJoin C join = (.ok request, last)

/-- The key the keys of a session are made from. -/
def sessionKey (C : PairCrypto) (t : Transcript) (shared : Block) (secret : Option Block) : Block :=
  C.derive "panora-pair/1 session key" (keyMaterial C t shared secret)

/-- Two sessions with one transcript hash and one key are one session. -/
theorem Session.derive_congr {t t' : Transcript} {shared shared' : Block}
    {secret secret' : Option Block} (hhash : t.hash C = t'.hash C)
    (hkey : sessionKey C t shared secret = sessionKey C t' shared' secret') :
    Session.derive C t shared secret = Session.derive C t' shared' secret' := by
  unfold sessionKey at hkey
  unfold Session.derive
  rw [hhash, hkey]

namespace JoinerRun

variable (J : JoinerRun C)

/-- The ephemeral key it sent. -/
def ephemeral : Block := (Ephemeral.generate C J.drawn).publicKey

def mode : PairingMode := if J.invitation.isSome then .invitation else .code

def transcript : Transcript :=
  ⟨J.mode, commitmentOf C J.ephemeral, J.inviterEphemeral, J.inviter, J.ephemeral⟩

/-- What X25519 gave it. -/
def shared : Block := (C.agree J.drawn J.inviterEphemeral).getD zeroBlock

def secret : Option Block := J.invitation.map Invitation.secret

def session : Session := Session.derive C J.transcript J.shared J.secret

end JoinerRun

namespace InviterRun

variable (I : InviterRun C)

/-- The ephemeral key it sent. -/
def ephemeral : Block := (Ephemeral.generate C I.drawn).publicKey

def transcript : Transcript :=
  ⟨I.window.mode, I.commitment, I.ephemeral, I.identity.publicKey C.group, I.joinerEphemeral⟩

/-- What X25519 gave it. -/
def shared : Block := (C.agree I.drawn I.joinerEphemeral).getD zeroBlock

def secret : Option Block := I.window.invitation.map Invitation.secret

def session : Session := Session.derive C I.transcript I.shared I.secret

end InviterRun

/-- The hashes keep apart what the two runs put into them. -/
structure NoCollision (J : JoinerRun C) (I : InviterRun C) : Prop where
  transcript : J.transcript.hash C = I.transcript.hash C →
    J.transcript.encode = I.transcript.encode
  keys : ∀ label ∈ ["joiner to inviter", "inviter to joiner"],
    C.keyed (sessionKey C J.transcript J.shared J.secret) (utf8 label)
        = C.keyed (sessionKey C I.transcript I.shared I.secret) (utf8 label) →
      sessionKey C J.transcript J.shared J.secret = sessionKey C I.transcript I.shared I.secret

/-- What the two runs agree on.  A session holds the transcript hash, the two keys and the
    code. -/
structure Agree (J : JoinerRun C) (I : InviterRun C) : Prop where
  mode : J.last.mode = I.last.mode
  inviterEphemeral : J.inviterEphemeral = I.ephemeral
  joinerEphemeral : J.ephemeral = I.joinerEphemeral
  inviter : J.inviter = I.identity.publicKey C.group
  request : I.request = ⟨J.identity.publicKey C.group, J.deviceId, J.name⟩
  session : ∃ session, J.last.state = some (.keyed session J.inviter true)
    ∧ I.last.state = some (.pending session I.request)
  code : J.last.code = I.last.code

/-! ## §3. What a run ends with -/

namespace JoinerRun

variable (J : JoinerRun C)

theorem first_eq : J.first = ⟨J.identity, J.deviceId, J.name, J.invitation,
    some (.committed (Ephemeral.generate C J.drawn) (commitmentOf C J.ephemeral))⟩ := by
  have hstarted := J.started
  simp only [Joiner.start, bind_ok_iff, Unique.exists_iff] at hstarted
  obtain ⟨-, -, -, hfirst⟩ := hstarted
  injection hfirst with hfirst
  exact (Prod.mk.inj hfirst).1.symm

/-- The session a joiner derives is the one its transcript and its secrets give. -/
theorem acceptOffer_eq {session : Session}
    (h : J.first.acceptOffer C (Ephemeral.generate C J.drawn) (commitmentOf C J.ephemeral)
      J.inviterEphemeral J.inviter = .ok session) : session = J.session := by
  rw [J.first_eq] at h
  simp only [Joiner.acceptOffer, check_ok_iff, bind_ok_iff] at h
  obtain ⟨-, -, shared, hagree, hsession⟩ := h
  injection hsession with hsession
  have hshared : J.shared = shared := by
    unfold JoinerRun.shared
    rw [show C.agree J.drawn J.inviterEphemeral = some shared from Ephemeral.agree_ok hagree]
    rfl
  rw [← hsession, JoinerRun.session, hshared]
  rfl

theorem keyed_eq : J.keyed = ⟨J.identity, J.deviceId, J.name, J.invitation,
    some (.keyed J.session J.inviter false)⟩ := by
  rcases J.first.onOffer_spec (C := C) (.offer J.inviterEphemeral J.inviter) with
    ⟨e, herror⟩ | ⟨ie, inviter, ephemeral, commitment, session, hmsg, hstate, haccept, hoffer⟩
  · exact absurd (J.offered.symm.trans herror) (by simp)
  · obtain ⟨rfl, rfl⟩ := PairMessage.offer.inj hmsg
    have hkeyed := (Prod.mk.inj (J.offered.symm.trans hoffer)).2
    have hfirst : J.first.state = _ := congrArg Joiner.state J.first_eq
    obtain ⟨rfl, rfl⟩ := JoinerState.committed.inj (some.inj (hstate.symm.trans hfirst))
    rw [hkeyed, J.acceptOffer_eq haccept, J.first_eq]

/-- The joiner's last state, and the join it sent. -/
theorem last_eq : J.last = ⟨J.identity, J.deviceId, J.name, J.invitation,
      some (.keyed J.session J.inviter true)⟩ ∧ J.join = J.last.joinFor C J.session := by
  rcases J.keyed.confirm_spec (C := C) with ⟨e, herror⟩ | ⟨session, inviter, hstate, hconfirm⟩
  · exact absurd (J.confirmed.symm.trans herror) (by simp)
  · obtain ⟨hjoin, hlast⟩ := Prod.mk.inj (J.confirmed.symm.trans hconfirm)
    injection hjoin with hjoin
    have hkeyed : J.keyed.state = _ := congrArg Joiner.state J.keyed_eq
    obtain ⟨rfl, rfl, -⟩ := JoinerState.keyed.inj (Option.some.inj (hstate.symm.trans hkeyed))
    rw [J.keyed_eq] at hlast hjoin
    exact ⟨hlast, by rw [hjoin, hlast]; rfl⟩

end JoinerRun

namespace InviterRun

variable (I : InviterRun C)

theorem first_eq : I.first.identity = I.identity ∧ I.first.mode = I.window.mode
    ∧ I.first.secret = I.secret := by
  have hopened := I.opened
  simp only [Inviter.new, bind_ok_iff, check_ok_iff] at hopened
  obtain ⟨-, -, -, -, begun, hbegun, groupId, -, hfirst⟩ := hopened
  injection hfirst with hfirst
  obtain ⟨-, -, -, rfl⟩ := PairingWindow.begin_eq_ok.mp hbegun
  rw [← hfirst]
  exact ⟨rfl, rfl, rfl⟩

theorem second_eq : I.second =
    { I.first with state := some (.offered (Ephemeral.generate C I.drawn) I.commitment) } := by
  rcases I.first.onCommit_spec (C := C) (.commit I.protocol I.asked I.commitment I.proof) I.drawn
    with ⟨e, herror⟩ | ⟨protocol, mode, commitment, proof, hmsg, -, -, hcommit⟩
  · exact absurd (I.committed.symm.trans herror) (by simp)
  · obtain ⟨rfl, rfl, rfl, rfl⟩ := PairMessage.commit.inj hmsg
    exact (Prod.mk.inj (I.committed.symm.trans hcommit)).2

/-- The session an inviter derives is the one its transcript and its secrets give. -/
theorem acceptReveal_eq {session : Session}
    (h : I.second.acceptReveal C (Ephemeral.generate C I.drawn) I.commitment I.joinerEphemeral
      = .ok session) : session = I.session := by
  obtain ⟨hidentity, hmode, hsecret⟩ := I.first_eq
  rw [I.second_eq] at h
  simp only [Inviter.acceptReveal, check_ok_iff, bind_ok_iff, hidentity, hmode, hsecret] at h
  obtain ⟨-, shared, hagree, hsession⟩ := h
  injection hsession with hsession
  have hshared : I.shared = shared := by
    unfold InviterRun.shared
    rw [show C.agree I.drawn I.joinerEphemeral = some shared from Ephemeral.agree_ok hagree]
    rfl
  rw [← hsession, InviterRun.session, hshared]
  rfl

theorem third_eq : I.third = { I.first with state := some (.keyed I.session) } := by
  rcases I.second.onReveal_spec (C := C) (.reveal I.joinerEphemeral) with
    ⟨e, herror⟩ | ⟨je, ephemeral, committed, session, hmsg, hstate, haccept, hreveal⟩
  · exact absurd (I.revealed.symm.trans herror) (by simp)
  · obtain rfl := PairMessage.reveal.inj hmsg
    have hthird := (Prod.mk.inj (I.revealed.symm.trans hreveal)).2
    have hsecond : I.second.state = _ := congrArg Inviter.state I.second_eq
    obtain ⟨rfl, rfl⟩ := InviterState.offered.inj (some.inj (hstate.symm.trans hsecond))
    rw [hthird, I.acceptReveal_eq haccept, I.second_eq]

/-- The inviter's last state, and the join it opened. -/
theorem last_eq : I.last = { I.first with state := some (.pending I.session I.request) }
    ∧ ∃ body : JoinBody,
      I.join = .join (.envelope I.session.joinerToInviter I.session.th (.join body))
      ∧ I.request = ⟨body.identity, body.deviceId, body.name⟩ := by
  rcases I.third.onJoin_spec (C := C) I.join with
    ⟨e, herror⟩ | ⟨box, session, request, hjoin, hstate, haccept, hlast⟩
  · exact absurd (I.taken.symm.trans herror) (by simp)
  · obtain ⟨hrequest, hlast⟩ := Prod.mk.inj (I.taken.symm.trans hlast)
    injection hrequest with hrequest
    subst hrequest
    have hthird : I.third.state = _ := congrArg Inviter.state I.third_eq
    obtain rfl := InviterState.keyed.inj (Option.some.inj (hstate.symm.trans hthird))
    refine ⟨by rw [hlast, I.third_eq], ?_⟩
    obtain ⟨body, hbox, hbody⟩ := Inviter.acceptJoin_ok haccept
    exact ⟨body, by rw [hjoin, hbox], hbody⟩

end InviterRun

/-! ## §4. Agreement -/

section Meet

variable {J : JoinerRun C} {I : InviterRun C}

/-- Two sessions that a sealed message passed between are one. -/
theorem NoCollision.sameSession (h : NoCollision J I) (hth : J.session.th = I.session.th)
    (label : String) (hlabel : label ∈ ["joiner to inviter", "inviter to joiner"])
    (hkey : C.keyed (sessionKey C J.transcript J.shared J.secret) (utf8 label)
      = C.keyed (sessionKey C I.transcript I.shared I.secret) (utf8 label)) :
    J.transcript = I.transcript ∧ J.session = I.session :=
  ⟨Transcript.encode_injective (h.transcript hth),
    Session.derive_congr hth (h.keys label hlabel hkey)⟩

/-- One transcript and one session, and the request that the joiner made: all agrees. -/
theorem agree_of_same (htranscript : J.transcript = I.transcript) (hsession : J.session = I.session)
    (hrequest : I.request = ⟨J.identity.publicKey C.group, J.deviceId, J.name⟩) : Agree J I := by
  obtain ⟨hmode, -, hie, hinviter, hje⟩ := Transcript.mk.inj htranscript
  have hlast := J.last_eq.1
  have hlast' := I.last_eq.1
  have hmode : J.last.mode = I.last.mode := by
    rw [hlast, hlast']
    exact hmode.trans I.first_eq.2.1.symm
  have hstate : J.last.state = some (.keyed J.session J.inviter true) := by rw [hlast]
  have hstate' : I.last.state = some (.pending J.session I.request) := by rw [hlast', hsession]
  refine
    { mode := hmode
      inviterEphemeral := hie
      joinerEphemeral := hje
      inviter := hinviter
      request := hrequest
      session := ⟨J.session, hstate, hstate'⟩
      code := ?_ }
  unfold Joiner.code Inviter.code
  rw [hstate, hstate', hmode]
  cases I.last.mode with
  | invitation => rfl
  | code => rfl

/-- An inviter that takes the joiner's join agrees with it. -/
theorem NoCollision.agree_of_join (h : NoCollision J I) (hsame : I.join = J.join) : Agree J I := by
  obtain ⟨-, body, hjoin, hrequest⟩ := I.last_eq
  obtain ⟨hlast, hsent⟩ := J.last_eq
  rw [hsame, hsent] at hjoin
  -- one message: one key, one transcript hash, one body
  obtain ⟨hkey, hth, hbody⟩ := Sealed.envelope.inj (PairMessage.join.inj hjoin)
  have hbody := Body.join.inj hbody
  obtain ⟨htranscript, hsession⟩ := h.sameSession hth "joiner to inviter" (by simp) hkey
  apply agree_of_same htranscript hsession
  rw [hrequest, ← hbody, hlast]

/-- A joiner that takes the inviter's welcome agrees with it, and is in the group the
    inviter put it in. -/
theorem NoCollision.agree_of_welcome (h : NoCollision J I) {group group' final : GroupState}
    {now : Int} {welcome : PairMessage} {roster : Roster} {i : Inviter} {j : Joiner}
    (happrove : I.last.approve C group now = (.ok (welcome, roster), i, group'))
    (hwelcome : J.last.onWelcome C welcome = (.ok final, j)) :
    Agree J I ∧ final.current = .ok roster ∧ group'.current = .ok roster
      ∧ roster.Valid C.group ∧ roster.signer = I.identity.publicKey C.group
      ∧ roster.member (J.identity.publicKey C.group)
        = some ⟨J.identity.publicKey C.group, J.deviceId, J.name, now⟩ := by
  obtain ⟨hlast, -⟩ := J.last_eq
  obtain ⟨hlast', -⟩ := I.last_eq
  -- what the inviter did
  rcases I.last.approve_spec (C := C) group now with
    ⟨e, g, herror⟩ | ⟨session, request, roster', g, key, hstate, -, -, hadd, -, hdone⟩
  · exact absurd (happrove.symm.trans herror) (by simp)
  obtain ⟨hok, hrest⟩ := mk.inj (happrove.symm.trans hdone)
  obtain ⟨rfl, rfl⟩ := mk.inj (Except.ok.inj hok)
  obtain rfl := (mk.inj hrest).2
  have hpending : I.last.state = _ := congrArg Inviter.state hlast'
  obtain ⟨rfl, rfl⟩ := InviterState.pending.inj (some.inj (hstate.symm.trans hpending))
  obtain ⟨cur, hadded⟩ := GroupState.addMember_ok hadd
  -- what the joiner did
  rcases J.last.onWelcome_spec (C := C) (I.last.welcomeFor C I.session group' key) with
    ⟨e, herror⟩ | ⟨box, session, inviter, g, hbox, hstate', haccept, hdone'⟩
  · exact absurd (hwelcome.symm.trans herror) (by simp)
  obtain rfl := Except.ok.inj (mk.inj (hwelcome.symm.trans hdone')).1
  have hkeyed : J.last.state = _ := congrArg Joiner.state hlast
  obtain ⟨rfl, rfl, -⟩ := JoinerState.keyed.inj (some.inj (hstate'.symm.trans hkeyed))
  obtain ⟨body, parent, current, hwelcomed⟩ := Joiner.acceptWelcome_ok haccept
  rw [hwelcomed.envelope] at hbox
  -- one message: one key, one transcript hash, one body
  obtain ⟨hkey, hth, hbody⟩ := Sealed.envelope.inj (PairMessage.welcome.inj hbox)
  obtain ⟨htranscript, hsession⟩ :=
    h.sameSession hth.symm "inviter to joiner" (by simp) hkey.symm
  -- the rosters sent are those after the admission, so the newest is the one made there
  have hrosters := hwelcomed.rosters
  rw [← Body.welcome.inj hbody, show group' = group.push C.group roster from hadded.state]
    at hrosters
  obtain ⟨rfl, hparent⟩ := GroupState.push_newestTwo hrosters
  obtain rfl := some.inj (hadded.current.symm.trans hparent)
  obtain ⟨m, hm, hdevice, hname⟩ := hwelcomed.listed
  obtain ⟨rfl, hident⟩ := hadded.newcomer hwelcomed.newcomer hm
  rw [hlast] at hm hident hdevice hname
  have hrequest : I.request = ⟨J.identity.publicKey C.group, J.deviceId, J.name⟩ := by
    show (⟨I.request.identity, I.request.deviceId, I.request.name⟩ : JoinRequest) = _
    rw [show I.request.identity = _ from hident, show I.request.deviceId = _ from hdevice,
      show I.request.name = _ from hname]
  have hnewest : group'.rosters.getLast? = some current := by
    rw [show group' = group.push C.group current from hadded.state]
    exact GroupState.push_getLast? C.group group current
  refine ⟨agree_of_same htranscript hsession hrequest, ?_, ?_, hwelcomed.valid, ?_, ?_⟩
  · rw [GroupState.joined_ok hwelcomed.joined, ← Body.welcome.inj hbody]
    exact GroupState.current_eq_ok_iff.mpr hnewest
  · exact GroupState.current_eq_ok_iff.mpr hnewest
  · rw [hwelcomed.signer]
    exact (Transcript.mk.inj htranscript).2.2.2.1
  · rw [hm, Inviter.memberOf, hrequest]

end Meet

/-- **Pairing agreement.**  Whatever an attacker delivered to the two: if the inviter takes
    the join the joiner made, or the joiner takes the welcome the inviter made, both ran
    with the same mode, ephemeral keys, identities, name, session and code.  In the second
    case the joiner's current roster is the one the inviter signed, and lists the joiner
    as it asked. -/
theorem pairing_agreement (C : PairCrypto) (J : JoinerRun C) (I : InviterRun C)
    (hideal : NoCollision J I) :
    (I.join = J.join → Agree J I)
      ∧ ∀ (group : GroupState) (now : Int) (welcome : PairMessage) (roster : Roster)
          (i : Inviter) (group' : GroupState) (final : GroupState) (j : Joiner),
        I.last.approve C group now = (.ok (welcome, roster), i, group') →
        J.last.onWelcome C welcome = (.ok final, j) →
        Agree J I ∧ final.current = .ok roster ∧ group'.current = .ok roster
          ∧ roster.Valid C.group ∧ roster.signer = I.identity.publicKey C.group
          ∧ roster.member (J.identity.publicKey C.group)
            = some ⟨J.identity.publicKey C.group, J.deviceId, J.name, now⟩ := by
  constructor
  · exact hideal.agree_of_join
  · intro group now welcome roster i group' final j happrove hwelcome
    exact hideal.agree_of_welcome happrove hwelcome

/-! ## §5. An honest pairing -/

namespace Honest

/-- The first thirty-two bytes, filled up with zeros. -/
def toBlock (b : Bytes) : Block :=
  ⟨(b ++ zeroHash).take 32, by
    rw [length_take, length_append, show zeroHash.length = 32 from rfl]
    omega⟩

/-- Primitives to run a pairing with. -/
def crypto : PairCrypto where
  group := plainCrypto
  derive _ input := toBlock input
  keyed key _ := key
  ephemeralPublic secret := secret
  agree mine peer := some (toBlock (zipWith (· + ·) mine.val peer.val))

/-- The group of one device. -/
def group : GroupState :=
  ⟨[1], [Roster.signed plainCrypto
    { groupId := [7], epoch := 0, prev := zeroHash, createdAt := 100, keyEpoch := 0
      keyCheck := GroupKey.check plainCrypto ⟨0, [9]⟩ [7]
      members := [⟨[1], "desktop-1", "Desk", 100⟩], signer := [1], signature := [] } ⟨[1]⟩],
    [⟨0, [9]⟩]⟩

def window : PairingWindow := PairingWindow.forCode 100

/-- The session the two devices derive. -/
def session : Session :=
  Session.derive crypto ⟨.code, commitmentOf crypto (toBlock [5]), toBlock [6], [1], toBlock [5]⟩
    (toBlock [11]) none

def laptop (state : JoinerState) : Joiner := ⟨⟨[2]⟩, "laptop-2", "Lap", none, some state⟩

def desktop (state : InviterState) : Inviter :=
  ⟨⟨[1]⟩, { window with attempts := 1 }, [7], .code, none, some state⟩

def joinerRun : JoinerRun crypto where
  identity := ⟨[2]⟩
  deviceId := "laptop-2"
  name := "Lap"
  invitation := none
  now := 101
  drawn := toBlock [5]
  inviterEphemeral := toBlock [6]
  inviter := [1]
  first := laptop (.committed ⟨toBlock [5], toBlock [5]⟩ (commitmentOf crypto (toBlock [5])))
  commit := .commit protocolName .code (commitmentOf crypto (toBlock [5])) none
  started := by decide +kernel
  keyed := laptop (.keyed session [1] false)
  reveal := .reveal (toBlock [5])
  offered := by decide +kernel
  last := laptop (.keyed session [1] true)
  join := (laptop (.keyed session [1] false)).joinFor crypto session
  confirmed := by decide +kernel

def inviterRun : InviterRun crypto where
  identity := ⟨[1]⟩
  group := group
  window := window
  now := 101
  drawn := toBlock [6]
  commitment := commitmentOf crypto (toBlock [5])
  protocol := protocolName
  asked := .code
  proof := none
  joinerEphemeral := toBlock [5]
  join := joinerRun.join
  first := desktop .awaitCommit
  opened := by decide +kernel
  second := desktop (.offered ⟨toBlock [6], toBlock [6]⟩ (commitmentOf crypto (toBlock [5])))
  offer := .offer (toBlock [6]) [1]
  committed := by decide +kernel
  third := desktop (.keyed session)
  revealed := by decide +kernel
  last := desktop (.pending session ⟨[2], "laptop-2", "Lap"⟩)
  request := ⟨[2], "laptop-2", "Lap"⟩
  taken := by decide +kernel

/-- What the two devices hash is the same. -/
theorem noCollision : NoCollision joinerRun inviterRun where
  transcript _ := by decide +kernel
  keys _ _ _ := by decide +kernel

/-- The welcome opens at the laptop. -/
theorem welcomed : ∃ welcome roster i group' final j,
    inviterRun.last.approve crypto group 102 = (.ok (welcome, roster), i, group')
      ∧ joinerRun.last.onWelcome crypto welcome = (.ok final, j) := by
  have hok : (match (inviterRun.last.approve crypto group 102).1 with
      | .ok (welcome, _) => (joinerRun.last.onWelcome crypto welcome).1.toOption.isSome
      | .error _ => false) = true := by decide +kernel
  rcases happrove : inviterRun.last.approve crypto group 102 with ⟨_ | ⟨welcome, roster⟩, i, group'⟩
  · rw [happrove] at hok
    cases hok
  · rw [happrove] at hok
    rcases hwelcome : joinerRun.last.onWelcome crypto welcome with ⟨_ | final, j⟩
    · simp only [hwelcome] at hok
      exact absurd hok (by simp [Except.toOption])
    · exact ⟨welcome, roster, i, group', final, j, rfl, hwelcome⟩

theorem pairing_agreement_honest :
    NoCollision joinerRun inviterRun ∧ inviterRun.join = joinerRun.join
      ∧ Agree joinerRun inviterRun
      ∧ ∃ welcome roster i group' final j,
        inviterRun.last.approve crypto group 102 = (.ok (welcome, roster), i, group')
          ∧ joinerRun.last.onWelcome crypto welcome = (.ok final, j)
          ∧ final.current = .ok roster
          ∧ roster.member [2] = some ⟨[2], "laptop-2", "Lap", 102⟩ := by
  obtain ⟨hjoin, hwelcome⟩ := pairing_agreement crypto joinerRun inviterRun noCollision
  obtain ⟨welcome, roster, i, group', final, j, happrove, htaken⟩ := welcomed
  obtain ⟨-, hcurrent, -, -, -, hlisted⟩ :=
    hwelcome group 102 welcome roster i group' final j happrove htaken
  exact ⟨noCollision, rfl, hjoin rfl, welcome, roster, i, group', final, j, happrove, htaken,
    hcurrent, hlisted⟩

end Honest

end Panora.Pairing
