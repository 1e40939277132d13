/-
  Panora.Group.Change — what adding and removing a device does.

  Between two members of a group, an addition or a removal succeeds exactly when
  there is room for it: fewer than sixteen devices, for an addition, and an epoch
  below the highest.  Everything else `add_member` and `remove_member` check of
  the roster they made holds of itself, given that the state was well kept and
  the change makes sense.

  Main results:
    * `addMember_eq`, `addMember_full`       — an addition, with room and without;
    * `removeMember_eq`, `removeMember_full` — a removal, with room and without.
-/
import Panora.Group.Reload

namespace Panora.Group

open Lib.Fallible Lib.Keyed List

/-! ## §1. The rosters the two changes make -/

/-- The members after `m` was added. -/
def withMember (members : List Member) (m : Member) : List Member :=
  (members ++ [m]).insertionSort (fun a b => a.identity ≤ b.identity)

/-- The members after identity `i` was removed. -/
def withoutMember (members : List Member) (i : PublicIdentity) : List Member :=
  members.filter (fun m => decide (m.identity ≠ i))

/-- The roster that adds `m` to `cur`. -/
def additionOf (C : Crypto) (cur : Roster) (signer : DeviceIdentity) (m : Member)
    (now : Int) : Roster :=
  Roster.signed C
    { cur with
      epoch := cur.epoch + 1, prev := cur.hash C, createdAt := now
      members := withMember cur.members m } signer

/-- The key a removal from `cur` introduces. -/
def removalKey (cur : Roster) (drawn : Nat → Bytes) : GroupKey :=
  ⟨cur.epoch + 1, drawn (cur.epoch + 1)⟩

/-- The roster that removes `i` from `cur`. -/
def removalOf (C : Crypto) (cur : Roster) (signer : DeviceIdentity) (i : PublicIdentity)
    (now : Int) (drawn : Nat → Bytes) : Roster :=
  Roster.signed C
    { cur with
      epoch := cur.epoch + 1, prev := cur.hash C, createdAt := now
      members := withoutMember cur.members i, keyEpoch := cur.epoch + 1
      keyCheck := (removalKey cur drawn).check C cur.groupId } signer

/-- A device cannot be added: its identity or its device id is in use. -/
def taken (members : List Member) (m : Member) : Bool :=
  (lookup Member.identity members m.identity).isSome
    || members.any (fun x => x.deviceId == m.deviceId)

variable {members : List Member} {m x : Member}

theorem mem_withMember : x ∈ withMember members m ↔ x ∈ members ∨ x = m := by
  unfold withMember
  rw [mem_insertionSort, mem_append, mem_singleton]

theorem length_withMember (members : List Member) (m : Member) :
    (withMember members m).length = members.length + 1 := by
  unfold withMember
  rw [length_insertionSort, length_append, length_singleton]

variable {i : PublicIdentity}

theorem mem_withoutMember : x ∈ withoutMember members i ↔ x ∈ members ∧ x.identity ≠ i := by
  unfold withoutMember
  rw [mem_filter, decide_eq_true_eq]

theorem taken_eq_false :
    taken members m = false ↔
      (∀ x ∈ members, x.identity ≠ m.identity) ∧ ∀ x ∈ members, x.deviceId ≠ m.deviceId := by
  unfold taken
  rw [Bool.or_eq_false_iff, Option.isSome_eq_false_iff, Option.isNone_iff_eq_none,
    lookup_eq_none, any_eq_false]
  simp only [beq_iff_eq]

section Sound

variable {C : Crypto} {cur : Roster} (hcur : cur.Valid C) (signer : DeviceIdentity)
  (hsigner : cur.member (signer.publicKey C) ≠ none) (now : Int)

/-! ## §2. They pass every check -/

include hcur in
/-- Adding a device that is not in the group yet, where there is room, makes a
    valid roster. -/
theorem valid_additionOf (hfree : taken cur.members m = false)
    (hid : validateDeviceId m.deviceId = .ok ()) (hname : validateName m.name = .ok ())
    (hlen : cur.members.length < maxMembers) (hepoch : cur.epoch < maxEpoch) :
    (additionOf C cur signer m now).Valid C := by
  obtain ⟨hident, hdevice⟩ := taken_eq_false.mp hfree
  have hperm : (withMember cur.members m).Perm (cur.members ++ [m]) :=
    perm_insertionSort _ _
  exact {
    nonempty := by
      show withMember cur.members m ≠ []
      intro hnil
      have := length_withMember cur.members m
      rw [hnil] at this
      cases this
    atMost := by
      show (withMember cur.members m).length ≤ maxMembers
      rw [length_withMember]
      omega
    sorted := by
      refine increasing_sort ?_
      rw [map_append, nodup_append]
      refine ⟨hcur.identitiesNodup, by simp, ?_⟩
      intro a ha b hb
      obtain ⟨x, hx, rfl⟩ := mem_map.mp ha
      rw [show b = m.identity by simpa using hb]
      exact hident x hx
    idsNodup := by
      show ((withMember cur.members m).map Member.deviceId).Nodup
      rw [(hperm.map Member.deviceId).nodup_iff, map_append, nodup_append]
      refine ⟨hcur.idsNodup, by simp, ?_⟩
      intro a ha b hb
      obtain ⟨x, hx, rfl⟩ := mem_map.mp ha
      rw [show b = m.deviceId by simpa using hb]
      exact hdevice x hx
    described := by
      intro x hx
      rcases mem_withMember.mp hx with hx | rfl
      · exact hcur.described x hx
      · exact ⟨hid, hname⟩
    epochBound := hepoch
    keyEpochBound := Nat.le_succ_of_le hcur.keyEpochBound
    genesis := fun h0 => absurd h0 (Nat.succ_ne_zero _)
    signature := signed_verifies C _ signer }

include hcur hsigner in
/-- It is a legal successor: one device more, everything else as before. -/
theorem succeeds_additionOf (hfree : taken cur.members m = false)
    (hvalid : (additionOf C cur signer m now).Valid C) :
    Succeeds C cur (additionOf C cur signer m now) := by
  have hkey : cur.keyEpoch ≠ cur.epoch + 1 := by
    have := hcur.keyEpochBound
    omega
  exact {
    groupId := rfl
    epoch := rfl
    prev := rfl
    signer := hsigner
    unchanged := by
      intro x hx n hn
      have hx' := hvalid.member_eq_some.mpr ⟨mem_withMember.mpr (.inl hx), rfl⟩
      rw [hn] at hx'
      injection hx'
    rotation := fun h => absurd h hkey
    noRotation := fun _ => ⟨rfl, rfl⟩
    removal := by
      intro hgone
      obtain ⟨x, hx⟩ := exists_mem_of_ne_nil _ hgone
      obtain ⟨hx, hnone⟩ := mem_membersWithout.mp hx
      exact absurd rfl (member_eq_none.mp hnone x (mem_withMember.mpr (.inl hx)))
    change := by
      have hm : m ∈ (additionOf C cur signer m now).membersWithout cur :=
        mem_membersWithout.mpr ⟨mem_withMember.mpr (.inr rfl),
          member_eq_none.mpr (taken_eq_false.mp hfree).1⟩
      exact .inr (.inl (ne_nil_of_mem hm)) }

include hcur in
/-- Removing another device than the signer, where the epoch allows it, makes a
    valid roster. -/
theorem valid_removalOf (drawn : Nat → Bytes)
    (hsigner : cur.member (signer.publicKey C) ≠ none) (hother : i ≠ signer.publicKey C)
    (hepoch : cur.epoch < maxEpoch) : (removalOf C cur signer i now drawn).Valid C := by
  have hsub : (withoutMember cur.members i).Sublist cur.members := filter_sublist
  exact {
    nonempty := by
      -- the signer stays
      obtain ⟨x, hx⟩ := Option.ne_none_iff_exists'.mp hsigner
      obtain ⟨hx, hident⟩ := hcur.member_eq_some.mp hx
      refine ne_nil_of_mem (mem_withoutMember.mpr ⟨hx, ?_⟩)
      rw [hident]
      exact fun h => hother h.symm
    atMost := le_trans hsub.length_le hcur.atMost
    sorted := hcur.sorted.sublist hsub
    idsNodup := hcur.idsNodup.sublist (hsub.map Member.deviceId)
    described := fun x hx => hcur.described x (mem_withoutMember.mp hx).1
    epochBound := hepoch
    keyEpochBound := le_refl _
    genesis := fun h0 => absurd h0 (Nat.succ_ne_zero _)
    signature := signed_verifies C _ signer }

include hcur hsigner in
/-- It is a legal successor if the key it introduces is a new one. -/
theorem succeeds_removalOf {drawn : Nat → Bytes}
    (hfresh : (removalKey cur drawn).check C cur.groupId ≠ cur.keyCheck) :
    Succeeds C cur (removalOf C cur signer i now drawn) :=
  { groupId := rfl
    epoch := rfl
    prev := rfl
    signer := hsigner
    unchanged := by
      intro x hx n hn
      obtain ⟨hn, hident⟩ := mem_of_lookup hn
      have hx' := hcur.member_eq_some.mpr ⟨hx, rfl⟩
      rw [hcur.member_eq_some.mpr ⟨(mem_withoutMember.mp hn).1, hident⟩] at hx'
      injection hx'
    rotation := fun _ => hfresh
    noRotation := fun h => absurd rfl h
    removal := fun _ => rfl
    change := .inr (.inr rfl) }

end Sound

/-! ## §3. With room and without -/

namespace GroupState

variable {C : Crypto} {s : GroupState} {cur : Roster} {signer : DeviceIdentity}

/-- This device, a member of its group, may make changes to it. -/
structure MayChange (C : Crypto) (s : GroupState) (cur : Roster) (signer : DeviceIdentity) :
    Prop where
  kept : s.WellKept C
  current : s.rosters.getLast? = some cur
  signer : signer.publicKey C = s.me
  member : cur.member s.me ≠ none

variable {r : Roster}

namespace MayChange

theorem valid (h : s.MayChange C cur signer) : cur.Valid C :=
  h.kept.history.valid cur (mem_of_getLast? h.current)

theorem signerMember (h : s.MayChange C cur signer) : cur.member (signer.publicKey C) ≠ none := by
  rw [h.signer]
  exact h.member

theorem current_ok (h : s.MayChange C cur signer) : s.current = .ok cur :=
  current_eq_ok_iff.mpr h.current

theorem change_eq (h : s.MayChange C cur signer) (now : Int) :
    s.change C signer now
      = .ok { cur with epoch := cur.epoch + 1, prev := cur.hash C, createdAt := now } := by
  have hmem : (cur.member s.me).isSome = true := Option.isSome_iff_ne_none.mpr h.member
  simp [change, isMember, h.current_ok, Except.map, Except.bind, h.signer, hmem]

theorem signNext_eq (h : s.MayChange C cur signer) {next : Roster}
    (hvalid : (next.signed C signer).Valid C) (hsucc : Succeeds C cur (next.signed C signer)) :
    s.signNext C signer next = .ok (next.signed C signer) :=
  signNext_ok_iff.mpr ⟨rfl, hvalid, cur, h.current, hsucc⟩

/-- After a change, this device may go on changing the group. -/
theorem push (h : s.MayChange C cur signer) (hvalid : r.Valid C)
    (hsucc : Succeeds C cur r) (hme : r.member s.me ≠ none) (keys : List GroupKey) :
    ({ s with keys := keys }.push C r).MayChange C r signer := by
  refine ⟨?_, push_getLast? C _ r, by rw [push_me]; exact h.signer, by rw [push_me]; exact hme⟩
  refine wellKept_push (s := { s with keys := keys }) h.kept.history hvalid (fun c hc => ?_)
  have : cur = c := by simpa [h.current] using hc
  exact this ▸ hsucc

end MayChange

/-- Adding a device where there is room. -/
theorem addMember_eq (h : s.MayChange C cur signer)
    (hfree : taken cur.members m = false) (hid : validateDeviceId m.deviceId = .ok ())
    (hname : validateName m.name = .ok ()) (hlen : cur.members.length < maxMembers)
    (hepoch : cur.epoch < maxEpoch) (now : Int) :
    s.addMember C signer m now
      = (.ok (additionOf C cur signer m now), s.push C (additionOf C cur signer m now)) := by
  have hvalid := valid_additionOf h.valid signer now hfree hid hname hlen hepoch
  have hsucc := succeeds_additionOf h.valid signer h.signerMember now hfree hvalid
  have hsign := h.signNext_eq hvalid hsucc
  obtain ⟨hident, hdevice⟩ := taken_eq_false.mp hfree
  have hroster : s.additionRoster C signer m now = .ok (additionOf C cur signer m now) := by
    unfold additionRoster
    rw [hid, hname, h.change_eq now]
    show (if _ then _ else if _ then _ else if _ then _ else _) = _
    rw [if_neg, if_neg, if_neg]
    · exact hsign
    · show ¬ cur.members.length ≥ maxMembers
      omega
    · simpa using hdevice
    · have : lookup Member.identity cur.members m.identity = none := lookup_eq_none.mpr hident
      simp [Roster.member, this]
  unfold addMember
  rw [hroster]

/-- Adding a device where there is no room fails and changes nothing. -/
theorem addMember_full (h : s.MayChange C cur signer)
    (hfull : ¬ (cur.members.length < maxMembers ∧ cur.epoch < maxEpoch)) (now : Int) :
    ∃ e, s.addMember C signer m now = (.error e, s) := by
  unfold addMember
  cases hroster : s.additionRoster C signer m now with
  | error e => exact ⟨e, rfl⟩
  | ok r =>
    exfalso
    simp only [additionRoster, bind_ok_iff, Unique.exists_iff, check_ok_iff, h.change_eq now,
      Except.ok.injEq, exists_eq_left'] at hroster
    obtain ⟨-, -, -, -, hlen, hsign⟩ := hroster
    obtain ⟨rfl, hvalid, -⟩ := signNext_ok_iff.mp hsign
    have hepoch : cur.epoch + 1 ≤ maxEpoch := hvalid.epochBound
    omega

variable {now : Int}

/-- What a member that may change the group found there. -/
theorem change_ok {next : Roster} (h : s.change C signer now = .ok next) :
    ∃ cur, s.rosters.getLast? = some cur ∧ signer.publicKey C = s.me ∧ cur.member s.me ≠ none
      ∧ next = { cur with epoch := cur.epoch + 1, prev := cur.hash C, createdAt := now } := by
  simp only [change, bind_ok_iff, check_ok_iff, Except.ok.injEq] at h
  obtain ⟨isMember, hmember, hmay, cur, hcur, hnext⟩ := h
  rw [not_or, not_not, not_not] at hmay
  obtain ⟨cur', hcur', hsome⟩ := map_ok_iff.mp (show s.current.map _ = _ from hmember)
  rw [hcur] at hcur'
  cases hcur'
  rw [hmay.2] at hsome
  exact ⟨cur, current_eq_ok_iff.mp hcur, hmay.1, Option.isSome_iff_ne_none.mp hsome, hnext.symm⟩

/-- What an addition that succeeded has done. -/
structure Added (C : Crypto) (s : GroupState) (signer : DeviceIdentity) (m : Member) (now : Int)
    (cur r : Roster) (s' : GroupState) : Prop where
  current : s.rosters.getLast? = some cur
  signs : signer.publicKey C = s.me
  member : cur.member s.me ≠ none
  free : taken cur.members m = false
  roster : r = additionOf C cur signer m now
  valid : r.Valid C
  succeeds : Succeeds C cur r
  state : s' = s.push C r

/-- A device that is new in the roster is the one that was added. -/
theorem Added.newcomer {s' : GroupState}
    (h : Added C s signer m now cur r s') (hnew : cur.member i = none)
    (hlisted : r.member i = some x) : x = m ∧ m.identity = i := by
  obtain ⟨hx, hident⟩ := h.valid.member_eq_some.mp hlisted
  rw [h.roster] at hx
  rcases mem_withMember.mp hx with hx | rfl
  · exact absurd hident (member_eq_none.mp hnew x hx)
  · exact ⟨rfl, hident⟩

/-- **An addition that succeeds** adds a device that was not there to the current roster. -/
theorem addMember_ok {s' : GroupState} (h : s.addMember C signer m now = (.ok r, s')) :
    ∃ cur, Added C s signer m now cur r s' := by
  unfold addMember at h
  cases hroster : s.additionRoster C signer m now with
  | error e =>
    rw [hroster] at h
    cases h
  | ok r' =>
    rw [hroster] at h
    cases h
    simp only [additionRoster, bind_ok_iff, Unique.exists_iff, check_ok_iff] at hroster
    obtain ⟨-, -, next, hchange, hident, hdevice, -, hsign⟩ := hroster
    obtain ⟨cur, hcur, hsigner, hmember, rfl⟩ := change_ok hchange
    obtain ⟨hr, hvalid, cur', hcur', hsucc⟩ := signNext_ok_iff.mp hsign
    rw [hcur] at hcur'
    cases hcur'
    refine ⟨cur, hcur, hsigner, hmember, ?_, hr, hvalid, hsucc, rfl⟩
    have hident : (lookup Member.identity cur.members m.identity).isSome = false :=
      Bool.eq_false_of_not_eq_true hident
    have hdevice : (cur.members.any fun x => x.deviceId == m.deviceId) = false :=
      Bool.eq_false_of_not_eq_true hdevice
    unfold taken
    rw [hident, hdevice]
    rfl

/-- Removing another device while the epoch allows it. -/
theorem removeMember_eq (h : s.MayChange C cur signer)
    (hother : i ≠ s.me) (hlisted : cur.member i ≠ none) (hepoch : cur.epoch < maxEpoch)
    (drawn : Nat → Bytes)
    (hfresh : (removalKey cur drawn).check C cur.groupId ≠ cur.keyCheck) (now : Int) :
    s.removeMember C signer i now drawn
      = (.ok (removalOf C cur signer i now drawn, removalKey cur drawn),
        { s with keys := s.keys ++ [removalKey cur drawn] }.push C
          (removalOf C cur signer i now drawn)) := by
  have hvalid := valid_removalOf h.valid signer now drawn h.signerMember
    (by rw [h.signer]; exact hother) hepoch
  have hsucc := succeeds_removalOf h.valid signer h.signerMember now hfresh (i := i)
  have hsign := h.signNext_eq hvalid hsucc
  have hshorter : (withoutMember cur.members i).length ≠ cur.members.length := by
    obtain ⟨x, hx⟩ := Option.ne_none_iff_exists'.mp hlisted
    obtain ⟨hx, hident⟩ := mem_of_lookup hx
    intro heq
    have := filter_eq_self.mp (filter_sublist.eq_of_length heq) x hx
    simp [hident] at this
  have hroster : s.removalRoster C signer i now drawn
      = .ok (removalOf C cur signer i now drawn, removalKey cur drawn) := by
    unfold removalRoster
    rw [if_neg hother, h.change_eq now]
    show (if (withoutMember cur.members i).length = cur.members.length then _ else _) = _
    rw [if_neg hshorter]
    exact bind_ok_iff.mpr ⟨_, hsign, rfl⟩
  unfold removeMember
  rw [hroster]

/-- At the highest epoch a removal fails and changes nothing. -/
theorem removeMember_full (h : s.MayChange C cur signer)
    (hfull : ¬ cur.epoch < maxEpoch) (now : Int) (drawn : Nat → Bytes) :
    ∃ e, s.removeMember C signer i now drawn = (.error e, s) := by
  unfold removeMember
  cases hroster : s.removalRoster C signer i now drawn with
  | error e => exact ⟨e, rfl⟩
  | ok rk =>
    exfalso
    simp only [removalRoster, bind_ok_iff, check_ok_iff, h.change_eq now,
      Except.ok.injEq, exists_eq_left'] at hroster
    obtain ⟨-, -, r, hsign, -⟩ := hroster
    obtain ⟨rfl, hvalid, -⟩ := signNext_ok_iff.mp hsign
    have hepoch : cur.epoch + 1 ≤ maxEpoch := hvalid.epochBound
    omega

end GroupState

end Panora.Group
