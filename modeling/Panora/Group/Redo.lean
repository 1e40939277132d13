/-
  Panora.Group.Redo — do removals survive a lost fork?

  When a competing branch wins, `apply_chain` hands back what the dropped branch
  had done, and `reapply` redoes it on top of the winner.  `reapply` stops at the
  first change that fails.  An addition can fail, for want of room, and then the
  removals listed after it are not made either.

  `redo` is `reapply` with everything taken away but the member list and the
  epoch; `reapply_refines_redo` says that nothing else matters.  On that level
  the question has an exact answer, `roomToRedo`.

  Main results:
    * `reapply_refines_redo`             — `reapply` does to the members what `redo` does;
    * `redo_removes_iff`                 — all removals are made iff `roomToRedo`;
    * `removals_survive_fork_iff`        — the same for a fork lost by any reachable state;
    * `removal_swallowed_by_full_group`  — a run in which a removal is swallowed.
-/
import Panora.Group.Change
import Panora.Group.WinBack

namespace Panora.Group

open Lib.Fallible Lib.Keyed List

/-! ## §1. Redoing changes on a member list -/

/-- Is identity `i` in the list? -/
def listed (members : List Member) (i : PublicIdentity) : Bool :=
  (lookup Member.identity members i).isSome

/-- One change redone on a member list at an epoch; `none` when it finds no room.
    A change that no longer makes sense leaves both as they are. -/
def redoStep (members : List Member) (epoch : Nat) : Change → Option (List Member × Nat)
  | .added m =>
      if taken members m then some (members, epoch)
      else if members.length < maxMembers ∧ epoch < maxEpoch then
        some (withMember members m, epoch + 1)
      else none
  | .removed i =>
      if listed members i then
        if epoch < maxEpoch then some (withoutMember members i, epoch + 1) else none
      else some (members, epoch)

/-- The members after redoing a list of changes, up to the first without room. -/
def redo : List Member → Nat → List Change → List Member
  | members, _, [] => members
  | members, epoch, c :: changes =>
      match redoStep members epoch c with
      | some (members, epoch) => redo members epoch changes
      | none => members

/-- None of the removals in `changes` concerns a listed device. -/
def nothingToRemove (members : List Member) (changes : List Change) : Bool :=
  changes.all (fun c => match c with
    | .added _ => true
    | .removed i => !listed members i)

/-- There is room for every change that still makes sense, at least until no removal
    is left to make. -/
def roomToRedo : List Member → Nat → List Change → Bool
  | _, _, [] => true
  | members, epoch, c :: changes =>
      match redoStep members epoch c with
      | some (members, epoch) => roomToRedo members epoch changes
      | none => nothingToRemove members (c :: changes)

/-- Is `c` an addition of `i` that still makes sense? -/
def addsNow (members : List Member) (i : PublicIdentity) : Change → Bool
  | .added m => decide (m.identity = i) && !taken members m
  | .removed _ => false

/-- Does redoing the changes make an addition of `i`? -/
def addsBack (i : PublicIdentity) : List Member → Nat → List Change → Bool
  | _, _, [] => false
  | members, epoch, c :: changes =>
      match redoStep members epoch c with
      | some (members', epoch') => addsNow members i c || addsBack i members' epoch' changes
      | none => false

variable {members : List Member} {i : PublicIdentity}

theorem listed_eq_true : listed members i = true ↔ ∃ m ∈ members, m.identity = i :=
  lookup_isSome

theorem listed_eq_false : listed members i = false ↔ ∀ m ∈ members, m.identity ≠ i := by
  unfold listed
  rw [Option.isSome_eq_false_iff, Option.isNone_iff_eq_none, lookup_eq_none]

/-- A roster names no entry for the identities that its members do not include. -/
theorem member_eq_none_iff_listed {r : Roster} (h : r.members = members) (i : PublicIdentity) :
    r.member i = none ↔ listed members i = false := by
  rw [← h]
  exact member_eq_none.trans listed_eq_false.symm

theorem nothingToRemove_eq_true {changes : List Change} :
    nothingToRemove members changes = true ↔
      ∀ i, Change.removed i ∈ changes → listed members i = false := by
  unfold nothingToRemove
  rw [all_eq_true]
  constructor
  · intro h i hi
    have := h _ hi
    simpa using this
  · intro h c hc
    cases c with
    | added m => rfl
    | removed i => simpa using h i hc

/-- **Who is listed after a step**: who was listed and is not removed, and who is added. -/
theorem listed_redoStep {c : Change} {epoch : Nat} {next : List Member × Nat}
    (h : redoStep members epoch c = some next) (i : PublicIdentity) :
    listed next.1 i = true ↔
      listed members i = true ∧ c ≠ .removed i ∨ addsNow members i c = true := by
  cases c with
  | added m =>
    simp only [redoStep] at h
    split at h
    next htaken =>
      cases h
      simp [addsNow, htaken]
    next hfree =>
    split at h
    next =>
      cases h
      simp [addsNow, hfree, listed_eq_true, mem_withMember, or_and_right, exists_or]
    next => cases h
  | removed j =>
    simp only [redoStep] at h
    split at h
    next =>
      split at h
      next =>
        cases h
        simp only [listed_eq_true, mem_withoutMember, addsNow]
        aesop
      next => cases h
    next hnot =>
      cases h
      have hother : listed members i = true → j ≠ i := fun hi heq => hnot (heq ▸ hi)
      simpa [addsNow] using hother

/-- The devices to add and the devices to remove are different ones. -/
def Separate (changes : List Change) : Prop :=
  ∀ m i, Change.added m ∈ changes → Change.removed i ∈ changes → m.identity ≠ i

/-- What is made is among the changes. -/
theorem mem_of_addsBack : ∀ {changes : List Change} {members : List Member} {epoch : Nat},
    addsBack i members epoch changes = true → ∃ m, Change.added m ∈ changes ∧ m.identity = i
  | [], _, _, h => by cases h
  | c :: changes, members, epoch, h => by
    rw [addsBack] at h
    split at h
    next =>
      rcases Bool.or_eq_true_iff.mp h with hnow | hback
      · cases c with
        | added m => exact ⟨m, mem_cons_self, (by simpa [addsNow] using hnow : _ ∧ _).1⟩
        | removed j => cases hnow
      · obtain ⟨m, hm, hident⟩ := mem_of_addsBack hback
        exact ⟨m, mem_cons_of_mem _ hm, hident⟩
    next => cases h

/-- **Who is listed after all of them** was listed or is added; and who is, unless removed. -/
theorem listed_redo : ∀ (changes : List Change) (members : List Member) (epoch : Nat),
    (listed (redo members epoch changes) i = true →
        listed members i = true ∨ addsBack i members epoch changes = true) ∧
      (Change.removed i ∉ changes →
        listed members i = true ∨ addsBack i members epoch changes = true →
        listed (redo members epoch changes) i = true)
  | [], members, epoch => by simp [redo, addsBack]
  | c :: changes, members, epoch => by
    rw [redo, addsBack]
    cases hstep : redoStep members epoch c with
    | none => simp
    | some next =>
      have hnext := listed_redoStep hstep i
      obtain ⟨hback, hkept⟩ := listed_redo changes next.1 next.2
      rw [hnext] at hback hkept
      simp only [Bool.or_eq_true, mem_cons, not_or, ne_eq] at hback hkept ⊢
      constructor
      · intro h
        rcases hback h with (⟨hi, -⟩ | hnow) | hlater
        · exact .inl hi
        · exact .inr (.inl hnow)
        · exact .inr (.inr hlater)
      · rintro ⟨hc, hnot⟩ h
        refine hkept hnot ?_
        rcases h with hi | hnow | hlater
        · exact .inl (.inl ⟨hi, fun heq => hc heq.symm⟩)
        · exact .inl (.inr hnow)
        · exact .inr hlater

/-- **All removals are made exactly when there is room to redo.** -/
theorem redo_removes_iff :
    ∀ {changes : List Change} {members : List Member} {epoch : Nat}, Separate changes →
      ((∀ i, Change.removed i ∈ changes → listed (redo members epoch changes) i = false)
        ↔ roomToRedo members epoch changes = true)
  | [], members, epoch, _ => by simp [roomToRedo]
  | c :: changes, members, epoch, hsep => by
    have hsep' : Separate changes := fun m i hm hi => hsep m i (by simp [hm]) (by simp [hi])
    rw [redo, roomToRedo]
    cases hstep : redoStep members epoch c with
    | none =>
      -- the loop ends here, with the members as they are
      rw [nothingToRemove_eq_true]
    | some next =>
      rw [← redo_removes_iff hsep']
      constructor
      · intro h i hi
        exact h i (by simp [hi])
      · intro h i hi
        rcases mem_cons.mp hi with rfl | hi
        · -- this very step removed it, and nothing later adds it
          have hgone : ¬ listed next.1 i = true := by
            rw [listed_redoStep hstep]
            simp [addsNow]
          refine Bool.eq_false_iff.mpr fun hback => ?_
          obtain ⟨m, hm, hident⟩ := mem_of_addsBack
            (((listed_redo changes next.1 next.2).1 hback).resolve_left hgone)
          exact hsep m i (by simp [hm]) (by simp) hident
        · exact h i hi

/-! ## §2. `reapply` does just that -/

/-- The keys still to be drawn are new: their check values differ from the current
    one and from each other.  The source draws 32 random bytes for each epoch and
    publishes a BLAKE3 value of them that also covers the epoch. -/
structure FreshKeys (C : Crypto) (cur : Roster) (drawn : Nat → Bytes) : Prop where
  new : ∀ e, cur.epoch < e → e ≤ maxEpoch →
    GroupKey.check C ⟨e, drawn e⟩ cur.groupId ≠ cur.keyCheck
  distinct : ∀ e e', cur.epoch < e → e < e' → e' ≤ maxEpoch →
    GroupKey.check C ⟨e', drawn e'⟩ cur.groupId ≠ GroupKey.check C ⟨e, drawn e⟩ cur.groupId

namespace FreshKeys

variable {C : Crypto} {cur : Roster} {drawn : Nat → Bytes}

theorem additionOf (h : FreshKeys C cur drawn) (signer : DeviceIdentity) (m : Member)
    (now : Int) : FreshKeys C (additionOf C cur signer m now) drawn :=
  ⟨fun e he hmax => h.new e (Nat.lt_of_succ_lt he) hmax,
    fun e e' he hlt hmax => h.distinct e e' (Nat.lt_of_succ_lt he) hlt hmax⟩

theorem removalOf (h : FreshKeys C cur drawn) (signer : DeviceIdentity) (i : PublicIdentity)
    (now : Int) : FreshKeys C (removalOf C cur signer i now drawn) drawn :=
  ⟨fun e he hmax => h.distinct (cur.epoch + 1) e (Nat.lt_succ_self _) he hmax,
    fun e e' he hlt hmax => h.distinct e e' (Nat.lt_of_succ_lt he) hlt hmax⟩

end FreshKeys

namespace GroupState

section Refinement

variable {C : Crypto} {signer : DeviceIdentity} (now : Int) {drawn : Nat → Bytes}

/-- A change `reapply` may be given: a device with a proper id and name to add, or
    another device than this one to remove. -/
def Proper (me : PublicIdentity) : Change → Prop
  | .added m => validateDeviceId m.deviceId = .ok () ∧ validateName m.name = .ok ()
  | .removed i => i ≠ me

variable {s : GroupState} {m : Member} {i : PublicIdentity} {cur : Roster}

theorem isPeer_eq (h : s.MayChange C cur signer) (hi : i ≠ s.me) : s.isPeer i = .ok
    (listed cur.members i) := by
  unfold isPeer
  rw [h.current_ok]
  show Except.ok (decide (i ≠ s.me) && _) = _
  rw [decide_eq_true hi, Bool.true_and]
  rfl

/-- A device stays a member of its group when it changes others. -/
theorem MayChange.additionOf (h : s.MayChange C cur signer) (hfree : taken cur.members m = false)
    (hid : validateDeviceId m.deviceId = .ok ()) (hname : validateName m.name = .ok ())
    (hlen : cur.members.length < maxMembers) (hepoch : cur.epoch < maxEpoch) :
    (s.push C (additionOf C cur signer m now)).MayChange C (additionOf C cur signer m now)
      signer := by
  have hvalid := valid_additionOf h.valid signer now hfree hid hname hlen hepoch
  have hsucc := succeeds_additionOf h.valid signer h.signerMember now hfree hvalid
  refine h.push hvalid hsucc ?_ s.keys
  obtain ⟨x, hx⟩ := Option.ne_none_iff_exists'.mp h.member
  obtain ⟨hx, hident⟩ := mem_of_lookup hx
  intro hnone
  exact member_eq_none.mp hnone x (mem_withMember.mpr (.inl hx)) hident

theorem MayChange.removalOf (h : s.MayChange C cur signer) (hother : i ≠ s.me)
    (hepoch : cur.epoch < maxEpoch) (drawn : Nat → Bytes)
    (hfresh : (removalKey cur drawn).check C cur.groupId ≠ cur.keyCheck) (keys : List GroupKey) :
    ({ s with keys := keys }.push C (removalOf C cur signer i now drawn)).MayChange C
      (removalOf C cur signer i now drawn) signer := by
  have hvalid := valid_removalOf h.valid signer now drawn h.signerMember
    (by rw [h.signer]; exact hother) hepoch
  have hsucc := succeeds_removalOf h.valid signer h.signerMember now hfresh (i := i)
  refine h.push hvalid hsucc ?_ keys
  obtain ⟨x, hx⟩ := Option.ne_none_iff_exists'.mp h.member
  obtain ⟨hx, hident⟩ := mem_of_lookup hx
  intro hnone
  refine member_eq_none.mp hnone x (mem_withoutMember.mpr ⟨hx, ?_⟩) hident
  rw [hident]
  exact fun heq => hother heq.symm

/-- An addition that fails ends the loop. -/
theorem reapply_stops {e : Error} (hcur : s.current = .ok cur)
    (hfree : ((cur.member m.identity).isSome
      || cur.members.any (fun x => x.deviceId == m.deviceId)) = false)
    (hfail : s.addMember C signer m now = (.error e, s)) (changes : List Change) :
    (reapply C signer now drawn s (.added m :: changes)).2 = s := by
  simp only [reapply, hcur, hfree, hfail]
  rfl

/-- **One change.**  Where the abstract step finds room, `reapply` makes the change
    and goes on; where it does not, `reapply` ends with the state as it was. -/
theorem reapply_step (h : s.MayChange C cur signer)
    (hfresh : FreshKeys C cur drawn) {c : Change} (hc : Proper s.me c) (changes : List Change) :
    (∃ s' cur', s'.MayChange C cur' signer ∧ s'.me = s.me ∧ FreshKeys C cur' drawn
        ∧ redoStep cur.members cur.epoch c = some (cur'.members, cur'.epoch)
        ∧ (reapply C signer now drawn s (c :: changes)).2
            = (reapply C signer now drawn s' changes).2)
      ∨ (redoStep cur.members cur.epoch c = none
        ∧ (reapply C signer now drawn s (c :: changes)).2 = s) := by
  cases c with
  | added m =>
    obtain ⟨hid, hname⟩ := hc
    -- `reapply` tests the same thing on the roster that `redoStep` tests on the list
    have htaken : ((cur.member m.identity).isSome
        || cur.members.any (fun x => x.deviceId == m.deviceId)) = taken cur.members m := rfl
    simp only [reapply, h.current_ok, htaken, redoStep]
    by_cases hfree : taken cur.members m = true
    · rw [if_pos hfree, if_pos hfree]
      exact .inl ⟨s, cur, h, rfl, hfresh, rfl, rfl⟩
    · rw [if_neg hfree, if_neg hfree]
      have hfree : taken cur.members m = false := by simpa using hfree
      by_cases hroom : cur.members.length < maxMembers ∧ cur.epoch < maxEpoch
      · rw [if_pos hroom, addMember_eq h hfree hid hname hroom.1 hroom.2 now]
        exact .inl ⟨_, _, h.additionOf now hfree hid hname hroom.1 hroom.2, push_me C s _,
          hfresh.additionOf signer m now, rfl, rfl⟩
      · obtain ⟨e, he⟩ := addMember_full h (m := m) hroom now
        rw [if_neg hroom, he]
        exact .inr ⟨rfl, rfl⟩
  | removed i =>
    simp only [reapply, isPeer_eq h hc, redoStep]
    cases hlisted : listed cur.members i with
    | false => exact .inl ⟨s, cur, h, rfl, hfresh, rfl, rfl⟩
    | true =>
      rw [if_pos rfl]
      have hmem : cur.member i ≠ none := Option.isSome_iff_ne_none.mp hlisted
      by_cases hroom : cur.epoch < maxEpoch
      · have hnew : (removalKey cur drawn).check C cur.groupId ≠ cur.keyCheck :=
          hfresh.new (cur.epoch + 1) (Nat.lt_succ_self _) hroom
        rw [if_pos hroom]
        simp only [removeMember_eq h hc hmem hroom drawn hnew now]
        exact .inl ⟨_, _, h.removalOf now hc hroom drawn hnew (s.keys ++ [removalKey cur drawn]),
          push_me C _ _, hfresh.removalOf signer i now, rfl, rfl⟩
      · obtain ⟨e, he⟩ := removeMember_full h (i := i) hroom now drawn
        refine .inr ⟨if_neg hroom, ?_⟩
        simp only [he]

/-- **`reapply` refines `redo`**: the roster it leaves lists what `redo` says. -/
theorem reapply_refines_redo :
    ∀ {changes : List Change} {s : GroupState} {cur : Roster}, s.MayChange C cur signer →
      FreshKeys C cur drawn → (∀ c ∈ changes, Proper s.me c) →
      ∃ last, (reapply C signer now drawn s changes).2.current = .ok last
        ∧ last.members = redo cur.members cur.epoch changes
  | [], s, cur, h, _, _ => ⟨cur, h.current_ok, rfl⟩
  | c :: changes, s, cur, h, hfresh, hproper => by
    obtain ⟨hc, hproper⟩ := forall_mem_cons.mp hproper
    rcases reapply_step now h hfresh hc changes with
      ⟨s', cur', h', hme, hfresh', hstep, hrun⟩ | ⟨hstep, hrun⟩
    · rw [hrun, redo, hstep]
      exact reapply_refines_redo h' hfresh' (by rw [hme]; exact hproper)
    · rw [hrun, redo, hstep]
      exact ⟨cur, h.current_ok, rfl⟩

end Refinement

/-! ## §3. After a lost fork -/

/-- The branch `applyChain` drops when the incoming one wins, with its parent. -/
def droppedBranch (C : Crypto) (s : GroupState) (chain : List Roster) :
    Option (Roster × List Roster) :=
  match s.findFork C chain with
  | .ok (some f) => some (f.parent, s.rosters.drop f.idx)
  | _ => none

variable {C : Crypto} {s s1 t : GroupState} {changes : List Change} {chain : List Roster}
  {update : RosterUpdate}

variable {f : ForkPoint}

theorem droppedBranch_of_findFork (h : s.findFork C chain = .ok (some f)) :
    s.droppedBranch C chain = some (f.parent, s.rosters.drop f.idx) := by
  unfold droppedBranch
  rw [h]

theorem graft_fst_eq_replaced (h : t.graft C f update = (.ok (.replaced changes), s1)) :
    update = .replaced changes ∧ s1 = f.incoming.foldl (push C) t := by
  unfold graft at h
  simp only at h
  split at h
  next => cases h
  next =>
  split at h
  next => cases h
  next =>
    simp only [Prod.mk.injEq, Except.ok.injEq] at h
    exact ⟨h.1, h.2.symm⟩

/-- **A replaced branch**: what comes back is computed from what was dropped. -/
theorem applyChain_replaced (h : s.applyChain C chain = (.ok (.replaced changes), s1)) :
    ∃ parent lost, s.droppedBranch C chain = some (parent, lost) ∧ lost ≠ []
      ∧ lost <:+ s.rosters ∧ changes = changesToReapply parent lost s.me ∧ s1.me = s.me := by
  rcases applyChain_cases C s chain with
    ⟨-, ⟨e, he⟩ | he | he⟩ | ⟨f, t, update, hfork, happly, hme, -, hupdate⟩
  · rw [h] at he; cases he
  · rw [h] at he; cases he
  · rw [h] at he; cases he
  · rw [h] at happly
    obtain ⟨hreplaced, hs1⟩ := graft_fst_eq_replaced happly.symm
    rcases hupdate with hadvanced | ⟨hmiddle, hchanges⟩
    · rw [hadvanced] at hreplaced
      cases hreplaced
    · rw [hchanges] at hreplaced
      injection hreplaced with hreplaced
      have hle := (findFork_sound hfork).le
      refine ⟨f.parent, _, droppedBranch_of_findFork hfork, ?_, drop_suffix _ _,
        hreplaced.symm, ?_⟩
      · intro hnil
        have := drop_eq_nil_iff.mp hnil
        omega
      · rw [hs1, foldl_push_me, hme]

/-- A fork the incoming branch wins. -/
theorem applyChain_of_fork_won (hfind : s.findFork C chain = .ok (some f))
    (hidx : f.idx ≠ s.rosters.length)
    (hwin : forkWinner C f.parent f.incoming (s.rosters.drop f.idx) = true) :
    s.applyChain C chain
      = { s with rosters := s.rosters.take f.idx }.graft C f
        (.replaced (changesToReapply f.parent (s.rosters.drop f.idx) s.me)) := by
  unfold applyChain
  rw [hfind]
  show (if f.idx = s.rosters.length then _ else _) = _
  rw [if_neg hidx, hwin]
  rfl

/-- Taking a branch over that leaves this device a member. -/
theorem graft_of_member (hmember : (f.incoming.foldl (push C) t).isMember = .ok true) :
    t.graft C f update = (.ok update, f.incoming.foldl (push C) t) := by
  unfold graft
  simp only [hmember]
  rfl

/-- What comes back can be redone: proper devices to add, others to remove. -/
theorem proper_changesToReapply {parent : Roster} {lost : List Roster}
    {me : PublicIdentity} (hvalid : ∀ r ∈ lost, r.Valid C) :
    ∀ c ∈ changesToReapply parent lost me, Proper me c := by
  intro c hc
  unfold changesToReapply at hc
  cases hlast : lost.getLast? with
  | none => simp [hlast] at hc
  | some last =>
    simp only [hlast] at hc
    cases c with
    | added m =>
      obtain ⟨⟨r, hr, hm⟩, -⟩ := added_mem_changesAlong hc
      exact (hvalid r hr).described m hm
    | removed i => exact (removed_mem_changesAlong.mp hc).2.1

/-- Additions lasted to the end of the lost branch and removals too, so they concern
    different devices. -/
theorem separate_changesToReapply (parent : Roster) (lost : List Roster)
    (me : PublicIdentity) : Separate (changesToReapply parent lost me) := by
  intro m i hm hi heq
  unfold changesToReapply at hm hi
  cases hlast : lost.getLast? with
  | none => simp [hlast] at hm
  | some last =>
    simp only [hlast] at hm hi
    have hgone := (removed_mem_changesAlong.mp hi).2.2
    rw [← heq] at hgone
    exact (added_mem_changesAlong hm).2 hgone

/-- **Redoing after a lost fork** goes the way of `redo`, on the members of the branch
    that won. -/
theorem reapply_of_replaced (hs : Reachable C s)
    (hreplaced : s.applyChain C chain = (.ok (.replaced changes), s1))
    (hmember : s1.isMember = .ok true) {cur : Roster} (hcur : s1.current = .ok cur)
    {signer : DeviceIdentity} (hsigner : signer.publicKey C = s.me) (now : Int)
    {drawn : Nat → Bytes} (hfresh : FreshKeys C cur drawn) :
    ∃ final, (reapply C signer now drawn s1 changes).2.current = .ok final
      ∧ final.members = redo cur.members cur.epoch changes := by
  obtain ⟨parent, lost, -, -, hsuffix, rfl, hme⟩ := applyChain_replaced hreplaced
  have hkept : s1.WellKept C := by
    have := wellKept_applyChain hs.wellKept chain
    rw [hreplaced] at this
    exact this
  have hmay : s1.MayChange C cur signer := by
    refine ⟨hkept, current_eq_ok_iff.mp hcur, by rw [hme]; exact hsigner, ?_⟩
    unfold isMember at hmember
    rw [hcur] at hmember
    injection hmember with hmember
    exact Option.isSome_iff_ne_none.mp hmember
  apply reapply_refines_redo now hmay hfresh
  rw [hme]
  exact proper_changesToReapply
    (fun r hr => hs.wellKept.history.valid r (hsuffix.subset hr))

/-- **When removals survive a lost fork.**  After `applyChain` replaced a branch of any
    reachable state and left this device a member, `reapply` leaves a roster that
    lists no device the dropped branch had removed for good, exactly when there is
    room to redo the changes. -/
theorem removals_survive_fork_iff (C : Crypto) (s : GroupState) (hs : Reachable C s)
    (chain : List Roster) (changes : List Change) (s1 : GroupState)
    (hreplaced : s.applyChain C chain = (.ok (.replaced changes), s1))
    (hmember : s1.isMember = .ok true) (cur : Roster) (hcur : s1.current = .ok cur)
    (signer : DeviceIdentity) (hsigner : signer.publicKey C = s.me) (now : Int)
    (drawn : Nat → Bytes) (hfresh : FreshKeys C cur drawn) :
    (∀ parent lost last, s.droppedBranch C chain = some (parent, lost) →
        lost.getLast? = some last → ∀ i, Removes parent lost i → last.member i = none →
        i ≠ s.me → ∃ final, (reapply C signer now drawn s1 changes).2.current = .ok final
          ∧ final.member i = none)
      ↔ roomToRedo cur.members cur.epoch changes = true := by
  obtain ⟨final, hfinal, hmembers⟩ :=
    reapply_of_replaced hs hreplaced hmember hcur hsigner now hfresh
  obtain ⟨parent, lost, hdropped, hne, -, rfl, -⟩ := applyChain_replaced hreplaced
  have hlisted := member_eq_none_iff_listed hmembers
  rw [← redo_removes_iff (separate_changesToReapply parent lost s.me)]
  constructor
  · intro h i hi
    obtain ⟨hremoved, hother, hgone⟩ :=
      (removed_mem_changesToReapply (getLast?_eq_some_getLast hne)).mp hi
    obtain ⟨final', hfinal', hnone⟩ := h parent lost _ hdropped
      (getLast?_eq_some_getLast hne) i (mem_removedAlong.mp hremoved) hgone hother
    rw [hfinal] at hfinal'
    injection hfinal' with hfinal'
    rw [← hlisted, hfinal']
    exact hnone
  · intro h parent' lost' last hdropped' hlast i hremoved hgone hother
    rw [hdropped] at hdropped'
    injection hdropped' with hdropped'
    injection hdropped' with hp hl
    subst hp hl
    refine ⟨final, hfinal, (hlisted i).mpr (h i ?_)⟩
    exact (removed_mem_changesToReapply hlast).mpr
      ⟨mem_removedAlong.mpr hremoved, hother, hgone⟩

end GroupState

/-! ## §4. A removal that is swallowed

    Fifteen devices.  Device 2 adds device 20 and then removes device 3; device 1,
    at the same time, removes device 4 and adds devices 21 and 22.  Each branch
    removes a device the other lists, so the tie-break decides, for device 1's.
    Device 2 has to redo "add 20, remove 3" on sixteen devices: the addition fails
    for want of room, the loop ends, and device 3 stays. -/

namespace FullGroup

open GroupState

def device (n : Byte) (id : String) : Member := ⟨[n], id, "Dev", 1⟩

/-- Fifteen devices at epoch 5. -/
def fifteenRoster : Roster :=
  Roster.signed plainCrypto
    { groupId := [7], epoch := 5, prev := [0], createdAt := 50, keyEpoch := 0
      keyCheck := GroupKey.check plainCrypto ⟨0, [9]⟩ [7]
      members :=
        [device 1 "a", device 2 "b", device 3 "c", device 4 "d", device 5 "e", device 6 "f",
         device 7 "g", device 8 "h", device 9 "i", device 10 "j", device 11 "k",
         device 12 "l", device 13 "m", device 14 "n", device 15 "o"]
      signer := [], signature := [] } ⟨[1]⟩

/-- The keys drawn: as many zero bytes as the epoch says. -/
def zeroKeys (e : Nat) : Bytes := replicate e 0

def addTwenty : Roster := additionOf plainCrypto fifteenRoster ⟨[2]⟩ (device 20 "x") 60
def dropThree : Roster := removalOf plainCrypto addTwenty ⟨[2]⟩ [3] 61 zeroKeys

def dropFour : Roster := removalOf plainCrypto fifteenRoster ⟨[1]⟩ [4] 62 zeroKeys
def addTwentyOne : Roster := additionOf plainCrypto dropFour ⟨[1]⟩ (device 21 "y") 63
def addTwentyTwo : Roster := additionOf plainCrypto addTwentyOne ⟨[1]⟩ (device 22 "z") 64

/-- The state of device `me` when it has just joined. -/
def joinedFifteen (me : PublicIdentity) : GroupState := ⟨me, [fifteenRoster], [⟨0, [9]⟩]⟩

theorem fifteenRoster_valid : fifteenRoster.Valid plainCrypto where
  nonempty := by simp [fifteenRoster]
  atMost := by decide
  sorted := by decide
  idsNodup := by decide
  described := by decide
  epochBound := by decide
  keyEpochBound := by decide
  genesis := fun h => absurd h (by decide)
  signature := signed_verifies plainCrypto _ _

theorem fifteen_history : History plainCrypto [fifteenRoster] :=
  ⟨by simpa using fifteenRoster_valid, by simp⟩

theorem joinedFifteen_wellKept (me : PublicIdentity) : (joinedFifteen me).WellKept plainCrypto where
  nonempty := by simp [joinedFifteen]
  atMost := by simp [joinedFifteen, keptRosters]
  history := fifteen_history
  keys := by
    intro k hk
    have hk : k = ⟨0, [9]⟩ := by simpa [joinedFifteen] using hk
    exact ⟨fifteenRoster, by simp [joinedFifteen], by rw [hk]; decide⟩

theorem joinedFifteen_mayChange (d : DeviceIdentity) (h : fifteenRoster.member d.secret ≠ none) :
    (joinedFifteen d.secret).MayChange plainCrypto fifteenRoster d :=
  ⟨joinedFifteen_wellKept _, rfl, rfl, h⟩

theorem joinedFifteen_reachable (n : Byte) (h : fifteenRoster.member [n] ≠ none) :
    Reachable plainCrypto (joinedFifteen [n]) := by
  have hkey : currentKey plainCrypto (joinedFifteen [1]) = .ok (some ⟨0, [9]⟩) := by decide
  refine .joined (joined_eq_ok (joinedFifteen_wellKept [n]) ?_ ⟨0, [9]⟩ hkey)
  exact congrArg Except.ok (Option.isSome_iff_ne_none.mpr h)

/-- Device 2 after its two changes. -/
def held : GroupState :=
  { ((joinedFifteen [2]).push plainCrypto addTwenty) with
    keys := ((joinedFifteen [2]).push plainCrypto addTwenty).keys
      ++ [removalKey addTwenty zeroKeys] }.push plainCrypto dropThree

theorem held_reachable : Reachable plainCrypto held := by
  have h0 := joinedFifteen_mayChange ⟨[2]⟩ (by decide)
  have hadd := addMember_eq h0 (m := device 20 "x") (by decide) (by decide)
    (by decide) (by decide) (by decide) 60
  have h1 := h0.additionOf (m := device 20 "x") 60 (by decide)
    (by decide) (by decide) (by decide) (by decide)
  have hremove := removeMember_eq h1 (i := [3]) (by decide) (by decide) (by decide)
    zeroKeys (by decide) 61
  have hreach := Reachable.removeMember ⟨[2]⟩ [3] 61 zeroKeys
    (Reachable.addMember ⟨[2]⟩ (device 20 "x") 60 (joinedFifteen_reachable 2 (by decide)))
  rw [show (joinedFifteen [2]).addMember plainCrypto ⟨[2]⟩ (device 20 "x") 60 = _ from hadd,
    hremove] at hreach
  exact hreach

/-- Device 1's three rosters are a run of valid rosters from the same parent on. -/
theorem incoming_history :
    History plainCrypto [fifteenRoster, dropFour, addTwentyOne, addTwentyTwo] := by
  have h0 := joinedFifteen_mayChange ⟨[1]⟩ (by decide)
  have h1 := h0.removalOf 62 (i := [4]) (by decide) (by decide) zeroKeys (by decide) []
  have h2 := h1.additionOf (m := device 21 "y") 63 (by decide)
    (by decide) (by decide) (by decide) (by decide)
  have h3 := h2.additionOf (m := device 22 "z") 64 (by decide)
    (by decide) (by decide) (by decide) (by decide)
  have hhist := h3.kept.history
  rw [push_rosters, push_rosters, push_rosters] at hhist
  exact hhist

theorem held_rosters : held.rosters = [fifteenRoster, addTwenty, dropThree] := rfl

/-- Two changes made after the roster of the fifteen, and another device's that came at another
    time: the branches part there. -/
theorem forksAt_fifteen {s : GroupState} {a b c : Roster} {cs : List Roster}
    (hrosters : s.rosters = [fifteenRoster, a, b]) (hgroup : c.groupId = a.groupId)
    (hprev : c.prev = a.prev) (hlinked : c.prev = fifteenRoster.hash plainCrypto)
    (hepoch : c.epoch = 6 ∧ a.epoch = 6 ∧ b.epoch = 7)
    (htime : i64Bytes a.createdAt ≠ i64Bytes c.createdAt) :
    ForksAt plainCrypto s (c :: cs) fifteenRoster [a, b] (c :: cs) := by
  refine ⟨⟨[], hrosters⟩, ⟨[], rfl, by simp⟩, ⟨c, _, rfl, ?_, hepoch.1, hlinked⟩⟩
  intro hknown
  unfold Known at hknown
  simp only [hrosters, head?_cons, Option.mem_def, Option.some.injEq,
    exists_eq_left', mem_cons, not_mem_nil, or_false] at hknown
  rcases hknown with hlt | ⟨h, rfl | rfl | rfl, hsame, hbody⟩
  · rw [hepoch.1] at hlt
    exact absurd hlt (by decide)
  · rw [hepoch.1] at hsame
    exact absurd hsame (by decide)
  · exact htime (createdAt_of_body_eq hbody hgroup.symm (hepoch.2.1.trans hepoch.1.symm) hprev.symm)
  · rw [hepoch.1, hepoch.2.2] at hsame
    exact absurd hsame (by decide)

/-- The two branches part at the roster of the fifteen. -/
theorem held_forksAt : ForksAt plainCrypto held [dropFour, addTwentyOne, addTwentyTwo]
    fifteenRoster [addTwenty, dropThree] [dropFour, addTwentyOne, addTwentyTwo] :=
  forksAt_fifteen held_rosters rfl rfl rfl ⟨rfl, rfl, rfl⟩ (by decide)

/-- Device 1's branch wins the tie-break. -/
theorem incoming_wins : forkWinner plainCrypto fifteenRoster
    [dropFour, addTwentyOne, addTwentyTwo] [addTwenty, dropThree] = true := by
  rw [forkWinner_of_both_remove plainCrypto (by decide) (by decide)
    (by decide) (by decide)]
  have hlt : (rank plainCrypto fifteenRoster dropFour).1
      < (rank plainCrypto fifteenRoster addTwenty).1 := by
    -- the same parent on both sides: only the signers differ
    have hsigners : dropFour.signer < addTwenty.signer := by decide
    exact append_left_lt (append_left_lt hsigners)
  simp [rankLt, hlt]

/-- What device 2 has to redo. -/
def toRedo : List Change := [.added (device 20 "x"), .removed [3]]

/-- Device 2 after it took device 1's branch over. -/
def replaced : GroupState :=
  [dropFour, addTwentyOne, addTwentyTwo].foldl (push plainCrypto)
    ⟨[2], [fifteenRoster], held.keys⟩

theorem replaced_getLast? : replaced.rosters.getLast? = some addTwentyTwo := by
  unfold replaced
  rw [foldl_push_getLast? (by simp)]
  rfl

theorem replaced_current : replaced.current = .ok addTwentyTwo :=
  current_eq_ok_iff.mpr replaced_getLast?

theorem replaced_me : replaced.me = [2] := foldl_push_me plainCrypto _ _

theorem addTwentyTwo_member : addTwentyTwo.member [2] ≠ none := by decide

theorem replaced_isMember : replaced.isMember = .ok true := by
  unfold isMember
  rw [replaced_current, replaced_me]
  exact congrArg Except.ok (Option.isSome_iff_ne_none.mpr addTwentyTwo_member)

theorem held_findFork :
    held.findFork plainCrypto [dropFour, addTwentyOne, addTwentyTwo]
      = .ok (some ⟨1, fifteenRoster, [dropFour, addTwentyOne, addTwentyTwo]⟩) :=
  findFork_of_forksAt plainCrypto_collisionFree held_reachable.wellKept held_forksAt (by decide)
    (fun r hr => incoming_history.valid r (mem_cons_of_mem _ hr))
    (fun r hr => incoming_history.groupId_eq r (mem_cons_of_mem _ hr) _ (by simp))
    (isChain_cons_cons.mp incoming_history.linked).2
    (isChain_cons_cons.mp incoming_history.linked).1

theorem held_droppedBranch :
    held.droppedBranch plainCrypto [dropFour, addTwentyOne, addTwentyTwo]
      = some (fifteenRoster, [addTwenty, dropThree]) :=
  droppedBranch_of_findFork held_findFork

theorem toRedo_eq : changesToReapply fifteenRoster [addTwenty, dropThree] [2] = toRedo := by
  decide

theorem held_applyChain :
    held.applyChain plainCrypto [dropFour, addTwentyOne, addTwentyTwo]
      = (.ok (.replaced toRedo), replaced) :=
  calc held.applyChain plainCrypto [dropFour, addTwentyOne, addTwentyTwo]
    _ = graft plainCrypto ⟨[2], [fifteenRoster], held.keys⟩
          ⟨1, fifteenRoster, [dropFour, addTwentyOne, addTwentyTwo]⟩
          (.replaced (changesToReapply fifteenRoster [addTwenty, dropThree] [2])) :=
        applyChain_of_fork_won held_findFork (by decide) incoming_wins
    _ = (.ok (.replaced (changesToReapply fifteenRoster [addTwenty, dropThree] [2])),
          replaced) := graft_of_member replaced_isMember
    _ = (.ok (.replaced toRedo), replaced) :=
        by rw [toRedo_eq]

theorem replaced_mayChange : replaced.MayChange plainCrypto addTwentyTwo ⟨[2]⟩ := by
  have hkept : replaced.WellKept plainCrypto :=
    wellKept_foldl_push fifteen_history rfl
      (fun r hr => incoming_history.valid r (mem_cons_of_mem _ hr)) incoming_history.linked
  exact ⟨hkept, replaced_getLast?, replaced_me.symm, by
    rw [replaced_me]
    exact addTwentyTwo_member⟩

/-- **A full group swallows a removal.**  Device 2, in a state it reached by one
    addition and one removal, loses the fork, is still a member, and redoes its
    changes: device 3, which the dropped branch had removed and no longer listed, is
    in the roster that `reapply` leaves. -/
theorem removal_swallowed_by_full_group :
    ∃ s chain changes s1 parent lost last final,
      Reachable plainCrypto s
      ∧ s.applyChain plainCrypto chain = (.ok (.replaced changes), s1)
      ∧ s1.isMember = .ok true
      ∧ s.droppedBranch plainCrypto chain = some (parent, lost)
      ∧ lost.getLast? = some last ∧ Removes parent lost [3] ∧ last.member [3] = none
      ∧ [3] ≠ s.me
      ∧ (reapply plainCrypto ⟨s.me⟩ 70 zeroKeys s1 changes).2.current = .ok final
      ∧ final.member [3] ≠ none := by
  have hstop : (reapply plainCrypto ⟨[2]⟩ 70 zeroKeys replaced toRedo).2 = replaced := by
    obtain ⟨e, he⟩ := addMember_full replaced_mayChange (m := device 20 "x") (by decide) 70
    have hfree : ((addTwentyTwo.member (device 20 "x").identity).isSome
        || addTwentyTwo.members.any (fun x => x.deviceId == (device 20 "x").deviceId))
        = false := by decide
    exact reapply_stops 70 replaced_current hfree he _
  refine ⟨held, _, toRedo, replaced, fifteenRoster, _, dropThree, addTwentyTwo,
    held_reachable, held_applyChain, replaced_isMember, held_droppedBranch, rfl, ?_,
    by decide, by decide, ?_, by decide⟩
  · exact ⟨addTwenty, dropThree, (suffix_cons _ _).isInfix, by decide,
      by decide⟩
  · show (reapply plainCrypto ⟨[2]⟩ 70 zeroKeys replaced toRedo).2.current = _
    rw [hstop, replaced_current]

/-- The keys of `zeroKeys` have check values of different lengths. -/
theorem length_check_zeroKeys (e : Nat) :
    (GroupKey.check plainCrypto ⟨e, zeroKeys e⟩ [7]).length = e + 58 := by
  have hlabel : (utf8 "panora group key check v1").length = 25 := by decide
  simp only [GroupKey.check, plainCrypto, put, zeroKeys, u64Bytes, beBytes,
    length_append, length_replicate, length_singleton, length_nil, hlabel]

/-- Where the current key is one of `zeroKeys`, the later ones are new. -/
theorem zeroKeys_fresh_of {cur : Roster} (e0 : Nat) (hgroup : cur.groupId = [7])
    (hcheck : cur.keyCheck = GroupKey.check plainCrypto ⟨e0, zeroKeys e0⟩ [7])
    (hepoch : e0 ≤ cur.epoch) : FreshKeys plainCrypto cur zeroKeys := by
  constructor
  · intro e he _ heq
    rw [hgroup, hcheck] at heq
    have := congrArg length heq
    rw [length_check_zeroKeys, length_check_zeroKeys] at this
    omega
  · intro e e' _ hlt _ heq
    rw [hgroup] at heq
    have := congrArg length heq
    rw [length_check_zeroKeys, length_check_zeroKeys] at this
    omega

theorem zeroKeys_fresh : FreshKeys plainCrypto addTwentyTwo zeroKeys :=
  zeroKeys_fresh_of 6 rfl rfl (by decide)

/-- In that run there is no room to redo. -/
theorem removals_survive_fork_iff_held :
    roomToRedo addTwentyTwo.members addTwentyTwo.epoch toRedo = false
      ∧ ¬ (∀ parent lost last,
        held.droppedBranch plainCrypto [dropFour, addTwentyOne, addTwentyTwo]
            = some (parent, lost) →
          lost.getLast? = some last → ∀ i, Removes parent lost i → last.member i = none →
          i ≠ held.me → ∃ final,
            (reapply plainCrypto ⟨[2]⟩ 70 zeroKeys replaced toRedo).2.current = .ok final
            ∧ final.member i = none) := by
  have hroom : roomToRedo addTwentyTwo.members addTwentyTwo.epoch toRedo = false := by
    decide
  refine ⟨hroom, fun h => ?_⟩
  have := (removals_survive_fork_iff plainCrypto held held_reachable _ toRedo replaced
    held_applyChain replaced_isMember addTwentyTwo replaced_current ⟨[2]⟩ rfl 70 zeroKeys
    zeroKeys_fresh).mp h
  rw [hroom] at this
  exact absurd this (by decide)

end FullGroup

end Panora.Group
