/-
  Panora.Node.Admission — admitting a device while the device list changes.

  `run_inviter` admits on a copy of the group, writes the welcome, and then merges the new
  roster into the group as it is by then.  The merge may find a fork, and the roster may
  lose it.  Every update that `apply_roster` returns counts as success.

  Main results:
    * `finishAdmission_of_held` — where the roster before the admission is held, the merge
      reports success;
    * `reported_join_real_iff` — when the device a merge reports is in the group.
-/
import Panora.Group.Arrival
import Panora.Node.State
import Panora.Pairing.Agreement

namespace Panora.Node

open Panora.Group List Option
open Panora.Pairing (PairCrypto Inviter Session JoinRequest PairMessage ofGroup ofGroup_ok_iff)
open Panora.Group.GroupState
open Panora.Lib.Fallible

variable {C : PairCrypto}

/-! ## §1. An addition at a fork -/

variable {before : GroupState} {signer : DeviceIdentity} {m : Member} {now : Int} {cur roster parent : Roster}

/-- A roster that adds a device removes nobody: a removal would bring a new key. -/
theorem Added.removes_nobody {admitted : GroupState}
    (h : Added C.group before signer m now cur roster admitted) (hcur : cur.Valid C.group)
    (hsucc : Succeeds C.group parent roster) : removedAlong parent [roster] = [] := by
  have hold : roster.keyEpoch ≠ roster.epoch := by
    have hbound : cur.keyEpoch ≤ cur.epoch := hcur.keyEpochBound
    rw [h.roster]
    show cur.keyEpoch ≠ cur.epoch + 1
    omega
  have hnone : parent.membersWithout roster = [] := by
    by_contra hsome
    exact hold (hsucc.removal hsome)
  rw [removedAlong, hnone]
  rfl

/-- **A device that the held branch removed for good is not listed by an addition that
    wins**: an addition that lists it loses to the removal. -/
theorem not_listed_of_forkWinner {last : Roster} {held : List Roster}
    (hnobody : removedAlong parent [roster] = []) (hlast : held.getLast? = some last)
    (hwin : forkWinner C.group parent [roster] held = true) {i : PublicIdentity}
    (hremoved : Removes parent held i) : roster.member i = none := by
  by_contra hlisted
  have hin := mem_removedAlong.mpr hremoved
  -- the incoming side removes neither a signer nor a listed device
  have hsigner : removesSigner parent [roster] held = false := by
    unfold removesSigner
    rw [hnobody]
    simp
  have hlisted' : removesListed parent [roster] held = false := by
    unfold removesListed
    rw [hnobody, hlast]
    rfl
  -- and the held side removes a device the incoming one lists
  have hheld : removesListed parent held [roster] = true := by
    show (removedAlong parent held).any (fun i => (roster.member i).isSome) = true
    exact any_eq_true.mpr ⟨i, hin, isSome_iff_ne_none.mpr hlisted⟩
  unfold forkWinner at hwin
  rw [hsigner, hlisted', hheld] at hwin
  cases hother : removesSigner parent held [roster] with
  | true =>
    rw [hother] at hwin
    cases hwin
  | false =>
    rw [hother] at hwin
    cases hwin

/-! ## §2. One roster applied -/

variable {g : GroupState}

/-- A fork point for one roster: the roster is what is new, and follows the parent. -/
theorem findFork_one {f : ForkPoint} (h : g.findFork C.group [roster] = .ok (some f)) :
    f.incoming = [roster] ∧ Succeeds C.group f.parent roster := by
  have hf := findFork_sound h
  obtain ⟨head, tail, hincoming, hsucc⟩ := hf.follows
  have hsingle : f.incoming = [roster] := by
    rcases suffix_cons_iff.mp hf.incoming_suffix with h | h
    · exact h
    · rw [suffix_nil.mp h] at hincoming
      cases hincoming
  rw [hsingle] at hincoming
  obtain ⟨rfl, -⟩ := cons.inj hincoming
  exact ⟨hsingle, hsucc⟩

/-- A roster that follows the current one forks from nothing. -/
theorem findFork_at_end (hcf : CollisionFree C.group) (hg : g.WellKept C.group)
    (hcur : g.rosters.getLast? = some cur) (hprev : cur.hash C.group = roster.prev) {f : ForkPoint}
    (h : g.findFork C.group [roster] = .ok (some f)) : g.rosters.drop f.idx = [] := by
  have hf := findFork_sound h
  have hsucc := (findFork_one h).2
  have hparent := mem_of_getElem? hf.parent
  have hcurmem := mem_of_getLast? hcur
  -- the two have one hash, so one body, so one epoch
  have hbody : f.parent.body = cur.body := hcf _ _ (hsucc.prev.symm.trans hprev.symm)
  have hepoch : f.parent.epoch = cur.epoch :=
    epoch_of_body_eq hbody (hg.history.groupId_eq _ hparent _ hcurmem)
      (hg.history.valid _ hparent).epochBound (hg.history.valid _ hcurmem).epochBound
  -- and the epoch says where in the history they are
  have hlast := hcur
  rw [getLast?_eq_getElem?] at hlast
  have hpos := hf.pos
  have hpar := hf.parent
  cases hrosters : g.rosters with
  | nil => exact absurd hrosters hg.nonempty
  | cons first rest =>
    have hhist := hg.history
    rw [hrosters] at hhist hlast hpar
    have hone := hhist.epoch_getElem _ _ hpar
    have htwo := hhist.epoch_getElem _ _ hlast
    apply drop_eq_nil_of_le
    have hlen : 0 < (first :: rest).length := by simp
    omega

/-- What applying one roster that does not follow the current one does: nothing, or it
    takes the place of the branch held. -/
theorem applyChain_elsewhere
    (hcur : g.rosters.getLast? = some cur) (hprev : cur.hash C.group ≠ roster.prev) :
    ((g.applyChain C.group [roster]).2 = g
        ∧ ∀ f, g.findFork C.group [roster] = .ok (some f) →
          forkWinner C.group f.parent [roster] (g.rosters.drop f.idx) = false) ∨
      ∃ f, g.findFork C.group [roster] = .ok (some f) ∧ f.Sound C.group g [roster]
        ∧ Succeeds C.group f.parent roster
        ∧ forkWinner C.group f.parent [roster] (g.rosters.drop f.idx) = true
        ∧ (g.applyChain C.group [roster]).2.rosters.getLast? = some roster := by
  unfold applyChain
  cases hfork : g.findFork C.group [roster] with
  | error e => exact .inl ⟨rfl, by simp⟩
  | ok found =>
    cases found with
    | none => exact .inl ⟨rfl, by simp⟩
    | some f =>
      have hf := findFork_sound hfork
      obtain ⟨hsingle, hsucc⟩ := findFork_one hfork
      -- it does not follow the newest roster
      have hidx : f.idx ≠ g.rosters.length := by
        intro hend
        have hparent := hf.getLast?_take
        rw [hend, take_length, hcur] at hparent
        injection hparent with hparent
        apply hprev
        rw [hparent]
        exact hsucc.prev.symm
      simp only
      rw [if_neg hidx, hsingle]
      cases hwin : forkWinner C.group f.parent [roster] (g.rosters.drop f.idx) with
      | false =>
        left
        refine ⟨rfl, ?_⟩
        intro f' hf'
        cases hf'
        exact hwin
      | true =>
        right
        refine ⟨f, rfl, hf, hsucc, hwin, ?_⟩
        show ({ g with rosters := g.rosters.take f.idx }.graft C.group f _).2.rosters.getLast? = _
        rw [graft_getLast? hf.incoming_ne_nil, hsingle]
        rfl

/-! ## §3. A reported join -/

/-- The current roster of this state lists `i`. -/
def Listed (s : SyncState) (i : PublicIdentity) : Prop :=
  ∃ g cur, s.group = some g ∧ g.current = .ok cur ∧ cur.member i ≠ none

/-- No device that was removed since the roster before `roster`, and is gone in `s`, is in
    the group of `s'`. -/
def RemovalsStand (C : PairCrypto) (s : SyncState) (roster : Roster) (s' : SyncState) : Prop :=
  ∀ g parent branch last, s.group = some g →
    g.droppedBranch C.group [roster] = some (parent, branch) → branch.getLast? = some last →
    ∀ i, Removes parent branch i → last.member i = none → ¬ Listed s' i

/-- What the device list at the merge has to be for the join to be real: unchanged; or with
    a branch that the new roster beats; or with the device in it already. -/
def Mergeable (C : PairCrypto) (s : SyncState) (roster : Roster) (i : PublicIdentity) : Prop :=
  ∃ g cur, s.group = some g ∧ g.current = .ok cur
    ∧ (cur.hash C.group = roster.prev
      ∨ (∃ f, g.findFork C.group [roster] = .ok (some f)
        ∧ forkWinner C.group f.parent [roster] (g.rosters.drop f.idx) = true)
      ∨ cur.member i ≠ none)

variable {s : SyncState}

theorem listed_iff (hg : s.group = some g)
    (hcur : g.rosters.getLast? = some cur) (i : PublicIdentity) :
    Listed s i ↔ cur.member i ≠ none := by
  have hcur' := current_eq_ok_iff.mpr hcur
  constructor
  · intro h
    obtain ⟨g', cur', hg', hcur'', hlisted⟩ := h
    rw [hg] at hg'
    cases hg'
    rw [hcur'] at hcur''
    cases hcur''
    exact hlisted
  · intro h
    exact ⟨g, cur, hg, hcur', h⟩

/-- The branch a fork point found is the one that would be dropped. -/
theorem droppedBranch_eq {branch : List Roster}
    (h : g.droppedBranch C.group [roster] = some (parent, branch)) :
    ∃ f, g.findFork C.group [roster] = .ok (some f) ∧ f.parent = parent
      ∧ g.rosters.drop f.idx = branch := by
  unfold droppedBranch at h
  split at h
  next f hf =>
    injection h with h
    obtain ⟨rfl, rfl⟩ := Prod.mk.inj h
    exact ⟨f, hf, rfl, rfl⟩
  next => cases h

/-- What an approval put into the roster it made. -/
theorem approve_added {admitted : GroupState} (hbefore : before.WellKept C.group)
    {i i' : Inviter} {session : Session} {request : JoinRequest}
    (hpending : i.state = some (.pending session request)) {welcome : PairMessage}
    (happrove : i.approve C before now = (.ok (welcome, roster), i', admitted)) :
    ∃ cur, cur.Valid C.group
      ∧ Added C.group before i.identity (Inviter.memberOf request now) now cur roster admitted := by
  rcases i.approve_spec (C := C) before now with
    ⟨e, g, herror⟩ | ⟨session', request', roster', g, key, hstate, -, -, hadd, -, hok⟩
  · exact absurd (happrove.symm.trans herror) (by simp)
  obtain ⟨hmade, hrest⟩ := Prod.mk.inj (happrove.symm.trans hok)
  obtain rfl := (Prod.mk.inj (Except.ok.inj hmade)).2
  obtain rfl := (Prod.mk.inj hrest).2
  obtain ⟨rfl, rfl⟩ :=
    Pairing.InviterState.pending.inj (some.inj (hpending.symm.trans hstate))
  obtain ⟨cur, hadded⟩ := addMember_ok hadd
  exact ⟨cur, hbefore.history.valid cur (mem_of_getLast? hadded.current), hadded⟩

/-- The roster an addition makes lists the device. -/
theorem Added.lists {admitted : GroupState}
    (h : Added C.group before signer m now cur roster admitted) :
    roster.member m.identity ≠ none := by
  rw [h.valid.member_eq_some.mpr ⟨?_, rfl⟩]
  · simp
  · rw [h.roster]
    exact mem_withMember.mpr (.inr rfl)

/-- **When a reported join is a real join.**  For every pairing that was approved on a
    group this device held, and every state of the group by the time the welcome is out:
    when the merge reports success, the device is in the group and no removal made
    meanwhile is lost exactly when the device list did not change, or the new roster beats
    what changed, or the device is listed already. -/
theorem reported_join_real_iff (C : PairCrypto) (hcf : CollisionFree C.group) (before : GroupState)
    (hbefore : Reachable C.group before) (i i' : Inviter) (session : Session)
    (request : JoinRequest) (hpending : i.state = some (.pending session request)) (now : Int)
    (welcome : PairMessage) (roster : Roster) (admitted : GroupState)
    (happrove : i.approve C before now = (.ok (welcome, roster), i', admitted))
    (s s' : SyncState) (hs : ∀ g ∈ s.group, Reachable C.group g)
    (hdone : s.finishAdmission C roster admitted = (.ok (), s')) :
    (Listed s' request.identity ∧ RemovalsStand C s roster s')
      ↔ Mergeable C s roster request.identity := by
  obtain ⟨cur, hvalid, hadded⟩ := approve_added hbefore.wellKept hpending happrove
  have hlists : roster.member request.identity ≠ none := Added.lists hadded
  rcases s.finishAdmission_cases (C := C) roster admitted with
    ⟨e, herror⟩ | ⟨g, now', hg, hnow, hprev, hkept⟩ | ⟨g, now', out, hg, hnow, hprev, -, happlied⟩
  · exact absurd (hdone.symm.trans herror) (by simp)
  · -- nothing changed: the copy is kept, and nothing is dropped
    obtain rfl := (Prod.mk.inj (hdone.symm.trans hkept)).2
    have hlast : admitted.rosters.getLast? = some roster := by
      rw [hadded.state]
      exact push_getLast? C.group before roster
    have hstand : RemovalsStand C s roster { s with group := some admitted } := by
      intro g' parent branch last hg' hdropped hbranch i hremoved hgone hlisted
      rw [hg] at hg'
      cases hg'
      obtain ⟨f, hfork, -, rfl⟩ := droppedBranch_eq hdropped
      rw [findFork_at_end hcf (hs g hg).wellKept (current_eq_ok_iff.mp hnow) hprev hfork] at hbranch
      cases hbranch
    exact ⟨fun _ => ⟨g, now', hg, hnow, .inl hprev⟩,
      fun _ => ⟨(listed_iff rfl hlast _).mpr hlists, hstand⟩⟩
  · obtain rfl := (Prod.mk.inj (hdone.symm.trans happlied)).2
    have hcur := current_eq_ok_iff.mp hnow
    rcases applyChain_elsewhere hcur hprev with ⟨hsame, hlost⟩ | ⟨f, hfork, hf, hsucc, hwin, hlast⟩
    · -- the roster was known, or lost: the group is as it was
      rw [hsame]
      constructor
      · intro h
        exact ⟨g, now', hg, hnow, .inr (.inr ((listed_iff rfl hcur _).mp h.1))⟩
      · intro h
        obtain ⟨g', cur', hg', hcur', hwhy⟩ := h
        rw [hg] at hg'
        cases hg'
        rw [hnow] at hcur'
        cases hcur'
        rcases hwhy with hprev' | ⟨f, hfork, hwin⟩ | hlisted
        · exact absurd hprev' hprev
        · rw [hlost f hfork] at hwin
          cases hwin
        · refine ⟨(listed_iff rfl hcur _).mpr hlisted, ?_⟩
          intro g' parent branch last hg' hdropped hbranch i hremoved hgone hlisted'
          rw [hg] at hg'
          cases hg'
          obtain ⟨f, hfork, -, rfl⟩ := droppedBranch_eq hdropped
          -- the branch ends with the current roster
          rw [getLast?_drop] at hbranch
          split at hbranch
          next => cases hbranch
          next =>
            rw [hcur] at hbranch
            cases hbranch
            exact (listed_iff rfl hcur i).mp hlisted' hgone
    · -- the roster took the branch's place
      have hstand : RemovalsStand C s roster
          { s with group := some (g.applyChain C.group [roster]).2 } := by
        intro g' parent branch last hg' hdropped hbranch i hremoved hgone hlisted
        rw [hg] at hg'
        cases hg'
        obtain ⟨f', hfork', rfl, rfl⟩ := droppedBranch_eq hdropped
        rw [hfork] at hfork'
        cases hfork'
        exact (listed_iff rfl hlast i).mp hlisted
          (not_listed_of_forkWinner (Added.removes_nobody hadded hvalid hsucc) hbranch hwin hremoved)
      exact ⟨fun _ => ⟨g, now', hg, hnow, .inr (.inl ⟨f, hfork, hwin⟩)⟩,
        fun _ => ⟨(listed_iff rfl hlast _).mpr hlists, hstand⟩⟩

/-! ## §4. A removal meanwhile -/

/-- An approval that has all it needs. -/
theorem approve_eq {i : Inviter} {session : Session} {request : JoinRequest} {group : GroupState}
    (key : GroupKey)
    (hstate : i.state = some (.pending session request)) (hlive : i.window.isLive now = true)
    (hgroup : group.groupId = .ok i.groupId)
    (hadd : group.addMember C.group i.identity (Inviter.memberOf request now) now = (.ok roster, g))
    (hkey : g.currentKey C.group = .ok (some key)) :
    ∃ welcome i', i.approve C group now = (.ok (welcome, roster), i', g) := by
  unfold Inviter.memberOf at hadd
  unfold Inviter.approve
  refine ⟨i.welcomeFor C session g key, { i with state := none, window := i.window.close }, ?_⟩
  simp only [hstate, hlive, hgroup, hadd, hkey, ofGroup, Except.mapError, ne_eq, not_true_eq_false,
    Bool.not_true, Bool.false_eq_true, if_false]
  rfl

/-- Where the roster before the admission is still held, the merge reports success, whatever
    came after that roster. -/
theorem finishAdmission_of_held {admitted : GroupState} {kept branch : List Roster}
    (hs : s.group = some g) (hkept : g.WellKept C.group)
    (hheld : g.rosters = kept ++ parent :: branch) (hvalid : roster.Valid C.group)
    (hsucc : Succeeds C.group parent roster) :
    ∃ s', s.finishAdmission C roster admitted = (.ok (), s') := by
  have happly : ∃ update g', g.applyChain C.group [roster] = (.ok update, g') := by
    have hfork := findFork_single hkept hheld hvalid hsucc
    unfold applyChain
    rw [hfork]
    by_cases hsame : branch.head?.any (fun first => first.hash C.group == roster.hash C.group)
    · rw [if_pos hsame]
      exact ⟨_, _, rfl⟩
    · rw [if_neg hsame]
      -- grafted on, or turned away
      have hgraft : ∀ (t : GroupState) (update : RosterUpdate), ∃ update' g',
          t.graft C.group ⟨kept.length + 1, parent, [roster]⟩ update = (.ok update', g') := by
        intro t update
        rcases graft_fst (C := C.group) (t := t) (f := ⟨kept.length + 1, parent, [roster]⟩)
          (by simp) update with h | h
        · exact ⟨_, _, Prod.ext h rfl⟩
        · exact ⟨_, _, Prod.ext h rfl⟩
      dsimp only
      split
      · exact hgraft _ _
      · split
        · exact ⟨_, _, rfl⟩
        · exact hgraft _ _
  obtain ⟨last, hlast⟩ : ∃ last, g.rosters.getLast? = some last := by
    rw [hheld, getLast?_append, getLast?_cons]
    exact ⟨_, rfl⟩
  obtain ⟨update, g', happly⟩ := happly
  unfold SyncState.finishAdmission
  rw [hs]
  simp only [current_eq_ok_iff.mpr hlast, happly]
  split
  · exact ⟨_, rfl⟩
  · exact ⟨_, rfl⟩

/-- **A removal made meanwhile beats the admission**: the merge reports success and leaves
    the group as the removal left it. -/
theorem finishAdmission_after_removal (hcf : CollisionFree C.group) {admitted : GroupState}
    (hbefore : before.WellKept C.group)
    {removal : Roster} (hadded : Added C.group before signer m now cur roster admitted)
    (hvalid : removal.Valid C.group) (hsucc : Succeeds C.group cur removal) {x : PublicIdentity}
    (hlisted : cur.member x ≠ none) (hgone : removal.member x = none) (keys : List GroupKey)
    (hs : s.group = some ({ before with keys := keys }.push C.group removal)) :
    s.finishAdmission C roster admitted = (.ok (), s) := by
  generalize hg : ({ before with keys := keys } : GroupState).push C.group removal = g at hs
  have hlast : g.rosters.getLast? = some removal := by
    rw [← hg]
    exact push_getLast? C.group _ removal
  have hkept : g.WellKept C.group := by
    rw [← hg]
    apply wellKept_push (s := { before with keys := keys }) hbefore.history hvalid
    intro cur' hcur'
    show Succeeds C.group cur' removal
    change cur' ∈ before.rosters.getLast? at hcur'
    rw [mem_def, hadded.current] at hcur'
    cases hcur'
    exact hsucc
  have hcurvalid := hbefore.history.valid cur (mem_of_getLast? hadded.current)
  -- the current roster is another one than the admission follows
  have hprev : removal.hash C.group ≠ roster.prev := by
    intro heq
    have hbody : removal.body = cur.body := hcf _ _ (heq.trans hadded.succeeds.prev)
    have hepoch := epoch_of_body_eq hbody hsucc.groupId hvalid.epochBound hcurvalid.epochBound
    have hnext := hsucc.epoch
    omega
  -- and the admission forks before it, and loses
  have hbranch : ∃ kept, g.rosters = kept ++ cur :: [removal] := by
    obtain ⟨front, hfront⟩ := getLast?_eq_some_iff.mp hadded.current
    rw [← hg]
    exact push_parent { before with keys := keys } hfront
  obtain ⟨kept, hbranch⟩ := hbranch
  have hfork := findFork_single hkept hbranch hadded.valid hadded.succeeds
  have hloses : forkWinner C.group cur [roster] [removal] = false := by
    by_contra hwins
    have hremoves : Removes cur [removal] x :=
      ⟨cur, removal, infix_rfl, hlisted, hgone⟩
    have hnone := not_listed_of_forkWinner (Added.removes_nobody hadded hcurvalid hadded.succeeds)
      rfl (Bool.eq_true_of_not_eq_false hwins) hremoves
    obtain ⟨y, hy⟩ := ne_none_iff_exists'.mp hlisted
    obtain ⟨hmem, hident⟩ := hcurvalid.member_eq_some.mp hy
    refine member_eq_none.mp hnone y ?_ hident
    rw [hadded.roster]
    exact mem_withMember.mpr (.inl hmem)
  have hsame : ∃ update, g.applyChain C.group [roster] = (.ok update, g) := by
    unfold applyChain
    rw [hfork]
    by_cases hheld : ([removal].head?.any (fun first => first.hash C.group == roster.hash C.group))
    · rw [if_pos hheld]
      exact ⟨.unchanged, rfl⟩
    · rw [if_neg hheld]
      refine ⟨.forkLost, ?_⟩
      have hmiddle : kept.length + 1 ≠ g.rosters.length := by
        rw [hbranch, length_append]
        simp
      have hdrop : g.rosters.drop (kept.length + 1) = [removal] := by
        rw [hbranch, drop_append]
        simp
      show (if kept.length + 1 = g.rosters.length then _ else _) = _
      rw [if_neg hmiddle, hdrop, hloses]
      rfl
  obtain ⟨update, hsame⟩ := hsame
  unfold SyncState.finishAdmission
  rw [hs]
  simp only [current_eq_ok_iff.mpr hlast]
  rw [if_neg hprev, hsame]
  show (Except.ok (), ({ s with group := some g } : SyncState)) = (Except.ok (), s)
  rw [← hs]

namespace Sample

open Panora.Pairing.Honest (crypto)
open Panora.Group.FullGroup

/-- Device 1's session with a device that asks to join. -/
def inviter : Inviter := Pairing.Honest.desktop (.pending Pairing.Honest.session ⟨[20], "x", "Dev"⟩)

/-- Device 1, one of fifteen. -/
def one (group : GroupState) : SyncState := ⟨⟨[1]⟩, "Dev", some group⟩

/-- The admission, made on a copy. -/
def admission : Roster := additionOf plainCrypto fifteenRoster ⟨[1]⟩ ⟨[20], "x", "Dev", 102⟩ 102

def admitted : GroupState := (joinedFifteen [1]).push plainCrypto admission

/-- The removal of device 3, made meanwhile. -/
def removal : Roster := removalOf plainCrypto fifteenRoster ⟨[1]⟩ [3] 103 zeroKeys

def withoutThree : GroupState :=
  { joinedFifteen [1] with
    keys := (joinedFifteen [1]).keys ++ [removalKey fifteenRoster zeroKeys] }.push plainCrypto removal

theorem one_mayChange : (joinedFifteen [1]).MayChange plainCrypto fifteenRoster ⟨[1]⟩ :=
  joinedFifteen_mayChange ⟨[1]⟩ (by decide)

theorem one_reachable : Reachable plainCrypto (joinedFifteen [1]) :=
  Reachable.joined (show joined plainCrypto [1] [fifteenRoster] ⟨0, [9]⟩ = _ from
    joined_eq_ok (joinedFifteen_wellKept [1]) (by decide) ⟨0, [9]⟩ (by decide))

theorem admission_made : (joinedFifteen [1]).addMember plainCrypto ⟨[1]⟩ ⟨[20], "x", "Dev", 102⟩ 102
    = (.ok admission, admitted) :=
  addMember_eq one_mayChange (by decide) (by decide) (by decide) (by decide) (by decide) 102

theorem removal_made : (joinedFifteen [1]).removeMember plainCrypto ⟨[1]⟩ [3] 103 zeroKeys
    = (.ok (removal, removalKey fifteenRoster zeroKeys), withoutThree) :=
  removeMember_eq one_mayChange (by decide) (by decide) (by decide) zeroKeys (by decide) 103

theorem withoutThree_reachable : Reachable plainCrypto withoutThree := by
  have h := Reachable.removeMember ⟨[1]⟩ [3] 103 zeroKeys one_reachable
  rw [removal_made] at h
  exact h

theorem approved : ∃ welcome i',
    inviter.approve crypto (joinedFifteen [1]) 102 = (.ok (welcome, admission), i', admitted) :=
  approve_eq (C := crypto) ⟨0, [9]⟩ rfl (by decide) (by decide) admission_made (by decide)

/-- **A join that is reported and is none**: device 3 is removed while the welcome is on its
    way, the admission loses that fork, and device 20 is reported as joined. -/
theorem join_reported_but_lost : ∃ welcome i' s',
    Reachable plainCrypto withoutThree
      ∧ inviter.approve crypto (joinedFifteen [1]) 102 = (.ok (welcome, admission), i', admitted)
      ∧ (one withoutThree).finishAdmission crypto admission admitted = (.ok (), s')
      ∧ ¬ Listed s' [20] := by
  obtain ⟨welcome, i', happrove⟩ := approved
  obtain ⟨cur, hadded⟩ := addMember_ok admission_made
  obtain rfl : fifteenRoster = cur := some.inj hadded.current
  have hmade := one_mayChange.removalOf (i := [3]) 103 (by decide) (by decide) zeroKeys (by decide)
    ((joinedFifteen [1]).keys ++ [removalKey fifteenRoster zeroKeys])
  refine ⟨welcome, i', one withoutThree, withoutThree_reachable, happrove, ?_, ?_⟩
  · exact finishAdmission_after_removal (C := crypto) plainCrypto_collisionFree
      one_mayChange.kept hadded hmade.valid
      (succeeds_removalOf one_mayChange.valid ⟨[1]⟩ one_mayChange.signerMember 103 (by decide))
      (x := [3]) (by decide) (by decide) _ rfl
  · rw [listed_iff (show (one withoutThree).group = some withoutThree from rfl) hmade.current]
    exact not_not.mpr (by decide)

/-- The device was admitted in another way meanwhile. -/
def otherAdmission : Roster :=
  additionOf plainCrypto fifteenRoster ⟨[1]⟩ ⟨[20], "x", "Dev", 103⟩ 103

def withTwenty : GroupState := (joinedFifteen [1]).push plainCrypto otherAdmission

theorem withTwenty_reachable : Reachable plainCrypto withTwenty := by
  have h := Reachable.addMember ⟨[1]⟩ ⟨[20], "x", "Dev", 103⟩ 103 one_reachable
  rw [addMember_eq one_mayChange (by decide) (by decide) (by decide) (by decide) (by decide)] at h
  exact h

/-- The list changed, and the device is in it: whichever admission is kept, the join is
    real. -/
theorem reported_join_real_of_listed : ∃ s',
    (one withTwenty).finishAdmission crypto admission admitted = (.ok (), s')
      ∧ Listed s' [20] ∧ RemovalsStand crypto (one withTwenty) admission s' := by
  obtain ⟨welcome, i', happrove⟩ := approved
  obtain ⟨cur, hadded⟩ := addMember_ok admission_made
  obtain rfl : fifteenRoster = cur := some.inj hadded.current
  obtain ⟨front, hfront⟩ := getLast?_eq_some_iff.mp hadded.current
  obtain ⟨kept, hheld⟩ := push_parent (joinedFifteen [1]) hfront
  obtain ⟨s', hdone⟩ := finishAdmission_of_held (C := crypto) (s := one withTwenty) rfl
    withTwenty_reachable.wellKept hheld hadded.valid hadded.succeeds
  have hcur : withTwenty.current = .ok otherAdmission :=
    current_eq_ok_iff.mpr (push_getLast? plainCrypto _ otherAdmission)
  refine ⟨s', hdone, (reported_join_real_iff crypto plainCrypto_collisionFree (joinedFifteen [1])
    one_reachable inviter i' _ _ rfl 102 welcome admission admitted happrove (one withTwenty) s'
    ?_ hdone).mpr ⟨withTwenty, otherAdmission, rfl, hcur, .inr (.inr (by decide))⟩⟩
  intro g hg
  rw [← some.inj (show some withTwenty = some g from hg)]
  exact withTwenty_reachable

end Sample

end Panora.Node
