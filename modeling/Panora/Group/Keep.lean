/-
  Panora.Group.Keep — what every operation on a group keeps.

  Whatever a device does with its group, or a peer sends it, the group stays the same one
  and the device in it stays the same one: only leaving and joining change these.  A change
  that is refused keeps everything, and so does a chain that comes a second time.

  Main results:
    * `sameGroup_applyChain`, `sameGroup_reapply` and their likes;
    * `applyChain_outcome` — what a chain does, by what is answered;
    * `refused_changes_keep_all`.
-/
import Panora.Group.Change
import Panora.Group.Window

namespace Panora.Group

open Lib.Fallible Lib.Window List

/-! ## §1. The device and its group -/

/-- The same device in the same group. -/
structure GroupState.SameGroup (s s' : GroupState) : Prop where
  me : s'.me = s.me
  groupId : s'.groupId = s.groupId

namespace GroupState

variable {C : Crypto} {s : GroupState}

theorem SameGroup.refl (s : GroupState) : SameGroup s s := ⟨rfl, rfl⟩

theorem SameGroup.trans {a b c : GroupState} (h : SameGroup a b) (h' : SameGroup b c) :
    SameGroup a c :=
  ⟨h'.me.trans h.me, h'.groupId.trans h.groupId⟩

theorem groupId_of_current {cur : Roster} (h : s.rosters.getLast? = some cur) :
    s.groupId = .ok cur.groupId := by
  unfold groupId
  rw [current_eq_ok_iff.mpr h]
  rfl

variable (t : GroupState) {signer : DeviceIdentity} {e : Error} {s' : GroupState} {now : Int}
  {chain : List Roster}

/-- A signed roster stays in the group. -/
theorem sameGroup_push_signNext {next r : Roster}
    (h : s.signNext C signer next = .ok r) (keys : List GroupKey) :
    SameGroup s ({ s with keys := keys }.push C r) := by
  obtain ⟨-, -, cur, hcur, hsucc⟩ := signNext_ok_iff.mp h
  refine ⟨push_me C _ r, ?_⟩
  rw [groupId_of_current (push_getLast? C _ r), groupId_of_current hcur, hsucc.groupId]

theorem sameGroup_addMember (s : GroupState) (signer : DeviceIdentity) (m : Member) (now : Int) :
    SameGroup s (s.addMember C signer m now).2 := by
  unfold addMember
  cases h : s.additionRoster C signer m now with
  | error e => exact SameGroup.refl s
  | ok r =>
    obtain ⟨next, hsign⟩ := additionRoster_ok h
    exact sameGroup_push_signNext hsign s.keys

theorem sameGroup_removeMember (s : GroupState) (signer : DeviceIdentity) (i : PublicIdentity)
    (now : Int) (drawn : Nat → Bytes) : SameGroup s (s.removeMember C signer i now drawn).2 := by
  unfold removeMember
  cases h : s.removalRoster C signer i now drawn with
  | error e => exact SameGroup.refl s
  | ok rk =>
    obtain ⟨r, k⟩ := rk
    obtain ⟨next, hsign⟩ := removalRoster_ok h
    exact sameGroup_push_signNext hsign (s.keys ++ [k])

theorem sameGroup_acceptKey (s : GroupState) (k : GroupKey) : SameGroup s (s.acceptKey C k).2 := by
  have hprune : ∀ t : GroupState, SameGroup t (t.prune C) :=
    fun t => ⟨prune_me C t, by unfold groupId current; rw [prune_rosters]⟩
  unfold acceptKey
  split
  next => exact SameGroup.refl s
  next =>
  split
  next => exact SameGroup.refl s
  next =>
  split
  next => exact SameGroup.refl s
  next =>
  split
  next => exact SameGroup.refl s
  next =>
    have := hprune { s with keys := s.keys ++ [k] }
    exact ⟨this.me, this.groupId⟩

theorem sameGroup_reapply (signer : DeviceIdentity) (now : Int) (drawn : Nat → Bytes) :
    ∀ (changes : List Change) (s : GroupState),
      SameGroup s (reapply C signer now drawn s changes).2
  | [], s => SameGroup.refl s
  | .added m :: changes, s => by
    have hadd := sameGroup_addMember (C := C) s signer m now
    simp only [reapply]
    cases s.current with
    | error e => exact SameGroup.refl s
    | ok cur =>
      dsimp only
      split
      next => exact sameGroup_reapply signer now drawn changes s
      next =>
      rcases h : s.addMember C signer m now with ⟨out, s'⟩
      rw [h] at hadd
      cases out with
      | error e => exact hadd
      | ok r => exact hadd.trans (sameGroup_reapply signer now drawn changes s')
  | .removed i :: changes, s => by
    have hremove := sameGroup_removeMember (C := C) s signer i now drawn
    simp only [reapply]
    cases s.isPeer i with
    | error e => exact SameGroup.refl s
    | ok isPeer =>
      cases isPeer with
      | false => exact sameGroup_reapply signer now drawn changes s
      | true =>
        dsimp only
        rcases h : s.removeMember C signer i now drawn with ⟨out, s'⟩
        rw [h] at hremove
        cases out with
        | error e => exact hremove
        | ok rk => exact hremove.trans (sameGroup_reapply signer now drawn changes s')

/-- Grafting keeps who this device is. -/
theorem graft_me (f : ForkPoint) (update : RosterUpdate) : (t.graft C f update).2.me = t.me := by
  unfold graft
  dsimp only
  split
  · exact foldl_push_me C f.incoming t
  · split
    · exact foldl_push_me C f.incoming t
    · exact foldl_push_me C f.incoming t

/-- Taking rosters over leaves the last ones. -/
theorem graft_rosters (f : ForkPoint) (update : RosterUpdate) :
    (t.graft C f update).2.rosters = (f.incoming.foldl (push C) t).rosters := by
  unfold graft
  dsimp only
  split
  · rfl
  · split
    · rfl
    · rfl

variable {f : ForkPoint}

theorem graft_getLast? {t : GroupState} (hne : f.incoming ≠ []) (update : RosterUpdate) :
    (t.graft C f update).2.rosters.getLast? = f.incoming.getLast? := by
  rw [graft_rosters, foldl_push_getLast? hne]

/-- The rosters a fork point brings belong to the group. -/
theorem ForkPoint.Sound.groupId_eq
    (hf : f.Sound C s chain) : ∀ r ∈ f.incoming, r.groupId = f.parent.groupId := by
  have hhist : (f.parent :: f.incoming).IsChain (fun a b => a.groupId = b.groupId) :=
    hf.incomingLinked.imp (fun _ _ hab => hab.groupId.symm)
  have htrans : IsTrans Roster (fun a b => a.groupId = b.groupId) := ⟨fun _ _ _ => Eq.trans⟩
  have hpair := isChain_iff_pairwise.mp hhist
  intro r hr
  exact (rel_of_pairwise_cons hpair hr).symm

/-- **A chain from a peer leaves this device in its group.** -/
theorem sameGroup_applyChain (hs : s.WellKept C) (chain : List Roster) :
    SameGroup s (s.applyChain C chain).2 := by
  rcases applyChain_cases C s chain with ⟨hsame, -⟩ | ⟨f, t, update, hfork, happly, hme, -, -⟩
  · rw [hsame]
    exact SameGroup.refl s
  · have hf := findFork_sound hfork
    rw [happly]
    refine ⟨(graft_me t f update).trans hme, ?_⟩
    -- whatever is kept before the incoming rosters, they are the end of it
    have hlast := getLast?_eq_some_getLast hf.incoming_ne_nil
    obtain ⟨cur, hcur, -, -⟩ := hs.exists_current
    have hparent : f.parent ∈ s.rosters := mem_of_getElem? hf.parent
    rw [groupId_of_current ((graft_getLast? hf.incoming_ne_nil update).trans hlast),
      groupId_of_current hcur, hf.groupId_eq _ (mem_of_getLast? hlast),
      hs.history.groupId_eq _ hparent _ (mem_of_getLast? hcur)]

/-! ## §2. What a chain does -/

/-- What `graft` answers: the update it was given, unless the device is out. -/
theorem graft_fst {t : GroupState} (hne : f.incoming ≠ []) (update : RosterUpdate) :
    (t.graft C f update).1 = .ok .removedThisDevice ∨ (t.graft C f update).1 = .ok update := by
  -- a roster was pushed, so there is a current one
  have hlast : (f.incoming.foldl (push C) t).rosters.getLast? = some (f.incoming.getLast hne) := by
    rw [foldl_push_getLast? hne]
    exact getLast?_eq_some_getLast hne
  unfold graft isMember
  dsimp only
  rw [current_eq_ok_iff.mpr hlast]
  dsimp only [Except.map]
  split
  next => exact .inl rfl
  next => exact .inr rfl

/-- A chain was taken over: from where on, and what is kept then. -/
structure Grafted (C : Crypto) (s : GroupState) (chain : List Roster) (f : ForkPoint)
    (s' : GroupState) : Prop where
  sound : f.Sound C s chain
  chainFor : ∃ gid, s.groupId = .ok gid ∧ ChainFor C gid chain
  rosters : s'.rosters = newest keptRosters (s.rosters.take f.idx ++ f.incoming)

/-- **What a chain does, by what is answered**: an error, `Unchanged` and `ForkLost` leave
    the state, the other answers come with the chain taken over. -/
theorem applyChain_outcome (hs : s.WellKept C) (chain : List Roster) :
    ((s.applyChain C chain).2 = s ∧ ((∃ e, (s.applyChain C chain).1 = .error e)
        ∨ (s.applyChain C chain).1 = .ok .unchanged ∨ (s.applyChain C chain).1 = .ok .forkLost)) ∨
      ((∃ f, Grafted C s chain f (s.applyChain C chain).2)
        ∧ ((s.applyChain C chain).1 = .ok .removedThisDevice
          ∨ (s.applyChain C chain).1 = .ok .advanced
          ∨ ∃ changes, (s.applyChain C chain).1 = .ok (.replaced changes))) := by
  rcases applyChain_cases C s chain with hsame | ⟨f, t, update, hfork, happly, -, ht, hupdate⟩
  · exact .inl hsame
  · have hf := findFork_sound hfork
    have hlen : t.rosters.length ≤ keptRosters := by
      rw [ht]
      exact (length_take_le' _ _).trans hs.atMost
    rw [happly]
    refine .inr ⟨⟨f, hf, chainFor_of_findFork hfork, ?_⟩, ?_⟩
    · rw [graft_rosters, foldl_push_rosters f.incoming t hlen, ht]
    · rcases graft_fst hf.incoming_ne_nil update with h | h
      · exact .inl h
      · rcases hupdate with rfl | ⟨-, rfl⟩
        · exact .inr (.inl h)
        · exact .inr (.inr ⟨_, h⟩)

/-! ## §3. A chain that comes again -/

/-- What is before a fork point and comes in there is one run. -/
theorem ForkPoint.Sound.linked (hs : s.WellKept C)
    (hf : f.Sound C s chain) : (s.rosters.take f.idx ++ f.incoming).IsChain (Succeeds C) := by
  rw [isChain_append]
  obtain ⟨hfirst, hlinked⟩ := isChain_cons.mp hf.incomingLinked
  refine ⟨hs.history.linked.take f.idx, hlinked, ?_⟩
  intro parent hparent head hhead
  rw [hf.getLast?_take] at hparent
  have hparent : f.parent = parent := by simpa using hparent
  exact hparent ▸ hfirst head hhead

/-- **Once a chain was taken over, none of it is new**: each of its rosters is older than
    what is kept now, or held. -/
theorem Grafted.shared (hs : s.WellKept C)
    (h : Grafted C s chain f s') {oldest : Roster} (holdest : oldest ∈ s'.rosters) :
    ∀ r ∈ chain, r.epoch < oldest.epoch ∨ s'.Holds C r := by
  have hf := h.sound
  have hincrease := epochs_increase (hf.linked hs)
  obtain ⟨first, rest, hr⟩ : ∃ first rest, s.rosters = first :: rest :=
    exists_cons_of_ne_nil hs.nonempty
  have hhist : History C (first :: rest) := hr ▸ hs.history
  -- what is in the run of all rosters is still kept, or older than all that is
  have hkept : ∀ x ∈ s.rosters.take f.idx ++ f.incoming, ∀ r : Roster,
      x.epoch = r.epoch → x.hash C = r.hash C → r.epoch < oldest.epoch ∨ s'.Holds C r := by
    intro x hx r hepoch hhash
    rcases mem_newest_or_before hincrease hx with hin | hbefore
    · rw [← h.rosters] at hin
      exact .inr ⟨x, hin, hepoch, hhash⟩
    · rw [← h.rosters] at hbefore
      have hlt := hbefore oldest holdest
      exact .inl (by omega)
  have hpos := hf.pos
  -- all of it begins with the roster that was the oldest
  have hfirst : first.epoch ≤ oldest.epoch := by
    have hmem : oldest ∈ s.rosters.take f.idx ++ f.incoming :=
      newest_suffix.subset (h.rosters ▸ holdest)
    rw [hr, show f.idx = f.idx - 1 + 1 by omega, take_succ_cons, cons_append]
      at hincrease hmem
    rcases mem_cons.mp hmem with rfl | hmem
    · exact le_rfl
    · exact le_of_lt (rel_of_pairwise_cons hincrease hmem)
  obtain ⟨shared, hsplit, hshared⟩ := newPart_split hhist hr chain
  rw [hf.new first (by rw [hr]; rfl)] at hsplit
  have hlinked := hf.chainLinked
  rw [hsplit] at hlinked
  have horder := (pairwise_append.mp (epochs_increase hlinked)).2.2
  obtain ⟨head, tail, hhead, hsucc⟩ := hf.follows
  -- the epoch of the parent, and of what lies after it
  have hparent := hhist.epoch_getElem _ _ (hr ▸ hf.parent)
  have hnext := hsucc.epoch
  intro r hin
  rw [hsplit] at hin
  rcases mem_append.mp hin with hin | hin
  · have hbefore := horder r hin head (by rw [hhead]; exact mem_cons_self)
    rcases hshared r hin with hold | ⟨x, hx, hepoch, hhash⟩
    · -- older than what was kept, and what is kept now is no older
      exact .inl (lt_of_lt_of_le hold hfirst)
    · -- held before the fork point
      obtain ⟨i, hi⟩ := mem_iff_getElem?.mp hx
      have hat := hhist.epoch_getElem i x (hr ▸ hi)
      have hlt : i < f.idx := by omega
      have htake : (s.rosters.take f.idx)[i]? = some x := by
        rw [getElem?_take_of_lt hlt]
        exact hi
      exact hkept x (mem_append_left _ (mem_of_getElem? htake)) r hepoch hhash
  · exact hkept r (mem_append_right _ hin) r rfl rfl

/-- A chain that was taken over changes nothing when it comes again. -/
theorem Grafted.applyChain_again (hs : s.WellKept C) (hs' : s'.WellKept C)
    (hsame : SameGroup s s') (h : Grafted C s chain f s') :
    s'.applyChain C chain = (.ok .unchanged, s') := by
  obtain ⟨oldest, rest, hr⟩ : ∃ oldest rest, s'.rosters = oldest :: rest :=
    exists_cons_of_ne_nil hs'.nonempty
  obtain ⟨gid, hgid, hchain⟩ := h.chainFor
  have hnew : newPart C s' oldest.epoch chain = [] := by
    have hall := h.shared hs (show oldest ∈ s'.rosters by rw [hr]; exact mem_cons_self)
    have happend : newPart C s' oldest.epoch (chain ++ []) = [] := by
      apply newPart_append (hr ▸ hs'.history) hr _ hall
      · simp
      · rw [append_nil]
        exact epochs_increase hchain.linked
    rw [append_nil] at happend
    exact happend
  have hnone := findFork_eq_none hr (hsame.groupId.trans hgid) hchain hnew
  unfold applyChain
  rw [hnone]

/-! ## §4. Refused changes -/

theorem addMember_of_error {m : Member}
    (h : (s.addMember C signer m now).1 = .error e) : (s.addMember C signer m now).2 = s := by
  unfold addMember at h ⊢
  cases hroster : s.additionRoster C signer m now with
  | error e' => rfl
  | ok r =>
    rw [hroster] at h
    cases h

theorem removeMember_of_error {i : PublicIdentity}
    {drawn : Nat → Bytes} (h : (s.removeMember C signer i now drawn).1 = .error e) :
    (s.removeMember C signer i now drawn).2 = s := by
  unfold removeMember at h ⊢
  cases hroster : s.removalRoster C signer i now drawn with
  | error e' => rfl
  | ok rk =>
    rw [hroster] at h
    cases h

theorem acceptKey_of_error {key : GroupKey}
    (h : (s.acceptKey C key).1 = .error e) : (s.acceptKey C key).2 = s := by
  unfold acceptKey at h ⊢
  cases hcur : s.current with
  | error e' => rfl
  | ok cur =>
    rw [hcur] at h
    dsimp only at h ⊢
    split
    next => rfl
    next hmember =>
    split
    next => rfl
    next hmatch =>
    split
    next => rfl
    next hheld =>
      rw [if_neg hmember, if_neg hmatch, if_neg hheld] at h
      cases h

/-- **Refused changes have no effect.**  Whatever the arguments, an addition, a removal or a
    key that is refused leaves the state as it was, and so does a chain that is refused, lost
    or brings nothing; and a chain that was taken over changes nothing when it is applied
    again. -/
theorem refused_changes_keep_all (C : Crypto) (s : GroupState) (hs : Reachable C s) :
    (∀ signer m now e, (s.addMember C signer m now).1 = .error e →
        (s.addMember C signer m now).2 = s) ∧
      (∀ signer target now drawn e, (s.removeMember C signer target now drawn).1 = .error e →
        (s.removeMember C signer target now drawn).2 = s) ∧
      (∀ key e, (s.acceptKey C key).1 = .error e → (s.acceptKey C key).2 = s) ∧
      (∀ chain, ((∃ e, (s.applyChain C chain).1 = .error e)
          ∨ (s.applyChain C chain).1 = .ok .forkLost
          ∨ (s.applyChain C chain).1 = .ok .unchanged) → (s.applyChain C chain).2 = s) ∧
      ∀ chain, ((s.applyChain C chain).1 = .ok .advanced
          ∨ ∃ changes, (s.applyChain C chain).1 = .ok (.replaced changes)) →
        (s.applyChain C chain).2.applyChain C chain
          = (.ok .unchanged, (s.applyChain C chain).2) := by
  have hkept := hs.wellKept
  refine ⟨fun _ _ _ _ => addMember_of_error, fun _ _ _ _ _ => removeMember_of_error,
    fun _ _ => acceptKey_of_error, ?_, ?_⟩
  · intro chain h
    rcases applyChain_outcome hkept chain with ⟨hstate, -⟩ | ⟨-, hanswer⟩
    · exact hstate
    · -- the other answers are none of these
      rcases hanswer with hanswer | hanswer | ⟨changes, hanswer⟩ <;> rw [hanswer] at h <;>
        simp at h
  · intro chain h
    rcases applyChain_outcome hkept chain with ⟨-, hanswer⟩ | ⟨⟨f, hf⟩, -⟩
    · rcases hanswer with ⟨e, hanswer⟩ | hanswer | hanswer <;> rw [hanswer] at h <;> simp at h
    · exact hf.applyChain_again hkept (wellKept_applyChain hkept chain)
        (sameGroup_applyChain hkept chain)

/-- Device 2 cannot add itself to the group of device 1; and a device that has the first
    roster takes the second one over once. -/
theorem refused_changes_keep_all_alone :
    ∃ s, create plainCrypto ⟨[1]⟩ "desktop-1" "Desk" 100 [7] [9] = .ok s ∧
      (s.addMember plainCrypto ⟨[2]⟩ ⟨[2], "laptop-2", "Lap", 101⟩ 101).2 = s ∧
      let chain := (s.addMember plainCrypto ⟨[1]⟩ ⟨[2], "laptop-2", "Lap", 101⟩ 101).2.rosters
      (s.applyChain plainCrypto chain).1 = .ok .advanced ∧
        (s.applyChain plainCrypto chain).2.applyChain plainCrypto chain
          = (.ok .unchanged, (s.applyChain plainCrypto chain).2) := by
  obtain ⟨s, hs⟩ : ∃ s, create plainCrypto ⟨[1]⟩ "desktop-1" "Desk" 100 [7] [9] = .ok s :=
    ⟨_, rfl⟩
  have h := refused_changes_keep_all plainCrypto s (.create hs)
  have hrefused : (s.addMember plainCrypto ⟨[2]⟩ ⟨[2], "laptop-2", "Lap", 101⟩ 101).1
      = .error (.roster "only a member can change the group") := by
    cases hs
    decide +kernel
  have hadvanced : (s.applyChain plainCrypto (s.addMember plainCrypto ⟨[1]⟩
      ⟨[2], "laptop-2", "Lap", 101⟩ 101).2.rosters).1 = .ok .advanced := by
    cases hs
    decide +kernel
  exact ⟨s, hs, h.1 _ _ _ _ hrefused, hadvanced, h.2.2.2.2 _ (.inl hadvanced)⟩

end GroupState

end Panora.Group
