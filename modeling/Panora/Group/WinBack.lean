/-
  Panora.Group.WinBack — a removed device cannot undo its removal.

  A device that was removed can still sign rosters on an older parent, where it
  was a member.  Whatever chain it builds, a device that holds the removal
  refuses it: `apply_chain` skips what both sides share, finds the fork point,
  and `fork_winner` looks at who signed before it looks at anything else.

  The roster hash is assumed free of collisions, so that "has the same hash" is
  "has the same signed content".  Nothing is needed about signatures: a roster
  names its signer, and that is what the fork rules read.

  Main results:
    * `findFork_eq_of_forksAt` — if `findFork` finds a fork point at all, it is the
      fork point;
    * `removed_device_cannot_win_back`.
-/
import Panora.Group.Window

namespace Panora.Group

open Lib.Fallible Lib.Keyed

/-- The roster hash has no collisions. -/
def CollisionFree (C : Crypto) : Prop :=
  ∀ x y, C.deriveKey "panora roster hash v1" x = C.deriveKey "panora roster hash v1" y → x = y

theorem plainCrypto_collisionFree : CollisionFree plainCrypto :=
  fun _ _ h => List.append_cancel_left h

/-! ## §1. The fork point of a chain -/

/-- A received roster that brings nothing new: it is older than what is kept here,
    or the roster kept for its epoch has the same signed content. -/
def GroupState.Known (s : GroupState) (r : Roster) : Prop :=
  (∃ oldest ∈ s.rosters.head?, r.epoch < oldest.epoch) ∨
    ∃ h ∈ s.rosters, h.epoch = r.epoch ∧ h.body = r.body

/-- A received chain leaves what is held at `parent`: there `held` grows on this
    device and `incoming`, from the first roster that differs on, in the chain. -/
structure ForksAt (C : Crypto) (s : GroupState) (chain : List Roster) (parent : Roster)
    (held incoming : List Roster) : Prop where
  rosters : ∃ kept, s.rosters = kept ++ parent :: held
  chain : ∃ shared, chain = shared ++ incoming ∧ ∀ r ∈ shared, s.Known r
  differs : ∃ head tail, incoming = head :: tail ∧ ¬ s.Known head
    ∧ head.epoch = parent.epoch + 1 ∧ head.prev = parent.hash C

/-! ## §2. `findFork` finds it -/

namespace GroupState

variable {C : Crypto} {s : GroupState}

theorem hash_eq_of_body_eq {a b : Roster} (h : a.body = b.body) : a.hash C = b.hash C := by
  unfold Roster.hash
  rw [h]

/-- What is new of a chain that forks at `parent` is exactly its incoming part. -/
theorem newPart_eq_incoming (hcf : CollisionFree C) {oldest : Roster} {rest : List Roster}
    (hhist : History C (oldest :: rest)) (hr : s.rosters = oldest :: rest)
    {shared tail : List Roster} {head : Roster}
    (hlinked : (shared ++ head :: tail).IsChain (Succeeds C))
    (hshared : ∀ r ∈ shared, s.Known r) (hhead : ¬ s.Known head) :
    newPart C s oldest.epoch (shared ++ head :: tail) = head :: tail := by
  unfold Known at hshared hhead
  simp only [hr, List.head?_cons, Option.mem_def, Option.some.injEq, exists_eq_left', not_or,
    not_lt, not_exists, not_and] at hshared hhead
  apply newPart_append hhist hr (epochs_increase hlinked)
  · intro r hrs
    rcases hshared r hrs with hold | ⟨h, hmem, hepoch, hbody⟩
    · exact Or.inl hold
    · exact Or.inr ⟨h, by rw [hr]; exact hmem, hepoch, hash_eq_of_body_eq hbody⟩
  · -- the first roster that differs: the held one of its epoch has another hash
    intro x hx
    have hx : head = x := by simpa using hx
    rw [← hx]
    refine ⟨hhead.1, ?_⟩
    intro hheld
    obtain ⟨h, hmem, hepoch, hhash⟩ := hheld
    rw [hr] at hmem
    exact hhead.2 h hmem hepoch (hcf _ _ hhash)

/-- **If `findFork` finds a fork point, it is the one the chain forks at.** -/
theorem findFork_eq_of_forksAt (hcf : CollisionFree C) (hs : s.WellKept C)
    {chain held incoming : List Roster} {parent : Roster} {f : ForkPoint}
    (hfork : ForksAt C s chain parent held incoming) (hfound : s.findFork C chain = .ok (some f)) :
    f.parent = parent ∧ f.incoming = incoming ∧ s.rosters.drop f.idx = held := by
  have hf := findFork_sound hfound
  obtain ⟨kept, hkept⟩ := hfork.rosters
  obtain ⟨shared, rfl, hshared⟩ := hfork.chain
  obtain ⟨head, tail, rfl, hhead, hepoch, -⟩ := hfork.differs
  obtain ⟨oldest, rest, hr⟩ : ∃ oldest rest, s.rosters = oldest :: rest :=
    List.exists_cons_of_ne_nil hs.nonempty
  have hhist : History C (oldest :: rest) := hr ▸ hs.history
  have hincoming : f.incoming = head :: tail := by
    rw [← hf.new oldest (by rw [hr]; rfl)]
    exact newPart_eq_incoming hcf hhist hr hf.chainLinked hshared hhead
  -- both parents have the epoch before the first incoming roster's
  have hidx : f.idx = kept.length + 1 := by
    obtain ⟨head', tail', heq, hsucc⟩ := hf.follows
    rw [hincoming] at heq
    injection heq with heq
    have hfp := hhist.epoch_getElem _ _ (hr ▸ hf.parent)
    have hpp := hhist.epoch_getElem kept.length parent (by rw [← hr, hkept]; simp)
    have hnext := hsucc.epoch
    have hpos := hf.pos
    rw [← heq] at hnext
    omega
  refine ⟨?_, hincoming, ?_⟩
  · have := hf.parent
    rw [hidx, hkept] at this
    simpa using this.symm
  · rw [hidx, hkept]
    simp

/-- **And it does find it**, in a chain of at most eight verified rosters of the same
    group, each a legal successor of the one before. -/
theorem findFork_of_forksAt (hcf : CollisionFree C) (hs : s.WellKept C)
    {chain held tail : List Roster} {parent head : Roster}
    (hfork : ForksAt C s chain parent held (head :: tail))
    (hlen : chain.length ≤ keptRosters) (hvalid : ∀ r ∈ chain, r.Valid C)
    (hgroup : ∀ r ∈ chain, r.groupId = parent.groupId)
    (hlinked : chain.IsChain (Succeeds C)) (hsucc : Succeeds C parent head) :
    s.findFork C chain
      = .ok (some ⟨s.rosters.length - held.length, parent, head :: tail⟩) := by
  obtain ⟨kept, hkept⟩ := hfork.rosters
  obtain ⟨shared, rfl, hshared⟩ := hfork.chain
  obtain ⟨head', tail', heq, hhead, -⟩ := hfork.differs
  injection heq with heq heq'
  subst heq heq'
  obtain ⟨oldest, rest, hr⟩ : ∃ oldest rest, s.rosters = oldest :: rest :=
    List.exists_cons_of_ne_nil hs.nonempty
  have hgid : s.groupId = .ok parent.groupId := hs.groupId_eq (by simp [hkept])
  have hnew := newPart_eq_incoming hcf (hr ▸ hs.history) hr hlinked hshared hhead
  have hidx : s.rosters.length - held.length = kept.length + 1 := by
    rw [hkept, List.length_append, List.length_cons]
    omega
  rw [hidx]
  exact findFork_eq_some hs hr hgid ⟨by simp, hlen, hvalid, hgroup, hlinked⟩ hkept hnew hsucc

end GroupState

/-! ## §3. The removed device -/

/-- **A removed device cannot win back.**  If the branch this device holds after
    the fork point removes `target`, and any roster of the incoming branch was
    signed by `target`, then `applyChain` takes nothing over: it neither advances,
    nor replaces the held branch, nor removes this device, and rosters and keys
    stay exactly as they were. -/
theorem removed_device_cannot_win_back (C : Crypto) (hcf : CollisionFree C) (s : GroupState)
    (hs : GroupState.Reachable C s) (chain held incoming : List Roster) (parent : Roster)
    (hfork : ForksAt C s chain parent held incoming) (target : PublicIdentity)
    (hremoved : Removes parent held target) (hsigned : ∃ r ∈ incoming, r.signer = target) :
    (∀ update, (s.applyChain C chain).1 = .ok update →
        update ≠ .advanced ∧ update ≠ .removedThisDevice
          ∧ ∀ changes, update ≠ .replaced changes)
      ∧ (s.applyChain C chain).2.rosters = s.rosters
      ∧ (s.applyChain C chain).2.keys = s.keys := by
  unfold GroupState.applyChain
  cases hfound : s.findFork C chain with
  | error e => exact ⟨fun update h => by simp at h, rfl, rfl⟩
  | ok found =>
    cases found with
    | none => exact ⟨fun update h => by cases h; simp, rfl, rfl⟩
    | some f =>
      obtain ⟨hparent, hincoming, hheld⟩ :=
        GroupState.findFork_eq_of_forksAt hcf hs.wellKept hfork hfound
      have hlost : forkWinner C parent incoming held = false := by
        obtain ⟨r, hr, hsigner⟩ := hsigned
        refine forkWinner_false_of_removes_signer C (removesSigner_eq_true.mpr ⟨r, hr, ?_⟩)
        rw [hsigner]
        exact mem_removedAlong.mpr hremoved
      -- a branch that removes someone is not empty, so this is a fork
      have hidx : f.idx ≠ s.rosters.length := by
        intro heq
        rw [heq, List.drop_length] at hheld
        rw [← hheld] at hremoved
        obtain ⟨a, b, hab, -⟩ := hremoved
        have := hab.length_le
        simp at this
      simp only [hidx, if_false, hparent, hincoming, hheld, hlost]
      exact ⟨fun update h => by cases h; simp, rfl, rfl⟩

/-- Device 1 and device 2 in one group, at epoch 5. -/
def pairRoster : Roster :=
  Roster.signed plainCrypto
    { groupId := [7], epoch := 5, prev := [0], createdAt := 50, keyEpoch := 0, keyCheck := [0]
      members := [⟨[1], "desktop-1", "Desk", 1⟩, ⟨[2], "laptop-2", "Lap", 2⟩]
      signer := [], signature := [] } ⟨[1]⟩

/-- Device 1 removes device 2. -/
def removalOfTwo : Roster :=
  Roster.signed plainCrypto
    { pairRoster with
      epoch := 6, prev := pairRoster.hash plainCrypto, keyEpoch := 6
      keyCheck := GroupKey.check plainCrypto ⟨6, [9]⟩ [7]
      members := [⟨[1], "desktop-1", "Desk", 1⟩] } ⟨[1]⟩

/-- Device 2, on the old parent, adds a third device. -/
def comebackOfTwo : Roster :=
  Roster.signed plainCrypto
    { pairRoster with
      epoch := 6, prev := pairRoster.hash plainCrypto
      members := pairRoster.members ++ [⟨[3], "phone-3", "Phone", 3⟩] } ⟨[2]⟩

/-- Device 2 was removed and tries to come back through its own roster. -/
theorem removed_device_cannot_win_back_by_adding :
    ∃ s, GroupState.joined plainCrypto [1] [pairRoster, removalOfTwo] ⟨6, [9]⟩ = .ok s
      ∧ (s.applyChain plainCrypto [comebackOfTwo]).2.rosters = s.rosters := by
  have hjoined : GroupState.joined plainCrypto [1] [pairRoster, removalOfTwo] ⟨6, [9]⟩
      = .ok ⟨[1], [pairRoster, removalOfTwo], [⟨6, [9]⟩]⟩ := by decide +kernel
  have hfork : ForksAt plainCrypto ⟨[1], [pairRoster, removalOfTwo], [⟨6, [9]⟩]⟩
      [comebackOfTwo] pairRoster [removalOfTwo] [comebackOfTwo] := by
    refine ⟨⟨[], rfl⟩, ⟨[], rfl, by simp⟩, ⟨comebackOfTwo, [], rfl, ?_, rfl, rfl⟩⟩
    have hother : removalOfTwo.body ≠ comebackOfTwo.body := by decide +kernel
    intro hknown
    rcases hknown with ⟨oldest, ho, hlt⟩ | ⟨h, hh, hepoch, hbody⟩
    · have : pairRoster = oldest := by simpa using ho
      rw [← this] at hlt
      exact absurd hlt (by decide)
    · have hh : h = pairRoster ∨ h = removalOfTwo := by simpa using hh
      rcases hh with rfl | rfl
      · exact absurd hepoch (by decide)
      · exact hother hbody
  refine ⟨_, hjoined, (removed_device_cannot_win_back plainCrypto plainCrypto_collisionFree _
    (.joined hjoined) _ _ _ _ hfork [2] ?_ ⟨comebackOfTwo, by simp, rfl⟩).2.1⟩
  exact ⟨pairRoster, removalOfTwo, List.infix_rfl, by decide, by decide⟩

end Panora.Group
