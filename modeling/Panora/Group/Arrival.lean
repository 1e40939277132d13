/-
  Panora.Group.Arrival — competing rosters that arrive one after another.

  Several devices change the group at once, each by one roster on the same parent, and
  a device receives the rosters in some order.  Each time it holds one branch and
  `fork_winner` decides whether the newcomer replaces it.

  Between two rosters that do not each remove the other's signer exactly one wins, but
  the three rules of `fork_winner` together are not transitive.

  Main results:
    * `applyChain_single` — what receiving one roster does;
    * `fork_winner_decides` — two whole branches, and two devices that hold them;
    * `arrival_order_free_iff` — for which competitors every order of arrival leaves
      the same branch.
-/
import Panora.Group.Keep
import Panora.Group.Redo
import Panora.Lib.Tournament

namespace Panora.Group

open Lib.Fallible Lib.Keyed Lib Lib.Window List

/-! ## §1. One roster arrives -/

/-- Does `r` take over from the branch held after the parent?  It follows an empty one,
    and does nothing to a branch it begins. -/
def takesOver (C : Crypto) (parent r : Roster) (branch : List Roster) : Bool :=
  match branch with
  | [] => true
  | first :: _ => first.hash C != r.hash C && forkWinner C parent [r] branch

/-- The rosters held after `parent`. -/
def GroupState.branchAfter (s : GroupState) (parent : Roster) : List Roster :=
  s.rosters.filter (fun r => decide (parent.epoch < r.epoch))

/-- Rosters arrive one after another. -/
def GroupState.receiveAll (C : Crypto) (s : GroupState) (rosters : List Roster) : GroupState :=
  rosters.foldl (fun s r => (s.applyChain C [r]).2) s

namespace GroupState

variable {C : Crypto} {s : GroupState} {kept branch : List Roster} {parent r : Roster}

/-- The rosters after the parent are the branch. -/
theorem branchAfter_eq (hs : s.WellKept C) (hr : s.rosters = kept ++ parent :: branch) :
    s.branchAfter parent = branch := by
  have hincrease := epochs_increase hs.history.linked
  rw [hr, pairwise_append, pairwise_cons] at hincrease
  obtain ⟨-, ⟨hafter, -⟩, hbefore⟩ := hincrease
  unfold branchAfter
  rw [hr, filter_append, filter_cons_of_neg (by simp)]
  have hkept : kept.filter (fun x => decide (parent.epoch < x.epoch)) = [] := by
    rw [filter_eq_nil_iff]
    intro x hx hlt
    have hlt' := hbefore x hx parent mem_cons_self
    have hlt : parent.epoch < x.epoch := by simpa using hlt
    omega
  have hbranch : branch.filter (fun x => decide (parent.epoch < x.epoch)) = branch := by
    rw [filter_eq_self]
    intro x hx
    exact decide_eq_true (hafter x hx)
  rw [hkept, hbranch, nil_append]

/-- Where a single roster that follows a held one leaves what is held. -/
theorem findFork_single (hs : s.WellKept C) (hr : s.rosters = kept ++ parent :: branch)
    (hvalid : r.Valid C) (hsucc : Succeeds C parent r) :
    s.findFork C [r]
      = if branch.head?.any (fun first => first.hash C == r.hash C) then .ok none
        else .ok (some ⟨kept.length + 1, parent, [r]⟩) := by
  obtain ⟨oldest, rest, holdest⟩ : ∃ oldest rest, s.rosters = oldest :: rest :=
    exists_cons_of_ne_nil hs.nonempty
  have hhist : History C (oldest :: rest) := holdest ▸ hs.history
  have hgid : s.groupId = .ok parent.groupId := hs.groupId_eq (by simp [hr])
  have hchain : ChainFor C parent.groupId [r] := by
    refine ⟨by simp, by simp [keptRosters], ?_, ?_, isChain_singleton r⟩
    · exact fun x hx => mem_singleton.mp hx ▸ hvalid
    · exact fun x hx => mem_singleton.mp hx ▸ hsucc.groupId
  -- where the epochs are
  have hparent := hhist.epoch_getElem kept.length parent (by rw [← holdest, hr]; simp)
  have hepoch := hsucc.epoch
  have hheld : s.heldAt oldest.epoch r.epoch = branch.head? := by
    unfold heldAt
    rw [if_neg (by omega), show r.epoch - oldest.epoch = kept.length + 1 by omega, hr,
      getElem?_append_right (by omega), show kept.length + 1 - kept.length = 1 by omega]
    cases branch with
    | nil => rfl
    | cons first tail => rfl
  have hnew : newPart C s oldest.epoch [r]
      = if branch.head?.any (fun first => first.hash C == r.hash C) then [] else [r] := by
    unfold newPart
    rw [dropWhile_cons_of_neg (by simp; omega)]
    rw [dropWhile_cons, hheld]
    rfl
  cases hsame : branch.head?.any (fun first => first.hash C == r.hash C) with
  | true =>
    rw [hsame] at hnew
    exact findFork_eq_none holdest hgid hchain hnew
  | false =>
    rw [hsame] at hnew
    exact findFork_eq_some hs holdest hgid hchain hr hnew hsucc

/-- The newest eight of some rosters and two more still hold the two. -/
theorem push_parent (t : GroupState) (ht : t.rosters = kept ++ [parent]) :
    ∃ kept', (t.push C r).rosters = kept' ++ [parent, r] := by
  rw [push_rosters, ht, append_assoc]
  exact ⟨_, newest_append (m := [parent, r]) (by simp [keptRosters])⟩

/-- **What receiving one roster does** to the branch after its parent. -/
theorem applyChain_single (hs : s.WellKept C) (hr : s.rosters = kept ++ parent :: branch)
    (hvalid : r.Valid C) (hsucc : Succeeds C parent r) :
    ∃ kept', (s.applyChain C [r]).2.rosters
      = kept' ++ parent :: (if takesOver C parent r branch then [r] else branch) := by
  have hfind := findFork_single hs hr hvalid hsucc
  unfold applyChain
  cases branch with
  | nil =>
    -- the roster follows the current one
    have hend : kept.length + 1 = s.rosters.length := by
      rw [hr, length_append, length_singleton]
    rw [hfind]
    show ∃ kept', (if kept.length + 1 = s.rosters.length then _ else _ :
      Except Error RosterUpdate × GroupState).2.rosters = _
    rw [if_pos hend, graft_rosters]
    exact push_parent s hr
  | cons first tail =>
    cases hhash : first.hash C == r.hash C with
    | true =>
      -- the roster is held
      have hnone : s.findFork C [r] = .ok none := by
        rw [hfind]
        exact if_pos hhash
      have htakes : takesOver C parent r (first :: tail) = false := by
        simp [takesOver, bne, hhash]
      rw [hnone, htakes]
      exact ⟨kept, hr⟩
    | false =>
      have hfork : s.findFork C [r] = .ok (some ⟨kept.length + 1, parent, [r]⟩) := by
        rw [hfind]
        exact if_neg (by simp [hhash])
      have hmiddle : ¬ kept.length + 1 = s.rosters.length := by
        rw [hr, length_append, length_cons, length_cons]
        omega
      have hdrop : s.rosters.drop (kept.length + 1) = first :: tail := by
        rw [hr]
        simp
      have htake : s.rosters.take (kept.length + 1) = kept ++ [parent] := by
        rw [hr, take_length_add_append]
        rfl
      have htakes : takesOver C parent r (first :: tail)
          = forkWinner C parent [r] (first :: tail) := by
        simp [takesOver, bne, hhash]
      rw [hfork]
      dsimp only
      rw [if_neg hmiddle, hdrop, htake, htakes]
      cases forkWinner C parent [r] (first :: tail) with
      | false => exact ⟨kept, hr⟩
      | true =>
        show ∃ kept', (GroupState.graft C _ _ _).2.rosters = _
        rw [graft_rosters]
        exact push_parent _ rfl

/-- Receiving rosters is a tournament for the place after the parent. -/
theorem receiveAll_eq (hs : s.WellKept C) (hr : s.rosters = kept ++ parent :: branch)
    {rosters : List Roster} (hvalid : ∀ r ∈ rosters, r.Valid C)
    (hsucc : ∀ r ∈ rosters, Succeeds C parent r) :
    (s.receiveAll C rosters).branchAfter parent
      = Tournament.outcome (takesOver C parent) (fun r => [r]) branch rosters := by
  induction rosters generalizing s kept branch with
  | nil => exact branchAfter_eq hs hr
  | cons r rosters ih =>
    rw [forall_mem_cons] at hvalid hsucc
    obtain ⟨kept', hr'⟩ := applyChain_single hs hr hvalid.1 hsucc.1
    exact ih (wellKept_applyChain hs [r]) hr' hvalid.2 hsucc.2

end GroupState

/-! ## §2. Between two competitors -/

/-- Two different ranks are one before the other. -/
theorem rankLt_eq_not {a b : Bytes × Bytes} (h : a.2 ≠ b.2) : rankLt a b = !rankLt b a := by
  unfold rankLt
  rcases lt_trichotomy a.1 b.1 with hlt | heq | hgt
  · simp [hlt, not_lt_of_gt hlt, ne_of_gt hlt]
  · rcases lt_or_gt_of_ne h with hlt | hgt
    · simp [heq, hlt, not_lt_of_gt hlt]
    · simp [heq, hgt, not_lt_of_gt hgt]
  · simp [hgt, not_lt_of_gt hgt, ne_of_gt hgt]

/-- **Of two branches that begin differently one wins**, unless each removes a signer of the
    other. -/
theorem forkWinner_eq_not {C : Crypto} {parent a b : Roster} {as bs : List Roster}
    (hhash : a.hash C ≠ b.hash C)
    (hapart : ¬ (removesSigner parent (a :: as) (b :: bs) = true
      ∧ removesSigner parent (b :: bs) (a :: as) = true)) :
    forkWinner C parent (a :: as) (b :: bs) = !forkWinner C parent (b :: bs) (a :: as) := by
  have hrank : rankLt (rank C parent a) (rank C parent b)
      = !rankLt (rank C parent b) (rank C parent a) := rankLt_eq_not hhash
  unfold forkWinner
  -- the rules in turn: a signer removed, a listed device removed, the rank
  cases hab : removesSigner parent (a :: as) (b :: bs) with
  | true =>
    cases hba : removesSigner parent (b :: bs) (a :: as) with
    | true => exact absurd ⟨hab, hba⟩ hapart
    | false => rfl
  | false =>
    cases hba : removesSigner parent (b :: bs) (a :: as) with
    | true => rfl
    | false =>
      cases removesListed parent (a :: as) (b :: bs) with
      | true =>
        cases removesListed parent (b :: bs) (a :: as) with
        | true => exact hrank
        | false => rfl
      | false =>
        cases removesListed parent (b :: bs) (a :: as) with
        | true => rfl
        | false => exact hrank

/-! ## §3. Two devices on two branches -/

/-- Branch `a` removes a device that signed a roster of branch `b`. -/
def RemovesSigner (parent : Roster) (a b : List Roster) : Prop :=
  ∃ r ∈ b, Removes parent a r.signer

theorem removesSigner_iff {parent : Roster} {a b : List Roster} :
    removesSigner parent a b = true ↔ RemovesSigner parent a b := by
  rw [removesSigner_eq_true]
  simp only [RemovesSigner, mem_removedAlong]

namespace GroupState

variable {C : Crypto} {s t : GroupState} {history kept kept' as bs : List Roster}
  {parent a b : Roster}

/-- What another device keeps of the common history is known here. -/
theorem known_of_common (ht : t.WellKept C) (hkept : kept <:+ history) (hkept' : kept' <:+ history)
    (hs : s.rosters = kept ++ parent :: as) (htr : t.rosters = kept' ++ parent :: bs) :
    ∀ r ∈ kept' ++ [parent], s.Known r := by
  -- what is held here is known here
  have hheld : ∀ r ∈ kept ++ [parent], s.Known r := by
    intro r hr
    refine Or.inr ⟨r, ?_, rfl, rfl⟩
    rw [hs, ← singleton_append, ← append_assoc]
    exact mem_append_left as hr
  rcases suffix_or_suffix_of_suffix hkept' hkept with hless | hmore
  · -- the other keeps less
    intro r hr
    apply hheld
    rcases mem_append.mp hr with hr | hr
    · exact mem_append_left _ (hless.subset hr)
    · exact mem_append_right _ hr
  · -- the other keeps more: the rest is older than all that is kept here
    obtain ⟨before, rfl⟩ := hmore
    intro r hr
    rw [append_assoc] at hr
    rcases mem_append.mp hr with hr | hr
    · have hincrease := epochs_increase ht.history.linked
      rw [htr, append_assoc] at hincrease
      have hbefore := (pairwise_append.mp hincrease).2.2 r hr
      left
      cases kept with
      | nil => exact ⟨parent, by rw [hs]; rfl, hbefore parent (by simp)⟩
      | cons first rest => exact ⟨first, by rw [hs]; rfl, hbefore first (by simp)⟩
    · exact hheld r hr

/-- The other device's chain leaves what is held here at the parent. -/
theorem forksAt_other (hs : s.WellKept C) (ht : t.WellKept C) (hkept : kept <:+ history)
    (hkept' : kept' <:+ history) (hsr : s.rosters = kept ++ parent :: a :: as)
    (htr : t.rosters = kept' ++ parent :: b :: bs) (hdiffer : a.body ≠ b.body) :
    ForksAt C s t.rosters parent (a :: as) (b :: bs) := by
  have hlinked := ht.history.linked
  rw [htr, isChain_append] at hlinked
  have hsucc : Succeeds C parent b := (isChain_cons_cons.mp hlinked.2.1).1
  have hincrease := epochs_increase hs.history.linked
  have hlinkedHere := hs.history.linked
  rw [hsr, isChain_append] at hlinkedHere
  have hsuccHere : Succeeds C parent a := (isChain_cons_cons.mp hlinkedHere.2.1).1
  refine ⟨⟨kept, hsr⟩, ⟨kept' ++ [parent], ?_, known_of_common ht hkept hkept' hsr htr⟩,
    ⟨b, bs, rfl, ?_, hsucc.epoch, hsucc.prev⟩⟩
  · rw [htr, append_assoc, singleton_append]
  · have hepoch := hsucc.epoch
    have hepochHere := hsuccHere.epoch
    rw [hsr, pairwise_append, pairwise_cons, pairwise_cons] at hincrease
    obtain ⟨-, ⟨-, hafter, -⟩, hbefore⟩ := hincrease
    intro hknown
    rcases hknown with ⟨oldest, holdest, hlt⟩ | ⟨h, hmem, hsame, hbody⟩
    · -- the oldest roster here is not after the parent
      have hle : oldest.epoch ≤ parent.epoch := by
        rw [hsr] at holdest
        cases kept with
        | nil =>
          have holdest : parent = oldest := by simpa using holdest
          rw [holdest]
        | cons first rest =>
          have holdest : first = oldest := by simpa using holdest
          have hlt := hbefore first (by simp) parent (by simp)
          rw [← holdest]
          omega
      omega
    · -- the roster held here for that epoch is the first of the branch
      rw [hsr] at hmem
      rcases mem_append.mp hmem with hmem | hmem
      · have hlt := hbefore h hmem parent (by simp)
        omega
      · rcases mem_cons.mp hmem with rfl | hmem
        · omega
        · rcases mem_cons.mp hmem with rfl | hmem
          · exact hdiffer hbody
          · have hlt := hafter h hmem
            omega

/-- **What another device's branch does here**: it takes the place of the held one where it
    wins. -/
theorem applyChain_other (hcf : CollisionFree C) (hs : s.WellKept C) (ht : t.WellKept C)
    (hkept : kept <:+ history) (hkept' : kept' <:+ history)
    (hsr : s.rosters = kept ++ parent :: a :: as)
    (htr : t.rosters = kept' ++ parent :: b :: bs) (hdiffer : a.body ≠ b.body) :
    (forkWinner C parent (b :: bs) (a :: as) = false → (s.applyChain C t.rosters).2 = s) ∧
      (s.applyChain C t.rosters).2.branchAfter parent
        = if forkWinner C parent (b :: bs) (a :: as) then b :: bs else a :: as := by
  have hlinked := ht.history.linked
  rw [htr, isChain_append] at hlinked
  have hsucc : Succeeds C parent b := (isChain_cons_cons.mp hlinked.2.1).1
  have hfind := findFork_of_forksAt hcf hs
    (forksAt_other hs ht hkept hkept' hsr htr hdiffer) ht.atMost ht.history.valid
    (fun r hr => ht.history.groupId_eq r hr parent (by simp [htr])) ht.history.linked hsucc
  have hidx : s.rosters.length - (a :: as).length = kept.length + 1 := by
    rw [hsr, length_append, length_cons]
    omega
  have hmiddle : ¬ kept.length + 1 = s.rosters.length := by
    rw [hsr, length_append, length_cons, length_cons]
    omega
  have hdrop : s.rosters.drop (kept.length + 1) = a :: as := by
    rw [hsr]
    simp
  have htake : s.rosters.take (kept.length + 1) = kept ++ [parent] := by
    rw [hsr, take_length_add_append]
    rfl
  rw [hidx] at hfind
  have hafter := wellKept_applyChain hs t.rosters
  unfold applyChain at hafter ⊢
  rw [hfind] at hafter ⊢
  dsimp only at hafter ⊢
  rw [if_neg hmiddle, hdrop, htake] at hafter ⊢
  cases hwin : forkWinner C parent (b :: bs) (a :: as) with
  | false => exact ⟨fun _ => rfl, branchAfter_eq hs hsr⟩
  | true =>
    refine ⟨by simp, ?_⟩
    rw [hwin] at hafter
    -- the parent and the branch were kept there, so they fit here
    have hlen : (parent :: b :: bs).length ≤ keptRosters := by
      have hatMost := ht.atMost
      rw [htr, length_append] at hatMost
      omega
    have hfits : (kept ++ [parent]).length ≤ keptRosters := by
      rw [← htake]
      exact (length_take_le' _ _).trans hs.atMost
    refine branchAfter_eq hafter (?_ : _ = newest (keptRosters - (parent :: b :: bs).length) kept
      ++ parent :: b :: bs)
    show (GroupState.graft C _ _ _).2.rosters = _
    rw [graft_rosters, foldl_push_rosters _ _ hfits]
    show newest keptRosters (kept ++ [parent] ++ b :: bs) = _
    rw [append_assoc, singleton_append, newest_append hlen]

end GroupState

/-- **`fork_winner` decides every fork between two devices.**  Of two branches from one
    parent whose first rosters differ, neither beats the other if each removes a signer of
    the other; else exactly one does.  So two devices that hold the two branches after a
    common history, and exchange what they keep, stay as they are in the first case and end
    on the same branch in the second. -/
theorem fork_winner_decides (C : Crypto) (hcf : CollisionFree C) (parent a b : Roster)
    (as bs : List Roster) (hdiffer : a.body ≠ b.body) :
    (RemovesSigner parent (a :: as) (b :: bs) ∧ RemovesSigner parent (b :: bs) (a :: as) →
        forkWinner C parent (a :: as) (b :: bs) = false
          ∧ forkWinner C parent (b :: bs) (a :: as) = false) ∧
      (¬ (RemovesSigner parent (a :: as) (b :: bs) ∧ RemovesSigner parent (b :: bs) (a :: as)) →
        forkWinner C parent (a :: as) (b :: bs) = !forkWinner C parent (b :: bs) (a :: as)) ∧
      ∀ (s t : GroupState) (history kept kept' : List Roster), GroupState.Reachable C s →
        GroupState.Reachable C t → kept <:+ history → kept' <:+ history →
        s.rosters = kept ++ parent :: a :: as → t.rosters = kept' ++ parent :: b :: bs →
        (RemovesSigner parent (a :: as) (b :: bs) ∧ RemovesSigner parent (b :: bs) (a :: as) →
            (s.applyChain C t.rosters).2 = s ∧ (t.applyChain C s.rosters).2 = t) ∧
          (¬ (RemovesSigner parent (a :: as) (b :: bs)
              ∧ RemovesSigner parent (b :: bs) (a :: as)) →
            (s.applyChain C t.rosters).2.branchAfter parent
              = (t.applyChain C s.rosters).2.branchAfter parent) := by
  have hhash : a.hash C ≠ b.hash C := fun heq => hdiffer (hcf _ _ heq)
  have hsplit : RemovesSigner parent (a :: as) (b :: bs)
      ∧ RemovesSigner parent (b :: bs) (a :: as) →
      forkWinner C parent (a :: as) (b :: bs) = false
        ∧ forkWinner C parent (b :: bs) (a :: as) = false := by
    intro hboth
    exact ⟨forkWinner_false_of_removes_signer C (removesSigner_iff.mpr hboth.2),
      forkWinner_false_of_removes_signer C (removesSigner_iff.mpr hboth.1)⟩
  have hone : ¬ (RemovesSigner parent (a :: as) (b :: bs)
      ∧ RemovesSigner parent (b :: bs) (a :: as)) →
      forkWinner C parent (a :: as) (b :: bs) = !forkWinner C parent (b :: bs) (a :: as) := by
    intro hapart
    rw [← removesSigner_iff, ← removesSigner_iff] at hapart
    exact forkWinner_eq_not hhash hapart
  refine ⟨hsplit, hone, ?_⟩
  intro s t history kept kept' hs ht hkept hkept' hsr htr
  have hhere := GroupState.applyChain_other hcf hs.wellKept ht.wellKept hkept hkept' hsr htr hdiffer
  have hthere := GroupState.applyChain_other hcf ht.wellKept hs.wellKept hkept' hkept htr hsr
    (Ne.symm hdiffer)
  constructor
  · intro hboth
    obtain ⟨hab, hba⟩ := hsplit hboth
    exact ⟨hhere.1 hba, hthere.1 hab⟩
  · intro hapart
    rw [hhere.2, hthere.2, hone hapart]
    cases forkWinner C parent (b :: bs) (a :: as) with
    | true => rfl
    | false => rfl

namespace Sample

open GroupState FullGroup

/-- Device 1 removes device 4 while device 2 adds a device; then they exchange what they
    keep. -/
theorem fork_winner_decides_removal_and_addition :
    let s := ((joinedFifteen [1]).removeMember plainCrypto ⟨[1]⟩ [4] 62 zeroKeys).2
    let t := ((joinedFifteen [2]).addMember plainCrypto ⟨[2]⟩ (device 20 "x") 60).2
    (forkWinner plainCrypto fifteenRoster [dropFour] [addTwenty]
        = !forkWinner plainCrypto fifteenRoster [addTwenty] [dropFour]) ∧
      (s.applyChain plainCrypto t.rosters).2.branchAfter fifteenRoster
        = (t.applyChain plainCrypto s.rosters).2.branchAfter fifteenRoster := by
  have hremove := removeMember_eq (joinedFifteen_mayChange ⟨[1]⟩ (by decide))
    (i := [4]) (by decide) (by decide) (by decide) zeroKeys (by decide) 62
  have hadd := addMember_eq (joinedFifteen_mayChange ⟨[2]⟩ (by decide)) (m := device 20 "x")
    (by decide) (by decide) (by decide) (by decide) (by decide) 60
  have hdiffer : dropFour.body ≠ addTwenty.body := by
    intro heq
    have htimes := createdAt_of_body_eq heq rfl rfl rfl
    exact absurd htimes (by decide)
  have hapart : ¬ (RemovesSigner fifteenRoster [dropFour] [addTwenty]
      ∧ RemovesSigner fifteenRoster [addTwenty] [dropFour]) := by
    rw [← removesSigner_iff, ← removesSigner_iff]
    decide
  obtain ⟨-, hone, hdevices⟩ := fork_winner_decides plainCrypto plainCrypto_collisionFree
    fifteenRoster dropFour addTwenty [] [] hdiffer
  refine ⟨hone hapart, ?_⟩
  refine (hdevices _ _ [] [] [] (.removeMember _ _ _ _ (joinedFifteen_reachable 1 (by decide)))
    (.addMember _ _ _ (joinedFifteen_reachable 2 (by decide))) suffix_rfl suffix_rfl
    ?_ ?_).2 hapart
  · rw [hremove]
    rfl
  · rw [hadd]
    rfl

end Sample

/-! ## §4. The order of arrival -/

/-- A device that holds some branch after `parent`, and competing rosters on it: each a
    legal change of the parent, no two the same, and no two that each remove the other's
    signer. -/
structure Competition (C : Crypto) where
  state : GroupState
  reachable : GroupState.Reachable C state
  kept : List Roster
  parent : Roster
  held : List Roster
  rosters : state.rosters = kept ++ parent :: held
  competitors : List Roster
  nodup : competitors.Nodup
  valid : ∀ r ∈ competitors, r.Valid C
  follows : ∀ r ∈ competitors, Succeeds C parent r
  differ : ∀ a ∈ competitors, ∀ b ∈ competitors, a.hash C = b.hash C → a = b
  apart : ∀ a ∈ competitors, ∀ b ∈ competitors, a ≠ b →
    ¬ (removesSigner parent [a] [b] = true ∧ removesSigner parent [b] [a] = true)

variable {C : Crypto}

/-- The branch held after the parent once the rosters have arrived in some order. -/
def Competition.after (c : Competition C) (order : List Roster) : List Roster :=
  (c.state.receiveAll C order).branchAfter c.parent

theorem Competition.takesOver_eq (c : Competition C) {a b : Roster} (ha : a ∈ c.competitors)
    (hb : b ∈ c.competitors) (hne : a ≠ b) :
    takesOver C c.parent a [b] = forkWinner C c.parent [a] [b] := by
  have hhash : (b.hash C != a.hash C) = true := by
    rw [bne_iff_ne]
    exact fun heq => hne (c.differ b hb a ha heq).symm
  show (b.hash C != a.hash C && forkWinner C c.parent [a] [b]) = _
  rw [hhash, Bool.true_and]

/-- The competition is a tournament. -/
theorem Competition.decided (c : Competition C) :
    Tournament.Decided (takesOver C c.parent) (fun r => [r]) c.competitors where
  nodup := c.nodup
  seats a _ b _ h := singleton_inj.mp h
  between a ha b hb hne := by
    rw [c.takesOver_eq ha hb hne, c.takesOver_eq hb ha (Ne.symm hne)]
    exact forkWinner_eq_not (fun heq => hne (c.differ a ha b hb heq)) (c.apart a ha b hb hne)
  itself a _ := by simp [takesOver]

/-- What is held in the end is who wins it. -/
theorem Competition.after_eq (c : Competition C) {l : List Roster}
    (hl : ∀ r ∈ l, r ∈ c.competitors) :
    c.after l = Tournament.outcome (takesOver C c.parent) (fun r => [r]) c.held l :=
  GroupState.receiveAll_eq c.reachable.wellKept c.rosters (fun r hr => c.valid r (hl r hr))
    (fun r hr => c.follows r (hl r hr))

/-- **When the order of arrival does not matter.**  Every order leaves the same branch
    exactly when no competitor takes over from the branch held at first, or one of them
    takes over from it and from every other competitor. -/
theorem arrival_order_free_iff (c : Competition C) :
    (∀ l l', l.Perm c.competitors → l'.Perm c.competitors → c.after l = c.after l') ↔
      (∀ r ∈ c.competitors, takesOver C c.parent r c.held = false) ∨
        ∃ m ∈ c.competitors, takesOver C c.parent m c.held = true ∧
          ∀ r ∈ c.competitors, r ≠ m → takesOver C c.parent m [r] = true := by
  rw [← Tournament.order_free_iff c.decided c.held]
  have hafter : ∀ l, l.Perm c.competitors → c.after l
      = Tournament.outcome (takesOver C c.parent) (fun r => [r]) c.held l := by
    intro l hl
    exact c.after_eq (fun r hr => hl.mem_iff.mp hr)
  constructor
  · intro h l l' hl hl'
    rw [← hafter l hl, ← hafter l' hl']
    exact h l l' hl hl'
  · intro h l l' hl hl'
    rw [hafter l hl, hafter l' hl']
    exact h l l' hl hl'

namespace Sample

open GroupState FullGroup

/-- Of the fifteen devices, one removes another. -/
def removes (signer target : Byte) : Roster :=
  removalOf plainCrypto fifteenRoster ⟨[signer]⟩ [target] signer.val zeroKeys

theorem removes_valid {signer target : Byte} (hsigner : fifteenRoster.member [signer] ≠ none)
    (hother : target ≠ signer) : (removes signer target).Valid plainCrypto :=
  valid_removalOf fifteenRoster_valid ⟨[signer]⟩ signer.val zeroKeys hsigner
    (fun h : [target] = [signer] => hother (singleton_inj.mp h)) (by decide)

theorem removes_succeeds {signer : Byte} (target : Byte)
    (hsigner : fifteenRoster.member [signer] ≠ none) :
    Succeeds plainCrypto fifteenRoster (removes signer target) :=
  succeeds_removalOf fifteenRoster_valid ⟨[signer]⟩ hsigner signer.val (by decide)

/-- The time it was made tells each from the others. -/
theorem removes_hash_ne {a b x y : Byte} (h : i64Bytes a.val ≠ i64Bytes b.val) :
    (removes a x).hash plainCrypto ≠ (removes b y).hash plainCrypto := by
  intro heq
  have hbody : (removes a x).body = (removes b y).body :=
    plainCrypto_collisionFree (removes a x).body (removes b y).body heq
  have hgroup : ∀ c z, (removes c z).groupId = fifteenRoster.groupId := fun _ _ => rfl
  have hepoch : ∀ c z, (removes c z).epoch = fifteenRoster.epoch + 1 := fun _ _ => rfl
  have hprev : ∀ c z, (removes c z).prev = fifteenRoster.hash plainCrypto := fun _ _ => rfl
  have hcreated : ∀ c z, (removes c z).createdAt = c.val := fun _ _ => rfl
  have htimes := createdAt_of_body_eq hbody (by rw [hgroup, hgroup]) (by rw [hepoch, hepoch])
    (by rw [hprev, hprev])
  rw [hcreated, hcreated] at htimes
  exact h htimes

/-- Device 3 removes device 1, device 1 removes device 4, device 2 removes device 5. -/
def removals : List Roster := [removes 3 1, removes 1 4, removes 2 5]

theorem removals_differ : ∀ a ∈ removals, ∀ b ∈ removals,
    a.hash plainCrypto = b.hash plainCrypto → a = b := by
  have h31 := removes_hash_ne (a := 3) (b := 1) (x := 1) (y := 4) (by decide)
  have h32 := removes_hash_ne (a := 3) (b := 2) (x := 1) (y := 5) (by decide)
  have h12 := removes_hash_ne (a := 1) (b := 2) (x := 4) (y := 5) (by decide)
  intro a ha b hb heq
  simp only [removals, mem_cons, not_mem_nil, or_false] at ha hb
  rcases ha with rfl | rfl | rfl <;> rcases hb with rfl | rfl | rfl
  · rfl
  · exact absurd heq h31
  · exact absurd heq h32
  · exact absurd heq.symm h31
  · rfl
  · exact absurd heq h12
  · exact absurd heq.symm h32
  · exact absurd heq.symm h12
  · rfl

/-- Device 15 holds the roster of the fifteen when the three arrive. -/
def threeRemovals : Competition plainCrypto where
  state := joinedFifteen [15]
  reachable := joinedFifteen_reachable 15 (by decide)
  kept := []
  parent := fifteenRoster
  held := []
  rosters := rfl
  competitors := removals
  nodup := Nodup.of_map Roster.signer (by decide)
  valid := by
    simp only [removals, forall_mem_cons, not_mem_nil, false_implies, implies_true,
      and_true]
    exact ⟨removes_valid (by decide) (by decide), removes_valid (by decide) (by decide),
      removes_valid (by decide) (by decide)⟩
  follows := by
    simp only [removals, forall_mem_cons, not_mem_nil, false_implies, implies_true,
      and_true]
    exact ⟨removes_succeeds 1 (by decide), removes_succeeds 4 (by decide),
      removes_succeeds 5 (by decide)⟩
  differ := removals_differ
  apart := by
    have hapart : ∀ a ∈ removals, ∀ b ∈ removals, ¬ (removesSigner fifteenRoster [a] [b] = true ∧
        removesSigner fifteenRoster [b] [a] = true) := by
      decide
    exact fun a ha b hb _ => hapart a ha b hb

/-- Where each removes a device the other lists, the lower signer wins. -/
theorem removes_beats {a b x y : Byte}
    (hsigner : removesSigner fifteenRoster [removes a x] [removes b y] = false)
    (hsigner' : removesSigner fifteenRoster [removes b y] [removes a x] = false)
    (hlisted : removesListed fifteenRoster [removes a x] [removes b y] = true)
    (hlisted' : removesListed fifteenRoster [removes b y] [removes a x] = true)
    (hlt : (removes a x).signer < (removes b y).signer) :
    forkWinner plainCrypto fifteenRoster [removes a x] [removes b y] = true := by
  rw [forkWinner_of_both_remove plainCrypto hsigner hsigner' hlisted hlisted']
  have hrank : (rank plainCrypto fifteenRoster (removes a x)).1
      < (rank plainCrypto fifteenRoster (removes b y)).1 :=
    append_left_lt (append_left_lt hlt)
  simp [rankLt, hrank]

/-- The first beats the second, which beats the third, which beats the first: so it matters
    who comes last. -/
theorem three_removals_depend_on_order :
    threeRemovals.after [removes 1 4, removes 2 5, removes 3 1] = [removes 3 1] ∧
      threeRemovals.after [removes 2 5, removes 3 1, removes 1 4] = [removes 1 4] ∧
      removes 3 1 ≠ removes 1 4 := by
  have hne : removes 3 1 ≠ removes 1 4 := fun heq =>
    absurd (congrArg Roster.signer heq) (by decide)
  have h1 : removes 3 1 ∈ threeRemovals.competitors := mem_cons_self
  have h2 : removes 1 4 ∈ threeRemovals.competitors := mem_cons_of_mem _ mem_cons_self
  have h3 : removes 2 5 ∈ threeRemovals.competitors :=
    mem_cons_of_mem _ (mem_cons_of_mem _ mem_cons_self)
  have hne' : removes 1 4 ≠ removes 2 5 := fun heq =>
    absurd (congrArg Roster.signer heq) (by decide)
  have hne'' : removes 2 5 ≠ removes 3 1 := fun heq =>
    absurd (congrArg Roster.signer heq) (by decide)
  -- who takes over from whom
  have hfirst : takesOver plainCrypto threeRemovals.parent (removes 3 1) [removes 1 4] = true := by
    rw [threeRemovals.takesOver_eq h1 h2 hne]
    unfold forkWinner
    rw [show removesSigner threeRemovals.parent [removes 3 1] [removes 1 4] = true by decide,
      show removesSigner threeRemovals.parent [removes 1 4] [removes 3 1] = false by decide]
  have hsecond : takesOver plainCrypto threeRemovals.parent (removes 1 4) [removes 2 5] = true := by
    rw [threeRemovals.takesOver_eq h2 h3 hne']
    exact removes_beats (by decide) (by decide) (by decide) (by decide) (by decide)
  have hthird : takesOver plainCrypto threeRemovals.parent (removes 2 5) [removes 3 1] = true := by
    rw [threeRemovals.takesOver_eq h3 h1 hne'']
    exact removes_beats (by decide) (by decide) (by decide) (by decide) (by decide)
  have hsecond' := threeRemovals.decided.between _ h3 _ h2 hne'.symm
  have hthird' := threeRemovals.decided.between _ h1 _ h3 hne''.symm
  rw [hsecond] at hsecond'
  rw [hthird] at hthird'
  refine ⟨?_, ?_, hne⟩
  · rw [threeRemovals.after_eq (by simp [h1, h2, h3]), Tournament.outcome_cons,
      Tournament.arrive_of_takes rfl, Tournament.outcome_cons, Tournament.arrive_of_not hsecond',
      Tournament.outcome_cons, Tournament.arrive_of_takes hfirst]
    rfl
  · rw [threeRemovals.after_eq (by simp [h1, h2, h3]), Tournament.outcome_cons,
      Tournament.arrive_of_takes rfl, Tournament.outcome_cons, Tournament.arrive_of_not hthird',
      Tournament.outcome_cons, Tournament.arrive_of_takes hsecond]
    rfl

end Sample

end Panora.Group
