/-
  Panora.Group.Undo — does redoing undo the winner's removals?

  `changes_to_reapply` looks at the lost branch alone.  An addition this device made
  there is handed back even if the branch that won removed the very device it added,
  and `reapply` makes it again: it only asks whether the identity or the device id is
  in use.  So a device that the winner removed can come back.

  `addsBack` says which additions are really made; nothing else brings an identity
  back.

  Main results:
    * `listed_redo_iff_addsBack`       — what redoing brings back, on the member list;
    * `winner_removals_stand_iff`      — the same for a fork lost by any reachable state;
    * `winner_removal_undone`          — a run in which a removal by the winner is undone.
-/
import Panora.Group.Redo

namespace Panora.Group

open Lib.Fallible Lib.Keyed

/-! ## §1. What redoing brings back -/

/-- **What redoing brings back**: an identity that was not listed is listed afterwards
    exactly when one of the additions of it was made. -/
theorem listed_redo_iff_addsBack {changes : List Change} {members : List Member} {epoch : Nat}
    {i : PublicIdentity} (hsep : Separate changes) (hi : listed members i = false) :
    listed (redo members epoch changes) i = true ↔ addsBack i members epoch changes = true := by
  obtain ⟨hback, hkept⟩ := listed_redo (i := i) changes members epoch
  constructor
  · intro h
    exact (hback h).resolve_left (by rw [hi]; exact Bool.false_ne_true)
  · intro h
    -- the additions and the removals concern different devices, so `i` stays
    obtain ⟨m, hm, hident⟩ := mem_of_addsBack h
    exact hkept (fun hmem => hsep m i hm hmem hident) (.inr h)

/-! ## §2. After a lost fork -/

namespace GroupState

/-- The branch `applyChain` takes over when the incoming one wins, with its parent. -/
def winningBranch (C : Crypto) (s : GroupState) (chain : List Roster) :
    Option (Roster × List Roster) :=
  match s.findFork C chain with
  | .ok (some f) => some (f.parent, f.incoming)
  | _ => none

theorem winningBranch_of_findFork {C : Crypto} {s : GroupState} {chain : List Roster}
    {f : ForkPoint} (h : s.findFork C chain = .ok (some f)) :
    s.winningBranch C chain = some (f.parent, f.incoming) := by
  unfold winningBranch
  rw [h]

/-- The end of the branch that won is the current roster. -/
theorem winningBranch_getLast? {C : Crypto} {s s1 : GroupState} {chain : List Roster}
    {changes : List Change} (h : s.applyChain C chain = (.ok (.replaced changes), s1))
    {parent : Roster} {won : List Roster} (hwon : s.winningBranch C chain = some (parent, won)) :
    s1.rosters.getLast? = won.getLast? := by
  rcases applyChain_cases C s chain with
    ⟨-, ⟨e, he⟩ | he | he⟩ | ⟨f, t, update, hfork, happly, -, -, -⟩
  · rw [h] at he; cases he
  · rw [h] at he; cases he
  · rw [h] at he; cases he
  · rw [h] at happly
    unfold winningBranch at hwon
    rw [hfork] at hwon
    cases hwon
    rw [(graft_fst_eq_replaced happly.symm).2,
      foldl_push_getLast? (findFork_sound hfork).incoming_ne_nil]

/-- **When the winner's removals stand.**  After `applyChain` replaced a branch of any
    reachable state and left this device a member, `reapply` leaves a roster that lists
    no device the winning branch had removed for good, exactly when it makes no addition
    of such a device. -/
theorem winner_removals_stand_iff (C : Crypto) (s : GroupState) (hs : Reachable C s)
    (chain : List Roster) (changes : List Change) (s1 : GroupState)
    (hreplaced : s.applyChain C chain = (.ok (.replaced changes), s1))
    (hmember : s1.isMember = .ok true) (cur : Roster) (hcur : s1.current = .ok cur)
    (signer : DeviceIdentity) (hsigner : signer.publicKey C = s.me) (now : Int)
    (drawn : Nat → Bytes) (hfresh : FreshKeys C cur drawn) :
    (∀ parent won last, s.winningBranch C chain = some (parent, won) →
        won.getLast? = some last → ∀ i, Removes parent won i → last.member i = none →
        ∃ final, (reapply C signer now drawn s1 changes).2.current = .ok final
          ∧ final.member i = none)
      ↔ ∀ parent won, s.winningBranch C chain = some (parent, won) →
          ∀ i, Removes parent won i → cur.member i = none →
          addsBack i cur.members cur.epoch changes = false := by
  obtain ⟨final, hfinal, hmembers⟩ :=
    reapply_of_replaced hs hreplaced hmember hcur hsigner now hfresh
  obtain ⟨lostParent, lost, -, -, -, hchanges, -⟩ := applyChain_replaced hreplaced
  have hsep : Separate changes := hchanges ▸ separate_changesToReapply lostParent lost s.me
  -- for a device the winner's end does not list, the two sides say the same
  have hback : ∀ i, cur.member i = none →
      (final.member i = none ↔ addsBack i cur.members cur.epoch changes = false) := by
    intro i hi
    have hnot := (member_eq_none_iff_listed rfl i).mp hi
    rw [member_eq_none_iff_listed hmembers, ← Bool.not_eq_true,
      listed_redo_iff_addsBack hsep hnot, Bool.not_eq_true]
  have hlast : ∀ parent won, s.winningBranch C chain = some (parent, won) →
      won.getLast? = some cur := by
    intro parent won hwon
    rw [← winningBranch_getLast? hreplaced hwon]
    exact current_eq_ok_iff.mp hcur
  constructor
  · intro h parent won hwon i hremoved hi
    obtain ⟨final', hfinal', hnone⟩ := h parent won cur hwon (hlast parent won hwon) i hremoved hi
    rw [hfinal] at hfinal'
    injection hfinal' with hfinal'
    rw [← hback i hi, hfinal']
    exact hnone
  · intro h parent won last hwon hlast' i hremoved hi
    rw [hlast parent won hwon] at hlast'
    injection hlast' with hlast'
    subst hlast'
    exact ⟨final, hfinal, (hback i hi).mpr (h parent won hwon i hremoved hi)⟩

end GroupState

/-! ## §3. A removal that is undone

    Device 2 removes device 3 and pairs it again; at the same time device 1 removes
    device 3.  Device 1's branch removes a device the other lists at its end, so it
    wins.  Device 2 redoes its own addition, and device 3 is back. -/

namespace FullGroup

open GroupState

def dropThreeFirst : Roster := removalOf plainCrypto fifteenRoster ⟨[2]⟩ [3] 60 zeroKeys
def addThreeAgain : Roster := additionOf plainCrypto dropThreeFirst ⟨[2]⟩ (device 3 "c") 61

/-- What device 1 does meanwhile. -/
def dropThreeToo : Roster := removalOf plainCrypto fifteenRoster ⟨[1]⟩ [3] 62 zeroKeys

/-- Device 2 after its two changes. -/
def pairedAgain : GroupState :=
  ({ (joinedFifteen [2]) with
    keys := (joinedFifteen [2]).keys ++ [removalKey fifteenRoster zeroKeys] }.push plainCrypto
      dropThreeFirst).push plainCrypto addThreeAgain

theorem pairedAgain_reachable : Reachable plainCrypto pairedAgain := by
  have h0 := joinedFifteen_mayChange ⟨[2]⟩ (by decide)
  have hremove := removeMember_eq h0 (i := [3]) (by decide) (by decide) (by decide)
    zeroKeys (by decide) 60
  have h1 := h0.removalOf 60 (i := [3]) (by decide) (by decide) zeroKeys (by decide)
    ((joinedFifteen [2]).keys ++ [removalKey fifteenRoster zeroKeys])
  have hadd := addMember_eq h1 (m := device 3 "c") (by decide) (by decide)
    (by decide) (by decide) (by decide) 61
  have hreach := Reachable.addMember ⟨[2]⟩ (device 3 "c") 61
    (Reachable.removeMember ⟨[2]⟩ [3] 60 zeroKeys (joinedFifteen_reachable 2 (by decide)))
  rw [show (joinedFifteen [2]).removeMember plainCrypto ⟨[2]⟩ [3] 60 zeroKeys = _ from hremove]
    at hreach
  rw [show (GroupState.addMember plainCrypto _ ⟨[2]⟩ (device 3 "c") 61) = _ from hadd] at hreach
  exact hreach

/-- Device 1's removal is a valid roster that grows from the fifteen's. -/
theorem dropThreeToo_mayChange (me : PublicIdentity) (keys : List GroupKey)
    (hme : dropThreeToo.member me ≠ none) :
    ((⟨me, [fifteenRoster], keys⟩ : GroupState).push plainCrypto dropThreeToo).MayChange
      plainCrypto dropThreeToo ⟨me⟩ := by
  have h0 := joinedFifteen_mayChange ⟨[1]⟩ (by decide)
  have hvalid := (h0.removalOf 62 (i := [3]) (by decide) (by decide) zeroKeys (by decide) []).valid
  have hsucc : Succeeds plainCrypto fifteenRoster dropThreeToo :=
    succeeds_removalOf fifteenRoster_valid ⟨[1]⟩ (by decide) 62 (by decide)
  refine ⟨?_, push_getLast? plainCrypto _ _, by rw [push_me]; rfl, ?_⟩
  · refine wellKept_push fifteen_history hvalid (fun c hc => ?_)
    have : fifteenRoster = c := by simpa using hc
    exact this ▸ hsucc
  · rw [push_me]
    exact hme

theorem pairedAgain_forksAt : ForksAt plainCrypto pairedAgain [dropThreeToo]
    fifteenRoster [dropThreeFirst, addThreeAgain] [dropThreeToo] :=
  forksAt_fifteen rfl rfl rfl rfl ⟨rfl, rfl, rfl⟩ (by decide)

theorem pairedAgain_findFork : pairedAgain.findFork plainCrypto [dropThreeToo]
    = .ok (some ⟨1, fifteenRoster, [dropThreeToo]⟩) := by
  have hvalid := (dropThreeToo_mayChange [2] [] (by decide)).valid
  have hsucc : Succeeds plainCrypto fifteenRoster dropThreeToo :=
    succeeds_removalOf fifteenRoster_valid ⟨[1]⟩ (by decide) 62 (by decide)
  exact findFork_of_forksAt plainCrypto_collisionFree pairedAgain_reachable.wellKept
    pairedAgain_forksAt (by decide) (by simpa using hvalid)
    (by simpa using hsucc.groupId) (by simp) hsucc

/-- What device 2 has to redo: its own addition. -/
def threeAgain : List Change := [.added (device 3 "c")]

/-- Device 2 after it took device 1's removal over. -/
def threeGone : GroupState :=
  (⟨[2], [fifteenRoster], pairedAgain.keys⟩ : GroupState).push plainCrypto dropThreeToo

theorem threeGone_mayChange : threeGone.MayChange plainCrypto dropThreeToo ⟨[2]⟩ :=
  dropThreeToo_mayChange [2] pairedAgain.keys (by decide)

theorem threeGone_isMember : threeGone.isMember = .ok true := by
  unfold isMember
  rw [threeGone_mayChange.current_ok]
  rfl

theorem pairedAgain_applyChain : pairedAgain.applyChain plainCrypto [dropThreeToo]
    = (.ok (.replaced threeAgain), threeGone) := by
  -- device 1's branch removes a device that device 2's lists at its end
  have hwin : forkWinner plainCrypto fifteenRoster [dropThreeToo]
      [dropThreeFirst, addThreeAgain] = true := by decide
  have hredo : changesToReapply fifteenRoster [dropThreeFirst, addThreeAgain] [2]
      = threeAgain := by decide
  calc pairedAgain.applyChain plainCrypto [dropThreeToo]
    _ = graft plainCrypto ⟨[2], [fifteenRoster], pairedAgain.keys⟩
          ⟨1, fifteenRoster, [dropThreeToo]⟩
          (.replaced (changesToReapply fifteenRoster [dropThreeFirst, addThreeAgain] [2])) :=
        applyChain_of_fork_won pairedAgain_findFork (by decide) hwin
    _ = (.ok (.replaced (changesToReapply fifteenRoster [dropThreeFirst, addThreeAgain] [2])),
          threeGone) := graft_of_member threeGone_isMember
    _ = (.ok (.replaced threeAgain), threeGone) := by rw [hredo]

theorem dropThreeToo_fresh : FreshKeys plainCrypto dropThreeToo zeroKeys :=
  zeroKeys_fresh_of 6 rfl rfl (by decide)

theorem pairedAgain_winningBranch : pairedAgain.winningBranch plainCrypto [dropThreeToo]
    = some (fifteenRoster, [dropThreeToo]) :=
  winningBranch_of_findFork pairedAgain_findFork

theorem dropThreeToo_removes : Removes fifteenRoster [dropThreeToo] [3] :=
  ⟨fifteenRoster, dropThreeToo, List.infix_rfl, by decide, by decide⟩

/-- **A removal that is undone.**  Device 2, in a state it reached by one removal and one
    addition, takes over the branch in which device 1 removed device 3, is still a
    member, and redoes its changes: device 3, which the winning branch had removed and
    did not list at its end, is in the roster that `reapply` leaves. -/
theorem winner_removal_undone :
    ∃ s chain changes s1 parent won last final,
      Reachable plainCrypto s
      ∧ s.applyChain plainCrypto chain = (.ok (.replaced changes), s1)
      ∧ s1.isMember = .ok true
      ∧ s.winningBranch plainCrypto chain = some (parent, won)
      ∧ won.getLast? = some last ∧ Removes parent won [3] ∧ last.member [3] = none
      ∧ (reapply plainCrypto ⟨s.me⟩ 70 zeroKeys s1 changes).2.current = .ok final
      ∧ final.member [3] ≠ none := by
  obtain ⟨final, hfinal, hmembers⟩ := reapply_of_replaced pairedAgain_reachable
    pairedAgain_applyChain threeGone_isMember threeGone_mayChange.current_ok
    (show DeviceIdentity.publicKey plainCrypto ⟨[2]⟩ = pairedAgain.me from rfl) 70
    dropThreeToo_fresh
  refine ⟨pairedAgain, _, threeAgain, threeGone, fifteenRoster, _, dropThreeToo, final,
    pairedAgain_reachable, pairedAgain_applyChain, threeGone_isMember,
    pairedAgain_winningBranch, rfl, dropThreeToo_removes, by decide, hfinal, ?_⟩
  intro hnone
  have := (member_eq_none_iff_listed hmembers [3]).mp hnone
  exact absurd this (by decide)

/-- In that run the addition is made. -/
theorem winner_removals_stand_iff_pairedAgain :
    addsBack [3] dropThreeToo.members dropThreeToo.epoch threeAgain = true
      ∧ ¬ (∀ parent won last,
        pairedAgain.winningBranch plainCrypto [dropThreeToo] = some (parent, won) →
          won.getLast? = some last → ∀ i, Removes parent won i → last.member i = none →
          ∃ final,
            (reapply plainCrypto ⟨[2]⟩ 70 zeroKeys threeGone threeAgain).2.current = .ok final
            ∧ final.member i = none) := by
  have hback : addsBack [3] dropThreeToo.members dropThreeToo.epoch threeAgain = true := by
    decide
  refine ⟨hback, fun h => ?_⟩
  have := (winner_removals_stand_iff plainCrypto pairedAgain pairedAgain_reachable _ threeAgain
    threeGone pairedAgain_applyChain threeGone_isMember dropThreeToo
    threeGone_mayChange.current_ok ⟨[2]⟩ rfl 70 zeroKeys dropThreeToo_fresh).mp h
    fifteenRoster [dropThreeToo] pairedAgain_winningBranch [3] dropThreeToo_removes (by decide)
  rw [hback] at this
  exact absurd this (by decide)

end FullGroup

end Panora.Group
