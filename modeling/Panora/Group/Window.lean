/-
  Panora.Group.Window — the rosters a device keeps, and what of a chain is new to it.

  A device keeps its newest eight rosters.  `apply_chain` skips the rosters of a received
  chain that are older than those, then the ones it holds, by epoch and hash; what is left
  has to grow from a held roster.

  Main results:
    * `foldl_push_rosters` — what is kept after a run of rosters was pushed;
    * `newPart_append` — what is new of a chain whose first part is not;
    * `findFork_eq_none`, `findFork_eq_some` — what `findFork` makes of it.
-/
import Panora.Group.Reload
import Panora.Lib.Window

namespace Panora.Group

open Lib.Fallible Lib.Keyed Lib.Window List

variable {oldest : Roster} {rest : List Roster}

/-! ## §1. The rosters kept -/

variable {chain : List Roster}

namespace GroupState

variable {C : Crypto} {s : GroupState}

/-- What is kept after a run of rosters was pushed. -/
theorem foldl_push_rosters (rs : List Roster) :
    ∀ t : GroupState, t.rosters.length ≤ keptRosters →
      (rs.foldl (push C) t).rosters = newest keptRosters (t.rosters ++ rs) := by
  intro t ht
  rw [← foldl_newest rs t.rosters ht]
  -- a push is a step of the window
  have hstep : ∀ (l : List Roster) (u : GroupState),
      (l.foldl (push C) u).rosters
        = l.foldl (fun window r => newest keptRosters (window ++ [r])) u.rosters := by
    intro l
    induction l with
    | nil =>
      intro u
      rfl
    | cons r l ih =>
      intro u
      rw [foldl_cons, foldl_cons, ih, push_rosters]
      rfl
  exact hstep rs t

theorem epochs_increase (h : chain.IsChain (Succeeds C)) :
    chain.Pairwise (fun a b => a.epoch < b.epoch) := by
  have htrans : IsTrans Roster (fun a b => a.epoch < b.epoch) := ⟨fun _ _ _ => lt_trans⟩
  refine isChain_iff_pairwise.mp (h.imp (fun a b hab => ?_))
  have := hab.epoch
  omega

/-- On a run of rosters, the roster held for an epoch is the one with that epoch. -/
theorem heldAt_eq_some_iff (hhist : History C (oldest :: rest)) (hr : s.rosters = oldest :: rest)
    {epoch : Nat} {h : Roster} :
    s.heldAt oldest.epoch epoch = some h ↔ h ∈ s.rosters ∧ h.epoch = epoch := by
  unfold heldAt
  rw [hr]
  constructor
  · intro hheld
    split at hheld
    next => cases hheld
    next hle =>
      have hepoch := hhist.epoch_getElem _ h hheld
      exact ⟨mem_of_getElem? hheld, by omega⟩
  · intro hmem
    obtain ⟨hmem, hepoch⟩ := hmem
    obtain ⟨i, hi⟩ := mem_iff_getElem?.mp hmem
    have hi' := hhist.epoch_getElem i h hi
    rw [if_neg (by omega), show epoch - oldest.epoch = i by omega, hi]

/-! ## §2. What of a chain is new -/

/-- A received roster that is held: one with its epoch and its hash. -/
def Holds (C : Crypto) (s : GroupState) (r : Roster) : Prop :=
  ∃ h ∈ s.rosters, h.epoch = r.epoch ∧ h.hash C = r.hash C

/-- `apply_chain` asks for the held roster of that epoch. -/
theorem heldAt_any_iff
    (hhist : History C (oldest :: rest)) (hr : s.rosters = oldest :: rest) {r : Roster} :
    (s.heldAt oldest.epoch r.epoch).any (fun h => h.hash C == r.hash C) = true
      ↔ s.Holds C r := by
  simp only [Option.any_eq_true, beq_iff_eq, heldAt_eq_some_iff hhist hr, Holds, and_assoc]

end GroupState

/-- Skipping in two stages.  Where no `p` comes after a non-`p`, dropping the `p`s
    and then the `q`s drops a run of elements that are either. -/
theorem dropWhile_dropWhile_append {α : Type} {p q : α → Bool} {rest : List α}
    (hrest : ∀ a ∈ rest.head?, p a = false ∧ q a = false) :
    ∀ {shared : List α}, (∀ x ∈ shared, p x = true ∨ q x = true) →
      shared.Pairwise (fun x y => p y = true → p x = true) →
      ((shared ++ rest).dropWhile p).dropWhile q = rest
  | [], _, _ => by
    cases rest with
    | nil => rfl
    | cons a rest =>
      obtain ⟨hp, hq⟩ := hrest a rfl
      rw [nil_append, dropWhile_cons_of_neg (by simp [hp]),
        dropWhile_cons_of_neg (by simp [hq])]
  | x :: shared, hall, hmono => by
    obtain ⟨hx, hall⟩ := forall_mem_cons.mp hall
    obtain ⟨hxs, hmono⟩ := pairwise_cons.mp hmono
    have ih := dropWhile_dropWhile_append hrest hall hmono
    by_cases hpx : p x = true
    · rw [cons_append, dropWhile_cons_of_pos hpx]
      exact ih
    · -- from here on nothing is a `p`, so the first stage stops at once
      have hq' : ∀ y ∈ x :: shared, q y = true := by
        intro y hy
        rcases mem_cons.mp hy with rfl | hy
        · exact hx.resolve_left hpx
        · exact (hall y hy).resolve_left (fun hpy => hpx (hxs y hy hpy))
      rw [cons_append, dropWhile_cons_of_neg hpx, ← cons_append,
        dropWhile_append_of_pos hq']
      cases rest with
      | nil => rfl
      | cons a rest => exact dropWhile_cons_of_neg (by simp [(hrest a rfl).2])

namespace GroupState

variable {C : Crypto} {s : GroupState}

/-- **What of a chain is new**: all that comes after rosters that are older than what is
    kept, or held. -/
theorem newPart_append (hhist : History C (oldest :: rest)) (hr : s.rosters = oldest :: rest)
    {shared incoming : List Roster}
    (hincrease : (shared ++ incoming).Pairwise (fun a b => a.epoch < b.epoch))
    (hshared : ∀ r ∈ shared, r.epoch < oldest.epoch ∨ s.Holds C r)
    (hhead : ∀ head ∈ incoming.head?, oldest.epoch ≤ head.epoch ∧ ¬ s.Holds C head) :
    newPart C s oldest.epoch (shared ++ incoming) = incoming := by
  unfold newPart
  apply dropWhile_dropWhile_append
  · intro head hin
    obtain ⟨hepoch, hnot⟩ := hhead head hin
    rw [← heldAt_any_iff hhist hr, Bool.not_eq_true] at hnot
    exact ⟨decide_eq_false (by omega), hnot⟩
  · intro r hin
    rw [heldAt_any_iff hhist hr, decide_eq_true_eq]
    exact hshared r hin
  · -- epochs increase, so nothing old comes after something that is not
    refine (pairwise_append.mp hincrease).1.imp (fun {a b} hab hb => ?_)
    simp only [decide_eq_true_eq] at hb ⊢
    omega

/-- What comes before the new part is older than what is kept, or held. -/
theorem newPart_split (hhist : History C (oldest :: rest)) (hr : s.rosters = oldest :: rest)
    (chain : List Roster) :
    ∃ shared, chain = shared ++ newPart C s oldest.epoch chain
      ∧ ∀ r ∈ shared, r.epoch < oldest.epoch ∨ s.Holds C r := by
  unfold newPart
  refine ⟨chain.takeWhile (fun r => decide (r.epoch < oldest.epoch))
    ++ (chain.dropWhile (fun r => decide (r.epoch < oldest.epoch))).takeWhile
      (fun r => (s.heldAt oldest.epoch r.epoch).any (fun h => h.hash C == r.hash C)), ?_, ?_⟩
  · rw [append_assoc, takeWhile_append_dropWhile, takeWhile_append_dropWhile]
  · intro r hin
    rcases mem_append.mp hin with hold | hheld
    · have holder := mem_takeWhile_imp hold
      exact Or.inl (of_decide_eq_true holder)
    · have hsame := mem_takeWhile_imp hheld
      exact Or.inr ((heldAt_any_iff hhist hr).mp hsame)

/-- The first new roster is not held. -/
theorem not_holds_of_newPart (hhist : History C (oldest :: rest)) (hr : s.rosters = oldest :: rest)
    {tail : List Roster} {head : Roster}
    (hnew : newPart C s oldest.epoch chain = head :: tail) : ¬ s.Holds C head := by
  rw [← heldAt_any_iff hhist hr, Bool.not_eq_true]
  have hfirst := head?_dropWhile_not
    (fun r => (s.heldAt oldest.epoch r.epoch).any (fun h => h.hash C == r.hash C))
    (chain.dropWhile (fun r => decide (r.epoch < oldest.epoch)))
  unfold newPart at hnew
  rw [hnew] at hfirst
  exact hfirst

/-! ## §3. What `findFork` makes of it -/

end GroupState

/-- A chain that may be applied in a group: one to eight valid rosters of it, each a legal
    change of the one before. -/
structure ChainFor (C : Crypto) (groupId : Bytes) (chain : List Roster) : Prop where
  nonempty : chain ≠ []
  atMost : chain.length ≤ keptRosters
  valid : ∀ r ∈ chain, r.Valid C
  group : ∀ r ∈ chain, r.groupId = groupId
  linked : chain.IsChain (Succeeds C)

namespace GroupState

variable {C : Crypto} {s : GroupState}

theorem WellKept.groupId_eq (hs : s.WellKept C) {r : Roster} (hr : r ∈ s.rosters) :
    s.groupId = .ok r.groupId := by
  obtain ⟨cur, hlast, hcur, -⟩ := hs.exists_current
  unfold groupId
  rw [hcur]
  exact congrArg Except.ok (hs.history.groupId_eq cur (mem_of_getLast? hlast) r hr)

variable {gid : Bytes}

/-- The kept rosters are a chain for the group they are of. -/
theorem WellKept.chainFor (hs : s.WellKept C) (hgid : s.groupId = .ok gid) :
    ChainFor C gid s.rosters where
  nonempty := hs.nonempty
  atMost := hs.atMost
  valid := hs.history.valid
  group r hr := by
    rw [hs.groupId_eq hr] at hgid
    injection hgid
  linked := hs.history.linked

/-- Whatever `findFork` answers, if it is no error the chain may be applied. -/
theorem chainFor_of_findFork {found : Option ForkPoint} (h : s.findFork C chain = .ok found) :
    ∃ gid, s.groupId = .ok gid ∧ ChainFor C gid chain := by
  unfold findFork at h
  rw [check_ok_iff, bind_ok_iff] at h
  obtain ⟨hsize, gid, hgid, h⟩ := h
  rw [bind_unit_ok_iff, checkChain_ok_iff] at h
  obtain ⟨⟨hvalid, hlinked⟩, -⟩ := h
  simp only [Bool.or_eq_true, List.isEmpty_iff, decide_eq_true_eq, not_or, not_lt] at hsize
  refine ⟨gid, hgid, hsize.1, hsize.2, fun r hr => (hvalid r hr).1, fun r hr => (hvalid r hr).2, ?_⟩
  simpa using hlinked

/-- The checks of `findFork` pass, and it goes by what is new. -/
theorem findFork_checked
    (hr : s.rosters = oldest :: rest) (hgid : s.groupId = .ok gid) (hchain : ChainFor C gid chain) :
    s.findFork C chain = match newPart C s oldest.epoch chain with
      | [] => .ok none
      | head :: tail =>
          s.current.bind fun cur =>
          if head.epoch > cur.epoch + 1 then
            .error (.roster "rosters in between are missing; fetch the chain")
          else if head.epoch ≤ oldest.epoch then
            .error (.roster "the chain forks before this device's roster history")
          else
            match s.rosters[head.epoch - oldest.epoch - 1]? with
            | none => .error .panic
            | some parent =>
                match checkSuccessor C parent head with
                | .error _ => .error (.roster
                    "roster does not follow what this device holds; fetch the chain")
                | .ok () => .ok (some ⟨head.epoch - oldest.epoch, parent, head :: tail⟩) := by
  have hsize : ¬ (chain.isEmpty || decide (chain.length > keptRosters)) = true := by
    have hlen := hchain.atMost
    rw [decide_eq_false (by omega), Bool.or_false, List.isEmpty_iff]
    exact hchain.nonempty
  have hcheck : checkChain C gid none chain = .ok () :=
    (checkChain_ok_iff C gid none chain).mpr
      ⟨fun r hr => ⟨hchain.valid r hr, hchain.group r hr⟩, by simpa using hchain.linked⟩
  unfold findFork
  rw [if_neg hsize, hgid]
  show (checkChain C gid none chain).bind _ = _
  rw [hcheck]
  show (match s.rosters with | [] => _ | _ :: _ => _) = _
  rewrite [hr]
  rfl

/-- A chain that brings nothing new leaves nothing. -/
theorem findFork_eq_none
    (hr : s.rosters = oldest :: rest) (hgid : s.groupId = .ok gid) (hchain : ChainFor C gid chain)
    (hnew : newPart C s oldest.epoch chain = []) : s.findFork C chain = .ok none := by
  rw [findFork_checked hr hgid hchain, hnew]

/-- A chain whose new part grows from a held roster leaves what is held there. -/
theorem findFork_eq_some (hs : s.WellKept C) {kept held tail : List Roster} {parent head : Roster}
    (hr : s.rosters = oldest :: rest) (hgid : s.groupId = .ok gid) (hchain : ChainFor C gid chain)
    (hkept : s.rosters = kept ++ parent :: held)
    (hnew : newPart C s oldest.epoch chain = head :: tail) (hsucc : Succeeds C parent head) :
    s.findFork C chain = .ok (some ⟨kept.length + 1, parent, head :: tail⟩) := by
  have hhist : History C (oldest :: rest) := hr ▸ hs.history
  obtain ⟨cur, hlast, hcur, -⟩ := hs.exists_current
  -- where the epochs are
  have hparent := hhist.epoch_getElem kept.length parent (by rw [← hr, hkept]; simp)
  have hend := hhist.epoch_getElem (s.rosters.length - 1) cur (by
    rw [← hr, ← getLast?_eq_getElem?]
    exact hlast)
  have hlen : s.rosters.length = kept.length + 1 + held.length := by
    rw [hkept, length_append, length_cons]
    omega
  have hepoch := hsucc.epoch
  have hidx : head.epoch - oldest.epoch = kept.length + 1 := by omega
  have hat : s.rosters[kept.length + 1 - 1]? = some parent := by
    rw [hkept]
    simp
  rw [findFork_checked hr hgid hchain, hnew]
  show s.current.bind _ = _
  rw [hcur]
  show (if head.epoch > cur.epoch + 1 then _ else if head.epoch ≤ oldest.epoch then _ else _) = _
  rw [if_neg (by omega), if_neg (by omega)]
  simp only [hidx, hat, (checkSuccessor_ok_iff C parent head).mpr hsucc]

end GroupState

end Panora.Group
