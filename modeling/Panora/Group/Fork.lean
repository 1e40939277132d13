/-
  Panora.Group.Fork — two branches growing from one parent.

  `crates/panora-sync/src/group.rs`: `removed_along`, `fork_winner` and
  `changes_to_reapply`.  Branches are compared as a whole; the losing side's
  own additions and all its removals are listed so that they can be redone.

  Main results:
    * `forkWinner_false_of_removes_signer` — a branch signed by a device the
      held branch removes never wins;
    * `removed_mem_changesToReapply` — the removals handed back are exactly
      the identities removed along the lost branch, absent at its end and not
      this device.
-/
import Panora.Group.Roster

namespace Panora.Group

open Lib.Keyed List

/-! ## §1. Removals along a branch -/

/-- Identities a branch removes: members of `parent`, or of an earlier roster of
    the branch, that a later roster of the branch no longer lists. -/
def removedAlong (parent : Roster) : List Roster → List PublicIdentity
  | [] => []
  | r :: rs => (parent.membersWithout r).map Member.identity ++ removedAlong r rs

/-- `i` is listed by one roster of the run `parent :: branch` and not by the next. -/
def Removes (parent : Roster) (branch : List Roster) (i : PublicIdentity) : Prop :=
  ∃ a b, [a, b] <:+: parent :: branch ∧ a.member i ≠ none ∧ b.member i = none

variable (C : Crypto) {i me : PublicIdentity} {last parent : Roster}

theorem mem_map_membersWithout {r other : Roster} :
    i ∈ (r.membersWithout other).map Member.identity ↔
      r.member i ≠ none ∧ other.member i = none := by
  rw [mem_map]
  constructor
  · intro h
    obtain ⟨m, hm, hi⟩ := h
    obtain ⟨hmem, hgone⟩ := mem_membersWithout.mp hm
    rw [hi] at hgone
    exact ⟨fun hnone => member_eq_none.mp hnone m hmem hi, hgone⟩
  · intro h
    obtain ⟨m, hm⟩ := Option.ne_none_iff_exists'.mp h.1
    obtain ⟨hmem, hi⟩ := mem_of_lookup hm
    exact ⟨m, mem_membersWithout.mpr ⟨hmem, by rw [hi]; exact h.2⟩, hi⟩

/-- **`removedAlong` lists the identities a branch removes.** -/
theorem mem_removedAlong :
    ∀ {parent : Roster} {branch : List Roster},
      i ∈ removedAlong parent branch ↔ Removes parent branch i
  | parent, [] => by
    unfold removedAlong Removes
    constructor
    · intro h
      cases h
    · intro h
      obtain ⟨a, b, hab, -⟩ := h
      have := hab.length_le
      simp at this
  | parent, r :: rs => by
    rw [removedAlong, mem_append, mem_map_membersWithout, mem_removedAlong]
    unfold Removes
    constructor
    · intro h
      rcases h with h | h
      · exact ⟨parent, r, (prefix_append [parent, r] rs).isInfix, h⟩
      · obtain ⟨a, b, hab, h⟩ := h
        exact ⟨a, b, hab.trans (suffix_cons parent (r :: rs)).isInfix, h⟩
    · intro h
      obtain ⟨a, b, hab, h⟩ := h
      -- the pair is the first one, or lies further along the branch
      rcases infix_cons_iff.mp hab with hfirst | hrest
      · rw [cons_prefix_cons, cons_prefix_cons] at hfirst
        obtain ⟨rfl, rfl, -⟩ := hfirst
        exact Or.inl h
      · exact Or.inr ⟨a, b, hrest, h⟩

/-! ## §2. Which branch wins -/

/-- Does branch `a` remove a signer of branch `b`? -/
def removesSigner (parent : Roster) (a b : List Roster) : Bool :=
  b.any (fun r => (removedAlong parent a).contains r.signer)

/-- Does branch `a` remove a device that branch `b` lists at its end? -/
def removesListed (parent : Roster) (a b : List Roster) : Bool :=
  b.getLast?.any (fun last => (removedAlong parent a).any (fun i => (last.member i).isSome))

/-- The tie-break value of a branch's first roster: a hash of the parent and the
    signer, then the roster hash. -/
def rank (C : Crypto) (parent r : Roster) : Bytes × Bytes :=
  (C.deriveKey "panora roster fork rank v1" (parent.hash C ++ r.signer), r.hash C)

/-- Lexicographic order on ranks. -/
def rankLt (a b : Bytes × Bytes) : Bool :=
  decide (a.1 < b.1) || (a.1 == b.1 && decide (a.2 < b.2))

/-- Of two different branches growing from `parent`, does `incoming` beat `held`? -/
def forkWinner (C : Crypto) (parent : Roster) (incoming held : List Roster) : Bool :=
  match removesSigner parent incoming held, removesSigner parent held incoming with
  | true, false => true
  | false, true | true, true => false
  | false, false =>
      match removesListed parent incoming held, removesListed parent held incoming with
      | true, false => true
      | false, true => false
      | _, _ =>
          match incoming.head?, held.head? with
          | some a, some b => rankLt (rank C parent a) (rank C parent b)
          | _, _ => false

/-- **A branch some roster of which was signed by a device the held branch removes
    does not win**, whatever else it does: rules 1 and 2 come before the rest. -/
theorem forkWinner_false_of_removes_signer
    {incoming held : List Roster} (h : removesSigner parent held incoming = true) :
    forkWinner C parent incoming held = false := by
  unfold forkWinner
  rw [h]
  cases removesSigner parent incoming held with
  | true => rfl
  | false => rfl

/-- Where each branch removes a device the other lists, and neither a signer of the
    other, the tie-break of the first rosters decides. -/
theorem forkWinner_of_both_remove {parent a b : Roster} {as bs : List Roster}
    (hsigner : removesSigner parent (a :: as) (b :: bs) = false)
    (hsigner' : removesSigner parent (b :: bs) (a :: as) = false)
    (hlisted : removesListed parent (a :: as) (b :: bs) = true)
    (hlisted' : removesListed parent (b :: bs) (a :: as) = true) :
    forkWinner C parent (a :: as) (b :: bs) = rankLt (rank C parent a) (rank C parent b) := by
  unfold forkWinner
  rw [hsigner, hsigner', hlisted, hlisted']
  rfl

theorem removesSigner_eq_true {a b : List Roster} :
    removesSigner parent a b = true ↔ ∃ r ∈ b, r.signer ∈ removedAlong parent a := by
  simp [removesSigner]

/-! ## §3. What to redo after losing -/

/-- One membership change, as handed back after a lost fork. -/
inductive Change where
  | added (m : Member)
  | removed (i : PublicIdentity)
  deriving DecidableEq, Repr

/-- The changes of a branch from `before` on, judged by its `last` roster. -/
def changesAlong (last : Roster) (me : PublicIdentity) (before : Roster) :
    List Roster → List Change
  | [] => []
  | r :: rs =>
      (if r.signer = me then
        ((r.membersWithout before).filter
          (fun m => (last.member m.identity).isSome)).map Change.added
      else [])
      ++ ((before.membersWithout r).filter
          (fun m => decide (m.identity ≠ me) && (last.member m.identity).isNone)).map
            (fun m => Change.removed m.identity)
      ++ changesAlong last me r rs

/-- What to redo after `lost` lost a fork: this device's own additions that lasted
    to its end, and every removal, whoever made it, that did. -/
def changesToReapply (parent : Roster) (lost : List Roster) (me : PublicIdentity) :
    List Change :=
  match lost.getLast? with
  | none => []
  | some last => changesAlong last me parent lost

theorem removed_mem_changesAlong :
    ∀ {before : Roster} {branch : List Roster},
      Change.removed i ∈ changesAlong last me before branch ↔
        i ∈ removedAlong before branch ∧ i ≠ me ∧ last.member i = none
  | _, [] => by simp [changesAlong, removedAlong]
  | before, r :: rs => by
    have hown : Change.removed i ∉ (if r.signer = me then
        ((r.membersWithout before).filter
          (fun m => (last.member m.identity).isSome)).map Change.added else []) := by
      split <;> simp
    have hgone : Change.removed i ∈ ((before.membersWithout r).filter
          (fun m => decide (m.identity ≠ me) && (last.member m.identity).isNone)).map
            (fun m => Change.removed m.identity) ↔
        i ∈ (before.membersWithout r).map Member.identity ∧ i ≠ me
          ∧ last.member i = none := by
      simp only [mem_map, mem_filter, Change.removed.injEq, Bool.and_eq_true,
        decide_eq_true_eq, Option.isNone_iff_eq_none]
      constructor
      · rintro ⟨m, ⟨hm, hne, hnone⟩, rfl⟩
        exact ⟨⟨m, hm, rfl⟩, hne, hnone⟩
      · rintro ⟨⟨m, hm, rfl⟩, hne, hnone⟩
        exact ⟨m, ⟨hm, hne, hnone⟩, rfl⟩
    rw [changesAlong, removedAlong, mem_append, mem_append, hgone,
      removed_mem_changesAlong, mem_append]
    tauto

/-- **The removals to redo** are the identities removed along the lost branch that
    its end does not list, this device excepted. -/
theorem removed_mem_changesToReapply {lost : List Roster} (hlast : lost.getLast? = some last) :
    Change.removed i ∈ changesToReapply parent lost me ↔
      i ∈ removedAlong parent lost ∧ i ≠ me ∧ last.member i = none := by
  rw [changesToReapply, hlast]
  exact removed_mem_changesAlong

/-- A device to add again is one the end of the lost branch lists. -/
theorem added_mem_changesAlong {m : Member} :
    ∀ {before : Roster} {branch : List Roster},
      Change.added m ∈ changesAlong last me before branch →
        (∃ r ∈ branch, m ∈ r.members) ∧ last.member m.identity ≠ none
  | _, [], h => by simp [changesAlong] at h
  | before, r :: rs, h => by
    rw [changesAlong, mem_append, mem_append] at h
    rcases h with (h | h) | h
    · split at h
      next =>
        simp only [mem_map, mem_filter, Change.added.injEq] at h
        obtain ⟨m', ⟨hm, hlast⟩, rfl⟩ := h
        refine ⟨⟨r, by simp, (mem_membersWithout.mp hm).1⟩, ?_⟩
        exact Option.isSome_iff_ne_none.mp hlast
      next => simp at h
    · simp at h
    · obtain ⟨⟨r', hr', hm⟩, hlast⟩ := added_mem_changesAlong h
      exact ⟨⟨r', by simp [hr'], hm⟩, hlast⟩

end Panora.Group
