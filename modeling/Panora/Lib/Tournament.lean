/-
  Panora.Lib.Tournament — one seat, challengers one after another.

  A challenger that takes over from whoever sits there sits down itself; otherwise
  nothing changes.  Between two challengers exactly one takes over from the other, but
  this need not be transitive, so who sits there in the end may depend on the order.

  `order_free_iff` says when it does not: nobody takes over from the one who sits there
  at first, or somebody takes over from that one and from every other challenger.

  General: any challengers, anything that may sit in the seat.
-/
import Mathlib

namespace Panora.Lib.Tournament

open List

variable {α β : Type} (takes : α → β → Bool) (seat : α → β)

/-- A challenger arrives. -/
def arrive (c : β) (a : α) : β := if takes a c then seat a else c

/-- Who sits there after all of them. -/
def outcome (c : β) (l : List α) : β := l.foldl (arrive takes seat) c

/-- Of two challengers exactly one takes over from the other, and none from itself. -/
structure Decided (S : List α) : Prop where
  nodup : S.Nodup
  seats : ∀ a ∈ S, ∀ b ∈ S, seat a = seat b → a = b
  between : ∀ a ∈ S, ∀ b ∈ S, a ≠ b → takes a (seat b) = !takes b (seat a)
  itself : ∀ a ∈ S, takes a (seat a) = false

variable {takes seat} {S l : List α} {c : β} {m b : α}

theorem outcome_cons (c : β) (a : α) (l : List α) :
    outcome takes seat c (a :: l) = outcome takes seat (arrive takes seat c a) l := rfl

theorem arrive_of_takes (h : takes b c = true) : arrive takes seat c b = seat b := if_pos h

theorem arrive_of_not (h : takes b c = false) : arrive takes seat c b = c :=
  if_neg (by rw [h]; simp)

/-- The first one stays, or a challenger sits there. -/
theorem outcome_cases (takes : α → β → Bool) (seat : α → β) (l : List α) : ∀ c : β,
    outcome takes seat c l = c ∨ ∃ a ∈ l, outcome takes seat c l = seat a := by
  induction l with
  | nil => exact fun c => .inl rfl
  | cons b l ih =>
    intro c
    rw [outcome_cons]
    cases hb : takes b c with
    | true =>
      rw [arrive_of_takes hb]
      rcases ih (seat b) with hstay | ⟨a, ha, hout⟩
      · exact .inr ⟨b, mem_cons_self, hstay⟩
      · exact .inr ⟨a, mem_cons_of_mem b ha, hout⟩
    | false =>
      rw [arrive_of_not hb]
      rcases ih c with hstay | ⟨a, ha, hout⟩
      · exact .inl hstay
      · exact .inr ⟨a, mem_cons_of_mem b ha, hout⟩

/-- Somebody from whom nobody takes over stays. -/
theorem outcome_of_none (h : ∀ a ∈ l, takes a c = false) : outcome takes seat c l = c := by
  induction l with
  | nil => rfl
  | cons b l ih =>
    rw [forall_mem_cons] at h
    rw [outcome_cons, arrive_of_not h.1]
    exact ih h.2

/-- Somebody who takes over from everybody and from whom nobody does ends up there. -/
theorem outcome_of_best (hm : m ∈ l) (hbest : ∀ a ∈ l, a ≠ m → takes m (seat a) = true)
    (hlast : ∀ a ∈ l, takes a (seat m) = false) (hc : takes m c = true) :
    outcome takes seat c l = seat m := by
  induction l generalizing c with
  | nil => cases hm
  | cons b l ih =>
    rw [forall_mem_cons] at hbest hlast
    rw [outcome_cons]
    by_cases hb : b = m
    · subst hb
      rw [arrive_of_takes hc]
      exact outcome_of_none hlast.2
    · have hm : m ∈ l := (mem_cons.mp hm).resolve_left (fun heq => hb heq.symm)
      refine ih hm hbest.2 hlast.2 ?_
      -- whoever sits there now, `m` takes over from
      unfold arrive
      split
      · exact hbest.1 hb
      · exact hc

/-- Once it has lost its seat, a challenger that has been there does not come back. -/
theorem outcome_ne_seat (hS : Decided takes seat S) (hm : m ∈ S) (hb : b ∈ S) (hne : b ≠ m)
    (hl : ∀ a ∈ l, a ∈ S ∧ a ≠ m) : outcome takes seat (seat b) l ≠ seat m := by
  intro hout
  rcases outcome_cases takes seat l (seat b) with hstay | ⟨a, ha, hseat⟩
  · rw [hstay] at hout
    exact hne (hS.seats b hb m hm hout)
  · rw [hseat] at hout
    exact (hl a ha).2 (hS.seats a (hl a ha).1 m hm hout)

variable [DecidableEq α]

/-- If every order ends the same, somebody who can end there takes over from all. -/
theorem best_of_order_free (hS : Decided takes seat S)
    (hfree : ∀ l l', l.Perm S → l'.Perm S → outcome takes seat c l = outcome takes seat c l')
    (hb : b ∈ S) (htakes : takes b c = true) :
    ∃ m ∈ S, takes m c = true ∧ ∀ a ∈ S, a ≠ m → takes m (seat a) = true := by
  -- with `b` first, a challenger sits there in the end
  have hfirst : (b :: S.erase b).Perm S := (perm_cons_erase hb).symm
  obtain ⟨m, hm, hout⟩ : ∃ m ∈ S, outcome takes seat c (b :: S.erase b) = seat m := by
    rw [outcome_cons, arrive_of_takes htakes]
    rcases outcome_cases takes seat (S.erase b) (seat b) with
      hstay | ⟨a, ha, hseat⟩
    · exact ⟨b, hb, hstay⟩
    · exact ⟨a, mem_of_mem_erase ha, hseat⟩
  have hall : ∀ l, l.Perm S → outcome takes seat c l = seat m := by
    intro l hl
    rw [hfree l _ hl hfirst, hout]
  -- with `m` first and any other `a` next, `m` must have taken over and not be displaced
  have hnext : ∀ a ∈ S, a ≠ m → takes a (arrive takes seat c m) = false := by
    intro a ha hne
    by_contra hnot
    have hnot : takes a (arrive takes seat c m) = true := by simpa using hnot
    have ha' : a ∈ S.erase m := (mem_erase_of_ne hne).mpr ha
    have hperm : (m :: a :: (S.erase m).erase a).Perm S :=
      ((perm_cons_erase ha').symm.cons m).trans (perm_cons_erase hm).symm
    have hend := hall _ hperm
    rw [outcome_cons, outcome_cons, arrive_of_takes hnot] at hend
    refine outcome_ne_seat hS hm ha hne (fun x hx => ?_) hend
    have hx := mem_of_mem_erase hx
    refine ⟨mem_of_mem_erase hx, fun heq => ?_⟩
    subst heq
    exact (Nodup.not_mem_erase hS.nodup) hx
  have htook : takes m c = true := by
    by_contra hnot
    have hnot : takes m c = false := by simpa using hnot
    have hbm : b ≠ m := by
      intro heq
      subst heq
      rw [htakes] at hnot
      cases hnot
    have hstay := hnext b hb hbm
    rw [arrive_of_not hnot, htakes] at hstay
    cases hstay
  refine ⟨m, hm, htook, fun a ha hne => ?_⟩
  have hnot := hnext a ha hne
  rw [arrive_of_takes htook] at hnot
  rw [hS.between m hm a ha (Ne.symm hne), hnot]
  rfl

/-- **When the order does not matter.** -/
theorem order_free_iff (hS : Decided takes seat S) (c : β) :
    (∀ l l', l.Perm S → l'.Perm S → outcome takes seat c l = outcome takes seat c l') ↔
      (∀ a ∈ S, takes a c = false) ∨
        ∃ m ∈ S, takes m c = true ∧ ∀ a ∈ S, a ≠ m → takes m (seat a) = true := by
  constructor
  · intro hfree
    by_cases hnone : ∀ a ∈ S, takes a c = false
    · exact .inl hnone
    · refine .inr ?_
      simp only [not_forall] at hnone
      obtain ⟨b, hb, htakes⟩ := hnone
      exact best_of_order_free hS hfree hb (by simpa using htakes)
  · intro hcase
    -- in both cases the outcome is known
    suffices hall : ∃ out, ∀ l, l.Perm S → outcome takes seat c l = out by
      obtain ⟨out, hout⟩ := hall
      intro l l' hl hl'
      rw [hout l hl, hout l' hl']
    rcases hcase with hnone | ⟨m, hm, htook, hbest⟩
    · exact ⟨c, fun l hl => outcome_of_none (fun a ha => hnone a (hl.mem_iff.mp ha))⟩
    · refine ⟨seat m, fun l hl => outcome_of_best (hl.mem_iff.mpr hm)
        (fun a ha => hbest a (hl.mem_iff.mp ha)) (fun a ha => ?_) htook⟩
      have ha := hl.mem_iff.mp ha
      by_cases hne : a = m
      · rw [hne]
        exact hS.itself m hm
      · rw [hS.between a ha m hm hne, hbest a ha hne]
        rfl

end Panora.Lib.Tournament
