/-
  Panora.Lib.Window — the newest few entries of a list that grows at its end.

  A log of bounded length drops its oldest entries as new ones come.  What it then holds
  does not depend on when they were dropped, so a bounded log is described by the whole
  one.

  Main results: `foldl_newest` — appending one entry after another, dropping each time;
  `mem_newest_or_before` — an entry is still there or comes before all that are.
-/
import Mathlib

namespace Panora.Lib.Window

open List

variable {α : Type} {n : Nat} {l m : List α}

/-- The newest `n` entries. -/
def newest (n : Nat) (l : List α) : List α :=
  l.drop (l.length - n)

theorem length_newest : (newest n l).length = min l.length n := by
  unfold newest
  rw [length_drop]
  omega

theorem newest_of_length_le (h : l.length ≤ n) : newest n l = l := by
  unfold newest
  rw [show l.length - n = 0 by omega, drop_zero]

theorem newest_suffix : newest n l <:+ l :=
  drop_suffix (l.length - n) l

/-- A smaller window lies in a larger one. -/
theorem newest_subset {k : Nat} (h : k ≤ n) : newest k l ⊆ newest n l := by
  unfold newest
  rw [show l.length - k = (l.length - n) + (l.length - k - (l.length - n)) by omega,
    ← drop_drop]
  exact drop_subset _ _

/-- The end of a list stays as long as it is not longer than the window. -/
theorem newest_append (h : m.length ≤ n) : newest n (l ++ m) = newest (n - m.length) l ++ m := by
  unfold newest
  rw [length_append, drop_append_of_le_length (by omega)]
  congr 2
  omega

/-- What was dropped early would have been dropped later. -/
theorem newest_newest_append : newest n (newest n l ++ m) = newest n (l ++ m) := by
  rcases Nat.lt_or_ge n l.length with hlong | hshort
  · have hlen : (newest n l).length = n := by
      rw [length_newest]
      omega
    unfold newest at hlen ⊢
    rw [length_append, length_append, hlen, drop_append, drop_append,
      drop_drop, hlen]
    congr 1
    · congr 1
      omega
    · congr 1
      omega
  · rw [newest_of_length_le hshort]

/-- Appending entry after entry and dropping each time leaves the newest of them all. -/
theorem foldl_newest (m : List α) :
    ∀ l : List α, l.length ≤ n →
      m.foldl (fun window x => newest n (window ++ [x])) l = newest n (l ++ m) := by
  induction m with
  | nil =>
    intro l hl
    rw [foldl_nil, append_nil, newest_of_length_le hl]
  | cons x m ih =>
    intro l hl
    have hlen : (newest n (l ++ [x])).length ≤ n := by
      rw [length_newest]
      omega
    rw [foldl_cons, ih _ hlen, newest_newest_append, append_assoc,
      singleton_append]

/-- Along an ordered list, an entry is among the newest or comes before each of them. -/
theorem mem_newest_or_before {R : α → α → Prop} (h : l.Pairwise R) {x : α} (hx : x ∈ l) :
    x ∈ newest n l ∨ ∀ y ∈ newest n l, R x y := by
  rw [← take_append_drop (l.length - n) l] at h hx
  rcases mem_append.mp hx with hx | hx
  · exact Or.inr (fun y hy => (pairwise_append.mp h).2.2 x hx y hy)
  · exact Or.inl hx

end Panora.Lib.Window
