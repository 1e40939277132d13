/-
  Panora.Lib.Since — logs of events, and what happened since one of them.

  A run leaves a log, newest event last.  What a long operation may rely on is often a
  matter of what is in the log since the event that began it.

  Main results: `since_snoc_self`, `since_snoc_of_ne` — how `since` grows with the log;
  `along_cons` — a condition on every event, given the log before it.
-/
import Mathlib

namespace Panora.Lib.Log

variable {ε : Type}

/-- What came after the last `a`. -/
def since [DecidableEq ε] (a : ε) (log : List ε) : Option (List ε) :=
  if a ∈ log then some (log.reverse.takeWhile (fun e => decide (e ≠ a))).reverse else none

theorem since_snoc_self [DecidableEq ε] (a : ε) (log : List ε) :
    since a (log ++ [a]) = some [] := by
  unfold since
  rw [if_pos (by simp), List.reverse_append]
  simp

theorem since_snoc_of_ne [DecidableEq ε] {a e : ε} (h : e ≠ a) {log mid : List ε}
    (hmid : since a log = some mid) : since a (log ++ [e]) = some (mid ++ [e]) := by
  unfold since at hmid ⊢
  split at hmid
  next hin =>
    injection hmid with hmid
    have hkept : decide (e ≠ a) = true := decide_eq_true h
    rw [if_pos (List.mem_append_left [e] hin), List.reverse_append, List.reverse_singleton,
      List.singleton_append, List.takeWhile_cons, hkept, if_pos rfl, List.reverse_cons, hmid]
  next => cases hmid

/-- Every event of `new` is as `P` asks, given the log before it; `log` is what was there. -/
def Along (P : List ε → ε → Prop) : List ε → List ε → Prop
  | _, [] => True
  | log, e :: new => P log e ∧ Along P (log ++ [e]) new

@[simp] theorem along_nil (P : List ε → ε → Prop) (log : List ε) : Along P log [] := trivial

theorem along_cons (P : List ε → ε → Prop) (log : List ε) (e : ε) (new : List ε) :
    Along P log (e :: new) ↔ P log e ∧ Along P (log ++ [e]) new := Iff.rfl

end Panora.Lib.Log
