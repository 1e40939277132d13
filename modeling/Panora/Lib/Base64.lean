/-
  Panora.Lib.Base64 — bytes written in base64.

  Three bytes make four digits of six bits.  What is left over at the end makes two
  or three digits, filled up with `=` to four where the scheme asks for that.

  Main result: `length_encode` — how long the text is.
-/
import Mathlib

namespace Panora.Lib.Base64

open List

/-- A way of writing base64: its digits, and whether the last group is filled up. -/
structure Scheme where
  digit : Fin 64 → Char
  padded : Bool

/-- The digit of six bits. -/
def Scheme.sextet (e : Scheme) (n : Nat) : Char := e.digit (Fin.ofNat 64 n)

/-- What fills the last group up. -/
def Scheme.fill (e : Scheme) (missing : Nat) : List Char :=
  if e.padded then replicate missing '=' else []

/-- Write bytes. -/
def encode (e : Scheme) : List (Fin 256) → List Char
  | [] => []
  | [a] => [e.sextet (a.val / 4), e.sextet (a.val % 4 * 16)] ++ e.fill 2
  | [a, b] =>
    [e.sextet (a.val / 4), e.sextet (a.val % 4 * 16 + b.val / 16), e.sextet (b.val % 16 * 4)]
      ++ e.fill 1
  | a :: b :: c :: rest =>
    [e.sextet (a.val / 4), e.sextet (a.val % 4 * 16 + b.val / 16),
      e.sextet (b.val % 16 * 4 + c.val / 64), e.sextet (c.val % 64)] ++ encode e rest

/-- The digits `n` bytes take. -/
def encodedLength (padded : Bool) (n : Nat) : Nat :=
  if padded then 4 * ((n + 2) / 3) else (4 * n + 2) / 3

variable {e : Scheme}

theorem length_fill (missing : Nat) :
    (e.fill missing).length = if e.padded then missing else 0 := by
  unfold Scheme.fill
  split
  · exact length_replicate
  · rfl

/-- **The text of `n` bytes** is as long as `n` alone decides. -/
theorem length_encode (l : List (Fin 256)) :
    (encode e l).length = encodedLength e.padded l.length := by
  unfold encodedLength
  -- three bytes at a time, as the text is made
  induction l using encode.induct with
  | case1 => simp [encode]
  | case2 a =>
    rw [encode, length_append, length_fill]
    cases e.padded with
    | false => simp
    | true => simp
  | case3 a b =>
    rw [encode, length_append, length_fill]
    cases e.padded with
    | false => simp
    | true => simp
  | case4 a b c rest ih =>
    rw [encode, length_append, ih]
    simp only [length_cons, length_nil]
    split
    · omega
    · omega

/-- Nothing but digits and what fills up is written. -/
theorem mem_encode {c : Char} (l : List (Fin 256)) (h : c ∈ encode e l) :
    (∃ n, c = e.digit n) ∨ c = '=' := by
  have hfill : ∀ missing, c ∈ e.fill missing → c = '=' := by
    intro missing hc
    unfold Scheme.fill at hc
    split at hc
    · exact eq_of_mem_replicate hc
    · cases hc
  induction l using encode.induct with
  | case1 => exact absurd h (by simp [encode])
  | case2 a =>
    rw [encode, mem_append] at h
    rcases h with h | h
    · simp only [mem_cons, not_mem_nil, or_false] at h
      rcases h with rfl | rfl <;> exact .inl ⟨_, rfl⟩
    · exact .inr (hfill _ h)
  | case3 a b =>
    rw [encode, mem_append] at h
    rcases h with h | h
    · simp only [mem_cons, not_mem_nil, or_false] at h
      rcases h with rfl | rfl | rfl <;> exact .inl ⟨_, rfl⟩
    · exact .inr (hfill _ h)
  | case4 a b c' rest ih =>
    rw [encode, mem_append] at h
    rcases h with h | h
    · simp only [mem_cons, not_mem_nil, or_false] at h
      rcases h with rfl | rfl | rfl | rfl <;> exact .inl ⟨_, rfl⟩
    · exact ih h

end Panora.Lib.Base64
