/-
  Panora.Lib.Slice — slices of a text at byte offsets.

  A text is a list of characters, and an offset into it counts the bytes of its UTF-8
  encoding.  A slice that does not begin and end between two characters panics (`none`).

  General: any text.
-/
import Mathlib

namespace Panora.Lib

/-- The length of a text in bytes. -/
def byteLength (s : List Char) : Nat := (s.map Char.utf8Size).sum

@[simp] theorem byteLength_cons (c : Char) (s : List Char) :
    byteLength (c :: s) = c.utf8Size + byteLength s := rfl

theorem byteLength_append (s t : List Char) :
    byteLength (s ++ t) = byteLength s + byteLength t := by
  unfold byteLength
  rw [List.map_append, List.sum_append]

/-- `str::split_at`. -/
def splitAtByte : Nat → List Char → Option (List Char × List Char)
  | 0, s => some ([], s)
  | _ + 1, [] => none
  | n + 1, c :: s =>
    if n + 1 < c.utf8Size then none
    else (splitAtByte (n + 1 - c.utf8Size) s).map (fun p => (c :: p.1, p.2))

/-- The offset behind some characters is on a boundary. -/
theorem splitAtByte_append (a b : List Char) :
    splitAtByte (byteLength a) (a ++ b) = some (a, b) := by
  induction a with
  | nil =>
    cases b <;> rfl
  | cons c a ih =>
    obtain ⟨n, hn⟩ := Nat.exists_eq_add_of_le (Nat.succ_le_of_lt c.utf8Size_pos)
    have hlength : byteLength (c :: a) = n + byteLength a + 1 := by
      rw [byteLength_cons, hn]
      omega
    rw [hlength, List.cons_append, splitAtByte, if_neg (by omega),
      show n + byteLength a + 1 - c.utf8Size = byteLength a by omega, ih]
    rfl

end Panora.Lib
