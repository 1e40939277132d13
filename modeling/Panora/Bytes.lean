/-
  Panora.Bytes — byte strings and the canonical field encoding.

  Everything the sync crate signs or hashes is first written as a byte string
  (`crates/panora-sync/src/bytes.rs`): each field is prefixed by its length as
  eight big-endian bytes.  A byte is `Fin 256`, so byte strings compare the way
  `[u8]` does, lexicographically.

  Main results: `ofBe_beBytes` — a number that fits is read back; `beBytes_ofBe` — bytes
  are those of the number they are.
-/
import Mathlib

namespace Panora

/-- One byte. -/
abbrev Byte := Fin 256

instance neZero_byte : NeZero 256 := ⟨by decide⟩

/-- A byte string (`Vec<u8>` and the fixed-size `[u8; N]`). -/
abbrev Bytes := List Byte

/-- The UTF-8 bytes of a text (`str::as_bytes`). -/
def utf8 (s : String) : Bytes :=
  s.toList.flatMap (fun c => (String.utf8EncodeChar c).map (fun b => b.toFin))

/-- The `k` low-order bytes of `n`, most significant first. -/
def beBytes : Nat → Nat → Bytes
  | 0, _ => []
  | k + 1, n => beBytes k (n / 256) ++ [Fin.ofNat 256 n]

/-- The number these bytes are, most significant first. -/
def ofBe (bytes : Bytes) : Nat := bytes.foldl (fun n b => n * 256 + b.val) 0

/-- `u64::to_be_bytes`. -/
def u64Bytes (n : Nat) : Bytes := beBytes 8 n

/-- `i64::to_be_bytes` (two's complement). -/
def i64Bytes (z : Int) : Bytes := beBytes 8 (z % 2 ^ 64).toNat

/-- Append a length-prefixed field to a canonical byte encoding. -/
def put (out field : Bytes) : Bytes := out ++ u64Bytes field.length ++ field

@[simp] theorem length_beBytes (k n : Nat) : (beBytes k n).length = k := by
  induction k generalizing n with
  | zero => rfl
  | succ k ih => rw [beBytes, List.length_append, ih, List.length_singleton]

/-- **A number that fits is read back.** -/
theorem ofBe_beBytes {k n : Nat} (h : n < 256 ^ k) : ofBe (beBytes k n) = n := by
  induction k generalizing n with
  | zero =>
    have hzero : n = 0 := by simpa using h
    rw [hzero]
    rfl
  | succ k ih =>
    -- the bytes before the last are those of the quotient
    have hquot : n / 256 < 256 ^ k := by
      rw [Nat.div_lt_iff_lt_mul (by decide), ← Nat.pow_succ]
      exact h
    have hinit : (beBytes k (n / 256)).foldl (fun n b => n * 256 + b.val) 0 = n / 256 := ih hquot
    rw [ofBe, beBytes, List.foldl_append, hinit]
    show n / 256 * 256 + n % 256 = n
    omega

/-- **Bytes are those of the number they are.** -/
theorem beBytes_ofBe (bytes : Bytes) : beBytes bytes.length (ofBe bytes) = bytes := by
  induction bytes using List.reverseRecOn with
  | nil => rfl
  | append_singleton bytes b ih =>
    have hlast : ofBe (bytes ++ [b]) = ofBe bytes * 256 + b.val := by
      rw [ofBe, List.foldl_append]
      rfl
    have hb : b.val < 256 := b.isLt
    have hquot : (ofBe bytes * 256 + b.val) / 256 = ofBe bytes := by omega
    have hrem : (ofBe bytes * 256 + b.val) % 256 = b.val := by omega
    rw [List.length_append, List.length_singleton, beBytes, hlast, hquot, ih]
    exact congrArg (bytes ++ [·]) (Fin.ext hrem)

/-- A text has as many bytes as its characters have. -/
theorem length_utf8 (t : List Char) :
    (utf8 (String.ofList t)).length = (t.map Char.utf8Size).sum := by
  rw [utf8, String.toList_ofList, List.length_flatMap]
  simp only [List.length_map, String.length_utf8EncodeChar]

end Panora
