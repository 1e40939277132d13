/-
  Panora.Lib.Json — writing JSON, and how long it gets.

  A compact writer: no space anywhere, numbers in decimal, and in a string only
  what has to be escaped is.  `size` counts the bytes of a text in UTF-8; each
  constructor has one lemma for its size, so the size of a document is computed by
  rewriting.
-/
import Mathlib

namespace Panora.Lib.Json

/-- A text being written. -/
abbrev Text := List Char

/-- The bytes of a text in UTF-8. -/
def size (t : Text) : Nat := (t.map Char.utf8Size).sum

@[simp] theorem size_nil : size [] = 0 := rfl

@[simp] theorem size_cons (c : Char) (t : Text) : size (c :: t) = c.utf8Size + size t := by
  simp [size]

@[simp] theorem size_append (t u : Text) : size (t ++ u) = size t + size u := by
  simp [size]

theorem size_flatMap {α : Type} (l : List α) (f : α → Text) :
    size (l.flatMap f) = (l.map (fun a => size (f a))).sum := by
  induction l with
  | nil => rfl
  | cons a l ih => rw [List.flatMap_cons, size_append, ih, List.map_cons, List.sum_cons]

/-! ## §1. The writer -/

def null : Text := "null".toList

def bool (b : Bool) : Text := if b then "true".toList else "false".toList

def num (z : Int) : Text := (toString z).toList

/-- One hex digit. -/
def hexDigit (n : Nat) : Char := "0123456789abcdef".toList.getD n '0'

/-- A character inside a string. -/
def escape (c : Char) : Text :=
  if c = '\x22' then ['\x5c', '\x22']
  else if c = '\x5c' then ['\x5c', '\x5c']
  else if c = '\x08' then ['\x5c', 'b']
  else if c = '\x09' then ['\x5c', 't']
  else if c = '\x0a' then ['\x5c', 'n']
  else if c = '\x0c' then ['\x5c', 'f']
  else if c = '\x0d' then ['\x5c', 'r']
  else if c.toNat < 0x20 then
    ['\x5c', 'u', '0', '0', hexDigit (c.toNat / 16), hexDigit (c.toNat % 16)]
  else [c]

/-- What is between the quotes of a string. -/
def escaped (s : String) : Text := s.toList.flatMap escape

def str (s : String) : Text := '\x22' :: (escaped s ++ ['\x22'])

/-- Texts with a comma between each two. -/
def joined : List Text → Text
  | [] => []
  | [t] => t
  | t :: u :: rest => t ++ ',' :: joined (u :: rest)

def arr (items : List Text) : Text := '[' :: (joined items ++ [']'])

/-- A field of an object. -/
def field (name : String) (value : Text) : Text := str name ++ ':' :: value

def obj (fields : List (String × Text)) : Text :=
  '\x7b' :: (joined (fields.map (fun f => field f.1 f.2)) ++ ['\x7d'])

/-! ## §2. Sizes -/

theorem size_str (s : String) : size (str s) = 2 + size (escaped s) := by
  rw [str, size_cons, size_append, size_cons, size_nil]
  show 1 + (size (escaped s) + (1 + 0)) = _
  omega

/-- A comma for each item but the first. -/
theorem size_joined (items : List Text) :
    size (joined items) = (items.map size).sum + (items.length - 1) := by
  induction items using joined.induct with
  | case1 => rfl
  | case2 t => simp [joined]
  | case3 t u rest ih =>
    rw [joined, size_append, size_cons, ih]
    simp only [List.map_cons, List.sum_cons, List.length_cons]
    show _ + (1 + _) = _
    omega

theorem size_arr (items : List Text) :
    size (arr items) = 2 + (items.map size).sum + (items.length - 1) := by
  rw [arr, size_cons, size_append, size_joined]
  show 1 + (_ + (1 + 0)) = _
  omega

theorem size_field (name : String) (value : Text) :
    size (field name value) = size (str name) + 1 + size value := by
  rw [field, size_append, size_cons]
  show _ + (1 + _) = _
  omega

theorem size_obj (fields : List (String × Text)) :
    size (obj fields)
      = 2 + (fields.map (fun f => size (str f.1) + 1 + size f.2)).sum + (fields.length - 1) := by
  rw [obj, size_cons, size_append, size_joined, List.map_map, List.length_map]
  simp only [Function.comp_def, size_field]
  show 1 + (_ + (1 + 0)) = _
  omega

/-- A text of plain characters is written as it is. -/
theorem size_escaped_of_plain {s : String}
    (h : ∀ c ∈ s.toList, size (escape c) = 1) : size (escaped s) = s.length := by
  have hone : s.toList.map (fun c => size (escape c)) = s.toList.map (fun _ => 1) :=
    List.map_congr_left h
  rw [escaped, size_flatMap, hone, List.map_const', List.sum_replicate, String.length_toList]
  simp

end Panora.Lib.Json
