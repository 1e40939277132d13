/-
  Panora.Lib.Pipe — items through a pipe with a window, read into one slot.

  A writer sends items one after another, each as so many bytes; it may be at most
  `window` bytes ahead of the reader.  The reader reads an item to its end and then
  waits until the slot is free to put it there.  Whoever uses the items takes them
  from the slot.

  What is `outstanding` (begun and not taken) does not change while nobody takes.
  Two items can be read, one in the slot and one held, so the writer is stuck in its
  send exactly when what is outstanding beyond two items is more than the window:
  `blocked_of_overfull` one way, `drains` the other.

  General: any items, any sizes, any window.
-/
import Mathlib

namespace Panora.Lib

open List

/-! ## §1. The pipe -/

/-- A pipe and what its two ends are doing. -/
structure Pipe (α : Type) where
  /-- Begun and not read to the end, the oldest first. -/
  queue : List α
  /-- Bytes of the newest that are still to be written. -/
  unwritten : Nat
  /-- Bytes of the oldest that were read. -/
  got : Nat
  /-- Read to the end, waiting for the slot. -/
  held : Option α
  slot : Option α

namespace Pipe

variable {α : Type}

def empty : Pipe α := ⟨[], 0, 0, none, none⟩

/-- Begun and not taken, the oldest first. -/
def outstanding (p : Pipe α) : List α := p.slot.toList ++ p.held.toList ++ p.queue

variable (size : α → Nat) (window : Nat)

/-- The bytes of some items. -/
def total (l : List α) : Nat := (l.map size).sum

/-- Bytes written and not read. -/
def inFlight (p : Pipe α) : Nat := total size p.queue - p.got - p.unwritten

/-- Begin to send an item. -/
def start (a : α) (p : Pipe α) : Pipe α :=
  { p with queue := p.queue ++ [a], unwritten := size a }

/-- Write up to `n` bytes. -/
def write (n : Nat) (p : Pipe α) : Pipe α :=
  { p with unwritten := p.unwritten - min n (window - p.inFlight size) }

/-- Read up to `n` bytes of an item; a reader that holds one reads nothing. -/
def read (n : Nat) (p : Pipe α) : Pipe α :=
  match p.held, p.queue with
  | none, a :: rest =>
    let got := p.got + min n (min (size a - p.got) (p.inFlight size))
    if got = size a then { p with queue := rest, got := 0, held := some a } else { p with got }
  | _, _ => p

/-- Put the held item into the slot, if it is free. -/
def deliver (p : Pipe α) : Pipe α :=
  match p.held, p.slot with
  | some a, none => { p with held := none, slot := some a }
  | _, _ => p

/-- Take what is in the slot. -/
def take (p : Pipe α) : Pipe α := { p with slot := none }

/-- What the pipe's two ends do by themselves. -/
inductive Move where
  | write (n : Nat)
  | read (n : Nat)
  | deliver

def move (p : Pipe α) : Move → Pipe α
  | .write n => p.write size window n
  | .read n => p.read size n
  | .deliver => p.deliver

def moves (p : Pipe α) (l : List Move) : Pipe α := l.foldl (move size window) p

/-- More than the window beyond two items. -/
def Overfull (p : Pipe α) : Prop := window < total size (p.outstanding.drop 2)

instance (p : Pipe α) : Decidable (p.Overfull size window) :=
  inferInstanceAs (Decidable (_ < _))

/-! ## §2. What always holds -/

/-- No more was read than written, and no more written than the window allows. -/
structure Valid (p : Pipe α) : Prop where
  got_le : p.got ≤ total size (p.queue.take 1)
  held_got : p.held ≠ none → p.got = 0
  parts : p.got + p.unwritten ≤ total size p.queue
  room : total size p.queue ≤ p.got + p.unwritten + window

variable {size : α → Nat} {window : Nat} {p : Pipe α}

@[simp] theorem total_nil : total size [] = 0 := rfl

@[simp] theorem total_cons (a : α) (l : List α) : total size (a :: l) = size a + total size l := by
  rw [total, map_cons, sum_cons]
  rfl

@[simp] theorem total_append (l m : List α) :
    total size (l ++ m) = total size l + total size m := by
  rw [total, map_append, sum_append]
  rfl

theorem total_drop_le (n : Nat) (l : List α) : total size (l.drop n) ≤ total size l := by
  have hsplit : total size (l.take n ++ l.drop n) = total size (l.take n) + total size (l.drop n) :=
    total_append _ _
  rw [take_append_drop] at hsplit
  omega

theorem valid_empty : (empty : Pipe α).Valid size window :=
  ⟨Nat.le_refl 0, fun h => absurd rfl h, Nat.le_refl 0, Nat.zero_le _⟩

theorem valid_start (h : p.Valid size window) (hdone : p.unwritten = 0) (a : α) :
    (p.start size a).Valid size window where
  got_le := by
    show p.got ≤ total size ((p.queue ++ [a]).take 1)
    have hgot := h.got_le
    cases hq : p.queue with
    | nil =>
      rw [hq] at hgot
      exact Nat.le_trans hgot (Nat.zero_le _)
    | cons b rest =>
      rw [hq] at hgot
      exact hgot
  held_got := h.held_got
  parts := by
    show p.got + size a ≤ total size (p.queue ++ [a])
    have hparts := h.parts
    simp only [total_append, total_cons, total_nil]
    omega
  room := by
    show total size (p.queue ++ [a]) ≤ p.got + size a + window
    have hroom := h.room
    simp only [total_append, total_cons, total_nil]
    omega

theorem valid_write (h : p.Valid size window) (n : Nat) :
    (p.write size window n).Valid size window where
  got_le := h.got_le
  held_got := h.held_got
  parts := by
    show p.got + (p.unwritten - _) ≤ total size p.queue
    have hparts := h.parts
    omega
  room := by
    show total size p.queue ≤ p.got + (p.unwritten - min n (window - p.inFlight size)) + window
    have hparts := h.parts
    have hroom := h.room
    unfold inFlight
    omega

/-- Reading, as one of three things: nothing to read, part of an item, the rest of it. -/
theorem read_cases (size : α → Nat) (n : Nat) (p : Pipe α) :
    p.read size n = p ∨
    (∃ a rest m, p.held = none ∧ p.queue = a :: rest ∧ m ≤ n ∧ m ≤ p.inFlight size ∧
      m ≤ size a - p.got ∧ p.read size n = { p with got := p.got + m }) ∨
    ∃ a rest, p.held = none ∧ p.queue = a :: rest ∧
      p.got + min (size a - p.got) (p.inFlight size) = size a ∧
      p.read size n = { p with queue := rest, got := 0, held := some a } := by
  unfold read
  cases hheld : p.held with
  | some b => exact .inl rfl
  | none =>
    cases hq : p.queue with
    | nil => exact .inl rfl
    | cons a rest =>
      refine .inr ?_
      dsimp only
      split
      next hall => exact .inr ⟨a, rest, rfl, rfl, by omega, rfl⟩
      next => exact .inl ⟨a, rest, _, rfl, rfl, by omega, by omega, by omega, rfl⟩

theorem valid_read (h : p.Valid size window) (n : Nat) : (p.read size n).Valid size window := by
  have hparts := h.parts
  have hroom := h.room
  rcases read_cases size n p with hsame | ⟨a, rest, m, hheld, hq, -, hm, hma, hread⟩ |
    ⟨a, rest, hheld, hq, hall, hread⟩
  · rw [hsame]
    exact h
  · -- part of the oldest item
    rw [hread]
    have hgot := h.got_le
    unfold inFlight at hm
    rw [hq] at hgot hm hparts hroom
    simp only [total_cons, take_succ_cons, take_zero, total_nil] at hgot hm hparts hroom
    constructor
    · show p.got + m ≤ total size (p.queue.take 1)
      rw [hq]
      simp only [take_succ_cons, take_zero, total_cons, total_nil]
      omega
    · intro hsome
      exact absurd hheld hsome
    · show p.got + m + p.unwritten ≤ total size p.queue
      rw [hq, total_cons]
      omega
    · show total size p.queue ≤ p.got + m + p.unwritten + window
      rw [hq, total_cons]
      omega
  · -- the rest of the oldest item, of which everything was written
    rw [hread]
    unfold inFlight at hall
    rw [hq] at hall hparts hroom
    simp only [total_cons] at hall hparts hroom
    constructor
    · exact Nat.zero_le _
    · intro _
      rfl
    · show 0 + p.unwritten ≤ total size rest
      omega
    · show total size rest ≤ 0 + p.unwritten + window
      omega

theorem valid_deliver (h : p.Valid size window) : p.deliver.Valid size window := by
  unfold deliver
  split
  · exact ⟨h.got_le, fun hne => absurd rfl hne, h.parts, h.room⟩
  · exact h

theorem valid_take (h : p.Valid size window) : p.take.Valid size window :=
  ⟨h.got_le, h.held_got, h.parts, h.room⟩

theorem valid_move (h : p.Valid size window) (m : Move) : (p.move size window m).Valid size window := by
  cases m with
  | write n => exact valid_write h n
  | read n => exact valid_read h n
  | deliver => exact valid_deliver h

/-! ## §3. What is outstanding -/

@[simp] theorem outstanding_start (a : α) :
    (p.start size a).outstanding = p.outstanding ++ [a] := by
  simp [start, outstanding]

theorem outstanding_take : p.take.outstanding = p.held.toList ++ p.queue := rfl

theorem outstanding_of_slot {a : α} (h : p.slot = some a) :
    p.outstanding = a :: p.take.outstanding := by
  rw [outstanding_take, outstanding, h]
  rfl

/-- Reading and delivering only move items on. -/
theorem outstanding_move (size : α → Nat) (window : Nat) (m : Move) : (p.move size window m).outstanding = p.outstanding := by
  cases m with
  | write n => rfl
  | read n =>
    show (p.read size n).outstanding = p.outstanding
    rcases read_cases size n p with hsame | ⟨a, rest, m, hheld, hq, -, -, -, hread⟩ |
      ⟨a, rest, hheld, hq, -, hread⟩
    · rw [hsame]
    · rw [hread]
      rfl
    · rw [hread, outstanding, outstanding, hheld, hq]
      simp
  | deliver =>
    show p.deliver.outstanding = p.outstanding
    unfold deliver
    split
    next a hheld hslot =>
      rw [outstanding, outstanding, hheld, hslot]
      rfl
    next => rfl

/-! ## §4. Stuck or not -/

/-- **An overfull pipe keeps its writer in the send**, wherever the items have got to. -/
theorem blocked_of_overfull (h : p.Valid size window) (hover : p.Overfull size window) :
    0 < p.unwritten := by
  have hroom := h.room
  have hgot := h.got_le
  have hheld := h.held_got
  unfold Overfull outstanding at hover
  -- the writer is ahead by what was begun and not read, less what is unwritten; it is enough
  -- that what is beyond two items was not read
  suffices hrest : total size ((p.slot.toList ++ p.held.toList ++ p.queue).drop 2)
      ≤ total size p.queue - p.got by
    omega
  have htail : total size (p.queue.drop 1) ≤ total size p.queue - p.got := by
    have hsplit : total size (p.queue.take 1 ++ p.queue.drop 1)
        = total size (p.queue.take 1) + total size (p.queue.drop 1) := total_append _ _
    rw [take_append_drop] at hsplit
    omega
  cases hs : p.slot with
  | none =>
    cases hh : p.held with
    | none =>
      show total size (p.queue.drop 2) ≤ _
      have hle : total size (p.queue.drop 2) ≤ total size (p.queue.drop 1) := by
        have hdrop : total size ((p.queue.drop 1).drop 1) ≤ total size (p.queue.drop 1) :=
          total_drop_le 1 _
        rw [drop_drop] at hdrop
        exact hdrop
      omega
    | some b =>
      show total size (p.queue.drop 1) ≤ _
      exact htail
  | some a =>
    cases hh : p.held with
    | none =>
      show total size (p.queue.drop 1) ≤ _
      exact htail
    | some b =>
      show total size p.queue ≤ _
      rw [hheld (by rw [hh]; simp)]
      omega

/-- What the two ends still have to do. -/
def work (size : α → Nat) (p : Pipe α) : Nat :=
  total size p.queue - p.got + p.unwritten + 2 * p.queue.length + p.held.toList.length

/-- As long as the writer is in its send and the pipe is not overfull, one of the ends
    can do something. -/
theorem exists_move (h : p.Valid size window) (hfits : ¬ p.Overfull size window)
    (hpos : 0 < window) (hsend : 0 < p.unwritten) :
    ∃ m : Move, (p.move size window m).work size < p.work size := by
  have hparts := h.parts
  by_cases hroom : p.inFlight size < window
  · -- there is room to write
    refine ⟨.write 1, ?_⟩
    show total size p.queue - p.got + (p.unwritten - min 1 (window - p.inFlight size))
      + 2 * p.queue.length + p.held.toList.length < p.work size
    unfold work
    omega
  · cases hh : p.held with
    | some a =>
      cases hs : p.slot with
      | none =>
        -- the held item can be delivered
        refine ⟨.deliver, ?_⟩
        show p.deliver.work size < p.work size
        unfold deliver
        rw [hh, hs]
        simp only [work, hh, Option.toList_none, Option.toList_some, length_nil,
          length_singleton]
        omega
      | some b =>
        -- both places are taken and the window is full: the pipe is overfull
        refine absurd ?_ hfits
        have hgot : p.got = 0 := h.held_got (by rw [hh]; simp)
        unfold Overfull outstanding
        rw [hh, hs]
        show window < total size p.queue
        unfold inFlight at hroom
        omega
    | none =>
      -- something is in flight and the reader is free
      refine ⟨.read window, ?_⟩
      show (p.read size window).work size < p.work size
      unfold inFlight at hroom
      cases hq : p.queue with
      | nil =>
        rw [hq, total_nil] at hroom
        omega
      | cons a rest =>
        unfold read
        rw [hh, hq]
        dsimp only
        rw [hq, total_cons] at hroom hparts
        have hgot := h.got_le
        rw [hq] at hgot
        simp only [take_succ_cons, take_zero, total_cons, total_nil] at hgot
        have hflight : p.inFlight size = size a + total size rest - p.got - p.unwritten := by
          rw [inFlight, hq, total_cons]
        split
        next hall =>
          simp only [work, hh, hq, total_cons, Option.toList_none, Option.toList_some,
            length_nil, length_cons]
          omega
        next hpart =>
          have hread : 0 < min window (min (size a - p.got) (p.inFlight size)) := by omega
          simp only [work, hh, hq, total_cons, Option.toList_none, length_nil]
          omega

/-- **A pipe that is not overfull lets its writer finish**, without anybody taking. -/
theorem drains (hpos : 0 < window) (h : p.Valid size window) (hfits : ¬ p.Overfull size window) :
    ∃ l, (p.moves size window l).unwritten = 0 := by
  -- along the work that is left
  induction hwork : p.work size using Nat.strongRecOn generalizing p with
  | _ n ih =>
    by_cases hdone : p.unwritten = 0
    · exact ⟨[], hdone⟩
    · obtain ⟨m, hm⟩ := exists_move h hfits hpos (Nat.pos_of_ne_zero hdone)
      have hfits' : ¬ (p.move size window m).Overfull size window := by
        unfold Overfull
        rw [outstanding_move]
        exact hfits
      obtain ⟨l, hl⟩ := ih _ (by rw [← hwork]; exact hm) (valid_move h m) hfits' rfl
      exact ⟨m :: l, hl⟩

end Pipe

end Panora.Lib
