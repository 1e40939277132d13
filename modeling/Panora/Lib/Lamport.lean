/-
  Panora.Lib.Lamport — a Lamport clock that does not follow every value.

  A clock numbers the changes made here.  It follows what others have numbered, but
  only below a limit: a value at the limit or above it is kept wherever it came with
  and does not move the clock.  The numbers given out so far may be lost with the
  rows they were written to, so the clock is kept on its own as well.

  A log says what happened to a clock, with the value each tick gave; `Follows` says
  that a log is one a clock can have.

  General: any limit, any rows.

  Main results:
    * `Follows.bounds`  — where a clock is, by its log;
    * `Follows.ticked`  — what a tick in the middle of a log gives.
-/
import Mathlib

namespace Panora.Lib.Lamport

/-! ## §1. Ticks -/

/-- The greatest value below the limit, 0 if there is none. -/
def greatest (limit : Int) (rows : List Int) : Int :=
  ((rows.filter (fun v => decide (v < limit))).max?).getD 0

/-- The value of the next change: one above the clock and every row that counts. -/
def tick (limit clock : Int) (rows : List Int) : Int := max clock (greatest limit rows) + 1

variable {limit v : Int} {rows : List Int}

theorem le_greatest (hmem : v ∈ rows) (hv : v < limit) : v ≤ greatest limit rows := by
  have hkept : v ∈ rows.filter (fun v => decide (v < limit)) :=
    List.mem_filter.mpr ⟨hmem, decide_eq_true hv⟩
  unfold greatest
  cases hmax : (rows.filter (fun v => decide (v < limit))).max? with
  | none =>
    rw [List.max?_eq_none_iff] at hmax
    rw [hmax] at hkept
    cases hkept
  | some m => exact (List.max?_eq_some_iff.mp hmax).2 v hkept

theorem greatest_lt (hlimit : 0 < limit) (rows : List Int) : greatest limit rows < limit := by
  unfold greatest
  cases hmax : (rows.filter (fun v => decide (v < limit))).max? with
  | none => exact hlimit
  | some m =>
    have hmem := (List.max?_eq_some_iff.mp hmax).1
    exact of_decide_eq_true (List.mem_filter.mp hmem).2

theorem lt_tick (limit clock : Int) (rows : List Int) : clock < tick limit clock rows := by
  unfold tick
  omega

theorem row_lt_tick (clock : Int) (hmem : v ∈ rows)
    (hv : v < limit) : v < tick limit clock rows := by
  have := le_greatest hmem hv
  unfold tick
  omega

/-- At or above the limit, the clock alone decides. -/
theorem lt_tick_iff (hlimit : 0 < limit) (hv : limit ≤ v) (clock : Int)
    (rows : List Int) : v < tick limit clock rows ↔ v ≤ clock := by
  have := greatest_lt hlimit rows
  unfold tick
  omega

theorem tick_le (hlimit : 0 < limit) (clock : Int) (rows : List Int) :
    tick limit clock rows ≤ max clock (limit - 1) + 1 := by
  have := greatest_lt hlimit rows
  unfold tick
  omega

/-! ## §2. Logs -/

/-- What happens to a clock. -/
inductive Event where
  /-- A change made here, with the rows there were and the value it got. -/
  | ticked (rows : List Int) (value : Int)
  /-- A value from elsewhere that the clock follows. -/
  | observed (value : Int)
  deriving DecidableEq, Repr

/-- The values given out. -/
def ticks : List Event → List Int
  | [] => []
  | .ticked _ value :: log => value :: ticks log
  | .observed _ :: log => ticks log

/-- The values followed. -/
def seen : List Event → List Int
  | [] => []
  | .ticked _ _ :: log => seen log
  | .observed value :: log => value :: seen log

/-- A clock at `clock` can go through the log and end at `clock'`. -/
def Follows (limit : Int) : Int → List Event → Int → Prop
  | clock, [], clock' => clock' = clock
  | clock, .ticked rows value :: log, clock' =>
      value = tick limit clock rows ∧ Follows limit value log clock'
  | clock, .observed value :: log, clock' =>
      value < limit ∧ Follows limit (max clock value) log clock'

variable {limit : Int}

variable {log : List Event}

theorem follows_append {log' : List Event} {clock clock' : Int} :
    Follows limit clock (log ++ log') clock' ↔
      ∃ mid, Follows limit clock log mid ∧ Follows limit mid log' clock' := by
  induction log generalizing clock with
  | nil =>
    constructor
    · intro h
      exact ⟨clock, rfl, h⟩
    · intro h
      obtain ⟨mid, hmid, h⟩ := h
      rw [show mid = clock from hmid] at h
      exact h
  | cons event log ih =>
    cases event with
    | ticked rows value =>
      show (value = _ ∧ Follows limit value (log ++ log') clock') ↔
        ∃ mid, (value = _ ∧ Follows limit value log mid) ∧ Follows limit mid log' clock'
      rw [ih]
      simp only [and_assoc, exists_and_left]
    | observed value =>
      show (value < limit ∧ Follows limit (max clock value) (log ++ log') clock') ↔
        ∃ mid, (value < limit ∧ Follows limit (max clock value) log mid)
          ∧ Follows limit mid log' clock'
      rw [ih]
      simp only [and_assoc, exists_and_left]

/-- Where a clock is after a log. -/
structure Bounds (limit clock : Int) (log : List Event) (clock' : Int) : Prop where
  start : clock ≤ clock'
  ticks : ∀ value ∈ ticks log, value ≤ clock'
  seen : ∀ value ∈ seen log, value ≤ clock'
  /-- Others bring it to the limit at most; beyond that it goes one by one. -/
  upper : clock' ≤ max clock (limit - 1) + (Lamport.ticks log).length

/-- **Where a clock is**: not before anything it gave out or followed, and not further
    beyond the limit than it has ticked. -/
theorem Follows.bounds (hlimit : 0 < limit) :
    ∀ {clock clock' : Int}, Follows limit clock log clock' → Bounds limit clock log clock' := by
  induction log with
  | nil =>
    intro clock clock' h
    have h : clock' = clock := h
    exact ⟨by omega, by simp [Lamport.ticks], by simp [Lamport.seen],
      by simp only [Lamport.ticks, List.length_nil]; omega⟩
  | cons event log ih =>
    intro clock clock' h
    cases event with
    | ticked rows value =>
      obtain ⟨hvalue, hrest⟩ := h
      have hlt := lt_tick limit clock rows
      have hle := tick_le hlimit clock rows
      obtain ⟨hstart, hticks, hseen, hupper⟩ := ih hrest
      refine ⟨by omega, ?_, hseen, ?_⟩
      · intro t ht
        rcases List.mem_cons.mp ht with rfl | ht
        · exact hstart
        · exact hticks t ht
      · show clock' ≤ max clock (limit - 1) + ((value :: Lamport.ticks log).length : Nat)
        rw [List.length_cons]
        omega
    | observed value =>
      obtain ⟨hbelow, hrest⟩ := h
      obtain ⟨hstart, hticks, hseen, hupper⟩ := ih hrest
      refine ⟨by omega, hticks, ?_, ?_⟩
      · intro v hv
        rcases List.mem_cons.mp hv with rfl | hv
        · omega
        · exact hseen v hv
      · show clock' ≤ max clock (limit - 1) + ((Lamport.ticks log).length : Nat)
        omega

/-- **A tick in the middle of a log** gives more than everything given out or followed
    before it, more than every row below the limit, and not more than the ticks before
    it explain. -/
theorem Follows.ticked (hlimit : 0 < limit) {log' : List Event}
    {clock clock' value : Int} (h : Follows limit clock (log ++ .ticked rows value :: log') clock') :
    (∀ t ∈ ticks log, t < value) ∧ (∀ v ∈ seen log, v < value)
      ∧ (∀ v ∈ rows, v < limit → v < value)
      ∧ value ≤ max clock (limit - 1) + (ticks log).length + 1 := by
  obtain ⟨mid, hbefore, hvalue, -⟩ := follows_append.mp h
  obtain ⟨-, hticks, hseen, hupper⟩ := hbefore.bounds hlimit
  have hlt := lt_tick limit mid rows
  have hle := tick_le hlimit mid rows
  refine ⟨fun t ht => ?_, fun v hv => ?_, fun v hv hbelow => ?_, ?_⟩
  · have := hticks t ht
    omega
  · have := hseen v hv
    omega
  · rw [hvalue]
    exact row_lt_tick mid hv hbelow
  · omega

end Panora.Lib.Lamport
