/-
  Panora.Lib.Fallible — chains of checks in `Except`.

  A check is `if bad then .error e else rest`; a call that may fail is
  `x.bind rest`.  Each has one lemma that says when the whole succeeds, so a
  function made of checks is inverted by rewriting, test after test.
-/
import Mathlib

namespace Panora.Lib.Fallible

open List

variable {ε α β : Type}

/-- A check is passed when what it tests does not hold and the rest succeeds. -/
theorem check_ok_iff {bad : Prop} [Decidable bad] {e : ε} {rest : Except ε α} {a : α} :
    (if bad then .error e else rest) = .ok a ↔ ¬ bad ∧ rest = .ok a := by
  by_cases h : bad
  · simp [h]
  · simp [h]

/-- A call that succeeded hands its value on. -/
theorem ok_bind (a : α) (f : α → Except ε β) : (Except.ok a : Except ε α).bind f = f a := rfl

variable {f : α → Except ε β} {b : β}

/-- A failing call fails the whole; a succeeding one hands its value on. -/
theorem bind_ok_iff {x : Except ε α} : x.bind f = .ok b ↔ ∃ a, x = .ok a ∧ f a = .ok b := by
  cases x with
  | error e => simp [Except.bind]
  | ok a => simp [Except.bind]

/-- The same for a call made only for its check. -/
theorem bind_unit_ok_iff {x : Except ε Unit} {rest : Except ε β} :
    (x.bind fun _ => rest) = .ok b ↔ x = .ok () ∧ rest = .ok b := by
  rw [bind_ok_iff]
  constructor
  · rintro ⟨_, hx, hrest⟩
    exact ⟨hx, hrest⟩
  · rintro ⟨hx, hrest⟩
    exact ⟨(), hx, hrest⟩

/-- What is made of a result is made of a result. -/
theorem map_ok_iff {x : Except ε α} {f : α → β} : x.map f = .ok b ↔ ∃ a, x = .ok a ∧ f a = b := by
  cases x with
  | error e => simp [Except.map]
  | ok a => simp [Except.map]

variable {l : List α}

/-- The results of going through a list are the results of the calls. -/
theorem mapM_eq_ok_iff : ∀ {bs : List β}, l.mapM f = .ok bs ↔ l.map f = bs.map .ok := by
  induction l with
  | nil =>
    intro bs
    rw [mapM_nil, map_nil]
    cases bs with
    | nil => exact ⟨fun _ => rfl, fun _ => rfl⟩
    | cons b bs => exact ⟨fun h => absurd h (by simp [pure, Except.pure]), fun h => absurd h (by simp)⟩
  | cons a l ih =>
    intro bs
    rw [mapM_cons, map_cons]
    constructor
    · intro h
      obtain ⟨b, hb, hrest⟩ := bind_ok_iff.mp h
      obtain ⟨bs', hbs', heq⟩ := bind_ok_iff.mp hrest
      cases heq
      rw [hb, ih.mp hbs', map_cons]
    · intro h
      cases bs with
      | nil => cases h
      | cons b bs =>
        rw [map_cons, cons.injEq] at h
        rw [h.1, ih.mpr h.2]
        rfl

/-- Going through a list succeeds when every call does. -/
theorem mapM_ok_iff : (∃ bs, l.mapM f = .ok bs) ↔ ∀ a ∈ l, ∃ b, f a = .ok b := by
  induction l with
  | nil => exact ⟨fun _ _ h => absurd h (by simp), fun _ => ⟨[], rfl⟩⟩
  | cons a l ih =>
    rw [forall_mem_cons, ← ih, mapM_cons]
    constructor
    · rintro ⟨bs, h⟩
      obtain ⟨b, hb, hrest⟩ := bind_ok_iff.mp h
      obtain ⟨bs', hbs', -⟩ := bind_ok_iff.mp hrest
      exact ⟨⟨b, hb⟩, bs', hbs'⟩
    · rintro ⟨⟨b, hb⟩, bs, hbs⟩
      rw [hb, hbs]
      exact ⟨b :: bs, rfl⟩

/-- What a call on an element gives is among what going through the list gives. -/
theorem mem_of_mapM_ok {bs : List β} (h : l.mapM f = .ok bs)
    {a : α} (ha : a ∈ l) (hb : f a = .ok b) : b ∈ bs := by
  have hin : f a ∈ bs.map Except.ok := mapM_eq_ok_iff.mp h ▸ mem_map_of_mem ha
  rw [hb] at hin
  obtain ⟨b', hmem, heq⟩ := mem_map.mp hin
  exact Except.ok.inj heq ▸ hmem

/-- What each call makes of its argument, the calls make of the list. -/
theorem map_of_mapM_ok {γ : Type} {g : β → γ} {h : α → γ} (hf : ∀ a b, f a = .ok b → g b = h a) :
    ∀ {bs : List β}, l.mapM f = .ok bs → bs.map g = l.map h := by
  induction l with
  | nil =>
    intro bs hbs
    cases hbs
    rfl
  | cons a l ih =>
    intro bs hbs
    rw [mapM_cons] at hbs
    obtain ⟨b, hb, hrest⟩ := bind_ok_iff.mp hbs
    obtain ⟨bs', hbs', heq⟩ := bind_ok_iff.mp hrest
    cases heq
    rw [map_cons, map_cons, hf a b hb, ih hbs']

/-- Where every call succeeds, the results are those of the calls. -/
theorem mapM_eq_ok {g : α → β} (h : ∀ a ∈ l, f a = .ok (g a)) : l.mapM f = .ok (l.map g) := by
  rw [mapM_eq_ok_iff, map_map]
  exact map_congr_left h

/-- Calls that do the same on every element of a list do the same on the list. -/
theorem mapM_congr {g : α → Except ε β} (h : ∀ a ∈ l, f a = g a) : l.mapM f = l.mapM g := by
  induction l with
  | nil => rfl
  | cons a l ih =>
    obtain ⟨ha, hl⟩ := forall_mem_cons.mp h
    rw [mapM_cons, mapM_cons, ha, ih hl]

end Panora.Lib.Fallible
