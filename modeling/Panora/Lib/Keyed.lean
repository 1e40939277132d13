/-
  Panora.Lib.Keyed — lists of records with distinct keys.

  A list of records, a key function, and the two facts everything else needs:
  looking a key up fails exactly when no record has it, and, when keys are
  distinct, finds exactly the record that has it.  Sorting by the key keeps the
  records and makes the keys increase.

  General: any record type, any key type.
-/
import Mathlib

namespace Panora.Lib.Keyed

open List

/-! ## §1. Looking a key up -/

section Lookup

variable {α κ : Type} [DecidableEq κ] {key : α → κ} {l : List α} {k : κ} {a : α}

/-- The first record with key `k`. -/
def lookup (key : α → κ) (l : List α) (k : κ) : Option α :=
  l.find? (fun a => key a == k)

theorem lookup_eq_none : lookup key l k = none ↔ ∀ a ∈ l, key a ≠ k := by
  simp [lookup]

theorem mem_of_lookup (h : lookup key l k = some a) : a ∈ l ∧ key a = k := by
  refine ⟨mem_of_find?_eq_some h, ?_⟩
  have := find?_some h
  simpa using this

theorem lookup_isSome : (lookup key l k).isSome ↔ ∃ a ∈ l, key a = k := by
  simp [lookup, find?_isSome]

/-- With distinct keys, a record is found under its own key. -/
theorem lookup_eq_some (hnd : (l.map key).Nodup) : lookup key l k = some a ↔ a ∈ l ∧ key a = k := by
  constructor
  · exact mem_of_lookup
  · rintro ⟨ha, rfl⟩
    induction l with
    | nil => simp at ha
    | cons b l ih =>
      simp only [map_cons, nodup_cons, mem_map, not_exists, not_and] at hnd
      rcases mem_cons.mp ha with rfl | ha
      · simp [lookup]
      · have hne : key b ≠ key a := fun h => hnd.1 a ha h.symm
        have := ih hnd.2 ha
        simpa [lookup, find?_cons, hne] using this

theorem lookup_filter (p : α → Bool) (hnd : (l.map key).Nodup) :
    lookup key (l.filter p) k = (lookup key l k).filter p := by
  have hnd' : ((l.filter p).map key).Nodup := hnd.sublist (filter_sublist.map key)
  ext a
  rw [Option.filter_eq_some_iff, lookup_eq_some hnd, lookup_eq_some hnd', mem_filter]
  tauto

/-- With distinct keys, what is left without the records from the `n`-th on are the
    first `n`. -/
theorem filter_notMem_drop (hnd : (l.map key).Nodup) (n : Nat) :
    l.filter (fun a => key a ∉ (l.drop n).map key) = l.take n := by
  have hsplit : ((l.take n).map key ++ (l.drop n).map key).Nodup := by
    rw [← map_append, take_append_drop]
    exact hnd
  have hdisjoint := disjoint_of_nodup_append hsplit
  have hfront : (l.take n).filter (fun a => key a ∉ (l.drop n).map key) = l.take n := by
    rw [filter_eq_self]
    intro a ha
    exact decide_eq_true (fun hdrop => hdisjoint (mem_map_of_mem ha) hdrop)
  have hback : (l.drop n).filter (fun a => key a ∉ (l.drop n).map key) = [] := by
    rw [filter_eq_nil_iff]
    intro a ha hout
    exact of_decide_eq_true hout (mem_map_of_mem ha)
  calc l.filter (fun a => key a ∉ (l.drop n).map key)
      = (l.take n ++ l.drop n).filter (fun a => key a ∉ (l.drop n).map key) := by
        rw [take_append_drop]
    _ = l.take n := by rw [filter_append, hfront, hback, append_nil]

end Lookup

/-! ## §2. Sorting by the key -/

section Sorting

variable {α κ : Type} [LinearOrder κ] {key : α → κ} {l : List α}

/-- Increasing keys are distinct. -/
theorem nodup_of_increasing (h : l.Pairwise (fun a b => key a < key b)) : (l.map key).Nodup := by
  rw [Nodup, pairwise_map]
  exact h.imp (fun hab => ne_of_lt hab)

theorem pairwise_sort (key : α → κ) (l : List α) :
    (l.insertionSort (fun a b => key a ≤ key b)).Pairwise (fun a b => key a ≤ key b) := by
  have : Std.Total (fun a b : α => key a ≤ key b) := ⟨fun a b => le_total _ _⟩
  have : IsTrans α (fun a b : α => key a ≤ key b) := ⟨fun _ _ _ => le_trans⟩
  exact pairwise_insertionSort (fun a b => key a ≤ key b) l

/-- Records with distinct keys, sorted by key: the keys increase. -/
theorem increasing_sort (hnd : (l.map key).Nodup) :
    (l.insertionSort (fun a b => key a ≤ key b)).Pairwise (fun a b => key a < key b) := by
  have hperm := perm_insertionSort (fun a b => key a ≤ key b) l
  have hle := pairwise_sort key l
  have hne : (l.insertionSort (fun a b => key a ≤ key b)).Pairwise
      (fun a b => key a ≠ key b) := by
    rw [← pairwise_map]
    exact (hperm.map key).nodup_iff.mpr hnd
  exact (hle.and hne).imp (fun h => lt_of_le_of_ne h.1 h.2)

/-- A list whose keys increase is what any list of the same records sorts to. -/
theorem sort_eq_of_perm {l' : List α} (hperm : l.Perm l')
    (h : l'.Pairwise (fun a b => key a < key b)) :
    l.insertionSort (fun a b => key a ≤ key b) = l' := by
  have hnodup : (l.map key).Nodup := (hperm.map key).nodup_iff.mpr (nodup_of_increasing h)
  exact Perm.eq_of_pairwise (fun a b _ _ hab hba => absurd hab (lt_asymm hba))
    (increasing_sort hnodup) h ((perm_insertionSort _ _).trans hperm)

/-- Sorting a list and looking for two equal neighbours finds every repetition. -/
theorem sorted_neighbours_iff_nodup {l : List κ} :
    (l.insertionSort (· ≤ ·)).IsChain (· ≠ ·) ↔ l.Nodup := by
  have hperm := perm_insertionSort (· ≤ ·) l
  have hle := pairwise_insertionSort (· ≤ ·) l
  rw [← hperm.nodup_iff]
  constructor
  · intro h
    have hlt : (l.insertionSort (· ≤ ·)).IsChain (· < ·) := by
      refine isChain_iff_getElem.mpr (fun i hi => ?_)
      have h1 := isChain_iff_getElem.mp h i hi
      have h2 := isChain_iff_getElem.mp hle.isChain i hi
      exact lt_of_le_of_ne h2 h1
    exact hlt.pairwise.imp (fun hab => ne_of_lt hab)
  · intro h
    exact h.isChain

end Sorting

/-- Lists of one length that a map tells apart are equal where their images are. -/
theorem eq_of_map_eq {α β : Type} {f : α → β} : ∀ {l l' : List α}, l.map f = l'.map f →
    (∀ a ∈ l, ∀ b ∈ l', f a = f b → a = b) → l = l'
  | [], l', h, _ => (map_eq_nil_iff.mp h.symm).symm
  | a :: l, [], h, _ => absurd h (by simp)
  | a :: l, b :: l', h, hinj => by
    rw [map_cons, map_cons, cons.injEq] at h
    have hhead : a = b := hinj a mem_cons_self b mem_cons_self h.1
    have htail : l = l' := eq_of_map_eq h.2 (fun c hc c' hc' =>
      hinj c (mem_cons_of_mem a hc) c' (mem_cons_of_mem b hc'))
    rw [hhead, htail]

/-- What related elements agree on, related lists agree on. -/
theorem map_eq_of_forall₂ {α β γ : Type} {R : α → β → Prop} {f : α → γ} {g : β → γ}
    (hfg : ∀ a b, R a b → f a = g b) {l : List α} {l' : List β} (h : Forall₂ R l l') :
    l.map f = l'.map g := by
  induction h with
  | nil => rfl
  | cons hab _ ih => rw [map_cons, map_cons, hfg _ _ hab, ih]

/-! ## §3. Sorting and filtering -/

section Filtering

variable {α : Type} {r : α → α → Prop} [DecidableRel r]

/-- Sorting forgets the order a list is in, where no two records stand in each other's place. -/
theorem sort_congr [IsTrans α r] [Std.Total r] {l l' : List α} (hperm : l.Perm l')
    (hanti : ∀ a ∈ l, ∀ b ∈ l, r a b → r b a → a = b) : l.insertionSort r = l'.insertionSort r := by
  have hsorted := perm_insertionSort r l
  have hsorted' := perm_insertionSort r l'
  refine Perm.eq_of_pairwise ?_ (pairwise_insertionSort r l)
    (pairwise_insertionSort r l') ((hsorted.trans hperm).trans hsorted'.symm)
  intro a b ha hb
  exact hanti a (hsorted.mem_iff.mp ha) b (hperm.mem_iff.mpr (hsorted'.mem_iff.mp hb))

theorem orderedInsert_of_forall {a : α} {l : List α} (h : ∀ b ∈ l, r a b) :
    l.orderedInsert r a = a :: l := by
  cases l with
  | nil => rfl
  | cons b l => exact if_pos (h b mem_cons_self)

theorem filter_orderedInsert [IsTrans α r] (p : α → Bool) (a : α) {l : List α}
    (hl : l.Pairwise r) : (l.orderedInsert r a).filter p
      = if p a then (l.filter p).orderedInsert r a else l.filter p := by
  induction l with
  | nil => cases h : p a <;> simp [h]
  | cons b l ih =>
    obtain ⟨hb, hl⟩ := pairwise_cons.mp hl
    by_cases hab : r a b
    · -- `a` goes first, also in the filtered list
      have hall : ∀ c ∈ (b :: l).filter p, r a c := by
        intro c hc
        rcases mem_cons.mp (mem_filter.mp hc).1 with rfl | hc
        · exact hab
        · exact IsTrans.trans a b c hab (hb c hc)
      rw [orderedInsert, if_pos hab, orderedInsert_of_forall hall, filter_cons]
    · rw [orderedInsert, if_neg hab]
      cases hpb : p b with
      | true =>
        rw [filter_cons_of_pos hpb, filter_cons_of_pos hpb, ih hl, orderedInsert,
          if_neg hab]
        split <;> rfl
      | false =>
        have hpb : ¬ p b = true := by simp [hpb]
        rw [filter_cons_of_neg hpb, filter_cons_of_neg hpb, ih hl]

/-- Filtering a sorted list, or sorting a filtered one. -/
theorem filter_insertionSort [IsTrans α r] [Std.Total r] (p : α → Bool) (l : List α) :
    (l.insertionSort r).filter p = (l.filter p).insertionSort r := by
  induction l with
  | nil => rfl
  | cons a l ih =>
    rw [insertionSort_cons, filter_orderedInsert p a (pairwise_insertionSort r l), ih]
    cases hpa : p a with
    | true =>
      rw [filter_cons_of_pos hpa, if_pos rfl, insertionSort_cons]
    | false =>
      rw [filter_cons_of_neg (by simp [hpa]), if_neg (by simp)]

end Filtering

end Panora.Lib.Keyed
