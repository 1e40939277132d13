/-
  Panora.Lib.Quiesce — forwarding that comes to an end.

  Registers hold stamped states, one for each key.  A state is taken where it is newer than
  what is held.  When every state that is passed on was there from the start, the states a
  register may still take are finitely many and each one taken is one less.

  Main results:
    * `Raises.pending_lt` — taking a state leaves fewer to take;
    * `sum_update_add_le` — what one register gains, the sum over all loses;
    * `eventually_zero` — counts whose sums are bounded are zero from some point on.
-/
import Mathlib

namespace Panora.Lib.Quiesce

open Finset

/-! ## §1. What may still be taken -/

section Pending

variable {κ σ : Type*} [LinearOrder σ] {known : Finset (κ × σ)} {held held' : κ → Option σ}
  {k : κ} {s : σ}

/-- The known states that are newer than what is held. -/
def pending (known : Finset (κ × σ)) (held : κ → Option σ) : Finset (κ × σ) :=
  known.filter (fun p => ∀ t ∈ held p.1, t < p.2)

/-- The state `s` was taken at `k`: it is newer than what was held, and nothing else changed. -/
structure Raises (held held' : κ → Option σ) (k : κ) (s : σ) : Prop where
  newer : ∀ t ∈ held k, t < s
  now : held' k = some s
  others : ∀ k', k' ≠ k → held' k' = held k'

/-- Only known states are held. -/
def HoldsOnly (known : Finset (κ × σ)) (held : κ → Option σ) : Prop :=
  ∀ k s, held k = some s → (k, s) ∈ known

theorem mem_pending : (k, s) ∈ pending known held ↔ (k, s) ∈ known ∧ ∀ t ∈ held k, t < s := by
  unfold pending
  rw [mem_filter]

theorem Raises.pending_subset (h : Raises held held' k s) :
    pending known held' ⊆ pending known held := by
  rintro ⟨k', s'⟩ hmem
  obtain ⟨hknown, hnewer⟩ := mem_pending.mp hmem
  refine mem_pending.mpr ⟨hknown, ?_⟩
  intro t ht
  by_cases hk : k' = k
  · -- newer than what is held now is newer than what was held
    subst hk
    exact (h.newer t ht).trans (hnewer s h.now)
  · rw [h.others k' hk] at hnewer
    exact hnewer t ht

/-- **Each state that is taken is one less.** -/
theorem Raises.pending_lt (h : Raises held held' k s) (hknown : (k, s) ∈ known) :
    (pending known held').card < (pending known held).card := by
  apply card_lt_card
  refine Finset.ssubset_iff_subset_ne.mpr ⟨h.pending_subset, ?_⟩
  intro heq
  have hmem : (k, s) ∈ pending known held := mem_pending.mpr ⟨hknown, h.newer⟩
  rw [← heq] at hmem
  exact lt_irrefl s ((mem_pending.mp hmem).2 s h.now)

theorem Raises.holds (h : Raises held held' k s) (hknown : (k, s) ∈ known)
    (hheld : HoldsOnly known held) : HoldsOnly known held' := by
  intro k' s' hs'
  by_cases hk : k' = k
  · subst hk
    rw [h.now] at hs'
    cases hs'
    exact hknown
  · rw [h.others k' hk] at hs'
    exact hheld k' s' hs'

end Pending

/-! ## §2. Counting -/

/-- What one summand loses, the sum loses. -/
theorem sum_update_add_le {ι : Type*} [Fintype ι] [DecidableEq ι] {f g : ι → Nat} {j : ι} {n : Nat}
    (hj : g j + n ≤ f j) (hothers : ∀ i, i ≠ j → g i = f i) : (∑ i, g i) + n ≤ ∑ i, f i := by
  have hg : ∑ i, g i = g j + ∑ i ∈ univ.erase j, g i :=
    (add_sum_erase univ g (mem_univ j)).symm
  have hf : ∑ i, f i = f j + ∑ i ∈ univ.erase j, f i :=
    (add_sum_erase univ f (mem_univ j)).symm
  have hrest : ∑ i ∈ univ.erase j, g i = ∑ i ∈ univ.erase j, f i :=
    sum_congr rfl fun i hi => hothers i (ne_of_mem_erase hi)
  omega

/-- Counts whose sums are bounded are zero from some point on. -/
theorem eventually_zero {f : Nat → Nat} {bound : Nat}
    (h : ∀ n, ∑ m ∈ range n, f m ≤ bound) : ∃ n, ∀ m, n ≤ m → f m = 0 := by
  by_contra hnever
  -- otherwise the sums pass every number
  have hgrows : ∀ b, ∃ n, b ≤ ∑ m ∈ range n, f m := by
    intro b
    induction b with
    | zero => exact ⟨0, Nat.zero_le _⟩
    | succ b ih =>
      obtain ⟨n, hn⟩ := ih
      have hlater : ∃ m, n ≤ m ∧ f m ≠ 0 := by
        by_contra hall
        apply hnever
        refine ⟨n, fun m hm => ?_⟩
        by_contra hne
        exact hall ⟨m, hm, hne⟩
      obtain ⟨m, hm, hne⟩ := hlater
      refine ⟨m + 1, ?_⟩
      have hmono : ∑ i ∈ range n, f i ≤ ∑ i ∈ range m, f i :=
        sum_le_sum_of_subset (range_mono hm)
      rw [sum_range_succ]
      omega
  obtain ⟨n, hn⟩ := hgrows (bound + 1)
  have hle := h n
  omega

end Panora.Lib.Quiesce
