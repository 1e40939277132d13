/-
  Panora.Lib.Trace — the states of a run, and the steps that break an invariant.

  A machine takes one step for each event.  Where it is known of every step whether it keeps
  an invariant, it is known of every run.

  Main results:
    * `forall_states_iff`, `forall_states_iff_of_kept` — a fact holds in every state of a run
      exactly when no step of the run is one of those that break it;
    * `holds_after_iff` — a fact that once lost stays lost holds at the end of a run exactly
      when it held at its start and no step loses it;
    * `never_latched_iff` — a latch meets no unfit step exactly when, after every step that sets
      it, one that frees it comes first.
-/
import Mathlib

namespace Panora.Lib.Trace

open List

variable {σ ε : Type*} {step : σ → ε → σ} {Inv : σ → Prop} {Bad : σ → ε → Prop}

/-- The state before the first step of a run, and after each of its steps. -/
def states (step : σ → ε → σ) : σ → List ε → List σ
  | s, [] => [s]
  | s, e :: events => s :: states step (step s e) events

/-- No step of a run is a bad one where it is taken. -/
def Never (step : σ → ε → σ) (Bad : σ → ε → Prop) : σ → List ε → Prop
  | _, [] => True
  | s, e :: events => ¬ Bad s e ∧ Never step Bad (step s e) events

theorem mem_states_self (s : σ) (events : List ε) : s ∈ states step s events := by
  cases events with
  | nil => exact mem_singleton.mpr rfl
  | cons e events => exact mem_cons_self

/-- **A fact holds along a run exactly when no step breaks it**, where an invariant that every
    step keeps as long as the fact holds says which steps do. -/
theorem forall_states_iff_of_kept {P Q : σ → Prop} (events : List ε)
    (hstep : ∀ s, ∀ e ∈ events, P s → Q s → P (step s e) ∧ (Q (step s e) ↔ ¬ Bad s e)) :
    ∀ {s : σ}, P s → Q s →
      ((∀ s' ∈ states step s events, Q s') ↔ Never step Bad s events) := by
  induction events with
  | nil =>
    intro s _ hs
    refine iff_of_true ?_ trivial
    intro s' hs'
    rw [mem_singleton.mp hs']
    exact hs
  | cons e events ih =>
    intro s hp hs
    show (∀ s' ∈ s :: states step (step s e) events, Q s')
      ↔ ¬ Bad s e ∧ Never step Bad (step s e) events
    obtain ⟨hkept, hfirst⟩ := hstep s e mem_cons_self hp hs
    have hrest := fun hnext : Q (step s e) =>
      ih (fun s' e' he' => hstep s' e' (mem_cons_of_mem e he')) hkept hnext
    rw [forall_mem_cons]
    constructor
    · rintro ⟨-, hlater⟩
      -- the state after the step is the first of the later ones
      have hnext : Q (step s e) := hlater _ (mem_states_self _ events)
      exact ⟨hfirst.mp hnext, (hrest hnext).mp hlater⟩
    · rintro ⟨hkeeps, hlater⟩
      have hnext : Q (step s e) := hfirst.mpr hkeeps
      exact ⟨hs, (hrest hnext).mpr hlater⟩

/-- An invariant holds along a run exactly when no step breaks it. -/
theorem forall_states_iff (events : List ε)
    (hstep : ∀ s, ∀ e ∈ events, Inv s → (Inv (step s e) ↔ ¬ Bad s e)) {s : σ} (hs : Inv s) :
    (∀ s' ∈ states step s events, Inv s') ↔ Never step Bad s events :=
  forall_states_iff_of_kept (P := fun _ => True) events
    (fun s e he _ hinv => ⟨trivial, hstep s e he hinv⟩) trivial hs

/-! ## The end of a run -/

/-- The state a run ends in. -/
def after (step : σ → ε → σ) (s : σ) (events : List ε) : σ := events.foldl step s

theorem after_append (s : σ) (events later : List ε) :
    after step s (events ++ later) = after step (after step s events) later :=
  foldl_append

theorem after_mem_states (s : σ) (events : List ε) : after step s events ∈ states step s events := by
  induction events generalizing s with
  | nil => exact mem_singleton.mpr rfl
  | cons e events ih => exact mem_cons_of_mem s (ih (step s e))

theorem never_append (events later : List ε) : ∀ s : σ, Never step Bad s (events ++ later) ↔
    Never step Bad s events ∧ Never step Bad (after step s events) later := by
  induction events with
  | nil =>
    intro s
    exact ⟨fun h => ⟨trivial, h⟩, fun h => h.2⟩
  | cons e events ih =>
    intro s
    show ¬ Bad s e ∧ Never step Bad (step s e) (events ++ later)
      ↔ (¬ Bad s e ∧ Never step Bad (step s e) events) ∧ _
    rw [ih (step s e), and_assoc]
    exact Iff.rfl

/-- No step of a run is bad: wherever the run is cut, the next step is not. -/
theorem never_iff_split (events : List ε) : ∀ s : σ, Never step Bad s events ↔
    ∀ before e later, events = before ++ e :: later → ¬ Bad (after step s before) e := by
  induction events with
  | nil =>
    intro s
    refine iff_of_true trivial ?_
    intro before e later h
    simp at h
  | cons e events ih =>
    intro s
    show ¬ Bad s e ∧ Never step Bad (step s e) events ↔ _
    rw [ih (step s e)]
    constructor
    · rintro ⟨hfirst, hrest⟩ before e' later h
      cases before with
      | nil =>
        obtain ⟨rfl, rfl⟩ := cons.inj h
        exact hfirst
      | cons b before =>
        obtain ⟨rfl, htail⟩ := cons.inj h
        exact hrest before e' later htail
    · intro h
      refine ⟨h [] e events rfl, ?_⟩
      intro before e' later htail
      exact h (e :: before) e' later (congrArg (e :: ·) htail)

/-- What every step keeps is kept by every run. -/
theorem keeps_after {P : σ → Prop} (hstep : ∀ s e, P s → P (step s e)) (events : List ε) :
    ∀ {s : σ}, P s → P (after step s events) := by
  induction events with
  | nil => exact fun h => h
  | cons e events ih => exact fun h => ih (hstep _ e h)

/-- **A fact that once lost stays lost holds at the end of a run exactly when it held at its
    start and no step loses it.** -/
theorem holds_after_iff {P Gone : σ → Prop} (hkeep : ∀ s e, P s → ¬ Bad s e → P (step s e))
    (hlose : ∀ s e, P s → Bad s e → Gone (step s e))
    (hgone : ∀ s e, Gone s → Gone (step s e)) (hnot : ∀ s, Gone s → ¬ P s) (events : List ε) :
    ∀ {s : σ}, P s ∨ Gone s →
      (P (after step s events) ↔ P s ∧ Never step Bad s events) := by
  induction events with
  | nil => exact fun _ => (and_iff_left trivial).symm
  | cons e events ih =>
    intro s hs
    show P (after step (step s e) events) ↔ P s ∧ ¬ Bad s e ∧ Never step Bad (step s e) events
    rcases hs with hs | hs
    · by_cases hbad : Bad s e
      · -- the first step loses it, and nothing brings it back
        have hlost : Gone (step s e) := hlose s e hs hbad
        refine iff_of_false ?_ (fun h => h.2.1 hbad)
        exact hnot _ (keeps_after hgone events hlost)
      · have hkept : P (step s e) := hkeep s e hs hbad
        rw [ih (Or.inl hkept), and_iff_right hkept, and_iff_right hs, and_iff_right hbad]
    · refine iff_of_false ?_ (fun h => hnot s hs h.1)
      exact hnot _ (keeps_after hgone (e :: events) hs)

/-! ## A latch -/

section Latch

variable {latched : σ → Prop} {Sets Frees Unfit : σ → ε → Prop}

/-- A latch is set exactly when some step has set it and none has freed it since. -/
theorem latched_after_iff (hset : ∀ s e, Sets s e → latched (step s e))
    (hfree : ∀ s e, Frees s e → ¬ latched (step s e))
    (hkeep : ∀ s e, ¬ Sets s e → ¬ Frees s e → (latched (step s e) ↔ latched s))
    {s : σ} (hs : ¬ latched s) (events : List ε) : latched (after step s events) ↔
      ∃ before a since, events = before ++ a :: since ∧ Sets (after step s before) a ∧
        Never step Frees (after step s (before ++ [a])) since := by
  induction events using reverseRecOn with
  | nil =>
    refine iff_of_false hs ?_
    rintro ⟨before, a, since, h, -⟩
    simp at h
  | append_singleton events e ih =>
    have hafter : after step s (events ++ [e]) = step (after step s events) e :=
      after_append s events [e]
    by_cases hsets : Sets (after step s events) e
    · refine iff_of_true (hafter ▸ hset _ _ hsets) ?_
      exact ⟨events, e, [], rfl, hsets, trivial⟩
    -- the last step is not the one that set it, so the step that did stands earlier
    have hearlier : (∃ before a since, events ++ [e] = before ++ a :: since ∧
        Sets (after step s before) a ∧ Never step Frees (after step s (before ++ [a])) since) ↔
        ¬ Frees (after step s events) e ∧ ∃ before a since, events = before ++ a :: since ∧
        Sets (after step s before) a ∧
          Never step Frees (after step s (before ++ [a])) since := by
      constructor
      · rintro ⟨before, a, since, h, ha, hsince⟩
        rcases eq_nil_or_concat' since with rfl | ⟨since, e', rfl⟩
        · obtain ⟨rfl, hlast⟩ := append_inj' h rfl
          obtain rfl : e = a := by simpa using hlast
          exact absurd ha hsets
        · rw [← cons_append, ← append_assoc] at h
          obtain ⟨rfl, hlast⟩ := append_inj' h rfl
          obtain rfl : e = e' := by simpa using hlast
          obtain ⟨hsince, hfrees, -⟩ := (never_append since [e] _).mp hsince
          rw [← after_append, append_assoc] at hfrees
          exact ⟨hfrees, before, a, since, rfl, ha, hsince⟩
      · rintro ⟨hfrees, before, a, since, rfl, ha, hsince⟩
        refine ⟨before, a, since ++ [e], by simp, ha, ?_⟩
        refine (never_append since [e] _).mpr ⟨hsince, ?_, trivial⟩
        rw [← after_append, append_assoc]
        exact hfrees
    rw [hearlier, hafter]
    by_cases hfrees : Frees (after step s events) e
    · exact iff_of_false (hfree _ _ hfrees) (fun h => h.1 hfrees)
    · rw [hkeep _ _ hsets hfrees, ih]
      exact (and_iff_right hfrees).symm

/-- **No unfit step meets the latch exactly when none comes between a step that sets it and the
    first that frees it.** -/
theorem never_latched_iff (hset : ∀ s e, Sets s e → latched (step s e))
    (hfree : ∀ s e, Frees s e → ¬ latched (step s e))
    (hkeep : ∀ s e, ¬ Sets s e → ¬ Frees s e → (latched (step s e) ↔ latched s))
    {s : σ} (hs : ¬ latched s) (events : List ε) :
    Never step (fun s e => Unfit s e ∧ latched s) s events ↔
      ∀ before a since e later, events = before ++ a :: (since ++ e :: later) →
        Sets (after step s before) a → Never step Frees (after step s (before ++ [a])) since →
        ¬ Unfit (after step s (before ++ a :: since)) e := by
  rw [never_iff_split]
  constructor
  · intro h before a since e later hevents ha hsince hunfit
    refine h (before ++ a :: since) e later (by simpa using hevents) ⟨hunfit, ?_⟩
    exact (latched_after_iff hset hfree hkeep hs _).mpr ⟨before, a, since, rfl, ha, hsince⟩
  · rintro h before e later rfl ⟨hunfit, hlatched⟩
    obtain ⟨before, a, since, rfl, ha, hsince⟩ :=
      (latched_after_iff hset hfree hkeep hs _).mp hlatched
    exact h before a since e later (by simp) ha hsince hunfit

end Latch

end Panora.Lib.Trace
