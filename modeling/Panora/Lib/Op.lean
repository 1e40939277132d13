/-
  Panora.Lib.Op — operations on a state that may fail.

  An operation reads and changes a state and returns a value or an error; what
  it wrote before an error stays written.  `exec x s` is what running `x` from
  `s` does.  Each way of building an operation has one rule, so a long operation
  is taken apart, or put together, step after step.

  General: any state, any errors.
-/
import Mathlib

namespace Panora.Lib

/-- An operation on `σ` that returns `α` or fails with `ε`. -/
abbrev Op (σ ε α : Type) := ExceptT ε (StateM σ) α

namespace Op

variable {σ ε α β : Type}

/-- Run an operation: its result, and the state it leaves. -/
def exec (x : Op σ ε α) (s : σ) : Except ε α × σ := x.run s

/-- Read something off the state. -/
def reads (f : σ → α) : Op σ ε α := fun s => (.ok (f s), s)

/-- Change the state. -/
def update (f : σ → σ) : Op σ ε Unit := fun s => (.ok (), f s)

/-- Change the state and return something. -/
def step (f : σ → α × σ) : Op σ ε α := fun s => (.ok (f s).1, (f s).2)

/-- Change the state, or fail and leave it as it is. -/
def attempt (f : σ → Except ε (α × σ)) : Op σ ε α := fun s =>
  match f s with
  | .ok (a, t) => (.ok a, t)
  | .error e => (.error e, s)

/-! ## §1. What each operation does -/

variable {x : Op σ ε α}

/-- Operations that do the same from every state are the same. -/
theorem ext {y : Op σ ε α} (h : ∀ s, exec x s = exec y s) : x = y := ExceptT.ext (funext h)

@[simp] theorem exec_pure (a : α) (s : σ) : exec (pure a : Op σ ε α) s = (.ok a, s) := rfl

@[simp] theorem exec_throw (e : ε) (s : σ) : exec (throw e : Op σ ε α) s = (.error e, s) := rfl

@[simp] theorem exec_reads (f : σ → α) (s : σ) : exec (reads f : Op σ ε α) s = (.ok (f s), s) := rfl

@[simp] theorem exec_update (f : σ → σ) (s : σ) :
    exec (update f : Op σ ε Unit) s = (.ok (), f s) := rfl

@[simp] theorem exec_step (f : σ → α × σ) (s : σ) :
    exec (step f : Op σ ε α) s = (.ok (f s).1, (f s).2) := rfl

variable {f : σ → Except ε (α × σ)} {s t : σ} {a : α}

/-- An attempt that succeeds moves to the state it computed. -/
theorem exec_attempt_ok (h : f s = .ok (a, t)) : exec (attempt f) s = (.ok a, t) := by
  simp only [exec, attempt, ExceptT.run, h]

/-- An attempt that fails leaves the state as it was. -/
theorem exec_attempt_error {e : ε} (h : f s = .error e) : exec (attempt f) s = (.error e, s) := by
  simp only [exec, attempt, ExceptT.run, h]

/-- Looking something up changes nothing. -/
theorem exec_attempt_read {f : σ → Except ε α}
    (h : exec (attempt (fun s => (f s).map (fun a => (a, s)))) s = (.ok a, t)) : t = s := by
  cases hf : f s with
  | error e =>
    have herror := exec_attempt_error (f := fun s => (f s).map (fun a => (a, s))) (s := s) (e := e)
      (by simp only [hf]; rfl)
    rw [herror] at h
    cases h
  | ok b =>
    have hok := exec_attempt_ok (f := fun s => (f s).map (fun a => (a, s))) (s := s) (t := s)
      (a := b) (by simp only [hf]; rfl)
    rw [hok] at h
    cases h
    rfl

/-- Two steps run one after the other; an error of the first ends the run where it left the
    state. -/
theorem exec_bind (x : Op σ ε α) (f : α → Op σ ε β) (s : σ) :
    exec (x >>= f) s = match exec x s with
      | (.ok a, t) => exec (f a) t
      | (.error e, t) => (.error e, t) := by
  show ExceptT.run (x >>= f) s = _
  rw [ExceptT.run_bind]
  show (match (ExceptT.run x s).1 with
    | .ok a => ExceptT.run (f a)
    | .error e => pure (.error e)) (ExceptT.run x s).2 = _
  unfold exec
  cases ExceptT.run x s with
  | mk r t => cases r <;> rfl

/-- After a step that succeeds, the rest runs. -/
theorem exec_bind_ok (h : exec x s = (.ok a, t))
    (f : α → Op σ ε β) : exec (x >>= f) s = exec (f a) t := by
  rw [exec_bind, h]

/-- A step that fails ends the operation. -/
theorem exec_bind_error {e : ε} (h : exec x s = (.error e, t))
    (f : α → Op σ ε β) : exec (x >>= f) s = (.error e, t) := by
  rw [exec_bind, h]

/-- The result with the state it leaves, and the error alone. -/
def outcome (x : Op σ ε α) (s : σ) : Except ε (α × σ) := (exec x s).1.map (fun a => (a, (exec x s).2))

/-- Outcomes compose as results of type `Except` do. -/
theorem outcome_bind (x : Op σ ε α) (f : α → Op σ ε β) (s : σ) :
    outcome (x >>= f) s = (outcome x s).bind (fun r => outcome (f r.1) r.2) := by
  unfold outcome
  rw [exec_bind]
  cases exec x s with
  | mk r t => cases r <;> rfl

/-- An outcome with a result is a run that succeeded. -/
theorem exec_of_outcome (h : outcome x s = .ok (a, t)) : exec x s = (.ok a, t) := by
  unfold outcome at h
  cases hx : exec x s with
  | mk r u =>
    rw [hx] at h
    cases r with
    | ok b =>
      cases h
      rfl
    | error e => exact nomatch h

/-- An operation of two steps succeeds when both do. -/
theorem exec_bind_eq_ok {f : α → Op σ ε β} {b : β} :
    exec (x >>= f) s = (.ok b, t) ↔
      ∃ a u, exec x s = (.ok a, u) ∧ exec (f a) u = (.ok b, t) := by
  rw [exec_bind]
  constructor
  · intro h
    cases hx : exec x s with
    | mk result u =>
      rw [hx] at h
      cases result with
      | ok a => exact ⟨a, u, rfl, h⟩
      | error e => cases h
  · rintro ⟨a, u, hx, hf⟩
    rw [hx]
    exact hf

/-! ## §2. What an operation keeps -/

/-- Every run of the operation relates the state before to the state after. -/
def Keeps (R : σ → σ → Prop) (x : Op σ ε α) : Prop := ∀ s, R s (exec x s).2

section Keeps

variable {R : σ → σ → Prop}

theorem keeps_pure (hrefl : ∀ s, R s s) (a : α) : Keeps R (pure a : Op σ ε α) := hrefl

theorem keeps_reads (hrefl : ∀ s, R s s) (f : σ → α) : Keeps R (reads f : Op σ ε α) := hrefl

theorem keeps_update {f : σ → σ} (h : ∀ s, R s (f s)) : Keeps R (update f : Op σ ε Unit) := h

theorem keeps_step {f : σ → α × σ} (h : ∀ s, R s (f s).2) : Keeps R (step f : Op σ ε α) := h

/-- An attempt keeps what its successes keep, since a failure changes nothing. -/
theorem keeps_attempt (hrefl : ∀ s, R s s)
    (h : ∀ s a t, f s = .ok (a, t) → R s t) : Keeps R (attempt f) := by
  intro s
  cases hf : f s with
  | error e =>
    rw [exec_attempt_error hf]
    exact hrefl s
  | ok r =>
    obtain ⟨a, t⟩ := r
    rw [exec_attempt_ok hf]
    exact h s a t hf

/-- A call that may fail, and what is made of what it returns. -/
theorem keeps_attempt_map (hrefl : ∀ s, R s s) {g : σ → Except ε β} {k : σ → β → α × σ}
    (h : ∀ s b, g s = .ok b → R s (k s b).2) : Keeps R (attempt (fun s => (g s).map (k s))) := by
  refine keeps_attempt hrefl ?_
  intro s a t hrun
  cases hg : g s with
  | error e =>
    rw [hg] at hrun
    exact nomatch hrun
  | ok b =>
    have hb := h s b hg
    rw [hg] at hrun
    rw [Except.ok.inj hrun] at hb
    exact hb

/-- Looking something up changes nothing. -/
theorem keeps_look (hrefl : ∀ s, R s s) (f : σ → Except ε α) :
    Keeps R (attempt (fun s => (f s).map (fun a => (a, s)))) :=
  keeps_attempt_map hrefl fun s _ _ => hrefl s

/-- What two steps keep, both one after the other keep, also when the first one fails. -/
theorem keeps_bind (htrans : ∀ s t u, R s t → R t u → R s u)
    {f : α → Op σ ε β} (hx : Keeps R x) (hf : ∀ a, Keeps R (f a)) : Keeps R (x >>= f) := by
  intro s
  have h := hx s
  rw [exec_bind]
  cases hex : exec x s with
  | mk r t =>
    rw [hex] at h
    cases r with
    | error e => exact h
    | ok a => exact htrans s t _ h (hf a t)

/-- What every round of a loop keeps, the loop keeps. -/
theorem keeps_forM (hrefl : ∀ s, R s s) (htrans : ∀ s t u, R s t → R t u → R s u)
    {f : α → Op σ ε PUnit} (hf : ∀ a, Keeps R (f a)) (l : List α) : Keeps R (l.forM f) := by
  induction l with
  | nil => exact keeps_pure hrefl ()
  | cons a l ih =>
    rw [List.forM_eq_forM, List.forM_cons]
    exact keeps_bind htrans (hf a) fun _ => ih

end Keeps

/-! ## §3. What an operation keeps and returns -/

/-- From a state where `P` holds the operation leaves one where it holds, and what it returns
    satisfies `Q`. -/
def Maintains (P : σ → Prop) (x : Op σ ε α) (Q : α → Prop) : Prop :=
  ∀ s, P s → P (exec x s).2 ∧ ∀ a, (exec x s).1 = .ok a → Q a

/-- The same, of the state alone. -/
abbrev Preserves (P : σ → Prop) (x : Op σ ε α) : Prop := Maintains P x (fun _ => True)

section Maintains

variable {P : σ → Prop} {Q : α → Prop} {R : β → Prop}

/-- A value is returned with what is known about it. -/
theorem maintains_pure (h : Q a) : Maintains P (pure a : Op σ ε α) Q :=
  fun _ hs => ⟨hs, fun _ heq => Except.ok.inj heq ▸ h⟩

/-- An error returns nothing and changes nothing. -/
theorem maintains_throw (e : ε) : Maintains P (throw e : Op σ ε α) Q :=
  fun _ hs => ⟨hs, fun _ heq => absurd heq (by simp)⟩

/-- What is read off a state where `P` holds may be justified from `P`. -/
theorem maintains_reads {f : σ → α} (h : ∀ s, P s → Q (f s)) : Maintains P (reads f : Op σ ε α) Q :=
  fun s hs => ⟨hs, fun _ heq => Except.ok.inj heq ▸ h s hs⟩

/-- A step has to keep `P` and to justify what it returns. -/
theorem maintains_step {f : σ → α × σ} (h : ∀ s, P s → P (f s).2 ∧ Q (f s).1) :
    Maintains P (step f : Op σ ε α) Q :=
  fun s hs => ⟨(h s hs).1, fun _ heq => Except.ok.inj heq ▸ (h s hs).2⟩

/-- Only the successes of an attempt have to be looked at. -/
theorem maintains_attempt
    (h : ∀ s a t, P s → f s = .ok (a, t) → P t ∧ Q a) : Maintains P (attempt f) Q := by
  intro s hs
  cases hf : f s with
  | error e =>
    rw [exec_attempt_error hf]
    exact ⟨hs, fun _ heq => absurd heq (by simp)⟩
  | ok out =>
    obtain ⟨a, t⟩ := out
    rw [exec_attempt_ok hf]
    obtain ⟨ht, ha⟩ := h s a t hs hf
    exact ⟨ht, fun _ heq => Except.ok.inj heq ▸ ha⟩

/-- The second step may rely on what is known about the result of the first. -/
theorem maintains_bind {f : α → Op σ ε β} (hx : Maintains P x Q)
    (hf : ∀ a, Q a → Maintains P (f a) R) : Maintains P (x >>= f) R := by
  intro s hs
  obtain ⟨ht, hq⟩ := hx s hs
  rw [exec_bind]
  cases hex : exec x s with
  | mk result t =>
    rw [hex] at ht hq
    cases result with
    | error e => exact ⟨ht, fun _ heq => absurd heq (by simp)⟩
    | ok a => exact hf a (hq a rfl) t ht

/-- A loop maintains what every round over its list maintains. -/
theorem maintains_forM {f : α → Op σ ε PUnit} {l : List α}
    (hf : ∀ a ∈ l, Maintains P (f a) (fun _ => True)) : Maintains P (l.forM f) (fun _ => True) := by
  induction l with
  | nil => exact maintains_pure trivial
  | cons a l ih =>
    obtain ⟨ha, hl⟩ := List.forall_mem_cons.mp hf
    rw [List.forM_eq_forM, List.forM_cons]
    exact maintains_bind ha fun _ _ => ih hl

/-- Looking something up changes nothing. -/
theorem maintains_look (f : σ → Except ε α) :
    Preserves P (attempt (fun s => (f s).map (fun a => (a, s)))) :=
  fun s hs => ⟨keeps_look (R := fun s t => P s → P t) (fun _ h => h) f s hs, fun _ _ => trivial⟩

/-- Less may be remembered about the result. -/
theorem Maintains.weaken {Q' : α → Prop} (h : Maintains P x Q)
    (hQ : ∀ a, Q a → Q' a) : Maintains P x Q' :=
  fun s hs => ⟨(h s hs).1, fun a ha => hQ a ((h s hs).2 a ha)⟩

/-- What an operation keeps of every state is kept since any earlier one. -/
theorem Keeps.preserves {R : σ → σ → Prop} (htrans : ∀ s t u, R s t → R t u → R s u)
    (h : Keeps R x) (s : σ) : Preserves (R s) x :=
  fun t ht => ⟨htrans s t _ ht (h t), fun _ _ => trivial⟩

/-- An invariant that every step carries over is preserved. -/
theorem preserves_of_keeps (h : Keeps (fun s t => P s → P t) x) : Preserves P x :=
  fun s hs => ⟨h s hs, fun _ _ => trivial⟩

/-- A relation to the first state, maintained from every first state, is kept. -/
theorem keeps_of_maintains {R : σ → σ → Prop} (hrefl : ∀ s, R s s)
    (h : ∀ s, Maintains (R s) x Q) : Keeps R x := fun s => (h s s (hrefl s)).1

end Maintains

end Op

end Panora.Lib
