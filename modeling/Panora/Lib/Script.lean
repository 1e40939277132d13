/-
  Panora.Lib.Script — operations made of calls, and the points where a call may fail.

  An operation that makes one call after another says nothing of the states in between.
  A `Script` is the calls themselves, each chosen by what those before it returned:
  `run` is the operation, and `failing n s` is the state that call number `n` finds,
  which is what is left behind when that call fails.

  Main results:
    * `run_bind` — scripts are put together as their operations are;
    * `failing_bind` — a script of two parts fails in the first, or in the second after
      the whole of the first;
    * `keeps_failing` — what every call keeps is kept wherever the script fails;
    * `Lasts.bind` — how long a fact holds that some of the calls end.

  General: any state, any errors.
-/
import Panora.Lib.Op

namespace Panora.Lib

/-- Calls on `σ`, one after another, that return `α` in the end or fail with `ε`. -/
inductive Script (σ ε α : Type) : Type 1 where
  | done (a : α) : Script σ ε α
  | call {β : Type} (x : Op σ ε β) (next : β → Script σ ε α) : Script σ ε α

namespace Script

variable {σ ε α β : Type}

def bind : Script σ ε α → (α → Script σ ε β) → Script σ ε β
  | done a, f => f a
  | call x next, f => call x (fun b => (next b).bind f)

instance : Monad (Script σ ε) where
  pure := done
  bind := bind

/-- One call. -/
def of (x : Op σ ε α) : Script σ ε α := call x done

/-- The operation the calls make up. -/
def run : Script σ ε α → Op σ ε α
  | done a => pure a
  | call x next => x >>= fun b => (next b).run

/-- The state that call number `n` finds, if it comes to that call. -/
def failing : Script σ ε α → Nat → σ → Option σ
  | done _, _, _ => none
  | call _ _, 0, s => some s
  | call x next, n + 1, s =>
    match Op.exec x s with
    | (.ok b, t) => (next b).failing n t
    | (.error _, _) => none

/-- How many calls there are, where all succeed. -/
def calls : Script σ ε α → σ → Nat
  | done _, _ => 0
  | call x next, s =>
    match Op.exec x s with
    | (.ok b, t) => (next b).calls t + 1
    | (.error _, _) => 0

/-! ## §1. The operation -/

@[simp] theorem run_pure (a : α) : (pure a : Script σ ε α).run = pure a := rfl

@[simp] theorem run_of (x : Op σ ε α) : (of x).run = x := bind_pure x

/-- Two scripts one after the other are run one after the other. -/
theorem run_bind (p : Script σ ε α) (f : α → Script σ ε β) :
    (p >>= f).run = p.run >>= fun a => (f a).run := by
  show (p.bind f).run = _
  induction p with
  | done a => exact (pure_bind a fun a => (f a).run).symm
  | call x next ih =>
    show (x >>= fun b => ((next b).bind f).run) = (x >>= fun b => (next b).run) >>= _
    rw [bind_assoc]
    exact congrArg (x >>= ·) (funext ih)

variable {x : Op σ ε Unit}

/-- A call that is made where it does something. -/
theorem run_when {c : Bool} (h : c = false → x = pure ()) :
    (if c then of x else pure () : Script σ ε Unit).run = x := by
  cases c with
  | true => exact run_of x
  | false => exact (h rfl).symm

theorem run_forM (f : α → Script σ ε PUnit) (l : List α) :
    (l.forM f).run = l.forM (fun a => (f a).run) := by
  induction l with
  | nil => rfl
  | cons a l ih =>
    rw [List.forM_eq_forM, List.forM_cons, run_bind, List.forM_eq_forM, List.forM_cons]
    exact congrArg ((f a).run >>= ·) (funext fun _ => ih)

/-! ## §2. Where it fails -/

variable {p : Script σ ε α} {f : α → Script σ ε β} {n : Nat} {s s' t : σ} {a : α}

/-- A single call is the first one, and finds the state as it is. -/
theorem failing_of (x : Op σ ε α) : (of x).failing n s = some s' ↔ n = 0 ∧ s' = s := by
  cases n with
  | zero =>
    show some s = some s' ↔ _
    rw [Option.some.injEq]
    exact ⟨fun h => ⟨rfl, h.symm⟩, fun h => h.2.symm⟩
  | succ n =>
    simp only [of, failing]
    cases hx : Op.exec x s with
    | mk r t => cases r <;> simp

theorem calls_of {x : Op σ ε α} (h : Op.exec x s = (.ok a, t)) : (of x).calls s = 1 := by
  simp only [of, calls, h]

/-- **A script of two parts** fails in the first part, or in the second when all of the
    first is done. -/
theorem failing_bind (h : (p >>= f).failing n s = some s') :
    p.failing n s = some s' ∨ ∃ a t m, Op.exec p.run s = (.ok a, t) ∧ n = p.calls s + m ∧
      (f a).failing m t = some s' := by
  change (p.bind f).failing n s = some s' at h
  induction p generalizing n s with
  | done a => exact .inr ⟨a, s, n, rfl, (Nat.zero_add n).symm, h⟩
  | call x next ih =>
    cases n with
    | zero => exact .inl h
    | succ n =>
      simp only [bind, failing] at h
      cases hx : Op.exec x s with
      | mk r t =>
        rw [hx] at h
        cases r with
        | error e => cases h
        | ok b =>
          rcases ih b h with hfirst | ⟨a, u, m, hrun, hn, hrest⟩
          · refine .inl ?_
            simp only [failing, hx]
            exact hfirst
          · refine .inr ⟨a, u, m, ?_, ?_, hrest⟩
            · show Op.exec (x >>= fun b => (next b).run) s = _
              rw [Op.exec_bind_ok hx]
              exact hrun
            · simp only [calls, hx]
              omega

/-- A script that can be run to its end fails at none but its own calls. -/
theorem failing_lt (hrun : Op.exec p.run s = (.ok a, t)) (h : p.failing n s = some s') :
    n < p.calls s := by
  induction p generalizing n s with
  | done b => exact absurd h (by simp [failing])
  | call x next ih =>
    have hrun : Op.exec (x >>= fun b => (next b).run) s = (.ok a, t) := hrun
    obtain ⟨b, u, hx, hnext⟩ := Op.exec_bind_eq_ok.mp hrun
    simp only [calls, hx]
    cases n with
    | zero => exact Nat.succ_pos _
    | succ n =>
      simp only [failing, hx] at h
      exact Nat.succ_lt_succ (ih b hnext h)

/-- The calls of two parts add up. -/
theorem calls_bind (hrun : Op.exec p.run s = (.ok a, t)) :
    (p >>= f).calls s = p.calls s + (f a).calls t := by
  show (p.bind f).calls s = _
  induction p generalizing s with
  | done b =>
    cases hrun
    exact (Nat.zero_add _).symm
  | call x next ih =>
    have hrun : Op.exec (x >>= fun b => (next b).run) s = (.ok a, t) := hrun
    obtain ⟨b, u, hx, hnext⟩ := Op.exec_bind_eq_ok.mp hrun
    simp only [bind, calls, hx, ih b hnext]
    omega

/-! ## §3. What every call keeps -/

/-- Every call of the script, whatever the ones before it return, keeps `R`. -/
def Each (R : σ → σ → Prop) : Script σ ε α → Prop
  | done _ => True
  | call x next => Op.Keeps R x ∧ ∀ b, (next b).Each R

section Each

variable {R : σ → σ → Prop}

theorem each_of {x : Op σ ε α} (h : Op.Keeps R x) : (of x).Each R := ⟨h, fun _ => trivial⟩

theorem each_when {c : Bool} (h : Op.Keeps R x) :
    (if c then of x else pure () : Script σ ε Unit).Each R := by
  cases c with
  | true => exact each_of h
  | false => exact trivial

/-- What every call of two scripts keeps, every call of both together keeps. -/
theorem each_bind (hp : p.Each R) (hf : ∀ a, (f a).Each R) : (p >>= f).Each R := by
  show (p.bind f).Each R
  induction p with
  | done a => exact hf a
  | call x next ih => exact ⟨hp.1, fun b => ih b (hp.2 b)⟩

/-- What every call of each round keeps, every call of a loop keeps. -/
theorem each_forM {f : α → Script σ ε PUnit} (hf : ∀ a, (f a).Each R) (l : List α) :
    (l.forM f).Each R := by
  induction l with
  | nil => exact trivial
  | cons a l ih =>
    rw [List.forM_eq_forM, List.forM_cons]
    exact each_bind (hf a) fun _ => ih

/-- What every call keeps, the whole run keeps. -/
theorem keeps_run (hrefl : ∀ s, R s s) (htrans : ∀ s t u, R s t → R t u → R s u)
    (hp : p.Each R) : Op.Keeps R p.run := by
  induction p with
  | done a => exact Op.keeps_pure hrefl a
  | call x next ih => exact Op.keeps_bind htrans hp.1 fun b => ih b (hp.2 b)

/-- **What every call keeps** is kept wherever the script fails. -/
theorem keeps_failing (hrefl : ∀ s, R s s) (htrans : ∀ s t u, R s t → R t u → R s u)
    (hp : p.Each R) (h : p.failing n s = some s') : R s s' := by
  induction p generalizing n s with
  | done a => exact absurd h (by simp [failing])
  | call x next ih =>
    cases n with
    | zero =>
      have hsame : s = s' := Option.some.inj h
      rw [← hsame]
      exact hrefl s
    | succ n =>
      have hkeeps := hp.1 s
      simp only [failing] at h
      cases hx : Op.exec x s with
      | mk r t =>
        rw [hx] at h hkeeps
        cases r with
        | error e => cases h
        | ok b => exact htrans s t s' hkeeps (ih b (hp.2 b) h)

end Each

/-! ## §4. A fact that a call ends -/

/-- With a mark for each call: the fact holds where a call fails exactly when it held before
    and no call up to that one is marked. -/
def Meanwhile (P : σ → Prop) (p : Script σ ε α) (s : σ) (ends : List Bool) : Prop :=
  ∀ n s', p.failing n s = some s' → (P s' ↔ P s ∧ true ∉ ends.take n)

/-- The script runs to its end, with one call for each mark, and the same is so there. -/
structure Lasts (P : σ → Prop) (p : Script σ ε α) (s : σ) (a : α) (t : σ) (ends : List Bool) :
    Prop where
  run : Op.exec p.run s = (.ok a, t)
  calls : p.calls s = ends.length
  after : P t ↔ P s ∧ true ∉ ends
  meanwhile : p.Meanwhile P s ends

section Lasts

variable {P : σ → Prop} {u : σ} {b : β} {ends ends' : List Bool}

theorem lasts_pure (a : α) : Lasts P (pure a : Script σ ε α) s a s [] :=
  ⟨rfl, rfl, by simp, fun n s' h => absurd h (by simp [failing, pure])⟩

/-- One call, which is marked if it ends the fact. -/
theorem lasts_of {x : Op σ ε α} {mark : Bool} (hx : Op.exec x s = (.ok a, t))
    (hP : P t ↔ P s ∧ mark = false) : Lasts P (of x) s a t [mark] := by
  refine ⟨by rw [run_of]; exact hx, calls_of hx, by simpa using hP, fun n s' h => ?_⟩
  obtain ⟨rfl, rfl⟩ := (failing_of _).mp h
  simp

theorem lasts_when {c : Bool} (h : c = false → x = pure ()) (hx : Op.exec x s = (.ok (), t))
    (hP : P t ↔ P s) : Lasts P (if c then of x else pure () : Script σ ε Unit) s () t
      (List.replicate (if c then 1 else 0) false) := by
  cases c with
  | true => exact lasts_of hx (by simpa using hP)
  | false =>
    rw [h rfl] at hx
    cases hx
    exact lasts_pure ()

/-- A script that lasts may be followed by one that is cut short. -/
theorem Lasts.meanwhile_bind (hp : Lasts P p s a t ends) (hf : (f a).Meanwhile P t ends') :
    (p >>= f).Meanwhile P s (ends ++ ends') := by
  intro n s' h
  rcases failing_bind h with hfirst | ⟨a', t', m, hrun, hn, hrest⟩
  · have hlt := failing_lt hp.run hfirst
    rw [hp.calls] at hlt
    rw [hp.meanwhile n s' hfirst, List.take_append_of_le_length (Nat.le_of_lt hlt)]
  · cases hp.run.symm.trans hrun
    rw [hf m s' hrest, hp.after, hn, hp.calls, List.take_length_add_append, List.mem_append,
      not_or, and_assoc]

/-- **A script of two parts** has the marks of the one and then of the other. -/
theorem Lasts.bind (hp : Lasts P p s a t ends) (hf : Lasts P (f a) t b u ends') :
    Lasts P (p >>= f) s b u (ends ++ ends') where
  run := by
    rw [run_bind, Op.exec_bind_ok hp.run]
    exact hf.run
  calls := by rw [calls_bind hp.run, hp.calls, hf.calls, List.length_append]
  after := by rw [hf.after, hp.after, List.mem_append, not_or, and_assoc]
  meanwhile := hp.meanwhile_bind hf.meanwhile

end Lasts

end Script

end Panora.Lib
