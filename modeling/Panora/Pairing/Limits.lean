/-
  Panora.Pairing.Limits — what a pairing window allows.

  The window counts attempts and knows whether it is closed or expired; the order of the
  messages lives in each session.  A session holds the window while it runs, so sessions
  come one after another, each with whatever calls, in whatever order, at whatever times.

  Main results:
    * `Inviter.call_spec`      — what one call can do to a session and its window;
    * `Inviter.serve_spec`     — what a whole session can do to its window;
    * `pairing_window_limits`  — what any run of sessions can do.
-/
import Panora.Pairing.Protocol

namespace Panora.Pairing

open Panora.Group

/-! ## §1. Sessions -/

/-- What is done in a session. -/
inductive Call where
  | commit (msg : PairMessage) (drawn : Block)
  | reveal (msg : PairMessage)
  | join (msg : PairMessage)
  | approve (group : GroupState) (now : Int)
  | reject

/-- What became of a call. -/
inductive Answer where
  | done
  /-- A device was admitted, by this roster. -/
  | admitted (roster : Roster)
  | failed (e : Error)
  deriving DecidableEq

variable (C : PairCrypto)

/-- The answer to a call that admits nobody. -/
def answerOf {α : Type} : Except Error α → Answer
  | .ok _ => .done
  | .error e => .failed e

/-- One call. -/
def Inviter.call (i : Inviter) : Call → Answer × Inviter
  | .commit msg drawn => (answerOf (i.onCommit C msg drawn).1, (i.onCommit C msg drawn).2)
  | .reveal msg => (answerOf (i.onReveal C msg).1, (i.onReveal C msg).2)
  | .join msg => (answerOf (i.onJoin C msg).1, (i.onJoin C msg).2)
  | .approve group now =>
    match i.approve C group now with
    | (.ok (_, roster), i, _) => (.admitted roster, i)
    | (.error e, i, _) => (.failed e, i)
  | .reject => (.done, i.reject.2)

/-- The calls of a session, one after another. -/
def Inviter.serve (i : Inviter) : List Call → List Answer × Inviter
  | [] => ([], i)
  | c :: calls =>
    let (answer, i) := i.call C c
    let (answers, i) := i.serve calls
    (answer :: answers, i)

/-- The devices admitted. -/
def admissions (answers : List Answer) : List Roster :=
  answers.filterMap (fun a => match a with
    | .admitted roster => some roster
    | _ => none)

/-- A session: who answers, with which group, when it starts, and what is done in it. -/
structure Visit where
  identity : DeviceIdentity
  group : GroupState
  now : Int
  calls : List Call

/-- Run a session; `none` if it does not get past the opening step. -/
def Visit.run (v : Visit) (w : PairingWindow) : Option (List Answer) × PairingWindow :=
  match Inviter.new C v.identity v.group w v.now with
  | .error _ => (none, w)
  | .ok i => (some (i.serve C v.calls).1, (i.serve C v.calls).2.window)

/-- What happens to a window. -/
inductive Happening where
  | visit (v : Visit)
  /-- The user cancels. -/
  | close

/-- A run: what became of each session, and the window after it. -/
def windowRun (w : PairingWindow) : List Happening → List (Option (List Answer)) × PairingWindow
  | [] => ([], w)
  | .visit v :: rest =>
    let (outcome, w) := v.run C w
    let (outcomes, w) := windowRun w rest
    (outcome :: outcomes, w)
  | .close :: rest => windowRun w.close rest

/-! ## §2. One call -/

variable {C}

/-- A call that admits nobody leaves the window alone; if it fails the session is over,
    and one that is over stays so. -/
structure Inviter.Passes (i : Inviter) (answer : Answer) (i' : Inviter) : Prop where
  nobody : ∀ roster, answer ≠ .admitted roster
  window : i'.window = i.window
  failed : ∀ e, answer = .failed e → i'.state = none
  spent : i.state = none → i'.state = none

/-- A call that admits a device closes the window and ends the session. -/
structure Inviter.Admits (i : Inviter) (answer : Answer) (i' : Inviter) : Prop where
  admitted : ∃ roster, answer = .admitted roster
  running : i.state ≠ none
  window : i'.window = i.window.close
  ended : i'.state = none

/-- A call that fails takes the state with it. -/
theorem Inviter.passes_failed (i : Inviter) (e : Error) :
    i.Passes (.failed e) { i with state := none } where
  nobody _ h := nomatch h
  window := rfl
  failed _ _ := rfl
  spent _ := rfl

/-- A message that is taken in changes the state only. -/
theorem Inviter.passes_done {i : Inviter} (h : i.state ≠ none) (s : InviterState) :
    i.Passes .done { i with state := some s } where
  nobody _ h := nomatch h
  window := rfl
  failed _ h := nomatch h
  spent hnone := absurd hnone h

/-- **One call** passes or admits a device. -/
theorem Inviter.call_spec (i : Inviter) (c : Call) :
    i.Passes (i.call C c).1 (i.call C c).2 ∨ i.Admits (i.call C c).1 (i.call C c).2 := by
  cases c with
  | commit msg drawn =>
    left
    show i.Passes (answerOf (i.onCommit C msg drawn).1) (i.onCommit C msg drawn).2
    rcases i.onCommit_spec (C := C) msg drawn with ⟨e, h⟩ | ⟨_, _, _, _, -, hstate, -, h⟩
    · rw [h]
      exact i.passes_failed e
    · rw [h]
      exact passes_done (by simp [hstate]) _
  | reveal msg =>
    left
    show i.Passes (answerOf (i.onReveal C msg).1) (i.onReveal C msg).2
    rcases i.onReveal_spec (C := C) msg with ⟨e, h⟩ | ⟨_, _, _, _, -, hstate, -, h⟩
    · rw [h]
      exact i.passes_failed e
    · rw [h]
      exact passes_done (by simp [hstate]) _
  | join msg =>
    left
    show i.Passes (answerOf (i.onJoin C msg).1) (i.onJoin C msg).2
    rcases i.onJoin_spec (C := C) msg with ⟨e, h⟩ | ⟨_, _, _, -, hstate, -, h⟩
    · rw [h]
      exact i.passes_failed e
    · rw [h]
      exact passes_done (by simp [hstate]) _
  | approve group now =>
    rcases i.approve_spec (C := C) group now with
      ⟨e, group', h⟩ | ⟨_, _, roster, _, _, hstate, -, -, -, -, h⟩
    · have hcall : i.call C (.approve group now) = (.failed e, { i with state := none }) := by
        simp only [call, h]
      rw [hcall]
      exact Or.inl (i.passes_failed e)
    · have hcall : i.call C (.approve group now)
          = (.admitted roster, { i with state := none, window := i.window.close }) := by
        simp only [call, h]
      rw [hcall]
      exact Or.inr ⟨⟨roster, rfl⟩, by simp [hstate], rfl, rfl⟩
  | reject =>
    left
    exact ⟨fun _ h => (nomatch h), rfl, fun _ _ => rfl, fun _ => rfl⟩

/-! ## §3. One session -/

theorem admissions_cons_of_passes {i i' : Inviter} {answer : Answer}
    (h : i.Passes answer i') (answers : List Answer) :
    admissions (answer :: answers) = admissions answers := by
  cases answer with
  | done => rfl
  | failed e => rfl
  | admitted roster => exact absurd rfl (h.nobody roster)

/-- A session that is over admits nobody and leaves the window alone. -/
theorem Inviter.serve_spent :
    ∀ (calls : List Call) {i : Inviter}, i.state = none →
      admissions (i.serve C calls).1 = [] ∧ (i.serve C calls).2.window = i.window
  | [], _, _ => ⟨rfl, rfl⟩
  | c :: calls, i, h => by
    rcases i.call_spec (C := C) c with hpass | hadmit
    · obtain ⟨hnobody, hwindow⟩ := serve_spent calls (hpass.spent h)
      exact ⟨(admissions_cons_of_passes hpass _).trans hnobody, hwindow.trans hpass.window⟩
    · exact absurd h hadmit.running

/-- **One session**: it admits nobody and leaves the window alone, or it admits one
    device and closes the window. -/
theorem Inviter.serve_spec :
    ∀ (calls : List Call) (i : Inviter),
      (admissions (i.serve C calls).1 = [] ∧ (i.serve C calls).2.window = i.window)
        ∨ ((admissions (i.serve C calls).1).length = 1
          ∧ (i.serve C calls).2.window = i.window.close)
  | [], _ => Or.inl ⟨rfl, rfl⟩
  | c :: calls, i => by
    rcases i.call_spec (C := C) c with hpass | hadmit
    · have hsame : admissions (i.serve C (c :: calls)).1
          = admissions ((i.call C c).2.serve C calls).1 := admissions_cons_of_passes hpass _
      rw [hsame, ← hpass.window]
      exact serve_spec calls (i.call C c).2
    · -- the rest of the session admits nobody
      right
      obtain ⟨hnobody, hwindow⟩ := serve_spent calls hadmit.ended
      obtain ⟨roster, hroster⟩ := hadmit.admitted
      refine ⟨?_, hwindow.trans hadmit.window⟩
      show (admissions ((i.call C c).1 :: ((i.call C c).2.serve C calls).1)).length = 1
      rw [hroster]
      show (roster :: admissions ((i.call C c).2.serve C calls).1).length = 1
      rw [hnobody]
      rfl

/-- **After an error a session admits nobody.** -/
theorem Inviter.serve_failed :
    ∀ {calls : List Call} {i : Inviter} {before after : List Answer} {e : Error},
      (i.serve C calls).1 = before ++ .failed e :: after → admissions after = []
  | [], _, before, _, _, h => by
    have h : [] = before ++ .failed _ :: _ := h
    exact absurd h (by simp)
  | c :: calls, i, [], after, e, h => by
    have h : (i.call C c).1 :: ((i.call C c).2.serve C calls).1 = .failed e :: after := h
    injection h with hfirst hrest
    rcases i.call_spec (C := C) c with hpass | hadmit
    · rw [← hrest]
      exact (serve_spent _ (hpass.failed e hfirst)).1
    · obtain ⟨roster, hroster⟩ := hadmit.admitted
      exact absurd (hroster.symm.trans hfirst) (by simp)
  | c :: calls, i, a :: before, after, e, h => by
    have h : (i.call C c).1 :: ((i.call C c).2.serve C calls).1
        = a :: (before ++ .failed e :: after) := h
    injection h with _ hrest
    exact serve_failed hrest

/-! ## §4. Any run of sessions -/

/-- What a session that starts does to its window. -/
theorem new_eq_ok {identity : DeviceIdentity} {group : GroupState} {w : PairingWindow}
    {now : Int} {i : Inviter} (h : Inviter.new C identity group w now = .ok i) :
    w.closed = false ∧ now < w.expiresAt ∧ w.attempts < w.maxAttempts
      ∧ i.window = { w with attempts := w.attempts + 1 } := by
  unfold Inviter.new at h
  obtain ⟨isMember, -, h⟩ := Lib.Fallible.bind_ok_iff.mp h
  split at h
  next => cases h
  next =>
  split at h
  next => cases h
  next =>
    obtain ⟨begun, hbegin, h⟩ := Lib.Fallible.bind_ok_iff.mp h
    obtain ⟨groupId, -, h⟩ := Lib.Fallible.bind_ok_iff.mp h
    cases h
    obtain ⟨hopen, hnow, hleft, rfl⟩ := PairingWindow.begin_eq_ok.mp hbegin
    exact ⟨hopen, hnow, hleft, rfl⟩

/-- The sessions a window still allows. -/
def PairingWindow.allowance (w : PairingWindow) : Nat := if w.closed then 0 else w.attemptsLeft

/-- What a session leaves of a window. -/
inductive Visit.Leaves (w : PairingWindow) : Option (List Answer) → PairingWindow → Prop where
  | refused : Leaves w none w
  | nobody {answers : List Answer} (hopen : w.closed = false) (hleft : w.attempts < w.maxAttempts)
      (hnobody : admissions answers = []) :
      Leaves w (some answers) { w with attempts := w.attempts + 1 }
  | admitted {answers : List Answer} (hopen : w.closed = false)
      (hleft : w.attempts < w.maxAttempts) (hone : (admissions answers).length = 1) :
      Leaves w (some answers) ({ w with attempts := w.attempts + 1 } : PairingWindow).close

theorem Visit.run_leaves (v : Visit) (w : PairingWindow) :
    Visit.Leaves w (v.run C w).1 (v.run C w).2 := by
  unfold Visit.run
  cases hnew : Inviter.new C v.identity v.group w v.now with
  | error e => exact .refused
  | ok i =>
    obtain ⟨hopen, -, hleft, hwindow⟩ := new_eq_ok hnew
    rcases i.serve_spec (C := C) v.calls with ⟨hnobody, hafter⟩ | ⟨hone, hafter⟩
    · show Visit.Leaves w (some _) (i.serve C v.calls).2.window
      rw [hafter, hwindow]
      exact .nobody hopen hleft hnobody
    · show Visit.Leaves w (some _) (i.serve C v.calls).2.window
      rw [hafter, hwindow]
      exact .admitted hopen hleft hone

/-- The devices admitted in a run. -/
def allAdmissions (outcomes : List (Option (List Answer))) : List Roster :=
  outcomes.flatMap (fun o => admissions (o.getD []))

/-- The sessions that got past the opening step. -/
def opened (outcomes : List (Option (List Answer))) : List (Option (List Answer)) :=
  outcomes.filter Option.isSome

/-- **A run is bounded by what the window allows**: by the attempts left, and by one
    admission while it is not closed. -/
theorem windowRun_bounds :
    ∀ (hs : List Happening) (w : PairingWindow),
      (opened (windowRun C w hs).1).length ≤ w.allowance
        ∧ (allAdmissions (windowRun C w hs).1).length ≤ (if w.closed then 0 else 1)
  | [], w => ⟨Nat.zero_le _, Nat.zero_le _⟩
  | .close :: hs, w => by
    obtain ⟨hopened, hadmitted⟩ := windowRun_bounds hs w.close
    exact ⟨le_trans hopened (Nat.zero_le _), le_trans hadmitted (Nat.zero_le _)⟩
  | .visit v :: hs, w => by
    have hleaves := v.run_leaves (C := C) w
    show (opened ((v.run C w).1 :: (windowRun C (v.run C w).2 hs).1)).length ≤ _
      ∧ (allAdmissions ((v.run C w).1 :: (windowRun C (v.run C w).2 hs).1)).length ≤ _
    generalize (v.run C w).1 = outcome at hleaves
    generalize (v.run C w).2 = w' at hleaves
    obtain ⟨hopened, hadmitted⟩ := windowRun_bounds hs w'
    cases hleaves with
    | refused => exact ⟨hopened, hadmitted⟩
    | @nobody answers hopen hleft hnobody =>
      -- one attempt less, and the window stays as it was
      rw [PairingWindow.allowance, if_neg (by simp [hopen])] at hopened
      rw [PairingWindow.allowance, if_neg (by simp [hopen])]
      rw [if_neg (by simp [hopen])] at hadmitted
      rw [if_neg (by simp [hopen])]
      constructor
      · show (opened (windowRun C _ hs).1).length + 1 ≤ w.maxAttempts - w.attempts
        have : (opened (windowRun C _ hs).1).length ≤ w.maxAttempts - (w.attempts + 1) := hopened
        omega
      · show (admissions answers ++ allAdmissions (windowRun C _ hs).1).length ≤ 1
        rw [hnobody]
        exact hadmitted
    | @admitted answers hopen hleft hone =>
      -- the window is closed, so nothing more comes
      rw [PairingWindow.allowance, if_neg (by simp [hopen])]
      rw [if_neg (by simp [hopen])]
      have hnoneOpened := Nat.le_zero.mp hopened
      have hnoneAdmitted := Nat.le_zero.mp hadmitted
      constructor
      · show (opened (windowRun C _ hs).1).length + 1 ≤ w.maxAttempts - w.attempts
        rw [hnoneOpened]
        omega
      · show (admissions answers ++ allAdmissions (windowRun C _ hs).1).length ≤ 1
        rw [List.length_append, hnoneAdmitted, hone]

/-- The sessions of a run are run on the windows the ones before them left. -/
theorem windowRun_mem :
    ∀ (hs : List Happening) {w : PairingWindow} {answers : List Answer},
      some answers ∈ (windowRun C w hs).1 →
      ∃ (i : Inviter) (calls : List Call), answers = (i.serve C calls).1
  | [], _, _, h => absurd h (by simp [windowRun])
  | .close :: hs, w, _, h => windowRun_mem hs h
  | .visit v :: hs, w, answers, h => by
    rcases List.mem_cons.mp h with hfirst | hrest
    · cases hnew : Inviter.new C v.identity v.group w v.now with
      | error e =>
        rw [hnew] at hfirst
        cases hfirst
      | ok i =>
        rw [hnew] at hfirst
        injection hfirst with hfirst
        exact ⟨i, v.calls, hfirst⟩
    · exact windowRun_mem hs hrest

/-- The deadline of a window never moves. -/
theorem windowRun_expiresAt :
    ∀ (hs : List Happening) (w : PairingWindow), (windowRun C w hs).2.expiresAt = w.expiresAt
  | [], _ => rfl
  | .close :: hs, w => windowRun_expiresAt hs w.close
  | .visit v :: hs, w => by
    have hleaves := v.run_leaves (C := C) w
    have hsame : (v.run C w).2.expiresAt = w.expiresAt := by
      generalize (v.run C w).1 = outcome at hleaves
      generalize (v.run C w).2 = w' at hleaves
      cases hleaves with
      | refused => rfl
      | nobody _ _ _ => rfl
      | admitted _ _ _ => rfl
    exact (windowRun_expiresAt hs (v.run C w).2).trans hsame

/-- **The limits of a pairing window.**  For every window and every run of sessions,
    each with any calls in any order at any times: at most as many sessions as the window
    allows get past the opening step; at most one device is admitted; a session that
    opens after the expiry, or once the window is closed, does not get past the opening
    step; and a session in which a call failed admits nobody after it. -/
theorem pairing_window_limits (C : PairCrypto) (w : PairingWindow) (hs : List Happening) :
    (opened (windowRun C w hs).1).length ≤ w.maxAttempts
      ∧ (allAdmissions (windowRun C w hs).1).length ≤ 1
      ∧ (∀ before v after, hs = before ++ .visit v :: after →
          w.expiresAt ≤ v.now ∨ (windowRun C w before).2.closed = true →
          (v.run C (windowRun C w before).2).1 = none)
      ∧ (∀ answers before e after, some answers ∈ (windowRun C w hs).1 →
          answers = before ++ .failed e :: after → admissions after = []) := by
  obtain ⟨hopened, hadmitted⟩ := windowRun_bounds (C := C) hs w
  refine ⟨?_, ?_, ?_, ?_⟩
  · have hle : w.allowance ≤ w.maxAttempts := by
      unfold PairingWindow.allowance PairingWindow.attemptsLeft
      split
      · omega
      · omega
    omega
  · refine le_trans hadmitted ?_
    split
    · omega
    · omega
  · intro before v after _ hlate
    unfold Visit.run
    cases hnew : Inviter.new C v.identity v.group (windowRun C w before).2 v.now with
    | error e => rfl
    | ok i =>
      exfalso
      obtain ⟨hopen, hnow, -, -⟩ := new_eq_ok hnew
      rw [windowRun_expiresAt] at hnow
      rcases hlate with hexpired | hclosed
      · omega
      · rw [hopen] at hclosed
        cases hclosed
  · intro answers before e after hmem hsplit
    obtain ⟨i, calls, rfl⟩ := windowRun_mem hs hmem
    exact Inviter.serve_failed hsplit

end Panora.Pairing
