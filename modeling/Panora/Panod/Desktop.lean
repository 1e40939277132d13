/-
  Panora.Panod.Desktop — the display, its watchers, and the timers that clear a selection.

  A recall puts an entry on a selection and may start a task that clears the selection later
  (`Daemon::recall`, `schedule_clipboard_clear`).  Meanwhile other applications take
  selections over, exit and empty them; each backend reports some of that to the daemon
  (`backend/x11.rs`, `backend/wayland.rs`, `backend/bridge.rs`), which handles one event after
  another (`run`, `handle_event`).  Requests, tasks and events interleave at their awaits only.

  An event says which selection it is about; who emptied the selection is carried along to
  state what the flag `clearing_deliberately` is for, and no step reads it.

  Main results:
    * `clears_own_recall_iff` — when the delayed clear of a recall finds that recall's offer;
    * `hides_only_itself_iff` — when a deliberate clear hides no event but its own.
-/
import Panora.Lib.Trace
import Panora.Model

namespace Panora.Panod

open Lib Lib.Trace

/-! ## §1. Settings and the daemon's view of the live clipboard -/

inductive Backend where
  | x11
  | wayland
  | bridge
  deriving DecidableEq, Repr

/-- `history.persist_on_wayland`. -/
inductive PersistOnWayland where
  | auto
  | always
  | never
  deriving DecidableEq, Repr

/-- What a running daemon has found of its display, and the settings that matter here. -/
structure Setting where
  backend : Backend
  /-- The compositor's data-control protocol has the PRIMARY selection. -/
  compositorPrimary : Bool
  /-- The compositor keeps the content of a client that exits. -/
  keepsSelection : Bool
  persistOnWayland : PersistOnWayland
  /-- `privacy.clear_clipboard_after_seconds`. -/
  clearAfterSeconds : Nat
  deriving DecidableEq, Repr

section

variable (c : Setting)

/-- `capabilities().primary`. -/
def Setting.primary : Bool :=
  match c.backend with
  | .x11 => true
  | .wayland => c.compositorPrimary
  | .bridge => false

/-- The selections an offer can be put on. -/
def Setting.supports : Selection → Bool
  | .clipboard => true
  | .primary => c.primary

/-- Whether an empty clipboard after the owner left should be refilled. -/
def Setting.persistenceEnabled : Bool :=
  if c.backend ≠ .wayland then true
  else
    match c.persistOnWayland with
    | .always => true
    | .never => false
    | .auto => !c.keepsSelection

/-- Whether `ClipboardBackend::clear` is there at all; the bridge answers with the default
    error. -/
def Backend.clears : Backend → Bool
  | .bridge => false
  | _ => true

/-- What the daemon knows of the live clipboard. -/
structure Live where
  /-- `capture_generation`. -/
  generation : Nat
  /-- `clearing_deliberately`. -/
  clearing : Bool
  /-- `last_stored`, by row id. -/
  lastStored : Selection → Option Nat

namespace Live

def bump (l : Live) : Live := { l with generation := l.generation + 1 }

/-- `remember_last_stored`. -/
def remember (l : Live) (selection : Selection) (id : Nat) : Live :=
  { l with lastStored := Function.update l.lastStored selection (some id) }

/-- `forget_last_stored`. -/
def forget (l : Live) (selection : Selection) : Live :=
  { l with lastStored := Function.update l.lastStored selection none }

/-- The id `persist_after_owner_gone` looks up.  PRIMARY is left alone. -/
def persistAfterOwnerGone (l : Live) (selection : Selection) : Option Nat × Live :=
  if selection ≠ .clipboard then (none, l)
  else (l.lastStored selection, l.forget selection)

/-- `handle_event` for a selection that has become empty: the id to offer again, if any. -/
def ownerGone (persistenceEnabled : Bool) (l : Live) (selection : Selection) :
    Option Nat × Live :=
  let l := l.bump
  if l.clearing then (none, { l with clearing := false }.forget selection)
  else if persistenceEnabled then l.persistAfterOwnerGone selection
  else (none, l.forget selection)

/-- `handle_event` for a new owner, up to the gates: whatever becomes of the change, it is
    not what was stored last. -/
def changed (l : Live) (selection : Selection) : Live := l.bump.forget selection

@[simp] theorem generation_bump (l : Live) : l.bump.generation = l.generation + 1 := rfl

@[simp] theorem clearing_bump (l : Live) : l.bump.clearing = l.clearing := rfl

@[simp] theorem generation_changed (l : Live) (selection : Selection) :
    (l.changed selection).generation = l.generation + 1 := rfl

@[simp] theorem clearing_changed (l : Live) (selection : Selection) :
    (l.changed selection).clearing = l.clearing := rfl

/-- Every event is a change of the live clipboard. -/
@[simp] theorem generation_ownerGone (persists : Bool) (l : Live) (selection : Selection) :
    (l.ownerGone persists selection).2.generation = l.generation + 1 := by
  unfold ownerGone persistAfterOwnerGone
  dsimp only
  split
  · rfl
  · split
    · split <;> rfl
    · rfl

/-- The flag does not outlive the next selection that is found empty. -/
@[simp] theorem clearing_ownerGone (persists : Bool) (l : Live) (selection : Selection) :
    (l.ownerGone persists selection).2.clearing = false := by
  unfold ownerGone persistAfterOwnerGone
  dsimp only
  split
  · rfl
  next hclear =>
    have hfalse : l.clearing = false := Bool.eq_false_iff.mpr hclear
    split
    · split <;> exact hfalse
    · exact hfalse

end Live

/-! ## §2. The display and the steps of a run -/

/-- One offer on a selection.  Every offer has its own number. -/
structure Offer where
  number : Nat
  own : Bool
  deriving DecidableEq, Repr

/-- Why a selection was found empty. -/
inductive Cause where
  /-- Its owner exited. -/
  | exit
  /-- A client gave it up. -/
  | emptied
  /-- A delayed clear of the daemon. -/
  | clear
  /-- There was nothing on it when the watch began. -/
  | initial
  deriving DecidableEq, Repr

inductive EventKind where
  | changed
  | ownerGone (cause : Cause)
  deriving DecidableEq, Repr

/-- A task of `schedule_clipboard_clear` that sleeps. -/
structure Timer where
  selection : Selection
  baseline : Nat
  deriving DecidableEq, Repr

structure Desktop where
  /-- What is on each selection. -/
  held : Selection → Option Offer
  /-- Offers made so far. -/
  puts : Nat
  /-- Events of a watched selection that are not handled yet. -/
  channel : Selection → Option (List EventKind)
  live : Live
  /-- Recalls whose offer is on the display and that wait for the answer. -/
  landed : List Selection
  asleep : List Timer
  /-- Clears that tasks wait for. -/
  clears : List Selection

/-- What can happen next. -/
inductive Step where
  /-- Another application takes the selection.  The watcher may miss it: its targets cannot be
      read or are empty, or it repeats the timestamp of the last change; the bridge drops what
      it rejects. -/
  | copied (selection : Selection) (seen : Bool)
  /-- The owner of the selection exits. -/
  | exited (selection : Selection)
  /-- A client gives the selection up. -/
  | emptied (selection : Selection)
  /-- An offer of the daemon that is no recall: an entry offered again or a store with copy. -/
  | offers (selection : Selection)
  /-- The offer of a recall reaches the display. -/
  | recallLands (selection : Selection)
  /-- The recall goes on: its entry is touched, which may fail, and its task started. -/
  | recallResumes (i : Nat) (touched : Bool)
  /-- A task has slept long enough. -/
  | wakes (i : Nat)
  /-- The answer to a clear, and whether the display carried it out (an X server ignores a
      request older than the selection's present owner). -/
  | answered (i : Nat) (ok took : Bool)
  /-- The daemon handles the next event of a selection. -/
  | handled (selection : Selection)
  /-- A capture or a store with copy is remembered. -/
  | remembered (selection : Selection) (id : Nat)
  | wiped
  /-- `record_primary` is switched. -/
  | watchPrimary (on seen : Bool)
  deriving DecidableEq, Repr

variable (d : Desktop)

namespace Desktop

/-- A new offer takes a selection. -/
def place (selection : Selection) (own : Bool) : Desktop :=
  { d with
    held := Function.update d.held selection (some ⟨d.puts, own⟩)
    puts := d.puts + 1 }

/-- Events for the watcher of a selection, if it has one. -/
def tell (selection : Selection) (kinds : List EventKind) : Desktop :=
  { d with
    channel := Function.update d.channel selection ((d.channel selection).map (· ++ kinds)) }

/-- A selection loses its content, and its watcher is told so. -/
def vacate (selection : Selection) (kinds : List EventKind) : Desktop :=
  { d with held := Function.update d.held selection none }.tell selection kinds

end Desktop

/-- What the watcher tells when a client sets a selection to nothing: the X11 watcher skips an
    owner that is `NONE`. -/
def Backend.toldEmptied (cause : Cause) : Backend → List EventKind
  | .wayland => [.ownerGone cause]
  | _ => []

/-- Whether a selection is empty once its owner has exited. -/
def Setting.dropsOnExit : Bool :=
  match c.backend with
  | .x11 => true
  | .wayland => !c.keepsSelection
  | .bridge => false

/-- What a watch reports at its start. -/
def Backend.toldInitially (seen : Bool) : Backend → Option Offer → List EventKind
  | .wayland, none => [.ownerGone .initial]
  | _, none => []
  | _, some offer => if !offer.own && seen then [.changed] else []

namespace Desktop

/-- A client, or the daemon itself, sets a selection to nothing. -/
def empty (selection : Selection) (cause : Cause) : Desktop :=
  if d.held selection = none then d else d.vacate selection (c.backend.toldEmptied cause)

/-- The daemon's own offer; no watcher reports it. -/
def offer (selection : Selection) : Desktop :=
  if c.supports selection then d.place selection true else d

/-- The daemon handles an event. -/
def handle (selection : Selection) : EventKind → Desktop
  | .changed => { d with live := d.live.changed selection }
  | .ownerGone _ => { d with live := (d.live.ownerGone c.persistenceEnabled selection).2 }

/-- A recall after its offer: the generation moves, and a task is started with the generation
    as its baseline. -/
def resume (selection : Selection) (touched : Bool) : Desktop :=
  let live := d.live.bump
  if touched && c.clearAfterSeconds != 0 then
    { d with live, asleep := d.asleep ++ [⟨selection, live.generation⟩] }
  else { d with live }

/-- A task after its sleep. -/
def wake (t : Timer) : Desktop :=
  if d.live.generation ≠ t.baseline then d
  else
    { d with
      live := { d.live with clearing := true }
      clears := d.clears ++ [t.selection] }

/-- A task after the answer to its clear. -/
def finish (selection : Selection) (ok took : Bool) : Desktop :=
  let d := if took && c.backend.clears then d.empty c selection .clear else d
  if ok && c.backend.clears then d else { d with live := { d.live with clearing := false } }

def step : Step → Desktop
  | .copied selection seen =>
    (d.place selection false).tell selection (if seen then [.changed] else [])
  | .exited selection =>
    if c.dropsOnExit && (d.held selection).isSome then d.vacate selection [.ownerGone .exit]
    else d
  | .emptied selection => d.empty c selection .emptied
  | .offers selection => d.offer c selection
  | .recallLands selection =>
    if c.supports selection then { d.offer c selection with landed := d.landed ++ [selection] }
    else d
  | .recallResumes i touched =>
    match d.landed[i]? with
    | none => d
    | some selection => { d with landed := d.landed.eraseIdx i }.resume c selection touched
  | .wakes i =>
    match d.asleep[i]? with
    | none => d
    | some t => { d with asleep := d.asleep.eraseIdx i }.wake t
  | .answered i ok took =>
    match d.clears[i]? with
    | none => d
    | some selection => { d with clears := d.clears.eraseIdx i }.finish c selection ok took
  | .handled selection =>
    match d.channel selection with
    | some (kind :: rest) =>
      { d with channel := Function.update d.channel selection (some rest) }.handle c selection kind
    | _ => d
  | .remembered selection id => { d with live := d.live.remember selection id }
  | .wiped => { d with live := { d.live with lastStored := fun _ => none } }
  | .watchPrimary on seen =>
    if !on then { d with channel := Function.update d.channel .primary none }
    else if c.primary && (d.channel .primary).isNone then
      { d with
        channel := Function.update d.channel .primary
          (some (c.backend.toldInitially seen (d.held .primary))) }
    else d

end Desktop

/-! ## §3. What a step does -/

namespace Desktop

variable (s : Selection) {e : Step}

/-- The steps that move the generation: an event that is handled, a recall that goes on. -/
def Bumps (d : Desktop) : Step → Prop
  | .handled selection => ∃ kind rest, d.channel selection = some (kind :: rest)
  | .recallResumes i _ => ∃ selection, d.landed[i]? = some selection
  | _ => False

/-- A task passes its check and sets the flag. -/
def Starts (d : Desktop) : Step → Prop
  | .wakes i => ∃ t, d.asleep[i]? = some t ∧ t.baseline = d.live.generation
  | _ => False

/-- The flag is taken back: a selection that was found empty is handled, or a clear failed. -/
def Frees (c : Setting) (d : Desktop) : Step → Prop
  | .handled selection => ∃ cause rest, d.channel selection = some (.ownerGone cause :: rest)
  | .answered i ok _ => (∃ selection, d.clears[i]? = some selection) ∧
      (ok && c.backend.clears) = false
  | _ => False

/-- The steps that change what is on a selection. -/
def Touches (c : Setting) (selection : Selection) (d : Desktop) : Step → Prop
  | .copied s _ => s = selection
  | .exited s => s = selection ∧ c.dropsOnExit = true
  | .emptied s => s = selection
  | .offers s => s = selection ∧ c.supports s = true
  | .recallLands s => s = selection ∧ c.supports s = true
  | .answered i _ took => d.clears[i]? = some selection ∧ (took && c.backend.clears) = true
  | _ => False

/-- A selection that is empty, or has the offer made last. -/
def Renewed (d : Desktop) (held : Option Offer) : Prop :=
  held = none ∨ ∃ own, held = some ⟨d.puts, own⟩

theorem update_apply_of {β : Type} (f : Selection → β) (s t : Selection) (v : β) :
    Function.update f s v t = if s = t then v else f t := by
  rw [Function.update_apply]
  exact if_congr eq_comm rfl rfl

@[simp] theorem live_empty (cause : Cause) : (d.empty c s cause).live = d.live := by
  unfold empty
  split <;> rfl

@[simp] theorem puts_empty (cause : Cause) : (d.empty c s cause).puts = d.puts := by
  unfold empty
  split <;> rfl

theorem held_empty (t : Selection) (cause : Cause) :
    (d.empty c s cause).held t = if s = t then none else d.held t := by
  unfold empty
  split
  next hnone =>
    split
    next heq => rw [← heq, hnone]
    · rfl
  · exact update_apply_of d.held s t none

/-- What becomes of the flag, the offers and the generation when a clear has been answered: a
    failed clear takes the flag back, a clear that succeeds leaves it. -/
theorem finish_spec (ok took : Bool) :
    (d.finish c s ok took).live.generation = d.live.generation ∧
      (d.finish c s ok took).live.clearing =
        (if ok && c.backend.clears then d.live.clearing else false) ∧
      (d.finish c s ok took).puts = d.puts ∧
      ∀ t, (d.finish c s ok took).held t =
        if s = t ∧ (took && c.backend.clears) = true then none else d.held t := by
  unfold finish
  dsimp only
  split <;> split <;> simp_all [held_empty]

/-- What a step changes, and what it leaves. -/
structure Stepped (c : Setting) (d : Desktop) (e : Step) (d' : Desktop) : Prop where
  bumps : Bumps d e → d'.live.generation = d.live.generation + 1
  same : ¬ Bumps d e → d'.live.generation = d.live.generation
  starts : Starts d e → d'.live.clearing = true
  frees : Frees c d e → d'.live.clearing = false
  flag : ¬ Starts d e → ¬ Frees c d e → d'.live.clearing = d.live.clearing
  /-- A step that changes a selection empties it or puts a new offer there. -/
  renews : ∀ s, Touches c s d e → Renewed d (d'.held s)
  held : ∀ s, ¬ Touches c s d e → d'.held s = d.held s
  /-- Offers are numbered upwards. -/
  puts : d.puts ≤ d'.puts

/-- A step that does nothing is none of those. -/
theorem stepped_self (hbumps : ¬ Bumps d e) (hstarts : ¬ Starts d e) (hfrees : ¬ Frees c d e)
    (htouches : ∀ s, Touches c s d e → d.held s = none) : Stepped c d e d where
  bumps h := (hbumps h).elim
  same _ := rfl
  starts h := (hstarts h).elim
  frees h := (hfrees h).elim
  flag _ _ := rfl
  renews s h := .inl (htouches s h)
  held _ _ := rfl
  puts := Nat.le_refl _

/-- **What every step does.** -/
theorem stepped (e : Step) : Stepped c d e (d.step c e) := by
  cases e with
  | copied s seen =>
    constructor <;> simp_all [step, Bumps, Starts, Frees, Touches, Renewed, place, tell,
      update_apply_of]
  | exited s =>
    simp only [step]
    split
    · constructor <;> simp_all [Bumps, Starts, Frees, Touches, Renewed, vacate, tell,
        update_apply_of]
    · apply stepped_self <;> simp_all [Bumps, Starts, Frees, Touches]
  | emptied s =>
    constructor <;> simp_all [step, Bumps, Starts, Frees, Touches, Renewed, held_empty]
  | offers s =>
    simp only [step, offer]
    split
    · constructor <;> simp_all [Bumps, Starts, Frees, Touches, Renewed, place, update_apply_of]
    · apply stepped_self <;> simp_all [Bumps, Starts, Frees, Touches]
  | recallLands s =>
    simp only [step, offer]
    split
    · constructor <;> simp_all [Bumps, Starts, Frees, Touches, Renewed, place, update_apply_of]
    · apply stepped_self <;> simp_all [Bumps, Starts, Frees, Touches]
  | recallResumes i touched =>
    simp only [step]
    split
    · apply stepped_self <;> simp_all [Bumps, Starts, Frees, Touches]
    · unfold resume
      dsimp only
      split <;> constructor <;> simp_all [Bumps, Starts, Frees, Touches]
  | wakes i =>
    simp only [step]
    split
    · apply stepped_self <;> simp_all [Bumps, Starts, Frees, Touches]
    · unfold wake
      -- a task that finds another generation ends without a trace
      split
      next hother => constructor <;> simp_all [Bumps, Starts, Frees, Touches, Ne.symm hother]
      · constructor <;> simp_all [Bumps, Starts, Frees, Touches]
  | answered i ok took =>
    simp only [step]
    split
    · apply stepped_self <;> simp_all [Bumps, Starts, Frees, Touches]
    · constructor <;> simp_all [Bumps, Starts, Frees, Touches, Renewed, finish_spec]
  | handled s =>
    simp only [step]
    split
    next kind rest hchannel =>
      cases kind <;> constructor <;> simp_all [handle, Bumps, Starts, Frees, Touches]
    · apply stepped_self <;> simp_all [Bumps, Starts, Frees, Touches]
  | watchPrimary on seen =>
    simp only [step]
    split
    · constructor <;> simp_all [Bumps, Starts, Frees, Touches]
    · split <;> constructor <;> simp_all [Bumps, Starts, Frees, Touches]
  | _ => constructor <;> simp_all [step, Bumps, Starts, Frees, Touches, Live.remember]

end Desktop

/-! ## §4. A deliberate clear hides only itself -/

namespace Desktop

/-- The flag meets an empty selection that no clear of the daemon has emptied. -/
def Swallows : Step → Prop
  | .handled selection => d.live.clearing = true ∧
      ∃ cause rest, d.channel selection = some (.ownerGone cause :: rest) ∧ cause ≠ .clear
  | _ => False

/-- A clear has been answered that no watcher will report. -/
def Silent : Step → Prop
  | .answered i ok took => ∃ selection, d.clears[i]? = some selection ∧
      (d.step c (.answered i ok took)).channel selection = d.channel selection
  | _ => False

/-- No event but a clear's own is taken for it, and the flag is not left set by a clear that
    causes none. -/
def HidesOnlyItself (steps : List Step) : Prop :=
  Never (step c)
    (fun d e => Swallows d e ∨ Silent c d e ∧ (d.step c e).live.clearing = true) d steps

/-- What must not come first once a task has begun to clear: another's empty selection, or the
    answer to a clear that succeeded and that no watcher reports. -/
def Unfit : Step → Prop
  | .handled selection =>
      ∃ cause rest, d.channel selection = some (.ownerGone cause :: rest) ∧ cause ≠ .clear
  | .answered i ok took => (ok && c.backend.clears) = true ∧ Silent c d (.answered i ok took)
  | _ => False

theorem wrong_iff (e : Step) : (Swallows d e ∨ Silent c d e ∧ (d.step c e).live.clearing = true) ↔
      Unfit c d e ∧ d.live.clearing = true := by
  cases e with
  | handled selection =>
    show (_ ∧ _ ∨ False ∧ _) ↔ _
    rw [false_and, or_false]
    exact and_comm
  | answered i ok took =>
    show (False ∨ _) ↔ (_ ∧ _) ∧ _
    rw [false_or]
    constructor
    · rintro ⟨hsilent, hleft⟩
      obtain ⟨selection, hclears, -⟩ := id hsilent
      simp only [step, hclears, (finish_spec c _ selection ok took).2.1] at hleft
      split at hleft
      next hok => exact ⟨⟨hok, hsilent⟩, hleft⟩
      · exact absurd hleft Bool.false_ne_true
    · rintro ⟨⟨hok, hsilent⟩, hflag⟩
      obtain ⟨selection, hclears, -⟩ := id hsilent
      refine ⟨hsilent, ?_⟩
      simp only [step, hclears, (finish_spec c _ selection ok took).2.1, hok, if_true]
      exact hflag
  | _ => exact iff_of_false (fun h => h.elim id And.left) (fun h => h.1)

/-- **A deliberate clear hides only itself exactly when, whenever a task has begun to clear,
    the first that follows of an empty selection handled, a clear failed and a clear ended
    unreported is a failed clear or the empty selection of a clear.** -/
theorem hides_only_itself_iff (c : Setting) (d : Desktop) (hflag : d.live.clearing = false)
    (steps : List Step) :
    HidesOnlyItself c d steps ↔
      ∀ before a since e later, steps = before ++ a :: (since ++ e :: later) →
        Starts (Trace.after (step c) d before) a →
        Trace.Never (step c) (Frees c) (Trace.after (step c) d (before ++ [a])) since →
        ¬ Unfit c (Trace.after (step c) d (before ++ a :: since)) e := by
  have hwrong : (fun d e => Swallows d e ∨ Silent c d e ∧ (d.step c e).live.clearing = true) =
      (fun d e => Unfit c d e ∧ d.live.clearing = true) := by
    funext d e
    exact propext (wrong_iff c d e)
  unfold HidesOnlyItself
  rw [hwrong]
  apply never_latched_iff
  · exact fun d e h => (stepped c d e).starts h
  · exact fun d e h => Bool.eq_false_iff.mp ((stepped c d e).frees h)
  · intro d e hstarts hfrees
    rw [(stepped c d e).flag hstarts hfrees]
  · exact Bool.eq_false_iff.mp hflag

end Desktop

end

namespace Sample

open Desktop

/-- A daemon on X11 that clears the clipboard half a minute after a recall. -/
def onX11 : Setting := ⟨.x11, false, false, .auto, 30⟩

/-- Nothing has been copied yet, and PRIMARY is not recorded. -/
def idle : Desktop where
  held _ := none
  puts := 0
  channel s := if s = .clipboard then some [] else none
  live := ⟨0, false, fun _ => none⟩
  landed := []
  asleep := []
  clears := []

/-- An entry is recalled and cleared again; then text is copied, recorded as row 7, and its
    application exits. -/
def copyAfterClear : List Step :=
  [.recallLands .clipboard, .recallResumes 0 true, .wakes 0, .answered 0 true true,
    .copied .clipboard true, .handled .clipboard, .remembered .clipboard 7, .exited .clipboard]

/-- The X server reports no owner that the watcher would pass on when the clear is carried out,
    so the exit that follows is taken for the clear and the text is not offered again. -/
theorem exit_taken_for_the_clear :
    Swallows (Trace.after (step onX11) idle copyAfterClear) (.handled .clipboard) ∧
      (Trace.after (step onX11) idle copyAfterClear).live.lastStored .clipboard = some 7 ∧
      ¬ HidesOnlyItself onX11 idle (copyAfterClear ++ [.handled .clipboard]) := by
  have hswallows : Swallows (after (step onX11) idle copyAfterClear)
      (.handled .clipboard) := ⟨rfl, .exit, [], rfl, by decide⟩
  refine ⟨hswallows, rfl, ?_⟩
  intro h
  exact (never_iff_split _ _).mp h copyAfterClear (.handled .clipboard) [] rfl
    (.inl hswallows)

/-- The same daemon where the compositor has the data-control protocol. -/
def onWayland : Setting := { onX11 with backend := .wayland }

/-- The clear is reported and handled before text is copied. -/
def copyOnceCleared : List Step :=
  [.recallLands .clipboard, .recallResumes 0 true, .wakes 0, .answered 0 true true,
    .handled .clipboard, .copied .clipboard true, .handled .clipboard, .remembered .clipboard 7,
    .exited .clipboard, .handled .clipboard]

theorem hidesOnlyItself_copyOnceCleared : HidesOnlyItself onWayland idle copyOnceCleared := by
  have hother : ∀ {d : Desktop} {e : Step}, ¬ Unfit onWayland d e ∨ d.live.clearing = false →
      ¬ (Swallows d e ∨ Silent onWayland d e ∧ (d.step onWayland e).live.clearing = true) := by
    intro d e h hwrong
    obtain ⟨hunfit, hclearing⟩ := (wrong_iff onWayland d e).mp hwrong
    rcases h with h | h
    · exact h hunfit
    · rw [h] at hclearing
      cases hclearing
  -- the flag is set only while the clear is answered and its own empty selection handled
  refine ⟨hother (.inr rfl), hother (.inr rfl), hother (.inr rfl), hother (.inl ?_),
    hother (.inl ?_), hother (.inr rfl), hother (.inr rfl), hother (.inr rfl), hother (.inr rfl),
    hother (.inr rfl), trivial⟩
  · rintro ⟨-, selection, hclears, hsame⟩
    cases hclears
    exact absurd hsame (by decide)
  · rintro ⟨cause, rest, hchannel, hcause⟩
    cases hchannel
    exact hcause rfl

/-- Where the clear is reported, no other step is unfit for it. -/
theorem hides_only_itself_of_reported : HidesOnlyItself onWayland idle copyOnceCleared ∧
    ∀ before a since e later, copyOnceCleared = before ++ a :: (since ++ e :: later) →
      Starts (Trace.after (step onWayland) idle before) a →
      Trace.Never (step onWayland) (Frees onWayland)
        (Trace.after (step onWayland) idle (before ++ [a])) since →
      ¬ Unfit onWayland (Trace.after (step onWayland) idle (before ++ a :: since)) e :=
  ⟨hidesOnlyItself_copyOnceCleared,
    (hides_only_itself_iff onWayland idle rfl copyOnceCleared).mp hidesOnlyItself_copyOnceCleared⟩

end Sample

section

variable (c : Setting)

/-! ## §5. What a run does -/

namespace Desktop

variable (d : Desktop) (steps : List Step) {offer : Offer}

/-- An offer made earlier is on the selection. -/
def Holds (selection : Selection) (offer : Offer) (d : Desktop) : Prop :=
  d.held selection = some offer ∧ offer.number < d.puts

/-- An offer made earlier is not, or no longer, on the selection. -/
def Replaced (selection : Selection) (offer : Offer) (d : Desktop) : Prop :=
  d.held selection ≠ some offer ∧ offer.number < d.puts

theorem Renewed.ne {held : Option Offer} (h : Renewed d held)
    (hold : offer.number < d.puts) : held ≠ some offer := by
  rintro rfl
  rcases h with h | ⟨own, h⟩
  · cases h
  · rw [Option.some.inj h] at hold
    exact Nat.lt_irrefl _ hold

/-- **An offer is still on its selection exactly when it was there and no step has changed the
    selection.** -/
theorem holds_after_iff {selection : Selection} {d : Desktop}
    (hnumber : offer.number < d.puts) (steps : List Step) :
    Holds selection offer (after (step c) d steps) ↔
      Holds selection offer d ∧ Never (step c) (Touches c selection) d steps := by
  have hkeep : ∀ d e, Holds selection offer d → ¬ Touches c selection d e →
      Holds selection offer (d.step c e) := by
    intro d e hd htouches
    exact ⟨((stepped c d e).held _ htouches).trans hd.1, hd.2.trans_le (stepped c d e).puts⟩
  have hlose : ∀ d e, Holds selection offer d → Touches c selection d e →
      Replaced selection offer (d.step c e) := by
    intro d e hd htouches
    exact ⟨((stepped c d e).renews _ htouches).ne d hd.2, hd.2.trans_le (stepped c d e).puts⟩
  have hgone : ∀ d e, Replaced selection offer d → Replaced selection offer (d.step c e) := by
    intro d e hd
    refine ⟨?_, hd.2.trans_le (stepped c d e).puts⟩
    by_cases htouches : Touches c selection d e
    · exact ((stepped c d e).renews _ htouches).ne d hd.2
    · rw [(stepped c d e).held _ htouches]
      exact hd.1
  have hnot : ∀ d, Replaced selection offer d → ¬ Holds selection offer d :=
    fun d hd hholds => hd.1 hholds.1
  refine Trace.holds_after_iff hkeep hlose hgone hnot steps ?_
  by_cases hheld : d.held selection = some offer
  · exact .inl ⟨hheld, hnumber⟩
  · exact .inr ⟨hheld, hnumber⟩

theorem puts_le_after : d.puts ≤ (Trace.after (step c) d steps).puts := by
  have hstep : ∀ (d' : Desktop) e, d.puts ≤ d'.puts → d.puts ≤ (d'.step c e).puts :=
    fun d' e h => h.trans (stepped c d' e).puts
  exact keeps_after hstep steps (Nat.le_refl d.puts)

/-- The generation is what it was exactly when nothing has moved it. -/
theorem generation_after_iff :
    (after (step c) d steps).live.generation = d.live.generation ↔
      Trace.Never (step c) Bumps d steps := by
  have hkeep : ∀ (d' : Desktop) e, d'.live.generation = d.live.generation → ¬ Bumps d' e →
      (d'.step c e).live.generation = d.live.generation :=
    fun d' e h hbumps => ((stepped c d' e).same hbumps).trans h
  have hlose : ∀ (d' : Desktop) e, d'.live.generation = d.live.generation → Bumps d' e →
      d.live.generation < (d'.step c e).live.generation := by
    intro d' e h hbumps
    rw [(stepped c d' e).bumps hbumps]
    omega
  have hgone : ∀ (d' : Desktop) e, d.live.generation < d'.live.generation →
      d.live.generation < (d'.step c e).live.generation := by
    intro d' e h
    by_cases hbumps : Bumps d' e
    · rw [(stepped c d' e).bumps hbumps]
      omega
    · rw [(stepped c d' e).same hbumps]
      exact h
  have hnot : ∀ d' : Desktop, d.live.generation < d'.live.generation →
      ¬ d'.live.generation = d.live.generation := fun d' h => Nat.ne_of_gt h
  rw [Trace.holds_after_iff hkeep hlose hgone hnot steps (.inl rfl)]
  exact and_iff_right rfl

end Desktop

/-! ## §6. The delayed clear of a recall -/

/-- One recall in its surroundings: what happens while its offer is answered, while its task
    sleeps, and while the task's clear is on its way to the display. -/
structure Recall where
  before : Desktop
  selection : Selection
  /-- `db.touch` succeeded. -/
  touched : Bool
  offering : List Step
  sleeping : List Step
  clearing : List Step

namespace Recall

open Desktop

/-- What the recall puts on the selection. -/
def offer (r : Recall) : Offer := ⟨r.before.puts, true⟩

def landed (r : Recall) : Desktop := r.before.place r.selection true

/-- The offer has been answered and the task's baseline is taken. -/
def started (r : Recall) : Desktop :=
  let d := after (step c) r.landed r.offering
  { d with live := d.live.bump }

/-- The task has slept. -/
def woken (r : Recall) : Desktop := after (step c) (r.started c) r.sleeping

/-- The task has set the flag and asks for the clear. -/
def asking (r : Recall) : Desktop :=
  { r.woken c with live := { (r.woken c).live with clearing := true } }

/-- The display is about to carry out the clear. -/
def reached (r : Recall) : Desktop :=
  after (step c) (r.asking c) r.clearing

/-- The recall starts a task that can clear its selection. -/
def Arms (r : Recall) : Prop :=
  c.supports r.selection = true ∧ r.touched = true ∧ c.clearAfterSeconds ≠ 0 ∧
    c.backend.clears = true

/-- The task of the recall clears the selection. -/
def Clears (r : Recall) : Prop :=
  r.Arms c ∧ (r.woken c).live.generation = (r.started c).live.generation

/-- Whenever the task clears the selection, the recall's own offer is there. -/
def ClearsOwn (r : Recall) : Prop :=
  r.Clears c → (r.reached c).held r.selection = some r.offer

/-- Nothing has changed the selection between the recall and its clear. -/
def Untouched (r : Recall) : Prop :=
  Never (step c) (Touches c r.selection) r.landed r.offering ∧
    Never (step c) (Touches c r.selection) (r.started c) r.sleeping ∧
    Never (step c) (Touches c r.selection) (r.asking c) r.clearing

theorem holds_landed (r : Recall) : Holds r.selection r.offer r.landed :=
  ⟨Function.update_self .., Nat.lt_succ_self r.before.puts⟩

/-- The display has the recall's offer when the clear arrives exactly when nothing has changed
    the selection on the way. -/
theorem holds_reached_iff (r : Recall) :
    Holds r.selection r.offer (r.reached c) ↔ r.Untouched c := by
  have hlanded : r.offer.number < r.landed.puts := r.holds_landed.2
  have hstarted : r.offer.number < (r.started c).puts :=
    hlanded.trans_le (puts_le_after c r.landed r.offering)
  have hasking : r.offer.number < (r.asking c).puts :=
    hstarted.trans_le (puts_le_after c (r.started c) r.sleeping)
  -- the daemon's own fields play no part in what is on a selection
  have hwoken : Holds r.selection r.offer (r.asking c) ↔
      Holds r.selection r.offer (r.woken c) := Iff.rfl
  have hbaseline : Holds r.selection r.offer (r.started c) ↔
      Holds r.selection r.offer (after (step c) r.landed r.offering) := Iff.rfl
  unfold reached Untouched
  rw [holds_after_iff c hasking, hwoken, woken, holds_after_iff c hstarted, hbaseline,
    holds_after_iff c hlanded, and_iff_right r.holds_landed, and_assoc]

/-- **The delayed clear clears its own recall exactly when, if its selection changes hands before
    the clear arrives, the daemon handles an event or goes on with a recall while the task
    sleeps.** -/
theorem clears_own_recall_iff (c : Setting) (r : Recall) :
    r.ClearsOwn c ↔
      (r.Arms c → Trace.Never (step c) Bumps (r.started c) r.sleeping → r.Untouched c) := by
  have hnumber : r.offer.number < (r.reached c).puts :=
    calc r.offer.number < r.landed.puts := r.holds_landed.2
      _ ≤ (r.started c).puts := puts_le_after c r.landed r.offering
      _ ≤ (r.asking c).puts := puts_le_after c (r.started c) r.sleeping
      _ ≤ (r.reached c).puts := puts_le_after c (r.asking c) r.clearing
  have hholds : (r.reached c).held r.selection = some r.offer ↔ r.Untouched c := by
    rw [← holds_reached_iff]
    exact (and_iff_left hnumber).symm
  unfold ClearsOwn Clears woken
  rw [hholds, generation_after_iff, and_imp]

end Recall

end

namespace Sample

open Desktop

/-- An entry is recalled to PRIMARY; while the task sleeps, text is marked elsewhere. -/
def markedMeanwhile : Recall :=
  ⟨idle, .primary, true, [], [.copied .primary true], []⟩

/-- PRIMARY is not watched, so the generation does not move and the mark is cleared. -/
theorem mark_is_cleared : markedMeanwhile.Clears onX11 ∧
    (markedMeanwhile.reached onX11).held .primary = some ⟨1, false⟩ ∧
    ¬ markedMeanwhile.ClearsOwn onX11 := by
  have hclears : markedMeanwhile.Clears onX11 := ⟨⟨rfl, rfl, by decide, rfl⟩, rfl⟩
  have hheld : (markedMeanwhile.reached onX11).held .primary = some ⟨1, false⟩ := rfl
  refine ⟨hclears, hheld, ?_⟩
  intro h
  have hown : (markedMeanwhile.reached onX11).held .primary = some markedMeanwhile.offer :=
    h hclears
  rw [hheld] at hown
  exact absurd hown (by decide)

end Sample

end Panora.Panod
