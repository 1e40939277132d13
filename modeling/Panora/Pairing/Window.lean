/-
  Panora.Pairing.Window — invitations, and the window a device keeps open.

  `crates/panora-sync/src/invite.rs`: which mode the user picked, until when, and how
  many sessions it still allows.  Starting a session uses up an attempt; a pairing that
  succeeds closes the window.
-/
import Panora.Group.State

namespace Panora.Pairing

open Panora.Group

/-! ## §1. Arrays and errors -/

/-- Thirty-two bytes (`[u8; 32]`). -/
abbrev Block := { b : Bytes // b.length = 32 }

/-- Thirty-two zero bytes. -/
def zeroBlock : Block := ⟨zeroHash, by decide⟩

/-- Why a device ended the pairing. -/
inductive AbortReason where
  | rejected
  | wrongMode
  | closed
  | refused
  | failed
  deriving DecidableEq, Repr

/-- What goes wrong while pairing, with the text the source gives. -/
inductive Error where
  | protocol (message : String)
  | auth (message : String)
  | invitation (message : String)
  | expired (message : String)
  | modeMismatch
  | cancelled
  | aborted (reason : AbortReason)
  /-- A sealed body that is not of the expected shape. -/
  | json
  /-- A device, a roster or a signature was rejected. -/
  | group (e : Group.Error)
  deriving DecidableEq, Repr

/-- A failure of the group code is one of pairing. -/
def ofGroup {α : Type} (x : Except Group.Error α) : Except Error α := x.mapError .group

theorem ofGroup_ok_iff {α : Type} {x : Except Group.Error α} {a : α} :
    ofGroup x = .ok a ↔ x = .ok a := by
  cases x with
  | error e => simp [ofGroup, Except.mapError]
  | ok b => simp [ofGroup, Except.mapError]

/-! ## §2. Invitations -/

/-- How the two devices authenticate each other. -/
inductive PairingMode where
  | invitation
  | code
  deriving DecidableEq, Repr

/-- How long a code window stays open. -/
def codeWindowSecs : Int := 300
/-- Pairing sessions a code window allows. -/
def maxCodeAttempts : Nat := 3
/-- Pairing sessions an invitation allows. -/
def maxInvitationAttempts : Nat := 10

/-- A one-time invitation to join the inviter's group. -/
structure Invitation where
  inviter : PublicIdentity
  secret : Block
  expiresAt : Int
  deriving DecidableEq

def Invitation.isExpired (i : Invitation) (now : Int) : Bool := decide (now ≥ i.expiresAt)

/-! ## §3. The window -/

/-- "I am accepting a new device now". -/
structure PairingWindow where
  invitation : Option Invitation
  expiresAt : Int
  attempts : Nat
  closed : Bool
  deriving DecidableEq

namespace PairingWindow

/-- Accept a device whose user compares a code. -/
def forCode (now : Int) : PairingWindow := ⟨none, now + codeWindowSecs, 0, false⟩

variable (w : PairingWindow)

/-- The mode this window pairs in. -/
def mode : PairingMode :=
  if w.invitation.isSome then .invitation else .code

def maxAttempts : Nat :=
  match w.mode with
  | .invitation => maxInvitationAttempts
  | .code => maxCodeAttempts

/-- Sessions that may still start. -/
def attemptsLeft : Nat := w.maxAttempts - w.attempts

/-- Not closed and not past the deadline; a running session may finish. -/
def isLive (now : Int) : Bool := !w.closed && decide (now < w.expiresAt)

/-- Whether another session may start at `now`. -/
def isOpen (now : Int) : Bool :=
  w.isLive now && decide (w.attempts < w.maxAttempts)

/-- Use up one attempt for a session starting at `now`. -/
def begin (now : Int) : Except Error PairingWindow :=
  if !w.isOpen now then .error (.invitation "pairing is not open on this device")
  else .ok { w with attempts := w.attempts + 1 }

/-- Stop accepting devices. -/
def close : PairingWindow := { w with closed := true, invitation := none }

theorem isLive_eq_true {w : PairingWindow} {now : Int} :
    w.isLive now = true ↔ w.closed = false ∧ now < w.expiresAt := by
  unfold isLive
  rw [Bool.and_eq_true, Bool.not_eq_true', decide_eq_true_eq]

/-- **A session starts** in a window that is not closed, not expired and has attempts
    left, and then it has one attempt less. -/
theorem begin_eq_ok {w w' : PairingWindow} {now : Int} :
    w.begin now = .ok w' ↔
      w.closed = false ∧ now < w.expiresAt ∧ w.attempts < w.maxAttempts
        ∧ w' = { w with attempts := w.attempts + 1 } := by
  unfold begin isOpen
  cases hlive : w.isLive now && decide (w.attempts < w.maxAttempts) with
  | false =>
    rw [Bool.and_eq_false_iff, decide_eq_false_iff_not] at hlive
    constructor
    · intro h
      cases h
    · intro h
      obtain ⟨hopen, hnow, hleft, -⟩ := h
      rcases hlive with hlive | hlive
      · rw [isLive_eq_true.mpr ⟨hopen, hnow⟩] at hlive
        cases hlive
      · exact absurd hleft hlive
  | true =>
    rw [Bool.and_eq_true, decide_eq_true_eq, isLive_eq_true] at hlive
    simp [hlive, eq_comm]

end PairingWindow

end Panora.Pairing
