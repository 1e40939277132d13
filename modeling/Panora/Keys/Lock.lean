/-
  Panora.Keys.Lock — the second-layer lock, and the keys in the keyring.

  `crates/panora-core/src/lock.rs`, `crates/panod/src/keyring.rs` and the operations of
  `crates/panod/src/daemon.rs` that change a key or the lock.  The verifier and the salt are
  in the database, the keys in the keyring, the lock itself is a flag in memory.  Every call
  of the keyring is awaited: other requests run meanwhile, and the call may fail.

  Main results:
    * `unlockable_step`, `unlockable_iff` — when there is a password that undoes the lock
      wherever it is engaged, in every interleaving.
-/
import Panora.Lib.Trace
import Panora.Panod.Requests
import Panora.Panod.Sample

namespace Panora.Keys

open Storage Lib Panod

section

variable (derive : DeriveKey) (env : Env)

/-! ## §1. The lock password -/

/-- A PHC string.  Hashing is ideal: the string is matched by the one password. -/
structure Verifier where
  password : String
  salt : String
  deriving DecidableEq, Repr

/-- What is stored to check an unlock attempt, and the salt of the key-encryption key. -/
structure LockSecret where
  verifier : Verifier
  kekSalt : String
  deriving DecidableEq, Repr

/-- Argon2id: the key a password and a salt give. -/
abbrev DeriveKey := String → String → Key

namespace LockSecret

/-- Check a candidate password. -/
def verify (s : LockSecret) (password : String) : Bool := s.verifier.password == password

/-- Wrap a key under the password's key-encryption key. -/
def wrap (s : LockSecret) (password : String) (key : Key) : Envelope Bytes :=
  sealWithAad (derive password s.kekSalt) "" key

/-- Unwrap a backup. -/
def unwrapKey (s : LockSecret) (password : String) (e : Envelope Bytes) : Option Key :=
  openPlain (derive password s.kekSalt) e

theorem unwrapKey_wrap (s : LockSecret) (password : String) (key : Key) :
    s.unwrapKey derive password (s.wrap derive password key) = some key := by
  simp [unwrapKey, wrap, openPlain, openWithAad, sealWithAad]

end LockSecret

/-! ## §2. The operations -/

/-- The items of the keyring. -/
structure Keyring where
  live : Option Key
  pending : Option Key
  lockBackup : Option (Envelope Bytes)
  deriving DecidableEq

/-- The daemon with its lock, and the keyring. -/
structure Vault where
  daemon : Daemon
  /-- In the `meta` table of the database. -/
  lockSecret : Option LockSecret
  appLocked : Bool
  lastActivity : Int
  keyring : Keyring
  deriving DecidableEq

/-- A call of the keyring an operation waits for, with what it goes on with. -/
inductive Awaits where
  /-- Setting a password: the live key, made here if there is none. -/
  | liveKey (password : String) (secret : LockSecret) (generated : Key)
  | backupStored (wrapped : Envelope Bytes)
  | backupRemoved
  /-- A rotation: the pending key, the new live key, and the end of the pending one. -/
  | pendingKey (generated : Key)
  | pendingStored (key : Key)
  | liveReplaced (key : Key)
  | pendingDeleted
  /-- A wipe: the items that are deleted, and the fresh live key. -/
  | wipePending (fresh : Key)
  | wipeBackup (fresh : Key)
  | wipeLive (fresh : Key)
  deriving DecidableEq

/-- How far an operation has come. -/
inductive Next where
  | done
  | failed (message : String)
  | awaits (a : Awaits)
  deriving DecidableEq

/-- A password to set, with the salts and the key that are generated on the way. -/
structure NewPassword where
  password : String
  verifierSalt : String
  kekSalt : String
  generated : Key

/-- `LockSecret::new`. -/
def NewPassword.secret (n : NewPassword) : LockSecret := ⟨⟨n.password, n.verifierSalt⟩, n.kekSalt⟩

/-- What the daemon is asked to do. -/
inductive Command where
  | lock
  | unlock (password : String) (now : Int)
  /-- The check for idleness, with the minutes that are configured. -/
  | autoLock (now : Int) (minutes : Nat)
  | setLockPassword (new : Option NewPassword) (current : Option String)
  | rotateKey (generated : Key)
  | wipe (fresh : Key)

variable (v : Vault)

def noPassword : String := "no lock password is set"

def wrongPassword : String := "incorrect password"

def noneToLockWith : String :=
  "no lock password is set; set one with: panora-cli lock set-password"

def currentRequired : String := "the current password is required"

def rotationInProgress : String :=
  "a key rotation is in progress; finish it first with: panora-cli rotate-key"

def keyringFailed : String := "keyring call failed"

def storageFailed : String := "storage failed"

/-- Changing or removing a password takes the current one. -/
def refuses (current : Option String) : Option String :=
  match v.lockSecret with
  | none => none
  | some existing =>
    match current with
    | none => some currentRequired
    | some password => if existing.verify password then none else some wrongPassword

/-- Seconds since the last recorded activity. -/
def idleSeconds (now : Int) : Int := max (now - v.lastActivity) 0

/-- Engage the idle lock if enough time has passed and there is a password. -/
def maybeAutoLock (now : Int) (minutes : Nat) : Vault :=
  if v.appLocked = true ∨ minutes = 0 ∨ idleSeconds v now < minutes * 60 ∨ v.lockSecret = none
  then v
  else { v with appLocked := true }

/-- Mark the rotation as begun and reseal everything under the key. -/
def rotateStorage (key : Key) : Request Unit := do
  updateDb (fun db => ((), db.setRotationState (some "rotating")))
  rekeyDb env key
  rekeyBlobs key

/-- Reseal everything under the key, then wait for it to become the live one. -/
def resealed (key : Key) (v : Vault) : Vault × Next :=
  match Op.exec (rotateStorage env key) v.daemon with
  | (.ok (), d) => ({ v with daemon := d }, .awaits (.liveReplaced key))
  | (.error _, d) => ({ v with daemon := d }, .failed storageFailed)

/-- Engage the lock by hand; refused when no password is set. -/
def engageLock : Vault × Next :=
  if v.lockSecret.isSome then ({ v with appLocked := true }, .done)
  else (v, .failed noneToLockWith)

/-- Check a password against the verifier and disengage the lock. -/
def unlock (password : String) (now : Int) : Vault × Next :=
  match v.lockSecret with
  | none => (v, .failed noPassword)
  | some secret =>
    if secret.verify password then ({ v with appLocked := false, lastActivity := now }, .done)
    else (v, .failed wrongPassword)

/-- Set, change or remove the lock password, up to the first await. -/
def setLockPassword (new : Option NewPassword) (current : Option String) : Vault × Next :=
  match refuses v current with
  | some message => (v, .failed message)
  | none =>
    match new with
    | some n =>
      if v.daemon.db.rotationState.isSome then (v, .failed rotationInProgress)
      else (v, .awaits (.liveKey n.password n.secret n.generated))
    | none => ({ v with lockSecret := none }, .awaits .backupRemoved)

/-- The panic wipe, up to the first await; the database loses the lock password with the rest. -/
def wipe (fresh : Key) : Vault × Next :=
  match Op.exec (wipeStorage env fresh) v.daemon with
  | (.ok (), d) => ({ v with daemon := d, lockSecret := none }, .awaits (.wipePending fresh))
  | (.error _, d) => ({ v with daemon := d, lockSecret := none }, .failed storageFailed)

/-- What a command does up to its first await. -/
def start : Command → Vault × Next
  | .lock => engageLock v
  | .unlock password now => unlock v password now
  | .autoLock now minutes => (maybeAutoLock v now minutes, .done)
  | .setLockPassword new current => setLockPassword v new current
  | .rotateKey generated => (v, .awaits (.pendingKey generated))
  | .wipe fresh => wipe env v fresh

/-- A rotation that is under way goes on with its key; a new one stores the key first. -/
def pendingLoaded (generated : Key) : Vault × Next :=
  match v.keyring.pending with
  | some key => resealed env key v
  | none => (v, .awaits (.pendingStored generated))

/-- What an operation does when its call was answered, up to the next await. -/
def answered : Awaits → Vault × Next
  | .liveKey password secret generated =>
    let key := v.keyring.live.getD generated
    ({ v with lockSecret := some secret, keyring := { v.keyring with live := some key } },
      .awaits (.backupStored (secret.wrap derive password key)))
  | .backupStored wrapped =>
    ({ v with keyring := { v.keyring with lockBackup := some wrapped } }, .done)
  | .backupRemoved =>
    ({ v with keyring := { v.keyring with lockBackup := none }, appLocked := false }, .done)
  | .pendingKey generated => pendingLoaded env v generated
  | .pendingStored key =>
    resealed env key { v with keyring := { v.keyring with pending := some key } }
  | .liveReplaced key =>
    ({ v with keyring := { v.keyring with live := some key } }, .awaits .pendingDeleted)
  | .pendingDeleted =>
    ({ v with
        keyring := { v.keyring with pending := none }
        daemon := { v.daemon with db := v.daemon.db.setRotationState none } }, .done)
  | .wipePending fresh =>
    ({ v with keyring := { v.keyring with pending := none } }, .awaits (.wipeBackup fresh))
  | .wipeBackup fresh =>
    ({ v with keyring := { v.keyring with lockBackup := none } }, .awaits (.wipeLive fresh))
  | .wipeLive fresh =>
    ({ v with keyring := { v.keyring with live := some fresh }, appLocked := false }, .done)

/-- What an operation does when its call returned; one that failed ends it. -/
def resume (a : Awaits) (ok : Bool) : Vault × Next :=
  if ok then answered derive env v a else (v, .failed keyringFailed)

/-! ## §3. One operation at a time -/

/-- Let an operation run on, with `ok n` the outcome of its call number `n`. -/
def settle (derive : DeriveKey) (env : Env) : Nat → (Nat → Bool) → Vault × Next → Vault × Next
  | 0, _, s => s
  | n + 1, ok, (v, .awaits a) =>
    settle derive env n (fun i => ok (i + 1)) (resume derive env v a (ok 0))
  | _ + 1, _, s => s

/-- Run a command to its end; none makes more than four calls. -/
def perform (c : Command) (ok : Nat → Bool) : Vault × Next :=
  settle derive env 4 ok (start env v c)

/-! ## §4. Operations side by side -/

/-- The vault, and the operations that wait for the keyring. -/
structure Machine where
  vault : Vault
  waiting : List Awaits

/-- A command comes in, or a call of the operation with this number returns. -/
inductive Event where
  | command (c : Command)
  | returns (n : Nat) (ok : Bool)

/-- The operations that wait after one of them went on. -/
def queued (waiting : List Awaits) : Next → List Awaits
  | .awaits a => waiting ++ [a]
  | .done => waiting
  | .failed _ => waiting

/-- One step, from await to await. -/
def Machine.step (m : Machine) : Event → Machine
  | .command c =>
    let after := start env m.vault c
    ⟨after.1, queued m.waiting after.2⟩
  | .returns n ok =>
    match m.waiting[n]? with
    | none => m
    | some a =>
      let after := resume derive env m.vault a ok
      ⟨after.1, queued (m.waiting.eraseIdx n) after.2⟩

/-- Where the lock is engaged there is a password that undoes it. -/
def Unlockable : Prop := v.appLocked = true → v.lockSecret.isSome = true

instance (v : Vault) : Decidable (Unlockable v) := inferInstanceAs (Decidable (_ → _))

/-- The step removes the password while the lock is engaged: the removal of a password or a
    wipe, before its keyring calls. -/
def Strands : Event → Prop
  | .command (.setLockPassword none current) => v.appLocked = true ∧ refuses v current = none
  | .command (.wipe _) => v.appLocked = true
  | _ => False

theorem resealed_lock (key : Key) (v : Vault) : (resealed env key v).1.appLocked = v.appLocked ∧
      (resealed env key v).1.lockSecret = v.lockSecret := by
  unfold resealed
  split
  · exact ⟨rfl, rfl⟩
  · exact ⟨rfl, rfl⟩

/-- An answered call never removes the password while the lock is engaged. -/
theorem unlockable_resume {v : Vault} (h : Unlockable v)
    (a : Awaits) (ok : Bool) : Unlockable (resume derive env v a ok).1 := by
  unfold resume
  by_cases hok : ok = true
  · rw [if_pos hok]
    -- the password is set, the lock is lifted, or neither changes
    cases a with
    | liveKey password secret generated => exact fun _ => rfl
    | backupStored wrapped => exact h
    | backupRemoved => exact fun hlocked => absurd hlocked (by simp [answered])
    | pendingKey generated =>
      show Unlockable (pendingLoaded env v generated).1
      unfold pendingLoaded
      split
      next key _ =>
        obtain ⟨hlocked, hsecret⟩ := resealed_lock env key v
        unfold Unlockable
        rw [hlocked, hsecret]
        exact h
      next => exact h
    | pendingStored key =>
      obtain ⟨hlocked, hsecret⟩ := resealed_lock env key
        { v with keyring := { v.keyring with pending := some key } }
      show Unlockable (resealed env key
        { v with keyring := { v.keyring with pending := some key } }).1
      unfold Unlockable
      rw [hlocked, hsecret]
      exact h
    | liveReplaced key => exact h
    | pendingDeleted => exact h
    | wipePending fresh => exact h
    | wipeBackup fresh => exact h
    | wipeLive fresh => exact fun hlocked => absurd hlocked (by simp [answered])
  · rw [if_neg hok]
    exact h

theorem unlockable_maybeAutoLock {v : Vault} (h : Unlockable v) (now : Int) (minutes : Nat) :
    Unlockable (maybeAutoLock v now minutes) := by
  unfold maybeAutoLock
  split
  · exact h
  next hgo =>
    intro _
    show v.lockSecret.isSome = true
    rw [Option.isSome_iff_ne_none]
    exact fun hnone => hgo (Or.inr (Or.inr (Or.inr hnone)))

/-- A command removes the password while the lock is engaged, or it does not. -/
theorem unlockable_start {v : Vault} (h : Unlockable v) (c : Command) :
    Unlockable (start env v c).1 ↔ ¬ Strands v (.command c) := by
  cases c with
  | lock =>
    refine iff_of_true ?_ (fun hno => hno)
    show Unlockable (engageLock v).1
    unfold engageLock
    split
    next hset => exact fun _ => hset
    next => exact h
  | unlock password now =>
    refine iff_of_true ?_ (fun hno => hno)
    show Unlockable (unlock v password now).1
    unfold unlock
    split
    · exact h
    · split
      · exact fun hlocked => absurd hlocked (by simp)
      · exact h
  | autoLock now minutes =>
    exact iff_of_true (unlockable_maybeAutoLock h now minutes) (fun hno => hno)
  | setLockPassword new current =>
    cases hrefuses : refuses v current with
    | some message =>
      have hstart : start env v (.setLockPassword new current) = (v, .failed message) := by
        simp only [start, setLockPassword, hrefuses]
      rw [hstart]
      refine iff_of_true h ?_
      cases new with
      | none => exact fun hstrands => absurd hstrands.2 (by rw [hrefuses]; simp)
      | some n => exact fun hno => hno
    | none =>
      cases new with
      | some n =>
        refine iff_of_true ?_ (fun hno => hno)
        simp only [start, setLockPassword, hrefuses]
        split
        · exact h
        · exact h
      | none =>
        simp [start, setLockPassword, hrefuses, Unlockable, Strands]
  | rotateKey generated => exact iff_of_true h (fun hno => hno)
  | wipe fresh =>
    have hstart : (wipe env v fresh).1.appLocked = v.appLocked ∧
        (wipe env v fresh).1.lockSecret = none := by
      unfold wipe
      split
      · exact ⟨rfl, rfl⟩
      · exact ⟨rfl, rfl⟩
    show ((wipe env v fresh).1.appLocked = true → (wipe env v fresh).1.lockSecret.isSome = true)
      ↔ ¬ v.appLocked = true
    rw [hstart.1, hstart.2]
    simp

/-- **What one step does.** -/
theorem unlockable_step {m : Machine} (h : Unlockable m.vault)
    (e : Event) : Unlockable (m.step derive env e).vault ↔ ¬ Strands m.vault e := by
  cases e with
  | command c => exact unlockable_start env h c
  | returns n ok =>
    refine iff_of_true ?_ (fun hno => hno)
    cases hwaiting : m.waiting[n]? with
    | none =>
      simp only [Machine.step, hwaiting]
      exact h
    | some a =>
      simp only [Machine.step, hwaiting]
      exact unlockable_resume derive env h a ok

/-- **When the lock can always be undone.**  In every interleaving of operations, with any
    keyring call failing, there is a password wherever the lock is engaged exactly when no
    removal of the password and no wipe begins while it is. -/
theorem unlockable_iff (derive : DeriveKey) (env : Env) (m : Machine) (h : Unlockable m.vault)
    (events : List Event) :
    (∀ m' ∈ Trace.states (Machine.step derive env) m events, Unlockable m'.vault) ↔
      Trace.Never (Machine.step derive env) (fun m e => Strands m.vault e) m events := by
  have hstep : ∀ (m : Machine) (e : Event), Unlockable m.vault →
      (Unlockable (m.step derive env e).vault ↔ ¬ Strands m.vault e) :=
    fun _ e hm => unlockable_step derive env hm e
  exact Trace.forall_states_iff events (fun s e _ => hstep s e) h

end

namespace Sample

/-- The key of a password, not to be guessed in this sample. -/
def derive : DeriveKey := fun password salt => utf8 password ++ utf8 salt

/-- A daemon that is locked with a password. -/
def locked : Vault where
  daemon := Sample.fresh
  lockSecret := some ⟨⟨"hunter2", "s"⟩, "t"⟩
  appLocked := true
  lastActivity := 0
  keyring := ⟨some [1], none, some (sealWithAad (derive "hunter2" "t") "" [1])⟩

/-- The password is removed, and the keyring does not answer. -/
def removal : List Event :=
  [.command (.setLockPassword none (some "hunter2")), .returns 0 false]

/-- The daemon is left locked, with no operation under way, and no password unlocks it. -/
theorem locked_without_password :
    Unlockable locked ∧
    ∃ m ∈ Trace.states (Machine.step derive Panod.Sample.env) ⟨locked, []⟩ removal,
      m.vault.appLocked = true ∧ m.vault.lockSecret = none ∧ m.waiting = [] ∧
      ∀ password now, (start Panod.Sample.env m.vault (.unlock password now)).2
        = .failed noPassword := by
  refine ⟨by decide, ⟨{ locked with lockSecret := none }, []⟩, ?_, rfl, rfl, rfl, ?_⟩
  · right
    right
    left
  · intro password now
    rfl

theorem unlockable_iff_removal :
    (∀ m ∈ Trace.states (Machine.step derive Panod.Sample.env) ⟨locked, []⟩ removal,
      Unlockable m.vault) ↔
      Trace.Never (Machine.step derive Panod.Sample.env) (fun m e => Strands m.vault e)
        ⟨locked, []⟩ removal :=
  unlockable_iff derive Sample.env ⟨locked, []⟩ (by decide) removal

end Sample

end Panora.Keys
