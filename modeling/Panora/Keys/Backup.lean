/-
  Panora.Keys.Backup — the password-gated backup of the master key.

  Setting a lock password stores, next to the live key, a copy of it wrapped under the
  password.  The verifier and the salt are in the database, the copy is in the keyring, and
  the live key is replaced by a rotation and by a wipe.

  Main results:
    * `perform_rotateKey`, `perform_setNew` — what a rotation and a new password leave;
    * `backup_usable_iff` — when the backup unwraps to the live key wherever a password is
      set and no rotation is in progress.
-/
import Panora.Keys.Lock

namespace Panora.Keys

open Storage Lib Panod

/-! ## §1. What the backup holds -/

section Runs

variable {derive : DeriveKey} {env : Env} {v : Vault} {ok : Nat → Bool}

/-- The key in the lock backup, unwrapped with this password and the salt that is stored. -/
def unwrapped (derive : DeriveKey) (backup : Option (Envelope Bytes)) (secret : LockSecret) :
    Option Key :=
  backup.bind (secret.unwrapKey derive secret.verifier.password)

/-- Where a lock password is set and no rotation is in progress, the backup unwraps to the
    live key. -/
def Usable (derive : DeriveKey) (v : Vault) : Prop :=
  v.daemon.db.rotationState = none → ∀ secret ∈ v.lockSecret,
    v.keyring.live.isSome = true ∧ unwrapped derive v.keyring.lockBackup secret = v.keyring.live

instance (derive : DeriveKey) (v : Vault) : Decidable (Usable derive v) :=
  inferInstanceAs (Decidable (_ → ∀ secret ∈ v.lockSecret, _ ∧ _))

theorem usable_of_none (h : v.lockSecret = none) : Usable derive v := by
  intro _ secret hsecret
  rw [h] at hsecret
  cases hsecret

/-! ## §2. Operations that are over at once -/

theorem settle_done (n : Nat) (v : Vault) : settle derive env n ok (v, .done) = (v, .done) := by
  cases n with
  | zero => rfl
  | succ n => rfl

theorem settle_failed (n : Nat) (v : Vault) (message : String) :
    settle derive env n ok (v, .failed message) = (v, .failed message) := by
  cases n with
  | zero => rfl
  | succ n => rfl

/-- A call that fails ends the operation where it stands. -/
theorem settle_awaits_false (n : Nat) (v : Vault) (a : Awaits) (h : ok 0 = false) :
    settle derive env (n + 1) ok (v, .awaits a) = (v, .failed keyringFailed) := by
  show settle derive env n _ (resume derive env v a (ok 0)) = _
  rw [h]
  exact settle_failed n v keyringFailed

/-- A call that is answered lets it go on. -/
theorem settle_awaits_true (n : Nat) (v : Vault) (a : Awaits) (h : ok 0 = true) :
    settle derive env (n + 1) ok (v, .awaits a)
      = settle derive env n (fun i => ok (i + 1)) (answered derive env v a) := by
  show settle derive env n _ (resume derive env v a (ok 0)) = _
  rw [h]
  rfl

/-! ## §3. A rotation -/

/-- Resealing the storage leaves the marker of the rotation, whether it succeeds or not. -/
theorem rotationState_rotateStorage (env : Env) (key : Key) (d : Daemon) :
    (Op.exec (rotateStorage env key) d).2.db.rotationState = some "rotating" := by
  have hkeeps : Op.Keeps SameMeta (rekeyDb env key >>= fun _ => rekeyBlobs key) :=
    Op.keeps_bind SameMeta.trans (sameMeta_rekeyDb env key) fun _ => sameMeta_rekeyBlobs key
  exact (hkeeps { d with db := d.db.setRotationState (some "rotating") }).rotation

/-- What a rotation that has begun to reseal leaves: it ends with the key as the live one, or
    it is still in progress. -/
structure Rotated (v : Vault) (key : Key) (after : Vault × Next) : Prop where
  secret : after.1.lockSecret = v.lockSecret
  backup : after.1.keyring.lockBackup = v.keyring.lockBackup
  outcome : (after.2 = .done ∧ after.1.daemon.db.rotationState = none ∧
      after.1.keyring.live = some key) ∨
    (after.2 ≠ .done ∧ after.1.daemon.db.rotationState = some "rotating")

theorem rotated_resealed (derive : DeriveKey) (env : Env) (key : Key) (v : Vault) (n : Nat)
    (ok : Nat → Bool) : Rotated v key (settle derive env (n + 2) ok (resealed env key v)) := by
  have hmarked := rotationState_rotateStorage env key v.daemon
  unfold resealed
  cases hrun : Op.exec (rotateStorage env key) v.daemon with
  | mk result d =>
    rw [hrun] at hmarked
    cases result with
    | error e =>
      rw [settle_failed]
      exact ⟨rfl, rfl, .inr ⟨by simp, hmarked⟩⟩
    | ok u =>
      -- two calls are left: the live key, and the end of the pending one
      dsimp only
      cases h0 : ok 0 with
      | false =>
        rw [settle_awaits_false (n + 1) _ _ h0]
        exact ⟨rfl, rfl, .inr ⟨by simp, hmarked⟩⟩
      | true =>
        rw [settle_awaits_true (n + 1) _ _ h0]
        cases h1 : ok 1 with
        | false =>
          rw [answered, settle_awaits_false n _ _ h1]
          exact ⟨rfl, rfl, .inr ⟨by simp, hmarked⟩⟩
        | true =>
          rw [answered, settle_awaits_true n _ _ h1, answered, settle_done]
          exact ⟨rfl, rfl, .inl ⟨rfl, rfl, rfl⟩⟩

/-- What the keyring, the storage and the lock have in common after a rotation that failed
    before it changed any of them. -/
structure Untouched (v : Vault) (after : Vault × Next) : Prop where
  daemon : after.1.daemon = v.daemon
  secret : after.1.lockSecret = v.lockSecret
  live : after.1.keyring.live = v.keyring.live
  backup : after.1.keyring.lockBackup = v.keyring.lockBackup

theorem Untouched.usable_iff {after : Vault × Next} (h : Untouched v after) :
    Usable derive after.1 ↔ Usable derive v := by
  unfold Usable
  rw [h.daemon, h.secret, h.live, h.backup]

/-- The key a rotation takes up: the pending one if there is one. -/
def rotatesTo (v : Vault) (generated : Key) : Key := v.keyring.pending.getD generated

/-- **A rotation** fails before it changes anything that matters here, or it reseals. -/
theorem perform_rotateKey (derive : DeriveKey) (env : Env) (v : Vault) (generated : Key)
    (ok : Nat → Bool) :
    (Untouched v (perform derive env v (.rotateKey generated) ok) ∧
      (perform derive env v (.rotateKey generated) ok).2 ≠ .done) ∨
    Rotated v (rotatesTo v generated) (perform derive env v (.rotateKey generated) ok) := by
  show (Untouched v (settle derive env 4 ok (v, .awaits (.pendingKey generated))) ∧ _) ∨ _
  unfold perform start
  cases h0 : ok 0 with
  | false =>
    rw [settle_awaits_false 3 _ _ h0]
    exact .inl ⟨⟨rfl, rfl, rfl, rfl⟩, by simp⟩
  | true =>
    rw [settle_awaits_true 3 _ _ h0, answered, pendingLoaded]
    cases hpending : v.keyring.pending with
    | some key =>
      right
      rw [rotatesTo, hpending]
      exact rotated_resealed derive env key v 1 _
    | none =>
      dsimp only
      rw [rotatesTo, hpending]
      cases h1 : ok 1 with
      | false =>
        rw [settle_awaits_false 2 _ _ h1]
        exact .inl ⟨⟨rfl, rfl, rfl, rfl⟩, by simp⟩
      | true =>
        rw [settle_awaits_true 2 _ _ h1, answered]
        obtain ⟨hsecret, hbackup, houtcome⟩ := rotated_resealed derive env generated
          { v with keyring := { v.keyring with pending := some generated } } 0
          (fun i => ok (i + 1 + 1))
        exact .inr ⟨hsecret, hbackup, houtcome⟩

/-- The keyring answers every call of a rotation: the load of the pending key, the store of a
    new one if there is none, the replacement of the live key and the end of the pending one. -/
def Answered (v : Vault) (ok : Nat → Bool) : Prop :=
  ∀ i < if v.keyring.pending.isSome then 3 else 4, ok i = true

/-- The storage opens and takes the key. -/
def Reseals (env : Env) (key : Key) (d : Daemon) : Prop :=
  (Op.exec (rotateStorage env key) d).1 = .ok ()

theorem settle_resealed_done_iff (key : Key) (n : Nat) :
    (settle derive env (n + 2) ok (resealed env key v)).2 = .done ↔
      Reseals env key v.daemon ∧ ok 0 = true ∧ ok 1 = true := by
  unfold resealed Reseals
  cases hrun : Op.exec (rotateStorage env key) v.daemon with
  | mk result d =>
    cases result with
    | error e => simp [settle_failed]
    | ok u =>
      dsimp only
      cases h0 : ok 0 with
      | false => simp [settle_awaits_false (n + 1) _ _ h0]
      | true =>
        rw [settle_awaits_true (n + 1) _ _ h0]
        cases h1 : ok 1 with
        | false =>
          rw [answered, settle_awaits_false n _ _ h1]
          simp
        | true =>
          rw [answered, settle_awaits_true n _ _ h1, answered, settle_done]
          simp

/-- **When a rotation finishes.** -/
theorem rotateKey_done_iff (derive : DeriveKey) (env : Env) (v : Vault) (generated : Key)
    (ok : Nat → Bool) :
    (perform derive env v (.rotateKey generated) ok).2 = .done ↔
      Answered v ok ∧ Reseals env (rotatesTo v generated) v.daemon := by
  unfold perform start Answered rotatesTo
  cases h0 : ok 0 with
  | false =>
    rw [settle_awaits_false 3 _ _ h0]
    refine iff_of_false (by simp) fun h => ?_
    exact absurd (h0.symm.trans (h.1 0 (by split <;> omega))) (by simp)
  | true =>
    rw [settle_awaits_true 3 _ _ h0, answered, pendingLoaded]
    cases hpending : v.keyring.pending with
    | some key =>
      dsimp only
      rw [settle_resealed_done_iff]
      constructor
      · rintro ⟨hstorage, h1, h2⟩
        refine ⟨fun i hi => ?_, hstorage⟩
        have hi : i < 3 := hi
        interval_cases i <;> assumption
      · exact fun h => ⟨h.2, h.1 1 (by simp), h.1 2 (by simp)⟩
    | none =>
      dsimp only
      cases h1 : ok 1 with
      | false =>
        rw [settle_awaits_false 2 _ _ h1]
        refine iff_of_false (by simp) fun h => ?_
        exact absurd (h1.symm.trans (h.1 1 (by simp))) (by simp)
      | true =>
        rw [settle_awaits_true 2 _ _ h1, answered, settle_resealed_done_iff]
        constructor
        · rintro ⟨hstorage, h2, h3⟩
          refine ⟨fun i hi => ?_, hstorage⟩
          have hi : i < 4 := hi
          interval_cases i <;> assumption
        · exact fun h => ⟨h.2, h.1 2 (by simp), h.1 3 (by simp)⟩

/-! ## §4. A new password -/

/-- The vault once a new password is in the database. -/
def withSecret (v : Vault) (n : NewPassword) : Vault :=
  { v with
    lockSecret := some n.secret
    keyring := { v.keyring with live := some (v.keyring.live.getD n.generated) } }

variable {current : Option String}

/-- **A new password** that is accepted: the keyring is asked for the live key, the database
    takes the secret, and the keyring takes the backup. -/
theorem perform_setNew {n : NewPassword}
    (hrefuses : refuses v current = none) (hrotation : v.daemon.db.rotationState = none) :
    perform derive env v (.setLockPassword (some n) current) ok =
      if ok 0 = true then
        if ok 1 = true then
          ({ withSecret v n with
              keyring := { (withSecret v n).keyring with
                lockBackup := some (n.secret.wrap derive n.password
                  (v.keyring.live.getD n.generated)) } }, .done)
        else (withSecret v n, .failed keyringFailed)
      else (v, .failed keyringFailed) := by
  have hstart : start env v (.setLockPassword (some n) current)
      = (v, .awaits (.liveKey n.password n.secret n.generated)) := by
    simp [start, setLockPassword, hrefuses, hrotation]
  unfold perform
  rw [hstart]
  cases h0 : ok 0 with
  | false =>
    rw [settle_awaits_false 3 _ _ h0]
    rfl
  | true =>
    rw [settle_awaits_true 3 _ _ h0, answered]
    cases h1 : ok 1 with
    | false =>
      rw [settle_awaits_false 2 _ _ h1]
      rfl
    | true =>
      rw [settle_awaits_true 2 _ _ h1, answered, settle_done]
      rfl

/-- A password that is refused changes nothing. -/
theorem perform_setLockPassword_refused {new : Option NewPassword}
    {message : String} (h : start env v (.setLockPassword new current) = (v, .failed message)) :
    perform derive env v (.setLockPassword new current) ok = (v, .failed message) := by
  unfold perform
  rw [h, settle_failed]

/-! ## §5. Every run -/

/-- The operation leaves a password with a backup that does not unwrap to the live key: the
    backup of a new password is not stored, or a rotation has every call answered and the backup
    holds another key. -/
def Spoils (derive : DeriveKey) (env : Env) (v : Vault) (op : Command × (Nat → Bool)) : Prop :=
  match op with
  | (.setLockPassword (some n) current, ok) =>
    refuses v current = none ∧ v.daemon.db.rotationState = none ∧ ok 0 = true ∧ ok 1 = false ∧
      unwrapped derive v.keyring.lockBackup n.secret ≠ some (v.keyring.live.getD n.generated)
  | (.rotateKey generated, ok) =>
    Answered v ok ∧ Reseals env (rotatesTo v generated) v.daemon ∧
      ∃ secret ∈ v.lockSecret,
        unwrapped derive v.keyring.lockBackup secret ≠ some (rotatesTo v generated)
  | _ => False

theorem usable_setNew {n : NewPassword} (h : Usable derive v)
    (hrefuses : refuses v current = none) (hrotation : v.daemon.db.rotationState = none) :
    Usable derive (perform derive env v (.setLockPassword (some n) current) ok).1 ↔
      ¬ Spoils derive env v (.setLockPassword (some n) current, ok) := by
  rw [perform_setNew hrefuses hrotation]
  cases h0 : ok 0 with
  | false => exact iff_of_true h fun hspoils => absurd (h0.symm.trans hspoils.2.2.1) (by simp)
  | true =>
    cases h1 : ok 1 with
    | true =>
      -- the backup is the live key, wrapped with this password
      refine iff_of_true ?_ fun hspoils => absurd (h1.symm.trans hspoils.2.2.2.1) (by simp)
      intro _ secret hsecret
      cases hsecret
      exact ⟨rfl, LockSecret.unwrapKey_wrap derive n.secret n.password _⟩
    | false =>
      have hiff : Usable derive (withSecret v n) ↔
          unwrapped derive v.keyring.lockBackup n.secret
            = some (v.keyring.live.getD n.generated) := by
        constructor
        · intro husable
          exact (husable hrotation n.secret rfl).2
        · intro hsame _ secret hsecret
          cases hsecret
          exact ⟨rfl, hsame⟩
      show Usable derive (withSecret v n) ↔ _
      rw [hiff]
      constructor
      · intro hsame hspoils
        exact hspoils.2.2.2.2 hsame
      · intro hno
        by_contra hne
        exact hno ⟨hrefuses, hrotation, h0, h1, hne⟩

theorem usable_rotateKey (h : Usable derive v) (generated : Key) :
    Usable derive (perform derive env v (.rotateKey generated) ok).1 ↔
      ¬ Spoils derive env v (.rotateKey generated, ok) := by
  have hfinishes := rotateKey_done_iff derive env v generated ok
  rcases perform_rotateKey derive env v generated ok with ⟨hsame, hnot⟩ | hrotated
  · exact iff_of_true (hsame.usable_iff.mpr h) fun hspoils =>
      hnot (hfinishes.mpr ⟨hspoils.1, hspoils.2.1⟩)
  · rcases hrotated.outcome with ⟨hdone, hnone, hlive⟩ | ⟨hnot, hmarked⟩
    · constructor
      · rintro husable ⟨-, -, secret, hsecret, hne⟩
        have hunwraps := (husable hnone secret (by rw [hrotated.secret]; exact hsecret)).2
        rw [hrotated.backup, hlive] at hunwraps
        exact hne hunwraps
      · intro hno _ secret hsecret
        rw [hrotated.secret] at hsecret
        rw [hrotated.backup, hlive]
        refine ⟨rfl, ?_⟩
        by_contra hne
        exact hno ⟨(hfinishes.mp hdone).1, (hfinishes.mp hdone).2, secret, hsecret, hne⟩
    · -- still in progress
      refine iff_of_true ?_ fun hspoils => hnot (hfinishes.mpr ⟨hspoils.1, hspoils.2.1⟩)
      intro hnone
      rw [hmarked] at hnone
      cases hnone

/-- What lifts or engages the lock leaves secret, keyring and storage alone. -/
theorem usable_of_same {v' : Vault} (h : Usable derive v) (hdaemon : v'.daemon = v.daemon)
    (hsecret : v'.lockSecret = v.lockSecret) (hkeyring : v'.keyring = v.keyring) :
    Usable derive v' := by
  unfold Usable
  rw [hdaemon, hsecret, hkeyring]
  exact h

theorem lockSecret_wipe (env : Env) (v : Vault) (fresh : Key) (ok : Nat → Bool) :
    (perform derive env v (.wipe fresh) ok).1.lockSecret = none := by
  show (settle derive env 4 ok (wipe env v fresh)).1.lockSecret = none
  unfold wipe
  split
  · cases h0 : ok 0 with
    | false => rw [settle_awaits_false 3 _ _ h0]
    | true =>
      rw [settle_awaits_true 3 _ _ h0, answered]
      cases h1 : ok 1 with
      | false => rw [settle_awaits_false 2 _ _ h1]
      | true =>
        rw [settle_awaits_true 2 _ _ h1, answered]
        cases h2 : ok 2 with
        | false => rw [settle_awaits_false 1 _ _ h2]
        | true => rw [settle_awaits_true 1 _ _ h2, answered, settle_done]
  · rw [settle_failed]

theorem lockSecret_remove (hrefuses : refuses v current = none) :
    (perform derive env v (.setLockPassword none current) ok).1.lockSecret = none := by
  have hstart : start env v (.setLockPassword none current)
      = ({ v with lockSecret := none }, .awaits .backupRemoved) := by
    simp [start, setLockPassword, hrefuses]
  unfold perform
  rw [hstart]
  cases h0 : ok 0 with
  | false => rw [settle_awaits_false 3 _ _ h0]
  | true => rw [settle_awaits_true 3 _ _ h0, answered, settle_done]

/-- A new password is refused and changes nothing, or its backup may fail. -/
theorem usable_setLockPassword (h : Usable derive v) (new : Option NewPassword) :
    Usable derive (perform derive env v (.setLockPassword new current) ok).1 ↔
      ¬ Spoils derive env v (.setLockPassword new current, ok) := by
  cases hrefuses : refuses v current with
  | some message =>
    have hstart : start env v (.setLockPassword new current) = (v, .failed message) := by
      simp [start, setLockPassword, hrefuses]
    rw [perform_setLockPassword_refused hstart]
    refine iff_of_true h ?_
    cases new with
    | none => exact fun hno => hno
    | some n => exact fun hspoils => absurd (hrefuses.symm.trans hspoils.1) (by simp)
  | none =>
    cases new with
    | none => exact iff_of_true (usable_of_none (lockSecret_remove hrefuses)) (fun hno => hno)
    | some n =>
      cases hrotation : v.daemon.db.rotationState with
      | none => exact usable_setNew h hrefuses hrotation
      | some state =>
        have hstart : start env v (.setLockPassword (some n) current)
            = (v, .failed rotationInProgress) := by
          simp [start, setLockPassword, hrefuses, hrotation]
        rw [perform_setLockPassword_refused hstart]
        exact iff_of_true h fun hspoils => absurd (hrotation.symm.trans hspoils.2.1) (by simp)

/-- **What one operation does to the backup.** -/
theorem usable_perform (h : Usable derive v) (op : Command × (Nat → Bool)) :
    Usable derive (perform derive env v op.1 op.2).1 ↔ ¬ Spoils derive env v op := by
  obtain ⟨c, ok⟩ := op
  cases c with
  | lock =>
    refine iff_of_true ?_ (fun hno => hno)
    show Usable derive (settle derive env 4 ok (engageLock v)).1
    unfold engageLock
    split
    · exact usable_of_same h rfl rfl rfl
    · exact h
  | unlock password now =>
    refine iff_of_true ?_ (fun hno => hno)
    show Usable derive (settle derive env 4 ok (unlock v password now)).1
    unfold unlock
    split
    · exact h
    · split
      · exact usable_of_same h rfl rfl rfl
      · exact h
  | autoLock now minutes =>
    refine iff_of_true ?_ (fun hno => hno)
    show Usable derive (maybeAutoLock v now minutes)
    unfold maybeAutoLock
    split
    · exact h
    · exact usable_of_same h rfl rfl rfl
  | setLockPassword new current => exact usable_setLockPassword h new
  | rotateKey generated => exact usable_rotateKey h generated
  | wipe fresh => exact iff_of_true (usable_of_none (lockSecret_wipe env v fresh ok)) (fun hno => hno)

/-- One operation after the other, each with the outcomes of its keyring calls. -/
def performOne (derive : DeriveKey) (env : Env) (v : Vault) (op : Command × (Nat → Bool)) : Vault :=
  (perform derive env v op.1 op.2).1

/-- **When the backup stays usable.**  Along every run of operations, with any keyring call
    failing, the backup unwraps to the live key wherever a password is set and no rotation is
    in progress exactly when no new password is left without its backup and no rotation
    finishes with the old one. -/
theorem backup_usable_iff (derive : DeriveKey) (env : Env) (v : Vault) (h : Usable derive v)
    (ops : List (Command × (Nat → Bool))) :
    (∀ v' ∈ Trace.states (performOne derive env) v ops, Usable derive v') ↔
      Trace.Never (performOne derive env) (Spoils derive env) v ops := by
  have hstep : ∀ (v : Vault) (op : Command × (Nat → Bool)), Usable derive v →
      (Usable derive (performOne derive env v op) ↔ ¬ Spoils derive env v op) :=
    fun _ op hv => usable_perform hv op
  exact Trace.forall_states_iff ops (fun s e _ => hstep s e) h

end Runs

namespace Sample

/-- A daemon without a lock password. -/
def plain : Vault where
  daemon := Sample.fresh
  lockSecret := none
  appLocked := false
  lastActivity := 0
  keyring := ⟨some [1], none, none⟩

/-- A password is set, then the key is rotated; the keyring answers every call. -/
def setAndRotate : List (Command × (Nat → Bool)) :=
  [(.setLockPassword (some ⟨"hunter2", "s", "t", [9]⟩) none, fun _ => true),
    (.rotateKey [2], fun _ => true)]

/-- The rotation is over, the password is set, and the backup still holds the old key. -/
theorem rotation_leaves_the_old_backup :
    Usable derive plain ∧
    ∃ v ∈ Trace.states (performOne derive Panod.Sample.env) plain setAndRotate,
      v.daemon.db.rotationState = none ∧ v.keyring.pending = none ∧
      v.keyring.live = some [2] ∧
      ∃ secret ∈ v.lockSecret, secret.verify "hunter2" = true ∧
        unwrapped derive v.keyring.lockBackup secret = some [1] := by
  refine ⟨by decide, _, List.mem_cons_of_mem _ (List.mem_cons_of_mem _ List.mem_cons_self), ?_⟩
  decide +kernel

/-- A password is set, and a rotation is cut short: the keyring does not replace the live key. -/
def setAndStop : List (Command × (Nat → Bool)) :=
  [(.setLockPassword (some ⟨"hunter2", "s", "t", [9]⟩) none, fun _ => true),
    (.rotateKey [2], fun i => i != 2)]

theorem backup_usable_setAndStop : Usable derive plain ∧
    ∀ v ∈ Trace.states (performOne derive Panod.Sample.env) plain setAndStop, Usable derive v := by
  have husable : Usable derive plain := by decide
  refine ⟨husable, (backup_usable_iff derive Panod.Sample.env plain husable setAndStop).mpr ?_⟩
  exact ⟨fun h => absurd h.2.2.2.1 (by decide), fun h => absurd (h.1 2 (by decide)) (by decide),
    trivial⟩

end Sample

end Panora.Keys
