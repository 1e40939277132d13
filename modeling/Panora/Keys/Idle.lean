/-
  Panora.Keys.Idle — locking after a while without activity.

  `touch_activity` and `maybe_auto_lock` of `crates/panod/src/daemon.rs`, and the check
  `crates/panod/src/server.rs` makes every half minute.  The daemon knows of no user: a
  request is activity unless it is one of two that are left out by name.  A sync session
  asks for changes every ten seconds (`crates/panora-sync/src/session.rs`).

  Main results:
    * `handleRequest_background` — what a request nobody made does to the lock;
    * `idle_lock_iff` — when the lock is engaged after a run of such requests and checks.
-/
import Panora.Keys.Serve

namespace Panora.Keys

open Storage Lib Panod List

/-! ## §1. Requests nobody made -/

/-- A request as it comes in. -/
structure Arrival where
  /-- The connection speaks the binary protocol. -/
  v3 : Bool
  world : World
  ask : Ask

/-- A `Subscribe` on a v3 connection becomes an event stream and is never handled as a
    request. -/
def Arrival.handled (a : Arrival) : Bool :=
  match a.ask with
  | .subscribe => !a.v3
  | _ => true

/-- The request counts as activity. -/
def Arrival.touches (a : Arrival) : Bool := a.handled && Keys.touches a.ask

/-- A request clients and the sync service make by themselves. -/
def Background : Ask → Prop
  | .status => True
  | .hello _ => True
  | .subscribe => True
  | .syncChanges _ _ _ => True
  | .syncApply _ => True
  | _ => False

/-- A request comes in, or the idle time is checked. -/
inductive Beat where
  | request (a : Arrival)
  | check (now : Int)

/-- When it happens. -/
def Beat.time : Beat → Int
  | .request a => a.world.env.now
  | .check now => now

/-- The check, with the minutes that are configured. -/
def autoLock (minutes : Nat) (s : Server) (now : Int) : Server :=
  let v := maybeAutoLock s.vault now minutes
  { s with vault := v, revision := if v = s.vault then s.revision else s.revision + 1 }

/-- What happens to the daemon. -/
def beat (shown : Shown) (derive : DeriveKey) (minutes : Nat) (s : Server) : Beat → Server
  | .request a => if a.handled then (handleRequest shown derive a.world s a.ask).1 else s
  | .check now => autoLock minutes s now

/-- A run. -/
def beats (shown : Shown) (derive : DeriveKey) (minutes : Nat) (s : Server) (run : List Beat) :
    Server :=
  run.foldl (beat shown derive minutes) s

section Runs

variable {shown : Shown} {derive : DeriveKey}

theorem gated_lock (w : World) (s : Server) (ask : Ask) (answer : Reply) :
    (gated shown w s ask answer).1.vault.appLocked = s.vault.appLocked ∧
      (gated shown w s ask answer).1.vault.lockSecret = s.vault.lockSecret ∧
      (gated shown w s ask answer).1.vault.lastActivity = s.vault.lastActivity := by
  unfold gated
  split
  · exact ⟨rfl, rfl, rfl⟩
  · exact ⟨rfl, rfl, rfl⟩

/-- **A request nobody made** leaves the lock and the password alone. -/
theorem handleRequest_background {ask : Ask} (h : Background ask) (w : World) (s : Server) :
    (handleRequest shown derive w s ask).1.vault.appLocked = s.vault.appLocked ∧
      (handleRequest shown derive w s ask).1.vault.lockSecret = s.vault.lockSecret ∧
      (handleRequest shown derive w s ask).1.vault.lastActivity
        = if touches ask then w.env.now else s.vault.lastActivity := by
  cases ask with
  | status => exact ⟨rfl, rfl, rfl⟩
  | hello maxProtocol => exact ⟨rfl, rfl, rfl⟩
  | subscribe => exact ⟨rfl, rfl, rfl⟩
  | syncChanges since limit scope => exact gated_lock w (touchActivity s w.env.now) _ _
  | syncApply records => exact gated_lock w (touchActivity s w.env.now) _ _
  | _ => exact absurd h id

/-! ## §2. Runs of them -/

theorem beat_request (shown : Shown) (derive : DeriveKey) {a : Arrival} (h : Background a.ask)
    (minutes : Nat) (s : Server) :
    (beat shown derive minutes s (.request a)).vault.appLocked = s.vault.appLocked ∧
      (beat shown derive minutes s (.request a)).vault.lockSecret = s.vault.lockSecret ∧
      (beat shown derive minutes s (.request a)).vault.lastActivity
        = if a.touches then a.world.env.now else s.vault.lastActivity := by
  show (if a.handled then (handleRequest shown derive a.world s a.ask).1 else s).vault.appLocked
    = _ ∧ (if a.handled then (handleRequest shown derive a.world s a.ask).1 else s).vault.lockSecret
    = _ ∧ (if a.handled then (handleRequest shown derive a.world s a.ask).1 else s).vault.lastActivity
    = if a.handled && touches a.ask then _ else _
  by_cases hhandled : a.handled = true
  · rw [if_pos hhandled, hhandled, Bool.true_and]
    exact handleRequest_background h a.world s
  · rw [if_neg hhandled, Bool.eq_false_iff.mpr hhandled]
    exact ⟨rfl, rfl, rfl⟩

/-- The check engages the lock exactly when the time is up. -/
theorem autoLock_lock {minutes : Nat} {s : Server} (hminutes : 0 < minutes)
    (hset : s.vault.lockSecret.isSome = true) (now : Int) :
    ((autoLock minutes s now).vault.appLocked = true ↔
      s.vault.appLocked = true ∨ s.vault.lastActivity + minutes * 60 ≤ now) ∧
      (autoLock minutes s now).vault.lockSecret = s.vault.lockSecret ∧
      (autoLock minutes s now).vault.lastActivity = s.vault.lastActivity := by
  have hsome : s.vault.lockSecret ≠ none := Option.isSome_iff_ne_none.mp hset
  have hidle : idleSeconds s.vault now < minutes * 60 ↔
      ¬ s.vault.lastActivity + minutes * 60 ≤ now := by
    unfold idleSeconds
    omega
  show ((maybeAutoLock s.vault now minutes).appLocked = true ↔ _) ∧
    (maybeAutoLock s.vault now minutes).lockSecret = _ ∧
    (maybeAutoLock s.vault now minutes).lastActivity = _
  unfold maybeAutoLock
  split
  next hstay =>
    refine ⟨⟨.inl, fun h => ?_⟩, rfl, rfl⟩
    -- of the four reasons not to lock, only that it is locked already is left
    rcases h with hlocked | htime
    · exact hlocked
    · rcases hstay with hlocked | hzero | hbusy | hnone
      · exact hlocked
      · omega
      · exact absurd htime (hidle.mp hbusy)
      · exact absurd hnone hsome
  next hgo =>
    refine ⟨iff_of_true rfl (.inr ?_), rfl, rfl⟩
    by_contra hlate
    exact hgo (.inr (.inr (.inl (hidle.mpr hlate))))

/-- A check of the run comes after long enough a time without activity. -/
def Quiet (minutes : Nat) (last : Int) (run : List Beat) : Prop :=
  ∃ before now after, run = before ++ .check now :: after ∧ last + minutes * 60 ≤ now ∧
    ∀ a, .request a ∈ before → a.touches = true → a.world.env.now + minutes * 60 ≤ now

theorem not_quiet_nil (minutes : Nat) (last : Int) : ¬ Quiet minutes last [] := by
  rintro ⟨before, now, after, hrun, -⟩
  exact absurd hrun (by simp)

/-- After a request the time counts from it, or from before it if it is not activity. -/
theorem quiet_request {minutes : Nat} {last : Int} {a : Arrival} {run : List Beat}
    (hlast : last ≤ a.world.env.now) :
    Quiet minutes last (.request a :: run) ↔
      Quiet minutes (if a.touches then a.world.env.now else last) run := by
  constructor
  · rintro ⟨before, now, after, hrun, htime, hall⟩
    cases before with
    | nil => cases hrun
    | cons b before =>
      rw [cons_append, cons.injEq] at hrun
      obtain ⟨rfl, hrun⟩ := hrun
      refine ⟨before, now, after, hrun, ?_, fun a' ha' => hall a' (mem_cons_of_mem _ ha')⟩
      split
      next htouches => exact hall a mem_cons_self htouches
      next => exact htime
  · rintro ⟨before, now, after, hrun, htime, hall⟩
    refine ⟨.request a :: before, now, after, by rw [hrun]; rfl, ?_, ?_⟩
    · split at htime
      next => omega
      next => exact htime
    · intro a' ha' htouches
      rcases mem_cons.mp ha' with heq | hmem
      · cases heq
        rw [if_pos htouches] at htime
        exact htime
      · exact hall a' hmem htouches

/-- A check is the one, or a later one is. -/
theorem quiet_check {minutes : Nat} {last now : Int} {run : List Beat} :
    Quiet minutes last (.check now :: run) ↔
      last + minutes * 60 ≤ now ∨ Quiet minutes last run := by
  constructor
  · rintro ⟨before, now', after, hrun, htime, hall⟩
    cases before with
    | nil =>
      cases hrun
      exact .inl htime
    | cons b before =>
      rw [cons_append, cons.injEq] at hrun
      exact .inr ⟨before, now', after, hrun.2, htime,
        fun a ha => hall a (mem_cons_of_mem _ ha)⟩
  · rintro (htime | ⟨before, now', after, hrun, htime, hall⟩)
    · exact ⟨[], now, run, rfl, htime, fun a ha => absurd ha (by simp)⟩
    · refine ⟨.check now :: before, now', after, by rw [hrun]; rfl, htime, fun a ha => ?_⟩
      rcases mem_cons.mp ha with heq | hmem
      · cases heq
      · exact hall a hmem

/-- **When the idle lock is engaged.**  After a run of requests nobody made and of checks, in
    the order of their times, the lock is engaged exactly when it was before, or one of the
    checks came the configured minutes after every request that counts as activity. -/
theorem idle_lock_iff (shown : Shown) (derive : DeriveKey) (minutes : Nat)
    (hminutes : 0 < minutes) (s : Server) (hset : s.vault.lockSecret.isSome = true)
    (run : List Beat) (hbackground : ∀ a, .request a ∈ run → Background a.ask)
    (hordered : run.Pairwise (fun b c => b.time ≤ c.time))
    (hlast : ∀ b ∈ run, s.vault.lastActivity ≤ b.time) :
    (beats shown derive minutes s run).vault.appLocked = true ↔
      s.vault.appLocked = true ∨ Quiet minutes s.vault.lastActivity run := by
  -- over the run, from the front: each beat moves the time the idle time counts from
  induction run generalizing s with
  | nil => exact ⟨.inl, fun h => h.resolve_right (not_quiet_nil minutes _)⟩
  | cons b run ih =>
    obtain ⟨hfirst, hrest⟩ := pairwise_cons.mp hordered
    have hback : ∀ a, .request a ∈ run → Background a.ask :=
      fun a ha => hbackground a (mem_cons_of_mem _ ha)
    have hlater : ∀ c ∈ run, s.vault.lastActivity ≤ c.time :=
      fun c hc => hlast c (mem_cons_of_mem _ hc)
    show (beats shown derive minutes (beat shown derive minutes s b) run).vault.appLocked = true
      ↔ _
    cases b with
    | request a =>
      obtain ⟨hlocked, hsecret, hactive⟩ := beat_request shown derive
        (hbackground a mem_cons_self) minutes s
      rw [ih _ (hsecret ▸ hset) hback hrest, hlocked, hactive,
        quiet_request (hlast _ mem_cons_self)]
      intro c hc
      rw [hactive]
      split
      · exact hfirst c hc
      · exact hlater c hc
    | check now =>
      obtain ⟨hlocked, hsecret, hactive⟩ := autoLock_lock hminutes hset now
      have hstep : beat shown derive minutes s (.check now) = autoLock minutes s now := rfl
      rw [hstep, ih _ (hsecret ▸ hset) hback hrest (fun c hc => hactive ▸ hlater c hc), hlocked,
        hactive, quiet_check, or_assoc]

end Runs

namespace Sample

/-- Nothing is shown. -/
def nothing : Shown := fun _ d _ => (d, 0, .empty)

/-- What a request meets at a time. -/
def worldAt (now : Int) : World where
  env := { Sample.env with now }
  keyring _ := true
  verifierSalt := "u"
  kekSalt := "v"
  generated := [2]
  reload := .ok ()
  gui := .ok ()
  offer _ := .ok ()
  openArchive _ _ := .ok []

/-- A daemon with a lock password, not locked, last used at time 0. -/
def unlocked : Server where
  vault := { locked with appLocked := false }
  privateMode := false
  sessionLocked := false
  revision := 0

/-- The sync service asks for changes. -/
def poll (now : Int) : Beat := .request ⟨true, worldAt now, .syncChanges 0 0 ⟨false, false⟩⟩

/-- A minute of polling, every ten seconds, with the checks of that time. -/
def minuteOfPolling : List Beat :=
  [poll 10, poll 20, poll 30, .check 30, poll 40, poll 50, poll 60, .check 60]

theorem background_minuteOfPolling {a : Arrival} (h : .request a ∈ minuteOfPolling) :
    Background a.ask := by
  simp only [minuteOfPolling, poll, mem_cons, not_mem_nil, Beat.request.injEq,
    reduceCtorEq, or_false, false_or] at h
  rcases h with rfl | rfl | rfl | rfl | rfl | rfl <;> trivial

/-- A sync session keeps the lock off: after a minute in which no user made a request, the
    check does not engage a lock that is set to one minute. -/
theorem polling_keeps_the_lock_off :
    unlocked.vault.lockSecret.isSome = true ∧
    (∀ a, .request a ∈ minuteOfPolling → Background a.ask) ∧
    (beats nothing derive 1 unlocked minuteOfPolling).vault.appLocked = false :=
  ⟨rfl, fun _ => background_minuteOfPolling, rfl⟩

/-- A poll, and a minute in which nothing comes. -/
def pollAndPause : List Beat := [poll 10, .check 30, .check 60, .check 90]

/-- Without a request the lock is engaged. -/
theorem idle_lock_of_pause :
    unlocked.vault.appLocked = false ∧
      (beats nothing derive 1 unlocked pollAndPause).vault.appLocked = true := by
  refine ⟨rfl, (idle_lock_iff nothing derive 1 (by decide) unlocked rfl pollAndPause ?_ ?_ ?_).mpr
    (.inr ⟨[poll 10, .check 30, .check 60], 90, [], rfl, by decide, ?_⟩)⟩
  · simp [pollAndPause, poll, Background]
  · simp [pollAndPause, poll, Beat.time, worldAt]
  · simp [pollAndPause, poll, Beat.time, worldAt, unlocked, locked]
  · simp [poll, worldAt]

end Sample

end Panora.Keys
