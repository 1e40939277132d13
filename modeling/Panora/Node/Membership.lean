/-
  Panora.Node.Membership — joining while already a member.

  `check_can_join` looks once, before the network exchange; the group is stored after it.
  Whatever made the node a member meanwhile is overwritten: another join that ended, or a
  group made by `invite` or `pair`.

  Main result: `membership_kept_iff` — along a run, the node's group is replaced only after
  it left or was removed exactly when no join ends after something else made the node a
  member since the join was allowed.
-/
import Panora.Group.WinBack
import Panora.Node.Identity

namespace Panora.Node

open Panora.Group
open Panora.Lib.Log
open Panora.Pairing (PairCrypto)

variable {C : PairCrypto} {cfg : Config} {n : Nat}

/-! ## §1. Membership in the log -/

/-- Is the node a member after this event? -/
def Event.member (before : Bool) : Event → Bool
  | .created | .joined _ | .adopted _ => true
  | .left => false
  | .updated member => member
  | .allowed _ | .started _ | .copied _ => before

/-- Is a node that was no member one after these events? -/
def membership (log : List Event) : Bool := log.foldl Event.member false

/-- Does a join end while nothing else has made the node a member since it was allowed? -/
def JoinsAlone (log : List Event) : Event → Prop
  | .joined t => ∀ mid ∈ since (.allowed t) log, membership mid = false
  | _ => True

/-! ## §2. What a step may do to a membership -/

/-- A member stays in its group unless it leaves: no join ends, and the group is the same
    one.  (A device that was removed is no member any more.) -/
def Keeps (w : World) (d : Did) : Prop :=
  w.state.isMember = true → d.event ≠ some .left →
    (∀ t, d.event ≠ some (.joined t))
      ∧ ∃ g g', w.state.group = some g ∧ d.world.state.group = some g' ∧ g'.groupId = g.groupId

/-- Every step of a run keeps the membership. -/
def KeepsAlong (C : PairCrypto) (cfg : Config) : World → List Step → Prop
  | _, [] => True
  | w, st :: sts => Keeps w (w.step C cfg st) ∧ KeepsAlong C cfg (w.step C cfg st).world sts

/-- Group ids have the one length they are written in (sixteen bytes in the source). -/
def Sized (n : Nat) (s : SyncState) : Prop :=
  ∀ g ∈ s.group, ∀ id, g.groupId = .ok id → id.length = n

/-- What the tasks of a node hold, against its log. -/
structure Settled (C : PairCrypto) (n : Nat) (log : List Event) (w : World) : Prop where
  kept : ∀ g ∈ w.state.group, g.WellKept C.group
  sized : Sized n w.state
  joins : ∀ t, w.joins t ≠ none →
    ∃ mid, since (.allowed t) log = some mid ∧ membership mid = w.state.isMember
  /-- A copy was made of a group that was kept well. -/
  admissions : ∀ t r a, w.admissions t = some (.welcoming r a) →
    ∃ g, Copied C g r a ∧ g.WellKept C.group ∧ ∀ id, g.groupId = .ok id → id.length = n

variable {s : SyncState}

theorem settled_start (h : s.Sound C) (hsized : Sized n s) : Settled C n [] (World.start s) where
  kept := h.kept
  sized := hsized
  joins _ h := absurd rfl h
  admissions _ _ _ h := absurd h (by simp [World.start])

section OneStep

variable {log : List Event} {w w' : World}

variable {g : GroupState}

theorem isMember_store (h : g.isMember = .ok true) : (s.storeJoined g).isMember = true := by
  unfold SyncState.isMember SyncState.storeJoined
  rw [Option.any_some, h]

theorem exists_group_of_isMember (h : s.isMember = true) : ∃ g, s.group = some g := by
  unfold SyncState.isMember at h
  cases hg : s.group with
  | none =>
    rw [hg] at h
    cases h
  | some g => exact ⟨g, rfl⟩

variable {d : Did}

/-- A step that leaves the state alone keeps the membership. -/
theorem keeps_of_same (hstate : d.world.state = w.state)
    (hevent : ∀ t, d.event ≠ some (.joined t)) : Keeps w d := by
  intro hmember _
  obtain ⟨g, hg⟩ := exists_group_of_isMember hmember
  exact ⟨hevent, g, g, hg, by rw [hstate, hg], rfl⟩

/-- The log grows by an event that says what the step did to the membership. -/
theorem Settled.grow (h : Settled C n log w) {e : Event}
    (hkept : ∀ g ∈ w'.state.group, g.WellKept C.group) (hsized : Sized n w'.state)
    (hmember : w'.state.isMember = e.member w.state.isMember)
    (hjoins : ∀ t, w'.joins t ≠ none →
      (w.joins t ≠ none ∧ e ≠ .allowed t) ∨ (e = .allowed t ∧ w'.state.isMember = false))
    (hadmissions : ∀ t r a, w'.admissions t = some (.welcoming r a) →
      w.admissions t = some (.welcoming r a)
        ∨ ∃ g, Copied C g r a ∧ g.WellKept C.group ∧ ∀ id, g.groupId = .ok id → id.length = n) :
    Settled C n (log ++ [e]) w' where
  kept := hkept
  sized := hsized
  joins := by
    intro t ht
    rcases hjoins t ht with ⟨hold, hne⟩ | ⟨rfl, hnot⟩
    · obtain ⟨mid, hmid, hsame⟩ := h.joins t hold
      refine ⟨mid ++ [e], since_snoc_of_ne hne hmid, ?_⟩
      unfold membership at hsame ⊢
      rw [List.foldl_append, hsame, hmember]
      rfl
    · exact ⟨[], since_snoc_self _ log, hnot.symm⟩
  admissions := by
    intro t r a ha
    rcases hadmissions t r a ha with hold | hnew
    · exact h.admissions t r a hold
    · exact hnew

/-- **A copy that takes the group's place is of the same group**: it follows the roster
    that is current. -/
theorem groupId_of_adopted (hcf : CollisionFree C.group) {g' admitted : GroupState}
    {roster cur : Roster} (hcopied : Copied C g roster admitted)
    (hsized : ∀ id, g.groupId = .ok id → id.length = n)
    (hcur : g'.rosters.getLast? = some cur) (hhash : cur.hash C.group = roster.prev)
    (hsized' : ∀ id, g'.groupId = .ok id → id.length = n) : admitted.groupId = g'.groupId := by
  obtain ⟨old, hold, hprev, hgroup, hlast⟩ := hcopied.follows
  have hbody : cur.body = old.body := hcf _ _ (hhash.trans hprev.symm)
  have hlen : cur.groupId.length = old.groupId.length := by
    rw [hsized' _ (GroupState.groupId_of_current hcur),
      hsized _ (GroupState.groupId_of_current hold)]
  rw [GroupState.groupId_of_current hlast, GroupState.groupId_of_current hcur, ← hgroup,
    groupId_of_body_eq hbody hlen]

/-- Where no join ends, there is only the membership to keep. -/
theorem keeps_iff_of_no_join (hkeeps : Keeps w d)
    (hevent : ∀ t, d.event ≠ some (.joined t)) : Keeps w d ↔ ∀ e ∈ d.event, JoinsAlone log e := by
  refine ⟨fun _ e he => ?_, fun _ => hkeeps⟩
  cases e with
  | joined t => exact absurd he (hevent t)
  | created | allowed | started | copied | adopted | left | updated => trivial

/-- A group that was stored. -/
theorem kept_store (hkept : g.WellKept C.group) :
    ∀ g' ∈ (s.storeJoined g).group, g'.WellKept C.group := by
  intro g' hg'
  cases hg'
  exact hkept

/-- The tasks stay settled, whatever happens. -/
theorem Settled.next {fresh : Option DeviceIdentity} (h : Settled C n log w)
    (hd : Happens C w fresh d) (hsized : Sized n d.world.state) :
    Settled C n (log ++ d.event.toList) d.world := by
  cases hd with
  | @quiet w' hstate hfewer =>
    show Settled C n (log ++ []) w'
    rw [List.append_nil]
    refine ⟨?_, hsized, ?_, fun t r a ha => h.admissions t r a (hfewer.welcoming t r a ha)⟩
    · rw [hstate]
      exact h.kept
    · intro t ht
      rw [hstate]
      exact h.joins t (hfewer.joins t ht)
  | created hnone hkept hme hmember =>
    exact h.grow (kept_store hkept) hsized (isMember_store hmember)
      (fun t ht => .inl ⟨ht, by simp⟩) (fun t r a ha => .inl ha)
  | allowed t hmember =>
    refine h.grow h.kept hsized rfl ?_ (fun t r a ha => .inl ha)
    intro t' ht'
    by_cases hsame : t' = t
    · exact .inr ⟨by rw [hsame], hmember⟩
    · rw [World.joins_setJoin_of_ne w hsame] at ht'
      exact .inl ⟨ht', by simpa using Ne.symm hsame⟩
  | started t hallowed hidentity =>
    refine h.grow h.kept hsized rfl ?_ (fun t r a ha => .inl ha)
    intro t' ht'
    by_cases hsame : t' = t
    · exact .inl ⟨by rw [hsame, hallowed]; simp, by simp⟩
    · rw [World.joins_setJoin_of_ne w hsame] at ht'
      exact .inl ⟨ht', by simp⟩
  | @joined t joiner g hrunning hkept hme hmember =>
    refine h.grow (kept_store hkept) hsized (isMember_store hmember) ?_
      (fun t r a ha => .inl ha)
    intro t' ht'
    have hfewer := World.fewer_setJoin (w := w) (t := t) none (by rw [hrunning]; simp) (by simp)
    exact .inl ⟨hfewer.joins t' ht', by simp⟩
  | updated w' hwithin hfewer =>
    refine h.grow ?_ hsized rfl (fun t ht => .inl ⟨hfewer.joins t ht, by simp⟩)
      (fun t r a ha => .inl (hfewer.welcoming t r a ha))
    intro g' hg'
    rcases hwithin.group with hsame | ⟨g, g'', hg, hg'', hkeep⟩
    · exact h.kept g' (by rw [← hsame]; exact hg')
    · rw [show w'.state.group = some g' from hg'] at hg''
      cases hg''
      exact (hkeep (h.kept g hg)).2
  | left fresh =>
    exact h.grow (by simp [SyncState.leave]) hsized rfl (fun t ht => .inl ⟨ht, by simp⟩)
      (fun t r a ha => .inl ha)
  | @copied t g admitted roster hgroup hcopied =>
    refine h.grow h.kept hsized rfl (fun t ht => .inl ⟨ht, by simp⟩) ?_
    intro t' r a ha
    by_cases hsame : t' = t
    · rw [hsame, World.admissions_setAdmission_self] at ha
      cases ha
      exact .inr ⟨g, hcopied, h.kept g hgroup, h.sized g hgroup⟩
    · rw [World.admissions_setAdmission_of_ne w hsame] at ha
      exact .inl ha
  | @adopted t g admitted roster cur hwelcoming hgroup hcur hhash =>
    obtain ⟨old, hcopied, hold, -⟩ := h.admissions t roster admitted hwelcoming
    have hfewer := World.fewer_setAdmission (w := w) (t := t) none (by simp)
    exact h.grow (kept_store (hcopied.keeps hold).2) hsized (isMember_store hcopied.member)
      (fun t ht => .inl ⟨ht, by simp⟩)
      (fun t' r a ha => .inl (hfewer.welcoming t' r a ha))

/-- **One step keeps the membership** exactly when no join ends beside another way into a
    group. -/
theorem Settled.keeps_iff (hcf : CollisionFree C.group) {fresh : Option DeviceIdentity}
    (h : Settled C n log w) (hd : Happens C w fresh d) :
    Keeps w d ↔ ∀ e ∈ d.event, JoinsAlone log e := by
  cases hd with
  | @quiet w' hstate hfewer =>
    exact keeps_iff_of_no_join (keeps_of_same hstate (by simp [World.quiet])) (by simp [World.quiet])
  | created hnone hkept hme hmember =>
    refine keeps_iff_of_no_join ?_ (by simp)
    intro hwas
    obtain ⟨g, hg⟩ := exists_group_of_isMember hwas
    rw [hnone] at hg
    cases hg
  | allowed t hmember => exact keeps_iff_of_no_join (keeps_of_same rfl (by simp)) (by simp)
  | started t hallowed hidentity =>
    exact keeps_iff_of_no_join (keeps_of_same rfl (by simp)) (by simp)
  | @joined t joiner g hrunning hkept hme hmember =>
    -- whether the node is a member is what happened since the join was allowed
    obtain ⟨mid, hmid, hsame⟩ := h.joins t (by rw [hrunning]; simp)
    have halone : (∀ e ∈ some (Event.joined t), JoinsAlone log e) ↔ w.state.isMember = false := by
      rw [← hsame]
      constructor
      · intro hall
        exact hall (.joined t) rfl mid hmid
      · intro hnot e he
        cases he
        intro mid' hmid'
        rw [hmid] at hmid'
        cases hmid'
        exact hnot
    refine Iff.trans ?_ halone.symm
    constructor
    · intro hkeeps
      by_contra hwas
      exact (hkeeps (Bool.eq_true_of_not_eq_false hwas) (by simp)).1 t rfl
    · intro hnot hwas
      rw [hnot] at hwas
      cases hwas
  | updated w' hwithin hfewer =>
    refine keeps_iff_of_no_join ?_ (by simp [World.update])
    intro hwas _
    obtain ⟨g, hg⟩ := exists_group_of_isMember hwas
    refine ⟨by simp [World.update], ?_⟩
    rcases hwithin.group with hsame | ⟨g', g'', hg', hg'', hkeep⟩
    · exact ⟨g, g, hg, hsame.trans hg, rfl⟩
    · exact ⟨g', g'', hg', hg'', (hkeep (h.kept g' hg')).1.groupId⟩
  | left fresh =>
    refine keeps_iff_of_no_join ?_ (by simp)
    intro _ hstays
    exact absurd rfl hstays
  | copied t hgroup hcopied =>
    exact keeps_iff_of_no_join (keeps_of_same rfl (by simp)) (by simp)
  | @adopted t g admitted roster cur hwelcoming hgroup hcur hhash =>
    obtain ⟨old, hcopied, -, hsized⟩ := h.admissions t roster admitted hwelcoming
    refine keeps_iff_of_no_join ?_ (by simp)
    intro _ _
    exact ⟨by simp, g, admitted, hgroup, rfl,
      groupId_of_adopted hcf hcopied hsized hcur hhash (h.sized g hgroup)⟩

end OneStep

/-! ## §3. Whole runs -/

theorem keepsAlong_iff_along (hcf : CollisionFree C.group) :
    ∀ (steps : List Step) {log : List Event} {w : World}, Settled C n log w →
      (∀ d ∈ w.trace C cfg steps, Sized n d.world.state) →
      (KeepsAlong C cfg w steps ↔ Along JoinsAlone log (events (w.trace C cfg steps)))
  | [], log, w, _, _ => by simp [KeepsAlong, World.trace, events]
  | st :: steps, log, w, h, hsized => by
    have hstep : Happens C w st.fresh (w.step C cfg st) := w.step_happens st
    have hnow : Sized n (w.step C cfg st).world.state := hsized _ List.mem_cons_self
    have ih := keepsAlong_iff_along hcf steps (h.next hstep hnow)
      (fun d hd => hsized d (List.mem_cons_of_mem _ hd))
    show (Keeps w (w.step C cfg st) ∧ KeepsAlong C cfg (w.step C cfg st).world steps)
      ↔ Along JoinsAlone log
        (events (w.step C cfg st :: (w.step C cfg st).world.trace C cfg steps))
    rw [events_cons, h.keeps_iff hcf hstep, ih]
    cases hevent : (w.step C cfg st).event with
    | none => simp
    | some e =>
      rw [show (some e).toList = [e] from rfl, List.singleton_append, along_cons]
      simp

/-- **When a membership is kept.**  For every run of requests, pairings and messages from
    peers, of a node that started from a new or a loaded state: a member's group is
    replaced by nothing but leaving, and no join ends while the node is a member, exactly
    when no join ends after something else made the node a member since it was allowed. -/
theorem membership_kept_iff (C : PairCrypto) (hcf : CollisionFree C.group) (cfg : Config)
    (state : SyncState)
    (hstate : (∃ name drawn, SyncState.new name drawn = .ok state)
      ∨ ∃ f, SyncState.load C f = .ok state)
    (steps : List Step) (n : Nat) (hsized : Sized n state)
    (hsizes : ∀ d ∈ (World.start state).trace C cfg steps, Sized n d.world.state) :
    KeepsAlong C cfg (World.start state) steps
      ↔ Along JoinsAlone [] (events ((World.start state).trace C cfg steps)) := by
  have hsound : state.Sound C := by
    rcases hstate with ⟨name, drawn, hnew⟩ | ⟨f, hload⟩
    · exact SyncState.sound_new hnew
    · exact SyncState.sound_load hload
  exact keepsAlong_iff_along hcf steps (settled_start hsound hsized) hsizes

/-! ## §4. Inviting while joining -/

namespace Sample

open Panora.Pairing.Honest (crypto joinerRun toBlock)

/-- The laptop's state once it invited a device itself. -/
def hosting : SyncState := (alone.ensureGroup crypto laptop.deviceId 102 [8] [4]).2

theorem ensureGroup_alone :
    alone.ensureGroup crypto laptop.deviceId 102 [8] [4] = (.ok true, hosting) :=
  Prod.ext (show (alone.ensureGroup crypto laptop.deviceId 102 [8] [4]).1 = .ok true by
    decide +kernel) rfl

theorem isMember_hosting : hosting.isMember = true := by
  obtain ⟨-, g, hg, -, -, hmember⟩ := ensureGroup_created ensureGroup_alone
  rw [hg]
  exact isMember_store hmember

/-- **Inviting while a join is under way**: the laptop makes a group of its own to invite a
    device, and the join that ends afterwards replaces it. -/
theorem invite_while_joining_is_replaced : ∃ welcome,
    ¬ KeepsAlong crypto laptop (World.start alone)
      (joining [.ensureGroup 102 [8] [4]] welcome) := by
  obtain ⟨welcome, final, hrun⟩ := welcomed
  refine ⟨welcome, fun hkeeps => ?_⟩
  have hstart : ((World.start alone).setJoin 0 (some .allowed)).step crypto laptop
      (.startJoin 0 none 101 (toBlock [5])) = ⟨talking alone, some (.started 0), false⟩ :=
    World.step_startJoin (World.joins_setJoin_self _ _ _) joinerRun.started
  have hinvite : (talking alone).step crypto laptop (.ensureGroup 102 [8] [4])
      = ⟨{ talking alone with state := hosting }, some .created, true⟩ := by
    unfold World.step
    dsimp only
    rw [show (talking alone).state = alone from rfl, ensureGroup_alone]
  have hlast : World.step crypto laptop { talking alone with state := hosting }
      (.finishJoin 0 (.offer (toBlock [6]) [1]) true welcome)
      = ⟨{ (talking alone).setJoin 0 none with state := hosting.storeJoined final },
        some (.joined 0), true⟩ :=
    World.step_finishJoin (show (talking alone).joins 0 = _ from World.joins_setJoin_self _ _ _) hrun
  -- the last of the four steps is the one that replaces
  have hend := hkeeps.2
  rw [show (World.start alone).step crypto laptop (.checkCanJoin 0)
    = ⟨(World.start alone).setJoin 0 (some .allowed), some (.allowed 0), false⟩ from rfl] at hend
  have hend := hend.2
  rw [hstart] at hend
  have hend := hend.2
  rw [hinvite] at hend
  have hend := hend.1
  rw [hlast] at hend
  exact (hend isMember_hosting (by simp)).1 0 rfl

/-- A join that nothing comes between replaces nothing. -/
theorem membership_kept_iff_joined : ∃ welcome,
    KeepsAlong crypto laptop (World.start alone) (joining [] welcome)
      ∧ events ((World.start alone).trace crypto laptop (joining [] welcome))
        = [.allowed 0, .started 0, .joined 0] := by
  obtain ⟨welcome, final, hrun⟩ := welcomed
  have hevents : events ((World.start alone).trace crypto laptop (joining [] welcome))
      = [.allowed 0, .started 0, .joined 0] := by
    rw [trace_joined hrun]
    rfl
  -- one group is all the run ever has
  let n := (final.groupId.toOption.getD []).length
  have hfinal : Sized n (alone.storeJoined final) := by
    intro g hg id hid
    cases hg
    show id.length = (final.groupId.toOption.getD []).length
    rw [hid]
    rfl
  have halone : Sized n alone := fun g hg => absurd hg (by simp [alone])
  refine ⟨welcome, (membership_kept_iff crypto plainCrypto_collisionFree laptop alone
    (.inl ⟨"Lap", ⟨[2]⟩, alone_new⟩) (joining [] welcome) n halone ?_).mpr ?_, hevents⟩
  · intro d hd
    rw [trace_joined hrun] at hd
    simp only [List.mem_cons, List.not_mem_nil, or_false] at hd
    rcases hd with rfl | rfl | rfl
    · exact halone
    · exact halone
    · exact hfinal
  · rw [hevents]
    simp [Along, JoinsAlone, since, membership, Event.member]

end Sample

end Panora.Node
