/-
  Panora.Node.Identity — whose group a node saves.

  The state file holds an identity and a group, and loads only if the group is that
  identity's.  Leaving replaces the identity at once.  A join stores the group of the
  identity it began with, minutes later; an admission stores the copy it was made on.

  Main result: `saved_state_loads_iff` — every file a run writes loads exactly when no
  join or admission stores what it took before the node left its group.
-/
import Panora.Node.Requests
import Panora.Pairing.Agreement

namespace Panora.Node

open Panora.Group List
open Panora.Lib.Log
open Panora.Lib.Fallible
open Panora.Pairing (PairCrypto)

variable {C : PairCrypto} {cfg : Config}

/-! ## §1. States a node starts from -/

variable {s : SyncState}

namespace SyncState

theorem sound_new {name : String} {drawn : DeviceIdentity}
    (h : new name drawn = .ok s) : s.Sound C := by
  simp only [new, bind_ok_iff, Pairing.ofGroup_ok_iff] at h
  obtain ⟨⟨⟩, hname, hs⟩ := h
  injection hs with hs
  rw [← hs]
  exact ⟨hname, by simp, by simp⟩

/-- What loads is sound. -/
theorem sound_load {f : Stored} (h : load C f = .ok s) : s.Sound C := by
  simp only [load, bind_ok_iff, check_ok_iff, Pairing.ofGroup_ok_iff] at h
  obtain ⟨group, hgroup, -, ⟨⟩, hname, hme, hs⟩ := h
  injection hs with hs
  subst hs
  refine ⟨hname, ?_, ?_⟩
  · intro g hg
    have hg : group = some g := hg
    subst hg
    cases hrepr : f.group with
    | none =>
      rw [hrepr] at hgroup
      exact absurd hgroup (by simp [loadGroup])
    | some repr =>
      rw [hrepr] at hgroup
      obtain ⟨g', htry, hg'⟩ := map_ok_iff.mp hgroup
      injection hg' with hg'
      subst hg'
      cases hfrom : GroupState.tryFrom C.group repr with
      | error e =>
        rw [hfrom] at htry
        exact absurd htry (by simp [Except.mapError])
      | ok g'' =>
        rw [hfrom] at htry
        injection htry with htry
        subst htry
        simp only [GroupState.tryFrom, bind_ok_iff, Except.ok.injEq] at hfrom
        obtain ⟨⟨⟩, hvalid, rfl⟩ := hfrom
        exact (GroupState.validate_ok_iff C.group _).mp hvalid
  · intro g hg
    have hg : group = some g := hg
    subst hg
    simpa using hme

end SyncState

/-! ## §2. What was taken before the node left -/

/-- Does `e` store only what was taken since the node last left?  A join that ends is held
    against its start, an admission against its copy. -/
def StoresCurrent (log : List Event) : Event → Prop
  | .joined t => ∀ mid ∈ since (.started t) log, Event.left ∉ mid
  | .adopted t => ∀ mid ∈ since (.copied t) log, Event.left ∉ mid
  | _ => True

/-- What was taken at the last `a` is this identity's, unless the node left since. -/
def Taken (C : PairCrypto) (log : List Event) (used : List PublicIdentity) (s : SyncState)
    (a : Event) (me : PublicIdentity) : Prop :=
  me ∈ used ∧ ∃ mid, since a log = some mid
    ∧ (me = s.identity.publicKey C.group ↔ Event.left ∉ mid)

section Taken

variable {log : List Event} {used : List PublicIdentity} {s s' : SyncState} {a e : Event}
  {me : PublicIdentity}

theorem taken_now (hused : s.identity.publicKey C.group ∈ used) :
    Taken C (log ++ [a]) used s a (s.identity.publicKey C.group) :=
  ⟨hused, [], since_snoc_self a log, by simp⟩

theorem Taken.snoc (h : Taken C log used s a me) (hne : e ≠ a) (hstay : e ≠ .left)
    (hidentity : s'.identity = s.identity) : Taken C (log ++ [e]) used s' a me := by
  obtain ⟨hused, mid, hmid, hiff⟩ := h
  refine ⟨hused, mid ++ [e], since_snoc_of_ne hne hmid, ?_⟩
  rw [hidentity, hiff, mem_append, mem_singleton]
  constructor
  · intro hnot hin
    rcases hin with hin | hin
    · exact hnot hin
    · exact hstay hin.symm
  · intro hnot hin
    exact hnot (.inl hin)

/-- After leaving, nothing that was taken before is this identity's. -/
theorem Taken.left (h : Taken C log used s a me) (hne : a ≠ .left) {fresh : DeviceIdentity}
    (hfresh : fresh.publicKey C.group ∉ used) :
    Taken C (log ++ [.left]) (fresh.publicKey C.group :: used) (s.leave fresh) a me := by
  obtain ⟨hused, mid, hmid, -⟩ := h
  refine ⟨mem_cons_of_mem _ hused, mid ++ [.left],
    since_snoc_of_ne (Ne.symm hne) hmid, ?_⟩
  constructor
  · intro heq
    have heq : me = fresh.publicKey C.group := heq
    rw [heq] at hused
    exact absurd hused hfresh
  · intro hnot
    exact absurd (mem_append_right mid (mem_singleton_self _)) hnot

end Taken

/-- What the tasks of a node hold, against its log. -/
structure Tracked (C : PairCrypto) (log : List Event) (used : List PublicIdentity) (w : World) :
    Prop where
  current : w.state.identity.publicKey C.group ∈ used
  joins : ∀ t j, w.joins t = some (.running j) →
    Taken C log used w.state (.started t) (j.identity.publicKey C.group)
  admissions : ∀ t r a, w.admissions t = some (.welcoming r a) →
    Taken C log used w.state (.copied t) a.me ∧ a.WellKept C.group
  sound : w.state.Sound C

/-- A node that starts tracks nothing. -/
theorem tracked_start (h : s.Sound C) :
    Tracked C [] [s.identity.publicKey C.group] (World.start s) where
  current := mem_singleton_self _
  joins _ _ h := absurd h (by simp [World.start])
  admissions _ _ _ h := absurd h (by simp [World.start])
  sound := h

/-! ## §3. One step -/

/-- Does this file load? -/
def Loads (C : PairCrypto) (f : Stored) : Prop := ∃ s, SyncState.load C f = .ok s

theorem SyncState.Sound.loads (h : s.Sound C) : Loads C s.save :=
  (SyncState.load_save_iff h.name h.kept).mpr h.me

/-- A group, put into a sound state. -/
theorem sound_store_iff (h : s.Sound C) {g : GroupState} (hkept : g.WellKept C.group) :
    (s.storeJoined g).Sound C ↔ g.me = s.identity.publicKey C.group := by
  constructor
  · intro hsound
    exact hsound.me g rfl
  · intro hme
    refine ⟨h.name, ?_, ?_⟩
    · intro g' hg'
      cases hg'
      exact hkept
    · intro g' hg'
      cases hg'
      exact hme

theorem loads_store_iff (h : s.Sound C) {g : GroupState} (hkept : g.WellKept C.group) :
    Loads C (s.storeJoined g).save ↔ g.me = s.identity.publicKey C.group := by
  have hkept' : ∀ g' ∈ (s.storeJoined g).group, g'.WellKept C.group := by
    intro g' hg'
    cases hg'
    exact hkept
  refine (SyncState.load_save_iff (s := s.storeJoined g) h.name hkept').trans ?_
  constructor
  · intro hall
    exact hall g rfl
  · intro hme g' hg'
    cases hg'
    exact hme

section OneStep

variable {log : List Event} {used : List PublicIdentity} {w w' : World}

/-- An event other than leaving: what the tasks hold is what they held, or was taken now. -/
theorem Tracked.grow (h : Tracked C log used w) {e : Event} (hstay : e ≠ .left)
    (hidentity : w'.state.identity = w.state.identity) (hsound : w'.state.Sound C)
    (hjoins : ∀ t j, w'.joins t = some (.running j) →
      (w.joins t = some (.running j) ∧ e ≠ .started t)
        ∨ (e = .started t ∧ j.identity = w.state.identity))
    (hadmissions : ∀ t r a, w'.admissions t = some (.welcoming r a) →
      (w.admissions t = some (.welcoming r a) ∧ e ≠ .copied t)
        ∨ (e = .copied t ∧ a.me = w.state.identity.publicKey C.group ∧ a.WellKept C.group)) :
    Tracked C (log ++ [e]) used w' where
  current := by
    rw [hidentity]
    exact h.current
  joins := by
    intro t j hj
    rcases hjoins t j hj with ⟨hold, hne⟩ | ⟨rfl, hnow⟩
    · exact (h.joins t j hold).snoc hne hstay hidentity
    · rw [hnow, ← hidentity]
      apply taken_now
      rw [hidentity]
      exact h.current
  admissions := by
    intro t r a ha
    rcases hadmissions t r a ha with ⟨hold, hne⟩ | ⟨rfl, hnow, hkept⟩
    · obtain ⟨htaken, hkept⟩ := h.admissions t r a hold
      exact ⟨htaken.snoc hne hstay hidentity, hkept⟩
    · refine ⟨?_, hkept⟩
      rw [hnow, ← hidentity]
      apply taken_now
      rw [hidentity]
      exact h.current
  sound := hsound

/-- The same where the tasks only end. -/
theorem Tracked.grow_fewer (h : Tracked C log used w) {e : Event} (hstay : e ≠ .left)
    (hstarts : ∀ t, e ≠ .started t) (hcopies : ∀ t, e ≠ .copied t)
    (hidentity : w'.state.identity = w.state.identity) (hsound : w'.state.Sound C)
    (hfewer : w.Fewer w') : Tracked C (log ++ [e]) used w' :=
  h.grow hstay hidentity hsound (fun t j hj => .inl ⟨hfewer.running t j hj, hstarts t⟩)
    (fun t r a ha => .inl ⟨hfewer.welcoming t r a ha, hcopies t⟩)

/-- Nothing is new, and nothing written. -/
theorem Tracked.fewer (h : Tracked C log used w) (hstate : w'.state = w.state)
    (hfewer : w.Fewer w') : Tracked C log used w' where
  current := by
    rw [hstate]
    exact h.current
  joins t j hj := by
    rw [hstate]
    exact h.joins t j (hfewer.running t j hj)
  admissions t r a ha := by
    rw [hstate]
    exact h.admissions t r a (hfewer.welcoming t r a ha)
  sound := by
    rw [hstate]
    exact h.sound

theorem Tracked.left (h : Tracked C log used w) {fresh : DeviceIdentity}
    (hfresh : fresh.publicKey C.group ∉ used) :
    Tracked C (log ++ [.left]) (fresh.publicKey C.group :: used)
      { w with state := w.state.leave fresh } where
  current := mem_cons_self
  joins t j hj := (h.joins t j hj).left (by simp) hfresh
  admissions t r a ha :=
    ⟨(h.admissions t r a ha).1.left (by simp) hfresh, (h.admissions t r a ha).2⟩
  sound := ⟨h.sound.name, by simp [SyncState.leave], by simp [SyncState.leave]⟩

/-- A group that is stored: its event is clean exactly when the group is this identity's. -/
theorem Taken.storesCurrent_iff {a : Event} {me : PublicIdentity} (h : Taken C log used s a me) :
    (∀ mid ∈ since a log, Event.left ∉ mid) ↔ me = s.identity.publicKey C.group := by
  obtain ⟨-, mid, hmid, hiff⟩ := h
  rw [hiff, hmid]
  simp

/-- **One step**: with the log so far clean, the step keeps it so, and the state it leaves
    loads; or it stores what was taken before the node left, and that does not load. -/
theorem Tracked.step {d : Did} {fresh : Option DeviceIdentity} (h : Tracked C log used w)
    (hd : Happens C w fresh d) (hfresh : ∀ i ∈ fresh, i.publicKey C.group ∉ used) :
    ((∀ e ∈ d.event, StoresCurrent log e)
        ∧ Tracked C (log ++ d.event.toList)
          ((fresh.map (fun i => i.publicKey C.group)).toList ++ used) d.world
        ∧ Loads C d.world.state.save) ∨
      (∃ e, d.event = some e ∧ ¬ StoresCurrent log e) ∧ d.saved = true
        ∧ ¬ Loads C d.world.state.save := by
  cases hd with
  | @quiet w' hstate hfewer =>
    left
    have hnext := h.fewer hstate hfewer
    refine ⟨by simp [World.quiet], ?_, hnext.sound.loads⟩
    rw [show w'.quiet.event.toList = [] from rfl, append_nil]
    exact hnext
  | created hnone hkept hme hmember =>
    left
    have hsound := (sound_store_iff h.sound hkept).mpr hme
    exact ⟨by simp [StoresCurrent], h.grow_fewer (by simp) (by simp) (by simp) rfl hsound
      ⟨fun _ h => h, fun _ _ h => h, fun _ _ _ h => h⟩, hsound.loads⟩
  | allowed t hmember =>
    left
    refine ⟨by simp [StoresCurrent], h.grow (by simp) rfl h.sound ?_ ?_, h.sound.loads⟩
    · intro t' j hj
      by_cases hsame : t' = t
      · rw [hsame, World.joins_setJoin_self] at hj
        cases hj
      · rw [World.joins_setJoin_of_ne w hsame] at hj
        exact .inl ⟨hj, by simp⟩
    · intro t' r a ha
      exact .inl ⟨ha, by simp⟩
  | started t hallowed hidentity =>
    left
    refine ⟨by simp [StoresCurrent], h.grow (by simp) rfl h.sound ?_ ?_, h.sound.loads⟩
    · intro t' j hj
      by_cases hsame : t' = t
      · rw [hsame, World.joins_setJoin_self] at hj
        cases hj
        exact .inr ⟨by rw [hsame], hidentity⟩
      · rw [World.joins_setJoin_of_ne w hsame] at hj
        exact .inl ⟨hj, by simpa using Ne.symm hsame⟩
    · intro t' r a ha
      exact .inl ⟨ha, by simp⟩
  | @joined t joiner g hrunning hkept hme hmember =>
    -- the group is the one of the identity the join began with
    have hiff := (h.joins t joiner hrunning).storesCurrent_iff
    rw [← hme] at hiff
    by_cases hcurrent : g.me = w.state.identity.publicKey C.group
    · left
      have hsound := (sound_store_iff h.sound hkept).mpr hcurrent
      have hfewer := World.fewer_setJoin (w := w) (t := t) none
        (by rw [hrunning]; simp) (by simp)
      refine ⟨?_, h.grow_fewer (by simp) (by simp) (by simp) rfl hsound
        ⟨hfewer.joins, hfewer.running, hfewer.welcoming⟩, hsound.loads⟩
      intro e he
      cases he
      exact hiff.mpr hcurrent
    · right
      exact ⟨⟨.joined t, rfl, fun hclean => hcurrent (hiff.mp hclean)⟩, rfl,
        fun hloads => hcurrent ((loads_store_iff h.sound hkept).mp hloads)⟩
  | updated w' hwithin hfewer =>
    left
    have hsound := hwithin.sound h.sound
    exact ⟨by simp [World.update, StoresCurrent],
      h.grow_fewer (by simp) (by simp) (by simp) hwithin.identity hsound hfewer,
      hsound.loads⟩
  | left fresh =>
    left
    have hnext := h.left (hfresh fresh rfl)
    exact ⟨by simp [StoresCurrent], hnext, hnext.sound.loads⟩
  | @copied t g admitted roster hgroup hcopied =>
    left
    refine ⟨by simp [StoresCurrent], h.grow (by simp) rfl h.sound ?_ ?_, h.sound.loads⟩
    · intro t' j hj
      exact .inl ⟨hj, by simp⟩
    · intro t' r a ha
      by_cases hsame : t' = t
      · rw [hsame, World.admissions_setAdmission_self] at ha
        cases ha
        obtain ⟨hsame', hkept⟩ := hcopied.keeps (h.sound.kept g hgroup)
        exact .inr ⟨by rw [hsame], by rw [hsame'.me]; exact h.sound.me g hgroup, hkept⟩
      · rw [World.admissions_setAdmission_of_ne w hsame] at ha
        exact .inl ⟨ha, by simpa using Ne.symm hsame⟩
  | @adopted t g admitted roster cur hwelcoming hgroup hcur hhash =>
    -- the copy is the one of the identity it was made for
    obtain ⟨htaken, hkept⟩ := h.admissions t roster admitted hwelcoming
    have hiff := htaken.storesCurrent_iff
    by_cases hcurrent : admitted.me = w.state.identity.publicKey C.group
    · left
      have hsound := (sound_store_iff h.sound hkept).mpr hcurrent
      have hfewer := World.fewer_setAdmission (w := w) (t := t) none (by simp)
      refine ⟨?_, h.grow_fewer (by simp) (by simp) (by simp) rfl hsound
        ⟨hfewer.joins, hfewer.running, hfewer.welcoming⟩, hsound.loads⟩
      intro e he
      cases he
      exact hiff.mpr hcurrent
    · right
      exact ⟨⟨.adopted t, rfl, fun hclean => hcurrent (hiff.mp hclean)⟩, rfl,
        fun hloads => hcurrent ((loads_store_iff h.sound hkept).mp hloads)⟩

end OneStep

/-! ## §4. Whole runs -/

/-- The identities a run draws. -/
def drawnIdentities (C : PairCrypto) (steps : List Step) : List PublicIdentity :=
  (steps.filterMap Step.fresh).map (fun i => i.publicKey C.group)

theorem drawnIdentities_cons (st : Step) (steps : List Step) :
    drawnIdentities C (st :: steps)
      = (st.fresh.map (fun i => i.publicKey C.group)).toList ++ drawnIdentities C steps := by
  unfold drawnIdentities
  cases hst : st.fresh with
  | none => rw [filterMap_cons_none hst]; rfl
  | some i => rw [filterMap_cons_some hst]; rfl

/-- The rest of a run, from where the log is clean. -/
theorem loads_iff_along : ∀ (steps : List Step) {log : List Event} {used : List PublicIdentity}
    {w : World}, Tracked C log used w → (∀ i ∈ drawnIdentities C steps, i ∉ used) →
    (drawnIdentities C steps).Nodup →
    ((∀ f ∈ files (w.trace C cfg steps), Loads C f)
      ↔ Along StoresCurrent log (events (w.trace C cfg steps)))
  | [], log, used, w, _, _, _ => by simp [World.trace, files, events]
  | st :: steps, log, used, w, h, hnew, hnodup => by
    rw [drawnIdentities_cons] at hnew hnodup
    have hfresh : ∀ i ∈ st.fresh, i.publicKey C.group ∉ used := by
      intro i hi
      apply hnew
      rw [show st.fresh = some i from hi]
      exact mem_append_left _ (mem_singleton_self _)
    -- later draws are new against what is used after this step
    have hlater : ∀ i ∈ drawnIdentities C steps,
        i ∉ (st.fresh.map (fun i => i.publicKey C.group)).toList ++ used := by
      intro i hi hin
      rcases mem_append.mp hin with hnow | hbefore
      · exact disjoint_of_nodup_append hnodup hnow hi
      · exact hnew i (mem_append_right _ hi) hbefore
    show (∀ f ∈ files (w.step C cfg st :: (w.step C cfg st).world.trace C cfg steps), Loads C f)
      ↔ Along StoresCurrent log
        (events (w.step C cfg st :: (w.step C cfg st).world.trace C cfg steps))
    rw [events_cons]
    rcases h.step (w.step_happens st) hfresh with ⟨hclean, hnext, hloads⟩ | ⟨⟨e, he, hstale⟩, hsaved, hnot⟩
    · have ih := loads_iff_along steps hnext hlater (Nodup.of_append_right hnodup)
      have hfiles : (∀ f ∈ files (w.step C cfg st :: (w.step C cfg st).world.trace C cfg steps),
            Loads C f)
          ↔ ∀ f ∈ files ((w.step C cfg st).world.trace C cfg steps), Loads C f := by
        constructor
        · intro hall f hf
          exact hall f (mem_files_cons.mpr (.inr hf))
        · intro hall f hf
          rcases mem_files_cons.mp hf with ⟨-, rfl⟩ | hf
          · exact hloads
          · exact hall f hf
      rw [hfiles, ih]
      cases hevent : (w.step C cfg st).event with
      | none =>
        rw [show (none : Option Event).toList = [] from rfl, nil_append, append_nil]
      | some e =>
        rw [show (some e).toList = [e] from rfl, singleton_append, along_cons]
        exact ⟨fun halong => ⟨hclean e hevent, halong⟩, fun halong => halong.2⟩
    · constructor
      · intro hall
        exact absurd (hall _ (mem_files_cons.mpr (.inl ⟨hsaved, rfl⟩))) hnot
      · intro halong
        rw [he, show (some e).toList = [e] from rfl, singleton_append, along_cons] at halong
        exact absurd halong.1 hstale

/-- **When the saved state loads.**  For every run of requests, pairings and messages from
    peers, of a node that started from a new or a loaded state: every file written loads
    exactly when no join stores a group it began before the node left, and no admission a
    copy it made before.  Identities are drawn fresh. -/
theorem saved_state_loads_iff (C : PairCrypto) (cfg : Config) (state : SyncState)
    (hstate : (∃ name drawn, SyncState.new name drawn = .ok state)
      ∨ ∃ f, SyncState.load C f = .ok state)
    (steps : List Step)
    (hfresh : (state.identity.publicKey C.group :: drawnIdentities C steps).Nodup) :
    (∀ f ∈ files ((World.start state).trace C cfg steps), ∃ s, SyncState.load C f = .ok s)
      ↔ Along StoresCurrent [] (events ((World.start state).trace C cfg steps)) := by
  have hsound : state.Sound C := by
    rcases hstate with ⟨name, drawn, hnew⟩ | ⟨f, hload⟩
    · exact SyncState.sound_new hnew
    · exact SyncState.sound_load hload
  obtain ⟨hnot, hnodup⟩ := nodup_cons.mp hfresh
  refine loads_iff_along steps (tracked_start hsound) ?_ hnodup
  intro i hi hin
  rw [mem_singleton.mp hin] at hi
  exact hnot hi

/-! ## §5. Leaving while joining -/

/-- The exchange of a joiner that confirmed, up to the welcome it takes. -/
theorem runJoiner_of_run (J : Pairing.JoinerRun C) {welcome : Pairing.PairMessage}
    {final : GroupState} {j : Pairing.Joiner} (h : J.last.onWelcome C welcome = (.ok final, j)) :
    runJoiner C J.first (.offer J.inviterEphemeral J.inviter) true welcome = .ok final := by
  unfold runJoiner
  rw [J.offered]
  simp only [Bool.not_true, Bool.false_eq_true, if_false]
  rw [J.confirmed]
  simp only [h]

namespace Sample

open Panora.Pairing.Honest (crypto joinerRun toBlock)

/-- The laptop's configuration. -/
def laptop : Config := ⟨"laptop-2", ⟨fun _ => "", id, id⟩⟩

/-- The laptop's state: no group yet. -/
def alone : SyncState := ⟨⟨[2]⟩, "Lap", none⟩

/-- It begins to join by code, other things happen, and it gets its welcome. -/
def joining (between : List Step) (welcome : Pairing.PairMessage) : List Step :=
  .checkCanJoin 0 :: .startJoin 0 none 101 (toBlock [5])
    :: (between ++ [.finishJoin 0 (.offer (toBlock [6]) [1]) true welcome])

/-- The laptop once it talks to the desktop. -/
def talking (s : SyncState) : World :=
  ((World.start s).setJoin 0 (some .allowed)).setJoin 0 (some (.running joinerRun.first))

theorem trace_joining (between : List Step) (welcome : Pairing.PairMessage) :
    (World.start alone).trace crypto laptop (joining between welcome)
      = ⟨(World.start alone).setJoin 0 (some .allowed), some (.allowed 0), false⟩
        :: ⟨talking alone, some (.started 0), false⟩
        :: (talking alone).trace crypto laptop
          (between ++ [.finishJoin 0 (.offer (toBlock [6]) [1]) true welcome]) := by
  have hstart : ((World.start alone).setJoin 0 (some .allowed)).state.startJoin crypto
      laptop.deviceId none 101 (toBlock [5]) = .ok (joinerRun.first, joinerRun.commit) :=
    joinerRun.started
  unfold joining
  show _ :: World.step crypto laptop ((World.start alone).setJoin 0 (some .allowed)) _ ::
    World.trace crypto laptop (World.step crypto laptop
      ((World.start alone).setJoin 0 (some .allowed)) _).world _ = _
  rw [World.step_startJoin (World.joins_setJoin_self _ _ _) hstart]
  rfl

/-- The desktop's welcome opens at the laptop. -/
theorem welcomed : ∃ welcome final, runJoiner crypto joinerRun.first
    (.offer (toBlock [6]) [1]) true welcome = .ok final := by
  obtain ⟨welcome, -, -, -, final, j, -, hwelcome⟩ := Pairing.Honest.welcomed
  exact ⟨welcome, final, runJoiner_of_run joinerRun hwelcome⟩

theorem alone_new : SyncState.new "Lap" ⟨[2]⟩ = .ok alone := by decide +kernel

/-- **Leaving while a join is under way**: the join stores a group of the identity it began
    with, beside the new one, and the file does not load. -/
theorem leave_while_joining_does_not_load : ∃ welcome,
    ([2] :: drawnIdentities crypto (joining [.leave ⟨[9]⟩] welcome)).Nodup
      ∧ ∃ f ∈ files ((World.start alone).trace crypto laptop (joining [.leave ⟨[9]⟩] welcome)),
        ¬ ∃ s, SyncState.load crypto f = .ok s := by
  obtain ⟨welcome, final, hrun⟩ := welcomed
  obtain ⟨hme, hkept, -⟩ := runJoiner_ok hrun
  refine ⟨welcome, show ([[2], [9]] : List PublicIdentity).Nodup by decide, ((alone.leave ⟨[9]⟩).storeJoined final).save, ?_, ?_⟩
  · rw [trace_joining]
    have hlast : World.step crypto laptop { talking alone with state := alone.leave ⟨[9]⟩ }
        (.finishJoin 0 (.offer (toBlock [6]) [1]) true welcome)
        = ⟨{ (talking alone).setJoin 0 none with state := (alone.leave ⟨[9]⟩).storeJoined final },
          some (.joined 0), true⟩ :=
      World.step_finishJoin (show (talking alone).joins 0 = _ from World.joins_setJoin_self _ _ _) hrun
    refine mem_files_cons.mpr (.inr (mem_files_cons.mpr (.inr
      (mem_files_cons.mpr (.inr (mem_files_cons.mpr (.inl ?_)))))))
    show (World.step crypto laptop { talking alone with state := alone.leave ⟨[9]⟩ } _).saved = true
      ∧ _ = (World.step crypto laptop { talking alone with state := alone.leave ⟨[9]⟩ } _).world.state.save
    rw [hlast]
    exact ⟨rfl, rfl⟩
  · have hsound : (alone.leave ⟨[9]⟩).Sound crypto :=
      ⟨(SyncState.sound_new (C := crypto) alone_new).name, by simp [SyncState.leave],
        by simp [SyncState.leave]⟩
    intro hloads
    have hsame := (loads_store_iff hsound hkept).mp hloads
    rw [hme] at hsame
    exact absurd hsame (by decide +kernel)

/-- The run of a join that nothing comes between. -/
theorem trace_joined {welcome : Pairing.PairMessage} {final : GroupState}
    (hrun : runJoiner crypto joinerRun.first (.offer (toBlock [6]) [1]) true welcome = .ok final) :
    (World.start alone).trace crypto laptop (joining [] welcome)
      = [⟨(World.start alone).setJoin 0 (some .allowed), some (.allowed 0), false⟩,
        ⟨talking alone, some (.started 0), false⟩,
        ⟨{ (talking alone).setJoin 0 none with state := alone.storeJoined final },
          some (.joined 0), true⟩] := by
  have hlast : World.step crypto laptop (talking alone)
      (.finishJoin 0 (.offer (toBlock [6]) [1]) true welcome)
      = ⟨{ (talking alone).setJoin 0 none with state := alone.storeJoined final },
        some (.joined 0), true⟩ :=
    World.step_finishJoin (World.joins_setJoin_self _ _ _) hrun
  rw [trace_joining]
  show _ :: _ :: World.step crypto laptop (talking alone) _ :: _ = _
  rw [hlast]
  rfl

/-- A join that nothing comes between leaves a file that loads. -/
theorem saved_state_loads_iff_joined : ∃ welcome,
    (∀ f ∈ files ((World.start alone).trace crypto laptop (joining [] welcome)),
        ∃ s, SyncState.load crypto f = .ok s)
      ∧ events ((World.start alone).trace crypto laptop (joining [] welcome))
        = [.allowed 0, .started 0, .joined 0] := by
  obtain ⟨welcome, final, hrun⟩ := welcomed
  have hevents : events ((World.start alone).trace crypto laptop (joining [] welcome))
      = [.allowed 0, .started 0, .joined 0] := by
    rw [trace_joined hrun]
    rfl
  refine ⟨welcome, (saved_state_loads_iff crypto laptop alone (.inl ⟨"Lap", ⟨[2]⟩, alone_new⟩)
    (joining [] welcome) (show ([[2]] : List PublicIdentity).Nodup by decide)).mpr ?_, hevents⟩
  rw [hevents]
  simp [Along, StoresCurrent, since]

end Sample

end Panora.Node
