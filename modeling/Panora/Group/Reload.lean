/-
  Panora.Group.Reload — whatever happened to a group state, it loads again.

  `GroupState::validate` is what loading checks.  `WellKept` says the same as a
  structure; every operation leaves a well kept state, so every state reached
  from `create` or `joined` validates at any moment.

  The argument is in two halves.  The rosters: a legal successor is only ever
  appended to a run of legal successors, and runs are only ever cut at their
  ends.  The keys: whoever appends a roster also prunes, so the keys need no
  argument about what went before.

  Main results:
    * `validate_ok_iff`      — `validate` accepts exactly the well kept states;
    * `wellKept_applyChain`  — any chain from a peer, taken or refused;
    * `reachable_reloads`    — every reachable state validates and loads.
-/
import Panora.Group.State

namespace Panora.Group

open Lib.Fallible Lib.Keyed
open List hiding lookup

/-! ## §1. Runs of rosters -/

/-- A run of valid rosters, each a legal change of the one before. -/
structure History (C : Crypto) (rosters : List Roster) : Prop where
  valid : ∀ r ∈ rosters, r.Valid C
  linked : rosters.IsChain (Succeeds C)

namespace History

variable {C : Crypto} {rosters : List Roster}

theorem drop (h : History C rosters) (n : Nat) : History C (rosters.drop n) :=
  ⟨fun r hr => h.valid r (mem_of_mem_drop hr), h.linked.drop n⟩

theorem take (h : History C rosters) (n : Nat) : History C (rosters.take n) :=
  ⟨fun r hr => h.valid r (mem_of_mem_take hr), h.linked.take n⟩

/-- A run grows by a valid roster that succeeds its last one. -/
theorem snoc (h : History C rosters) {r : Roster} (hr : r.Valid C)
    (hnext : ∀ cur ∈ rosters.getLast?, Succeeds C cur r) : History C (rosters ++ [r]) := by
  constructor
  · intro x hx
    rcases mem_append.mp hx with hx | hx
    · exact h.valid x hx
    · rw [mem_singleton.mp hx]
      exact hr
  · refine isChain_append.mpr ⟨h.linked, isChain_singleton r, ?_⟩
    intro cur hcur y hy
    have hy : r = y := by simpa using hy
    exact hy ▸ hnext cur hcur

/-- Epochs count up along a run. -/
theorem epoch_getElem {first : Roster} {rest : List Roster} (h : History C (first :: rest)) :
    ∀ (i : Nat) (r : Roster), (first :: rest)[i]? = some r → r.epoch = first.epoch + i := by
  intro i
  induction i with
  | zero =>
    intro r hr
    have : first = r := by simpa using hr
    rw [this, Nat.add_zero]
  | succ i ih =>
    intro r hr
    obtain ⟨hlt, hget⟩ := List.getElem?_eq_some_iff.mp hr
    have hprev := ih _ (getElem?_eq_getElem (by omega))
    have hstep := (isChain_iff_getElem.mp h.linked i hlt).epoch
    rw [hget, hprev] at hstep
    omega

/-- All rosters of a run belong to one group. -/
theorem groupId_eq (h : History C rosters) :
    ∀ r ∈ rosters, ∀ r' ∈ rosters, r.groupId = r'.groupId := by
  have hpair : rosters.Pairwise (fun a b => a.groupId = b.groupId) := by
    have htrans : IsTrans Roster (fun a b => a.groupId = b.groupId) :=
      ⟨fun _ _ _ => Eq.trans⟩
    exact isChain_iff_pairwise.mp (h.linked.imp (fun _ _ hab => hab.groupId.symm))
  intro r hr r' hr'
  exact List.Pairwise.forall_of_forall (R := fun a b : Roster => a.groupId = b.groupId)
    (fun _ _ => rfl) hpair hr hr'

end History

/-! ## §2. Well kept states -/

/-- What a state kept on disk satisfies. -/
structure GroupState.WellKept (C : Crypto) (s : GroupState) : Prop where
  nonempty : s.rosters ≠ []
  atMost : s.rosters.length ≤ keptRosters
  history : History C s.rosters
  keys : ∀ k ∈ s.keys, ∃ r ∈ s.rosters, k.matchesRoster C r.groupId r = true

namespace GroupState

variable {C : Crypto} {s : GroupState}

theorem validateLinks_ok_iff (C : Crypto) :
    ∀ (before : Roster) (rs : List Roster), validateLinks C before rs = .ok () ↔
      (∀ r ∈ rs, r.Valid C) ∧ (before :: rs).IsChain (Succeeds C)
  | before, [] => by simp [validateLinks]
  | before, r :: rs => by
    rw [validateLinks, bind_unit_ok_iff, bind_unit_ok_iff, validateLinks_ok_iff,
      verify_ok_iff, checkSuccessor_ok_iff, forall_mem_cons, isChain_cons_cons]
    tauto

theorem validateKeys_ok_iff (C : Crypto) (rosters : List Roster) (gid : Bytes)
    (ks : List GroupKey) : validateKeys C rosters gid ks = .ok () ↔
      ∀ k ∈ ks, ∃ r ∈ rosters, k.matchesRoster C gid r = true := by
  induction ks with
  | nil => simp [validateKeys]
  | cons k ks ih =>
    rw [validateKeys, check_ok_iff, ih, not_not, any_eq_true, forall_mem_cons]

/-- **`validate` accepts exactly the well kept states.** -/
theorem validate_ok_iff (C : Crypto) (s : GroupState) : s.validate C = .ok () ↔ s.WellKept C := by
  obtain ⟨me, rosters, keys⟩ := s
  cases rosters with
  | nil =>
    constructor
    · intro h
      exact absurd h (by simp [validate])
    · intro h
      exact absurd rfl h.nonempty
  | cons first rest =>
    show (if (first :: rest).length > keptRosters then _ else _) = _ ↔ _
    rw [check_ok_iff, bind_unit_ok_iff, bind_unit_ok_iff, verify_ok_iff,
      validateLinks_ok_iff, validateKeys_ok_iff, not_lt]
    constructor
    · rintro ⟨hlen, hfirst, ⟨hrest, hlinked⟩, hkeys⟩
      have hhist : History C (first :: rest) :=
        ⟨forall_mem_cons.mpr ⟨hfirst, hrest⟩, hlinked⟩
      refine ⟨by simp, hlen, hhist, fun k hk => ?_⟩
      obtain ⟨r, hr, hmatch⟩ := hkeys k hk
      exact ⟨r, hr, by rwa [hhist.groupId_eq r hr first (by simp)]⟩
    · intro h
      obtain ⟨hfirst, hrest⟩ := forall_mem_cons.mp h.history.valid
      refine ⟨h.atMost, hfirst, ⟨hrest, h.history.linked⟩, fun k hk => ?_⟩
      obtain ⟨r, hr, hmatch⟩ := h.keys k hk
      exact ⟨r, hr, by rwa [h.history.groupId_eq first (by simp) r hr]⟩

/-- The current roster of a well kept state. -/
theorem WellKept.exists_current (h : s.WellKept C) :
    ∃ cur, s.rosters.getLast? = some cur ∧ s.current = .ok cur ∧ cur.Valid C := by
  refine ⟨s.rosters.getLast h.nonempty, getLast?_eq_some_getLast h.nonempty, ?_,
    h.history.valid _ (getLast_mem h.nonempty)⟩
  rw [current, getLast?_eq_some_getLast h.nonempty]

theorem current_eq_ok_iff {cur : Roster} : s.current = .ok cur ↔ s.rosters.getLast? = some cur := by
  unfold current
  cases s.rosters.getLast? with
  | none => simp
  | some r => simp

/-! ## §3. Appending and pruning -/

@[simp] theorem prune_rosters (C : Crypto) (s : GroupState) : (s.prune C).rosters = s.rosters := by
  unfold prune
  cases s.rosters.getLast? <;> rfl

@[simp] theorem prune_me (C : Crypto) (s : GroupState) : (s.prune C).me = s.me := by
  unfold prune
  cases s.rosters.getLast? <;> rfl

/-- After pruning, a state is well kept if its rosters are: the keys follow. -/
theorem wellKept_prune (hne : s.rosters ≠ []) (hlen : s.rosters.length ≤ keptRosters)
    (hhist : History C s.rosters) : (s.prune C).WellKept C := by
  refine ⟨by simpa using hne, by simpa using hlen, by simpa using hhist, fun k hk => ?_⟩
  have hlast := getLast?_eq_some_getLast hne
  simp only [prune, hlast, mem_filter, any_eq_true] at hk
  obtain ⟨-, r, hr, hmatch⟩ := hk
  refine ⟨r, by simpa using hr, ?_⟩
  rwa [hhist.groupId_eq r hr _ (getLast_mem hne)]

@[simp] theorem push_me (C : Crypto) (s : GroupState) (r : Roster) : (s.push C r).me = s.me := by
  simp [push]

/-- The rosters kept after a push: the newest eight. -/
theorem push_rosters (C : Crypto) (s : GroupState) (r : Roster) :
    (s.push C r).rosters
      = (s.rosters ++ [r]).drop ((s.rosters ++ [r]).length - keptRosters) := by
  simp only [push, prune_rosters]

theorem push_getLast? (C : Crypto) (s : GroupState) (r : Roster) :
    (s.push C r).rosters.getLast? = some r := by
  rw [push_rosters, getLast?_drop, if_neg]
  · simp
  · simp only [length_append, length_singleton, keptRosters]
    omega

/-- The newest two rosters after a push are the current one and the one pushed. -/
theorem push_newestTwo {r newest parent : Roster}
    (h : (s.push C r).rosters.reverse.take 2 = [newest, parent]) :
    newest = r ∧ s.rosters.getLast? = some parent := by
  rw [push_rosters, reverse_drop, take_take, reverse_append,
    reverse_singleton, singleton_append] at h
  -- two rosters were taken, so the bound is not what cut the list
  have hshort := congrArg length h
  rw [length_take, length_cons, length_cons, length_cons,
    length_nil] at hshort
  have hmin : min 2 ((s.rosters ++ [r]).length
      - ((s.rosters ++ [r]).length - keptRosters)) = 2 := by omega
  rw [hmin, take_succ_cons] at h
  obtain ⟨rfl, hrest⟩ := cons.inj h
  refine ⟨rfl, ?_⟩
  rw [getLast?_eq_head?_reverse]
  cases hrev : s.rosters.reverse with
  | nil =>
    rw [hrev] at hrest
    cases hrest
  | cons p rest =>
    rw [hrev, take_succ_cons] at hrest
    rw [(cons.inj hrest).1, head?_cons]

variable {signer : DeviceIdentity} {key : GroupKey} {now : Int} {chain rosters : List Roster}
  {me : PublicIdentity} {r : Roster}

/-- **Appending a legal successor leaves a well kept state**, whatever keys were
    there before. -/
theorem wellKept_push (hhist : History C s.rosters) (hr : r.Valid C)
    (hnext : ∀ cur ∈ s.rosters.getLast?, Succeeds C cur r) : (s.push C r).WellKept C := by
  have hhist' := (hhist.snoc hr hnext).drop ((s.rosters ++ [r]).length - keptRosters)
  refine wellKept_prune ?_ ?_ hhist'
  · simp only [ne_eq, drop_eq_nil_iff, length_append, length_singleton,
      keptRosters]
    omega
  · simp only [length_drop]
    omega

/-- Appending a run of successors, one push after another. -/
theorem wellKept_foldl_push :
    ∀ {rs : List Roster} {s : GroupState} {parent r : Roster}, History C s.rosters →
      s.rosters.getLast? = some parent → (∀ x ∈ r :: rs, x.Valid C) →
      (parent :: r :: rs).IsChain (Succeeds C) → ((r :: rs).foldl (push C) s).WellKept C
  | rs, s, parent, r, hhist, hlast, hvalid, hlinked => by
    obtain ⟨hr, hrs⟩ := forall_mem_cons.mp hvalid
    obtain ⟨hnext, hlinked⟩ := isChain_cons_cons.mp hlinked
    have hhead : (s.push C r).WellKept C := by
      refine wellKept_push hhist hr (fun cur hcur => ?_)
      have : parent = cur := by simpa [hlast] using hcur
      exact this ▸ hnext
    cases rs with
    | nil => exact hhead
    | cons r' rs =>
      rw [foldl_cons]
      exact wellKept_foldl_push hhead.history (push_getLast? C s r) hrs hlinked

theorem foldl_push_getLast? :
    ∀ {rs : List Roster} {s : GroupState}, rs ≠ [] →
      (rs.foldl (push C) s).rosters.getLast? = rs.getLast?
  | [], _, hne => absurd rfl hne
  | [r], s, _ => by simpa using push_getLast? C s r
  | r :: r' :: rs, s, _ => by
    rw [foldl_cons, foldl_push_getLast? (by simp), getLast?_cons_cons]

theorem foldl_push_me (C : Crypto) (rs : List Roster) :
    ∀ s : GroupState, (rs.foldl (push C) s).me = s.me := by
  induction rs with
  | nil => intro s; rfl
  | cons r rs ih =>
    intro s
    rw [foldl_cons, ih, push_me]

/-! ## §4. What each operation appends -/

theorem signNext_ok_iff {next r : Roster} :
    s.signNext C signer next = .ok r ↔
      r = next.signed C signer ∧ r.Valid C ∧
        ∃ cur, s.rosters.getLast? = some cur ∧ Succeeds C cur r := by
  simp only [signNext, bind_ok_iff, Unique.exists_iff, PUnit.default_eq_unit, verify_ok_iff,
    checkSuccessor_ok_iff, current_eq_ok_iff, Except.ok.injEq]
  constructor
  · rintro ⟨hvalid, cur, hcur, hsucc, rfl⟩
    exact ⟨rfl, hvalid, cur, hcur, hsucc⟩
  · rintro ⟨rfl, hvalid, cur, hcur, hsucc⟩
    exact ⟨hvalid, cur, hcur, hsucc, rfl⟩

/-- A signed roster may be appended. -/
theorem wellKept_push_signNext (hs : s.WellKept C) {next r : Roster}
    (h : s.signNext C signer next = .ok r) (keys : List GroupKey) :
    ({ s with keys := keys }.push C r).WellKept C := by
  obtain ⟨-, hvalid, cur, hcur, hsucc⟩ := signNext_ok_iff.mp h
  refine wellKept_push (s := { s with keys := keys }) hs.history hvalid (fun cur' hcur' => ?_)
  have : cur = cur' := by simpa [hcur] using hcur'
  exact this ▸ hsucc

theorem additionRoster_ok {m : Member} (h : s.additionRoster C signer m now = .ok r) :
    ∃ next, s.signNext C signer next = .ok r := by
  simp only [additionRoster, bind_ok_iff, Unique.exists_iff, check_ok_iff] at h
  obtain ⟨-, -, next, -, -, -, -, hsign⟩ := h
  exact ⟨_, hsign⟩

theorem removalRoster_ok {i : PublicIdentity} {drawn : Nat → Bytes} {k : GroupKey}
    (h : s.removalRoster C signer i now drawn = .ok (r, k)) :
    ∃ next, s.signNext C signer next = .ok r := by
  simp only [removalRoster, bind_ok_iff, check_ok_iff, Except.ok.injEq, Prod.mk.injEq] at h
  obtain ⟨-, next, -, -, r', hsign, rfl, -⟩ := h
  exact ⟨_, hsign⟩

theorem wellKept_addMember (hs : s.WellKept C) (signer : DeviceIdentity) (m : Member)
    (now : Int) : (s.addMember C signer m now).2.WellKept C := by
  unfold addMember
  cases h : s.additionRoster C signer m now with
  | error e => exact hs
  | ok r =>
    obtain ⟨next, hsign⟩ := additionRoster_ok h
    exact wellKept_push_signNext hs hsign s.keys

theorem wellKept_removeMember (hs : s.WellKept C) (signer : DeviceIdentity)
    (i : PublicIdentity) (now : Int) (drawn : Nat → Bytes) :
    (s.removeMember C signer i now drawn).2.WellKept C := by
  unfold removeMember
  cases h : s.removalRoster C signer i now drawn with
  | error e => exact hs
  | ok rk =>
    obtain ⟨r, k⟩ := rk
    obtain ⟨next, hsign⟩ := removalRoster_ok h
    exact wellKept_push_signNext hs hsign (s.keys ++ [k])

theorem wellKept_acceptKey (hs : s.WellKept C) (k : GroupKey) : (s.acceptKey C k).2.WellKept C := by
  obtain ⟨cur, -, hcur, -⟩ := hs.exists_current
  unfold acceptKey
  simp only [hcur]
  split
  next => exact hs
  next =>
  split
  next => exact hs
  next =>
  split
  next => exact hs
  next => exact wellKept_prune hs.nonempty hs.atMost hs.history

/-- Redoing changes only adds and removes members, so it keeps what they keep. -/
theorem wellKept_reapply (signer : DeviceIdentity) (now : Int) (drawn : Nat → Bytes) :
    ∀ {changes : List Change} {s : GroupState}, s.WellKept C →
      (reapply C signer now drawn s changes).2.WellKept C
  | [], s, hs => hs
  | .added m :: changes, s, hs => by
    obtain ⟨cur, -, hcur, -⟩ := hs.exists_current
    have hadd := wellKept_addMember hs signer m now
    simp only [reapply, hcur]
    split
    next => exact wellKept_reapply signer now drawn hs
    next =>
    rcases h : s.addMember C signer m now with ⟨out, s'⟩
    rw [h] at hadd
    cases out with
    | error e => exact hadd
    | ok r => exact wellKept_reapply signer now drawn hadd
  | .removed i :: changes, s, hs => by
    have hremove := wellKept_removeMember hs signer i now drawn
    simp only [reapply]
    cases hpeer : s.isPeer i with
    | error e => exact hs
    | ok isPeer =>
      cases isPeer with
      | false => exact wellKept_reapply signer now drawn hs
      | true =>
        rcases h : s.removeMember C signer i now drawn with ⟨out, s'⟩
        rw [h] at hremove
        cases out with
        | error e => exact hremove
        | ok rk => exact wellKept_reapply signer now drawn hremove

/-! ## §5. Applying a chain -/

theorem checkFollows_ok_iff (C : Crypto) (before : Option Roster) (r : Roster) :
    checkFollows C before r = .ok () ↔ ∀ b ∈ before, Succeeds C b r := by
  cases before with
  | none => simp [checkFollows]
  | some b => simp [checkFollows, checkSuccessor_ok_iff]

theorem checkChain_ok_iff (C : Crypto) (gid : Bytes) :
    ∀ (before : Option Roster) (chain : List Roster), checkChain C gid before chain = .ok () ↔
      (∀ r ∈ chain, r.Valid C ∧ r.groupId = gid) ∧
        (before.toList ++ chain).IsChain (Succeeds C)
  | none, [] => by simp [checkChain]
  | some b, [] => by simp [checkChain]
  | none, r :: rs => by
    simp only [checkChain, bind_ok_iff, Unique.exists_iff, PUnit.default_eq_unit,
      verify_ok_iff, check_ok_iff, not_not, checkFollows_ok_iff, checkChain_ok_iff C gid,
      forall_mem_cons, Option.toList_some, Option.toList_none, nil_append,
      singleton_append, Option.mem_def, reduceCtorEq, false_implies, implies_true,
      true_and]
    tauto
  | some b, r :: rs => by
    simp only [checkChain, bind_ok_iff, Unique.exists_iff, PUnit.default_eq_unit,
      verify_ok_iff, check_ok_iff, not_not, checkFollows_ok_iff, checkChain_ok_iff C gid,
      forall_mem_cons, Option.toList_some, singleton_append,
      isChain_cons_cons, Option.mem_def, Option.some.injEq, forall_eq']
    tauto

/-- What `findFork` found out about the fork point it returns. -/
structure ForkPoint.Sound (C : Crypto) (s : GroupState) (chain : List Roster)
    (f : ForkPoint) : Prop where
  pos : 1 ≤ f.idx
  le : f.idx ≤ s.rosters.length
  parent : s.rosters[f.idx - 1]? = some f.parent
  chainValid : ∀ r ∈ chain, r.Valid C
  chainLinked : chain.IsChain (Succeeds C)
  /-- The incoming rosters are the new part of the chain. -/
  new : ∀ oldest ∈ s.rosters.head?, newPart C s oldest.epoch chain = f.incoming
  /-- The incoming rosters grow from the parent. -/
  follows : ∃ head tail, f.incoming = head :: tail ∧ Succeeds C f.parent head

theorem newPart_suffix (C : Crypto) (s : GroupState) (first : Nat) (chain : List Roster) :
    newPart C s first chain <:+ chain :=
  (dropWhile_suffix _).trans (dropWhile_suffix _)

/-- `findFork` succeeds with a fork point only where it is sound. -/
theorem findFork_sound {f : ForkPoint}
    (h : s.findFork C chain = .ok (some f)) : f.Sound C s chain := by
  obtain ⟨me, rosters, keys⟩ := s
  cases rosters with
  | nil =>
    simp only [findFork, check_ok_iff, bind_ok_iff] at h
    obtain ⟨-, gid, hgid, -⟩ := h
    exact absurd hgid (by simp [groupId, current, Except.map])
  | cons oldest rest =>
    simp only [findFork, bind_ok_iff, Unique.exists_iff, PUnit.default_eq_unit, check_ok_iff,
      checkChain_ok_iff] at h
    obtain ⟨-, gid, -, ⟨hvalid, hlinked⟩, h⟩ := h
    split at h
    next => cases h
    next head tail hnew =>
    simp only [bind_ok_iff, check_ok_iff] at h
    obtain ⟨cur, -, -, hfirst, h⟩ := h
    split at h
    next => cases h
    next parent hparent =>
    split at h
    next => cases h
    next hsucc =>
    injection h with h
    injection h with h
    subst h
    have hlt := (List.getElem?_eq_some_iff.mp hparent).1
    exact {
      pos := by show 1 ≤ head.epoch - oldest.epoch; omega
      le := by show head.epoch - oldest.epoch ≤ (oldest :: rest).length; omega
      parent := hparent
      chainValid := fun r hr => (hvalid r hr).1
      chainLinked := by simpa using hlinked
      new := fun o ho => by
        have : oldest = o := by simpa using ho
        exact this ▸ hnew
      follows := ⟨head, tail, rfl, (checkSuccessor_ok_iff C parent head).mp hsucc⟩ }

namespace ForkPoint.Sound

variable {chain : List Roster} {f : ForkPoint}

theorem incoming_suffix (h : f.Sound C s chain) : f.incoming <:+ chain := by
  have hlt := (List.getElem?_eq_some_iff.mp h.parent).1
  obtain ⟨oldest, hhead⟩ : ∃ oldest, s.rosters.head? = some oldest := by
    cases hr : s.rosters with
    | nil => rw [hr] at hlt; cases hlt
    | cons o rest => exact ⟨o, rfl⟩
  rw [← h.new oldest hhead]
  exact newPart_suffix C s oldest.epoch chain

theorem incomingValid (h : f.Sound C s chain) : ∀ r ∈ f.incoming, r.Valid C :=
  fun r hr => h.chainValid r (h.incoming_suffix.subset hr)

theorem incoming_ne_nil (h : f.Sound C s chain) : f.incoming ≠ [] := by
  obtain ⟨head, tail, heq, -⟩ := h.follows
  simp [heq]

/-- The parent and the incoming rosters are one run. -/
theorem incomingLinked (h : f.Sound C s chain) : (f.parent :: f.incoming).IsChain (Succeeds C) := by
  obtain ⟨head, tail, heq, hsucc⟩ := h.follows
  have hlinked := h.chainLinked.suffix h.incoming_suffix
  rw [heq] at hlinked ⊢
  exact isChain_cons_cons.mpr ⟨hsucc, hlinked⟩

/-- The parent is the last of the rosters before the fork. -/
theorem getLast?_take (h : f.Sound C s chain) :
    (s.rosters.take f.idx).getLast? = some f.parent := by
  have := h.pos
  have hlen : (s.rosters.take f.idx).length = f.idx := by
    rw [length_take, Nat.min_eq_left h.le]
  rw [getLast?_eq_getElem?, hlen, getElem?_take_of_lt (by omega), h.parent]

end ForkPoint.Sound

/-- The state after the incoming rosters were taken over. -/
theorem wellKept_graft {f : ForkPoint} (hf : f.Sound C s chain)
    {t : GroupState} (hhist : History C t.rosters) (hlast : t.rosters.getLast? = some f.parent)
    (update : RosterUpdate) : (t.graft C f update).2.WellKept C := by
  have hkept : (f.incoming.foldl (push C) t).WellKept C := by
    obtain ⟨head, tail, heq, -⟩ := hf.follows
    have hvalid := hf.incomingValid
    have hlinked := hf.incomingLinked
    rw [heq] at hvalid hlinked ⊢
    exact wellKept_foldl_push hhist hlast hvalid hlinked
  unfold graft
  cases hmem : (f.incoming.foldl (push C) t).isMember with
  | error e => simpa only [hmem] using hkept
  | ok isMember =>
    simp only [hmem]
    split
    next =>
      -- this device is out of the group: no keys are left to match
      exact ⟨hkept.nonempty, hkept.atMost, hkept.history, by simp⟩
    next => exact hkept

/-- **What a chain can do**: nothing, or its rosters are grafted on those before the fork. -/
theorem applyChain_cases (C : Crypto) (s : GroupState) (chain : List Roster) :
    ((s.applyChain C chain).2 = s ∧ ((∃ e, (s.applyChain C chain).1 = .error e)
        ∨ (s.applyChain C chain).1 = .ok .unchanged ∨ (s.applyChain C chain).1 = .ok .forkLost)) ∨
      ∃ (f : ForkPoint) (t : GroupState) (update : RosterUpdate),
        s.findFork C chain = .ok (some f) ∧ s.applyChain C chain = t.graft C f update ∧
        t.me = s.me ∧ t.rosters = s.rosters.take f.idx ∧
        (update = .advanced ∨ f.idx ≠ s.rosters.length ∧
          update = .replaced (changesToReapply f.parent (s.rosters.drop f.idx) s.me)) := by
  unfold applyChain
  cases hfork : s.findFork C chain with
  | error e => exact .inl ⟨rfl, .inl ⟨e, rfl⟩⟩
  | ok found =>
    cases found with
    | none => exact .inl ⟨rfl, .inr (.inl rfl)⟩
    | some f =>
      dsimp only
      split
      next hend => exact .inr ⟨f, s, _, rfl, rfl, rfl, by rw [hend, take_length], .inl rfl⟩
      next hmiddle =>
      split
      next => exact .inl ⟨rfl, .inr (.inr rfl)⟩
      next => exact .inr ⟨f, _, _, rfl, rfl, rfl, rfl, .inr ⟨hmiddle, rfl⟩⟩

/-- **A chain from a peer leaves a well kept state**, whether it is refused, lost,
    appended, or grafted in place of a held branch. -/
theorem wellKept_applyChain (hs : s.WellKept C) (chain : List Roster) :
    (s.applyChain C chain).2.WellKept C := by
  rcases applyChain_cases C s chain with ⟨hsame, -⟩ | ⟨f, t, update, hfork, happly, -, ht, -⟩
  · rw [hsame]
    exact hs
  · have hf := findFork_sound hfork
    rw [happly]
    exact wellKept_graft hf (ht ▸ hs.history.take f.idx) (ht ▸ hf.getLast?_take) update

/-! ## §6. Starting -/

/-- A new group's first roster is valid, though `create` does not check it. -/
theorem wellKept_create {identity : DeviceIdentity} {deviceId name : String}
    {drawnId drawnKey : Bytes}
    (h : create C identity deviceId name now drawnId drawnKey = .ok s) : s.WellKept C := by
  simp only [create, bind_unit_ok_iff, Except.ok.injEq] at h
  obtain ⟨hid, hname, rfl⟩ := h
  refine ⟨by simp, by simp [keptRosters], ⟨?_, by simp⟩, ?_⟩
  · intro r hr
    rw [mem_singleton.mp hr]
    exact {
      nonempty := by simp
      atMost := by simp [maxMembers]
      sorted := by simp
      idsNodup := by simp
      described := by simpa using ⟨hid, hname⟩
      epochBound := by simp
      keyEpochBound := by simp
      genesis := fun _ => ⟨by simp, by simp, by simp [Roster.member, lookup]⟩
      signature := signed_verifies C _ _ }
  · intro k hk
    rw [mem_singleton.mp hk]
    exact ⟨_, mem_singleton_self _, by simp [GroupKey.matchesRoster]⟩

theorem wellKept_joined (h : joined C me rosters key = .ok s) : s.WellKept C := by
  simp only [joined, bind_ok_iff, Unique.exists_iff, PUnit.default_eq_unit, validate_ok_iff,
    check_ok_iff, Except.ok.injEq] at h
  obtain ⟨hkept, -, -, -, -, -, -, rfl⟩ := h
  exact hkept

theorem joined_ok (h : joined C me rosters key = .ok s) : s = ⟨me, rosters, [key]⟩ := by
  simp only [joined, bind_ok_iff, check_ok_iff, Except.ok.injEq] at h
  obtain ⟨-, -, -, -, -, -, -, -, rfl⟩ := h
  rfl

theorem isMember_joined (h : joined C me rosters key = .ok s) : s.isMember = .ok true := by
  simp only [joined, bind_ok_iff, check_ok_iff, Except.ok.injEq] at h
  obtain ⟨-, -, isMember, hmember, hyes, -, -, -, rfl⟩ := h
  rw [hmember]
  cases isMember with
  | true => rfl
  | false => exact absurd rfl hyes

/-- Joining succeeds with a well kept state that lists this device and whose key is
    the current one. -/
theorem joined_eq_ok (hkept : WellKept C ⟨me, rosters, [key]⟩)
    (hmember : isMember ⟨me, rosters, [key]⟩ = .ok true) (k : GroupKey)
    (hkey : currentKey C ⟨me, rosters, [key]⟩ = .ok (some k)) :
    joined C me rosters key = .ok ⟨me, rosters, [key]⟩ := by
  unfold joined
  simp only [(validate_ok_iff C _).mpr hkept, hmember, hkey, Except.bind]
  rfl

/-! ## §7. Every reachable state -/

/-- The states a device can be in: it created or joined a group, and then anything
    happened, with any argument, whether it succeeded or failed. -/
inductive Reachable (C : Crypto) : GroupState → Prop where
  | create {identity : DeviceIdentity} {deviceId name : String} {now : Int}
      {drawnId drawnKey : Bytes} {t : GroupState} :
      create C identity deviceId name now drawnId drawnKey = .ok t → Reachable C t
  | joined {me : PublicIdentity} {rosters : List Roster} {key : GroupKey} {t : GroupState} :
      joined C me rosters key = .ok t → Reachable C t
  | addMember {t : GroupState} (signer : DeviceIdentity) (m : Member) (now : Int) :
      Reachable C t → Reachable C (t.addMember C signer m now).2
  | removeMember {t : GroupState} (signer : DeviceIdentity) (i : PublicIdentity) (now : Int)
      (drawn : Nat → Bytes) :
      Reachable C t → Reachable C (t.removeMember C signer i now drawn).2
  | applyChain {t : GroupState} (chain : List Roster) :
      Reachable C t → Reachable C (t.applyChain C chain).2
  | acceptKey {t : GroupState} (key : GroupKey) :
      Reachable C t → Reachable C (t.acceptKey C key).2
  | reapply {t : GroupState} (signer : DeviceIdentity) (now : Int) (drawn : Nat → Bytes)
      (changes : List Change) :
      Reachable C t → Reachable C (reapply C signer now drawn t changes).2

theorem Reachable.wellKept (h : Reachable C s) : s.WellKept C := by
  induction h with
  | create h => exact wellKept_create h
  | joined h => exact wellKept_joined h
  | addMember signer m now _ ih => exact wellKept_addMember ih signer m now
  | removeMember signer i now drawn _ ih => exact wellKept_removeMember ih signer i now drawn
  | applyChain chain _ ih => exact wellKept_applyChain ih chain
  | acceptKey key _ ih => exact wellKept_acceptKey ih key
  | reapply signer now drawn changes _ ih => exact wellKept_reapply signer now drawn ih

/-- **Every reachable state reloads**: it keeps one to eight rosters, each of which
    verifies and is a legal successor of the one before, every key kept matches a
    kept roster, and loading what was saved gives the state back. -/
theorem reachable_reloads (C : Crypto) (s : GroupState) (h : Reachable C s) :
    (1 ≤ s.rosters.length ∧ s.rosters.length ≤ keptRosters)
      ∧ (∀ r ∈ s.rosters, r.verify C = .ok ())
      ∧ s.rosters.IsChain (fun a b => checkSuccessor C a b = .ok ())
      ∧ (∀ k ∈ s.keys, ∃ r ∈ s.rosters,
          r.keyEpoch = k.epoch ∧ r.keyCheck = k.check C r.groupId)
      ∧ s.validate C = .ok ()
      ∧ tryFrom C s.toRepr = .ok s := by
  have hkept := h.wellKept
  have hvalidate := (validate_ok_iff C s).mpr hkept
  refine ⟨⟨length_pos_iff.mpr hkept.nonempty, hkept.atMost⟩, ?_, ?_, ?_, hvalidate, ?_⟩
  · intro r hr
    exact (verify_ok_iff C r).mpr (hkept.history.valid r hr)
  · exact hkept.history.linked.imp (fun a b hab => (checkSuccessor_ok_iff C a b).mpr hab)
  · intro k hk
    obtain ⟨r, hr, hmatch⟩ := hkept.keys k hk
    exact ⟨r, hr, by simpa [GroupKey.matchesRoster] using hmatch⟩
  · show (s.validate C).bind _ = _
    rw [hvalidate]
    rfl

/-- A group with one device, after a second one was added and removed again. -/
theorem reachable_reloads_after_removal :
    ∃ s, create plainCrypto ⟨[1]⟩ "desktop-1" "Desk" 100 [7] [9] = .ok s ∧
      let s1 := (s.addMember plainCrypto ⟨[1]⟩ ⟨[2], "laptop-2", "Lap", 101⟩ 101).2
      let s2 := (s1.removeMember plainCrypto ⟨[1]⟩ [2] 102 (fun _ => [5])).2
      s2.validate plainCrypto = .ok () ∧ tryFrom plainCrypto s2.toRepr = .ok s2 := by
  obtain ⟨s, hs⟩ : ∃ s, create plainCrypto ⟨[1]⟩ "desktop-1" "Desk" 100 [7] [9] = .ok s :=
    ⟨_, rfl⟩
  have hreach := Reachable.removeMember ⟨[1]⟩ [2] 102 (fun _ => [5])
    (Reachable.addMember ⟨[1]⟩ ⟨[2], "laptop-2", "Lap", 101⟩ 101 (Reachable.create hs))
  exact ⟨s, hs, (reachable_reloads plainCrypto _ hreach).2.2.2.2⟩

end GroupState

end Panora.Group
