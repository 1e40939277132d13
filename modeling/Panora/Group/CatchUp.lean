/-
  Panora.Group.CatchUp — a device that is behind catches up from what another one keeps.

  Where a group's rosters never forked they lie on one line, and every device is somewhere
  on it: it created the group, or joined it with all its inviter kept, and then made or
  applied rosters of the line.  What it keeps is the newest eight rosters up to where it
  is, whichever way it got there.

  Main results:
    * `OnLine.follows` — what a device on the line keeps;
    * `catching_up_works`.
-/
import Panora.Group.Keep

namespace Panora.Group

open Lib.Fallible Lib.Keyed Lib.Window List

/-! ## §1. Rosters of one line -/

namespace History

variable {C : Crypto} {line : List Roster}

/-- The epoch says where on the line a roster is. -/
theorem getElem?_of_epoch (h : History C line) {i k : Nat} {cur r : Roster}
    (hcur : (line)[i]? = some cur) (hr : r ∈ line) (hepoch : r.epoch = cur.epoch + k) :
    (line)[i + k]? = some r := by
  cases line with
  | nil => cases hr
  | cons first rest =>
    obtain ⟨j, hj⟩ := mem_iff_getElem?.mp hr
    have hi := h.epoch_getElem i cur hcur
    have hat := h.epoch_getElem j r hj
    rw [show i + k = j by omega]
    exact hj

/-- A run of rosters of the line that grows from one of them is the next part of it. -/
theorem take_append (h : History C line) :
    ∀ {incoming : List Roster} {n : Nat} {cur : Roster}, (line)[n]? = some cur →
      (∀ r ∈ incoming, r ∈ line) → (cur :: incoming).IsChain (Succeeds C) →
      line.take (n + 1 + incoming.length) = line.take (n + 1) ++ incoming
  | [], n, _, _, _, _ => by simp
  | r :: incoming, n, cur, hcur, hin, hlinked => by
    obtain ⟨hr, hin⟩ := forall_mem_cons.mp hin
    obtain ⟨hsucc, hlinked⟩ := isChain_cons_cons.mp hlinked
    have hnext := h.getElem?_of_epoch hcur hr hsucc.epoch
    have ih := take_append h hnext hin hlinked
    have hone : line.take (n + 1 + 1) = line.take (n + 1) ++ [r] := by
      rw [take_add_one, hnext]
      rfl
    rw [length_cons, show n + 1 + (incoming.length + 1) = n + 1 + 1 + incoming.length by omega,
      ih, hone, append_assoc, singleton_append]

end History

/-! ## §2. Devices on the line -/

namespace GroupState

/-- The rosters an inviter hands a new device: all it keeps. -/
def welcomeChain (s : GroupState) : List Roster := s.rosters

/-- The states of devices of a group whose rosters all lie on `line`: it was created, or
    joined with an inviter's chain, and then changed by own changes and by chains of rosters
    of the line, successful or not. -/
inductive OnLine (C : Crypto) (line : List Roster) : GroupState → Prop where
  | create {identity : DeviceIdentity} {deviceId name : String} {now : Int}
      {drawnId drawnKey : Bytes} {t : GroupState} :
      create C identity deviceId name now drawnId drawnKey = .ok t →
      (∀ r ∈ t.rosters, r ∈ line) → OnLine C line t
  | joined {inviter t : GroupState} {me : PublicIdentity} {key : GroupKey} :
      OnLine C line inviter → joined C me inviter.welcomeChain key = .ok t → OnLine C line t
  | addMember {t : GroupState} (signer : DeviceIdentity) (m : Member) (now : Int) :
      OnLine C line t → (∀ r, (t.addMember C signer m now).1 = .ok r → r ∈ line) →
      OnLine C line (t.addMember C signer m now).2
  | removeMember {t : GroupState} (signer : DeviceIdentity) (i : PublicIdentity) (now : Int)
      (drawn : Nat → Bytes) :
      OnLine C line t → (∀ r k, (t.removeMember C signer i now drawn).1 = .ok (r, k) → r ∈ line) →
      OnLine C line (t.removeMember C signer i now drawn).2
  | applyChain {t : GroupState} (chain : List Roster) :
      OnLine C line t → (∀ r ∈ chain, r ∈ line) → OnLine C line (t.applyChain C chain).2
  | acceptKey {t : GroupState} (key : GroupKey) :
      OnLine C line t → OnLine C line (t.acceptKey C key).2

/-- A device that is at place `n` of the line, and keeps the newest eight rosters up to
    there. -/
structure Follows (C : Crypto) (line : List Roster) (n : Nat) (s : GroupState) : Prop where
  wellKept : s.WellKept C
  current : (line)[n]? = s.rosters.getLast?
  rosters : s.rosters = newest keptRosters (line.take (n + 1))

variable {C : Crypto} {line : List Roster} {s : GroupState} {n : Nat}

theorem acceptKey_rosters (key : GroupKey) : (s.acceptKey C key).2.rosters = s.rosters := by
  unfold acceptKey
  split
  next => rfl
  next =>
  split
  next => rfl
  next =>
  split
  next => rfl
  next =>
  split
  next => rfl
  next => exact prune_rosters C _

namespace Follows

/-- Keys are no matter of the line. -/
theorem of_rosters_eq {s' : GroupState} (h : Follows C line n s) (hs' : s'.WellKept C)
    (heq : s'.rosters = s.rosters) : Follows C line n s' :=
  ⟨hs', heq ▸ h.current, heq ▸ h.rosters⟩

theorem exists_current (h : Follows C line n s) :
    ∃ cur, (line)[n]? = some cur ∧ s.rosters.getLast? = some cur := by
  obtain ⟨cur, hlast, -, -⟩ := h.wellKept.exists_current
  exact ⟨cur, h.current.trans hlast, hlast⟩

/-- **A run of rosters of the line is taken over** at its end. -/
theorem append (hline : History C line) (h : Follows C line n s) {s' : GroupState}
    (hs' : s'.WellKept C) {cur : Roster} (hcur : s.rosters.getLast? = some cur)
    {incoming : List Roster} (hne : incoming ≠ []) (hin : ∀ r ∈ incoming, r ∈ line)
    (hlinked : (cur :: incoming).IsChain (Succeeds C))
    (hrosters : s'.rosters = newest keptRosters (s.rosters ++ incoming)) :
    Follows C line (n + incoming.length) s' := by
  have htake := hline.take_append (h.current.trans hcur) hin hlinked
  have hwindow : s'.rosters = newest keptRosters (line.take (n + incoming.length + 1)) := by
    rw [hrosters, h.rosters, newest_newest_append, ← htake,
      show n + 1 + incoming.length = n + incoming.length + 1 by omega]
  refine ⟨hs', ?_, hwindow⟩
  -- the line reaches that far
  have hlast := congrArg getLast? htake
  rw [getLast?_append_of_ne_nil _ hne, show n + 1 + incoming.length = n + incoming.length + 1
    by omega] at hlast
  have hlen := congrArg length htake
  rw [length_append, length_take, length_take] at hlen
  have hpos := length_pos_iff.mpr hne
  have hlast' : (line.take (n + incoming.length + 1)).getLast? = (line)[n + incoming.length]? := by
    rw [getLast?_eq_getElem?, length_take,
      show min (n + incoming.length + 1) line.length - 1 = n + incoming.length by omega,
      getElem?_take_of_lt (by omega)]
  have hend : s'.rosters.getLast? = (line.take (n + incoming.length + 1)).getLast? := by
    rw [hwindow]
    unfold newest
    rw [getLast?_drop, if_neg]
    rw [length_take]
    unfold keptRosters
    omega
  rw [← hlast', hend]

/-- A roster a device of the line makes and that is on the line is the next one. -/
theorem push_signNext (hline : History C line) (h : Follows C line n s) {signer : DeviceIdentity}
    {next r : Roster} (hsign : s.signNext C signer next = .ok r) (hr : r ∈ line)
    (keys : List GroupKey) : Follows C line (n + 1) ({ s with keys := keys }.push C r) := by
  obtain ⟨-, -, cur, hcur, hsucc⟩ := signNext_ok_iff.mp hsign
  have hin : ∀ x ∈ [r], x ∈ line := fun x hx => mem_singleton.mp hx ▸ hr
  refine h.append hline (wellKept_push_signNext h.wellKept hsign keys) hcur (by simp) hin ?_ ?_
  · exact isChain_cons_cons.mpr ⟨hsucc, isChain_singleton r⟩
  · rw [push_rosters]
    rfl

/-- **A chain of the line never forks** from what a device of the line keeps: it is taken
    over at the end or does nothing. -/
theorem applyChain (hline : History C line) (h : Follows C line n s) {chain : List Roster}
    (hchain : ∀ r ∈ chain, r ∈ line) : ∃ n', Follows C line n' (s.applyChain C chain).2 := by
  have hs := h.wellKept
  rcases applyChain_outcome hs chain with ⟨hsame, -⟩ | ⟨⟨f, hf⟩, -⟩
  · exact ⟨n, hsame.symm ▸ h⟩
  · obtain ⟨oldest, rest, hr⟩ : ∃ oldest rest, s.rosters = oldest :: rest :=
      exists_cons_of_ne_nil hs.nonempty
    have hhist : History C (oldest :: rest) := hr ▸ hs.history
    obtain ⟨head, tail, hhead, hsucc⟩ := hf.sound.follows
    have hin : ∀ r ∈ f.incoming, r ∈ line :=
      fun r hin => hchain r (hf.sound.incoming_suffix.subset hin)
    have hkept : ∀ r ∈ s.rosters, r ∈ line := by
      intro r hin
      rw [h.rosters] at hin
      exact mem_of_mem_take (newest_suffix.subset hin)
    -- a held roster after the fork point would be the first incoming one
    have hend : f.idx = s.rosters.length := by
      by_contra hne
      have hlt : f.idx < s.rosters.length := Nat.lt_of_le_of_ne hf.sound.le hne
      obtain ⟨x, hx⟩ : ∃ x, s.rosters[f.idx]? = some x := ⟨_, getElem?_eq_getElem hlt⟩
      have hatx := hhist.epoch_getElem f.idx x (hr ▸ hx)
      have hatp := hhist.epoch_getElem (f.idx - 1) f.parent (hr ▸ hf.sound.parent)
      have hpos := hf.sound.pos
      have hepoch := hsucc.epoch
      obtain ⟨i, hi⟩ := mem_iff_getElem?.mp (hkept x (mem_of_getElem? hx))
      have hsame := hline.getElem?_of_epoch (k := 0) hi
        (hin head (by rw [hhead]; exact mem_cons_self)) (by omega)
      rw [Nat.add_zero, hi] at hsame
      injection hsame with hsame
      have hnew := hf.sound.new oldest (by rw [hr]; rfl)
      rw [hhead] at hnew
      refine not_holds_of_newPart hhist hr hnew ⟨x, mem_of_getElem? hx, ?_, ?_⟩
      · rw [hsame]
      · rw [hsame]
    have hrosters := hf.rosters
    have hlast := hf.sound.getLast?_take
    rw [hend, take_length] at hrosters hlast
    exact ⟨_, h.append hline (wellKept_applyChain hs chain) hlast hf.sound.incoming_ne_nil hin
      hf.sound.incomingLinked hrosters⟩

end Follows

/-- **What a device on the line keeps**: the newest eight rosters up to where it is. -/
theorem OnLine.follows (hline : History C line) (h : OnLine C line s) :
    ∃ n, Follows C line n s := by
  induction h with
  | create hcreate hin =>
    have hkept := wellKept_create hcreate
    simp only [GroupState.create, bind_unit_ok_iff, Except.ok.injEq] at hcreate
    obtain ⟨-, -, rfl⟩ := hcreate
    -- nothing on the line comes before a roster of epoch 0
    have hmem := hin _ (mem_singleton_self _)
    cases hl : line with
    | nil =>
      rw [hl] at hmem
      cases hmem
    | cons first rest =>
      rw [hl] at hmem hline
      obtain ⟨i, hi⟩ := mem_iff_getElem?.mp hmem
      have hepoch := hline.epoch_getElem i _ hi
      have hzero : i = 0 := by
        rw [signed_epoch] at hepoch
        dsimp only at hepoch
        omega
      rw [hzero] at hi
      have hfirst := Option.some.inj hi
      refine ⟨0, hkept, ?_, ?_⟩
      · exact hi
      · rw [← hfirst]
        rfl
  | joined _ hjoined ih =>
    obtain ⟨n, hn⟩ := ih
    exact ⟨n, hn.of_rosters_eq (wellKept_joined hjoined) (by rw [joined_ok hjoined]; rfl)⟩
  | @addMember t signer m now _ hin ih =>
    obtain ⟨n, hn⟩ := ih
    unfold GroupState.addMember at hin ⊢
    cases hroster : t.additionRoster C signer m now with
    | error e => exact ⟨n, hn⟩
    | ok r =>
      rw [hroster] at hin
      obtain ⟨next, hsign⟩ := additionRoster_ok hroster
      exact ⟨n + 1, hn.push_signNext hline hsign (hin r rfl) t.keys⟩
  | @removeMember t signer i now drawn _ hin ih =>
    obtain ⟨n, hn⟩ := ih
    unfold GroupState.removeMember at hin ⊢
    cases hroster : t.removalRoster C signer i now drawn with
    | error e => exact ⟨n, hn⟩
    | ok rk =>
      obtain ⟨r, k⟩ := rk
      rw [hroster] at hin
      obtain ⟨next, hsign⟩ := removalRoster_ok hroster
      exact ⟨n + 1, hn.push_signNext hline hsign (hin r k rfl) (t.keys ++ [k])⟩
  | applyChain chain _ hin ih =>
    obtain ⟨n, hn⟩ := ih
    exact hn.applyChain hline hin
  | acceptKey key _ ih =>
    obtain ⟨n, hn⟩ := ih
    exact ⟨n, hn.of_rosters_eq (wellKept_acceptKey hn.wellKept key) (acceptKey_rosters key)⟩

/-! ## §3. Catching up -/

variable {t : GroupState} {k : Nat}

/-- What is `k` rosters behind keeps what the other keeps of its past. -/
theorem Follows.rosters_ahead (hs : Follows C line n s) (ht : Follows C line (n + k) t)
    (hk : k ≤ keptRosters) :
    ∃ shared, t.rosters = shared ++ (line.drop (n + 1)).take k ∧ ∀ r ∈ shared, r ∈ s.rosters := by
  have hlen : ((line.drop (n + 1)).take k).length ≤ keptRosters :=
    (length_take_le k _).trans hk
  refine ⟨newest (keptRosters - ((line.drop (n + 1)).take k).length) (line.take (n + 1)), ?_, ?_⟩
  · rw [ht.rosters, show n + k + 1 = n + 1 + k by omega, take_add, newest_append hlen]
  · intro r hr
    rw [hs.rosters]
    exact newest_subset (Nat.sub_le _ _) hr

/-- **The one behind** takes over what it lacks. -/
theorem Follows.applyChain_ahead (hline : History C line) (hs : Follows C line n s)
    (ht : Follows C line (n + k) t) (hk : 1 ≤ k) (hk' : k ≤ keptRosters) {next : Roster}
    (hnext : t.rosters.getLast? = some next) (hlisted : next.member s.me ≠ none) :
    (s.applyChain C t.rosters).1 = .ok .advanced ∧
      (s.applyChain C t.rosters).2.rosters.getLast? = some next := by
  obtain ⟨shared, hsplit, hshared⟩ := hs.rosters_ahead ht hk'
  obtain ⟨cur, hcur, hlast⟩ := hs.exists_current
  obtain ⟨oldest, rest, hr⟩ : ∃ oldest rest, s.rosters = oldest :: rest :=
    exists_cons_of_ne_nil hs.wellKept.nonempty
  have hhist : History C (oldest :: rest) := hr ▸ hs.wellKept.history
  obtain ⟨kept, hkept⟩ := getLast?_eq_some_iff.mp hlast
  -- the line goes on after the current roster
  have hlong : n + k < line.length := by
    obtain ⟨cur', hcur', -⟩ := ht.exists_current
    exact (List.getElem?_eq_some_iff.mp hcur').1
  obtain ⟨head, tail, hincoming⟩ : ∃ head tail, (line.drop (n + 1)).take k = head :: tail := by
    apply exists_cons_of_ne_nil
    apply ne_nil_of_length_pos
    rw [length_take, length_drop]
    omega
  have hhead : (line)[n + 1]? = some head := by
    have hat : ((line.drop (n + 1)).take k)[0]? = some head := by rw [hincoming]; rfl
    rw [getElem?_take_of_lt (by omega), getElem?_drop] at hat
    exact hat
  have hsucc : Succeeds C cur head := by
    obtain ⟨hlt, hget⟩ := List.getElem?_eq_some_iff.mp hhead
    have hstep := isChain_iff_getElem.mp hline.linked n hlt
    rw [hget, (List.getElem?_eq_some_iff.mp hcur).2] at hstep
    exact hstep
  have hepoch := hsucc.epoch
  rw [hincoming] at hsplit
  have hincrease := epochs_increase ht.wellKept.history.linked
  have hafter : ∀ r ∈ s.rosters, r.epoch ≤ cur.epoch := by
    have hmono := epochs_increase hs.wellKept.history.linked
    rw [hkept] at hmono ⊢
    intro r hin
    rcases mem_append.mp hin with hin | hin
    · exact le_of_lt ((pairwise_append.mp hmono).2.2 r hin cur (by simp))
    · rw [mem_singleton.mp hin]
  have hnew : newPart C s oldest.epoch t.rosters = head :: tail := by
    rw [hsplit] at hincrease ⊢
    apply newPart_append hhist hr hincrease
    · exact fun r hin => Or.inr ⟨r, hshared r hin, rfl, rfl⟩
    · intro x hx
      have hx : head = x := by simpa using hx
      rw [← hx]
      have hold := hafter oldest (by rw [hr]; exact mem_cons_self)
      refine ⟨by omega, ?_⟩
      intro hheld
      obtain ⟨h, hmem, hsame, -⟩ := hheld
      have hle := hafter h hmem
      omega
  have hgid : s.groupId = .ok cur.groupId := hs.wellKept.groupId_eq (mem_of_getLast? hlast)
  have hgroup : t.groupId = .ok cur.groupId := by
    rw [ht.wellKept.groupId_eq (r := head) (by rw [hsplit]; simp), hsucc.groupId]
  have hfind := findFork_eq_some hs.wellKept hr hgid (ht.wellKept.chainFor hgroup) hkept hnew hsucc
  have hend : kept.length + 1 = s.rosters.length := by
    rw [hkept, length_append, length_singleton]
  have hnext' : (head :: tail).getLast? = some next := by
    rw [← hnext, hsplit, getLast?_append_of_ne_nil _ (by simp)]
  have hlastAfter : ((head :: tail).foldl (push C) s).rosters.getLast? = some next := by
    rw [foldl_push_getLast? (by simp)]
    exact hnext'
  have hmember : ((head :: tail).foldl (push C) s).isMember = .ok true := by
    unfold isMember
    rw [current_eq_ok_iff.mpr hlastAfter, foldl_push_me]
    exact congrArg Except.ok (Option.isSome_iff_ne_none.mpr hlisted)
  have happly : s.applyChain C t.rosters = (.ok .advanced, (head :: tail).foldl (push C) s) := by
    unfold GroupState.applyChain
    rw [hfind]
    dsimp only
    rw [if_pos hend]
    unfold graft
    dsimp only
    rw [hmember]
    rfl
  rw [happly]
  exact ⟨rfl, hlastAfter⟩

/-- **The one ahead** learns nothing. -/
theorem Follows.applyChain_behind (hline : History C line) (hs : Follows C line n s)
    (ht : Follows C line (n + k) t) : t.applyChain C s.rosters = (.ok .unchanged, t) := by
  obtain ⟨oldest, rest, hr⟩ : ∃ oldest rest, t.rosters = oldest :: rest :=
    exists_cons_of_ne_nil ht.wellKept.nonempty
  have hmono : (line.take (n + k + 1)).Pairwise (fun a b => a.epoch < b.epoch) :=
    epochs_increase (hline.linked.take _)
  have hpast : ∀ r ∈ s.rosters, r ∈ line.take (n + k + 1) := by
    intro r hin
    rw [hs.rosters] at hin
    have htake := newest_suffix.subset hin
    rw [show n + k + 1 = n + 1 + k by omega, take_add]
    exact mem_append_left _ htake
  have hnew : newPart C t oldest.epoch (s.rosters ++ []) = [] := by
    apply newPart_append (hr ▸ ht.wellKept.history) hr
    · rw [append_nil]
      exact epochs_increase hs.wellKept.history.linked
    · intro r hin
      rcases mem_newest_or_before (n := keptRosters) hmono (hpast r hin) with hheld | hbefore
      · rw [← ht.rosters] at hheld
        exact Or.inr ⟨r, hheld, rfl, rfl⟩
      · rw [← ht.rosters, hr] at hbefore
        exact Or.inl (hbefore oldest mem_cons_self)
    · simp
  rw [append_nil] at hnew
  -- both are of the line's group
  obtain ⟨cur, hcur, hlast⟩ := hs.exists_current
  have hgid : s.groupId = .ok cur.groupId := hs.wellKept.groupId_eq (mem_of_getLast? hlast)
  have hgroup : t.groupId = .ok cur.groupId := by
    obtain ⟨cur', hcur', hlast'⟩ := ht.exists_current
    rw [ht.wellKept.groupId_eq (mem_of_getLast? hlast'),
      hline.groupId_eq cur' (mem_of_getElem? hcur') cur (mem_of_getElem? hcur)]
  have hnone := findFork_eq_none hr hgroup (hs.wellKept.chainFor hgid) hnew
  unfold GroupState.applyChain
  rw [hnone]

/-- **Catching up works within the window.**  Of two devices on a line of rosters that never
    forked, one up to eight rosters behind the other and listed by its current one: what the
    one ahead keeps brings the one behind to the same current roster, and what the one behind
    keeps changes nothing at the one ahead. -/
theorem catching_up_works (C : Crypto) (line : List Roster) (hline : History C line)
    (s t : GroupState) (hs : OnLine C line s) (ht : OnLine C line t) (cur next : Roster)
    (hcur : s.current = .ok cur) (hnext : t.current = .ok next) (k : Nat) (hk : 1 ≤ k)
    (hk' : k ≤ 8) (hepoch : next.epoch = cur.epoch + k) (hlisted : next.member s.me ≠ none) :
    (s.applyChain C t.welcomeChain).1 = .ok .advanced ∧
      (s.applyChain C t.welcomeChain).2.current = t.current ∧
      t.applyChain C s.welcomeChain = (.ok .unchanged, t) := by
  obtain ⟨n, hn⟩ := hs.follows hline
  obtain ⟨n', hn'⟩ := ht.follows hline
  rw [current_eq_ok_iff] at hcur hnext
  -- the epochs say how far apart they are
  have hat : (line)[n + k]? = some next := hline.getElem?_of_epoch (hn.current.trans hcur)
    (mem_of_getElem? (hn'.current.trans hnext)) hepoch
  have hplace : n' = n + k := by
    have hat' := hn'.current.trans hnext
    have hlt := (List.getElem?_eq_some_iff.mp hat).1
    have hnodup : line.Nodup := by
      refine (epochs_increase hline.linked).imp (fun {a b} hab heq => ?_)
      rw [heq] at hab
      omega
    exact ((getElem?_inj hlt hnodup).mp (hat.trans hat'.symm)).symm
  rw [hplace] at hn'
  obtain ⟨hadvanced, hlast⟩ := hn.applyChain_ahead hline hn' hk hk' hnext hlisted
  refine ⟨hadvanced, ?_, hn.applyChain_behind hline hn'⟩
  rw [current_eq_ok_iff.mpr hnext]
  exact current_eq_ok_iff.mpr hlast

/-- Device 1 created the group and added device 2; a copy of its first state catches up. -/
theorem catching_up_works_after_addition :
    ∃ s, create plainCrypto ⟨[1]⟩ "desktop-1" "Desk" 100 [7] [9] = .ok s ∧
      let t := (s.addMember plainCrypto ⟨[1]⟩ ⟨[2], "laptop-2", "Lap", 101⟩ 101).2
      (s.applyChain plainCrypto t.welcomeChain).1 = .ok .advanced ∧
        (s.applyChain plainCrypto t.welcomeChain).2.current = t.current ∧
        t.applyChain plainCrypto s.welcomeChain = (.ok .unchanged, t) := by
  obtain ⟨s, hs⟩ : ∃ s, create plainCrypto ⟨[1]⟩ "desktop-1" "Desk" 100 [7] [9] = .ok s :=
    ⟨_, rfl⟩
  -- the line is what device 1 keeps in the end
  have hkept := wellKept_addMember (wellKept_create hs) ⟨[1]⟩ ⟨[2], "laptop-2", "Lap", 101⟩ 101
  have hfirst : ∀ r ∈ s.rosters,
      r ∈ (s.addMember plainCrypto ⟨[1]⟩ ⟨[2], "laptop-2", "Lap", 101⟩ 101).2.rosters := by
    cases hs
    decide +kernel
  have hsecond : ∀ r,
      (s.addMember plainCrypto ⟨[1]⟩ ⟨[2], "laptop-2", "Lap", 101⟩ 101).1 = .ok r →
      r ∈ (s.addMember plainCrypto ⟨[1]⟩ ⟨[2], "laptop-2", "Lap", 101⟩ 101).2.rosters := by
    intro r hr
    unfold GroupState.addMember at hr ⊢
    cases hroster : s.additionRoster plainCrypto ⟨[1]⟩ ⟨[2], "laptop-2", "Lap", 101⟩ 101 with
    | error e =>
      rw [hroster] at hr
      cases hr
    | ok r' =>
      rw [hroster] at hr
      injection hr with hr
      rw [← hr]
      exact mem_of_getLast? (push_getLast? plainCrypto s r')
  obtain ⟨cur, -, hcur, -⟩ := (wellKept_create hs).exists_current
  obtain ⟨next, -, hnext, -⟩ := hkept.exists_current
  -- the second roster is the next one, and lists device 1
  have hfacts : (s.current.bind fun a =>
      (s.addMember plainCrypto ⟨[1]⟩ ⟨[2], "laptop-2", "Lap", 101⟩ 101).2.current.map fun b =>
        b.epoch == a.epoch + 1 && (b.member s.me).isSome) = .ok true := by
    cases hs
    decide +kernel
  rw [hcur, hnext] at hfacts
  have hfacts : (next.epoch == cur.epoch + 1 && (next.member s.me).isSome) = true :=
    Except.ok.inj hfacts
  rw [Bool.and_eq_true, beq_iff_eq, Option.isSome_iff_ne_none] at hfacts
  refine ⟨s, hs, catching_up_works plainCrypto _ hkept.history s _ (.create hs hfirst)
    (.addMember _ _ _ (.create hs hfirst) hsecond) cur next hcur hnext 1 le_rfl (by decide)
    hfacts.1 hfacts.2⟩

end GroupState

end Panora.Group
