/-
  Panora.Panod.Quiesce — records passed on between devices come to rest.

  Any number of devices read pages of each other's feeds and apply them.  A record that is
  applied renumbers its row, so the row is in the feed again and is passed on once more.
  Nothing that is passed on has a stamp that was not there from the start, and a device
  takes each stamp of an entry at most once.

  Main results:
    * `exec_applyRecord_idle` — a record is counted as applied exactly when its row ends with
      its stamp, which is newer than the one before;
    * `applyAll_settles` — a page takes as much from what is pending as it counts;
    * `sync_quiesces` — in every schedule finitely many records are applied.
-/
import Panora.Lib.Quiesce
import Panora.Panod.Convergence
import Panora.Panod.Feed

namespace Panora.Panod

open Storage Lib Lib.Quiesce Function Finset

/-! ## §1. One record -/

section Record

variable {env : Env} {d d' : Daemon} {sent : SyncRecord}

/-- Retention leaves every row as it is if applying this record runs it. -/
def IdleAt (env : Env) (d : Daemon) (sent : SyncRecord) : Prop :=
  ¬ malformed env sent → ∀ g ∈ gcPoint env sent d, Quiet env g

instance (env : Env) (d : Daemon) (sent : SyncRecord) : Decidable (IdleAt env d sent) :=
  inferInstanceAs (Decidable (_ → _))

/-- What became of a record: its row took its state, or every row is as it was. -/
def Became (env : Env) (sent : SyncRecord) (d d' : Daemon) : Applied → Prop
  | .yes => ∃ r, Takes env sent d d' r
  | .ignored => d'.db.entries = d.db.entries
  | .rejected => d'.db.entries = d.db.entries

/-- **Applying a record**, while retention evicts nothing, always completes. -/
theorem exec_applyRecord_idle (hidle : IdleAt env d sent) :
    ∃ became d', Op.exec (applyRecord env sent) d = (.ok became, d') ∧
      Became env sent d d' became := by
  by_cases hbad : malformed env sent
  · exact ⟨.rejected, d, exec_applyRecord_malformed hbad, rfl⟩
  obtain ⟨d', r, hrun, htakes, -⟩ | ⟨hrun, -⟩ := exec_applyRecord_quiet hbad (hidle hbad)
  · exact ⟨.yes, d', hrun, r, htakes⟩
  · exact ⟨.ignored, _, hrun, entries_observed _ d⟩

/-- The stamp of the row of each entry. -/
def stampAt (d : Daemon) (k : EntryKey) : Option Stamp := (d.db.entries.find k).map rowStamp

theorem stampAt_of_entries (h : d'.db.entries = d.db.entries) : stampAt d' = stampAt d := by
  unfold stampAt
  rw [h]

/-- A row that takes a newer state raises its stamp. -/
theorem Takes.raises {r : EntryRow} (h : Takes env sent d d' r) :
    Raises (stampAt d) (stampAt d') sent.key sent.stamp where
  newer := by
    intro t ht
    obtain ⟨old, hold, rfl⟩ := Option.map_eq_some_iff.mp ht
    exact h.newer old hold
  now := by
    have hstamp : rowStamp r = sent.stamp := congrArg EntryState.stamp h.state
    rw [stampAt, h.wrote.row, Option.map_some, hstamp]
  others k' hk := by rw [stampAt, stampAt, h.wrote.others k' hk]

/-- Seen by their stamps: the record's was taken, or all are as they were. -/
theorem Became.stamps {became : Applied} (h : Became env sent d d' became) :
    (became = .yes ∧ Raises (stampAt d) (stampAt d') sent.key sent.stamp) ∨
      (became ≠ .yes ∧ stampAt d' = stampAt d) := by
  cases became with
  | yes =>
    obtain ⟨r, htakes⟩ := h
    exact Or.inl ⟨rfl, htakes.raises⟩
  | ignored => exact Or.inr ⟨by simp, stampAt_of_entries h⟩
  | rejected => exact Or.inr ⟨by simp, stampAt_of_entries h⟩

end Record

/-! ## §2. One page -/

section Batch

variable {env : Env} {known : Finset (EntryKey × Stamp)}

/-- Retention leaves every row as it is while these records are applied. -/
def IdleRun (env : Env) : Daemon → List SyncRecord → Prop
  | _, [] => True
  | d, sent :: rest => IdleAt env d sent ∧ IdleRun env (Op.exec (applyRecord env sent) d).2 rest

instance decidableIdleRun (env : Env) : ∀ d l, Decidable (IdleRun env d l)
  | _, [] => inferInstanceAs (Decidable True)
  | d, sent :: rest =>
    have := decidableIdleRun env (Op.exec (applyRecord env sent) d).2 rest
    inferInstanceAs (Decidable (IdleAt env d sent ∧ _))

/-- One more record counted is one pending stamp less. -/
theorem Became.count {sent : SyncRecord} {d d' : Daemon} {became : Applied}
    (h : Became env sent d d' became) (hknown : (sent.key, sent.stamp) ∈ known) (t : Tally) :
    (t.count became).applied + (pending known (stampAt d')).card
      ≤ t.applied + (pending known (stampAt d)).card := by
  rcases h.stamps with ⟨rfl, hraises⟩ | ⟨hne, hsame⟩
  · have hlt := hraises.pending_lt hknown
    show t.applied + 1 + _ ≤ _
    omega
  · have hcount : (t.count became).applied = t.applied := by
      cases became with
      | yes => exact absurd rfl hne
      | ignored => rfl
      | rejected => rfl
    rw [hsame, hcount]

/-- Only stamps that were known are held after a record. -/
theorem Became.holds {sent : SyncRecord} {d d' : Daemon} {became : Applied}
    (h : Became env sent d d' became) (hknown : (sent.key, sent.stamp) ∈ known)
    (hheld : HoldsOnly known (stampAt d)) : HoldsOnly known (stampAt d') := by
  rcases h.stamps with ⟨-, hraises⟩ | ⟨-, hsame⟩
  · exact hraises.holds hknown hheld
  · rw [hsame]
    exact hheld

/-- Applying a page whose stamps are known completes, takes as many of the pending stamps as
    it counts, and leaves only known stamps. -/
theorem applyAll_settles (records : List SyncRecord)
    (hknown : ∀ sent ∈ records, (sent.key, sent.stamp) ∈ known) :
    ∀ (t : Tally) (d : Daemon), IdleRun env d records → HoldsOnly known (stampAt d) →
      ∃ t' d', Op.exec (records.foldlM (applyNext env) t) d = (.ok t', d') ∧
        t'.applied + (pending known (stampAt d')).card
          ≤ t.applied + (pending known (stampAt d)).card ∧
        HoldsOnly known (stampAt d') := by
  induction records with
  | nil =>
    intro t d _ hheld
    exact ⟨t, d, rfl, Nat.le_refl _, hheld⟩
  | cons sent rest ih =>
    intro t d hidle hheld
    obtain ⟨hsent, hrest⟩ := List.forall_mem_cons.mp hknown
    obtain ⟨became, d1, hrun, hof⟩ := exec_applyRecord_idle hidle.1
    have hidle1 : IdleRun env d1 rest := by
      have hlater := hidle.2
      rwa [hrun] at hlater
    obtain ⟨t', d', hrun', hcount, hheld'⟩ :=
      ih hrest (t.count became) d1 hidle1 (hof.holds hsent hheld)
    have hnext : Op.exec (applyNext env t sent) d = (.ok (t.count became), d1) := by
      unfold applyNext
      rw [Op.exec_bind_ok hrun]
      rfl
    refine ⟨t', d', ?_, hcount.trans (hof.count hsent t), hheld'⟩
    rw [List.foldlM_cons, Op.exec_bind_ok hnext]
    exact hrun'

end Batch

/-! ## §3. Devices -/

/-- A page of one device's feed is read and applied at another device. -/
structure Transfer (ι : Type) where
  source : ι
  target : ι
  reader : Env
  applier : Env
  since : Int
  limit : Nat
  scope : SyncScope

section Devices

variable {ι : Type}

namespace Transfer

/-- The records of the page; none where reading it fails. -/
def page (t : Transfer ι) (net : ι → Daemon) : List SyncRecord :=
  match syncChanges t.reader (net t.source) t.since t.limit t.scope with
  | .ok (records, _, _) => records
  | .error _ => []

/-- What applying the page does at the other device. -/
def outcome (t : Transfer ι) (net : ι → Daemon) : Except Error Tally × Daemon :=
  Op.exec (syncApply t.applier (t.page net)) (net t.target)

/-- How many records are counted as applied. -/
def applied (t : Transfer ι) (net : ι → Daemon) : Nat :=
  match (t.outcome net).1 with
  | .ok tally => tally.applied
  | .error _ => 0

/-- Retention leaves every row as it is meanwhile. -/
def Idle (t : Transfer ι) (net : ι → Daemon) : Prop :=
  IdleRun t.applier (net t.target) (t.page net)

instance (t : Transfer ι) (net : ι → Daemon) : Decidable (t.Idle net) :=
  inferInstanceAs (Decidable (IdleRun _ _ _))

/-- All devices afterwards. -/
def step [DecidableEq ι] (t : Transfer ι) (net : ι → Daemon) : ι → Daemon :=
  update net t.target (t.outcome net).2

end Transfer

/-- All devices after the first `n` transfers of a schedule. -/
def netAt [DecidableEq ι] (net : ι → Daemon) (schedule : Nat → Transfer ι) : Nat → ι → Daemon
  | 0 => net
  | n + 1 => (schedule n).step (netAt net schedule n)

/-- How many records the transfer with this number applies. -/
def appliedAt [DecidableEq ι] (net : ι → Daemon) (schedule : Nat → Transfer ι) (n : Nat) : Nat :=
  (schedule n).applied (netAt net schedule n)

variable [Fintype ι]

/-- The stamps of every device's rows. -/
def stampsOf (net : ι → Daemon) : Finset (EntryKey × Stamp) :=
  univ.biUnion (fun i =>
    ((net i).db.entries.rows.map (fun r => (r.key, rowStamp r))).toFinset)

theorem mem_stampsOf {net : ι → Daemon} {k : EntryKey} {s : Stamp} : (k, s) ∈ stampsOf net ↔
    ∃ i, ∃ r ∈ (net i).db.entries.rows, r.key = k ∧ rowStamp r = s := by
  unfold stampsOf
  simp

/-- There are no more stamps than rows. -/
theorem card_stampsOf_le (net : ι → Daemon) :
    (stampsOf net).card ≤ ∑ i, (net i).db.entries.rows.length := by
  refine card_biUnion_le.trans (sum_le_sum fun i _ => ?_)
  refine (List.toFinset_card_le _).trans ?_
  rw [List.length_map]

/-- What all devices may still take. -/
def pendingIn (known : Finset (EntryKey × Stamp)) (net : ι → Daemon) : Nat :=
  ∑ i, (pending known (stampAt (net i))).card

theorem pendingIn_le (known : Finset (EntryKey × Stamp)) (net : ι → Daemon) :
    pendingIn known net ≤ Fintype.card ι * known.card := by
  have hle : pendingIn known net ≤ ∑ _i : ι, known.card :=
    sum_le_sum fun i _ => card_le_card (filter_subset _ _)
  rw [sum_const, card_univ] at hle
  exact hle

/-- Every device holds only known stamps. -/
def AllHold (known : Finset (EntryKey × Stamp)) (net : ι → Daemon) : Prop :=
  ∀ i, HoldsOnly known (stampAt (net i))

omit [Fintype ι] in
/-- What a page carries is known when the device it is read from holds only what is known. -/
theorem Transfer.page_known {known : Finset (EntryKey × Stamp)} {net : ι → Daemon}
    (h : AllHold known net) (t : Transfer ι) :
    ∀ sent ∈ t.page net, (sent.key, sent.stamp) ∈ known := by
  intro sent hsent
  unfold Transfer.page at hsent
  split at hsent
  next records next more hpage =>
    obtain ⟨r, hr, -, hmade⟩ := mem_syncChanges hpage hsent
    obtain ⟨payloads, -, rfl⟩ := recordOf_some hmade
    -- the row a record is made of is the one its key finds
    have hfind : (net t.source).db.entries.find r.key = some r := Table.find_eq_some.mpr ⟨hr, rfl⟩
    apply h t.source
    rw [stampAt]
    show ((net t.source).db.entries.find r.key).map rowStamp = some (rowStamp r)
    rw [hfind]
    rfl
  next => cases hsent

/-- The stamps the devices start with are known. -/
theorem allHold_stampsOf (net : ι → Daemon) : AllHold (stampsOf net) net := by
  intro i k s hs
  obtain ⟨r, hr, rfl⟩ := Option.map_eq_some_iff.mp hs
  obtain ⟨hmem, hkey⟩ := Table.find_eq_some.mp hr
  exact mem_stampsOf.mpr ⟨i, r, hmem, hkey, rfl⟩

variable [DecidableEq ι]

/-- **A transfer** completes, and takes from what is pending what it counts. -/
theorem Transfer.step_settles {known : Finset (EntryKey × Stamp)} {net : ι → Daemon}
    (h : AllHold known net) (t : Transfer ι) (hidle : t.Idle net) :
    pendingIn known (t.step net) + t.applied net ≤ pendingIn known net ∧
      AllHold known (t.step net) := by
  obtain ⟨tally, d', hrun, hcount, hheld⟩ := applyAll_settles (t.page net)
    (t.page_known h) ⟨0, 0, 0⟩ (net t.target) hidle (h t.target)
  have houtcome : t.outcome net = (.ok tally, d') := hrun
  have happlied : t.applied net = tally.applied := by
    unfold Transfer.applied
    rw [houtcome]
  have hstep : t.step net = update net t.target d' := by
    unfold Transfer.step
    rw [houtcome]
  constructor
  · rw [happlied, hstep]
    apply sum_update_add_le (j := t.target)
    · rw [update_self]
      have hzero : (⟨0, 0, 0⟩ : Tally).applied = 0 := rfl
      omega
    · intro i hi
      rw [update_of_ne hi]
  · rw [hstep]
    intro i
    by_cases hi : i = t.target
    · subst hi
      rw [update_self]
      exact hheld
    · rw [update_of_ne hi]
      exact h i

/-- **The transfers of a schedule** take from what is pending what they count. -/
theorem netAt_settles {known : Finset (EntryKey × Stamp)} {net : ι → Daemon}
    (h : AllHold known net) (schedule : Nat → Transfer ι) :
    ∀ n, (∀ m, m < n → (schedule m).Idle (netAt net schedule m)) →
      pendingIn known (netAt net schedule n) + ∑ m ∈ range n, appliedAt net schedule m
        ≤ pendingIn known net ∧ AllHold known (netAt net schedule n) := by
  intro n
  induction n with
  | zero => exact fun _ => ⟨Nat.le_refl _, h⟩
  | succ n ih =>
    intro hidle
    obtain ⟨hsum, hhold⟩ := ih fun m hm => hidle m (Nat.lt_succ_of_lt hm)
    obtain ⟨hstep, hhold'⟩ := (schedule n).step_settles hhold (hidle n (Nat.lt_succ_self n))
    refine ⟨?_, hhold'⟩
    rw [sum_range_succ]
    have hsplit : pendingIn known (netAt net schedule (n + 1)) + appliedAt net schedule n
        ≤ pendingIn known (netAt net schedule n) := hstep
    omega

/-- **Sync quiesces.**  Finitely many devices with any histories read pages of each other's
    feeds, from any cursor, and apply them, while retention evicts and purges nothing.  A
    record that is applied gives its row its own stamp, which is newer than the one before,
    and any other leaves the rows alone; no stamp is ever held that was not held at the start;
    the records applied are never more than devices times rows; and from some transfer on
    nothing is applied. -/
theorem sync_quiesces (net : ι → Daemon) (schedule : Nat → Transfer ι) :
    (∀ env d sent, IdleAt env d sent →
      ∃ became d', Op.exec (applyRecord env sent) d = (.ok became, d') ∧
        (became = .yes → Raises (stampAt d) (stampAt d') sent.key sent.stamp) ∧
        (became ≠ .yes → stampAt d' = stampAt d)) ∧
    (∀ n, (∀ m, m < n → (schedule m).Idle (netAt net schedule m)) →
      (∀ i, ∀ r ∈ (netAt net schedule n i).db.entries.rows,
        ∃ j, ∃ r0 ∈ (net j).db.entries.rows, r0.key = r.key ∧ rowStamp r0 = rowStamp r) ∧
      ∑ m ∈ Finset.range n, appliedAt net schedule m
        ≤ Fintype.card ι * ∑ i, (net i).db.entries.rows.length) ∧
    ((∀ m, (schedule m).Idle (netAt net schedule m)) →
      ∃ n, ∀ m, n ≤ m → appliedAt net schedule m = 0) := by
  have hbound : ∀ n, (∀ m, m < n → (schedule m).Idle (netAt net schedule m)) →
      ∑ m ∈ range n, appliedAt net schedule m
        ≤ Fintype.card ι * ∑ i, (net i).db.entries.rows.length := by
    intro n hidle
    have hsum := (netAt_settles (allHold_stampsOf net) schedule n hidle).1
    have hpending := pendingIn_le (stampsOf net) net
    have hcard : Fintype.card ι * (stampsOf net).card
        ≤ Fintype.card ι * ∑ i, (net i).db.entries.rows.length :=
      Nat.mul_le_mul_left _ (card_stampsOf_le net)
    omega
  refine ⟨?_, ?_, ?_⟩
  · intro env d sent hidle
    obtain ⟨became, d', hrun, hof⟩ := exec_applyRecord_idle hidle
    rcases hof.stamps with ⟨hyes, hraises⟩ | ⟨hne, hsame⟩
    · exact ⟨became, d', hrun, fun _ => hraises, fun hne => absurd hyes hne⟩
    · exact ⟨became, d', hrun, fun hyes => absurd hyes hne, fun _ => hsame⟩
  · intro n hidle
    refine ⟨?_, hbound n hidle⟩
    intro i r hr
    have hhold := (netAt_settles (allHold_stampsOf net) schedule n hidle).2 i r.key (rowStamp r)
    have hfind : (netAt net schedule n i).db.entries.find r.key = some r :=
      Table.find_eq_some.mpr ⟨hr, rfl⟩
    exact mem_stampsOf.mp (hhold (by rw [stampAt, hfind]; rfl))
  · intro hidle
    exact eventually_zero fun n => hbound n fun m _ => hidle m

end Devices

namespace Sample

/-- One device has copied a text, the other has nothing. -/
def pair (copied : Bool) : Daemon :=
  if copied then (Op.exec (storeRow env (captureOf (note [97] 1))) fresh).2 else fresh

/-- Its feed is applied at the other device over and over. -/
def again (_ : Nat) : Transfer Bool where
  source := true
  target := false
  reader := env
  applier := env
  since := 0
  limit := 32
  scope := ⟨false, false⟩

theorem idle_again : ∀ m, m < 2 → (again m).Idle (netAt pair again m) := by decide +kernel

theorem sync_quiesces_pair : appliedAt pair again 0 = 1 ∧
    ∑ m ∈ Finset.range 2, appliedAt pair again m
      ≤ Fintype.card Bool * ∑ i, (pair i).db.entries.rows.length :=
  ⟨by decide +kernel, ((sync_quiesces pair again).2.1 2 idle_again).2⟩

end Sample

end Panora.Panod
