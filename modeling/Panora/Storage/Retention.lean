/-
  Panora.Storage.Retention — evictions and purges.

  The retention rules of `crates/panora-core/src/storage/db.rs`.  Each rule picks
  live unpinned rows and tombstones them with deletion time 0, the mark of an
  eviction; purging then removes tombstones from before a given time.

  SQL leaves open how `enforce_limit` orders rows seen at the same time.  The order
  it comes out in is a parameter (`Engine`), known only to be by the time seen.

  Main results:
    * `evict_ok` — what evicting a list of rows leaves;
    * `entries_purge` — what a purge leaves;
    * `mem_overBudget_iff` — which row the byte limit evicts.
-/
import Panora.Lib.Fallible
import Panora.Storage.Database

namespace Panora.Storage

open Lib Lib.Table List

variable (db : Database)

/-- What SQL leaves open: some order of rows, newest first. -/
structure Engine where
  newestFirst : List EntryRow → List EntryRow
  perm : ∀ l, (newestFirst l).Perm l
  sorted : ∀ l, (newestFirst l).Pairwise (fun a b => b.cols.lastSeenAt ≤ a.cols.lastSeenAt)

namespace Database

/-! ## §1. Evicting -/

/-- A row retention may evict. -/
def evictable (r : EntryRow) : Bool := !r.cols.deleted && !r.cols.pinned

/-- `WHERE deleted = 0 AND pinned = 0`. -/
def liveUnpinned : List EntryRow := db.entries.rows.filter evictable

/-- Tombstone each of these rows, with no undo window. -/
def evict (ids : List Nat) : Except Error Database :=
  ids.foldlM (fun db id => (db.tombstone id 0).map Prod.snd) db

/-- Evict the selected rows and return their ids. -/
def evictRows (rows : List EntryRow) : Except Error (List Nat × Database) :=
  let ids := rows.map Row.id
  (db.evict ids).map (fun db => (ids, db))

/-- Evict the oldest unpinned entries beyond `maxEntries`. -/
def enforceLimit (engine : Engine) (maxEntries : Nat) : Except Error (List Nat × Database) :=
  db.evictRows ((engine.newestFirst db.liveUnpinned).drop maxEntries)

/-- Evict unpinned entries last seen before `before`. -/
def enforceAge (before : Int) : Except Error (List Nat × Database) :=
  db.evictRows (db.liveUnpinned.filter (fun r => r.cols.lastSeenAt < before))

/-- Evict unpinned sensitive entries last seen before `before`. -/
def expireSensitive (before : Int) : Except Error (List Nat × Database) :=
  db.evictRows (db.liveUnpinned.filter
    (fun r => r.cols.sensitive && r.cols.lastSeenAt < before))

/-- Clear the history, keeping pinned entries. -/
def clearAll : Except Error (List Nat × Database) := db.evictRows db.liveUnpinned

/-- `u64::MAX`. -/
def u64Max : Nat := 2 ^ 64 - 1

/-- `u64::saturating_add`. -/
def saturatingAdd (a b : Nat) : Nat := min (a + b) u64Max

/-- The size of a row as the byte limit counts it. -/
def byteSize (r : EntryRow) : Nat := r.cols.sizeBytes.toNat

/-- `SUM(size_bytes)` over the live pinned rows. -/
def pinnedBytes : Nat :=
  ((db.entries.rows.filter (fun r : EntryRow => !r.cols.deleted && r.cols.pinned)).map
    (fun r : EntryRow => r.cols.sizeBytes)).sum.toNat

/-- `ORDER BY last_seen_at DESC, id DESC`. -/
def newerOrEqual (a b : EntryRow) : Prop :=
  b.cols.lastSeenAt < a.cols.lastSeenAt ∨
    (b.cols.lastSeenAt = a.cols.lastSeenAt ∧ b.id ≤ a.id)

instance : DecidableRel newerOrEqual := fun a b =>
  inferInstanceAs (Decidable (b.cols.lastSeenAt < a.cols.lastSeenAt ∨
    (b.cols.lastSeenAt = a.cols.lastSeenAt ∧ b.id ≤ a.id)))

/-- One row of the byte limit's loop: what is evicted so far, and the bytes in use. -/
def budgetStep (maxBytes : Nat) (acc : List Nat × Nat) (r : EntryRow) : List Nat × Nat :=
  if acc.1 ≠ [] ∨ saturatingAdd acc.2 (byteSize r) > maxBytes then (acc.1 ++ [r.id], acc.2)
  else (acc.1, acc.2 + byteSize r)

/-- The rows the byte limit evicts: once one has to go, everything older goes too. -/
def overBudget (maxBytes : Nat) : List Nat :=
  ((db.liveUnpinned.insertionSort newerOrEqual).foldl (budgetStep maxBytes)
    ([], db.pinnedBytes)).1

/-- Evict the oldest unpinned entries until the live history fits in `maxBytes`. -/
def enforceTotalBytes (maxBytes : Nat) : Except Error (List Nat × Database) :=
  let ids := db.overBudget maxBytes
  (db.evict ids).map (fun db => (ids, db))

/-! ## §2. Purging -/

/-- Nothing refers to this blob any more. -/
def orphaned (blobRef : String) : Bool :=
  db.entryBlobs.all (fun b => b.blobRef ≠ blobRef)

/-- A user's deletion from before `before`. -/
def strippable (before : Int) (r : EntryRow) : Bool :=
  r.cols.deleted && 0 < r.cols.deletedAt && r.cols.deletedAt < before

/-- Drop the payloads of entries a user deleted before `before`, but keep their
    rows.  Returns the blob references nothing refers to any more. -/
def stripTombstones (before : Int) : List String × Database :=
  let ids := (db.entries.rows.filter (strippable before)).map Row.id
  let refs := ((db.entryBlobs.filter (fun b => b.entryId ∈ ids)).map BlobRow.blobRef).dedup
  let db := { db with entryBlobs := db.entryBlobs.filter (fun b => b.entryId ∉ ids) }
  (refs.filter db.orphaned, db)

/-- Remove one row if it is tombstoned, collecting its blob references. -/
def purgeRow (acc : List String × Database) (id : Nat) : List String × Database :=
  let db := acc.2
  match db.entries.get id with
  | none => acc
  | some r =>
    if r.cols.deleted then
      (acc.1 ++ (db.blobsOf id).map BlobRow.blobRef,
        { db with
          entryBlobs := db.entryBlobs.filter (fun b => b.entryId ≠ id)
          entriesFts := db.entriesFts.filter (fun f => f.rowid ≠ id)
          entries := db.entries.keepOnly (fun r => !(r.id = id && r.cols.deleted)) })
    else acc

/-- Permanently remove the given tombstoned rows.  Returns the blob references
    that became unreferenced. -/
def purge (ids : List Nat) : List String × Database :=
  let (candidates, db) := ids.foldl purgeRow ([], db)
  (((candidates.insertionSort (· ≤ ·)).dedup).filter db.orphaned, db)

/-- Permanently purge entries tombstoned before `before`. -/
def purgeTombstones (before : Int) : List String × Database :=
  db.purge ((db.entries.rows.filter
    (fun r => r.cols.deleted && r.cols.deletedAt < before)).map Row.id)

/-! ## §3. What evicting and purging leave -/

variable {db db' : Database} {ids : List Nat}

/-- The columns after an eviction that numbers the rows by `seq`. -/
def evictedCols (ids : List Nat) (seq : Nat → Nat) (r : EntryRow) : Cols :=
  if r.id ∈ ids then (r.cols.tombstoned 0).numbered (seq r.id) else r.cols

theorem entries_tombstone {id : Nat} {r : EntryRow} (h : db.entries.get id = some r)
    (now : Int) : ∃ refs db', db.tombstone id now = .ok (refs, db') ∧
      db'.entries = db.entries.update id
        (fun c => (c.tombstoned now).numbered (db.changeSeq + 1)) := by
  refine ⟨_, _, by rw [tombstone, changing, h]; rfl, ?_⟩
  rw [trackedUpdate_eq h]

/-- **Evicting rows that are there succeeds**: they are tombstoned, the others stay. -/
theorem evict_ok (ids : List Nat) : ∀ db : Database, (∀ id ∈ ids, ∃ r, db.entries.get id = some r) →
      ∃ db' seq, db.evict ids = .ok db' ∧
        db'.entries = db.entries.mapCols (evictedCols ids seq) := by
  induction ids with
  | nil =>
    intro db _
    refine ⟨db, fun _ => 0, rfl, ext ?_⟩
    show db.entries.rows = db.entries.rows.map _
    rw [map_congr_left (g := fun r => r), map_id']
    intro r _
    rfl
  | cons id ids ih =>
    intro db h
    obtain ⟨r, hr⟩ := h id mem_cons_self
    obtain ⟨refs, db1, hdb1, hentries⟩ := entries_tombstone hr 0
    have hthere : ∀ id' ∈ ids, ∃ r', db1.entries.get id' = some r' := by
      intro id' hid'
      obtain ⟨r', hr'⟩ := h id' (mem_cons_of_mem _ hid')
      rw [hentries, update, get_mapCols, hr']
      exact ⟨_, rfl⟩
    obtain ⟨db', seq, hrun, hrows⟩ := ih db1 hthere
    -- a row evicted twice keeps its last number
    refine ⟨db', fun i => if i ∈ ids then seq i else db.changeSeq + 1, ?_, ?_⟩
    · rw [evict, foldlM_cons, hdb1]
      exact hrun
    · rw [hrows, hentries, update, mapCols_mapCols]
      apply congrArg db.entries.mapCols
      funext r0
      by_cases hid : r0.id = id
      · by_cases hmem : id ∈ ids
        · simp [evictedCols, setCols, Cols.tombstoned, Cols.numbered, hid, hmem]
        · simp [evictedCols, setCols, hid, hmem]
      · by_cases hmem : r0.id ∈ ids
        · simp [evictedCols, setCols, hid, hmem]
        · simp [evictedCols, setCols, hid, hmem]

theorem evictRows_ok (db : Database) (rows : List EntryRow) (h : ∀ r ∈ rows, r ∈ db.entries.rows) :
    ∃ db' seq, db.evictRows rows = .ok (rows.map Row.id, db') ∧
      db'.entries = db.entries.mapCols (evictedCols (rows.map Row.id) seq) := by
  obtain ⟨db', seq, hrun, hrows⟩ := evict_ok (rows.map Row.id) db (by
    intro id hid
    obtain ⟨r, hr, rfl⟩ := mem_map.mp hid
    exact ⟨r, get_eq_some.mpr ⟨h r hr, rfl⟩⟩)
  refine ⟨db', seq, ?_, hrows⟩
  rw [evictRows, hrun]
  rfl

section Keeps

variable {R : Database → Database → Prop}

/-- **What every tombstone keeps, evicting a list of rows keeps.** -/
theorem evict_keeps (hrefl : ∀ db, R db db) (htrans : ∀ {a b c}, R a b → R b c → R a c)
    (hone : ∀ id ∈ ids, ∀ {db refs db'}, db.tombstone id 0 = .ok (refs, db') → R db db')
    (h : db.evict ids = .ok db') : R db db' := by
  induction ids generalizing db with
  | nil =>
    cases h
    exact hrefl _
  | cons id ids ih =>
    unfold evict at h
    rw [foldlM_cons] at h
    obtain ⟨db1, hstep, hrest⟩ := Fallible.bind_ok_iff.mp h
    obtain ⟨⟨refs, db2⟩, htombstone, rfl⟩ := Fallible.map_ok_iff.mp hstep
    exact htrans (hone id mem_cons_self htombstone)
      (ih (fun i hi => hone i (mem_cons_of_mem id hi)) hrest)

/-- **What every row that is purged keeps, a purge keeps.** -/
theorem purge_keeps (hrefl : ∀ db, R db db) (htrans : ∀ {a b c}, R a b → R b c → R a c)
    (hone : ∀ acc id, R acc.2 (purgeRow acc id).2) (ids : List Nat) (db : Database) :
    R db (db.purge ids).2 := by
  have hfold : ∀ acc : List String × Database, R acc.2 (ids.foldl purgeRow acc).2 := by
    induction ids with
    | nil => exact fun acc => hrefl acc.2
    | cons id ids ih => exact fun acc => htrans (hone acc id) (ih _)
  exact hfold ([], db)

end Keeps

theorem entries_purgeRow (acc : List String × Database) (id : Nat) :
    (purgeRow acc id).2.entries
      = acc.2.entries.keepOnly (fun r => !(r.id = id && r.cols.deleted)) := by
  cases h : acc.2.entries.get id with
  | none =>
    simp only [purgeRow, h]
    refine (keepOnly_eq_self fun r hr => ?_).symm
    simp [get_eq_none.mp h r hr]
  | some r =>
    by_cases hdel : r.cols.deleted = true
    · simp only [purgeRow, h, if_pos hdel]
    · -- the only row with this id is not a tombstone
      obtain ⟨hr, hid⟩ := get_eq_some.mp h
      simp only [purgeRow, h, if_neg hdel]
      refine (keepOnly_eq_self fun r' hr' => ?_).symm
      by_cases heq : r'.id = id
      · rw [eq_of_id_eq hr' hr (heq.trans hid.symm)]
        simp [hdel]
      · simp [heq]

/-- **A purge removes the tombstones it is given**, and nothing else. -/
theorem entries_purge (ids : List Nat) (db : Database) :
    (db.purge ids).2.entries = db.entries.keepOnly (fun r => !(r.id ∈ ids && r.cols.deleted)) := by
  have hfold : ∀ acc : List String × Database, (ids.foldl purgeRow acc).2.entries
      = acc.2.entries.keepOnly (fun r => !(r.id ∈ ids && r.cols.deleted)) := by
    induction ids with
    | nil =>
      intro acc
      exact (keepOnly_eq_self (by simp)).symm
    | cons id ids ih =>
      intro acc
      rw [foldl_cons, ih, entries_purgeRow, keepOnly_keepOnly]
      apply congrArg acc.2.entries.keepOnly
      funext r
      by_cases hid : r.id = id <;> cases r.cols.deleted <;> simp [hid]
  exact hfold ([], db)

theorem entries_purgeTombstones (db : Database) (before : Int) :
    (db.purgeTombstones before).2.entries
      = db.entries.keepOnly (fun r => !(r.cols.deleted && r.cols.deletedAt < before)) := by
  rw [purgeTombstones, entries_purge]
  apply ext
  refine filter_congr fun r hr => ?_
  -- a row's id is among those selected exactly when the row itself is
  have hsel : r.id ∈ (db.entries.rows.filter (fun r : EntryRow =>
      r.cols.deleted && r.cols.deletedAt < before)).map Row.id
      ↔ (r.cols.deleted && r.cols.deletedAt < before) = true := by
    rw [mem_map]
    constructor
    · intro h
      obtain ⟨r', hr', hid⟩ := h
      obtain ⟨hmem, hsel⟩ := mem_filter.mp hr'
      rw [← eq_of_id_eq hmem hr hid]
      exact hsel
    · intro h
      exact ⟨r, mem_filter.mpr ⟨hr, h⟩, rfl⟩
  by_cases hdel : r.cols.deleted = true
  · simp only [hsel, hdel, Bool.true_and, Bool.and_true, decide_eq_true_eq]
  · simp [hdel]

/-! ## §4. Which rows the byte limit evicts -/

/-- The bytes of a list of rows. -/
def bytes (l : List EntryRow) : Nat := (l.map byteSize).sum

theorem bytes_append (l l' : List EntryRow) : bytes (l ++ l') = bytes l + bytes l' := by
  simp [bytes]

theorem saturatingAdd_gt {a b maxBytes : Nat} :
    saturatingAdd a b > maxBytes ↔ maxBytes < u64Max ∧ maxBytes < a + b := by
  unfold saturatingAdd
  omega

/-- The loop's state after some rows: nothing evicted and their bytes in use, or
    something evicted because they did not fit. -/
theorem budget_run (maxBytes used : Nat) (l : List EntryRow) :
    (l.foldl (budgetStep maxBytes) ([], used) = ([], used + bytes l)) ∨
      ((l.foldl (budgetStep maxBytes) ([], used)).1 ≠ [] ∧
        maxBytes < u64Max ∧ maxBytes < used + bytes l) := by
  induction l using reverseRecOn with
  | nil => exact .inl rfl
  | append_singleton l r ih =>
    rw [foldl_append, bytes_append]
    have hone : bytes [r] = byteSize r := by simp [bytes]
    rw [foldl_cons, foldl_nil, hone]
    rcases ih with h | ⟨hne, hmax, hlt⟩
    · rw [h, budgetStep]
      by_cases hgt : saturatingAdd (used + bytes l) (byteSize r) > maxBytes
      · have hover := saturatingAdd_gt.mp hgt
        rw [if_pos (.inr hgt)]
        exact .inr ⟨by simp, hover.1, by omega⟩
      · have hfits : ¬ (([] : List Nat) ≠ [] ∨
            saturatingAdd (used + bytes l) (byteSize r) > maxBytes) := by
          simpa using hgt
        rw [if_neg hfits, Nat.add_assoc]
        exact .inl rfl
    · rw [budgetStep, if_pos (.inl hne)]
      exact .inr ⟨by simp, hmax, by omega⟩

/-- What the loop evicts was evicted before it or is a row it looks at. -/
theorem budget_subset (maxBytes : Nat) (l : List EntryRow) :
    ∀ (acc : List Nat × Nat), ∀ id ∈ (l.foldl (budgetStep maxBytes) acc).1,
      id ∈ acc.1 ∨ id ∈ l.map Row.id := by
  induction l with
  | nil => exact fun acc id h => .inl h
  | cons r l ih =>
    intro acc id hid
    rw [map_cons, mem_cons]
    rcases ih _ id hid with h | h
    · unfold budgetStep at h
      split at h
      · rcases mem_append.mp h with h | h
        · exact .inl h
        · exact .inr (.inl (mem_singleton.mp h))
      · exact .inl h
    · exact .inr (.inr h)

/-- What is evicted stays evicted. -/
theorem budget_mono (maxBytes : Nat) (l : List EntryRow) :
    ∀ acc : List Nat × Nat, acc.1 ⊆ (l.foldl (budgetStep maxBytes) acc).1 := by
  induction l with
  | nil => exact fun acc => Subset.refl _
  | cons r l ih =>
    intro acc
    refine Subset.trans ?_ (ih (budgetStep maxBytes acc r))
    unfold budgetStep
    split
    · exact subset_append_left _ _
    · exact Subset.refl _

/-- The row the loop looks at last is evicted when it and those before do not fit. -/
theorem last_mem_budget_iff (maxBytes used : Nat) (l : List EntryRow) (r : EntryRow) :
    r.id ∈ ((l ++ [r]).foldl (budgetStep maxBytes) ([], used)).1
      ↔ maxBytes < u64Max ∧ maxBytes < used + bytes (l ++ [r]) := by
  have hone : bytes (l ++ [r]) = bytes l + byteSize r := by simp [bytes]
  rw [foldl_append, foldl_cons, foldl_nil, hone]
  rcases budget_run maxBytes used l with h | ⟨hne, hmax, hlt⟩
  · rw [h, budgetStep]
    by_cases hgt : saturatingAdd (used + bytes l) (byteSize r) > maxBytes
    · rw [if_pos (.inr hgt)]
      have hover := saturatingAdd_gt.mp hgt
      exact ⟨fun _ => ⟨hover.1, by omega⟩, fun _ => by simp⟩
    · have hfits : ¬ (([] : List Nat) ≠ [] ∨
          saturatingAdd (used + bytes l) (byteSize r) > maxBytes) := by
        simpa using hgt
      rw [if_neg hfits]
      refine ⟨fun hmem => absurd hmem (by simp), fun hover => ?_⟩
      exact absurd (saturatingAdd_gt.mpr ⟨hover.1, by omega⟩) hgt
  · rw [budgetStep, if_pos (.inl hne)]
    exact ⟨fun _ => ⟨hmax, by omega⟩, fun _ => by simp⟩

/-- The bytes of the live unpinned rows from the newest down to `r`. -/
def bytesDownTo (db : Database) (r : EntryRow) : Nat :=
  bytes (db.liveUnpinned.filter (fun r' => newerOrEqual r' r))

instance : Std.Total newerOrEqual := ⟨fun a b => by unfold newerOrEqual; omega⟩

instance : IsTrans EntryRow newerOrEqual :=
  ⟨fun a b c hab hbc => by unfold newerOrEqual at *; omega⟩

theorem nodup_liveUnpinned (db : Database) : (db.liveUnpinned.map Row.id).Nodup :=
  db.entries.idsNodup.sublist (filter_sublist.map Row.id)

/-- **The byte limit evicts a row** exactly when the pinned entries, the entries
    newer than it and the row itself do not fit. -/
theorem mem_overBudget_iff {maxBytes : Nat} {r : EntryRow} (hr : r ∈ db.liveUnpinned) :
    r.id ∈ db.overBudget maxBytes
      ↔ maxBytes < u64Max ∧ maxBytes < db.pinnedBytes + db.bytesDownTo r := by
  have hperm := perm_insertionSort newerOrEqual db.liveUnpinned
  have hsorted := pairwise_insertionSort newerOrEqual db.liveUnpinned
  have hids := (hperm.map Row.id).nodup_iff.mpr (nodup_liveUnpinned db)
  obtain ⟨before, after, hl⟩ := append_of_mem (hperm.mem_iff.mpr hr)
  rw [overBudget, hl]
  rw [hl] at hperm hsorted hids
  have hnew : r.id ∉ after.map Row.id := by
    rw [map_append, map_cons] at hids
    exact (nodup_cons.mp (nodup_append.mp hids).2.1).1
  -- the rows down to `r` are those before it in the order, and `r`
  have hfilter : (before ++ r :: after).filter (fun r' => newerOrEqual r' r) = before ++ [r] := by
    obtain ⟨-, hrest, hbefore⟩ := pairwise_append.mp hsorted
    have hafter := (pairwise_cons.mp hrest).1
    rw [filter_append, filter_eq_self.mpr, filter_cons_of_pos,
      filter_eq_nil_iff.mpr]
    · intro r' hr' h
      have hle := hafter r' hr'
      have hge := of_decide_eq_true h
      have hid : r'.id = r.id := by
        unfold newerOrEqual at hle hge
        omega
      exact hnew (hid ▸ mem_map_of_mem hr')
    · simp [newerOrEqual]
    · intro r' hr'
      exact decide_eq_true (hbefore r' hr' r mem_cons_self)
  have hdown : db.bytesDownTo r = bytes (before ++ [r]) := by
    rw [bytesDownTo, ← hfilter, bytes, bytes]
    exact ((hperm.symm.filter (fun r' => newerOrEqual r' r)).map byteSize).sum_nat
  rw [hdown, ← last_mem_budget_iff, show before ++ r :: after = (before ++ [r]) ++ after by simp,
    foldl_append]
  constructor
  · intro h
    rcases budget_subset maxBytes after _ _ h with h | h
    · exact h
    · exact absurd h hnew
  · intro h
    exact budget_mono maxBytes after _ h

end Database

end Panora.Storage
