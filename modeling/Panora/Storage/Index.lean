/-
  Panora.Storage.Index — the search index and the rows it is over.

  `entries_fts` of `crates/panora-core/src/storage/db.rs`.  No trigger keeps it in step: every
  statement that inserts, revives, deletes, restores or purges a row writes the index itself,
  and a migration fills it anew.  Row ids are given out again once the highest row is purged.

  Main results:
    * `consistent_rowWrite` — one statement keeps the index in step;
    * `index_consistent` — so does every sequence of them.
-/
import Panora.Storage.Retention
import Panora.Storage.Rekey

namespace Panora.Storage.Database

open Lib Lib.Table List

/-! ## §1. An index in step -/

/-- The previews some rows of the index have under this row id. -/
def previewsAt (l : List FtsRow) (id : Nat) : List String :=
  (l.filter (fun f => f.rowid = id)).map FtsRow.preview

/-- The previews the index has under this row id. -/
def indexed (db : Database) (id : Nat) : List String := previewsAt db.entriesFts id

/-- The previews it should have: that of a live row, once, and none for another id. -/
def searchable (cipher : Key) (db : Database) (id : Nat) : List String :=
  match db.entries.get id with
  | some r => if r.cols.deleted then [] else [(rowToEntry cipher r).preview]
  | none => []

/-- Every live row has exactly one row of the index, with its preview, and no other row
    has one. -/
def Consistent (cipher : Key) (db : Database) : Prop :=
  ∀ id, db.indexed id = db.searchable cipher id

/-- Recreate the search index from the live previews.  One that does not open fails the
    migration, and its transaction is rolled back. -/
def rebuildSearchIndex (cipher : Key) (db : Database) : Except Error Database :=
  if ∀ r ∈ db.entries.rows, r.cols.deleted = false →
      (openStored cipher (previewAad r.key.contentHash) r.cols.preview).isSome = true then
    .ok { db with
      entriesFts := (db.entries.rows.filter (fun r => !r.cols.deleted)).map
        (fun r => ⟨r.id, (rowToEntry cipher r).preview, none⟩) }
  else .error .crypto

section Parts

variable {cipher : Key} {db db' : Database} {id : Nat} {r : EntryRow}

/-- What `INSERT INTO entries_fts` adds. -/
theorem previewsAt_append (l : List FtsRow) (f : FtsRow) :
    previewsAt (l ++ [f]) id = previewsAt l id ++ (if id = f.rowid then [f.preview] else []) := by
  unfold previewsAt
  rw [filter_append, map_append]
  by_cases hid : id = f.rowid
  · rw [if_pos hid, filter_cons_of_pos (by simp [hid])]
    rfl
  · rw [if_neg hid, filter_cons_of_neg (by simp [Ne.symm hid])]
    rfl

/-- What `DELETE FROM entries_fts WHERE rowid = …` leaves. -/
theorem previewsAt_delete (l : List FtsRow) (i : Nat) :
    previewsAt (l.filter (fun f => f.rowid ≠ i)) id = if id = i then [] else previewsAt l id := by
  unfold previewsAt
  rw [filter_filter]
  by_cases hid : id = i
  · rw [if_pos hid, map_eq_nil_iff, filter_eq_nil_iff]
    intro f _ hf
    simp only [Bool.and_eq_true, decide_eq_true_eq] at hf
    exact hf.2 (hf.1.trans hid)
  · rw [if_neg hid]
    refine congrArg _ (filter_congr fun f _ => ?_)
    by_cases hf : f.rowid = id
    · simp [hf, hid]
    · simp [hf]

/-- What the index should have of a row. -/
def searchableRow (cipher : Key) (r : EntryRow) : List String :=
  if r.cols.deleted then [] else [(rowToEntry cipher r).preview]

theorem searchable_of_get (h : db.entries.get id = some r) :
    db.searchable cipher id = searchableRow cipher r := by
  unfold searchable
  rw [h]
  rfl

theorem searchable_of_none (h : db.entries.get id = none) : db.searchable cipher id = [] := by
  unfold searchable
  rw [h]

end Parts

/-! ## §2. What each statement does to the index -/

variable {i : Nat}

section Statements

variable {cipher : Key} {db db' : Database} {id : Nat} {r : EntryRow}

/-- A statement that writes neither the index nor what it is over. -/
theorem Consistent.of_same (h : Consistent cipher db) (hfts : db'.entriesFts = db.entriesFts)
    (hrows : ∀ id, db'.searchable cipher id = db.searchable cipher id) : Consistent cipher db' := by
  intro id
  rw [hrows id, ← h id]
  unfold indexed
  rw [hfts]

/-- An update that leaves the preview and the tombstone alone. -/
structure Unseen (f : Cols → Cols) : Prop where
  preview : ∀ c, (f c).preview = c.preview
  deleted : ∀ c, (f c).deleted = c.deleted

variable {f : Cols → Cols}

theorem searchable_update (hf : Unseen f) (db : Database) (i id : Nat)
    {db' : Database} (hrows : db'.entries = db.entries.update i f) :
    db'.searchable cipher id = db.searchable cipher id := by
  by_cases hid : id = i
  · subst hid
    cases hget : db.entries.get id with
    | none =>
      rw [update_of_get_none hget] at hrows
      unfold searchable
      rw [hrows]
    | some r =>
      have hafter : db'.entries.get id = some { r with cols := f r.cols } := by
        rw [hrows, get_update_self hget]
      rw [searchable_of_get hafter, searchable_of_get hget]
      unfold searchableRow rowToEntry
      show (if (f r.cols).deleted then [] else [(openStored _ _ (f r.cols).preview).getD _]) = _
      rw [hf.deleted, hf.preview]
  · unfold searchable
    rw [hrows, get_update_of_ne _ hid]

theorem Consistent.plainUpdate (h : Consistent cipher db) (hf : Unseen f)
    (i : Nat) : Consistent cipher (db.plainUpdate i f) :=
  h.of_same rfl fun id => searchable_update hf db i id rfl

theorem Unseen.numbered (hf : Unseen f) (seq : Nat) : Unseen (fun c => (f c).numbered seq) :=
  ⟨hf.preview, hf.deleted⟩

theorem Consistent.trackedUpdate (h : Consistent cipher db) (hf : Unseen f)
    (i : Nat) : Consistent cipher (db.trackedUpdate i f) := by
  cases hget : db.entries.get i with
  | none =>
    have hsame : db.trackedUpdate i f = db := by
      unfold Database.trackedUpdate
      rw [hget]
    rw [hsame]
    exact h
  | some r =>
    rw [trackedUpdate_eq hget]
    exact h.of_same rfl fun id => searchable_update (hf.numbered _) db i id rfl

/-- **The rows and the index are written together**: the row `i` becomes `r'`, and the index
    has what it should of it. -/
theorem Consistent.rewritten (h : Consistent cipher db) {r' : EntryRow}
    (hget : db'.entries.get i = some r')
    (hothers : ∀ id, id ≠ i → db'.entries.get id = db.entries.get id)
    (hindexed : db'.indexed i = searchableRow cipher r')
    (hindex : ∀ id, id ≠ i → db'.indexed id = db.indexed id) : Consistent cipher db' := by
  intro id
  by_cases hid : id = i
  · rw [hid, hindexed, searchable_of_get hget]
  · rw [hindex id hid, h id]
    unfold searchable
    rw [hothers id hid]

/-- The row an update with a change number leaves. -/
theorem get_trackedUpdate (h : db.entries.get id = some r) (f : Cols → Cols) :
    (db.trackedUpdate id f).entries.get id
      = some { r with cols := (f r.cols).numbered (db.changeSeq + 1) } := by
  rw [trackedUpdate_eq h]
  exact get_update_self h _

theorem get_trackedUpdate_ne (hne : id ≠ i) (f : Cols → Cols) :
    (db.trackedUpdate i f).entries.get id = db.entries.get id := by
  cases hget : db.entries.get i with
  | none =>
    unfold Database.trackedUpdate
    rw [hget]
  | some r0 =>
    rw [trackedUpdate_eq hget]
    exact get_update_of_ne _ hne _

theorem entriesFts_trackedUpdate (db : Database) (i : Nat) (f : Cols → Cols) :
    (db.trackedUpdate i f).entriesFts = db.entriesFts := by
  unfold Database.trackedUpdate
  split
  · rfl
  · rfl

/-- A row that is put back into the index. -/
theorem indexed_reindex (db : Database) (i : Nat) (preview : String) (id : Nat) :
    (db.reindex i preview).indexed id = if id = i then [preview] else db.indexed id := by
  unfold indexed Database.reindex
  rw [previewsAt_append, previewsAt_delete]
  by_cases hid : id = i
  · rw [if_pos hid, if_pos hid, if_pos hid]
    rfl
  · rw [if_neg hid, if_neg hid, if_neg hid, append_nil]

/-- A row that is revived or restored, with its preview put back into the index. -/
theorem Consistent.reindexed (h : Consistent cipher db) (hget : db.entries.get id = some r)
    {preview : String} (hlive : (f r.cols).deleted = false)
    (hpreview : (rowToEntry cipher { r with cols := f r.cols }).preview = preview) :
    Consistent cipher ((db.trackedUpdate id f).reindex id preview) := by
  refine h.rewritten (i := id) (get_trackedUpdate hget f) (fun i hne => get_trackedUpdate_ne hne f) ?_ fun i hne => ?_
  · rw [indexed_reindex, if_pos rfl]
    show _ = if (f r.cols).deleted then [] else _
    rw [hlive, ← hpreview]
    rfl
  · rw [indexed_reindex, if_neg hne]
    unfold indexed
    rw [entriesFts_trackedUpdate]

/-- **An upsert**: a row that is new or revived is indexed, one that is there stays so. -/
theorem Consistent.upsertEntry (h : Consistent cipher db) (e : NewEntry) :
    Consistent cipher (db.upsertEntry cipher e).2 := by
  have hsealed : openStored cipher (previewAad e.key.contentHash)
      (sealWithAad cipher (previewAad e.key.contentHash) e.preview) = some e.preview :=
    openStored_seal _ _ _
  unfold Database.upsertEntry
  split
  next r hr =>
    have hkey : r.key = e.key := (find_eq_some.mp hr).2
    split
    · refine h.reindexed (get_of_find hr) rfl ?_
      show (openStored cipher (previewAad r.key.contentHash)
        (sealWithAad cipher (previewAad e.key.contentHash) e.preview)).getD _ = _
      rw [hkey, hsealed]
      rfl
    · split
      · have hseen : Unseen (fun c => c.seenAt (max e.now (db.newestOther r.id + 1))) :=
          ⟨fun _ => rfl, fun _ => rfl⟩
        exact h.plainUpdate hseen r.id
      · exact h
  next hnone =>
    -- no row has the next id, so the index has nothing under it
    have hfresh : db.entries.get db.entries.nextId = none :=
      get_eq_none.mpr fun r hr => Nat.ne_of_lt (id_lt_nextId hr)
    have hempty : db.indexed db.entries.nextId = [] := by
      rw [h, searchable_of_none hfresh]
    refine h.rewritten (i := db.entries.nextId) (get_insert_self hnone)
      (fun id hne => get_insert_of_ne hnone hne) ?_ ?_
    · unfold indexed
      rw [previewsAt_append, if_pos rfl]
      show db.indexed db.entries.nextId ++ [e.preview] = _
      rw [hempty]
      show [e.preview] = [(openStored cipher (previewAad e.key.contentHash)
        (sealWithAad cipher (previewAad e.key.contentHash) e.preview)).getD _]
      rw [hsealed]
      rfl
    · intro id hne
      unfold indexed
      rw [previewsAt_append, if_neg hne, append_nil]

/-- **Content beyond the preview** goes into the row of the index that is there. -/
theorem Consistent.indexContent (h : Consistent cipher db) (i : Nat) (content : String) :
    Consistent cipher (db.indexContent i content) := by
  intro id
  have hsame : (db.indexContent i content).indexed id = db.indexed id := by
    unfold indexed previewsAt Database.indexContent
    rw [filter_map, map_map]
    have hkeeps : ∀ f : FtsRow,
        (if f.rowid = i then { f with content := some content } else f).rowid = f.rowid ∧
        (if f.rowid = i then { f with content := some content } else f).preview = f.preview := by
      intro f
      split
      · exact ⟨rfl, rfl⟩
      · exact ⟨rfl, rfl⟩
    have hfilter : db.entriesFts.filter ((fun f : FtsRow => decide (f.rowid = id)) ∘
        fun f => if f.rowid = i then { f with content := some content } else f)
        = db.entriesFts.filter (fun f => f.rowid = id) := by
      refine filter_congr fun f _ => ?_
      show decide (_ = id) = decide (_ = id)
      rw [(hkeeps f).1]
    rw [hfilter]
    exact map_congr_left fun f _ => (hkeeps f).2
  rw [hsame, h id]
  rfl

/-- **A tombstone** takes the row out of the index. -/
theorem Consistent.tombstone (h : Consistent cipher db) {now : Int}
    {refs : List String} (hrun : db.tombstone i now = .ok (refs, db')) : Consistent cipher db' := by
  unfold Database.tombstone changing at hrun
  cases hget : db.entries.get i with
  | none =>
    rw [hget] at hrun
    exact absurd hrun (by simp [Except.map])
  | some r =>
    rw [hget] at hrun
    cases hrun
    have hindexed : ∀ id, (({ db.trackedUpdate i (fun c => c.tombstoned now) with
        entriesFts := (db.trackedUpdate i (fun c => c.tombstoned now)).entriesFts.filter
          (fun f => f.rowid ≠ i) } : Database)).indexed id
        = if id = i then [] else db.indexed id := by
      intro id
      unfold indexed
      rw [entriesFts_trackedUpdate, previewsAt_delete]
    refine h.rewritten (i := i) (get_trackedUpdate hget _)
      (fun id hne => get_trackedUpdate_ne hne _) ?_ fun id hne => ?_
    · rw [hindexed, if_pos rfl]
      rfl
    · rw [hindexed, if_neg hne]

/-- **Lifting a tombstone** puts the preview back. -/
theorem Consistent.restore (h : Consistent cipher db)
    (hrun : db.restore cipher i = .ok db') : Consistent cipher db' := by
  unfold Database.restore Database.get at hrun
  cases hget : db.entries.get i with
  | none =>
    rw [hget] at hrun
    exact absurd hrun (by simp [Except.bind])
  | some r =>
    rw [hget] at hrun
    have hrun : (if r.cols.deleted then
        Except.ok ((db.trackedUpdate i Cols.restored).reindex i (rowToEntry cipher r).preview)
        else .ok db) = (.ok db' : Except Error Database) := hrun
    split at hrun
    · cases hrun
      exact h.reindexed hget rfl rfl
    · cases hrun
      exact h

theorem Consistent.evict (ids : List Nat) (h : Consistent cipher db)
    (hrun : db.evict ids = .ok db') : Consistent cipher db' :=
  evict_keeps (R := fun db db' => Consistent cipher db → Consistent cipher db')
    (fun _ h => h) (fun h h' hdb => h' (h hdb)) (fun _ _ _ _ _ hrun h => h.tombstone hrun) hrun h

theorem Consistent.evictIds (h : Consistent cipher db) {ids ids' : List Nat}
    (hrun : (db.evict ids).map (fun db => (ids, db)) = .ok (ids', db')) :
    Consistent cipher db' := by
  cases hevict : db.evict ids with
  | error e =>
    rw [hevict] at hrun
    exact absurd hrun (by simp [Except.map])
  | ok after =>
    rw [hevict] at hrun
    cases hrun
    exact Consistent.evict ids h hevict

/-- **A purge** removes tombstoned rows alone, and the index has none of those. -/
theorem Consistent.purgeRow (h : Consistent cipher db) (refs : List String) (i : Nat) :
    Consistent cipher (Database.purgeRow (refs, db) i).2 := by
  unfold Database.purgeRow
  cases hget : db.entries.get i with
  | none =>
    dsimp only
    rw [hget]
    exact h
  | some r =>
    dsimp only
    rw [hget]
    dsimp only
    split
    next hdeleted =>
      intro id
      have hrow : r.id = i := (get_eq_some.mp hget).2
      unfold indexed
      rw [previewsAt_delete]
      by_cases hid : id = i
      · rw [if_pos hid, searchable_of_none]
        show (db.entries.keepOnly _).get id = none
        rw [get_keepOnly, hid, hget]
        simp [Option.filter, hrow, hdeleted]
      · rw [if_neg hid]
        show db.indexed id = _
        rw [h id]
        unfold searchable
        have hkept : (db.entries.keepOnly (fun r => !(r.id = i && r.cols.deleted))).get id
            = db.entries.get id := by
          rw [get_keepOnly]
          cases hother : db.entries.get id with
          | none => rfl
          | some r' =>
            have hr' : r'.id = id := (get_eq_some.mp hother).2
            simp [Option.filter, hr', hid]
        rw [hkept]
    next => exact h

theorem Consistent.purge (h : Consistent cipher db) (ids : List Nat) :
    Consistent cipher (db.purge ids).2 :=
  purge_keeps (R := fun db db' => Consistent cipher db → Consistent cipher db')
    (fun _ h => h) (fun h h' hdb => h' (h hdb)) (fun acc i h => h.purgeRow acc.1 i) ids db h

/-- **A rebuild** makes the index from the live rows. -/
theorem consistent_rebuild (hrun : db.rebuildSearchIndex cipher = .ok db') :
    Consistent cipher db' := by
  unfold rebuildSearchIndex at hrun
  split at hrun
  next =>
    cases hrun
    intro id
    unfold indexed previewsAt
    rw [filter_map, map_map, filter_filter]
    -- at most one row has this id
    have hone : ∀ l : List EntryRow, (l.map Row.id).Nodup →
        l.filter (fun r => decide (r.id = id) && !r.cols.deleted)
          = ((l.find? (fun r => r.id == id)).filter (fun r => !r.cols.deleted)).toList := by
      intro l
      induction l with
      | nil => exact fun _ => rfl
      | cons r l ih =>
        intro hnodup
        obtain ⟨hnew, hrest⟩ := nodup_cons.mp hnodup
        by_cases hid : r.id = id
        · have hnone : l.filter (fun r => decide (r.id = id) && !r.cols.deleted) = [] := by
            refine filter_eq_nil_iff.mpr fun r' hr' h => ?_
            simp only [Bool.and_eq_true, decide_eq_true_eq] at h
            exact hnew (mem_map.mpr ⟨r', hr', h.1.trans hid.symm⟩)
          rw [find?_cons_of_pos (by simpa using hid)]
          cases hdeleted : r.cols.deleted with
          | true => simp [hid, hdeleted, hnone, Option.filter]
          | false => simp [hid, hdeleted, hnone, Option.filter]
        · rw [find?_cons_of_neg (by simpa using hid),
            filter_cons_of_neg (by simp [hid]), ih hrest]
    have hrows := hone db.entries.rows db.entries.idsNodup
    have hfilter : db.entries.rows.filter (fun r =>
        ((fun f : FtsRow => decide (f.rowid = id)) ∘ fun r : EntryRow =>
          (⟨r.id, (rowToEntry cipher r).preview, none⟩ : FtsRow)) r && !r.cols.deleted)
        = ((db.entries.get id).filter (fun r => !r.cols.deleted)).toList := hrows
    rw [hfilter]
    unfold searchable
    cases db.entries.get id with
    | none => rfl
    | some r =>
      cases hdeleted : r.cols.deleted with
      | true => simp [Option.filter, hdeleted]
      | false => simp [Option.filter, hdeleted]
  next => cases hrun

end Statements

/-! ## §3. What evictions and purges leave of it -/

/-- The rows of the index under this row id. -/
def ftsAt (db : Database) (id : Nat) : List FtsRow := db.entriesFts.filter (fun f => f.rowid = id)

/-- What is live in `db'` was so in `db`, and has the index rows it had. -/
def LiveKept (db db' : Database) : Prop :=
  ∀ id r, db'.entries.get id = some r → r.cols.deleted = false →
    db.entries.get id = some r ∧ db'.ftsAt id = db.ftsAt id

section Kept

variable {cipher : Key} {db db' db'' : Database} {id : Nat}

/-- An index in step has nothing under an id that is not live. -/
theorem Consistent.ftsAt_eq_nil (h : Consistent cipher db)
    (hnot : ∀ r, db.entries.get id = some r → r.cols.deleted = true) : db.ftsAt id = [] := by
  have hempty : db.searchable cipher id = [] := by
    cases hget : db.entries.get id with
    | none => exact searchable_of_none hget
    | some r =>
      rw [searchable_of_get hget, searchableRow, hnot r hget]
      rfl
  have hindexed : (db.ftsAt id).map FtsRow.preview = [] := by
    rw [← hempty, ← h id]
    rfl
  exact map_eq_nil_iff.mp hindexed

/-- Deleting index rows of another id. -/
theorem ftsAt_delete (hne : id ≠ i) (l : List FtsRow) :
    (l.filter (fun f => f.rowid ≠ i)).filter (fun f => f.rowid = id)
      = l.filter (fun f => f.rowid = id) := by
  rw [filter_filter]
  refine filter_congr fun f _ => ?_
  by_cases hf : f.rowid = id
  · simp [hf, hne]
  · simp [hf]

/-- What an upsert leaves in the index under the row's id: for one that was live what was
    there, for another its preview alone. -/
theorem ftsAt_upsertEntry (h : Consistent cipher db) (e : NewEntry) :
    (∃ r, db.entries.find e.key = some r ∧ r.cols.deleted = false ∧
      (db.upsertedRow cipher e).id = r.id ∧
      (db.upsertEntry cipher e).2.ftsAt r.id = db.ftsAt r.id) ∨
    ((∀ r, db.entries.find e.key = some r → r.cols.deleted = true) ∧
      (db.upsertEntry cipher e).2.ftsAt (db.upsertedRow cipher e).id
        = [⟨(db.upsertedRow cipher e).id, e.preview, none⟩]) := by
  unfold upsertEntry
  split
  next r hr =>
    by_cases hdeleted : r.cols.deleted = true
    · refine Or.inr ⟨fun r' hr' => ?_, ?_⟩
      · rw [hr] at hr'
        rw [← Option.some.inj hr']
        exact hdeleted
      · rw [(upsertedRow_of_find hr).1, if_pos hdeleted]
        unfold ftsAt Database.reindex
        rw [filter_append, filter_filter]
        have hnone : (db.trackedUpdate r.id (e.revived cipher)).entriesFts.filter
            (fun f => decide (f.rowid = r.id) && decide (f.rowid ≠ r.id)) = [] := by
          rw [filter_eq_nil_iff]
          intro f _
          simp
        rw [hnone]
        simp
    · refine Or.inl ⟨r, hr, by simpa using hdeleted, (upsertedRow_of_find hr).1, ?_⟩
      rw [if_neg hdeleted]
      split
      · rfl
      · rfl
  next hnone =>
    refine Or.inr ⟨fun r hr => absurd hr (by simp [hnone]), ?_⟩
    have hid : (db.upsertedRow cipher e).id = db.entries.nextId :=
      congrArg Row.id (upsertedRow_of_new hnone)
    have hfresh : db.ftsAt db.entries.nextId = [] := by
      apply h.ftsAt_eq_nil
      intro r hr
      have hlt := id_lt_nextId (get_eq_some.mp hr).1
      rw [(get_eq_some.mp hr).2] at hlt
      exact absurd hlt (Nat.lt_irrefl _)
    rw [hid]
    show (db.entriesFts ++ [_]).filter _ = _
    rw [filter_append]
    show db.ftsAt db.entries.nextId ++ _ = _
    rw [hfresh]
    simp

theorem LiveKept.refl (db : Database) : LiveKept db db := fun _ _ hget _ => ⟨hget, rfl⟩

theorem LiveKept.trans (h : LiveKept db db') (h' : LiveKept db' db'') : LiveKept db db'' := by
  intro id r hget hlive
  obtain ⟨hget', hfts'⟩ := h' id r hget hlive
  obtain ⟨hget, hfts⟩ := h id r hget' hlive
  exact ⟨hget, hfts'.trans hfts⟩

/-- A statement that writes neither the rows nor the index. -/
theorem LiveKept.of_eq (hrows : db'.entries = db.entries) (hfts : db'.entriesFts = db.entriesFts) :
    LiveKept db db' := by
  intro id r hget _
  rw [hrows] at hget
  refine ⟨hget, ?_⟩
  unfold ftsAt
  rw [hfts]

theorem liveKept_tombstone {now : Int} {refs : List String}
    (hrun : db.tombstone i now = .ok (refs, db')) : LiveKept db db' := by
  unfold Database.tombstone changing at hrun
  cases hget : db.entries.get i with
  | none =>
    rw [hget] at hrun
    exact absurd hrun (by simp [Except.map])
  | some r =>
    rw [hget] at hrun
    cases hrun
    intro id r' hget' hlive
    by_cases hid : id = i
    · -- the row itself is not live any more
      have hgone : (db.trackedUpdate i (fun c => c.tombstoned now)).entries.get i = some r' :=
        hid ▸ hget'
      rw [get_trackedUpdate hget] at hgone
      rw [← Option.some.inj hgone] at hlive
      exact absurd hlive (by simp [Cols.tombstoned, Cols.numbered])
    · have hsame : (db.trackedUpdate i (fun c => c.tombstoned now)).entries.get id = some r' :=
        hget'
      rw [get_trackedUpdate_ne hid] at hsame
      refine ⟨hsame, ?_⟩
      unfold ftsAt
      rw [entriesFts_trackedUpdate]
      exact ftsAt_delete hid db.entriesFts

theorem liveKept_purgeRow (acc : List String × Database) (i : Nat) :
    LiveKept acc.2 (Database.purgeRow acc i).2 := by
  unfold Database.purgeRow
  dsimp only
  split
  next => exact LiveKept.refl _
  next r hget =>
    split
    next hdeleted =>
      intro id r' hget' hlive
      have hbefore : (acc.2.entries.get id).filter (fun r => !(r.id = i && r.cols.deleted))
          = some r' := by
        rw [← get_keepOnly]
        exact hget'
      have hrow : acc.2.entries.get id = some r' := (Option.filter_eq_some_iff.mp hbefore).1
      have hne : id ≠ i := by
        intro hid
        rw [hid, hget] at hrow
        rw [← Option.some.inj hrow, hdeleted] at hlive
        cases hlive
      exact ⟨hrow, ftsAt_delete hne acc.2.entriesFts⟩
    next => exact LiveKept.refl _

theorem liveKept_purge (db : Database) (ids : List Nat) : LiveKept db (db.purge ids).2 :=
  purge_keeps LiveKept.refl LiveKept.trans liveKept_purgeRow ids db

end Kept

/-! ## §4. Sequences of statements -/

/-- The statements that insert, change or remove rows. -/
inductive RowWrite where
  | upsert (e : NewEntry)
  | indexContent (id : Nat) (content : String)
  | tombstone (id : Nat) (now : Int)
  | restore (id : Nat)
  | purge (ids : List Nat)
  | purgeTombstones (before : Int)
  | stripTombstones (before : Int)
  | clearAll
  | enforceLimit (maxEntries : Nat)
  | enforceAge (before : Int)
  | expireSensitive (before : Int)
  | enforceTotalBytes (maxBytes : Nat)
  | rebuild
  | wipe
  | stamp (id : Nat) (lamport : Int) (deviceId : String)
  | setPinned (id : Nat) (pinned : Bool)
  | setTimes (id : Nat) (createdAt lastSeenAt : Int)
  | applyRemoteState (id : Nat) (pinned : Bool) (createdAt lastSeenAt lamport : Int)
      (deviceId : String)
  | markSensitive (id : Nat)
  | attachBlob (id : Nat) (mime blobRef : String)

/-- What a statement leaves; one that fails changes nothing. -/
def onSuccess {α : Type} (db : Database) (after : α → Database) : Except Error α → Database
  | .ok a => after a
  | .error _ => db

/-- Run a statement. -/
def rowWrite (cipher : Key) (engine : Engine) (db : Database) : RowWrite → Database
  | .upsert e => (db.upsertEntry cipher e).2
  | .indexContent id content => db.indexContent id content
  | .tombstone id now => db.onSuccess Prod.snd (db.tombstone id now)
  | .restore id => db.onSuccess (fun after => after) (db.restore cipher id)
  | .purge ids => (db.purge ids).2
  | .purgeTombstones before => (db.purgeTombstones before).2
  | .stripTombstones before => (db.stripTombstones before).2
  | .clearAll => db.onSuccess Prod.snd db.clearAll
  | .enforceLimit maxEntries => db.onSuccess Prod.snd (db.enforceLimit engine maxEntries)
  | .enforceAge before => db.onSuccess Prod.snd (db.enforceAge before)
  | .expireSensitive before => db.onSuccess Prod.snd (db.expireSensitive before)
  | .enforceTotalBytes maxBytes => db.onSuccess Prod.snd (db.enforceTotalBytes maxBytes)
  | .rebuild => db.onSuccess (fun after => after) (db.rebuildSearchIndex cipher)
  | .wipe => db.wipe
  | .stamp id lamport deviceId => db.onSuccess (fun after => after) (db.stamp id lamport deviceId)
  | .setPinned id pinned => db.onSuccess (fun after => after) (db.setPinned id pinned)
  | .setTimes id createdAt lastSeenAt =>
    db.onSuccess (fun after => after) (db.setTimes id createdAt lastSeenAt)
  | .applyRemoteState id pinned createdAt lastSeenAt lamport deviceId =>
    db.onSuccess (fun after => after)
      (db.applyRemoteState id pinned createdAt lastSeenAt lamport deviceId)
  | .markSensitive id => db.markSensitive id
  | .attachBlob id mime blobRef => db.onSuccess (fun after => after) (db.attachBlob id mime blobRef)

section Runs

variable {cipher : Key} {db : Database}

theorem Consistent.onSuccess {α : Type} (h : Consistent cipher db) {after : α → Database}
    {result : Except Error α} (hok : ∀ a, result = .ok a → Consistent cipher (after a)) :
    Consistent cipher (db.onSuccess after result) := by
  cases result with
  | ok a => exact hok a rfl
  | error e => exact h

/-- A statement that must change a row. -/
theorem Consistent.changing (h : Consistent cipher db) {id : Nat} {after : Database}
    (hafter : Consistent cipher after) :
    Consistent cipher (db.onSuccess (fun after => after) (db.changing id after)) := by
  apply h.onSuccess
  intro result hrun
  unfold Database.changing at hrun
  split at hrun
  · cases hrun
  · cases hrun
    exact hafter

/-- **One statement** keeps the index in step with the rows. -/
theorem consistent_rowWrite (engine : Engine) (h : Consistent cipher db) (w : RowWrite) :
    Consistent cipher (db.rowWrite cipher engine w) := by
  cases w with
  | upsert e => exact h.upsertEntry e
  | indexContent id content => exact h.indexContent id content
  | tombstone id now => exact h.onSuccess fun result hrun => h.tombstone hrun
  | restore id => exact h.onSuccess fun after hrun => h.restore hrun
  | purge ids => exact h.purge ids
  | purgeTombstones before => exact h.purge _
  | stripTombstones before => exact h.of_same rfl fun _ => rfl
  | clearAll => exact h.onSuccess fun result hrun => h.evictIds hrun
  | enforceLimit maxEntries => exact h.onSuccess fun result hrun => h.evictIds hrun
  | enforceAge before => exact h.onSuccess fun result hrun => h.evictIds hrun
  | expireSensitive before => exact h.onSuccess fun result hrun => h.evictIds hrun
  | enforceTotalBytes maxBytes => exact h.onSuccess fun result hrun => h.evictIds hrun
  | rebuild => exact h.onSuccess fun after hrun => consistent_rebuild hrun
  | wipe => exact fun id => rfl
  | stamp id lamport deviceId =>
    apply h.changing
    apply h.trackedUpdate
    exact ⟨fun _ => rfl, fun _ => rfl⟩
  | setPinned id pinned =>
    apply h.changing
    apply h.trackedUpdate
    exact ⟨fun _ => rfl, fun _ => rfl⟩
  | setTimes id createdAt lastSeenAt =>
    apply h.changing
    apply h.plainUpdate
    exact ⟨fun _ => rfl, fun _ => rfl⟩
  | applyRemoteState id pinned createdAt lastSeenAt lamport deviceId =>
    apply h.changing
    apply h.trackedUpdate
    exact ⟨fun _ => rfl, fun _ => rfl⟩
  | markSensitive id =>
    show Consistent cipher (db.plainUpdate id Cols.flagged)
    apply h.plainUpdate
    exact ⟨fun _ => rfl, fun _ => rfl⟩
  | attachBlob id mime blobRef =>
    apply h.onSuccess
    intro after hrun
    unfold Database.attachBlob at hrun
    split at hrun
    · cases hrun
    · cases hrun
      exact h.of_same rfl fun _ => rfl

/-- **A sequence of statements** keeps the index in step. -/
theorem consistent_writes (engine : Engine) (writes : List RowWrite) :
    ∀ db : Database, Consistent cipher db →
      Consistent cipher (writes.foldl (fun db w => db.rowWrite cipher engine w) db) := by
  induction writes with
  | nil => exact fun db h => h
  | cons w writes ih => exact fun db h => ih _ (consistent_rowWrite engine h w)

/-- A row of the index belongs to a live row. -/
theorem Consistent.live (h : Consistent cipher db) {f : FtsRow} (hf : f ∈ db.entriesFts) :
    ∃ r ∈ db.entries.rows, r.id = f.rowid ∧ r.cols.deleted = false := by
  have hthere : f.preview ∈ db.searchable cipher f.rowid := by
    rw [← h f.rowid]
    exact mem_map_of_mem (mem_filter.mpr ⟨hf, by simp⟩)
  cases hget : db.entries.get f.rowid with
  | none =>
    rw [searchable_of_none hget] at hthere
    cases hthere
  | some r =>
    rw [searchable_of_get hget] at hthere
    unfold searchableRow at hthere
    split at hthere
    · cases hthere
    next hlive =>
      have hr := get_eq_some.mp hget
      exact ⟨r, hr.1, hr.2, by simpa using hlive⟩

/-- **The search index stays in step**: after any sequence of statements on a new history, a
    live row has exactly one row of the index, with its id and its preview, and what the
    index has belongs to a live row. -/
theorem index_consistent (cipher : Key) (engine : Engine) (writes : List RowWrite) :
    let db := writes.foldl (fun db w => db.rowWrite cipher engine w) Database.empty
    (∀ r ∈ db.entries.rows, r.cols.deleted = false →
      (db.entriesFts.filter (fun f => f.rowid = r.id)).map FtsRow.preview
        = [(rowToEntry cipher r).preview]) ∧
    (∀ f ∈ db.entriesFts, ∃ r ∈ db.entries.rows, r.id = f.rowid ∧ r.cols.deleted = false) := by
  intro db
  have h : Consistent cipher db := consistent_writes engine writes Database.empty fun _ => rfl
  constructor
  · intro r hr hlive
    have hindexed := h r.id
    rw [searchable_of_get (get_eq_some.mpr ⟨hr, rfl⟩)] at hindexed
    unfold searchableRow at hindexed
    rw [hlive] at hindexed
    exact hindexed
  · intro f hf
    exact h.live hf

end Runs

end Panora.Storage.Database
