/-
  Panora.Storage.Numbering — the change counter.

  A trigger gives every inserted row, and every row whose state changes, the next
  number.  So no number is given twice, and a row whose number is not new is as it
  was, as far as another device can tell.  `Grown` says both of a statement; it is
  reflexive and transitive, so it holds of whatever is made of statements.

  Main results: `Grown` for every statement of `Database` and `Retention`
  (`grown_…`).
-/
import Panora.Storage.Rekey
import Panora.Storage.Retention

namespace Panora.Storage

open Lib Lib.Table List

namespace Database

/-! ## §1. Numbers, and rows that keep them -/

/-- No two rows have one change number, none is 0 and none is beyond the counter. -/
structure Numbered (db : Database) : Prop where
  nodup : (db.entries.rows.map (fun r => r.cols.changeSeq)).Nodup
  pos : ∀ r ∈ db.entries.rows, 0 < r.cols.changeSeq
  le : ∀ r ∈ db.entries.rows, r.cols.changeSeq ≤ db.changeSeq

/-- Another device sees no difference between these columns: only times, the preview
    and what the entry is called may have changed, and it may have become a secret. -/
structure SameState (c c' : Cols) : Prop where
  changeSeq : c'.changeSeq = c.changeSeq
  lamport : c'.lamport = c.lamport
  deviceId : c'.deviceId = c.deviceId
  pinned : c'.pinned = c.pinned
  deleted : c'.deleted = c.deleted
  deletedAt : c'.deletedAt = c.deletedAt
  kind : c'.kind = c.kind
  sensitive : c.sensitive = true → c'.sensitive = true

variable {c c' c'' : Cols}

theorem SameState.refl (c : Cols) : SameState c c :=
  ⟨rfl, rfl, rfl, rfl, rfl, rfl, rfl, id⟩

theorem SameState.trans (h : SameState c c') (h' : SameState c' c'') : SameState c c'' where
  changeSeq := h'.changeSeq.trans h.changeSeq
  lamport := h'.lamport.trans h.lamport
  deviceId := h'.deviceId.trans h.deviceId
  pinned := h'.pinned.trans h.pinned
  deleted := h'.deleted.trans h.deleted
  deletedAt := h'.deletedAt.trans h.deletedAt
  kind := h'.kind.trans h.kind
  sensitive hs := h'.sensitive (h.sensitive hs)

/-- The row `r'` is the row `r`, and another device sees no difference. -/
structure SameRow (r r' : EntryRow) : Prop where
  id : r'.id = r.id
  key : r'.key = r.key
  cols : SameState r.cols r'.cols

variable {db db' db'' : Database} {r r' : EntryRow}

theorem SameRow.refl (r : EntryRow) : SameRow r r := ⟨rfl, rfl, SameState.refl _⟩

theorem SameRow.trans {r'' : EntryRow} (h : SameRow r r') (h' : SameRow r' r'') : SameRow r r'' :=
  ⟨h'.id.trans h.id, h'.key.trans h.key, h.cols.trans h'.cols⟩

/-- What writing does to the rows: the counter only grows, the numbers stay in
    order, and a row whose number is not new was there. -/
structure Grown (db db' : Database) : Prop where
  counter : db.changeSeq ≤ db'.changeSeq
  numbered : db.Numbered → db'.Numbered
  kept : ∀ r' ∈ db'.entries.rows, r'.cols.changeSeq ≤ db.changeSeq →
    ∃ r ∈ db.entries.rows, SameRow r r'

theorem Grown.trans (h : Grown db db') (h' : Grown db' db'') : Grown db db'' where
  counter := le_trans h.counter h'.counter
  numbered hnum := h'.numbered (h.numbered hnum)
  kept r'' hr'' hle := by
    obtain ⟨r', hr', hsame'⟩ := h'.kept r'' hr'' (le_trans hle h.counter)
    obtain ⟨r, hr, hsame⟩ := h.kept r' hr' (by rw [← hsame'.cols.changeSeq]; exact hle)
    exact ⟨r, hr, hsame.trans hsame'⟩

/-- A statement that leaves the rows and the counter alone. -/
theorem grown_of_eq (hentries : db'.entries = db.entries) (hseq : db'.changeSeq = db.changeSeq) :
    Grown db db' where
  counter := le_of_eq hseq.symm
  numbered hnum := by
    obtain ⟨hnodup, hpos, hle⟩ := hnum
    rw [← hentries] at hnodup hpos hle
    exact ⟨hnodup, hpos, by rw [hseq]; exact hle⟩
  kept r' hr' _ := ⟨r', by rw [← hentries]; exact hr', SameRow.refl r'⟩

theorem Grown.refl (db : Database) : Grown db db := grown_of_eq rfl rfl

/-! ## §2. The ways a statement changes rows -/

/-- A deletion of rows. -/
theorem grown_keepOnly {keep : EntryRow → Bool} (hentries : db'.entries = db.entries.keepOnly keep)
    (hseq : db'.changeSeq = db.changeSeq) : Grown db db' where
  counter := le_of_eq hseq.symm
  numbered hnum := by
    have hsub : db'.entries.rows.Sublist db.entries.rows := by
      rw [hentries]
      exact filter_sublist
    exact ⟨hnum.nodup.sublist (hsub.map _), fun r hr => hnum.pos r (hsub.subset hr),
      fun r hr => by rw [hseq]; exact hnum.le r (hsub.subset hr)⟩
  kept r' hr' _ := by
    rw [hentries] at hr'
    exact ⟨r', (mem_keepOnly.mp hr').1, SameRow.refl r'⟩

/-- An update of columns the counter does not follow. -/
theorem grown_mapCols {f : EntryRow → Cols} (hentries : db'.entries = db.entries.mapCols f)
    (hseq : db'.changeSeq = db.changeSeq) (hf : ∀ r ∈ db.entries.rows, SameState r.cols (f r)) :
    Grown db db' where
  counter := le_of_eq hseq.symm
  numbered hnum := by
    have hnums : db'.entries.rows.map (fun r => r.cols.changeSeq)
        = db.entries.rows.map (fun r => r.cols.changeSeq) := by
      rw [hentries]
      show (db.entries.rows.map (setCols f)).map _ = _
      rw [map_map]
      exact map_congr_left (fun r hr => (hf r hr).changeSeq)
    -- every number is the number of a row before
    have hold : ∀ r' ∈ db'.entries.rows, ∃ r ∈ db.entries.rows,
        r'.cols.changeSeq = r.cols.changeSeq := by
      intro r' hr'
      rw [hentries] at hr'
      obtain ⟨r, hr, rfl⟩ := mem_mapCols.mp hr'
      exact ⟨r, hr, (hf r hr).changeSeq⟩
    refine ⟨hnums ▸ hnum.nodup, fun r' hr' => ?_, fun r' hr' => ?_⟩
    · obtain ⟨r, hr, heq⟩ := hold r' hr'
      rw [heq]
      exact hnum.pos r hr
    · obtain ⟨r, hr, heq⟩ := hold r' hr'
      rw [heq, hseq]
      exact hnum.le r hr
  kept r' hr' _ := by
    rw [hentries] at hr'
    obtain ⟨r, hr, rfl⟩ := mem_mapCols.mp hr'
    exact ⟨r, hr, rfl, rfl, hf r hr⟩

theorem grown_plainUpdate (db : Database) (id : Nat) {f : Cols → Cols}
    (hf : ∀ c, SameState c (f c)) : Grown db (db.plainUpdate id f) := by
  refine grown_mapCols rfl rfl (fun r _ => ?_)
  show SameState r.cols (if r.id = id then f r.cols else r.cols)
  by_cases h : r.id = id
  · rw [if_pos h]
    exact hf r.cols
  · rw [if_neg h]
    exact SameState.refl _

/-- The rows after an update that takes the next number: one row has that number, the
    others are as they were. -/
theorem mem_trackedUpdate {id : Nat} {r0 : EntryRow} (hget : db.entries.get id = some r0)
    (f : Cols → Cols) (hr' : r' ∈ (db.trackedUpdate id f).entries.rows) :
    (r'.id = id ∧ r'.cols.changeSeq = db.changeSeq + 1) ∨
      (r'.id ≠ id ∧ r' ∈ db.entries.rows) := by
  rw [trackedUpdate_eq hget] at hr'
  obtain ⟨r, hr, rfl⟩ := mem_mapCols.mp hr'
  by_cases h : r.id = id
  · refine Or.inl ⟨h, ?_⟩
    show (if r.id = id then _ else r.cols).changeSeq = _
    rw [if_pos h]
    rfl
  · refine Or.inr ⟨h, ?_⟩
    have hsame : setCols (fun r => if r.id = id then (f r.cols).numbered (db.changeSeq + 1)
        else r.cols) r = r := by
      rw [setCols, if_neg h]
    rw [hsame]
    exact hr

/-- An update that takes the next number. -/
theorem grown_trackedUpdate (db : Database) (id : Nat) (f : Cols → Cols) :
    Grown db (db.trackedUpdate id f) := by
  cases hget : db.entries.get id with
  | none =>
    -- no such row: nothing is numbered
    have hsame : db.trackedUpdate id f = db := by
      unfold trackedUpdate
      rw [hget]
    rw [hsame]
    exact Grown.refl db
  | some r0 =>
    have hseq : (db.trackedUpdate id f).changeSeq = db.changeSeq + 1 := by
      rw [trackedUpdate_eq hget]
    refine ⟨by rw [hseq]; omega, fun hnum => ⟨?_, fun r' hr' => ?_, fun r' hr' => ?_⟩,
      fun r' hr' hle => ?_⟩
    · -- the new number is beyond all the others, and one row has it
      have hrows : ∀ a ∈ (db.trackedUpdate id f).entries.rows,
          ∀ b ∈ (db.trackedUpdate id f).entries.rows, a.id ≠ b.id →
            a.cols.changeSeq ≠ b.cols.changeSeq := by
        intro a ha b hb hne heq
        rcases mem_trackedUpdate hget f ha with ⟨haid, han⟩ | ⟨-, ha⟩
        · rcases mem_trackedUpdate hget f hb with ⟨hbid, -⟩ | ⟨-, hb⟩
          · exact hne (haid.trans hbid.symm)
          · have := hnum.le b hb
            omega
        · rcases mem_trackedUpdate hget f hb with ⟨-, hbn⟩ | ⟨-, hb⟩
          · have := hnum.le a ha
            omega
          · have hab := inj_on_of_nodup_map hnum.nodup ha hb heq
            exact hne (by rw [hab])
      refine pairwise_map.mpr (Pairwise.imp_of_mem ?_
        (pairwise_map.mp (db.trackedUpdate id f).entries.idsNodup))
      exact fun ha hb hne => hrows _ ha _ hb hne
    · rcases mem_trackedUpdate hget f hr' with ⟨-, hn⟩ | ⟨-, hr⟩
      · omega
      · exact hnum.pos r' hr
    · rw [hseq]
      rcases mem_trackedUpdate hget f hr' with ⟨-, hn⟩ | ⟨-, hr⟩
      · omega
      · exact le_trans (hnum.le r' hr) (Nat.le_succ _)
    · rcases mem_trackedUpdate hget f hr' with ⟨-, hn⟩ | ⟨-, hr⟩
      · omega
      · exact ⟨r', hr, SameRow.refl r'⟩

/-- A new row. -/
theorem grown_insert {k : EntryKey} (h : db.entries.find k = none) (hc : c.changeSeq = db.changeSeq + 1)
    (hentries : db'.entries = db.entries.insert k c h) (hseq : db'.changeSeq = db.changeSeq + 1) :
    Grown db db' where
  counter := by omega
  numbered hnum := by
    refine ⟨?_, fun r hr => ?_, fun r hr => ?_⟩
    · rw [hentries]
      show ((db.entries.rows ++ [_]).map _).Nodup
      rw [map_append, nodup_append]
      refine ⟨hnum.nodup, by simp, fun a ha b hb => ?_⟩
      obtain ⟨r, hr, rfl⟩ := mem_map.mp ha
      have hb : b = c.changeSeq := by simpa using hb
      have := hnum.le r hr
      omega
    · rw [hentries] at hr
      rcases mem_insert.mp hr with hr | rfl
      · exact hnum.pos r hr
      · show 0 < c.changeSeq
        omega
    · rw [hentries] at hr
      rcases mem_insert.mp hr with hr | rfl
      · have := hnum.le r hr
        omega
      · show c.changeSeq ≤ _
        omega
  kept r' hr' hle := by
    rw [hentries] at hr'
    rcases mem_insert.mp hr' with hr | rfl
    · exact ⟨r', hr, SameRow.refl r'⟩
    · have hle : c.changeSeq ≤ db.changeSeq := hle
      omega

/-! ## §3. Every statement -/

theorem sameState_timed (c : Cols) (createdAt lastSeenAt : Int) :
    SameState c (c.timed createdAt lastSeenAt) := ⟨rfl, rfl, rfl, rfl, rfl, rfl, rfl, id⟩

theorem sameState_seenAt (c : Cols) (lastSeenAt : Int) : SameState c (c.seenAt lastSeenAt) :=
  ⟨rfl, rfl, rfl, rfl, rfl, rfl, rfl, id⟩

theorem sameState_flagged (c : Cols) : SameState c c.flagged :=
  ⟨rfl, rfl, rfl, rfl, rfl, rfl, rfl, fun _ => rfl⟩

variable {id : Nat}

/-- A statement that must change a row does, or fails. -/
theorem changing_eq {after : Database} (h : db.changing id after = .ok db') : db' = after := by
  unfold changing at h
  split at h
  · cases h
  · exact (Except.ok.inj h).symm

theorem grown_markSensitive (db : Database) (id : Nat) : Grown db (db.markSensitive id) :=
  grown_plainUpdate db id sameState_flagged

theorem entryBlobs_trackedUpdate (db : Database) (id : Nat) (f : Cols → Cols) :
    (db.trackedUpdate id f).entryBlobs = db.entryBlobs := by
  unfold trackedUpdate
  split <;> rfl

theorem lamportClock_trackedUpdate (db : Database) (id : Nat) (f : Cols → Cols) :
    (db.trackedUpdate id f).lamportClock = db.lamportClock := by
  unfold trackedUpdate
  split <;> rfl

/-- A tombstone, and what it does not touch. -/
theorem tombstone_eq {now : Int} {refs : List String} (h : db.tombstone id now = .ok (refs, db')) :
    Grown db db' ∧ db'.entryBlobs = db.entryBlobs := by
  unfold tombstone at h
  cases hchanging : db.changing id (db.trackedUpdate id (fun c => c.tombstoned now)) with
  | error e =>
    rw [hchanging] at h
    exact absurd h (by simp [Except.map])
  | ok after =>
    rw [hchanging] at h
    cases h
    have hafter := changing_eq hchanging
    subst hafter
    exact ⟨(grown_trackedUpdate db id _).trans (grown_of_eq rfl rfl),
      entryBlobs_trackedUpdate db id _⟩

theorem restore_eq {cipher : Key} (h : db.restore cipher id = .ok db') :
    Grown db db' ∧ db'.entryBlobs = db.entryBlobs := by
  unfold restore at h
  cases hget : db.get cipher id with
  | error e =>
    rw [hget] at h
    exact absurd h (by simp [Except.bind])
  | ok entry =>
    rw [hget] at h
    have h : (if entry.deleted then .ok ((db.trackedUpdate id Cols.restored).reindex id entry.preview)
      else .ok db) = (.ok db' : Except Error Database) := h
    by_cases hdel : entry.deleted = true
    · rw [if_pos hdel] at h
      cases h
      exact ⟨(grown_trackedUpdate db id Cols.restored).trans (grown_of_eq rfl rfl),
        entryBlobs_trackedUpdate db id Cols.restored⟩
    · rw [if_neg hdel] at h
      cases h
      exact ⟨Grown.refl db, rfl⟩

theorem upsertEntry_eq (db : Database) (cipher : Key) (e : NewEntry) :
    Grown db (db.upsertEntry cipher e).2 ∧
      (db.upsertEntry cipher e).2.entryBlobs = db.entryBlobs := by
  unfold upsertEntry
  split
  next r hr =>
    by_cases hdel : r.cols.deleted = true
    · -- revived
      rw [if_pos hdel]
      exact ⟨(grown_trackedUpdate db r.id (e.revived cipher)).trans (grown_of_eq rfl rfl),
        entryBlobs_trackedUpdate db r.id (e.revived cipher)⟩
    · rw [if_neg hdel]
      by_cases hbump : e.bumpOnDuplicate = true
      · rw [if_pos hbump]
        exact ⟨grown_plainUpdate db r.id (fun c => sameState_seenAt c _), rfl⟩
      · rw [if_neg hbump]
        exact ⟨Grown.refl db, rfl⟩
  next hnone => exact ⟨grown_insert hnone rfl rfl rfl, rfl⟩

theorem grown_wipe (db : Database) : Grown db db.wipe := by
  have hentries : db.wipe.entries = db.entries.keepOnly (fun _ => false) := by
    apply ext
    show [] = db.entries.rows.filter (fun _ => false)
    rw [filter_false]
  exact grown_keepOnly hentries rfl

/-! ### Where numbers start -/

/-- A new database. -/
theorem numbered_empty : Numbered Database.empty :=
  ⟨nodup_nil, fun _ hr => absurd hr (by simp [Database.empty, Table.empty]),
    fun _ hr => absurd hr (by simp [Database.empty, Table.empty])⟩

/-- Version 5 of the schema: number the existing rows in id order. -/
def migrateChangeSeq (db : Database) : Database :=
  { db with
    entries := db.entries.mapCols (fun r => r.cols.numbered r.id)
    changeSeq := db.entries.maxId }

/-- A migrated database; row ids start at 1. -/
theorem numbered_migrateChangeSeq (hids : ∀ r ∈ db.entries.rows, 0 < r.id) :
    Numbered db.migrateChangeSeq := by
  have hnumbers : (db.migrateChangeSeq.entries.rows.map (fun r => r.cols.changeSeq))
      = db.entries.rows.map Row.id := by
    show (db.entries.rows.map _).map _ = _
    rw [map_map]
    rfl
  have hrow : ∀ r ∈ db.migrateChangeSeq.entries.rows,
      ∃ r0 ∈ db.entries.rows, r.cols.changeSeq = r0.id := by
    intro r hr
    obtain ⟨r0, hr0, rfl⟩ := mem_mapCols.mp hr
    exact ⟨r0, hr0, rfl⟩
  refine ⟨?_, fun r hr => ?_, fun r hr => ?_⟩
  · rw [hnumbers]
    exact db.entries.idsNodup
  · obtain ⟨r0, hr0, heq⟩ := hrow r hr
    rw [heq]
    exact hids r0 hr0
  · obtain ⟨r0, hr0, heq⟩ := hrow r hr
    rw [heq]
    have := id_lt_nextId hr0
    unfold nextId at this
    show r0.id ≤ db.entries.maxId
    omega

/-! ## §4. Purges and the payloads of the rows they leave -/

/-- The blob references of an entry, as they stand in the table. -/
def refsOf (db : Database) (id : Nat) : List BlobRow := db.entryBlobs.filter (fun b => b.entryId = id)

/-- What a clean-up leaves: the counter, every row that is not deleted, and its blob
    references; nothing is added. -/
structure CleanedUp (db db' : Database) : Prop where
  changeSeq : db'.changeSeq = db.changeSeq
  refs : ∀ b ∈ db'.entryBlobs, b ∈ db.entryBlobs
  live : ∀ r ∈ db.entries.rows, r.cols.deleted = false →
    r ∈ db'.entries.rows ∧ db'.refsOf r.id = db.refsOf r.id

theorem CleanedUp.refl (db : Database) : CleanedUp db db :=
  ⟨rfl, fun _ h => h, fun _ hr _ => ⟨hr, rfl⟩⟩

theorem CleanedUp.trans (h : CleanedUp db db') (h' : CleanedUp db' db'') : CleanedUp db db'' where
  changeSeq := h'.changeSeq.trans h.changeSeq
  refs b hb := h.refs b (h'.refs b hb)
  live r hr hdel := by
    obtain ⟨hr1, hrefs1⟩ := h.live r hr hdel
    obtain ⟨hr2, hrefs2⟩ := h'.live r hr1 hdel
    exact ⟨hr2, hrefs2.trans hrefs1⟩

/-- References of other entries are not touched by a filter on the entry. -/
theorem refsOf_filter (keep : BlobRow → Bool)
    (h : ∀ b ∈ db.entryBlobs, b.entryId = id → keep b = true)
    (hblobs : db'.entryBlobs = db.entryBlobs.filter keep) : db'.refsOf id = db.refsOf id := by
  unfold refsOf
  rw [hblobs, filter_filter]
  refine filter_congr (fun b hb => ?_)
  by_cases hid : b.entryId = id
  · simp [hid, h b hb hid]
  · simp [hid]

theorem cleanedUp_purgeRow (acc : List String × Database) (id : Nat) :
    CleanedUp acc.2 (purgeRow acc id).2 := by
  cases hget : acc.2.entries.get id with
  | none =>
    simp only [purgeRow, hget]
    exact CleanedUp.refl acc.2
  | some r =>
    by_cases hdel : r.cols.deleted = true
    · simp only [purgeRow, hget, if_pos hdel]
      refine ⟨rfl, fun b hb => (mem_filter.mp hb).1, fun r' hr' hlive => ?_⟩
      -- a live row is not the one that is purged
      have hne : r'.id ≠ id := by
        intro heq
        obtain ⟨hmem, hid⟩ := get_eq_some.mp hget
        rw [eq_of_id_eq hr' hmem (heq.trans hid.symm), hdel] at hlive
        cases hlive
      refine ⟨mem_keepOnly.mpr ⟨hr', by simp [hne]⟩,
        refsOf_filter _ (fun b _ hb => ?_) rfl⟩
      simp [hb, hne]
    · simp only [purgeRow, hget, if_neg hdel]
      exact CleanedUp.refl acc.2

theorem cleanedUp_purge (ids : List Nat) (db : Database) : CleanedUp db (db.purge ids).2 :=
  purge_keeps CleanedUp.refl CleanedUp.trans cleanedUp_purgeRow ids db

theorem cleanedUp_stripTombstones (db : Database) (before : Int) :
    CleanedUp db (db.stripTombstones before).2 := by
  refine ⟨rfl, fun b hb => (mem_filter.mp hb).1, fun r hr hlive => ⟨hr, ?_⟩⟩
  refine refsOf_filter (fun b => decide (b.entryId ∉
    (db.entries.rows.filter (strippable before)).map Row.id)) (fun b _ hb => ?_) rfl
  -- only tombstones are stripped
  rw [decide_eq_true_iff, hb]
  intro hmem
  obtain ⟨r', hr', hid⟩ := mem_map.mp hmem
  obtain ⟨hrow, hstrip⟩ := mem_filter.mp hr'
  rw [eq_of_id_eq hrow hr hid] at hstrip
  simp [strippable, hlive] at hstrip

/-- The references a clean-up hands back are referred to by nothing. -/
theorem orphaned_purge (ids : List Nat) (db : Database) :
    ∀ ref ∈ (db.purge ids).1, (db.purge ids).2.orphaned ref = true :=
  fun _ h => (mem_filter.mp h).2

theorem orphaned_stripTombstones (db : Database) (before : Int) :
    ∀ ref ∈ (db.stripTombstones before).1, (db.stripTombstones before).2.orphaned ref = true :=
  fun _ h => (mem_filter.mp h).2

end Database

end Panora.Storage
