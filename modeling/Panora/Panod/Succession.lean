/-
  Panora.Panod.Succession — which entry has the number of a row.

  SQLite gives a new row the largest number in use plus one, so the number of a row that is
  purged may be given out again.  Every part of a request that runs without an await writes at
  most one new row, before it takes anything away: a row that is there stays its entry's, and a
  number that is free passes to the entry that is written next.

  Main results:
    * `fewer_beginRecord`, `fewer_segment` — what only takes away;
    * `extended_segment` — a part of a request gives the next number to the entry it writes;
    * `Extended.same_key` — a number that a row has before and after is of one entry.
-/
import Panora.Panod.Halfway

namespace Panora.Panod

open Storage Lib Lib.Op Lib.Table Storage.Database

/-! ## §1. Rows that are new -/

/-- Every reference is of a row that is there. -/
def Owned (d : Daemon) : Prop :=
  ∀ b ∈ d.db.entryBlobs, ∃ r ∈ d.db.entries.rows, r.id = b.entryId

/-- Nothing is new: each row was there, under the same number, for the same entry, and so was
    each reference. -/
structure Fewer (d d' : Daemon) : Prop where
  rows : ∀ r' ∈ d'.db.entries.rows, ∃ r ∈ d.db.entries.rows, r'.id = r.id ∧ r'.key = r.key
  refs : ∀ b ∈ d'.db.entryBlobs, b ∈ d.db.entryBlobs
  owned : Owned d → Owned d'

/-- No row is new but the one written for this entry, if one is, which has the next number. -/
structure Extended (written : Option EntryKey) (d d' : Daemon) : Prop where
  rows : ∀ r' ∈ d'.db.entries.rows,
    (∃ r ∈ d.db.entries.rows, r'.id = r.id ∧ r'.key = r.key) ∨
      written = some r'.key ∧ r'.id = d.db.entries.nextId
  owned : Owned d → Owned d'

section Rows

variable {α β : Type} {d d' d'' : Daemon} {env : Env} {written : Option EntryKey}

/-- The rows and the references are the same. -/
theorem fewer_of_eq (hentries : d'.db.entries = d.db.entries)
    (hrefs : d'.db.entryBlobs = d.db.entryBlobs) : Fewer d d' := by
  refine ⟨?_, ?_, ?_⟩
  · rw [hentries]
    exact fun r hr => ⟨r, hr, rfl, rfl⟩
  · rw [hrefs]
    exact fun _ hb => hb
  · unfold Owned
    rw [hentries, hrefs]
    exact fun h => h

theorem Fewer.refl (d : Daemon) : Fewer d d := fewer_of_eq rfl rfl

theorem Fewer.trans (d d' d'' : Daemon) (h : Fewer d d') (h' : Fewer d' d'') : Fewer d d'' where
  rows r'' hr'' := by
    obtain ⟨r', hr', hid', hkey'⟩ := h'.rows r'' hr''
    obtain ⟨r, hr, hid, hkey⟩ := h.rows r' hr'
    exact ⟨r, hr, hid'.trans hid, hkey'.trans hkey⟩
  refs b hb := h.refs b (h'.refs b hb)
  owned hd := h'.owned (h.owned hd)

/-- What only takes away makes nothing new. -/
theorem Thinned.toFewer (h : Thinned d d') : Fewer d d' where
  rows r' hr' := by
    obtain ⟨r, hr, hid, hkey, -⟩ := h.rows r' hr'
    exact ⟨r, hr, hid, hkey⟩
  refs := h.refs
  owned := h.owned

/-- Nothing new is at most one new row. -/
theorem Fewer.extended (h : Fewer d d') : Extended written d d' :=
  ⟨fun r' hr' => .inl (h.rows r' hr'), h.owned⟩

/-- Taking away after the new row was written.  The other way round a number that was freed
    could be the new row's. -/
theorem Extended.trans_none (h : Extended written d d') (h' : Extended none d' d'') :
    Extended written d d'' where
  rows r'' hr'' := by
    rcases h'.rows r'' hr'' with ⟨r', hr', hid', hkey'⟩ | ⟨hnone, -⟩
    · rw [hid', hkey']
      exact h.rows r' hr'
    · cases hnone
  owned hd := h'.owned (h.owned hd)

/-- **A number that a row has before and after is of one entry.** -/
theorem Extended.same_key (h : Extended written d d') {id : Nat} {r r' : EntryRow}
    (hr : d.db.entries.get id = some r) (hr' : d'.db.entries.get id = some r') :
    r'.key = r.key := by
  obtain ⟨hmem, rfl⟩ := get_eq_some.mp hr
  obtain ⟨hmem', hid'⟩ := get_eq_some.mp hr'
  rcases h.rows r' hmem' with ⟨r0, hmem0, hid0, hkey0⟩ | ⟨-, hnext⟩
  · rw [hkey0, eq_of_id_eq hmem0 hmem (hid0.symm.trans hid')]
  · have hlt := id_lt_nextId hmem
    omega

/-- **A number that no row had is of the entry that was written.** -/
theorem Extended.new_key (h : Extended written d d') {id : Nat} {r' : EntryRow}
    (hr : d.db.entries.get id = none) (hr' : d'.db.entries.get id = some r') :
    written = some r'.key ∧ id = d.db.entries.nextId := by
  obtain ⟨hmem', rfl⟩ := get_eq_some.mp hr'
  rcases h.rows r' hmem' with ⟨r, hmem, hid, -⟩ | hnew
  · exact absurd hid.symm (get_eq_none.mp hr r hmem)
  · exact hnew

variable {x : Request α}

theorem Fewer.bind {f : α → Request β} (hx : Keeps Fewer x) (hf : ∀ a, Keeps Fewer (f a)) :
    Keeps Fewer (x >>= f) :=
  keeps_bind Fewer.trans hx hf

theorem fewer_of_thinned (h : Keeps Thinned x) : Keeps Fewer x := fun d => (h d).toFewer

theorem extended_of_fewer (h : Keeps Fewer x) : Keeps (Extended written) x :=
  fun d => (h d).extended

/-- What follows the new row. -/
theorem Extended.bind {f : α → Request β} (hx : Keeps (Extended written) x)
    (hf : ∀ a, Keeps (Extended none) (f a)) : Keeps (Extended written) (x >>= f) := by
  intro d
  have h := hx d
  rw [exec_bind]
  cases hex : exec x d with
  | mk result d' =>
    rw [hex] at h
    cases result with
    | error e => exact h
    | ok a => exact h.trans_none (hf a d')

/-- Before the row is written, something that leaves the rows alone. -/
theorem Extended.of_entries_eq {t : Daemon} (hentries : t.db.entries = d.db.entries)
    (hrefs : t.db.entryBlobs = d.db.entryBlobs) (h : Extended written t d'') :
    Extended written d d'' where
  rows := by
    rw [← hentries]
    exact h.rows
  owned hd := h.owned (by unfold Owned; rw [hentries, hrefs]; exact hd)

/-! ## §2. Statements -/

/-- A statement that only writes columns. -/
theorem fewer_of_mapCols {db' : Database} {g : EntryRow → Cols}
    (hentries : db'.entries = d.db.entries.mapCols g)
    (hrefs : db'.entryBlobs = d.db.entryBlobs) : Fewer d { d with db := db' } where
  rows := by
    intro r' hr'
    have hr' : r' ∈ db'.entries.rows := hr'
    rw [hentries] at hr'
    obtain ⟨r, hr, rfl⟩ := mem_mapCols.mp hr'
    exact ⟨r, hr, rfl, rfl⟩
  refs b hb := hrefs ▸ hb
  owned := by
    intro howned b hb
    have hb : b ∈ db'.entryBlobs := hb
    rw [hrefs] at hb
    obtain ⟨r, hr, hid⟩ := howned b hb
    refine ⟨setCols g r, ?_, hid⟩
    show _ ∈ db'.entries.rows
    rw [hentries]
    exact mem_mapCols.mpr ⟨r, hr, rfl⟩

/-- An update of one row writes columns of a row that is there, or nothing. -/
theorem fewer_trackedUpdate (d : Daemon) (id : Nat) (f : Cols → Cols) :
    Fewer d { d with db := d.db.trackedUpdate id f } := by
  cases hget : d.db.entries.get id with
  | none =>
    have hsame : d.db.trackedUpdate id f = d.db := by
      unfold trackedUpdate
      rw [hget]
    rw [hsame]
    exact Fewer.refl d
  | some r0 =>
    rw [trackedUpdate_eq hget]
    exact fewer_of_mapCols rfl rfl

theorem fewer_tracked {id : Nat} {f : Cols → Cols} :
    Keeps Fewer (changeDb (fun db => db.changing id (db.trackedUpdate id f))) := by
  refine keeps_changeDb Fewer.refl fun d db' hrun => ?_
  rw [changing_eq hrun]
  exact fewer_trackedUpdate d id f

theorem fewer_setTimes (id : Nat) (createdAt lastSeenAt : Int) :
    Keeps Fewer (changeDb (fun db => db.setTimes id createdAt lastSeenAt)) := by
  refine keeps_changeDb Fewer.refl fun d db' hrun => ?_
  rw [changing_eq hrun]
  exact fewer_of_mapCols rfl rfl

/-- A deletion that is taken back is of a row that is still there. -/
theorem fewer_restoreRow (id : Nat) : Keeps Fewer (restoreRow id) := by
  refine keeps_attempt_map Fewer.refl fun d db' hrestore => ?_
  obtain ⟨entry, -, hbody⟩ := Fallible.bind_ok_iff.mp hrestore
  split at hbody
  · rw [← Except.ok.inj hbody]
    have htracked := fewer_trackedUpdate d id Cols.restored
    exact ⟨htracked.rows, htracked.refs, htracked.owned⟩
  · rw [← Except.ok.inj hbody]
    exact Fewer.refl d

/-- A reference that is attached is of a row that is there. -/
theorem extended_attachBlob (id : Nat) (mime ref : String) :
    Keeps (Extended none) (changeDb (fun db => db.attachBlob id mime ref)) := by
  refine keeps_changeDb (fun d => (Fewer.refl d).extended) fun d db' hrun => ?_
  unfold attachBlob at hrun
  split at hrun
  · cases hrun
  next r hget =>
    cases hrun
    refine ⟨fun r hr => .inl ⟨r, hr, rfl, rfl⟩, ?_⟩
    intro howned b hb
    rcases List.mem_append.mp hb with hold | hnew
    · exact howned b (List.mem_filter.mp hold).1
    · rw [List.mem_singleton.mp hnew]
      exact ⟨r, (get_eq_some.mp hget).1, (get_eq_some.mp hget).2⟩

/-- A payload is attached to a row that is there; otherwise the statement fails. -/
theorem extended_storeBlob (env : Env) (id : Nat) (mime : String) (data : Bytes) :
    Keeps (Extended none) (storeBlob env id mime data) := by
  refine Extended.bind ?_ (fun ref => extended_attachBlob id mime ref)
  exact keeps_attempt_map (fun d => (Fewer.refl d).extended) fun d ⟨ref, blobs⟩ _ =>
    ⟨fun r hr => .inl ⟨r, hr, rfl, rfl⟩, fun h => h⟩

/-- So are all payloads of a capture. -/
theorem extended_storeBlobs (env : Env) (id : Nat) (payloads : List MimePayload) :
    Keeps (Extended none) (payloads.forM (fun p => storeBlob env id p.mime p.data)) := by
  apply keeps_forM (fun d => (Fewer.refl d).extended) (fun _ _ _ h h' => h.trans_none h')
  intro p
  exact extended_storeBlob env id p.mime p.data

/-- **An upsert gives a new entry the next number.** -/
theorem extended_upsertEntry (d : Daemon) (e : NewEntry) :
    Extended (some e.key) d { d with db := (d.db.upsertEntry d.dbCipher e).2 } := by
  obtain ⟨-, hwrote⟩ := wrote_upsertEntry d.db d.dbCipher e
  have hrefs := (upsertEntry_eq d.db d.dbCipher e).2
  refine ⟨?_, ?_⟩
  · intro r' hr'
    rcases hwrote.mem hr' with rfl | ⟨hr', -⟩
    · cases hfind : d.db.entries.find e.key with
      | some r => exact .inl ⟨r, (find_eq_some.mp hfind).1, upsertedRow_of_find hfind⟩
      | none =>
        rw [upsertedRow_of_new hfind]
        exact .inr ⟨rfl, rfl⟩
    · exact .inl ⟨r', hr', rfl, rfl⟩
  · intro howned b hb
    have hb : b ∈ (d.db.upsertEntry d.dbCipher e).2.entryBlobs := hb
    rw [hrefs] at hb
    obtain ⟨r, hr, hid⟩ := howned b hb
    have hfind : d.db.entries.find r.key = some r := find_eq_some.mpr ⟨hr, rfl⟩
    by_cases hkey : r.key = e.key
    · -- the row the upsert writes is this one
      rw [hkey] at hfind
      exact ⟨_, (find_eq_some.mp hwrote.row).1, (upsertedRow_of_find hfind).1.trans hid⟩
    · rw [← hwrote.others r.key hkey] at hfind
      exact ⟨r, (find_eq_some.mp hfind).1, hid⟩

/-- The upsert writes the row of its key, which is new if no row has the key. -/
theorem extended_upsertStep (e : NewEntry) :
    Keeps (Extended (some e.key)) (step (fun d : Daemon =>
      let (id, db) := d.db.upsertEntry d.dbCipher e
      (id, { d with db })) : Request Nat) :=
  keeps_step fun d => extended_upsertEntry d e

/-! ## §3. Parts of requests -/

/-- A capture writes the row of what it captured first, then what belongs to it. -/
theorem extended_storeRow (env : Env) (data : ClipboardData) :
    Keeps (Extended (some (keyOf env data))) (storeRow env data) := by
  intro d
  unfold storeRow
  rw [exec_bind_ok (exec_updateDb _ d)]
  refine Extended.of_entries_eq (t := { d with db := d.db.tickLamport.2 }) rfl rfl ?_
  apply Extended.bind (extended_upsertStep (newEntry env data d.db.tickLamport.1))
  intro id
  apply Extended.bind (extended_of_fewer fewer_tracked)
  intro _
  apply Extended.bind (extended_of_fewer (fewer_of_thinned (thinned_markSecret env data id)))
  intro _
  apply Extended.bind (extended_of_fewer (fewer_of_thinned (thinned_indexCapture env data id)))
  intro _
  exact Extended.bind (extended_storeBlobs env id data.payloads)
    (fun _ => extended_of_fewer (keeps_pure Fewer.refl id))

/-- An import writes the row of the entry it imports. -/
theorem extended_importEntry (env : Env) (record : BackupEntry) (payloads : List MimePayload) :
    Keeps (Extended (some ⟨env.hash.payloadHash payloads, record.selection⟩))
      (importEntry env record payloads) := by
  have hmark : ∀ id, Keeps Fewer (markImported env record payloads id) := by
    intro id
    unfold markImported
    split
    · exact fun d => fewer_of_mapCols rfl rfl
    · split
      · dsimp only
        split
        · exact fun d => fewer_of_eq rfl rfl
        · exact keeps_pure Fewer.refl ()
      · exact keeps_pure Fewer.refl ()
  have hpin : ∀ id, Keeps Fewer (pinImported record id) := by
    intro id
    unfold pinImported
    split
    · exact fewer_tracked
    · exact keeps_pure Fewer.refl ()
  intro d
  unfold importEntry
  rw [exec_bind_ok (exec_updateDb _ d)]
  refine Extended.of_entries_eq (t := { d with db := d.db.tickLamport.2 }) rfl rfl ?_
  apply Extended.bind (extended_upsertStep (importedEntry env record payloads d.db.tickLamport.1))
  intro id
  apply Extended.bind (extended_of_fewer fewer_tracked)
  intro _
  apply Extended.bind (extended_of_fewer (hmark id))
  intro _
  apply Extended.bind (extended_storeBlobs env id payloads)
  intro _
  exact extended_of_fewer (Fewer.bind (hpin id) fun _ => keeps_look Fewer.refl _)

theorem extended_storeThumbnail (env : Env) (id : Nat) (thumbnail : Option Bytes) :
    Keeps (Extended none) (storeThumbnail env id thumbnail) := by
  cases thumbnail with
  | none => exact extended_of_fewer (keeps_pure Fewer.refl ())
  | some png => exact extended_storeBlob env id thumbnailMime png

/-- The rest of a capture is its thumbnail and what is done without one. -/
theorem storeRest_eq (env : Env) (id : Nat) (thumbnail : Option Bytes) :
    storeRest env id thumbnail
      = storeThumbnail env id thumbnail >>= fun _ => storeRest env id none := rfl

/-- The thumbnail of a record is stored before the rest of it. -/
theorem finishNew_eq (env : Env) (record : SyncRecord) (id : Nat) (thumbnail : Option Bytes) :
    finishNew env record id thumbnail
      = storeThumbnail env id thumbnail >>= fun _ => finishNew env record id none := by
  unfold finishNew
  rw [storeRest_eq, bind_assoc]

theorem fewer_storeRest (env : Env) (id : Nat) : Keeps Fewer (storeRest env id none) :=
  Fewer.bind (keeps_pure Fewer.refl ()) fun _ =>
    Fewer.bind (fewer_of_thinned (thinned_collectGarbage env)) fun _ => keeps_look Fewer.refl _

theorem extended_storeRest (env : Env) (id : Nat) (thumbnail : Option Bytes) :
    Keeps (Extended none) (storeRest env id thumbnail) := by
  rw [storeRest_eq]
  exact Extended.bind (extended_storeThumbnail env id thumbnail)
    fun _ => extended_of_fewer (fewer_storeRest env id)

/-- **A capture gives the next number to its entry.** -/
theorem extended_store (env : Env) (data : ClipboardData) :
    Keeps (Extended (some (keyOf env data))) (store env data) :=
  Extended.bind (extended_storeRow env data) fun id => extended_storeRest env id _

theorem fewer_finishNew (env : Env) (record : SyncRecord) (id : Nat) :
    Keeps Fewer (finishNew env record id none) :=
  Fewer.bind (fewer_storeRest env id) fun entry =>
    Fewer.bind (fewer_setTimes entry.id _ _) fun _ =>
      Fewer.bind fewer_tracked fun _ => keeps_pure Fewer.refl _

/-- A deletion that another device sends marks a row, or is ignored. -/
theorem fewer_applyDeletion (env : Env) (record : SyncRecord) (here : Option Entry) :
    Keeps Fewer (applyDeletion env record here) := by
  cases here with
  | none => exact keeps_pure Fewer.refl _
  | some entry =>
    refine Fewer.bind ?_ fun _ => Fewer.bind fewer_tracked fun _ => keeps_pure Fewer.refl _
    unfold deleteLive
    split
    · exact keeps_pure Fewer.refl _
    · refine Fewer.bind (fewer_of_thinned (thinned_tombstone entry.id env.now)) fun _ => ?_
      exact Fewer.bind (fewer_of_thinned (thinned_collectGarbage env)) fun _ =>
        keeps_pure Fewer.refl _

/-- **A record that is not stored anew makes no new row.** -/
theorem fewer_beginRecord {sent : SyncRecord} (h : ¬ Anew env sent d) :
    Fewer d (exec (beginRecord env sent) d).2 := by
  by_cases hbad : malformed env sent
  · have hbad : badStamp (clampTimes env sent) ∨ badContent env (clampTimes env sent) := hbad
    unfold beginRecord
    simp only [if_pos hbad]
    exact Fewer.refl d
  have hobserved : Fewer d (observed (clampTimes env sent) d) :=
    fewer_of_eq (entries_observed _ d) (entryBlobs_observed _ d)
  rw [exec_beginRecord hbad]
  refine Fewer.trans _ _ _ hobserved ?_
  split
  · exact Fewer.refl _
  next hloses =>
    unfold beginWinning
    split
    · exact Fewer.bind (fewer_applyDeletion env _ _) (fun _ => keeps_pure Fewer.refl _) _
    next hlive =>
      split
      · exact Fewer.bind fewer_tracked (fun _ => keeps_pure Fewer.refl _) _
      next hhere =>
        -- it is not taken in, or it would be stored anew
        unfold beginNew
        rw [if_neg (fun hadm => h ⟨hbad, by simp [storedAnew, hloses, hlive, hhere, hadm]⟩)]
        exact Fewer.refl _

/-- A record that is stored anew makes a row, and then only takes away. -/
theorem fewer_beginNew {record : SyncRecord} (hadm : admitted env record = true) (d : Daemon) :
    Fewer (exec (storeRow env (captureOf record)) d).2 (exec (beginNew env record) d).2 := by
  obtain ⟨d1, hrow, -, -⟩ := exec_storeRow env (captureOf record) d
  unfold beginNew
  rw [if_pos hadm, exec_bind_ok hrow, hrow]
  split
  · exact Fewer.refl d1
  · exact Fewer.bind (fewer_finishNew env record _) (fun _ => keeps_pure Fewer.refl _) d1

/-- A record writes the row of its own entry, or none. -/
theorem extended_beginRecord (env : Env) (sent : SyncRecord) :
    Keeps (Extended (some sent.key)) (beginRecord env sent) := by
  intro d
  by_cases h : Anew env sent d
  · obtain ⟨hlive, hadm, -⟩ := storedAnew_iff.mp h.2
    rw [exec_beginRecord_anew h, ← keyOf_captureOf h.1 hlive]
    refine Extended.of_entries_eq (entries_observed (clampTimes env sent) d)
      (entryBlobs_observed _ d) ?_
    exact (extended_storeRow env _ _).trans_none (fewer_beginNew hadm _).extended
  · exact (fewer_beginRecord h).extended

/-! ## §4. Segments -/

/-- Whether a part of a request attaches references. -/
def Segment.attaches : Segment → Bool
  | .capture .. | .captured .. | .preview .. | .imported .. | .receive .. | .received .. => true
  | .pin .. | .delete .. | .restore .. | .clear .. | .retention .. | .purge .. | .maintain .. =>
    false

/-- **A part that attaches nothing only takes away.** -/
theorem fewer_segment (s : Segment) (h : s.attaches = false) : Keeps Fewer s.request := by
  have hpure : ∀ {γ : Type} (a : γ), Keeps Fewer (pure a : Request γ) :=
    fun a => keeps_pure Fewer.refl a
  cases s with
  | pin env id pinned => exact fewer_of_thinned (thinned_setPinned env id pinned)
  | delete env id => exact fewer_of_thinned (thinned_delete env id)
  | restore env id =>
    refine Fewer.bind ?_ (fun _ => hpure ())
    refine Fewer.bind (keeps_look Fewer.refl _) (fun time => ?_)
    split
    · exact fun d => Fewer.refl d
    · refine Fewer.bind (fewer_restoreRow id) (fun _ => ?_)
      exact Fewer.bind (fewer_of_thinned (thinned_stampLocal env id))
        (fun _ => keeps_look Fewer.refl _)
  | clear env =>
    refine Fewer.bind ?_ (fun _ => hpure ())
    exact fewer_of_thinned (keeps_of_maintains Thinned.refl fun d => (retains_thinned env d).clear)
  | retention env =>
    exact Fewer.bind (fewer_of_thinned (thinned_collectGarbage env)) (fun _ => hpure ())
  | purge before => exact fewer_of_thinned (thinned_purgeTombstonedBefore before)
  | maintain env =>
    refine Fewer.bind ?_ (fun _ => hpure ())
    refine Fewer.bind (fewer_of_thinned (thinned_collectGarbage env)) (fun _ => ?_)
    refine Fewer.bind (keeps_reads Fewer.refl _) (fun hashes => ?_)
    -- the scan removes files and leaves the database alone
    exact Fewer.bind (fun d => fewer_of_eq rfl rfl) (fun _ => hpure _)
  | capture | captured | preview | imported | receive | received =>
    exact absurd h (by simp [Segment.attaches])

/-- The entry a part of a request writes a row for. -/
def Segment.writes : Segment → Option EntryKey
  | .capture env data => some (keyOf env data)
  | .imported env record payloads => some ⟨env.hash.payloadHash payloads, record.selection⟩
  | .receive _ sent => some sent.key
  | _ => none

/-- **A part of a request gives a number that is free to the entry it writes, and to no
    other.** -/
theorem extended_segment (s : Segment) : Keeps (Extended s.writes) s.request := by
  have hpure : Keeps (Extended none) (pure () : Request Unit) :=
    extended_of_fewer (keeps_pure Fewer.refl ())
  cases s with
  | capture env data => exact Extended.bind (extended_storeRow env data) fun _ => hpure
  | imported env record payloads =>
    exact Extended.bind (extended_importEntry env record payloads) fun _ => hpure
  | receive env sent => exact Extended.bind (extended_beginRecord env sent) fun _ => hpure
  | captured env id thumbnail =>
    exact Extended.bind (extended_storeRest env id thumbnail) fun _ => hpure
  | received env record id thumbnail =>
    refine Extended.bind ?_ fun _ => hpure
    rw [finishNew_eq]
    exact Extended.bind (extended_storeThumbnail env id thumbnail)
      fun _ => extended_of_fewer (fewer_finishNew env record id)
  | preview env id png => exact extended_storeBlob env id thumbnailMime png
  | pin | delete | restore | clear | retention | purge | maintain =>
    exact extended_of_fewer (fewer_segment _ rfl)

end Rows

end Panora.Panod
