/-
  Panora.Panod.Damage — entries whose payloads cannot be read.

  `Daemon::export`, and a device that pages through `Daemon::sync_changes` on a
  history with damaged blobs.  Both load payloads with `?`, so one entry that
  cannot be read fails the whole archive, and the page that comes to it.

  Main results:
    * `readPages_lt` — no number of pages takes a reader past a damaged entry;
    * `others_get_through_iff` — when the other entries are delivered and exported.
-/
import Panora.Panod.Reader

namespace Panora.Panod

open Storage Storage.Database Lib Lib.Fallible List

/-! ## §1. Damaged entries -/

/-- A live entry with a payload that is missing or does not decrypt. -/
def Damaged (d : Daemon) (r : EntryRow) : Prop :=
  r.cols.deleted = false ∧ ∃ e, loadPayloads d r.id = .error e

instance (d : Daemon) (r : EntryRow) : Decidable (Damaged d r) :=
  decidable_of_iff (r.cols.deleted = false ∧ (loadPayloads d r.id).isOk = false) <| by
    refine and_congr_right (fun _ => ?_)
    cases loadPayloads d r.id with
    | ok payloads => simp [Except.isOk, Except.toBool]
    | error e => simp [Except.isOk, Except.toBool]

/-! ## §2. Exporting -/

/-- One entry's metadata inside an archive. -/
structure BackupEntry where
  contentHash : String
  preview : String
  kind : ContentKind
  primaryMime : String
  sizeBytes : Int
  sourceApp : Option String
  selection : Selection
  createdAt : Int
  lastSeenAt : Int
  pinned : Bool
  sensitive : Bool
  /-- The format and the blob hash of each payload. -/
  payloads : List (String × String)
  deriving DecidableEq

/-- What an archive seals: `entries.json` and the files under `blobs/`. -/
structure Archive where
  manifest : List BackupEntry
  blobs : List (String × Bytes)
  deriving DecidableEq

/-- What an entry is exported as. -/
def backupEntry (env : Env) (entry : Entry) (payloads : List MimePayload) : BackupEntry where
  contentHash := entry.contentHash
  preview := entry.preview
  kind := entry.kind
  primaryMime := entry.primaryMime
  sizeBytes := entry.sizeBytes
  sourceApp := entry.sourceApp
  selection := entry.selection
  createdAt := entry.createdAt
  lastSeenAt := entry.lastSeenAt
  pinned := entry.pinned
  sensitive := entry.sensitive
  payloads := payloads.map (fun p => (p.mime, env.hash.contentHash p.data))

/-- Add a payload under its hash; one that is there already is not written again. -/
def addBlob (blobs : List (String × Bytes)) (blob : String × Bytes) : List (String × Bytes) :=
  if blob.1 ∈ blobs.map Prod.fst then blobs else blobs ++ [blob]

/-- Pack entries and their payloads. -/
def buildArchive (records : List (BackupEntry × List MimePayload)) : Archive where
  manifest := records.map Prod.fst
  blobs := (records.flatMap (fun (entry, payloads) =>
    (entry.payloads.zip payloads).map (fun ((_, hash), p) => (hash, p.data)))).foldl addBlob []

/-- Pinned first, then the newest first. -/
def listedBefore (a b : EntryRow) : Prop :=
  (b.cols.pinned = true ∧ a.cols.pinned = true ∨ b.cols.pinned = false ∧ a.cols.pinned = false) ∧
      (b.cols.lastSeenAt < a.cols.lastSeenAt ∨
        b.cols.lastSeenAt = a.cols.lastSeenAt ∧ b.id ≤ a.id) ∨
    a.cols.pinned = true ∧ b.cols.pinned = false

instance : DecidableRel listedBefore := fun _ _ => inferInstanceAs (Decidable (_ ∨ _))

/-- `query` with no condition and no limit: the live entries. -/
def queryAll (d : Daemon) : List Entry :=
  ((d.db.entries.rows.filter (fun r => !r.cols.deleted)).insertionSort listedBefore).map
    (rowToEntry d.dbCipher)

/-- One entry with its payloads, as it goes into an archive. -/
def exportEntry (env : Env) (d : Daemon) (entry : Entry) :
    Except Error (BackupEntry × List MimePayload) :=
  (loadPayloads d entry.id).map (fun payloads => (backupEntry env entry payloads, payloads))

/-- Export the whole history. -/
def exportArchive (env : Env) (d : Daemon) : Except Error Archive :=
  ((queryAll d).mapM (exportEntry env d)).map buildArchive

/-- The archive has this entry, with every payload it names. -/
def Archive.Holds (a : Archive) (e : BackupEntry) : Prop :=
  e ∈ a.manifest ∧ ∀ p ∈ e.payloads, p.2 ∈ a.blobs.map Prod.fst

variable {env : Env} {d : Daemon} {scope : SyncScope} {limit : Nat} {since : Int}
  {r : EntryRow} {records : List SyncRecord} {next : Int} {more : Bool}

theorem mem_queryAll {entry : Entry} : entry ∈ queryAll d ↔
    ∃ r ∈ d.db.entries.rows, r.cols.deleted = false ∧ rowToEntry d.dbCipher r = entry := by
  unfold queryAll
  rw [mem_map]
  refine exists_congr (fun r => ?_)
  rw [mem_insertionSort, mem_filter, Bool.not_eq_true', and_assoc]

/-- Every hash that was added is there. -/
theorem mem_foldl_addBlob (blobs : List (String × Bytes)) : ∀ (acc : List (String × Bytes))
    {hash : String}, hash ∈ acc.map Prod.fst ∨ hash ∈ blobs.map Prod.fst →
      hash ∈ (blobs.foldl addBlob acc).map Prod.fst := by
  induction blobs with
  | nil =>
    intro acc hash h
    simpa using h
  | cons blob blobs ih =>
    intro acc hash h
    apply ih
    unfold addBlob
    by_cases hmem : blob.1 ∈ acc.map Prod.fst
    · rw [if_pos hmem]
      rcases h with h | h
      · exact .inl h
      · rcases mem_cons.mp h with rfl | h
        · exact .inl hmem
        · exact .inr h
    · rw [if_neg hmem, map_append, mem_append]
      rcases h with h | h
      · exact .inl (.inl h)
      · rcases mem_cons.mp h with rfl | h
        · exact .inl (.inr (by simp))
        · exact .inr h

/-- A record as the export makes it: it names each payload by its format and its hash. -/
def Packed (env : Env) (record : BackupEntry × List MimePayload) : Prop :=
  record.1.payloads = record.2.map (fun p => (p.mime, env.hash.contentHash p.data))

section Packing

variable {packed : List (BackupEntry × List MimePayload)}

/-- The files of an archive are the payloads of its records. -/
theorem blobs_buildArchive (hpacked : ∀ record ∈ packed, Packed env record) :
    (buildArchive packed).blobs = ((packed.flatMap Prod.snd).map
      (fun p => (env.hash.contentHash p.data, p.data))).foldl addBlob [] := by
  rw [map_flatMap]
  refine congrArg (foldl addBlob []) (flatMap_congr ?_)
  intro record hrecord
  show (record.1.payloads.zip record.2).map (fun x => (x.1.2, x.2.data)) = _
  -- each payload stands beside its own name
  have hzip : record.1.payloads.zip record.2
      = record.2.map (fun p => ((p.mime, env.hash.contentHash p.data), p)) := by
    rw [hpacked record hrecord]
    induction record.2 with
    | nil => rfl
    | cons p payloads ih => rw [map_cons, zip_cons_cons, ih, map_cons]
  rw [hzip, map_map]
  rfl

/-- Every payload has its file. -/
theorem mem_blobs_buildArchive (hpacked : ∀ record ∈ packed, Packed env record)
    {p : MimePayload} (hp : p ∈ packed.flatMap Prod.snd) :
    env.hash.contentHash p.data ∈ (buildArchive packed).blobs.map Prod.fst := by
  rw [blobs_buildArchive hpacked]
  refine mem_foldl_addBlob _ [] (.inr ?_)
  rw [map_map]
  exact mem_map.mpr ⟨p, hp, rfl⟩

/-- An archive has every entry it was built from. -/
theorem buildArchive_holds (hpacked : ∀ record ∈ packed, Packed env record) {entry : Entry}
    {payloads : List MimePayload} (h : (backupEntry env entry payloads, payloads) ∈ packed) :
    (buildArchive packed).Holds (backupEntry env entry payloads) := by
  refine ⟨mem_map_of_mem h, fun p hp => ?_⟩
  obtain ⟨payload, hpayload, rfl⟩ := mem_map.mp hp
  exact mem_blobs_buildArchive hpacked (mem_flatMap.mpr ⟨_, h, hpayload⟩)

end Packing

/-- Exporting succeeds when every live entry can be read. -/
theorem exportArchive_ok_iff : (∃ archive, exportArchive env d = .ok archive) ↔
    ∀ r ∈ d.db.entries.rows, r.cols.deleted = false →
      ∃ payloads, loadPayloads d r.id = .ok payloads := by
  have hpack : (∃ archive, exportArchive env d = .ok archive) ↔
      ∃ packed, (queryAll d).mapM (exportEntry env d) = .ok packed := by
    unfold exportArchive
    cases (queryAll d).mapM (exportEntry env d) with
    | error e => simp [Except.map]
    | ok packed => simp [Except.map]
  rw [hpack, mapM_ok_iff]
  constructor
  · intro h r hr hlive
    obtain ⟨packed, hpacked⟩ := h _ (mem_queryAll.mpr ⟨r, hr, hlive, rfl⟩)
    obtain ⟨payloads, hload, -⟩ := map_ok_iff.mp hpacked
    exact ⟨payloads, hload⟩
  · intro h entry hentry
    obtain ⟨r, hr, hlive, rfl⟩ := mem_queryAll.mp hentry
    obtain ⟨payloads, hload⟩ := h r hr hlive
    refine ⟨_, map_ok_iff.mpr ⟨payloads, ?_, rfl⟩⟩
    exact hload

/-- One damaged entry, and there is no archive. -/
theorem exportArchive_damaged {archive : Archive} (hr : r ∈ d.db.entries.rows)
    (hdamaged : Damaged d r) : exportArchive env d ≠ .ok archive := by
  intro harchive
  obtain ⟨hlive, e, herror⟩ := hdamaged
  obtain ⟨payloads, hload⟩ := exportArchive_ok_iff.mp ⟨archive, harchive⟩ r hr hlive
  rw [hload] at herror
  cases herror

/-- What was exported is in the archive. -/
theorem exportArchive_holds {archive : Archive} (h : exportArchive env d = .ok archive)
    (hr : r ∈ d.db.entries.rows) (hlive : r.cols.deleted = false) {payloads : List MimePayload}
    (hload : loadPayloads d r.id = .ok payloads) :
    archive.Holds (backupEntry env (rowToEntry d.dbCipher r) payloads) := by
  obtain ⟨packed, hpack, rfl⟩ := map_ok_iff.mp h
  have hpacked : ∀ record ∈ packed, Packed env record := by
    intro record hrecord
    have hin : Except.ok record ∈ (queryAll d).map (exportEntry env d) := by
      rw [mapM_eq_ok_iff.mp hpack]
      exact mem_map_of_mem hrecord
    obtain ⟨entry, -, hexport⟩ := mem_map.mp hin
    obtain ⟨payloads, -, rfl⟩ := map_ok_iff.mp hexport
    rfl
  refine buildArchive_holds hpacked (mem_of_mapM_ok hpack (mem_queryAll.mpr ⟨r, hr, hlive, rfl⟩) ?_)
  exact map_ok_iff.mpr ⟨payloads, hload, rfl⟩

/-! ## §3. Paging through the feed -/

/-- Where a reader stands after some pages, and what it got.  A page that fails is
    asked for again. -/
def readPages (env : Env) (d : Daemon) (limit : Nat) (scope : SyncScope) :
    Nat → Int × List SyncRecord
  | 0 => (0, [])
  | n + 1 =>
    let (cursor, got) := readPages env d limit scope n
    match syncChanges env d cursor limit scope with
    | .ok (records, next, _) => (next, got ++ records)
    | .error _ => (cursor, got)

/-- The feed delivers every entry that can be sent, and passes the damaged ones. -/
def FeedGetsThrough (env : Env) (d : Daemon) (limit : Nat) (scope : SyncScope) : Prop :=
  ∃ n, (∀ r ∈ d.db.entries.rows, Eligible env d scope r →
      ∃ record ∈ (readPages env d limit scope n).2, filed record = (r.key, carriedBy r)) ∧
    ∀ r ∈ d.db.entries.rows, shown r = true → Damaged d r →
      (r.cols.changeSeq : Int) ≤ (readPages env d limit scope n).1

/-- There is an archive with every entry that can be read. -/
def ExportGetsThrough (env : Env) (d : Daemon) : Prop :=
  ∃ archive, exportArchive env d = .ok archive ∧
    ∀ r ∈ d.db.entries.rows, r.cols.deleted = false → ¬ Damaged d r →
      ∃ payloads, loadPayloads d r.id = .ok payloads ∧
        archive.Holds (backupEntry env (rowToEntry d.dbCipher r) payloads)

/-- A row the feed has to read but cannot. -/
theorem recordOf_damaged (env : Env) (h : Damaged d r)
    (hscope : scope.includes r.cols.kind r.cols.pinned r.cols.deleted = true) :
    ∃ e, recordOf env d scope r = .error e := by
  obtain ⟨hlive, e, herror⟩ := h
  refine ⟨e, ?_⟩
  unfold recordOf payloadsOf
  rw [if_pos hscope, hlive, if_neg (by simp), herror]
  rfl

theorem recordOf_ok_of_not_damaged
    (h : scope.includes r.cols.kind r.cols.pinned r.cols.deleted = true → ¬ Damaged d r) :
    ∃ record, recordOf env d scope r = .ok record := by
  unfold recordOf
  by_cases hscope : scope.includes r.cols.kind r.cols.pinned r.cols.deleted = true
  · rw [if_pos hscope]
    unfold payloadsOf
    by_cases hdel : r.cols.deleted = true
    · rw [if_pos hdel]
      exact ⟨_, rfl⟩
    · rw [if_neg hdel]
      cases hload : loadPayloads d r.id with
      | ok payloads => exact ⟨_, rfl⟩
      | error e => exact absurd ⟨by simpa using hdel, e, hload⟩ (h hscope)
  · rw [if_neg hscope]
    exact ⟨none, rfl⟩

/-- **No number of pages takes a reader past a damaged entry in scope.** -/
theorem readPages_lt (env : Env) (limit : Nat) (hnum : Numbered d.db)
    (hr : r ∈ d.db.entries.rows) (hshown : shown r = true)
    (hscope : scope.includes r.cols.kind r.cols.pinned r.cols.deleted = true)
    (hdamaged : Damaged d r) (n : Nat) : (readPages env d limit scope n).1 < r.cols.changeSeq := by
  induction n with
  | zero =>
    have := hnum.pos r hr
    show (0 : Int) < _
    omega
  | succ n ih =>
    rw [readPages]
    dsimp only
    split
    next records next more hpage =>
      -- the page did not pass the row, for it could read what it passed
      obtain ⟨done, rest, hof, -⟩ := syncChanges_ok hnum hpage
      have hmem : r ∈ done ++ rest := by
        rw [← hof.split]
        exact mem_changedSince.mpr ⟨hr, hshown, ih⟩
      rcases mem_append.mp hmem with hdone | hrest
      · obtain ⟨record, hrecord⟩ := hof.loads r hdone
        obtain ⟨e, herror⟩ := recordOf_damaged env hdamaged hscope
        rw [hrecord] at herror
        cases herror
      · exact hof.next_lt hnum hrest
    next => exact ih

/-- What a reader got holds every row it passed. -/
theorem readPages_got (hnum : Numbered d.db) (hr : r ∈ d.db.entries.rows)
    (hel : Eligible env d scope r) (n : Nat) :
    (r.cols.changeSeq : Int) ≤ (readPages env d limit scope n).1 →
      ∃ record ∈ (readPages env d limit scope n).2, filed record = (r.key, carriedBy r) := by
  induction n with
  | zero =>
    intro hle
    have := hnum.pos r hr
    have hle : (r.cols.changeSeq : Int) ≤ 0 := hle
    omega
  | succ n ih =>
    rw [readPages]
    dsimp only
    split
    next records next more hpage =>
      intro hle
      have hle : (r.cols.changeSeq : Int) ≤ next := hle
      by_cases hold : (r.cols.changeSeq : Int) ≤ (readPages env d limit scope n).1
      · obtain ⟨record, hmem, hfiled⟩ := ih hold
        exact ⟨record, mem_append_left _ hmem, hfiled⟩
      · obtain ⟨done, rest, hof, -⟩ := syncChanges_ok hnum hpage
        have hpage := page_of_syncChanges hnum hof
        have hitem := hpage.complete r.cols.changeSeq (r.key, carriedBy r) (by omega) hle
          (item_offer.mpr ⟨r, hr, rfl, hel, rfl⟩)
        obtain ⟨record, hmem, hfiled⟩ := mem_map.mp hitem
        exact ⟨record, mem_append_right _ hmem, hfiled⟩
    next => exact ih

/-- Where every row can be read, the reader comes to the end. -/
theorem readPages_end (hnum : Numbered d.db) (env : Env) (limit : Nat) (scope : SyncScope)
    (hloads : ∀ r ∈ d.db.entries.rows, shown r = true →
      ∃ record, recordOf env d scope r = .ok record) :
    ∃ n, changedSince d.db (readPages env d limit scope n).1 = [] := by
  -- what is left gets shorter with each page
  have hstep : ∀ k n, (changedSince d.db (readPages env d limit scope n).1).length ≤ k →
      ∃ m, changedSince d.db (readPages env d limit scope m).1 = [] := by
    intro k
    induction k with
    | zero => exact fun n hlen => ⟨n, length_eq_zero_iff.mp (Nat.le_zero.mp hlen)⟩
    | succ k ih =>
      intro n hlen
      by_cases hnil : changedSince d.db (readPages env d limit scope n).1 = []
      · exact ⟨n, hnil⟩
      · obtain ⟨records, next, more, hpage⟩ := syncChanges_ok_of_loads hnum env
          (readPages env d limit scope n).1 limit scope (fun r hr => hloads r (mem_changedSince.mp hr).1 (mem_changedSince.mp hr).2.1)
        obtain ⟨done, rest, hof, -⟩ := syncChanges_ok hnum hpage
        have hcursor : (readPages env d limit scope (n + 1)).1 = next := by
          rw [readPages]
          simp only [hpage]
        refine ih (n + 1) ?_
        rw [hcursor, hof.next, changedSince_cursorAfter hnum hof.split]
        rw [hof.split, length_append] at hlen
        have := length_pos_iff.mpr (hof.progress hnil)
        omega
  exact hstep _ 0 (le_refl _)

/-! ## §4. When the others get through -/

/-- **One bad entry blocks the others.**  The feed delivers the other entries and
    passes the damaged ones exactly if none that is shown and in scope is damaged, and
    there is an archive with the others exactly if no live entry is damaged. -/
theorem others_get_through_iff (env : Env) (d : Daemon) (limit : Nat) (scope : SyncScope)
    (hnum : Numbered d.db) :
    (FeedGetsThrough env d limit scope ↔ ∀ r ∈ d.db.entries.rows, shown r = true →
      scope.includes r.cols.kind r.cols.pinned r.cols.deleted = true → ¬ Damaged d r) ∧
    (ExportGetsThrough env d ↔ ∀ r ∈ d.db.entries.rows, ¬ Damaged d r) := by
  refine ⟨⟨?_, fun h => ?_⟩, ⟨?_, fun h => ?_⟩⟩
  · rintro ⟨n, -, hpassed⟩ r hr hshown hscope hdamaged
    have hlt := readPages_lt env limit hnum hr hshown hscope hdamaged n
    have hle := hpassed r hr hshown hdamaged
    omega
  · obtain ⟨n, hend⟩ := readPages_end hnum env limit scope
      (fun r hr hshown => recordOf_ok_of_not_damaged (h r hr hshown))
    -- no row is left after the cursor
    have hle : ∀ r ∈ d.db.entries.rows, shown r = true →
        (r.cols.changeSeq : Int) ≤ (readPages env d limit scope n).1 := by
      intro r hr hshown
      by_contra hlt
      have hmem := mem_changedSince.mpr ⟨hr, hshown, lt_of_not_ge hlt⟩
      rw [hend] at hmem
      cases hmem
    exact ⟨n, fun r hr hel => readPages_got hnum hr hel n (hle r hr hel.1),
      fun r hr hshown _ => hle r hr hshown⟩
  · rintro ⟨archive, harchive, -⟩ r hr hdamaged
    exact exportArchive_damaged hr hdamaged harchive
  · have hloads : ∀ r ∈ d.db.entries.rows, r.cols.deleted = false →
        ∃ payloads, loadPayloads d r.id = .ok payloads := by
      intro r hr hlive
      cases hload : loadPayloads d r.id with
      | ok payloads => exact ⟨payloads, rfl⟩
      | error e => exact absurd ⟨hlive, e, hload⟩ (h r hr)
    obtain ⟨archive, harchive⟩ := exportArchive_ok_iff.mpr hloads
    refine ⟨archive, harchive, fun r hr hlive _ => ?_⟩
    obtain ⟨payloads, hload⟩ := hloads r hr hlive
    exact ⟨payloads, hload, exportArchive_holds harchive hr hlive hload⟩

/-! ## §5. A history with one lost blob -/

namespace Sample

/-- Copy two texts. -/
def copyTwice : Request Unit := do
  let _ ← storeRow Sample.env (captureOf (note [97] 1))
  let _ ← storeRow Sample.env (captureOf (note [98] 2))

/-- Two texts were copied. -/
def twoNotes : Daemon := (Op.exec copyTwice fresh).2

/-- The file of the first is gone. -/
def oneLost : Daemon :=
  { twoNotes with blobs := twoNotes.blobs.removeOrWarn (hash.contentHash [97]) }

theorem advances_copyTwice : Advances (fun _ => False) copyTwice :=
  advances_bind (advances_storeRow Sample.env _) (fun _ =>
    advances_bind (advances_storeRow Sample.env _) (fun _ => advances_pure ()))

theorem numbered_twoNotes : Numbered twoNotes.db := by
  unfold twoNotes
  exact (advances_copyTwice fresh).numbered numbered_empty

theorem numbered_oneLost : Numbered oneLost.db := by
  unfold oneLost
  dsimp only
  exact numbered_twoNotes

/-- The first text is damaged, and stands before the second. -/
theorem oneLost_damaged : ∃ r ∈ oneLost.db.entries.rows, shown r = true ∧
    SyncScope.includes ⟨false, false⟩ r.cols.kind r.cols.pinned r.cols.deleted = true ∧
      Damaged oneLost r := by
  decide +kernel

theorem not_feedGetsThrough_oneLost : ¬ FeedGetsThrough Sample.env oneLost 32 ⟨false, false⟩ := by
  intro ⟨n, _, hpassed⟩
  obtain ⟨r, hr, hshown, hscope, hdamaged⟩ := oneLost_damaged
  have hlt := readPages_lt Sample.env 32 numbered_oneLost hr hshown hscope hdamaged n
  exact absurd (hpassed r hr hshown hdamaged) (not_le_of_gt hlt)

theorem not_exportGetsThrough_oneLost : ¬ ExportGetsThrough Sample.env oneLost := by
  intro ⟨archive, harchive, _⟩
  obtain ⟨r, hr, -, -, hdamaged⟩ := oneLost_damaged
  exact exportArchive_damaged hr hdamaged harchive

/-- The second text can be read, and neither the feed nor an archive ever has it. -/
theorem lost_blob_blocks_the_next_entry :
    loadPayloads oneLost 2 = .ok [⟨"text/plain", [98]⟩] ∧
      ¬ FeedGetsThrough Sample.env oneLost 32 ⟨false, false⟩ ∧
      ¬ ExportGetsThrough Sample.env oneLost :=
  ⟨by decide +kernel, not_feedGetsThrough_oneLost, not_exportGetsThrough_oneLost⟩

/-- The second text is pinned as well. -/
def lostAndPinned : Daemon := (Op.exec (setPinned Sample.env 2 true) oneLost).2

theorem numbered_lostAndPinned : Numbered lostAndPinned.db := by
  have hpin : Advances (fun _ => False) (setPinned Sample.env 2 true) :=
    advances_bind (advances_tracked 2 _) fun _ =>
      advances_bind advances_tickLamport fun _ => advances_tracked 2 _
  unfold lostAndPinned
  exact (hpin oneLost).numbered numbered_oneLost

/-- A damaged entry that is not in scope blocks no page, and every archive. -/
theorem others_get_through_of_pinned_only :
    (∃ r ∈ lostAndPinned.db.entries.rows, shown r = true ∧ Damaged lostAndPinned r) ∧
      FeedGetsThrough Sample.env lostAndPinned 32 ⟨true, false⟩ ∧
      ¬ ExportGetsThrough Sample.env lostAndPinned := by
  have hlost : ∃ r ∈ lostAndPinned.db.entries.rows, shown r = true ∧ Damaged lostAndPinned r := by
    decide +kernel
  have hscope : ∀ r ∈ lostAndPinned.db.entries.rows, shown r = true →
      SyncScope.includes ⟨true, false⟩ r.cols.kind r.cols.pinned r.cols.deleted = true →
        ¬ Damaged lostAndPinned r := by
    decide +kernel
  have h := others_get_through_iff Sample.env lostAndPinned 32 ⟨true, false⟩ numbered_lostAndPinned
  refine ⟨hlost, h.1.mpr hscope, fun hexport => ?_⟩
  obtain ⟨r, hr, -, hdamaged⟩ := hlost
  exact h.2.mp hexport r hr hdamaged

end Sample

end Panora.Panod
