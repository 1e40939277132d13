/-
  Panora.Panod.Feed — the change feed a sync peer reads.

  `Daemon::sync_changes`, `Database::changes_since` and `Daemon::load_payloads`.
  The feed goes through the rows in the order of their change numbers, 64 at a
  time, turns each into a record, and stops where a page is full.

  Main results:
    * `syncChanges_eq` — fetching 64 rows at a time makes no difference;
    * `syncChanges_ok` — what a page holds and where its cursor stands;
    * `syncChanges_error` — when reading a page fails.
-/
import Panora.Lib.Feed
import Panora.Panod.Sync
import Panora.Storage.Numbering

namespace Panora.Panod

open Storage Storage.Database Lib Lib.Feed Lib.Fallible List

/-! ## §1. Payloads -/

/-- The formats the daemon captures, in its order of preference. -/
def wantedMimes : List String :=
  ["text/plain;charset=utf-8", "text/plain", "UTF8_STRING", "text/html", "text/rtf",
    "application/rtf", "text/uri-list", "x-special/gnome-copied-files",
    "application/vnd.kde.cutsel", "text/x-color", "application/x-color", "image/png",
    "image/jpeg", "image/webp", "image/bmp", "image/tiff", "image/gif", "image/svg+xml",
    "image/x-icon", "image/avif", "image/heic", "image/heif"]

/-- `str::eq_ignore_ascii_case`. -/
def eqIgnoreAsciiCase (a b : String) : Bool :=
  a.toList.map Char.toLower == b.toList.map Char.toLower

/-- Position of a MIME type in `wantedMimes`; unknown types sort last. -/
def mimeRank (mime : String) : Nat :=
  (wantedMimes.findIdx? (eqIgnoreAsciiCase mime)).getD wantedMimes.length

/-- Read one format back. -/
def loadFormat (d : Daemon) (b : BlobRow) : Except Error MimePayload :=
  (d.blobs.get d.blobCipher b.blobRef).map (fun data => ⟨b.mime, data⟩)

/-- The formats of an entry; the thumbnail is not one. -/
def formatsOf (db : Database) (id : Nat) : List BlobRow :=
  (db.blobsOf id).filter (fun b => b.mime ≠ thumbnailMime)

/-- Load an entry's payloads back from the blob store, preferred formats first. -/
def loadPayloads (d : Daemon) (id : Nat) : Except Error (List MimePayload) :=
  (d.db.get d.dbCipher id).bind fun entry =>
    if entry.deleted then .error (.notFound id)
    else ((formatsOf d.db id).mapM (loadFormat d)).map
      (fun out => out.insertionSort (fun a b => mimeRank a.mime ≤ mimeRank b.mime))

section Formats

variable {db : Database} {id : Nat}

theorem mem_formatsOf {b : BlobRow} : b ∈ formatsOf db id ↔
    b ∈ db.entryBlobs ∧ b.entryId = id ∧ b.mime ≠ thumbnailMime := by
  unfold formatsOf blobsOf
  rw [mem_filter, mem_insertionSort, mem_filter]
  simp [and_assoc]

instance : Std.Total (fun a b : BlobRow => a.mime ≤ b.mime) := ⟨fun a b => le_total a.mime b.mime⟩

instance : IsTrans BlobRow (fun a b => a.mime ≤ b.mime) := ⟨fun _ _ _ hab hbc => le_trans hab hbc⟩

/-- It makes no difference whether the thumbnail is left out before or after sorting. -/
theorem formatsOf_eq (db : Database) (id : Nat) : formatsOf db id
    = ((db.refsOf id).filter (fun b => b.mime ≠ thumbnailMime)).insertionSort
      (fun a b => a.mime ≤ b.mime) :=
  Keyed.filter_insertionSort _ _

/-- The formats of an entry are made of its references. -/
theorem formatsOf_congr {db' : Database} (h : db'.refsOf id = db.refsOf id) :
    formatsOf db' id = formatsOf db id := by
  unfold formatsOf blobsOf
  show ((db'.refsOf id).insertionSort _).filter _ = ((db.refsOf id).insertionSort _).filter _
  rw [h]

/-- A format that another entry gets, or a thumbnail, is none of this entry's. -/
theorem formatsOf_beside (db : Database) {b : BlobRow}
    (hbeside : b.entryId ≠ id ∨ b.mime = thumbnailMime) :
    formatsOf { db with
      entryBlobs :=
        db.entryBlobs.filter (fun b' => ¬ (b'.entryId = b.entryId ∧ b'.mime = b.mime)) ++ [b] } id
      = formatsOf db id := by
  have hnew : (decide (b.mime ≠ thumbnailMime) && decide (b.entryId = id)) = false := by
    rw [Bool.and_eq_false_iff, decide_eq_false_iff_not, decide_eq_false_iff_not]
    rcases hbeside with hne | hthumb
    · exact .inr hne
    · exact .inl (fun hmime => hmime hthumb)
  rw [formatsOf_eq, formatsOf_eq]
  refine congrArg (insertionSort _) ?_
  show ((db.entryBlobs.filter _ ++ [b]).filter _).filter _ = (db.entryBlobs.filter _).filter _
  rw [filter_filter, filter_filter, filter_append, filter_filter,
    filter_cons_of_neg (by rw [hnew]; exact Bool.false_ne_true), filter_nil,
    append_nil]
  refine filter_congr (fun b' _ => ?_)
  -- what is replaced was not seen either
  by_cases hsame : b'.entryId = b.entryId ∧ b'.mime = b.mime
  · rw [hsame.1, hsame.2, hnew, Bool.false_and]
  · rw [decide_eq_true hsame, Bool.and_true]

end Formats

/-! ## §2. The feed -/

/-- A row the feed shows: no secrets, and no evictions. -/
def shown (r : EntryRow) : Bool :=
  !r.cols.sensitive && !(r.cols.deleted && r.cols.deletedAt = 0)

/-- The rows changed after `since`, oldest change first. -/
def changedSince (db : Database) (since : Int) : List EntryRow :=
  (db.entries.rows.filter (fun r => shown r && since < r.cols.changeSeq)).insertionSort
    (fun a b => a.cols.changeSeq ≤ b.cols.changeSeq)

/-- At most `limit` of them. -/
def changesSince (db : Database) (since : Int) (limit : Nat) : List EntryRow :=
  (changedSince db since).take limit

def syncDefaultLimit : Nat := 100

def syncMaxLimit : Nat := 1000

/-- Payload bytes one page may carry. -/
def syncReplyBytes : Nat := 32 * 1024 * 1024

/-- Payload bytes one entry may have. -/
def syncMaxEntryBytes : Nat := 48 * 1024 * 1024

/-- Payloads one frame of the socket protocol may carry. -/
def maxFdsPerFrame : Nat := 16

/-- The bytes of a record's payloads. -/
def payloadBytes (payloads : List MimePayload) : Nat :=
  (payloads.map (fun p => p.data.length)).sum

/-- Whether these payloads of an entry can be sent: they have the entry's hash, and
    neither too many formats nor too many bytes. -/
def sendable (env : Env) (r : EntryRow) (payloads : List MimePayload) : Bool :=
  (r.cols.deleted || env.hash.payloadHash payloads == r.key.contentHash) &&
    decide (payloads.length ≤ maxFdsPerFrame) && decide (payloadBytes payloads ≤ syncMaxEntryBytes)

/-- The record of a row with these payloads. -/
def recordWith (r : EntryRow) (payloads : List MimePayload) : SyncRecord where
  contentHash := r.key.contentHash
  selection := r.key.selection
  sourceApp := r.cols.sourceApp
  createdAt := r.cols.createdAt
  lastSeenAt := r.cols.lastSeenAt
  pinned := r.cols.pinned
  deleted := r.cols.deleted
  deviceId := r.cols.deviceId
  lamport := r.cols.lamport
  payloads := payloads

/-- What the feed carries of a row; a tombstone has no payloads. -/
def payloadsOf (d : Daemon) (r : EntryRow) : Except Error (List MimePayload) :=
  if r.cols.deleted then .ok [] else loadPayloads d r.id

/-- The record the feed makes of a row, if it makes one. -/
def recordOf (env : Env) (d : Daemon) (scope : SyncScope) (r : EntryRow) :
    Except Error (Option SyncRecord) :=
  if scope.includes r.cols.kind r.cols.pinned r.cols.deleted then
    (payloadsOf d r).map
      (fun payloads => if sendable env r payloads then some (recordWith r payloads) else none)
  else .ok none

/-- A page being made. -/
structure Page where
  records : List SyncRecord
  cursor : Int
  payloadCount : Nat
  bytes : Nat

/-- Whether one more record does not fit; a page with none takes any. -/
def Page.full (p : Page) (record : SyncRecord) : Prop :=
  p.records ≠ [] ∧ (maxFdsPerFrame < p.payloadCount + record.payloads.length ∨
    syncReplyBytes < p.bytes + payloadBytes record.payloads)

instance (p : Page) (record : SyncRecord) : Decidable (p.full record) :=
  inferInstanceAs (Decidable (_ ∧ _))

/-- Add a record. -/
def Page.push (p : Page) (record : SyncRecord) (cursor : Int) : Page where
  records := p.records ++ [record]
  cursor := cursor
  payloadCount := p.payloadCount + record.payloads.length
  bytes := p.bytes + payloadBytes record.payloads

/-- One row of the feed: skipped, added, or the page ends before it. -/
def feedRow (env : Env) (d : Daemon) (limit : Nat) (scope : SyncScope) (p : Page)
    (r : EntryRow) : Except Error (Page × Bool) :=
  if limit ≤ p.records.length then .ok (p, false)
  else match recordOf env d scope r with
    | .error e => .error e
    | .ok none => .ok ({ p with cursor := r.cols.changeSeq }, true)
    | .ok (some record) =>
      if p.full record then .ok (p, false) else .ok (p.push record r.cols.changeSeq, true)

/-- The number of records a page may have. -/
def pageLimit (limit : Nat) : Nat :=
  if limit = 0 then syncDefaultLimit else min limit syncMaxLimit

/-- A page nothing was added to. -/
def Page.start (since : Int) : Page := ⟨[], since, 0, 0⟩

/-- A page of the change feed after `since`: the records, the cursor to resume
    from, and whether more rows follow. -/
def syncChanges (env : Env) (d : Daemon) (since : Int) (limit : Nat) (scope : SyncScope) :
    Except Error (List SyncRecord × Int × Bool) :=
  (walkFetched (fun p => changesSince d.db p.cursor 64) (feedRow env d (pageLimit limit) scope)
    (d.db.entries.rows.length + 1) (Page.start since)).map
      (fun p => (p.records, p.cursor, !(changesSince d.db p.cursor 1).isEmpty))

theorem pageLimit_pos (limit : Nat) : 0 < pageLimit limit := by
  unfold pageLimit syncDefaultLimit syncMaxLimit
  split
  · omega
  · omega

/-! ## §3. Change numbers in order -/

variable {env : Env} {d : Daemon} {db : Database} {scope : SyncScope} {limit : Nat}
  {since : Int} {p p' : Page} {r : EntryRow} {rows : List EntryRow}

theorem mem_changedSince : r ∈ changedSince db since ↔
    r ∈ db.entries.rows ∧ shown r = true ∧ since < r.cols.changeSeq := by
  unfold changedSince
  rw [mem_insertionSort, mem_filter]
  simp

/-- Change numbers increase along the feed. -/
theorem pairwise_changedSince (h : Numbered db) (since : Int) :
    (changedSince db since).Pairwise (fun a b => a.cols.changeSeq < b.cols.changeSeq) :=
  Keyed.increasing_sort
    (h.nodup.sublist (filter_sublist.map (fun r : EntryRow => r.cols.changeSeq)))

/-- From a row of the feed on, what is left is what follows it. -/
theorem changedSince_of_split (h : Numbered db) (since : Int) :
    ∀ l l', changedSince db since = l ++ l' → ∀ last ∈ l.getLast?,
      changedSince db last.cols.changeSeq = l' := by
  intro l l' hsplit last hlast
  have hsorted := pairwise_changedSince h since
  -- both lists are sorted and have the same rows
  have hsorted' := pairwise_changedSince h last.cols.changeSeq
  rw [hsplit] at hsorted
  obtain ⟨hl, hl', hcross⟩ := pairwise_append.mp hsorted
  have hmemlast : last ∈ l := mem_of_getLast? hlast
  have hlastle : ∀ a ∈ l, a.cols.changeSeq ≤ last.cols.changeSeq := by
    intro a ha
    obtain ⟨init, rfl⟩ := getLast?_eq_some_iff.mp hlast
    rcases mem_append.mp ha with ha | ha
    · exact Nat.le_of_lt ((pairwise_append.mp hl).2.2 a ha last (by simp))
    · rw [mem_singleton.mp ha]
  refine Perm.eq_of_pairwise (fun a b _ _ hab hba => absurd hab (Nat.lt_asymm hba))
    hsorted' hl' ?_
  have hnd : ∀ {l : List EntryRow},
      l.Pairwise (fun a b => a.cols.changeSeq < b.cols.changeSeq) → l.Nodup :=
    fun h => h.imp (fun hlt heq => by rw [heq] at hlt; exact Nat.lt_irrefl _ hlt)
  refine (perm_ext_iff_of_nodup (hnd hsorted') (hnd hl')).mpr (fun a => ?_)
  rw [mem_changedSince]
  constructor
  · intro ⟨hrow, hshown, hgt⟩
    have hsince : since < a.cols.changeSeq := by
      have := (mem_changedSince.mp (hsplit ▸ mem_append_left l' hmemlast)).2.2
      omega
    have hmem : a ∈ l ++ l' := hsplit ▸ mem_changedSince.mpr ⟨hrow, hshown, hsince⟩
    rcases mem_append.mp hmem with ha | ha
    · have := hlastle a ha
      omega
    · exact ha
  · intro ha
    obtain ⟨hrow, hshown, -⟩ := mem_changedSince.mp (hsplit ▸ mem_append_right l ha)
    exact ⟨hrow, hshown, by have := hcross last hmemlast a ha; omega⟩

/-! ## §4. What a page holds -/

/-- The record the feed makes of a row that can be read. -/
def offered (env : Env) (d : Daemon) (scope : SyncScope) (r : EntryRow) : Option SyncRecord :=
  match recordOf env d scope r with
  | .ok record => record
  | .error _ => none

/-- Where the cursor stands after these rows. -/
def cursorAfter (since : Int) (done : List EntryRow) : Int :=
  (done.getLast?.map (fun r => (r.cols.changeSeq : Int))).getD since

/-- Going from `p` to `p'` the rows `done` were passed: each of them could be read,
    and the records of those that have one were added. -/
structure Walked (env : Env) (d : Daemon) (scope : SyncScope) (p : Page)
    (done : List EntryRow) (p' : Page) : Prop where
  loads : ∀ r ∈ done, ∃ record, recordOf env d scope r = .ok record
  records : p'.records = p.records ++ done.filterMap (offered env d scope)
  cursor : p'.cursor = cursorAfter p.cursor done

theorem Walked.nil (p : Page) : Walked env d scope p [] p :=
  ⟨by simp, by simp, rfl⟩

theorem cursorAfter_cons (since : Int) (r : EntryRow) (done : List EntryRow) :
    cursorAfter since (r :: done) = cursorAfter r.cols.changeSeq done := by
  unfold cursorAfter
  rw [getLast?_cons]
  cases done.getLast? with
  | none => rfl
  | some last => rfl

/-- One row that is passed, then the rest. -/
theorem Walked.cons {p1 : Page} {done : List EntryRow} {record : Option SyncRecord}
    (hrecord : recordOf env d scope r = .ok record)
    (hrecords : p1.records = p.records ++ record.toList)
    (hcursor : p1.cursor = r.cols.changeSeq) (h : Walked env d scope p1 done p') :
    Walked env d scope p (r :: done) p' where
  loads r' hr' := by
    rcases mem_cons.mp hr' with rfl | hr'
    · exact ⟨record, hrecord⟩
    · exact h.loads r' hr'
  records := by
    have hoffered : offered env d scope r = record := by
      unfold offered
      rw [hrecord]
    rw [h.records, hrecords, filterMap_cons, hoffered]
    cases record <;> simp
  cursor := by
    rw [h.cursor, hcursor, cursorAfter_cons]

/-- The page ends before this row. -/
def Blocked (env : Env) (d : Daemon) (limit : Nat) (scope : SyncScope) (p : Page)
    (r : EntryRow) : Prop :=
  limit ≤ p.records.length ∨ ∃ record, recordOf env d scope r = .ok (some record) ∧ p.full record

variable {go more : Bool} {e : Error} {next : Int} {records : List SyncRecord}
  {record : SyncRecord}

/-- What one row does: it ends the page, or is passed. -/
theorem feedRow_ok (h : feedRow env d limit scope p r = .ok (p', go)) :
    (go = false ∧ p' = p ∧ Blocked env d limit scope p r) ∨
      (go = true ∧ ∃ record, recordOf env d scope r = .ok record ∧
        p'.records = p.records ++ record.toList ∧ p'.cursor = r.cols.changeSeq) := by
  unfold feedRow at h
  by_cases hlimit : limit ≤ p.records.length
  · rw [if_pos hlimit] at h
    cases h
    exact .inl ⟨rfl, rfl, .inl hlimit⟩
  · rw [if_neg hlimit] at h
    split at h
    next => cases h
    next hnone =>
      cases h
      exact .inr ⟨rfl, none, hnone, by simp, rfl⟩
    next record hrecord =>
      by_cases hfull : p.full record
      · rw [if_pos hfull] at h
        cases h
        exact .inl ⟨rfl, rfl, .inr ⟨record, hrecord, hfull⟩⟩
      · rw [if_neg hfull] at h
        cases h
        exact .inr ⟨rfl, some record, hrecord, rfl, rfl⟩

/-- A record of a row is made of that row. -/
theorem recordOf_some (h : recordOf env d scope r = .ok (some record)) :
    ∃ payloads, payloadsOf d r = .ok payloads ∧ record = recordWith r payloads := by
  unfold recordOf at h
  split at h
  · obtain ⟨payloads, hpayloads, hsome⟩ := map_ok_iff.mp h
    split at hsome
    · exact ⟨payloads, hpayloads, (Option.some.inj hsome).symm⟩
    · cases hsome
  · cases h

/-- A row fails the page only when it cannot be read. -/
theorem feedRow_error (h : feedRow env d limit scope p r = .error e) :
    recordOf env d scope r = .error e := by
  unfold feedRow at h
  split at h
  · cases h
  · split at h
    next e' he => rw [he, Except.error.inj h]
    next => cases h
    next => split at h <;> cases h

/-- **A walk that does not fail** passes some rows and ends with them, or stops
    before a row that does not fit. -/
theorem walked_of_ok (h : walk (feedRow env d limit scope) p rows = .ok (p', go)) :
    ∃ done rest, rows = done ++ rest ∧ Walked env d scope p done p' ∧
      (go = true → rest = []) ∧
      (go = false → ∃ r rest', rest = r :: rest' ∧ Blocked env d limit scope p' r) := by
  induction rows generalizing p with
  | nil =>
    cases h
    exact ⟨[], [], rfl, Walked.nil _, fun _ => rfl, by simp⟩
  | cons r rows ih =>
    rw [walk] at h
    split at h
    next => cases h
    next p1 hrow =>
      obtain ⟨hfalse, -⟩ | ⟨-, record, hrecord, hrecords, hcursor⟩ := feedRow_ok hrow
      · cases hfalse
      · obtain ⟨done, rest, hsplit, hwalked, hend, hstop⟩ := ih h
        exact ⟨r :: done, rest, by rw [hsplit, cons_append],
          hwalked.cons hrecord hrecords hcursor, hend, hstop⟩
    next p1 hrow =>
      obtain ⟨-, rfl, hblocked⟩ | ⟨htrue, -⟩ := feedRow_ok hrow
      · cases h
        exact ⟨[], r :: rows, rfl, Walked.nil _, by simp, fun _ => ⟨r, rows, rfl, hblocked⟩⟩
      · cases htrue

/-- **A walk that fails** passed some rows and then came to one it could not read. -/
theorem walked_of_error (h : walk (feedRow env d limit scope) p rows = .error e) :
    ∃ done r rest p', rows = done ++ r :: rest ∧ Walked env d scope p done p' ∧
      recordOf env d scope r = .error e := by
  induction rows generalizing p with
  | nil => exact absurd h (by simp [walk])
  | cons r rows ih =>
    rw [walk] at h
    split at h
    next e' hrow =>
      cases h
      exact ⟨[], r, rows, p, rfl, Walked.nil p, feedRow_error hrow⟩
    next p1 hrow =>
      obtain ⟨hfalse, -⟩ | ⟨-, record, hrecord, hrecords, hcursor⟩ := feedRow_ok hrow
      · cases hfalse
      · obtain ⟨done, r', rest, p', hsplit, hwalked, herror⟩ := ih h
        exact ⟨r :: done, r', rest, p', by rw [hsplit, cons_append],
          hwalked.cons hrecord hrecords hcursor, herror⟩
    next => cases h

/-- A page has no more records than it may. -/
theorem length_feedRow (h : feedRow env d limit scope p r = .ok (p', go))
    (hp : p.records.length ≤ limit) : p'.records.length ≤ limit := by
  unfold feedRow at h
  by_cases hlimit : limit ≤ p.records.length
  · rw [if_pos hlimit] at h
    cases h
    exact hp
  · rw [if_neg hlimit] at h
    split at h
    next => cases h
    next =>
      cases h
      exact hp
    next record _ =>
      split at h
      next =>
        cases h
        exact hp
      next =>
        cases h
        show (p.records ++ [record]).length ≤ limit
        rw [length_append, length_singleton]
        omega

theorem length_syncChanges (h : syncChanges env d since limit scope = .ok (records, next, more)) :
    records.length ≤ pageLimit limit := by
  obtain ⟨p, hwalk, heq⟩ := map_ok_iff.mp h
  cases heq
  exact walkFetched_keeps (P := fun p : Page => p.records.length ≤ pageLimit limit)
    (Q := fun _ => True) (fun _ _ _ _ _ hp hrow => length_feedRow hrow hp)
    (fun _ _ _ => trivial) _ _ (Nat.zero_le _) hwalk

/-- A page carries rows of the history. -/
theorem mem_syncChanges (h : syncChanges env d since limit scope = .ok (records, next, more))
    (hmem : record ∈ records) :
    ∃ r ∈ d.db.entries.rows, shown r = true ∧ recordOf env d scope r = .ok (some record) := by
  obtain ⟨p, hwalk, heq⟩ := map_ok_iff.mp h
  cases heq
  refine walkFetched_keeps (P := fun p : Page => ∀ record ∈ p.records,
      ∃ r ∈ d.db.entries.rows, shown r = true ∧ recordOf env d scope r = .ok (some record))
    (Q := fun r => r ∈ d.db.entries.rows ∧ shown r = true) ?_ ?_ _ _ (by simp [Page.start]) hwalk record hmem
  · intro p r p' go hr hp hrow record hrecord
    rcases feedRow_ok hrow with ⟨-, rfl, -⟩ | ⟨-, made, hmade, hrecords, -⟩
    · exact hp record hrecord
    · rw [hrecords] at hrecord
      rcases mem_append.mp hrecord with hold | hnew
      · exact hp record hold
      · rw [Option.mem_toList.mp hnew] at hmade
        exact ⟨r, hr.1, hr.2, hmade⟩
  · intro p r hr
    obtain ⟨hmem, hshown, -⟩ := mem_changedSince.mp (mem_of_mem_take hr)
    exact ⟨hmem, hshown⟩

/-- **Fetching 64 rows at a time makes no difference.** -/
theorem syncChanges_eq (h : Numbered d.db) (since : Int) (limit : Nat) :
    syncChanges env d since limit scope
      = (walk (feedRow env d (pageLimit limit) scope) (Page.start since)
          (changedSince d.db since)).map
        (fun r => (r.1.records, r.1.cursor, !(changesSince d.db r.1.cursor 1).isEmpty)) := by
  have hfetched := @walkFetched_eq _ _ _ (feedRow env d (pageLimit limit) scope)
    (fun p => changesSince d.db p.cursor 64) (fun p => changedSince d.db p.cursor) 63
    (fun _ => rfl) ?_ (d.db.entries.rows.length + 1) (Page.start since) ?_
  · unfold syncChanges
    rw [hfetched]
    show _ = (walk (feedRow env d (pageLimit limit) scope) (Page.start since)
      (changedSince d.db (Page.start since).cursor)).map _
    cases walk (feedRow env d (pageLimit limit) scope) (Page.start since)
      (changedSince d.db (Page.start since).cursor) <;> rfl
  · intro p p' hwalk
    obtain ⟨done, rest, hsplit, hwalked, hend, -⟩ := walked_of_ok hwalk
    rw [hend rfl, append_nil] at hsplit
    have hall : changedSince d.db p.cursor = done ++ (changedSince d.db p.cursor).drop 64 := by
      rw [← hsplit]
      exact (take_append_drop 64 _).symm
    rw [hwalked.cursor, cursorAfter]
    cases hlast : done.getLast? with
    | some last => exact changedSince_of_split h p.cursor done _ hall last hlast
    | none =>
      have hnil : done = [] := getLast?_eq_none_iff.mp hlast
      rw [hnil, nil_append] at hall
      exact hall
  · show (changedSince d.db since).length < _
    unfold changedSince
    rw [length_insertionSort]
    exact Nat.lt_succ_of_le (length_filter_le _ _)

/-! ## §5. Pages -/

/-- The cursor stands at the last row that was passed, or where it was. -/
theorem cursorAfter_eq (since : Int) (done : List EntryRow) :
    (done = [] ∧ cursorAfter since done = since) ∨
      ∃ last ∈ done.getLast?, cursorAfter since done = last.cols.changeSeq := by
  cases hlast : done.getLast? with
  | none =>
    refine .inl ⟨getLast?_eq_none_iff.mp hlast, ?_⟩
    unfold cursorAfter
    rw [hlast]
    rfl
  | some last =>
    refine .inr ⟨last, rfl, ?_⟩
    unfold cursorAfter
    rw [hlast]
    rfl

/-- What is left after the rows that were passed. -/
theorem changedSince_cursorAfter (h : Numbered db) {done rest : List EntryRow}
    (hsplit : changedSince db since = done ++ rest) :
    changedSince db (cursorAfter since done) = rest := by
  rcases cursorAfter_eq since done with ⟨hnil, hcursor⟩ | ⟨last, hlast, hcursor⟩
  · rw [hcursor, hsplit, hnil, nil_append]
  · rw [hcursor]
    exact changedSince_of_split h since done rest hsplit last hlast

/-- What a page that was made holds: the rows it passed could all be read, it has the
    records of those that have one, and it did not stop before the first row. -/
structure PageOf (env : Env) (d : Daemon) (scope : SyncScope) (since : Int)
    (records : List SyncRecord) (next : Int) (done rest : List EntryRow) : Prop where
  split : changedSince d.db since = done ++ rest
  loads : ∀ r ∈ done, ∃ record, recordOf env d scope r = .ok record
  records : records = done.filterMap (offered env d scope)
  next : next = cursorAfter since done
  progress : changedSince d.db since ≠ [] → done ≠ []

/-- **A page that is made.** -/
theorem syncChanges_ok (hnum : Numbered d.db)
    (h : syncChanges env d since limit scope = .ok (records, next, more)) :
    ∃ done rest, PageOf env d scope since records next done rest ∧ (more = true ↔ rest ≠ []) := by
  rw [syncChanges_eq hnum] at h
  obtain ⟨⟨p, go⟩, hwalk, heq⟩ := map_ok_iff.mp h
  cases heq
  obtain ⟨done, rest, hsplit, hwalked, hend, hstop⟩ := walked_of_ok hwalk
  have hcursor : p.cursor = cursorAfter since done := hwalked.cursor
  refine ⟨done, rest, ⟨hsplit, hwalked.loads, ?_, hcursor, fun hne hnil => ?_⟩, ?_⟩
  · rw [hwalked.records]
    rfl
  · -- a page with no record yet is neither at its limit nor full
    have hrecords : p.records = [] := by
      rw [hwalked.records, hnil]
      rfl
    cases go with
    | true =>
      rw [hnil, hend rfl] at hsplit
      exact hne hsplit
    | false =>
      obtain ⟨r, rest', -, hlimit | ⟨record, -, hfull⟩⟩ := hstop rfl
      · have := pageLimit_pos limit
        rw [hrecords] at hlimit
        exact absurd hlimit (by simp only [length_nil]; omega)
      · exact hfull.1 hrecords
  · dsimp only
    rw [changesSince, hcursor, changedSince_cursorAfter hnum hsplit]
    cases rest with
    | nil => simp
    | cons r rest => simp

/-- **A page that cannot be made** came to a row that could not be read. -/
theorem syncChanges_error (hnum : Numbered d.db)
    (h : syncChanges env d since limit scope = .error e) :
    ∃ r ∈ changedSince d.db since, recordOf env d scope r = .error e := by
  rw [syncChanges_eq hnum] at h
  cases hwalk : walk (feedRow env d (pageLimit limit) scope) (Page.start since)
      (changedSince d.db since) with
  | ok r =>
    rw [hwalk] at h
    exact absurd h (by simp [Except.map])
  | error e' =>
    rw [hwalk] at h
    cases h
    obtain ⟨done, r, rest, p', hsplit, -, herror⟩ := walked_of_error hwalk
    exact ⟨r, by rw [hsplit]; simp, herror⟩

variable {records : List SyncRecord} {next : Int} {done rest : List EntryRow}

/-- A row that was passed stands at or before the new cursor. -/
theorem PageOf.le_next (h : PageOf env d scope since records next done rest)
    (hnum : Numbered d.db) (hr : r ∈ done) : (r.cols.changeSeq : Int) ≤ next := by
  have hsorted := pairwise_changedSince hnum since
  rw [h.split] at hsorted
  rcases cursorAfter_eq since done with ⟨hnil, -⟩ | ⟨last, hlast, hcursor⟩
  · rw [hnil] at hr
    cases hr
  · rw [h.next, hcursor]
    obtain ⟨init, rfl⟩ := getLast?_eq_some_iff.mp hlast
    rcases mem_append.mp hr with hr | hr
    · have := (pairwise_append.mp (pairwise_append.mp hsorted).1).2.2 r hr last (by simp)
      omega
    · rw [mem_singleton.mp hr]

/-- A row that was not passed stands after it. -/
theorem PageOf.next_lt (h : PageOf env d scope since records next done rest)
    (hnum : Numbered d.db) (hr : r ∈ rest) : next < r.cols.changeSeq := by
  rw [h.next]
  rw [← changedSince_cursorAfter hnum h.split] at hr
  exact (mem_changedSince.mp hr).2.2

/-- A cursor never goes back, and goes on where a row was passed. -/
theorem PageOf.since_lt (h : PageOf env d scope since records next done rest)
    (hdone : done ≠ []) : since < next := by
  rcases cursorAfter_eq since done with ⟨hnil, -⟩ | ⟨last, hlast, hcursor⟩
  · exact absurd hnil hdone
  · rw [h.next, hcursor]
    have hmem : last ∈ changedSince d.db since := by
      rw [h.split]
      exact mem_append_left rest (mem_of_getLast? hlast)
    exact (mem_changedSince.mp hmem).2.2

theorem PageOf.since_le (h : PageOf env d scope since records next done rest) : since ≤ next := by
  rcases cursorAfter_eq since done with ⟨-, hcursor⟩ | ⟨last, hlast, -⟩
  · rw [h.next, hcursor]
  · exact le_of_lt (h.since_lt (fun hnil => by rw [hnil] at hlast; exact absurd hlast (by simp)))

end Panora.Panod
