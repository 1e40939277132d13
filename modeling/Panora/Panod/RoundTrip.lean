/-
  Panora.Panod.RoundTrip — exporting a history and importing it again.

  `Daemon::export` lists the live entries with `query`, pinned ones first and then the newest
  first, and packs each with its payloads.  `open_archive` gives the records back, and
  `Daemon::import` makes a row of each, one after the other.  A row takes over the time of the
  last sighting, and it takes the next id.  `query` lists rows of one time by falling ids, and
  the import has numbered them in the order they were listed in: entries that were last seen in
  the same second come back in reverse.

  Main results:
    * `openArchive_buildArchive` — an archive opens as what was packed;
    * `exec_importAll_fresh` — the rows of an import, in the order of the archive;
    * `round_trips_iff` — when the listing is the same again;
    * `limit_follows_listing_iff` — when the entry limit takes what is listed last.
-/
import Panora.Panod.Made

namespace Panora.Panod

open Storage Storage.Database Lib Lib.Fallible Lib.Op Lib.Table List

/-! ## §1. Opening an archive -/

/-- The bytes of a file of the archive; a later file takes the place of one of its name. -/
def Archive.file (archive : Archive) (hash : String) : Option Bytes :=
  (archive.blobs.reverse.find? (fun blob => blob.1 = hash)).map Prod.snd

/-- One payload out of an archive, if its bytes are there and have the hash they are filed
    under. -/
def Archive.payload (env : Env) (archive : Archive) (ref : String × String) :
    Except Error MimePayload :=
  match archive.file ref.2 with
  | none => .error (.storage ("backup archive is missing blob " ++ ref.2))
  | some data =>
    if env.hash.contentHash data ≠ ref.2 then
      .error (.storage ("backup archive blob " ++ ref.2 ++ " failed its integrity check"))
    else .ok ⟨ref.1, data⟩

/-- Unpack an archive. -/
def openArchive (env : Env) (archive : Archive) :
    Except Error (List (BackupEntry × List MimePayload)) :=
  archive.manifest.mapM (fun entry =>
    (entry.payloads.mapM (archive.payload env)).map (fun payloads => (entry, payloads)))

section Opening

variable {env : Env} {records : List (BackupEntry × List MimePayload)}

/-- What is in an archive was put there. -/
theorem mem_of_mem_foldl_addBlob (blobs : List (String × Bytes)) :
    ∀ (acc : List (String × Bytes)) {blob : String × Bytes},
      blob ∈ blobs.foldl addBlob acc → blob ∈ acc ∨ blob ∈ blobs := by
  induction blobs with
  | nil => exact fun acc blob h => .inl h
  | cons b blobs ih =>
    intro acc blob h
    rcases ih (addBlob acc b) h with h | h
    · unfold addBlob at h
      split at h
      · exact .inl h
      · rcases mem_append.mp h with h | h
        · exact .inl h
        · rw [mem_singleton.mp h]
          exact .inr mem_cons_self
    · exact .inr (mem_cons_of_mem b h)

/-- The file of a payload holds the payload's bytes. -/
theorem file_buildArchive (hpacked : ∀ record ∈ records, Packed env record)
    (hnames : ∀ p ∈ records.flatMap Prod.snd, ∀ q ∈ records.flatMap Prod.snd,
      env.hash.contentHash p.data = env.hash.contentHash q.data → p.data = q.data)
    {p : MimePayload} (hp : p ∈ records.flatMap Prod.snd) :
    (buildArchive records).file (env.hash.contentHash p.data) = some p.data := by
  obtain ⟨blob, hblob, hname⟩ := mem_map.mp (mem_blobs_buildArchive hpacked hp)
  unfold Archive.file
  cases hfind : (buildArchive records).blobs.reverse.find?
      (fun blob => blob.1 = env.hash.contentHash p.data) with
  | none =>
    have hnone := find?_eq_none.mp hfind blob (mem_reverse.mpr hblob)
    exact absurd hname (by simpa using hnone)
  | some found =>
    have hfound := find?_some hfind
    have hmem := mem_reverse.mp (mem_of_find?_eq_some hfind)
    rw [blobs_buildArchive hpacked] at hmem
    rcases mem_of_mem_foldl_addBlob _ [] hmem with hnil | hmem
    · cases hnil
    · obtain ⟨q, hq, rfl⟩ := mem_map.mp hmem
      rw [Option.map_some, hnames q hq p hp (of_decide_eq_true hfound)]

/-- **An archive opens as what was packed.** -/
theorem openArchive_buildArchive (hpacked : ∀ record ∈ records, Packed env record)
    (hnames : ∀ p ∈ records.flatMap Prod.snd, ∀ q ∈ records.flatMap Prod.snd,
      env.hash.contentHash p.data = env.hash.contentHash q.data → p.data = q.data) :
    openArchive env (buildArchive records) = .ok records := by
  have hrecord : ∀ record ∈ records, (record.1.payloads.mapM
      ((buildArchive records).payload env)).map (fun payloads => (record.1, payloads))
        = .ok record := by
    intro record hrecord
    have hpayload : ∀ p ∈ record.2, (buildArchive records).payload env
        (p.mime, env.hash.contentHash p.data) = .ok p := by
      intro p hp
      unfold Archive.payload
      rw [file_buildArchive hpacked hnames (mem_flatMap.mpr ⟨record, hrecord, hp⟩)]
      exact if_neg (not_not.mpr rfl)
    rw [hpacked record hrecord, mapM_map]
    rw [show record.2.mapM ((buildArchive records).payload env ∘ fun p =>
      (p.mime, env.hash.contentHash p.data)) = .ok (record.2.map id) from mapM_eq_ok hpayload,
      map_id]
    rfl
  unfold openArchive
  rw [show (buildArchive records).manifest = records.map Prod.fst from rfl, mapM_map]
  exact (mapM_eq_ok hrecord).trans (by rw [map_id'])

end Opening

/-! ## §2. Importing one entry -/

/-- The key an imported record gets. -/
def importKey (env : Env) (record : BackupEntry × List MimePayload) : EntryKey :=
  ⟨env.hash.payloadHash record.2, record.1.selection⟩

/-- An import up to its payloads. -/
def importRow (env : Env) (record : BackupEntry) (payloads : List MimePayload) : Request Nat := do
  let lamport ← updateDb tickLamport
  let id ← step (fun d =>
    let (id, db) := d.db.upsertEntry d.dbCipher (importedEntry env record payloads lamport)
    (id, { d with db }))
  changeDb (fun db => db.stamp id lamport env.deviceId)
  markImported env record payloads id
  pure id

theorem importEntry_eq (env : Env) (record : BackupEntry) (payloads : List MimePayload) :
    importEntry env record payloads = (do
      let id ← importRow env record payloads
      payloads.forM (fun p => storeBlob env id p.mime p.data)
      pinImported record id
      getEntry id) := by
  simp only [importEntry, importRow, bind_assoc, pure_bind]

/-- The row shows what the record says of the entry, its pin apart. -/
structure Restores (env : Env) (cipher : Key) (record : BackupEntry × List MimePayload)
    (r : EntryRow) : Prop where
  key : r.key = importKey env record
  preview : (rowToEntry cipher r).preview = record.1.preview
  kind : r.cols.kind = record.1.kind
  lastSeenAt : r.cols.lastSeenAt = record.1.lastSeenAt
  sensitive : r.cols.sensitive = record.1.sensitive
  live : r.cols.deleted = false

variable {rows : List EntryRow}

section Import

variable {env : Env} {d d' : Daemon} {k : EntryKey} {r : EntryRow}

theorem exec_markImported (env : Env) (record : BackupEntry) (payloads : List MimePayload)
    (h : d.db.entries.find k = some r) :
    ∃ d', exec (markImported env record payloads r.id) d = (.ok (), d') ∧
      d.db.Wrote k { r with cols := if record.sensitive then r.cols.flagged else r.cols } d'.db ∧
      SameBlobs d d' ∧ d'.dbCipher = d.dbCipher := by
  unfold markImported
  by_cases hsensitive : record.sensitive = true
  · rw [if_pos hsensitive]
    simp only [hsensitive, if_true]
    exact ⟨_, rfl, wrote_plainUpdate h Cols.flagged, ⟨rfl, rfl, rfl⟩, rfl⟩
  · rw [if_neg hsensitive]
    simp only [hsensitive]
    split
    · split
      · exact ⟨_, rfl, (Wrote.refl h).of_entries_eq rfl, ⟨rfl, rfl, rfl⟩, rfl⟩
      · exact ⟨d, rfl, Wrote.refl h, SameBlobs.refl d, rfl⟩
    · exact ⟨d, rfl, Wrote.refl h, SameBlobs.refl d, rfl⟩

/-- **An import up to its payloads** writes its own row alone, and where its key is new the
    row shows what the record says. -/
theorem exec_importRow (env : Env) (record : BackupEntry × List MimePayload) (d : Daemon) :
    ∃ d' row, exec (importRow env record.1 record.2) d = (.ok row.id, d') ∧
      d.db.Wrote (importKey env record) row d'.db ∧ SameBlobs d d' ∧
      d'.dbCipher = d.dbCipher ∧
      (d.db.entries.find (importKey env record) = none → row.id = d.db.entries.nextId ∧
        row.cols.pinned = false ∧ Restores env d.dbCipher record row) := by
  let fresh := importedEntry env record.1 record.2 d.db.tickLamport.1
  let up := d.db.tickLamport.2.upsertedRow d.dbCipher fresh
  have hupserted : (d.db.tickLamport.2.upsertEntry d.dbCipher fresh).1 = up.id ∧
      d.db.tickLamport.2.Wrote (importKey env record) up
        (d.db.tickLamport.2.upsertEntry d.dbCipher fresh).2 :=
    wrote_upsertEntry _ _ _
  obtain ⟨hid, hupsert⟩ := hupserted
  obtain ⟨db2, hstamp, hwrote2⟩ := wrote_stamp hupsert.row d.db.tickLamport.1 env.deviceId
  obtain ⟨d3, hmark, hwrote3, hsame3, hcipher3⟩ :=
    exec_markImported env record.1 record.2 (d := { d with db := db2 }) hwrote2.row
  have hrefs2 : db2.entryBlobs = d.db.entryBlobs := by
    rw [changing_eq hstamp, entryBlobs_trackedUpdate]
    exact (upsertEntry_eq _ _ _).2
  have hwrote := (hupsert.trans hwrote2).trans hwrote3
  refine ⟨d3, _, ?_, ⟨hwrote.row, hwrote.entries⟩,
    ⟨hsame3.refs.trans hrefs2, hsame3.blobs, hsame3.blobCipher⟩, hcipher3, ?_⟩
  · unfold importRow
    rw [exec_bind_ok (exec_updateDb _ d), exec_bind_ok (exec_step _ _)]
    dsimp only
    rw [show (d.db.tickLamport.2.upsertEntry d.dbCipher
      (importedEntry env record.1 record.2 d.db.tickLamport.1)).1 = up.id from hid]
    rw [exec_bind_ok (exec_changeDb_ok hstamp), exec_bind_ok hmark]
    rfl
  · intro hnew
    have hup : up = ⟨d.db.entries.nextId, importKey env record,
        fresh.cols d.dbCipher (d.db.tickLamport.2.changeSeq + 1)⟩ := by
      show d.db.tickLamport.2.upsertedRow d.dbCipher fresh = _
      unfold upsertedRow
      rw [show d.db.tickLamport.2.entries.find fresh.key = none from hnew]
      rfl
    have hshown : ∀ c : Cols, openStored d.dbCipher
        (previewAad (importKey env record).contentHash) c.preview = some record.1.preview →
        (rowToEntry d.dbCipher ⟨d.db.entries.nextId, importKey env record, c⟩).preview
          = record.1.preview := by
      intro c hc
      show (openStored _ _ c.preview).getD _ = _
      rw [hc]
      rfl
    rw [hup]
    by_cases hsensitive : record.1.sensitive = true
    · rw [if_pos hsensitive]
      exact ⟨rfl, rfl, rfl, hshown _ (openStored_seal _ _ _), rfl, rfl, hsensitive.symm, rfl⟩
    · rw [if_neg hsensitive]
      exact ⟨rfl, rfl, rfl, hshown _ (openStored_seal _ _ _), rfl, rfl,
        (Bool.eq_false_iff.mpr hsensitive).symm, rfl⟩

/-- Pinning an imported row. -/
theorem exec_pinImported (record : BackupEntry) (h : d.db.entries.find k = some r) :
    ∃ d' row, exec (pinImported record r.id) d = (.ok (), d') ∧ d.db.Wrote k row d'.db ∧
      row.id = r.id ∧ SameBlobs d d' ∧ d'.dbCipher = d.dbCipher ∧
      (r.cols.pinned = false → row.cols.pinned = record.pinned) ∧
      ∀ env payloads, Restores env d.dbCipher (record, payloads) r →
        Restores env d.dbCipher (record, payloads) row := by
  unfold pinImported
  by_cases hpinned : record.pinned = true
  · rw [if_pos hpinned]
    refine ⟨_, _, exec_changeDb_ok (changing_ok h _),
      wrote_trackedUpdate h (fun c => c.pinnedAs true), rfl,
      ⟨entryBlobs_trackedUpdate _ _ _, rfl, rfl⟩, rfl, fun _ => hpinned.symm, ?_⟩
    intro env payloads hrestores
    exact ⟨hrestores.key, hrestores.preview, hrestores.kind, hrestores.lastSeenAt, hrestores.sensitive,
      hrestores.live⟩
  · rw [if_neg hpinned]
    refine ⟨d, r, rfl, Wrote.refl h, rfl, SameBlobs.refl d, rfl, ?_, fun _ _ hrestores => hrestores⟩
    intro hfree
    rw [hfree, Bool.eq_false_iff.mpr hpinned]

/-- What importing a record does to the row `row` of its key, and beside it. -/
structure Imports (env : Env) (record : BackupEntry × List MimePayload) (d d' : Daemon)
    (row : EntryRow) : Prop where
  wrote : d.db.Wrote (importKey env record) row d'.db
  cipher : d'.dbCipher = d.dbCipher
  fresh : d.db.entries.find (importKey env record) = none → row.id = d.db.entries.nextId ∧
    row.cols.pinned = record.1.pinned ∧ Restores env d.dbCipher record row
  holds : ∀ all, Storable all record.2 → Apart env.hash d all → Holds env.hash d row.id [] →
    Holds env.hash d' row.id record.2 ∧ Beside env.hash all row.id d d'

/-- **Importing one entry** succeeds. -/
theorem exec_importEntry (env : Env) (record : BackupEntry × List MimePayload) (d : Daemon) :
    ∃ entry d' row, exec (importEntry env record.1 record.2) d = (.ok entry, d') ∧
      Imports env record d d' row := by
  obtain ⟨d1, row1, hrow, hwrote1, hsame1, hcipher1, hfresh1⟩ := exec_importRow env record d
  obtain ⟨d2, hblobs, haside⟩ := exec_storeBlobs env record.2 d1 hwrote1.get
  have hrow2 : d2.db.entries.find (importKey env record) = some row1 := by
    rw [haside.entries]
    exact hwrote1.row
  obtain ⟨d3, row, hpin, hwrote3, hid, hsame3, hcipher3, hpinned, hrestores⟩ :=
    exec_pinImported record.1 hrow2
  have hcipher : d2.dbCipher = d.dbCipher := haside.dbCipher.trans hcipher1
  refine ⟨rowToEntry d3.dbCipher row, d3, row, ?_, (hwrote1.of_entries_eq haside.entries).trans hwrote3,
    hcipher3.trans hcipher, ?_, ?_⟩
  · rw [importEntry_eq, exec_bind_ok hrow, exec_bind_ok hblobs, exec_bind_ok hpin]
    exact exec_getEntry_ok (hid ▸ hwrote3.get)
  · intro hnew
    obtain ⟨hnext, hfree, hshown⟩ := hfresh1 hnew
    refine ⟨hid.trans hnext, hpinned hfree, ?_⟩
    rw [← hcipher] at hshown ⊢
    exact hrestores env record.2 hshown
  · intro all hstorable happart hnone
    rw [hid] at hnone ⊢
    have hbeside1 : Beside env.hash all row1.id d d1 := beside_of_sameBlobs hsame1
    obtain ⟨d2', hrun, hholds, -⟩ := exec_storeBlobs_holds record.2 d1 [] hstorable.known
      hstorable.formats hstorable.nodup hwrote1.get (hbeside1.apart happart)
      (hnone.of_sameBlobs hsame1)
    obtain rfl : d2 = d2' := (Prod.mk.inj (hblobs.symm.trans hrun)).2
    have hbeside2 : Beside env.hash all row1.id d d2 := by
      have hstep : ∀ p ∈ record.2, ∀ d' r', d'.db.entries.get row1.id = some r' →
          Beside env.hash all row1.id d d' →
          Beside env.hash all row1.id d (exec (storeBlob env row1.id p.mime p.data) d').2 :=
        fun p hp d' r' hrow hd => hd.trans (beside_storeBlob env hrow (hstorable.known hp))
      have hkeeps := storeBlobs_keeps env (Beside env.hash all row1.id d) hstep record.2 d1
        (Subset.refl _) hwrote1.get hbeside1
      rw [hblobs] at hkeeps
      exact hkeeps
    exact ⟨hholds.of_sameBlobs hsame3, hbeside2.trans (beside_of_sameBlobs hsame3)⟩

/-! ## §3. Importing an archive -/

theorem importAll_cons (env : Env) (record : BackupEntry × List MimePayload)
    (records : List (BackupEntry × List MimePayload)) :
    importAll env (record :: records)
      = importEntry env record.1 record.2 >>= fun _ => importAll env records := by
  unfold importAll
  rw [forM_eq_forM, forM_cons, bind_assoc]
  rfl

/-- Importing succeeds, and every key it adds is one of its records'. -/
theorem exec_importAll (env : Env) (records : List (BackupEntry × List MimePayload)) :
    ∀ d, ∃ d', exec (importAll env records) d = (.ok (), d') ∧
      ∀ r ∈ d'.db.entries.rows, (∃ r0 ∈ d.db.entries.rows, r0.key = r.key) ∨
        r.key ∈ records.map (importKey env) := by
  induction records with
  | nil => exact fun d => ⟨d, rfl, fun r hr => .inl ⟨r, hr, rfl⟩⟩
  | cons record records ih =>
    intro d
    obtain ⟨entry, d1, row, hentry, himports⟩ := exec_importEntry env record d
    obtain ⟨d', hrun, hkeys⟩ := ih d1
    refine ⟨d', ?_, ?_⟩
    · rw [importAll_cons, exec_bind_ok hentry]
      exact hrun
    · intro r hr
      rcases hkeys r hr with ⟨r0, hr0, hkey⟩ | hmem
      · by_cases hown : r0.key = importKey env record
        · right
          rw [← hkey, hown]
          exact mem_cons_self
        · left
          have hfind : d1.db.entries.find r0.key = some r0 := find_eq_some.mpr ⟨hr0, rfl⟩
          rw [himports.wrote.others r0.key hown] at hfind
          exact ⟨r0, (find_eq_some.mp hfind).1, hkey⟩
      · exact .inr (mem_cons_of_mem _ hmem)

/-- The rows an import has made so far, one for each record and in the order of the archive. -/
structure Landed (env : Env) (all : List MimePayload)
    (records : List (BackupEntry × List MimePayload)) (rows : List EntryRow) (d : Daemon) :
    Prop where
  perm : d.db.entries.rows.Perm rows
  shown : Forall₂ (fun record r => Restores env d.dbCipher record r ∧
    r.cols.pinned = record.1.pinned ∧ Holds env.hash d r.id record.2) records rows
  rising : rows.Pairwise (fun a b => a.id < b.id)
  apart : Apart env.hash d all
  owned : ∀ b ∈ d.db.entryBlobs, ∃ r ∈ rows, r.id = b.entryId

variable {all : List MimePayload}

/-- One more record, of a key that is new. -/
theorem Landed.entry {done : List (BackupEntry × List MimePayload)}
    {record : BackupEntry × List MimePayload} {row : EntryRow}
    (h : Landed env all done rows d) (himports : Imports env record d d' row)
    (hnew : d.db.entries.find (importKey env record) = none) (hstorable : Storable all record.2) :
    Landed env all (done ++ [record]) (rows ++ [row]) d' := by
  obtain ⟨hid, hpinned, hrestores⟩ := himports.fresh hnew
  have hless : ∀ r ∈ rows, r.id < row.id := by
    intro r hr
    rw [hid]
    exact id_lt_nextId (h.perm.mem_iff.mpr hr)
  have hnone : Holds env.hash d row.id [] := by
    refine holds_nil ?_
    intro b hb heq
    obtain ⟨r, hr, hrid⟩ := h.owned b hb
    exact Nat.ne_of_lt (hless r hr) (hrid.trans heq)
  obtain ⟨hholds, hbeside⟩ := himports.holds all hstorable h.apart hnone
  refine ⟨?_, ?_, ?_, hbeside.apart h.apart, ?_⟩
  · rw [himports.wrote.rows_append hnew]
    exact h.perm.append_right _
  · rw [himports.cipher]
    refine rel_append (forall₂_iff_zip.mpr ⟨h.shown.length_eq, ?_⟩)
      (.cons ⟨hrestores, hpinned, hholds⟩ .nil)
    intro before r hmem
    obtain ⟨hshown, hpin, hheld⟩ := (forall₂_iff_zip.mp h.shown).2 hmem
    have hne : r.id ≠ row.id := Nat.ne_of_lt (hless r (of_mem_zip hmem).2)
    exact ⟨hshown, hpin, hbeside.others r.id before.2 hne hheld⟩
  · rw [pairwise_append]
    refine ⟨h.rising, pairwise_singleton _ _, ?_⟩
    intro a ha b hb
    rw [mem_singleton.mp hb]
    exact hless a ha
  · intro b hb
    rcases hbeside.refs b hb with hold | hown
    · obtain ⟨r, hr, hrid⟩ := h.owned b hold
      exact ⟨r, mem_append_left _ hr, hrid⟩
    · exact ⟨row, mem_append_right _ mem_cons_self, hown.symm⟩

/-- **The rows of an import** whose records have different keys: one for each record, numbered
    in the order of the archive. -/
theorem exec_importAll_fresh :
    ∀ (records done : List (BackupEntry × List MimePayload)) (rows : List EntryRow) (d : Daemon),
      Landed env all done rows d → ((done ++ records).map (importKey env)).Nodup →
      (∀ record ∈ records, Storable all record.2) →
      ∃ d' rows', exec (importAll env records) d = (.ok (), d') ∧
        Landed env all (done ++ records) rows' d' := by
  intro records
  induction records with
  | nil =>
    intro done rows d h _ _
    rw [append_nil]
    exact ⟨d, rows, rfl, h⟩
  | cons record records ih =>
    intro done rows d h hnodup hstorable
    have hnew : d.db.entries.find (importKey env record) = none := by
      rw [find_eq_none]
      intro r hr hkey
      -- the rows that are there have the keys of the records before
      have hkeys : rows.map Row.key = done.map (importKey env) := by
        refine (Keyed.map_eq_of_forall₂ (fun record r h => ?_) h.shown).symm
        exact h.1.key.symm
      have hin : r.key ∈ done.map (importKey env) := by
        rw [← hkeys]
        exact mem_map_of_mem (h.perm.mem_iff.mp hr)
      rw [map_append, nodup_append] at hnodup
      exact hnodup.2.2 r.key hin (importKey env record) mem_cons_self hkey
    obtain ⟨entry, d1, row, hentry, himports⟩ := exec_importEntry env record d
    have hlanded := h.entry himports hnew (hstorable record mem_cons_self)
    obtain ⟨d', rows', hrun, hall⟩ := ih (done ++ [record]) (rows ++ [row]) d1 hlanded
      (by rw [append_assoc]; exact hnodup)
      (fun record' hmem => hstorable record' (mem_cons_of_mem record hmem))
    refine ⟨d', rows', ?_, ?_⟩
    · rw [importAll_cons, exec_bind_ok hentry]
      exact hrun
    · rw [append_assoc] at hall
      exact hall

theorem landed_blank (env : Env) (key : Key) (hnames : ∀ p ∈ all, ∀ q ∈ all,
      env.hash.contentHash p.data = env.hash.contentHash q.data → p.data = q.data) :
    Landed env all [] [] (blank key) where
  perm := Perm.refl _
  shown := .nil
  rising := Pairwise.nil
  apart := by
    refine ⟨hnames, ?_⟩
    intro p _ hsome
    exact absurd hsome (by simp [blank, BlobStore.file, BlobStore.empty, Keyed.lookup])
  owned b hb := absurd hb (by simp [blank, Database.empty])

end Import

/-! ## §4. The listing -/

/-- The live rows, as `query` orders them. -/
def shownRows (d : Daemon) : List EntryRow :=
  (d.db.entries.rows.filter (fun r => !r.cols.deleted)).insertionSort listedBefore

/-- What a listing shows of an entry, with its payloads if they can be read. -/
structure ListedEntry where
  contentHash : String
  kind : ContentKind
  preview : String
  pinned : Bool
  sensitive : Bool
  selection : Selection
  lastSeenAt : Int
  payloads : Option (List MimePayload)
  deriving DecidableEq

def listEntry (d : Daemon) (entry : Entry) : ListedEntry where
  contentHash := entry.contentHash
  kind := entry.kind
  preview := entry.preview
  pinned := entry.pinned
  sensitive := entry.sensitive
  selection := entry.selection
  lastSeenAt := entry.lastSeenAt
  payloads := (loadPayloads d entry.id).toOption

/-- The whole history, in the order `query` lists it. -/
def listing (d : Daemon) : List ListedEntry := (queryAll d).map (listEntry d)

/-- Export a history and import the archive into a new one. -/
def reimported (env : Env) (key : Key) (d : Daemon) : Except Error Daemon :=
  (exportArchive env d).bind fun archive =>
    (openArchive env archive).bind fun records =>
      match exec (importAll env records) (blank key) with
      | (.ok _, d') => .ok d'
      | (.error e, _) => .error e

/-- The new history lists what the old one does. -/
def RoundTrips (env : Env) (key : Key) (d : Daemon) : Prop :=
  (reimported env key d).map listing = .ok (listing d)

instance (env : Env) (key : Key) (d : Daemon) : Decidable (RoundTrips env key d) :=
  inferInstanceAs (Decidable (_ = _))

/-- What a row is listed by, its id apart. -/
def listedAt (r : EntryRow) : Bool × Int := (r.cols.pinned, r.cols.lastSeenAt)

/-- Pinned above unpinned, then the newer above the older. -/
def Above (p q : Bool × Int) : Prop := p.1 = q.1 ∧ q.2 < p.2 ∨ p.1 = true ∧ q.1 = false

/-- No two live entries share their pin and the time they were last seen. -/
def NoTies (d : Daemon) : Prop :=
  ∀ r ∈ d.db.entries.rows, ∀ r' ∈ d.db.entries.rows, r.cols.deleted = false →
    r'.cols.deleted = false → listedAt r = listedAt r' → r = r'

/-- The payloads of every live entry still hash to its content hash. -/
def SelfHashed (env : Env) (d : Daemon) : Prop :=
  ∀ r ∈ d.db.entries.rows, r.cols.deleted = false → ∀ payloads,
    loadPayloads d r.id = .ok payloads → r.key.contentHash = env.hash.payloadHash payloads

section Listing

variable {env : Env} {d : Daemon} {a b c r : EntryRow}

theorem listedBefore_iff : listedBefore a b ↔
    Above (listedAt a) (listedAt b) ∨ listedAt a = listedAt b ∧ b.id ≤ a.id := by
  unfold listedBefore Above listedAt
  rw [Prod.mk.injEq]
  cases a.cols.pinned <;> cases b.cols.pinned <;> simp <;> omega

instance : Std.Total listedBefore := by
  refine ⟨fun a b => ?_⟩
  unfold listedBefore
  cases a.cols.pinned <;> cases b.cols.pinned <;> simp <;> omega

instance : IsTrans EntryRow listedBefore := by
  refine ⟨fun a b c => ?_⟩
  unfold listedBefore
  cases a.cols.pinned <;> cases b.cols.pinned <;> cases c.cols.pinned <;> simp <;> omega

theorem id_eq_of_listedBefore (hab : listedBefore a b) (hba : listedBefore b a) : a.id = b.id := by
  revert hab hba
  unfold listedBefore
  cases a.cols.pinned <;> cases b.cols.pinned <;> simp <;> omega

theorem mem_shownRows : r ∈ shownRows d ↔ r ∈ d.db.entries.rows ∧ r.cols.deleted = false := by
  unfold shownRows
  rw [mem_insertionSort, mem_filter, Bool.not_eq_true']

theorem nodup_shownRows (d : Daemon) : ((shownRows d).map Row.key).Nodup := by
  have hperm : (shownRows d).Perm (d.db.entries.rows.filter (fun r => !r.cols.deleted)) :=
    perm_insertionSort _ _
  rw [(hperm.map Row.key).nodup_iff]
  exact d.db.entries.keysNodup.sublist (filter_sublist.map Row.key)

/-- No ties: no two rows of the listing stand at one place. -/
theorem noTies_iff : NoTies d ↔ ((shownRows d).map listedAt).Nodup := by
  rw [nodup_map_iff_inj_on (nodup_shownRows d).of_map]
  unfold NoTies
  simp only [mem_shownRows]
  exact ⟨fun h r hr r' hr' => h r hr.1 r' hr'.1 hr.2 hr'.2,
    fun h r hr r' hr' hlive hlive' => h r ⟨hr, hlive⟩ r' ⟨hr', hlive'⟩⟩

/-- Places in the order of the listing, with no tie, lie strictly above each other. -/
theorem above_of_nodup (hsorted : rows.Pairwise listedBefore)
    (hnodup : (rows.map listedAt).Nodup) : (rows.map listedAt).Pairwise Above := by
  rw [Nodup, pairwise_map] at hnodup
  rw [pairwise_map]
  refine (hsorted.and hnodup).imp ?_
  intro a b h
  rcases listedBefore_iff.mp h.1 with habove | htie
  · exact habove
  · exact absurd htie.1 h.2

/-- **Rows whose ids rise are listed in that order when no two of them tie.** -/
theorem sorted_iff_of_rising (hrising : rows.Pairwise (fun a b => a.id < b.id)) :
    rows.Pairwise listedBefore ↔ (rows.map listedAt).Pairwise Above := by
  rw [pairwise_map]
  constructor
  · intro hsorted
    refine (hsorted.and hrising).imp ?_
    intro a b h
    rcases listedBefore_iff.mp h.1 with habove | ⟨-, hid⟩
    · exact habove
    · exact absurd h.2 (Nat.not_lt.mpr hid)
  · exact fun habove => habove.imp (fun h => listedBefore_iff.mpr (.inl h))

theorem nodup_of_above {places : List (Bool × Int)} (h : places.Pairwise Above) : places.Nodup := by
  refine h.imp ?_
  rintro p q habove rfl
  unfold Above at habove
  rcases habove with ⟨-, hlt⟩ | ⟨htrue, hfalse⟩
  · omega
  · rw [htrue] at hfalse
    exact Bool.false_ne_true hfalse.symm

end Listing

/-! ## §5. There and back -/

/-- The payloads of a row, none if they cannot be read. -/
def loadedOf (d : Daemon) (r : EntryRow) : List MimePayload :=
  ((loadPayloads d r.id).toOption).getD []

/-- A row as it goes into an archive. -/
def packedRow (env : Env) (d : Daemon) (r : EntryRow) : BackupEntry × List MimePayload :=
  (backupEntry env (rowToEntry d.dbCipher r) (loadedOf d r), loadedOf d r)

section Trip

variable {env : Env} {all : List MimePayload} {d d' : Daemon} {key : Key} {r : EntryRow}
  {rows : List EntryRow}

/-- The payloads of a live row load in the order they are always read in. -/
theorem Stocked.loads (hs : Stocked env.hash all (fun _ => Storable all) d)
    (hr : r ∈ shownRows d) : loadPayloads d r.id = .ok (loadedOf d r) ∧
      Storable all (loadedOf d r) ∧ inOrder (loadedOf d r) = loadedOf d r := by
  obtain ⟨hmem, hlive⟩ := mem_shownRows.mp hr
  rcases hs.stock r hmem with ⟨payloads, hstorable, hholds⟩ | ⟨hdel, -⟩
  · have hload : loadPayloads d r.id = .ok (inOrder payloads) :=
      loadPayloads_eq_inOrder (get_eq_some.mpr ⟨hmem, rfl⟩) hlive hholds hstorable.nodup
    have hpayloads : loadedOf d r = inOrder payloads := by
      unfold loadedOf
      rw [hload]
      rfl
    have hperm := perm_inOrder payloads
    rw [hpayloads]
    refine ⟨hload, ⟨?_, ?_, ?_⟩, ?_⟩
    · exact fun p hp => hstorable.known (hperm.mem_iff.mp hp)
    · exact (hperm.map MimePayload.mime).nodup_iff.mpr hstorable.nodup
    · exact fun p hp => hstorable.formats p (hperm.mem_iff.mp hp)
    · exact (inOrder_congr hperm.symm hstorable.nodup).symm
  · rw [hlive] at hdel
    exact absurd hdel Bool.false_ne_true

/-- What the export packs, importing it makes a history of. -/
theorem reimported_eq (hs : Stocked env.hash all (fun _ => Storable all) d) (key : Key) :
    ∃ d', exec (importAll env ((shownRows d).map (packedRow env d))) (blank key)
        = (.ok (), d') ∧ reimported env key d = .ok d' := by
  have hexport : exportArchive env d
      = .ok (buildArchive ((shownRows d).map (packedRow env d))) := by
    have hpack : ∀ r ∈ shownRows d, exportEntry env d (rowToEntry d.dbCipher r)
        = .ok (packedRow env d r) := by
      intro r hr
      refine map_ok_iff.mpr ⟨loadedOf d r, (hs.loads hr).1, rfl⟩
    unfold exportArchive
    rw [show queryAll d = (shownRows d).map (rowToEntry d.dbCipher) from rfl, mapM_map]
    rw [show (shownRows d).mapM (exportEntry env d ∘ rowToEntry d.dbCipher)
      = .ok ((shownRows d).map (packedRow env d)) from mapM_eq_ok hpack]
    rfl
  have hopen : openArchive env (buildArchive ((shownRows d).map (packedRow env d)))
      = .ok ((shownRows d).map (packedRow env d)) := by
    have hall : ∀ p ∈ ((shownRows d).map (packedRow env d)).flatMap Prod.snd, p ∈ all := by
      intro p hp
      obtain ⟨record, hrecord, hp⟩ := mem_flatMap.mp hp
      obtain ⟨r, hr, rfl⟩ := mem_map.mp hrecord
      exact (hs.loads hr).2.1.known hp
    refine openArchive_buildArchive ?_ ?_
    · intro record hrecord
      obtain ⟨r, -, rfl⟩ := mem_map.mp hrecord
      rfl
    · exact fun p hp q hq => hs.apart.names p (hall p hp) q (hall q hq)
  obtain ⟨d', hrun, -⟩ := exec_importAll env ((shownRows d).map (packedRow env d)) (blank key)
  refine ⟨d', hrun, ?_⟩
  unfold reimported
  rw [hexport, ok_bind, hopen, ok_bind, hrun]

/-- What a row shows of itself in the listing. -/
theorem listEntry_row (hload : loadPayloads d r.id = .ok (loadedOf d r)) :
    listEntry d (rowToEntry d.dbCipher r)
      = ⟨r.key.contentHash, r.cols.kind, (rowToEntry d.dbCipher r).preview, r.cols.pinned,
          r.cols.sensitive, r.key.selection, r.cols.lastSeenAt, some (loadedOf d r)⟩ := by
  show ListedEntry.mk _ _ _ _ _ _ _ (loadPayloads d r.id).toOption = _
  rw [hload]
  rfl

/-- What an imported record shows in the listing. -/
def importedAs (env : Env) (record : BackupEntry × List MimePayload) : ListedEntry where
  contentHash := env.hash.payloadHash record.2
  kind := record.1.kind
  preview := record.1.preview
  pinned := record.1.pinned
  sensitive := record.1.sensitive
  selection := record.1.selection
  lastSeenAt := record.1.lastSeenAt
  payloads := some record.2

/-- The rows of an import show what was packed. -/
theorem Landed.listed {records : List (BackupEntry × List MimePayload)}
    (h : Landed env all records rows d')
    (hordered : ∀ record ∈ records, Storable all record.2 ∧ inOrder record.2 = record.2) :
    rows.map (fun r => listEntry d' (rowToEntry d'.dbCipher r))
      = records.map (importedAs env) := by
  have hshown : Forall₂ (fun record r => importedAs env record
      = listEntry d' (rowToEntry d'.dbCipher r)) records rows := by
    refine forall₂_iff_zip.mpr ⟨h.shown.length_eq, ?_⟩
    intro record r hmem
    obtain ⟨hrestores, hpinned, hholds⟩ := (forall₂_iff_zip.mp h.shown).2 hmem
    obtain ⟨hrecord, hr⟩ := of_mem_zip hmem
    obtain ⟨hstorable, horder⟩ := hordered record hrecord
    have hload : loadPayloads d' r.id = .ok record.2 := by
      rw [loadPayloads_eq_inOrder (get_eq_some.mpr ⟨h.perm.mem_iff.mpr hr, rfl⟩)
        hrestores.live hholds hstorable.nodup, horder]
    show _ = ListedEntry.mk r.key.contentHash r.cols.kind (rowToEntry d'.dbCipher r).preview
      r.cols.pinned r.cols.sensitive r.key.selection r.cols.lastSeenAt
      (loadPayloads d' r.id).toOption
    rw [hload, hrestores.key, hrestores.kind, hrestores.preview, hpinned, hrestores.sensitive,
      hrestores.lastSeenAt]
    rfl
  exact (Keyed.map_eq_of_forall₂ (fun _ _ heq => heq) hshown).symm

/-- The listing of an import is its rows, sorted. -/
theorem Landed.shownRows_eq {records : List (BackupEntry × List MimePayload)}
    (h : Landed env all records rows d') : shownRows d' = rows.insertionSort listedBefore := by
  have hlive : d'.db.entries.rows.filter (fun r => !r.cols.deleted) = d'.db.entries.rows := by
    refine filter_eq_self.mpr ?_
    intro r hr
    obtain ⟨record, hmem⟩ : ∃ record, (record, r) ∈ records.zip rows := by
      have hin : r ∈ (records.zip rows).map Prod.snd := by
        rw [map_snd_zip (Nat.le_of_eq h.shown.length_eq.symm)]
        exact h.perm.mem_iff.mp hr
      obtain ⟨⟨record, r'⟩, hmem, rfl⟩ := mem_map.mp hin
      exact ⟨record, hmem⟩
    obtain ⟨hrestores, -⟩ := (forall₂_iff_zip.mp h.shown).2 hmem
    rw [hrestores.live]
    rfl
  unfold shownRows
  rw [hlive]
  refine Keyed.sort_congr h.perm ?_
  intro a ha b hb hab hba
  exact eq_of_id_eq ha hb (id_eq_of_listedBefore hab hba)

theorem listing_eq (d : Daemon) : listing d
    = (shownRows d).map (fun r => listEntry d (rowToEntry d.dbCipher r)) := by
  unfold listing
  rw [show queryAll d = (shownRows d).map (rowToEntry d.dbCipher) from rfl, map_map]
  rfl

/-- The key an entry is listed under. -/
def ListedEntry.entryKey (e : ListedEntry) : EntryKey := ⟨e.contentHash, e.selection⟩

theorem map_entryKey_listing (d : Daemon) :
    (listing d).map ListedEntry.entryKey = (shownRows d).map Row.key := by
  rw [listing_eq, map_map]
  rfl

/-- Records of different keys make a row each. -/
theorem Stocked.landed (hs : Stocked env.hash all (fun _ => Storable all) d)
    (hnodup : (((shownRows d).map (packedRow env d)).map (importKey env)).Nodup)
    (hrun : exec (importAll env ((shownRows d).map (packedRow env d))) (blank key)
      = (.ok (), d')) :
    ∃ rows, Landed env all ((shownRows d).map (packedRow env d)) rows d' ∧
      rows.map (fun r => listEntry d' (rowToEntry d'.dbCipher r))
        = (shownRows d).map (fun r => importedAs env (packedRow env d r)) := by
  have hordered : ∀ record ∈ (shownRows d).map (packedRow env d),
      Storable all record.2 ∧ inOrder record.2 = record.2 := by
    intro record hrecord
    obtain ⟨r, hr, rfl⟩ := mem_map.mp hrecord
    exact (hs.loads hr).2
  obtain ⟨d1, rows, hrun', hlanded⟩ := exec_importAll_fresh _ [] [] (blank key)
    (landed_blank env key hs.apart.names) hnodup (fun record hmem => (hordered record hmem).1)
  obtain rfl : d' = d1 := (Prod.mk.inj (hrun.symm.trans hrun')).2
  rw [nil_append] at hlanded
  refine ⟨rows, hlanded, ?_⟩
  rw [hlanded.listed hordered, map_map]
  rfl

/-- A listing that comes back has made a row of each record. -/
theorem nodup_of_listing_eq
    (hrun : exec (importAll env ((shownRows d).map (packedRow env d))) (blank key)
      = (.ok (), d')) (hlist : listing d' = listing d) :
    (((shownRows d).map (packedRow env d)).map (importKey env)).Nodup := by
  have hkeys : (shownRows d').map Row.key = (shownRows d).map Row.key := by
    rw [← map_entryKey_listing, ← map_entryKey_listing, hlist]
  have hsub : (shownRows d).map Row.key
      ⊆ ((shownRows d).map (packedRow env d)).map (importKey env) := by
    intro k hk
    rw [← hkeys] at hk
    obtain ⟨r, hr, rfl⟩ := mem_map.mp hk
    obtain ⟨d1, hrun', hadded⟩ := exec_importAll env ((shownRows d).map (packedRow env d))
      (blank key)
    obtain rfl : d' = d1 := (Prod.mk.inj (hrun.symm.trans hrun')).2
    rcases hadded r (mem_shownRows.mp hr).1 with ⟨r0, hr0, -⟩ | hmem
    · exact absurd hr0 (by simp [blank, Database.empty, Table.empty])
    · exact hmem
  -- as many keys as records, so no two records share one
  have hperm := (subperm_of_subset (nodup_shownRows d) hsub).perm_of_length_le (by simp)
  exact hperm.nodup_iff.mp (nodup_shownRows d)

/-- Where every record has a row, a listing that comes back shows that the payloads hash to
    the content hashes. -/
theorem selfHashed_of_listing_eq
    (hlanded : Landed env all ((shownRows d).map (packedRow env d)) rows d')
    (hrows : rows.map (fun r => listEntry d' (rowToEntry d'.dbCipher r))
      = (shownRows d).map (fun r => importedAs env (packedRow env d r)))
    (hlist : listing d' = listing d) : SelfHashed env d := by
  intro r hr hlive payloads hload
  have hshown : r ∈ shownRows d := mem_shownRows.mpr ⟨hr, hlive⟩
  have hin : listEntry d (rowToEntry d.dbCipher r) ∈ listing d' := by
    rw [hlist, listing_eq]
    exact mem_map.mpr ⟨r, hshown, rfl⟩
  rw [listing_eq, hlanded.shownRows_eq] at hin
  obtain ⟨row, hrow, heq⟩ := mem_map.mp hin
  have hrow' : listEntry d (rowToEntry d.dbCipher r)
      ∈ (shownRows d).map (fun r => importedAs env (packedRow env d r)) := by
    rw [← hrows, ← heq]
    exact mem_map.mpr ⟨row, (mem_insertionSort _).mp hrow, rfl⟩
  obtain ⟨s, hs', heq'⟩ := mem_map.mp hrow'
  have hhash : env.hash.payloadHash (loadedOf d s) = r.key.contentHash :=
    congrArg ListedEntry.contentHash heq'
  have hsome : some (loadedOf d s) = (loadPayloads d r.id).toOption :=
    congrArg ListedEntry.payloads heq'
  rw [hload] at hsome
  rw [← hhash, Option.some.inj hsome]

/-- A record whose payloads hash to the content hash gets the key of its entry. -/
theorem importKey_packedRow (hs : Stocked env.hash all (fun _ => Storable all) d)
    (hself : SelfHashed env d) (hr : r ∈ shownRows d) :
    importKey env (packedRow env d r) = r.key := by
  obtain ⟨hmem, hlive⟩ := mem_shownRows.mp hr
  have hhash := hself r hmem hlive _ (hs.loads hr).1
  show EntryKey.mk (env.hash.payloadHash (loadedOf d r)) r.key.selection = r.key
  rw [← hhash]

/-- **When a history comes back as it was**: no two of its live entries tie, and the payloads
    of each still hash to its content hash. -/
theorem roundTrips_iff_of_stocked (hs : Stocked env.hash all (fun _ => Storable all) d)
    (key : Key) : RoundTrips env key d ↔ NoTies d ∧ SelfHashed env d := by
  obtain ⟨d', hrun, hre⟩ := reimported_eq hs key
  have htrips : RoundTrips env key d ↔ listing d' = listing d := by
    unfold RoundTrips
    rw [hre]
    exact ⟨fun h => Except.ok.inj h, fun h => congrArg Except.ok h⟩
  -- an imported row stands at the place of its entry
  have hplaces : ∀ rows : List EntryRow, rows.map (fun r => listEntry d' (rowToEntry d'.dbCipher r))
      = (shownRows d).map (fun r => importedAs env (packedRow env d r)) →
      rows.map listedAt = (shownRows d).map listedAt := by
    intro rows hrows
    have hmap := congrArg (map (fun e : ListedEntry => (e.pinned, e.lastSeenAt))) hrows
    rw [map_map, map_map] at hmap
    exact hmap
  rw [htrips]
  constructor
  · intro hlist
    obtain ⟨rows, hlanded, hrows⟩ := hs.landed (nodup_of_listing_eq hrun hlist) hrun
    have hself : SelfHashed env d := selfHashed_of_listing_eq hlanded hrows hlist
    have hkeys : rows.map Row.key = (shownRows d).map Row.key := by
      have hmap := congrArg (map ListedEntry.entryKey) hrows
      rw [map_map, map_map] at hmap
      exact hmap.trans (map_congr_left fun r hr => importKey_packedRow hs hself hr)
    -- the listing has the rows in the order they were made in
    have hsorted : rows.insertionSort listedBefore = rows := by
      refine Keyed.eq_of_map_eq ?_ ?_ (f := Row.key)
      · rw [← hlanded.shownRows_eq, ← map_entryKey_listing, hlist, map_entryKey_listing, hkeys]
      · intro a ha b hb hab
        have ha' := hlanded.perm.mem_iff.mpr ((mem_insertionSort _).mp ha)
        exact eq_of_key_eq ha' (hlanded.perm.mem_iff.mpr hb) hab
    have hpairwise := pairwise_insertionSort listedBefore rows
    rw [hsorted] at hpairwise
    have habove := (sorted_iff_of_rising hlanded.rising).mp hpairwise
    rw [hplaces rows hrows] at habove
    exact ⟨noTies_iff.mpr (nodup_of_above habove), hself⟩
  · rintro ⟨hties, hself⟩
    have hnodup : (((shownRows d).map (packedRow env d)).map (importKey env)).Nodup := by
      have hkeys : (shownRows d).map (importKey env ∘ packedRow env d)
          = (shownRows d).map Row.key :=
        map_congr_left fun r hr => importKey_packedRow hs hself hr
      rw [map_map, hkeys]
      exact nodup_shownRows d
    obtain ⟨rows, hlanded, hrows⟩ := hs.landed hnodup hrun
    have habove : ((shownRows d).map listedAt).Pairwise Above :=
      above_of_nodup (pairwise_insertionSort listedBefore _) (noTies_iff.mp hties)
    rw [← hplaces rows hrows] at habove
    have hpairwise := (sorted_iff_of_rising hlanded.rising).mpr habove
    rw [listing_eq, hlanded.shownRows_eq, hpairwise.insertionSort_eq, hrows, listing_eq]
    refine map_congr_left ?_
    intro r hr
    obtain ⟨hmem, hlive⟩ := mem_shownRows.mp hr
    have hload := (hs.loads hr).1
    rw [listEntry_row hload, hself r hmem hlive _ hload]
    rfl

end Trip

/-! ## §6. Histories made by captures, pins and deletions -/

/-- **A backup of a history comes back as it was when no two of its live entries tie**, and
    when the payloads of each still hash to its content hash.  Two captures in one second tie;
    payloads stop hashing to it only where other bytes were captured under the same hash. -/
theorem round_trips_iff (env : Env) (key key' : Key) (makings : List Making)
    (hideal : IdealHash env.hash makings) :
    RoundTrips env key' (made key makings) ↔
      NoTies (made key makings) ∧ SelfHashed env (made key makings) :=
  roundTrips_iff_of_stocked (storable_made key hideal) key'

/-- Where the hash tells captured lists apart, ties are all that is in the way. -/
theorem selfHashed_made {env : Env} {makings : List Making} (key : Key)
    (hideal : IdealHash env.hash makings)
    (hlists : ∀ a ∈ makings.flatMap Making.captures, ∀ b ∈ makings.flatMap Making.captures,
      env.hash.payloadHash a = env.hash.payloadHash b → a = b) :
    SelfHashed env (made key makings) := by
  intro r hr hlive payloads hload
  rcases (captured_made key hideal hlists).stock r hr with ⟨held, ⟨hmem, hhash⟩, hholds⟩ | ⟨hdel, -⟩
  · obtain ⟨m, -, hheld⟩ := mem_flatMap.mp hmem
    have hpreferred : Preferred held := by
      cases m with
      | captured _ data hcaptured =>
        rw [mem_singleton.mp hheld]
        exact hcaptured.preferred
      | pinned _ _ _ => exact absurd hheld (by simp [Making.captures])
      | deleted _ _ => exact absurd hheld (by simp [Making.captures])
    rw [loadPayloads_of_holds (get_eq_some.mpr ⟨hr, rfl⟩) hlive hholds hpreferred] at hload
    rw [hhash, Except.ok.inj hload]
  · rw [hlive] at hdel
    exact absurd hdel Bool.false_ne_true

/-! ## §7. The entry limit and the listing -/

/-- The live unpinned rows, in the order they are listed in. -/
def shownUnpinned (d : Daemon) : List EntryRow := (shownRows d).filter (fun r => !r.cols.pinned)

/-- The entry limit evicts what is listed after the first `n` of them. -/
def LimitFollows (engine : Engine) (d : Daemon) (n : Nat) : Prop :=
  ∃ ids db', d.db.enforceLimit engine n = .ok (ids, db') ∧
    ids.Perm (((shownUnpinned d).drop n).map Row.id)

section Limit

variable {d : Daemon} {n : Nat} {a b : EntryRow} {l l' : List EntryRow}

/-- SQL may give rows back in any order that is by the time they were seen. -/
theorem exists_engine (hperm : l'.Perm l)
    (hsorted : l'.Pairwise (fun a b => b.cols.lastSeenAt ≤ a.cols.lastSeenAt)) :
    ∃ engine : Engine, engine.newestFirst l = l' := by
  refine ⟨⟨fun rows => if rows = l then l' else rows.insertionSort newerOrEqual, ?_, ?_⟩,
    if_pos rfl⟩
  · intro rows
    split
    next heq => rw [heq]; exact hperm
    next => exact perm_insertionSort _ _
  · intro rows
    split
    next => exact hsorted
    next =>
      refine (pairwise_insertionSort newerOrEqual rows).imp ?_
      intro a b h
      unfold newerOrEqual at h
      omega

/-- Where the first `n` rows are newer than the others, every order by time has the same ones
    after its first `n`. -/
theorem drop_perm_of_apart (hperm : l.Perm l') (hnodup : l.Nodup)
    (hsorted : l.Pairwise (fun a b => b.cols.lastSeenAt ≤ a.cols.lastSeenAt))
    (hapart : ∀ a ∈ l'.take n, ∀ b ∈ l'.drop n, b.cols.lastSeenAt < a.cols.lastSeenAt) :
    (l.drop n).Perm (l'.drop n) := by
  have hsplit : ∀ {x}, x ∈ l → x ∈ l'.take n ∨ x ∈ l'.drop n := by
    intro x hx
    rw [← mem_append, take_append_drop]
    exact hperm.mem_iff.mp hx
  have hsub : l.drop n ⊆ l'.drop n := by
    intro x hx
    rcases hsplit (mem_of_mem_drop hx) with htake | hdrop
    · -- then everything before it is among the first `n` too, and they are too many
      have hbefore : x :: l.take n ⊆ l'.take n := by
        intro y hy
        rcases mem_cons.mp hy with rfl | hy
        · exact htake
        · rcases hsplit (mem_of_mem_take hy) with hin | hout
          · exact hin
          · rw [← take_append_drop n l] at hsorted
            have hle := (pairwise_append.mp hsorted).2.2 y hy x hx
            have hlt := hapart x htake y hout
            omega
      have hfresh : (x :: l.take n).Nodup := nodup_cons.mpr
        ⟨fun hin => disjoint_take_drop hnodup (Nat.le_refl n) hin hx, hnodup.take⟩
      have hmany := (subperm_of_subset hfresh hbefore).length_le
      have hlong := length_pos_of_mem hx
      simp only [length_cons, length_take, length_drop] at hmany hlong
      omega
    · exact hdrop
  refine (subperm_of_subset hnodup.drop hsub).perm_of_length_le ?_
  rw [length_drop, length_drop, hperm.length_eq]

theorem perm_shownUnpinned (d : Daemon) : (shownUnpinned d).Perm d.db.liveUnpinned := by
  have hperm := (perm_insertionSort listedBefore
    (d.db.entries.rows.filter (fun r => !r.cols.deleted))).filter (fun r => !r.cols.pinned)
  rw [filter_filter] at hperm
  refine hperm.trans (Perm.of_eq (filter_congr ?_))
  intro r _
  exact Bool.and_comm _ _

theorem sorted_shownUnpinned (d : Daemon) :
    (shownUnpinned d).Pairwise (fun a b => b.cols.lastSeenAt ≤ a.cols.lastSeenAt) := by
  have hsorted := (pairwise_insertionSort listedBefore
    (d.db.entries.rows.filter (fun r => !r.cols.deleted))).filter (fun r => !r.cols.pinned)
  refine hsorted.imp_of_mem ?_
  intro a b ha _ h
  have hfree := (mem_filter.mp ha).2
  unfold listedBefore at h
  simp only [Bool.not_eq_true'] at hfree
  simp only [hfree, Bool.false_eq_true, and_false, false_or, false_and, or_false] at h
  omega

theorem limitFollows_iff (engine : Engine) : LimitFollows engine d n ↔
    (((engine.newestFirst d.db.liveUnpinned).drop n).map Row.id).Perm
      (((shownUnpinned d).drop n).map Row.id) := by
  obtain ⟨db', seq, hrun, -⟩ := evictRows_ok d.db
    ((engine.newestFirst d.db.liveUnpinned).drop n) fun r hr =>
      (mem_liveUnpinned.mp ((engine.perm _).mem_iff.mp (mem_of_mem_drop hr))).1
  unfold LimitFollows enforceLimit
  rw [hrun]
  constructor
  · rintro ⟨ids, db'', heq, hperm⟩
    cases heq
    exact hperm
  · exact fun hperm => ⟨_, db', rfl, hperm⟩

/-- **The entry limit follows the listing**, whichever order the rows of one time come in, exactly
    when the last entry it keeps and the first it evicts were not seen at the same time. -/
theorem limit_follows_listing_iff (d : Daemon) (n : Nat) :
    (∀ engine : Engine, LimitFollows engine d n) ↔
      ∀ a ∈ (shownUnpinned d).take n, ∀ b ∈ (shownUnpinned d).drop n,
        a.cols.lastSeenAt ≠ b.cols.lastSeenAt := by
  have hperm := perm_shownUnpinned d
  have hnodup : (shownUnpinned d).Nodup := hperm.nodup_iff.mpr (nodup_liveUnpinned d.db).of_map
  have hsorted := sorted_shownUnpinned d
  constructor
  · intro hall a ha b hb htie
    -- an engine that has `a` and `b` in each other's place
    have hmem : ∀ {x}, Equiv.swap a b x ∈ shownUnpinned d ↔ x ∈ shownUnpinned d := by
      intro x
      have ha' := mem_of_mem_take ha
      have hb' := mem_of_mem_drop hb
      rcases eq_or_ne x a with rfl | hxa
      · rw [Equiv.swap_apply_left]
        exact iff_of_true hb' ha'
      rcases eq_or_ne x b with rfl | hxb
      · rw [Equiv.swap_apply_right]
        exact iff_of_true ha' hb'
      rw [Equiv.swap_apply_of_ne_of_ne hxa hxb]
    have hseen : ∀ x, (Equiv.swap a b x).cols.lastSeenAt = x.cols.lastSeenAt := by
      intro x
      rw [Equiv.swap_apply_def]
      split_ifs with hxa hxb
      · rw [hxa, htie]
      · rw [hxb, htie]
      · rfl
    have hswapped : ((shownUnpinned d).map (Equiv.swap a b)).Perm d.db.liveUnpinned := by
      refine Perm.trans ?_ hperm
      refine (perm_ext_iff_of_nodup (hnodup.map (Equiv.swap a b).injective) hnodup).mpr ?_
      intro x
      rw [← hmem, mem_map]
      exact ⟨by rintro ⟨y, hy, rfl⟩; rwa [Equiv.swap_apply_self],
        fun hx => ⟨_, hx, Equiv.swap_apply_self a b x⟩⟩
    obtain ⟨engine, horder⟩ := exists_engine hswapped
      (pairwise_map.mpr (hsorted.imp (by intro x y h; rwa [hseen, hseen])))
    have hsame := (limitFollows_iff engine).mp (hall engine)
    rw [horder, ← map_drop] at hsame
    have hgone : a.id ∈ ((shownUnpinned d).drop n).map Row.id :=
      hsame.mem_iff.mp (mem_map.mpr ⟨a, mem_map.mpr ⟨b, hb,
        Equiv.swap_apply_right a b⟩, rfl⟩)
    obtain ⟨c, hc, hid⟩ := mem_map.mp hgone
    have hrow : ∀ {x}, x ∈ shownUnpinned d → x ∈ d.db.entries.rows :=
      fun hx => (mem_liveUnpinned.mp (hperm.mem_iff.mp hx)).1
    rw [eq_of_id_eq (hrow (mem_of_mem_drop hc)) (hrow (mem_of_mem_take ha)) hid] at hc
    exact disjoint_take_drop hnodup (Nat.le_refl n) ha hc
  · intro hapart engine
    have horder := (engine.perm d.db.liveUnpinned).trans hperm.symm
    refine (limitFollows_iff engine).mpr ((drop_perm_of_apart horder
      (horder.nodup_iff.mpr hnodup) (engine.sorted _) ?_).map Row.id)
    intro a ha b hb
    have hsplit := hsorted
    rw [← take_append_drop n (shownUnpinned d)] at hsplit
    have hle := (pairwise_append.mp hsplit).2.2 a ha b hb
    have hne := hapart a ha b hb
    omega

end Limit

namespace Sample

theorem captured_plainNote : Captured plainNote := by
  unfold Captured
  decide +kernel

/-- Two captures, the second at this time. -/
def twoCaptures (now : Int) : List Making :=
  [.captured env plainNote captured_plainNote,
    .captured { env with now := now } twoFormats captured_twoFormats]

theorem idealHash_twoCaptures (now : Int) : IdealHash env.hash (twoCaptures now) where
  same m hm := by
    rcases mem_cons.mp hm with rfl | hm
    · rfl
    · rw [mem_singleton.mp hm]
      rfl
  contents := by
    have hputs : (twoCaptures now).flatMap Making.puts
        = plainNote.payloads ++ twoFormats.payloads := rfl
    rw [hputs]
    unfold CollisionFreeOn
    decide +kernel

/-- **Two captures in one second** come back in reverse. -/
theorem ties_come_back_reversed :
    IdealHash env.hash (twoCaptures env.now) ∧
      ¬ RoundTrips env [2] (made [1] (twoCaptures env.now)) ∧
      (reimported env [2] (made [1] (twoCaptures env.now))).map
          (fun d => (listing d).map ListedEntry.payloads)
        = .ok ((listing (made [1] (twoCaptures env.now))).map ListedEntry.payloads).reverse := by
  refine ⟨idealHash_twoCaptures _, ?_, ?_⟩
  · decide +kernel
  · decide +kernel

/-- **Two captures in one second, and room for one**: the entry that goes may be the one that is
    listed first. -/
theorem limit_evicts_listed_first :
    ((made [1] (twoCaptures env.now)).db.enforceLimit engine 1).map Prod.fst = .ok [2] ∧
      (shownUnpinned (made [1] (twoCaptures env.now))).map Row.id = [2, 1] := by
  decide +kernel

/-- A second later, and they come back as they were. -/
theorem round_trips_iff_later : RoundTrips env [2] (made [1] (twoCaptures 1700000001)) := by
  refine (round_trips_iff env [1] [2] _ (idealHash_twoCaptures _)).mpr ⟨?_, ?_⟩
  · unfold NoTies
    decide +kernel
  · refine selfHashed_made [1] (idealHash_twoCaptures _) ?_
    have hlists : (twoCaptures 1700000001).flatMap Making.captures
        = [plainNote.payloads, twoFormats.payloads] := rfl
    rw [hlists]
    decide +kernel

end Sample

end Panora.Panod
