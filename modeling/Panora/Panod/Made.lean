/-
  Panora.Panod.Made — histories made by captures, pins and deletions.

  A capture attaches its payloads to its row; pins, deletions and retention passes attach
  nothing, and take references away from entries that are deleted only.  So every live entry
  of such a history can be read back as what was captured.

  Main results:
    * `Thinned` — what pins, deletions and retention passes do to references and blobs;
    * `Stocked.capture` — a capture, whether of new content or of content that is here already;
    * `storable_made` — every entry of a history holds what captures have put;
    * `captured_made` — and the very list it was captured with, where the hash is ideal.
-/
import Panora.Panod.BlobUse
import Panora.Panod.Dedup
import Panora.Panod.Race

namespace Panora.Panod

open Storage Lib Lib.Table Storage.BlobStore List
open Storage.Database (CleanedUp)

/-! ## §1. Taking away -/

/-- Rows and references have only been taken away: a row keeps its id and its key and does not
    come back to life, references go with all others of their entry and not while it is live,
    and what is still referred to is in the same file. -/
structure Thinned (d d' : Daemon) : Prop where
  rows : ∀ r' ∈ d'.db.entries.rows, ∃ r ∈ d.db.entries.rows,
    r'.id = r.id ∧ r'.key = r.key ∧ (r'.cols.deleted = false → r.cols.deleted = false)
  refs : ∀ b ∈ d'.db.entryBlobs, b ∈ d.db.entryBlobs
  formats : ∀ r' ∈ d'.db.entries.rows, d'.db.refsOf r'.id = d.db.refsOf r'.id ∨
    r'.cols.deleted = true ∧ d'.db.refsOf r'.id = []
  owned : (∀ b ∈ d.db.entryBlobs, ∃ r ∈ d.db.entries.rows, r.id = b.entryId) →
    ∀ b ∈ d'.db.entryBlobs, ∃ r ∈ d'.db.entries.rows, r.id = b.entryId
  files : ∀ b ∈ d'.db.entryBlobs, d'.blobs.file b.blobRef = d.blobs.file b.blobRef
  fewer : ∀ name f, d'.blobs.file name = some f → d.blobs.file name = some f
  cipher : d'.blobCipher = d.blobCipher

namespace Thinned

theorem refl (d : Daemon) : Thinned d d where
  rows r' hr' := ⟨r', hr', rfl, rfl, id⟩
  refs _ hb := hb
  formats _ _ := .inl rfl
  owned h := h
  files _ _ := rfl
  fewer _ _ hf := hf
  cipher := rfl

/-- Taking away twice is taking away: an entry whose references went while it was deleted is
    still deleted after the second time. -/
theorem trans (d d' d'' : Daemon) (h : Thinned d d') (h' : Thinned d' d'') : Thinned d d'' where
  rows r'' hr'' := by
    obtain ⟨r', hr', hid', hkey', hlive'⟩ := h'.rows r'' hr''
    obtain ⟨r, hr, hid, hkey, hlive⟩ := h.rows r' hr'
    exact ⟨r, hr, hid'.trans hid, hkey'.trans hkey, fun hdel => hlive (hlive' hdel)⟩
  refs b hb := h.refs b (h'.refs b hb)
  formats r'' hr'' := by
    obtain ⟨r', hr', hid', -, hlive'⟩ := h'.rows r'' hr''
    rcases h'.formats r'' hr'' with hsame | hgone
    · rcases h.formats r' hr' with hsame' | ⟨hdel, hgone⟩
      · rw [← hid'] at hsame'
        exact .inl (hsame.trans hsame')
      · -- its references went while it was deleted, and it still is
        rw [← hid'] at hgone
        refine .inr ⟨?_, hsame.trans hgone⟩
        by_contra hlive
        rw [hlive' (Bool.eq_false_iff.mpr hlive)] at hdel
        exact Bool.false_ne_true hdel
    · exact .inr hgone
  owned hd := h'.owned (h.owned hd)
  files b hb := (h'.files b hb).trans (h.files b (h'.refs b hb))
  fewer name f hf := h.fewer name f (h'.fewer name f hf)
  cipher := h'.cipher.trans h.cipher

theorem bind {α β : Type} {x : Request α} {f : α → Request β} (hx : Op.Keeps Thinned x)
    (hf : ∀ a, Op.Keeps Thinned (f a)) : Op.Keeps Thinned (x >>= f) :=
  Op.keeps_bind Thinned.trans hx hf

end Thinned

/-- A statement that leaves references alone and brings no row to life. -/
structure Recast (db db' : Database) : Prop where
  refs : db'.entryBlobs = db.entryBlobs
  rows : ∃ g, db'.entries = db.entries.mapCols g ∧
    ∀ r ∈ db.entries.rows, (g r).deleted = false → r.cols.deleted = false

variable {db db' : Database}

/-- A statement that touches neither entries nor references. -/
theorem recast_of_eq (hentries : db'.entries = db.entries)
    (hrefs : db'.entryBlobs = db.entryBlobs) : Recast db db' := by
  refine ⟨hrefs, fun r => r.cols, hentries.trans (ext ?_), fun _ _ h => h⟩
  exact (map_id' db.entries.rows).symm

/-- An update of the columns of one row, be the row there or not. -/
theorem recast_trackedUpdate (db : Database) (id : Nat) {f : Cols → Cols}
    (hf : ∀ c, (f c).deleted = false → c.deleted = false) : Recast db (db.trackedUpdate id f) := by
  cases hget : db.entries.get id with
  | none =>
    have hsame : db.trackedUpdate id f = db := by
      unfold Database.trackedUpdate
      rw [hget]
    rw [hsame]
    exact recast_of_eq rfl rfl
  | some r0 =>
    rw [Database.trackedUpdate_eq hget]
    refine ⟨rfl, _, rfl, ?_⟩
    intro r _ hlive
    dsimp only at hlive
    split at hlive
    · exact hf r.cols hlive
    · exact hlive

theorem Recast.of_eq {db'' : Database} (h : Recast db db')
    (hentries : db''.entries = db'.entries) (hrefs : db''.entryBlobs = db'.entryBlobs) :
    Recast db db'' :=
  ⟨hrefs.trans h.refs, by rw [hentries]; exact h.rows⟩

/-- Such a statement leaves every reference, and every blob, where it was. -/
theorem Recast.thinned {d : Daemon} (h : Recast d.db db') : Thinned d { d with db := db' } := by
  obtain ⟨g, hentries, hlive⟩ := h.rows
  have hrefsOf : ∀ id, db'.refsOf id = d.db.refsOf id := by
    intro id
    unfold Database.refsOf
    rw [h.refs]
  refine ⟨?_, ?_, fun r' _ => .inl (hrefsOf r'.id), ?_, fun _ _ => rfl, fun _ _ hf => hf, rfl⟩
  · intro r' hr'
    have hr' : r' ∈ db'.entries.rows := hr'
    rw [hentries] at hr'
    obtain ⟨r, hr, rfl⟩ := mem_mapCols.mp hr'
    exact ⟨r, hr, rfl, rfl, hlive r hr⟩
  · intro b hb
    rw [← h.refs]
    exact hb
  · intro howned b hb
    have hb : b ∈ db'.entryBlobs := hb
    rw [h.refs] at hb
    obtain ⟨r, hr, hid⟩ := howned b hb
    refine ⟨setCols g r, ?_, hid⟩
    show _ ∈ db'.entries.rows
    rw [hentries]
    exact mem_mapCols.mpr ⟨r, hr, rfl⟩

variable {id : Nat}

section Statements

variable {α : Type}

theorem thinned_onDb {f : Database → Except Error (α × Database)}
    (h : ∀ db a db', f db = .ok (a, db') → Recast db db') : Op.Keeps Thinned (onDb f) :=
  keeps_onDb Thinned.refl fun d a db' hrun => (h d.db a db' hrun).thinned

theorem thinned_changeDb {f : Database → Except Error Database}
    (h : ∀ db db', f db = .ok db' → Recast db db') : Op.Keeps Thinned (changeDb f) :=
  keeps_changeDb Thinned.refl fun d db' hrun => (h d.db db' hrun).thinned

theorem thinned_tickLamport : Op.Keeps Thinned (updateDb Database.tickLamport) :=
  fun d => Recast.thinned (d := d) (recast_of_eq rfl rfl)

/-- A change of columns that brings no row to life. -/
theorem thinned_tracked {f : Cols → Cols} (hf : ∀ c, (f c).deleted = false → c.deleted = false) :
    Op.Keeps Thinned (changeDb (fun db => db.changing id (db.trackedUpdate id f))) := by
  refine thinned_changeDb ?_
  intro db db' hrun
  rw [Database.changing_eq hrun]
  exact recast_trackedUpdate db id hf

/-- Stamping a row writes its origin and its clock only. -/
theorem thinned_stampLocal (env : Env) (id : Nat) : Op.Keeps Thinned (stampLocal env id) :=
  Thinned.bind thinned_tickLamport (fun _ => thinned_tracked (fun _ h => h))

/-- A pin changes columns that no reference depends on. -/
theorem thinned_setPinned (env : Env) (id : Nat) (pinned : Bool) :
    Op.Keeps Thinned (setPinned env id pinned) :=
  Thinned.bind (thinned_tracked (fun _ h => h)) (fun _ => thinned_stampLocal env id)

/-- A deletion marks the row and takes its text out of the index; its references stay. -/
theorem recast_tombstone {now : Int} {refs : List String}
    (h : db.tombstone id now = .ok (refs, db')) : Recast db db' := by
  unfold Database.tombstone at h
  obtain ⟨after, hchanging, heq⟩ := Fallible.map_ok_iff.mp h
  have hdb : db' = { after with entriesFts := after.entriesFts.filter (fun f => f.rowid ≠ id) } :=
    (Prod.mk.inj heq).2.symm
  rw [hdb, Database.changing_eq hchanging]
  have hcols : ∀ c : Cols, (c.tombstoned now).deleted = false → c.deleted = false :=
    fun _ h => absurd h (by simp [Cols.tombstoned])
  exact (recast_trackedUpdate db id hcols).of_eq rfl rfl

/-! ## §2. Retention passes -/

/-- A clean-up of deleted rows, and the removal of the blobs it left without a reference. -/
theorem thinned_cleanUp {d : Daemon} {refs : List String}
    (hrows : ∀ r' ∈ db'.entries.rows, r' ∈ d.db.entries.rows)
    (hrefs : ∀ b ∈ db'.entryBlobs, b ∈ d.db.entryBlobs)
    (hformats : ∀ r' ∈ db'.entries.rows, db'.refsOf r'.id = d.db.refsOf r'.id ∨
      r'.cols.deleted = true ∧ db'.refsOf r'.id = [])
    (howned : (∀ b ∈ d.db.entryBlobs, ∃ r ∈ d.db.entries.rows, r.id = b.entryId) →
      ∀ b ∈ db'.entryBlobs, ∃ r ∈ db'.entries.rows, r.id = b.entryId)
    (horphans : ∀ ref ∈ refs, db'.orphaned ref = true) :
    Thinned d { d with db := db', blobs := refs.foldl removeOrWarn d.blobs } where
  rows r' hr' := ⟨r', hrows r' hr', rfl, rfl, id⟩
  refs := hrefs
  formats := hformats
  owned := howned
  files b hb := by
    refine file_removeAll ?_ d.blobs
    intro hmem
    exact orphaned_iff.mp (horphans b.blobRef hmem) b hb rfl
  fewer name f hf := by
    have hf : (refs.foldl removeOrWarn d.blobs).file name = some f := hf
    obtain ⟨hmem, hname⟩ := (Keyed.lookup_eq_some (namesNodup _)).mp hf
    obtain ⟨-, hsame⟩ := file_of_removeAll refs d.blobs hmem
    rw [← hname, ← hsame, hname]
    exact hf
  cipher := rfl

/-- What a purge leaves: some of the rows, each with all of its references. -/
structure Purged (db db' : Database) : Prop where
  rows : ∀ r' ∈ db'.entries.rows, r' ∈ db.entries.rows
  refs : ∀ b ∈ db'.entryBlobs, b ∈ db.entryBlobs
  formats : ∀ r' ∈ db'.entries.rows, db'.refsOf r'.id = db.refsOf r'.id
  owned : (∀ b ∈ db.entryBlobs, ∃ r ∈ db.entries.rows, r.id = b.entryId) →
    ∀ b ∈ db'.entryBlobs, ∃ r ∈ db'.entries.rows, r.id = b.entryId

theorem Purged.refl (db : Database) : Purged db db :=
  ⟨fun _ h => h, fun _ h => h, fun _ _ => rfl, fun h => h⟩

theorem Purged.trans {db'' : Database} (h : Purged db db') (h' : Purged db' db'') :
    Purged db db'' where
  rows r hr := h.rows r (h'.rows r hr)
  refs b hb := h.refs b (h'.refs b hb)
  formats r hr := (h'.formats r hr).trans (h.formats r (h'.rows r hr))
  owned hdb := h'.owned (h.owned hdb)

/-- One row is purged with all of its references, and only if it is deleted. -/
theorem purged_purgeRow (acc : List String × Database) (id : Nat) :
    Purged acc.2 (Database.purgeRow acc id).2 := by
  cases hget : acc.2.entries.get id with
  | none =>
    simp only [Database.purgeRow, hget]
    exact Purged.refl acc.2
  | some r =>
    by_cases hdel : r.cols.deleted = true
    · simp only [Database.purgeRow, hget, if_pos hdel]
      obtain ⟨hr, hid⟩ := get_eq_some.mp hget
      -- the row with this id is deleted, so no row that is left has it
      have hne : ∀ r' ∈ (acc.2.entries.keepOnly (fun r => !(r.id = id && r.cols.deleted))).rows,
          r'.id ≠ id := by
        intro r' hr' heq
        obtain ⟨hmem, hkept⟩ := mem_keepOnly.mp hr'
        rw [eq_of_id_eq hmem hr (heq.trans hid.symm), hid, hdel] at hkept
        simp at hkept
      refine ⟨fun r' hr' => (mem_keepOnly.mp hr').1,
        fun b hb => (mem_filter.mp hb).1, ?_, ?_⟩
      · intro r' hr'
        refine Database.refsOf_filter (fun b => decide (b.entryId ≠ id)) ?_ rfl
        intro b _ hb
        rw [hb]
        exact decide_eq_true (hne r' hr')
      · intro howned b hb
        obtain ⟨hmem, hb⟩ := mem_filter.mp hb
        obtain ⟨r', hr', hid'⟩ := howned b hmem
        refine ⟨r', mem_keepOnly.mpr ⟨hr', ?_⟩, hid'⟩
        have hother : r'.id ≠ id := by
          rw [hid']
          exact of_decide_eq_true hb
        simp [hother]
    · simp only [Database.purgeRow, hget, if_neg hdel]
      exact Purged.refl acc.2

/-- So the rows that a whole purge leaves have all of their references. -/
theorem purged_purge (ids : List Nat) (db : Database) : Purged db (db.purge ids).2 :=
  Database.purge_keeps Purged.refl Purged.trans purged_purgeRow ids db

/-- Purging old deletions removes the blobs that nothing refers to any more. -/
theorem thinned_purgeTombstonedBefore (before : Int) :
    Op.Keeps Thinned (purgeTombstonedBefore before) := by
  intro d
  have hpurged : Purged d.db (d.db.purgeTombstones before).2 := purged_purge _ _
  exact thinned_cleanUp hpurged.rows hpurged.refs (fun r' hr' => .inl (hpurged.formats r' hr'))
    hpurged.owned (Database.orphaned_purge _ _)

/-- Stripping takes the references of deleted entries, and nothing of live ones. -/
theorem thinned_stripDeleted (env : Env) : Op.Keeps Thinned (stripDeleted env) := by
  unfold stripDeleted
  split
  · intro d
    refine thinned_cleanUp (fun _ hr => hr) (fun b hb => (mem_filter.mp hb).1) ?_ ?_
      (Database.orphaned_stripTombstones _ _)
    · intro r hr
      by_cases hstrip : Database.strippable (env.now - undoGraceSecs) r = true
      · -- an entry that is stripped is deleted and loses all of its references
        refine .inr ⟨?_, ?_⟩
        · unfold Database.strippable at hstrip
          simp only [Bool.and_eq_true] at hstrip
          exact hstrip.1.1
        · refine filter_eq_nil_iff.mpr ?_
          intro b hb hid
          have hout := of_decide_eq_true (mem_filter.mp hb).2
          rw [of_decide_eq_true hid] at hout
          exact hout (mem_map_of_mem (mem_filter.mpr ⟨hr, hstrip⟩))
      · left
        refine Database.refsOf_filter (fun b => decide (b.entryId ∉ (d.db.entries.rows.filter
          (Database.strippable (env.now - undoGraceSecs))).map Row.id)) ?_ rfl
        intro b _ hb
        rw [decide_eq_true_iff, hb]
        intro hmem
        obtain ⟨r', hr', hid⟩ := mem_map.mp hmem
        obtain ⟨hrow, hstrip'⟩ := mem_filter.mp hr'
        rw [Table.eq_of_id_eq hrow hr hid] at hstrip'
        exact hstrip hstrip'
    · exact fun howned b hb => howned b (mem_filter.mp hb).1
  · exact Op.keeps_pure Thinned.refl ()

theorem thinned_tombstone (id : Nat) (now : Int) :
    Op.Keeps Thinned (onDb fun db => db.tombstone id now) :=
  thinned_onDb fun _ _ _ h => recast_tombstone h

theorem retains_thinned (env : Env) : ∀ d, Retains env (Thinned d) (fun _ => True) :=
  retains_of_keeps Thinned.trans thinned_tombstone (thinned_stripDeleted env)
    (thinned_purgeTombstonedBefore _)

/-- **A retention pass takes away only.** -/
theorem thinned_collectGarbage (env : Env) : Op.Keeps Thinned (collectGarbage env) :=
  Op.keeps_of_maintains Thinned.refl fun d => (retains_thinned env d).collectGarbage

/-- A deletion takes away only, with the retention pass that ends it. -/
theorem thinned_delete (env : Env) (id : Nat) : Op.Keeps Thinned (delete env id) := by
  unfold delete
  refine Thinned.bind (Op.keeps_look Thinned.refl _) fun entry => ?_
  split
  · exact fun d => Thinned.refl d
  · refine Thinned.bind (thinned_tombstone id env.now) fun _ => ?_
    refine Thinned.bind (thinned_stampLocal env id) fun _ => ?_
    refine Thinned.bind (thinned_collectGarbage env) fun _ => ?_
    exact Op.keeps_pure Thinned.refl ()

end Statements

/-! ## §3. Entries and what they hold -/

/-- Every entry holds payloads that fit its key, unless it is deleted and holds nothing any
    more. -/
structure Stocked (h : Hash) (all : List MimePayload) (fits : EntryKey → List MimePayload → Prop)
    (d : Daemon) : Prop where
  apart : Apart h d all
  owned : ∀ b ∈ d.db.entryBlobs, ∃ r ∈ d.db.entries.rows, r.id = b.entryId
  stock : ∀ r ∈ d.db.entries.rows, (∃ payloads, fits r.key payloads ∧ Holds h d r.id payloads) ∨
    r.cols.deleted = true ∧ d.db.refsOf r.id = []

section Stocked

variable {h : Hash} {all : List MimePayload} {fits : EntryKey → List MimePayload → Prop}
  {d d' : Daemon} {env : Env} {data : ClipboardData}

/-- An entry that kept its references can still be read back: their blobs are kept with them. -/
theorem Holds.thinned {payloads : List MimePayload} (hholds : Holds h d id payloads)
    (hthinned : Thinned d d') (hrefs : d'.db.refsOf id = d.db.refsOf id) :
    Holds h d' id payloads := by
  have hformats : formatsOf d'.db id = formatsOf d.db id := formatsOf_congr hrefs
  refine ⟨?_, ?_⟩
  · rw [hformats]
    exact hholds.formats
  · intro p hp
    have hmem : refTo h id p ∈ formatsOf d'.db id := by
      rw [hformats]
      exact hholds.formats.mem_iff.mpr (mem_map_of_mem hp)
    have hfile : d'.blobs.file (h.contentHash p.data) = d.blobs.file (h.contentHash p.data) :=
      hthinned.files _ (mem_formatsOf.mp hmem).1
    rw [hthinned.cipher, get_congr d.blobCipher hfile]
    exact hholds.opens p hp

/-- Taking files away mixes no two contents up. -/
theorem Apart.thinned (happart : Apart h d all) (hthinned : Thinned d d') : Apart h d' all := by
  refine ⟨happart.names, ?_⟩
  intro p hp hsome
  obtain ⟨f, hf⟩ := Option.isSome_iff_exists.mp hsome
  have hbefore : d.blobs.file (h.contentHash p.data) = some f := hthinned.fewer _ f hf
  rw [hthinned.cipher, get_congr d.blobCipher (hf.trans hbefore.symm)]
  exact happart.taken p hp (by rw [hbefore]; rfl)

/-- Entries stay stocked when something is taken away. -/
theorem Stocked.thinned (hs : Stocked h all fits d) (hthinned : Thinned d d') :
    Stocked h all fits d' where
  apart := hs.apart.thinned hthinned
  owned := hthinned.owned hs.owned
  stock r' hr' := by
    obtain ⟨r, hr, hid, hkey, hlive⟩ := hthinned.rows r' hr'
    have hstock := hs.stock r hr
    rw [← hid, ← hkey] at hstock
    rcases hthinned.formats r' hr' with hsame | hgone
    · rcases hstock with ⟨payloads, hfits, hholds⟩ | ⟨hdel, hnone⟩
      · exact .inl ⟨payloads, hfits, hholds.thinned hthinned hsame⟩
      · refine .inr ⟨?_, hsame.trans hnone⟩
        by_contra hdel'
        rw [hlive (Bool.eq_false_iff.mpr hdel')] at hdel
        exact Bool.false_ne_true hdel
    · exact .inr hgone

/-- The row of a capture is the one its content has, or a new one. -/
theorem capturedRow_id_cases (env : Env) (data : ClipboardData) (d : Daemon) :
    (∃ r ∈ d.db.entries.rows, r.key = keyOf env data ∧ r.id = (capturedRow env data d).id) ∨
      (∀ r ∈ d.db.entries.rows, r.id ≠ (capturedRow env data d).id ∧ r.key ≠ keyOf env data) := by
  have hid : (capturedRow env data d).id = (d.db.tickLamport.2.upsertedRow d.dbCipher
      (newEntry env data d.db.tickLamport.1)).id := rfl
  rw [hid]
  cases hkey : d.db.tickLamport.2.entries.find (newEntry env data d.db.tickLamport.1).key with
  | some r =>
    obtain ⟨hr, hrkey⟩ := find_eq_some.mp hkey
    exact .inl ⟨r, hr, hrkey, (Database.upsertedRow_of_find hkey).1.symm⟩
  | none =>
    rw [Database.upsertedRow_of_new hkey]
    refine .inr ?_
    intro r hr
    exact ⟨Nat.ne_of_lt (id_lt_nextId hr), find_eq_none.mp hkey r hr⟩

/-- Before a capture its row holds what fits its key, or nothing. -/
theorem Stocked.before (hs : Stocked h all fits d) (env : Env) (data : ClipboardData) :
    ∃ held, Holds h d (capturedRow env data d).id held ∧
      (held = [] ∨ fits (keyOf env data) held) := by
  rcases capturedRow_id_cases env data d with ⟨r, hr, hkey, hid⟩ | hnew
  · rw [← hid, ← hkey]
    rcases hs.stock r hr with ⟨payloads, hfits, hholds⟩ | ⟨-, hnone⟩
    · exact ⟨payloads, hholds, .inr hfits⟩
    · refine ⟨[], holds_nil ?_, .inl rfl⟩
      intro b hb hb'
      have hin : b ∈ d.db.refsOf r.id := mem_filter.mpr ⟨hb, decide_eq_true hb'⟩
      rw [hnone] at hin
      cases hin
  · refine ⟨[], holds_nil ?_, .inl rfl⟩
    intro b hb hb'
    obtain ⟨r, hr, hid⟩ := hs.owned b hb
    exact (hnew r hr).1 (hid.trans hb')

/-- A row that holds the captured list already, or nothing, holds it after the capture. -/
theorem recaptured {held payloads : List MimePayload} (h : held = [] ∨ held = payloads) :
    held.filter (fun p => p.mime ∉ payloads.map MimePayload.mime) ++ payloads = payloads := by
  rcases h with rfl | rfl
  · rfl
  · rw [filter_eq_nil_iff.mpr fun p hp => by simpa using ⟨p, hp, rfl⟩, nil_append]

/-- **A capture keeps every entry stocked**, if what it adds to what its own row held fits. -/
theorem Stocked.capture (hs : Stocked env.hash all fits d)
    (hformats : ∀ p ∈ data.payloads, p.mime ≠ thumbnailMime)
    (hnodup : (data.payloads.map MimePayload.mime).Nodup) (hput : putBy env data ⊆ all)
    (hfits : ∀ held, held = [] ∨ fits (keyOf env data) held → fits (keyOf env data)
      (held.filter (fun p => p.mime ∉ data.payloads.map MimePayload.mime) ++ data.payloads)) :
    Stocked env.hash all fits (captureState env data d) := by
  obtain ⟨held, hheld, hbefore⟩ := hs.before env data
  obtain ⟨hholds, hbeside⟩ := capture_holds hformats hnodup hput hs.apart hheld
  have hwrote := (exec_store env data d).1
  obtain ⟨hrow, hrowKey⟩ := find_eq_some.mp hwrote.row
  refine ⟨hbeside.apart hs.apart, ?_, ?_⟩
  · intro b hb
    rcases hbeside.refs b hb with hold | hnew
    · obtain ⟨r, hr, hid⟩ := hs.owned b hold
      by_cases hkey : r.key = keyOf env data
      · -- the entry of this content goes on as the captured row
        refine ⟨capturedRow env data d, hrow, ?_⟩
        rcases capturedRow_id_cases env data d with ⟨r', hr', hkey', hid'⟩ | hnew
        · rw [← hid', eq_of_key_eq hr' hr (hkey'.trans hkey.symm), hid]
        · exact absurd hkey (hnew r hr).2
      · have hfind : d.db.entries.find r.key = some r := find_eq_some.mpr ⟨hr, rfl⟩
        rw [← hwrote.others r.key hkey] at hfind
        exact ⟨r, (find_eq_some.mp hfind).1, hid⟩
    · exact ⟨capturedRow env data d, hrow, hnew.symm⟩
  · intro r hr
    rcases mem_captureState hr with rfl | ⟨hold, hkey⟩
    · rw [hrowKey]
      exact .inl ⟨_, hfits held hbefore, hholds⟩
    · have hne : r.id ≠ (capturedRow env data d).id := by
        intro hid
        rw [eq_of_id_eq hr hrow hid, hrowKey] at hkey
        exact hkey rfl
      rcases hs.stock r hold with ⟨payloads, hown, hholds⟩ | ⟨hdel, hnone⟩
      · exact .inl ⟨payloads, hown, hbeside.others r.id payloads hne hholds⟩
      · refine .inr ⟨hdel, filter_eq_nil_iff.mpr ?_⟩
        intro b hb hb'
        rcases hbeside.refs b hb with hbefore | hnew
        · have hin : b ∈ d.db.refsOf r.id := mem_filter.mpr ⟨hbefore, hb'⟩
          rw [hnone] at hin
          cases hin
        · exact hne ((of_decide_eq_true hb').symm.trans hnew)

end Stocked

/-! ## §4. Making a history -/

/-- What a history is made by. -/
inductive Making where
  | captured (env : Env) (data : ClipboardData) (hcaptured : Captured data)
  | pinned (env : Env) (id : Nat) (on : Bool)
  | deleted (env : Env) (id : Nat)

namespace Making

/-- What it runs in. -/
def env : Making → Env
  | .captured env _ _ => env
  | .pinned env _ _ => env
  | .deleted env _ => env

/-- The daemon after it, whatever it answered. -/
def run (d : Daemon) : Making → Daemon
  | .captured env data _ => stored env data d
  | .pinned env id on => (Op.exec (setPinned env id on) d).2
  | .deleted env id => (Op.exec (delete env id) d).2

/-- What it puts into the blob directory. -/
def puts : Making → List MimePayload
  | .captured env data _ => putBy env data
  | _ => []

/-- The list of payloads it captures, if any. -/
def captures : Making → List (List MimePayload)
  | .captured _ data _ => [data.payloads]
  | _ => []

end Making

/-- A history made from nothing. -/
def made (key : Key) (makings : List Making) : Daemon := makings.foldl Making.run (blank key)

/-- All requests hash alike, and the hash tells apart the contents that they put into the blob
    directory. -/
structure IdealHash (h : Hash) (makings : List Making) : Prop where
  same : ∀ m ∈ makings, m.env.hash = h
  contents : CollisionFreeOn h ((makings.flatMap Making.puts).map MimePayload.data)

section Made

variable {h : Hash} {makings : List Making} {fits : EntryKey → List MimePayload → Prop}

/-- **Every entry of a history is stocked**, if what each capture adds fits. -/
theorem stocked_made (key : Key) (hideal : IdealHash h makings)
    (hfits : ∀ env data hcaptured, Making.captured env data hcaptured ∈ makings →
      ∀ held, held = [] ∨ fits (keyOf env data) held → fits (keyOf env data)
        (held.filter (fun p => p.mime ∉ data.payloads.map MimePayload.mime) ++ data.payloads)) :
    Stocked h (makings.flatMap Making.puts) fits (made key makings) := by
  refine foldlRecOn makings Making.run ?_ ?_
  · refine ⟨⟨?_, ?_⟩, ?_, ?_⟩
    · intro p hp q hq heq
      exact hideal.contents p.data (mem_map_of_mem hp) q.data (mem_map_of_mem hq) heq
    · intro p _ hsome
      exact absurd hsome (by simp [blank, BlobStore.file, BlobStore.empty, Keyed.lookup])
    · intro b hb
      exact absurd hb (by simp [blank, Database.empty])
    · intro r hr
      exact absurd hr (by simp [blank, Database.empty, Table.empty])
  · intro d hs m hm
    cases m with
    | captured env data hcaptured =>
      have hhash : env.hash = h := hideal.same _ hm
      have hput : putBy env data ⊆ makings.flatMap Making.puts :=
        fun p hp => mem_flatMap.mpr ⟨_, hm, hp⟩
      show Stocked _ _ _ (stored env data d)
      rw [stored_eq]
      rw [← hhash] at hs ⊢
      have hcapture : Stocked env.hash _ fits (captureState env data d) :=
        hs.capture hcaptured.mime_ne_thumbnail hcaptured.nodup hput (hfits env data hcaptured hm)
      exact hcapture.thinned (thinned_collectGarbage _ _)
    | pinned env id on => exact hs.thinned (thinned_setPinned _ id on d)
    | deleted env id => exact hs.thinned (thinned_delete _ id d)

/-- Payloads as a row of the database can have them. -/
structure Storable (all payloads : List MimePayload) : Prop where
  known : payloads ⊆ all
  nodup : (payloads.map MimePayload.mime).Nodup
  formats : ∀ p ∈ payloads, p.mime ≠ thumbnailMime

theorem storable_nil (all : List MimePayload) : Storable all [] :=
  ⟨by simp, by simp, by simp⟩

/-- A capture replaces the formats it brings and keeps the others, so no format is there twice. -/
theorem Storable.capture {all held : List MimePayload} {data : ClipboardData}
    (hheld : Storable all held) (hcaptured : Captured data) (hall : data.payloads ⊆ all) :
    Storable all
      (held.filter (fun p => p.mime ∉ data.payloads.map MimePayload.mime) ++ data.payloads) where
  known p hp := by
    rcases mem_append.mp hp with hp | hp
    · exact hheld.known (mem_filter.mp hp).1
    · exact hall hp
  nodup := by
    rw [map_append, nodup_append]
    refine ⟨hheld.nodup.sublist (filter_sublist.map _), hcaptured.nodup, ?_⟩
    intro a ha b hb heq
    obtain ⟨p, hp, rfl⟩ := mem_map.mp ha
    have hnot := of_decide_eq_true (mem_filter.mp hp).2
    rw [heq] at hnot
    exact hnot hb
  formats p hp := by
    rcases mem_append.mp hp with hp | hp
    · exact hheld.formats p (mem_filter.mp hp).1
    · exact hcaptured.mime_ne_thumbnail p hp

/-- **Every entry of a history holds what captures have put**, one payload a format. -/
theorem storable_made (key : Key) (hideal : IdealHash h makings) :
    Stocked h (makings.flatMap Making.puts)
      (fun _ => Storable (makings.flatMap Making.puts)) (made key makings) := by
  refine stocked_made key hideal ?_
  intro env data hcaptured hm held hheld
  have hall : data.payloads ⊆ makings.flatMap Making.puts :=
    fun p hp => mem_flatMap.mpr ⟨_, hm, mem_append_left _ hp⟩
  rcases hheld with rfl | hheld
  · exact (storable_nil _).capture hcaptured hall
  · exact hheld.capture hcaptured hall

/-- **Where the hash tells captured lists apart**, every entry holds the list it was captured
    with. -/
theorem captured_made (key : Key) (hideal : IdealHash h makings)
    (hlists : ∀ a ∈ makings.flatMap Making.captures, ∀ b ∈ makings.flatMap Making.captures,
      h.payloadHash a = h.payloadHash b → a = b) :
    Stocked h (makings.flatMap Making.puts)
      (fun k payloads => payloads ∈ makings.flatMap Making.captures ∧
        k.contentHash = h.payloadHash payloads) (made key makings) := by
  refine stocked_made key hideal ?_
  intro env data hcaptured hm held hheld
  have hlist : data.payloads ∈ makings.flatMap Making.captures :=
    mem_flatMap.mpr ⟨_, hm, mem_singleton.mpr rfl⟩
  have hkey : (keyOf env data).contentHash = h.payloadHash data.payloads := by
    rw [← hideal.same _ hm]
    rfl
  -- what was held under this key is this very list
  rw [recaptured (hheld.imp_right fun h => hlists _ h.1 _ hlist (h.2.symm.trans hkey))]
  exact ⟨hlist, hkey⟩

end Made

end Panora.Panod
