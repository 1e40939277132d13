/-
  Panora.Panod.Halfway — a capture that fails half way.

  The row of a capture is visible from the second call on; its formats follow two calls
  apiece.  What was written before the call that fails stays written.

  Main results:
    * `failing_storeCalls` — what is left at the call that fails: the formats attached so
      far, laid over those the row had, and whether the row is visible;
    * `failed_store_breaks_none_iff` — no visible entry is broken exactly when the row, if it
      is visible at that call, has every format all the same.
-/
import Panora.Panod.Calls

namespace Panora.Panod

open Storage Lib Lib.Op Lib.Script Storage.Database Storage.BlobStore List Except

section

variable (env : Env) (data : ClipboardData)

/-! ## §1. Payloads laid over those that are there -/

/-- What an entry holds once one more payload is attached; a thumbnail is no format. -/
def lay (held : List MimePayload) (p : MimePayload) : List MimePayload :=
  if p.mime = thumbnailMime then held else held.filter (fun q => q.mime ≠ p.mime) ++ [p]

/-- What an entry holds once these payloads are attached. -/
def laid (held written : List MimePayload) : List MimePayload := written.foldl lay held

/-- The formats of the entry read back as these payloads. -/
def Reads (d : Daemon) (id : Nat) (payloads : List MimePayload) : Prop :=
  ((formatsOf d.db id).map (loadFormat d)).Perm (payloads.map .ok)

/-- An entry has one reference for each format: the primary key of `entry_blobs`. -/
def OneEach (db : Database) : Prop := (db.entryBlobs.map (fun b => (b.entryId, b.mime))).Nodup

section Reads

variable {d d' : Daemon} {id : Nat} {r : EntryRow} {b : BlobRow} {p : MimePayload}
  {payloads held written : List MimePayload}

theorem mime_of_loadFormat (h : loadFormat d b = .ok p) : p.mime = b.mime := by
  obtain ⟨data, -, rfl⟩ := Fallible.map_ok_iff.mp h
  rfl

theorem nodup_lay (h : (held.map MimePayload.mime).Nodup) (p : MimePayload) :
    ((lay held p).map MimePayload.mime).Nodup := by
  unfold lay
  split
  · exact h
  · rw [map_append, nodup_append]
    refine ⟨h.sublist (filter_sublist.map _), nodup_singleton _, ?_⟩
    intro m hm m' hm' heq
    obtain ⟨q, hq, rfl⟩ := mem_map.mp hm
    rw [map_singleton, mem_singleton] at hm'
    exact of_decide_eq_true (mem_filter.mp hq).2 (heq.trans hm')

theorem nodup_laid (h : (held.map MimePayload.mime).Nodup) (written : List MimePayload) :
    ((laid held written).map MimePayload.mime).Nodup := by
  unfold laid
  induction written generalizing held with
  | nil => exact h
  | cons p written ih => exact ih (nodup_lay h p)

theorem Reads.perm (h : Reads d id payloads) {payloads' : List MimePayload}
    (hperm : payloads.Perm payloads') : Reads d id payloads' := h.trans (hperm.map _)

/-- Every format of such an entry can be read. -/
theorem Reads.loads (h : Reads d id payloads) (hb : b ∈ formatsOf d.db id) :
    ∃ p, loadFormat d b = .ok p := by
  obtain ⟨p, -, hp⟩ := mem_map.mp (h.mem_iff.mp (mem_map_of_mem hb))
  exact ⟨p, hp.symm⟩

theorem Reads.mapM (h : Reads d id payloads) :
    ∃ out, (formatsOf d.db id).mapM (loadFormat d) = .ok out ∧ out.Perm payloads := by
  obtain ⟨out, hout⟩ := Fallible.mapM_ok_iff.mpr fun b hb => h.loads hb
  have hperm : (out.map ok).Perm (payloads.map (ok (ε := Error))) := by
    rw [← Fallible.mapM_eq_ok_iff.mp hout]
    exact h
  have hinj : Function.Injective (ok (ε := Error) (α := MimePayload)) :=
    fun _ _ heq => ok.inj heq
  exact ⟨out, hout, (map_perm_map_iff hinj).mp hperm⟩

/-- What is loaded is what the formats read back as. -/
theorem reads_of_load (hr : r ∈ d.db.entries.rows) (hlive : r.cols.deleted = false)
    (h : loadPayloads d r.id = .ok held) : Reads d r.id held := by
  rw [loadPayloads_eq hr hlive] at h
  obtain ⟨out, hout, rfl⟩ := Fallible.map_ok_iff.mp h
  have hreads : Reads d r.id out := Perm.of_eq (Fallible.mapM_eq_ok_iff.mp hout)
  exact hreads.perm (perm_insertionSort _ out).symm

/-- **What the formats read back as is loaded**, sorted. -/
theorem load_of_reads (hr : r ∈ d.db.entries.rows) (hlive : r.cols.deleted = false)
    (h : Reads d r.id payloads) (hnodup : (payloads.map MimePayload.mime).Nodup) :
    loadPayloads d r.id = .ok (inOrder payloads) := by
  obtain ⟨out, hout, hperm⟩ := h.mapM
  have hmimes : out.map MimePayload.mime = (formatsOf d.db r.id).map BlobRow.mime :=
    Fallible.map_of_mapM_ok (fun _ _ => mime_of_loadFormat) hout
  -- they come sorted by name
  have hsorted : out.Pairwise (fun a b => a.mime ≤ b.mime) := by
    have hformats : (formatsOf d.db r.id).Pairwise (fun a b => a.mime ≤ b.mime) :=
      (pairwise_insertionSort (fun a b : BlobRow => a.mime ≤ b.mime) _).filter _
    have hnames : ((formatsOf d.db r.id).map BlobRow.mime).Pairwise (· ≤ ·) :=
      pairwise_map.mpr hformats
    rw [← hmimes] at hnames
    exact pairwise_map.mp hnames
  have hout' : inOrder out = out.insertionSort (fun a b => mimeRank a.mime ≤ mimeRank b.mime) := by
    unfold inOrder
    rw [hsorted.insertionSort_eq]
  have hnodup' : (out.map MimePayload.mime).Nodup := (hperm.map _).nodup_iff.mpr hnodup
  rw [loadPayloads_eq hr hlive, hout, ← inOrder_congr hperm hnodup', hout']
  rfl

theorem Reads.nodup (hone : OneEach d.db) (h : Reads d id payloads) :
    (payloads.map MimePayload.mime).Nodup := by
  obtain ⟨out, hout, hperm⟩ := h.mapM
  have hmimes : out.map MimePayload.mime = (formatsOf d.db id).map BlobRow.mime :=
    Fallible.map_of_mapM_ok (fun _ _ => mime_of_loadFormat) hout
  rw [← (hperm.map _).nodup_iff, hmimes]
  have hformats : (formatsOf d.db id).Perm
      ((d.db.entryBlobs.filter (fun b => b.entryId = id)).filter (fun b => b.mime ≠ thumbnailMime)) :=
    (perm_insertionSort _ _).filter _
  rw [(hformats.map _).nodup_iff]
  refine Nodup.sublist (filter_sublist.map _) ?_
  -- two references of this entry differ in their names
  have hpairs := pairwise_map.mp hone
  rw [Nodup, pairwise_map]
  refine (hpairs.filter _).imp_of_mem ?_
  intro a b ha hb hne heq
  have hida : a.entryId = id := of_decide_eq_true (mem_filter.mp ha).2
  have hidb : b.entryId = id := of_decide_eq_true (mem_filter.mp hb).2
  exact hne (Prod.ext (hida.trans hidb.symm) heq)

/-- What is read from files that are the same is the same. -/
theorem Reads.of_same (h : Reads d id payloads) (hsame : SameFormats d d' id) :
    Reads d' id payloads := by
  have hmap : (formatsOf d'.db id).map (loadFormat d') = (formatsOf d.db id).map (loadFormat d) := by
    rw [hsame.formats]
    refine map_congr_left fun b hb => ?_
    obtain ⟨p, hp⟩ := h.loads hb
    obtain ⟨data, hget, -⟩ := Fallible.map_ok_iff.mp hp
    obtain ⟨f, hfile⟩ := file_of_get hget
    unfold loadFormat
    rw [hsame.cipher, get_congr d.blobCipher ((hsame.files b hb f hfile).trans hfile.symm)]
  unfold Reads
  rw [hmap]
  exact h

/-- Formats of other names read back as the payloads of other formats. -/
theorem Reads.filter (h : Reads d id payloads) (mime : String) :
    (((formatsOf d.db id).filter (fun b => b.mime ≠ mime)).map (loadFormat d)).Perm
      ((payloads.filter (fun q => q.mime ≠ mime)).map .ok) := by
  -- the filter on names, as a filter on what is read
  let other : Except Error MimePayload → Bool
    | .ok q => decide (q.mime ≠ mime)
    | .error _ => true
  have hleft : ((formatsOf d.db id).filter (fun b => b.mime ≠ mime)).map (loadFormat d)
      = ((formatsOf d.db id).map (loadFormat d)).filter other := by
    rw [filter_map]
    refine congrArg _ (filter_congr fun b hb => ?_)
    obtain ⟨p, hp⟩ := h.loads hb
    show _ = other (loadFormat d b)
    rw [hp]
    show _ = decide (p.mime ≠ mime)
    rw [mime_of_loadFormat hp]
  have hright : (payloads.filter (fun q => q.mime ≠ mime)).map ok
      = (payloads.map ok).filter other := by
    rw [filter_map]
    rfl
  rw [hleft, hright]
  exact Perm.filter other h

end Reads

/-! ## §2. What the calls on a row leave -/

/-- An entry has this format. -/
def HasFormat (d : Daemon) (id : Nat) (mime : String) : Prop :=
  ∃ b ∈ formatsOf d.db id, b.mime = mime

/-- These payloads have been attached to the entry and nothing else is different: no row has
    become visible, and what is visible reads as it did, but for the payloads laid over those
    of the entry. -/
structure Laid (h : Hash) (all : List MimePayload) (id : Nat) (written : List MimePayload)
    (d d' : Daemon) : Prop where
  apart : Apart h d all → Apart h d' all
  intact : Intact d → Intact d'
  rows : ∀ r' ∈ d'.db.entries.rows, r'.cols.deleted = false →
    ∃ r ∈ d.db.entries.rows, r.id = r'.id ∧ r.key = r'.key ∧ r.cols.deleted = false
  others : ∀ i, i ≠ id → Visible d' i → SameFormats d d' i
  held : Visible d' id → Apart h d all → ∀ payloads, Reads d id payloads →
    Reads d' id (laid payloads written)
  formats : Visible d' id → ∀ mime, mime ≠ thumbnailMime →
    (HasFormat d' id mime ↔ mime ∈ written.map MimePayload.mime ∨ HasFormat d id mime)

section Laid

variable {h : Hash} {all written written' : List MimePayload} {env : Env} {d d' d'' : Daemon}
  {id : Nat} {r : EntryRow} {p : MimePayload}

theorem Laid.live (hlaid : Laid h all id written d d') {i : Nat} (hlive : Visible d' i) : Visible d i := by
  obtain ⟨r', hr', hid', hdel'⟩ := hlive
  obtain ⟨r, hr, hid, -, hdel⟩ := hlaid.rows r' hr' hdel'
  exact ⟨r, hr, hid.trans hid', hdel⟩

theorem Laid.trans (hlaid : Laid h all id written d d') (hlaid' : Laid h all id written' d' d'') :
    Laid h all id (written ++ written') d d'' where
  apart ha := hlaid'.apart (hlaid.apart ha)
  intact hi := hlaid'.intact (hlaid.intact hi)
  rows r'' hr'' hdel'' := by
    obtain ⟨r', hr', hid', hkey', hdel'⟩ := hlaid'.rows r'' hr'' hdel''
    obtain ⟨r, hr, hid, hkey, hdel⟩ := hlaid.rows r' hr' hdel'
    exact ⟨r, hr, hid.trans hid', hkey.trans hkey', hdel⟩
  others i hne hlive :=
    (hlaid.others i hne (hlaid'.live hlive)).trans (hlaid'.others i hne hlive)
  held hlive ha payloads hreads := by
    have hnext := hlaid'.held hlive (hlaid.apart ha) _
      (hlaid.held (hlaid'.live hlive) ha payloads hreads)
    unfold laid at hnext ⊢
    rw [foldl_append]
    exact hnext
  formats hlive mime hmime := by
    rw [hlaid'.formats hlive mime hmime, hlaid.formats (hlaid'.live hlive) mime hmime,
      map_append, mem_append, ← or_assoc]
    exact or_congr_left Or.comm

/-- A change that no visible entry's formats show. -/
theorem laid_of_same (happart : Apart h d all → Apart h d' all) (hintact : Intact d → Intact d')
    (hrows : ∀ r' ∈ d'.db.entries.rows, r'.cols.deleted = false →
      ∃ r ∈ d.db.entries.rows, r.id = r'.id ∧ r.key = r'.key ∧ r.cols.deleted = false)
    (hsame : ∀ i, Visible d' i → SameFormats d d' i) : Laid h all id [] d d' where
  apart := happart
  intact := hintact
  rows := hrows
  others i _ hlive := hsame i hlive
  held hlive _ _ hreads := hreads.of_same (hsame id hlive)
  formats hlive mime _ := by
    unfold HasFormat
    rw [(hsame id hlive).formats]
    simp

theorem laid_refl (d : Daemon) : Laid h all id [] d d :=
  laid_of_same (fun ha => ha) (fun hi => hi) (fun r hr hdel => ⟨r, hr, rfl, rfl, hdel⟩)
    (fun i _ => SameFormats.refl d i)

theorem Thinned.intact (hthinned : Thinned d d') (hintact : Intact d) : Intact d' := by
  refine ⟨?_, ?_⟩
  · intro f hf
    have hfile' : d'.blobs.file f.name = some f :=
      (Keyed.lookup_eq_some d'.blobs.namesNodup).mpr ⟨hf, rfl⟩
    have hfile := hthinned.fewer f.name f hfile'
    obtain ⟨data, hget⟩ := hintact.opens f ((Keyed.lookup_eq_some d.blobs.namesNodup).mp hfile).1
    refine ⟨data, ?_⟩
    rw [hthinned.cipher, get_congr d.blobCipher (hfile'.trans hfile.symm)]
    exact hget
  · intro b hb
    rw [hthinned.files b hb]
    exact hintact.there b (hthinned.refs b hb)

/-- What is visible after things were taken away reads as it did. -/
theorem Thinned.sameFormats (hthinned : Thinned d d') {i : Nat} (hlive : Visible d' i) :
    SameFormats d d' i := by
  obtain ⟨r', hr', rfl, hdel⟩ := hlive
  have hrefs : d'.db.refsOf r'.id = d.db.refsOf r'.id := by
    rcases hthinned.formats r' hr' with hsame | ⟨hgone, -⟩
    · exact hsame
    · exact absurd (hdel.symm.trans hgone) Bool.false_ne_true
  have hformats := formatsOf_congr hrefs
  refine ⟨hformats, hthinned.cipher, ?_⟩
  intro b hb f hf
  rw [← hformats] at hb
  rw [hthinned.files b (mem_formatsOf.mp hb).1]
  exact hf

theorem Thinned.laid (hthinned : Thinned d d') : Laid h all id [] d d' := by
  refine laid_of_same (fun ha => ha.thinned hthinned) hthinned.intact ?_
    (fun i hlive => hthinned.sameFormats hlive)
  intro r' hr' hdel'
  obtain ⟨r, hr, hid, hkey, hlive⟩ := hthinned.rows r' hr'
  exact ⟨r, hr, hid.symm, hkey.symm, hlive hdel'⟩

/-- Content that is put and not attached shows nowhere. -/
theorem laid_putBlob (hp : p ∈ all) {ref : String}
    (hrun : exec (putBlob env p.data) d = (.ok ref, d')) : Laid env.hash all id [] d d' := by
  obtain ⟨blobs, hput⟩ := d.blobs.put_ok env.hash d.blobCipher p.data
  have hintact : Intact d → Intact d' := by
    intro hi
    have hadvanced : Advanced (fun _ => False) d (exec (putBlob env p.data) d).2 :=
      advances_putBlob env p.data d
    rw [hrun] at hadvanced
    exact hadvanced.intact hi
  have hexec : exec (putBlob env p.data) d = (.ok (env.hash.contentHash p.data), { d with blobs }) :=
    exec_attempt_ok (by rw [hput]; rfl)
  rw [hexec] at hrun
  cases hrun
  obtain ⟨-, hkept, -, -⟩ := put_cases hput
  exact laid_of_same (fun ha => (ha.put hp hput).1) hintact
    (fun r hr hdel => ⟨r, hr, rfl, rfl, hdel⟩)
    (fun i _ => ⟨rfl, rfl, fun b _ f hf => hkept b.blobRef f hf⟩)

/-- What the formats read back as once a payload is attached. -/
theorem Reads.attached (hreads : Reads d id written) (hrow : d.db.entries.get id = some r)
    (happart : Apart env.hash d all) (hp : p ∈ all) :
    Reads (exec (storeBlob env id p.mime p.data) d).2 id (lay written p) := by
  obtain ⟨blobs, hput, hexec⟩ := exec_storeBlob_eq env hrow p
  obtain ⟨-, hkept, -, -⟩ := put_cases hput
  obtain ⟨hnext, hthere⟩ := happart.put hp hput
  rw [hexec]
  unfold lay
  by_cases hmime : p.mime = thumbnailMime
  · rw [if_pos hmime]
    exact hreads.of_same ⟨formatsOf_beside d.db (.inr hmime), rfl,
      fun b _ f hf => hkept b.blobRef f hf⟩
  · rw [if_neg hmime]
    unfold Reads
    refine ((perm_formatsOf_over blobs hmime).map _).trans ?_
    rw [map_append, map_append]
    refine Perm.append ?_ (Perm.of_eq ?_)
    · -- the other formats are where they were
      refine Perm.trans (Perm.of_eq (map_congr_left fun b hb => ?_))
        (hreads.filter p.mime)
      obtain ⟨q, hq⟩ := hreads.loads (mem_filter.mp hb).1
      obtain ⟨data, hget, -⟩ := Fallible.map_ok_iff.mp hq
      obtain ⟨f, hfile⟩ := file_of_get hget
      show (blobs.get d.blobCipher b.blobRef).map _ = (d.blobs.get d.blobCipher b.blobRef).map _
      rw [get_congr d.blobCipher ((hkept _ f hfile).trans hfile.symm)]
    · have hget : blobs.get d.blobCipher (env.hash.contentHash p.data) = .ok p.data :=
        hnext.taken p hp hthere
      show [(blobs.get d.blobCipher (env.hash.contentHash p.data)).map _] = _
      rw [hget]
      rfl

/-- **A payload that is stored** is laid over those the entry had. -/
theorem laid_storeBlob (env : Env) (hrow : d.db.entries.get id = some r) (hp : p ∈ all) :
    Laid env.hash all id [p] d (exec (storeBlob env id p.mime p.data) d).2 where
  apart ha := ha.storeBlob hrow hp
  intact hi := (advances_storeBlob env id p.mime p.data d).intact hi
  rows := by
    obtain ⟨blobs, -, hexec⟩ := exec_storeBlob_eq env hrow p
    rw [hexec]
    exact fun r hr hdel => ⟨r, hr, rfl, rfl, hdel⟩
  others i hne _ := by
    obtain ⟨blobs, hput, hexec⟩ := exec_storeBlob_eq env hrow p
    obtain ⟨-, hkept, -, -⟩ := put_cases hput
    rw [hexec]
    exact ⟨formatsOf_beside d.db (.inl hne.symm), rfl, fun b _ f hf => hkept b.blobRef f hf⟩
  held _ ha payloads hreads := hreads.attached hrow ha hp
  formats _ mime hmime := by
    obtain ⟨blobs, -, hexec⟩ := exec_storeBlob_eq env hrow p
    rw [hexec, map_singleton, mem_singleton]
    unfold HasFormat
    by_cases hthumb : p.mime = thumbnailMime
    · have hsame : formatsOf (Panod.attached d blobs (refTo env.hash id p)).db id
          = formatsOf d.db id := formatsOf_beside d.db (.inr hthumb)
      have hne : mime ≠ p.mime := fun heq => hmime (heq.trans hthumb)
      rw [hsame]
      exact (or_iff_right hne).symm
    · have hperm : (formatsOf (Panod.attached d blobs (refTo env.hash id p)).db id).Perm
          ((formatsOf d.db id).filter (fun b => b.mime ≠ p.mime) ++ [refTo env.hash id p]) :=
        perm_formatsOf_over blobs hthumb
      constructor
      · rintro ⟨b, hb, rfl⟩
        rcases mem_append.mp (hperm.mem_iff.mp hb) with hold | hnew
        · exact .inr ⟨b, (mem_filter.mp hold).1, rfl⟩
        · rw [mem_singleton.mp hnew]
          exact .inl rfl
      · intro hhas
        by_cases hname : mime = p.mime
        · exact ⟨refTo env.hash id p,
            hperm.mem_iff.mpr (mem_append_right _ mem_cons_self), hname.symm⟩
        · obtain ⟨b, hb, rfl⟩ := hhas.resolve_left hname
          exact ⟨b, hperm.mem_iff.mpr (mem_append_left _
            (mem_filter.mpr ⟨hb, decide_eq_true hname⟩)), rfl⟩

/-- A thumbnail is no format. -/
theorem Laid.drop_thumbnail {png : Bytes} (hlaid : Laid h all id [⟨thumbnailMime, png⟩] d d') :
    Laid h all id [] d d' where
  apart := hlaid.apart
  intact := hlaid.intact
  rows := hlaid.rows
  others := hlaid.others
  held := hlaid.held
  formats hlive mime hmime := by
    rw [hlaid.formats hlive mime hmime, map_singleton, mem_singleton]
    exact ⟨fun hhas => .inr (hhas.resolve_left hmime), fun hhas =>
      .inr (hhas.resolve_left (by simp))⟩

end Laid

/-! ## §3. Where a capture fails -/

/-- The daemon once the row of a capture is there. -/
def opened (d : Daemon) : Daemon :=
  { d with
    db := (d.db.tickLamport.2.upsertEntry d.dbCipher (newEntry env data d.db.tickLamport.1)).2 }

section Failing

variable {env : Env} {data : ClipboardData} {d d' : Daemon} {id n m : Nat} {r : EntryRow}
  {all : List MimePayload}

theorem sameBlobs_opened (env : Env) (data : ClipboardData) (d : Daemon) :
    SameBlobs d (opened env data d) := ⟨(upsertEntry_eq _ _ _).2, rfl, rfl⟩

theorem wrote_opened (env : Env) (data : ClipboardData) (d : Daemon) :
    d.db.Wrote (keyOf env data) (upsertedCapture env data d) (opened env data d).db := by
  have hupsert := (wrote_upsertEntry d.db.tickLamport.2 d.dbCipher
    (newEntry env data d.db.tickLamport.1)).2
  exact ⟨hupsert.row, hupsert.entries⟩

theorem thinned_markSecret (env : Env) (data : ClipboardData) (id : Nat) :
    Keeps Thinned (markSecret env data id) := by
  unfold markSecret
  split
  · intro d
    refine Recast.thinned (d := d) ⟨rfl, _, rfl, ?_⟩
    intro r _ hlive
    split at hlive
    · exact hlive
    · exact hlive
  · exact keeps_pure Thinned.refl ()

theorem thinned_indexCapture (env : Env) (data : ClipboardData) (id : Nat) :
    Keeps Thinned (indexCapture env data id) := by
  unfold indexCapture
  split
  · split
    · exact fun d => Recast.thinned (d := d) (recast_of_eq rfl rfl)
    · exact keeps_pure Thinned.refl ()
  · exact keeps_pure Thinned.refl ()

/-- Once the row is there, nothing is written before the payloads that a visible entry's
    formats show. -/
theorem each_settleCalls (env : Env) (data : ClipboardData) (lamport : Int) (id : Nat) :
    (settleCalls env data lamport id).Each Thinned := by
  unfold settleCalls
  refine each_bind (each_of (thinned_tracked (fun _ h => h))) fun _ =>
    each_bind ?_ fun _ => ?_
  · exact each_when (thinned_markSecret env data id)
  · exact each_when (thinned_indexCapture env data id)

theorem each_tombstoneCalls (id : Nat) (now : Int) : (tombstoneCalls id now).Each Thinned := by
  unfold tombstoneCalls
  refine each_bind (each_of (thinned_tracked ?_)) fun _ =>
    each_of fun d => Recast.thinned (d := d) (recast_of_eq rfl rfl)
  exact fun _ h => absurd h (by simp [Cols.tombstoned])

theorem each_ruleCalls (select : Database → List Nat) : (ruleCalls select).Each Thinned := by
  unfold ruleCalls
  refine each_bind (each_of (keeps_reads Thinned.refl _)) fun ids => ?_
  exact each_bind (each_forM (fun id => each_tombstoneCalls id 0) ids)
    fun _ => trivial

theorem each_ruleCallsWhen (on : Prop) [Decidable on] (select : Database → List Nat) :
    (ruleCallsWhen on select).Each Thinned := by
  unfold ruleCallsWhen
  split
  · exact each_ruleCalls select
  · exact trivial

/-- A retention pass takes away only, call by call. -/
theorem each_passCalls (env : Env) : (passCalls env).Each Thinned := by
  unfold passCalls
  refine each_bind (each_ruleCalls _) fun _ => ?_
  refine each_bind (each_ruleCallsWhen _ _) fun _ => ?_
  refine each_bind (each_ruleCallsWhen _ _) fun _ => ?_
  refine each_bind (each_ruleCallsWhen _ _) fun _ => ?_
  refine each_bind (each_of (thinned_stripDeleted env)) fun _ => ?_
  exact each_bind (each_of (thinned_purgeTombstonedBefore _)) fun _ => trivial

theorem visible_of_find {k : EntryKey} (h : d.db.entries.find k = some r) (hid : r.id = id)
    (hlive : r.cols.deleted = false) : Visible d id :=
  ⟨r, (Table.find_eq_some.mp h).1, hid, hlive⟩

/-- What is done to the row of a capture before its payloads: it succeeds, and the row stays
    visible. -/
theorem lasts_settleCalls (env : Env) (data : ClipboardData) (d : Daemon) :
    ∃ d', Lasts (Visible · (upsertedCapture env data d).id)
        (settleCalls env data d.db.tickLamport.1 (upsertedCapture env data d).id)
        (opened env data d) () d' (replicate (recordCount env data - 2) false) ∧
      d.db.Wrote (keyOf env data) (capturedRow env data d) d'.db := by
  have hopened := wrote_opened env data d
  have hlive : (upsertedCapture env data d).cols.deleted = false := upsertedRow_deleted _ _ _
  obtain ⟨db1, hstamp, hwrote1⟩ := wrote_stamp hopened.row d.db.tickLamport.1 env.deviceId
  obtain ⟨d2, hmark, hwrote2, -⟩ :=
    exec_markSecret env data { opened env data d with db := db1 } hwrote1.row
  obtain ⟨d3, hindex, haside⟩ := exec_indexCapture env data (upsertedCapture env data d).id d2
  have hwrote : d.db.Wrote (keyOf env data) (capturedRow env data d) d2.db :=
    (hopened.trans hwrote1).trans hwrote2
  have hshown1 : Visible { opened env data d with db := db1 } (upsertedCapture env data d).id :=
    visible_of_find hwrote1.row rfl hlive
  have hshown2 : Visible d2 (upsertedCapture env data d).id :=
    visible_of_find hwrote.row rfl (capturedRow_deleted env data d)
  refine ⟨d3, ?_, hwrote.of_entries_eq haside.entries⟩
  have hcount : recordCount env data - 2
      = 1 + ((if (secretIn env data).isSome then 1 else 0) + (if indexed env data then 1 else 0)) := by
    unfold recordCount
    omega
  rw [hcount, ← replicate_append_replicate, ← replicate_append_replicate]
  refine Lasts.bind (lasts_of (exec_changeDb_ok hstamp) ?_) (Lasts.bind (lasts_when ?_ hmark ?_)
    (lasts_when indexCapture_of_not hindex ?_))
  · simp only [hshown1, visible_of_find hopened.row rfl hlive, and_self]
  · exact fun hnone => if_neg (by rw [hnone]; exact Bool.false_ne_true)
  · simp only [hshown1, hshown2]
  · unfold Visible
    rw [haside.entries]

/-- The row of a capture is recorded, in this many calls. -/
theorem exec_recordCalls (env : Env) (data : ClipboardData) (d : Daemon) :
    ∃ d', exec (recordCalls env data).run d = (.ok (capturedRow env data d).id, d') ∧
      (recordCalls env data).calls d = recordCount env data ∧ Thinned (opened env data d) d' ∧
      d.db.Wrote (keyOf env data) (capturedRow env data d) d'.db := by
  obtain ⟨d', hlasts, hwrote⟩ := lasts_settleCalls env data d
  have hsettle := hlasts.run
  have hcount := hlasts.calls
  rw [length_replicate] at hcount
  have hthinned := keeps_run Thinned.refl Thinned.trans
    (each_settleCalls env data d.db.tickLamport.1 (upsertedCapture env data d).id)
    (opened env data d)
  rw [hsettle] at hthinned
  have htick : exec (of (updateDb tickLamport)).run d
      = (.ok d.db.tickLamport.1, { d with db := d.db.tickLamport.2 }) := by
    rw [run_of]
    rfl
  have hupsert : ∀ f : Daemon → Nat × Daemon,
      f { d with db := d.db.tickLamport.2 } = ((upsertedCapture env data d).id, opened env data d) →
      exec (of (step (ε := Error) f)).run { d with db := d.db.tickLamport.2 }
        = (.ok (upsertedCapture env data d).id, opened env data d) := by
    intro f hf
    rw [run_of, exec_step, hf]
  have hid : (d.db.tickLamport.2.upsertEntry d.dbCipher (newEntry env data d.db.tickLamport.1)).1
      = (upsertedCapture env data d).id := (wrote_upsertEntry _ _ _).1
  refine ⟨d', ?_, ?_, hthinned, hwrote⟩
  · unfold recordCalls
    rw [run_bind, exec_bind_ok htick, run_bind, exec_bind_ok (hupsert _ ?_),
      run_bind, exec_bind_ok hsettle]
    · rfl
    · exact Prod.ext hid rfl
  · have hbound : 3 ≤ recordCount env data := by
      unfold recordCount
      omega
    unfold recordCalls
    rw [calls_bind htick, calls_bind (hupsert _ ?_), calls_bind hsettle,
      calls_of (exec_updateDb _ d), calls_of (exec_step _ _), hcount]
    · show 1 + (1 + (_ + 0)) = _
      omega
    · exact Prod.ext hid rfl

/-- **A capture that fails before its payloads** has written nothing that shows, or its row. -/
theorem failing_recordCalls (h : (recordCalls env data).failing n d = some d') :
    n < recordCount env data ∧
      ((n ≤ 1 ∧ d'.db.entries = d.db.entries ∧ SameBlobs d d') ∨
        (2 ≤ n ∧ Thinned (opened env data d) d' ∧ Visible d' (capturedRow env data d).id)) := by
  obtain ⟨d2, hlasts, -⟩ := lasts_settleCalls env data d
  have hbound : 3 ≤ recordCount env data := by
    unfold recordCount
    omega
  have hid : (d.db.tickLamport.2.upsertEntry d.dbCipher
      (newEntry env data d.db.tickLamport.1)).1 = (upsertedCapture env data d).id :=
    (wrote_upsertEntry _ _ _).1
  unfold recordCalls at h
  rcases failing_bind h with hfirst | ⟨lamport, d0, n0, hrun, hn, hrest⟩
  · -- the clock could not be ticked
    obtain ⟨rfl, rfl⟩ := (failing_of _).mp hfirst
    exact ⟨by omega, .inl ⟨by omega, rfl, SameBlobs.refl d'⟩⟩
  · rw [calls_of (exec_updateDb _ d)] at hn
    rw [run_of, exec_updateDb] at hrun
    cases hrun
    rcases failing_bind hrest with hfirst | ⟨id, d1, n1, hrun, hn0, hrest⟩
    · -- the row could not be written
      obtain ⟨rfl, rfl⟩ := (failing_of _).mp hfirst
      exact ⟨by omega, .inl ⟨by omega, rfl, rfl, rfl, rfl⟩⟩
    · rw [calls_of (exec_step _ _)] at hn0
      rw [run_of, exec_step] at hrun
      have hid1 : id = (upsertedCapture env data d).id := by
        rw [← hid]
        exact (ok.inj (Prod.mk.inj hrun).1).symm
      have hd1 : d1 = opened env data d := (Prod.mk.inj hrun).2.symm
      rw [hid1, hd1] at hrest
      rcases failing_bind hrest with hfirst | ⟨_, _, _, _, _, hrest⟩
      · -- the row is there
        have hlt := failing_lt hlasts.run hfirst
        rw [hlasts.calls, length_replicate] at hlt
        have hshown : Visible (opened env data d) (upsertedCapture env data d).id :=
          visible_of_find (wrote_opened env data d).row rfl (upsertedRow_deleted _ _ _)
        refine ⟨by omega, .inr ⟨by omega, keeps_failing Thinned.refl Thinned.trans
          (each_settleCalls env data _ _) hfirst, (hlasts.meanwhile n1 d' hfirst).mpr ⟨hshown, ?_⟩⟩⟩
        rw [take_replicate]
        simp
      · exact absurd hrest (by simp [failing, pure])

/-- A payload that could not be stored leaves nothing that shows. -/
theorem failing_blobCalls {p : MimePayload} (hp : p ∈ all)
    (h : (blobCalls env id p.mime p.data).failing n d = some d') :
    n ≤ 1 ∧ Laid env.hash all id [] d d' := by
  unfold blobCalls at h
  rcases failing_bind h with hfirst | ⟨ref, d1, n1, hrun, hn, hrest⟩
  · obtain ⟨rfl, rfl⟩ := (failing_of _).mp hfirst
    exact ⟨by omega, laid_refl d'⟩
  · obtain ⟨rfl, rfl⟩ := (failing_of _).mp hrest
    rw [run_of] at hrun
    rw [calls_of hrun] at hn
    exact ⟨by omega, laid_putBlob hp hrun⟩

/-- **One payload is stored**, in two calls: it is laid over those the entry had, and no row
    changes. -/
theorem lasts_blobCalls (env : Env) (hrow : d.db.entries.get id = some r) {p : MimePayload}
    (hp : p ∈ all) : ∃ d1,
      Lasts (Visible · id) (blobCalls env id p.mime p.data) d () d1 [false, false] ∧
        Laid env.hash all id [p] d d1 ∧ d1.db.entries = d.db.entries := by
  obtain ⟨d1, hrun, haside⟩ := exec_storeBlob env hrow p.mime p.data
  have hlaid := laid_storeBlob env hrow hp
  rw [hrun] at hlaid
  obtain ⟨ref, d2, hput, hattach⟩ := exec_bind_eq_ok.mp hrun
  have hentries : d2.db.entries = d.db.entries := by
    obtain ⟨blobs, hblobs⟩ := d.blobs.put_ok env.hash d.blobCipher p.data
    have hexec : exec (putBlob env p.data) d
        = (.ok (env.hash.contentHash p.data), { d with blobs }) :=
      exec_attempt_ok (by rw [hblobs]; rfl)
    cases hexec.symm.trans hput
    rfl
  exact ⟨d1, (lasts_aside hput hentries).bind
    (lasts_aside hattach (haside.entries.trans hentries.symm)), hlaid, haside.entries⟩

/-- **A capture that fails at a payload** has attached those before it. -/
theorem failing_payloads (payloads : List MimePayload) : ∀ (d : Daemon) (n : Nat),
    payloads ⊆ all → d.db.entries.get id = some r →
      (payloads.forM (fun p => blobCalls env id p.mime p.data)).failing n d = some d' →
      n / 2 < payloads.length ∧ Laid env.hash all id (payloads.take (n / 2)) d d' := by
  induction payloads with
  | nil =>
    intro d n _ _ h
    exact absurd h (by simp [failing, pure])
  | cons p payloads ih =>
    intro d n hsub hrow h
    have hp : p ∈ all := hsub mem_cons_self
    rw [forM_eq_forM, forM_cons] at h
    rcases failing_bind h with hfirst | ⟨_, d1, n1, hrun, hn, hrest⟩
    · obtain ⟨hle, hlaid⟩ := failing_blobCalls hp hfirst
      have hzero : n / 2 = 0 := by omega
      rw [hzero]
      exact ⟨Nat.succ_pos _, hlaid⟩
    · obtain ⟨d2, hlasts, hlaid, hentries⟩ := lasts_blobCalls env hrow hp
      cases hlasts.run.symm.trans hrun
      rw [hlasts.calls, length_cons, length_singleton] at hn
      obtain ⟨hlt, hlaid1⟩ := ih d1 n1 (fun q hq => hsub (mem_cons_of_mem p hq))
        (hentries ▸ hrow) hrest
      have hhalf : n / 2 = n1 / 2 + 1 := by omega
      rw [hhalf, take_succ_cons, length_cons]
      exact ⟨by omega, hlaid.trans hlaid1⟩

/-- All payloads of a capture, stored. -/
theorem lasts_payloads (env : Env) (payloads : List MimePayload) : ∀ (d : Daemon),
    payloads ⊆ all → d.db.entries.get id = some r → ∃ d1,
      Lasts (Visible · id) (payloads.forM (fun p => blobCalls env id p.mime p.data)) d () d1
        (replicate (2 * payloads.length) false) ∧
      Laid env.hash all id payloads d d1 ∧ d1.db.entries = d.db.entries := by
  induction payloads with
  | nil => exact fun d _ _ => ⟨d, lasts_pure (), laid_refl d, rfl⟩
  | cons p payloads ih =>
    intro d hsub hrow
    obtain ⟨d1, hlasts, hlaid, hentries⟩ := lasts_blobCalls env hrow (hsub mem_cons_self)
    obtain ⟨d2, hlasts1, hlaid1, hentries1⟩ :=
      ih d1 (fun q hq => hsub (mem_cons_of_mem p hq)) (hentries ▸ hrow)
    have hcount : replicate (2 * (p :: payloads).length) false
        = [false, false] ++ replicate (2 * payloads.length) false := by
      rw [length_cons, Nat.mul_succ, Nat.add_comm, ← replicate_append_replicate]
      rfl
    rw [hcount, forM_eq_forM, forM_cons]
    exact ⟨d2, hlasts.bind hlasts1, hlaid.trans hlaid1, hentries1.trans hentries⟩

theorem thumbnail_mem_putBy {png : Bytes}
    (h : (imageOf env data).bind env.content.renderThumbnail = some png) :
    (⟨thumbnailMime, png⟩ : MimePayload) ∈ putBy env data := by
  unfold putBy thumbnailOf
  rw [h]
  simp

/-- The thumbnail, if there is one. -/
theorem lasts_thumbnailCalls (hput : putBy env data ⊆ all)
    (hrow : d.db.entries.get id = some r) : ∃ d1,
      Lasts (Visible · id)
        (thumbnailCalls env id ((imageOf env data).bind env.content.renderThumbnail)) d () d1
        (replicate
          (if ((imageOf env data).bind env.content.renderThumbnail).isSome then 2 else 0) false) ∧
      Laid env.hash all id [] d d1 ∧ d1.db.entries = d.db.entries := by
  cases hthumb : (imageOf env data).bind env.content.renderThumbnail with
  | none => exact ⟨d, lasts_pure (), laid_refl d, rfl⟩
  | some png =>
    obtain ⟨d1, hlasts, hlaid, hentries⟩ :=
      lasts_blobCalls env hrow (hput (thumbnail_mem_putBy hthumb))
    exact ⟨d1, hlasts, hlaid.drop_thumbnail, hentries⟩

/-- **A capture that fails after its payloads** has only taken away since. -/
theorem failing_restCalls (hput : putBy env data ⊆ all) (hrow : d.db.entries.get id = some r)
    (h : (restCalls env data id).failing n d = some d') : Laid env.hash all id [] d d' := by
  obtain ⟨d1, hlasts, hlaid, -⟩ := lasts_thumbnailCalls hput hrow
  unfold restCalls at h
  rcases failing_bind h with hfirst | ⟨_, d1', n1, hrun, -, hrest⟩
  · -- the thumbnail
    cases hthumb : (imageOf env data).bind env.content.renderThumbnail with
    | none =>
      rw [hthumb] at hfirst
      exact absurd hfirst (by simp [failing, thumbnailCalls, pure])
    | some png =>
      rw [hthumb] at hfirst
      exact (failing_blobCalls (hput (thumbnail_mem_putBy hthumb)) hfirst).2
  · cases hlasts.run.symm.trans hrun
    refine hlaid.trans ?_
    rcases failing_bind hrest with hfirst | ⟨_, d2, n2, hrun, -, hrest⟩
    · exact (keeps_failing Thinned.refl Thinned.trans (each_passCalls env) hfirst).laid
    · obtain ⟨-, rfl⟩ := (failing_of _).mp hrest
      have hthinned := keeps_run Thinned.refl Thinned.trans (each_passCalls env) d1
      rw [hrun] at hthinned
      exact hthinned.laid

/-- How long the row is visible, from its payloads on. -/
theorem meanwhile_payloads (hput : putBy env data ⊆ all)
    (hwrote : d.db.Wrote (keyOf env data) (capturedRow env data d) d'.db) :
    (data.payloads.forM (fun p => blobCalls env (capturedRow env data d).id p.mime p.data)
      >>= fun _ => restCalls env data (capturedRow env data d).id).Meanwhile
        (Visible · (capturedRow env data d).id) d'
        (replicate (passStart env data - recordCount env data) false
          ++ passEnds env (capturedDb env data d) (capturedRow env data d).id) := by
  obtain ⟨d1, hlasts1, -, hentries1⟩ := lasts_payloads env data.payloads d'
    (fun p hp => hput (mem_append_left _ hp)) hwrote.get
  obtain ⟨d2, hlasts2, -, hentries2⟩ := lasts_thumbnailCalls hput (hentries1 ▸ hwrote.get)
  obtain ⟨k, d3, hlasts3⟩ := lasts_passCalls env (capturedRow env data d).id d2
  have hrows : d2.db.entries = (capturedDb env data d).entries :=
    (hentries2.trans hentries1).trans hwrote.entries
  have hsame : SameLive d2.db (capturedDb env data d) := by
    refine ⟨?_, ?_⟩
    · unfold liveUnpinned
      rw [hrows]
    · unfold pinnedBytes
      rw [hrows]
  have hcount : passStart env data - recordCount env data = 2 * data.payloads.length
      + if ((imageOf env data).bind env.content.renderThumbnail).isSome then 2 else 0 := by
    unfold passStart
    omega
  have hread : (of (getEntry (capturedRow env data d).id)).Meanwhile
      (Visible · (capturedRow env data d).id) d3 [] := by
    intro n s' h
    obtain ⟨-, rfl⟩ := (failing_of _).mp h
    simp
  have hlong := hlasts1.meanwhile_bind (f := fun _ => restCalls env data _)
    (hlasts2.meanwhile_bind (f := fun _ => passCalls env >>= fun _ => of (getEntry _))
      (hlasts3.meanwhile_bind hread))
  rw [append_nil, ← append_assoc, replicate_append_replicate, ← hcount,
    hsame.passEnds env] at hlong
  exact hlong

/-- **What a failed capture leaves**: nothing that shows, or its row with the payloads
    attached so far laid over those it had; the row is visible up to its eviction. -/
theorem failing_storeCalls (h : (storeCalls env data).failing n d = some d') :
    (n ≤ 1 ∧ d'.db.entries = d.db.entries ∧ SameBlobs d d') ∨
      (Laid env.hash (putBy env data) (capturedRow env data d).id (written env data n)
          (opened env data d) d' ∧
        (Visible d' (capturedRow env data d).id ↔ ShownAt env data n d)) := by
  have hpayloads : data.payloads ⊆ putBy env data := fun p hp => mem_append_left _ hp
  obtain ⟨d1, hrecord, hcount, hthinned, hwrote⟩ := exec_recordCalls env data d
  have hstart : recordCount env data ≤ passStart env data := by
    unfold passStart
    omega
  unfold storeCalls at h
  rcases failing_bind h with hfirst | ⟨id, d1', n1, hrun, hn, hrest⟩
  · obtain ⟨hlt, hcases⟩ := failing_recordCalls hfirst
    rcases hcases with hsame | ⟨htwo, hthinned, hshown⟩
    · exact .inl hsame
    · have hnone : written env data n = [] := by
        unfold written
        rw [Nat.sub_eq_zero_of_le (Nat.le_of_lt hlt)]
        rfl
      refine .inr ⟨by rw [hnone]; exact hthinned.laid, iff_of_true hshown ⟨htwo, ?_⟩⟩
      rw [Nat.sub_eq_zero_of_le (by omega)]
      simp
  · refine .inr ?_
    rw [hrecord] at hrun
    cases hrun
    rw [hcount] at hn
    refine ⟨?_, ?_⟩
    · have hwritten : written env data n = data.payloads.take (n1 / 2) := by
        unfold written
        rw [hn, Nat.add_sub_cancel_left]
      rw [hwritten]
      rcases failing_bind hrest with hfirst | ⟨_, d2, n2, hrun, hn1, hrest⟩
      · exact hthinned.laid.trans
          (failing_payloads data.payloads d1 n1 hpayloads hwrote.get hfirst).2
      · -- all payloads are attached
        obtain ⟨d2', hlasts, hlaid, hentries⟩ :=
          lasts_payloads env data.payloads d1 hpayloads hwrote.get
        cases hlasts.run.symm.trans hrun
        rw [hlasts.calls, length_replicate] at hn1
        have hall : data.payloads.take (n1 / 2) = data.payloads :=
          take_of_length_le (by omega)
        rw [hall]
        have hrest := failing_restCalls (Subset.refl _) (hentries ▸ hwrote.get) hrest
        have htrans := (hthinned.laid.trans hlaid).trans hrest
        rw [append_nil] at htrans
        exact htrans
    · have hbound : 2 ≤ recordCount env data := by
        unfold recordCount
        omega
      have hshown : Visible d1 (capturedRow env data d).id :=
        visible_of_find hwrote.row rfl (capturedRow_deleted env data d)
      have hcalls : n1 - (passStart env data - recordCount env data) = n - passStart env data := by
        omega
      refine (meanwhile_payloads (Subset.refl _) hwrote n1 d' hrest).trans ?_
      rw [take_append, length_replicate, take_replicate, mem_append, hcalls]
      unfold ShownAt
      simp [hshown, show 2 ≤ n by omega]

/-- **A capture that does not fail** lays its payloads over those its row had. -/
theorem laid_storeRow (env : Env) (data : ClipboardData) (d : Daemon) :
    ∃ d', exec (storeRow env data) d = (.ok (capturedRow env data d).id, d') ∧
      Laid env.hash (putBy env data) (capturedRow env data d).id data.payloads
        (opened env data d) d' ∧
      d.db.Wrote (keyOf env data) (capturedRow env data d) d'.db := by
  obtain ⟨d1, hrecord, -, hthinned, hwrote⟩ := exec_recordCalls env data d
  have hput : data.payloads ⊆ putBy env data := fun p hp => mem_append_left _ hp
  obtain ⟨d2, hlasts, hlaid, hentries⟩ := lasts_payloads env data.payloads d1 hput hwrote.get
  have hblobs := hlasts.run
  rw [run_forM] at hblobs
  simp only [run_blobCalls] at hblobs
  rw [run_recordCalls] at hrecord
  refine ⟨d2, ?_, hthinned.laid.trans hlaid, hwrote.of_entries_eq hentries⟩
  rw [storeRow_eq, exec_bind_ok hrecord, exec_bind_ok hblobs]
  rfl

theorem laid_stored (env : Env) (data : ClipboardData) (d : Daemon) :
    Laid env.hash (putBy env data) (capturedRow env data d).id data.payloads
      (opened env data d) (stored env data d) := by
  obtain ⟨d1, hrow, hlaid1, hwrote⟩ := laid_storeRow env data d
  obtain ⟨d2, hlasts, hlaid2, -⟩ :=
    lasts_thumbnailCalls (Subset.refl (putBy env data)) hwrote.get
  have hthumb := hlasts.run
  rw [run_thumbnailCalls] at hthumb
  have hstate : captureState env data d = d2 := by
    unfold captureState
    rw [exec_bind_ok hrow, hthumb]
  have hlaid := (hlaid1.trans hlaid2).trans (thinned_collectGarbage env d2).laid
  rw [append_nil, append_nil] at hlaid
  rw [stored_eq, hstate]
  exact hlaid

end Failing

/-! ## §4. Broken entries -/

/-- The payloads of the entry load, and hash to its content hash. -/
def Whole (h : Hash) (d : Daemon) (r : EntryRow) : Prop :=
  ∃ payloads, loadPayloads d r.id = .ok payloads ∧ h.payloadHash payloads = r.key.contentHash

/-- The entry has every one of these formats, and each can be read. -/
def Complete (d : Daemon) (id : Nat) (payloads : List MimePayload) : Prop :=
  ∀ p ∈ payloads, p.mime ≠ thumbnailMime →
    ∃ b ∈ formatsOf d.db id, b.mime = p.mime ∧ ∃ q, loadFormat d b = .ok q

/-- No visible entry is broken that was not: those that were visible and whole still are, and
    none has become visible but that of the capture, with every one of its formats. -/
structure NoneBroken (env : Env) (data : ClipboardData) (d d' : Daemon) : Prop where
  still : ∀ r ∈ d.db.entries.rows, r.cols.deleted = false → Whole env.hash d r →
    ∀ r' ∈ d'.db.entries.rows, r'.cols.deleted = false → r'.key = r.key → Whole env.hash d' r'
  shown : ∀ r' ∈ d'.db.entries.rows, r'.cols.deleted = false →
    (∀ r ∈ d.db.entries.rows, r.key = r'.key → r.cols.deleted = true) →
      r'.key = keyOf env data ∧ Complete d' r'.id data.payloads

/-- Where call number `n` fails, the row of the capture, if it is visible there, has all
    formats: one that was visible before hashes as it did with the payloads attached so far laid
    over its own, and one that was not has the formats that were not attached from before. -/
def Covered (n : Nat) (d : Daemon) : Prop :=
  ShownAt env data n d →
    (∀ r ∈ d.db.entries.rows, r.cols.deleted = false → r.key = keyOf env data →
      ∀ held, loadPayloads d r.id = .ok held → env.hash.payloadHash held = r.key.contentHash →
        env.hash.payloadHash (inOrder (laid held (written env data n))) = r.key.contentHash) ∧
    ((∀ r ∈ d.db.entries.rows, r.key = keyOf env data → r.cols.deleted = true) →
      ∀ p ∈ data.payloads, p.mime ≠ thumbnailMime →
        p.mime ∈ (written env data n).map MimePayload.mime ∨
          HasFormat d (capturedRow env data d).id p.mime)

section Broken

variable {env : Env} {data : ClipboardData} {d d' : Daemon} {n : Nat} {r r' : EntryRow}
  {held payloads : List MimePayload}

theorem SameBlobs.sameFormats (h : SameBlobs d d') (id : Nat) : SameFormats d d' id := by
  refine ⟨formatsOf_congr ?_, h.blobCipher, ?_⟩
  · unfold refsOf
    rw [h.refs]
  · intro b _ f hf
    rw [h.blobs]
    exact hf

/-- The row of the capture's content is the row the capture writes. -/
theorem id_eq_of_key (hr : r ∈ d.db.entries.rows) (hkey : r.key = keyOf env data) :
    r.id = (capturedRow env data d).id := by
  rcases capturedRow_id_cases env data d with ⟨r0, hr0, hkey0, hid0⟩ | hnew
  · rw [eq_of_key_eq hr hr0 (hkey.trans hkey0.symm)]
    exact hid0
  · exact absurd hkey (hnew r hr).2

variable {all written : List MimePayload}

/-- A row that is visible at the failing call is the capture's, or was visible before. -/
theorem Laid.row_cases {h : Hash}
    (hlaid : Laid h all (capturedRow env data d).id written (opened env data d) d')
    (hr' : r' ∈ d'.db.entries.rows) (hlive' : r'.cols.deleted = false) :
    (r'.key = keyOf env data ∧ r'.id = (capturedRow env data d).id) ∨
      (r'.key ≠ keyOf env data ∧ r'.id ≠ (capturedRow env data d).id ∧
        ∃ r ∈ d.db.entries.rows, r.id = r'.id ∧ r.key = r'.key ∧ r.cols.deleted = false) := by
  have hwrote := wrote_opened env data d
  obtain ⟨hrow, hrowKey⟩ := Table.find_eq_some.mp hwrote.row
  obtain ⟨r1, hr1, hid1, hkey1, hlive1⟩ := hlaid.rows r' hr' hlive'
  rcases hwrote.mem hr1 with rfl | ⟨hold, hne⟩
  · exact .inl ⟨hkey1.symm.trans hrowKey, hid1.symm⟩
  · refine .inr ⟨hkey1 ▸ hne, ?_, r1, hold, hid1, hkey1, hlive1⟩
    intro hid
    -- two rows of one id are one row, and their keys differ
    have hsame : r1 = upsertedCapture env data d := Table.eq_of_id_eq hr1 hrow (hid1.trans hid)
    exact hne (hsame ▸ hrowKey)

/-- What the capture's row loads as, where its formats read back as these before. -/
theorem Laid.load_reads (happart : Apart env.hash d all)
    (hlaid : Laid env.hash all (capturedRow env data d).id written (opened env data d) d')
    (hreads : Reads d (capturedRow env data d).id held) (hnodup : (held.map MimePayload.mime).Nodup)
    (hr' : r' ∈ d'.db.entries.rows) (hlive' : r'.cols.deleted = false)
    (hid' : r'.id = (capturedRow env data d).id) :
    loadPayloads d' r'.id = .ok (inOrder (laid held written)) := by
  have hopened := hreads.of_same ((sameBlobs_opened env data d).sameFormats _)
  have hbeside : Beside env.hash all r'.id d (opened env data d) :=
    beside_of_sameBlobs (sameBlobs_opened env data d)
  have hleft := hlaid.held ⟨r', hr', hid', hlive'⟩ (hbeside.apart happart) held hopened
  rw [← hid'] at hleft
  exact load_of_reads hr' hlive' hleft (nodup_laid hnodup written)

/-- **When the row of a record that waits can be sent**: it is not flagged, and what it had, with
    the payloads of the record laid over it, hashes to its content hash and is within the
    limits. -/
theorem eligible_rowWritten_iff {sent : SyncRecord} (hone : OneEach d.db)
    (happart : Apart env.hash d (putBy env (captureOf (clampTimes env sent))))
    (hreads : Reads d (writtenRow env sent d).id held) :
    Eligible env (rowWritten env sent d) ⟨false, false⟩ (writtenRow env sent d) ↔
      shown (writtenRow env sent d) = true ∧
        sendable env (writtenRow env sent d) (inOrder (laid held sent.payloads)) = true := by
  have hsame : SameBlobs d (observed (clampTimes env sent) d) := by
    unfold observed observe
    split
    · exact ⟨rfl, rfl, rfl⟩
    · exact SameBlobs.refl d
  have hbeside : Beside env.hash (putBy env (captureOf (clampTimes env sent)))
      (writtenRow env sent d).id d (observed (clampTimes env sent) d) := beside_of_sameBlobs hsame
  obtain ⟨d1, hrun, hlaid, hwrote⟩ := laid_storeRow env (captureOf (clampTimes env sent))
    (observed (clampTimes env sent) d)
  have hwritten : rowWritten env sent d = d1 := by
    unfold rowWritten
    rw [hrun]
  have hlive : (writtenRow env sent d).cols.deleted = false := capturedRow_deleted _ _ _
  have hload : loadPayloads d1 (writtenRow env sent d).id
      = .ok (inOrder (laid held sent.payloads)) :=
    hlaid.load_reads (hbeside.apart happart) (hreads.of_same (hsame.sameFormats _))
      (hreads.nodup hone) (Table.find_eq_some.mp hwrote.row).1 hlive rfl
  have hpayloads : payloadsOf d1 (writtenRow env sent d)
      = .ok (inOrder (laid held sent.payloads)) := by
    rw [payloadsOf, if_neg (by simp [hlive]), hload]
  rw [hwritten]
  unfold Eligible
  rw [hpayloads]
  constructor
  · rintro ⟨hshown, -, payloads, heq, hsend⟩
    rw [ok.inj heq]
    exact ⟨hshown, hsend⟩
  · rintro ⟨hshown, hsend⟩
    refine ⟨hshown, ?_, _, rfl, hsend⟩
    simp [SyncScope.includes]

/-- What the capture's row loads as at the failing call. -/
theorem Laid.load (hone : OneEach d.db) (happart : Apart env.hash d all)
    (hlaid : Laid env.hash all (capturedRow env data d).id written (opened env data d) d')
    (hr : r ∈ d.db.entries.rows) (hlive : r.cols.deleted = false) (hkey : r.key = keyOf env data)
    (hload : loadPayloads d r.id = .ok held) (hr' : r' ∈ d'.db.entries.rows)
    (hlive' : r'.cols.deleted = false) (hid' : r'.id = (capturedRow env data d).id) :
    loadPayloads d' r'.id = .ok (inOrder (laid held written)) := by
  have hreads := reads_of_load hr hlive hload
  have hnodup := hreads.nodup hone
  rw [id_eq_of_key hr hkey] at hreads
  exact hlaid.load_reads happart hreads hnodup hr' hlive' hid'

/-- Which formats the capture's row has at the failing call. -/
theorem Laid.complete_iff (hintact : Intact d)
    (hlaid : Laid env.hash all (capturedRow env data d).id written (opened env data d) d')
    (hr' : r' ∈ d'.db.entries.rows) (hlive' : r'.cols.deleted = false)
    (hid' : r'.id = (capturedRow env data d).id) :
    Complete d' r'.id payloads ↔ ∀ p ∈ payloads, p.mime ≠ thumbnailMime →
      p.mime ∈ written.map MimePayload.mime ∨
        HasFormat d (capturedRow env data d).id p.mime := by
  have hsame := sameBlobs_opened env data d
  have hformats : ∀ mime, mime ≠ thumbnailMime → (HasFormat d' r'.id mime ↔
      mime ∈ written.map MimePayload.mime ∨ HasFormat d (capturedRow env data d).id mime) := by
    intro mime hmime
    have hiff := hlaid.formats ⟨r', hr', hid', hlive'⟩ mime hmime
    unfold HasFormat at hiff ⊢
    rw [hid']
    rw [(hsame.sameFormats _).formats] at hiff
    exact hiff
  have hintact' : Intact d' := by
    apply hlaid.intact
    refine ⟨?_, ?_⟩
    · rw [hsame.blobs, hsame.blobCipher]
      exact hintact.opens
    · rw [hsame.blobs, hsame.refs]
      exact hintact.there
  constructor
  · intro hcomplete p hp hmime
    obtain ⟨b, hb, hname, -⟩ := hcomplete p hp hmime
    exact (hformats p.mime hmime).mp ⟨b, hb, hname⟩
  · intro hcovered p hp hmime
    obtain ⟨b, hb, hname⟩ := (hformats p.mime hmime).mpr (hcovered p hp hmime)
    -- with nothing damaged, a format that is there can be read
    obtain ⟨f, hf⟩ := Option.isSome_iff_exists.mp (hintact'.there b (mem_formatsOf.mp hb).1)
    obtain ⟨hmem, hfname⟩ := (Keyed.lookup_eq_some d'.blobs.namesNodup).mp hf
    obtain ⟨bytes, hget⟩ := hintact'.opens f hmem
    rw [hfname] at hget
    exact ⟨b, hb, hname, ⟨b.mime, bytes⟩, by rw [loadFormat, hget]; rfl⟩

/-- A capture that fails before its row is there breaks nothing. -/
theorem noneBroken_of_same (hentries : d'.db.entries = d.db.entries) (hsame : SameBlobs d d') :
    NoneBroken env data d d' := by
  refine ⟨?_, ?_⟩
  · intro r hr hlive hwhole r' hr' hlive' hkey
    obtain ⟨payloads, hload, hhash⟩ := hwhole
    have hr0 : r' ∈ d.db.entries.rows := by
      rw [← hentries]
      exact hr'
    have heq : r' = r := eq_of_key_eq hr0 hr hkey
    refine ⟨payloads, ?_, by rw [hkey]; exact hhash⟩
    exact loadPayloads_of_same hr hlive hr' hlive' (by rw [heq]) (hsame.sameFormats r.id) hload
  · intro r' hr' hlive' hnone
    rw [hentries] at hr'
    exact absurd (hlive'.symm.trans (hnone r' hr' rfl)) Bool.false_ne_true

/-- **A failed capture breaks no visible entry exactly when its row, if it is visible at the
    call that fails, has every format all the same.** -/
theorem failed_store_breaks_none_iff (hone : OneEach d.db) (hintact : Intact d)
    (happart : Apart env.hash d (putBy env data))
    (hfail : (storeCalls env data).failing n d = some d') :
    NoneBroken env data d d' ↔ Covered env data n d := by
  rcases failing_storeCalls hfail with ⟨hfirst, hentries, hsame⟩ | ⟨hlaid, hvisible⟩
  · -- the row is not there yet
    refine iff_of_true (noneBroken_of_same hentries hsame) fun hshown => ?_
    have := hshown.1
    omega
  · constructor
    · intro hnone hshown
      obtain ⟨r', hr', hid', hlive'⟩ := hvisible.mpr hshown
      have hkey' : r'.key = keyOf env data := by
        rcases hlaid.row_cases hr' hlive' with ⟨hkey, -⟩ | ⟨-, hne, -⟩
        · exact hkey
        · exact absurd hid' hne
      refine ⟨?_, fun hdead => ?_⟩
      · intro r hr hlive hkey held hload hhash
        obtain ⟨payloads, hload', hhash'⟩ :=
          hnone.still r hr hlive ⟨held, hload, hhash⟩ r' hr' hlive' (hkey'.trans hkey.symm)
        rw [hlaid.load hone happart hr hlive hkey hload hr' hlive' hid'] at hload'
        rw [ok.inj hload', hkey, ← hkey']
        exact hhash'
      · have hshown := hnone.shown r' hr' hlive' (fun r hr hkey => hdead r hr (hkey.trans hkey'))
        exact (hlaid.complete_iff hintact hr' hlive' hid').mp hshown.2
    · intro hcovered
      refine ⟨?_, ?_⟩
      · intro r hr hlive hwhole r' hr' hlive' hkey
        obtain ⟨held, hload, hhash⟩ := hwhole
        rcases hlaid.row_cases hr' hlive' with ⟨hkey', hid'⟩ | ⟨hne, hid', r0, hr0, hid0, hkey0, -⟩
        · -- the entry that was copied again
          have hrkey : r.key = keyOf env data := hkey.symm.trans hkey'
          refine ⟨_, hlaid.load hone happart hr hlive hrkey hload hr' hlive' hid', ?_⟩
          rw [hkey]
          exact (hcovered (hvisible.mp ⟨r', hr', hid', hlive'⟩)).1 r hr hlive hrkey held hload hhash
        · -- another entry
          have heq : r0 = r := eq_of_key_eq hr0 hr (hkey0.trans hkey)
          subst heq
          have hopened := (sameBlobs_opened env data d).sameFormats r0.id
          have hformats := hlaid.others r'.id hid' ⟨r', hr', rfl, hlive'⟩
          rw [← hid0] at hformats
          refine ⟨held, ?_, by rw [hkey]; exact hhash⟩
          exact loadPayloads_of_same hr hlive hr' hlive' hid0.symm (hopened.trans hformats) hload
      · intro r' hr' hlive' hdead
        rcases hlaid.row_cases hr' hlive' with ⟨hkey', hid'⟩ | ⟨-, -, r0, hr0, -, hkey0, hlive0⟩
        · refine ⟨hkey', (hlaid.complete_iff hintact hr' hlive' hid').mpr ?_⟩
          exact (hcovered (hvisible.mp ⟨r', hr', hid', hlive'⟩)).2
            (fun r hr hkey => hdead r hr (hkey.trans hkey'.symm))
        · exact absurd (hlive0.symm.trans (hdead r0 hr0 hkey0)) Bool.false_ne_true

end Broken

end

namespace Sample

/-- A daemon that has this copy in two formats. -/
def holding : Daemon := stored env twoFormats (blank [1])

/-- The daemon where the second format of a first copy could not be written. -/
def halfStored : Daemon :=
  ((storeCalls env twoFormats).failing 5 (blank [1])).getD (blank [1])

/-- **The second format cannot be written**: the call fails, and the entry is visible with the
    first format alone. -/
theorem failed_put_shows_half :
    (storeCalls env twoFormats).failing 5 (blank [1]) = some halfStored ∧
      loadPayloads halfStored 1 = .ok (twoFormats.payloads.take 1) ∧
      ¬ NoneBroken env twoFormats (blank [1]) halfStored := by
  have hrow : ∃ r ∈ halfStored.db.entries.rows, r.cols.deleted = false ∧
      ∀ b ∈ formatsOf halfStored.db r.id, b.mime ≠ "text/html" := by decide +kernel
  refine ⟨by decide +kernel, by decide +kernel, ?_⟩
  intro h
  obtain ⟨r, hr, hlive, hnone⟩ := hrow
  obtain ⟨-, hcomplete⟩ := h.shown r hr hlive
    (fun r0 hr0 => absurd hr0 (by simp [blank, Database.empty, Table.empty]))
  obtain ⟨b, hb, hmime, -⟩ := hcomplete ⟨"text/html", utf8 "B"⟩ (by decide +kernel)
    (by decide +kernel)
  exact hnone b hb hmime

/-- The same copy again fails at the same call: the entry that was there is as it was. -/
theorem failed_store_breaks_none_iff_again :
    ∃ d', (storeCalls env twoFormats).failing 5 holding = some d' ∧
      NoneBroken env twoFormats holding d' := by
  have hblank : Intact (blank [1]) :=
    ⟨fun _ hf => absurd hf (by simp [blank, BlobStore.empty]),
      fun _ hb => absurd hb (by simp [blank, Database.empty])⟩
  have hadvanced : Advanced (fun _ => False) (blank [1]) holding :=
    advances_store env twoFormats (blank [1])
  have hload : loadPayloads holding 1 = .ok twoFormats.payloads := by decide +kernel
  have hids : ∀ r ∈ holding.db.entries.rows, r.id = 1 ∧ r.cols.deleted = false ∧
      r.key = keyOf env twoFormats := by decide +kernel
  cases hfail : (storeCalls env twoFormats).failing 5 holding with
  | none => exact absurd hfail (by decide +kernel)
  | some d' =>
    refine ⟨d', rfl, (failed_store_breaks_none_iff (by unfold OneEach; decide +kernel)
      (hadvanced.intact hblank) ⟨by decide +kernel, by decide +kernel⟩ hfail).mpr ?_⟩
    intro _
    refine ⟨?_, fun hdead => ?_⟩
    · intro r hr _ _ held hheld hhash
      rw [(hids r hr).1, hload] at hheld
      rw [← hhash, ← ok.inj hheld]
      decide +kernel
    · have hrow : ∃ r ∈ holding.db.entries.rows, r.id = 1 := by decide +kernel
      obtain ⟨r, hr, -⟩ := hrow
      exact absurd ((hids r hr).2.1.symm.trans (hdead r hr (hids r hr).2.2)) Bool.false_ne_true

end Sample

end Panora.Panod
