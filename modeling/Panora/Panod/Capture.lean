/-
  Panora.Panod.Capture — what was captured is what the feed carries.

  A capture writes each format into the file of its content and attaches it to the
  row; the feed reads the formats back, sorted by name, and then by preference.

  Main results:
    * `exec_storeBlobs_holds` — after a capture its row holds its payloads;
    * `loadPayloads_of_holds` — payloads that are held are read back in order.
-/
import Panora.Panod.Feed

namespace Panora.Panod

open Storage Lib Lib.Fallible Storage.BlobStore List

/-! ## §1. Formats that are held -/

/-- The reference to a payload. -/
def refTo (h : Hash) (id : Nat) (p : MimePayload) : BlobRow := ⟨id, p.mime, h.contentHash p.data⟩

/-- The formats of an entry are these payloads, and each can be read. -/
structure Holds (h : Hash) (d : Daemon) (id : Nat) (payloads : List MimePayload) : Prop where
  formats : (formatsOf d.db id).Perm (payloads.map (refTo h id))
  opens : ∀ p ∈ payloads, d.blobs.get d.blobCipher (h.contentHash p.data) = .ok p.data

/-- No two of these contents have one name, and where the name of one is taken the
    file holds that content. -/
structure Apart (h : Hash) (d : Daemon) (payloads : List MimePayload) : Prop where
  names : ∀ p ∈ payloads, ∀ q ∈ payloads,
    h.contentHash p.data = h.contentHash q.data → p.data = q.data
  taken : ∀ p ∈ payloads, (d.blobs.file (h.contentHash p.data)).isSome = true →
    d.blobs.get d.blobCipher (h.contentHash p.data) = .ok p.data

variable {env : Env} {h : Hash} {d : Daemon} {id : Nat} {r : EntryRow} {p : MimePayload}
  {payloads all : List MimePayload}

/-- Content that is put can be read, and nothing else is mistaken for it. -/
theorem Apart.put (happart : Apart h d payloads) (hp : p ∈ payloads) {ref : String}
    {blobs : BlobStore} (hput : d.blobs.put h d.blobCipher p.data = .ok (ref, blobs)) :
    Apart h { d with blobs } payloads ∧ (blobs.file (h.contentHash p.data)).isSome = true := by
  obtain ⟨rfl, hkept, hthere, hfiles⟩ := put_cases hput
  refine ⟨⟨happart.names, fun q hq hsome => ?_⟩, hthere⟩
  obtain ⟨f, hf⟩ := Option.isSome_iff_exists.mp hsome
  obtain ⟨hmem, hname⟩ := (Keyed.lookup_eq_some blobs.namesNodup).mp hf
  rcases hfiles f hmem with hold | ⟨hnew, hget⟩
  · -- the file was there
    have hfile : d.blobs.file (h.contentHash q.data) = some f :=
      (Keyed.lookup_eq_some d.blobs.namesNodup).mpr ⟨hold, hname⟩
    show blobs.get d.blobCipher _ = _
    rw [get_congr d.blobCipher ((hkept _ f hfile).trans hfile.symm)]
    exact happart.taken q hq (by rw [hfile]; rfl)
  · -- the file is the new one, so the contents are the same
    have hsame : h.contentHash q.data = h.contentHash p.data := hname.symm.trans hnew
    show blobs.get d.blobCipher (h.contentHash q.data) = _
    rw [hsame, hget, happart.names q hq p hp hsame]

/-- The daemon once a format is attached, its content being in `blobs`. -/
def attached (d : Daemon) (blobs : BlobStore) (b : BlobRow) : Daemon :=
  { d with
    blobs
    db := { d.db with
      entryBlobs :=
        d.db.entryBlobs.filter (fun b' => ¬ (b'.entryId = b.entryId ∧ b'.mime = b.mime)) ++ [b] } }

/-- What storing one format does. -/
theorem exec_storeBlob_eq (env : Env) (hrow : d.db.entries.get id = some r) (p : MimePayload) :
    ∃ blobs, d.blobs.put env.hash d.blobCipher p.data = .ok (env.hash.contentHash p.data, blobs) ∧
      Op.exec (storeBlob env id p.mime p.data) d
        = (.ok (), attached d blobs (refTo env.hash id p)) := by
  obtain ⟨blobs, hput⟩ := d.blobs.put_ok env.hash d.blobCipher p.data
  refine ⟨blobs, hput, ?_⟩
  have hblob : Op.exec (putBlob env p.data) d
      = (.ok (env.hash.contentHash p.data), { d with blobs }) :=
    Op.exec_attempt_ok (by rw [hput]; rfl)
  unfold storeBlob
  rw [Op.exec_bind_ok hblob]
  refine exec_changeDb_ok ?_
  unfold Database.attachBlob
  simp only [hrow]
  rfl

/-- A format that is attached takes the place of one of its name. -/
theorem perm_formatsOf_over (blobs : BlobStore) (hp : p.mime ≠ thumbnailMime) :
    (formatsOf (attached d blobs (refTo h id p)).db id).Perm
      ((formatsOf d.db id).filter (fun b => b.mime ≠ p.mime) ++ [refTo h id p]) := by
  have hsort : ∀ db : Database, (formatsOf db id).Perm
      ((db.entryBlobs.filter (fun b => b.entryId = id)).filter (fun b => b.mime ≠ thumbnailMime)) :=
    fun db => (perm_insertionSort _ _).filter _
  have hleft : ((d.db.entryBlobs.filter (fun b => ¬ (b.entryId = id ∧ b.mime = p.mime))).filter
      (fun b => b.entryId = id)).filter (fun b => b.mime ≠ thumbnailMime)
      = ((d.db.entryBlobs.filter (fun b => b.entryId = id)).filter
        (fun b => b.mime ≠ thumbnailMime)).filter (fun b => b.mime ≠ p.mime) := by
    rw [filter_filter, filter_filter, filter_filter, filter_filter]
    refine filter_congr fun b _ => ?_
    by_cases hid : b.entryId = id
    · by_cases hname : b.mime = p.mime
      · simp [hid, hname]
      · simp [hid, hname]
    · simp [hid]
  have hlast : ([refTo h id p].filter (fun b => b.entryId = id)).filter
      (fun b => b.mime ≠ thumbnailMime) = [refTo h id p] := by
    simp [refTo, hp]
  refine (hsort _).trans (Perm.trans ?_ (((hsort d.db).symm.filter _).append_right _))
  show (((d.db.entryBlobs.filter (fun b => ¬ (b.entryId = id ∧ b.mime = p.mime))
    ++ [refTo h id p]).filter _).filter _).Perm _
  rw [filter_append, filter_append, hlast, hleft]

/-- What is apart stays so when one of it is stored. -/
theorem Apart.storeBlob (happart : Apart env.hash d all) (hrow : d.db.entries.get id = some r)
    (hp : p ∈ all) : Apart env.hash (Op.exec (storeBlob env id p.mime p.data) d).2 all := by
  obtain ⟨blobs, hput, hexec⟩ := exec_storeBlob_eq env hrow p
  obtain ⟨hnext, -⟩ := happart.put hp hput
  rw [hexec]
  exact ⟨hnext.names, hnext.taken⟩

/-- A payload that is stored takes the place of one of its format. -/
theorem Holds.storeBlob_over {held : List MimePayload} (hholds : Holds env.hash d id held)
    (happart : Apart env.hash d all) (hrow : d.db.entries.get id = some r)
    (hp : p ∈ all) (hmime : p.mime ≠ thumbnailMime) :
    Holds env.hash (Op.exec (storeBlob env id p.mime p.data) d).2 id
      (held.filter (fun q => q.mime ≠ p.mime) ++ [p]) := by
  obtain ⟨blobs, hput, hexec⟩ := exec_storeBlob_eq env hrow p
  obtain ⟨-, hkept, -, -⟩ := put_cases hput
  obtain ⟨hnext, hthere⟩ := happart.put hp hput
  rw [hexec]
  refine ⟨(perm_formatsOf_over blobs hmime).trans ?_, ?_⟩
  · rw [map_append]
    refine Perm.append_right _ ((hholds.formats.filter _).trans (Perm.of_eq ?_))
    rw [filter_map]
    rfl
  · intro q hq
    rcases mem_append.mp hq with hq | hq
    · have hopen := hholds.opens q (mem_filter.mp hq).1
      obtain ⟨f, hf⟩ := file_of_get hopen
      show blobs.get d.blobCipher _ = _
      rw [get_congr d.blobCipher ((hkept _ f hf).trans hf.symm)]
      exact hopen
    · rw [mem_singleton.mp hq]
      exact hnext.taken p hp hthere

/-- **Payloads that are stored are held**, beside those of other formats that were there. -/
theorem exec_storeBlobs_holds : ∀ (payloads : List MimePayload) (d : Daemon)
    (held : List MimePayload), payloads ⊆ all → (∀ p ∈ payloads, p.mime ≠ thumbnailMime) →
      (payloads.map MimePayload.mime).Nodup → d.db.entries.get id = some r →
      Apart env.hash d all → Holds env.hash d id held →
      ∃ d', Op.exec (payloads.forM (fun p => storeBlob env id p.mime p.data)) d = (.ok (), d') ∧
        Holds env.hash d' id
          (held.filter (fun p => p.mime ∉ payloads.map MimePayload.mime) ++ payloads) ∧
        Aside d d' := by
  intro payloads
  induction payloads with
  | nil =>
    intro d held _ _ _ _ _ hholds
    refine ⟨d, rfl, ?_, Aside.refl d⟩
    rw [append_nil, filter_eq_self.mpr (by simp)]
    exact hholds
  | cons p payloads ih =>
    intro d held hall hmimes hnodup hrow happart hholds
    have hp : p ∈ all := hall mem_cons_self
    obtain ⟨hpnew, hnodup⟩ := nodup_cons.mp hnodup
    obtain ⟨d1, hexec, haside⟩ := exec_storeBlob env hrow p.mime p.data
    have hholds1 := hholds.storeBlob_over happart hrow hp (hmimes p mem_cons_self)
    have happart1 := happart.storeBlob hrow hp
    rw [hexec] at hholds1 happart1
    have hrow1 : d1.db.entries.get id = some r := by
      rw [haside.entries]
      exact hrow
    obtain ⟨d', hrun, hheld, haside'⟩ := ih d1 _
      (fun q hq => hall (mem_cons_of_mem p hq))
      (fun q hq => hmimes q (mem_cons_of_mem p hq)) hnodup hrow1 happart1 hholds1
    refine ⟨d', ?_, ?_, haside.trans haside'⟩
    · rw [forM_eq_forM, forM_cons, Op.exec_bind_ok hexec]
      exact hrun
    · -- the one stored first is of none of the formats that follow
      have hlist : (held.filter (fun q => q.mime ≠ p.mime) ++ [p]).filter
            (fun q => q.mime ∉ payloads.map MimePayload.mime) ++ payloads
          = held.filter (fun q => q.mime ∉ (p :: payloads).map MimePayload.mime)
            ++ p :: payloads := by
        have hkeep : [p].filter (fun q => decide (q.mime ∉ payloads.map MimePayload.mime)) = [p] :=
          filter_eq_self.mpr (by simpa using hpnew)
        rw [filter_append, hkeep, filter_filter, append_assoc]
        refine congrArg (· ++ (p :: payloads)) (filter_congr ?_)
        intro q _
        by_cases hname : q.mime = p.mime
        · simp [hname]
        · simp [hname]
      rw [hlist] at hheld
      exact hheld

/-! ## §2. Reading them back -/

/-- The order payloads are read back in: sorted by name, and then by preference. -/
def inOrder (payloads : List MimePayload) : List MimePayload :=
  (payloads.insertionSort (fun a b => a.mime ≤ b.mime)).insertionSort
    (fun a b => mimeRank a.mime ≤ mimeRank b.mime)

theorem perm_inOrder (payloads : List MimePayload) : (inOrder payloads).Perm payloads :=
  (perm_insertionSort _ _).trans (perm_insertionSort _ _)

instance : Std.Total (fun a b : MimePayload => a.mime ≤ b.mime) :=
  ⟨fun a b => le_total a.mime b.mime⟩

instance : IsTrans MimePayload (fun a b => a.mime ≤ b.mime) := ⟨fun _ _ _ => le_trans⟩

/-- Payloads of different formats are read back in one order, however they were stored. -/
theorem inOrder_congr {payloads' : List MimePayload} (hperm : payloads.Perm payloads')
    (hnodup : (payloads.map MimePayload.mime).Nodup) : inOrder payloads = inOrder payloads' := by
  unfold inOrder
  rw [Keyed.sort_congr hperm]
  intro a ha b hb hab hba
  exact inj_on_of_nodup_map hnodup ha hb (le_antisymm hab hba)

/-- The formats of an entry stand sorted by name. -/
theorem formatsOf_eq_of_perm (hperm : (formatsOf d.db id).Perm (payloads.map (refTo h id)))
    (hnodup : (payloads.map MimePayload.mime).Nodup) :
    formatsOf d.db id
      = (payloads.insertionSort (fun a b => a.mime ≤ b.mime)).map (refTo h id) := by
  have hsorted : (formatsOf d.db id).Pairwise (fun a b => a.mime ≤ b.mime) :=
    (pairwise_insertionSort (fun a b : BlobRow => a.mime ≤ b.mime) _).filter _
  have hmimes : ((formatsOf d.db id).map BlobRow.mime).Nodup := by
    rw [(hperm.map BlobRow.mime).nodup_iff, map_map]
    exact hnodup
  calc formatsOf d.db id
      = (formatsOf d.db id).insertionSort (fun a b => a.mime ≤ b.mime) :=
        hsorted.insertionSort_eq.symm
    _ = (payloads.map (refTo h id)).insertionSort (fun a b => a.mime ≤ b.mime) :=
        Keyed.sort_congr hperm (fun a ha b hb hab hba =>
          inj_on_of_nodup_map hmimes ha hb (le_antisymm hab hba))
    _ = (payloads.insertionSort (fun a b => a.mime ≤ b.mime)).map (refTo h id) :=
        (map_insertionSort _ _ (refTo h id) payloads (fun _ _ _ _ => Iff.rfl)).symm

/-- **Payloads that are held** are read back sorted. -/
theorem loadPayloads_eq_inOrder (hrow : d.db.entries.get id = some r)
    (hlive : r.cols.deleted = false) (hholds : Holds h d id payloads)
    (hnodup : (payloads.map MimePayload.mime).Nodup) :
    loadPayloads d id = .ok (inOrder payloads) := by
  have hget : d.db.get d.dbCipher id = .ok (Database.rowToEntry d.dbCipher r) := by
    rw [Database.get, hrow]
  have hload : ∀ p ∈ payloads.insertionSort (fun a b => a.mime ≤ b.mime),
      loadFormat d (refTo h id p) = .ok p := by
    intro p hp
    show (d.blobs.get d.blobCipher (h.contentHash p.data)).map _ = _
    rw [hholds.opens p (mem_insertionSort _ |>.mp hp)]
    rfl
  have hmapM : (formatsOf d.db id).mapM (loadFormat d)
      = .ok (payloads.insertionSort (fun a b => a.mime ≤ b.mime)) := by
    rw [formatsOf_eq_of_perm hholds.formats hnodup, mapM_map]
    exact (mapM_eq_ok hload).trans (by rw [map_id'])
  unfold loadPayloads
  rw [hget, ok_bind, hmapM]
  show (if r.cols.deleted then _ else _) = _
  rw [hlive, if_neg (by simp)]
  rfl

/-- Whether the payloads stand in the order of preference. -/
def Preferred (payloads : List MimePayload) : Prop :=
  payloads.Pairwise (fun a b => mimeRank a.mime < mimeRank b.mime)

theorem Preferred.nodup (h : Preferred payloads) : (payloads.map MimePayload.mime).Nodup := by
  rw [Nodup, pairwise_map]
  refine Pairwise.imp (fun hlt heq => ?_) h
  rw [heq] at hlt
  omega

/-- **Payloads that are held** are read back in the order of preference. -/
theorem loadPayloads_of_holds (hrow : d.db.entries.get id = some r)
    (hlive : r.cols.deleted = false) (hholds : Holds h d id payloads)
    (hpreferred : Preferred payloads) : loadPayloads d id = .ok payloads := by
  rw [loadPayloads_eq_inOrder hrow hlive hholds hpreferred.nodup]
  refine congrArg Except.ok ?_
  let rank : MimePayload → Nat := fun p => mimeRank p.mime
  exact @Keyed.sort_eq_of_perm MimePayload Nat _ rank _ _ (perm_insertionSort _ _) hpreferred

/-- **A page of one row.** -/
theorem syncChanges_singleton {scope : SyncScope} {since : Int} {record : SyncRecord}
    (hnum : Database.Numbered d.db) (hrows : changedSince d.db since = [r])
    (hrecord : recordOf env d scope r = .ok (some record)) (limit : Nat) :
    syncChanges env d since limit scope = .ok ([record], (r.cols.changeSeq : Int), false) := by
  have hlimit : ¬ pageLimit limit ≤ (Page.start since).records.length :=
    Nat.not_le_of_lt (pageLimit_pos limit)
  have hfull : ¬ (Page.start since).full record := fun hfull => hfull.1 rfl
  have hrest : changesSince d.db r.cols.changeSeq 1 = [] := by
    rw [changesSince, changedSince_of_split hnum since [r] [] hrows r rfl]
    rfl
  have hrow : feedRow env d (pageLimit limit) scope (Page.start since) r
      = .ok ((Page.start since).push record r.cols.changeSeq, true) := by
    rw [feedRow, if_neg hlimit, hrecord]
    exact if_neg hfull
  rw [syncChanges_eq hnum, hrows, Feed.walk, hrow]
  show Except.ok ([record], (r.cols.changeSeq : Int),
    !(changesSince d.db r.cols.changeSeq 1).isEmpty) = _
  rw [hrest]
  rfl

end Panora.Panod
