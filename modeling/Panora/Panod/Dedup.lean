/-
  Panora.Panod.Dedup — one entry for each content.

  A capture is the same entry as an earlier one when the hashes of their payload lists
  agree.  What is hashed is every format's name and bytes, one after the other with
  nothing between them, so lists that differ may run together to the same bytes.

  Main results:
    * `rank_wantedOrder` — the formats of a capture stand in the order they are read
      back in;
    * `capture_holds` — a capture's row holds its payloads, and the others hold theirs;
    * `captures_held_apart_iff` — two captures are two entries, each with its own
      payloads, exactly when the bytes hashed for them differ and retention keeps both.
-/
import Panora.Panod.Capture
import Panora.Panod.Pass

namespace Panora.Panod

open Storage Lib Lib.Op Lib.Table Storage.Database Storage.BlobStore List

/-! ## §1. The formats of a capture -/

/-- A plain-text flavour. -/
def isPlain (mime : String) : Bool := mime.startsWith "text/plain" || mime == "UTF8_STRING"

/-- Of the plain-text flavours, the first alone. -/
def oneText (haveText : Bool) : List String → List String
  | [] => []
  | mime :: rest =>
    if isPlain mime && haveText then oneText haveText rest
    else mime :: oneText (haveText || isPlain mime) rest

/-- The offered MIME types that are captured, preferred ones first. -/
def wantedOrder (offered : List String) : List String :=
  let known := offered.filter (fun mime => mimeRank mime < wantedMimes.length)
  let sorted := known.insertionSort (fun a b => mimeRank a ≤ mimeRank b)
  oneText false (sorted.destutter (fun a b => ¬ eqIgnoreAsciiCase a b = true))

/-- The payloads are those of a capture: of the formats that are wanted, those that could
    be read. -/
def Captured (data : ClipboardData) : Prop :=
  (data.payloads.map MimePayload.mime).Sublist (wantedOrder data.offeredMimes)

theorem oneText_sublist : ∀ (haveText : Bool) (mimes : List String),
    (oneText haveText mimes).Sublist mimes
  | _, [] => Sublist.refl _
  | haveText, mime :: rest => by
    unfold oneText
    split
    · exact (oneText_sublist haveText rest).cons mime
    · exact (oneText_sublist _ rest).cons_cons mime

/-- Two known formats of one rank are the same but for case. -/
theorem eqIgnoreAsciiCase_of_mimeRank_eq {a b : String} (ha : mimeRank a < wantedMimes.length)
    (heq : mimeRank a = mimeRank b) : eqIgnoreAsciiCase a b = true := by
  have hfound : ∀ {m : String}, mimeRank m < wantedMimes.length →
      ∃ w, wantedMimes[mimeRank m]? = some w ∧ eqIgnoreAsciiCase m w = true := by
    intro m hm
    unfold mimeRank at hm ⊢
    cases hidx : wantedMimes.findIdx? (eqIgnoreAsciiCase m) with
    | none =>
      rw [hidx] at hm
      exact absurd hm (by simp)
    | some i =>
      obtain ⟨hlt, hw, -⟩ := findIdx?_eq_some_iff_getElem.mp hidx
      exact ⟨wantedMimes[i], getElem?_eq_getElem hlt, hw⟩
  obtain ⟨w, hw, hequal⟩ := hfound ha
  obtain ⟨w', hw', hequal'⟩ := hfound (heq ▸ ha)
  rw [← heq, hw] at hw'
  cases hw'
  unfold eqIgnoreAsciiCase at hequal hequal' ⊢
  rw [beq_iff_eq] at hequal hequal' ⊢
  exact hequal.trans hequal'.symm

/-- **The formats of a capture stand in the order of preference**, no two of one rank. -/
theorem rank_wantedOrder (offered : List String) :
    (wantedOrder offered).Pairwise (fun a b => mimeRank a < mimeRank b) := by
  let known := offered.filter (fun mime => mimeRank mime < wantedMimes.length)
  let sorted := known.insertionSort (fun a b => mimeRank a ≤ mimeRank b)
  let chosen := sorted.destutter (fun a b => ¬ eqIgnoreAsciiCase a b = true)
  have hsub : chosen.Sublist sorted := destutter_sublist _ _
  have hsorted : chosen.Pairwise (fun a b => mimeRank a ≤ mimeRank b) :=
    (Keyed.pairwise_sort mimeRank known).sublist hsub
  have hknown : ∀ m ∈ chosen, mimeRank m < wantedMimes.length := by
    intro m hm
    have hmem : m ∈ known := (perm_insertionSort _ _).mem_iff.mp (hsub.subset hm)
    exact of_decide_eq_true (mem_filter.mp hmem).2
  -- neighbours differ in more than case, so their ranks differ
  have hstep : chosen.IsChain (fun a b => mimeRank a < mimeRank b) := by
    have hdiffer := isChain_destutter (fun a b => ¬ eqIgnoreAsciiCase a b = true) sorted
    rw [isChain_iff_getElem] at hdiffer ⊢
    intro i hi
    have hle := pairwise_iff_getElem.mp hsorted i (i + 1) (by omega) hi (by omega)
    have hne : mimeRank (chosen[i]) ≠ mimeRank (chosen[i + 1]) := fun heq =>
      hdiffer i hi (eqIgnoreAsciiCase_of_mimeRank_eq (hknown _ (getElem_mem _)) heq)
    omega
  exact (isChain_iff_pairwise.mp hstep).sublist (oneText_sublist false chosen)

variable {data : ClipboardData}

theorem Captured.preferred (h : Captured data) : Preferred data.payloads := by
  have hmimes := Pairwise.sublist h (rank_wantedOrder data.offeredMimes)
  rw [pairwise_map] at hmimes
  exact hmimes

/-- A known format is none of Panora's own. -/
theorem Captured.mime_ne_thumbnail (h : Captured data) :
    ∀ p ∈ data.payloads, p.mime ≠ thumbnailMime := by
  intro p hp heq
  have hmem := Sublist.subset h (mem_map_of_mem hp)
  have hsorted := Sublist.subset (oneText_sublist _ _) hmem
  have hknown := (perm_insertionSort _ _).mem_iff.mp
    (Sublist.subset (destutter_sublist _ _) hsorted)
  have hlt := of_decide_eq_true (mem_filter.mp hknown).2
  rw [heq] at hlt
  exact absurd hlt (by decide +kernel)

theorem Captured.nodup (h : Captured data) :
    (data.payloads.map MimePayload.mime).Nodup := h.preferred.nodup

/-! ## §2. What a capture leaves -/

/-- The references and the blobs are the same. -/
structure SameBlobs (d d' : Daemon) : Prop where
  refs : d'.db.entryBlobs = d.db.entryBlobs
  blobs : d'.blobs = d.blobs
  blobCipher : d'.blobCipher = d.blobCipher

section Capture

variable {env : Env} {h : Hash} {d d' : Daemon} {id : Nat} {r : EntryRow}
  {payloads all : List MimePayload}

theorem SameBlobs.refl (d : Daemon) : SameBlobs d d := ⟨rfl, rfl, rfl⟩

theorem SameBlobs.trans {d'' : Daemon} (h : SameBlobs d d') (h' : SameBlobs d' d'') :
    SameBlobs d d'' :=
  ⟨h'.refs.trans h.refs, h'.blobs.trans h.blobs, h'.blobCipher.trans h.blobCipher⟩

/-- Recording the row of a capture leaves the blobs alone. -/
theorem sameBlobs_recordRow (env : Env) (data : ClipboardData) :
    Keeps SameBlobs (recordRow env data) := by
  have hbind : ∀ {α β : Type} {x : Request α} {f : α → Request β}, Keeps SameBlobs x →
      (∀ a, Keeps SameBlobs (f a)) → Keeps SameBlobs (x >>= f) :=
    fun hx hf => keeps_bind (R := SameBlobs) (fun _ _ _ h h' => h.trans h') hx hf
  unfold recordRow
  refine hbind (fun d => ⟨rfl, rfl, rfl⟩) fun lamport => ?_
  refine hbind (keeps_step fun d => ⟨(upsertEntry_eq _ _ _).2, rfl, rfl⟩) fun id => ?_
  refine hbind (keeps_attempt SameBlobs.refl ?_) fun _ => hbind ?_ fun _ => hbind ?_ fun _ =>
    keeps_pure SameBlobs.refl _
  · -- the stamp
    intro d a t hrun
    obtain ⟨⟨_, db⟩, hdb, heq⟩ := Fallible.map_ok_iff.mp hrun
    obtain ⟨db', hstamp, hpair⟩ := Fallible.map_ok_iff.mp hdb
    rw [← (Prod.mk.inj heq).2]
    refine ⟨?_, rfl, rfl⟩
    show db.entryBlobs = d.db.entryBlobs
    rw [← (Prod.mk.inj hpair).2, changing_eq hstamp]
    exact entryBlobs_trackedUpdate _ _ _
  · unfold markSecret
    split
    · exact fun d => ⟨rfl, rfl, rfl⟩
    · exact SameBlobs.refl
  · unfold indexCapture
    split
    · split
      · exact fun d => ⟨rfl, rfl, rfl⟩
      · exact SameBlobs.refl
    · exact SameBlobs.refl

/-- What every format keeps that is stored, all of them keep. -/
theorem storeBlobs_keeps (env : Env) (P : Daemon → Prop)
    (hstep : ∀ p ∈ payloads, ∀ d r, d.db.entries.get id = some r → P d →
      P (exec (storeBlob env id p.mime p.data) d).2) :
    ∀ (rest : List MimePayload) (d : Daemon), rest ⊆ payloads → d.db.entries.get id = some r →
      P d → P (exec (rest.forM (fun p => storeBlob env id p.mime p.data)) d).2
  | [], d, _, _, hd => hd
  | p :: rest, d, hsub, hrow, hd => by
    obtain ⟨d1, hrun, haside⟩ := exec_storeBlob env hrow p.mime p.data
    have hnext := hstep p (hsub mem_cons_self) d r hrow hd
    rw [hrun] at hnext
    rw [forM_eq_forM, forM_cons, exec_bind_ok hrun]
    exact storeBlobs_keeps env P hstep rest d1 (fun q hq => hsub (mem_cons_of_mem _ hq))
      (by rw [haside.entries]; exact hrow) hnext

/-- What an entry holds, it holds when something is stored beside it. -/
theorem Holds.storeBlob_beside (env : Env) (hholds : Holds h d id payloads) {id' : Nat}
    (hrow : d.db.entries.get id' = some r) (p : MimePayload)
    (hbeside : id' ≠ id ∨ p.mime = thumbnailMime) :
    Holds h (exec (storeBlob env id' p.mime p.data) d).2 id payloads := by
  obtain ⟨blobs, hput, hexec⟩ := exec_storeBlob_eq env hrow p
  obtain ⟨-, hkept, -, -⟩ := put_cases hput
  rw [hexec]
  refine ⟨(Perm.of_eq (formatsOf_beside d.db hbeside)).trans hholds.formats, fun q hq => ?_⟩
  obtain ⟨f, hf⟩ := file_of_get (hholds.opens q hq)
  show blobs.get d.blobCipher _ = _
  rw [get_congr d.blobCipher ((hkept _ f hf).trans hf.symm)]
  exact hholds.opens q hq

/-- The thumbnail of a capture, as a format. -/
def thumbnailOf (env : Env) (data : ClipboardData) : List MimePayload :=
  (((imageOf env data).bind env.content.renderThumbnail).map
    (fun png => ⟨thumbnailMime, png⟩)).toList

/-- All that a capture puts into the blob directory. -/
def putBy (env : Env) (data : ClipboardData) : List MimePayload :=
  data.payloads ++ thumbnailOf env data

/-- What holds of the blobs, other entries' formats and references while a capture stores
    its own. -/
structure Beside (h : Hash) (all : List MimePayload) (id : Nat) (d d' : Daemon) : Prop where
  apart : Apart h d all → Apart h d' all
  refs : ∀ b ∈ d'.db.entryBlobs, b ∈ d.db.entryBlobs ∨ b.entryId = id
  others : ∀ id' payloads, id' ≠ id → Holds h d id' payloads → Holds h d' id' payloads

theorem Beside.trans {d'' : Daemon} (hfst : Beside h all id d d') (hsnd : Beside h all id d' d'') :
    Beside h all id d d'' where
  apart ha := hsnd.apart (hfst.apart ha)
  refs b hb := by
    rcases hsnd.refs b hb with hb | hb
    · exact hfst.refs b hb
    · exact .inr hb
  others id' payloads hne hh := hsnd.others id' payloads hne (hfst.others id' payloads hne hh)

theorem Holds.of_sameBlobs (hholds : Holds h d id payloads) (hsame : SameBlobs d d') :
    Holds h d' id payloads := by
  refine ⟨?_, ?_⟩
  · have hformats : formatsOf d'.db id = formatsOf d.db id := by
      unfold formatsOf blobsOf
      rw [hsame.refs]
    rw [hformats]
    exact hholds.formats
  · intro p hp
    rw [hsame.blobs, hsame.blobCipher]
    exact hholds.opens p hp

theorem beside_of_sameBlobs (hsame : SameBlobs d d') : Beside h all id d d' where
  apart ha := ⟨ha.names, by
    intro p hp
    rw [hsame.blobs, hsame.blobCipher]
    exact ha.taken p hp⟩
  refs b hb := by
    rw [hsame.refs] at hb
    exact .inl hb
  others _ _ _ hh := hh.of_sameBlobs hsame

theorem beside_storeBlob (env : Env) (hrow : d.db.entries.get id = some r) {p : MimePayload} (hp : p ∈ all) :
    Beside env.hash all id d (exec (storeBlob env id p.mime p.data) d).2 where
  apart ha := ha.storeBlob hrow hp
  refs := by
    obtain ⟨blobs, -, hexec⟩ := exec_storeBlob_eq env hrow p
    rw [hexec]
    intro b hb
    rcases mem_append.mp hb with hb | hb
    · exact .inl (mem_filter.mp hb).1
    · rw [mem_singleton.mp hb]
      exact .inr rfl
  others id' payloads hne hh := hh.storeBlob_beside env hrow p (.inl hne.symm)

/-- A row nothing refers to holds nothing. -/
theorem holds_nil (hfree : ∀ b ∈ d.db.entryBlobs, b.entryId ≠ id) : Holds h d id [] := by
  refine ⟨?_, by simp⟩
  have hempty : formatsOf d.db id = [] := by
    rw [eq_nil_iff_forall_not_mem]
    intro b hb
    have hmem := (perm_insertionSort _ _).mem_iff.mp (mem_filter.mp hb).1
    exact hfree b (mem_filter.mp hmem).1 (of_decide_eq_true (mem_filter.mp hmem).2)
  rw [hempty]
  exact Perm.refl _

/-- **What a capture leaves**, up to its retention pass: its row holds its payloads, beside
    those of other formats it held, and every other entry holds what it held. -/
theorem capture_holds (hformats : ∀ p ∈ data.payloads, p.mime ≠ thumbnailMime)
    (hnodup : (data.payloads.map MimePayload.mime).Nodup)
    (hput : putBy env data ⊆ all) (happart : Apart env.hash d all) {held : List MimePayload}
    (hbefore : Holds env.hash d (capturedRow env data d).id held) :
    Holds env.hash (captureState env data d) (capturedRow env data d).id
        (held.filter (fun p => p.mime ∉ data.payloads.map MimePayload.mime) ++ data.payloads) ∧
      Beside env.hash all (capturedRow env data d).id d (captureState env data d) := by
  have hpayloads : data.payloads ⊆ all := fun p hp => hput (mem_append_left _ hp)
  obtain ⟨d1, hrecord, hwrote, -⟩ := exec_recordRow env data d
  have hsame := sameBlobs_recordRow env data d
  rw [hrecord] at hsame
  generalize capturedRow env data d = row at hrecord hwrote hbefore ⊢
  have hbeside1 : Beside env.hash all row.id d d1 := beside_of_sameBlobs hsame
  obtain ⟨d2, hblobs, hholds2, haside2⟩ := exec_storeBlobs_holds data.payloads d1 held hpayloads
    hformats hnodup hwrote.get (hbeside1.apart happart)
    (hbefore.of_sameBlobs hsame)
  have hbeside2 : Beside env.hash all row.id d d2 := by
    have hstep : ∀ p ∈ data.payloads, ∀ d' r',
        d'.db.entries.get row.id = some r' →
        Beside env.hash all row.id d d' →
        Beside env.hash all row.id d
          (exec (storeBlob env row.id p.mime p.data) d').2 :=
      fun p hp d' r' hrow hd => hd.trans (beside_storeBlob env hrow (hpayloads hp))
    have hkeeps := storeBlobs_keeps env (Beside env.hash all row.id d) hstep data.payloads d1
      (Subset.refl _) hwrote.get hbeside1
    rw [hblobs] at hkeeps
    exact hkeeps
  have hrow2 : d2.db.entries.get row.id = some row := by
    rw [haside2.entries]
    exact hwrote.get
  have hrowRun : exec (storeRow env data) d = (.ok row.id, d2) := by
    rw [storeRow_eq, exec_bind_ok hrecord, exec_bind_ok hblobs]
    rfl
  unfold captureState
  rw [exec_bind_ok hrowRun]
  cases hthumb : (imageOf env data).bind env.content.renderThumbnail with
  | none => exact ⟨hholds2, hbeside2⟩
  | some png =>
    have hpng : (⟨thumbnailMime, png⟩ : MimePayload) ∈ all := by
      apply hput
      unfold putBy thumbnailOf
      rw [hthumb]
      simp
    have hheld := hholds2.storeBlob_beside env hrow2 ⟨thumbnailMime, png⟩ (.inr rfl)
    have hbeside3 := hbeside2.trans (beside_storeBlob env hrow2 hpng)
    exact ⟨hheld, hbeside3⟩

end Capture

/-! ## §3. Two captures -/

/-- What is hashed for a list of payloads: every format's name and bytes, in order. -/
def hashInput (payloads : List MimePayload) : Bytes :=
  payloads.flatMap (fun p => utf8 p.mime ++ p.data)

/-- BLAKE3 gives these inputs different hashes, where they differ. -/
def CollisionFreeOn (h : Hash) (inputs : List Bytes) : Prop :=
  ∀ x ∈ inputs, ∀ y ∈ inputs, h.contentHash x = h.contentHash y → x = y

/-- A new history under a master key. -/
def blank (key : Key) : Daemon := ⟨empty, key, empty, key⟩

/-- The daemon after a capture, whatever it answered. -/
def stored (env : Env) (data : ClipboardData) (d : Daemon) : Daemon :=
  (exec (store env data) d).2

/-- The history holds two entries, which load back as these payloads. -/
structure HeldApart (d : Daemon) (a b : List MimePayload) : Prop where
  two : (d.db.entries.rows.filter (fun r => !r.cols.deleted)).length = 2
  own : ∃ ra ∈ d.db.entries.rows, ∃ rb ∈ d.db.entries.rows, ra ≠ rb ∧
    loadPayloads d ra.id = .ok a ∧ loadPayloads d rb.id = .ok b

section Two

variable {env : Env} {d : Daemon} {data : ClipboardData} {r : EntryRow}

/-- A capture ends with its retention pass. -/
theorem stored_eq (env : Env) (data : ClipboardData) (d : Daemon) :
    stored env data d = (exec (collectGarbage env) (captureState env data d)).2 := by
  unfold stored
  rw [(exec_store env data d).2.2]
  cases hget : (exec (collectGarbage env) (captureState env data d)).2.db.entries.get
      (capturedRow env data d).id with
  | none => rw [exec_getEntry_error hget]
  | some r => rw [exec_getEntry_ok hget]

/-- A capture whose pass finds nothing ends as it was before the pass. -/
theorem stored_of_allKept (hkept : AllKept env (captureState env data d).db)
    (hlive : ∀ r ∈ (captureState env data d).db.entries.rows, r.cols.deleted = false) :
    stored env data d = captureState env data d := by
  rw [stored_eq, exec_collectGarbage_idle hkept.rulesIdle hlive]

/-- What is live after a capture was so before its pass. -/
theorem mem_of_live_stored (hr : r ∈ (stored env data d).db.entries.rows)
    (hlive : r.cols.deleted = false) :
    r ∈ (captureState env data d).db.entries.rows ∧
      (r.cols.pinned = false → r ∈ keptRows env (captureState env data d).db) := by
  obtain ⟨d', hrun, hentries, -⟩ := exec_collectGarbage env (captureState env data d)
  rw [stored_eq, hrun] at hr
  exact mem_of_live_after hentries hr hlive

/-- The row of a capture is the only one it may have added. -/
theorem mem_captureState (hr : r ∈ (captureState env data d).db.entries.rows) :
    r = capturedRow env data d ∨ (r ∈ d.db.entries.rows ∧ r.key ≠ keyOf env data) :=
  (exec_store env data d).1.mem hr

/-- Rows with one key are one row. -/
theorem eq_of_key_eq {db : Database} {r r' : EntryRow} (hr : r ∈ db.entries.rows)
    (hr' : r' ∈ db.entries.rows) (hkey : r.key = r'.key) : r = r' := by
  have hfind : db.entries.find r'.key = some r := find_eq_some.mpr ⟨hr, hkey⟩
  have hfind' : db.entries.find r'.key = some r' := find_eq_some.mpr ⟨hr', rfl⟩
  rw [hfind] at hfind'
  exact Option.some.inj hfind'

/-- What loads is live. -/
theorem live_of_loadPayloads {payloads : List MimePayload} (hr : r ∈ d.db.entries.rows)
    (hload : loadPayloads d r.id = .ok payloads) : r.cols.deleted = false := by
  have hget : d.db.get d.dbCipher r.id = .ok (rowToEntry d.dbCipher r) := by
    rw [Database.get, Table.get_eq_some.mpr ⟨hr, rfl⟩]
  unfold loadPayloads at hload
  rw [hget] at hload
  by_contra hdel
  have hdel : (rowToEntry d.dbCipher r).deleted = true := Bool.eq_true_of_not_eq_false hdel
  rw [Fallible.ok_bind, if_pos hdel] at hload
  exact absurd hload (by simp)

end Two

section Main

variable {env₁ env₂ : Env} {key : Key} {a b : ClipboardData}

/-- The first capture writes the only row there is. -/
theorem rows_first {r : EntryRow} (hr : r ∈ (captureState env₁ a (blank key)).db.entries.rows) :
    r = capturedRow env₁ a (blank key) := by
  rcases mem_captureState hr with hrow | ⟨hold, -⟩
  · exact hrow
  · exact absurd hold (by simp [blank, Database.empty, Table.empty])

/-- **Two entries that load back** come from different hashed bytes, and no pass evicted
    either. -/
theorem of_heldApart (hhash : env₂.hash = env₁.hash) (hsel : b.selection = a.selection)
    (h : HeldApart (stored env₂ b (stored env₁ a (blank key))) a.payloads b.payloads) :
    hashInput a.payloads ≠ hashInput b.payloads ∧
      AllKept env₁ (captureState env₁ a (blank key)).db ∧
      AllKept env₂ (captureState env₂ b (stored env₁ a (blank key))).db := by
  obtain ⟨ra, hra, rb, hrb, hne, hloada, hloadb⟩ := h.own
  have hlivea := live_of_loadPayloads hra hloada
  have hliveb := live_of_loadPayloads hrb hloadb
  obtain ⟨hra2, hkepta⟩ := mem_of_live_stored hra hlivea
  obtain ⟨hrb2, hkeptb⟩ := mem_of_live_stored hrb hliveb
  have hdiffer : ra.key ≠ rb.key := fun hkey => hne (eq_of_key_eq hra hrb hkey)
  -- a live row is the second capture's, or the first's, and was kept by the first pass
  have hcases : ∀ {r : EntryRow},
      r ∈ (captureState env₂ b (stored env₁ a (blank key))).db.entries.rows →
      r.cols.deleted = false → r = capturedRow env₂ b (stored env₁ a (blank key)) ∨
        (r = capturedRow env₁ a (blank key) ∧ r.key ≠ keyOf env₂ b ∧
          (r.cols.pinned = false → r ∈ keptRows env₁ (captureState env₁ a (blank key)).db)) := by
    intro r hr hlive
    rcases mem_captureState hr with hnew | ⟨hold, hother⟩
    · exact .inl hnew
    · obtain ⟨hfirst, hkept⟩ := mem_of_live_stored hold hlive
      exact .inr ⟨rows_first hfirst, hother, hkept⟩
  have hfirst : ∃ r, r = capturedRow env₁ a (blank key) ∧ r.key ≠ keyOf env₂ b ∧
      (r.cols.pinned = false → r ∈ keptRows env₁ (captureState env₁ a (blank key)).db) := by
    rcases hcases hra2 hlivea with hnewa | holda
    · rcases hcases hrb2 hliveb with hnewb | holdb
      · exact absurd (hnewa.trans hnewb.symm) hne
      · exact ⟨rb, holdb⟩
    · exact ⟨ra, holda⟩
  have hrowKey : (capturedRow env₁ a (blank key)).key = keyOf env₁ a :=
    (find_eq_some.mp (exec_store env₁ a (blank key)).1.row).2
  obtain ⟨r1, hr1, hother, hkept1⟩ := hfirst
  refine ⟨?_, ?_, ?_⟩
  · intro hsame
    apply hother
    rw [hr1, hrowKey]
    unfold keyOf Hash.payloadHash
    rw [hhash, hsel]
    exact congrArg (fun x => (⟨env₁.hash.contentHash x, a.selection⟩ : EntryKey)) hsame
  · intro r hr
    obtain ⟨hmem, -, hpin⟩ := mem_liveUnpinned.mp hr
    rw [rows_first hmem] at hpin ⊢
    rw [hr1] at hkept1
    exact hkept1 hpin
  · intro r hr
    obtain ⟨hmem, hlive, hpin⟩ := mem_liveUnpinned.mp hr
    -- it is one of the two that are left
    rcases hcases hmem hlive with hnew | ⟨hold, -⟩
    · rcases hcases hra2 hlivea with hnewa | ⟨holda, -⟩
      · rw [hnew, ← hnewa] at hpin ⊢
        exact hkepta hpin
      · rcases hcases hrb2 hliveb with hnewb | ⟨holdb, -⟩
        · rw [hnew, ← hnewb] at hpin ⊢
          exact hkeptb hpin
        · exact absurd (holda.trans holdb.symm) hne
    · rcases hcases hra2 hlivea with hnewa | ⟨holda, -⟩
      · rcases hcases hrb2 hliveb with hnewb | ⟨holdb, -⟩
        · exact absurd (hnewa.trans hnewb.symm) hne
        · rw [hold, ← holdb] at hpin ⊢
          exact hkeptb hpin
      · rw [hold, ← holda] at hpin ⊢
        exact hkepta hpin

/-- What the first capture leaves, where its pass keeps it. -/
theorem first_holds (key : Key) (ha : Captured a) {all : List MimePayload} (hput : putBy env₁ a ⊆ all)
    (hnames : ∀ p ∈ all, ∀ q ∈ all,
      env₁.hash.contentHash p.data = env₁.hash.contentHash q.data → p.data = q.data) :
    Apart env₁.hash (captureState env₁ a (blank key)) all ∧
      Holds env₁.hash (captureState env₁ a (blank key)) (capturedRow env₁ a (blank key)).id
        a.payloads ∧
      ∀ b ∈ (captureState env₁ a (blank key)).db.entryBlobs,
        b.entryId = (capturedRow env₁ a (blank key)).id := by
  have happart : Apart env₁.hash (blank key) all := by
    refine ⟨hnames, fun p _ hsome => absurd hsome ?_⟩
    simp [blank, BlobStore.file, BlobStore.empty, Keyed.lookup]
  obtain ⟨hholds, hbeside⟩ := capture_holds ha.mime_ne_thumbnail ha.nodup hput happart
    (holds_nil (by simp [blank, Database.empty]))
  refine ⟨hbeside.apart happart, hholds, fun b hb => ?_⟩
  rcases hbeside.refs b hb with hold | hnew
  · exact absurd hold (by simp [blank, Database.empty])
  · exact hnew

/-- **Different hashed bytes**, and no eviction: two entries that load back. -/
theorem heldApart_of (hhash : env₂.hash = env₁.hash) (ha : Captured a) (hb : Captured b)
    (hnames : ∀ p ∈ putBy env₁ a ++ putBy env₂ b, ∀ q ∈ putBy env₁ a ++ putBy env₂ b,
      env₁.hash.contentHash p.data = env₁.hash.contentHash q.data → p.data = q.data)
    (hkeys : keyOf env₁ a ≠ keyOf env₂ b)
    (hkept1 : AllKept env₁ (captureState env₁ a (blank key)).db)
    (hkept2 : AllKept env₂ (captureState env₂ b (stored env₁ a (blank key))).db) :
    HeldApart (stored env₂ b (stored env₁ a (blank key))) a.payloads b.payloads := by
  have hwrote1 := (exec_store env₁ a (blank key)).1
  obtain ⟨happart, hholds, hrefs⟩ := first_holds key ha
    (subset_append_left _ (putBy env₂ b)) hnames
  have hlive1 : ∀ r ∈ (captureState env₁ a (blank key)).db.entries.rows,
      r.cols.deleted = false := by
    intro r hr
    rw [rows_first hr]
    exact capturedRow_deleted env₁ a (blank key)
  have hfirst := stored_of_allKept hkept1 hlive1
  rw [hfirst] at hkept2 ⊢
  generalize hd1 : captureState env₁ a (blank key) = d1 at *
  have hwrote2 := (exec_store env₂ b d1).1
  have hrow1 : (captureState env₂ b d1).db.entries.find (keyOf env₁ a)
      = some (capturedRow env₁ a (blank key)) :=
    (hwrote2.others _ hkeys).trans hwrote1.row
  have hdiffer : capturedRow env₁ a (blank key) ≠ capturedRow env₂ b d1 := by
    intro heq
    have hkey1 := (find_eq_some.mp hrow1).2
    rw [heq, (find_eq_some.mp hwrote2.row).2] at hkey1
    exact hkeys hkey1.symm
  have hids : (capturedRow env₁ a (blank key)).id ≠ (capturedRow env₂ b d1).id := fun hid =>
    hdiffer (eq_of_id_eq (find_eq_some.mp hrow1).1
      (find_eq_some.mp hwrote2.row).1 hid)
  -- the rows are these two
  have hmem : ∀ r, r ∈ (captureState env₂ b d1).db.entries.rows ↔
      r ∈ [capturedRow env₁ a (blank key), capturedRow env₂ b d1] := by
    intro r
    rw [mem_cons, mem_singleton]
    constructor
    · intro hr
      rcases mem_captureState hr with hnew | ⟨hold, -⟩
      · exact .inr hnew
      · rw [← hd1] at hold
        exact .inl (rows_first hold)
    · intro hr
      rcases hr with rfl | rfl
      · exact (find_eq_some.mp hrow1).1
      · exact (find_eq_some.mp hwrote2.row).1
  have hlive2 : ∀ r ∈ (captureState env₂ b d1).db.entries.rows, r.cols.deleted = false := by
    intro r hr
    rcases mem_cons.mp ((hmem r).mp hr) with rfl | hr
    · exact capturedRow_deleted env₁ a (blank key)
    · rw [mem_singleton.mp hr]
      exact capturedRow_deleted env₂ b d1
  rw [stored_of_allKept hkept2 hlive2]
  obtain ⟨hholds2, hbeside2⟩ := capture_holds hb.mime_ne_thumbnail hb.nodup
    (subset_append_right (putBy env₁ a) _)
    (hhash.symm ▸ happart) (holds_nil fun ref href => by rw [hrefs ref href]; exact hids)
  have hholds1 := hbeside2.others _ a.payloads hids (hhash.symm ▸ hholds)
  refine ⟨?_, _, (find_eq_some.mp hrow1).1, _, (find_eq_some.mp hwrote2.row).1,
    hdiffer, loadPayloads_of_holds (get_of_find hrow1)
      (capturedRow_deleted env₁ a (blank key)) hholds1 ha.preferred,
    loadPayloads_of_holds hwrote2.get (capturedRow_deleted env₂ b d1) hholds2 hb.preferred⟩
  have hall : (captureState env₂ b d1).db.entries.rows.filter (fun r => !r.cols.deleted)
      = (captureState env₂ b d1).db.entries.rows := by
    rw [filter_eq_self]
    intro r hr
    simp [hlive2 r hr]
  have hperm := (perm_ext_iff_of_nodup
    ((captureState env₂ b d1).db.entries.idsNodup.of_map) (by simp [hdiffer])).mpr hmem
  rw [hall, hperm.length_eq]
  rfl

end Main

/-- **When two captures are two entries.**  For any two captures on one selection, from a
    new history on and taking BLAKE3 not to collide on what is hashed: the history holds
    two entries, each of which loads back as its own payloads, exactly when the bytes
    hashed for the two lists differ, and no retention pass evicts one of them. -/
theorem captures_held_apart_iff (env₁ env₂ : Env) (hhash : env₂.hash = env₁.hash) (key : Key)
    (a b : ClipboardData) (ha : Captured a) (hb : Captured b)
    (hsel : b.selection = a.selection)
    (hcf : CollisionFreeOn env₁.hash (hashInput a.payloads :: hashInput b.payloads ::
      (putBy env₁ a ++ putBy env₂ b).map MimePayload.data)) :
    HeldApart (stored env₂ b (stored env₁ a (blank key))) a.payloads b.payloads ↔
      hashInput a.payloads ≠ hashInput b.payloads ∧
        AllKept env₁ (capturedDb env₁ a (blank key)) ∧
        AllKept env₂ (capturedDb env₂ b (stored env₁ a (blank key))) := by
  rw [← allKept_captureState, ← allKept_captureState]
  constructor
  · exact of_heldApart hhash hsel
  · intro h
    obtain ⟨hdiffer, hkept1, hkept2⟩ := h
    refine heldApart_of hhash ha hb ?_ ?_ hkept1 hkept2
    · intro p hp q hq
      exact hcf _ (mem_cons_of_mem _ (mem_cons_of_mem _ (mem_map_of_mem hp)))
        _ (mem_cons_of_mem _ (mem_cons_of_mem _ (mem_map_of_mem hq)))
    · intro hkey
      have hsame : env₂.hash.contentHash (hashInput b.payloads)
          = env₁.hash.contentHash (hashInput a.payloads) :=
        (congrArg EntryKey.contentHash hkey).symm
      rw [hhash] at hsame
      exact hdiffer (hcf _ mem_cons_self _
        (mem_cons_of_mem _ mem_cons_self) hsame.symm)

namespace Sample

/-- A text that spells out the name of a format. -/
def spelled : ClipboardData :=
  ⟨.clipboard, [⟨"text/plain", utf8 "Atext/htmlB"⟩], ["text/plain"], none⟩

/-- A copy in two formats. -/
def twoFormats : ClipboardData :=
  ⟨.clipboard, [⟨"text/plain", utf8 "A"⟩, ⟨"text/html", utf8 "B"⟩],
    ["text/plain", "text/html"], none⟩

theorem captured_spelled : Captured spelled := by
  unfold Captured
  decide +kernel

theorem captured_twoFormats : Captured twoFormats := by
  unfold Captured
  decide +kernel

/-- **Two captures that run together**: a text that spells out a format's name, and a copy
    in two formats.  They are one entry, and what loads back is the second. -/
theorem captures_run_together :
    Captured spelled ∧ Captured twoFormats ∧ spelled.payloads ≠ twoFormats.payloads ∧
      hashInput spelled.payloads = hashInput twoFormats.payloads ∧
      CollisionFreeOn hash (hashInput spelled.payloads :: hashInput twoFormats.payloads ::
        (putBy env spelled ++ putBy env twoFormats).map MimePayload.data) ∧
      (stored env twoFormats (stored env spelled (blank [1]))).db.entries.rows.length = 1 ∧
      loadPayloads (stored env twoFormats (stored env spelled (blank [1]))) 1
        = .ok twoFormats.payloads ∧
      ¬ HeldApart (stored env twoFormats (stored env spelled (blank [1])))
        spelled.payloads twoFormats.payloads := by
  have hone : (stored env twoFormats (stored env spelled (blank [1]))).db.entries.rows.length
      = 1 := by decide +kernel
  refine ⟨captured_spelled, captured_twoFormats, by decide +kernel, by decide +kernel, ?_, hone,
    by decide +kernel, fun h => ?_⟩
  · unfold CollisionFreeOn
    decide +kernel
  · have hle := length_filter_le (fun r : EntryRow => !r.cols.deleted)
      (stored env twoFormats (stored env spelled (blank [1]))).db.entries.rows
    rw [h.two, hone] at hle
    exact absurd hle (by decide)

/-- A text of its own. -/
def plainNote : ClipboardData := ⟨.clipboard, [⟨"text/plain", utf8 "C"⟩], ["text/plain"], none⟩

/-- Two captures that do not run together are two entries. -/
theorem captures_held_apart_iff_note :
    HeldApart (stored env twoFormats (stored env plainNote (blank [1])))
      plainNote.payloads twoFormats.payloads := by
  refine (captures_held_apart_iff env env rfl [1] plainNote twoFormats ?_ captured_twoFormats rfl
    ?_).mpr ⟨?_, ?_, ?_⟩
  · unfold Captured
    decide +kernel
  · unfold CollisionFreeOn
    decide +kernel
  · decide +kernel
  · unfold AllKept
    decide +kernel
  · unfold AllKept
    decide +kernel

end Sample

end Panora.Panod
