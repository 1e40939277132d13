/-
  Panora.Panod.Outcome — what a capture leaves.

  `Daemon::store` writes a row, or finds one, and then runs retention.  A row is found again
  by its content, whatever it was recorded under: what `upsert_entry` writes of one that is
  there is the time it was seen, and no more.

  Main results:
    * `find_live_stored_iff` — which row is live under the capture's key afterwards;
    * `capture_survives_iff` — when a capture outlives its own retention pass;
    * `secret_guarded_iff` — when a text the gate would drop is flagged;
    * `masked_iff` — when a secret is masked.
-/
import Panora.Panod.Gate
import Panora.Panod.Walk
import Panora.Storage.Index

namespace Panora.Panod

open Storage Lib Lib.Table Storage.Database

/-! ## §1. Whether the capture is there -/

/-- A row the retention pass leaves alone. -/
def Kept (env : Env) (db : Database) (r : EntryRow) : Prop :=
  r.cols.pinned = true ∨ r ∈ keptRows env db

section Live

variable {env : Env} {d : Daemon} {data : ClipboardData} {r : EntryRow}

theorem kept_captureState :
    Kept env (captureState env data d).db r ↔ Kept env (capturedDb env data d) r := by
  unfold Kept
  rw [keptRows_captureState]

/-- **The live row of a capture** is the one it wrote, where retention leaves that alone. -/
theorem find_live_stored_iff :
    ((stored env data d).db.entries.find (keyOf env data) = some r ∧ r.cols.deleted = false) ↔
      r = capturedRow env data d ∧ Kept env (capturedDb env data d) r := by
  rw [← kept_captureState]
  have hwrote := (exec_store env data d).1
  have hcaptured := find_eq_some.mp hwrote.row
  obtain ⟨d', hrun, hentries, -⟩ := exec_collectGarbage env (captureState env data d)
  have hstored : stored env data d = d' := by rw [stored_eq, hrun]
  constructor
  · intro h
    obtain ⟨hmem, hkey⟩ := find_eq_some.mp h.1
    obtain ⟨hbefore, hkept⟩ := mem_of_live_stored hmem h.2
    refine ⟨eq_of_key_eq hbefore hcaptured.1 (hkey.trans hcaptured.2.symm), ?_⟩
    by_cases hpin : r.cols.pinned = true
    · exact .inl hpin
    · exact .inr (hkept (by simpa using hpin))
  · intro h
    obtain ⟨rfl, hkept⟩ := h
    have hlive := capturedRow_deleted env data d
    have hmem : capturedRow env data d ∈ d'.db.entries.rows := by
      rcases hkept with hpin | hkept
      · have hrow : capturedRow env data d ∈ livePinned (captureState env data d).db :=
          List.mem_filter.mpr ⟨hcaptured.1, by simp [hlive, hpin]⟩
        rw [← livePinned_afterRules env, ← livePinned_of_purged hentries] at hrow
        exact (List.mem_filter.mp hrow).1
      · rw [← liveUnpinned_afterRules, ← liveUnpinned_of_purged hentries] at hkept
        exact (mem_liveUnpinned.mp hkept).1
    rw [hstored]
    exact ⟨find_eq_some.mpr ⟨hmem, hcaptured.2⟩, hlive⟩

/-- **A capture outlives its own retention pass** exactly when its row is pinned, or is among
    the newest rows, neither too old nor a secret past its time, and within the byte limit
    together with the pinned rows and all newer ones. -/
theorem capture_survives_iff (env : Env) (d : Daemon) (data : ClipboardData) :
    (∃ entry d', Op.exec (store env data) d = (.ok entry, d') ∧
      ∃ r, d'.db.entries.find (keyOf env data) = some r ∧ r.cols.deleted = false)
    ↔ Kept env (capturedDb env data d) (capturedRow env data d) := by
  constructor
  · intro h
    obtain ⟨entry, d', hrun, r, hlive⟩ := h
    have hstored : stored env data d = d' := by rw [stored, hrun]
    rw [← hstored] at hlive
    obtain ⟨hrow, hkept⟩ := find_live_stored_iff.mp hlive
    rw [← hrow]
    exact hkept
  · intro hkept
    have hlive := find_live_stored_iff.mpr ⟨rfl, hkept⟩
    have hget := get_of_find hlive.1
    have hrun := (exec_store env data d).2.2
    rw [← stored_eq, exec_getEntry_ok hget] at hrun
    exact ⟨_, _, hrun, _, hlive⟩

end Live

namespace Sample

/-- At most two entries. -/
def two : Env := { env with config := { config with
  maxEntries := 2
  maxEntries_range := by decide } }

/-- A copied text. -/
def copied (text : Bytes) : ClipboardData :=
  ⟨.clipboard, [⟨"text/plain", text⟩], ["text/plain"], none⟩

/-- Two texts, each copied twice within a second. -/
def twice : Daemon :=
  [copied [97], copied [98], copied [97], copied [98]].foldl (fun d data => stored two data d) fresh

/-- A text that is copied again is put after the newest row, a second ahead of the clock and
    more; a third text of the same second is then older than both, and is evicted by the pass
    that follows its own capture. -/
theorem third_copy_is_lost :
    (Op.exec (store two (copied [99])) twice).1 = .error (.notFound 3) ∧
    (stored two (copied [99]) twice).db.entries.find (keyOf two (copied [99])) = none ∧
    twice.db.pinnedBytes + (copied [99]).totalSize ≤ two.config.maxTotalBytes := by
  decide +kernel

end Sample

/-! ## §2. Whether it is flagged -/

/-- A row that was live before the capture. -/
def WasLive (env : Env) (data : ClipboardData) (d : Daemon) (r : EntryRow) : Prop :=
  d.db.entries.find (keyOf env data) = some r ∧ r.cols.deleted = false

section Flags

variable {env : Env} {d : Daemon} {data : ClipboardData} {r : EntryRow} {k : EntryKey}

/-- What a capture writes of a row that is live is the time it was seen. -/
theorem upsertedCapture_of_live (h : WasLive env data d r) :
    (upsertedCapture env data d).cols = r.cols ∨
      ∃ seen, (upsertedCapture env data d).cols = r.cols.seenAt seen := by
  have hfind : d.db.tickLamport.2.entries.find (newEntry env data d.db.tickLamport.1).key
      = some r := h.1
  unfold upsertedCapture upsertedRow
  rw [hfind]
  dsimp only
  rw [if_neg (by simp [h.2])]
  split
  · exact .inr ⟨_, rfl⟩
  · exact .inl rfl

/-- Content that is not live is recorded as new. -/
theorem upsertedCapture_of_new (h : ∀ r, ¬ WasLive env data d r) :
    ∃ deletedAt, (upsertedCapture env data d).cols
      = { (newEntry env data d.db.tickLamport.1).cols d.dbCipher (d.db.changeSeq + 1) with
          deletedAt := deletedAt } := by
  apply upsertedRow_cols
  intro r hr
  by_contra hlive
  exact h r ⟨hr, by simpa using hlive⟩

/-- **Which captures are flagged**: those that look like a secret, and those of a row that was
    live and flagged already. -/
theorem capturedRow_sensitive : (capturedRow env data d).cols.sensitive = true ↔
    (secretIn env data).isSome = true ∨ ∃ r, WasLive env data d r ∧ r.cols.sensitive = true := by
  have hcols : (capturedRow env data d).cols.sensitive
      = ((secretIn env data).isSome || (upsertedCapture env data d).cols.sensitive) := by
    unfold capturedRow stampedCols
    by_cases hsecret : (secretIn env data).isSome = true
    · simp only [hsecret, Bool.true_or]
      rfl
    · simp only [hsecret, Bool.false_or]
      rfl
  rw [hcols, Bool.or_eq_true]
  refine or_congr Iff.rfl ?_
  by_cases hlive : ∃ r, WasLive env data d r
  · obtain ⟨r, hr⟩ := hlive
    have hsame : (upsertedCapture env data d).cols.sensitive = r.cols.sensitive := by
      rcases upsertedCapture_of_live hr with h | ⟨seen, h⟩
      · rw [h]
      · rw [h]
        rfl
    rw [hsame]
    constructor
    · exact fun h => ⟨r, hr, h⟩
    · intro h
      obtain ⟨r', hr', hsensitive⟩ := h
      have hsome := hr.1.symm.trans hr'.1
      rw [Option.some.inj hsome]
      exact hsensitive
  · obtain ⟨deletedAt, hnew⟩ := upsertedCapture_of_new (fun r hr => hlive ⟨r, hr⟩)
    rw [hnew]
    constructor
    · intro h
      exact absurd h (by simp [NewEntry.cols])
    · intro h
      obtain ⟨r, hr, -⟩ := h
      exact absurd ⟨r, hr⟩ hlive

/-- The environment with the source's own functions on content; the preview, the index text
    and the thumbnail are as they were. -/
def Env.reading (env : Env) (isHighEntropy : String → Bool) (filters : ContentFilters) : Env :=
  { env with content := { env.content with
      classify := classify
      text := fun data => (text data).getD ""
      detect := fun t => (detect isHighEntropy t).map SensitiveKind.label
      contentAllowed := fun data => evaluateContent isHighEntropy filters data = .allow } }

/-- What `drop` rejects as a secret has a text that looks like one. -/
theorem detect_of_rejected {isHighEntropy : String → Bool} {filters : ContentFilters}
    (h : evaluateContent isHighEntropy filters data = .rejectSensitive) :
    ∃ t, text data = some t ∧ (detect isHighEntropy t).isSome = true := by
  unfold evaluateContent at h
  split at h
  · cases h
  split at h
  · cases h
  next t ht =>
    refine ⟨t, ht, ?_⟩
    unfold evaluateText at h
    split at h
    · cases h
    split at h
    · cases h
    split at h
    · cases h
    split at h
    next hsecret =>
      rw [Bool.and_eq_true] at hsecret
      rw [← detect_trim]
      exact hsecret.2
    next => cases h

/-- The store looks at the text of two kinds alone. -/
theorem secretIn_reading {isHighEntropy : String → Bool} {filters : ContentFilters} {t : String}
    (htext : text data = some t) (hsecret : (detect isHighEntropy t).isSome = true) :
    (secretIn (env.reading isHighEntropy filters) data).isSome = true
      ↔ classify data = .text ∨ classify data = .richText := by
  have hkind : (env.reading isHighEntropy filters).content.classify data = classify data := rfl
  have hfound : ((env.reading isHighEntropy filters).content.detect
      ((env.reading isHighEntropy filters).content.text data)).isSome = true := by
    have hread : (env.reading isHighEntropy filters).content.text data = t := by
      show (text data).getD "" = t
      rw [htext]
      rfl
    rw [hread]
    show ((detect isHighEntropy t).map SensitiveKind.label).isSome = true
    rw [Option.isSome_map]
    exact hsecret
  unfold secretIn
  rw [hkind]
  generalize (env.reading isHighEntropy filters).content.detect
    ((env.reading isHighEntropy filters).content.text data) = found at hfound ⊢
  cases classify data with
  | text => exact iff_of_true hfound (.inl rfl)
  | richText => exact iff_of_true hfound (.inr rfl)
  | link => simp
  | image => simp
  | fileList => simp
  | color => simp
  | binary => simp

/-- The live row under a key is flagged, and what follows from that: unpinned, it is not there
    any more after a retention pass past its time; and no page of the feed has it. -/
structure Guarded (env : Env) (d : Daemon) (k : EntryKey) (r : EntryRow) : Prop where
  flagged : r.cols.sensitive = true
  expires : 0 < env.config.sensitiveTtlMinutes → r.cols.pinned = false →
    ∀ now, r.cols.lastSeenAt < now - env.config.sensitiveTtlMinutes * 60 →
      ∀ r', (Op.exec (collectGarbage { env with now := now }) d).2.db.entries.find k = some r' →
        r'.cols.deleted = true
  hidden : ∀ since limit scope records next more,
    syncChanges env d since limit scope = .ok (records, next, more) →
      ∀ record ∈ records, record.key ≠ k

/-- A live row that is flagged is guarded. -/
theorem guarded_of_flagged (hr : d.db.entries.find k = some r) (hflag : r.cols.sensitive = true) :
    Guarded env d k r := by
  obtain ⟨hmem, hkey⟩ := find_eq_some.mp hr
  refine ⟨hflag, ?_, ?_⟩
  · intro hon hpin now hlate r' hr'
    obtain ⟨d', hrun, hentries, -⟩ := exec_collectGarbage { env with now := now } d
    rw [hrun] at hr'
    by_contra hlive
    obtain ⟨hmem', hkey'⟩ := find_eq_some.mp hr'
    obtain ⟨hbefore, hkept⟩ := mem_of_live_after hentries hmem' (by simpa using hlive)
    have hsame : r' = r := eq_of_key_eq hbefore hmem (hkey'.trans hkey.symm)
    subst hsame
    have hrecent := mem_recentRows.mp ((keptRows_sublist _ _).subset (hkept hpin))
    exact of_decide_eq_false hrecent.2.2.2 ⟨hon, hflag, hlate⟩
  · intro since limit scope records next more hpage record hrecord heq
    obtain ⟨r', hr', hshown, hmade⟩ := mem_syncChanges hpage hrecord
    obtain ⟨payloads, -, hmade⟩ := recordOf_some hmade
    have hkey' : r'.key = k := by
      rw [hmade] at heq
      exact heq
    have hsame : r' = r := eq_of_key_eq hr' hmem (hkey'.trans hkey.symm)
    subst hsame
    unfold shown at hshown
    rw [hflag] at hshown
    cases hshown

/-- **When the policies agree.**  For a capture that `drop` would reject as a secret, storing
    it leaves its live row flagged, to expire and to be kept out of the feed, exactly when it
    is classified as text or rich text, or its row was live and flagged before, or retention
    leaves no live row. -/
theorem secret_guarded_iff (isHighEntropy : String → Bool) (filters : ContentFilters) (env : Env)
    (d : Daemon) (data : ClipboardData)
    (hdrop : evaluateContent isHighEntropy { filters with dropSensitive := true } data
      = .rejectSensitive) :
    let env := env.reading isHighEntropy filters
    (∀ r, (stored env data d).db.entries.find (keyOf env data) = some r → r.cols.deleted = false →
      Guarded env (stored env data d) (keyOf env data) r)
    ↔ (classify data = .text ∨ classify data = .richText) ∨
      (∃ r, WasLive env data d r ∧ r.cols.sensitive = true) ∨
      ¬ Kept env (capturedDb env data d) (capturedRow env data d) := by
  intro env
  obtain ⟨t, htext, hsecret⟩ := detect_of_rejected hdrop
  have hflag : (capturedRow env data d).cols.sensitive = true ↔
      (classify data = .text ∨ classify data = .richText) ∨
        ∃ r, WasLive env data d r ∧ r.cols.sensitive = true := by
    rw [capturedRow_sensitive, secretIn_reading htext hsecret]
  rw [← or_assoc, ← hflag]
  constructor
  · intro h
    by_cases hkept : Kept env (capturedDb env data d) (capturedRow env data d)
    · obtain ⟨hfind, hlive⟩ := find_live_stored_iff.mpr ⟨rfl, hkept⟩
      exact .inl (h _ hfind hlive).flagged
    · exact .inr hkept
  · intro h r hr hlive
    obtain ⟨hrow, hkept⟩ := find_live_stored_iff.mp ⟨hr, hlive⟩
    rw [hrow] at hkept hr ⊢
    rcases h with hsensitive | hgone
    · exact guarded_of_flagged hr hsensitive
    · exact absurd hkept hgone

end Flags

namespace Sample

/-- A card number, copied as a picture of it and as text. -/
def cardWithPicture : ClipboardData :=
  ⟨.clipboard, [⟨"text/plain", utf8 "4111111111111111"⟩, ⟨"image/png", [1]⟩],
    ["text/plain", "image/png"], none⟩

/-- Nothing but what the policy on secrets says is left out. -/
def noFilters : ContentFilters := ⟨1, true, [], none, false⟩

/-- The sample environment, with the source's functions on content. -/
def careful : Env := env.reading (fun _ => false) noFilters

/-- `drop` rejects the capture, and `mask` records it without a flag: a picture is offered
    too, so it is not looked at as text.  The feed hands it out. -/
theorem card_number_is_not_flagged :
    evaluateContent (fun _ => false) { noFilters with dropSensitive := true } cardWithPicture
      = .rejectSensitive ∧
    careful.config.sensitivePolicy = .mask ∧
    ((stored careful cardWithPicture fresh).db.entries.find (keyOf careful cardWithPicture)).map
      (fun r => (r.cols.deleted, r.cols.sensitive)) = some (false, false) ∧
    ((syncChanges careful (stored careful cardWithPicture fresh) 0 0 ⟨false, false⟩).map
      (fun page => page.1.map SyncRecord.payloads)).toOption
        = some [[⟨"text/plain", utf8 "4111111111111111"⟩, ⟨"image/png", [1]⟩]] := by
  decide +kernel

/-- The plain card number is flagged. -/
theorem secret_guarded_iff_card :
    evaluateContent (fun _ => false) { noFilters with dropSensitive := true }
        (copied (utf8 "4111111111111111")) = .rejectSensitive ∧
      ∀ r, (stored careful (copied (utf8 "4111111111111111")) fresh).db.entries.find
          (keyOf careful (copied (utf8 "4111111111111111"))) = some r → r.cols.deleted = false →
        Guarded careful (stored careful (copied (utf8 "4111111111111111")) fresh)
          (keyOf careful (copied (utf8 "4111111111111111"))) r := by
  have hdrop : evaluateContent (fun _ => false) { noFilters with dropSensitive := true }
      (copied (utf8 "4111111111111111")) = .rejectSensitive := by decide +kernel
  have hkind : classify (copied (utf8 "4111111111111111")) = .text := by decide +kernel
  exact ⟨hdrop, (secret_guarded_iff (fun _ => false) noFilters env fresh _ hdrop).mpr
    (.inl (.inl hkind))⟩

end Sample

/-! ## §3. Whether it is masked -/

/-- The preview of a secret that is masked. -/
def maskOf (found : String) : String := sensitiveMask ++ " " ++ found

/-- The preview of a row is the mask, and the index has nothing else of it. -/
structure Veiled (d : Daemon) (found : String) (r : EntryRow) : Prop where
  preview : (rowToEntry d.dbCipher r).preview = maskOf found
  index : ∀ f ∈ d.db.ftsAt r.id, f.preview = maskOf found ∧ f.content = none

/-- A secret that is flagged and masked. -/
structure Masked (d : Daemon) (found : String) (r : EntryRow) : Prop where
  flagged : r.cols.sensitive = true
  veiled : Veiled d found r

section Masks

variable {env : Env} {d d' : Daemon} {data : ClipboardData} {r : EntryRow} {found : String}

/-- What is live afterwards was so before, with the same index rows. -/
structure LiveSame (d d' : Daemon) : Prop where
  kept : LiveKept d.db d'.db

theorem LiveSame.refl (d : Daemon) : LiveSame d d := ⟨LiveKept.refl d.db⟩

theorem LiveSame.trans (d d' d'' : Daemon) (h : LiveSame d d') (h' : LiveSame d' d'') :
    LiveSame d d'' := ⟨h.kept.trans h'.kept⟩

/-- **Retention leaves a live row, and its index rows, as they are.** -/
theorem liveSame_collectGarbage (env : Env) : Op.Keeps LiveSame (collectGarbage env) := by
  refine keeps_collectGarbage LiveSame.refl LiveSame.trans ?_ ?_ ?_
  · exact fun i now => keeps_onDb LiveSame.refl fun d _ _ h => ⟨liveKept_tombstone h⟩
  · unfold stripDeleted
    split
    · exact fun d => ⟨LiveKept.of_eq rfl rfl⟩
    · exact LiveSame.refl
  · exact fun d => ⟨liveKept_purge d.db _⟩

/-- The index is the same. -/
structure SameIndex (d d' : Daemon) : Prop where
  fts : d'.db.entriesFts = d.db.entriesFts

theorem SameIndex.refl (d : Daemon) : SameIndex d d := ⟨rfl⟩

theorem SameIndex.trans (d d' d'' : Daemon) (h : SameIndex d d') (h' : SameIndex d' d'') :
    SameIndex d d'' := ⟨h'.fts.trans h.fts⟩

theorem SameIndex.bind {α β : Type} {x : Request α} {f : α → Request β}
    (hx : Op.Keeps SameIndex x) (hf : ∀ a, Op.Keeps SameIndex (f a)) :
    Op.Keeps SameIndex (x >>= f) :=
  Op.keeps_bind SameIndex.trans hx hf

theorem sameIndex_storeBlob (env : Env) (id : Nat) (mime : String) (bytes : Bytes) :
    Op.Keeps SameIndex (storeBlob env id mime bytes) :=
  fun d => ⟨congrArg (fun d => d.db.entriesFts) (attached_storeBlob env id mime bytes d)⟩

theorem sameIndex_stamp (env : Env) (id : Nat) (lamport : Int) :
    Op.Keeps SameIndex (changeDb (fun db => db.stamp id lamport env.deviceId)) := by
  refine keeps_changeDb SameIndex.refl fun d db' hstamp => ⟨?_⟩
  rw [changing_eq hstamp]
  exact entriesFts_trackedUpdate _ _ _

/-- Marking and indexing a masked capture. -/
theorem sameIndex_noted (hmasked : masked env data = true) (id : Nat) :
    Op.Keeps SameIndex (do markSecret env data id; indexCapture env data id) := by
  have hmark : Op.Keeps SameIndex (markSecret env data id) := by
    unfold markSecret
    split
    · exact fun d => ⟨rfl⟩
    · exact SameIndex.refl
  have hindex : Op.Keeps SameIndex (indexCapture env data id) := by
    unfold indexCapture
    rw [if_neg (by simp [hmasked])]
    exact SameIndex.refl
  exact SameIndex.bind hmark fun _ => hindex

theorem sameIndex_storeBlobs (env : Env) (id : Nat) (payloads : List MimePayload) :
    Op.Keeps SameIndex (payloads.forM (fun p => storeBlob env id p.mime p.data)) := by
  apply Op.keeps_forM SameIndex.refl SameIndex.trans
  intro p
  exact sameIndex_storeBlob env id p.mime p.data

theorem sameIndex_storeThumbnail (env : Env) (id : Nat) (thumbnail : Option Bytes) :
    Op.Keeps SameIndex (storeThumbnail env id thumbnail) := by
  cases thumbnail with
  | none => exact SameIndex.refl
  | some png => exact sameIndex_storeBlob env id thumbnailMime png

/-- The index after the row of a masked capture is recorded. -/
theorem index_recordRow (hmasked : masked env data = true) :
    (Op.exec (recordRow env data) d).2.db.entriesFts = (d.db.tickLamport.2.upsertEntry d.dbCipher
      (newEntry env data d.db.tickLamport.1)).2.entriesFts := by
  have hrest : ∀ id, Op.Keeps SameIndex (do
      changeDb (fun db => db.stamp id d.db.tickLamport.1 env.deviceId)
      markSecret env data id
      indexCapture env data id
      pure id) := by
    intro id
    refine SameIndex.bind (sameIndex_stamp env id _) fun _ => ?_
    have hnoted := SameIndex.bind (sameIndex_noted hmasked id)
      (f := fun _ => (pure id : Request Nat)) (fun _ => SameIndex.refl)
    rw [bind_assoc] at hnoted
    exact hnoted
  cases hupsert : d.db.tickLamport.2.upsertEntry d.dbCipher
      (newEntry env data d.db.tickLamport.1) with
  | mk id db =>
    unfold recordRow
    rw [Op.exec_bind_ok (exec_updateDb _ d), Op.exec_bind_ok (Op.exec_step _ _)]
    dsimp only
    rw [hupsert]
    exact (hrest id { d with db := db }).fts

/-- What follows the upsert of a masked capture leaves the index alone. -/
theorem index_captureState (hmasked : masked env data = true) :
    (captureState env data d).db.entriesFts = (d.db.tickLamport.2.upsertEntry d.dbCipher
      (newEntry env data d.db.tickLamport.1)).2.entriesFts := by
  rw [← index_recordRow hmasked]
  obtain ⟨d1, hrow, -⟩ := exec_recordRow env data d
  have hrest := SameIndex.bind
    (sameIndex_storeBlobs env (capturedRow env data d).id data.payloads)
    (fun _ => sameIndex_storeThumbnail env (capturedRow env data d).id
      ((imageOf env data).bind env.content.renderThumbnail)) d1
  unfold captureState
  rw [storeRow_eq, hrow]
  simp only [bind_assoc, pure_bind]
  rw [Op.exec_bind_ok hrow]
  exact hrest.fts

/-- The preview a row shows depends on its key and its stored preview alone. -/
theorem preview_congr {cipher : Key} {r r' : EntryRow} (hkey : r'.key = r.key)
    (hcols : r'.cols.preview = r.cols.preview) :
    (rowToEntry cipher r').preview = (rowToEntry cipher r).preview := by
  unfold rowToEntry
  rw [hkey, hcols]

theorem preview_capturedRow (env : Env) (data : ClipboardData) (d : Daemon) :
    (capturedRow env data d).cols.preview = (upsertedCapture env data d).cols.preview := by
  unfold capturedRow stampedCols
  split
  · rfl
  · rfl

/-- What a masked capture leaves of its row before retention: a row that was live shows what
    it showed, any other shows the mask alone. -/
theorem veiled_captureState (hmasked : masked env data = true)
    (hsecret : secretIn env data = some found) (hindex : Consistent d.dbCipher d.db) :
    Veiled (captureState env data d) found (capturedRow env data d)
      ↔ ∀ r, WasLive env data d r → Veiled d found r := by
  obtain ⟨hwrote, hcipher, -⟩ := exec_store env data d
  have hkey : (capturedRow env data d).key = keyOf env data := (find_eq_some.mp hwrote.row).2
  have hfts : ∀ id, (captureState env data d).db.ftsAt id
      = (d.db.tickLamport.2.upsertEntry d.dbCipher
          (newEntry env data d.db.tickLamport.1)).2.ftsAt id := by
    intro id
    unfold ftsAt
    rw [index_captureState hmasked]
  have hconsistent : Consistent d.dbCipher d.db.tickLamport.2 := hindex
  have hpreviewOf : previewOf env data = maskOf found := by
    unfold previewOf
    rw [hsecret]
    exact if_pos hmasked
  rcases ftsAt_upsertEntry hconsistent (newEntry env data d.db.tickLamport.1) with
    ⟨r, hr, hlive, hid, hsame⟩ | ⟨hnew, hone⟩
  · have hwas : WasLive env data d r := ⟨hr, hlive⟩
    have hid : (capturedRow env data d).id = r.id := hid
    have hshown : (rowToEntry (captureState env data d).dbCipher
        (capturedRow env data d)).preview = (rowToEntry d.dbCipher r).preview := by
      rw [hcipher]
      refine preview_congr (hkey.trans (find_eq_some.mp hr).2.symm) ?_
      rw [preview_capturedRow]
      rcases upsertedCapture_of_live hwas with h | ⟨seen, h⟩
      · rw [h]
      · rw [h]
        rfl
    have hrows : (captureState env data d).db.ftsAt (capturedRow env data d).id
        = d.db.ftsAt r.id := by
      rw [hid, hfts, hsame]
      rfl
    have hiff : Veiled (captureState env data d) found (capturedRow env data d)
        ↔ Veiled d found r := by
      constructor
      · intro h
        exact ⟨hshown ▸ h.preview, hrows ▸ h.index⟩
      · intro h
        exact ⟨hshown.trans h.preview, hrows.symm ▸ h.index⟩
    rw [hiff]
    constructor
    · intro h r' hr'
      rw [← Option.some.inj (hr.symm.trans hr'.1)]
      exact h
    · exact fun h => h r hwas
  · refine iff_of_true ⟨?_, ?_⟩ fun r hr => ?_
    · have hnotLive : ∀ r, ¬ WasLive env data d r := by
        intro r hr
        have hdeleted := hnew r hr.1
        rw [hr.2] at hdeleted
        cases hdeleted
      obtain ⟨deletedAt, hcols⟩ := upsertedCapture_of_new hnotLive
      unfold rowToEntry
      dsimp only
      rw [preview_capturedRow, hcols, hkey, hcipher]
      show (openStored d.dbCipher (previewAad (keyOf env data).contentHash)
        (sealWithAad d.dbCipher (previewAad (keyOf env data).contentHash)
          (previewOf env data))).getD _ = _
      rw [openStored_seal, hpreviewOf]
      rfl
    · intro f hf
      have hrow : (captureState env data d).db.ftsAt (capturedRow env data d).id = _ :=
        (hfts _).trans hone
      rw [hrow] at hf
      rw [List.mem_singleton.mp hf]
      exact ⟨hpreviewOf, rfl⟩
    · have hdeleted := hnew r hr.1
      rw [hr.2] at hdeleted
      cases hdeleted

/-- **When masking masks.**  For a history whose index is in step and a capture of text that
    looks like a secret, storing it under `mask` leaves its live row flagged, with the mask for
    a preview and nothing else in the index, exactly when a row that was live had the mask and
    nothing else in the index before, or retention leaves no live row. -/
theorem masked_iff (env : Env) (d : Daemon) (data : ClipboardData) (found : String)
    (hmask : env.config.sensitivePolicy = .mask) (hsecret : secretIn env data = some found)
    (hindex : Database.Consistent d.dbCipher d.db) :
    (∀ r, (stored env data d).db.entries.find (keyOf env data) = some r → r.cols.deleted = false →
      Masked (stored env data d) found r)
    ↔ (∀ r, WasLive env data d r → Veiled d found r) ∨
      ¬ Kept env (capturedDb env data d) (capturedRow env data d) := by
  have hmasked : masked env data = true := by
    unfold masked
    rw [hsecret, hmask]
    rfl
  rw [← veiled_captureState hmasked hsecret hindex]
  by_cases hkept : Kept env (capturedDb env data d) (capturedRow env data d)
  · obtain ⟨hfind, hlive⟩ := find_live_stored_iff.mpr ⟨rfl, hkept⟩
    obtain ⟨d', hgc, -, hcipher⟩ := exec_collectGarbage env (captureState env data d)
    have hstored : stored env data d = d' := by rw [stored_eq, hgc]
    have hflag : (capturedRow env data d).cols.sensitive = true :=
      capturedRow_sensitive.mpr (.inl (by rw [hsecret]; rfl))
    -- retention leaves the row and its index rows alone
    have hrows : (stored env data d).db.ftsAt (capturedRow env data d).id
        = (captureState env data d).db.ftsAt (capturedRow env data d).id := by
      have hkeeps := liveSame_collectGarbage env (captureState env data d)
      rw [← stored_eq] at hkeeps
      exact (hkeeps.kept _ _ (get_of_find hfind) hlive).2
    have hveiled : Veiled (stored env data d) found (capturedRow env data d)
        ↔ Veiled (captureState env data d) found (capturedRow env data d) := by
      have hsame : (stored env data d).dbCipher = (captureState env data d).dbCipher := by
        rw [hstored, hcipher]
      constructor
      · intro h
        exact ⟨hsame ▸ h.preview, hrows ▸ h.index⟩
      · intro h
        exact ⟨hsame.symm ▸ h.preview, hrows.symm ▸ h.index⟩
    rw [or_iff_left (not_not_intro hkept), ← hveiled]
    constructor
    · exact fun h => (h _ hfind hlive).veiled
    · intro h r hr hrlive
      obtain ⟨rfl, -⟩ := find_live_stored_iff.mp ⟨hr, hrlive⟩
      exact ⟨hflag, h⟩
  · refine iff_of_true (fun r hr hlive => ?_) (.inr hkept)
    obtain ⟨rfl, h⟩ := find_live_stored_iff.mp ⟨hr, hlive⟩
    exact absurd h hkept

end Masks

namespace Sample

/-- The same, where secrets are recorded as they are. -/
def candid : Env := { careful with config := { config with sensitivePolicy := .store } }

/-- A card number that was recorded while secrets were recorded as they are keeps its preview
    and its place in the search index when it is copied again once they are masked. -/
theorem card_number_stays_readable :
    let before := stored candid (copied (utf8 "4111111111111111")) fresh
    let after := stored careful (copied (utf8 "4111111111111111")) before
    careful.config.sensitivePolicy = .mask ∧
    secretIn careful (copied (utf8 "4111111111111111")) = some "card number" ∧
    (after.db.entries.find (keyOf careful (copied (utf8 "4111111111111111")))).map
      (fun r => (r.cols.deleted, (Database.rowToEntry after.dbCipher r).preview))
        = some (false, "4111111111111111") ∧
    after.db.entriesFts = [⟨1, "4111111111111111", none⟩] := by
  decide +kernel

/-- A card number that is new is masked. -/
theorem masked_iff_card :
    careful.config.sensitivePolicy = .mask ∧
    secretIn careful (copied (utf8 "4111111111111111")) = some "card number" ∧
      ∀ r, (stored careful (copied (utf8 "4111111111111111")) fresh).db.entries.find
          (keyOf careful (copied (utf8 "4111111111111111"))) = some r → r.cols.deleted = false →
        Masked (stored careful (copied (utf8 "4111111111111111")) fresh) "card number" r := by
  have hsecret : secretIn careful (copied (utf8 "4111111111111111")) = some "card number" := by
    decide +kernel
  refine ⟨rfl, hsecret, (masked_iff careful fresh _ _ rfl hsecret (fun _ => rfl)).mpr (.inl ?_)⟩
  intro r hr
  exact absurd hr.1 (by simp [fresh, Database.empty, Table.empty, Table.find, Keyed.lookup])

end Sample

end Panora.Panod
