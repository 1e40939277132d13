/-
  Panora.Panod.Advance — what every request does to the feed.

  Seen from the feed, a request does one of three things to an entry: nothing, a
  new change number, or it takes the entry away.  `Advanced` says so of a request
  and of the payloads the feed reads back; it is reflexive and transitive, so it is
  proved once for each way of writing and holds of every request made of them.

  Main results:
    * `advances_…` — every write and every request advances the feed;
    * `exec_wipeStorage` — what a panic wipe leaves of the storage;
    * `Intact.recordOf_ok` — with every blob readable, every row can be read;
    * `Advanced.offered_kept` — a row whose number is not new is offered as it was.
-/
import Panora.Panod.Feed
import Panora.Panod.Walk

namespace Panora.Panod

open Storage Lib Lib.Fallible Lib.Op Storage.BlobStore
open Storage.Database (Numbered SameRow Grown CleanedUp)

/-! ## §1. Blobs that can be read -/

/-- Every blob file opens, and every reference has its file. -/
structure Intact (d : Daemon) : Prop where
  opens : ∀ f ∈ d.blobs.files, ∃ data, d.blobs.get d.blobCipher f.name = .ok data
  there : ∀ b ∈ d.db.entryBlobs, (d.blobs.file b.blobRef).isSome = true

/-- The formats of an entry are what they were, and those whose files are there are in
    the same files under the same key. -/
structure SameFormats (d d' : Daemon) (id : Nat) : Prop where
  formats : formatsOf d'.db id = formatsOf d.db id
  cipher : d'.blobCipher = d.blobCipher
  files : ∀ b ∈ formatsOf d.db id, ∀ f, d.blobs.file b.blobRef = some f →
    d'.blobs.file b.blobRef = some f

variable {d d' d'' : Daemon} {db : Database} {id : Nat} {touched : Nat → Prop}

theorem SameFormats.refl (d : Daemon) (id : Nat) : SameFormats d d id :=
  ⟨rfl, rfl, fun _ _ _ hf => hf⟩

theorem SameFormats.trans (h : SameFormats d d' id) (h' : SameFormats d' d'' id) :
    SameFormats d d'' id where
  formats := h'.formats.trans h.formats
  cipher := h'.cipher.trans h.cipher
  files b hb f hf := h'.files b (by rw [h.formats]; exact hb) f (h.files b hb f hf)

/-! ## §2. Advancing -/

/-- What writing does, seen from the feed: the counter only grows, the numbers stay in
    order, blobs stay readable, and a row whose number is not new was there, with the
    same state and, unless the entry is one of those touched, the same payloads. -/
structure Advanced (touched : Nat → Prop) (d d' : Daemon) : Prop where
  counter : d.db.changeSeq ≤ d'.db.changeSeq
  numbered : Numbered d.db → Numbered d'.db
  intact : Intact d → Intact d'
  kept : ∀ r' ∈ d'.db.entries.rows, r'.cols.changeSeq ≤ d.db.changeSeq →
    ∃ r ∈ d.db.entries.rows, SameRow r r' ∧
      (r'.cols.deleted = false → ¬ touched r.id → SameFormats d d' r.id)

theorem Advanced.refl (d : Daemon) : Advanced touched d d where
  counter := le_refl _
  numbered := id
  intact := id
  kept r' hr' _ := ⟨r', hr', SameRow.refl r', fun _ _ => SameFormats.refl d r'.id⟩

theorem Advanced.trans (h : Advanced touched d d') (h' : Advanced touched d' d'') :
    Advanced touched d d'' where
  counter := le_trans h.counter h'.counter
  numbered hnum := h'.numbered (h.numbered hnum)
  intact hint := h'.intact (h.intact hint)
  kept r'' hr'' hle := by
    obtain ⟨r', hr', hsame', hformats'⟩ := h'.kept r'' hr'' (le_trans hle h.counter)
    obtain ⟨r, hr, hsame, hformats⟩ :=
      h.kept r' hr' (by rw [← hsame'.cols.changeSeq]; exact hle)
    refine ⟨r, hr, hsame.trans hsame', fun hdel hfree => ?_⟩
    have hdel' : r'.cols.deleted = false := by
      rw [← hsame'.cols.deleted]
      exact hdel
    have hid : r'.id = r.id := hsame.id
    exact (hformats hdel' hfree).trans (hid ▸ hformats' hdel (hid ▸ hfree))

/-- Fewer entries touched says more. -/
theorem Advanced.mono {touched' : Nat → Prop} (h : Advanced touched d d')
    (hsub : ∀ id, touched id → touched' id) : Advanced touched' d d' where
  counter := h.counter
  numbered := h.numbered
  intact := h.intact
  kept r' hr' hle := by
    obtain ⟨r, hr, hsame, hformats⟩ := h.kept r' hr' hle
    exact ⟨r, hr, hsame, fun hdel hfree => hformats hdel (fun ht => hfree (hsub r.id ht))⟩

/-- A touched entry that takes a new number counts for nothing. -/
theorem Advanced.of_numbered (h : Advanced touched d d')
    (hnew : ∀ r' ∈ d'.db.entries.rows, touched r'.id → d.db.changeSeq < r'.cols.changeSeq) :
    Advanced (fun _ => False) d d' where
  counter := h.counter
  numbered := h.numbered
  intact := h.intact
  kept r' hr' hle := by
    obtain ⟨r, hr, hsame, hformats⟩ := h.kept r' hr' hle
    refine ⟨r, hr, hsame, fun hdel _ => hformats hdel (fun ht => ?_)⟩
    have := hnew r' hr' (by rw [hsame.id]; exact ht)
    omega

variable (env : Env) (record : SyncRecord) (data : ClipboardData) (fresh : Key) {db' : Database}

/-- A statement that leaves the blobs and their references alone. -/
theorem advanced_of_grown (hgrown : Grown d.db db')
    (hblobs : db'.entryBlobs = d.db.entryBlobs) : Advanced touched d { d with db := db' } where
  counter := hgrown.counter
  numbered := hgrown.numbered
  intact hint := ⟨hint.opens, fun b hb => hint.there b (by rw [← hblobs]; exact hb)⟩
  kept r' hr' hle := by
    obtain ⟨r, hr, hsame⟩ := hgrown.kept r' hr' hle
    refine ⟨r, hr, hsame, fun _ _ => ⟨formatsOf_congr ?_, rfl, fun _ _ _ hf => hf⟩⟩
    unfold Database.refsOf
    rw [hblobs]

/-- A clean-up, and the removal of the blobs it left without a reference. -/
theorem advanced_cleanUp {refs : List String} (hgrown : Grown d.db db')
    (hclean : CleanedUp d.db db') (horphans : ∀ ref ∈ refs, db'.orphaned ref = true) :
    Advanced touched d { d with db := db', blobs := refs.foldl removeOrWarn d.blobs } := by
  -- what is referred to is not removed
  have hfile : ∀ b ∈ db'.entryBlobs,
      (refs.foldl removeOrWarn d.blobs).file b.blobRef = d.blobs.file b.blobRef := by
    intro b hb
    refine file_removeAll (fun hmem => ?_) d.blobs
    have := List.all_eq_true.mp (horphans b.blobRef hmem) b hb
    simp at this
  refine ⟨hgrown.counter, hgrown.numbered, fun hint => ⟨fun f hf => ?_, fun b hb => ?_⟩,
    fun r' hr' hle => ?_⟩
  · obtain ⟨hmem, hsame⟩ := file_of_removeAll refs d.blobs hf
    obtain ⟨data, hdata⟩ := hint.opens f hmem
    exact ⟨data, (get_congr d.blobCipher hsame).trans hdata⟩
  · rw [hfile b hb]
    exact hint.there b (hclean.refs b hb)
  · obtain ⟨r, hr, hsame⟩ := hgrown.kept r' hr' hle
    refine ⟨r, hr, hsame, fun hdel _ => ?_⟩
    have hlive : r.cols.deleted = false := by
      rw [← hsame.cols.deleted]
      exact hdel
    have hformats := formatsOf_congr (hclean.live r hr hlive).2
    refine ⟨hformats, rfl, fun b hb f hf => (hfile b ?_).trans hf⟩
    rw [← hformats] at hb
    exact (mem_formatsOf.mp hb).1

/-! ## §3. Every way of writing -/

section Writes

variable {α : Type}

/-- Keeping the feed in order, for an operation. -/
abbrev Advances (touched : Nat → Prop) (x : Request α) : Prop := Keeps (Advanced touched) x

theorem advances_bind {β : Type} {x : Request α} {f : α → Request β} (hx : Advances touched x)
    (hf : ∀ a, Advances touched (f a)) : Advances touched (x >>= f) :=
  keeps_bind (fun _ _ _ h h' => h.trans h') hx hf

theorem advances_pure (a : α) : Advances touched (pure a : Request α) :=
  keeps_pure Advanced.refl a

theorem Advances.preserves {x : Request α} (h : Advances touched x) (d0 : Daemon) :
    Preserves (Advanced touched d0) x := Keeps.preserves (fun _ _ _ h h' => h.trans h') h d0

theorem advances_onDb {f : Database → Except Error (α × Database)}
    (h : ∀ db a db', f db = .ok (a, db') → Grown db db' ∧ db'.entryBlobs = db.entryBlobs) :
    Advances touched (onDb f) := by
  refine keeps_onDb Advanced.refl fun d a db' hrun => ?_
  obtain ⟨hgrown, hblobs⟩ := h d.db a db' hrun
  exact advanced_of_grown hgrown hblobs

theorem advances_changeDb {f : Database → Except Error Database}
    (h : ∀ db db', f db = .ok db' → Grown db db' ∧ db'.entryBlobs = db.entryBlobs) :
    Advances touched (changeDb f) := by
  refine keeps_changeDb Advanced.refl fun d db' hrun => ?_
  obtain ⟨hgrown, hblobs⟩ := h d.db db' hrun
  exact advanced_of_grown hgrown hblobs

theorem advances_updateDb {f : Database → α × Database}
    (h : ∀ db, Grown db (f db).2 ∧ (f db).2.entryBlobs = db.entryBlobs) :
    Advances touched (updateDb f) :=
  keeps_step (fun d => advanced_of_grown (h d.db).1 (h d.db).2)

end Writes

/-! ## §4. Blobs -/

theorem advances_putBlob (data : Bytes) : Advances touched (putBlob env data) := by
  refine keeps_attempt_map Advanced.refl fun d ⟨ref, blobs⟩ hput => ?_
  obtain ⟨-, hfiles, -, hnew⟩ := put_cases hput
  refine ⟨le_refl _, id, fun hint => ⟨fun f hf => ?_, fun b hb => ?_⟩, fun r' hr' _ => ?_⟩
  · -- a file is one that was there, or the new one
    rcases hnew f hf with hold | ⟨rfl, hget⟩
    · obtain ⟨content, hcontent⟩ := hint.opens f hold
      have hfile := (Keyed.lookup_eq_some d.blobs.namesNodup).mpr ⟨hold, rfl⟩
      exact ⟨content, (get_congr d.blobCipher
        ((hfiles f.name f hfile).trans hfile.symm)).trans hcontent⟩
    · exact ⟨data, hget⟩
  · obtain ⟨f, hf⟩ := Option.isSome_iff_exists.mp (hint.there b hb)
    show (blobs.file b.blobRef).isSome = true
    rw [hfiles _ f hf]
    rfl
  · exact ⟨r', hr', SameRow.refl r', fun _ _ => ⟨rfl, rfl, fun b _ f hf => hfiles _ f hf⟩⟩

/-- Content that was put is there. -/
theorem file_putBlob {env : Env} {data : Bytes} {ref : String}
    (h : exec (putBlob env data) d = (.ok ref, d')) : (d'.blobs.file ref).isSome = true := by
  unfold putBlob at h
  cases hput : d.blobs.put env.hash d.blobCipher data with
  | error e =>
    rw [exec_attempt_error (by rw [hput]; rfl)] at h
    cases h
  | ok r =>
    obtain ⟨ref', blobs⟩ := r
    rw [exec_attempt_ok (by rw [hput]; rfl)] at h
    cases h
    exact (put_cases hput).2.2.1

/-- Attaching a format touches that entry, unless it is the thumbnail. -/
theorem advanced_attachBlob {mime ref : String}
    (h : d.db.attachBlob id mime ref = .ok db') (hfile : (d.blobs.file ref).isSome = true) :
    Advanced (fun i => i = id ∧ mime ≠ thumbnailMime) d { d with db := db' } := by
  unfold Database.attachBlob at h
  split at h
  next => cases h
  next r0 hget =>
    cases h
    refine ⟨le_refl _, fun hnum => ⟨hnum.nodup, hnum.pos, hnum.le⟩,
      fun hint => ⟨hint.opens, fun b hb => ?_⟩, fun r' hr' _ => ?_⟩
    · rcases List.mem_append.mp hb with hb | hb
      · exact hint.there b (List.mem_filter.mp hb).1
      · rw [List.mem_singleton.mp hb]
        exact hfile
    · refine ⟨r', hr', SameRow.refl r', fun _ hfree => ⟨?_, rfl, fun _ _ _ hf => hf⟩⟩
      have hbeside : (⟨id, mime, ref⟩ : BlobRow).entryId ≠ r'.id ∨ mime = thumbnailMime := by
        by_cases hmime : mime = thumbnailMime
        · exact Or.inr hmime
        · exact Or.inl (fun hid => hfree ⟨hid.symm, hmime⟩)
      exact formatsOf_beside d.db hbeside

/-- Storing a format touches that entry, unless it is the thumbnail. -/
theorem advances_storeBlob (id : Nat) (mime : String) (data : Bytes) :
    Advances (fun i => i = id ∧ mime ≠ thumbnailMime) (storeBlob env id mime data) := by
  intro d
  have hput : Advanced (fun i => i = id ∧ mime ≠ thumbnailMime) d _ := advances_putBlob env data d
  unfold storeBlob
  rw [exec_bind]
  cases hrun : exec (putBlob env data) d with
  | mk result d1 =>
    rw [hrun] at hput
    cases result with
    | error e => exact hput
    | ok ref =>
      refine hput.trans (?_ : Advanced _ d1 (Op.exec (changeDb _) d1).2)
      cases hattach : d1.db.attachBlob id mime ref with
      | error e =>
        rw [exec_changeDb_error hattach]
        exact Advanced.refl d1
      | ok db' =>
        rw [exec_changeDb_ok hattach]
        exact advanced_attachBlob hattach (file_putBlob hrun)

/-! ## §5. Retention -/

theorem advances_purgeTombstonedBefore (before : Int) :
    Advances touched (purgeTombstonedBefore before) := by
  intro d
  exact advanced_cleanUp (Database.grown_keepOnly
      (Database.entries_purgeTombstones d.db before) (Database.cleanedUp_purge _ _).changeSeq)
    (Database.cleanedUp_purge _ _) (Database.orphaned_purge _ _)

theorem advances_stripDeleted : Advances touched (stripDeleted env) := by
  unfold stripDeleted
  split
  · intro d
    exact advanced_cleanUp (Database.grown_of_eq rfl rfl) (Database.cleanedUp_stripTombstones _ _)
      (Database.orphaned_stripTombstones _ _)
  · exact advances_pure ()

/-! ## §6. Captures -/

theorem advances_markSecret (id : Nat) : Advances touched (markSecret env data id) := by
  unfold markSecret
  split
  · exact advances_updateDb (fun db => ⟨Database.grown_markSensitive db id, rfl⟩)
  · exact advances_pure ()

theorem advances_indexCapture (id : Nat) : Advances touched (indexCapture env data id) := by
  unfold indexCapture
  split
  · split
    · exact advances_updateDb (fun db => ⟨Database.grown_of_eq rfl rfl, rfl⟩)
    · exact advances_pure ()
  · exact advances_pure ()

theorem advances_storeBlobs (id : Nat) (payloads : List MimePayload) :
    Advances (fun i => i = id) (payloads.forM (fun p => storeBlob env id p.mime p.data)) := by
  induction payloads with
  | nil => exact advances_pure ()
  | cons p payloads ih =>
    rw [List.forM_eq_forM, List.forM_cons]
    exact advances_bind (fun d => (advances_storeBlob env id p.mime p.data d).mono
      (fun i hi => hi.1)) (fun _ => ih)

theorem advances_thumbnail (id : Nat) (png : Bytes) :
    Advances touched (storeBlob env id thumbnailMime png) :=
  fun d => (advances_storeBlob env id thumbnailMime png d).mono (fun _ hi => absurd rfl hi.2)

theorem advances_tracked (id : Nat) (f : Cols → Cols) :
    Advances touched (changeDb (fun db => db.changing id (db.trackedUpdate id f))) := by
  refine advances_changeDb (fun db db' h => ?_)
  rw [Database.changing_eq h]
  exact ⟨Database.grown_trackedUpdate db id f, Database.entryBlobs_trackedUpdate _ _ _⟩

theorem advances_tickLamport : Advances touched (updateDb Database.tickLamport) :=
  advances_updateDb (fun _ => ⟨Database.grown_of_eq rfl rfl, rfl⟩)

theorem changeSeq_capturedRow (d : Daemon) :
    (capturedRow env data d).cols.changeSeq = (d.db.tickLamport.2.upsertEntry d.dbCipher
      (newEntry env data d.db.tickLamport.1)).2.changeSeq + 1 := by
  unfold capturedRow
  by_cases hsecret : (secretIn env data).isSome = true
  · simp only [if_pos hsecret]
    rfl
  · simp only [if_neg hsecret]
    rfl

/-- What follows the row of a capture touches that row alone. -/
theorem advances_afterUpsert (id : Nat) (lamport : Int) :
    Advances (fun i => i = id) (do
      changeDb (fun db => db.stamp id lamport env.deviceId)
      markSecret env data id
      indexCapture env data id
      data.payloads.forM (fun p => storeBlob env id p.mime p.data)
      pure id) :=
  advances_bind (advances_tracked id _) fun _ =>
    advances_bind (advances_markSecret env data id) fun _ =>
      advances_bind (advances_indexCapture env data id) fun _ =>
        advances_bind (advances_storeBlobs env id data.payloads) fun _ => advances_pure id

/-- **A capture** gives its row a new number before it gives it new payloads. -/
theorem advances_storeRow : Advances touched (storeRow env data) := by
  intro d
  obtain ⟨d', hrun, hwrote, -⟩ := exec_storeRow env data d
  obtain ⟨hgrown, hblobs⟩ := Database.upsertEntry_eq d.db.tickLamport.2 d.dbCipher
    (newEntry env data d.db.tickLamport.1)
  have hid : (d.db.tickLamport.2.upsertEntry d.dbCipher
      (newEntry env data d.db.tickLamport.1)).1 = (capturedRow env data d).id :=
    (Database.wrote_upsertEntry _ _ _).1
  -- up to the row nothing is touched, after it only the row is
  have hbut : Advanced (fun i => i = (capturedRow env data d).id) d d' := by
    have htick : Grown d.db d.db.tickLamport.2 := Database.grown_of_eq rfl rfl
    have hrow : Advanced (fun i => i = (capturedRow env data d).id) d { d with
        db := (d.db.tickLamport.2.upsertEntry d.dbCipher (newEntry env data d.db.tickLamport.1)).2 } :=
      advanced_of_grown (htick.trans hgrown) hblobs
    have hrest := advances_afterUpsert env data (capturedRow env data d).id d.db.tickLamport.1
      { d with db := (d.db.tickLamport.2.upsertEntry d.dbCipher
        (newEntry env data d.db.tickLamport.1)).2 }
    unfold storeRow at hrun
    rw [exec_bind_ok (exec_updateDb _ d), exec_bind_ok (exec_step _ _)] at hrun
    simp only [hid] at hrun
    rw [hrun] at hrest
    exact hrow.trans hrest
  rw [hrun]
  refine (hbut.of_numbered (fun r' hr' hr'id => ?_)).mono (fun _ h => h.elim)
  have hrow := (Table.find_eq_some.mp hwrote.row).1
  rw [Table.eq_of_id_eq hr' hrow hr'id, changeSeq_capturedRow]
  have hcounter : d.db.changeSeq ≤ _ := hgrown.counter
  omega

/-! ## §7. Requests -/

theorem advances_tombstone (id : Nat) (now : Int) :
    Advances touched (onDb (fun db => db.tombstone id now)) :=
  advances_onDb (fun _ _ _ h => Database.tombstone_eq h)

theorem advances_restoreRow (id : Nat) : Advances touched (restoreRow id) := by
  refine keeps_attempt_map Advanced.refl fun d db hrestore => ?_
  obtain ⟨hgrown, hblobs⟩ := Database.restore_eq hrestore
  exact advanced_of_grown hgrown hblobs

theorem advances_setTimes (id : Nat) (createdAt lastSeenAt : Int) :
    Advances touched (changeDb (fun db => db.setTimes id createdAt lastSeenAt)) := by
  refine advances_changeDb (fun db db' h => ?_)
  rw [Database.changing_eq h]
  exact ⟨Database.grown_plainUpdate db id fun c => Database.sameState_timed c _ _, rfl⟩

/-- **Every statement of a request keeps the feed in order.** -/
theorem outlasts_advanced (d0 : Daemon) :
    Outlasts env (Advanced touched d0) (fun _ => True) (fun _ => True) where
  evictable _ _ _ := trivial
  tombstone _ now := (advances_tombstone _ now).preserves d0
  strip := (advances_stripDeleted env).preserves d0
  purge := (advances_purgeTombstonedBefore _).preserves d0
  tracked _ f := (advances_tracked _ f).preserves d0
  times _ createdAt lastSeenAt := (advances_setTimes _ createdAt lastSeenAt).preserves d0
  thumbnail _ png := (advances_thumbnail env _ png).preserves d0
  clock h _ := h.trans (advanced_of_grown (Database.grown_of_eq rfl rfl) rfl)
  named _ _ _ _ := trivial
  row _ := (advances_storeRow env _).preserves d0
  lifted _ := (advances_restoreRow _).preserves d0

theorem advances_collectGarbage : Advances touched (collectGarbage env) :=
  keeps_of_maintains Advanced.refl fun d => (outlasts_advanced env d).collectGarbage

theorem advances_storeRest (id : Nat) (thumbnail : Option Bytes) :
    Advances touched (storeRest env id thumbnail) :=
  keeps_of_maintains Advanced.refl fun d =>
    (outlasts_advanced env d).storeRest (i := id) trivial thumbnail

theorem advances_store : Advances touched (store env data) :=
  advances_bind (advances_storeRow env data) fun id => advances_storeRest env id _

/-- **Applying a record.** -/
theorem advances_applyRecord (sent : SyncRecord) : Advances touched (applyRecord env sent) :=
  keeps_of_maintains Advanced.refl fun d =>
    (outlasts_advanced env d).applyRecord trivial

/-! ## §8. The panic wipe -/

/-- **A wipe of the storage** succeeds, and leaves an empty history and an empty blob
    directory under the fresh key. -/
theorem exec_wipeStorage (d : Daemon) :
    ∃ blobs : BlobStore, blobs.files = d.blobs.files.filter (fun f => !validHash f.name) ∧
      exec (wipeStorage env fresh) d = (.ok (), {
        db := { d.db.wipe with keyFingerprint := some (env.hash.fingerprint fresh) }
        dbCipher := fresh, blobs := blobs, blobCipher := fresh }) := by
  obtain ⟨blobs, hwipe, hfiles⟩ := wipe_ok d.blobs
  refine ⟨blobs, hfiles, ?_⟩
  have hblobs : exec wipeBlobs { d with db := d.db.wipe }
      = (.ok (), { d with db := d.db.wipe, blobs := blobs }) :=
    exec_attempt_ok (by simp only [hwipe]; rfl)
  -- there is no row left to reseal
  have hempty : d.db.wipe.entries.mapCols (Database.resealedCols d.dbCipher fresh)
      = d.db.wipe.entries := rfl
  have hrekey : exec (rekeyDb env fresh) { d with db := d.db.wipe, blobs := blobs }
      = (.ok (), { d with
          db := { d.db.wipe with keyFingerprint := some (env.hash.fingerprint fresh) }
          dbCipher := fresh, blobs := blobs }) := by
    refine exec_attempt_ok ?_
    dsimp only
    rw [Database.rekey, if_pos (Database.resealable_wipe d.db d.dbCipher fresh)]
    rfl
  -- and no file
  have hlist : blobs.list = [] := by
    unfold list
    rw [hfiles, List.filter_map, List.map_eq_nil_iff, List.filter_filter]
    refine List.filter_eq_nil_iff.mpr (fun f _ h => ?_)
    simp at h
  unfold wipeStorage
  rw [exec_bind_ok (exec_updateDb _ d), exec_bind_ok hblobs, exec_bind_ok hrekey]
  unfold rekeyBlobs
  rw [exec_bind_ok (exec_reads _ _)]
  dsimp only
  rw [hlist]
  rfl

theorem advances_wipeStorage : Advances touched (wipeStorage env fresh) := by
  intro d
  obtain ⟨blobs, hfiles, hrun⟩ := exec_wipeStorage env fresh d
  rw [hrun]
  have hnumbered : Numbered d.db → Numbered d.db.wipe := (Database.grown_wipe d.db).numbered
  refine ⟨le_refl _,
    fun hnum => ⟨(hnumbered hnum).nodup, (hnumbered hnum).pos, (hnumbered hnum).le⟩,
    fun hint => ⟨fun f hf => ?_, fun b hb => ?_⟩, fun r' hr' _ => ?_⟩
  · -- a file that opens has a name the wipe knows
    rw [hfiles, List.mem_filter] at hf
    obtain ⟨data, hget⟩ := hint.opens f hf.1
    have hvalid : validHash f.name = true := by
      unfold BlobStore.get at hget
      split at hget
      · cases hget
      · simp_all
    rw [hvalid] at hf
    exact absurd hf.2 (by simp)
  · exact absurd hb (by simp [Database.wipe])
  · exact absurd hr' (by simp [Database.wipe, Table.empty])

/-! ## §9. What the feed reads back -/

section ReadBack

variable {env : Env} {scope : SyncScope} {r r' : EntryRow}

/-- The payloads of a live row are its formats, read back. -/
theorem loadPayloads_eq (hr : r ∈ d.db.entries.rows) (hlive : r.cols.deleted = false) :
    loadPayloads d r.id = ((formatsOf d.db r.id).mapM (loadFormat d)).map
      (fun out => out.insertionSort (fun a b => mimeRank a.mime ≤ mimeRank b.mime)) := by
  have hget : d.db.get d.dbCipher r.id = .ok (Database.rowToEntry d.dbCipher r) := by
    rw [Database.get, Table.get_eq_some.mpr ⟨hr, rfl⟩]
  have hentry : (Database.rowToEntry d.dbCipher r).deleted = false := hlive
  unfold loadPayloads
  rw [hget]
  show (if (Database.rowToEntry d.dbCipher r).deleted then _ else _) = _
  rw [hentry]
  rfl

/-- With every blob readable, every row has its payloads. -/
theorem Intact.payloadsOf_ok (h : Intact d) (hr : r ∈ d.db.entries.rows) :
    ∃ payloads, payloadsOf d r = .ok payloads := by
  unfold payloadsOf
  by_cases hdel : r.cols.deleted = true
  · exact ⟨[], if_pos hdel⟩
  · rw [if_neg hdel, loadPayloads_eq hr (by simpa using hdel)]
    have hformats : ∀ b ∈ formatsOf d.db r.id, ∃ p, loadFormat d b = .ok p := by
      intro b hb
      obtain ⟨f, hf⟩ := Option.isSome_iff_exists.mp (h.there b (mem_formatsOf.mp hb).1)
      obtain ⟨hmem, hname⟩ := (Keyed.lookup_eq_some d.blobs.namesNodup).mp hf
      obtain ⟨data, hdata⟩ := h.opens f hmem
      rw [hname] at hdata
      exact ⟨⟨b.mime, data⟩, by rw [loadFormat, hdata]; rfl⟩
    obtain ⟨out, hout⟩ := mapM_ok_iff.mpr hformats
    rw [hout]
    exact ⟨_, rfl⟩

/-- **With every blob readable, every row can be read.** -/
theorem Intact.recordOf_ok (h : Intact d) (env : Env) (scope : SyncScope)
    (hr : r ∈ d.db.entries.rows) : ∃ record, recordOf env d scope r = .ok record := by
  obtain ⟨payloads, hpayloads⟩ := h.payloadsOf_ok hr
  unfold recordOf
  split
  · rw [hpayloads]
    exact ⟨_, rfl⟩
  · exact ⟨none, rfl⟩

/-- A live row that kept its formats keeps the payloads that could be read. -/
theorem loadPayloads_of_same (hr : r ∈ d.db.entries.rows) (hlive : r.cols.deleted = false)
    (hr' : r' ∈ d'.db.entries.rows) (hlive' : r'.cols.deleted = false) (hid : r'.id = r.id)
    (hformats : SameFormats d d' r.id) {payloads : List MimePayload}
    (hread : loadPayloads d r.id = .ok payloads) : loadPayloads d' r'.id = .ok payloads := by
  rw [loadPayloads_eq hr hlive] at hread
  rw [loadPayloads_eq hr' hlive', hid, hformats.formats, ← hread]
  obtain ⟨out, hout, -⟩ := map_ok_iff.mp hread
  refine congrArg _ (mapM_congr (fun b hb => ?_))
  -- a format that was read is in a file, and the file is the same
  obtain ⟨p, hp⟩ := mapM_ok_iff.mp ⟨out, hout⟩ b hb
  obtain ⟨data, hget, -⟩ := map_ok_iff.mp hp
  obtain ⟨f, hfile⟩ := file_of_get hget
  unfold loadFormat
  rw [hformats.cipher,
    get_congr d.blobCipher ((hformats.files b hb f hfile).trans hfile.symm)]

/-- A row that kept its number and its formats keeps the payloads that could be read. -/
theorem payloadsOf_of_same (hr : r ∈ d.db.entries.rows) (hr' : r' ∈ d'.db.entries.rows)
    (hsame : SameRow r r') (hformats : r'.cols.deleted = false → SameFormats d d' r.id)
    {payloads : List MimePayload} (hread : payloadsOf d r = .ok payloads) :
    payloadsOf d' r' = .ok payloads := by
  unfold payloadsOf at hread ⊢
  rw [hsame.cols.deleted]
  by_cases hdel : r.cols.deleted = true
  · rw [if_pos hdel] at hread ⊢
    exact hread
  · rw [if_neg hdel] at hread ⊢
    have hlive : r.cols.deleted = false := by simpa using hdel
    have hlive' : r'.cols.deleted = false := hsame.cols.deleted.trans hlive
    exact loadPayloads_of_same hr hlive hr' hlive' hsame.id (hformats hlive') hread

/-- **A row whose number is not new** was there, and what could be read of it still can. -/
theorem Advanced.payloads_kept (h : Advanced (fun _ => False) d d')
    (hr' : r' ∈ d'.db.entries.rows) (hle : r'.cols.changeSeq ≤ d.db.changeSeq) :
    ∃ r ∈ d.db.entries.rows, SameRow r r' ∧
      ∀ payloads, payloadsOf d r = .ok payloads → payloadsOf d' r' = .ok payloads := by
  obtain ⟨r, hr, hsame, hformats⟩ := h.kept r' hr' hle
  exact ⟨r, hr, hsame, fun _ hread =>
    payloadsOf_of_same hr hr' hsame (fun hdel => hformats hdel id) hread⟩

/-- **A row whose number is not new is offered as it was.** -/
theorem Advanced.offered_kept (h : Advanced (fun _ => False) d d') (hint : Intact d)
    (hr' : r' ∈ d'.db.entries.rows) (hle : r'.cols.changeSeq ≤ d.db.changeSeq) :
    ∃ r ∈ d.db.entries.rows, SameRow r r' ∧ payloadsOf d' r' = payloadsOf d r := by
  obtain ⟨r, hr, hsame, hpayloads⟩ := h.payloads_kept hr' hle
  obtain ⟨payloads, hread⟩ := hint.payloadsOf_ok hr
  exact ⟨r, hr, hsame, (hpayloads payloads hread).trans hread.symm⟩

end ReadBack

end Panora.Panod
