/-
  Panora.Panod.Picture — which entry a thumbnail was rendered from.

  `Daemon::store` and `Daemon::thumbnail_or_full` read a picture, await its rendering and attach
  the result by the number of the row.  Other requests run during the await.  A row that is
  purged frees its number, and the next new entry takes the highest free one.

  Main results:
    * `rendering_of_begin` — when a rendering begins its row is that of the entry it was read
      from;
    * `Begun.fewer_of_writing`, `Rendering.fewer_finish` — a part of a request attaches
      references first and then only takes away;
    * `thumbnails_belong_iff` — along a run every thumbnail is of its own entry exactly when no
      rendering is done while the number of its row is another entry's, and nothing is stored
      under the thumbnails' own name.
-/
import Panora.Lib.Trace
import Panora.Panod.Succession

namespace Panora.Panod

open Storage Lib Lib.Op Lib.Table Storage.Database

/-! ## §1. Requests that render -/

/-- A capture up to its await: the row and the picture to render for it, or nothing where the
    capture is done. -/
def beginStore (env : Env) (data : ClipboardData) : Request (Option (Nat × Bytes)) := do
  let id ← storeRow env data
  match imageOf env data with
  | some image => pure (some (id, image))
  | none => do
    let _ ← storeRest env id none
    pure none

/-- The stored thumbnail of an image entry, if one exists. -/
def loadThumbnail (d : Daemon) (id : Nat) : Except Error (Option MimePayload) :=
  match (d.db.blobsOf id).find? (fun b => b.mime = thumbnailMime) with
  | some b => (loadFormat d b).map some
  | none => .ok none

/-- How far the popup's request has come. -/
inductive Drawn where
  | answered (payloads : List MimePayload)
  /-- Waiting for the thumbnail of this picture; the payloads are the answer without one. -/
  | rendering (image : Bytes) (full : List MimePayload)

/-- What the popup draws for a row, up to the await. -/
def thumbnailOrFull (d : Daemon) (id : Nat) : Except Error Drawn :=
  (d.db.get d.dbCipher id).bind fun entry =>
    if entry.deleted then .error (.notFound id)
    else if entry.kind ≠ .image then (loadPayloads d id).map .answered
    else (loadThumbnail d id).bind fun stored =>
      match stored with
      | some thumbnail => .ok (.answered [thumbnail])
      | none => (loadPayloads d id).map fun full =>
        match full.find? (fun p => p.mime.startsWith "image/") with
        | some image => .rendering image.data full
        | none => .answered full

/-- What follows the await of the popup's request. -/
def finishDrawing (env : Env) (id : Nat) (full : List MimePayload) :
    Option Bytes → Request (List MimePayload)
  | some png => do
    storeBlob env id thumbnailMime png
    pure [⟨thumbnailMime, png⟩]
  | none => pure full

/-- Whose rendering it is. -/
inductive Caller where
  | capture
  /-- A record from a peer, as it was clamped before the await. -/
  | record (record : SyncRecord)
  | popup (full : List MimePayload)

/-- A rendering that is awaited: the row its result goes to, and the entry it was read from. -/
structure Rendering where
  env : Env
  id : Nat
  key : EntryKey
  image : Bytes
  caller : Caller

/-- What follows the await. -/
def Rendering.finish (t : Rendering) : Request Unit :=
  match t.caller with
  | .capture => do let _ ← storeRest t.env t.id (t.env.content.renderThumbnail t.image)
  | .record record => do
    let _ ← finishNew t.env record t.id (t.env.content.renderThumbnail t.image)
  | .popup full => do
    let _ ← finishDrawing t.env t.id full (t.env.content.renderThumbnail t.image)

/-- What starts. -/
inductive Begun where
  | copy (env : Env) (data : ClipboardData)
  | receive (env : Env) (sent : SyncRecord)
  | popup (env : Env) (id : Nat)
  | other (s : Segment) (h : s.attaches = false)

/-- The popup's request up to its await; the entry is that of the row. -/
def beginDrawing (env : Env) (id : Nat) : Request (Option Rendering) :=
  attempt (fun d => (thumbnailOrFull d id).map fun drawn =>
    match drawn with
    | .answered _ => (none, d)
    | .rendering image full =>
      ((d.db.entries.get id).map fun r => ⟨env, id, r.key, image, .popup full⟩, d))

/-- What it does up to its await, and what it then waits for. -/
def Begun.begin : Begun → Request (Option Rendering)
  | .copy env data => do
    let waits ← beginStore env data
    pure (waits.map fun w => ⟨env, w.1, keyOf env data, w.2, .capture⟩)
  | .receive env sent => do
    let stage ← beginRecord env sent
    match stage with
    | .finished _ => pure none
    | .waiting id image =>
      pure (some ⟨env, id, sent.key, image, .record (clampTimes env sent)⟩)
  | .popup env id => beginDrawing env id
  | .other s _ => do
    s.request
    pure none

/-! ## §2. Runs -/

/-- A capture that is written: its data, and the daemon it is written to. -/
structure Writing where
  env : Env
  data : ClipboardData
  daemon : Daemon

/-- The row it is written to. -/
def Writing.row (w : Writing) : EntryRow := capturedRow w.env w.data w.daemon

/-- Something in it goes by the thumbnails' own name. -/
def Writing.NamesThumbnail (w : Writing) : Prop := ∃ p ∈ w.data.payloads, p.mime = thumbnailMime

instance (w : Writing) : Decidable w.NamesThumbnail := inferInstanceAs (Decidable (∃ p ∈ _, _))

/-- The capture that is written up to the await: a record is stored like a capture where it is
    of an entry that is not live here. -/
def Begun.writing (d : Daemon) : Begun → Option Writing
  | .copy env data => some ⟨env, data, d⟩
  | .receive env sent =>
    if Anew env sent d then
      some ⟨env, captureOf (clampTimes env sent), observed (clampTimes env sent) d⟩
    else none
  | .popup .. => none
  | .other .. => none

/-- The thumbnails that are attached. -/
def thumbnails (db : Database) : List BlobRow :=
  db.entryBlobs.filter (fun b => b.mime = thumbnailMime)

/-- The daemon and the renderings that are awaited.  Beside them, for the record: the daemon
    when the last turn had attached what it attaches and not yet taken anything away, and for
    each row the entry whose picture was rendered for the thumbnail attached to it last, if a
    picture was. -/
structure Studio where
  daemon : Daemon
  waiting : List Rendering
  midway : Daemon
  source : Nat → Option EntryKey

/-- One turn: a request runs up to its await, or a rendering that is awaited is done. -/
inductive StudioTurn where
  | start (what : Begun)
  | rendered (n : Nat)

namespace Studio

/-- The daemon after a turn, with what is waited for then. -/
def turn (s : Studio) : StudioTurn → Daemon × List Rendering
  | .start what =>
    ((exec what.begin s.daemon).2,
      s.waiting ++ ((exec what.begin s.daemon).1.toOption.bind id).toList)
  | .rendered n =>
    match s.waiting[n]? with
    | none => (s.daemon, s.waiting)
    | some t => ((exec t.finish s.daemon).2, s.waiting.eraseIdx n)

/-- The daemon when a turn has attached what it attaches, and where the thumbnails come from
    then: a payload under the thumbnails' name was not rendered from anything. -/
def attaches (s : Studio) : StudioTurn → Daemon × (Nat → Option EntryKey)
  | .start what =>
    match what.writing s.daemon with
    | none => (s.daemon, s.source)
    | some w =>
      ((exec (storeRow w.env w.data) w.daemon).2,
        if w.NamesThumbnail then Function.update s.source w.row.id none else s.source)
  | .rendered n =>
    match s.waiting[n]? with
    | none => (s.daemon, s.source)
    | some t =>
      ((exec (storeThumbnail t.env t.id (t.env.content.renderThumbnail t.image)) s.daemon).2,
        if (t.env.content.renderThumbnail t.image).isSome then
          Function.update s.source t.id (some t.key) else s.source)

def step (s : Studio) (e : StudioTurn) : Studio where
  daemon := (s.turn e).1
  waiting := (s.turn e).2
  midway := (s.attaches e).1
  source := (s.attaches e).2

/-- Every thumbnail was rendered from a picture of the entry it is attached to. -/
def BelongIn (source : Nat → Option EntryKey) (d : Daemon) : Prop :=
  ∀ b ∈ thumbnails d.db, ∀ r, d.db.entries.get b.entryId = some r → source b.entryId = some r.key

/-- At the end of the turn, and in its midst. -/
def Belong (s : Studio) : Prop := BelongIn s.source s.midway ∧ BelongIn s.source s.daemon

/-- A rendering is done when the number of its row is another entry's, or a capture is written
    that has a payload under the thumbnails' name. -/
def Strays (s : Studio) : StudioTurn → Prop
  | .start what => ∃ w, what.writing s.daemon = some w ∧ w.NamesThumbnail
  | .rendered n => ∃ t, s.waiting[n]? = some t ∧
      (t.env.content.renderThumbnail t.image).isSome = true ∧
      ∃ r, s.daemon.db.entries.get t.id = some r ∧ r.key ≠ t.key

/-- No history, and nothing waited for. -/
def start (key : Key) : Studio :=
  ⟨⟨empty, key, BlobStore.empty, key⟩, [], ⟨empty, key, BlobStore.empty, key⟩, fun _ => none⟩

end Studio

/-! ## §3. Up to an await, and after it -/

section Begun

variable {α β : Type} {d d' : Daemon} {t : Rendering} {b : Begun} {w : Writing}

/-- **When a rendering begins, its row is the row of the entry whose picture was read.** -/
theorem rendering_of_begin (h : exec b.begin d = (.ok (some t), d')) :
    ∃ r, d'.db.entries.get t.id = some r ∧ r.key = t.key := by
  cases b with
  | copy env data =>
    obtain ⟨waits, d1, hbegin, hpure⟩ := exec_bind_eq_ok.mp h
    obtain ⟨hsome, rfl⟩ := Prod.mk.inj hpure
    obtain ⟨⟨id, image⟩, rfl, rfl⟩ := Option.map_eq_some_iff.mp (Except.ok.inj hsome)
    obtain ⟨id', d2, hrow, hrest⟩ := exec_bind_eq_ok.mp hbegin
    obtain ⟨d3, hrow', hwrote, -⟩ := exec_storeRow env data d
    rw [hrow] at hrow'
    cases hrow'
    cases himage : imageOf env data with
    | none =>
      rw [himage] at hrest
      obtain ⟨entry, d3, -, hpure⟩ := exec_bind_eq_ok.mp hrest
      cases hpure
    | some image' =>
      rw [himage] at hrest
      cases hrest
      exact ⟨_, hwrote.get, (find_eq_some.mp hwrote.row).2⟩
  | receive env sent =>
    obtain ⟨stage, d1, hbegin, hpure⟩ := exec_bind_eq_ok.mp h
    cases stage with
    | finished became => cases hpure
    | waiting id image =>
      cases hpure
      obtain ⟨r, hfind, hid, -⟩ := (beginRecord_waiting hbegin).find
      obtain ⟨hr, hkey⟩ := find_eq_some.mp hfind
      exact ⟨r, get_eq_some.mpr ⟨hr, hid⟩, hkey⟩
  | popup env id =>
    unfold Begun.begin beginDrawing at h
    cases hdrawn : thumbnailOrFull d id with
    | error e =>
      rw [exec_attempt_error (by rw [hdrawn]; rfl)] at h
      cases h
    | ok drawn =>
      rw [exec_attempt_ok (by rw [hdrawn]; rfl)] at h
      cases drawn with
      | answered payloads => cases h
      | rendering image full =>
        obtain ⟨hsome, rfl⟩ := Prod.mk.inj h
        obtain ⟨r, hget, rfl⟩ := Option.map_eq_some_iff.mp (Except.ok.inj hsome)
        exact ⟨r, hget, rfl⟩
  | other s hs =>
    obtain ⟨u, d1, -, hpure⟩ := exec_bind_eq_ok.mp h
    cases hpure

/-- A capture is written to the rows and references that are there. -/
theorem Begun.writing_same (h : b.writing d = some w) :
    w.daemon.db.entries = d.db.entries ∧ w.daemon.db.entryBlobs = d.db.entryBlobs := by
  cases b with
  | copy env data =>
    cases h
    exact ⟨rfl, rfl⟩
  | receive env sent =>
    simp only [Begun.writing, Option.ite_none_right_eq_some, Option.some.injEq] at h
    obtain ⟨-, rfl⟩ := h
    exact ⟨entries_observed _ d, entryBlobs_observed _ d⟩
  | popup | other => cases h

/-- What follows takes away only. -/
theorem fewer_then {x : Request α} {f : α → Request β} (h : Fewer d' (exec x d).2)
    (hf : ∀ a, Keeps Fewer (f a)) : Fewer d' (exec (x >>= f) d).2 := by
  rw [exec_bind]
  cases hex : exec x d with
  | mk result d1 =>
    rw [hex] at h
    cases result with
    | error e => exact h
    | ok a => exact Fewer.trans _ _ _ h (hf a d1)

/-- **Up to its await a request writes its capture and then only takes away.** -/
theorem Begun.fewer_of_writing (h : b.writing d = some w) :
    Fewer (exec (storeRow w.env w.data) w.daemon).2 (exec b.begin d).2 := by
  cases b with
  | copy env data =>
    cases h
    refine fewer_then ?_ fun _ => keeps_pure Fewer.refl _
    obtain ⟨d1, hrow, -, -⟩ := exec_storeRow env data d
    unfold beginStore
    rw [exec_bind_ok hrow, hrow]
    split
    · exact Fewer.refl d1
    · exact Fewer.bind (fewer_storeRest env _) (fun _ => keeps_pure Fewer.refl _) d1
  | receive env sent =>
    simp only [Begun.writing, Option.ite_none_right_eq_some, Option.some.injEq] at h
    obtain ⟨hanew, rfl⟩ := h
    refine fewer_then ?_ fun stage => by cases stage <;> exact keeps_pure Fewer.refl _
    rw [exec_beginRecord_anew hanew]
    exact fewer_beginNew (storedAnew_iff.mp hanew.2).2.1 _
  | popup | other => cases h

/-- **A request that writes none only takes away.** -/
theorem Begun.fewer_of_none (h : b.writing d = none) : Fewer d (exec b.begin d).2 := by
  cases b with
  | copy env data => cases h
  | receive env sent =>
    simp only [Begun.writing, ite_eq_right_iff, reduceCtorEq, imp_false] at h
    exact fewer_then (fewer_beginRecord h) fun stage => by
      cases stage <;> exact keeps_pure Fewer.refl _
  | popup env id =>
    unfold Begun.begin beginDrawing
    cases hdrawn : thumbnailOrFull d id with
    | error e =>
      rw [exec_attempt_error (by rw [hdrawn]; rfl)]
      exact Fewer.refl d
    | ok drawn =>
      rw [exec_attempt_ok (by rw [hdrawn]; rfl)]
      cases drawn <;> exact Fewer.refl d
  | other s hs => exact Fewer.bind (fewer_segment s hs) (fun _ => keeps_pure Fewer.refl _) d

/-- **After its await a request attaches the thumbnail and then only takes away.** -/
theorem Rendering.fewer_finish (t : Rendering) (d : Daemon) :
    Fewer (exec (storeThumbnail t.env t.id (t.env.content.renderThumbnail t.image)) d).2
      (exec t.finish d).2 := by
  have hthumb := Fewer.refl
    (exec (storeThumbnail t.env t.id (t.env.content.renderThumbnail t.image)) d).2
  have hpure : ∀ {γ : Type} (a : γ), Keeps Fewer (pure a : Request γ) :=
    fun a => keeps_pure Fewer.refl a
  unfold Rendering.finish
  cases t.caller with
  | capture =>
    refine fewer_then ?_ fun _ => hpure ()
    rw [storeRest_eq]
    exact fewer_then hthumb fun _ => fewer_storeRest t.env t.id
  | record record =>
    refine fewer_then ?_ fun _ => hpure ()
    rw [finishNew_eq]
    exact fewer_then hthumb fun _ => fewer_finishNew t.env record t.id
  | popup full =>
    refine fewer_then ?_ fun _ => hpure ()
    cases hrender : t.env.content.renderThumbnail t.image with
    | none => exact Fewer.refl d
    | some png =>
      rw [hrender] at hthumb
      exact fewer_then hthumb fun _ => hpure _

end Begun

/-! ## §4. What is attached -/

/-- A row has a reference of this format. -/
def HasRef (d : Daemon) (id : Nat) (mime : String) : Prop :=
  ∃ b ∈ d.db.entryBlobs, b.entryId = id ∧ b.mime = mime

section Attached

variable {env : Env} {d : Daemon} {id : Nat} {r : EntryRow}

/-- The references once a format is attached. -/
theorem refs_storeBlob (env : Env) (hrow : d.db.entries.get id = some r) (p : MimePayload)
    {b : BlobRow} : b ∈ (exec (storeBlob env id p.mime p.data) d).2.db.entryBlobs ↔
      b ∈ d.db.entryBlobs ∧ ¬ (b.entryId = id ∧ b.mime = p.mime) ∨ b = refTo env.hash id p := by
  obtain ⟨blobs, -, hexec⟩ := exec_storeBlob_eq env hrow p
  rw [hexec]
  unfold Panod.attached
  rw [List.mem_append, List.mem_filter, List.mem_singleton, decide_eq_true_iff]
  rfl

/-- Without its row nothing is attached. -/
theorem db_storeBlob_of_none (env : Env) (hrow : d.db.entries.get id = none) {mime : String}
    {data : Bytes} : (exec (storeBlob env id mime data) d).2.db = d.db := by
  obtain ⟨blobs, hput⟩ := d.blobs.put_ok env.hash d.blobCipher data
  have hblob : exec (putBlob env data) d = (.ok (env.hash.contentHash data), { d with blobs }) :=
    exec_attempt_ok (by rw [hput]; rfl)
  unfold storeBlob
  rw [exec_bind_ok hblob, exec_changeDb_error (by unfold attachBlob; rw [hrow])]

theorem hasRef_storeBlob (env : Env) (hrow : d.db.entries.get id = some r) (p : MimePayload)
    {mime : String} (h : p.mime = mime ∨ HasRef d id mime) :
    HasRef (exec (storeBlob env id p.mime p.data) d).2 id mime := by
  by_cases hmime : p.mime = mime
  · exact ⟨_, (refs_storeBlob env hrow p).mpr (.inr rfl), rfl, hmime⟩
  · obtain ⟨b, hb, hid, hb'⟩ := h.resolve_left hmime
    refine ⟨b, (refs_storeBlob env hrow p).mpr (.inl ⟨hb, ?_⟩), hid, hb'⟩
    rintro ⟨-, heq⟩
    exact hmime (heq.symm.trans hb')

/-- Every format that is stored is attached at the end. -/
theorem hasRef_storeBlobs (env : Env) : ∀ (payloads : List MimePayload) (d : Daemon),
    d.db.entries.get id = some r → ∀ p ∈ payloads,
      HasRef (exec (payloads.forM (fun p => storeBlob env id p.mime p.data)) d).2 id p.mime
  | [], _, _, p, hp => absurd hp (by simp)
  | q :: payloads, d, hrow, p, hp => by
    obtain ⟨d1, hrun, haside⟩ := exec_storeBlob env hrow q.mime q.data
    have hrow1 : d1.db.entries.get id = some r := by
      rw [haside.entries]
      exact hrow
    rw [List.forM_eq_forM, List.forM_cons, exec_bind_ok hrun]
    rcases List.mem_cons.mp hp with rfl | hp
    · -- what is stored later leaves a reference of this name
      have hthere := hasRef_storeBlob env hrow p (.inl rfl)
      rw [hrun] at hthere
      exact storeBlobs_keeps env (fun d' => HasRef d' id p.mime)
        (fun q _ _ _ hrow' h => hasRef_storeBlob env hrow' q (.inr h)) payloads d1
        (fun _ h => h) hrow1 hthere
    · exact hasRef_storeBlobs env payloads d1 hrow1 p hp

/-- **What a capture attaches**: a reference to its row for each of its formats, and nothing
    else. -/
theorem refs_storeRow (env : Env) (data : ClipboardData) (d : Daemon) :
    (∀ b ∈ (exec (storeRow env data) d).2.db.entryBlobs, b ∈ d.db.entryBlobs ∨
        ∃ p ∈ data.payloads, p.mime = b.mime) ∧
      ∀ p ∈ data.payloads,
        HasRef (exec (storeRow env data) d).2 (capturedRow env data d).id p.mime := by
  obtain ⟨d1, hrecord, hwrote, -⟩ := exec_recordRow env data d
  have hsame : d1.db.entryBlobs = d.db.entryBlobs := by
    have hrefs := (sameBlobs_recordRow env data d).refs
    rw [hrecord] at hrefs
    exact hrefs
  have hexec : (exec (storeRow env data) d).2 = (exec (data.payloads.forM
      (fun p => storeBlob env (capturedRow env data d).id p.mime p.data)) d1).2 := by
    obtain ⟨d2, hblobs, -⟩ := exec_storeBlobs env data.payloads d1 hwrote.get
    rw [storeRow_eq, exec_bind_ok hrecord, exec_bind_ok hblobs, hblobs]
    rfl
  rw [hexec, ← hsame]
  refine ⟨?_, hasRef_storeBlobs env data.payloads d1 hwrote.get⟩
  refine storeBlobs_keeps env (fun d' => ∀ b ∈ d'.db.entryBlobs, b ∈ d1.db.entryBlobs ∨
    ∃ p ∈ data.payloads, p.mime = b.mime) ?_ data.payloads d1 (fun _ h => h) hwrote.get
    (fun b hb => .inl hb)
  intro p hp d' r' hrow hd' b hb
  rcases (refs_storeBlob env hrow p).mp hb with ⟨hold, -⟩ | rfl
  · exact hd' b hold
  · exact .inr ⟨p, hp, rfl⟩

end Attached

/-! ## §5. Thumbnails along a run -/

namespace Studio

variable {s : Studio} {e : StudioTurn} {source : Nat → Option EntryKey} {d d' : Daemon}

theorem mem_thumbnails {b : BlobRow} {db : Database} :
    b ∈ thumbnails db ↔ b ∈ db.entryBlobs ∧ b.mime = thumbnailMime := by
  unfold thumbnails
  rw [List.mem_filter, decide_eq_true_iff]

theorem fewer_turn (s : Studio) (e : StudioTurn) : Fewer (s.attaches e).1 (s.turn e).1 := by
  cases e with
  | start what =>
    cases hwriting : what.writing s.daemon with
    | none =>
      simp only [attaches, turn, hwriting]
      exact Begun.fewer_of_none hwriting
    | some w =>
      simp only [attaches, turn, hwriting]
      exact Begun.fewer_of_writing hwriting
  | rendered n =>
    cases hwaiting : s.waiting[n]? with
    | none =>
      simp only [attaches, turn, hwaiting]
      exact Fewer.refl s.daemon
    | some t =>
      simp only [attaches, turn, hwaiting]
      exact t.fewer_finish s.daemon

/-- Thumbnails that were there stay with their entries. -/
theorem BelongIn.kept {written : Option EntryKey} (h : BelongIn source d) (howned : Owned d)
    (hext : Extended written d d') {b : BlobRow} (hb : b ∈ thumbnails d.db) {r : EntryRow}
    (hr : d'.db.entries.get b.entryId = some r) : source b.entryId = some r.key := by
  obtain ⟨r0, hr0, hid⟩ := howned b (mem_thumbnails.mp hb).1
  have hget : d.db.entries.get b.entryId = some r0 := get_eq_some.mpr ⟨hr0, hid⟩
  rw [h b hb r0 hget, hext.same_key hget hr]

theorem BelongIn.fewer (h : BelongIn source d) (howned : Owned d) (hfewer : Fewer d d') :
    BelongIn source d' := by
  intro b hb r hr
  obtain ⟨hmem, hmime⟩ := mem_thumbnails.mp hb
  have hext : Extended none d d' := hfewer.extended
  exact h.kept howned hext (mem_thumbnails.mpr ⟨hfewer.refs b hmem, hmime⟩) hr

/-- **A capture strays exactly when it brings something under the thumbnails' name.** -/
theorem belongIn_storeRow_iff {w : Writing} (h : BelongIn source w.daemon)
    (howned : Owned w.daemon) :
    BelongIn (if w.NamesThumbnail then Function.update source w.row.id none else source)
      (exec (storeRow w.env w.data) w.daemon).2 ↔ ¬ w.NamesThumbnail := by
  obtain ⟨hold, hthere⟩ := refs_storeRow w.env w.data w.daemon
  have hext := extended_storeRow w.env w.data w.daemon
  by_cases hnames : w.NamesThumbnail
  · refine iff_of_false (fun hbelong => ?_) (fun hnot => hnot hnames)
    obtain ⟨p, hp, hmime⟩ := hnames
    obtain ⟨b, hb, hid, hb'⟩ := hthere p hp
    obtain ⟨d1, hrow, hwrote, -⟩ := exec_storeRow w.env w.data w.daemon
    have hget := hwrote.get
    rw [hrow] at hb hbelong
    rw [← hid] at hget
    have hsource := hbelong b (mem_thumbnails.mpr ⟨hb, hb'.trans hmime⟩) _ hget
    rw [if_pos ⟨p, hp, hmime⟩, hid] at hsource
    simp [Writing.row] at hsource
  · rw [if_neg hnames]
    refine iff_of_true (fun b hb r hr => ?_) hnames
    obtain ⟨hmem, hmime⟩ := mem_thumbnails.mp hb
    rcases hold b hmem with hmem | ⟨p, hp, hp'⟩
    · exact h.kept howned hext (mem_thumbnails.mpr ⟨hmem, hmime⟩) hr
    · exact absurd ⟨p, hp, hp'.trans hmime⟩ hnames

/-- **A thumbnail strays exactly when the number of its row is another entry's.** -/
theorem belongIn_thumbnail_iff (h : BelongIn source d) (howned : Owned d) (env : Env) (id : Nat)
    (key : EntryKey) (png : Bytes) :
    BelongIn (Function.update source id (some key))
        (exec (storeBlob env id thumbnailMime png) d).2 ↔
      ¬ ∃ r, d.db.entries.get id = some r ∧ r.key ≠ key := by
  have hext := extended_storeBlob env id thumbnailMime png d
  cases hget : d.db.entries.get id with
  | none =>
    -- nothing is attached, and no thumbnail is of this row
    refine iff_of_true (fun b hb r hr => ?_) (by simp)
    rw [db_storeBlob_of_none env hget] at hb hr
    have hne : b.entryId ≠ id := by
      intro heq
      rw [heq, hget] at hr
      cases hr
    rw [Function.update_of_ne hne]
    exact h b hb r hr
  | some r =>
    obtain ⟨d1, hrun, haside⟩ := exec_storeBlob env hget thumbnailMime png
    have hget1 : d1.db.entries.get id = some r := by
      rw [haside.entries]
      exact hget
    have hrefs := fun b => refs_storeBlob (b := b) env hget ⟨thumbnailMime, png⟩
    dsimp only at hrefs
    rw [hrun] at hrefs hext ⊢
    constructor
    · rintro hbelong ⟨r', hr', hne⟩
      cases hr'
      have hsource := hbelong _ (mem_thumbnails.mpr ⟨(hrefs _).mpr (.inr rfl), rfl⟩) r hget1
      rw [refTo, Function.update_self] at hsource
      exact hne (Option.some.inj hsource).symm
    · intro hsame b hb r' hr'
      obtain ⟨hmem, hmime⟩ := mem_thumbnails.mp hb
      rcases (hrefs b).mp hmem with ⟨hold, hother⟩ | rfl
      · rw [Function.update_of_ne (fun hid => hother ⟨hid, hmime⟩)]
        exact h.kept howned hext (mem_thumbnails.mpr ⟨hold, hmime⟩) hr'
      · rw [refTo] at hr' ⊢
        rw [hget1] at hr'
        cases hr'
        rw [Function.update_self]
        by_contra hne
        exact hsame ⟨r, rfl, fun heq => hne (congrArg some heq.symm)⟩

/-- **In the midst of a turn every thumbnail is with its own entry exactly when the turn does
    not stray.** -/
theorem midway_iff (howned : Owned s.daemon) (h : BelongIn s.source s.daemon) (e : StudioTurn) :
    Owned (s.attaches e).1 ∧
      (BelongIn (s.attaches e).2 (s.attaches e).1 ↔ ¬ s.Strays e) := by
  cases e with
  | start what =>
    cases hwriting : what.writing s.daemon with
    | none =>
      simp only [attaches, Strays, hwriting]
      exact ⟨howned, iff_of_true h (by simp)⟩
    | some w =>
      obtain ⟨hentries, hrefs⟩ := Begun.writing_same hwriting
      have hsame : Fewer s.daemon w.daemon := fewer_of_eq hentries hrefs
      have howned := hsame.owned howned
      simp only [attaches, Strays, hwriting, Option.some.injEq, exists_eq_left']
      exact ⟨(extended_storeRow _ _ _).owned howned,
        belongIn_storeRow_iff (h.fewer ‹_› hsame) howned⟩
  | rendered n =>
    cases hwaiting : s.waiting[n]? with
    | none =>
      simp only [attaches, Strays, hwaiting]
      exact ⟨howned, iff_of_true h (by simp)⟩
    | some t =>
      simp only [attaches, Strays, hwaiting, Option.some.injEq, exists_eq_left']
      refine ⟨(extended_storeThumbnail _ _ _ _).owned howned, ?_⟩
      cases hrender : t.env.content.renderThumbnail t.image with
      | none => exact iff_of_true h (by simp)
      | some png =>
        simp only [Option.isSome_some, if_true, true_and]
        exact belongIn_thumbnail_iff h howned t.env t.id t.key png

theorem owned_start (key : Key) : Owned (start key).daemon := by
  intro b hb
  exact absurd hb (by simp [start, Database.empty])

theorem belong_start (key : Key) : (start key).Belong := by
  constructor <;> exact fun b hb => absurd hb (by simp [start, thumbnails, Database.empty])

end Studio

/-- **Along a run every thumbnail was rendered from a picture of its own entry exactly when no
    rendering is done while the number of its row is another entry's, and no capture or record
    is written that has a payload under the thumbnails' name.** -/
theorem thumbnails_belong_iff (key : Key) (turns : List StudioTurn) :
    (∀ s ∈ Trace.states Studio.step (Studio.start key) turns, s.Belong) ↔
      Trace.Never Studio.step Studio.Strays (Studio.start key) turns := by
  refine Trace.forall_states_iff_of_kept (P := fun s => Owned s.daemon) turns ?_
    (Studio.owned_start key) (Studio.belong_start key)
  intro s e _ howned hbelong
  obtain ⟨hmidway, hiff⟩ := Studio.midway_iff howned hbelong.2 e
  have hfewer := Studio.fewer_turn s e
  refine ⟨hfewer.owned hmidway, Iff.trans ?_ hiff⟩
  exact ⟨fun h => h.1, fun h => ⟨h, h.fewer hmidway hfewer⟩⟩

namespace Sample

/-- A device without sync, on which what comes with a picture is one. -/
def drawing (now : Int) : Env := { env with
  content := { content with
    classify := fun data => if data.payloads.any (fun p => p.mime.startsWith "image/") then .image
      else .text
    renderThumbnail := fun image => some (image ++ [0]) }
  config := { config with syncEnabled := false }
  now := now }

/-- A text that was copied. -/
def copiedText : ClipboardData := ⟨.clipboard, [⟨"text/plain", [104, 105]⟩], [], none⟩

/-- A picture is copied and deleted while it is rendered; half a minute later the row goes, and
    a text is copied before the rendering is done. -/
def deletedWhileRendered : List StudioTurn :=
  [.start (.copy (drawing 1700000000) (picture [137, 80])),
    .start (.other (.delete (drawing 1700000001) 1) rfl),
    .start (.other (.retention (drawing 1700000040)) rfl),
    .start (.copy (drawing 1700000041) copiedText),
    .rendered 0]

def afterRendering : Studio :=
  Trace.after Studio.step (Studio.start [1]) deletedWhileRendered

/-- **The text has the picture's thumbnail.** -/
theorem text_gets_thumbnail :
    (afterRendering.daemon.db.entries.get 1).map Row.key
        = some (keyOf (drawing 1700000041) copiedText) ∧
      (loadThumbnail afterRendering.daemon 1).toOption
        = some (some ⟨thumbnailMime, [137, 80, 0]⟩) ∧
      ¬ ∀ s ∈ Trace.states Studio.step (Studio.start [1]) deletedWhileRendered, s.Belong := by
  have hkey : (afterRendering.daemon.db.entries.get 1).map Row.key
      = some (keyOf (drawing 1700000041) copiedText) := by decide +kernel
  refine ⟨hkey, by decide +kernel, ?_⟩
  intro hbelong
  have hlast := hbelong afterRendering (Trace.after_mem_states _ _)
  obtain ⟨r, hget, hr⟩ := Option.map_eq_some_iff.mp hkey
  have hthere : (⟨1, thumbnailMime, hash.contentHash [137, 80, 0]⟩ : BlobRow)
      ∈ thumbnails afterRendering.daemon.db := by decide +kernel
  have hsource := hlast.2 _ hthere r hget
  rw [hr] at hsource
  exact absurd hsource (by decide +kernel)

end Sample

end Panora.Panod
