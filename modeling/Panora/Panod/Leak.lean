/-
  Panora.Panod.Leak — what the feed hands out while a record is applied.

  A record of something that is not here is written by the capture path, with a
  fresh stamp of this device and no pin; the record's own state follows after the
  thumbnail was awaited.  A feed that is read in between hands the captured state
  out as if it had been made here.

  Main results:
    * `handsOut_iff` — what some page of the feed hands out;
    * `invents_nothing_iff` — when applying a record hands out nothing but what was
      here and what the record says.
-/
import Panora.Panod.Suspend

namespace Panora.Panod

open Storage Storage.Database Lib Lib.Feed Lib.Fallible

variable {env : Env} {d d' dw : Daemon} {scope : SyncScope} {sent : SyncRecord} {id : Nat}
  {image : Bytes} {k : EntryKey} {c : Carried} {r r' : EntryRow}

/-! ## §1. What a page may hand out -/

/-- Some page of the feed has a record of this entry in this state. -/
def HandsOut (env : Env) (d : Daemon) (k : EntryKey) (c : Carried) : Prop :=
  ∃ since limit scope records next more,
    syncChanges env d since limit scope = .ok (records, next, more) ∧
      ∃ record ∈ records, filed record = (k, c)

/-- What is in scope for some device is in scope for one that shares everything. -/
theorem Eligible.everything (h : Eligible env d scope r) : Eligible env d ⟨false, false⟩ r := by
  obtain ⟨hshown, -, hpayloads⟩ := h
  refine ⟨hshown, ?_, hpayloads⟩
  unfold SyncScope.includes
  split
  · rfl
  · rfl

/-- From just before a row, the row comes first. -/
theorem changedSince_cons (hnum : Numbered d.db) (hr : r ∈ d.db.entries.rows)
    (hshown : shown r = true) :
    ∃ rest, changedSince d.db ((r.cols.changeSeq : Int) - 1) = r :: rest := by
  have hmem : r ∈ changedSince d.db ((r.cols.changeSeq : Int) - 1) :=
    mem_changedSince.mpr ⟨hr, hshown, by omega⟩
  have hsorted := pairwise_changedSince hnum ((r.cols.changeSeq : Int) - 1)
  cases hlist : changedSince d.db ((r.cols.changeSeq : Int) - 1) with
  | nil =>
    rw [hlist] at hmem
    cases hmem
  | cons first rest =>
    rw [hlist] at hmem hsorted
    refine ⟨rest, ?_⟩
    rcases List.mem_cons.mp hmem with rfl | hrest
    · rfl
    · -- nothing stands between the cursor and the row
      have hlt := (List.pairwise_cons.mp hsorted).1 r hrest
      have hfirst : first ∈ changedSince d.db ((r.cols.changeSeq : Int) - 1) := by
        rw [hlist]
        exact List.mem_cons_self
      have := (mem_changedSince.mp hfirst).2.2
      omega

/-- A page of one record can be read just before a row that can be sent. -/
theorem syncChanges_one (hnum : Numbered d.db) (hr : r ∈ d.db.entries.rows)
    (hshown : shown r = true) {record : SyncRecord}
    (hrecord : recordOf env d scope r = .ok (some record)) :
    ∃ next more, syncChanges env d ((r.cols.changeSeq : Int) - 1) 1 scope
      = .ok ([record], next, more) := by
  obtain ⟨rest, hlist⟩ := changedSince_cons hnum hr hshown
  have hfirst : feedRow env d 1 scope (Page.start ((r.cols.changeSeq : Int) - 1)) r
      = .ok ((Page.start ((r.cols.changeSeq : Int) - 1)).push record r.cols.changeSeq, true) := by
    have hempty : ¬ (Page.start ((r.cols.changeSeq : Int) - 1)).full record := fun h => h.1 rfl
    unfold feedRow
    rw [if_neg (by simp [Page.start]), hrecord]
    dsimp only
    rw [if_neg hempty]
  -- the page is at its limit when the next row comes
  have hrest : ∃ go, walk (feedRow env d 1 scope)
      ((Page.start ((r.cols.changeSeq : Int) - 1)).push record r.cols.changeSeq) rest
      = .ok ((Page.start ((r.cols.changeSeq : Int) - 1)).push record r.cols.changeSeq, go) := by
    cases rest with
    | nil => exact ⟨true, rfl⟩
    | cons next rest =>
      refine ⟨false, ?_⟩
      rw [walk]
      unfold feedRow
      rw [if_pos (by simp [Page.push, Page.start])]
  obtain ⟨go, hrest⟩ := hrest
  have hlimit : pageLimit 1 = 1 := by decide
  rw [syncChanges_eq hnum, hlist, hlimit, walk, hfirst]
  dsimp only
  rw [hrest]
  exact ⟨_, _, rfl⟩

/-- **What some page of the feed hands out** is what the rows that can be sent say. -/
theorem handsOut_iff (hnum : Numbered d.db) : HandsOut env d k c ↔
    ∃ r, d.db.entries.find k = some r ∧ carriedBy r = c ∧ Eligible env d ⟨false, false⟩ r := by
  constructor
  · rintro ⟨since, limit, scope, records, next, more, hpage, record, hrecord, hfiled⟩
    obtain ⟨done, rest, hof, -⟩ := syncChanges_ok hnum hpage
    rw [hof.records] at hrecord
    obtain ⟨r, hdone, hoffered⟩ := List.mem_filterMap.mp hrecord
    have hmem : r ∈ changedSince d.db since := by
      rw [hof.split]
      exact List.mem_append_left rest hdone
    obtain ⟨hr, hshown, -⟩ := mem_changedSince.mp hmem
    rw [filed_of_offered hoffered] at hfiled
    cases hfiled
    exact ⟨r, Table.find_eq_some.mpr ⟨hr, rfl⟩, rfl,
      (eligible_iff.mpr ⟨hshown, record, hoffered⟩).everything⟩
  · rintro ⟨r, hfind, rfl, hel⟩
    obtain ⟨hr, hkey⟩ := Table.find_eq_some.mp hfind
    obtain ⟨hshown, record, hoffered⟩ := eligible_iff.mp hel
    have hrecord : recordOf env d ⟨false, false⟩ r = .ok (some record) := by
      unfold offered at hoffered
      split at hoffered
      next found hfound => rw [hfound, hoffered]
      next => cases hoffered
    obtain ⟨next, more, hpage⟩ := syncChanges_one hnum hr hshown hrecord
    refine ⟨_, 1, ⟨false, false⟩, [record], next, more, hpage, record, by simp, ?_⟩
    rw [filed_of_offered hoffered, hkey]

/-! ## §2. Applying a record -/

/-- The states of the history a page can be read in while a record is applied: before
    it, while it waits, and after it. -/
def Moment (env : Env) (d : Daemon) (sent : SyncRecord) (d' : Daemon) : Prop :=
  d' = d ∨ (∃ id image, Op.exec (beginRecord env sent) d = (.ok (.waiting id image), d')) ∨
    d' = (Op.exec (applyRecord env sent) d).2

/-- Whatever is handed out of the record's entry was in its row before, or is what the
    record says. -/
def InventsNothing (env : Env) (d : Daemon) (sent : SyncRecord) : Prop :=
  ∀ d', Moment env d sent d' → ∀ c, HandsOut env d' sent.key c →
    (∃ r, d.db.entries.find sent.key = some r ∧ carriedBy r = c) ∨ c = remoteState sent

/-- A row that can be sent was not evicted. -/
theorem Eligible.not_evicted (h : Eligible env d scope r) : ¬ evictedRow r := by
  rintro ⟨hdel, hat⟩
  have hshown := h.1
  unfold shown at hshown
  rw [hdel, hat] at hshown
  exact absurd hshown (by simp)

/-- A deletion the feed shows can always be sent, whatever its stamp. -/
theorem eligible_tombstone {n : Nat} {lamport : Int} {deviceId : String}
    (hdel : r.cols.deleted = true) (hshown : shown r = true) :
    Eligible env d ⟨false, false⟩
      { r with cols := (r.cols.stamped lamport deviceId).numbered n } := by
  have hdel' : ({ r with cols := (r.cols.stamped lamport deviceId).numbered n } :
    EntryRow).cols.deleted = true := hdel
  refine ⟨hshown, ?_, [], ?_, ?_⟩
  · unfold SyncScope.includes
    rw [if_pos hdel']
  · unfold payloadsOf
    rw [if_pos hdel']
  · unfold sendable
    rw [hdel']
    rfl

/-- The numbers are in order while it waits. -/
theorem Waits.numbered (h : Waits env sent d id image dw) (hnum : Numbered d.db) :
    Numbered dw.db := by
  have hobserve : Advanced (fun _ => False) d (observed (clampTimes env sent) d) :=
    ((outlasts_advanced env d).observe _ d (Advanced.refl d)).1
  have hrow : Advanced (fun _ => False) (observed (clampTimes env sent) d) dw := by
    have hadvances : Advances (fun _ => False) (storeRow env (captureOf (clampTimes env sent))) :=
      advances_storeRow env _
    have hstored := hadvances (observed (clampTimes env sent) d)
    rw [h.row] at hstored
    exact hstored
  exact (hobserve.trans hrow).numbered hnum

/-- A newer deletion of something that is deleted here changes the stamp alone. -/
theorem applyRecord_tombstone (hwf : ¬ malformed env sent) (hdel : sent.deleted = true)
    (hfind : d.db.entries.find sent.key = some r) (hr : r.cols.deleted = true)
    (hwins : rowStamp r < sent.stamp) :
    ∃ n, (Op.exec (applyRecord env sent) d).2.db.entries.find sent.key = some { r with
      cols := (r.cols.stamped sent.lamport sent.deviceId).numbered n } := by
  have hsame : ∀ {r'}, d.db.entries.find sent.key = some r' → r = r' :=
    fun here => Option.some.inj (hfind.symm.trans here)
  cases applyRecord_fate hwf d with
  | restamped r' d' n here _ _ _ run wrote =>
    obtain rfl := hsame here
    exact ⟨n, by rw [run, wrote.row]⟩
  | unknown here _ _ => exact absurd (hfind.symm.trans here) (by simp)
  | older r' here notNewer _ => exact absurd (hsame here ▸ hwins) notNewer
  | removed r' _ _ _ here _ _ rowLive _ _ => exact absurd (hsame here ▸ hr) (by simp [rowLive])
  | recorded live _ _ => exact absurd hdel (by simp [live])
  | merged _ _ _ _ _ live _ _ _ => exact absurd hdel (by simp [live])

/-- A row of the entry that can be sent once the record was applied says what was there
    before, or what the record says. -/
theorem said_after (hnot : ∀ r, d.db.entries.find sent.key = some r → r.cols.deleted = true)
    (hpins : ∀ r, d.db.entries.find sent.key = some r → shown r = true → ¬ malformed env sent →
      sent.deleted = true → rowStamp r < sent.stamp → r.cols.pinned = sent.pinned)
    (hr' : (Op.exec (applyRecord env sent) d).2.db.entries.find sent.key = some r')
    (hel : Eligible env (Op.exec (applyRecord env sent) d).2 scope r') :
    (∃ r, d.db.entries.find sent.key = some r ∧ carriedBy r = carriedBy r') ∨
      carriedBy r' = remoteState sent := by
  by_cases hwf : malformed env sent
  · rw [exec_applyRecord_malformed hwf] at hr'
    exact .inl ⟨r', hr', rfl⟩
  cases applyRecord_fate hwf d with
  | unknown _ _ run =>
    rw [run, entries_observed] at hr'
    exact .inl ⟨r', hr', rfl⟩
  | older _ _ _ run =>
    rw [run, entries_observed] at hr'
    exact .inl ⟨r', hr', rfl⟩
  | recorded live _ run =>
    rw [run] at hr'
    by_cases hadm : admitted env (clampTimes env sent) = true
    · exact .inr (applyNew_row hwf live hadm hr' hel.not_evicted)
    · rw [exec_applyNew_refused (Bool.eq_false_of_not_eq_true hadm), entries_observed] at hr'
      exact .inl ⟨r', hr', rfl⟩
  | merged r _ _ here _ _ rowLive _ _ => exact absurd (hnot r here) (by simp [rowLive])
  | removed r _ _ _ here _ _ rowLive _ _ => exact absurd (hnot r here) (by simp [rowLive])
  | restamped r _ n here newer deletion rowDeleted run wrote =>
    -- the stamp alone changes
    rw [run, wrote.row] at hr'
    cases hr'
    have hpin := hpins r here hel.1 hwf deletion newer
    right
    show (⟨sent.lamport, sent.deviceId, r.cols.pinned, r.cols.deleted⟩ : Carried)
      = ⟨sent.lamport, sent.deviceId, sent.pinned, sent.deleted⟩
    rw [hpin, rowDeleted, deletion]

/-! ## §3. When nothing is invented -/

/-- **Applying a record hands out a state of its own making** exactly if it is stored anew and
    has a picture to render, and the row that is written first can be sent, unless the record
    happens to say what the capture says; and a newer deletion over an older one hands out the
    older pin. -/
theorem invents_nothing_iff (env : Env) (d : Daemon) (sent : SyncRecord) (hnum : Numbered d.db)
    (hnot : ∀ r, d.db.entries.find sent.key = some r → r.cols.deleted = true) :
    InventsNothing env d sent ↔
      (Anew env sent d → (imageOf env (captureOf (clampTimes env sent))).isSome = true →
        Eligible env (rowWritten env sent d) ⟨false, false⟩ (writtenRow env sent d) →
          remoteState sent
            = ⟨(observed (clampTimes env sent) d).db.tickLamport.1, env.deviceId, false, false⟩) ∧
      (∀ r, d.db.entries.find sent.key = some r → shown r = true → ¬ malformed env sent →
        sent.deleted = true → rowStamp r < sent.stamp → r.cols.pinned = sent.pinned) := by
  have hadvances : Advances (fun _ => False) (applyRecord env sent) := advances_applyRecord env sent
  have hafter : Numbered (Op.exec (applyRecord env sent) d).2.db := (hadvances d).numbered hnum
  constructor
  · intro h
    constructor
    · intro hanew himage hel
      obtain ⟨image, himage⟩ := Option.isSome_iff_exists.mp himage
      have hwait := exec_beginRecord_waits hanew himage
      have hwaits := beginRecord_waiting hwait
      obtain ⟨-, -, hr, hcarried⟩ := hwaits.written
      have hout := (handsOut_iff (hwaits.numbered hnum)).mpr ⟨_, hr, hcarried, hel⟩
      rcases h _ (.inr (.inl ⟨_, image, hwait⟩)) _ hout with ⟨r1, hr1, heq⟩ | heq
      · -- what was here before was deleted
        have hdel := hnot r1 hr1
        have hlive : r1.cols.deleted = false := congrArg Carried.deleted heq
        rw [hdel] at hlive
        cases hlive
      · exact heq.symm
    · intro r hr hshown hwf hdel hwins
      obtain ⟨n, hfinal⟩ := applyRecord_tombstone hwf hdel hr (hnot r hr) hwins
      have hel : Eligible env (Op.exec (applyRecord env sent) d).2 ⟨false, false⟩
          { r with cols := (r.cols.stamped sent.lamport sent.deviceId).numbered n } :=
        eligible_tombstone (hnot r hr) hshown
      have hout := (handsOut_iff hafter).mpr ⟨_, hfinal, rfl, hel⟩
      rcases h _ (.inr (.inr rfl)) _ hout with ⟨r1, hr1, heq⟩ | heq
      · rw [hr] at hr1
        cases hr1
        -- the stamp is newer than the one it had
        have hstamp : rowStamp r = sent.stamp := by
          have hlamport : r.cols.lamport = sent.lamport := congrArg Carried.lamport heq
          have hdevice : r.cols.deviceId = sent.deviceId := congrArg Carried.deviceId heq
          rw [rowStamp, hlamport, hdevice]
          rfl
        rw [hstamp] at hwins
        exact absurd hwins (lt_irrefl _)
      · exact congrArg Carried.pinned heq
  · rintro ⟨hwindow, hpins⟩ d' (rfl | ⟨id, image, hwait⟩ | rfl) c hout
    · obtain ⟨r, hr, hc, -⟩ := (handsOut_iff hnum).mp hout
      exact .inl ⟨r, hr, hc⟩
    · have hwaits := beginRecord_waiting hwait
      obtain ⟨hd', -, hr0, hcarried⟩ := hwaits.written
      obtain ⟨r, hr, rfl, hel⟩ := (handsOut_iff (hwaits.numbered hnum)).mp hout
      rw [hr0] at hr
      cases hr
      rw [hd'] at hel
      rw [hcarried, ← hwindow (anew_of_waiting hwait) (by rw [hwaits.image]; rfl) hel]
      exact .inr rfl
    · obtain ⟨r', hr', rfl, hel⟩ := (handsOut_iff hafter).mp hout
      exact said_after hnot hpins hr' hel

namespace Sample

theorem find_fresh (k : EntryKey) : fresh.db.entries.find k = none := rfl

/-- The same device, where everything is a picture. -/
def pictures : Env := { Sample.env with content := { content with classify := fun _ => .image } }

/-- A pinned picture from a phone. -/
def photo : SyncRecord :=
  { note [137, 80, 78, 71] 7 with
    contentHash := hash.payloadHash [⟨"image/png", [137, 80, 78, 71]⟩]
    payloads := [⟨"image/png", [137, 80, 78, 71]⟩]
    pinned := true }

/-- The history while the picture waits for its thumbnail. -/
def duringPhoto : Daemon := (Op.exec (beginRecord pictures photo) fresh).2

theorem photo_waits : Op.exec (beginRecord pictures photo) fresh
    = (.ok (.waiting 1 [137, 80, 78, 71]), duringPhoto) := by
  have hstage : (Op.exec (beginRecord pictures photo) fresh).1
      = .ok (.waiting 1 [137, 80, 78, 71]) := by decide +kernel
  rw [← hstage]
  rfl

/-- The feed hands the picture out as an unpinned picture of this device. -/
theorem duringPhoto_page :
    (syncChanges pictures duringPhoto 0 32 ⟨false, false⟩).map (fun page => page.1.map filed)
      = .ok [(photo.key, ⟨8, "here", false, false⟩)] := by decide +kernel

/-- **A state nobody made leaves the device**, and its stamp beats the phone's own. -/
theorem waiting_record_leaks_a_local_stamp :
    (syncChanges pictures duringPhoto 0 32 ⟨false, false⟩).map (fun page => page.1.map filed)
        = .ok [(photo.key, ⟨8, "here", false, false⟩)] ∧
      lwwWins (stampOf 8 "here") photo.stamp = true ∧ ¬ InventsNothing pictures fresh photo := by
  refine ⟨duringPhoto_page, by decide, fun h => ?_⟩
  have hout : HandsOut pictures duringPhoto photo.key ⟨8, "here", false, false⟩ := by
    obtain ⟨⟨records, next, more⟩, hpage, hfiled⟩ := map_ok_iff.mp duringPhoto_page
    obtain ⟨record, hrecord, heq⟩ : ∃ record ∈ records,
        filed record = (photo.key, ⟨8, "here", false, false⟩) := by
      refine List.mem_map.mp ?_
      rw [show records.map filed = _ from hfiled]
      exact List.mem_cons_self
    exact ⟨0, 32, ⟨false, false⟩, records, next, more, hpage, record, hrecord, heq⟩
  rcases h duringPhoto (.inr (.inl ⟨_, _, photo_waits⟩)) _ hout with ⟨r, hr, -⟩ | heq
  · rw [find_fresh] at hr
    cases hr
  · exact absurd heq (by decide)

/-- A device with a file under the name of the picture that does not open. -/
def damaged : Daemon :=
  { fresh with
    blobs := BlobStore.empty.create ⟨hash.contentHash [137, 80, 78, 71], .legacy [9] []⟩ rfl }

/-- What is under the name of the picture is not overwritten, so that its row cannot be sent. -/
theorem damaged_unsendable :
    (payloadsOf (rowWritten pictures photo damaged) (writtenRow pictures photo damaged)).toOption
      = none := by
  decide +kernel

/-- A picture that waits for its thumbnail and cannot be sent meanwhile. -/
theorem invents_nothing_of_damaged :
    (Op.exec (beginRecord pictures photo) damaged).1 = .ok (.waiting 1 [137, 80, 78, 71]) ∧
      InventsNothing pictures damaged photo := by
  have hnew : damaged.db.entries.find photo.key = none := rfl
  refine ⟨by decide +kernel, (invents_nothing_iff pictures damaged photo numbered_empty
    (fun r hr => by rw [hnew] at hr; cases hr)).mpr ⟨?_, ?_⟩⟩
  · rintro - - ⟨-, -, payloads, hpayloads, -⟩
    have hnone := damaged_unsendable
    rw [hpayloads] at hnone
    cases hnone
  · intro r hr
    rw [hnew] at hr
    cases hr

end Sample

end Panora.Panod
