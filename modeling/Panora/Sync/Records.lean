/-
  Panora.Sync.Records — a page of the feed as a frame.

  `push` in `crates/panora-sync/src/session.rs`, `GroupState::seal_record` in
  `group.rs`, and how serde writes a record: a page the daemon hands out is rid of
  the peer's own records, each record is written as JSON with its payloads in
  base64, sealed under the group key, and carried as a blob of one frame.

  The daemon counts the raw bytes of payloads, the reader of the frame counts what
  is sent.

  Main results:
    * `size_recordJson` — the bytes of a record as JSON;
    * `length_frame` — the bytes of message and blobs of a page;
    * `records_frame_read_iff` — which pages the peer reads.
-/
import Panora.Group.State
import Panora.Lib.Base64
import Panora.Lib.Json
import Panora.Panod.Capture
import Panora.Panod.Sample
import Panora.Sync.Frame

namespace Panora

open Lib Lib.Fallible Lib.Json List

/-! ## §1. Records as JSON -/

/-- The digits of base64, with the last two of them. -/
def base64Digits (last : List Char) (n : Fin 64) : Char :=
  ("ABCDEFGHIJKLMNOPQRSTUVWXYZabcdefghijklmnopqrstuvwxyz0123456789".toList ++ last).getD n '='

/-- `base64::engine::general_purpose::STANDARD`. -/
def standard : Base64.Scheme := ⟨base64Digits ['+', '/'], true⟩

/-- `base64::engine::general_purpose::URL_SAFE_NO_PAD`. -/
def urlSafeNoPad : Base64.Scheme := ⟨base64Digits ['-', '_'], false⟩

/-- Bytes as a string in base64. -/
def base64Json (scheme : Base64.Scheme) (data : Bytes) : Text :=
  str (String.ofList (Base64.encode scheme data))

def Selection.toJson : Selection → Text
  | .clipboard => str "Clipboard"
  | .primary => str "Primary"

def MimePayload.toJson (p : MimePayload) : Text :=
  obj [("mime", str p.mime), ("data", base64Json standard p.data)]

/-- `Option<String>`. -/
def optionJson : Option String → Text
  | some s => str s
  | none => null

def SyncRecord.toJson (r : SyncRecord) : Text :=
  obj [("content_hash", str r.contentHash), ("selection", r.selection.toJson),
    ("source_app", optionJson r.sourceApp), ("created_at", num r.createdAt),
    ("last_seen_at", num r.lastSeenAt), ("pinned", bool r.pinned),
    ("deleted", bool r.deleted), ("device_id", str r.deviceId),
    ("lamport", num r.lamport), ("payloads", arr (r.payloads.map MimePayload.toJson))]

/-- `serde_json::to_vec`. -/
def toVec (t : Text) : Bytes := utf8 (String.ofList t)

theorem length_toVec (t : Text) : (toVec t).length = size t := length_utf8 t

/-- The digits of base64 need no escape. -/
theorem size_escape_digits : ∀ n, size (escape (standard.digit n)) = 1 ∧
    size (escape (urlSafeNoPad.digit n)) = 1 := by
  decide +kernel

theorem size_base64Json {scheme : Base64.Scheme}
    (h : ∀ n, size (escape (scheme.digit n)) = 1) (data : Bytes) :
    size (base64Json scheme data) = 2 + Base64.encodedLength scheme.padded data.length := by
  rw [base64Json, size_str, size_escaped_of_plain, String.length_ofList,
    Base64.length_encode]
  intro c hc
  rw [String.toList_ofList] at hc
  rcases Base64.mem_encode data hc with ⟨n, rfl⟩ | rfl
  · exact h n
  · decide

/-- The bytes of a payload: four for each three of its data, begun ones included. -/
def payloadSize (p : MimePayload) : Nat :=
  21 + size (escaped p.mime) + 4 * ((p.data.length + 2) / 3)

theorem size_payloadJson (p : MimePayload) : size p.toJson = payloadSize p := by
  have hdata : size (base64Json standard p.data) = 2 + 4 * ((p.data.length + 2) / 3) :=
    size_base64Json (fun n => (size_escape_digits n).1) p.data
  have hnames : size (str "mime") = 6 ∧ size (str "data") = 6 := by decide
  rw [MimePayload.toJson, size_obj]
  simp only [map_cons, map_nil, sum_cons, sum_nil, length_cons,
    length_nil, hnames, hdata]
  rw [size_str, payloadSize]
  omega

/-- The bytes of a record. -/
def recordSize (r : SyncRecord) : Nat :=
  133 + size (str r.contentHash) + size r.selection.toJson
    + size (optionJson r.sourceApp) + size (num r.createdAt)
    + size (num r.lastSeenAt) + size (bool r.pinned)
    + size (bool r.deleted) + size (str r.deviceId)
    + size (num r.lamport) + (r.payloads.map payloadSize).sum + (r.payloads.length - 1)

/-- **The bytes of a record as JSON.** -/
theorem size_recordJson (r : SyncRecord) : size r.toJson = recordSize r := by
  have hnames : ["content_hash", "selection", "source_app", "created_at", "last_seen_at",
      "pinned", "deleted", "device_id", "lamport", "payloads"].map (fun s => size (str s))
      = [14, 11, 12, 12, 14, 8, 9, 11, 9, 10] := by
    decide
  simp only [map_cons, map_nil, cons.injEq, and_true] at hnames
  obtain ⟨h1, h2, h3, h4, h5, h6, h7, h8, h9, h10⟩ := hnames
  rw [SyncRecord.toJson, size_obj]
  have hpayloads : (r.payloads.map MimePayload.toJson).map size
      = r.payloads.map payloadSize := by
    rw [map_map]
    exact map_congr_left (fun p _ => size_payloadJson p)
  simp only [map_cons, map_nil, sum_cons, sum_nil, length_cons,
    length_nil, h1, h2, h3, h4, h5, h6, h7, h8, h9, h10, size_arr, hpayloads,
    length_map]
  rw [recordSize]
  omega

/-! ## §2. Sealing -/

namespace Group

/-- XChaCha20-Poly1305: what it makes of a message is as long as the message and the
    tag. -/
structure Aead where
  encrypt : (key nonce aad message : Bytes) → Bytes
  length_encrypt : ∀ key nonce aad message,
    (encrypt key nonce aad message).length = message.length + 16

/-- A fresh nonce. -/
structure Nonce where
  bytes : Bytes
  length_eq : bytes.length = 24

/-- `Cipher::seal_with_aad`: magic, version, nonce, ciphertext and tag. -/
def sealWithAad (A : Aead) (key : Bytes) (nonce : Nonce) (aad plaintext : Bytes) : Bytes :=
  utf8 "PNR1" ++ [1] ++ nonce.bytes ++ A.encrypt key nonce.bytes aad plaintext

theorem length_sealWithAad (A : Aead) (key : Bytes) (nonce : Nonce) (aad plaintext : Bytes) :
    (sealWithAad A key nonce aad plaintext).length = 45 + plaintext.length := by
  have hmagic : (utf8 "PNR1").length = 4 := by decide
  simp only [sealWithAad, length_append, hmagic, nonce.length_eq, A.length_encrypt,
    length_singleton]
  omega

/-- Data sealed under the group key. -/
structure Sealed where
  keyEpoch : Nat
  /-- The first bytes of the key's check value. -/
  keyId : Bytes
  ciphertext : Bytes
  deriving DecidableEq, Repr

namespace GroupState

def sealAad (groupId : Bytes) (keyEpoch : Nat) (keyId context : Bytes) : Bytes :=
  put (put (put (put (utf8 "panora-group-seal/1") groupId) (u64Bytes keyEpoch)) keyId) context

/-- Encrypt under the current group key, bound to a context. -/
def «seal» (C : Crypto) (A : Aead) (s : GroupState) (nonce : Nonce)
    (context plaintext : Bytes) : Except Error Sealed :=
  s.isMember.bind fun member =>
    if member = false then .error (.roster "this device is not a member of the group")
    else (s.currentKey C).bind fun key =>
      match key with
      | none => .error (.roster "this device does not hold the current key yet")
      | some key => s.groupId.map fun gid =>
        let keyId := (key.check C gid).take 8
        { keyEpoch := key.epoch
          keyId := keyId
          ciphertext := sealWithAad A key.key nonce (sealAad gid key.epoch keyId context)
            plaintext }

def sealRecord (C : Crypto) (A : Aead) (s : GroupState) (nonce : Nonce) (record : SyncRecord) :
    Except Error Sealed :=
  s.seal C A nonce (utf8 "sync-record") (toVec record.toJson)

/-- A sealed record is the record and the envelope around it, under the current key. -/
theorem sealRecord_eq {C : Crypto} {A : Aead} {s : GroupState} {nonce : Nonce}
    {record : SyncRecord} {sealed : Sealed} (h : s.sealRecord C A nonce record = .ok sealed) :
    sealed.ciphertext.length = 45 + recordSize record ∧
      ∃ key gid, s.currentKey C = .ok (some key) ∧ s.groupId = .ok gid ∧
        sealed.keyEpoch = key.epoch ∧ sealed.keyId = (key.check C gid).take 8 := by
  unfold sealRecord «seal» at h
  obtain ⟨member, -, h⟩ := bind_ok_iff.mp h
  rw [check_ok_iff] at h
  obtain ⟨key, hkey, h⟩ := bind_ok_iff.mp h.2
  split at h
  next => cases h
  next key =>
    obtain ⟨gid, hgid, rfl⟩ := map_ok_iff.mp h
    refine ⟨?_, key, gid, hkey, hgid, rfl, rfl⟩
    rw [length_sealWithAad, length_toVec, size_recordJson]

end GroupState

end Group

/-! ## §3. Frames -/

namespace Sync

open Panora.Group Panod

/-- Largest frame a member may send. -/
def maxSyncFrame : Nat := 64 * 1024 * 1024

/-- Records asked of the daemon per push. -/
def page : Nat := 32

/-- The records of a page the peer did not make itself. -/
def outgoing (peerDevice : Option String) (records : List SyncRecord) : List SyncRecord :=
  records.filter (fun r => some r.deviceId ≠ peerDevice)

/-- Seal records, each under a nonce of its own. -/
def sealRecords (C : Crypto) (A : Aead) (group : Option GroupState) (draw : Nat → Nonce)
    (records : List SyncRecord) : Except Group.Error (List Sealed) :=
  match group with
  | none => .error (.roster "no group")
  | some s => records.zipIdx.mapM (fun r => s.sealRecord C A (draw r.2) r.1)

/-- A sealed record without its ciphertext. -/
def headJson (s : Sealed) : Text :=
  obj [("key_epoch", num s.keyEpoch), ("key_id", base64Json urlSafeNoPad s.keyId)]

/-- `Message::Records`. -/
def recordsJson (batch : Nat) (sealed : List Sealed) : Text :=
  obj [("type", str "records"), ("batch", num batch),
    ("sealed", arr (sealed.map headJson))]

/-- The epoch of the key a group seals under, and the first 8 bytes of its check value. -/
def sealingKey (C : Crypto) (group : Option GroupState) : Nat × Bytes :=
  match group with
  | none => (0, [])
  | some s =>
    match s.currentKey C, s.groupId with
    | .ok (some key), .ok gid => (key.epoch, (key.check C gid).take 8)
    | _, _ => (0, [])

/-- The bytes of a head: the digits of the epoch, and the key id in base64. -/
def headSize (key : Nat × Bytes) : Nat :=
  26 + size (num key.1) + (4 * key.2.length + 2) / 3

/-- The bytes of message and blobs of a page: one head and one blob for each record. -/
def pageSize (key : Nat × Bytes) (batch : Nat) (records : List SyncRecord) : Nat :=
  39 + size (num batch) + records.length * headSize key + (records.length - 1)
    + (records.map (fun r => 45 + recordSize r)).sum

theorem size_headJson (s : Sealed) : size (headJson s) = headSize (s.keyEpoch, s.keyId) := by
  have hid : size (base64Json urlSafeNoPad s.keyId) = 2 + (4 * s.keyId.length + 2) / 3 :=
    size_base64Json (fun n => (size_escape_digits n).2) s.keyId
  have hnames : size (str "key_epoch") = 11 ∧ size (str "key_id") = 8 := by
    decide
  rw [headJson, size_obj]
  simp only [map_cons, map_nil, sum_cons, sum_nil, length_cons,
    length_nil, hnames, hid]
  simp only [headSize]
  omega

theorem size_recordsJson (batch : Nat) (sealed : List Sealed) :
    size (recordsJson batch sealed)
      = 39 + size (num batch) + (sealed.map (fun s => headSize (s.keyEpoch, s.keyId))).sum
        + (sealed.length - 1) := by
  have hheads : (sealed.map headJson).map size
      = sealed.map (fun s => headSize (s.keyEpoch, s.keyId)) := by
    rw [map_map]
    exact map_congr_left (fun s _ => size_headJson s)
  have hnames : size (str "type") = 6 ∧ size (str "records") = 9 ∧
      size (str "batch") = 7 ∧ size (str "sealed") = 8 := by
    decide
  rw [recordsJson, size_obj]
  simp only [map_cons, map_nil, sum_cons, sum_nil, length_cons,
    length_nil, hnames, size_arr, hheads, length_map]
  omega

section

variable {C : Crypto} {A : Aead} {group : Option GroupState} {draw : Nat → Nonce}
  {records : List SyncRecord} {sealed : List Sealed}

/-- One sealed record for each record, in order, all under one key. -/
theorem heads_sealRecords (h : sealRecords C A group draw records = .ok sealed) :
    sealed.map (fun s => (s.ciphertext.length, s.keyEpoch, s.keyId))
      = records.map (fun r => (45 + recordSize r, sealingKey C group)) := by
  unfold sealRecords at h
  cases group with
  | none => cases h
  | some s =>
    have hone : ∀ (r : SyncRecord × Nat) (sealed : Sealed),
        s.sealRecord C A (draw r.2) r.1 = .ok sealed →
          (sealed.ciphertext.length, sealed.keyEpoch, sealed.keyId)
            = (45 + recordSize r.1, sealingKey C (some s)) := by
      intro r sealed hr
      obtain ⟨hlength, key, gid, hkey, hgid, hepoch, hid⟩ := GroupState.sealRecord_eq hr
      simp only [sealingKey, hkey, hgid, hlength, hepoch, hid]
    have hheads : sealed.map (fun s => (s.ciphertext.length, s.keyEpoch, s.keyId))
        = records.zipIdx.map (fun r => (45 + recordSize r.1, sealingKey C (some s))) :=
      map_of_mapM_ok hone h
    rw [hheads, show (fun r : SyncRecord × Nat => (45 + recordSize r.1, sealingKey C (some s)))
      = (fun r => (45 + recordSize r, sealingKey C (some s))) ∘ Prod.fst from rfl, ← map_map,
      zipIdx_map_fst]

/-- **The bytes of message and blobs of a page.** -/
theorem length_frame (h : sealRecords C A group draw records = .ok sealed) (batch : Nat) :
    (toVec (recordsJson batch sealed)).length + Frame.totalBytes (sealed.map Sealed.ciphertext)
      = pageSize (sealingKey C group) batch records := by
  have hheads := heads_sealRecords h
  have hread : ∀ {β : Type} (f : Nat × Nat × Bytes → β),
      sealed.map (fun s => f (s.ciphertext.length, s.keyEpoch, s.keyId))
        = records.map (fun r => f (45 + recordSize r, sealingKey C group)) := by
    intro β f
    have hmap := congrArg (List.map f) hheads
    rw [map_map, map_map] at hmap
    exact hmap
  have hblobs := hread Prod.fst
  have hsizes : sealed.map (fun s => headSize (s.keyEpoch, s.keyId))
      = records.map (fun _ => headSize (sealingKey C group)) := hread (fun t => headSize t.2)
  have hcount := congrArg length hblobs
  rw [length_map, length_map] at hcount
  rw [length_toVec, size_recordsJson, Frame.totalBytes, map_map, pageSize, hsizes, hcount,
    map_const', sum_replicate, smul_eq_mul]
  exact congrArg (_ + ·) (congrArg List.sum hblobs)

theorem length_sealRecords (h : sealRecords C A group draw records = .ok sealed) :
    sealed.length = records.length := by
  have hlengths := congrArg length (heads_sealRecords h)
  rw [length_map, length_map] at hlengths
  exact hlengths

/-- A device that holds the current key seals everything. -/
theorem sealRecords_ok {s : GroupState} {key : GroupKey} {gid : Bytes}
    (hmember : s.isMember = .ok true) (hkey : s.currentKey C = .ok (some key))
    (hgid : s.groupId = .ok gid) (A : Aead) (draw : Nat → Nonce) (records : List SyncRecord) :
    ∃ sealed, sealRecords C A (some s) draw records = .ok sealed := by
  refine mapM_ok_iff.mpr (fun r _ => ?_)
  unfold GroupState.sealRecord GroupState.seal
  rw [hmember, ok_bind, if_neg (by simp), hkey, ok_bind, hgid]
  exact ⟨_, rfl⟩

/-! ## §4. Which pages get across -/

/-- The peer reads the frame of these records. -/
def GetsAcross {T : Type} (fromSlice : Bytes → Except Error T) (message : T) (batch : Nat)
    (sealed : List Sealed) : Prop :=
  ∃ out, Frame.write (toVec (recordsJson batch sealed)) (sealed.map Sealed.ciphertext) = .ok out ∧
    Frame.read fromSlice maxSyncFrame out = .ok ((message, sealed.map Sealed.ciphertext), [])

variable {T : Type} {fromSlice : Bytes → Except Error T} {message : T} {batch : Nat}

/-- A page beyond the limit does not get across. -/
theorem not_getsAcross (hsealed : sealRecords C A group draw records = .ok sealed)
    (hmessage : fromSlice (toVec (recordsJson batch sealed)) = .ok message)
    (hlarge : maxSyncFrame < pageSize (sealingKey C group) batch records) :
    ¬ GetsAcross fromSlice message batch sealed := by
  rintro ⟨out, hwrite, hread⟩
  have hcount := (Frame.write_eq_ok.mp hwrite).1
  have hfits := (Frame.written_and_read_iff hmessage hcount (by decide)).mp ⟨out, hwrite, hread⟩
  rw [length_frame hsealed batch] at hfits
  omega

/-- **Which pages the peer reads**: those whose records, with payloads in base64 and sealed,
    and the heads before them, each with the epoch and the id of the group's key, are within the
    limit of a frame. -/
theorem records_frame_read_iff {env : Env} {d : Daemon} {since next : Int} {scope : SyncScope}
    {more : Bool} {peerDevice : Option String}
    (hpage : syncChanges env d since page scope = .ok (records, next, more))
    (hsealed : sealRecords C A group draw (outgoing peerDevice records) = .ok sealed)
    (hmessage : fromSlice (toVec (recordsJson batch sealed)) = .ok message) :
    GetsAcross fromSlice message batch sealed ↔
      pageSize (sealingKey C group) batch (outgoing peerDevice records) ≤ maxSyncFrame := by
  have hcount : (sealed.map Sealed.ciphertext).length ≤ Frame.maxBlobs := by
    have hpagelen : records.length ≤ 32 := length_syncChanges hpage
    have hout : (outgoing peerDevice records).length ≤ records.length :=
      length_filter_le _ _
    rw [length_map, length_sealRecords hsealed]
    show _ ≤ 64
    omega
  rw [← length_frame hsealed batch]
  exact Frame.written_and_read_iff hmessage hcount (by decide)

/-- Payloads take four bytes for each three. -/
theorem payloadBytes_le_pageSize {r : SyncRecord} (hr : r ∈ records) (key : Nat × Bytes)
    (batch : Nat) : 4 * payloadBytes r.payloads < 3 * pageSize key batch records := by
  have hpayload : ∀ l : List MimePayload,
      4 * payloadBytes l ≤ 3 * (l.map payloadSize).sum := by
    intro l
    induction l with
    | nil => simp [payloadBytes]
    | cons p l ih =>
      have hp : 4 * p.data.length ≤ 3 * payloadSize p := by
        unfold payloadSize
        omega
      simp only [payloadBytes, map_cons, sum_cons] at ih ⊢
      omega
  have hone : 45 + recordSize r ≤ (records.map (fun r => 45 + recordSize r)).sum :=
    single_le_sum (by simp) _ (mem_map_of_mem (f := fun r => 45 + recordSize r) hr)
  have hrecord : (r.payloads.map payloadSize).sum ≤ recordSize r := by
    unfold recordSize
    omega
  have := hpayload r.payloads
  unfold pageSize
  omega

end

namespace Sample

open Panod.Sample Storage Database

/-- The sample's environment, with formats of up to 24 MiB recorded. -/
def env : Env :=
  { Panod.Sample.env with
    config := { Sample.config with
      maxMimeBytes := 24 * 1024 * 1024
      maxMimeBytes_range := by decide } }

/-- A copy of these formats. -/
def clip (payloads : List MimePayload) : ClipboardData := ⟨.clipboard, payloads, [], none⟩

/-- A new history into which they are copied. -/
def history (payloads : List MimePayload) : Daemon := (Op.exec (storeRow env (clip payloads)) fresh).2

/-- The same with the row of the copy only, its formats not yet stored. -/
def rowOnly (payloads : List MimePayload) : Daemon :=
  (Op.exec (do
    let lamport ← updateDb tickLamport
    let id ← Op.step (fun d =>
      let (id, db) := d.db.upsertEntry d.dbCipher (newEntry env (clip payloads) lamport)
      (id, { d with db }))
    changeDb (fun db => db.stamp id lamport env.deviceId)
    markSecret env (clip payloads) id
    indexCapture env (clip payloads) id) fresh).2

theorem exec_storeRow_fresh (payloads : List MimePayload) :
    Op.exec (storeRow env (clip payloads)) fresh = Op.exec (do
      payloads.forM (fun p => storeBlob env 1 p.mime p.data)
      pure 1) (rowOnly payloads) := rfl

/-- The row of the copy. -/
theorem exists_row (payloads : List MimePayload) :
    ∃ r, (rowOnly payloads).db.entries.rows = [r] ∧
      (rowOnly payloads).db.entries.get 1 = some r ∧ r.id = 1 ∧ shown r = true ∧
      r.cols.deleted = false ∧ r.cols.changeSeq = 2 ∧ (rowOnly payloads).db.changeSeq = 2 ∧
      r.key = keyOf env (clip payloads) :=
  ⟨_, rfl, rfl, rfl, rfl, rfl, rfl, rfl, rfl⟩

/-- **A page of a copy**: what was copied is what is handed out. -/
theorem page_of_copy {payloads : List MimePayload} (hmimes : ∀ p ∈ payloads, p.mime ≠ thumbnailMime)
    (hnodup : (payloads.map MimePayload.mime).Nodup)
    (hnames : ∀ p ∈ payloads, ∀ q ∈ payloads,
      hash.contentHash p.data = hash.contentHash q.data → p.data = q.data)
    (hpreferred : Preferred payloads) (hfew : payloads.length ≤ maxFdsPerFrame)
    (hsmall : payloadBytes payloads ≤ syncMaxEntryBytes) :
    ∃ record, syncChanges env (history payloads) 0 page ⟨false, false⟩ = .ok ([record], 2, false) ∧
      record.payloads = payloads := by
  obtain ⟨r, hrows, hget, hid, hshown, hlive, hseq, hcounter, hkey⟩ := exists_row payloads
  have happart : Apart env.hash (rowOnly payloads) payloads :=
    ⟨hnames, fun p _ hsome => absurd hsome (by simp [show (rowOnly payloads).blobs
      = BlobStore.empty from rfl, BlobStore.file, BlobStore.empty, Keyed.lookup])⟩
  have hholds0 : Holds env.hash (rowOnly payloads) 1 [] := ⟨List.Perm.refl _, by simp⟩
  obtain ⟨d', hrun, hholds, haside⟩ := exec_storeBlobs_holds payloads (rowOnly payloads) []
    (Subset.refl _) hmimes hnodup hget happart hholds0
  have hhistory : history payloads = d' := by
    unfold history
    rw [exec_storeRow_fresh, Op.exec_bind_ok hrun]
    rfl
  rw [hhistory]
  have hrows' : d'.db.entries.rows = [r] := by rw [haside.entries, hrows]
  have hnum : Numbered d'.db := by
    refine ⟨?_, ?_, ?_⟩
    · rw [hrows']
      simp
    · rw [hrows']
      simp [hseq]
    · rw [hrows', haside.changeSeq, hcounter]
      simp [hseq]
  have hchanged : changedSince d'.db 0 = [r] := by
    unfold changedSince
    rw [hrows']
    simp [hshown, hseq]
  have hload : loadPayloads d' r.id = .ok payloads := by
    rw [hid]
    exact loadPayloads_of_holds (by rw [haside.entries]; exact hget) hlive hholds hpreferred
  have hsendable : sendable env r payloads = true := by
    unfold sendable
    rw [hkey]
    simp [keyOf, clip, hfew, hsmall]
  have hrecord : recordOf env d' ⟨false, false⟩ r = .ok (some (recordWith r payloads)) := by
    have hscope : SyncScope.includes ⟨false, false⟩ r.cols.kind r.cols.pinned r.cols.deleted
        = true := by
      rw [hlive]
      rfl
    rw [recordOf, if_pos hscope, payloadsOf, if_neg (by simp [hlive]), hload]
    show Except.ok (if sendable env r payloads then _ else _) = _
    rw [if_pos hsendable]
  have hpage := syncChanges_singleton hnum hchanged hrecord page
  rw [hseq] at hpage
  exact ⟨_, hpage, rfl⟩

/-- A cipher that only adds a tag. -/
def aead : Aead where
  encrypt _ _ _ message := message ++ replicate 16 0
  length_encrypt _ _ _ message := by simp

def nonce (_ : Nat) : Nonce := ⟨replicate 24 0, by simp⟩

/-- A group of this device alone. -/
def alone : Except Group.Error GroupState :=
  GroupState.create plainCrypto ⟨[7]⟩ "here" "laptop" 0 [1] [2]

/-- Whatever is handed out can be sealed. -/
theorem exists_sealed (records : List SyncRecord) :
    ∃ sealed, sealRecords plainCrypto aead alone.toOption nonce records = .ok sealed := by
  have hgroup : (alone.toOption.map (fun s => decide (s.isMember = .ok true ∧
      s.groupId = .ok [1] ∧ s.currentKey plainCrypto = .ok (some ⟨0, [2]⟩)))) = some true := by
    decide +kernel
  obtain ⟨s, hs, hfacts⟩ := Option.map_eq_some_iff.mp hgroup
  obtain ⟨hmember, hgid, hkey⟩ := of_decide_eq_true hfacts
  rw [hs]
  exact sealRecords_ok hmember hkey hgid aead nonce records

/-- A picture of 24 MiB. -/
def picture (b : Byte) : Bytes := replicate (24 * 1024 * 1024) b

/-- One copy in two formats, each as large as one may be here. -/
def pictures : List MimePayload := [⟨"image/png", picture 0⟩, ⟨"image/jpeg", picture 1⟩]

theorem length_picture (b : Byte) : (picture b).length = 24 * 1024 * 1024 :=
  length_replicate

theorem payloadBytes_pictures : payloadBytes pictures = 48 * 1024 * 1024 := by
  simp only [payloadBytes, pictures, map_cons, map_nil, sum_cons, sum_nil,
    length_picture]
  omega

theorem contentHash_picture_ne : hash.contentHash (picture 0) ≠ hash.contentHash (picture 1) := by
  decide +kernel

theorem page_of_pictures :
    ∃ record, syncChanges env (history pictures) 0 page ⟨false, false⟩ = .ok ([record], 2, false) ∧
      record.payloads = pictures := by
  refine page_of_copy ?_ (by decide) ?_ ?_ (by decide) (by rw [payloadBytes_pictures]; decide)
  · intro p hp
    rcases mem_pair.mp hp with rfl | rfl
    · decide
    · decide
  · intro p hp q hq hsame
    rcases mem_pair.mp hp with rfl | rfl <;> rcases mem_pair.mp hq with rfl | rfl
    · rfl
    · exact absurd hsame contentHash_picture_ne
    · exact absurd hsame.symm contentHash_picture_ne
    · rfl
  · refine pairwise_pair.mpr ?_
    show mimeRank "image/png" < mimeRank "image/jpeg"
    decide +kernel

/-- **Two pictures of 24 MiB copied at once** are handed out in one page, and the peer
    does not read the frame: in base64 they alone are as large as a frame may be. -/
theorem two_pictures_do_not_get_across :
    ∃ record sealed,
      syncChanges env (history pictures) 0 page ⟨false, false⟩ = .ok ([record], 2, false) ∧
      sealRecords plainCrypto aead alone.toOption nonce (outgoing none [record]) = .ok sealed ∧
      maxSyncFrame < pageSize (sealingKey plainCrypto alone.toOption) 1 [record] ∧
      ¬ GetsAcross (fun _ => .ok ()) () 1 sealed := by
  obtain ⟨record, hpage, hpayloads⟩ := page_of_pictures
  obtain ⟨sealed, hsealed⟩ := exists_sealed [record]
  have hlarge : maxSyncFrame < pageSize (sealingKey plainCrypto alone.toOption) 1 [record] := by
    have hsize := payloadBytes_le_pageSize (mem_singleton_self record)
      (sealingKey plainCrypto alone.toOption) 1
    rw [hpayloads, payloadBytes_pictures] at hsize
    unfold maxSyncFrame
    omega
  exact ⟨record, sealed, hpage, hsealed, hlarge, not_getsAcross hsealed rfl hlarge⟩

/-- A history of a short text. -/
def noted : Daemon := history [⟨"text/plain", [97]⟩]

/-- Its page is small: an epoch of one digit, a key id of 8 bytes, and a byte of text. -/
theorem pageSize_noted :
    (syncChanges env noted 0 page ⟨false, false⟩).map
        (fun p => pageSize (sealingKey plainCrypto alone.toOption) 1 (outgoing none p.1))
      = .ok 409 := by
  decide +kernel

/-- A page of a short text gets across. -/
theorem records_frame_read_of_note :
    ∃ records next more sealed,
      syncChanges env noted 0 page ⟨false, false⟩ = .ok (records, next, more) ∧
      sealRecords plainCrypto aead alone.toOption nonce (outgoing none records) = .ok sealed ∧
      GetsAcross (fun _ => .ok ()) () 1 sealed := by
  obtain ⟨⟨records, next, more⟩, hpage, hsize⟩ := map_ok_iff.mp pageSize_noted
  obtain ⟨sealed, hsealed⟩ := exists_sealed (outgoing none records)
  have hread : GetsAcross (fun _ => .ok ()) () 1 sealed ↔
      pageSize (sealingKey plainCrypto alone.toOption) 1 (outgoing none records) ≤ maxSyncFrame :=
    records_frame_read_iff hpage hsealed rfl
  refine ⟨records, next, more, sealed, hpage, hsealed, hread.mpr ?_⟩
  rw [hsize]
  decide

end Sample

end Sync

end Panora
