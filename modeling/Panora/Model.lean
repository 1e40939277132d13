/-
  Panora.Model — clipboard content, sync records, and who wins.

  `crates/panora-core/src/model.rs` and `sync.rs`: the data that moves between
  the store, the daemon and other devices, and the order that decides between
  two states of one entry.
-/
import Panora.Bytes

namespace Panora

/-! ## §1. Content -/

/-- Which selection an entry came from. -/
inductive Selection where
  | clipboard
  | primary
  deriving DecidableEq, Repr

/-- High-level content classification. -/
inductive ContentKind where
  | text
  | richText
  | link
  | image
  | fileList
  | color
  | binary
  deriving DecidableEq, Repr

/-- One MIME payload of an entry. -/
structure MimePayload where
  mime : String
  data : Bytes
  deriving DecidableEq, Repr

/-- A captured clipboard event before it is persisted. -/
structure ClipboardData where
  selection : Selection
  /-- Payloads, in preference order. -/
  payloads : List MimePayload
  offeredMimes : List String
  sourceApp : Option String
  deriving DecidableEq, Repr

/-- Total size of all payloads in bytes. -/
def ClipboardData.totalSize (data : ClipboardData) : Nat :=
  (data.payloads.map (fun p => p.data.length)).sum

/-- An entry is the same entry on every device by this pair; it is also what
    deduplicates it locally. -/
structure EntryKey where
  contentHash : String
  selection : Selection
  deriving DecidableEq, Repr

/-! ## §2. Sync records -/

/-- Lamport values from a peer must stay below this. -/
def lamportCeiling : Int := 2 ^ 53

/-- The local clock follows a Lamport value only below this. -/
def lamportObserveLimit : Int := 2 ^ 52

/-- The state of one history entry as it travels between devices. -/
structure SyncRecord where
  contentHash : String
  selection : Selection
  sourceApp : Option String
  createdAt : Int
  lastSeenAt : Int
  pinned : Bool
  /-- Tombstone: the entry was deleted. -/
  deleted : Bool
  /-- Device that made this state. -/
  deviceId : String
  /-- Lamport clock value of this state on that device. -/
  lamport : Int
  /-- The entry's formats; empty for a tombstone. -/
  payloads : List MimePayload
  deriving DecidableEq, Repr

/-- The entry a record is about. -/
def SyncRecord.key (r : SyncRecord) : EntryKey := ⟨r.contentHash, r.selection⟩

/-- How new a state is: Lamport value first, then the device id. -/
abbrev Stamp := Int ×ₗ String

/-- The stamp of a Lamport value and a device id. -/
def stampOf (lamport : Int) (deviceId : String) : Stamp := toLex (lamport, deviceId)

/-- The stamp of a record. -/
def SyncRecord.stamp (r : SyncRecord) : Stamp := stampOf r.lamport r.deviceId

/-- Last-writer-wins: does the remote state supersede the local one? -/
def lwwWins (remote «local» : Stamp) : Bool := decide («local» < remote)

/-- Which entries a device shares. -/
structure SyncScope where
  pinnedOnly : Bool
  textOnly : Bool
  deriving DecidableEq, Repr

/-- Whether an entry of this kind and pin state is shared; tombstones always are. -/
def SyncScope.includes (s : SyncScope) (kind : ContentKind) (pinned deleted : Bool) : Bool :=
  if deleted then true
  else
    let textLike := match kind with
      | .text | .richText | .link | .color => true
      | _ => false
    (!s.pinnedOnly || pinned) && (!s.textOnly || textLike)

end Panora
