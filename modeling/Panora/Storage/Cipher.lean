/-
  Panora.Storage.Cipher — keys, envelopes, content hashes.

  `crates/panora-core/src/storage/crypto.rs`.  Encryption is ideal: an envelope
  opens under the key and the associated data it was sealed with and under no
  others.  Two formats are read: the versioned envelope, bound to its context by
  associated data, and the one before it, which has none.

  BLAKE3 enters as a function (`Hash`): what it gives is a valid blob name.
-/
import Panora.Model

namespace Panora.Storage

/-- The 32-byte master key. -/
abbrev Key := Bytes

/-- A sealed value. -/
inductive Envelope (α : Type) where
  /-- The current format: bound to associated data. -/
  | versioned (key : Key) (aad : String) (plain : α)
  /-- The format before versions: no associated data. -/
  | legacy (key : Key) (plain : α)
  deriving DecidableEq, Repr

variable {α : Type}

/-- Seal under associated data; new envelopes are always versioned. -/
def sealWithAad (cipher : Key) (aad : String) (plain : α) : Envelope α :=
  .versioned cipher aad plain

/-- Open an envelope bound to `aad`; the old format only where none is asked for. -/
def openWithAad (cipher : Key) (aad : String) : Envelope α → Option α
  | .versioned key aad' plain => if key = cipher ∧ aad' = aad then some plain else none
  | .legacy key plain => if aad ≠ "" then none else if key = cipher then some plain else none

/-- Open an envelope without associated data. -/
def openPlain (cipher : Key) (e : Envelope α) : Option α := openWithAad cipher "" e

/-- Open what is stored under `aad`, in the current format or an older one. -/
def openStored (cipher : Key) (aad : String) (e : Envelope α) : Option α :=
  (openWithAad cipher aad e).or (openPlain cipher e)

/-- The key an envelope was sealed under. -/
def Envelope.sealedUnder : Envelope α → Key
  | .versioned key _ _ => key
  | .legacy key _ => key

/-- What is in an envelope. -/
def Envelope.plain : Envelope α → α
  | .versioned _ _ plain => plain
  | .legacy _ plain => plain

@[simp] theorem openStored_seal (cipher : Key) (aad : String) (plain : α) :
    openStored cipher aad (sealWithAad cipher aad plain) = some plain := by
  simp [openStored, sealWithAad, openWithAad]

/-- An operation of the store that failed. -/
inductive Error where
  /-- A row that does not exist. -/
  | notFound (id : Nat)
  /-- A constraint of the database refused. -/
  | database
  /-- A file that cannot be read. -/
  | io
  /-- A ciphertext that does not open. -/
  | crypto
  | config (message : String)
  | storage (message : String)
  deriving DecidableEq, Repr

/-! ## Hashes -/

/-- `validate_hash`: 64 lowercase hex digits. -/
def validHash (name : String) : Bool :=
  name.length == 64 && name.toList.all (fun c => c.isDigit || ('a' ≤ c && c ≤ 'f'))

/-- BLAKE3, hex-encoded, and the key fingerprint derived with it. -/
structure Hash where
  contentHash : Bytes → String
  contentHash_valid : ∀ data, validHash (contentHash data) = true
  fingerprint : Key → String

/-- The hash that identifies an entry: over every format's name and bytes, in order. -/
def Hash.payloadHash (h : Hash) (payloads : List MimePayload) : String :=
  h.contentHash (payloads.flatMap (fun p => utf8 p.mime ++ p.data))

end Panora.Storage
