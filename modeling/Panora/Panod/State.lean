/-
  Panora.Panod.State — the daemon's state, and what a request runs in.

  `crates/panod/src/daemon.rs` and `crates/panora-core/src/config.rs`.  A request
  is an operation on the database and the blob directory; it runs in an
  environment that does not change while it runs: the configuration, the clock,
  this device's id, and what the classification of content, the privacy gate and
  the thumbnail renderer answer.
-/
import Panora.Lib.Op
import Panora.Storage.Blobs
import Panora.Storage.Retention

namespace Panora.Panod

open Storage Lib

/-- `history.duplicate_policy`. -/
inductive DuplicatePolicy where
  | bump
  | ignore
  deriving DecidableEq, Repr

/-- `privacy.sensitive_policy`. -/
inductive SensitivePolicy where
  | mask
  | store
  | drop
  deriving DecidableEq, Repr

/-- The part of the configuration the history depends on, with the bounds that
    `Config::validate` asks for. -/
structure Config where
  recordPrimary : Bool
  maxEntries : Nat
  maxAgeDays : Nat
  maxMimeBytes : Nat
  indexFullText : Bool
  maxTotalBytes : Nat
  /-- Images kept; no function of the daemon reads it. -/
  maxImages : Nat
  duplicatePolicy : DuplicatePolicy
  sensitivePolicy : SensitivePolicy
  sensitiveTtlMinutes : Nat
  syncEnabled : Bool
  tombstoneDays : Nat
  maxEntries_range : 1 ≤ maxEntries ∧ maxEntries ≤ 100000
  maxAgeDays_range : maxAgeDays ≤ 36500
  maxMimeBytes_range : 1 ≤ maxMimeBytes ∧ maxMimeBytes ≤ 40 * 1024 * 1024
  maxTotalBytes_range : maxTotalBytes ≤ Database.u64Max
  sensitiveTtlMinutes_range : sensitiveTtlMinutes ≤ 525600
  tombstoneDays_range : 1 ≤ tombstoneDays ∧ tombstoneDays ≤ 365

/-- What is found out about content, and what the privacy gate says of it. -/
structure Content where
  classify : ClipboardData → ContentKind
  text : ClipboardData → String
  makePreview : String → ClipboardData → String
  /-- The label of a secret the text looks like. -/
  detect : String → Option String
  indexText : String → ContentKind → Option String
  /-- A small picture, if the bytes decode. -/
  renderThumbnail : Bytes → Option Bytes
  privacyAllows : ClipboardData → Bool
  contentAllowed : ClipboardData → Bool

/-- What a request runs in. -/
structure Env where
  hash : Hash
  content : Content
  config : Config
  engine : Engine
  deviceId : String
  now : Int

/-- The daemon: its database and blob directory, and the keys they are open under. -/
structure Daemon where
  db : Database
  dbCipher : Key
  blobs : BlobStore
  blobCipher : Key
  deriving DecidableEq

/-- A request to the daemon. -/
abbrev Request (α : Type) := Op Daemon Error α

variable {α : Type}

/-- A statement that may fail. -/
def onDb (f : Database → Except Error (α × Database)) : Request α :=
  Op.attempt (fun d => (f d.db).map (fun (a, db) => (a, { d with db })))

/-- A statement that changes the database or fails. -/
def changeDb (f : Database → Except Error Database) : Request Unit :=
  onDb (fun db => (f db).map (fun db => ((), db)))

/-- A statement that cannot fail. -/
def updateDb (f : Database → α × Database) : Request α :=
  Op.step (fun d => ((f d.db).1, { d with db := (f d.db).2 }))

/-- A query. -/
def readDb (f : Database → Key → α) : Request α := Op.reads (fun d => f d.db d.dbCipher)

section Rules

variable {d : Daemon} {db : Database} {a : α}

theorem exec_onDb_ok {f : Database → Except Error (α × Database)} (h : f d.db = .ok (a, db)) :
    Op.exec (onDb f) d = (.ok a, { d with db }) :=
  Op.exec_attempt_ok (by rw [h]; rfl)

variable {f : Database → Except Error Database}

theorem exec_changeDb_ok (h : f d.db = .ok db) : Op.exec (changeDb f) d = (.ok (), { d with db }) :=
  exec_onDb_ok (by rw [h]; rfl)

theorem exec_changeDb_error {e : Error}
    (h : f d.db = .error e) : Op.exec (changeDb f) d = (.error e, d) :=
  Op.exec_attempt_error (by simp only [h]; rfl)

@[simp] theorem exec_updateDb (f : Database → α × Database) (d : Daemon) :
    Op.exec (updateDb f) d = (.ok (f d.db).1, { d with db := (f d.db).2 }) := rfl

@[simp] theorem exec_readDb (f : Database → Key → α) (d : Daemon) :
    Op.exec (readDb f) d = (.ok (f d.db d.dbCipher), d) := rfl

theorem keeps_onDb {R : Daemon → Daemon → Prop} (hrefl : ∀ d, R d d)
    {f : Database → Except Error (α × Database)}
    (h : ∀ d a db, f d.db = .ok (a, db) → R d { d with db }) : Op.Keeps R (onDb f) :=
  Op.keeps_attempt_map hrefl fun d ⟨a, db⟩ hrun => h d a db hrun

theorem keeps_changeDb {R : Daemon → Daemon → Prop} (hrefl : ∀ d, R d d)
    (h : ∀ d db, f d.db = .ok db → R d { d with db }) : Op.Keeps R (changeDb f) := by
  refine keeps_onDb hrefl fun d a db hrun => ?_
  obtain ⟨db', hdb, heq⟩ := Fallible.map_ok_iff.mp hrun
  cases heq
  exact h d db hdb

end Rules

end Panora.Panod
