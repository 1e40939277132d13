/-
  Panora.Keys.Serve — the requests of the socket, and what they are answered.

  `handle_request` of `crates/panod/src/server.rs`, with `Daemon::store_external`, `import`,
  `status` and `Database::stats`.  Requests are served one after another.  What is not the
  daemon's own (the clock, the keyring, the clipboard, the configuration file, the archive
  format) answers as a `World` says.

  The requests the second-layer lock refuses are the ones that hand history out; what they
  answer when it is not engaged enters as a function (`Shown`).
-/
import Panora.Keys.Lock
import Panora.Panod.BlobUse

namespace Panora.Keys

open Storage Lib Panod

/-! ## §1. Requests and responses -/

/-- The parameters of a query. -/
structure QueryRequest where
  search : Option String
  kind : Option String
  pinnedOnly : Bool
  limit : Nat
  offset : Nat
  deriving DecidableEq

/-- What a client asks. -/
inductive Ask where
  | list (query : QueryRequest)
  | recallEntry (id : Nat) (paste : Bool) (mime : Option String) (target : Selection)
  | pin (id : Nat) (pinned : Bool)
  | delete (id : Nat)
  | clear
  | setPrivate (enabled : Bool)
  | toggle
  | status
  | stats
  | preview (id : Nat) (thumbnail : Bool)
  | reloadConfig
  | rotateKey
  | lock
  | unlock (password : String)
  | setLockPassword (new current : Option String)
  | wipe
  | exported (passphrase : String)
  | imported (passphrase : String) (archive : Bytes)
  | restore (id : Nat)
  | store (payloads : List MimePayload) (sourceApp : Option String) (copy : Bool)
  | hello (maxProtocol : Nat)
  | subscribe
  | syncChanges (since : Int) (limit : Nat) (scope : SyncScope)
  | syncApply (records : List SyncRecord)

/-- What a request fails with; the client gets the text of it. -/
inductive Failure where
  | storage (e : Error)
  | ipc (message : String)
  | backend (message : String)
  | config (message : String)
  | tooLarge (size limit : Nat)
  | privacyRejected
  deriving DecidableEq, Repr

/-- Aggregate history statistics. -/
structure StatsData where
  total : Nat
  pinned : Nat
  sensitive : Nat
  byKind : List (ContentKind × Nat)
  totalBytes : Int
  oldestAt : Option Int
  newestAt : Option Int
  deriving DecidableEq, Repr

/-- The health of the daemon, as far as it depends on its state. -/
structure StatusData where
  entries : Nat
  privateMode : Bool
  revision : Nat
  locked : Bool
  appLocked : Bool
  lockPasswordSet : Bool
  rotationIncomplete : Bool
  deriving DecidableEq, Repr

/-- What a request is answered. -/
inductive Reply where
  | entries (l : List Entry)
  | count (n : Nat)
  | empty
  | recalled (pasted : Bool)
  | payloads (l : List MimePayload)
  | archive (bytes : Bytes)
  | status (s : StatusData)
  | stats (s : StatsData)
  | hello (protocol : Nat)
  | syncChanges (records : List SyncRecord) (next : Int) (more : Bool)
  | syncApplied (applied ignored rejected : Nat)
  | failure (f : Failure)
  deriving DecidableEq

/-- The protocol the daemon speaks. -/
def protocolVersion : Nat := 3

def lockedError : Failure := .ipc "history is locked; unlock with: panora-cli unlock"

def subscribeError : Failure := .ipc "Subscribe requires the v3 protocol"

def nothingToStore : Failure := .backend "nothing to store"

/-- The daemon as the socket sees it. -/
structure Server where
  vault : Vault
  privateMode : Bool
  /-- The session is locked: the screensaver is on. -/
  sessionLocked : Bool
  /-- Counts the changes clients should look at. -/
  revision : Nat

/-- What a request meets outside the daemon. -/
structure World where
  env : Env
  /-- Whether the keyring answers the request's call number `n`. -/
  keyring : Nat → Bool
  /-- What is generated on the way. -/
  verifierSalt : String
  kekSalt : String
  generated : Key
  /-- Whether the configuration can be read, and the popup be shown. -/
  reload : Except Failure Unit
  gui : Except Failure Unit
  /-- What offering these payloads on the clipboard answers. -/
  offer : List MimePayload → Except Failure Unit
  openArchive : String → Bytes → Except Failure (List (BackupEntry × List MimePayload))

/-- What a request that hands history out does when it may: the daemon after it, the changes
    it announces, and its answer. -/
abbrev Shown := Env → Daemon → Ask → Daemon × Nat × Reply

/-! ## §2. Queries -/

/-- The rows of the visible history. -/
def liveRows (db : Database) : List EntryRow := db.entries.rows.filter (fun r => !r.cols.deleted)

/-- Visible history count. -/
def count (db : Database) : Nat := (liveRows db).length

/-- The kinds, in the order of their names. -/
def kinds : List ContentKind := [.binary, .color, .fileList, .image, .link, .richText, .text]

/-- How many rows are of each kind that occurs, most first. -/
def byKind (occurring : List ContentKind) : List (ContentKind × Nat) :=
  (((kinds.map (fun k => (k, occurring.count k))).filter (fun p => 0 < p.2)).insertionSort
    (fun a b => b.2 ≤ a.2))

/-- Aggregate statistics of the visible history. -/
def stats (db : Database) : StatsData where
  total := (liveRows db).length
  pinned := ((liveRows db).filter (fun r => r.cols.pinned)).length
  sensitive := ((liveRows db).filter (fun r => r.cols.sensitive)).length
  byKind := byKind ((liveRows db).map (fun r => r.cols.kind))
  totalBytes := ((liveRows db).map (fun r => r.cols.sizeBytes)).sum
  oldestAt := ((liveRows db).map (fun r => r.cols.lastSeenAt)).min?
  newestAt := ((liveRows db).map (fun r => r.cols.lastSeenAt)).max?

/-- Daemon health. -/
def status (s : Server) : StatusData where
  entries := count s.vault.daemon.db
  privateMode := s.privateMode
  revision := s.revision
  locked := s.sessionLocked
  appLocked := s.vault.appLocked
  lockPasswordSet := s.vault.lockSecret.isSome
  rotationIncomplete := s.vault.daemon.db.rotationState.isSome

/-! ## §3. Serving -/

/-- The daemon does something to its history, announces it and answers. -/
def onHistory {α : Type} (s : Server) (x : Request α) (reply : α → Reply) : Server × Reply :=
  match Op.exec x s.vault.daemon with
  | (.ok a, d) =>
    ({ s with vault := { s.vault with daemon := d }, revision := s.revision + 1 }, reply a)
  | (.error e, d) => ({ s with vault := { s.vault with daemon := d } }, .failure (.storage e))

/-- The daemon does something to its lock or its keys, announces it and answers. -/
def onVault (derive : DeriveKey) (w : World) (s : Server) (c : Command) : Server × Reply :=
  match perform derive w.env s.vault c w.keyring with
  | (v, .done) => ({ s with vault := v, revision := s.revision + 1 }, .empty)
  | (v, .failed message) => ({ s with vault := v }, .failure (.ipc message))
  | (v, .awaits _) => ({ s with vault := v }, .failure (.ipc keyringFailed))

/-- Something outside the daemon is asked to do the work. -/
def outside (s : Server) : Except Failure Unit → Server × Reply
  | .ok () => (s, .empty)
  | .error f => (s, .failure f)

/-- A request that hands history out. -/
def gated (shown : Shown) (w : World) (s : Server) (ask : Ask) (refusal : Reply) :
    Server × Reply :=
  if s.vault.appLocked then (s, refusal)
  else
    let after := shown w.env s.vault.daemon ask
    ({ s with
        vault := { s.vault with daemon := after.1 }
        revision := s.revision + after.2.1 }, after.2.2)

/-- What a client handed over, as a capture. -/
def handedOver (payloads : List MimePayload) (sourceApp : Option String) : ClipboardData where
  selection := .clipboard
  payloads := payloads.filter (fun p => !p.data.isEmpty)
  offeredMimes := payloads.map MimePayload.mime
  sourceApp := sourceApp

/-- Why what a client handed over is not recorded, if it is not. -/
def refusal (w : World) (s : Server) (data : ClipboardData) : Option Failure :=
  if s.sessionLocked then some .privacyRejected
  else if data.payloads = [] then some nothingToStore
  else match data.payloads.find? (fun p => w.env.config.maxMimeBytes < p.data.length) with
    | some p => some (.tooLarge p.data.length w.env.config.maxMimeBytes)
    | none =>
      if s.privateMode || !w.env.content.privacyAllows data || !w.env.content.contentAllowed data
      then some .privacyRejected
      else none

def noPayload (id : Nat) : Failure :=
  .backend ("entry " ++ toString id ++ " has no payload for the requested format")

/-- Put an entry on the clipboard. -/
def offerEntry (w : World) (d : Daemon) (entry : Entry) : Except Failure Unit :=
  match loadPayloads d entry.id with
  | .error e => .error (.storage e)
  | .ok [] => .error (noPayload entry.id)
  | .ok payloads => w.offer payloads

/-- Record what a client handed over as if it had been copied. -/
def storeExternal (w : World) (s : Server) (data : ClipboardData) (copy : Bool) :
    Server × Reply :=
  match refusal w s data with
  | some f => (s, .failure f)
  | none =>
    -- the change is announced before the entry is fetched, and nothing fails before that
    let after := Op.exec (store w.env data) s.vault.daemon
    let s' : Server :=
      { s with vault := { s.vault with daemon := after.2 }, revision := s.revision + 1 }
    match after.1 with
    | .error e => (s', .failure (.storage e))
    | .ok entry =>
      if copy then
        match offerEntry w after.2 entry with
        | .ok () => (s', .entries [entry])
        | .error f => (s', .failure f)
      else (s', .entries [entry])

/-- Restore an archive. -/
def importArchive (w : World) (s : Server) (passphrase : String) (archive : Bytes) :
    Server × Reply :=
  match w.openArchive passphrase archive with
  | .error f => (s, .failure f)
  | .ok [] => (s, .count 0)
  | .ok records => onHistory s (importAll w.env records) (fun _ => .count records.length)

/-- Re-read the configuration and apply it. -/
def reloadConfig (w : World) (s : Server) : Server × Reply :=
  match w.reload with
  | .error f => (s, .failure f)
  | .ok () => onHistory s (collectGarbage w.env) (fun _ => .empty)

/-- A password to set, with what is generated for it. -/
def World.newPassword (w : World) (password : String) : NewPassword :=
  ⟨password, w.verifierSalt, w.kekSalt, w.generated⟩

/-- Serve a request. -/
def respond (shown : Shown) (derive : DeriveKey) (w : World) (s : Server) :
    Ask → Server × Reply
  | .list query => gated shown w s (.list query) (.count (count s.vault.daemon.db))
  | .recallEntry id paste mime target =>
    gated shown w s (.recallEntry id paste mime target) (.failure lockedError)
  | .pin id pinned => onHistory s (setPinned w.env id pinned) (fun _ => .empty)
  | .delete id => onHistory s (Panod.delete w.env id) (fun _ => .empty)
  | .clear => onHistory s (Panod.clear w.env) .count
  | .setPrivate enabled =>
    ({ s with privateMode := enabled, revision := s.revision + 1 }, .empty)
  | .toggle => outside s w.gui
  | .status => (s, .status (status s))
  | .stats => (s, .stats (stats s.vault.daemon.db))
  | .preview id thumbnail => gated shown w s (.preview id thumbnail) (.failure lockedError)
  | .reloadConfig => reloadConfig w s
  | .rotateKey => onVault derive w s (.rotateKey w.generated)
  | .lock => onVault derive w s .lock
  | .unlock password => onVault derive w s (.unlock password w.env.now)
  | .setLockPassword new current =>
    onVault derive w s (.setLockPassword (new.map w.newPassword) current)
  | .wipe => onVault derive w s (.wipe w.generated)
  | .exported passphrase => gated shown w s (.exported passphrase) (.failure lockedError)
  | .imported passphrase archive => importArchive w s passphrase archive
  | .restore id => onHistory s (Panod.restore w.env id) (fun _ => .empty)
  | .store payloads sourceApp copy => storeExternal w s (handedOver payloads sourceApp) copy
  | .hello maxProtocol => (s, .hello (min maxProtocol protocolVersion))
  | .subscribe => (s, .failure subscribeError)
  | .syncChanges since limit scope =>
    gated shown w s (.syncChanges since limit scope) (.failure lockedError)
  | .syncApply records => gated shown w s (.syncApply records) (.failure lockedError)

/-- Whether a request counts as activity of the user. -/
def touches : Ask → Bool
  | .status => false
  | .hello _ => false
  | _ => true

/-- Record activity. -/
def touchActivity (s : Server) (now : Int) : Server :=
  { s with vault := { s.vault with lastActivity := now } }

/-- `handle_request`. -/
def handleRequest (shown : Shown) (derive : DeriveKey) (w : World) (s : Server) (ask : Ask) :
    Server × Reply :=
  respond shown derive w (if touches ask then touchActivity s w.env.now else s) ask

end Panora.Keys
