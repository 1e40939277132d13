import Panora.Group.CatchUp
import Panora.Group.Undo
import Panora.Storage.BlobMap
import Panora.Panod.Clock
import Panora.Panod.Title
import Panora.Panod.GiveBack
import Panora.Panod.Grammar
import Panora.Panod.Dates
import Panora.Panod.Persist
import Panora.Panod.Picture
import Panora.Panod.Archive
import Panora.Panod.Hops
import Panora.Panod.Times
import Panora.Keys.Backup
import Panora.Keys.Idle
import Panora.Sync.Cursor
import Panora.Sync.Pause
import Panora.Sync.Deadlock
import Panora.Sync.Duplicate
import Panora.Pairing.Limits
import Panora.Sync.Encodings
import Panora.Node.Admission
import Panora.Node.Membership
