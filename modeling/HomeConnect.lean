import HomeConnect.Accounts.LastAdmin
import HomeConnect.Accounts.TwoPairings
import HomeConnect.Athena.Liveness
import HomeConnect.Athena.Presence
import HomeConnect.Drives.Events
import HomeConnect.Drives.Freshness
import HomeConnect.Drives.Position
import HomeConnect.Drives.Series
import HomeConnect.Drives.Stats
import HomeConnect.Drives.Timeline
import HomeConnect.Manage.Derived
import HomeConnect.Manage.Pinned
import HomeConnect.Manage.Settings
import HomeConnect.Manage.Warning
import HomeConnect.Media.Overflow
import HomeConnect.Media.Range
import HomeConnect.Media.Ready
import HomeConnect.Media.Timestamps
import HomeConnect.Media.Transcript
import HomeConnect.Media.Unshared
import HomeConnect.Onboard.Patch
import HomeConnect.Params.Branches
import HomeConnect.Params.EditsSurvive
import HomeConnect.Params.ReadAll
import HomeConnect.Retention.AgeRule
import HomeConnect.Retention.Newest
import HomeConnect.Retention.Paths
import HomeConnect.Retention.StorageCap
import HomeConnect.Ssh.Commands
import HomeConnect.Storage.Blobs
import HomeConnect.Sync.Rebuild
import HomeConnect.Sync.Retry
import HomeConnect.Viewer.Nearest
import HomeConnect.Accounts.Integrity
import HomeConnect.Accounts.Trust
import HomeConnect.Drives.Tenants
import HomeConnect.Manage.Isolation
import HomeConnect.Retention.Settles
import HomeConnect.Sync.Guarded
import HomeConnect.Sync.Links
import HomeConnect.Sync.Wake
import HomeConnect.Drives.Cut
import HomeConnect.Manage.Download
import HomeConnect.Manage.Listing
import HomeConnect.Onboard.Repoint
import HomeConnect.Params.Reconcile
import HomeConnect.Sync.Repair
