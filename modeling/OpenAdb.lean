import OpenAdb.P2p.Lifecycle
import OpenAdb.Backup.Uninstall
import OpenAdb.Backup.Restore
import OpenAdb.P2p.ControlResources
import OpenAdb.Transfer.Controller
import OpenAdb.Settings.Survival
import OpenAdb.Privilege.Cache
import OpenAdb.Settings.Offline
import OpenAdb.Commands.Completeness
import OpenAdb.Commands.Ownership
import OpenAdb.Files.BulkPull
import OpenAdb.Acbridge.Gate
import OpenAdb.Commands.Manual
import OpenAdb.Shizuku.Abandonment
import OpenAdb.Files.UploadConsent
import OpenAdb.Files.Settled
import OpenAdb.Transfer.Rejection
import OpenAdb.P2p.Balance
import OpenAdb.P2p.Aggregation
import OpenAdb.P2p.ControlLines
import OpenAdb.Icons.Ownership
import OpenAdb.P2p.Replacement
import OpenAdb.Acbridge.Export
import OpenAdb.P2p.Release
import OpenAdb.Settings.ProfileFolders
import OpenAdb.Privilege.PackageDetails
import OpenAdb.Files.FolderListing
import OpenAdb.Settings.Changes
import OpenAdb.Privilege.Preparation
import OpenAdb.Shizuku.Execution
import OpenAdb.Transfer.Publishing
import OpenAdb.Commands.PairingCode
import OpenAdb.Commands.RiskRewriting
import OpenAdb.P2p.GrantedPlace
import OpenAdb.Files.Renaming
import OpenAdb.Files.DeletedItems
import OpenAdb.Backup.DamagedMetadata
import OpenAdb.Backup.DeletedSnapshot
import OpenAdb.Signing.PermittedChanges
import OpenAdb.Files.QuotedPaths
import OpenAdb.Acbridge.PrivilegeAnswer
import OpenAdb.Apps.DeliveredPackages
import OpenAdb.Transfer.PullTarget
import OpenAdb.Transfer.SentMembers
import OpenAdb.Acbridge.HostClosing
import OpenAdb.Transfer.FolderRepair
import OpenAdb.Icons.Resolution
import OpenAdb.Acbridge.UpdateBarrier
import OpenAdb.Apps.ShownApps
import OpenAdb.P2p.CollectedTree
import OpenAdb.Wireless.QrReadiness
import OpenAdb.Backup.CleanedRoots
import OpenAdb.Transfer.KeptOriginals
