import Databasus.Backuping.Scheduler
import Databasus.Cache.MemoryStore
import Databasus.Cache.PayloadBudget
import Databasus.Catalog.Backup
import Databasus.Catalog.BackupLifecycle
import Databasus.Catalog.BackupList
import Databasus.Catalog.LifecycleSafety
import Databasus.Catalog.ListFidelity
import Databasus.Catalog.ListedGroups
import Databasus.Catalog.ListedItems
import Databasus.Catalog.ListedRanges
import Databasus.Catalog.Lookups
import Databasus.Catalog.WalSegment
import Databasus.Chains.Cascade
import Databasus.Chains.CascadeLosses
import Databasus.Chains.CascadeRules
import Databasus.Chains.ChainGrowth
import Databasus.Chains.CoverageDelivery
import Databasus.Chains.CoverageShape
import Databasus.Chains.RestoreCoverage
import Databasus.Chains.RestorePaths
import Databasus.Chains.RestoreSet
import Databasus.Chains.SubtreeOrder
import Databasus.Chains.UnbrokenChains
import Databasus.Chains.View
import Databasus.Chains.WalRetention
import Databasus.Chains.WalRun
import Databasus.Common
import Databasus.Config.PhysicalConfig
import Databasus.Config.TypeCoercion
import Databasus.Crypto.DecryptingReader
import Databasus.Crypto.EncryptingWriter
import Databasus.Crypto.FieldEncryptor
import Databasus.Crypto.SealedStreams
import Databasus.Crypto.StreamFormat
import Databasus.Crypto.StreamRoundTrip
import Databasus.Crypto.TamperedStreams
import Databasus.Database.Transactor
import Databasus.Databases.ProviderSettings
import Databasus.Databases.SecretEdits
import Databasus.Databases.UpdateDatabase
import Databasus.Download.UserStream
import Databasus.Foundation.Base64
import Databasus.Foundation.Buckets
import Databasus.Foundation.Calendar
import Databasus.Foundation.CappedLog
import Databasus.Foundation.ClosedRange
import Databasus.Foundation.ConsecutivePairs
import Databasus.Foundation.Descendants
import Databasus.Foundation.Exchange
import Databasus.Foundation.Framing
import Databasus.Foundation.Json
import Databasus.Foundation.JsonLayout
import Databasus.Foundation.KeysetPaging
import Databasus.Foundation.ParentPaths
import Databasus.Foundation.Pipe
import Databasus.Foundation.ReadCommitted
import Databasus.Foundation.RowLocks
import Databasus.Foundation.Runs
import Databasus.Foundation.Scanning
import Databasus.Foundation.Search
import Databasus.Foundation.SlidingWindow
import Databasus.Foundation.Stalls
import Databasus.Foundation.Streaks
import Databasus.Foundation.Table
import Databasus.Foundation.Timestamps
import Databasus.Foundation.TouchingRuns
import Databasus.Foundation.Utf8
import Databasus.Foundation.WindowFunctions
import Databasus.Foundation.ZonedTime
import Databasus.Gfs.CoarsestWindow
import Databasus.Gfs.RetainedSet
import Databasus.Gfs.Retention
import Databasus.Gfs.RetentionCounts
import Databasus.Healthcheck.Attempts
import Databasus.Healthcheck.StatusRuns
import Databasus.Iox.ResumedDelivery
import Databasus.Iox.ResumedRead
import Databasus.Iox.ResumingReader
import Databasus.Iox.Source
import Databasus.Logical.Backup
import Databasus.Logical.CatalogAgreement
import Databasus.Logical.RetentionPolicy
import Databasus.Logical.System
import Databasus.Physical.ManifestReading
import Databasus.Physical.ManifestSerialization
import Databasus.Pipeline.BackupWholeness
import Databasus.Pipeline.ChainInvariant
import Databasus.Pipeline.ConcurrentSteps
import Databasus.Pipeline.RunBackup
import Databasus.Pipeline.UploadSound
import Databasus.Pipeline.WriterChain
import Databasus.Ratelimit.MemoryCounter
import Databasus.Ratelimit.UnboundedLog
import Databasus.Restores.Races
import Databasus.Restores.ReadSafety
import Databasus.Restores.Restore
import Databasus.Restorestream.Artifact
import Databasus.Retention.Cleaner
import Databasus.Retention.KeepRules
import Databasus.Retention.RetentionPass
import Databasus.Retention.Survivors
import Databasus.Scheduling.Schedule
import Databasus.Scheduling.Slots
import Databasus.Storages.Files.Consistency
import Databasus.Storages.Files.Effects
import Databasus.Storages.Files.Leaks
import Databasus.Storages.Files.Leases
import Databasus.Storages.Files.PendingDeletion
import Databasus.Storages.Files.Publication
import Databasus.Storages.Files.System
import Databasus.Storages.Reference
import Databasus.Storages.S3.Bucket
import Databasus.Storages.S3.ChunkedManifest
import Databasus.Storages.S3.DeleteFile
import Databasus.Storages.S3.DeletedFiles
import Databasus.Storages.S3.FailingSource
import Databasus.Storages.S3.ObjectNumbers
import Databasus.Storages.S3.OpenFile
import Databasus.Storages.S3.ReaderSoundness
import Databasus.Storages.S3.ReassemblingReader
import Databasus.Storages.S3.SaveFile
import Databasus.Storages.S3.SaveRuns
import Databasus.Storages.S3.SavedObjects
import Databasus.Timelines.Failovers
import Databasus.Timelines.Timeline
import Databasus.Users.EmailedCodes
import Databasus.Users.LedgerFrames
import Databasus.Users.LedgerSound
import Databasus.Users.PasswordReset
import Databasus.Users.ResetSafety
import Databasus.Users.SignIn
import Databasus.Users.SignInSafety
import Databasus.Verifications.AttemptReports
import Databasus.Verifications.Capacity
import Databasus.Verifications.DiskAdmission
import Databasus.Verifications.Lifecycle
import Databasus.Verifications.Refinement
import Databasus.Verifications.Repository
import Databasus.Verifications.Run
import Databasus.Verifications.RunInvariants
import Databasus.Verifications.Service
import Databasus.Verifications.System
import Databasus.WalStreaming.ArchiveProgress
import Databasus.WalStreaming.ArchiveStaleness
import Databasus.WalStreaming.ChainVerdict
import Databasus.WalStreaming.DeadClaims
import Databasus.WalStreaming.Durability
import Databasus.WalStreaming.EncodedRows
import Databasus.WalStreaming.EncodedRuns
import Databasus.WalStreaming.EncodedSegments
import Databasus.WalStreaming.ExpectedSegments
import Databasus.WalStreaming.GapProbe
import Databasus.WalStreaming.GapReports
import Databasus.WalStreaming.LagRule
import Databasus.WalStreaming.LocalQueue
import Databasus.WalStreaming.QueueRecovery
import Databasus.WalStreaming.RebuildCap
import Databasus.WalStreaming.SegmentArtifact
import Databasus.WalStreaming.SegmentRanges
import Databasus.WalStreaming.SlotAnchors
import Databasus.WalStreaming.SlotBreak
import Databasus.WalStreaming.SlotCalls
import Databasus.WalStreaming.SlotRebuild
import Databasus.WalStreaming.StreamerClaims
import Databasus.WalStreaming.StreamerManager
import Databasus.WalStreaming.StreamerOwnership
import Databasus.WalStreaming.StreamerProcess
import Databasus.WalStreaming.Upload
import Databasus.WalStreaming.UploadDispatcher
import Databasus.Walmath.CanonicalNames
import Databasus.Walmath.LsnText
import Databasus.Walmath.WalFilename
import Databasus.Walmath.WalSegmentNo
import Databasus.Workspaces.Members
import Databasus.Workspaces.Ownership
