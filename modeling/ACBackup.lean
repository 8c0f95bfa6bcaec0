import ACBackup.Library.Loop
import ACBackup.Library.Transition
import ACBackup.Library.Extents
import ACBackup.IndexSerialization
import ACBackup.ConfigManager
import ACBackup.VolumeWriting
import ACBackup.VolumeInvariant
import ACBackup.VolumeReading
import ACBackup.VolumeRoundTrip
import ACBackup.WriteTermination
import ACBackup.FileReading
import ACBackup.SnapshotChain
import ACBackup.VerifyTermination
import ACBackup.DifferenceResolver
import ACBackup.SnapshotCreation
import ACBackup.SnapshotPlan
import ACBackup.SnapshotNodes
import ACBackup.Library.BackReferences
import ACBackup.SnapshotManager
import ACBackup.DataResolution
import ACBackup.SnapshotVerification
import ACBackup.SnapshotMirror
import ACBackup.PermissionFidelity
import ACBackup.IndexRoundTrip
import ACBackup.Restore
import ACBackup.IndexDirectory
import ACBackup.CrashConsistency
import ACBackup.VolumeAllocation
import ACBackup.IncrementalStorage
import ACBackup.ChainOrder
import ACBackup.LocalVerification
import ACBackup.HashLookups
import ACBackup.ReadPaths
import ACBackup.DifferenceSpecification
import ACBackup.DifferenceAccesses
import ACBackup.Library.FlatTree
import ACBackup.SourceScan
import ACBackup.MountedTree
import ACBackup.Library.Parties
import ACBackup.ReadingStreams
import ACBackup.OpenVolumeCount
import ACBackup.VolumeReferences
import ACBackup.VolumeTable
import ACBackup.Library.DotSegments
import ACBackup.LinkTargets
import ACBackup.RevisionHistory
import ACBackup.RestoreOrder
import ACBackup.Library.Gauges
import ACBackup.KnownEndProcesses
import ACBackup.ProgressBounds
import ACBackup.TerminalStatusTracker
import ACBackup.StoredContent
import ACBackup.AddSnapshotAnswer
import ACBackup.SourceRecovery
import ACBackup.MountedFileSystem
import ACBackup.SnapshotHashValues
import ACBackup.DamagedVolumes
import ACBackup.VerifyCommands
import ACBackup.CrashRuns
import ACBackup.Library.LockOrder
import ACBackup.VolumeLocks
import ACBackup.ReturningCalls
import ACBackup.WriteProtection
import ACBackup.StorageAccounting
import ACBackup.DiffCommands
import ACBackup.FileFiltering
import ACBackup.ViewerMirror
