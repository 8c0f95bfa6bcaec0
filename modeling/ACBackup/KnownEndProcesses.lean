import ACBackup.Restore
import ACBackup.StatusTracking

/-!
The processes with a determinate end: which total each of them announces, and what its
tasks count. The totals are sums of sizes that are recorded before; the tasks count what
they come across.
-/

namespace ACBackup.KnownEndProcesses

open ACBackup.Library.Loop ACBackup.Library.Outcome ACBackup.Library.Tasks
open ACBackup.Library.Transition
open ACBackup.Platform ACBackup.NodeAttributes ACBackup.Indexing ACBackup.SourceIndex
open ACBackup.DifferenceResolver ACBackup.SnapshotChain ACBackup.SnapshotCreation
open ACBackup.SnapshotManager ACBackup.SnapshotVerification ACBackup.Restore
open ACBackup.StatusTracking

set_option autoImplicit false

/-- What the counters meet: the pieces in which a stream passes through
`StatusTrackingOutputStream`, and the size that is read for a number which an index does
not have. -/
structure Surroundings where
  pieces : Path → Bytes → List Nat
  whole : ∀ path content, (pieces path content).sum = content.length
  stray : Nat → BitVec 64

def nodeSize (index : FileSystemNodeIndex) (node : Nat) : Nat :=
  match index.nodes[node]? with
  | some entry => entry.2.size
  | none => 0

def computeTotalSize (index : FileSystemNodeIndex) : Nat :=
  ((List.range index.getNumberOfNodes).map (nodeSize index)).sum

def computeTotalSizeOf (index : FileSystemNodeIndex) (nodeIndices : Std.TreeSet Nat) : Nat :=
  (nodeIndices.toList.map (nodeSize index)).sum

def computeSumOfOwnedBlockSizes (index : BackupNodeIndex) : Nat :=
  (index.nodes.map fun node =>
    if node.2.ownsBlocks then node.2.computeSumOfBlockSizes else 0).sum

section Differences

def computingIndexDifferences (leftIndex : FileSystemNodeIndex) : Process where
  nFiles := leftIndex.getNumberOfNodes
  totalSize := computeTotalSize leftIndex
  first := []
  tasks := (List.range leftIndex.getNumberOfNodes).map fun node =>
    [.addFinishedSize (nodeSize leftIndex node), .incFinishedCount]

/-- What `GetNodeAttributes` of the right index gives for a number of the left one. -/
def sizeRead (surroundings : Surroundings) (rightIndex : FileSystemNodeIndex) (node : Nat) : Nat :=
  match rightIndex.nodes[node]? with
  | some entry => entry.2.size
  | none => (surroundings.stray node).toNat

def resolvedNode (surroundings : Surroundings) (leftIndex rightIndex : FileSystemNodeIndex)
    (node : Nat) : List ProcessEvent :=
  if isDeleted leftIndex rightIndex node then
    [.incFileCount, .addFinishedSize (nodeSize leftIndex node)]
  else [.incFileCount, .reduceTotalSize (sizeRead surroundings rightIndex node)]

def resolvingDeletedNodes (surroundings : Surroundings)
    (leftIndex rightIndex : FileSystemNodeIndex) (indexes : Std.TreeSet Nat) : Process where
  nFiles := indexes.size
  totalSize := computeTotalSizeOf leftIndex indexes
  first := (indexes.toList.map (resolvedNode surroundings leftIndex rightIndex)).flatten
  tasks := []

def indexedNode (algorithm : HashAlgorithm) (leftIndex : BackupNodeIndex) (right : RightIndex)
    (node : Nat) : List ProcessEvent :=
  match nodeDifference algorithm leftIndex right node with
  | .error _ => []
  | .ok _ => [.incFinishedCount, .addFinishedSize (nodeSize right.index node)]

def indexingPotentiallyNewNodes (algorithm : HashAlgorithm) (leftIndex : BackupNodeIndex)
    (right : RightIndex) (rightToLeftDiffs : Std.TreeSet Nat) : Process where
  nFiles := rightToLeftDiffs.size
  totalSize := computeTotalSizeOf right.index rightToLeftDiffs
  first := []
  tasks := rightToLeftDiffs.toList.map (indexedNode algorithm leftIndex right)

end Differences

section Creation

def contentRead (call : Call) (node : Nat) : Option (Path × Bytes) :=
  match call.source.index.nodes[node]? with
  | none => none
  | some (path, attributes) =>
      if attributes.type = .directory then none else some (path, call.source.content path)

/-- `StatusTrackingOutputStream` counts every piece. -/
def piecesCounted (surroundings : Surroundings) : Option (Path × Bytes) → List ProcessEvent
  | none => []
  | some (path, content) => (surroundings.pieces path content).map .addFinishedSize

/-- A call that raises is not counted. -/
def callCounted {Result : Type} : Except Fault Result → List ProcessEvent
  | .error _ => []
  | .ok _ => [.incFinishedCount]

/-- The content is counted while it is read, before `BackupNode` compares the sizes. -/
def storedNode (surroundings : Surroundings) (runtime : Runtime) (call : Call) (node : Nat) :
    List ProcessEvent :=
  piecesCounted surroundings (contentRead call node) ++ callCounted (backupNode runtime call node)

def takenOverNodes (runtime : Runtime) (last : Option BackupNodeIndex) (call : Call)
    (difference : NodeIndexDifferences) : List (Nat × NodeDifference) :=
  (routes { difference with differentData := ∅ }).takeWhile fun route =>
    (planNode runtime last call route).isOk

def creatingSnapshot (surroundings : Surroundings) (runtime : Runtime)
    (last : Option BackupNodeIndex) (call : Call) (difference : NodeIndexDifferences) :
    Process where
  nFiles := call.source.index.getNumberOfNodes
  totalSize := computeTotalSizeOf call.source.index difference.differentData
  first := []
  tasks :=
    ((takenOverNodes runtime last call difference).map fun _ => .incFinishedCount) ::
      difference.differentData.toList.map (storedNode surroundings runtime call)

end Creation

section Reading

variable (runtime : Runtime) (algorithm : HashAlgorithm) (volumes : VolumeContents)
  (snapshot : Snapshot) (previous : List Snapshot)

/-- The size is counted whatever the answer of `VerifyNode` is. -/
def answerCounted (size : Nat) : Attempt Fault Bool → List ProcessEvent
  | some (.ok _) => [.addFinishedSize size, .incFinishedCount]
  | _ => []

def verifiedNode (full : Bool) (fuel node : Nat) : List ProcessEvent :=
  match snapshot.index.getNodeAttributes node with
  | .error _ => []
  | .ok nodeAttributes =>
      if nodeAttributes.type = .directory then [.incFinishedCount]
      else
        match findDataSnapshot snapshot previous node with
        | .error _ => []
        | .ok found =>
            if full || found.distance = 0 then
              answerCounted nodeAttributes.size
                (verifyNode runtime algorithm volumes found.snapshot found.path fuel)
            else [.incFinishedCount]

def verifyingSnapshot (full : Bool) (fuel : Nat) : Process where
  nFiles := snapshot.index.getNumberOfNodes
  totalSize :=
    if full then computeTotalSize (fileSystemNodes snapshot.index)
    else computeSumOfOwnedBlockSizes snapshot.index
  first := []
  tasks := (List.range snapshot.index.getNumberOfNodes).map
    (verifiedNode runtime algorithm volumes snapshot previous full fuel)

def restoredNode (restorePoint : Path) (fuel node : Nat) : List ProcessEvent :=
  match restoreNode runtime algorithm volumes snapshot previous restorePoint node fuel with
  | some (.ok (some (_, .file _ content))) => [.addFinishedSize content.length, .incFinishedCount]
  | some (.ok (some (_, .link _))) =>
      [.addFinishedSize (nodeSize (fileSystemNodes snapshot.index) node), .incFinishedCount]
  | _ => []

def restoringSnapshot (restorePoint : Path) (fuel : Nat) : Process where
  nFiles := snapshot.index.getNumberOfNodes
  totalSize := computeTotalSize (fileSystemNodes snapshot.index)
  first :=
    match restoreDirectories snapshot restorePoint with
    | .error _ => []
    | .ok directories => directories.map fun _ => .incFinishedCount
  tasks := (List.range snapshot.index.getNumberOfNodes).map
    (restoredNode runtime algorithm volumes snapshot previous restorePoint fuel)

end Reading

inductive KnownEndProcess where
  | creatingSnapshot (last : Option BackupNodeIndex) (call : Call)
      (difference : NodeIndexDifferences)
  | verifyingSnapshot (algorithm : HashAlgorithm) (volumes : VolumeContents) (snapshot : Snapshot)
      (previous : List Snapshot) (full : Bool)
  | restoringSnapshot (algorithm : HashAlgorithm) (volumes : VolumeContents) (snapshot : Snapshot)
      (previous : List Snapshot) (restorePoint : Path)
  | computingIndexDifferences (leftIndex : FileSystemNodeIndex)
  | resolvingDeletedNodes (leftIndex rightIndex : FileSystemNodeIndex) (indexes : Std.TreeSet Nat)
  | indexingPotentiallyNewNodes (algorithm : HashAlgorithm) (leftIndex : BackupNodeIndex)
      (right : RightIndex) (rightToLeftDiffs : Std.TreeSet Nat)

def KnownEndProcess.process (surroundings : Surroundings) (runtime : Runtime) (fuel : Nat) :
    KnownEndProcess → Process
  | .creatingSnapshot last call difference =>
      KnownEndProcesses.creatingSnapshot surroundings runtime last call difference
  | .verifyingSnapshot algorithm volumes snapshot previous full =>
      KnownEndProcesses.verifyingSnapshot runtime algorithm volumes snapshot previous full fuel
  | .restoringSnapshot algorithm volumes snapshot previous restorePoint =>
      KnownEndProcesses.restoringSnapshot runtime algorithm volumes snapshot previous restorePoint
        fuel
  | .computingIndexDifferences leftIndex =>
      KnownEndProcesses.computingIndexDifferences leftIndex
  | .resolvingDeletedNodes leftIndex rightIndex indexes =>
      KnownEndProcesses.resolvingDeletedNodes surroundings leftIndex rightIndex indexes
  | .indexingPotentiallyNewNodes algorithm leftIndex right rightToLeftDiffs =>
      KnownEndProcesses.indexingPotentiallyNewNodes algorithm leftIndex right rightToLeftDiffs

inductive Operation where
  | addSnapshot (chain : Chain) (call : Call)
  | verifySnapshot (algorithm : HashAlgorithm) (volumes : VolumeContents) (snapshot : Snapshot)
      (previous : List Snapshot) (full : Bool)
  | restore (algorithm : HashAlgorithm) (volumes : VolumeContents) (snapshot : Snapshot)
      (previous : List Snapshot) (restorePoint : Path)
  | computeDiff (tasks : TaskOrder Nat) (algorithm : HashAlgorithm) (leftIndex : BackupNodeIndex)
      (right : RightIndex)

def computeDiffProcesses (tasks : TaskOrder Nat) (algorithm : HashAlgorithm)
    (leftIndex : BackupNodeIndex) (right : RightIndex) : List KnownEndProcess :=
  let left := fileSystemNodes leftIndex
  [.computingIndexDifferences left, .computingIndexDifferences right.index,
    .resolvingDeletedNodes left right.index
      (DifferenceResolver.computeDifference tasks left right.index),
    .indexingPotentiallyNewNodes algorithm leftIndex right
      (DifferenceResolver.computeDifference tasks right.index left)]

def differenceProcesses (runtime : Runtime) (last : Option BackupNodeIndex) (call : Call) :
    List KnownEndProcess :=
  match last with
  | none => []
  | some lastIndex =>
      computeDiffProcesses call.differenceTasks call.hashAlgorithm lastIndex
        (sourceRight runtime call.hashAlgorithm call.source)

/-- What `AddSnapshot` does once the snapshots are read in again:
`EnsureNoDifferenceExists`, and the full verification of the last snapshot. -/
def checkingProcesses (runtime : Runtime) (chain : Chain) (call : Call) : List KnownEndProcess :=
  differenceProcesses runtime (lastIndex chain) call ++
    match SnapshotCreation.computeDifference runtime call.hashAlgorithm call.differenceTasks
        (lastIndex chain) call.source false, chain with
    | .ok difference, last :: older =>
        if difference.exist then []
        else [.verifyingSnapshot call.hashAlgorithm (volumesOf chain) last.snapshot
          (older.map Entry.snapshot) true]
    | _, _ => []

def addSnapshotProcesses (runtime : Runtime) (chain : Chain) (call : Call) :
    List KnownEndProcess :=
  differenceProcesses runtime (lastIndex chain) call ++
    match SnapshotCreation.computeDifference runtime call.hashAlgorithm call.differenceTasks
        (lastIndex chain) call.source true with
    | .error _ => []
    | .ok difference =>
        .creatingSnapshot (lastIndex chain) call difference ::
          match addSnapshot runtime chain call with
          | none => []
          | some next => checkingProcesses runtime next call

def Operation.processes (runtime : Runtime) : Operation → List KnownEndProcess
  | .addSnapshot chain call => addSnapshotProcesses runtime chain call
  | .verifySnapshot algorithm volumes snapshot previous full =>
      [.verifyingSnapshot algorithm volumes snapshot previous full]
  | .restore algorithm volumes snapshot previous restorePoint =>
      [.restoringSnapshot algorithm volumes snapshot previous restorePoint]
  | .computeDiff tasks algorithm leftIndex right =>
      computeDiffProcesses tasks algorithm leftIndex right

end ACBackup.KnownEndProcesses
