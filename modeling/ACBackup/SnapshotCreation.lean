import ACBackup.IndexSerialization
import ACBackup.DifferenceResolver
import ACBackup.VolumeRoundTrip

/-!
How `AddSnapshot` builds the index of a new snapshot. The nodes enter the index
one by one under its lock, in any order; the streams of the stored nodes are
written by any number of workers side by side; the attributes of a node are
completed by the worker that stored it.
-/

namespace ACBackup.SnapshotCreation

open ACBackup.Library.Outcome ACBackup.Library.Tasks ACBackup.Library.Transition
open ACBackup.Platform ACBackup.NodeAttributes ACBackup.Indexing ACBackup.SourceIndex
open ACBackup.IndexSerialization ACBackup.DifferenceResolver
open ACBackup.VolumeReading ACBackup.VolumeWriting ACBackup.VolumeInvariant
open ACBackup.VolumeRoundTrip

set_option autoImplicit false

/-- One call of `AddSnapshot` with what its environment decides: the clock that
names the snapshot, the source, the configuration, what the compression
statistics say for a file, the content of uninitialised members, the order in
which the workers take their tasks, and the steps of the writers. -/
structure Call where
  name : String
  source : OSFileSystemNodeIndex
  hashAlgorithm : HashAlgorithm
  volumeSize : UInt64
  maxCompressionLevel : Nat
  statistics : Path → Option Nat
  uninitialised : Path → Bool
  differenceTasks : TaskOrder Nat
  nodeTasks : TaskOrder (Nat × NodeDifference)
  volumeSteps : List WriteLabel

structure StoredStream where
  content : Bytes
  bytes : Bytes
  compressionSetting : Option CompressionSetting
  deriving DecidableEq

structure PlannedNode where
  path : Path
  attributes : BackupNodeAttributes
  stored : Option StoredStream
  deriving DecidableEq

/-- `none` for a rate above 0.9. Empty files and short links are not compressed,
longer links always. -/
def compressionLevel (call : Call) (path : Path) (attributes : FileSystemNodeAttributes) :
    Option Nat :=
  match attributes.type with
  | .file => if attributes.size = 0 then none else call.statistics path
  | .link => if 100 < attributes.size then some call.maxCompressionLevel else none
  | .directory => none

def storeContent (runtime : Runtime) (level : Option Nat) (content : Bytes) : StoredStream :=
  match level with
  | none => { content := content, bytes := content, compressionSetting := none }
  | some level =>
      { content := content
        bytes := runtime.compress level content
        compressionSetting := some .lzma }

theorem store_content_empty {runtime : Runtime} {level : Option Nat} {content : Bytes}
    (empty : (storeContent runtime level content).bytes = []) : content = [] := by
  cases level with
  | none => exact empty
  | some level => exact absurd empty (runtime.compress_nonempty level content)

/-- `Snapshot::BackupNode`: directories have nothing to be stored. -/
def backupNode (runtime : Runtime) (call : Call) (index : Nat) : Except Fault PlannedNode := do
  let filePath ← call.source.index.getNodePath index
  let fileAttributes ← call.source.index.getNodeAttributes index
  let attributes :=
    BackupNodeAttributes.ofFileSystemNodeAttributes (call.uninitialised filePath) fileAttributes
  if fileAttributes.type = .directory then
    .ok { path := filePath, attributes := attributes, stored := none }
  else
    let content := call.source.content filePath
    if content.length = fileAttributes.size then
      .ok
        { path := filePath
          attributes := attributes
          stored := some
            (storeContent runtime (compressionLevel call filePath fileAttributes) content) }
    else .error (.streamPipingFailed filePath)

/-- `Snapshot::BackupNodeMetadata`: the back reference target is kept. -/
def backupNodeMetadata (call : Call) (index : Nat) (oldAttributes : BackupNodeAttributes) :
    Except Fault PlannedNode := do
  let filePath ← call.source.index.getNodePath index
  let newAttributes ← call.source.index.getNodeAttributes index
  .ok
    { path := filePath
      attributes := { oldAttributes.copyFrom newAttributes with ownsBlocks := false }
      stored := none }

def backupMove (call : Call) (index : Nat) (oldAttributes : BackupNodeAttributes)
    (oldPath : Path) : Except Fault PlannedNode := do
  let filePath ← call.source.index.getNodePath index
  let newAttributes ← call.source.index.getNodeAttributes index
  .ok
    { path := filePath
      attributes :=
        { oldAttributes.copyFrom newAttributes with
          ownsBlocks := false
          backReferenceTarget := some oldPath }
      stored := none }

/-- The loops of `AddSnapshot` over the three kinds of differences. -/
def planNode (runtime : Runtime) (last : Option BackupNodeIndex) (call : Call) :
    Nat × NodeDifference → Except Fault PlannedNode
  | (index, .backupFully) => backupNode runtime call index
  | (index, .updateMetadataOnly) =>
      match last with
      | none => .error .nullPointer
      | some lastIndex => do
          let path ← call.source.index.getNodePath index
          let oldIndex ← lastIndex.getNodeIndex path
          let oldAttributes ← lastIndex.getNodeAttributes oldIndex
          backupNodeMetadata call index oldAttributes
  | (index, .backreferenceWithDifferentPath moveIndex) =>
      match last with
      | none => .error .nullPointer
      | some lastIndex => do
          let oldAttributes ← lastIndex.getNodeAttributes moveIndex
          let oldPath ← lastIndex.getNodePath moveIndex
          backupMove call index oldAttributes oldPath

/-- Nodes that no difference names are assumed to have only new metadata. -/
def updateDefault (numberOfNodes : Nat) (difference : NodeIndexDifferences) :
    NodeIndexDifferences :=
  { difference with
    differentMetadata := (List.range numberOfNodes).foldl
      (fun metadata node =>
        if node ∈ difference.differentData ∨ node ∈ metadata ∨ node ∈ difference.moved then
          metadata
        else metadata.insert node) difference.differentMetadata }

/-- `SnapshotManager::ComputeDifference`. Without a last snapshot everything is
different. -/
def computeDifference (runtime : Runtime) (algorithm : HashAlgorithm) (tasks : TaskOrder Nat)
    (last : Option BackupNodeIndex) (source : OSFileSystemNodeIndex) (defaults : Bool) :
    Except Fault NodeIndexDifferences :=
  match last with
  | some lastIndex => do
      let difference ← computeDiff tasks algorithm lastIndex (sourceRight runtime algorithm source)
      .ok (if defaults then updateDefault source.index.getNumberOfNodes difference else difference)
  | none =>
      .ok
        { NodeIndexDifferences.empty with
          differentData := (List.range source.index.getNumberOfNodes).foldl
            (fun data node => data.insert node) ∅ }

def routes (difference : NodeIndexDifferences) : List (Nat × NodeDifference) :=
  (difference.differentData.toList.map fun node => (node, .backupFully)) ++
    (difference.differentMetadata.toList.map fun node => (node, .updateMetadataOnly)) ++
    (difference.moved.toList.map fun entry =>
      (entry.1, .backreferenceWithDifferentPath entry.2))

def planSnapshot (runtime : Runtime) (last : Option BackupNodeIndex) (call : Call) :
    Except Fault (List PlannedNode) := do
  let difference ←
    computeDifference runtime call.hashAlgorithm call.differenceTasks last call.source true
  (call.nodeTasks.order (routes difference)).mapM (planNode runtime last call)

def addPlanned (planned : List PlannedNode) : BackupNodeIndex :=
  planned.foldl (fun index node => index.addNode node.path node.attributes) NodeIndex.empty

def streamWritten (state : WriteState) (node : PlannedNode) : Bool :=
  match node.stored with
  | some stream =>
      state.writers node.path = .closed && state.accepted node.path = stream.bytes
  | none => state.writers node.path = .absent

/-- The rest of `BackupNode`, after its stream was written. -/
def completeAttributes (runtime : Runtime) (algorithm : HashAlgorithm) (stream : StoredStream)
    (attributes : BackupNodeAttributes) : Except Fault BackupNodeAttributes :=
  { attributes with
    compressionSetting := stream.compressionSetting.or attributes.compressionSetting }.addHashValue
      algorithm (runtime.hash algorithm stream.content)

def completeNode (runtime : Runtime) (algorithm : HashAlgorithm) (index : BackupNodeIndex)
    (node : PlannedNode) : Except Fault BackupNodeIndex :=
  match node.stored with
  | none => .ok index
  | some stream => do
      let nodeIndex ← index.getNodeIndex node.path
      let attributes ← index.getNodeAttributes nodeIndex
      let completed ← completeAttributes runtime algorithm stream attributes
      .ok (index.modify node.path fun _ => completed)

structure Created where
  index : BackupNodeIndex
  files : Nat → Bytes

/-- `none` when the call raises before its index is written, and when the steps
of the writers are not those of a complete run. -/
def createSnapshot (runtime : Runtime) (last : Option BackupNodeIndex) (call : Call) :
    Option Created :=
  match planSnapshot runtime last call with
  | .error _ => none
  | .ok planned =>
      match (writing call.volumeSize (addPlanned planned)).run
          (openFileSystem (addPlanned planned)) call.volumeSteps with
      | none => none
      | some state =>
          if planned.all (streamWritten state) then
            match planned.foldlM (completeNode runtime call.hashAlgorithm) state.index with
            | .error _ => none
            | .ok index => some { index := index, files := state.files }
          else none

end ACBackup.SnapshotCreation
