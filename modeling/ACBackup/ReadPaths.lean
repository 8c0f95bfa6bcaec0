import ACBackup.ChainOrder
import ACBackup.SnapshotVerification

/-!
Three programs read files out of a snapshot: `Restore`, the mounted file system,
and the viewer, which downloads a file. What is read is decided by the snapshot
whose file system is asked and by the number of the node there.
-/

namespace ACBackup.ReadPaths

open ACBackup.Library.Loop ACBackup.Library.Outcome ACBackup.Library.Transition
open ACBackup.Platform ACBackup.NodeAttributes ACBackup.Indexing ACBackup.FileReading
open ACBackup.SnapshotChain ACBackup.SnapshotCreation ACBackup.SnapshotManager
open ACBackup.DataResolution ACBackup.SnapshotVerification ACBackup.ChainOrder

set_option autoImplicit false

structure StreamSource where
  snapshot : Snapshot
  nodeIndex : Nat
  deriving DecidableEq

def StreamSource.openStream (runtime : Runtime) (algorithm : HashAlgorithm)
    (volumes : VolumeContents) (source : StreamSource) : Except Fault InputChain :=
  openFileForReading runtime algorithm (source.snapshot.fileSystem volumes)
    source.snapshot.index source.nodeIndex true

def StreamSource.read (runtime : Runtime) (algorithm : HashAlgorithm) (volumes : VolumeContents)
    (source : StreamSource) (fuel : Nat) : Attempt Fault Bytes :=
  match source.openStream runtime algorithm volumes with
  | .error fault => some (.error fault)
  | .ok stream =>
      flushTo runtime algorithm (source.snapshot.fileSystem volumes) stream fuel

def restoreSource (snapshot : Snapshot) (previous : List Snapshot) (node : Nat) :
    Except Fault StreamSource := do
  let found ← findDataSnapshot snapshot previous node
  let nodeIndex ← found.snapshot.index.getNodeIndex found.path
  .ok { snapshot := found.snapshot, nodeIndex := nodeIndex }

/-- What `VirtualSnapshotFilesystem::OpenFileForReading` opens. -/
def mountedSource (snapshot : Snapshot) (previous : List Snapshot) (path : Path) :
    Except Fault (Option StreamSource) :=
  if snapshot.index.hasNodeIndex path then do
    let nodeIndex ← snapshot.index.getNodeIndex path
    let dataSnapshot ← findDataSnapshot snapshot previous nodeIndex
    let dataIndex ← dataSnapshot.snapshot.index.getNodeIndex dataSnapshot.path
    .ok (some { snapshot := dataSnapshot.snapshot, nodeIndex := dataIndex })
  else .ok none

/-- What a `DataFileTreeNode` opens; its number was looked up by the constructor. -/
def downloadSource (snapshot : Snapshot) (path : Path) : Except Fault StreamSource := do
  let nodeIndex ← snapshot.index.getNodeIndex path
  .ok { snapshot := snapshot, nodeIndex := nodeIndex }

/-- `DataFileTreeNode::DownloadTo`: the bytes that are written to the file. -/
def downloadTo (runtime : Runtime) (algorithm : HashAlgorithm) (volumes : VolumeContents)
    (snapshot : Snapshot) (path : Path) (fuel : Nat) : Attempt Fault Bytes :=
  match downloadSource snapshot path with
  | .error fault => some (.error fault)
  | .ok source => source.read runtime algorithm volumes fuel

section Sources

variable {runtime : Runtime} {algorithm : HashAlgorithm} {volumes : VolumeContents}
  {snapshot : Snapshot} {previous : List Snapshot} {node : Nat} {path : Path}
  {attributes : BackupNodeAttributes}

theorem restore_source_ok {source : StreamSource}
    (restored : restoreSource snapshot previous node = .ok source) :
    ∃ found nodeIndex, findDataSnapshot snapshot previous node = .ok found ∧
      found.snapshot.index.getNodeIndex found.path = .ok nodeIndex ∧
      source = { snapshot := found.snapshot, nodeIndex := nodeIndex } := by
  obtain ⟨found, search, later⟩ := bind_ok restored
  obtain ⟨nodeIndex, number, same⟩ := bind_ok later
  cases same
  exact ⟨found, nodeIndex, search, number, rfl⟩

theorem read_node_source {source : StreamSource}
    (restored : restoreSource snapshot previous node = .ok source) (fuel : Nat) :
    readNode runtime algorithm volumes snapshot previous node fuel =
      source.read runtime algorithm volumes fuel := by
  obtain ⟨found, nodeIndex, search, number, rfl⟩ := restore_source_ok restored
  unfold readNode
  cases opened : openFileForReading runtime algorithm (found.snapshot.fileSystem volumes)
      found.snapshot.index nodeIndex true with
  | error fault =>
      simp only [search, openData, number, bind, Except.bind, StreamSource.read,
        StreamSource.openStream, opened]
  | ok chain =>
      simp only [search, openData, number, bind, Except.bind, StreamSource.read,
        StreamSource.openStream, opened]

theorem open_mounted_source {source : StreamSource} {found : DataNode}
    (entry : snapshot.index.nodes[node]? = some (path, attributes))
    (search : findDataSnapshot snapshot previous node = .ok found)
    (restored : restoreSource snapshot previous node = .ok source) :
    openMountedFile runtime algorithm volumes snapshot previous path =
      (source.openStream runtime algorithm volumes).map fun stream => some (found, stream) := by
  obtain ⟨other, nodeIndex, sameSearch, number, rfl⟩ := restore_source_ok restored
  rw [search] at sameSearch
  cases sameSearch
  rw [open_mounted_file entry search]
  simp only [openData, number, bind, Except.bind, StreamSource.openStream]

theorem restore_source_found {found : DataNode}
    (entry : snapshot.index.nodes[node]? = some (path, attributes))
    (search : findDataSnapshot snapshot previous node = .ok found) :
    ∃ nodeIndex dataAttributes,
      found.snapshot.index.nodes[nodeIndex]? = some (found.path, dataAttributes) ∧
      restoreSource snapshot previous node =
        .ok { snapshot := found.snapshot, nodeIndex := nodeIndex } := by
  obtain ⟨dataAttributes, present, _, _⟩ := find_data_snapshot_owner entry search
  obtain ⟨nodeIndex, number, dataEntry⟩ := NodeIndex.get_node_index_of_lookup present
  refine ⟨nodeIndex, dataAttributes, dataEntry, ?_⟩
  simp only [restoreSource, search, number, bind, Except.bind]

theorem mounted_source_found (entry : snapshot.index.nodes[node]? = some (path, attributes)) :
    mountedSource snapshot previous path = (restoreSource snapshot previous node).map some := by
  have known : snapshot.index.hasNodeIndex path = true :=
    (NodeIndex.has_node_index_iff _ _).mpr ⟨attributes, NodeIndex.lookup_of_get entry⟩
  have number : snapshot.index.getNodeIndex path = .ok node :=
    (NodeIndex.get_node_index_ok _ _ _).mpr ⟨attributes, entry⟩
  simp only [mountedSource, restoreSource, known, if_true, number, bind, Except.bind]
  cases findDataSnapshot snapshot previous node with
  | error fault => rfl
  | ok found =>
      simp only
      cases found.snapshot.index.getNodeIndex found.path <;> rfl

theorem download_source_found (entry : snapshot.index.nodes[node]? = some (path, attributes)) :
    downloadSource snapshot path = .ok { snapshot := snapshot, nodeIndex := node } := by
  have number : snapshot.index.getNodeIndex path = .ok node :=
    (NodeIndex.get_node_index_ok _ _ _).mpr ⟨attributes, entry⟩
  simp only [downloadSource, number, bind, Except.bind]

end Sources

section Chains

variable {runtime : Runtime} {allowed : Chain → Call → Prop} {chain : Chain}

theorem sorted_reachable (reachable : (backups runtime).Reachable allowed chain) : Sorted chain := by
  have initial : Sorted (backups runtime).initial := List.Pairwise.nil
  apply System.reachable_invariant Sorted initial _ reachable
  intro before next call _ sorted _ taken
  exact sorted_step sorted taken

/-- A snapshot further down has another name. -/
theorem older_snapshot_differs (sorted : Sorted chain) {snapshot other : Snapshot}
    {previous : List Snapshot} (suffix : snapshot :: previous <:+ chain.map Entry.snapshot)
    (older : other ∈ previous) : other ≠ snapshot := by
  have names : (chain.map Entry.snapshot).Pairwise fun newer older =>
      indexFileName older.name < indexFileName newer.name := List.pairwise_map.mpr sorted
  have below := (List.pairwise_cons.mp (names.sublist suffix.sublist)).1 other older
  intro same
  rw [same] at below
  exact lt_irrefl _ below

/-- In every chain `Restore` and the mounted file system read a file from the same
source, the node that `FindDataSnapshot` finds; the viewer reads it from there if
and only if the snapshot has the data of the node itself. -/
theorem read_paths_agree_iff (runtime : Runtime) (chain : Chain)
    (reachable : (backups runtime).Reachable System.anyStep chain) (snapshot : Snapshot)
    (previous : List Snapshot) (suffix : snapshot :: previous <:+ chain.map Entry.snapshot)
    (node : Nat) (path : Path) (attributes : BackupNodeAttributes)
    (entry : snapshot.index.nodes[node]? = some (path, attributes)) (found : DataNode)
    (search : findDataSnapshot snapshot previous node = .ok found) :
    ∃ source dataAttributes, source.snapshot = found.snapshot ∧
      source.snapshot.index.nodes[source.nodeIndex]? = some (found.path, dataAttributes) ∧
      restoreSource snapshot previous node = .ok source ∧
      mountedSource snapshot previous path = .ok (some source) ∧
      (downloadSource snapshot path = .ok source ↔ attributes.hasNodeData = true) ∧
      ∀ algorithm volumes,
        readNode runtime algorithm volumes snapshot previous node =
          source.read runtime algorithm volumes ∧
        openMountedFile runtime algorithm volumes snapshot previous path =
          (source.openStream runtime algorithm volumes).map (fun stream => some (found, stream)) ∧
        (attributes.hasNodeData = true →
          downloadTo runtime algorithm volumes snapshot path =
            source.read runtime algorithm volumes) := by
  obtain ⟨nodeIndex, dataAttributes, dataEntry, restored⟩ := restore_source_found entry search
  have owned : attributes.hasNodeData = true →
      downloadSource snapshot path = .ok { snapshot := found.snapshot, nodeIndex := nodeIndex } := by
    intro owns
    rw [find_data_snapshot_owned entry owns] at search
    cases search
    rw [download_source_found entry, NodeIndex.node_number_unique entry dataEntry]
  refine ⟨⟨found.snapshot, nodeIndex⟩, dataAttributes, rfl, dataEntry, restored, ?_, ?_, ?_⟩
  · rw [mounted_source_found entry, restored]
    rfl
  · constructor
    · intro same
      rw [download_source_found entry] at same
      by_contra without
      have reference := Bool.eq_false_of_not_eq_true without
      have below := find_data_snapshot_older entry reference search
      have differs := older_snapshot_differs (sorted_reachable reachable) suffix below
      cases same
      exact differs rfl
    · exact owned
  · intro algorithm volumes
    refine ⟨?_, open_mounted_source entry search restored, ?_⟩
    · funext fuel
      exact read_node_source restored fuel
    · intro owns
      funext fuel
      simp only [downloadTo, owned owns]

section UnchangedFile

/-! A file is backed up, and then left alone while another one is created. -/

def createdFile : SourceNode := fileNode "b" [3, 4] 2

def secondFileBackup : Call :=
  callOf "snapshot_2" [storedFile, createdFile] (writeSteps createdFile)

theorem stored_file_downloaded :
    ∃ chain entry source,
      (backups spellingRuntime).run [] [firstBackup] = some chain ∧ chain = [entry] ∧
      restoreSource entry.snapshot [] 0 = .ok source ∧
      downloadSource entry.snapshot storedFile.path = .ok source := by
  have outcome : ((backups spellingRuntime).run [] [firstBackup]).map
      (fun chain => chain.map fun entry =>
        entry.index.nodes.map fun node => (node.1, node.2.hasNodeData)) =
          some [[(storedFile.path, true)]] := by decide +kernel
  obtain ⟨chain, run, facts⟩ := Option.map_eq_some_iff.mp outcome
  obtain ⟨entry, older, rfl, nodes, none⟩ := List.map_eq_cons_iff.mp facts
  cases List.map_eq_nil_iff.mp none
  obtain ⟨⟨path, attributes⟩, rest, index, stored, _⟩ := List.map_eq_cons_iff.mp nodes
  obtain ⟨rfl, owns⟩ := Prod.mk.inj stored
  have nodeEntry : entry.snapshot.index.nodes[0]? = some (storedFile.path, attributes) := by
    have same : entry.snapshot.index.nodes = (storedFile.path, attributes) :: rest := index
    rw [same]
    rfl
  obtain ⟨source, _, _, _, restored, _, download, _⟩ :=
    read_paths_agree_iff spellingRuntime [entry] (System.reachable_of_run _ run) entry.snapshot []
      (List.suffix_refl _) 0 storedFile.path attributes nodeEntry _
      (find_data_snapshot_owned nodeEntry owns)
  exact ⟨[entry], entry, source, run, rfl, restored, download.mpr owns⟩

/-- The unchanged file is restored from the first snapshot; the viewer reads its
blocks from the volumes of the second one. -/
theorem unchanged_file_misread :
    ∃ chain entry older,
      (backups spellingRuntime).run [] [firstBackup, secondFileBackup] = some chain ∧
      chain = entry :: older ∧
      Finishes (readNode spellingRuntime .md5 (volumesOf chain) entry.snapshot
        (older.map Entry.snapshot) 1) (.ok [1, 2]) ∧
      entry.index.getNodePath 1 = .ok storedFile.path ∧
      Finishes (downloadTo spellingRuntime .md5 (volumesOf chain) entry.snapshot storedFile.path)
        (.error .verificationFailed) := by
  have outcome : ((backups spellingRuntime).run [] [firstBackup, secondFileBackup]).map
      (fun chain => chain.head?.map fun entry =>
        (readNode spellingRuntime .md5 (volumesOf chain) entry.snapshot
          (chain.tail.map Entry.snapshot) 1 9,
        entry.index.getNodePath 1)) =
        some (some (some (.ok [1, 2]), .ok storedFile.path)) := by decide +kernel
  have misread : (((backups spellingRuntime).run [] [firstBackup, secondFileBackup]).bind
      fun chain => chain.head?.bind fun entry =>
        downloadTo spellingRuntime .md5 (volumesOf chain) entry.snapshot storedFile.path 9) =
        some (.error .verificationFailed) := by decide +kernel
  obtain ⟨chain, run, facts⟩ := Option.map_eq_some_iff.mp outcome
  rw [run] at misread
  cases chain with
  | nil => cases facts
  | cons entry older =>
      simp only [List.head?_cons, Option.map_some, Option.bind_some, List.tail_cons, Prod.mk.injEq,
        Option.some.injEq] at facts misread
      exact ⟨entry :: older, entry, older, run, rfl, ⟨9, facts.1⟩, facts.2, ⟨9, misread⟩⟩

end UnchangedFile

end Chains

end ACBackup.ReadPaths
