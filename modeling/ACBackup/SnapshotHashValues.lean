import ACBackup.MountedTree
import ACBackup.SourceRecovery

/-!
The command that outputs the hash values of a snapshot. A recorded digest is output
as it is; for any other algorithm the content is read again, without verification.
-/

namespace ACBackup.SnapshotHashValues

open ACBackup.Library.Loop ACBackup.Library.Outcome ACBackup.Library.Tasks
open ACBackup.Library.Transition
open ACBackup.Platform ACBackup.NodeAttributes ACBackup.Indexing ACBackup.VolumeReading
open ACBackup.FileReading ACBackup.SnapshotChain ACBackup.SnapshotCreation
open ACBackup.SnapshotManager ACBackup.RecordedContent ACBackup.DataResolution
open ACBackup.DifferenceResolver ACBackup.SnapshotMirror ACBackup.SourceScan ACBackup.MountedTree ACBackup.StoredContent
open ACBackup.SourceRecovery

set_option autoImplicit false

structure HashValueRow where
  path : String
  hash : String
  deriving DecidableEq, Repr

/-- The stream that `GenerateHashValue` reads. -/
def openUnverified (runtime : Runtime) (algorithm : HashAlgorithm) (volumes : VolumeContents)
    (attributes : BackupNodeAttributes) (found : DataNode) : Except Fault InputChain :=
  let store := found.snapshot.fileSystem volumes
  if attributes.type = .link then
    openLinkTargetAsStream runtime algorithm store found.snapshot.index found.path false
  else do
    let nodeIndex ← found.snapshot.index.getNodeIndex found.path
    openFileForReading runtime algorithm store found.snapshot.index nodeIndex false

/-- What was read must have the size that this snapshot recorded. -/
def hashedContent (runtime : Runtime) (asked : HashAlgorithm) (attributes : BackupNodeAttributes)
    (realNodePath : Path) (content : Bytes) : Except Fault String :=
  if content.length = attributes.size then .ok (runtime.hash asked content)
  else .error (.streamPipingFailed realNodePath)

def generateHashValue (runtime : Runtime) (algorithm asked : HashAlgorithm)
    (volumes : VolumeContents) (snapshot : Snapshot) (previous : List Snapshot)
    (node fuel : Nat) : Attempt Fault String :=
  match snapshot.index.getNodeAttributes node with
  | .error fault => some (.error fault)
  | .ok attributes =>
      match attributes.hashes asked with
      | some hash => some (.ok hash)
      | none =>
          match findDataSnapshot snapshot previous node with
          | .error fault => some (.error fault)
          | .ok found =>
              match openUnverified runtime algorithm volumes attributes found with
              | .error fault => some (.error fault)
              | .ok stream =>
                  (flushTo runtime algorithm (found.snapshot.fileSystem volumes) stream fuel).map
                    fun outcome => outcome.bind
                      (hashedContent runtime asked attributes found.path)

def hashValueTask (runtime : Runtime) (algorithm asked : HashAlgorithm) (volumes : VolumeContents)
    (snapshot : Snapshot) (previous : List Snapshot) (node fuel : Nat) :
    Attempt Fault HashValueRow :=
  (generateHashValue runtime algorithm asked volumes snapshot previous node fuel).map
    fun outcome => outcome.bind fun hash =>
      (snapshot.index.getNodePath node).map fun path => { path := path.string, hash := hash }

/-- A directory gets no task. -/
def enqueuedNode (index : BackupNodeIndex) (node : Nat) : Except Fault (Option Nat) := do
  let attributes ← index.getNodeAttributes node
  .ok (if attributes.type = .directory then none else some node)

def outputSnapshotHashValues (runtime : Runtime) (algorithm asked : HashAlgorithm)
    (volumes : VolumeContents) (tasks : TaskOrder Nat) (snapshot : Snapshot)
    (previous : List Snapshot) (fuel : Nat) : Attempt Fault (List HashValueRow) :=
  match (List.range snapshot.index.getNumberOfNodes).mapM (enqueuedNode snapshot.index) with
  | .error fault => some (.error fault)
  | .ok enqueued =>
      gather
        (fun node => hashValueTask runtime algorithm asked volumes snapshot previous node fuel)
        (tasks.order enqueued.reduceOption)

section Tasks

variable {runtime : Runtime} {algorithm asked : HashAlgorithm} {volumes : VolumeContents}
  {snapshot : Snapshot} {previous : List Snapshot}

theorem generate_hash_value_steady (node : Nat) :
    Steady (generateHashValue runtime algorithm asked volumes snapshot previous node) := by
  unfold generateHashValue
  cases snapshot.index.getNodeAttributes node with
  | error fault => exact steady_constant _
  | ok attributes =>
      cases recorded : attributes.hashes asked with
      | some hash =>
          simp only [recorded]
          exact steady_constant _
      | none =>
          simp only [recorded]
          cases findDataSnapshot snapshot previous node with
          | error fault => exact steady_constant _
          | ok found =>
              cases opened : openUnverified runtime algorithm volumes attributes found with
              | error fault =>
                  simp only [opened]
                  exact steady_constant _
              | ok stream =>
                  simp only [opened]
                  exact steady_map (flush_to_steady _ _ _ _) _

theorem hash_value_task_steady (node : Nat) :
    Steady (hashValueTask runtime algorithm asked volumes snapshot previous node) :=
  steady_map (generate_hash_value_steady node) _

theorem enqueued_nodes (index : BackupNodeIndex) :
    (List.range index.getNumberOfNodes).mapM (enqueuedNode index) =
      .ok ((List.range index.getNumberOfNodes).map fun node =>
        (index.nodes[node]?).bind fun entry =>
          if entry.2.type = .directory then none else some node) := by
  apply (map_m_ok_iff _ _ _).mpr
  rw [List.forall₂_map_right_iff]
  apply List.forall₂_same.mpr
  intro node member
  obtain ⟨⟨path, attributes⟩, entry⟩ : ∃ found, index.nodes[node]? = some found :=
    ⟨_, List.getElem?_eq_getElem (List.mem_range.mp member)⟩
  have nodeAttributes : index.getNodeAttributes node = .ok attributes :=
    (NodeIndex.get_node_attributes_ok _ _ _).mpr ⟨path, entry⟩
  simp only [enqueuedNode, nodeAttributes, bind, Except.bind, entry, Option.bind_some]

def rowOf (runtime : Runtime) (asked : HashAlgorithm) (content : Path → Bytes)
    (node : Path × FileType) : Option HashValueRow :=
  if node.2 = .directory then none
  else some { path := node.1.string, hash := runtime.hash asked (content node.1) }

/-- When every task outputs its line, the lines are those of the nodes that the
snapshot shows, in the order in which the tasks ran. -/
theorem output_rows {content : Path → Bytes} (tasks : TaskOrder Nat)
    (performs : ∀ node path attributes, snapshot.index.nodes[node]? = some (path, attributes) →
      attributes.type ≠ .directory → Finishes
        (hashValueTask runtime algorithm asked volumes snapshot previous node)
        (.ok { path := path.string, hash := runtime.hash asked (content path) })) :
    ∃ rows : List HashValueRow,
      rows.Perm ((shownNodes snapshot.index).filterMap (rowOf runtime asked content)) ∧
      ∀ outcome, Finishes (outputSnapshotHashValues runtime algorithm asked volumes tasks snapshot
        previous) outcome ↔ outcome = .ok rows := by
  let rowOfEntry : Path × BackupNodeAttributes → Option HashValueRow := fun entry =>
    rowOf runtime asked content (entry.1, entry.2.type)
  let row : Nat → Option HashValueRow := fun node => (snapshot.index.nodes[node]?).bind rowOfEntry
  let enqueued : Nat → Option Nat := fun node => (snapshot.index.nodes[node]?).bind fun entry =>
    if entry.2.type = .directory then none else some node
  have output : outputSnapshotHashValues runtime algorithm asked volumes tasks snapshot previous =
      fun fuel => gather
        (fun node => hashValueTask runtime algorithm asked volumes snapshot previous node fuel)
        (tasks.order
          ((List.range snapshot.index.getNumberOfNodes).map enqueued).reduceOption) := by
    funext fuel
    rw [outputSnapshotHashValues, enqueued_nodes]
  have rowed : ∀ node, (enqueued node).bind row = row node := by
    intro node
    cases entry : snapshot.index.nodes[node]? with
    | none => simp only [enqueued, row, entry, Option.bind_none]
    | some found =>
        by_cases directory : found.2.type = .directory
        · simp [enqueued, row, rowOfEntry, rowOf, entry, directory]
        · simp [enqueued, row, entry, directory]
  have performed : List.Forall₂
      (fun node line => Finishes
        (hashValueTask runtime algorithm asked volumes snapshot previous node) (.ok line))
      (tasks.order ((List.range snapshot.index.getNumberOfNodes).map enqueued).reduceOption)
      ((tasks.order
        ((List.range snapshot.index.getNumberOfNodes).map enqueued).reduceOption).filterMap row) := by
    apply forall_two_filter_map
    intro node member
    rw [mem_order, List.reduceOption_mem_iff] at member
    obtain ⟨number, _, chosen⟩ := List.mem_map.mp member
    obtain ⟨⟨path, attributes⟩, entry, kept⟩ := Option.bind_eq_some_iff.mp chosen
    by_cases directory : attributes.type = .directory
    · rw [if_pos directory] at kept
      cases kept
    · rw [if_neg directory, Option.some.injEq] at kept
      subst kept
      refine ⟨_, ?_, performs number path attributes entry directory⟩
      simp only [row, rowOfEntry, rowOf, entry, Option.bind_some, if_neg directory]
  have shown : (((List.range snapshot.index.getNumberOfNodes).map enqueued).reduceOption).filterMap
      row = (shownNodes snapshot.index).filterMap (rowOf runtime asked content) := by
    calc (((List.range snapshot.index.getNumberOfNodes).map enqueued).reduceOption).filterMap row
        = (List.range snapshot.index.getNumberOfNodes).filterMap row := by
          rw [List.reduceOption, List.filterMap_map, List.filterMap_filterMap]
          exact List.filterMap_congr fun node _ => rowed node
      _ = snapshot.index.nodes.filterMap rowOfEntry :=
          numbered_filter_map snapshot.index.nodes rowOfEntry
      _ = (shownNodes snapshot.index).filterMap (rowOf runtime asked content) := by
          simp only [shownNodes, typedPaths, fileSystemNodes, NodeIndex.mapAttributes,
            List.map_map, List.filterMap_map]
          rfl
  have ordered := tasks.perm
    ((List.range snapshot.index.getNumberOfNodes).map enqueued).reduceOption
  have permuted := ordered.filterMap row
  rw [shown] at permuted
  refine ⟨_, permuted, fun outcome => ?_⟩
  rw [output]
  exact finishes_iff (gather_steady hash_value_task_steady _)
    ((gather_finishes hash_value_task_steady _ _).mpr performed) outcome

end Tasks

section Histories

variable {runtime : Runtime} {algorithm asked : HashAlgorithm} {volumes : VolumeContents}
  {entry : Entry} {older : Chain} {path : Path} {content : Bytes} {node : Nat}
  {attributes : BackupNodeAttributes} {found : DataNode} {dataAttributes : BackupNodeAttributes}

/-- Whether the digest was recorded or is computed now, it is that of the content. -/
theorem hash_value_located (located : Located runtime algorithm entry older path content node
      attributes found dataAttributes)
    (intact : Intact runtime (found.snapshot.fileSystem volumes) dataAttributes content) :
    Finishes (hashValueTask runtime algorithm asked volumes entry.snapshot
        (older.map Entry.snapshot) node)
      (.ok { path := path.string, hash := runtime.hash asked content }) := by
  have nodeAttributes : entry.snapshot.index.getNodeAttributes node = .ok attributes :=
    (NodeIndex.get_node_attributes_ok _ _ _).mpr ⟨path, located.nodeEntry⟩
  have nodePath : entry.snapshot.index.getNodePath node = .ok path :=
    (NodeIndex.get_node_path_ok _ _ _).mpr ⟨attributes, located.nodeEntry⟩
  have generated : Finishes (generateHashValue runtime algorithm asked volumes entry.snapshot
      (older.map Entry.snapshot) node) (.ok (runtime.hash asked content)) := by
    unfold generateHashValue
    simp only [nodeAttributes]
    cases recorded : attributes.hashes asked with
    | some hash =>
        refine ⟨0, ?_⟩
        rw [located.records.digests asked hash recorded]
    | none =>
        obtain ⟨number, index, dataEntry⟩ := NodeIndex.get_node_index_of_lookup located.present
        have stored : found.snapshot.index.getNodeAttributes number = .ok dataAttributes :=
          (NodeIndex.get_node_attributes_ok _ _ _).mpr ⟨found.path, dataEntry⟩
        have opened : openUnverified runtime algorithm volumes attributes found = .ok
            { blocks := dataAttributes.blocks
              decoder := decoderOf runtime dataAttributes false
              expected := none } := by
          simp only [openUnverified, openLinkTargetAsStream, openFileForReading, index, stored,
            bind, Except.bind, if_pos intact.inRange]
          split <;> rfl
        simp only [located.search, opened]
        apply (finishes_map _ _ _).mpr
        refine ⟨.ok content, (intact_flushed intact false none _).mpr rfl, ?_⟩
        simp only [Except.bind, hashedContent, if_pos located.records.size.symm]
  apply (finishes_map _ _ _).mpr
  refine ⟨_, generated, ?_⟩
  simp only [Except.bind, nodePath, Except.map]

end Histories

/-- With any algorithm and in any order of the tasks, the hash values of a snapshot
of the history are those of its source, one line for each file and link. -/
theorem hash_values_of_source (runtime : Runtime) (algorithm : HashAlgorithm)
    (collisionFree : ∀ algorithm, CollisionFree runtime algorithm)
    (decompresses : Decompresses runtime) (chain : Chain)
    (reachable : (backups runtime).Reachable (after (Regular algorithm)) chain)
    (current : HistoryCurrent runtime chain) (entry : Entry) (older : Chain)
    (suffix : entry :: older <:+ chain) (asked : HashAlgorithm) (tasks : TaskOrder Nat) :
    ∃ rows : List HashValueRow,
      rows.Perm ((typedPaths entry.call.source.index.nodes).filterMap
        (rowOf runtime asked entry.call.source.content)) ∧
      ∀ outcome, Finishes (outputSnapshotHashValues runtime algorithm asked (volumesOf chain)
        tasks entry.snapshot (older.map Entry.snapshot)) outcome ↔ outcome = .ok rows := by
  have member : entry ∈ chain := suffix.subset (List.mem_cons_self ..)
  obtain ⟨last, new⟩ := new_entry_reachable reachable entry member
  have performs : ∀ node path attributes,
      entry.snapshot.index.nodes[node]? = some (path, attributes) →
      attributes.type ≠ .directory → Finishes
        (hashValueTask runtime algorithm asked (volumesOf chain) entry.snapshot
          (older.map Entry.snapshot) node)
        (.ok { path := path.string
               hash := runtime.hash asked (entry.call.source.content path) }) := by
    intro node path loaded nodeEntry isContent
    obtain ⟨_, _, located⟩ := node_located collisionFree reachable current suffix nodeEntry isContent
    exact hash_value_located located
      (located_intact located collisionFree decompresses reachable suffix)
  obtain ⟨rows, listed, output⟩ := output_rows tasks performs
  exact ⟨rows, listed.trans ((new_entry_shown new).filterMap _), output⟩

theorem moved_file_hash_value :
    ∃ newest first, (backups spellingRuntime).run [] [firstBackup, moveBackup] =
        some [newest, first] ∧
      Finishes (outputSnapshotHashValues spellingRuntime .md5 .sha512_256
        (volumesOf [newest, first]) inSequence newest.snapshot [first.snapshot])
        (.ok [{ path := movedFile.path.string
                hash := spellingRuntime.hash .sha512_256 [1, 2] }]) := by
  obtain ⟨newest, first, run, newestCall, _, reachable, current⟩ := moved_file_history
  obtain ⟨rows, listed, output⟩ := hash_values_of_source spellingRuntime .md5
    spelling_collision_free spelling_decompresses [newest, first] reachable current newest [first]
    (List.suffix_refl _) .sha512_256 inSequence
  have source : (typedPaths newest.call.source.index.nodes).filterMap
      (rowOf spellingRuntime .sha512_256 newest.call.source.content) =
        [{ path := movedFile.path.string, hash := spellingRuntime.hash .sha512_256 [1, 2] }] := by
    rw [newestCall]
    decide +kernel
  rw [source, List.perm_singleton] at listed
  refine ⟨newest, first, run, (output _).mpr ?_⟩
  rw [listed]

end ACBackup.SnapshotHashValues
