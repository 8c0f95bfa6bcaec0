import ACBackup.Library.Tracing
import ACBackup.DifferenceSpecification

/-!
`ComputeDiff` with the numbers that it hands to its two indexes. The sizes that
its progress counters read are among the accesses; the counters follow in
`KnownEndProcesses`.
-/

namespace ACBackup.DifferenceAccesses

open ACBackup.Library.Outcome ACBackup.Library.Tasks ACBackup.Library.Tracing
open ACBackup.Library.Transition
open ACBackup.Platform ACBackup.NodeAttributes ACBackup.Indexing ACBackup.SourceIndex
open ACBackup.DifferenceResolver ACBackup.SnapshotCreation ACBackup.SnapshotManager
open ACBackup.DifferenceSpecification

set_option autoImplicit false

inductive Side where
  | left
  | right
  deriving DecidableEq, Repr

/-- A number that is passed to `GetNodeAttributes` or `GetNodePath`. -/
structure Access where
  side : Side
  node : Nat
  deriving DecidableEq, Repr

structure SidedIndex where
  side : Side
  index : FileSystemNodeIndex

abbrev Accessing := Traced Access Fault

namespace SidedIndex

def getNodeAttributes (sided : SidedIndex) (node : Nat) : Accessing FileSystemNodeAttributes :=
  traced { side := sided.side, node := node } (sided.index.getNodeAttributes node)

def getNodePath (sided : SidedIndex) (node : Nat) : Accessing Path :=
  traced { side := sided.side, node := node } (sided.index.getNodePath node)

/-- Only a counter takes the size, whatever is read for the number. -/
def countSize (sided : SidedIndex) (node : Nat) : Accessing Unit :=
  traced { side := sided.side, node := node } (.ok ())

def computeTotalSize (sided : SidedIndex) (nodes : List Nat) : Accessing Nat :=
  nodes.foldlM
    (fun totalSize node => do
      let attributes ← sided.getNodeAttributes node
      pure (totalSize + attributes.size)) 0

end SidedIndex

def differenceTask (left right : SidedIndex) (node : Nat) : Accessing Bool := do
  let filePath ← left.getNodePath node
  let fileAttributes ← left.getNodeAttributes node
  if right.index.hasNodeIndex filePath then
    let otherIndex ← untraced (right.index.getNodeIndex filePath)
    let otherFileAttributes ← right.getNodeAttributes otherIndex
    pure !fileAttributes.equals otherFileAttributes
  else pure true

def traceDifference (tasks : TaskOrder Nat) (left right : SidedIndex) :
    Accessing (Std.TreeSet Nat) := do
  let _ ← left.computeTotalSize (List.range left.index.getNumberOfNodes)
  (tasks.order (List.range left.index.getNumberOfNodes)).foldlM
    (fun diff node => do
      let include_ ← differenceTask left right node
      pure (if include_ then diff.insert node else diff)) ∅

/-- The size of a node that both indexes have is read from the right one, under the
number that the left one has for it. -/
def deletedStep (left right : SidedIndex) (nodeDifferences : Std.TreeSet Nat) (node : Nat) :
    Accessing (Std.TreeSet Nat) := do
  let path ← left.getNodePath node
  if right.index.hasNodeIndex path then
    right.countSize node
    pure nodeDifferences
  else
    left.countSize node
    pure (nodeDifferences.insert node)

def traceDeleted (left right : SidedIndex) (indexes : Std.TreeSet Nat) :
    Accessing (Std.TreeSet Nat) := do
  let _ ← left.computeTotalSize indexes.toList
  indexes.toList.foldlM (deletedStep left right) ∅

def retrieveNodeHash (right : RightIndex) (node : Nat) : Accessing String :=
  traced { side := .right, node := node } (right.retrieveNodeHash node)

def leftSide (leftIndex : BackupNodeIndex) : SidedIndex where
  side := .left
  index := fileSystemNodes leftIndex

def rightSide (right : RightIndex) : SidedIndex where
  side := .right
  index := right.index

def traceNodeDifference (algorithm : HashAlgorithm) (leftIndex : BackupNodeIndex)
    (right : RightIndex) (node : Nat) : Accessing NodeDifference := do
  let attributes ← (rightSide right).getNodeAttributes node
  if attributes.type = .directory then pure .backupFully
  else
    let hash ← retrieveNodeHash right node
    match findNodeIndexByHash algorithm leftIndex hash with
    | none => pure .backupFully
    | some leftNodeIndexByHash => do
        let filePath ← (rightSide right).getNodePath node
        let leftPath ← (leftSide leftIndex).getNodePath leftNodeIndexByHash
        if leftPath = filePath then pure .updateMetadataOnly
        else pure (.backreferenceWithDifferentPath leftNodeIndexByHash)

def traceNodeDifferences (tasks : TaskOrder Nat) (algorithm : HashAlgorithm)
    (difference : NodeIndexDifferences) (leftIndex : BackupNodeIndex) (right : RightIndex)
    (rightToLeftDiffs : Std.TreeSet Nat) : Accessing NodeIndexDifferences := do
  let _ ← (rightSide right).computeTotalSize rightToLeftDiffs.toList
  (tasks.order rightToLeftDiffs.toList).foldlM
    (fun difference node => do
      let found ← traceNodeDifference algorithm leftIndex right node
      pure (difference.report node found)) difference

def traceResolve (tasks : TaskOrder Nat) (algorithm : HashAlgorithm) (leftIndex : BackupNodeIndex)
    (right : RightIndex) (leftToRightDiffs rightToLeftDiffs : Std.TreeSet Nat) :
    Accessing NodeIndexDifferences := do
  let deleted ← traceDeleted (leftSide leftIndex) (rightSide right) leftToRightDiffs
  let difference ← traceNodeDifferences tasks algorithm
    { NodeIndexDifferences.empty with deleted := deleted } leftIndex right rightToLeftDiffs
  pure { difference with deleted := removeMoved difference.deleted difference.moved }

def traceDiff (tasks : TaskOrder Nat) (algorithm : HashAlgorithm) (leftIndex : BackupNodeIndex)
    (right : RightIndex) : Accessing NodeIndexDifferences := do
  let leftToRightDiffs ← traceDifference tasks (leftSide leftIndex) (rightSide right)
  let rightToLeftDiffs ← traceDifference tasks (rightSide right) (leftSide leftIndex)
  traceResolve tasks algorithm leftIndex right leftToRightDiffs rightToLeftDiffs

def InRange (leftIndex : BackupNodeIndex) (right : RightIndex) (access : Access) : Prop :=
  match access.side with
  | .left => access.node < leftIndex.getNumberOfNodes
  | .right => access.node < right.index.getNumberOfNodes

instance inRangeDecidable (leftIndex : BackupNodeIndex) (right : RightIndex) :
    (access : Access) → Decidable (InRange leftIndex right access)
  | ⟨.left, node⟩ => inferInstanceAs (Decidable (node < leftIndex.getNumberOfNodes))
  | ⟨.right, node⟩ => inferInstanceAs (Decidable (node < right.index.getNumberOfNodes))

/-- `ComputeDiff` as it runs: a number that is not one of its index ends it. -/
def readDiff (tasks : TaskOrder Nat) (algorithm : HashAlgorithm) (leftIndex : BackupNodeIndex)
    (right : RightIndex) : Except Fault NodeIndexDifferences :=
  let comparison := traceDiff tasks algorithm leftIndex right
  if ∀ access ∈ comparison.events, InRange leftIndex right access then comparison.outcome
  else .error .outOfRange

theorem node_present {Attributes : Type} {index : NodeIndex Attributes} {node : Nat}
    (inRange : node < index.getNumberOfNodes) :
    ∃ path attributes, index.nodes[node]? = some (path, attributes) ∧
      index.getNodePath node = .ok path ∧ index.getNodeAttributes node = .ok attributes := by
  have entry : index.nodes[node]? = some (index.nodes.get ⟨node, inRange⟩) :=
    List.getElem?_eq_getElem inRange
  exact ⟨_, _, entry, (NodeIndex.get_node_path_ok _ _ _).mpr ⟨_, entry⟩,
    (NodeIndex.get_node_attributes_ok _ _ _).mpr ⟨_, entry⟩⟩

theorem not_has_node_index {Attributes : Type} {index : NodeIndex Attributes} {path : Path}
    (absent : index.lookup path = none) : ¬index.hasNodeIndex path = true := by
  rw [NodeIndex.has_node_index_iff, absent]
  rintro ⟨_, found⟩
  cases found

section Outcomes

variable {left right : SidedIndex}

theorem total_size_outcome (sided : SidedIndex) (nodes : List Nat)
    (inRange : ∀ node ∈ nodes, node < sided.index.getNumberOfNodes) :
    ∃ totalSize, (sided.computeTotalSize nodes).outcome = .ok totalSize := by
  unfold SidedIndex.computeTotalSize
  rw [outcome_fold_m]
  apply fold_m_ok
  intro node member state
  obtain ⟨_, attributes, _, _, present⟩ := node_present (inRange node member)
  simp only [SidedIndex.getNodeAttributes, outcome_bind, outcome_traced, present, outcome_pure]
  exact ⟨_, rfl⟩

theorem difference_task_outcome {node : Nat} (inRange : node < left.index.getNumberOfNodes) :
    (differenceTask left right node).outcome = .ok (nodeDiffers left.index right.index node) := by
  obtain ⟨path, attributes, entry, nodePath, nodeAttributes⟩ := node_present inRange
  unfold differenceTask
  rw [outcome_bind_ok nodePath, outcome_bind_ok nodeAttributes]
  simp only [nodeDiffers, entry, differsFrom]
  cases found : right.index.lookup path with
  | none =>
      rw [if_neg (not_has_node_index found)]
      rfl
  | some other =>
      have known : right.index.hasNodeIndex path = true :=
        (NodeIndex.has_node_index_iff _ _).mpr ⟨other, found⟩
      obtain ⟨otherIndex, number, otherEntry⟩ := NodeIndex.get_node_index_of_lookup found
      have otherAttributes : right.index.getNodeAttributes otherIndex = .ok other :=
        (NodeIndex.get_node_attributes_ok _ _ _).mpr ⟨path, otherEntry⟩
      rw [if_pos known, outcome_bind_ok number, outcome_bind_ok otherAttributes]
      rfl

theorem trace_difference_outcome (tasks : TaskOrder Nat) :
    (traceDifference tasks left right).outcome =
      .ok (computeDifference tasks left.index right.index) := by
  have listed : ∀ node ∈ List.range left.index.getNumberOfNodes,
      node < left.index.getNumberOfNodes := fun _ => List.mem_range.mp
  obtain ⟨totalSize, counted⟩ := total_size_outcome left _ listed
  unfold traceDifference
  rw [outcome_bind_ok counted]
  apply outcome_fold
  intro node member diff
  rw [mem_order] at member
  rw [outcome_bind_ok (difference_task_outcome (listed node member))]
  rfl

theorem deleted_step_outcome {node : Nat} (inRange : node < left.index.getNumberOfNodes)
    (nodeDifferences : Std.TreeSet Nat) :
    (deletedStep left right nodeDifferences node).outcome =
      .ok (insertWhen (isDeleted left.index right.index) nodeDifferences node) := by
  obtain ⟨path, attributes, entry, nodePath, nodeAttributes⟩ := node_present inRange
  unfold deletedStep
  rw [outcome_bind_ok nodePath]
  simp only [insertWhen, isDeleted, entry]
  by_cases known : right.index.hasNodeIndex path = true
  · rw [if_pos known, known]
    rfl
  · rw [if_neg known, Bool.eq_false_of_not_eq_true known]
    rfl

theorem trace_deleted_outcome {indexes : Std.TreeSet Nat}
    (inRange : ∀ node ∈ indexes.toList, node < left.index.getNumberOfNodes) :
    (traceDeleted left right indexes).outcome =
      .ok (computeDeleted left.index right.index indexes) := by
  obtain ⟨totalSize, counted⟩ := total_size_outcome left _ inRange
  unfold traceDeleted
  rw [outcome_bind_ok counted]
  apply outcome_fold
  intro node member nodeDifferences
  exact deleted_step_outcome (inRange node member) nodeDifferences

theorem trace_node_difference_outcome (algorithm : HashAlgorithm) (leftIndex : BackupNodeIndex)
    (right : RightIndex) (node : Nat) :
    (traceNodeDifference algorithm leftIndex right node).outcome =
      nodeDifference algorithm leftIndex right node := by
  unfold traceNodeDifference nodeDifference
  rw [outcome_bind]
  congr 1
  funext attributes
  by_cases directory : attributes.type = .directory
  · rw [if_pos directory, if_pos directory]
    rfl
  · rw [if_neg directory, if_neg directory, outcome_bind]
    congr 1
    funext hash
    cases findNodeIndexByHash algorithm leftIndex hash with
    | none => rfl
    | some leftNode =>
        have samePath : ((leftSide leftIndex).getNodePath leftNode).outcome =
            leftIndex.getNodePath leftNode := by
          simp only [SidedIndex.getNodePath, outcome_traced, leftSide, NodeIndex.getNodePath,
            file_system_nodes_get]
          cases leftIndex.nodes[leftNode]? <;> rfl
        simp only [outcome_bind, samePath]
        congr 1
        funext filePath
        congr 1
        funext leftPath
        by_cases same : leftPath = filePath
        · rw [if_pos same, if_pos same]
          rfl
        · rw [if_neg same, if_neg same]
          rfl

theorem difference_in_range {tasks : TaskOrder Nat} {leftIndex rightIndex : FileSystemNodeIndex} :
    ∀ node ∈ (computeDifference tasks leftIndex rightIndex).toList,
      node < leftIndex.getNumberOfNodes := by
  intro node member
  rw [Std.TreeSet.mem_toList, mem_compute_difference, node_differs_iff] at member
  obtain ⟨_, _, entry, _⟩ := member
  exact (List.getElem?_eq_some_iff.mp entry).1

/-- Without the accesses it is the comparison itself. -/
theorem trace_diff_outcome (tasks : TaskOrder Nat) (algorithm : HashAlgorithm)
    (leftIndex : BackupNodeIndex) (right : RightIndex) :
    (traceDiff tasks algorithm leftIndex right).outcome =
      computeDiff tasks algorithm leftIndex right := by
  unfold traceDiff traceResolve computeDiff resolveDifferences
  rw [outcome_bind_ok (trace_difference_outcome tasks),
    outcome_bind_ok (trace_difference_outcome tasks),
    outcome_bind_ok (trace_deleted_outcome difference_in_range), outcome_bind]
  obtain ⟨totalSize, counted⟩ := @total_size_outcome (rightSide right)
    (computeDifference tasks right.index (fileSystemNodes leftIndex)).toList difference_in_range
  have reports : ∀ start, (traceNodeDifferences tasks algorithm start leftIndex right
      (computeDifference tasks right.index (fileSystemNodes leftIndex))).outcome =
        computeNodeDifferences tasks algorithm start leftIndex right
          (computeDifference tasks right.index (fileSystemNodes leftIndex)) := by
    intro start
    unfold traceNodeDifferences computeNodeDifferences
    rw [outcome_bind_ok counted, outcome_fold_m]
    congr 1
    funext difference node
    rw [outcome_bind, trace_node_difference_outcome]
    rfl
  exact congrArg (fun outcome => outcome >>= _) (reports _)

theorem read_diff_ok {tasks : TaskOrder Nat} {algorithm : HashAlgorithm}
    {leftIndex : BackupNodeIndex} {right : RightIndex} {differences : NodeIndexDifferences} :
    readDiff tasks algorithm leftIndex right = .ok differences ↔
      (∀ access ∈ (traceDiff tasks algorithm leftIndex right).events,
        InRange leftIndex right access) ∧
      computeDiff tasks algorithm leftIndex right = .ok differences := by
  rw [← trace_diff_outcome, readDiff]
  by_cases inRange : ∀ access ∈ (traceDiff tasks algorithm leftIndex right).events,
      InRange leftIndex right access
  · rw [if_pos inRange, and_iff_right inRange]
  · rw [if_neg inRange]
    simp [inRange]

end Outcomes

section Accesses

variable {left right : SidedIndex} {property : Access → Prop}

def Permits (property : Access → Prop) (sided : SidedIndex) : Prop :=
  ∀ node < sided.index.getNumberOfNodes, property { side := sided.side, node := node }

theorem total_size_accesses (permitted : Permits property left) {nodes : List Nat}
    (inRange : ∀ node ∈ nodes, node < left.index.getNumberOfNodes) :
    (left.computeTotalSize nodes).All property := by
  apply all_fold_m
  intro node member totalSize
  rw [all_bind, SidedIndex.getNodeAttributes, all_traced]
  exact ⟨permitted node (inRange node member), fun _ _ => all_pure _⟩

theorem difference_accesses (leftPermitted : Permits property left)
    (rightPermitted : Permits property right) (tasks : TaskOrder Nat) :
    (traceDifference tasks left right).All property := by
  have listed : ∀ node ∈ List.range left.index.getNumberOfNodes,
      node < left.index.getNumberOfNodes := fun _ => List.mem_range.mp
  unfold traceDifference
  rw [all_bind]
  refine ⟨total_size_accesses leftPermitted listed, ?_⟩
  intro _ _
  apply all_fold_m
  intro node member diff
  rw [mem_order] at member
  have known := leftPermitted node (listed node member)
  rw [all_bind]
  refine ⟨?_, fun _ _ => all_pure _⟩
  unfold differenceTask SidedIndex.getNodePath SidedIndex.getNodeAttributes
  rw [all_bind, all_traced]
  refine ⟨known, ?_⟩
  intro filePath _
  rw [all_bind, all_traced]
  refine ⟨known, ?_⟩
  intro fileAttributes _
  split
  · rw [all_bind]
    refine ⟨all_untraced _, ?_⟩
    intro otherIndex number
    obtain ⟨other, otherEntry⟩ := (NodeIndex.get_node_index_ok _ _ _).mp number
    rw [all_bind, all_traced]
    exact ⟨rightPermitted otherIndex (List.getElem?_eq_some_iff.mp otherEntry).1,
      fun _ _ => all_pure _⟩
  · exact all_pure _

theorem node_difference_accesses {algorithm : HashAlgorithm} {leftIndex : BackupNodeIndex}
    {rightIndex : RightIndex} (leftPermitted : Permits property (leftSide leftIndex))
    (rightPermitted : Permits property (rightSide rightIndex)) {node : Nat}
    (inRange : node < rightIndex.index.getNumberOfNodes) :
    (traceNodeDifference algorithm leftIndex rightIndex node).All property := by
  have known := rightPermitted node inRange
  unfold traceNodeDifference SidedIndex.getNodePath SidedIndex.getNodeAttributes retrieveNodeHash
  rw [all_bind, all_traced]
  refine ⟨known, ?_⟩
  intro attributes _
  split
  · exact all_pure _
  · rw [all_bind, all_traced]
    refine ⟨known, ?_⟩
    intro hash _
    split
    · exact all_pure _
    · next leftNode search =>
        obtain ⟨leftPath, leftAttributes, leftEntry, _⟩ := find_node_index_by_hash_some search
        have bound : leftNode < (fileSystemNodes leftIndex).getNumberOfNodes := by
          have entry := file_system_nodes_get leftIndex leftNode
          rw [leftEntry] at entry
          exact (List.getElem?_eq_some_iff.mp entry).1
        rw [all_bind, all_traced]
        refine ⟨known, ?_⟩
        intro filePath _
        rw [all_bind, all_traced]
        refine ⟨leftPermitted leftNode bound, ?_⟩
        intro leftPath _
        split <;> exact all_pure _

theorem node_differences_accesses {tasks : TaskOrder Nat} {algorithm : HashAlgorithm}
    {leftIndex : BackupNodeIndex} {rightIndex : RightIndex}
    (leftPermitted : Permits property (leftSide leftIndex))
    (rightPermitted : Permits property (rightSide rightIndex)) {rightToLeftDiffs : Std.TreeSet Nat}
    (inRange : ∀ node ∈ rightToLeftDiffs.toList, node < rightIndex.index.getNumberOfNodes)
    (difference : NodeIndexDifferences) :
    (traceNodeDifferences tasks algorithm difference leftIndex rightIndex rightToLeftDiffs).All
      property := by
  unfold traceNodeDifferences
  rw [all_bind]
  refine ⟨total_size_accesses rightPermitted inRange, ?_⟩
  intro _ _
  apply all_fold_m
  intro node member reported
  rw [mem_order] at member
  rw [all_bind]
  exact ⟨node_difference_accesses leftPermitted rightPermitted (inRange node member),
    fun _ _ => all_pure _⟩

theorem deleted_step_accesses (leftPermitted : Permits property left) {node : Nat}
    (inRange : node < left.index.getNumberOfNodes) (nodeDifferences : Std.TreeSet Nat) :
    (deletedStep left right nodeDifferences node).All property ↔
      ∀ path attributes other, left.index.nodes[node]? = some (path, attributes) →
        right.index.lookup path = some other → property { side := right.side, node := node } := by
  obtain ⟨path, attributes, entry, nodePath, _⟩ := node_present inRange
  have known := leftPermitted node inRange
  have first : (left.getNodePath node).All property := (all_traced _ _).mpr known
  unfold deletedStep
  rw [all_bind_ok nodePath, and_iff_right first, entry]
  cases found : right.index.lookup path with
  | none =>
      have counted : (left.countSize node).All property := (all_traced _ _).mpr known
      rw [if_neg (not_has_node_index found), all_bind, and_iff_right counted]
      constructor
      · intro _ _ _ other same otherFound
        cases same
        rw [found] at otherFound
        cases otherFound
      · intro _ _ _
        exact all_pure _
  | some other =>
      have present : right.index.hasNodeIndex path = true :=
        (NodeIndex.has_node_index_iff _ _).mpr ⟨other, found⟩
      rw [if_pos present, all_bind, SidedIndex.countSize, all_traced]
      constructor
      · intro holds _ _ _ _ _
        exact holds.1
      · intro holds
        exact ⟨holds path attributes other rfl found, fun _ _ => all_pure _⟩

theorem deleted_accesses (leftPermitted : Permits property left) {indexes : Std.TreeSet Nat}
    (inRange : ∀ node ∈ indexes.toList, node < left.index.getNumberOfNodes) :
    (traceDeleted left right indexes).All property ↔
      ∀ node ∈ indexes.toList, ∀ path attributes other,
        left.index.nodes[node]? = some (path, attributes) →
        right.index.lookup path = some other → property { side := right.side, node := node } := by
  obtain ⟨totalSize, counted⟩ := total_size_outcome left _ inRange
  unfold traceDeleted
  rw [all_bind_ok counted, and_iff_right (total_size_accesses leftPermitted inRange)]
  constructor
  · intro every node member
    have succeeds : ∀ node ∈ indexes.toList, ∀ nodeDifferences,
        ∃ next, (deletedStep left right nodeDifferences node).outcome = .ok next :=
      fun node member nodeDifferences =>
        ⟨_, deleted_step_outcome (inRange node member) nodeDifferences⟩
    obtain ⟨nodeDifferences, step⟩ := all_fold_m_item succeeds every member
    exact (deleted_step_accesses leftPermitted (inRange node member) nodeDifferences).mp step
  · intro holds
    apply all_fold_m
    intro node member nodeDifferences
    exact (deleted_step_accesses leftPermitted (inRange node member) nodeDifferences).mpr
      (holds node member)

/-- All numbers that `ComputeDiff` passes to an index are numbers of that index,
exactly when every left node that is changed on the right has a number that the
right index has as well. -/
theorem node_numbers_in_range_iff (tasks : TaskOrder Nat) (algorithm : HashAlgorithm)
    (leftIndex : BackupNodeIndex) (right : RightIndex) :
    (∀ access ∈ (traceDiff tasks algorithm leftIndex right).events,
      InRange leftIndex right access) ↔
    ∀ node path attributes other, leftIndex.nodes[node]? = some (path, attributes) →
      right.index.lookup path = some other →
      attributes.toFileSystemNodeAttributes.equals other = false →
        node < right.index.getNumberOfNodes := by
  have leftPermitted : Permits (InRange leftIndex right) (leftSide leftIndex) := by
    intro node inRange
    simp only [leftSide, fileSystemNodes, NodeIndex.getNumberOfNodes, NodeIndex.mapAttributes,
      List.length_map] at inRange
    exact inRange
  have rightPermitted : Permits (InRange leftIndex right) (rightSide right) :=
    fun node inRange => inRange
  have forward := difference_accesses leftPermitted rightPermitted tasks
  have backward := difference_accesses rightPermitted leftPermitted tasks
  have trace : (traceDiff tasks algorithm leftIndex right).All (InRange leftIndex right) ↔
      (traceDeleted (leftSide leftIndex) (rightSide right)
        (computeDifference tasks (fileSystemNodes leftIndex) right.index)).All
          (InRange leftIndex right) := by
    unfold traceDiff traceResolve
    rw [all_bind_ok (trace_difference_outcome tasks), and_iff_right forward,
      all_bind_ok (trace_difference_outcome tasks), and_iff_right backward,
      all_bind_ok (trace_deleted_outcome difference_in_range)]
    apply and_iff_left
    rw [all_bind]
    exact ⟨node_differences_accesses leftPermitted rightPermitted difference_in_range _,
      fun _ _ => all_pure _⟩
  have deleted := @deleted_accesses _ (rightSide right) _ leftPermitted
    (computeDifference tasks (fileSystemNodes leftIndex) right.index) difference_in_range
  apply (trace.trans deleted).trans
  constructor
  · intro holds node path attributes other entry found differs
    have leftEntry : (fileSystemNodes leftIndex).nodes[node]? =
        some (path, attributes.toFileSystemNodeAttributes) := by
      rw [file_system_nodes_get, entry]
      rfl
    have listed : node ∈ (computeDifference tasks (fileSystemNodes leftIndex) right.index).toList := by
      rw [Std.TreeSet.mem_toList, mem_compute_difference, node_differs_iff]
      refine ⟨path, _, leftEntry, ?_⟩
      intro same sameFound
      rw [found] at sameFound
      cases sameFound
      exact differs
    exact holds node listed path _ other leftEntry found
  · intro holds node member path attributes other entry found
    rw [Std.TreeSet.mem_toList, mem_compute_difference, node_differs_iff] at member
    obtain ⟨leftPath, leftAttributes, leftEntry, unequal⟩ := member
    have same : (fileSystemNodes leftIndex).nodes[node]? = some (path, attributes) := entry
    rw [leftEntry] at same
    cases same
    rw [file_system_nodes_get, Option.map_eq_some_iff] at leftEntry
    obtain ⟨⟨oldPath, old⟩, oldEntry, parts⟩ := leftEntry
    cases parts
    exact holds node oldPath old other oldEntry found (unequal other found)

end Accesses

section DeletedFile

/-! Of two files the first is deleted, and the modification time of the second
changes. -/

def touchedTwin : SourceNode := fileNode "b" [1, 2] 2

def touchedTwinRight : RightIndex := sourceRight spellingRuntime .md5 (sourceOf [touchedTwin])

/-- The right index has one node, and is asked for the node with the number 1. -/
theorem touched_twin_out_of_range :
    ∃ chain left, (backups spellingRuntime).run [] [twinBackup] = some chain ∧
      lastIndex chain = some left ∧ touchedTwinRight.index.getNumberOfNodes = 1 ∧
      { side := .right, node := 1 } ∈ (traceDiff inSequence .md5 left touchedTwinRight).events ∧
      ¬∀ access ∈ (traceDiff inSequence .md5 left touchedTwinRight).events,
        InRange left touchedTwinRight access := by
  obtain ⟨chain, left, run, last, _, _⟩ :=
    @twins_recorded twinBackup [storedFile, twinFile] (by decide +kernel)
  have outcome : (((backups spellingRuntime).run [] [twinBackup]).bind lastIndex).map (fun left =>
      decide ({ side := .right, node := 1 } ∈
        (traceDiff inSequence .md5 left touchedTwinRight).events)) = some true := by decide +kernel
  rw [run, Option.bind_some, last, Option.map_some, Option.some.injEq, decide_eq_true_eq] at outcome
  have single : touchedTwinRight.index.getNumberOfNodes = 1 := by decide +kernel
  refine ⟨chain, left, run, last, single, outcome, ?_⟩
  intro every
  have inRange : 1 < touchedTwinRight.index.getNumberOfNodes := every _ outcome
  omega

end DeletedFile

end ACBackup.DifferenceAccesses
