import ACBackup.Library.Outcome
import ACBackup.Library.Tasks
import ACBackup.SourceIndex

/-!
`NodeIndexDifferenceResolver` without its progress counters. Every task works on one
node and reports under one lock.
-/

namespace ACBackup.DifferenceResolver

open ACBackup.Library.Outcome ACBackup.Library.Tasks
open ACBackup.Platform ACBackup.NodeAttributes ACBackup.Indexing ACBackup.SourceIndex

set_option autoImplicit false

/-- `deleted` refers to the left index, the others to the right one; `moved` maps
right nodes to left ones. -/
structure NodeIndexDifferences where
  deleted : Std.TreeSet Nat
  differentData : Std.TreeSet Nat
  differentMetadata : Std.TreeSet Nat
  moved : Std.TreeMap Nat Nat

def NodeIndexDifferences.empty : NodeIndexDifferences where
  deleted := ∅
  differentData := ∅
  differentMetadata := ∅
  moved := ∅

def NodeIndexDifferences.exist (difference : NodeIndexDifferences) : Bool :=
  !(difference.deleted.isEmpty && difference.differentData.isEmpty &&
    difference.differentMetadata.isEmpty && difference.moved.isEmpty)

/-- The right index of a comparison: `RetrieveNodeHash` depends on its dynamic
type. -/
structure RightIndex where
  index : FileSystemNodeIndex
  retrieveNodeHash : Nat → Except Fault String

def fileSystemNodes (index : BackupNodeIndex) : FileSystemNodeIndex :=
  index.mapAttributes BackupNodeAttributes.toFileSystemNodeAttributes

def backupRight (algorithm : HashAlgorithm) (index : BackupNodeIndex) : RightIndex where
  index := fileSystemNodes index
  retrieveNodeHash nodeIndex := do
    let attributes ← index.getNodeAttributes nodeIndex
    attributes.hash algorithm

def sourceRight (runtime : Runtime) (algorithm : HashAlgorithm) (source : OSFileSystemNodeIndex) :
    RightIndex where
  index := source.index
  retrieveNodeHash := source.computeNodeHash runtime algorithm

def differsFrom (other : FileSystemNodeIndex) (entry : Path × FileSystemNodeAttributes) : Bool :=
  match other.lookup entry.1 with
  | some otherAttributes => !entry.2.equals otherAttributes
  | none => true

def nodeDiffers (leftIndex rightIndex : FileSystemNodeIndex) (node : Nat) : Bool :=
  match leftIndex.nodes[node]? with
  | some entry => differsFrom rightIndex entry
  | none => false

def computeDifference (tasks : TaskOrder Nat) (leftIndex rightIndex : FileSystemNodeIndex) :
    Std.TreeSet Nat :=
  (tasks.order (List.range leftIndex.getNumberOfNodes)).foldl
    (insertWhen (nodeDiffers leftIndex rightIndex)) ∅

def isDeleted (leftIndex rightIndex : FileSystemNodeIndex) (node : Nat) : Bool :=
  match leftIndex.nodes[node]? with
  | some entry => !rightIndex.hasNodeIndex entry.1
  | none => false

/-- `ComputeDeleted` without the size that only its progress counter takes, which is read
from the right index under the number of the left one: see `deletedStep`. -/
def computeDeleted (leftIndex rightIndex : FileSystemNodeIndex) (indexes : Std.TreeSet Nat) :
    Std.TreeSet Nat :=
  indexes.toList.foldl (insertWhen (isDeleted leftIndex rightIndex)) ∅

/-- `NodeDifferenceType`, as far as it is reported for nodes of the right index. -/
inductive NodeDifference where
  | backupFully
  | updateMetadataOnly
  | backreferenceWithDifferentPath (moveIndex : Nat)
  deriving DecidableEq, Repr

/-- The task of `ComputeNodeDifferences` for one node. -/
def nodeDifference (algorithm : HashAlgorithm) (leftIndex : BackupNodeIndex) (right : RightIndex)
    (node : Nat) : Except Fault NodeDifference := do
  let attributes ← right.index.getNodeAttributes node
  if attributes.type = .directory then .ok .backupFully
  else
    let hash ← right.retrieveNodeHash node
    match findNodeIndexByHash algorithm leftIndex hash with
    | none => .ok .backupFully
    | some leftNodeIndexByHash => do
        let filePath ← right.index.getNodePath node
        let leftPath ← leftIndex.getNodePath leftNodeIndexByHash
        if leftPath = filePath then .ok .updateMetadataOnly
        else .ok (.backreferenceWithDifferentPath leftNodeIndexByHash)

def NodeIndexDifferences.report (difference : NodeIndexDifferences) (node : Nat) :
    NodeDifference → NodeIndexDifferences
  | .backupFully => { difference with differentData := difference.differentData.insert node }
  | .updateMetadataOnly =>
      { difference with differentMetadata := difference.differentMetadata.insert node }
  | .backreferenceWithDifferentPath moveIndex =>
      { difference with moved := difference.moved.insert node moveIndex }

def computeNodeDifferences (tasks : TaskOrder Nat) (algorithm : HashAlgorithm)
    (difference : NodeIndexDifferences) (leftIndex : BackupNodeIndex) (right : RightIndex)
    (rightToLeftDiffs : Std.TreeSet Nat) : Except Fault NodeIndexDifferences :=
  (tasks.order rightToLeftDiffs.toList).foldlM
    (fun difference node => do
      let found ← nodeDifference algorithm leftIndex right node
      .ok (difference.report node found)) difference

def removeMoved (deleted : Std.TreeSet Nat) (moved : Std.TreeMap Nat Nat) : Std.TreeSet Nat :=
  moved.toList.foldl (fun deleted entry => deleted.erase entry.2) deleted

def resolveDifferences (tasks : TaskOrder Nat) (algorithm : HashAlgorithm)
    (leftIndex : BackupNodeIndex) (right : RightIndex)
    (leftToRightDiffs rightToLeftDiffs : Std.TreeSet Nat) : Except Fault NodeIndexDifferences := do
  let deleted := computeDeleted (fileSystemNodes leftIndex) right.index leftToRightDiffs
  let difference ← computeNodeDifferences tasks algorithm
    { NodeIndexDifferences.empty with deleted := deleted } leftIndex right rightToLeftDiffs
  .ok { difference with deleted := removeMoved difference.deleted difference.moved }

def computeDiff (tasks : TaskOrder Nat) (algorithm : HashAlgorithm) (leftIndex : BackupNodeIndex)
    (right : RightIndex) : Except Fault NodeIndexDifferences :=
  let leftToRightDiffs := computeDifference tasks (fileSystemNodes leftIndex) right.index
  let rightToLeftDiffs := computeDifference tasks right.index (fileSystemNodes leftIndex)
  resolveDifferences tasks algorithm leftIndex right leftToRightDiffs rightToLeftDiffs

theorem node_differs_iff (leftIndex rightIndex : FileSystemNodeIndex) (node : Nat) :
    nodeDiffers leftIndex rightIndex node = true ↔
      ∃ path attributes, leftIndex.nodes[node]? = some (path, attributes) ∧
        ∀ other, rightIndex.lookup path = some other → attributes.equals other = false := by
  unfold nodeDiffers
  cases entry : leftIndex.nodes[node]? with
  | none => simp
  | some pair =>
      obtain ⟨path, attributes⟩ := pair
      cases found : rightIndex.lookup path with
      | none => simp [differsFrom, found]
      | some other => simp [differsFrom, found]

/-- What a decision about a node of the right index is based on. -/
theorem node_difference_ok {algorithm : HashAlgorithm} {leftIndex : BackupNodeIndex}
    {right : RightIndex} {node : Nat} {path : Path} {attributes : FileSystemNodeAttributes}
    (entry : right.index.nodes[node]? = some (path, attributes)) {found : NodeDifference}
    (decided : nodeDifference algorithm leftIndex right node = .ok found) :
    (attributes.type = .directory ∧ found = .backupFully) ∨
      (attributes.type ≠ .directory ∧ ∃ hash, right.retrieveNodeHash node = .ok hash ∧
        ((findNodeIndexByHash algorithm leftIndex hash = none ∧ found = .backupFully) ∨
          ∃ leftNode leftPath leftAttributes,
            findNodeIndexByHash algorithm leftIndex hash = some leftNode ∧
            leftIndex.nodes[leftNode]? = some (leftPath, leftAttributes) ∧
            found = if leftPath = path then .updateMetadataOnly
              else .backreferenceWithDifferentPath leftNode)) := by
  have nodeAttributes : right.index.getNodeAttributes node = .ok attributes :=
    (NodeIndex.get_node_attributes_ok _ _ _).mpr ⟨path, entry⟩
  have nodePath : right.index.getNodePath node = .ok path :=
    (NodeIndex.get_node_path_ok _ _ _).mpr ⟨attributes, entry⟩
  simp only [nodeDifference, nodeAttributes, nodePath, bind, Except.bind] at decided
  by_cases directory : attributes.type = .directory
  · rw [if_pos directory] at decided
    cases decided
    exact .inl ⟨directory, rfl⟩
  · rw [if_neg directory] at decided
    refine .inr ⟨directory, ?_⟩
    cases retrieved : right.retrieveNodeHash node with
    | error fault => simp [retrieved] at decided
    | ok hash =>
        refine ⟨hash, rfl, ?_⟩
        simp only [retrieved] at decided
        cases search : findNodeIndexByHash algorithm leftIndex hash with
        | none =>
            simp only [search] at decided
            cases decided
            exact .inl ⟨rfl, rfl⟩
        | some leftNode =>
            obtain ⟨leftPath, leftAttributes, leftEntry, _⟩ := find_node_index_by_hash_some search
            have leftNodePath : leftIndex.getNodePath leftNode = .ok leftPath :=
              (NodeIndex.get_node_path_ok _ _ _).mpr ⟨leftAttributes, leftEntry⟩
            simp only [search, leftNodePath] at decided
            refine .inr ⟨leftNode, leftPath, leftAttributes, rfl, leftEntry, ?_⟩
            by_cases same : leftPath = path
            · rw [if_pos same] at decided ⊢
              cases decided
              rfl
            · rw [if_neg same] at decided ⊢
              cases decided
              rfl

theorem mem_compute_difference (tasks : TaskOrder Nat) (leftIndex rightIndex : FileSystemNodeIndex)
    (node : Nat) :
    node ∈ computeDifference tasks leftIndex rightIndex ↔
      nodeDiffers leftIndex rightIndex node = true := by
  rw [computeDifference, mem_insert_when, mem_order, List.mem_range]
  constructor
  · intro member
    rcases member with impossible | described
    · exact absurd impossible Std.TreeSet.not_mem_emptyc
    · exact described.2
  · intro differs
    obtain ⟨path, attributes, entry, _⟩ := (node_differs_iff _ _ _).mp differs
    have bound := (List.getElem?_eq_some_iff.mp entry).1
    exact .inr ⟨bound, differs⟩

/-- What the reports of a list of tasks leave behind, in any order. -/
structure Reported (difference : Nat → Except Fault NodeDifference) (nodes : List Nat)
    (start final : NodeIndexDifferences) : Prop where
  classified : ∀ node ∈ nodes, ∃ found, difference node = .ok found
  deleted : final.deleted = start.deleted
  differentData : ∀ node, node ∈ final.differentData ↔
    node ∈ start.differentData ∨ (node ∈ nodes ∧ difference node = .ok .backupFully)
  differentMetadata : ∀ node, node ∈ final.differentMetadata ↔
    node ∈ start.differentMetadata ∨ (node ∈ nodes ∧ difference node = .ok .updateMetadataOnly)
  moved : ∀ node moveIndex, final.moved[node]? = some moveIndex ↔
    (node ∈ nodes ∧ difference node = .ok (.backreferenceWithDifferentPath moveIndex)) ∨
      (start.moved[node]? = some moveIndex ∧ ¬(node ∈ nodes ∧
        ∃ other, difference node = .ok (.backreferenceWithDifferentPath other)))

theorem reported_nil (difference : Nat → Except Fault NodeDifference)
    (start : NodeIndexDifferences) : Reported difference [] start start where
  classified node member := by cases member
  deleted := rfl
  differentData node := by simp
  differentMetadata node := by simp
  moved node moveIndex := by simp

theorem reported_cons {difference : Nat → Except Fault NodeDifference} {node : Nat}
    {nodes : List Nat} {found : NodeDifference} {start final : NodeIndexDifferences}
    (first : difference node = .ok found)
    (rest : Reported difference nodes (start.report node found) final) :
    Reported difference (node :: nodes) start final := by
  refine ⟨?_, ?_, ?_, ?_, ?_⟩
  · intro other member
    rcases List.mem_cons.mp member with same | later
    · exact ⟨found, same ▸ first⟩
    · exact rest.classified other later
  · rw [rest.deleted]
    cases found <;> rfl
  · intro other
    rw [rest.differentData]
    cases found <;> simp only [NodeIndexDifferences.report, List.mem_cons,
      Std.TreeSet.mem_insert, Std.compare_eq_iff_eq]
    all_goals by_cases same : other = node
    all_goals grind
  · intro other
    rw [rest.differentMetadata]
    cases found <;> simp only [NodeIndexDifferences.report, List.mem_cons,
      Std.TreeSet.mem_insert, Std.compare_eq_iff_eq]
    all_goals by_cases same : other = node
    all_goals grind
  · intro other moveIndex
    rw [rest.moved]
    cases found <;> simp only [NodeIndexDifferences.report, List.mem_cons,
      Std.TreeMap.getElem?_insert, Std.compare_eq_iff_eq]
    all_goals by_cases same : other = node
    all_goals grind

theorem compute_node_differences_reported {tasks : TaskOrder Nat} {algorithm : HashAlgorithm}
    {start final : NodeIndexDifferences} {leftIndex : BackupNodeIndex} {right : RightIndex}
    {rightToLeftDiffs : Std.TreeSet Nat}
    (run : computeNodeDifferences tasks algorithm start leftIndex right rightToLeftDiffs =
      .ok final) :
    Reported (nodeDifference algorithm leftIndex right)
      (tasks.order rightToLeftDiffs.toList) start final := by
  unfold computeNodeDifferences at run
  generalize tasks.order rightToLeftDiffs.toList = nodes at run
  induction nodes generalizing start with
  | nil =>
      cases run
      exact reported_nil _ _
  | cons node nodes induction =>
      rw [List.foldlM_cons] at run
      obtain ⟨middle, first, rest⟩ := bind_ok run
      obtain ⟨found, classified, reported⟩ := bind_ok first
      cases reported
      exact reported_cons classified (induction rest)

theorem mem_remove_moved (deleted : Std.TreeSet Nat) (moved : Std.TreeMap Nat Nat) (node : Nat) :
    node ∈ removeMoved deleted moved ↔
      node ∈ deleted ∧ ∀ right : Nat, moved[right]? ≠ some node := by
  have fold : ∀ (entries : List (Nat × Nat)) (start : Std.TreeSet Nat),
      node ∈ entries.foldl (fun deleted entry => deleted.erase entry.2) start ↔
        node ∈ start ∧ ∀ entry ∈ entries, entry.2 ≠ node := by
    intro entries
    induction entries with
    | nil => simp
    | cons entry rest induction =>
        intro start
        rw [List.foldl_cons, induction]
        simp only [Std.TreeSet.mem_erase, ne_eq, Std.compare_eq_iff_eq, List.mem_cons,
          forall_eq_or_imp]
        tauto
  rw [removeMoved, fold]
  constructor
  · intro kept
    refine ⟨kept.1, ?_⟩
    intro right target
    exact kept.2 (right, node) (Std.TreeMap.mem_toList_iff_getElem?_eq_some.mpr target) rfl
  · intro kept
    refine ⟨kept.1, ?_⟩
    intro entry member same
    apply kept.2 entry.1
    rw [← same]
    exact Std.TreeMap.mem_toList_iff_getElem?_eq_some.mp member

structure DiffComputed (algorithm : HashAlgorithm) (leftIndex : BackupNodeIndex)
    (right : RightIndex) (difference : NodeIndexDifferences) : Prop where
  classified : ∀ node, nodeDiffers right.index (fileSystemNodes leftIndex) node = true →
    ∃ found, nodeDifference algorithm leftIndex right node = .ok found
  differentData : ∀ node, node ∈ difference.differentData ↔
    nodeDiffers right.index (fileSystemNodes leftIndex) node = true ∧
      nodeDifference algorithm leftIndex right node = .ok .backupFully
  differentMetadata : ∀ node, node ∈ difference.differentMetadata ↔
    nodeDiffers right.index (fileSystemNodes leftIndex) node = true ∧
      nodeDifference algorithm leftIndex right node = .ok .updateMetadataOnly
  moved : ∀ node moveIndex, difference.moved[node]? = some moveIndex ↔
    nodeDiffers right.index (fileSystemNodes leftIndex) node = true ∧
      nodeDifference algorithm leftIndex right node =
        .ok (.backreferenceWithDifferentPath moveIndex)
  deleted : ∀ node, node ∈ difference.deleted ↔
    (nodeDiffers (fileSystemNodes leftIndex) right.index node = true ∧
      isDeleted (fileSystemNodes leftIndex) right.index node = true) ∧
      ∀ other : Nat, difference.moved[other]? ≠ some node

theorem compute_diff_computed {tasks : TaskOrder Nat} {algorithm : HashAlgorithm}
    {leftIndex : BackupNodeIndex} {right : RightIndex} {difference : NodeIndexDifferences}
    (run : computeDiff tasks algorithm leftIndex right = .ok difference) :
    DiffComputed algorithm leftIndex right difference := by
  unfold computeDiff resolveDifferences at run
  obtain ⟨reported, found, rest⟩ := bind_ok run
  cases rest
  have reports := compute_node_differences_reported found
  have listed : ∀ node, node ∈ tasks.order
      (computeDifference tasks right.index (fileSystemNodes leftIndex)).toList ↔
        nodeDiffers right.index (fileSystemNodes leftIndex) node = true := by
    intro node
    rw [mem_order, Std.TreeSet.mem_toList, mem_compute_difference]
  refine ⟨?_, ?_, ?_, ?_, ?_⟩
  · intro node differs
    exact reports.classified node ((listed node).mpr differs)
  · intro node
    rw [reports.differentData, listed]
    simp [NodeIndexDifferences.empty]
  · intro node
    rw [reports.differentMetadata, listed]
    simp [NodeIndexDifferences.empty]
  · intro node moveIndex
    rw [reports.moved, listed]
    simp [NodeIndexDifferences.empty]
  · intro node
    rw [mem_remove_moved, reports.deleted, computeDeleted, mem_insert_when,
      Std.TreeSet.mem_toList, mem_compute_difference]
    simp

theorem compute_diff_same {tasks : TaskOrder Nat} {algorithm : HashAlgorithm}
    {leftIndex : BackupNodeIndex} {right : RightIndex}
    (leftSame : ∀ node, nodeDiffers (fileSystemNodes leftIndex) right.index node = false)
    (rightSame : ∀ node, nodeDiffers right.index (fileSystemNodes leftIndex) node = false) :
    computeDiff tasks algorithm leftIndex right = .ok NodeIndexDifferences.empty := by
  have none : ∀ left right : FileSystemNodeIndex, (∀ node, nodeDiffers left right node = false) →
      (computeDifference tasks left right).toList = [] := by
    intro left right same
    rw [List.eq_nil_iff_forall_not_mem]
    intro node member
    rw [Std.TreeSet.mem_toList, mem_compute_difference, same] at member
    cases member
  have order : tasks.order [] = [] := List.perm_nil.mp (tasks.perm [])
  simp only [computeDiff, resolveDifferences, computeDeleted, computeNodeDifferences,
    none _ _ leftSame, none _ _ rightSame, order]
  rfl

end ACBackup.DifferenceResolver
