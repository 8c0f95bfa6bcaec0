import ACBackup.DifferenceAccesses
import ACBackup.SnapshotMirror
import ACBackup.VerifyCommands

/-!
The diff commands. What they print is a patch: with the contents of the nodes that it
names as new it turns one source into the other, and it names as new only what the
first source has nowhere.
-/

namespace ACBackup.DiffCommands

open ACBackup.Library.Outcome ACBackup.Library.Tasks ACBackup.Library.Transition
open ACBackup.Platform ACBackup.NodeAttributes ACBackup.Indexing ACBackup.SourceIndex
open ACBackup.DifferenceResolver ACBackup.DifferenceSpecification ACBackup.DifferenceAccesses
open ACBackup.SnapshotChain
open ACBackup.SnapshotCreation ACBackup.SnapshotManager ACBackup.RecordedContent
open ACBackup.SnapshotMirror ACBackup.ChainOrder ACBackup.ReadPaths ACBackup.VerifyCommands

set_option autoImplicit false

inductive Row where
  | deleted (path : Path)
  | differentData (path : Path)
  | differentMetadata (path : Path)
  | moved (oldPath newPath : Path)
  | noDifferences
  deriving DecidableEq

def Row.about : Row → Option Path
  | .deleted _ => none
  | .differentData path => some path
  | .differentMetadata path => some path
  | .moved _ newPath => some newPath
  | .noDifferences => none

section Commands

variable {Attributes : Type}

def pathRow (index : NodeIndex Attributes) (row : Path → Row) (node : Nat) : Except Fault Row := do
  let path ← index.getNodePath node
  .ok (row path)

def movedRow (leftIndex : BackupNodeIndex) (rightIndex : FileSystemNodeIndex) (kv : Nat × Nat) :
    Except Fault Row := do
  let oldPath ← leftIndex.getNodePath kv.2
  let newPath ← rightIndex.getNodePath kv.1
  .ok (.moved oldPath newPath)

/-- `Diff`. -/
def diff (tasks : TaskOrder Nat) (algorithm : HashAlgorithm) (snapshot : Snapshot)
    (right : RightIndex) : Except Fault (List Row) := do
  let differences ← readDiff tasks algorithm snapshot.index right
  let deleted ← differences.deleted.toList.mapM (pathRow snapshot.index .deleted)
  let differentData ← differences.differentData.toList.mapM (pathRow right.index .differentData)
  let differentMetadata ←
    differences.differentMetadata.toList.mapM (pathRow right.index .differentMetadata)
  let moved ← differences.moved.toList.mapM (movedRow snapshot.index right.index)
  .ok (deleted ++ differentData ++ differentMetadata ++ moved ++
    if differences.exist then [] else [.noDifferences])

def findSnapshot (snapshots : List Snapshot) (name : String) : Option Snapshot :=
  snapshots.find? fun snapshot => snapshot.name = name

/-- `none` when a snapshot is not found. -/
def commandDiffSnapshots (tasks : TaskOrder Nat) (algorithm : HashAlgorithm)
    (snapshots : List Snapshot) (snapshotName otherSnapshotName : String) :
    Except Fault (Option (List Row)) :=
  match findSnapshot snapshots snapshotName with
  | none => .ok none
  | some snapshot1 =>
      match findSnapshot snapshots otherSnapshotName with
      | none => .ok none
      | some snapshot2 =>
          (diff tasks algorithm snapshot1 (backupRight algorithm snapshot2.index)).map some

def commandDiffSnapshotWithSourceDirectory (tasks : TaskOrder Nat) (runtime : Runtime)
    (algorithm : HashAlgorithm) (snapshots : List Snapshot) (snapshotName : String)
    (source : OSFileSystemNodeIndex) : Except Fault (Option (List Row)) :=
  match findSnapshot snapshots snapshotName with
  | none => .ok none
  | some snapshot => (diff tasks algorithm snapshot (sourceRight runtime algorithm source)).map some

end Commands

section Rows

variable {Attributes : Type} {tasks : TaskOrder Nat} {algorithm : HashAlgorithm}
  {snapshot : Snapshot} {right : RightIndex} {rows : List Row}

theorem path_row_ok {index : NodeIndex Attributes} {make : Path → Row} {node : Nat} {row : Row} :
    pathRow index make node = .ok row ↔
      ∃ path, row = make path ∧ ∃ attributes, index.nodes[node]? = some (path, attributes) := by
  constructor
  · intro run
    obtain ⟨path, found, made⟩ := bind_ok run
    cases made
    exact ⟨path, rfl, (NodeIndex.get_node_path_ok _ _ _).mp found⟩
  · rintro ⟨path, rfl, entry⟩
    have found : index.getNodePath node = .ok path :=
      (NodeIndex.get_node_path_ok _ _ _).mpr entry
    simp only [pathRow, found, bind, Except.bind]

theorem moved_row_ok {leftIndex : BackupNodeIndex} {rightIndex : FileSystemNodeIndex}
    {kv : Nat × Nat} {row : Row} :
    movedRow leftIndex rightIndex kv = .ok row ↔
      ∃ oldPath newPath, row = .moved oldPath newPath ∧
        (∃ old, leftIndex.nodes[kv.2]? = some (oldPath, old)) ∧
          ∃ attributes, rightIndex.nodes[kv.1]? = some (newPath, attributes) := by
  constructor
  · intro run
    obtain ⟨oldPath, oldFound, later⟩ := bind_ok run
    obtain ⟨newPath, newFound, made⟩ := bind_ok later
    cases made
    exact ⟨oldPath, newPath, rfl, (NodeIndex.get_node_path_ok _ _ _).mp oldFound,
      (NodeIndex.get_node_path_ok _ _ _).mp newFound⟩
  · rintro ⟨oldPath, newPath, rfl, oldEntry, newEntry⟩
    have oldFound : leftIndex.getNodePath kv.2 = .ok oldPath :=
      (NodeIndex.get_node_path_ok _ _ _).mpr oldEntry
    have newFound : rightIndex.getNodePath kv.1 = .ok newPath :=
      (NodeIndex.get_node_path_ok _ _ _).mpr newEntry
    simp only [movedRow, oldFound, newFound, bind, Except.bind]

theorem mem_rows {Source : Type} {f : Source → Except Fault Row} {list : List Source}
    (run : list.mapM f = .ok rows) (row : Row) :
    row ∈ rows ↔ ∃ source ∈ list, f source = .ok row := by
  constructor
  · exact map_m_ok_mem run
  · rintro ⟨source, member, made⟩
    obtain ⟨other, inside, found⟩ := forall_two_mem ((map_m_ok_iff f list rows).mp run) member
    rw [made] at found
    cases found
    exact inside

structure Printed (leftIndex : BackupNodeIndex) (right : RightIndex)
    (differences : NodeIndexDifferences) (rows : List Row) : Prop where
  deleted : ∀ path, .deleted path ∈ rows ↔ ∃ node ∈ differences.deleted, ∃ attributes,
    leftIndex.nodes[node]? = some (path, attributes)
  differentData : ∀ path, .differentData path ∈ rows ↔ ∃ node ∈ differences.differentData,
    ∃ attributes, right.index.nodes[node]? = some (path, attributes)
  differentMetadata : ∀ path, .differentMetadata path ∈ rows ↔
    ∃ node ∈ differences.differentMetadata, ∃ attributes,
      right.index.nodes[node]? = some (path, attributes)
  moved : ∀ oldPath newPath, .moved oldPath newPath ∈ rows ↔ ∃ node leftNode : Nat,
    differences.moved[node]? = some leftNode ∧
      (∃ old, leftIndex.nodes[leftNode]? = some (oldPath, old)) ∧
        ∃ attributes, right.index.nodes[node]? = some (newPath, attributes)
  noDifferences : .noDifferences ∈ rows ↔ differences.exist = false
  distinct : rows.Nodup

theorem path_rows_distinct {index : NodeIndex Attributes} {make : Path → Row}
    (tells : Function.Injective make) {nodes : Std.TreeSet Nat}
    (run : nodes.toList.mapM (pathRow index make) = .ok rows) : rows.Nodup := by
  apply map_m_nodup run
  · intro first second row firstMade secondMade
    obtain ⟨path, rfl, _, entry⟩ := path_row_ok.mp firstMade
    obtain ⟨other, same, _, otherEntry⟩ := path_row_ok.mp secondMade
    cases tells same
    exact NodeIndex.node_number_unique entry otherEntry
  · apply Std.TreeSet.distinct_toList.imp
    intro first second different same
    exact different (compare_eq_iff_eq.mpr same)

theorem moved_rows_distinct {leftIndex : BackupNodeIndex} {rightIndex : FileSystemNodeIndex}
    {moved : Std.TreeMap Nat Nat}
    (run : moved.toList.mapM (movedRow leftIndex rightIndex) = .ok rows) : rows.Nodup := by
  apply map_m_nodup run
  · rintro ⟨node, leftNode⟩ ⟨other, otherLeft⟩ row firstMade secondMade
    obtain ⟨oldPath, newPath, rfl, ⟨_, oldEntry⟩, _, entry⟩ := moved_row_ok.mp firstMade
    obtain ⟨_, _, same, ⟨_, otherOld⟩, _, otherEntry⟩ := moved_row_ok.mp secondMade
    cases same
    rw [Prod.mk.injEq]
    exact ⟨NodeIndex.node_number_unique entry otherEntry,
      NodeIndex.node_number_unique oldEntry otherOld⟩
  · apply Std.TreeMap.distinct_keys_toList.imp
    intro first second different same
    exact different (compare_eq_iff_eq.mpr (congrArg Prod.fst same))

theorem diff_printed (run : diff tasks algorithm snapshot right = .ok rows) :
    ∃ differences, computeDiff tasks algorithm snapshot.index right = .ok differences ∧
      Printed snapshot.index right differences rows := by
  obtain ⟨differences, read, run⟩ := bind_ok run
  have computed := (read_diff_ok.mp read).2
  obtain ⟨deleted, deletedRun, run⟩ := bind_ok run
  obtain ⟨differentData, dataRun, run⟩ := bind_ok run
  obtain ⟨differentMetadata, metadataRun, run⟩ := bind_ok run
  obtain ⟨moved, movedRun, run⟩ := bind_ok run
  cases run
  have last : ∀ row : Row, (row ∈ if differences.exist = true then [] else [Row.noDifferences]) ↔
      differences.exist = false ∧ row = .noDifferences := by
    intro row
    cases differences.exist <;> simp
  have distinct : (deleted ++ differentData ++ differentMetadata ++ moved ++
      if differences.exist then [] else [Row.noDifferences]).Nodup := by
    have single : (if differences.exist = true then [] else [Row.noDifferences]).Nodup := by
      cases differences.exist <;> simp
    have deletedOnce := path_rows_distinct (fun _ _ => Row.deleted.inj) deletedRun
    have dataOnce := path_rows_distinct (fun _ _ => Row.differentData.inj) dataRun
    have metadataOnce := path_rows_distinct (fun _ _ => Row.differentMetadata.inj) metadataRun
    simp only [List.nodup_append, deletedOnce, dataOnce, metadataOnce,
      moved_rows_distinct movedRun, single, List.mem_append, mem_rows deletedRun, mem_rows dataRun,
      mem_rows metadataRun, mem_rows movedRun, last, path_row_ok, moved_row_ok]
    grind
  refine ⟨differences, computed, ?_, ?_, ?_, ?_, ?_, distinct⟩ <;>
    simp only [List.mem_append, mem_rows deletedRun, mem_rows dataRun, mem_rows metadataRun,
      mem_rows movedRun, last, path_row_ok, moved_row_ok, Std.TreeSet.mem_toList, Prod.exists,
      Std.TreeMap.mem_toList_iff_getElem?_eq_some, reduceCtorEq, and_false, false_and,
      exists_false, or_false, false_or, Row.deleted.injEq, Row.differentData.injEq,
      Row.differentMetadata.injEq, Row.moved.injEq, exists_eq_left', and_assoc, exists_and_left,
      and_true, implies_true]

def RowOf (leftIndex : BackupNodeIndex) (path : Path) : NodeDifference → Row → Prop
  | .backupFully, row => row = .differentData path
  | .updateMetadataOnly, row => row = .differentMetadata path
  | .backreferenceWithDifferentPath leftNode, row =>
      ∃ oldPath old, leftIndex.nodes[leftNode]? = some (oldPath, old) ∧ row = .moved oldPath path

theorem row_of_unique {leftIndex : BackupNodeIndex} {path : Path} {found : NodeDifference}
    {first second : Row} (left : RowOf leftIndex path found first)
    (right : RowOf leftIndex path found second) : first = second := by
  cases found with
  | backupFully => exact left.trans right.symm
  | updateMetadataOnly => exact left.trans right.symm
  | backreferenceWithDifferentPath leftNode =>
      obtain ⟨oldPath, old, entry, rfl⟩ := left
      obtain ⟨_, _, same, rfl⟩ := right
      rw [entry] at same
      cases same
      rfl

variable {leftIndex : BackupNodeIndex} {differences : NodeIndexDifferences} {path : Path}

theorem row_about (printed : Printed leftIndex right differences rows)
    (computed : DiffComputed algorithm leftIndex right differences) {row : Row}
    (member : row ∈ rows) (about : row.about = some path) :
    ∃ node attributes found, right.index.nodes[node]? = some (path, attributes) ∧
      nodeDiffers right.index (fileSystemNodes leftIndex) node = true ∧
      nodeDifference algorithm leftIndex right node = .ok found ∧
      RowOf leftIndex path found row := by
  cases row with
  | deleted other => cases about
  | noDifferences => cases about
  | differentData other =>
      cases about
      obtain ⟨node, inside, attributes, entry⟩ := (printed.differentData path).mp member
      obtain ⟨differs, decided⟩ := (computed.differentData node).mp inside
      exact ⟨node, attributes, _, entry, differs, decided, rfl⟩
  | differentMetadata other =>
      cases about
      obtain ⟨node, inside, attributes, entry⟩ := (printed.differentMetadata path).mp member
      obtain ⟨differs, decided⟩ := (computed.differentMetadata node).mp inside
      exact ⟨node, attributes, _, entry, differs, decided, rfl⟩
  | moved oldPath newPath =>
      cases about
      obtain ⟨node, leftNode, inside, ⟨old, oldEntry⟩, attributes, entry⟩ :=
        (printed.moved oldPath path).mp member
      obtain ⟨differs, decided⟩ := (computed.moved node leftNode).mp inside
      exact ⟨node, attributes, _, entry, differs, decided, oldPath, old, oldEntry, rfl⟩

theorem row_for (printed : Printed leftIndex right differences rows)
    (computed : DiffComputed algorithm leftIndex right differences) {node : Nat}
    {attributes : FileSystemNodeAttributes}
    (entry : right.index.nodes[node]? = some (path, attributes))
    (differs : nodeDiffers right.index (fileSystemNodes leftIndex) node = true) :
    ∃ row ∈ rows, row.about = some path := by
  obtain ⟨found, decided⟩ := computed.classified node differs
  cases found with
  | backupFully =>
      refine ⟨.differentData path, ?_, rfl⟩
      rw [printed.differentData]
      exact ⟨node, (computed.differentData node).mpr ⟨differs, decided⟩, attributes, entry⟩
  | updateMetadataOnly =>
      refine ⟨.differentMetadata path, ?_, rfl⟩
      rw [printed.differentMetadata]
      exact ⟨node, (computed.differentMetadata node).mpr ⟨differs, decided⟩, attributes, entry⟩
  | backreferenceWithDifferentPath leftNode =>
      obtain ⟨_, target, oldPath, old, _, search, leftEntry, _, reported⟩ :=
        node_difference_hit entry decided nofun
      have same : leftNode = target := by
        by_cases here : oldPath = path
        · rw [if_pos here] at reported
          cases reported
        · rw [if_neg here] at reported
          exact NodeDifference.backreferenceWithDifferentPath.inj reported
      subst same
      refine ⟨.moved oldPath path, ?_, rfl⟩
      rw [printed.moved]
      exact ⟨node, leftNode, (computed.moved node leftNode).mpr ⟨differs, decided⟩,
        ⟨old, leftEntry⟩, attributes, entry⟩

end Rows

section Sources

variable {runtime : Runtime} {algorithm : HashAlgorithm} {leftIndex : BackupNodeIndex}
  {right : RightIndex} {old new : OSFileSystemNodeIndex} {differences : NodeIndexDifferences}
  {rows : List Row} {path : Path}

structure RecordsSource (runtime : Runtime) (algorithm : HashAlgorithm)
    (index : BackupNodeIndex) (source : OSFileSystemNodeIndex) : Prop where
  unknown : ∀ path, index.lookup path = none ↔ source.index.lookup path = none
  attributes : ∀ path loaded, index.lookup path = some loaded →
    ∃ attributes, source.index.lookup path = some attributes ∧
      loaded.toFileSystemNodeAttributes.equals attributes = true
  undigested : ∀ path loaded, index.lookup path = some loaded → loaded.type = .directory →
    loaded.hashes algorithm = none
  digest : ∀ path loaded, index.lookup path = some loaded → loaded.type ≠ .directory →
    loaded.hashes algorithm = some (runtime.hash algorithm (source.content path))

structure ShowsSource (runtime : Runtime) (algorithm : HashAlgorithm) (right : RightIndex)
    (source : OSFileSystemNodeIndex) : Prop where
  unknown : ∀ path, right.index.lookup path = none ↔ source.index.lookup path = none
  attributes : ∀ path shown, right.index.lookup path = some shown →
    ∃ attributes, source.index.lookup path = some attributes ∧ shown.equals attributes = true
  hash : ∀ node path shown hash, right.index.nodes[node]? = some (path, shown) →
    shown.type ≠ .directory → right.retrieveNodeHash node = .ok hash →
      hash = runtime.hash algorithm (source.content path)

/-- The path is new, or has another type, size or modification time. -/
def Changed (old new : FileSystemNodeIndex) (path : Path) : Prop :=
  ∃ attributes, new.lookup path = some attributes ∧
    ∀ before, old.lookup path = some before → attributes.equals before = false

def SameAt (old new : FileSystemNodeIndex) (path : Path) : Prop :=
  ¬Changed old new path ∧ (new.lookup path = none → old.lookup path = none)

structure DiffRows (old new : OSFileSystemNodeIndex) (rows : List Row) : Prop where
  about : ∀ path, (∃ row ∈ rows, row.about = some path) ↔ Changed old.index new.index path
  once : (rows.filterMap Row.about).Nodup
  distinct : rows.Nodup
  deleted : ∀ path, .deleted path ∈ rows ↔ (∃ before, old.index.lookup path = some before) ∧
    new.index.lookup path = none ∧ ∀ newPath, .moved path newPath ∉ rows
  data : ∀ path attributes, .differentData path ∈ rows →
    new.index.lookup path = some attributes → attributes.type ≠ .directory →
      ∀ oldPath before, old.index.lookup oldPath = some before → before.type ≠ .directory →
        old.content oldPath ≠ new.content path
  metadata : ∀ path, .differentMetadata path ∈ rows →
    (∃ before, old.index.lookup path = some before ∧ before.type ≠ .directory) ∧
      old.content path = new.content path
  moved : ∀ oldPath newPath, .moved oldPath newPath ∈ rows → oldPath ≠ newPath ∧
    (∃ before, old.index.lookup oldPath = some before ∧ before.type ≠ .directory) ∧
      old.content oldPath = new.content newPath
  noDifferences : .noDifferences ∈ rows ↔ ∀ path, SameAt old.index new.index path

theorem equals_trans {first second third : FileSystemNodeAttributes}
    (left : first.equals second = true) (right : second.equals third = true) :
    first.equals third = true := by
  rw [equals_iff] at left right ⊢
  exact ⟨left.1.trans right.1, left.2.1.trans right.2.1, left.2.2.trans right.2.2⟩

theorem equals_symm {first second : FileSystemNodeAttributes}
    (same : first.equals second = true) : second.equals first = true := by
  rw [equals_iff] at same ⊢
  exact ⟨same.1.symm, same.2.1.symm, same.2.2.symm⟩

theorem differs_changed (records : RecordsSource runtime algorithm leftIndex old)
    (shows : ShowsSource runtime algorithm right new) {node : Nat}
    {shown : FileSystemNodeAttributes}
    (entry : right.index.nodes[node]? = some (path, shown)) :
    nodeDiffers right.index (fileSystemNodes leftIndex) node = true ↔
      Changed old.index new.index path := by
  have here := NodeIndex.lookup_of_get entry
  obtain ⟨attributes, sourced, same⟩ := shows.attributes path shown here
  have left : ∀ before, (fileSystemNodes leftIndex).lookup path = some before ↔
      ∃ loaded, leftIndex.lookup path = some loaded ∧
        loaded.toFileSystemNodeAttributes = before := by
    intro before
    rw [fileSystemNodes, NodeIndex.lookup_map_attributes, Option.map_eq_some_iff]
  rw [node_differs_iff]
  constructor
  · rintro ⟨otherPath, otherShown, otherEntry, differs⟩
    rw [entry] at otherEntry
    cases otherEntry
    refine ⟨attributes, sourced, ?_⟩
    intro before found
    obtain ⟨loaded, recorded⟩ : ∃ loaded, leftIndex.lookup path = some loaded := by
      apply Option.ne_none_iff_exists'.mp
      rw [ne_eq, records.unknown, found]
      exact Option.some_ne_none before
    obtain ⟨other, otherFound, equals⟩ := records.attributes path loaded recorded
    rw [found] at otherFound
    cases otherFound
    rw [Bool.eq_false_iff]
    intro unchanged
    have unequal := differs _ ((left _).mpr ⟨loaded, recorded, rfl⟩)
    rw [equals_trans same (equals_trans unchanged (equals_symm equals))] at unequal
    cases unequal
  · rintro ⟨other, otherSourced, differs⟩
    rw [sourced] at otherSourced
    cases otherSourced
    refine ⟨path, shown, entry, ?_⟩
    intro before found
    obtain ⟨loaded, recorded, rfl⟩ := (left before).mp found
    obtain ⟨sourceBefore, sourceFound, equals⟩ := records.attributes path loaded recorded
    rw [Bool.eq_false_iff]
    intro unchanged
    have unequal := differs sourceBefore sourceFound
    rw [equals_trans (equals_symm same) (equals_trans unchanged equals)] at unequal
    cases unequal

theorem node_of_path (shows : ShowsSource runtime algorithm right new)
    {attributes : FileSystemNodeAttributes} (sourced : new.index.lookup path = some attributes) :
    ∃ (node : Nat), ∃ shown, right.index.nodes[node]? = some (path, shown) ∧
      shown.equals attributes = true := by
  obtain ⟨shown, found⟩ : ∃ shown, right.index.lookup path = some shown := by
    apply Option.ne_none_iff_exists'.mp
    rw [ne_eq, shows.unknown, sourced]
    exact Option.some_ne_none attributes
  obtain ⟨node, _, entry⟩ := NodeIndex.get_node_index_of_lookup found
  obtain ⟨other, otherSourced, same⟩ := shows.attributes path shown found
  rw [sourced] at otherSourced
  cases otherSourced
  exact ⟨node, shown, entry, same⟩

/-- What a digest of the left index says about the old source. -/
theorem recorded_content (collisionFree : CollisionFree runtime algorithm)
    (records : RecordsSource runtime algorithm leftIndex old) {loaded : BackupNodeAttributes}
    (found : leftIndex.lookup path = some loaded) {content : Bytes}
    (recorded : loaded.hashes algorithm = some (runtime.hash algorithm content)) :
    (∃ before, old.index.lookup path = some before ∧ before.type ≠ .directory) ∧
      old.content path = content := by
  have isContent : loaded.type ≠ .directory := by
    intro isDirectory
    rw [records.undigested path loaded found isDirectory] at recorded
    cases recorded
  obtain ⟨before, sourced, same⟩ := records.attributes path loaded found
  refine ⟨⟨before, sourced, ?_⟩, ?_⟩
  · rw [← ((equals_iff _ _).mp same).1]
    exact isContent
  · rw [records.digest path loaded found isContent] at recorded
    exact collisionFree (Option.some.inj recorded)

/-- A decision that finds a node finds the content in the old source. -/
theorem hit_content (collisionFree : CollisionFree runtime algorithm)
    (records : RecordsSource runtime algorithm leftIndex old)
    (shows : ShowsSource runtime algorithm right new) {node : Nat}
    {shown : FileSystemNodeAttributes} {found : NodeDifference}
    (entry : right.index.nodes[node]? = some (path, shown))
    (decided : nodeDifference algorithm leftIndex right node = .ok found)
    (hit : found ≠ .backupFully) :
    ∃ (leftNode : Nat), ∃ leftPath leftAttributes,
      leftIndex.nodes[leftNode]? = some (leftPath, leftAttributes) ∧
      (found = if leftPath = path then .updateMetadataOnly
        else .backreferenceWithDifferentPath leftNode) ∧
      (∃ before, old.index.lookup leftPath = some before ∧ before.type ≠ .directory) ∧
        old.content leftPath = new.content path := by
  have isContent : shown.type ≠ .directory := by
    rcases node_difference_ok entry decided with ⟨_, full⟩ | ⟨isContent, _⟩
    · exact absurd full hit
    · exact isContent
  obtain ⟨hash, leftNode, leftPath, leftAttributes, retrieved, _, leftEntry, recorded, reported⟩ :=
    node_difference_hit entry decided hit
  rw [shows.hash node path shown hash entry isContent retrieved] at recorded
  have content := recorded_content collisionFree records (NodeIndex.lookup_of_get leftEntry)
    recorded
  exact ⟨leftNode, leftPath, leftAttributes, leftEntry, reported, content⟩

theorem exist_false_iff (differences : NodeIndexDifferences) :
    differences.exist = false ↔ (∀ node, node ∉ differences.deleted) ∧
      (∀ node, node ∉ differences.differentData) ∧
      (∀ node, node ∉ differences.differentMetadata) ∧
        ∀ node leftNode : Nat, differences.moved[node]? ≠ some leftNode := by
  simp only [NodeIndexDifferences.exist, Bool.not_eq_eq_eq_not, Bool.not_false, Bool.and_eq_true,
    Std.TreeSet.isEmpty_iff_forall_not_mem, Std.TreeMap.isEmpty_iff_forall_not_mem, and_assoc,
    Std.TreeMap.mem_iff_isSome_getElem?, Bool.not_eq_true, Option.isSome_eq_false_iff,
    Option.isNone_iff_eq_none, Option.eq_none_iff_forall_ne_some]

structure Comparison (runtime : Runtime) (algorithm : HashAlgorithm)
    (leftIndex : BackupNodeIndex) (right : RightIndex) (old new : OSFileSystemNodeIndex)
    (differences : NodeIndexDifferences) (rows : List Row) : Prop where
  records : RecordsSource runtime algorithm leftIndex old
  shows : ShowsSource runtime algorithm right new
  computed : DiffComputed algorithm leftIndex right differences
  specified : DiffSpecified algorithm leftIndex right differences
  printed : Printed leftIndex right differences rows

theorem node_of_old_path (records : RecordsSource runtime algorithm leftIndex old)
    {before : FileSystemNodeAttributes} (sourced : old.index.lookup path = some before) :
    ∃ (node : Nat), ∃ loaded, leftIndex.nodes[node]? = some (path, loaded) ∧
      loaded.toFileSystemNodeAttributes.equals before = true := by
  obtain ⟨loaded, found⟩ : ∃ loaded, leftIndex.lookup path = some loaded := by
    apply Option.ne_none_iff_exists'.mp
    rw [ne_eq, records.unknown, sourced]
    exact Option.some_ne_none before
  obtain ⟨node, _, entry⟩ := NodeIndex.get_node_index_of_lookup found
  obtain ⟨other, otherSourced, same⟩ := records.attributes path loaded found
  rw [sourced] at otherSourced
  cases otherSourced
  exact ⟨node, loaded, entry, same⟩

theorem changed_has_row
    (comparison : Comparison runtime algorithm leftIndex right old new differences rows)
    (path : Path) :
    (∃ row ∈ rows, row.about = some path) ↔ Changed old.index new.index path := by
  constructor
  · rintro ⟨row, member, isAbout⟩
    obtain ⟨node, shown, found, entry, differs, _⟩ :=
      row_about comparison.printed comparison.computed member isAbout
    exact (differs_changed comparison.records comparison.shows entry).mp differs
  · intro changed
    obtain ⟨attributes, sourced, _⟩ := id changed
    obtain ⟨node, shown, entry, _⟩ := node_of_path comparison.shows sourced
    exact row_for comparison.printed comparison.computed entry
      ((differs_changed comparison.records comparison.shows entry).mpr changed)

theorem row_unique
    (comparison : Comparison runtime algorithm leftIndex right old new differences rows)
    {first second : Row} (firstMember : first ∈ rows) (secondMember : second ∈ rows)
    (firstAbout : first.about = some path) (secondAbout : second.about = some path) :
    first = second := by
  obtain ⟨node, shown, found, entry, _, decided, firstRow⟩ :=
    row_about comparison.printed comparison.computed firstMember firstAbout
  obtain ⟨other, _, otherFound, otherEntry, _, otherDecided, secondRow⟩ :=
    row_about comparison.printed comparison.computed secondMember secondAbout
  rw [← NodeIndex.node_number_unique entry otherEntry, decided] at otherDecided
  cases otherDecided
  exact row_of_unique firstRow secondRow

theorem rows_once
    (comparison : Comparison runtime algorithm leftIndex right old new differences rows) :
    (rows.filterMap Row.about).Nodup := by
  apply List.pairwise_filterMap.mpr
  apply comparison.printed.distinct.imp_of_mem
  rintro first second firstMember secondMember different path firstAbout other secondAbout rfl
  exact different (row_unique comparison firstMember secondMember firstAbout secondAbout)

theorem deleted_row_iff
    (comparison : Comparison runtime algorithm leftIndex right old new differences rows)
    (path : Path) :
    .deleted path ∈ rows ↔ (∃ before, old.index.lookup path = some before) ∧
      new.index.lookup path = none ∧ ∀ newPath, .moved path newPath ∉ rows := by
  obtain ⟨records, shows, computed, specified, printed⟩ := comparison
  rw [printed.deleted]
  constructor
  · rintro ⟨node, member, loaded, entry⟩
    obtain ⟨⟨other, _, otherEntry, absent⟩, unmoved⟩ := (specified.deleted node).mp member
    rw [entry] at otherEntry
    cases otherEntry
    obtain ⟨before, sourced, _⟩ :=
      records.attributes path loaded (NodeIndex.lookup_of_get entry)
    refine ⟨⟨before, sourced⟩, (shows.unknown path).mp absent, ?_⟩
    intro newPath moved
    obtain ⟨target, leftNode, isMoved, ⟨_, leftEntry⟩, _⟩ :=
      (printed.moved path newPath).mp moved
    rw [NodeIndex.node_number_unique leftEntry entry] at isMoved
    exact unmoved target isMoved
  · rintro ⟨⟨before, sourced⟩, absent, unmoved⟩
    obtain ⟨node, loaded, entry, _⟩ := node_of_old_path records sourced
    refine ⟨node, ?_, loaded, entry⟩
    rw [specified.deleted]
    refine ⟨⟨path, loaded, entry, (shows.unknown path).mpr absent⟩, ?_⟩
    intro target isMoved
    obtain ⟨newPath, attributes, _, _, _, newEntry, _⟩ := specified.moved target node isMoved
    exact unmoved newPath ((printed.moved path newPath).mpr
      ⟨target, node, isMoved, ⟨loaded, entry⟩, attributes, newEntry⟩)

/-- What is named as new is nowhere in the old source. -/
theorem data_row_new
    (comparison : Comparison runtime algorithm leftIndex right old new differences rows)
    {attributes : FileSystemNodeAttributes} (member : .differentData path ∈ rows)
    (sourced : new.index.lookup path = some attributes) (isContent : attributes.type ≠ .directory)
    {oldPath : Path} {before : FileSystemNodeAttributes}
    (oldSourced : old.index.lookup oldPath = some before) (oldContent : before.type ≠ .directory) :
    old.content oldPath ≠ new.content path := by
  obtain ⟨records, shows, _, specified, printed⟩ := comparison
  intro same
  obtain ⟨node, inside, shown, entry⟩ := (printed.differentData path).mp member
  have shownContent : shown.type ≠ .directory := by
    obtain ⟨other, otherSourced, equals⟩ :=
      shows.attributes path shown (NodeIndex.lookup_of_get entry)
    rw [sourced] at otherSourced
    cases otherSourced
    rw [((equals_iff _ _).mp equals).1]
    exact isContent
  obtain ⟨hash, retrieved, unknown⟩ := specified.data node path shown inside entry shownContent
  obtain ⟨leftNode, loaded, leftEntry, equals⟩ := node_of_old_path records oldSourced
  have found := NodeIndex.lookup_of_get leftEntry
  have loadedContent : loaded.type ≠ .directory := by
    rw [((equals_iff _ _).mp equals).1]
    exact oldContent
  apply unknown oldPath loaded found
  rw [records.digest oldPath loaded found loadedContent, same,
    shows.hash node path shown hash entry shownContent retrieved]

theorem metadata_row_kept (collisionFree : CollisionFree runtime algorithm)
    (comparison : Comparison runtime algorithm leftIndex right old new differences rows)
    (member : .differentMetadata path ∈ rows) :
    (∃ before, old.index.lookup path = some before ∧ before.type ≠ .directory) ∧
      old.content path = new.content path := by
  obtain ⟨records, shows, computed, _, printed⟩ := comparison
  obtain ⟨node, inside, shown, entry⟩ := (printed.differentMetadata path).mp member
  obtain ⟨leftNode, leftPath, _, _, reported, before, content⟩ := hit_content collisionFree
    records shows entry ((computed.differentMetadata node).mp inside).2 nofun
  by_cases here : leftPath = path
  · rw [here] at before content
    exact ⟨before, content⟩
  · rw [if_neg here] at reported
    cases reported

theorem moved_row_kept (collisionFree : CollisionFree runtime algorithm)
    (comparison : Comparison runtime algorithm leftIndex right old new differences rows)
    {oldPath newPath : Path} (member : .moved oldPath newPath ∈ rows) :
    oldPath ≠ newPath ∧
      (∃ before, old.index.lookup oldPath = some before ∧ before.type ≠ .directory) ∧
        old.content oldPath = new.content newPath := by
  obtain ⟨records, shows, computed, _, printed⟩ := comparison
  obtain ⟨node, leftNode, inside, ⟨loaded, oldEntry⟩, shown, entry⟩ :=
    (printed.moved oldPath newPath).mp member
  obtain ⟨target, leftPath, _, leftEntry, reported, before, content⟩ := hit_content
    collisionFree records shows entry ((computed.moved node leftNode).mp inside).2 nofun
  by_cases here : leftPath = newPath
  · rw [if_pos here] at reported
    cases reported
  · rw [if_neg here] at reported
    cases reported
    rw [oldEntry] at leftEntry
    cases leftEntry
    exact ⟨here, before, content⟩

theorem no_differences_row_iff
    (comparison : Comparison runtime algorithm leftIndex right old new differences rows) :
    .noDifferences ∈ rows ↔ ∀ path, SameAt old.index new.index path := by
  obtain ⟨records, shows, computed, specified, printed⟩ := comparison
  rw [printed.noDifferences, exist_false_iff]
  constructor
  · rintro ⟨noDeleted, noData, noMetadata, noMoved⟩ path
    constructor
    · intro changed
      obtain ⟨attributes, sourced, _⟩ := id changed
      obtain ⟨node, shown, entry, _⟩ := node_of_path shows sourced
      have differs := (right_differs_iff node).mp
        ((differs_changed records shows entry).mpr changed)
      rcases (specified.differing node).mpr differs with data | metadata | ⟨leftNode, moved⟩
      · exact noData node data
      · exact noMetadata node metadata
      · exact noMoved node leftNode moved
    · intro absent
      by_contra present
      obtain ⟨before, sourced⟩ := Option.ne_none_iff_exists'.mp present
      obtain ⟨node, loaded, entry, _⟩ := node_of_old_path records sourced
      exact noDeleted node ((specified.deleted node).mpr
        ⟨⟨path, loaded, entry, (shows.unknown path).mpr absent⟩,
          fun target => noMoved target node⟩)
  · intro same
    have unchanged : ∀ node, nodeDiffers right.index (fileSystemNodes leftIndex) node ≠ true := by
      intro node differs
      obtain ⟨path, shown, entry, _⟩ := (node_differs_iff _ _ _).mp differs
      exact (same path).1 ((differs_changed records shows entry).mp differs)
    refine ⟨?_, ?_, ?_, ?_⟩
    · intro node member
      obtain ⟨⟨path, loaded, entry, absent⟩, _⟩ := (specified.deleted node).mp member
      obtain ⟨before, sourced, _⟩ :=
        records.attributes path loaded (NodeIndex.lookup_of_get entry)
      rw [(same path).2 ((shows.unknown path).mp absent)] at sourced
      cases sourced
    · intro node member
      exact unchanged node ((computed.differentData node).mp member).1
    · intro node member
      exact unchanged node ((computed.differentMetadata node).mp member).1
    · intro node leftNode member
      exact unchanged node ((computed.moved node leftNode).mp member).1

theorem diff_rows (collisionFree : CollisionFree runtime algorithm)
    (comparison : Comparison runtime algorithm leftIndex right old new differences rows) :
    DiffRows old new rows where
  about := changed_has_row comparison
  once := rows_once comparison
  distinct := comparison.printed.distinct
  deleted := deleted_row_iff comparison
  data _ _ member sourced isContent _ _ oldSourced oldContent :=
    data_row_new comparison member sourced isContent oldSourced oldContent
  metadata _ member := metadata_row_kept collisionFree comparison member
  moved _ _ member := moved_row_kept collisionFree comparison member
  noDifferences := no_differences_row_iff comparison

end Sources

section Patches

variable {old new : OSFileSystemNodeIndex} {rows : List Row}

def movedFrom (path : Path) : Row → Option Path
  | .moved oldPath newPath => if newPath = path then some oldPath else none
  | _ => none

/-- The content of a path after the rows, from the old contents and those that are
supplied for what the rows name as new. -/
def patched (rows : List Row) (content supplied : Path → Bytes) (path : Path) : Bytes :=
  if .differentData path ∈ rows then supplied path
  else
    match rows.findSome? (movedFrom path) with
    | some oldPath => content oldPath
    | none => content path

/-- What looks the same in both sources is the same. -/
def KeptBetween (old new : OSFileSystemNodeIndex) : Prop :=
  ∀ path before attributes, old.index.lookup path = some before →
    new.index.lookup path = some attributes → attributes.type ≠ .directory →
      attributes.equals before = true → new.content path = old.content path

/-- Rows about the contents turn the old contents into the new ones. -/
theorem patched_exact (described : DiffRows old new rows) (kept : KeptBetween old new)
    {supplied : Path → Bytes}
    (supplies : ∀ path, .differentData path ∈ rows → supplied path = new.content path)
    {path : Path} {attributes : FileSystemNodeAttributes}
    (sourced : new.index.lookup path = some attributes)
    (isContent : attributes.type ≠ .directory) :
    patched rows old.content supplied path = new.content path := by
  unfold patched
  by_cases isData : .differentData path ∈ rows
  · rw [if_pos isData]
    exact supplies path isData
  · rw [if_neg isData]
    cases moves : rows.findSome? (movedFrom path) with
    | some oldPath =>
        obtain ⟨row, member, from'⟩ := List.exists_of_findSome?_eq_some moves
        cases row with
        | moved other newPath =>
            simp only [movedFrom, Option.ite_none_right_eq_some, Option.some.injEq] at from'
            obtain ⟨rfl, rfl⟩ := from'
            exact (described.moved other newPath member).2.2
        | deleted other => cases from'
        | differentData other => cases from'
        | differentMetadata other => cases from'
        | noDifferences => cases from'
    | none =>
        have unmoved := List.findSome?_eq_none_iff.mp moves
        by_cases isMetadata : .differentMetadata path ∈ rows
        · exact (described.metadata path isMetadata).2
        · have noRow : ¬Changed old.index new.index path := by
            rw [← described.about]
            rintro ⟨row, member, isAbout⟩
            cases row with
            | deleted other => cases isAbout
            | noDifferences => cases isAbout
            | differentData other =>
                cases isAbout
                exact isData member
            | differentMetadata other =>
                cases isAbout
                exact isMetadata member
            | moved oldPath newPath =>
                cases isAbout
                have none := unmoved _ member
                simp [movedFrom] at none
          have unchanged : ∃ before, old.index.lookup path = some before ∧
              attributes.equals before = true := by
            by_contra different
            apply noRow
            refine ⟨attributes, sourced, ?_⟩
            intro before found
            rw [Bool.eq_false_iff]
            intro equals
            exact different ⟨before, found, equals⟩
          obtain ⟨before, found, equals⟩ := unchanged
          exact (kept path before attributes found sourced isContent equals).symm

structure Patch (old new : OSFileSystemNodeIndex) (rows : List Row) : Prop where
  described : DiffRows old new rows
  sufficient : KeptBetween old new → ∀ supplied : Path → Bytes,
    (∀ path, .differentData path ∈ rows → supplied path = new.content path) →
      ∀ path attributes, new.index.lookup path = some attributes → attributes.type ≠ .directory →
        patched rows old.content supplied path = new.content path

end Patches

section Answers

variable {runtime : Runtime} {algorithm : HashAlgorithm} {tasks : TaskOrder Nat}
  {snapshot : Snapshot} {right : RightIndex} {chain : Chain} {entry : Entry}

theorem rows_made {Source : Type} {f : Source → Except Fault Row} {list : List Source}
    (every : ∀ source ∈ list, ∃ row, f source = .ok row) : ∃ rows, list.mapM f = .ok rows := by
  obtain ⟨rows, made⟩ := forall_two_of_forall every
  exact ⟨rows, (map_m_ok_iff f list rows).mpr made⟩

theorem diff_answers {differences : NodeIndexDifferences}
    (run : readDiff tasks algorithm snapshot.index right = .ok differences) :
    ∃ rows, diff tasks algorithm snapshot right = .ok rows := by
  have computed := compute_diff_computed (read_diff_ok.mp run).2
  have specified := diff_specified (read_diff_ok.mp run).2
  have entryOf : ∀ node, nodeDiffers right.index (fileSystemNodes snapshot.index) node = true →
      ∃ path attributes, right.index.nodes[node]? = some (path, attributes) := by
    intro node differs
    obtain ⟨path, attributes, entry, _⟩ := (node_differs_iff _ _ _).mp differs
    exact ⟨path, attributes, entry⟩
  have rightRow : ∀ (make : Path → Row) node,
      nodeDiffers right.index (fileSystemNodes snapshot.index) node = true →
        ∃ row, pathRow right.index make node = .ok row := by
    intro make node differs
    obtain ⟨path, attributes, entry⟩ := entryOf node differs
    exact ⟨make path, path_row_ok.mpr ⟨path, rfl, attributes, entry⟩⟩
  obtain ⟨deleted, deletedRun⟩ := @rows_made _ (pathRow snapshot.index .deleted)
    differences.deleted.toList (by
      intro node member
      rw [Std.TreeSet.mem_toList] at member
      obtain ⟨⟨path, loaded, entry, _⟩, _⟩ := (specified.deleted node).mp member
      exact ⟨.deleted path, path_row_ok.mpr ⟨path, rfl, loaded, entry⟩⟩)
  obtain ⟨differentData, dataRun⟩ := @rows_made _ (pathRow right.index .differentData)
    differences.differentData.toList (by
      intro node member
      rw [Std.TreeSet.mem_toList] at member
      exact rightRow _ node ((computed.differentData node).mp member).1)
  obtain ⟨differentMetadata, metadataRun⟩ :=
    @rows_made _ (pathRow right.index .differentMetadata) differences.differentMetadata.toList (by
      intro node member
      rw [Std.TreeSet.mem_toList] at member
      exact rightRow _ node ((computed.differentMetadata node).mp member).1)
  obtain ⟨moved, movedRun⟩ := @rows_made _ (movedRow snapshot.index right.index)
    differences.moved.toList (by
      rintro ⟨node, leftNode⟩ member
      rw [Std.TreeMap.mem_toList_iff_getElem?_eq_some] at member
      obtain ⟨path, attributes, leftPath, loaded, _, newEntry, oldEntry, _⟩ :=
        specified.moved node leftNode member
      exact ⟨.moved leftPath path, moved_row_ok.mpr
        ⟨leftPath, path, rfl, ⟨loaded, oldEntry⟩, attributes, newEntry⟩⟩)
  simp only [diff, run, deletedRun, dataRun, metadataRun, movedRun, bind, Except.bind]
  exact ⟨_, rfl⟩

theorem entry_records_source (collisionFree : CollisionFree runtime algorithm)
    (reachable : (backups runtime).Reachable (after (Unmodified algorithm)) chain)
    (member : entry ∈ chain) :
    RecordsSource runtime algorithm entry.index entry.call.source := by
  have mirrors := mirrors_reachable collisionFree reachable entry member
  have digested := digested_reachable (fun _ _ unmodified => unmodified.1) reachable entry member
  have paths := entries_reachable
    (fun entry =>
      (entry.index.nodes.map Prod.fst).Perm (entry.call.source.index.nodes.map Prod.fst))
    (fun _ _ _ _ _ new => new_entry_paths new) reachable entry member
  refine ⟨?_, mirrors.attributes, ?_, ?_⟩
  · intro path
    rw [NodeIndex.lookup_eq_none, NodeIndex.lookup_eq_none, paths.mem_iff]
  · intro path loaded found isDirectory
    cases mirrors.contents path loaded found with
    | directory _ _ undigested => rw [undigested]
    | content content records holds => exact absurd isDirectory records.isContent
  · intro path loaded found isContent
    exact mirrored_digest mirrors digested found isContent

theorem backup_right_shows {index : BackupNodeIndex} {source : OSFileSystemNodeIndex}
    (records : RecordsSource runtime algorithm index source) :
    ShowsSource runtime algorithm (backupRight algorithm index) source where
  unknown path := by
    rw [backupRight, fileSystemNodes, NodeIndex.lookup_map_attributes, Option.map_eq_none_iff]
    exact records.unknown path
  attributes path shown found := by
    rw [backupRight, fileSystemNodes, NodeIndex.lookup_map_attributes,
      Option.map_eq_some_iff] at found
    obtain ⟨loaded, recorded, rfl⟩ := found
    exact records.attributes path loaded recorded
  hash node _ _ _ found isContent retrieved := by
    rw [backupRight, file_system_nodes_get, Option.map_eq_some_iff] at found
    obtain ⟨⟨path, loaded⟩, entry, same⟩ := found
    cases same
    have nodeAttributes : index.getNodeAttributes node = .ok loaded :=
      (NodeIndex.get_node_attributes_ok _ _ _).mpr ⟨path, entry⟩
    have digest := records.digest path loaded (NodeIndex.lookup_of_get entry) isContent
    simp only [backupRight, nodeAttributes, bind, Except.bind, BackupNodeAttributes.hash, digest,
      Except.ok.injEq] at retrieved
    exact retrieved.symm

theorem source_right_shows (source : OSFileSystemNodeIndex) :
    ShowsSource runtime algorithm (sourceRight runtime algorithm source) source where
  unknown _ := Iff.rfl
  attributes _ shown found := ⟨shown, found, (equals_iff _ _).mpr ⟨rfl, rfl, rfl⟩⟩
  hash _ _ _ _ found _ retrieved := (compute_node_hash_ok found retrieved).2.2

theorem backup_right_hashes {index : BackupNodeIndex} {source : OSFileSystemNodeIndex}
    (records : RecordsSource runtime algorithm index source) (node : Nat) (path : Path)
    (shown : FileSystemNodeAttributes)
    (found : (backupRight algorithm index).index.nodes[node]? = some (path, shown))
    (isContent : shown.type ≠ .directory) :
    ∃ hash, (backupRight algorithm index).retrieveNodeHash node = .ok hash := by
  rw [backupRight, file_system_nodes_get, Option.map_eq_some_iff] at found
  obtain ⟨⟨known, loaded⟩, entry, same⟩ := found
  cases same
  have nodeAttributes : index.getNodeAttributes node = .ok loaded :=
    (NodeIndex.get_node_attributes_ok _ _ _).mpr ⟨known, entry⟩
  have digest := records.digest known loaded (NodeIndex.lookup_of_get entry) isContent
  simp only [backupRight, nodeAttributes, bind, Except.bind, BackupNodeAttributes.hash, digest]
  exact ⟨_, rfl⟩

theorem find_snapshot_entry (sorted : Sorted chain) (member : entry ∈ chain) :
    findSnapshot (chain.map Entry.snapshot).reverse entry.call.name = some entry.snapshot := by
  have inside : entry.snapshot ∈ (chain.map Entry.snapshot).reverse :=
    List.mem_reverse.mpr (List.mem_map_of_mem member)
  unfold findSnapshot
  cases search : (chain.map Entry.snapshot).reverse.find? fun snapshot =>
      snapshot.name = entry.call.name with
  | none =>
      have absent := List.find?_eq_none.mp search entry.snapshot inside
      exact absurd (decide_eq_true rfl) absent
  | some found =>
      have chosen := List.find?_some search
      have name : found.name = entry.call.name := of_decide_eq_true chosen
      obtain ⟨other, otherMember, rfl⟩ :=
        List.mem_map.mp (List.mem_reverse.mp (List.mem_of_find?_eq_some search))
      rw [same_snapshot sorted otherMember member name]

theorem printed_iff {outcome : Except Fault (List Row)} {rows : List Row} :
    outcome.map some = .ok (some rows) ↔ outcome = .ok rows := by
  cases outcome <;> simp [Except.map]

/-- What a diff command prints for two snapshots, or for a snapshot and the source
directory, is right and is a patch: where what looks the same is the same, the rows turn
the contents of the one into those of the other. Between snapshots it is printed unless
the comparison passes a number to the index that does not have it. -/
theorem diff_is_patch (runtime : Runtime) (algorithm : HashAlgorithm)
    (collisionFree : CollisionFree runtime algorithm) (chain : Chain)
    (reachable : (backups runtime).Reachable (after (Unmodified algorithm)) chain)
    (entry : Entry) (member : entry ∈ chain) (tasks : TaskOrder Nat) :
    (∀ newer ∈ chain,
      ((∃ rows, commandDiffSnapshots tasks algorithm (chain.map Entry.snapshot).reverse
          entry.call.name newer.call.name = .ok (some rows)) ↔
        ∀ access ∈ (traceDiff tasks algorithm entry.index
          (backupRight algorithm newer.index)).events,
            InRange entry.index (backupRight algorithm newer.index) access) ∧
      ∀ rows, commandDiffSnapshots tasks algorithm (chain.map Entry.snapshot).reverse
        entry.call.name newer.call.name = .ok (some rows) →
          Patch entry.call.source newer.call.source rows) ∧
    ∀ source rows, commandDiffSnapshotWithSourceDirectory tasks runtime algorithm
      (chain.map Entry.snapshot).reverse entry.call.name source = .ok (some rows) →
        Patch entry.call.source source rows := by
  have records := entry_records_source collisionFree reachable member
  have sorted := sorted_reachable reachable
  have patch : ∀ {right source rows}, ShowsSource runtime algorithm right source →
      diff tasks algorithm entry.snapshot right = .ok rows →
        Patch entry.call.source source rows := by
    intro right source rows shows run
    obtain ⟨differences, computed, printed⟩ := diff_printed run
    have described := diff_rows collisionFree
      ⟨records, shows, compute_diff_computed computed, diff_specified computed, printed⟩
    exact ⟨described, fun kept supplied supplies path attributes sourced isContent =>
      patched_exact described kept supplies sourced isContent⟩
  constructor
  · intro newer newerMember
    have newerRecords := entry_records_source collisionFree reachable newerMember
    have command : ∀ rows, commandDiffSnapshots tasks algorithm
        (chain.map Entry.snapshot).reverse entry.call.name newer.call.name = .ok (some rows) ↔
          diff tasks algorithm entry.snapshot (backupRight algorithm newer.index) = .ok rows := by
      intro rows
      simp only [commandDiffSnapshots, find_snapshot_entry sorted member,
        find_snapshot_entry sorted newerMember]
      exact printed_iff
    simp only [command]
    refine ⟨⟨?_, ?_⟩, fun rows => patch (backup_right_shows newerRecords)⟩
    · rintro ⟨rows, run⟩
      obtain ⟨differences, read, _⟩ := bind_ok run
      exact (read_diff_ok.mp read).1
    · intro inRange
      obtain ⟨differences, computed⟩ :=
        @diff_computes algorithm entry.index (backupRight algorithm newer.index) tasks
          (backup_right_hashes newerRecords)
      exact @diff_answers algorithm tasks entry.snapshot (backupRight algorithm newer.index)
        differences (read_diff_ok.mpr ⟨inRange, computed⟩)
  · intro source rows printed
    simp only [commandDiffSnapshotWithSourceDirectory, find_snapshot_entry sorted member]
      at printed
    exact patch (source_right_shows source) (printed_iff.mp printed)

theorem moved_file_printed :
    ∃ chain, (backups spellingRuntime).run [] [firstBackup, moveBackup] = some chain ∧
      ∃ older ∈ chain, ∃ newer ∈ chain, older.call = firstBackup ∧ newer.call = moveBackup ∧
        ∃ rows, commandDiffSnapshots inSequence .md5 (chain.map Entry.snapshot).reverse
            firstBackup.name moveBackup.name = .ok (some rows) ∧
          Patch firstBackup.source moveBackup.source rows ∧
          rows = [.moved storedFile.path movedFile.path] := by
  obtain ⟨chain, next, first, second, reachable, permitted⟩ := second_backup_taken
  have whole : (backups spellingRuntime).run [] [firstBackup, moveBackup] = some next := by
    simp only [System.run, first, second]
  have before : addSnapshot spellingRuntime [] firstBackup = some chain := first
  have after' : addSnapshot spellingRuntime chain moveBackup = some next := second
  obtain ⟨older, olderCall, _, oldChain⟩ := add_snapshot_some before
  obtain ⟨newer, newerCall, _, newChain⟩ := add_snapshot_some after'
  have newerMember : newer ∈ next := by
    rw [newChain]
    exact (mem_insert_entry _ _ _).mpr (.inl rfl)
  have olderMember : older ∈ next := by
    rw [newChain, oldChain]
    exact (mem_insert_entry _ _ _).mpr (.inr ((mem_insert_entry _ _ _).mpr (.inl rfl)))
  have patch := ((diff_is_patch spellingRuntime .md5 (spelling_collision_free _) next
    (.step reachable permitted second) older olderMember inSequence).1 newer newerMember).2
  have outcome : ((backups spellingRuntime).run [] [firstBackup, moveBackup]).bind (fun chain =>
      (commandDiffSnapshots inSequence .md5 (chain.map Entry.snapshot).reverse firstBackup.name
        moveBackup.name).toOption) = some (some [.moved storedFile.path movedFile.path]) := by
    decide +kernel
  rw [whole, Option.bind_some] at outcome
  have printed : commandDiffSnapshots inSequence .md5 (next.map Entry.snapshot).reverse
      firstBackup.name moveBackup.name =
        .ok (some [.moved storedFile.path movedFile.path]) := by
    cases answer : commandDiffSnapshots inSequence .md5 (next.map Entry.snapshot).reverse
        firstBackup.name moveBackup.name with
    | error fault => simp [answer, Except.toOption] at outcome
    | ok rows => simpa [answer, Except.toOption] using outcome
  rw [olderCall, newerCall] at patch
  exact ⟨next, whole, older, olderMember, newer, newerMember, olderCall, newerCall, _, printed,
    patch _ printed, rfl⟩

end Answers

end ACBackup.DiffCommands
