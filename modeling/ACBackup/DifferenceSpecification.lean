import ACBackup.SnapshotManager

/-!
What `ComputeDiff` answers, said of the two indexes alone, and when a node that
stays where it was is taken for a moved one.
-/

namespace ACBackup.DifferenceSpecification

open ACBackup.Library.Outcome ACBackup.Library.Tasks ACBackup.Library.Transition
open ACBackup.Platform ACBackup.NodeAttributes ACBackup.Indexing ACBackup.SourceIndex
open ACBackup.DifferenceResolver ACBackup.SnapshotCreation ACBackup.SnapshotManager

set_option autoImplicit false

def Differs (leftIndex : BackupNodeIndex) (right : RightIndex) (node : Nat) : Prop :=
  ∃ path attributes, right.index.nodes[node]? = some (path, attributes) ∧
    ∀ old, leftIndex.lookup path = some old →
      ¬(attributes.type = old.type ∧ attributes.size = old.size ∧
        attributes.lastModifiedTime = old.lastModifiedTime)

structure DiffSpecified (algorithm : HashAlgorithm) (leftIndex : BackupNodeIndex)
    (right : RightIndex) (difference : NodeIndexDifferences) : Prop where
  dataApart : ∀ node ∈ difference.differentData,
    node ∉ difference.differentMetadata ∧ difference.moved[node]? = none
  metadataApart : ∀ node ∈ difference.differentMetadata, difference.moved[node]? = none
  differing : ∀ node, (node ∈ difference.differentData ∨ node ∈ difference.differentMetadata ∨
    ∃ leftNode : Nat, difference.moved[node]? = some leftNode) ↔ Differs leftIndex right node
  moved : ∀ node leftNode : Nat, difference.moved[node]? = some leftNode →
    ∃ path attributes leftPath leftAttributes hash,
      right.index.nodes[node]? = some (path, attributes) ∧
      leftIndex.nodes[leftNode]? = some (leftPath, leftAttributes) ∧ leftPath ≠ path ∧
      right.retrieveNodeHash node = .ok hash ∧ leftAttributes.hashes algorithm = some hash
  metadata : ∀ node path attributes, node ∈ difference.differentMetadata →
    right.index.nodes[node]? = some (path, attributes) → attributes.type ≠ .directory →
      ∃ leftAttributes hash, leftIndex.lookup path = some leftAttributes ∧
        right.retrieveNodeHash node = .ok hash ∧ leftAttributes.hashes algorithm = some hash
  data : ∀ node path attributes, node ∈ difference.differentData →
    right.index.nodes[node]? = some (path, attributes) → attributes.type ≠ .directory →
      ∃ hash, right.retrieveNodeHash node = .ok hash ∧
        ∀ leftPath leftAttributes, leftIndex.lookup leftPath = some leftAttributes →
          leftAttributes.hashes algorithm ≠ some hash
  deleted : ∀ node, node ∈ difference.deleted ↔
    (∃ path attributes, leftIndex.nodes[node]? = some (path, attributes) ∧
      right.index.lookup path = none) ∧
    ∀ other : Nat, difference.moved[other]? ≠ some node

section Specification

variable {algorithm : HashAlgorithm} {leftIndex : BackupNodeIndex} {right : RightIndex}

theorem file_system_nodes_get (index : BackupNodeIndex) (node : Nat) :
    (fileSystemNodes index).nodes[node]? = (index.nodes[node]?).map fun entry =>
      (entry.1, entry.2.toFileSystemNodeAttributes) := by
  simp only [fileSystemNodes, NodeIndex.mapAttributes, List.getElem?_map]

theorem right_differs_iff (node : Nat) :
    nodeDiffers right.index (fileSystemNodes leftIndex) node = true ↔
      Differs leftIndex right node := by
  rw [node_differs_iff]
  apply exists_congr
  intro path
  apply exists_congr
  intro attributes
  apply and_congr_right
  intro _
  simp only [fileSystemNodes, NodeIndex.lookup_map_attributes, Option.map_eq_some_iff,
    forall_exists_index, and_imp, forall_apply_eq_imp_iff₂, ← equals_iff, Bool.not_eq_true]

theorem left_deleted_iff (node : Nat) :
    (nodeDiffers (fileSystemNodes leftIndex) right.index node = true ∧
      isDeleted (fileSystemNodes leftIndex) right.index node = true) ↔
      ∃ path attributes, leftIndex.nodes[node]? = some (path, attributes) ∧
        right.index.lookup path = none := by
  have missing : ∀ path, (right.index.hasNodeIndex path = false) ↔
      right.index.lookup path = none := by
    intro path
    rw [Bool.eq_false_iff, ne_eq, NodeIndex.has_node_index_iff, ← Option.isSome_iff_exists,
      Option.not_isSome_iff_eq_none]
  unfold nodeDiffers isDeleted differsFrom
  rw [file_system_nodes_get]
  cases entry : leftIndex.nodes[node]? with
  | none => simp
  | some pair =>
      obtain ⟨path, attributes⟩ := pair
      simp only [Option.map_some, Bool.not_eq_true', missing, Option.some.injEq, Prod.mk.injEq]
      constructor
      · rintro ⟨_, absent⟩
        exact ⟨path, attributes, ⟨rfl, rfl⟩, absent⟩
      · rintro ⟨_, _, ⟨rfl, rfl⟩, absent⟩
        exact ⟨by rw [absent], absent⟩

theorem node_difference_hit {node : Nat} {path : Path} {attributes : FileSystemNodeAttributes}
    (entry : right.index.nodes[node]? = some (path, attributes)) {found : NodeDifference}
    (decided : nodeDifference algorithm leftIndex right node = .ok found)
    (hit : found ≠ .backupFully) :
    ∃ hash leftNode leftPath leftAttributes, right.retrieveNodeHash node = .ok hash ∧
      findNodeIndexByHash algorithm leftIndex hash = some leftNode ∧
      leftIndex.nodes[leftNode]? = some (leftPath, leftAttributes) ∧
      leftAttributes.hashes algorithm = some hash ∧
      found = if leftPath = path then .updateMetadataOnly
        else .backreferenceWithDifferentPath leftNode := by
  rcases node_difference_ok entry decided with
    ⟨_, full⟩ | ⟨_, hash, retrieved, ⟨_, full⟩ | ⟨leftNode, leftPath, leftAttributes, search,
      leftEntry, reported⟩⟩
  · exact absurd full hit
  · exact absurd full hit
  · obtain ⟨otherPath, otherAttributes, otherEntry, recorded⟩ := find_node_index_by_hash_some search
    rw [leftEntry] at otherEntry
    cases otherEntry
    exact ⟨hash, leftNode, leftPath, leftAttributes, retrieved, search, leftEntry, recorded,
      reported⟩

theorem diff_specified {tasks : TaskOrder Nat} {difference : NodeIndexDifferences}
    (run : computeDiff tasks algorithm leftIndex right = .ok difference) :
    DiffSpecified algorithm leftIndex right difference := by
  have computed := compute_diff_computed run
  have entryOf : ∀ node, nodeDiffers right.index (fileSystemNodes leftIndex) node = true →
      ∃ path attributes, right.index.nodes[node]? = some (path, attributes) := by
    intro node differs
    obtain ⟨path, attributes, entry, _⟩ := (node_differs_iff _ _ _).mp differs
    exact ⟨path, attributes, entry⟩
  refine ⟨?_, ?_, ?_, ?_, ?_, ?_, ?_⟩
  · intro node member
    have decided := ((computed.differentData node).mp member).2
    constructor
    · intro other
      rw [((computed.differentMetadata node).mp other).2] at decided
      cases decided
    · apply Option.eq_none_iff_forall_ne_some.mpr
      intro leftNode other
      rw [((computed.moved node leftNode).mp other).2] at decided
      cases decided
  · intro node member
    have decided := ((computed.differentMetadata node).mp member).2
    apply Option.eq_none_iff_forall_ne_some.mpr
    intro leftNode other
    rw [((computed.moved node leftNode).mp other).2] at decided
    cases decided
  · intro node
    rw [← right_differs_iff, computed.differentData, computed.differentMetadata]
    simp only [computed.moved]
    constructor
    · rintro (reported | reported | ⟨_, reported⟩) <;> exact reported.1
    · intro differs
      obtain ⟨found, decided⟩ := computed.classified node differs
      cases found with
      | backupFully => exact .inl ⟨differs, decided⟩
      | updateMetadataOnly => exact .inr (.inl ⟨differs, decided⟩)
      | backreferenceWithDifferentPath leftNode =>
          exact .inr (.inr ⟨leftNode, differs, decided⟩)
  · intro node leftNode member
    obtain ⟨differs, decided⟩ := (computed.moved node leftNode).mp member
    obtain ⟨path, attributes, entry⟩ := entryOf node differs
    obtain ⟨hash, target, leftPath, leftAttributes, retrieved, _, leftEntry, recorded, found⟩ :=
      node_difference_hit entry decided nofun
    by_cases same : leftPath = path
    · rw [if_pos same] at found
      cases found
    · rw [if_neg same] at found
      cases found
      exact ⟨path, attributes, leftPath, leftAttributes, hash, entry, leftEntry, same, retrieved,
        recorded⟩
  · intro node path attributes member entry isContent
    have decided := ((computed.differentMetadata node).mp member).2
    obtain ⟨hash, target, leftPath, leftAttributes, retrieved, _, leftEntry, recorded, found⟩ :=
      node_difference_hit entry decided nofun
    by_cases same : leftPath = path
    · subst same
      exact ⟨leftAttributes, hash, NodeIndex.lookup_of_get leftEntry, retrieved, recorded⟩
    · rw [if_neg same] at found
      cases found
  · intro node path attributes member entry isContent
    have decided := ((computed.differentData node).mp member).2
    rcases node_difference_ok entry decided with
      ⟨isDirectory, _⟩ | ⟨_, hash, retrieved, ⟨unknown, _⟩ | ⟨_, leftPath, _, _, _, found⟩⟩
    · exact absurd isDirectory isContent
    · exact ⟨hash, retrieved, find_node_index_by_hash_none.mp unknown⟩
    · split at found <;> cases found
  · intro node
    rw [computed.deleted, left_deleted_iff]

theorem diff_computes (tasks : TaskOrder Nat)
    (hashed : ∀ node path attributes, right.index.nodes[node]? = some (path, attributes) →
      attributes.type ≠ .directory → ∃ hash, right.retrieveNodeHash node = .ok hash) :
    ∃ difference, computeDiff tasks algorithm leftIndex right = .ok difference := by
  have decides : ∀ node, nodeDiffers right.index (fileSystemNodes leftIndex) node = true →
      ∃ found, nodeDifference algorithm leftIndex right node = .ok found := by
    intro node differs
    obtain ⟨path, attributes, entry, _⟩ := (node_differs_iff _ _ _).mp differs
    have nodeAttributes : right.index.getNodeAttributes node = .ok attributes :=
      (NodeIndex.get_node_attributes_ok _ _ _).mpr ⟨path, entry⟩
    have nodePath : right.index.getNodePath node = .ok path :=
      (NodeIndex.get_node_path_ok _ _ _).mpr ⟨attributes, entry⟩
    simp only [nodeDifference, nodeAttributes, nodePath, bind, Except.bind]
    by_cases directory : attributes.type = .directory
    · exact ⟨.backupFully, if_pos directory⟩
    · rw [if_neg directory]
      obtain ⟨hash, retrieved⟩ := hashed node path attributes entry directory
      simp only [retrieved]
      cases search : findNodeIndexByHash algorithm leftIndex hash with
      | none => exact ⟨.backupFully, rfl⟩
      | some leftNode =>
          obtain ⟨leftPath, leftAttributes, leftEntry, _⟩ := find_node_index_by_hash_some search
          have leftNodePath : leftIndex.getNodePath leftNode = .ok leftPath :=
            (NodeIndex.get_node_path_ok _ _ _).mpr ⟨leftAttributes, leftEntry⟩
          simp only [leftNodePath]
          split <;> exact ⟨_, rfl⟩
  have runs := fun start => @fold_m_ok _ _ _ (fun difference node => do
      let found ← nodeDifference algorithm leftIndex right node
      .ok (NodeIndexDifferences.report difference node found))
    (tasks.order (computeDifference tasks right.index (fileSystemNodes leftIndex)).toList)
    (fun node member difference => by
      rw [mem_order, Std.TreeSet.mem_toList, mem_compute_difference] at member
      obtain ⟨found, decided⟩ := decides node member
      refine ⟨difference.report node found, ?_⟩
      rw [decided]
      rfl) start
  unfold computeDiff resolveDifferences computeNodeDifferences
  obtain ⟨reported, run⟩ := runs
    { NodeIndexDifferences.empty with
      deleted := computeDeleted (fileSystemNodes leftIndex) right.index
        (computeDifference tasks (fileSystemNodes leftIndex) right.index) }
  simp only [run]
  exact ⟨_, rfl⟩

/-- `ComputeDiff` answers as it is specified, in every order of its tasks, and it
does answer when the digests of the right files and links can be retrieved. -/
theorem compute_diff_specified (tasks : TaskOrder Nat) (algorithm : HashAlgorithm)
    (leftIndex : BackupNodeIndex) (right : RightIndex) :
    (∀ difference, computeDiff tasks algorithm leftIndex right = .ok difference →
      DiffSpecified algorithm leftIndex right difference) ∧
    ((∀ node path attributes, right.index.nodes[node]? = some (path, attributes) →
        attributes.type ≠ .directory → ∃ hash, right.retrieveNodeHash node = .ok hash) →
      ∃ difference, computeDiff tasks algorithm leftIndex right = .ok difference) :=
  ⟨fun _ run => diff_specified run, diff_computes tasks⟩

/-- A file or link that stays in place with its content is reported as such exactly
when no later node of the left index has the content as well. -/
theorem kept_in_place_iff (tasks : TaskOrder Nat) (algorithm : HashAlgorithm)
    (leftIndex : BackupNodeIndex) (right : RightIndex) (difference : NodeIndexDifferences)
    (run : computeDiff tasks algorithm leftIndex right = .ok difference)
    (node leftNode : Nat) (path : Path) (attributes : FileSystemNodeAttributes)
    (leftAttributes : BackupNodeAttributes) (hash : String)
    (entry : right.index.nodes[node]? = some (path, attributes))
    (isContent : attributes.type ≠ .directory)
    (leftEntry : leftIndex.nodes[leftNode]? = some (path, leftAttributes))
    (differs : attributes.equals leftAttributes.toFileSystemNodeAttributes = false)
    (retrieved : right.retrieveNodeHash node = .ok hash)
    (recorded : leftAttributes.hashes algorithm = some hash) :
    (node ∈ difference.differentMetadata ∧ difference.moved[node]? = none) ↔
      ∀ later laterPath laterAttributes, leftNode < later →
        leftIndex.nodes[later]? = some (laterPath, laterAttributes) →
          laterAttributes.hashes algorithm ≠ some hash := by
  have computed := compute_diff_computed run
  have specified := diff_specified run
  have different : nodeDiffers right.index (fileSystemNodes leftIndex) node = true := by
    rw [node_differs_iff]
    refine ⟨path, attributes, entry, ?_⟩
    intro other found
    rw [fileSystemNodes, NodeIndex.lookup_map_attributes, NodeIndex.lookup_of_get leftEntry] at found
    cases found
    exact differs
  have last : findNodeIndexByHash algorithm leftIndex hash = some leftNode ↔
      ∀ later laterPath laterAttributes, leftNode < later →
        leftIndex.nodes[later]? = some (laterPath, laterAttributes) →
          laterAttributes.hashes algorithm ≠ some hash := by
    rw [find_node_index_by_hash_iff]
    exact and_iff_right ⟨path, leftAttributes, leftEntry, recorded⟩
  rw [← last]
  constructor
  · rintro ⟨member, _⟩
    have kept := ((computed.differentMetadata node).mp member).2
    obtain ⟨other, target, targetPath, _, otherRetrieved, search, targetEntry, _, reported⟩ :=
      node_difference_hit entry kept nofun
    rw [retrieved] at otherRetrieved
    cases otherRetrieved
    by_cases same : targetPath = path
    · subst same
      rw [NodeIndex.node_number_unique leftEntry targetEntry]
      exact search
    · rw [if_neg same] at reported
      cases reported
  · intro search
    have kept : node ∈ difference.differentMetadata := by
      rw [computed.differentMetadata]
      refine ⟨different, ?_⟩
      have nodeAttributes : right.index.getNodeAttributes node = .ok attributes :=
        (NodeIndex.get_node_attributes_ok _ _ _).mpr ⟨path, entry⟩
      have nodePath : right.index.getNodePath node = .ok path :=
        (NodeIndex.get_node_path_ok _ _ _).mpr ⟨attributes, entry⟩
      have leftPath : leftIndex.getNodePath leftNode = .ok path :=
        (NodeIndex.get_node_path_ok _ _ _).mpr ⟨leftAttributes, leftEntry⟩
      simp only [nodeDifference, nodeAttributes, nodePath, bind, Except.bind, if_neg isContent,
        retrieved, search, leftPath, if_true]
    exact ⟨kept, specified.metadataApart node kept⟩

end Specification

section Twins

/-! A file is backed up alone or with a second one of the same content; then only
its modification time changes. -/

def twinFile : SourceNode := fileNode "b" [1, 2] 1

def twinBackup : Call :=
  callOf "snapshot_1" [storedFile, twinFile] (writeSteps storedFile ++ writeSteps twinFile)

def touchedFile : SourceNode := fileNode "a" [1, 2] 2

def touchedRight : RightIndex := sourceRight spellingRuntime .md5 (sourceOf [touchedFile])

def twinDigest : String := spellingRuntime.hash .md5 [1, 2]

theorem touched_entry :
    touchedRight.index.nodes[0]? = some (touchedFile.path, touchedFile.attributes) := by
  decide +kernel

theorem touched_retrieved : touchedRight.retrieveNodeHash 0 = .ok twinDigest := by
  decide +kernel

theorem touched_hashed {node : Nat} {path : Path} {attributes : FileSystemNodeAttributes}
    (entry : touchedRight.index.nodes[node]? = some (path, attributes)) :
    ∃ hash, touchedRight.retrieveNodeHash node = .ok hash := by
  have bound : node < 1 := (List.getElem?_eq_some_iff.mp entry).1
  have only : node = 0 := by omega
  subst only
  exact ⟨twinDigest, touched_retrieved⟩

theorem twins_recorded {call : Call} {files : List SourceNode}
    (outcome : (((backups spellingRuntime).run [] [call]).bind lastIndex).map (fun left =>
      left.nodes.map fun entry =>
        (entry.1, entry.2.toFileSystemNodeAttributes, entry.2.hashes .md5)) =
      some (files.map fun file => (file.path, file.attributes, some twinDigest))) :
    ∃ chain left, (backups spellingRuntime).run [] [call] = some chain ∧
      lastIndex chain = some left ∧ left.nodes.length = files.length ∧
      ∀ (node : Nat), ∀ file, files[node]? = some file →
        ∃ attributes, left.nodes[node]? = some (file.path, attributes) ∧
          attributes.toFileSystemNodeAttributes = file.attributes ∧
          attributes.hashes .md5 = some twinDigest := by
  obtain ⟨left, found, recorded⟩ := Option.map_eq_some_iff.mp outcome
  obtain ⟨chain, run, last⟩ := Option.bind_eq_some_iff.mp found
  have lengths := congrArg List.length recorded
  rw [List.length_map, List.length_map] at lengths
  refine ⟨chain, left, run, last, lengths, ?_⟩
  intro node file position
  have entries := congrArg (fun list => list[node]?) recorded
  simp only [List.getElem?_map, position, Option.map_some, Option.map_eq_some_iff, Prod.mk.injEq]
    at entries
  obtain ⟨⟨path, attributes⟩, entry, rfl, same, digest⟩ := entries
  exact ⟨attributes, entry, same, digest⟩

theorem touched_file_specified :
    ∃ chain left difference, (backups spellingRuntime).run [] [twinBackup] = some chain ∧
      lastIndex chain = some left ∧
      computeDiff inSequence .md5 left touchedRight = .ok difference ∧
      DiffSpecified .md5 left touchedRight difference := by
  obtain ⟨chain, left, run, last, _, _⟩ :=
    @twins_recorded twinBackup [storedFile, twinFile] (by decide +kernel)
  have specification := compute_diff_specified inSequence .md5 left touchedRight
  obtain ⟨difference, computed⟩ :=
    specification.2 fun node path attributes entry _ => touched_hashed entry
  exact ⟨chain, left, difference, run, last, computed, specification.1 difference computed⟩

theorem touched_file_kept :
    ∃ chain left difference, (backups spellingRuntime).run [] [firstBackup] = some chain ∧
      lastIndex chain = some left ∧
      computeDiff inSequence .md5 left touchedRight = .ok difference ∧
      0 ∈ difference.differentMetadata ∧ difference.moved[0]? = none := by
  obtain ⟨chain, left, run, last, single, files⟩ :=
    @twins_recorded firstBackup [storedFile] (by decide +kernel)
  obtain ⟨leftAttributes, leftEntry, same, recorded⟩ := files 0 storedFile rfl
  obtain ⟨difference, computed⟩ := @diff_computes .md5 left touchedRight inSequence
    fun node path attributes entry _ => touched_hashed entry
  have isContent : touchedFile.attributes.type ≠ .directory := by decide
  have differs : touchedFile.attributes.equals leftAttributes.toFileSystemNodeAttributes = false := by
    rw [same]
    decide
  obtain ⟨kept, unmoved⟩ := (kept_in_place_iff inSequence .md5 left touchedRight difference
    computed 0 0 touchedFile.path touchedFile.attributes leftAttributes twinDigest touched_entry
    isContent leftEntry differs touched_retrieved recorded).mpr (by
      intro later _ _ behind entry
      have bound := (List.getElem?_eq_some_iff.mp entry).1
      rw [single, List.length_singleton] at bound
      omega)
  exact ⟨chain, left, difference, run, last, computed, kept, unmoved⟩

/-- With a second file of its content after it the touched file is taken for that
one, moved. -/
theorem touched_twin_moved :
    ∃ chain left difference leftAttributes,
      (backups spellingRuntime).run [] [twinBackup] = some chain ∧ lastIndex chain = some left ∧
      computeDiff inSequence .md5 left touchedRight = .ok difference ∧
      touchedRight.index.nodes[0]? = some (touchedFile.path, touchedFile.attributes) ∧
      touchedFile.attributes.type = .file ∧
      left.nodes[0]? = some (touchedFile.path, leftAttributes) ∧
      touchedFile.attributes.equals leftAttributes.toFileSystemNodeAttributes = false ∧
      touchedRight.retrieveNodeHash 0 = .ok twinDigest ∧
      leftAttributes.hashes .md5 = some twinDigest ∧
      0 ∉ difference.differentMetadata ∧ difference.moved[0]? = some 1 := by
  obtain ⟨chain, left, run, last, _, files⟩ :=
    @twins_recorded twinBackup [storedFile, twinFile] (by decide +kernel)
  have outcome : ((((backups spellingRuntime).run [] [twinBackup]).bind lastIndex).map fun left =>
      (computeDiff inSequence .md5 left touchedRight).toOption.map fun difference =>
        (difference.differentMetadata.contains 0, difference.moved[0]?)) =
      some (some (false, some 1)) := by decide +kernel
  rw [run, Option.bind_some, last, Option.map_some, Option.some.injEq,
    Option.map_eq_some_iff] at outcome
  obtain ⟨difference, computed, facts⟩ := outcome
  obtain ⟨unlisted, moved⟩ := Prod.mk.inj facts
  have run' : computeDiff inSequence .md5 left touchedRight = .ok difference := by
    cases result : computeDiff inSequence .md5 left touchedRight with
    | error fault => simp [result, Except.toOption] at computed
    | ok found =>
        simp only [result, Except.toOption, Option.some.injEq] at computed
        rw [computed]
  obtain ⟨leftAttributes, leftEntry, same, recorded⟩ := files 0 storedFile rfl
  refine ⟨chain, left, difference, leftAttributes, run, last, run', touched_entry, rfl, leftEntry,
    ?_, touched_retrieved, recorded, ?_, moved⟩
  · rw [same]
    decide
  · rw [← Std.TreeSet.contains_iff_mem, unlisted]
    exact Bool.false_ne_true

end Twins

end ACBackup.DifferenceSpecification
