import ACBackup.SnapshotCreation

/-!
What `AddSnapshot` decides to do with each node of the source. The three kinds of
differences and the default partition the source, and the order of the tasks
decides nothing but the order of the nodes.
-/

namespace ACBackup.SnapshotPlan

open ACBackup.Library.Outcome ACBackup.Library.Tasks
open ACBackup.Platform ACBackup.NodeAttributes ACBackup.Indexing ACBackup.SourceIndex
open ACBackup.DifferenceResolver ACBackup.SnapshotCreation

set_option autoImplicit false

def expectedRoute (runtime : Runtime) (algorithm : HashAlgorithm) (last : Option BackupNodeIndex)
    (source : OSFileSystemNodeIndex) (node : Nat) : Except Fault NodeDifference :=
  match last with
  | none => .ok .backupFully
  | some lastIndex =>
      if nodeDiffers source.index (fileSystemNodes lastIndex) node then
        nodeDifference algorithm lastIndex (sourceRight runtime algorithm source) node
      else .ok .updateMetadataOnly

/-- The node of the last snapshot that a node of the source is taken over from:
the one at its path when no difference shows, otherwise one with its digest. -/
def takenOverFrom (runtime : Runtime) (algorithm : HashAlgorithm) (last : Option BackupNodeIndex)
    (source : OSFileSystemNodeIndex) (path : Path) (attributes : FileSystemNodeAttributes) :
    Option (Path × BackupNodeAttributes) :=
  match last with
  | none => none
  | some lastIndex =>
      if differsFrom (fileSystemNodes lastIndex) (path, attributes) then
        if attributes.type = .directory then none
        else
          (findNodeIndexByHash algorithm lastIndex
            (runtime.hash algorithm (source.content path))).bind
              fun node => lastIndex.nodes[node]?
      else (lastIndex.lookup path).map fun old => (path, old)

theorem differs_from_iff (index : BackupNodeIndex) (path : Path)
    (attributes : FileSystemNodeAttributes) :
    differsFrom (fileSystemNodes index) (path, attributes) = false ↔
      ∃ old, index.lookup path = some old ∧
        attributes.equals old.toFileSystemNodeAttributes = true := by
  unfold differsFrom fileSystemNodes
  simp only [NodeIndex.lookup_map_attributes]
  cases index.lookup path <;> simp

/-- What being taken over from a node is based on. -/
theorem taken_over_from_some {runtime : Runtime} {algorithm : HashAlgorithm}
    {lastIndex : BackupNodeIndex} {source : OSFileSystemNodeIndex} {path oldPath : Path}
    {attributes : FileSystemNodeAttributes} {old : BackupNodeAttributes}
    (taken : takenOverFrom runtime algorithm (some lastIndex) source path attributes =
      some (oldPath, old)) :
    lastIndex.lookup oldPath = some old ∧
      ((oldPath = path ∧ attributes.equals old.toFileSystemNodeAttributes = true) ∨
        (attributes.type ≠ .directory ∧
          old.hashes algorithm = some (runtime.hash algorithm (source.content path)))) := by
  simp only [takenOverFrom] at taken
  by_cases differs : differsFrom (fileSystemNodes lastIndex) (path, attributes) = true
  · rw [if_pos differs] at taken
    by_cases directory : attributes.type = .directory
    · rw [if_pos directory] at taken
      cases taken
    · rw [if_neg directory, Option.bind_eq_some_iff] at taken
      obtain ⟨node, search, entry⟩ := taken
      obtain ⟨otherPath, other, otherEntry, recorded⟩ := find_node_index_by_hash_some search
      rw [entry] at otherEntry
      cases otherEntry
      exact ⟨NodeIndex.lookup_of_get entry, .inr ⟨directory, recorded⟩⟩
  · rw [if_neg differs, Option.map_eq_some_iff] at taken
    obtain ⟨found, present, same⟩ := taken
    cases same
    obtain ⟨other, otherFound, equals⟩ :=
      (differs_from_iff lastIndex path attributes).mp (Bool.eq_false_of_not_eq_true differs)
    rw [present] at otherFound
    cases otherFound
    exact ⟨present, .inl ⟨rfl, equals⟩⟩

/-- A file or link that is not taken over has a digest that the last snapshot
does not know. -/
theorem taken_over_from_none {runtime : Runtime} {algorithm : HashAlgorithm}
    {lastIndex : BackupNodeIndex} {source : OSFileSystemNodeIndex} {path : Path}
    {attributes : FileSystemNodeAttributes}
    (anew : takenOverFrom runtime algorithm (some lastIndex) source path attributes = none) :
    differsFrom (fileSystemNodes lastIndex) (path, attributes) = true ∧
      (attributes.type = .directory ∨
        findNodeIndexByHash algorithm lastIndex
          (runtime.hash algorithm (source.content path)) = none) := by
  simp only [takenOverFrom] at anew
  by_cases differs : differsFrom (fileSystemNodes lastIndex) (path, attributes) = true
  · refine ⟨differs, ?_⟩
    rw [if_pos differs] at anew
    by_cases directory : attributes.type = .directory
    · exact .inl directory
    · right
      rw [if_neg directory, Option.bind_eq_none_iff] at anew
      cases search : findNodeIndexByHash algorithm lastIndex
          (runtime.hash algorithm (source.content path)) with
      | none => rfl
      | some node =>
          obtain ⟨oldPath, old, entry, _⟩ := find_node_index_by_hash_some search
          rw [anew node search] at entry
          cases entry
  · obtain ⟨old, present, _⟩ :=
      (differs_from_iff lastIndex path attributes).mp (Bool.eq_false_of_not_eq_true differs)
    rw [if_neg differs, present] at anew
    cases anew

section Routes

variable {runtime : Runtime} {algorithm : HashAlgorithm} {tasks : TaskOrder Nat}
  {last : Option BackupNodeIndex} {source : OSFileSystemNodeIndex}
  {difference : NodeIndexDifferences}

theorem mem_update_default (numberOfNodes : Nat) (difference : NodeIndexDifferences) (node : Nat) :
    node ∈ (updateDefault numberOfNodes difference).differentMetadata ↔
      node ∈ difference.differentMetadata ∨
        (node < numberOfNodes ∧ node ∉ difference.differentData ∧ node ∉ difference.moved) := by
  have fold : ∀ (list : List Nat) (start : Std.TreeSet Nat),
      node ∈ list.foldl
        (fun metadata node =>
          if node ∈ difference.differentData ∨ node ∈ metadata ∨ node ∈ difference.moved then
            metadata
          else metadata.insert node) start ↔
        node ∈ start ∨
          (node ∈ list ∧ node ∉ difference.differentData ∧ node ∉ difference.moved) := by
    intro list
    induction list with
    | nil => simp
    | cons first rest induction =>
        intro start
        rw [List.foldl_cons, induction]
        by_cases known : first ∈ difference.differentData ∨ first ∈ start ∨
            first ∈ difference.moved
        · rw [if_pos known, List.mem_cons]
          by_cases same : node = first
          · subst same
            tauto
          · simp [same]
        · rw [if_neg known, Std.TreeSet.mem_insert, Std.compare_eq_iff_eq, List.mem_cons]
          by_cases same : node = first
          · subst same
            tauto
          · simp [same, Ne.symm same]
  unfold updateDefault
  simp only [fold, List.mem_range]

theorem mem_routes (difference : NodeIndexDifferences) (node : Nat) (kind : NodeDifference) :
    (node, kind) ∈ routes difference ↔
      match kind with
      | .backupFully => node ∈ difference.differentData
      | .updateMetadataOnly => node ∈ difference.differentMetadata
      | .backreferenceWithDifferentPath moveIndex =>
          difference.moved[node]? = some moveIndex := by
  unfold routes
  simp only [List.mem_append, List.mem_map, Prod.mk.injEq, Std.TreeSet.mem_toList]
  cases kind with
  | backupFully => simp
  | updateMetadataOnly => simp
  | backreferenceWithDifferentPath moveIndex =>
      simp only [reduceCtorEq, and_false, exists_false, false_or,
        NodeDifference.backreferenceWithDifferentPath.injEq]
      constructor
      · intro described
        obtain ⟨entry, member, same, target⟩ := described
        rw [← same, ← target]
        exact Std.TreeMap.mem_toList_iff_getElem?_eq_some.mp member
      · intro found
        exact ⟨(node, moveIndex), Std.TreeMap.mem_toList_iff_getElem?_eq_some.mpr found, rfl, rfl⟩

theorem routes_nodup (difference : NodeIndexDifferences) : (routes difference).Nodup := by
  have sets : ∀ set : Std.TreeSet Nat, set.toList.Nodup := by
    intro set
    have distinct := @Std.TreeSet.distinct_toList _ _ set _
    exact distinct.imp fun different same => different (Std.compare_eq_iff_eq.mpr same)
  have keys : (difference.moved.toList.map Prod.fst).Nodup := by
    rw [Std.TreeMap.map_fst_toList_eq_keys]
    exact Std.TreeMap.nodup_keys
  unfold routes
  rw [List.nodup_append, List.nodup_append]
  refine ⟨⟨?_, ?_, ?_⟩, ?_, ?_⟩
  · apply (sets difference.differentData).map
    intro left right same
    exact congrArg Prod.fst same
  · apply (sets difference.differentMetadata).map
    intro left right same
    exact congrArg Prod.fst same
  · intro left leftMember right rightMember
    obtain ⟨_, _, rfl⟩ := List.mem_map.mp leftMember
    obtain ⟨_, _, rfl⟩ := List.mem_map.mp rightMember
    simp
  · apply (List.Nodup.of_map Prod.fst keys).map
    rintro ⟨leftNode, leftTarget⟩ ⟨rightNode, rightTarget⟩ same
    simpa using same
  · intro left leftMember right rightMember
    obtain ⟨_, _, rfl⟩ := List.mem_map.mp rightMember
    rcases List.mem_append.mp leftMember with data | metadata
    · obtain ⟨_, _, rfl⟩ := List.mem_map.mp data
      simp
    · obtain ⟨_, _, rfl⟩ := List.mem_map.mp metadata
      simp

/-- Every node of the source has exactly one route, the expected one. -/
structure Routed (runtime : Runtime) (algorithm : HashAlgorithm) (last : Option BackupNodeIndex)
    (source : OSFileSystemNodeIndex) (difference : NodeIndexDifferences) : Prop where
  classified : ∀ node < source.index.getNumberOfNodes,
    ∃ kind, expectedRoute runtime algorithm last source node = .ok kind
  expected : ∀ node kind, (node, kind) ∈ routes difference ↔
    node < source.index.getNumberOfNodes ∧
      expectedRoute runtime algorithm last source node = .ok kind

theorem node_differs_bound {leftIndex rightIndex : FileSystemNodeIndex} {node : Nat}
    (differs : nodeDiffers leftIndex rightIndex node = true) :
    node < leftIndex.getNumberOfNodes := by
  obtain ⟨_, _, entry, _⟩ := (node_differs_iff _ _ _).mp differs
  exact (List.getElem?_eq_some_iff.mp entry).1

private theorem routed_first (runtime : Runtime) (algorithm : HashAlgorithm) (tasks : TaskOrder Nat)
    (source : OSFileSystemNodeIndex) (defaults : Bool)
    (computed : computeDifference runtime algorithm tasks none source defaults = .ok difference) :
    Routed runtime algorithm none source difference := by
  have fold : ∀ (list : List Nat) (start : Std.TreeSet Nat) (node : Nat),
      node ∈ list.foldl (fun data node => data.insert node) start ↔
        node ∈ start ∨ node ∈ list := by
    intro list
    induction list with
    | nil => simp
    | cons first rest induction =>
        intro start node
        rw [List.foldl_cons, induction, Std.TreeSet.mem_insert, Std.compare_eq_iff_eq,
          List.mem_cons]
        tauto
  cases computed
  refine ⟨fun node _ => ⟨.backupFully, rfl⟩, ?_⟩
  intro node kind
  rw [mem_routes]
  cases kind <;> simp [NodeIndexDifferences.empty, fold, expectedRoute]

private theorem routed_next {lastIndex : BackupNodeIndex}
    (computed : computeDifference runtime algorithm tasks (some lastIndex) source true =
      .ok difference) : Routed runtime algorithm (some lastIndex) source difference := by
  obtain ⟨found, diff, same⟩ := bind_ok computed
  cases same
  have spec := compute_diff_computed diff
  have right : ∀ node, nodeDiffers (sourceRight runtime algorithm source).index
      (fileSystemNodes lastIndex) node =
        nodeDiffers source.index (fileSystemNodes lastIndex) node := fun _ => rfl
  have moved : ∀ node, node ∈ found.moved ↔ ∃ moveIndex : Nat, found.moved[node]? = some moveIndex := by
    intro node
    rw [← Std.TreeMap.isSome_getElem?_iff_mem, Option.isSome_iff_exists]
  refine ⟨?_, ?_⟩
  · intro node _
    simp only [expectedRoute]
    by_cases differs : nodeDiffers source.index (fileSystemNodes lastIndex) node = true
    · rw [if_pos differs]
      exact spec.classified node differs
    · rw [if_neg differs]
      exact ⟨.updateMetadataOnly, rfl⟩
  · intro node kind
    rw [mem_routes, expectedRoute]
    have bound := @node_differs_bound source.index (fileSystemNodes lastIndex) node
    cases kind with
    | backupFully =>
        have data : (updateDefault source.index.getNumberOfNodes found).differentData =
            found.differentData := rfl
        simp only [if_true, data]
        rw [spec.differentData, right]
        by_cases differs : nodeDiffers source.index (fileSystemNodes lastIndex) node = true
        · simp [differs, bound differs]
        · simp [differs]
    | updateMetadataOnly =>
        simp only [if_true]
        rw [mem_update_default, spec.differentMetadata, spec.differentData, moved]
        simp only [spec.moved, right]
        by_cases differs : nodeDiffers source.index (fileSystemNodes lastIndex) node = true
        · obtain ⟨kind, classified⟩ := spec.classified node differs
          simp only [differs, bound differs, classified, true_and]
          cases kind <;> simp
        · simp [differs]
    | backreferenceWithDifferentPath moveIndex =>
        have movedSame : (updateDefault source.index.getNumberOfNodes found).moved =
            found.moved := rfl
        simp only [if_true, movedSame]
        rw [spec.moved, right]
        by_cases differs : nodeDiffers source.index (fileSystemNodes lastIndex) node = true
        · simp [differs, bound differs]
        · simp [differs]

theorem routed
    (computed : computeDifference runtime algorithm tasks last source true = .ok difference) :
    Routed runtime algorithm last source difference := by
  cases last with
  | none => exact routed_first runtime algorithm tasks source true computed
  | some lastIndex => exact routed_next computed

theorem routes_perm (routed : Routed runtime algorithm last source difference) :
    ((routes difference).map Prod.fst).Perm (List.range source.index.getNumberOfNodes) := by
  have nodup : ((routes difference).map Prod.fst).Nodup := by
    apply List.Nodup.map_on _ (routes_nodup difference)
    rintro ⟨leftNode, leftKind⟩ leftMember ⟨rightNode, rightKind⟩ rightMember same
    cases same
    have left := ((routed.expected _ _).mp leftMember).2
    have right := ((routed.expected _ _).mp rightMember).2
    rw [left] at right
    cases right
    rfl
  rw [List.perm_ext_iff_of_nodup nodup List.nodup_range]
  intro node
  rw [List.mem_range, List.mem_map]
  constructor
  · intro described
    obtain ⟨⟨other, kind⟩, member, same⟩ := described
    cases same
    exact ((routed.expected _ _).mp member).1
  · intro bound
    obtain ⟨kind, classified⟩ := routed.classified node bound
    exact ⟨(node, kind), (routed.expected _ _).mpr ⟨bound, classified⟩, rfl⟩

end Routes

section Nodes

variable {runtime : Runtime} {last : Option BackupNodeIndex} {lastIndex : BackupNodeIndex}
  {call : Call} {number : Nat} {path : Path} {attributes : FileSystemNodeAttributes}
  {node : PlannedNode}

inductive NodePlanned (runtime : Runtime) (last : Option BackupNodeIndex) (call : Call)
    (path : Path) (attributes : FileSystemNodeAttributes) : PlannedNode → Prop
  | directory (isDirectory : attributes.type = .directory)
      (anew : takenOverFrom runtime call.hashAlgorithm last call.source path attributes = none) :
      NodePlanned runtime last call path attributes
        { path := path
          attributes := .ofFileSystemNodeAttributes (call.uninitialised path) attributes
          stored := none }
  | stored (isContent : attributes.type ≠ .directory)
      (sized : (call.source.content path).length = attributes.size)
      (anew : takenOverFrom runtime call.hashAlgorithm last call.source path attributes = none) :
      NodePlanned runtime last call path attributes
        { path := path
          attributes := .ofFileSystemNodeAttributes (call.uninitialised path) attributes
          stored := some (storeContent runtime (compressionLevel call path attributes)
            (call.source.content path)) }
  | inPlace (old : BackupNodeAttributes)
      (taken : takenOverFrom runtime call.hashAlgorithm last call.source path attributes =
        some (path, old))
      (known : attributes.equals old.toFileSystemNodeAttributes = true ∨
        (call.source.content path).length = attributes.size) :
      NodePlanned runtime last call path attributes
        { path := path
          attributes := { old.copyFrom attributes with ownsBlocks := false }
          stored := none }
  | moved (oldPath : Path) (old : BackupNodeAttributes) (different : oldPath ≠ path)
      (taken : takenOverFrom runtime call.hashAlgorithm last call.source path attributes =
        some (oldPath, old))
      (sized : (call.source.content path).length = attributes.size) :
      NodePlanned runtime last call path attributes
        { path := path
          attributes :=
            { old.copyFrom attributes with
              ownsBlocks := false
              backReferenceTarget := some oldPath }
          stored := none }

theorem planned_path (planned : NodePlanned runtime last call path attributes node) :
    node.path = path := by
  cases planned <;> rfl

theorem planned_backup_node (entry : call.source.index.nodes[number]? = some (path, attributes))
    (anew : takenOverFrom runtime call.hashAlgorithm last call.source path attributes = none)
    (run : backupNode runtime call number = .ok node) :
    NodePlanned runtime last call path attributes node := by
  have nodePath : call.source.index.getNodePath number = .ok path :=
    (NodeIndex.get_node_path_ok _ _ _).mpr ⟨attributes, entry⟩
  have nodeAttributes : call.source.index.getNodeAttributes number = .ok attributes :=
    (NodeIndex.get_node_attributes_ok _ _ _).mpr ⟨path, entry⟩
  simp only [backupNode, nodePath, nodeAttributes, bind, Except.bind] at run
  by_cases directory : attributes.type = .directory
  · rw [if_pos directory] at run
    cases run
    exact .directory directory anew
  · rw [if_neg directory] at run
    by_cases sized : (call.source.content path).length = attributes.size
    · rw [if_pos sized] at run
      cases run
      exact .stored directory sized anew
    · rw [if_neg sized] at run
      cases run

theorem planned_metadata (entry : call.source.index.nodes[number]? = some (path, attributes))
    {old : BackupNodeAttributes} (found : lastIndex.lookup path = some old)
    (taken : takenOverFrom runtime call.hashAlgorithm (some lastIndex) call.source path attributes =
      some (path, old))
    (known : attributes.equals old.toFileSystemNodeAttributes = true ∨
      (call.source.content path).length = attributes.size)
    (run : planNode runtime (some lastIndex) call (number, .updateMetadataOnly) = .ok node) :
    NodePlanned runtime (some lastIndex) call path attributes node := by
  have nodePath : call.source.index.getNodePath number = .ok path :=
    (NodeIndex.get_node_path_ok _ _ _).mpr ⟨attributes, entry⟩
  have nodeAttributes : call.source.index.getNodeAttributes number = .ok attributes :=
    (NodeIndex.get_node_attributes_ok _ _ _).mpr ⟨path, entry⟩
  obtain ⟨oldIndex, oldNumber, oldEntry⟩ := NodeIndex.get_node_index_of_lookup found
  have oldAttributes : lastIndex.getNodeAttributes oldIndex = .ok old :=
    (NodeIndex.get_node_attributes_ok _ _ _).mpr ⟨path, oldEntry⟩
  simp only [planNode, backupNodeMetadata, nodePath, nodeAttributes, oldNumber, oldAttributes,
    bind, Except.bind] at run
  cases run
  exact .inPlace old taken known

theorem planned_move (entry : call.source.index.nodes[number]? = some (path, attributes))
    {moveIndex : Nat} {oldPath : Path} {old : BackupNodeAttributes}
    (oldEntry : lastIndex.nodes[moveIndex]? = some (oldPath, old)) (different : oldPath ≠ path)
    (taken : takenOverFrom runtime call.hashAlgorithm (some lastIndex) call.source path attributes =
      some (oldPath, old))
    (sized : (call.source.content path).length = attributes.size)
    (run : planNode runtime (some lastIndex) call
      (number, .backreferenceWithDifferentPath moveIndex) = .ok node) :
    NodePlanned runtime (some lastIndex) call path attributes node := by
  have nodePath : call.source.index.getNodePath number = .ok path :=
    (NodeIndex.get_node_path_ok _ _ _).mpr ⟨attributes, entry⟩
  have nodeAttributes : call.source.index.getNodeAttributes number = .ok attributes :=
    (NodeIndex.get_node_attributes_ok _ _ _).mpr ⟨path, entry⟩
  have oldAttributes : lastIndex.getNodeAttributes moveIndex = .ok old :=
    (NodeIndex.get_node_attributes_ok _ _ _).mpr ⟨oldPath, oldEntry⟩
  have oldNodePath : lastIndex.getNodePath moveIndex = .ok oldPath :=
    (NodeIndex.get_node_path_ok _ _ _).mpr ⟨old, oldEntry⟩
  simp only [planNode, backupMove, nodePath, nodeAttributes, oldAttributes, oldNodePath,
    bind, Except.bind] at run
  cases run
  exact .moved oldPath old different taken sized

theorem planned_node (entry : call.source.index.nodes[number]? = some (path, attributes))
    {kind : NodeDifference}
    (routed : expectedRoute runtime call.hashAlgorithm last call.source number = .ok kind)
    (run : planNode runtime last call (number, kind) = .ok node) :
    NodePlanned runtime last call path attributes node := by
  cases last with
  | none =>
      cases routed
      exact planned_backup_node entry rfl run
  | some lastIndex =>
      have differs : nodeDiffers call.source.index (fileSystemNodes lastIndex) number =
          differsFrom (fileSystemNodes lastIndex) (path, attributes) := by
        rw [nodeDiffers, entry]
      simp only [expectedRoute, differs] at routed
      by_cases different : differsFrom (fileSystemNodes lastIndex) (path, attributes) = true
      · rw [if_pos different] at routed
        rcases node_difference_ok entry routed with ⟨directory, rfl⟩ | ⟨content, hash, computed, decision⟩
        · apply planned_backup_node entry _ run
          simp only [takenOverFrom, if_pos different, if_pos directory]
        · obtain ⟨_, sized, rfl⟩ := compute_node_hash_ok entry computed
          rcases decision with ⟨unknown, rfl⟩ | ⟨oldNode, oldPath, old, search, oldEntry, rfl⟩
          · apply planned_backup_node entry _ run
            simp only [takenOverFrom, if_pos different, if_neg content, unknown, Option.bind_none]
          · have taken : takenOverFrom runtime call.hashAlgorithm (some lastIndex) call.source path
                attributes = some (oldPath, old) := by
              simp only [takenOverFrom, if_pos different, if_neg content, search,
                Option.bind_some, oldEntry]
            by_cases same : oldPath = path
            · rw [if_pos same] at run
              subst same
              exact planned_metadata entry (NodeIndex.lookup_of_get oldEntry) taken (.inr sized) run
            · rw [if_neg same] at run
              exact planned_move entry oldEntry same taken sized run
      · rw [if_neg different] at routed
        cases routed
        obtain ⟨old, found, equals⟩ := (differs_from_iff lastIndex path attributes).mp
          (Bool.eq_false_of_not_eq_true different)
        apply planned_metadata entry found _ (.inl equals) run
        simp only [takenOverFrom, if_neg different, found, Option.map_some]

structure SnapshotPlanned (runtime : Runtime) (last : Option BackupNodeIndex) (call : Call)
    (planned : List PlannedNode) : Prop where
  paths : (planned.map PlannedNode.path).Perm (call.source.index.nodes.map Prod.fst)
  nodes : ∀ node ∈ planned, ∃ attributes,
    call.source.index.lookup node.path = some attributes ∧
      NodePlanned runtime last call node.path attributes node

theorem snapshot_planned {planned : List PlannedNode}
    (run : planSnapshot runtime last call = .ok planned) :
    SnapshotPlanned runtime last call planned := by
  obtain ⟨difference, computed, mapped⟩ := bind_ok run
  have routed := routed computed
  have order := call.nodeTasks.perm (routes difference)
  have each : ∀ route ∈ call.nodeTasks.order (routes difference), ∀ node,
      planNode runtime last call route = .ok node →
        ∃ attributes, call.source.index.nodes[route.1]? = some (node.path, attributes) ∧
          NodePlanned runtime last call node.path attributes node := by
    intro route member node outcome
    obtain ⟨number, kind⟩ := route
    obtain ⟨bound, expected⟩ := (routed.expected number kind).mp (order.mem_iff.mp member)
    obtain ⟨⟨path, attributes⟩, entry⟩ :
        ∃ entry, call.source.index.nodes[number]? = some entry :=
      ⟨_, List.getElem?_eq_getElem bound⟩
    have planned := planned_node entry expected outcome
    have path := planned_path planned
    subst path
    exact ⟨attributes, entry, planned⟩
  have paths : planned.map (fun node => some node.path) =
      ((call.nodeTasks.order (routes difference)).map Prod.fst).map
        fun number => (call.source.index.nodes[number]?).map Prod.fst := by
    have related := (List.forall₂_and_left _ _).mpr ⟨each, (map_m_ok_iff _ _ _).mp mapped⟩
    rw [List.map_map]
    symm
    rw [← List.forall₂_eq_eq_eq, List.forall₂_map_left_iff, List.forall₂_map_right_iff]
    apply related.imp
    intro route node described
    obtain ⟨attributes, entry, _⟩ := described.1 node described.2
    simp only [Function.comp_apply, entry, Option.map_some]
  refine ⟨?_, ?_⟩
  · have numbers : (List.range call.source.index.getNumberOfNodes).map
        (fun number => (call.source.index.nodes[number]?).map Prod.fst) =
          (call.source.index.nodes.map Prod.fst).map some := by
      apply List.ext_getElem?
      intro number
      by_cases bound : number < call.source.index.nodes.length
      · simp [NodeIndex.getNumberOfNodes, bound]
      · simp [NodeIndex.getNumberOfNodes, bound]
    rw [← List.map_perm_map_iff (Option.some_injective Path), ← numbers, List.map_map]
    exact paths ▸ ((order.map Prod.fst).trans (routes_perm routed)).map _
  · intro node member
    obtain ⟨route, inside, outcome⟩ := map_m_ok_mem mapped member
    obtain ⟨attributes, entry, planned⟩ := each route inside node outcome
    exact ⟨attributes, NodeIndex.lookup_of_get entry, planned⟩

end Nodes

end ACBackup.SnapshotPlan
