import ACBackup.MountedTree
import ACBackup.Restore

/-!
In which order `Restore` creates nodes: the directories by their paths, each with
the permissions that were recorded, then the files as the tasks come to them. A task
creates its file before it writes to it.
-/

namespace ACBackup.RestoreOrder

open ACBackup.Library.Loop ACBackup.Library.Outcome ACBackup.Library.Tasks
open ACBackup.Library.Transition
open ACBackup.Platform ACBackup.NodeAttributes ACBackup.Indexing ACBackup.SourceScan
open ACBackup.FileReading ACBackup.SnapshotChain ACBackup.SnapshotCreation ACBackup.SnapshotManager
open ACBackup.SnapshotMirror ACBackup.SnapshotVerification ACBackup.Restore ACBackup.MountedTree

set_option autoImplicit false

inductive CreatedNode where
  | directory (permissions : POSIXPermissions)
  | file (permissions : POSIXPermissions)
  | link (target : Bytes)
  deriving DecidableEq

abbrev Creations := List (Path × CreatedNode)

def creationOf (node : Path × RestoredNode) : Path × CreatedNode :=
  match node.2 with
  | .directory permissions => (node.1, .directory permissions)
  | .file permissions _ => (node.1, .file permissions)
  | .link target => (node.1, .link target)

def createdDirectories (snapshot : Snapshot) (restorePoint : Path) : Creations :=
  match restoreDirectories snapshot restorePoint with
  | .error _ => []
  | .ok directories => directories.map creationOf

/-- The file is created when its data is open, the link when its target is known. -/
def taskCreation (runtime : Runtime) (algorithm : HashAlgorithm) (volumes : VolumeContents)
    (snapshot : Snapshot) (previous : List Snapshot) (restorePoint : Path) (node : Nat) :
    Option (Path × CreatedNode) :=
  match snapshot.index.getNodeAttributes node, snapshot.index.getNodePath node with
  | .ok attributes, .ok filePath =>
      match attributes.type with
      | .directory => none
      | .file =>
          match (findDataSnapshot snapshot previous node).bind (openData runtime algorithm volumes) with
          | .error _ => none
          | .ok _ => some (restorePoint.concat filePath, .file attributes.permissions)
      | .link =>
          match restoreLink snapshot previous node (restorePoint.concat filePath) with
          | .error _ => none
          | .ok created => created.map creationOf
  | _, _ => none

/-- The order of the tasks is that in which they come to create their nodes. -/
def creations (runtime : Runtime) (algorithm : HashAlgorithm) (volumes : VolumeContents)
    (tasks : TaskOrder Nat) (snapshot : Snapshot) (previous : List Snapshot)
    (restorePoint : Path) : Creations :=
  createdDirectories snapshot restorePoint ++
    (tasks.order (List.range snapshot.index.getNumberOfNodes)).filterMap
      (taskCreation runtime algorithm volumes snapshot previous restorePoint)

/-- Whenever a node is created, its directory was created before, with permissions that
grant what is asked for. -/
def ParentsFirst (grants : POSIXPermissions → Prop) (restorePoint : Path)
    (creations : Creations) : Prop :=
  ∀ before creation after, creations = before ++ creation :: after →
    creation.1 ≠ restorePoint →
      ∃ permissions, (creation.1.parent, .directory permissions) ∈ before ∧ grants permissions

def Creates (runtime : Runtime) (algorithm : HashAlgorithm) (volumes : VolumeContents)
    (snapshot : Snapshot) (previous : List Snapshot) (node : Nat)
    (attributes : BackupNodeAttributes) : Prop :=
  attributes.type = .directory ∨
    (attributes.type = .file ∧ ∃ found stream, findDataSnapshot snapshot previous node = .ok found ∧
      openData runtime algorithm volumes found = .ok stream)

/-- The directories of the nodes that are created grant what is asked for. -/
def DirectoriesGrant (grants : POSIXPermissions → Prop) (runtime : Runtime)
    (algorithm : HashAlgorithm) (volumes : VolumeContents) (snapshot : Snapshot)
    (previous : List Snapshot) : Prop :=
  ∀ node path attributes, snapshot.index.nodes[node]? = some (path, attributes) →
    path ≠ Path.root → Creates runtime algorithm volumes snapshot previous node attributes →
      ∀ directory, snapshot.index.lookup path.parent = some directory →
        grants directory.permissions

section Strings

theorem lt_append {first second : String} (nonempty : second ≠ "") : first < first ++ second := by
  rw [String.lt_iff_toList_lt, String.toList_append]
  have rest : second.toList ≠ [] := by simpa using nonempty
  induction first.toList with
  | nil =>
      obtain ⟨head, tail, parts⟩ := List.exists_cons_of_ne_nil rest
      rw [parts]
      exact List.nil_lt_cons head tail
  | cons head tail induction =>
      rw [List.cons_append, List.cons_lt_cons_iff]
      exact .inr ⟨rfl, induction⟩

theorem parent_string_lt {path : Path} (inner : path ≠ Path.root) (named : path.name ≠ "") :
    path.parent.string < path.string := by
  have whole := parent_child inner
  generalize path.parent = parent at whole
  generalize path.name = name at whole named
  subst whole
  by_cases top : parent.components = []
  · have string : (parent.child name).string = parent.string ++ name := by
      simp [Path.string, Path.child, top]
    rw [string]
    exact lt_append named
  · have string : (parent.child name).string = parent.string ++ ("/" ++ name) := by
      simp only [Path.string, Path.child]
      rw [String.intercalate_append_of_ne_nil top (by simp), String.intercalate_singleton]
      simp only [String.append_assoc]
    have slash : "/" ++ name ≠ "" := by
      intro empty
      have letters := congrArg String.toList empty
      rw [String.toList_append] at letters
      cases letters
    rw [string]
    exact lt_append slash

theorem concat_injective (restorePoint : Path) : Function.Injective restorePoint.concat := by
  intro left right same
  cases left
  cases right
  have components := congrArg Platform.Path.components same
  exact congrArg Platform.Path.mk (List.append_cancel_left components)

theorem concat_parent {restorePoint path : Path} (inner : path ≠ Path.root) :
    (restorePoint.concat path).parent = restorePoint.concat path.parent := by
  have nonempty : path.components ≠ [] := by
    intro empty
    cases path
    cases empty
    exact inner rfl
  simp only [Platform.Path.parent, Platform.Path.concat,
    List.dropLast_append_of_ne_nil nonempty]

theorem concat_root (restorePoint : Path) : restorePoint.concat Path.root = restorePoint := by
  cases restorePoint
  simp [Platform.Path.concat, Platform.Path.root]

end Strings

section Directories

variable {snapshot : Snapshot} {restorePoint : Path}

def directoryAt (snapshot : Snapshot) (restorePoint key : Path) : Option (Path × CreatedNode) :=
  (snapshot.index.lookup key).bind fun attributes =>
    if attributes.type = .directory then
      some (restorePoint.concat key, .directory attributes.permissions)
    else none

theorem directory_at_some {key : Path} {creation : Path × CreatedNode} :
    directoryAt snapshot restorePoint key = some creation ↔
      ∃ attributes, snapshot.index.lookup key = some attributes ∧ attributes.type = .directory ∧
        (restorePoint.concat key, .directory attributes.permissions) = creation := by
  simp only [directoryAt, Option.bind_eq_some_iff, Option.ite_none_right_eq_some,
    Option.some.injEq]

theorem mem_path_map {Attributes : Type} (index : NodeIndex Attributes) (path : Path) :
    path ∈ pathMap index ↔ ∃ attributes, index.lookup path = some attributes := by
  rw [pathMap, List.mem_insertionSort, List.mem_map]
  simp only [NodeIndex.lookup_eq_some, Prod.exists, exists_and_right, exists_eq_right]

theorem path_map_sorted {Attributes : Type} (index : NodeIndex Attributes) :
    (pathMap index).Pairwise fun left right => left.string ≤ right.string :=
  List.pairwise_insertionSort _ _

theorem created_directories (snapshot : Snapshot) (restorePoint : Path) :
    createdDirectories snapshot restorePoint =
      (pathMap snapshot.index).filterMap (directoryAt snapshot restorePoint) := by
  have performed : (pathMap snapshot.index).mapM (restoreDirectory snapshot restorePoint) =
      .ok ((pathMap snapshot.index).map fun key =>
        (snapshot.index.lookup key).bind fun attributes =>
          if attributes.type = .directory then
            some (restorePoint.concat key, .directory attributes.permissions) else none) := by
    rw [map_m_ok_iff, List.forall₂_map_right_iff, List.forall₂_same]
    intro key listed
    obtain ⟨attributes, found⟩ := (mem_path_map _ _).mp listed
    rw [restore_directory key attributes found, found]
    rfl
  simp only [createdDirectories, restoreDirectories, performed, bind, Except.bind,
    List.reduceOption, List.filterMap_map, List.map_filterMap]
  congr 1
  funext key
  cases found : snapshot.index.lookup key with
  | none => simp [directoryAt, found]
  | some attributes =>
      by_cases isDirectory : attributes.type = .directory
      · simp [directoryAt, found, isDirectory, creationOf]
      · simp [directoryAt, found, isDirectory]

theorem mem_created_directories (creation : Path × CreatedNode) :
    creation ∈ createdDirectories snapshot restorePoint ↔
      ∃ path attributes, snapshot.index.lookup path = some attributes ∧
        attributes.type = .directory ∧
        (restorePoint.concat path, .directory attributes.permissions) = creation := by
  simp only [created_directories, List.mem_filterMap, directory_at_some, mem_path_map]
  constructor
  · rintro ⟨path, _, attributes, created⟩
    exact ⟨path, attributes, created⟩
  · rintro ⟨path, attributes, found, created⟩
    exact ⟨path, ⟨attributes, found⟩, attributes, found, created⟩

/-- The loop comes to the parent of a directory before it comes to the directory. -/
theorem parent_created_before {path : Path} {attributes directory : BackupNodeAttributes}
    (inner : path ≠ Path.root) (named : path.name ≠ "") (above : snapshot.index.lookup path.parent = some directory)
    (isDirectory : directory.type = .directory) {before after : Creations}
    (order : createdDirectories snapshot restorePoint =
      before ++ (restorePoint.concat path, .directory attributes.permissions) :: after) :
    (restorePoint.concat path.parent, .directory directory.permissions) ∈ before := by
  rw [created_directories] at order
  obtain ⟨earlier, later, keys, rfl, rest⟩ := List.filterMap_eq_append_iff.mp order
  obtain ⟨skipped, key, further, rfl, none, here, rfl⟩ := List.filterMap_eq_cons_iff.mp rest
  obtain ⟨_, _, _, same⟩ := directory_at_some.mp here
  have isKey : path = key := (concat_injective restorePoint (congrArg Prod.fst same)).symm
  subst isKey
  have sorted := path_map_sorted snapshot.index
  have listed : path.parent ∈ pathMap snapshot.index := (mem_path_map _ _).mpr ⟨directory, above⟩
  have smaller := parent_string_lt inner named
  have created : directoryAt snapshot restorePoint path.parent =
      some (restorePoint.concat path.parent, .directory directory.permissions) :=
    directory_at_some.mpr ⟨directory, above, isDirectory, rfl⟩
  rw [keys, ← List.append_assoc] at sorted listed
  rw [List.mem_append, List.mem_append, List.mem_cons] at listed
  rcases listed with (first | skip) | same | last
  · exact List.mem_filterMap.mpr ⟨path.parent, first, created⟩
  · rw [none path.parent skip] at created
    cases created
  · rw [same] at smaller
    exact absurd smaller (lt_irrefl _)
  · have ordered := List.rel_of_pairwise_cons (List.pairwise_append.mp sorted).2.1 last
    exact absurd smaller (not_lt_of_ge ordered)

end Directories

section Nodes

variable {runtime : Runtime} {algorithm : HashAlgorithm} {volumes : VolumeContents}
  {snapshot : Snapshot} {previous : List Snapshot} {restorePoint : Path}

theorem task_creation_some (node : Nat) (creation : Path × CreatedNode) :
    taskCreation runtime algorithm volumes snapshot previous restorePoint node = some creation ↔
      ∃ path attributes, snapshot.index.nodes[node]? = some (path, attributes) ∧
        attributes.type = .file ∧
        (∃ found stream, findDataSnapshot snapshot previous node = .ok found ∧
          openData runtime algorithm volumes found = .ok stream) ∧
        (restorePoint.concat path, .file attributes.permissions) = creation := by
  cases entry : snapshot.index.nodes[node]? with
  | none =>
      have missing : ∀ attributes, snapshot.index.getNodeAttributes node ≠ .ok attributes := by
        intro attributes known
        obtain ⟨path, here⟩ := (NodeIndex.get_node_attributes_ok _ _ _).mp known
        rw [entry] at here
        cases here
      cases known : snapshot.index.getNodeAttributes node with
      | error fault => simp [taskCreation, known]
      | ok attributes => exact absurd known (missing attributes)
  | some described =>
      obtain ⟨path, attributes⟩ := described
      have nodeAttributes := (NodeIndex.get_node_attributes_ok _ _ _).mpr ⟨path, entry⟩
      have nodePath := (NodeIndex.get_node_path_ok _ _ _).mpr ⟨attributes, entry⟩
      cases type : attributes.type with
      | directory => simp [taskCreation, nodeAttributes, nodePath, type]
      | file =>
          cases search : findDataSnapshot snapshot previous node with
          | error fault =>
              simp [taskCreation, nodeAttributes, nodePath, type, search, Except.bind]
          | ok found =>
              cases opened : openData runtime algorithm volumes found with
              | error fault =>
                  simp [taskCreation, nodeAttributes, nodePath, type, search, Except.bind, opened]
              | ok stream =>
                  simp [taskCreation, nodeAttributes, nodePath, type, search, Except.bind, opened]
      | link =>
          cases run : restoreLink snapshot previous node (restorePoint.concat path) with
          | error fault => simp [taskCreation, nodeAttributes, nodePath, type, run]
          | ok output => exact absurd run (restore_link_error _ _ _)

end Nodes

section Completion

variable {runtime : Runtime} {algorithm : HashAlgorithm} {volumes : VolumeContents}
  {tasks : TaskOrder Nat} {snapshot : Snapshot} {previous : List Snapshot} {restorePoint : Path}

theorem completed_creation {node : Nat} {output : Option (Path × RestoredNode)}
    (completed : Finishes
      (restoreNode runtime algorithm volumes snapshot previous restorePoint node) (.ok output)) :
    taskCreation runtime algorithm volumes snapshot previous restorePoint node =
      output.map creationOf := by
  obtain ⟨fuel, run⟩ := completed
  unfold restoreNode at run
  unfold taskCreation
  cases known : snapshot.index.getNodeAttributes node with
  | error fault => simp [known] at run
  | ok attributes =>
      cases named : snapshot.index.getNodePath node with
      | error fault => simp [known, named] at run
      | ok path =>
          simp only [known, named] at run ⊢
          cases type : attributes.type with
          | directory =>
              simp only [type, Option.some.injEq, Except.ok.injEq] at run ⊢
              rw [← run]
              rfl
          | file =>
              simp only [type, Option.map_eq_some_iff] at run ⊢
              obtain ⟨outcome, reading, written⟩ := run
              obtain ⟨content, rfl, restored⟩ := bind_ok written
              unfold readNode at reading
              cases search : findDataSnapshot snapshot previous node with
              | error fault => simp [search] at reading
              | ok found =>
                  cases opened : openData runtime algorithm volumes found with
                  | error fault => simp [search, opened] at reading
                  | ok stream =>
                      unfold restoredFile at restored
                      by_cases sized : content.length = attributes.size
                      · rw [if_pos sized] at restored
                        cases restored
                        simp [Except.bind, opened, creationOf]
                      · rw [if_neg sized] at restored
                        cases restored
          | link =>
              simp only [type, Option.some.injEq] at run ⊢
              exact absurd run (restore_link_error _ _ _)

theorem completed_creations {tree : RestoredTree}
    (completed : Finishes
      (restore runtime algorithm volumes tasks snapshot previous restorePoint) (.ok tree)) :
    creations runtime algorithm volumes tasks snapshot previous restorePoint =
      tree.map creationOf := by
  obtain ⟨directories, created, made, performed, rfl⟩ := (restore_finishes tree).mp completed
  clear completed
  simp only [creations, createdDirectories, made, List.map_append, List.append_cancel_left_eq]
  generalize tasks.order (List.range snapshot.index.getNumberOfNodes) = order at performed
  induction performed with
  | nil => rfl
  | @cons _ output _ _ first _ induction =>
      rw [List.filterMap_cons, completed_creation first, induction]
      cases output with
      | none => simp
      | some node => simp

end Completion

section Order

variable {runtime : Runtime} {algorithm : HashAlgorithm} {volumes : VolumeContents}
  {tasks : TaskOrder Nat} {snapshot : Snapshot} {previous : List Snapshot} {restorePoint : Path}
  {grants : POSIXPermissions → Prop}

theorem creation_of_node {creation : Path × CreatedNode}
    (created : creation ∈
      creations runtime algorithm volumes tasks snapshot previous restorePoint) :
    ∃ node path attributes, snapshot.index.nodes[node]? = some (path, attributes) ∧
      Creates runtime algorithm volumes snapshot previous node attributes ∧
      creation.1 = restorePoint.concat path := by
  rcases List.mem_append.mp created with first | later
  · obtain ⟨path, attributes, found, isDirectory, same⟩ := (mem_created_directories _).mp first
    obtain ⟨node, _, entry⟩ := NodeIndex.get_node_index_of_lookup found
    exact ⟨node, path, attributes, entry, .inl isDirectory, congrArg Prod.fst same.symm⟩
  · obtain ⟨node, _, performed⟩ := List.mem_filterMap.mp later
    obtain ⟨path, attributes, entry, isFile, data, same⟩ := (task_creation_some _ _).mp performed
    exact ⟨node, path, attributes, entry, .inr ⟨isFile, data⟩, congrArg Prod.fst same.symm⟩

theorem node_created {node : Nat} {path : Path} {attributes : BackupNodeAttributes}
    (entry : snapshot.index.nodes[node]? = some (path, attributes))
    (creates : Creates runtime algorithm volumes snapshot previous node attributes) :
    ∃ kind, (restorePoint.concat path, kind) ∈
      creations runtime algorithm volumes tasks snapshot previous restorePoint := by
  rcases creates with isDirectory | file
  · exact ⟨_, List.mem_append_left _ ((mem_created_directories _).mpr
      ⟨path, attributes, NodeIndex.lookup_of_get entry, isDirectory, rfl⟩)⟩
  · have numbered : node < snapshot.index.getNumberOfNodes :=
      (List.getElem?_eq_some_iff.mp entry).1
    exact ⟨_, List.mem_append_right _ (List.mem_filterMap.mpr
      ⟨node, (mem_order tasks _ _).mpr (List.mem_range.mpr numbered),
        (task_creation_some _ _).mpr ⟨path, attributes, entry, file.1, file.2, rfl⟩⟩)⟩

theorem directory_created {path : Path} {directory : BackupNodeAttributes}
    (found : snapshot.index.lookup path = some directory) {permissions : POSIXPermissions}
    (created : (restorePoint.concat path, .directory permissions) ∈
      creations runtime algorithm volumes tasks snapshot previous restorePoint) :
    permissions = directory.permissions := by
  rcases List.mem_append.mp created with first | later
  · obtain ⟨other, attributes, known, _, same⟩ := (mem_created_directories _).mp first
    simp only [Prod.mk.injEq, CreatedNode.directory.injEq] at same
    rw [concat_injective restorePoint same.1, found] at known
    cases known
    exact same.2.symm
  · obtain ⟨node, _, performed⟩ := List.mem_filterMap.mp later
    obtain ⟨_, _, _, _, _, same⟩ := (task_creation_some _ _).mp performed
    cases congrArg Prod.snd same

/-- At every moment the directory of the next node stands. A directory waits for its
parent because of the order of the strings; the files wait for all directories. -/
theorem parent_stands {path : Path} {directory : BackupNodeAttributes} {kind : CreatedNode}
    (inner : path ≠ Path.root) (named : path.name ≠ "")
    (above : snapshot.index.lookup path.parent = some directory)
    (isDirectory : directory.type = .directory) {before after : Creations}
    (order : creations runtime algorithm volumes tasks snapshot previous restorePoint =
      before ++ (restorePoint.concat path, kind) :: after) :
    (restorePoint.concat path.parent, .directory directory.permissions) ∈ before := by
  have stands : (restorePoint.concat path.parent, .directory directory.permissions) ∈
      createdDirectories snapshot restorePoint :=
    (mem_created_directories _).mpr ⟨path.parent, directory, above, isDirectory, rfl⟩
  rcases List.append_eq_append_iff.mp order with ⟨rest, whole, _⟩ | ⟨rest, whole, later⟩
  · rw [whole]
    exact List.mem_append_left _ stands
  · cases rest with
    | nil =>
        rw [whole, List.append_nil] at stands
        exact stands
    | cons head rest =>
        rw [List.cons_append, List.cons.injEq] at later
        rw [← later.1] at whole
        have listed : (restorePoint.concat path, kind) ∈
            createdDirectories snapshot restorePoint := by
          rw [whole]
          exact List.mem_append_cons_self
        obtain ⟨other, attributes, _, _, same⟩ := (mem_created_directories _).mp listed
        have kindOf : CreatedNode.directory attributes.permissions = kind :=
          congrArg Prod.snd same
        rw [← kindOf] at whole
        exact parent_created_before inner named above isDirectory whole

/-- The order is workable as far as the recorded permissions are. -/
theorem parents_first_iff (rooted : Rooted (shownNodes snapshot.index))
    (named : ∀ entry ∈ snapshot.index.nodes, entry.1 ≠ Path.root → entry.1.name ≠ "") :
    ParentsFirst grants restorePoint
        (creations runtime algorithm volumes tasks snapshot previous restorePoint) ↔
      DirectoriesGrant grants runtime algorithm volumes snapshot previous := by
  have outside : ∀ path : Path, restorePoint.concat path = restorePoint → path = Path.root := by
    intro path same
    exact concat_injective restorePoint (same.trans (concat_root restorePoint).symm)
  constructor
  · intro first node path attributes entry inner creates directory above
    obtain ⟨kind, created⟩ := @node_created runtime algorithm volumes tasks snapshot previous
      restorePoint node path attributes entry creates
    obtain ⟨before, after, order⟩ := List.append_of_mem created
    obtain ⟨permissions, stands, granted⟩ := first before _ after order fun same =>
      inner (outside path same)
    have whole : (restorePoint.concat path.parent, CreatedNode.directory permissions) ∈
        creations runtime algorithm volumes tasks snapshot previous restorePoint := by
      rw [order, ← concat_parent inner]
      exact List.mem_append_left _ stands
    rwa [← directory_created above whole]
  · intro granted before creation after order elsewhere
    have created : creation ∈
        creations runtime algorithm volumes tasks snapshot previous restorePoint := by
      rw [order]
      exact List.mem_append_cons_self
    obtain ⟨node, path, attributes, entry, creates, place⟩ := creation_of_node created
    obtain ⟨place', kind⟩ := creation
    subst place
    have inner : path ≠ Path.root := by
      intro same
      rw [same] at elsewhere
      exact elsewhere (concat_root restorePoint)
    have member := List.mem_of_getElem? entry
    have shown : (path, attributes.type) ∈ shownNodes snapshot.index :=
      (mem_shown_nodes _).mpr ⟨attributes, NodeIndex.lookup_of_get entry, rfl⟩
    obtain ⟨directory, above, isDirectory⟩ :=
      (mem_shown_nodes _).mp (rooted.parents _ shown inner)
    refine ⟨directory.permissions, ?_, granted node path attributes entry inner creates _ above⟩
    rw [concat_parent inner]
    exact parent_stands inner (named _ member inner) above isDirectory order

end Order

section Backups

def ownerWrites (permissions : POSIXPermissions) : Prop :=
  permissions.owner.write = true

instance decidableOwnerWrites : DecidablePred ownerWrites := fun permissions =>
  inferInstanceAs (Decidable (permissions.owner.write = true))

/-- Restoring a new snapshot creates every node after its directory. Its owner can write
to the directory then if and only if the permissions recorded for the directories in
which nodes are created let their owners write. -/
theorem restore_order_workable_iff (runtime : Runtime) (fileSystem : SourceFileSystem)
    (directory : SourceDirectory) (chain next : Chain) (call : Call)
    (scanned : fileSystem.generateIndex directory = some call.source.index)
    (named : ∀ entry ∈ call.source.index.nodes, entry.1 ≠ Path.root → entry.1.name ≠ "")
    (taken : addSnapshot runtime chain call = some next) :
    ∃ entry ∈ next, entry.call = call ∧
      ∀ algorithm volumes tasks previous restorePoint,
        ParentsFirst (fun _ => True) restorePoint
            (creations runtime algorithm volumes tasks entry.snapshot previous restorePoint) ∧
          (ParentsFirst ownerWrites restorePoint
              (creations runtime algorithm volumes tasks entry.snapshot previous restorePoint) ↔
            DirectoriesGrant ownerWrites runtime algorithm volumes entry.snapshot previous) := by
  obtain ⟨entry, rfl, new, rfl⟩ := add_snapshot_some taken
  have shown := new_entry_shown new
  have rooted : Rooted (shownNodes entry.snapshot.index) :=
    rooted_perm shown (generate_index_rooted scanned)
  have entryNamed : ∀ node ∈ entry.snapshot.index.nodes, node.1 ≠ Path.root → node.1.name ≠ "" := by
    intro node member inner
    have found : entry.snapshot.index.lookup node.1 = some node.2 :=
      (NodeIndex.lookup_eq_some _ _ _).mpr member
    obtain ⟨attributes, sourced, _⟩ := new_entry_mirrors new found
    exact named _ ((NodeIndex.lookup_eq_some _ _ _).mp sourced) inner
  refine ⟨entry, (mem_insert_entry entry entry chain).mpr (.inl rfl), rfl, ?_⟩
  intro algorithm volumes tasks previous restorePoint
  refine ⟨(parents_first_iff rooted entryNamed).mpr ?_, parents_first_iff rooted entryNamed⟩
  intro _ _ _ _ _ _ _ _
  trivial

end Backups

section ReadOnlyDirectory

/-! A file in a directory, whose permissions vary. -/

def directoryWith (mode : Nat) : SourceNode := { movedDirectory with mode := mode }

def storedInside : SourceNode := { storedFile with path := movedDirectory.path.child "a" }

def directoryBackup (mode : Nat) : Call :=
  callOf "snapshot_1" [{ movedDirectory with path := Path.root }, directoryWith mode, storedInside]
    (writeSteps storedInside)

theorem moved_directory_type : (infoOf movedDirectory).type = .directory := rfl

def directoryTree (mode : Nat) : SourceDirectory where
  info := infoOf movedDirectory
  entries := .entry "d" (infoOf (directoryWith mode))
    (.entry "a" (infoOf storedInside) .nil .nil) .nil
  isDirectory := moved_directory_type
  distinct := ⟨List.not_mem_nil, ⟨List.not_mem_nil, trivial, trivial⟩, trivial⟩

def newestCreations (chain : Chain) : Creations :=
  match chain with
  | [] => []
  | entry :: older =>
      creations spellingRuntime .md5 (volumesOf chain) inSequence entry.snapshot
        (older.map Entry.snapshot) (Path.root.child "restored")

/-- The file "/restored/d/a" is created in a directory that its owner cannot write to. -/
theorem file_created_in_read_only_directory :
    ∃ chain next, filteringFileSystem.generateIndex (directoryTree 365) =
        some (directoryBackup 365).source.index ∧
      addSnapshot spellingRuntime chain (directoryBackup 365) = some next ∧
      ∃ entry older, next = entry :: older ∧
        ¬ParentsFirst ownerWrites (Path.root.child "restored")
          (creations spellingRuntime .md5 (volumesOf next) inSequence entry.snapshot
            (older.map Entry.snapshot) (Path.root.child "restored")) := by
  have outcome : ((backups spellingRuntime).run [] [directoryBackup 365]).map newestCreations =
      some [(Path.root.child "restored", .directory (posixPermissions 0 0 493)),
        ((Path.root.child "restored").child "d", .directory (posixPermissions 0 0 365)),
        (((Path.root.child "restored").child "d").child "a",
          .file (posixPermissions 0 0 420))] := by decide +kernel
  obtain ⟨next, run, created⟩ := Option.map_eq_some_iff.mp outcome
  obtain ⟨_, taken, rest⟩ := System.run_cons_some run
  cases rest
  refine ⟨[], next, by decide +kernel, taken, ?_⟩
  cases next with
  | nil => cases created
  | cons entry older =>
      refine ⟨entry, older, rfl, ?_⟩
      intro first
      obtain ⟨permissions, stands, granted⟩ := first
        [(Path.root.child "restored", .directory (posixPermissions 0 0 493)),
          ((Path.root.child "restored").child "d", .directory (posixPermissions 0 0 365))]
        (((Path.root.child "restored").child "d").child "a", .file (posixPermissions 0 0 420)) []
        created (by decide)
      rw [child_parent, List.mem_cons, List.mem_singleton] at stands
      rcases stands with above | directory
      · have paths : (Path.root.child "restored").child "d" = Path.root.child "restored" :=
          congrArg Prod.fst above
        exact absurd paths (by decide)
      · have recorded : permissions = posixPermissions 0 0 365 := by
          simpa using congrArg Prod.snd directory
        rw [recorded] at granted
        exact absurd granted (by decide)

theorem writable_directory_restored_in_order :
    ∃ chain next, filteringFileSystem.generateIndex (directoryTree 493) =
        some (directoryBackup 493).source.index ∧
      addSnapshot spellingRuntime chain (directoryBackup 493) = some next ∧
      ∃ entry ∈ next, entry.call = directoryBackup 493 ∧
        ∀ algorithm volumes tasks previous restorePoint,
          ParentsFirst ownerWrites restorePoint
            (creations spellingRuntime algorithm volumes tasks entry.snapshot previous
              restorePoint) := by
  have outcome : ((backups spellingRuntime).run [] [directoryBackup 493]).map
      (fun next => next.map fun entry =>
        entry.snapshot.index.nodes.map fun node => decide (ownerWrites node.2.permissions)) =
          some [[true, true, true]] := by decide +kernel
  obtain ⟨next, run, recorded⟩ := Option.map_eq_some_iff.mp outcome
  obtain ⟨_, taken, rest⟩ := System.run_cons_some run
  cases rest
  have scanned : filteringFileSystem.generateIndex (directoryTree 493) =
      some (directoryBackup 493).source.index := by decide +kernel
  have named : ∀ entry ∈ (directoryBackup 493).source.index.nodes,
      entry.1 ≠ Path.root → entry.1.name ≠ "" := by decide +kernel
  obtain ⟨entry, member, made, inOrder⟩ := restore_order_workable_iff spellingRuntime
    filteringFileSystem (directoryTree 493) [] next (directoryBackup 493) scanned named taken
  have writable : ∀ node ∈ entry.snapshot.index.nodes, ownerWrites node.2.permissions := by
    intro node listed
    have known := List.mem_map_of_mem (f := fun entry : Entry =>
      entry.snapshot.index.nodes.map fun node => decide (ownerWrites node.2.permissions)) member
    rw [recorded, List.mem_singleton] at known
    have granted := List.mem_map_of_mem (f := fun node : Path × BackupNodeAttributes =>
      decide (ownerWrites node.2.permissions)) listed
    rw [known] at granted
    simpa using granted
  refine ⟨[], next, scanned, taken, entry, member, made, ?_⟩
  intro algorithm volumes tasks previous restorePoint
  apply (inOrder algorithm volumes tasks previous restorePoint).2.mpr
  intro node path attributes _ _ _ directory above
  exact writable _ ((NodeIndex.lookup_eq_some _ _ _).mp above)

end ReadOnlyDirectory

end ACBackup.RestoreOrder
