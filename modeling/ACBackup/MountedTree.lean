import ACBackup.Library.Loop
import ACBackup.SnapshotMirror
import ACBackup.SourceScan

/-!
The tree that `VirtualSnapshotFilesystem` shows of a snapshot. Its directories are
searched for in the flat index; walking them from "/" shows the tree that the scan
found in the source.
-/

namespace ACBackup.MountedTree

open ACBackup.Library.FlatTree ACBackup.Library.Loop ACBackup.Library.Outcome
open ACBackup.Library.Transition
open ACBackup.Platform ACBackup.NodeAttributes ACBackup.Indexing ACBackup.SnapshotChain
open ACBackup.DifferenceResolver ACBackup.SnapshotCreation ACBackup.SnapshotManager
open ACBackup.SnapshotMirror ACBackup.SourceScan

set_option autoImplicit false

structure DirectoryEntry where
  name : String
  type : FileType
  deriving DecidableEq, Repr

def pushChild (index : BackupNodeIndex) (path : Path) (nodeIndex : Nat) (children : List Nat)
    (node : Nat) : Except Fault (List Nat) :=
  if node = nodeIndex then .ok children
  else do
    let nodePath ← index.getNodePath node
    .ok (if nodePath.parent = path then children ++ [node] else children)

def childNodes (index : BackupNodeIndex) (path : Path) (nodeIndex : Nat) :
    Except Fault (List Nat) :=
  (List.range index.getNumberOfNodes).foldlM (pushChild index path nodeIndex) []

/-- `MoveForward` of the enumerator, for one of the nodes. -/
def directoryEntry (index : BackupNodeIndex) (node : Nat) : Except Fault DirectoryEntry := do
  let attributes ← index.getNodeAttributes node
  let nodePath ← index.getNodePath node
  .ok { name := nodePath.name, type := attributes.type }

def enumerateChildren (snapshot : Snapshot) (path : Path) :
    Except Fault (Option (List DirectoryEntry)) :=
  if snapshot.index.hasNodeIndex path = false then .ok none
  else do
    let nodeIndex ← snapshot.index.getNodeIndex path
    let children ← childNodes snapshot.index path nodeIndex
    let entries ← children.mapM (directoryEntry snapshot.index)
    .ok (some entries)

structure Visited where
  path : Path
  entry : DirectoryEntry
  deriving DecidableEq, Repr

def visit (below : Path → Attempt Fault (List Visited)) (path : Path) (entry : DirectoryEntry) :
    Attempt Fault (List Visited) :=
  let visited : Visited := { path := path.child entry.name, entry := entry }
  if entry.type = .directory then
    (below visited.path).andThen fun others => some (.ok (visited :: others))
  else some (.ok [visited])

def walk (snapshot : Snapshot) : Nat → Path → Attempt Fault (List Visited)
  | 0, _ => none
  | fuel + 1, path =>
      match enumerateChildren snapshot path with
      | .error fault => some (.error fault)
      | .ok none => some (.error .nullPointer)
      | .ok (some entries) =>
          (gather (visit (walk snapshot fuel) path) entries).andThen
            fun visits => some (.ok visits.flatten)

section Enumeration

variable {index : BackupNodeIndex} {path : Path}

theorem push_children {nodeIndex : Nat} {attributes : BackupNodeAttributes}
    (entry : index.nodes[nodeIndex]? = some (path, attributes)) (count : Nat)
    (bound : count ≤ index.nodes.length) :
    ∃ children, (List.range count).foldlM (pushChild index path nodeIndex) [] = .ok children ∧
      List.Forall₂ (fun node child => index.nodes[node]? = some child) children
        (childrenIn pathTree Prod.fst (index.nodes.take count) path) := by
  induction count with
  | zero => exact ⟨[], rfl, .nil⟩
  | succ count induction =>
      obtain ⟨children, before, pushed⟩ := induction (by omega)
      obtain ⟨childPath, child, here⟩ :
          ∃ childPath child, index.nodes[count]? = some (childPath, child) :=
        ⟨_, _, List.getElem?_eq_getElem (by omega)⟩
      have nodePath : index.getNodePath count = .ok childPath :=
        (NodeIndex.get_node_path_ok _ _ _).mpr ⟨child, here⟩
      have taken : index.nodes.take (count + 1) =
          index.nodes.take count ++ [(childPath, child)] := by
        rw [List.take_add_one, here]
        rfl
      have itself : count = nodeIndex ↔ childPath = path := by
        constructor
        · intro same
          rw [same, entry] at here
          cases here
          rfl
        · intro same
          exact NodeIndex.node_number_unique here (same ▸ entry)
      have pass : (List.range (count + 1)).foldlM (pushChild index path nodeIndex) [] =
          pushChild index path nodeIndex children count := by
        rw [List.range_succ, List.foldlM_append, before]
        exact bind_pure (pushChild index path nodeIndex children count)
      rw [pass, taken, children_in_append]
      simp only [pushChild, nodePath, bind, Except.bind]
      by_cases skipped : count = nodeIndex
      · have none : childrenIn pathTree Prod.fst [(childPath, child)] path = [] := by
          simp [childrenIn, itself.mp skipped]
        rw [none, List.append_nil]
        exact ⟨children, if_pos skipped, pushed⟩
      · have other : childPath ≠ path := fun same => skipped (itself.mpr same)
        rw [if_neg skipped]
        by_cases below : childPath.parent = path
        · have one : childrenIn pathTree Prod.fst [(childPath, child)] path =
              [(childPath, child)] := by
            simp [childrenIn, other, pathTree, below]
          rw [one, if_pos below]
          exact ⟨_, rfl, List.rel_append pushed (.cons here .nil)⟩
        · have none : childrenIn pathTree Prod.fst [(childPath, child)] path = [] := by
            simp [childrenIn, pathTree, below]
          rw [none, List.append_nil, if_neg below]
          exact ⟨children, rfl, pushed⟩

def entryOf (node : Path × FileType) : DirectoryEntry where
  name := node.1.name
  type := node.2

/-- The nodes of a snapshot, as far as a tree shows them. -/
def shownNodes (index : BackupNodeIndex) : List (Path × FileType) :=
  typedPaths (fileSystemNodes index).nodes

theorem mem_shown_nodes (node : Path × FileType) :
    node ∈ shownNodes index ↔
      ∃ attributes, index.lookup node.1 = some attributes ∧ attributes.type = node.2 := by
  simp only [shownNodes, mem_typed_paths, fileSystemNodes, NodeIndex.lookup_map_attributes,
    Option.map_eq_some_iff]
  constructor
  · intro described
    obtain ⟨_, ⟨attributes, found, rfl⟩, type⟩ := described
    exact ⟨attributes, found, type⟩
  · intro described
    obtain ⟨attributes, found, type⟩ := described
    exact ⟨_, ⟨attributes, found, rfl⟩, type⟩

theorem children_in_shown :
    childrenIn pathTree Prod.fst (shownNodes index) path =
      (childrenIn pathTree Prod.fst index.nodes path).map fun child => (child.1, child.2.type) := by
  rw [shownNodes, typedPaths, fileSystemNodes, NodeIndex.mapAttributes, List.map_map,
    children_in_map]
  rfl

theorem enumerate_children_ok {snapshot : Snapshot} {attributes : BackupNodeAttributes}
    (found : snapshot.index.lookup path = some attributes) :
    enumerateChildren snapshot path =
      .ok (some ((childrenIn pathTree Prod.fst (shownNodes snapshot.index) path).map entryOf)) := by
  have known : snapshot.index.hasNodeIndex path = true :=
    (NodeIndex.has_node_index_iff _ _).mpr ⟨attributes, found⟩
  obtain ⟨nodeIndex, numbered, entry⟩ := NodeIndex.get_node_index_of_lookup found
  obtain ⟨children, looped, pushed⟩ := push_children entry _ (le_refl _)
  rw [List.take_length] at pushed
  have loop : childNodes snapshot.index path nodeIndex = .ok children := looped
  have entries : children.mapM (directoryEntry snapshot.index) =
      .ok ((childrenIn pathTree Prod.fst (shownNodes snapshot.index) path).map entryOf) := by
    rw [map_m_ok_iff, children_in_shown, List.map_map, List.forall₂_map_right_iff]
    apply List.Forall₂.imp _ pushed
    intro node child here
    have nodeAttributes : snapshot.index.getNodeAttributes node = .ok child.2 :=
      (NodeIndex.get_node_attributes_ok _ _ _).mpr ⟨child.1, here⟩
    have nodePath : snapshot.index.getNodePath node = .ok child.1 :=
      (NodeIndex.get_node_path_ok _ _ _).mpr ⟨child.2, here⟩
    rw [directoryEntry, nodeAttributes, nodePath]
    rfl
  rw [enumerateChildren, known, if_neg (by decide), numbered]
  simp only [bind, Except.bind, loop, entries]

end Enumeration

section Walks

variable {snapshot : Snapshot}

theorem walk_steady (path : Path) : Steady fun fuel => walk snapshot fuel path := by
  intro fuel
  induction fuel generalizing path with
  | zero =>
      intro more output _ run
      simp [walk] at run
  | succ fuel induction =>
      intro more output larger run
      obtain ⟨rest, rfl⟩ : ∃ rest, more = rest + 1 := ⟨more - 1, by omega⟩
      have bound : fuel ≤ rest := by omega
      simp only [walk] at run ⊢
      cases enumerated : enumerateChildren snapshot path with
      | error fault => simpa [enumerated] using run
      | ok listing =>
          simp only [enumerated] at run ⊢
          cases listing with
          | none => exact run
          | some entries =>
              apply and_then_mono _ (fun _ _ same => same) run
              intro outcome
              apply gather_mono
              intro entry visits first
              unfold visit at first ⊢
              by_cases directory : entry.type = .directory
              · rw [if_pos directory] at first ⊢
                exact and_then_mono (fun below => induction _ rest below bound)
                  (fun _ _ same => same) first
              · rw [if_neg directory] at first ⊢
                exact first

def visitedOf (node : Path × FileType) : Visited where
  path := node.1
  entry := entryOf node

theorem descend_no_directory (rooted : Rooted (shownNodes snapshot.index)) {node : Path × FileType}
    (shown : node ∈ shownNodes snapshot.index) (noDirectory : node.2 ≠ .directory) (fuel : Nat) :
    descend pathTree Prod.fst (shownNodes snapshot.index) fuel node.1 = [] := by
  cases fuel with
  | zero => rfl
  | succ fuel =>
      have childless : childrenIn pathTree Prod.fst (shownNodes snapshot.index) node.1 = [] := by
        rw [List.eq_nil_iff_forall_not_mem]
        intro child member
        obtain ⟨inside, inner, parent⟩ := (mem_children_in child node.1).mp member
        have directory := rooted.parents child inside inner
        have above : child.1.parent = node.1 := parent
        rw [above] at directory
        have same := List.inj_on_of_nodup_map (typed_paths_nodup (fileSystemNodes snapshot.index)) shown directory rfl
        exact noDirectory (congrArg Prod.snd same)
      rw [descend, childless, List.flatMap_nil]

/-- The walk descends the shown nodes: where it does not enter, there is nothing. -/
theorem walk_descends (rooted : Rooted (shownNodes snapshot.index)) (fuel : Nat)
    {node : Path × FileType} (shown : node ∈ shownNodes snapshot.index)
    (deep : ∀ other ∈ shownNodes snapshot.index,
      pathTree.level other.1 < pathTree.level node.1 + fuel) :
    walk snapshot fuel node.1 = some (.ok
      ((descend pathTree Prod.fst (shownNodes snapshot.index) fuel node.1).map visitedOf)) := by
  induction fuel generalizing node with
  | zero => exact absurd (deep node shown) (by omega)
  | succ fuel induction =>
      obtain ⟨attributes, found, _⟩ := (mem_shown_nodes node).mp shown
      have visits : List.Forall₂
          (fun entry visited =>
            visit (walk snapshot fuel) node.1 entry = some (.ok visited))
          ((childrenIn pathTree Prod.fst (shownNodes snapshot.index) node.1).map entryOf)
          ((childrenIn pathTree Prod.fst (shownNodes snapshot.index) node.1).map fun child =>
            (child :: descend pathTree Prod.fst (shownNodes snapshot.index) fuel child.1).map
              visitedOf) := by
        rw [List.forall₂_map_left_iff, List.forall₂_map_right_iff, List.forall₂_same]
        intro child member
        obtain ⟨inside, inner, parent⟩ := (mem_children_in child node.1).mp member
        have level := pathTree.level_parent child.1 inner
        rw [parent] at level
        have reached : node.1.child child.1.name = child.1 := by
          rw [← parent]
          exact parent_child inner
        simp only [visit, entryOf, reached]
        by_cases directory : child.2 = .directory
        · have below := induction inside (by
            intro other otherShown
            have bound := deep other otherShown
            omega)
          rw [if_pos directory, below]
          rfl
        · rw [if_neg directory, descend_no_directory rooted inside directory]
          rfl
      simp only [walk, enumerate_children_ok found, (gather_ok_iff _ _ _).mpr visits,
        Attempt.andThen]
      rw [descend, List.map_flatMap, List.flatMap_def]

end Walks

section Backups

variable {runtime : Runtime} {last : Option BackupNodeIndex} {entry : Entry}

/-- Whatever the routes of its nodes were, a new snapshot shows the nodes of its
source. -/
theorem new_entry_shown (new : NewEntry runtime last entry) :
    (shownNodes entry.index).Perm (typedPaths entry.call.source.index.nodes) := by
  have shownUnique : (shownNodes entry.index).Nodup :=
    List.Nodup.of_map _ (typed_paths_nodup (fileSystemNodes entry.index))
  have sourceUnique := List.Nodup.of_map _ (typed_paths_nodup entry.call.source.index)
  rw [List.perm_ext_iff_of_nodup shownUnique sourceUnique]
  intro node
  rw [mem_shown_nodes, mem_typed_paths]
  constructor
  · intro shown
    obtain ⟨loaded, found, type⟩ := shown
    obtain ⟨attributes, sourced, equals⟩ := new_entry_mirrors new found
    exact ⟨attributes, sourced, ((equals_iff _ _).mp equals).1.symm.trans type⟩
  · intro known
    obtain ⟨attributes, sourced, type⟩ := known
    obtain ⟨loaded, found⟩ := new_entry_lookup new sourced
    obtain ⟨other, otherSourced, equals⟩ := new_entry_mirrors new found
    rw [sourced] at otherSourced
    cases otherSourced
    exact ⟨loaded, found, ((equals_iff _ _).mp equals).1.trans type⟩

theorem rooted_perm {left right : List (Path × FileType)} (same : left.Perm right)
    (rooted : Rooted right) : Rooted left where
  root := same.mem_iff.mpr rooted.root
  parents entry member inner :=
    same.mem_iff.mpr (rooted.parents entry (same.mem_iff.mp member) inner)

theorem rooted_closed {nodes : List (Path × FileType)} (rooted : Rooted nodes) :
    Closed pathTree Prod.fst nodes := by
  intro entry member inner
  exact ⟨_, rooted.parents entry member inner, rfl⟩

/-- The walk of a rooted snapshot finishes with every node but the root. -/
theorem walk_rooted {snapshot : Snapshot} (rooted : Rooted (shownNodes snapshot.index)) :
    ∃ visited, Finishes (fun fuel => walk snapshot fuel Path.root) (.ok visited) ∧
      visited.Perm (((shownNodes snapshot.index).filter fun node => node.1 ≠ Path.root).map
        visitedOf) := by
  let levels := (shownNodes snapshot.index).map fun node => pathTree.level node.1
  have bound : ∀ node ∈ shownNodes snapshot.index, pathTree.level node.1 ≤ levels.sum := by
    intro node member
    exact List.le_sum_of_mem (List.mem_map_of_mem member)
  have finished := walk_descends rooted (levels.sum + 1) rooted.root (by
    intro node member
    have low := bound node member
    omega)
  refine ⟨_, ⟨levels.sum + 1, finished⟩, ?_⟩
  apply List.Perm.map
  apply descend_root (typed_paths_nodup (fileSystemNodes snapshot.index)) (rooted_closed rooted)
  intro node member
  have low := bound node member
  omega

theorem root_and_others {nodes : List (Path × FileType)} (rooted : Rooted nodes)
    (unique : (nodes.map Prod.fst).Nodup) :
    (Path.root :: (nodes.filter fun node => node.1 ≠ Path.root).map Prod.fst).Perm
      (nodes.map Prod.fst) := by
  have root : Path.root ∈ nodes.map Prod.fst := List.mem_map_of_mem rooted.root
  have others : (nodes.filter fun node => node.1 ≠ Path.root).map Prod.fst =
      (nodes.map Prod.fst).erase Path.root := by
    rw [List.Nodup.erase_eq_filter unique, List.filter_map]
    congr 2
    funext node
    simp [bne, beq_eq_decide]
  rw [others]
  exact (List.perm_cons_erase root).symm

def visitedSource (entry : IndexedEntry) : Visited where
  path := entry.path
  entry := { name := entry.name, type := entry.info.type }

theorem source_others {fileSystem : SourceFileSystem} {directory : SourceDirectory}
    {index : FileSystemNodeIndex} (scanned : fileSystem.generateIndex directory = some index) :
    ((typedPaths index.nodes).filter fun node => node.1 ≠ Path.root).map visitedOf =
      (indexedEntries fileSystem Path.root directory.entries).map visitedSource := by
  have inner : ∀ node ∈ typedPaths
      ((indexedEntries fileSystem Path.root directory.entries).map IndexedEntry.node),
      decide (node.1 ≠ Path.root) = true := by
    intro node member
    rw [typedPaths, List.map_map] at member
    obtain ⟨entry, listed, rfl⟩ := List.mem_map.mp member
    exact decide_eq_true (indexed_entry_name listed).1
  rw [generate_index_nodes scanned, typedPaths, List.map_cons, List.filter_cons_of_neg (by simp)]
  rw [typedPaths] at inner
  rw [List.filter_eq_self.mpr inner, List.map_map, List.map_map]
  apply List.map_congr_left
  intro entry listed
  have name := (indexed_entry_name listed).2
  simp only [Function.comp_apply, visitedOf, entryOf, visitedSource, IndexedEntry.node, name,
    FileSystemNodeAttributes.ofFileInfo]

/-- Walking a new snapshot from "/" finishes, and finds the tree that was scanned:
every node but the root once, with the name and the type that it has in the
source. -/
theorem mounted_tree_mirrors_source (runtime : Runtime) (fileSystem : SourceFileSystem)
    (directory : SourceDirectory) (chain next : Chain) (call : Call)
    (scanned : fileSystem.generateIndex directory = some call.source.index)
    (taken : addSnapshot runtime chain call = some next) :
    ∃ entry ∈ next, entry.call = call ∧ ∃ visited,
      (∀ output, Finishes (fun fuel => walk entry.snapshot fuel Path.root) output ↔
        output = .ok visited) ∧
      (Path.root :: visited.map Visited.path).Perm (entry.index.nodes.map Prod.fst) ∧
      visited.Perm
        ((indexedEntries fileSystem Path.root directory.entries).map visitedSource) := by
  obtain ⟨entry, rfl, new, rfl⟩ := add_snapshot_some taken
  have shown := new_entry_shown new
  have rooted : Rooted (shownNodes entry.snapshot.index) :=
    rooted_perm shown (generate_index_rooted scanned)
  have unique := typed_paths_nodup (fileSystemNodes entry.index)
  obtain ⟨visited, finished, found⟩ := walk_rooted rooted
  refine ⟨entry, (mem_insert_entry entry entry chain).mpr (.inl rfl), rfl, visited,
    finishes_iff (walk_steady Path.root) finished, ?_, ?_⟩
  · have paths := found.map Visited.path
    rw [List.map_map] at paths
    have others := root_and_others rooted unique
    have whole : (shownNodes entry.index).map Prod.fst = entry.index.nodes.map Prod.fst := by
      rw [shownNodes, typedPaths, fileSystemNodes, NodeIndex.mapAttributes, List.map_map,
        List.map_map]
      rfl
    rw [← whole]
    exact (paths.cons Path.root).trans others
  · rw [← source_others scanned]
    exact found.trans ((shown.filter _).map visitedOf)

end Backups

section MovedIntoDirectory

/-! A file is moved into a new directory, where a filter leaves out another one. -/

def movedDirectory : SourceNode where
  path := Path.root.child "d"
  type := .directory
  content := []
  mode := 493
  second := 1

def movedInside : SourceNode := { movedFile with path := movedDirectory.path.child "b" }

def treeBackup : Call :=
  callOf "snapshot_2" [{ movedDirectory with path := Path.root }, movedDirectory, movedInside] []

def infoOf (node : SourceNode) : FileInfo where
  type := node.type
  size := node.content.length
  lastModifiedTime := node.attributes.lastModifiedTime
  permissions := node.attributes.permissions

def filteredTree : SourceDirectory where
  info := infoOf movedDirectory
  entries := .entry "d" (infoOf movedDirectory)
    (.entry "x" (infoOf movedFile) .nil (.entry "b" (infoOf movedFile) .nil .nil)) .nil
  isDirectory := rfl
  distinct := by decide

def filteringFileSystem : SourceFileSystem where
  basePath := Path.root.child "source"
  fileFilters := [fun path => path.name = "x"]
  readLinkTarget path := { isRelative := false, path := path }
  isParentOf _ _ := true

theorem moved_into_directory_mounted :
    ∃ chain next, addSnapshot spellingRuntime [] firstBackup = some chain ∧
      addSnapshot spellingRuntime chain treeBackup = some next ∧
      ∃ entry ∈ next, entry.call = treeBackup ∧ ∃ visited,
        Finishes (fun fuel => walk entry.snapshot fuel Path.root) (.ok visited) ∧
        visited.Perm
          [{ path := movedDirectory.path, entry := { name := "d", type := .directory } },
            { path := movedInside.path, entry := { name := "b", type := .file } }] := by
  have complete : ((backups spellingRuntime).run [] [firstBackup, treeBackup]).isSome = true := by
    decide +kernel
  obtain ⟨final, run⟩ := Option.isSome_iff_exists.mp complete
  obtain ⟨chain, first, later⟩ := System.run_cons_some run
  obtain ⟨next, second, _⟩ := System.run_cons_some later
  have scanned : filteringFileSystem.generateIndex filteredTree = some treeBackup.source.index := by
    decide +kernel
  obtain ⟨entry, member, made, visited, finished, _, found⟩ :=
    mounted_tree_mirrors_source spellingRuntime filteringFileSystem filteredTree chain next
      treeBackup scanned second
  have entries : (indexedEntries filteringFileSystem Path.root filteredTree.entries).map
      visitedSource =
        [{ path := movedDirectory.path, entry := { name := "d", type := .directory } },
          { path := movedInside.path, entry := { name := "b", type := .file } }] := by
    decide +kernel
  exact ⟨chain, next, first, second, entry, member, made, visited, (finished _).mpr rfl,
    entries ▸ found⟩

end MovedIntoDirectory

end ACBackup.MountedTree
