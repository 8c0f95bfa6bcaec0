import ACBackup.Library.LazyTree
import ACBackup.MountedTree
import ACBackup.RevisionHistory

/-!
The tree of the viewer. A node is made when the node above it is first asked for its
children, and stays where it is; the tree view keeps pointers to the nodes that it was
given. What it is shown of the newest snapshot is the source, and below every file the
revisions of it.
-/

namespace ACBackup.RevisionsTree

open ACBackup.Library.FlatTree ACBackup.Library.LazyTree ACBackup.Library.Loop
open ACBackup.Library.Outcome ACBackup.Library.Transition
open ACBackup.Platform ACBackup.NodeAttributes ACBackup.Indexing ACBackup.SnapshotChain
open ACBackup.DifferenceResolver ACBackup.SourceScan ACBackup.MountedTree ACBackup.ReadPaths
open ACBackup.RevisionHistory

set_option autoImplicit false

inductive TreeNode where
  | directory (nodeIndex : Nat) (path : Path)
  | dataFile (nodeIndex : Nat) (path : Path)
  | fileRevision (revision : FileRevisionNode)
  deriving DecidableEq

def newDirectoryTreeNode (snapshot : Snapshot) (path : Path) : Except Fault TreeNode :=
  (snapshot.index.getNodeIndex path).map fun nodeIndex => .directory nodeIndex path

/-- `DataFileTreeNode`, also for links. -/
def newDataFileTreeNode (snapshot : Snapshot) (path : Path) : Except Fault TreeNode :=
  (snapshot.index.getNodeIndex path).map fun nodeIndex => .dataFile nodeIndex path

def TreeNode.getName : TreeNode → String
  | .directory _ path => path.name
  | .dataFile _ path => path.name
  | .fileRevision revision => "Revision from snapshot: " ++ revision.snapshot.name

/-- `DownloadTo`: the name and the content of the file of a download that completes.
Directories cannot be downloaded; what is left of a file that raises is not followed. -/
def TreeNode.downloadTo (runtime : Runtime) (algorithm : HashAlgorithm)
    (volumes : VolumeContents) (names : PathNames) (snapshot : Snapshot) (node : TreeNode)
    (fuel : Nat) : Attempt Fault (String × Bytes) :=
  match node with
  | .directory _ _ => some (.error .notImplemented)
  | .dataFile nodeIndex path =>
      (StreamSource.read runtime algorithm volumes
        { snapshot := snapshot, nodeIndex := nodeIndex } fuel).andThen fun content =>
          some (.ok (path.name, content))
  | .fileRevision revision => revision.downloadTo runtime algorithm volumes names fuel

def loadChild (snapshot : Snapshot) (path : Path) (nodeIndex : Nat) (children : List TreeNode)
    (node : Nat) : Except Fault (List TreeNode) :=
  if node = nodeIndex then .ok children
  else do
    let nodePath ← snapshot.index.getNodePath node
    if nodePath.parent = path then do
      let attributes ← snapshot.index.getNodeAttributes node
      let child ←
        if attributes.type = .directory then newDirectoryTreeNode snapshot nodePath
        else newDataFileTreeNode snapshot nodePath
      .ok (children ++ [child])
    else .ok children

def loadChildren (snapshot : Snapshot) (nodeIndex : Nat) (path : Path) :
    Except Fault (List TreeNode) :=
  (List.range snapshot.index.getNumberOfNodes).foldlM (loadChild snapshot path nodeIndex) []

/-- The nodes that a node makes. Every pass of `LoadRevisions` leaves a snapshot
behind, so that there are not more of them than snapshots. -/
def TreeNode.load (snapshots : List Snapshot) : TreeNode → Attempt Fault (List TreeNode)
  | .directory nodeIndex path =>
      match snapshots with
      | [] => some (.error .nullPointer)
      | snapshot :: _ => some (loadChildren snapshot nodeIndex path)
  | .dataFile _ path =>
      (loadRevisions snapshots path (snapshots.length + 1)).andThen fun revisions =>
        some (.ok (revisions.map .fileRevision))
  | .fileRevision _ => some (.ok [])

/-- A revision comes with its `emptyChildren`, the others with nothing loaded. -/
def TreeNode.cell (node : TreeNode) : Cell TreeNode where
  label := node
  children :=
    match node with
    | .fileRevision _ => some []
    | _ => none

/-- `GetChildren`: they are loaded once. -/
def getChildren (snapshots : List Snapshot) (heap : Heap TreeNode) (address : Nat) :
    Attempt Fault (List Nat × Heap TreeNode) :=
  match heap[address]? with
  | none => some (.error .nullPointer)
  | some node =>
      match node.children with
      | some children => some (.ok (children, heap))
      | none =>
          (node.label.load snapshots).andThen fun nodes =>
            some (.ok (List.range' heap.length nodes.length,
              attach heap address (nodes.map TreeNode.cell)))

/-- What the tree view has of a node: `ControllerIndex()`, or the index that
`CreateIndex` made with the pointer to the node. -/
inductive ControllerIndex where
  | unset
  | created (row column : Nat) (node : Nat)
  deriving DecidableEq

/-- `ExtractNode`, with the root at the first address. -/
def extractNode : ControllerIndex → Nat
  | .unset => 0
  | .created _ _ node => node

structure Session where
  heap : Heap TreeNode
  issued : List ControllerIndex
  deriving DecidableEq

/-- `RevisionsTree`, whose root is the "/" of the newest snapshot. -/
def revisionsTree (snapshots : List Snapshot) : Except Fault Session :=
  match snapshots with
  | [] => .error .outOfRange
  | snapshot :: _ =>
      (newDirectoryTreeNode snapshot Path.root).map fun root =>
        { heap := [root.cell], issued := [] }

def getNumberOfChildren (snapshots : List Snapshot) (session : Session)
    (parent : ControllerIndex) : Attempt Fault (Nat × Session) :=
  (getChildren snapshots session.heap (extractNode parent)).andThen fun asked =>
    some (.ok (asked.1.length, { session with heap := asked.2 }))

def getChildIndex (snapshots : List Snapshot) (session : Session) (row column : Nat)
    (parent : ControllerIndex) : Attempt Fault (ControllerIndex × Session) :=
  (getChildren snapshots session.heap (extractNode parent)).andThen fun asked =>
    match asked.1[row]? with
    | none => some (.error .outOfRange)
    | some child =>
        let index := ControllerIndex.created row column child
        some (.ok (index, { heap := asked.2, issued := index :: session.issued }))

def Session.nodeOf (session : Session) (index : ControllerIndex) : Option TreeNode :=
  (session.heap[extractNode index]?).map Cell.label

def getText (session : Session) (index : ControllerIndex) : Except Fault String :=
  match session.nodeOf index with
  | none => .error .nullPointer
  | some node => .ok node.getName

inductive Request where
  | numberOfChildren (parent : ControllerIndex)
  | childIndex (row column : Nat) (parent : ControllerIndex)
  deriving DecidableEq

def Request.parent : Request → ControllerIndex
  | .numberOfChildren parent => parent
  | .childIndex _ _ parent => parent

/-- The session after a request that was answered; nothing catches a fault. -/
def Request.perform (snapshots : List Snapshot) (session : Session) : Request → Option Session
  | .numberOfChildren parent =>
      match getNumberOfChildren snapshots session parent with
      | some (.ok asked) => some asked.2
      | _ => none
  | .childIndex row column parent =>
      match getChildIndex snapshots session row column parent with
      | some (.ok asked) => some asked.2
      | _ => none

def viewer (snapshots : List Snapshot) (start : Session) : System Session Request where
  initial := start
  step := fun session request => request.perform snapshots session

def Known (session : Session) (index : ControllerIndex) : Prop :=
  index = .unset ∨ index ∈ session.issued

/-- The tree view asks about indexes that it has. -/
def Asked (session : Session) (request : Request) : Prop := Known session request.parent

instance (session : Session) (index : ControllerIndex) : Decidable (Known session index) :=
  inferInstanceAs (Decidable (_ ∨ _))

instance (session : Session) (request : Request) : Decidable (Asked session request) :=
  inferInstanceAs (Decidable (Known _ _))

section Loading

variable {snapshot : Snapshot} {path : Path} {nodeIndex : Nat}

def treeNodeOf (number : Nat) (entry : Path × BackupNodeAttributes) : TreeNode :=
  if entry.2.type = .directory then .directory number entry.1 else .dataFile number entry.1

def Made (snapshot : Snapshot) (number : Nat) (node : TreeNode) : Prop :=
  ∃ entry, snapshot.index.nodes[number]? = some entry ∧ node = treeNodeOf number entry

theorem load_child_along (number : Nat) (children next : List Nat) (nodes : List TreeNode)
    (made : List.Forall₂ (Made snapshot) children nodes)
    (pushed : pushChild snapshot.index path nodeIndex children number = .ok next) :
    ∃ further, loadChild snapshot path nodeIndex nodes number = .ok further ∧
      List.Forall₂ (Made snapshot) next further := by
  by_cases itself : number = nodeIndex
  · rw [pushChild, if_pos itself, Except.ok.injEq] at pushed
    subst pushed
    exact ⟨nodes, if_pos itself, made⟩
  · rw [pushChild, if_neg itself] at pushed
    obtain ⟨nodePath, found, later⟩ := bind_ok pushed
    cases later
    obtain ⟨attributes, entry⟩ := (NodeIndex.get_node_path_ok _ _ _).mp found
    by_cases below : nodePath.parent = path
    · rw [if_pos below]
      have nodeAttributes : snapshot.index.getNodeAttributes number = .ok attributes :=
        (NodeIndex.get_node_attributes_ok _ _ _).mpr ⟨nodePath, entry⟩
      have numbered : snapshot.index.getNodeIndex nodePath = .ok number :=
        (NodeIndex.get_node_index_ok _ _ _).mpr ⟨attributes, entry⟩
      refine ⟨nodes ++ [treeNodeOf number (nodePath, attributes)], ?_, ?_⟩
      · by_cases directory : attributes.type = .directory
        · simp [loadChild, itself, found, below, nodeAttributes, directory,
            newDirectoryTreeNode, numbered, treeNodeOf, bind, Except.bind, Except.map]
        · simp [loadChild, itself, found, below, nodeAttributes, directory,
            newDataFileTreeNode, numbered, treeNodeOf, bind, Except.bind, Except.map]
      · exact List.rel_append made (.cons ⟨_, entry, rfl⟩ .nil)
    · rw [if_neg below]
      exact ⟨nodes, by simp [loadChild, itself, found, below, bind, Except.bind], made⟩

def TreeNode.shown : TreeNode → Option (Path × Bool)
  | .directory _ path => some (path, true)
  | .dataFile _ path => some (path, false)
  | .fileRevision _ => none

def shownEntry (entry : Path × FileType) : Option (Path × Bool) :=
  some (entry.1, decide (entry.2 = .directory))

theorem tree_node_shown (number : Nat) (entry : Path × BackupNodeAttributes) :
    (treeNodeOf number entry).shown = shownEntry (entry.1, entry.2.type) := by
  by_cases directory : entry.2.type = .directory
  · simp [treeNodeOf, directory, TreeNode.shown, shownEntry]
  · simp [treeNodeOf, directory, TreeNode.shown, shownEntry]

theorem load_children_ok {attributes : BackupNodeAttributes}
    (entry : snapshot.index.nodes[nodeIndex]? = some (path, attributes)) :
    ∃ nodes, loadChildren snapshot nodeIndex path = .ok nodes ∧
      (∀ node ∈ nodes, ∃ number, Made snapshot number node) ∧
      nodes.map TreeNode.shown =
        (childrenIn pathTree Prod.fst (shownNodes snapshot.index) path).map shownEntry := by
  obtain ⟨children, looped, pushed⟩ := push_children entry _ (le_refl _)
  rw [List.take_length] at pushed
  have along : ∀ number children nodes next, List.Forall₂ (Made snapshot) children nodes →
      pushChild snapshot.index path nodeIndex children number = .ok next →
        ∃ further, loadChild snapshot path nodeIndex nodes number = .ok further ∧
          List.Forall₂ (Made snapshot) next further := by
    intro number children nodes next made step
    exact load_child_along number children next nodes made step
  obtain ⟨nodes, loaded, made⟩ := fold_m_related _ along .nil looped
  refine ⟨nodes, loaded, ?_, ?_⟩
  · intro node inside
    obtain ⟨number, _, here⟩ := forall_two_mem made.flip inside
    exact ⟨number, here⟩
  · rw [children_in_shown, List.map_map]
    apply forall_two_map_eq made pushed
    intro number node child here there
    obtain ⟨entry, listed, rfl⟩ := here
    rw [there, Option.some.injEq] at listed
    rw [← listed]
    exact tree_node_shown number child

end Loading

section Revisions

variable {snapshots : List Snapshot} {path : Path}

/-- Each pass but the last leaves a snapshot behind. -/
theorem load_revisions_pass_shorter (fuel : Nat) (state : RevisionState) :
    ∃ outcome, loadRevisionsPass fuel state = some outcome ∧
      ∀ next, outcome = .ok (.again next) → next.1.length < state.1.length := by
  obtain ⟨snapshots, path, revisions⟩ := state
  cases snapshots with
  | nil => exact ⟨_, rfl, fun next same => by cases same⟩
  | cons current previous =>
      by_cases known : current.index.hasNodeIndex path = true
      · cases number : current.index.getNodeIndex path with
        | error fault =>
            refine ⟨.error fault, ?_, fun next same => by cases same⟩
            simp only [loadRevisionsPass, known, if_true, number]
        | ok nodeIndex =>
            cases search : findDataSnapshot current previous nodeIndex with
            | error fault =>
                refine ⟨.error fault, ?_, fun next same => by cases same⟩
                simp only [loadRevisionsPass, known, if_true, number, search]
            | ok found =>
                refine ⟨.ok (.again ((current :: previous).drop (found.distance + 1), found.path,
                  revisions ++ [{ nodeIndex := nodeIndex, snapshot := found.snapshot }])),
                  ?_, ?_⟩
                · simp only [loadRevisionsPass, known, if_true, number, search]
                intro next same
                cases same
                simp only [List.length_drop, List.length_cons]
                omega
      · refine ⟨.ok (.done revisions), ?_, fun next same => by cases same⟩
        simp only [loadRevisionsPass, known, Bool.false_eq_true, if_false]

theorem load_revisions_bounded (fuel : Nat) (state : RevisionState)
    (enough : state.1.length < fuel) :
    ∃ outcome, loop loadRevisionsPass fuel state = some outcome := by
  induction fuel generalizing state with
  | zero => omega
  | succ fuel induction =>
      obtain ⟨outcome, pass, shorter⟩ := load_revisions_pass_shorter fuel state
      rw [loop, pass]
      rcases outcome with fault | next | result
      · exact ⟨_, rfl⟩
      · have bound := shorter next rfl
        exact induction next (by omega)
      · exact ⟨_, rfl⟩

theorem load_revisions_visits {visits : List Visit} (walk : Visits snapshots path visits) :
    loadRevisions snapshots path (snapshots.length + 1) =
      some (.ok (visits.map Visit.revision)) := by
  obtain ⟨outcome, finished⟩ := load_revisions_bounded (snapshots.length + 1)
    (snapshots, path, []) (Nat.lt_succ_self _)
  have same := (load_revisions_finishes walk [] outcome).mp ⟨_, finished⟩
  rw [loadRevisions, finished, same, List.nil_append]

end Revisions

def Resolvable (snapshots : List Snapshot) : Prop := ∀ path, ∃ visits, Visits snapshots path visits

def Valid (snapshot : Snapshot) (previous : List Snapshot) : TreeNode → Prop
  | .directory nodeIndex path => ∃ attributes,
      snapshot.index.nodes[nodeIndex]? = some (path, attributes) ∧ attributes.type = .directory
  | .dataFile nodeIndex path => ∃ attributes,
      snapshot.index.nodes[nodeIndex]? = some (path, attributes) ∧ attributes.type ≠ .directory
  | .fileRevision revision => ∃ path visits, Visits (snapshot :: previous) path visits ∧
      ∃ visit ∈ visits, visit.revision = revision

/-- What a node shows below it: a directory its entries, a file its revisions. -/
inductive Unfolds (snapshots : List Snapshot) (typed : List (Path × FileType)) :
    TreeNode → List TreeNode → Prop
  | directory (nodeIndex : Nat) (path : Path) (nodes : List TreeNode)
      (listed : (path, .directory) ∈ typed)
      (children : (nodes.map TreeNode.shown).Perm
        ((childrenIn pathTree Prod.fst typed path).map shownEntry)) :
      Unfolds snapshots typed (.directory nodeIndex path) nodes
  | dataFile (nodeIndex : Nat) (path : Path) (type : FileType) (visits : List Visit)
      (listed : (path, type) ∈ typed) (isContent : type ≠ .directory)
      (walk : Visits snapshots path visits) :
      Unfolds snapshots typed (.dataFile nodeIndex path)
        (visits.map fun visit => .fileRevision visit.revision)
  | fileRevision (revision : FileRevisionNode) :
      Unfolds snapshots typed (.fileRevision revision) []

section Nodes

variable {snapshot : Snapshot} {previous : List Snapshot}

theorem made_valid {number : Nat} {node : TreeNode} (made : Made snapshot number node) :
    Valid snapshot previous node := by
  obtain ⟨entry, listed, rfl⟩ := made
  unfold treeNodeOf
  split
  · next directory => exact ⟨entry.2, listed, directory⟩
  · next content => exact ⟨entry.2, listed, content⟩

theorem entry_shown {number : Nat} {path : Path} {attributes : BackupNodeAttributes}
    (entry : snapshot.index.nodes[number]? = some (path, attributes)) :
    (path, attributes.type) ∈ shownNodes snapshot.index :=
  (mem_shown_nodes (path, attributes.type)).mpr ⟨attributes, NodeIndex.lookup_of_get entry, rfl⟩

/-- Loading a node of the tree succeeds, with nodes of the tree. -/
theorem load_valid (resolvable : Resolvable (snapshot :: previous)) {node : TreeNode}
    (valid : Valid snapshot previous node) :
    ∃ nodes, node.load (snapshot :: previous) = some (.ok nodes) ∧
      (∀ child ∈ nodes, Valid snapshot previous child) ∧
      Unfolds (snapshot :: previous) (shownNodes snapshot.index) node nodes := by
  cases node with
  | directory nodeIndex path =>
      obtain ⟨attributes, entry, directory⟩ := valid
      obtain ⟨nodes, loaded, made, shown⟩ := load_children_ok entry
      refine ⟨nodes, congrArg some loaded, ?_, ?_⟩
      · intro child inside
        obtain ⟨number, childMade⟩ := made child inside
        exact made_valid childMade
      · exact .directory nodeIndex path nodes (directory ▸ entry_shown entry)
          (List.Perm.of_eq shown)
  | dataFile nodeIndex path =>
      obtain ⟨attributes, entry, content⟩ := valid
      obtain ⟨visits, walk⟩ := resolvable path
      refine ⟨visits.map fun visit => .fileRevision visit.revision, ?_, ?_, ?_⟩
      · rw [TreeNode.load, load_revisions_visits walk, Attempt.andThen, List.map_map]
        rfl
      · intro child inside
        obtain ⟨visit, visited, rfl⟩ := List.mem_map.mp inside
        exact ⟨path, visits, walk, visit, visited, rfl⟩
      · exact .dataFile nodeIndex path attributes.type visits (entry_shown entry) content walk
  | fileRevision revision =>
      exact ⟨[], rfl, fun child inside => (List.not_mem_nil inside).elim, .fileRevision revision⟩

def TreeNode.loaded (snapshots : List Snapshot) (node : TreeNode) : Option (List TreeNode) :=
  match node.load snapshots with
  | some (.ok nodes) => some nodes
  | _ => none

def TreeNode.shownPath (node : TreeNode) : Option Path := node.shown.map Prod.fst

theorem unfolds_paths {snapshots : List Snapshot} {typed : List (Path × FileType)}
    {node : TreeNode} {nodes : List TreeNode} (unfolds : Unfolds snapshots typed node nodes) :
    (∃ nodeIndex path, node = .directory nodeIndex path ∧
      (nodes.map TreeNode.shownPath).Perm
        ((childrenIn pathTree Prod.fst typed path).map fun child => some child.1)) ∨
    ∀ child ∈ nodes, child.shownPath = none := by
  cases unfolds with
  | directory nodeIndex path nodes listed children =>
      refine .inl ⟨nodeIndex, path, rfl, ?_⟩
      have paths := children.map fun shown => shown.map Prod.fst
      rw [List.map_map, List.map_map] at paths
      exact paths
  | dataFile nodeIndex path type visits listed isContent walk =>
      apply Or.inr
      intro child inside
      obtain ⟨visit, _, rfl⟩ := List.mem_map.mp inside
      rfl
  | fileRevision revision => exact .inr fun child inside => (List.not_mem_nil inside).elim

/-- A path is shown by one node of the tree, below the node of its parent. -/
theorem tree_keyed (resolvable : Resolvable (snapshot :: previous)) {nodeIndex : Nat}
    (valid : Valid snapshot previous (.directory nodeIndex Path.root)) :
    Keyed (TreeNode.loaded (snapshot :: previous)) (.directory nodeIndex Path.root)
      (Valid snapshot previous) TreeNode.shownPath Path.parent := by
  have spec : ∀ node nodes, Valid snapshot previous node →
      node.loaded (snapshot :: previous) = some nodes →
        (∀ child ∈ nodes, Valid snapshot previous child) ∧
        Unfolds (snapshot :: previous) (shownNodes snapshot.index) node nodes := by
    intro node nodes nodeValid loads
    obtain ⟨others, loaded, children, unfolds⟩ := load_valid resolvable nodeValid
    rw [TreeNode.loaded, loaded, Option.some.injEq] at loads
    subst loads
    exact ⟨children, unfolds⟩
  constructor
  case root_valid => exact valid
  case closed => exact fun node nodes nodeValid loads => (spec node nodes nodeValid loads).1
  case inner =>
    intro node nodes nodeValid loads child inside path shown
    rcases unfolds_paths (spec node nodes nodeValid loads).2 with
      ⟨number, upper, rfl, paths⟩ | revisions
    · have listed : some path ∈ nodes.map TreeNode.shownPath :=
        List.mem_map.mpr ⟨child, inside, shown⟩
      obtain ⟨entry, member, same⟩ := List.mem_map.mp (paths.mem_iff.mp listed)
      rw [Option.some.injEq] at same
      subst same
      obtain ⟨_, inner, parent⟩ := (mem_children_in entry upper).mp member
      refine ⟨?_, congrArg some parent.symm⟩
      intro root
      exact inner (Option.some.inj root).symm
    · rw [revisions child inside] at shown
      cases shown
  case distinct =>
    intro node nodes nodeValid loads first second left right here there same keyed
    rcases unfolds_paths (spec node nodes nodeValid loads).2 with
      ⟨number, upper, rfl, paths⟩ | revisions
    · have unique : (nodes.map TreeNode.shownPath).Nodup := by
        apply paths.nodup_iff.mpr
        have all := typed_paths_nodup (fileSystemNodes snapshot.index)
        have some : ((shownNodes snapshot.index).map fun child => some child.1).Nodup := by
          have mapped := all.map (Option.some_injective Path)
          rw [List.map_map] at mapped
          exact mapped
        exact some.sublist (List.filter_sublist.map _)
      have firstKey : (nodes.map TreeNode.shownPath)[first]? = some left.shownPath := by
        rw [List.getElem?_map, here]
        rfl
      have secondKey : (nodes.map TreeNode.shownPath)[second]? = some left.shownPath := by
        rw [List.getElem?_map, there, same]
        rfl
      have bound := (List.getElem?_eq_some_iff.mp firstKey).1
      exact (List.getElem?_inj bound unique).mp (firstKey.trans secondKey.symm)
    · exact absurd (revisions left (List.mem_of_getElem? here)) keyed

end Nodes

/-- The nodes are at their places, and the pointers that were given lead to them. -/
structure Viewed (snapshots : List Snapshot) (root : TreeNode) (session : Session) : Prop where
  placed : ∃ place, Placed (TreeNode.loaded snapshots) root session.heap place
  pointers : ∀ row column node, ControllerIndex.created row column node ∈ session.issued →
    node < session.heap.length

structure Continues (session next : Session) : Prop where
  heap : Kept session.heap next.heap
  issued : ∀ index ∈ session.issued, index ∈ next.issued

structure Opened (snapshots : List Snapshot) (root : TreeNode) (heap : Heap TreeNode)
    (address : Nat) (nodes : List TreeNode) (children : List Nat) (later : Heap TreeNode) :
    Prop where
  placed : ∃ place, Placed (TreeNode.loaded snapshots) root later place
  kept : Kept heap later
  labels : List.Forall₂ (fun child node => (later[child]?).map Cell.label = some node) children
    nodes
  made : ∃ cell, later[address]? = some cell ∧ cell.children = some children

theorem continues_refl (session : Session) : Continues session session where
  heap := kept_refl session.heap
  issued _ inside := inside

theorem continues_trans {first second third : Session} (left : Continues first second)
    (right : Continues second third) : Continues first third where
  heap := kept_trans left.heap right.heap
  issued index inside := right.issued index (left.issued index inside)

theorem node_continues {session next : Session} (continues : Continues session next)
    {index : ControllerIndex} {node : TreeNode} (found : session.nodeOf index = some node) :
    next.nodeOf index = some node := by
  obtain ⟨cell, here, label⟩ := Option.map_eq_some_iff.mp found
  obtain ⟨kept, there, same, _⟩ := continues.heap _ cell here
  rw [Session.nodeOf, there, Option.map_some, same, label]

section Sessions

variable {snapshot : Snapshot} {previous : List Snapshot} {nodeIndex : Nat}
  {session : Session} {heap : Heap TreeNode}

theorem cell_fresh (snapshots : List Snapshot) (node : TreeNode) :
    node.cell.children = none ∨
      (node.cell.children = some [] ∧ node.cell.label.loaded snapshots = some []) := by
  cases node with
  | directory nodeIndex path => exact .inl rfl
  | dataFile nodeIndex path => exact .inl rfl
  | fileRevision revision => exact .inr ⟨rfl, rfl⟩

theorem get_children_opened (resolvable : Resolvable (snapshot :: previous))
    (rootValid : Valid snapshot previous (.directory nodeIndex Path.root))
    (placed : ∃ place, Placed (TreeNode.loaded (snapshot :: previous))
      (.directory nodeIndex Path.root) heap place)
    {address : Nat} {cell : Cell TreeNode} (here : heap[address]? = some cell) :
    ∃ nodes children later,
      getChildren (snapshot :: previous) heap address = some (.ok (children, later)) ∧
      Unfolds (snapshot :: previous) (shownNodes snapshot.index) cell.label nodes ∧
      Opened (snapshot :: previous) (.directory nodeIndex Path.root) heap address nodes children
        later := by
  obtain ⟨place, placed⟩ := placed
  have keyed := tree_keyed resolvable rootValid
  have valid := label_at_valid keyed (placed.label address cell here)
  obtain ⟨nodes, loads, _, unfolds⟩ := load_valid resolvable valid
  have loaded : cell.label.loaded (snapshot :: previous) = some nodes := by
    rw [TreeNode.loaded, loads]
  cases made : cell.children with
  | some children =>
      refine ⟨nodes, children, heap, ?_, unfolds, ⟨place, placed⟩, kept_refl heap,
        placed_children placed here made loaded, cell, here, made⟩
      simp only [getChildren, here, made]
  | none =>
      have labels : (nodes.map TreeNode.cell).map Cell.label = nodes := by
        rw [List.map_map]
        exact List.map_id nodes
      have fresh : ∀ new ∈ nodes.map TreeNode.cell, new.children = none ∨
          (new.children = some [] ∧ new.label.loaded (snapshot :: previous) = some []) := by
        intro new inside
        obtain ⟨node, _, rfl⟩ := List.mem_map.mp inside
        exact cell_fresh _ node
      have attached := placed_attach placed here made (labels.symm ▸ loaded) fresh
      have opened : (attach heap address (nodes.map TreeNode.cell))[address]? =
          some { cell with children := some (List.range' heap.length nodes.length) } := by
        rw [attach_here here, List.length_map]
      refine ⟨nodes, List.range' heap.length nodes.length,
        attach heap address (nodes.map TreeNode.cell), ?_, unfolds, ⟨_, attached⟩,
        kept_attach here made, placed_children attached opened rfl loaded, _, opened, rfl⟩
      simp only [getChildren, here, made, loads, Attempt.andThen]

theorem get_children_again (snapshots : List Snapshot) {address : Nat} {children : List Nat}
    {later : Heap TreeNode} (made : ∃ cell, heap[address]? = some cell ∧
      cell.children = some children) (kept : Kept heap later) :
    getChildren snapshots later address = some (.ok (children, later)) := by
  obtain ⟨cell, here, same⟩ := made
  obtain ⟨still, there, _, further⟩ := kept address cell here
  simp only [getChildren, there, further children same]

theorem known_node (viewed : Viewed (snapshot :: previous) (.directory nodeIndex Path.root)
    session) {index : ControllerIndex} (known : Known session index) :
    ∃ cell, session.heap[extractNode index]? = some cell := by
  have bound : extractNode index < session.heap.length := by
    rcases known with unset | issued
    · subst unset
      obtain ⟨place, placed⟩ := viewed.placed
      exact placed.present
    · cases index with
      | unset =>
          obtain ⟨place, placed⟩ := viewed.placed
          exact placed.present
      | created row column node => exact viewed.pointers row column node issued
  exact ⟨_, List.getElem?_eq_getElem bound⟩

theorem opened_pointer {root : TreeNode} {address : Nat} {nodes : List TreeNode}
    {children : List Nat} {later : Heap TreeNode}
    (opened : Opened (snapshot :: previous) root heap address nodes children later) {row : Nat}
    {child : TreeNode} (listed : nodes[row]? = some child) :
    ∃ pointer, children[row]? = some pointer ∧
      (later[pointer]?).map Cell.label = some child := by
  obtain ⟨length, same⟩ := List.forall₂_iff_get.mp opened.labels
  obtain ⟨inside, label⟩ := List.getElem?_eq_some_iff.mp listed
  have bound : row < children.length := by omega
  refine ⟨children[row], List.getElem?_eq_getElem bound, ?_⟩
  rw [← label]
  exact same row bound inside

theorem controller_answers (resolvable : Resolvable (snapshot :: previous))
    (rootValid : Valid snapshot previous (.directory nodeIndex Path.root))
    (viewed : Viewed (snapshot :: previous) (.directory nodeIndex Path.root) session)
    {index : ControllerIndex} {cell : Cell TreeNode}
    (here : session.heap[extractNode index]? = some cell) :
    ∃ nodes, Unfolds (snapshot :: previous) (shownNodes snapshot.index) cell.label nodes ∧
      (∃ later, getNumberOfChildren (snapshot :: previous) session index =
          some (.ok (nodes.length, later)) ∧
        Viewed (snapshot :: previous) (.directory nodeIndex Path.root) later ∧
        Continues session later) ∧
      ∀ row column, (nodes[row]? = none → getChildIndex (snapshot :: previous) session row column
          index = some (.error .outOfRange)) ∧
        ∀ child, nodes[row]? = some child → ∃ given next,
          getChildIndex (snapshot :: previous) session row column index =
            some (.ok (given, next)) ∧
          Viewed (snapshot :: previous) (.directory nodeIndex Path.root) next ∧
          Continues session next ∧ given ∈ next.issued ∧ next.nodeOf given = some child ∧
          ∀ later, Continues next later → ∃ last,
            getChildIndex (snapshot :: previous) later row column index =
              some (.ok (given, last)) := by
  obtain ⟨nodes, children, heap, answered, unfolds, opened⟩ :=
    get_children_opened resolvable rootValid viewed.placed here
  have longer : ∀ node, node < session.heap.length → node < heap.length := by
    intro node bound
    obtain ⟨_, there, _⟩ := opened.kept node _ (List.getElem?_eq_getElem bound)
    exact (List.getElem?_eq_some_iff.mp there).1
  have length := opened.labels.length_eq
  refine ⟨nodes, unfolds, ⟨{ session with heap := heap }, ?_, ⟨opened.placed, ?_⟩,
    opened.kept, fun _ inside => inside⟩, ?_⟩
  · simp only [getNumberOfChildren, answered, Attempt.andThen, length]
  · intro row column node inside
    exact longer node (viewed.pointers row column node inside)
  · intro row column
    constructor
    · intro beyond
      have none : children[row]? = none := by
        rw [List.getElem?_eq_none_iff] at beyond ⊢
        omega
      simp only [getChildIndex, answered, Attempt.andThen, none]
    · intro child listed
      obtain ⟨pointer, there, label⟩ := opened_pointer opened listed
      obtain ⟨found, made, _⟩ := Option.map_eq_some_iff.mp label
      refine ⟨.created row column pointer,
        { heap := heap, issued := .created row column pointer :: session.issued }, ?_,
        ⟨opened.placed, ?_⟩, ⟨opened.kept, fun _ inside => List.mem_cons_of_mem _ inside⟩,
        List.mem_cons_self .., label, ?_⟩
      · simp only [getChildIndex, answered, Attempt.andThen, there]
      · intro otherRow otherColumn node inside
        rcases List.mem_cons.mp inside with new | old
        · cases new
          exact (List.getElem?_eq_some_iff.mp made).1
        · exact longer node (viewed.pointers otherRow otherColumn node old)
      · intro later continues
        have again := get_children_again (snapshot :: previous) opened.made continues.heap
        refine ⟨{ heap := later.heap
                  issued := .created row column pointer :: later.issued }, ?_⟩
        simp only [getChildIndex, again, Attempt.andThen, there]

theorem perform_viewed (resolvable : Resolvable (snapshot :: previous))
    (rootValid : Valid snapshot previous (.directory nodeIndex Path.root))
    (viewed : Viewed (snapshot :: previous) (.directory nodeIndex Path.root) session)
    {request : Request} {next : Session}
    (performed : request.perform (snapshot :: previous) session = some next) :
    Viewed (snapshot :: previous) (.directory nodeIndex Path.root) next ∧
      Continues session next := by
  cases there : session.heap[extractNode request.parent]? with
  | none =>
      cases request with
      | numberOfChildren parent =>
          have dangling : session.heap[extractNode parent]? = none := there
          simp [Request.perform, getNumberOfChildren, getChildren, dangling,
            Attempt.andThen] at performed
      | childIndex row column parent =>
          have dangling : session.heap[extractNode parent]? = none := there
          simp [Request.perform, getChildIndex, getChildren, dangling,
            Attempt.andThen] at performed
  | some cell =>
      obtain ⟨nodes, _, ⟨later, counted, laterViewed, continues⟩, rows⟩ :=
        controller_answers resolvable rootValid viewed there
      cases request with
      | numberOfChildren parent =>
          have same : getNumberOfChildren (snapshot :: previous) session parent =
              some (.ok (nodes.length, later)) := counted
          simp only [Request.perform, same, Option.some.injEq] at performed
          exact performed ▸ ⟨laterViewed, continues⟩
      | childIndex row column parent =>
          obtain ⟨beyond, inside⟩ := rows row column
          cases listed : nodes[row]? with
          | none =>
              have fault : getChildIndex (snapshot :: previous) session row column parent =
                  some (.error .outOfRange) := beyond listed
              simp [Request.perform, fault] at performed
          | some child =>
              obtain ⟨given, further, indexed, furtherViewed, goesOn, _⟩ := inside child listed
              have same : getChildIndex (snapshot :: previous) session row column parent =
                  some (.ok (given, further)) := indexed
              simp only [Request.perform, same, Option.some.injEq] at performed
              exact performed ▸ ⟨furtherViewed, goesOn⟩

theorem run_viewed (resolvable : Resolvable (snapshot :: previous))
    (rootValid : Valid snapshot previous (.directory nodeIndex Path.root)) {start : Session}
    (requests : List Request) {session later : Session}
    (viewed : Viewed (snapshot :: previous) (.directory nodeIndex Path.root) session)
    (run : (viewer (snapshot :: previous) start).run session requests = some later) :
    Viewed (snapshot :: previous) (.directory nodeIndex Path.root) later ∧
      Continues session later := by
  induction requests generalizing session with
  | nil =>
      have same : session = later := Option.some.inj run
      exact same ▸ ⟨viewed, continues_refl session⟩
  | cons request rest induction =>
      obtain ⟨next, performed, further⟩ := System.run_cons_some run
      obtain ⟨nextViewed, first⟩ := perform_viewed resolvable rootValid viewed performed
      obtain ⟨laterViewed, second⟩ := induction nextViewed further
      exact ⟨laterViewed, continues_trans first second⟩

def startedAt (nodeIndex : Nat) : Session where
  heap := [(TreeNode.directory nodeIndex Path.root).cell]
  issued := []

theorem reached_viewed (resolvable : Resolvable (snapshot :: previous))
    (rootValid : Valid snapshot previous (.directory nodeIndex Path.root))
    (reached : (viewer (snapshot :: previous) (startedAt nodeIndex)).Reachable Asked session) :
    Viewed (snapshot :: previous) (.directory nodeIndex Path.root) session := by
  apply System.reachable_invariant _ _ _ reached
  · exact ⟨⟨_, placed_root _⟩, fun _ _ _ inside => (List.not_mem_nil inside).elim⟩
  · intro before next request _ viewed _ taken
    exact (perform_viewed resolvable rootValid viewed taken).1

theorem path_reached (resolvable : Resolvable (snapshot :: previous))
    (rootValid : Valid snapshot previous (.directory nodeIndex Path.root))
    (rooted : Rooted (shownNodes snapshot.index)) {start : Session}
    (viewed : Viewed (snapshot :: previous) (.directory nodeIndex Path.root) session)
    (depth : Nat) {entry : Path × FileType} (level : entry.1.components.length = depth)
    (listed : entry ∈ shownNodes snapshot.index) :
    ∃ requests later index node,
      (viewer (snapshot :: previous) start).Throughout Asked session requests ∧
      (viewer (snapshot :: previous) start).run session requests = some later ∧
      Known later index ∧ later.nodeOf index = some node ∧ node.shown = shownEntry entry := by
  induction depth generalizing entry with
  | zero =>
      have isRoot : entry.1 = Path.root := by
        rw [Path.root, ← List.eq_nil_of_length_eq_zero level]
      have directory : entry.2 = .directory := by
        obtain ⟨attributes, found, type⟩ := (mem_shown_nodes entry).mp listed
        obtain ⟨rootAttributes, rootFound, rootType⟩ := (mem_shown_nodes _).mp rooted.root
        rw [isRoot, rootFound, Option.some.injEq] at found
        rw [← type, ← found]
        exact rootType
      obtain ⟨place, placed⟩ := viewed.placed
      obtain ⟨cell, here⟩ := known_node viewed (.inl rfl)
      have label := placed.label 0 cell here
      rw [placed.top, label_at_root, Option.some.injEq] at label
      refine ⟨[], session, .unset, .directory nodeIndex Path.root, trivial, rfl, .inl rfl, ?_, ?_⟩
      · rw [Session.nodeOf, here, Option.map_some, label]
      · rw [TreeNode.shown, shownEntry, isRoot, directory]
        rfl
  | succ depth induction =>
      have inner : entry.1 ≠ Path.root := by
        intro isRoot
        rw [isRoot] at level
        cases level
      have parentLevel : entry.1.parent.components.length = depth := by
        have above := pathTree.level_parent entry.1 inner
        change entry.1.components.length = entry.1.parent.components.length + 1 at above
        omega
      obtain ⟨requests, middle, index, node, asked, run, known, found, shown⟩ :=
        induction parentLevel (rooted.parents entry listed inner)
      obtain ⟨middleViewed, _⟩ := run_viewed resolvable rootValid requests viewed run
      obtain ⟨cell, here, label⟩ := Option.map_eq_some_iff.mp found
      obtain ⟨nodes, unfolds, _, rows⟩ :=
        controller_answers resolvable rootValid middleViewed here
      rw [label] at unfolds
      obtain ⟨child, member, childShown⟩ : ∃ child ∈ nodes, child.shown = shownEntry entry := by
        cases unfolds with
        | directory number path nodes _ children =>
            have samePath : path = entry.1.parent := congrArg Prod.fst (Option.some.inj shown)
            have inside : shownEntry entry ∈ nodes.map TreeNode.shown := by
              apply children.mem_iff.mpr
              apply List.mem_map_of_mem
              exact (mem_children_in entry path).mpr ⟨listed, inner, samePath.symm⟩
            exact List.mem_map.mp inside
        | dataFile number path type visits _ _ _ => simp [TreeNode.shown, shownEntry] at shown
        | fileRevision revision => cases shown
      obtain ⟨row, bound, rfl⟩ := List.getElem_of_mem member
      obtain ⟨given, next, answered, _, _, issued, there, _⟩ :=
        (rows row 0).2 _ (List.getElem?_eq_getElem bound)
      refine ⟨requests ++ [.childIndex row 0 index], next, given, _, ?_, ?_, .inr issued, there,
        childShown⟩
      · apply (System.throughout_append requests _ run).mpr
        refine ⟨asked, known, ?_⟩
        simp only [viewer, Request.perform, answered, System.Throughout]
      · rw [System.run_append, run, Option.bind_some, System.run, viewer]
        simp only [Request.perform, answered, System.run]

end Sessions

end ACBackup.RevisionsTree
