import ACBackup.Library.Overwriting
import ACBackup.NodeAttributes

/-!
The index of a tree: `FileSystemNodeIndex` numbers its nodes in the order in
which they were added and maps paths to numbers and back. A path that is added
twice would break the bijection, so its absence is part of the type.
-/

namespace ACBackup.Indexing

open ACBackup.Library.Overwriting
open ACBackup.Platform ACBackup.NodeAttributes

set_option autoImplicit false

structure NodeIndex (Attributes : Type) where
  nodes : List (Path × Attributes)
  unique : (nodes.map Prod.fst).Nodup
  deriving DecidableEq

abbrev FileSystemNodeIndex := NodeIndex FileSystemNodeAttributes
abbrev BackupNodeIndex := NodeIndex BackupNodeAttributes

variable {Attributes : Type}

namespace NodeIndex

def empty : NodeIndex Attributes := ⟨[], List.nodup_nil⟩

/-- Paths come from one scan or one index, which lists each path once. -/
def addNode (index : NodeIndex Attributes) (path : Path) (attributes : Attributes) :
    NodeIndex Attributes :=
  if fresh : path ∈ index.nodes.map Prod.fst then index
  else
    { nodes := index.nodes ++ [(path, attributes)]
      unique := by
        rw [List.map_append, List.nodup_append]
        refine ⟨index.unique, List.nodup_singleton _, ?_⟩
        intro left leftMember right rightMember same
        simp only [List.map_cons, List.map_nil, List.mem_singleton] at rightMember
        exact fresh (rightMember ▸ same ▸ leftMember) }

def getNumberOfNodes (index : NodeIndex Attributes) : Nat := index.nodes.length

def getNodeAttributes (index : NodeIndex Attributes) (node : Nat) : Except Fault Attributes :=
  match index.nodes[node]? with
  | some entry => .ok entry.2
  | none => .error .outOfRange

def getNodePath (index : NodeIndex Attributes) (node : Nat) : Except Fault Path :=
  match index.nodes[node]? with
  | some entry => .ok entry.1
  | none => .error .missingKey

def getNodeIndex (index : NodeIndex Attributes) (path : Path) : Except Fault Nat :=
  match index.nodes.findIdx? fun entry => entry.1 = path with
  | some node => .ok node
  | none => .error .missingKey

def hasNodeIndex (index : NodeIndex Attributes) (path : Path) : Bool :=
  index.nodes.any fun entry => entry.1 = path

def lookup (index : NodeIndex Attributes) (path : Path) : Option Attributes :=
  (index.nodes.find? fun entry => entry.1 = path).map Prod.snd

def modify (index : NodeIndex Attributes) (path : Path) (f : Attributes → Attributes) :
    NodeIndex Attributes where
  nodes := index.nodes.map fun entry => if entry.1 = path then (entry.1, f entry.2) else entry
  unique := by
    have paths : (index.nodes.map fun entry =>
        if entry.1 = path then (entry.1, f entry.2) else entry).map Prod.fst =
          index.nodes.map Prod.fst := by
      rw [List.map_map]
      apply List.map_congr_left
      intro entry _
      simp only [Function.comp_apply]
      split <;> rfl
    rw [paths]
    exact index.unique

def mapAttributes {Other : Type} (index : NodeIndex Attributes) (f : Attributes → Other) :
    NodeIndex Other where
  nodes := index.nodes.map fun entry => (entry.1, f entry.2)
  unique := by
    rw [List.map_map]
    exact index.unique

theorem entry_unique (index : NodeIndex Attributes) {path : Path} {left right : Attributes}
    (leftMember : (path, left) ∈ index.nodes) (rightMember : (path, right) ∈ index.nodes) :
    left = right := by
  have same := List.inj_on_of_nodup_map index.unique leftMember rightMember rfl
  exact congrArg Prod.snd same

theorem lookup_eq_some (index : NodeIndex Attributes) (path : Path) (attributes : Attributes) :
    index.lookup path = some attributes ↔ (path, attributes) ∈ index.nodes := by
  constructor
  · intro found
    obtain ⟨entry, search, same⟩ := Option.map_eq_some_iff.mp found
    have matching := List.find?_some search
    have member := List.mem_of_find?_eq_some search
    simp only [decide_eq_true_eq] at matching
    rw [← matching, ← same]
    exact member
  · intro member
    cases search : index.nodes.find? fun entry => entry.1 = path with
    | none =>
        have absent := List.find?_eq_none.mp search (path, attributes) member
        simp at absent
    | some entry =>
        have matching := List.find?_some search
        simp only [decide_eq_true_eq] at matching
        have other : (path, entry.2) ∈ index.nodes := by
          rw [← matching]
          exact List.mem_of_find?_eq_some search
        rw [lookup, search, Option.map_some, entry_unique index other member]

theorem lookup_eq_none (index : NodeIndex Attributes) (path : Path) :
    index.lookup path = none ↔ path ∉ index.nodes.map Prod.fst := by
  rw [lookup, Option.map_eq_none_iff, List.find?_eq_none]
  constructor
  · intro absent member
    obtain ⟨entry, inside, same⟩ := List.mem_map.mp member
    exact absent entry inside (by simpa using same)
  · intro absent entry inside matching
    exact absent (List.mem_map.mpr ⟨entry, inside, by simpa using matching⟩)

theorem has_node_index_iff (index : NodeIndex Attributes) (path : Path) :
    index.hasNodeIndex path = true ↔ ∃ attributes, index.lookup path = some attributes := by
  simp only [hasNodeIndex, List.any_eq_true, decide_eq_true_eq, lookup_eq_some]
  constructor
  · rintro ⟨entry, member, rfl⟩
    exact ⟨entry.2, member⟩
  · rintro ⟨attributes, member⟩
    exact ⟨(path, attributes), member, rfl⟩

theorem lookup_of_get {index : NodeIndex Attributes} {node : Nat} {path : Path}
    {attributes : Attributes} (entry : index.nodes[node]? = some (path, attributes)) :
    index.lookup path = some attributes :=
  (lookup_eq_some index path attributes).mpr (List.mem_of_getElem? entry)

theorem get_node_attributes_ok (index : NodeIndex Attributes) (node : Nat)
    (attributes : Attributes) :
    index.getNodeAttributes node = .ok attributes ↔
      ∃ path, index.nodes[node]? = some (path, attributes) := by
  cases entry : index.nodes[node]? with
  | none => simp [getNodeAttributes, entry]
  | some pair => simp [getNodeAttributes, entry, Prod.ext_iff]

theorem get_node_path_ok (index : NodeIndex Attributes) (node : Nat) (path : Path) :
    index.getNodePath node = .ok path ↔
      ∃ attributes, index.nodes[node]? = some (path, attributes) := by
  cases entry : index.nodes[node]? with
  | none => simp [getNodePath, entry]
  | some pair => simp [getNodePath, entry, Prod.ext_iff]

theorem get_node_index_ok (index : NodeIndex Attributes) (path : Path) (node : Nat) :
    index.getNodeIndex path = .ok node ↔
      ∃ attributes, index.nodes[node]? = some (path, attributes) := by
  constructor
  · intro found
    cases search : index.nodes.findIdx? fun entry => entry.1 = path with
    | none => simp [getNodeIndex, search] at found
    | some position =>
        simp only [getNodeIndex, search, Except.ok.injEq] at found
        subst found
        obtain ⟨bound, matching, _⟩ := List.findIdx?_eq_some_iff_getElem.mp search
        simp only [decide_eq_true_eq] at matching
        refine ⟨(index.nodes.get ⟨position, bound⟩).2, ?_⟩
        rw [List.getElem?_eq_getElem bound, ← matching]
        rfl
  · rintro ⟨attributes, entry⟩
    obtain ⟨bound, same⟩ := List.getElem?_eq_some_iff.mp entry
    have search : index.nodes.findIdx? (fun entry => entry.1 = path) = some node := by
      rw [List.findIdx?_eq_some_iff_getElem]
      refine ⟨bound, by simp [same], ?_⟩
      intro earlier before
      have earlierBound : earlier < index.nodes.length := by omega
      simp only [decide_eq_true_eq]
      intro matching
      have leftBound : earlier < (index.nodes.map Prod.fst).length := by simpa using earlierBound
      have rightBound : node < (index.nodes.map Prod.fst).length := by simpa using bound
      have paths : (index.nodes.map Prod.fst)[earlier] = (index.nodes.map Prod.fst)[node] := by
        simp only [List.getElem_map, matching, same]
      have equal := (List.Nodup.getElem_inj_iff index.unique).mp paths
      omega
    rw [getNodeIndex, search]

theorem node_number_unique {index : NodeIndex Attributes} {path : Path} {left right : Nat}
    {leftAttributes rightAttributes : Attributes}
    (leftEntry : index.nodes[left]? = some (path, leftAttributes))
    (rightEntry : index.nodes[right]? = some (path, rightAttributes)) : left = right := by
  have leftNumber := (get_node_index_ok index path left).mpr ⟨leftAttributes, leftEntry⟩
  have rightNumber := (get_node_index_ok index path right).mpr ⟨rightAttributes, rightEntry⟩
  rw [leftNumber] at rightNumber
  exact Except.ok.inj rightNumber

/-- A path has a number exactly when it has attributes, and the number leads
back to both. -/
theorem get_node_index_of_lookup {index : NodeIndex Attributes} {path : Path}
    {attributes : Attributes} (found : index.lookup path = some attributes) :
    ∃ node, index.getNodeIndex path = .ok node ∧
      index.nodes[node]? = some (path, attributes) := by
  obtain ⟨node, entry⟩ := List.getElem?_of_mem ((lookup_eq_some index path attributes).mp found)
  exact ⟨node, (get_node_index_ok index path node).mpr ⟨attributes, entry⟩, entry⟩

theorem get_node_index_of_lookup_none {index : NodeIndex Attributes} {path : Path}
    (absent : index.lookup path = none) : index.getNodeIndex path = .error .missingKey := by
  cases search : index.nodes.findIdx? fun entry => entry.1 = path with
  | none => simp [getNodeIndex, search]
  | some node =>
      have found : index.getNodeIndex path = .ok node := by simp [getNodeIndex, search]
      obtain ⟨attributes, entry⟩ := (get_node_index_ok index path node).mp found
      rw [lookup_of_get entry] at absent
      cases absent

theorem add_node_fresh (index : NodeIndex Attributes) (path : Path) (attributes : Attributes)
    (fresh : path ∉ index.nodes.map Prod.fst) :
    (index.addNode path attributes).nodes = index.nodes ++ [(path, attributes)] := by
  rw [addNode, dif_neg fresh]

theorem mem_add_node {index : NodeIndex Attributes} {path : Path} {attributes : Attributes}
    {entry : Path × Attributes} (member : entry ∈ (index.addNode path attributes).nodes) :
    entry ∈ index.nodes ∨ entry = (path, attributes) := by
  by_cases known : path ∈ index.nodes.map Prod.fst
  · have same : index.addNode path attributes = index := by
      rw [addNode, dif_pos known]
    exact .inl (same ▸ member)
  · rw [add_node_fresh index path attributes known, List.mem_append, List.mem_singleton] at member
    exact member

theorem modify_paths (index : NodeIndex Attributes) (path : Path) (f : Attributes → Attributes) :
    (index.modify path f).nodes.map Prod.fst = index.nodes.map Prod.fst := by
  simp only [modify, List.map_map]
  apply List.map_congr_left
  intro entry _
  simp only [Function.comp_apply]
  split <;> rfl

theorem lookup_modify (index : NodeIndex Attributes) (path other : Path)
    (f : Attributes → Attributes) :
    (index.modify path f).lookup other =
      if other = path then (index.lookup path).map f else index.lookup other := by
  apply Option.ext
  intro attributes
  rw [lookup_eq_some]
  simp only [modify, List.mem_map]
  by_cases same : other = path
  · subst same
    rw [if_pos rfl, Option.map_eq_some_iff]
    constructor
    · rintro ⟨entry, member, equal⟩
      by_cases matching : entry.1 = other
      · rw [if_pos matching] at equal
        refine ⟨entry.2, ?_, congrArg Prod.snd equal⟩
        rw [lookup_eq_some, ← matching]
        exact member
      · rw [if_neg matching] at equal
        exact absurd (congrArg Prod.fst equal) matching
    · rintro ⟨old, found, equal⟩
      refine ⟨(other, old), (lookup_eq_some index other old).mp found, ?_⟩
      rw [if_pos rfl, equal]
  · rw [if_neg same, lookup_eq_some]
    constructor
    · rintro ⟨entry, member, equal⟩
      by_cases matching : entry.1 = path
      · rw [if_pos matching] at equal
        exact absurd ((congrArg Prod.fst equal).symm.trans matching) same
      · rw [if_neg matching] at equal
        exact equal ▸ member
    · intro member
      exact ⟨(other, attributes), member, by rw [if_neg same]⟩

theorem lookup_map_attributes {Other : Type} (index : NodeIndex Attributes)
    (f : Attributes → Other) (path : Path) : (index.mapAttributes f).lookup path = (index.lookup path).map f := by
  apply Option.ext
  intro attributes
  rw [lookup_eq_some, Option.map_eq_some_iff]
  simp only [mapAttributes, List.mem_map, Prod.mk.injEq, lookup_eq_some]
  constructor
  · rintro ⟨entry, member, rfl, rfl⟩
    exact ⟨entry.2, member, rfl⟩
  · rintro ⟨old, member, rfl⟩
    exact ⟨(path, old), member, rfl, rfl⟩

end NodeIndex

theorem add_nodes_fresh (entries : List (Path × Attributes)) (index : NodeIndex Attributes)
    (fresh : (index.nodes.map Prod.fst ++ entries.map Prod.fst).Nodup) :
    (entries.foldl (fun index entry => index.addNode entry.1 entry.2) index).nodes =
      index.nodes ++ entries := by
  induction entries generalizing index with
  | nil => simp
  | cons entry rest induction =>
      have absent : entry.1 ∉ index.nodes.map Prod.fst := by
        intro member
        have apart := (List.nodup_append.mp fresh).2.2
        exact apart entry.1 member entry.1 (by simp) rfl
      have nodes := NodeIndex.add_node_fresh index entry.1 entry.2 absent
      rw [List.foldl_cons, induction]
      · rw [nodes, List.append_assoc]
        rfl
      · rw [nodes]
        simpa using fresh

def addBlock (index : BackupNodeIndex) (path : Path) (block : Block) :
    Except Fault BackupNodeIndex :=
  match index.getNodeIndex path with
  | .error fault => .error fault
  | .ok _ => .ok (index.modify path fun attributes => attributes.addBlock block)

theorem add_block_ok {index : BackupNodeIndex} {path : Path}
    {attributes : BackupNodeAttributes} (found : index.lookup path = some attributes)
    (block : Block) :
    addBlock index path block =
      .ok (index.modify path fun attributes => attributes.addBlock block) := by
  obtain ⟨node, number, _⟩ := NodeIndex.get_node_index_of_lookup found
  rw [addBlock, number]

/-- `GenerateHashIndex`: a later node overwrites an earlier one with the same digest. -/
def generateHashIndex (algorithm : HashAlgorithm) (index : BackupNodeIndex) :
    Std.TreeMap String Nat :=
  index.nodes.zipIdx.foldl
    (fun hashIndex entry =>
      match entry.1.2.hashes algorithm with
      | some value => hashIndex.insert value entry.2
      | none => hashIndex) ∅

/-- The source answers an unknown digest with the largest number instead of `none`. -/
def findNodeIndexByHash (algorithm : HashAlgorithm) (index : BackupNodeIndex) (hash : String) :
    Option Nat :=
  (generateHashIndex algorithm index)[hash]?

theorem generate_hash_index_overwrites (algorithm : HashAlgorithm) (index : BackupNodeIndex) :
    generateHashIndex algorithm index =
      index.nodes.zipIdx.foldl (overwrite (fun entry => entry.1.2.hashes algorithm) Prod.snd) ∅ := by
  unfold generateHashIndex
  congr 1
  funext hashIndex entry
  cases recorded : entry.1.2.hashes algorithm <;> simp only [overwrite, recorded]

/-- A hit is the last node that carries the digest. -/
theorem find_node_index_by_hash_iff {algorithm : HashAlgorithm} {index : BackupNodeIndex}
    {hash : String} {node : Nat} :
    findNodeIndexByHash algorithm index hash = some node ↔
      (∃ path attributes, index.nodes[node]? = some (path, attributes) ∧
        attributes.hashes algorithm = some hash) ∧
      ∀ later path attributes, node < later → index.nodes[later]? = some (path, attributes) →
        attributes.hashes algorithm ≠ some hash := by
  have empty : ¬(∅ : Std.TreeMap String Nat)[hash]? = some node := by simp
  rw [findNodeIndexByHash, generate_hash_index_overwrites, overwritten_iff]
  simp only [empty, false_and, or_false]
  constructor
  · rintro ⟨front, ⟨⟨path, attributes⟩, position⟩, back, parts, recorded, rfl, unnamed⟩
    have listed : ((path, attributes), position) ∈ index.nodes.zipIdx := by
      rw [parts]
      exact List.mem_append_right _ (List.mem_cons_self ..)
    refine ⟨⟨path, attributes, List.mem_zipIdx_iff_getElem?.mp listed, recorded⟩, ?_⟩
    intro later laterPath laterAttributes behind entry
    have counted : index.nodes.zipIdx[later]? = some ((laterPath, laterAttributes), later) := by
      simp [entry]
    have numbered := congrArg (fun list => list[front.length]?) parts
    simp only [List.getElem?_zipIdx, List.getElem?_append_right (Nat.le_refl _), Nat.sub_self,
      List.getElem?_cons_zero, Option.map_eq_some_iff] at numbered
    obtain ⟨_, _, same⟩ := numbered
    have length : position = front.length := by
      have second := congrArg Prod.snd same
      simpa using second.symm
    rw [parts, List.getElem?_append_right (by omega)] at counted
    have inBack : ((laterPath, laterAttributes), later) ∈ back := by
      have nonzero : later - front.length = (later - front.length - 1) + 1 := by omega
      rw [nonzero, List.getElem?_cons_succ] at counted
      exact List.mem_of_getElem? counted
    exact unnamed _ inBack
  · rintro ⟨⟨path, attributes, entry, recorded⟩, latest⟩
    have listed : ((path, attributes), node) ∈ index.nodes.zipIdx :=
      List.mem_zipIdx_iff_getElem?.mpr entry
    obtain ⟨front, back, parts⟩ := List.append_of_mem listed
    refine ⟨front, _, back, parts, recorded, rfl, ?_⟩
    rintro ⟨⟨laterPath, laterAttributes⟩, later⟩ inBack
    have laterListed : ((laterPath, laterAttributes), later) ∈ index.nodes.zipIdx := by
      rw [parts]
      exact List.mem_append_right _ (List.mem_cons_of_mem _ inBack)
    have numbers : (index.nodes.zipIdx.map Prod.snd).Pairwise (· < ·) := by
      rw [List.zipIdx_map_snd]
      exact List.pairwise_lt_range'
    rw [parts, List.map_append, List.map_cons, List.pairwise_append, List.pairwise_cons] at numbers
    have behind := numbers.2.1.1 later (List.mem_map_of_mem inBack)
    exact latest later laterPath laterAttributes behind (List.mem_zipIdx_iff_getElem?.mp laterListed)

theorem find_node_index_by_hash_some {algorithm : HashAlgorithm} {index : BackupNodeIndex}
    {hash : String} {node : Nat} (hit : findNodeIndexByHash algorithm index hash = some node) :
    ∃ path attributes, index.nodes[node]? = some (path, attributes) ∧
      attributes.hashes algorithm = some hash :=
  (find_node_index_by_hash_iff.mp hit).1

theorem find_node_index_by_hash_none {algorithm : HashAlgorithm} {index : BackupNodeIndex}
    {hash : String} : findNodeIndexByHash algorithm index hash = none ↔
      ∀ path attributes, index.lookup path = some attributes →
        attributes.hashes algorithm ≠ some hash := by
  rw [findNodeIndexByHash, generate_hash_index_overwrites, overwritten_none_iff]
  constructor
  · rintro ⟨_, absent⟩ path attributes found
    obtain ⟨node, entry⟩ :=
      List.getElem?_of_mem ((NodeIndex.lookup_eq_some index path attributes).mp found)
    exact absent ((path, attributes), node) (List.mem_zipIdx_iff_getElem?.mpr entry)
  · intro absent
    refine ⟨by simp, ?_⟩
    rintro ⟨⟨path, attributes⟩, node⟩ member
    exact absent path attributes
      (NodeIndex.lookup_of_get (List.mem_zipIdx_iff_getElem?.mp member))

end ACBackup.Indexing
