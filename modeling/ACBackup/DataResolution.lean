import ACBackup.RecordedContent

/-!
Where `FindDataSnapshot` leads. A node without data goes on at the node of the
snapshot before that it was taken over from, unless it brought along a back
reference that was meant for an older snapshot.
-/

namespace ACBackup.DataResolution

open ACBackup.Library.BackReferences ACBackup.Library.Outcome ACBackup.Library.Transition
open ACBackup.Platform ACBackup.NodeAttributes ACBackup.Indexing ACBackup.SourceIndex
open ACBackup.IndexSerialization ACBackup.SnapshotChain ACBackup.SnapshotCreation
open ACBackup.SnapshotPlan ACBackup.SnapshotNodes ACBackup.SnapshotManager
open ACBackup.RecordedContent

set_option autoImplicit false

def nodeLinkage : Linkage Path BackupNodeAttributes where
  owns := BackupNodeAttributes.hasNodeData
  parent := parentPath

def layers (snapshots : List Snapshot) : List (Layer Path BackupNodeAttributes) :=
  snapshots.map fun snapshot => snapshot.index.lookup

section Following

variable {snapshot : Snapshot} {previous : List Snapshot} {node : Nat} {path : Path}
  {attributes : BackupNodeAttributes}

theorem find_data_snapshot_owned (entry : snapshot.index.nodes[node]? = some (path, attributes))
    (owns : attributes.hasNodeData = true) :
    findDataSnapshot snapshot previous node =
      .ok { distance := 0, snapshot := snapshot, path := path } := by
  have nodeAttributes : snapshot.index.getNodeAttributes node = .ok attributes :=
    (NodeIndex.get_node_attributes_ok _ _ _).mpr ⟨path, entry⟩
  have nodePath : snapshot.index.getNodePath node = .ok path :=
    (NodeIndex.get_node_path_ok _ _ _).mpr ⟨attributes, entry⟩
  rw [findDataSnapshot]
  simp only [nodeAttributes, nodePath, owns, bind, Except.bind, if_true]

theorem find_data_snapshot_reference {prev : Snapshot} {older : List Snapshot}
    (entry : snapshot.index.nodes[node]? = some (path, attributes))
    (without : attributes.hasNodeData = false) :
    findDataSnapshot snapshot (prev :: older) node =
      (prev.index.getNodeIndex (parentPath path attributes)).bind fun parentIndex =>
        (findDataSnapshot prev older parentIndex).map fun found =>
          { found with distance := found.distance + 1 } := by
  have nodeAttributes : snapshot.index.getNodeAttributes node = .ok attributes :=
    (NodeIndex.get_node_attributes_ok _ _ _).mpr ⟨path, entry⟩
  have nodePath : snapshot.index.getNodePath node = .ok path :=
    (NodeIndex.get_node_path_ok _ _ _).mpr ⟨attributes, entry⟩
  rw [findDataSnapshot]
  simp only [nodeAttributes, nodePath, without, bind, Except.bind, Bool.false_eq_true, if_false]
  cases prev.index.getNodeIndex (parentPath path attributes) with
  | error fault => rfl
  | ok parentIndex =>
      simp only
      cases findDataSnapshot prev older parentIndex <;> rfl

theorem find_data_snapshot_last (entry : snapshot.index.nodes[node]? = some (path, attributes))
    (without : attributes.hasNodeData = false) :
    findDataSnapshot snapshot [] node = .error .nullPointer := by
  have nodeAttributes : snapshot.index.getNodeAttributes node = .ok attributes :=
    (NodeIndex.get_node_attributes_ok _ _ _).mpr ⟨path, entry⟩
  have nodePath : snapshot.index.getNodePath node = .ok path :=
    (NodeIndex.get_node_path_ok _ _ _).mpr ⟨attributes, entry⟩
  rw [findDataSnapshot]
  simp only [nodeAttributes, nodePath, without, bind, Except.bind, Bool.false_eq_true, if_false]

private theorem owned_found (found : DataNode) :
    (.ok { distance := 0, snapshot := snapshot, path := path } : Except Fault DataNode) =
        .ok found ↔
      (snapshot :: previous)[found.distance]? = some found.snapshot ∧
        ∃ dataAttributes : BackupNodeAttributes,
          some ({ distance := 0, key := path, node := attributes } : Owner _ _) =
            some { distance := found.distance, key := found.path, node := dataAttributes } := by
  constructor
  · intro same
    cases same
    exact ⟨rfl, attributes, rfl⟩
  · intro described
    obtain ⟨position, dataAttributes, same⟩ := described
    obtain ⟨distance, foundSnapshot, foundPath⟩ := found
    cases same
    cases position
    rfl

private theorem deeper_found {older : List Snapshot} {search : Except Fault DataNode}
    {followed : Option (Owner Path BackupNodeAttributes)}
    (deeper : ∀ found, search = .ok found ↔
      older[found.distance]? = some found.snapshot ∧ ∃ dataAttributes, followed =
        some { distance := found.distance, key := found.path, node := dataAttributes })
    (found : DataNode) :
    (search.map fun found => { found with distance := found.distance + 1 }) = .ok found ↔
      (snapshot :: older)[found.distance]? = some found.snapshot ∧
        ∃ dataAttributes : BackupNodeAttributes, (followed.map fun owner =>
          { owner with distance := owner.distance + 1 }) =
            some { distance := found.distance, key := found.path, node := dataAttributes } := by
  constructor
  · intro mapped
    cases outcome : search with
    | error fault => simp [outcome, Except.map] at mapped
    | ok inner =>
        simp only [outcome, Except.map, Except.ok.injEq] at mapped
        subst mapped
        obtain ⟨position, dataAttributes, same⟩ := (deeper inner).mp outcome
        refine ⟨position, dataAttributes, ?_⟩
        rw [same, Option.map_some]
  · intro described
    obtain ⟨position, dataAttributes, mapped⟩ := described
    obtain ⟨owner, inner, same⟩ := Option.map_eq_some_iff.mp mapped
    obtain ⟨distance, foundSnapshot, foundPath⟩ := found
    obtain ⟨innerDistance, innerKey, innerNode⟩ := owner
    cases same
    have outcome := (deeper ⟨innerDistance, foundSnapshot, foundPath⟩).mpr
      ⟨position, innerNode, inner⟩
    rw [outcome]
    rfl

/-- `FindDataSnapshot` follows the back references of the chain. -/
theorem find_data_snapshot_ok (entry : snapshot.index.nodes[node]? = some (path, attributes))
    (found : DataNode) :
    findDataSnapshot snapshot previous node = .ok found ↔
      (snapshot :: previous)[found.distance]? = some found.snapshot ∧
        ∃ dataAttributes, nodeLinkage.follow (layers (snapshot :: previous)) path =
          some { distance := found.distance, key := found.path, node := dataAttributes } := by
  have present : snapshot.index.lookup path = some attributes := NodeIndex.lookup_of_get entry
  induction previous generalizing snapshot node path attributes found with
  | nil =>
      rw [layers, List.map_cons]
      cases owns : attributes.hasNodeData with
      | true =>
          rw [find_data_snapshot_owned entry owns, Linkage.follow_owned present owns]
          exact owned_found found
      | false =>
          rw [find_data_snapshot_last entry owns, Linkage.follow_reference present owns]
          simp [Linkage.follow]
  | cons prev older induction =>
      rw [layers, List.map_cons]
      cases owns : attributes.hasNodeData with
      | true =>
          rw [find_data_snapshot_owned entry owns, Linkage.follow_owned present owns]
          exact owned_found found
      | false =>
          rw [find_data_snapshot_reference entry owns, Linkage.follow_reference present owns]
          have parent : nodeLinkage.parent path attributes = parentPath path attributes := rfl
          rw [parent]
          cases oldPresent : prev.index.lookup (parentPath path attributes) with
          | none =>
              rw [NodeIndex.get_node_index_of_lookup_none oldPresent, List.map_cons,
                Linkage.follow_absent oldPresent]
              simp [Except.bind]
          | some oldAttributes =>
              obtain ⟨parentIndex, number, oldEntry⟩ :=
                NodeIndex.get_node_index_of_lookup oldPresent
              rw [number]
              exact deeper_found (induction oldEntry · oldPresent) found

theorem find_data_snapshot_owner (entry : snapshot.index.nodes[node]? = some (path, attributes))
    {found : DataNode} (search : findDataSnapshot snapshot previous node = .ok found) :
    ∃ dataAttributes, found.snapshot.index.lookup found.path = some dataAttributes ∧
      dataAttributes.hasNodeData = true ∧
      nodeLinkage.follow (layers (snapshot :: previous)) path =
        some { distance := found.distance, key := found.path, node := dataAttributes } := by
  obtain ⟨position, dataAttributes, followed⟩ := (find_data_snapshot_ok entry found).mp search
  obtain ⟨owns, layer, layerPosition, present⟩ := Linkage.follow_owner followed
  rw [layers, List.getElem?_map, position] at layerPosition
  cases layerPosition
  exact ⟨dataAttributes, present, owns, followed⟩

theorem find_data_snapshot_mem (entry : snapshot.index.nodes[node]? = some (path, attributes))
    {found : DataNode} (search : findDataSnapshot snapshot previous node = .ok found) :
    found.snapshot ∈ snapshot :: previous :=
  List.mem_of_getElem? ((find_data_snapshot_ok entry found).mp search).1

theorem find_data_snapshot_older (entry : snapshot.index.nodes[node]? = some (path, attributes))
    (without : attributes.hasNodeData = false) {found : DataNode}
    (search : findDataSnapshot snapshot previous node = .ok found) :
    found.snapshot ∈ previous := by
  cases previous with
  | nil =>
      rw [find_data_snapshot_last entry without] at search
      cases search
  | cons prev older =>
      rw [find_data_snapshot_reference entry without] at search
      obtain ⟨parentIndex, number, rest⟩ := bind_ok search
      cases deeper : findDataSnapshot prev older parentIndex with
      | error fault => simp [deeper, Except.map] at rest
      | ok inner =>
          simp only [deeper, Except.map, Except.ok.injEq] at rest
          subst rest
          obtain ⟨_, parentEntry⟩ := (NodeIndex.get_node_index_ok _ _ _).mp number
          have member := find_data_snapshot_mem parentEntry deeper
          exact member

end Following

section References

variable {runtime : Runtime} {last : Option BackupNodeIndex} {entry : Entry} {path : Path}
  {held : Bytes → Prop}

theorem parent_path_reloaded {attributes : BackupNodeAttributes} (nonempty : attributes.blocks ≠ []) :
    parentPath path (reloaded attributes) = parentPath path attributes := by
  simp [parentPath, reloaded, nonempty]

theorem reloaded_without_data {attributes : BackupNodeAttributes}
    (owns : attributes.ownsBlocks = false) (isContent : attributes.type ≠ .directory)
    (nonempty : attributes.size ≠ 0) : (reloaded attributes).hasNodeData = false := by
  simp [BackupNodeAttributes.hasNodeData, reloaded, owns, isContent, nonempty]

theorem first_entry_unreferenced (new : NewEntry runtime none entry)
    {attributes : BackupNodeAttributes} (found : entry.index.lookup path = some attributes) :
    attributes.backReferenceTarget = none := by
  obtain ⟨created, sourceAttributes, made, _, _, _, _, route, rfl⟩ := new_entry_node new found
  cases route with
  | directory isDirectory anew => simp [reloaded, BackupNodeAttributes.ofFileSystemNodeAttributes]
  | stored => simp [reloaded]
  | inPlace old taken known => cases taken
  | moved oldPath old different taken sized => cases taken

theorem new_entry_reference (new : NewEntry runtime last entry)
    {attributes : BackupNodeAttributes} (found : entry.index.lookup path = some attributes)
    (described : NodeDescribed runtime held attributes)
    (without : attributes.hasNodeData = false) :
    ∃ lastIndex sourceAttributes oldPath old, last = some lastIndex ∧
      entry.call.source.index.lookup path = some sourceAttributes ∧
      sourceAttributes.type ≠ .directory ∧ sourceAttributes.size ≠ 0 ∧
      takenOverFrom runtime entry.call.hashAlgorithm last entry.call.source path
        sourceAttributes = some (oldPath, old) ∧
      lastIndex.lookup oldPath = some old ∧ attributes.hashes = old.hashes ∧
      parentPath path attributes = if oldPath = path then parentPath path old else oldPath := by
  have nonempty : attributes.blocks ≠ [] := by
    intro empty
    rw [described_has_data described empty] at without
    cases without
  have content : attributes.type ≠ .directory ∧ attributes.size ≠ 0 := by
    cases described with
    | directory isDirectory size undigested =>
        simp [BackupNodeAttributes.hasNodeData, size] at without
    | content content records holds =>
        refine ⟨records.isContent, ?_⟩
        intro size
        simp [BackupNodeAttributes.hasNodeData, size] at without
  obtain ⟨created, sourceAttributes, made, _, _, _, sourced, route, rfl⟩ := new_entry_node new found
  have sized : ∀ made : BackupNodeAttributes, (reloaded made).type ≠ .directory →
      (reloaded made).size = made.size := by
    intro made isContent
    exact if_neg isContent
  rw [sized made content.1] at content
  have taken : ∀ oldPath old, takenOverFrom runtime entry.call.hashAlgorithm last
      entry.call.source path sourceAttributes = some (oldPath, old) →
      ∃ lastIndex, last = some lastIndex ∧ lastIndex.lookup oldPath = some old := by
    intro oldPath old taken
    cases last with
    | none => cases taken
    | some lastIndex => exact ⟨lastIndex, rfl, (taken_over_from_some taken).1⟩
  cases route with
  | directory isDirectory anew => exact absurd isDirectory content.1
  | stored isContent _ anew blocks ownsBlocks owned inRange present bytes =>
      have blocksNonempty : blocks ≠ [] := nonempty
      simp [BackupNodeAttributes.hasNodeData, reloaded, blocksNonempty, owned blocksNonempty]
        at without
  | inPlace old origin known =>
      obtain ⟨lastIndex, last, present⟩ := taken path old origin
      refine ⟨lastIndex, sourceAttributes, path, old, last, sourced, content.1, content.2, origin,
        present, rfl, ?_⟩
      rw [if_pos rfl]
      apply Eq.trans (parent_path_reloaded _)
      · rfl
      · exact nonempty
  | moved oldPath old different origin _ =>
      obtain ⟨lastIndex, last, present⟩ := taken oldPath old origin
      refine ⟨lastIndex, sourceAttributes, oldPath, old, last, sourced, content.1, content.2,
        origin, present, rfl, ?_⟩
      rw [if_neg different]
      apply Eq.trans (parent_path_reloaded _)
      · rfl
      · exact nonempty

/-- A node without data goes on at the node that it was taken over from, or at the
one that the back reference of that node leads to. -/
theorem new_entry_older {lastIndex : BackupNodeIndex}
    (new : NewEntry runtime (some lastIndex) entry) {attributes older : BackupNodeAttributes}
    (found : entry.index.lookup path = some attributes)
    (described : NodeDescribed runtime held attributes)
    (without : attributes.hasNodeData = false)
    (present : lastIndex.lookup (parentPath path attributes) = some older) :
    attributes.hashes = older.hashes ∨
      ∃ sourceAttributes old target, entry.call.source.index.lookup path = some sourceAttributes ∧
        sourceAttributes.type ≠ .directory ∧ sourceAttributes.size ≠ 0 ∧
        takenOverFrom runtime entry.call.hashAlgorithm (some lastIndex) entry.call.source path
          sourceAttributes = some (path, old) ∧
        attributes.hashes = old.hashes ∧ old.backReferenceTarget = some target ∧
        lastIndex.lookup target = some older := by
  obtain ⟨last, sourceAttributes, oldPath, old, sameLast, sourced, isContent, nonempty, taken,
    oldPresent, hashes, parent⟩ := new_entry_reference new found described without
  cases sameLast
  rw [parent] at present
  by_cases inPlace : oldPath = path
  · subst inPlace
    rw [if_pos rfl, parentPath] at present
    cases reference : old.backReferenceTarget with
    | none =>
        simp only [reference, oldPresent, Option.some.injEq] at present
        exact .inl (present ▸ hashes)
    | some target =>
        simp only [reference] at present
        exact .inr ⟨sourceAttributes, old, target, sourced, isContent, nonempty, taken, hashes,
          reference, present⟩
  · rw [if_neg inPlace, oldPresent, Option.some.injEq] at present
    exact .inl (present ▸ hashes)

/-- A file or link that is taken over in place goes on where the older node
would go on. -/
theorem new_entry_in_place {lastIndex : BackupNodeIndex}
    (new : NewEntry runtime (some lastIndex) entry)
    (described : ∀ attributes, entry.index.lookup path = some attributes →
      NodeDescribed runtime held attributes)
    {sourceAttributes : FileSystemNodeAttributes} {old : BackupNodeAttributes}
    (sourced : entry.call.source.index.lookup path = some sourceAttributes)
    (isContent : sourceAttributes.type ≠ .directory) (nonempty : sourceAttributes.size ≠ 0)
    (taken : takenOverFrom runtime entry.call.hashAlgorithm (some lastIndex) entry.call.source
      path sourceAttributes = some (path, old)) :
    ∃ attributes, entry.index.lookup path = some attributes ∧
      attributes.hasNodeData = false ∧ attributes.hashes = old.hashes ∧
      parentPath path attributes = parentPath path old := by
  obtain ⟨attributes, found⟩ := new_entry_lookup new sourced
  obtain ⟨created, otherSource, made, _, _, _, otherSourced, route, rfl⟩ :=
    new_entry_node new found
  rw [sourced] at otherSourced
  cases otherSourced
  have made : made = { old.copyFrom sourceAttributes with ownsBlocks := false } := by
    cases route with
    | directory isDirectory anew => exact absurd isDirectory isContent
    | stored _ _ anew =>
        rw [anew] at taken
        cases taken
    | inPlace other otherTaken known =>
        rw [otherTaken] at taken
        cases taken
        rfl
    | moved oldPath other different otherTaken _ =>
        rw [otherTaken] at taken
        cases taken
        exact absurd rfl different
  subst made
  have without : (reloaded { old.copyFrom sourceAttributes with ownsBlocks := false }).hasNodeData =
      false :=
    reloaded_without_data rfl isContent nonempty
  have blocksNonempty : old.blocks ≠ [] := by
    intro empty
    rw [described_has_data (described _ found) empty] at without
    cases without
  refine ⟨_, found, without, rfl, ?_⟩
  exact parent_path_reloaded blocksNonempty

end References

section Runs

variable {runtime : Runtime} {algorithm : HashAlgorithm}

def sameDigest (algorithm : HashAlgorithm) (node older : BackupNodeAttributes) : Prop :=
  node.hashes algorithm = older.hashes algorithm

theorem same_digest_equivalence (algorithm : HashAlgorithm) :
    Equivalence (sameDigest algorithm) where
  refl _ := rfl
  symm same := Eq.symm same
  trans first second := Eq.trans first second

/-- `FindDataSnapshot` finds the data of every file and link of every snapshot,
with the digest that the snapshot recorded. -/
def DataFound (algorithm : HashAlgorithm) (snapshots : List Snapshot) : Prop :=
  ∀ newer snapshot previous, snapshots = newer ++ snapshot :: previous →
    ∀ node path attributes, snapshot.index.nodes[node]? = some (path, attributes) →
      attributes.type ≠ .directory →
        ∃ found dataAttributes digest, findDataSnapshot snapshot previous node = .ok found ∧
          found.snapshot.index.lookup found.path = some dataAttributes ∧
          dataAttributes.hasNodeData = true ∧ attributes.hashes algorithm = some digest ∧
          dataAttributes.hashes algorithm = some digest

/-- A file or link with content that is taken over in place either has no back
reference, or one that leads to its digest in the last snapshot as well. -/
def ReferencesCurrent (runtime : Runtime) (last : BackupNodeIndex) (call : Call) : Prop :=
  ∀ path attributes old target, call.source.index.lookup path = some attributes →
    attributes.type ≠ .directory → attributes.size ≠ 0 →
    takenOverFrom runtime call.hashAlgorithm (some last) call.source path attributes =
      some (path, old) →
    old.backReferenceTarget = some target →
      ∃ other, last.lookup target = some other ∧
        other.hashes call.hashAlgorithm = old.hashes call.hashAlgorithm

def HistoryCurrent (runtime : Runtime) : Chain → Prop
  | [] => True
  | [_] => True
  | entry :: last :: older =>
      ReferencesCurrent runtime last.index entry.call ∧ HistoryCurrent runtime (last :: older)

/-- One call in order: every node without data of the new snapshot has its digest
where it goes on, if and only if the call took over current references. -/
theorem references_current_iff {lastIndex : BackupNodeIndex} {entry : Entry}
    (new : NewEntry runtime (some lastIndex) entry)
    (described : Described runtime (fun _ _ => True) entry.index) :
    (∀ path node, entry.index.lookup path = some node → node.hasNodeData = false →
      ∃ older, lastIndex.lookup (parentPath path node) = some older ∧
        sameDigest entry.call.hashAlgorithm node older) ↔
      ReferencesCurrent runtime lastIndex entry.call := by
  constructor
  · intro linked path sourceAttributes old target sourced isContent nonempty taken reference
    obtain ⟨attributes, found, without, hashes, parent⟩ := new_entry_in_place new
      (described path) sourced isContent nonempty taken
    obtain ⟨older, present, same⟩ := linked path attributes found without
    have leads : parentPath path old = target := by
      rw [parentPath, reference]
    rw [parent, leads] at present
    refine ⟨older, present, ?_⟩
    rw [← same, hashes]
  · intro current path node found without
    obtain ⟨last, sourceAttributes, oldPath, old, sameLast, sourced, isContent, nonempty, taken,
      present, hashes, parent⟩ := new_entry_reference new found (described path node found) without
    cases sameLast
    rw [parent]
    by_cases inPlace : oldPath = path
    · subst inPlace
      rw [if_pos rfl]
      cases reference : old.backReferenceTarget with
      | none =>
          have leads : parentPath oldPath old = oldPath := by
            rw [parentPath, reference]
          rw [leads]
          exact ⟨old, present, congrFun hashes _⟩
      | some target =>
          have leads : parentPath oldPath old = target := by
            rw [parentPath, reference]
          obtain ⟨other, otherPresent, same⟩ := current oldPath sourceAttributes old target
            sourced isContent nonempty taken reference
          rw [leads]
          exact ⟨other, otherPresent, (congrFun hashes _).trans same.symm⟩
    · rw [if_neg inPlace]
      exact ⟨old, present, congrFun hashes _⟩

/-- Snapshots are named in the order of their creation, with one algorithm. -/
def Orderly (algorithm : HashAlgorithm) (past : List Call) (call : Call) : Prop :=
  InOrder past call ∧ call.hashAlgorithm = algorithm

theorem linked_iff_current (collisionFree : CollisionFree runtime algorithm) {chain : Chain}
    (reachable : (backups runtime).Reachable (after (Orderly algorithm)) chain) :
    nodeLinkage.Linked (sameDigest algorithm) (layers (chain.map Entry.snapshot)) ↔
      HistoryCurrent runtime chain := by
  induction reachable with
  | start => exact Iff.rfl
  | @step before next call earlier permitted taken induction =>
      have reached : (backups runtime).Reachable (after (Orderly algorithm)) next :=
        .step earlier permitted taken
      have free : ∀ chain call, after (Orderly algorithm) chain call →
          CollisionFree runtime call.hashAlgorithm := by
        intro chain call orderly
        rw [orderly.2]
        exact collisionFree
      have described := described_reachable free reached
      obtain ⟨entry, rfl, new, rfl⟩ := add_snapshot_some taken
      rw [insert_entry_in_order permitted.1] at described ⊢
      have entryDescribed := described entry (List.mem_cons_self ..)
      cases before with
      | nil =>
          simp only [List.map_cons, List.map_nil, layers, Linkage.Linked, HistoryCurrent, iff_true]
          intro path node found
          cases owns : node.hasNodeData with
          | true => exact owns
          | false =>
              obtain ⟨_, _, _, _, last, _⟩ :=
                new_entry_reference new found (entryDescribed path node found) owns
              cases last
      | cons last older =>
          have first := references_current_iff new entryDescribed
          rw [permitted.2] at first
          exact and_congr first induction

theorem first_backup_unreferenced {first : Call} {chain : Chain}
    (taken : addSnapshot runtime [] first = some chain) {last : BackupNodeIndex}
    (newest : lastIndex chain = some last) {path : Path} {attributes : BackupNodeAttributes}
    (present : last.lookup path = some attributes) : attributes.backReferenceTarget = none := by
  obtain ⟨entry, _, new, rfl⟩ := add_snapshot_some taken
  cases newest
  exact first_entry_unreferenced new present

/-- What every call keeps between its nodes and where they go on in the last
snapshot holds along the whole chain. -/
theorem agreeing_entries {related : BackupNodeAttributes → BackupNodeAttributes → Prop}
    {allowed : Chain → Call → Prop}
    (collisionFree : ∀ chain call, allowed chain call → CollisionFree runtime call.hashAlgorithm)
    (inOrder : ∀ chain call, allowed chain call → InOrder (calls chain) call)
    (kept : ∀ chain last entry, lastIndex chain = some last → allowed chain entry.call →
      NewEntry runtime (some last) entry → Described runtime (fun _ _ => True) entry.index →
      ∀ path node older, entry.index.lookup path = some node → node.hasNodeData = false →
        last.lookup (parentPath path node) = some older → related node older)
    {chain : Chain} (reachable : (backups runtime).Reachable allowed chain) :
    nodeLinkage.Agreeing related (layers (chain.map Entry.snapshot)) := by
  induction reachable with
  | start => trivial
  | @step before next call earlier permitted taken induction =>
      have reached : (backups runtime).Reachable allowed next := .step earlier permitted taken
      have described := described_reachable collisionFree reached
      obtain ⟨entry, rfl, new, rfl⟩ := add_snapshot_some taken
      rw [insert_entry_in_order (inOrder _ _ permitted)] at described ⊢
      cases before with
      | nil => trivial
      | cons last older =>
          refine ⟨?_, induction⟩
          intro path node older found without present
          exact kept _ last.index entry rfl permitted new (described entry (List.mem_cons_self ..))
            path node older found without present

theorem layers_split {snapshots : List Snapshot} {newer below : List (Layer Path BackupNodeAttributes)}
    {layer : Layer Path BackupNodeAttributes} (parts : layers snapshots = newer ++ layer :: below) :
    ∃ front snapshot previous, snapshots = front ++ snapshot :: previous ∧
      layer = snapshot.index.lookup ∧ below = layers previous := by
  obtain ⟨front, rest, whole, _, tail⟩ := List.map_eq_append_iff.mp parts
  obtain ⟨snapshot, previous, split, head, older⟩ := List.map_eq_cons_iff.mp tail
  rw [split] at whole
  exact ⟨front, snapshot, previous, whole, head.symm, older.symm⟩

/-- In every history the data of every file and link is found, if and only if no
call took over a back reference that leads elsewhere in the last snapshot. -/
theorem data_found_iff_history_current (runtime : Runtime) (algorithm : HashAlgorithm)
    (collisionFree : CollisionFree runtime algorithm) (chain : Chain)
    (reachable : (backups runtime).Reachable (after (Orderly algorithm)) chain) :
    DataFound algorithm (chain.map Entry.snapshot) ↔ HistoryCurrent runtime chain := by
  have free : ∀ chain call, after (Orderly algorithm) chain call →
      CollisionFree runtime call.hashAlgorithm := by
    intro chain call orderly
    rw [orderly.2]
    exact collisionFree
  have described := described_reachable free reachable
  have digested := digested_reachable (fun _ _ orderly => orderly.2) reachable
  rw [← linked_iff_current collisionFree reachable,
    ← Linkage.resolved_iff_linked (same_digest_equivalence algorithm), Linkage.resolved_iff]
  constructor
  · intro dataFound newer layer below parts path attributes present
    obtain ⟨front, snapshot, previous, whole, rfl, rfl⟩ := layers_split parts
    have member : snapshot ∈ chain.map Entry.snapshot := by
      rw [whole]
      exact List.mem_append_right _ (List.mem_cons_self ..)
    obtain ⟨entry, inChain, same⟩ := List.mem_map.mp member
    subst same
    cases described entry inChain path attributes present with
    | directory isDirectory size undigested =>
        have owns : attributes.hasNodeData = true := by
          simp [BackupNodeAttributes.hasNodeData, size]
        exact ⟨_, Linkage.follow_owned present owns, rfl⟩
    | content content records holds =>
        obtain ⟨node, _, nodeEntry⟩ := NodeIndex.get_node_index_of_lookup present
        obtain ⟨found, dataAttributes, digest, search, dataPresent, _, recorded, dataRecorded⟩ :=
          dataFound front _ previous whole node path attributes nodeEntry records.isContent
        obtain ⟨other, otherPresent, _, followed⟩ := find_data_snapshot_owner nodeEntry search
        rw [dataPresent] at otherPresent
        cases otherPresent
        exact ⟨_, followed, recorded.trans dataRecorded.symm⟩
  · intro resolved newer snapshot previous whole node path attributes nodeEntry isContent
    have member : snapshot ∈ chain.map Entry.snapshot := by
      rw [whole]
      exact List.mem_append_right _ (List.mem_cons_self ..)
    obtain ⟨entry, inChain, same⟩ := List.mem_map.mp member
    subst same
    have present : entry.snapshot.index.lookup path = some attributes :=
      NodeIndex.lookup_of_get nodeEntry
    have parts : layers (chain.map Entry.snapshot) =
        layers newer ++ entry.snapshot.index.lookup :: layers previous := by
      rw [whole, layers, List.map_append, List.map_cons]
      rfl
    obtain ⟨owner, followed, sameHash⟩ :=
      resolved (layers newer) entry.snapshot.index.lookup (layers previous) parts path attributes
        present
    obtain ⟨owns, layer, position, ownerPresent⟩ := Linkage.follow_owner followed
    have snapshots : (layers (entry.snapshot :: previous))[owner.distance]? = some layer := position
    rw [layers, List.getElem?_map, Option.map_eq_some_iff] at snapshots
    obtain ⟨ownerSnapshot, ownerPosition, rfl⟩ := snapshots
    obtain ⟨digest, recorded⟩ := digested entry inChain path attributes present isContent
    refine ⟨⟨owner.distance, ownerSnapshot, owner.key⟩, owner.node, digest, ?_, ownerPresent, owns,
      recorded, ?_⟩
    · rw [find_data_snapshot_ok nodeEntry]
      exact ⟨ownerPosition, owner.node, followed⟩
    · rw [← sameHash]
      exact recorded

section MovedFile

/-! A file is backed up, then moved, and then left alone. The third snapshot
takes over the back reference of the second one, which leads to a path that the
second snapshot does not have. -/

def unchangedBackup : Call := callOf "snapshot_3" [movedFile] []

theorem moved_file_found :
    ∃ chain, (backups spellingRuntime).run [] [firstBackup, moveBackup] = some chain ∧
      DataFound .md5 (chain.map Entry.snapshot) := by
  have outcome : ((backups spellingRuntime).run [] [firstBackup, moveBackup]).map
      (fun chain => chain.map fun entry =>
        entry.index.nodes.map fun node => node.2.backReferenceTarget) =
          some [[some storedFile.path], [none]] := by decide +kernel
  obtain ⟨chain, run, references⟩ := Option.map_eq_some_iff.mp outcome
  have permitted : Permitted (Orderly .md5) [] [firstBackup, moveBackup] := by
    refine ⟨⟨?_, rfl⟩, ⟨?_, rfl⟩, trivial⟩ <;> decide +kernel
  obtain ⟨reachable, _⟩ := run_in_order (fun _ _ orderly => orderly.1) _ .start run permitted
  have free := spelling_collision_free .md5
  refine ⟨chain, run, ?_⟩
  apply (data_found_iff_history_current spellingRuntime .md5 free chain reachable).mpr
  obtain ⟨entry, rest, rfl, _, references⟩ := List.map_eq_cons_iff.mp references
  obtain ⟨last, rest, rfl, none, references⟩ := List.map_eq_cons_iff.mp references
  cases List.map_eq_nil_iff.mp references
  refine ⟨?_, trivial⟩
  intro path attributes old target _ _ _ taken reference
  have present := (taken_over_from_some taken).1
  have member := List.mem_map_of_mem (f := fun node => node.2.backReferenceTarget)
    ((NodeIndex.lookup_eq_some _ _ _).mp present)
  rw [none, List.mem_singleton, reference] at member
  cases member

def newestFault (chain : Chain) (node : Nat) : Option Fault :=
  match chain with
  | [] => none
  | newest :: older =>
      match findDataSnapshot newest.snapshot (older.map Entry.snapshot) node with
      | .ok _ => none
      | .error fault => some fault

theorem newest_fault {newest : Entry} {older : Chain} {node : Nat} {fault : Fault}
    (failed : newestFault (newest :: older) node = some fault) :
    findDataSnapshot newest.snapshot (older.map Entry.snapshot) node = .error fault := by
  simp only [newestFault] at failed
  cases search : findDataSnapshot newest.snapshot (older.map Entry.snapshot) node with
  | ok found => simp [search] at failed
  | error raised =>
      simp only [search, Option.some.injEq] at failed
      rw [failed]

/-- `FindDataSnapshot` looks up a path that the snapshot before does not have. -/
theorem unchanged_moved_file_lost :
    ∃ chain, (backups spellingRuntime).Reachable
        (after fun past call => Orderly .md5 past call ∧ ContentKept past call) chain ∧
      CollisionFree spellingRuntime .md5 ∧
      ∃ snapshot previous attributes, chain.map Entry.snapshot = snapshot :: previous ∧
        snapshot.index.nodes[0]? = some (movedFile.path, attributes) ∧ attributes.type = .file ∧
        findDataSnapshot snapshot previous 0 = .error .missingKey ∧
        ¬DataFound .md5 (chain.map Entry.snapshot) := by
  have outcome : ((backups spellingRuntime).run [] [firstBackup, moveBackup, unchangedBackup]).map
      (fun chain =>
        ((chain.head?.bind fun entry => entry.index.nodes[0]?).map fun node =>
          (node.1, node.2.type), newestFault chain 0)) =
        some (some (movedFile.path, .file), some .missingKey) := by decide +kernel
  obtain ⟨chain, run, facts⟩ := Option.map_eq_some_iff.mp outcome
  have permitted : Permitted (fun past call => Orderly .md5 past call ∧ ContentKept past call) []
      [firstBackup, moveBackup, unchangedBackup] := by
    refine ⟨⟨⟨?_, rfl⟩, ?_⟩, ⟨⟨?_, rfl⟩, ?_⟩, ⟨⟨?_, rfl⟩, ?_⟩, trivial⟩ <;> decide +kernel
  obtain ⟨reachable, _⟩ := run_in_order (fun _ _ allowed => allowed.1.1) _ .start run permitted
  refine ⟨chain, reachable, spelling_collision_free _, ?_⟩
  cases chain with
  | nil => simp at facts
  | cons newest older =>
      simp only [List.head?_cons, Option.bind_some, Prod.mk.injEq, Option.map_eq_some_iff] at facts
      obtain ⟨⟨⟨path, attributes⟩, entry, same⟩, failed⟩ := facts
      obtain ⟨rfl, type⟩ := same
      have search := newest_fault failed
      refine ⟨newest.snapshot, older.map Entry.snapshot, attributes, rfl, entry, type, search, ?_⟩
      intro dataFound
      have isFile : attributes.type = .file := type
      have isContent : attributes.type ≠ .directory := by simp [isFile]
      obtain ⟨found, _, _, succeeded, _⟩ :=
        dataFound [] newest.snapshot (older.map Entry.snapshot) rfl 0 _ attributes entry isContent
      rw [search] at succeeded
      cases succeeded

end MovedFile

end Runs

end ACBackup.DataResolution
