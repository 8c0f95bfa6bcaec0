import ACBackup.SnapshotPlan

/-!
The index that `AddSnapshot` writes, node by node. It has the paths of the
source, and each node is what its route makes of it.
-/

namespace ACBackup.SnapshotNodes

open ACBackup.Library.Outcome ACBackup.Library.Transition
open ACBackup.Platform ACBackup.NodeAttributes ACBackup.Indexing ACBackup.IndexSerialization
open ACBackup.VolumeReading ACBackup.VolumeWriting ACBackup.VolumeInvariant
open ACBackup.VolumeRoundTrip ACBackup.SnapshotCreation ACBackup.SnapshotPlan

set_option autoImplicit false

theorem add_planned_nodes {planned : List PlannedNode}
    (nodup : (planned.map PlannedNode.path).Nodup) :
    (addPlanned planned).nodes = planned.map fun node => (node.path, node.attributes) := by
  have fresh : ((NodeIndex.empty : BackupNodeIndex).nodes.map Prod.fst ++
      (planned.map fun node => (node.path, node.attributes)).map Prod.fst).Nodup := by
    rw [List.map_map]
    exact nodup
  have added := add_nodes_fresh _ NodeIndex.empty fresh
  rw [List.foldl_map] at added
  exact added

section Completion

variable {runtime : Runtime} {algorithm : HashAlgorithm} {index next : BackupNodeIndex}
  {node : PlannedNode}

theorem add_hash_value_ok {attributes completed : BackupNodeAttributes} {hashValue : String}
    (run : attributes.addHashValue algorithm hashValue = .ok completed) :
    completed =
      { attributes with
        hashes := Function.update attributes.hashes algorithm (some hashValue) } := by
  unfold BackupNodeAttributes.addHashValue at run
  split at run
  · split at run
    · cases run
      rfl
    · cases run
  · cases run
    rfl

theorem complete_node_ok (run : completeNode runtime algorithm index node = .ok next) :
    (node.stored = none ∧ next = index) ∨
      ∃ stream old new, node.stored = some stream ∧ index.lookup node.path = some old ∧
        completeAttributes runtime algorithm stream old = .ok new ∧
        next = index.modify node.path fun _ => new := by
  unfold completeNode at run
  cases stored : node.stored with
  | none =>
      simp only [stored] at run
      cases run
      exact .inl ⟨rfl, rfl⟩
  | some stream =>
      simp only [stored] at run
      obtain ⟨number, numbered, later⟩ := bind_ok run
      obtain ⟨old, attributes, completion⟩ := bind_ok later
      obtain ⟨new, completed, same⟩ := bind_ok completion
      cases same
      obtain ⟨first, firstEntry⟩ := (NodeIndex.get_node_index_ok _ _ _).mp numbered
      obtain ⟨path, entry⟩ := (NodeIndex.get_node_attributes_ok _ _ _).mp attributes
      rw [entry] at firstEntry
      cases firstEntry
      exact .inr ⟨stream, old, new, rfl, NodeIndex.lookup_of_get entry, completed, rfl⟩

def blockLists (index : BackupNodeIndex) : List (List Block) :=
  index.nodes.map fun entry => entry.2.blocks

theorem block_lists_modify {path : Path} {old new : BackupNodeAttributes}
    (found : index.lookup path = some old) (same : new.blocks = old.blocks) :
    blockLists (index.modify path fun _ => new) = blockLists index := by
  unfold blockLists NodeIndex.modify
  rw [List.map_map]
  apply List.map_congr_left
  intro entry member
  by_cases matching : entry.1 = path
  · have present : index.lookup path = some entry.2 := by
      rw [NodeIndex.lookup_eq_some, ← matching]
      exact member
    rw [found] at present
    cases present
    simp only [Function.comp_apply, if_pos matching, same]
  · simp only [Function.comp_apply, if_neg matching]

structure Completed (runtime : Runtime) (algorithm : HashAlgorithm) (planned : List PlannedNode)
    (before after : BackupNodeIndex) : Prop where
  paths : after.nodes.map Prod.fst = before.nodes.map Prod.fst
  blocks : blockLists after = blockLists before
  others : ∀ path, path ∉ planned.map PlannedNode.path → after.lookup path = before.lookup path
  untouched : ∀ node ∈ planned, node.stored = none →
    after.lookup node.path = before.lookup node.path
  completed : ∀ node ∈ planned, ∀ stream, node.stored = some stream →
    ∃ old new, before.lookup node.path = some old ∧
      completeAttributes runtime algorithm stream old = .ok new ∧
      after.lookup node.path = some new

theorem completed_nodes {planned : List PlannedNode} {before after : BackupNodeIndex}
    (nodup : (planned.map PlannedNode.path).Nodup)
    (run : planned.foldlM (completeNode runtime algorithm) before = .ok after) :
    Completed runtime algorithm planned before after := by
  induction planned generalizing before with
  | nil =>
      cases run
      exact
        { paths := rfl
          blocks := rfl
          others := fun _ _ => rfl
          untouched := fun _ member => by cases member
          completed := fun _ member => by cases member }
  | cons first rest induction =>
      rw [List.foldlM_cons] at run
      obtain ⟨middle, step, later⟩ := bind_ok run
      obtain ⟨absent, nodupRest⟩ := List.nodup_cons.mp nodup
      have tail := induction nodupRest later
      have restPaths : ∀ node ∈ rest, node.path ≠ first.path := by
        intro node member same
        exact absent (same ▸ List.mem_map_of_mem member)
      rcases complete_node_ok step with ⟨none, rfl⟩ | ⟨stream, old, new, stored, found, completion, rfl⟩
      · refine ⟨tail.paths, tail.blocks, ?_, ?_, ?_⟩
        · intro path outside
          exact tail.others path fun inside => outside (List.mem_cons_of_mem _ inside)
        · intro node member unstored
          rcases List.mem_cons.mp member with same | inside
          · rw [same]
            exact tail.others first.path absent
          · exact tail.untouched node inside unstored
        · intro node member stream stored
          rcases List.mem_cons.mp member with same | inside
          · rw [same, none] at stored
            cases stored
          · exact tail.completed node inside stream stored
      · have kept : ∀ path, path ≠ first.path →
            (before.modify first.path fun _ => new).lookup path = before.lookup path := by
          intro path different
          rw [NodeIndex.lookup_modify, if_neg different]
        have blocks : new.blocks = old.blocks := by
          rw [add_hash_value_ok completion]
        refine ⟨?_, ?_, ?_, ?_, ?_⟩
        · rw [tail.paths, NodeIndex.modify_paths]
        · rw [tail.blocks, block_lists_modify found blocks]
        · intro path outside
          rw [tail.others path fun inside => outside (List.mem_cons_of_mem _ inside)]
          exact kept path fun same => outside (same ▸ List.mem_cons_self ..)
        · intro node member unstored
          rcases List.mem_cons.mp member with same | inside
          · rw [same, stored] at unstored
            cases unstored
          · rw [tail.untouched node inside unstored]
            exact kept node.path (restPaths node inside)
        · intro node member otherStream otherStored
          rcases List.mem_cons.mp member with same | inside
          · subst same
            rw [stored] at otherStored
            cases otherStored
            refine ⟨old, new, found, completion, ?_⟩
            rw [tail.others node.path absent, NodeIndex.lookup_modify, if_pos rfl, found,
              Option.map_some]
          · obtain ⟨otherOld, otherNew, otherFound, facts⟩ :=
              tail.completed node inside otherStream otherStored
            rw [kept node.path (restPaths node inside)] at otherFound
            exact ⟨otherOld, otherNew, otherFound, facts⟩

end Completion

/-- A node of the index as it is serialised, with the route that led to it. -/
inductive NodeCreated (runtime : Runtime) (last : Option BackupNodeIndex) (call : Call)
    (created : Created) (path : Path) (attributes : FileSystemNodeAttributes) :
    BackupNodeAttributes → Prop
  | directory (isDirectory : attributes.type = .directory)
      (anew : takenOverFrom runtime call.hashAlgorithm last call.source path attributes = none) :
      NodeCreated runtime last call created path attributes
        (.ofFileSystemNodeAttributes (call.uninitialised path) attributes)
  | stored (isContent : attributes.type ≠ .directory)
      (sized : (call.source.content path).length = attributes.size)
      (anew : takenOverFrom runtime call.hashAlgorithm last call.source path attributes = none)
      (blocks : List Block) (ownsBlocks : Bool) (owned : blocks ≠ [] → ownsBlocks = true)
      (inRange : InRange (openForReading created.files (created.index.mapAttributes reloaded))
        blocks)
      (present : AllPresent created.files blocks)
      (bytes : storedBytes created.files blocks =
        (storeContent runtime (compressionLevel call path attributes)
          (call.source.content path)).bytes) :
      NodeCreated runtime last call created path attributes
        { toFileSystemNodeAttributes := attributes
          ownsBlocks := ownsBlocks
          compressionSetting :=
            (storeContent runtime (compressionLevel call path attributes)
              (call.source.content path)).compressionSetting
          backReferenceTarget := none
          blocks := blocks
          hashes := Function.update (fun _ => none) call.hashAlgorithm
            (some (runtime.hash call.hashAlgorithm (call.source.content path))) }
  | inPlace (old : BackupNodeAttributes)
      (taken : takenOverFrom runtime call.hashAlgorithm last call.source path attributes =
        some (path, old))
      (known : attributes.equals old.toFileSystemNodeAttributes = true ∨
        (call.source.content path).length = attributes.size) :
      NodeCreated runtime last call created path attributes
        { old.copyFrom attributes with ownsBlocks := false }
  | moved (oldPath : Path) (old : BackupNodeAttributes) (different : oldPath ≠ path)
      (taken : takenOverFrom runtime call.hashAlgorithm last call.source path attributes =
        some (oldPath, old))
      (sized : (call.source.content path).length = attributes.size) :
      NodeCreated runtime last call created path attributes
        { old.copyFrom attributes with
          ownsBlocks := false
          backReferenceTarget := some oldPath }

structure SnapshotCreated (runtime : Runtime) (last : Option BackupNodeIndex) (call : Call)
    (created : Created) : Prop where
  paths : (created.index.nodes.map Prod.fst).Perm (call.source.index.nodes.map Prod.fst)
  nodes : ∀ path new, created.index.lookup path = some new →
    ∃ attributes, call.source.index.lookup path = some attributes ∧
      NodeCreated runtime last call created path attributes new

theorem create_snapshot_some {runtime : Runtime} {last : Option BackupNodeIndex} {call : Call}
    {created : Created} (run : createSnapshot runtime last call = some created) :
    ∃ planned state, planSnapshot runtime last call = .ok planned ∧
      (writing call.volumeSize (addPlanned planned)).run
        (openFileSystem (addPlanned planned)) call.volumeSteps = some state ∧
      (∀ node ∈ planned, streamWritten state node = true) ∧
      planned.foldlM (completeNode runtime call.hashAlgorithm) state.index = .ok created.index ∧
      created.files = state.files := by
  unfold createSnapshot at run
  cases plan : planSnapshot runtime last call with
  | error fault => simp [plan] at run
  | ok planned =>
      simp only [plan] at run
      cases writes : (writing call.volumeSize (addPlanned planned)).run
          (openFileSystem (addPlanned planned)) call.volumeSteps with
      | none => simp [writes] at run
      | some state =>
          simp only [writes] at run
          by_cases written : planned.all (streamWritten state) = true
          · rw [if_pos written] at run
            cases completion : planned.foldlM (completeNode runtime call.hashAlgorithm)
                state.index with
            | error fault => simp [completion] at run
            | ok index =>
                simp only [completion, Option.some.injEq] at run
                subst run
                exact ⟨planned, state, rfl, writes, List.all_eq_true.mp written, completion, rfl⟩
          · rw [if_neg written] at run
            cases run

theorem volume_numbers_of_block_lists {left right : BackupNodeIndex}
    (same : blockLists left = blockLists right) : volumeNumbers left = volumeNumbers right := by
  have flat : ∀ index : BackupNodeIndex, volumeNumbers index =
      (blockLists index).flatMap fun blocks => blocks.map Block.volumeNumber := by
    intro index
    unfold volumeNumbers blockLists
    rw [List.flatMap_map]
  rw [flat, flat, same]

theorem block_lists_reloaded (index : BackupNodeIndex) :
    blockLists (index.mapAttributes reloaded) = blockLists index := by
  unfold blockLists NodeIndex.mapAttributes
  rw [List.map_map]
  rfl

section Created

variable {runtime : Runtime} {last : Option BackupNodeIndex} {call : Call}
  {planned : List PlannedNode} {state : WriteState} {created : Created}

theorem streams_closed (grown : Grown (addPlanned planned) state) (consistent : Consistent state)
    (nodup : (planned.map PlannedNode.path).Nodup)
    (written : ∀ node ∈ planned, streamWritten state node = true) : AllClosed state := by
  intro path
  by_cases absent : state.writers path = .absent
  · exact .inl absent
  · obtain ⟨attributes, found, _⟩ := (consistent.writer path).stored absent
    have member : path ∈ state.index.nodes.map Prod.fst := by
      by_contra outside
      rw [← NodeIndex.lookup_eq_none, found] at outside
      cases outside
    rw [grown.paths, add_planned_nodes nodup, List.map_map] at member
    obtain ⟨node, inside, rfl⟩ := List.mem_map.mp member
    have closed := written node inside
    unfold streamWritten at closed
    cases stored : node.stored with
    | none =>
        simp only [stored, decide_eq_true_eq] at closed
        exact .inl closed
    | some stream =>
        simp only [stored, Bool.and_eq_true, decide_eq_true_eq] at closed
        exact .inr closed.1

/-- A node that was stored, as it stands after its stream was written. -/
theorem stored_node_created (grown : Grown (addPlanned planned) state)
    (consistent : Consistent state) (allClosed : AllClosed state)
    (completed : Completed runtime call.hashAlgorithm planned state.index created.index)
    (files : created.files = state.files) {path : Path} {attributes : FileSystemNodeAttributes}
    (isContent : attributes.type ≠ .directory)
    (sized : (call.source.content path).length = attributes.size)
    (anew : takenOverFrom runtime call.hashAlgorithm last call.source path attributes = none)
    {node : PlannedNode} (member : node ∈ planned) (samePath : node.path = path)
    (initial : (addPlanned planned).lookup path =
      some (.ofFileSystemNodeAttributes (call.uninitialised path) attributes))
    (stored : node.stored = some (storeContent runtime (compressionLevel call path attributes)
      (call.source.content path)))
    (written : streamWritten state node = true) {new : BackupNodeAttributes}
    (found : created.index.lookup path = some new) :
    NodeCreated runtime last call created path attributes new := by
  simp only [streamWritten, stored, samePath, Bool.and_eq_true, decide_eq_true_eq] at written
  obtain ⟨old, other, before, completion, after⟩ := completed.completed node member _ stored
  rw [samePath] at before after
  rw [found] at after
  cases after
  obtain ⟨blocks, ownsBlocks, current, _⟩ := grown.extended path _ initial
  rw [before] at current
  cases current
  obtain ⟨closedAttributes, closedFound, owned, inRange, present, bytes⟩ :=
    closed_writer_stored consistent allClosed written.1
  rw [before] at closedFound
  cases closedFound
  have volumes : volumeNumbers (created.index.mapAttributes reloaded) =
      volumeNumbers (state.index.mapAttributes reloaded) := by
    apply volume_numbers_of_block_lists
    rw [block_lists_reloaded, block_lists_reloaded, completed.blocks]
  rw [add_hash_value_ok completion]
  have setting : ∀ stream : StoredStream,
      stream.compressionSetting.or none = stream.compressionSetting := by
    intro stream
    exact Option.or_none
  have content : ∀ level, (storeContent runtime level (call.source.content path)).content =
      call.source.content path := by
    intro level
    cases level <;> rfl
  simp only [BackupNodeAttributes.ofFileSystemNodeAttributes, setting, content]
  apply NodeCreated.stored isContent sized anew
  · exact owned
  · intro block inside
    have below := inRange block inside
    simp only [openForReading, volumes] at below ⊢
    exact below
  · rw [files]
    exact present
  · rw [files, bytes, written.2]

theorem snapshot_created (run : createSnapshot runtime last call = some created) :
    SnapshotCreated runtime last call created := by
  obtain ⟨planned, state, plan, writes, written, completion, files⟩ := create_snapshot_some run
  have spec := snapshot_planned plan
  have nodup : (planned.map PlannedNode.path).Nodup :=
    spec.paths.nodup_iff.mpr call.source.index.unique
  have reachable := System.reachable_of_run call.volumeSteps writes
  have grown := grown_reachable reachable
  have consistent := consistent_reachable reachable
  have allClosed := streams_closed grown consistent nodup written
  have completed := completed_nodes nodup completion
  have planPaths : created.index.nodes.map Prod.fst = planned.map PlannedNode.path := by
    rw [completed.paths, grown.paths, add_planned_nodes nodup, List.map_map]
    rfl
  refine ⟨planPaths ▸ spec.paths, ?_⟩
  intro path new found
  have member : path ∈ planned.map PlannedNode.path := by
    rw [← planPaths]
    by_contra outside
    rw [← NodeIndex.lookup_eq_none, found] at outside
    cases outside
  obtain ⟨node, inside, rfl⟩ := List.mem_map.mp member
  obtain ⟨attributes, sourced, route⟩ := spec.nodes node inside
  have initial : (addPlanned planned).lookup node.path = some node.attributes := by
    rw [NodeIndex.lookup_eq_some, add_planned_nodes nodup]
    exact List.mem_map_of_mem (f := fun node => (node.path, node.attributes)) inside
  have unstored : node.stored = none → new = node.attributes := by
    intro none
    have absent := written node inside
    simp only [streamWritten, none, decide_eq_true_eq] at absent
    rw [completed.untouched node inside none, grown.untouched node.path absent, initial] at found
    exact (Option.some.inj found).symm
  refine ⟨attributes, sourced, ?_⟩
  generalize samePath : node.path = path at *
  cases route with
  | directory isDirectory anew =>
      rw [unstored rfl]
      exact .directory isDirectory anew
  | stored isContent sized anew =>
      exact stored_node_created grown consistent allClosed completed files isContent sized anew
        inside rfl initial rfl (written _ inside) found
  | inPlace old taken known =>
      rw [unstored rfl]
      exact .inPlace old taken known
  | moved oldPath old different taken sized =>
      rw [unstored rfl]
      exact .moved oldPath old different taken sized

end Created

end ACBackup.SnapshotNodes
