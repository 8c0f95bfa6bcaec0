import ACBackup.SnapshotMirror

/-!
What a new snapshot stores: the contents that the last snapshot does not have,
and nothing else. A writer that is given nothing leaves no block.
-/

namespace ACBackup.IncrementalStorage

open ACBackup.Library.Outcome ACBackup.Library.Transition
open ACBackup.Platform ACBackup.NodeAttributes ACBackup.Indexing ACBackup.IndexSerialization
open ACBackup.OpenVolumes ACBackup.VolumeReading ACBackup.VolumeWriting ACBackup.VolumeInvariant
open ACBackup.SnapshotCreation ACBackup.SnapshotPlan ACBackup.SnapshotNodes
open ACBackup.SnapshotManager ACBackup.RecordedContent ACBackup.SnapshotMirror

set_option autoImplicit false

section Streams

variable {volumeSize : UInt64} {index : BackupNodeIndex} {state next : WriteState}

def Filled (state : WriteState) : Prop :=
  ∀ path number, Uses state path number → state.accepted path ≠ []

theorem accepted_step {label : WriteLabel} (taken : step volumeSize state label = some next)
    {path : Path} (nothing : next.accepted path = []) : state.accepted path = [] := by
  cases label with
  | createFile path =>
      obtain ⟨_, _, rfl⟩ := step_create_file taken
      exact nothing
  | beginWrite writer source =>
      obtain ⟨_, _, rfl⟩ := step_begin_write taken
      by_cases same : path = writer
      · subst same
        simp only [WriteState.setPhase, WriteState.accept, Function.update_self,
          List.append_eq_nil_iff] at nothing
        exact nothing.1
      · simpa only [WriteState.setPhase, WriteState.accept, Function.update_of_ne same]
          using nothing
  | findStream writer =>
      obtain ⟨source, _, _, rfl⟩ := step_find_stream taken
      obtain ⟨_, _, _, _, found⟩ := find_stream_keeps volumeSize state writer
      rw [← nothing, found]
      rfl
  | queryOffset writer =>
      obtain ⟨_, _, _, _, rfl⟩ := step_query_offset taken
      exact nothing
  | writeVolume writer nBytesWritten =>
      obtain ⟨_, _, _, _, _, _, rfl⟩ := step_write_volume taken
      exact nothing
  | bytesWereWritten writer =>
      obtain ⟨source, number, offset, nBytesWritten, recorded, _, outcome, rfl⟩ :=
        step_bytes_were_written taken
      obtain ⟨_, _, rfl⟩ := bytes_were_written_keeps outcome
      exact nothing
  | finishWrite writer =>
      obtain ⟨_, rfl⟩ := step_finish_write taken
      exact nothing
  | closeFile writer =>
      obtain ⟨_, rfl⟩ := step_close_file taken
      exact nothing

private theorem uses_stored {path : Path} {number : Nat} (uses : Uses next path number)
    (index : next.index = state.index) (present : state.writers path ≠ .absent)
    (noStream : streamNumber (next.writers path) = none) : Uses state path number := by
  rcases uses.2 with stream | stored
  · rw [noStream] at stream
    cases stream
  · exact ⟨present, .inr (index ▸ stored)⟩

private theorem uses_stream {path : Path} {number : Nat}
    (stream : streamNumber (state.writers path) = some number) : Uses state path number := by
  refine ⟨?_, .inl stream⟩
  intro absent
  rw [absent] at stream
  cases stream

theorem uses_step {label : WriteLabel} (taken : step volumeSize state label = some next)
    {path : Path} {number : Nat} (uses : Uses next path number) :
    (∃ other, Uses state path other) ∨
      ∃ source, state.writers path = .looping source ∧ source ≠ [] := by
  by_cases same : path = label.writer
  · subst same
    cases label with
    | createFile path =>
        obtain ⟨_, ⟨attributes, found, empty⟩, rfl⟩ := step_create_file taken
        obtain ⟨_, stream | ⟨known, knownFound, block, member, _⟩⟩ := uses
        · rw [WriteLabel.writer, set_phase_same] at stream
          cases stream
        · have sameAttributes : some attributes = some known := found.symm.trans knownFound
          cases sameAttributes
          rw [empty] at member
          cases member
    | beginWrite writer source =>
        obtain ⟨idle, _, rfl⟩ := step_begin_write taken
        left
        refine ⟨number, uses_stored uses rfl ?_ ?_⟩
        · simp [WriteLabel.writer, idle]
        · rw [WriteLabel.writer, set_phase_same]
          rfl
    | findStream writer =>
        obtain ⟨source, looping, nonempty, _⟩ := step_find_stream taken
        exact .inr ⟨source, looping, nonempty⟩
    | queryOffset writer =>
        obtain ⟨source, other, leftSize, found, _⟩ := step_query_offset taken
        left
        refine ⟨other, uses_stream ?_⟩
        rw [WriteLabel.writer, found]
        rfl
    | writeVolume writer nBytesWritten =>
        obtain ⟨source, other, leftSize, offset, positioned, _, _⟩ := step_write_volume taken
        left
        refine ⟨other, uses_stream ?_⟩
        rw [WriteLabel.writer, positioned]
        rfl
    | bytesWereWritten writer =>
        obtain ⟨source, other, offset, nBytesWritten, recorded, wrote, _, _⟩ :=
          step_bytes_were_written taken
        left
        refine ⟨other, uses_stream ?_⟩
        rw [WriteLabel.writer, wrote]
        rfl
    | finishWrite writer =>
        obtain ⟨finished, rfl⟩ := step_finish_write taken
        left
        refine ⟨number, uses_stored uses rfl ?_ ?_⟩
        · simp [WriteLabel.writer, finished]
        · rw [WriteLabel.writer, set_phase_same]
          rfl
    | closeFile writer =>
        obtain ⟨idle, rfl⟩ := step_close_file taken
        left
        refine ⟨number, uses_stored uses rfl ?_ ?_⟩
        · simp [WriteLabel.writer, idle]
        · rw [WriteLabel.writer, set_phase_same]
          rfl
  · left
    refine ⟨number, ?_⟩
    have lookup : next.index.lookup path = state.index.lookup path := by
      rcases (step_index taken).2 with unchanged | ⟨block, changed⟩
      · rw [unchanged]
      · rw [changed, NodeIndex.lookup_modify, if_neg same]
    unfold Uses at uses ⊢
    rw [← step_other_writers taken same, ← lookup]
    exact uses

theorem filled_step {label : WriteLabel} (consistent : Consistent state) (filled : Filled state)
    (taken : step volumeSize state label = some next) : Filled next := by
  intro path number uses nothing
  have before := accepted_step taken nothing
  rcases uses_step taken uses with ⟨other, used⟩ | ⟨source, looping, nonempty⟩
  · exact filled path other used before
  · have present : state.writers path ≠ .absent := by simp [looping]
    obtain ⟨attributes, _, _, _, contents⟩ := (consistent.writer path).stored present
    rw [looping, before] at contents
    exact nonempty (List.append_eq_nil_iff.mp contents).2

theorem filled_reachable (reachable : (writing volumeSize index).Reachable System.anyStep state) :
    Filled state := by
  refine System.reachable_invariant Filled ?_ ?_ reachable
  · intro path number uses
    exact absurd rfl uses.1
  · intro before after label reached filled _ taken
    exact filled_step (consistent_reachable reached) filled taken

end Streams

section Blocks

variable {runtime : Runtime} {last : Option BackupNodeIndex} {call : Call} {created : Created}
  {path : Path} {attributes : FileSystemNodeAttributes} {new : BackupNodeAttributes}

theorem store_empty_content (sized : (call.source.content path).length = attributes.size)
    (isContent : attributes.type ≠ .directory) (empty : call.source.content path = []) :
    (storeContent runtime (compressionLevel call path attributes)
      (call.source.content path)).bytes = [] := by
  have none : compressionLevel call path attributes = none := by
    rw [empty, List.length_nil] at sized
    unfold compressionLevel
    cases type : attributes.type with
    | directory => exact absurd type isContent
    | file => exact if_pos sized.symm
    | link => exact if_neg (by omega)
  rw [none, empty]
  rfl

theorem stored_blocks_filled (run : createSnapshot runtime last call = some created)
    (sourced : call.source.index.lookup path = some attributes)
    (anew : takenOverFrom runtime call.hashAlgorithm last call.source path attributes = none)
    (found : created.index.lookup path = some new) (blocks : new.blocks ≠ []) :
    call.source.content path ≠ [] := by
  obtain ⟨planned, state, plan, writes, written, completion, _⟩ := create_snapshot_some run
  have spec := snapshot_planned plan
  have nodup : (planned.map PlannedNode.path).Nodup :=
    spec.paths.nodup_iff.mpr call.source.index.unique
  have reachable := System.reachable_of_run call.volumeSteps writes
  have completed := completed_nodes nodup completion
  have member : path ∈ planned.map PlannedNode.path := by
    rw [spec.paths.mem_iff]
    exact List.mem_map_of_mem ((NodeIndex.lookup_eq_some _ _ _).mp sourced)
  obtain ⟨node, inside, rfl⟩ := List.mem_map.mp member
  obtain ⟨other, otherSourced, route⟩ := spec.nodes node inside
  rw [sourced] at otherSourced
  cases otherSourced
  have closed := written node inside
  have initial : (addPlanned planned).lookup node.path = some node.attributes := by
    rw [NodeIndex.lookup_eq_some, add_planned_nodes nodup]
    exact List.mem_map_of_mem (f := fun node => (node.path, node.attributes)) inside
  have untouched := completed.untouched node inside
  have stored := completed.completed node inside
  generalize node.path = path at *
  cases route with
  | directory isDirectory _ =>
      simp only [streamWritten, decide_eq_true_eq] at closed
      rw [untouched rfl, (grown_reachable reachable).untouched path closed, initial] at found
      cases found
      exact absurd rfl blocks
  | stored isContent sized _ =>
      simp only [streamWritten, Bool.and_eq_true, decide_eq_true_eq] at closed
      obtain ⟨old, completedNode, before, completing, after⟩ := stored _ rfl
      rw [found] at after
      cases after
      have same : new.blocks = old.blocks := by rw [add_hash_value_ok completing]
      obtain ⟨block, rest, parts⟩ := List.exists_cons_of_ne_nil (same ▸ blocks)
      have uses : Uses state path block.volumeNumber := by
        refine ⟨by simp [closed.1], .inr ⟨old, before, block, ?_, rfl⟩⟩
        rw [parts]
        exact List.mem_cons_self ..
      have accepted := filled_reachable reachable path _ uses
      intro empty
      apply accepted
      rw [closed.2]
      exact store_empty_content sized isContent empty
  | inPlace old taken _ =>
      rw [anew] at taken
      cases taken
  | moved oldPath old _ taken _ =>
      rw [anew] at taken
      cases taken

end Blocks

section Storage

variable {runtime : Runtime} {algorithm : HashAlgorithm} {last : Option BackupNodeIndex}
  {entry : Entry} {path : Path} {loaded : BackupNodeAttributes}

def NewContent (runtime : Runtime) (algorithm : HashAlgorithm) (last : Option BackupNodeIndex)
    (content : Bytes) : Prop :=
  ∀ lastIndex, last = some lastIndex → ∀ path old, lastIndex.lookup path = some old →
    old.hashes algorithm ≠ some (runtime.hash algorithm content)

/-- A stored node was not taken over, and nothing is stored for an empty one. -/
theorem owned_content_new (new : NewEntry runtime last entry)
    (found : entry.index.lookup path = some loaded) (owns : loaded.ownsBlocks = true) :
    loaded.type ≠ .directory ∧ entry.call.source.content path ≠ [] ∧
      NewContent runtime entry.call.hashAlgorithm last (entry.call.source.content path) := by
  obtain ⟨created, run, index, _⟩ := id new
  rw [index, NodeIndex.lookup_map_attributes, Option.map_eq_some_iff] at found
  obtain ⟨made, present, rfl⟩ := found
  obtain ⟨attributes, sourced, route⟩ := (snapshot_created run).nodes path made present
  have blocks : made.blocks ≠ [] := by
    intro empty
    simp [reloaded, empty] at owns
  cases route with
  | directory isDirectory anew => exact absurd rfl blocks
  | stored isContent sized anew blockList ownsBlocks owned inRange allPresent bytes =>
      refine ⟨isContent, stored_blocks_filled run sourced anew present blocks, ?_⟩
      intro lastIndex same
      subst same
      rcases (taken_over_from_none anew).2 with isDirectory | unknown
      · exact absurd isDirectory isContent
      · exact find_node_index_by_hash_none.mp unknown
  | inPlace old taken known => simp [reloaded] at owns
  | moved oldPath old different taken sized => simp [reloaded] at owns

theorem new_content_owned (new : NewEntry runtime last entry)
    (found : entry.index.lookup path = some loaded)
    (recorded : loaded.hashes algorithm =
      some (runtime.hash algorithm (entry.call.source.content path)))
    (filled : entry.call.source.content path ≠ [])
    (unknown : NewContent runtime algorithm last (entry.call.source.content path)) :
    loaded.ownsBlocks = true := by
  obtain ⟨created, attributes, made, _, _, _, _, route, rfl⟩ := new_entry_node new found
  have notTaken : ∀ oldPath old, takenOverFrom runtime entry.call.hashAlgorithm last
      entry.call.source path attributes = some (oldPath, old) →
        old.hashes algorithm ≠ some (runtime.hash algorithm (entry.call.source.content path)) := by
    intro oldPath old taken
    cases last with
    | none => cases taken
    | some lastIndex => exact unknown lastIndex rfl oldPath old (taken_over_from_some taken).1
  cases route with
  | directory isDirectory anew => cases recorded
  | stored isContent sized anew blocks ownsBlocks owned inRange present bytes =>
      have nonempty : blocks ≠ [] := by
        rintro rfl
        exact filled (store_content_empty bytes.symm)
      simp only [reloaded, if_neg nonempty]
      exact owned nonempty
  | inPlace old taken known => exact absurd recorded (notTaken path old taken)
  | moved oldPath old different taken sized => exact absurd recorded (notTaken oldPath old taken)

/-- Whatever the history: the nodes of a new snapshot that own blocks are the
files and links that are not empty and whose content no node of the last
snapshot has. -/
theorem incremental_storage (runtime : Runtime) (algorithm : HashAlgorithm)
    (collisionFree : CollisionFree runtime algorithm) (chain next : Chain) (call : Call)
    (reachable : (backups runtime).Reachable (after (Unmodified algorithm)) chain)
    (permitted : Unmodified algorithm (calls chain) call)
    (taken : (backups runtime).step chain call = some next) :
    ∃ created loaded, createSnapshot runtime (lastIndex chain) call = some created ∧
      deserializeIndex (serializeIndex created.index) = .ok loaded ∧
      { call := call, index := loaded, files := created.files } ∈ next ∧
      ∀ path node, loaded.lookup path = some node →
        (node.ownsBlocks = true ↔
          node.type ≠ .directory ∧ call.source.content path ≠ [] ∧
            NewContent runtime algorithm (lastIndex chain) (call.source.content path)) := by
  have after : (backups runtime).Reachable (after (Unmodified algorithm)) next :=
    .step reachable permitted taken
  have mirrored := mirrors_reachable collisionFree after
  have digested := digested_reachable (fun _ _ unmodified => unmodified.1) after
  obtain ⟨entry, rfl, new, rfl⟩ := add_snapshot_some taken
  have member : entry ∈ insertEntry entry chain := (mem_insert_entry entry entry chain).mpr (.inl rfl)
  obtain ⟨created, run, index, files⟩ := id new
  refine ⟨created, entry.index, run, ?_, files ▸ member, ?_⟩
  · rw [deserialize_index_serialize, index]
  · intro path node found
    constructor
    · intro owns
      have stored := owned_content_new new found owns
      rw [permitted.1] at stored
      exact stored
    · rintro ⟨isContent, filled, unknown⟩
      have recorded := mirrored_digest (mirrored entry member) (digested entry member) found isContent
      exact new_content_owned new found recorded filled unknown

theorem moved_file_not_stored :
    ∃ chain next, (backups spellingRuntime).step [] firstBackup = some chain ∧
      (backups spellingRuntime).step chain moveBackup = some next ∧
      ∃ (created : Created) (loaded : BackupNodeIndex),
        ({ call := moveBackup, index := loaded, files := created.files } : Entry) ∈ next ∧
        ∀ path node, loaded.lookup path = some node →
          (node.ownsBlocks = true ↔
            node.type ≠ .directory ∧ moveBackup.source.content path ≠ [] ∧
              NewContent spellingRuntime .md5 (lastIndex chain) (moveBackup.source.content path)) := by
  obtain ⟨chain, next, first, second, reachable, permitted⟩ := second_backup_taken
  obtain ⟨created, loaded, _, _, member, decided⟩ :=
    incremental_storage spellingRuntime .md5 (spelling_collision_free _) chain next moveBackup
      reachable permitted second
  exact ⟨chain, next, first, second, created, loaded, member, decided⟩

end Storage

end ACBackup.IncrementalStorage
