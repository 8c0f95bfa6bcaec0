import ACBackup.CrashConsistency
import ACBackup.KnownEndProcesses
import ACBackup.VolumeAllocation
import ACBackup.VolumeTable
import ACBackup.WriteTermination

/-!
What a snapshot takes on the disk. Every byte of its volumes belongs to one block of
one node that owns its data, and together the volumes are as long as the streams that
the call stored. `CommandOutputSnapshotStats` tells this from the index alone.
-/

namespace ACBackup.StorageAccounting

open ACBackup.Library.Extents ACBackup.Library.Tasks ACBackup.Library.Transition
open ACBackup.Platform ACBackup.NodeAttributes ACBackup.Indexing ACBackup.IndexSerialization
open ACBackup.SourceIndex ACBackup.DifferenceResolver ACBackup.VolumeReading
open ACBackup.VolumeWriting ACBackup.VolumeInvariant ACBackup.VolumeRoundTrip
open ACBackup.VolumeAllocation ACBackup.SnapshotCreation ACBackup.SnapshotPlan
open ACBackup.SnapshotNodes ACBackup.SnapshotManager ACBackup.IncrementalStorage
open ACBackup.CrashConsistency ACBackup.KnownEndProcesses ACBackup.VolumeTable
open ACBackup.OpenVolumes ACBackup.WriteTermination

set_option autoImplicit false

def ownBlocks (attributes : BackupNodeAttributes) : List Block :=
  if attributes.ownsBlocks then attributes.blocks else []

def storedBlocks (index : BackupNodeIndex) : List Block :=
  index.nodes.flatMap fun node => ownBlocks node.2

/-- What the files of the volumes take, as many as the constructor counts. -/
def volumesLength (entry : Entry) : Nat :=
  ∑ number ∈ Finset.range (openForReading entry.files entry.index).nVolumes,
    (entry.files number).length

section Unsized

/-! With the volume size 0 nothing is ever written: a writer that has looked for a
volume never comes to the end of its buffer. -/

variable {state next : WriteState} {label : WriteLabel}

structure Stuck (state : WriteState) : Prop where
  volumes : ∀ volume ∈ state.openVolumes, volume.leftSize = 0
  writers : ∀ writer number, Uses state writer number → remaining (state.writers writer) ≠ []

theorem stuck_volumes (consistent : Consistent state) (stuck : Stuck state)
    (taken : step 0 state label = some next) :
    ∀ volume ∈ next.openVolumes, volume.leftSize = 0 := by
  have before := stuck.volumes
  cases label with
  | createFile path =>
      obtain ⟨_, _, rfl⟩ := step_create_file taken
      exact before
  | beginWrite writer source =>
      obtain ⟨_, _, rfl⟩ := step_begin_write taken
      exact before
  | findStream writer =>
      obtain ⟨source, _, _, rfl⟩ := step_find_stream taken
      intro volume member
      rcases find_stream_left_size member with new | ⟨old, inside, same⟩
      · exact new
      · exact same.trans (before old inside)
  | queryOffset writer =>
      obtain ⟨_, _, _, _, rfl⟩ := step_query_offset taken
      exact before
  | writeVolume writer nBytesWritten =>
      obtain ⟨_, _, _, _, _, _, rfl⟩ := step_write_volume taken
      exact before
  | bytesWereWritten writer =>
      obtain ⟨source, number, offset, nBytesWritten, recorded, wrote, outcome, rfl⟩ :=
        step_bytes_were_written taken
      obtain ⟨leftSize, owned, left, result⟩ := bytes_were_written_recorded consistent wrote
      rw [result] at outcome
      cases outcome
      have found := find_owned_unique consistent.apart owned rfl
      intro volume member
      rcases fill_owned_left_size found member with kept | ⟨shrunk, nonzero⟩
      · exact before volume kept
      · have none : leftSize = 0 := before _ owned
        have size := left_size_filled left
        rw [← shrunk, none, UInt64.toNat_zero, Nat.zero_sub] at size
        exact UInt64.toNat_inj.mp size
  | finishWrite writer =>
      obtain ⟨_, rfl⟩ := step_finish_write taken
      exact before
  | closeFile writer =>
      obtain ⟨_, rfl⟩ := step_close_file taken
      intro volume member
      obtain ⟨old, inside, same⟩ := release_owned_left_size member
      exact same.trans (before old inside)

theorem stuck_remaining (consistent : Consistent state) (stuck : Stuck state)
    (taken : step 0 state label = some next) {writer : Path}
    (unfinished : remaining (state.writers writer) ≠ []) :
    remaining (next.writers writer) ≠ [] := by
  by_cases own : writer = label.writer
  · subst own
    cases label with
    | createFile path =>
        obtain ⟨absent, _, _⟩ := step_create_file taken
        rw [WriteLabel.writer, absent] at unfinished
        exact absurd rfl unfinished
    | beginWrite writer source =>
        obtain ⟨idle, _, _⟩ := step_begin_write taken
        rw [WriteLabel.writer, idle] at unfinished
        exact absurd rfl unfinished
    | findStream writer =>
        obtain ⟨source, _, nonempty, rfl⟩ := step_find_stream taken
        rw [WriteLabel.writer, set_phase_same]
        exact nonempty
    | queryOffset writer =>
        obtain ⟨source, number, leftSize, found, rfl⟩ := step_query_offset taken
        rw [WriteLabel.writer, found] at unfinished
        rw [WriteLabel.writer, set_phase_same]
        exact unfinished
    | writeVolume writer nBytesWritten =>
        obtain ⟨source, number, leftSize, offset, positioned, accepts, rfl⟩ :=
          step_write_volume taken
        have held := (consistent.writer writer).stream
        rw [positioned] at held
        have none : leftSize = 0 := stuck.volumes _ held.1
        have nothing : nBytesWritten = 0 := by
          have offered := accepts.1
          rw [none] at offered
          simpa [bytesToWrite] using offered
        rw [WriteLabel.writer, positioned] at unfinished
        rw [WriteLabel.writer, set_phase_same, nothing]
        exact unfinished
    | bytesWereWritten writer =>
        obtain ⟨source, number, offset, nBytesWritten, recorded, wrote, _, rfl⟩ :=
          step_bytes_were_written taken
        rw [WriteLabel.writer, wrote] at unfinished
        rw [WriteLabel.writer, set_phase_same]
        exact unfinished
    | finishWrite writer =>
        obtain ⟨finished, _⟩ := step_finish_write taken
        rw [WriteLabel.writer, finished] at unfinished
        exact absurd rfl unfinished
    | closeFile writer =>
        obtain ⟨idle, _⟩ := step_close_file taken
        rw [WriteLabel.writer, idle] at unfinished
        exact absurd rfl unfinished
  · rw [step_other_writers taken own]
    exact unfinished

theorem stuck_step (consistent : Consistent state) (stuck : Stuck state)
    (taken : step 0 state label = some next) : Stuck next where
  volumes := stuck_volumes consistent stuck taken
  writers := by
    intro writer number uses
    apply stuck_remaining consistent stuck taken
    rcases uses_step taken uses with ⟨other, used⟩ | ⟨source, looping, nonempty⟩
    · exact stuck.writers writer other used
    · rw [looping]
      exact nonempty

theorem stuck_reachable {index : BackupNodeIndex}
    (reachable : (writing 0 index).Reachable System.anyStep state) : Stuck state := by
  refine System.reachable_invariant Stuck ?_ ?_ reachable
  · exact ⟨fun _ member => absurd member List.not_mem_nil, fun _ _ uses => absurd rfl uses.1⟩
  · intro before after label reached stuck _ taken
    exact stuck_step (consistent_reachable reached) stuck taken

/-- Volumes that closed writers have opened take bytes. -/
theorem opened_positive {volumeSize : UInt64} {index : BackupNodeIndex}
    (reachable : (writing volumeSize index).Reachable System.anyStep state)
    (allClosed : AllClosed state) {number : Nat} (opened : number < state.nextVolumeNumber) :
    0 < volumeSize.toNat := by
  rw [Nat.pos_iff_ne_zero]
  intro zero
  have unsized : volumeSize = 0 := UInt64.toNat_inj.mp (zero.trans UInt64.toNat_zero.symm)
  subst unsized
  obtain ⟨path, uses⟩ := (consistent_reachable reachable).used number opened
  apply (stuck_reachable reachable).writers path number uses
  rcases allClosed path with phase | phase <;> rw [phase] <;> rfl

end Unsized

section Nodes

variable {Left Right Value : Type} {left : NodeIndex Left} {right : NodeIndex Right}
  {fromLeft : Path × Left → Value} {fromRight : Path × Right → Value}

theorem values_perm (paths : (left.nodes.map Prod.fst).Perm (right.nodes.map Prod.fst))
    (same : ∀ path leftAttributes rightAttributes, left.lookup path = some leftAttributes →
      right.lookup path = some rightAttributes →
        fromLeft (path, leftAttributes) = fromRight (path, rightAttributes)) :
    (left.nodes.map fromLeft).Perm (right.nodes.map fromRight) := by
  have byPath : (left.nodes.map fromLeft).map some =
      (left.nodes.map Prod.fst).map fun path =>
        (right.lookup path).map fun attributes => fromRight (path, attributes) := by
    rw [List.map_map, List.map_map]
    apply List.map_congr_left
    intro node member
    have known : node.1 ∈ right.nodes.map Prod.fst :=
      paths.mem_iff.mp (List.mem_map_of_mem member)
    obtain ⟨rightAttributes, found⟩ : ∃ attributes, right.lookup node.1 = some attributes := by
      rw [← Option.isSome_iff_exists, Option.isSome_iff_ne_none, ne_eq,
        NodeIndex.lookup_eq_none]
      exact not_not.mpr known
    have here := (NodeIndex.lookup_eq_some left node.1 node.2).mpr member
    simp only [Function.comp_apply, found, Option.map_some]
    rw [same node.1 node.2 rightAttributes here found]
  have ofRight : (right.nodes.map fromRight).map some =
      (right.nodes.map Prod.fst).map fun path =>
        (right.lookup path).map fun attributes => fromRight (path, attributes) := by
    rw [List.map_map, List.map_map]
    apply List.map_congr_left
    intro node member
    have here := (NodeIndex.lookup_eq_some right node.1 node.2).mpr member
    simp only [Function.comp_apply, here, Option.map_some]
  apply (List.map_perm_map_iff (Option.some_injective _)).mp
  rw [byPath, ofRight]
  exact paths.map _

end Nodes

section Tiling

variable {runtime : Runtime} {last : Option BackupNodeIndex} {entry : Entry} {call : Call}
  {created : Created} {planned : List PlannedNode} {state : WriteState}

theorem own_blocks_reloaded (attributes : BackupNodeAttributes) :
    ownBlocks (reloaded attributes) = ownBlocks attributes := by
  cases blocks : attributes.blocks with
  | nil => simp [ownBlocks, reloaded, blocks]
  | cons block rest => simp [ownBlocks, reloaded, blocks]

theorem own_blocks_empty {attributes : BackupNodeAttributes} (empty : attributes.blocks = []) :
    ownBlocks attributes = [] := by
  rw [ownBlocks, empty]
  exact ite_self []

theorem own_blocks_unstored {path : Path} {attributes : FileSystemNodeAttributes}
    {node : PlannedNode} (route : NodePlanned runtime last call path attributes node)
    (unstored : node.stored = none) : ownBlocks node.attributes = [] := by
  cases route with
  | directory isDirectory anew =>
      exact own_blocks_empty rfl
  | stored isContent sized anew => cases unstored
  | inPlace old taken known => rfl
  | moved oldPath old different taken sized => rfl

theorem stored_blocks_recorded (run : createSnapshot runtime last call = some created) :
    ∃ planned state, (writing call.volumeSize (addPlanned planned)).run
        (openFileSystem (addPlanned planned)) call.volumeSteps = some state ∧
      AllClosed state ∧ created.files = state.files ∧
      (storedBlocks (created.index.mapAttributes reloaded)).Perm (ownedBlocks state) := by
  obtain ⟨planned, state, plan, writes, written, completion, files⟩ := create_snapshot_some run
  have spec := snapshot_planned plan
  have nodup : (planned.map PlannedNode.path).Nodup :=
    spec.paths.nodup_iff.mpr call.source.index.unique
  have reachable := System.reachable_of_run call.volumeSteps writes
  have grown := grown_reachable reachable
  have completed := completed_nodes nodup completion
  refine ⟨planned, state, writes, streams_closed grown (consistent_reachable reachable) nodup
    written, files, ?_⟩
  have nodes : ((created.index.mapAttributes reloaded).nodes.map fun node =>
      ownBlocks node.2).Perm (state.index.nodes.map (entryBlocks state.writers)) := by
    apply values_perm
    · rw [NodeIndex.mapAttributes, List.map_map, ← completed.paths]
      exact List.Perm.refl _
    · intro path loaded recorded found before
      rw [NodeIndex.lookup_map_attributes, Option.map_eq_some_iff] at found
      obtain ⟨made, present, rfl⟩ := found
      have inside : path ∈ planned.map PlannedNode.path := by
        by_contra outside
        have plannedPaths : state.index.nodes.map Prod.fst = planned.map PlannedNode.path := by
          rw [grown.paths, add_planned_nodes nodup, List.map_map]
          rfl
        rw [← plannedPaths, ← NodeIndex.lookup_eq_none, before] at outside
        cases outside
      obtain ⟨node, member, rfl⟩ := List.mem_map.mp inside
      have end' := written node member
      rw [own_blocks_reloaded]
      cases stored : node.stored with
      | none =>
          simp only [streamWritten, stored, decide_eq_true_eq] at end'
          obtain ⟨attributes, _, route⟩ := spec.nodes node member
          have initial : (addPlanned planned).lookup node.path = some node.attributes := by
            rw [NodeIndex.lookup_eq_some, add_planned_nodes nodup]
            exact List.mem_map.mpr ⟨node, member, rfl⟩
          rw [completed.untouched node member stored, grown.untouched node.path end',
            initial] at present
          cases present
          rw [own_blocks_unstored route stored]
          simp [entryBlocks, end']
      | some stream =>
          simp only [streamWritten, stored, Bool.and_eq_true, decide_eq_true_eq] at end'
          obtain ⟨old, new, earlier, completes, later⟩ :=
            completed.completed node member stream stored
          rw [before] at earlier
          cases earlier
          rw [present] at later
          cases later
          rw [add_hash_value_ok completes]
          simp [entryBlocks, ownBlocks, end'.1]
  unfold storedBlocks ownedBlocks
  rw [List.flatMap_def, List.flatMap_def]
  exact nodes.flatten

theorem unnumbered_empty {volumeSize : UInt64} {index : BackupNodeIndex}
    {labels : List WriteLabel}
    (run : (writing volumeSize index).run (openFileSystem index) labels = some state)
    {number : Nat} (above : state.nextVolumeNumber ≤ number) : state.files number = [] := by
  have start : VolumesWritten "" disks.initial.volumes (openFileSystem index).nextVolumeNumber
      (openFileSystem index).files disks.initial.volumes :=
    ⟨fun _ => rfl, fun _ _ => rfl, fun _ _ => rfl⟩
  obtain ⟨_, _, written, _⟩ := write_operations_run labels (consistent_open index) run start
  exact written.untouched number above

theorem tiles_perm {first second : List Block} (same : first.Perm second) {number length : Nat}
    (tiles : Tiles (extentsIn number second) length) : Tiles (extentsIn number first) length :=
  tiles_of_positions tiles (((same.filter _).map extentOf).flatMap_right _)

/-- The volumes of a new snapshot are covered by what its nodes own. -/
theorem new_entry_tiled (new : NewEntry runtime last entry) (number : Nat) :
    Tiles (extentsIn number (storedBlocks entry.index)) (entry.files number).length := by
  obtain ⟨created, run, index, files⟩ := new
  obtain ⟨planned, state, writes, allClosed, stateFiles, same⟩ := stored_blocks_recorded run
  have reachable := System.reachable_of_run entry.call.volumeSteps writes
  have consistent := consistent_reachable reachable
  have quiet : ∀ writer, ¬InFlight (state.writers writer) := by
    intro writer
    rcases allClosed writer with phase | phase
    · rw [phase]
      exact not_false
    · rw [phase]
      exact not_false
  rw [index, files, stateFiles]
  apply tiles_perm same
  by_cases below : number < state.nextVolumeNumber
  · have positive := opened_positive reachable allClosed below
    obtain ⟨_, accounted, _⟩ := accounted_run positive entry.call.volumeSteps
      (consistent_open _) (accounted_open _ _) writes
    exact quiet_tiles accounted quiet below
  · have above := Nat.le_of_not_lt below
    rw [unnumbered_empty writes above]
    have none : blocksIn number (ownedBlocks state) = [] := by
      apply List.filter_eq_nil_iff.mpr
      intro block member
      have numbered := owned_blocks_numbered consistent block member
      rw [decide_eq_true_eq]
      omega
    rw [extentsIn, none]
    exact tiles_nil

/-- Every byte of every volume of a backup belongs to one block of one node, which
owns it, and to no other. -/
theorem volumes_hold_stored_nodes (runtime : Runtime) (allowed : Chain → Call → Prop)
    (chain : Chain) (reachable : (backups runtime).Reachable allowed chain) (entry : Entry)
    (member : entry ∈ chain) (number : Nat) :
    Tiles (extentsIn number (storedBlocks entry.index)) (entry.files number).length := by
  have tiled := entries_reachable
    (fun entry => ∀ number,
      Tiles (extentsIn number (storedBlocks entry.index)) (entry.files number).length)
    (fun _ _ _ _ _ new => new_entry_tiled new) reachable
  exact tiled entry member number

theorem first_volumes_hold_stored_nodes :
    ∃ chain, (backups spellingRuntime).step [] firstBackup = some chain ∧
      ∃ entry ∈ chain, ∀ number,
        Tiles (extentsIn number (storedBlocks entry.index)) (entry.files number).length := by
  have complete : ((backups spellingRuntime).step [] firstBackup).isSome = true := by
    decide +kernel
  obtain ⟨chain, taken⟩ := Option.isSome_iff_exists.mp complete
  have reachable : (backups spellingRuntime).Reachable System.anyStep chain :=
    .step .start trivial taken
  have added : addSnapshot spellingRuntime [] firstBackup = some chain := taken
  obtain ⟨entry, _, _, inserted⟩ := add_snapshot_some added
  have member : entry ∈ chain := by
    rw [inserted]
    exact (mem_insert_entry _ _ _).mpr (.inl rfl)
  exact ⟨chain, taken, entry, member, volumes_hold_stored_nodes spellingRuntime System.anyStep
    chain reachable entry member⟩

end Tiling

section Cost

variable {runtime : Runtime} {last : Option BackupNodeIndex} {entry : Entry} {call : Call}

/-- The length of the stream that is stored for a node of the source. -/
def storedSize (runtime : Runtime) (last : Option BackupNodeIndex) (call : Call)
    (node : Path × FileSystemNodeAttributes) : Nat :=
  if node.2.type ≠ .directory ∧
      takenOverFrom runtime call.hashAlgorithm last call.source node.1 node.2 = none then
    (storeContent runtime (compressionLevel call node.1 node.2)
      (call.source.content node.1)).bytes.length
  else 0

theorem stored_bytes_length {files : Nat → Bytes} {blocks : List Block}
    (present : AllPresent files blocks) :
    (storedBytes files blocks).length = (blocks.map Block.size).sum := by
  rw [storedBytes, List.length_flatMap]
  congr 1
  apply List.map_congr_left
  intro block member
  exact slice_length_inside (present block member)

theorem own_blocks_size (new : NewEntry runtime last entry) {path : Path}
    {attributes : FileSystemNodeAttributes} {loaded : BackupNodeAttributes}
    (sourced : entry.call.source.index.lookup path = some attributes)
    (found : entry.index.lookup path = some loaded) :
    ((ownBlocks loaded).map Block.size).sum =
        storedSize runtime last entry.call (path, attributes) ∧
      (loaded.ownsBlocks = true ↔ 0 < storedSize runtime last entry.call (path, attributes)) := by
  obtain ⟨created, run, index, files⟩ := new
  rw [index, NodeIndex.lookup_map_attributes, Option.map_eq_some_iff] at found
  obtain ⟨made, present, rfl⟩ := found
  obtain ⟨sourceAttributes, same, route⟩ := (snapshot_created run).nodes path made present
  rw [sourced] at same
  cases same
  rw [own_blocks_reloaded]
  cases route with
  | directory isDirectory anew =>
      have nothing : storedSize runtime last entry.call (path, attributes) = 0 :=
        if_neg fun both => both.1 isDirectory
      rw [nothing, own_blocks_empty rfl]
      simp [reloaded, BackupNodeAttributes.ofFileSystemNodeAttributes]
  | stored isContent sized anew blocks ownsBlocks owned inRange allPresent bytes =>
      have size : storedSize runtime last entry.call (path, attributes) =
          (storedBytes created.files blocks).length := by
        rw [bytes]
        exact if_pos ⟨isContent, anew⟩
      have all : ownBlocks
          { toFileSystemNodeAttributes := attributes
            ownsBlocks := ownsBlocks
            compressionSetting := (storeContent runtime
              (compressionLevel entry.call path attributes)
                (entry.call.source.content path)).compressionSetting
            backReferenceTarget := none
            blocks := blocks
            hashes := Function.update (fun _ => none) entry.call.hashAlgorithm
              (some (runtime.hash entry.call.hashAlgorithm (entry.call.source.content path))) } =
          blocks := by
        by_cases empty : blocks = []
        · rw [empty]
          exact own_blocks_empty rfl
        · exact if_pos (owned empty)
      rw [size, all, stored_bytes_length allPresent]
      refine ⟨rfl, ?_⟩
      by_cases empty : blocks = []
      · simp [reloaded, empty]
      · have filled : storedBytes created.files blocks ≠ [] := by
          intro nothing
          rw [bytes] at nothing
          exact stored_blocks_filled run sourced anew present empty (store_content_empty nothing)
        rw [← stored_bytes_length allPresent]
        simp only [reloaded, if_neg empty, owned empty, true_iff]
        exact List.length_pos_iff.mpr filled
  | inPlace old taken known =>
      have nothing : storedSize runtime last entry.call (path, attributes) = 0 := by
        refine if_neg fun both => ?_
        rw [taken] at both
        cases both.2
      rw [nothing]
      simp [ownBlocks, reloaded]
  | moved oldPath old different taken sized =>
      have nothing : storedSize runtime last entry.call (path, attributes) = 0 := by
        refine if_neg fun both => ?_
        rw [taken] at both
        cases both.2
      rw [nothing]
      simp [ownBlocks, reloaded]

theorem stored_blocks_sum (index : BackupNodeIndex) :
    ((storedBlocks index).map Block.size).sum =
      (index.nodes.map fun node => ((ownBlocks node.2).map Block.size).sum).sum := by
  rw [storedBlocks, List.map_flatMap, List.flatMap_def, List.sum_flatten, List.map_map]
  rfl

theorem stored_blocks_cost (new : NewEntry runtime last entry) :
    ((storedBlocks entry.index).map Block.size).sum =
      (entry.call.source.index.nodes.map (storedSize runtime last entry.call)).sum := by
  rw [stored_blocks_sum]
  apply List.Perm.sum_eq
  exact values_perm (new_entry_paths new) fun path loaded attributes found sourced =>
    (own_blocks_size new sourced found).1

/-- The files of the volumes hold what the nodes own, and nothing else. -/
theorem volumes_length_exact (new : NewEntry runtime last entry) :
    volumesLength entry = ((storedBlocks entry.index).map Block.size).sum := by
  have numbered : ∀ block ∈ storedBlocks entry.index,
      block.volumeNumber < (openForReading entry.files entry.index).nVolumes := by
    intro block member
    obtain ⟨node, inside, own⟩ := List.mem_flatMap.mp member
    cases owns : node.2.ownsBlocks with
    | false => simp [ownBlocks, owns] at own
    | true =>
        have found := (NodeIndex.lookup_eq_some entry.index node.1 node.2).mpr inside
        rw [ownBlocks, if_pos owns] at own
        exact owned_blocks_in_range new found owns block own
  rw [sum_by_volume numbered]
  apply Finset.sum_congr rfl
  intro number _
  have size := tiles_sum (new_entry_tiled new number)
  rw [extentsIn, List.map_map] at size
  exact size.symm

end Cost

section Statistics

/-- The counters of the loop in `CommandOutputSnapshotStats`. -/
structure Counters where
  nFiles : UInt32
  nDirs : UInt32
  nLinks : UInt32
  nStoredNodes : UInt32
  totalStoredSize : UInt64
  deriving DecidableEq

/-- What the command prints, without the units of the sizes. -/
structure SnapshotStats extends Counters where
  numberOfNodes : UInt32
  totalSize : UInt64
  sumOfBlockSizes : UInt64
  deriving DecidableEq

def countType (counters : Counters) : FileType → Counters
  | .directory => { counters with nDirs := counters.nDirs + 1 }
  | .file => { counters with nFiles := counters.nFiles + 1 }
  | .link => { counters with nLinks := counters.nLinks + 1 }

def countNode (counters : Counters) (attributes : BackupNodeAttributes) : Counters :=
  let counted := countType counters attributes.type
  if attributes.ownsBlocks then
    { counted with
      nStoredNodes := counted.nStoredNodes + 1
      totalStoredSize :=
        counted.totalStoredSize + UInt64.ofNat attributes.computeSumOfBlockSizes }
  else counted

def computeSumOfBlockSizes (index : BackupNodeIndex) : Nat :=
  (index.nodes.map fun node => node.2.computeSumOfBlockSizes).sum

def noCounts : Counters where
  nFiles := 0
  nDirs := 0
  nLinks := 0
  nStoredNodes := 0
  totalStoredSize := 0

def commandOutputSnapshotStats (index : BackupNodeIndex) : SnapshotStats where
  toCounters := index.nodes.foldl (fun counters node => countNode counters node.2) noCounts
  numberOfNodes := UInt32.ofNat index.getNumberOfNodes
  totalSize := UInt64.ofNat (computeTotalSize (fileSystemNodes index))
  sumOfBlockSizes := UInt64.ofNat (computeSumOfBlockSizes index)

variable {Attributes : Type}

def counted (type : Path × Attributes → FileType) (size : Path × Attributes → Nat)
    (owns : Path × Attributes → Bool) (nodes : List (Path × Attributes)) : Counters where
  nFiles := UInt32.ofNat (nodes.countP fun node => type node = .file)
  nDirs := UInt32.ofNat (nodes.countP fun node => type node = .directory)
  nLinks := UInt32.ofNat (nodes.countP fun node => type node = .link)
  nStoredNodes := UInt32.ofNat (nodes.countP owns)
  totalStoredSize := UInt64.ofNat (nodes.map size).sum

theorem counted_snoc (type : Path × Attributes → FileType) (size : Path × Attributes → Nat)
    (owns : Path × Attributes → Bool) (nodes : List (Path × Attributes))
    (node : Path × Attributes) :
    counted type size owns (nodes ++ [node]) =
      { countType (counted type size owns nodes) (type node) with
        nStoredNodes :=
          (counted type size owns nodes).nStoredNodes + if owns node then 1 else 0
        totalStoredSize :=
          (counted type size owns nodes).totalStoredSize + UInt64.ofNat (size node) } := by
  simp only [counted, List.countP_append, List.map_append, List.sum_append, UInt32.ofNat_add,
    UInt64.ofNat_add, List.countP_singleton]
  cases type node <;> cases owns node <;> simp [countType]

theorem counters_exact (nodes : List (Path × BackupNodeAttributes)) :
    nodes.foldl (fun counters node => countNode counters node.2) noCounts =
      counted (fun node => node.2.type) (fun node => ((ownBlocks node.2).map Block.size).sum)
        (fun node => node.2.ownsBlocks) nodes := by
  induction nodes using List.reverseRecOn with
  | nil => rfl
  | append_singleton nodes node induction =>
      rw [List.foldl_append, induction, counted_snoc, List.foldl_cons, List.foldl_nil]
      cases owns : node.2.ownsBlocks <;> cases type : node.2.type <;>
        simp [countNode, countType, ownBlocks, owns, type,
          BackupNodeAttributes.computeSumOfBlockSizes]

theorem counted_congr {Other : Type} {left : NodeIndex Attributes} {right : NodeIndex Other}
    {leftType : Path × Attributes → FileType} {leftSize : Path × Attributes → Nat}
    {leftOwns : Path × Attributes → Bool} {rightType : Path × Other → FileType}
    {rightSize : Path × Other → Nat} {rightOwns : Path × Other → Bool}
    (paths : (left.nodes.map Prod.fst).Perm (right.nodes.map Prod.fst))
    (same : ∀ path leftAttributes rightAttributes, left.lookup path = some leftAttributes →
      right.lookup path = some rightAttributes →
        leftType (path, leftAttributes) = rightType (path, rightAttributes) ∧
          leftSize (path, leftAttributes) = rightSize (path, rightAttributes) ∧
            leftOwns (path, leftAttributes) = rightOwns (path, rightAttributes)) :
    counted leftType leftSize leftOwns left.nodes =
      counted rightType rightSize rightOwns right.nodes := by
  have types : ∀ type, (left.nodes.countP fun node => leftType node = type) =
      right.nodes.countP fun node => rightType node = type := by
    intro type
    have perm := values_perm paths fun path leftAttributes rightAttributes found present =>
      (same path leftAttributes rightAttributes found present).1
    have equal := perm.countP_eq fun found => found = type
    rw [List.countP_map, List.countP_map] at equal
    exact equal
  have sizes := (values_perm paths fun path leftAttributes rightAttributes found present =>
    (same path leftAttributes rightAttributes found present).2.1).sum_eq
  have owners := (values_perm paths fun path leftAttributes rightAttributes found present =>
    (same path leftAttributes rightAttributes found present).2.2).countP_eq id
  rw [List.countP_map, List.countP_map] at owners
  have owners' : left.nodes.countP leftOwns = right.nodes.countP rightOwns := owners
  simp only [counted, types, sizes, owners']

theorem compute_total_size_sum (index : FileSystemNodeIndex) :
    computeTotalSize index = (index.nodes.map fun node => node.2.size).sum := by
  unfold computeTotalSize NodeIndex.getNumberOfNodes
  congr 1
  apply List.ext_getElem
  · simp
  · intro position left right
    simp only [List.length_map, List.length_range] at left
    simp [nodeSize, List.getElem?_eq_getElem left]

end Statistics

section Snapshots

variable {runtime : Runtime} {last : Option BackupNodeIndex} {entry : Entry} {path : Path}
  {attributes : FileSystemNodeAttributes} {loaded : BackupNodeAttributes}

/-- The size of a directory is not written. -/
def recordedSize (node : Path × FileSystemNodeAttributes) : Nat :=
  if node.2.type = .directory then 0 else node.2.size

/-- What is taken over from a node of the last snapshot refers to its blocks. -/
def referredSize (runtime : Runtime) (last : Option BackupNodeIndex) (call : Call)
    (node : Path × FileSystemNodeAttributes) : Nat :=
  match takenOverFrom runtime call.hashAlgorithm last call.source node.1 node.2 with
  | some old => old.2.computeSumOfBlockSizes
  | none => storedSize runtime last call node

def sourceStats (runtime : Runtime) (last : Option BackupNodeIndex) (call : Call) :
    SnapshotStats where
  toCounters := counted (fun node => node.2.type) (storedSize runtime last call)
    (fun node => decide (0 < storedSize runtime last call node)) call.source.index.nodes
  numberOfNodes := UInt32.ofNat call.source.index.getNumberOfNodes
  totalSize := UInt64.ofNat (call.source.index.nodes.map recordedSize).sum
  sumOfBlockSizes :=
    UInt64.ofNat (call.source.index.nodes.map (referredSize runtime last call)).sum

theorem loaded_sizes (new : NewEntry runtime last entry)
    (sourced : entry.call.source.index.lookup path = some attributes)
    (found : entry.index.lookup path = some loaded) :
    loaded.type = attributes.type ∧ loaded.size = recordedSize (path, attributes) ∧
      loaded.computeSumOfBlockSizes = referredSize runtime last entry.call (path, attributes) := by
  have own := (own_blocks_size new sourced found).1
  obtain ⟨created, sourceAttributes, made, run, index, files, same, route, rfl⟩ :=
    new_entry_node new found
  rw [sourced] at same
  cases same
  cases route with
  | directory isDirectory anew =>
      refine ⟨rfl, rfl, ?_⟩
      simp only [referredSize, anew]
      rw [← own, own_blocks_reloaded, own_blocks_empty rfl]
      rfl
  | stored isContent sized anew blocks ownsBlocks owned inRange allPresent bytes =>
      refine ⟨rfl, rfl, ?_⟩
      simp only [referredSize, anew]
      rw [← own, own_blocks_reloaded]
      by_cases empty : blocks = []
      · rw [own_blocks_empty empty]
        simp [reloaded, BackupNodeAttributes.computeSumOfBlockSizes, empty]
      · rw [ownBlocks, if_pos (owned empty)]
        rfl
  | inPlace old taken known =>
      refine ⟨rfl, rfl, ?_⟩
      simp only [referredSize, taken]
      rfl
  | moved oldPath old different taken sized =>
      refine ⟨rfl, rfl, ?_⟩
      simp only [referredSize, taken]
      rfl

theorem new_entry_stats (new : NewEntry runtime last entry) :
    commandOutputSnapshotStats entry.index = sourceStats runtime last entry.call := by
  have paths := new_entry_paths new
  have counters := counters_exact entry.index.nodes
  have numbers := paths.length_eq
  rw [List.length_map, List.length_map] at numbers
  have totals : computeTotalSize (fileSystemNodes entry.index) =
      (entry.call.source.index.nodes.map recordedSize).sum := by
    rw [compute_total_size_sum, fileSystemNodes, NodeIndex.mapAttributes, List.map_map]
    exact (values_perm paths fun path loaded attributes found sourced =>
      (loaded_sizes new sourced found).2.1).sum_eq
  have referred : computeSumOfBlockSizes entry.index =
      (entry.call.source.index.nodes.map (referredSize runtime last entry.call)).sum :=
    (values_perm paths fun path loaded attributes found sourced =>
      (loaded_sizes new sourced found).2.2).sum_eq
  have same : counted (fun node => node.2.type)
      (fun node => ((ownBlocks node.2).map Block.size).sum) (fun node => node.2.ownsBlocks)
        entry.index.nodes = (sourceStats runtime last entry.call).toCounters := by
    apply counted_congr paths
    intro path loaded attributes found sourced
    obtain ⟨size, owns⟩ := own_blocks_size new sourced found
    refine ⟨(loaded_sizes new sourced found).1, size, ?_⟩
    rw [Bool.eq_iff_iff, decide_eq_true_iff]
    exact owns
  unfold commandOutputSnapshotStats
  rw [counters, same, totals, referred, NodeIndex.getNumberOfNodes, numbers]
  rfl

theorem entry_stays {calls : List Call} {chain final : Chain}
    (run : (backups runtime).run chain calls = some final) (member : entry ∈ chain) :
    entry ∈ final := by
  induction calls generalizing chain with
  | nil =>
      cases run
      exact member
  | cons call rest induction =>
      obtain ⟨next, taken, later⟩ := System.run_cons_some run
      obtain ⟨added, _, _, rfl⟩ := add_snapshot_some taken
      exact induction later ((mem_insert_entry _ _ _).mpr (.inr member))

/-- For every snapshot of a backup the command prints what its source and the
snapshot before it say, however many calls come after. Its volumes are as long as the
streams that its call had to store. -/
theorem snapshot_stats_exact (runtime : Runtime) (before later : List Call) (call : Call)
    (chain : Chain) (run : (backups runtime).run [] (before ++ call :: later) = some chain) :
    ∃ older entry, (backups runtime).run [] before = some older ∧ entry ∈ chain ∧
      entry.call = call ∧
      commandOutputSnapshotStats entry.index = sourceStats runtime (lastIndex older) call ∧
      volumesLength entry =
        (call.source.index.nodes.map (storedSize runtime (lastIndex older) call)).sum := by
  rw [System.run_append, Option.bind_eq_some_iff] at run
  obtain ⟨older, first, rest⟩ := run
  obtain ⟨next, taken, further⟩ := System.run_cons_some rest
  obtain ⟨entry, rfl, new, rfl⟩ := add_snapshot_some taken
  refine ⟨older, entry, first, ?_, rfl, new_entry_stats new, ?_⟩
  · exact entry_stays further ((mem_insert_entry _ _ _).mpr (.inl rfl))
  · rw [volumes_length_exact new, stored_blocks_cost new]

theorem moved_file_stats :
    ∃ chain older entry, (backups spellingRuntime).run [] [firstBackup, moveBackup] = some chain ∧
      (backups spellingRuntime).run [] [firstBackup] = some older ∧ entry ∈ chain ∧
      commandOutputSnapshotStats entry.index =
        sourceStats spellingRuntime (lastIndex older) moveBackup ∧ volumesLength entry = 0 := by
  have complete : ((backups spellingRuntime).run [] [firstBackup, moveBackup]).isSome = true := by
    decide +kernel
  obtain ⟨chain, run⟩ := Option.isSome_iff_exists.mp complete
  obtain ⟨older, entry, first, member, _, stats, length⟩ :=
    snapshot_stats_exact spellingRuntime [firstBackup] [] moveBackup chain run
  have cost : ((backups spellingRuntime).run [] [firstBackup]).map (fun older =>
      (moveBackup.source.index.nodes.map
        (storedSize spellingRuntime (lastIndex older) moveBackup)).sum) = some 0 := by
    decide +kernel
  rw [first, Option.map_some, Option.some.injEq] at cost
  exact ⟨chain, older, entry, run, first, member, stats, length.trans cost⟩

end Snapshots

end ACBackup.StorageAccounting
