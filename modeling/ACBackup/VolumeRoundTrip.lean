import ACBackup.IndexSerialization
import ACBackup.VolumeInvariant

/-!
What was written through the open volumes is read back from the loaded index.
The size of the volumes plays no part in it: it decides how the bytes are cut,
and a run that does not come to its end closes no writer.
-/

namespace ACBackup.VolumeRoundTrip

open ACBackup.Library.Transition ACBackup.Library.Loop
open ACBackup.Platform ACBackup.NodeAttributes ACBackup.Indexing ACBackup.IndexSerialization
open ACBackup.VolumeReading ACBackup.VolumeWriting ACBackup.VolumeInvariant

set_option autoImplicit false

def AllClosed (state : WriteState) : Prop :=
  ∀ path, state.writers path = .absent ∨ state.writers path = .closed

theorem volume_number_counted {index : BackupNodeIndex} {path : Path}
    {attributes : BackupNodeAttributes} (found : index.lookup path = some attributes)
    {block : Block} (member : block ∈ attributes.blocks) :
    block.volumeNumber ∈ volumeNumbers index := by
  unfold volumeNumbers
  rw [List.mem_flatMap]
  refine ⟨(path, attributes), (NodeIndex.lookup_eq_some index path attributes).mp found, ?_⟩
  exact List.mem_map_of_mem member

theorem lookup_reloaded {index : BackupNodeIndex} {path : Path}
    {attributes : BackupNodeAttributes} (found : index.lookup path = some attributes) :
    (index.mapAttributes reloaded).lookup path = some (reloaded attributes) := by
  rw [NodeIndex.lookup_map_attributes, found, Option.map_some]

/-- A used volume has a block in the loaded index, so that the array of volumes
covers all numbers that were given out. -/
theorem used_volumes_counted {state : WriteState} (consistent : Consistent state)
    (allClosed : AllClosed state) :
    state.nextVolumeNumber ≤
      (openForReading state.files (state.index.mapAttributes reloaded)).nVolumes := by
  have listed : List.range state.nextVolumeNumber ⊆
      (volumeNumbers (state.index.mapAttributes reloaded)).dedup := by
    intro number member
    obtain ⟨path, present, uses⟩ := consistent.used number (List.mem_range.mp member)
    rw [List.mem_dedup]
    rcases uses with streaming | recorded
    · rcases allClosed path with absent | closed
      · exact absurd absent present
      · rw [closed] at streaming
        cases streaming
    · obtain ⟨attributes, found, block, inside, same⟩ := recorded
      rw [← same]
      exact volume_number_counted (lookup_reloaded found) inside
  have shorter := (List.nodup_range.subperm listed).length_le
  rw [List.length_range] at shorter
  exact shorter

/-- The node of a closed writer, as it is loaded again. -/
theorem closed_writer_stored {state : WriteState} (consistent : Consistent state)
    (allClosed : AllClosed state) {path : Path} (closed : state.writers path = .closed) :
    ∃ attributes, state.index.lookup path = some attributes ∧
      (attributes.blocks ≠ [] → attributes.ownsBlocks = true) ∧
      InRange (openForReading state.files (state.index.mapAttributes reloaded))
        attributes.blocks ∧
      AllPresent state.files attributes.blocks ∧
      storedBytes state.files attributes.blocks = state.accepted path := by
  have present : state.writers path ≠ .absent := by simp [closed]
  obtain ⟨attributes, found, recorded, owned, contents⟩ :=
    (consistent.writer path).stored present
  have counted := used_volumes_counted consistent allClosed
  rw [closed] at contents
  simp only [inFlight, remaining, List.append_nil] at contents
  refine ⟨attributes, found, owned, ?_, ?_, contents⟩
  · intro block member
    have below := (recorded block member).1
    omega
  · intro block member
    exact (recorded block member).2

/-- Whatever the writers did, a block stream over the loaded block list of a
path delivers what was written for that path, for any sequence of requests. -/
theorem volume_round_trip (volumeSize : UInt64) (index : BackupNodeIndex) (state : WriteState)
    (reachable : (writing volumeSize index).Reachable System.anyStep state)
    (allClosed : AllClosed state) :
    ∃ loaded, deserializeIndex (serializeIndex state.index) = .ok loaded ∧
      ∀ path, state.writers path = .closed →
        ∃ attributes, loaded.lookup path = some attributes ∧
          ∀ (requests : List UInt32) (output : Except Fault (List Bytes)),
            Finishes (readSequence (openForReading state.files loaded)
              (openBlocks attributes.blocks) requests) output ↔
                output = .ok (deliveries (state.accepted path) requests) := by
  have consistent := consistent_reachable reachable
  refine ⟨_, deserialize_index_serialize state.index, ?_⟩
  intro path closed
  obtain ⟨attributes, found, _, inRange, present, contents⟩ :=
    closed_writer_stored consistent allClosed closed
  refine ⟨reloaded attributes, lookup_reloaded found, ?_⟩
  intro requests output
  have blocks : (reloaded attributes).blocks = attributes.blocks := rfl
  have front := extents_open attributes.blocks
  rw [blocks, read_sequence_present _ _ requests output, front]
  · simp only [openForReading, contents]
  · exact inRange
  · rw [front]
    exact present

section SharedVolumes

/-! Two writers share volumes of three bytes: the second one takes over what
the first one left free, and its bytes are cut over two volumes. -/

def firstPath : Path := ⟨["a"]⟩
def secondPath : Path := ⟨["b"]⟩

def newFile (size : Nat) : BackupNodeAttributes :=
  .ofFileSystemNodeAttributes false
    { type := .file
      size := size
      permissions := posixPermissions 0 0 420
      lastModifiedTime := none }

def twoFiles : BackupNodeIndex :=
  (NodeIndex.empty.addNode firstPath (newFile 2)).addNode secondPath (newFile 3)

def sharedVolumeSteps : List WriteLabel :=
  [.createFile firstPath, .createFile secondPath, .beginWrite firstPath [1, 2]] ++
    passLabels firstPath 2 ++ [.finishWrite firstPath, .closeFile firstPath] ++
    [.beginWrite secondPath [3, 4, 5]] ++ passLabels secondPath 1 ++ passLabels secondPath 1 ++
    passLabels secondPath 1 ++ [.finishWrite secondPath, .closeFile secondPath]

theorem shared_volumes_all_closed {final : WriteState}
    (run : (writing 3 twoFiles).run (openFileSystem twoFiles) sharedVolumeSteps = some final) :
    AllClosed final := by
  have outcome : ((writing 3 twoFiles).run (openFileSystem twoFiles) sharedVolumeSteps).map
      (fun final => (final.writers firstPath, final.writers secondPath)) =
        some (.closed, .closed) := by decide
  rw [run, Option.map_some, Option.some.injEq, Prod.mk.injEq] at outcome
  obtain ⟨firstClosed, secondClosed⟩ := outcome
  intro path
  by_cases first : path = firstPath
  · rw [first]
    exact .inr firstClosed
  · by_cases second : path = secondPath
    · rw [second]
      exact .inr secondClosed
    · left
      apply run_other_writers sharedVolumeSteps run
      have writers : sharedVolumeSteps.map WriteLabel.writer ⊆ [firstPath, secondPath] := by
        decide
      intro label member same
      have listed := writers (List.mem_map_of_mem member)
      rw [← same] at listed
      simp [first, second] at listed

theorem shared_volumes_round_trip :
    ∃ final, (writing 3 twoFiles).run (openFileSystem twoFiles) sharedVolumeSteps = some final ∧
      ∃ loaded, deserializeIndex (serializeIndex final.index) = .ok loaded ∧
        ∃ attributes, loaded.lookup secondPath = some attributes ∧
          ∀ output, Finishes (readSequence (openForReading final.files loaded)
            (openBlocks attributes.blocks) [2, 2, 2]) output ↔
              output = .ok [[3, 4], [5], []] := by
  have outcome : ((writing 3 twoFiles).run (openFileSystem twoFiles) sharedVolumeSteps).map
      (fun final => (final.writers secondPath, final.accepted secondPath)) =
        some (.closed, [3, 4, 5]) := by decide
  obtain ⟨final, run, facts⟩ := Option.map_eq_some_iff.mp outcome
  obtain ⟨secondClosed, accepted⟩ := Prod.mk.inj facts
  obtain ⟨loaded, decoded, reads⟩ := volume_round_trip 3 twoFiles final
    (System.reachable_of_run sharedVolumeSteps run) (shared_volumes_all_closed run)
  obtain ⟨attributes, found, delivers⟩ := reads secondPath secondClosed
  refine ⟨final, run, loaded, decoded, attributes, found, ?_⟩
  intro output
  rw [delivers [2, 2, 2] output, accepted]
  rfl

end SharedVolumes

end ACBackup.VolumeRoundTrip
