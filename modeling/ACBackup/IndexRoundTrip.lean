import ACBackup.SnapshotManager

/-!
The index file of a new snapshot. The encoder leaves out what the decoder is
expected to guess: the size of a directory, and the ownership of a node without
blocks. The nodes that `AddSnapshot` makes are those for which the guess is right.
-/

namespace ACBackup.IndexRoundTrip

open ACBackup.Platform ACBackup.NodeAttributes ACBackup.Indexing ACBackup.IndexSerialization
open ACBackup.VolumeReading ACBackup.SnapshotCreation ACBackup.SnapshotPlan
open ACBackup.SnapshotNodes ACBackup.SnapshotManager

set_option autoImplicit false

structure Preserved (written loaded : Path × BackupNodeAttributes) : Prop where
  path : loaded.1 = written.1
  type : loaded.2.type = written.2.type
  size : loaded.2.size = written.2.size
  lastModifiedTime : loaded.2.lastModifiedTime = written.2.lastModifiedTime
  permissions : loaded.2.permissions = written.2.permissions
  blocks : loaded.2.blocks = written.2.blocks
  hashes : loaded.2.hashes = written.2.hashes
  ownership : written.2.blocks ≠ [] →
    loaded.2.ownsBlocks = written.2.ownsBlocks ∧
    loaded.2.backReferenceTarget = written.2.backReferenceTarget ∧
    loaded.2.compressionSetting = written.2.compressionSetting
  hasNodeData : loaded.2.hasNodeData = written.2.hasNodeData

structure Guessable (attributes : BackupNodeAttributes) : Prop where
  directorySize : attributes.type = .directory → attributes.size = 0
  ownsNothing : attributes.blocks = [] → attributes.ownsBlocks = true → attributes.size = 0

theorem reloaded_size {attributes : BackupNodeAttributes}
    (directorySize : attributes.type = .directory → attributes.size = 0) :
    (reloaded attributes).size = attributes.size := by
  by_cases directory : attributes.type = .directory
  · simp only [reloaded, if_pos directory, directorySize directory]
  · simp only [reloaded, if_neg directory]

theorem reloaded_has_node_data {attributes : BackupNodeAttributes}
    (guessable : Guessable attributes) :
    (reloaded attributes).hasNodeData = attributes.hasNodeData := by
  have size := reloaded_size guessable.directorySize
  rw [BackupNodeAttributes.hasNodeData, BackupNodeAttributes.hasNodeData, size]
  by_cases empty : attributes.blocks = []
  · simp only [reloaded, if_pos empty]
    cases owns : attributes.ownsBlocks with
    | false => rfl
    | true => simp [guessable.ownsNothing empty owns]
  · simp only [reloaded, if_neg empty]

/-- A node survives the file exactly when the defaults are right for it. -/
theorem preserved_iff (entry : Path × BackupNodeAttributes) :
    Preserved entry (entry.1, reloaded entry.2) ↔ Guessable entry.2 := by
  constructor
  · intro preserved
    have directorySize : entry.2.type = .directory → entry.2.size = 0 := by
      intro directory
      have same := preserved.size
      simp only [reloaded, if_pos directory] at same
      exact same.symm
    refine ⟨directorySize, ?_⟩
    intro empty owns
    have same := preserved.hasNodeData
    have kept : entry.2.type = .directory ∨ entry.2.size = 0 := by
      simpa [BackupNodeAttributes.hasNodeData, reloaded, empty, owns] using same
    exact kept.elim directorySize id
  · intro guessable
    refine ⟨rfl, rfl, reloaded_size guessable.directorySize, rfl, rfl, rfl, rfl, ?_,
      reloaded_has_node_data guessable⟩
    intro nonempty
    simp only [reloaded, if_neg nonempty, and_self]

/-- Every route makes nodes for which the defaults of the decoder are right. -/
theorem created_guessable {runtime : Runtime} {last : Option BackupNodeIndex} {call : Call}
    {created : Created} {path : Path} {attributes : FileSystemNodeAttributes}
    {made : BackupNodeAttributes}
    (sourced : call.source.index.lookup path = some attributes)
    (route : NodeCreated runtime last call created path attributes made) : Guessable made := by
  have member := (NodeIndex.lookup_eq_some _ _ _).mp sourced
  have directorySize := call.source.directorySize (path, attributes) member
  cases route with
  | directory isDirectory =>
      exact ⟨fun _ => directorySize isDirectory, fun _ _ => directorySize isDirectory⟩
  | stored isContent sized _ blocks ownsBlocks _ _ _ bytes =>
      refine ⟨fun directory => absurd directory isContent, ?_⟩
      intro empty _
      have nothing : blocks = [] := empty
      rw [nothing] at bytes
      have content := store_content_empty bytes.symm
      rw [content] at sized
      exact sized.symm
  | inPlace =>
      refine ⟨directorySize, ?_⟩
      intro _ owns
      cases owns
  | moved =>
      refine ⟨directorySize, ?_⟩
      intro _ owns
      cases owns

theorem hash_index_defined (algorithm : HashAlgorithm) (index : BackupNodeIndex)
    (hash : String) :
    (∃ node, findNodeIndexByHash algorithm index hash = some node) ↔
      ∃ path attributes, (path, attributes) ∈ index.nodes ∧
        attributes.hashes algorithm = some hash := by
  rw [← Option.isSome_iff_exists, ← not_iff_not, Bool.not_eq_true, Option.isSome_eq_false_iff,
    Option.isNone_iff_eq_none, find_node_index_by_hash_none]
  simp only [NodeIndex.lookup_eq_some, not_exists, not_and, ne_eq]

/-- What `AddSnapshot` serialises is read back node by node, with a hash index of
the digests that were recorded. -/
theorem index_round_trip (runtime : Runtime) (last : Option BackupNodeIndex) (call : Call)
    (created : Created) (run : createSnapshot runtime last call = some created) :
    ∃ loaded, deserializeIndex (serializeIndex created.index) = .ok loaded ∧
      List.Forall₂ Preserved created.index.nodes loaded.nodes ∧
      ∀ algorithm hash,
        ((∃ node, findNodeIndexByHash algorithm loaded hash = some node) ↔
          ∃ path attributes, (path, attributes) ∈ created.index.nodes ∧
            attributes.hashes algorithm = some hash) ∧
        ∀ node, findNodeIndexByHash algorithm loaded hash = some node →
          ∃ path attributes, loaded.nodes[node]? = some (path, attributes) ∧
            attributes.hashes algorithm = some hash := by
  refine ⟨_, deserialize_index_serialize created.index, ?_, ?_⟩
  · rw [NodeIndex.mapAttributes, List.forall₂_map_right_iff, List.forall₂_same]
    intro entry member
    rw [preserved_iff]
    have found := (NodeIndex.lookup_eq_some created.index entry.1 entry.2).mpr member
    obtain ⟨attributes, sourced, route⟩ := (snapshot_created run).nodes entry.1 entry.2 found
    exact created_guessable sourced route
  · intro algorithm hash
    refine ⟨?_, fun node hit => find_node_index_by_hash_some hit⟩
    rw [hash_index_defined]
    simp only [NodeIndex.mapAttributes, List.mem_map, Prod.mk.injEq]
    constructor
    · rintro ⟨path, attributes, ⟨written, member, rfl, rfl⟩, recorded⟩
      exact ⟨written.1, written.2, member, recorded⟩
    · rintro ⟨path, attributes, member, recorded⟩
      exact ⟨path, reloaded attributes, ⟨(path, attributes), member, rfl, rfl⟩, recorded⟩

theorem stored_file_round_trip :
    ∃ created loaded, createSnapshot spellingRuntime none firstBackup = some created ∧
      created.index.nodes.map (fun entry => entry.2.blocks.length) = [1] ∧
      deserializeIndex (serializeIndex created.index) = .ok loaded ∧
      List.Forall₂ Preserved created.index.nodes loaded.nodes := by
  have outcome : (createSnapshot spellingRuntime none firstBackup).map
      (fun created => created.index.nodes.map fun entry => entry.2.blocks.length) =
        some [1] := by decide +kernel
  obtain ⟨created, run, blocks⟩ := Option.map_eq_some_iff.mp outcome
  obtain ⟨loaded, decoded, preserved, _⟩ :=
    index_round_trip spellingRuntime none firstBackup created run
  exact ⟨created, loaded, run, blocks, decoded, preserved⟩

end ACBackup.IndexRoundTrip
