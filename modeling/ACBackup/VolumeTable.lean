import ACBackup.IncrementalStorage
import ACBackup.ReadPaths
import ACBackup.OpenVolumeCount

/-!
The array of volumes that a file system is opened with is long enough for every
node that has its data. Its length is the number of different volumes in the index,
which is right because the writers number their volumes without a gap, and because
an empty content leaves no block that could be taken over.
-/

namespace ACBackup.VolumeTable

open ACBackup.Library.Outcome ACBackup.Library.Transition ACBackup.Library.Parties
open ACBackup.Platform ACBackup.NodeAttributes ACBackup.Indexing ACBackup.IndexSerialization
open ACBackup.SourceIndex ACBackup.VolumeReading ACBackup.SnapshotChain ACBackup.SnapshotCreation ACBackup.SnapshotPlan
open ACBackup.SnapshotNodes ACBackup.SnapshotManager ACBackup.DataResolution
open ACBackup.IncrementalStorage ACBackup.ReadPaths ACBackup.ReadingStreams
open ACBackup.OpenVolumeCount

set_option autoImplicit false

/-- No other content has the digest of the empty one. -/
def EmptyDigestUnique (runtime : Runtime) : Prop :=
  ∀ algorithm content, runtime.hash algorithm content = runtime.hash algorithm [] → content = []

structure EmptyUnstored (runtime : Runtime) (attributes : BackupNodeAttributes) : Prop where
  directory : attributes.type = .directory → attributes.blocks = []
  size : attributes.size = 0 → attributes.blocks = []
  digest : ∀ algorithm, attributes.hashes algorithm = some (runtime.hash algorithm []) →
    attributes.blocks = []

section NewEntries

variable {runtime : Runtime} {last : Option BackupNodeIndex} {entry : Entry} {path : Path}
  {attributes : FileSystemNodeAttributes} {old made : BackupNodeAttributes}

theorem empty_unstored_reloaded (directory : made.type = .directory → made.blocks = [])
    (size : made.size = 0 → made.blocks = [])
    (digest : ∀ algorithm, made.hashes algorithm = some (runtime.hash algorithm []) →
      made.blocks = []) : EmptyUnstored runtime (reloaded made) where
  directory := directory
  size zero := by
    by_cases isDirectory : made.type = .directory
    · exact directory isDirectory
    · simp only [reloaded, if_neg isDirectory] at zero
      exact size zero
  digest := digest

theorem empty_unstored_taken {lastIndex : BackupNodeIndex} {algorithm : HashAlgorithm}
    {source : OSFileSystemNodeIndex} {oldPath : Path} (before : EmptyUnstored runtime old)
    (taken : takenOverFrom runtime algorithm (some lastIndex) source path attributes =
      some (oldPath, old))
    (known : attributes.equals old.toFileSystemNodeAttributes = true ∨
      (source.content path).length = attributes.size)
    (type : made.type = attributes.type) (size : made.size = attributes.size)
    (hashes : made.hashes = old.hashes) (blocks : made.blocks = old.blocks) :
    EmptyUnstored runtime (reloaded made) := by
  obtain ⟨_, basis⟩ := taken_over_from_some taken
  have equalSize : attributes.equals old.toFileSystemNodeAttributes = true → made.size = 0 →
      made.blocks = [] := by
    intro equals zero
    rw [blocks]
    apply before.size
    rw [← ((equals_iff _ _).mp equals).2.1, ← size, zero]
  apply empty_unstored_reloaded
  · intro isDirectory
    rcases basis with ⟨_, equals⟩ | ⟨isContent, _⟩
    · rw [blocks]
      apply before.directory
      rw [← ((equals_iff _ _).mp equals).1, ← type, isDirectory]
    · exact absurd (type ▸ isDirectory) isContent
  · intro zero
    rcases basis with ⟨_, equals⟩ | ⟨_, digest⟩
    · exact equalSize equals zero
    · rcases known with equals | sized
      · exact equalSize equals zero
      · rw [← size, zero, List.length_eq_zero_iff] at sized
        rw [sized] at digest
        rw [blocks]
        exact before.digest algorithm digest
  · intro other digest
    rw [hashes] at digest
    rw [blocks]
    exact before.digest other digest

theorem empty_unstored_new_entry (unique : EmptyDigestUnique runtime)
    (new : NewEntry runtime last entry)
    (before : ∀ lastIndex path old, last = some lastIndex → lastIndex.lookup path = some old →
      EmptyUnstored runtime old)
    {loaded : BackupNodeAttributes} (found : entry.index.lookup path = some loaded) :
    EmptyUnstored runtime loaded := by
  obtain ⟨created, run, index, _⟩ := new
  rw [index, NodeIndex.lookup_map_attributes, Option.map_eq_some_iff] at found
  obtain ⟨made, present, rfl⟩ := found
  obtain ⟨attributes, sourced, route⟩ := (snapshot_created run).nodes path made present
  have origin : ∀ oldPath old, takenOverFrom runtime entry.call.hashAlgorithm last
      entry.call.source path attributes = some (oldPath, old) →
      ∃ lastIndex, last = some lastIndex ∧ EmptyUnstored runtime old := by
    intro oldPath old taken
    cases last with
    | none => cases taken
    | some lastIndex =>
        exact ⟨lastIndex, rfl, before lastIndex oldPath old rfl (taken_over_from_some taken).1⟩
  cases route with
  | directory isDirectory anew =>
      apply empty_unstored_reloaded
      · intro _
        rfl
      · intro _
        rfl
      · intro _ _
        rfl
  | stored isContent sized anew blocks ownsBlocks owned inRange allPresent bytes =>
      have filled : blocks ≠ [] → entry.call.source.content path ≠ [] :=
        stored_blocks_filled run sourced anew present
      have emptied : entry.call.source.content path = [] → blocks = [] := by
        intro empty
        by_contra some
        exact filled some empty
      apply empty_unstored_reloaded
      · intro isDirectory
        exact absurd isDirectory isContent
      · intro zero
        apply emptied
        rw [← List.length_eq_zero_iff, sized]
        exact zero
      · intro algorithm digest
        apply emptied
        by_cases same : algorithm = entry.call.hashAlgorithm
        · subst same
          simp only [Function.update_self, Option.some.injEq] at digest
          exact unique _ _ digest
        · simp [Function.update_of_ne same] at digest
  | inPlace old taken known =>
      obtain ⟨lastIndex, rfl, oldUnstored⟩ := origin path old taken
      exact empty_unstored_taken oldUnstored taken known rfl rfl rfl rfl
  | moved oldPath old different taken sized =>
      obtain ⟨lastIndex, rfl, oldUnstored⟩ := origin oldPath old taken
      exact empty_unstored_taken oldUnstored taken (.inr sized) rfl rfl rfl rfl

theorem owned_blocks_in_range (new : NewEntry runtime last entry) {loaded : BackupNodeAttributes}
    (found : entry.index.lookup path = some loaded) (owns : loaded.ownsBlocks = true) :
    InRange (openForReading entry.files entry.index) loaded.blocks := by
  obtain ⟨created, sourceAttributes, made, run, index, files, sourced, route, rfl⟩ :=
    new_entry_node new found
  rw [index, files]
  cases route with
  | directory isDirectory anew => simp [reloaded, BackupNodeAttributes.ofFileSystemNodeAttributes] at owns
  | stored isContent sized anew blocks ownsBlocks owned inRange allPresent bytes => exact inRange
  | inPlace old taken known => simp [reloaded] at owns
  | moved oldPath old different taken sized => simp [reloaded] at owns

end NewEntries

section Chains

variable {runtime : Runtime} {chain : Chain}

structure TableFits (runtime : Runtime) (entry : Entry) : Prop where
  unstored : ∀ path attributes, entry.index.lookup path = some attributes →
    EmptyUnstored runtime attributes
  owned : ∀ path attributes, entry.index.lookup path = some attributes →
    attributes.ownsBlocks = true →
      InRange (openForReading entry.files entry.index) attributes.blocks

theorem table_fits_reachable (unique : EmptyDigestUnique runtime)
    {allowed : Chain → Call → Prop} (reachable : (backups runtime).Reachable allowed chain) :
    ∀ entry ∈ chain, TableFits runtime entry := by
  apply entries_reachable (TableFits runtime) _ reachable
  intro before entry _ older _ new
  constructor
  · intro path attributes found
    apply empty_unstored_new_entry unique new _ found
    intro lastIndex oldPath old same present
    cases before with
    | nil => cases same
    | cons newest rest =>
        cases same
        exact (older newest (List.mem_cons_self ..)).unstored oldPath old present
  · intro path attributes found owns
    exact owned_blocks_in_range new found owns

/-- The number of volumes does not depend on what the files hold. -/
theorem table_fits_has_data {entry : Entry} (fits : TableFits runtime entry)
    {attributes : BackupNodeAttributes} {path : Path}
    (found : entry.index.lookup path = some attributes) (hasData : attributes.hasNodeData = true)
    (files : Nat → Bytes) : InRange (openForReading files entry.index) attributes.blocks := by
  simp only [BackupNodeAttributes.hasNodeData, Bool.or_eq_true, decide_eq_true_eq] at hasData
  rcases hasData with owns | zero
  · exact fits.owned path attributes found owns
  · rw [(fits.unstored path attributes found).size zero]
    intro block member
    cases member

theorem find_data_snapshot_entry {snapshot : Snapshot} {previous : List Snapshot} {node : Nat}
    {found : DataNode} (search : findDataSnapshot snapshot previous node = .ok found) :
    ∃ path attributes, snapshot.index.nodes[node]? = some (path, attributes) := by
  unfold findDataSnapshot at search
  obtain ⟨attributes, known, _⟩ := bind_ok search
  obtain ⟨path, entry⟩ := (NodeIndex.get_node_attributes_ok _ _ _).mp known
  exact ⟨path, attributes, entry⟩

theorem restore_source_in_range (unique : EmptyDigestUnique runtime)
    (reachable : (backups runtime).Reachable System.anyStep chain) {snapshot : Snapshot}
    {previous : List Snapshot} (suffix : snapshot :: previous <:+ chain.map Entry.snapshot)
    {node : Nat} {source : StreamSource}
    (restored : restoreSource snapshot previous node = .ok source)
    {attributes : BackupNodeAttributes}
    (found : source.snapshot.index.getNodeAttributes source.nodeIndex = .ok attributes)
    (volumes : VolumeContents) :
    InRange (source.snapshot.fileSystem volumes) attributes.blocks := by
  obtain ⟨data, nodeIndex, search, number, rfl⟩ := restore_source_ok restored
  obtain ⟨path, dataAttributes, entry⟩ := find_data_snapshot_entry search
  obtain ⟨known, present, hasData, _⟩ := find_data_snapshot_owner entry search
  obtain ⟨numbered, numberedEntry⟩ := (NodeIndex.get_node_index_ok _ _ _).mp number
  obtain ⟨otherPath, otherEntry⟩ := (NodeIndex.get_node_attributes_ok _ _ _).mp found
  rw [numberedEntry, Option.some.injEq, Prod.mk.injEq] at otherEntry
  obtain ⟨_, rfl⟩ := otherEntry
  rw [NodeIndex.lookup_of_get numberedEntry, Option.some.injEq] at present
  subst present
  have member := suffix.subset (find_data_snapshot_mem entry search)
  obtain ⟨dataEntry, inside, same⟩ := List.mem_map.mp member
  have index : data.snapshot.index = dataEntry.index := by
    rw [← same]
    rfl
  have lookup : dataEntry.index.lookup data.path = some numbered :=
    index ▸ NodeIndex.lookup_of_get numberedEntry
  unfold Snapshot.fileSystem
  rw [index]
  exact table_fits_has_data (table_fits_reachable unique reachable dataEntry inside) lookup
    hasData _

end Chains

/-- Files are opened at nodes that `FindDataSnapshot` has returned. -/
def OpensDataNodes (snapshots : List Snapshot) (dataSnapshot : Snapshot)
    (_ : Crowd ReadingSide ReadingStream) : CrowdLabel FileOpening ReadAction → Prop
  | .join opening =>
      ∃ snapshot previous node, snapshot :: previous <:+ snapshots ∧
        restoreSource snapshot previous node =
          .ok { snapshot := dataSnapshot, nodeIndex := opening.fileIndex }
  | .act _ _ => True

section Streams

variable {algorithm : HashAlgorithm} {store : VolumeStore} {index : BackupNodeIndex}
  {allowed : Crowd ReadingSide ReadingStream → CrowdLabel FileOpening ReadAction → Prop}
  {crowd : Crowd ReadingSide ReadingStream}

structure Inside (number : Nat) (side : ReadingSide) (reader : ReadingStream) : Prop where
  known : Known number side reader
  blocks : ∀ block ∈ reader.stream.blocks, block.volumeNumber < side.volumes.length
  expected : reader.expected ≠ .error .outOfRange
  phase : reader.phase ≠ .raised .outOfRange

theorem alive_not_raised {reader : ReadingStream} (alive : reader.alive = true) {fault : Fault} :
    reader.phase ≠ .raised fault := by
  intro raised
  simp [ReadingStream.alive, raised] at alive

theorem acted_inside {number : Nat} {side after : ReadingSide} {reader next : ReadingStream}
    (inside : Inside number side reader) (acted : Acted side number reader after next) :
    Inside number after next := by
  obtain ⟨blocks, expected⟩ := acted_keeps acted
  have respects := acted_respects inside.known acted
  refine ⟨acted_known inside.known acted, ?_, expected ▸ inside.expected, ?_⟩
  · rw [blocks, respects.length]
    exact inside.blocks
  · cases acted with
    | beyond block counting here outside =>
        have missing := List.getElem?_eq_none_iff.mp outside
        have present := inside.blocks block (List.mem_of_getElem? here)
        omega
    | undigested fault counting all raises =>
        intro raised
        cases raised
        exact inside.expected raises
    | strayed count reading outside => exact (not_strayed inside.known reading outside).elim
    | unlockable request looping outside =>
        exact (not_unlockable inside.known looping outside).elim
    | counted block volume counting here found free => simp [counting]
    | left block volume count reading here finished found free =>
        exact alive_not_raised (request_alive reader _ count)
    | requested block count reading here => exact alive_not_raised (request_alive reader _ count)
    | built counting all => simp
    | returns alive steady => simp
    | began count idle inside => simp
    | staged request stage reached side' inVolume step => simp
    | answered request looping => simp
    | locked request volume looping found free => simp
    | received request nBytesRead ready => simp
    | destroyed idle => simp

theorem open_file_expected {opening : FileOpening} {reader : ReadingStream}
    (joined : openFile algorithm index opening = some reader) :
    reader.expected ≠ .error .outOfRange := by
  unfold openFile at joined
  cases attributes : index.getNodeAttributes opening.fileIndex with
  | error fault => simp [attributes] at joined
  | ok found =>
      simp only [attributes, Option.some.injEq] at joined
      subst joined
      by_cases verify : opening.verify = true
      · simp only [verify, if_true, BackupNodeAttributes.hash]
        cases found.hashes algorithm <;> simp [Except.map]
      · simp [verify]

/-- When all openings are in range, all accesses are. -/
theorem inside_reachable
    (inRange : ∀ crowd opening attributes, allowed crowd (.join opening) →
      index.getNodeAttributes opening.fileIndex = .ok attributes →
        InRange store attributes.blocks)
    (reachable : (readers algorithm store index).system.Reachable allowed crowd) {number : Nat}
    {reader : ReadingStream} (found : crowd.parties[number]? = some reader) :
    Inside number crowd.shared reader := by
  refine Protocol.parties_reachable Inside ?_ ?_ ?_ reachable found
  · intro crowd opening reader reached permitted joined
    obtain ⟨attributes, known, stream, counted, phase⟩ := open_file_some joined
    refine ⟨opened_known joined _ _, ?_, open_file_expected joined, by simp [phase]⟩
    rw [stream, volumes_length reached]
    exact inRange crowd opening attributes permitted known
  · intro number before after reader next action inside taken
    exact acted_inside inside (act_some taken)
  · intro number other before after reader next bystander action different inside present taken
    have respects := acted_respects inside.known (act_some taken)
    refine ⟨known_respected respects different present.known, ?_, present.expected, present.phase⟩
    rw [respects.length]
    exact present.blocks

end Streams

/-- All blocks of a node that has data are in the array, and no stream that is opened at
such a node ever asks for a volume behind its end. -/
theorem volume_table_bounds (runtime : Runtime) (unique : EmptyDigestUnique runtime)
    (chain : Chain) (reachable : (backups runtime).Reachable System.anyStep chain) :
    (∀ entry ∈ chain, ∀ path attributes, entry.index.lookup path = some attributes →
      attributes.hasNodeData = true → ∀ volumes, ∀ block ∈ attributes.blocks,
        block.volumeNumber < (entry.snapshot.fileSystem volumes).nVolumes) ∧
    (∀ dataSnapshot algorithm volumes crowd,
      (snapshotReaders algorithm volumes dataSnapshot).system.Reachable
        (OpensDataNodes (chain.map Entry.snapshot) dataSnapshot) crowd →
      ∀ reader ∈ crowd.parties, reader.phase ≠ .raised .outOfRange) := by
  constructor
  · intro entry member path attributes found hasData volumes
    exact table_fits_has_data (table_fits_reachable unique reachable entry member) found hasData _
  · intro dataSnapshot algorithm volumes crowd opened reader member
    obtain ⟨number, found⟩ := List.getElem?_of_mem member
    have inside : Inside number crowd.shared reader := by
      apply inside_reachable _ opened found
      intro before opening attributes permitted known
      obtain ⟨snapshot, previous, node, suffix, restored⟩ := permitted
      exact restore_source_in_range unique reachable suffix restored known volumes
    exact inside.phase

theorem moved_file_in_table :
    ∃ chain, (backups spellingRuntime).run [] [firstBackup, moveBackup] = some chain ∧
      chain.map (fun entry => (volumeNumbers entry.index).length) = [1, 1] ∧
      ∀ entry ∈ chain, ∀ path attributes, entry.index.lookup path = some attributes →
        attributes.hasNodeData = true → ∀ volumes, ∀ block ∈ attributes.blocks,
          block.volumeNumber < (entry.snapshot.fileSystem volumes).nVolumes := by
  have outcome : ((backups spellingRuntime).run [] [firstBackup, moveBackup]).map (fun chain =>
      chain.map fun entry => (volumeNumbers entry.index).length) = some [1, 1] := by
    decide +kernel
  obtain ⟨chain, run, numbers⟩ := Option.map_eq_some_iff.mp outcome
  have unique : EmptyDigestUnique spellingRuntime := by
    intro algorithm content same
    exact spelling_collision_free algorithm same
  have bounds := volume_table_bounds spellingRuntime unique chain
    (System.reachable_of_run [firstBackup, moveBackup] run)
  exact ⟨chain, run, numbers, bounds.1⟩

end ACBackup.VolumeTable
