import ACBackup.Restore
import ACBackup.AddSnapshotAnswer

/-!
Recovery: every snapshot of a history, however many came after it, gives back the
source as it was when the snapshot was taken.
-/

namespace ACBackup.SourceRecovery

open ACBackup.Library.Loop ACBackup.Library.Outcome ACBackup.Library.Tasks
open ACBackup.Library.Transition
open ACBackup.Platform ACBackup.NodeAttributes ACBackup.Indexing ACBackup.SourceIndex
open ACBackup.VolumeReading ACBackup.FileReading ACBackup.SnapshotChain
open ACBackup.SnapshotCreation ACBackup.SnapshotPlan ACBackup.SnapshotManager
open ACBackup.RecordedContent
open ACBackup.DataResolution ACBackup.SnapshotVerification ACBackup.SnapshotMirror
open ACBackup.Restore ACBackup.StoredContent ACBackup.AddSnapshotAnswer

set_option autoImplicit false

/-- Snapshots are named in the order of their creation, with one algorithm, and a
file or link that keeps its type, size and modification time keeps its content. -/
def Regular (algorithm : HashAlgorithm) (past : List Call) (call : Call) : Prop :=
  InOrder past call ∧ Unmodified algorithm past call

section Recoveries

variable {runtime : Runtime} {algorithm : HashAlgorithm} {chain : Chain}

theorem regular_orderly
    (reachable : (backups runtime).Reachable (after (Regular algorithm)) chain) :
    (backups runtime).Reachable (after (Orderly algorithm)) chain :=
  System.reachable_mono (fun _ _ regular => ⟨regular.1, regular.2.1⟩) reachable

theorem regular_unmodified
    (reachable : (backups runtime).Reachable (after (Regular algorithm)) chain) :
    (backups runtime).Reachable (after (Unmodified algorithm)) chain :=
  System.reachable_mono (fun _ _ regular => regular.2) reachable

theorem mirrored_type (collisionFree : CollisionFree runtime algorithm)
    (reachable : (backups runtime).Reachable (after (Regular algorithm)) chain) {entry : Entry}
    (member : entry ∈ chain) {path : Path} {loaded : BackupNodeAttributes}
    {attributes : FileSystemNodeAttributes} (found : entry.index.lookup path = some loaded)
    (sourced : entry.call.source.index.lookup path = some attributes) :
    loaded.type = attributes.type := by
  have mirrors := mirrors_reachable collisionFree (regular_unmodified reachable) entry member
  obtain ⟨other, otherSourced, equals⟩ := mirrors.attributes path loaded found
  rw [sourced, Option.some.injEq] at otherSourced
  subst otherSourced
  exact ((equals_iff _ _).mp equals).1

theorem flush_digest {store : VolumeStore} {stream : InputChain}
    (inRange : InRange store stream.blocks) {digest : String}
    (expected : stream.expected = some digest) {delivered : Bytes}
    (flushed : Finishes (flushTo runtime algorithm store stream) (.ok delivered)) :
    runtime.hash algorithm delivered = digest := by
  obtain ⟨_, result, _, checked⟩ := (flush_to_finishes inRange _).mp flushed
  cases result with
  | error fault => cases checked
  | ok raw =>
      simp only [Except.bind, checkDigest, expected] at checked
      split at checked
      · next matching =>
          cases checked
          exact matching
      · cases checked

/-- A file or link of a snapshot of the history, and the node with its data. -/
structure Located (runtime : Runtime) (algorithm : HashAlgorithm) (entry : Entry)
    (older : Chain) (path : Path) (content : Bytes) (node : Nat)
    (attributes : BackupNodeAttributes) (found : DataNode) (dataAttributes : BackupNodeAttributes) :
    Prop where
  nodeEntry : entry.index.nodes[node]? = some (path, attributes)
  records : Records runtime attributes content
  search : findDataSnapshot entry.snapshot (older.map Entry.snapshot) node = .ok found
  present : found.snapshot.index.lookup found.path = some dataAttributes
  hasData : dataAttributes.hasNodeData = true
  recorded : dataAttributes.hashes algorithm = some (runtime.hash algorithm content)
  dataRecords : Records runtime dataAttributes content

section Histories

variable (collisionFree : ∀ algorithm, CollisionFree runtime algorithm)
  (reachable : (backups runtime).Reachable (after (Regular algorithm)) chain)
  (current : HistoryCurrent runtime chain) {entry : Entry} {older : Chain}
  (suffix : entry :: older <:+ chain)

include collisionFree reachable current suffix

/-- The data of a node has the content that the source had, since it has its
digest. -/
theorem node_located {node : Nat} {path : Path} {loaded : BackupNodeAttributes}
    (nodeEntry : entry.index.nodes[node]? = some (path, loaded))
    (isContent : loaded.type ≠ .directory) :
    ∃ found dataAttributes, Located runtime algorithm entry older path
      (entry.call.source.content path) node loaded found dataAttributes := by
  have orderly := regular_orderly reachable
  have member : entry ∈ chain := suffix.subset (List.mem_cons_self ..)
  have mirrors := mirrors_reachable (collisionFree algorithm) (regular_unmodified reachable) entry
    member
  have digested := digested_reachable (fun _ _ regular => regular.2.1) reachable entry member
  have loadedFound := NodeIndex.lookup_of_get nodeEntry
  have records : Records runtime loaded (entry.call.source.content path) := by
    cases mirrors.contents path loaded loadedFound with
    | directory isDirectory _ _ => exact absurd isDirectory isContent
    | content content records holds => exact holds ▸ records
  have dataFound := (data_found_iff_history_current runtime algorithm (collisionFree algorithm)
    chain orderly).mpr current
  obtain ⟨newer, whole⟩ := suffix
  have parts : chain.map Entry.snapshot =
      newer.map Entry.snapshot ++ entry.snapshot :: older.map Entry.snapshot := by
    rw [← whole, List.map_append, List.map_cons]
  obtain ⟨found, dataAttributes, digest, search, present, hasData, recorded, dataRecorded⟩ :=
    dataFound _ _ _ parts node path loaded nodeEntry isContent
  have mirrored := mirrored_digest mirrors digested loadedFound isContent
  rw [recorded, Option.some.injEq] at mirrored
  rw [mirrored] at dataRecorded
  obtain ⟨dataEntry, inChain, same⟩ := data_entry ⟨newer, whole⟩ nodeEntry search
  have dataPresent : dataEntry.index.lookup found.path = some dataAttributes := by
    rw [← same] at present
    exact present
  have dataRecords : Records runtime dataAttributes (entry.call.source.content path) := by
    cases described_reachable (fun _ call _ => collisionFree call.hashAlgorithm) reachable
        dataEntry inChain found.path dataAttributes dataPresent with
    | directory _ _ undigested =>
        rw [undigested] at dataRecorded
        cases dataRecorded
    | content content records _ =>
        have sameContent : content = entry.call.source.content path := by
          apply collisionFree algorithm
          exact (records.digests algorithm _ dataRecorded).symm
        exact sameContent ▸ records
  exact ⟨found, dataAttributes, nodeEntry, records, search, present, hasData, dataRecorded,
    dataRecords⟩

theorem source_located {path : Path} {attributes : FileSystemNodeAttributes}
    (sourced : entry.call.source.index.lookup path = some attributes)
    (isContent : attributes.type ≠ .directory) :
    ∃ node loaded found dataAttributes, Located runtime algorithm entry older path
      (entry.call.source.content path) node loaded found dataAttributes := by
  have member : entry ∈ chain := suffix.subset (List.mem_cons_self ..)
  obtain ⟨last, new⟩ := new_entry_reachable reachable entry member
  obtain ⟨loaded, loadedFound⟩ := new_entry_lookup new sourced
  obtain ⟨node, _, nodeEntry⟩ := NodeIndex.get_node_index_of_lookup loadedFound
  have type := mirrored_type (collisionFree algorithm) reachable member loadedFound sourced
  have located := node_located collisionFree reachable current suffix nodeEntry
    (type.symm ▸ isContent)
  exact ⟨node, loaded, located⟩

end Histories

section Located

variable {entry : Entry} {older : Chain} {path : Path} {content : Bytes} {node : Nat}
  {attributes : BackupNodeAttributes} {found : DataNode} {dataAttributes : BackupNodeAttributes}
  (located : Located runtime algorithm entry older path content node attributes found
    dataAttributes)

include located

/-- The stored bytes are intact, as long as the volume files are as they were left. -/
theorem located_intact (collisionFree : ∀ algorithm, CollisionFree runtime algorithm)
    (decompresses : Decompresses runtime)
    (reachable : (backups runtime).Reachable (after (Regular algorithm)) chain)
    (suffix : entry :: older <:+ chain) :
    Intact runtime (found.snapshot.fileSystem (volumesOf chain)) dataAttributes content := by
  obtain ⟨dataEntry, inChain, same⟩ := data_entry suffix located.nodeEntry located.search
  have present : dataEntry.index.lookup found.path = some dataAttributes := by
    have present := located.present
    rw [← same] at present
    exact present
  obtain ⟨stored, records, intact⟩ := data_node_intact_reachable collisionFree decompresses
    reachable inChain present located.dataRecords.isContent located.hasData
  have sameContent : stored = content := by
    apply collisionFree algorithm
    exact ((records.digests algorithm _ located.recorded).symm.trans rfl)
  rw [← same, ← sameContent]
  exact intact

theorem located_opened (volumes : VolumeContents)
    (intact : Intact runtime (found.snapshot.fileSystem volumes) dataAttributes content) :
    ∃ stream, openData runtime algorithm volumes found = .ok stream ∧
      ∀ outcome, Finishes (flushTo runtime algorithm (found.snapshot.fileSystem volumes) stream)
        outcome ↔ outcome = .ok content :=
  (intact_node located.present intact located.dataRecords located.recorded found.distance).2

theorem located_read (volumes : VolumeContents)
    (intact : Intact runtime (found.snapshot.fileSystem volumes) dataAttributes content)
    (outcome : Except Fault Bytes) :
    Finishes (readNode runtime algorithm volumes entry.snapshot (older.map Entry.snapshot) node)
      outcome ↔ outcome = .ok content := by
  obtain ⟨stream, opened, flushed⟩ := located_opened located volumes intact
  rw [← flushed outcome]
  unfold readNode
  simp only [located.search, opened]

def checkedStream (runtime : Runtime) (algorithm : HashAlgorithm) (content : Bytes)
    (dataAttributes : BackupNodeAttributes) : InputChain where
  blocks := dataAttributes.blocks
  decoder := decoderOf runtime dataAttributes true
  expected := some (runtime.hash algorithm content)

theorem open_located (volumes : VolumeContents) :
    openData runtime algorithm volumes found =
      if InRange (found.snapshot.fileSystem volumes) dataAttributes.blocks then
        .ok (checkedStream runtime algorithm content dataAttributes)
      else .error .outOfRange := by
  obtain ⟨number, index, dataEntry⟩ := NodeIndex.get_node_index_of_lookup located.present
  have stored : found.snapshot.index.getNodeAttributes number = .ok dataAttributes :=
    (NodeIndex.get_node_attributes_ok _ _ _).mpr ⟨found.path, dataEntry⟩
  simp only [openData, index, bind, Except.bind]
  rw [open_file_for_reading stored, located.recorded]
  rfl

/-- Whatever the volume files hold, nothing but the content passes the digest. -/
theorem located_flush_sound (collisionFree : CollisionFree runtime algorithm)
    {volumes : VolumeContents} {stream : InputChain}
    (opened : openData runtime algorithm volumes found = .ok stream) {delivered : Bytes}
    (flushed : Finishes (flushTo runtime algorithm (found.snapshot.fileSystem volumes) stream)
      (.ok delivered)) : delivered = content := by
  rw [open_located located volumes] at opened
  split at opened
  · next inRange =>
      cases opened
      exact collisionFree (flush_digest inRange rfl flushed)
  · cases opened

theorem located_read_sound (collisionFree : CollisionFree runtime algorithm)
    {volumes : VolumeContents} {delivered : Bytes}
    (reads : Finishes (readNode runtime algorithm volumes entry.snapshot
      (older.map Entry.snapshot) node) (.ok delivered)) : delivered = content := by
  unfold readNode at reads
  simp only [located.search] at reads
  cases opened : openData runtime algorithm volumes found with
  | error fault =>
      simp only [opened] at reads
      cases (finishes_constant _ _).mp reads
  | ok stream =>
      simp only [opened] at reads
      exact located_flush_sound located collisionFree opened reads

end Located

end Recoveries

/-- Point-in-time recovery: in a regular history without stale references every
snapshot, whatever came after it, delivers for every file and link exactly the
content that the source had, and verifies. -/
theorem content_recovered (runtime : Runtime) (algorithm : HashAlgorithm)
    (collisionFree : ∀ algorithm, CollisionFree runtime algorithm)
    (decompresses : Decompresses runtime) (chain : Chain)
    (reachable : (backups runtime).Reachable (after (Regular algorithm)) chain)
    (current : HistoryCurrent runtime chain) (entry : Entry) (older : Chain)
    (suffix : entry :: older <:+ chain) :
    (∀ tasks, Finishes (verifySnapshot runtime algorithm (volumesOf chain) tasks entry.snapshot
        (older.map Entry.snapshot) true) (.ok [])) ∧
    ∀ path attributes, entry.call.source.index.lookup path = some attributes →
      attributes.type ≠ .directory →
        ∃ node, entry.index.getNodeIndex path = .ok node ∧
          ∀ outcome, Finishes (readNode runtime algorithm (volumesOf chain) entry.snapshot
            (older.map Entry.snapshot) node) outcome ↔
              outcome = .ok (entry.call.source.content path) := by
  have orderly := regular_orderly reachable
  constructor
  · intro tasks
    have dataFound := (data_found_iff_history_current runtime algorithm (collisionFree algorithm)
      chain orderly).mpr current
    exact (intact_verification collisionFree decompresses orderly suffix tasks []).mpr
      ⟨rfl, data_found_resolves collisionFree orderly dataFound suffix⟩
  · intro path attributes sourced isContent
    obtain ⟨node, loaded, _, _, located⟩ := source_located collisionFree reachable current suffix
      sourced isContent
    have intact := located_intact located collisionFree decompresses reachable suffix
    refine ⟨node, ?_, located_read located (volumesOf chain) intact⟩
    exact (NodeIndex.get_node_index_ok _ _ _).mpr ⟨loaded, located.nodeEntry⟩

def restoredAs (permissions : POSIXPermissions) (content : Bytes) : FileType → RestoredNode
  | .directory => .directory permissions
  | .file => .file permissions content
  | .link => .link content

def recordedPermissions (entry : Entry) (node : Path × FileSystemNodeAttributes) :
    POSIXPermissions :=
  match entry.index.lookup node.1 with
  | some loaded => loaded.permissions
  | none => node.2.permissions

def sourceTree (entry : Entry) (restorePoint : Path) : RestoredTree :=
  entry.call.source.index.nodes.map fun node =>
    (restorePoint.concat node.1,
      restoredAs (recordedPermissions entry node) (entry.call.source.content node.1) node.2.type)

section Trees

variable {runtime : Runtime} {algorithm : HashAlgorithm} {volumes : VolumeContents}
  {entry : Entry} {older : Chain} {restorePoint : Path}

def indexedNode (entry : Entry) (restorePoint : Path) (node : Path × BackupNodeAttributes) :
    Path × RestoredNode :=
  (restorePoint.concat node.1,
    restoredAs node.2.permissions (entry.call.source.content node.1) node.2.type)

/-- Going through the index or through the source makes no difference. -/
theorem source_tree_indexed
    (paths : (entry.index.nodes.map Prod.fst).Perm (entry.call.source.index.nodes.map Prod.fst))
    (types : ∀ path loaded attributes, entry.index.lookup path = some loaded →
      entry.call.source.index.lookup path = some attributes → loaded.type = attributes.type) :
    (entry.index.nodes.map (indexedNode entry restorePoint)).Perm
      (sourceTree entry restorePoint) := by
  let byPath : Path → Option (Path × RestoredNode) := fun path =>
    (entry.index.lookup path).map fun loaded => indexedNode entry restorePoint (path, loaded)
  have indexed : (entry.index.nodes.map Prod.fst).map byPath =
      (entry.index.nodes.map (indexedNode entry restorePoint)).map some := by
    rw [List.map_map, List.map_map]
    apply List.map_congr_left
    intro node member
    have found := (NodeIndex.lookup_eq_some _ _ _).mpr member
    simp only [Function.comp_apply, byPath, found, Option.map_some]
  have sourced : (entry.call.source.index.nodes.map Prod.fst).map byPath =
      (sourceTree entry restorePoint).map some := by
    rw [sourceTree, List.map_map, List.map_map]
    apply List.map_congr_left
    intro node member
    have present := (NodeIndex.lookup_eq_some _ _ _).mpr member
    have listed : node.1 ∈ entry.index.nodes.map Prod.fst :=
      paths.mem_iff.mpr (List.mem_map_of_mem member)
    cases found : entry.index.lookup node.1 with
    | none => exact absurd listed ((NodeIndex.lookup_eq_none _ _).mp found)
    | some loaded =>
        simp only [Function.comp_apply, byPath, found, Option.map_some, indexedNode,
          recordedPermissions, types node.1 loaded node.2 found present]
  have together := paths.map byPath
  rw [indexed, sourced] at together
  exact (List.map_perm_map_iff (Option.some_injective _)).mp together

theorem restored_directories {snapshot : Snapshot} {directories : RestoredTree}
    (run : restoreDirectories snapshot restorePoint = .ok directories) :
    directories.Perm ((snapshot.index.nodes.filter fun node => node.2.type = .directory).map
      fun node => (restorePoint.concat node.1, .directory node.2.permissions)) := by
  let created : Path → Option (Path × RestoredNode) := fun path =>
    (snapshot.index.lookup path).bind fun attributes =>
      if attributes.type = .directory then
        some (restorePoint.concat path, .directory attributes.permissions) else none
  obtain ⟨outputs, performed, same⟩ := bind_ok run
  cases same
  have listed : outputs = (pathMap snapshot.index).map created := by
    apply forall_two_eq_map ((map_m_ok_iff _ _ _).mp performed)
    intro path _ output restored
    cases found : snapshot.index.lookup path with
    | none =>
        simp only [restoreDirectory, NodeIndex.get_node_index_of_lookup_none found, bind,
          Except.bind] at restored
        cases restored
    | some attributes =>
        rw [restore_directory path attributes found, Except.ok.injEq] at restored
        simp only [created, found, Option.bind_some, restored]
  have ordered : (pathMap snapshot.index).Perm (snapshot.index.nodes.map Prod.fst) :=
    List.perm_insertionSort _ _
  have byNode : ((snapshot.index.nodes.map Prod.fst).map created).reduceOption =
      (snapshot.index.nodes.filter fun node => node.2.type = .directory).map
        fun node => (restorePoint.concat node.1, .directory node.2.permissions) := by
    rw [List.reduceOption, List.map_map, List.filterMap_map, ← List.filterMap_eq_map',
      List.filterMap_filter]
    apply List.filterMap_congr
    intro node member
    have found := (NodeIndex.lookup_eq_some _ _ _).mpr member
    simp only [Function.comp_apply, created, found, Option.bind_some, id_eq, decide_eq_true_eq]
  rw [listed, ← byNode]
  exact (ordered.map created).filterMap id

theorem restored_node_file {snapshot : Snapshot} {previous : List Snapshot} {node : Nat}
    {path : Path} {attributes : BackupNodeAttributes}
    (nodeEntry : snapshot.index.nodes[node]? = some (path, attributes))
    (isFile : attributes.type = .file) {output : Option (Path × RestoredNode)}
    (completed : Finishes
      (restoreNode runtime algorithm volumes snapshot previous restorePoint node) (.ok output)) :
    ∃ delivered, Finishes (readNode runtime algorithm volumes snapshot previous node)
        (.ok delivered) ∧
      output = some (restorePoint.concat path, .file attributes.permissions delivered) := by
  have nodeAttributes := (NodeIndex.get_node_attributes_ok _ _ _).mpr ⟨path, nodeEntry⟩
  have nodePath := (NodeIndex.get_node_path_ok _ _ _).mpr ⟨attributes, nodeEntry⟩
  unfold restoreNode at completed
  simp only [nodeAttributes, nodePath, isFile] at completed
  obtain ⟨outcome, reads, written⟩ := (finishes_map _ _ _).mp completed
  cases outcome with
  | error fault => cases written
  | ok delivered =>
      simp only [Except.bind, restoredFile] at written
      split at written
      · cases written
        exact ⟨delivered, reads, rfl⟩
      · cases written

theorem restored_files {snapshot : Snapshot} {previous : List Snapshot} {tasks : TaskOrder Nat}
    {created : List (Option (Path × RestoredNode))} {content : Path → Bytes}
    (performed : List.Forall₂
      (fun node output => Finishes
        (restoreNode runtime algorithm volumes snapshot previous restorePoint node) (.ok output))
      (tasks.order (List.range snapshot.index.getNumberOfNodes)) created)
    (sound : ∀ node path attributes, snapshot.index.nodes[node]? = some (path, attributes) →
      attributes.type ≠ .directory → ∀ delivered, Finishes
        (readNode runtime algorithm volumes snapshot previous node) (.ok delivered) →
          delivered = content path) :
    created.reduceOption.Perm
      ((snapshot.index.nodes.filter fun node => ¬node.2.type = .directory).map fun node =>
        (restorePoint.concat node.1,
          restoredAs node.2.permissions (content node.1) node.2.type)) := by
  let restored : Path × BackupNodeAttributes → Option (Path × RestoredNode) := fun node =>
    if node.2.type = .directory then none
    else some (restorePoint.concat node.1,
      restoredAs node.2.permissions (content node.1) node.2.type)
  have listed : created = (tasks.order (List.range snapshot.index.getNumberOfNodes)).map
      fun node => (snapshot.index.nodes[node]?).bind restored := by
    apply forall_two_eq_map performed
    intro node member output finished
    rw [mem_order, List.mem_range] at member
    obtain ⟨⟨path, attributes⟩, nodeEntry⟩ : ∃ found, snapshot.index.nodes[node]? = some found :=
      ⟨_, List.getElem?_eq_getElem member⟩
    have steady := restore_node_steady runtime algorithm volumes snapshot previous restorePoint node
    simp only [nodeEntry, Option.bind_some, restored]
    cases type : attributes.type with
    | directory =>
        have nothing := @restore_node_directory runtime algorithm volumes snapshot previous
          restorePoint node path attributes nodeEntry type
        have same := finishes_unique steady finished nothing
        simpa using same
    | file =>
        have isContent : attributes.type ≠ .directory := by simp [type]
        obtain ⟨delivered, reads, same⟩ := restored_node_file nodeEntry type finished
        rw [same, sound node path attributes nodeEntry isContent delivered reads]
        rfl
    | link => exact absurd finished (restore_node_link nodeEntry type output)
  have ordered := tasks.perm (List.range snapshot.index.getNumberOfNodes)
  have byNode : ((List.range snapshot.index.getNumberOfNodes).map fun node =>
      (snapshot.index.nodes[node]?).bind restored).reduceOption =
        (snapshot.index.nodes.filter fun node => ¬node.2.type = .directory).map fun node =>
          (restorePoint.concat node.1,
            restoredAs node.2.permissions (content node.1) node.2.type) := by
    have numbered := numbered_filter_map snapshot.index.nodes restored
    rw [List.reduceOption, List.filterMap_map, ← List.filterMap_eq_map', List.filterMap_filter]
    apply numbered.trans
    apply List.filterMap_congr
    intro node _
    by_cases directory : node.2.type = .directory
    · simp [restored, directory]
    · simp [restored, directory]
  rw [listed, ← byNode]
  exact (ordered.map _).filterMap id

theorem indexed_nodes_split (nodes : List (Path × BackupNodeAttributes)) :
    (((nodes.filter fun node => node.2.type = .directory).map fun node =>
        (restorePoint.concat node.1, RestoredNode.directory node.2.permissions)) ++
      ((nodes.filter fun node => ¬node.2.type = .directory).map
        (indexedNode entry restorePoint))).Perm (nodes.map (indexedNode entry restorePoint)) := by
  have directories : ((nodes.filter fun node => node.2.type = .directory).map fun node =>
      (restorePoint.concat node.1, RestoredNode.directory node.2.permissions)) =
        (nodes.filter fun node => node.2.type = .directory).map
          (indexedNode entry restorePoint) := by
    apply List.map_congr_left
    intro node member
    have isDirectory : node.2.type = .directory := by simpa using (List.mem_filter.mp member).2
    simp only [indexedNode, isDirectory, restoredAs]
  rw [directories, ← List.map_append]
  apply List.Perm.map
  have both := List.filter_append_perm (fun node => decide (node.2.type = .directory)) nodes
  simpa only [decide_not] using both

end Trees

/-- The round trip from a source to its restored tree: in a regular history without
stale references `Restore` completes for a snapshot if and only if its source had
no links. When it completes, and be it from damaged volumes, it has created exactly
the tree of the source, with the contents of the source and the recorded
permissions. -/
theorem restored_tree_mirrors_source (runtime : Runtime) (algorithm : HashAlgorithm)
    (collisionFree : ∀ algorithm, CollisionFree runtime algorithm)
    (decompresses : Decompresses runtime) (chain : Chain)
    (reachable : (backups runtime).Reachable (after (Regular algorithm)) chain)
    (current : HistoryCurrent runtime chain) (entry : Entry) (older : Chain)
    (suffix : entry :: older <:+ chain) (tasks : TaskOrder Nat) (restorePoint : Path) :
    ((∃ tree, Finishes (restore runtime algorithm (volumesOf chain) tasks entry.snapshot
        (older.map Entry.snapshot) restorePoint) (.ok tree)) ↔
      ∀ path attributes, entry.call.source.index.lookup path = some attributes →
        attributes.type ≠ .link) ∧
    ∀ volumes tree, Finishes (restore runtime algorithm volumes tasks entry.snapshot
        (older.map Entry.snapshot) restorePoint) (.ok tree) →
      tree.Perm (sourceTree entry restorePoint) := by
  have member : entry ∈ chain := suffix.subset (List.mem_cons_self ..)
  obtain ⟨last, new⟩ := new_entry_reachable reachable entry member
  have types : ∀ path loaded attributes, entry.index.lookup path = some loaded →
      entry.call.source.index.lookup path = some attributes → loaded.type = attributes.type :=
    fun _ _ _ found sourced =>
      mirrored_type (collisionFree algorithm) reachable member found sourced
  refine ⟨⟨?_, ?_⟩, ?_⟩
  · rintro ⟨tree, finished⟩ path attributes sourced isLink
    obtain ⟨_, created, _, performed, _⟩ := (restore_finishes tree).mp finished
    obtain ⟨loaded, found⟩ := new_entry_lookup new sourced
    obtain ⟨node, _, nodeEntry⟩ := NodeIndex.get_node_index_of_lookup found
    have listed : node ∈ tasks.order (List.range entry.snapshot.index.getNumberOfNodes) := by
      rw [mem_order, List.mem_range]
      exact (List.getElem?_eq_some_iff.mp nodeEntry).1
    obtain ⟨output, _, completed⟩ := forall_two_mem performed listed
    have loadedLink := (types path loaded attributes found sourced).trans isLink
    exact restore_node_link nodeEntry loadedLink output completed
  · intro noLinks
    have everyNode : ∀ node ∈ tasks.order (List.range entry.snapshot.index.getNumberOfNodes),
        ∃ output, Finishes (restoreNode runtime algorithm (volumesOf chain) entry.snapshot
          (older.map Entry.snapshot) restorePoint node) (.ok output) := by
      intro node listed
      rw [mem_order, List.mem_range] at listed
      obtain ⟨⟨path, loaded⟩, nodeEntry⟩ :
          ∃ found, entry.snapshot.index.nodes[node]? = some found :=
        ⟨_, List.getElem?_eq_getElem listed⟩
      cases type : loaded.type with
      | directory => exact ⟨none, restore_node_directory nodeEntry type⟩
      | file =>
          obtain ⟨_, _, located⟩ := node_located collisionFree reachable current suffix nodeEntry
            (by simp [type])
          have reads := located_read located (volumesOf chain)
            (located_intact located collisionFree decompresses reachable suffix)
          refine ⟨some (restorePoint.concat path,
            .file loaded.permissions (entry.call.source.content path)), ?_⟩
          apply (restore_node_file nodeEntry type reads _).mpr
          rw [restoredFile, if_pos located.records.size.symm]
      | link =>
          have found := NodeIndex.lookup_of_get nodeEntry
          have listed : path ∈ entry.call.source.index.nodes.map Prod.fst := by
            rw [← (new_entry_paths new).mem_iff]
            exact List.mem_map_of_mem (List.mem_of_getElem? nodeEntry)
          cases sourced : entry.call.source.index.lookup path with
          | none => exact absurd listed ((NodeIndex.lookup_eq_none _ _).mp sourced)
          | some attributes =>
              have isLink := (types path loaded attributes found sourced).symm.trans type
              exact absurd isLink (noLinks path attributes sourced)
    obtain ⟨created, performed⟩ := forall_two_of_forall everyNode
    obtain ⟨directories, run, _⟩ := restore_directories_ok entry.snapshot restorePoint
    exact ⟨_, (restore_finishes _).mpr ⟨directories, created, run, performed, rfl⟩⟩
  · intro volumes tree finished
    have sound : ∀ node path attributes,
        entry.snapshot.index.nodes[node]? = some (path, attributes) →
        attributes.type ≠ .directory → ∀ delivered, Finishes (readNode runtime algorithm volumes
          entry.snapshot (older.map Entry.snapshot) node) (.ok delivered) →
            delivered = entry.call.source.content path := by
      intro node path loaded nodeEntry isContent delivered reads
      obtain ⟨_, _, located⟩ := node_located collisionFree reachable current suffix nodeEntry
        isContent
      exact located_read_sound located (collisionFree algorithm) reads
    obtain ⟨directories, created, run, performed, rfl⟩ := (restore_finishes tree).mp finished
    have files := restored_files performed sound
    have indexed := ((restored_directories run).append files).trans
      (indexed_nodes_split entry.snapshot.index.nodes)
    exact indexed.trans (source_tree_indexed (new_entry_paths new) types)

section MovedFile

theorem second_backup_history {second : Call}
    (taken : ((backups spellingRuntime).run [] [firstBackup, second]).isSome = true)
    (permitted : Permitted (Regular .md5) [] [firstBackup, second]) :
    ∃ newest first, (backups spellingRuntime).run [] [firstBackup, second] =
        some [newest, first] ∧ newest.call = second ∧ first.call = firstBackup ∧
      (backups spellingRuntime).Reachable (after (Regular .md5)) [newest, first] ∧
      HistoryCurrent spellingRuntime [newest, first] := by
  obtain ⟨chain, run⟩ := Option.isSome_iff_exists.mp taken
  obtain ⟨reachable, history⟩ :=
    run_in_order (fun _ _ regular => regular.1) _ .start run permitted
  obtain ⟨newest, rest, rfl, newestCall, others⟩ := List.map_eq_cons_iff.mp history
  obtain ⟨first, none, rfl, firstCall, nothing⟩ := List.map_eq_cons_iff.mp others
  cases List.map_eq_nil_iff.mp nothing
  refine ⟨newest, first, run, newestCall, firstCall, reachable, ?_, trivial⟩
  intro path attributes old target _ _ _ origin reference
  have below : NewEntry spellingRuntime none first :=
    suffix_new_entry (fun _ _ regular => regular.1) reachable (List.suffix_cons _ _)
  rw [first_entry_unreferenced below (taken_over_from_some origin).1] at reference
  cases reference

theorem moved_file_history :
    ∃ newest first, (backups spellingRuntime).run [] [firstBackup, moveBackup] =
        some [newest, first] ∧ newest.call = moveBackup ∧ first.call = firstBackup ∧
      (backups spellingRuntime).Reachable (after (Regular .md5)) [newest, first] ∧
      HistoryCurrent spellingRuntime [newest, first] := by
  apply second_backup_history (by decide +kernel)
  refine ⟨⟨?_, rfl, ?_⟩, ⟨?_, rfl, ?_⟩, trivial⟩ <;> decide +kernel

theorem moved_file_recovered :
    ∃ newest first, (backups spellingRuntime).run [] [firstBackup, moveBackup] =
        some [newest, first] ∧
      ∃ node, first.index.getNodeIndex storedFile.path = .ok node ∧
        ∀ outcome, Finishes (readNode spellingRuntime .md5 (volumesOf [newest, first])
          first.snapshot [] node) outcome ↔ outcome = .ok [1, 2] := by
  obtain ⟨newest, first, run, _, firstCall, reachable, current⟩ := moved_file_history
  have sourced : first.call.source.index.lookup storedFile.path = some storedFile.attributes := by
    rw [firstCall]
    decide +kernel
  obtain ⟨node, number, reads⟩ := (content_recovered spellingRuntime .md5 spelling_collision_free
    spelling_decompresses [newest, first] reachable current first [] (List.suffix_cons _ _)).2
    storedFile.path storedFile.attributes sourced nofun
  have content : first.call.source.content storedFile.path = [1, 2] := by
    rw [firstCall]
    decide +kernel
  rw [content] at reads
  exact ⟨newest, first, run, node, number, reads⟩

theorem moved_file_tree :
    ∃ newest first tree, (backups spellingRuntime).run [] [firstBackup, moveBackup] =
        some [newest, first] ∧
      Finishes (restore spellingRuntime .md5 (volumesOf [newest, first]) inSequence
        newest.snapshot [first.snapshot] Path.root) (.ok tree) ∧
      tree.Perm (sourceTree newest Path.root) := by
  obtain ⟨newest, first, run, newestCall, _, reachable, current⟩ := moved_file_history
  obtain ⟨restorable, trees⟩ := restored_tree_mirrors_source spellingRuntime .md5
    spelling_collision_free spelling_decompresses [newest, first] reachable current newest [first]
    (List.suffix_refl _) inSequence Path.root
  have noLinks : ∀ node ∈ newest.call.source.index.nodes, node.2.type ≠ .link := by
    rw [newestCall]
    decide +kernel
  obtain ⟨tree, finished⟩ := restorable.mpr fun path attributes sourced =>
    noLinks (path, attributes) ((NodeIndex.lookup_eq_some _ _ _).mp sourced)
  exact ⟨newest, first, tree, run, finished, trees _ tree finished⟩

end MovedFile

end ACBackup.SourceRecovery
