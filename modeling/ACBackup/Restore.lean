import ACBackup.SnapshotVerification

/-!
`Restore`: the directories in the order of their paths, then files and links as
tasks of the thread pool. Creating a node at its place is assumed to succeed, so
the result is the list of what was created.
-/

namespace ACBackup.Restore

open ACBackup.Library.Loop ACBackup.Library.Outcome ACBackup.Library.Tasks
open ACBackup.Library.Transition
open ACBackup.Platform ACBackup.NodeAttributes ACBackup.Indexing ACBackup.VolumeReading
open ACBackup.FileReading ACBackup.SnapshotChain ACBackup.VerifyTermination
open ACBackup.SnapshotCreation ACBackup.SnapshotManager ACBackup.DataResolution
open ACBackup.SnapshotVerification

set_option autoImplicit false

/-- The target of a link is kept as the bytes of its text. -/
inductive RestoredNode where
  | directory (permissions : POSIXPermissions)
  | file (permissions : POSIXPermissions) (content : Bytes)
  | link (target : Bytes)
  deriving DecidableEq

abbrev RestoredTree := List (Path × RestoredNode)

def pathMap {Attributes : Type} (index : NodeIndex Attributes) : List Path :=
  (index.nodes.map Prod.fst).insertionSort fun left right => left.string ≤ right.string

def restoreDirectory (snapshot : Snapshot) (restorePoint key : Path) :
    Except Fault (Option (Path × RestoredNode)) := do
  let index ← snapshot.index.getNodeIndex key
  let attributes ← snapshot.index.getNodeAttributes index
  if attributes.type = .directory then
    .ok (some (restorePoint.concat key, .directory attributes.permissions))
  else .ok none

def restoreDirectories (snapshot : Snapshot) (restorePoint : Path) : Except Fault RestoredTree := do
  let created ← (pathMap snapshot.index).mapM (restoreDirectory snapshot restorePoint)
  .ok created.reduceOption

/-- `FlatVolumesFileSystem::ReadLinkTarget` is not implemented. -/
def readLinkTarget (_snapshot : Snapshot) (_path : Path) : Except Fault (Option Bytes) :=
  .error .notImplemented

/-- A file must have the size that this snapshot recorded. -/
def restoredFile (filePath : Path) (attributes : BackupNodeAttributes) (nodeRestorePath : Path)
    (content : Bytes) : Except Fault (Option (Path × RestoredNode)) :=
  if content.length = attributes.size then
    .ok (some (nodeRestorePath, .file attributes.permissions content))
  else .error (.streamPipingFailed filePath)

def restoreLink (snapshot : Snapshot) (previous : List Snapshot) (node : Nat)
    (nodeRestorePath : Path) : Except Fault (Option (Path × RestoredNode)) := do
  let found ← findDataSnapshot snapshot previous node
  let target ← readLinkTarget found.snapshot found.path
  match target with
  | some target => .ok (some (nodeRestorePath, .link target))
  | none => .error .nullPointer

def restoreNode (runtime : Runtime) (algorithm : HashAlgorithm) (volumes : VolumeContents)
    (snapshot : Snapshot) (previous : List Snapshot) (restorePoint : Path) (node fuel : Nat) :
    Attempt Fault (Option (Path × RestoredNode)) :=
  match snapshot.index.getNodeAttributes node, snapshot.index.getNodePath node with
  | .error fault, _ => some (.error fault)
  | _, .error fault => some (.error fault)
  | .ok attributes, .ok filePath =>
      match attributes.type with
      | .directory => some (.ok none)
      | .file =>
          (readNode runtime algorithm volumes snapshot previous node fuel).map fun outcome =>
            outcome.bind (restoredFile filePath attributes (restorePoint.concat filePath))
      | .link => some (restoreLink snapshot previous node (restorePoint.concat filePath))

/-- `Snapshot::Restore`, where the file system takes every creation. -/
def restore (runtime : Runtime) (algorithm : HashAlgorithm) (volumes : VolumeContents)
    (tasks : TaskOrder Nat) (snapshot : Snapshot) (previous : List Snapshot) (restorePoint : Path)
    (fuel : Nat) : Attempt Fault RestoredTree :=
  match restoreDirectories snapshot restorePoint with
  | .error fault => some (.error fault)
  | .ok directories =>
      (gather
        (fun node => restoreNode runtime algorithm volumes snapshot previous restorePoint node fuel)
        (tasks.order (List.range snapshot.index.getNumberOfNodes))).map
          (Except.map fun nodes => directories ++ nodes.reduceOption)

variable {runtime : Runtime} {algorithm : HashAlgorithm} {volumes : VolumeContents}
  {snapshot : Snapshot} {previous : List Snapshot} {restorePoint : Path}

def VerifiedContent (runtime : Runtime) (algorithm : HashAlgorithm) (volumes : VolumeContents)
    (snapshot : Snapshot) (previous : List Snapshot) (node : Nat) (content : Bytes) : Prop :=
  ∃ found stream size, findDataSnapshot snapshot previous node = .ok found ∧
    openForVerification runtime algorithm volumes found.snapshot found.path = .ok (stream, size) ∧
    Finishes (flushTo runtime algorithm (found.snapshot.fileSystem volumes) stream) (.ok content)

inductive NodeRestored (runtime : Runtime) (algorithm : HashAlgorithm) (volumes : VolumeContents)
    (snapshot : Snapshot) (previous : List Snapshot) (tree : RestoredTree) (node : Nat)
    (nodeRestorePath : Path) (attributes : BackupNodeAttributes) : Prop
  | directory (isDirectory : attributes.type = .directory)
      (created : (nodeRestorePath, .directory attributes.permissions) ∈ tree)
  | file (isFile : attributes.type = .file) (content : Bytes)
      (verified : VerifiedContent runtime algorithm volumes snapshot previous node content)
      (created : (nodeRestorePath, .file attributes.permissions content) ∈ tree)
  | link (isLink : attributes.type = .link) (content : Bytes)
      (verified : VerifiedContent runtime algorithm volumes snapshot previous node content)
      (created : (nodeRestorePath, .link content) ∈ tree)

def Restored (runtime : Runtime) (algorithm : HashAlgorithm) (volumes : VolumeContents)
    (tasks : TaskOrder Nat) (snapshot : Snapshot) (previous : List Snapshot)
    (restorePoint : Path) : Prop :=
  ∃ tree, Finishes
      (restore runtime algorithm volumes tasks snapshot previous restorePoint) (.ok tree) ∧
    ∀ node path attributes, snapshot.index.nodes[node]? = some (path, attributes) →
      NodeRestored runtime algorithm volumes snapshot previous tree node
        (restorePoint.concat path) attributes

/-- There are no links, and every file has the size of the node with its data. -/
def Restorable (snapshot : Snapshot) (previous : List Snapshot) : Prop :=
  ∀ node path attributes, snapshot.index.nodes[node]? = some (path, attributes) →
    attributes.type ≠ .link ∧
      (attributes.type = .file →
        ∀ found dataAttributes, findDataSnapshot snapshot previous node = .ok found →
          found.snapshot.index.lookup found.path = some dataAttributes →
            dataAttributes.size = attributes.size)

section Directories

theorem restore_directory (key : Path) (attributes : BackupNodeAttributes)
    (found : snapshot.index.lookup key = some attributes) :
    restoreDirectory snapshot restorePoint key =
      .ok (if attributes.type = .directory then
        some (restorePoint.concat key, .directory attributes.permissions) else none) := by
  obtain ⟨node, number, entry⟩ := NodeIndex.get_node_index_of_lookup found
  have nodeAttributes : snapshot.index.getNodeAttributes node = .ok attributes :=
    (NodeIndex.get_node_attributes_ok _ _ _).mpr ⟨key, entry⟩
  simp only [restoreDirectory, number, nodeAttributes, bind, Except.bind]
  split <;> rfl

theorem restore_directories_ok (snapshot : Snapshot) (restorePoint : Path) :
    ∃ directories, restoreDirectories snapshot restorePoint = .ok directories ∧
      ∀ path attributes, snapshot.index.lookup path = some attributes →
        attributes.type = .directory →
          (restorePoint.concat path, .directory attributes.permissions) ∈ directories := by
  have everyKey : ∀ key ∈ pathMap snapshot.index, ∃ created,
      restoreDirectory snapshot restorePoint key = .ok created := by
    intro key listed
    rw [pathMap, List.mem_insertionSort] at listed
    cases found : snapshot.index.lookup key with
    | none => exact absurd listed ((NodeIndex.lookup_eq_none _ _).mp found)
    | some attributes => exact ⟨_, restore_directory key attributes found⟩
  obtain ⟨created, both⟩ := forall_two_of_forall everyKey
  have run := (map_m_ok_iff _ _ _).mpr both
  refine ⟨created.reduceOption, ?_, ?_⟩
  · simp only [restoreDirectories, run, bind, Except.bind]
  · intro path attributes found isDirectory
    have listed : path ∈ pathMap snapshot.index := by
      rw [pathMap, List.mem_insertionSort]
      exact List.mem_map.mpr
        ⟨(path, attributes), (NodeIndex.lookup_eq_some _ _ _).mp found, rfl⟩
    obtain ⟨result, member, restored⟩ := forall_two_mem both listed
    rw [restore_directory path attributes found, if_pos isDirectory, Except.ok.injEq] at restored
    rw [List.reduceOption_mem_iff, restored]
    exact member

end Directories

section Nodes

theorem read_node_steady (runtime : Runtime) (algorithm : HashAlgorithm) (volumes : VolumeContents)
    (snapshot : Snapshot) (previous : List Snapshot) (node : Nat) :
    Steady (readNode runtime algorithm volumes snapshot previous node) := by
  unfold readNode
  cases findDataSnapshot snapshot previous node with
  | error fault => exact steady_constant _
  | ok found =>
      cases opened : openData runtime algorithm volumes found with
      | error fault =>
          simp only [opened]
          exact steady_constant _
      | ok stream =>
          simp only [opened]
          exact flush_to_steady runtime algorithm _ stream

theorem restore_node_steady (runtime : Runtime) (algorithm : HashAlgorithm)
    (volumes : VolumeContents) (snapshot : Snapshot) (previous : List Snapshot)
    (restorePoint : Path) (node : Nat) :
    Steady (restoreNode runtime algorithm volumes snapshot previous restorePoint node) := by
  unfold restoreNode
  cases snapshot.index.getNodeAttributes node with
  | error fault => exact steady_constant _
  | ok attributes =>
      cases snapshot.index.getNodePath node with
      | error fault => exact steady_constant _
      | ok path =>
          cases type : attributes.type with
          | directory =>
              simp only [type]
              exact steady_constant _
          | file =>
              simp only [type]
              exact steady_map (read_node_steady _ _ _ _ _ _) _
          | link =>
              simp only [type]
              exact steady_constant _

/-- Where a node verifies, reading it gives the content that was verified, with
the size of the node that has the data. -/
theorem verified_content {node : Nat} {found : DataNode} {dataAttributes : BackupNodeAttributes}
    (search : findDataSnapshot snapshot previous node = .ok found)
    (present : found.snapshot.index.lookup found.path = some dataAttributes)
    (verified : Finishes
      (verifyNode runtime algorithm volumes found.snapshot found.path) (.ok true)) :
    ∃ content, VerifiedContent runtime algorithm volumes snapshot previous node content ∧
      content.length = dataAttributes.size ∧
      ∀ output, Finishes (readNode runtime algorithm volumes snapshot previous node) output ↔
        output = .ok content := by
  obtain ⟨stream, content, digest, opened, reads, sized, recorded, _⟩ :=
    verified_stream present verified
  have reading : readNode runtime algorithm volumes snapshot previous node =
      flushTo runtime algorithm (found.snapshot.fileSystem volumes) stream := by
    funext fuel
    simp only [readNode, search, opened]
  have verifying : openForVerification runtime algorithm volumes found.snapshot found.path =
      .ok (stream, dataAttributes.size) := by
    obtain ⟨number, index, entry⟩ := NodeIndex.get_node_index_of_lookup present
    have nodeAttributes : found.snapshot.index.getNodeAttributes number = .ok dataAttributes :=
      (NodeIndex.get_node_attributes_ok _ _ _).mpr ⟨found.path, entry⟩
    have sameStream := @open_file_for_reading runtime algorithm
      (found.snapshot.fileSystem volumes) found.snapshot.index number dataAttributes nodeAttributes
    simp only [openData, index, bind, Except.bind] at opened
    rw [opened] at sameStream
    rw [open_for_verification present]
    by_cases inRange : InRange (found.snapshot.fileSystem volumes) dataAttributes.blocks
    · simp only [if_pos inRange, recorded, Except.ok.injEq] at sameStream ⊢
      rw [sameStream]
    · rw [if_neg inRange] at sameStream
      cases sameStream
  refine ⟨content, ⟨found, stream, _, search, verifying, (reads _).mpr rfl⟩, sized, ?_⟩
  rw [reading]
  exact reads

variable {node : Nat} {path : Path} {attributes : BackupNodeAttributes}

theorem restore_node_directory (entry : snapshot.index.nodes[node]? = some (path, attributes))
    (isDirectory : attributes.type = .directory) :
    Finishes (restoreNode runtime algorithm volumes snapshot previous restorePoint node)
      (.ok none) := by
  have nodeAttributes := (NodeIndex.get_node_attributes_ok _ _ _).mpr ⟨path, entry⟩
  have nodePath := (NodeIndex.get_node_path_ok _ _ _).mpr ⟨attributes, entry⟩
  exact ⟨0, by simp only [restoreNode, nodeAttributes, nodePath, isDirectory]⟩

/-- Links are never created, since `ReadLinkTarget` raises before. -/
theorem restore_link_error (node : Nat) (nodeRestorePath : Path)
    (output : Option (Path × RestoredNode)) :
    restoreLink snapshot previous node nodeRestorePath ≠ .ok output := by
  intro run
  obtain ⟨found, _, target⟩ := bind_ok run
  obtain ⟨_, read, _⟩ := bind_ok target
  cases read

theorem restore_node_link (entry : snapshot.index.nodes[node]? = some (path, attributes))
    (isLink : attributes.type = .link) (output : Option (Path × RestoredNode)) :
    ¬Finishes (restoreNode runtime algorithm volumes snapshot previous restorePoint node)
      (.ok output) := by
  have nodeAttributes := (NodeIndex.get_node_attributes_ok _ _ _).mpr ⟨path, entry⟩
  have nodePath := (NodeIndex.get_node_path_ok _ _ _).mpr ⟨attributes, entry⟩
  rintro ⟨fuel, run⟩
  simp only [restoreNode, nodeAttributes, nodePath, isLink, Option.some.injEq] at run
  exact restore_link_error _ _ _ run

theorem restore_node_file (entry : snapshot.index.nodes[node]? = some (path, attributes))
    (isFile : attributes.type = .file) {content : Bytes}
    (reads : ∀ output, Finishes (readNode runtime algorithm volumes snapshot previous node) output ↔
      output = .ok content) (output : Except Fault (Option (Path × RestoredNode))) :
    Finishes (restoreNode runtime algorithm volumes snapshot previous restorePoint node) output ↔
      output = restoredFile path attributes (restorePoint.concat path) content := by
  have nodeAttributes := (NodeIndex.get_node_attributes_ok _ _ _).mpr ⟨path, entry⟩
  have nodePath := (NodeIndex.get_node_path_ok _ _ _).mpr ⟨attributes, entry⟩
  have reading : restoreNode runtime algorithm volumes snapshot previous restorePoint node =
      fun fuel => (readNode runtime algorithm volumes snapshot previous node fuel).map
        fun outcome => outcome.bind (restoredFile path attributes (restorePoint.concat path)) := by
    funext fuel
    simp only [restoreNode, nodeAttributes, nodePath, isFile]
  rw [reading, finishes_map]
  constructor
  · rintro ⟨outcome, finished, rfl⟩
    rw [(reads outcome).mp finished]
    rfl
  · intro same
    exact ⟨.ok content, (reads _).mpr rfl, same⟩

end Nodes

section Snapshots

variable {tasks verifyTasks : TaskOrder Nat}

theorem restore_steady (runtime : Runtime) (algorithm : HashAlgorithm) (volumes : VolumeContents)
    (tasks : TaskOrder Nat) (snapshot : Snapshot) (previous : List Snapshot)
    (restorePoint : Path) :
    Steady (restore runtime algorithm volumes tasks snapshot previous restorePoint) := by
  unfold restore
  cases restoreDirectories snapshot restorePoint with
  | error fault => exact steady_constant _
  | ok directories =>
      apply steady_map
      exact gather_steady (restore_node_steady _ _ _ _ _ _) _

theorem restore_finishes (tree : RestoredTree) :
    Finishes (restore runtime algorithm volumes tasks snapshot previous restorePoint) (.ok tree) ↔
      ∃ directories created, restoreDirectories snapshot restorePoint = .ok directories ∧
        List.Forall₂
          (fun node output => Finishes
            (restoreNode runtime algorithm volumes snapshot previous restorePoint node)
            (.ok output))
          (tasks.order (List.range snapshot.index.getNumberOfNodes)) created ∧
        tree = directories ++ created.reduceOption := by
  have steady := restore_node_steady runtime algorithm volumes snapshot previous restorePoint
  obtain ⟨directories, run, _⟩ := restore_directories_ok snapshot restorePoint
  unfold restore
  simp only [run, finishes_map, Except.ok.injEq]
  constructor
  · rintro ⟨outcome, finished, same⟩
    cases outcome with
    | error fault => cases same
    | ok created =>
        have performed := (gather_finishes steady _ _).mp finished
        exact ⟨directories, created, rfl, performed, Except.ok.inj same⟩
  · rintro ⟨_, created, rfl, performed, same⟩
    have finished := (gather_finishes steady _ _).mpr performed
    exact ⟨.ok created, finished, congrArg Except.ok same⟩

/-- What a full verification without findings says about a file or link. -/
theorem verified_node
    (verified : Finishes
      (verifySnapshot runtime algorithm volumes verifyTasks snapshot previous true) (.ok []))
    {node : Nat} {path : Path} {attributes : BackupNodeAttributes}
    (entry : snapshot.index.nodes[node]? = some (path, attributes))
    (isContent : attributes.type ≠ .directory) :
    ∃ found dataAttributes content, findDataSnapshot snapshot previous node = .ok found ∧
      found.snapshot.index.lookup found.path = some dataAttributes ∧
      VerifiedContent runtime algorithm volumes snapshot previous node content ∧
      content.length = dataAttributes.size ∧
      ∀ output, Finishes (readNode runtime algorithm volumes snapshot previous node) output ↔
        output = .ok content := by
  obtain ⟨found, search, answer⟩ := verify_snapshot_nothing_reported verified entry isContent
  obtain ⟨dataAttributes, present, _, _⟩ := find_data_snapshot_owner entry search
  obtain ⟨content, facts⟩ := verified_content search present answer
  exact ⟨found, dataAttributes, content, search, present, facts⟩

theorem restored_node_sized
    (verified : Finishes
      (verifySnapshot runtime algorithm volumes verifyTasks snapshot previous true) (.ok []))
    {node : Nat} {path : Path} {attributes dataAttributes : BackupNodeAttributes}
    {found : DataNode} {output : Option (Path × RestoredNode)}
    (entry : snapshot.index.nodes[node]? = some (path, attributes))
    (isFile : attributes.type = .file)
    (search : findDataSnapshot snapshot previous node = .ok found)
    (present : found.snapshot.index.lookup found.path = some dataAttributes)
    (completed : Finishes
      (restoreNode runtime algorithm volumes snapshot previous restorePoint node) (.ok output)) :
    dataAttributes.size = attributes.size := by
  obtain ⟨other, otherAttributes, content, otherSearch, otherPresent, _, sized, reads⟩ :=
    verified_node verified entry (by simp [isFile])
  rw [search, Except.ok.injEq] at otherSearch
  rw [← otherSearch, present, Option.some.injEq] at otherPresent
  have written := (restore_node_file entry isFile reads _).mp completed
  rw [otherPresent, ← sized]
  by_contra different
  rw [restoredFile, if_neg different] at written
  cases written

theorem restorable_node (restorePoint : Path)
    (verified : Finishes
      (verifySnapshot runtime algorithm volumes verifyTasks snapshot previous true) (.ok []))
    (restorable : Restorable snapshot previous) {node : Nat}
    (inside : node < snapshot.index.getNumberOfNodes) :
    ∃ output, Finishes
        (restoreNode runtime algorithm volumes snapshot previous restorePoint node) (.ok output) ∧
      ∀ path attributes, snapshot.index.nodes[node]? = some (path, attributes) →
        attributes.type = .file → ∃ content,
          VerifiedContent runtime algorithm volumes snapshot previous node content ∧
          output = some (restorePoint.concat path, .file attributes.permissions content) := by
  obtain ⟨⟨path, attributes⟩, entry⟩ : ∃ pair, snapshot.index.nodes[node]? = some pair :=
    ⟨_, List.getElem?_eq_getElem inside⟩
  cases type : attributes.type with
  | directory =>
      refine ⟨none, restore_node_directory entry type, ?_⟩
      intro otherPath other otherEntry isFile
      rw [entry, Option.some.injEq, Prod.mk.injEq] at otherEntry
      rw [← otherEntry.2, type] at isFile
      cases isFile
  | file =>
      obtain ⟨found, dataAttributes, content, search, present, read, sized, reads⟩ :=
        verified_node verified entry (by simp [type])
      have size := (restorable node path attributes entry).2 type found dataAttributes search
        present
      refine ⟨some (restorePoint.concat path, .file attributes.permissions content), ?_, ?_⟩
      · apply (restore_node_file entry type reads _).mpr
        rw [restoredFile, if_pos (sized.trans size)]
      · intro otherPath other otherEntry _
        rw [entry, Option.some.injEq, Prod.mk.injEq] at otherEntry
        obtain ⟨rfl, rfl⟩ := otherEntry
        exact ⟨content, read, rfl⟩
  | link => exact absurd type (restorable node path attributes entry).1

/-- A snapshot that verifies can be restored if and only if it has no links and
its files have the sizes of the nodes with their data. -/
theorem verified_snapshot_restored_iff (runtime : Runtime) (algorithm : HashAlgorithm)
    (volumes : VolumeContents) (snapshot : Snapshot) (previous : List Snapshot)
    (verifyTasks tasks : TaskOrder Nat) (restorePoint : Path)
    (verified : Finishes
      (verifySnapshot runtime algorithm volumes verifyTasks snapshot previous true) (.ok [])) :
    Restored runtime algorithm volumes tasks snapshot previous restorePoint ↔
      Restorable snapshot previous := by
  constructor
  · rintro ⟨tree, finished, _⟩ node path attributes entry
    obtain ⟨directories, created, _, performed, _⟩ := (restore_finishes tree).mp finished
    have listed : node ∈ tasks.order (List.range snapshot.index.getNumberOfNodes) := by
      rw [mem_order, List.mem_range]
      exact (List.getElem?_eq_some_iff.mp entry).1
    obtain ⟨output, _, completed⟩ := forall_two_mem performed listed
    refine ⟨fun isLink => restore_node_link entry isLink output completed, ?_⟩
    intro isFile found dataAttributes search present
    exact restored_node_sized verified entry isFile search present completed
  · intro restorable
    have everyNode := fun node (listed : node ∈ tasks.order
        (List.range snapshot.index.getNumberOfNodes)) =>
      restorable_node restorePoint verified restorable
        (List.mem_range.mp ((mem_order tasks _ node).mp listed))
    obtain ⟨created, both⟩ := forall_two_of_forall everyNode
    obtain ⟨directories, run, directoriesCreated⟩ := restore_directories_ok snapshot restorePoint
    refine ⟨directories ++ created.reduceOption, ?_, ?_⟩
    · apply (restore_finishes _).mpr
      exact ⟨directories, created, run, both.imp fun _ _ facts => facts.1, rfl⟩
    · intro node path attributes entry
      cases type : attributes.type with
      | directory =>
          apply NodeRestored.directory type
          apply List.mem_append_left
          exact directoriesCreated path attributes (NodeIndex.lookup_of_get entry) type
      | file =>
          have listed : node ∈ tasks.order (List.range snapshot.index.getNumberOfNodes) := by
            rw [mem_order, List.mem_range]
            exact (List.getElem?_eq_some_iff.mp entry).1
          obtain ⟨output, member, _, described⟩ := forall_two_mem both listed
          obtain ⟨content, read, rfl⟩ := described path attributes entry type
          apply NodeRestored.file type content read
          apply List.mem_append_right
          exact List.reduceOption_mem_iff.mpr member
      | link => exact absurd type (restorable node path attributes entry).1

section LinkedFile

/-! A link is backed up and verifies; restoring it asks for its target. -/

def linkNode : SourceNode :=
  { path := Path.root.child "l", type := .link, content := [97], mode := 511, second := 1 }

def linkBackup : Call := callOf "snapshot_1" [linkNode] (writeSteps linkNode)

def restoreNewest (chain : Chain) (fuel : Nat) : Option (Except Fault RestoredTree) :=
  match chain with
  | [] => none
  | entry :: older =>
      restore spellingRuntime .md5 (volumesOf chain) inSequence entry.snapshot
        (older.map Entry.snapshot) (Path.root.child "restored") fuel

theorem moved_file_restored :
    ∃ chain snapshot previous, (backups spellingRuntime).run [] [firstBackup, moveBackup] =
        some chain ∧ chain.map Entry.snapshot = snapshot :: previous ∧
      Restored spellingRuntime .md5 (volumesOf chain) inSequence snapshot previous
        (Path.root.child "restored") := by
  have outcome : ((backups spellingRuntime).run [] [firstBackup, moveBackup]).map
      (fun chain => (verifyNewest chain 9, (chain.map Entry.snapshot).flatMap fun snapshot =>
        snapshot.index.nodes.map fun node => (node.2.type, node.2.size))) =
          some (some (.ok []), [(.file, 2), (.file, 2)]) := by decide +kernel
  obtain ⟨chain, run, facts⟩ := Option.map_eq_some_iff.mp outcome
  cases chain with
  | nil => simp [verifyNewest] at facts
  | cons entry older =>
      obtain ⟨verified, sizes⟩ := Prod.ext_iff.mp facts
      have alike : ∀ snapshot ∈ (entry :: older).map Entry.snapshot, ∀ path attributes,
          snapshot.index.lookup path = some attributes →
            attributes.type = .file ∧ attributes.size = 2 := by
        intro snapshot member path attributes found
        have listed : (attributes.type, attributes.size) ∈
            ((entry :: older).map Entry.snapshot).flatMap fun snapshot =>
              snapshot.index.nodes.map fun node => (node.2.type, node.2.size) := by
          apply List.mem_flatMap.mpr
          exact ⟨snapshot, member, List.mem_map.mpr
            ⟨(path, attributes), (NodeIndex.lookup_eq_some _ _ _).mp found, rfl⟩⟩
        simp only at sizes
        rw [sizes] at listed
        simpa using listed
      refine ⟨_, entry.snapshot, older.map Entry.snapshot, run, rfl, ?_⟩
      apply (verified_snapshot_restored_iff spellingRuntime .md5 _ entry.snapshot
        (older.map Entry.snapshot) inSequence inSequence _ ⟨9, verified⟩).mpr
      intro node path attributes nodeEntry
      have here := alike entry.snapshot (List.mem_cons_self ..) path attributes
        (NodeIndex.lookup_of_get nodeEntry)
      refine ⟨by simp [here.1], ?_⟩
      intro _ found dataAttributes search present
      have there := alike found.snapshot (find_data_snapshot_mem nodeEntry search) found.path
        dataAttributes present
      rw [there.2, here.2]

/-- The snapshot verifies, and restoring it ends with the fault of the function
that is not implemented. -/
theorem link_not_restored :
    ∃ chain snapshot previous, (backups spellingRuntime).run [] [linkBackup] = some chain ∧
      chain.map Entry.snapshot = snapshot :: previous ∧
      Finishes (verifySnapshot spellingRuntime .md5 (volumesOf chain) inSequence snapshot previous
        true) (.ok []) ∧
      Finishes (restore spellingRuntime .md5 (volumesOf chain) inSequence snapshot previous
        (Path.root.child "restored")) (.error .notImplemented) ∧
      ¬Restored spellingRuntime .md5 (volumesOf chain) inSequence snapshot previous
        (Path.root.child "restored") := by
  have verification : ((backups spellingRuntime).run [] [linkBackup]).bind
      (fun chain => verifyNewest chain 9) = some (.ok []) := by decide +kernel
  have restoration : ((backups spellingRuntime).run [] [linkBackup]).bind
      (fun chain => restoreNewest chain 9) = some (.error .notImplemented) := by decide +kernel
  obtain ⟨chain, run, verified⟩ := Option.bind_eq_some_iff.mp verification
  simp only [run, Option.bind_some] at restoration
  cases chain with
  | nil => cases verified
  | cons entry older =>
      refine ⟨_, entry.snapshot, older.map Entry.snapshot, run, rfl, ⟨9, verified⟩,
        ⟨9, restoration⟩, ?_⟩
      rintro ⟨tree, finished, _⟩
      cases finishes_unique (restore_steady spellingRuntime .md5 _ inSequence _ _ _) finished ⟨9, restoration⟩

end LinkedFile

end Snapshots

end ACBackup.Restore
