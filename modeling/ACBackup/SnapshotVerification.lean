import ACBackup.Library.Tasks
import ACBackup.VerifyTermination
import ACBackup.DataResolution

/-!
`VerifySnapshot`, and what its answer says about the streams that are opened
later. A node is verified where its data is, against what is recorded there.
-/

namespace ACBackup.SnapshotVerification

open ACBackup.Library.BackReferences ACBackup.Library.Loop ACBackup.Library.Tasks
open ACBackup.Library.Transition
open ACBackup.Platform ACBackup.NodeAttributes ACBackup.Indexing ACBackup.IndexSerialization
open ACBackup.VolumeReading ACBackup.FileReading ACBackup.SnapshotChain
open ACBackup.VerifyTermination ACBackup.SnapshotCreation ACBackup.SnapshotPlan
open ACBackup.SnapshotManager ACBackup.RecordedContent ACBackup.DataResolution

set_option autoImplicit false

/-- The task for one node: whether the node is reported. -/
def verifyTask (runtime : Runtime) (algorithm : HashAlgorithm) (volumes : VolumeContents)
    (snapshot : Snapshot) (previous : List Snapshot) (full : Bool) (fuel : Nat) (node : Nat) :
    Attempt Fault Bool :=
  match snapshot.index.getNodeAttributes node with
  | .error fault => some (.error fault)
  | .ok nodeAttributes =>
      if nodeAttributes.type = .directory then some (.ok false)
      else
        match findDataSnapshot snapshot previous node with
        | .error fault => some (.error fault)
        | .ok found =>
            if full || found.distance = 0 then
              (verifyNode runtime algorithm volumes found.snapshot found.path fuel).map
                (Except.map not)
            else some (.ok false)

def verifySnapshot (runtime : Runtime) (algorithm : HashAlgorithm) (volumes : VolumeContents)
    (tasks : TaskOrder Nat) (snapshot : Snapshot) (previous : List Snapshot) (full : Bool)
    (fuel : Nat) : Attempt Fault (List Nat) :=
  collect (verifyTask runtime algorithm volumes snapshot previous full fuel)
    (tasks.order (List.range snapshot.index.getNumberOfNodes))

def openData (runtime : Runtime) (algorithm : HashAlgorithm) (volumes : VolumeContents)
    (found : DataNode) : Except Fault InputChain := do
  let nodeIndex ← found.snapshot.index.getNodeIndex found.path
  openFileForReading runtime algorithm (found.snapshot.fileSystem volumes) found.snapshot.index
    nodeIndex true

def readNode (runtime : Runtime) (algorithm : HashAlgorithm) (volumes : VolumeContents)
    (snapshot : Snapshot) (previous : List Snapshot) (node fuel : Nat) : Attempt Fault Bytes :=
  match findDataSnapshot snapshot previous node with
  | .error fault => some (.error fault)
  | .ok found =>
      match openData runtime algorithm volumes found with
      | .error fault => some (.error fault)
      | .ok stream => flushTo runtime algorithm (found.snapshot.fileSystem volumes) stream fuel

/-- `VirtualSnapshotFilesystem::OpenFileForReading`; the stream is opened by the
path of the node. -/
def openMountedFile (runtime : Runtime) (algorithm : HashAlgorithm) (volumes : VolumeContents)
    (snapshot : Snapshot) (previous : List Snapshot) (path : Path) :
    Except Fault (Option (DataNode × InputChain)) :=
  if snapshot.index.hasNodeIndex path then do
    let nodeIndex ← snapshot.index.getNodeIndex path
    let dataSnapshot ← findDataSnapshot snapshot previous nodeIndex
    let stream ← openData runtime algorithm volumes dataSnapshot
    .ok (some (dataSnapshot, stream))
  else .ok none

section Streams

variable {runtime : Runtime} {algorithm : HashAlgorithm} {volumes : VolumeContents}
  {snapshot : Snapshot} {previous : List Snapshot}

theorem open_mounted_file {node : Nat} {path : Path} {attributes : BackupNodeAttributes}
    (entry : snapshot.index.nodes[node]? = some (path, attributes)) {found : DataNode}
    (search : findDataSnapshot snapshot previous node = .ok found) :
    openMountedFile runtime algorithm volumes snapshot previous path =
      (openData runtime algorithm volumes found).map fun stream => some (found, stream) := by
  have present := NodeIndex.lookup_of_get entry
  have known : snapshot.index.hasNodeIndex path = true :=
    (NodeIndex.has_node_index_iff _ _).mpr ⟨attributes, present⟩
  have number : snapshot.index.getNodeIndex path = .ok node :=
    (NodeIndex.get_node_index_ok _ _ _).mpr ⟨attributes, entry⟩
  simp only [openMountedFile, known, if_true, number, search, bind, Except.bind]
  cases openData runtime algorithm volumes found <;> rfl

/-- What a node that verifies delivers to any reader: the recorded number of
bytes with the recorded digest. -/
theorem verified_stream {found : DataNode} {dataAttributes : BackupNodeAttributes}
    (present : found.snapshot.index.lookup found.path = some dataAttributes)
    (verified : Finishes
      (verifyNode runtime algorithm volumes found.snapshot found.path) (.ok true)) :
    ∃ stream content digest, openData runtime algorithm volumes found = .ok stream ∧
      (∀ output, Finishes
        (flushTo runtime algorithm (found.snapshot.fileSystem volumes) stream) output ↔
          output = .ok content) ∧
      content.length = dataAttributes.size ∧
      dataAttributes.hashes algorithm = some digest ∧ runtime.hash algorithm content = digest := by
  obtain ⟨node, number, entry⟩ := NodeIndex.get_node_index_of_lookup present
  have nodeAttributes : found.snapshot.index.getNodeAttributes node = .ok dataAttributes :=
    (NodeIndex.get_node_attributes_ok _ _ _).mpr ⟨found.path, entry⟩
  have opened := @open_for_verification runtime algorithm volumes found.snapshot found.path
    dataAttributes present
  have reading := @open_file_for_reading runtime algorithm (found.snapshot.fileSystem volumes)
    found.snapshot.index node dataAttributes nodeAttributes
  unfold verifyNode at verified
  rw [opened] at verified
  by_cases inRange : InRange (found.snapshot.fileSystem volumes) dataAttributes.blocks
  · rw [if_pos inRange] at verified reading
    cases recorded : dataAttributes.hashes algorithm with
    | none =>
        simp only [recorded] at verified
        cases (finishes_constant _ _).mp verified
    | some digest =>
        simp only [recorded] at verified reading
        obtain ⟨outcome, flushed, same⟩ := (finishes_map _ _ _).mp verified
        cases outcome with
        | error fault => cases fault <;> simp [verdict] at same
        | ok content =>
            simp only [verdict, Except.ok.injEq, Bool.true_eq, decide_eq_true_eq] at same
            obtain ⟨passes, result, _, checked⟩ := (flush_to_finishes inRange _).mp flushed
            let stream : InputChain :=
              { blocks := dataAttributes.blocks
                decoder := decoderOf runtime dataAttributes true
                expected := some digest }
            refine ⟨stream, content, digest, ?_, ?_, same, rfl, ?_⟩
            · simp only [openData, number, bind, Except.bind]
              exact reading
            · exact finishes_iff (flush_to_steady _ _ _ _) flushed
            · cases result with
              | error fault => cases checked
              | ok raw =>
                  by_cases matching : runtime.hash algorithm raw = digest
                  · simp only [Except.bind, checkDigest, if_pos matching, Except.ok.injEq]
                      at checked
                    rw [checked, matching]
                  · simp only [Except.bind, checkDigest, if_neg matching] at checked
                    cases checked
  · rw [if_neg inRange] at verified
    cases (finishes_constant _ _).mp verified

/-- A full verification that reports nothing has verified every file and link
where its data was found. -/
theorem verify_snapshot_nothing_reported {tasks : TaskOrder Nat}
    (verified : Finishes
      (verifySnapshot runtime algorithm volumes tasks snapshot previous true) (.ok []))
    {node : Nat} {path : Path} {attributes : BackupNodeAttributes}
    (entry : snapshot.index.nodes[node]? = some (path, attributes))
    (isContent : attributes.type ≠ .directory) :
    ∃ found, findDataSnapshot snapshot previous node = .ok found ∧
      Finishes (verifyNode runtime algorithm volumes found.snapshot found.path) (.ok true) := by
  obtain ⟨fuel, run⟩ := verified
  obtain ⟨answers, members⟩ := collect_ok run
  have listed : node ∈ tasks.order (List.range snapshot.index.getNumberOfNodes) := by
    rw [mem_order, List.mem_range]
    exact (List.getElem?_eq_some_iff.mp entry).1
  obtain ⟨answer, answered⟩ := answers node listed
  have unreported : answer = false := by
    cases answer with
    | false => rfl
    | true => exact absurd ((members node).mpr ⟨listed, answered⟩) List.not_mem_nil
  have nodeAttributes : snapshot.index.getNodeAttributes node = .ok attributes :=
    (NodeIndex.get_node_attributes_ok _ _ _).mpr ⟨path, entry⟩
  rw [unreported, verifyTask, nodeAttributes] at answered
  simp only [if_neg isContent, Bool.true_or, if_true] at answered
  cases search : findDataSnapshot snapshot previous node with
  | error fault => simp [search] at answered
  | ok found =>
      simp only [search, Option.map_eq_some_iff] at answered
      obtain ⟨outcome, verdict, same⟩ := answered
      refine ⟨found, rfl, fuel, ?_⟩
      cases outcome with
      | error fault => cases same
      | ok value =>
          cases value with
          | true => exact verdict
          | false => cases same

end Streams

section Soundness

variable {runtime : Runtime}

def contentKnown (runtime : Runtime) (node older : BackupNodeAttributes) : Prop :=
  ∀ content, Records runtime older content → Records runtime node content

theorem content_known_of_shared_digest (collisionFree : ∀ algorithm, CollisionFree runtime algorithm)
    {node older : BackupNodeAttributes} {content : Bytes}
    (records : Records runtime node content) {algorithm : HashAlgorithm} {digest : String}
    (recorded : node.hashes algorithm = some digest)
    (olderRecorded : older.hashes algorithm = some digest) : contentKnown runtime node older := by
  intro other olderRecords
  have same := records_shared_digest (collisionFree algorithm) records olderRecords recorded
    olderRecorded
  exact same ▸ records

/-- A file or link with content that is taken over in place either has no back
reference, or one that leads to no file or link of the last snapshot, or it
shares a digest with the one that it leads to. -/
def ReferencesAgree (runtime : Runtime) (last : BackupNodeIndex) (call : Call) : Prop :=
  ∀ path attributes old target other, call.source.index.lookup path = some attributes →
    attributes.type ≠ .directory → attributes.size ≠ 0 →
    takenOverFrom runtime call.hashAlgorithm (some last) call.source path attributes =
      some (path, old) →
    old.backReferenceTarget = some target → last.lookup target = some other →
    other.type ≠ .directory →
      ∃ algorithm digest, old.hashes algorithm = some digest ∧
        other.hashes algorithm = some digest

theorem content_known_new_entry (collisionFree : ∀ algorithm, CollisionFree runtime algorithm)
    {lastIndex : BackupNodeIndex} {entry : Entry} (new : NewEntry runtime (some lastIndex) entry)
    (described : Described runtime (fun _ _ => True) entry.index)
    (agree : ReferencesAgree runtime lastIndex entry.call) (path : Path)
    (node older : BackupNodeAttributes) (found : entry.index.lookup path = some node)
    (without : node.hasNodeData = false)
    (olderPresent : lastIndex.lookup (parentPath path node) = some older) :
    contentKnown runtime node older := by
  cases described path node found with
  | directory isDirectory size undigested =>
      simp [BackupNodeAttributes.hasNodeData, size] at without
  | content content records holds =>
      obtain ⟨algorithm, digest, recorded⟩ := records.digested
      rcases new_entry_older new found (described path node found) without olderPresent with
        same | ⟨sourceAttributes, old, target, sourced, isContent, nonempty, taken, hashes,
          reference, present⟩
      · exact content_known_of_shared_digest collisionFree records recorded (same ▸ recorded)
      · intro other olderRecords
        obtain ⟨shared, sharedDigest, left, right⟩ := agree path sourceAttributes old target older
          sourced isContent nonempty taken reference present olderRecords.isContent
        have nodeRecorded : node.hashes shared = some sharedDigest :=
          (congrFun hashes shared).trans left
        exact content_known_of_shared_digest collisionFree records nodeRecorded right other
          olderRecords

def Agreeable (runtime : Runtime) (chain : Chain) (call : Call) : Prop :=
  InOrder (calls chain) call ∧
    ∀ last, lastIndex chain = some last → ReferencesAgree runtime last call

theorem agreeing_reachable (collisionFree : ∀ algorithm, CollisionFree runtime algorithm)
    {chain : Chain} (reachable : (backups runtime).Reachable (Agreeable runtime) chain) :
    nodeLinkage.Agreeing (contentKnown runtime) (layers (chain.map Entry.snapshot)) := by
  apply agreeing_entries (fun _ call _ => collisionFree call.hashAlgorithm)
    (fun _ _ agreeable => agreeable.1) _ reachable
  intro before last entry newest permitted new described path node older found without present
  exact content_known_new_entry collisionFree new described (permitted.2 last newest) path node
    older found without present

theorem agreeing_suffix {related : BackupNodeAttributes → BackupNodeAttributes → Prop}
    (front : List Snapshot) {rest : List Snapshot}
    (agreeing : nodeLinkage.Agreeing related (layers (front ++ rest))) :
    nodeLinkage.Agreeing related (layers rest) := by
  induction front with
  | nil => exact agreeing
  | cons first front induction =>
      apply induction
      cases front with
      | nil =>
          cases rest with
          | nil => trivial
          | cons => exact agreeing.2
      | cons => exact agreeing.2

/-- In a history without a disagreeing reference, what a full verification
accepts is read by `Restore` and through the mounted file system as it was
recorded, whatever the volumes hold. -/
theorem verification_sound (runtime : Runtime)
    (collisionFree : ∀ algorithm, CollisionFree runtime algorithm) (chain : Chain)
    (reachable : (backups runtime).Reachable (Agreeable runtime) chain)
    (newer : List Snapshot) (snapshot : Snapshot) (previous : List Snapshot)
    (whole : chain.map Entry.snapshot = newer ++ snapshot :: previous)
    (algorithm : HashAlgorithm) (volumes : VolumeContents) (tasks : TaskOrder Nat)
    (verified : Finishes
      (verifySnapshot runtime algorithm volumes tasks snapshot previous true) (.ok [])) :
    ∀ node path attributes, snapshot.index.nodes[node]? = some (path, attributes) →
      attributes.type ≠ .directory →
        ∃ found stream content, findDataSnapshot snapshot previous node = .ok found ∧
          openData runtime algorithm volumes found = .ok stream ∧
          openMountedFile runtime algorithm volumes snapshot previous path =
            .ok (some (found, stream)) ∧
          (∀ output, Finishes (readNode runtime algorithm volumes snapshot previous node) output ↔
            output = .ok content) ∧
          content.length = attributes.size ∧
          ∀ recorded digest, attributes.hashes recorded = some digest →
            runtime.hash recorded content = digest := by
  intro node path attributes entry isContent
  have described := described_reachable (fun _ call _ => collisionFree call.hashAlgorithm) reachable
  have agreeing := agreeing_reachable collisionFree reachable
  rw [whole] at agreeing
  have suffix := agreeing_suffix newer agreeing
  obtain ⟨found, search, passed⟩ := verify_snapshot_nothing_reported verified entry isContent
  obtain ⟨dataAttributes, dataPresent, _, followed⟩ := find_data_snapshot_owner entry search
  obtain ⟨stream, content, digest, opened, reads, size, recorded, hashed⟩ :=
    verified_stream dataPresent passed
  have known : contentKnown runtime attributes dataAttributes :=
    Linkage.follow_agreeing (fun _ _ records => records)
      (fun _ _ _ first second content records => first content (second content records))
      suffix followed rfl (NodeIndex.lookup_of_get entry)
  obtain ⟨position, _⟩ := (find_data_snapshot_ok entry found).mp search
  have member : found.snapshot ∈ chain.map Entry.snapshot := by
    rw [whole]
    exact List.mem_append_right _ (List.mem_of_getElem? position)
  obtain ⟨dataEntry, inChain, same⟩ := List.mem_map.mp member
  have dataFound : dataEntry.index.lookup found.path = some dataAttributes := by
    rw [← same] at dataPresent
    exact dataPresent
  have dataRecords : Records runtime dataAttributes content := by
    cases described dataEntry inChain found.path dataAttributes dataFound with
    | directory isDirectory size undigested =>
        rw [undigested] at recorded
        cases recorded
    | content other records holds =>
        have equal : content = other := by
          apply collisionFree algorithm
          rw [hashed]
          exact records.digests algorithm digest recorded
        exact equal ▸ records
  have records := known content dataRecords
  refine ⟨found, stream, content, search, opened, ?_, ?_, records.size.symm, ?_⟩
  · rw [open_mounted_file entry search, opened]
    rfl
  · intro output
    rw [← reads output]
    unfold readNode
    simp only [search, opened]
  · intro other otherDigest otherRecorded
    exact (records.digests other otherDigest otherRecorded).symm

section RecreatedFile

/-! A file is moved, and a new one of the same size is created at its old path.
The third snapshot finds the data of the moved file at the new one. -/

def recreatedFile : SourceNode := fileNode "a" [3, 4] 2

def recreateBackup : Call := callOf "snapshot_2" [recreatedFile, movedFile] (writeSteps recreatedFile)

def unchangedRecreated : Call := callOf "snapshot_3" [recreatedFile, movedFile] []

def verifyNewest (chain : Chain) (fuel : Nat) : Attempt Fault (List Nat) :=
  match chain.map Entry.snapshot with
  | [] => none
  | snapshot :: previous =>
      verifySnapshot spellingRuntime .md5 (volumesOf chain) inSequence snapshot previous true fuel

theorem agreeable_second {chain : Chain} {first second : Call}
    (taken : (backups runtime).step [] first = some chain) (inOrder : InOrder [first] second) :
    (backups runtime).Reachable (Agreeable runtime) chain ∧ Agreeable runtime chain second := by
  have start : Agreeable runtime [] first := by
    refine ⟨?_, ?_⟩
    · intro older member
      cases member
    · intro last impossible
      cases impossible
  refine ⟨.step .start start taken, ?_⟩
  have added : addSnapshot runtime [] first = some chain := taken
  have history := first_backup_calls added
  refine ⟨history ▸ inOrder, ?_⟩
  intro last newest path attributes old target other _ _ _ origin reference
  have unreferenced := first_backup_unreferenced added newest (taken_over_from_some origin).1
  rw [unreferenced] at reference
  cases reference

theorem moved_file_read :
    ∃ chain snapshot previous path attributes content,
      (backups spellingRuntime).run [] [firstBackup, moveBackup] = some chain ∧
      chain.map Entry.snapshot = snapshot :: previous ∧
      snapshot.index.nodes[0]? = some (path, attributes) ∧
      (∀ output, Finishes
        (readNode spellingRuntime .md5 (volumesOf chain) snapshot previous 0) output ↔
          output = .ok content) ∧
      content.length = attributes.size := by
  have outcome : ((backups spellingRuntime).run [] [firstBackup, moveBackup]).map
      (fun chain => (verifyNewest chain 9, (chain.head?.bind fun entry =>
        entry.index.nodes[0]?).map fun node => node.2.type)) =
          some (some (.ok []), some .file) := by decide +kernel
  obtain ⟨chain, run, facts⟩ := Option.map_eq_some_iff.mp outcome
  obtain ⟨middle, taken, later⟩ := System.run_cons_some run
  obtain ⟨final, next, finished⟩ := System.run_cons_some later
  obtain rfl : final = chain := Option.some.inj finished
  have inOrder : InOrder [firstBackup] moveBackup := by decide +kernel
  obtain ⟨before, agreeable⟩ := agreeable_second taken inOrder
  have reachable : (backups spellingRuntime).Reachable (Agreeable spellingRuntime) final :=
    .step before agreeable next
  cases final with
  | nil => simp [verifyNewest] at facts
  | cons entry older =>
      simp only [List.head?_cons, Option.bind_some, Prod.mk.injEq,
        Option.map_eq_some_iff] at facts
      obtain ⟨verified, ⟨path, attributes⟩, nodeEntry, type⟩ := facts
      have isFile : attributes.type = .file := type
      have isContent : attributes.type ≠ .directory := by simp [isFile]
      obtain ⟨found, stream, content, _, _, _, reads, size, _⟩ :=
        verification_sound spellingRuntime spelling_collision_free (entry :: older)
          reachable [] entry.snapshot (older.map Entry.snapshot) rfl .md5
          (volumesOf (entry :: older)) inSequence ⟨9, verified⟩ 0 path attributes
          nodeEntry isContent
      exact ⟨entry :: older, entry.snapshot, older.map Entry.snapshot, path, attributes,
        content, run, rfl, nodeEntry, reads, size⟩

/-- The third snapshot verifies, and delivers the new file for the moved one. -/
theorem recreated_file_confused :
    ∃ chain snapshot previous path attributes content digest,
      (backups spellingRuntime).Reachable (after fun past call =>
        InOrder past call ∧ call.hashAlgorithm = .md5 ∧ ContentKept past call) chain ∧
      chain.map Entry.snapshot = snapshot :: previous ∧
      Finishes (verifySnapshot spellingRuntime .md5 (volumesOf chain) inSequence snapshot previous
        true) (.ok []) ∧
      snapshot.index.nodes[1]? = some (path, attributes) ∧ attributes.type = .file ∧
      Finishes (readNode spellingRuntime .md5 (volumesOf chain) snapshot previous 1)
        (.ok content) ∧
      attributes.hashes .md5 = some digest ∧ spellingRuntime.hash .md5 content ≠ digest := by
  have outcome : ((backups spellingRuntime).run []
      [firstBackup, recreateBackup, unchangedRecreated]).map
        (fun chain => (verifyNewest chain 9,
          chain.head?.bind fun entry => readNode spellingRuntime .md5 (volumesOf chain)
            entry.snapshot (chain.tail.map Entry.snapshot) 1 9)) =
          some (some (.ok []), some (.ok [3, 4])) := by decide +kernel
  have moved : (((backups spellingRuntime).run []
      [firstBackup, recreateBackup, unchangedRecreated]).bind fun chain =>
        chain.head?.bind fun entry => (entry.index.nodes[1]?).map fun node =>
          (node.2.type, node.2.hashes .md5)) =
          some (.file, some (spellingRuntime.hash .md5 [1, 2])) := by decide +kernel
  obtain ⟨chain, run, facts⟩ := Option.map_eq_some_iff.mp outcome
  rw [run] at moved
  have permitted : Permitted (fun past call =>
      InOrder past call ∧ call.hashAlgorithm = .md5 ∧ ContentKept past call) []
      [firstBackup, recreateBackup, unchangedRecreated] := by
    refine ⟨⟨?_, rfl, ?_⟩, ⟨?_, rfl, ?_⟩, ⟨?_, rfl, ?_⟩, trivial⟩ <;> decide +kernel
  obtain ⟨reachable, _⟩ := run_in_order (fun _ _ allowed => allowed.1) _ .start run permitted
  cases chain with
  | nil => simp [verifyNewest] at facts
  | cons entry older =>
      simp only [List.head?_cons, Option.bind_some, Prod.mk.injEq, List.tail_cons] at facts
      simp only [List.head?_cons, Option.bind_some, Prod.mk.injEq, Option.map_eq_some_iff] at moved
      obtain ⟨verified, read⟩ := facts
      obtain ⟨⟨path, attributes⟩, nodeEntry, type, recorded⟩ := moved
      refine ⟨entry :: older, entry.snapshot, older.map Entry.snapshot, path, attributes, [3, 4],
        spellingRuntime.hash .md5 [1, 2], reachable, rfl, ⟨9, verified⟩, nodeEntry, type, ⟨9, read⟩,
        recorded, ?_⟩
      decide +kernel

end RecreatedFile

end Soundness

end ACBackup.SnapshotVerification
