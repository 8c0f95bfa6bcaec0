import ACBackup.SourceRecovery

/-!
A history whose volume files were damaged: what they hold now is arbitrary. Its
readers may fail, but they never deliver wrong bytes, and a verification that
completes reports exactly the files and links that cannot be read.
-/

namespace ACBackup.DamagedVolumes

open ACBackup.Library.Loop ACBackup.Library.Tasks ACBackup.Library.Transition
open ACBackup.Platform ACBackup.NodeAttributes ACBackup.Indexing ACBackup.VolumeReading
open ACBackup.FileReading ACBackup.SnapshotChain ACBackup.SnapshotManager
open ACBackup.RecordedContent ACBackup.DataResolution ACBackup.SnapshotVerification
open ACBackup.VerifyTermination ACBackup.LocalVerification ACBackup.AddSnapshotAnswer
open ACBackup.SourceRecovery

set_option autoImplicit false

section Readers

variable {runtime : Runtime} {algorithm : HashAlgorithm} {entry : Entry} {older : Chain}
  {path : Path} {content : Bytes} {node : Nat} {attributes : BackupNodeAttributes}
  {found : DataNode} {dataAttributes : BackupNodeAttributes}
  (located : Located runtime algorithm entry older path content node attributes found
    dataAttributes)

include located

theorem read_located (volumes : VolumeContents) (fuel : Nat) :
    readNode runtime algorithm volumes entry.snapshot (older.map Entry.snapshot) node fuel =
      if InRange (found.snapshot.fileSystem volumes) dataAttributes.blocks then
        flushTo runtime algorithm (found.snapshot.fileSystem volumes)
          (checkedStream runtime algorithm content dataAttributes) fuel
      else some (.error .outOfRange) := by
  have opened := open_located located volumes
  by_cases inRange : InRange (found.snapshot.fileSystem volumes) dataAttributes.blocks
  · rw [if_pos inRange] at opened ⊢
    simp only [readNode, located.search, opened]
  · rw [if_neg inRange] at opened ⊢
    simp only [readNode, located.search, opened]

theorem verify_located (volumes : VolumeContents) (fuel : Nat) :
    verifyNode runtime algorithm volumes found.snapshot found.path fuel =
      if InRange (found.snapshot.fileSystem volumes) dataAttributes.blocks then
        (flushTo runtime algorithm (found.snapshot.fileSystem volumes)
          (checkedStream runtime algorithm content dataAttributes) fuel).map
            (verdict dataAttributes.size)
      else some (.error .outOfRange) := by
  have opened := @open_for_verification runtime algorithm volumes found.snapshot found.path
    dataAttributes located.present
  rw [located.recorded] at opened
  by_cases inRange : InRange (found.snapshot.fileSystem volumes) dataAttributes.blocks
  · rw [if_pos inRange] at opened ⊢
    simp only [verifyNode, opened]
    rfl
  · rw [if_neg inRange] at opened ⊢
    simp only [verifyNode, opened]

/-- The data verifies if and only if it can be read. -/
theorem verified_iff_read (collisionFree : CollisionFree runtime algorithm)
    (volumes : VolumeContents) :
    Finishes (verifyNode runtime algorithm volumes found.snapshot found.path) (.ok true) ↔
      Finishes (readNode runtime algorithm volumes entry.snapshot (older.map Entry.snapshot) node)
        (.ok content) := by
  have reading := read_located located volumes
  have verifying := verify_located located volumes
  by_cases inRange : InRange (found.snapshot.fileSystem volumes) dataAttributes.blocks
  · simp only [if_pos inRange] at reading verifying
    constructor
    · rintro ⟨fuel, verified⟩
      rw [verifying, Option.map_eq_some_iff] at verified
      obtain ⟨outcome, flushed, answered⟩ := verified
      cases outcome with
      | error fault => cases fault <;> cases answered
      | ok delivered =>
          have reads : readNode runtime algorithm volumes entry.snapshot
              (older.map Entry.snapshot) node fuel = some (.ok delivered) := by
            rw [reading, flushed]
          rw [← located_read_sound located collisionFree ⟨fuel, reads⟩]
          exact ⟨fuel, reads⟩
    · rintro ⟨fuel, reads⟩
      refine ⟨fuel, ?_⟩
      rw [reading] at reads
      rw [verifying, reads]
      simp only [Option.map_some, verdict, located.dataRecords.size, decide_true]
  · simp only [if_neg inRange] at reading verifying
    constructor
    · rintro ⟨fuel, verified⟩
      rw [verifying] at verified
      cases verified
    · rintro ⟨fuel, reads⟩
      rw [reading] at reads
      cases reads

theorem located_task (collisionFree : CollisionFree runtime algorithm) {volumes : VolumeContents}
    {reported : Bool}
    (answered : Finishes (fun fuel => verifyTask runtime algorithm volumes entry.snapshot
      (older.map Entry.snapshot) true fuel node) (.ok reported)) :
    reported = true ↔ ¬Finishes (readNode runtime algorithm volumes entry.snapshot
      (older.map Entry.snapshot) node) (.ok content) := by
  have steady := @verify_node_steady runtime algorithm volumes found.snapshot found.path
  have task := @verify_task_found runtime algorithm node path attributes volumes entry.snapshot
    (older.map Entry.snapshot) located.nodeEntry located.records.isContent found located.search
  simp only [task] at answered
  obtain ⟨outcome, verified, same⟩ := (finishes_map _ _ _).mp answered
  rw [← verified_iff_read located collisionFree volumes]
  cases outcome with
  | error fault => cases same
  | ok verifies =>
      cases same
      cases verifies with
      | false =>
          constructor
          · intro _ other
            cases finishes_unique steady verified other
          · intro _
            rfl
      | true =>
          constructor
          · intro impossible
            cases impossible
          · intro unverified
            exact absurd verified unverified

/-- A full verification that completes reports the node or has read it. -/
theorem failed_iff_unread (collisionFree : CollisionFree runtime algorithm)
    {volumes : VolumeContents} {tasks : TaskOrder Nat} {failed : List Nat}
    (verified : Finishes (verifySnapshot runtime algorithm volumes tasks entry.snapshot
      (older.map Entry.snapshot) true) (.ok failed)) :
    node ∈ failed ↔ ¬Finishes (readNode runtime algorithm volumes entry.snapshot
      (older.map Entry.snapshot) node) (.ok content) := by
  obtain ⟨answers, members⟩ := verification_answers verified
  have bound : node < entry.snapshot.index.getNumberOfNodes :=
    (List.getElem?_eq_some_iff.mp located.nodeEntry).1
  obtain ⟨reported, answered⟩ := answers node bound
  rw [members node, ← located_task located collisionFree answered]
  constructor
  · intro listed
    have steady := @verify_task_steady runtime algorithm volumes entry.snapshot
      (older.map Entry.snapshot) true node
    cases finishes_unique steady answered listed.2
    rfl
  · intro unread
    subst unread
    exact ⟨bound, answered⟩

end Readers

/-- Damage never goes unnoticed. Whatever the volume files hold, a snapshot of a
regular history delivers for a file or link the content of the source or nothing,
also through the mounted file system, and a full verification that completes
reports exactly those that cannot be read. -/
theorem damage_never_silent (runtime : Runtime) (algorithm : HashAlgorithm)
    (collisionFree : ∀ algorithm, CollisionFree runtime algorithm) (chain : Chain)
    (reachable : (backups runtime).Reachable (after (Regular algorithm)) chain)
    (current : HistoryCurrent runtime chain) (entry : Entry) (older : Chain)
    (suffix : entry :: older <:+ chain) (volumes : VolumeContents) (path : Path)
    (attributes : FileSystemNodeAttributes)
    (sourced : entry.call.source.index.lookup path = some attributes)
    (isContent : attributes.type ≠ .directory) :
    ∃ node, entry.index.getNodeIndex path = .ok node ∧
      (∀ delivered, Finishes (readNode runtime algorithm volumes entry.snapshot
          (older.map Entry.snapshot) node) (.ok delivered) →
        delivered = entry.call.source.content path) ∧
      (∀ found stream delivered, openMountedFile runtime algorithm volumes entry.snapshot
          (older.map Entry.snapshot) path = .ok (some (found, stream)) →
        Finishes (flushTo runtime algorithm (found.snapshot.fileSystem volumes) stream)
          (.ok delivered) → delivered = entry.call.source.content path) ∧
      ∀ tasks failed, Finishes (verifySnapshot runtime algorithm volumes tasks entry.snapshot
          (older.map Entry.snapshot) true) (.ok failed) →
        (node ∈ failed ↔ ¬Finishes (readNode runtime algorithm volumes entry.snapshot
          (older.map Entry.snapshot) node) (.ok (entry.call.source.content path))) := by
  obtain ⟨node, loaded, found, dataAttributes, located⟩ := source_located collisionFree reachable
    current suffix sourced isContent
  refine ⟨node, (NodeIndex.get_node_index_ok _ _ _).mpr ⟨loaded, located.nodeEntry⟩, ?_, ?_, ?_⟩
  · intro delivered reads
    exact located_read_sound located (collisionFree algorithm) reads
  · intro other stream delivered mounted flushed
    rw [open_mounted_file located.nodeEntry located.search] at mounted
    cases opened : openData runtime algorithm volumes found with
    | error fault =>
        rw [opened] at mounted
        cases mounted
    | ok checked =>
        rw [opened] at mounted
        cases mounted
        exact located_flush_sound located (collisionFree algorithm) opened flushed
  · intro tasks failed verified
    exact failed_iff_unread located (collisionFree algorithm) verified

theorem moved_file_damaged :
    ∃ newest first, (backups spellingRuntime).run [] [firstBackup, moveBackup] =
        some [newest, first] ∧
      ∃ node, newest.index.getNodeIndex movedFile.path = .ok node ∧
        ∀ delivered, Finishes (readNode spellingRuntime .md5 (fun _ _ => [7, 7]) newest.snapshot
          [first.snapshot] node) (.ok delivered) → delivered = [1, 2] := by
  obtain ⟨newest, first, run, newestCall, _, reachable, current⟩ := moved_file_history
  have sourced : newest.call.source.index.lookup movedFile.path = some movedFile.attributes := by
    rw [newestCall]
    decide +kernel
  have content : newest.call.source.content movedFile.path = [1, 2] := by
    rw [newestCall]
    decide +kernel
  obtain ⟨node, number, sound, _⟩ := damage_never_silent spellingRuntime .md5
    spelling_collision_free [newest, first] reachable current newest [first]
    (List.suffix_refl _) (fun _ _ => [7, 7]) movedFile.path movedFile.attributes sourced nofun
  rw [content] at sound
  exact ⟨newest, first, run, node, number, sound⟩

/-- `AddSnapshot` verifies the whole new snapshot, and so notices when volumes of
older snapshots went corrupt: if it answers, it answers with success if and only if
every file and link of the new snapshot can be read as the source had it. -/
theorem answer_exact (runtime : Runtime) (algorithm : HashAlgorithm)
    (collisionFree : ∀ algorithm, CollisionFree runtime algorithm) (newest : Entry) (chain : Chain)
    (reachable : (backups runtime).Reachable (after (Regular algorithm)) (newest :: chain))
    (current : HistoryCurrent runtime (newest :: chain)) (checks : Checks)
    (volumes : VolumeContents) (reply : Bool)
    (answered : Finishes (answer runtime checks volumes (newest :: chain) newest.call)
      (.ok reply)) :
    reply = true ↔ ∀ node path attributes, newest.index.nodes[node]? = some (path, attributes) →
      attributes.type ≠ .directory →
        Finishes (readNode runtime algorithm volumes newest.snapshot (chain.map Entry.snapshot)
          node) (.ok (newest.call.source.content path)) := by
  have sameAlgorithm : newest.call.hashAlgorithm = algorithm := by
    apply entries_reachable (fun entry => entry.call.hashAlgorithm = algorithm) _ reachable newest
      (List.mem_cons_self ..)
    intro before entry _ _ permitted _
    exact permitted.2.1
  have verified : ∃ failed, Finishes (verifySnapshot runtime algorithm volumes checks.verifyTasks
      newest.snapshot (chain.map Entry.snapshot) true) (.ok failed) ∧ reply = failed.isEmpty := by
    unfold answer at answered
    rw [sameAlgorithm] at answered
    cases same : ensureNoDifferenceExists runtime checks.differenceTasks (newest :: chain)
        newest.call with
    | error fault =>
        simp only [same] at answered
        cases (finishes_constant _ _).mp answered
    | ok _ =>
        simp only [same] at answered
        obtain ⟨outcome, finished, reported⟩ := (finishes_map _ _ _).mp answered
        cases outcome with
        | error fault => cases reported
        | ok failed =>
            cases reported
            exact ⟨failed, finished, rfl⟩
  obtain ⟨failed, verified, rfl⟩ := verified
  have unread : ∀ node path attributes, newest.index.nodes[node]? = some (path, attributes) →
      attributes.type ≠ .directory → (node ∈ failed ↔
        ¬Finishes (readNode runtime algorithm volumes newest.snapshot (chain.map Entry.snapshot)
          node) (.ok (newest.call.source.content path))) := by
    intro node path attributes nodeEntry isContent
    obtain ⟨_, _, located⟩ := node_located collisionFree reachable current (List.suffix_refl _)
      nodeEntry isContent
    exact failed_iff_unread located (collisionFree algorithm) verified
  rw [List.isEmpty_iff, List.eq_nil_iff_forall_not_mem]
  constructor
  · intro nothing node path attributes nodeEntry isContent
    by_contra lost
    exact nothing node ((unread node path attributes nodeEntry isContent).mpr lost)
  · intro readable node member
    obtain ⟨bound, task⟩ := ((verification_answers verified).2 node).mp member
    obtain ⟨⟨path, attributes⟩, nodeEntry⟩ :
        ∃ found, newest.snapshot.index.nodes[node]? = some found :=
      ⟨_, List.getElem?_eq_getElem bound⟩
    have isContent : attributes.type ≠ .directory := by
      intro directory
      have nodeAttributes : newest.snapshot.index.getNodeAttributes node = .ok attributes :=
        (NodeIndex.get_node_attributes_ok _ _ _).mpr ⟨path, nodeEntry⟩
      simp only [verifyTask, nodeAttributes, if_pos directory] at task
      cases (finishes_constant _ _).mp task
    exact (unread node path attributes nodeEntry isContent).mp member
      (readable node path attributes nodeEntry isContent)

theorem damaged_move_answered :
    ∃ newest first, (backups spellingRuntime).run [] [firstBackup, moveBackup] =
        some [newest, first] ∧
      ¬∀ node path attributes, newest.index.nodes[node]? = some (path, attributes) →
        attributes.type ≠ .directory →
          Finishes (readNode spellingRuntime .md5 (fun _ _ => [7, 7]) newest.snapshot
            [first.snapshot] node) (.ok (newest.call.source.content path)) := by
  obtain ⟨newest, first, run, newestCall, _, reachable, current⟩ := moved_file_history
  have outcome : ((backups spellingRuntime).run [] [firstBackup, moveBackup]).bind (fun chain =>
      answer spellingRuntime ⟨inSequence, inSequence⟩ (fun _ _ => [7, 7]) chain moveBackup 9) =
        some (.ok false) := by
    decide +kernel
  rw [run, Option.bind_some, ← newestCall] at outcome
  have exactly := answer_exact spellingRuntime .md5 spelling_collision_free newest [first]
    reachable current ⟨inSequence, inSequence⟩ (fun _ _ => [7, 7]) false ⟨9, outcome⟩
  refine ⟨newest, first, run, ?_⟩
  intro readable
  cases exactly.mpr readable

end ACBackup.DamagedVolumes
