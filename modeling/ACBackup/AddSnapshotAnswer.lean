import ACBackup.SnapshotMirror
import ACBackup.StoredContent

/-!
What `AddSnapshot` answers when it has read the snapshots in again: it compares
the source once more and verifies the new snapshot with everything it refers to.
-/

namespace ACBackup.AddSnapshotAnswer

open ACBackup.Library.Loop ACBackup.Library.Tasks ACBackup.Library.Transition
open ACBackup.Platform ACBackup.NodeAttributes ACBackup.Indexing ACBackup.VolumeReading
open ACBackup.FileReading ACBackup.SnapshotChain ACBackup.SnapshotCreation
open ACBackup.SnapshotManager ACBackup.RecordedContent ACBackup.VerifyTermination
open ACBackup.DataResolution ACBackup.SnapshotVerification ACBackup.LocalVerification
open ACBackup.SnapshotMirror ACBackup.StoredContent

set_option autoImplicit false

structure Checks where
  differenceTasks : TaskOrder Nat
  verifyTasks : TaskOrder Nat

/-- Where nothing differs `ComputeDeleted` passes no number on to the source. -/
def ensureNoDifferenceExists (runtime : Runtime) (tasks : TaskOrder Nat) (chain : Chain)
    (call : Call) : Except Fault Unit :=
  match computeDifference runtime call.hashAlgorithm tasks (lastIndex chain) call.source false with
  | .error fault => .error fault
  | .ok difference => if difference.exist then .error .verificationFailed else .ok ()

/-- The end of `AddSnapshot`: the newest snapshot of the list is verified. -/
def answer (runtime : Runtime) (checks : Checks) (volumes : VolumeContents) (chain : Chain)
    (call : Call) (fuel : Nat) : Attempt Fault Bool :=
  match ensureNoDifferenceExists runtime checks.differenceTasks chain call with
  | .error fault => some (.error fault)
  | .ok () =>
      match chain with
      | [] => some (.error .outOfRange)
      | newest :: older =>
          (verifySnapshot runtime call.hashAlgorithm volumes checks.verifyTasks newest.snapshot
            (older.map Entry.snapshot) true fuel).map (Except.map List.isEmpty)

/-- `FindDataSnapshot` leads from every file and link of one snapshot to a file or
link. -/
def NodesResolve (snapshot : Snapshot) (previous : List Snapshot) : Prop :=
  ∀ node path attributes, snapshot.index.nodes[node]? = some (path, attributes) →
    attributes.type ≠ .directory →
      ∃ found dataAttributes, findDataSnapshot snapshot previous node = .ok found ∧
        found.snapshot.index.lookup found.path = some dataAttributes ∧
        dataAttributes.type ≠ .directory

section Intact

variable {runtime : Runtime} {algorithm : HashAlgorithm} {chain : Chain} {entry : Entry}
  {older : Chain} {node : Nat} {path : Path} {attributes : BackupNodeAttributes}

theorem verify_task_found {volumes : VolumeContents} {snapshot : Snapshot}
    {previous : List Snapshot}
    (nodeEntry : snapshot.index.nodes[node]? = some (path, attributes))
    (isContent : attributes.type ≠ .directory) {found : DataNode}
    (search : findDataSnapshot snapshot previous node = .ok found) (fuel : Nat) :
    verifyTask runtime algorithm volumes snapshot previous true fuel node =
      (verifyNode runtime algorithm volumes found.snapshot found.path fuel).map
        (Except.map not) := by
  have nodeAttributes : snapshot.index.getNodeAttributes node = .ok attributes :=
    (NodeIndex.get_node_attributes_ok _ _ _).mpr ⟨path, nodeEntry⟩
  simp only [verifyTask, nodeAttributes, if_neg isContent, search, Bool.true_or, if_true]

theorem nothing_reported {volumes : VolumeContents} {snapshot : Snapshot}
    {previous : List Snapshot} {full : Bool} (tasks : TaskOrder Nat)
    (unreported : ∀ node < snapshot.index.getNumberOfNodes, Finishes
      (fun fuel => verifyTask runtime algorithm volumes snapshot previous full fuel node)
        (.ok false)) :
    Finishes (verifySnapshot runtime algorithm volumes tasks snapshot previous full) (.ok []) := by
  obtain ⟨reported, verified⟩ :=
    verification_finishes tasks fun node bound => ⟨false, unreported node bound⟩
  have nothing : reported = [] := by
    apply List.eq_nil_iff_forall_not_mem.mpr
    intro node member
    obtain ⟨bound, yes⟩ := ((verification_answers verified).2 node).mp member
    cases finishes_unique (verify_task_steady snapshot previous full node) yes
      (unreported node bound)
  exact nothing ▸ verified

theorem data_entry (suffix : entry :: older <:+ chain)
    (nodeEntry : entry.snapshot.index.nodes[node]? = some (path, attributes)) {found : DataNode}
    (search : findDataSnapshot entry.snapshot (older.map Entry.snapshot) node = .ok found) :
    ∃ dataEntry ∈ chain, dataEntry.snapshot = found.snapshot := by
  have member := find_data_snapshot_mem nodeEntry search
  rw [← List.map_cons] at member
  obtain ⟨dataEntry, inside, same⟩ := List.mem_map.mp member
  exact ⟨dataEntry, suffix.subset inside, same⟩

variable (collisionFree : ∀ algorithm, CollisionFree runtime algorithm)
  (decompresses : Decompresses runtime)
  (reachable : (backups runtime).Reachable (after (Orderly algorithm)) chain)
  (suffix : entry :: older <:+ chain)

include collisionFree decompresses reachable suffix

theorem intact_task (nodeEntry : entry.snapshot.index.nodes[node]? = some (path, attributes))
    (isContent : attributes.type ≠ .directory) (reported : Bool) :
    Finishes (fun fuel => verifyTask runtime algorithm (volumesOf chain) entry.snapshot
        (older.map Entry.snapshot) true fuel node) (.ok reported) ↔
      reported = false ∧ ∃ found dataAttributes,
        findDataSnapshot entry.snapshot (older.map Entry.snapshot) node = .ok found ∧
        found.snapshot.index.lookup found.path = some dataAttributes ∧
        dataAttributes.type ≠ .directory := by
  have nodeAttributes : entry.snapshot.index.getNodeAttributes node = .ok attributes :=
    (NodeIndex.get_node_attributes_ok _ _ _).mpr ⟨path, nodeEntry⟩
  cases search : findDataSnapshot entry.snapshot (older.map Entry.snapshot) node with
  | error fault =>
      simp only [verifyTask, nodeAttributes, if_neg isContent, search]
      constructor
      · intro finishes
        cases (finishes_constant _ _).mp finishes
      · intro resolved
        obtain ⟨_, _, _, impossible, _⟩ := resolved
        cases impossible
  | ok found =>
      obtain ⟨dataEntry, inChain, same⟩ := data_entry suffix nodeEntry search
      obtain ⟨dataAttributes, present, hasData, _⟩ := find_data_snapshot_owner nodeEntry search
      have dataFound : dataEntry.index.lookup found.path = some dataAttributes := by
        rw [← same] at present
        exact present
      simp only [verify_task_found nodeEntry isContent search]
      by_cases directory : dataAttributes.type = .directory
      · -- a directory has no digest, and opening it for verification asks for one
        have noDigest : dataAttributes.hashes algorithm = none := by
          have described := described_reachable
            (fun _ call _ => collisionFree call.hashAlgorithm) reachable dataEntry inChain
            found.path dataAttributes dataFound
          cases described with
          | directory _ _ undigested => rw [undigested]
          | content content records holds => exact absurd directory records.isContent
        have opened := @open_for_verification runtime algorithm (volumesOf chain) found.snapshot
          found.path dataAttributes present
        rw [noDigest] at opened
        constructor
        · intro finishes
          obtain ⟨outcome, verified, answered⟩ := (finishes_map _ _ _).mp finishes
          unfold verifyNode at verified
          rw [opened] at verified
          split at verified
          · rename_i failed
            split_ifs at failed <;>
              (rw [(finishes_constant _ _).mp verified] at answered; cases answered)
          · rename_i success
            split_ifs at success
        · intro resolved
          obtain ⟨_, other, otherAttributes, sameFound, otherPresent, content⟩ := resolved
          cases sameFound
          rw [present, Option.some.injEq] at otherPresent
          exact absurd (otherPresent ▸ directory) content
      · obtain ⟨digest, recorded⟩ := digested_reachable (fun _ _ orderly => orderly.2) reachable
          dataEntry inChain found.path dataAttributes dataFound directory
        have verified := data_node_verifies collisionFree decompresses reachable inChain dataFound
          directory hasData recorded
        rw [same] at verified
        rw [finishes_map]
        constructor
        · intro finishes
          obtain ⟨outcome, reached, answered⟩ := finishes
          rw [(verified outcome).mp reached] at answered
          cases answered
          exact ⟨rfl, found, dataAttributes, rfl, present, directory⟩
        · intro resolved
          exact ⟨.ok true, (verified _).mpr rfl, by rw [resolved.1]; rfl⟩

/-- Verifying a snapshot of an undamaged backup never reports a node; it completes
if and only if the data of every file and link is found. -/
theorem intact_verification (tasks : TaskOrder Nat) (failed : List Nat) :
    Finishes (verifySnapshot runtime algorithm (volumesOf chain) tasks entry.snapshot
        (older.map Entry.snapshot) true) (.ok failed) ↔
      failed = [] ∧ NodesResolve entry.snapshot (older.map Entry.snapshot) := by
  have task := @intact_task runtime algorithm chain entry older
  constructor
  · intro verified
    obtain ⟨answers, members⟩ := verification_answers verified
    have resolved : NodesResolve entry.snapshot (older.map Entry.snapshot) := by
      intro node path attributes nodeEntry isContent
      obtain ⟨reported, finished⟩ := answers node (List.getElem?_eq_some_iff.mp nodeEntry).1
      exact ((task collisionFree decompresses reachable suffix nodeEntry isContent reported).mp
        finished).2
    refine ⟨?_, resolved⟩
    apply List.eq_nil_iff_forall_not_mem.mpr
    intro node member
    obtain ⟨bound, finished⟩ := (members node).mp member
    obtain ⟨⟨path, attributes⟩, nodeEntry⟩ :
        ∃ found, entry.snapshot.index.nodes[node]? = some found :=
      ⟨_, List.getElem?_eq_getElem bound⟩
    by_cases directory : attributes.type = .directory
    · have nodeAttributes : entry.snapshot.index.getNodeAttributes node = .ok attributes :=
        (NodeIndex.get_node_attributes_ok _ _ _).mpr ⟨path, nodeEntry⟩
      simp only [verifyTask, nodeAttributes, if_pos directory] at finished
      cases (finishes_constant _ _).mp finished
    · cases ((task collisionFree decompresses reachable suffix nodeEntry directory true).mp
        finished).1
  · intro resolved
    obtain ⟨rfl, resolved⟩ := resolved
    have unreported : ∀ node < entry.snapshot.index.getNumberOfNodes, Finishes
        (fun fuel => verifyTask runtime algorithm (volumesOf chain) entry.snapshot
          (older.map Entry.snapshot) true fuel node) (.ok false) := by
      intro node bound
      obtain ⟨⟨path, attributes⟩, nodeEntry⟩ :
          ∃ found, entry.snapshot.index.nodes[node]? = some found :=
        ⟨_, List.getElem?_eq_getElem bound⟩
      by_cases directory : attributes.type = .directory
      · have nodeAttributes : entry.snapshot.index.getNodeAttributes node = .ok attributes :=
          (NodeIndex.get_node_attributes_ok _ _ _).mpr ⟨path, nodeEntry⟩
        simp only [verifyTask, nodeAttributes, if_pos directory]
        exact (finishes_constant _ _).mpr rfl
      · exact (task collisionFree decompresses reachable suffix nodeEntry directory false).mpr
          ⟨rfl, resolved node path attributes nodeEntry directory⟩
    exact nothing_reported tasks unreported

end Intact

theorem data_found_resolves {runtime : Runtime} {algorithm : HashAlgorithm} {chain : Chain}
    (collisionFree : ∀ algorithm, CollisionFree runtime algorithm)
    (reachable : (backups runtime).Reachable (after (Orderly algorithm)) chain)
    (dataFound : DataFound algorithm (chain.map Entry.snapshot)) {entry : Entry} {older : Chain}
    (suffix : entry :: older <:+ chain) :
    NodesResolve entry.snapshot (older.map Entry.snapshot) := by
  intro node path attributes nodeEntry isContent
  obtain ⟨newer, whole⟩ := suffix
  have parts : chain.map Entry.snapshot =
      newer.map Entry.snapshot ++ entry.snapshot :: older.map Entry.snapshot := by
    rw [← whole, List.map_append, List.map_cons]
  obtain ⟨found, dataAttributes, digest, search, present, _, _, recorded⟩ :=
    dataFound _ _ _ parts node path attributes nodeEntry isContent
  refine ⟨found, dataAttributes, search, present, ?_⟩
  obtain ⟨dataEntry, inChain, same⟩ := data_entry ⟨newer, whole⟩ nodeEntry search
  rw [← same] at present
  cases described_reachable (fun _ call _ => collisionFree call.hashAlgorithm) reachable dataEntry
      inChain found.path dataAttributes present with
  | directory _ _ undigested =>
      rw [undigested] at recorded
      cases recorded
  | content content records holds => exact records.isContent

/-- On an undamaged backup `AddSnapshot` never answers that the new snapshot is
corrupt. It answers, with success, if and only if the data of every file and link
of the new snapshot is found at a file or link, and so in every history without
stale references. -/
theorem add_snapshot_answer_iff (runtime : Runtime) (algorithm : HashAlgorithm)
    (collisionFree : ∀ algorithm, CollisionFree runtime algorithm)
    (decompresses : Decompresses runtime) (chain next : Chain) (call : Call)
    (reachable : (backups runtime).Reachable (after (Orderly algorithm)) chain)
    (permitted : Orderly algorithm (calls chain) call)
    (taken : (backups runtime).step chain call = some next) :
    ∃ newest, next = newest :: chain ∧ newest.call = call ∧
      (∀ checks reply, Finishes (answer runtime checks (volumesOf next) next call) (.ok reply) ↔
        reply = true ∧ NodesResolve newest.snapshot (chain.map Entry.snapshot)) ∧
      (HistoryCurrent runtime next → ∀ checks,
        Finishes (answer runtime checks (volumesOf next) next call) (.ok true)) := by
  have later : (backups runtime).Reachable (after (Orderly algorithm)) next :=
    .step reachable permitted taken
  obtain ⟨newest, rfl, new, inserted⟩ := add_snapshot_some taken
  rw [insert_entry_in_order permitted.1] at inserted
  subst inserted
  have verification := @intact_verification runtime algorithm (newest :: chain) newest chain
    collisionFree decompresses later (List.suffix_refl _)
  have answered : ∀ checks reply, Finishes
      (answer runtime checks (volumesOf (newest :: chain)) (newest :: chain) newest.call)
        (.ok reply) ↔
      reply = true ∧ NodesResolve newest.snapshot (chain.map Entry.snapshot) := by
    intro checks reply
    obtain ⟨difference, computed, same⟩ :=
      @no_difference_exists runtime _ newest newest.call.hashAlgorithm new checks.differenceTasks
    have noDifference : ensureNoDifferenceExists runtime checks.differenceTasks (newest :: chain)
        newest.call = .ok () := by
      simp only [ensureNoDifferenceExists, lastIndex, List.head?_cons, Option.map_some, computed,
        same]
      rfl
    have verifies : answer runtime checks (volumesOf (newest :: chain)) (newest :: chain)
        newest.call = fun fuel =>
          (verifySnapshot runtime algorithm (volumesOf (newest :: chain)) checks.verifyTasks
            newest.snapshot (chain.map Entry.snapshot) true fuel).map
              (Except.map List.isEmpty) := by
      funext fuel
      simp only [answer, noDifference, permitted.2]
    rw [verifies, finishes_map]
    constructor
    · intro finishes
      obtain ⟨outcome, verified, replied⟩ := finishes
      cases outcome with
      | error fault => cases replied
      | ok failed =>
          obtain ⟨rfl, resolved⟩ := (verification checks.verifyTasks failed).mp verified
          cases replied
          exact ⟨rfl, resolved⟩
    · intro resolved
      refine ⟨.ok [], (verification checks.verifyTasks []).mpr ⟨rfl, resolved.2⟩, ?_⟩
      rw [resolved.1]
      rfl
  refine ⟨newest, rfl, rfl, answered, ?_⟩
  intro current checks
  rw [answered]
  refine ⟨rfl, ?_⟩
  have dataFound := (data_found_iff_history_current runtime algorithm (collisionFree algorithm) _
    later).mpr current
  exact data_found_resolves collisionFree later dataFound (List.suffix_refl _)

section MovedFile

def secondAnswer (chain : Chain) (call : Call) (fuel : Nat) : Option (Attempt Fault Bool) :=
  ((backups spellingRuntime).step chain call).map fun next =>
    answer spellingRuntime ⟨inSequence, inSequence⟩ (volumesOf next) next call fuel

theorem move_backup_answered :
    ∃ chain newest, (backups spellingRuntime).step [] firstBackup = some chain ∧
      (backups spellingRuntime).step chain moveBackup = some (newest :: chain) ∧
      NodesResolve newest.snapshot (chain.map Entry.snapshot) := by
  have outcome : ((backups spellingRuntime).step [] firstBackup).map
      (fun chain => secondAnswer chain moveBackup 9) = some (some (some (.ok true))) := by
    decide +kernel
  obtain ⟨chain, first, facts⟩ := Option.map_eq_some_iff.mp outcome
  obtain ⟨next, second, answered⟩ := Option.map_eq_some_iff.mp facts
  have start : Orderly .md5 [] firstBackup := ⟨by decide +kernel, rfl⟩
  have permitted : Orderly .md5 (calls chain) moveBackup := by
    have added : addSnapshot spellingRuntime [] firstBackup = some chain := first
    rw [first_backup_calls added]
    exact ⟨by decide +kernel, rfl⟩
  obtain ⟨newest, rfl, _, accepted, _⟩ := add_snapshot_answer_iff spellingRuntime .md5
    spelling_collision_free spelling_decompresses chain next moveBackup
    (.step .start start first) permitted second
  exact ⟨chain, newest, first, second,
    ((accepted ⟨inSequence, inSequence⟩ true).mp ⟨9, answered⟩).2⟩

end MovedFile

end ACBackup.AddSnapshotAnswer
