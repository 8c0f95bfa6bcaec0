import ACBackup.DamagedVolumes

/-!
The command that verifies all snapshots, each only as far as its own data goes. Its
reports together say what can be read in any snapshot.
-/

namespace ACBackup.VerifyCommands

open ACBackup.Library.Loop ACBackup.Library.Outcome ACBackup.Library.Tasks
open ACBackup.Library.Transition
open ACBackup.Platform ACBackup.NodeAttributes ACBackup.Indexing ACBackup.SnapshotChain
open ACBackup.SnapshotManager ACBackup.RecordedContent ACBackup.DataResolution
open ACBackup.SnapshotVerification ACBackup.LocalVerification ACBackup.ChainOrder
open ACBackup.StoredContent ACBackup.AddSnapshotAnswer ACBackup.SourceRecovery
open ACBackup.DamagedVolumes

set_option autoImplicit false

structure VerificationReport where
  snapshot : String
  corrupt : List Path
  deriving DecidableEq

def outputVerificationResults (failedNodes : List Nat) (snapshot : Snapshot) :
    Except Fault VerificationReport := do
  let corrupt ← failedNodes.mapM snapshot.index.getNodePath
  .ok { snapshot := snapshot.name, corrupt := corrupt }

def verify (runtime : Runtime) (algorithm : HashAlgorithm) (volumes : VolumeContents)
    (tasks : TaskOrder Nat) (snapshot : Snapshot) (previous : List Snapshot) (full : Bool)
    (fuel : Nat) : Attempt Fault VerificationReport :=
  (verifySnapshot runtime algorithm volumes tasks snapshot previous full fuel).andThen
    fun failedNodes => some (outputVerificationResults failedNodes snapshot)

structure VerificationSummary where
  reports : List VerificationReport
  snapshotsWithCorruption : List String
  deriving DecidableEq

def VerificationSummary.add (summary : VerificationSummary) (report : VerificationReport) :
    VerificationSummary where
  reports := summary.reports ++ [report]
  snapshotsWithCorruption :=
    if report.corrupt.isEmpty then summary.snapshotsWithCorruption
    else summary.snapshotsWithCorruption ++ [report.snapshot]

/-- The snapshots are verified one after another, the oldest first. -/
def commandVerifyAllSnapshots (runtime : Runtime) (algorithm : HashAlgorithm)
    (volumes : VolumeContents) (tasks : Snapshot → TaskOrder Nat) :
    List Snapshot → Nat → Attempt Fault VerificationSummary
  | [], _ => some (.ok { reports := [], snapshotsWithCorruption := [] })
  | snapshot :: previous, fuel =>
      (commandVerifyAllSnapshots runtime algorithm volumes tasks previous fuel).andThen
        fun summary =>
          (verify runtime algorithm volumes (tasks snapshot) snapshot previous false fuel).andThen
            fun report => some (.ok (summary.add report))

section Command

variable {runtime : Runtime} {algorithm : HashAlgorithm} {volumes : VolumeContents}
  {tasks : Snapshot → TaskOrder Nat} {snapshots : List Snapshot} {snapshot : Snapshot}
  {previous : List Snapshot}

def Reported (runtime : Runtime) (algorithm : HashAlgorithm) (volumes : VolumeContents)
    (tasks : Snapshot → TaskOrder Nat) (snapshot : Snapshot) (previous : List Snapshot)
    (report : VerificationReport) : Prop :=
  ∃ failed, Finishes
      (verifySnapshot runtime algorithm volumes (tasks snapshot) snapshot previous false)
      (.ok failed) ∧
    outputVerificationResults failed snapshot = .ok report

theorem summary_reports {summary : VerificationSummary}
    (finished : Finishes (commandVerifyAllSnapshots runtime algorithm volumes tasks snapshots)
      (.ok summary)) :
    (∀ snapshot previous, snapshot :: previous <:+ snapshots → ∃ report ∈ summary.reports,
      Reported runtime algorithm volumes tasks snapshot previous report) ∧
    (∀ report ∈ summary.reports, ∃ snapshot previous, snapshot :: previous <:+ snapshots ∧
      Reported runtime algorithm volumes tasks snapshot previous report) ∧
    (summary.snapshotsWithCorruption = [] ↔ ∀ report ∈ summary.reports, report.corrupt = []) := by
  induction snapshots generalizing summary with
  | nil =>
      obtain ⟨_, run⟩ := finished
      cases run
      refine ⟨?_, ?_, ?_⟩
      · intro snapshot previous suffix
        cases List.suffix_nil.mp suffix
      · intro report member
        cases member
      · simp
  | cons newest older induction =>
      obtain ⟨fuel, run⟩ := finished
      obtain ⟨before, beforeRun, rest⟩ := and_then_ok run
      obtain ⟨report, reportRun, last⟩ := and_then_ok rest
      obtain ⟨failed, verified, output⟩ := and_then_ok reportRun
      rw [Option.some.injEq, Except.ok.injEq] at last
      subst last
      obtain ⟨complete, sound, empty⟩ := induction ⟨fuel, beforeRun⟩
      have reported : Reported runtime algorithm volumes tasks newest older report :=
        ⟨failed, ⟨fuel, verified⟩, Option.some.inj output⟩
      refine ⟨?_, ?_, ?_⟩
      · intro snapshot previous suffix
        rcases List.suffix_cons_iff.mp suffix with same | inOlder
        · cases same
          exact ⟨report, List.mem_append_right _ (List.mem_singleton_self _), reported⟩
        · obtain ⟨other, member, facts⟩ := complete snapshot previous inOlder
          exact ⟨other, List.mem_append_left _ member, facts⟩
      · intro other member
        rcases List.mem_append.mp member with earlier | this
        · obtain ⟨snapshot, previous, suffix, facts⟩ := sound other earlier
          exact ⟨snapshot, previous, suffix.trans (List.suffix_cons _ _), facts⟩
        · cases List.mem_singleton.mp this
          exact ⟨newest, older, List.suffix_refl _, reported⟩
      · simp only [VerificationSummary.add, List.mem_append, List.mem_singleton]
        cases corrupt : report.corrupt with
        | nil =>
            simp only [List.isEmpty_nil, if_true, empty]
            constructor
            · intro clean other member
              rcases member with earlier | rfl
              · exact clean other earlier
              · exact corrupt
            · intro clean other earlier
              exact clean other (.inl earlier)
        | cons path paths =>
            constructor
            · intro impossible
              simp at impossible
            · intro clean
              have nothing := clean report (.inr rfl)
              rw [corrupt] at nothing
              cases nothing

/-- A path is reported if and only if the task of its node answers so. -/
theorem reported_path {report : VerificationReport}
    (reported : Reported runtime algorithm volumes tasks snapshot previous report) {node : Nat}
    {path : Path} {attributes : BackupNodeAttributes}
    (entry : snapshot.index.nodes[node]? = some (path, attributes)) :
    report.snapshot = snapshot.name ∧ (path ∈ report.corrupt ↔ Finishes
      (fun fuel => verifyTask runtime algorithm volumes snapshot previous false fuel node)
        (.ok true)) := by
  obtain ⟨failed, verified, output⟩ := reported
  obtain ⟨paths, listed, same⟩ := bind_ok output
  cases same
  refine ⟨rfl, ?_⟩
  have members := (verification_answers verified).2
  constructor
  · intro corrupt
    obtain ⟨other, inFailed, otherPath⟩ := map_m_ok_mem listed corrupt
    obtain ⟨otherAttributes, otherEntry⟩ := (NodeIndex.get_node_path_ok _ _ _).mp otherPath
    have sameNode := NodeIndex.node_number_unique otherEntry entry
    rw [← sameNode]
    exact ((members other).mp inFailed).2
  · intro answered
    have inFailed : node ∈ failed :=
      (members node).mpr ⟨(List.getElem?_eq_some_iff.mp entry).1, answered⟩
    obtain ⟨other, inPaths, otherPath⟩ := forall_two_mem ((map_m_ok_iff _ _ _).mp listed) inFailed
    rw [(NodeIndex.get_node_path_ok _ _ _).mpr ⟨attributes, entry⟩, Except.ok.injEq] at otherPath
    rw [otherPath]
    exact inPaths

theorem reported_name {report : VerificationReport}
    (reported : Reported runtime algorithm volumes tasks snapshot previous report) :
    report.snapshot = snapshot.name := by
  obtain ⟨_, _, output⟩ := reported
  obtain ⟨_, _, same⟩ := bind_ok output
  cases same
  rfl

theorem local_task (node : Nat) :
    (∀ fuel, verifyTask runtime algorithm volumes snapshot previous false fuel node =
        verifyTask runtime algorithm volumes snapshot previous true fuel node) ∨
      ∀ fuel, verifyTask runtime algorithm volumes snapshot previous false fuel node =
        some (.ok false) := by
  cases nodeAttributes : snapshot.index.getNodeAttributes node with
  | error fault =>
      left
      intro fuel
      simp only [verifyTask, nodeAttributes]
  | ok attributes =>
      by_cases directory : attributes.type = .directory
      · right
        intro fuel
        simp only [verifyTask, nodeAttributes, if_pos directory]
      · cases search : findDataSnapshot snapshot previous node with
        | error fault =>
            left
            intro fuel
            simp only [verifyTask, nodeAttributes, search]
        | ok found =>
            by_cases own : found.distance = 0
            · left
              intro fuel
              simp only [verifyTask, nodeAttributes, search, own, decide_true, Bool.or_true]
            · right
              intro fuel
              simp only [verifyTask, nodeAttributes, if_neg directory, search, own, decide_false,
                Bool.or_self, Bool.false_eq_true, if_false]

/-- What is reported is a file or link, and a full verification finds it as well. -/
theorem reported_content {report : VerificationReport}
    (reported : Reported runtime algorithm volumes tasks snapshot previous report) {path : Path}
    (corrupt : path ∈ report.corrupt) :
    ∃ (node : Nat) (attributes : BackupNodeAttributes),
      snapshot.index.nodes[node]? = some (path, attributes) ∧
      attributes.type ≠ .directory ∧ Finishes
        (fun fuel => verifyTask runtime algorithm volumes snapshot previous true fuel node)
        (.ok true) := by
  have listed : ∃ (node : Nat) (attributes : BackupNodeAttributes),
      snapshot.index.nodes[node]? = some (path, attributes) := by
    obtain ⟨failed, _, output⟩ := reported
    obtain ⟨paths, names, same⟩ := bind_ok output
    cases same
    obtain ⟨node, _, nodePath⟩ := map_m_ok_mem names corrupt
    exact ⟨node, (NodeIndex.get_node_path_ok _ _ _).mp nodePath⟩
  obtain ⟨node, attributes, entry⟩ := listed
  have answered := (reported_path reported entry).2.mp corrupt
  rcases @local_task runtime algorithm volumes snapshot previous node with full | left
  · simp only [full] at answered
    refine ⟨node, attributes, entry, ?_, answered⟩
    intro directory
    have nodeAttributes : snapshot.index.getNodeAttributes node = .ok attributes :=
      (NodeIndex.get_node_attributes_ok _ _ _).mpr ⟨path, entry⟩
    simp only [verifyTask, nodeAttributes, if_pos directory] at answered
    cases (finishes_constant _ _).mp answered
  · simp only [left] at answered
    cases (finishes_constant _ _).mp answered

theorem local_nothing_reported (order : TaskOrder Nat)
    (verified : Finishes
      (verifySnapshot runtime algorithm volumes order snapshot previous true) (.ok [])) :
    Finishes (verifySnapshot runtime algorithm volumes order snapshot previous false) (.ok []) := by
  obtain ⟨answers, members⟩ := verification_answers verified
  apply nothing_reported
  intro node bound
  rcases @local_task runtime algorithm volumes snapshot previous node with same | left
  · obtain ⟨answer, answered⟩ := answers node bound
    simp only [same]
    cases answer with
    | false => exact answered
    | true => exact absurd ((members node).mpr ⟨bound, answered⟩) List.not_mem_nil
  · simp only [left]
    exact (finishes_constant _ _).mpr rfl

theorem verify_steady (order : TaskOrder Nat) (snapshot : Snapshot) (previous : List Snapshot)
    (full : Bool) :
    Steady (verify runtime algorithm volumes order snapshot previous full) :=
  steady_and_then (collect_steady (verify_task_steady snapshot previous full) _)
    fun _ => steady_constant _

theorem verify_all_steady (snapshots : List Snapshot) :
    Steady (commandVerifyAllSnapshots runtime algorithm volumes tasks snapshots) := by
  induction snapshots with
  | nil => exact steady_constant _
  | cons newest older induction =>
      apply steady_and_then induction
      intro summary
      exact steady_and_then (verify_steady _ _ _ _) fun _ => steady_constant _

theorem verify_all_nothing_reported
    (verified : ∀ snapshot previous, snapshot :: previous <:+ snapshots → ∀ order, Finishes
      (verifySnapshot runtime algorithm volumes order snapshot previous true) (.ok [])) :
    ∃ reports, Finishes
      (commandVerifyAllSnapshots runtime algorithm volumes tasks snapshots)
      (.ok { reports := reports, snapshotsWithCorruption := [] }) := by
  induction snapshots with
  | nil => exact ⟨[], 0, rfl⟩
  | cons newest older induction =>
      obtain ⟨reports, before⟩ := induction fun snapshot previous suffix =>
        verified snapshot previous (suffix.trans (List.suffix_cons _ _))
      have own := local_nothing_reported (tasks newest)
        (verified newest older (List.suffix_refl _) (tasks newest))
      have output : Finishes (verify runtime algorithm volumes (tasks newest) newest older false)
          (.ok { snapshot := newest.name, corrupt := [] }) :=
        (finishes_and_then (collect_steady (verify_task_steady newest older false) _)
          (fun _ => steady_constant _) own _).mpr ((finishes_constant _ _).mpr rfl)
      have next : ∀ summary : VerificationSummary, Steady fun fuel =>
          (verify runtime algorithm volumes (tasks newest) newest older false fuel).andThen
            fun report => some (.ok (summary.add report)) :=
        fun summary => steady_and_then (verify_steady _ _ _ _) fun _ => steady_constant _
      refine ⟨reports ++ [{ snapshot := newest.name, corrupt := [] }], ?_⟩
      apply (finishes_and_then (verify_all_steady older) next before _).mpr
      apply (finishes_and_then (verify_steady _ _ _ _) (fun _ => steady_constant _) output _).mpr
      exact (finishes_constant _ _).mpr rfl

end Command

section Histories

variable {runtime : Runtime} {algorithm : HashAlgorithm} {volumes : VolumeContents}
  {tasks : Snapshot → TaskOrder Nat} {chain : Chain}

theorem suffix_entries {snapshot : Snapshot} {previous : List Snapshot}
    (suffix : snapshot :: previous <:+ chain.map Entry.snapshot) :
    ∃ entry older, entry :: older <:+ chain ∧ entry.snapshot = snapshot ∧
      older.map Entry.snapshot = previous := by
  obtain ⟨front, whole⟩ := suffix
  obtain ⟨newer, rest, parts, _, same⟩ := List.map_eq_append_iff.mp whole.symm
  obtain ⟨entry, older, cons, snapshot, previous⟩ := List.map_eq_cons_iff.mp same
  exact ⟨entry, older, ⟨newer, by rw [parts, cons]⟩, snapshot, previous⟩

theorem entries_suffix {entry : Entry} {older : Chain} (suffix : entry :: older <:+ chain) :
    entry.snapshot :: older.map Entry.snapshot <:+ chain.map Entry.snapshot := by
  rw [← List.map_cons]
  exact suffix.map Entry.snapshot

theorem same_snapshot (sorted : Sorted chain) {entry other : Entry} (member : entry ∈ chain)
    (otherMember : other ∈ chain) (name : entry.call.name = other.call.name) : entry = other := by
  have names : (chain.map fun entry => indexFileName entry.call.name).Nodup := by
    rw [List.nodup_iff_pairwise_ne, List.pairwise_map]
    exact sorted.imp fun before => before.ne'
  exact List.inj_on_of_nodup_map names member otherMember (congrArg indexFileName name)

section Located

variable {entry : Entry} {older : Chain} {path : Path} {content : Bytes} {node : Nat}
  {attributes : BackupNodeAttributes} {found : DataNode} {dataAttributes : BackupNodeAttributes}

/-- A node can be read if and only if its data is not reported by the snapshot that
has it. -/
theorem read_iff_unreported (collisionFree : CollisionFree runtime algorithm)
    (sorted : Sorted chain) (suffix : entry :: older <:+ chain)
    (located : Located runtime algorithm entry older path content node attributes found
      dataAttributes)
    {summary : VerificationSummary}
    (finished : Finishes (commandVerifyAllSnapshots runtime algorithm volumes tasks
      (chain.map Entry.snapshot)) (.ok summary)) :
    Finishes (readNode runtime algorithm volumes entry.snapshot (older.map Entry.snapshot) node)
        (.ok content) ↔
      ¬∃ report ∈ summary.reports, report.snapshot = found.snapshot.name ∧
        found.path ∈ report.corrupt := by
  obtain ⟨complete, sound, _⟩ := summary_reports finished
  obtain ⟨dataNode, dataNodeEntry, sameTask⟩ := @verify_task_data runtime algorithm volumes
    entry.snapshot (older.map Entry.snapshot) node path attributes located.nodeEntry
    located.records.isContent found located.search dataAttributes located.present
    located.dataRecords.isContent
  obtain ⟨dataEntry, inChain, same⟩ := data_entry suffix located.nodeEntry located.search
  constructor
  · rintro reads ⟨report, member, name, corrupt⟩
    obtain ⟨snapshot, previous, reportSuffix, reported⟩ := sound report member
    obtain ⟨other, otherOlder, otherSuffix, rfl, rfl⟩ := suffix_entries reportSuffix
    have sameEntry : other = dataEntry := by
      apply same_snapshot sorted (otherSuffix.subset (List.mem_cons_self ..)) inChain
      have otherName := reported_name reported
      rw [name, ← same] at otherName
      exact otherName.symm
    rw [sameEntry, same] at reported
    have answered := (reported_path reported dataNodeEntry).2.mp corrupt
    simp only [← sameTask] at answered
    exact (located_task located collisionFree answered).mp rfl reads
  · intro unreported
    obtain ⟨newer, dataOlder, whole⟩ := List.append_of_mem inChain
    have dataSuffix : found.snapshot :: dataOlder.map Entry.snapshot <:+
        chain.map Entry.snapshot := by
      rw [← same]
      exact entries_suffix ⟨newer, whole.symm⟩
    obtain ⟨report, member, reported⟩ := complete _ _ dataSuffix
    obtain ⟨name, corrupt⟩ := reported_path reported dataNodeEntry
    obtain ⟨failed, verified, _⟩ := reported
    obtain ⟨answer, answered⟩ := (verification_answers verified).1 dataNode
      (List.getElem?_eq_some_iff.mp dataNodeEntry).1
    have unanswered : answer ≠ true := by
      intro yes
      rw [yes] at answered
      exact unreported ⟨report, member, name, corrupt.mpr answered⟩
    simp only [← sameTask] at answered
    by_contra unread
    exact unanswered ((located_task located collisionFree answered).mpr unread)

end Located

end Histories

/-- The command that verifies all snapshots, each only as far as its own data goes,
tells for every file and link of every snapshot whether it can be read, whatever the
volumes hold: it can if and only if the snapshot that has the data did not report it.
No snapshot is listed as corrupt if and only if everything can be read, and on
undamaged volumes the command completes so. -/
theorem verify_all_exact (runtime : Runtime) (algorithm : HashAlgorithm)
    (collisionFree : ∀ algorithm, CollisionFree runtime algorithm)
    (decompresses : Decompresses runtime) (chain : Chain)
    (reachable : (backups runtime).Reachable (after (Regular algorithm)) chain)
    (current : HistoryCurrent runtime chain) (tasks : Snapshot → TaskOrder Nat) :
    (∀ volumes summary, Finishes (commandVerifyAllSnapshots runtime algorithm volumes tasks
        (chain.map Entry.snapshot)) (.ok summary) →
      (∀ entry older path attributes, entry :: older <:+ chain →
        entry.call.source.index.lookup path = some attributes → attributes.type ≠ .directory →
          ∃ node found, entry.index.getNodeIndex path = .ok node ∧
            findDataSnapshot entry.snapshot (older.map Entry.snapshot) node = .ok found ∧
            (Finishes (readNode runtime algorithm volumes entry.snapshot
                (older.map Entry.snapshot) node) (.ok (entry.call.source.content path)) ↔
              ¬∃ report ∈ summary.reports, report.snapshot = found.snapshot.name ∧
                found.path ∈ report.corrupt)) ∧
      (summary.snapshotsWithCorruption = [] ↔
        ∀ entry older node path attributes, entry :: older <:+ chain →
          entry.index.nodes[node]? = some (path, attributes) → attributes.type ≠ .directory →
            Finishes (readNode runtime algorithm volumes entry.snapshot
              (older.map Entry.snapshot) node) (.ok (entry.call.source.content path)))) ∧
    ∃ reports, Finishes (commandVerifyAllSnapshots runtime algorithm (volumesOf chain) tasks
      (chain.map Entry.snapshot)) (.ok { reports := reports, snapshotsWithCorruption := [] }) := by
  have sorted := ReadPaths.sorted_reachable reachable
  constructor
  · intro volumes summary finished
    obtain ⟨complete, sound, empty⟩ := summary_reports finished
    constructor
    · intro entry older path attributes suffix sourced isContent
      obtain ⟨node, loaded, found, _, located⟩ := source_located collisionFree reachable current
        suffix sourced isContent
      exact ⟨node, found, (NodeIndex.get_node_index_ok _ _ _).mpr ⟨loaded, located.nodeEntry⟩,
        located.search,
        read_iff_unreported (collisionFree algorithm) sorted suffix located finished⟩
    · rw [empty]
      constructor
      · intro clean entry older node path attributes suffix nodeEntry isContent
        obtain ⟨found, _, located⟩ := node_located collisionFree reachable current suffix nodeEntry
          isContent
        apply (read_iff_unreported (collisionFree algorithm) sorted suffix located finished).mpr
        rintro ⟨report, member, _, corrupt⟩
        rw [clean report member] at corrupt
        cases corrupt
      · intro readable report member
        obtain ⟨snapshot, previous, suffix, reported⟩ := sound report member
        obtain ⟨entry, older, entrySuffix, rfl, rfl⟩ := suffix_entries suffix
        apply List.eq_nil_iff_forall_not_mem.mpr
        intro path corrupt
        obtain ⟨node, attributes, nodeEntry, isContent, answered⟩ :=
          reported_content reported corrupt
        obtain ⟨_, _, located⟩ := node_located collisionFree reachable current entrySuffix nodeEntry
          isContent
        exact (located_task located (collisionFree algorithm) answered).mp rfl
          (readable entry older node path attributes entrySuffix nodeEntry isContent)
  · apply verify_all_nothing_reported
    intro snapshot previous suffix order
    obtain ⟨entry, older, entrySuffix, rfl, rfl⟩ := suffix_entries suffix
    have orderly := regular_orderly reachable
    have dataFound := (data_found_iff_history_current runtime algorithm (collisionFree algorithm)
      chain orderly).mpr current
    exact (intact_verification collisionFree decompresses orderly entrySuffix order []).mpr
      ⟨rfl, data_found_resolves collisionFree orderly dataFound entrySuffix⟩

theorem moved_file_verified :
    ∃ newest first, (backups spellingRuntime).run [] [firstBackup, moveBackup] =
        some [newest, first] ∧
      ∃ reports, Finishes (commandVerifyAllSnapshots spellingRuntime .md5
        (volumesOf [newest, first]) (fun _ => inSequence) [newest.snapshot, first.snapshot])
          (.ok { reports := reports, snapshotsWithCorruption := [] }) := by
  obtain ⟨newest, first, run, _, _, reachable, current⟩ := moved_file_history
  exact ⟨newest, first, run, (verify_all_exact spellingRuntime .md5 spelling_collision_free
    spelling_decompresses [newest, first] reachable current fun _ => inSequence).2⟩

end ACBackup.VerifyCommands
