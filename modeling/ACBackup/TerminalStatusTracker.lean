import ACBackup.ProgressBounds

/-!
`TerminalStatusTracker`: its thread samples the processes of an operation one after another,
at any moments. A division by zero kills the program; a process is safe when its total is
not zero at any moment.
-/

namespace ACBackup.TerminalStatusTracker

open ACBackup.Library.Outcome ACBackup.Library.Tasks ACBackup.Library.Transition
open ACBackup.Platform ACBackup.NodeAttributes ACBackup.Indexing ACBackup.SourceIndex
open ACBackup.DifferenceResolver ACBackup.SnapshotChain ACBackup.SnapshotCreation
open ACBackup.SnapshotManager ACBackup.Restore ACBackup.StatusTracking
open ACBackup.KnownEndProcesses ACBackup.ProgressBounds

set_option autoImplicit false

structure KnownEndReport where
  finishedFiles : BitVec 32
  files : BitVec 32
  finishedSize : BitVec 64
  size : BitVec 64
  progress : BitVec 64
  deriving DecidableEq

inductive Report where
  | knownEnd (report : KnownEndReport)
  | unknownEnd (foundFiles : BitVec 32)
  deriving DecidableEq

/-- `none` when the total is zero: unlike `ToJSON`, nothing asks before the division. -/
def printKnownEndTask (status : ProcessStatus) : Option KnownEndReport :=
  if status.totalSize = 0 then none
  else
    some
      { finishedFiles := status.nFinishedFiles
        files := status.nFiles
        finishedSize := status.doneSize
        size := status.totalSize
        progress := status.doneSize * 100 / status.totalSize }

def printTask (status : ProcessStatus) : Option Report :=
  if status.isEndDeterminate then (printKnownEndTask status).map .knownEnd
  else some (.unknownEnd status.nFiles)

/-- The state of the thread. There are never as many processes as `currentStep` can
count. -/
structure Watch where
  currentStep : Nat
  reports : List Report
  deriving DecidableEq

/-- One pass of the loop of `ThreadMain`. -/
def watchProcesses (watch : Watch) (processes : List ProcessStatus) : Option Watch :=
  match processes[watch.currentStep]? with
  | none => some watch
  | some status =>
      match printTask status with
      | none => none
      | some report =>
          some
            { currentStep :=
                if watch.currentStep + 1 < processes.length then watch.currentStep + 1
                else watch.currentStep
              reports := watch.reports ++ [report] }

def threadMain (samples : List (List ProcessStatus)) : Option Watch :=
  samples.foldlM watchProcesses { currentStep := 0, reports := [] }

/-- The processes of an operation at a moment of a run: the next process is created when
everything has happened in the one before. -/
inductive Moment : List Process → List ProcessStatus → Prop
  | before (processes : List Process) : Moment processes []
  | running {process : Process} {rest : List Process} {events : List ProcessEvent}
      (performed : process.Performed events) :
      Moment (process :: rest) [process.statusAfter events]
  | later {process : Process} {rest : List Process} {events : List ProcessEvent}
      {statuses : List ProcessStatus} (performed : process.Performed events)
      (complete : events.Perm process.events) (moment : Moment rest statuses) :
      Moment (process :: rest) (process.statusAfter events :: statuses)

/-- The thread is never killed, whenever it takes its samples. The source may have been
scanned before, by a process without a determinate end. -/
def NeverKilled (processes : List Process) : Prop :=
  ∀ (scan : Option ProcessStatus) (samples : List (List ProcessStatus)),
    (∀ status ∈ scan, status.isEndDeterminate = false) →
      (∀ sample ∈ samples, ∃ statuses, Moment processes statuses ∧
        sample = scan.toList ++ statuses) →
        (threadMain samples).isSome

/-- When the total of a process is never zero. Only the loop of `ComputeDeleted` changes
it: no first part of its changed nodes may take exactly the total away. -/
def NeverZero (surroundings : Surroundings) : KnownEndProcess → Prop
  | .creatingSnapshot _ call difference =>
      ¬computeTotalSizeOf call.source.index difference.differentData ≡ 0 [MOD 2 ^ 64]
  | .verifyingSnapshot _ _ snapshot _ full =>
      ¬(if full then computeTotalSize (fileSystemNodes snapshot.index)
        else computeSumOfOwnedBlockSizes snapshot.index) ≡ 0 [MOD 2 ^ 64]
  | .restoringSnapshot _ _ snapshot _ _ =>
      ¬computeTotalSize (fileSystemNodes snapshot.index) ≡ 0 [MOD 2 ^ 64]
  | .computingIndexDifferences leftIndex => ¬computeTotalSize leftIndex ≡ 0 [MOD 2 ^ 64]
  | .resolvingDeletedNodes leftIndex rightIndex indexes =>
      ∀ nodes, nodes <+: indexes.toList →
        ¬computeTotalSizeOf leftIndex indexes ≡
          ((nodes.filter fun node => ¬isDeleted leftIndex rightIndex node).map
            (sizeRead surroundings rightIndex)).sum [MOD 2 ^ 64]
  | .indexingPotentiallyNewNodes _ _ right rightToLeftDiffs =>
      ¬computeTotalSizeOf right.index rightToLeftDiffs ≡ 0 [MOD 2 ^ 64]

section Totals

theorem total_after (events : List ProcessEvent) (status : ProcessStatus) :
    (events.foldl ProcessStatus.perform status).totalSize =
      status.totalSize - BitVec.ofNat 64 (reducedSizes events) := by
  induction events generalizing status with
  | nil => simp [reducedSizes]
  | cons event rest induction =>
      have sizes : reducedSizes (event :: rest) = reducedSize event + reducedSizes rest := by
        simp [reducedSizes]
      rw [List.foldl_cons, induction, sizes, BitVec.ofNat_add]
      cases event with
      | addFinishedSize size => simp [ProcessStatus.perform, reducedSize]
      | incFileCount => simp [ProcessStatus.perform, reducedSize]
      | incFinishedCount => simp [ProcessStatus.perform, reducedSize]
      | reduceTotalSize size =>
          simp only [ProcessStatus.perform, reducedSize]
          exact (sub_add_eq_sub_sub _ _ _).symm

theorem total_zero_iff (process : Process) (events : List ProcessEvent) :
    (process.statusAfter events).totalSize = 0 ↔
      process.totalSize ≡ reducedSizes events [MOD 2 ^ 64] := by
  have total : (process.statusAfter events).totalSize =
      BitVec.ofNat 64 process.totalSize - BitVec.ofNat 64 (reducedSizes events) :=
    total_after events process.start
  rw [total]
  constructor
  · intro zero
    have same := congrArg BitVec.toNat (sub_eq_zero.mp zero)
    simpa only [BitVec.toNat_ofNat, Nat.ModEq] using same
  · intro same
    apply sub_eq_zero.mpr
    apply BitVec.eq_of_toNat_eq
    simpa only [BitVec.toNat_ofNat, Nat.ModEq] using same

theorem total_constant {process : Process} (unreduced : reducedSizes process.events = 0) :
    (∀ events, process.Performed events → (process.statusAfter events).totalSize ≠ 0) ↔
      ¬process.totalSize ≡ 0 [MOD 2 ^ 64] := by
  have none : ∀ events, process.Performed events → reducedSizes events = 0 := by
    intro events performed
    have part := performed_sizes performed reducedSize
    exact Nat.eq_zero_of_le_zero (part.trans (le_of_eq unreduced))
  constructor
  · intro never
    have start := never [] (.first List.nil_prefix)
    rwa [ne_eq, total_zero_iff] at start
  · intro nonzero events performed
    rwa [ne_eq, total_zero_iff, none events performed]

end Totals

section ChangedNodes

variable {surroundings : Surroundings} {leftIndex rightIndex : FileSystemNodeIndex}

theorem resolved_nodes_reduced (nodes : List Nat) :
    reducedSizes (nodes.map (resolvedNode surroundings leftIndex rightIndex)).flatten =
      ((nodes.filter fun node => ¬isDeleted leftIndex rightIndex node).map
        (sizeRead surroundings rightIndex)).sum := by
  have reduced : (nodes.map fun node =>
      reducedSizes (resolvedNode surroundings leftIndex rightIndex node)) =
        nodes.map fun node =>
          if isDeleted leftIndex rightIndex node then 0
          else sizeRead surroundings rightIndex node :=
    List.map_congr_left fun node _ => (resolved_node_sizes leftIndex rightIndex node).2
  rw [reduced_tasks, reduced, List.sum_map_ite, List.sum_map_zero, Nat.zero_add]

theorem resolved_node_begun {node : Nat} {events remains : List ProcessEvent}
    (whole : events ++ remains = resolvedNode surroundings leftIndex rightIndex node)
    (open_ : remains ≠ []) : reducedSizes events = 0 := by
  obtain ⟨second, pass⟩ : ∃ second, resolvedNode surroundings leftIndex rightIndex node =
      [.incFileCount, second] := by
    unfold resolvedNode
    by_cases deleted : isDeleted leftIndex rightIndex node = true
    · exact ⟨_, if_pos deleted⟩
    · exact ⟨_, if_neg deleted⟩
  rw [pass] at whole
  rcases events with _ | ⟨first, _ | ⟨next, events⟩⟩
  · rfl
  · cases whole
    rfl
  · simp only [List.cons_append, List.cons.injEq, List.append_eq_nil_iff] at whole
    exact absurd whole.2.2.2 open_

theorem loop_part (nodes : List Nat) {events : List ProcessEvent}
    (begun : events <+: (nodes.map (resolvedNode surroundings leftIndex rightIndex)).flatten) :
    ∃ part, part <+: nodes ∧ reducedSizes events =
      reducedSizes (part.map (resolvedNode surroundings leftIndex rightIndex)).flatten := by
  induction nodes generalizing events with
  | nil =>
      rw [List.prefix_nil.mp begun]
      exact ⟨[], List.nil_prefix, rfl⟩
  | cons node rest induction =>
      rw [List.map_cons, List.flatten_cons] at begun
      obtain ⟨others, whole⟩ := begun
      rcases List.append_eq_append_iff.mp whole with ⟨remains, here, _⟩ | ⟨later, here, below⟩
      · by_cases complete : remains = []
        · refine ⟨[node], List.cons_prefix_cons.mpr ⟨rfl, List.nil_prefix⟩, ?_⟩
          rw [complete, List.append_nil] at here
          rw [← here, List.map_cons, List.map_nil, List.flatten_cons, List.flatten_nil,
            List.append_nil]
        · refine ⟨[], List.nil_prefix, ?_⟩
          exact resolved_node_begun here.symm complete
      · obtain ⟨part, first, reduced⟩ := induction ⟨others, below.symm⟩
        refine ⟨node :: part, List.cons_prefix_cons.mpr ⟨rfl, first⟩, ?_⟩
        rw [here, List.map_cons, List.flatten_cons, reduced_append, reduced_append, reduced]

end ChangedNodes

section Processes

variable {surroundings : Surroundings} {runtime : Runtime} {fuel : Nat}

theorem resolving_never_zero_iff (leftIndex rightIndex : FileSystemNodeIndex)
    (indexes : Std.TreeSet Nat) :
    (∀ events,
        (resolvingDeletedNodes surroundings leftIndex rightIndex indexes).Performed events →
        ((resolvingDeletedNodes surroundings leftIndex rightIndex indexes).statusAfter
          events).totalSize ≠ 0) ↔
      NeverZero surroundings (.resolvingDeletedNodes leftIndex rightIndex indexes) := by
  constructor
  · intro never nodes first
    have begun : (nodes.map (resolvedNode surroundings leftIndex rightIndex)).flatten <+:
        (indexes.toList.map (resolvedNode surroundings leftIndex rightIndex)).flatten := by
      obtain ⟨rest, whole⟩ := first
      rw [← whole, List.map_append, List.flatten_append]
      exact List.prefix_append _ _
    have nonzero := never _ (.first begun)
    rwa [ne_eq, total_zero_iff, resolved_nodes_reduced] at nonzero
  · intro nonzero events performed
    have begun : events <+:
        (indexes.toList.map (resolvedNode surroundings leftIndex rightIndex)).flatten := by
      cases performed with
      | first begun => exact begun
      | tasks moment =>
          obtain ⟨rest, same⟩ := interleaving_part moment
          have none := (List.append_eq_nil_iff.mp (List.perm_nil.mp same)).1
          rw [none, List.append_nil]
          exact List.prefix_refl _
    obtain ⟨part, first, reduced⟩ := loop_part indexes.toList begun
    rw [ne_eq, total_zero_iff, reduced, resolved_nodes_reduced]
    exact nonzero part first

/-- When the total of a process is never zero. -/
theorem never_zero_iff (known : KnownEndProcess) :
    (∀ events, (known.process surroundings runtime fuel).Performed events →
        ((known.process surroundings runtime fuel).statusAfter events).totalSize ≠ 0) ↔
      NeverZero surroundings known := by
  cases known with
  | creatingSnapshot last call difference =>
      apply total_constant
      have stored := @tasks_reduced difference.differentData.toList _ fun node _ =>
        (@stored_node_sizes surroundings runtime call node).2
      simp only [Process.events, KnownEndProcess.process, creatingSnapshot, List.nil_append,
        List.flatten_cons, reduced_append, counts_sizes, stored, Nat.add_zero]
  | verifyingSnapshot algorithm volumes snapshot previous full =>
      exact total_constant (tasks_reduced fun node _ => verified_node_reduced full fuel node)
  | restoringSnapshot algorithm volumes snapshot previous restorePoint =>
      apply total_constant
      obtain ⟨directories, run, _⟩ := restore_directories_ok snapshot restorePoint
      have restored := @tasks_reduced (List.range snapshot.index.getNumberOfNodes) _
        fun node _ => (@restored_node_sizes runtime algorithm volumes snapshot previous
          restorePoint fuel node).2
      simp only [Process.events, KnownEndProcess.process, restoringSnapshot, run,
        reduced_append, counts_sizes, restored, Nat.add_zero]
  | computingIndexDifferences leftIndex =>
      exact total_constant (tasks_reduced fun node _ => rfl)
  | resolvingDeletedNodes leftIndex rightIndex indexes =>
      exact resolving_never_zero_iff leftIndex rightIndex indexes
  | indexingPotentiallyNewNodes algorithm leftIndex right rightToLeftDiffs =>
      exact total_constant (tasks_reduced fun node _ =>
        (indexed_node_sizes algorithm leftIndex right node).2)

end Processes

section Samples

variable {processes : List Process}

theorem status_of_moment {statuses : List ProcessStatus} (moment : Moment processes statuses) :
    ∀ status ∈ statuses, ∃ process ∈ processes, ∃ events, process.Performed events ∧
      status = process.statusAfter events := by
  induction moment with
  | before processes =>
      intro status member
      cases member
  | @running process rest events performed =>
      intro status member
      rw [List.mem_singleton] at member
      exact ⟨process, List.mem_cons_self .., events, performed, member⟩
  | @later process rest events statuses performed _ _ induction =>
      intro status member
      rcases List.mem_cons.mp member with here | below
      · exact ⟨process, List.mem_cons_self .., events, performed, here⟩
      · obtain ⟨other, listed, facts⟩ := induction status below
        exact ⟨other, List.mem_cons_of_mem _ listed, facts⟩

theorem moment_of_status {process : Process} (listed : process ∈ processes)
    {events : List ProcessEvent} (performed : process.Performed events) :
    ∃ statuses, Moment processes statuses ∧ process.statusAfter events ∈ statuses := by
  induction processes with
  | nil => cases listed
  | cons first rest induction =>
      rcases List.mem_cons.mp listed with here | below
      · subst here
        exact ⟨_, .running performed, List.mem_singleton_self _⟩
      · obtain ⟨statuses, moment, member⟩ := induction below
        exact ⟨_, .later (performed_all first) (List.Perm.refl _) moment,
          List.mem_cons_of_mem _ member⟩

theorem print_task_some {status : ProcessStatus}
    (safe : status.isEndDeterminate = true → status.totalSize ≠ 0) :
    ∃ report, printTask status = some report := by
  unfold printTask printKnownEndTask
  by_cases determinate : status.isEndDeterminate = true
  · rw [if_pos determinate, if_neg (safe determinate)]
    exact ⟨_, rfl⟩
  · rw [if_neg determinate]
    exact ⟨_, rfl⟩

theorem watch_processes_some {processes : List ProcessStatus}
    (safe : ∀ status ∈ processes, status.isEndDeterminate = true → status.totalSize ≠ 0)
    (watch : Watch) : ∃ next, watchProcesses watch processes = some next := by
  unfold watchProcesses
  cases here : processes[watch.currentStep]? with
  | none => exact ⟨watch, rfl⟩
  | some status =>
      obtain ⟨report, printed⟩ := print_task_some (safe status (List.mem_of_getElem? here))
      simp only [printed]
      exact ⟨_, rfl⟩

theorem thread_main_some {samples : List (List ProcessStatus)}
    (safe : ∀ sample ∈ samples, ∀ status ∈ sample,
      status.isEndDeterminate = true → status.totalSize ≠ 0) :
    (threadMain samples).isSome := by
  unfold threadMain
  generalize ({ currentStep := 0, reports := [] } : Watch) = watch
  induction samples generalizing watch with
  | nil => rfl
  | cons sample rest induction =>
      obtain ⟨next, passed⟩ := watch_processes_some (safe sample (List.mem_cons_self ..)) watch
      rw [List.foldlM_cons, passed]
      exact induction (fun other listed => safe other (List.mem_cons_of_mem _ listed)) next

theorem thread_main_succ (passes : Nat) (sample : List ProcessStatus) :
    threadMain (List.replicate (passes + 1) sample) =
      (threadMain (List.replicate passes sample)).bind fun watch =>
        watchProcesses watch sample := by
  have one : ∀ watch, [sample].foldlM watchProcesses watch = watchProcesses watch sample := by
    intro watch
    exact bind_pure (watchProcesses watch sample)
  rw [threadMain, List.replicate_succ', List.foldlM_append]
  simp only [one]
  rfl

theorem watch_advances {sample : List ProcessStatus} (passes : Nat)
    (inside : passes < sample.length) {watch : Watch}
    (watched : threadMain (List.replicate passes sample) = some watch) :
    watch.currentStep = passes := by
  induction passes generalizing watch with
  | zero =>
      cases watched
      rfl
  | succ passes induction =>
      rw [thread_main_succ] at watched
      obtain ⟨before, earlier, pass⟩ := Option.bind_eq_some_iff.mp watched
      have step := induction (by omega) earlier
      have here : sample[before.currentStep]? = some (sample.get ⟨passes, by omega⟩) := by
        rw [step]
        exact List.getElem?_eq_getElem (by omega)
      simp only [watchProcesses, here] at pass
      cases printed : printTask (sample.get ⟨passes, by omega⟩) with
      | none =>
          rw [printed] at pass
          cases pass
      | some report =>
          simp only [printed, Option.some.injEq] at pass
          rw [← pass]
          simp [step, inside]

/-- A slow operation is sampled at the process whose total is zero. -/
theorem thread_main_killed {sample : List ProcessStatus} {status : ProcessStatus}
    (member : status ∈ sample) (determinate : status.isEndDeterminate = true)
    (zero : status.totalSize = 0) :
    ∃ passes, threadMain (List.replicate passes sample) = none := by
  obtain ⟨position, inside, here⟩ := List.getElem_of_mem member
  by_contra alive
  have goesOn : ∀ passes, ∃ watch, threadMain (List.replicate passes sample) = some watch := by
    intro passes
    exact Option.ne_none_iff_exists'.mp fun killed => alive ⟨passes, killed⟩
  obtain ⟨watch, watched⟩ := goesOn position
  have step := watch_advances position inside watched
  have entry : sample[watch.currentStep]? = some status := by
    rw [step, List.getElem?_eq_getElem inside, here]
  have killed : printTask status = none := by
    rw [printTask, if_pos determinate, printKnownEndTask, if_pos zero]
    rfl
  apply alive
  refine ⟨position + 1, ?_⟩
  rw [thread_main_succ, watched, Option.bind_some]
  simp only [watchProcesses, entry, killed]

end Samples

section Operations

theorem status_determinate (events : List ProcessEvent) (status : ProcessStatus) :
    (events.foldl ProcessStatus.perform status).isEndDeterminate = status.isEndDeterminate := by
  induction events generalizing status with
  | nil => rfl
  | cons event rest induction =>
      rw [List.foldl_cons, induction]
      cases event <;> rfl

/-- The thread of the tracker is never killed during an operation if and only if every
process of the operation has a total that is never zero. -/
theorem terminal_report_safe_iff (surroundings : Surroundings) (runtime : Runtime) (fuel : Nat)
    (operation : Operation) :
    NeverKilled ((operation.processes runtime).map fun known =>
        known.process surroundings runtime fuel) ↔
      ∀ known ∈ operation.processes runtime, NeverZero surroundings known := by
  constructor
  · intro alive known created
    rw [← @never_zero_iff surroundings runtime fuel]
    intro events performed zero
    obtain ⟨statuses, moment, member⟩ := moment_of_status
      (List.mem_map_of_mem (f := fun known => known.process surroundings runtime fuel) created)
      performed
    have determinate : ((known.process surroundings runtime fuel).statusAfter
        events).isEndDeterminate = true := status_determinate events _
    obtain ⟨passes, killed⟩ := thread_main_killed member determinate zero
    have some := alive none (List.replicate passes statuses) (by simp) (by
      intro sample listed
      exact ⟨statuses, moment, List.eq_of_mem_replicate listed⟩)
    rw [killed] at some
    cases some
  · intro nonzero scan samples indeterminate moments
    apply thread_main_some
    intro sample listed status member determinate
    obtain ⟨statuses, moment, rfl⟩ := moments sample listed
    rcases List.mem_append.mp member with scanned | started
    · have unknown := indeterminate status (Option.mem_toList.mp scanned)
      rw [determinate] at unknown
      cases unknown
    · obtain ⟨process, created, events, performed, rfl⟩ := status_of_moment moment status started
      obtain ⟨known, inside, rfl⟩ := List.mem_map.mp created
      exact (never_zero_iff known).mpr (nonzero known inside) events performed

theorem no_new_nodes {tasks : TaskOrder Nat} {algorithm : HashAlgorithm}
    {leftIndex : BackupNodeIndex} {right : RightIndex} {difference : NodeIndexDifferences}
    (run : computeDiff tasks algorithm leftIndex right = .ok difference)
    (same : difference.exist = false) :
    (DifferenceResolver.computeDifference tasks right.index (fileSystemNodes leftIndex)).toList =
      [] := by
  have computed := compute_diff_computed run
  simp only [NodeIndexDifferences.exist, Bool.not_eq_false', Bool.and_eq_true] at same
  obtain ⟨⟨⟨_, noData⟩, noMetadata⟩, noMoved⟩ := same
  rw [List.eq_nil_iff_forall_not_mem]
  intro node member
  rw [Std.TreeSet.mem_toList, mem_compute_difference] at member
  obtain ⟨found, decided⟩ := computed.classified node member
  cases found with
  | backupFully =>
      have listed := (computed.differentData node).mpr ⟨member, decided⟩
      exact Std.TreeSet.isEmpty_iff_forall_not_mem.mp noData node listed
  | updateMetadataOnly =>
      have listed := (computed.differentMetadata node).mpr ⟨member, decided⟩
      exact Std.TreeSet.isEmpty_iff_forall_not_mem.mp noMetadata node listed
  | backreferenceWithDifferentPath moveIndex =>
      have target := (computed.moved node moveIndex).mpr ⟨member, decided⟩
      have listed : node ∈ difference.moved := by
        rw [← Std.TreeMap.isSome_getElem?_iff_mem, target]
        rfl
      exact Std.TreeMap.isEmpty_iff_forall_not_mem.mp noMoved node listed

/-- An `AddSnapshot` that passes `EnsureNoDifferenceExists` has had a process whose total is
zero, whatever it backed up. -/
theorem completed_backup_zero {runtime : Runtime} {chain next : Chain} {call : Call}
    {difference : NodeIndexDifferences} (surroundings : Surroundings)
    (taken : addSnapshot runtime chain call = some next)
    (compared : SnapshotCreation.computeDifference runtime call.hashAlgorithm
      call.differenceTasks (lastIndex next) call.source false = .ok difference)
    (same : difference.exist = false) :
    ∃ known ∈ (Operation.addSnapshot chain call).processes runtime,
      ¬NeverZero surroundings known := by
  obtain ⟨left, last⟩ : ∃ left, lastIndex next = some left := by
    obtain ⟨entry, _, _, inserted⟩ := add_snapshot_some taken
    cases next with
    | nil =>
        have member := (mem_insert_entry entry entry chain).mpr (.inl rfl)
        rw [← inserted] at member
        cases member
    | cons newest older => exact ⟨newest.index, rfl⟩
  let right := sourceRight runtime call.hashAlgorithm call.source
  have run : computeDiff call.differenceTasks call.hashAlgorithm left right = .ok difference := by
    rw [last] at compared
    obtain ⟨found, computed, result⟩ := bind_ok compared
    cases result
    exact computed
  refine ⟨.indexingPotentiallyNewNodes call.hashAlgorithm left right
    (DifferenceResolver.computeDifference call.differenceTasks right.index
      (fileSystemNodes left)), ?_, ?_⟩
  · cases first : SnapshotCreation.computeDifference runtime call.hashAlgorithm
        call.differenceTasks (lastIndex chain) call.source true with
    | error fault =>
        simp [addSnapshot, createSnapshot, planSnapshot, first, bind, Except.bind] at taken
    | ok planned =>
        simp only [Operation.processes, addSnapshotProcesses, first, taken, checkingProcesses,
          differenceProcesses, last, computeDiffProcesses]
        apply List.mem_append_right
        apply List.mem_cons_of_mem
        apply List.mem_append_left
        simp [right]
  · intro nonzero
    apply nonzero
    rw [computeTotalSizeOf, no_new_nodes run same]
    rfl

end Operations

section FirstBackup

/-- The first backup of a file, which compares the new snapshot with the source. -/
theorem first_backup_killed :
    ∃ samples : List (List ProcessStatus),
      (∀ sample ∈ samples, Moment (operationProcesses (.addSnapshot [] firstBackup)) sample) ∧
      threadMain samples = none ∧
      ¬NeverKilled (operationProcesses (.addSnapshot [] firstBackup)) := by
  have listed : ({ nFiles := 0, totalSize := 0, first := [], tasks := [] } : Process) ∈
      operationProcesses (.addSnapshot [] firstBackup) := by decide +kernel
  obtain ⟨statuses, moment, member⟩ := moment_of_status listed (.first List.nil_prefix)
  obtain ⟨passes, killed⟩ := thread_main_killed member rfl rfl
  refine ⟨List.replicate passes statuses, ?_, killed, ?_⟩
  · intro sample inside
    rw [List.eq_of_mem_replicate inside]
    exact moment
  · intro alive
    have some := alive none (List.replicate passes statuses) (by simp) (by
      intro sample inside
      exact ⟨statuses, moment, List.eq_of_mem_replicate inside⟩)
    rw [killed] at some
    cases some

end FirstBackup

end ACBackup.TerminalStatusTracker
