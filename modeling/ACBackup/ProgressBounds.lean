import ACBackup.KnownEndProcesses

/-!
Which processes stay within their totals. What a task counts is mostly the size that the
total was made of; where it is another size, the two sums have to be compared.
-/

namespace ACBackup.ProgressBounds

open ACBackup.Library.Loop ACBackup.Library.Outcome ACBackup.Library.Tasks
open ACBackup.Library.Transition
open ACBackup.Platform ACBackup.NodeAttributes ACBackup.Indexing ACBackup.SourceIndex
open ACBackup.DifferenceResolver ACBackup.SnapshotChain ACBackup.SnapshotCreation
open ACBackup.SnapshotManager ACBackup.SnapshotVerification ACBackup.Restore
open ACBackup.StatusTracking ACBackup.KnownEndProcesses

set_option autoImplicit false

def lengthRead (call : Call) (node : Nat) : Nat :=
  (contentRead call node).elim 0 fun read => read.2.length

/-- The changed nodes that both indexes have, with the sizes that the loop of
`ComputeDeleted` reads for them, are not larger on the right. -/
def KeptCovered (surroundings : Surroundings) (leftIndex rightIndex : FileSystemNodeIndex)
    (indexes : Std.TreeSet Nat) : Prop :=
  let kept := indexes.toList.filter fun node => ¬isDeleted leftIndex rightIndex node
  (kept.map (sizeRead surroundings rightIndex)).sum ≤ (kept.map (nodeSize leftIndex)).sum

/-- What is read for the nodes is not longer than their recorded sizes. -/
def ReadCovered (call : Call) (nodes : Std.TreeSet Nat) : Prop :=
  (nodes.toList.map (lengthRead call)).sum ≤ computeTotalSizeOf call.source.index nodes

def answers : Attempt Fault Bool → Bool
  | some (.ok _) => true
  | _ => false

def answeredHere (runtime : Runtime) (algorithm : HashAlgorithm) (volumes : VolumeContents)
    (snapshot : Snapshot) (previous : List Snapshot) (fuel node : Nat) : Bool :=
  match snapshot.index.getNodeAttributes node, findDataSnapshot snapshot previous node with
  | .ok nodeAttributes, .ok found =>
      nodeAttributes.type ≠ .directory && found.distance = 0 &&
        answers (verifyNode runtime algorithm volumes found.snapshot found.path fuel)
  | _, _ => false

/-- The verified nodes of the snapshot are not larger than its stored blocks. -/
def OwnCovered (runtime : Runtime) (algorithm : HashAlgorithm) (volumes : VolumeContents)
    (snapshot : Snapshot) (previous : List Snapshot) (fuel : Nat) : Prop :=
  (((List.range snapshot.index.getNumberOfNodes).filter
      (answeredHere runtime algorithm volumes snapshot previous fuel)).map
    (nodeSize (fileSystemNodes snapshot.index))).sum ≤ computeSumOfOwnedBlockSizes snapshot.index

def WithinTotal (surroundings : Surroundings) (runtime : Runtime) (fuel : Nat) :
    KnownEndProcess → Prop
  | .creatingSnapshot _ call difference => ReadCovered call difference.differentData
  | .verifyingSnapshot algorithm volumes snapshot previous full =>
      full = true ∨ OwnCovered runtime algorithm volumes snapshot previous fuel
  | .resolvingDeletedNodes leftIndex rightIndex indexes =>
      KeptCovered surroundings leftIndex rightIndex indexes
  | .restoringSnapshot .. => True
  | .computingIndexDifferences _ => True
  | .indexingPotentiallyNewNodes .. => True

section Sizes

theorem tasks_sizes (size : ProcessEvent → Nat) (nodes : List Nat)
    (task : Nat → List ProcessEvent) :
    (((nodes.map task).flatten).map size).sum =
      (nodes.map fun node => ((task node).map size).sum).sum := by
  rw [List.map_flatten, List.sum_flatten, List.map_map, List.map_map]
  rfl

theorem finished_tasks (nodes : List Nat) (task : Nat → List ProcessEvent) :
    finishedSizes (nodes.map task).flatten =
      (nodes.map fun node => finishedSizes (task node)).sum :=
  tasks_sizes finishedSize nodes task

theorem reduced_tasks (nodes : List Nat) (task : Nat → List ProcessEvent) :
    reducedSizes (nodes.map task).flatten =
      (nodes.map fun node => reducedSizes (task node)).sum :=
  tasks_sizes reducedSize nodes task

theorem finished_append (first second : List ProcessEvent) :
    finishedSizes (first ++ second) = finishedSizes first + finishedSizes second := by
  simp [finishedSizes]

theorem reduced_append (first second : List ProcessEvent) :
    reducedSizes (first ++ second) = reducedSizes first + reducedSizes second := by
  simp [reducedSizes]

theorem tasks_reduced {nodes : List Nat} {task : Nat → List ProcessEvent}
    (reduced : ∀ node ∈ nodes, reducedSizes (task node) = 0) :
    reducedSizes (nodes.map task).flatten = 0 := by
  rw [reduced_tasks, List.map_congr_left reduced]
  exact List.sum_map_zero

theorem tasks_covered {nodes : List Nat} {task : Nat → List ProcessEvent} {size : Nat → Nat}
    (finished : ∀ node ∈ nodes, finishedSizes (task node) ≤ size node)
    (reduced : ∀ node ∈ nodes, reducedSizes (task node) = 0) :
    finishedSizes (nodes.map task).flatten + reducedSizes (nodes.map task).flatten ≤
      (nodes.map size).sum := by
  rw [finished_tasks, tasks_reduced reduced]
  exact List.sum_le_sum finished

end Sizes

section Tasks

variable {surroundings : Surroundings} {runtime : Runtime}

theorem pieces_counted_sizes (read : Option (Path × Bytes)) :
    finishedSizes (piecesCounted surroundings read) = (read.elim 0 fun read => read.2.length) ∧
      reducedSizes (piecesCounted surroundings read) = 0 := by
  cases read with
  | none => exact ⟨rfl, rfl⟩
  | some read =>
      obtain ⟨path, content⟩ := read
      constructor
      · have finished : finishedSize ∘ .addFinishedSize = (id : Nat → Nat) := rfl
        rw [piecesCounted, finishedSizes, List.map_map, finished, List.map_id,
          surroundings.whole]
        rfl
      · have reduced : reducedSize ∘ .addFinishedSize = fun _ : Nat => 0 := rfl
        rw [piecesCounted, reducedSizes, List.map_map, reduced]
        exact List.sum_map_zero

theorem call_counted_sizes {Result : Type} (outcome : Except Fault Result) :
    finishedSizes (callCounted outcome) = 0 ∧ reducedSizes (callCounted outcome) = 0 := by
  cases outcome with
  | error fault => exact ⟨rfl, rfl⟩
  | ok result => exact ⟨rfl, rfl⟩

theorem stored_node_sizes (call : Call) (node : Nat) :
    finishedSizes (storedNode surroundings runtime call node) = lengthRead call node ∧
      reducedSizes (storedNode surroundings runtime call node) = 0 := by
  have pieces := @pieces_counted_sizes surroundings (contentRead call node)
  have counted := call_counted_sizes (backupNode runtime call node)
  rw [storedNode, finished_append, reduced_append, pieces.1, pieces.2, counted.1, counted.2]
  exact ⟨rfl, rfl⟩

theorem resolved_node_sizes (leftIndex rightIndex : FileSystemNodeIndex) (node : Nat) :
    finishedSizes (resolvedNode surroundings leftIndex rightIndex node) =
        (if isDeleted leftIndex rightIndex node then nodeSize leftIndex node else 0) ∧
      reducedSizes (resolvedNode surroundings leftIndex rightIndex node) =
        if isDeleted leftIndex rightIndex node then 0
        else sizeRead surroundings rightIndex node := by
  unfold resolvedNode
  by_cases deleted : isDeleted leftIndex rightIndex node = true
  · simp [deleted, finishedSizes, reducedSizes, finishedSize, reducedSize]
  · simp [deleted, finishedSizes, reducedSizes, finishedSize, reducedSize]

theorem indexed_node_sizes (algorithm : HashAlgorithm) (leftIndex : BackupNodeIndex)
    (right : RightIndex) (node : Nat) :
    finishedSizes (indexedNode algorithm leftIndex right node) ≤ nodeSize right.index node ∧
      reducedSizes (indexedNode algorithm leftIndex right node) = 0 := by
  unfold indexedNode
  cases nodeDifference algorithm leftIndex right node with
  | error fault => simp [finishedSizes, reducedSizes]
  | ok found => simp [finishedSizes, reducedSizes, finishedSize, reducedSize]

end Tasks

section Reading

variable {runtime : Runtime} {algorithm : HashAlgorithm} {volumes : VolumeContents}
  {snapshot : Snapshot} {previous : List Snapshot}

theorem node_size_of_attributes {node : Nat} {attributes : BackupNodeAttributes}
    (known : snapshot.index.getNodeAttributes node = .ok attributes) :
    nodeSize (fileSystemNodes snapshot.index) node = attributes.size := by
  obtain ⟨path, entry⟩ := (NodeIndex.get_node_attributes_ok _ _ _).mp known
  simp [nodeSize, fileSystemNodes, NodeIndex.mapAttributes, entry]

theorem node_sizes_sum (index : BackupNodeIndex) :
    ((List.range index.getNumberOfNodes).map (nodeSize (fileSystemNodes index))).sum =
      computeTotalSize (fileSystemNodes index) := by
  simp [computeTotalSize, fileSystemNodes, NodeIndex.getNumberOfNodes, NodeIndex.mapAttributes]

theorem answer_counted_sizes (size : Nat) (attempt : Attempt Fault Bool) :
    finishedSizes (answerCounted size attempt) = (if answers attempt then size else 0) ∧
      reducedSizes (answerCounted size attempt) = 0 := by
  rcases attempt with _ | (fault | answer)
  · exact ⟨rfl, rfl⟩
  · exact ⟨rfl, rfl⟩
  · exact ⟨rfl, rfl⟩

theorem count_sizes :
    finishedSizes [.incFinishedCount] = 0 ∧ reducedSizes [.incFinishedCount] = 0 :=
  ⟨rfl, rfl⟩

theorem counts_sizes {Item : Type} (items : List Item) :
    finishedSizes (items.map fun _ => .incFinishedCount) = 0 ∧
      reducedSizes (items.map fun _ => .incFinishedCount) = 0 := by
  simp [finishedSizes, reducedSizes, finishedSize, reducedSize]

theorem no_sizes : finishedSizes [] = 0 ∧ reducedSizes [] = 0 :=
  ⟨rfl, rfl⟩

theorem verified_node_full (fuel node : Nat) :
    finishedSizes (verifiedNode runtime algorithm volumes snapshot previous true fuel node) ≤
      nodeSize (fileSystemNodes snapshot.index) node := by
  unfold verifiedNode
  cases known : snapshot.index.getNodeAttributes node with
  | error fault => exact Nat.zero_le _
  | ok attributes =>
      rw [node_size_of_attributes known]
      by_cases directory : attributes.type = .directory
      · simp [directory, count_sizes]
      · cases findDataSnapshot snapshot previous node with
        | error fault => simp [directory, no_sizes]
        | ok found =>
            simp only [directory, if_false, Bool.true_or, if_true, answer_counted_sizes]
            cases answers (verifyNode runtime algorithm volumes found.snapshot found.path fuel) with
            | true => exact le_refl _
            | false => exact Nat.zero_le _

theorem verified_node_local (fuel node : Nat) :
    finishedSizes (verifiedNode runtime algorithm volumes snapshot previous false fuel node) =
      if answeredHere runtime algorithm volumes snapshot previous fuel node then
        nodeSize (fileSystemNodes snapshot.index) node else 0 := by
  unfold verifiedNode answeredHere
  cases known : snapshot.index.getNodeAttributes node with
  | error fault => rfl
  | ok attributes =>
      rw [node_size_of_attributes known]
      by_cases directory : attributes.type = .directory
      · cases findDataSnapshot snapshot previous node with
        | error fault => simp [directory, count_sizes]
        | ok found => simp [directory, count_sizes]
      · cases findDataSnapshot snapshot previous node with
        | error fault => simp [directory, no_sizes]
        | ok found =>
            by_cases here : found.distance = 0
            · simp [directory, here, answer_counted_sizes]
            · simp [directory, here, count_sizes]

theorem verified_node_reduced (full : Bool) (fuel node : Nat) :
    reducedSizes (verifiedNode runtime algorithm volumes snapshot previous full fuel node) =
      0 := by
  unfold verifiedNode
  cases snapshot.index.getNodeAttributes node with
  | error fault => rfl
  | ok attributes =>
      by_cases directory : attributes.type = .directory
      · simp [directory, count_sizes]
      · cases findDataSnapshot snapshot previous node with
        | error fault => simp [directory, no_sizes]
        | ok found =>
            by_cases looked : full = true ∨ found.distance = 0
            · simp [directory, looked, answer_counted_sizes]
            · simp [directory, looked, count_sizes]

theorem restored_node_sizes (restorePoint : Path) (fuel node : Nat) :
    finishedSizes (restoredNode runtime algorithm volumes snapshot previous restorePoint fuel
        node) ≤ nodeSize (fileSystemNodes snapshot.index) node ∧
      reducedSizes (restoredNode runtime algorithm volumes snapshot previous restorePoint fuel
        node) = 0 := by
  unfold restoredNode
  cases run : restoreNode runtime algorithm volumes snapshot previous restorePoint node fuel with
  | none => simp [finishedSizes, reducedSizes]
  | some outcome =>
      rcases outcome with fault | (_ | ⟨place, permissions | ⟨permissions, content⟩ | target⟩)
      · simp [finishedSizes, reducedSizes]
      · simp [finishedSizes, reducedSizes]
      · simp [finishedSizes, reducedSizes]
      · have size : content.length = nodeSize (fileSystemNodes snapshot.index) node := by
          unfold restoreNode at run
          cases known : snapshot.index.getNodeAttributes node with
          | error fault => simp [known] at run
          | ok attributes =>
              cases named : snapshot.index.getNodePath node with
              | error fault => simp [known, named] at run
              | ok path =>
                  rw [node_size_of_attributes known]
                  simp only [known, named] at run
                  cases type : attributes.type with
                  | directory => simp [type] at run
                  | file =>
                      simp only [type, Option.map_eq_some_iff] at run
                      obtain ⟨outcome, _, written⟩ := run
                      obtain ⟨read, rfl, restored⟩ := bind_ok written
                      unfold restoredFile at restored
                      by_cases sized : read.length = attributes.size
                      · rw [if_pos sized] at restored
                        cases restored
                        exact sized
                      · rw [if_neg sized] at restored
                        cases restored
                  | link =>
                      simp only [type, Option.some.injEq] at run
                      exact absurd run (restore_link_error _ _ _)
        simp [finishedSizes, reducedSizes, finishedSize, reducedSize, size]
      · simp [finishedSizes, reducedSizes, finishedSize, reducedSize]

end Reading

section Processes

variable {surroundings : Surroundings} {runtime : Runtime} {fuel : Nat}

theorem creating_covered_iff (last : Option BackupNodeIndex) (call : Call)
    (difference : NodeIndexDifferences) :
    (creatingSnapshot surroundings runtime last call difference).Covered ↔
      ReadCovered call difference.differentData := by
  have finished : (difference.differentData.toList.map fun node =>
      finishedSizes (storedNode surroundings runtime call node)) =
        difference.differentData.toList.map (lengthRead call) :=
    List.map_congr_left fun node _ => (stored_node_sizes call node).1
  have reduced : reducedSizes
      (difference.differentData.toList.map (storedNode surroundings runtime call)).flatten = 0 :=
    tasks_reduced fun node _ => (stored_node_sizes call node).2
  simp only [Process.Covered, Process.events, creatingSnapshot, List.nil_append, List.flatten_cons,
    finished_append, reduced_append, counts_sizes, finished_tasks, finished, reduced, Nat.zero_add,
    Nat.add_zero]
  exact Iff.rfl

theorem resolving_covered_iff (leftIndex rightIndex : FileSystemNodeIndex)
    (indexes : Std.TreeSet Nat) :
    (resolvingDeletedNodes surroundings leftIndex rightIndex indexes).Covered ↔
      KeptCovered surroundings leftIndex rightIndex indexes := by
  have finished : (indexes.toList.map fun node =>
      finishedSizes (resolvedNode surroundings leftIndex rightIndex node)) =
        indexes.toList.map fun node =>
          if isDeleted leftIndex rightIndex node then nodeSize leftIndex node else 0 :=
    List.map_congr_left fun node _ => (resolved_node_sizes leftIndex rightIndex node).1
  have reduced : (indexes.toList.map fun node =>
      reducedSizes (resolvedNode surroundings leftIndex rightIndex node)) =
        indexes.toList.map fun node =>
          if isDeleted leftIndex rightIndex node then 0
          else sizeRead surroundings rightIndex node :=
    List.map_congr_left fun node _ => (resolved_node_sizes leftIndex rightIndex node).2
  have total := List.sum_map_filter_add_sum_map_filter_not
    (fun node => isDeleted leftIndex rightIndex node = true) (nodeSize leftIndex) indexes.toList
  simp only [Process.Covered, Process.events, resolvingDeletedNodes, List.flatten_nil,
    List.append_nil, finished_tasks, reduced_tasks, finished, reduced, List.sum_map_ite,
    List.sum_map_zero, Nat.zero_add, Nat.add_zero, computeTotalSizeOf, ← total, KeptCovered]
  exact Nat.add_le_add_iff_left

theorem verifying_covered_iff (algorithm : HashAlgorithm) (volumes : VolumeContents)
    (snapshot : Snapshot) (previous : List Snapshot) (full : Bool) :
    (verifyingSnapshot runtime algorithm volumes snapshot previous full fuel).Covered ↔
      full = true ∨ OwnCovered runtime algorithm volumes snapshot previous fuel := by
  cases full with
  | true =>
      have covered := @tasks_covered (List.range snapshot.index.getNumberOfNodes) _ _
        (fun node _ => @verified_node_full runtime algorithm volumes snapshot previous fuel node)
        (fun node _ => verified_node_reduced true fuel node)
      exact iff_of_true (covered.trans (le_of_eq (node_sizes_sum snapshot.index))) (.inl rfl)
  | false =>
      have reduced : reducedSizes ((List.range snapshot.index.getNumberOfNodes).map
          (verifiedNode runtime algorithm volumes snapshot previous false fuel)).flatten = 0 :=
        tasks_reduced fun node _ => verified_node_reduced false fuel node
      simp only [Process.Covered, Process.events, verifyingSnapshot, List.nil_append,
        finished_tasks, verified_node_local, reduced, List.sum_map_ite,
        List.sum_map_zero, Nat.add_zero, Bool.false_eq_true, if_false, false_or, OwnCovered]
      simp

theorem restoring_covered (algorithm : HashAlgorithm) (volumes : VolumeContents)
    (snapshot : Snapshot) (previous : List Snapshot) (restorePoint : Path) :
    (restoringSnapshot runtime algorithm volumes snapshot previous restorePoint fuel).Covered := by
  have covered := @tasks_covered (List.range snapshot.index.getNumberOfNodes) _ _
    (fun node _ => (@restored_node_sizes runtime algorithm volumes snapshot previous restorePoint
      fuel node).1)
    (fun node _ => (restored_node_sizes restorePoint fuel node).2)
  obtain ⟨directories, run, _⟩ := restore_directories_ok snapshot restorePoint
  simp only [Process.Covered, Process.events, restoringSnapshot, run, finished_append,
    reduced_append, counts_sizes, Nat.zero_add]
  exact covered.trans (le_of_eq (node_sizes_sum snapshot.index))

theorem computing_covered (leftIndex : FileSystemNodeIndex) :
    (computingIndexDifferences leftIndex).Covered := by
  have covered := @tasks_covered (List.range leftIndex.getNumberOfNodes)
    (fun node => [.addFinishedSize (nodeSize leftIndex node), .incFinishedCount])
    (nodeSize leftIndex) (by simp [finishedSizes, finishedSize])
    (by simp [reducedSizes, reducedSize])
  exact covered

theorem indexing_covered (algorithm : HashAlgorithm) (leftIndex : BackupNodeIndex)
    (right : RightIndex) (rightToLeftDiffs : Std.TreeSet Nat) :
    (indexingPotentiallyNewNodes algorithm leftIndex right rightToLeftDiffs).Covered :=
  tasks_covered (fun node _ => (indexed_node_sizes algorithm leftIndex right node).1)
    (fun node _ => (indexed_node_sizes algorithm leftIndex right node).2)

theorem within_total_iff (known : KnownEndProcess) :
    (known.process surroundings runtime fuel).Covered ↔
      WithinTotal surroundings runtime fuel known := by
  cases known with
  | creatingSnapshot last call difference => exact creating_covered_iff last call difference
  | verifyingSnapshot algorithm volumes snapshot previous full =>
      exact verifying_covered_iff algorithm volumes snapshot previous full
  | restoringSnapshot algorithm volumes snapshot previous restorePoint =>
      exact iff_of_true (restoring_covered algorithm volumes snapshot previous restorePoint) trivial
  | computingIndexDifferences leftIndex =>
      exact iff_of_true (computing_covered leftIndex) trivial
  | resolvingDeletedNodes leftIndex rightIndex indexes =>
      exact resolving_covered_iff leftIndex rightIndex indexes
  | indexingPotentiallyNewNodes algorithm leftIndex right rightToLeftDiffs =>
      exact iff_of_true (indexing_covered algorithm leftIndex right rightToLeftDiffs) trivial

/-- As long as the sizes fit in 64 bits, no process of an operation overruns if and only if
every one of them counts no more than what its total was made of. -/
theorem progress_never_overruns_iff (surroundings : Surroundings) (runtime : Runtime)
    (fuel : Nat) (operation : Operation)
    (fits : ∀ known ∈ operation.processes runtime, (known.process surroundings runtime fuel).Fits) :
    (∀ known ∈ operation.processes runtime,
        (known.process surroundings runtime fuel).NeverOverruns) ↔
      ∀ known ∈ operation.processes runtime, WithinTotal surroundings runtime fuel known := by
  apply forall₂_congr
  intro known created
  rw [never_overruns_iff (fits known created)]
  exact within_total_iff known

end Processes

section GrownFile

/-! A file has grown since the last snapshot. -/

def inOnePiece : Surroundings where
  pieces _ content := [content.length]
  whole _ _ := rfl
  stray _ := 0

def grownFile : SourceNode := fileNode "a" [1, 2, 3] 2

def grownBackup : Call := callOf "snapshot_2" [grownFile] (writeSteps grownFile)

def operationProcesses (operation : Operation) : List Process :=
  (operation.processes spellingRuntime).map fun known =>
    known.process inOnePiece spellingRuntime 9

/-- Three bytes are taken away from a total of two. -/
theorem grown_file_overruns :
    ∃ chain, (backups spellingRuntime).run [] [firstBackup] = some chain ∧
      ∃ known ∈ (Operation.addSnapshot chain grownBackup).processes spellingRuntime,
        ¬(known.process inOnePiece spellingRuntime 9).NeverOverruns ∧
        ∃ events, (known.process inOnePiece spellingRuntime 9).Performed events ∧
          ((known.process inOnePiece spellingRuntime 9).statusAfter events).leftSize =
            BitVec.ofNat 64 (2 ^ 64 - 1) := by
  have outcome : ((backups spellingRuntime).run [] [firstBackup]).map
      (fun chain => (operationProcesses (.addSnapshot chain grownBackup))[2]?) =
        some (some
          { nFiles := 1
            totalSize := 2
            first := [.incFileCount, .reduceTotalSize 3]
            tasks := [] }) := by decide +kernel
  obtain ⟨chain, run, third⟩ := Option.map_eq_some_iff.mp outcome
  obtain ⟨known, listed, process⟩ := List.mem_map.mp (List.mem_of_getElem? third)
  refine ⟨chain, run, known, listed, ?_, [.incFileCount, .reduceTotalSize 3], ?_, ?_⟩
  · intro never
    rw [process] at never
    exact absurd (never.reduced [.incFileCount] 3 (.first (List.prefix_refl _))) (by decide)
  · rw [process]
    exact .first (List.prefix_refl _)
  · rw [process]
    rfl

theorem moved_file_within_totals :
    ∃ chain, (backups spellingRuntime).run [] [firstBackup] = some chain ∧
      ∀ known ∈ (Operation.addSnapshot chain moveBackup).processes spellingRuntime,
        (known.process inOnePiece spellingRuntime 9).NeverOverruns := by
  have outcome : ((backups spellingRuntime).run [] [firstBackup]).map
      (fun chain => (operationProcesses (.addSnapshot chain moveBackup)).all fun process =>
        decide (process.Fits ∧ process.Covered)) = some true := by decide +kernel
  obtain ⟨chain, run, facts⟩ := Option.map_eq_some_iff.mp outcome
  have every : ∀ known ∈ (Operation.addSnapshot chain moveBackup).processes spellingRuntime,
      (known.process inOnePiece spellingRuntime 9).Fits ∧
        (known.process inOnePiece spellingRuntime 9).Covered := by
    intro known created
    exact of_decide_eq_true (List.all_eq_true.mp facts _ (List.mem_map_of_mem created))
  refine ⟨chain, run, ?_⟩
  apply (progress_never_overruns_iff inOnePiece spellingRuntime 9 _
    fun known created => (every known created).1).mpr
  intro known created
  exact (within_total_iff known).mp (every known created).2

end GrownFile

end ACBackup.ProgressBounds
