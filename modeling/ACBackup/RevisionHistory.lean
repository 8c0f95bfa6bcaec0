import ACBackup.ReadPaths

/-!
The revisions of a file that the viewer lists. A revision keeps the snapshot that
has the data, and the number that the node has in the snapshot where it was looked
up.
-/

namespace ACBackup.RevisionHistory

open ACBackup.Library.Loop ACBackup.Library.Outcome ACBackup.Library.Transition
open ACBackup.Platform ACBackup.NodeAttributes ACBackup.Indexing ACBackup.SnapshotChain
open ACBackup.SnapshotCreation ACBackup.SnapshotManager ACBackup.DataResolution
open ACBackup.SnapshotVerification ACBackup.ChainOrder ACBackup.ReadPaths

set_option autoImplicit false

structure FileRevisionNode where
  nodeIndex : Nat
  snapshot : Snapshot
  deriving DecidableEq

structure PathNames where
  title : Path → String
  fileExtension : Path → String

def PathNames.fileName (names : PathNames) (nodePath : Path) (snapshot : Snapshot) : String :=
  names.title nodePath ++ "_" ++ snapshot.name ++ "." ++ names.fileExtension nodePath

def FileRevisionNode.source (revision : FileRevisionNode) : StreamSource where
  snapshot := revision.snapshot
  nodeIndex := revision.nodeIndex

/-- `FileRevisionNode::DownloadTo`: the name and the content of the file when it
completes. -/
def FileRevisionNode.downloadTo (runtime : Runtime) (algorithm : HashAlgorithm)
    (volumes : VolumeContents) (names : PathNames) (revision : FileRevisionNode) (fuel : Nat) :
    Attempt Fault (String × Bytes) :=
  match revision.snapshot.index.getNodePath revision.nodeIndex with
  | .error fault => some (.error fault)
  | .ok nodePath =>
      (revision.source.read runtime algorithm volumes fuel).andThen fun content =>
        some (.ok (names.fileName nodePath revision.snapshot, content))

abbrev RevisionState := List Snapshot × Path × List FileRevisionNode

def loadRevisionsPass (_ : Nat) (state : RevisionState) :
    Attempt Fault (Pass RevisionState (List FileRevisionNode)) :=
  match state.1 with
  | [] => some (.ok (.done state.2.2))
  | current :: previous =>
      if current.index.hasNodeIndex state.2.1 then
        match current.index.getNodeIndex state.2.1 with
        | .error fault => some (.error fault)
        | .ok nodeIndex =>
            match findDataSnapshot current previous nodeIndex with
            | .error fault => some (.error fault)
            | .ok found =>
                some (.ok (.again
                  ((current :: previous).drop (found.distance + 1), found.path,
                    state.2.2 ++ [{ nodeIndex := nodeIndex, snapshot := found.snapshot }])))
      else some (.ok (.done state.2.2))

/-- `DataFileTreeNode::LoadRevisions`, of the newest of the snapshots. -/
def loadRevisions (snapshots : List Snapshot) (path : Path) (fuel : Nat) :
    Attempt Fault (List FileRevisionNode) :=
  loop loadRevisionsPass fuel (snapshots, path, [])

structure Visit where
  current : Snapshot
  previous : List Snapshot
  path : Path
  nodeIndex : Nat
  found : DataNode

def Visit.revision (visit : Visit) : FileRevisionNode where
  nodeIndex := visit.nodeIndex
  snapshot := visit.found.snapshot

/-- The passes of the loop when the data is found in each. -/
inductive Visits : List Snapshot → Path → List Visit → Prop
  | none (path : Path) : Visits [] path []
  | unknown (current : Snapshot) (previous : List Snapshot) (path : Path)
      (absent : current.index.hasNodeIndex path = false) : Visits (current :: previous) path []
  | visited (visit : Visit) (rest : List Visit)
      (number : visit.current.index.getNodeIndex visit.path = .ok visit.nodeIndex)
      (search : findDataSnapshot visit.current visit.previous visit.nodeIndex = .ok visit.found)
      (further : Visits ((visit.current :: visit.previous).drop (visit.found.distance + 1))
        visit.found.path rest) :
      Visits (visit.current :: visit.previous) visit.path (visit :: rest)

/-- What the loop of `LoadRevisions` comes to, pass by pass. -/
inductive Passes (snapshots : List Snapshot) (path : Path) : List Snapshot → Path → Prop
  | start : Passes snapshots path snapshots path
  | next {current : Snapshot} {previous : List Snapshot} {here : Path} {nodeIndex : Nat}
      {found : DataNode} (before : Passes snapshots path (current :: previous) here)
      (number : current.index.getNodeIndex here = .ok nodeIndex)
      (search : findDataSnapshot current previous nodeIndex = .ok found) :
      Passes snapshots path ((current :: previous).drop (found.distance + 1)) found.path

/-- `FindDataSnapshot` is defined in every pass that looks for data. -/
def DataFound (snapshots : List Snapshot) (path : Path) : Prop :=
  ∀ current previous here nodeIndex, Passes snapshots path (current :: previous) here →
    current.index.getNodeIndex here = .ok nodeIndex →
      ∃ found, findDataSnapshot current previous nodeIndex = .ok found

/-- The revision refers to the node that was found, which is the one that is read when
the node is restored. -/
def Exact (visit : Visit) : Prop :=
  restoreSource visit.current visit.previous visit.nodeIndex = .ok visit.revision.source

/-- The node is looked up where its data is, or has the same number in both snapshots. -/
def SameNumber (visit : Visit) : Prop :=
  (∃ attributes, visit.current.index.lookup visit.path = some attributes ∧
    attributes.hasNodeData = true) ∨
  visit.found.snapshot.index.getNodeIndex visit.found.path =
    visit.current.index.getNodeIndex visit.path

section Loops

variable {snapshots : List Snapshot} {path : Path} {visits : List Visit}

theorem pass_steady (state : RevisionState) :
    Steady fun fuel => loadRevisionsPass fuel state :=
  steady_constant _

theorem visit_entry {visit : Visit}
    (number : visit.current.index.getNodeIndex visit.path = .ok visit.nodeIndex) :
    ∃ attributes, visit.current.index.nodes[visit.nodeIndex]? = some (visit.path, attributes) :=
  (NodeIndex.get_node_index_ok _ _ _).mp number

theorem number_known {index : BackupNodeIndex} {path : Path} {nodeIndex : Nat}
    (number : index.getNodeIndex path = .ok nodeIndex) : index.hasNodeIndex path = true := by
  obtain ⟨attributes, entry⟩ := (NodeIndex.get_node_index_ok _ _ _).mp number
  exact (NodeIndex.has_node_index_iff _ _).mpr ⟨attributes, NodeIndex.lookup_of_get entry⟩

theorem passes_further {between : List Snapshot} {here : Path}
    (first : Passes snapshots path between here) {last : List Snapshot} {there : Path}
    (second : Passes between here last there) : Passes snapshots path last there := by
  induction second with
  | start => exact first
  | next before number search induction => exact .next induction number search

theorem visits_of_found (defined : DataFound snapshots path) :
    ∃ visits, Visits snapshots path visits := by
  induction size : snapshots.length using Nat.strong_induction_on generalizing snapshots path with
  | _ count induction =>
      cases snapshots with
      | nil => exact ⟨[], .none path⟩
      | cons current previous =>
          cases number : current.index.getNodeIndex path with
          | error fault =>
              refine ⟨[], .unknown current previous path ?_⟩
              rw [Bool.eq_false_iff]
              intro present
              obtain ⟨attributes, known⟩ := (NodeIndex.has_node_index_iff _ _).mp present
              obtain ⟨nodeIndex, same, _⟩ := NodeIndex.get_node_index_of_lookup known
              rw [number] at same
              cases same
          | ok nodeIndex =>
              obtain ⟨found, search⟩ := defined current previous path nodeIndex .start number
              have shorter : ((current :: previous).drop (found.distance + 1)).length < count := by
                rw [← size, List.length_drop, List.length_cons]
                omega
              have stillDefined :
                  DataFound ((current :: previous).drop (found.distance + 1)) found.path := by
                intro later rest here laterIndex passes
                exact defined later rest here laterIndex
                  (passes_further (.next .start number search) passes)
              obtain ⟨visits, further⟩ := induction _ shorter stillDefined rfl
              let visit : Visit := { current, previous, path, nodeIndex, found }
              exact ⟨visit :: visits, .visited visit visits number search further⟩

/-- Where the path is known the first visit is that of the node. -/
theorem visits_known {current : Snapshot} {previous : List Snapshot} {nodeIndex : Nat}
    (walk : Visits (current :: previous) path visits)
    (number : current.index.getNodeIndex path = .ok nodeIndex) :
    ∃ found rest, findDataSnapshot current previous nodeIndex = .ok found ∧
      visits = { current, previous, path, nodeIndex, found } :: rest ∧
      Visits ((current :: previous).drop (found.distance + 1)) found.path rest := by
  cases walk with
  | unknown _ _ _ absent =>
      rw [number_known number] at absent
      cases absent
  | visited visit rest visitNumber search further =>
      obtain ⟨current, previous, path, visitIndex, found⟩ := visit
      cases number.symm.trans visitNumber
      exact ⟨found, rest, search, rfl, further⟩

theorem passes_visits (walk : Visits snapshots path visits) {later : List Snapshot} {here : Path}
    (passes : Passes snapshots path later here) : ∃ rest, Visits later here rest := by
  induction passes with
  | start => exact ⟨visits, walk⟩
  | next before number search induction =>
      obtain ⟨earlier, walked⟩ := induction
      obtain ⟨found, rest, again, _, further⟩ := visits_known walked number
      cases search.symm.trans again
      exact ⟨rest, further⟩

theorem found_of_visits (walk : Visits snapshots path visits) : DataFound snapshots path := by
  intro current previous here nodeIndex passes number
  obtain ⟨rest, walked⟩ := passes_visits walk passes
  obtain ⟨found, _, search, _⟩ := visits_known walked number
  exact ⟨found, search⟩

/-- A loop has one list of visits. -/
theorem visits_unique {others : List Visit} (walk : Visits snapshots path visits)
    (other : Visits snapshots path others) : others = visits := by
  induction walk generalizing others with
  | none path =>
      cases other
      rfl
  | unknown current previous path absent =>
      cases other with
      | unknown _ _ _ _ => rfl
      | visited visit rest number search further =>
          rw [number_known number] at absent
          cases absent
  | visited visit rest number search further induction =>
      obtain ⟨found, otherRest, otherSearch, rfl, otherFurther⟩ := visits_known other number
      cases search.symm.trans otherSearch
      rw [induction otherFurther]

theorem load_revisions_finishes (walk : Visits snapshots path visits)
    (revisions : List FileRevisionNode) (output : Except Fault (List FileRevisionNode)) :
    Finishes (fun fuel => loop loadRevisionsPass fuel (snapshots, path, revisions)) output ↔
      output = .ok (revisions ++ visits.map Visit.revision) := by
  induction walk generalizing revisions with
  | none path =>
      rw [List.map_nil, List.append_nil]
      exact loop_done pass_steady ⟨0, rfl⟩ output
  | unknown current previous path absent =>
      rw [List.map_nil, List.append_nil]
      apply loop_done pass_steady _ output
      exact ⟨0, by simp [loadRevisionsPass, absent]⟩
  | visited visit rest number search further induction =>
      have present := number_known number
      have pass : loadRevisionsPass 0 (visit.current :: visit.previous, visit.path, revisions) =
          some (.ok (.again ((visit.current :: visit.previous).drop (visit.found.distance + 1),
            visit.found.path, revisions ++ [visit.revision]))) := by
        simp [loadRevisionsPass, present, number, search, Visit.revision]
      apply (loop_again pass_steady ⟨0, pass⟩ output).trans
      rw [induction, List.map_cons, List.append_assoc, List.singleton_append]

theorem sublist_of_drop {Item : Type} {items rest : List Item} {position : Nat} {item : Item}
    (here : items[position]? = some item) (later : rest.Sublist (items.drop (position + 1))) :
    (item :: rest).Sublist items := by
  have bound := (List.getElem?_eq_some_iff.mp here).1
  have same := (List.getElem?_eq_some_iff.mp here).2
  have parts : items.drop position = item :: items.drop (position + 1) := by
    rw [List.drop_eq_getElem_cons bound, same]
  have inside := List.drop_sublist position items
  rw [parts] at inside
  exact (later.cons_cons item).trans inside

/-- The snapshots that have the data are passed one after the other. -/
theorem visits_sublist (walk : Visits snapshots path visits) :
    (visits.map fun visit => visit.found.snapshot).Sublist snapshots := by
  induction walk with
  | none path => exact List.Sublist.refl _
  | unknown current previous path absent => exact List.nil_sublist _
  | visited visit rest number search further induction =>
      obtain ⟨attributes, entry⟩ := visit_entry number
      exact sublist_of_drop ((find_data_snapshot_ok entry _).mp search).1 induction

section Exactness

variable {visit : Visit}

theorem exact_number
    (search : findDataSnapshot visit.current visit.previous visit.nodeIndex = .ok visit.found) :
    Exact visit ↔
      visit.found.snapshot.index.getNodeIndex visit.found.path = .ok visit.nodeIndex := by
  simp only [Exact, restoreSource, search, bind, Except.bind]
  cases visit.found.snapshot.index.getNodeIndex visit.found.path with
  | error fault => simp
  | ok dataIndex => simp [Visit.revision, FileRevisionNode.source]

theorem exact_iff
    (number : visit.current.index.getNodeIndex visit.path = .ok visit.nodeIndex)
    (search : findDataSnapshot visit.current visit.previous visit.nodeIndex = .ok visit.found) :
    Exact visit ↔ SameNumber visit := by
  rw [exact_number search]
  constructor
  · intro same
    exact .inr (same.trans number.symm)
  · rintro (⟨attributes, present, owns⟩ | same)
    · obtain ⟨known, entry⟩ := visit_entry number
      rw [NodeIndex.lookup_of_get entry, Option.some.injEq] at present
      rw [find_data_snapshot_owned entry (present ▸ owns), Except.ok.injEq] at search
      rw [← search]
      exact number
    · exact same.trans number

/-- An exact revision is downloaded under the path of the node that was found, with the
bytes that restoring the node reads. -/
theorem exact_download
    (search : findDataSnapshot visit.current visit.previous visit.nodeIndex = .ok visit.found)
    (exactly : Exact visit) (runtime : Runtime) (algorithm : HashAlgorithm)
    (volumes : VolumeContents) (names : PathNames) (fuel : Nat) :
    visit.revision.downloadTo runtime algorithm volumes names fuel =
      (readNode runtime algorithm volumes visit.current visit.previous visit.nodeIndex
        fuel).andThen fun content =>
          some (.ok (names.fileName visit.found.path visit.found.snapshot, content)) := by
  have dataNumber := (exact_number search).mp exactly
  obtain ⟨attributes, entry⟩ := (NodeIndex.get_node_index_ok _ _ _).mp dataNumber
  have nodePath : visit.revision.snapshot.index.getNodePath visit.revision.nodeIndex =
      .ok visit.found.path :=
    (NodeIndex.get_node_path_ok _ _ _).mpr ⟨attributes, entry⟩
  rw [read_node_source exactly]
  simp only [FileRevisionNode.downloadTo, nodePath]
  rfl

end Exactness

theorem visits_exact_iff (walk : Visits snapshots path visits) :
    (∀ visit ∈ visits, Exact visit) ↔ ∀ visit ∈ visits, SameNumber visit := by
  induction walk with
  | none path => simp
  | unknown current previous path absent => simp
  | visited visit rest number search further induction =>
      rw [List.forall_mem_cons, List.forall_mem_cons, exact_iff number search, induction]

theorem visits_search (walk : Visits snapshots path visits) :
    ∀ visit ∈ visits,
      findDataSnapshot visit.current visit.previous visit.nodeIndex = .ok visit.found := by
  induction walk with
  | none path => simp
  | unknown current previous path absent => simp
  | visited visit rest number search further induction =>
      rw [List.forall_mem_cons]
      exact ⟨search, induction⟩

end Loops

/-- Of every snapshot of every chain and every path for which the data is found in each
pass: the loop ends, it lists snapshots from newer to older, and its revisions are
exact if and only if the numbers agree in each pass; an exact one is downloaded as
it was stored. -/
theorem revisions_exact_iff (runtime : Runtime) (chain : Chain)
    (reachable : (backups runtime).Reachable System.anyStep chain) (snapshots : List Snapshot)
    (suffix : snapshots <:+ chain.map Entry.snapshot) (path : Path)
    (defined : DataFound snapshots path) :
    ∃ visits, Visits snapshots path visits ∧
      (∀ output, Finishes (loadRevisions snapshots path) output ↔
        output = .ok (visits.map Visit.revision)) ∧
      (visits.map Visit.revision).Pairwise (fun newer older =>
        indexFileName older.snapshot.name < indexFileName newer.snapshot.name) ∧
      ((∀ visit ∈ visits, Exact visit) ↔ ∀ visit ∈ visits, SameNumber visit) ∧
      (∀ visit ∈ visits, Exact visit → ∀ algorithm volumes names fuel,
        visit.revision.downloadTo runtime algorithm volumes names fuel =
          (readNode runtime algorithm volumes visit.current visit.previous visit.nodeIndex
            fuel).andThen fun content =>
              some (.ok (names.fileName visit.found.path visit.found.snapshot, content))) := by
  obtain ⟨visits, walk⟩ := visits_of_found defined
  refine ⟨visits, walk, ?_, ?_, visits_exact_iff walk, ?_⟩
  · intro output
    exact load_revisions_finishes walk [] output
  · have sorted : (chain.map Entry.snapshot).Pairwise fun newer older =>
        indexFileName older.name < indexFileName newer.name :=
      List.pairwise_map.mpr (sorted_reachable reachable)
    have listed := sorted.sublist ((visits_sublist walk).trans suffix.sublist)
    rw [List.pairwise_map] at listed ⊢
    exact listed
  · intro visit member exactly algorithm volumes names fuel
    exact exact_download (visits_search walk visit member) exactly runtime algorithm volumes names
      fuel

section Histories

theorem search_placed {current : Snapshot} {previous : List Snapshot} {path : Path}
    {nodeIndex distance : Nat} {foundPath : Path} {snapshot : Snapshot}
    (number : current.index.getNodeIndex path = .ok nodeIndex)
    (search : (findDataSnapshot current previous nodeIndex).map
      (fun found => (found.distance, found.path)) = .ok (distance, foundPath))
    (here : (current :: previous)[distance]? = some snapshot) :
    findDataSnapshot current previous nodeIndex =
      .ok { distance := distance, snapshot := snapshot, path := foundPath } := by
  cases outcome : findDataSnapshot current previous nodeIndex with
  | error fault => simp [outcome, Except.map] at search
  | ok found =>
      obtain ⟨attributes, node⟩ := (NodeIndex.get_node_index_ok _ _ _).mp number
      have placed := ((find_data_snapshot_ok node found).mp outcome).1
      simp only [outcome, Except.map, Except.ok.injEq, Prod.mk.injEq] at search
      obtain ⟨rfl, rfl⟩ := search
      rw [here, Option.some.injEq] at placed
      rw [placed]

def changedFile : SourceNode := fileNode "a" [3, 4] 2

def changedBackup : Call := callOf "snapshot_2" [changedFile] (writeSteps changedFile)

def keptBackup : Call := callOf "snapshot_3" [changedFile] []

/-- Two revisions of a file that was changed once and then kept: the newest snapshot
finds its data in the one before it, under the same number. -/
theorem stored_revision_exact :
    ∃ newest changed first visits,
      (backups spellingRuntime).run [] [firstBackup, changedBackup, keptBackup] =
        some [newest, changed, first] ∧
      Visits [newest.snapshot, changed.snapshot, first.snapshot] storedFile.path visits ∧
      visits.map Visit.revision =
        [{ nodeIndex := 0, snapshot := changed.snapshot },
          { nodeIndex := 0, snapshot := first.snapshot }] ∧
      Finishes (loadRevisions [newest.snapshot, changed.snapshot, first.snapshot] storedFile.path)
        (.ok (visits.map Visit.revision)) ∧
      (∃ visit ∈ visits, visit.found.distance = 1) ∧ ∀ visit ∈ visits, Exact visit := by
  have outcome :
      ((backups spellingRuntime).run [] [firstBackup, changedBackup, keptBackup]).map
        (fun chain => chain.map fun entry => entry.index.getNodeIndex storedFile.path) =
          some [.ok 0, .ok 0, .ok 0] := by decide +kernel
  have searched :
      ((backups spellingRuntime).run [] [firstBackup, changedBackup, keptBackup]).map
        (fun chain => (chain.map Entry.snapshot).tails.map fun snapshots =>
          snapshots.head?.map fun current =>
            (findDataSnapshot current snapshots.tail 0).map fun found =>
              (found.distance, found.path)) =
          some [some (.ok (1, storedFile.path)), some (.ok (0, storedFile.path)),
            some (.ok (0, storedFile.path)), none] := by decide +kernel
  obtain ⟨chain, run, facts⟩ := Option.map_eq_some_iff.mp outcome
  rw [run] at searched
  obtain ⟨newest, rest, rfl, number, facts⟩ := List.map_eq_cons_iff.mp facts
  obtain ⟨changed, rest, rfl, changedNumber, facts⟩ := List.map_eq_cons_iff.mp facts
  obtain ⟨first, rest, rfl, firstNumber, facts⟩ := List.map_eq_cons_iff.mp facts
  cases List.map_eq_nil_iff.mp facts
  simp only [List.map_cons, List.map_nil, List.tails, Option.map_some, List.head?_cons,
    List.tail_cons, Option.some.injEq, List.cons.injEq] at searched
  let newer : Visit :=
    { current := newest.snapshot
      previous := [changed.snapshot, first.snapshot]
      path := storedFile.path
      nodeIndex := 0
      found := { distance := 1, snapshot := changed.snapshot, path := storedFile.path } }
  let older : Visit :=
    { current := first.snapshot
      previous := []
      path := storedFile.path
      nodeIndex := 0
      found := { distance := 0, snapshot := first.snapshot, path := storedFile.path } }
  have walk : Visits [newest.snapshot, changed.snapshot, first.snapshot] storedFile.path
      [newer, older] :=
    .visited newer [older] number (search_placed number searched.1 rfl)
      (.visited older [] firstNumber (search_placed firstNumber searched.2.2.1 rfl) (.none _))
  obtain ⟨visits, same, finishes, _, exactly, _⟩ := revisions_exact_iff spellingRuntime
    [newest, changed, first]
    (System.reachable_of_run [firstBackup, changedBackup, keptBackup] run)
    [newest.snapshot, changed.snapshot, first.snapshot] (List.suffix_refl _) storedFile.path
    (found_of_visits walk)
  cases visits_unique walk same
  refine ⟨newest, changed, first, [newer, older], run, walk, rfl, (finishes _).mpr rfl,
    ⟨newer, List.mem_cons_self, rfl⟩, exactly.mpr ?_⟩
  intro visit member
  rcases List.mem_pair.mp member with rfl | rfl
  · exact .inr (changedNumber.trans number.symm)
  · exact .inr rfl

/-- After another file was created, the unchanged file has the number of the new node
order; the first snapshot, which has its data, has no node of that number. -/
theorem unchanged_revision_misnumbered :
    ∃ chain entry first visit,
      (backups spellingRuntime).run [] [firstBackup, secondFileBackup] = some chain ∧
      chain = [entry, first] ∧
      Visits [entry.snapshot, first.snapshot] storedFile.path [visit] ∧
      visit.revision = { nodeIndex := 1, snapshot := first.snapshot } ∧
      ¬Exact visit ∧
      first.index.getNodePath 1 = .error .missingKey := by
  have outcome : ((backups spellingRuntime).run [] [firstBackup, secondFileBackup]).map
      (fun chain => chain.map fun entry =>
        (entry.index.getNodeIndex storedFile.path, entry.index.getNodePath 1)) =
          some [(.ok 1, .ok storedFile.path), (.ok 0, .error .missingKey)] := by decide +kernel
  have searched : ((backups spellingRuntime).run [] [firstBackup, secondFileBackup]).map
      (fun chain => chain.head?.map fun entry =>
        (findDataSnapshot entry.snapshot (chain.tail.map Entry.snapshot) 1).map fun found =>
          (found.distance, found.path)) =
          some (some (.ok (1, storedFile.path))) := by decide +kernel
  obtain ⟨chain, run, facts⟩ := Option.map_eq_some_iff.mp outcome
  rw [run] at searched
  obtain ⟨entry, rest, rfl, numbers, facts⟩ := List.map_eq_cons_iff.mp facts
  obtain ⟨first, rest, rfl, firstNumbers, facts⟩ := List.map_eq_cons_iff.mp facts
  cases List.map_eq_nil_iff.mp facts
  obtain ⟨number, _⟩ := Prod.mk.inj numbers
  obtain ⟨firstNumber, missing⟩ := Prod.mk.inj firstNumbers
  simp only [Option.map_some, List.head?_cons, List.tail_cons, List.map_cons, List.map_nil,
    Option.some.injEq] at searched
  let visit : Visit :=
    { current := entry.snapshot
      previous := [first.snapshot]
      path := storedFile.path
      nodeIndex := 1
      found := { distance := 1, snapshot := first.snapshot, path := storedFile.path } }
  have search : findDataSnapshot visit.current visit.previous 1 = .ok visit.found :=
    search_placed number searched rfl
  refine ⟨_, entry, first, visit, run, rfl, .visited visit [] number search (.none _), rfl, ?_,
    missing⟩
  rw [exact_number search]
  intro same
  have two : Except.ok 1 = Except.ok 0 := same.symm.trans firstNumber
  cases two

end Histories

end ACBackup.RevisionHistory
