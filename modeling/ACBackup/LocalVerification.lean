import ACBackup.SnapshotVerification

/-!
Verifying every snapshot for itself and verifying one snapshot with everything
that it refers to: the second does for a node what the first does for the node
where its data is.
-/

namespace ACBackup.LocalVerification

open ACBackup.Library.Loop ACBackup.Library.Tasks
open ACBackup.Platform ACBackup.NodeAttributes ACBackup.Indexing ACBackup.VolumeReading
open ACBackup.FileReading ACBackup.SnapshotChain ACBackup.VerifyTermination
open ACBackup.DataResolution ACBackup.SnapshotVerification

set_option autoImplicit false

def ResolvesContent (snapshots : List Snapshot) : Prop :=
  ∀ snapshot previous, snapshot :: previous <:+ snapshots →
    ∀ node path attributes, snapshot.index.nodes[node]? = some (path, attributes) →
      attributes.type ≠ .directory →
        ∃ found dataAttributes, findDataSnapshot snapshot previous node = .ok found ∧
          found.snapshot.index.lookup found.path = some dataAttributes ∧
          dataAttributes.type ≠ .directory

section Verification

variable {runtime : Runtime} {algorithm : HashAlgorithm} {volumes : VolumeContents}
  {snapshots : List Snapshot} {snapshot : Snapshot} {previous : List Snapshot}

theorem verify_node_steady (snapshot : Snapshot) (path : Path) :
    Steady (verifyNode runtime algorithm volumes snapshot path) := by
  unfold verifyNode
  cases openForVerification runtime algorithm volumes snapshot path with
  | error fault => exact steady_constant _
  | ok opened => exact steady_map (flush_to_steady _ _ _ _) _

theorem verify_task_steady (snapshot : Snapshot) (previous : List Snapshot) (full : Bool)
    (node : Nat) :
    Steady fun fuel => verifyTask runtime algorithm volumes snapshot previous full fuel node := by
  unfold verifyTask
  cases snapshot.index.getNodeAttributes node with
  | error fault => exact steady_constant _
  | ok attributes =>
      by_cases directory : attributes.type = .directory
      · simp only [if_pos directory]
        exact steady_constant _
      · simp only [if_neg directory]
        cases findDataSnapshot snapshot previous node with
        | error fault => exact steady_constant _
        | ok found =>
            by_cases visited : (full || found.distance = 0) = true
            · simp only [if_pos visited]
              exact steady_map (verify_node_steady _ _) _
            · simp only [if_neg visited]
              exact steady_constant _

/-- The full task of a node is the local task of the node that has its data. -/
theorem verify_task_data {node : Nat} {path : Path} {attributes : BackupNodeAttributes}
    (entry : snapshot.index.nodes[node]? = some (path, attributes))
    (isContent : attributes.type ≠ .directory) {found : DataNode}
    (search : findDataSnapshot snapshot previous node = .ok found)
    {dataAttributes : BackupNodeAttributes}
    (dataPresent : found.snapshot.index.lookup found.path = some dataAttributes)
    (dataContent : dataAttributes.type ≠ .directory) :
    ∃ dataNode, found.snapshot.index.nodes[dataNode]? = some (found.path, dataAttributes) ∧
      ∀ older fuel, verifyTask runtime algorithm volumes snapshot previous true fuel node =
        verifyTask runtime algorithm volumes found.snapshot older false fuel dataNode := by
  obtain ⟨dataNode, _, dataEntry⟩ := NodeIndex.get_node_index_of_lookup dataPresent
  obtain ⟨owner, ownerPresent, owns, _⟩ := find_data_snapshot_owner entry search
  rw [dataPresent, Option.some.injEq] at ownerPresent
  subst ownerPresent
  refine ⟨dataNode, dataEntry, ?_⟩
  intro older fuel
  have nodeAttributes : snapshot.index.getNodeAttributes node = .ok attributes :=
    (NodeIndex.get_node_attributes_ok _ _ _).mpr ⟨path, entry⟩
  have ownerAttributes : found.snapshot.index.getNodeAttributes dataNode = .ok dataAttributes :=
    (NodeIndex.get_node_attributes_ok _ _ _).mpr ⟨found.path, dataEntry⟩
  simp only [verifyTask, nodeAttributes, ownerAttributes, if_neg isContent, if_neg dataContent,
    search, find_data_snapshot_owned dataEntry owns, Bool.true_or, Bool.false_or, decide_true,
    if_true]

theorem verified_node_data (resolves : ResolvesContent snapshots)
    (suffix : snapshot :: previous <:+ snapshots) {node : Nat}
    (bound : node < snapshot.index.getNumberOfNodes) :
    (∀ fuel, verifyTask runtime algorithm volumes snapshot previous true fuel node =
        some (.ok false)) ∨
      ∃ found older dataNode dataAttributes, findDataSnapshot snapshot previous node = .ok found ∧
        found.snapshot :: older <:+ snapshot :: previous ∧
        found.snapshot.index.nodes[dataNode]? = some (found.path, dataAttributes) ∧
        ∀ fuel, verifyTask runtime algorithm volumes snapshot previous true fuel node =
          verifyTask runtime algorithm volumes found.snapshot older false fuel dataNode := by
  obtain ⟨⟨path, attributes⟩, entry⟩ : ∃ entry, snapshot.index.nodes[node]? = some entry :=
    ⟨_, List.getElem?_eq_getElem bound⟩
  by_cases directory : attributes.type = .directory
  · left
    intro fuel
    have nodeAttributes : snapshot.index.getNodeAttributes node = .ok attributes :=
      (NodeIndex.get_node_attributes_ok _ _ _).mpr ⟨path, entry⟩
    simp only [verifyTask, nodeAttributes, if_pos directory]
  · right
    obtain ⟨found, dataAttributes, search, dataPresent, dataContent⟩ :=
      resolves snapshot previous suffix node path attributes entry directory
    obtain ⟨dataNode, dataEntry, same⟩ :=
      @verify_task_data runtime algorithm volumes _ _ _ _ _ entry directory _ search _
        dataPresent dataContent
    obtain ⟨position, _⟩ := (find_data_snapshot_ok entry found).mp search
    obtain ⟨inside, atPosition⟩ := List.getElem?_eq_some_iff.mp position
    refine ⟨found, (snapshot :: previous).drop (found.distance + 1), dataNode, dataAttributes,
      search, ?_, dataEntry, same _⟩
    have dropped := List.drop_suffix found.distance (snapshot :: previous)
    rw [List.drop_eq_getElem_cons inside, atPosition] at dropped
    exact dropped

/-- What one verification answers for a node that is in the snapshot. -/
theorem verification_answers {tasks : TaskOrder Nat} {full : Bool} {failed : List Nat}
    (verified : Finishes
      (verifySnapshot runtime algorithm volumes tasks snapshot previous full) (.ok failed)) :
    (∀ node < snapshot.index.getNumberOfNodes, ∃ answer, Finishes
        (fun fuel => verifyTask runtime algorithm volumes snapshot previous full fuel node)
          (.ok answer)) ∧
      ∀ node, node ∈ failed ↔ node < snapshot.index.getNumberOfNodes ∧ Finishes
        (fun fuel => verifyTask runtime algorithm volumes snapshot previous full fuel node)
          (.ok true) := by
  obtain ⟨answers, members⟩ := mem_collect (verify_task_steady snapshot previous full) verified
  simp only [mem_order, List.mem_range] at answers members
  exact ⟨answers, members⟩

theorem verification_finishes (tasks : TaskOrder Nat) {full : Bool}
    (answers : ∀ node < snapshot.index.getNumberOfNodes, ∃ answer, Finishes
      (fun fuel => verifyTask runtime algorithm volumes snapshot previous full fuel node)
        (.ok answer)) :
    ∃ failed, Finishes
      (verifySnapshot runtime algorithm volumes tasks snapshot previous full) (.ok failed) := by
  apply collect_finishes (verify_task_steady snapshot previous full)
  intro node member
  rw [mem_order, List.mem_range] at member
  exact answers node member

end Verification

/-- When no snapshot reports a node of its own, none reports any node; and what a
full verification reports leads to a node that its own snapshot reports. -/
theorem local_verification_complete (runtime : Runtime) (algorithm : HashAlgorithm)
    (volumes : VolumeContents) (snapshots : List Snapshot)
    (resolves : ResolvesContent snapshots) :
    ((∀ snapshot previous, snapshot :: previous <:+ snapshots → ∃ tasks, Finishes
          (verifySnapshot runtime algorithm volumes tasks snapshot previous false) (.ok [])) →
      ∀ snapshot previous, snapshot :: previous <:+ snapshots → ∀ tasks, Finishes
        (verifySnapshot runtime algorithm volumes tasks snapshot previous true) (.ok [])) ∧
    ((∀ snapshot previous, snapshot :: previous <:+ snapshots → ∃ tasks failed, Finishes
          (verifySnapshot runtime algorithm volumes tasks snapshot previous false)
            (.ok failed)) →
      ∀ snapshot previous, snapshot :: previous <:+ snapshots → ∀ tasks failed, Finishes
          (verifySnapshot runtime algorithm volumes tasks snapshot previous true) (.ok failed) →
        ∀ node ∈ failed, ∃ found older dataNode dataAttributes,
          findDataSnapshot snapshot previous node = .ok found ∧
          found.snapshot :: older <:+ snapshot :: previous ∧
          found.snapshot.index.nodes[dataNode]? = some (found.path, dataAttributes) ∧
          ∀ tasks, ∃ reported, Finishes
            (verifySnapshot runtime algorithm volumes tasks found.snapshot older false)
              (.ok reported) ∧ dataNode ∈ reported) := by
  constructor
  · intro clean snapshot previous suffix tasks
    have unreported : ∀ node < snapshot.index.getNumberOfNodes, Finishes
        (fun fuel => verifyTask runtime algorithm volumes snapshot previous true fuel node)
          (.ok false) := by
      intro node bound
      rcases verified_node_data resolves suffix bound with
        skipped | ⟨found, older, dataNode, dataAttributes, _, inside, dataEntry, same⟩
      · exact ⟨0, skipped 0⟩
      · obtain ⟨localTasks, verified⟩ := clean found.snapshot older (inside.trans suffix)
        obtain ⟨answers, members⟩ := verification_answers verified
        have dataBound := (List.getElem?_eq_some_iff.mp dataEntry).1
        obtain ⟨answer, answered⟩ := answers dataNode dataBound
        simp only [same]
        cases answer with
        | false => exact answered
        | true => exact absurd ((members dataNode).mpr ⟨dataBound, answered⟩) List.not_mem_nil
    obtain ⟨failed, verified⟩ :=
      verification_finishes tasks fun node bound => ⟨false, unreported node bound⟩
    have nothing : failed = [] := by
      apply List.eq_nil_iff_forall_not_mem.mpr
      intro node member
      obtain ⟨bound, reported⟩ := ((verification_answers verified).2 node).mp member
      cases finishes_unique (verify_task_steady snapshot previous true node) reported
        (unreported node bound)
    exact nothing ▸ verified
  · intro terminates snapshot previous suffix tasks failed verified node member
    obtain ⟨bound, reported⟩ := ((verification_answers verified).2 node).mp member
    rcases verified_node_data resolves suffix bound with
      skipped | ⟨found, older, dataNode, dataAttributes, search, inside, dataEntry, same⟩
    · cases finishes_unique (verify_task_steady snapshot previous true node) reported
        ⟨0, skipped 0⟩
    · refine ⟨found, older, dataNode, dataAttributes, search, inside, dataEntry, ?_⟩
      intro localTasks
      obtain ⟨otherTasks, otherFailed, otherVerified⟩ :=
        terminates found.snapshot older (inside.trans suffix)
      obtain ⟨localFailed, localVerified⟩ :=
        verification_finishes localTasks (verification_answers otherVerified).1
      refine ⟨localFailed, localVerified, ?_⟩
      rw [(verification_answers localVerified).2]
      simp only [same] at reported
      exact ⟨(List.getElem?_eq_some_iff.mp dataEntry).1, reported⟩

section Referring

/-! A snapshot with one file of one byte, and one that refers to it. -/

def referringAttributes : BackupNodeAttributes := { oneByteAttributes with ownsBlocks := false }

def referringSnapshot : Snapshot where
  name := "snapshot_2"
  index := NodeIndex.empty.addNode oneBytePath referringAttributes

theorem referring_suffixes {snapshot : Snapshot} {previous : List Snapshot}
    (suffix : snapshot :: previous <:+ [referringSnapshot, oneByteSnapshot]) :
    snapshot = referringSnapshot ∧ previous = [oneByteSnapshot] ∨
      snapshot = oneByteSnapshot ∧ previous = [] := by
  rcases List.suffix_cons_iff.mp suffix with whole | later
  · exact .inl (List.cons.inj whole)
  · rcases List.suffix_cons_iff.mp later with last | none
    · exact .inr (List.cons.inj last)
    · cases List.suffix_nil.mp none

theorem referring_resolves : ResolvesContent [referringSnapshot, oneByteSnapshot] := by
  intro snapshot previous suffix node path attributes entry _
  have bound := (List.getElem?_eq_some_iff.mp entry).1
  rcases referring_suffixes suffix with ⟨rfl, rfl⟩ | ⟨rfl, rfl⟩
  · have only : node = 0 := Nat.lt_one_iff.mp bound
    subst only
    exact ⟨⟨1, oneByteSnapshot, oneBytePath⟩, oneByteAttributes, rfl, rfl, nofun⟩
  · have only : node = 0 := Nat.lt_one_iff.mp bound
    subst only
    exact ⟨⟨0, oneByteSnapshot, oneBytePath⟩, oneByteAttributes, rfl, rfl, nofun⟩

theorem referring_verified :
    Finishes (verifySnapshot spellingRuntime .md5 (fun _ _ => [7]) inSequence referringSnapshot
      [oneByteSnapshot] true) (.ok []) := by
  apply (local_verification_complete spellingRuntime .md5 (fun _ _ => [7]) _
    referring_resolves).1 _ referringSnapshot [oneByteSnapshot] (List.suffix_refl _) inSequence
  intro snapshot previous suffix
  rcases referring_suffixes suffix with ⟨rfl, rfl⟩ | ⟨rfl, rfl⟩
  · exact ⟨inSequence, 9, by decide +kernel⟩
  · exact ⟨inSequence, 9, by decide +kernel⟩

end Referring

end ACBackup.LocalVerification
