import Mathlib.Data.List.Sort
import ACBackup.Library.BackReferences
import ACBackup.SnapshotChain
import ACBackup.SnapshotNodes

/-!
The chain of snapshots as a system: a step is one call of `AddSnapshot` that
comes as far as reading the snapshots in again. The chain is kept with the newest
name first; every snapshot has the call that created it beside it.
-/

namespace ACBackup.SnapshotManager

open ACBackup.Library.Tasks ACBackup.Library.Transition
open ACBackup.Platform ACBackup.NodeAttributes ACBackup.Indexing ACBackup.SourceIndex
open ACBackup.IndexSerialization ACBackup.SnapshotChain ACBackup.VolumeWriting
open ACBackup.SnapshotCreation ACBackup.SnapshotPlan ACBackup.SnapshotNodes

set_option autoImplicit false

structure Entry where
  call : Call
  index : BackupNodeIndex
  files : Nat → Bytes

def Entry.snapshot (entry : Entry) : Snapshot where
  name := entry.call.name
  index := entry.index

/-- `IndexFilePath`, below the index directory. -/
def indexFileName (name : String) : String := name ++ ".xml" ++ ".lzma"

abbrev Chain := List Entry

def lastIndex (chain : Chain) : Option BackupNodeIndex := chain.head?.map Entry.index

/-- `ReadInSnapshots` goes through the index files sorted by name. -/
def insertEntry (entry : Entry) (chain : Chain) : Chain :=
  chain.orderedInsert
    (fun left right => indexFileName right.call.name ≤ indexFileName left.call.name) entry

/-- `AddSnapshot`. An index file that exists is not opened for writing again. -/
def addSnapshot (runtime : Runtime) (chain : Chain) (call : Call) : Option Chain :=
  if call.name ∈ chain.map fun entry => entry.call.name then none
  else
    match createSnapshot runtime (lastIndex chain) call with
    | none => none
    | some created =>
        match deserializeIndex (serializeIndex created.index) with
        | .error _ => none
        | .ok index =>
            some (insertEntry { call := call, index := index, files := created.files } chain)

def backups (runtime : Runtime) : System Chain Call where
  initial := []
  step := addSnapshot runtime

def calls (chain : Chain) : List Call := chain.map Entry.call

def after (permitted : List Call → Call → Prop) (chain : Chain) (call : Call) : Prop :=
  permitted (calls chain) call

def InOrder (past : List Call) (call : Call) : Prop :=
  ∀ older ∈ past, indexFileName older.name < indexFileName call.name

instance (past : List Call) (call : Call) : Decidable (InOrder past call) :=
  inferInstanceAs (Decidable (∀ _ ∈ _, _))

/-- What has the type, the size and the modification time that it had in the
source of the last snapshot has the same content. -/
def ContentKept (past : List Call) (call : Call) : Prop :=
  match past with
  | [] => True
  | last :: _ =>
      ∀ entry ∈ call.source.index.nodes, ∀ old ∈ last.source.index.nodes, old.1 = entry.1 →
        entry.2.type ≠ .directory → entry.2.equals old.2 = true →
          call.source.content entry.1 = last.source.content entry.1

instance (past : List Call) (call : Call) : Decidable (ContentKept past call) :=
  match past with
  | [] => inferInstanceAs (Decidable True)
  | _ :: _ => inferInstanceAs (Decidable (∀ _ ∈ _, _))

/-- An entry of the chain, read in from what its call wrote after `last`. -/
def NewEntry (runtime : Runtime) (last : Option BackupNodeIndex) (entry : Entry) : Prop :=
  ∃ created, createSnapshot runtime last entry.call = some created ∧
    entry.index = created.index.mapAttributes reloaded ∧ entry.files = created.files

theorem add_snapshot_some {runtime : Runtime} {chain next : Chain} {call : Call}
    (taken : addSnapshot runtime chain call = some next) :
    ∃ entry, entry.call = call ∧ NewEntry runtime (lastIndex chain) entry ∧
      next = insertEntry entry chain := by
  unfold addSnapshot at taken
  by_cases used : call.name ∈ chain.map fun entry => entry.call.name
  · rw [if_pos used] at taken
    cases taken
  · rw [if_neg used] at taken
    cases run : createSnapshot runtime (lastIndex chain) call with
    | none => simp [run] at taken
    | some created =>
        simp only [run, deserialize_index_serialize, Option.some.injEq] at taken
        refine ⟨⟨call, created.index.mapAttributes reloaded, created.files⟩, rfl, ?_, taken.symm⟩
        exact ⟨created, run, rfl, rfl⟩

theorem mem_insert_entry (entry other : Entry) (chain : Chain) :
    other ∈ insertEntry entry chain ↔ other = entry ∨ other ∈ chain :=
  List.mem_orderedInsert _

/-- A name that is greater than all others comes first. -/
theorem insert_entry_in_order {chain : Chain} {entry : Entry}
    (inOrder : InOrder (calls chain) entry.call) : insertEntry entry chain = entry :: chain := by
  cases chain with
  | nil => rfl
  | cons first rest =>
      apply List.orderedInsert_cons_of_le
      exact le_of_lt (inOrder first.call (List.mem_cons_self ..))

theorem first_backup_calls {runtime : Runtime} {first : Call} {chain : Chain}
    (taken : addSnapshot runtime [] first = some chain) : calls chain = [first] := by
  obtain ⟨entry, made, _, inserted⟩ := add_snapshot_some taken
  rw [inserted, ← made]
  rfl

def Permitted (permitted : List Call → Call → Prop) : List Call → List Call → Prop
  | _, [] => True
  | past, call :: rest => permitted past call ∧ Permitted permitted (call :: past) rest

theorem run_in_order {runtime : Runtime} {permitted : List Call → Call → Prop}
    (inOrder : ∀ past call, permitted past call → InOrder past call) (list : List Call)
    {chain final : Chain} (reachable : (backups runtime).Reachable (after permitted) chain)
    (run : (backups runtime).run chain list = some final)
    (allowed : Permitted permitted (calls chain) list) :
    (backups runtime).Reachable (after permitted) final ∧
      calls final = list.reverse ++ calls chain := by
  induction list generalizing chain with
  | nil =>
      simp only [System.run, Option.some.injEq] at run
      subst run
      exact ⟨reachable, rfl⟩
  | cons call rest induction =>
      obtain ⟨next, taken, further⟩ := System.run_cons_some run
      obtain ⟨entry, rfl, _, inserted⟩ := add_snapshot_some taken
      rw [insert_entry_in_order (inOrder _ _ allowed.1)] at inserted
      have front : calls next = entry.call :: calls chain := by
        rw [inserted]
        rfl
      have later := induction (.step reachable allowed.1 taken) further (front ▸ allowed.2)
      rw [front] at later
      rw [List.reverse_cons, List.append_assoc]
      exact later

theorem suffix_new_entry {runtime : Runtime} {allowed : Chain → Call → Prop}
    (inOrder : ∀ chain call, allowed chain call → InOrder (calls chain) call) {chain : Chain}
    (reachable : (backups runtime).Reachable allowed chain) {entry : Entry} {older : Chain}
    (suffix : entry :: older <:+ chain) : NewEntry runtime (lastIndex older) entry := by
  induction reachable with
  | start => cases List.suffix_nil.mp suffix
  | step before permitted taken induction =>
      obtain ⟨added, rfl, new, rfl⟩ := add_snapshot_some taken
      rw [insert_entry_in_order (inOrder _ _ permitted)] at suffix
      rcases List.suffix_cons_iff.mp suffix with whole | below
      · cases whole
        exact new
      · exact induction below

/-- What every new entry has, given that the older ones have it, is had by all
entries of every chain. -/
theorem entries_reachable {runtime : Runtime} {allowed : Chain → Call → Prop}
    (property : Entry → Prop)
    (preserved : ∀ chain entry, (backups runtime).Reachable allowed chain →
      (∀ older ∈ chain, property older) → allowed chain entry.call →
      NewEntry runtime (lastIndex chain) entry → property entry)
    {chain : Chain} (reachable : (backups runtime).Reachable allowed chain) :
    ∀ entry ∈ chain, property entry := by
  induction reachable with
  | start =>
      intro entry member
      cases member
  | step before permitted taken induction =>
      obtain ⟨added, rfl, new, rfl⟩ := add_snapshot_some taken
      intro entry member
      rcases (mem_insert_entry added entry _).mp member with same | older
      · rw [same]
        exact preserved _ added before induction permitted new
      · exact induction entry older

theorem last_index_some {chain : Chain} {index : BackupNodeIndex}
    (last : lastIndex chain = some index) : ∃ entry ∈ chain, entry.index = index := by
  obtain ⟨entry, head, same⟩ := Option.map_eq_some_iff.mp last
  exact ⟨entry, List.mem_of_mem_head? head, same⟩

section Nodes

variable {runtime : Runtime} {last : Option BackupNodeIndex} {entry : Entry} {path : Path}

theorem new_entry_paths (new : NewEntry runtime last entry) :
    (entry.index.nodes.map Prod.fst).Perm (entry.call.source.index.nodes.map Prod.fst) := by
  obtain ⟨created, run, index, _⟩ := new
  have paths := (snapshot_created run).paths
  rw [index]
  simp only [NodeIndex.mapAttributes, List.map_map]
  exact paths

/-- A node of a loaded snapshot is a node of the source, sent over its route and
through the index file. -/
theorem new_entry_node (new : NewEntry runtime last entry) {attributes : BackupNodeAttributes}
    (found : entry.index.lookup path = some attributes) :
    ∃ created sourceAttributes made,
      createSnapshot runtime last entry.call = some created ∧
      entry.index = created.index.mapAttributes reloaded ∧ entry.files = created.files ∧
      entry.call.source.index.lookup path = some sourceAttributes ∧
      NodeCreated runtime last entry.call created path sourceAttributes made ∧
      attributes = reloaded made := by
  obtain ⟨created, run, index, files⟩ := new
  rw [index, NodeIndex.lookup_map_attributes, Option.map_eq_some_iff] at found
  obtain ⟨made, present, same⟩ := found
  obtain ⟨sourceAttributes, sourced, route⟩ := (snapshot_created run).nodes path made present
  exact ⟨created, sourceAttributes, made, run, index, files, sourced, route, same.symm⟩

theorem new_entry_lookup (new : NewEntry runtime last entry)
    {sourceAttributes : FileSystemNodeAttributes}
    (sourced : entry.call.source.index.lookup path = some sourceAttributes) :
    ∃ attributes, entry.index.lookup path = some attributes := by
  have member : path ∈ entry.index.nodes.map Prod.fst := by
    rw [(new_entry_paths new).mem_iff]
    by_contra outside
    rw [← NodeIndex.lookup_eq_none, sourced] at outside
    cases outside
  cases found : entry.index.lookup path with
  | none => exact absurd member ((NodeIndex.lookup_eq_none _ _).mp found)
  | some attributes => exact ⟨attributes, rfl⟩

end Nodes

def volumesOf (chain : Chain) : VolumeContents := fun name number =>
  match chain.find? fun entry => entry.call.name = name with
  | some entry => entry.files number
  | none => []

section Histories

/-! Sources and calls to compute with. -/

structure SourceNode where
  path : Path
  type : FileType
  content : Bytes
  mode : Nat
  second : Nat

def SourceNode.attributes (node : SourceNode) : FileSystemNodeAttributes :=
  .ofFileInfo
    { type := node.type
      size := node.content.length
      lastModifiedTime := some
        { year := 2021
          month := 1
          day := 1
          hour := 0
          minute := 0
          second := node.second
          millisecond := 0 }
      permissions := posixPermissions 0 0 node.mode }

def sourceIndexOf (nodes : List SourceNode) : FileSystemNodeIndex :=
  nodes.foldl (fun index node => index.addNode node.path node.attributes) NodeIndex.empty

theorem source_index_of_nodes (nodes : List SourceNode) :
    ∀ entry ∈ (sourceIndexOf nodes).nodes, ∃ node : SourceNode, entry.2 = node.attributes := by
  have fold : ∀ (nodes : List SourceNode) (index : FileSystemNodeIndex),
      (∀ entry ∈ index.nodes, ∃ node : SourceNode, entry.2 = node.attributes) →
        ∀ entry ∈ (nodes.foldl (fun index node => index.addNode node.path node.attributes)
          index).nodes, ∃ node : SourceNode, entry.2 = node.attributes := by
    intro nodes
    induction nodes with
    | nil =>
        intro index known
        exact known
    | cons node rest induction =>
        intro index known
        apply induction
        intro entry member
        rcases NodeIndex.mem_add_node member with before | same
        · exact known entry before
        · exact ⟨node, congrArg Prod.snd same⟩
  apply fold
  intro entry member
  cases member

def sourceOf (nodes : List SourceNode) : OSFileSystemNodeIndex where
  index := sourceIndexOf nodes
  content path := ((nodes.find? fun node => node.path = path).map SourceNode.content).getD []
  directorySize entry member directory := by
    obtain ⟨node, same⟩ := source_index_of_nodes nodes entry member
    rw [same] at directory ⊢
    exact of_file_info_directory_size _ directory

def fileNode (name : String) (content : Bytes) (second : Nat) : SourceNode where
  path := Path.root.child name
  type := .file
  content := content
  mode := 420
  second := second

def callOf (name : String) (nodes : List SourceNode) (volumeSteps : List WriteLabel) : Call where
  name := name
  source := sourceOf nodes
  hashAlgorithm := .md5
  volumeSize := 100
  maxCompressionLevel := 6
  statistics := fun _ => none
  uninitialised := fun _ => false
  differenceTasks := inSequence
  nodeTasks := inSequence
  volumeSteps := volumeSteps

/-- The content of a node goes to a volume in one piece. -/
def writeSteps (node : SourceNode) : List WriteLabel :=
  [.createFile node.path, .beginWrite node.path node.content] ++
    passLabels node.path node.content.length ++ [.finishWrite node.path, .closeFile node.path]

def storedFile : SourceNode := fileNode "a" [1, 2] 1

def movedFile : SourceNode := fileNode "b" [1, 2] 1

def firstBackup : Call := callOf "snapshot_1" [storedFile] (writeSteps storedFile)

def moveBackup : Call := callOf "snapshot_2" [movedFile] []

end Histories

end ACBackup.SnapshotManager
