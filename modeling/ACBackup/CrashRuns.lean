import ACBackup.CrashConsistency
import ACBackup.SourceRecovery

/-!
Runs of the program over a backup, one start after another, each of which may be
killed at any file operation, may fail, or may find a backup that cannot be read in.
-/

namespace ACBackup.CrashRuns

open ACBackup.Library.Extents ACBackup.Library.FileDirectory ACBackup.Library.Loop
open ACBackup.Library.Outcome
open ACBackup.Library.Transition
open ACBackup.Platform ACBackup.NodeAttributes ACBackup.Indexing ACBackup.IndexSerialization
open ACBackup.OpenVolumes ACBackup.VolumeReading ACBackup.SnapshotChain ACBackup.VolumeWriting
open ACBackup.VolumeInvariant ACBackup.SnapshotCreation ACBackup.SnapshotNodes
open ACBackup.SnapshotManager ACBackup.SnapshotVerification ACBackup.IndexDirectory
open ACBackup.CrashConsistency ACBackup.DataResolution ACBackup.StoredContent
open ACBackup.AddSnapshotAnswer ACBackup.SourceRecovery

set_option autoImplicit false

def newestIndex (snapshots : List Snapshot) : Option BackupNodeIndex :=
  snapshots.getLast?.map Snapshot.index

/-- What one start of the program for a call leaves of a disk. The manager raises when
the snapshots cannot be read in. A call that raises or hangs at some node has written
volumes only, and may have written any of them. -/
inductive Session (runtime : Runtime) (format : IndexFormat runtime) (disk : Disk) (call : Call) :
    Disk → Prop
  | refused {fault : Fault}
      (raises : readInSnapshots runtime format disk.indexFiles = .error fault) :
      Session runtime format disk call disk
  | failed {snapshots : List Snapshot}
      (loaded : readInSnapshots runtime format disk.indexFiles = .ok snapshots)
      (index : BackupNodeIndex) (labels : List WriteLabel) (performed : Nat) :
      Session runtime format disk call
        (crash disk (failedOperations call index labels) performed)
  | added {snapshots : List Snapshot}
      (loaded : readInSnapshots runtime format disk.indexFiles = .ok snapshots)
      {created : Created}
      (run : createSnapshot runtime (newestIndex snapshots) call = some created)
      (writes : Writes format call created) (performed : Nat) :
      Session runtime format disk call
        (crash disk (operations (newestIndex snapshots) format call created writes) performed)

inductive Sessions (runtime : Runtime) (format : IndexFormat runtime) (disk : Disk) :
    List Call → Disk → Prop
  | none : Sessions runtime format disk [] disk
  | next {past : List Call} {call : Call} {before after : Disk}
      (earlier : Sessions runtime format disk past before)
      (session : Session runtime format before call after) :
      Sessions runtime format disk (call :: past) after

section Kept

variable {runtime : Runtime} {format : IndexFormat runtime}

structure FilesKept (before after : Disk) : Prop where
  volumes : ∀ file content, before.volumes.read file = some content →
    after.volumes.read file = some content
  indexFiles : ∀ file content, before.indexFiles.read file = some content →
    after.indexFiles.read file = some content

theorem files_kept_refl (disk : Disk) : FilesKept disk disk :=
  ⟨fun _ _ present => present, fun _ _ present => present⟩

def IndexKept (before after : Disk) : Prop :=
  ∀ file content, before.indexFiles.read file = some content →
    after.indexFiles.read file = some content

theorem index_kept_trans (first second third : Disk) (before : IndexKept first second)
    (after : IndexKept second third) : IndexKept first third :=
  fun file content present => after file content (before file content present)

theorem elsewhere_index_kept {list : List FileOperation}
    (elsewhere : ∀ change, FileOperation.index change ∉ list) (disk : Disk) (count : Nat) :
    IndexKept disk (disks.runUntil disk (list.take count)) := by
  have same : (disks.runUntil disk (list.take count)).indexFiles = disk.indexFiles := by
    apply index_files_kept
    intro change member
    exact elsewhere change (List.mem_of_mem_take member)
  intro file content present
  rw [same]
  exact present

theorem write_file_index_kept (written : String) (writes : List Bytes) (disk : Disk)
    (count : Nat) : IndexKept disk (disks.runUntil disk ((writeFile written writes).take count)) := by
  intro file content present
  by_cases same : file = written
  · subst same
    have stopped := write_file_present present writes [] count
    rw [List.append_nil] at stopped
    rw [stopped]
    exact present
  · refine @System.run_until_invariant _ _ disks
      (fun state => state.indexFiles.read file = some content)
      ((writeFile written writes).take count) ?_ disk present
    intro operation member state next taken unchanged
    rcases List.mem_cons.mp (List.mem_of_mem_take member) with created | extended
    · subst created
      obtain ⟨indexFiles, changed, rfl⟩ := Option.map_eq_some_iff.mp taken
      simp only [(Directory.read_create changed).2, Function.update_of_ne same]
      exact unchanged
    · obtain ⟨bytes, _, rfl⟩ := List.mem_map.mp extended
      obtain ⟨indexFiles, changed, rfl⟩ := Option.map_eq_some_iff.mp taken
      obtain ⟨_, _, read⟩ := Directory.read_extend changed
      simp only [read, Function.update_of_ne same]
      exact unchanged

theorem operations_index_kept (last : Option BackupNodeIndex) (call : Call) (created : Created)
    (writes : Writes format call created) (disk : Disk) (performed : Nat) :
    IndexKept disk (crash disk (operations last format call created writes) performed) := by
  apply System.run_until_append_related index_kept_trans
  · exact elsewhere_index_kept (data_operations_volumes runtime last call)
  · apply System.run_until_append_related index_kept_trans
    · exact write_file_index_kept _ _
    · apply System.run_until_append_related index_kept_trans
      · exact write_file_index_kept _ _
      · apply elsewhere_index_kept
        intro change member
        cases List.eq_of_mem_replicate member

theorem operations_keep_files (last : Option BackupNodeIndex) (call : Call) (created : Created)
    (writes : Writes format call created) (disk : Disk) (performed : Nat) :
    FilesKept disk (crash disk (operations last format call created writes) performed) := by
  refine ⟨?_, operations_index_kept last call created writes disk performed⟩
  intro file content present
  exact volumes_kept
    (creates_first_take (operations_create_first last format call created writes) performed)
    (fun _ below => absurd below (Nat.not_lt_zero _)) (fun _ _ found => found) file content present

theorem session_keeps_files {disk after : Disk} {call : Call}
    (session : Session runtime format disk call after) : FilesKept disk after := by
  cases session with
  | refused raises => exact files_kept_refl disk
  | failed loaded index labels performed =>
      refine ⟨?_, ?_⟩
      · intro file content present
        exact volumes_kept
          (creates_first_take (failed_operations_create_first call index labels) performed)
          (fun _ below => absurd below (Nat.not_lt_zero _)) (fun _ _ found => found) file content
          present
      · exact elsewhere_index_kept (failed_operations_volumes call index labels) disk performed
  | added loaded run writes performed => exact operations_keep_files _ call _ writes disk performed

theorem sessions_refused {disk after : Disk} {past : List Call}
    (ran : Sessions runtime format disk past after) {fault : Fault}
    (raises : readInSnapshots runtime format disk.indexFiles = .error fault) : after = disk := by
  induction ran with
  | none => rfl
  | next earlier session induction =>
      subst induction
      cases session with
      | refused _ => rfl
      | failed loaded index labels performed =>
          rw [raises] at loaded
          cases loaded
      | added loaded run writes performed =>
          rw [raises] at loaded
          cases loaded

end Kept

section Reading

variable {runtime : Runtime} {format : IndexFormat runtime} {before after : IndexFiles}

end Reading

section Held

variable {volumeSize : UInt64} {name : String}

/-- The volumes that the writers have are on the disk, where files of a killed call
with the same name may lie as well. -/
structure VolumesHeld (name : String) (count : Nat) (files : Nat → Bytes)
    (volumes : Directory (String × Nat) Byte) : Prop where
  held : ∀ number < count, volumes.read (name, number) = some (files number)
  untouched : ∀ number, count ≤ number → files number = []

theorem volumes_held_create {count : Nat} {files : Nat → Bytes}
    {volumes next : Directory (String × Nat) Byte} (held : VolumesHeld name count files volumes)
    (created : volumes.create (name, count) = some next) :
    VolumesHeld name (count + 1) (Function.update files count []) next := by
  obtain ⟨_, read⟩ := Directory.read_create created
  refine ⟨?_, ?_⟩
  · intro number below
    rw [read]
    by_cases same : number = count
    · subst same
      simp
    · rw [Function.update_of_ne (by simpa using same), Function.update_of_ne same]
      exact held.held number (by omega)
  · intro number above
    rw [Function.update_of_ne (by omega)]
    exact held.untouched number (by omega)

theorem volumes_held_extend {count number : Nat} {files : Nat → Bytes} {bytes : Bytes}
    {volumes next : Directory (String × Nat) Byte} (held : VolumesHeld name count files volumes)
    (below : number < count) (extended : volumes.extend (name, number) bytes = some next) :
    VolumesHeld name count (Function.update files number (files number ++ bytes)) next := by
  obtain ⟨content, present, read⟩ := Directory.read_extend extended
  rw [held.held number below, Option.some.injEq] at present
  refine ⟨?_, ?_⟩
  · intro other inside
    rw [read]
    by_cases same : other = number
    · subst same
      rw [Function.update_self, Function.update_self, present]
    · rw [Function.update_of_ne (by simpa using same), Function.update_of_ne same]
      exact held.held other inside
  · intro other above
    rw [Function.update_of_ne (by omega)]
    exact held.untouched other above

/-- Operations of a step that were all performed did to the volumes what it says. -/
theorem step_operations_held {state next : WriteState} {label : WriteLabel}
    (consistent : Consistent state) (taken : step volumeSize state label = some next)
    {disk after : Disk}
    (run : disks.run disk (stepOperations name state label) = some after)
    (held : VolumesHeld name state.nextVolumeNumber state.files disk.volumes) :
    VolumesHeld name next.nextVolumeNumber next.files after.volumes := by
  cases label with
  | createFile path =>
      obtain ⟨_, _, rfl⟩ := step_create_file taken
      cases run
      exact held
  | beginWrite writer source =>
      obtain ⟨_, _, rfl⟩ := step_begin_write taken
      cases run
      exact held
  | findStream writer =>
      obtain ⟨source, _, _, rfl⟩ := step_find_stream taken
      cases owned : findOwned writer state.openVolumes with
      | some volume =>
          simp only [stepOperations, owned, reduceCtorEq, false_and, if_false] at run
          cases run
          simp only [findStream, owned, WriteState.setPhase]
          exact held
      | none =>
          cases claimed : claimFree writer state.openVolumes with
          | some volume =>
              simp only [stepOperations, owned, claimed, reduceCtorEq, and_false, if_false] at run
              cases run
              simp only [findStream, owned, claimed, WriteState.setPhase]
              exact held
          | none =>
              simp only [stepOperations, owned, claimed, and_self, if_true] at run
              simp only [findStream, owned, claimed, WriteState.setPhase]
              obtain ⟨middle, other, rest⟩ := System.run_cons_some run
              cases other
              obtain ⟨last, created, final⟩ := System.run_cons_some rest
              cases final
              obtain ⟨volumes, changed, rfl⟩ := Option.map_eq_some_iff.mp created
              exact volumes_held_create held changed
  | queryOffset writer =>
      obtain ⟨_, _, _, _, rfl⟩ := step_query_offset taken
      cases run
      exact held
  | writeVolume writer nBytesWritten =>
      obtain ⟨source, number, leftSize, offset, positioned, _, rfl⟩ := step_write_volume taken
      simp only [stepOperations, positioned] at run
      obtain ⟨last, written, final⟩ := System.run_cons_some run
      cases final
      obtain ⟨volumes, changed, rfl⟩ := Option.map_eq_some_iff.mp written
      exact volumes_held_extend held (positioned_numbered consistent positioned) changed
  | bytesWereWritten writer =>
      obtain ⟨_, _, _, _, recorded, _, outcome, rfl⟩ := step_bytes_were_written taken
      obtain ⟨_, _, rfl⟩ := bytes_were_written_keeps outcome
      cases run
      exact held
  | finishWrite writer =>
      obtain ⟨_, rfl⟩ := step_finish_write taken
      cases run
      exact held
  | closeFile writer =>
      obtain ⟨_, rfl⟩ := step_close_file taken
      cases run
      exact held

theorem write_operations_held (labels : List WriteLabel) {index : BackupNodeIndex}
    {state final : WriteState} (consistent : Consistent state)
    (writes : (writing volumeSize index).run state labels = some final) {disk after : Disk}
    (run : disks.run disk (writeOperations volumeSize name state labels) = some after)
    (held : VolumesHeld name state.nextVolumeNumber state.files disk.volumes) :
    VolumesHeld name final.nextVolumeNumber final.files after.volumes := by
  induction labels generalizing state disk with
  | nil =>
      cases writes
      cases run
      exact held
  | cons label rest induction =>
      obtain ⟨next, (taken : step volumeSize state label = some next), later⟩ :=
        System.run_cons_some writes
      simp only [writeOperations, taken, System.run_append] at run
      obtain ⟨middle, first, second⟩ := Option.bind_eq_some_iff.mp run
      exact induction (consistent_step consistent taken) later second
        (step_operations_held consistent taken first held)

theorem data_operations_held {runtime : Runtime} {last : Option BackupNodeIndex} {call : Call}
    {created : Created} (creates : createSnapshot runtime last call = some created)
    {disk after : Disk} (run : disks.run disk (dataOperations runtime last call) = some after)
    (number : Nat) (nonempty : created.files number ≠ []) :
    after.volumes.read (call.name, number) = some (created.files number) := by
  obtain ⟨planned, state, plan, writes, _, _, files⟩ := create_snapshot_some creates
  simp only [dataOperations, plan, System.run_append] at run
  obtain ⟨written, first, closing⟩ := Option.bind_eq_some_iff.mp run
  obtain ⟨opened, opening, second⟩ := Option.bind_eq_some_iff.mp first
  cases opening
  cases closing
  have start : VolumesHeld call.name (openFileSystem (addPlanned planned)).nextVolumeNumber
      (openFileSystem (addPlanned planned)).files disk.volumes :=
    ⟨fun number below => absurd below (Nat.not_lt_zero _), fun _ _ => rfl⟩
  have held := write_operations_held call.volumeSteps (consistent_open _) writes second start
  rw [← files] at held
  apply held.held
  by_contra above
  exact nonempty (held.untouched number (Nat.le_of_not_lt above))

end Held

section Serialization

variable {runtime : Runtime} {format : IndexFormat runtime} {call : Call} {created : Created}
  {stored : Disk}

theorem serialize_complete
    (noIndexFile : stored.indexFiles.read (indexFileName call.name) = none)
    (noHashFile : stored.indexFiles.read (hashFileName call.name) = none)
    (writes : Writes format call created) (others count : Nat)
    (late : writes.index.length + 1 + (writes.protection.length + 1) ≤ count) :
    ∃ after, disks.runUntil stored
        ((writeFile (indexFileName call.name) writes.index ++
          (writeFile (hashFileName call.name) writes.protection ++
            List.replicate others FileOperation.other)).take count) = after ∧
      after.volumes = stored.volumes ∧
      after.indexFiles.read =
        Function.update
          (Function.update stored.indexFiles.read (indexFileName call.name)
            (some writes.index.flatten))
          (hashFileName call.name) (some writes.protection.flatten) := by
  obtain ⟨more, rfl⟩ := Nat.exists_eq_add_of_le late
  obtain ⟨indexed, indexRun, indexVolumes, indexRead⟩ := write_file_run noIndexFile writes.index
  have stillNoHashFile : indexed.indexFiles.read (hashFileName call.name) = none := by
    rw [indexRead, Function.update_of_ne (hash_file_not_index _ _)]
    exact noHashFile
  obtain ⟨after, hashRun, hashVolumes, hashRead⟩ :=
    write_file_run stillNoHashFile writes.protection
  refine ⟨after, ?_, hashVolumes.trans indexVolumes, ?_⟩
  · rw [Nat.add_assoc, write_file_passed, write_file_passed, List.take_replicate]
    apply System.run_until_of_run
    simp only [System.run_append, indexRun, hashRun, others_run, Option.bind_some]
  · rw [hashRead, indexRead]

theorem unprotected_fails {disk : Disk} {name : String}
    (unprotected : Unprotected format name disk) :
    ∃ fault, readInSnapshots runtime format disk.indexFiles = .error fault := by
  obtain ⟨⟨content, present⟩, rejected⟩ := unprotected
  obtain ⟨fault, failed⟩ := deserialize_unprotected rejected
  apply read_in_fails _ failed
  rw [present]
  exact Option.some_ne_none content

end Serialization

section Atomic

variable {runtime : Runtime} {format : IndexFormat runtime} {chain : Chain} {disk after : Disk}
  {call : Call} {created : Created}

/-- A disk has the index files of a chain and no others, and the volumes of its
snapshots. Volumes of killed calls may lie around as well. -/
structure ChainHeld (runtime : Runtime) (format : IndexFormat runtime) (chain : Chain)
    (disk : Disk) : Prop where
  indexFiles : Holds runtime format chain disk.indexFiles
  volumes : ∀ entry ∈ chain, ∀ number, entry.files number ≠ [] →
    disk.volumes.read (entry.call.name, number) = some (entry.files number)

theorem chain_held_newest {snapshots : List Snapshot} (held : ChainHeld runtime format chain disk)
    (loaded : readInSnapshots runtime format disk.indexFiles = .ok snapshots) :
    newestIndex snapshots = lastIndex chain := by
  rw [read_in_holds held.indexFiles, Except.ok.injEq] at loaded
  rw [← loaded, newestIndex, lastIndex, List.getLast?_reverse, List.head?_map, Option.map_map]
  rfl

theorem chain_held_kept (held : ChainHeld runtime format chain disk)
    (kept : FilesKept disk after) (same : after.indexFiles = disk.indexFiles) :
    ChainHeld runtime format chain after := by
  refine ⟨?_, ?_⟩
  · rw [same]
    exact held.indexFiles
  · intro entry member number nonempty
    exact kept.volumes _ _ (held.volumes entry member number nonempty)

/-- A call whose files are complete has added its snapshot. -/
theorem chain_held_added (held : ChainHeld runtime format chain disk)
    (kept : FilesKept disk after)
    (unused : call.name ∉ chain.map fun entry => entry.call.name)
    (creates : createSnapshot runtime (lastIndex chain) call = some created)
    (writes : Writes format call created)
    (files : after.indexFiles.read =
      Function.update
        (Function.update disk.indexFiles.read (indexFileName call.name)
          (some writes.index.flatten))
        (hashFileName call.name) (some writes.protection.flatten))
    (volumes : ∀ number, created.files number ≠ [] →
      after.volumes.read (call.name, number) = some (created.files number)) :
    ∃ next, addSnapshot runtime chain call = some next ∧
      next.Perm (newEntry call created :: chain) ∧ ChainHeld runtime format next after := by
  refine ⟨insertEntry (newEntry call created) chain, ?_, List.perm_orderedInsert _ _ _, ?_, ?_⟩
  · simp only [addSnapshot, if_neg unused, creates, deserialize_index_serialize]
    rfl
  · have readable : deserialize runtime format after.indexFiles (indexFileName call.name) =
        .ok (some (newEntry call created).snapshot) := by
      apply deserialize_stored
      · rw [files, Function.update_of_ne (hash_file_not_index _ _).symm, Function.update_self,
          writes.index_complete]
        rfl
      · rw [files, Function.update_self, writes.protection_complete]
        rfl
    exact holds_insert held.indexFiles unused files readable
  · intro entry member number nonempty
    rcases (mem_insert_entry _ _ _).mp member with rfl | older
    · exact volumes number nonempty
    · exact kept.volumes _ _ (held.volumes entry older number nonempty)

/-- Where a call is killed: before the index file is created, or while or after the
index files are written. -/
theorem crash_cut (last : Option BackupNodeIndex) (writes : Writes format call created)
    (disk : Disk) (performed : Nat) :
    (crash disk (operations last format call created writes) performed).indexFiles =
        disk.indexFiles ∨
      ∃ middle pieces, disks.run disk (dataOperations runtime last call) = some middle ∧
        crash disk (operations last format call created writes) performed =
          disks.runUntil middle
            ((writeFile (indexFileName call.name) writes.index ++
              (writeFile (hashFileName call.name) writes.protection ++
                List.replicate 3 FileOperation.other)).take (pieces + 1)) := by
  have elsewhere := data_operations_volumes runtime last call
  rw [crash, operations, List.take_append]
  by_cases inside : performed ≤ (dataOperations runtime last call).length
  · left
    rw [Nat.sub_eq_zero_of_le inside, List.take_zero, List.append_nil]
    apply index_files_kept
    intro change member
    exact elsewhere change (List.mem_of_mem_take member)
  · obtain ⟨pieces, rest⟩ : ∃ pieces,
        performed - (dataOperations runtime last call).length = pieces + 1 :=
      ⟨performed - (dataOperations runtime last call).length - 1, by omega⟩
    rw [List.take_of_length_le (Nat.le_of_not_le inside), rest, System.run_until_append]
    cases data : disks.run disk (dataOperations runtime last call) with
    | none => exact .inl (index_files_kept elsewhere disk)
    | some middle => exact .inr ⟨middle, pieces, rfl, rfl⟩

/-- A killed call has done nothing that is read in, has kept the backup from being
read in, or has added its snapshot. -/
theorem session_atomic (held : ChainHeld runtime format chain disk)
    (session : Session runtime format disk call after) :
    (∃ fault, readInSnapshots runtime format after.indexFiles = .error fault) ∨
      ChainHeld runtime format chain after ∨
      ∃ next created, addSnapshot runtime chain call = some next ∧
        next.Perm (newEntry call created :: chain) ∧ ChainHeld runtime format next after := by
  have kept := session_keeps_files session
  cases session with
  | refused raises => exact .inl ⟨_, raises⟩
  | failed loaded index labels performed =>
      refine .inr (.inl (chain_held_kept held kept ?_))
      apply index_files_kept
      intro change member
      exact failed_operations_volumes call index labels change (List.mem_of_mem_take member)
  | @added snapshots loaded created creates writes performed =>
      rw [chain_held_newest held loaded] at creates kept ⊢
      rcases crash_cut (lastIndex chain) writes disk performed with
        same | ⟨middle, pieces, data, cut⟩
      · exact .inr (.inl (chain_held_kept held kept same))
      have same : middle.indexFiles = disk.indexFiles := by
        rw [← System.run_until_of_run data]
        exact index_files_kept (data_operations_volumes runtime (lastIndex chain) call) disk
      -- a disk with the index files alone has what is known of them
      let bare : Disk := { volumes := Directory.empty, indexFiles := disk.indexFiles }
      have bareHolds : DiskHolds runtime format chain bare :=
        ⟨held.indexFiles, fun _ _ present => absurd rfl present⟩
      by_cases used : call.name ∈ chain.map fun entry => entry.call.name
      · obtain ⟨content, present⟩ := used_index_file bareHolds used
        change disk.indexFiles.read (indexFileName call.name) = some content at present
        rw [← same] at present
        rw [write_file_present present] at cut
        exact .inr (.inl (chain_held_kept held kept (cut ▸ same)))
      · have noIndexFile : middle.indexFiles.read (indexFileName call.name) = none := by
          rw [same]
          exact @unused_index_file _ _ _ bare _ bareHolds used
        have noHashFile : middle.indexFiles.read (hashFileName call.name) = none := by
          rw [same]
          exact @unused_hash_file _ _ _ bare _ bareHolds used
        by_cases early : pieces < writes.index.length + 1 + writes.protection.length
        · rw [cut]
          exact .inl (unprotected_fails
            (serialize_cut noIndexFile noHashFile writes (List.replicate 3 .other) early))
        · obtain ⟨final, run, volumes, files⟩ := serialize_complete noIndexFile noHashFile writes 3
            (pieces + 1) (by omega)
          rw [run] at cut
          rw [cut] at kept ⊢
          rw [same] at files
          obtain ⟨next, taken, perm, nextHeld⟩ := chain_held_added held kept used creates writes
            files fun number nonempty => by
              rw [volumes]
              exact data_operations_held creates data number nonempty
          exact .inr (.inr ⟨next, created, taken, perm, nextHeld⟩)

/-- Every disk that runs leave cannot be read in or has a chain of snapshots, of some
of the calls. -/
theorem sessions_atomic {past : List Call}
    (ran : Sessions runtime format disks.initial past disk) :
    (∃ fault, readInSnapshots runtime format disk.indexFiles = .error fault) ∨
      ∃ chain, (calls chain).Subperm past ∧
        (backups runtime).Reachable System.anyStep chain ∧
        ChainHeld runtime format chain disk := by
  induction ran with
  | none =>
      refine .inr ⟨[], List.Subperm.refl _, .start, holds_empty format, ?_⟩
      intro entry member
      cases member
  | @next past call before after earlier session induction =>
      rcases induction with ⟨fault, raises⟩ | ⟨chain, some, reachable, held⟩
      · have untouched := sessions_refused (.next .none session) raises
        rw [untouched]
        exact .inl ⟨fault, raises⟩
      · rcases session_atomic held session with failed | unchanged | ⟨next, created, taken, perm,
          nextHeld⟩
        · exact .inl failed
        · exact .inr ⟨chain, some.trans (List.sublist_cons_self call past).subperm, reachable,
            unchanged⟩
        · refine .inr ⟨next, ?_, .step reachable trivial taken, nextHeld⟩
          have added : (calls next).Perm (call :: calls chain) := perm.map Entry.call
          exact added.subperm.trans ((List.subperm_cons call).mpr some)

/-- The operations of a call with a new name all succeed, whatever is left of others. -/
theorem chain_held_continues (held : ChainHeld runtime format chain disk)
    (creates : createSnapshot runtime (lastIndex chain) call = some created)
    (writes : Writes format call created)
    (unused : call.name ∉ chain.map fun entry => entry.call.name)
    (unusedVolumes : ∀ number, disk.volumes.read (call.name, number) = none) {performed : Nat}
    (late : (operations (lastIndex chain) format call created writes).length ≤ performed) :
    ∃ next, addSnapshot runtime chain call = some next ∧ ChainHeld runtime format next
      (crash disk (operations (lastIndex chain) format call created writes) performed) := by
  obtain ⟨middle, count, data, same, written⟩ := data_operations_run creates unusedVolumes
  let bare : Disk := { volumes := Directory.empty, indexFiles := disk.indexFiles }
  have bareHolds : DiskHolds runtime format chain bare :=
    ⟨held.indexFiles, fun _ _ present => absurd rfl present⟩
  have noIndexFile : middle.indexFiles.read (indexFileName call.name) = none := by
    rw [same]
    exact @unused_index_file _ _ _ bare _ bareHolds unused
  have noHashFile : middle.indexFiles.read (hashFileName call.name) = none := by
    rw [same]
    exact @unused_hash_file _ _ _ bare _ bareHolds unused
  have room : writes.index.length + 1 + (writes.protection.length + 1) ≤
      performed - (dataOperations runtime (lastIndex chain) call).length := by
    simp only [operations, List.length_append, write_file_length] at late
    omega
  obtain ⟨final, run, volumes, files⟩ :=
    serialize_complete noIndexFile noHashFile writes 3 _ room
  have whole : crash disk (operations (lastIndex chain) format call created writes) performed =
      final := by
    rw [crash, operations, List.take_append, List.take_of_length_le (by omega),
      System.run_until_append, data]
    exact run
  have kept : FilesKept disk final := by
    rw [← whole]
    exact operations_keep_files (lastIndex chain) call created writes disk performed
  rw [same] at files
  obtain ⟨next, taken, _, nextHeld⟩ := chain_held_added held kept unused creates writes files
    fun number nonempty => by
      rw [volumes]
      exact data_operations_held creates data number nonempty
  rw [whole]
  exact ⟨next, taken, nextHeld⟩

end Atomic

/-- Atomicity across whole runs: whatever was killed, failed or completed since the
backup was empty, its disk cannot be read in, or it holds exactly the snapshots of
some of the calls, complete, as `AddSnapshot` would have taken them without the others.
In this case a call with a new name that is not killed adds its snapshot. -/
theorem killed_runs_atomic (runtime : Runtime) (format : IndexFormat runtime) (disk : Disk)
    (past : List Call) (ran : Sessions runtime format disks.initial past disk) :
    (∃ fault, readInSnapshots runtime format disk.indexFiles = .error fault) ∨
      ∃ chain, (calls chain).Subperm past ∧
        (backups runtime).Reachable System.anyStep chain ∧
        readInSnapshots runtime format disk.indexFiles =
          .ok (chain.map Entry.snapshot).reverse ∧
        (∀ entry ∈ chain, ∀ number, entry.files number ≠ [] →
          disk.volumes.read (entry.call.name, number) = some (entry.files number)) ∧
        ∀ call created (writes : Writes format call created) performed,
          createSnapshot runtime (lastIndex chain) call = some created →
          call.name ∉ chain.map (fun entry => entry.call.name) →
          (∀ number, disk.volumes.read (call.name, number) = none) →
          (operations (lastIndex chain) format call created writes).length ≤ performed →
            ∃ next, addSnapshot runtime chain call = some next ∧
              readInSnapshots runtime format (crash disk
                (operations (lastIndex chain) format call created writes) performed).indexFiles =
                  .ok (next.map Entry.snapshot).reverse := by
  rcases sessions_atomic ran with failed | ⟨chain, part, reachable, held⟩
  · exact .inl failed
  · refine .inr ⟨chain, part, reachable, read_in_holds held.indexFiles, held.volumes, ?_⟩
    intro call created writes performed creates unused unusedVolumes late
    obtain ⟨next, taken, nextHeld⟩ :=
      chain_held_continues held creates writes unused unusedVolumes late
    exact ⟨next, taken, read_in_holds nextHeld.indexFiles⟩

section Recovery

def volumesOn (disk : Disk) : VolumeContents := fun name number =>
  (disk.volumes.read (name, number)).getD []

theorem intact_kept {runtime : Runtime} {index : BackupNodeIndex} {files more : Nat → Bytes}
    (kept : ∀ number, files number ≠ [] → more number = files number)
    {attributes : BackupNodeAttributes} {content : Bytes}
    (intact : Intact runtime (openForReading files index) attributes content) :
    Intact runtime (openForReading more index) attributes content := by
  have pieces : ∀ block ∈ attributes.blocks,
      block.offset + block.size ≤ (more block.volumeNumber).length ∧
        slice (more block.volumeNumber) block.offset block.size =
          slice (files block.volumeNumber) block.offset block.size := by
    intro block member
    have present : block.offset + block.size ≤ (files block.volumeNumber).length :=
      intact.present block member
    by_cases nothing : files block.volumeNumber = []
    · rw [nothing, List.length_nil] at present
      have noSize : block.size = 0 := by omega
      exact ⟨by omega, by rw [noSize, slice, slice, List.take_zero, List.take_zero]⟩
    · rw [kept _ nothing]
      exact ⟨present, rfl⟩
  have same : storedBytes more attributes.blocks = storedBytes files attributes.blocks :=
    List.flatMap_congr fun block member => (pieces block member).2
  refine ⟨intact.inRange, fun block member => (pieces block member).1, ?_⟩
  intro verify
  have delivers := intact.delivers verify
  simp only [openForReading] at delivers ⊢
  rw [same]
  exact delivers

/-- On the disk of a chain the data of every file and link is intact. -/
theorem located_intact_held {runtime : Runtime} {format : IndexFormat runtime}
    {algorithm : HashAlgorithm} {chain : Chain} {disk : Disk}
    (collisionFree : ∀ algorithm, CollisionFree runtime algorithm)
    (decompresses : Decompresses runtime)
    (reachable : (backups runtime).Reachable (after (Regular algorithm)) chain)
    (held : ChainHeld runtime format chain disk) {entry : Entry} {older : Chain}
    (suffix : entry :: older <:+ chain) {path : Path} {content : Bytes} {node : Nat}
    {attributes : BackupNodeAttributes} {found : DataNode} {dataAttributes : BackupNodeAttributes}
    (located : Located runtime algorithm entry older path content node attributes found
      dataAttributes) :
    Intact runtime (found.snapshot.fileSystem (volumesOn disk)) dataAttributes content := by
  obtain ⟨dataEntry, inChain, same⟩ := data_entry suffix located.nodeEntry located.search
  have intact := located_intact located collisionFree decompresses reachable suffix
  apply intact_kept _ intact
  intro number nonempty
  rw [← same] at nonempty ⊢
  change volumesOf chain dataEntry.call.name number ≠ [] at nonempty
  change volumesOn disk dataEntry.call.name number = volumesOf chain dataEntry.call.name number
  have files := volumes_of_entry (ReadPaths.sorted_reachable reachable) inChain
  rw [files] at nonempty ⊢
  rw [volumesOn, held.volumes dataEntry inChain number nonempty, Option.getD_some]

end Recovery

/-- Recovery after whole runs with killed calls: if the backup can be read in, and the
calls that took effect are a regular history without stale references, then every
snapshot gives back exactly what its source had, from the volume files as they lie on
the disk. -/
theorem killed_runs_recovered (runtime : Runtime) (format : IndexFormat runtime)
    (collisionFree : ∀ algorithm, CollisionFree runtime algorithm)
    (decompresses : Decompresses runtime) (disk : Disk) (past : List Call)
    (ran : Sessions runtime format disks.initial past disk) (snapshots : List Snapshot)
    (loaded : readInSnapshots runtime format disk.indexFiles = .ok snapshots) :
    ∃ chain, (calls chain).Subperm past ∧
      (backups runtime).Reachable System.anyStep chain ∧
      snapshots = (chain.map Entry.snapshot).reverse ∧
      (∀ entry ∈ chain, ∀ number, entry.files number ≠ [] →
        disk.volumes.read (entry.call.name, number) = some (entry.files number)) ∧
      ∀ algorithm, (backups runtime).Reachable (after (Regular algorithm)) chain →
        HistoryCurrent runtime chain → ∀ entry older, entry :: older <:+ chain →
          ∀ path attributes, entry.call.source.index.lookup path = some attributes →
            attributes.type ≠ .directory → ∃ node, entry.index.getNodeIndex path = .ok node ∧
              ∀ outcome, Finishes (readNode runtime algorithm (volumesOn disk) entry.snapshot
                (older.map Entry.snapshot) node) outcome ↔
                  outcome = .ok (entry.call.source.content path) := by
  rcases sessions_atomic ran with ⟨fault, failed⟩ | ⟨chain, part, taken, held⟩
  · rw [loaded] at failed
    cases failed
  · rw [read_in_holds held.indexFiles, Except.ok.injEq] at loaded
    refine ⟨chain, part, taken, loaded.symm, held.volumes, ?_⟩
    intro algorithm reachable current entry older suffix path attributes sourced isContent
    obtain ⟨node, _, _, _, located⟩ := source_located collisionFree reachable current suffix
      sourced isContent
    have intact := located_intact_held collisionFree decompresses reachable held suffix located
    exact ⟨node, (NodeIndex.get_node_index_ok _ _ _).mpr ⟨_, located.nodeEntry⟩,
      located_read located (volumesOn disk) intact⟩

section Killed

def killedBackup : Call := callOf "snapshot_0" [storedFile] (writeSteps storedFile)

def killedDisk : Disk :=
  crash disks.initial (dataOperations spellingRuntime none killedBackup) 3

theorem cut_before_index {runtime : Runtime} {format : IndexFormat runtime} {call : Call}
    {created : Created} (last : Option BackupNodeIndex) (writes : Writes format call created)
    (disk : Disk) {performed : Nat}
    (early : performed ≤ (dataOperations runtime last call).length) :
    crash disk (operations last format call created writes) performed =
      crash disk (dataOperations runtime last call) performed := by
  rw [crash, crash, operations, List.take_append_of_le_length early]

theorem cut_index_files {runtime : Runtime} (last : Option BackupNodeIndex) (call : Call)
    (disk : Disk) (performed : Nat) :
    (crash disk (dataOperations runtime last call) performed).indexFiles = disk.indexFiles := by
  apply index_files_kept
  intro change member
  exact data_operations_volumes runtime last call change (List.mem_of_mem_take member)

theorem killed_ran :
    Sessions spellingRuntime spellingFormat disks.initial [killedBackup] killedDisk := by
  have taken : (createSnapshot spellingRuntime none killedBackup).isSome = true := by
    decide +kernel
  obtain ⟨created, creates⟩ := Option.isSome_iff_exists.mp taken
  have early : 3 ≤ (dataOperations spellingRuntime none killedBackup).length := by decide +kernel
  have loaded : readInSnapshots spellingRuntime spellingFormat disks.initial.indexFiles = .ok [] :=
    read_in_holds (holds_empty spellingFormat)
  have killed : Session spellingRuntime spellingFormat disks.initial killedBackup _ :=
    .added loaded creates (singleWrites killedBackup created) 3
  rw [show newestIndex [] = none from rfl, cut_before_index none _ disks.initial early] at killed
  exact .next .none killed

theorem killed_held : ChainHeld spellingRuntime spellingFormat [] killedDisk := by
  refine ⟨?_, fun entry member => absurd member List.not_mem_nil⟩
  rw [killedDisk, cut_index_files]
  exact holds_empty spellingFormat

theorem killed_volumes (file : String × Nat) (other : file.1 ≠ killedBackup.name) :
    killedDisk.volumes.read file = none := by
  have lying : killedDisk.volumes.names = [("snapshot_0", 0)] := by decide +kernel
  by_contra present
  have listed := (Directory.mem_names _ _).mpr present
  rw [lying, List.mem_singleton] at listed
  exact other (congrArg Prod.fst listed)

theorem killed_then_first :
    ∃ disk entry,
      Sessions spellingRuntime spellingFormat disks.initial [firstBackup, killedBackup] disk ∧
      addSnapshot spellingRuntime [] firstBackup = some [entry] ∧ entry.call = firstBackup ∧
      ChainHeld spellingRuntime spellingFormat [entry] disk ∧
      ∀ number, disk.volumes.read (moveBackup.name, number) = none := by
  have taken : (createSnapshot spellingRuntime none firstBackup).isSome = true := by
    decide +kernel
  obtain ⟨created, creates⟩ := Option.isSome_iff_exists.mp taken
  have unkilled : firstBackup.name ≠ killedBackup.name ∧ moveBackup.name ≠ killedBackup.name ∧
      moveBackup.name ≠ firstBackup.name := by decide
  obtain ⟨next, added, held⟩ := chain_held_continues killed_held creates
    (singleWrites firstBackup created) (by simp) (fun _ => killed_volumes _ unkilled.1) le_rfl
  obtain ⟨entry, made, _, inserted⟩ := add_snapshot_some added
  have alone : next = [entry] := inserted
  subst alone
  refine ⟨_, entry, .next killed_ran (.added (read_in_holds killed_held.indexFiles) creates
    (singleWrites firstBackup created) _), added, made, held, ?_⟩
  intro number
  rw [← killed_volumes (moveBackup.name, number) unkilled.2.1]
  exact volumes_elsewhere
    (creates_first_take (operations_create_first none spellingFormat firstBackup created _) _)
    unkilled.2.2 killedDisk

theorem single_snapshot {chain : Chain} {entry : Entry}
    (same : (chain.map Entry.snapshot).reverse = [entry.snapshot]) :
    ∃ other, chain = [other] ∧ other.snapshot = entry.snapshot := by
  rw [List.reverse_eq_iff, List.reverse_singleton] at same
  obtain ⟨other, alone, snapshot⟩ := List.map_eq_singleton_iff.mp same
  exact ⟨other, alone, snapshot⟩

theorem reachable_single {runtime : Runtime} {entry : Entry}
    (reachable : (backups runtime).Reachable System.anyStep [entry]) :
    addSnapshot runtime [] entry.call = some [entry] := by
  generalize single : [entry] = chain at reachable
  cases reachable with
  | start => cases single
  | @step before _ call _ _ taken =>
      obtain ⟨added, rfl, _, inserted⟩ := add_snapshot_some taken
      have length : before.length = 0 := by
        have both := congrArg List.length (single.trans inserted)
        simpa [insertEntry, List.orderedInsert_length] using both
      rw [List.length_eq_zero_iff] at length
      subst length
      have same : [entry] = [added] := single.trans inserted
      cases same
      exact taken

theorem second_created {entry : Entry}
    (added : addSnapshot spellingRuntime [] firstBackup = some [entry]) :
    ∃ created, createSnapshot spellingRuntime (some entry.index) moveBackup = some created := by
  have outcome : ((addSnapshot spellingRuntime [] firstBackup).bind fun chain =>
      createSnapshot spellingRuntime (lastIndex chain) moveBackup).isSome = true := by
    decide +kernel
  rw [added] at outcome
  exact Option.isSome_iff_exists.mp outcome

theorem killed_call_atomic :
    ∃ disk chain created next,
      Sessions spellingRuntime spellingFormat disks.initial [firstBackup, killedBackup] disk ∧
      chain.length = 1 ∧ (calls chain).Subperm [firstBackup, killedBackup] ∧
      readInSnapshots spellingRuntime spellingFormat disk.indexFiles =
        .ok (chain.map Entry.snapshot).reverse ∧
      createSnapshot spellingRuntime (lastIndex chain) moveBackup = some created ∧
      addSnapshot spellingRuntime chain moveBackup = some next ∧
      readInSnapshots spellingRuntime spellingFormat (crash disk
        (operations (lastIndex chain) spellingFormat moveBackup created
          (singleWrites moveBackup created))
        (operations (lastIndex chain) spellingFormat moveBackup created
          (singleWrites moveBackup created)).length).indexFiles =
            .ok (next.map Entry.snapshot).reverse := by
  obtain ⟨disk, entry, ran, added, made, held, unused⟩ := killed_then_first
  have loaded := read_in_holds held.indexFiles
  rcases killed_runs_atomic spellingRuntime spellingFormat disk _ ran with
    ⟨fault, failed⟩ | ⟨chain, part, _, read, _, further⟩
  · rw [loaded] at failed
    cases failed
  · have same := read
    rw [loaded, Except.ok.injEq] at same
    obtain ⟨other, rfl, snapshot⟩ := single_snapshot same.symm
    have index : other.index = entry.index := congrArg Snapshot.index snapshot
    have name : other.call.name = entry.call.name := congrArg Snapshot.name snapshot
    obtain ⟨created, creates⟩ := second_created added
    rw [← index] at creates
    have new : moveBackup.name ∉ [other].map fun entry => entry.call.name := by
      rw [List.map_singleton, List.mem_singleton, name, made]
      decide
    obtain ⟨next, taken, complete⟩ := further moveBackup created (singleWrites moveBackup created) _
      creates new unused le_rfl
    exact ⟨disk, [other], created, next, ran, rfl, part, read, creates, taken, complete⟩

/-- The file that the first call stored is read from the disk on which the killed call
has left a volume. -/
theorem killed_call_recovered :
    ∃ disk snapshot,
      Sessions spellingRuntime spellingFormat disks.initial [firstBackup, killedBackup] disk ∧
      readInSnapshots spellingRuntime spellingFormat disk.indexFiles = .ok [snapshot] ∧
      ∃ node, snapshot.index.getNodeIndex storedFile.path = .ok node ∧
        ∀ outcome, Finishes (readNode spellingRuntime .md5 (volumesOn disk) snapshot [] node)
          outcome ↔ outcome = .ok [1, 2] := by
  obtain ⟨disk, entry, ran, added, made, held, _⟩ := killed_then_first
  have loaded := read_in_holds held.indexFiles
  obtain ⟨chain, part, reachable, same, _, recovered⟩ := killed_runs_recovered spellingRuntime
    spellingFormat spelling_collision_free spelling_decompresses disk _ ran _ loaded
  obtain ⟨other, rfl, snapshot⟩ := single_snapshot same.symm
  have name : other.call.name = entry.call.name := congrArg Snapshot.name snapshot
  have first : other.call = firstBackup := by
    have among := part.subset (List.mem_singleton_self other.call)
    rw [List.mem_cons, List.mem_singleton] at among
    rcases among with first | killed
    · exact first
    · rw [killed, made] at name
      exact absurd name (by decide)
  have regular : (backups spellingRuntime).Reachable (after (Regular .md5)) [other] := by
    refine .step .start ?_ (reachable_single reachable)
    rw [first]
    refine ⟨?_, rfl, ?_⟩ <;> decide +kernel
  have sourced : other.call.source.index.lookup storedFile.path = some storedFile.attributes := by
    rw [first]
    decide +kernel
  obtain ⟨node, number, reads⟩ := recovered .md5 regular trivial other [] (List.suffix_refl _)
    storedFile.path storedFile.attributes sourced nofun
  have content : other.call.source.content storedFile.path = [1, 2] := by
    rw [first]
    decide +kernel
  rw [content] at reads
  rw [same] at loaded
  exact ⟨disk, other.snapshot, ran, loaded, node, number, reads⟩

end Killed

end ACBackup.CrashRuns
