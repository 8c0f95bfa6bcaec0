import ACBackup.IndexDirectory

/-!
The file operations of `AddSnapshot` in program order, and what a program that is
started later finds when they were cut off at any point.
-/

namespace ACBackup.CrashConsistency

open ACBackup.Library.DocumentText ACBackup.Library.FileDirectory ACBackup.Library.Transition
open ACBackup.Platform ACBackup.NodeAttributes ACBackup.Indexing ACBackup.IndexSerialization
open ACBackup.OpenVolumes ACBackup.SnapshotChain ACBackup.VolumeWriting ACBackup.VolumeInvariant
open ACBackup.SnapshotCreation ACBackup.SnapshotNodes ACBackup.SnapshotManager
open ACBackup.IndexDirectory

set_option autoImplicit false

/-- The volume files by snapshot name and number, and the index directory. -/
structure Disk where
  volumes : Directory (String × Nat) Byte
  indexFiles : IndexFiles

/-- `other` stands for what a `SnapshotManager` does not read: the protection of
files, the data directory and the compression statistics. -/
inductive FileOperation where
  | volume (change : Change (String × Nat) Byte)
  | index (change : Change String Byte)
  | other

def perform (disk : Disk) : FileOperation → Option Disk
  | .volume change =>
      (disk.volumes.apply change).map fun volumes => { disk with volumes := volumes }
  | .index change =>
      (disk.indexFiles.apply change).map fun indexFiles => { disk with indexFiles := indexFiles }
  | .other => some disk

def disks : System Disk FileOperation where
  initial := { volumes := Directory.empty, indexFiles := Directory.empty }
  step := perform

section Operations

/-- A step of a writer touches a file when it creates a volume or writes to one. -/
def stepOperations (name : String) (state : WriteState) : WriteLabel → List FileOperation
  | .findStream writer =>
      if findOwned writer state.openVolumes = none ∧ claimFree writer state.openVolumes = none then
        [.other, .volume (.create (name, state.nextVolumeNumber))]
      else []
  | .writeVolume writer nBytesWritten =>
      match state.writers writer with
      | .positioned source number _ _ =>
          [.volume (.extend (name, number) (source.take nBytesWritten))]
      | _ => []
  | _ => []

def writeOperations (volumeSize : UInt64) (name : String) :
    WriteState → List WriteLabel → List FileOperation
  | _, [] => []
  | state, label :: rest =>
      stepOperations name state label ++
        match step volumeSize state label with
        | none => []
        | some next => writeOperations volumeSize name next rest

/-- What happens before the index is serialised. -/
def dataOperations (runtime : Runtime) (last : Option BackupNodeIndex) (call : Call) :
    List FileOperation :=
  [.other] ++
    (match planSnapshot runtime last call with
      | .error _ => []
      | .ok planned =>
          writeOperations call.volumeSize call.name (openFileSystem (addPlanned planned))
            call.volumeSteps) ++
    [.other, .other]

/-- The same of a call that does not come so far: it raises at some node or hangs, and
its writers have taken some of their steps by then, over the index that they had. -/
def failedOperations (call : Call) (index : BackupNodeIndex) (labels : List WriteLabel) :
    List FileOperation :=
  .other :: writeOperations call.volumeSize call.name (openFileSystem index) labels

def writeFile (file : String) (writes : List Bytes) : List FileOperation :=
  .index (.create file) :: writes.map fun bytes => .index (.extend file bytes)

variable {runtime : Runtime}

def indexText (format : IndexFormat runtime) (created : Created) : Bytes :=
  format.encodeXml (serializeIndex created.index)

def protection (format : IndexFormat runtime) (call : Call) (created : Created) :
    HashAlgorithmAndValue where
  hashAlgorithm := call.hashAlgorithm
  hashValue := runtime.hash call.hashAlgorithm (indexText format created)

/-- How the two index files are cut into writes. A write takes at least one byte. -/
structure Writes (format : IndexFormat runtime) (call : Call) (created : Created) where
  index : List Bytes
  protection : List Bytes
  index_complete : index.flatten =
    runtime.compress call.maxCompressionLevel (indexText format created)
  protection_complete : protection.flatten =
    format.encodeProtection (CrashConsistency.protection format call created)
  protection_nonempty : ∀ bytes ∈ protection, bytes ≠ []

/-- The operations of `AddSnapshot`; `Serialize` writes the index file and then
its hash file. -/
def operations (last : Option BackupNodeIndex) (format : IndexFormat runtime) (call : Call)
    (created : Created) (writes : Writes format call created) : List FileOperation :=
  dataOperations runtime last call ++
    (writeFile (indexFileName call.name) writes.index ++
      (writeFile (hashFileName call.name) writes.protection ++ List.replicate 3 .other))

/-- The disk after a number of operations; one that fails ends the call as well. -/
def crash (disk : Disk) (list : List FileOperation) (performed : Nat) : Disk :=
  disks.runUntil disk (list.take performed)

end Operations

section Volumes

variable {volumeSize : UInt64} {name : String} {base : Directory (String × Nat) Byte}

structure VolumesWritten (name : String) (base : Directory (String × Nat) Byte) (count : Nat)
    (files : Nat → Bytes) (volumes : Directory (String × Nat) Byte) : Prop where
  written : ∀ number, volumes.read (name, number) =
    if number < count then some (files number) else none
  untouched : ∀ number, count ≤ number → files number = []
  others : ∀ file, file.1 ≠ name → volumes.read file = base.read file

theorem volumes_written_create {count : Nat} {files : Nat → Bytes}
    {volumes : Directory (String × Nat) Byte}
    (written : VolumesWritten name base count files volumes) :
    ∃ next, volumes.create (name, count) = some next ∧
      VolumesWritten name base (count + 1) (Function.update files count []) next := by
  have fresh : volumes.read (name, count) = none := by
    rw [written.written, if_neg (Nat.lt_irrefl _)]
  obtain ⟨next, created, read⟩ := Directory.create_fresh fresh
  refine ⟨next, created, ?_, ?_, ?_⟩
  · intro number
    rw [read]
    by_cases same : number = count
    · subst same
      simp
    · rw [Function.update_of_ne (by simpa using same), written.written,
        Function.update_of_ne same]
      by_cases below : number < count
      · rw [if_pos below, if_pos (Nat.lt_succ_of_lt below)]
      · rw [if_neg below, if_neg (by omega)]
  · intro number above
    rw [Function.update_of_ne (by omega)]
    exact written.untouched number (by omega)
  · intro file different
    rw [← written.others file different, read]
    apply Function.update_of_ne
    rintro rfl
    exact different rfl

theorem volumes_written_extend {count number : Nat} {files : Nat → Bytes}
    {volumes : Directory (String × Nat) Byte}
    (written : VolumesWritten name base count files volumes) (below : number < count)
    (bytes : Bytes) :
    ∃ next, volumes.extend (name, number) bytes = some next ∧
      VolumesWritten name base count (Function.update files number (files number ++ bytes))
        next := by
  have present : volumes.read (name, number) = some (files number) := by
    rw [written.written, if_pos below]
  obtain ⟨next, extended, read⟩ := @Directory.extend_present _ _ _ _ _ _ bytes present
  refine ⟨next, extended, ?_, ?_, ?_⟩
  · intro other
    rw [read]
    by_cases same : other = number
    · subst same
      rw [Function.update_self, Function.update_self, if_pos below]
    · rw [Function.update_of_ne (by simpa using same), written.written,
        Function.update_of_ne same]
  · intro other above
    rw [Function.update_of_ne (by omega)]
    exact written.untouched other above
  · intro file different
    rw [← written.others file different, read]
    apply Function.update_of_ne
    rintro rfl
    exact different rfl

theorem positioned_numbered {state : WriteState} (consistent : Consistent state) {writer : Path}
    {source : Bytes} {number offset : Nat} {leftSize : UInt64}
    (positioned : state.writers writer = .positioned source number leftSize offset) :
    number < state.nextVolumeNumber := by
  have stream := (consistent.writer writer).stream
  rw [positioned] at stream
  exact consistent.numbered _ stream.1

/-- The operations of a step succeed and do to the volumes what the step says. -/
theorem step_operations_run {state next : WriteState} {label : WriteLabel}
    (consistent : Consistent state) (taken : step volumeSize state label = some next) {disk : Disk}
    (written : VolumesWritten name base state.nextVolumeNumber state.files disk.volumes) :
    ∃ after, disks.run disk (stepOperations name state label) = some after ∧
      VolumesWritten name base next.nextVolumeNumber next.files after.volumes ∧
      after.indexFiles = disk.indexFiles := by
  cases label with
  | createFile path =>
      obtain ⟨_, _, rfl⟩ := step_create_file taken
      exact ⟨disk, rfl, written, rfl⟩
  | beginWrite writer source =>
      obtain ⟨_, _, rfl⟩ := step_begin_write taken
      exact ⟨disk, rfl, written, rfl⟩
  | findStream writer =>
      obtain ⟨source, _, _, rfl⟩ := step_find_stream taken
      cases owned : findOwned writer state.openVolumes with
      | some volume =>
          simp only [stepOperations, findStream, owned, WriteState.setPhase, reduceCtorEq,
            false_and, if_false]
          exact ⟨disk, rfl, written, rfl⟩
      | none =>
          cases claimed : claimFree writer state.openVolumes with
          | some volume =>
              simp only [stepOperations, findStream, owned, claimed, WriteState.setPhase,
                reduceCtorEq, and_false, if_false]
              exact ⟨disk, rfl, written, rfl⟩
          | none =>
              simp only [stepOperations, findStream, owned, claimed, WriteState.setPhase,
                and_self, if_true]
              obtain ⟨volumes, created, more⟩ := volumes_written_create written
              refine ⟨{ disk with volumes := volumes }, ?_, more, rfl⟩
              simp only [System.run, disks, perform, Directory.apply, created, Option.map_some]
  | queryOffset writer =>
      obtain ⟨_, _, _, _, rfl⟩ := step_query_offset taken
      exact ⟨disk, rfl, written, rfl⟩
  | writeVolume writer nBytesWritten =>
      obtain ⟨source, number, leftSize, offset, positioned, _, rfl⟩ := step_write_volume taken
      obtain ⟨volumes, extended, more⟩ := volumes_written_extend written
        (positioned_numbered consistent positioned) (source.take nBytesWritten)
      refine ⟨{ disk with volumes := volumes }, ?_, more, rfl⟩
      simp only [stepOperations, positioned, System.run, disks, perform, Directory.apply, extended,
        Option.map_some]
  | bytesWereWritten writer =>
      obtain ⟨source, number, offset, nBytesWritten, recorded, _, outcome, rfl⟩ :=
        step_bytes_were_written taken
      obtain ⟨_, _, rfl⟩ := bytes_were_written_keeps outcome
      exact ⟨disk, rfl, written, rfl⟩
  | finishWrite writer =>
      obtain ⟨_, rfl⟩ := step_finish_write taken
      exact ⟨disk, rfl, written, rfl⟩
  | closeFile writer =>
      obtain ⟨_, rfl⟩ := step_close_file taken
      exact ⟨disk, rfl, written, rfl⟩

theorem write_operations_run (labels : List WriteLabel) {index : BackupNodeIndex}
    {state final : WriteState} (consistent : Consistent state)
    (run : (writing volumeSize index).run state labels = some final) {disk : Disk}
    (written : VolumesWritten name base state.nextVolumeNumber state.files disk.volumes) :
    ∃ after, disks.run disk (writeOperations volumeSize name state labels) = some after ∧
      VolumesWritten name base final.nextVolumeNumber final.files after.volumes ∧
      after.indexFiles = disk.indexFiles := by
  induction labels generalizing state disk with
  | nil =>
      simp only [System.run, Option.some.injEq] at run
      subst run
      exact ⟨disk, rfl, written, rfl⟩
  | cons label rest induction =>
      obtain ⟨next, (taken : step volumeSize state label = some next), later⟩ :=
        System.run_cons_some run
      obtain ⟨middle, first, middleWritten, middleFiles⟩ :=
        step_operations_run consistent taken written
      obtain ⟨after, second, afterWritten, afterFiles⟩ :=
        induction (consistent_step consistent taken) later middleWritten
      refine ⟨after, ?_, afterWritten, afterFiles.trans middleFiles⟩
      simp only [writeOperations, taken, System.run_append, first, Option.bind_some, second]

theorem data_operations_run {runtime : Runtime} {last : Option BackupNodeIndex} {call : Call}
    {created : Created} (run : createSnapshot runtime last call = some created) {disk : Disk}
    (unused : ∀ number, disk.volumes.read (call.name, number) = none) :
    ∃ after count, disks.run disk (dataOperations runtime last call) = some after ∧
      after.indexFiles = disk.indexFiles ∧
      VolumesWritten call.name disk.volumes count created.files after.volumes := by
  obtain ⟨planned, state, plan, writes, _, _, files⟩ := create_snapshot_some run
  have start : VolumesWritten call.name disk.volumes
      (openFileSystem (addPlanned planned)).nextVolumeNumber
      (openFileSystem (addPlanned planned)).files disk.volumes := by
    refine ⟨?_, fun _ _ => rfl, fun _ _ => rfl⟩
    intro number
    rw [unused number]
    exact (if_neg (Nat.not_lt_zero number)).symm
  obtain ⟨after, data, written, indexFiles⟩ :=
    write_operations_run call.volumeSteps (consistent_open _) writes start
  rw [← files] at written
  have opening : disks.run disk [.other] = some disk := rfl
  have closing : disks.run after [.other, .other] = some after := rfl
  refine ⟨after, _, ?_, indexFiles, written⟩
  simp only [dataOperations, plan, System.run_append, opening, closing, data, Option.bind_some]

end Volumes

section Kept

/-- Volumes are created in the order of their numbers, and only those are written
to. -/
def CreatesFirst (name : String) : Nat → List FileOperation → Prop
  | _, [] => True
  | count, .volume (.create file) :: rest =>
      file = (name, count) ∧ CreatesFirst name (count + 1) rest
  | count, .volume (.extend file _) :: rest =>
      (file.1 = name ∧ file.2 < count) ∧ CreatesFirst name count rest
  | count, .index _ :: rest => CreatesFirst name count rest
  | count, .other :: rest => CreatesFirst name count rest

variable {name : String}

theorem creates_first_take {list : List FileOperation} {count : Nat}
    (first : CreatesFirst name count list) (length : Nat) :
    CreatesFirst name count (list.take length) := by
  induction list generalizing count length with
  | nil =>
      rw [List.take_nil]
      trivial
  | cons operation rest induction =>
      cases length with
      | zero => trivial
      | succ length =>
          rw [List.take_succ_cons]
          cases operation with
          | volume change =>
              cases change with
              | create file => exact ⟨first.1, induction first.2 length⟩
              | extend file bytes => exact ⟨first.1, induction first.2 length⟩
          | index change => exact induction first length
          | other => exact induction first length

theorem step_creates_first {volumeSize : UInt64} {state : WriteState}
    (consistent : Consistent state) (label : WriteLabel) {rest : List FileOperation}
    (later : ∀ count,
      (∀ next, step volumeSize state label = some next → count = next.nextVolumeNumber) →
        CreatesFirst name count rest) :
    CreatesFirst name state.nextVolumeNumber (stepOperations name state label ++ rest) := by
  cases label with
  | createFile path =>
      apply later
      intro next taken
      obtain ⟨_, _, rfl⟩ := step_create_file taken
      rfl
  | beginWrite writer source =>
      apply later
      intro next taken
      obtain ⟨_, _, rfl⟩ := step_begin_write taken
      rfl
  | findStream writer =>
      cases owned : findOwned writer state.openVolumes with
      | some volume =>
          simp only [stepOperations, owned, reduceCtorEq, false_and, if_false, List.nil_append]
          apply later
          intro next taken
          obtain ⟨_, _, _, rfl⟩ := step_find_stream taken
          simp only [findStream, owned, WriteState.setPhase]
      | none =>
          cases claimed : claimFree writer state.openVolumes with
          | some volume =>
              simp only [stepOperations, claimed, reduceCtorEq, and_false, if_false,
                List.nil_append]
              apply later
              intro next taken
              obtain ⟨_, _, _, rfl⟩ := step_find_stream taken
              simp only [findStream, owned, claimed, WriteState.setPhase]
          | none =>
              simp only [stepOperations, owned, claimed, and_self, if_true]
              refine ⟨rfl, ?_⟩
              apply later
              intro next taken
              obtain ⟨_, _, _, rfl⟩ := step_find_stream taken
              simp only [findStream, owned, claimed, WriteState.setPhase]
  | queryOffset writer =>
      apply later
      intro next taken
      obtain ⟨_, _, _, _, rfl⟩ := step_query_offset taken
      rfl
  | writeVolume writer nBytesWritten =>
      have kept : CreatesFirst name state.nextVolumeNumber rest := by
        apply later
        intro next taken
        obtain ⟨_, _, _, _, _, _, rfl⟩ := step_write_volume taken
        rfl
      cases phase : state.writers writer with
      | positioned source number leftSize offset =>
          simp only [stepOperations, phase]
          exact ⟨⟨rfl, positioned_numbered consistent phase⟩, kept⟩
      | _ =>
          simp only [stepOperations, phase]
          exact kept
  | bytesWereWritten writer =>
      apply later
      intro next taken
      obtain ⟨_, _, _, _, recorded, _, outcome, rfl⟩ := step_bytes_were_written taken
      obtain ⟨_, _, rfl⟩ := bytes_were_written_keeps outcome
      rfl
  | finishWrite writer =>
      apply later
      intro next taken
      obtain ⟨_, rfl⟩ := step_finish_write taken
      rfl
  | closeFile writer =>
      apply later
      intro next taken
      obtain ⟨_, rfl⟩ := step_close_file taken
      rfl

theorem write_creates_first {volumeSize : UInt64} (labels : List WriteLabel) {state : WriteState}
    (consistent : Consistent state) {rest : List FileOperation}
    (later : ∀ count, CreatesFirst name count rest) :
    CreatesFirst name state.nextVolumeNumber
      (writeOperations volumeSize name state labels ++ rest) := by
  induction labels generalizing state with
  | nil => exact later _
  | cons label labels induction =>
      rw [writeOperations, List.append_assoc]
      apply step_creates_first consistent
      intro count known
      cases taken : step volumeSize state label with
      | none => exact later count
      | some next =>
          rw [known next taken]
          exact induction (consistent_step consistent taken)

theorem write_file_creates_first (file : String) (writes : List Bytes)
    {rest : List FileOperation} (later : ∀ count, CreatesFirst name count rest) (count : Nat) :
    CreatesFirst name count (writeFile file writes ++ rest) := by
  have appended : CreatesFirst name count
      ((writes.map fun bytes => FileOperation.index (.extend file bytes)) ++ rest) := by
    induction writes with
    | nil => exact later count
    | cons bytes writes induction => exact induction
  exact appended

theorem operations_create_first {runtime : Runtime} (last : Option BackupNodeIndex)
    (format : IndexFormat runtime) (call : Call) (created : Created)
    (writes : Writes format call created) :
    CreatesFirst call.name 0 (operations last format call created writes) := by
  have serialization : ∀ count, CreatesFirst call.name count
      ([.other, .other] ++ (writeFile (indexFileName call.name) writes.index ++
        (writeFile (hashFileName call.name) writes.protection ++
          List.replicate 3 .other))) := by
    apply write_file_creates_first
    apply write_file_creates_first
    intro count
    trivial
  unfold operations dataOperations
  cases planSnapshot runtime last call with
  | error fault => exact serialization 0
  | ok planned =>
      simp only [List.append_assoc]
      exact write_creates_first call.volumeSteps (consistent_open _) serialization

theorem failed_operations_create_first (call : Call) (index : BackupNodeIndex)
    (labels : List WriteLabel) :
    CreatesFirst call.name 0 (failedOperations call index labels) := by
  have first : CreatesFirst call.name 0
      (writeOperations call.volumeSize call.name (openFileSystem index) labels ++ []) :=
    write_creates_first labels (consistent_open index) fun _ => trivial
  rw [List.append_nil] at first
  exact first

theorem volumes_kept {list : List FileOperation} {count : Nat}
    (first : CreatesFirst name count list) {base : Directory (String × Nat) Byte}
    (new : ∀ number < count, base.read (name, number) = none) {disk : Disk}
    (kept : ∀ file content, base.read file = some content →
      disk.volumes.read file = some content) (file : String × Nat) (content : Bytes)
    (present : base.read file = some content) :
    (disks.runUntil disk list).volumes.read file = some content := by
  induction list generalizing count disk with
  | nil => exact kept file content present
  | cons operation rest induction =>
      cases taken : perform disk operation with
      | none =>
          simp only [System.runUntil, disks, taken]
          exact kept file content present
      | some next =>
          simp only [System.runUntil, disks, taken]
          cases operation with
          | volume change =>
              obtain ⟨volumes, changed, rfl⟩ := Option.map_eq_some_iff.mp taken
              cases change with
              | create created =>
                  obtain ⟨rfl, later⟩ := first
                  obtain ⟨fresh, read⟩ := Directory.read_create changed
                  have unknown : base.read (name, count) = none := by
                    by_contra known
                    obtain ⟨old, found⟩ := Option.ne_none_iff_exists'.mp known
                    rw [kept _ old found] at fresh
                    cases fresh
                  apply induction later
                  · intro number below
                    rcases Nat.lt_succ_iff_lt_or_eq.mp below with before | rfl
                    · exact new number before
                    · exact unknown
                  · intro other old found
                    have different : other ≠ (name, count) := by
                      rintro rfl
                      rw [unknown] at found
                      cases found
                    simp only [read, Function.update_of_ne different]
                    exact kept other old found
              | extend written bytes =>
                  obtain ⟨⟨rfl, below⟩, later⟩ := first
                  obtain ⟨_, _, read⟩ := Directory.read_extend changed
                  apply induction later new
                  intro other old found
                  have different : other ≠ written := by
                    rintro rfl
                    rw [new other.2 below] at found
                    cases found
                  simp only [read, Function.update_of_ne different]
                  exact kept other old found
          | index change =>
              obtain ⟨indexFiles, _, rfl⟩ := Option.map_eq_some_iff.mp taken
              exact induction first new kept
          | other =>
              cases taken
              exact induction first new kept

theorem volumes_elsewhere {list : List FileOperation} {count : Nat}
    (first : CreatesFirst name count list) {file : String × Nat} (elsewhere : file.1 ≠ name)
    (disk : Disk) : (disks.runUntil disk list).volumes.read file = disk.volumes.read file := by
  induction list generalizing count disk with
  | nil => rfl
  | cons operation rest induction =>
      cases taken : perform disk operation with
      | none => simp only [System.runUntil, disks, taken]
      | some next =>
          simp only [System.runUntil, disks, taken]
          cases operation with
          | volume change =>
              obtain ⟨volumes, changed, rfl⟩ := Option.map_eq_some_iff.mp taken
              cases change with
              | create created =>
                  obtain ⟨rfl, later⟩ := first
                  refine (induction later _).trans ?_
                  simp only [(Directory.read_create changed).2]
                  apply Function.update_of_ne
                  rintro rfl
                  exact elsewhere rfl
              | extend written bytes =>
                  obtain ⟨⟨rfl, _⟩, later⟩ := first
                  obtain ⟨_, _, read⟩ := Directory.read_extend changed
                  refine (induction later _).trans ?_
                  simp only [read]
                  apply Function.update_of_ne
                  rintro rfl
                  exact elsewhere rfl
          | index change =>
              obtain ⟨indexFiles, _, rfl⟩ := Option.map_eq_some_iff.mp taken
              exact induction first _
          | other =>
              cases taken
              exact induction first _

end Kept

section IndexFiles

theorem step_operations_volumes (name : String) (state : WriteState) (label : WriteLabel)
    (change : Change String Byte) : FileOperation.index change ∉ stepOperations name state label := by
  intro member
  cases label with
  | findStream writer =>
      simp only [stepOperations] at member
      split at member <;> simp at member
  | writeVolume writer nBytesWritten =>
      simp only [stepOperations] at member
      split at member <;> simp at member
  | _ => cases member

theorem write_operations_volumes (volumeSize : UInt64) (name : String) (labels : List WriteLabel)
    (state : WriteState) (change : Change String Byte) :
    FileOperation.index change ∉ writeOperations volumeSize name state labels := by
  induction labels generalizing state with
  | nil => exact List.not_mem_nil
  | cons label rest induction =>
      rw [writeOperations, List.mem_append]
      rintro (here | later)
      · exact step_operations_volumes name state label change here
      · cases taken : step volumeSize state label with
        | none => simp [taken] at later
        | some next =>
            simp only [taken] at later
            exact induction next later

theorem data_operations_volumes (runtime : Runtime) (last : Option BackupNodeIndex) (call : Call)
    (change : Change String Byte) :
    FileOperation.index change ∉ dataOperations runtime last call := by
  unfold dataOperations
  cases planSnapshot runtime last call with
  | error fault => simp
  | ok planned => simpa using write_operations_volumes _ _ _ _ change

theorem failed_operations_volumes (call : Call) (index : BackupNodeIndex)
    (labels : List WriteLabel) (change : Change String Byte) :
    FileOperation.index change ∉ failedOperations call index labels := by
  simpa [failedOperations] using write_operations_volumes _ _ _ _ change

theorem index_files_kept {list : List FileOperation}
    (elsewhere : ∀ change, FileOperation.index change ∉ list) (disk : Disk) :
    (disks.runUntil disk list).indexFiles = disk.indexFiles := by
  refine @System.run_until_invariant _ _ disks (fun state => state.indexFiles = disk.indexFiles)
    list ?_ disk rfl
  intro operation member state next taken kept
  cases operation with
  | volume change =>
      obtain ⟨volumes, _, rfl⟩ := Option.map_eq_some_iff.mp taken
      exact kept
  | index change => exact absurd member (elsewhere change)
  | other =>
      cases taken
      exact kept

theorem others_run (disk : Disk) (count : Nat) :
    disks.run disk (List.replicate count .other) = some disk := by
  induction count with
  | zero => rfl
  | succ count induction =>
      rw [List.replicate_succ]
      exact induction

theorem extend_run {disk : Disk} {file : String} {content : Bytes}
    (present : disk.indexFiles.read file = some content) (writes : List Bytes) :
    ∃ after, disks.run disk (writes.map fun bytes => FileOperation.index (.extend file bytes)) =
        some after ∧ after.volumes = disk.volumes ∧
      after.indexFiles.read =
        Function.update disk.indexFiles.read file (some (content ++ writes.flatten)) := by
  induction writes generalizing disk content with
  | nil =>
      refine ⟨disk, rfl, rfl, ?_⟩
      rw [List.flatten_nil, List.append_nil, ← present, Function.update_eq_self]
  | cons bytes writes induction =>
      obtain ⟨indexFiles, extended, read⟩ := @Directory.extend_present _ _ _ _ _ _ bytes present
      have written : ({ disk with indexFiles := indexFiles } : Disk).indexFiles.read file =
          some (content ++ bytes) := by
        simp only [read, Function.update_self]
      obtain ⟨after, run, volumes, final⟩ := induction written
      refine ⟨after, ?_, volumes, ?_⟩
      · have first : perform disk (.index (.extend file bytes)) =
            some { disk with indexFiles := indexFiles } := by
          simp only [perform, Directory.apply, extended, Option.map_some]
        simp only [List.map_cons, System.run, disks, first]
        exact run
      · rw [final]
        simp only [read, Function.update_idem, List.flatten_cons, List.append_assoc]

theorem write_file_run {disk : Disk} {file : String} (absent : disk.indexFiles.read file = none)
    (writes : List Bytes) :
    ∃ after, disks.run disk (writeFile file writes) = some after ∧
      after.volumes = disk.volumes ∧
      after.indexFiles.read = Function.update disk.indexFiles.read file (some writes.flatten) := by
  obtain ⟨indexFiles, created, read⟩ := Directory.create_fresh absent
  have empty : ({ disk with indexFiles := indexFiles } : Disk).indexFiles.read file = some [] := by
    simp only [read, Function.update_self]
  obtain ⟨after, run, volumes, final⟩ := extend_run empty writes
  refine ⟨after, ?_, volumes, ?_⟩
  · have first : perform disk (.index (.create file)) =
        some { disk with indexFiles := indexFiles } := by
      simp only [perform, Directory.apply, created, Option.map_some]
    simp only [writeFile, System.run, disks, first]
    exact run
  · rw [final]
    simp only [read, Function.update_idem, List.nil_append]

theorem write_file_length (file : String) (writes : List Bytes) :
    (writeFile file writes).length = writes.length + 1 := by
  rw [writeFile, List.length_cons, List.length_map]

theorem write_file_take (file : String) (writes : List Bytes) (count : Nat) :
    (writeFile file writes).take (count + 1) = writeFile file (writes.take count) := by
  simp only [writeFile, List.take_succ_cons, List.map_take]

theorem write_file_cut (file : String) {writes : List Bytes} {count : Nat}
    (inside : count ≤ writes.length) (rest : List FileOperation) :
    (writeFile file writes ++ rest).take (count + 1) = writeFile file (writes.take count) := by
  rw [List.take_append_of_le_length, write_file_take]
  rw [write_file_length]
  exact Nat.succ_le_succ inside

theorem write_file_passed (file : String) (writes : List Bytes) (rest : List FileOperation)
    (count : Nat) :
    (writeFile file writes ++ rest).take (writes.length + 1 + count) =
      writeFile file writes ++ rest.take count := by
  rw [← write_file_length file writes]
  exact List.take_length_add_append count

theorem write_file_present {disk : Disk} {file : String} {content : Bytes}
    (present : disk.indexFiles.read file = some content) (writes : List Bytes)
    (rest : List FileOperation) (count : Nat) :
    disks.runUntil disk ((writeFile file writes ++ rest).take count) = disk := by
  cases count with
  | zero => rfl
  | succ count =>
      have refused : perform disk (.index (.create file)) = none := by
        simp only [perform, Directory.apply, Option.map_eq_none_iff]
        apply Directory.create_present
        rw [present]
        exact Option.some_ne_none content
      simp only [writeFile, List.cons_append, List.take_succ_cons, System.runUntil, disks, refused]

theorem flatten_take_incomplete {writes : List Bytes} (nonempty : ∀ bytes ∈ writes, bytes ≠ [])
    {count : Nat} (incomplete : count < writes.length) :
    (writes.take count).flatten <+: writes.flatten ∧
      (writes.take count).flatten ≠ writes.flatten := by
  have parts : writes.flatten = (writes.take count).flatten ++ (writes.drop count).flatten := by
    rw [← List.flatten_append, List.take_append_drop]
  refine ⟨⟨_, parts.symm⟩, ?_⟩
  intro same
  have nothing : (writes.drop count).flatten = [] := by
    rw [← same] at parts
    simpa using parts.symm
  rw [List.drop_eq_getElem_cons incomplete, List.flatten_cons, List.append_eq_nil_iff] at nothing
  exact nonempty _ (List.getElem_mem incomplete) nothing.1

end IndexFiles

section Calls

variable {runtime : Runtime} {format : IndexFormat runtime} {chain : Chain} {disk : Disk}
  {call : Call} {created : Created}

def newEntry (call : Call) (created : Created) : Entry where
  call := call
  index := created.index.mapAttributes reloaded
  files := created.files

structure DiskHolds (runtime : Runtime) (format : IndexFormat runtime) (chain : Chain)
    (disk : Disk) : Prop where
  indexFiles : Holds runtime format chain disk.indexFiles
  volumes : ∀ name number, disk.volumes.read (name, number) ≠ none →
    name ∈ chain.map fun entry => entry.call.name

theorem unused_volumes (holds : DiskHolds runtime format chain disk)
    (unused : call.name ∉ chain.map fun entry => entry.call.name) (number : Nat) :
    disk.volumes.read (call.name, number) = none := by
  by_contra present
  exact unused (holds.volumes call.name number present)

theorem unused_index_file (holds : DiskHolds runtime format chain disk)
    (unused : call.name ∉ chain.map fun entry => entry.call.name) :
    disk.indexFiles.read (indexFileName call.name) = none := by
  by_contra present
  obtain ⟨entry, member, same⟩ := (holds.indexFiles.files _).mp present
  rcases same with indexFile | hashFile
  · exact unused (List.mem_map.mpr ⟨entry, member, (index_file_name_injective indexFile).symm⟩)
  · exact hash_file_not_index _ _ hashFile.symm

theorem unused_hash_file (holds : DiskHolds runtime format chain disk)
    (unused : call.name ∉ chain.map fun entry => entry.call.name) :
    disk.indexFiles.read (hashFileName call.name) = none := by
  by_contra present
  obtain ⟨entry, member, same⟩ := (holds.indexFiles.files _).mp present
  rcases same with indexFile | hashFile
  · exact hash_file_not_index _ _ indexFile
  · exact unused (List.mem_map.mpr ⟨entry, member, (hash_file_name_injective hashFile).symm⟩)

theorem used_index_file (holds : DiskHolds runtime format chain disk)
    (used : call.name ∈ chain.map fun entry => entry.call.name) :
    ∃ content, disk.indexFiles.read (indexFileName call.name) = some content := by
  obtain ⟨entry, member, same⟩ := List.mem_map.mp used
  apply Option.ne_none_iff_exists'.mp
  exact (holds.indexFiles.files _).mpr ⟨entry, member, .inl (by rw [same])⟩

/-- A call whose name is new and whose files are written completely adds its
snapshot to the chain. -/
theorem complete_run (holds : DiskHolds runtime format chain disk)
    (unused : call.name ∉ chain.map fun entry => entry.call.name)
    (run : createSnapshot runtime (lastIndex chain) call = some created)
    (writes : Writes format call created) (others : Nat) :
    ∃ after, disks.run disk (dataOperations runtime (lastIndex chain) call ++
          (writeFile (indexFileName call.name) writes.index ++
            (writeFile (hashFileName call.name) writes.protection ++
              List.replicate others .other))) = some after ∧
      DiskHolds runtime format (insertEntry (newEntry call created) chain) after ∧
      ∀ number, (after.volumes.read (call.name, number)).getD [] = created.files number := by
  obtain ⟨stored, count, data, same, written⟩ :=
    data_operations_run run (unused_volumes holds unused)
  have noIndexFile : stored.indexFiles.read (indexFileName call.name) = none := by
    rw [same]
    exact unused_index_file holds unused
  obtain ⟨indexed, indexRun, indexVolumes, indexRead⟩ := write_file_run noIndexFile writes.index
  have noHashFile : indexed.indexFiles.read (hashFileName call.name) = none := by
    rw [indexRead, Function.update_of_ne (hash_file_not_index _ _), same]
    exact unused_hash_file holds unused
  obtain ⟨after, hashRun, hashVolumes, hashRead⟩ := write_file_run noHashFile writes.protection
  rw [indexRead, same] at hashRead
  have volumes : after.volumes = stored.volumes := hashVolumes.trans indexVolumes
  refine ⟨after, ?_, ⟨?_, ?_⟩, ?_⟩
  · simp only [System.run_append, data, indexRun, hashRun, others_run, Option.bind_some]
  · have readable : deserialize runtime format after.indexFiles (indexFileName call.name) =
        .ok (some (newEntry call created).snapshot) := by
      apply deserialize_stored
      · rw [hashRead, Function.update_of_ne (hash_file_not_index _ _).symm, Function.update_self,
          writes.index_complete]
        rfl
      · rw [hashRead, Function.update_self, writes.protection_complete]
        rfl
    exact holds_insert holds.indexFiles unused hashRead readable
  · intro name number present
    rw [volumes] at present
    by_cases new : name = call.name
    · subst new
      exact List.mem_map.mpr
        ⟨newEntry call created, (mem_insert_entry _ _ _).mpr (.inl rfl), rfl⟩
    · rw [written.others (name, number) new] at present
      obtain ⟨entry, member, known⟩ := List.mem_map.mp (holds.volumes name number present)
      exact List.mem_map.mpr ⟨entry, (mem_insert_entry _ _ _).mpr (.inr member), known⟩
  · intro number
    rw [volumes, written.written]
    by_cases below : number < count
    · rw [if_pos below, Option.getD_some]
    · rw [if_neg below, Option.getD_none, written.untouched number (Nat.le_of_not_lt below)]

/-- The disks that complete calls leave, with the chains that were read in. -/
inductive Stored (runtime : Runtime) (format : IndexFormat runtime) : Chain → Disk → Prop
  | start : Stored runtime format [] disks.initial
  | add {chain next : Chain} {disk : Disk} {call : Call} {created : Created}
      (before : Stored runtime format chain disk)
      (taken : addSnapshot runtime chain call = some next)
      (run : createSnapshot runtime (lastIndex chain) call = some created)
      (writes : Writes format call created) :
      Stored runtime format next
        (disks.runUntil disk (operations (lastIndex chain) format call created writes))

theorem stored_disk_holds (stored : Stored runtime format chain disk) :
    DiskHolds runtime format chain disk := by
  induction stored with
  | start =>
      refine ⟨holds_empty format, ?_⟩
      intro name number present
      exact absurd rfl present
  | @add chain next disk call created before taken run writes induction =>
      have unused : call.name ∉ chain.map fun entry => entry.call.name := by
        intro used
        rw [addSnapshot, if_pos used] at taken
        cases taken
      have added : next = insertEntry (newEntry call created) chain := by
        simp only [addSnapshot, if_neg unused, run, deserialize_index_serialize,
          Option.some.injEq] at taken
        exact taken.symm
      obtain ⟨after, complete, holds, _⟩ := complete_run induction unused run writes 3
      rw [operations, System.run_until_of_run complete, added]
      exact holds

end Calls

section Crash

variable {runtime : Runtime} {format : IndexFormat runtime} {chain : Chain} {disk : Disk}
  {call : Call} {created : Created}

def indexCreation (runtime : Runtime) (chain : Chain) (call : Call) : Nat :=
  (dataOperations runtime (lastIndex chain) call).length

def hashCompletion (runtime : Runtime) (chain : Chain) (call : Call)
    (writes : Writes format call created) : Nat :=
  indexCreation runtime chain call + (writes.index.length + 1) + (writes.protection.length + 1)

/-- What a cut leaves behind. `disk` is the disk before the call. -/
structure AfterCrash (chain : Chain) (disk : Disk) (call : Call) (created : Created)
    (writes : Writes format call created) (performed : Nat) (crashed : Disk) : Prop where
  kept : ∀ file content, disk.volumes.read file = some content →
    crashed.volumes.read file = some content
  before : performed ≤ indexCreation runtime chain call ∨
      call.name ∈ chain.map (fun entry => entry.call.name) →
    readInSnapshots runtime format crashed.indexFiles = .ok (chain.map Entry.snapshot).reverse
  between : call.name ∉ chain.map (fun entry => entry.call.name) →
    indexCreation runtime chain call < performed →
    performed < hashCompletion runtime chain call writes →
      ∃ fault, readInSnapshots runtime format crashed.indexFiles = .error fault
  after : call.name ∉ chain.map (fun entry => entry.call.name) →
    hashCompletion runtime chain call writes ≤ performed →
      readInSnapshots runtime format crashed.indexFiles =
          .ok ((insertEntry (newEntry call created) chain).map Entry.snapshot).reverse ∧
        ∀ number, (crashed.volumes.read (call.name, number)).getD [] = created.files number

theorem crash_before (holds : DiskHolds runtime format chain disk)
    (writes : Writes format call created) {performed : Nat}
    (early : performed ≤ indexCreation runtime chain call ∨
      call.name ∈ chain.map fun entry => entry.call.name) :
    (crash disk (operations (lastIndex chain) format call created writes)
      performed).indexFiles = disk.indexFiles := by
  have elsewhere := data_operations_volumes runtime (lastIndex chain) call
  rw [crash, operations, List.take_append]
  by_cases inside : performed ≤ indexCreation runtime chain call
  · have nothing : performed - (dataOperations runtime (lastIndex chain) call).length = 0 :=
      Nat.sub_eq_zero_of_le inside
    rw [nothing, List.take_zero, List.append_nil]
    apply index_files_kept
    intro change member
    exact elsewhere change (List.mem_of_mem_take member)
  · have used := early.resolve_left inside
    have whole : (dataOperations runtime (lastIndex chain) call).take performed =
        dataOperations runtime (lastIndex chain) call :=
      List.take_of_length_le (Nat.le_of_not_le inside)
    have kept := index_files_kept elsewhere disk
    rw [whole, System.run_until_append]
    cases data : disks.run disk (dataOperations runtime (lastIndex chain) call) with
    | none => exact kept
    | some middle =>
        rw [System.run_until_of_run data] at kept
        obtain ⟨content, present⟩ := used_index_file holds used
        rw [← kept] at present
        simp only [write_file_present present]
        exact kept

structure Unprotected (format : IndexFormat runtime) (name : String) (crashed : Disk) : Prop where
  present : ∃ content, crashed.indexFiles.read (indexFileName name) = some content
  rejected : ∀ hashFile, crashed.indexFiles.read (hashFileName name) = some hashFile →
    ∃ fault, format.decodeProtection hashFile = .error fault

section Cuts

variable {stored : Disk} {pieces : Nat}

theorem cut_index_file (noIndexFile : stored.indexFiles.read (indexFileName call.name) = none)
    (noHashFile : stored.indexFiles.read (hashFileName call.name) = none)
    (writes : Writes format call created) (pieces : Nat) :
    ∃ crashed, disks.run stored (writeFile (indexFileName call.name) (writes.index.take pieces)) =
        some crashed ∧ Unprotected format call.name crashed := by
  obtain ⟨crashed, written, _, read⟩ := write_file_run noIndexFile (writes.index.take pieces)
  refine ⟨crashed, written, ⟨(writes.index.take pieces).flatten, ?_⟩, ?_⟩
  · rw [read, Function.update_self]
  · intro hashFile present
    rw [read, Function.update_of_ne (hash_file_not_index _ _), noHashFile] at present
    cases present

theorem cut_hash_file (noIndexFile : stored.indexFiles.read (indexFileName call.name) = none)
    (noHashFile : stored.indexFiles.read (hashFileName call.name) = none)
    (writes : Writes format call created) (incomplete : pieces < writes.protection.length) :
    ∃ crashed, disks.run stored (writeFile (indexFileName call.name) writes.index ++
        writeFile (hashFileName call.name) (writes.protection.take pieces)) = some crashed ∧
      Unprotected format call.name crashed := by
  obtain ⟨indexed, indexRun, _, indexRead⟩ := write_file_run noIndexFile writes.index
  have stillNoHashFile : indexed.indexFiles.read (hashFileName call.name) = none := by
    rw [indexRead, Function.update_of_ne (hash_file_not_index _ _)]
    exact noHashFile
  obtain ⟨crashed, hashRun, _, hashRead⟩ :=
    write_file_run stillNoHashFile (writes.protection.take pieces)
  refine ⟨crashed, ?_, ⟨writes.index.flatten, ?_⟩, ?_⟩
  · rw [System.run_append, indexRun, Option.bind_some, hashRun]
  · rw [hashRead, Function.update_of_ne (hash_file_not_index _ _).symm, indexRead,
      Function.update_self]
  · intro hashFile present
    rw [hashRead, Function.update_self, Option.some.injEq] at present
    obtain ⟨breaksOff, different⟩ :=
      flatten_take_incomplete writes.protection_nonempty incomplete
    rw [writes.protection_complete, present] at breaksOff different
    exact format.incomplete_rejected _ _ breaksOff different

/-- Wherever the two files are cut, the hash file is missing or breaks off. -/
theorem serialize_cut (noIndexFile : stored.indexFiles.read (indexFileName call.name) = none)
    (noHashFile : stored.indexFiles.read (hashFileName call.name) = none)
    (writes : Writes format call created) (rest : List FileOperation)
    (early : pieces < writes.index.length + 1 + writes.protection.length) :
    Unprotected format call.name (disks.runUntil stored
      ((writeFile (indexFileName call.name) writes.index ++
        (writeFile (hashFileName call.name) writes.protection ++ rest)).take (pieces + 1))) := by
  by_cases inIndexFile : pieces ≤ writes.index.length
  · obtain ⟨crashed, run, unprotected⟩ := cut_index_file noIndexFile noHashFile writes pieces
    rw [write_file_cut _ inIndexFile, System.run_until_of_run run]
    exact unprotected
  · obtain ⟨more, further⟩ : ∃ more, pieces + 1 = writes.index.length + 1 + (more + 1) :=
      ⟨pieces - writes.index.length - 1, by omega⟩
    have incomplete : more < writes.protection.length := by omega
    obtain ⟨crashed, run, unprotected⟩ := cut_hash_file noIndexFile noHashFile writes incomplete
    rw [further, write_file_passed, write_file_cut _ incomplete.le, System.run_until_of_run run]
    exact unprotected

end Cuts

/-- Between the creation of the index file and the last write to the hash file
there is an index file without its hash. -/
theorem crash_between (holds : DiskHolds runtime format chain disk)
    (unused : call.name ∉ chain.map fun entry => entry.call.name)
    (run : createSnapshot runtime (lastIndex chain) call = some created)
    (writes : Writes format call created) {performed : Nat}
    (late : indexCreation runtime chain call < performed)
    (early : performed < hashCompletion runtime chain call writes) :
    ∃ fault, readInSnapshots runtime format
      (crash disk (operations (lastIndex chain) format call created writes)
        performed).indexFiles = .error fault := by
  obtain ⟨stored, count, data, same, _⟩ := data_operations_run run (unused_volumes holds unused)
  have noIndexFile : stored.indexFiles.read (indexFileName call.name) = none := by
    rw [same]
    exact unused_index_file holds unused
  have noHashFile : stored.indexFiles.read (hashFileName call.name) = none := by
    rw [same]
    exact unused_hash_file holds unused
  have whole : (dataOperations runtime (lastIndex chain) call).take performed =
      dataOperations runtime (lastIndex chain) call := List.take_of_length_le (Nat.le_of_lt late)
  obtain ⟨pieces, cut⟩ : ∃ pieces, performed =
      (dataOperations runtime (lastIndex chain) call).length + (pieces + 1) :=
    ⟨performed - indexCreation runtime chain call - 1, by unfold indexCreation at *; omega⟩
  have rest : performed - (dataOperations runtime (lastIndex chain) call).length = pieces + 1 := by
    omega
  have inFiles : pieces < writes.index.length + 1 + writes.protection.length := by
    unfold hashCompletion indexCreation at early
    omega
  rw [crash, operations, List.take_append, whole, rest, System.run_until_append, data]
  obtain ⟨⟨content, present⟩, rejected⟩ :=
    serialize_cut noIndexFile noHashFile writes (List.replicate 3 .other) inFiles
  obtain ⟨fault, failed⟩ := deserialize_unprotected rejected
  apply read_in_fails _ failed
  rw [present]
  exact Option.some_ne_none content

theorem crash_after (holds : DiskHolds runtime format chain disk)
    (unused : call.name ∉ chain.map fun entry => entry.call.name)
    (run : createSnapshot runtime (lastIndex chain) call = some created)
    (writes : Writes format call created) {performed : Nat}
    (late : hashCompletion runtime chain call writes ≤ performed) :
    DiskHolds runtime format (insertEntry (newEntry call created) chain)
        (crash disk (operations (lastIndex chain) format call created writes) performed) ∧
      ∀ number, ((crash disk (operations (lastIndex chain) format call created writes)
        performed).volumes.read (call.name, number)).getD [] = created.files number := by
  have cut : ∃ others, (operations (lastIndex chain) format call created writes).take performed =
      dataOperations runtime (lastIndex chain) call ++
        (writeFile (indexFileName call.name) writes.index ++
          (writeFile (hashFileName call.name) writes.protection ++
            List.replicate others .other)) := by
    unfold hashCompletion indexCreation at late
    refine ⟨min (performed - (dataOperations runtime (lastIndex chain) call).length -
      (writes.index.length + 1) - (writes.protection.length + 1)) 3, ?_⟩
    have indexLength : (writeFile (indexFileName call.name) writes.index).length =
        writes.index.length + 1 := by simp [writeFile]
    have hashLength : (writeFile (hashFileName call.name) writes.protection).length =
        writes.protection.length + 1 := by simp [writeFile]
    rw [operations, List.take_append, List.take_append, List.take_append, List.take_replicate,
      List.take_of_length_le (l := dataOperations runtime (lastIndex chain) call) (by omega),
      List.take_of_length_le (l := writeFile (indexFileName call.name) writes.index) (by omega),
      List.take_of_length_le (l := writeFile (hashFileName call.name) writes.protection) (by omega),
      indexLength, hashLength]
  obtain ⟨others, cut⟩ := cut
  obtain ⟨after, complete, afterHolds, files⟩ := complete_run holds unused run writes others
  rw [crash, cut, System.run_until_of_run complete]
  exact ⟨afterHolds, files⟩

/-- Whatever the chain and wherever a call is cut off: nothing that was there is
lost; up to the creation of the index file the next start reads the chain as it
was; until the hash file is complete it fails; and then it reads the complete new
snapshot at the place of its name, which is behind the others when the names come
in order. -/
theorem crash_outcome (runtime : Runtime) (format : IndexFormat runtime) (chain : Chain)
    (disk : Disk) (stored : Stored runtime format chain disk) (call : Call) (created : Created)
    (run : createSnapshot runtime (lastIndex chain) call = some created)
    (writes : Writes format call created) (performed : Nat) :
    AfterCrash chain disk call created writes performed
        (crash disk (operations (lastIndex chain) format call created writes) performed) ∧
      (InOrder (calls chain) call →
        ((insertEntry (newEntry call created) chain).map Entry.snapshot).reverse =
          (chain.map Entry.snapshot).reverse ++ [(newEntry call created).snapshot]) := by
  have holds := stored_disk_holds stored
  refine ⟨⟨?_, ?_, ?_, ?_⟩, ?_⟩
  · have first := creates_first_take
      (operations_create_first (lastIndex chain) format call created writes) performed
    apply volumes_kept first
    · intro number below
      exact absurd below (Nat.not_lt_zero number)
    · intro file content present
      exact present
  · intro early
    rw [crash_before holds writes early]
    exact read_in_holds holds.indexFiles
  · intro unused late early
    exact crash_between holds unused run writes late early
  · intro unused late
    obtain ⟨afterHolds, files⟩ := crash_after holds unused run writes late
    exact ⟨read_in_holds afterHolds.indexFiles, files⟩
  · intro inOrder
    rw [@insert_entry_in_order chain (newEntry call created) inOrder, List.map_cons,
      List.reverse_cons]

def singleWrites (call : Call) (created : Created) : Writes spellingFormat call created where
  index := [spellingRuntime.compress call.maxCompressionLevel (indexText spellingFormat created)]
  protection := [spellingFormat.encodeProtection (protection spellingFormat call created)]
  index_complete := List.flatten_singleton
  protection_complete := List.flatten_singleton
  protection_nonempty := List.forall_mem_singleton.mpr (encode_value_nonempty _)

theorem second_backup_stored :
    ∃ chain disk created, Stored spellingRuntime spellingFormat chain disk ∧
      chain.length = 1 ∧ (chain.map fun entry => entry.call.name) = ["snapshot_1"] ∧
      createSnapshot spellingRuntime (lastIndex chain) moveBackup = some created := by
  have first : (createSnapshot spellingRuntime none firstBackup).isSome = true := by
    decide +kernel
  have second : (addSnapshot spellingRuntime [] firstBackup).bind (fun chain =>
      (createSnapshot spellingRuntime (lastIndex chain) moveBackup).map fun _ =>
        (chain.length, chain.map fun entry => entry.call.name)) =
      some (1, ["snapshot_1"]) := by decide +kernel
  obtain ⟨firstCreated, firstRun⟩ := Option.isSome_iff_exists.mp first
  obtain ⟨chain, taken, onto⟩ := Option.bind_eq_some_iff.mp second
  obtain ⟨created, run, facts⟩ := Option.map_eq_some_iff.mp onto
  obtain ⟨length, names⟩ := Prod.mk.inj facts
  have stored := Stored.add .start taken firstRun (singleWrites firstBackup firstCreated)
  exact ⟨chain, _, created, stored, length, names, run⟩

theorem second_backup_crash :
    ∃ chain disk created, Stored spellingRuntime spellingFormat chain disk ∧
      chain.length = 1 ∧
      createSnapshot spellingRuntime (lastIndex chain) moveBackup = some created ∧
      (∀ performed, AfterCrash chain disk moveBackup created (singleWrites moveBackup created)
        performed (crash disk (operations (lastIndex chain) spellingFormat moveBackup created
          (singleWrites moveBackup created)) performed)) ∧
      ((insertEntry (newEntry moveBackup created) chain).map Entry.snapshot).reverse =
        (chain.map Entry.snapshot).reverse ++ [(newEntry moveBackup created).snapshot] := by
  obtain ⟨chain, disk, created, stored, length, names, run⟩ := second_backup_stored
  have outcome := crash_outcome spellingRuntime spellingFormat chain disk stored moveBackup created
    run (singleWrites moveBackup created)
  have inOrder : InOrder (calls chain) moveBackup := by
    intro earlier member
    have named : earlier.name ∈ chain.map fun entry => entry.call.name := by
      obtain ⟨entry, inside, rfl⟩ := List.mem_map.mp member
      exact List.mem_map_of_mem inside
    rw [names, List.mem_singleton] at named
    rw [named]
    decide +kernel
  exact ⟨chain, disk, created, stored, length, run, fun performed => (outcome performed).1,
    (outcome 0).2 inOrder⟩

/-- Killed right after the second index file was created, the program does not
start again, and the first snapshot is out of reach. -/
theorem second_backup_killed :
    ∃ chain disk created performed fault,
      Stored spellingRuntime spellingFormat chain disk ∧ chain.length = 1 ∧
      createSnapshot spellingRuntime (lastIndex chain) moveBackup = some created ∧
      readInSnapshots spellingRuntime spellingFormat
        (crash disk (operations (lastIndex chain) spellingFormat moveBackup created
          (singleWrites moveBackup created)) performed).indexFiles = .error fault := by
  obtain ⟨chain, disk, created, stored, length, names, run⟩ := second_backup_stored
  have unused : moveBackup.name ∉ chain.map fun entry => entry.call.name := by
    rw [names]
    decide
  obtain ⟨fault, failed⟩ := crash_between (stored_disk_holds stored) unused run
    (singleWrites moveBackup created) (Nat.lt_succ_self _)
    (by unfold hashCompletion; omega)
  exact ⟨chain, disk, created, _, fault, stored, length, run, failed⟩

end Crash

end ACBackup.CrashConsistency
