import ACBackup.CrashRuns

/-!
The write protection of the backup directory. `AddSnapshot` takes it away from the
two directories while it needs them, and gives it to every file that it has made.
The program runs as the owner of the files.
-/

namespace ACBackup.WriteProtection

open ACBackup.Library.FileDirectory ACBackup.Library.Transition
open ACBackup.Platform ACBackup.NodeAttributes ACBackup.Indexing ACBackup.OpenVolumes
open ACBackup.SnapshotChain ACBackup.VolumeWriting ACBackup.VolumeInvariant
open ACBackup.SnapshotCreation ACBackup.SnapshotNodes ACBackup.SnapshotManager
open ACBackup.IndexDirectory
open ACBackup.CrashConsistency ACBackup.CrashRuns

set_option autoImplicit false

/-- `data` and `index` are the directories of the configuration. -/
inductive Place where
  | data
  | index
  | volumeDirectory (name : String)
  | volume (name : String) (number : Nat)
  | indexFile (file : String)
  deriving DecidableEq

def Place.directory : Place → Option Place
  | .data => none
  | .index => none
  | .volumeDirectory _ => some .data
  | .volume name _ => some (.volumeDirectory name)
  | .indexFile _ => some .index

abbrev Modes := Place → Option POSIXPermissions

def unprotectFile (permissions : POSIXPermissions) : POSIXPermissions :=
  { permissions with owner := { permissions.owner with write := true } }

def writeProtectFile (permissions : POSIXPermissions) : POSIXPermissions :=
  { permissions with
    others := { permissions.others with write := false }
    group := { permissions.group with write := false }
    owner := { permissions.owner with write := false } }

structure NewModes where
  permissions : Place → POSIXPermissions
  writable : ∀ place, (permissions place).owner.write = true

inductive ProtectedOperation where
  | file (operation : FileOperation)
  | createDirectory (name : String)
  | unprotect (place : Place)
  | writeProtect (place : Place)

def fileCreates : FileOperation → Option Place
  | .volume (.create file) => some (.volume file.1 file.2)
  | .index (.create file) => some (.indexFile file)
  | _ => none

def mayWrite (modes : Modes) (place : Place) : Bool :=
  match modes place with
  | some permissions => permissions.owner.write
  | none => false

def create (newModes : NewModes) (modes : Modes) (place : Place) : Option Modes :=
  if modes place = none ∧ place.directory.any (mayWrite modes) = true then
    some (Function.update modes place (some (newModes.permissions place)))
  else none

/-- An open file is written without a further check. -/
def permit (newModes : NewModes) (modes : Modes) : ProtectedOperation → Option Modes
  | .file operation =>
      match fileCreates operation with
      | some place => create newModes modes place
      | none => some modes
  | .createDirectory name => create newModes modes (.volumeDirectory name)
  | .unprotect place =>
      (modes place).map fun permissions =>
        Function.update modes place (some (unprotectFile permissions))
  | .writeProtect place =>
      (modes place).map fun permissions =>
        Function.update modes place (some (writeProtectFile permissions))

def ProtectedOperation.fileOperation : ProtectedOperation → FileOperation
  | .file operation => operation
  | _ => .other

structure ProtectedDisk where
  disk : Disk
  modes : Modes

def performProtected (newModes : NewModes) (state : ProtectedDisk)
    (operation : ProtectedOperation) : Option ProtectedDisk :=
  (perform state.disk operation.fileOperation).bind fun disk =>
    (permit newModes state.modes operation).map fun modes => { disk := disk, modes := modes }

/-- `CommandInit` creates the two directories. -/
def initModes (newModes : NewModes) : Modes
  | .data => some (newModes.permissions .data)
  | .index => some (newModes.permissions .index)
  | _ => none

def protectedDisks (newModes : NewModes) : System ProtectedDisk ProtectedOperation where
  initial := { disk := disks.initial, modes := initModes newModes }
  step := performProtected newModes

section Operations

/-- `FindStream` creates the directory in front of the first volume. -/
def stepProtected (name : String) (state : WriteState) : WriteLabel → List ProtectedOperation
  | .findStream writer =>
      if findOwned writer state.openVolumes = none ∧ claimFree writer state.openVolumes = none then
        (if state.createdDataDir then [] else [.createDirectory name]) ++
          [.file (.volume (.create (name, state.nextVolumeNumber)))]
      else []
  | label => (stepOperations name state label).map .file

def writeProtected (volumeSize : UInt64) (name : String) :
    WriteState → List WriteLabel → List ProtectedOperation
  | _, [] => []
  | state, label :: rest =>
      stepProtected name state label ++
        match step volumeSize state label with
        | none => []
        | some next => writeProtected volumeSize name next rest

def planProtected (runtime : Runtime) (last : Option BackupNodeIndex) (call : Call) :
    List ProtectedOperation :=
  match planSnapshot runtime last call with
  | .error _ => []
  | .ok planned =>
      writeProtected call.volumeSize call.name (openFileSystem (addPlanned planned))
        call.volumeSteps

def volumeCount (runtime : Runtime) (last : Option BackupNodeIndex) (call : Call) : Nat :=
  match planSnapshot runtime last call with
  | .error _ => 0
  | .ok planned =>
      ((writing call.volumeSize (addPlanned planned)).runUntil
        (openFileSystem (addPlanned planned)) call.volumeSteps).nextVolumeNumber

/-- The files of `Snapshot::WriteProtect`: the two index files, then the volumes and
their directory if there is one. -/
def snapshotPlaces (name : String) (count : Nat) : List Place :=
  [.indexFile (indexFileName name), .indexFile (hashFileName name)] ++
    if count = 0 then []
    else (List.range count).map (Place.volume name) ++ [.volumeDirectory name]

variable {runtime : Runtime}

def protectedDataOperations (runtime : Runtime) (last : Option BackupNodeIndex) (call : Call) :
    List ProtectedOperation :=
  .unprotect .data :: (planProtected runtime last call ++ [.writeProtect .data, .unprotect .index])

/-- A call that raises or hangs at some node has come no further than to its writers. -/
def protectedFailedOperations (call : Call) (index : BackupNodeIndex) (labels : List WriteLabel) :
    List ProtectedOperation :=
  .unprotect .data :: writeProtected call.volumeSize call.name (openFileSystem index) labels

def protectedOperations (last : Option BackupNodeIndex) (format : IndexFormat runtime)
    (call : Call) (created : Created) (writes : Writes format call created) :
    List ProtectedOperation :=
  protectedDataOperations runtime last call ++
    ((writeFile (indexFileName call.name) writes.index ++
      writeFile (hashFileName call.name) writes.protection).map .file ++
      (snapshotPlaces call.name (volumeCount runtime last call) ++ [Place.index]).map
        .writeProtect)

end Operations

section Product

variable {newModes : NewModes}

def permissions (newModes : NewModes) : System Modes ProtectedOperation where
  initial := initModes newModes
  step := permit newModes

theorem perform_protected_some {state next : ProtectedDisk} {operation : ProtectedOperation} :
    performProtected newModes state operation = some next ↔
      perform state.disk operation.fileOperation = some next.disk ∧
        permit newModes state.modes operation = some next.modes := by
  unfold performProtected
  rw [Option.bind_eq_some_iff]
  constructor
  · rintro ⟨disk, performed, rest⟩
    obtain ⟨modes, permitted, rfl⟩ := Option.map_eq_some_iff.mp rest
    exact ⟨performed, permitted⟩
  · rintro ⟨performed, permitted⟩
    refine ⟨next.disk, performed, ?_⟩
    rw [permitted]
    rfl

theorem protected_run_iff {state after : ProtectedDisk} (list : List ProtectedOperation) :
    (protectedDisks newModes).run state list = some after ↔
      disks.run state.disk (list.map ProtectedOperation.fileOperation) = some after.disk ∧
        (permissions newModes).run state.modes list = some after.modes := by
  induction list generalizing state with
  | nil =>
      simp only [System.run, List.map_nil, Option.some.injEq]
      constructor
      · rintro rfl
        exact ⟨rfl, rfl⟩
      · rintro ⟨sameDisk, sameModes⟩
        cases state
        cases after
        simp_all
  | cons operation rest induction =>
      constructor
      · intro run
        obtain ⟨next, taken, later⟩ := System.run_cons_some run
        obtain ⟨performed, permitted⟩ := perform_protected_some.mp taken
        have performed' : disks.step state.disk operation.fileOperation = some next.disk :=
          performed
        have permitted' : (permissions newModes).step state.modes operation = some next.modes :=
          permitted
        simp only [List.map_cons, System.run, performed', permitted']
        exact induction.mp later
      · rintro ⟨diskRun, modesRun⟩
        obtain ⟨disk, performed, diskLater⟩ := System.run_cons_some diskRun
        obtain ⟨modes, permitted, modesLater⟩ := System.run_cons_some modesRun
        have taken : (protectedDisks newModes).step state operation =
            some { disk := disk, modes := modes } :=
          perform_protected_some.mpr ⟨performed, permitted⟩
        simp only [System.run, taken]
        exact induction.mpr ⟨diskLater, modesLater⟩

def reachesFile : FileOperation → Bool
  | .other => false
  | _ => true

theorem run_reaching (list : List FileOperation) (disk : Disk) :
    disks.run disk list = disks.run disk (list.filter reachesFile) := by
  induction list generalizing disk with
  | nil => rfl
  | cons operation rest induction =>
      cases operation with
      | other => exact induction disk
      | volume change =>
          simp only [List.filter_cons, reachesFile, if_true, System.run]
          cases disks.step disk (.volume change) with
          | none => rfl
          | some next => exact induction next
      | index change =>
          simp only [List.filter_cons, reachesFile, if_true, System.run]
          cases disks.step disk (.index change) with
          | none => rfl
          | some next => exact induction next

/-- Where a protected run stops, the run without permissions has come by. -/
theorem protected_disk_reached (newModes : NewModes) (state : ProtectedDisk)
    {list : List ProtectedOperation} {others : List FileOperation}
    (same : (list.map ProtectedOperation.fileOperation).filter reachesFile =
      others.filter reachesFile) (performed : Nat) :
    ∃ count, ((protectedDisks newModes).runUntil state (list.take performed)).disk =
      crash state.disk others count := by
  obtain ⟨stop, run⟩ :=
    System.run_until_prefix (protectedDisks newModes) (list.take performed) state
  have diskRun := ((protected_run_iff _).mp run).1
  rw [List.take_take, List.map_take, run_reaching] at diskRun
  have inside : ((list.map ProtectedOperation.fileOperation).take (min stop performed)).filter
      reachesFile <+: others.filter reachesFile := by
    rw [← same]
    exact (List.take_prefix _ _).filter _
  obtain ⟨front, isPrefix, filtered⟩ := List.prefix_filter_iff.mp inside
  rw [filtered, ← run_reaching, List.prefix_iff_eq_take.mp isPrefix] at diskRun
  exact ⟨front.length, (System.run_until_of_run diskRun).symm⟩

end Product

section Erasure

variable {runtime : Runtime}

theorem files_erased (list : List FileOperation) :
    (list.map ProtectedOperation.file).map ProtectedOperation.fileOperation = list := by
  rw [List.map_map]
  exact List.map_id list

theorem protections_erased (places : List Place) :
    ((places.map ProtectedOperation.writeProtect).map
      ProtectedOperation.fileOperation).filter reachesFile = [] := by
  simp [reachesFile, ProtectedOperation.fileOperation, List.filter_eq_nil_iff]

theorem step_erased (name : String) (state : WriteState) (label : WriteLabel) :
    ((stepProtected name state label).map ProtectedOperation.fileOperation).filter reachesFile =
      (stepOperations name state label).filter reachesFile := by
  cases label with
  | findStream writer =>
      simp only [stepProtected, stepOperations]
      by_cases new : findOwned writer state.openVolumes = none ∧
          claimFree writer state.openVolumes = none
      · rw [if_pos new, if_pos new]
        cases state.createdDataDir <;> rfl
      · rw [if_neg new, if_neg new]
        rfl
  | createFile path => simp only [stepProtected, files_erased]
  | beginWrite writer source => simp only [stepProtected, files_erased]
  | queryOffset writer => simp only [stepProtected, files_erased]
  | writeVolume writer nBytesWritten => simp only [stepProtected, files_erased]
  | bytesWereWritten writer => simp only [stepProtected, files_erased]
  | finishWrite writer => simp only [stepProtected, files_erased]
  | closeFile writer => simp only [stepProtected, files_erased]

theorem write_erased (volumeSize : UInt64) (name : String) (labels : List WriteLabel)
    (state : WriteState) :
    ((writeProtected volumeSize name state labels).map
      ProtectedOperation.fileOperation).filter reachesFile =
        (writeOperations volumeSize name state labels).filter reachesFile := by
  induction labels generalizing state with
  | nil => rfl
  | cons label rest induction =>
      simp only [writeProtected, writeOperations, List.map_append, List.filter_append,
        step_erased]
      cases step volumeSize state label with
      | none => rfl
      | some next => rw [induction next]

theorem data_operations_erased (last : Option BackupNodeIndex) (call : Call) :
    ((protectedDataOperations runtime last call).map
      ProtectedOperation.fileOperation).filter reachesFile =
        (dataOperations runtime last call).filter reachesFile := by
  have planned : ((planProtected runtime last call).map
      ProtectedOperation.fileOperation).filter reachesFile =
        (dataOperations runtime last call).filter reachesFile := by
    unfold planProtected dataOperations
    cases planSnapshot runtime last call with
    | error fault => rfl
    | ok planned =>
        simp only [List.filter_append, write_erased]
        simp [reachesFile]
  unfold protectedDataOperations
  simp only [List.map_cons, List.map_append, List.map_nil]
  rw [List.filter_cons_of_neg (by simp [reachesFile, ProtectedOperation.fileOperation]),
    List.filter_append, planned]
  simp [reachesFile, ProtectedOperation.fileOperation]

theorem failed_operations_erased (call : Call) (index : BackupNodeIndex)
    (labels : List WriteLabel) :
    ((protectedFailedOperations call index labels).map
      ProtectedOperation.fileOperation).filter reachesFile =
        (failedOperations call index labels).filter reachesFile := by
  have written := write_erased call.volumeSize call.name labels (openFileSystem index)
  unfold protectedFailedOperations failedOperations
  rw [List.map_cons, List.filter_cons_of_neg (by simp [reachesFile,
    ProtectedOperation.fileOperation]), List.filter_cons_of_neg (by simp [reachesFile]), written]

theorem operations_erased (last : Option BackupNodeIndex) (format : IndexFormat runtime)
    (call : Call) (created : Created) (writes : Writes format call created) :
    ((protectedOperations last format call created writes).map
      ProtectedOperation.fileOperation).filter reachesFile =
        (operations last format call created writes).filter reachesFile := by
  unfold protectedOperations operations
  simp only [List.map_append, List.filter_append, data_operations_erased, files_erased,
    protections_erased]
  simp [reachesFile]

end Erasure

def Protected (modes : Modes) (place : Place) : Prop :=
  ∃ permissions, modes place = some permissions ∧ permissions.owner.write = false ∧
    permissions.group.write = false ∧ permissions.others.write = false

section Permissions

variable {newModes : NewModes} {modes next after : Modes} {place : Place}

theorem may_write_present (writable : mayWrite modes place = true) :
    ∃ permissions, modes place = some permissions := by
  unfold mayWrite at writable
  cases found : modes place with
  | none => simp [found] at writable
  | some permissions => exact ⟨permissions, rfl⟩

theorem create_some (created : create newModes modes place = some next) :
    modes place = none ∧
      next = Function.update modes place (some (newModes.permissions place)) := by
  unfold create at created
  by_cases new : modes place = none ∧ place.directory.any (mayWrite modes) = true
  · rw [if_pos new, Option.some.injEq] at created
    exact ⟨new.1, created.symm⟩
  · rw [if_neg new] at created
    cases created

theorem permit_some {operation : ProtectedOperation}
    (permitted : permit newModes modes operation = some next) :
    (∃ new, modes new = none ∧
      next = Function.update modes new (some (newModes.permissions new))) ∨ next = modes ∨
    (∃ old permissions, operation = .unprotect old ∧ modes old = some permissions ∧
      next = Function.update modes old (some (unprotectFile permissions))) ∨
    ∃ old permissions, operation = .writeProtect old ∧ modes old = some permissions ∧
      next = Function.update modes old (some (writeProtectFile permissions)) := by
  cases operation with
  | file operation =>
      simp only [permit] at permitted
      cases new : fileCreates operation with
      | none =>
          simp only [new, Option.some.injEq] at permitted
          exact .inr (.inl permitted.symm)
      | some place =>
          simp only [new] at permitted
          exact .inl ⟨place, create_some permitted⟩
  | createDirectory name => exact .inl ⟨_, create_some permitted⟩
  | unprotect old =>
      obtain ⟨permissions, present, same⟩ := Option.map_eq_some_iff.mp permitted
      exact .inr (.inr (.inl ⟨old, permissions, rfl, present, same.symm⟩))
  | writeProtect old =>
      obtain ⟨permissions, present, same⟩ := Option.map_eq_some_iff.mp permitted
      exact .inr (.inr (.inr ⟨old, permissions, rfl, present, same.symm⟩))

/-- Write protection is only taken away by `UnprotectFile`. -/
theorem permit_protected {operation : ProtectedOperation}
    (permitted : permit newModes modes operation = some next)
    (kept : operation ≠ .unprotect place) (isProtected : Protected modes place) :
    Protected next place := by
  obtain ⟨permissions, present, closed⟩ := isProtected
  rcases permit_some permitted with ⟨new, absent, rfl⟩ | rfl | ⟨old, before, same, found, rfl⟩ |
    ⟨old, before, same, found, rfl⟩
  · refine ⟨permissions, ?_, closed⟩
    rw [Function.update_of_ne]
    · exact present
    · rintro rfl
      rw [absent] at present
      cases present
  · exact ⟨permissions, present, closed⟩
  · refine ⟨permissions, ?_, closed⟩
    rw [Function.update_of_ne]
    · exact present
    · rintro rfl
      exact kept same
  · by_cases here : place = old
    · subst here
      exact ⟨writeProtectFile before, Function.update_self .., rfl, rfl, rfl⟩
    · refine ⟨permissions, ?_, closed⟩
      rw [Function.update_of_ne here]
      exact present

theorem protected_run {list : List ProtectedOperation}
    (kept : ∀ operation ∈ list, operation ≠ .unprotect place)
    (run : (permissions newModes).run modes list = some after)
    (isProtected : Protected modes place) :
    Protected after place := by
  rw [← System.run_until_of_run run]
  refine @System.run_until_invariant _ _ (permissions newModes)
    (fun modes => Protected modes place) list ?_ modes isProtected
  intro operation member state next taken before
  exact permit_protected taken (kept operation member) before

theorem protections_run (newModes : NewModes) (places : List Place)
    (present : ∀ place ∈ places, modes place ≠ none) :
    ∃ after, (permissions newModes).run modes (places.map .writeProtect) = some after ∧
      (∀ place, after place = none ↔ modes place = none) ∧
      ∀ place ∈ places, Protected after place := by
  induction places generalizing modes with
  | nil => exact ⟨modes, rfl, fun _ => Iff.rfl, fun _ member => by cases member⟩
  | cons first rest induction =>
      obtain ⟨before, found⟩ :=
        Option.ne_none_iff_exists'.mp (present first (List.mem_cons_self ..))
      have taken : (permissions newModes).step modes (.writeProtect first) =
          some (Function.update modes first (some (writeProtectFile before))) := by
        simp only [permissions, permit, found, Option.map_some]
      have same : ∀ place, Function.update modes first (some (writeProtectFile before)) place =
          none ↔ modes place = none := by
        intro place
        by_cases here : place = first
        · subst here
          simp [found]
        · rw [Function.update_of_ne here]
      have others : ∀ place ∈ rest,
          Function.update modes first (some (writeProtectFile before)) place ≠ none := by
        intro place member
        exact mt (same place).mp (present place (List.mem_cons_of_mem _ member))
      obtain ⟨after, run, existing, done⟩ := induction others
      refine ⟨after, ?_, fun place => (existing place).trans (same place), ?_⟩
      · simp only [List.map_cons, System.run, taken]
        exact run
      · intro place member
        rcases List.mem_cons.mp member with rfl | later
        · refine protected_run ?_ run
            ⟨writeProtectFile before, Function.update_self .., rfl, rfl, rfl⟩
          intro operation inside
          obtain ⟨other, _, rfl⟩ := List.mem_map.mp inside
          exact ProtectedOperation.noConfusion
        · exact done place later

end Permissions

section Writing

variable (newModes : NewModes) {volumeSize : UInt64} {name : String} {base modes : Modes}
  {state next : WriteState}

theorem step_protected_cases {label : WriteLabel}
    (taken : step volumeSize state label = some next) :
    (next.createdDataDir = state.createdDataDir ∧
      next.nextVolumeNumber = state.nextVolumeNumber ∧
      ∀ operation ∈ stepProtected name state label,
        ∃ file, operation = .file file ∧ fileCreates file = none) ∨
    (next.createdDataDir = true ∧ next.nextVolumeNumber = state.nextVolumeNumber + 1 ∧
      stepProtected name state label =
        (if state.createdDataDir then [] else [.createDirectory name]) ++
          [.file (.volume (.create (name, state.nextVolumeNumber)))]) := by
  cases label with
  | createFile path =>
      obtain ⟨_, _, rfl⟩ := step_create_file taken
      exact .inl ⟨rfl, rfl, by simp [stepProtected, stepOperations]⟩
  | beginWrite writer source =>
      obtain ⟨_, _, rfl⟩ := step_begin_write taken
      exact .inl ⟨rfl, rfl, by simp [stepProtected, stepOperations]⟩
  | findStream writer =>
      obtain ⟨_, _, _, rfl⟩ := step_find_stream taken
      cases owned : findOwned writer state.openVolumes with
      | some volume =>
          simp only [stepProtected, findStream, owned, WriteState.setPhase]
          exact .inl ⟨trivial, trivial, by simp⟩
      | none =>
          cases claimed : claimFree writer state.openVolumes with
          | some volume =>
              simp only [stepProtected, findStream, owned, claimed, WriteState.setPhase]
              exact .inl ⟨trivial, trivial, by simp⟩
          | none =>
              simp only [stepProtected, findStream, owned, claimed, WriteState.setPhase, and_self,
                if_true]
              exact .inr trivial
  | queryOffset writer =>
      obtain ⟨_, _, _, _, rfl⟩ := step_query_offset taken
      exact .inl ⟨rfl, rfl, by simp [stepProtected, stepOperations]⟩
  | writeVolume writer nBytesWritten =>
      obtain ⟨source, number, leftSize, offset, positioned, _, rfl⟩ := step_write_volume taken
      refine .inl ⟨rfl, rfl, ?_⟩
      simp only [stepProtected, stepOperations, positioned]
      simp [fileCreates]
  | bytesWereWritten writer =>
      obtain ⟨_, _, _, _, recorded, _, outcome, rfl⟩ := step_bytes_were_written taken
      obtain ⟨_, _, rfl⟩ := bytes_were_written_keeps outcome
      exact .inl ⟨rfl, rfl, by simp [stepProtected, stepOperations]⟩
  | finishWrite writer =>
      obtain ⟨_, rfl⟩ := step_finish_write taken
      exact .inl ⟨rfl, rfl, by simp [stepProtected, stepOperations]⟩
  | closeFile writer =>
      obtain ⟨_, rfl⟩ := step_close_file taken
      exact .inl ⟨rfl, rfl, by simp [stepProtected, stepOperations]⟩

theorem quiet_run {list : List ProtectedOperation}
    (quiet : ∀ operation ∈ list, ∃ file, operation = .file file ∧ fileCreates file = none) :
    (permissions newModes).run modes list = some modes := by
  induction list with
  | nil => rfl
  | cons operation rest induction =>
      obtain ⟨⟨file, rfl, nothing⟩, others⟩ := List.forall_mem_cons.mp quiet
      have taken : (permissions newModes).step modes (.file file) = some modes := by
        simp only [permissions, permit, nothing]
      simp only [System.run, taken]
      exact induction others

structure Writable (name : String) (base modes : Modes) (state : WriteState) : Prop where
  data : mayWrite modes .data = true
  directory : state.createdDataDir = true → mayWrite modes (.volumeDirectory name) = true
  noDirectory : state.createdDataDir = false → modes (.volumeDirectory name) = none
  counted : state.createdDataDir = true ↔ 0 < state.nextVolumeNumber
  volumes : ∀ number, modes (.volume name number) = none ↔ state.nextVolumeNumber ≤ number
  others : ∀ place, place ≠ .volumeDirectory name → (∀ number, place ≠ .volume name number) →
    modes place = base place

theorem may_write_update (modes : Modes) (place : Place) :
    mayWrite (Function.update modes place (some (newModes.permissions place))) place = true := by
  simp only [mayWrite, Function.update_self, newModes.writable]

theorem may_write_other {place other : Place} (different : other ≠ place)
    (permissions : Option POSIXPermissions) :
    mayWrite (Function.update modes place permissions) other = mayWrite modes other := by
  simp only [mayWrite, Function.update_of_ne different]

theorem create_new (place : Place) {directory : Place} (inside : place.directory = some directory)
    (absent : modes place = none) (writable : mayWrite modes directory = true) :
    create newModes modes place =
      some (Function.update modes place (some (newModes.permissions place))) := by
  unfold create
  rw [inside]
  exact if_pos ⟨absent, writable⟩

theorem directory_created (writable : Writable name base modes state) :
    ∃ after, (permissions newModes).run modes
        (if state.createdDataDir then [] else [.createDirectory name]) = some after ∧
      mayWrite after (.volumeDirectory name) = true ∧
      ∀ place, place ≠ .volumeDirectory name → after place = modes place := by
  by_cases created : state.createdDataDir = true
  · rw [if_pos created]
    exact ⟨modes, rfl, writable.directory created, fun _ _ => rfl⟩
  · rw [if_neg created]
    have absent := writable.noDirectory (Bool.not_eq_true _ ▸ created)
    have made := create_new newModes (.volumeDirectory name) rfl absent writable.data
    refine ⟨_, ?_, may_write_update newModes modes _, ?_⟩
    · simp only [System.run, permissions, permit, made]
    · intro place different
      exact Function.update_of_ne different _ _

theorem writable_step {label : WriteLabel} (writable : Writable name base modes state)
    (taken : step volumeSize state label = some next) :
    ∃ after, (permissions newModes).run modes (stepProtected name state label) = some after ∧
      Writable name base after next := by
  rcases step_protected_cases taken with ⟨directory, number, quiet⟩ | ⟨directory, number, new⟩
  · refine ⟨modes, quiet_run newModes quiet, ?_⟩
    constructor
    · exact writable.data
    · rw [directory]
      exact writable.directory
    · rw [directory]
      exact writable.noDirectory
    · rw [directory, number]
      exact writable.counted
    · rw [number]
      exact writable.volumes
    · exact writable.others
  · obtain ⟨middle, first, inside, same⟩ := directory_created newModes writable
    have absent : middle (.volume name state.nextVolumeNumber) = none := by
      rw [same _ Place.noConfusion]
      exact (writable.volumes _).mpr (le_refl _)
    have made := create_new newModes (.volume name state.nextVolumeNumber) rfl absent inside
    refine ⟨Function.update middle (.volume name state.nextVolumeNumber)
      (some (newModes.permissions (.volume name state.nextVolumeNumber))), ?_, ?_⟩
    · rw [new, System.run_append, first, Option.bind_some]
      simp only [System.run, permissions, permit, fileCreates, made]
    · constructor
      · rw [may_write_other Place.noConfusion]
        have data := writable.data
        unfold mayWrite at data ⊢
        rw [same _ Place.noConfusion]
        exact data
      · intro _
        rw [may_write_other Place.noConfusion]
        exact inside
      · rw [directory]
        exact Bool.noConfusion
      · rw [directory, number]
        simp
      · intro other
        rw [number]
        by_cases here : other = state.nextVolumeNumber
        · subst here
          simp
        · rw [Function.update_of_ne (by simpa using here), same _ Place.noConfusion,
            writable.volumes]
          omega
      · intro place noDirectory noVolume
        rw [Function.update_of_ne (noVolume _), same place noDirectory]
        exact writable.others place noDirectory noVolume

theorem writable_run {index : BackupNodeIndex} (labels : List WriteLabel) {final : WriteState}
    (writable : Writable name base modes state)
    (run : (writing volumeSize index).run state labels = some final) :
    ∃ after, (permissions newModes).run modes (writeProtected volumeSize name state labels) =
        some after ∧ Writable name base after final := by
  induction labels generalizing state modes with
  | nil =>
      simp only [System.run, Option.some.injEq] at run
      subst run
      exact ⟨modes, rfl, writable⟩
  | cons label rest induction =>
      obtain ⟨middle, (taken : step volumeSize state label = some middle), later⟩ :=
        System.run_cons_some run
      obtain ⟨between, first, stillWritable⟩ := writable_step newModes writable taken
      obtain ⟨after, second, final⟩ := induction stillWritable later
      refine ⟨after, ?_, final⟩
      simp only [writeProtected, taken, System.run_append, first, Option.bind_some, second]

end Writing

def Own (name : String) : Place → Prop
  | .data => False
  | .index => False
  | .volumeDirectory other => other = name
  | .volume other _ => other = name
  | .indexFile file => file = indexFileName name ∨ file = hashFileName name

section Complete

variable {newModes : NewModes} {runtime : Runtime} {format : IndexFormat runtime}
  {last : Option BackupNodeIndex} {call : Call} {created : Created} {modes : Modes}

theorem write_file_permitted (newModes : NewModes) {file : String}
    (absent : modes (.indexFile file) = none) (writable : mayWrite modes .index = true)
    (writes : List Bytes) :
    (permissions newModes).run modes ((writeFile file writes).map .file) =
      some (Function.update modes (.indexFile file)
        (some (newModes.permissions (.indexFile file)))) := by
  have made := create_new newModes (.indexFile file) rfl absent writable
  have quiet : ∀ operation ∈ (writes.map fun bytes =>
      FileOperation.index (.extend file bytes)).map ProtectedOperation.file,
      ∃ file, operation = .file file ∧ fileCreates file = none := by
    intro operation member
    obtain ⟨change, inside, rfl⟩ := List.mem_map.mp member
    obtain ⟨bytes, _, rfl⟩ := List.mem_map.mp inside
    exact ⟨_, rfl, rfl⟩
  simp only [writeFile, List.map_cons, System.run, permissions, permit, fileCreates, made]
  exact quiet_run newModes quiet

structure VolumesMade (runtime : Runtime) (last : Option BackupNodeIndex) (call : Call)
    (before after : Modes) : Prop where
  volumes : ∀ number, after (.volume call.name number) = none ↔
    volumeCount runtime last call ≤ number
  directory : after (.volumeDirectory call.name) = none ↔ volumeCount runtime last call = 0
  indexFiles : ∀ file, after (.indexFile file) = before (.indexFile file)

theorem plan_permitted (newModes : NewModes)
    (run : createSnapshot runtime last call = some created) (data : mayWrite modes .data = true)
    (new : ∀ place, Own call.name place → modes place = none) :
    ∃ after, (permissions newModes).run modes (planProtected runtime last call) = some after ∧
      mayWrite after .data = true ∧ after .index = modes .index ∧
      VolumesMade runtime last call modes after := by
  obtain ⟨planned, final, plan, written, _, _, _⟩ := create_snapshot_some run
  have count : volumeCount runtime last call = final.nextVolumeNumber := by
    simp only [volumeCount, plan]
    rw [System.run_until_of_run written]
  have beginning : Writable call.name modes modes (openFileSystem (addPlanned planned)) := by
    constructor
    · exact data
    · exact Bool.noConfusion
    · exact fun _ => new _ rfl
    · simp [openFileSystem]
    · intro number
      simp [openFileSystem, new (.volume call.name number) rfl]
    · exact fun _ _ _ => rfl
  obtain ⟨after, writes, writable⟩ := writable_run newModes call.volumeSteps beginning written
  refine ⟨after, ?_, writable.data, ?_, ?_⟩
  · simp only [planProtected, plan]
    exact writes
  · exact writable.others .index Place.noConfusion fun _ => Place.noConfusion
  · constructor
    · intro number
      rw [count]
      exact writable.volumes number
    · rw [count]
      cases directory : final.createdDataDir with
      | false =>
          have nothing := mt writable.counted.mpr (by simp [directory])
          simp only [writable.noDirectory directory, true_iff]
          omega
      | true =>
          obtain ⟨permissions, found⟩ := may_write_present (writable.directory directory)
          have positive := writable.counted.mp directory
          simp only [found, reduceCtorEq, false_iff]
          omega
    · intro file
      exact writable.others _ Place.noConfusion fun _ => Place.noConfusion

theorem data_permitted (newModes : NewModes) (run : createSnapshot runtime last call = some created)
    (data : modes .data ≠ none) (index : modes .index ≠ none)
    (new : ∀ place, Own call.name place → modes place = none) :
    ∃ after, (permissions newModes).run modes (protectedDataOperations runtime last call) =
        some after ∧
      Protected after .data ∧ mayWrite after .index = true ∧
      VolumesMade runtime last call modes after := by
  obtain ⟨dataPermissions, dataFound⟩ := Option.ne_none_iff_exists'.mp data
  obtain ⟨indexPermissions, indexFound⟩ := Option.ne_none_iff_exists'.mp index
  have opened : (permissions newModes).run modes [.unprotect .data] =
      some (Function.update modes .data (some (unprotectFile dataPermissions))) := by
    simp only [System.run, permissions, permit, dataFound, Option.map_some]
  have stillNew : ∀ place, Own call.name place →
      Function.update modes .data (some (unprotectFile dataPermissions)) place = none := by
    intro place own
    rw [Function.update_of_ne]
    · exact new place own
    · rintro rfl
      exact own
  obtain ⟨middle, writes, writable, sameIndex, made⟩ := plan_permitted newModes run
    (by simp [mayWrite, unprotectFile]) stillNew
  obtain ⟨middlePermissions, middleFound⟩ := may_write_present writable
  rw [Function.update_of_ne Place.noConfusion, indexFound] at sameIndex
  have indexLater : Function.update middle .data (some (writeProtectFile middlePermissions))
      .index = some indexPermissions := by
    rw [Function.update_of_ne Place.noConfusion]
    exact sameIndex
  have closed : (permissions newModes).run middle [.writeProtect .data, .unprotect .index] =
      some (Function.update
        (Function.update middle .data (some (writeProtectFile middlePermissions))) .index
        (some (unprotectFile indexPermissions))) := by
    simp only [System.run, permissions, permit, middleFound, indexLater, Option.map_some]
  have whole : (permissions newModes).run modes (protectedDataOperations runtime last call) =
      some (Function.update
        (Function.update middle .data (some (writeProtectFile middlePermissions))) .index
        (some (unprotectFile indexPermissions))) := by
    have split : protectedDataOperations runtime last call =
        [.unprotect .data] ++
          (planProtected runtime last call ++ [.writeProtect .data, .unprotect .index]) := rfl
    rw [split, System.run_append, opened, Option.bind_some, System.run_append, writes,
      Option.bind_some, closed]
  refine ⟨_, whole, ?_, ?_, ?_⟩
  · refine ⟨writeProtectFile middlePermissions, ?_, rfl, rfl, rfl⟩
    rw [Function.update_of_ne Place.noConfusion, Function.update_self]
  · simp [mayWrite, unprotectFile]
  · constructor
    · intro number
      rw [Function.update_of_ne Place.noConfusion, Function.update_of_ne Place.noConfusion]
      exact made.volumes number
    · rw [Function.update_of_ne Place.noConfusion, Function.update_of_ne Place.noConfusion]
      exact made.directory
    · intro file
      rw [Function.update_of_ne Place.noConfusion, Function.update_of_ne Place.noConfusion,
        made.indexFiles, Function.update_of_ne Place.noConfusion]

theorem mem_snapshot_places {name : String} {count : Nat} {place : Place} :
    place ∈ snapshotPlaces name count ↔
      place = .indexFile (indexFileName name) ∨ place = .indexFile (hashFileName name) ∨
        (∃ number < count, place = .volume name number) ∨
        (count ≠ 0 ∧ place = .volumeDirectory name) := by
  unfold snapshotPlaces
  by_cases none : count = 0
  · simp [none]
  · simp [none, eq_comm]

theorem serialize_permitted (newModes : NewModes) (writes : Writes format call created)
    (writable : mayWrite modes .index = true)
    (noIndexFile : modes (.indexFile (indexFileName call.name)) = none)
    (noHashFile : modes (.indexFile (hashFileName call.name)) = none) :
    ∃ after, (permissions newModes).run modes
        ((writeFile (indexFileName call.name) writes.index ++
          writeFile (hashFileName call.name) writes.protection).map .file) = some after ∧
      after (.indexFile (indexFileName call.name)) ≠ none ∧
      after (.indexFile (hashFileName call.name)) ≠ none ∧
      ∀ place, (∀ file, place ≠ .indexFile file) → after place = modes place := by
  have different : Place.indexFile (hashFileName call.name) ≠
      .indexFile (indexFileName call.name) := by
    intro same
    exact hash_file_not_index _ _ (Place.indexFile.inj same)
  have first := write_file_permitted newModes noIndexFile writable writes.index
  have stillWritable : mayWrite (Function.update modes (.indexFile (indexFileName call.name))
      (some (newModes.permissions (.indexFile (indexFileName call.name))))) .index = true := by
    rw [may_write_other Place.noConfusion]
    exact writable
  have second := write_file_permitted newModes
    ((Function.update_of_ne different _ _).trans noHashFile) stillWritable writes.protection
  have both := System.run_append (permissions newModes)
    ((writeFile (indexFileName call.name) writes.index).map .file)
    ((writeFile (hashFileName call.name) writes.protection).map .file) modes
  rw [first, Option.bind_some, second, ← List.map_append] at both
  refine ⟨_, both, ?_, ?_, ?_⟩
  · rw [Function.update_of_ne different.symm, Function.update_self]
    exact Option.some_ne_none _
  · rw [Function.update_self]
    exact Option.some_ne_none _
  · intro place elsewhere
    rw [Function.update_of_ne (elsewhere _), Function.update_of_ne (elsewhere _)]

/-- Nothing that a call does is refused, and all that it makes is protected. -/
theorem operations_permitted (newModes : NewModes)
    (run : createSnapshot runtime last call = some created) (writes : Writes format call created)
    (data : modes .data ≠ none) (index : modes .index ≠ none)
    (new : ∀ place, Own call.name place → modes place = none) :
    ∃ after, (permissions newModes).run modes
        (protectedOperations last format call created writes) = some after ∧
      Protected after .data ∧ Protected after .index ∧
      ∀ place, Own call.name place → after place ≠ none → Protected after place := by
  obtain ⟨stored, first, closed, writable, made⟩ := data_permitted newModes run data index new
  obtain ⟨serialized, second, indexFile, hashFile, same⟩ := serialize_permitted newModes writes
    writable ((made.indexFiles _).trans (new _ (.inl rfl)))
    ((made.indexFiles _).trans (new _ (.inr rfl)))
  have present : ∀ place ∈ snapshotPlaces call.name (volumeCount runtime last call) ++ [.index],
      serialized place ≠ none := by
    intro place member
    rcases List.mem_append.mp member with own | directory
    · rcases mem_snapshot_places.mp own with rfl | rfl | ⟨number, inside, rfl⟩ | ⟨some, rfl⟩
      · exact indexFile
      · exact hashFile
      · rw [same _ fun _ => Place.noConfusion, ne_eq, made.volumes]
        omega
      · rw [same _ fun _ => Place.noConfusion, ne_eq, made.directory]
        exact some
    · rw [List.mem_singleton.mp directory, same _ fun _ => Place.noConfusion]
      obtain ⟨permissions, found⟩ := may_write_present writable
      simp [found]
  obtain ⟨after, third, existing, done⟩ := protections_run newModes _ present
  refine ⟨after, ?_, ?_, ?_, ?_⟩
  · simp only [protectedOperations, System.run_append, first, second, third, Option.bind_some]
  · have stillClosed : Protected serialized .data := by
      obtain ⟨permissions, found, rights⟩ := closed
      exact ⟨permissions, (same _ fun _ => Place.noConfusion).trans found, rights⟩
    refine protected_run ?_ third stillClosed
    intro operation inside
    obtain ⟨place, _, rfl⟩ := List.mem_map.mp inside
    exact ProtectedOperation.noConfusion
  · exact done .index (List.mem_append_right _ (List.mem_singleton_self _))
  · intro place own exists'
    apply done
    apply List.mem_append_left
    apply mem_snapshot_places.mpr
    have before := mt (existing place).mpr exists'
    cases place with
    | data => exact own.elim
    | index => exact own.elim
    | volumeDirectory other =>
        cases own
        rw [same _ fun _ => Place.noConfusion, made.directory] at before
        exact .inr (.inr (.inr ⟨before, rfl⟩))
    | volume other number =>
        cases own
        rw [same _ fun _ => Place.noConfusion, made.volumes] at before
        exact .inr (.inr (.inl ⟨number, by omega, rfl⟩))
    | indexFile file =>
        rcases own with rfl | rfl
        · exact .inl rfl
        · exact .inr (.inl rfl)

end Complete

/-- What one start of the program leaves, as in `Session`. A start that is not
stopped completes all operations of its call. -/
inductive ProtectedSession (runtime : Runtime) (format : IndexFormat runtime)
    (newModes : NewModes) (state : ProtectedDisk) (call : Call) : ProtectedDisk → Prop
  | refused {fault : Fault}
      (raises : readInSnapshots runtime format state.disk.indexFiles = .error fault) :
      ProtectedSession runtime format newModes state call state
  | failed {snapshots : List Snapshot}
      (loaded : readInSnapshots runtime format state.disk.indexFiles = .ok snapshots)
      (index : BackupNodeIndex) (labels : List WriteLabel) (performed : Nat) :
      ProtectedSession runtime format newModes state call
        ((protectedDisks newModes).runUntil state
          ((protectedFailedOperations call index labels).take performed))
  | added {snapshots : List Snapshot}
      (loaded : readInSnapshots runtime format state.disk.indexFiles = .ok snapshots)
      {created : Created}
      (run : createSnapshot runtime (newestIndex snapshots) call = some created)
      (writes : Writes format call created) (performed : Nat) :
      ProtectedSession runtime format newModes state call
        ((protectedDisks newModes).runUntil state
          ((protectedOperations (newestIndex snapshots) format call created writes).take
            performed))

inductive ProtectedSessions (runtime : Runtime) (format : IndexFormat runtime)
    (newModes : NewModes) (state : ProtectedDisk) : List Call → ProtectedDisk → Prop
  | none : ProtectedSessions runtime format newModes state [] state
  | next {past : List Call} {call : Call} {before after : ProtectedDisk}
      (earlier : ProtectedSessions runtime format newModes state past before)
      (session : ProtectedSession runtime format newModes before call after) :
      ProtectedSessions runtime format newModes state (call :: past) after

section Sessions

variable {runtime : Runtime} {format : IndexFormat runtime} {newModes : NewModes}
  {state before after : ProtectedDisk} {call : Call} {past : List Call}

/-- Permissions only stop a call earlier. -/
theorem session_unprotected (session : ProtectedSession runtime format newModes before call after) :
    Session runtime format before.disk call after.disk := by
  cases session with
  | refused raises => exact .refused raises
  | failed loaded index labels performed =>
      obtain ⟨count, reached⟩ := protected_disk_reached newModes before
        (failed_operations_erased call index labels) performed
      rw [reached]
      exact .failed loaded index labels count
  | @added snapshots loaded created run writes performed =>
      obtain ⟨count, reached⟩ := protected_disk_reached newModes before
        (operations_erased (newestIndex snapshots) format call created writes) performed
      rw [reached]
      exact .added loaded run writes count

theorem sessions_unprotected (ran : ProtectedSessions runtime format newModes state past after) :
    Sessions runtime format state.disk past after.disk := by
  induction ran with
  | none => exact .none
  | next earlier session induction => exact .next induction (session_unprotected session)

structure Matched (disk : Disk) (modes : Modes) : Prop where
  data : modes .data ≠ none
  index : modes .index ≠ none
  volumes : ∀ name number, modes (.volume name number) = none ↔
    disk.volumes.read (name, number) = none
  indexFiles : ∀ file, modes (.indexFile file) = none ↔ disk.indexFiles.read file = none

theorem update_none_iff {modes : Modes} {old : Place} {known : POSIXPermissions}
    (found : modes old = some known) (permissions : POSIXPermissions) (place : Place) :
    Function.update modes old (some permissions) place = none ↔ modes place = none := by
  by_cases here : place = old
  · subst here
    simp [found]
  · rw [Function.update_of_ne here]

variable {disk : Disk} {modes next : Modes}

theorem matched_modes (matched : Matched disk modes)
    (same : ∀ place, (∀ name, place ≠ .volumeDirectory name) →
      (next place = none ↔ modes place = none)) : Matched disk next where
  data := mt (same _ fun _ => Place.noConfusion).mp matched.data
  index := mt (same _ fun _ => Place.noConfusion).mp matched.index
  volumes name number := (same _ fun _ => Place.noConfusion).trans (matched.volumes name number)
  indexFiles file := (same _ fun _ => Place.noConfusion).trans (matched.indexFiles file)

theorem matched_create_volume {file : String × Nat} {volumes : Directory (String × Nat) Byte}
    (matched : Matched disk modes) (made : disk.volumes.create file = some volumes)
    (permitted : create newModes modes (.volume file.1 file.2) = some next) :
    Matched { disk with volumes := volumes } next := by
  obtain ⟨_, rfl⟩ := create_some permitted
  obtain ⟨_, read⟩ := Directory.read_create made
  constructor
  · rw [Function.update_of_ne Place.noConfusion]
    exact matched.data
  · rw [Function.update_of_ne Place.noConfusion]
    exact matched.index
  · intro name number
    rw [read]
    by_cases here : (name, number) = file
    · subst here
      simp
    · have different : Place.volume name number ≠ .volume file.1 file.2 := by
        intro same
        apply here
        cases same
        rfl
      rw [Function.update_of_ne different, Function.update_of_ne here]
      exact matched.volumes name number
  · intro other
    rw [Function.update_of_ne Place.noConfusion]
    exact matched.indexFiles other

theorem matched_create_index {file : String} {indexFiles : IndexFiles}
    (matched : Matched disk modes) (made : disk.indexFiles.create file = some indexFiles)
    (permitted : create newModes modes (.indexFile file) = some next) :
    Matched { disk with indexFiles := indexFiles } next := by
  obtain ⟨_, rfl⟩ := create_some permitted
  obtain ⟨_, read⟩ := Directory.read_create made
  constructor
  · rw [Function.update_of_ne Place.noConfusion]
    exact matched.data
  · rw [Function.update_of_ne Place.noConfusion]
    exact matched.index
  · intro name number
    rw [Function.update_of_ne Place.noConfusion]
    exact matched.volumes name number
  · intro other
    rw [read]
    by_cases here : other = file
    · subst here
      simp
    · rw [Function.update_of_ne (by simpa using here), Function.update_of_ne here]
      exact matched.indexFiles other

theorem matched_file {operation : FileOperation} {reached : Disk} (matched : Matched disk modes)
    (performed : perform disk operation = some reached)
    (permitted : permit newModes modes (.file operation) = some next) : Matched reached next := by
  cases operation with
  | other =>
      cases performed
      cases permitted
      exact matched
  | volume change =>
      obtain ⟨volumes, changed, rfl⟩ := Option.map_eq_some_iff.mp performed
      cases change with
      | create file => exact matched_create_volume matched changed permitted
      | extend file bytes =>
          cases permitted
          obtain ⟨old, found, read⟩ := Directory.read_extend changed
          refine ⟨matched.data, matched.index, ?_, matched.indexFiles⟩
          intro name number
          rw [read, matched.volumes]
          by_cases here : (name, number) = file
          · simp [here, found]
          · rw [Function.update_of_ne here]
  | index change =>
      obtain ⟨indexFiles, changed, rfl⟩ := Option.map_eq_some_iff.mp performed
      cases change with
      | create file => exact matched_create_index matched changed permitted
      | extend file bytes =>
          cases permitted
          obtain ⟨old, found, read⟩ := Directory.read_extend changed
          refine ⟨matched.data, matched.index, matched.volumes, ?_⟩
          intro other
          rw [read, matched.indexFiles]
          by_cases here : other = file
          · simp [here, found]
          · rw [Function.update_of_ne here]

theorem matched_step {operation : ProtectedOperation} (matched : Matched before.disk before.modes)
    (taken : performProtected newModes before operation = some after) :
    Matched after.disk after.modes := by
  obtain ⟨performed, permitted⟩ := perform_protected_some.mp taken
  cases operation with
  | file operation => exact matched_file matched performed permitted
  | createDirectory name =>
      obtain ⟨_, made⟩ := create_some permitted
      rw [← Option.some.inj performed, made]
      apply matched_modes matched
      intro place elsewhere
      rw [Function.update_of_ne (elsewhere name)]
  | unprotect place =>
      obtain ⟨permissions, found, same⟩ := Option.map_eq_some_iff.mp permitted
      rw [← Option.some.inj performed, ← same]
      exact matched_modes matched fun other _ => update_none_iff found _ other
  | writeProtect place =>
      obtain ⟨permissions, found, same⟩ := Option.map_eq_some_iff.mp permitted
      rw [← Option.some.inj performed, ← same]
      exact matched_modes matched fun other _ => update_none_iff found _ other

theorem write_unprotects_not (volumeSize : UInt64) (name : String) (labels : List WriteLabel)
    (state : WriteState) (place : Place) :
    ProtectedOperation.unprotect place ∉ writeProtected volumeSize name state labels := by
  induction labels generalizing state with
  | nil => exact List.not_mem_nil
  | cons label rest induction =>
      intro member
      rcases List.mem_append.mp member with here | later
      · cases label with
        | findStream writer =>
            simp only [stepProtected] at here
            by_cases new : findOwned writer state.openVolumes = none ∧
                claimFree writer state.openVolumes = none
            · rw [if_pos new] at here
              cases created : state.createdDataDir <;> simp [created] at here
            · rw [if_neg new] at here
              cases here
        | createFile path => simp [stepProtected] at here
        | beginWrite writer source => simp [stepProtected] at here
        | queryOffset writer => simp [stepProtected] at here
        | writeVolume writer nBytesWritten => simp [stepProtected] at here
        | bytesWereWritten writer => simp [stepProtected] at here
        | finishWrite writer => simp [stepProtected] at here
        | closeFile writer => simp [stepProtected] at here
      · cases taken : step volumeSize state label with
        | none => simp [taken] at later
        | some next =>
            simp only [taken] at later
            exact induction next later

theorem data_unprotects (last : Option BackupNodeIndex) {place : Place}
    (member : .unprotect place ∈ protectedDataOperations runtime last call) :
    place = .data ∨ place = .index := by
  rcases List.mem_cons.mp member with same | later
  · exact .inl (ProtectedOperation.unprotect.inj same)
  · rcases List.mem_append.mp later with planned | closing
    · exfalso
      unfold planProtected at planned
      cases plan : planSnapshot runtime last call with
      | error fault => simp [plan] at planned
      | ok nodes =>
          simp only [plan] at planned
          exact write_unprotects_not _ _ _ _ _ planned
    · simp at closing
      exact .inr closing

theorem failed_unprotects {index : BackupNodeIndex} {labels : List WriteLabel} {place : Place}
    (member : .unprotect place ∈ protectedFailedOperations call index labels) :
    place = .data := by
  rcases List.mem_cons.mp member with same | later
  · exact ProtectedOperation.unprotect.inj same
  · exact (write_unprotects_not _ _ _ _ _ later).elim

theorem operations_unprotect (last : Option BackupNodeIndex) {created : Created}
    {writes : Writes format call created} {place : Place}
    (member : .unprotect place ∈ protectedOperations last format call created writes) :
    place = .data ∨ place = .index := by
  rcases List.mem_append.mp member with data | later
  · exact data_unprotects last data
  · simp at later

theorem run_until_matched (list : List ProtectedOperation)
    (matched : Matched state.disk state.modes) :
    Matched ((protectedDisks newModes).runUntil state list).disk
      ((protectedDisks newModes).runUntil state list).modes := by
  refine @System.run_until_invariant _ _ (protectedDisks newModes)
    (fun state => Matched state.disk state.modes) list ?_ state matched
  intro operation _ before after taken matched
  exact matched_step matched taken

theorem run_until_protected {list : List ProtectedOperation} {place : Place}
    (only : ∀ place, .unprotect place ∈ list → place = .data ∨ place = .index)
    (noData : place ≠ .data) (noIndex : place ≠ .index)
    (isProtected : Protected state.modes place) :
    Protected ((protectedDisks newModes).runUntil state list).modes place := by
  refine @System.run_until_invariant _ _ (protectedDisks newModes)
    (fun state => Protected state.modes place) list ?_ state isProtected
  intro operation member before after taken earlier
  refine permit_protected (perform_protected_some.mp taken).2 ?_ earlier
  rintro rfl
  rcases only place member with same | same
  · exact noData same
  · exact noIndex same

theorem session_matched (session : ProtectedSession runtime format newModes before call after)
    (matched : Matched before.disk before.modes) : Matched after.disk after.modes := by
  cases session with
  | refused raises => exact matched
  | failed loaded index labels performed => exact run_until_matched _ matched
  | added loaded run writes performed => exact run_until_matched _ matched

theorem session_protected (session : ProtectedSession runtime format newModes before call after)
    {place : Place} (noData : place ≠ .data) (noIndex : place ≠ .index)
    (isProtected : Protected before.modes place) : Protected after.modes place := by
  cases session with
  | refused raises => exact isProtected
  | failed loaded index labels performed =>
      refine run_until_protected ?_ noData noIndex isProtected
      intro other member
      exact .inl (failed_unprotects (List.mem_of_mem_take member))
  | added loaded run writes performed =>
      refine run_until_protected ?_ noData noIndex isProtected
      intro other member
      exact operations_unprotect _ (List.mem_of_mem_take member)

theorem sessions_matched (ran : ProtectedSessions runtime format newModes state past after)
    (matched : Matched state.disk state.modes) : Matched after.disk after.modes := by
  induction ran with
  | none => exact matched
  | next earlier session induction => exact session_matched session induction

theorem sessions_protected (ran : ProtectedSessions runtime format newModes state past after)
    {place : Place} (noData : place ≠ .data) (noIndex : place ≠ .index)
    (isProtected : Protected state.modes place) : Protected after.modes place := by
  induction ran with
  | none => exact isProtected
  | next earlier session induction => exact session_protected session noData noIndex induction

theorem initial_matched :
    Matched (protectedDisks newModes).initial.disk (protectedDisks newModes).initial.modes where
  data := Option.some_ne_none _
  index := Option.some_ne_none _
  volumes _ _ := iff_of_true rfl rfl
  indexFiles _ := iff_of_true rfl rfl

/-- Without permissions a call with a new name is complete. -/
theorem operations_run {last : Option BackupNodeIndex} {created : Created} {disk : Disk}
    (run : createSnapshot runtime last call = some created) (writes : Writes format call created)
    (volumes : ∀ number, disk.volumes.read (call.name, number) = none)
    (indexFile : disk.indexFiles.read (indexFileName call.name) = none)
    (hashFile : disk.indexFiles.read (hashFileName call.name) = none) :
    ∃ after, disks.run disk (operations last format call created writes) = some after := by
  obtain ⟨stored, _, data, indexFiles, _⟩ := data_operations_run run volumes
  obtain ⟨indexed, first, _, read⟩ :=
    write_file_run (by rw [indexFiles]; exact indexFile) writes.index
  have noHashFile : indexed.indexFiles.read (hashFileName call.name) = none := by
    rw [read, Function.update_of_ne (hash_file_not_index _ _), indexFiles]
    exact hashFile
  obtain ⟨hashed, second, _, _⟩ := write_file_run noHashFile writes.protection
  refine ⟨hashed, ?_⟩
  simp only [operations, System.run_append, data, first, second, others_run, Option.bind_some]

/-- After starts that were killed, failed or refused at any operation, the files are
those of a run without permissions. A further call with a new name is never refused for
a permission; when it is complete, the two directories and all that it made are write
protected, and what it made stays so whatever happens to later calls. -/
theorem snapshots_stay_protected (runtime : Runtime) (format : IndexFormat runtime)
    (newModes : NewModes) (past : List Call) (state : ProtectedDisk)
    (ran : ProtectedSessions runtime format newModes (protectedDisks newModes).initial past
      state) :
    Sessions runtime format disks.initial past state.disk ∧
    ∀ call snapshots created (writes : Writes format call created),
      readInSnapshots runtime format state.disk.indexFiles = .ok snapshots →
      createSnapshot runtime (newestIndex snapshots) call = some created →
      (∀ place, Own call.name place → state.modes place = none) →
        ∃ after, (protectedDisks newModes).run state
            (protectedOperations (newestIndex snapshots) format call created writes) =
              some after ∧
          disks.run state.disk (operations (newestIndex snapshots) format call created writes) =
            some after.disk ∧
          Protected after.modes .data ∧ Protected after.modes .index ∧
          ∀ later final, ProtectedSessions runtime format newModes after later final →
            ∀ place, Own call.name place → after.modes place ≠ none →
              Protected final.modes place := by
  refine ⟨sessions_unprotected ran, ?_⟩
  intro call snapshots created writes loaded run new
  have matched := sessions_matched ran initial_matched
  obtain ⟨disk, diskRun⟩ := operations_run run writes
    (fun number => (matched.volumes call.name number).mp (new _ rfl))
    ((matched.indexFiles _).mp (new _ (.inl rfl))) ((matched.indexFiles _).mp (new _ (.inr rfl)))
  obtain ⟨modes, permitted, data, index, made⟩ :=
    operations_permitted newModes run writes matched.data matched.index new
  refine ⟨{ disk := disk, modes := modes }, ?_, diskRun, data, index, ?_⟩
  · rw [protected_run_iff]
    refine ⟨?_, permitted⟩
    rw [run_reaching, operations_erased, ← run_reaching]
    exact diskRun
  · intro later final further place own present
    refine sessions_protected further ?_ ?_ (made place own present)
    · rintro rfl
      exact own
    · rintro rfl
      exact own

/-- Directories with mode 0755, files with mode 0644. -/
def usualModes : NewModes where
  permissions
    | .volume _ _ => posixPermissions 0 0 0o644
    | .indexFile _ => posixPermissions 0 0 0o644
    | _ => posixPermissions 0 0 0o755
  writable place := by cases place <;> rfl

theorem second_start_protected :
    ∃ killed, ProtectedSessions spellingRuntime spellingFormat usualModes
        (protectedDisks usualModes).initial [firstBackup] killed ∧
      ∃ created after, createSnapshot spellingRuntime none firstBackup = some created ∧
        (protectedDisks usualModes).run killed (protectedOperations none spellingFormat firstBackup
          created (singleWrites firstBackup created)) = some after ∧
        ∀ place, Own firstBackup.name place → after.modes place ≠ none →
          Protected after.modes place := by
  have outcome : (createSnapshot spellingRuntime none firstBackup).isSome = true := by
    decide +kernel
  obtain ⟨created, run⟩ := Option.isSome_iff_exists.mp outcome
  have loaded : readInSnapshots spellingRuntime spellingFormat
      (protectedDisks usualModes).initial.disk.indexFiles = .ok [] :=
    read_in_holds (holds_empty spellingFormat)
  have session : ProtectedSession spellingRuntime spellingFormat usualModes
      (protectedDisks usualModes).initial firstBackup _ :=
    .added loaded run (singleWrites firstBackup created) 1
  have ran := ProtectedSessions.next .none session
  have new : ∀ place, Own firstBackup.name place →
      ((protectedDisks usualModes).runUntil (protectedDisks usualModes).initial
        ((protectedOperations (newestIndex []) spellingFormat firstBackup created
          (singleWrites firstBackup created)).take 1)).modes place = none := by
    intro place own
    cases place with
    | data => exact own.elim
    | index => exact own.elim
    | volumeDirectory name => rfl
    | volume name number => rfl
    | indexFile file => rfl
  obtain ⟨after, complete, _, _, _, kept⟩ :=
    (snapshots_stay_protected spellingRuntime spellingFormat usualModes _ _ ran).2 firstBackup []
      created (singleWrites firstBackup created) loaded run new
  exact ⟨_, ran, created, after, run, complete,
    fun place own present => kept [] after .none place own present⟩

end Sessions

end ACBackup.WriteProtection
