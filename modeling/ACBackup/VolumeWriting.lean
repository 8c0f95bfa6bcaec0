import ACBackup.Library.Extents
import ACBackup.Library.Transition
import ACBackup.OpenVolumes

/-!
Writing to a `FlatVolumesFileSystem`. Any number of `VolumesOutputStream`s run
the loop of `WriteBytes` side by side; a step of the system is one access to
what they share. The offset query and the write to the volume file take no
lock, so that they are two steps.
-/

namespace ACBackup.VolumeWriting

open ACBackup.Library.Extents ACBackup.Library.Transition
open ACBackup.Platform ACBackup.NodeAttributes ACBackup.Indexing ACBackup.OpenVolumes

set_option autoImplicit false

/-- Where a writer stands. `source` is the part of the buffer that the loop has
still to write. -/
inductive WriterPhase where
  | absent
  | idle
  | looping (source : Bytes)
  | found (source : Bytes) (number : Nat) (leftSize : UInt64)
  | positioned (source : Bytes) (number : Nat) (leftSize : UInt64) (offset : Nat)
  | wrote (source : Bytes) (number offset nBytesWritten : Nat)
  | closed
  deriving DecidableEq

/-- `accepted` collects the buffers that the calls of `WriteBytes` were given. -/
structure WriteState where
  createdDataDir : Bool
  nextVolumeNumber : Nat
  openVolumes : List OpenVolumeForWriting
  files : Nat → Bytes
  index : BackupNodeIndex
  writers : Path → WriterPhase
  accepted : Path → Bytes

def openFileSystem (index : BackupNodeIndex) : WriteState where
  createdDataDir := false
  nextVolumeNumber := 0
  openVolumes := []
  files := fun _ => []
  index := index
  writers := fun _ => .absent
  accepted := fun _ => []

def WriteState.setPhase (state : WriteState) (writer : Path) (phase : WriterPhase) : WriteState :=
  { state with writers := Function.update state.writers writer phase }

def WriteState.accept (state : WriteState) (writer : Path) (source : Bytes) : WriteState :=
  { state with
    accepted := Function.update state.accepted writer (state.accepted writer ++ source) }

def WriteState.appendToVolume (state : WriteState) (number : Nat) (bytes : Bytes) : WriteState :=
  { state with files := Function.update state.files number (state.files number ++ bytes) }

/-- `CreateFile`, for a node that holds no data yet. -/
def createFile (state : WriteState) (path : Path) : Option WriteState :=
  match state.writers path, state.index.lookup path with
  | .absent, some attributes =>
      if attributes.blocks = [] then some (state.setPhase path .idle) else none
  | _, _ => none

/-- `FindStream`: the number and the left size of the volume that the writer
owns afterwards. -/
def findStream (volumeSize : UInt64) (state : WriteState) (writer : Path) :
    (Nat × UInt64) × WriteState :=
  match findOwned writer state.openVolumes with
  | some volume => ((volume.number, volume.leftSize), state)
  | none =>
      match claimFree writer state.openVolumes with
      | some (volume, volumes) =>
          ((volume.number, volume.leftSize), { state with openVolumes := volumes })
      | none =>
          let newVolume : OpenVolumeForWriting :=
            { number := state.nextVolumeNumber
              leftSize := volumeSize
              ownedWriter := some writer }
          ((newVolume.number, newVolume.leftSize),
            { state with
              createdDataDir := true
              nextVolumeNumber := state.nextVolumeNumber + 1
              openVolumes := state.openVolumes ++ [newVolume]
              files := Function.update state.files state.nextVolumeNumber [] })

/-- Both operands of the minimum are cast to 32 bits. -/
def bytesToWrite (leftSize : UInt64) (source : Bytes) : Nat :=
  min (leftSize.toNat % 2 ^ 32) (source.length % 2 ^ 32)

def WriteState.recordBlock (state : WriteState) (writer : Path) (block : Block) : WriteState :=
  { state with
    index := state.index.modify writer fun attributes => attributes.addBlock block
    openVolumes := fillOwned writer block.size state.openVolumes }

def bytesWereWrittenToVolume (state : WriteState) (writer : Path) (offset nBytesWritten : Nat) :
    Except Fault WriteState :=
  match findOwned writer state.openVolumes with
  | none => .ok state
  | some volume =>
      match addBlock state.index writer
          { volumeNumber := volume.number, offset := offset, size := nBytesWritten } with
      | .error fault => .error fault
      | .ok index =>
          .ok
            { state with
              index := index
              openVolumes := fillOwned writer nBytesWritten state.openVolumes }

def closeFile (state : WriteState) (writer : Path) : WriteState :=
  { state with openVolumes := releaseOwned writer state.openVolumes }

inductive WriteLabel where
  | createFile (path : Path)
  | beginWrite (writer : Path) (source : Bytes)
  | findStream (writer : Path)
  | queryOffset (writer : Path)
  | writeVolume (writer : Path) (nBytesWritten : Nat)
  | bytesWereWritten (writer : Path)
  | finishWrite (writer : Path)
  | closeFile (writer : Path)
  deriving DecidableEq

def WriteLabel.writer : WriteLabel → Path
  | .createFile path => path
  | .beginWrite writer _ => writer
  | .findStream writer => writer
  | .queryOffset writer => writer
  | .writeVolume writer _ => writer
  | .bytesWereWritten writer => writer
  | .finishWrite writer => writer
  | .closeFile writer => writer

/-- A volume file takes any part of the request, but nothing only when nothing
is offered. -/
def Accepts (offered nBytesWritten : Nat) : Prop :=
  nBytesWritten ≤ offered ∧ (0 < offered → 0 < nBytesWritten)

instance (offered nBytesWritten : Nat) : Decidable (Accepts offered nBytesWritten) :=
  inferInstanceAs (Decidable (_ ∧ _))

def step (volumeSize : UInt64) (state : WriteState) : WriteLabel → Option WriteState
  | .createFile path => createFile state path
  | .beginWrite writer source =>
      match state.writers writer with
      | .idle =>
          if source.length < 2 ^ 32 then
            some ((state.accept writer source).setPhase writer (.looping source))
          else none
      | _ => none
  | .findStream writer =>
      match state.writers writer with
      | .looping source =>
          if source = [] then none
          else
            let (stream, next) := findStream volumeSize state writer
            some (next.setPhase writer (.found source stream.1 stream.2))
      | _ => none
  | .queryOffset writer =>
      match state.writers writer with
      | .found source number leftSize =>
          some (state.setPhase writer
            (.positioned source number leftSize (state.files number).length))
      | _ => none
  | .writeVolume writer nBytesWritten =>
      match state.writers writer with
      | .positioned source number leftSize offset =>
          if Accepts (bytesToWrite leftSize source) nBytesWritten then
            some ((state.appendToVolume number (source.take nBytesWritten)).setPhase writer
              (.wrote (source.drop nBytesWritten) number offset nBytesWritten))
          else none
      | _ => none
  | .bytesWereWritten writer =>
      match state.writers writer with
      | .wrote source _ offset nBytesWritten =>
          match bytesWereWrittenToVolume state writer offset nBytesWritten with
          | .error _ => none
          | .ok next => some (next.setPhase writer (.looping source))
      | _ => none
  | .finishWrite writer =>
      match state.writers writer with
      | .looping source => if source = [] then some (state.setPhase writer .idle) else none
      | _ => none
  | .closeFile writer =>
      match state.writers writer with
      | .idle => some ((closeFile state writer).setPhase writer .closed)
      | _ => none

def passLabels (writer : Path) (nBytesWritten : Nat) : List WriteLabel :=
  [.findStream writer, .queryOffset writer, .writeVolume writer nBytesWritten,
    .bytesWereWritten writer]

def writing (volumeSize : UInt64) (index : BackupNodeIndex) : System WriteState WriteLabel where
  initial := openFileSystem index
  step := step volumeSize

theorem writing_reachable_step {volumeSize : UInt64} {index : BackupNodeIndex}
    {state next : WriteState} {label : WriteLabel}
    (reachable : (writing volumeSize index).Reachable System.anyStep state)
    (taken : step volumeSize state label = some next) :
    (writing volumeSize index).Reachable System.anyStep next :=
  @System.Reachable.step _ _ (writing volumeSize index) _ state next label reachable trivial taken

theorem set_phase_same (state : WriteState) (writer : Path) (phase : WriterPhase) :
    (state.setPhase writer phase).writers writer = phase := by
  simp [WriteState.setPhase]

theorem set_phase_other (state : WriteState) {writer other : Path} (phase : WriterPhase)
    (different : other ≠ writer) :
    (state.setPhase writer phase).writers other = state.writers other := by
  simp [WriteState.setPhase, different]

theorem find_stream_keeps (volumeSize : UInt64) (state : WriteState) (writer : Path) :
    ∃ createdDataDir nextVolumeNumber openVolumes files,
      (findStream volumeSize state writer).2 =
        { state with
          createdDataDir := createdDataDir
          nextVolumeNumber := nextVolumeNumber
          openVolumes := openVolumes
          files := files } := by
  unfold findStream
  cases findOwned writer state.openVolumes with
  | some volume => exact ⟨_, _, _, _, rfl⟩
  | none => cases claimFree writer state.openVolumes <;> exact ⟨_, _, _, _, rfl⟩

theorem bytes_were_written_keeps {state recorded : WriteState} {writer : Path}
    {offset nBytesWritten : Nat}
    (outcome : bytesWereWrittenToVolume state writer offset nBytesWritten = .ok recorded) :
    ∃ index openVolumes, recorded = { state with index := index, openVolumes := openVolumes } := by
  unfold bytesWereWrittenToVolume at outcome
  split at outcome
  · cases outcome
    exact ⟨_, _, rfl⟩
  · split at outcome
    · cases outcome
    · cases outcome
      exact ⟨_, _, rfl⟩

section Inversion

/-! What a taken step says about the state before it and the one after it. -/

variable {volumeSize : UInt64} {state next : WriteState}

theorem step_create_file {path : Path} (taken : step volumeSize state (.createFile path) = some next) :
    state.writers path = .absent ∧
      (∃ attributes, state.index.lookup path = some attributes ∧ attributes.blocks = []) ∧
      next = state.setPhase path .idle := by
  simp only [step, createFile] at taken
  cases phase : state.writers path <;> cases found : state.index.lookup path <;>
    simp only [phase, found, reduceCtorEq] at taken
  case absent.some attributes =>
    by_cases empty : attributes.blocks = []
    · rw [if_pos empty] at taken
      cases taken
      exact ⟨rfl, ⟨attributes, rfl, empty⟩, rfl⟩
    · rw [if_neg empty] at taken
      cases taken

theorem step_begin_write {writer : Path} {source : Bytes}
    (taken : step volumeSize state (.beginWrite writer source) = some next) :
    state.writers writer = .idle ∧ source.length < 2 ^ 32 ∧
      next = (state.accept writer source).setPhase writer (.looping source) := by
  simp only [step] at taken
  cases phase : state.writers writer <;> simp only [phase, reduceCtorEq] at taken
  case idle =>
    by_cases short : source.length < 2 ^ 32
    · rw [if_pos short] at taken
      cases taken
      exact ⟨rfl, short, rfl⟩
    · rw [if_neg short] at taken
      cases taken

theorem step_find_stream {writer : Path}
    (taken : step volumeSize state (.findStream writer) = some next) :
    ∃ source, state.writers writer = .looping source ∧ source ≠ [] ∧
      next = (findStream volumeSize state writer).2.setPhase writer
        (.found source (findStream volumeSize state writer).1.1
          (findStream volumeSize state writer).1.2) := by
  simp only [step] at taken
  cases phase : state.writers writer <;> simp only [phase, reduceCtorEq] at taken
  case looping source =>
    by_cases empty : source = []
    · rw [if_pos empty] at taken
      cases taken
    · rw [if_neg empty] at taken
      cases taken
      exact ⟨source, rfl, empty, rfl⟩

theorem step_query_offset {writer : Path}
    (taken : step volumeSize state (.queryOffset writer) = some next) :
    ∃ source number leftSize, state.writers writer = .found source number leftSize ∧
      next = state.setPhase writer
        (.positioned source number leftSize (state.files number).length) := by
  simp only [step] at taken
  cases phase : state.writers writer <;> simp only [phase, reduceCtorEq] at taken
  case found source number leftSize =>
    cases taken
    exact ⟨source, number, leftSize, rfl, rfl⟩

theorem step_write_volume {writer : Path} {nBytesWritten : Nat}
    (taken : step volumeSize state (.writeVolume writer nBytesWritten) = some next) :
    ∃ source number leftSize offset,
      state.writers writer = .positioned source number leftSize offset ∧
      Accepts (bytesToWrite leftSize source) nBytesWritten ∧
      next = (state.appendToVolume number (source.take nBytesWritten)).setPhase writer
        (.wrote (source.drop nBytesWritten) number offset nBytesWritten) := by
  simp only [step] at taken
  cases phase : state.writers writer <;> simp only [phase, reduceCtorEq] at taken
  case positioned source number leftSize offset =>
    by_cases accepts : Accepts (bytesToWrite leftSize source) nBytesWritten
    · rw [if_pos accepts] at taken
      cases taken
      exact ⟨source, number, leftSize, offset, rfl, accepts, rfl⟩
    · rw [if_neg accepts] at taken
      cases taken

theorem step_bytes_were_written {writer : Path}
    (taken : step volumeSize state (.bytesWereWritten writer) = some next) :
    ∃ source number offset nBytesWritten recorded,
      state.writers writer = .wrote source number offset nBytesWritten ∧
      bytesWereWrittenToVolume state writer offset nBytesWritten = .ok recorded ∧
      next = recorded.setPhase writer (.looping source) := by
  simp only [step] at taken
  cases phase : state.writers writer <;> simp only [phase, reduceCtorEq] at taken
  case wrote source number offset nBytesWritten =>
    cases outcome : bytesWereWrittenToVolume state writer offset nBytesWritten with
    | error fault => simp [outcome] at taken
    | ok recorded =>
        simp only [outcome, Option.some.injEq] at taken
        exact ⟨source, number, offset, nBytesWritten, recorded, rfl, outcome, taken.symm⟩

theorem step_finish_write {writer : Path}
    (taken : step volumeSize state (.finishWrite writer) = some next) :
    state.writers writer = .looping [] ∧ next = state.setPhase writer .idle := by
  simp only [step] at taken
  cases phase : state.writers writer <;> simp only [phase, reduceCtorEq] at taken
  case looping source =>
    by_cases empty : source = []
    · rw [if_pos empty] at taken
      cases taken
      exact ⟨by rw [empty], rfl⟩
    · rw [if_neg empty] at taken
      cases taken

theorem step_close_file {writer : Path}
    (taken : step volumeSize state (.closeFile writer) = some next) :
    state.writers writer = .idle ∧ next = (closeFile state writer).setPhase writer .closed := by
  simp only [step] at taken
  cases phase : state.writers writer <;> simp only [phase, reduceCtorEq] at taken
  case idle =>
    cases taken
    exact ⟨rfl, rfl⟩

/-- A step moves its own writer only. -/
theorem step_other_writers {label : WriteLabel} (taken : step volumeSize state label = some next)
    {other : Path} (different : other ≠ label.writer) :
    next.writers other = state.writers other := by
  cases label with
  | createFile path =>
      obtain ⟨_, _, rfl⟩ := step_create_file taken
      exact set_phase_other state _ different
  | beginWrite writer source =>
      obtain ⟨_, _, rfl⟩ := step_begin_write taken
      exact set_phase_other _ _ different
  | findStream writer =>
      obtain ⟨source, _, _, rfl⟩ := step_find_stream taken
      obtain ⟨_, _, _, _, found⟩ := find_stream_keeps volumeSize state writer
      apply (set_phase_other _ _ different).trans
      rw [found]
  | queryOffset writer =>
      obtain ⟨_, _, _, _, rfl⟩ := step_query_offset taken
      exact set_phase_other _ _ different
  | writeVolume writer nBytesWritten =>
      obtain ⟨_, _, _, _, _, _, rfl⟩ := step_write_volume taken
      exact set_phase_other _ _ different
  | bytesWereWritten writer =>
      obtain ⟨source, number, offset, nBytesWritten, recorded, _, outcome, rfl⟩ :=
        step_bytes_were_written taken
      obtain ⟨_, _, rfl⟩ := bytes_were_written_keeps outcome
      exact set_phase_other _ _ different
  | finishWrite writer =>
      obtain ⟨_, rfl⟩ := step_finish_write taken
      exact set_phase_other _ _ different
  | closeFile writer =>
      obtain ⟨_, rfl⟩ := step_close_file taken
      exact set_phase_other _ _ different

end Inversion

theorem run_other_writers {volumeSize : UInt64} {index : BackupNodeIndex}
    (labels : List WriteLabel) {state final : WriteState}
    (run : (writing volumeSize index).run state labels = some final) {other : Path}
    (different : ∀ label ∈ labels, other ≠ label.writer) :
    final.writers other = state.writers other := by
  induction labels generalizing state with
  | nil =>
      simp only [System.run, Option.some.injEq] at run
      rw [run]
  | cons label rest induction =>
      obtain ⟨next, taken, further⟩ := System.run_cons_some run
      rw [induction further fun later member => different later (List.mem_cons_of_mem _ member)]
      exact step_other_writers taken (different label (List.mem_cons_self ..))

end ACBackup.VolumeWriting
