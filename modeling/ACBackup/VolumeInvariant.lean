import ACBackup.VolumeReading
import ACBackup.VolumeWriting

/-!
The invariant of the writing system. A step belongs to one writer: the frame
says what it leaves alone, and what it does to its own writer is shown step by
step. Files only grow, so that a recorded block keeps its bytes.
-/

namespace ACBackup.VolumeInvariant

open ACBackup.Library.Extents ACBackup.Library.Transition
open ACBackup.Platform ACBackup.NodeAttributes ACBackup.Indexing ACBackup.OpenVolumes
open ACBackup.VolumeReading ACBackup.VolumeWriting

set_option autoImplicit false

def Recorded (state : WriteState) (blocks : List Block) : Prop :=
  ∀ block ∈ blocks, block.volumeNumber < state.nextVolumeNumber ∧
    block.offset + block.size ≤ (state.files block.volumeNumber).length

def remaining : WriterPhase → Bytes
  | .looping source => source
  | .found source _ _ => source
  | .positioned source _ _ _ => source
  | .wrote source _ _ _ => source
  | _ => []

def inFlight (files : Nat → Bytes) : WriterPhase → Bytes
  | .wrote _ number offset nBytesWritten => slice (files number) offset nBytesWritten
  | _ => []

def streamNumber : WriterPhase → Option Nat
  | .found _ number _ => some number
  | .positioned _ number _ _ => some number
  | .wrote _ number _ _ => some number
  | _ => none

def Owns (state : WriteState) (writer : Path) (number : Nat) (leftSize : UInt64) : Prop :=
  { number := number, leftSize := leftSize, ownedWriter := some writer } ∈ state.openVolumes

/-- A stream reference that a writer has taken stays its own until it is
recorded what was written. -/
def StreamHeld (state : WriteState) (writer : Path) : WriterPhase → Prop
  | .found _ number leftSize => Owns state writer number leftSize
  | .positioned _ number leftSize offset =>
      Owns state writer number leftSize ∧ offset = (state.files number).length
  | .wrote _ number offset nBytesWritten =>
      (∃ leftSize, Owns state writer number leftSize ∧ nBytesWritten ≤ leftSize.toNat) ∧
        offset + nBytesWritten ≤ (state.files number).length
  | _ => True

structure WriterConsistent (state : WriteState) (writer : Path) : Prop where
  untouched : state.writers writer = .absent → state.accepted writer = []
  stream : StreamHeld state writer (state.writers writer)
  stored : state.writers writer ≠ .absent →
    ∃ attributes, state.index.lookup writer = some attributes ∧
      Recorded state attributes.blocks ∧
      (attributes.blocks ≠ [] → attributes.ownsBlocks = true) ∧
      storedBytes state.files attributes.blocks ++
        inFlight state.files (state.writers writer) ++ remaining (state.writers writer) =
          state.accepted writer

def Uses (state : WriteState) (writer : Path) (number : Nat) : Prop :=
  state.writers writer ≠ .absent ∧
    (streamNumber (state.writers writer) = some number ∨
      ∃ attributes, state.index.lookup writer = some attributes ∧
        ∃ block ∈ attributes.blocks, block.volumeNumber = number)

structure Consistent (state : WriteState) : Prop where
  apart : state.openVolumes.Pairwise Apart
  numbered : ∀ volume ∈ state.openVolumes, volume.number < state.nextVolumeNumber
  writer : ∀ path, WriterConsistent state path
  used : ∀ number, number < state.nextVolumeNumber → ∃ path, Uses state path number

structure Frame (writer : Path) (before after : WriteState) : Prop where
  writers : ∀ other, other ≠ writer → after.writers other = before.writers other
  accepted : ∀ other, other ≠ writer → after.accepted other = before.accepted other
  lookup : ∀ other, other ≠ writer → after.index.lookup other = before.index.lookup other
  volumes : ∀ other, other ≠ writer → ∀ volume ∈ before.openVolumes,
    volume.ownedWriter = some other →
      volume ∈ after.openVolumes ∧ after.files volume.number = before.files volume.number
  files : ∀ number, number < before.nextVolumeNumber →
    ∃ more, after.files number = before.files number ++ more
  numbers : before.nextVolumeNumber ≤ after.nextVolumeNumber

section Blocks

theorem stored_bytes_append (files : Nat → Bytes) (first second : List Block) :
    storedBytes files (first ++ second) = storedBytes files first ++ storedBytes files second := by
  simp [storedBytes]

theorem stored_bytes_append_block (files : Nat → Bytes) (blocks : List Block) (block : Block) :
    storedBytes files (appendBlock blocks block) =
      storedBytes files blocks ++
        slice (files block.volumeNumber) block.offset block.size := by
  rcases append_block_cases blocks block with pushed | merged
  · rw [pushed, stored_bytes_append]
    simp [storedBytes]
  · obtain ⟨front, lastBlock, parts, volume, offset, merged⟩ := merged
    have joined := slice_add (files lastBlock.volumeNumber) lastBlock.offset lastBlock.size
      block.size
    rw [merged, parts, stored_bytes_append, stored_bytes_append, List.append_assoc]
    simp only [storedBytes, List.flatMap_cons, List.flatMap_nil, List.append_nil]
    rw [joined, offset, volume]

theorem recorded_append_block {state : WriteState} {blocks : List Block} {block : Block}
    (recorded : Recorded state blocks) (number : block.volumeNumber < state.nextVolumeNumber)
    (inside : block.offset + block.size ≤ (state.files block.volumeNumber).length) :
    Recorded state (appendBlock blocks block) := by
  intro other member
  rcases append_block_cases blocks block with pushed | merged
  · rw [pushed, List.mem_append, List.mem_singleton] at member
    rcases member with earlier | same
    · exact recorded other earlier
    · rw [same]
      exact ⟨number, inside⟩
  · obtain ⟨front, lastBlock, parts, volume, offset, merged⟩ := merged
    rw [merged, List.mem_append, List.mem_singleton] at member
    rcases member with earlier | same
    · apply recorded other
      rw [parts]
      exact List.mem_append_left _ earlier
    · rw [same]
      simp only
      rw [volume]
      refine ⟨number, ?_⟩
      omega

theorem append_block_volumes (blocks : List Block) (block : Block) (number : Nat) :
    (∃ other ∈ appendBlock blocks block, other.volumeNumber = number) ↔
      (∃ other ∈ blocks, other.volumeNumber = number) ∨ block.volumeNumber = number := by
  rcases append_block_cases blocks block with pushed | merged
  · rw [pushed]
    simp [or_and_right, exists_or]
  · obtain ⟨front, lastBlock, parts, volume, _, merged⟩ := merged
    rw [merged, parts]
    simp only [List.mem_append, List.mem_singleton, or_and_right, exists_or, exists_eq_left,
      volume, or_assoc, or_self]

end Blocks

section Frames

variable {writer : Path} {before after : WriteState}

theorem frame_refl (writer : Path) (state : WriteState) : Frame writer state state where
  writers _ _ := rfl
  accepted _ _ := rfl
  lookup _ _ := rfl
  volumes _ _ _ member _ := ⟨member, rfl⟩
  files number _ := ⟨[], by rw [List.append_nil]⟩
  numbers := Nat.le_refl _

theorem frame_set_phase (frame : Frame writer before after) (phase : WriterPhase) :
    Frame writer before (after.setPhase writer phase) where
  writers other different := by
    rw [set_phase_other after phase different]
    exact frame.writers other different
  accepted := frame.accepted
  lookup := frame.lookup
  volumes := frame.volumes
  files := frame.files
  numbers := frame.numbers

/-- Growing keeps complete extents, so that a recorded list stays recorded and
stands for the same bytes. -/
theorem frame_recorded (frame : Frame writer before after) {blocks : List Block}
    (recorded : Recorded before blocks) :
    Recorded after blocks ∧
      storedBytes after.files blocks = storedBytes before.files blocks := by
  have grown : ∀ block ∈ blocks, block.volumeNumber < after.nextVolumeNumber ∧
      block.offset + block.size ≤ (after.files block.volumeNumber).length ∧
      slice (after.files block.volumeNumber) block.offset block.size =
        slice (before.files block.volumeNumber) block.offset block.size := by
    intro block member
    obtain ⟨number, inside⟩ := recorded block member
    obtain ⟨more, file⟩ := frame.files block.volumeNumber number
    have numbers := frame.numbers
    refine ⟨by omega, ?_, ?_⟩
    · rw [file, List.length_append]
      omega
    · rw [file]
      exact slice_append_inside more inside
  constructor
  · intro block member
    exact ⟨(grown block member).1, (grown block member).2.1⟩
  · unfold storedBytes
    rw [List.flatMap_congr]
    intro block member
    exact (grown block member).2.2

theorem frame_stream (frame : Frame writer before after) {other : Path} (different : other ≠ writer)
    {phase : WriterPhase} (stream : StreamHeld before other phase) :
    StreamHeld after other phase := by
  have kept : ∀ number leftSize, Owns before other number leftSize →
      Owns after other number leftSize ∧ after.files number = before.files number := by
    intro number leftSize owned
    exact frame.volumes other different _ owned rfl
  cases phase <;> simp only [StreamHeld] at stream ⊢
  case found source number leftSize => exact (kept number leftSize stream).1
  case positioned source number leftSize offset =>
    obtain ⟨owned, position⟩ := stream
    obtain ⟨stillOwned, file⟩ := kept number leftSize owned
    rw [file]
    exact ⟨stillOwned, position⟩
  case wrote source number offset nBytesWritten =>
    obtain ⟨⟨leftSize, owned, bound⟩, inside⟩ := stream
    obtain ⟨stillOwned, file⟩ := kept number leftSize owned
    rw [file]
    exact ⟨⟨leftSize, stillOwned, bound⟩, inside⟩

/-- The bytes in flight of another writer lie in a volume that it owns. -/
theorem frame_in_flight (frame : Frame writer before after) {other : Path}
    (different : other ≠ writer) {phase : WriterPhase} (stream : StreamHeld before other phase) :
    inFlight after.files phase = inFlight before.files phase := by
  cases phase <;> simp only [StreamHeld] at stream <;> simp only [inFlight]
  case wrote source number offset nBytesWritten =>
    obtain ⟨⟨leftSize, owned, _⟩, _⟩ := stream
    have file := (frame.volumes other different _ owned rfl).2
    simp only at file
    rw [file]

theorem frame_writer_consistent (frame : Frame writer before after) {other : Path}
    (different : other ≠ writer) (consistent : WriterConsistent before other) :
    WriterConsistent after other := by
  have phase := frame.writers other different
  have accepted := frame.accepted other different
  refine ⟨?_, ?_, ?_⟩
  · rw [phase, accepted]
    exact consistent.untouched
  · rw [phase]
    exact frame_stream frame different consistent.stream
  · rw [phase, accepted, frame.lookup other different,
      frame_in_flight frame different consistent.stream]
    intro present
    obtain ⟨attributes, found, recorded, owned, contents⟩ := consistent.stored present
    obtain ⟨stillRecorded, bytes⟩ := frame_recorded frame recorded
    refine ⟨attributes, found, stillRecorded, owned, ?_⟩
    rw [bytes]
    exact contents

theorem frame_uses (frame : Frame writer before after) {other : Path}
    (different : other ≠ writer) {number : Nat} (uses : Uses before other number) :
    Uses after other number := by
  unfold Uses at uses ⊢
  rw [frame.writers other different, frame.lookup other different]
  exact uses

end Frames

section Steps

/-! One lemma for each step of the system. -/

variable {volumeSize : UInt64} {state next : WriteState}

/-- A step keeps the invariant when it keeps the volumes apart and its own
writer consistent, and when what its writer used stays in use. -/
theorem consistent_of_frame {writer : Path} (consistent : Consistent state)
    (frame : Frame writer state next) (apart : next.openVolumes.Pairwise Apart)
    (numbered : ∀ volume ∈ next.openVolumes, volume.number < next.nextVolumeNumber)
    (self : WriterConsistent next writer)
    (usesKept : ∀ number, Uses state writer number → Uses next writer number)
    (usesNew : ∀ number, state.nextVolumeNumber ≤ number → number < next.nextVolumeNumber →
      Uses next writer number) : Consistent next where
  apart := apart
  numbered := numbered
  writer path := by
    by_cases same : path = writer
    · rw [same]
      exact self
    · exact frame_writer_consistent frame same (consistent.writer path)
  used number bound := by
    by_cases old : number < state.nextVolumeNumber
    · obtain ⟨path, uses⟩ := consistent.used number old
      by_cases same : path = writer
      · rw [same] at uses
        exact ⟨writer, usesKept number uses⟩
      · exact ⟨path, frame_uses frame same uses⟩
    · exact ⟨writer, usesNew number (by omega) bound⟩

theorem consistent_create_file {path : Path} (consistent : Consistent state)
    (taken : step volumeSize state (.createFile path) = some next) : Consistent next := by
  obtain ⟨absent, ⟨attributes, found, empty⟩, rfl⟩ := step_create_file taken
  have accepted := (consistent.writer path).untouched absent
  apply consistent_of_frame consistent (frame_set_phase (frame_refl path state) .idle)
    consistent.apart consistent.numbered
  · refine ⟨?_, ?_, ?_⟩
    · intro phase
      rw [set_phase_same] at phase
      cases phase
    · rw [set_phase_same]
      trivial
    · intro _
      refine ⟨attributes, found, ?_, ?_, ?_⟩
      · rw [empty]
        intro block member
        cases member
      · intro nonempty
        exact absurd empty nonempty
      · rw [set_phase_same, empty]
        exact accepted.symm
  · intro number uses
    exact absurd absent uses.1
  · intro number old new
    exact absurd new (Nat.not_lt.mpr old)

private theorem writer_consistent_phase {writer : Path} (consistent : WriterConsistent state writer)
    (storage : next.index = state.index ∧ next.files = state.files ∧
      next.nextVolumeNumber = state.nextVolumeNumber)
    (present : state.writers writer ≠ .absent) (stillPresent : next.writers writer ≠ .absent)
    (stream : StreamHeld next writer (next.writers writer))
    (contents : ∀ stored,
      stored ++ inFlight state.files (state.writers writer) ++ remaining (state.writers writer) =
          state.accepted writer →
        stored ++ inFlight state.files (next.writers writer) ++ remaining (next.writers writer) =
          next.accepted writer) : WriterConsistent next writer := by
  obtain ⟨attributes, found, recorded, owned, bytes⟩ := consistent.stored present
  obtain ⟨index, files, numbers⟩ := storage
  refine ⟨?_, stream, ?_⟩
  · intro absent
    exact absurd absent stillPresent
  · intro _
    refine ⟨attributes, ?_, ?_, owned, ?_⟩
    · rw [index]
      exact found
    · intro block member
      rw [numbers, files]
      exact recorded block member
    · rw [files]
      exact contents _ bytes

private theorem uses_same_stream {writer : Path} (index : next.index = state.index)
    (stream : streamNumber (next.writers writer) = streamNumber (state.writers writer))
    (stillPresent : next.writers writer ≠ .absent) (number : Nat)
    (uses : Uses state writer number) : Uses next writer number := by
  unfold Uses at uses ⊢
  rw [stream, index]
  exact ⟨stillPresent, uses.2⟩

theorem consistent_begin_write {writer : Path} {source : Bytes} (consistent : Consistent state)
    (taken : step volumeSize state (.beginWrite writer source) = some next) : Consistent next := by
  obtain ⟨idle, _, rfl⟩ := step_begin_write taken
  have phase := set_phase_same (state.accept writer source) writer (.looping source)
  have frame : Frame writer state (state.accept writer source) := by
    have base := frame_refl writer state
    refine ⟨base.writers, ?_, base.lookup, base.volumes, base.files, base.numbers⟩
    intro other different
    simp [WriteState.accept, different]
  apply consistent_of_frame consistent (frame_set_phase frame _)
    consistent.apart consistent.numbered
  · apply writer_consistent_phase (consistent.writer writer)
    · exact ⟨rfl, rfl, rfl⟩
    · simp [idle]
    · simp [phase]
    · rw [phase]
      trivial
    · intro stored bytes
      rw [idle] at bytes
      simp only [inFlight, remaining, List.append_nil] at bytes
      rw [phase]
      simp [inFlight, remaining, bytes, WriteState.accept, WriteState.setPhase]
  · intro number uses
    apply uses_same_stream _ _ _ number uses
    · rfl
    · rw [phase, idle]
      rfl
    · simp [phase]
  · intro number old new
    exact absurd new (Nat.not_lt.mpr old)

theorem consistent_query_offset {writer : Path} (consistent : Consistent state)
    (taken : step volumeSize state (.queryOffset writer) = some next) : Consistent next := by
  obtain ⟨source, number, leftSize, found, rfl⟩ := step_query_offset taken
  have phase := set_phase_same state writer
    (.positioned source number leftSize (state.files number).length)
  have stream := (consistent.writer writer).stream
  rw [found] at stream
  apply consistent_of_frame consistent (frame_set_phase (frame_refl writer state) _)
    consistent.apart consistent.numbered
  · apply writer_consistent_phase (consistent.writer writer)
    · exact ⟨rfl, rfl, rfl⟩
    · simp [found]
    · simp [phase]
    · rw [phase]
      exact ⟨stream, rfl⟩
    · intro stored bytes
      rw [found] at bytes
      rw [phase]
      exact bytes
  · intro number uses
    apply uses_same_stream _ _ _ number uses
    · rfl
    · rw [phase, found]
      rfl
    · simp [phase]
  · intro number old new
    exact absurd new (Nat.not_lt.mpr old)

theorem consistent_finish_write {writer : Path} (consistent : Consistent state)
    (taken : step volumeSize state (.finishWrite writer) = some next) : Consistent next := by
  obtain ⟨finished, rfl⟩ := step_finish_write taken
  have phase := set_phase_same state writer .idle
  apply consistent_of_frame consistent (frame_set_phase (frame_refl writer state) _)
    consistent.apart consistent.numbered
  · apply writer_consistent_phase (consistent.writer writer)
    · exact ⟨rfl, rfl, rfl⟩
    · simp [finished]
    · simp [phase]
    · rw [phase]
      trivial
    · intro stored bytes
      rw [finished] at bytes
      rw [phase]
      exact bytes
  · intro number uses
    apply uses_same_stream _ _ _ number uses
    · rfl
    · rw [phase, finished]
      rfl
    · simp [phase]
  · intro number old new
    exact absurd new (Nat.not_lt.mpr old)

theorem frame_append_to_volume {writer : Path} {number : Nat} {leftSize : UInt64}
    (consistent : Consistent state) (owned : Owns state writer number leftSize) (bytes : Bytes) :
    Frame writer state (state.appendToVolume number bytes) := by
  have base := frame_refl writer state
  refine ⟨base.writers, base.accepted, base.lookup, ?_, ?_, base.numbers⟩
  · intro other different volume member otherOwned
    refine ⟨member, ?_⟩
    have apartNumber : volume.number ≠ number := by
      intro same
      have equal := apart_number_unique consistent.apart member owned same
      rw [equal] at otherOwned
      exact different (Option.some.inj otherOwned).symm
    simp [WriteState.appendToVolume, apartNumber]
  · intro other bound
    by_cases same : other = number
    · subst same
      exact ⟨bytes, by simp [WriteState.appendToVolume]⟩
    · exact ⟨[], by simp [WriteState.appendToVolume, same]⟩

theorem consistent_write_volume {writer : Path} {nBytesWritten : Nat}
    (consistent : Consistent state)
    (taken : step volumeSize state (.writeVolume writer nBytesWritten) = some next) :
    Consistent next := by
  obtain ⟨source, number, leftSize, offset, positioned, accepts, rfl⟩ := step_write_volume taken
  have self := consistent.writer writer
  have stream := self.stream
  rw [positioned] at stream
  obtain ⟨owned, position⟩ := stream
  subst position
  have offered := accepts.1
  unfold bytesToWrite at offered
  have fits : nBytesWritten ≤ source.length := by
    have bound := Nat.mod_le source.length (2 ^ 32)
    omega
  have left : nBytesWritten ≤ leftSize.toNat := by
    have bound := Nat.mod_le leftSize.toNat (2 ^ 32)
    omega
  have taken : (source.take nBytesWritten).length = nBytesWritten := List.length_take_of_le fits
  have frame := frame_append_to_volume consistent owned (source.take nBytesWritten)
  have file : (state.appendToVolume number (source.take nBytesWritten)).files number =
      state.files number ++ source.take nBytesWritten := by
    simp [WriteState.appendToVolume]
  have phase := set_phase_same (state.appendToVolume number (source.take nBytesWritten)) writer
    (.wrote (source.drop nBytesWritten) number (state.files number).length nBytesWritten)
  apply consistent_of_frame consistent (frame_set_phase frame _) consistent.apart
    consistent.numbered
  · refine ⟨?_, ?_, ?_⟩
    · intro absent
      rw [phase] at absent
      cases absent
    · rw [phase]
      refine ⟨⟨leftSize, owned, left⟩, ?_⟩
      rw [WriteState.setPhase, file, List.length_append, taken]
    · intro _
      have present : state.writers writer ≠ .absent := by simp [positioned]
      obtain ⟨attributes, found, recorded, ownsBlocks, contents⟩ := self.stored present
      obtain ⟨stillRecorded, bytes⟩ := frame_recorded frame recorded
      refine ⟨attributes, found, stillRecorded, ownsBlocks, ?_⟩
      have appended := slice_appended (state.files number) (source.take nBytesWritten)
      rw [taken] at appended
      rw [positioned] at contents
      simp only [inFlight, remaining, List.append_nil] at contents
      rw [phase, WriteState.setPhase, bytes]
      simp only [inFlight, remaining]
      rw [file, appended, List.append_assoc, List.take_append_drop]
      exact contents
  · intro number uses
    apply uses_same_stream _ _ _ number uses
    · rfl
    · rw [phase, positioned]
      rfl
    · simp [phase]
  · intro number old new
    exact absurd new (Nat.not_lt.mpr old)

theorem bytes_were_written_recorded {writer : Path} {source : Bytes}
    {number offset nBytesWritten : Nat} (consistent : Consistent state)
    (wrote : state.writers writer = .wrote source number offset nBytesWritten) :
    ∃ leftSize, Owns state writer number leftSize ∧ nBytesWritten ≤ leftSize.toNat ∧
      bytesWereWrittenToVolume state writer offset nBytesWritten = .ok
        (state.recordBlock writer
          { volumeNumber := number, offset := offset, size := nBytesWritten }) := by
  have self := consistent.writer writer
  have stream := self.stream
  rw [wrote] at stream
  obtain ⟨⟨leftSize, owned, left⟩, _⟩ := stream
  have present : state.writers writer ≠ .absent := by simp [wrote]
  obtain ⟨attributes, found, _⟩ := self.stored present
  refine ⟨leftSize, owned, left, ?_⟩
  rw [bytesWereWrittenToVolume, find_owned_unique consistent.apart owned rfl]
  simp only [add_block_ok found]
  rfl

theorem frame_record_block {writer : Path} {number : Nat} {leftSize : UInt64}
    (consistent : Consistent state) (owned : Owns state writer number leftSize) (block : Block) :
    Frame writer state (state.recordBlock writer block) := by
  have base := frame_refl writer state
  refine ⟨base.writers, base.accepted, ?_, ?_, base.files, base.numbers⟩
  · intro other different
    rw [WriteState.recordBlock, NodeIndex.lookup_modify, if_neg different]
  · intro other different volume member otherOwned
    refine ⟨?_, rfl⟩
    obtain ⟨front, back, parts, filled⟩ := fill_owned_split block.size
      (find_owned_unique consistent.apart owned rfl)
    rw [parts] at member
    rcases member_cases member with same | beside
    · rw [same] at otherOwned
      exact absurd (Option.some.inj otherOwned).symm different
    · simp only [WriteState.recordBlock, filled]
      split
      · exact beside
      · exact member_beside beside _

theorem volumes_record_block {writer : Path} {number : Nat} {leftSize : UInt64}
    (consistent : Consistent state) (owned : Owns state writer number leftSize) (block : Block) :
    (state.recordBlock writer block).openVolumes.Pairwise Apart ∧
      ∀ volume ∈ (state.recordBlock writer block).openVolumes,
        volume.number < state.nextVolumeNumber := by
  obtain ⟨front, back, parts, filled⟩ := fill_owned_split block.size
    (find_owned_unique consistent.apart owned rfl)
  have apart := consistent.apart
  have numbered := consistent.numbered
  have below : number < state.nextVolumeNumber := numbered _ owned
  rw [parts] at apart numbered
  simp only [WriteState.recordBlock, filled]
  split
  · refine ⟨apart_remove apart, ?_⟩
    intro volume member
    exact numbered volume (member_beside member _)
  · refine ⟨?_, ?_⟩
    · apply apart_replace apart
      · rfl
      · intro other otherOwned volume member sameOwner
        have different := (apart_others apart volume member).2 other sameOwner
        exact different otherOwned
    · intro volume member
      rcases member_cases member with same | beside
      · rw [same]
        exact below
      · exact numbered volume (member_beside beside _)

theorem consistent_bytes_were_written {writer : Path} (consistent : Consistent state)
    (taken : step volumeSize state (.bytesWereWritten writer) = some next) : Consistent next := by
  obtain ⟨source, number, offset, nBytesWritten, recorded, wrote, outcome, rfl⟩ :=
    step_bytes_were_written taken
  obtain ⟨leftSize, owned, left, result⟩ := bytes_were_written_recorded consistent wrote
  rw [result] at outcome
  cases outcome
  have self := consistent.writer writer
  have stream := self.stream
  rw [wrote] at stream
  have inside := stream.2
  have below : number < state.nextVolumeNumber := consistent.numbered _ owned
  have frame := frame_record_block consistent owned
    { volumeNumber := number, offset := offset, size := nBytesWritten }
  obtain ⟨apart, numbered⟩ := volumes_record_block consistent owned
    { volumeNumber := number, offset := offset, size := nBytesWritten }
  have present : state.writers writer ≠ .absent := by simp [wrote]
  obtain ⟨attributes, found, before, ownsBlocks, contents⟩ := self.stored present
  have recordedAttributes := NodeIndex.lookup_modify state.index writer writer fun attributes =>
    attributes.addBlock { volumeNumber := number, offset := offset, size := nBytesWritten }
  rw [if_pos rfl, found, Option.map_some] at recordedAttributes
  have phase := set_phase_same
    (state.recordBlock writer { volumeNumber := number, offset := offset, size := nBytesWritten })
    writer (.looping source)
  apply consistent_of_frame consistent (frame_set_phase frame _) apart numbered
  · refine ⟨?_, ?_, ?_⟩
    · intro absent
      rw [phase] at absent
      cases absent
    · rw [phase]
      trivial
    · intro _
      refine ⟨_, recordedAttributes, ?_, ?_, ?_⟩
      · exact recorded_append_block before below inside
      · intro _
        rfl
      · rw [phase]
        simp only [BackupNodeAttributes.addBlock, WriteState.setPhase, WriteState.recordBlock,
          stored_bytes_append_block, inFlight, remaining, List.append_nil]
        rw [wrote] at contents
        exact contents
  · intro other uses
    refine ⟨by simp [phase], .inr ⟨_, recordedAttributes, ?_⟩⟩
    simp only [BackupNodeAttributes.addBlock]
    rw [append_block_volumes]
    rcases uses.2 with streaming | stored
    · rw [wrote] at streaming
      exact .inr (Option.some.inj streaming)
    · obtain ⟨old, oldFound, block⟩ := stored
      rw [found, Option.some.injEq] at oldFound
      subst oldFound
      exact .inl block
  · intro other old new
    exact absurd new (Nat.not_lt.mpr old)

structure StreamFound (state : WriteState) (writer : Path) (result : (Nat × UInt64) × WriteState) :
    Prop where
  owned : Owns result.2 writer result.1.1 result.1.2
  frame : Frame writer state result.2
  apart : result.2.openVolumes.Pairwise Apart
  numbered : ∀ volume ∈ result.2.openVolumes, volume.number < result.2.nextVolumeNumber
  index : result.2.index = state.index
  writers : result.2.writers = state.writers
  accepted : result.2.accepted = state.accepted
  fresh : ∀ number, state.nextVolumeNumber ≤ number → number < result.2.nextVolumeNumber →
    number = result.1.1

private theorem claim_free_found {writer : Path} {volume : OpenVolumeForWriting}
    {volumes : List OpenVolumeForWriting} (consistent : Consistent state)
    (unowned : findOwned writer state.openVolumes = none)
    (claim : claimFree writer state.openVolumes = some (volume, volumes)) :
    StreamFound state writer
      ((volume.number, volume.leftSize), { state with openVolumes := volumes }) := by
  obtain ⟨front, free, back, parts, noOwner, claimed, replaced⟩ := claim_free_split claim
  have base := frame_refl writer state
  have apart := consistent.apart
  have numbered := consistent.numbered
  rw [parts] at apart numbered
  subst claimed
  refine ⟨?_, ⟨base.writers, base.accepted, base.lookup, ?_, base.files, base.numbers⟩,
    ?_, ?_, rfl, rfl, rfl, ?_⟩
  · simp only [Owns, replaced]
    exact List.mem_append_right _ (List.mem_cons_self ..)
  · intro other different volume member owned
    refine ⟨?_, rfl⟩
    rw [parts] at member
    rcases member_cases member with same | beside
    · rw [same, noOwner] at owned
      cases owned
    · simp only [replaced]
      exact member_beside beside _
  · simp only [replaced]
    apply apart_replace apart
    · rfl
    · intro other owned volume member
      have same : writer = other := Option.some.inj owned
      rw [← same]
      apply find_owned_none unowned volume
      rw [parts]
      exact member_beside member _
  · simp only [replaced]
    intro volume member
    rcases member_cases member with same | beside
    · rw [same]
      exact numbered free (List.mem_append_right _ (List.mem_cons_self ..))
    · exact numbered volume (member_beside beside _)
  · intro number old new
    exact absurd new (Nat.not_lt.mpr old)

private theorem new_volume_found {writer : Path} (volumeSize : UInt64)
    (consistent : Consistent state) (unowned : findOwned writer state.openVolumes = none) :
    StreamFound state writer
      ((state.nextVolumeNumber, volumeSize),
        { state with
          createdDataDir := true
          nextVolumeNumber := state.nextVolumeNumber + 1
          openVolumes := state.openVolumes ++
            [{ number := state.nextVolumeNumber
               leftSize := volumeSize
               ownedWriter := some writer }]
          files := Function.update state.files state.nextVolumeNumber [] }) := by
  have base := frame_refl writer state
  have numbered := consistent.numbered
  refine ⟨?_, ⟨base.writers, base.accepted, base.lookup, ?_, ?_, Nat.le_succ _⟩,
    ?_, ?_, rfl, rfl, rfl, ?_⟩
  · exact List.mem_append_right _ (List.mem_singleton_self _)
  · intro other _ volume member _
    have below := numbered volume member
    refine ⟨List.mem_append_left _ member, ?_⟩
    simp [Nat.ne_of_lt below]
  · intro number below
    refine ⟨[], ?_⟩
    simp [Nat.ne_of_lt below]
  · apply apart_push consistent.apart
    intro other member
    have below := numbered other member
    refine ⟨Nat.ne_of_lt below, ?_⟩
    intro owner otherOwned owned
    have same : writer = owner := Option.some.inj owned
    rw [← same] at otherOwned
    exact find_owned_none unowned other member otherOwned
  · intro volume member
    rcases List.mem_append.mp member with old | new
    · have below := numbered volume old
      simp only
      omega
    · rw [List.mem_singleton.mp new]
      exact Nat.lt_succ_self _
  · intro number old new
    simp only at new ⊢
    omega

theorem find_stream_found (volumeSize : UInt64) (consistent : Consistent state) (writer : Path) :
    StreamFound state writer (findStream volumeSize state writer) := by
  cases owned : findOwned writer state.openVolumes with
  | some volume =>
      obtain ⟨member, owner⟩ := find_owned_some owned
      rw [owned_eq owner] at member
      simp only [findStream, owned]
      refine ⟨member, frame_refl writer state, consistent.apart, consistent.numbered,
        rfl, rfl, rfl, ?_⟩
      intro number old new
      exact absurd new (Nat.not_lt.mpr old)
  | none =>
      cases claim : claimFree writer state.openVolumes with
      | some result =>
          simp only [findStream, owned, claim]
          exact claim_free_found consistent owned claim
      | none =>
          simp only [findStream, owned, claim]
          exact new_volume_found volumeSize consistent owned

theorem consistent_find_stream {writer : Path} (consistent : Consistent state)
    (taken : step volumeSize state (.findStream writer) = some next) : Consistent next := by
  obtain ⟨source, looping, _, rfl⟩ := step_find_stream taken
  have stream := find_stream_found volumeSize consistent writer
  generalize findStream volumeSize state writer = result at stream
  have phase := set_phase_same result.2 writer (.found source result.1.1 result.1.2)
  apply consistent_of_frame consistent (frame_set_phase stream.frame _) stream.apart
    stream.numbered
  · refine ⟨?_, ?_, ?_⟩
    · intro absent
      rw [phase] at absent
      cases absent
    · rw [phase]
      exact stream.owned
    · intro _
      have present : state.writers writer ≠ .absent := by simp [looping]
      obtain ⟨attributes, found, recorded, ownsBlocks, contents⟩ :=
        (consistent.writer writer).stored present
      obtain ⟨stillRecorded, bytes⟩ := frame_recorded stream.frame recorded
      refine ⟨attributes, ?_, stillRecorded, ownsBlocks, ?_⟩
      · rw [WriteState.setPhase, stream.index]
        exact found
      · rw [looping] at contents
        rw [phase, WriteState.setPhase, bytes, stream.accepted]
        exact contents
  · intro number uses
    refine ⟨by simp [phase], .inr ?_⟩
    rw [WriteState.setPhase, stream.index]
    rcases uses.2 with streaming | stored
    · rw [looping] at streaming
      cases streaming
    · exact stored
  · intro number old new
    refine ⟨by simp [phase], .inl ?_⟩
    rw [phase, stream.fresh number old new]
    rfl

theorem consistent_close_file {writer : Path} (consistent : Consistent state)
    (taken : step volumeSize state (.closeFile writer) = some next) : Consistent next := by
  obtain ⟨idle, rfl⟩ := step_close_file taken
  have base := frame_refl writer state
  have phase := set_phase_same (closeFile state writer) writer .closed
  have volumes : (closeFile state writer).openVolumes.Pairwise Apart ∧
      (∀ volume ∈ (closeFile state writer).openVolumes,
        volume.number < state.nextVolumeNumber) ∧
      ∀ other, other ≠ writer → ∀ volume ∈ state.openVolumes,
        volume.ownedWriter = some other → volume ∈ (closeFile state writer).openVolumes := by
    have apart := consistent.apart
    have numbered := consistent.numbered
    rcases release_owned_split writer state.openVolumes with same | changed
    · simp only [closeFile, same]
      exact ⟨apart, numbered, fun other _ volume member _ => member⟩
    · obtain ⟨front, volume, back, parts, owned, released⟩ := changed
      simp only [closeFile, released]
      rw [parts] at apart numbered ⊢
      refine ⟨?_, ?_, ?_⟩
      · apply apart_replace apart
        · rfl
        · intro other otherOwned
          cases otherOwned
      · intro other member
        rcases member_cases member with same | beside
        · rw [same]
          exact numbered volume (List.mem_append_right _ (List.mem_cons_self ..))
        · exact numbered other (member_beside beside _)
      · intro other different kept member keptOwner
        rcases member_cases member with same | beside
        · rw [same, owned] at keptOwner
          exact absurd (Option.some.inj keptOwner).symm different
        · exact member_beside beside _
  obtain ⟨apart, numbered, kept⟩ := volumes
  have frame : Frame writer state (closeFile state writer) :=
    ⟨base.writers, base.accepted, base.lookup,
      fun other different volume member owned => ⟨kept other different volume member owned, rfl⟩,
      base.files, base.numbers⟩
  apply consistent_of_frame consistent (frame_set_phase frame _) apart numbered
  · apply writer_consistent_phase (consistent.writer writer)
    · exact ⟨rfl, rfl, rfl⟩
    · simp [idle]
    · simp [phase]
    · rw [phase]
      trivial
    · intro stored bytes
      rw [idle] at bytes
      rw [phase]
      exact bytes
  · intro number uses
    apply uses_same_stream _ _ _ number uses
    · rfl
    · rw [phase, idle]
      rfl
    · simp [phase]
  · intro number old new
    exact absurd new (Nat.not_lt.mpr old)

theorem consistent_step {label : WriteLabel} (consistent : Consistent state)
    (taken : step volumeSize state label = some next) : Consistent next := by
  cases label with
  | createFile path => exact consistent_create_file consistent taken
  | beginWrite writer source => exact consistent_begin_write consistent taken
  | findStream writer => exact consistent_find_stream consistent taken
  | queryOffset writer => exact consistent_query_offset consistent taken
  | writeVolume writer nBytesWritten => exact consistent_write_volume consistent taken
  | bytesWereWritten writer => exact consistent_bytes_were_written consistent taken
  | finishWrite writer => exact consistent_finish_write consistent taken
  | closeFile writer => exact consistent_close_file consistent taken

end Steps

theorem consistent_open (index : BackupNodeIndex) : Consistent (openFileSystem index) where
  apart := List.Pairwise.nil
  numbered volume member := by cases member
  writer path :=
    { untouched := fun _ => rfl
      stream := trivial
      stored := fun present => absurd rfl present }
  used number bound := absurd bound (Nat.not_lt_zero _)

/-- The invariant of every run, whatever the index it starts from. -/
theorem consistent_reachable {volumeSize : UInt64} {index : BackupNodeIndex} {state : WriteState}
    (reachable : (writing volumeSize index).Reachable System.anyStep state) : Consistent state :=
  System.reachable_invariant Consistent (consistent_open index)
    (fun _ _ _ _ consistent _ taken => consistent_step consistent taken) reachable

section Growth

/-! What writing does to the index: the lists of the writers that were opened
grow, and nothing else. -/

structure Grown (initial : BackupNodeIndex) (state : WriteState) : Prop where
  paths : state.index.nodes.map Prod.fst = initial.nodes.map Prod.fst
  untouched : ∀ path, state.writers path = .absent →
    state.index.lookup path = initial.lookup path
  extended : ∀ path attributes, initial.lookup path = some attributes →
    ∃ blocks ownsBlocks, state.index.lookup path =
        some { attributes with blocks := blocks, ownsBlocks := ownsBlocks } ∧
      (blocks = [] → ownsBlocks = attributes.ownsBlocks)

variable {volumeSize : UInt64} {initial : BackupNodeIndex} {state next : WriteState}

theorem step_index {label : WriteLabel} (taken : step volumeSize state label = some next) :
    next.writers label.writer ≠ .absent ∧
      (next.index = state.index ∨
        ∃ block, next.index =
          state.index.modify label.writer fun attributes => attributes.addBlock block) := by
  cases label with
  | createFile path =>
      obtain ⟨_, _, rfl⟩ := step_create_file taken
      exact ⟨by simp [WriteLabel.writer, set_phase_same], .inl rfl⟩
  | beginWrite writer source =>
      obtain ⟨_, _, rfl⟩ := step_begin_write taken
      exact ⟨by simp [WriteLabel.writer, set_phase_same], .inl rfl⟩
  | findStream writer =>
      obtain ⟨source, _, _, rfl⟩ := step_find_stream taken
      refine ⟨by simp [WriteLabel.writer, set_phase_same], .inl ?_⟩
      obtain ⟨_, _, _, _, found⟩ := find_stream_keeps volumeSize state writer
      rw [found]
      rfl
  | queryOffset writer =>
      obtain ⟨_, _, _, _, rfl⟩ := step_query_offset taken
      exact ⟨by simp [WriteLabel.writer, set_phase_same], .inl rfl⟩
  | writeVolume writer nBytesWritten =>
      obtain ⟨_, _, _, _, _, _, rfl⟩ := step_write_volume taken
      exact ⟨by simp [WriteLabel.writer, set_phase_same], .inl rfl⟩
  | bytesWereWritten writer =>
      obtain ⟨source, number, offset, nBytesWritten, recorded, _, outcome, rfl⟩ :=
        step_bytes_were_written taken
      refine ⟨by simp [WriteLabel.writer, set_phase_same], ?_⟩
      unfold bytesWereWrittenToVolume at outcome
      cases owned : findOwned writer state.openVolumes with
      | none =>
          simp only [owned, Except.ok.injEq] at outcome
          left
          rw [← outcome]
          rfl
      | some volume =>
          simp only [owned, addBlock] at outcome
          cases number : state.index.getNodeIndex writer with
          | error fault => simp [number] at outcome
          | ok node =>
              simp only [number, Except.ok.injEq] at outcome
              right
              rw [← outcome]
              exact ⟨_, rfl⟩
  | finishWrite writer =>
      obtain ⟨_, rfl⟩ := step_finish_write taken
      exact ⟨by simp [WriteLabel.writer, set_phase_same], .inl rfl⟩
  | closeFile writer =>
      obtain ⟨_, rfl⟩ := step_close_file taken
      exact ⟨by simp [WriteLabel.writer, set_phase_same], .inl rfl⟩

theorem grown_step {label : WriteLabel} (grown : Grown initial state)
    (taken : step volumeSize state label = some next) : Grown initial next := by
  obtain ⟨present, change⟩ := step_index taken
  have absent : ∀ path, next.writers path = .absent →
      path ≠ label.writer ∧ state.writers path = .absent := by
    intro path phase
    have different : path ≠ label.writer := by
      intro same
      rw [same] at phase
      exact present phase
    rw [step_other_writers taken different] at phase
    exact ⟨different, phase⟩
  rcases change with same | ⟨block, changed⟩
  · refine ⟨?_, ?_, ?_⟩
    · rw [same]
      exact grown.paths
    · intro path phase
      rw [same]
      exact grown.untouched path (absent path phase).2
    · rw [same]
      exact grown.extended
  · refine ⟨?_, ?_, ?_⟩
    · rw [changed, NodeIndex.modify_paths]
      exact grown.paths
    · intro path phase
      obtain ⟨different, before⟩ := absent path phase
      rw [changed, NodeIndex.lookup_modify, if_neg different]
      exact grown.untouched path before
    · intro path attributes found
      obtain ⟨blocks, ownsBlocks, current, kept⟩ := grown.extended path attributes found
      rw [changed, NodeIndex.lookup_modify]
      by_cases same : path = label.writer
      · rw [if_pos same, ← same, current]
        refine ⟨appendBlock blocks block, true, rfl, ?_⟩
        intro empty
        exact absurd empty (append_block_nonempty blocks block)
      · rw [if_neg same, current]
        exact ⟨blocks, ownsBlocks, rfl, kept⟩

theorem grown_open (initial : BackupNodeIndex) : Grown initial (openFileSystem initial) where
  paths := rfl
  untouched _ _ := rfl
  extended path attributes found := by
    exact ⟨attributes.blocks, attributes.ownsBlocks, found, fun _ => rfl⟩

theorem grown_reachable (reachable : (writing volumeSize initial).Reachable System.anyStep state) :
    Grown initial state :=
  System.reachable_invariant (Grown initial) (grown_open initial)
    (fun _ _ _ _ grown _ taken => grown_step grown taken) reachable

end Growth

end ACBackup.VolumeInvariant
