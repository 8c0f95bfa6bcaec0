import ACBackup.OpenVolumeCount

/-!
The references that are never given back: those of a stream that is destroyed in
front of its end, and those that an opening had taken before it raised. The reads
are those of the block stream, of any sizes: what the buffer above it asks for. The
chain takes the block stream along when it is destroyed, wherever that stream stands.
-/

namespace ACBackup.VolumeReferences

open ACBackup.Library.Transition ACBackup.Library.Parties
open ACBackup.Platform ACBackup.NodeAttributes ACBackup.Indexing ACBackup.VolumeReading
open ACBackup.SnapshotManager ACBackup.ReadingStreams ACBackup.OpenVolumeCount

set_option autoImplicit false

/-- The stream is destroyed, or was never made. -/
def Gone (reader : ReadingStream) : Prop :=
  reader.phase = .destroyed ∨ ∃ fault, reader.phase = .raised fault

/-- No stream is alive and no file is being opened. -/
def Quiet (crowd : Crowd ReadingSide ReadingStream) : Prop :=
  ∀ reader ∈ crowd.parties, Gone reader

def openingRaises (side : ReadingSide) (reader : ReadingStream) : Bool :=
  match reader.stream.blocks[reader.counted]? with
  | none =>
      match reader.expected with
      | .ok _ => false
      | .error _ => true
  | some block => side.volumes.length ≤ block.volumeNumber

/-- A stream is destroyed at its end only, and an opening raises before it has
counted a block. -/
def LeavesNothing (crowd : Crowd ReadingSide ReadingStream) :
    CrowdLabel FileOpening ReadAction → Prop
  | .act number .destroy =>
      ∀ reader, crowd.parties[number]? = some reader → reader.stream.isAtEnd = true
  | .act number .proceed =>
      ∀ reader, crowd.parties[number]? = some reader → reader.phase = .counting →
        openingRaises crowd.shared reader = true → reader.counted = 0
  | _ => True

section Steps

variable {files : Nat → Bytes} {number : Nat} {side after : ReadingSide}
  {reader next : ReadingStream}

def Settled (reader : ReadingStream) : Prop := Gone reader → references reader = []

theorem gone_acts_not {action : ReadAction} (gone : Gone reader) :
    act files number side reader action = none := by
  rcases gone with phase | ⟨fault, phase⟩
  · cases action <;> simp [act, phase]
  · cases action <;> simp [act, phase]

theorem references_at_end (made : Made reader) :
    references reader = [] ↔ reader.stream.isAtEnd = true := by
  rw [references_made made, List.drop_eq_nil_iff]
  simp [BlockInputStream.isAtEnd]

theorem references_counting (first : reader.stream.currentBlockIndex = 0)
    (bound : reader.counted ≤ reader.stream.blocks.length) :
    references reader = [] ↔ reader.counted = 0 := by
  unfold references
  rw [first, List.drop_zero, List.take_eq_nil_iff]
  constructor
  · intro nothing
    rcases nothing with zero | empty
    · exact zero
    · rw [empty] at bound
      simpa using bound
  · intro zero
    exact .inl zero

theorem settled_when_there (there : ¬Gone reader) : Settled reader :=
  fun gone => absurd gone there

theorem settled_gone (gone : Gone reader) : Settled reader ↔ references reader = [] :=
  ⟨fun settled => settled gone, fun nothing _ => nothing⟩

theorem counting_settled (known : Known number side reader) (counting : reader.phase = .counting)
    (taken : incrementVolumeCounters side reader = some (after, next)) :
    Settled next ↔ (openingRaises side reader = true → reader.counted = 0) := by
  have phase := known.phase
  rw [counting] at phase
  have raised : ∀ fault, Settled { reader with phase := .raised fault } ↔ reader.counted = 0 := by
    intro fault
    rw [settled_gone (.inr ⟨fault, rfl⟩)]
    exact references_counting phase.1 phase.2
  unfold incrementVolumeCounters at taken
  unfold openingRaises
  cases here : reader.stream.blocks[reader.counted]? with
  | none =>
      cases expected : reader.expected with
      | ok digest =>
          simp only [here, expected, Option.some.injEq, Prod.mk.injEq] at taken
          obtain ⟨rfl, rfl⟩ := taken
          simp [Settled, Gone]
      | error fault =>
          simp only [here, expected, Option.some.injEq, Prod.mk.injEq] at taken
          obtain ⟨rfl, rfl⟩ := taken
          rw [← expected, raised fault]
          simp [expected]
  | some block =>
      cases found : side.volumes[block.volumeNumber]? with
      | none =>
          simp only [here, found, Option.some.injEq, Prod.mk.injEq] at taken
          obtain ⟨rfl, rfl⟩ := taken
          rw [raised .outOfRange]
          simp [List.getElem?_eq_none_iff.mp found]
      | some volume =>
          simp only [here, found] at taken
          have bound := (List.getElem?_eq_some_iff.mp found).1
          by_cases free : volume.mutex = none
          · rw [if_pos free] at taken
            cases taken
            simp [Settled, Gone, counting, Nat.not_le.mpr bound]
          · rw [if_neg free] at taken
            cases taken

theorem alive_not_gone (alive : reader.alive = true) : ¬Gone reader := by
  rintro (phase | ⟨fault, phase⟩) <;> simp [ReadingStream.alive, phase] at alive

theorem acted_gone (known : Known number side reader) (acted : Acted side number reader after next)
    (made : reader.phase ≠ .counting) (gone : Gone next) :
    reader.phase = .idle ∧ next.phase = .destroyed := by
  cases acted with
  | destroyed idle => exact ⟨idle, rfl⟩
  | counted block volume counting here found free => exact absurd counting made
  | beyond block counting here outside => exact absurd counting made
  | built counting all => exact absurd counting made
  | undigested fault counting all raises => exact absurd counting made
  | strayed count reading outside => exact (not_strayed known reading outside).elim
  | unlockable request looping outside => exact (not_unlockable known looping outside).elim
  | left block volume count reading here finished found free =>
      exact absurd gone (alive_not_gone (request_alive reader _ count))
  | requested block count reading here => exact absurd gone (alive_not_gone (request_alive reader _ count))
  | returns alive steady => simp [Gone] at gone
  | began count idle inside => simp [Gone] at gone
  | staged request stage reached side' inVolume step => simp [Gone] at gone
  | answered request looping => simp [Gone] at gone
  | locked request volume looping found free => simp [Gone] at gone
  | received request nBytesRead ready => simp [Gone] at gone

/-- A step leaves no reference behind exactly under its condition. -/
theorem act_settled {action : ReadAction} (known : Known number side reader)
    (taken : act files number side reader action = some (after, next)) :
    Settled next ↔
      (action = .destroy → reader.stream.isAtEnd = true) ∧
      (action = .proceed → reader.phase = .counting → openingRaises side reader = true →
        reader.counted = 0) := by
  by_cases counting : reader.phase = .counting
  · cases action <;> simp only [act, counting, reduceCtorEq] at taken
    rw [counting_settled known counting taken]
    simp [counting]
  · by_cases destroys : action = .destroy
    · subst destroys
      cases phase : reader.phase <;> simp only [act, phase, reduceCtorEq] at taken
      cases taken
      have knows := known.phase
      rw [phase] at knows
      have made : Made reader := knows
      rw [settled_gone (.inl rfl)]
      simp only [reduceCtorEq, false_implies, and_true, true_implies]
      exact references_at_end made
    · have stays : ¬Gone next := by
        intro gone
        obtain ⟨idle, ended⟩ := acted_gone known (act_some taken) counting gone
        cases action <;> simp only [act, idle, reduceCtorEq] at taken
        · by_cases atEnd : reader.stream.isAtEnd = true
          · rw [if_pos atEnd] at taken
            cases taken
            rw [idle] at ended
            cases ended
          · rw [if_neg atEnd] at taken
            cases taken
            cases ended
        · exact destroys rfl
      simp [settled_when_there stays, destroys, counting]

end Steps

section Runs

variable {algorithm : HashAlgorithm} {store : VolumeStore} {index : BackupNodeIndex}
  {crowd next : Crowd ReadingSide ReadingStream}

def AllSettled (crowd : Crowd ReadingSide ReadingStream) : Prop :=
  ∀ (number : Nat) reader, crowd.parties[number]? = some reader → Settled reader

theorem step_settled {label : CrowdLabel FileOpening ReadAction}
    (reachable : (readers algorithm store index).system.Reachable System.anyStep crowd)
    (taken : (readers algorithm store index).step crowd label = some next) :
    AllSettled next ↔ AllSettled crowd ∧ LeavesNothing crowd label := by
  cases label with
  | join opening =>
      obtain ⟨joined, opened, rfl⟩ := Protocol.step_join taken
      obtain ⟨attributes, _, _, _, phase⟩ := open_file_some opened
      have fresh : Settled joined := by
        apply settled_when_there
        simp [Gone, phase]
      simp only [LeavesNothing, and_true]
      constructor
      · intro settled number reader found
        apply settled number
        simp only
        rw [List.getElem?_append_left (List.getElem?_eq_some_iff.mp found).1]
        exact found
      · intro settled number reader found
        have member := List.mem_of_getElem? found
        simp only [List.mem_append, List.mem_singleton] at member
        rcases member with old | new
        · obtain ⟨position, present⟩ := List.getElem?_of_mem old
          exact settled position reader present
        · exact new ▸ fresh
  | act number action =>
      obtain ⟨reader, side, after, found, acted, rfl⟩ := Protocol.step_act taken
      have exact := act_settled (known_reachable reachable found) acted
      have condition : LeavesNothing crowd (.act number action) ↔ Settled after := by
        rw [exact]
        cases action <;> simp [LeavesNothing, found]
      have acting : Settled reader := by
        apply settled_when_there
        intro gone
        have nothing : act store.files number crowd.shared reader action = none :=
          gone_acts_not gone
        rw [show act store.files number crowd.shared reader action = _ from acted] at nothing
        cases nothing
      have bound := (List.getElem?_eq_some_iff.mp found).1
      rw [condition]
      constructor
      · intro settled
        refine ⟨?_, settled number after (List.getElem?_set_self bound)⟩
        intro other bystander present
        by_cases same : other = number
        · rw [same, found, Option.some.injEq] at present
          exact present ▸ acting
        · apply settled other bystander
          rw [List.getElem?_set_ne (Ne.symm same)]
          exact present
      · rintro ⟨settled, ended⟩ other bystander present
        by_cases same : other = number
        · subst same
          rw [List.getElem?_set_self bound, Option.some.injEq] at present
          exact present ▸ ended
        · rw [List.getElem?_set_ne (Ne.symm same)] at present
          exact settled other bystander present

/-- When all streams have gone, the counters tell whether they left something. -/
theorem counters_zero_iff
    (reachable : (readers algorithm store index).system.Reachable System.anyStep crowd)
    (quiet : Quiet crowd) :
    (∀ volume ∈ crowd.shared.volumes, volume.counter = 0) ↔ AllSettled crowd := by
  constructor
  · intro zero number reader found _
    apply List.eq_nil_iff_forall_not_mem.mpr
    intro block member
    have known := known_reachable reachable found
    have inRange := known.inRange block (List.mem_of_mem_drop member)
    obtain ⟨volume, present⟩ : ∃ volume, crowd.shared.volumes[block.volumeNumber]? = some volume :=
      ⟨_, List.getElem?_eq_getElem inRange⟩
    have counted := counters_reachable reachable block.volumeNumber
    rw [counter_of_found present, zero volume (List.mem_of_getElem? present)] at counted
    have none := tally_eq_zero.mp (Int.natCast_eq_zero.mp counted.symm) reader
      (List.mem_of_getElem? found)
    unfold referencesTo at none
    rw [List.countP_eq_zero] at none
    exact none block member (by simp)
  · intro settled volume member
    obtain ⟨volumeNumber, present⟩ := List.getElem?_of_mem member
    rw [← counter_of_found present, counters_reachable reachable volumeNumber,
      Int.natCast_eq_zero, tally_eq_zero]
    intro reader inside
    obtain ⟨number, found⟩ := List.getElem?_of_mem inside
    unfold referencesTo
    rw [settled number reader found (quiet reader inside), List.countP_nil]

theorem close_volume_unused {side : ReadingSide} {number position : Nat}
    {volume : VolumeForReading} (found : side.volumes[position]? = some volume)
    (free : volume.mutex = none) (isOpen : volume.file = true) :
    volume.counter = 0 ↔ closeVolume side number position =
      some (side.setVolume position { volume with file := false, mutex := some number },
        .closed position) := by
  simp only [closeVolume, found, if_pos free, isOpen, and_true]
  by_cases unused : volume.counter = 0
  · simp [unused]
  · simp [unused]

/-- Of every run that ends with no stream alive: the counters are zero exactly when no
step of the run left a reference behind, and then every open volume that is not
locked can be closed. -/
theorem volume_references_returned_iff (algorithm : HashAlgorithm) (store : VolumeStore)
    (index : BackupNodeIndex) (labels : List (CrowdLabel FileOpening ReadAction))
    (crowd : Crowd ReadingSide ReadingStream)
    (run : (readers algorithm store index).system.run
      (readers algorithm store index).system.initial labels = some crowd)
    (quiet : Quiet crowd) :
    ((∀ volume ∈ crowd.shared.volumes, volume.counter = 0) ↔
      (readers algorithm store index).system.Throughout LeavesNothing
        (readers algorithm store index).system.initial labels) ∧
    ((∀ volume ∈ crowd.shared.volumes, volume.counter = 0) → ∀ number (position : Nat) volume,
      crowd.shared.volumes[position]? = some volume → volume.mutex = none → volume.file = true →
      closeVolume crowd.shared number position =
        some (crowd.shared.setVolume position { volume with file := false, mutex := some number },
          .closed position)) := by
  constructor
  · have reachable := System.reachable_of_run labels run
    have start : AllSettled (readers algorithm store index).system.initial := by
      intro number reader found
      cases found
    have stepwise := @System.throughout_iff_under _ _ (readers algorithm store index).system
      LeavesNothing ((readers algorithm store index).system.Reachable System.anyStep) AllSettled
      (fun state next label reached taken => .step reached trivial taken)
      (fun state next label reached taken => step_settled reached taken) labels _ crowd
      System.Reachable.start run
    rw [counters_zero_iff reachable quiet, stepwise]
    simp [start]
  · intro zero number position volume found free isOpen
    exact (close_volume_unused found free isOpen).mp (zero volume (List.mem_of_getElem? found))

end Runs

theorem quiet_destroyed {crowd : Crowd ReadingSide ReadingStream}
    (phases : ∀ phase ∈ crowd.parties.map ReadingStream.phase, phase = .destroyed) :
    Quiet crowd := by
  intro reader member
  exact .inl (phases _ (List.mem_map_of_mem member))

/-- The chain is made and destroyed, and nothing asks the block stream for a byte. -/
def openUnread : List (CrowdLabel FileOpening ReadAction) :=
  [.join { fileIndex := 0, verify := true }, .act 0 .proceed, .act 0 .proceed, .act 0 .destroy]

/-- The buffer is filled once: the block stream comes to its end. -/
def readBuffer (number : Nat) : List (CrowdLabel FileOpening ReadAction) :=
  [.join { fileIndex := 0, verify := true }, .act number .proceed, .act number .proceed,
    .act number (.readBytes spellingRuntime.bufferSize), .act number .proceed,
    .act number .proceed, .act number .proceed, .act number .proceed, .act number .proceed,
    .act number (.receive 2), .act number .proceed, .act number .proceed, .act number .proceed,
    .act number .destroy]

/-- The unread stream keeps its reference, and the volume that another stream opens
later cannot be closed again. -/
theorem reference_kept_by_destroyed_stream :
    ∃ chain entry unread later, addSnapshot spellingRuntime [] firstBackup = some chain ∧
      chain = [entry] ∧
      (firstReaders chain entry).system.run (firstReaders chain entry).system.initial
        openUnread = some unread ∧
      Quiet unread ∧ (∃ volume ∈ unread.shared.volumes, volume.counter ≠ 0) ∧
      (firstReaders chain entry).system.run unread (readBuffer 1) = some later ∧
      Quiet later ∧ ∃ volume ∈ later.shared.volumes, volume.file = true ∧ volume.counter ≠ 0 := by
  have outcome : (addSnapshot spellingRuntime [] firstBackup).map (fun chain =>
      chain.map fun entry =>
        ((firstReaders chain entry).system.run (firstReaders chain entry).system.initial
          openUnread).bind fun unread =>
            ((firstReaders chain entry).system.run unread (readBuffer 1)).map fun later =>
              ([unread, later].map fun crowd => crowd.parties.map ReadingStream.phase,
                [unread, later].map fun crowd => crowd.shared.volumes)) =
        some [some ([[.destroyed], [.destroyed, .destroyed]],
          [[{ file := false, counter := 1, mutex := none }],
            [{ file := true, counter := 1, mutex := none }]])] := by
    decide +kernel
  obtain ⟨chain, added, runs⟩ := Option.map_eq_some_iff.mp outcome
  obtain ⟨entry, single, read⟩ := List.map_eq_singleton_iff.mp runs
  obtain ⟨unread, first, more⟩ := Option.bind_eq_some_iff.mp read
  obtain ⟨later, second, same⟩ := Option.map_eq_some_iff.mp more
  obtain ⟨phases, volumes⟩ := Prod.mk.inj same
  simp only [List.map_cons, List.map_nil, List.cons.injEq, and_true] at phases volumes
  refine ⟨chain, entry, unread, later, added, single, first, ?_, ?_, second, ?_, ?_⟩
  · exact quiet_destroyed (by simp [phases.1])
  · simp [volumes.1]
  · exact quiet_destroyed (by simp [phases.2])
  · simp [volumes.2]

theorem reference_given_back :
    ∃ chain entry crowd, addSnapshot spellingRuntime [] firstBackup = some chain ∧
      chain = [entry] ∧
      (firstReaders chain entry).system.run (firstReaders chain entry).system.initial
        (readBuffer 0) = some crowd ∧
      (∀ volume ∈ crowd.shared.volumes, volume.counter = 0) ∧
      (firstReaders chain entry).system.Throughout LeavesNothing
        (firstReaders chain entry).system.initial (readBuffer 0) := by
  have outcome : (addSnapshot spellingRuntime [] firstBackup).map (fun chain =>
      chain.map fun entry =>
        ((firstReaders chain entry).system.run (firstReaders chain entry).system.initial
          (readBuffer 0)).map fun crowd =>
            (crowd.parties.map ReadingStream.phase, crowd.shared.volumes)) =
        some [some ([.destroyed], [{ file := true, counter := 0, mutex := none }])] := by
    decide +kernel
  obtain ⟨chain, added, runs⟩ := Option.map_eq_some_iff.mp outcome
  obtain ⟨entry, single, read⟩ := List.map_eq_singleton_iff.mp runs
  obtain ⟨crowd, run, same⟩ := Option.map_eq_some_iff.mp read
  obtain ⟨phases, volumes⟩ := Prod.mk.inj same
  have quiet : Quiet crowd := quiet_destroyed (by simp [phases])
  have zero : ∀ volume ∈ crowd.shared.volumes, volume.counter = 0 := by simp [volumes]
  have exactly := volume_references_returned_iff .md5 (entry.snapshot.fileSystem (volumesOf chain))
    entry.index (readBuffer 0) crowd run quiet
  exact ⟨chain, entry, crowd, added, single, run, zero, exactly.1.mp zero⟩

end ACBackup.VolumeReferences
