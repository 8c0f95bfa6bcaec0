import ACBackup.ReadingStreams
import ACBackup.SnapshotManager

/-!
What the steps of the readers keep: every counter is the number of references
that the streams hold, and the number of open volumes is exact when no volume is
being opened or closed.
-/

namespace ACBackup.OpenVolumeCount

open ACBackup.Library.Extents ACBackup.Library.Transition ACBackup.Library.Parties
open ACBackup.Platform ACBackup.NodeAttributes ACBackup.Indexing ACBackup.VolumeReading
open ACBackup.SnapshotManager ACBackup.ReadingStreams

set_option autoImplicit false

section Inversion

/-! What a taken step says about the state before it and the one after it. -/

variable {files : Nat → Bytes} {number : Nat} {side after : ReadingSide}
  {reader next : ReadingStream} {request : VolumeRequest}

inductive StageStep (side : ReadingSide) (number : Nat) (request : VolumeRequest) :
    VolumeStage → ReadingSide → VolumeStage → Prop
  | begun (free : side.nOpenVolumesLock = none) :
      StageStep side number request .called { side with nOpenVolumesLock := some number }
        (.closing 0)
  | skipped : StageStep side number request .called side .looping
  | ended (position : Nat) :
      StageStep side number request (.closing position) { side with nOpenVolumesLock := none }
        .looping
  | kept (position : Nat) :
      StageStep side number request (.closing position) side (.closing (position + 1))
  | closed (position : Nat) (volume : VolumeForReading)
      (found : side.volumes[position]? = some volume) (free : volume.mutex = none)
      (unused : volume.counter = 0) (isOpen : volume.file = true) :
      StageStep side number request (.closing position)
        (side.setVolume position { volume with file := false, mutex := some number })
        (.closed position)
  | countedClosed (position : Nat) (volume : VolumeForReading)
      (found : side.volumes[position]? = some volume) :
      StageStep side number request (.closed position)
        { side.setVolume position { volume with mutex := none } with
          nOpenVolumes := side.nOpenVolumes - 1 }
        (.closing (position + 1))
  | present : StageStep side number request .locked side .ready
  | opened (volume : VolumeForReading)
      (found : side.volumes[request.volumeNumber]? = some volume) (isClosed : volume.file = false) :
      StageStep side number request .locked
        (side.setVolume request.volumeNumber { volume with file := true }) .opened
  | countedOpened :
      StageStep side number request .opened { side with nOpenVolumes := side.nOpenVolumes + 1 }
        .ready
  | unlocked (volume : VolumeForReading)
      (found : side.volumes[request.volumeNumber]? = some volume) :
      StageStep side number request .finished
        (side.setVolume request.volumeNumber { volume with mutex := none }) .looping

theorem begin_closing_some {reached : VolumeStage}
    (taken : beginClosing side number = some (after, reached)) :
    StageStep side number request .called after reached := by
  unfold beginClosing at taken
  by_cases free : side.nOpenVolumesLock = none
  · rw [if_pos free] at taken
    by_cases many : 100 < side.nOpenVolumes
    · rw [if_pos many] at taken
      cases taken
      exact .begun free
    · rw [if_neg many] at taken
      cases taken
      exact .skipped
  · rw [if_neg free] at taken
    cases taken

theorem close_volume_some {position : Nat} {reached : VolumeStage}
    (taken : closeVolume side number position = some (after, reached)) :
    StageStep side number request (.closing position) after reached := by
  unfold closeVolume at taken
  cases found : side.volumes[position]? with
  | none =>
      simp only [found, Option.some.injEq, Prod.mk.injEq] at taken
      obtain ⟨rfl, rfl⟩ := taken
      exact .ended position
  | some volume =>
      simp only [found] at taken
      by_cases free : volume.mutex = none
      · rw [if_pos free] at taken
        by_cases unused : volume.counter = 0 ∧ volume.file = true
        · rw [if_pos unused] at taken
          cases taken
          exact .closed position volume found free unused.1 unused.2
        · rw [if_neg unused] at taken
          cases taken
          exact .kept position
      · rw [if_neg free] at taken
        cases taken

theorem count_closed_some {position : Nat} {reached : VolumeStage}
    (taken : countClosed side position = some (after, reached)) :
    StageStep side number request (.closed position) after reached := by
  unfold countClosed at taken
  cases found : side.volumes[position]? with
  | none => simp [found] at taken
  | some volume =>
      simp only [found, Option.some.injEq, Prod.mk.injEq] at taken
      obtain ⟨rfl, rfl⟩ := taken
      exact .countedClosed position volume found

theorem open_volume_some {reached : VolumeStage}
    (taken : openVolume side request.volumeNumber = some (after, reached)) :
    StageStep side number request .locked after reached := by
  unfold openVolume at taken
  cases found : side.volumes[request.volumeNumber]? with
  | none => simp [found] at taken
  | some volume =>
      simp only [found] at taken
      by_cases isOpen : volume.file = true
      · rw [if_pos isOpen] at taken
        cases taken
        exact .present
      · rw [if_neg isOpen] at taken
        cases taken
        exact .opened volume found (Bool.eq_false_iff.mpr isOpen)

theorem unlock_volume_stream_some {reached : VolumeStage}
    (taken : unlockVolumeStream side request.volumeNumber = some (after, reached)) :
    StageStep side number request .finished after reached := by
  unfold unlockVolumeStream at taken
  cases found : side.volumes[request.volumeNumber]? with
  | none => simp [found] at taken
  | some volume =>
      simp only [found, Option.some.injEq, Prod.mk.injEq] at taken
      obtain ⟨rfl, rfl⟩ := taken
      exact .unlocked volume found

theorem proceed_in_volume_some {stage reached : VolumeStage}
    (taken : proceedInVolume side number request stage = some (after, reached)) :
    StageStep side number request stage after reached := by
  cases stage with
  | called => exact begin_closing_some taken
  | closing position => exact close_volume_some taken
  | closed position => exact count_closed_some taken
  | looping => cases taken
  | locked => exact open_volume_some taken
  | opened =>
      cases taken
      exact .countedOpened
  | ready => cases taken
  | finished => exact unlock_volume_stream_some taken

inductive Acted (side : ReadingSide) (number : Nat) (reader : ReadingStream) :
    ReadingSide → ReadingStream → Prop
  | counted (block : Block) (volume : VolumeForReading) (counting : reader.phase = .counting)
      (here : reader.stream.blocks[reader.counted]? = some block)
      (found : side.volumes[block.volumeNumber]? = some volume) (free : volume.mutex = none) :
      Acted side number reader
        (side.setVolume block.volumeNumber { volume with counter := volume.counter + 1 })
        { reader with counted := reader.counted + 1 }
  | beyond (block : Block) (counting : reader.phase = .counting)
      (here : reader.stream.blocks[reader.counted]? = some block)
      (outside : side.volumes[block.volumeNumber]? = none) :
      Acted side number reader side { reader with phase := .raised .outOfRange }
  | built (counting : reader.phase = .counting)
      (all : reader.stream.blocks[reader.counted]? = none) :
      Acted side number reader side { reader with phase := .idle }
  | undigested (fault : Fault) (counting : reader.phase = .counting)
      (all : reader.stream.blocks[reader.counted]? = none)
      (raises : reader.expected = .error fault) :
      Acted side number reader side { reader with phase := .raised fault }
  | returns (alive : reader.alive = true) (steady : ∀ request stage, reader.phase = .inVolume request stage →
      stage = .locked ∨ stage = .ready) :
      Acted side number reader side { reader with phase := .idle }
  | began (count : Nat) (idle : reader.phase = .idle) (inside : reader.stream.isAtEnd = false) :
      Acted side number reader side { reader with phase := .reading count }
  | left (block : Block) (volume : VolumeForReading) (count : Nat)
      (reading : reader.phase = .reading count)
      (here : reader.stream.blocks[reader.stream.currentBlockIndex]? = some block)
      (finished : block.size ≤ reader.stream.blockOffset)
      (found : side.volumes[block.volumeNumber]? = some volume) (free : volume.mutex = none) :
      Acted side number reader
        (side.setVolume block.volumeNumber { volume with counter := volume.counter - 1 })
        (reader.request (reader.stream.leaveFinishedBlock block) count)
  | requested (block : Block) (count : Nat) (reading : reader.phase = .reading count)
      (here : reader.stream.blocks[reader.stream.currentBlockIndex]? = some block) :
      Acted side number reader side (reader.request reader.stream count)
  | strayed (count : Nat) (reading : reader.phase = .reading count)
      (outside : ∀ block, reader.stream.blocks[reader.stream.currentBlockIndex]? = some block →
        side.volumes[block.volumeNumber]? = none) :
      Acted side number reader side { reader with phase := .raised .outOfRange }
  | unlockable (request : VolumeRequest) (looping : reader.phase = .inVolume request .looping)
      (outside : side.volumes[request.volumeNumber]? = none) :
      Acted side number reader side { reader with phase := .raised .outOfRange }
  | staged (request : VolumeRequest) (stage reached : VolumeStage) (after : ReadingSide)
      (inVolume : reader.phase = .inVolume request stage)
      (step : StageStep side number request stage after reached) :
      Acted side number reader after { reader with phase := .inVolume request reached }
  | answered (request : VolumeRequest) (looping : reader.phase = .inVolume request .looping) :
      Acted side number reader side
        { reader with
          stream :=
            { reader.stream with blockOffset := reader.stream.blockOffset + request.leftSize }
          phase := .reading (request.count - request.leftSize) }
  | locked (request : VolumeRequest) (volume : VolumeForReading)
      (looping : reader.phase = .inVolume request .looping)
      (found : side.volumes[request.volumeNumber]? = some volume) (free : volume.mutex = none) :
      Acted side number reader
        (side.setVolume request.volumeNumber { volume with mutex := some number })
        { reader with phase := .inVolume request .locked }
  | received (request : VolumeRequest) (nBytesRead : Nat)
      (ready : reader.phase = .inVolume request .ready) :
      Acted side number reader side
        { reader with
          phase := .inVolume { request with left := request.left - nBytesRead } .finished }
  | destroyed (idle : reader.phase = .idle) :
      Acted side number reader side { reader with phase := .destroyed }

theorem increment_volume_counters_some
    (counting : reader.phase = .counting)
    (taken : incrementVolumeCounters side reader = some (after, next)) :
    Acted side number reader after next := by
  unfold incrementVolumeCounters at taken
  cases here : reader.stream.blocks[reader.counted]? with
  | none =>
      cases expected : reader.expected with
      | ok digest =>
          simp only [here, expected, Option.some.injEq, Prod.mk.injEq] at taken
          obtain ⟨rfl, rfl⟩ := taken
          rw [← expected]
          exact .built counting here
      | error fault =>
          simp only [here, expected, Option.some.injEq, Prod.mk.injEq] at taken
          obtain ⟨rfl, rfl⟩ := taken
          rw [← expected]
          exact .undigested fault counting here expected
  | some block =>
      cases found : side.volumes[block.volumeNumber]? with
      | none =>
          simp only [here, found, Option.some.injEq, Prod.mk.injEq] at taken
          obtain ⟨rfl, rfl⟩ := taken
          exact .beyond block counting here found
      | some volume =>
          simp only [here, found] at taken
          by_cases free : volume.mutex = none
          · rw [if_pos free] at taken
            cases taken
            exact .counted block volume counting here found free
          · rw [if_neg free] at taken
            cases taken

theorem read_pass_some {count : Nat} (reading : reader.phase = .reading count)
    (taken : readPass side reader count = some (after, next)) :
    Acted side number reader after next := by
  unfold readPass at taken
  by_cases zero : count = 0
  · rw [if_pos zero] at taken
    cases taken
    apply Acted.returns
    · simp [ReadingStream.alive, reading]
    · intro request stage inVolume
      rw [reading] at inVolume
      cases inVolume
  · rw [if_neg zero] at taken
    cases here : reader.stream.blocks[reader.stream.currentBlockIndex]? with
    | none =>
        simp only [here, Option.some.injEq, Prod.mk.injEq] at taken
        obtain ⟨rfl, rfl⟩ := taken
        apply Acted.strayed count reading
        simp [here]
    | some block =>
        simp only [here] at taken
        by_cases finished : block.size ≤ reader.stream.blockOffset
        · rw [if_pos finished] at taken
          cases found : side.volumes[block.volumeNumber]? with
          | none =>
              simp only [found, Option.some.injEq, Prod.mk.injEq] at taken
              obtain ⟨rfl, rfl⟩ := taken
              apply Acted.strayed count reading
              intro other same
              rw [here] at same
              cases same
              exact found
          | some volume =>
              simp only [found] at taken
              by_cases free : volume.mutex = none
              · rw [if_pos free] at taken
                cases taken
                exact .left block volume count reading here finished found free
              · rw [if_neg free] at taken
                cases taken
        · rw [if_neg finished] at taken
          cases taken
          exact .requested block count reading here

theorem volume_pass_some (looping : reader.phase = .inVolume request .looping)
    (taken : volumePass side number reader request = some (after, next)) :
    Acted side number reader after next := by
  unfold volumePass at taken
  by_cases zero : request.left = 0
  · rw [if_pos zero] at taken
    cases taken
    exact .answered request looping
  · rw [if_neg zero] at taken
    cases found : side.volumes[request.volumeNumber]? with
    | none =>
        simp only [found, Option.some.injEq, Prod.mk.injEq] at taken
        obtain ⟨rfl, rfl⟩ := taken
        exact .unlockable request looping found
    | some volume =>
        simp only [found] at taken
        by_cases free : volume.mutex = none
        · rw [if_pos free] at taken
          cases taken
          exact .locked request volume looping found free
        · rw [if_neg free] at taken
          cases taken

theorem proceed_some (taken : act files number side reader .proceed = some (after, next)) :
    Acted side number reader after next := by
  cases phase : reader.phase with
  | counting =>
      simp only [act, phase] at taken
      exact increment_volume_counters_some phase taken
  | reading count =>
      simp only [act, phase] at taken
      exact read_pass_some phase taken
  | inVolume request stage =>
      by_cases looping : stage = .looping
      · subst looping
        simp only [act, phase] at taken
        exact volume_pass_some phase taken
      · have staged : (proceedInVolume side number request stage).map (fun result =>
            (result.1, { reader with phase := StreamPhase.inVolume request result.2 })) =
              some (after, next) := by
          rw [← taken]
          cases stage <;> simp only [act, phase]
          exact absurd rfl looping
        obtain ⟨⟨side', reached⟩, proceeded, same⟩ := Option.map_eq_some_iff.mp staged
        cases same
        exact .staged request stage reached _ phase (proceed_in_volume_some proceeded)
  | raised fault => simp [act, phase] at taken
  | idle => simp [act, phase] at taken
  | destroyed => simp [act, phase] at taken

theorem read_bytes_some {count : UInt32}
    (taken : act files number side reader (.readBytes count) = some (after, next)) :
    Acted side number reader after next := by
  cases phase : reader.phase <;> simp only [act, phase, reduceCtorEq] at taken
  case idle =>
    by_cases ended : reader.stream.isAtEnd = true
    · rw [if_pos ended] at taken
      cases taken
      have same : reader = { reader with phase := .idle } := by rw [← phase]
      rw [same]
      apply Acted.returns
      · simp [ReadingStream.alive]
      · simp
    · rw [if_neg ended] at taken
      cases taken
      exact .began count.toNat phase (Bool.eq_false_iff.mpr ended)

theorem receive_some {nBytesRead : Nat}
    (taken : act files number side reader (.receive nBytesRead) = some (after, next)) :
    Acted side number reader after next := by
  cases phase : reader.phase <;> simp only [act, phase, reduceCtorEq] at taken
  case inVolume request stage =>
    cases stage <;> simp only [reduceCtorEq] at taken
    case ready =>
      by_cases delivered : nBytesRead ≤
          (slice (files request.volumeNumber) request.offset request.left).length
      · rw [if_pos delivered] at taken
        cases taken
        exact .received request nBytesRead phase
      · rw [if_neg delivered] at taken
        cases taken

theorem fail_some (taken : act files number side reader .fail = some (after, next)) :
    Acted side number reader after next := by
  cases phase : reader.phase <;> simp only [act, phase, reduceCtorEq] at taken
  case inVolume request stage =>
    by_cases fails : mayFail side request stage = true
    · rw [if_pos fails] at taken
      cases taken
      apply Acted.returns
      · simp [ReadingStream.alive, phase]
      · intro other otherStage same
        rw [phase] at same
        cases same
        cases stage <;> simp [mayFail] at fails ⊢
    · rw [if_neg fails] at taken
      cases taken

theorem destroy_some (taken : act files number side reader .destroy = some (after, next)) :
    Acted side number reader after next := by
  cases phase : reader.phase <;> simp only [act, phase, reduceCtorEq] at taken
  case idle =>
    cases taken
    exact .destroyed phase

theorem act_some {action : ReadAction}
    (taken : act files number side reader action = some (after, next)) :
    Acted side number reader after next := by
  cases action with
  | proceed => exact proceed_some taken
  | readBytes count => exact read_bytes_some taken
  | receive nBytesRead => exact receive_some taken
  | fail => exact fail_some taken
  | destroy => exact destroy_some taken

inductive SideStep (side : ReadingSide) (number : Nat) (reader : ReadingStream) :
    ReadingSide → Prop
  | unchanged : SideStep side number reader side
  | volume (position : Nat) (old new : VolumeForReading)
      (found : side.volumes[position]? = some old) (free : old.mutex = none)
      (sameFile : new.file = old.file) :
      SideStep side number reader (side.setVolume position new)
  | staged (request : VolumeRequest) (stage reached : VolumeStage) (after : ReadingSide)
      (inVolume : reader.phase = .inVolume request stage)
      (step : StageStep side number request stage after reached) :
      SideStep side number reader after

theorem acted_side (acted : Acted side number reader after next) :
    SideStep side number reader after := by
  cases acted with
  | counted block volume counting here found free => exact .volume _ volume _ found free rfl
  | left block volume count reading here finished found free =>
      exact .volume _ volume _ found free rfl
  | locked request volume looping found free => exact .volume _ volume _ found free rfl
  | staged request stage reached side' inVolume step =>
      exact .staged request stage reached _ inVolume step
  | beyond block counting here outside => exact .unchanged
  | built counting all => exact .unchanged
  | undigested fault counting all raises => exact .unchanged
  | returns alive steady => exact .unchanged
  | began count idle inside => exact .unchanged
  | requested block count reading here => exact .unchanged
  | strayed count reading outside => exact .unchanged
  | unlockable request looping outside => exact .unchanged
  | answered request looping => exact .unchanged
  | received request nBytesRead ready => exact .unchanged
  | destroyed idle => exact .unchanged

end Inversion

section Knowledge

variable {number : Nat} {side after : ReadingSide} {reader next : ReadingStream}

def HoldsMutex (side : ReadingSide) (number volumeNumber : Nat) : Prop :=
  ∃ volume, side.volumes[volumeNumber]? = some volume ∧ volume.mutex = some number

def StageKnown (side : ReadingSide) (number : Nat) (request : VolumeRequest) : VolumeStage → Prop
  | .called => True
  | .closing _ => True
  | .closed position => HoldsMutex side number position
  | .looping => True
  | .locked => HoldsMutex side number request.volumeNumber
  | .opened => HoldsMutex side number request.volumeNumber
  | .ready => HoldsMutex side number request.volumeNumber
  | .finished => HoldsMutex side number request.volumeNumber

def Made (reader : ReadingStream) : Prop := reader.stream.blocks.length = reader.counted

def PhaseKnown (number : Nat) (side : ReadingSide) (reader : ReadingStream) : StreamPhase → Prop
  | .counting =>
      reader.stream.currentBlockIndex = 0 ∧ reader.counted ≤ reader.stream.blocks.length
  | .raised _ =>
      reader.stream.currentBlockIndex = 0 ∧ reader.counted ≤ reader.stream.blocks.length
  | .idle => Made reader
  | .reading _ => Made reader ∧ reader.stream.currentBlockIndex < reader.stream.blocks.length
  | .inVolume request stage =>
      Made reader ∧ reader.stream.currentBlockIndex < reader.stream.blocks.length ∧
        request.volumeNumber < side.volumes.length ∧ StageKnown side number request stage
  | .destroyed => Made reader

structure Known (number : Nat) (side : ReadingSide) (reader : ReadingStream) : Prop where
  inRange : ∀ block ∈ reader.stream.blocks.take reader.counted,
    block.volumeNumber < side.volumes.length
  phase : PhaseKnown number side reader reader.phase

/-- What one reader leaves to the others: the array, and the mutexes they hold. -/
structure Respects (number : Nat) (before after : ReadingSide) : Prop where
  length : after.volumes.length = before.volumes.length
  mutex : ∀ other volumeNumber, other ≠ number → HoldsMutex before other volumeNumber →
    HoldsMutex after other volumeNumber

theorem respects_same {volumes : List VolumeForReading} (same : after.volumes = volumes)
    (before : side.volumes = volumes) : Respects number side after where
  length := by rw [same, before]
  mutex other volumeNumber _ holds := by
    unfold HoldsMutex at holds ⊢
    rw [same, ← before]
    exact holds

theorem respects_set {position : Nat} {old new : VolumeForReading}
    (found : side.volumes[position]? = some old) (mine : ∀ other, old.mutex = some other →
      other = number)
    (volumes : after.volumes = side.volumes.set position new) : Respects number side after where
  length := by rw [volumes, List.length_set]
  mutex other volumeNumber different holds := by
    obtain ⟨volume, present, mutex⟩ := holds
    refine ⟨volume, ?_, mutex⟩
    have apart : position ≠ volumeNumber := by
      intro same
      rw [← same, found, Option.some.injEq] at present
      exact different (mine other (present ▸ mutex))
    rw [volumes, List.getElem?_set_ne apart]
    exact present

theorem holds_mutex_set {position : Nat} {old new : VolumeForReading}
    (found : side.volumes[position]? = some old) (mutex : new.mutex = some number)
    (volumes : after.volumes = side.volumes.set position new) :
    HoldsMutex after number position := by
  refine ⟨new, ?_, mutex⟩
  rw [volumes]
  exact List.getElem?_set_self (List.getElem?_eq_some_iff.mp found).1

theorem holds_mutex_mine {volumeNumber : Nat} {volume : VolumeForReading}
    (holds : HoldsMutex side number volumeNumber)
    (found : side.volumes[volumeNumber]? = some volume) (other : Nat)
    (mutex : volume.mutex = some other) : other = number := by
  obtain ⟨held, present, mine⟩ := holds
  rw [found, Option.some.injEq] at present
  rw [present, mine, Option.some.injEq] at mutex
  exact mutex.symm

theorem free_mine {volume : VolumeForReading} (free : volume.mutex = none) (other : Nat)
    (mutex : volume.mutex = some other) : other = number := by
  rw [free] at mutex
  cases mutex

theorem stage_respects {request : VolumeRequest} {stage reached : VolumeStage}
    (known : StageKnown side number request stage)
    (step : StageStep side number request stage after reached) : Respects number side after := by
  cases step with
  | begun free => exact respects_same rfl rfl
  | skipped => exact respects_same rfl rfl
  | ended position => exact respects_same rfl rfl
  | kept position => exact respects_same rfl rfl
  | closed position volume found free unused isOpen =>
      exact respects_set found (free_mine free) rfl
  | countedClosed position volume found =>
      exact respects_set found (holds_mutex_mine known found) rfl
  | present => exact respects_same rfl rfl
  | opened volume found isClosed =>
      exact respects_set found (holds_mutex_mine known found) rfl
  | countedOpened => exact respects_same rfl rfl
  | unlocked volume found =>
      exact respects_set found (holds_mutex_mine known found) rfl

theorem stage_known {request : VolumeRequest} {stage reached : VolumeStage}
    (known : StageKnown side number request stage)
    (step : StageStep side number request stage after reached) :
    StageKnown after number request reached := by
  cases step with
  | begun free => trivial
  | skipped => trivial
  | ended position => trivial
  | kept position => trivial
  | closed position volume found free unused isOpen => exact holds_mutex_set found rfl rfl
  | countedClosed position volume found => trivial
  | present => exact known
  | opened volume found isClosed =>
      obtain ⟨held, present, mine⟩ := known
      rw [found, Option.some.injEq] at present
      exact holds_mutex_set found (present ▸ mine) rfl
  | countedOpened => exact known
  | unlocked volume found => trivial

theorem acted_respects (known : Known number side reader)
    (acted : Acted side number reader after next) : Respects number side after := by
  cases acted_side acted with
  | unchanged => exact respects_same rfl rfl
  | volume position old new found free sameFile => exact respects_set found (free_mine free) rfl
  | staged request stage reached side' inVolume step =>
      have phase := known.phase
      rw [inVolume] at phase
      exact stage_respects phase.2.2.2 step

/-- The others still know what they knew. -/
theorem known_respected (respects : Respects number side after) {other : Nat}
    (different : other ≠ number) (known : Known other side reader) : Known other after reader where
  inRange block member := respects.length ▸ known.inRange block member
  phase := by
    have phase := known.phase
    cases here : reader.phase with
    | inVolume request stage =>
        rw [here] at phase
        obtain ⟨made, inside, inRange, stageKnown⟩ := phase
        refine ⟨made, inside, respects.length ▸ inRange, ?_⟩
        cases stage with
        | closed position => exact respects.mutex other position different stageKnown
        | locked => exact respects.mutex other request.volumeNumber different stageKnown
        | opened => exact respects.mutex other request.volumeNumber different stageKnown
        | ready => exact respects.mutex other request.volumeNumber different stageKnown
        | finished => exact respects.mutex other request.volumeNumber different stageKnown
        | called => trivial
        | closing position => trivial
        | looping => trivial
    | counting => rw [here] at phase; exact phase
    | raised fault => rw [here] at phase; exact phase
    | idle => rw [here] at phase; exact phase
    | reading count => rw [here] at phase; exact phase
    | destroyed => rw [here] at phase; exact phase

theorem request_stream (reader : ReadingStream) (stream : BlockInputStream) (count : Nat) :
    (reader.request stream count).stream = stream ∧
      (reader.request stream count).counted = reader.counted := by
  unfold ReadingStream.request
  cases stream.blocks[stream.currentBlockIndex]? <;> exact ⟨rfl, rfl⟩

theorem leave_finished_block {stream : BlockInputStream} {block : Block}
    (finished : block.size ≤ stream.blockOffset) :
    (stream.leaveFinishedBlock block).blocks = stream.blocks ∧
      (stream.leaveFinishedBlock block).currentBlockIndex = stream.currentBlockIndex + 1 := by
  unfold BlockInputStream.leaveFinishedBlock
  rw [if_pos finished]
  by_cases ended : { stream with currentBlockIndex := stream.currentBlockIndex + 1 }.isAtEnd = true
  · simp only [ended, if_true, and_self]
  · simp only [Bool.not_eq_true] at ended
    simp only [ended, Bool.false_eq_true, if_false, and_self]

theorem request_known {stream : BlockInputStream} (count : Nat)
    (made : stream.blocks.length = reader.counted)
    (inRange : ∀ block ∈ stream.blocks, block.volumeNumber < side.volumes.length) :
    Known number side (reader.request stream count) := by
  constructor
  · intro block member
    rw [(request_stream reader stream count).1] at member
    exact inRange block (List.mem_of_mem_take member)
  · unfold ReadingStream.request
    cases here : stream.blocks[stream.currentBlockIndex]? with
    | none => exact made
    | some block =>
        refine ⟨made, (List.getElem?_eq_some_iff.mp here).1, ?_, trivial⟩
        exact inRange block (List.mem_of_getElem? here)

theorem made_in_range (known : Known number side reader) (made : Made reader) :
    ∀ block ∈ reader.stream.blocks, block.volumeNumber < side.volumes.length := by
  have inRange := known.inRange
  rw [← made, List.take_length] at inRange
  exact inRange

theorem alive_made (known : Known number side reader) (alive : reader.alive = true) :
    Made reader := by
  have phase := known.phase
  cases here : reader.phase with
  | idle => rw [here] at phase; exact phase
  | reading count => rw [here] at phase; exact phase.1
  | inVolume request stage => rw [here] at phase; exact phase.1
  | counting => simp [ReadingStream.alive, here] at alive
  | raised fault => simp [ReadingStream.alive, here] at alive
  | destroyed => simp [ReadingStream.alive, here] at alive

theorem request_alive (reader : ReadingStream) (stream : BlockInputStream) (count : Nat) :
    (reader.request stream count).alive = true := by
  unfold ReadingStream.request ReadingStream.alive
  cases stream.blocks[stream.currentBlockIndex]? <;> rfl

theorem request_expected (reader : ReadingStream) (stream : BlockInputStream) (count : Nat) :
    (reader.request stream count).expected = reader.expected := by
  unfold ReadingStream.request
  cases stream.blocks[stream.currentBlockIndex]? <;> rfl

theorem acted_keeps (acted : Acted side number reader after next) :
    next.stream.blocks = reader.stream.blocks ∧ next.expected = reader.expected := by
  cases acted with
  | left block volume count reading here finished found free =>
      refine ⟨?_, request_expected reader _ count⟩
      rw [(request_stream reader _ count).1]
      exact (leave_finished_block finished).1
  | requested block count reading here =>
      refine ⟨?_, request_expected reader _ count⟩
      rw [(request_stream reader _ count).1]
  | counted block volume counting here found free => exact ⟨rfl, rfl⟩
  | beyond block counting here outside => exact ⟨rfl, rfl⟩
  | built counting all => exact ⟨rfl, rfl⟩
  | undigested fault counting all raises => exact ⟨rfl, rfl⟩
  | returns alive steady => exact ⟨rfl, rfl⟩
  | began count idle inside => exact ⟨rfl, rfl⟩
  | strayed count reading outside => exact ⟨rfl, rfl⟩
  | unlockable request looping outside => exact ⟨rfl, rfl⟩
  | staged request stage reached side' inVolume step => exact ⟨rfl, rfl⟩
  | answered request looping => exact ⟨rfl, rfl⟩
  | locked request volume looping found free => exact ⟨rfl, rfl⟩
  | received request nBytesRead ready => exact ⟨rfl, rfl⟩
  | destroyed idle => exact ⟨rfl, rfl⟩

/-- The loop never looks for a block or a volume that is not there. -/
theorem not_strayed (known : Known number side reader) {count : Nat}
    (reading : reader.phase = .reading count)
    (outside : ∀ block, reader.stream.blocks[reader.stream.currentBlockIndex]? = some block →
      side.volumes[block.volumeNumber]? = none) : False := by
  have phase := known.phase
  rw [reading] at phase
  obtain ⟨block, here⟩ : ∃ block,
      reader.stream.blocks[reader.stream.currentBlockIndex]? = some block :=
    ⟨_, List.getElem?_eq_getElem phase.2⟩
  have missing := List.getElem?_eq_none_iff.mp (outside block here)
  have present := made_in_range known phase.1 block (List.mem_of_getElem? here)
  omega

theorem not_unlockable (known : Known number side reader) {request : VolumeRequest}
    {stage : VolumeStage} (inVolume : reader.phase = .inVolume request stage)
    (outside : side.volumes[request.volumeNumber]? = none) : False := by
  have phase := known.phase
  rw [inVolume] at phase
  have missing := List.getElem?_eq_none_iff.mp outside
  have present := phase.2.2.1
  omega

theorem acted_known (known : Known number side reader)
    (acted : Acted side number reader after next) : Known number after next := by
  have respects := acted_respects known acted
  have phase := known.phase
  have inRange := known.inRange
  cases acted with
  | counted block volume counting here found free =>
      rw [counting] at phase
      constructor
      · intro other member
        rw [List.take_add_one, here, Option.toList_some, List.mem_append, List.mem_singleton] at member
        rw [respects.length]
        rcases member with before | same
        · exact inRange other before
        · rw [same]
          exact (List.getElem?_eq_some_iff.mp found).1
      · simp only [counting]
        exact ⟨phase.1, (List.getElem?_eq_some_iff.mp here).1⟩
  | beyond block counting here outside =>
      rw [counting] at phase
      exact ⟨inRange, phase⟩
  | built counting all =>
      rw [counting] at phase
      refine ⟨inRange, ?_⟩
      exact le_antisymm (List.getElem?_eq_none_iff.mp all) phase.2
  | undigested fault counting all raises =>
      rw [counting] at phase
      exact ⟨inRange, phase⟩
  | returns alive steady =>
      have made : Made reader := alive_made known alive
      exact ⟨inRange, made⟩
  | began count idle inside =>
      rw [idle] at phase
      refine ⟨inRange, phase, ?_⟩
      simpa [BlockInputStream.isAtEnd] using inside
  | left block volume count reading here finished found free =>
      rw [reading] at phase
      have leaves := leave_finished_block finished
      apply request_known
      · rw [leaves.1]
        exact phase.1
      · rw [leaves.1, respects.length]
        exact made_in_range known phase.1
  | requested block count reading here =>
      rw [reading] at phase
      exact request_known count phase.1 (made_in_range known phase.1)
  | strayed count reading outside => exact (not_strayed known reading outside).elim
  | unlockable request looping outside => exact (not_unlockable known looping outside).elim
  | staged request stage reached side' inVolume step =>
      rw [inVolume] at phase
      obtain ⟨made, inside, requestInRange, stageKnown⟩ := phase
      refine ⟨?_, made, inside, respects.length ▸ requestInRange, stage_known stageKnown step⟩
      intro block member
      exact respects.length ▸ inRange block member
  | answered request looping =>
      rw [looping] at phase
      exact ⟨inRange, phase.1, phase.2.1⟩
  | locked request volume looping found free =>
      rw [looping] at phase
      obtain ⟨made, inside, requestInRange, stageKnown⟩ := phase
      refine ⟨?_, made, inside, respects.length ▸ requestInRange, holds_mutex_set found rfl rfl⟩
      intro block member
      exact respects.length ▸ inRange block member
  | received request nBytesRead ready =>
      rw [ready] at phase
      exact ⟨inRange, phase⟩
  | destroyed idle =>
      rw [idle] at phase
      exact ⟨inRange, phase⟩

end Knowledge

section References

variable {number volumeNumber : Nat} {side after : ReadingSide} {reader next : ReadingStream}

/-- The blocks whose references the stream has taken and not given back. -/
def references (reader : ReadingStream) : List Block :=
  (reader.stream.blocks.take reader.counted).drop reader.stream.currentBlockIndex

def referencesTo (volumeNumber : Nat) (reader : ReadingStream) : Nat :=
  (references reader).countP fun block => block.volumeNumber = volumeNumber

def counterOf (volumeNumber : Nat) (side : ReadingSide) : Int :=
  match side.volumes[volumeNumber]? with
  | none => 0
  | some volume => volume.counter

theorem counter_of_found {volume : VolumeForReading}
    (found : side.volumes[volumeNumber]? = some volume) :
    counterOf volumeNumber side = volume.counter := by
  simp only [counterOf, found]

theorem counter_of_set {position : Nat} {old new : VolumeForReading}
    (found : side.volumes[position]? = some old)
    (volumes : after.volumes = side.volumes.set position new) :
    counterOf volumeNumber after =
      if position = volumeNumber then new.counter else counterOf volumeNumber side := by
  have bound := (List.getElem?_eq_some_iff.mp found).1
  by_cases same : position = volumeNumber
  · rw [if_pos same, ← same]
    apply counter_of_found
    rw [volumes]
    exact List.getElem?_set_self bound
  · rw [if_neg same]
    simp only [counterOf, volumes, List.getElem?_set_ne same]

theorem counter_of_set_same {position : Nat} {old new : VolumeForReading}
    (found : side.volumes[position]? = some old)
    (volumes : after.volumes = side.volumes.set position new)
    (same : new.counter = old.counter) :
    counterOf volumeNumber after = counterOf volumeNumber side := by
  rw [counter_of_set found volumes, same]
  by_cases here : position = volumeNumber
  · rw [if_pos here, ← here]
    exact (counter_of_found found).symm
  · exact if_neg here

theorem stage_counters {request : VolumeRequest} {stage reached : VolumeStage}
    (step : StageStep side number request stage after reached) :
    counterOf volumeNumber after = counterOf volumeNumber side := by
  cases step with
  | begun free => rfl
  | skipped => rfl
  | ended position => rfl
  | kept position => rfl
  | closed position volume found free unused isOpen => exact counter_of_set_same found rfl rfl
  | countedClosed position volume found => exact counter_of_set_same found rfl rfl
  | present => rfl
  | opened volume found isClosed => exact counter_of_set_same found rfl rfl
  | countedOpened => rfl
  | unlocked volume found => exact counter_of_set_same found rfl rfl

theorem references_request (reader : ReadingStream) (stream : BlockInputStream) (count : Nat) :
    references (reader.request stream count) =
      (stream.blocks.take reader.counted).drop stream.currentBlockIndex := by
  unfold references
  rw [(request_stream reader stream count).1, (request_stream reader stream count).2]

theorem references_made (made : Made reader) :
    references reader = reader.stream.blocks.drop reader.stream.currentBlockIndex := by
  unfold references
  rw [← made, List.take_length]

/-- Every step changes the counters by what it changes in the references of the
stream. -/
theorem acted_counters (known : Known number side reader)
    (acted : Acted side number reader after next) :
    counterOf volumeNumber after + referencesTo volumeNumber reader =
      counterOf volumeNumber side + referencesTo volumeNumber next := by
  have phase := known.phase
  cases acted with
  | counted block volume counting here found free =>
      rw [counting] at phase
      have grown : references { reader with counted := reader.counted + 1 } =
          references reader ++ [block] := by
        simp only [references, phase.1, List.drop_zero, List.take_add_one, here, Option.toList_some]
      rw [counter_of_set found rfl]
      unfold referencesTo
      rw [grown, List.countP_append, List.countP_singleton]
      by_cases same : block.volumeNumber = volumeNumber
      · rw [if_pos same, if_pos (decide_eq_true same), ← same, counter_of_found found]
        simp only
        omega
      · rw [if_neg same, if_neg (by simpa using same), Nat.add_zero]
  | left block volume count reading here finished found free =>
      rw [reading] at phase
      have leaves := leave_finished_block finished
      have before : references reader =
          block :: references (reader.request (reader.stream.leaveFinishedBlock block) count) := by
        rw [references_request, leaves.1, leaves.2, ← phase.1, List.take_length,
          references_made phase.1, List.drop_eq_getElem_cons phase.2]
        rw [List.getElem?_eq_getElem phase.2, Option.some.injEq] at here
        rw [here]
      rw [counter_of_set found rfl]
      unfold referencesTo
      rw [before, List.countP_cons]
      by_cases same : block.volumeNumber = volumeNumber
      · rw [if_pos same, if_pos (decide_eq_true same), ← same, counter_of_found found]
        simp only
        omega
      · rw [if_neg same, if_neg (by simpa using same), Nat.add_zero]
  | requested block count reading here =>
      unfold referencesTo
      rw [references_request, references]
  | staged request stage reached side' inVolume step =>
      rw [stage_counters step]
      rfl
  | locked request volume looping found free =>
      have kept := @counter_of_set_same volumeNumber side
        (side.setVolume request.volumeNumber { volume with mutex := some number })
        request.volumeNumber volume _ found rfl rfl
      rw [kept]
      rfl
  | beyond block counting here outside => rfl
  | built counting all => rfl
  | undigested fault counting all raises => rfl
  | returns alive steady => rfl
  | began count idle inside => rfl
  | strayed count reading outside => rfl
  | unlockable request looping outside => rfl
  | answered request looping => rfl
  | received request nBytesRead ready => rfl
  | destroyed idle => rfl

end References

section Counted

variable {number : Nat} {side after : ReadingSide} {reader next : ReadingStream}

open scoped UInt16.CommRing

def openCount (side : ReadingSide) : Nat := side.volumes.countP VolumeForReading.file

/-- What the number of open volumes is off by because of the stream. -/
def uncounted (reader : ReadingStream) : UInt16 :=
  match reader.phase with
  | .inVolume _ (.closed _) => 1
  | .inVolume _ .opened => -1
  | _ => 0

def excess (side : ReadingSide) : UInt16 := side.nOpenVolumes - UInt16.ofNat (openCount side)

theorem open_count_set {position : Nat} {old new : VolumeForReading}
    (found : side.volumes[position]? = some old)
    (volumes : after.volumes = side.volumes.set position new) :
    openCount after + old.file.toNat = openCount side + new.file.toNat := by
  have bound := (List.getElem?_eq_some_iff.mp found).1
  have here := (List.getElem?_eq_some_iff.mp found).2
  have present : old.file = true → 0 < side.volumes.countP VolumeForReading.file := by
    intro isOpen
    exact List.countP_pos_iff.mpr ⟨old, List.mem_of_getElem? found, isOpen⟩
  unfold openCount
  rw [volumes, List.countP_set bound, here]
  cases wasOpen : old.file with
  | false => cases new.file <;> simp
  | true =>
      have some := present wasOpen
      cases new.file <;> simp <;> omega

theorem excess_set_same {position : Nat} {old new : VolumeForReading}
    (found : side.volumes[position]? = some old)
    (volumes : after.volumes = side.volumes.set position new) (same : new.file = old.file)
    (nOpenVolumes : after.nOpenVolumes = side.nOpenVolumes) : excess after = excess side := by
  have counts := open_count_set found volumes
  rw [same] at counts
  unfold excess
  rw [Nat.add_right_cancel counts, nOpenVolumes]

theorem excess_set {position : Nat} {old new : VolumeForReading}
    (found : side.volumes[position]? = some old)
    (volumes : after.volumes = side.volumes.set position new)
    (nOpenVolumes : after.nOpenVolumes = side.nOpenVolumes) :
    excess after + UInt16.ofNat new.file.toNat = excess side + UInt16.ofNat old.file.toNat := by
  have counts := congrArg UInt16.ofNat (open_count_set found volumes)
  rw [UInt16.ofNat_add, UInt16.ofNat_add] at counts
  unfold excess
  rw [nOpenVolumes]
  linear_combination -counts

theorem stage_excess {request : VolumeRequest} {stage reached : VolumeStage}
    (inVolume : reader.phase = .inVolume request stage)
    (step : StageStep side number request stage after reached) :
    excess after + uncounted reader =
      excess side + uncounted { reader with phase := .inVolume request reached } := by
  unfold uncounted
  rw [inVolume]
  cases step with
  | begun free => rfl
  | skipped => rfl
  | ended position => rfl
  | kept position => rfl
  | closed position volume found free unused isOpen =>
      have changed := @excess_set side
        (side.setVolume position { volume with file := false, mutex := some number }) position
        volume _ found rfl rfl
      rw [isOpen] at changed
      simpa using changed
  | countedClosed position volume found =>
      have kept := @excess_set_same side
        (side.setVolume position { volume with mutex := none }) position volume _ found rfl rfl rfl
      have counted : excess { side.setVolume position { volume with mutex := none } with
          nOpenVolumes := side.nOpenVolumes - 1 } =
            excess (side.setVolume position { volume with mutex := none }) - 1 := by
        unfold excess openCount ReadingSide.setVolume
        ring
      rw [counted, kept]
      ring
  | present => rfl
  | opened volume found isClosed =>
      have changed := @excess_set side
        (side.setVolume request.volumeNumber { volume with file := true }) request.volumeNumber
        volume _ found rfl rfl
      rw [isClosed] at changed
      have one : UInt16.ofNat true.toNat = 1 := rfl
      have zero : UInt16.ofNat false.toNat = 0 := rfl
      rw [one, zero] at changed
      linear_combination changed
  | countedOpened =>
      have counted : excess { side with nOpenVolumes := side.nOpenVolumes + 1 } =
          excess side + 1 := by
        unfold excess openCount
        ring
      rw [counted]
      ring
  | unlocked volume found =>
      have kept := @excess_set_same side
        (side.setVolume request.volumeNumber { volume with mutex := none }) request.volumeNumber
        volume _ found rfl rfl rfl
      rw [kept]

theorem uncounted_request (reader : ReadingStream) (stream : BlockInputStream) (count : Nat) :
    uncounted (reader.request stream count) = 0 := by
  unfold ReadingStream.request
  cases stream.blocks[stream.currentBlockIndex]? <;> rfl

theorem acted_excess (acted : Acted side number reader after next) :
    excess after + uncounted reader = excess side + uncounted next := by
  cases acted with
  | staged request stage reached side' inVolume step => exact stage_excess inVolume step
  | counted block volume counting here found free =>
      have kept := @excess_set_same side
        (side.setVolume block.volumeNumber { volume with counter := volume.counter + 1 })
        block.volumeNumber volume _ found rfl rfl rfl
      rw [kept]
      rfl
  | left block volume count reading here finished found free =>
      have kept := @excess_set_same side
        (side.setVolume block.volumeNumber { volume with counter := volume.counter - 1 })
        block.volumeNumber volume _ found rfl rfl rfl
      rw [kept, uncounted_request]
      simp [uncounted, reading]
  | locked request volume looping found free =>
      have kept := @excess_set_same side
        (side.setVolume request.volumeNumber { volume with mutex := some number })
        request.volumeNumber volume _ found rfl rfl rfl
      rw [kept]
      simp [uncounted, looping]
  | beyond block counting here outside => simp [uncounted, counting]
  | built counting all => simp [uncounted, counting]
  | undigested fault counting all raises => simp [uncounted, counting]
  | returns alive steady =>
      have none : uncounted reader = 0 := by
        cases phase : reader.phase with
        | inVolume request stage =>
            rcases steady request stage phase with rfl | rfl <;> simp [uncounted, phase]
        | counting => simp [uncounted, phase]
        | raised fault => simp [uncounted, phase]
        | idle => simp [uncounted, phase]
        | reading count => simp [uncounted, phase]
        | destroyed => simp [uncounted, phase]
      rw [none]
      rfl
  | began count idle inside => simp [uncounted, idle]
  | requested block count reading here =>
      rw [uncounted_request]
      simp [uncounted, reading]
  | strayed count reading outside => simp [uncounted, reading]
  | unlockable request looping outside => simp [uncounted, looping]
  | answered request looping => simp [uncounted, looping]
  | received request nBytesRead ready => simp [uncounted, ready]
  | destroyed idle => simp [uncounted, idle]

end Counted

section Runs

variable {algorithm : HashAlgorithm} {store : VolumeStore} {index : BackupNodeIndex}
  {allowed : Crowd ReadingSide ReadingStream → CrowdLabel FileOpening ReadAction → Prop}
  {crowd next : Crowd ReadingSide ReadingStream}

theorem open_file_some {opening : FileOpening} {reader : ReadingStream}
    (joined : openFile algorithm index opening = some reader) :
    ∃ attributes, index.getNodeAttributes opening.fileIndex = .ok attributes ∧
      reader.stream = openBlocks attributes.blocks ∧ reader.counted = 0 ∧
      reader.phase = .counting := by
  unfold openFile at joined
  cases attributes : index.getNodeAttributes opening.fileIndex with
  | error fault => simp [attributes] at joined
  | ok found =>
      simp only [attributes, Option.some.injEq] at joined
      subst joined
      exact ⟨found, rfl, rfl, rfl, rfl⟩

theorem opened_known {opening : FileOpening} {reader : ReadingStream}
    (joined : openFile algorithm index opening = some reader) (number : Nat) (side : ReadingSide) :
    Known number side reader := by
  obtain ⟨attributes, _, stream, counted, phase⟩ := open_file_some joined
  constructor
  · simp [counted]
  · rw [phase]
    exact ⟨by rw [stream]; rfl, by simp [counted]⟩

theorem known_reachable
    (reachable : (readers algorithm store index).system.Reachable allowed crowd)
    {number : Nat} {reader : ReadingStream} (found : crowd.parties[number]? = some reader) :
    Known number crowd.shared reader := by
  refine Protocol.parties_reachable Known ?_ ?_ ?_ reachable found
  · intro crowd opening reader _ _ joined
    exact opened_known joined _ _
  · intro number before after reader next action known taken
    exact acted_known known (act_some taken)
  · intro number other before after reader next bystander action different known bystanderKnown taken
    exact known_respected (acted_respects known (act_some taken)) different bystanderKnown

theorem volumes_length
    (reachable : (readers algorithm store index).system.Reachable allowed crowd) :
    crowd.shared.volumes.length = store.nVolumes := by
  refine System.reachable_invariant
    (fun crowd => crowd.shared.volumes.length = store.nVolumes) ?_ ?_ reachable
  · exact List.length_replicate
  · intro crowd next label reached same _ taken
    cases label with
    | join opening =>
        obtain ⟨_, _, rfl⟩ := Protocol.step_join taken
        exact same
    | act number action =>
        obtain ⟨reader, side, after, found, acted, rfl⟩ := Protocol.step_act taken
        have respects := acted_respects (known_reachable reached found) (act_some acted)
        exact respects.length.trans same

theorem counter_of_opened (store : VolumeStore) (volumeNumber : Nat) :
    counterOf volumeNumber (openVolumes store) = 0 := by
  unfold counterOf openVolumes
  rw [List.getElem?_replicate]
  by_cases inside : volumeNumber < store.nVolumes
  · simp [inside]
  · simp [inside]

/-- Every counter is the number of references that the streams hold. -/
theorem counters_reachable
    (reachable : (readers algorithm store index).system.Reachable allowed crowd)
    (volumeNumber : Nat) :
    counterOf volumeNumber crowd.shared =
      (tally (referencesTo volumeNumber) crowd.parties : Nat) := by
  rw [← tally_cast]
  refine Protocol.tally_reachable (counterOf volumeNumber) _ ?_ ?_ ?_ reachable
  · exact counter_of_opened store volumeNumber
  · intro opening reader joined
    obtain ⟨attributes, _, _, counted, _⟩ := open_file_some joined
    simp [referencesTo, references, counted]
  · intro crowd number reader action side next reached found taken
    exact acted_counters (known_reachable reached found) (act_some taken)

theorem excess_reachable
    (reachable : (readers algorithm store index).system.Reachable allowed crowd) :
    excess crowd.shared = tally uncounted crowd.parties := by
  refine Protocol.tally_reachable excess uncounted ?_ ?_ ?_ reachable
  · have none : openCount (openVolumes store) = 0 := by
      simp [openCount, openVolumes, List.countP_replicate]
    have same : excess (openVolumes store) = 0 - UInt16.ofNat 0 := by
      unfold excess
      rw [none]
      rfl
    exact same
  · intro opening reader joined
    obtain ⟨attributes, _, _, _, phase⟩ := open_file_some joined
    simp [uncounted, phase]
  · intro crowd number reader action side next _ _ taken
    exact acted_excess (act_some taken)

theorem uncounted_holds {number : Nat} {side : ReadingSide} {reader : ReadingStream}
    (known : Known number side reader) (pending : uncounted reader ≠ 0) :
    ∃ volumeNumber, HoldsMutex side number volumeNumber := by
  have phase := known.phase
  cases here : reader.phase with
  | inVolume request stage =>
      rw [here] at phase
      cases stage with
      | closed position => exact ⟨position, phase.2.2.2⟩
      | opened => exact ⟨request.volumeNumber, phase.2.2.2⟩
      | called => simp [uncounted, here] at pending
      | closing position => simp [uncounted, here] at pending
      | looping => simp [uncounted, here] at pending
      | locked => simp [uncounted, here] at pending
      | ready => simp [uncounted, here] at pending
      | finished => simp [uncounted, here] at pending
  | counting => simp [uncounted, here] at pending
  | raised fault => simp [uncounted, here] at pending
  | idle => simp [uncounted, here] at pending
  | reading count => simp [uncounted, here] at pending
  | destroyed => simp [uncounted, here] at pending

theorem n_open_volumes_exact
    (reachable : (readers algorithm store index).system.Reachable allowed crowd)
    (unlocked : ∀ volume ∈ crowd.shared.volumes, volume.mutex = none) :
    crowd.shared.nOpenVolumes = UInt16.ofNat (openCount crowd.shared) := by
  have settled : ∀ reader ∈ crowd.parties, uncounted reader = 0 := by
    intro reader member
    obtain ⟨number, found⟩ := List.getElem?_of_mem member
    by_contra pending
    obtain ⟨volumeNumber, volume, present, mutex⟩ :=
      uncounted_holds (known_reachable reachable found) pending
    rw [unlocked volume (List.mem_of_getElem? present)] at mutex
    cases mutex
  have balanced := excess_reachable reachable
  have nothing : tally uncounted crowd.parties = 0 := by
    unfold tally
    rw [List.map_congr_left settled]
    simp
  rw [nothing] at balanced
  exact sub_eq_zero.mp balanced

end Runs

section Closing

variable {number volumeNumber : Nat} {side after : ReadingSide} {reader next : ReadingStream}

def fileOpen (volumeNumber : Nat) (side : ReadingSide) : Bool :=
  match side.volumes[volumeNumber]? with
  | none => false
  | some volume => volume.file

theorem file_open_found {volume : VolumeForReading}
    (found : side.volumes[volumeNumber]? = some volume) :
    fileOpen volumeNumber side = volume.file := by
  simp only [fileOpen, found]

theorem file_open_set {position : Nat} {old new : VolumeForReading}
    (found : side.volumes[position]? = some old)
    (volumes : after.volumes = side.volumes.set position new)
    (kept : old.file = true → new.file = true) (isOpen : fileOpen volumeNumber side = true) :
    fileOpen volumeNumber after = true := by
  by_cases same : position = volumeNumber
  · subst same
    have here : after.volumes[position]? = some new := by
      rw [volumes]
      exact List.getElem?_set_self (List.getElem?_eq_some_iff.mp found).1
    rw [file_open_found here]
    rw [file_open_found found] at isOpen
    exact kept isOpen
  · simp only [fileOpen, volumes, List.getElem?_set_ne same] at isOpen ⊢
    exact isOpen

/-- A volume that a stage closes has no reference. -/
theorem stage_closes {request : VolumeRequest} {stage reached : VolumeStage}
    (step : StageStep side number request stage after reached)
    (isOpen : fileOpen volumeNumber side = true) :
    fileOpen volumeNumber after = true ∨ counterOf volumeNumber side = 0 := by
  cases step with
  | begun free => exact .inl isOpen
  | skipped => exact .inl isOpen
  | ended position => exact .inl isOpen
  | kept position => exact .inl isOpen
  | closed position volume found free unused wasOpen =>
      by_cases same : position = volumeNumber
      · right
        rw [← same, counter_of_found found]
        exact unused
      · left
        simp only [fileOpen, ReadingSide.setVolume, List.getElem?_set_ne same] at isOpen ⊢
        exact isOpen
  | countedClosed position volume found => exact .inl (file_open_set found rfl id isOpen)
  | present => exact .inl isOpen
  | opened volume found isClosed => exact .inl (file_open_set found rfl (fun _ => rfl) isOpen)
  | countedOpened => exact .inl isOpen
  | unlocked volume found => exact .inl (file_open_set found rfl id isOpen)

theorem acted_closes (acted : Acted side number reader after next)
    (isOpen : fileOpen volumeNumber side = true) :
    fileOpen volumeNumber after = true ∨ counterOf volumeNumber side = 0 := by
  cases acted_side acted with
  | unchanged => exact .inl isOpen
  | volume position old new found free sameFile =>
      exact .inl (file_open_set found rfl (fun wasOpen => sameFile.trans wasOpen) isOpen)
  | staged request stage reached side' inVolume step => exact stage_closes step isOpen

def Unfinished (reader : ReadingStream) (block : Block) : Prop :=
  ∃ position, reader.stream.blocks[position]? = some block ∧
    (reader.stream.currentBlockIndex < position ∨
      (reader.stream.currentBlockIndex = position ∧ reader.stream.blockOffset < block.size))

theorem unfinished_referenced (made : Made reader) {block : Block}
    (unfinished : Unfinished reader block) : 0 < referencesTo block.volumeNumber reader := by
  obtain ⟨position, found, ahead⟩ := unfinished
  have member : block ∈ references reader := by
    rw [references_made made]
    apply List.mem_of_getElem? (i := position - reader.stream.currentBlockIndex)
    rw [List.getElem?_drop, ← found]
    congr 1
    omega
  exact List.countP_pos_iff.mpr ⟨block, member, by simp⟩

end Closing

/-- In every reachable state: the number of open volumes is exact when no mutex is
held, no counter is negative, and a volume that a step closes has no block that a
stream has still to read. -/
theorem open_volumes_bookkeeping (algorithm : HashAlgorithm) (store : VolumeStore)
    (index : BackupNodeIndex) (crowd : Crowd ReadingSide ReadingStream)
    (reachable : (readers algorithm store index).system.Reachable System.anyStep crowd) :
    ((∀ volume ∈ crowd.shared.volumes, volume.mutex = none) → openCount crowd.shared < 2 ^ 16 →
      crowd.shared.nOpenVolumes.toNat = openCount crowd.shared) ∧
    (∀ volume ∈ crowd.shared.volumes, 0 ≤ volume.counter) ∧
    (∀ label next, (readers algorithm store index).step crowd label = some next →
      ∀ volumeNumber, fileOpen volumeNumber crowd.shared = true →
        fileOpen volumeNumber next.shared = false → ∀ reader ∈ crowd.parties,
          reader.alive = true → ∀ block, Unfinished reader block →
            block.volumeNumber ≠ volumeNumber) := by
  refine ⟨?_, ?_, ?_⟩
  · intro unlocked few
    rw [n_open_volumes_exact reachable unlocked]
    exact UInt16.toNat_ofNat_of_lt' few
  · intro volume member
    obtain ⟨volumeNumber, found⟩ := List.getElem?_of_mem member
    rw [← counter_of_found found, counters_reachable reachable volumeNumber]
    exact Int.natCast_nonneg _
  · intro label next taken volumeNumber isOpen isClosed reader member alive block unfinished same
    have unused : counterOf volumeNumber crowd.shared = 0 := by
      cases label with
      | join opening =>
          obtain ⟨joined, _, rfl⟩ := Protocol.step_join taken
          rw [isOpen] at isClosed
          cases isClosed
      | act number action =>
          obtain ⟨acting, side, after, _, acted, rfl⟩ := Protocol.step_act taken
          rcases acted_closes (act_some acted) isOpen with stillOpen | unused
          · rw [stillOpen] at isClosed
            cases isClosed
          · exact unused
    obtain ⟨number, found⟩ := List.getElem?_of_mem member
    have made := alive_made (known_reachable reachable found) alive
    have referenced := unfinished_referenced made unfinished
    rw [counters_reachable reachable volumeNumber, Int.natCast_eq_zero, tally_eq_zero] at unused
    rw [same, unused reader member] at referenced
    exact lt_irrefl 0 referenced

def readTwoBytes : List (CrowdLabel FileOpening ReadAction) :=
  [.join { fileIndex := 0, verify := true }, .act 0 .proceed, .act 0 .proceed,
    .act 0 (.readBytes 2), .act 0 .proceed, .act 0 .proceed, .act 0 .proceed, .act 0 .proceed,
    .act 0 .proceed, .act 0 (.receive 2), .act 0 .proceed, .act 0 .proceed, .act 0 .proceed]

def firstReaders (chain : Chain) (entry : Entry) :
    Protocol ReadingSide ReadingStream FileOpening ReadAction :=
  snapshotReaders .md5 (volumesOf chain) entry.snapshot

theorem one_volume_open :
    ∃ chain entry crowd, addSnapshot spellingRuntime [] firstBackup = some chain ∧
      chain = [entry] ∧
      (firstReaders chain entry).system.run (firstReaders chain entry).system.initial
        readTwoBytes = some crowd ∧
      openCount crowd.shared = 1 ∧
      crowd.shared.nOpenVolumes.toNat = 1 ∧
      ∀ volume ∈ crowd.shared.volumes, 0 ≤ volume.counter := by
  have outcome : (addSnapshot spellingRuntime [] firstBackup).map (fun chain =>
      chain.map fun entry =>
        ((firstReaders chain entry).system.run (firstReaders chain entry).system.initial
          readTwoBytes).map fun crowd => crowd.shared.volumes) =
        some [some [{ file := true, counter := 1, mutex := none }]] := by decide +kernel
  obtain ⟨chain, added, runs⟩ := Option.map_eq_some_iff.mp outcome
  obtain ⟨entry, single, read⟩ := List.map_eq_singleton_iff.mp runs
  obtain ⟨crowd, run, volumes⟩ := Option.map_eq_some_iff.mp read
  have exactly := open_volumes_bookkeeping .md5 (entry.snapshot.fileSystem (volumesOf chain))
    entry.index crowd (System.reachable_of_run readTwoBytes run)
  have one : openCount crowd.shared = 1 := by
    unfold openCount
    rw [volumes]
    rfl
  refine ⟨chain, entry, crowd, added, single, run, one, ?_, exactly.2.1⟩
  rw [exactly.1 _ (by rw [one]; decide), one]
  simp [volumes]

end ACBackup.OpenVolumeCount
