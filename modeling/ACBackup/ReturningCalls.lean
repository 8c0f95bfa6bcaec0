import ACBackup.Library.LockOrder
import ACBackup.VolumeLocks
import ACBackup.StoredContent

/-!
The calls of the readers return. The lock of the number of open volumes is taken in
front of the mutexes and nobody waits with a mutex held, so that some call goes on;
and the steps that the calls still take are bounded.
-/

namespace ACBackup.ReturningCalls

open ACBackup.Library.Extents ACBackup.Library.Transition ACBackup.Library.Parties
open ACBackup.Library.LockOrder
open ACBackup.Platform ACBackup.NodeAttributes ACBackup.Indexing ACBackup.VolumeReading
open ACBackup.SnapshotManager ACBackup.ReadingStreams ACBackup.OpenVolumeCount
open ACBackup.StoredContent ACBackup.VolumeLocks

set_option autoImplicit false

section Requests

variable {files : Nat → Bytes} {number : Nat} {side after : ReadingSide}
  {reader next : ReadingStream}

structure Fetchable (files : Nat → Bytes) (reader : ReadingStream) : Prop where
  present : AllPresent files reader.stream.blocks
  inside : ∀ request stage, reader.phase = .inVolume request stage → request.left ≠ 0 →
    request.offset + request.left ≤ (files request.volumeNumber).length
  missing : ∀ request stage, reader.phase = .inVolume request stage →
    stage = .locked ∨ stage = .opened ∨ stage = .ready → request.left ≠ 0

theorem fetchable_outside (present : AllPresent files reader.stream.blocks)
    (outside : ∀ request stage, reader.phase ≠ .inVolume request stage) :
    Fetchable files reader where
  present := present
  inside request stage inVolume := absurd inVolume (outside request stage)
  missing request stage inVolume := absurd inVolume (outside request stage)

theorem request_fetchable {stream : BlockInputStream} (present : AllPresent files stream.blocks)
    (count : Nat) : Fetchable files (reader.request stream count) := by
  have blocks := (request_stream reader stream count).1
  cases here : stream.blocks[stream.currentBlockIndex]? with
  | none =>
      apply fetchable_outside
      · rw [blocks]
        exact present
      · intro request stage inVolume
        simp [ReadingStream.request, here] at inVolume
  | some block =>
      have inside := present block (List.mem_of_getElem? here)
      constructor
      · rw [blocks]
        exact present
      · intro request stage inVolume left
        simp only [ReadingStream.request, here, StreamPhase.inVolume.injEq] at inVolume
        obtain ⟨rfl, rfl⟩ := inVolume
        simp only [downcastToClosest] at left ⊢
        omega
      · intro request stage inVolume holding
        simp only [ReadingStream.request, here, StreamPhase.inVolume.injEq] at inVolume
        obtain ⟨rfl, rfl⟩ := inVolume
        simp at holding

theorem locked_missing {request : VolumeRequest} {action : ReadAction}
    (looping : reader.phase = .inVolume request .looping)
    (taken : act files number side reader action =
      some (after, { reader with phase := .inVolume request .locked })) : request.left ≠ 0 := by
  intro zero
  cases action <;> simp [act, looping, volumePass, zero, mayFail] at taken

theorem stage_missing {request : VolumeRequest} {stage reached : VolumeStage}
    (step : StageStep side number request stage after reached)
    (holding : reached = .locked ∨ reached = .opened ∨ reached = .ready) :
    stage = .locked ∨ stage = .opened ∨ stage = .ready := by
  cases step <;> simp at holding ⊢

theorem act_fetchable {action : ReadAction} (fetchable : Fetchable files reader)
    (taken : act files number side reader action = some (after, next)) :
    Fetchable files next := by
  have present := fetchable.present
  cases act_some taken with
  | left block volume count reading here finished found free =>
      apply request_fetchable
      rw [(leave_finished_block finished).1]
      exact present
  | requested block count reading here => exact request_fetchable present count
  | staged request stage reached side' inVolume step =>
      constructor
      · exact present
      · intro other otherStage same left
        cases same
        exact fetchable.inside request stage inVolume left
      · intro other otherStage same holding
        cases same
        exact fetchable.missing request stage inVolume (stage_missing step holding)
  | locked request volume looping found free =>
      constructor
      · exact present
      · intro other otherStage same left
        cases same
        exact fetchable.inside request .looping looping left
      · intro other otherStage same holding
        cases same
        exact locked_missing looping taken
  | received request nBytesRead ready =>
      constructor
      · exact present
      · intro other otherStage same left
        cases same
        have inside := fetchable.inside request .ready ready
        simp only at left ⊢
        omega
      · intro other otherStage same holding
        cases same
        simp at holding
  | counted block volume counting here found free =>
      exact fetchable_outside present (by simp [counting])
  | beyond block counting here outside => exact fetchable_outside present (by simp)
  | built counting all => exact fetchable_outside present (by simp)
  | undigested fault counting all raises => exact fetchable_outside present (by simp)
  | returns alive steady => exact fetchable_outside present (by simp)
  | began count idle inside => exact fetchable_outside present (by simp)
  | strayed count reading outside => exact fetchable_outside present (by simp)
  | unlockable request looping outside => exact fetchable_outside present (by simp)
  | answered request looping => exact fetchable_outside present (by simp)
  | destroyed idle => exact fetchable_outside present (by simp)

/-- The code goes on by itself; a read of a file returns bytes. -/
def Works : ReadAction → Prop
  | .proceed => True
  | .receive nBytesRead => 0 < nBytesRead
  | _ => False

def Free (side : ReadingSide) (reader : ReadingStream) : Prop :=
  ∀ lock, wants reader = some lock → owner side lock = none

theorem free_volume {volumeNumber : Nat} (free : Free side reader)
    (wanted : wants reader = some (.volume volumeNumber)) {volume : VolumeForReading}
    (found : side.volumes[volumeNumber]? = some volume) : volume.mutex = none := by
  rw [← owner_volume found]
  exact free _ wanted

theorem counting_works (counting : reader.phase = .counting) (free : Free side reader) :
    ∃ result, incrementVolumeCounters side reader = some result := by
  unfold incrementVolumeCounters
  cases here : reader.stream.blocks[reader.counted]? with
  | none => cases expected : reader.expected <;> simp
  | some block =>
      cases found : side.volumes[block.volumeNumber]? with
      | none => simp [found]
      | some volume =>
          have unlocked := free_volume free (by simp [wants, counting, here]) found
          simp [found, unlocked]

theorem reading_works {count : Nat} (reading : reader.phase = .reading count)
    (free : Free side reader) : ∃ result, readPass side reader count = some result := by
  unfold readPass
  by_cases zero : count = 0
  · simp [zero]
  · rw [if_neg zero]
    cases here : reader.stream.blocks[reader.stream.currentBlockIndex]? with
    | none => simp
    | some block =>
        by_cases finished : block.size ≤ reader.stream.blockOffset
        · cases found : side.volumes[block.volumeNumber]? with
          | none => simp [finished, found]
          | some volume =>
              have wanted : wants reader = some (.volume block.volumeNumber) := by
                simp [wants, reading, zero, finishedBlock, here, finished]
              simp [finished, found, free_volume free wanted found]
        · simp [finished]

theorem looping_works (number : Nat) {request : VolumeRequest}
    (looping : reader.phase = .inVolume request .looping) (free : Free side reader) :
    ∃ result, volumePass side number reader request = some result := by
  unfold volumePass
  by_cases zero : request.left = 0
  · simp [zero]
  · rw [if_neg zero]
    cases found : side.volumes[request.volumeNumber]? with
    | none => simp
    | some volume =>
        have wanted : wants reader = some (.volume request.volumeNumber) := by
          simp [wants, looping, stageWants, zero]
        simp [free_volume free wanted found]

theorem stage_works {request : VolumeRequest} {stage : VolumeStage}
    (inVolume : reader.phase = .inVolume request stage) (free : Free side reader)
    (known : StageKnown side number request stage) (goesOn : stage ≠ .looping)
    (fetched : stage ≠ .ready) :
    ∃ result, proceedInVolume side number request stage = some result := by
  cases stage with
  | called =>
      have unlocked : side.nOpenVolumesLock = none :=
        free .nOpenVolumes (by simp [wants, inVolume, stageWants])
      simp only [proceedInVolume, beginClosing, unlocked, if_true]
      by_cases many : 100 < side.nOpenVolumes <;> simp [many]
  | closing position =>
      simp only [proceedInVolume, closeVolume]
      cases found : side.volumes[position]? with
      | none => simp
      | some volume =>
          have unlocked := free_volume free (by simp [wants, inVolume, stageWants]) found
          by_cases unused : volume.counter = 0 ∧ volume.file = true <;> simp [unlocked, unused]
  | closed position =>
      obtain ⟨volume, found, _⟩ := known
      simp [proceedInVolume, countClosed, found]
  | looping => exact absurd rfl goesOn
  | locked =>
      obtain ⟨volume, found, _⟩ := known
      simp only [proceedInVolume, openVolume, found]
      by_cases isOpen : volume.file = true <;> simp [isOpen]
  | opened => simp [proceedInVolume]
  | ready => exact absurd rfl fetched
  | finished =>
      obtain ⟨volume, found, _⟩ := known
      simp [proceedInVolume, unlockVolumeStream, found]

theorem act_staged {request : VolumeRequest} {stage : VolumeStage}
    (inVolume : reader.phase = .inVolume request stage) (goesOn : stage ≠ .looping) :
    act files number side reader .proceed =
      (proceedInVolume side number request stage).map fun result =>
        (result.1, { reader with phase := .inVolume request result.2 }) := by
  cases stage <;> simp only [act, inVolume]
  exact absurd rfl goesOn

theorem receive_one {request : VolumeRequest} (ready : reader.phase = .inVolume request .ready)
    (one : 1 ≤ (slice (files request.volumeNumber) request.offset request.left).length) :
    act files number side reader (.receive 1) =
      some (side,
        { reader with
          phase := .inVolume { request with left := request.left - 1 } .finished }) := by
  simp only [act, ready, one, if_true]

/-- A call that can have the lock it wants goes on. -/
theorem busy_works (known : Known number side reader) (fetchable : Fetchable files reader)
    (busy : Busy reader) (free : Free side reader) :
    ∃ action result, Works action ∧ act files number side reader action = some result := by
  have phaseKnown := known.phase
  cases phase : reader.phase with
  | counting =>
      obtain ⟨result, works⟩ := counting_works phase free
      exact ⟨.proceed, result, trivial, by simp only [act, phase, works]⟩
  | reading count =>
      obtain ⟨result, works⟩ := reading_works phase free
      exact ⟨.proceed, result, trivial, by simp only [act, phase, works]⟩
  | inVolume request stage =>
      rw [phase] at phaseKnown
      by_cases looping : stage = .looping
      · subst looping
        obtain ⟨result, works⟩ := looping_works number phase free
        exact ⟨.proceed, result, trivial, by simp only [act, phase, works]⟩
      · by_cases ready : stage = .ready
        · subst ready
          have missing := fetchable.missing request .ready phase (by simp)
          have held := fetchable.inside request .ready phase missing
          have one : 1 ≤ (slice (files request.volumeNumber) request.offset
              request.left).length := by
            simp only [slice, List.length_take, List.length_drop]
            omega
          exact ⟨.receive 1, _, Nat.one_pos, receive_one phase one⟩
        · obtain ⟨result, works⟩ := stage_works phase free phaseKnown.2.2.2 looping ready
          refine ⟨.proceed, (result.1, { reader with phase := .inVolume request result.2 }),
            trivial, ?_⟩
          rw [act_staged phase looping, works]
          rfl
  | idle => simp [Busy, phase] at busy
  | raised fault => simp [Busy, phase] at busy
  | destroyed => simp [Busy, phase] at busy

end Requests

section Workload

variable {files : Nat → Bytes} {number nVolumes : Nat} {side after : ReadingSide}
  {reader next : ReadingStream}

def unread (stream : BlockInputStream) : Nat :=
  stream.blocks.length - stream.currentBlockIndex

def roundCost (nVolumes : Nat) : Nat := 2 * nVolumes + 13

def stageCost (nVolumes : Nat) : VolumeStage → Nat
  | .called => 2 * nVolumes + 7
  | .closing position => 2 * (nVolumes - position) + 6
  | .closed position => 2 * (nVolumes - position) + 5
  | .looping => 5
  | .locked => 4
  | .opened => 3
  | .ready => 2
  | .finished => 6

def workload (nVolumes : Nat) (reader : ReadingStream) : Nat :=
  match reader.phase with
  | .counting => reader.stream.blocks.length - reader.counted + 1
  | .reading count => (unread reader.stream + count) * roundCost nVolumes + 1
  | .inVolume request stage =>
      (unread reader.stream + (request.count - request.leftSize)) * roundCost nVolumes +
        (6 * request.left + stageCost nVolumes stage)
  | _ => 0

theorem request_cost {unread left count leftSize : Nat} (asked : leftSize ≤ count)
    (gains : 0 < left + leftSize) :
    (unread + (count - leftSize)) * roundCost nVolumes + (6 * leftSize + (2 * nVolumes + 7)) <
      (unread + left + count) * roundCost nVolumes + 1 := by
  have split : unread + left + count = unread + (count - leftSize) + (left + leftSize) := by omega
  have gained : 1 * (2 * nVolumes + 7) ≤ (left + leftSize) * (2 * nVolumes + 7) :=
    Nat.mul_le_mul_right _ gains
  have round : (left + leftSize) * roundCost nVolumes =
      (left + leftSize) * (2 * nVolumes + 7) + 6 * (left + leftSize) := by
    unfold roundCost
    ring
  rw [split, Nat.add_mul _ (left + leftSize), round]
  omega

theorem request_lowers {stream : BlockInputStream} {count left : Nat}
    (gains : ∀ block, stream.blocks[stream.currentBlockIndex]? = some block → count ≠ 0 →
      0 < left + (block.size - stream.blockOffset)) (wanted : count ≠ 0) :
    workload nVolumes (reader.request stream count) <
      (unread stream + left + count) * roundCost nVolumes + 1 := by
  cases here : stream.blocks[stream.currentBlockIndex]? with
  | none => simp [workload, ReadingStream.request, here]
  | some block =>
      have gain := gains block here wanted
      simp only [workload, ReadingStream.request, here, stageCost]
      apply request_cost
      · exact min_le_left _ _
      · simp only [downcastToClosest]
        omega

theorem read_pass_lowers {count : Nat} (reading : reader.phase = .reading count)
    (known : Known number side reader)
    (taken : readPass side reader count = some (after, next)) :
    workload nVolumes next < workload nVolumes reader := by
  have before : workload nVolumes reader =
      (unread reader.stream + count) * roundCost nVolumes + 1 := by
    simp only [workload, reading]
  have inside := known.phase
  rw [reading] at inside
  rw [before]
  unfold readPass at taken
  by_cases zero : count = 0
  · rw [if_pos zero] at taken
    cases taken
    simp [workload]
  · rw [if_neg zero] at taken
    cases here : reader.stream.blocks[reader.stream.currentBlockIndex]? with
    | none =>
        simp only [here, Option.some.injEq, Prod.mk.injEq] at taken
        obtain ⟨rfl, rfl⟩ := taken
        simp [workload]
    | some block =>
        simp only [here] at taken
        by_cases finished : block.size ≤ reader.stream.blockOffset
        · rw [if_pos finished] at taken
          cases found : side.volumes[block.volumeNumber]? with
          | none =>
              simp only [found, Option.some.injEq, Prod.mk.injEq] at taken
              obtain ⟨rfl, rfl⟩ := taken
              simp [workload]
          | some volume =>
              simp only [found] at taken
              by_cases free : volume.mutex = none
              · rw [if_pos free] at taken
                cases taken
                have leaves := leave_finished_block finished
                have less : unread reader.stream =
                    unread (reader.stream.leaveFinishedBlock block) + 1 := by
                  unfold unread
                  rw [leaves.1, leaves.2]
                  have bound := inside.2
                  omega
                rw [less]
                exact request_lowers (fun _ _ _ => by omega) zero
              · rw [if_neg free] at taken
                cases taken
        · rw [if_neg finished] at taken
          cases taken
          have bound : workload nVolumes (reader.request reader.stream count) <
              (unread reader.stream + 0 + count) * roundCost nVolumes + 1 := by
            apply request_lowers _ zero
            intro other same _
            rw [here, Option.some.injEq] at same
            subst same
            omega
          exact bound

theorem close_volume_lowers {position : Nat} {reached : VolumeStage}
    (length : side.volumes.length = nVolumes)
    (taken : closeVolume side number position = some (after, reached)) :
    stageCost nVolumes reached < stageCost nVolumes (.closing position) := by
  unfold closeVolume at taken
  cases found : side.volumes[position]? with
  | none =>
      simp only [found, Option.some.injEq, Prod.mk.injEq] at taken
      rw [← taken.2]
      simp only [stageCost]
      omega
  | some volume =>
      have inside := (List.getElem?_eq_some_iff.mp found).1
      simp only [found] at taken
      by_cases free : volume.mutex = none
      · rw [if_pos free] at taken
        by_cases unused : volume.counter = 0 ∧ volume.file = true
        · rw [if_pos unused] at taken
          cases taken
          simp only [stageCost]
          omega
        · rw [if_neg unused] at taken
          cases taken
          simp only [stageCost]
          omega
      · rw [if_neg free] at taken
        cases taken

theorem stage_lowers {request : VolumeRequest} {stage reached : VolumeStage}
    (length : side.volumes.length = nVolumes)
    (taken : proceedInVolume side number request stage = some (after, reached)) :
    stageCost nVolumes reached < stageCost nVolumes stage := by
  have step := proceed_in_volume_some taken
  cases stage with
  | closing position => exact close_volume_lowers length taken
  | called =>
      cases step with
      | begun free => simp [stageCost]
      | skipped => simp only [stageCost]; omega
  | closed position =>
      cases step with
      | countedClosed _ volume found =>
          have inside := (List.getElem?_eq_some_iff.mp found).1
          simp only [stageCost]
          omega
  | looping => cases taken
  | locked =>
      cases step with
      | present => simp [stageCost]
      | opened volume found isClosed => simp [stageCost]
  | opened =>
      cases step with
      | countedOpened => simp [stageCost]
  | ready => cases taken
  | finished =>
      cases step with
      | unlocked volume found => simp [stageCost]

theorem counting_lowers (counting : reader.phase = .counting)
    (taken : incrementVolumeCounters side reader = some (after, next)) :
    workload nVolumes next < workload nVolumes reader := by
  have before : workload nVolumes reader = reader.stream.blocks.length - reader.counted + 1 := by
    simp only [workload, counting]
  rw [before]
  unfold incrementVolumeCounters at taken
  cases here : reader.stream.blocks[reader.counted]? with
  | none =>
      cases expected : reader.expected <;>
        simp only [here, expected, Option.some.injEq, Prod.mk.injEq] at taken <;>
        obtain ⟨rfl, rfl⟩ := taken <;> simp [workload]
  | some block =>
      have inside := (List.getElem?_eq_some_iff.mp here).1
      cases found : side.volumes[block.volumeNumber]? with
      | none =>
          simp only [here, found, Option.some.injEq, Prod.mk.injEq] at taken
          obtain ⟨rfl, rfl⟩ := taken
          simp [workload]
      | some volume =>
          simp only [here, found] at taken
          by_cases free : volume.mutex = none
          · rw [if_pos free] at taken
            cases taken
            simp only [workload, counting]
            omega
          · rw [if_neg free] at taken
            cases taken

theorem looping_lowers {request : VolumeRequest}
    (looping : reader.phase = .inVolume request .looping)
    (taken : volumePass side number reader request = some (after, next)) :
    workload nVolumes next < workload nVolumes reader := by
  unfold volumePass at taken
  by_cases zero : request.left = 0
  · rw [if_pos zero] at taken
    cases taken
    simp only [workload, looping, stageCost, unread]
    omega
  · rw [if_neg zero] at taken
    cases found : side.volumes[request.volumeNumber]? with
    | none =>
        simp only [found, Option.some.injEq, Prod.mk.injEq] at taken
        rw [← taken.2]
        simp [workload, looping, stageCost]
    | some volume =>
        simp only [found] at taken
        by_cases free : volume.mutex = none
        · rw [if_pos free] at taken
          cases taken
          simp [workload, looping, stageCost]
        · rw [if_neg free] at taken
          cases taken

/-- Every step that works brings a call closer to its end. -/
theorem act_lowers {action : ReadAction} (known : Known number side reader)
    (length : side.volumes.length = nVolumes) (works : Works action)
    (taken : act files number side reader action = some (after, next)) :
    workload nVolumes next < workload nVolumes reader := by
  cases action with
  | proceed =>
      cases phase : reader.phase with
      | counting =>
          simp only [act, phase] at taken
          exact counting_lowers phase taken
      | reading count =>
          simp only [act, phase] at taken
          exact read_pass_lowers phase known taken
      | inVolume request stage =>
          by_cases looping : stage = .looping
          · subst looping
            simp only [act, phase] at taken
            exact looping_lowers phase taken
          · rw [act_staged phase looping] at taken
            obtain ⟨⟨side', reached⟩, proceeded, same⟩ := Option.map_eq_some_iff.mp taken
            cases same
            have less := stage_lowers length proceeded
            simp only [workload, phase]
            omega
      | raised fault => simp [act, phase] at taken
      | idle => simp [act, phase] at taken
      | destroyed => simp [act, phase] at taken
  | receive nBytesRead =>
      have positive : 0 < nBytesRead := works
      cases phase : reader.phase with
      | inVolume request stage =>
          cases stage <;> simp only [act, phase, reduceCtorEq] at taken
          case ready =>
            by_cases delivered : nBytesRead ≤
                (slice (files request.volumeNumber) request.offset request.left).length
            · rw [if_pos delivered] at taken
              cases taken
              have bound : (slice (files request.volumeNumber) request.offset
                  request.left).length ≤ request.left := List.length_take_le _ _
              simp only [workload, phase, stageCost]
              omega
            · rw [if_neg delivered] at taken
              cases taken
      | counting => simp [act, phase] at taken
      | reading count => simp [act, phase] at taken
      | raised fault => simp [act, phase] at taken
      | idle => simp [act, phase] at taken
      | destroyed => simp [act, phase] at taken
  | readBytes count => exact works.elim
  | fail => exact works.elim
  | destroy => exact works.elim

end Workload

section Runs

variable {algorithm : HashAlgorithm} {store : VolumeStore} {index : BackupNodeIndex}
  {allowed : Crowd ReadingSide ReadingStream → CrowdLabel FileOpening ReadAction → Prop}
  {crowd next : Crowd ReadingSide ReadingStream}

/-- No access to a volume fails, and only files are opened whose blocks lie in their
volumes. -/
structure Undamaged (store : VolumeStore) (index : BackupNodeIndex)
    (allowed : Crowd ReadingSide ReadingStream → CrowdLabel FileOpening ReadAction → Prop) :
    Prop where
  present : ∀ crowd opening attributes, allowed crowd (.join opening) →
    index.getNodeAttributes opening.fileIndex = .ok attributes →
      AllPresent store.files attributes.blocks
  noFailure : ∀ crowd number, ¬allowed crowd (.act number .fail)
  works : ∀ crowd number action, Works action → allowed crowd (.act number action)

def Held (crowd : Crowd ReadingSide ReadingStream) : Prop :=
  ∀ lock number, owner crowd.shared lock = some number →
    ∃ reader, crowd.parties[number]? = some reader ∧ lock ∈ locks reader

theorem fetchable_reachable (undamaged : Undamaged store index allowed)
    (reachable : (readers algorithm store index).system.Reachable allowed crowd)
    {number : Nat} {reader : ReadingStream} (found : crowd.parties[number]? = some reader) :
    Fetchable store.files reader := by
  refine Protocol.parties_reachable (fun _ _ reader => Fetchable store.files reader) ?_ ?_ ?_
    reachable found
  · intro crowd opening reader _ permitted joined
    obtain ⟨attributes, recorded, stream, _, phase⟩ := open_file_some joined
    apply fetchable_outside
    · rw [stream]
      exact undamaged.present crowd opening attributes permitted recorded
    · simp [phase]
  · intro number before after reader next action fetchable taken
    exact act_fetchable fetchable taken
  · intro number other before after reader next bystander action _ _ fetchable _
    exact fetchable

theorem held_reachable (undamaged : Undamaged store index allowed)
    (reachable : (readers algorithm store index).system.Reachable allowed crowd) : Held crowd := by
  refine System.reachable_invariant Held ?_ ?_ reachable
  · intro lock number owned
    cases lock with
    | nOpenVolumes => cases owned
    | volume volumeNumber =>
        have volumes : (openVolumes store).volumes[volumeNumber]?.bind VolumeForReading.mutex =
            some number := owned
        obtain ⟨volume, found, mutex⟩ := Option.bind_eq_some_iff.mp volumes
        have fresh := List.eq_of_mem_replicate (List.mem_of_getElem? found)
        rw [fresh] at mutex
        cases mutex
  · intro crowd next label _ held permitted taken lock number owned
    cases label with
    | join opening =>
        obtain ⟨joined, _, rfl⟩ := Protocol.step_join taken
        obtain ⟨reader, found, mine⟩ := held lock number owned
        have inside := (List.getElem?_eq_some_iff.mp found).1
        exact ⟨reader, (List.getElem?_append_left inside).trans found, mine⟩
    | act acting action =>
        obtain ⟨reader, side, after, found, acted, rfl⟩ := Protocol.step_act taken
        have goesOn : action ≠ .fail := by
          intro fails
          rw [fails] at permitted
          exact undamaged.noFailure crowd acting permitted
        have inside := (List.getElem?_eq_some_iff.mp found).1
        have mine : lock ∈ locks after → number = acting →
            ∃ reader, (crowd.parties.set acting after)[number]? = some reader ∧
              lock ∈ locks reader := by
          intro holds same
          exact ⟨after, by rw [same]; exact List.getElem?_set_self inside, holds⟩
        cases act_lock_change goesOn acted lock with
        | kept sameOwner same =>
            rw [sameOwner] at owned
            obtain ⟨holder, present, holds⟩ := held lock number owned
            by_cases self : number = acting
            · subst self
              rw [found, Option.some.injEq] at present
              rw [← present] at holds
              exact mine (same.mpr holds) rfl
            · refine ⟨holder, ?_, holds⟩
              rw [List.getElem?_set_ne (Ne.symm self)]
              exact present
        | taken free taker holds =>
            rw [owned, Option.some.injEq] at taker
            exact mine holds taker
        | released before free gone =>
            rw [owned] at free
            cases free

def HoldsLock (crowd : Crowd ReadingSide ReadingStream) (number : Nat) (lock : Lock) : Prop :=
  ∃ reader, crowd.parties[number]? = some reader ∧ lock ∈ locks reader

def WaitsFor (crowd : Crowd ReadingSide ReadingStream) (number : Nat) (lock : Lock) : Prop :=
  ∃ reader, crowd.parties[number]? = some reader ∧ wants reader = some lock ∧
    owner crowd.shared lock ≠ none

/-- The lock of the number of open volumes is taken before the mutexes. -/
def rank : Lock → Nat
  | .nOpenVolumes => 1
  | .volume _ => 0

theorem wants_below {reader : ReadingStream} {held wanted : Lock} (holds : held ∈ locks reader)
    (wants : wants reader = some wanted) : rank wanted < rank held := by
  cases phase : reader.phase with
  | inVolume request stage =>
      simp only [locks, phase] at holds
      simp only [VolumeLocks.wants, phase] at wants
      cases stage with
      | closing position =>
          simp only [stageLocks, List.mem_singleton] at holds
          simp only [stageWants, Option.some.injEq] at wants
          rw [holds, ← wants]
          exact Nat.one_pos
      | called => cases holds
      | looping => cases holds
      | closed position => cases wants
      | locked => cases wants
      | opened => cases wants
      | ready => cases wants
      | finished => cases wants
  | counting => simp [locks, phase] at holds
  | reading count => simp [locks, phase] at holds
  | idle => simp [locks, phase] at holds
  | raised fault => simp [locks, phase] at holds
  | destroyed => simp [locks, phase] at holds

theorem locks_ordered (held : Held crowd) :
    Ordered (HoldsLock crowd) (WaitsFor crowd) (InvImage (· < ·) rank) where
  wellFounded := InvImage.wf rank wellFounded_lt
  owned number lock waits := by
    obtain ⟨reader, _, _, taken⟩ := waits
    obtain ⟨holder, owned⟩ := Option.ne_none_iff_exists'.mp taken
    exact ⟨holder, held lock holder owned⟩
  descends number lock wanted holds waits := by
    obtain ⟨reader, found, mine⟩ := holds
    obtain ⟨other, present, wants, _⟩ := waits
    rw [found, Option.some.injEq] at present
    subst present
    exact wants_below mine wants

theorem locks_busy {reader : ReadingStream} {lock : Lock} (holds : lock ∈ locks reader) :
    Busy reader := by
  cases phase : reader.phase with
  | inVolume request stage => simp [Busy, phase]
  | counting => simp [Busy, phase]
  | reading count => simp [Busy, phase]
  | idle => simp [locks, phase] at holds
  | raised fault => simp [locks, phase] at holds
  | destroyed => simp [locks, phase] at holds

def LabelWorks : CrowdLabel FileOpening ReadAction → Prop
  | .join _ => False
  | .act _ action => Works action

/-- While a call has not returned, some call goes on. -/
theorem somebody_works (undamaged : Undamaged store index allowed)
    (reachable : (readers algorithm store index).system.Reachable allowed crowd)
    {reader : ReadingStream} (member : reader ∈ crowd.parties) (busy : Busy reader) :
    ∃ label, LabelWorks label ∧ (readers algorithm store index).step crowd label ≠ none := by
  obtain ⟨number, found⟩ := List.getElem?_of_mem member
  have ordered := locks_ordered (held_reachable undamaged reachable)
  obtain ⟨other, who, unblocked⟩ := somebody_unblocked ordered number
  obtain ⟨mover, present, moverBusy⟩ :
      ∃ mover, crowd.parties[other]? = some mover ∧ Busy mover := by
    rcases who with same | ⟨lock, mover, present, holds⟩
    · exact ⟨reader, by rw [same]; exact found, busy⟩
    · exact ⟨mover, present, locks_busy holds⟩
  have free : Free crowd.shared mover := by
    intro lock wanted
    by_contra taken
    exact unblocked lock ⟨mover, present, wanted, taken⟩
  obtain ⟨action, result, works, acted⟩ := busy_works (known_reachable reachable present)
    (fetchable_reachable undamaged reachable present) moverBusy free
  refine ⟨.act other action, works, ?_⟩
  have moves : act store.files other crowd.shared mover action = some result := acted
  simp [Protocol.step, present, readers, moves]

theorem workload_lowers (undamaged : Undamaged store index allowed) :
    System.Lowers (readers algorithm store index).system allowed LabelWorks
      (fun crowd => tally (workload store.nVolumes) crowd.parties) where
  permitted crowd label works := by
    cases label with
    | join opening => exact works.elim
    | act number action => exact undamaged.works crowd number action works
  lower crowd next label reachable works taken := by
    cases label with
    | join opening => exact works.elim
    | act number action =>
        obtain ⟨reader, side, after, found, acted, rfl⟩ := Protocol.step_act taken
        have less : workload store.nVolumes after < workload store.nVolumes reader :=
          act_lowers (known_reachable reachable found) (volumes_length reachable) works acted
        have changed : tally (workload store.nVolumes) (crowd.parties.set number after) +
            workload store.nVolumes reader =
              tally (workload store.nVolumes) crowd.parties + workload store.nVolumes after :=
          tally_set found after
        simp only
        omega

structure Returned (crowd : Crowd ReadingSide ReadingStream) : Prop where
  idle : ∀ reader ∈ crowd.parties, ¬Busy reader
  unlocked : ∀ lock, owner crowd.shared lock = none

theorem returned_of_idle (held : Held crowd) (idle : ∀ reader ∈ crowd.parties, ¬Busy reader) :
    Returned crowd where
  idle := idle
  unlocked lock := by
    by_contra taken
    obtain ⟨number, owned⟩ := Option.ne_none_iff_exists'.mp taken
    obtain ⟨reader, found, mine⟩ := held lock number owned
    exact idle reader (List.mem_of_getElem? found) (locks_busy mine)

/-- The steps that the open calls still take are bounded, and when none is left every
call has returned. -/
theorem calls_return (undamaged : Undamaged store index allowed)
    (reachable : (readers algorithm store index).system.Reachable allowed crowd) :
    (∀ labels final, (∀ label ∈ labels, LabelWorks label) →
      (readers algorithm store index).system.run crowd labels = some final →
        labels.length ≤ tally (workload store.nVolumes) crowd.parties ∧
        ((∀ label, LabelWorks label →
          (readers algorithm store index).system.step final label = none) → Returned final)) ∧
    ∃ labels final, (∀ label ∈ labels, LabelWorks label) ∧
      (readers algorithm store index).system.run crowd labels = some final ∧ Returned final := by
  have lowers : System.Lowers (readers algorithm store index).system allowed LabelWorks _ :=
    workload_lowers undamaged
  have done : ∀ final, (readers algorithm store index).system.Reachable allowed final →
      (∀ label, LabelWorks label →
        (readers algorithm store index).system.step final label = none) → Returned final := by
    intro final reached stopped
    apply returned_of_idle (held_reachable undamaged reached)
    intro reader member busy
    obtain ⟨label, works, moves⟩ := somebody_works undamaged reached member busy
    exact moves (stopped label works)
  constructor
  · intro labels final works run
    obtain ⟨reached, bounded⟩ := System.run_length_bounded lowers labels reachable works run
    exact ⟨le_trans (Nat.le_add_right _ _) bounded, done final reached⟩
  · obtain ⟨labels, final, works, run, stopped⟩ := System.run_settles lowers reachable
    have reached := (System.run_length_bounded lowers labels reachable works run).1
    exact ⟨labels, final, works, run, done final reached stopped⟩

end Runs

/-- Only nodes with data are opened, and no access to a volume fails. -/
def DataReading (index : BackupNodeIndex) (_ : Crowd ReadingSide ReadingStream) :
    CrowdLabel FileOpening ReadAction → Prop
  | .join opening => ∀ attributes, index.getNodeAttributes opening.fileIndex = .ok attributes →
      attributes.type ≠ .directory ∧ attributes.hasNodeData = true
  | .act _ action => action ≠ .fail

theorem data_reading_undamaged {runtime : Runtime}
    (collisionFree : ∀ algorithm, CollisionFree runtime algorithm)
    (decompresses : Decompresses runtime) {chain : Chain}
    (reachable : (backups runtime).Reachable System.anyStep chain) {entry : Entry}
    (member : entry ∈ chain) :
    Undamaged (entry.snapshot.fileSystem (volumesOf chain)) entry.index
      (DataReading entry.index) where
  present crowd opening attributes permitted recorded := by
    obtain ⟨path, found⟩ := (NodeIndex.get_node_attributes_ok _ _ _).mp recorded
    obtain ⟨isContent, hasData⟩ := permitted attributes recorded
    obtain ⟨content, _, intact⟩ := data_node_intact_reachable collisionFree decompresses reachable
      member (NodeIndex.lookup_of_get found) isContent hasData
    exact intact.present
  noFailure crowd number permitted := permitted rfl
  works crowd number action works := by
    intro fails
    rw [fails] at works
    exact works

/-- However the streams over a snapshot are scheduled, the steps that their calls
still take are bounded, and when none is left every opening and every call of
`ReadBytes` has returned and no lock is held. -/
theorem data_calls_return (runtime : Runtime)
    (collisionFree : ∀ algorithm, CollisionFree runtime algorithm)
    (decompresses : Decompresses runtime) (chain : Chain)
    (reachable : (backups runtime).Reachable System.anyStep chain) (entry : Entry)
    (member : entry ∈ chain) (algorithm : HashAlgorithm)
    (crowd : Crowd ReadingSide ReadingStream)
    (reading : (snapshotReaders algorithm (volumesOf chain) entry.snapshot).system.Reachable
      (DataReading entry.index) crowd) :
    (∀ labels final, (∀ label ∈ labels, LabelWorks label) →
      (snapshotReaders algorithm (volumesOf chain) entry.snapshot).system.run crowd labels =
        some final →
        labels.length ≤ tally (workload (entry.snapshot.fileSystem (volumesOf chain)).nVolumes)
          crowd.parties ∧
        ((∀ label, LabelWorks label →
          (snapshotReaders algorithm (volumesOf chain) entry.snapshot).system.step final label =
            none) → Returned final)) ∧
    ∃ labels final, (∀ label ∈ labels, LabelWorks label) ∧
      (snapshotReaders algorithm (volumesOf chain) entry.snapshot).system.run crowd labels =
        some final ∧ Returned final :=
  calls_return (data_reading_undamaged collisionFree decompresses reachable member) reading

theorem locked_volume_returned :
    ∃ chain entry crowd, addSnapshot spellingRuntime [] firstBackup = some chain ∧
      chain = [entry] ∧
      (firstReaders chain entry).system.run (firstReaders chain entry).system.initial
        lockVolume = some crowd ∧
      crowd.parties.map locks = [[.volume 0]] ∧
      ∃ labels final, (∀ label ∈ labels, LabelWorks label) ∧
        (firstReaders chain entry).system.run crowd labels = some final ∧ Returned final := by
  have outcome : (addSnapshot spellingRuntime [] firstBackup).map (fun chain =>
      chain.map fun entry =>
        ((firstReaders chain entry).system.run (firstReaders chain entry).system.initial
          lockVolume).map fun crowd =>
            (crowd.parties.map locks, entry.index.nodes.map fun node =>
              decide (node.2.type ≠ .directory ∧ node.2.hasNodeData = true))) =
        some [some ([[.volume 0]], [true])] := by decide +kernel
  obtain ⟨chain, added, runs⟩ := Option.map_eq_some_iff.mp outcome
  obtain ⟨entry, single, read⟩ := List.map_eq_singleton_iff.mp runs
  obtain ⟨crowd, run, state⟩ := Option.map_eq_some_iff.mp read
  obtain ⟨holding, nodes⟩ := Prod.mk.inj state
  obtain ⟨node, alone, described⟩ := List.map_eq_singleton_iff.mp nodes
  have first : (backups spellingRuntime).step [] firstBackup = some chain := added
  have beginning : (backups spellingRuntime).Reachable System.anyStep [] := .start
  have reachable := System.Reachable.step beginning trivial first
  have reading : (firstReaders chain entry).system.Reachable (DataReading entry.index) crowd := by
    refine System.reachable_of_permitted lockVolume .start ?_ run
    intro before label member
    simp only [lockVolume, readTwoBytes, List.take_succ_cons, List.take_zero, List.mem_cons,
      List.not_mem_nil, or_false] at member
    rcases member with rfl | rfl | rfl | rfl | rfl | rfl | rfl | rfl | rfl
    · intro attributes recorded
      obtain ⟨path, present⟩ := (NodeIndex.get_node_attributes_ok _ _ _).mp recorded
      rw [alone] at present
      cases present
      exact of_decide_eq_true described
    all_goals exact ReadAction.noConfusion
  have inside : entry ∈ chain := by rw [single]; exact List.mem_singleton_self entry
  refine ⟨chain, entry, crowd, added, single, run, holding, ?_⟩
  exact (data_calls_return spellingRuntime spelling_collision_free spelling_decompresses chain
    reachable entry inside .md5 crowd reading).2

end ACBackup.ReturningCalls
