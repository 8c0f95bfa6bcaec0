import ACBackup.OpenVolumeCount

/-!
The locks of the readers: the one of the number of open volumes and the mutexes of
the volumes. A lock changes in the hands of its owner only, and a volume whose file
has failed stays locked.
-/

namespace ACBackup.VolumeLocks

open ACBackup.Library.Transition ACBackup.Library.Parties
open ACBackup.Platform ACBackup.NodeAttributes ACBackup.Indexing ACBackup.VolumeReading
open ACBackup.SnapshotManager ACBackup.ReadingStreams ACBackup.OpenVolumeCount

set_option autoImplicit false

inductive Lock where
  | nOpenVolumes
  | volume (number : Nat)
  deriving DecidableEq

def owner (side : ReadingSide) : Lock → Option Nat
  | .nOpenVolumes => side.nOpenVolumesLock
  | .volume number => side.volumes[number]?.bind VolumeForReading.mutex

def stageLocks (request : VolumeRequest) : VolumeStage → List Lock
  | .called => []
  | .closing _ => [.nOpenVolumes]
  | .closed position => [.nOpenVolumes, .volume position]
  | .looping => []
  | .locked => [.volume request.volumeNumber]
  | .opened => [.volume request.volumeNumber]
  | .ready => [.volume request.volumeNumber]
  | .finished => [.volume request.volumeNumber]

def locks (reader : ReadingStream) : List Lock :=
  match reader.phase with
  | .inVolume request stage => stageLocks request stage
  | _ => []

def stageWants (request : VolumeRequest) : VolumeStage → Option Lock
  | .called => some .nOpenVolumes
  | .closing position => some (.volume position)
  | .looping => if request.left = 0 then none else some (.volume request.volumeNumber)
  | _ => none

def finishedBlock (stream : BlockInputStream) : Option Block :=
  stream.blocks[stream.currentBlockIndex]?.filter fun block => block.size ≤ stream.blockOffset

def wants (reader : ReadingStream) : Option Lock :=
  match reader.phase with
  | .counting =>
      reader.stream.blocks[reader.counted]?.map fun block => .volume block.volumeNumber
  | .reading count =>
      if count = 0 then none
      else (finishedBlock reader.stream).map fun block => .volume block.volumeNumber
  | .inVolume request stage => stageWants request stage
  | _ => none

/-- A file is being opened, or a call of `ReadBytes` has not returned. -/
def Busy (reader : ReadingStream) : Prop :=
  match reader.phase with
  | .counting => True
  | .reading _ => True
  | .inVolume _ _ => True
  | _ => False

section Steps

variable {files : Nat → Bytes} {number : Nat} {side after : ReadingSide}
  {reader next : ReadingStream}

theorem owner_volume {volumeNumber : Nat} {volume : VolumeForReading}
    (found : side.volumes[volumeNumber]? = some volume) :
    owner side (.volume volumeNumber) = volume.mutex := by
  simp only [owner, found, Option.bind_some]

theorem owner_set_volume (after : ReadingSide) {position : Nat} {old new : VolumeForReading}
    (found : side.volumes[position]? = some old)
    (volumes : after.volumes = side.volumes.set position new)
    (sameLock : after.nOpenVolumesLock = side.nOpenVolumesLock) (lock : Lock) :
    owner after lock = if lock = .volume position then new.mutex else owner side lock := by
  cases lock with
  | nOpenVolumes => simp [owner, sameLock]
  | volume other =>
      by_cases same : position = other
      · subst same
        have here : after.volumes[position]? = some new := by
          rw [volumes]
          exact List.getElem?_set_self (List.getElem?_eq_some_iff.mp found).1
        rw [if_pos rfl]
        exact owner_volume here
      · have different : Lock.volume other ≠ .volume position := by
          intro equal
          cases equal
          exact same rfl
        rw [if_neg different]
        simp only [owner, volumes, List.getElem?_set_ne same]

theorem waiting_acts_not {lock : Lock} (wanted : wants reader = some lock)
    (taken : owner side lock ≠ none) (action : ReadAction) :
    act files number side reader action = none := by
  have volumeTaken : ∀ volumeNumber, lock = .volume volumeNumber →
      ∃ volume, side.volumes[volumeNumber]? = some volume ∧ volume.mutex ≠ none := by
    intro volumeNumber same
    subst same
    cases found : side.volumes[volumeNumber]? with
    | none => simp [owner, found] at taken
    | some volume =>
        rw [owner_volume found] at taken
        exact ⟨volume, rfl, taken⟩
  cases phase : reader.phase with
  | counting =>
      simp only [wants, phase, Option.map_eq_some_iff] at wanted
      obtain ⟨block, here, same⟩ := wanted
      obtain ⟨volume, found, held⟩ := volumeTaken block.volumeNumber same.symm
      cases action <;> simp [act, phase, incrementVolumeCounters, here, found, held]
  | reading count =>
      simp only [wants, phase] at wanted
      by_cases zero : count = 0
      · simp [zero] at wanted
      · rw [if_neg zero, Option.map_eq_some_iff] at wanted
        obtain ⟨block, head, same⟩ := wanted
        obtain ⟨here, finished⟩ := Option.filter_eq_some_iff.mp head
        obtain ⟨volume, found, held⟩ := volumeTaken block.volumeNumber same.symm
        have finished' : block.size ≤ reader.stream.blockOffset := by simpa using finished
        cases action <;> simp [act, phase, readPass, zero, here, finished', found, held]
  | inVolume request stage =>
      simp only [wants, phase] at wanted
      cases stage with
      | called =>
          simp only [stageWants, Option.some.injEq] at wanted
          subst wanted
          have held : side.nOpenVolumesLock ≠ none := taken
          cases action <;> simp [act, phase, proceedInVolume, beginClosing, held, mayFail]
      | closing position =>
          simp only [stageWants, Option.some.injEq] at wanted
          obtain ⟨volume, found, held⟩ := volumeTaken position wanted.symm
          cases action <;> simp [act, phase, proceedInVolume, closeVolume, found, held, mayFail]
      | looping =>
          by_cases zero : request.left = 0
          · simp [stageWants, zero] at wanted
          · simp only [stageWants, zero, if_false, Option.some.injEq] at wanted
            obtain ⟨volume, found, held⟩ := volumeTaken request.volumeNumber wanted.symm
            cases action <;> simp [act, phase, volumePass, zero, found, held, mayFail]
      | closed position => cases wanted
      | locked => cases wanted
      | opened => cases wanted
      | ready => cases wanted
      | finished => cases wanted
  | idle => simp [wants, phase] at wanted
  | raised fault => simp [wants, phase] at wanted
  | destroyed => simp [wants, phase] at wanted

inductive LockChange (number : Nat) (side after : ReadingSide) (before held : List Lock)
    (lock : Lock) : Prop
  | kept (sameOwner : owner after lock = owner side lock) (same : lock ∈ held ↔ lock ∈ before)
  | taken (free : owner side lock = none) (mine : owner after lock = some number)
      (holds : lock ∈ held)
  | released (mine : lock ∈ before) (free : owner after lock = none) (gone : lock ∉ held)

theorem stage_lock_change {request : VolumeRequest} {stage reached : VolumeStage}
    (step : StageStep side number request stage after reached) (lock : Lock) :
    LockChange number side after (stageLocks request stage) (stageLocks request reached) lock := by
  cases step with
  | begun free =>
      cases lock with
      | nOpenVolumes => exact .taken free rfl (List.mem_singleton_self _)
      | volume other => exact .kept rfl (by simp [stageLocks])
  | skipped => exact .kept rfl Iff.rfl
  | ended position =>
      cases lock with
      | nOpenVolumes => exact .released (List.mem_singleton_self _) rfl (by simp [stageLocks])
      | volume other => exact .kept rfl (by simp [stageLocks])
  | kept position => exact .kept rfl Iff.rfl
  | closed position volume found free unused isOpen =>
      have owners := owner_set_volume
        (side.setVolume position { volume with file := false, mutex := some number })
        found rfl rfl lock
      by_cases here : lock = .volume position
      · rw [if_pos here] at owners
        refine .taken ?_ owners (by simp [stageLocks, here])
        rw [here, owner_volume found, free]
      · rw [if_neg here] at owners
        exact .kept owners (by simp [stageLocks, here])
  | countedClosed position volume found =>
      have owners := owner_set_volume
        { side.setVolume position { volume with mutex := none } with
          nOpenVolumes := side.nOpenVolumes - 1 } found rfl rfl lock
      by_cases here : lock = .volume position
      · rw [if_pos here] at owners
        exact .released (by simp [stageLocks, here]) owners (by simp [stageLocks, here])
      · rw [if_neg here] at owners
        exact .kept owners (by simp [stageLocks, here])
  | present => exact .kept rfl Iff.rfl
  | opened volume found isClosed =>
      have owners := owner_set_volume
        (side.setVolume request.volumeNumber { volume with file := true })
        found rfl rfl lock
      refine .kept ?_ Iff.rfl
      rw [owners]
      by_cases here : lock = .volume request.volumeNumber
      · rw [if_pos here, here, owner_volume found]
      · rw [if_neg here]
  | countedOpened => exact .kept rfl Iff.rfl
  | unlocked volume found =>
      have owners := owner_set_volume
        (side.setVolume request.volumeNumber { volume with mutex := none })
        found rfl rfl lock
      by_cases here : lock = .volume request.volumeNumber
      · rw [if_pos here] at owners
        exact .released (by simp [stageLocks, here]) owners (by simp [stageLocks, here])
      · rw [if_neg here] at owners
        exact .kept owners (by simp [stageLocks, here])

theorem locks_request (reader : ReadingStream) (stream : BlockInputStream) (count : Nat) :
    locks (reader.request stream count) = [] := by
  unfold locks ReadingStream.request
  cases stream.blocks[stream.currentBlockIndex]? <;> rfl

/-- A counter is changed when the mutex of its volume is free, and it stays free. -/
theorem counter_lock_change {position : Nat} {volume : VolumeForReading}
    (found : side.volumes[position]? = some volume) (counter : Int) {before held : List Lock}
    (nothing : before = []) (stillNothing : held = []) (lock : Lock) :
    LockChange number side (side.setVolume position { volume with counter := counter }) before
      held lock := by
  have owners := owner_set_volume (side.setVolume position { volume with counter := counter })
    found rfl rfl lock
  refine .kept ?_ (by rw [nothing, stillNothing])
  rw [owners]
  by_cases here : lock = .volume position
  · rw [if_pos here, here, owner_volume found]
  · rw [if_neg here]

theorem returns_lock_change {action : ReadAction} (goesOn : action ≠ .fail)
    (taken : act files number side reader action = some (side, { reader with phase := .idle })) :
    locks reader = [] := by
  cases phase : reader.phase with
  | inVolume request stage =>
      exfalso
      cases action with
      | proceed =>
          cases stage with
          | looping =>
              simp only [act, phase, volumePass] at taken
              by_cases zero : request.left = 0
              · simp [zero] at taken
              · rw [if_neg zero] at taken
                cases found : side.volumes[request.volumeNumber]? with
                | none => simp [found] at taken
                | some volume =>
                    by_cases free : volume.mutex = none <;> simp [found, free] at taken
          | called => simp [act, phase] at taken
          | closing position => simp [act, phase] at taken
          | closed position => simp [act, phase] at taken
          | locked => simp [act, phase] at taken
          | opened => simp [act, phase] at taken
          | ready => simp [act, phase] at taken
          | finished => simp [act, phase] at taken
      | readBytes count => simp [act, phase] at taken
      | receive nBytesRead => cases stage <;> simp [act, phase] at taken
      | fail => exact goesOn rfl
      | destroy => simp [act, phase] at taken
  | counting => simp [locks, phase]
  | reading count => simp [locks, phase]
  | idle => simp [locks, phase]
  | raised fault => simp [locks, phase]
  | destroyed => simp [locks, phase]

theorem act_lock_change {action : ReadAction} (goesOn : action ≠ .fail)
    (taken : act files number side reader action = some (after, next)) (lock : Lock) :
    LockChange number side after (locks reader) (locks next) lock := by
  cases act_some taken with
  | counted block volume counting here found free =>
      apply counter_lock_change found
      · simp [locks, counting]
      · simp [locks, counting]
  | left block volume count reading here finished found free =>
      apply counter_lock_change found
      · simp [locks, reading]
      · exact locks_request reader _ count
  | beyond block counting here outside => exact .kept rfl (by simp [locks, counting])
  | built counting all => exact .kept rfl (by simp [locks, counting])
  | undigested fault counting all raises => exact .kept rfl (by simp [locks, counting])
  | returns alive steady =>
      have before := returns_lock_change goesOn taken
      exact .kept rfl (by rw [before]; simp [locks])
  | began count idle inside => exact .kept rfl (by simp [locks, idle])
  | requested block count reading here =>
      exact .kept rfl (by rw [locks_request]; simp [locks, reading])
  | strayed count reading outside => exact .kept rfl (by simp [locks, reading])
  | unlockable request looping outside => exact .kept rfl (by simp [locks, looping, stageLocks])
  | staged request stage reached side' inVolume step =>
      have change := stage_lock_change step lock
      simp only [locks, inVolume]
      exact change
  | answered request looping => exact .kept rfl (by simp [locks, looping, stageLocks])
  | locked request volume looping found free =>
      have owners := owner_set_volume
        (side.setVolume request.volumeNumber { volume with mutex := some number })
        found rfl rfl lock
      by_cases here : lock = .volume request.volumeNumber
      · rw [if_pos here] at owners
        refine .taken ?_ owners (by simp [locks, stageLocks, here])
        rw [here, owner_volume found, free]
      · rw [if_neg here] at owners
        exact .kept owners (by simp [locks, looping, stageLocks, here])
  | received request nBytesRead ready => exact .kept rfl (by simp [locks, ready, stageLocks])
  | destroyed idle => exact .kept rfl (by simp [locks, idle])

def Owns (number : Nat) (side : ReadingSide) (reader : ReadingStream) : Prop :=
  ∀ lock ∈ locks reader, owner side lock = some number

theorem failed_reader (taken : act files number side reader .fail = some (after, next)) :
    ∃ request stage, reader.phase = .inVolume request stage ∧ mayFail side request stage = true ∧
      after = side ∧ next = { reader with phase := .idle } := by
  cases phase : reader.phase <;> simp only [act, phase, reduceCtorEq] at taken
  case inVolume request stage =>
    by_cases fails : mayFail side request stage = true
    · rw [if_pos fails] at taken
      cases taken
      exact ⟨request, stage, rfl, fails, rfl, rfl⟩
    · rw [if_neg fails] at taken
      cases taken

theorem failed_volume {request : VolumeRequest} {stage : VolumeStage}
    (fails : mayFail side request stage = true) :
    stageLocks request stage = [.volume request.volumeNumber] := by
  cases stage <;> simp only [mayFail, Bool.false_eq_true] at fails <;> rfl

/-- A lock changes in the hands of its owner only. -/
theorem owner_kept {action : ReadAction} {lock : Lock} {other : Nat}
    (taken : act files number side reader action = some (after, next))
    (owned : owner side lock = some other) (notMine : lock ∉ locks reader) :
    owner after lock = some other ∧ lock ∉ locks next := by
  by_cases fails : action = .fail
  · subst fails
    obtain ⟨request, stage, _, _, rfl, rfl⟩ := failed_reader taken
    exact ⟨owned, by simp [locks]⟩
  · cases act_lock_change fails taken lock with
    | kept sameOwner same => exact ⟨sameOwner.trans owned, mt same.mp notMine⟩
    | taken free mine holds =>
        rw [owned] at free
        cases free
    | released mine free gone => exact absurd mine notMine

theorem not_mine {lock : Lock} {other : Nat} (owns : Owns number side reader)
    (owned : owner side lock = some other) (different : other ≠ number) : lock ∉ locks reader := by
  intro mine
  rw [owns lock mine, Option.some.injEq] at owned
  exact different owned.symm

theorem act_owns {action : ReadAction} (owns : Owns number side reader)
    (taken : act files number side reader action = some (after, next)) :
    Owns number after next := by
  intro lock held
  by_cases fails : action = .fail
  · subst fails
    obtain ⟨request, stage, _, _, _, rfl⟩ := failed_reader taken
    simp [locks] at held
  · cases act_lock_change fails taken lock with
    | kept sameOwner same => exact sameOwner.trans (owns lock (same.mp held))
    | taken free mine holds => exact mine
    | released mine free gone => exact absurd held gone

end Steps

section Failure

variable {algorithm : HashAlgorithm} {store : VolumeStore} {index : BackupNodeIndex}
  {allowed : Crowd ReadingSide ReadingStream → CrowdLabel FileOpening ReadAction → Prop}
  {crowd next : Crowd ReadingSide ReadingStream}

theorem owns_reachable
    (reachable : (readers algorithm store index).system.Reachable allowed crowd)
    {number : Nat} {reader : ReadingStream} (found : crowd.parties[number]? = some reader) :
    Owns number crowd.shared reader := by
  refine Protocol.parties_reachable Owns ?_ ?_ ?_ reachable found
  · intro crowd opening reader _ _ joined lock held
    obtain ⟨attributes, _, _, _, phase⟩ := open_file_some joined
    simp [locks, phase] at held
  · intro number before after reader next action owns taken
    exact act_owns owns taken
  · intro number other before after reader next bystander action different owns bystanderOwns taken
      lock held
    have owned := bystanderOwns lock held
    exact (owner_kept taken owned (not_mine owns owned different)).1

/-- A lock that its owner has forgotten, or whose owner waits for such a lock. -/
inductive Shut (crowd : Crowd ReadingSide ReadingStream) : Lock → Prop
  | failed (number : Nat) (reader : ReadingStream) (lock : Lock)
      (found : crowd.parties[number]? = some reader)
      (owned : owner crowd.shared lock = some number) (forgotten : lock ∉ locks reader) :
      Shut crowd lock
  | waiting (number : Nat) (reader : ReadingStream) (lock wanted : Lock)
      (found : crowd.parties[number]? = some reader) (holds : lock ∈ locks reader)
      (wanting : wants reader = some wanted) (shut : Shut crowd wanted) : Shut crowd lock

theorem shut_owned (reachable : (readers algorithm store index).system.Reachable allowed crowd)
    {lock : Lock} (shut : Shut crowd lock) : owner crowd.shared lock ≠ none := by
  cases shut with
  | failed number reader lock found owned forgotten => simp [owned]
  | waiting number reader lock wanted found holds wanting shut =>
      simp [owns_reachable reachable found lock holds]

theorem waiting_stays (reachable : (readers algorithm store index).system.Reachable allowed crowd)
    {lock : Lock} (shut : Shut crowd lock) {number : Nat} {reader : ReadingStream}
    (found : crowd.parties[number]? = some reader) (wanting : wants reader = some lock)
    {label : CrowdLabel FileOpening ReadAction}
    (taken : (readers algorithm store index).step crowd label = some next) :
    next.parties[number]? = some reader := by
  cases label with
  | join opening =>
      obtain ⟨joined, _, rfl⟩ := Protocol.step_join taken
      exact (List.getElem?_append_left (List.getElem?_eq_some_iff.mp found).1).trans found
  | act acting action =>
      obtain ⟨actor, side, after, present, acted, rfl⟩ := Protocol.step_act taken
      by_cases same : acting = number
      · subst same
        rw [found, Option.some.injEq] at present
        subst present
        have moves : act store.files acting crowd.shared reader action = some (side, after) := acted
        rw [waiting_acts_not wanting (shut_owned reachable shut)] at moves
        cases moves
      · rw [List.getElem?_set_ne same]
        exact found

theorem shut_step (reachable : (readers algorithm store index).system.Reachable allowed crowd)
    {label : CrowdLabel FileOpening ReadAction}
    (taken : (readers algorithm store index).step crowd label = some next) {lock : Lock}
    (shut : Shut crowd lock) : Shut next lock := by
  induction shut with
  | waiting number reader lock wanted found holds wanting shut induction =>
      exact .waiting number reader lock wanted
        (waiting_stays reachable shut found wanting taken) holds wanting induction
  | failed number reader lock found owned forgotten =>
      cases label with
      | join opening =>
          obtain ⟨joined, _, rfl⟩ := Protocol.step_join taken
          have inside := (List.getElem?_eq_some_iff.mp found).1
          exact .failed number reader lock ((List.getElem?_append_left inside).trans found) owned
            forgotten
      | act acting action =>
          obtain ⟨actor, side, after, present, acted, rfl⟩ := Protocol.step_act taken
          by_cases same : number = acting
          · subst same
            rw [found, Option.some.injEq] at present
            subst present
            have kept := owner_kept acted owned forgotten
            have inside := (List.getElem?_eq_some_iff.mp found).1
            exact .failed number after lock (List.getElem?_set_self inside) kept.1 kept.2
          · have kept := owner_kept acted owned
              (not_mine (owns_reachable reachable present) owned same)
            refine .failed number reader lock ?_ kept.1 forgotten
            rw [List.getElem?_set_ne (Ne.symm same)]
            exact found

theorem shut_run (labels : List (CrowdLabel FileOpening ReadAction))
    (reachable : (readers algorithm store index).system.Reachable System.anyStep crowd)
    (run : (readers algorithm store index).system.run crowd labels = some next) {lock : Lock}
    (shut : Shut crowd lock) :
    Shut next lock ∧ ∀ (number : Nat) (reader : ReadingStream),
      crowd.parties[number]? = some reader → wants reader = some lock →
        next.parties[number]? = some reader := by
  induction labels generalizing crowd with
  | nil =>
      simp only [System.run, Option.some.injEq] at run
      subst run
      exact ⟨shut, fun number reader found _ => found⟩
  | cons label rest induction =>
      obtain ⟨middle, taken, later⟩ := System.run_cons_some run
      obtain ⟨stillShut, stay⟩ := induction (.step reachable trivial taken) later
        (shut_step reachable taken shut)
      refine ⟨stillShut, ?_⟩
      intro number reader found wanting
      exact stay number reader (waiting_stays reachable shut found wanting taken) wanting

/-- After the file of a volume has failed the volume stays locked, and so does every
lock of a stream that waits for it; a stream that wants one of them never moves
again. -/
theorem failed_volume_stays_locked (algorithm : HashAlgorithm) (store : VolumeStore)
    (index : BackupNodeIndex) (crowd failed : Crowd ReadingSide ReadingStream)
    (reachable : (readers algorithm store index).system.Reachable System.anyStep crowd)
    (number : Nat)
    (taken : (readers algorithm store index).system.step crowd (.act number .fail) = some failed) :
    ∃ reader request stage, crowd.parties[number]? = some reader ∧
      reader.phase = .inVolume request stage ∧
      ∀ labels later, (readers algorithm store index).system.run failed labels = some later →
        Shut later (.volume request.volumeNumber) ∧
        ∀ lock, Shut later lock → owner later.shared lock ≠ none ∧
          ∀ (waiting : Nat) (stuck : ReadingStream), later.parties[waiting]? = some stuck →
            wants stuck = some lock → ∀ rest final,
              (readers algorithm store index).system.run later rest = some final →
                final.parties[waiting]? = some stuck := by
  have reached := System.Reachable.step reachable trivial taken
  obtain ⟨reader, side, after, found, acted, rfl⟩ := Protocol.step_act taken
  have gaveUp : act store.files number crowd.shared reader .fail = some (side, after) := acted
  obtain ⟨request, stage, phase, fails, rfl, rfl⟩ := failed_reader gaveUp
  have locked : Lock.volume request.volumeNumber ∈ locks reader := by
    simp [locks, phase, failed_volume fails]
  have owned := owns_reachable reachable found _ locked
  have shut : Shut { crowd with parties := crowd.parties.set number { reader with phase := .idle } }
      (.volume request.volumeNumber) :=
    .failed number _ _ (List.getElem?_set_self (List.getElem?_eq_some_iff.mp found).1) owned
      (by simp [locks])
  refine ⟨reader, request, stage, found, phase, ?_⟩
  intro labels later run
  have laterReached := System.reachable_of_run_from labels reached run
  refine ⟨(shut_run labels reached run shut).1, ?_⟩
  intro lock laterShut
  refine ⟨shut_owned laterReached laterShut, ?_⟩
  intro waiting stuck present wanting rest final finalRun
  exact (shut_run rest laterReached finalRun laterShut).2 waiting stuck present wanting

end Failure

def lockVolume : List (CrowdLabel FileOpening ReadAction) := readTwoBytes.take 9

def readAgain : List (CrowdLabel FileOpening ReadAction) :=
  [.act 0 (.readBytes 2), .act 0 .proceed, .act 0 .proceed]

theorem failed_read_stays_locked :
    ∃ chain entry crowd failed later, addSnapshot spellingRuntime [] firstBackup = some chain ∧
      chain = [entry] ∧
      (firstReaders chain entry).system.run (firstReaders chain entry).system.initial
        lockVolume = some crowd ∧
      (firstReaders chain entry).system.step crowd (.act 0 .fail) = some failed ∧
      (firstReaders chain entry).system.run failed readAgain = some later ∧
      Shut later (.volume 0) ∧
      ∀ rest final, (firstReaders chain entry).system.run later rest = some final →
        final.parties[0]? = later.parties[0]? := by
  have outcome : (addSnapshot spellingRuntime [] firstBackup).map (fun chain =>
      chain.map fun entry =>
        ((firstReaders chain entry).system.run (firstReaders chain entry).system.initial
          lockVolume).bind fun crowd =>
            ((firstReaders chain entry).system.step crowd (.act 0 .fail)).bind fun failed =>
              ((firstReaders chain entry).system.run failed readAgain).map fun later =>
                (crowd.parties.map locks, later.parties.map wants)) =
        some [some ([[.volume 0]], [some (.volume 0)])] := by decide +kernel
  obtain ⟨chain, added, runs⟩ := Option.map_eq_some_iff.mp outcome
  obtain ⟨entry, single, read⟩ := List.map_eq_singleton_iff.mp runs
  obtain ⟨crowd, run, more⟩ := Option.bind_eq_some_iff.mp read
  obtain ⟨failed, fails, last⟩ := Option.bind_eq_some_iff.mp more
  obtain ⟨later, again, phases⟩ := Option.map_eq_some_iff.mp last
  obtain ⟨holding, wanting⟩ := Prod.mk.inj phases
  obtain ⟨reader, alone, held⟩ := List.map_eq_singleton_iff.mp holding
  obtain ⟨stuck, waits, wanted⟩ := List.map_eq_singleton_iff.mp wanting
  obtain ⟨failing, request, stage, found, phase, locked⟩ := failed_volume_stays_locked .md5
    (entry.snapshot.fileSystem (volumesOf chain)) entry.index crowd failed
    (System.reachable_of_run lockVolume run) 0 fails
  rw [alone] at found
  cases found
  have same : request.volumeNumber = 0 := by
    simp only [locks, phase] at held
    cases stage <;> simp [stageLocks] at held
    all_goals exact held
  rw [same] at locked
  obtain ⟨shut, stays⟩ := locked readAgain later again
  refine ⟨chain, entry, crowd, failed, later, added, single, run, fails, again, shut, ?_⟩
  intro rest final finalRun
  have present : later.parties[0]? = some stuck := by rw [waits]; rfl
  rw [present]
  exact (stays (.volume 0) shut).2 0 stuck present wanted rest final finalRun

end ACBackup.VolumeLocks
