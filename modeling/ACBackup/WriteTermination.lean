import ACBackup.ConfigManager
import ACBackup.VolumeInvariant

/-!
When the loop of `WriteBytes` comes to its end. The chunk is computed from the
left size of the volume cast to 32 bits: as long as a volume cannot be larger
than that, every pass writes at least one byte. A volume whose left size is a
multiple of 2^32 takes nothing, and its writer goes round for ever.
-/

namespace ACBackup.WriteTermination

open ACBackup.Library.Transition
open ACBackup.Platform ACBackup.NodeAttributes ACBackup.Indexing ACBackup.ConfigManager
open ACBackup.OpenVolumes ACBackup.VolumeWriting ACBackup.VolumeInvariant

set_option autoImplicit false

/-- A call of `WriteBytes` returns: however the other writers run, it makes a
bounded number of passes, and until it has returned it can always move on. -/
structure Returns (volumeSize : UInt64) (index : BackupNodeIndex) (state : WriteState)
    (writer : Path) : Prop where
  bounded : ∃ bound, ∀ labels final,
    (writing volumeSize index).run state labels = some final →
      WriteLabel.finishWrite writer ∉ labels →
        labels.count (.findStream writer) ≤ bound
  enabled : ∀ labels final,
    (writing volumeSize index).run state labels = some final →
      WriteLabel.finishWrite writer ∉ labels →
        ∃ label, label.writer = writer ∧ (step volumeSize final label).isSome = true

def WritingTerminates (volumeSize : UInt64) : Prop :=
  ∀ (index : BackupNodeIndex) (state next : WriteState) (writer : Path) (source : Bytes),
    (writing volumeSize index).Reachable System.anyStep state →
      step volumeSize state (.beginWrite writer source) = some next →
        Returns volumeSize index next writer

def InCall : WriterPhase → Prop
  | .looping _ => True
  | .found _ _ _ => True
  | .positioned _ _ _ _ => True
  | .wrote _ _ _ _ => True
  | _ => False

def Sound : WriterPhase → Prop
  | .looping source => source.length < 2 ^ 32
  | .found source _ _ => source ≠ [] ∧ source.length < 2 ^ 32
  | .positioned source _ _ _ => source ≠ [] ∧ source.length < 2 ^ 32
  | .wrote source _ _ _ => source.length < 2 ^ 32
  | _ => True

def passesLeft : WriterPhase → Nat
  | .looping source => source.length
  | .found source _ _ => source.length - 1
  | .positioned source _ _ _ => source.length - 1
  | .wrote source _ _ _ => source.length
  | _ => 0

structure Bounded (volumeSize : UInt64) (state : WriteState) : Prop where
  consistent : Consistent state
  sound : ∀ writer, Sound (state.writers writer)
  volumes : ∀ volume ∈ state.openVolumes,
    0 < volume.leftSize.toNat ∧ volume.leftSize.toNat ≤ volumeSize.toNat

section Progress

variable {volumeSize : UInt64} {state next : WriteState}

theorem sound_step {label : WriteLabel} (sound : ∀ writer, Sound (state.writers writer))
    (taken : step volumeSize state label = some next) (writer : Path) :
    Sound (next.writers writer) := by
  by_cases own : writer = label.writer
  · subst own
    have before := sound label.writer
    cases label with
    | createFile path =>
        obtain ⟨_, _, rfl⟩ := step_create_file taken
        rw [WriteLabel.writer, set_phase_same]
        trivial
    | beginWrite writer source =>
        obtain ⟨_, short, rfl⟩ := step_begin_write taken
        rw [WriteLabel.writer, set_phase_same]
        exact short
    | findStream writer =>
        obtain ⟨source, looping, nonempty, rfl⟩ := step_find_stream taken
        rw [WriteLabel.writer, looping] at before
        rw [WriteLabel.writer, set_phase_same]
        exact ⟨nonempty, before⟩
    | queryOffset writer =>
        obtain ⟨source, number, leftSize, found, rfl⟩ := step_query_offset taken
        rw [WriteLabel.writer, found] at before
        rw [WriteLabel.writer, set_phase_same]
        exact before
    | writeVolume writer nBytesWritten =>
        obtain ⟨source, number, leftSize, offset, positioned, _, rfl⟩ := step_write_volume taken
        rw [WriteLabel.writer, positioned] at before
        rw [WriteLabel.writer, set_phase_same]
        have short := before.2
        simp only [Sound, List.length_drop]
        omega
    | bytesWereWritten writer =>
        obtain ⟨source, number, offset, nBytesWritten, recorded, wrote, _, rfl⟩ :=
          step_bytes_were_written taken
        rw [WriteLabel.writer, wrote] at before
        rw [WriteLabel.writer, set_phase_same]
        exact before
    | finishWrite writer =>
        obtain ⟨_, rfl⟩ := step_finish_write taken
        rw [WriteLabel.writer, set_phase_same]
        trivial
    | closeFile writer =>
        obtain ⟨_, rfl⟩ := step_close_file taken
        rw [WriteLabel.writer, set_phase_same]
        trivial
  · rw [step_other_writers taken own]
    exact sound writer

theorem find_stream_left_size {writer : Path} {volume : OpenVolumeForWriting}
    (member : volume ∈ (findStream volumeSize state writer).2.openVolumes) :
    volume.leftSize = volumeSize ∨ ∃ old ∈ state.openVolumes, volume.leftSize = old.leftSize := by
  unfold findStream at member
  cases owned : findOwned writer state.openVolumes with
  | some found =>
      simp only [owned] at member
      exact .inr ⟨volume, member, rfl⟩
  | none =>
      cases claim : claimFree writer state.openVolumes with
      | some result =>
          obtain ⟨front, free, back, parts, _, claimed, replaced⟩ := claim_free_split claim
          simp only [owned, claim, replaced, claimed] at member
          rw [parts]
          right
          rcases member_cases member with same | beside
          · exact ⟨free, List.mem_append_right _ (List.mem_cons_self ..), by rw [same]⟩
          · exact ⟨volume, member_beside beside _, rfl⟩
      | none =>
          simp only [owned, claim, List.mem_append, List.mem_singleton] at member
          rcases member with old | new
          · exact .inr ⟨volume, old, rfl⟩
          · exact .inl (by rw [new])

theorem release_owned_left_size {writer : Path} {volumes : List OpenVolumeForWriting}
    {volume : OpenVolumeForWriting} (member : volume ∈ releaseOwned writer volumes) :
    ∃ old ∈ volumes, volume.leftSize = old.leftSize := by
  rcases release_owned_split writer volumes with same | ⟨front, owned, back, parts, _, released⟩
  · exact ⟨volume, same ▸ member, rfl⟩
  · rw [released] at member
    rw [parts]
    rcases member_cases member with same | beside
    · exact ⟨owned, List.mem_append_right _ (List.mem_cons_self ..), by rw [same]⟩
    · exact ⟨volume, member_beside beside _, rfl⟩

theorem fill_owned_left_size {writer : Path} {nBytesWritten : Nat}
    {volumes : List OpenVolumeForWriting} {owned volume : OpenVolumeForWriting}
    (found : findOwned writer volumes = some owned)
    (member : volume ∈ fillOwned writer nBytesWritten volumes) :
    volume ∈ volumes ∨ (volume.leftSize = owned.leftSize - UInt64.ofNat nBytesWritten ∧
      volume.leftSize ≠ 0) := by
  obtain ⟨front, back, parts, filled⟩ := fill_owned_split nBytesWritten found
  rw [filled] at member
  rw [parts]
  split at member
  · exact .inl (member_beside member _)
  · case isFalse notFull =>
      rcases member_cases member with same | beside
      · rw [same]
        exact .inr ⟨rfl, notFull⟩
      · exact .inl (member_beside beside _)

/-- Volumes start at the volume size, only shrink, and are closed at zero. -/
theorem volumes_step {label : WriteLabel} (positive : 0 < volumeSize.toNat)
    (bounded : Bounded volumeSize state) (taken : step volumeSize state label = some next) :
    ∀ volume ∈ next.openVolumes,
      0 < volume.leftSize.toNat ∧ volume.leftSize.toNat ≤ volumeSize.toNat := by
  have before := bounded.volumes
  cases label with
  | createFile path =>
      obtain ⟨_, _, rfl⟩ := step_create_file taken
      exact before
  | beginWrite writer source =>
      obtain ⟨_, _, rfl⟩ := step_begin_write taken
      exact before
  | findStream writer =>
      obtain ⟨source, _, _, rfl⟩ := step_find_stream taken
      intro volume member
      rcases find_stream_left_size member with new | ⟨old, inside, same⟩
      · rw [new]
        exact ⟨positive, Nat.le_refl _⟩
      · rw [same]
        exact before old inside
  | queryOffset writer =>
      obtain ⟨_, _, _, _, rfl⟩ := step_query_offset taken
      exact before
  | writeVolume writer nBytesWritten =>
      obtain ⟨_, _, _, _, _, _, rfl⟩ := step_write_volume taken
      exact before
  | bytesWereWritten writer =>
      obtain ⟨source, number, offset, nBytesWritten, recorded, wrote, outcome, rfl⟩ :=
        step_bytes_were_written taken
      obtain ⟨leftSize, owned, left, result⟩ :=
        bytes_were_written_recorded bounded.consistent wrote
      rw [result] at outcome
      cases outcome
      have found := find_owned_unique bounded.consistent.apart owned rfl
      intro volume member
      rcases fill_owned_left_size found member with kept | ⟨shrunk, nonzero⟩
      · exact before volume kept
      · have whole := (before _ owned).2
        have positiveLeft : volume.leftSize.toNat ≠ 0 := by
          intro zero
          exact nonzero (UInt64.toNat_inj.mp zero)
        rw [shrunk, left_size_filled left] at positiveLeft ⊢
        exact ⟨Nat.pos_of_ne_zero positiveLeft, (Nat.sub_le _ _).trans whole⟩
  | finishWrite writer =>
      obtain ⟨_, rfl⟩ := step_finish_write taken
      exact before
  | closeFile writer =>
      obtain ⟨_, rfl⟩ := step_close_file taken
      intro volume member
      obtain ⟨old, inside, same⟩ := release_owned_left_size member
      rw [same]
      exact before old inside

theorem bounded_step {label : WriteLabel} (positive : 0 < volumeSize.toNat)
    (bounded : Bounded volumeSize state) (taken : step volumeSize state label = some next) :
    Bounded volumeSize next where
  consistent := consistent_step bounded.consistent taken
  sound := sound_step bounded.sound taken
  volumes := volumes_step positive bounded taken

theorem bounded_reachable (positive : 0 < volumeSize.toNat) {index : BackupNodeIndex}
    (reachable : (writing volumeSize index).Reachable System.anyStep state) :
    Bounded volumeSize state := by
  apply System.reachable_invariant (Bounded volumeSize) _ _ reachable
  · exact ⟨consistent_open index, fun _ => trivial, fun volume member => by cases member⟩
  · intro before after label _ bounded _ taken
    exact bounded_step positive bounded taken

/-- A step of the run either begins a pass, and pays for it, or costs nothing. -/
theorem passes_step {label : WriteLabel} {writer : Path} (small : volumeSize.toNat < 2 ^ 32)
    (bounded : Bounded volumeSize state) (inCall : InCall (state.writers writer))
    (notFinish : label ≠ .finishWrite writer) (taken : step volumeSize state label = some next) :
    InCall (next.writers writer) ∧
      passesLeft (next.writers writer) + (if label = .findStream writer then 1 else 0) ≤
        passesLeft (state.writers writer) := by
  by_cases own : writer = label.writer
  · subst own
    have sound := bounded.sound label.writer
    cases label with
    | createFile path =>
        obtain ⟨absent, _, _⟩ := step_create_file taken
        rw [WriteLabel.writer, absent] at inCall
        cases inCall
    | beginWrite writer source =>
        obtain ⟨idle, _, _⟩ := step_begin_write taken
        rw [WriteLabel.writer, idle] at inCall
        cases inCall
    | findStream writer =>
        obtain ⟨source, looping, nonempty, rfl⟩ := step_find_stream taken
        have length := List.length_pos_iff.mpr nonempty
        rw [WriteLabel.writer, set_phase_same, looping, if_pos rfl]
        refine ⟨trivial, ?_⟩
        simp only [passesLeft]
        omega
    | queryOffset writer =>
        obtain ⟨source, number, leftSize, found, rfl⟩ := step_query_offset taken
        rw [WriteLabel.writer, set_phase_same, found, if_neg (by simp)]
        exact ⟨trivial, Nat.le_refl _⟩
    | writeVolume writer nBytesWritten =>
        obtain ⟨source, number, leftSize, offset, positioned, accepts, rfl⟩ :=
          step_write_volume taken
        have stream := (bounded.consistent.writer writer).stream
        rw [WriteLabel.writer, positioned] at sound
        rw [positioned] at stream
        obtain ⟨above, below⟩ := bounded.volumes _ stream.1
        simp only at above below
        have length := List.length_pos_iff.mpr sound.1
        have short := sound.2
        have offered : 0 < bytesToWrite leftSize source := by
          unfold bytesToWrite
          rw [Nat.mod_eq_of_lt (by omega), Nat.mod_eq_of_lt short]
          omega
        have written := accepts.2 offered
        rw [WriteLabel.writer, set_phase_same, positioned, if_neg (by simp)]
        refine ⟨trivial, ?_⟩
        simp only [passesLeft, List.length_drop]
        omega
    | bytesWereWritten writer =>
        obtain ⟨source, number, offset, nBytesWritten, recorded, wrote, _, rfl⟩ :=
          step_bytes_were_written taken
        rw [WriteLabel.writer, set_phase_same, wrote, if_neg (by simp)]
        exact ⟨trivial, Nat.le_refl _⟩
    | finishWrite writer => exact absurd rfl notFinish
    | closeFile writer =>
        obtain ⟨idle, _⟩ := step_close_file taken
        rw [WriteLabel.writer, idle] at inCall
        cases inCall
  · have other : label ≠ .findStream writer := by
      intro same
      rw [same] at own
      exact own rfl
    rw [step_other_writers taken own, if_neg other]
    exact ⟨inCall, Nat.le_refl _⟩

theorem passes_run {index : BackupNodeIndex} {writer : Path} (positive : 0 < volumeSize.toNat)
    (small : volumeSize.toNat < 2 ^ 32) (labels : List WriteLabel)
    (bounded : Bounded volumeSize state) (inCall : InCall (state.writers writer))
    (run : (writing volumeSize index).run state labels = some next)
    (notFinished : WriteLabel.finishWrite writer ∉ labels) :
    labels.count (.findStream writer) ≤ passesLeft (state.writers writer) := by
  induction labels generalizing state with
  | nil => exact Nat.zero_le _
  | cons label rest induction =>
      obtain ⟨middle, (taken : step volumeSize state label = some middle), later⟩ :=
        System.run_cons_some run
      have notFinish : label ≠ .finishWrite writer := by
        intro same
        exact notFinished (by simp [same])
      obtain ⟨stillInCall, pays⟩ := passes_step small bounded inCall notFinish taken
      have counted := induction (bounded_step positive bounded taken) stillInCall later
        fun member => notFinished (List.mem_cons_of_mem _ member)
      rw [List.count_cons]
      simp only [beq_iff_eq]
      omega

theorem in_call_step {label : WriteLabel} {writer : Path} (inCall : InCall (state.writers writer))
    (notFinish : label ≠ .finishWrite writer) (taken : step volumeSize state label = some next) :
    InCall (next.writers writer) := by
  by_cases own : writer = label.writer
  · subst own
    cases label with
    | createFile path =>
        obtain ⟨absent, _, _⟩ := step_create_file taken
        rw [WriteLabel.writer, absent] at inCall
        cases inCall
    | beginWrite writer source =>
        obtain ⟨idle, _, _⟩ := step_begin_write taken
        rw [WriteLabel.writer, idle] at inCall
        cases inCall
    | findStream writer =>
        obtain ⟨_, _, _, rfl⟩ := step_find_stream taken
        rw [WriteLabel.writer, set_phase_same]
        trivial
    | queryOffset writer =>
        obtain ⟨_, _, _, _, rfl⟩ := step_query_offset taken
        rw [WriteLabel.writer, set_phase_same]
        trivial
    | writeVolume writer nBytesWritten =>
        obtain ⟨_, _, _, _, _, _, rfl⟩ := step_write_volume taken
        rw [WriteLabel.writer, set_phase_same]
        trivial
    | bytesWereWritten writer =>
        obtain ⟨_, _, _, _, _, _, _, rfl⟩ := step_bytes_were_written taken
        rw [WriteLabel.writer, set_phase_same]
        trivial
    | finishWrite writer => exact absurd rfl notFinish
    | closeFile writer =>
        obtain ⟨idle, _⟩ := step_close_file taken
        rw [WriteLabel.writer, idle] at inCall
        cases inCall
  · rw [step_other_writers taken own]
    exact inCall

/-- No other writer can keep a writer from its next step. -/
theorem in_call_enabled (volumeSize : UInt64) {writer : Path} (consistent : Consistent state)
    (inCall : InCall (state.writers writer)) :
    ∃ label, label.writer = writer ∧ (step volumeSize state label).isSome = true := by
  cases phase : state.writers writer with
  | absent => simp [phase, InCall] at inCall
  | idle => simp [phase, InCall] at inCall
  | closed => simp [phase, InCall] at inCall
  | looping source =>
      by_cases empty : source = []
      · refine ⟨.finishWrite writer, rfl, ?_⟩
        simp only [step, phase, if_pos empty, Option.isSome_some]
      · refine ⟨.findStream writer, rfl, ?_⟩
        simp only [step, phase, if_neg empty, Option.isSome_some]
  | found source number leftSize =>
      refine ⟨.queryOffset writer, rfl, ?_⟩
      simp only [step, phase, Option.isSome_some]
  | positioned source number leftSize offset =>
      have accepts : Accepts (bytesToWrite leftSize source) (bytesToWrite leftSize source) :=
        ⟨Nat.le_refl _, fun positive => positive⟩
      refine ⟨.writeVolume writer (bytesToWrite leftSize source), rfl, ?_⟩
      simp only [step, phase, if_pos accepts, Option.isSome_some]
  | wrote source number offset nBytesWritten =>
      obtain ⟨_, _, _, recorded⟩ := bytes_were_written_recorded consistent phase
      refine ⟨.bytesWereWritten writer, rfl, ?_⟩
      simp only [step, phase, recorded, Option.isSome_some]

theorem in_call_run {index : BackupNodeIndex} {writer : Path} (labels : List WriteLabel)
    (consistent : Consistent state) (inCall : InCall (state.writers writer))
    (run : (writing volumeSize index).run state labels = some next)
    (notFinished : WriteLabel.finishWrite writer ∉ labels) :
    Consistent next ∧ InCall (next.writers writer) := by
  induction labels generalizing state with
  | nil =>
      simp only [System.run, Option.some.injEq] at run
      rw [← run]
      exact ⟨consistent, inCall⟩
  | cons label rest induction =>
      obtain ⟨middle, (taken : step volumeSize state label = some middle), later⟩ :=
        System.run_cons_some run
      have notFinish : label ≠ .finishWrite writer := by
        intro same
        exact notFinished (by simp [same])
      exact induction (consistent_step consistent taken)
        (in_call_step inCall notFinish taken) later
        fun member => notFinished (List.mem_cons_of_mem _ member)

theorem returns_of_small {index : BackupNodeIndex} {writer : Path}
    (positive : 0 < volumeSize.toNat) (small : volumeSize.toNat < 2 ^ 32)
    (bounded : Bounded volumeSize state) (inCall : InCall (state.writers writer)) :
    Returns volumeSize index state writer where
  bounded := by
    refine ⟨passesLeft (state.writers writer), ?_⟩
    intro labels final run notFinished
    exact passes_run positive small labels bounded inCall run notFinished
  enabled labels final run notFinished := by
    obtain ⟨consistent, stillInCall⟩ := in_call_run labels bounded.consistent inCall run notFinished
    exact in_call_enabled volumeSize consistent stillInCall

end Progress

section Stall

variable {volumeSize : UInt64} {state : WriteState}

theorem pass_runs (index : BackupNodeIndex) {writer : Path} {source : Bytes} {nBytesWritten : Nat}
    (consistent : Consistent state) (looping : state.writers writer = .looping source)
    (nonempty : source ≠ [])
    (accepts : Accepts (bytesToWrite (findStream volumeSize state writer).1.2 source)
      nBytesWritten) :
    ∃ next, (writing volumeSize index).run state (passLabels writer nBytesWritten) = some next ∧
      Consistent next ∧ next.writers writer = .looping (source.drop nBytesWritten) ∧
      next.openVolumes =
        fillOwned writer nBytesWritten (findStream volumeSize state writer).2.openVolumes := by
  obtain ⟨found, foundStep⟩ : ∃ next, step volumeSize state (.findStream writer) = some next := by
    simp only [step, looping, if_neg nonempty]
    exact ⟨_, rfl⟩
  have foundConsistent := consistent_step consistent foundStep
  obtain ⟨source', looping', _, foundEq⟩ := step_find_stream foundStep
  rw [looping] at looping'
  cases looping'
  have foundPhase := congrArg (fun next => next.writers writer) foundEq
  simp only [set_phase_same] at foundPhase
  obtain ⟨positioned, positionedStep⟩ :
      ∃ next, step volumeSize found (.queryOffset writer) = some next := by
    simp only [step, foundPhase]
    exact ⟨_, rfl⟩
  have positionedConsistent := consistent_step foundConsistent positionedStep
  obtain ⟨_, _, _, foundPhase', positionedEq⟩ := step_query_offset positionedStep
  rw [foundPhase] at foundPhase'
  cases foundPhase'
  have positionedPhase := congrArg (fun next => next.writers writer) positionedEq
  simp only [set_phase_same] at positionedPhase
  obtain ⟨wrote, wroteStep⟩ :
      ∃ next, step volumeSize positioned (.writeVolume writer nBytesWritten) = some next := by
    simp only [step, positionedPhase, if_pos accepts]
    exact ⟨_, rfl⟩
  have wroteConsistent := consistent_step positionedConsistent wroteStep
  obtain ⟨_, _, _, _, positionedPhase', _, wroteEq⟩ := step_write_volume wroteStep
  rw [positionedPhase] at positionedPhase'
  cases positionedPhase'
  have wrotePhase := congrArg (fun next => next.writers writer) wroteEq
  simp only [set_phase_same] at wrotePhase
  obtain ⟨_, _, _, recorded⟩ := bytes_were_written_recorded wroteConsistent wrotePhase
  obtain ⟨next, nextStep⟩ :
      ∃ next, step volumeSize wrote (.bytesWereWritten writer) = some next := by
    simp only [step, wrotePhase, recorded]
    exact ⟨_, rfl⟩
  obtain ⟨_, _, _, _, _, wrotePhase', outcome, nextEq⟩ := step_bytes_were_written nextStep
  rw [wrotePhase] at wrotePhase'
  cases wrotePhase'
  rw [recorded] at outcome
  cases outcome
  refine ⟨next, ?_, consistent_step wroteConsistent nextStep, ?_, ?_⟩
  · simp [System.run, passLabels, writing, foundStep, positionedStep, wroteStep, nextStep]
  · rw [nextEq, set_phase_same]
  · rw [nextEq, wroteEq, positionedEq, foundEq]
    rfl

structure Stalled (volumeSize : UInt64) (writer : Path) (state : WriteState) : Prop where
  consistent : Consistent state
  looping : ∃ source, source ≠ [] ∧ state.writers writer = .looping source
  full : (state.openVolumes = [] ∧ volumeSize.toNat % 2 ^ 32 = 0) ∨
    ∃ number leftSize, leftSize ≠ 0 ∧ leftSize.toNat % 2 ^ 32 = 0 ∧
      state.openVolumes =
        [{ number := number, leftSize := leftSize, ownedWriter := some writer }]

/-- With no open volume a new one is opened. -/
theorem find_stream_new (volumeSize : UInt64) (writer : Path) (none : state.openVolumes = []) :
    (findStream volumeSize state writer).1.2 = volumeSize ∧
      (findStream volumeSize state writer).2.openVolumes =
        [{ number := state.nextVolumeNumber
           leftSize := volumeSize
           ownedWriter := some writer }] := by
  simp [findStream, findOwned, claimFree, none]

theorem find_stream_owned (volumeSize : UInt64) {writer : Path} {number : Nat} {leftSize : UInt64}
    (only : state.openVolumes =
      [{ number := number, leftSize := leftSize, ownedWriter := some writer }]) :
    (findStream volumeSize state writer).1.2 = leftSize ∧
      (findStream volumeSize state writer).2.openVolumes = state.openVolumes := by
  simp [findStream, findOwned, only]

theorem nothing_accepted {leftSize : UInt64} (full : leftSize.toNat % 2 ^ 32 = 0)
    (source : Bytes) : Accepts (bytesToWrite leftSize source) 0 := by
  unfold bytesToWrite Accepts
  rw [full]
  omega

theorem stalled_pass (index : BackupNodeIndex) {writer : Path}
    (stalled : Stalled volumeSize writer state) :
    ∃ next, (writing volumeSize index).run state (passLabels writer 0) = some next ∧
      Stalled volumeSize writer next := by
  obtain ⟨source, nonempty, looping⟩ := stalled.looping
  rcases stalled.full with unopened | opened
  · obtain ⟨none, full⟩ := unopened
    obtain ⟨left, volumes⟩ := find_stream_new volumeSize writer none
    obtain ⟨next, run, consistent, phase, filled⟩ := pass_runs index stalled.consistent looping
      nonempty (left ▸ nothing_accepted full source)
    refine ⟨next, run, consistent, ⟨source, nonempty, phase⟩, ?_⟩
    rw [filled, volumes]
    by_cases zero : volumeSize = 0
    · left
      simp [fillOwned, zero]
    · right
      exact ⟨state.nextVolumeNumber, volumeSize, zero, full, by simp [fillOwned, zero]⟩
  · obtain ⟨number, leftSize, nonzero, full, only⟩ := opened
    obtain ⟨left, volumes⟩ := find_stream_owned volumeSize only
    obtain ⟨next, run, consistent, phase, filled⟩ := pass_runs index stalled.consistent looping
      nonempty (left ▸ nothing_accepted full source)
    refine ⟨next, run, consistent, ⟨source, nonempty, phase⟩, ?_⟩
    rw [filled, volumes, only]
    right
    exact ⟨number, leftSize, nonzero, full, by simp [fillOwned, nonzero]⟩

theorem stalled_runs (index : BackupNodeIndex) {writer : Path} (passes : Nat)
    (stalled : Stalled volumeSize writer state) :
    ∃ final, (writing volumeSize index).run state
      (List.replicate passes (passLabels writer 0)).flatten = some final := by
  induction passes generalizing state with
  | zero => exact ⟨state, rfl⟩
  | succ passes induction =>
      obtain ⟨next, run, stillStalled⟩ := stalled_pass index stalled
      obtain ⟨final, rest⟩ := induction stillStalled
      refine ⟨final, ?_⟩
      rw [List.replicate_succ, List.flatten_cons, System.run_append, run, Option.bind_some, rest]

theorem stalled_never_returns {index : BackupNodeIndex} {writer : Path}
    (stalled : Stalled volumeSize writer state) : ¬Returns volumeSize index state writer := by
  intro returns
  obtain ⟨bound, bounded⟩ := returns.bounded
  obtain ⟨final, run⟩ := stalled_runs index (bound + 1) stalled
  have notFinished : WriteLabel.finishWrite writer ∉
      (List.replicate (bound + 1) (passLabels writer 0)).flatten := by
    simp [passLabels]
  have counted := bounded _ final run notFinished
  have passes : (List.replicate (bound + 1) (passLabels writer 0)).flatten.count
      (.findStream writer) = bound + 1 := by
    rw [List.count_flatten, List.map_replicate, List.sum_replicate]
    simp [passLabels]
  omega

end Stall

section VolumeSizes

variable {volumeSize : UInt64} {index : BackupNodeIndex} {path : Path}
  {attributes : BackupNodeAttributes}

theorem writer_opened (volumeSize : UInt64) (found : index.lookup path = some attributes)
    (empty : attributes.blocks = []) :
    (writing volumeSize index).Reachable System.anyStep
      ((openFileSystem index).setPhase path .idle) := by
  have taken : step volumeSize (openFileSystem index) (.createFile path) =
      some ((openFileSystem index).setPhase path .idle) := by
    simp [step, createFile, openFileSystem, found, empty]
  exact writing_reachable_step System.Reachable.start taken

theorem begin_write_taken (volumeSize : UInt64) {state : WriteState}
    (idle : state.writers path = .idle) (source : Bytes) (short : source.length < 2 ^ 32) :
    step volumeSize state (.beginWrite path source) =
      some ((state.accept path source).setPhase path (.looping source)) := by
  simp only [step, idle, if_pos short]

/-- A volume size that vanishes when it is cast stalls the first call. -/
theorem stalls_at_once (found : index.lookup path = some attributes)
    (empty : attributes.blocks = []) (vanishes : volumeSize.toNat % 2 ^ 32 = 0) :
    ¬WritingTerminates volumeSize := by
  intro terminates
  have opened := writer_opened volumeSize found empty
  have begun := begin_write_taken volumeSize
    (set_phase_same (openFileSystem index) path .idle) [0] (by simp)
  have returns := terminates index _ _ path [0] opened begun
  have consistent := consistent_step (consistent_reachable opened) begun
  apply stalled_never_returns _ returns
  exact ⟨consistent, ⟨[0], by simp, set_phase_same _ _ _⟩, .inl ⟨rfl, vanishes⟩⟩

/-- From 2^32 on, one buffer of the size of the remainder leaves the volume with
a multiple of 2^32, which stalls the next call. -/
theorem stalls_later (found : index.lookup path = some attributes)
    (empty : attributes.blocks = []) (remainder : volumeSize.toNat % 2 ^ 32 ≠ 0)
    (large : 2 ^ 32 ≤ volumeSize.toNat) : ¬WritingTerminates volumeSize := by
  intro terminates
  have below : volumeSize.toNat % 2 ^ 32 < 2 ^ 32 := Nat.mod_lt _ (by decide)
  let filler : Bytes := List.replicate (volumeSize.toNat % 2 ^ 32) 0
  have length : filler.length = volumeSize.toNat % 2 ^ 32 := List.length_replicate
  have opened := writer_opened volumeSize found empty
  have begun := begin_write_taken volumeSize
    (set_phase_same (openFileSystem index) path .idle) filler (by omega)
  have calling := writing_reachable_step opened begun
  have consistent := consistent_reachable calling
  have nonempty : filler ≠ [] := by
    rw [← List.length_pos_iff]
    omega
  have looping := set_phase_same
    (((openFileSystem index).setPhase path .idle).accept path filler) path (.looping filler)
  have none : ((((openFileSystem index).setPhase path .idle).accept path filler).setPhase path
    (.looping filler)).openVolumes = [] := rfl
  generalize (((openFileSystem index).setPhase path .idle).accept path filler).setPhase path
    (.looping filler) = call at calling consistent looping none
  obtain ⟨leftSize, volumes⟩ := find_stream_new volumeSize path none
  have accepts : Accepts (bytesToWrite (findStream volumeSize call path).1.2 filler)
      filler.length := by
    rw [leftSize]
    unfold Accepts bytesToWrite
    omega
  obtain ⟨written, run, stillConsistent, phase, filled⟩ :=
    pass_runs index consistent looping nonempty accepts
  rw [List.drop_length] at phase
  have finished : step volumeSize written (.finishWrite path) =
      some (written.setPhase path .idle) := by
    simp only [step, phase, if_true]
  have idle := set_phase_same written path .idle
  have reached := writing_reachable_step (System.reachable_of_run_from _ calling run) finished
  have again := begin_write_taken volumeSize idle [0] (by simp)
  have returns := terminates index _ _ path [0] reached again
  have nextConsistent := consistent_step (consistent_reachable reached) again
  have fits : UInt64.ofNat filler.length ≤ volumeSize := by
    rw [UInt64.le_iff_toNat_le, UInt64.toNat_ofNat']
    omega
  have rest : (volumeSize - UInt64.ofNat filler.length).toNat =
      volumeSize.toNat - volumeSize.toNat % 2 ^ 32 := by
    rw [UInt64.toNat_sub_of_le _ _ fits, UInt64.toNat_ofNat', length]
    omega
  have nonzero : volumeSize - UInt64.ofNat filler.length ≠ 0 := by
    intro zero
    rw [zero, UInt64.toNat_zero] at rest
    omega
  apply stalled_never_returns _ returns
  refine ⟨nextConsistent, ⟨[0], by simp, set_phase_same _ _ _⟩, .inr ?_⟩
  refine ⟨call.nextVolumeNumber, volumeSize - UInt64.ofNat filler.length, nonzero, ?_, ?_⟩
  · omega
  · simp only [WriteState.setPhase, WriteState.accept, filled, volumes, fillOwned, if_true,
      if_neg nonzero]

theorem volume_size_of_document {document : ConfigDocument} {config : Config}
    (accepted : archive document = .ok config) :
    config.volumeSize.toNat = document.volumeSize.toNat % 2 ^ 44 * 2 ^ 20 := by
  rw [archive_volume_size accepted, MiB, UInt64.toNat_mul]
  have units : (1048576 : UInt64).toNat = 2 ^ 20 := rfl
  rw [units]
  omega

/-- A configuration that the reader accepts makes every call of `WriteBytes`
return exactly when its volume size, in MiB and as it wraps, is neither zero nor
4096 or more. -/
theorem writing_terminates_iff (document : ConfigDocument) (config : Config)
    (accepted : archive document = .ok config) :
    WritingTerminates config.volumeSize ↔
      0 < document.volumeSize.toNat % 2 ^ 44 ∧ document.volumeSize.toNat % 2 ^ 44 < 4096 := by
  have size := volume_size_of_document accepted
  constructor
  · intro terminates
    by_contra outside
    let node : BackupNodeAttributes := .ofFileSystemNodeAttributes false
      { type := .file
        size := 0
        permissions := posixPermissions 0 0 0
        lastModifiedTime := none }
    have found : (NodeIndex.empty.addNode Path.root node).lookup Path.root = some node := rfl
    by_cases vanishes : config.volumeSize.toNat % 2 ^ 32 = 0
    · exact stalls_at_once found rfl vanishes terminates
    · apply stalls_later found rfl vanishes _ terminates
      omega
  · intro inside index state next writer source reachable begun
    have positive : 0 < config.volumeSize.toNat := by omega
    have small : config.volumeSize.toNat < 2 ^ 32 := by omega
    have bounded := bounded_step positive (bounded_reachable positive reachable) begun
    obtain ⟨_, _, rfl⟩ := step_begin_write begun
    apply returns_of_small positive small bounded
    rw [set_phase_same]
    trivial

def configDocument (volumeSize : UInt64) : ConfigDocument where
  sourcePath := Path.root
  blockSize := 1024
  volumeSize := volumeSize
  compression := "lzma"
  maxCompressionLevel := 6
  hashAlgorithm := "sha512/256"
  statusTracker := "web"
  statusTrackerPort := 8080

theorem default_volumes_terminate :
    ∃ config, archive (configDocument 100) = .ok config ∧ WritingTerminates config.volumeSize := by
  refine ⟨_, rfl, ?_⟩
  exact (writing_terminates_iff (configDocument 100) _ rfl).mpr (by decide)

/-- With volumes of 4096 MiB a one-byte write never returns. -/
theorem large_volumes_stall :
    ¬∀ (document : ConfigDocument) (config : Config), archive document = .ok config →
      WritingTerminates config.volumeSize := by
  intro terminates
  have large := terminates (configDocument 4096) _ rfl
  let node : BackupNodeAttributes := .ofFileSystemNodeAttributes false
    { type := .file
      size := 1
      permissions := posixPermissions 0 0 420
      lastModifiedTime := none }
  have found : (NodeIndex.empty.addNode Path.root node).lookup Path.root = some node := rfl
  exact stalls_at_once found rfl (by decide) large

end VolumeSizes

end ACBackup.WriteTermination
