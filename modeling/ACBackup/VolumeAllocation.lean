import ACBackup.VolumeRoundTrip

/-!
Who owns which volume, how full the volumes are, and what the recorded blocks
make of them. A volume is as long as its blocks and what its writer has not
recorded yet; a new one is opened only when every open volume has another
writer.
-/

namespace ACBackup.VolumeAllocation

open ACBackup.Library.Extents ACBackup.Library.Transition
open ACBackup.Platform ACBackup.NodeAttributes ACBackup.Indexing ACBackup.OpenVolumes
open ACBackup.VolumeWriting ACBackup.VolumeInvariant ACBackup.VolumeRoundTrip

set_option autoImplicit false

/-- From `CreateFile` to `CloseFile`. -/
def Alive (phase : WriterPhase) : Prop := phase ≠ .absent ∧ phase ≠ .closed

instance (phase : WriterPhase) : Decidable (Alive phase) :=
  inferInstanceAs (Decidable (_ ∧ _))

def unrecorded : WriterPhase → Nat
  | .wrote _ _ _ nBytesWritten => nBytesWritten
  | _ => 0

def InFlight : WriterPhase → Prop
  | .wrote _ _ _ _ => True
  | _ => False

def entryBlocks (writers : Path → WriterPhase) (entry : Path × BackupNodeAttributes) :
    List Block :=
  if writers entry.1 ≠ .absent ∧ entry.2.ownsBlocks = true then entry.2.blocks else []

def ownedBlocks (state : WriteState) : List Block :=
  state.index.nodes.flatMap (entryBlocks state.writers)

def blocksIn (number : Nat) (blocks : List Block) : List Block :=
  blocks.filter fun block => block.volumeNumber = number

def extentOf (block : Block) : Nat × Nat := (block.offset, block.size)

def extentsIn (number : Nat) (blocks : List Block) : List (Nat × Nat) :=
  (blocksIn number blocks).map extentOf

def unrecordedIn (state : WriteState) (volume : OpenVolumeForWriting) : Nat :=
  match volume.ownedWriter with
  | some writer => unrecorded (state.writers writer)
  | none => 0

section Blocks

theorem extents_in_append (number : Nat) (first second : List Block) :
    extentsIn number (first ++ second) = extentsIn number first ++ extentsIn number second := by
  simp [extentsIn, blocksIn]

theorem extents_in_other {number : Nat} {block : Block} (different : block.volumeNumber ≠ number) :
    extentsIn number [block] = [] := by
  simp [extentsIn, blocksIn, different]

theorem extents_in_same (block : Block) :
    extentsIn block.volumeNumber [block] = [extentOf block] := by
  simp [extentsIn, blocksIn]

theorem positions_append_block (number : Nat) (blocks : List Block) (block : Block) :
    positions (extentsIn number (appendBlock blocks block)) =
      positions (extentsIn number blocks) ++ positions (extentsIn number [block]) := by
  rcases append_block_cases blocks block with pushed | merged
  · rw [pushed, extents_in_append, positions_append]
  · obtain ⟨front, lastBlock, parts, volume, offset, merged⟩ := merged
    rw [merged, parts, extents_in_append, extents_in_append, positions_append, positions_append,
      List.append_assoc]
    congr 1
    by_cases same : block.volumeNumber = number
    · have joined := positions_joined lastBlock.offset lastBlock.size block.size
      have lastSame : lastBlock.volumeNumber = number := volume.trans same
      subst same
      simp only [extentsIn, blocksIn, List.filter_cons, List.filter_nil, lastSame, decide_true,
        if_true, List.map_cons, List.map_nil, extentOf, ← positions_append, List.cons_append,
        List.nil_append]
      rw [← offset, joined]
    · have lastOther : lastBlock.volumeNumber ≠ number := by
        rw [volume]
        exact same
      rw [extents_in_other same, extents_in_other lastOther, extents_in_other]
      · rfl
      · exact lastOther

variable {state next : WriteState} {writer : Path} {attributes : BackupNodeAttributes}

theorem owned_blocks_same (index : next.index = state.index)
    (kept : ∀ path attributes, state.index.lookup path = some attributes →
      attributes.blocks = [] ∨ (next.writers path = .absent ↔ state.writers path = .absent)) :
    ownedBlocks next = ownedBlocks state := by
  unfold ownedBlocks
  rw [index]
  apply List.flatMap_congr
  rintro ⟨path, attributes⟩ member
  unfold entryBlocks
  rcases kept path attributes ((NodeIndex.lookup_eq_some _ _ _).mpr member) with empty | present
  · simp only [empty, ite_self]
  · simp only [ne_eq, present]

theorem owned_blocks_modify {f : BackupNodeAttributes → BackupNodeAttributes}
    (found : state.index.lookup writer = some attributes)
    (index : next.index = state.index.modify writer f)
    (writers : ∀ other, other ≠ writer → next.writers other = state.writers other) :
    ∃ front back,
      ownedBlocks state = front ++ (entryBlocks state.writers (writer, attributes) ++ back) ∧
      ownedBlocks next = front ++ (entryBlocks next.writers (writer, f attributes) ++ back) := by
  obtain ⟨front, back, parts⟩ :=
    List.append_of_mem ((NodeIndex.lookup_eq_some _ _ _).mp found)
  have unique := state.index.unique
  rw [parts, List.map_append, List.map_cons, List.nodup_append, List.nodup_cons] at unique
  obtain ⟨_, ⟨notBack, _⟩, apart⟩ := unique
  have others : ∀ entry, entry.1 ≠ writer →
      (if entry.1 = writer then (entry.1, f entry.2) else entry) = entry ∧
      entryBlocks next.writers entry = entryBlocks state.writers entry := by
    intro entry different
    exact ⟨if_neg different, by simp only [entryBlocks, writers entry.1 different]⟩
  have side : ∀ entries : List (Path × BackupNodeAttributes),
      (∀ entry ∈ entries, entry.1 ≠ writer) →
      (entries.map fun entry => if entry.1 = writer then (entry.1, f entry.2) else entry).flatMap
          (entryBlocks next.writers) = entries.flatMap (entryBlocks state.writers) := by
    intro entries different
    rw [List.flatMap_map]
    apply List.flatMap_congr
    intro entry member
    obtain ⟨same, blocks⟩ := others entry (different entry member)
    rw [same, blocks]
  have frontSide := side front fun entry member =>
    apart entry.1 (List.mem_map_of_mem member) writer (List.mem_cons_self ..)
  have backSide := side back fun entry member same =>
    notBack (List.mem_map.mpr ⟨entry, member, same⟩)
  have modified : (state.index.modify writer f).nodes = state.index.nodes.map fun entry =>
      if entry.1 = writer then (entry.1, f entry.2) else entry := rfl
  refine ⟨front.flatMap (entryBlocks state.writers), back.flatMap (entryBlocks state.writers),
    ?_, ?_⟩
  · rw [ownedBlocks, parts, List.flatMap_append, List.flatMap_cons]
  · rw [ownedBlocks, index, modified, parts]
    simp only [List.map_append, List.map_cons, if_true, List.flatMap_append, List.flatMap_cons,
      frontSide, backSide]

theorem positions_record_block {block : Block}
    (found : state.index.lookup writer = some attributes)
    (owned : attributes.blocks ≠ [] → attributes.ownsBlocks = true)
    (present : state.writers writer ≠ .absent)
    (index : next.index = state.index.modify writer fun attributes => attributes.addBlock block)
    (stillPresent : next.writers writer ≠ .absent)
    (writers : ∀ other, other ≠ writer → next.writers other = state.writers other)
    (number : Nat) :
    (positions (extentsIn number (ownedBlocks next))).Perm
      (positions (extentsIn number (ownedBlocks state)) ++
        positions (extentsIn number [block])) := by
  obtain ⟨front, back, before, after⟩ := owned_blocks_modify found index writers
  have old : entryBlocks state.writers (writer, attributes) = attributes.blocks := by
    unfold entryBlocks
    by_cases empty : attributes.blocks = []
    · simp only [empty, ite_self]
    · exact if_pos ⟨present, owned empty⟩
  have new : entryBlocks next.writers (writer, attributes.addBlock block) =
      appendBlock attributes.blocks block := if_pos ⟨stillPresent, rfl⟩
  rw [before, after, old, new]
  simp only [extents_in_append, positions_append, positions_append_block, List.append_assoc]
  apply List.Perm.append_left
  apply List.Perm.append_left
  exact List.perm_append_comm

end Blocks

/-- The blocks of an open volume cover what was recorded, and its file goes on with
what its writer has not recorded. -/
structure OpenAccounted (volumeSize : UInt64) (state : WriteState)
    (volume : OpenVolumeForWriting) : Prop where
  alive : ∀ writer, volume.ownedWriter = some writer → Alive (state.writers writer)
  left : 0 < volume.leftSize.toNat
  recorded : ∃ recorded, Tiles (extentsIn volume.number (ownedBlocks state)) recorded ∧
    recorded + volume.leftSize.toNat = volumeSize.toNat ∧
    (state.files volume.number).length = recorded + unrecordedIn state volume

structure Accounted (volumeSize : UInt64) (state : WriteState) : Prop where
  opened : ∀ volume ∈ state.openVolumes, OpenAccounted volumeSize state volume
  full : ∀ number < state.nextVolumeNumber,
    (∀ volume ∈ state.openVolumes, volume.number ≠ number) →
      (state.files number).length = volumeSize.toNat ∧
        Tiles (extentsIn number (ownedBlocks state)) volumeSize.toNat
  position : ∀ writer source number offset nBytesWritten,
    state.writers writer = .wrote source number offset nBytesWritten →
      offset + nBytesWritten = (state.files number).length

section Steps

variable {volumeSize : UInt64} {state next : WriteState}

theorem unrecorded_in_congr {volume : OpenVolumeForWriting}
    (same : ∀ writer, volume.ownedWriter = some writer →
      unrecorded (next.writers writer) = unrecorded (state.writers writer)) :
    unrecordedIn next volume = unrecordedIn state volume := by
  unfold unrecordedIn
  cases owner : volume.ownedWriter with
  | none => rfl
  | some writer => exact same writer owner

theorem open_accounted_kept {volume : OpenVolumeForWriting}
    (account : OpenAccounted volumeSize state volume)
    (owners : ∀ owner, volume.ownedWriter = some owner → next.writers owner = state.writers owner)
    (file : next.files volume.number = state.files volume.number)
    (tiles : ∀ length, Tiles (extentsIn volume.number (ownedBlocks state)) length →
      Tiles (extentsIn volume.number (ownedBlocks next)) length) :
    OpenAccounted volumeSize next volume := by
  obtain ⟨alive, left, recorded, before, size, length⟩ := account
  have unrecordedSame : unrecordedIn next volume = unrecordedIn state volume := by
    apply unrecorded_in_congr
    intro owner owned
    rw [owners owner owned]
  refine ⟨?_, left, recorded, tiles recorded before, size, ?_⟩
  · intro owner owned
    rw [owners owner owned]
    exact alive owner owned
  · rw [file, unrecordedSame]
    exact length

/-- A block that goes on where the recorded ones end adds its size in its volume
and changes nothing in the others. -/
theorem tiles_record_block {block : Block}
    (recorded : ∀ number, (positions (extentsIn number (ownedBlocks next))).Perm
      (positions (extentsIn number (ownedBlocks state)) ++
        positions (extentsIn number [block]))) :
    (Tiles (extentsIn block.volumeNumber (ownedBlocks state)) block.offset →
      Tiles (extentsIn block.volumeNumber (ownedBlocks next)) (block.offset + block.size)) ∧
    ∀ number, number ≠ block.volumeNumber → ∀ length,
      Tiles (extentsIn number (ownedBlocks state)) length →
        Tiles (extentsIn number (ownedBlocks next)) length := by
  constructor
  · intro tiles
    apply tiles_of_positions (tiles_push tiles block.size)
    rw [positions_append]
    have here := recorded block.volumeNumber
    rw [extents_in_same] at here
    exact here
  · intro number different length before
    apply tiles_of_positions before
    have there := recorded number
    rw [extents_in_other different.symm] at there
    simpa [positions] using there

theorem owned_blocks_numbered (consistent : Consistent state) (block : Block)
    (member : block ∈ ownedBlocks state) : block.volumeNumber < state.nextVolumeNumber := by
  obtain ⟨⟨path, attributes⟩, entry, inside⟩ := List.mem_flatMap.mp member
  unfold entryBlocks at inside
  split at inside
  · case isTrue condition =>
      obtain ⟨known, found, recorded, _⟩ := (consistent.writer path).stored condition.1
      rw [(NodeIndex.lookup_eq_some _ _ _).mpr entry, Option.some.injEq] at found
      subst found
      exact (recorded block inside).1
  · cases inside

theorem accounted_same_storage (accounted : Accounted volumeSize state)
    (files : next.files = state.files)
    (numbers : next.nextVolumeNumber = state.nextVolumeNumber)
    (blocks : ownedBlocks next = ownedBlocks state)
    (before : ∀ volume ∈ next.openVolumes, ∃ old ∈ state.openVolumes,
      old.number = volume.number ∧ old.leftSize = volume.leftSize ∧
        unrecordedIn next volume = unrecordedIn state old ∧
        ∀ writer, volume.ownedWriter = some writer → Alive (next.writers writer))
    (after : ∀ old ∈ state.openVolumes, ∃ volume ∈ next.openVolumes, volume.number = old.number)
    (position : ∀ writer source number offset nBytesWritten,
      next.writers writer = .wrote source number offset nBytesWritten →
        state.writers writer = .wrote source number offset nBytesWritten) :
    Accounted volumeSize next where
  opened volume member := by
    obtain ⟨old, oldMember, number, left, unrecorded, alive⟩ := before volume member
    have account := accounted.opened old oldMember
    refine ⟨alive, left ▸ account.left, ?_⟩
    obtain ⟨recorded, tiles, size, length⟩ := account.recorded
    rw [number] at tiles length
    rw [left] at size
    rw [blocks, files, unrecorded]
    exact ⟨recorded, tiles, size, length⟩
  full number bound closed := by
    rw [files, blocks]
    apply accounted.full number (numbers ▸ bound)
    intro old member same
    obtain ⟨volume, inside, equal⟩ := after old member
    exact closed volume inside (equal.trans same)
  position writer source number offset nBytesWritten wrote := by
    rw [files]
    exact accounted.position writer source number offset nBytesWritten
      (position writer source number offset nBytesWritten wrote)

theorem not_wrote {phase : WriterPhase} (quiet : ¬InFlight phase) (source : Bytes)
    (number offset nBytesWritten : Nat) : phase ≠ .wrote source number offset nBytesWritten := by
  rintro rfl
  exact quiet trivial

theorem unrecorded_quiet {phase : WriterPhase} (quiet : ¬InFlight phase) : unrecorded phase = 0 := by
  cases phase <;> first | rfl | exact absurd trivial quiet

section OneWriter

variable {writer : Path}

structure QuietStep (writer : Path) (state next : WriteState) : Prop where
  before : ¬InFlight (state.writers writer)
  after : ¬InFlight (next.writers writer)
  others : ∀ other, other ≠ writer → next.writers other = state.writers other

theorem quiet_step_position (quiet : QuietStep writer state next) (path : Path) (source : Bytes)
    (number offset nBytesWritten : Nat)
    (wrote : next.writers path = .wrote source number offset nBytesWritten) :
    state.writers path = .wrote source number offset nBytesWritten := by
  by_cases same : path = writer
  · rw [same] at wrote
    exact absurd wrote (not_wrote quiet.after _ _ _ _)
  · rw [← quiet.others path same]
    exact wrote

theorem quiet_step_unrecorded (quiet : QuietStep writer state next)
    (volume : OpenVolumeForWriting) : unrecordedIn next volume = unrecordedIn state volume := by
  apply unrecorded_in_congr
  intro owner _
  by_cases same : owner = writer
  · rw [same, unrecorded_quiet quiet.before, unrecorded_quiet quiet.after]
  · rw [quiet.others owner same]

theorem quiet_step_alive (accounted : Accounted volumeSize state)
    (quiet : QuietStep writer state next) {volume : OpenVolumeForWriting}
    (member : volume ∈ state.openVolumes)
    (self : volume.ownedWriter = some writer → Alive (next.writers writer)) (owner : Path)
    (owned : volume.ownedWriter = some owner) : Alive (next.writers owner) := by
  by_cases same : owner = writer
  · rw [same] at owned ⊢
    exact self owned
  · rw [quiet.others owner same]
    exact (accounted.opened volume member).alive owner owned

theorem accounted_phase (accounted : Accounted volumeSize state)
    (quiet : QuietStep writer state next) (alive : Alive (next.writers writer))
    (volumes : next.openVolumes = state.openVolumes) (files : next.files = state.files)
    (numbers : next.nextVolumeNumber = state.nextVolumeNumber)
    (blocks : ownedBlocks next = ownedBlocks state) : Accounted volumeSize next := by
  apply accounted_same_storage accounted files numbers blocks
  · intro volume member
    rw [volumes] at member
    exact ⟨volume, member, rfl, rfl, quiet_step_unrecorded quiet volume,
      quiet_step_alive accounted quiet member fun _ => alive⟩
  · intro old member
    exact ⟨old, volumes ▸ member, rfl⟩
  · exact quiet_step_position quiet

theorem quiet_step_set_phase {phase : WriterPhase} (middle : WriteState)
    (writers : middle.writers = state.writers) (before : ¬InFlight (state.writers writer))
    (after : ¬InFlight phase) : QuietStep writer state (middle.setPhase writer phase) where
  before := before
  after := by
    rw [set_phase_same]
    exact after
  others other different := by rw [set_phase_other _ _ different, writers]

theorem owned_blocks_set_phase {phase : WriterPhase} (middle : WriteState)
    (writers : middle.writers = state.writers) (index : middle.index = state.index)
    (before : state.writers writer ≠ .absent) (after : phase ≠ .absent) :
    ownedBlocks (middle.setPhase writer phase) = ownedBlocks state := by
  have stored : (middle.setPhase writer phase).index = state.index := index
  apply owned_blocks_same stored
  intro path attributes _
  right
  by_cases same : path = writer
  · rw [same, set_phase_same]
    exact iff_of_false after before
  · rw [set_phase_other _ _ same, writers]

theorem accounted_create_file {path : Path} (accounted : Accounted volumeSize state)
    (taken : step volumeSize state (.createFile path) = some next) :
    Accounted volumeSize next := by
  obtain ⟨absent, ⟨attributes, found, empty⟩, rfl⟩ := step_create_file taken
  have quiet : QuietStep path state (state.setPhase path .idle) :=
    quiet_step_set_phase state rfl (by simp [absent, InFlight]) id
  apply accounted_phase accounted quiet _ rfl rfl rfl
  · have stored : (state.setPhase path .idle).index = state.index := rfl
    apply owned_blocks_same stored
    intro other known otherFound
    by_cases same : other = path
    · rw [same, found, Option.some.injEq] at otherFound
      exact .inl (otherFound ▸ empty)
    · rw [set_phase_other _ _ same]
      exact .inr Iff.rfl
  · rw [set_phase_same]
    simp [Alive]

theorem accounted_begin_write {source : Bytes} (accounted : Accounted volumeSize state)
    (taken : step volumeSize state (.beginWrite writer source) = some next) :
    Accounted volumeSize next := by
  obtain ⟨idle, _, rfl⟩ := step_begin_write taken
  apply accounted_phase accounted
    (quiet_step_set_phase (state.accept writer source) rfl (by simp [idle, InFlight]) id) _ rfl rfl rfl
  · exact owned_blocks_set_phase (state.accept writer source) rfl rfl (by simp [idle]) (by simp)
  · rw [set_phase_same]
    simp [Alive]

theorem accounted_query_offset (accounted : Accounted volumeSize state)
    (taken : step volumeSize state (.queryOffset writer) = some next) :
    Accounted volumeSize next := by
  obtain ⟨source, number, leftSize, found, rfl⟩ := step_query_offset taken
  apply accounted_phase accounted
    (quiet_step_set_phase state rfl (by simp [found, InFlight]) id) _ rfl rfl rfl
  · exact owned_blocks_set_phase state rfl rfl (by simp [found]) (by simp)
  · rw [set_phase_same]
    simp [Alive]

theorem accounted_finish_write (accounted : Accounted volumeSize state)
    (taken : step volumeSize state (.finishWrite writer) = some next) :
    Accounted volumeSize next := by
  obtain ⟨finished, rfl⟩ := step_finish_write taken
  apply accounted_phase accounted
    (quiet_step_set_phase state rfl (by simp [finished, InFlight]) id) _ rfl rfl rfl
  · exact owned_blocks_set_phase state rfl rfl (by simp [finished]) (by simp)
  · rw [set_phase_same]
    simp [Alive]

theorem accounted_close_file (consistent : Consistent state) (accounted : Accounted volumeSize state)
    (taken : step volumeSize state (.closeFile writer) = some next) :
    Accounted volumeSize next := by
  obtain ⟨idle, rfl⟩ := step_close_file taken
  have quiet : QuietStep writer state ((closeFile state writer).setPhase writer .closed) :=
    quiet_step_set_phase (closeFile state writer) rfl (by simp [idle, InFlight]) id
  have released : ((closeFile state writer).setPhase writer .closed).openVolumes =
      releaseOwned writer state.openVolumes := rfl
  have unowned := @release_owned_unowned writer _ consistent.apart
  have same := release_owned_split writer state.openVolumes
  apply accounted_same_storage accounted
  · rfl
  · rfl
  · exact owned_blocks_set_phase (closeFile state writer) rfl rfl (by simp [idle]) (by simp)
  · intro volume member
    rw [released] at member
    have notSelf := unowned volume member
    rcases same with same | ⟨front, old, back, parts, owned, changed⟩
    · rw [same] at member
      exact ⟨volume, member, rfl, rfl, quiet_step_unrecorded quiet volume,
        quiet_step_alive accounted quiet member fun owner => absurd owner notSelf⟩
    · rw [changed] at member
      rcases member_cases member with replaced | beside
      · refine ⟨old, ?_, ?_, ?_, ?_, ?_⟩
        · rw [parts]
          exact List.mem_append_right _ (List.mem_cons_self ..)
        · rw [replaced]
        · rw [replaced]
        · rw [replaced]
          simp only [unrecordedIn, owned, idle, unrecorded]
        · intro owner ownerOf
          rw [replaced] at ownerOf
          cases ownerOf
      · have kept : volume ∈ state.openVolumes := parts ▸ member_beside beside old
        exact ⟨volume, kept, rfl, rfl, quiet_step_unrecorded quiet volume,
          quiet_step_alive accounted quiet kept fun owner => absurd owner notSelf⟩
  · intro old member
    rw [released]
    rcases same with same | ⟨front, volume, back, parts, owned, changed⟩
    · exact ⟨old, same.symm ▸ member, rfl⟩
    · rw [parts] at member
      rw [changed]
      rcases member_cases member with replaced | beside
      · exact ⟨volume.released, List.mem_append_right _ (List.mem_cons_self ..), by rw [replaced]⟩
      · exact ⟨old, member_beside beside _, rfl⟩
  · exact quiet_step_position quiet

private theorem accounted_claimed {source : Bytes} {volume : OpenVolumeForWriting}
    {volumes : List OpenVolumeForWriting} (accounted : Accounted volumeSize state)
    (looping : state.writers writer = .looping source)
    (claim : claimFree writer state.openVolumes = some (volume, volumes)) :
    Accounted volumeSize
      (({ state with openVolumes := volumes } : WriteState).setPhase writer
        (.found source volume.number volume.leftSize)) := by
  obtain ⟨front, free, back, parts, noOwner, claimed, replaced⟩ := claim_free_split claim
  have phase := set_phase_same { state with openVolumes := volumes } writer
    (.found source volume.number volume.leftSize)
  have quiet : QuietStep writer state (({ state with openVolumes := volumes } : WriteState).setPhase
      writer (.found source volume.number volume.leftSize)) :=
    quiet_step_set_phase { state with openVolumes := volumes } rfl (by simp [looping, InFlight]) id
  apply accounted_same_storage accounted
  · rfl
  · rfl
  · exact owned_blocks_set_phase { state with openVolumes := volumes } rfl rfl (by simp [looping])
      (by simp)
  · intro other member
    simp only [WriteState.setPhase, replaced] at member
    rcases member_cases member with same | beside
    · refine ⟨free, ?_, ?_, ?_, ?_, ?_⟩
      · rw [parts]
        exact List.mem_append_right _ (List.mem_cons_self ..)
      · rw [same, claimed]
      · rw [same, claimed]
      · rw [same, claimed]
        simp only [unrecordedIn, noOwner, set_phase_same, unrecorded]
      · intro owner owned
        rw [same, claimed] at owned
        have self : writer = owner := Option.some.inj owned
        rw [← self, phase]
        simp [Alive]
    · have kept : other ∈ state.openVolumes := parts ▸ member_beside beside free
      refine ⟨other, kept, rfl, rfl, quiet_step_unrecorded quiet other,
        quiet_step_alive accounted quiet kept ?_⟩
      intro _
      rw [phase]
      simp [Alive]
  · intro old member
    simp only [WriteState.setPhase, replaced]
    rw [parts] at member
    rcases member_cases member with same | beside
    · exact ⟨volume, List.mem_append_right _ (List.mem_cons_self ..), by rw [same, claimed]⟩
    · exact ⟨old, member_beside beside _, rfl⟩
  · exact quiet_step_position quiet

theorem own_volume_accounted {number recorded : Nat} {leftSize : UInt64}
    (alive : Alive (next.writers writer)) (remains : 0 < leftSize.toNat)
    (tiles : Tiles (extentsIn number (ownedBlocks next)) recorded)
    (size : recorded + leftSize.toNat = volumeSize.toNat)
    (file : (next.files number).length = recorded + unrecorded (next.writers writer)) :
    OpenAccounted volumeSize next
      { number := number, leftSize := leftSize, ownedWriter := some writer } where
  alive owner owned := by
    have self : writer = owner := Option.some.inj owned
    rw [← self]
    exact alive
  left := remains
  recorded := ⟨recorded, tiles, size, file⟩

private theorem accounted_new_volume {source : Bytes} (positive : 0 < volumeSize.toNat)
    (consistent : Consistent state) (accounted : Accounted volumeSize state)
    (looping : state.writers writer = .looping source) {opened : WriteState}
    (created : opened = { state with
      createdDataDir := true
      nextVolumeNumber := state.nextVolumeNumber + 1
      openVolumes := state.openVolumes ++
        [{ number := state.nextVolumeNumber
           leftSize := volumeSize
           ownedWriter := some writer }]
      files := Function.update state.files state.nextVolumeNumber [] }) :
    Accounted volumeSize
      (opened.setPhase writer (.found source state.nextVolumeNumber volumeSize)) := by
  have writers : opened.writers = state.writers := by rw [created]
  have index : opened.index = state.index := by rw [created]
  have phase := set_phase_same opened writer (.found source state.nextVolumeNumber volumeSize)
  have quiet : QuietStep writer state
      (opened.setPhase writer (.found source state.nextVolumeNumber volumeSize)) :=
    quiet_step_set_phase opened writers (by simp [looping, InFlight]) id
  have blocks : ownedBlocks
      (opened.setPhase writer (.found source state.nextVolumeNumber volumeSize)) =
        ownedBlocks state :=
    owned_blocks_set_phase opened writers index (by simp [looping]) (by simp)
  have otherFiles : ∀ number < state.nextVolumeNumber,
      opened.files number = state.files number := by
    intro number below
    rw [created]
    exact Function.update_of_ne (Nat.ne_of_lt below) _ _
  refine ⟨?_, ?_, ?_⟩
  · intro volume member
    simp only [WriteState.setPhase, created, List.mem_append, List.mem_singleton] at member
    rcases member with old | new
    · obtain ⟨recorded, tiles, size, length⟩ := (accounted.opened volume old).recorded
      refine ⟨?_, (accounted.opened volume old).left, recorded, ?_, size, ?_⟩
      · apply quiet_step_alive accounted quiet old
        intro _
        rw [phase]
        simp [Alive]
      · rw [blocks]
        exact tiles
      · rw [quiet_step_unrecorded quiet volume, ← length]
        exact congrArg List.length (otherFiles _ (consistent.numbered volume old))
    · rw [new]
      apply own_volume_accounted _ positive _ (Nat.zero_add _)
      · rw [phase]
        simp [WriteState.setPhase, created, unrecorded]
      · rw [phase]
        simp [Alive]
      · have none : blocksIn state.nextVolumeNumber (ownedBlocks state) = [] := by
          rw [blocksIn, List.filter_eq_nil_iff]
          intro block member
          have below := owned_blocks_numbered consistent block member
          rw [decide_eq_true_eq]
          exact Nat.ne_of_lt below
        rw [blocks, extentsIn, none]
        exact tiles_nil
  · intro number bound closed
    have different : number ≠ state.nextVolumeNumber := by
      rintro rfl
      refine closed
        { number := state.nextVolumeNumber, leftSize := volumeSize, ownedWriter := some writer }
        ?_ rfl
      rw [WriteState.setPhase, created]
      exact List.mem_append_right _ (List.mem_singleton_self _)
    have below : number < state.nextVolumeNumber := by
      simp only [WriteState.setPhase, created] at bound
      omega
    have before := accounted.full number below (by
      intro volume member
      apply closed volume
      rw [WriteState.setPhase, created]
      exact List.mem_append_left _ member)
    rw [blocks]
    refine ⟨?_, before.2⟩
    rw [← before.1]
    exact congrArg List.length (otherFiles number below)
  · intro path other number offset nBytesWritten wrote
    have before := quiet_step_position quiet path other number offset nBytesWritten wrote
    have stream := (consistent.writer path).stream
    rw [before] at stream
    obtain ⟨⟨leftSize, owned, _⟩, _⟩ := stream
    rw [accounted.position path other number offset nBytesWritten before]
    exact congrArg List.length (otherFiles number (consistent.numbered _ owned)).symm

theorem accounted_find_stream (positive : 0 < volumeSize.toNat) (consistent : Consistent state)
    (accounted : Accounted volumeSize state)
    (taken : step volumeSize state (.findStream writer) = some next) :
    Accounted volumeSize next := by
  obtain ⟨source, looping, _, rfl⟩ := step_find_stream taken
  cases owned : findOwned writer state.openVolumes with
  | some volume =>
      simp only [findStream, owned]
      apply accounted_phase accounted
        (quiet_step_set_phase state rfl (by simp [looping, InFlight]) id) _ rfl rfl rfl
      · exact owned_blocks_set_phase state rfl rfl (by simp [looping]) (by simp)
      · rw [set_phase_same]
        simp [Alive]
  | none =>
      cases claim : claimFree writer state.openVolumes with
      | some result =>
          simp only [findStream, owned, claim]
          exact accounted_claimed accounted looping claim
      | none =>
          simp only [findStream, owned, claim]
          exact accounted_new_volume positive consistent accounted looping rfl

structure OwnerStep (writer : Path) (number : Nat) (state next : WriteState) : Prop where
  others : ∀ other, other ≠ writer → next.writers other = state.writers other
  numbers : next.nextVolumeNumber = state.nextVolumeNumber
  files : ∀ other, other ≠ number → next.files other = state.files other
  tiles : ∀ other, other ≠ number → ∀ length,
    Tiles (extentsIn other (ownedBlocks state)) length →
      Tiles (extentsIn other (ownedBlocks next)) length

section Owner

variable {number : Nat} {leftSize : UInt64}

theorem owner_step_opened (consistent : Consistent state) (accounted : Accounted volumeSize state)
    (owned : Owns state writer number leftSize) (own : OwnerStep writer number state next)
    {volume : OpenVolumeForWriting} (member : volume ∈ state.openVolumes)
    (different : volume.number ≠ number) : OpenAccounted volumeSize next volume := by
  apply open_accounted_kept (accounted.opened volume member)
  · intro owner ownerOf
    apply own.others
    intro self
    have equal := apart_owner_unique consistent.apart member owned (self ▸ ownerOf) rfl
    exact different (congrArg OpenVolumeForWriting.number equal)
  · exact own.files _ different
  · exact own.tiles _ different

theorem owner_step_full (accounted : Accounted volumeSize state)
    (own : OwnerStep writer number state next) {other : Nat}
    (bound : other < next.nextVolumeNumber) (different : other ≠ number)
    (closed : ∀ volume ∈ state.openVolumes, volume.number ≠ other) :
    (next.files other).length = volumeSize.toNat ∧
      Tiles (extentsIn other (ownedBlocks next)) volumeSize.toNat := by
  have before := accounted.full other (own.numbers ▸ bound) closed
  rw [own.files other different]
  exact ⟨before.1, own.tiles other different _ before.2⟩

/-- What another writer has written lies in another volume. -/
theorem owner_step_position (consistent : Consistent state) (accounted : Accounted volumeSize state)
    (owned : Owns state writer number leftSize) (own : OwnerStep writer number state next)
    {path : Path} {source : Bytes} {otherNumber offset nBytesWritten : Nat}
    (different : path ≠ writer)
    (wrote : next.writers path = .wrote source otherNumber offset nBytesWritten) :
    offset + nBytesWritten = (next.files otherNumber).length := by
  rw [own.others path different] at wrote
  have stream := (consistent.writer path).stream
  rw [wrote] at stream
  obtain ⟨⟨otherLeft, otherOwned, _⟩, _⟩ := stream
  have apart : otherNumber ≠ number := by
    intro equal
    have volume := apart_number_unique consistent.apart otherOwned owned equal
    have owners := congrArg OpenVolumeForWriting.ownedWriter volume
    exact different (Option.some.inj owners)
  rw [own.files _ apart]
  exact accounted.position path source otherNumber offset nBytesWritten wrote

end Owner

theorem accounted_write_volume {nBytesWritten : Nat} (consistent : Consistent state)
    (accounted : Accounted volumeSize state)
    (taken : step volumeSize state (.writeVolume writer nBytesWritten) = some next) :
    Accounted volumeSize next := by
  obtain ⟨source, number, leftSize, offset, positioned, accepts, rfl⟩ := step_write_volume taken
  have stream := (consistent.writer writer).stream
  rw [positioned] at stream
  obtain ⟨owned, rfl⟩ := stream
  have fits : (source.take nBytesWritten).length = nBytesWritten := by
    have offered := accepts.1
    have bound := Nat.mod_le source.length (2 ^ 32)
    unfold bytesToWrite at offered
    rw [List.length_take]
    omega
  have phase := set_phase_same (state.appendToVolume number (source.take nBytesWritten)) writer
    (.wrote (source.drop nBytesWritten) number (state.files number).length nBytesWritten)
  generalize written : (state.appendToVolume number (source.take nBytesWritten)).setPhase writer
    (.wrote (source.drop nBytesWritten) number (state.files number).length nBytesWritten) = after
  rw [written] at phase
  have volumes : after.openVolumes = state.openVolumes := by rw [← written]; rfl
  have longer : (after.files number).length = (state.files number).length + nBytesWritten := by
    rw [← written]
    simp [WriteState.appendToVolume, WriteState.setPhase, fits]
  have blocks : ownedBlocks after = ownedBlocks state := by
    rw [← written]
    exact owned_blocks_set_phase (state.appendToVolume number (source.take nBytesWritten)) rfl rfl
      (by simp [positioned]) (by simp)
  have own : OwnerStep writer number state after := by
    refine ⟨?_, by rw [← written]; rfl, ?_, fun _ _ _ tiles => blocks ▸ tiles⟩
    · intro other different
      rw [← written]
      exact set_phase_other _ _ different
    · intro other different
      rw [← written]
      exact Function.update_of_ne different _ _
  refine ⟨?_, ?_, ?_⟩
  · intro volume member
    rw [volumes] at member
    by_cases same : volume.number = number
    · have self := apart_number_unique consistent.apart member owned same
      obtain ⟨recorded, tiles, size, length⟩ := (accounted.opened _ owned).recorded
      simp only [unrecordedIn, positioned, unrecorded, Nat.add_zero] at length
      rw [self]
      apply own_volume_accounted _ (accounted.opened _ owned).left (blocks ▸ tiles) size
      · rw [phase, longer, length]
        rfl
      · rw [phase]
        simp [Alive]
    · exact owner_step_opened consistent accounted owned own member same
  · intro other bound closed
    rw [volumes] at closed
    have different : other ≠ number := fun same => closed _ owned same.symm
    exact owner_step_full accounted own bound different closed
  · intro path other otherNumber offset size wrote
    by_cases same : path = writer
    · rw [same, phase] at wrote
      cases wrote
      exact longer.symm
    · exact owner_step_position consistent accounted owned own same wrote

theorem accounted_bytes_were_written (consistent : Consistent state)
    (accounted : Accounted volumeSize state)
    (taken : step volumeSize state (.bytesWereWritten writer) = some next) :
    Accounted volumeSize next := by
  obtain ⟨source, number, offset, nBytesWritten, recorded, wrote, outcome, rfl⟩ :=
    step_bytes_were_written taken
  obtain ⟨leftSize, owned, bound, result⟩ := bytes_were_written_recorded consistent wrote
  rw [result] at outcome
  cases outcome
  have present : state.writers writer ≠ .absent := by simp [wrote]
  obtain ⟨attributes, found, _, ownsBlocks, _⟩ := (consistent.writer writer).stored present
  have position := accounted.position writer source number offset nBytesWritten wrote
  obtain ⟨length, tiles, size, file⟩ := (accounted.opened _ owned).recorded
  simp only [unrecordedIn, wrote, unrecorded] at tiles size file
  have start : offset = length := by omega
  subst start
  obtain ⟨front, back, parts, filled⟩ := fill_owned_split nBytesWritten
    (find_owned_unique consistent.apart owned rfl)
  have leftAfter := left_size_filled bound
  generalize written : (state.recordBlock writer
    { volumeNumber := number, offset := offset, size := nBytesWritten }).setPhase writer
      (.looping source) = after
  have phase : after.writers writer = .looping source := by
    rw [← written]
    exact set_phase_same _ _ _
  have others : ∀ other, other ≠ writer → after.writers other = state.writers other := by
    intro other different
    rw [← written]
    exact set_phase_other _ _ different
  have files : after.files = state.files := by rw [← written]; rfl
  have volumes : after.openVolumes = fillOwned writer nBytesWritten state.openVolumes := by
    rw [← written]
    rfl
  have index : after.index = state.index.modify writer fun attributes =>
      attributes.addBlock { volumeNumber := number, offset := offset, size := nBytesWritten } := by
    rw [← written]
    rfl
  have blocks := positions_record_block found ownsBlocks present index (by simp [phase]) others
  obtain ⟨tilesHere, tilesOther⟩ := tiles_record_block blocks
  have tilesSelf : Tiles (extentsIn number (ownedBlocks after)) (offset + nBytesWritten) :=
    tilesHere tiles
  have own : OwnerStep writer number state after :=
    ⟨others, by rw [← written]; rfl, fun other _ => congrFun files other, tilesOther⟩
  have beside : ∀ volume ∈ front ++ back, OpenAccounted volumeSize after volume := by
    intro volume member
    have apart := apart_others (parts ▸ consistent.apart) volume member
    exact owner_step_opened consistent accounted owned own (parts ▸ member_beside member _) apart.1
  refine ⟨?_, ?_, ?_⟩
  · intro volume member
    rw [volumes, filled] at member
    split at member
    · exact beside volume member
    · case isFalse nonzero =>
        rcases member_cases member with same | inside
        · have remains : 0 < (leftSize - UInt64.ofNat nBytesWritten).toNat := by
            rw [Nat.pos_iff_ne_zero]
            intro zero
            exact nonzero (UInt64.toNat_inj.mp zero)
          rw [same]
          apply own_volume_accounted _ remains tilesSelf
          · rw [leftAfter]
            omega
          · rw [files, ← position, phase]
            rfl
          · rw [phase]
            simp [Alive]
        · exact beside volume inside
  · intro other below closed
    rw [volumes, filled] at closed
    by_cases same : other = number
    · subst same
      split at closed
      · case isTrue zero =>
          have full : (leftSize - UInt64.ofNat nBytesWritten).toNat = 0 :=
            congrArg UInt64.toNat zero
          have whole : offset + nBytesWritten = volumeSize.toNat := by omega
          rw [files, ← position, whole]
          exact ⟨rfl, whole ▸ tilesSelf⟩
      · exact absurd rfl (closed _ (List.mem_append_right _ (List.mem_cons_self ..)))
    · apply owner_step_full accounted own below same
      intro volume member
      rw [parts] at member
      rcases member_cases member with self | inside
      · rw [self]
        exact Ne.symm same
      · apply closed
        split
        · exact inside
        · exact member_beside inside _
  · intro path other otherNumber offset size otherWrote
    have different : path ≠ writer := by
      rintro rfl
      rw [phase] at otherWrote
      cases otherWrote
    exact owner_step_position consistent accounted owned own different otherWrote

theorem accounted_step {label : WriteLabel} (positive : 0 < volumeSize.toNat)
    (consistent : Consistent state) (accounted : Accounted volumeSize state)
    (taken : step volumeSize state label = some next) : Accounted volumeSize next := by
  cases label with
  | createFile path => exact accounted_create_file accounted taken
  | beginWrite writer source => exact accounted_begin_write accounted taken
  | findStream writer => exact accounted_find_stream positive consistent accounted taken
  | queryOffset writer => exact accounted_query_offset accounted taken
  | writeVolume writer nBytesWritten => exact accounted_write_volume consistent accounted taken
  | bytesWereWritten writer => exact accounted_bytes_were_written consistent accounted taken
  | finishWrite writer => exact accounted_finish_write accounted taken
  | closeFile writer => exact accounted_close_file consistent accounted taken

end OneWriter

end Steps

section Writers

variable {volumeSize : UInt64} {state next : WriteState}

def aliveWriters (state : WriteState) : Nat :=
  state.index.nodes.countP fun entry => Alive (state.writers entry.1)

/-- The largest number of writers that are alive at the same time in a run. -/
def mostAlive (volumeSize : UInt64) : WriteState → List WriteLabel → Nat
  | state, [] => aliveWriters state
  | state, label :: rest =>
      max (aliveWriters state)
        (match step volumeSize state label with
          | none => 0
          | some next => mostAlive volumeSize next rest)

theorem alive_writers_bound (consistent : Consistent state) {writers : List Path}
    (different : writers.Nodup) (alive : ∀ writer ∈ writers, Alive (state.writers writer)) :
    writers.length ≤ aliveWriters state := by
  have listed : writers ⊆ (state.index.nodes.filter fun entry =>
      Alive (state.writers entry.1)).map Prod.fst := by
    intro writer member
    obtain ⟨attributes, found, _⟩ := (consistent.writer writer).stored (alive writer member).1
    apply List.mem_map.mpr
    refine ⟨(writer, attributes), List.mem_filter.mpr ⟨?_, ?_⟩, rfl⟩
    · exact (NodeIndex.lookup_eq_some _ _ _).mp found
    · exact decide_eq_true (alive writer member)
  have bound := (different.subperm listed).length_le
  rw [List.length_map] at bound
  rw [aliveWriters, List.countP_eq_length_filter]
  exact bound

/-- When a writer finds no volume, every open one has an owner of its own. -/
theorem new_volume_needed {writer : Path} (consistent : Consistent state)
    (accounted : Accounted volumeSize state) (alive : Alive (state.writers writer))
    (owned : findOwned writer state.openVolumes = none)
    (claim : claimFree writer state.openVolumes = none) :
    state.openVolumes.length + 1 ≤ aliveWriters state := by
  have owners : (state.openVolumes.filterMap fun volume => volume.ownedWriter).length =
      state.openVolumes.length := by
    rw [List.filterMap_length_eq_length]
    intro volume member
    exact Option.isSome_iff_ne_none.mpr (claim_free_none claim volume member)
  have different : (writer :: state.openVolumes.filterMap fun volume => volume.ownedWriter).Nodup := by
    rw [List.nodup_cons]
    constructor
    · intro member
      obtain ⟨volume, inside, ownedBy⟩ := List.mem_filterMap.mp member
      exact find_owned_none owned volume inside ownedBy
    · apply consistent.apart.filterMap
      rintro left right apart owner leftOwned _ rightOwned rfl
      exact apart.2 owner leftOwned rightOwned
  have bound := alive_writers_bound consistent different (by
    intro owner member
    rcases List.mem_cons.mp member with rfl | inside
    · exact alive
    · obtain ⟨volume, volumeMember, ownedBy⟩ := List.mem_filterMap.mp inside
      exact (accounted.opened volume volumeMember).alive owner ownedBy)
  rw [List.length_cons, owners] at bound
  exact bound

theorem open_volumes_step {label : WriteLabel} (consistent : Consistent state)
    (accounted : Accounted volumeSize state) (taken : step volumeSize state label = some next) :
    next.openVolumes.length ≤ max state.openVolumes.length (aliveWriters state) := by
  cases label with
  | createFile path =>
      obtain ⟨_, _, rfl⟩ := step_create_file taken
      exact Nat.le_max_left _ _
  | beginWrite writer source =>
      obtain ⟨_, _, rfl⟩ := step_begin_write taken
      exact Nat.le_max_left _ _
  | findStream writer =>
      obtain ⟨source, looping, _, rfl⟩ := step_find_stream taken
      cases owned : findOwned writer state.openVolumes with
      | some volume =>
          simp only [findStream, owned]
          exact Nat.le_max_left _ _
      | none =>
          cases claim : claimFree writer state.openVolumes with
          | some result =>
              obtain ⟨front, free, back, parts, _, _, replaced⟩ := claim_free_split claim
              simp only [findStream, owned, claim, WriteState.setPhase, replaced]
              rw [parts, List.length_append, List.length_append, List.length_cons, List.length_cons]
              exact Nat.le_max_left _ _
          | none =>
              have alive : Alive (state.writers writer) := by
                rw [looping]
                simp [Alive]
              have needed := new_volume_needed consistent accounted alive owned claim
              simp only [findStream, owned, claim, WriteState.setPhase, List.length_append,
                List.length_cons, List.length_nil]
              omega
  | queryOffset writer =>
      obtain ⟨_, _, _, _, rfl⟩ := step_query_offset taken
      exact Nat.le_max_left _ _
  | writeVolume writer nBytesWritten =>
      obtain ⟨_, _, _, _, _, _, rfl⟩ := step_write_volume taken
      exact Nat.le_max_left _ _
  | bytesWereWritten writer =>
      obtain ⟨source, number, offset, nBytesWritten, recorded, wrote, outcome, rfl⟩ :=
        step_bytes_were_written taken
      obtain ⟨leftSize, owned, _, result⟩ := bytes_were_written_recorded consistent wrote
      rw [result] at outcome
      cases outcome
      obtain ⟨front, back, parts, filled⟩ := fill_owned_split nBytesWritten
        (find_owned_unique consistent.apart owned rfl)
      simp only [WriteState.setPhase, WriteState.recordBlock, filled]
      rw [parts]
      split
      · simp only [List.length_append, List.length_cons]
        omega
      · simp only [List.length_append, List.length_cons]
        exact Nat.le_max_left _ _
  | finishWrite writer =>
      obtain ⟨_, rfl⟩ := step_finish_write taken
      exact Nat.le_max_left _ _
  | closeFile writer =>
      obtain ⟨_, rfl⟩ := step_close_file taken
      simp only [WriteState.setPhase, closeFile]
      rcases release_owned_split writer state.openVolumes with same | changed
      · rw [same]
        exact Nat.le_max_left _ _
      · obtain ⟨front, volume, back, parts, _, released⟩ := changed
        rw [released, parts, List.length_append, List.length_append, List.length_cons,
          List.length_cons]
        exact Nat.le_max_left _ _

theorem accounted_run {index : BackupNodeIndex} (positive : 0 < volumeSize.toNat)
    (labels : List WriteLabel) {final : WriteState} (consistent : Consistent state)
    (accounted : Accounted volumeSize state)
    (run : (writing volumeSize index).run state labels = some final) :
    Consistent final ∧ Accounted volumeSize final ∧
      final.openVolumes.length ≤
        max state.openVolumes.length (mostAlive volumeSize state labels) := by
  induction labels generalizing state with
  | nil =>
      simp only [System.run, Option.some.injEq] at run
      subst run
      exact ⟨consistent, accounted, Nat.le_max_left _ _⟩
  | cons label rest induction =>
      obtain ⟨next, (taken : step volumeSize state label = some next), later⟩ :=
        System.run_cons_some run
      obtain ⟨finalConsistent, finalAccounted, bound⟩ :=
        induction (consistent_step consistent taken)
          (accounted_step positive consistent accounted taken) later
      have here := open_volumes_step consistent accounted taken
      refine ⟨finalConsistent, finalAccounted, ?_⟩
      simp only [mostAlive, taken]
      omega

end Writers

theorem accounted_open (volumeSize : UInt64) (index : BackupNodeIndex) :
    Accounted volumeSize (openFileSystem index) where
  opened volume member := by cases member
  full number bound := absurd bound (Nat.not_lt_zero _)
  position writer source number offset nBytesWritten wrote := by cases wrote

section Allocation

variable {volumeSize : UInt64} {index : BackupNodeIndex} {labels : List WriteLabel}
  {state : WriteState}

theorem sum_by_volume {blocks : List Block} {count : Nat}
    (numbered : ∀ block ∈ blocks, block.volumeNumber < count) :
    (blocks.map Block.size).sum =
      ∑ number ∈ Finset.range count, ((blocksIn number blocks).map Block.size).sum := by
  induction blocks with
  | nil => simp [blocksIn]
  | cons block rest induction =>
      obtain ⟨below, others⟩ := List.forall_mem_cons.mp numbered
      have split : ∀ number, ((blocksIn number (block :: rest)).map Block.size).sum =
          (if block.volumeNumber = number then block.size else 0) +
            ((blocksIn number rest).map Block.size).sum := by
        intro number
        by_cases same : block.volumeNumber = number
        · simp [blocksIn, same]
        · simp [blocksIn, same]
      rw [List.map_cons, List.sum_cons, induction others, Finset.sum_congr rfl fun number _ =>
        split number, Finset.sum_add_distrib, Finset.sum_ite_eq,
        if_pos (Finset.mem_range.mpr below)]

/-- The volumes, their owners and the blocks in a state where everything that was
written is recorded. -/
structure Allocated (volumeSize : UInt64) (index : BackupNodeIndex) (labels : List WriteLabel)
    (state : WriteState) : Prop where
  apart : state.openVolumes.Pairwise Apart
  positions : ∀ volume ∈ state.openVolumes,
    (state.files volume.number).length + volume.leftSize.toNat = volumeSize.toNat ∧
      0 < volume.leftSize.toNat
  disjoint : ∀ number, (blocksIn number (ownedBlocks state)).Pairwise fun left right =>
    ∀ position, Inside (extentOf left) position → ¬Inside (extentOf right) position
  covered : ∀ number < state.nextVolumeNumber, ∀ position,
    (∃ block ∈ blocksIn number (ownedBlocks state), Inside (extentOf block) position) ↔
      position < (state.files number).length
  numbered : ∀ block ∈ ownedBlocks state, block.volumeNumber < state.nextVolumeNumber
  owned : ∀ path attributes, state.index.lookup path = some attributes →
    attributes.ownsBlocks = true →
      (∀ block ∈ attributes.blocks, block ∈ ownedBlocks state) ∨
        index.lookup path = some attributes
  sizes : ((ownedBlocks state).map Block.size).sum =
    ∑ number ∈ Finset.range state.nextVolumeNumber, (state.files number).length
  notFull : ((List.range state.nextVolumeNumber).filter fun number =>
      (state.files number).length ≠ volumeSize.toNat).length ≤
    mostAlive volumeSize (openFileSystem index) labels

theorem unrecorded_in_quiet (quiet : ∀ writer, ¬InFlight (state.writers writer))
    (volume : OpenVolumeForWriting) : unrecordedIn state volume = 0 := by
  unfold unrecordedIn
  cases volume.ownedWriter with
  | none => rfl
  | some writer => exact unrecorded_quiet (quiet writer)

/-- Without anything in flight the blocks of a volume cover its file. -/
theorem quiet_tiles (accounted : Accounted volumeSize state)
    (quiet : ∀ writer, ¬InFlight (state.writers writer)) {number : Nat}
    (bound : number < state.nextVolumeNumber) :
    Tiles (extentsIn number (ownedBlocks state)) (state.files number).length := by
  by_cases opened : ∃ volume ∈ state.openVolumes, volume.number = number
  · obtain ⟨volume, member, rfl⟩ := opened
    obtain ⟨recorded, tiles, _, length⟩ := (accounted.opened volume member).recorded
    rw [length, unrecorded_in_quiet quiet, Nat.add_zero]
    exact tiles
  · obtain ⟨length, tiles⟩ := accounted.full number bound
      fun volume member same => opened ⟨volume, member, same⟩
    rw [length]
    exact tiles

theorem not_full_open (accounted : Accounted volumeSize state) :
    ((List.range state.nextVolumeNumber).filter fun number =>
      (state.files number).length ≠ volumeSize.toNat).length ≤ state.openVolumes.length := by
  rw [← List.length_map OpenVolumeForWriting.number]
  apply List.Subperm.length_le
  apply (List.nodup_range.filter _).subperm
  intro number member
  rw [List.mem_filter, List.mem_range, decide_eq_true_eq] at member
  obtain ⟨bound, partly⟩ := member
  by_contra closed
  apply partly
  apply (accounted.full number bound _).1
  intro volume inside same
  exact closed (List.mem_map.mpr ⟨volume, inside, same⟩)

/-- Whatever the writers do and in whatever order: in every state of every run in
which nothing is in flight, the volumes belong to their writers, their files are
covered by the recorded blocks, and at most as many volumes are not full as there
were writers at the same time. -/
theorem volume_allocation (volumeSize : UInt64) (positive : 0 < volumeSize.toNat)
    (index : BackupNodeIndex) (labels : List WriteLabel) (state : WriteState)
    (run : (writing volumeSize index).run (openFileSystem index) labels = some state)
    (quiet : ∀ writer, ¬InFlight (state.writers writer)) :
    Allocated volumeSize index labels state := by
  obtain ⟨consistent, accounted, bound⟩ :=
    accounted_run positive labels (consistent_open index) (accounted_open volumeSize index) run
  have numbered := owned_blocks_numbered consistent
  have tiles : ∀ number < state.nextVolumeNumber,
      Tiles (extentsIn number (ownedBlocks state)) (state.files number).length :=
    fun number below => quiet_tiles accounted quiet below
  refine ⟨consistent.apart, ?_, ?_, ?_, numbered, ?_, ?_, ?_⟩
  · intro volume member
    obtain ⟨_, left, recorded, _, size, length⟩ := accounted.opened volume member
    rw [length, unrecorded_in_quiet quiet, Nat.add_zero]
    exact ⟨size, left⟩
  · intro number
    by_cases below : number < state.nextVolumeNumber
    · exact List.pairwise_map.mp (tiles_disjoint (tiles number below))
    · have none : blocksIn number (ownedBlocks state) = [] := by
        rw [blocksIn, List.filter_eq_nil_iff]
        intro block member
        rw [decide_eq_true_eq]
        exact Nat.ne_of_lt (Nat.lt_of_lt_of_le (numbered block member) (Nat.le_of_not_lt below))
      rw [none]
      exact List.Pairwise.nil
  · intro number below position
    rw [← tiles_covered (tiles number below) position]
    simp only [extentsIn, List.mem_map, exists_exists_and_eq_and]
  · intro path attributes found owns
    by_cases absent : state.writers path = .absent
    · right
      rw [← found]
      have reachable := System.reachable_of_run labels run
      exact ((grown_reachable reachable).untouched path absent).symm
    · left
      intro block member
      apply List.mem_flatMap.mpr
      refine ⟨(path, attributes), (NodeIndex.lookup_eq_some _ _ _).mp found, ?_⟩
      rw [entryBlocks, if_pos ⟨absent, owns⟩]
      exact member
  · rw [sum_by_volume numbered]
    apply Finset.sum_congr rfl
    intro number member
    have size := tiles_sum (tiles number (Finset.mem_range.mp member))
    rw [extentsIn, List.map_map] at size
    exact size
  · have start : (openFileSystem index).openVolumes.length = 0 := rfl
    rw [start, Nat.zero_max] at bound
    exact (not_full_open accounted).trans bound

theorem shared_volumes_allocated :
    ∃ state, (writing 3 twoFiles).run (openFileSystem twoFiles) sharedVolumeSteps = some state ∧
      (ownedBlocks state).map (fun block => (block.volumeNumber, block.offset, block.size)) =
        [(0, 0, 2), (0, 2, 1), (1, 0, 2)] ∧
      Allocated 3 twoFiles sharedVolumeSteps state := by
  have outcome : ((writing 3 twoFiles).run (openFileSystem twoFiles) sharedVolumeSteps).map
      (fun state => (ownedBlocks state).map fun block =>
        (block.volumeNumber, block.offset, block.size)) =
      some [(0, 0, 2), (0, 2, 1), (1, 0, 2)] := by decide
  obtain ⟨state, run, blocks⟩ := Option.map_eq_some_iff.mp outcome
  refine ⟨state, run, blocks, ?_⟩
  apply volume_allocation 3 (by decide) twoFiles sharedVolumeSteps state run
  intro writer
  rcases shared_volumes_all_closed run writer with absent | closed
  · rw [absent]
    exact id
  · rw [closed]
    exact id

end Allocation

end ACBackup.VolumeAllocation
