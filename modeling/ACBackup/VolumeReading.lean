import ACBackup.Library.Extents
import ACBackup.Library.Loop
import ACBackup.Indexing

/-!
Reading from a `FlatVolumesFileSystem`. The volume files exist but may hold
anything. Both loops may run for ever: what they deliver when they do not is
told by a plan of requests that depends on the block list only.
-/

namespace ACBackup.VolumeReading

open ACBackup.Library.Extents ACBackup.Library.Loop
open ACBackup.Platform ACBackup.NodeAttributes ACBackup.Indexing

set_option autoImplicit false

/-- The reading side of the file system: the length of the array of volumes and
the contents of the volume files. -/
structure VolumeStore where
  nVolumes : Nat
  files : Nat → Bytes

def volumeNumbers (index : BackupNodeIndex) : List Nat :=
  index.nodes.flatMap fun entry => entry.2.blocks.map Block.volumeNumber

/-- The constructor counts the different volume numbers of all nodes. -/
def openForReading (files : Nat → Bytes) (index : BackupNodeIndex) : VolumeStore where
  nVolumes := (volumeNumbers index).dedup.length
  files := files

def storedBytes (files : Nat → Bytes) (blocks : List Block) : Bytes :=
  blocks.flatMap fun block => slice (files block.volumeNumber) block.offset block.size

def AllPresent (files : Nat → Bytes) (blocks : List Block) : Prop :=
  ∀ block ∈ blocks, block.offset + block.size ≤ (files block.volumeNumber).length

instance (files : Nat → Bytes) (blocks : List Block) : Decidable (AllPresent files blocks) :=
  inferInstanceAs (Decidable (∀ _ ∈ _, _))

/-- `FlatVolumesFileSystem::ReadBytes`: every pass seeks to the same offset. -/
def readVolumePass (store : VolumeStore) (volumeNumber offset : Nat) (_ : Nat)
    (state : Bytes × Nat) : Attempt Fault (Pass (Bytes × Nat) Bytes) :=
  if state.2 = 0 then some (.ok (.done state.1))
  else if volumeNumber < store.nVolumes then
    let bytes := slice (store.files volumeNumber) offset state.2
    some (.ok (.again (state.1 ++ bytes, state.2 - bytes.length)))
  else some (.error .outOfRange)

def readVolume (store : VolumeStore) (volumeNumber offset count fuel : Nat) : Attempt Fault Bytes :=
  loop (readVolumePass store volumeNumber offset) fuel ([], count)

structure BlockInputStream where
  blocks : List Block
  currentBlockIndex : Nat
  blockOffset : Nat
  deriving DecidableEq

def openBlocks (blocks : List Block) : BlockInputStream where
  blocks := blocks
  currentBlockIndex := 0
  blockOffset := 0

def BlockInputStream.isAtEnd (stream : BlockInputStream) : Bool :=
  stream.blocks.length ≤ stream.currentBlockIndex

def downcastToClosest (value : Nat) : Nat := min value (2 ^ 32 - 1)

/-- A finished block is left. The offset keeps its value at the end. -/
def BlockInputStream.leaveFinishedBlock (stream : BlockInputStream) (block : Block) :
    BlockInputStream :=
  if block.size ≤ stream.blockOffset then
    let left := { stream with currentBlockIndex := stream.currentBlockIndex + 1 }
    if left.isAtEnd then left else { left with blockOffset := 0 }
  else stream

/-- The state of a call of `ReadBytes`: what was delivered, where the stream
stands, and how many bytes are still wanted. -/
abbrev ReadState := Bytes × BlockInputStream × Nat

def readBytesPass (store : VolumeStore) (fuel : Nat) (state : ReadState) :
    Attempt Fault (Pass ReadState (Bytes × BlockInputStream)) :=
  if state.2.2 = 0 then some (.ok (.done (state.1, state.2.1)))
  else
    match state.2.1.blocks[state.2.1.currentBlockIndex]? with
    | none => some (.error .outOfRange)
    | some finished =>
        let stream := state.2.1.leaveFinishedBlock finished
        match stream.blocks[stream.currentBlockIndex]? with
        | none => some (.ok (.done (state.1, stream)))
        | some block =>
            let leftSize := min state.2.2 (downcastToClosest (block.size - stream.blockOffset))
            (readVolume store block.volumeNumber (block.offset + stream.blockOffset) leftSize
              fuel).andThen fun bytes =>
                some (.ok (.again
                  (state.1 ++ bytes,
                    { stream with blockOffset := stream.blockOffset + bytes.length },
                    state.2.2 - bytes.length)))

def readBytes (store : VolumeStore) (stream : BlockInputStream) (count : UInt32) (fuel : Nat) :
    Attempt Fault (Bytes × BlockInputStream) :=
  if stream.isAtEnd then some (.ok ([], stream))
  else loop (readBytesPass store) fuel ([], stream, count.toNat)

def readSequence (store : VolumeStore) : BlockInputStream → List UInt32 → Nat →
    Attempt Fault (List Bytes)
  | _, [], _ => some (.ok [])
  | stream, count :: counts, fuel =>
      (readBytes store stream count fuel).andThen fun result =>
        (readSequence store result.2 counts fuel).andThen fun rest =>
          some (.ok (result.1 :: rest))

section VolumeLoop

variable {store : VolumeStore} {volumeNumber offset : Nat}

theorem read_volume_steady (store : VolumeStore) (volumeNumber offset count : Nat) :
    Steady fun fuel => readVolume store volumeNumber offset count fuel := by
  apply loop_steady
  intro state
  exact steady_constant _

theorem read_volume_zero (store : VolumeStore) (volumeNumber offset : Nat)
    (output : Except Fault Bytes) :
    Finishes (fun fuel => readVolume store volumeNumber offset 0 fuel) output ↔
      output = .ok [] := by
  apply loop_done
  · intro state
    exact steady_constant _
  · exact ⟨0, rfl⟩

/-- A short read is answered by the same bytes again. -/
theorem read_volume_refill {count : Nat} (delivered : Bytes)
    (number : volumeNumber < store.nVolumes)
    (present : offset < (store.files volumeNumber).length) (output : Except Fault Bytes) :
    Finishes (fun fuel => loop (readVolumePass store volumeNumber offset) fuel (delivered, count))
      output ↔
        output = .ok (delivered ++ refill ((store.files volumeNumber).drop offset) count) := by
  have steady : ∀ state, Steady fun fuel => readVolumePass store volumeNumber offset fuel state :=
    fun _ => steady_constant _
  have available : (store.files volumeNumber).drop offset ≠ [] := by
    rw [← List.length_pos_iff, List.length_drop]
    omega
  induction count using Nat.strong_induction_on generalizing delivered with
  | _ count induction =>
      by_cases zero : count = 0
      · subst zero
        rw [refill_zero, List.append_nil]
        exact loop_done steady ⟨0, rfl⟩ output
      · have length := slice_length (store.files volumeNumber) offset count
        have pass : readVolumePass store volumeNumber offset 0 (delivered, count) =
            some (.ok (.again (delivered ++ slice (store.files volumeNumber) offset count,
              count - (slice (store.files volumeNumber) offset count).length))) := by
          simp only [readVolumePass, if_neg zero, if_pos number]
        have shorter : 0 < (slice (store.files volumeNumber) offset count).length := by omega
        have rest := induction (count - (slice (store.files volumeNumber) offset count).length)
          (by omega) (delivered ++ slice (store.files volumeNumber) offset count)
        apply (loop_again steady ⟨0, pass⟩ output).trans
        apply rest.trans
        rw [List.append_assoc]
        by_cases long : count ≤ ((store.files volumeNumber).drop offset).length
        · rw [List.length_drop] at long
          have finished : count - (slice (store.files volumeNumber) offset count).length = 0 := by
            omega
          rw [finished, refill_zero, List.append_nil, refill_of_long (by rw [List.length_drop]; omega),
            slice]
        · have whole : slice (store.files volumeNumber) offset count =
              (store.files volumeNumber).drop offset :=
            List.take_of_length_le (by omega)
          have short : ((store.files volumeNumber).drop offset).length < count := by omega
          rw [whole, refill_of_short short available]

theorem read_volume_past_end {count : Nat} (number : volumeNumber < store.nVolumes)
    (positive : count ≠ 0) (past : (store.files volumeNumber).length ≤ offset)
    (output : Except Fault Bytes) :
    ¬Finishes (fun fuel => readVolume store volumeNumber offset count fuel) output := by
  apply loop_diverges fun state => state = ([], count)
  · intro fuel state same
    subst same
    have nothing : slice (store.files volumeNumber) offset count = [] := by
      rw [slice, List.drop_eq_nil_of_le past, List.take_nil]
    refine ⟨([], count), ?_, rfl⟩
    simp only [readVolumePass, if_neg positive, if_pos number, nothing, List.append_nil,
      List.length_nil, Nat.sub_zero]
  · rfl

end VolumeLoop

section Plan

def skipBytes (block : Block) (count : Nat) : Block :=
  { block with
    offset := block.offset + count
    size := block.size - count }

def extents (stream : BlockInputStream) : List Block :=
  match stream.blocks.drop stream.currentBlockIndex with
  | [] => []
  | block :: rest => skipBytes block stream.blockOffset :: rest

/-- The requests to the volumes that `count` bytes need, and what is left in
front of the stream afterwards. -/
def plan : List Block → Nat → List Block × List Block
  | [], _ => ([], [])
  | block :: rest, count =>
      if count ≤ block.size then ([{ block with size := count }], skipBytes block count :: rest)
      else
        let later := plan rest (count - block.size)
        (block :: later.1, later.2)

/-- A request is answered when its file has bytes at its offset. -/
def Answered (store : VolumeStore) (request : Block) : Prop :=
  request.size = 0 ∨ request.offset < (store.files request.volumeNumber).length

instance (store : VolumeStore) (request : Block) : Decidable (Answered store request) :=
  inferInstanceAs (Decidable (_ ∨ _))

def delivered (store : VolumeStore) (request : Block) : Bytes :=
  refill ((store.files request.volumeNumber).drop request.offset) request.size

def InRange (store : VolumeStore) (blocks : List Block) : Prop :=
  ∀ block ∈ blocks, block.volumeNumber < store.nVolumes

instance (store : VolumeStore) (blocks : List Block) : Decidable (InRange store blocks) :=
  inferInstanceAs (Decidable (∀ _ ∈ _, _))

theorem delivered_length {store : VolumeStore} {request : Block}
    (answered : Answered store request) : (delivered store request).length = request.size := by
  rcases answered with zero | present
  · rw [delivered, zero, refill_zero]
    rfl
  · apply refill_length
    rw [← List.length_pos_iff, List.length_drop]
    omega

theorem read_volume_answered {store : VolumeStore} {request : Block}
    (number : request.volumeNumber < store.nVolumes) (answered : Answered store request)
    (output : Except Fault Bytes) :
    Finishes (fun fuel =>
        readVolume store request.volumeNumber request.offset request.size fuel) output ↔
      output = .ok (delivered store request) := by
  rcases answered with zero | present
  · rw [delivered, zero, refill_zero]
    exact read_volume_zero store request.volumeNumber request.offset output
  · exact read_volume_refill [] number present output

theorem read_volume_unanswered {store : VolumeStore} {request : Block}
    (number : request.volumeNumber < store.nVolumes) (unanswered : ¬Answered store request)
    (output : Except Fault Bytes) :
    ¬Finishes (fun fuel =>
        readVolume store request.volumeNumber request.offset request.size fuel) output := by
  unfold Answered at unanswered
  rw [not_or, Nat.not_lt] at unanswered
  exact read_volume_past_end number unanswered.1 unanswered.2 output

theorem read_bytes_pass_steady (store : VolumeStore) (state : ReadState) :
    Steady fun fuel => readBytesPass store fuel state := by
  unfold readBytesPass
  by_cases zero : state.2.2 = 0
  · simp only [if_pos zero]
    exact steady_constant _
  · simp only [if_neg zero]
    cases state.2.1.blocks[state.2.1.currentBlockIndex]? with
    | none => exact steady_constant _
    | some finished =>
        simp only
        cases (state.2.1.leaveFinishedBlock finished).blocks[
          (state.2.1.leaveFinishedBlock finished).currentBlockIndex]? with
        | none => exact steady_constant _
        | some block =>
            apply steady_and_then
            · exact read_volume_steady _ _ _ _
            · intro bytes
              exact steady_constant _

/-- What a reading run does, told by a plan: it delivers when all requests are
answered, and hangs when one is not. -/
structure ReadsAs (store : VolumeStore) (run : Nat → Attempt Fault (Bytes × BlockInputStream))
    (dest : Bytes) (blocks requests tail : List Block) : Prop where
  answers : (∀ request ∈ requests, Answered store request) →
    ∃ final : BlockInputStream, final.blocks = blocks ∧ extents final = tail ∧
      ∀ output, Finishes run output ↔
        output = .ok (dest ++ requests.flatMap (delivered store), final)
  hangs : ¬(∀ request ∈ requests, Answered store request) → ∀ output, ¬Finishes run output

abbrev readLoop (store : VolumeStore) (dest : Bytes) (stream : BlockInputStream) (count fuel : Nat) :
    Attempt Fault (Bytes × BlockInputStream) :=
  loop (readBytesPass store) fuel (dest, stream, count)

theorem reads_as_done {store : VolumeStore} {dest : Bytes} {stream final : BlockInputStream}
    {count : Nat} {blocks : List Block} (same : final.blocks = blocks)
    (pass : readBytesPass store 0 (dest, stream, count) = some (.ok (.done (dest, final)))) :
    ReadsAs store (readLoop store dest stream count) dest blocks [] (extents final) where
  answers _ := by
    refine ⟨final, same, rfl, ?_⟩
    intro output
    rw [List.flatMap_nil, List.append_nil]
    exact loop_done (read_bytes_pass_steady store) ⟨0, pass⟩ output
  hangs some := absurd (fun request member => by cases member) some

theorem reads_as_request {store : VolumeStore} {dest : Bytes} {stream : BlockInputStream}
    {count : Nat} (next : BlockInputStream) (request : Block) {blocks requests tail : List Block}
    (number : request.volumeNumber < store.nVolumes)
    (pass : ∀ fuel, readBytesPass store fuel (dest, stream, count) =
      (readVolume store request.volumeNumber request.offset request.size fuel).andThen
        fun bytes => some (.ok (.again
          (dest ++ bytes, { next with blockOffset := next.blockOffset + bytes.length },
            count - bytes.length))))
    (later : ReadsAs store
      (readLoop store (dest ++ delivered store request)
        { next with blockOffset := next.blockOffset + request.size } (count - request.size))
      (dest ++ delivered store request) blocks requests tail) :
    ReadsAs store (readLoop store dest stream count) dest blocks (request :: requests) tail := by
  have first : Answered store request → ∀ output,
      Finishes (readLoop store dest stream count) output ↔
        Finishes (readLoop store (dest ++ delivered store request)
          { next with blockOffset := next.blockOffset + request.size }
          (count - request.size)) output := by
    intro answered output
    apply loop_again (read_bytes_pass_steady store)
    simp only [pass]
    apply (finishes_and_then (read_volume_steady _ _ _ _) (fun _ => steady_constant _)
      ((read_volume_answered number answered _).mpr rfl) _).mpr
    rw [finishes_constant, delivered_length answered]
  constructor
  · intro answered
    have head := first (answered request (List.mem_cons_self ..))
    obtain ⟨final, same, rest, finishes⟩ := later.answers fun other member =>
      answered other (List.mem_cons_of_mem _ member)
    refine ⟨final, same, rest, ?_⟩
    intro output
    rw [head output, finishes output, List.flatMap_cons, List.append_assoc]
  · intro unanswered output finishes
    by_cases answered : Answered store request
    · apply later.hangs _ output ((first answered output).mp finishes)
      intro others
      apply unanswered
      intro other member
      rcases List.mem_cons.mp member with same | inside
      · rw [same]
        exact answered
      · exact others other inside
    · obtain ⟨outcome, body⟩ := loop_first_pass finishes
      simp only [pass] at body
      obtain ⟨bytes, read⟩ := finishes_first body
      exact read_volume_unanswered number answered bytes read

theorem drop_cons {Item : Type} {items rest : List Item} {position : Nat} {item : Item}
    (dropped : items.drop position = item :: rest) :
    items[position]? = some item ∧ items.drop (position + 1) = rest := by
  constructor
  · have head := congrArg (fun list => list[0]?) dropped
    simpa using head
  · rw [← List.tail_drop, dropped]
    rfl

theorem read_bytes_pass_request (store : VolumeStore) (dest : Bytes)
    {stream next : BlockInputStream} {current block : Block} {count : Nat} (wanted : count ≠ 0)
    (bound : count < 2 ^ 32) (here : stream.blocks[stream.currentBlockIndex]? = some current)
    (left : stream.leaveFinishedBlock current = next)
    (there : next.blocks[next.currentBlockIndex]? = some block) (fuel : Nat) :
    readBytesPass store fuel (dest, stream, count) =
      (readVolume store block.volumeNumber (block.offset + next.blockOffset)
        (min count (block.size - next.blockOffset)) fuel).andThen fun bytes =>
          some (.ok (.again
            (dest ++ bytes, { next with blockOffset := next.blockOffset + bytes.length },
              count - bytes.length))) := by
  have cast : min count (downcastToClosest (block.size - next.blockOffset)) =
      min count (block.size - next.blockOffset) := by
    unfold downcastToClosest
    omega
  simp only [readBytesPass, if_neg wanted, here, left, there, cast]

theorem reads_as_last_request {store : VolumeStore} (dest : Bytes)
    {stream next : BlockInputStream} {current block : Block} {rest : List Block} {count : Nat}
    (number : block.volumeNumber < store.nVolumes) (wanted : count ≠ 0) (bound : count < 2 ^ 32)
    (here : stream.blocks[stream.currentBlockIndex]? = some current)
    (left : stream.leaveFinishedBlock current = next)
    (there : next.blocks.drop next.currentBlockIndex = block :: rest)
    (enough : count ≤ block.size - next.blockOffset) :
    ReadsAs store (readLoop store dest stream count) dest next.blocks
      [{ block with
          offset := block.offset + next.blockOffset
          size := count }]
      (skipBytes block (next.blockOffset + count) :: rest) := by
  have rests : extents { next with blockOffset := next.blockOffset + count } =
      skipBytes block (next.blockOffset + count) :: rest := by
    simp only [extents, there]
  rw [← rests]
  apply reads_as_request next
    { block with
      offset := block.offset + next.blockOffset
      size := count }
  · exact number
  · intro fuel
    have pass := read_bytes_pass_request store dest wanted bound here left (drop_cons there).1 fuel
    rw [Nat.min_eq_left enough] at pass
    exact pass
  · rw [Nat.sub_self]
    exact reads_as_done rfl rfl

theorem reads_as_nothing {store : VolumeStore}
    {run : Nat → Attempt Fault (Bytes × BlockInputStream)} {dest : Bytes} {request : Block}
    {blocks requests tail : List Block} (zero : request.size = 0)
    (reads : ReadsAs store run dest blocks requests tail) :
    ReadsAs store run dest blocks (request :: requests) tail := by
  have nothing : delivered store request = [] := by
    rw [delivered, zero, refill_zero]
  constructor
  · intro answered
    have others := reads.answers fun other member => answered other (List.mem_cons_of_mem _ member)
    rw [List.flatMap_cons, nothing, List.nil_append]
    exact others
  · intro unanswered
    apply reads.hangs
    intro others
    apply unanswered
    intro other member
    rcases List.mem_cons.mp member with same | inside
    · rw [same]
      exact .inl zero
    · exact others other inside

theorem reads_as_finished {store : VolumeStore} (rest : List Block) {dest : Bytes}
    {stream : BlockInputStream} {block : Block} {count : Nat}
    (inRange : InRange store rest)
    (current : stream.blocks.drop stream.currentBlockIndex = block :: rest)
    (finished : block.size ≤ stream.blockOffset) (positive : 0 < count)
    (bound : count < 2 ^ 32) :
    ReadsAs store (readLoop store dest stream count) dest stream.blocks
      (plan rest count).1 (plan rest count).2 := by
  have wanted : count ≠ 0 := Nat.ne_of_gt positive
  obtain ⟨here, behind⟩ := drop_cons current
  induction rest generalizing dest stream block count with
  | nil =>
      have atEnd : stream.blocks.length ≤ stream.currentBlockIndex + 1 :=
        List.drop_eq_nil_iff.mp behind
      have left : stream.leaveFinishedBlock block =
          { stream with currentBlockIndex := stream.currentBlockIndex + 1 } := by
        simp [BlockInputStream.leaveFinishedBlock, finished, BlockInputStream.isAtEnd, atEnd]
      have nothing : stream.blocks[stream.currentBlockIndex + 1]? = none :=
        List.getElem?_eq_none atEnd
      have reads : ReadsAs store (readLoop store dest stream count) dest stream.blocks []
          (extents { stream with currentBlockIndex := stream.currentBlockIndex + 1 }) := by
        apply reads_as_done
        · rfl
        · simp [readBytesPass, wanted, here, left, nothing]
      simpa [extents, behind, plan] using reads
  | cons second rest induction =>
      obtain ⟨there, later⟩ := drop_cons behind
      have inside : stream.currentBlockIndex + 1 < stream.blocks.length := by
        obtain ⟨bound, _⟩ := List.getElem?_eq_some_iff.mp there
        exact bound
      have number : second.volumeNumber < store.nVolumes := inRange second (by simp)
      have left : stream.leaveFinishedBlock block =
          { stream with
            currentBlockIndex := stream.currentBlockIndex + 1
            blockOffset := 0 } := by
        simp [BlockInputStream.leaveFinishedBlock, finished, BlockInputStream.isAtEnd, inside]
      by_cases enough : count ≤ second.size
      · have reads := reads_as_last_request dest number wanted bound here left behind enough
        simpa [plan, enough] using reads
      · have short : second.size < count := Nat.lt_of_not_le enough
        simp only [plan, if_neg enough]
        apply reads_as_request
          { stream with
            currentBlockIndex := stream.currentBlockIndex + 1
            blockOffset := 0 } second number
        · intro fuel
          have pass := read_bytes_pass_request store dest wanted bound here left there fuel
          simp only [Nat.sub_zero, Nat.add_zero, Nat.min_eq_right (Nat.le_of_lt short)] at pass
          exact pass
        · apply induction
          · intro other member
            exact inRange other (List.mem_cons_of_mem _ member)
          · exact behind
          · simp
          · omega
          · omega
          · omega
          · exact there
          · exact later

theorem is_at_end_iff (stream : BlockInputStream) :
    stream.isAtEnd = true ↔ extents stream = [] := by
  unfold extents BlockInputStream.isAtEnd
  rw [decide_eq_true_eq, ← List.drop_eq_nil_iff]
  cases stream.blocks.drop stream.currentBlockIndex <;> simp

/-- `ReadBytes` follows the plan of what is in front of the stream. -/
theorem read_bytes_plan {store : VolumeStore} {stream : BlockInputStream}
    (inRange : InRange store stream.blocks) (count : UInt32) :
    ReadsAs store (readBytes store stream count) [] stream.blocks
      (plan (extents stream) count.toNat).1 (plan (extents stream) count.toNat).2 := by
  have bound : count.toNat < 2 ^ 32 := count.toNat_lt
  unfold readBytes
  by_cases atEnd : stream.isAtEnd = true
  · have nothing := (is_at_end_iff stream).mp atEnd
    simp only [if_pos atEnd, nothing, plan]
    refine ⟨?_, ?_⟩
    · intro _
      exact ⟨stream, rfl, nothing, fun output => finishes_constant _ output⟩
    · intro unanswered
      exact absurd (fun request member => by cases member) unanswered
  · simp only [if_neg atEnd]
    cases current : stream.blocks.drop stream.currentBlockIndex with
    | nil =>
        have nothing : extents stream = [] := by simp only [extents, current]
        exact absurd ((is_at_end_iff stream).mpr nothing) atEnd
    | cons block rest =>
        have front : extents stream = skipBytes block stream.blockOffset :: rest := by
          simp only [extents, current]
        obtain ⟨here, behind⟩ := drop_cons current
        have member : block ∈ stream.blocks := List.mem_of_getElem? here
        have others : InRange store rest := by
          intro other inside
          apply inRange other
          rw [← behind] at inside
          exact List.mem_of_mem_drop inside
        rw [front]
        by_cases zero : count.toNat = 0
        · have nothing : plan (skipBytes block stream.blockOffset :: rest) count.toNat =
              ([{ skipBytes block stream.blockOffset with size := 0 }], extents stream) := by
            simp [plan, zero, front, skipBytes]
          rw [nothing, zero]
          apply reads_as_nothing
          · rfl
          · exact reads_as_done rfl rfl
        · have positive : 0 < count.toNat := Nat.pos_of_ne_zero zero
          by_cases finished : block.size ≤ stream.blockOffset
          · have empty : (skipBytes block stream.blockOffset).size = 0 := Nat.sub_eq_zero_of_le finished
            rw [plan, if_neg (by omega), empty, Nat.sub_zero]
            apply reads_as_nothing
            · exact empty
            · exact reads_as_finished rest others current finished positive bound
          · have stays : stream.leaveFinishedBlock block = stream := by
              rw [BlockInputStream.leaveFinishedBlock, if_neg finished]
            by_cases enough : count.toNat ≤ block.size - stream.blockOffset
            · have skipped : skipBytes (skipBytes block stream.blockOffset) count.toNat =
                  skipBytes block (stream.blockOffset + count.toNat) := by
                simp [skipBytes, Nat.add_assoc, Nat.sub_sub]
              have size : (skipBytes block stream.blockOffset).size =
                  block.size - stream.blockOffset := rfl
              rw [plan, if_pos (by omega), skipped]
              exact reads_as_last_request [] (inRange block member) zero bound here stays current
                enough
            · have size : (skipBytes block stream.blockOffset).size =
                  block.size - stream.blockOffset := rfl
              rw [plan, if_neg (by omega)]
              apply reads_as_request stream (skipBytes block stream.blockOffset)
              · exact inRange block member
              · intro fuel
                have pass := read_bytes_pass_request store [] zero bound here stays here fuel
                rw [Nat.min_eq_right (by omega)] at pass
                exact pass
              · apply reads_as_finished rest others
                · exact current
                · simp only [size]
                  omega
                · omega
                · omega

theorem extents_open (blocks : List Block) : extents (openBlocks blocks) = blocks := by
  cases blocks with
  | nil => rfl
  | cons block rest => rfl

end Plan

section Present

/-! With all bytes present every request is answered, and with what was stored. -/

variable {store : VolumeStore}

theorem answered_of_inside {request : Block}
    (inside : request.offset + request.size ≤ (store.files request.volumeNumber).length) :
    Answered store request := by
  unfold Answered
  omega

theorem stored_bytes_cons (files : Nat → Bytes) (block : Block) (rest : List Block) :
    storedBytes files (block :: rest) =
      slice (files block.volumeNumber) block.offset block.size ++ storedBytes files rest := by
  simp [storedBytes]

/-- The plan takes the next bytes and leaves the others. -/
theorem plan_present {blocks : List Block} (present : AllPresent store.files blocks) (count : Nat) :
    AllPresent store.files (plan blocks count).1 ∧ AllPresent store.files (plan blocks count).2 ∧
      storedBytes store.files (plan blocks count).1 =
        (storedBytes store.files blocks).take count ∧
      storedBytes store.files (plan blocks count).2 =
        (storedBytes store.files blocks).drop count := by
  induction blocks generalizing count with
  | nil => simp [plan, storedBytes, present]
  | cons block rest induction =>
      have inside : block.offset + block.size ≤ (store.files block.volumeNumber).length :=
        present block (List.mem_cons_self ..)
      have others : AllPresent store.files rest := fun other member =>
        present other (List.mem_cons_of_mem _ member)
      have length := slice_length_inside inside
      by_cases enough : count ≤ block.size
      · have front := slice_add (store.files block.volumeNumber) block.offset count
          (block.size - count)
        rw [Nat.add_sub_cancel' enough] at front
        have frontLength : (slice (store.files block.volumeNumber) block.offset count).length =
            count := slice_length_inside (by omega)
        simp only [plan, if_pos enough]
        refine ⟨?_, ?_, ?_, ?_⟩
        · intro request member
          rw [List.mem_singleton.mp member]
          simp only
          omega
        · intro other member
          rcases List.mem_cons.mp member with same | later
          · rw [same]
            simp only [skipBytes]
            omega
          · exact others other later
        · rw [stored_bytes_cons, stored_bytes_cons, front, List.append_assoc,
            List.take_left' frontLength]
          simp [storedBytes]
        · rw [stored_bytes_cons, stored_bytes_cons, front, List.append_assoc,
            List.drop_left' frontLength]
          rfl
      · obtain ⟨requests, tail, taken, left⟩ := induction others (count - block.size)
        have whole : (slice (store.files block.volumeNumber) block.offset block.size).take count =
            slice (store.files block.volumeNumber) block.offset block.size :=
          List.take_of_length_le (by omega)
        have nothing : (slice (store.files block.volumeNumber) block.offset block.size).drop count =
            [] := List.drop_eq_nil_of_le (by omega)
        simp only [plan, if_neg enough]
        refine ⟨?_, tail, ?_, ?_⟩
        · intro request member
          rcases List.mem_cons.mp member with same | later
          · rw [same]
            exact inside
          · exact requests request later
        · rw [stored_bytes_cons, stored_bytes_cons, taken, List.take_append, length, whole]
        · rw [stored_bytes_cons, left, List.drop_append, length, nothing, List.nil_append]

theorem delivered_present {requests : List Block} (present : AllPresent store.files requests) :
    requests.flatMap (delivered store) = storedBytes store.files requests := by
  unfold storedBytes
  apply List.flatMap_congr
  intro request member
  exact refill_slice_inside (present request member)

def deliveries (data : Bytes) : List UInt32 → List Bytes
  | [] => []
  | count :: counts => data.take count.toNat :: deliveries (data.drop count.toNat) counts

theorem read_bytes_steady (store : VolumeStore) (stream : BlockInputStream) (count : UInt32) :
    Steady (readBytes store stream count) := by
  unfold readBytes
  cases stream.isAtEnd
  · exact loop_steady (read_bytes_pass_steady store) _
  · exact steady_constant _

theorem read_sequence_steady (store : VolumeStore) (stream : BlockInputStream)
    (counts : List UInt32) : Steady (readSequence store stream counts) := by
  induction counts generalizing stream with
  | nil => exact steady_constant _
  | cons count counts induction =>
      apply steady_and_then (read_bytes_steady store stream count)
      intro result
      apply steady_and_then (induction result.2)
      intro rest
      exact steady_constant _

/-- Any sequence of requests delivers the stored bytes in order, and nothing
after them. -/
theorem read_sequence_present {stream : BlockInputStream} (inRange : InRange store stream.blocks)
    (present : AllPresent store.files (extents stream)) (counts : List UInt32)
    (output : Except Fault (List Bytes)) :
    Finishes (readSequence store stream counts) output ↔
      output = .ok (deliveries (storedBytes store.files (extents stream)) counts) := by
  induction counts generalizing stream output with
  | nil => exact finishes_constant _ output
  | cons count counts induction =>
      obtain ⟨requests, tail, taken, left⟩ := plan_present present count.toNat
      obtain ⟨final, blocks, rest, reads⟩ := (read_bytes_plan inRange count).answers
        fun request member => answered_of_inside (requests request member)
      have first := (reads _).mpr rfl
      have finalInRange : InRange store final.blocks := by
        rw [blocks]
        exact inRange
      have finalPresent : AllPresent store.files (extents final) := by
        rw [rest]
        exact tail
      have later := induction finalInRange finalPresent
      have steady : ∀ result : Bytes × BlockInputStream, Steady fun fuel =>
          (readSequence store result.2 counts fuel).andThen fun rest =>
            some (.ok (result.1 :: rest)) := by
        intro result
        apply steady_and_then (read_sequence_steady store result.2 counts)
        intro rest
        exact steady_constant _
      apply (finishes_and_then (read_bytes_steady store stream count) steady first output).trans
      apply (finishes_and_then (read_sequence_steady store final counts)
        (fun _ => steady_constant _) ((later _).mpr rfl) output).trans
      rw [finishes_constant, deliveries, rest, left, List.nil_append, delivered_present requests,
        taken]

end Present

end ACBackup.VolumeReading
