import ACBackup.VolumeReading

/-!
The input chain of a stored file: the block stream, a buffer, the decompressor
when the node was compressed, and the check of the recorded digest. Flushing the
chain reads buffer after buffer until the decoder has all it needs.
-/

namespace ACBackup.FileReading

open ACBackup.Library.Loop
open ACBackup.Platform ACBackup.NodeAttributes ACBackup.Indexing ACBackup.VolumeReading

set_option autoImplicit false

structure InputChain where
  blocks : List Block
  decoder : Decoder
  expected : Option String

def decoderOf (runtime : Runtime) (attributes : BackupNodeAttributes) (verify : Bool) : Decoder :=
  match attributes.compressionSetting with
  | none => plainDecoder
  | some .lzma => runtime.lzma verify

/-- `IncrementVolumeCounters` raises for a block in a volume beyond the array. -/
def openFileForReading (runtime : Runtime) (algorithm : HashAlgorithm) (store : VolumeStore)
    (index : BackupNodeIndex) (fileIndex : Nat) (verify : Bool) : Except Fault InputChain := do
  let attributes ← index.getNodeAttributes fileIndex
  if InRange store attributes.blocks then
    let expected ← if verify then (attributes.hash algorithm).map some else .ok none
    .ok
      { blocks := attributes.blocks
        decoder := decoderOf runtime attributes verify
        expected := expected }
  else .error .outOfRange

def openLinkTargetAsStream (runtime : Runtime) (algorithm : HashAlgorithm) (store : VolumeStore)
    (index : BackupNodeIndex) (linkPath : Path) (verify : Bool) : Except Fault InputChain := do
  let nodeIndex ← index.getNodeIndex linkPath
  openFileForReading runtime algorithm store index nodeIndex verify

def flushPass (runtime : Runtime) (store : VolumeStore) (decoder : Decoder) (fuel : Nat)
    (state : BlockInputStream × Bytes) : Attempt Fault (Pass (BlockInputStream × Bytes) Bytes) :=
  (readBytes store state.1 runtime.bufferSize fuel).andThen fun result =>
    match decoder.next (state.2 ++ result.1) result.1.isEmpty with
    | .more => some (.ok (.again (result.2, state.2 ++ result.1)))
    | .done content => some (.ok (.done content))
    | .failed fault => some (.error fault)

/-- `CheckedHashingInputStream` at the end of the stream. -/
def checkDigest (runtime : Runtime) (algorithm : HashAlgorithm) (expected : Option String)
    (content : Bytes) : Except Fault Bytes :=
  match expected with
  | none => .ok content
  | some digest =>
      if runtime.hash algorithm content = digest then .ok content else .error .verificationFailed

/-- `FlushTo` over the whole chain: the bytes that reach the output. -/
def flushTo (runtime : Runtime) (algorithm : HashAlgorithm) (store : VolumeStore)
    (chain : InputChain) (fuel : Nat) : Attempt Fault Bytes :=
  (loop (flushPass runtime store chain.decoder) fuel (openBlocks chain.blocks, [])).andThen
    fun content => some (checkDigest runtime algorithm chain.expected content)

/-- What the loop of `FlushTo` obtains in a number of passes, with the volume
loops replaced by the plan of their requests. -/
def flushPlan (store : VolumeStore) (bufferSize : Nat) (decoder : Decoder) :
    Nat → List Block → Bytes → Option (Except Fault Bytes)
  | 0, _, _ => none
  | passes + 1, front, raw =>
      let planned := plan front bufferSize
      if ∀ request ∈ planned.1, Answered store request then
        let chunk := planned.1.flatMap (delivered store)
        match decoder.next (raw ++ chunk) chunk.isEmpty with
        | .more => flushPlan store bufferSize decoder passes planned.2 (raw ++ chunk)
        | .done content => some (.ok content)
        | .failed fault => some (.error fault)
      else none

theorem open_file_for_reading {runtime : Runtime} {algorithm : HashAlgorithm}
    {store : VolumeStore} {index : BackupNodeIndex} {node : Nat}
    {attributes : BackupNodeAttributes} (entry : index.getNodeAttributes node = .ok attributes) :
    openFileForReading runtime algorithm store index node true =
      if InRange store attributes.blocks then
        match attributes.hashes algorithm with
        | some digest =>
            .ok
              { blocks := attributes.blocks
                decoder := decoderOf runtime attributes true
                expected := some digest }
        | none => .error .missingKey
      else .error .outOfRange := by
  simp only [openFileForReading, entry, bind, Except.bind, if_true]
  split
  · cases recorded : attributes.hashes algorithm <;>
      simp [BackupNodeAttributes.hash, recorded, Except.map]
  · rfl

section Flush

variable {runtime : Runtime} {store : VolumeStore} {decoder : Decoder}

theorem flush_pass_steady (runtime : Runtime) (store : VolumeStore) (decoder : Decoder)
    (state : BlockInputStream × Bytes) :
    Steady fun fuel => flushPass runtime store decoder fuel state := by
  apply steady_and_then (read_bytes_steady store state.1 runtime.bufferSize)
  intro result
  cases decoder.next (state.2 ++ result.1) result.1.isEmpty <;> exact steady_constant _

theorem flush_pass_answered {stream : BlockInputStream} (inRange : InRange store stream.blocks)
    (raw : Bytes)
    (answered : ∀ request ∈ (plan (extents stream) runtime.bufferSize.toNat).1,
      Answered store request) :
    ∃ final : BlockInputStream, final.blocks = stream.blocks ∧
      extents final = (plan (extents stream) runtime.bufferSize.toNat).2 ∧
      ∀ outcome, Finishes (fun fuel => flushPass runtime store decoder fuel (stream, raw))
        outcome ↔
          outcome =
            match decoder.next
                (raw ++ (plan (extents stream) runtime.bufferSize.toNat).1.flatMap
                  (delivered store))
                ((plan (extents stream) runtime.bufferSize.toNat).1.flatMap
                  (delivered store)).isEmpty with
            | .more => .ok (.again (final,
                raw ++ (plan (extents stream) runtime.bufferSize.toNat).1.flatMap
                  (delivered store)))
            | .done content => .ok (.done content)
            | .failed fault => .error fault := by
  obtain ⟨final, blocks, rest, reads⟩ :=
    (read_bytes_plan inRange runtime.bufferSize).answers answered
  refine ⟨final, blocks, rest, ?_⟩
  intro outcome
  have first := (reads _).mpr rfl
  rw [List.nil_append] at first
  have steady : ∀ result : Bytes × BlockInputStream, Steady fun _ : Nat =>
      (match decoder.next (raw ++ result.1) result.1.isEmpty with
        | .more => some (.ok (.again (result.2, raw ++ result.1)))
        | .done content => some (.ok (.done content))
        | .failed fault => some (.error fault) :
          Attempt Fault (Pass (BlockInputStream × Bytes) Bytes)) := by
    intro result
    exact steady_constant _
  apply (finishes_and_then (read_bytes_steady store stream runtime.bufferSize) steady first
    outcome).trans
  simp only
  cases decoder.next _ _ <;> exact finishes_constant _ outcome

theorem flush_pass_requests {stream : BlockInputStream} (inRange : InRange store stream.blocks)
    {raw : Bytes} {outcome : Except Fault (Pass (BlockInputStream × Bytes) Bytes)}
    (finishes : Finishes (fun fuel => flushPass runtime store decoder fuel (stream, raw))
      outcome) (request : Block)
    (member : request ∈ (plan (extents stream) runtime.bufferSize.toNat).1) :
    Answered store request := by
  by_contra unanswered
  obtain ⟨result, read⟩ := finishes_first finishes
  apply (read_bytes_plan inRange runtime.bufferSize).hangs _ result read
  intro answered
  exact unanswered (answered request member)

theorem flush_of_plan (passes : Nat) {stream : BlockInputStream}
    (inRange : InRange store stream.blocks) {raw : Bytes} {outcome : Except Fault Bytes}
    (planned : flushPlan store runtime.bufferSize.toNat decoder passes (extents stream) raw =
      some outcome) :
    Finishes (fun fuel => loop (flushPass runtime store decoder) fuel (stream, raw)) outcome := by
  have steady := flush_pass_steady runtime store decoder
  induction passes generalizing stream raw with
  | zero => simp [flushPlan] at planned
  | succ passes induction =>
      rw [flushPlan] at planned
      by_cases answered : ∀ request ∈ (plan (extents stream) runtime.bufferSize.toNat).1,
          Answered store request
      · obtain ⟨final, blocks, rest, pass⟩ := flush_pass_answered inRange raw answered
        rw [if_pos answered] at planned
        cases next : decoder.next
            (raw ++ (plan (extents stream) runtime.bufferSize.toNat).1.flatMap (delivered store))
            ((plan (extents stream) runtime.bufferSize.toNat).1.flatMap (delivered store)).isEmpty with
        | more =>
            simp only [next] at planned
            rw [next] at pass
            rw [← rest] at planned
            have finalInRange : InRange store final.blocks := by
              rw [blocks]
              exact inRange
            exact (loop_again steady ((pass _).mpr rfl) outcome).mpr
              (induction finalInRange planned)
        | done content =>
            simp only [next, Option.some.injEq] at planned pass
            exact (loop_done steady ((pass _).mpr rfl) outcome).mpr planned.symm
        | failed fault =>
            simp only [next, Option.some.injEq] at planned pass
            exact (loop_fault steady ((pass _).mpr rfl) outcome).mpr planned.symm
      · rw [if_neg answered] at planned
        cases planned

theorem plan_of_flush (fuel : Nat) {stream : BlockInputStream}
    (inRange : InRange store stream.blocks) {raw : Bytes} {outcome : Except Fault Bytes}
    (run : loop (flushPass runtime store decoder) fuel (stream, raw) = some outcome) :
    ∃ passes, flushPlan store runtime.bufferSize.toNat decoder passes (extents stream) raw =
      some outcome := by
  induction fuel generalizing stream raw with
  | zero => simp [loop] at run
  | succ fuel induction =>
      cases body : flushPass runtime store decoder fuel (stream, raw) with
      | none => simp [loop, body] at run
      | some result =>
          have finished : Finishes (fun fuel => flushPass runtime store decoder fuel (stream, raw))
              result := ⟨fuel, body⟩
          have answered := flush_pass_requests inRange finished
          obtain ⟨final, blocks, rest, pass⟩ := flush_pass_answered inRange raw answered
          have same := (pass result).mp finished
          cases next : decoder.next
              (raw ++ (plan (extents stream) runtime.bufferSize.toNat).1.flatMap
                (delivered store))
              ((plan (extents stream) runtime.bufferSize.toNat).1.flatMap
                (delivered store)).isEmpty with
          | more =>
              simp only [next] at same
              simp only [loop, body, same] at run
              have finalInRange : InRange store final.blocks := by
                rw [blocks]
                exact inRange
              obtain ⟨passes, planned⟩ := induction finalInRange run
              rw [rest] at planned
              refine ⟨passes + 1, ?_⟩
              simp only [flushPlan, if_pos answered, next]
              exact planned
          | done content =>
              simp only [next] at same
              simp only [loop, body, same] at run
              refine ⟨1, ?_⟩
              simp only [flushPlan, if_pos answered, next]
              exact run
          | failed fault =>
              simp only [next] at same
              simp only [loop, body, same] at run
              refine ⟨1, ?_⟩
              simp only [flushPlan, if_pos answered, next]
              exact run

/-- The loop of `FlushTo` ends as its plan does, and runs for ever when the plan
comes to a request that no file can answer. -/
theorem flush_plan_finishes {blocks : List Block} (inRange : InRange store blocks)
    (outcome : Except Fault Bytes) :
    Finishes (fun fuel => loop (flushPass runtime store decoder) fuel (openBlocks blocks, []))
      outcome ↔
        ∃ passes, flushPlan store runtime.bufferSize.toNat decoder passes blocks [] =
          some outcome := by
  have front := extents_open blocks
  constructor
  · intro finishes
    obtain ⟨fuel, run⟩ := finishes
    have planned := plan_of_flush fuel inRange run
    rw [front] at planned
    exact planned
  · intro planned
    obtain ⟨passes, planned⟩ := planned
    rw [← front] at planned
    exact flush_of_plan passes inRange planned

theorem flush_to_steady (runtime : Runtime) (algorithm : HashAlgorithm) (store : VolumeStore)
    (chain : InputChain) : Steady (flushTo runtime algorithm store chain) := by
  apply steady_and_then
    (loop_steady (flush_pass_steady runtime store chain.decoder) (openBlocks chain.blocks, []))
  intro content
  exact steady_constant _

/-- A whole chain, the check of the digest included. -/
theorem flush_to_finishes {algorithm : HashAlgorithm} {chain : InputChain}
    (inRange : InRange store chain.blocks) (outcome : Except Fault Bytes) :
    Finishes (flushTo runtime algorithm store chain) outcome ↔
      ∃ passes result,
        flushPlan store runtime.bufferSize.toNat chain.decoder passes chain.blocks [] =
          some result ∧
        outcome = result.bind (checkDigest runtime algorithm chain.expected) := by
  have steady := loop_steady (flush_pass_steady runtime store chain.decoder)
    (openBlocks chain.blocks, [])
  have checked : ∀ content : Bytes, Steady fun _ : Nat =>
      (some (checkDigest runtime algorithm chain.expected content) : Attempt Fault Bytes) :=
    fun _ => steady_constant _
  constructor
  · intro finishes
    obtain ⟨result, first⟩ := finishes_first finishes
    obtain ⟨passes, planned⟩ := (flush_plan_finishes inRange result).mp first
    refine ⟨passes, result, planned, ?_⟩
    cases result with
    | error fault =>
        obtain ⟨fuel, run⟩ := finishes
        obtain ⟨enough, first⟩ := first
        have large := steady_and_then steady checked fuel (max fuel enough) outcome
          (Nat.le_max_left _ _) run
        have firstLarge := steady enough (max fuel enough) _ (Nat.le_max_right _ _) first
        simp only [firstLarge, Attempt.andThen, Option.some.injEq] at large
        exact large.symm
    | ok content =>
        exact (finishes_constant _ _).mp ((finishes_and_then steady checked first outcome).mp finishes)
  · intro described
    obtain ⟨passes, result, planned, rfl⟩ := described
    have first := (flush_plan_finishes inRange result).mpr ⟨passes, planned⟩
    cases result with
    | error fault =>
        obtain ⟨fuel, run⟩ := first
        exact ⟨fuel, by simp only [flushTo, run, Attempt.andThen]; rfl⟩
    | ok content =>
        exact (finishes_and_then steady checked first _).mpr ((finishes_constant _ _).mpr rfl)

/-- With all bytes present the decoder is told the end at the latest, and stops. -/
theorem flush_plan_present (decoder : Decoder) (bufferSize : Nat) (positive : 0 < bufferSize) {blocks : List Block}
    (present : AllPresent store.files blocks) (raw : Bytes) :
    ∃ passes result, flushPlan store bufferSize decoder passes blocks raw = some result := by
  induction size : (storedBytes store.files blocks).length using Nat.strong_induction_on
    generalizing blocks raw with
  | _ count induction =>
      obtain ⟨requests, tail, taken, left⟩ := plan_present present bufferSize
      have answered : ∀ request ∈ (plan blocks bufferSize).1, Answered store request :=
        fun request member => answered_of_inside (requests request member)
      have chunk := (delivered_present requests).trans taken
      cases next : decoder.next (raw ++ (storedBytes store.files blocks).take bufferSize)
          ((storedBytes store.files blocks).take bufferSize).isEmpty with
      | more =>
          have nonempty : storedBytes store.files blocks ≠ [] := by
            intro empty
            rw [empty, List.take_nil] at next
            exact decoder.stops _ next
          have length := List.length_pos_iff.mpr nonempty
          have smaller : (storedBytes store.files (plan blocks bufferSize).2).length < count := by
            rw [left, List.length_drop]
            omega
          obtain ⟨passes, result, planned⟩ := induction _ smaller tail
            (raw ++ (storedBytes store.files blocks).take bufferSize) rfl
          refine ⟨passes + 1, result, ?_⟩
          simp only [flushPlan, if_pos answered, chunk, next]
          exact planned
      | done content =>
          refine ⟨1, .ok content, ?_⟩
          simp only [flushPlan, if_pos answered, chunk, next]
      | failed fault =>
          refine ⟨1, .error fault, ?_⟩
          simp only [flushPlan, if_pos answered, chunk, next]

end Flush

end ACBackup.FileReading
