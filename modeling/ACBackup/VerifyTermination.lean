import ACBackup.IndexSerialization
import ACBackup.SnapshotChain

/-!
When `VerifyNode` answers. The volume loop retries a short read at the same
offset: a request that starts behind the end of its file is retried for ever,
and one that starts before it is filled with repetitions of the bytes that are
there, which the digest and the size may or may not reject.
-/

namespace ACBackup.VerifyTermination

open ACBackup.Library.Loop
open ACBackup.Platform ACBackup.NodeAttributes ACBackup.Indexing ACBackup.IndexSerialization
open ACBackup.VolumeReading ACBackup.FileReading ACBackup.SnapshotChain

set_option autoImplicit false

variable {runtime : Runtime} {algorithm : HashAlgorithm} {volumes : VolumeContents}
  {snapshot : Snapshot} {path : Path} {attributes : BackupNodeAttributes}

theorem open_for_verification (found : snapshot.index.lookup path = some attributes) :
    openForVerification runtime algorithm volumes snapshot path =
      if InRange (snapshot.fileSystem volumes) attributes.blocks then
        match attributes.hashes algorithm with
        | some digest =>
            .ok
              ({ blocks := attributes.blocks
                 decoder := decoderOf runtime attributes true
                 expected := some digest }, attributes.size)
        | none => .error .missingKey
      else .error .outOfRange := by
  obtain ⟨node, number, entry⟩ := NodeIndex.get_node_index_of_lookup found
  have nodeAttributes : snapshot.index.getNodeAttributes node = .ok attributes := by
    rw [NodeIndex.getNodeAttributes, entry]
  have opened := @open_file_for_reading runtime algorithm (snapshot.fileSystem volumes)
    snapshot.index node attributes nodeAttributes
  have linked : openLinkTargetAsStream runtime algorithm (snapshot.fileSystem volumes)
      snapshot.index path true =
        openFileForReading runtime algorithm (snapshot.fileSystem volumes) snapshot.index node
          true := by
    simp only [openLinkTargetAsStream, number, bind, Except.bind]
  simp only [openForVerification, number, nodeAttributes, linked, ite_self, opened, bind,
    Except.bind]
  by_cases inRange : InRange (snapshot.fileSystem volumes) attributes.blocks
  · simp only [if_pos inRange]
    cases attributes.hashes algorithm <;> rfl
  · simp only [if_neg inRange]

/-- The verdict of a node that can be opened, told by the plan of its requests. -/
theorem verify_node_finishes (found : snapshot.index.lookup path = some attributes)
    (inRange : InRange (snapshot.fileSystem volumes) attributes.blocks) {digest : String}
    (recorded : attributes.hashes algorithm = some digest) (outcome : Except Fault Bool) :
    Finishes (verifyNode runtime algorithm volumes snapshot path) outcome ↔
      ∃ passes result,
        flushPlan (snapshot.fileSystem volumes) runtime.bufferSize.toNat
          (decoderOf runtime attributes true) passes attributes.blocks [] = some result ∧
        outcome = verdict attributes.size
          (result.bind (checkDigest runtime algorithm (some digest))) := by
  have opened : openForVerification runtime algorithm volumes snapshot path =
      .ok
        ({ blocks := attributes.blocks
           decoder := decoderOf runtime attributes true
           expected := some digest }, attributes.size) := by
    rw [open_for_verification found, if_pos inRange, recorded]
  unfold verifyNode
  rw [opened]
  simp only
  rw [finishes_map]
  constructor
  · intro described
    obtain ⟨content, finishes, same⟩ := described
    obtain ⟨passes, result, planned, checked⟩ := (flush_to_finishes inRange content).mp finishes
    exact ⟨passes, result, planned, by rw [same, checked]⟩
  · intro described
    obtain ⟨passes, result, planned, same⟩ := described
    exact ⟨_, (flush_to_finishes inRange _).mpr ⟨passes, result, planned, rfl⟩, same⟩

theorem verify_node_raises (runtime : Runtime)
    (found : snapshot.index.lookup path = some attributes)
    (closed : ¬(InRange (snapshot.fileSystem volumes) attributes.blocks ∧
      ∃ digest, attributes.hashes algorithm = some digest)) :
    ∃ fault, ∀ outcome,
      Finishes (verifyNode runtime algorithm volumes snapshot path) outcome ↔
        outcome = .error fault := by
  unfold verifyNode
  rw [open_for_verification found]
  by_cases inRange : InRange (snapshot.fileSystem volumes) attributes.blocks
  · cases recorded : attributes.hashes algorithm with
    | some digest => exact absurd ⟨inRange, digest, recorded⟩ closed
    | none =>
        refine ⟨.missingKey, ?_⟩
        intro outcome
        simp only [if_pos inRange]
        exact finishes_constant _ outcome
  · refine ⟨.outOfRange, ?_⟩
    intro outcome
    simp only [if_neg inRange]
    exact finishes_constant _ outcome

/-- What the end of a chain makes `VerifyNode` return false for. -/
def Rejected (runtime : Runtime) (algorithm : HashAlgorithm) (digest : String) (size : Nat) :
    Except Fault Bytes → Prop
  | .ok content => runtime.hash algorithm content ≠ digest ∨ content.length ≠ size
  | .error fault => fault = .verificationFailed

theorem verdict_false_iff (digest : String) (size : Nat) (result : Except Fault Bytes) :
    Except.ok false = verdict size (result.bind (checkDigest runtime algorithm (some digest))) ↔
      Rejected runtime algorithm digest size result := by
  cases result with
  | error fault =>
      cases fault <;> simp [Except.bind, verdict, Rejected]
  | ok content =>
      by_cases matching : runtime.hash algorithm content = digest
      · simp [Except.bind, checkDigest, matching, verdict, Rejected, eq_comm]
      · simp [Except.bind, checkDigest, matching, verdict, Rejected]

/-- The stored bytes, with every extent that its file cuts short repeated until
it is full, are rejected before the plan comes to an extent that is not there
at all. -/
def RejectedAsRead (runtime : Runtime) (algorithm : HashAlgorithm) (volumes : VolumeContents)
    (snapshot : Snapshot) (attributes : BackupNodeAttributes) : Prop :=
  InRange (snapshot.fileSystem volumes) attributes.blocks ∧
    ∃ digest, attributes.hashes algorithm = some digest ∧
      ∃ passes result,
        flushPlan (snapshot.fileSystem volumes) runtime.bufferSize.toNat
          (decoderOf runtime attributes true) passes attributes.blocks [] = some result ∧
        Rejected runtime algorithm digest attributes.size result

theorem verify_node_false_iff (found : snapshot.index.lookup path = some attributes) :
    Finishes (verifyNode runtime algorithm volumes snapshot path) (.ok false) ↔
      RejectedAsRead runtime algorithm volumes snapshot attributes := by
  by_cases opens : InRange (snapshot.fileSystem volumes) attributes.blocks ∧
      ∃ digest, attributes.hashes algorithm = some digest
  · obtain ⟨inRange, digest, recorded⟩ := opens
    rw [verify_node_finishes found inRange recorded]
    constructor
    · intro described
      obtain ⟨passes, result, planned, same⟩ := described
      exact ⟨inRange, digest, recorded, passes, result, planned,
        (verdict_false_iff digest attributes.size result).mp same⟩
    · intro rejected
      obtain ⟨_, other, otherRecorded, passes, result, planned, rejects⟩ := rejected
      rw [recorded, Option.some.injEq] at otherRecorded
      subst otherRecorded
      exact ⟨passes, result, planned,
        (verdict_false_iff digest attributes.size result).mpr rejects⟩
  · obtain ⟨fault, raises⟩ := verify_node_raises runtime found opens
    rw [raises]
    constructor
    · intro impossible
      cases impossible
    · intro rejected
      exact absurd ⟨rejected.1, rejected.2.choose, rejected.2.choose_spec.1⟩ opens

theorem verify_node_present (found : snapshot.index.lookup path = some attributes)
    (present : AllPresent (volumes snapshot.name) attributes.blocks) :
    ∃ outcome, Finishes (verifyNode runtime algorithm volumes snapshot path) outcome := by
  by_cases opens : InRange (snapshot.fileSystem volumes) attributes.blocks ∧
      ∃ digest, attributes.hashes algorithm = some digest
  · obtain ⟨inRange, digest, recorded⟩ := opens
    obtain ⟨passes, result, planned⟩ := flush_plan_present
      (decoderOf runtime attributes true) runtime.bufferSize.toNat runtime.bufferSize_positive
      (show AllPresent (snapshot.fileSystem volumes).files attributes.blocks from present) []
    exact ⟨_, (verify_node_finishes found inRange recorded _).mpr ⟨passes, result, planned, rfl⟩⟩
  · obtain ⟨fault, raises⟩ := verify_node_raises runtime found opens
    exact ⟨.error fault, (raises _).mpr rfl⟩

/-- `VerifyNode` ends, and reports missing bytes, exactly when no byte is missing
or what it reads instead is rejected. -/
theorem verify_node_answers_iff (runtime : Runtime) (algorithm : HashAlgorithm)
    (volumes : VolumeContents) (snapshot : Snapshot) (path : Path)
    (attributes : BackupNodeAttributes)
    (found : snapshot.index.lookup path = some attributes) :
    ((∃ outcome, Finishes (verifyNode runtime algorithm volumes snapshot path) outcome) ∧
      (¬AllPresent (volumes snapshot.name) attributes.blocks →
        Finishes (verifyNode runtime algorithm volumes snapshot path) (.ok false))) ↔
      AllPresent (volumes snapshot.name) attributes.blocks ∨
        RejectedAsRead runtime algorithm volumes snapshot attributes := by
  constructor
  · intro answers
    by_cases present : AllPresent (volumes snapshot.name) attributes.blocks
    · exact .inl present
    · exact .inr ((verify_node_false_iff found).mp (answers.2 present))
  · intro condition
    rcases condition with present | rejected
    · exact ⟨verify_node_present found present, fun missing => absurd present missing⟩
    · have reports := (verify_node_false_iff found).mpr rejected
      exact ⟨⟨.ok false, reports⟩, fun _ => reports⟩

section Truncated

/-! One file of one byte in one volume. -/

def oneBytePath : Path := ⟨["a"]⟩

def oneByteAttributes : BackupNodeAttributes where
  type := .file
  size := 1
  permissions := posixPermissions 0 0 420
  lastModifiedTime := none
  ownsBlocks := true
  compressionSetting := none
  backReferenceTarget := none
  blocks := [{ volumeNumber := 0, offset := 0, size := 1 }]
  hashes := fun _ => some (spellingRuntime.hash .md5 [7])

def oneByteSnapshot : Snapshot where
  name := "snapshot"
  index := NodeIndex.empty.addNode oneBytePath oneByteAttributes

theorem one_byte_verified :
    (∃ outcome, Finishes
      (verifyNode spellingRuntime .md5 (fun _ _ => [7]) oneByteSnapshot oneBytePath) outcome) ∧
      (¬AllPresent (fun _ => [7]) oneByteAttributes.blocks →
        Finishes (verifyNode spellingRuntime .md5 (fun _ _ => [7]) oneByteSnapshot oneBytePath)
          (.ok false)) := by
  apply (verify_node_answers_iff spellingRuntime .md5 (fun _ _ => [7]) oneByteSnapshot oneBytePath
    oneByteAttributes rfl).mpr
  left
  decide

/-- A volume file that lost its only byte is read for ever. -/
theorem truncated_volume_unanswered :
    ¬∀ (runtime : Runtime) (algorithm : HashAlgorithm) (volumes : VolumeContents)
      (document : Xml) (snapshot : Snapshot) (path : Path) (attributes : BackupNodeAttributes),
      deserializeIndex document = .ok snapshot.index →
        snapshot.index.lookup path = some attributes → attributes.hasNodeData = true →
          (∃ outcome, Finishes (verifyNode runtime algorithm volumes snapshot path) outcome) ∧
            (¬AllPresent (volumes snapshot.name) attributes.blocks →
              Finishes (verifyNode runtime algorithm volumes snapshot path) (.ok false)) := by
  intro answers
  have loaded : deserializeIndex (serializeIndex oneByteSnapshot.index) =
      .ok oneByteSnapshot.index := deserialize_index_serialize oneByteSnapshot.index
  obtain ⟨⟨outcome, finishes⟩, _⟩ := answers spellingRuntime .md5 (fun _ _ => [])
    (serializeIndex oneByteSnapshot.index) oneByteSnapshot oneBytePath oneByteAttributes loaded rfl rfl
  obtain ⟨passes, result, planned, _⟩ := (verify_node_finishes rfl (by decide) rfl outcome).mp finishes
  cases passes with
  | zero => cases planned
  | succ passes => cases planned

end Truncated

end ACBackup.VerifyTermination
