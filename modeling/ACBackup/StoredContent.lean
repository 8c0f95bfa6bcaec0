import ACBackup.LocalVerification
import ACBackup.VolumeTable

/-!
What a call stored for a node is what the node delivers, as long as the volume
files are as the call left them: behind the decompressor stands the content that
was read from the source.
-/

namespace ACBackup.StoredContent

open ACBackup.Library.Loop ACBackup.Library.Transition
open ACBackup.Platform ACBackup.NodeAttributes ACBackup.Indexing ACBackup.IndexSerialization
open ACBackup.VolumeReading ACBackup.FileReading ACBackup.SnapshotChain
open ACBackup.SnapshotCreation ACBackup.SnapshotNodes ACBackup.SnapshotManager
open ACBackup.RecordedContent ACBackup.ChainOrder ACBackup.VolumeTable ACBackup.VerifyTermination
open ACBackup.SnapshotVerification

set_option autoImplicit false

/-- However much of the stream a decoder has seen, it delivers nothing but the
content, and at the end of the stream it delivers it. -/
structure Delivers (decoder : Decoder) (stream content : Bytes) : Prop where
  early : ∀ front, front <+: stream →
    decoder.next front false = .more ∨ decoder.next front false = .done content
  ended : decoder.next stream true = .done content

/-- A decompressor gives back what was compressed, whether it verifies or not. -/
def Decompresses (runtime : Runtime) : Prop :=
  ∀ verify level content, Delivers (runtime.lzma verify) (runtime.compress level content) content

theorem spelling_decompresses : Decompresses spellingRuntime := by
  intro verify level content
  exact ⟨fun _ _ => .inl rfl, rfl⟩

theorem plain_delivers (content : Bytes) : Delivers plainDecoder content content :=
  ⟨fun _ _ => .inl rfl, rfl⟩

section Flush

variable {store : VolumeStore} {decoder : Decoder} {content : Bytes}

/-- The stream is cut into requests of the buffer size; the decoder is told of the
end by the first request that brings nothing. -/
theorem flush_plan_delivers {bufferSize : Nat} (positive : 0 < bufferSize) (passes : Nat)
    {blocks : List Block} (present : AllPresent store.files blocks) {raw : Bytes}
    (delivers : Delivers decoder (raw ++ storedBytes store.files blocks) content)
    {outcome : Except Fault Bytes}
    (planned : flushPlan store bufferSize decoder passes blocks raw = some outcome) :
    outcome = .ok content := by
  induction passes generalizing blocks raw with
  | zero => cases planned
  | succ passes induction =>
      obtain ⟨requests, tail, taken, left⟩ := plan_present present bufferSize
      have answered : ∀ request ∈ (plan blocks bufferSize).1, Answered store request :=
        fun request member => answered_of_inside (requests request member)
      have chunk := (delivered_present requests).trans taken
      simp only [flushPlan, if_pos answered, chunk] at planned
      cases ended : ((storedBytes store.files blocks).take bufferSize).isEmpty with
      | true =>
          have nothing : storedBytes store.files blocks = [] := by
            rw [List.isEmpty_iff, List.take_eq_nil_iff] at ended
            exact ended.resolve_left positive.ne'
          rw [nothing, List.append_nil] at delivers
          rw [nothing, List.take_nil, List.isEmpty_nil, List.append_nil, delivers.ended] at planned
          exact (Option.some.inj planned).symm
      | false =>
          rw [ended] at planned
          have front : raw ++ (storedBytes store.files blocks).take bufferSize <+:
              raw ++ storedBytes store.files blocks :=
            (List.prefix_append_right_inj raw).mpr (List.take_prefix _ _)
          rcases delivers.early _ front with more | done
          · rw [more] at planned
            apply induction tail _ planned
            rw [left, List.append_assoc, List.take_append_drop]
            exact delivers
          · rw [done] at planned
            exact (Option.some.inj planned).symm

end Flush

structure Intact (runtime : Runtime) (store : VolumeStore) (attributes : BackupNodeAttributes)
    (content : Bytes) : Prop where
  inRange : InRange store attributes.blocks
  present : AllPresent store.files attributes.blocks
  delivers : ∀ verify, Delivers (decoderOf runtime attributes verify)
    (storedBytes store.files attributes.blocks) content

section Reading

variable {runtime : Runtime} {algorithm : HashAlgorithm} {volumes : VolumeContents}
  {attributes : BackupNodeAttributes} {content : Bytes}

theorem intact_flushed {store : VolumeStore} (intact : Intact runtime store attributes content)
    (verify : Bool) (expected : Option String) (outcome : Except Fault Bytes) :
    Finishes (flushTo runtime algorithm store
      { blocks := attributes.blocks
        decoder := decoderOf runtime attributes verify
        expected := expected }) outcome ↔
      outcome = checkDigest runtime algorithm expected content := by
  obtain ⟨passes, reached, planned⟩ := flush_plan_present (decoderOf runtime attributes verify)
    runtime.bufferSize.toNat runtime.bufferSize_positive intact.present []
  have delivered := flush_plan_delivers runtime.bufferSize_positive passes intact.present
    (intact.delivers verify) planned
  apply finishes_iff (flush_to_steady _ _ _ _)
  apply (flush_to_finishes intact.inRange _).mpr
  refine ⟨passes, reached, planned, ?_⟩
  rw [delivered]
  rfl

/-- A node whose stored bytes are intact delivers its content and verifies. -/
theorem intact_node {snapshot : Snapshot} {path : Path}
    (found : snapshot.index.lookup path = some attributes)
    (intact : Intact runtime (snapshot.fileSystem volumes) attributes content)
    (records : Records runtime attributes content) {digest : String}
    (recorded : attributes.hashes algorithm = some digest) (distance : Nat) :
    (∀ outcome, Finishes (verifyNode runtime algorithm volumes snapshot path) outcome ↔
      outcome = .ok true) ∧
    ∃ stream, openData runtime algorithm volumes
        { distance := distance, snapshot := snapshot, path := path } = .ok stream ∧
      ∀ outcome, Finishes (flushTo runtime algorithm (snapshot.fileSystem volumes) stream)
        outcome ↔ outcome = .ok content := by
  obtain ⟨node, number, entry⟩ := NodeIndex.get_node_index_of_lookup found
  have nodeAttributes : snapshot.index.getNodeAttributes node = .ok attributes :=
    (NodeIndex.get_node_attributes_ok _ _ _).mpr ⟨path, entry⟩
  have reading := @open_file_for_reading runtime algorithm (snapshot.fileSystem volumes)
    snapshot.index node attributes nodeAttributes
  have opened := @open_for_verification runtime algorithm volumes snapshot path attributes found
  simp only [if_pos intact.inRange, recorded] at reading opened
  have checked : checkDigest runtime algorithm (some digest) content = .ok content := by
    rw [checkDigest, if_pos (records.digests algorithm digest recorded).symm]
  have flushed : ∀ outcome, Finishes (flushTo runtime algorithm (snapshot.fileSystem volumes)
      { blocks := attributes.blocks
        decoder := decoderOf runtime attributes true
        expected := some digest }) outcome ↔ outcome = .ok content := by
    intro outcome
    rw [intact_flushed intact true, checked]
  constructor
  · apply finishes_iff
    · exact LocalVerification.verify_node_steady snapshot path
    · obtain ⟨fuel, run⟩ := (flushed (.ok content)).mpr rfl
      refine ⟨fuel, ?_⟩
      simp only [verifyNode, opened, run, Option.map_some, verdict, records.size, decide_true]
  · refine ⟨_, ?_, flushed⟩
    simp only [openData, number, bind, Except.bind]
    exact reading

end Reading

section Entries

variable {runtime : Runtime} {last : Option BackupNodeIndex} {entry : Entry} {path : Path}
  {loaded : BackupNodeAttributes}

theorem store_content_delivers (decompresses : Decompresses runtime) (level : Option Nat)
    (content : Bytes) {attributes : BackupNodeAttributes}
    (setting : attributes.compressionSetting =
      (storeContent runtime level content).compressionSetting) (verify : Bool) :
    Delivers (decoderOf runtime attributes verify) (storeContent runtime level content).bytes
      content := by
  cases level with
  | none =>
      simp only [storeContent] at setting
      simp only [decoderOf, setting, storeContent]
      exact plain_delivers content
  | some level =>
      simp only [storeContent] at setting
      simp only [decoderOf, setting, storeContent]
      exact decompresses verify level content

theorem empty_node_intact (new : NewEntry runtime last entry)
    (found : entry.index.lookup path = some loaded) (nothing : loaded.blocks = [])
    (store : VolumeStore) : Intact runtime store loaded [] := by
  obtain ⟨created, sourceAttributes, made, _, _, _, _, _, rfl⟩ := new_entry_node new found
  have noBlocks : made.blocks = [] := nothing
  have setting : (reloaded made).compressionSetting = none := by
    simp only [reloaded, if_pos noBlocks]
  refine ⟨?_, ?_, ?_⟩
  · simp [InRange, nothing]
  · simp [AllPresent, nothing]
  · intro verify
    simp only [decoderOf, setting, storedBytes, nothing, List.flatMap_nil]
    exact plain_delivers []

/-- A file or link with its data in the snapshot delivers what it records. -/
theorem data_node_intact (decompresses : Decompresses runtime) (new : NewEntry runtime last entry)
    (fits : TableFits runtime entry) (found : entry.index.lookup path = some loaded)
    {held : Bytes → Prop} (described : NodeDescribed runtime held loaded)
    (isContent : loaded.type ≠ .directory) (hasData : loaded.hasNodeData = true) :
    ∃ content, Records runtime loaded content ∧
      Intact runtime (openForReading entry.files entry.index) loaded content := by
  cases described with
  | directory isDirectory => exact absurd isDirectory isContent
  | content content records holds =>
      by_cases zero : loaded.size = 0
      · have nothing := (fits.unstored path loaded found).size zero
        rw [records.blocks nothing] at records
        exact ⟨[], records, empty_node_intact new found nothing _⟩
      · have owns : loaded.ownsBlocks = true := by
          simpa [BackupNodeAttributes.hasNodeData, zero] using hasData
        obtain ⟨created, sourceAttributes, made, _, index, files, _, route, rfl⟩ :=
          new_entry_node new found
        cases route with
        | directory isDirectory anew => exact absurd isDirectory isContent
        | stored _ sized anew blocks ownsBlocks owned inRange present bytes =>
            have someBlocks : blocks ≠ [] := by
              intro none
              simp [reloaded, none] at owns
            refine ⟨entry.call.source.content path, ?_, ?_⟩
            · refine ⟨isContent, ?_, ?_, ?_, ?_⟩
              · simp only [reloaded] at isContent ⊢
                rw [if_neg isContent, sized]
              · intro algorithm digest recorded
                by_cases same : algorithm = entry.call.hashAlgorithm
                · subst same
                  simp only [reloaded, Function.update_self, Option.some.injEq] at recorded
                  exact recorded.symm
                · simp [reloaded, Function.update_of_ne same] at recorded
              · refine ⟨entry.call.hashAlgorithm,
                  runtime.hash entry.call.hashAlgorithm (entry.call.source.content path), ?_⟩
                simp only [reloaded, Function.update_self]
              · intro none
                exact absurd none someBlocks
            · rw [index, files]
              refine ⟨inRange, present, ?_⟩
              intro verify
              have stored : storedBytes (openForReading created.files
                  (created.index.mapAttributes reloaded)).files blocks = _ := bytes
              rw [show (reloaded _).blocks = blocks from rfl, stored]
              apply store_content_delivers decompresses
              simp only [reloaded, if_neg someBlocks]
        | inPlace old taken known => simp [reloaded] at owns
        | moved oldPath old different taken sized => simp [reloaded] at owns

end Entries

section Chains

variable {runtime : Runtime} {chain : Chain} {entry : Entry}

theorem volumes_of_entry (sorted : Sorted chain) (member : entry ∈ chain) :
    volumesOf chain entry.call.name = entry.files := by
  have first : chain.find? (fun other => other.call.name = entry.call.name) = some entry := by
    induction chain with
    | nil => cases member
    | cons newest older induction =>
        obtain ⟨below, sortedOlder⟩ := List.pairwise_cons.mp sorted
        rcases List.mem_cons.mp member with same | inOlder
        · rw [same]
          exact List.find?_cons_of_pos (by simp)
        · have differs : newest.call.name ≠ entry.call.name := by
            intro same
            have earlier := below entry inOlder
            rw [same] at earlier
            exact lt_irrefl _ earlier
          rw [List.find?_cons_of_neg (by simpa using differs)]
          exact induction sortedOlder inOlder
  funext number
  simp only [volumesOf, first]

theorem new_entry_reachable {allowed : Chain → Call → Prop}
    (reachable : (backups runtime).Reachable allowed chain) :
    ∀ entry ∈ chain, ∃ last, NewEntry runtime last entry := by
  apply entries_reachable (fun entry => ∃ last, NewEntry runtime last entry) _ reachable
  intro before entry _ _ _ new
  exact ⟨_, new⟩

theorem empty_digest_unique (collisionFree : ∀ algorithm, CollisionFree runtime algorithm) :
    EmptyDigestUnique runtime := by
  intro algorithm content same
  exact collisionFree algorithm same

/-- With the volume files as they were left, the data of a file or link is where its
snapshot has it. -/
theorem data_node_intact_reachable (collisionFree : ∀ algorithm, CollisionFree runtime algorithm)
    (decompresses : Decompresses runtime) {allowed : Chain → Call → Prop}
    (reachable : (backups runtime).Reachable allowed chain) (member : entry ∈ chain) {path : Path}
    {loaded : BackupNodeAttributes} (found : entry.index.lookup path = some loaded)
    (isContent : loaded.type ≠ .directory) (hasData : loaded.hasNodeData = true) :
    ∃ content, Records runtime loaded content ∧
      Intact runtime (entry.snapshot.fileSystem (volumesOf chain)) loaded content := by
  obtain ⟨last, new⟩ := new_entry_reachable reachable entry member
  have fits := table_fits_reachable (empty_digest_unique collisionFree) reachable entry member
  have described := described_reachable (fun _ call _ => collisionFree call.hashAlgorithm)
    reachable entry member path loaded found
  have store : entry.snapshot.fileSystem (volumesOf chain) =
      openForReading entry.files entry.index := by
    rw [Snapshot.fileSystem]
    exact congrArg (openForReading · entry.index)
      (volumes_of_entry (ReadPaths.sorted_reachable reachable) member)
  rw [store]
  exact data_node_intact decompresses new fits found described isContent hasData

theorem data_node_verifies (collisionFree : ∀ algorithm, CollisionFree runtime algorithm)
    (decompresses : Decompresses runtime) {allowed : Chain → Call → Prop}
    (reachable : (backups runtime).Reachable allowed chain) (member : entry ∈ chain) {path : Path}
    {loaded : BackupNodeAttributes} (found : entry.index.lookup path = some loaded)
    (isContent : loaded.type ≠ .directory) (hasData : loaded.hasNodeData = true)
    {algorithm : HashAlgorithm} {digest : String}
    (recorded : loaded.hashes algorithm = some digest) (outcome : Except Fault Bool) :
    Finishes (verifyNode runtime algorithm (volumesOf chain) entry.snapshot path) outcome ↔
      outcome = .ok true := by
  obtain ⟨content, records, intact⟩ :=
    data_node_intact_reachable collisionFree decompresses reachable member found isContent hasData
  exact (@intact_node _ _ _ _ _ entry.snapshot _ found intact records _ recorded 0).1 outcome

end Chains

end ACBackup.StoredContent
