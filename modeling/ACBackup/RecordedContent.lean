import ACBackup.SnapshotManager

/-!
What the nodes of a chain say about contents. A file or link records one
content, by its size and its digests; which content that is follows from the
routes of its history.
-/

namespace ACBackup.RecordedContent

open ACBackup.Library.Transition
open ACBackup.Platform ACBackup.NodeAttributes ACBackup.Indexing ACBackup.SourceIndex
open ACBackup.IndexSerialization ACBackup.VolumeReading ACBackup.SnapshotCreation
open ACBackup.SnapshotPlan ACBackup.SnapshotNodes ACBackup.SnapshotManager

set_option autoImplicit false

structure Records (runtime : Runtime) (attributes : BackupNodeAttributes) (content : Bytes) :
    Prop where
  isContent : attributes.type ≠ .directory
  size : attributes.size = content.length
  digests : ∀ algorithm digest, attributes.hashes algorithm = some digest →
    digest = runtime.hash algorithm content
  digested : ∃ algorithm digest, attributes.hashes algorithm = some digest
  blocks : attributes.blocks = [] → content = []

/-- A directory records nothing; `held` says which contents others may record. -/
inductive NodeDescribed (runtime : Runtime) (held : Bytes → Prop)
    (attributes : BackupNodeAttributes) : Prop
  | directory (isDirectory : attributes.type = .directory) (size : attributes.size = 0)
      (undigested : attributes.hashes = fun _ => none)
  | content (content : Bytes) (records : Records runtime attributes content)
      (holds : held content)

def Described (runtime : Runtime) (held : Path → Bytes → Prop) (index : BackupNodeIndex) : Prop :=
  ∀ path attributes, index.lookup path = some attributes →
    NodeDescribed runtime (held path) attributes

section Records

variable {runtime : Runtime} {attributes : BackupNodeAttributes} {content : Bytes}

/-- A digest that two nodes share ties them to the same content. -/
theorem records_shared_digest {algorithm : HashAlgorithm}
    (collisionFree : CollisionFree runtime algorithm) {other : BackupNodeAttributes}
    {otherContent : Bytes} (records : Records runtime attributes content)
    (otherRecords : Records runtime other otherContent) {digest : String}
    (recorded : attributes.hashes algorithm = some digest)
    (otherRecorded : other.hashes algorithm = some digest) : content = otherContent := by
  apply collisionFree
  rw [← records.digests algorithm digest recorded,
    ← otherRecords.digests algorithm digest otherRecorded]

theorem described_has_data {held : Bytes → Prop}
    (described : NodeDescribed runtime held attributes) (empty : attributes.blocks = []) :
    attributes.hasNodeData = true := by
  cases described with
  | directory isDirectory size undigested => simp [BackupNodeAttributes.hasNodeData, size]
  | content content records holds =>
      have none := records.blocks empty
      simp [BackupNodeAttributes.hasNodeData, records.size, none]

end Records

section NewEntries

variable {runtime : Runtime} {last : Option BackupNodeIndex} {lastIndex : BackupNodeIndex}
  {entry : Entry} {oldHeld newHeld : Path → Bytes → Prop} {path oldPath : Path}
  {attributes : FileSystemNodeAttributes} {old made : BackupNodeAttributes}

theorem described_taken (oldDescribed : NodeDescribed runtime (oldHeld oldPath) old)
    (type : made.type = attributes.type) (size : made.size = attributes.size)
    (hashes : made.hashes = old.hashes) (blocks : made.blocks = old.blocks)
    (directory : old.type = .directory → attributes.type = .directory)
    (content : ∀ content, Records runtime old content → oldHeld oldPath content →
      attributes.type ≠ .directory ∧ attributes.size = content.length ∧ newHeld path content) :
    NodeDescribed runtime (newHeld path) (reloaded made) := by
  cases oldDescribed with
  | directory isDirectory oldSize undigested =>
      have madeDirectory : made.type = .directory := type.trans (directory isDirectory)
      refine NodeDescribed.directory madeDirectory ?_ (hashes.trans undigested)
      simp only [reloaded, if_pos madeDirectory]
  | content content' records holds =>
      obtain ⟨isContent, sized, held⟩ := content content' records holds
      have madeContent : made.type ≠ .directory := type ▸ isContent
      apply NodeDescribed.content content' _ held
      refine ⟨madeContent, ?_, ?_, ?_, ?_⟩
      · simp only [reloaded, if_neg madeContent, size, sized]
      · intro algorithm digest recorded
        exact records.digests algorithm digest (hashes ▸ recorded)
      · obtain ⟨algorithm, digest, recorded⟩ := records.digested
        exact ⟨algorithm, digest, (congrFun hashes algorithm).trans recorded⟩
      · intro empty
        exact records.blocks (blocks.symm.trans empty)

theorem described_origin (collisionFree : CollisionFree runtime entry.call.hashAlgorithm)
    (before : ∀ lastIndex, last = some lastIndex → Described runtime oldHeld lastIndex)
    (read : newHeld path (entry.call.source.content path))
    (kept : ∀ lastIndex old content, last = some lastIndex → attributes.type ≠ .directory →
      lastIndex.lookup path = some old →
      attributes.equals old.toFileSystemNodeAttributes = true → oldHeld path content →
      newHeld path content)
    (taken : takenOverFrom runtime entry.call.hashAlgorithm last entry.call.source path attributes =
      some (oldPath, old))
    (known : attributes.equals old.toFileSystemNodeAttributes = true ∨
      (entry.call.source.content path).length = attributes.size) :
    NodeDescribed runtime (oldHeld oldPath) old ∧
      (old.type = .directory → attributes.type = .directory) ∧
      ∀ content, Records runtime old content → oldHeld oldPath content →
        attributes.type ≠ .directory ∧ attributes.size = content.length ∧
          newHeld path content := by
  cases last with
  | none => cases taken
  | some lastIndex =>
      obtain ⟨present, reason⟩ := taken_over_from_some taken
      have described := before lastIndex rfl oldPath old present
      refine ⟨described, ?_⟩
      rcases reason with ⟨rfl, equals⟩ | ⟨isContent, recorded⟩
      · obtain ⟨sameType, sameSize, _⟩ := (equals_iff _ _).mp equals
        refine ⟨fun directory => sameType.trans directory, ?_⟩
        intro content records holds
        have isContent : attributes.type ≠ .directory := sameType ▸ records.isContent
        exact ⟨isContent, sameSize.trans records.size,
          kept lastIndex old content rfl isContent present equals holds⟩
      · constructor
        · intro directory
          cases described with
          | directory _ _ undigested =>
              rw [undigested] at recorded
              cases recorded
          | content _ records _ => exact absurd directory records.isContent
        · intro content records holds
          have same : entry.call.source.content path = content :=
            collisionFree (records.digests _ _ recorded)
          refine ⟨isContent, ?_, same ▸ read⟩
          rcases known with equals | sized
          · exact ((equals_iff _ _).mp equals).2.1.trans records.size
          · rw [← sized, same]

theorem described_stored {algorithm : HashAlgorithm} {content : Bytes}
    {held : Bytes → Prop} (isContent : made.type ≠ .directory) (size : made.size = content.length)
    (hashes : made.hashes =
      Function.update (fun _ => none) algorithm (some (runtime.hash algorithm content)))
    (blocks : made.blocks = [] → content = []) (holds : held content) :
    NodeDescribed runtime held (reloaded made) := by
  apply NodeDescribed.content content _ holds
  refine ⟨isContent, ?_, ?_, ?_, blocks⟩
  · simp only [reloaded, if_neg isContent, size]
  · intro other digest recorded
    have listed : made.hashes other = some digest := recorded
    by_cases same : other = algorithm
    · rw [hashes, same, Function.update_self, Option.some.injEq] at listed
      rw [same, listed]
    · rw [hashes, Function.update_of_ne same] at listed
      cases listed
  · exact ⟨algorithm, _, (congrFun hashes algorithm).trans (Function.update_self ..)⟩

/-- One call keeps the description: what it read is held, and what it took over
without reading is still held. -/
theorem described_new_entry (collisionFree : CollisionFree runtime entry.call.hashAlgorithm)
    (new : NewEntry runtime last entry)
    (before : ∀ lastIndex, last = some lastIndex → Described runtime oldHeld lastIndex)
    (read : ∀ path, newHeld path (entry.call.source.content path))
    (kept : ∀ lastIndex path attributes old content, last = some lastIndex →
      entry.call.source.index.lookup path = some attributes → attributes.type ≠ .directory →
      lastIndex.lookup path = some old →
      attributes.equals old.toFileSystemNodeAttributes = true → oldHeld path content →
      newHeld path content) : Described runtime newHeld entry.index := by
  intro path loaded found
  obtain ⟨created, attributes, made, _, _, _, sourced, route, rfl⟩ := new_entry_node new found
  have keptHere : ∀ lastIndex old content, last = some lastIndex →
      attributes.type ≠ .directory → lastIndex.lookup path = some old →
      attributes.equals old.toFileSystemNodeAttributes = true → oldHeld path content →
      newHeld path content := fun lastIndex old content same =>
    kept lastIndex path attributes old content same sourced
  cases route with
  | directory isDirectory anew =>
      apply NodeDescribed.directory isDirectory
      · exact if_pos isDirectory
      · rfl
  | stored isContent sized anew blocks ownsBlocks owned inRange present bytes =>
      apply described_stored isContent sized.symm rfl _ (read path)
      intro empty
      have none : blocks = [] := empty
      rw [none] at bytes
      exact store_content_empty bytes.symm
  | inPlace old taken known =>
      obtain ⟨described, directory, content⟩ :=
        described_origin collisionFree before (read path) keptHere taken known
      exact described_taken described rfl rfl rfl rfl directory content
  | moved oldPath old different taken sized =>
      obtain ⟨described, directory, content⟩ :=
        described_origin collisionFree before (read path) keptHere taken (.inr sized)
      exact described_taken described rfl rfl rfl rfl directory content

end NewEntries

/-- The contents that the nodes of any chain record are recorded consistently. -/
theorem described_reachable {runtime : Runtime} {allowed : Chain → Call → Prop}
    (collisionFree : ∀ chain call, allowed chain call →
      CollisionFree runtime call.hashAlgorithm) {chain : Chain}
    (reachable : (backups runtime).Reachable allowed chain) :
    ∀ entry ∈ chain, Described runtime (fun _ _ => True) entry.index := by
  apply entries_reachable (fun entry => Described runtime (fun _ _ => True) entry.index) _ reachable
  intro before entry _ older permitted new
  apply described_new_entry (collisionFree before entry.call permitted) new
  · intro lastIndex last
    obtain ⟨lastEntry, member, same⟩ := last_index_some last
    exact same ▸ older lastEntry member
  · intro _
    trivial
  · intro _ _ _ _ _ _ _ _ _ _ _
    trivial

def Digested (algorithm : HashAlgorithm) (index : BackupNodeIndex) : Prop :=
  ∀ path attributes, index.lookup path = some attributes → attributes.type ≠ .directory →
    ∃ digest, attributes.hashes algorithm = some digest

/-- The files and links of a new snapshot are digested when those that are taken
over are and all others are stored with the algorithm. -/
theorem digested_by_routes {runtime : Runtime} {last : Option BackupNodeIndex} {entry : Entry}
    {algorithm : HashAlgorithm} (new : NewEntry runtime last entry)
    (stored : ∀ path attributes, entry.call.source.index.lookup path = some attributes →
      attributes.type ≠ .directory →
      takenOverFrom runtime entry.call.hashAlgorithm last entry.call.source path attributes =
        none → entry.call.hashAlgorithm = algorithm)
    (taken : ∀ path attributes oldPath old, entry.call.source.index.lookup path = some attributes →
      attributes.type ≠ .directory →
      takenOverFrom runtime entry.call.hashAlgorithm last entry.call.source path attributes =
        some (oldPath, old) → ∃ digest, old.hashes algorithm = some digest) :
    Digested algorithm entry.index := by
  intro path loaded found isContent
  obtain ⟨created, attributes, made, _, _, _, sourced, route, rfl⟩ := new_entry_node new found
  cases route with
  | directory isDirectory anew => exact absurd isDirectory isContent
  | stored _ _ anew =>
      rw [← stored path attributes sourced isContent anew]
      refine ⟨runtime.hash entry.call.hashAlgorithm (entry.call.source.content path), ?_⟩
      simp only [reloaded, Function.update_self]
  | inPlace old origin known => exact taken path attributes path old sourced isContent origin
  | moved oldPath old different origin sized =>
      exact taken path attributes oldPath old sourced isContent origin

theorem digested_new_entry {runtime : Runtime} {last : Option BackupNodeIndex} {entry : Entry}
    (new : NewEntry runtime last entry)
    (before : ∀ lastIndex, last = some lastIndex →
      Digested entry.call.hashAlgorithm lastIndex) :
    Digested entry.call.hashAlgorithm entry.index := by
  apply digested_by_routes new (fun _ _ _ _ _ => rfl)
  intro path attributes oldPath old _ isContent taken
  cases last with
  | none => cases taken
  | some lastIndex =>
      obtain ⟨present, reason⟩ := taken_over_from_some taken
      rcases reason with ⟨_, equals⟩ | ⟨_, recorded⟩
      · apply before lastIndex rfl oldPath old present
        exact ((equals_iff _ _).mp equals).1 ▸ isContent
      · exact ⟨_, recorded⟩

theorem digested_reachable {runtime : Runtime} {algorithm : HashAlgorithm}
    {allowed : Chain → Call → Prop}
    (fixed : ∀ chain call, allowed chain call → call.hashAlgorithm = algorithm) {chain : Chain}
    (reachable : (backups runtime).Reachable allowed chain) :
    ∀ entry ∈ chain, Digested algorithm entry.index := by
  apply entries_reachable (fun entry => Digested algorithm entry.index) _ reachable
  intro before entry _ older permitted new
  have same := fixed before entry.call permitted
  rw [← same]
  apply digested_new_entry new
  intro lastIndex last
  obtain ⟨lastEntry, member, index⟩ := last_index_some last
  rw [same, ← index]
  exact older lastEntry member

end ACBackup.RecordedContent
