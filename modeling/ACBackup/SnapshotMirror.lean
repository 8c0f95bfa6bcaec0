import ACBackup.RecordedContent

/-!
A snapshot mirrors its source: the same paths with the same type, size and time,
and digests of the contents that the source has. Comparing the two again finds no
difference.
-/

namespace ACBackup.SnapshotMirror

open ACBackup.Library.Outcome ACBackup.Library.Tasks ACBackup.Library.Transition
open ACBackup.Platform ACBackup.NodeAttributes ACBackup.Indexing ACBackup.SourceIndex
open ACBackup.IndexSerialization ACBackup.DifferenceResolver ACBackup.SnapshotCreation
open ACBackup.SnapshotPlan ACBackup.SnapshotNodes ACBackup.SnapshotManager
open ACBackup.RecordedContent

set_option autoImplicit false

section Mirror

variable {runtime : Runtime} {last : Option BackupNodeIndex} {entry : Entry} {path : Path}
  {algorithm : HashAlgorithm}

theorem reloaded_equals {attributes : BackupNodeAttributes} {source : FileSystemNodeAttributes}
    (equals : attributes.toFileSystemNodeAttributes.equals source = true)
    (directorySize : source.type = .directory → source.size = 0) :
    (reloaded attributes).toFileSystemNodeAttributes.equals source = true := by
  rw [equals_iff] at equals ⊢
  refine ⟨equals.1, ?_, equals.2.2⟩
  by_cases directory : attributes.type = .directory
  · simp only [reloaded, if_pos directory]
    exact (directorySize (equals.1 ▸ directory)).symm
  · simp only [reloaded, if_neg directory]
    exact equals.2.1

/-- Every route records the type, the size and the time of the source. -/
theorem new_entry_mirrors (new : NewEntry runtime last entry) {loaded : BackupNodeAttributes}
    (found : entry.index.lookup path = some loaded) :
    ∃ attributes, entry.call.source.index.lookup path = some attributes ∧
      loaded.toFileSystemNodeAttributes.equals attributes = true := by
  obtain ⟨created, attributes, made, _, _, _, sourced, route, rfl⟩ := new_entry_node new found
  refine ⟨attributes, sourced, ?_⟩
  have member := (NodeIndex.lookup_eq_some _ _ _).mp sourced
  apply reloaded_equals _ (entry.call.source.directorySize (path, attributes) member)
  cases route with
  | directory isDirectory anew => exact equals_refl attributes
  | stored => exact equals_refl attributes
  | inPlace old taken known =>
      exact copy_from_equals old.toFileSystemNodeAttributes attributes
  | moved oldPath old different taken sized =>
      exact copy_from_equals old.toFileSystemNodeAttributes attributes

structure Mirrors (runtime : Runtime) (entry : Entry) : Prop where
  attributes : ∀ path loaded, entry.index.lookup path = some loaded →
    ∃ attributes, entry.call.source.index.lookup path = some attributes ∧
      loaded.toFileSystemNodeAttributes.equals attributes = true
  contents : Described runtime
    (fun path content => content = entry.call.source.content path) entry.index

theorem mirrored_digest (mirrors : Mirrors runtime entry) (digested : Digested algorithm entry.index)
    {loaded : BackupNodeAttributes} (found : entry.index.lookup path = some loaded)
    (isContent : loaded.type ≠ .directory) :
    loaded.hashes algorithm = some (runtime.hash algorithm (entry.call.source.content path)) := by
  obtain ⟨digest, recorded⟩ := digested path loaded found isContent
  cases mirrors.contents path loaded found with
  | directory isDirectory _ _ => exact absurd isDirectory isContent
  | content content records holds => rw [recorded, records.digests algorithm digest recorded, holds]

def Unmodified (algorithm : HashAlgorithm) (past : List Call) (call : Call) : Prop :=
  call.hashAlgorithm = algorithm ∧ ContentKept past call

theorem mirrors_new_entry (collisionFree : CollisionFree runtime algorithm) {chain : Chain}
    (mirrored : ∀ older ∈ chain, Mirrors runtime older)
    (permitted : after (Unmodified algorithm) chain entry.call)
    (new : NewEntry runtime (lastIndex chain) entry) : Mirrors runtime entry := by
  obtain ⟨fixed, kept⟩ := permitted
  refine ⟨fun path loaded found => new_entry_mirrors new found, ?_⟩
  cases chain with
  | nil =>
      have first : ∀ last, lastIndex [] = some last → Described runtime (fun _ _ => True) last := by
        intro last impossible
        cases impossible
      apply described_new_entry (fixed ▸ collisionFree) new first
      · intro path
        rfl
      · intro lastIndex path attributes old content impossible
        cases impossible
  | cons newest older =>
      have before := mirrored newest (List.mem_cons_self ..)
      apply described_new_entry (fixed ▸ collisionFree) new
      · intro lastIndex same
        cases same
        exact before.contents
      · intro path
        rfl
      · intro lastIndex path attributes old content same sourced isContent present equals held
        cases same
        obtain ⟨oldSource, oldSourced, oldEquals⟩ := before.attributes path old present
        have sourceMember := (NodeIndex.lookup_eq_some _ _ _).mp sourced
        have oldMember := (NodeIndex.lookup_eq_some _ _ _).mp oldSourced
        rw [held]
        exact (kept (path, attributes) sourceMember (path, oldSource) oldMember rfl isContent
          (equals_trans equals oldEquals)).symm

theorem mirrors_reachable (collisionFree : CollisionFree runtime algorithm) {chain : Chain}
    (reachable : (backups runtime).Reachable (after (Unmodified algorithm)) chain) :
    ∀ entry ∈ chain, Mirrors runtime entry := by
  apply entries_reachable (Mirrors runtime) _ reachable
  intro before entry _ older permitted new
  exact mirrors_new_entry collisionFree older permitted new

/-- Comparing a mirrored source with its snapshot finds nothing. -/
theorem no_difference_exists (new : NewEntry runtime last entry) (tasks : TaskOrder Nat) :
    ∃ difference, computeDifference runtime algorithm tasks (some entry.index) entry.call.source
        false = .ok difference ∧ difference.exist = false := by
  have sourceSame : ∀ node,
      nodeDiffers entry.call.source.index (fileSystemNodes entry.index) node = false := by
    intro node
    rw [Bool.eq_false_iff, ne_eq, node_differs_iff]
    intro differs
    obtain ⟨path, attributes, sourceEntry, unequal⟩ := differs
    have sourced := NodeIndex.lookup_of_get sourceEntry
    obtain ⟨loaded, found⟩ := new_entry_lookup new sourced
    obtain ⟨other, otherSourced, equals⟩ := new_entry_mirrors new found
    rw [sourced] at otherSourced
    cases otherSourced
    have present : (fileSystemNodes entry.index).lookup path =
        some loaded.toFileSystemNodeAttributes := by
      rw [fileSystemNodes, NodeIndex.lookup_map_attributes, found, Option.map_some]
    have impossible := unequal _ present
    rw [equals_symm equals] at impossible
    cases impossible
  have snapshotSame : ∀ node,
      nodeDiffers (fileSystemNodes entry.index) entry.call.source.index node = false := by
    intro node
    rw [Bool.eq_false_iff, ne_eq, node_differs_iff]
    intro differs
    obtain ⟨path, attributes, loadedEntry, unequal⟩ := differs
    have present := NodeIndex.lookup_of_get loadedEntry
    rw [fileSystemNodes, NodeIndex.lookup_map_attributes, Option.map_eq_some_iff] at present
    obtain ⟨loaded, found, rfl⟩ := present
    obtain ⟨other, sourced, equals⟩ := new_entry_mirrors new found
    rw [unequal other sourced] at equals
    cases equals
  have same := @compute_diff_same tasks algorithm entry.index
    (sourceRight runtime algorithm entry.call.source) snapshotSame sourceSame
  refine ⟨NodeIndexDifferences.empty, ?_, rfl⟩
  rw [SnapshotCreation.computeDifference, same]
  rfl

/-- Whatever the history, a new snapshot has exactly the nodes of its source,
with their type, size and time and the digests of their contents, and a second
look finds no difference. -/
theorem snapshot_mirrors_source (runtime : Runtime) (algorithm : HashAlgorithm)
    (collisionFree : CollisionFree runtime algorithm) (chain next : Chain) (call : Call)
    (reachable : (backups runtime).Reachable (after (Unmodified algorithm)) chain)
    (permitted : Unmodified algorithm (calls chain) call)
    (taken : (backups runtime).step chain call = some next) :
    ∃ created loaded, createSnapshot runtime (lastIndex chain) call = some created ∧
      deserializeIndex (serializeIndex created.index) = .ok loaded ∧
      { call := call, index := loaded, files := created.files } ∈ next ∧
      (loaded.nodes.map Prod.fst).Perm (call.source.index.nodes.map Prod.fst) ∧
      (∀ path attributes new, call.source.index.lookup path = some attributes →
        loaded.lookup path = some new →
          new.type = attributes.type ∧ new.size = attributes.size ∧
          new.lastModifiedTime = attributes.lastModifiedTime ∧
          (new.type ≠ .directory →
            new.hashes algorithm = some (runtime.hash algorithm (call.source.content path)))) ∧
      ∀ tasks, ∃ difference, SnapshotCreation.computeDifference runtime algorithm tasks
        (some loaded) call.source false = .ok difference ∧ difference.exist = false := by
  have after : (backups runtime).Reachable (after (Unmodified algorithm)) next :=
    .step reachable permitted taken
  have mirrored := mirrors_reachable collisionFree after
  have digested := digested_reachable (fun _ _ unmodified => unmodified.1) after
  obtain ⟨entry, rfl, new, rfl⟩ := add_snapshot_some taken
  have member : entry ∈ insertEntry entry chain := (mem_insert_entry entry entry chain).mpr (.inl rfl)
  obtain ⟨created, run, index, files⟩ := id new
  refine ⟨created, entry.index, run, ?_, files ▸ member, new_entry_paths new, ?_,
    fun tasks => no_difference_exists new tasks⟩
  · rw [deserialize_index_serialize, index]
  · intro path attributes loaded sourced found
    obtain ⟨other, otherSourced, equals⟩ := (mirrored entry member).attributes path loaded found
    rw [sourced] at otherSourced
    cases otherSourced
    obtain ⟨type, size, time⟩ := (equals_iff _ _).mp equals
    exact ⟨type, size, time, mirrored_digest (mirrored entry member) (digested entry member) found⟩

theorem second_backup_taken :
    ∃ chain next, (backups spellingRuntime).step [] firstBackup = some chain ∧
      (backups spellingRuntime).step chain moveBackup = some next ∧
      (backups spellingRuntime).Reachable (after (Unmodified .md5)) chain ∧
      Unmodified .md5 (calls chain) moveBackup := by
  have complete : ((backups spellingRuntime).run [] [firstBackup, moveBackup]).isSome = true := by
    decide +kernel
  obtain ⟨final, run⟩ := Option.isSome_iff_exists.mp complete
  obtain ⟨chain, first, later⟩ := System.run_cons_some run
  obtain ⟨next, second, _⟩ := System.run_cons_some later
  have start : after (Unmodified .md5) [] firstBackup := ⟨rfl, trivial⟩
  have added : addSnapshot spellingRuntime [] firstBackup = some chain := first
  have history := first_backup_calls added
  have kept : ContentKept [firstBackup] moveBackup := by decide +kernel
  exact ⟨chain, next, first, second, .step .start start first, rfl, history ▸ kept⟩

theorem moved_file_mirrored :
    ∃ chain next, (backups spellingRuntime).step [] firstBackup = some chain ∧
      (backups spellingRuntime).step chain moveBackup = some next ∧
      ∃ (created : Created) (loaded : BackupNodeIndex),
        deserializeIndex (serializeIndex created.index) = .ok loaded ∧
        ({ call := moveBackup, index := loaded, files := created.files } : Entry) ∈ next ∧
        (loaded.nodes.map Prod.fst).Perm (moveBackup.source.index.nodes.map Prod.fst) := by
  obtain ⟨chain, next, first, second, reachable, permitted⟩ := second_backup_taken
  obtain ⟨created, loaded, _, decoded, member, paths, _⟩ :=
    snapshot_mirrors_source spellingRuntime .md5 (spelling_collision_free _) chain next moveBackup
      reachable permitted second
  exact ⟨chain, next, first, second, created, loaded, decoded, member, paths⟩

end Mirror

end ACBackup.SnapshotMirror
