import ACBackup.MountedTree
import ACBackup.SourceRecovery

/-!
The queries that `VirtualSnapshotFilesystem` answers for a mounted snapshot. Together
they show the source: which paths there are, what each is, what a directory holds
and what a file or link contains.
-/

namespace ACBackup.MountedFileSystem

open ACBackup.Library.FlatTree ACBackup.Library.Loop ACBackup.Library.Transition
open ACBackup.Platform ACBackup.NodeAttributes ACBackup.Indexing ACBackup.FileReading
open ACBackup.SnapshotChain ACBackup.SnapshotManager ACBackup.RecordedContent
open ACBackup.DataResolution ACBackup.SnapshotVerification ACBackup.SnapshotMirror
open ACBackup.SourceScan ACBackup.MountedTree ACBackup.StoredContent ACBackup.SourceRecovery

set_option autoImplicit false

structure VirtualFileInfo extends FileInfo where
  storedSize : Nat
  deriving DecidableEq, Repr

def queryFileInfo (snapshot : Snapshot) (path : Path) :
    Except Fault (Option VirtualFileInfo) :=
  if snapshot.index.hasNodeIndex path then do
    let nodeIndex ← snapshot.index.getNodeIndex path
    let attributes ← snapshot.index.getNodeAttributes nodeIndex
    .ok (some
      { type := attributes.type
        size := attributes.size
        lastModifiedTime := attributes.lastModifiedTime
        permissions := attributes.permissions
        storedSize := attributes.computeSumOfBlockSizes })
  else .ok none

section Queries

variable {snapshot : Snapshot} {path : Path}

theorem query_file_info_ok {attributes : BackupNodeAttributes}
    (found : snapshot.index.lookup path = some attributes) :
    queryFileInfo snapshot path = .ok (some
      { type := attributes.type
        size := attributes.size
        lastModifiedTime := attributes.lastModifiedTime
        permissions := attributes.permissions
        storedSize := attributes.computeSumOfBlockSizes }) := by
  obtain ⟨node, number, entry⟩ := NodeIndex.get_node_index_of_lookup found
  have known : snapshot.index.hasNodeIndex path = true :=
    (NodeIndex.has_node_index_iff _ _).mpr ⟨attributes, found⟩
  have nodeAttributes : snapshot.index.getNodeAttributes node = .ok attributes :=
    (NodeIndex.get_node_attributes_ok _ _ _).mpr ⟨path, entry⟩
  simp only [queryFileInfo, known, if_true, number, nodeAttributes, bind, Except.bind]

theorem queries_absent (runtime : Runtime) (algorithm : HashAlgorithm)
    (volumes : VolumeContents) (previous : List Snapshot)
    (absent : snapshot.index.lookup path = none) :
    queryFileInfo snapshot path = .ok none ∧ enumerateChildren snapshot path = .ok none ∧
      openMountedFile runtime algorithm volumes snapshot previous path = .ok none := by
  have unknown : snapshot.index.hasNodeIndex path = false := by
    rw [Bool.eq_false_iff]
    intro known
    obtain ⟨attributes, found⟩ := (NodeIndex.has_node_index_iff _ _).mp known
    rw [absent] at found
    cases found
  refine ⟨?_, ?_, ?_⟩
  · rw [queryFileInfo, unknown]
    rfl
  · rw [enumerateChildren, if_pos unknown]
  · rw [openMountedFile, unknown]
    rfl

end Queries

/-- Every query on a mounted snapshot, at whatever path, is answered as the source
would have answered it when the snapshot was taken. -/
theorem mounted_queries_mirror_source (runtime : Runtime) (algorithm : HashAlgorithm)
    (collisionFree : ∀ algorithm, CollisionFree runtime algorithm)
    (decompresses : Decompresses runtime) (chain : Chain)
    (reachable : (backups runtime).Reachable (after (Regular algorithm)) chain)
    (current : HistoryCurrent runtime chain) (entry : Entry) (older : Chain)
    (suffix : entry :: older <:+ chain) (path : Path) :
    (entry.call.source.index.lookup path = none →
      queryFileInfo entry.snapshot path = .ok none ∧
      enumerateChildren entry.snapshot path = .ok none ∧
      openMountedFile runtime algorithm (volumesOf chain) entry.snapshot
        (older.map Entry.snapshot) path = .ok none) ∧
    ∀ attributes, entry.call.source.index.lookup path = some attributes →
      (∃ info, queryFileInfo entry.snapshot path = .ok (some info) ∧
        info.type = attributes.type ∧ info.size = attributes.size ∧
        info.lastModifiedTime = attributes.lastModifiedTime) ∧
      (∃ children, enumerateChildren entry.snapshot path = .ok (some children) ∧
        children.Perm ((childrenIn pathTree Prod.fst
          (typedPaths entry.call.source.index.nodes) path).map entryOf)) ∧
      (attributes.type ≠ .directory → ∃ found stream,
        openMountedFile runtime algorithm (volumesOf chain) entry.snapshot
          (older.map Entry.snapshot) path = .ok (some (found, stream)) ∧
        (entry.call.source.content path).length = attributes.size ∧
        ∀ outcome, Finishes (flushTo runtime algorithm (found.snapshot.fileSystem (volumesOf chain))
          stream) outcome ↔ outcome = .ok (entry.call.source.content path)) := by
  have member : entry ∈ chain := suffix.subset (List.mem_cons_self ..)
  obtain ⟨last, new⟩ := new_entry_reachable reachable entry member
  have mirrors := mirrors_reachable (collisionFree algorithm) (regular_unmodified reachable) entry
    member
  constructor
  · intro outside
    have absent : entry.index.lookup path = none := by
      rw [NodeIndex.lookup_eq_none, (new_entry_paths new).mem_iff, ← NodeIndex.lookup_eq_none]
      exact outside
    exact queries_absent runtime algorithm (volumesOf chain) (older.map Entry.snapshot) absent
  · intro attributes sourced
    obtain ⟨loaded, found⟩ := new_entry_lookup new sourced
    obtain ⟨other, otherSourced, equals⟩ := mirrors.attributes path loaded found
    rw [sourced, Option.some.injEq] at otherSourced
    subst otherSourced
    obtain ⟨type, size, lastModifiedTime⟩ := (equals_iff _ _).mp equals
    refine ⟨⟨_, query_file_info_ok found, type, size, lastModifiedTime⟩,
      ⟨_, enumerate_children_ok found, ?_⟩, ?_⟩
    · exact ((new_entry_shown new).filter _).map entryOf
    · intro isContent
      obtain ⟨node, otherLoaded, dataNode, _, located⟩ := source_located collisionFree
        reachable current suffix sourced isContent
      have intact := located_intact located collisionFree decompresses reachable suffix
      obtain ⟨stream, opened, flushed⟩ := located_opened located (volumesOf chain) intact
      have mounted := @open_mounted_file runtime algorithm (volumesOf chain) entry.snapshot
        (older.map Entry.snapshot) node path otherLoaded located.nodeEntry dataNode located.search
      rw [opened] at mounted
      refine ⟨dataNode, stream, mounted, ?_, flushed⟩
      have same := NodeIndex.lookup_of_get located.nodeEntry
      rw [found, Option.some.injEq] at same
      rw [← located.records.size, ← same, size]

theorem moved_file_mounted :
    ∃ newest first, (backups spellingRuntime).run [] [firstBackup, moveBackup] =
        some [newest, first] ∧
      queryFileInfo newest.snapshot storedFile.path = .ok none ∧
      ∃ found stream, openMountedFile spellingRuntime .md5 (volumesOf [newest, first])
          newest.snapshot [first.snapshot] movedFile.path = .ok (some (found, stream)) ∧
        ∀ outcome, Finishes (flushTo spellingRuntime .md5
          (found.snapshot.fileSystem (volumesOf [newest, first])) stream) outcome ↔
            outcome = .ok [1, 2] := by
  obtain ⟨newest, first, run, newestCall, _, reachable, current⟩ := moved_file_history
  have queries := mounted_queries_mirror_source spellingRuntime .md5 spelling_collision_free
    spelling_decompresses [newest, first] reachable current newest [first] (List.suffix_refl _)
  have outside : newest.call.source.index.lookup storedFile.path = none := by
    rw [newestCall]
    decide +kernel
  have sourced : newest.call.source.index.lookup movedFile.path = some movedFile.attributes := by
    rw [newestCall]
    decide +kernel
  have content : newest.call.source.content movedFile.path = [1, 2] := by
    rw [newestCall]
    decide +kernel
  obtain ⟨found, stream, opened, _, flushed⟩ :=
    ((queries movedFile.path).2 movedFile.attributes sourced).2.2 nofun
  rw [content] at flushed
  exact ⟨newest, first, run, ((queries storedFile.path).1 outside).1, found, stream, opened,
    flushed⟩

end ACBackup.MountedFileSystem
