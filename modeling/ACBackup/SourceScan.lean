import ACBackup.Library.FlatTree
import ACBackup.Indexing

/-!
How `OSFileSystemNodeIndex` reads a source directory: every directory is indexed
before what is in it, files that a filter matches are passed over, and a link that
points out of the source ends the scan. Every node but the root comes to have its
directory in the index.
-/

namespace ACBackup.SourceScan

open ACBackup.Library.FlatTree
open ACBackup.Platform ACBackup.NodeAttributes ACBackup.Indexing

set_option autoImplicit false

def pathTree : Hierarchy Path where
  root := Path.root
  parent := Path.parent
  level path := path.components.length
  parent_root := rfl
  level_parent path inner := by
    have whole := congrArg (fun path => path.components.length) (parent_child inner)
    simpa [Path.child] using whole.symm

theorem child_level (path : Path) (name : String) :
    pathTree.level (path.child name) = pathTree.level path + 1 := by
  simp [pathTree, Path.child]

/-- What is in a directory, in the order of the enumeration. Only an entry that
is a directory has anything below it that is looked at. -/
inductive Entries where
  | nil
  | entry (name : String) (info : FileInfo) (children rest : Entries)
  deriving DecidableEq, Repr

namespace Entries

def names : Entries → List String
  | nil => []
  | entry name _ _ rest => name :: rest.names

def Distinct : Entries → Prop
  | nil => True
  | entry name _ children rest => name ∉ rest.names ∧ children.Distinct ∧ rest.Distinct

def decideDistinct : (entries : Entries) → Decidable entries.Distinct
  | nil => inferInstanceAs (Decidable True)
  | entry name _ children rest =>
      have := decideDistinct children
      have := decideDistinct rest
      inferInstanceAs (Decidable (name ∉ rest.names ∧ children.Distinct ∧ rest.Distinct))

instance (entries : Entries) : Decidable entries.Distinct := decideDistinct entries

end Entries

structure SourceDirectory where
  info : FileInfo
  entries : Entries
  isDirectory : info.type = .directory
  distinct : entries.Distinct

structure LinkTarget where
  isRelative : Bool
  path : Path

/-- What else the scan asks: a filter looks at a file by its path on the disk. -/
structure SourceFileSystem where
  basePath : Path
  fileFilters : List (Path → Bool)
  readLinkTarget : Path → LinkTarget
  isParentOf : Path → Path → Bool

namespace SourceFileSystem

def mapNodePathToFileSystemPath (fileSystem : SourceFileSystem) (nodePath : Path) : Path :=
  fileSystem.basePath.concat nodePath

def shouldFileBeIndexed (fileSystem : SourceFileSystem) (filePath : Path) : Bool :=
  fileSystem.fileFilters.all fun filter => !filter (fileSystem.mapNodePathToFileSystemPath filePath)

/-- `VerifyThatLinkPointsInsideBackupPath`, which raises where this is `false`. -/
def linkPointsInsideBackupPath (fileSystem : SourceFileSystem) (filePath : Path) : Bool :=
  let target := fileSystem.readLinkTarget (fileSystem.mapNodePathToFileSystemPath filePath)
  let absoluteTarget :=
    if target.isRelative then
      fileSystem.mapNodePathToFileSystemPath (filePath.parent.concat target.path)
    else target.path
  fileSystem.isParentOf fileSystem.basePath absoluteTarget

/-- `indexDirectoryChildren` is called for a directory only. The index is that of
the scan so far, and `none` stands for `LinkPointsOutOfIndexDirException`. -/
def indexFile (fileSystem : SourceFileSystem) (filePath : Path) (info : FileInfo)
    (indexDirectoryChildren : FileSystemNodeIndex → Option FileSystemNodeIndex)
    (index : FileSystemNodeIndex) : Option FileSystemNodeIndex :=
  if info.type = .file ∧ fileSystem.shouldFileBeIndexed filePath = false then some index
  else if info.type = .link ∧ fileSystem.linkPointsInsideBackupPath filePath = false then none
  else if info.type = .directory then
    indexDirectoryChildren (index.addNode filePath (.ofFileInfo info))
  else some (index.addNode filePath (.ofFileInfo info))

def indexDirectoryChildren (fileSystem : SourceFileSystem) (path : Path) :
    Entries → FileSystemNodeIndex → Option FileSystemNodeIndex
  | .nil, index => some index
  | .entry name info children rest, index =>
      (fileSystem.indexFile (path.child name) info
        (fun index => fileSystem.indexDirectoryChildren (path.child name) children index)
        index).bind fun next => fileSystem.indexDirectoryChildren path rest next

def generateIndex (fileSystem : SourceFileSystem) (directory : SourceDirectory) :
    Option FileSystemNodeIndex :=
  fileSystem.indexFile Path.root directory.info
    (fun index => fileSystem.indexDirectoryChildren Path.root directory.entries index)
    NodeIndex.empty

end SourceFileSystem

structure IndexedEntry where
  path : Path
  name : String
  info : FileInfo
  deriving DecidableEq, Repr

def IndexedEntry.node (entry : IndexedEntry) : Path × FileSystemNodeAttributes :=
  (entry.path, .ofFileInfo entry.info)

def indexedEntries (fileSystem : SourceFileSystem) (path : Path) : Entries → List IndexedEntry
  | .nil => []
  | .entry name info children rest =>
      (if info.type = .file ∧ fileSystem.shouldFileBeIndexed (path.child name) = false then []
        else
          { path := path.child name, name := name, info := info } ::
            if info.type = .directory then indexedEntries fileSystem (path.child name) children
            else []) ++
        indexedEntries fileSystem path rest

section Scan

variable {fileSystem : SourceFileSystem} {path : Path} {entries : Entries}

/-- A scan that comes to its end adds the entries in the order of the scan. -/
theorem index_directory_children_adds {index next : FileSystemNodeIndex}
    (scanned : fileSystem.indexDirectoryChildren path entries index = some next) :
    next = ((indexedEntries fileSystem path entries).map IndexedEntry.node).foldl
      (fun index entry => index.addNode entry.1 entry.2) index := by
  induction entries generalizing path index next with
  | nil =>
      simp only [SourceFileSystem.indexDirectoryChildren, Option.some.injEq] at scanned
      exact scanned.symm
  | entry name info children rest inChildren inRest =>
      rw [SourceFileSystem.indexDirectoryChildren, Option.bind_eq_some_iff] at scanned
      obtain ⟨middle, first, later⟩ := scanned
      rw [inRest later, indexedEntries, List.map_append, List.foldl_append]
      congr 1
      unfold SourceFileSystem.indexFile at first
      by_cases filtered :
          info.type = .file ∧ fileSystem.shouldFileBeIndexed (path.child name) = false
      · rw [if_pos filtered] at first ⊢
        exact (Option.some.inj first).symm
      · rw [if_neg filtered] at first ⊢
        by_cases pointsOut :
            info.type = .link ∧ fileSystem.linkPointsInsideBackupPath (path.child name) = false
        · rw [if_pos pointsOut] at first
          cases first
        · rw [if_neg pointsOut] at first
          by_cases directory : info.type = .directory
          · rw [if_pos directory] at first ⊢
            exact inChildren first
          · rw [if_neg directory] at first ⊢
            exact (Option.some.inj first).symm

theorem indexed_entries_rule (property : Path → Entries → IndexedEntry → Prop)
    (here : ∀ path name info children rest,
      property path (.entry name info children rest) ⟨path.child name, name, info⟩)
    (inside : ∀ path name info children rest entry, info.type = .directory →
      ¬(info.type = .file ∧ fileSystem.shouldFileBeIndexed (path.child name) = false) →
      property (path.child name) children entry →
        property path (.entry name info children rest) entry)
    (further : ∀ path name info children rest entry, property path rest entry →
      property path (.entry name info children rest) entry)
    {entry : IndexedEntry} (listed : entry ∈ indexedEntries fileSystem path entries) :
    property path entries entry := by
  induction entries generalizing path with
  | nil => cases listed
  | entry name info children rest inChildren inRest =>
      rw [indexedEntries, List.mem_append] at listed
      rcases listed with listed | listed
      · by_cases filtered :
            info.type = .file ∧ fileSystem.shouldFileBeIndexed (path.child name) = false
        · rw [if_pos filtered] at listed
          cases listed
        · rw [if_neg filtered, List.mem_cons] at listed
          rcases listed with same | below
          · rw [same]
            exact here path name info children rest
          · by_cases directory : info.type = .directory
            · rw [if_pos directory] at below
              exact inside path name info children rest entry directory filtered (inChildren below)
            · rw [if_neg directory] at below
              cases below
      · exact further path name info children rest entry (inRest listed)

theorem indexed_entry_place {entry : IndexedEntry}
    (listed : entry ∈ indexedEntries fileSystem path entries) :
    ∃ name ∈ entries.names,
      entry.path = path.child name ∨ Below pathTree (path.child name) entry.path := by
  refine @indexed_entries_rule fileSystem path entries
    (fun path entries entry => ∃ name ∈ entries.names,
      entry.path = path.child name ∨ Below pathTree (path.child name) entry.path)
    ?_ ?_ ?_ entry listed
  · intro path name info children rest
    exact ⟨name, List.mem_cons_self .., .inl rfl⟩
  · intro path name info children rest entry _ _ place
    obtain ⟨below, _, reached⟩ := place
    refine ⟨name, List.mem_cons_self .., .inr ?_⟩
    apply below_iff_child.mpr
    exact ⟨(path.child name).child below, child_ne_root _ _, child_parent _ _, reached⟩
  · intro path name info children rest entry place
    obtain ⟨other, member, reached⟩ := place
    exact ⟨other, List.mem_cons_of_mem _ member, reached⟩

theorem indexed_entry_name {entry : IndexedEntry}
    (listed : entry ∈ indexedEntries fileSystem path entries) :
    entry.path ≠ Path.root ∧ entry.path.name = entry.name :=
  @indexed_entries_rule fileSystem path entries
    (fun _ _ entry => entry.path ≠ Path.root ∧ entry.path.name = entry.name)
    (fun path name _ _ _ => ⟨child_ne_root path name, child_name path name⟩)
    (fun _ _ _ _ _ _ _ _ known => known) (fun _ _ _ _ _ _ known => known) entry listed

theorem indexed_entry_parent {entry : IndexedEntry}
    (listed : entry ∈ indexedEntries fileSystem path entries) :
    entry.path.parent = path ∨ ∃ directory ∈ indexedEntries fileSystem path entries,
      directory.path = entry.path.parent ∧ directory.info.type = .directory := by
  refine @indexed_entries_rule fileSystem path entries
    (fun path entries entry => entry.path.parent = path ∨
      ∃ directory ∈ indexedEntries fileSystem path entries,
        directory.path = entry.path.parent ∧ directory.info.type = .directory)
    ?_ ?_ ?_ entry listed
  · intro path name info children rest
    exact .inl (child_parent path name)
  · intro path name info children rest entry isDirectory kept parent
    refine .inr ?_
    simp only [indexedEntries, if_neg kept, if_pos isDirectory, List.cons_append, List.mem_cons,
      List.mem_append]
    rcases parent with same | known
    · exact ⟨_, .inl rfl, same.symm, isDirectory⟩
    · obtain ⟨directory, member, facts⟩ := known
      exact ⟨directory, .inr (.inl member), facts⟩
  · intro path name info children rest entry parent
    rcases parent with same | known
    · exact .inl same
    · obtain ⟨directory, member, facts⟩ := known
      refine .inr ⟨directory, ?_, facts⟩
      rw [indexedEntries]
      exact List.mem_append_right _ member

theorem indexed_paths_nodup (distinct : entries.Distinct) :
    ((indexedEntries fileSystem path entries).map IndexedEntry.path).Nodup := by
  induction entries generalizing path with
  | nil => exact List.nodup_nil
  | entry name info children rest inChildren inRest =>
      obtain ⟨fresh, childrenDistinct, restDistinct⟩ := distinct
      have below : ∀ other ∈ indexedEntries fileSystem (path.child name) children,
          Below pathTree (path.child name) other.path := by
        intro other listed
        obtain ⟨inner, _, reached⟩ := indexed_entry_place listed
        apply below_iff_child.mpr
        exact ⟨(path.child name).child inner, child_ne_root _ _, child_parent _ _, reached⟩
      rw [indexedEntries, List.map_append, List.nodup_append]
      refine ⟨?_, inRest restDistinct, ?_⟩
      · split
        · exact List.nodup_nil
        · rw [List.map_cons, List.nodup_cons]
          split
          · refine ⟨?_, inChildren childrenDistinct⟩
            intro again
            obtain ⟨other, listed, same⟩ := List.mem_map.mp again
            have lower := below_level (below other listed)
            rw [same] at lower
            exact absurd lower (lt_irrefl _)
          · exact ⟨List.not_mem_nil, List.nodup_nil⟩
      · intro left leftMember right rightMember same
        obtain ⟨first, firstListed, rfl⟩ := List.mem_map.mp leftMember
        obtain ⟨second, secondListed, rfl⟩ := List.mem_map.mp rightMember
        have inFirst : first.path = path.child name ∨
            Below pathTree (path.child name) first.path := by
          split at firstListed
          · cases firstListed
          · rcases List.mem_cons.mp firstListed with whole | inner
            · exact .inl (congrArg IndexedEntry.path whole)
            · split at inner
              · exact .inr (below first inner)
              · cases inner
        obtain ⟨other, member, inSecond⟩ := indexed_entry_place secondListed
        have branches := branch_unique
          ((child_level path name).trans (child_level path other).symm) inFirst
          (same ▸ inSecond)
        have names := congrArg Path.name branches
        rw [child_name, child_name] at names
        exact fresh (names ▸ member)

end Scan

/-- The root and what is below it, in the order of the scan. -/
theorem generate_index_nodes {fileSystem : SourceFileSystem} {directory : SourceDirectory}
    {index : FileSystemNodeIndex} (scanned : fileSystem.generateIndex directory = some index) :
    index.nodes = (Path.root, .ofFileInfo directory.info) ::
      (indexedEntries fileSystem Path.root directory.entries).map IndexedEntry.node := by
  have noFile : directory.info.type ≠ .file := by
    rw [directory.isDirectory]
    decide
  have noLink : directory.info.type ≠ .link := by
    rw [directory.isDirectory]
    decide
  simp only [SourceFileSystem.generateIndex, SourceFileSystem.indexFile, noFile, noLink, false_and,
    if_false, if_pos directory.isDirectory] at scanned
  rw [index_directory_children_adds scanned, add_nodes_fresh]
  · rfl
  · have paths : ((indexedEntries fileSystem Path.root directory.entries).map
        IndexedEntry.node).map Prod.fst =
          (indexedEntries fileSystem Path.root directory.entries).map IndexedEntry.path := by
      rw [List.map_map]
      rfl
    have root : (NodeIndex.empty.addNode Path.root
        (FileSystemNodeAttributes.ofFileInfo directory.info)).nodes.map Prod.fst = [Path.root] := rfl
    rw [root, paths, List.singleton_append, List.nodup_cons]
    refine ⟨?_, indexed_paths_nodup directory.distinct⟩
    intro member
    obtain ⟨entry, listed, same⟩ := List.mem_map.mp member
    exact (indexed_entry_name listed).1 same

def typedPaths (nodes : List (Path × FileSystemNodeAttributes)) : List (Path × FileType) :=
  nodes.map fun entry => (entry.1, entry.2.type)

theorem typed_paths_nodup (index : FileSystemNodeIndex) :
    ((typedPaths index.nodes).map Prod.fst).Nodup := by
  rw [typedPaths, List.map_map]
  exact index.unique

theorem mem_typed_paths (index : FileSystemNodeIndex) (node : Path × FileType) :
    node ∈ typedPaths index.nodes ↔
      ∃ attributes, index.lookup node.1 = some attributes ∧ attributes.type = node.2 := by
  simp only [typedPaths, List.mem_map, NodeIndex.lookup_eq_some]
  constructor
  · intro described
    obtain ⟨entry, member, rfl⟩ := described
    exact ⟨entry.2, member, rfl⟩
  · intro described
    obtain ⟨attributes, member, type⟩ := described
    exact ⟨(node.1, attributes), member, Prod.ext rfl type⟩

/-- The root is a directory, and so is what any other node is in. -/
structure Rooted (nodes : List (Path × FileType)) : Prop where
  root : (Path.root, .directory) ∈ nodes
  parents : ∀ entry ∈ nodes, entry.1 ≠ Path.root → (entry.1.parent, .directory) ∈ nodes

theorem generate_index_rooted {fileSystem : SourceFileSystem} {directory : SourceDirectory}
    {index : FileSystemNodeIndex} (scanned : fileSystem.generateIndex directory = some index) :
    Rooted (typedPaths index.nodes) := by
  have nodes := generate_index_nodes scanned
  have root : (Path.root, FileType.directory) ∈ typedPaths index.nodes := by
    rw [nodes, typedPaths, List.map_cons, List.mem_cons]
    exact .inl (congrArg (Prod.mk Path.root) directory.isDirectory.symm)
  refine ⟨root, ?_⟩
  intro entry member inner
  rw [nodes, typedPaths, List.map_cons, List.map_map, List.mem_cons] at member
  rcases member with same | member
  · exact absurd (congrArg Prod.fst same) inner
  · obtain ⟨source, listed, rfl⟩ := List.mem_map.mp member
    rcases indexed_entry_parent listed with same | known
    · exact same.symm ▸ root
    · obtain ⟨above, aboveListed, samePath, isDirectory⟩ := known
      rw [nodes, typedPaths, List.map_cons, List.map_map]
      apply List.mem_cons_of_mem
      refine List.mem_map.mpr ⟨above, aboveListed, ?_⟩
      exact Prod.ext samePath isDirectory

end ACBackup.SourceScan
