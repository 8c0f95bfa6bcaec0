import ACBackup.Library.DotSegments
import ACBackup.SourceScan

/-!
Where a link that is indexed leads to. The scan looks at the target as it is
written, with every ".." in it.
-/

namespace ACBackup.LinkTargets

open ACBackup.Library.DotSegments
open ACBackup.Platform ACBackup.NodeAttributes ACBackup.Indexing ACBackup.SourceScan

set_option autoImplicit false

def segment (component : String) : Segment String :=
  if component = "." then .here
  else if component = ".." then .up
  else .name component

def Plain (path : Path) : Prop := ∀ component ∈ path.components, component ≠ "." ∧ component ≠ ".."

/-- `IsParentOf` compares components. Whether a path is its own parent is left open. -/
def ComparesComponents (fileSystem : SourceFileSystem) : Prop :=
  ∀ first second, first ≠ second →
    (fileSystem.isParentOf first second = true ↔ first.components <+: second.components)

def resolvedTarget (fileSystem : SourceFileSystem) (filePath : Path) : Path :=
  let target := fileSystem.readLinkTarget (fileSystem.mapNodePathToFileSystemPath filePath)
  let start :=
    if target.isRelative then fileSystem.mapNodePathToFileSystemPath filePath.parent
    else Path.root
  ⟨resolve start.components (target.path.components.map segment)⟩

def behindBasePath (fileSystem : SourceFileSystem) (filePath : Path) : List String :=
  let target := fileSystem.readLinkTarget (fileSystem.mapNodePathToFileSystemPath filePath)
  if target.isRelative then filePath.parent.components ++ target.path.components
  else target.path.components.drop fileSystem.basePath.components.length

def InSource (fileSystem : SourceFileSystem) (path : Path) : Prop :=
  fileSystem.basePath.components <+: path.components

def WrittenOutside (fileSystem : SourceFileSystem) (filePath : Path) : Prop :=
  let target := fileSystem.readLinkTarget (fileSystem.mapNodePathToFileSystemPath filePath)
  target.isRelative = false ∧ ¬fileSystem.basePath.components <+: target.path.components

/-- As far as the target goes up from the base path, it comes down again along it. -/
def ComesBack (fileSystem : SourceFileSystem) (filePath : Path) : Prop :=
  let base := fileSystem.basePath.components
  let walk := reduced ((behindBasePath fileSystem filePath).map segment)
  base.drop (base.length - walk.climbs) <+: walk.names

section Links

variable {fileSystem : SourceFileSystem} {filePath : Path} {info : FileInfo}

theorem segment_plain {path : Path} (plain : Plain path) :
    path.components.map segment = path.components.map .name := by
  apply List.map_congr_left
  intro component member
  obtain ⟨notHere, notUp⟩ := plain component member
  simp [segment, notHere, notUp]

theorem resolve_plain {path : Path} (plain : Plain path) (location : List String) :
    resolve location (path.components.map segment) = location ++ path.components := by
  rw [segment_plain plain, resolve_names]

theorem plain_parent (plain : Plain filePath) : Plain filePath.parent := by
  intro component member
  exact plain component (List.mem_of_mem_dropLast member)

theorem resolved_target_behind (base : Plain fileSystem.basePath) (plain : Plain filePath)
    (inside : ¬WrittenOutside fileSystem filePath) :
    (resolvedTarget fileSystem filePath).components =
      resolve fileSystem.basePath.components
        ((behindBasePath fileSystem filePath).map segment) := by
  unfold resolvedTarget behindBasePath
  by_cases relative : (fileSystem.readLinkTarget
      (fileSystem.mapNodePathToFileSystemPath filePath)).isRelative = true
  · simp only [if_pos relative, List.map_append, resolve_append,
      resolve_plain (plain_parent plain)]
    rfl
  · simp only [if_neg relative]
    have written : fileSystem.basePath.components <+: (fileSystem.readLinkTarget
        (fileSystem.mapNodePathToFileSystemPath filePath)).path.components := by
      by_contra outside
      exact inside ⟨Bool.eq_false_iff.mpr relative, outside⟩
    obtain ⟨rest, parts⟩ := written
    rw [← parts, List.drop_left, List.map_append, resolve_append, resolve_plain base]
    rfl

theorem points_inside (compares : ComparesComponents fileSystem)
    (inside : ¬WrittenOutside fileSystem filePath)
    (behind : behindBasePath fileSystem filePath ≠ []) :
    fileSystem.linkPointsInsideBackupPath filePath = true := by
  unfold behindBasePath at behind
  unfold SourceFileSystem.linkPointsInsideBackupPath
  by_cases relative : (fileSystem.readLinkTarget
      (fileSystem.mapNodePathToFileSystemPath filePath)).isRelative = true
  · simp only [if_pos relative] at behind ⊢
    have other : fileSystem.basePath ≠ fileSystem.mapNodePathToFileSystemPath
        (filePath.parent.concat (fileSystem.readLinkTarget
          (fileSystem.mapNodePathToFileSystemPath filePath)).path) := by
      intro same
      have components : fileSystem.basePath.components = fileSystem.basePath.components ++ _ :=
        congrArg Path.components same
      exact behind (List.self_eq_append_right.mp components)
    apply (compares _ _ other).mpr
    exact List.prefix_append _ _
  · simp only [if_neg relative] at behind ⊢
    have written : fileSystem.basePath.components <+: (fileSystem.readLinkTarget
        (fileSystem.mapNodePathToFileSystemPath filePath)).path.components := by
      by_contra outside
      exact inside ⟨Bool.eq_false_iff.mpr relative, outside⟩
    have other : fileSystem.basePath ≠ (fileSystem.readLinkTarget
        (fileSystem.mapNodePathToFileSystemPath filePath)).path := by
      intro same
      rw [← same, List.drop_length] at behind
      exact behind rfl
    exact (compares _ _ other).mpr written

theorem points_outside (compares : ComparesComponents fileSystem)
    (outside : WrittenOutside fileSystem filePath) :
    fileSystem.linkPointsInsideBackupPath filePath = false := by
  obtain ⟨absolute, written⟩ := outside
  unfold SourceFileSystem.linkPointsInsideBackupPath
  simp only [absolute, Bool.false_eq_true, if_false]
  have other : fileSystem.basePath ≠ (fileSystem.readLinkTarget
      (fileSystem.mapNodePathToFileSystemPath filePath)).path := by
    intro same
    rw [← same] at written
    exact written (List.prefix_refl _)
  rw [Bool.eq_false_iff]
  intro inside
  exact written ((compares _ _ other).mp inside)

/-- A link is added to the index exactly when it passes the test. -/
theorem link_added_iff (isLink : info.type = .link)
    (children : FileSystemNodeIndex → Option FileSystemNodeIndex)
    (index next : FileSystemNodeIndex) :
    fileSystem.indexFile filePath info children index = some next ↔
      fileSystem.linkPointsInsideBackupPath filePath = true ∧
        next = index.addNode filePath (.ofFileInfo info) := by
  have notFile : info.type ≠ .file := by simp [isLink]
  have notDirectory : info.type ≠ .directory := by simp [isLink]
  unfold SourceFileSystem.indexFile
  rw [if_neg (fun file => notFile file.1), if_neg notDirectory]
  cases points : fileSystem.linkPointsInsideBackupPath filePath with
  | false => simp [isLink]
  | true => simp [eq_comm]

theorem in_source_iff (base : Plain fileSystem.basePath) (plain : Plain filePath)
    (inside : ¬WrittenOutside fileSystem filePath) :
    InSource fileSystem (resolvedTarget fileSystem filePath) ↔
      ComesBack fileSystem filePath := by
  unfold InSource ComesBack
  rw [resolved_target_behind base plain inside, resolve_reduced]
  exact starting_at_inside_iff _ _

/-- A link that is added leads into the source exactly when its target comes back to the
base path as often as it leaves it; one that is written outside is not added. -/
theorem added_link_in_source_iff (fileSystem : SourceFileSystem)
    (compares : ComparesComponents fileSystem) (base : Plain fileSystem.basePath)
    (filePath : Path) (plain : Plain filePath) (info : FileInfo) (isLink : info.type = .link) :
    (∀ children index next, fileSystem.indexFile filePath info children index = some next →
      InSource fileSystem (resolvedTarget fileSystem filePath)) ↔
        WrittenOutside fileSystem filePath ∨ ComesBack fileSystem filePath := by
  by_cases outside : WrittenOutside fileSystem filePath
  · have rejected := points_outside compares outside
    simp [link_added_iff isLink, rejected, outside]
  · rw [in_source_iff base plain outside]
    by_cases nothing : behindBasePath fileSystem filePath = []
    · have back : ComesBack fileSystem filePath := by
        simp [ComesBack, nothing, reduced]
      simp [back]
    · have points := points_inside compares outside nothing
      constructor
      · intro added
        exact .inr (added some NodeIndex.empty _ ((link_added_iff isLink _ _ _).mpr ⟨points, rfl⟩))
      · intro condition _ _ _ _
        exact condition.resolve_left outside

end Links

def directoryWithLink (target : LinkTarget) : SourceFileSystem where
  basePath := Path.root.child "b"
  fileFilters := []
  readLinkTarget _ := target
  isParentOf first second := first.components.isPrefixOf second.components

def linkInfo : FileInfo where
  type := .link
  size := 13
  lastModifiedTime := none
  permissions := posixPermissions 0 0 511

theorem directory_with_link_compares (target : LinkTarget) :
    ComparesComponents (directoryWithLink target) := by
  intro first second _
  exact List.isPrefixOf_iff_prefix

def topLink : Path := Path.root.child "l"

def escapingLink : SourceFileSystem := directoryWithLink ⟨true, ⟨["..", "outside"]⟩⟩

def returningLink : SourceFileSystem := directoryWithLink ⟨true, ⟨["..", ".", "b", "x"]⟩⟩

/-- The link "/b/l" is added although it leads to "/outside". -/
theorem escaping_link_added :
    ∃ index, escapingLink.indexFile topLink linkInfo some NodeIndex.empty = some index ∧
      index.nodes.map Prod.fst = [topLink] ∧
      (resolvedTarget escapingLink topLink).components = ["outside"] ∧
      ¬InSource escapingLink (resolvedTarget escapingLink topLink) := by
  refine ⟨_, rfl, ?_, ?_, ?_⟩
  · decide +kernel
  · decide +kernel
  · unfold InSource
    decide +kernel

theorem returning_link_in_source :
    ∃ index, returningLink.indexFile topLink linkInfo some NodeIndex.empty = some index ∧
      ComesBack returningLink topLink ∧
      InSource returningLink (resolvedTarget returningLink topLink) := by
  have back : ComesBack returningLink topLink := by
    unfold ComesBack
    decide +kernel
  have base : Plain returningLink.basePath := by
    unfold Plain
    decide +kernel
  have plain : Plain topLink := by
    unfold Plain
    decide +kernel
  have added := added_link_in_source_iff returningLink (directory_with_link_compares _) base
    topLink plain linkInfo rfl
  exact ⟨_, rfl, back, added.mpr (.inr back) some NodeIndex.empty _ rfl⟩

end ACBackup.LinkTargets
