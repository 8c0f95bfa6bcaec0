import ACBackup.SourceScan

/-!
The filters of `OSFileSystemNodeIndex`, and what a scan leaves out because of them. A
filter asks for the name of a file and for the beginning of what it contains.
-/

namespace ACBackup.FileFiltering

open ACBackup.Platform ACBackup.NodeAttributes ACBackup.Indexing ACBackup.SourceScan

set_option autoImplicit false

/-- What the filters ask of the platform: the contents of the files, the two filters
for the files of a Mac, and how numbers and lines are read from a stream, with the rest
of the stream. -/
structure Filtering where
  contents : Path → Bytes
  appleDesktopServicesStoreFilter : Path → Bool
  appleDoubleFilter : Path → Bool
  readUInt16 : Bytes → Nat × Bytes
  readLine : Bytes → String × Bytes

def expectedSig : Bytes := [0xD0, 0xCF, 0x11, 0xE0, 0xA1, 0xB1, 0x1A]

namespace Filtering

variable (filtering : Filtering)

/-- `ThumbsDbFilter::MatchesData`. -/
def thumbsDbData (data : Bytes) : Bool :=
  let sig := data.take 7
  if sig.length = 7 then sig = expectedSig else false

def thumbsDbFilter (path : Path) : Bool :=
  if path.name = "Thumbs.db" then thumbsDbData (filtering.contents path) else false

/-- `DesktopIniFilter::MatchesData`. -/
def desktopIniData (data : Bytes) : Bool :=
  let (mark, text) := filtering.readUInt16 data
  if mark = 0xFEFF then
    let (first, rest) := filtering.readLine text
    if first = "" then (filtering.readLine rest).1 = "[.ShellClassInfo]" else false
  else false

def desktopIniFilter (path : Path) : Bool :=
  if path.name = "desktop.ini" then filtering.desktopIniData (filtering.contents path) else false

def fileFilters : List (Path → Bool) :=
  [filtering.appleDesktopServicesStoreFilter, filtering.appleDoubleFilter,
    filtering.desktopIniFilter, filtering.thumbsDbFilter]

end Filtering

inductive LeftOut (filtering : Filtering) (fsPath : Path) : Prop
  | appleDesktopServicesStore (matched : filtering.appleDesktopServicesStoreFilter fsPath = true)
  | appleDouble (matched : filtering.appleDoubleFilter fsPath = true)
  | desktopIni (name : fsPath.name = "desktop.ini") (text : Bytes) (rest : Bytes)
      (mark : filtering.readUInt16 (filtering.contents fsPath) = (0xFEFF, text))
      (first : filtering.readLine text = ("", rest))
      (second : (filtering.readLine rest).1 = "[.ShellClassInfo]")
  | thumbsDb (name : fsPath.name = "Thumbs.db")
      (signature : expectedSig <+: filtering.contents fsPath)

section Filters

variable {filtering : Filtering} {fileSystem : SourceFileSystem}

theorem thumbs_db_data_iff (data : Bytes) :
    Filtering.thumbsDbData data = true ↔ expectedSig <+: data := by
  rw [List.prefix_iff_eq_take]
  simp only [Filtering.thumbsDbData, Bool.if_false_right, Bool.and_eq_true, decide_eq_true_eq]
  constructor
  · rintro ⟨_, same⟩
    exact same.symm
  · intro same
    exact ⟨congrArg List.length same.symm, same.symm⟩

theorem desktop_ini_data_iff (data : Bytes) :
    filtering.desktopIniData data = true ↔ ∃ text rest,
      filtering.readUInt16 data = (0xFEFF, text) ∧ filtering.readLine text = ("", rest) ∧
        (filtering.readLine rest).1 = "[.ShellClassInfo]" := by
  simp only [Filtering.desktopIniData, Bool.if_false_right, Bool.and_eq_true, decide_eq_true_eq]
  constructor
  · rintro ⟨mark, first, second⟩
    exact ⟨_, _, Prod.ext mark rfl, Prod.ext first rfl, second⟩
  · rintro ⟨text, rest, mark, first, second⟩
    simp only [mark, first, second, and_self]

theorem not_indexed_iff (filters : fileSystem.fileFilters = filtering.fileFilters)
    (filePath : Path) :
    fileSystem.shouldFileBeIndexed filePath = false ↔
      LeftOut filtering (fileSystem.mapNodePathToFileSystemPath filePath) := by
  have any : fileSystem.shouldFileBeIndexed filePath = false ↔
      ∃ filter ∈ filtering.fileFilters,
        filter (fileSystem.mapNodePathToFileSystemPath filePath) = true := by
    simp only [SourceFileSystem.shouldFileBeIndexed, filters, List.all_eq_false, Bool.not_eq_true,
      Bool.not_eq_false']
  rw [any]
  simp only [Filtering.fileFilters, List.mem_cons, List.not_mem_nil, or_false]
  constructor
  · rintro ⟨filter, rfl | rfl | rfl | rfl, matched⟩
    · exact .appleDesktopServicesStore matched
    · exact .appleDouble matched
    · simp only [Filtering.desktopIniFilter, Bool.if_false_right, Bool.and_eq_true,
        decide_eq_true_eq, desktop_ini_data_iff] at matched
      obtain ⟨name, text, rest, mark, first, second⟩ := matched
      exact .desktopIni name text rest mark first second
    · simp only [Filtering.thumbsDbFilter, Bool.if_false_right, Bool.and_eq_true,
        decide_eq_true_eq, thumbs_db_data_iff] at matched
      exact .thumbsDb matched.1 matched.2
  · rintro (matched | matched | ⟨name, text, rest, mark, first, second⟩ | ⟨name, signature⟩)
    · exact ⟨_, .inl rfl, matched⟩
    · exact ⟨_, .inr (.inl rfl), matched⟩
    · refine ⟨_, .inr (.inr (.inl rfl)), ?_⟩
      rw [Filtering.desktopIniFilter, if_pos name]
      exact (desktop_ini_data_iff _).mpr ⟨text, rest, mark, first, second⟩
    · refine ⟨_, .inr (.inr (.inr rfl)), ?_⟩
      rw [Filtering.thumbsDbFilter, if_pos name]
      exact (thumbs_db_data_iff _).mpr signature

end Filters

def allEntries (path : Path) : Entries → List IndexedEntry
  | .nil => []
  | .entry name info children rest =>
      ({ path := path.child name, name := name, info := info } ::
        if info.type = .directory then allEntries (path.child name) children else []) ++
      allEntries path rest

section Scan

variable {fileSystem : SourceFileSystem} {path : Path} {entries : Entries}

theorem indexed_entries_filter (fileSystem : SourceFileSystem) (path : Path) (entries : Entries) :
    indexedEntries fileSystem path entries =
      (allEntries path entries).filter fun entry =>
        ¬(entry.info.type = .file ∧ fileSystem.shouldFileBeIndexed entry.path = false) := by
  induction entries generalizing path with
  | nil => rfl
  | entry name info children rest inChildren inRest =>
      rw [indexedEntries, allEntries, List.filter_append, List.filter_cons, inRest]
      congr 1
      by_cases filtered :
          info.type = .file ∧ fileSystem.shouldFileBeIndexed (path.child name) = false
      · have noDirectory : info.type ≠ .directory := by
          rw [filtered.1]
          decide
        rw [if_pos filtered, if_neg noDirectory]
        simp [filtered.1, filtered.2]
      · rw [if_neg filtered, if_pos (decide_eq_true filtered)]
        congr 1
        by_cases directory : info.type = .directory
        · rw [if_pos directory, if_pos directory, inChildren]
        · rw [if_neg directory, if_neg directory]
          rfl

/-- Every link below the directory passes `VerifyThatLinkPointsInsideBackupPath`. -/
def LinksInside (fileSystem : SourceFileSystem) (path : Path) (entries : Entries) : Prop :=
  ∀ entry ∈ allEntries path entries, entry.info.type = .link →
    fileSystem.linkPointsInsideBackupPath entry.path = true

theorem links_inside_entry {name : String} {info : FileInfo} {children rest : Entries} :
    LinksInside fileSystem path (.entry name info children rest) ↔
      (info.type = .link → fileSystem.linkPointsInsideBackupPath (path.child name) = true) ∧
        (info.type = .directory → LinksInside fileSystem (path.child name) children) ∧
          LinksInside fileSystem path rest := by
  simp only [LinksInside, allEntries, List.mem_append, List.mem_cons, or_imp, forall_and,
    forall_eq, and_assoc]
  by_cases directory : info.type = .directory
  · simp only [directory, if_true, forall_const]
  · simp only [directory, if_false, List.not_mem_nil, false_imp_iff, implies_true]

/-- The scan of a directory comes to its end if and only if no link is refused. -/
theorem scan_completes_iff (fileSystem : SourceFileSystem) (path : Path) (entries : Entries)
    (index : FileSystemNodeIndex) :
    (∃ next, fileSystem.indexDirectoryChildren path entries index = some next) ↔
      LinksInside fileSystem path entries := by
  induction entries generalizing path index with
  | nil => exact iff_of_true ⟨index, rfl⟩ fun entry member => absurd member List.not_mem_nil
  | entry name info children rest inChildren inRest =>
      rw [links_inside_entry, SourceFileSystem.indexDirectoryChildren]
      unfold SourceFileSystem.indexFile
      cases type : info.type with
      | file =>
          by_cases filtered : fileSystem.shouldFileBeIndexed (path.child name) = false
          · simp only [filtered, reduceCtorEq, and_self, if_true, Option.bind_some, inRest,
              false_imp_iff, true_and]
          · simp only [filtered, reduceCtorEq, and_false, false_and, if_false, Option.bind_some,
              inRest, false_imp_iff, true_and]
      | link =>
          by_cases pointsInside : fileSystem.linkPointsInsideBackupPath (path.child name) = true
          · simp only [reduceCtorEq, false_and, if_false, pointsInside, Bool.true_eq_false,
              and_false, Option.bind_some, inRest, false_imp_iff, true_and, implies_true]
          · have pointsOut := Bool.eq_false_iff.mpr pointsInside
            simp [pointsOut]
      | directory =>
          simp only [reduceCtorEq, false_and, if_false, if_true, false_imp_iff, true_and,
            forall_const, Option.bind_eq_some_iff]
          constructor
          · rintro ⟨next, middle, first, later⟩
            exact ⟨(inChildren _ _).mp ⟨middle, first⟩, (inRest _ _).mp ⟨next, later⟩⟩
          · rintro ⟨childrenInside, restInside⟩
            obtain ⟨middle, first⟩ := (inChildren _ _).mpr childrenInside
            obtain ⟨next, later⟩ := (inRest path middle).mpr restInside
            exact ⟨next, middle, first, later⟩

theorem generate_index_iff (fileSystem : SourceFileSystem) (directory : SourceDirectory) :
    (∃ index, fileSystem.generateIndex directory = some index) ↔
      LinksInside fileSystem Path.root directory.entries := by
  have noFile : directory.info.type ≠ .file := by
    rw [directory.isDirectory]
    decide
  have noLink : directory.info.type ≠ .link := by
    rw [directory.isDirectory]
    decide
  simp only [SourceFileSystem.generateIndex, SourceFileSystem.indexFile, noFile, noLink, false_and,
    if_false, if_pos directory.isDirectory, scan_completes_iff]

end Scan

section Completeness

/-- What a scan with the filters does not index. -/
def Omitted (filtering : Filtering) (fileSystem : SourceFileSystem) (entry : IndexedEntry) :
    Prop :=
  entry.info.type = .file ∧
    LeftOut filtering (fileSystem.mapNodePathToFileSystemPath entry.path)

/-- Every entry of the source, at any depth, is in the index as it is, except the files
that a filter matches; nothing else is in it. The scan is refused if and only if some
link fails `VerifyThatLinkPointsInsideBackupPath`, whichever way that test is answered. -/
theorem scan_exact (filtering : Filtering) (fileSystem : SourceFileSystem)
    (filters : fileSystem.fileFilters = filtering.fileFilters) (directory : SourceDirectory) :
    ((∃ index, fileSystem.generateIndex directory = some index) ↔
      ∀ entry ∈ allEntries Path.root directory.entries, entry.info.type = .link →
        fileSystem.linkPointsInsideBackupPath entry.path = true) ∧
    ∀ index, fileSystem.generateIndex directory = some index →
      ∀ path attributes, index.lookup path = some attributes ↔
        (path = Path.root ∧ attributes = .ofFileInfo directory.info) ∨
          ∃ entry ∈ allEntries Path.root directory.entries, entry.path = path ∧
            attributes = .ofFileInfo entry.info ∧ ¬Omitted filtering fileSystem entry := by
  refine ⟨generate_index_iff fileSystem directory, ?_⟩
  intro index scanned path attributes
  rw [NodeIndex.lookup_eq_some, generate_index_nodes scanned, List.mem_cons, List.mem_map,
    indexed_entries_filter]
  simp only [List.mem_filter, decide_eq_true_eq, not_indexed_iff filters, IndexedEntry.node,
    Prod.mk.injEq, and_assoc]
  apply or_congr_right
  constructor
  · rintro ⟨entry, member, kept, same, rfl⟩
    exact ⟨entry, member, same, rfl, kept⟩
  · rintro ⟨entry, member, same, rfl, kept⟩
    exact ⟨entry, member, kept, same, rfl⟩

def readUtf16Line : Bytes → String × Bytes
  | low :: high :: rest =>
      if low = 0x0A ∧ high = 0 then ("", rest)
      else
        let (line, after) := readUtf16Line rest
        if low = 0x0D ∧ high = 0 then (line, after)
        else (String.ofList (Char.ofNat (low.toNat + 256 * high.toNat) :: line.toList), after)
  | _ => ("", [])

def shellClassInfo : Bytes :=
  [0xFF, 0xFE, 0x0D, 0, 0x0A, 0] ++
    ("[.ShellClassInfo]".toList.flatMap fun letter => [UInt8.ofNat letter.toNat, 0]) ++
      [0x0D, 0, 0x0A, 0]

def testFiltering : Filtering where
  contents _ := shellClassInfo
  appleDesktopServicesStoreFilter _ := false
  appleDoubleFilter _ := false
  readUInt16 data := ((data.getD 0 0).toNat + 256 * (data.getD 1 0).toNat, data.drop 2)
  readLine := readUtf16Line

def testFileSystem : SourceFileSystem where
  basePath := Path.root.child "testfiles"
  fileFilters := testFiltering.fileFilters
  readLinkTarget path := { isRelative := false, path := path }
  isParentOf _ _ := true

def testInfo (type : FileType) : FileInfo where
  type := type
  size := 0
  lastModifiedTime := none
  permissions := posixPermissions 0 0 0o755

def testDirectory : SourceDirectory where
  info := testInfo .directory
  entries := .entry "desktop.ini" (testInfo .file) .nil .nil
  isDirectory := rfl
  distinct := by decide

theorem test_file_left_out :
    ∃ index, testFileSystem.generateIndex testDirectory = some index ∧
      index.lookup (Path.root.child "desktop.ini") = none ∧ index.getNumberOfNodes = 1 := by
  have outcome : (testFileSystem.generateIndex testDirectory).map
      NodeIndex.getNumberOfNodes = some 1 := by decide +kernel
  obtain ⟨index, scanned, count⟩ := Option.map_eq_some_iff.mp outcome
  have lookups := (scan_exact testFiltering testFileSystem rfl testDirectory).2 index scanned
  have omitted : Omitted testFiltering testFileSystem
      { path := Path.root.child "desktop.ini", name := "desktop.ini", info := testInfo .file } := by
    refine ⟨rfl, (not_indexed_iff rfl _).mp ?_⟩
    decide +kernel
  refine ⟨index, scanned, ?_, count⟩
  apply Option.eq_none_iff_forall_ne_some.mpr
  intro attributes found
  rcases (lookups _ _).mp found with ⟨same, _⟩ | ⟨entry, member, _, _, kept⟩
  · exact child_ne_root _ _ same
  · have only : entry =
        { path := Path.root.child "desktop.ini", name := "desktop.ini", info := testInfo .file } :=
      List.mem_singleton.mp member
    rw [only] at kept
    exact kept omitted

end Completeness

end ACBackup.FileFiltering
