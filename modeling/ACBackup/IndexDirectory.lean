import ACBackup.Library.DocumentText
import ACBackup.Library.FileDirectory
import ACBackup.SnapshotManager

/-!
The index directory: an index file and a hash file for every snapshot, and how
`ReadInSnapshots` makes the chain from them.
-/

namespace ACBackup.IndexDirectory

open ACBackup.Library.DocumentText ACBackup.Library.FileDirectory ACBackup.Library.Outcome
open ACBackup.Platform ACBackup.NodeAttributes ACBackup.Indexing ACBackup.IndexSerialization
open ACBackup.SnapshotChain ACBackup.SnapshotManager

set_option autoImplicit false

structure HashAlgorithmAndValue where
  hashAlgorithm : HashAlgorithm
  hashValue : String

/-- The text layers of the runtime library: XML for the index, JSON for the
protection, and the decompressor for what the compressor wrote. A JSON text that
breaks off is rejected. -/
structure IndexFormat (runtime : Runtime) where
  encodeXml : Xml → Bytes
  decodeXml : Bytes → Except Fault Xml
  decode_encode_xml : ∀ document, decodeXml (encodeXml document) = .ok document
  encodeProtection : HashAlgorithmAndValue → Bytes
  decodeProtection : Bytes → Except Fault HashAlgorithmAndValue
  decode_encode_protection : ∀ protection,
    decodeProtection (encodeProtection protection) = .ok protection
  incomplete_rejected : ∀ protection bytes, bytes <+: encodeProtection protection →
    bytes ≠ encodeProtection protection → ∃ fault, decodeProtection bytes = .error fault
  decompress_compress : ∀ level content,
    (runtime.lzma false).next (runtime.compress level content) true = .done content

def hashFileSuffix : String := "_hash.json"

/-- `IndexHashFilePath`, below the index directory. -/
def hashFileName (name : String) : String := name ++ ".xml" ++ hashFileSuffix

/-- `GetTitle` and `GetFileExtension`: what stands before and after the last dot. -/
def splitFileName (file : String) : String × String :=
  match file.toList.reverse.span (· ≠ '.') with
  | (_, []) => (file, "")
  | (extension, _ :: title) => (String.ofList title.reverse, String.ofList extension.reverse)

abbrev IndexFiles := Directory String Byte

/-- A `FileInputStream` raises for a file that does not exist. -/
def openFile (directory : IndexFiles) (file : String) : Except Fault Bytes :=
  match directory.read file with
  | some content => .ok content
  | none => .error .fileMissing

def decompress (runtime : Runtime) (raw : Bytes) : Except Fault Bytes :=
  match (runtime.lzma false).next raw true with
  | .done content => .ok content
  | .failed fault => .error fault
  | .more => .error .decompressionFailed

/-- Paths in the backup directory are kept relative to it. -/
def indexPath : Path := Path.root.child "index"

/-- `Snapshot::Deserialize`; other files than index files are skipped. -/
def deserialize (runtime : Runtime) (format : IndexFormat runtime) (directory : IndexFiles)
    (file : String) : Except Fault (Option Snapshot) :=
  if (splitFileName file).2 = "lzma" then do
    let hashInput ← openFile directory ((splitFileName file).1 ++ hashFileSuffix)
    let protection ← format.decodeProtection hashInput
    let fileInput ← openFile directory file
    let text ← decompress runtime fileInput
    let document ← format.decodeXml text
    let index ← deserializeIndex document
    if runtime.hash protection.hashAlgorithm text = protection.hashValue then
      .ok (some { name := (splitFileName (splitFileName file).1).1, index := index })
    else .error (.streamPipingFailed (indexPath.child file))
  else .ok none

/-- `ReadInSnapshots`, the oldest snapshot first. -/
def readInSnapshots (runtime : Runtime) (format : IndexFormat runtime) (directory : IndexFiles) :
    Except Fault (List Snapshot) := do
  let snapshots ← directory.listing.mapM (deserialize runtime format directory)
  .ok snapshots.reduceOption

section Names

theorem split_file_name (stem extension : List Char) (plain : '.' ∉ extension) :
    splitFileName (String.ofList (stem ++ '.' :: extension)) =
      (String.ofList stem, String.ofList extension) := by
  have inside : ∀ character ∈ extension.reverse, decide (character ≠ '.') = true := by
    intro character member
    rw [decide_eq_true_eq]
    rintro rfl
    exact plain (List.mem_reverse.mp member)
  have parts : (stem ++ '.' :: extension).reverse = extension.reverse ++ '.' :: stem.reverse := by
    simp
  simp only [splitFileName, String.toList_ofList, parts, List.span_eq_takeWhile_dropWhile,
    List.takeWhile_append_of_pos inside, List.dropWhile_append_of_pos inside]
  simp

theorem index_file_parts (name : String) :
    splitFileName (indexFileName name) = (name ++ ".xml", "lzma") := by
  have parts : indexFileName name =
      String.ofList ((name ++ ".xml").toList ++ '.' :: ['l', 'z', 'm', 'a']) := by
    rw [← String.toList_inj, String.toList_ofList, indexFileName, String.toList_append]
    rfl
  rw [parts, split_file_name _ _ (by decide), String.ofList_toList]

theorem index_title_parts (name : String) : (splitFileName (name ++ ".xml")).1 = name := by
  have parts : name ++ ".xml" = String.ofList (name.toList ++ '.' :: ['x', 'm', 'l']) := by
    rw [← String.toList_inj, String.toList_ofList, String.toList_append]
    rfl
  rw [parts, split_file_name _ _ (by decide), String.ofList_toList]

theorem hash_file_extension (name : String) : (splitFileName (hashFileName name)).2 = "json" := by
  have parts : hashFileName name =
      String.ofList ((name ++ ".xml").toList ++ ['_', 'h', 'a', 's', 'h'] ++
        '.' :: ['j', 's', 'o', 'n']) := by
    rw [← String.toList_inj, String.toList_ofList, hashFileName, String.toList_append,
      List.append_assoc]
    rfl
  rw [parts, split_file_name _ _ (by decide)]

theorem index_file_name_injective : Function.Injective indexFileName := by
  intro left right same
  have titles := congrArg (fun file => (splitFileName (splitFileName file).1).1) same
  simpa only [index_file_parts, index_title_parts] using titles

theorem hash_file_name_injective : Function.Injective hashFileName := by
  intro left right same
  simp only [hashFileName, ← String.toList_inj, String.toList_append, List.append_assoc,
    List.append_cancel_right_eq] at same
  exact String.toList_inj.mp same

theorem hash_file_not_index (left right : String) : hashFileName left ≠ indexFileName right := by
  intro same
  have extensions := congrArg (fun file => (splitFileName file).2) same
  simp only [hash_file_extension, index_file_parts] at extensions
  revert extensions
  decide

end Names

section Reading

variable {runtime : Runtime} {format : IndexFormat runtime} {directory other : IndexFiles}
  {name : String}

theorem deserialize_hash_file (directory : IndexFiles) (name : String) :
    deserialize runtime format directory (hashFileName name) = .ok none := by
  rw [deserialize, hash_file_extension]
  exact if_neg (by decide)

theorem deserialize_congr
    (indexFile : other.read (indexFileName name) = directory.read (indexFileName name))
    (hashFile : other.read (hashFileName name) = directory.read (hashFileName name)) :
    deserialize runtime format other (indexFileName name) =
      deserialize runtime format directory (indexFileName name) := by
  unfold hashFileName at hashFile
  simp only [deserialize, index_file_parts, openFile, indexFile, hashFile]

/-- What was written completely is read as the index that its file gives back. -/
theorem deserialize_stored {index : BackupNodeIndex} {level : Nat} {algorithm : HashAlgorithm}
    (indexFile : directory.read (indexFileName name) =
      some (runtime.compress level (format.encodeXml (serializeIndex index))))
    (hashFile : directory.read (hashFileName name) =
      some (format.encodeProtection
        { hashAlgorithm := algorithm
          hashValue := runtime.hash algorithm (format.encodeXml (serializeIndex index)) })) :
    deserialize runtime format directory (indexFileName name) =
      .ok (some { name := name, index := index.mapAttributes reloaded }) := by
  unfold hashFileName at hashFile
  simp only [deserialize, index_file_parts, index_title_parts, openFile, indexFile, hashFile,
    decompress, format.decompress_compress, format.decode_encode_protection,
    format.decode_encode_xml, deserialize_index_serialize, bind, Except.bind, if_true]

/-- An index file without its complete hash file is not accepted. -/
theorem deserialize_unprotected
    (unprotected : ∀ content, directory.read (hashFileName name) = some content →
      ∃ fault, format.decodeProtection content = .error fault) :
    ∃ fault, deserialize runtime format directory (indexFileName name) = .error fault := by
  unfold hashFileName at unprotected
  cases hashFile : directory.read (name ++ ".xml" ++ hashFileSuffix) with
  | none =>
      refine ⟨.fileMissing, ?_⟩
      simp only [deserialize, index_file_parts, openFile, hashFile, bind, Except.bind, if_true]
  | some content =>
      obtain ⟨fault, rejected⟩ := unprotected content hashFile
      refine ⟨fault, ?_⟩
      simp only [deserialize, index_file_parts, openFile, hashFile, rejected, bind, Except.bind,
        if_true]

theorem mem_listing (directory : IndexFiles) (file : String) :
    file ∈ directory.listing ↔ directory.read file ≠ none := by
  rw [Directory.listing, List.mem_insertionSort, Directory.mem_names]

theorem read_in_fails {file : String} (present : directory.read file ≠ none) {fault : Fault}
    (failed : deserialize runtime format directory file = .error fault) :
    ∃ fault, readInSnapshots runtime format directory = .error fault := by
  cases outcome : directory.listing.mapM (deserialize runtime format directory) with
  | error fault => exact ⟨fault, by simp only [readInSnapshots, outcome, bind, Except.bind]⟩
  | ok snapshots =>
      have both := (map_m_ok_iff _ _ _).mp outcome
      obtain ⟨snapshot, _, read⟩ := forall_two_mem both ((mem_listing _ _).mpr present)
      rw [failed] at read
      cases read

end Reading

/-- The directory has the two files of every snapshot of the chain and no others.
The newest name comes first. -/
structure Holds (runtime : Runtime) (format : IndexFormat runtime) (chain : Chain)
    (directory : IndexFiles) : Prop where
  sorted : chain.Pairwise fun newer older =>
    indexFileName older.call.name < indexFileName newer.call.name
  files : ∀ file, directory.read file ≠ none ↔
    ∃ entry ∈ chain, file = indexFileName entry.call.name ∨ file = hashFileName entry.call.name
  readable : ∀ entry ∈ chain,
    deserialize runtime format directory (indexFileName entry.call.name) =
      .ok (some entry.snapshot)

section Chains

variable {runtime : Runtime} {format : IndexFormat runtime} {chain : Chain}
  {directory : IndexFiles}

def isIndexFile (file : String) : Bool := (splitFileName file).2 = "lzma"

theorem is_index_file (name : String) : isIndexFile (indexFileName name) = true := by
  rw [isIndexFile, index_file_parts]
  exact decide_eq_true rfl

theorem is_not_index_file (name : String) : isIndexFile (hashFileName name) = false := by
  rw [isIndexFile, hash_file_extension]
  decide

theorem listing_index_files (holds : Holds runtime format chain directory) :
    directory.listing.filter isIndexFile =
      (chain.map fun entry => indexFileName entry.call.name).reverse := by
  have descending : (chain.map fun entry => indexFileName entry.call.name).Pairwise
      fun newer older => older < newer := List.pairwise_map.mpr holds.sorted
  apply sorted_filter_eq
  · rw [List.perm_ext_iff_of_nodup]
    · intro file
      rw [List.mem_filter, Directory.mem_names, holds.files, List.mem_reverse, List.mem_map]
      constructor
      · rintro ⟨⟨entry, member, same⟩, isIndex⟩
        rcases same with indexFile | hashFile
        · exact ⟨entry, member, indexFile.symm⟩
        · rw [hashFile, is_not_index_file] at isIndex
          cases isIndex
      · rintro ⟨entry, member, rfl⟩
        exact ⟨⟨entry, member, .inl rfl⟩, is_index_file _⟩
    · exact directory.unique.filter _
    · rw [List.nodup_reverse]
      exact descending.imp fun less => (ne_of_lt less).symm
  · rw [List.pairwise_reverse]
    exact descending.imp fun less => le_of_lt less

/-- Reading the directory of a chain gives the chain. -/
theorem read_in_holds (holds : Holds runtime format chain directory) :
    readInSnapshots runtime format directory = .ok (chain.map Entry.snapshot).reverse := by
  let found (file : String) : Option Snapshot :=
    match deserialize runtime format directory file with
    | .ok snapshot => snapshot
    | .error _ => none
  have foundIndex : ∀ entry ∈ chain,
      found (indexFileName entry.call.name) = some entry.snapshot := by
    intro entry member
    simp only [found, holds.readable entry member]
  have accepted : ∀ file ∈ directory.listing,
      deserialize runtime format directory file = .ok (found file) := by
    intro file listed
    obtain ⟨entry, member, same⟩ := (holds.files file).mp ((mem_listing _ _).mp listed)
    rcases same with rfl | rfl
    · rw [holds.readable entry member, foundIndex entry member]
    · simp only [found, deserialize_hash_file]
  have all : directory.listing.mapM (deserialize runtime format directory) =
      .ok (directory.listing.map found) := by
    rw [map_m_ok_iff, List.forall₂_map_right_iff, List.forall₂_same]
    exact accepted
  have selected : directory.listing.filterMap found =
      (directory.listing.filter isIndexFile).filterMap found := by
    rw [List.filterMap_filter]
    apply List.filterMap_congr
    intro file listed
    by_cases isIndex : isIndexFile file = true
    · rw [if_pos isIndex]
    · rw [if_neg isIndex]
      obtain ⟨entry, member, same⟩ := (holds.files file).mp ((mem_listing _ _).mp listed)
      rcases same with rfl | rfl
      · exact absurd (is_index_file _) isIndex
      · simp only [found, deserialize_hash_file]
  have read : (chain.map fun entry => indexFileName entry.call.name).filterMap found =
      chain.map Entry.snapshot := by
    rw [List.filterMap_map, ← List.filterMap_eq_map']
    apply List.filterMap_congr
    exact foundIndex
  simp only [readInSnapshots, all, bind, Except.bind, List.reduceOption, List.filterMap_map,
    Function.id_comp]
  rw [selected, listing_index_files holds, List.filterMap_reverse, read]

theorem holds_empty (format : IndexFormat runtime) : Holds runtime format [] Directory.empty where
  sorted := List.Pairwise.nil
  files file := by simp [Directory.empty, Directory.read]
  readable entry member := by cases member

theorem insert_entry_sorted {entry : Entry}
    (sorted : chain.Pairwise fun newer older =>
      indexFileName older.call.name < indexFileName newer.call.name)
    (unused : entry.call.name ∉ chain.map fun entry => entry.call.name) :
    (insertEntry entry chain).Pairwise fun newer older =>
      indexFileName older.call.name < indexFileName newer.call.name := by
  have total : Std.Total fun newer older : Entry =>
      indexFileName older.call.name ≤ indexFileName newer.call.name :=
    ⟨fun left right => le_total _ _⟩
  have transitive : IsTrans Entry fun newer older =>
      indexFileName older.call.name ≤ indexFileName newer.call.name :=
    ⟨fun _ _ _ first second => le_trans second first⟩
  have ordered : (insertEntry entry chain).Pairwise fun newer older =>
      indexFileName older.call.name ≤ indexFileName newer.call.name :=
    List.Pairwise.orderedInsert entry chain (sorted.imp le_of_lt)
  have different : (entry :: chain).Pairwise fun newer older =>
      indexFileName older.call.name ≠ indexFileName newer.call.name := by
    rw [List.pairwise_cons]
    refine ⟨?_, sorted.imp ne_of_lt⟩
    intro older member same
    exact unused (index_file_name_injective same ▸ List.mem_map_of_mem member)
  have apart : (insertEntry entry chain).Pairwise fun newer older =>
      indexFileName older.call.name ≠ indexFileName newer.call.name :=
    ((List.perm_orderedInsert _ entry chain).pairwise_iff fun apart => apart.symm).mpr different
  exact (ordered.and apart).imp fun both => lt_of_le_of_ne both.1 both.2

/-- Two complete files are one more snapshot. -/
theorem holds_insert {other : IndexFiles} {entry : Entry} {indexFile hashFile : Bytes}
    (holds : Holds runtime format chain directory)
    (unused : entry.call.name ∉ chain.map fun entry => entry.call.name)
    (added : other.read =
      Function.update
        (Function.update directory.read (indexFileName entry.call.name) (some indexFile))
        (hashFileName entry.call.name) (some hashFile))
    (readable : deserialize runtime format other (indexFileName entry.call.name) =
      .ok (some entry.snapshot)) :
    Holds runtime format (insertEntry entry chain) other where
  sorted := insert_entry_sorted holds.sorted unused
  files file := by
    rw [added]
    simp only [mem_insert_entry, exists_eq_or_imp, ← holds.files file]
    by_cases hashFile : file = hashFileName entry.call.name
    · simp [hashFile]
    · rw [Function.update_of_ne hashFile]
      by_cases indexFile : file = indexFileName entry.call.name
      · simp [indexFile]
      · rw [Function.update_of_ne indexFile]
        simp [indexFile, hashFile]
  readable older member := by
    rcases (mem_insert_entry entry older chain).mp member with rfl | inside
    · exact readable
    · have different : older.call.name ≠ entry.call.name := by
        intro same
        exact unused (same ▸ List.mem_map_of_mem inside)
      rw [← holds.readable older inside]
      apply deserialize_congr
      · rw [added, Function.update_of_ne (hash_file_not_index _ _).symm,
          Function.update_of_ne (index_file_name_injective.ne different)]
      · rw [added, Function.update_of_ne (hash_file_name_injective.ne different),
          Function.update_of_ne (hash_file_not_index _ _)]

end Chains

section Spelling

deriving instance Encodable for Platform.Path, DateTime, Scalar, HashAlgorithm,
  HashAlgorithmAndValue

/-- Text layers to compute with, next to `spellingRuntime`: a document is the
number of its tokens, and a protection is its number. -/
def spellingFormat : IndexFormat spellingRuntime where
  encodeXml document := encodeValue (tokens document)
  decodeXml text :=
    match (decodeValue text).map fun read => List.foldr place [] read with
    | some [document] => .ok document
    | _ => .error .malformed
  decode_encode_xml document := by
    rw [decode_encode_value, Option.map_some, place_tokens]
  encodeProtection protection := encodeValue protection
  decodeProtection text :=
    match decodeValue text with
    | some protection => .ok protection
    | none => .error .malformed
  decode_encode_protection protection := by rw [decode_encode_value]
  incomplete_rejected protection bytes breaksOff different :=
    ⟨.malformed, by rw [incomplete_value breaksOff different]⟩
  decompress_compress level content := rfl

end Spelling

end ACBackup.IndexDirectory
