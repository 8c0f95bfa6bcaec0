import ACBackup.Library.ElementTree
import ACBackup.Indexing

/-!
`BackupNodeIndex::Serialize` and the constructor that reads the document back.
The text layer, the date format and the path strings round-trip, so a scalar
stands in the tree as it is.
-/

namespace ACBackup.IndexSerialization

open ACBackup.Library.ElementTree
open ACBackup.Platform ACBackup.NodeAttributes ACBackup.Indexing

set_option autoImplicit false

inductive Scalar where
  | text (value : String)
  | number (value : Nat)
  | integer (value : Int)
  | boolean (value : Bool)
  | path (value : Path)
  | date (value : DateTime)
  deriving DecidableEq

abbrev Xml := Element Scalar

namespace Scalar

def asText : Scalar → Option String
  | .text value => some value
  | _ => none

def asNumber : Scalar → Option Nat
  | .number value => some value
  | _ => none

def asInteger : Scalar → Option Int
  | .integer value => some value
  | _ => none

def asBoolean : Scalar → Option Bool
  | .boolean value => some value
  | _ => none

def asPath : Scalar → Option Path
  | .path value => some value
  | _ => none

def asDate : Scalar → Option DateTime
  | .date value => some value
  | _ => none

end Scalar

def required {Value : Type} (read : Scalar → Option Value) :
    Option Scalar → Except Fault Value
  | none => .error .malformed
  | some scalar =>
      match read scalar with
      | some value => .ok value
      | none => .error .malformed

/-- A binding to an `Optional`, left out when it has no value. -/
def optional {Value : Type} (read : Scalar → Option Value) :
    Option Scalar → Except Fault (Option Value)
  | none => .ok none
  | some scalar =>
      match read scalar with
      | some value => .ok (some value)
      | none => .error .malformed

def childText {Value : Type} (read : Scalar → Option Value) (name : String)
    (level : List Xml) : Except Fault Value :=
  required read ((childNamed name level).bind Element.content?)

/-- A `StringMapping` leaves no value for a text that it does not list. -/
def mapped {Value : Type} : Option Value → Except Fault Value
  | some value => .ok value
  | none => .error .malformed

def fileTypeName : FileType → String
  | .directory => "directory"
  | .file => "file"
  | .link => "link"

def fileTypeNamed (name : String) : Option FileType :=
  if name = "directory" then some .directory
  else if name = "file" then some .file
  else if name = "link" then some .link
  else none

def hashAlgorithmName : HashAlgorithm → String
  | .md5 => "md5"
  | .sha512_256 => "sha512/256"

def hashAlgorithmNamed (name : String) : Option HashAlgorithm :=
  if name = "md5" then some .md5
  else if name = "sha512/256" then some .sha512_256
  else none

def compressionSettingName : CompressionSetting → String
  | .lzma => "lzma"

def compressionSettingNamed (name : String) : Option CompressionSetting :=
  if name = "lzma" then some .lzma else none

def serializePermissions (permissions : POSIXPermissions) : Xml :=
  .element "Permissions" [("type", .text "POSIX")]
    [.text "owner" (.integer permissions.userId),
      .text "group" (.integer permissions.groupId),
      .text "mode" (.number (encodeMode permissions))]

def deserializePermissions (level : List Xml) : Except Fault POSIXPermissions :=
  match childNamed "Permissions" level with
  | none => .error .malformed
  | some element => do
      let type ← required Scalar.asText (element.attribute? "type")
      if type = "POSIX" then
        let userId ← childText Scalar.asInteger "owner" element.children
        let groupId ← childText Scalar.asInteger "group" element.children
        let mode ← childText Scalar.asNumber "mode" element.children
        .ok (posixPermissions userId groupId mode)
      else .error .notImplemented

def serializeBlock (block : Block) : Xml :=
  .element "Block"
    [("volumeNumber", .number block.volumeNumber), ("offset", .number block.offset),
      ("size", .number block.size)] []

def deserializeBlock (element : Xml) : Except Fault Block := do
  let volumeNumber ← required Scalar.asNumber (element.attribute? "volumeNumber")
  let offset ← required Scalar.asNumber (element.attribute? "offset")
  let size ← required Scalar.asNumber (element.attribute? "size")
  .ok { volumeNumber := volumeNumber, offset := offset, size := size }

structure Ownership where
  ownsBlocks : Bool
  compressionSetting : Option CompressionSetting
  owner : Option Path
  deriving DecidableEq

/-- Without blocks nothing is written, the ownership included. -/
def serializeBlocks (blocks : List Block) (ownership : Ownership) : List Xml :=
  if blocks = [] then []
  else
    [.element "Blocks"
      ([("owned", .boolean ownership.ownsBlocks)] ++
        (ownership.owner.map fun owner => ("owner", Scalar.path owner)).toList ++
        (ownership.compressionSetting.map fun setting =>
          ("compression", Scalar.text (compressionSettingName setting))).toList)
      (blocks.map serializeBlock)]

def deserializeBlocks (level : List Xml) : Except Fault (List Block × Ownership) :=
  match childNamed "Blocks" level with
  | none => .ok ([], { ownsBlocks := false, compressionSetting := none, owner := none })
  | some element => do
      let owned ← required Scalar.asBoolean (element.attribute? "owned")
      let owner ← optional Scalar.asPath (element.attribute? "owner")
      let compression ← optional
        (fun scalar => scalar.asText.bind compressionSettingNamed)
        (element.attribute? "compression")
      let blocks ← readAll deserializeBlock element.children
      .ok (blocks, { ownsBlocks := owned, compressionSetting := compression, owner := owner })

def hashEntries (hashes : HashAlgorithm → Option String) : List (HashAlgorithm × String) :=
  [HashAlgorithm.md5, HashAlgorithm.sha512_256].filterMap fun algorithm =>
    (hashes algorithm).map fun value => (algorithm, value)

def serializeHash (entry : HashAlgorithm × String) : Xml :=
  .element "Hash" [("algorithm", .text (hashAlgorithmName entry.1)), ("value", .text entry.2)] []

def deserializeHash (element : Xml) : Except Fault (HashAlgorithm × String) := do
  let name ← required Scalar.asText (element.attribute? "algorithm")
  let algorithm ← mapped (hashAlgorithmNamed name)
  let value ← required Scalar.asText (element.attribute? "value")
  .ok (algorithm, value)

def serializeHashes (hashes : HashAlgorithm → Option String) : List Xml :=
  if hashEntries hashes = [] then []
  else [.element "HashValues" [] ((hashEntries hashes).map serializeHash)]

/-- `result[hashAlgorithm] = hashValue`. -/
def insertHash (hashes : HashAlgorithm → Option String) (entry : HashAlgorithm × String) :
    HashAlgorithm → Option String :=
  Function.update hashes entry.1 (some entry.2)

def deserializeHashes (level : List Xml) : Except Fault (HashAlgorithm → Option String) :=
  match childNamed "HashValues" level with
  | none => .ok fun _ => none
  | some element => do
      let entries ← readAll deserializeHash element.children
      .ok (entries.foldl insertHash fun _ => none)

def serializeLastModifiedTime (lastModifiedTime : Option DateTime) : List Xml :=
  (lastModifiedTime.map fun time => Element.text "LastModified" (.date time)).toList

def deserializeLastModifiedTime (level : List Xml) : Except Fault (Option DateTime) :=
  match childNamed "LastModified" level with
  | none => .ok none
  | some element => do
      let time ← required Scalar.asDate element.content?
      .ok (some time)

/-- The size of a directory is not written. -/
def serializeSize (type : FileType) (size : Nat) : List Xml :=
  if type = .directory then [] else [.text "Size" (.number size)]

def deserializeSize (level : List Xml) : Except Fault Nat :=
  match childNamed "Size" level with
  | none => .ok 0
  | some element => required Scalar.asNumber element.content?

def serializeNode (entry : Path × BackupNodeAttributes) : Xml :=
  .element "Node" [("type", .text (fileTypeName entry.2.type))]
    ([.text "Path" (.path entry.1)] ++
      serializeLastModifiedTime entry.2.lastModifiedTime ++
      [serializePermissions entry.2.permissions] ++
      serializeSize entry.2.type entry.2.size ++
      serializeBlocks entry.2.blocks
        { ownsBlocks := entry.2.ownsBlocks
          compressionSetting := entry.2.compressionSetting
          owner := entry.2.backReferenceTarget } ++
      serializeHashes entry.2.hashes)

def deserializeNode (element : Xml) : Except Fault (Path × BackupNodeAttributes) := do
  let typeName ← required Scalar.asText (element.attribute? "type")
  let type ← mapped (fileTypeNamed typeName)
  let path ← childText Scalar.asPath "Path" element.children
  let lastModifiedTime ← deserializeLastModifiedTime element.children
  let permissions ← deserializePermissions element.children
  let size ← deserializeSize element.children
  let (blocks, ownership) ← deserializeBlocks element.children
  let hashes ← deserializeHashes element.children
  .ok (path,
    { type := type
      size := size
      permissions := permissions
      lastModifiedTime := lastModifiedTime
      ownsBlocks := ownership.ownsBlocks
      compressionSetting := ownership.compressionSetting
      backReferenceTarget := ownership.owner
      blocks := blocks
      hashes := hashes })

def serializeIndex (index : BackupNodeIndex) : Xml :=
  .element "SnapshotIndex" [] [.element "Nodes" [] (index.nodes.map serializeNode)]

def deserializeIndex (document : Xml) : Except Fault BackupNodeIndex :=
  match childNamed "Nodes" document.children with
  | none => .error .malformed
  | some element => do
      let entries ← readAll deserializeNode element.children
      .ok (entries.foldl (fun index entry => index.addNode entry.1 entry.2) NodeIndex.empty)

/-- What a node loses by being written and read back. -/
def reloaded (attributes : BackupNodeAttributes) : BackupNodeAttributes :=
  { attributes with
    size := if attributes.type = .directory then 0 else attributes.size
    ownsBlocks := if attributes.blocks = [] then false else attributes.ownsBlocks
    compressionSetting :=
      if attributes.blocks = [] then none else attributes.compressionSetting
    backReferenceTarget :=
      if attributes.blocks = [] then none else attributes.backReferenceTarget }

theorem deserialize_block_serialize (block : Block) :
    deserializeBlock (serializeBlock block) = .ok block := rfl

theorem deserialize_hash_serialize (entry : HashAlgorithm × String) :
    deserializeHash (serializeHash entry) = .ok entry := by
  obtain ⟨algorithm, value⟩ := entry
  cases algorithm <;> rfl

theorem hash_entries_fold (hashes : HashAlgorithm → Option String) :
    (hashEntries hashes).foldl insertHash (fun _ => none) = hashes := by
  funext algorithm
  cases md5 : hashes .md5 <;> cases sha : hashes .sha512_256 <;> cases algorithm <;>
    simp [hashEntries, insertHash, md5, sha, Function.update]

theorem hash_entries_nil {hashes : HashAlgorithm → Option String}
    (empty : hashEntries hashes = []) : hashes = fun _ => none := by
  have fold := hash_entries_fold hashes
  rw [empty] at fold
  exact fold.symm

section Names

/-! The elements that may be left out do not hide the others. -/

theorem child_named_last_modified (name : String) (time : Option DateTime)
    (other : name ≠ "LastModified") :
    childNamed name (serializeLastModifiedTime time) = none := by
  cases time with
  | none => rfl
  | some time =>
      simp [serializeLastModifiedTime, child_named_cons, Element.name, Ne.symm other]

theorem child_named_size (name : String) (type : FileType) (size : Nat)
    (other : name ≠ "Size") : childNamed name (serializeSize type size) = none := by
  unfold serializeSize
  split
  · rfl
  · simp [child_named_cons, Element.name, Ne.symm other]

theorem child_named_blocks (name : String) (blocks : List Block) (ownership : Ownership)
    (other : name ≠ "Blocks") : childNamed name (serializeBlocks blocks ownership) = none := by
  unfold serializeBlocks
  split
  · rfl
  · simp [child_named_cons, Element.name, Ne.symm other]

theorem child_named_hashes (name : String) (hashes : HashAlgorithm → Option String)
    (other : name ≠ "HashValues") : childNamed name (serializeHashes hashes) = none := by
  unfold serializeHashes
  split
  · rfl
  · simp [child_named_cons, Element.name, Ne.symm other]

end Names

def nodeChildren (entry : Path × BackupNodeAttributes) : List Xml :=
  (serializeNode entry).children

theorem node_children_path (entry : Path × BackupNodeAttributes) :
    childText Scalar.asPath "Path" (nodeChildren entry) = .ok entry.1 := by
  simp [childText, nodeChildren, serializeNode, Element.children, child_named_cons,
    Element.name, Element.content?, required, Scalar.asPath]

theorem node_children_last_modified (entry : Path × BackupNodeAttributes) :
    deserializeLastModifiedTime (nodeChildren entry) = .ok entry.2.lastModifiedTime := by
  simp only [deserializeLastModifiedTime, nodeChildren, serializeNode, Element.children,
    child_named_append, child_named_cons, child_named_nil, serializePermissions, Element.name,
    child_named_size _ _ _ (show "LastModified" ≠ "Size" by decide),
    child_named_blocks _ _ _ (show "LastModified" ≠ "Blocks" by decide),
    child_named_hashes _ _ (show "LastModified" ≠ "HashValues" by decide)]
  cases entry.2.lastModifiedTime <;> rfl

theorem node_children_permissions (entry : Path × BackupNodeAttributes) :
    deserializePermissions (nodeChildren entry) = .ok entry.2.permissions := by
  have roundtrip := posix_permissions_encode entry.2.permissions
  have found : childNamed "Permissions" (nodeChildren entry) =
      some (serializePermissions entry.2.permissions) := by
    simp only [nodeChildren, serializeNode, Element.children, child_named_append,
      child_named_cons, child_named_nil, Element.name,
      child_named_last_modified _ _ (show "Permissions" ≠ "LastModified" by decide),
      serializePermissions]
    rfl
  rw [deserializePermissions, found]
  exact congrArg Except.ok roundtrip

theorem node_children_size (entry : Path × BackupNodeAttributes) :
    deserializeSize (nodeChildren entry) =
      .ok (if entry.2.type = .directory then 0 else entry.2.size) := by
  have found : childNamed "Size" (nodeChildren entry) =
      childNamed "Size" (serializeSize entry.2.type entry.2.size) := by
    simp only [nodeChildren, serializeNode, Element.children, child_named_append,
      child_named_cons, child_named_nil, Element.name,
      child_named_last_modified _ _ (show "Size" ≠ "LastModified" by decide),
      serializePermissions,
      child_named_blocks _ _ _ (show "Size" ≠ "Blocks" by decide),
      child_named_hashes _ _ (show "Size" ≠ "HashValues" by decide)]
    simp
  rw [deserializeSize, found, serializeSize]
  by_cases directory : entry.2.type = .directory
  · simp only [if_pos directory, child_named_nil]
  · simp only [if_neg directory, child_named_cons, Element.name, if_true]
    rfl

theorem node_children_blocks (entry : Path × BackupNodeAttributes) :
    deserializeBlocks (nodeChildren entry) =
      .ok (entry.2.blocks,
        { ownsBlocks := (reloaded entry.2).ownsBlocks
          compressionSetting := (reloaded entry.2).compressionSetting
          owner := (reloaded entry.2).backReferenceTarget }) := by
  have found : childNamed "Blocks" (nodeChildren entry) =
      childNamed "Blocks" (serializeBlocks entry.2.blocks
        { ownsBlocks := entry.2.ownsBlocks
          compressionSetting := entry.2.compressionSetting
          owner := entry.2.backReferenceTarget }) := by
    simp only [nodeChildren, serializeNode, Element.children, child_named_append,
      child_named_cons, child_named_nil, Element.name,
      child_named_last_modified _ _ (show "Blocks" ≠ "LastModified" by decide),
      serializePermissions,
      child_named_size _ _ _ (show "Blocks" ≠ "Size" by decide),
      child_named_hashes _ _ (show "Blocks" ≠ "HashValues" by decide)]
    simp
  have blocks := read_all_map serializeBlock deserializeBlock id deserialize_block_serialize
    entry.2.blocks
  rw [List.map_id] at blocks
  rw [deserializeBlocks, found, serializeBlocks]
  by_cases empty : entry.2.blocks = []
  · simp only [empty, if_true, child_named_nil, reloaded]
  · simp only [if_neg empty, child_named_cons, Element.name, if_true, reloaded,
      Element.children, blocks]
    cases entry.2.backReferenceTarget <;> cases entry.2.compressionSetting <;> rfl

theorem node_children_hashes (entry : Path × BackupNodeAttributes) :
    deserializeHashes (nodeChildren entry) = .ok entry.2.hashes := by
  have found : childNamed "HashValues" (nodeChildren entry) =
      childNamed "HashValues" (serializeHashes entry.2.hashes) := by
    simp only [nodeChildren, serializeNode, Element.children, child_named_append,
      child_named_cons, child_named_nil, Element.name,
      child_named_last_modified _ _ (show "HashValues" ≠ "LastModified" by decide),
      serializePermissions,
      child_named_size _ _ _ (show "HashValues" ≠ "Size" by decide),
      child_named_blocks _ _ _ (show "HashValues" ≠ "Blocks" by decide)]
    simp
  have entries := read_all_map serializeHash deserializeHash id deserialize_hash_serialize
    (hashEntries entry.2.hashes)
  rw [List.map_id] at entries
  rw [deserializeHashes, found, serializeHashes]
  by_cases empty : hashEntries entry.2.hashes = []
  · rw [if_pos empty, child_named_nil, hash_entries_nil empty]
  · simp only [if_neg empty, child_named_cons, Element.name, if_true, Element.children, entries]
    exact congrArg Except.ok (hash_entries_fold entry.2.hashes)

theorem file_type_named_name (type : FileType) :
    fileTypeNamed (fileTypeName type) = some type := by
  cases type <;> rfl

theorem deserialize_node_serialize (entry : Path × BackupNodeAttributes) :
    deserializeNode (serializeNode entry) = .ok (entry.1, reloaded entry.2) := by
  have type : required Scalar.asText ((serializeNode entry).attribute? "type") =
      .ok (fileTypeName entry.2.type) := rfl
  have children : (serializeNode entry).children = nodeChildren entry := rfl
  simp only [deserializeNode, type, children, file_type_named_name, mapped,
    node_children_path, node_children_last_modified, node_children_permissions,
    node_children_size, node_children_blocks, node_children_hashes, bind, Except.bind]
  rfl

/-- Writing an index and reading it back keeps every node in its place and
only passes its attributes through `reloaded`. -/
theorem deserialize_index_serialize (index : BackupNodeIndex) :
    deserializeIndex (serializeIndex index) = .ok (index.mapAttributes reloaded) := by
  have entries := read_all_map serializeNode deserializeNode
    (fun entry => (entry.1, reloaded entry.2)) deserialize_node_serialize index.nodes
  have found : childNamed "Nodes" (serializeIndex index).children =
      some (.element "Nodes" [] (index.nodes.map serializeNode)) := rfl
  have fresh : ((NodeIndex.empty : BackupNodeIndex).nodes.map Prod.fst ++
      (index.nodes.map fun entry => (entry.1, reloaded entry.2)).map Prod.fst).Nodup := by
    simp only [NodeIndex.empty, List.map_nil, List.nil_append, List.map_map]
    exact index.unique
  have nodes := add_nodes_fresh (index.nodes.map fun entry => (entry.1, reloaded entry.2))
    NodeIndex.empty fresh
  rw [deserializeIndex, found]
  simp only [Element.children, entries, bind, Except.bind]
  congr 1
  cases built : (index.nodes.map fun entry => (entry.1, reloaded entry.2)).foldl
    (fun index entry => index.addNode entry.1 entry.2) NodeIndex.empty with
  | mk builtNodes builtUnique =>
      rw [built] at nodes
      simp only [NodeIndex.empty, List.nil_append] at nodes
      subst nodes
      rfl

end ACBackup.IndexSerialization
