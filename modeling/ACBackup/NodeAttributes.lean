import ACBackup.Platform

/-!
The attributes of one node: what the scan of the source records
(`FileSystemNodeAttributes`) and what a snapshot adds to it
(`BackupNodeAttributes`).
-/

namespace ACBackup.NodeAttributes

open ACBackup.Platform

set_option autoImplicit false

structure FileSystemNodeAttributes where
  type : FileType
  size : Nat
  permissions : POSIXPermissions
  lastModifiedTime : Option DateTime
  deriving DecidableEq, Repr

structure FileInfo where
  type : FileType
  size : Nat
  lastModifiedTime : Option DateTime
  permissions : POSIXPermissions
  deriving DecidableEq, Repr

def FileSystemNodeAttributes.ofFileInfo (fileInfo : FileInfo) : FileSystemNodeAttributes where
  type := fileInfo.type
  size := if fileInfo.type = .directory then 0 else fileInfo.size
  permissions := fileInfo.permissions
  lastModifiedTime := fileInfo.lastModifiedTime

theorem of_file_info_directory_size (fileInfo : FileInfo)
    (directory : (FileSystemNodeAttributes.ofFileInfo fileInfo).type = .directory) :
    (FileSystemNodeAttributes.ofFileInfo fileInfo).size = 0 := by
  have source : fileInfo.type = .directory := directory
  simp [FileSystemNodeAttributes.ofFileInfo, source]

/-- `operator==`: permissions take no part in the comparison. -/
def FileSystemNodeAttributes.equals (left right : FileSystemNodeAttributes) : Bool :=
  left.type = right.type && left.size = right.size &&
    left.lastModifiedTime = right.lastModifiedTime

/-- `CopyFrom`: permissions are not copied. -/
def FileSystemNodeAttributes.copyFrom (attributes other : FileSystemNodeAttributes) :
    FileSystemNodeAttributes :=
  { attributes with
    type := other.type
    size := other.size
    lastModifiedTime := other.lastModifiedTime }

theorem equals_iff (left right : FileSystemNodeAttributes) :
    left.equals right = true ↔ left.type = right.type ∧ left.size = right.size ∧
      left.lastModifiedTime = right.lastModifiedTime := by
  simp [FileSystemNodeAttributes.equals, and_assoc]

theorem equals_refl (attributes : FileSystemNodeAttributes) :
    attributes.equals attributes = true := by
  simp [equals_iff]

theorem equals_symm {left right : FileSystemNodeAttributes} (same : left.equals right = true) :
    right.equals left = true := by
  rw [equals_iff] at same ⊢
  exact ⟨same.1.symm, same.2.1.symm, same.2.2.symm⟩

theorem equals_trans {first second third : FileSystemNodeAttributes}
    (left : first.equals second = true) (right : second.equals third = true) :
    first.equals third = true := by
  rw [equals_iff] at left right ⊢
  exact ⟨left.1.trans right.1, left.2.1.trans right.2.1, left.2.2.trans right.2.2⟩

theorem copy_from_equals (attributes other : FileSystemNodeAttributes) :
    (attributes.copyFrom other).equals other = true := by
  simp [equals_iff, FileSystemNodeAttributes.copyFrom]

structure Block where
  volumeNumber : Nat
  offset : Nat
  size : Nat
  deriving DecidableEq, Repr

inductive CompressionSetting where
  | lzma
  deriving DecidableEq, Repr

/-- `hashes` is the tree map of the recorded digests, as its lookup function. -/
structure BackupNodeAttributes extends FileSystemNodeAttributes where
  ownsBlocks : Bool
  compressionSetting : Option CompressionSetting
  backReferenceTarget : Option Path
  blocks : List Block
  hashes : HashAlgorithm → Option String
  deriving DecidableEq

/-- The constructor from scanned attributes does not initialise `ownsBlocks`;
`uninitialised` is whatever value the member happens to have. -/
def BackupNodeAttributes.ofFileSystemNodeAttributes (uninitialised : Bool)
    (attributes : FileSystemNodeAttributes) : BackupNodeAttributes where
  toFileSystemNodeAttributes := attributes
  ownsBlocks := uninitialised
  compressionSetting := none
  backReferenceTarget := none
  blocks := []
  hashes := fun _ => none

def BackupNodeAttributes.copyFrom (attributes : BackupNodeAttributes)
    (other : FileSystemNodeAttributes) : BackupNodeAttributes :=
  { attributes with
    toFileSystemNodeAttributes := attributes.toFileSystemNodeAttributes.copyFrom other }

/-- A block that continues the last one in the same volume is merged into it. -/
def appendBlock : List Block → Block → List Block
  | [], block => [block]
  | [lastBlock], block =>
      if lastBlock.volumeNumber = block.volumeNumber ∧
          lastBlock.offset + lastBlock.size = block.offset then
        [{ lastBlock with size := lastBlock.size + block.size }]
      else [lastBlock, block]
  | first :: second :: rest, block => first :: appendBlock (second :: rest) block

def BackupNodeAttributes.addBlock (attributes : BackupNodeAttributes) (block : Block) :
    BackupNodeAttributes :=
  { attributes with
    ownsBlocks := true
    blocks := appendBlock attributes.blocks block }

def BackupNodeAttributes.computeSumOfBlockSizes (attributes : BackupNodeAttributes) : Nat :=
  (attributes.blocks.map Block.size).sum

/-- Raises when another digest is already recorded for the algorithm. -/
def BackupNodeAttributes.addHashValue (attributes : BackupNodeAttributes)
    (algorithm : HashAlgorithm) (hashValue : String) : Except Fault BackupNodeAttributes :=
  match attributes.hashes algorithm with
  | some recorded =>
      if recorded = hashValue then
        .ok { attributes with hashes := Function.update attributes.hashes algorithm (some hashValue) }
      else .error .verificationFailed
  | none =>
      .ok { attributes with hashes := Function.update attributes.hashes algorithm (some hashValue) }

/-- `Hash`: looking up an algorithm that was not recorded raises. -/
def BackupNodeAttributes.hash (attributes : BackupNodeAttributes) (algorithm : HashAlgorithm) :
    Except Fault String :=
  match attributes.hashes algorithm with
  | some value => .ok value
  | none => .error .missingKey

def BackupNodeAttributes.hasNodeData (attributes : BackupNodeAttributes) : Bool :=
  attributes.ownsBlocks || attributes.size = 0

theorem append_block_nonempty (blocks : List Block) (block : Block) :
    appendBlock blocks block ≠ [] := by
  cases blocks with
  | nil => simp [appendBlock]
  | cons first rest =>
      cases rest with
      | nil =>
          simp only [appendBlock]
          split <;> simp
      | cons second rest => simp [appendBlock]

/-- Either the block was pushed, or it was merged into the last block. -/
theorem append_block_cases (blocks : List Block) (block : Block) :
    appendBlock blocks block = blocks ++ [block] ∨
      ∃ front lastBlock, blocks = front ++ [lastBlock] ∧
        lastBlock.volumeNumber = block.volumeNumber ∧
        lastBlock.offset + lastBlock.size = block.offset ∧
        appendBlock blocks block =
          front ++ [{ lastBlock with size := lastBlock.size + block.size }] := by
  induction blocks with
  | nil => exact .inl rfl
  | cons first rest induction =>
      cases rest with
      | nil =>
          by_cases adjacent : first.volumeNumber = block.volumeNumber ∧
              first.offset + first.size = block.offset
          · refine .inr ⟨[], first, rfl, adjacent.1, adjacent.2, ?_⟩
            simp only [appendBlock, if_pos adjacent, List.nil_append]
          · exact .inl (by simp only [appendBlock, if_neg adjacent, List.cons_append,
              List.nil_append])
      | cons second rest =>
          simp only [appendBlock]
          rcases induction with pushed | ⟨front, lastBlock, split, volume, offset, merged⟩
          · exact .inl (by rw [pushed]; rfl)
          · refine .inr ⟨first :: front, lastBlock, ?_, volume, offset, ?_⟩
            · rw [split]
              rfl
            · rw [merged]
              rfl

end ACBackup.NodeAttributes
