import Mathlib

/-!
What the program takes from its runtime library: paths, dates, permissions,
hash functions and stream codecs. Everything here is either a plain value type
or a parameter; the behaviour that the program relies on is a field of the
parameter that it constrains.
-/

namespace ACBackup.Platform

set_option autoImplicit false

abbrev Byte := UInt8
abbrev Bytes := List Byte

/-- A normalised absolute path, kept as the components below "/". The paths of
every index are of this kind: the scan starts at "/" and only appends names. -/
structure Path where
  components : List String
  deriving DecidableEq, Repr

def Path.root : Path := ⟨[]⟩

def Path.child (parent : Path) (name : String) : Path := ⟨parent.components ++ [name]⟩

def Path.name (path : Path) : String := path.components.getLast?.getD ""

def Path.parent (path : Path) : Path := ⟨path.components.dropLast⟩

/-- `String()`: the root is "/", and the others have no slash at the end. -/
def Path.string (path : Path) : String := "/" ++ String.intercalate "/" path.components

/-- Concatenation of the two path strings, as in `restorePoint.String() + path.String()`. -/
def Path.concat (first second : Path) : Path := ⟨first.components ++ second.components⟩

theorem child_parent (path : Path) (name : String) : (path.child name).parent = path := by
  simp [Path.child, Path.parent]

theorem child_name (path : Path) (name : String) : (path.child name).name = name := by
  simp [Path.child, Path.name]

theorem child_ne_root (path : Path) (name : String) : path.child name ≠ Path.root := by
  simp [Path.child, Path.root]

theorem parent_child {path : Path} (inner : path ≠ Path.root) :
    path.parent.child path.name = path := by
  cases path with
  | mk components =>
      have nonempty : components ≠ [] := by
        intro empty
        subst empty
        exact inner rfl
      simp only [Path.child, Path.parent, Path.name, List.getLast?_eq_some_getLast nonempty,
        Option.getD_some, List.dropLast_append_getLast nonempty]

structure DateTime where
  year : Nat
  month : Nat
  day : Nat
  hour : Nat
  minute : Nat
  second : Nat
  millisecond : Nat
  deriving DecidableEq, Repr

inductive FileType where
  | directory
  | file
  | link
  deriving DecidableEq, Repr

structure AccessRights where
  read : Bool
  write : Bool
  execute : Bool
  deriving DecidableEq, Repr

/-- The only kind of permissions that the program can serialise. -/
structure POSIXPermissions where
  userId : Int
  groupId : Int
  owner : AccessRights
  group : AccessRights
  others : AccessRights
  deriving DecidableEq, Repr

def encodeRights (rights : AccessRights) : Nat :=
  4 * rights.read.toNat + 2 * rights.write.toNat + rights.execute.toNat

def decodeRights (bits : Nat) : AccessRights where
  read := bits.testBit 2
  write := bits.testBit 1
  execute := bits.testBit 0

def encodeMode (permissions : POSIXPermissions) : Nat :=
  64 * encodeRights permissions.owner + 8 * encodeRights permissions.group +
    encodeRights permissions.others

def posixPermissions (userId groupId : Int) (mode : Nat) : POSIXPermissions where
  userId := userId
  groupId := groupId
  owner := decodeRights (mode / 64 % 8)
  group := decodeRights (mode / 8 % 8)
  others := decodeRights (mode % 8)

theorem encode_rights_lt (rights : AccessRights) : encodeRights rights < 8 := by
  obtain ⟨read, write, execute⟩ := rights
  cases read <;> cases write <;> cases execute <;> decide

theorem decode_rights_encode (rights : AccessRights) :
    decodeRights (encodeRights rights) = rights := by
  obtain ⟨read, write, execute⟩ := rights
  cases read <;> cases write <;> cases execute <;> decide

/-- Decoding the encoded mode gives back every right of every class. -/
theorem posix_permissions_encode (permissions : POSIXPermissions) :
    posixPermissions permissions.userId permissions.groupId (encodeMode permissions) =
      permissions := by
  have ownerBound := encode_rights_lt permissions.owner
  have groupBound := encode_rights_lt permissions.group
  have othersBound := encode_rights_lt permissions.others
  have owner : encodeMode permissions / 64 % 8 = encodeRights permissions.owner := by
    rw [encodeMode]
    omega
  have group : encodeMode permissions / 8 % 8 = encodeRights permissions.group := by
    rw [encodeMode]
    omega
  have others : encodeMode permissions % 8 = encodeRights permissions.others := by
    rw [encodeMode]
    omega
  simp only [posixPermissions, owner, group, others, decode_rights_encode]

inductive HashAlgorithm where
  | md5
  | sha512_256
  deriving DecidableEq, Repr

instance : Fintype HashAlgorithm where
  elems := {.md5, .sha512_256}
  complete algorithm := by cases algorithm <;> simp

inductive Fault where
  | outOfRange
  | missingKey
  | nullPointer
  | fileMissing
  | fileExists
  | malformed
  | streamPipingFailed (path : Path)
  | verificationFailed
  | decompressionFailed
  | configInvalid (field : String)
  | notImplemented
  | assertionFailed
  deriving DecidableEq, Repr

/-- A decoder looks at the raw bytes received so far and either asks for more,
delivers the whole content, or raises. -/
inductive DecoderStep where
  | more
  | done (content : Bytes)
  | failed (fault : Fault)
  deriving DecidableEq, Repr

/-- The stages of an input chain between the stored bytes and the content. Once
its input has ended a decoder does not ask again. -/
structure Decoder where
  next : Bytes → Bool → DecoderStep
  stops : ∀ raw, next raw true ≠ .more

def plainDecoder : Decoder where
  next raw ended := if ended then .done raw else .more
  stops raw := by simp

/-- The runtime library. `hash` gives the lower-case digest string; a compressed
stream starts with a header and so is never empty; the decompressor is created
with a flag that tells it to verify; `bufferSize` is the size of the requests of
a `BufferedInputStream`. -/
structure Runtime where
  hash : HashAlgorithm → Bytes → String
  compress : Nat → Bytes → Bytes
  compress_nonempty : ∀ level content, compress level content ≠ []
  lzma : Bool → Decoder
  bufferSize : UInt32
  bufferSize_positive : 0 < bufferSize.toNat

/-- A runtime to compute with: the digest spells the bytes, and a compressed
stream is the content behind a header of one byte. -/
def spellingRuntime : Runtime where
  hash _ content := String.ofList (content.map fun byte => Char.ofNat byte.toNat)
  compress _ content := 0 :: content
  compress_nonempty _ _ := by simp
  lzma _ :=
    { next := fun raw ended =>
        if ended then
          match raw with
          | [] => .failed .decompressionFailed
          | _ :: content => .done content
        else .more
      stops := fun raw => by cases raw <;> simp }
  bufferSize := 4096
  bufferSize_positive := by decide

def CollisionFree (runtime : Runtime) (algorithm : HashAlgorithm) : Prop :=
  Function.Injective (runtime.hash algorithm)

theorem spelling_collision_free (algorithm : HashAlgorithm) :
    CollisionFree spellingRuntime algorithm := by
  intro left right same
  have characters : left.map (fun byte => Char.ofNat byte.toNat) =
      right.map fun byte => Char.ofNat byte.toNat := String.ofList_injective same
  apply List.map_injective_iff.mpr _ characters
  intro first second equal
  have valid : ∀ number < 256, (Char.ofNat number).toNat = number := by
    intro number bound
    have isChar : number.isValidChar := .inl (by omega)
    rw [Char.ofNat, dif_pos isChar]
    rfl
  have numbers := congrArg Char.toNat equal
  rw [valid _ first.toNat_lt, valid _ second.toNat_lt] at numbers
  exact UInt8.toNat_inj.mp numbers

end ACBackup.Platform
