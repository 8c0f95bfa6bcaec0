import ACBackup.FileReading

/-!
A snapshot as it is loaded: its name and its index, with the volume files below
the data directory of that name. A chain of snapshots is a snapshot together
with its predecessors, the newest first.
-/

namespace ACBackup.SnapshotChain

open ACBackup.Library.Loop
open ACBackup.Platform ACBackup.NodeAttributes ACBackup.Indexing ACBackup.VolumeReading
open ACBackup.FileReading

set_option autoImplicit false

structure Snapshot where
  name : String
  index : BackupNodeIndex
  deriving DecidableEq

abbrev VolumeContents := String → Nat → Bytes

def Snapshot.fileSystem (snapshot : Snapshot) (volumes : VolumeContents) : VolumeStore :=
  openForReading (volumes snapshot.name) snapshot.index

/-- The snapshot that has the data of a node, the path of the node there, and
how many snapshots were gone back. -/
structure DataNode where
  distance : Nat
  snapshot : Snapshot
  path : Path

def parentPath (path : Path) (attributes : BackupNodeAttributes) : Path :=
  match attributes.backReferenceTarget with
  | some target => target
  | none => path

def findDataSnapshot (snapshot : Snapshot) :
    List Snapshot → Nat → Except Fault DataNode
  | previous, nodeIndex => do
      let attributes ← snapshot.index.getNodeAttributes nodeIndex
      let path ← snapshot.index.getNodePath nodeIndex
      if attributes.hasNodeData then
        .ok { distance := 0, snapshot := snapshot, path := path }
      else
        match previous with
        | [] => .error .nullPointer
        | prev :: older => do
            let parentIndex ← prev.index.getNodeIndex (parentPath path attributes)
            let found ← findDataSnapshot prev older parentIndex
            .ok { found with distance := found.distance + 1 }

/-- The stream that `VerifyNode` reads, with the size that it must have. -/
def openForVerification (runtime : Runtime) (algorithm : HashAlgorithm) (volumes : VolumeContents)
    (snapshot : Snapshot) (path : Path) : Except Fault (InputChain × Nat) := do
  let nodeIndex ← snapshot.index.getNodeIndex path
  let attributes ← snapshot.index.getNodeAttributes nodeIndex
  let store := snapshot.fileSystem volumes
  let chain ←
    if attributes.type = .link then
      openLinkTargetAsStream runtime algorithm store snapshot.index path true
    else openFileForReading runtime algorithm store snapshot.index nodeIndex true
  .ok (chain, attributes.size)

/-- Only a failed verification is caught. -/
def verdict (size : Nat) : Except Fault Bytes → Except Fault Bool
  | .ok content => .ok (content.length = size)
  | .error .verificationFailed => .ok false
  | .error fault => .error fault

def verifyNode (runtime : Runtime) (algorithm : HashAlgorithm) (volumes : VolumeContents)
    (snapshot : Snapshot) (path : Path) (fuel : Nat) : Attempt Fault Bool :=
  match openForVerification runtime algorithm volumes snapshot path with
  | .error fault => some (.error fault)
  | .ok (chain, size) =>
      (flushTo runtime algorithm (snapshot.fileSystem volumes) chain fuel).map (verdict size)

end ACBackup.SnapshotChain
