import ACBackup.Library.Parties
import ACBackup.SnapshotChain

/-!
The block streams that read from one `FlatVolumesFileSystem` side by side, with
what they share: the array of volumes, the number of open volume files and its lock.
A step is one section under one lock, or one access to the volume whose mutex the
stream holds. The stages above a block stream are not part of it: their buffer makes
the requests, and those may be of any size here.
-/

namespace ACBackup.ReadingStreams

open ACBackup.Library.Extents ACBackup.Library.Transition ACBackup.Library.Parties
open ACBackup.Platform ACBackup.NodeAttributes ACBackup.Indexing ACBackup.VolumeReading
open ACBackup.SnapshotChain

set_option autoImplicit false

/-- `file` tells whether the file is open, `mutex` which stream holds the mutex. The
counter is not bounded here, neither by the 64 bits that it has nor by zero. -/
structure VolumeForReading where
  file : Bool
  counter : Int
  mutex : Option Nat
  deriving DecidableEq

structure ReadingSide where
  volumes : List VolumeForReading
  nOpenVolumes : UInt16
  nOpenVolumesLock : Option Nat
  deriving DecidableEq

def ReadingSide.setVolume (side : ReadingSide) (number : Nat) (volume : VolumeForReading) :
    ReadingSide :=
  { side with volumes := side.volumes.set number volume }

def openVolumes (store : VolumeStore) : ReadingSide where
  volumes := List.replicate store.nVolumes { file := false, counter := 0, mutex := none }
  nOpenVolumes := 0
  nOpenVolumesLock := none

/-- A call of `FlatVolumesFileSystem::ReadBytes`: it is asked for `leftSize` bytes,
`left` of them are missing. The call of the stream still wants `count`. -/
structure VolumeRequest where
  count : Nat
  volumeNumber : Nat
  offset : Nat
  leftSize : Nat
  left : Nat
  deriving DecidableEq

/-- Where such a call stands. A volume that was closed, or a file that was opened,
is counted while the mutex of the volume is still held. -/
inductive VolumeStage where
  | called
  | closing (position : Nat)
  | closed (position : Nat)
  | looping
  | locked
  | opened
  | ready
  | finished
  deriving DecidableEq

/-- `counting` is `IncrementVolumeCounters`, `reading` the head of the loop of
`FlatVolumesBlockInputStream::ReadBytes`. -/
inductive StreamPhase where
  | counting
  | raised (fault : Fault)
  | idle
  | reading (count : Nat)
  | inVolume (request : VolumeRequest) (stage : VolumeStage)
  | destroyed
  deriving DecidableEq

/-- A call of `OpenFileForReading` and the stream it makes. `expected` is the
digest that the chain is built with; `counted` blocks have a reference. -/
structure ReadingStream where
  expected : Except Fault (Option String)
  stream : BlockInputStream
  counted : Nat
  phase : StreamPhase
  deriving DecidableEq

def ReadingStream.alive (reader : ReadingStream) : Bool :=
  match reader.phase with
  | .idle => true
  | .reading _ => true
  | .inVolume _ _ => true
  | _ => false

structure FileOpening where
  fileIndex : Nat
  verify : Bool
  deriving DecidableEq

def openFile (algorithm : HashAlgorithm) (index : BackupNodeIndex) (opening : FileOpening) :
    Option ReadingStream :=
  match index.getNodeAttributes opening.fileIndex with
  | .error _ => none
  | .ok attributes =>
      some
        { expected := if opening.verify then (attributes.hash algorithm).map some else .ok none
          stream := openBlocks attributes.blocks
          counted := 0
          phase := .counting }

/-- What a stream decides, and what the platform decides for it: how many bytes a
read returns, and whether the file of a volume fails. `readBytes` is a call of
`FlatVolumesBlockInputStream::ReadBytes`. -/
inductive ReadAction where
  | proceed
  | readBytes (count : UInt32)
  | receive (nBytesRead : Nat)
  | fail
  | destroy
  deriving DecidableEq

/-- The next block gets its reference; after the last one the chain is built. -/
def incrementVolumeCounters (side : ReadingSide) (reader : ReadingStream) :
    Option (ReadingSide × ReadingStream) :=
  match reader.stream.blocks[reader.counted]? with
  | none =>
      match reader.expected with
      | .ok _ => some (side, { reader with phase := .idle })
      | .error fault => some (side, { reader with phase := .raised fault })
  | some block =>
      match side.volumes[block.volumeNumber]? with
      | none => some (side, { reader with phase := .raised .outOfRange })
      | some volume =>
          if volume.mutex = none then
            some (side.setVolume block.volumeNumber { volume with counter := volume.counter + 1 },
              { reader with counted := reader.counted + 1 })
          else none

def ReadingStream.request (reader : ReadingStream) (stream : BlockInputStream) (count : Nat) :
    ReadingStream :=
  match stream.blocks[stream.currentBlockIndex]? with
  | none => { reader with stream := stream, phase := .idle }
  | some block =>
      let leftSize := min count (downcastToClosest (block.size - stream.blockOffset))
      { reader with
        stream := stream
        phase := .inVolume
          { count := count
            volumeNumber := block.volumeNumber
            offset := block.offset + stream.blockOffset
            leftSize := leftSize
            left := leftSize }
          .called }

/-- The head of the loop: a finished block is left with `DecrementVolumeCount`. -/
def readPass (side : ReadingSide) (reader : ReadingStream) (count : Nat) :
    Option (ReadingSide × ReadingStream) :=
  if count = 0 then some (side, { reader with phase := .idle })
  else
    match reader.stream.blocks[reader.stream.currentBlockIndex]? with
    | none => some (side, { reader with phase := .raised .outOfRange })
    | some block =>
        if block.size ≤ reader.stream.blockOffset then
          match side.volumes[block.volumeNumber]? with
          | none => some (side, { reader with phase := .raised .outOfRange })
          | some volume =>
              if volume.mutex = none then
                some
                  (side.setVolume block.volumeNumber { volume with counter := volume.counter - 1 },
                    reader.request (reader.stream.leaveFinishedBlock block) count)
              else none
        else some (side, reader.request reader.stream count)

/-- `CloseUnusedVolumes` before the first volume. -/
def beginClosing (side : ReadingSide) (number : Nat) : Option (ReadingSide × VolumeStage) :=
  if side.nOpenVolumesLock = none then
    if 100 < side.nOpenVolumes then
      some ({ side with nOpenVolumesLock := some number }, .closing 0)
    else some (side, .looping)
  else none

/-- `CloseUnusedVolumes` at one volume, or behind the last. -/
def closeVolume (side : ReadingSide) (number position : Nat) : Option (ReadingSide × VolumeStage) :=
  match side.volumes[position]? with
  | none => some ({ side with nOpenVolumesLock := none }, .looping)
  | some volume =>
      if volume.mutex = none then
        if volume.counter = 0 ∧ volume.file = true then
          some (side.setVolume position { volume with file := false, mutex := some number },
            .closed position)
        else some (side, .closing (position + 1))
      else none

def countClosed (side : ReadingSide) (position : Nat) : Option (ReadingSide × VolumeStage) :=
  match side.volumes[position]? with
  | none => none
  | some volume =>
      some
        ({ side.setVolume position { volume with mutex := none } with
            nOpenVolumes := side.nOpenVolumes - 1 },
          .closing (position + 1))

/-- `LockVolumeStream` when the mutex is held. -/
def openVolume (side : ReadingSide) (volumeNumber : Nat) : Option (ReadingSide × VolumeStage) :=
  match side.volumes[volumeNumber]? with
  | none => none
  | some volume =>
      if volume.file = true then some (side, .ready)
      else some (side.setVolume volumeNumber { volume with file := true }, .opened)

def unlockVolumeStream (side : ReadingSide) (volumeNumber : Nat) :
    Option (ReadingSide × VolumeStage) :=
  match side.volumes[volumeNumber]? with
  | none => none
  | some volume => some (side.setVolume volumeNumber { volume with mutex := none }, .looping)

/-- The head of the loop of `FlatVolumesFileSystem::ReadBytes`. -/
def volumePass (side : ReadingSide) (number : Nat) (reader : ReadingStream)
    (request : VolumeRequest) : Option (ReadingSide × ReadingStream) :=
  if request.left = 0 then
    some (side,
      { reader with
        stream :=
          { reader.stream with blockOffset := reader.stream.blockOffset + request.leftSize }
        phase := .reading (request.count - request.leftSize) })
  else
    match side.volumes[request.volumeNumber]? with
    | none => some (side, { reader with phase := .raised .outOfRange })
    | some volume =>
        if volume.mutex = none then
          some (side.setVolume request.volumeNumber { volume with mutex := some number },
            { reader with phase := .inVolume request .locked })
        else none

def proceedInVolume (side : ReadingSide) (number : Nat) (request : VolumeRequest) :
    VolumeStage → Option (ReadingSide × VolumeStage)
  | .called => beginClosing side number
  | .closing position => closeVolume side number position
  | .closed position => countClosed side position
  | .looping => none
  | .locked => openVolume side request.volumeNumber
  | .opened => some ({ side with nOpenVolumes := side.nOpenVolumes + 1 }, .ready)
  | .ready => none
  | .finished => unlockVolumeStream side request.volumeNumber

/-- Opening the file of a volume fails, or seeking and reading do. The mutex is not
given back. -/
def mayFail (side : ReadingSide) (request : VolumeRequest) : VolumeStage → Bool
  | .locked => (side.volumes[request.volumeNumber]?.map VolumeForReading.file) == some false
  | .ready => true
  | _ => false

def act (files : Nat → Bytes) (number : Nat) (side : ReadingSide) (reader : ReadingStream) :
    ReadAction → Option (ReadingSide × ReadingStream)
  | .proceed =>
      match reader.phase with
      | .counting => incrementVolumeCounters side reader
      | .reading count => readPass side reader count
      | .inVolume request .looping => volumePass side number reader request
      | .inVolume request stage =>
          (proceedInVolume side number request stage).map fun result =>
            (result.1, { reader with phase := .inVolume request result.2 })
      | _ => none
  | .readBytes count =>
      match reader.phase with
      | .idle =>
          if reader.stream.isAtEnd then some (side, reader)
          else some (side, { reader with phase := .reading count.toNat })
      | _ => none
  | .receive nBytesRead =>
      match reader.phase with
      | .inVolume request .ready =>
          if nBytesRead ≤
              (slice (files request.volumeNumber) request.offset request.left).length then
            some (side,
              { reader with
                phase := .inVolume { request with left := request.left - nBytesRead } .finished })
          else none
      | _ => none
  | .fail =>
      match reader.phase with
      | .inVolume request stage =>
          if mayFail side request stage = true then some (side, { reader with phase := .idle })
          else none
      | _ => none
  | .destroy =>
      match reader.phase with
      | .idle => some (side, { reader with phase := .destroyed })
      | _ => none

def readers (algorithm : HashAlgorithm) (store : VolumeStore) (index : BackupNodeIndex) :
    Protocol ReadingSide ReadingStream FileOpening ReadAction where
  initial := openVolumes store
  join := openFile algorithm index
  act := act store.files

def snapshotReaders (algorithm : HashAlgorithm) (volumes : VolumeContents) (snapshot : Snapshot) :
    Protocol ReadingSide ReadingStream FileOpening ReadAction :=
  readers algorithm (snapshot.fileSystem volumes) snapshot.index

end ACBackup.ReadingStreams
