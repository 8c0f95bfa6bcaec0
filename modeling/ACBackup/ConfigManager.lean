import ACBackup.Library.Outcome
import ACBackup.IndexSerialization

/-!
The configuration reader. The document holds the numbers as they were written;
the units are applied after the only range check there is.
-/

namespace ACBackup.ConfigManager

open ACBackup.Library.Outcome
open ACBackup.Platform ACBackup.NodeAttributes ACBackup.IndexSerialization

set_option autoImplicit false

inductive StatusTrackerType where
  | terminal
  | web
  deriving DecidableEq, Repr

/-- The fields of `config.json`, already of the width that they are bound to. -/
structure ConfigDocument where
  sourcePath : Path
  blockSize : UInt32
  volumeSize : UInt64
  compression : String
  maxCompressionLevel : UInt8
  hashAlgorithm : String
  statusTracker : String
  statusTrackerPort : UInt16
  deriving DecidableEq

structure Config where
  sourcePath : Path
  blockSize : UInt32
  volumeSize : UInt64
  compressionSetting : CompressionSetting
  maxCompressionLevel : UInt8
  hashAlgorithm : HashAlgorithm
  statusTrackerType : StatusTrackerType
  statusTrackerPort : UInt16
  deriving DecidableEq

def KiB : UInt32 := 1024
def MiB : UInt64 := 1048576

def statusTrackerNamed (name : String) : Option StatusTrackerType :=
  if name = "terminal" then some .terminal
  else if name = "web" then some .web
  else none

/-- `Archive(JSONDeserializer&, Config&)`: both products wrap at their width. -/
def archive (document : ConfigDocument) : Except Fault Config := do
  let compressionSetting ← mapped (compressionSettingNamed document.compression)
  let hashAlgorithm ← mapped (hashAlgorithmNamed document.hashAlgorithm)
  let statusTrackerType ← mapped (statusTrackerNamed document.statusTracker)
  if document.maxCompressionLevel ≤ 9 then
    .ok
      { sourcePath := document.sourcePath
        blockSize := document.blockSize * KiB
        volumeSize := document.volumeSize * MiB
        compressionSetting := compressionSetting
        maxCompressionLevel := document.maxCompressionLevel
        hashAlgorithm := hashAlgorithm
        statusTrackerType := statusTrackerType
        statusTrackerPort := document.statusTrackerPort }
  else .error (.configInvalid "maxCompressionLevel")

theorem archive_volume_size {document : ConfigDocument} {config : Config}
    (accepted : archive document = .ok config) :
    config.volumeSize = document.volumeSize * MiB := by
  unfold archive at accepted
  obtain ⟨compressionSetting, _, accepted⟩ := bind_ok accepted
  obtain ⟨hashAlgorithm, _, accepted⟩ := bind_ok accepted
  obtain ⟨statusTrackerType, _, accepted⟩ := bind_ok accepted
  by_cases inside : document.maxCompressionLevel ≤ 9
  · rw [if_pos inside] at accepted
    cases accepted
    rfl
  · rw [if_neg inside] at accepted
    cases accepted

end ACBackup.ConfigManager
