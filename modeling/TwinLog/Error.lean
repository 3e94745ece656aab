-- SUMMARY: The causes for which an access, a decoding or a save fails, with their wording.

/-! # Errors -/

namespace TwinLog

/-- What a device says went wrong with an operation. -/
inductive DeviceFault where
  | notAligned
  | outOfBounds
  | other
deriving DecidableEq

/-- Why an access or a log operation failed. -/
inductive Error where
  /-- Unknown area or partition, an access past the end of its partition, a misaligned
  access, or a text that does not fit its field. -/
  | invalidArgument
  /-- The device lacks the operation. -/
  | notSupported
  /-- A record declares more bytes than a record has, or runs past the end of its partition. -/
  | tooLarge
  /-- A log holds data that is neither a record nor erased. -/
  | malformedLog
  /-- The device itself failed. -/
  | device (fault : DeviceFault)
deriving DecidableEq

def DeviceFault.message : DeviceFault → String
  | .notAligned => "not aligned"
  | .outOfBounds => "out of bounds"
  | .other => "other"

def Error.message : Error → String
  | .invalidArgument => "invalid argument"
  | .notSupported => "operation not supported by device"
  | .tooLarge => "record too large"
  | .malformedLog => "malformed log"
  | .device fault => "device I/O error: " ++ fault.message

end TwinLog
