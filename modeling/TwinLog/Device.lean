-- SUMMARY: Memory devices: their geometry, the operations they offer and scripts that use them.
import TwinLog.Bytes
import TwinLog.Error
import TwinLog.Script

/-! # Devices

Devices hold bytes at 32-bit addresses of their own. Everything that reaches a device is an
`Operation`; a script over the `Bus` sends operations to numbered devices, and `Access` adds the
errors that end it early. -/

namespace TwinLog

/-- The granularities of a device in bytes. -/
structure Geometry where
  /-- Of writes, none where the device cannot be written. -/
  writeSize : Option UInt64
  /-- Of erases, none where the device has no native erase. -/
  eraseSize : Option UInt64
deriving DecidableEq

structure DeviceId where
  index : Nat
deriving DecidableEq

inductive Operation where
  | read (address : UInt32) (length : Nat)
  | write (address : UInt32) (bytes : List UInt8)
  | erase (address : UInt32) (length : Nat)
  | sync
deriving DecidableEq

/-- What a successful operation returns. -/
@[reducible] def Operation.Data : Operation → Type
  | .read _ length => Bytes length
  | .write _ _ => Unit
  | .erase _ _ => Unit
  | .sync => Unit

structure Request where
  device : DeviceId
  operation : Operation
deriving DecidableEq

@[reducible] def Bus : Interface where
  Request := Request
  Reply request := Except Error request.operation.Data

/-- Scripts over the devices that may fail. -/
abbrev Access := ExceptT Error (Script Bus)

def DeviceId.perform (device : DeviceId) (operation : Operation) : Access operation.Data :=
  ExceptT.mk (Script.ask Bus ⟨device, operation⟩)

end TwinLog
