-- SUMMARY: Volumes: partitions resolved to a range of device addresses, with checked accesses.
import TwinLog.Device

/-! # Volumes

A volume is a range of addresses on one device. Its accesses take offsets from the start of the
range. An access past the end, or one that the granularity of the device forbids, fails before
the device is asked. -/

namespace TwinLog

/-- The number of device addresses. -/
abbrev addressSpace : Nat := UInt32.size

/-- A range of addresses on a device. -/
structure Volume where
  device : DeviceId
  geometry : Geometry
  /-- The device address of offset zero. -/
  start : Nat
  size : Nat
deriving DecidableEq

namespace Volume

/-- The device address of `length` bytes at an offset. -/
def locate (v : Volume) (offset length : Nat) : Except Error UInt32 :=
  if offset + length ≤ v.size ∧ v.start + offset < addressSpace then
    .ok (v.start + offset).toUInt32
  else
    .error .invalidArgument

/-- The device address of `length` bytes at an offset, when both are multiples of a granularity.
A missing granularity is an unsupported operation. -/
def locateAligned (v : Volume) (granularity : Option UInt64) (offset length : Nat) :
    Except Error UInt32 := do
  let address ← v.locate offset length
  match granularity with
  | none => .error .notSupported
  | some unit =>
    if address.toNat % unit.toNat = 0 ∧ length % unit.toNat = 0 then .ok address
    else .error .invalidArgument

def read (v : Volume) (offset length : Nat) : Access (Bytes length) := do
  let address ← v.locate offset length
  v.device.perform (.read address length)

def write (v : Volume) (offset : Nat) (bytes : List UInt8) : Access Unit := do
  let address ← v.locateAligned v.geometry.writeSize offset bytes.length
  v.device.perform (.write address bytes)

def erase (v : Volume) (offset length : Nat) : Access Unit := do
  let address ← v.locateAligned v.geometry.eraseSize offset length
  v.device.perform (.erase address length)

end Volume

end TwinLog
