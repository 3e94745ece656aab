-- SUMMARY: The table of devices and areas, which resolves areas and partitions to volumes.
import TwinLog.Volume

/-! # Tables

A table knows the devices and the areas mapped onto them. An area is a range of addresses of one
device, cut into partitions. Partition zero is the whole area, the others are counted from one.
Every area of a table lies on a device that the table knows. -/

namespace TwinLog

/-- A part of an area, relative to its start. -/
structure Partition where
  offset : UInt64
  size : UInt64
deriving DecidableEq

/-- A range of addresses on a device, with its partitions. -/
structure Area where
  name : String
  device : DeviceId
  /-- The device address of the first byte. -/
  base : UInt32
  size : UInt64
  partitions : List Partition
deriving DecidableEq

/-- Whether a partition ends within `size` bytes. -/
def Partition.fits (p : Partition) (size : UInt64) : Bool :=
  p.offset.toNat + p.size.toNat ≤ size.toNat

/-- The address behind the last byte, in 64-bit words. The sum is checked: if it is no word, there is
no result, and the program stops. (A build without overflow checks would go on with the sum modulo
`2 ^ 64`.) -/
def Area.stop? (area : Area) : Option UInt64 :=
  if area.base.toNat + area.size.toNat < UInt64.size then some (area.base.toUInt64 + area.size)
  else none

/-- A partition of an area. Partition zero is the area itself. -/
def Area.partition (area : Area) : Nat → Except Error Partition
  | 0 => .ok ⟨0, area.size⟩
  | n + 1 =>
    match area.partitions[n]? with
    | some p => .ok p
    | none => .error .invalidArgument

/-- Whether neither granularity is zero. -/
def Geometry.usable (g : Geometry) : Bool :=
  g.writeSize != some 0 && g.eraseSize != some 0

/-- The known devices, and the areas on them. -/
structure Table where
  devices : Array Geometry
  areas : Array Area
  device_lt : ∀ area ∈ areas, area.device.index < devices.size

namespace Table

def empty : Table where
  devices := #[]
  areas := #[]
  device_lt := by simp

/-! ## Registration -/

def addDevice (t : Table) (geometry : Geometry) : DeviceId × Table :=
  (⟨t.devices.size⟩, { t with
    devices := t.devices.push geometry
    device_lt := fun area h => by
      have := t.device_lt area h
      rw [Array.size_push]
      omega })

/-- Replaces the geometry of a device. -/
def setGeometry (t : Table) (device : DeviceId) (geometry : Geometry) : Table :=
  { t with
    devices := t.devices.setIfInBounds device.index geometry
    device_lt := fun area h => by
      rw [Array.size_setIfInBounds]
      exact t.device_lt area h }

/-- Registers an area and returns its index. The device has to be known and usable, the area has to
end within the address space, and every partition has to fit the area. There is no result if the end
of the area overflows. -/
def addArea (t : Table) (area : Area) : Option (Except Error (Nat × Table)) :=
  if h : area.device.index < t.devices.size then
    if t.devices[area.device.index].usable then
      -- the partitions are looked at only if the sum has not stopped the program
      area.stop?.map fun stop =>
        if stop ≤ addressSpace.toUInt64 && area.partitions.all fun p => p.fits area.size then
          .ok (t.areas.size, { t with
            areas := t.areas.push area
            device_lt := fun other mem => by
              rcases Array.mem_push.1 mem with old | rfl
              · exact t.device_lt other old
              · exact h })
        else .error .invalidArgument
    else some (.error .invalidArgument)
  else some (.error .invalidArgument)

/-! ## Resolution -/

def area (t : Table) (index : Nat) : Except Error Area :=
  match t.areas[index]? with
  | some area => .ok area
  | none => .error .invalidArgument

/-- The geometry of the device that an area lies on. -/
def geometry (t : Table) (index : Nat) : Except Error Geometry :=
  if h : index < t.areas.size then
    have := t.device_lt t.areas[index] (Array.getElem_mem h)
    .ok t.devices[t.areas[index].device.index]
  else .error .invalidArgument

def partition (t : Table) (area part : Nat) : Except Error Partition := do
  let area ← t.area area
  area.partition part

/-- The volume that a partition occupies. -/
def volume (t : Table) (area part : Nat) : Except Error Volume := do
  let descriptor ← t.area area
  let geometry ← t.geometry area
  let p ← descriptor.partition part
  return {
    device := descriptor.device
    geometry
    start := descriptor.base.toNat + p.offset.toNat
    size := p.size.toNat
  }

/-! ## Access -/

def read (t : Table) (area part offset length : Nat) : Access (Bytes length) := do
  let v ← t.volume area part
  v.read offset length

def write (t : Table) (area part offset : Nat) (bytes : List UInt8) : Access Unit := do
  let v ← t.volume area part
  v.write offset bytes

def erase (t : Table) (area part offset length : Nat) : Access Unit := do
  let v ← t.volume area part
  v.erase offset length

/-- Makes the device of an area commit what it holds back. -/
def sync (t : Table) (area : Nat) : Access Unit := do
  let descriptor ← t.area area
  descriptor.device.perform .sync

end Table

end TwinLog
