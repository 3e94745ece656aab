-- SUMMARY: Simulated devices of several kinds, each around a chip.
import TwinLog.Sim.Chip

/-! # Simulated devices

The kinds differ in the operations that they have and in what a write does. An operation that a
device lacks never reaches its chip. -/

namespace TwinLog.Sim

inductive DeviceKind where
  /-- Has every operation. -/
  | ram
  /-- Can be read and written. -/
  | eeprom
  /-- Can be read. -/
  | rom
  /-- NOR flash behind a driver that reads multiples of `readSize`. -/
  | nor (readSize : UInt64)
deriving DecidableEq

/-- Whether a device of the kind has an operation. -/
def DeviceKind.supports : DeviceKind → Operation → Bool
  | .ram, _ => true
  | .eeprom, .read _ _ => true
  | .eeprom, .write _ _ => true
  | .eeprom, _ => false
  | .rom, .read _ _ => true
  | .rom, _ => false
  | .nor _, _ => true

/-- Carries out an operation on a chip whose cells can be overwritten. -/
def Chip.perform (chip : Chip) : (operation : Operation) → Except Error operation.Data × Chip
  | .read address length => chip.read address.toNat length
  | .write address bytes => chip.write .overwrite address.toNat bytes
  | .erase address length => chip.erase address.toNat length
  | .sync => chip.sync

/-- The answer of a chip to a call of a NOR flash driver. -/
def Chip.answer (call : NorFlash.Driver.Request) : StateM Chip (NorFlash.Driver.Reply call) :=
  fun chip => chip.drive call

structure Device where
  kind : DeviceKind
  chip : Chip
deriving DecidableEq

def Device.perform (d : Device) (operation : Operation) :
    Except Error operation.Data × Device :=
  match d.kind with
  | .nor readSize =>
    let (result, chip) := (NorFlash.perform readSize operation).run.run Chip.answer d.chip
    (result, { d with chip })
  | _ =>
    if d.kind.supports operation then
      let (result, chip) := d.chip.perform operation
      (result, { d with chip })
    else (.error .notSupported, d)

end TwinLog.Sim
