-- SUMMARY: Test benches: simulated devices behind a table, with storages on them.
import TwinLog.Sim.Device
import TwinLog.Storage

/-! # Benches

A bench puts simulated devices behind a table and runs scripts on them. -/

namespace TwinLog.Sim

/-- Simulated devices, the table that knows them, and storages. -/
structure Bench where
  table : Table := .empty
  devices : Array Device := #[]
  storages : Array Storage := #[]
  /-- Whether the program has stopped at an overflow. It gives no answers from then on. -/
  stopped : Bool := false

/-- The answer of one of the devices. A device that does not exist fails. -/
def answer (request : Bus.Request) : StateM (Array Device) (Bus.Reply request) := fun devices =>
  match devices[request.device.index]? with
  | none => (.error (.device .other), devices)
  | some device =>
    let (result, device) := device.perform request.operation
    (result, devices.setIfInBounds request.device.index device)

namespace Bench

def run {α : Type} (b : Bench) (script : Script Bus α) : α × Bench :=
  let (result, devices) := script.run answer b.devices
  (result, { b with devices })

/-- Runs a script that may fail on the devices. -/
def access {α : Type} (b : Bench) (script : Access α) : Except Error α × Bench :=
  b.run script.run

/-! ## Setting up -/

def addDevice (b : Bench) (geometry : Geometry) (device : Device) : DeviceId × Bench :=
  let (id, table) := b.table.addDevice geometry
  (id, { b with table, devices := b.devices.push device })

/-- Adds an area. Where that stops the program, the result is of no account. -/
def addArea (b : Bench) (area : Area) : Except Error Nat × Bench :=
  match b.table.addArea area with
  | none => (.error .invalidArgument, { b with stopped := true })
  | some (.error e) => (.error e, b)
  | some (.ok (index, table)) => (.ok index, { b with table })

def addStorage (b : Bench) (storage : Storage) : Bench :=
  { b with storages := b.storages.push storage }

/-! ## Storages -/

/-- Runs a script that takes a storage and returns it. -/
def useStorage {α : Type} (b : Bench) (index : Nat)
    (script : Storage → Table → Script Bus (α × Storage)) : Option (α × Bench) :=
  match b.storages[index]? with
  | none => none
  | some storage =>
    let ((result, storage), b) := b.run (script storage b.table)
    some (result, { b with storages := b.storages.setIfInBounds index storage })

/-! ## Behind the scenes -/

/-- Changes a chip without a call to it. -/
def modifyChip (b : Bench) (id : DeviceId) (change : Chip → Chip) : Bench :=
  { b with devices := b.devices.modify id.index fun d => { d with chip := change d.chip } }

def poke (b : Bench) (id : DeviceId) (address : Nat) (bytes : List UInt8) : Bench :=
  b.modifyChip id fun chip =>
    { chip with memory := chip.memory.write .overwrite address bytes }

def setFault (b : Bench) (id : DeviceId) (fault : Option Fault) : Bench :=
  b.modifyChip id fun chip => { chip with fault }

def setGeometry (b : Bench) (id : DeviceId) (geometry : Geometry) : Bench :=
  { b with table := b.table.setGeometry id geometry }

/-- The calls that reached each device, in order, since they were last taken. -/
def takeEvents (b : Bench) : List (List Event) × Bench :=
  (b.devices.toList.map fun d => d.chip.events.reverse,
    { b with devices := b.devices.map fun d => { d with chip := { d.chip with events := [] } } })

end Bench

end TwinLog.Sim
