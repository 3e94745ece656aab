-- SUMMARY: Simulated memory chips: memory, a fault, and a log of the calls that reached them.
import TwinLog.NorFlash
import TwinLog.Sim.Fault
import TwinLog.Sim.Memory

/-! # Simulated chips

Every call to a chip is logged, meets the fault of the chip if there is one, is checked against
the range of the memory, and only then has its effect. -/

namespace TwinLog.Sim

/-- A call as it is logged. -/
inductive Event where
  | read (address length : Nat)
  | write (address length : Nat)
  | erase (address length : Nat)
  | eraseRange (start stop : Nat)
  | sync
deriving DecidableEq

def Event.kind : Event → OperationKind
  | .read _ _ => .read
  | .write _ _ => .write
  | .erase _ _ => .erase
  | .eraseRange _ _ => .erase
  | .sync => .sync

structure Chip where
  memory : Memory
  fault : Option Fault := none
  /-- The calls so far, the latest first. -/
  events : List Event := []
deriving DecidableEq

namespace Chip

/-- Logs a call and lets it meet the fault. -/
def meet (chip : Chip) (event : Event) : Option Effect × Chip :=
  let chip := { chip with events := event :: chip.events }
  match chip.fault with
  | none => (none, chip)
  | some fault =>
    let (effect, rest) := fault.strike event.kind
    (effect, { chip with fault := rest })

/-- The error of an access outside the memory. -/
def outside : Error := .device .outOfBounds

def read (chip : Chip) (address length : Nat) : Except Error (Bytes length) × Chip :=
  let (effect, chip) := chip.meet (.read address length)
  if chip.memory.contains address length then
    let bytes := chip.memory.read address length
    match effect with
    | none => (.ok bytes, chip)
    | some (.fail error _) => (.error error, chip)
    | some (.garble mask) => (.ok (.ofListPadded length (garbleBytes bytes.toList mask)), chip)
  else (.error outside, chip)

/-- Changes cells. `inside` says whether they exist, and `apply n` is the memory after the first
`n` of them are changed. -/
def change (chip : Chip) (event : Event) (inside : Bool) (length : Nat) (apply : Nat → Memory) :
    Except Error Unit × Chip :=
  let (effect, chip) := chip.meet event
  if inside then
    match effect with
    | none => (.ok (), { chip with memory := apply length })
    | some (.fail error torn) => (.error error, { chip with memory := apply (min torn length) })
    | some (.garble _) => (.ok (), chip)
  else (.error outside, chip)

def write (chip : Chip) (mode : Programming) (address : Nat) (bytes : List UInt8) :
    Except Error Unit × Chip :=
  chip.change (.write address bytes.length) (chip.memory.contains address bytes.length)
    bytes.length fun n => chip.memory.write mode address (bytes.take n)

def erase (chip : Chip) (address length : Nat) : Except Error Unit × Chip :=
  chip.change (.erase address length) (chip.memory.contains address length) length
    fun n => chip.memory.erase address n

/-- Erases the cells from `start` up to but without `stop`. -/
def eraseRange (chip : Chip) (start stop : Nat) : Except Error Unit × Chip :=
  chip.change (.eraseRange start stop)
    (start ≤ stop && chip.memory.contains start (stop - start)) (stop - start)
    fun n => chip.memory.erase start n

/-- Commits what is written, which changes no cell. -/
def sync (chip : Chip) : Except Error Unit × Chip :=
  chip.change .sync true 0 fun _ => chip.memory

/-! ## NOR flash drivers -/

/-- What a NOR flash driver reports for an error. -/
def faultOf : Error → DeviceFault
  | .device fault => fault
  | _ => .other

/-- Carries out a call of a NOR flash driver. Writes only clear bits. -/
def drive (chip : Chip) : (call : NorFlash.Call) → Except DeviceFault call.Data × Chip
  | .read address length =>
    let (result, chip) := chip.read address.toNat length
    (result.mapError faultOf, chip)
  | .write address bytes =>
    let (result, chip) := chip.write .clearBits address.toNat bytes
    (result.mapError faultOf, chip)
  | .erase start stop =>
    let (result, chip) := chip.eraseRange start.toNat stop.toNat
    (result.mapError faultOf, chip)

end Chip

end TwinLog.Sim
