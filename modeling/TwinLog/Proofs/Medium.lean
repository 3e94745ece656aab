-- SUMMARY: Media: the bytes of all devices, and the devices that keep them, with and without trouble.
import TwinLog.Proofs.Wp
import TwinLog.Sim.Fault
import TwinLog.Sim.Memory

/-! # Media

A medium is the content of all devices by address. Hardware answers requests from a medium: reads
return the bytes, writes program them, erases reset them to ones. A device may lack an erase or a
sync. Trouble makes operations fail after a part of their effect, and power loss leaves such a part
and no reply. -/

namespace TwinLog

/-- The bytes of all devices by address. -/
abbrev Medium := DeviceId → Nat → UInt8

namespace Medium

def erased : Medium := fun _ _ => 0xFF

def read (m : Medium) (device : DeviceId) (address length : Nat) : Bytes length :=
  Vector.ofFn fun i => m device (address + i.val)

def program (m : Medium) (mode : Sim.Programming) (device : DeviceId) (address : Nat)
    (bytes : List UInt8) : Medium := fun d a =>
  if d = device ∧ address ≤ a ∧ a < address + bytes.length then
    mode.apply (m d a) (bytes.getD (a - address) 0)
  else m d a

def reset (m : Medium) (device : DeviceId) (address length : Nat) : Medium := fun d a =>
  if d = device ∧ address ≤ a ∧ a < address + length then 0xFF else m d a

@[simp] theorem reset_zero (m : Medium) (device : DeviceId) (address : Nat) :
    m.reset device address 0 = m := by
  funext d a
  exact if_neg (by omega)

@[simp] theorem program_nil (m : Medium) (mode : Sim.Programming) (device : DeviceId)
    (address : Nat) : m.program mode device address [] = m := by
  funext d a
  exact if_neg (by simp)

end Medium

/-! ## Hardware -/

/-- What a device can do. -/
structure Traits where
  /-- What a write does to a byte. -/
  programming : Sim.Programming
  /-- Whether there is a native erase. -/
  erases : Bool
  /-- Whether there is a sync. -/
  syncs : Bool
deriving DecidableEq

/-- What each device can do. -/
abbrev Hardware := DeviceId → Traits

def Operation.kind : Operation → Sim.OperationKind
  | .read _ _ => .read
  | .write _ _ => .write
  | .erase _ _ => .erase
  | .sync => .sync

/-- A failure of an operation, which changes its first bytes before it reports the fault. -/
structure Failure where
  bytes : Nat
  fault : DeviceFault
deriving DecidableEq

/-- How operations of each kind fail, where they do. -/
abbrev Trouble := Sim.OperationKind → Option Failure

def Trouble.none : Trouble := fun _ => .none

namespace Hardware

variable (hw : Hardware)

/-- The answer of a device that works. -/
def answer : (request : Bus.Request) → StateM Medium (Bus.Reply request)
  | ⟨device, .read address length⟩ => fun m => (.ok (m.read device address.toNat length), m)
  | ⟨device, .write address bytes⟩ => fun m =>
    (.ok (), m.program (hw device).programming device address.toNat bytes)
  | ⟨device, .erase address length⟩ => fun m =>
    if (hw device).erases then (.ok (), m.reset device address.toNat length)
    else (.error .notSupported, m)
  | ⟨device, .sync⟩ => fun m =>
    (if (hw device).syncs then .ok () else .error .notSupported, m)

/-- What is left when an operation stops after its first bytes. -/
def tear (bytes : Nat) : Bus.Request → Medium → Medium
  | ⟨device, .write address content⟩, m =>
    m.program (hw device).programming device address.toNat (content.take bytes)
  | ⟨device, .erase address length⟩, m =>
    if (hw device).erases then m.reset device address.toNat (min bytes length) else m
  | ⟨_, .read _ _⟩, m => m
  | ⟨_, .sync⟩, m => m

/-- The answer of a device in trouble. -/
def answerIn (trouble : Trouble) (request : Bus.Request) : StateM Medium (Bus.Reply request) :=
  fun m =>
    match trouble request.operation.kind with
    | none => hw.answer request m
    | some failure => (.error (.device failure.fault), hw.tear failure.bytes request m)

/-- Devices in trouble that may lose power after any part of an operation. -/
def server (trouble : Trouble) : Server Bus Medium where
  replies request m reply m' := (reply, m') = hw.answerIn trouble request m
  breaks request m m' := ∃ bytes, m' = hw.tear bytes request m

@[simp] theorem answerIn_none : hw.answerIn .none = hw.answer := rfl

end Hardware

end TwinLog
