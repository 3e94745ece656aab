-- SUMMARY: Faults that can be put into a simulated device.
import TwinLog.Error

/-! # Faults

A fault waits for operations of certain kinds, lets a number of them pass, and then hits. What it
does to the operation is its effect. -/

namespace TwinLog.Sim

inductive OperationKind where
  | read
  | write
  | erase
  | sync
deriving DecidableEq

/-- What a fault does to the operation that it hits. -/
inductive Effect where
  /-- The operation fails. A write or an erase still changes its first `torn` bytes. -/
  | fail (error : Error) (torn : Nat)
  /-- The operation does nothing but succeed, and the bytes of a read are garbled by a mask. -/
  | garble (mask : List UInt8)
deriving DecidableEq

structure Fault where
  /-- The kinds of operations that it hits. -/
  kinds : List OperationKind
  /-- How many of them pass first. -/
  after : Nat
  /-- Whether it is gone after it has hit. -/
  once : Bool
  effect : Effect
deriving DecidableEq

/-- What the fault does to the next operation, and what is left of the fault. -/
def Fault.strike (f : Fault) (kind : OperationKind) : Option Effect × Option Fault :=
  if kind ∉ f.kinds then (none, some f)
  else
    match f.after with
    | n + 1 => (none, some { f with after := n })
    | 0 => (some f.effect, if f.once then none else some f)

/-- The bytes xored with a mask, which may be shorter. -/
def garbleBytes : List UInt8 → List UInt8 → List UInt8
  | byte :: bytes, mask :: masks => (byte ^^^ mask) :: garbleBytes bytes masks
  | bytes, [] => bytes
  | [], _ => []

end TwinLog.Sim
