-- SUMMARY: The device operations carried out by a NOR flash driver.
import TwinLog.Align
import TwinLog.Device

/-! # NOR flash

A NOR flash driver reads at its own granularity and erases from an address to an address. Here
the operations of a device become scripts over such a driver: reads that are not aligned are
widened and cut, erases become ranges, and a sync needs no call because writes are committed when
the driver returns. -/

namespace TwinLog.NorFlash

/-! ## Drivers -/

inductive Call where
  | read (address : UInt32) (length : Nat)
  | write (address : UInt32) (bytes : List UInt8)
  /-- Erases the addresses from `start` up to but without `stop`. -/
  | erase (start stop : UInt32)
deriving DecidableEq

@[reducible] def Call.Data : Call → Type
  | .read _ length => Bytes length
  | .write _ _ => Unit
  | .erase _ _ => Unit

@[reducible] def Driver : Interface where
  Request := Call
  Reply call := Except DeviceFault call.Data

/-- Scripts over a driver that may fail. -/
abbrev Drive := ExceptT Error (Script Driver)

def call (c : Call) : Drive c.Data :=
  ExceptT.mk (Except.mapError Error.device <$> Script.ask Driver c)

/-! ## Reads -/

/-- The most bytes that are read in one call when a read is widened. -/
abbrev windowSize : Nat := 64

/-- Reads from `cursor` up to `stop`, at most `step` bytes a call. The driver is given the low 32
bits of each address. -/
def readWindow (step : Nat) (hs : 0 < step) (cursor stop : Nat) : Drive (List UInt8) :=
  if cursor < stop then do
    let length := min step (stop - cursor)
    let head ← call (.read cursor.toUInt32 length)
    let tail ← readWindow step hs (cursor + length) stop
    return head.toList ++ tail
  else return []
termination_by stop - cursor

/-- Reads `length` bytes. Unless address and length are multiples of the read granularity, the
read is widened to such multiples and the bytes asked for are cut out of it. -/
def read (readSize : UInt64) (address : UInt32) (length : Nat) : Drive (Bytes length) :=
  if address.toNat % readSize.toNat = 0 ∧ length % readSize.toNat = 0 then
    call (.read address length)
  else
    let start := (alignFloor address.toUInt64 readSize).toNat
    let stop := (alignCeil (address.toNat + length).toUInt64 readSize).toNat
    let step := max (alignFloor windowSize.toUInt64 readSize).toNat readSize.toNat
    if h : step = 0 ∨ windowSize < step then throw .notSupported
    else do
      let window ← readWindow step (by omega) start stop
      return .ofListPadded length (window.drop (address.toNat - start))

/-! ## Erases -/

/-- Erases `length` bytes. The end of the range is computed in 32 bits. -/
def erase (address : UInt32) (length : Nat) : Drive Unit :=
  let low := length.toUInt32
  if address.toNat + low.toNat < UInt32.size then call (.erase address (address + low))
  else throw .invalidArgument

/-! ## Operations -/

/-- Carries out a device operation with driver calls. -/
def perform (readSize : UInt64) : (operation : Operation) → Drive operation.Data
  | .read address length => read readSize address length
  | .write address bytes => call (.write address bytes)
  | .erase address length => erase address length
  | .sync => pure ()

end TwinLog.NorFlash
