-- SUMMARY: Appending a record to a log, and erasing a log on devices with and without native erase.
import TwinLog.Align
import TwinLog.Record.Basic
import TwinLog.Volume

/-! # Writing a log

A record goes behind the last one. Where it does not fit, or where the log cannot be relied on,
the whole volume is erased first. A device without native erase is filled with the erased
pattern, in chunks as large as its write granularity allows. -/

namespace TwinLog.Volume

/-- The most bytes that are filled in one write. -/
abbrev maxChunk : Nat := 256

def erasedBytes (length : Nat) : List UInt8 :=
  List.replicate length 0xFF

/-- Fills the volume from `offset` on, in full chunks as long as they fit and then in steps of at
most `step` bytes. -/
def fillFrom (v : Volume) (chunk step : Nat) (hc : 0 < chunk) (hs : 0 < step) (offset : Nat) :
    Access Unit :=
  if offset + chunk ≤ v.size then do
    v.write offset (erasedBytes chunk)
    v.fillFrom chunk step hc hs (offset + chunk)
  else if offset < v.size then do
    let length := min step (v.size - offset)
    v.write offset (erasedBytes length)
    v.fillFrom chunk step hc hs (offset + length)
  else return
termination_by v.size - offset

/-- Fills the volume with the erased pattern. Write granularities above the largest chunk are not
supported. -/
def fill (v : Volume) : Access Unit :=
  match v.geometry.writeSize with
  | none => throw .notSupported
  | some unit =>
    let step := unit.toNat
    let chunk := max (alignFloor maxChunk.toUInt64 unit).toNat step
    if h : step = 0 ∨ maxChunk < chunk then throw .notSupported
    else
      have hs : 0 < step := Nat.pos_of_ne_zero fun zero => h (.inl zero)
      v.fillFrom chunk step (Nat.lt_of_lt_of_le hs (Nat.le_max_right _ _)) hs 0

/-- Resets the volume to the erased pattern. -/
def eraseAll (v : Volume) : Access Unit :=
  tryCatch (v.erase 0 v.size) fun
    | .notSupported => v.fill
    | e => throw e

/-- Appends a record at the free offset and returns the next free offset. The volume is erased
first if `force` asks for it or the record does not fit. -/
def append (v : Volume) (record : Record) (freeOffset : Nat) (force : Bool) : Access Nat :=
  if force ∨ v.size < freeOffset + Record.size then do
    v.eraseAll
    v.write 0 record.encode.toList
    return Record.size
  else do
    v.write freeOffset record.encode.toList
    return freeOffset + Record.size

end TwinLog.Volume
