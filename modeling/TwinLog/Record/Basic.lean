-- SUMMARY: Records: the header, the stored form, the checksum and the integrity of a saved image.
import TwinLog.Crc16
import TwinLog.Settings.Image

/-! # Records

A record is one saved settings image. On the medium it takes, in little-endian order:

* 0 to 3: the magic word
* 4 and 5: the length of the whole record
* 6 and 7: the generation counter
* 8 on: the payload
* the last two bytes: the CRC-16 of all bytes before them

Records of older firmware have a shorter payload. They are read with the missing bytes taken from
the default image, and they are stale: their content is valid but is due to be written again. -/

namespace TwinLog

/-- The part of a record before its payload. -/
structure Header where
  magic : UInt32
  length : UInt16
  counter : UInt16
deriving DecidableEq

/-- One saved settings image. -/
structure Record extends Header where
  payload : Settings.Image
  crc : UInt16
deriving DecidableEq

/-- What the checks on a record say about it. -/
inductive Integrity where
  | invalid
  /-- Valid, but with the shorter payload of an older firmware. -/
  | stale
  | current
deriving DecidableEq

namespace Record

/-! ## Sizes -/

abbrev headerSize : Nat := 8

/-- The number of bytes of the magic word and the length. -/
abbrev peekSize : Nat := 6

abbrev crcSize : Nat := 2

/-- The number of bytes of a record without payload. -/
abbrev minSize : Nat := headerSize + crcSize

/-- The number of bytes of a record in the current format. -/
abbrev size : Nat := headerSize + Settings.imageSize + crcSize

/-- The first word of every record, the text "OPNX". -/
def magicWord : UInt32 := 0x584E504F

/-! ## Stored form -/

/-- The stored form of a record in the current format. -/
def encode (r : Record) : Bytes size :=
  Bytes.ofNat 4 r.magic.toNat ++ Bytes.ofNat 2 r.length.toNat ++ Bytes.ofNat 2 r.counter.toNat ++
    r.payload ++ Bytes.ofNat 2 r.crc.toNat

/-- The number of bytes under the checksum. Lengths that no valid record has are clamped. -/
def coveredSize (r : Record) : Nat :=
  min (max r.length.toNat minSize) size - crcSize

/-- The checksum that the record should carry. -/
def calculateCrc (r : Record) : UInt16 :=
  Crc16.checksum (r.encode.toList.take r.coveredSize)

/-! ## Construction -/

/-- The record with the checksum that belongs to its other fields. -/
def sealed (r : Record) : Record :=
  { r with crc := r.calculateCrc }

/-- The current record of generation zero, which holds the default settings. -/
def default : Record :=
  sealed {
    magic := magicWord
    length := size.toUInt16
    counter := 0
    payload := Settings.default.encode
    crc := 0
  }

/-- The record of the next generation with a new payload, in the current format. -/
def refresh (r : Record) (payload : Settings.Image) : Record :=
  sealed { r with counter := r.counter + 1, length := size.toUInt16, payload }

/-! ## Integrity -/

/-- Checks magic, length and checksum. -/
def integrity (r : Record) : Integrity :=
  if r.magic ≠ magicWord then .invalid
  else if r.length.toNat < minSize ∨ size < r.length.toNat then .invalid
  else if r.crc ≠ r.calculateCrc then .invalid
  else if r.length.toNat = size then .current
  else .stale

def settings (r : Record) : Settings :=
  Settings.decode r.payload

end Record

namespace Header

/-- The magic word and the length at the start of a record. -/
def peek (bytes : Bytes Record.peekSize) : UInt32 × UInt16 :=
  ((bytes.field 0 4).toNat.toUInt32, (bytes.field 4 2).toNat.toUInt16)

def decode (bytes : Bytes Record.headerSize) : Header where
  magic := (bytes.field 0 4).toNat.toUInt32
  length := (bytes.field 4 2).toNat.toUInt16
  counter := (bytes.field 6 2).toNat.toUInt16

end Header

end TwinLog
