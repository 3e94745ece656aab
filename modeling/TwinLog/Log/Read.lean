-- SUMMARY: Reading one record of a log.
import TwinLog.Record.Basic
import TwinLog.Volume

/-! # Reading records -/

namespace TwinLog.Volume

/-- Reads the record at an offset and completes the payload of a shorter one. The integrity of the
record is not checked. A record that declares more bytes than a record has, or that does not end
within the volume, is too large. -/
def readRecord (v : Volume) (offset : Nat) : Access Record :=
  if v.size < offset + Record.headerSize then throw .tooLarge
  else do
    let header := Header.decode (← v.read offset Record.headerSize)
    let length := header.length.toNat
    if Record.size < length then throw .tooLarge
    else if length < Record.minSize then throw .malformedLog
    else if v.size < offset + length then throw .tooLarge
    else do
      let stored ← v.read (offset + Record.headerSize) (length - Record.minSize)
      let crc ← v.read (offset + length - Record.crcSize) Record.crcSize
      return {
        toHeader := header
        payload := Settings.completeImage stored
        crc := crc.toNat.toUInt16
      }

/-- Reads the record at an offset if it is there and valid. A record that is too large is none. -/
def readValid (v : Volume) (offset : Nat) : Access (Option Record) :=
  tryCatch
    (do
      let r ← v.readRecord offset
      return if r.integrity = .invalid then none else some r)
    fun
      | .tooLarge => return none
      | e => throw e

end TwinLog.Volume
