-- SUMMARY: CRC-16 with polynomial 0x1021, initial value 0xFFFF, not reflected, no final xor.

/-! # CRC-16

The checksum of a record. A register of 16 bits starts with all ones, takes each byte into its
upper half and shifts eight times, most significant bit first. -/

namespace TwinLog.Crc16

/-- The generator polynomial, without its leading term. -/
def polynomial : UInt16 := 0x1021

/-- The register before the first byte. -/
def initial : UInt16 := 0xFFFF

/-- Shifts the register by one bit and reduces it if a one fell out. -/
def shift (register : UInt16) : UInt16 :=
  if register &&& 0x8000 = 0 then register <<< 1 else (register <<< 1) ^^^ polynomial

def shifts : Nat → UInt16 → UInt16
  | 0, register => register
  | n + 1, register => shifts n (shift register)

/-- Takes one byte into the register. -/
def absorb (register : UInt16) (byte : UInt8) : UInt16 :=
  shifts 8 (register ^^^ (byte.toUInt16 <<< 8))

def checksum (bytes : List UInt8) : UInt16 :=
  bytes.foldl absorb initial

end TwinLog.Crc16
