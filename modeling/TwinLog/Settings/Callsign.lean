-- SUMMARY: Callsigns: at most ten bytes of text, padded with NULs.
import TwinLog.Bytes
import TwinLog.Error

/-! # Callsigns

The call of a radio station, or the destination of a digital call. Any ten bytes are a callsign;
its text ends at the first NUL and need not be valid UTF-8. -/

namespace TwinLog

/-- A callsign in its stored form. -/
structure Callsign where
  bytes : Bytes 10
deriving DecidableEq

namespace Callsign

def empty : Callsign := ⟨Vector.replicate 10 0⟩

/-- The callsign with a given text. Texts of more than ten bytes are refused. -/
def ofString (text : String) : Except Error Callsign :=
  let bytes := text.toUTF8.data.toList
  if bytes.length ≤ 10 then .ok ⟨Bytes.ofListPadded 10 bytes⟩ else .error .invalidArgument

/-- The bytes before the first NUL. -/
def textBytes (callsign : Callsign) : List UInt8 :=
  callsign.bytes.toList.takeWhile (· != 0)

/-- The text, unless it is not valid UTF-8. -/
def text? (callsign : Callsign) : Option String :=
  String.fromUTF8? ⟨callsign.textBytes.toArray⟩

/-! ## Display -/

/-- A byte in two lowercase hexadecimal digits. -/
def hexByte (byte : UInt8) : String :=
  String.ofList [Nat.digitChar (byte.toNat / 16), Nat.digitChar (byte.toNat % 16)]

/-- A byte as it is shown between quotes: printable ASCII as it is, quotes, the backslash and the
common control characters behind a backslash, everything else in hexadecimal. -/
def escape (byte : UInt8) : String :=
  match Char.ofNat byte.toNat with
  | '\t' => "\\t"
  | '\r' => "\\r"
  | '\n' => "\\n"
  | '\'' => "\\'"
  | '"' => "\\\""
  | '\\' => "\\\\"
  | c => if ' ' ≤ c ∧ c ≤ '~' then c.toString else "\\x" ++ hexByte byte

/-- The callsign as it is shown in diagnostics. -/
def display (callsign : Callsign) : String :=
  "Callsign(b\"" ++ String.join (callsign.textBytes.map escape) ++ "\")"

end Callsign

end TwinLog
