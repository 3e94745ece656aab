-- SUMMARY: Standby timers of the display and their four bit codes.

/-! # Display timers

After how long the display goes dark. A timer is stored in four bits, and each of the sixteen
codes is a timer. -/

namespace TwinLog

/-- A standby timer of the display. -/
inductive DisplayTimer where
  | off
  | seconds5
  | seconds10
  | seconds15
  | seconds20
  | seconds25
  | seconds30
  | minute1
  | minutes2
  | minutes3
  | minutes4
  | minutes5
  | minutes15
  | minutes30
  | minutes45
  | hour1
deriving DecidableEq

namespace DisplayTimer

def code : DisplayTimer → UInt8
  | off => 0
  | seconds5 => 1
  | seconds10 => 2
  | seconds15 => 3
  | seconds20 => 4
  | seconds25 => 5
  | seconds30 => 6
  | minute1 => 7
  | minutes2 => 8
  | minutes3 => 9
  | minutes4 => 10
  | minutes5 => 11
  | minutes15 => 12
  | minutes30 => 13
  | minutes45 => 14
  | hour1 => 15

def ofCode? : UInt8 → Option DisplayTimer
  | 0 => some off
  | 1 => some seconds5
  | 2 => some seconds10
  | 3 => some seconds15
  | 4 => some seconds20
  | 5 => some seconds25
  | 6 => some seconds30
  | 7 => some minute1
  | 8 => some minutes2
  | 9 => some minutes3
  | 10 => some minutes4
  | 11 => some minutes5
  | 12 => some minutes15
  | 13 => some minutes30
  | 14 => some minutes45
  | 15 => some hour1
  | _ => none

/-- The timer in the low four bits of a byte. -/
def ofNibble (byte : UInt8) : DisplayTimer :=
  (ofCode? (byte &&& 0x0F)).getD off

def name : DisplayTimer → String
  | off => "Off"
  | seconds5 => "S5"
  | seconds10 => "S10"
  | seconds15 => "S15"
  | seconds20 => "S20"
  | seconds25 => "S25"
  | seconds30 => "S30"
  | minute1 => "M1"
  | minutes2 => "M2"
  | minutes3 => "M3"
  | minutes4 => "M4"
  | minutes5 => "M5"
  | minutes15 => "M15"
  | minutes30 => "M30"
  | minutes45 => "M45"
  | hour1 => "H1"

end DisplayTimer

end TwinLog
