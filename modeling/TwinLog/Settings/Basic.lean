-- SUMMARY: The settings of the radio and their defaults.
import TwinLog.Settings.Callsign
import TwinLog.Settings.DisplayTimer

/-! # Settings -/

namespace TwinLog

/-- The settings of the radio that outlive a power cycle. -/
structure Settings where
  brightness : UInt8
  contrast : UInt8
  squelchLevel : UInt8
  voxLevel : UInt8
  /-- Offset from UTC in half hours. -/
  utcTimezone : Int8
  gpsEnabled : Bool
  callsign : Callsign
  displayTimer : DisplayTimer
  /-- M17 channel access number, of which four bits are stored. -/
  m17Can : UInt8
  /-- Voice prompt level, of which three bits are stored. -/
  voicePromptLevel : UInt8
  phoneticSpell : Bool
  macroMenuLatch : Bool
  /-- Whether the channel access number is checked on reception. -/
  m17CanRx : Bool
  m17Dest : Callsign
  /-- Shows a battery icon rather than the charge in percent. -/
  showBatteryIcon : Bool
  /-- Sets the clock from GPS. -/
  gpsSetTime : Bool
deriving DecidableEq

/-- The settings of a radio that has stored none. -/
def Settings.default : Settings where
  brightness := 100
  contrast := 255
  squelchLevel := 4
  voxLevel := 0
  utcTimezone := 0
  gpsEnabled := false
  callsign := .empty
  displayTimer := .seconds30
  m17Can := 0
  voicePromptLevel := 0
  phoneticSpell := false
  macroMenuLatch := true
  m17CanRx := false
  m17Dest := .empty
  showBatteryIcon := false
  gpsSetTime := false

end TwinLog
