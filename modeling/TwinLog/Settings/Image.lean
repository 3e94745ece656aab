-- SUMMARY: The 31 byte image of the settings: encoding, decoding and completion of shorter images.
import TwinLog.Settings.Basic

/-! # Settings images

The image holds the fields in a fixed order:

* 0 to 5: brightness, contrast, squelch level, vox level, timezone, GPS
* 6 to 15: callsign
* 16: display timer in the low nibble, channel access number in the high one
* 17: voice prompt level in bits 0 to 2, phonetic spelling in bit 3, menu latch in bit 4
* 18: channel access check
* 19 to 28: destination
* 29 and 30: battery icon, clock from GPS

Every image decodes. Unused bits are ignored, and any nonzero byte is a set flag. -/

namespace TwinLog.Settings

/-- The number of bytes of an image. -/
abbrev imageSize : Nat := 31

/-- The stored form of the settings. -/
abbrev Image := Bytes imageSize

/-- The byte of the display timer and the channel access number. -/
def timerByte (s : Settings) : UInt8 :=
  let timer : UInt8 := s.displayTimer.code &&& 0x0F
  let channel : UInt8 := s.m17Can &&& 0x0F
  timer ||| channel <<< 4

/-- The byte of the voice prompt flags. -/
def voiceByte (s : Settings) : UInt8 :=
  let level : UInt8 := s.voicePromptLevel &&& 0x07
  level ||| s.phoneticSpell.toUInt8 <<< 3 ||| s.macroMenuLatch.toUInt8 <<< 4

/-- The image of the settings. Values wider than their bit field lose their high bits. -/
def encode (s : Settings) : Image :=
  #v[s.brightness, s.contrast, s.squelchLevel, s.voxLevel, s.utcTimezone.toUInt8,
      s.gpsEnabled.toUInt8] ++
    s.callsign.bytes ++ #v[s.timerByte, s.voiceByte, s.m17CanRx.toUInt8] ++
    s.m17Dest.bytes ++ #v[s.showBatteryIcon.toUInt8, s.gpsSetTime.toUInt8]

def decode (image : Image) : Settings where
  brightness := image[0]
  contrast := image[1]
  squelchLevel := image[2]
  voxLevel := image[3]
  utcTimezone := image[4].toInt8
  gpsEnabled := image[5] != 0
  callsign := ⟨image.field 6 10⟩
  displayTimer := .ofNibble image[16]
  m17Can := image[16] >>> 4
  voicePromptLevel := image[17] &&& 0x07
  phoneticSpell := image[17] &&& 0x08 != 0
  macroMenuLatch := image[17] &&& 0x10 != 0
  m17CanRx := image[18] != 0
  m17Dest := ⟨image.field 19 10⟩
  showBatteryIcon := image[29] != 0
  gpsSetTime := image[30] != 0

/-- The image that starts with the stored bytes and goes on as the default image does. -/
def completeImage {n : Nat} (stored : Bytes n) : Image :=
  Vector.ofFn fun i => if h : i.val < n then stored[i.val] else Settings.default.encode[i]

end TwinLog.Settings
