-- SUMMARY: Settings and their images: what encoding loses, and what decoding loses.
import Mathlib.Tactic.IntervalCases
import TwinLog.Proofs.Record

/-! # Settings and their images

An image keeps the settings, but for the high bits of the two numbers that are stored in a part of
a byte (`Settings.decode_encode`), so settings that load as the same ones have the same image
(`Settings.encode_eq_of_decode_eq`). The other way round, decoding loses the bits that mean nothing.
An image is encoded again as it was exactly if it has none of them
(`Settings.encode_decode_eq_self_iff`). Main statement: `Settings.codec_round_trips`. -/

namespace TwinLog

/-- Bytes with the same bits are the same. -/
theorem byte_ext {x y : UInt8}
    (h : ∀ i < 8, x.toBitVec.getLsbD i = y.toBitVec.getLsbD i) : x = y :=
  UInt8.toBitVec_inj.1 (BitVec.eq_of_getLsbD_eq h)

/-- What holds of the 256 bytes holds of every byte. -/
theorem byte_forall {P : UInt8 → Prop} (h : ∀ n < 256, P (UInt8.ofNat n)) (byte : UInt8) :
    P byte := by
  have whole := h byte.toNat byte.toNat_lt
  rwa [UInt8.ofNat_toNat] at whole

/-- Every nibble is the code of its timer. -/
theorem DisplayTimer.code_ofNibble (byte : UInt8) :
    (DisplayTimer.ofNibble byte).code = byte &&& 0x0F := by
  revert byte
  exact byte_forall (by decide +kernel)

namespace Settings

variable (s : Settings)

/-! ## Shared bytes -/

theorem timerByte_low : s.timerByte &&& 0x0F = s.displayTimer.code &&& 0x0F := by
  unfold timerByte
  apply byte_ext
  intro i hi
  interval_cases i <;> simp

theorem timerByte_high : s.timerByte >>> 4 = s.m17Can &&& 0x0F := by
  unfold timerByte
  apply byte_ext
  intro i hi
  interval_cases i <;> simp

theorem voiceByte_level : s.voiceByte &&& 0x07 = s.voicePromptLevel &&& 0x07 := by
  unfold voiceByte
  apply byte_ext
  intro i hi
  interval_cases i <;> simp

theorem voiceByte_phonetic : s.voiceByte &&& 0x08 = s.phoneticSpell.toUInt8 <<< (3 : UInt8) := by
  unfold voiceByte
  apply byte_ext
  intro i hi
  cases s.phoneticSpell <;> cases s.macroMenuLatch <;> interval_cases i <;> simp

theorem voiceByte_latch : s.voiceByte &&& 0x10 = s.macroMenuLatch.toUInt8 <<< (4 : UInt8) := by
  unfold voiceByte
  apply byte_ext
  intro i hi
  cases s.phoneticSpell <;> cases s.macroMenuLatch <;> interval_cases i <;> simp

/-! ## Images -/

/-- The settings without the bits that no image has. -/
def stored : Settings :=
  { s with m17Can := s.m17Can &&& 0x0F, voicePromptLevel := s.voicePromptLevel &&& 0x07 }

/-- The bytes of the image in order. -/
theorem toList_encode :
    s.encode.toList =
      [s.brightness, s.contrast, s.squelchLevel, s.voxLevel, s.utcTimezone.toUInt8,
        s.gpsEnabled.toUInt8] ++
      (s.callsign.bytes.toList ++ ([s.timerByte, s.voiceByte, s.m17CanRx.toUInt8] ++
        (s.m17Dest.bytes.toList ++ [s.showBatteryIcon.toUInt8, s.gpsSetTime.toUInt8]))) := by
  simp only [encode]
  repeat rw [Vector.toList_append]
  simp

theorem getElem_encode {i : Nat} (h : i < imageSize) :
    s.encode[i] = s.encode.toList.getD i 0 := by
  rw [List.getD_eq_getElem?_getD, List.getElem?_eq_getElem (by simpa using h), Option.getD_some,
    Vector.getElem_toList]

/-- A field of the image that holds ten bytes. -/
theorem field_encode {front back : List UInt8} {bytes : Bytes 10}
    (split : s.encode.toList = front ++ (bytes.toList ++ back)) {start : Nat}
    (h : start + 10 ≤ imageSize) (length : front.length = start) :
    s.encode.field start 10 h = bytes := by
  have whole := Bytes.ofListPadded_append s.encode []
  rw [List.append_nil] at whole
  rw [← whole, Bytes.field_ofListPadded, Bytes.ofListPadded_drop_of_split split length]

/-- Decoding gives back what was stored. -/
theorem decode_encode : decode s.encode = s.stored := by
  have flag : ∀ b : Bool, (b.toUInt8 != 0) = b := by decide
  have callsign : s.encode.field 6 10 = s.callsign.bytes :=
    s.field_encode s.toList_encode (by decide) rfl
  have split := s.toList_encode
  rw [← List.append_assoc, ← List.append_assoc] at split
  have dest : s.encode.field 19 10 = s.m17Dest.bytes :=
    s.field_encode split (by decide) (by simp)
  have timer : DisplayTimer.ofNibble s.timerByte = s.displayTimer := by
    rw [DisplayTimer.ofNibble, s.timerByte_low]
    cases s.displayTimer <;> rfl
  have phonetic : (s.voiceByte &&& 0x08 != 0) = s.phoneticSpell := by
    rw [s.voiceByte_phonetic]
    cases s.phoneticSpell <;> rfl
  have latch : (s.voiceByte &&& 0x10 != 0) = s.macroMenuLatch := by
    rw [s.voiceByte_latch]
    cases s.macroMenuLatch <;> rfl
  unfold decode stored
  rw [callsign, dest]
  simp only [getElem_encode, s.toList_encode]
  simp [flag, timer, phonetic, latch, s.timerByte_high, s.voiceByte_level]

/-- What an image loses is lost at once. -/
theorem encode_stored : s.stored.encode = s.encode := by
  have timer : s.stored.timerByte = s.timerByte := by
    unfold timerByte stored
    simp only [UInt8.and_assoc, UInt8.and_self]
  have voice : s.stored.voiceByte = s.voiceByte := by
    unfold voiceByte stored
    simp only [UInt8.and_assoc, UInt8.and_self]
  unfold encode
  rw [timer, voice]
  rfl

/-- Settings that are loaded have lost nothing that another image would lose. -/
theorem stored_decode (image : Image) : (decode image).stored = decode image := by
  have channel (byte : UInt8) : (byte >>> 4) &&& (0x0F : UInt8) = byte >>> 4 := by
    apply byte_ext
    intro i hi
    interval_cases i <;> simp
  have level (byte : UInt8) : byte &&& 0x07 &&& 0x07 = byte &&& 0x07 := by
    rw [UInt8.and_assoc, UInt8.and_self]
  unfold stored decode
  simp only [channel, level]

/-- Settings that load as the same ones have the same image. -/
theorem encode_eq_of_decode_eq {s s' : Settings} (h : decode s.encode = decode s'.encode) :
    s.encode = s'.encode := by
  rw [decode_encode, decode_encode] at h
  rw [← s.encode_stored, h, s'.encode_stored]

/-! ## Images that are encoded again -/

/-- The settings with the two numbers that are stored in a part of a byte reduced to that part. -/
def reduced : Settings :=
  { s with m17Can := s.m17Can % 16, voicePromptLevel := s.voicePromptLevel % 8 }

theorem stored_eq_reduced : s.stored = s.reduced := by
  have channel : ∀ byte : UInt8, byte &&& 0x0F = byte % 16 := byte_forall (by decide +kernel)
  have level : ∀ byte : UInt8, byte &&& 0x07 = byte % 8 := byte_forall (by decide +kernel)
  unfold stored reduced
  rw [channel, level]

/-- The numbers of the bytes that hold one flag each. -/
def flagBytes : List Nat := [5, 18, 29, 30]

/-- Nothing of the image is lost when it is decoded: the flags are zero or one, and the unused bits
of the voice byte are zero. -/
structure Canonical (image : Image) : Prop where
  flags : ∀ i : Fin imageSize, i.val ∈ flagBytes → image.get i = 0 ∨ image.get i = 1
  unused : image[17] &&& 0xE0 = 0

/-- What decoding and encoding again make of the byte of an image with a given number. -/
def settled (i : Nat) (byte : UInt8) : UInt8 :=
  if i ∈ flagBytes then (byte != 0).toUInt8 else if i = 17 then byte &&& 0x1F else byte

theorem timerByte_decode (image : Image) : (decode image).timerByte = image[16] := by
  unfold timerByte decode
  simp only [DisplayTimer.code_ofNibble]
  apply byte_ext
  intro i hi
  interval_cases i <;> simp

theorem voiceByte_decode (image : Image) : (decode image).voiceByte = image[17] &&& 0x1F := by
  have fields : ∀ byte : UInt8, byte &&& (0x07 : UInt8) &&& (0x07 : UInt8) |||
      (byte &&& (0x08 : UInt8) != 0).toUInt8 <<< (3 : UInt8) |||
        (byte &&& (0x10 : UInt8) != 0).toUInt8 <<< (4 : UInt8) = byte &&& (0x1F : UInt8) :=
    byte_forall (by decide +kernel)
  exact fields image[17]

/-- Decoding and encoding again settle an image byte by byte. -/
theorem getElem_encode_decode (image : Image) {i : Nat} (h : i < imageSize) :
    (decode image).encode[i] = settled i image[i] := by
  rw [getElem_encode, toList_encode, timerByte_decode, voiceByte_decode]
  simp only [imageSize] at h
  interval_cases i <;> simp [decode, settled, flagBytes]

theorem settled_flag (byte : UInt8) : (byte != 0).toUInt8 = byte ↔ byte = 0 ∨ byte = 1 := by
  revert byte
  exact byte_forall (by decide +kernel)

theorem settled_voice (byte : UInt8) : byte &&& 0x1F = byte ↔ byte &&& 0xE0 = 0 := by
  revert byte
  exact byte_forall (by decide +kernel)

/-- An image is encoded again as it was exactly if nothing of it is lost. -/
theorem encode_decode_eq_self_iff (image : Image) :
    (decode image).encode = image ↔ Canonical image := by
  constructor
  · intro same
    have settles {i : Nat} (h : i < imageSize) : settled i image[i] = image[i] := by
      rw [← getElem_encode_decode, same]
    refine ⟨fun i mem => (settled_flag _).1 ?_, (settled_voice _).1 (@settles 17 (by decide))⟩
    have flag := settles i.isLt
    rwa [settled, if_pos mem] at flag
  · rintro ⟨flags, unused⟩
    apply Vector.ext
    intro i hi
    rw [getElem_encode_decode, settled]
    split
    · rename_i mem
      exact (settled_flag _).2 (flags ⟨i, hi⟩ mem)
    split
    · rename_i voice
      subst voice
      exact (settled_voice _).2 unused
    · rfl

/-- The images that lose nothing are those of settings. -/
theorem canonical_iff_encode {image : Image} :
    Canonical image ↔ ∃ s : Settings, s.encode = image := by
  rw [← encode_decode_eq_self_iff]
  constructor
  · exact fun same => ⟨decode image, same⟩
  · rintro ⟨s, rfl⟩
    rw [decode_encode, encode_stored]

/-- Encoding and decoding give back the settings, with the two numbers reduced that share a byte.
Decoding and encoding give back the image, with the flags and the unused bits settled. -/
theorem codec_round_trips :
    (∀ s : Settings, decode s.encode = s.reduced) ∧
    (∀ s s' : Settings, s.encode = s'.encode ↔ s.reduced = s'.reduced) ∧
    ∀ image : Image,
      (decode image).m17Can < 16 ∧ (decode image).voicePromptLevel < 8 ∧
      decode (decode image).encode = decode image ∧
      ((decode image).encode = image ↔ Canonical image) ∧
      (∀ i : Fin imageSize, i.val ∈ flagBytes ∨ i.val = 17 ∨
        (decode image).encode.get i = image.get i) ∧
      (decode image).encode[17] &&& (0x1F : UInt8) = image[17] &&& (0x1F : UInt8) := by
  have decoded (s : Settings) : decode s.encode = s.reduced := by
    rw [decode_encode, stored_eq_reduced]
  have channel : ∀ byte : UInt8, byte >>> 4 < 16 := byte_forall (by decide +kernel)
  have level : ∀ byte : UInt8, byte &&& 0x07 < 8 := byte_forall (by decide +kernel)
  refine ⟨decoded, fun s s' => ⟨fun same => ?_, fun same => ?_⟩, fun image => ⟨channel image[16],
    level image[17], ?_, encode_decode_eq_self_iff image, fun i => ?_, ?_⟩⟩
  · rw [← decoded, same, decoded]
  · rw [← decoded, ← decoded] at same
    exact encode_eq_of_decode_eq same
  · rw [decode_encode, stored_decode]
  · by_cases flag : i.val ∈ flagBytes
    · exact .inl flag
    by_cases voice : i.val = 17
    · exact .inr (.inl voice)
    · have settles := getElem_encode_decode image i.isLt
      rw [settled, if_neg flag, if_neg voice] at settles
      exact .inr (.inr settles)
  · rw [@getElem_encode_decode image 17 (by decide)]
    exact (UInt8.and_assoc ..).trans (congrArg (image[17] &&& ·) (UInt8.and_self ..))

end Settings

end TwinLog
