-- SUMMARY: Damaged records: short bursts in the covered bytes and wrong checksums are detected.
import TwinLog.Proofs.Crc16
import TwinLog.Proofs.Record

/-! # Damaged records

A valid record whose stored form is damaged is not valid any more, if the damage is a burst of at
most sixteen bits in the counter and the covered payload, or if only the checksum is changed. Main
statement: `Record.damage_detected`. -/

namespace TwinLog.Record

open Crc16 (Burst)

/-! ## Fields of the stored form -/

/-- The first six bytes hold the magic word and the length. -/
theorem header_eq_of_take {r r' : Record}
    (same : r.encode.toList.take 6 = r'.encode.toList.take 6) :
    r.magic = r'.magic ∧ r.length = r'.length := by
  have header (r : Record) : Header.ofList r.encode.toList = r.toHeader := by
    simpa using r.headerOfList_encode []
  have long (r : Record) : 6 ≤ r.encode.toList.length := by
    rw [length_toList_encode]
    decide
  have magic (r : Record) :
      r.magic = (Bytes.listToNat ((r.encode.toList.take 6).take 4)).toUInt32 := by
    rw [← Header.magic_ofList (long r), header]
  have length (r : Record) :
      r.length = (Bytes.listToNat ((r.encode.toList.take 6).drop 4)).toUInt16 := by
    rw [← Header.length_ofList (long r), header]
  rw [magic r, magic r', length r, length r', same]
  exact ⟨rfl, rfl⟩

/-- The last two bytes hold the checksum. -/
theorem crc_eq_of_drop {r r' : Record}
    (same : r.encode.toList.drop 39 = r'.encode.toList.drop 39) : r.crc = r'.crc := by
  have last (r : Record) : Bytes.listToNat (r.encode.toList.drop 39) = r.crc.toNat := by
    have fits : r.crc.toNat < Bytes.count 2 := r.crc.toNat_lt
    rw [toList_encode, ← List.append_assoc, ← List.append_assoc, ← List.append_assoc,
      List.drop_left' (by simp [Settings.imageSize]), Bytes.toList_ofNat,
      Bytes.listToNat_listOfNat, Nat.mod_eq_of_lt fits]
  apply UInt16.toNat_inj.1
  rw [← last r, ← last r', same]

/-- The checksum of a valid record covers all bytes up to the last two of its length. -/
theorem calculateCrc_of_integrity {r : Record} (valid : r.integrity ≠ .invalid) :
    r.calculateCrc = Crc16.checksum (r.encode.toList.take (r.length.toNat - 2)) := by
  obtain ⟨-, low, high⟩ := bounds_of_integrity valid
  have covered : r.coveredSize = r.length.toNat - 2 := by
    rw [coveredSize, Nat.max_eq_left low, Nat.min_eq_left high]
  rw [calculateCrc, covered]

/-! ## Damage -/

/-- A burst in the counter and the covered payload is detected. -/
theorem integrity_of_burst {r r' : Record} (valid : r.integrity ≠ .invalid)
    (burst : Burst 6 (r.length.toNat - 2) r.encode.toList r'.encode.toList) :
    r'.integrity = .invalid := by
  have high : r.length.toNat ≤ 41 := (bounds_of_integrity valid).2.2
  have length := (header_eq_of_take (burst.take_eq (Nat.le_refl 6))).2
  have crc := crc_eq_of_drop (@Burst.drop_eq _ _ 39 _ _ burst (by omega))
  by_contra valid'
  apply (burst.take (Nat.le_refl _)).checksum_ne
  rw [← calculateCrc_of_integrity valid, length, ← calculateCrc_of_integrity valid',
    ← (integrity_ne_invalid.1 valid).2, ← (integrity_ne_invalid.1 valid').2, crc]

/-- A wrong checksum is detected. -/
theorem integrity_of_crc {r : Record} (valid : r.integrity ≠ .invalid) {crc : UInt16}
    (wrong : crc ≠ r.crc) : integrity { r with crc } = .invalid := by
  by_contra valid'
  apply wrong
  rw [(integrity_ne_invalid.1 valid).2, ← r.calculateCrc_of_crc crc]
  exact (integrity_ne_invalid.1 valid').2

/-- A valid record is invalid after any burst of at most sixteen bits in its counter and the payload
that its length covers, and after any change of its checksum. -/
theorem damage_detected {r : Record} (valid : r.integrity = .current ∨ r.integrity = .stale) :
    (∀ r' : Record, Burst 6 (r.length.toNat - 2) r.encode.toList r'.encode.toList →
        r'.integrity = .invalid) ∧
      ∀ crc : UInt16, crc ≠ r.crc → integrity { r with crc } = .invalid := by
  have valid : r.integrity ≠ .invalid := by
    rcases valid with current | stale
    · rw [current]
      nofun
    · rw [stale]
      nofun
  exact ⟨fun _ => integrity_of_burst valid, fun _ => integrity_of_crc valid⟩

/-- A record of older firmware, with ten bytes of payload. -/
def older : Record :=
  sealed { Record.default with length := 20, counter := 0x1201 }

/-- Sixteen bits from the last one of the counter on are turned around. -/
theorem damage_detected_older :
    let damaged : Record :=
      { older with counter := 0x1301, payload := (older.payload.set 0 0x9B).set 1 0x01 }
    (older.integrity = .current ∨ older.integrity = .stale) ∧
      Burst 6 (older.length.toNat - 2) older.encode.toList damaged.encode.toList ∧
      damaged.integrity = .invalid ∧
      (0x1234 ≠ older.crc) ∧ integrity { older with crc := 0x1234 } = .invalid := by
  intro damaged
  have valid : older.integrity = .current ∨ older.integrity = .stale := by decide +kernel
  have burst : Burst 6 (older.length.toNat - 2) older.encode.toList damaged.encode.toList := by
    refine @Burst.of _ _ _ _ ((Crc16.bits older.encode.toList).take 63)
      (((Crc16.bits older.encode.toList).drop 63).take 16)
      (((Crc16.bits damaged.encode.toList).drop 63).take 16)
      ((Crc16.bits older.encode.toList).drop 79) ?_ ?_ ?_ ?_ ?_ ?_ ?_ <;> decide +kernel
  have wrong : 0x1234 ≠ older.crc := by decide +kernel
  exact ⟨valid, burst, (damage_detected valid).1 _ burst, wrong, (damage_detected valid).2 _ wrong⟩

end TwinLog.Record
