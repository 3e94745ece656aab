-- SUMMARY: Records programmed over other records: the header stays readable, the counter shrinks.
import TwinLog.Proofs.Generations
import TwinLog.Proofs.Log.Records

/-! # Blended records

Where a device can only clear bits, a record that is written over another one becomes a blend of
the two. Both start with the same magic word and length, so that the blend is read as one entry
(`Record.Blends.parses`). Its record, if its checksum happens to be right, has at most the counter
of the new one, and one of the same side (`Record.Blends.counter_le`, `Record.Blends.side_eq`). -/

namespace TwinLog

open Volume (erasedBytes)

/-! ## Bytes -/

/-- A byte clears bits of another one, so that it gets no greater. -/
theorem toNat_and_le (x y : UInt8) : (x &&& y).toNat ≤ y.toNat := by
  rw [UInt8.toNat_and]
  exact Nat.and_le_right

theorem toNat_and_mod_two {x y : UInt8} (h : x.toNat % 2 = y.toNat % 2) :
    (x &&& y).toNat % 2 = y.toNat % 2 := by
  have parity := @Nat.and_mod_two_eq_one x.toNat y.toNat
  rw [UInt8.toNat_and]
  omega

/-- The counter is in the seventh and the eighth byte of a header. -/
theorem Header.counter_ofList {bytes : List UInt8} (h : 8 ≤ bytes.length) :
    (ofList bytes).counter.toNat =
      (bytes.getD 6 0).toNat + 256 * (bytes.getD 7 0).toNat := by
  have field : (bytes.drop 6).take 2 = [bytes.getD 6 0, bytes.getD 7 0] := by
    refine eq_of_getD (by simp; omega) fun p hp => ?_
    rw [List.length_take, List.length_drop] at hp
    have low : p < 2 := by omega
    rw [getD_take low, getD_drop]
    match p, low with
    | 0, _ => rfl
    | 1, _ => rfl
  simp only [ofList, decode, Bytes.field_ofListPadded, Bytes.toNat_toUInt16]
  rw [Bytes.toNat, Bytes.toList_ofListPadded (by rw [List.length_drop]; omega), field]
  rfl

/-! ## Blends -/

namespace Record

/-- Each byte is that of the new record, or has lost the bits that the old record lacks. -/
structure Blends (old new : Record) (bytes : List UInt8) : Prop where
  length : bytes.length = size
  byte : ∀ p < size, bytes.getD p 0 = new.encode.toList.getD p 0 ∨
    bytes.getD p 0 = old.encode.toList.getD p 0 &&& new.encode.toList.getD p 0

namespace Blends

variable {old new : Record} {bytes : List UInt8} (h : Blends old new bytes)
  (old_current : old.integrity = .current) (current : new.integrity = .current)
include h old_current current

/-- Both records start with the preamble. -/
theorem take_eq : bytes.take peekSize = preamble := by
  have start : ∀ {r : Record}, r.integrity = .current → ∀ p < peekSize,
      r.encode.toList.getD p 0 = preamble.getD p 0 := by
    intro r hr p hp
    rw [← take_encode hr, getD_take hp]
  have length := h.length
  rw [size_eq] at length
  refine eq_of_getD (by rw [List.length_take, length]; rfl) fun p hp => ?_
  have low : p < peekSize := by
    rw [List.length_take] at hp
    omega
  rw [getD_take low]
  rcases h.byte p (Nat.lt_of_lt_of_le low (by decide)) with byte | byte
  · rw [byte, start current p low]
  · rw [byte, start old_current p low, start current p low, UInt8.and_self]

theorem header_eq (tail : List UInt8) :
    (Header.ofList (bytes ++ tail)).magic = magicWord ∧
      (Header.ofList (bytes ++ tail)).length.toNat = size := by
  have length := h.length
  rw [size_eq] at length
  have long : 6 ≤ (bytes ++ tail).length := by
    rw [List.length_append]
    omega
  have start : (bytes ++ tail).take 6 = preamble := by
    rw [List.take_append_of_le_length (by omega)]
    exact h.take_eq old_current current
  rw [Header.magic_ofList long, Header.length_ofList long, start]
  exact ⟨rfl, rfl⟩

end Blends

end Record

namespace Log

/-- The bytes are read as the given entries, whatever follows them. -/
def Parses (bytes : List UInt8) (es : List Entry) : Prop :=
  ∀ tail, entries (bytes ++ tail) = (entries tail).map (es ++ ·)

theorem Parses.nil : Parses [] [] := by
  intro tail
  simp

theorem Parses.append {bytes bytes' : List UInt8} {es es' : List Entry} (h : Parses bytes es)
    (h' : Parses bytes' es') : Parses (bytes ++ bytes') (es ++ es') := by
  intro tail
  rw [List.append_assoc, h, h', Option.map_map]
  congr 1
  funext rest
  exact (List.append_assoc es es' rest).symm

end Log

namespace Record.Blends

variable {old new : Record} {bytes : List UInt8} (h : Blends old new bytes)
  (old_current : old.integrity = .current) (current : new.integrity = .current)
include h old_current current

/-- What is read at a blend ends with it. -/
theorem read?_append (tail : List UInt8) : read? (bytes ++ tail) = read? bytes := by
  have length := (h.header_eq old_current current []).2
  rw [List.append_nil] at length
  have whole : bytes.take size = bytes := List.take_of_length_le (Nat.le_of_eq h.length)
  rw [← read?_take_append (k := size) tail (by decide) (Nat.le_of_eq length)
    (Nat.le_of_eq h.length.symm), whole]

/-- A blend is read as one entry. -/
theorem parses : Log.Parses bytes [⟨size, read? bytes⟩] := by
  intro tail
  obtain ⟨magic, length⟩ := h.header_eq old_current current tail
  have long : 6 ≤ (bytes ++ tail).length := by
    rw [List.length_append, h.length, size_eq]
    omega
  rw [Log.entries_of_header long magic (by rw [length]; decide), length,
    h.read?_append old_current current, List.drop_left' h.length]
  rfl

end Record.Blends

/-! ## Counters -/

namespace Record

/-- The counter of a record that is read, byte by byte. -/
theorem counter_read? {bytes : List UInt8} {r : Record} (found : read? bytes = some r)
    (long : 8 ≤ bytes.length) :
    r.counter.toNat = (bytes.getD 6 0).toNat + 256 * (bytes.getD 7 0).toNat := by
  unfold read? at found
  dsimp only at found
  split at found
  · cases found
    exact Header.counter_ofList long
  · cases found

theorem counter_encode (r : Record) :
    r.counter.toNat =
      (r.encode.toList.getD 6 0).toNat + 256 * (r.encode.toList.getD 7 0).toNat := by
  have header := headerOfList_encode r []
  rw [List.append_nil] at header
  have long : 8 ≤ r.encode.toList.length := by
    rw [length_toList_encode]
    decide
  rw [← Header.counter_ofList long, header]

variable {old new r : Record} {bytes : List UInt8} (h : Blends old new bytes)
  (found : read? bytes = some r)
include h found

theorem Blends.counter_eq :
    r.counter.toNat = (bytes.getD 6 0).toNat + 256 * (bytes.getD 7 0).toNat :=
  counter_read? found (by rw [h.length]; decide)

/-- The counter of a blend is at most that of the new record. -/
theorem Blends.counter_le : r.counter.toNat ≤ new.counter.toNat := by
  have le : ∀ p < size, (bytes.getD p 0).toNat ≤ (new.encode.toList.getD p 0).toNat := by
    intro p hp
    rcases h.byte p hp with byte | byte
    · exact Nat.le_of_eq (congrArg UInt8.toNat byte)
    · rw [byte]
      exact toNat_and_le _ _
  have low := le 6 (by decide)
  have high := le 7 (by decide)
  rw [h.counter_eq found, counter_encode new]
  omega

/-- A blend of two records of the same side is a record of this side. -/
theorem Blends.side_eq (same : Side.ofCounter old.counter = Side.ofCounter new.counter) :
    Side.ofCounter r.counter = Side.ofCounter new.counter := by
  rw [Side.ofCounter_eq_iff, counter_encode old, counter_encode new] at same
  have low : (old.encode.toList.getD 6 0).toNat % 2 = (new.encode.toList.getD 6 0).toNat % 2 := by
    omega
  rw [Side.ofCounter_eq_iff, h.counter_eq found, counter_encode new]
  rcases h.byte 6 (by decide) with byte | byte
  · rw [byte]
    omega
  · have parity := toNat_and_mod_two low
    rw [byte]
    omega

end Record

end TwinLog
