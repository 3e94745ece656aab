-- SUMMARY: Byte strings of a fixed length, their fields, and naturals in little-endian order.

/-! # Fixed-length byte strings

`Bytes n` holds exactly `n` bytes. `field` cuts out a part, `ofNat` and `toNat` convert between
byte strings and naturals with the least significant byte first. Main statement: `toNat_ofNat`. -/

namespace TwinLog

/-- A string of exactly `n` bytes. -/
abbrev Bytes (n : Nat) := Vector UInt8 n

namespace Bytes

/-- The `width` bytes from `start` on. -/
def field {n : Nat} (bytes : Bytes n) (start width : Nat) (h : start + width ≤ n := by decide) :
    Bytes width :=
  Vector.ofFn fun i => bytes[start + i.val]

@[simp] theorem getElem_field {n : Nat} (bytes : Bytes n) (start width : Nat)
    (h : start + width ≤ n) (i : Nat) (hi : i < width) :
    (bytes.field start width h)[i] = bytes[start + i] := by
  simp [field]

/-- The first `n` bytes of a list, with zeros where the list has ended. -/
def ofListPadded (n : Nat) (bytes : List UInt8) : Bytes n :=
  Vector.ofFn fun i => bytes.getD i.val 0

@[simp] theorem getElem_ofListPadded (n : Nat) (bytes : List UInt8) (i : Nat) (hi : i < n) :
    (ofListPadded n bytes)[i] = bytes.getD i 0 := by
  simp [ofListPadded]

/-! ## Little-endian order -/

/-- The `width` low bytes of `value` as a list. -/
def listOfNat : Nat → Nat → List UInt8
  | 0, _ => []
  | width + 1, value => value.toUInt8 :: listOfNat width (value / 256)

@[simp] theorem length_listOfNat (width value : Nat) : (listOfNat width value).length = width := by
  induction width generalizing value with
  | zero => rfl
  | succ width ih => simp [listOfNat, ih]

/-- The natural that a list of bytes denotes. -/
def listToNat : List UInt8 → Nat
  | [] => 0
  | byte :: rest => byte.toNat + 256 * listToNat rest

/-- The number of byte strings of a length. -/
def count : Nat → Nat
  | 0 => 1
  | width + 1 => 256 * count width

theorem listToNat_listOfNat (width value : Nat) :
    listToNat (listOfNat width value) = value % count width := by
  induction width generalizing value with
  | zero => simp [listOfNat, listToNat, count, Nat.mod_one]
  | succ width ih =>
    rw [listOfNat, listToNat, ih, count, Nat.mod_mul]
    simp

theorem listToNat_lt (bytes : List UInt8) : listToNat bytes < count bytes.length := by
  induction bytes with
  | nil => simp [listToNat, count]
  | cons byte rest ih =>
    have := byte.toNat_lt
    rw [listToNat, List.length_cons, count]
    omega

/-- The `width` bytes of `value`, least significant first. Higher bits are dropped. -/
def ofNat (width value : Nat) : Bytes width :=
  ⟨(listOfNat width value).toArray, by simp⟩

/-- The natural that the bytes denote, least significant byte first. -/
def toNat {n : Nat} (bytes : Bytes n) : Nat :=
  listToNat bytes.toList

@[simp] theorem toList_ofNat (width value : Nat) :
    (ofNat width value).toList = listOfNat width value := rfl

/-- Writing a natural and reading it back keeps what fits the width. -/
theorem toNat_ofNat (width value : Nat) : (ofNat width value).toNat = value % count width :=
  listToNat_listOfNat width value

theorem toNat_lt {n : Nat} (bytes : Bytes n) : bytes.toNat < count n := by
  simpa [toNat] using listToNat_lt bytes.toList

end Bytes

end TwinLog
