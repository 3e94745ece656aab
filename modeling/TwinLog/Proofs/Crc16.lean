-- SUMMARY: The checksum bit by bit: nothing of the register is lost, so short bursts change it.
import Mathlib.Tactic.IntervalCases
import TwinLog.Crc16

/-! # The checksum bit by bit

The register takes a byte string as it takes its bits one by one, in the order of transmission
(`Crc16.checksum_eq_foldl_feed`). Each bit is taken by a bijection of the register, and up to
sixteen bits in a row are added to its upper bits before it is shifted (`Crc16.foldl_feed`). Main
statement: byte strings that differ in a burst of at most sixteen bits have different checksums
(`Crc16.checksum_ne_of_burst`). -/

namespace TwinLog.Crc16

/-! ## Shifts -/

/-- Words with the same bits are the same. -/
theorem word_ext {x y : UInt16}
    (h : ∀ i < 16, x.toBitVec.getLsbD i = y.toBitVec.getLsbD i) : x = y :=
  UInt16.toBitVec_inj.1 (BitVec.eq_of_getLsbD_eq h)

theorem and_top_eq_zero_iff (register : UInt16) :
    register &&& 0x8000 = 0 ↔ register.toBitVec.getLsbD 15 = false := by
  rw [← UInt16.toBitVec_inj]
  constructor
  · intro zero
    simpa using congrArg (BitVec.getLsbD · 15) zero
  · intro low
    apply BitVec.eq_of_getLsbD_eq
    intro i hi
    interval_cases i <;> simp_all

/-- A shift moves the bits up, and adds the polynomial if the highest one falls out. -/
theorem getLsbD_shift (register : UInt16) {i : Nat} (hi : i < 16) :
    (shift register).toBitVec.getLsbD i =
      ((decide (0 < i) && register.toBitVec.getLsbD (i - 1)) ^^
        (register.toBitVec.getLsbD 15 && polynomial.toBitVec.getLsbD i)) := by
  unfold shift
  split
  · rename_i low
    rw [(and_top_eq_zero_iff register).1 low]
    interval_cases i <;> simp
  · rename_i high
    rw [and_top_eq_zero_iff, Bool.not_eq_false] at high
    rw [high]
    interval_cases i <;> simp

/-- A shift loses nothing: the bit that fell out is the lowest one afterwards. -/
theorem shift_injective {r s : UInt16} (same : shift r = shift s) : r = s := by
  have bits {i : Nat} (hi : i < 16) :
      ((decide (0 < i) && r.toBitVec.getLsbD (i - 1)) ^^
          (r.toBitVec.getLsbD 15 && polynomial.toBitVec.getLsbD i)) =
        ((decide (0 < i) && s.toBitVec.getLsbD (i - 1)) ^^
          (s.toBitVec.getLsbD 15 && polynomial.toBitVec.getLsbD i)) := by
    rw [← getLsbD_shift r hi, ← getLsbD_shift s hi, same]
  have lowest : polynomial.toBitVec.getLsbD 0 = true := rfl
  have top : r.toBitVec.getLsbD 15 = s.toBitVec.getLsbD 15 := by
    have out := @bits 0 (by decide)
    simpa only [lowest, Nat.lt_irrefl, decide_false, Bool.false_and, Bool.false_xor,
      Bool.and_true] using out
  apply word_ext
  intro i hi
  by_cases last : i = 15
  · rw [last, top]
  · have above := @bits (i + 1) (by omega)
    rw [top, Bool.xor_left_inj] at above
    simpa only [Nat.succ_pos, decide_true, Bool.true_and, Nat.add_sub_cancel] using above

theorem shifts_injective (n : Nat) {r s : UInt16} (same : shifts n r = shifts n s) : r = s := by
  induction n generalizing r s with
  | zero => exact same
  | succ n ih => exact shift_injective (ih same)

theorem getLsbD_shiftRight_one (word : UInt16) (i : Nat) :
    (word >>> 1).toBitVec.getLsbD i = word.toBitVec.getLsbD (i + 1) := by
  rw [UInt16.toBitVec_shiftRight, Nat.add_comm]
  exact BitVec.getLsbD_ushiftRight ..

/-- Bits that are added below the highest one are moved up by a shift. -/
theorem shift_xor_shiftRight (register : UInt16) {word : UInt16}
    (even : word.toBitVec.getLsbD 0 = false) :
    shift (register ^^^ word >>> 1) = shift register ^^^ word := by
  have out : word.toBitVec.getLsbD 16 = false := BitVec.getLsbD_of_ge _ _ (Nat.le_refl _)
  apply word_ext
  intro i hi
  simp only [UInt16.toBitVec_xor, BitVec.getLsbD_xor, getLsbD_shift _ hi, getLsbD_shiftRight_one,
    out, Bool.xor_false]
  cases i with
  | zero =>
    rw [even, Bool.xor_false]
    rfl
  | succ i =>
    rw [Nat.add_sub_cancel, decide_eq_true (Nat.succ_pos i), Bool.true_and, Bool.true_and,
      Bool.xor_assoc, Bool.xor_assoc]
    exact congrArg _ (Bool.xor_comm _ _)

/-! ## Bits -/

/-- The highest bit of a word, or none. -/
def topBit (bit : Bool) : UInt16 :=
  if bit then 0x8000 else 0

/-- Takes one bit into the register. -/
def feed (register : UInt16) (bit : Bool) : UInt16 :=
  shift (register ^^^ topBit bit)

/-- The word that starts with the given bits. -/
def pack : List Bool → UInt16
  | [] => 0
  | bit :: rest => topBit bit ^^^ pack rest >>> 1

theorem feed_injective {r s : UInt16} {bit : Bool} (same : feed r bit = feed s bit) : r = s :=
  UInt16.xor_left_inj (topBit bit) |>.1 (shift_injective same)

theorem getLsbD_topBit (bit : Bool) {i : Nat} (hi : i < 16) :
    (topBit bit).toBitVec.getLsbD i = (bit && i == 15) := by
  cases bit <;> interval_cases i <;> rfl

/-- The bits are found again from the highest one down. -/
theorem getLsbD_pack (bits : List Bool) {i : Nat} (hi : i < 16) :
    (pack bits).toBitVec.getLsbD (15 - i) = bits[i]?.getD false := by
  induction bits generalizing i with
  | nil => simp [pack]
  | cons bit rest ih =>
    rw [pack, UInt16.toBitVec_xor, BitVec.getLsbD_xor, getLsbD_topBit bit (by omega),
      getLsbD_shiftRight_one]
    cases i with
    | zero => simp
    | succ i =>
      have below : (15 - (i + 1) == 15) = false := beq_eq_false_iff_ne.2 (by omega)
      rw [below, Bool.and_false, Bool.false_xor, List.getElem?_cons_succ, ← ih (by omega)]
      congr 1
      omega

/-- Up to sixteen bits are added to the register at once, before it is shifted. -/
theorem foldl_feed {bits : List Bool} (short : bits.length ≤ 16) (register : UInt16) :
    bits.foldl feed register = shifts bits.length (register ^^^ pack bits) := by
  induction bits generalizing register with
  | nil => simp [pack, shifts]
  | cons bit rest ih =>
    -- fewer than sixteen bits leave the lowest one free, so the shift by one place loses nothing
    have even : (pack rest).toBitVec.getLsbD 0 = false := by
      have last := @getLsbD_pack rest 15 (by decide)
      rw [List.length_cons] at short
      rwa [List.getElem?_eq_none (by omega)] at last
    rw [List.foldl_cons, ih (Nat.le_of_succ_le short), List.length_cons, shifts, pack,
      ← UInt16.xor_assoc, shift_xor_shiftRight _ even]
    rfl

/-- Up to sixteen bits act injectively on the register. -/
theorem foldl_feed_injective {bits bits' : List Bool} (length : bits.length = bits'.length)
    (short : bits.length ≤ 16) {register : UInt16}
    (same : bits.foldl feed register = bits'.foldl feed register) : bits = bits' := by
  rw [foldl_feed short, foldl_feed (length ▸ short), ← length] at same
  have packed : pack bits = pack bits' :=
    UInt16.xor_right_inj register |>.1 (shifts_injective _ same)
  apply List.ext_getElem length
  intro i hi hi'
  have bit := getLsbD_pack bits (Nat.lt_of_lt_of_le hi short)
  rw [packed, getLsbD_pack bits' (Nat.lt_of_lt_of_le hi short), List.getElem?_eq_getElem hi,
    List.getElem?_eq_getElem hi'] at bit
  exact bit.symm

/-- Further bits lose nothing of the register. -/
theorem eq_of_foldl_feed {bits : List Bool} {r s : UInt16}
    (same : bits.foldl feed r = bits.foldl feed s) : r = s := by
  induction bits generalizing r s with
  | nil => exact same
  | cons bit rest ih => exact feed_injective (ih same)

/-! ## Bytes -/

/-- The bits of a byte, the highest first. -/
def byteBits (byte : UInt8) : List Bool :=
  (List.range 8).map fun i => byte.toBitVec.getLsbD (7 - i)

/-- The bits of a byte string in the order of transmission. -/
def bits (bytes : List UInt8) : List Bool :=
  bytes.flatMap byteBits

@[simp] theorem length_byteBits (byte : UInt8) : (byteBits byte).length = 8 := by
  simp [byteBits]

theorem byteBits_injective {x y : UInt8} (same : byteBits x = byteBits y) : x = y := by
  apply UInt8.toBitVec_inj.1
  apply BitVec.eq_of_getLsbD_eq
  intro i hi
  have bit := List.getElem_of_eq same (i := 7 - i) (by simp; omega)
  have back : 7 - (7 - i) = i := by omega
  simpa only [byteBits, List.getElem_map, List.getElem_range, back] using bit

@[simp] theorem bits_nil : bits [] = [] := rfl

@[simp] theorem bits_cons (byte : UInt8) (rest : List UInt8) :
    bits (byte :: rest) = byteBits byte ++ bits rest := rfl

/-- Byte strings with the same bits are the same. -/
theorem bits_injective {bytes bytes' : List UInt8} (same : bits bytes = bits bytes') :
    bytes = bytes' := by
  induction bytes generalizing bytes' with
  | nil =>
    cases bytes' with
    | nil => rfl
    | cons byte rest => exact absurd (congrArg List.length same) (by simp; omega)
  | cons byte rest ih =>
    cases bytes' with
    | nil => exact absurd (congrArg List.length same) (by simp)
    | cons byte' rest' =>
      obtain ⟨first, others⟩ := List.append_inj same (by simp)
      rw [byteBits_injective first, ih others]

theorem bits_take (n : Nat) (bytes : List UInt8) :
    bits (bytes.take n) = (bits bytes).take (8 * n) := by
  induction bytes generalizing n with
  | nil => simp
  | cons byte rest ih =>
    cases n with
    | zero => simp
    | succ n =>
      have first : 8 * (n + 1) = (byteBits byte).length + 8 * n := by
        rw [length_byteBits]
        omega
      rw [List.take_succ_cons, bits_cons, bits_cons, ih, first, List.take_length_add_append]

theorem bits_drop (n : Nat) (bytes : List UInt8) :
    bits (bytes.drop n) = (bits bytes).drop (8 * n) := by
  induction bytes generalizing n with
  | nil => simp
  | cons byte rest ih =>
    cases n with
    | zero => simp
    | succ n =>
      have first : 8 * (n + 1) = (byteBits byte).length + 8 * n := by
        rw [length_byteBits]
        omega
      rw [List.drop_succ_cons, bits_cons, ih, first, List.drop_length_add_append]

theorem pack_byteBits (byte : UInt8) : pack (byteBits byte) = byte.toUInt16 <<< 8 := by
  apply word_ext
  intro i hi
  obtain ⟨j, hj, rfl⟩ : ∃ j < 16, i = 15 - j := ⟨15 - i, by omega, by omega⟩
  rw [getLsbD_pack _ hj]
  interval_cases j <;> simp [byteBits]

/-- A byte is taken as its bits are. -/
theorem absorb_eq (register : UInt16) (byte : UInt8) :
    absorb register byte = (byteBits byte).foldl feed register := by
  rw [foldl_feed (by simp), pack_byteBits, length_byteBits]
  rfl

/-- A byte string is taken as its bits are. -/
theorem checksum_eq_foldl_feed (bytes : List UInt8) :
    checksum bytes = (bits bytes).foldl feed initial := by
  have taken (register : UInt16) :
      bytes.foldl absorb register = (bits bytes).foldl feed register := by
    induction bytes generalizing register with
    | nil => rfl
    | cons byte rest ih => rw [bits_cons, List.foldl_append, List.foldl_cons, ih, absorb_eq]
  exact taken initial

/-! ## Bursts -/

/-- The byte strings differ, and all bits in which they do are among sixteen consecutive ones, which
lie in the bytes from `first` up to but without `stop`. -/
inductive Burst (first stop : Nat) (bytes bytes' : List UInt8) : Prop where
  | of {front window window' back : List Bool}
      (bits_eq : bits bytes = front ++ (window ++ back))
      (bits_eq' : bits bytes' = front ++ (window' ++ back))
      (length_eq : window.length = window'.length) (differ : window ≠ window')
      (short : window.length ≤ 16) (low : 8 * first ≤ front.length)
      (high : front.length + window.length ≤ 8 * stop)

namespace Burst

variable {first stop n : Nat} {bytes bytes' : List UInt8} (burst : Burst first stop bytes bytes')
include burst

/-- Nothing changes before the first byte of the burst. -/
theorem take_eq (before : n ≤ first) : bytes.take n = bytes'.take n := by
  obtain @⟨front, window, window', back, bits_eq, bits_eq', length_eq, -, -, low, -⟩ := burst
  apply bits_injective
  rw [bits_take, bits_take, bits_eq, bits_eq', List.take_append_of_le_length (by omega),
    List.take_append_of_le_length (by omega)]

/-- Nothing changes behind the last byte of the burst. -/
theorem drop_eq (behind : stop ≤ n) : bytes.drop n = bytes'.drop n := by
  obtain @⟨front, window, window', back, bits_eq, bits_eq', length_eq, -, -, -, high⟩ := burst
  have behind (part : List Bool) (length : part.length = window.length) :
      (front ++ (part ++ back)).drop (8 * n) = back.drop (8 * n - front.length - part.length) := by
    rw [List.drop_append, List.drop_of_length_le (by omega : front.length ≤ _), List.nil_append,
      List.drop_append, List.drop_of_length_le (by omega : part.length ≤ _), List.nil_append]
  apply bits_injective
  rw [bits_drop, bits_drop, bits_eq, bits_eq', behind window rfl, behind window' length_eq.symm,
    length_eq]

/-- The burst is also one of the bytes up to its end. -/
theorem take (behind : stop ≤ n) : Burst first stop (bytes.take n) (bytes'.take n) := by
  obtain @⟨front, window, window', back, bits_eq, bits_eq', length_eq, differ, short, low, high⟩ :=
    burst
  have taken (part : List Bool) (length : part.length = window.length) :
      (front ++ (part ++ back)).take (8 * n) =
        front ++ (part ++ back.take (8 * n - front.length - part.length)) := by
    rw [List.take_append, List.take_of_length_le (by omega : front.length ≤ _), List.take_append,
      List.take_of_length_le (by omega : part.length ≤ _)]
  refine @of _ _ _ _ front window window' (back.take (8 * n - front.length - window.length)) ?_ ?_
    length_eq differ short low high
  · rw [bits_take, bits_eq, taken window rfl]
  · rw [bits_take, bits_eq', taken window' length_eq.symm, length_eq]

/-- A burst changes the checksum. -/
theorem checksum_ne : checksum bytes ≠ checksum bytes' := by
  obtain @⟨front, window, window', back, bits_eq, bits_eq', length_eq, differ, short, -, -⟩ := burst
  intro same
  rw [checksum_eq_foldl_feed, checksum_eq_foldl_feed, bits_eq, bits_eq'] at same
  simp only [List.foldl_append] at same
  exact differ (foldl_feed_injective length_eq short (eq_of_foldl_feed same))

end Burst

end TwinLog.Crc16
