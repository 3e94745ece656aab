-- SUMMARY: What rounding to an alignment computes, as arithmetic of natural numbers.
import Mathlib.Algebra.Group.Nat.Defs
import Mathlib.Order.Bounds.Basic
import TwinLog.Align

/-! # Rounding

Masks and divisions round to the same multiples (`toNat_alignFloor`), so the two branches of
`alignFloor` need not be told apart elsewhere. Rounding down gives the greatest multiple that is not
above, and rounding up the least that is not below, as long as that is a word
(`rounding_exact`). -/

namespace TwinLog

theorem toNat_pred {n : UInt64} (pos : 0 < n.toNat) : (n - 1).toNat = n.toNat - 1 :=
  UInt64.toNat_sub_of_le n 1 (UInt64.le_iff_toNat_le.2 pos)

/-- Exactly one bit is set in the powers of two. -/
theorem isPowerOfTwo_iff {n : UInt64} : isPowerOfTwo n = true ↔ ∃ k, n.toNat = 2 ^ k := by
  have nonzero : n ≠ 0 ↔ n.toNat ≠ 0 := not_congr UInt64.toNat_inj.symm
  have masked (h : n ≠ 0) : n &&& (n - 1) = 0 ↔ n.toNat &&& (n.toNat - 1) = 0 := by
    rw [← UInt64.toNat_inj, UInt64.toNat_and, toNat_pred (Nat.pos_of_ne_zero (nonzero.1 h))]
    rfl
  unfold isPowerOfTwo
  rw [Bool.and_eq_true, bne_iff_ne, beq_iff_eq]
  constructor
  · rintro ⟨h, low⟩
    exact (Nat.and_sub_one_eq_zero_iff_isPowerOfTwo (nonzero.1 h)).1 ((masked h).1 low)
  · intro power
    obtain ⟨h, low⟩ := Nat.ne_zero_and_sub_one_eq_zero_iff_isPowerOfTwo.2 power
    exact ⟨nonzero.2 h, (masked (nonzero.2 h)).2 low⟩

/-- Clearing the low bits of a word rounds it down. -/
theorem and_mask_eq {a k : Nat} (fits : a < 2 ^ 64) (h : 2 ^ k < 2 ^ 64) :
    a &&& (2 ^ 64 - (2 ^ k - 1 + 1)) = a / 2 ^ k * 2 ^ k := by
  apply Nat.eq_of_testBit_eq
  intro i
  rw [Nat.testBit_and, Nat.testBit_two_pow_sub_succ (by omega), Nat.testBit_two_pow_sub_one,
    Nat.testBit_mul_two_pow, Nat.testBit_div_two_pow]
  by_cases low : i < k
  · simp [low, Nat.not_le.2 low]
  · by_cases high : i < 64
    · simp [low, high, Nat.le_of_not_lt low]
    · have out : a.testBit i = false :=
        Nat.testBit_lt_two_pow (Nat.lt_of_lt_of_le fits (Nat.pow_le_pow_right (by decide) (by omega)))
      simp [out, Nat.le_of_not_lt low]

/-- Rounding down gives a multiple of the alignment. -/
theorem toNat_alignFloor (size alignment : UInt64) :
    (alignFloor size alignment).toNat = size.toNat / alignment.toNat * alignment.toNat := by
  unfold alignFloor
  split
  · rename_i power
    obtain ⟨k, h⟩ := isPowerOfTwo_iff.1 power
    have pred : (alignment - 1).toNat = 2 ^ k - 1 := by
      rw [toNat_pred (h ▸ Nat.two_pow_pos k), h]
    rw [UInt64.toNat_and, UInt64.toNat_not, pred, h, Nat.sub_sub, Nat.add_comm 1]
    exact and_mask_eq size.toNat_lt (h ▸ alignment.toNat_lt)
  · rw [UInt64.toNat_mul, UInt64.toNat_div]
    exact Nat.mod_eq_of_lt (Nat.lt_of_le_of_lt (Nat.div_mul_le_self _ _) size.toNat_lt)

theorem toNat_saturatingAdd (a b : UInt64) :
    (saturatingAdd a b).toNat = min (a.toNat + b.toNat) (UInt64.size - 1) :=
  UInt64.toNat_ofNat_of_lt' (Nat.lt_of_le_of_lt (Nat.min_le_right _ _) (by decide))

/-- Rounding up adds up to the last byte before the next multiple, as far as words go. -/
theorem toNat_alignCeil {size alignment : UInt64} (pos : 0 < alignment.toNat)
    (fits : size.toNat + (alignment.toNat - 1) < 2 ^ 64) :
    (alignCeil size alignment).toNat =
      (size.toNat + (alignment.toNat - 1)) / alignment.toNat * alignment.toNat := by
  rw [alignCeil, toNat_alignFloor, toNat_saturatingAdd, toNat_pred pos,
    Nat.min_eq_left (by simp only [UInt64.size]; omega)]

/-- Rounding up stays below the next multiple but one. -/
theorem le_alignCeil {size alignment : UInt64} (pos : 0 < alignment.toNat)
    (fits : size.toNat + (alignment.toNat - 1) < 2 ^ 64) :
    size.toNat ≤ (alignCeil size alignment).toNat ∧
      (alignCeil size alignment).toNat < size.toNat + alignment.toNat := by
  rw [toNat_alignCeil pos fits]
  have above := Nat.lt_div_mul_add pos (a := size.toNat + (alignment.toNat - 1))
  have below := Nat.div_mul_le_self (size.toNat + (alignment.toNat - 1)) alignment.toNat
  omega

theorem alignFloor_le (size alignment : UInt64) :
    (alignFloor size alignment).toNat ≤ size.toNat := by
  rw [toNat_alignFloor]
  exact Nat.div_mul_le_self _ _

theorem dvd_alignFloor (size alignment : UInt64) :
    alignment.toNat ∣ (alignFloor size alignment).toNat := by
  rw [toNat_alignFloor]
  exact Nat.dvd_mul_left _ _

theorem dvd_alignCeil (size alignment : UInt64) :
    alignment.toNat ∣ (alignCeil size alignment).toNat :=
  dvd_alignFloor _ _

/-- The most that fits into `size` in steps of the alignment, but one step at least. -/
theorem dvd_max_alignFloor (size alignment : UInt64) :
    alignment.toNat ∣ max (alignFloor size alignment).toNat alignment.toNat := by
  rcases Nat.le_total (alignFloor size alignment).toNat alignment.toNat with le | le
  · exact ⟨1, by rw [Nat.max_eq_right le, Nat.mul_one]⟩
  · rw [Nat.max_eq_left le]
    exact dvd_alignFloor size alignment

theorem pos_of_max_alignFloor {size alignment : UInt64}
    (h : max (alignFloor size alignment).toNat alignment.toNat ≠ 0) : 0 < alignment.toNat := by
  refine Nat.pos_of_ne_zero fun zero => h ?_
  rw [toNat_alignFloor, zero, Nat.mul_zero]
  rfl

/-! ## Extremal multiples -/

/-- Of the multiples that are not above a number, rounding down gives the greatest. -/
theorem isGreatest_floor (a m : Nat) : IsGreatest { n | m ∣ n ∧ n ≤ a } (a / m * m) := by
  refine ⟨⟨Nat.dvd_mul_left m _, Nat.div_mul_le_self a m⟩, ?_⟩
  rintro n ⟨multiple, le⟩
  calc
    n = n / m * m := (Nat.div_mul_cancel multiple).symm
    _ ≤ a / m * m := Nat.mul_le_mul_right m (Nat.div_le_div_right le)

/-- Of the multiples that are not below a number, rounding up gives the least. -/
theorem isLeast_ceil (a : Nat) {m : Nat} (pos : 0 < m) :
    IsLeast { n | m ∣ n ∧ a ≤ n } ((a + (m - 1)) / m * m) := by
  have above := Nat.lt_div_mul_add pos (a := a + (m - 1))
  refine ⟨⟨Nat.dvd_mul_left m _, by omega⟩, ?_⟩
  rintro _ ⟨⟨k, rfl⟩, le⟩
  have next : (m * k + (m - 1)) / m = k := by
    rw [Nat.mul_add_div pos, Nat.div_eq_of_lt (by omega), Nat.add_zero]
  calc
    (a + (m - 1)) / m * m ≤ (m * k + (m - 1)) / m * m :=
      Nat.mul_le_mul_right m (Nat.div_le_div_right (by omega))
    _ = m * k := by rw [next, Nat.mul_comm]

/-- The mask and the division give the same word. -/
theorem alignFloor_eq_div (size alignment : UInt64) :
    alignFloor size alignment = size / alignment * alignment := by
  apply UInt64.toNat_inj.1
  rw [toNat_alignFloor, UInt64.toNat_mul, UInt64.toNat_div]
  exact (Nat.mod_eq_of_lt (Nat.lt_of_le_of_lt (Nat.div_mul_le_self _ _) size.toNat_lt)).symm

/-- Rounding down gives the greatest multiple that is not above. Rounding up gives the least
multiple that is not below if that is a word, and else the greatest that is one. Where there is a
mask, the division gives the same. -/
theorem rounding_exact (size : UInt64) {alignment : UInt64} (pos : 0 < alignment) :
    IsGreatest { n | alignment.toNat ∣ n ∧ n ≤ size.toNat } (alignFloor size alignment).toNat ∧
    (∃ next, IsLeast { n | alignment.toNat ∣ n ∧ size.toNat ≤ n } next ∧
      (next ≤ UInt64.size - 1 → (alignCeil size alignment).toNat = next) ∧
      (UInt64.size - 1 < next → IsGreatest { n | alignment.toNat ∣ n ∧ n ≤ UInt64.size - 1 }
        (alignCeil size alignment).toNat)) ∧
    (alignFloor size alignment = size / alignment * alignment ∧
      alignCeil size alignment = saturatingAdd size (alignment - 1) / alignment * alignment) ∧
    (isPowerOfTwo alignment →
      alignFloor size alignment = size &&& ~~~(alignment - 1) ∧
      alignCeil size alignment = saturatingAdd size (alignment - 1) &&& ~~~(alignment - 1)) := by
  have pos' : 0 < alignment.toNat := UInt64.lt_iff_toNat_lt.1 pos
  refine ⟨?_, ⟨_, isLeast_ceil size.toNat pos', ?_⟩, ⟨alignFloor_eq_div _ _, alignFloor_eq_div _ _⟩,
    fun power => ⟨if_pos power, if_pos power⟩⟩
  · rw [toNat_alignFloor]
    exact isGreatest_floor _ _
  rw [alignCeil, toNat_alignFloor, toNat_saturatingAdd, toNat_pred pos']
  generalize size.toNat + (alignment.toNat - 1) = sum
  have below := Nat.div_mul_le_self sum alignment.toNat
  refine ⟨fun fits => Nat.le_antisymm ?_ ?_, fun beyond => ?_⟩
  · exact Nat.mul_le_mul_right _ (Nat.div_le_div_right (Nat.min_le_left _ _))
  · -- where the sum saturates, the least multiple is still not above it
    exact (isGreatest_floor _ _).2 ⟨Nat.dvd_mul_left _ _, Nat.le_min.2 ⟨below, fits⟩⟩
  · rw [Nat.min_eq_right (by omega)]
    exact isGreatest_floor _ _

/-- Close to the greatest word: once the sum saturates though the next multiple is a word, and once
the next multiple is none. -/
theorem rounding_exact_top : (0 : UInt64) < 10 ∧
    (alignCeil 0xFFFFFFFFFFFFFFF8 10).toNat = 0xFFFFFFFFFFFFFFFA ∧
    (∃ next, IsLeast { n | 10 ∣ n ∧ 0xFFFFFFFFFFFFFFFD ≤ n } next ∧ UInt64.size - 1 < next) ∧
    IsGreatest { n | 10 ∣ n ∧ n ≤ UInt64.size - 1 } (alignCeil 0xFFFFFFFFFFFFFFFD 10).toNat := by
  have pos : (0 : UInt64) < 10 := by decide
  obtain ⟨-, ⟨next, least, exact, -⟩, -⟩ := rounding_exact 0xFFFFFFFFFFFFFFF8 pos
  obtain ⟨-, ⟨next', least', -, beyond⟩, -⟩ := rounding_exact 0xFFFFFFFFFFFFFFFD pos
  have same : next = 0xFFFFFFFFFFFFFFFA := least.unique (isLeast_ceil _ (by decide))
  have same' : next' = 0x10000000000000004 := least'.unique (isLeast_ceil _ (by decide))
  have high : UInt64.size - 1 < next' := by
    rw [same']
    decide
  refine ⟨pos, ?_, ⟨next', least', high⟩, beyond high⟩
  rw [exact (by rw [same]; decide), same]

end TwinLog
