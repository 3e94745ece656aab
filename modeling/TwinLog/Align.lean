-- SUMMARY: Rounding 64-bit sizes to multiples of an alignment.

/-! # Alignment

`alignFloor` and `alignCeil` round a size down and up to a multiple of an alignment. An alignment
that is a power of two is rounded by masking, any other by division. Rounding up saturates: when
the next multiple is not representable, the greatest representable one is taken. -/

namespace TwinLog

/-- Whether exactly one bit is set. -/
def isPowerOfTwo (n : UInt64) : Bool :=
  n != 0 && n &&& (n - 1) == 0

/-- The sum, or the greatest word where the sum does not fit. -/
def saturatingAdd (a b : UInt64) : UInt64 :=
  UInt64.ofNat (min (a.toNat + b.toNat) (UInt64.size - 1))

/-- Rounds `size` down to a multiple of `alignment`. -/
def alignFloor (size alignment : UInt64) : UInt64 :=
  if isPowerOfTwo alignment then size &&& ~~~(alignment - 1) else size / alignment * alignment

/-- Rounds `size` up to a multiple of `alignment`, or down from the greatest word where no such
multiple fits. -/
def alignCeil (size alignment : UInt64) : UInt64 :=
  alignFloor (saturatingAdd size (alignment - 1)) alignment

end TwinLog
