-- SUMMARY: Widened reads of NOR flash: their bytes, their calls, and the buffer that they go through.
import TwinLog.Proofs.Drivers
import TwinLog.Proofs.Record

/-! # Widened reads

A read that is not aligned to the granularity of a NOR flash driver is widened to one that is, and
goes through a buffer of `windowSize` bytes part by part. `NorFlash.readThrough` is that read with
the buffer, the bytes filled so far and a check of every index. No check fails, and the result is
what cutting the bytes out of the widened read gives (`NorFlash.readThrough_eq`). Main statement: a
widened read returns the bytes of the memory and calls the driver for whole units within its range
only (`NorFlash.read_widened`). -/

namespace TwinLog

/-! ## Checked ranges -/

/-- The difference of two numbers, unless it is negative. -/
def minus? (a b : Nat) : Option Nat :=
  if b ≤ a then some (a - b) else none

theorem minus?_eq {a b : Nat} (h : b ≤ a) : minus? a b = some (a - b) :=
  if_pos h

namespace Bytes

variable {n : Nat}

/-- The `count` bytes from an index on, unless some of them are out of range. -/
def slice? (bytes : Bytes n) (start count : Nat) : Option (List UInt8) :=
  if start + count ≤ n then some ((bytes.toList.drop start).take count) else none

/-- The bytes with new ones in place from an index on, unless some of these are out of range. -/
def splice? (bytes : Bytes n) (start : Nat) (new : List UInt8) : Option (Bytes n) :=
  if start + new.length ≤ n then
    some (ofListPadded n (bytes.toList.take start ++ new ++ bytes.toList.drop (start + new.length)))
  else none

theorem slice?_eq (bytes : Bytes n) {start count : Nat} (h : start + count ≤ n) :
    bytes.slice? start count = some ((bytes.toList.drop start).take count) :=
  if_pos h

theorem splice?_eq (bytes : Bytes n) (start : Nat) (new : List UInt8)
    (h : start + new.length ≤ n) :
    ∃ bytes', bytes.splice? start new = some bytes' ∧
      bytes'.toList = bytes.toList.take start ++ new ++ bytes.toList.drop (start + new.length) := by
  refine ⟨_, if_pos h, ?_⟩
  have length : (bytes.toList.take start ++ new ++
      bytes.toList.drop (start + new.length)).length = n := by
    simp only [List.length_append, List.length_take, List.length_drop, Vector.length_toList]
    omega
  rw [toList_ofListPadded (Nat.le_of_eq length.symm), List.take_of_length_le (Nat.le_of_eq length)]

/-- Bytes behind the first `n` do not matter. -/
theorem ofListPadded_append_of_le {front : List UInt8} (h : n ≤ front.length)
    (tail : List UInt8) : ofListPadded n (front ++ tail) = ofListPadded n front := by
  have whole := @ofListPadded_take_append n front.length 0 front tail (by omega) (Nat.le_refl _)
  rwa [List.take_length, List.drop_zero, List.drop_zero] at whole

/-- Enough of some bytes is as good as all of them. -/
theorem ofListPadded_take_eq {front new : List UInt8} {count : Nat}
    (h : new.length ≤ count ∨ n ≤ (front ++ new.take count).length) (rest : List UInt8) :
    ofListPadded n (front ++ new.take count ++ rest) = ofListPadded n (front ++ (new ++ rest)) := by
  rcases h with all | enough
  · rw [List.take_of_length_le all, List.append_assoc]
  · have split : front ++ (new ++ rest) =
        front ++ new.take count ++ (new.drop count ++ rest) := by
      rw [List.append_assoc, ← List.append_assoc (new.take count), List.take_append_drop]
    rw [split, ofListPadded_append_of_le enough, ofListPadded_append_of_le enough]

end Bytes

namespace NorFlash

/-! ## Reads through a buffer -/

/-- A read under way. -/
structure Progress (length : Nat) where
  /-- What the driver reads into. -/
  buffer : Bytes windowSize
  /-- Where the bytes asked for go. -/
  bytes : Bytes length
  /-- How many of them are there. -/
  filled : Nat

namespace Progress

variable {length : Nat}

/-- The progress after the driver has read `part`, of which the first `skip` bytes are not asked
for, unless an index is out of range. -/
def take? (p : Progress length) (part : List UInt8) (skip : Nat) : Option (Progress length) := do
  let buffer ← p.buffer.splice? 0 part
  let left ← minus? part.length skip
  let room ← minus? length p.filled
  let new ← buffer.slice? skip (min left room)
  let bytes ← p.bytes.splice? p.filled new
  return ⟨buffer, bytes, p.filled + min left room⟩

/-- The bytes asked for when `rest` follows those that are there. -/
def completed (p : Progress length) (rest : List UInt8) : Bytes length :=
  Bytes.ofListPadded length (p.bytes.toList.take p.filled ++ rest)

theorem completed_of_filled {p : Progress length} (full : p.filled = length) :
    p.completed [] = p.bytes := by
  unfold completed
  rw [full, List.take_of_length_le (Nat.le_of_eq (Vector.length_toList ..))]
  exact Bytes.ofListPadded_append p.bytes []

/-- Part of the bytes asked for is copied, and all indices are in range. -/
theorem take?_eq {p : Progress length} {part : List UInt8} {skip : Nat}
    (fits : part.length ≤ windowSize) (skips : skip ≤ part.length) (below : p.filled ≤ length) :
    ∃ p', p.take? part skip = some p' ∧
      p'.filled = p.filled + min (part.length - skip) (length - p.filled) ∧
      ∀ rest, p'.completed rest = p.completed (part.drop skip ++ rest) := by
  obtain ⟨take, htake⟩ : ∃ take, take = min (part.length - skip) (length - p.filled) := ⟨_, rfl⟩
  obtain ⟨buffer, read, hbuffer⟩ := p.buffer.splice?_eq 0 part (by rwa [Nat.zero_add])
  -- the bytes that are copied are those just read, whatever the buffer held before
  have fresh : (buffer.toList.drop skip).take take = (part.drop skip).take take := by
    rw [hbuffer, List.take_zero, List.nil_append, List.drop_append_of_le_length skips,
      List.take_append_of_le_length (by rw [List.length_drop]; omega)]
  have count : ((part.drop skip).take take).length = take := by
    rw [List.length_take, List.length_drop]
    omega
  obtain ⟨bytes, copied, hbytes⟩ :=
    p.bytes.splice?_eq p.filled ((part.drop skip).take take) (by omega)
  have front : (p.bytes.toList.take p.filled ++ (part.drop skip).take take).length =
      p.filled + take := by
    rw [List.length_append, List.length_take, Vector.length_toList, count]
    omega
  refine ⟨⟨buffer, bytes, p.filled + take⟩, ?_, congrArg (p.filled + ·) htake, fun rest => ?_⟩
  · unfold take?
    simp only [bind, Option.bind, read, minus?_eq skips, minus?_eq below]
    rw [← htake, buffer.slice?_eq (by omega), fresh]
    simp only [copied]
    rfl
  · have kept : bytes.toList.take (p.filled + take) =
        p.bytes.toList.take p.filled ++ (part.drop skip).take take := by
      rw [hbytes, ← front, List.take_left]
    unfold completed
    rw [kept]
    refine Bytes.ofListPadded_take_eq ?_ rest
    rw [front, List.length_drop]
    omega

end Progress

/-- Reads on from `cursor` up to `stop`, at most `step` bytes a call. The first `skip` bytes behind
`start` are not asked for. There is no result where an index is out of range. -/
def fill {length : Nat} (step : Nat) (hs : 0 < step) (start skip stop cursor : Nat)
    (p : Progress length) : Drive (Option (Bytes length)) :=
  if cursor < stop then
    let count := min step (stop - cursor)
    if count ≤ windowSize then do
      let part ← call (.read cursor.toUInt32 count)
      match p.take? part.toList (if cursor = start then skip else 0) with
      | some p => fill step hs start skip stop (cursor + count) p
      | none => return none
    else return none
  else return some p.bytes
termination_by stop - cursor

theorem step_pos {step : Nat} (h : ¬(step = 0 ∨ windowSize < step)) : 0 < step :=
  Nat.pos_of_ne_zero fun zero => h (.inl zero)

/-- Reads `length` bytes over what `bytes` holds, as `read` does but with the buffer. -/
def readThrough (readSize : UInt64) (address : UInt32) {length : Nat} (buffer : Bytes windowSize)
    (bytes : Bytes length) : Drive (Option (Bytes length)) :=
  if address.toNat % readSize.toNat = 0 ∧ length % readSize.toNat = 0 then
    some <$> call (.read address length)
  else
    let start := (alignFloor address.toUInt64 readSize).toNat
    let stop := (alignCeil (address.toNat + length).toUInt64 readSize).toNat
    let step := max (alignFloor windowSize.toUInt64 readSize).toNat readSize.toNat
    match minus? address.toNat start with
    | none => return none
    | some skip =>
      if h : step = 0 ∨ windowSize < step then throw .notSupported
      else fill step (step_pos h) start skip stop start ⟨buffer, bytes, 0⟩

/-- No index is out of range, and the bytes are those of the window behind the skipped ones. The
bytes that are still to come have to fit into what is left of the window. -/
theorem fill_eq {length step start skip stop cursor : Nat} (hs : 0 < step)
    (fits : step ≤ windowSize) (skips : skip ≤ step) {p : Progress length}
    (from_start : start ≤ cursor) (below : p.filled ≤ length)
    (covered : (if cursor = start then skip else 0) + (length - p.filled) ≤ stop - cursor) :
    fill step hs start skip stop cursor p = (do
      let window ← readWindow step hs cursor stop
      return some (p.completed (window.drop (if cursor = start then skip else 0)))) := by
  -- on what is left of the window; only the first part has bytes to skip
  induction left : stop - cursor using Nat.strongRecOn generalizing cursor p with
  | ind left ih =>
    rw [fill, readWindow]
    obtain ⟨first, hfirst⟩ : ∃ first, first = if cursor = start then skip else 0 := ⟨_, rfl⟩
    rw [← hfirst] at covered ⊢
    by_cases more : cursor < stop
    · have first_le : first ≤ skip := by
        rw [hfirst]
        split <;> omega
      obtain ⟨count, hcount⟩ : ∃ count, count = min step (stop - cursor) := ⟨_, rfl⟩
      rw [if_pos more, if_pos more]
      dsimp only
      rw [← hcount, if_pos (by omega)]
      simp only [bind_assoc, pure_bind]
      refine congrArg (call (.read cursor.toUInt32 count) >>= ·) (funext fun part => ?_)
      have part_length : part.toList.length = count := Vector.length_toList ..
      obtain ⟨p', taken, filled, completed⟩ := @Progress.take?_eq length p part.toList first
        (by omega) (by omega) below
      have later : ¬cursor + count = start := by omega
      rw [part_length] at filled
      rw [taken]
      dsimp only
      rw [ih _ (by omega) (by omega) (by omega) (by rw [if_neg later]; omega) rfl, if_neg later]
      refine congrArg (readWindow step hs (cursor + count) stop >>= ·) (funext fun tail => ?_)
      rw [List.drop_zero, completed, List.drop_append_of_le_length (by omega)]
    · rw [if_neg more, if_neg more, pure_bind, List.drop_nil,
        Progress.completed_of_filled (by omega)]

/-- The first address of a widened read is that of the unit with the first byte. -/
theorem window_start {readSize : UInt64} (pos : 0 < readSize.toNat) (address : UInt32) :
    (alignFloor address.toUInt64 readSize).toNat =
        address.toNat / readSize.toNat * readSize.toNat ∧
      address.toNat / readSize.toNat * readSize.toNat ≤ address.toNat ∧
      address.toNat < address.toNat / readSize.toNat * readSize.toNat + readSize.toNat := by
  rw [toNat_alignFloor, UInt32.toNat_toUInt64]
  exact ⟨rfl, Nat.div_mul_le_self _ _, Nat.lt_div_mul_add pos⟩

/-- A widened read ends with the unit that has the last byte. -/
theorem window_stop {readSize : UInt64} (pos : 0 < readSize.toNat) {address : UInt32} {length : Nat}
    (fits : address.toNat + length + readSize.toNat ≤ 2 ^ 64) :
    (alignCeil (address.toNat + length).toUInt64 readSize).toNat =
        (address.toNat + length + (readSize.toNat - 1)) / readSize.toNat * readSize.toNat ∧
      address.toNat + length ≤
        (address.toNat + length + (readSize.toNat - 1)) / readSize.toNat * readSize.toNat := by
  have size : (address.toNat + length).toUInt64.toNat = address.toNat + length :=
    Nat.mod_eq_of_lt (by omega)
  have above := Nat.lt_div_mul_add pos (a := address.toNat + length + (readSize.toNat - 1))
  rw [toNat_alignCeil pos (by rw [size]; omega), size]
  exact ⟨rfl, by omega⟩

/-- A read through the buffer is the read that cuts the bytes out of the window, whatever the buffer
and the bytes held before. No index is out of range. -/
theorem readThrough_eq {readSize : UInt64} (pos : 0 < readSize.toNat) {address : UInt32}
    {length : Nat} (fits : address.toNat + length + readSize.toNat ≤ 2 ^ 64)
    (buffer : Bytes windowSize) (bytes : Bytes length) :
    readThrough readSize address buffer bytes = some <$> read readSize address length := by
  unfold readThrough read
  split
  · rfl
  dsimp only
  obtain ⟨start, start_le, near⟩ := window_start pos address
  obtain ⟨stop, le_stop⟩ := window_stop pos fits
  rw [start, stop]
  rw [minus?_eq start_le]
  dsimp only
  split
  · rfl
  · rename_i small
    rw [not_or, Nat.not_lt] at small
    obtain ⟨nonzero, small⟩ := small
    rw [fill_eq (Nat.pos_of_ne_zero nonzero) small (by omega) (Nat.le_refl _) (Nat.zero_le _)
      (by rw [if_pos rfl]; omega), if_pos rfl, map_bind]
    refine congrArg (readWindow _ _ _ _ >>= ·) (funext fun window => ?_)
    rfl

/-! ## Bytes and calls -/

section Memory

variable {σ : Type} {driver : Answers σ} {content : σ → Medium} {device : DeviceId}
  {unit step low high cursor n : Nat}

/-- A window of whole units is read in a part of whole units and the rest. -/
theorem readWindow_split (hs : 0 < step) (hstep : unit ∣ step) (more : 0 < n) (hn : unit ∣ n) :
    ∃ count rest, n = count + rest ∧ 0 < count ∧ unit ∣ count ∧ unit ∣ rest ∧
      readWindow step hs cursor (cursor + n) = (do
        let head ← call (.read cursor.toUInt32 count)
        let tail ← readWindow step hs (cursor + count) (cursor + count + rest)
        return head.toList ++ tail) := by
  have whole : unit ∣ min step n := by
    rcases Nat.le_total step n with le | le
    · rwa [Nat.min_eq_left le]
    · rwa [Nat.min_eq_right le]
  have split : n = min step n + (n - min step n) := by omega
  have rest : unit ∣ n - min step n := by
    rw [split] at hn
    exact (Nat.dvd_add_right whole).1 hn
  refine ⟨min step n, n - min step n, split, by omega, whole, rest, ?_⟩
  rw [readWindow, if_pos (by omega), Nat.add_assoc, ← split, Nat.add_sub_cancel_left]

theorem wholeRead {count : Nat} (space : high ≤ addressSpace) (more : 0 < count)
    (hcursor : unit ∣ cursor) (hcount : unit ∣ count) (from_low : low ≤ cursor)
    (to_high : cursor + count ≤ high) : cursor.toUInt32.toNat = cursor ∧
      WholeRead unit low high (.read cursor.toUInt32 count) := by
  have address : cursor.toUInt32.toNat = cursor :=
    Nat.mod_eq_of_lt (show cursor < addressSpace by omega)
  refine ⟨address, ?_⟩
  show unit ∣ cursor.toUInt32.toNat ∧ unit ∣ count ∧ low ≤ cursor.toUInt32.toNat ∧
    cursor.toUInt32.toNat + count ≤ high
  rw [address]
  exact ⟨hcursor, hcount, from_low, to_high⟩

/-- Whatever the replies, a window of whole units is read in whole units. -/
theorem only_readWindow (hs : 0 < step) (hstep : unit ∣ step) (space : high ≤ addressSpace)
    (hcursor : unit ∣ cursor) (hn : unit ∣ n) (from_low : low ≤ cursor)
    (to_high : cursor + n ≤ high) :
    (readWindow step hs cursor (cursor + n)).run.Only (WholeRead unit low high) := by
  induction n using Nat.strongRecOn generalizing cursor with
  | ind n ih =>
    rcases Nat.eq_zero_or_pos n with rfl | more
    · rw [readWindow, if_neg (by omega)]
      trivial
    · obtain ⟨count, rest, rfl, pos, hcount, hrest, split⟩ :=
        @readWindow_split unit step cursor n hs hstep more hn
      obtain ⟨-, whole⟩ := wholeRead space pos hcursor hcount from_low (by omega)
      rw [split]
      refine only_bind (only_call whole) fun head => only_bind ?_ fun tail => trivial
      exact ih rest (by omega) (Nat.dvd_add hcursor hcount) hrest (by omega) (by omega)

/-- A driver that works returns the bytes of a window of whole units. -/
theorem run_readWindow (works : CarriesOut driver content device (WholeRead unit low high))
    (hs : 0 < step) (hstep : unit ∣ step) (space : high ≤ addressSpace) (hcursor : unit ∣ cursor)
    (hn : unit ∣ n) (from_low : low ≤ cursor) (to_high : cursor + n ≤ high) (s : σ) :
    ∃ s', (readWindow step hs cursor (cursor + n)).run.run driver s =
        (.ok ((content s).read device cursor n).toList, s') ∧ content s' = content s := by
  induction n using Nat.strongRecOn generalizing cursor s with
  | ind n ih =>
    rcases Nat.eq_zero_or_pos n with rfl | more
    · rw [readWindow, if_neg (by omega)]
      exact ⟨s, rfl, rfl⟩
    · obtain ⟨count, rest, rfl, pos, hcount, hrest, split⟩ :=
        @readWindow_split unit step cursor n hs hstep more hn
      obtain ⟨address, whole⟩ := wholeRead space pos hcursor hcount from_low (by omega)
      obtain ⟨s₁, head, kept⟩ := works.run_call whole s
      obtain ⟨s₂, tail, kept'⟩ := ih rest (by omega) (Nat.dvd_add hcursor hcount) hrest (by omega)
        (by omega) s₁
      refine ⟨s₂, ?_, kept'.trans kept⟩
      have same : content s₁ = content s := kept
      rw [split, run_bind_of_ok head, run_bind_of_ok tail, same,
        ← Medium.toList_read_append, Call.effect, address]
      rfl

/-- A read that is not aligned is cut out of the window of whole units around it. -/
theorem read_eq_window {readSize : UInt64} (pos : 0 < readSize.toNat)
    (small : readSize.toNat ≤ windowSize) {address : UInt32} {length : Nat}
    (fits : address.toNat + length + readSize.toNat ≤ 2 ^ 64)
    (unaligned : ¬(address.toNat % readSize.toNat = 0 ∧ length % readSize.toNat = 0)) :
    ∃ first n step, ∃ hs : 0 < step, readSize.toNat ∣ step ∧ readSize.toNat ∣ first ∧
      readSize.toNat ∣ n ∧ first = address.toNat / readSize.toNat * readSize.toNat ∧
      first + n = (address.toNat + length + (readSize.toNat - 1)) / readSize.toNat * readSize.toNat ∧
      read readSize address length = (do
        let window ← readWindow step hs first (first + n)
        return .ofListPadded length (window.drop (address.toNat - first))) := by
  obtain ⟨start, start_le, -⟩ := window_start pos address
  obtain ⟨stop, le_stop⟩ := window_stop pos fits
  have nonzero : max (alignFloor windowSize.toUInt64 readSize).toNat readSize.toNat ≠ 0 := by
    omega
  have step_le : max (alignFloor windowSize.toUInt64 readSize).toNat readSize.toNat ≤ windowSize :=
    Nat.max_le.2 ⟨alignFloor_le windowSize.toUInt64 readSize, small⟩
  have dvd_first := Nat.dvd_mul_left readSize.toNat (address.toNat / readSize.toNat)
  have dvd_last := Nat.dvd_mul_left readSize.toNat
    ((address.toNat + length + (readSize.toNat - 1)) / readSize.toNat)
  unfold read
  rw [if_neg unaligned]
  dsimp only
  rw [dif_neg (not_or.2 ⟨nonzero, Nat.not_lt.2 step_le⟩), start, stop]
  obtain ⟨n, last⟩ := Nat.exists_eq_add_of_le (Nat.le_trans start_le (by omega :
    address.toNat ≤ (address.toNat + length + (readSize.toNat - 1)) / readSize.toNat *
      readSize.toNat))
  rw [last] at dvd_last ⊢
  exact ⟨_, n, _, Nat.pos_of_ne_zero nonzero, dvd_max_alignFloor windowSize.toUInt64 readSize,
    dvd_first, (Nat.dvd_add_right dvd_first).1 dvd_last, rfl, rfl, rfl⟩

/-- Bytes are read as they are in the memory if the units around them are in the range of the
driver, which is called for whole units in its range only. No index into the buffer is out of
range. A unit that does not fit into the buffer is not supported, unless the read is aligned. -/
theorem read_widened {readSize : UInt64}
    (works : CarriesOut driver content device (WholeRead readSize.toNat low high))
    (space : high ≤ addressSpace) (pos : 0 < readSize.toNat) (address : UInt32) (length : Nat) :
    (readSize.toNat ≤ windowSize → low ≤ address.toNat / readSize.toNat * readSize.toNat →
        (address.toNat + length + (readSize.toNat - 1)) / readSize.toNat * readSize.toNat ≤ high →
        (∀ s, ∃ s', (read readSize address length).run.run driver s =
            (.ok ((content s).read device address.toNat length), s') ∧ content s' = content s) ∧
          (read readSize address length).run.Only (WholeRead readSize.toNat low high) ∧
          ∀ (buffer : Bytes windowSize) (bytes : Bytes length),
            readThrough readSize address buffer bytes = some <$> read readSize address length) ∧
      (windowSize < readSize.toNat →
        ¬(address.toNat % readSize.toNat = 0 ∧ length % readSize.toNat = 0) →
        read readSize address length = throw .notSupported) := by
  refine ⟨fun small from_low to_high => ?_, fun large unaligned => ?_⟩
  · have above := Nat.lt_div_mul_add pos (a := address.toNat + length + (readSize.toNat - 1))
    have fits : address.toNat + length + readSize.toNat ≤ 2 ^ 64 := by
      have : addressSpace + windowSize ≤ 2 ^ 64 := by decide
      omega
    have start_le := Nat.div_mul_le_self address.toNat readSize.toNat
    -- that every index is in range does not depend on the driver
    refine and_assoc.1 ⟨?_, readThrough_eq pos fits⟩
    by_cases aligned : address.toNat % readSize.toNat = 0 ∧ length % readSize.toNat = 0
    · have whole : WholeRead readSize.toNat low high (.read address length) :=
        ⟨Nat.dvd_of_mod_eq_zero aligned.1, Nat.dvd_of_mod_eq_zero aligned.2, by omega, by omega⟩
      unfold read
      rw [if_pos aligned]
      exact ⟨works.run_call whole, only_call whole⟩
    · obtain ⟨first, n, step, hs, hstep, hfirst, hn, floor, last, eq⟩ :=
        read_eq_window pos small fits aligned
      rw [eq]
      refine ⟨fun s => ?_, ?_⟩
      · obtain ⟨s', window, kept⟩ :=
          run_readWindow works hs hstep space hfirst hn (by omega) (by omega) s
        refine ⟨s', ?_, kept⟩
        rw [run_bind_of_ok window, ← (content s).ofListPadded_read device
          (by omega : first ≤ address.toNat) (by omega : address.toNat + length ≤ first + n),
          Nat.add_sub_cancel_left]
        rfl
      · exact only_bind (only_readWindow hs hstep space hfirst hn (by omega) (by omega))
          fun window => trivial
  · unfold read
    rw [if_neg unaligned]
    exact dif_pos (.inr (Nat.lt_of_lt_of_le large (Nat.le_max_right _ _)))

end Memory

/-- A medium whose bytes count their addresses. -/
def counting : Medium := fun _ a => a.toUInt8

/-- A hundred bytes are cut out of five units of 24 bytes, which are read with three calls. -/
theorem read_widened_spanning :
    CarriesOut (drive ⟨0⟩ fun _ => none) id ⟨0⟩ (WholeRead 24 0 120) ∧ 120 ≤ addressSpace ∧
      0 < (24 : UInt64).toNat ∧
      (∃ m, (read 24 7 100).run.run (drive ⟨0⟩ fun _ => none) counting =
        (.ok (counting.read ⟨0⟩ 7 100), m) ∧ m = counting) ∧
      (read 24 7 100).run.Only (WholeRead 24 0 120) := by
  have works := carriesOut_drive ⟨0⟩ (WholeRead 24 0 120)
  obtain ⟨bytes, only, -⟩ :=
    (@read_widened _ _ _ _ 0 120 24 works (by decide) (by decide) 7 100).1 (by decide) (by decide)
      (by decide)
  exact ⟨works, by decide, by decide, bytes counting, only⟩

end NorFlash

end TwinLog
