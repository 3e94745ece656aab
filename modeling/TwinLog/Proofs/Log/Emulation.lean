-- SUMMARY: Emulated erases: the writes of a fill tile the volume and leave what an erase leaves.
import TwinLog.Proofs.Align
import TwinLog.Proofs.Confinement
import TwinLog.Proofs.Execution
import TwinLog.Proofs.Translation

/-! # Emulated erases

A device that overwrites but has no native erase is reset by a fill. The writes of a fill tile the
volume in aligned chunks (`Volume.Tiled`), first in large ones and then in single write units, and
every chunk extends the part that is reset. So a fill ends with the whole volume reset, with every
byte of it written once (`Volume.eraseAll_emulates`). -/

namespace TwinLog

/-! ## Devices -/

section Devices

variable {σ : Type} (answer : (request : Bus.Request) → StateM σ (Bus.Reply request))
  (content : σ → Medium)

/-- The device overwrites the bytes of the volume, in whole write units at least, and has no
native erase. What else it keeps, and what it does with other requests, is left open. -/
structure Volume.Overwritable (v : Volume) : Prop where
  overwrites : ∀ (address : UInt32) (bytes : List UInt8) (s : σ),
    v.Alters ⟨v.device, .write address bytes⟩ →
    (∀ unit, v.geometry.writeSize = some unit →
      unit.toNat ∣ address.toNat ∧ unit.toNat ∣ bytes.length) →
    ∃ t, answer ⟨v.device, .write address bytes⟩ s = (.ok (), t) ∧
      content t = (content s).program .overwrite v.device address.toNat bytes
  unsupported : v.geometry.eraseSize = none ∨ ∀ (address : UInt32) (length : Nat) (s : σ),
    v.Alters ⟨v.device, .erase address length⟩ →
    ∃ t, answer ⟨v.device, .erase address length⟩ s = (.error .notSupported, t) ∧
      content t = content s

end Devices

/-- The request writes the byte of a device at an address. -/
def Request.writes (device : DeviceId) (a : Nat) : Request → Bool
  | ⟨d, .write address bytes⟩ =>
    d = device ∧ address.toNat ≤ a ∧ a < address.toNat + bytes.length
  | _ => false

namespace Volume

/-! ## Tilings -/

/-- The requests fill the volume from an offset to its end, in chunks that follow each other and
consist of whole units. -/
inductive Tiled (v : Volume) (unit : Nat) : Nat → List Request → Prop where
  | done : Tiled v unit v.size []
  | chunk {offset length : Nat} {address : UInt32} {requests : List Request}
      (start : address.toNat = v.start + offset) (pos : 0 < length) (short : length ≤ maxChunk)
      (aligned : unit ∣ v.start + offset) (whole : unit ∣ length)
      (rest : Tiled v unit (offset + length) requests) :
      Tiled v unit offset (⟨v.device, .write address (erasedBytes length)⟩ :: requests)

namespace Tiled

variable {v : Volume} {unit offset : Nat} {requests : List Request}

theorem le (tiled : v.Tiled unit offset requests) : offset ≤ v.size := by
  induction tiled with
  | done => exact Nat.le_refl _
  | chunk _ _ _ _ _ _ ih => omega

/-- Every request of a tiling is an aligned write of a short run of erased bytes. -/
theorem aligned_write (tiled : v.Tiled unit offset requests) :
    ∀ request ∈ requests, v.Alters request ∧ ∃ (address : UInt32) (length : Nat),
      request = ⟨v.device, .write address (erasedBytes length)⟩ ∧
      unit ∣ address.toNat ∧ unit ∣ length ∧ length ≤ maxChunk := by
  induction tiled with
  | done => exact nofun
  | @chunk offset length address requests start pos short aligned whole rest ih =>
    intro request mem
    rcases List.mem_cons.1 mem with rfl | later
    · have inside := rest.le
      refine ⟨⟨rfl, by omega, ?_⟩, address, length, rfl, by rwa [start], whole, short⟩
      rw [length_erasedBytes]
      omega
    · exact ih request later

/-- The chunks of a tiling cover every byte of the rest of the volume once, and no other byte. -/
theorem countP_writes (tiled : v.Tiled unit offset requests) (a : Nat) :
    requests.countP (Request.writes v.device a) =
      if v.start + offset ≤ a ∧ a < v.start + v.size then 1 else 0 := by
  induction tiled with
  | done =>
    rw [if_neg (by omega)]
    rfl
  | @chunk offset length address requests start pos short aligned whole rest ih =>
    have inside := rest.le
    have head : Request.writes v.device a ⟨v.device, .write address (erasedBytes length)⟩ =
        decide (v.start + offset ≤ a ∧ a < v.start + (offset + length)) := by
      simp only [Request.writes, true_and, start, length_erasedBytes, Nat.add_assoc]
    rw [List.countP_cons, ih, head]
    by_cases here : v.start + offset ≤ a ∧ a < v.start + (offset + length)
    · rw [if_neg (by omega), if_pos (decide_eq_true here), if_pos (by omega)]
    · rw [if_neg (mt of_decide_eq_true here), Nat.add_zero]
      congr 1
      exact propext ⟨fun _ => by omega, fun _ => by omega⟩

end Tiled

/-! ## Fills -/

variable {σ : Type} {answer : (request : Bus.Request) → StateM σ (Bus.Reply request)}
  {content : σ → Medium} {v : Volume}

section Fill

variable {unit : UInt64} (overwritable : v.Overwritable answer content)
  (addressable : v.start + v.size ≤ addressSpace) (granularity : v.geometry.writeSize = some unit)
  (start : unit.toNat ∣ v.start)
include overwritable addressable granularity start

/-- A chunk at the end of the part that is reset extends that part. -/
theorem executes_write_erased {offset length : Nat} {m : Medium} {s : σ}
    (aligned : unit.toNat ∣ offset) (whole : unit.toNat ∣ length) (pos : 0 < length)
    (inside : offset + length ≤ v.size) (before : content s = v.wiped m offset) :
    ∃ t, (v.write offset (erasedBytes length)).Executes answer s () t
        [⟨v.device, .write (v.start + offset).toUInt32 (erasedBytes length)⟩] ∧
      content t = v.wiped m (offset + length) := by
  have below : offset < v.size := by omega
  have place := toNat_address addressable below
  have multiple : unit.toNat ∣ v.start + offset := Nat.dvd_add start aligned
  have located : v.write offset (erasedBytes length) =
      v.device.perform (.write (v.start + offset).toUInt32 (erasedBytes length)) := by
    unfold write
    rw [granularity, length_erasedBytes, locateAligned_eq_ok addressable below inside
      (Nat.mod_eq_zero_of_dvd multiple) (Nat.mod_eq_zero_of_dvd whole)]
    rfl
  have alters : v.Alters
      ⟨v.device, .write (v.start + offset).toUInt32 (erasedBytes length)⟩ := by
    refine ⟨rfl, by omega, ?_⟩
    rw [place, length_erasedBytes]
    omega
  obtain ⟨t, reply, after⟩ := overwritable.overwrites _ _ s alters fun unit' same => by
    obtain rfl := Option.some.inj (granularity.symm.trans same)
    rw [place, length_erasedBytes]
    exact ⟨multiple, whole⟩
  refine ⟨t, ?_, ?_⟩
  · rw [located]
    exact .perform reply
  · rw [after, before, place, program_wiped]

/-- A fill that got to an aligned offset goes on to the end of the volume, in chunks that tile the
rest. -/
theorem executes_fillFrom (size : unit.toNat ∣ v.size) {chunk : Nat}
    (multiple : unit.toNat ∣ chunk) (short : chunk ≤ maxChunk) (unitShort : unit.toNat ≤ maxChunk)
    (hc : 0 < chunk) (hs : 0 < unit.toNat) {offset : Nat} {m : Medium} {s : σ}
    (aligned : unit.toNat ∣ offset) (inside : offset ≤ v.size)
    (before : content s = v.wiped m offset) :
    ∃ t requests, (v.fillFrom chunk unit.toNat hc hs offset).Executes answer s () t requests ∧
      content t = v.wiped m v.size ∧ v.Tiled unit.toNat offset requests := by
  induction left : v.size - offset using Nat.strongRecOn generalizing offset s with
  | ind left ih =>
    -- what remains after a chunk is filled by the induction hypothesis
    have step {length : Nat} (whole : unit.toNat ∣ length) (pos : 0 < length)
        (short : length ≤ maxChunk) (room : offset + length ≤ v.size) :
        ∃ t requests, (do
          v.write offset (erasedBytes length)
          v.fillFrom chunk unit.toNat hc hs (offset + length)).Executes answer s () t requests ∧
          content t = v.wiped m v.size ∧ v.Tiled unit.toNat offset requests := by
      obtain ⟨t, written, between⟩ := executes_write_erased overwritable addressable granularity
        start aligned whole pos room before
      obtain ⟨u, requests, filled, after, tiled⟩ :=
        ih _ (by omega) (Nat.dvd_add aligned whole) room between rfl
      exact ⟨u, _, written.bind filled, after,
        .chunk (toNat_address addressable (by omega)) pos short (Nat.dvd_add start aligned) whole
          tiled⟩
    rw [fillFrom]
    split
    · rename_i room
      exact step multiple hc short room
    · split
      · -- the rest consists of whole units, so the last write is not cut short
        have room : unit.toNat ≤ v.size - offset :=
          Nat.le_of_dvd (by omega) (Nat.dvd_sub size aligned)
        rw [Nat.min_eq_left room]
        exact step (Nat.dvd_refl _) hs unitShort (by omega)
      · obtain rfl : offset = v.size := by omega
        exact ⟨s, [], .pure (), before, .done⟩

/-- A fill of a volume that consists of whole write units resets it. -/
theorem executes_fill (pos : 1 ≤ unit.toNat) (small : unit.toNat ≤ maxChunk)
    (size : unit.toNat ∣ v.size) (s : σ) :
    ∃ t requests, v.fill.Executes answer s () t requests ∧
      content t = v.wiped (content s) v.size ∧ v.Tiled unit.toNat 0 requests := by
  have chunk : max (alignFloor maxChunk.toUInt64 unit).toNat unit.toNat ≤ maxChunk :=
    Nat.max_le.2 ⟨alignFloor_le _ _, small⟩
  unfold fill
  rw [granularity]
  dsimp only
  rw [dif_neg (by omega)]
  exact executes_fillFrom overwritable addressable granularity start size
    (dvd_max_alignFloor _ _) chunk small _ _ (Nat.dvd_zero _) (Nat.zero_le _) wiped_zero.symm

end Fill

/-- A fill is not supported where no write unit is known, or only one that is too large. -/
theorem fill_eq_throw (coarse : ∀ unit, v.geometry.writeSize = some unit →
    unit.toNat = 0 ∨ maxChunk < unit.toNat) : v.fill = throw .notSupported := by
  unfold fill
  split
  · rfl
  · rename_i unit granularity
    exact dif_pos ((coarse unit granularity).imp_right fun large =>
      Nat.lt_of_lt_of_le large (Nat.le_max_right _ _))

/-! ## Erases -/

/-- What is asked of a device before its volume is filled. Without an erase granularity, that is
nothing. -/
def attempts (v : Volume) : List Request :=
  if v.geometry.eraseSize = none then [] else [⟨v.device, .erase v.start.toUInt32 v.size⟩]

/-- The volume on a device that erases natively, in units of the given size. -/
def natively (v : Volume) (unit : UInt64) : Volume :=
  { v with geometry := ⟨v.geometry.writeSize, some unit⟩ }

/-- The writes turn `m` into what a native erase of the volume makes of it. They are aligned to
the write unit, at most `maxChunk` bytes long and within the volume, and write each of its bytes
once. -/
structure Emulates (v : Volume) (unit : Nat) (m m' : Medium) (writes : List Request) : Prop where
  native : ∀ (hw : Hardware) (erase : UInt64), (v.natively erase).Native hw erase →
    (v.natively erase).eraseAll.Executes hw.answer m () m'
      [⟨v.device, .erase v.start.toUInt32 v.size⟩]
  erased : ∀ d a, v.region d a → m' d a = 0xFF
  unchanged : ∀ d a, ¬v.region d a → m' d a = m d a
  aligned : ∀ request ∈ writes, v.Alters request ∧ ∃ (address : UInt32) (length : Nat),
    request = ⟨v.device, .write address (erasedBytes length)⟩ ∧
    unit ∣ address.toNat ∧ unit ∣ length ∧ length ≤ maxChunk
  once : ∀ d a, v.region d a → writes.countP (Request.writes d a) = 1

/-- Writes that tile the volume emulate a native erase if they reset it. -/
theorem Tiled.emulates {unit : Nat} {writes : List Request} (tiled : v.Tiled unit 0 writes)
    (below : v.start < addressSpace) (m : Medium) :
    v.Emulates unit m (v.wiped m v.size) writes where
  native _ erase native := executes_eraseAll (v := v.natively erase) below native
  erased _ _ inside := if_pos inside
  unchanged _ _ outside := if_neg outside
  aligned := tiled.aligned_write
  once := by
    rintro _ a ⟨rfl, low, high⟩
    rw [tiled.countP_writes, if_pos ⟨low, high⟩]

/-- Without a native erase, the attempt at one changes nothing. -/
theorem executes_erase_unsupported (overwritable : v.Overwritable answer content)
    (below : v.start < addressSpace)
    (aligned : ∀ unit, v.geometry.eraseSize = some unit →
      unit.toNat ∣ v.start ∧ unit.toNat ∣ v.size) (s : σ) :
    ∃ t, (v.erase 0 v.size).run.Executes answer s (.error .notSupported) t v.attempts ∧
      content t = content s := by
  unfold attempts
  cases granularity : v.geometry.eraseSize with
  | none =>
    refine ⟨s, ?_, rfl⟩
    rw [erase_whole_none below granularity, if_pos rfl]
    exact .done _
  | some unit =>
    obtain ⟨start, whole⟩ := aligned unit granularity
    have place := toNat_start below
    rcases overwritable.unsupported with none | refuses
    · rw [granularity] at none
      cases none
    · obtain ⟨t, reply, kept⟩ := refuses v.start.toUInt32 v.size s
        ⟨rfl, Nat.le_of_eq place.symm, Nat.le_of_eq (by rw [place])⟩
      refine ⟨t, ?_, kept⟩
      rw [erase_whole below granularity (Nat.mod_eq_zero_of_dvd start)
        (Nat.mod_eq_zero_of_dvd whole), if_neg nofun]
      exact ⟨reply, rfl⟩

/-- A reset of a volume that cannot be erased natively emulates the erase by writes, where its
write unit is at most `maxChunk` bytes and divides its start and size. With a larger write unit, or
without one, nothing is written and the reset is not supported. Where the device has an erase
granularity all the same, the volume has to be aligned to it. -/
theorem eraseAll_emulates (overwritable : v.Overwritable answer content)
    (addressable : v.start + v.size ≤ addressSpace) (below : v.start < addressSpace)
    (aligned : ∀ unit, v.geometry.eraseSize = some unit →
      unit.toNat ∣ v.start ∧ unit.toNat ∣ v.size) (s : σ) :
    (∀ unit, v.geometry.writeSize = some unit → 1 ≤ unit.toNat → unit.toNat ≤ maxChunk →
      unit.toNat ∣ v.start → unit.toNat ∣ v.size →
      ∃ t writes, v.eraseAll.Executes answer s () t (v.attempts ++ writes) ∧
        v.Emulates unit.toNat (content s) (content t) writes) ∧
    ((∀ unit, v.geometry.writeSize = some unit → unit.toNat = 0 ∨ maxChunk < unit.toNat) →
      ∃ t, v.eraseAll.run.Executes answer s (.error .notSupported) t v.attempts ∧
        content t = content s) := by
  obtain ⟨t, refused, kept⟩ := executes_erase_unsupported overwritable below aligned s
  constructor
  · intro unit granularity pos small start size
    obtain ⟨u, writes, filled, after, tiled⟩ :=
      executes_fill overwritable addressable granularity start pos small size t
    refine ⟨u, writes, .tryCatch_error refused filled, ?_⟩
    rw [after, kept]
    exact tiled.emulates below (content s)
  · intro coarse
    refine ⟨t, ?_, kept⟩
    rw [← List.append_nil v.attempts]
    refine Access.Executes.tryCatch_error refused ?_
    dsimp only
    rw [fill_eq_throw coarse]
    exact .done _

/-- Working devices that overwrite and have no native erase. -/
def eeproms : Hardware := fun _ => ⟨.overwrite, false, false⟩

theorem overwritable_eeproms (v : Volume) : v.Overwritable eeproms.answer id where
  overwrites _ _ _ _ _ := ⟨_, rfl, rfl⟩
  unsupported := .inr fun _ _ _ _ => ⟨_, rfl, rfl⟩

/-- A volume of twelve write units, which are no power of two, on a device with the given write
unit. -/
def dozen (writeSize : Option UInt64) : Volume where
  device := ⟨0⟩
  geometry := ⟨writeSize, some 96⟩
  start := 96
  size := 576

/-- The dozen of units is erased by writes, unless the write unit of the device is too large. -/
theorem eraseAll_emulates_dozen :
    (∀ unit, (dozen unit).Overwritable eeproms.answer id ∧
      (dozen unit).start + (dozen unit).size ≤ addressSpace ∧ (dozen unit).start < addressSpace ∧
      ∀ erase, (dozen unit).geometry.eraseSize = some erase →
        erase.toNat ∣ (dozen unit).start ∧ erase.toNat ∣ (dozen unit).size) ∧
    (∃ t writes, (dozen (some 48)).eraseAll.Executes eeproms.answer (fun _ _ => 0) () t
        (⟨⟨0⟩, .erase 96 576⟩ :: writes) ∧
      (dozen (some 48)).Emulates 48 (fun _ _ => 0) t writes) ∧
    (dozen (some 512)).eraseAll.run.Executes eeproms.answer (fun _ _ => 0) (.error .notSupported)
      (fun _ _ => 0) [⟨⟨0⟩, .erase 96 576⟩] := by
  have addressable : 96 + 576 ≤ addressSpace := by decide
  have below : 96 < addressSpace := by decide
  have aligned : ∀ erase : UInt64, some 96 = some erase → erase.toNat ∣ 96 ∧ erase.toNat ∣ 576 := by
    rintro _ ⟨⟩
    exact ⟨by decide, by decide⟩
  refine ⟨fun unit => ⟨overwritable_eeproms _, addressable, below, aligned⟩, ?_, ?_⟩
  · exact (eraseAll_emulates (overwritable_eeproms (dozen (some 48))) addressable below
      aligned fun _ _ => 0).1 48 rfl (by decide) (by decide) (by decide) (by decide)
  · obtain ⟨t, refused, kept⟩ := (eraseAll_emulates (overwritable_eeproms (dozen (some 512)))
      addressable below aligned fun _ _ => 0).2 (by rintro _ ⟨⟩; exact .inr (by decide))
    obtain rfl : t = fun _ _ => 0 := kept
    exact refused

/-- A device whose erases are never supported all the same reports a granularity for them. -/
def pretender : Table where
  devices := #[⟨some 1, some 64⟩]
  areas := #[{ name := "settings", device := ⟨0⟩, base := 0, size := 96,
               partitions := [⟨0, 48⟩, ⟨48, 48⟩] }]
  device_lt := by simp

/-- An area at the end of the address space, with an empty partition behind the last byte. -/
def brink : Table where
  devices := #[⟨some 1, none⟩]
  areas := #[{ name := "brink", device := ⟨0⟩, base := 0xFFFFFF00, size := 256,
               partitions := [⟨256, 0⟩] }]
  device_lt := by simp

/-- A volume that is not aligned to the erase granularity, or that starts behind the last address,
is not erased by writes, although its device overwrites single bytes and has no native erase. -/
theorem eraseAll_refused :
    ∃ v w, pretender.volume 0 2 = .ok v ∧ brink.volume 0 1 = .ok w ∧ pretender.Mapped ∧
      brink.Mapped ∧ v.Overwritable eeproms.answer id ∧ w.Overwritable eeproms.answer id ∧
      v.geometry.writeSize = some 1 ∧ w.geometry.writeSize = some 1 ∧
      v.eraseAll.run.Executes eeproms.answer (fun _ _ => 0) (.error .invalidArgument)
        (fun _ _ => 0) [] ∧
      w.eraseAll.run.Executes eeproms.answer (fun _ _ => 0) (.error .invalidArgument)
        (fun _ _ => 0) [] := by
  refine ⟨⟨⟨0⟩, ⟨some 1, some 64⟩, 48, 48⟩, ⟨⟨0⟩, ⟨some 1, none⟩, addressSpace, 0⟩, rfl, rfl,
    ⟨by decide, by decide⟩, ⟨by decide, by decide⟩, overwritable_eeproms _, overwritable_eeproms _,
    rfl, rfl, ⟨rfl, rfl⟩, ⟨rfl, rfl⟩⟩

end Volume

end TwinLog
