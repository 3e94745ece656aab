-- SUMMARY: Erases of NOR flash behind a table: which ranges the driver gets, and which never reach it.
import TwinLog.Proofs.Drivers
import TwinLog.Proofs.Registration

/-! # Ranges of erases

A table takes areas that end with the address space, and areas that are the whole of it. A NOR flash
driver is given an erase as the address it starts at and the one it stops before, both in 32 bits.
An erase that ends with the address space has no such address to stop before. It is refused, unless
it is an erase of the whole address space: then the driver is told to erase nothing, and its success
is reported. Main statement: any other erase that a table lets pass is done exactly, and these two
are not (`Table.erase_done_iff`). -/

namespace TwinLog

/-! ## Ranges of calls -/

namespace NorFlash

/-- The device is a NOR flash with the driver. -/
def Adapts {σ : Type} (driver : Answers σ) (readSize : UInt64) (device : DeviceId)
    (answer : (request : Bus.Request) → StateM σ (Bus.Reply request)) : Prop :=
  ∀ operation, answer ⟨device, operation⟩ = (perform readSize operation).run.run driver

/-- The range of an erase is exact where it stops before an address. -/
theorem erase_eq_call {address : UInt32} {length : Nat}
    (below : address.toNat + length < addressSpace) :
    ∃ stop : UInt32, stop.toNat = address.toNat + length ∧
      erase address length = call (.erase address stop) := by
  have low : length.toUInt32.toNat = length :=
    Nat.mod_eq_of_lt (show length < addressSpace by omega)
  refine ⟨address + length.toUInt32, ?_, ?_⟩
  · rw [UInt32.toNat_add, low]
    exact Nat.mod_eq_of_lt below
  · unfold erase
    exact if_pos (by rwa [low])

/-- An erase that ends with the address space but does not start with it is refused. -/
theorem erase_eq_throw {address : UInt32} {length : Nat} (pos : 0 < address.toNat)
    (top : address.toNat + length = addressSpace) :
    erase address length = throw .invalidArgument := by
  have low : length.toUInt32.toNat = length :=
    Nat.mod_eq_of_lt (show length < addressSpace by omega)
  unfold erase
  refine if_neg ?_
  rw [low, top]
  exact Nat.lt_irrefl _

/-- An erase of the whole address space becomes one of nothing. -/
theorem erase_whole : erase 0 addressSpace = call (.erase 0 0) :=
  rfl

section Works

variable {σ : Type} {driver : Answers σ} {content : σ → Medium} {device : DeviceId}
  {unit low high : Nat}

/-- A driver that works resets the bytes of a range that it is told exactly. -/
theorem CarriesOut.run_erase (works : CarriesOut driver content device (WholeErase unit low high))
    {address : UInt32} {length : Nat} (below : address.toNat + length < addressSpace)
    (hstart : unit ∣ address.toNat) (hlength : unit ∣ length) (from_low : low ≤ address.toNat)
    (to_high : address.toNat + length ≤ high) (s : σ) :
    ∃ s', (erase address length).run.run driver s = (.ok (), s') ∧
      content s' = (content s).reset device address.toNat length := by
  obtain ⟨stop, exact, eq⟩ := erase_eq_call below
  have whole : WholeErase unit low high (.erase address stop) :=
    ⟨hstart, exact ▸ Nat.dvd_add hstart hlength,
      UInt32.le_iff_toNat_le.2 (exact ▸ Nat.le_add_right _ _), from_low, exact ▸ to_high⟩
  obtain ⟨s', done, after⟩ := works.run_call whole s
  refine ⟨s', eq ▸ done, ?_⟩
  rw [after, Call.effect, exact, Nat.add_sub_cancel_left]

/-- A driver that works succeeds with an erase of nothing. -/
theorem CarriesOut.run_erase_nothing
    (works : CarriesOut driver content device (WholeErase unit 0 high)) (s : σ) :
    ∃ s', (call (.erase 0 0)).run.run driver s = (.ok (), s') ∧ content s' = content s := by
  have whole : WholeErase unit 0 high (.erase 0 0) :=
    ⟨Nat.dvd_zero _, Nat.dvd_zero _, UInt32.le_refl _, Nat.le_refl _, Nat.zero_le _⟩
  obtain ⟨s', done, after⟩ := works.run_call whole s
  exact ⟨s', done, after.trans (Medium.reset_zero _ _ _)⟩

end Works

end NorFlash

/-! ## Erases that pass the table -/

namespace Table

/-- The table lets an erase of `length` bytes pass. -/
structure Erasable (t : Table) (index part offset length : Nat) (area : Area) (p : Partition)
    (unit : UInt64) : Prop where
  known : t.Knows index part area p
  device : ∃ g, t.devices[area.device.index]? = some g ∧ g.eraseSize = some unit
  addressable : area.stop ≤ addressSpace
  inside : area.Encloses
  nonempty : 0 < length
  within : offset + length ≤ p.size.toNat
  start_aligned : unit.toNat ∣ area.base.toNat + p.offset.toNat + offset
  length_aligned : unit.toNat ∣ length

variable {t : Table} {index part offset length : Nat} {area : Area} {p : Partition} {unit : UInt64}

/-- A partition of an area ends with the area at the latest. -/
theorem Knows.end_le_stop (known : t.Knows index part area p) (inside : area.Encloses) :
    area.base.toNat + p.offset.toNat + p.size.toNat ≤ area.stop := by
  unfold Area.stop
  cases known with
  | whole => simp
  | part _ entry =>
    have := inside p (List.mem_of_getElem? entry)
    omega

namespace Erasable

theorem end_le (h : t.Erasable index part offset length area p unit) :
    area.base.toNat + p.offset.toNat + offset + length ≤ area.stop := by
  have := h.known.end_le_stop h.inside
  have := h.within
  omega

/-- The erase is an operation of the device. -/
theorem erase_eq (h : t.Erasable index part offset length area p unit) :
    ∃ address : UInt32, address.toNat = area.base.toNat + p.offset.toNat + offset ∧
      t.erase index part offset length = area.device.perform (.erase address length) := by
  obtain ⟨g, device, granular⟩ := h.device
  obtain ⟨g', found, volume⟩ := volume_of_knows h.known
  obtain rfl := Option.some.inj (device.symm.trans found)
  have pos := h.nonempty
  have within := h.within
  have fits := Nat.le_trans (h.known.end_le_stop h.inside) h.addressable
  refine ⟨(area.base.toNat + p.offset.toNat + offset).toUInt32, ?_, ?_⟩
  · exact Nat.mod_eq_of_lt (show _ < addressSpace by omega)
  · have unit_eq : (Transfer.erase length).unit? g = some unit := granular
    have located := @Volume.locateAligned_eq_ok
      ⟨area.device, g, area.base.toNat + p.offset.toNat, p.size.toNat⟩ unit offset length fits
      (Nat.lt_of_lt_of_le (Nat.lt_add_of_pos_right pos) within) within
      (Nat.mod_eq_zero_of_dvd h.start_aligned) (Nat.mod_eq_zero_of_dvd h.length_aligned)
    show t.transfer index part offset (.erase length) = _
    rw [transfer_of_volume volume, Volume.transfer_eq, unit_eq]
    show ((liftM (Volume.locateAligned _ (some unit) offset length) : Access UInt32) >>= _) = _
    rw [located]
    rfl

end Erasable

/-! ## Erases by a driver -/

section Driver

variable {σ : Type} {answer : (request : Bus.Request) → StateM σ (Bus.Reply request)}
  {driver : NorFlash.Answers σ} {readSize : UInt64} {content : σ → Medium}

/-- The driver gets what becomes of the erase. -/
theorem Erasable.run_erase (h : t.Erasable index part offset length area p unit)
    (adapts : NorFlash.Adapts driver readSize area.device answer) :
    ∃ address : UInt32, address.toNat = area.base.toNat + p.offset.toNat + offset ∧
      (t.erase index part offset length).run.run answer =
        (NorFlash.erase address length).run.run driver := by
  obtain ⟨address, exact, erase⟩ := h.erase_eq
  refine ⟨address, exact, ?_⟩
  rw [erase]
  exact (Script.run_ask answer _).trans (adapts (.erase address length))

namespace Erasable

/-- The driver is told the exact range if it stops before an address. -/
theorem run_exact (h : t.Erasable index part offset length area p unit)
    (adapts : NorFlash.Adapts driver readSize area.device answer)
    (below : area.base.toNat + p.offset.toNat + offset + length < addressSpace) :
    ∃ start stop : UInt32, start.toNat = area.base.toNat + p.offset.toNat + offset ∧
      stop.toNat = area.base.toNat + p.offset.toNat + offset + length ∧
      (t.erase index part offset length).run.run answer =
        (NorFlash.call (.erase start stop)).run.run driver := by
  obtain ⟨address, start, run⟩ := h.run_erase adapts
  obtain ⟨stop, exact_stop, eq⟩ := @NorFlash.erase_eq_call address length (by omega)
  exact ⟨address, stop, start, by omega, eq ▸ run⟩

/-- A driver that works erases a range that stops before an address. -/
theorem run_done (h : t.Erasable index part offset length area p unit)
    (adapts : NorFlash.Adapts driver readSize area.device answer)
    (works : NorFlash.CarriesOut driver content area.device
      (NorFlash.WholeErase unit.toNat area.base.toNat area.stop))
    (below : area.base.toNat + p.offset.toNat + offset + length < addressSpace) (s : σ) :
    ∃ s', (t.erase index part offset length).run.run answer s = (.ok (), s') ∧
      content s' = (content s).reset area.device (area.base.toNat + p.offset.toNat + offset)
        length := by
  obtain ⟨address, start, run⟩ := h.run_erase adapts
  have end_le := h.end_le
  have start_aligned : unit.toNat ∣ address.toNat := start.symm ▸ h.start_aligned
  obtain ⟨s', erased, after⟩ := @NorFlash.CarriesOut.run_erase _ driver content _ _ _ _ works
    address length (by omega) start_aligned h.length_aligned (by omega) (by omega) s
  rw [start] at after
  exact ⟨s', (congrFun run s).trans erased, after⟩

/-- An erase that ends with the address space is refused unless it starts with it, too. -/
theorem run_refused (h : t.Erasable index part offset length area p unit)
    (adapts : NorFlash.Adapts driver readSize area.device answer)
    (top : area.base.toNat + p.offset.toNat + offset + length = addressSpace)
    (pos : 0 < area.base.toNat + p.offset.toNat + offset) (s : σ) :
    (t.erase index part offset length).run.run answer s = (.error .invalidArgument, s) := by
  obtain ⟨address, start, run⟩ := h.run_erase adapts
  rw [run, NorFlash.erase_eq_throw (by omega) (by omega)]
  rfl

/-- For an erase of the whole address space, the driver is told to erase nothing. -/
theorem run_nothing (h : t.Erasable index part offset length area p unit)
    (adapts : NorFlash.Adapts driver readSize area.device answer) (whole : length = addressSpace) :
    area.base = 0 ∧ (t.erase index part offset length).run.run answer =
      (NorFlash.call (.erase 0 0)).run.run driver := by
  obtain ⟨address, start, run⟩ := h.run_erase adapts
  have end_le := Nat.le_trans h.end_le h.addressable
  have zero : address = 0 := UInt32.toNat_inj.1 (show address.toNat = 0 by omega)
  refine ⟨UInt32.toNat_inj.1 (show area.base.toNat = 0 by omega), ?_⟩
  rw [run, zero, whole, NorFlash.erase_whole]

/-- A driver that works reports success for an erase of the whole address space, and erases
nothing. -/
theorem run_whole (h : t.Erasable index part offset length area p unit)
    (adapts : NorFlash.Adapts driver readSize area.device answer)
    (works : NorFlash.CarriesOut driver content area.device
      (NorFlash.WholeErase unit.toNat area.base.toNat area.stop))
    (whole : length = addressSpace) (s : σ) :
    ∃ s', (t.erase index part offset length).run.run answer s = (.ok (), s') ∧
      content s' = content s := by
  obtain ⟨base, run⟩ := h.run_nothing adapts whole
  rw [base] at works
  obtain ⟨s', succeeded, kept⟩ := works.run_erase_nothing s
  exact ⟨s', (congrFun run s).trans succeeded, kept⟩

/-- An erase by a driver that works is done, or is refused, or is that of the whole address space. -/
theorem run_cases (h : t.Erasable index part offset length area p unit)
    (adapts : NorFlash.Adapts driver readSize area.device answer)
    (works : NorFlash.CarriesOut driver content area.device
      (NorFlash.WholeErase unit.toNat area.base.toNat area.stop)) (s : σ) :
    let first := area.base.toNat + p.offset.toNat + offset
    let result := (t.erase index part offset length).run.run answer s
    (first + length < addressSpace ∧
        ∃ s', result = (.ok (), s') ∧ content s' = (content s).reset area.device first length) ∨
      (first + length = addressSpace ∧ 0 < first ∧ result = (.error .invalidArgument, s)) ∨
        first = 0 ∧ length = addressSpace ∧
          ∃ s', result = (.ok (), s') ∧ content s' = content s := by
  intro first result
  have end_le : first + length ≤ addressSpace := Nat.le_trans h.end_le h.addressable
  rcases Nat.lt_or_eq_of_le end_le with below | top
  · exact .inl ⟨below, h.run_done adapts works below s⟩
  · rcases Nat.eq_zero_or_pos first with zero | pos
    · have whole : length = addressSpace := by omega
      exact .inr (.inr ⟨zero, whole, h.run_whole adapts works whole s⟩)
    · exact .inr (.inl ⟨top, pos, h.run_refused adapts top pos s⟩)

end Erasable

/-- An erase that stops before an address reaches the driver as it is. One that ends with the
address space is refused, but for one of the whole address space: that is reported as done and
changes nothing. So a driver that works has erased the range exactly where it stops before an
address, or where it has been erased already. -/
theorem erase_done_iff (h : t.Erasable index part offset length area p unit)
    (adapts : NorFlash.Adapts driver readSize area.device answer)
    (works : NorFlash.CarriesOut driver content area.device
      (NorFlash.WholeErase unit.toNat area.base.toNat area.stop)) (s : σ) :
    let first := area.base.toNat + p.offset.toNat + offset
    let result := (t.erase index part offset length).run.run answer s
    (first + length < addressSpace → ∃ start stop : UInt32, start.toNat = first ∧
        stop.toNat = first + length ∧
        result = (NorFlash.call (.erase start stop)).run.run driver s) ∧
      (first + length = addressSpace → 0 < first → result = (.error .invalidArgument, s)) ∧
      (length = addressSpace → result = (NorFlash.call (.erase 0 0)).run.run driver s ∧
        result.1 = .ok () ∧ content result.2 = content s) ∧
      ((result.1 = .ok () ∧
          content result.2 = (content s).reset area.device first length) ↔
        first + length < addressSpace ∨
          length = addressSpace ∧ content s = (content s).reset area.device 0 addressSpace) := by
  intro first result
  refine ⟨fun below => ?_, fun top pos => h.run_refused adapts top pos s, fun whole => ?_, ?_⟩
  · obtain ⟨start, stop, exact_start, exact_stop, run⟩ := h.run_exact adapts below
    exact ⟨start, stop, exact_start, exact_stop, congrFun run s⟩
  · refine ⟨congrFun (h.run_nothing adapts whole).2 s, ?_⟩
    obtain ⟨s', succeeded, kept⟩ := h.run_whole adapts works whole s
    rw [show result = (.ok (), s') from succeeded]
    exact ⟨rfl, kept⟩
  · -- done as asked, refused, or reported as done without a change
    rcases h.run_cases adapts works s with
      ⟨below, s', run, after⟩ | ⟨top, pos, run⟩ | ⟨zero, whole, s', run, kept⟩
    · rw [show result = (.ok (), s') from run]
      exact iff_of_true ⟨rfl, after⟩ (.inl below)
    · rw [show result = (.error .invalidArgument, s) from run]
      refine iff_of_false nofun ?_
      rintro (below | ⟨whole, -⟩) <;> omega
    · rw [show result = (.ok (), s') from run, kept, show first = 0 from zero, whole]
      simp

end Driver

/-- Flashes that read single bytes and reject nothing. -/
def flashes : Devices := fun _ => .nor 1 fun _ => none

theorem adapts_flashes (device : DeviceId) :
    NorFlash.Adapts (NorFlash.drive device fun _ => none) 1 device flashes.answer :=
  fun _ => rfl

/-- The area of the table that ends with the address space. -/
def summitArea : Area where
  name := "summit"
  device := ⟨0⟩
  base := 0xFFFFE000
  size := 8192
  partitions := [⟨0, 4096⟩, ⟨4096, 4096⟩]

theorem erasable_summit {n : Nat} {p : Partition} (entry : summitArea.partitions[n]? = some p)
    (size : p.size.toNat = 4096) (aligned : 4096 ∣ p.offset.toNat) :
    summit.Erasable 0 (n + 1) 0 4096 summitArea p 4096 where
  known := .part rfl entry
  device := ⟨_, rfl, rfl⟩
  addressable := by decide
  inside := by decide
  nonempty := by decide
  within := by omega
  start_aligned := Nat.dvd_add (Nat.dvd_add (by decide) aligned) (Nat.dvd_zero _)
  length_aligned := by decide

/-- The last but one page of the address space is erased. -/
theorem erase_done_iff_summit :
    summit.Erasable 0 1 0 4096 summitArea ⟨0, 4096⟩ 4096 ∧
      NorFlash.Adapts (NorFlash.drive ⟨0⟩ fun _ => none) 1 ⟨0⟩ flashes.answer ∧
      NorFlash.CarriesOut (NorFlash.drive ⟨0⟩ fun _ => none) id ⟨0⟩
        (NorFlash.WholeErase 4096 0xFFFFE000 addressSpace) ∧
      ((summit.erase 0 1 0 4096).run.run flashes.answer fun _ _ => 0).1 = .ok () ∧
      ((summit.erase 0 1 0 4096).run.run flashes.answer fun _ _ => 0).2 =
        Medium.reset (fun _ _ => 0) ⟨0⟩ 0xFFFFE000 4096 := by
  have h := @erasable_summit 0 ⟨0, 4096⟩ rfl rfl (by decide)
  have adapts := adapts_flashes ⟨0⟩
  have works := NorFlash.carriesOut_drive ⟨0⟩ (NorFlash.WholeErase 4096 0xFFFFE000 addressSpace)
  exact ⟨h, adapts, works,
    (erase_done_iff h adapts works fun _ _ => 0).2.2.2.2 (.inl (by decide))⟩

/-- An area that is the whole address space. -/
def expanseArea : Area where
  name := "expanse"
  device := ⟨0⟩
  base := 0
  size := 0x100000000
  partitions := []

def expanse : Table where
  devices := #[⟨some 1, some 4096⟩]
  areas := #[expanseArea]
  device_lt := by simp [expanseArea]

/-- The last page of the address space is not erased, although its partition is known and aligned.
The whole address space is not erased either, although that is reported. -/
theorem erase_misses_end :
    summit.Erasable 0 2 0 4096 summitArea ⟨4096, 4096⟩ 4096 ∧
      ((summit.erase 0 2 0 4096).run.run flashes.answer fun _ _ => 0) =
        (.error .invalidArgument, fun _ _ => 0) ∧
      expanse.Erasable 0 0 0 addressSpace expanseArea ⟨0, 0x100000000⟩ 4096 ∧
      ((expanse.erase 0 0 0 addressSpace).run.run flashes.answer fun _ _ => 0) =
        (.ok (), fun _ _ => 0) := by
  have h := @erasable_summit 1 ⟨4096, 4096⟩ rfl rfl (by decide)
  have whole : expanse.Erasable 0 0 0 addressSpace expanseArea ⟨0, 0x100000000⟩ 4096 := {
    known := .whole rfl
    device := ⟨_, rfl, rfl⟩
    addressable := by decide
    inside := by decide
    nonempty := by decide
    within := by decide
    start_aligned := by decide
    length_aligned := by decide }
  have works := NorFlash.carriesOut_drive ⟨0⟩ (NorFlash.WholeErase 4096 0 0x100000000)
  obtain ⟨s', reported, kept⟩ :=
    whole.run_whole (adapts_flashes ⟨0⟩) works rfl fun _ _ => 0
  refine ⟨h, h.run_refused (adapts_flashes ⟨0⟩) (by decide) (by decide) _, whole, ?_⟩
  rw [reported, show s' = _ from kept]
  rfl

end Table

end TwinLog
