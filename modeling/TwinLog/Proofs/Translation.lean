-- SUMMARY: Address translation: an access to a partition is one call of a device, or an error before it.
import TwinLog.Proofs.Volume
import TwinLog.Table

/-! # Address translation

A table turns an access to a part of a partition into one call of the device that the area lies
on. `Table.Translated` gives the rules by which it does so, with the order in which an access is
turned down. They hold of every access to a table whose areas lie in the address space
(`Table.transfer_translated`). -/

namespace TwinLog

/-! ## Accesses -/

inductive Transfer where
  | read (length : Nat)
  | write (bytes : List UInt8)
  | erase (length : Nat)

namespace Transfer

def length : Transfer → Nat
  | .read length => length
  | .write bytes => bytes.length
  | .erase length => length

@[reducible] def Data : Transfer → Type
  | .read length => Bytes length
  | .write _ => Unit
  | .erase _ => Unit

/-- The granularity of an access, none where the device lacks it. Reads have none but bytes. -/
def unit? (g : Geometry) : Transfer → Option UInt64
  | .read _ => some 1
  | .write _ => g.writeSize
  | .erase _ => g.eraseSize

/-- The one call of a device that an access is, whose result is returned. -/
def send (device : DeviceId) (address : UInt32) : (x : Transfer) → Access x.Data
  | .read length => device.perform (.read address length)
  | .write bytes => device.perform (.write address bytes)
  | .erase length => device.perform (.erase address length)

end Transfer

def Volume.transfer (v : Volume) (offset : Nat) : (x : Transfer) → Access x.Data
  | .read length => v.read offset length
  | .write bytes => v.write offset bytes
  | .erase length => v.erase offset length

def Table.transfer (t : Table) (index part offset : Nat) : (x : Transfer) → Access x.Data
  | .read length => t.read index part offset length
  | .write bytes => t.write index part offset bytes
  | .erase length => t.erase index part offset length

/-! ## Partitions of a table -/

namespace Table

/-- Every area ends within the address space, and all its partitions within the area. -/
structure Mapped (t : Table) : Prop where
  addressable : ∀ area ∈ t.areas, area.base.toNat + area.size.toNat ≤ addressSpace
  inside : ∀ area ∈ t.areas, ∀ p ∈ area.partitions,
    p.offset.toNat + p.size.toNat ≤ area.size.toNat

/-- The table knows a partition of an area. Partition zero is the area. -/
inductive Knows (t : Table) (index : Nat) : Nat → Area → Partition → Prop where
  | whole {area : Area} (found : t.areas[index]? = some area) :
      Knows t index 0 area ⟨0, area.size⟩
  | part {area : Area} (found : t.areas[index]? = some area) {n : Nat} {p : Partition}
      (entry : area.partitions[n]? = some p) : Knows t index (n + 1) area p

/-- What becomes of an access to a partition, by rules of which exactly one applies. -/
inductive Translated (t : Table) (index part offset : Nat) (x : Transfer) : Access x.Data → Prop
  | unknown (unknown : ∀ area p, ¬t.Knows index part area p) :
      Translated t index part offset x (throw .invalidArgument)
  | past {area : Area} {p : Partition} (known : t.Knows index part area p)
      (past : p.size.toNat < offset + x.length) :
      Translated t index part offset x (throw .invalidArgument)
  | lacking {area : Area} {p : Partition} {g : Geometry} (known : t.Knows index part area p)
      (inside : offset + x.length ≤ p.size.toNat)
      (device : t.devices[area.device.index]? = some g) (lacking : x.unit? g = none) :
      Translated t index part offset x (throw .notSupported)
  | misaligned {area : Area} {p : Partition} {g : Geometry} {unit : UInt64}
      (known : t.Knows index part area p) (inside : offset + x.length ≤ p.size.toNat)
      (device : t.devices[area.device.index]? = some g) (granular : x.unit? g = some unit)
      (misaligned : ¬(unit.toNat ∣ area.base.toNat + p.offset.toNat + offset ∧
        unit.toNat ∣ x.length)) :
      Translated t index part offset x (throw .invalidArgument)
  | sent {area : Area} {p : Partition} {g : Geometry} {unit : UInt64} {address : UInt32}
      (known : t.Knows index part area p) (inside : offset + x.length ≤ p.size.toNat)
      (device : t.devices[area.device.index]? = some g) (granular : x.unit? g = some unit)
      (aligned : unit.toNat ∣ area.base.toNat + p.offset.toNat + offset ∧
        unit.toNat ∣ x.length)
      (exact : address.toNat = area.base.toNat + p.offset.toNat + offset)
      (below : address.toNat + x.length ≤ addressSpace) :
      Translated t index part offset x (x.send area.device address)

variable {t : Table} {index part : Nat} {area : Area} {p : Partition}

theorem Knows.area_eq (known : t.Knows index part area p) : t.areas[index]? = some area := by
  cases known with
  | whole found => exact found
  | part found _ => exact found

theorem Knows.partition_eq (known : t.Knows index part area p) : area.partition part = .ok p := by
  cases known with
  | whole => rfl
  | part _ entry => simp only [Area.partition, entry]

/-- A partition that is known ends within the address space. -/
theorem Mapped.end_le (mapped : t.Mapped) (known : t.Knows index part area p) :
    area.base.toNat + p.offset.toNat + p.size.toNat ≤ addressSpace := by
  have mem := Array.mem_of_getElem? known.area_eq
  have whole := mapped.addressable area mem
  cases known with
  | whole => simpa using whole
  | part _ entry =>
    have inside := mapped.inside area mem p (List.mem_of_getElem? entry)
    omega

/-- The volume of a partition that is known. -/
theorem volume_of_knows (known : t.Knows index part area p) :
    ∃ g, t.devices[area.device.index]? = some g ∧
      t.volume index part =
        .ok ⟨area.device, g, area.base.toNat + p.offset.toNat, p.size.toNat⟩ := by
  obtain ⟨lt, rfl⟩ := Array.getElem?_eq_some_iff.1 known.area_eq
  have device := t.device_lt t.areas[index] (Array.getElem_mem lt)
  refine ⟨t.devices[t.areas[index].device.index], Array.getElem?_eq_getElem device, ?_⟩
  unfold volume Table.area geometry
  rw [known.area_eq, dif_pos lt]
  simp only [bind, Except.bind, known.partition_eq]
  rfl

/-- A partition that is not known does not resolve. -/
theorem volume_of_unknown (unknown : ∀ area p, ¬t.Knows index part area p) :
    t.volume index part = .error .invalidArgument := by
  unfold volume Table.area geometry
  cases found : t.areas[index]? with
  | none => rfl
  | some area =>
    obtain ⟨lt, -⟩ := Array.getElem?_eq_some_iff.1 found
    rw [dif_pos lt]
    cases part with
    | zero => exact absurd (.whole found) (unknown area _)
    | succ n =>
      cases entry : area.partitions[n]? with
      | none => simp only [bind, Except.bind, Area.partition, entry]
      | some p => exact absurd (.part found entry) (unknown area p)

/-- A partition that does not resolve is an invalid argument. -/
theorem volume_error {e : Error} (h : t.volume index part = .error e) : e = .invalidArgument := by
  by_cases known : ∃ area p, t.Knows index part area p
  · obtain ⟨area, p, known⟩ := known
    obtain ⟨g, -, found⟩ := volume_of_knows known
    rw [found] at h
    cases h
  · rw [volume_of_unknown fun area p knows => known ⟨area, p, knows⟩] at h
    cases h
    rfl

/-- The area of a volume is known. -/
theorem area_of_volume {v : Volume} (found : t.volume index part = .ok v) :
    ∃ area, t.area index = .ok area := by
  unfold volume at found
  cases known : t.area index with
  | error e =>
    rw [known] at found
    cases found
  | ok area => exact ⟨area, rfl⟩

/-- A partition that resolves to a volume is known. -/
theorem knows_of_volume {v : Volume} (found : t.volume index part = .ok v) :
    ∃ area p, t.Knows index part area p ∧ v.device = area.device ∧
      v.start = area.base.toNat + p.offset.toNat ∧ v.size = p.size.toNat := by
  by_cases known : ∃ area p, t.Knows index part area p
  · obtain ⟨area, p, known⟩ := known
    obtain ⟨g, -, volume⟩ := volume_of_knows known
    rw [volume] at found
    cases found
    exact ⟨area, p, known, rfl, rfl, rfl⟩
  · rw [volume_of_unknown fun area p h => known ⟨area, p, h⟩] at found
    cases found

/-- The volumes of a table end within the address space. -/
theorem Mapped.volume_end_le (mapped : t.Mapped) {v : Volume} (found : t.volume index part = .ok v) :
    v.start + v.size ≤ addressSpace := by
  obtain ⟨area, p, known, -, start, size⟩ := knows_of_volume found
  rw [start, size]
  exact mapped.end_le known

end Table

/-! ## Translation -/

namespace Volume

variable {v : Volume} {offset length : Nat}

/-- Bytes are aligned anywhere. -/
theorem locateAligned_one (v : Volume) (offset length : Nat) :
    v.locateAligned (some 1) offset length = v.locate offset length := by
  unfold locateAligned
  cases v.locate offset length with
  | error e => rfl
  | ok address => exact if_pos ⟨Nat.mod_one _, Nat.mod_one _⟩

/-- An access past the end is not located, whatever the granularity. -/
theorem locateAligned_past (past : v.size < offset + length) (granularity : Option UInt64) :
    v.locateAligned granularity offset length = .error .invalidArgument := by
  have outside : v.locate offset length = .error .invalidArgument :=
    if_neg fun inside => Nat.not_le.2 past inside.1
  unfold locateAligned
  rw [outside]
  rfl

/-- An access within the volume that is not aligned is not located. -/
theorem locateAligned_misaligned {unit : UInt64} (addressable : v.start + v.size ≤ addressSpace)
    (start : offset < v.size) (inside : offset + length ≤ v.size)
    (misaligned : ¬(unit.toNat ∣ v.start + offset ∧ unit.toNat ∣ length)) :
    v.locateAligned (some unit) offset length = .error .invalidArgument := by
  unfold locateAligned
  rw [locate_eq_ok addressable start inside]
  refine if_neg fun aligned => misaligned ?_
  rw [toNat_address addressable start] at aligned
  exact ⟨Nat.dvd_of_mod_eq_zero aligned.1, Nat.dvd_of_mod_eq_zero aligned.2⟩

/-- An access to a volume is located and sent. -/
theorem transfer_eq (v : Volume) (offset : Nat) (x : Transfer) :
    v.transfer offset x = (do
      let address ← v.locateAligned (x.unit? v.geometry) offset x.length
      x.send v.device address) := by
  cases x with
  | read length =>
    show v.read offset length = (do
      let address ← v.locateAligned (some 1) offset length
      v.device.perform (.read address length))
    rw [locateAligned_one]
    rfl
  | write bytes => rfl
  | erase length => rfl

end Volume

namespace Table

/-- An access to a partition is one to its volume. -/
theorem transfer_eq (t : Table) (index part offset : Nat) (x : Transfer) :
    t.transfer index part offset x = (do
      let v ← t.volume index part
      v.transfer offset x) := by
  cases x <;> rfl

section Rules

variable {t : Table} {index part offset : Nat} {x : Transfer}

/-- A volume gets the access to its partition. -/
theorem transfer_of_volume {v : Volume} (volume : t.volume index part = .ok v) :
    t.transfer index part offset x = v.transfer offset x := by
  rw [transfer_eq, volume]
  rfl

/-- An access is what a rule says that it becomes. -/
theorem Translated.transfer_eq (mapped : t.Mapped) (pos : 0 < x.length) {access : Access x.Data}
    (translated : t.Translated index part offset x access) :
    t.transfer index part offset x = access := by
  cases translated with
  | unknown unknown =>
    rw [Table.transfer_eq, volume_of_unknown unknown]
    rfl
  | past known past =>
    obtain ⟨g, -, volume⟩ := volume_of_knows known
    rw [transfer_of_volume volume, Volume.transfer_eq, Volume.locateAligned_past past]
    rfl
  | lacking known inside device lacking =>
    obtain ⟨g, found, volume⟩ := volume_of_knows known
    obtain rfl := Option.some.inj (device.symm.trans found)
    rw [transfer_of_volume volume, Volume.transfer_eq, lacking,
      Volume.locateAligned_none (mapped.end_le known) (Nat.lt_of_lt_of_le (by omega) inside) inside]
    rfl
  | misaligned known inside device granular misaligned =>
    obtain ⟨g, found, volume⟩ := volume_of_knows known
    obtain rfl := Option.some.inj (device.symm.trans found)
    rw [transfer_of_volume volume, Volume.transfer_eq, granular, Volume.locateAligned_misaligned
      (mapped.end_le known) (Nat.lt_of_lt_of_le (by omega) inside) inside misaligned]
    rfl
  | @sent area p g unit address known inside device granular aligned exact below =>
    obtain ⟨g, found, volume⟩ := volume_of_knows known
    obtain rfl := Option.some.inj (device.symm.trans found)
    have start : offset < p.size.toNat := by omega
    have same : (area.base.toNat + p.offset.toNat + offset).toUInt32 = address := by
      rw [← exact]
      exact UInt32.ofNat_toNat
    rw [transfer_of_volume volume, Volume.transfer_eq, granular, Volume.locateAligned_eq_ok
      (mapped.end_le known) start inside (Nat.mod_eq_zero_of_dvd aligned.1)
      (Nat.mod_eq_zero_of_dvd aligned.2), same]
    rfl

/-- Some rule applies to every access. -/
theorem exists_translated (mapped : t.Mapped) (pos : 0 < x.length) :
    ∃ access, t.Translated index part offset x access := by
  by_cases known : ∃ area p, t.Knows index part area p
  · obtain ⟨area, p, known⟩ := known
    obtain ⟨g, device, -⟩ := volume_of_knows known
    have below := mapped.end_le known
    by_cases inside : offset + x.length ≤ p.size.toNat
    · cases granular : x.unit? g with
      | none => exact ⟨_, .lacking known inside device granular⟩
      | some unit =>
        by_cases aligned : unit.toNat ∣ area.base.toNat + p.offset.toNat + offset ∧
            unit.toNat ∣ x.length
        · have exact : (area.base.toNat + p.offset.toNat + offset).toUInt32.toNat =
              area.base.toNat + p.offset.toNat + offset :=
            UInt32.toNat_ofNat_of_lt' (Nat.lt_of_lt_of_le (by omega) below)
          exact ⟨_, .sent known inside device granular aligned exact (by omega)⟩
        · exact ⟨_, .misaligned known inside device granular aligned⟩
    · exact ⟨_, .past known (Nat.lt_of_not_le inside)⟩
  · exact ⟨_, .unknown fun area p h => known ⟨area, p, h⟩⟩

/-- The rules say what becomes of every access to a table. -/
theorem transfer_translated (mapped : t.Mapped) (index part offset : Nat) (x : Transfer)
    (pos : 0 < x.length) (access : Access x.Data) :
    t.Translated index part offset x access ↔ t.transfer index part offset x = access := by
  refine ⟨fun translated => translated.transfer_eq mapped pos, fun same => ?_⟩
  obtain ⟨other, translated⟩ := exists_translated mapped pos
  rw [← same, translated.transfer_eq mapped pos]
  exact translated

end Rules

/-- A table with one area, which ends with the address space. -/
def summit : Table where
  devices := #[⟨some 4, some 4096⟩]
  areas := #[{
    name := "summit"
    device := ⟨0⟩
    base := 0xFFFFE000
    size := 8192
    partitions := [⟨0, 4096⟩, ⟨4096, 4096⟩]
  }]
  device_lt := by simp

/-- The last word of the address space is written. -/
theorem transfer_translated_summit :
    summit.Mapped ∧ 0 < (Transfer.write [1, 2, 3, 4]).length ∧
      summit.Translated 0 2 4092 (.write [1, 2, 3, 4])
        ((⟨0⟩ : DeviceId).perform (.write 0xFFFFFFFC [1, 2, 3, 4])) := by
  have mapped : summit.Mapped := ⟨by decide, by decide⟩
  exact ⟨mapped, by decide,
    (transfer_translated mapped 0 2 4092 (.write [1, 2, 3, 4]) (by decide) _).2 rfl⟩

end Table

end TwinLog
