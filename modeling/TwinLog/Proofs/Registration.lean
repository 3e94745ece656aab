-- SUMMARY: Which areas a table takes, and what is known of the areas that it has taken.
import TwinLog.Proofs.Translation

/-! # Registration of areas

An area should be taken if its device is known and usable, if it ends within the address space and
if its partitions end within the area (`Table.Admits`). The end of an area is a checked sum of
64-bit words, though, so a registration whose area ends behind them stops the program. Those
registrations are the only exception (`Table.admission_iff`), and the areas of every table that
registrations lead to are addressable. -/

namespace TwinLog

/-! ## Areas -/

namespace Area

/-- The address behind the last byte, in exact arithmetic. -/
def stop (area : Area) : Nat :=
  area.base.toNat + area.size.toNat

/-- Every partition ends within the area. -/
def Encloses (area : Area) : Prop :=
  ∀ p ∈ area.partitions, p.offset.toNat + p.size.toNat ≤ area.size.toNat

instance (area : Area) : Decidable area.Encloses :=
  inferInstanceAs (Decidable (∀ p ∈ area.partitions, _))

theorem stop?_eq_none {area : Area} (overflows : UInt64.size ≤ area.stop) : area.stop? = none :=
  if_neg (Nat.not_lt.2 overflows)

/-- The sum is exact where it is a word. -/
theorem stop?_eq_some {area : Area} (word : area.stop < UInt64.size) :
    ∃ stop : UInt64, area.stop? = some stop ∧ stop.toNat = area.stop := by
  refine ⟨area.base.toUInt64 + area.size, if_pos word, ?_⟩
  rw [UInt64.toNat_add, UInt32.toNat_toUInt64]
  exact Nat.mod_eq_of_lt word

theorem all_fits_iff (area : Area) :
    (area.partitions.all fun p => p.fits area.size) = true ↔ area.Encloses := by
  rw [List.all_eq_true]
  exact forall₂_congr fun p _ => decide_eq_true_iff

end Area

theorem Geometry.usable_iff (g : Geometry) :
    g.usable = true ↔ g.writeSize ≠ some 0 ∧ g.eraseSize ≠ some 0 := by
  simp [usable]

namespace Table

variable {t t' : Table} {area : Area}

/-! ## Admission -/

/-- The device of the area is known, and no granularity of it is zero. -/
def Carries (t : Table) (area : Area) : Prop :=
  ∃ g, t.devices[area.device.index]? = some g ∧ g.writeSize ≠ some 0 ∧ g.eraseSize ≠ some 0

/-- The area should be taken. -/
structure Admits (t : Table) (area : Area) : Prop where
  device : t.Carries area
  addressable : area.stop ≤ addressSpace
  inside : area.Encloses

/-- The end of the area is looked at, and is no word. -/
def Overflows (t : Table) (area : Area) : Prop :=
  t.Carries area ∧ UInt64.size ≤ area.stop

/-- Registers an area. A table that refuses it stays as it is. There is no result if the program
stops. -/
def offer (t : Table) (area : Area) : Option (Except Error Nat × Table) :=
  (t.addArea area).map fun
    | .ok (index, t') => (.ok index, t')
    | .error e => (.error e, t)

/-- What should become of an area that is registered. -/
inductive Admission (t : Table) (area : Area) : Except Error Nat × Table → Prop where
  | taken {t' : Table} (admits : t.Admits area) (areas : t'.areas = t.areas.push area)
      (devices : t'.devices = t.devices) : Admission t area (.ok t.areas.size, t')
  | refused (refuses : ¬t.Admits area) : Admission t area (.error .invalidArgument, t)

theorem Admits.not_overflows (admits : t.Admits area) : ¬t.Overflows area := by
  intro overflows
  exact absurd (Nat.le_trans overflows.2 admits.addressable) (by decide)

/-- An area whose device is unknown or unusable is refused before its end is computed. -/
theorem addArea_of_not_carries (unfit : ¬t.Carries area) :
    t.addArea area = some (.error .invalidArgument) := by
  unfold addArea
  split
  · rename_i known
    refine if_neg fun usable => unfit ⟨_, Array.getElem?_eq_getElem known, ?_⟩
    exact (Geometry.usable_iff _).1 usable
  · rfl

/-- Behind the check of the device, the end of the area decides, and then its partitions. -/
theorem addArea_of_carries (carries : t.Carries area) :
    ∃ taken, taken.areas = t.areas.push area ∧ taken.devices = t.devices ∧
      t.addArea area = area.stop?.map fun stop =>
        if stop ≤ addressSpace.toUInt64 && area.partitions.all fun p => p.fits area.size then
          .ok (t.areas.size, taken)
        else .error .invalidArgument := by
  obtain ⟨g, found, usable⟩ := carries
  obtain ⟨known, rfl⟩ := Array.getElem?_eq_some_iff.1 found
  unfold addArea
  rw [dif_pos known, if_pos ((Geometry.usable_iff _).2 usable)]
  refine ⟨_, ?areas, ?devices, rfl⟩
  case areas => rfl
  case devices => rfl

/-- An area is appended, or refused with the table as it was, or the program stops. -/
theorem offer_cases (t : Table) (area : Area) :
    (t.Admits area ∧ ∃ t', t.offer area = some (.ok t.areas.size, t') ∧
        t'.areas = t.areas.push area ∧ t'.devices = t.devices) ∨
      (¬t.Admits area ∧ ¬t.Overflows area ∧
        t.offer area = some (.error .invalidArgument, t)) ∨
      t.Overflows area ∧ t.offer area = none := by
  unfold offer
  by_cases carries : t.Carries area
  · obtain ⟨taken, areas, devices, added⟩ := addArea_of_carries carries
    rw [added]
    -- the sum comes before the partitions, so an overflow stops the program whatever they are
    rcases Nat.lt_or_ge area.stop UInt64.size with word | wraps
    · obtain ⟨stop, sum, exact⟩ := Area.stop?_eq_some word
      have limit : stop ≤ addressSpace.toUInt64 ↔ area.stop ≤ addressSpace := by
        rw [UInt64.le_iff_toNat_le, exact]
        rfl
      have check : (stop ≤ addressSpace.toUInt64 && area.partitions.all fun p => p.fits area.size) =
          true ↔ area.stop ≤ addressSpace ∧ area.Encloses := by
        rw [Bool.and_eq_true, decide_eq_true_iff, limit, Area.all_fits_iff]
      rw [sum, Option.map_some, Option.map_some]
      by_cases fits : area.stop ≤ addressSpace ∧ area.Encloses
      · rw [if_pos (check.2 fits)]
        exact .inl ⟨⟨carries, fits.1, fits.2⟩, taken, rfl, areas, devices⟩
      · rw [if_neg (mt check.1 fits)]
        refine .inr (.inl ⟨fun admits => fits ⟨admits.addressable, admits.inside⟩, ?_, rfl⟩)
        exact fun overflows => absurd overflows.2 (Nat.not_le.2 word)
    · rw [Area.stop?_eq_none wraps]
      exact .inr (.inr ⟨⟨carries, wraps⟩, rfl⟩)
  · rw [addArea_of_not_carries carries]
    exact .inr (.inl ⟨fun admits => carries admits.device,
      fun overflows => carries overflows.1, rfl⟩)

theorem offer_eq_none_iff (t : Table) (area : Area) :
    t.offer area = none ↔ t.Overflows area := by
  rcases t.offer_cases area with ⟨admits, t', taken, -⟩ | ⟨-, proper, refused⟩ |
    ⟨overflows, stops⟩
  · rw [taken]
    exact iff_of_false nofun admits.not_overflows
  · rw [refused]
    exact iff_of_false nofun proper
  · exact iff_of_true stops overflows

/-- A registration that does not stop the program goes as it should. -/
theorem admission_of_offer {outcome : Except Error Nat × Table}
    (ended : t.offer area = some outcome) : t.Admission area outcome := by
  rcases t.offer_cases area with ⟨admits, t', taken, areas, devices⟩ | ⟨refuses, -, refused⟩ |
    ⟨-, stops⟩
  · cases ended.symm.trans taken
    exact .taken admits areas devices
  · cases ended.symm.trans refused
    exact .refused refuses
  · cases ended.symm.trans stops

/-! ## Runs of registrations -/

inductive Registration where
  | device (geometry : Geometry)
  /-- A device that is known reports another geometry. -/
  | geometry (device : DeviceId) (geometry : Geometry)
  | area (area : Area)

/-- The table after a change, if the program goes on. -/
def register (t : Table) : Registration → Option Table
  | .device geometry => some (t.addDevice geometry).2
  | .geometry device geometry => some (t.setGeometry device geometry)
  | .area area => (t.offer area).map Prod.snd

/-- The table after changes to the empty one, the latest first. -/
def registered : List Registration → Option Table
  | [] => some empty
  | change :: earlier => (registered earlier).bind fun t => t.register change

/-- A change leaves areas of a table that end within the address space where they are, and adds no
other ones. -/
theorem mapped_register (mapped : t.Mapped) {change : Registration}
    (ended : t.register change = some t') : t'.Mapped := by
  cases change with
  | device =>
    cases ended
    exact ⟨mapped.addressable, mapped.inside⟩
  | geometry =>
    cases ended
    exact ⟨mapped.addressable, mapped.inside⟩
  | area area =>
    obtain ⟨outcome, offered, rfl⟩ := Option.map_eq_some_iff.1 ended
    cases admission_of_offer offered with
    | refused => exact mapped
    | taken admits areas =>
      refine ⟨fun other mem => ?_, fun other mem => ?_⟩
      · rw [areas, Array.mem_push] at mem
        rcases mem with old | rfl
        · exact mapped.addressable other old
        · exact admits.addressable
      · rw [areas, Array.mem_push] at mem
        rcases mem with old | rfl
        · exact mapped.inside other old
        · exact admits.inside

theorem mapped_registered {changes : List Registration}
    (ended : registered changes = some t) : t.Mapped := by
  induction changes generalizing t with
  | nil =>
    cases ended
    exact ⟨by simp [empty], by simp [empty]⟩
  | cons change earlier ih =>
    obtain ⟨before, run, last⟩ := Option.bind_eq_some_iff.1 ended
    exact mapped_register (ih run) last

/-- An area is appended if it should be taken and refused otherwise, unless its end overflows, which
stops the program. The areas of every table that registrations lead to end within the address space,
with their partitions inside. -/
theorem admission_iff (t : Table) (area : Area) (changes : List Registration) :
    ((∃ outcome, t.offer area = some outcome ∧ t.Admission area outcome) ↔ ¬t.Overflows area) ∧
      (t.offer area = none ↔ t.Overflows area) ∧
      ∀ t', registered changes = some t' → t'.Mapped := by
  refine ⟨?_, t.offer_eq_none_iff area, fun t' => mapped_registered⟩
  rw [← offer_eq_none_iff, ← ne_eq, Option.ne_none_iff_exists']
  exact exists_congr fun outcome => and_iff_left_of_imp admission_of_offer

/-- An area that ends with the address space is taken, and one that ends a byte behind it refused. -/
theorem admission_iff_end :
    let device := Registration.device ⟨some 1, some 1⟩
    let last : Area := ⟨"last", ⟨0⟩, 0xFFFFFFFC, 4, [⟨0, 2⟩, ⟨2, 2⟩]⟩
    let past : Area := ⟨"past", ⟨0⟩, 0xFFFFFFFC, 5, []⟩
    ∃ t, registered [.area past, .area last, device] = some t ∧ t.areas.toList = [last] ∧
      t.Mapped ∧ (∃ outcome, t.offer past = some outcome ∧ t.Admission past outcome) ∧
      t.offer past ≠ none := by
  intro device last past
  obtain ⟨t, run⟩ : ∃ t, registered [.area past, .area last, device] = some t := ⟨_, rfl⟩
  obtain ⟨proper, stops, mapped⟩ := admission_iff t past [.area past, .area last, device]
  have word : ¬t.Overflows past := fun overflows => absurd overflows.2 (by decide)
  refine ⟨t, run, ?_, mapped t run, proper.2 word, fun stopped => word (stops.1 stopped)⟩
  cases run
  rfl

/-- An area of all but one byte of 64-bit words, which starts at address one. -/
def beyond : Area where
  name := "beyond"
  device := ⟨0⟩
  base := 1
  size := 0xFFFFFFFFFFFFFFFF
  partitions := []

/-- An area that ends behind all words is not refused: the program stops. -/
theorem stops_beyond :
    ∃ t, registered [.device ⟨some 1, some 1⟩] = some t ∧ ¬t.Admits beyond ∧
      t.offer beyond = none ∧
      ¬∃ outcome, t.offer beyond = some outcome ∧ t.Admission beyond outcome := by
  refine ⟨_, rfl, fun admits => ?_, rfl, ?_⟩
  · exact absurd admits.addressable (by decide)
  · rintro ⟨outcome, ended, -⟩
    cases ended

end Table

end TwinLog
