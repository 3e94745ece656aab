-- SUMMARY: Storages in separate partitions do not interfere, however their calls are interleaved.
import Mathlib.Logic.Function.Basic
import TwinLog.Proofs.Confinement
import TwinLog.Proofs.Schedule

/-! # Noninterference

Several storages work on the devices of one table, and their calls come in any order. If no byte
belongs to partitions of two of them, each sees what it would see alone: its results, what it
reports of itself, and the bytes of its partitions (`Fleet.run_isolated`). -/

namespace TwinLog

/-! ## Calls -/

inductive Result where
  | loaded (result : Except Error Settings)
  | saved (result : Except Error Unit)

namespace Storage

def call (s : Storage) (table : Table) : Call → Script Bus (Result × Storage)
  | .load => do
    let (result, s) ← s.load table
    return (.loaded result, s)
  | .save settings => do
    let (result, s) ← s.save table settings
    return (.saved result, s)

/-- What the partitions of the storage hold. -/
def bytes (s : Storage) (table : Table) (m : Medium) : Sides (Except Error (List UInt8)) where
  a := (s.site.volume table .a).map (·.content m)
  b := (s.site.volume table .b).map (·.content m)

variable {table : Table} (s : Storage)

theorem confined_call (mapped : table.Mapped) (c : Call) :
    (s.call table c).Only (Request.Within (s.site.region table)) := by
  cases c with
  | load => exact .bind (confined_load mapped s) fun _ => .done _
  | save settings => exact .bind (confined_save mapped s settings) fun _ => .done _

theorem site_load : (s.load table).Ends fun result => result.2.site = s.site := by
  refine .bind (.all _) fun mounted _ => ?_
  cases mounted <;> rfl

theorem site_save (settings : Settings) :
    (s.save table settings).Ends fun result => result.2.site = s.site := by
  refine .bind (.all _) fun mounted _ => ?_
  cases mounted with
  | error e => rfl
  | ok session => exact .bind (.all _) fun _ _ => rfl

/-- A storage stays where it is. -/
theorem site_call (table : Table) (devices : Devices) (c : Call) (m : Medium) :
    ((s.call table c).run devices.answer m).1.2.site = s.site := by
  have stays : (s.call table c).Ends fun result => result.2.site = s.site := by
    cases c with
    | load => exact .bind (site_load s) fun _ stays => stays
    | save settings => exact .bind (site_save s settings) fun _ stays => stays
  exact stays.run devices.answer m

/-- What the partitions hold is a matter of their bytes. -/
theorem bytes_congr {m n : Medium} (agree : m.Agree (s.site.region table) n) :
    s.bytes table m = s.bytes table n := by
  have side (side : Side) : (s.site.volume table side).map (·.content m) =
      (s.site.volume table side).map (·.content n) := by
    cases found : s.site.volume table side with
    | error e => rfl
    | ok v =>
      refine congrArg Except.ok (List.map_congr_left fun i inside => ?_)
      rw [List.mem_range] at inside
      exact agree _ _ ⟨side, v, found, rfl, Nat.le_add_right _ _, Nat.add_lt_add_left inside _⟩
  exact Sides.ext_get fun s => by cases s <;> exact side _

end Storage

/-! ## Fleets -/

/-- Storages over one table, and what its devices hold. -/
structure Fleet (ι : Type) where
  storages : ι → Storage
  medium : Medium

/-- What is seen of a storage at one of its calls. -/
structure Observation where
  result : Result
  statistics : Statistics
  /-- What its partitions hold afterwards. -/
  bytes : Sides (Except Error (List UInt8))

namespace Fleet

variable {ι : Type} [DecidableEq ι] (table : Table) (devices : Devices)

/-- No byte belongs to partitions of two storages. -/
def Apart (f : Fleet ι) : Prop :=
  ∀ i j, i ≠ j → ∀ d a, ¬((f.storages i).site.region table d a ∧ (f.storages j).site.region table d a)

def step (f : Fleet ι) (i : ι) (c : Call) : Observation × Fleet ι :=
  let ((result, storage), medium) := ((f.storages i).call table c).run devices.answer f.medium
  (⟨result, storage.statistics, storage.bytes table medium⟩,
    ⟨Function.update f.storages i storage, medium⟩)

def run (f : Fleet ι) : List (ι × Call) → List (ι × Observation) × Fleet ι
  | [] => ([], f)
  | (i, c) :: calls =>
    let (observation, f) := f.step table devices i c
    let (observations, f) := f.run calls
    ((i, observation) :: observations, f)

variable {table}

/-- Two fleets that the storage `k` cannot tell apart. -/
structure Alike (table : Table) (k : ι) (f g : Fleet ι) : Prop where
  storage : f.storages k = g.storages k
  agree : f.medium.Agree ((f.storages k).site.region table) g.medium

theorem site_step (f : Fleet ι) (i : ι) (c : Call) (k : ι) :
    ((f.step table devices i c).2.storages k).site = (f.storages k).site := by
  by_cases h : k = i
  · subst h
    show (Function.update f.storages k _ k).site = _
    rw [Function.update_self]
    exact (f.storages k).site_call table devices c f.medium
  · show (Function.update f.storages i _ k).site = _
    rw [Function.update_of_ne h]

/-- Calls leave storages apart that are. -/
theorem Apart.step {f : Fleet ι} (apart : f.Apart table) (i : ι) (c : Call) :
    (f.step table devices i c).2.Apart table := by
  intro j k ne d a
  rw [site_step, site_step]
  exact apart j k ne d a

/-- A call of another storage goes unnoticed. -/
theorem Apart.alike_step {f : Fleet ι} (apart : f.Apart table) (mapped : table.Mapped) {i k : ι}
    (ne : i ≠ k) (c : Call) : Alike table k (f.step table devices i c).2 f where
  storage := Function.update_of_ne ne.symm _ _
  agree d a inside := by
    rw [site_step] at inside
    exact ((f.storages i).confined_call mapped c).run_frame devices
      fun other => apart i k ne d a ⟨other, inside⟩

/-- A call of a storage gives the same in fleets that it cannot tell apart. -/
theorem Alike.step {k : ι} {f g : Fleet ι} (alike : Alike table k f g) (mapped : table.Mapped)
    (c : Call) :
    (f.step table devices k c).1 = (g.step table devices k c).1 ∧
      Alike table k (f.step table devices k c).2 (g.step table devices k c).2 := by
  have site := (f.storages k).site_call table devices c f.medium
  obtain ⟨result, agree⟩ :=
    ((f.storages k).confined_call mapped c).run_agree devices alike.agree
  unfold Fleet.step
  rw [← alike.storage]
  generalize ((f.storages k).call table c).run devices.answer f.medium = whole at *
  generalize ((f.storages k).call table c).run devices.answer g.medium = alone at *
  obtain ⟨⟨result, storage⟩, medium⟩ := whole
  obtain ⟨_, medium'⟩ := alone
  obtain rfl := result
  have after : medium.Agree (storage.site.region table) medium' := site ▸ agree
  refine ⟨?_, ?_, ?_⟩
  · exact congrArg (Observation.mk result storage.statistics) (storage.bytes_congr after)
  · show Function.update f.storages k storage k = Function.update g.storages k storage k
    rw [Function.update_self, Function.update_self]
  · show medium.Agree ((Function.update f.storages k storage k).site.region table) medium'
    rwa [Function.update_self]

omit [DecidableEq ι] in
theorem Alike.trans {k : ι} {f g h : Fleet ι} (first : Alike table k f g)
    (second : Alike table k g h) : Alike table k f h where
  storage := first.storage.trans second.storage
  agree d a inside :=
    (first.agree d a inside).trans (second.agree d a (first.storage ▸ inside))

theorem run_cons (f : Fleet ι) (i : ι) (c : Call) (calls : List (ι × Call)) :
    f.run table devices ((i, c) :: calls) =
      ((i, (f.step table devices i c).1) :: ((f.step table devices i c).2.run table devices calls).1,
        ((f.step table devices i c).2.run table devices calls).2) :=
  rfl

/-- A storage cannot tell a run of all calls from one of its own calls. -/
theorem Alike.run {k : ι} {f g : Fleet ι} (alike : Alike table k f g) (apart : f.Apart table)
    (mapped : table.Mapped) (calls : List (ι × Call)) :
    (f.run table devices calls).1.filter (·.1 = k) =
        (g.run table devices (calls.filter (·.1 = k))).1 ∧
      Alike table k (f.run table devices calls).2
        (g.run table devices (calls.filter (·.1 = k))).2 := by
  induction calls generalizing f g with
  | nil => exact ⟨rfl, alike⟩
  | cons call calls ih =>
    obtain ⟨i, c⟩ := call
    rw [run_cons]
    by_cases own : i = k
    · subst own
      obtain ⟨seen, after⟩ := alike.step devices mapped c
      obtain ⟨rest, last⟩ := ih after (apart.step devices i c)
      rw [List.filter_cons_of_pos (by simp), List.filter_cons_of_pos (by simp), run_cons, rest, seen]
      exact ⟨rfl, last⟩
    · have after := (apart.alike_step devices mapped own c).trans alike
      rw [List.filter_cons_of_neg (by simpa using own), List.filter_cons_of_neg (by simpa using own)]
      exact ih after (apart.step devices i c)

/-- Every storage sees what it would see alone, at each of its calls and in the end. -/
theorem run_isolated {f : Fleet ι} (mapped : table.Mapped) (apart : f.Apart table)
    (calls : List (ι × Call)) (k : ι) :
    let whole := f.run table devices calls
    let alone := f.run table devices (calls.filter (·.1 = k))
    whole.1.filter (·.1 = k) = alone.1 ∧
      whole.2.storages k = alone.2.storages k ∧
      (whole.2.storages k).bytes table whole.2.medium =
        (alone.2.storages k).bytes table alone.2.medium := by
  have start : Alike table k f f := ⟨rfl, fun _ _ _ => rfl⟩
  obtain ⟨seen, last⟩ := start.run devices apart mapped calls
  refine ⟨seen, last.storage, ?_⟩
  rw [Storage.bytes_congr _ last.agree, last.storage]

omit [DecidableEq ι] in
/-- Storages whose volumes are pairwise disjoint are apart. -/
theorem apart_of_disjoint {f : Fleet ι}
    (disjoint : ∀ i j, i ≠ j → ∀ side side' v w,
      (f.storages i).site.volume table side = .ok v →
      (f.storages j).site.volume table side' = .ok w → v.Disjoint w) : f.Apart table := by
  rintro i j ne d a ⟨⟨side, v, found, rfl, low, high⟩, ⟨side', w, found', device, low', high'⟩⟩
  rcases disjoint i j ne side side' v w found found' with other | below | above
  · exact other device
  · omega
  · omega

end Fleet

/-- A NOR flash device with four partitions, none of which but the first starts at a multiple of
four. -/
def sharedTable : Table where
  devices := #[⟨some 1, some 82⟩]
  areas := #[{
    name := "shared"
    device := ⟨0⟩
    base := 0
    size := 328
    partitions := [⟨0, 82⟩, ⟨82, 82⟩, ⟨164, 82⟩, ⟨246, 82⟩]
  }]
  device_lt := by simp

/-- Two storages, with the odd and with the even partitions of the shared device. -/
def sharers : Fleet Bool where
  storages
    | true => .ofParts 0 1 3
    | false => .ofParts 0 2 4
  medium := .erased

/-- Which of the four partitions a side of a storage is. -/
def sharedPlace : Bool → Side → Nat
  | true, .a => 0
  | false, .a => 1
  | true, .b => 2
  | false, .b => 3

theorem volume_sharers (i : Bool) (side : Side) :
    (sharers.storages i).site.volume sharedTable side =
      .ok ⟨⟨0⟩, ⟨some 1, some 82⟩, sharedPlace i side * 82, 82⟩ := by
  cases i <;> cases side <;> rfl

/-- Saves of two storages in turn, on a driver that reads four bytes at a time. -/
theorem run_isolated_sharers :
    let devices : Devices := fun _ => .nor 4 fun _ => none
    let calls := [(true, Call.save { Settings.default with brightness := 1 }), (false, .load),
      (false, .save { Settings.default with brightness := 2 }), (true, .load)]
    let whole := sharers.run sharedTable devices calls
    let alone := sharers.run sharedTable devices (calls.filter (·.1 = true))
    (sharedTable.Mapped ∧ sharers.Apart sharedTable) ∧
      whole.1.filter (·.1 = true) = alone.1 ∧
      whole.2.storages true = alone.2.storages true ∧
      (whole.2.storages true).bytes sharedTable whole.2.medium =
        (alone.2.storages true).bytes sharedTable alone.2.medium := by
  intro devices calls whole alone
  have mapped : sharedTable.Mapped := ⟨by decide, by decide⟩
  have apart : sharers.Apart sharedTable := by
    refine Fleet.apart_of_disjoint fun i j ne side side' v w found found' => ?_
    have places : sharedPlace i side ≠ sharedPlace j side' := by
      cases i <;> cases j <;> cases side <;> cases side' <;> simp_all [sharedPlace]
    obtain rfl := Except.ok.inj ((volume_sharers i side).symm.trans found)
    obtain rfl := Except.ok.inj ((volume_sharers j side').symm.trans found')
    rcases Nat.lt_or_gt_of_ne places with before | behind
    · exact .inr (.inl (by dsimp only; omega))
    · exact .inr (.inr (by dsimp only; omega))
  exact ⟨⟨mapped, apart⟩, Fleet.run_isolated devices mapped apart calls true⟩

end TwinLog
