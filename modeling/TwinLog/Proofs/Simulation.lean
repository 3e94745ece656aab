-- SUMMARY: Benches of simulated devices without faults are devices without faults.
import TwinLog.Proofs.Devices
import TwinLog.Proofs.Requests
import TwinLog.Sim.Bench

/-! # Simulated devices without faults

A simulated device has a range of cells, and rejects what goes beyond it. Without a fault it is a
device of a certain make, whose bytes are those of its cells (`Device.follows`). So what a script
does on a bench is what it does on devices of these makes (`Bench.run_eq`). -/

namespace TwinLog

namespace Sim

/-! ## Memory -/

namespace Memory

variable {memory : Memory} {m : Medium} {id : DeviceId} {address length : Nat}

/-- A medium in which a device has the cells of a memory. Where there is no cell, the byte is
zero. -/
def shown (memory : Memory) (id : DeviceId) (m : Medium) : Medium := fun d a =>
  if d = id then (memory.byte? a).getD 0 else m d a

theorem shown_self (a : Nat) : memory.shown id m id a = (memory.byte? a).getD 0 :=
  if_pos rfl

/-- There is a cell at every address of a range within the memory. -/
theorem exists_byte (inside : memory.contains address length = true) {a : Nat} (low : address ≤ a)
    (high : a < address + length) : ∃ byte, memory.byte? a = some byte := by
  obtain ⟨start, stop⟩ := Bool.and_eq_true_iff.1 inside
  replace start := of_decide_eq_true start
  replace stop := of_decide_eq_true stop
  refine ⟨memory.cells[a - memory.origin], ?_⟩
  rw [byte?, if_pos (Nat.le_trans start low)]
  exact Array.getElem?_eq_getElem _

theorem read_shown : (memory.shown id m).read id address length = memory.read address length := by
  apply Vector.ext
  intro i hi
  simp [Medium.read, shown_self]

/-- An update of cells shows as the update of bytes. -/
theorem shown_update (inside : memory.contains address length = true)
    {change : Nat → UInt8 → UInt8} :
    (memory.update address length change).shown id m = fun d a =>
      if d = id ∧ address ≤ a ∧ a < address + length then
        change (a - address) (memory.shown id m d a)
      else memory.shown id m d a := by
  funext d a
  by_cases own : d = id
  · subst own
    rw [shown_self, shown_self, byte?_update]
    by_cases within : address ≤ a ∧ a < address + length
    · obtain ⟨byte, cell⟩ := exists_byte inside within.1 within.2
      rw [if_pos within, if_pos ⟨rfl, within⟩, cell]
      rfl
    · rw [if_neg within, if_neg fun h => within h.2]
  · rw [if_neg fun h => own h.1]
    simp only [Memory.shown, if_neg own]

theorem shown_write {mode : Programming} {bytes : List UInt8}
    (inside : memory.contains address bytes.length = true) :
    (memory.write mode address bytes).shown id m =
      (memory.shown id m).program mode id address bytes := by
  rw [write, List.size_toArray, shown_update inside]
  funext d a
  unfold Medium.program
  split
  · rename_i within
    have bound : a - address < bytes.length := by omega
    simp [bound]
  · rfl

theorem shown_erase (inside : memory.contains address length = true) :
    (memory.erase address length).shown id m = (memory.shown id m).reset id address length :=
  shown_update inside

/-- The fault of an access beyond the memory. -/
def beyond (inside : Bool) : Option DeviceFault :=
  if inside then none else some .outOfBounds

/-- The operations that go beyond the memory are rejected. -/
def rejects (memory : Memory) : Operation → Option DeviceFault
  | .read address length => beyond (memory.contains address.toNat length)
  | .write address bytes => beyond (memory.contains address.toNat bytes.length)
  | .erase address length => beyond (memory.contains address.toNat length)
  | .sync => none

/-- The calls of a driver that go beyond the memory are rejected. -/
def rejectsCall (memory : Memory) : NorFlash.Call → Option DeviceFault
  | .read address length => beyond (memory.contains address.toNat length)
  | .write address bytes => beyond (memory.contains address.toNat bytes.length)
  | .erase start stop => beyond
    (start.toNat ≤ stop.toNat && memory.contains start.toNat (stop.toNat - start.toNat))

/-- What is rejected depends on the range of the memory alone. -/
theorem rejects_congr {other : Memory} (same : other.contains = memory.contains) :
    other.rejects = memory.rejects := by
  funext operation
  cases operation <;> simp only [rejects, same]

theorem rejectsCall_congr {other : Memory} (same : other.contains = memory.contains) :
    other.rejectsCall = memory.rejectsCall := by
  funext call
  cases call <;> simp only [rejectsCall, same]

theorem contains_write (mode : Programming) (bytes : List UInt8) :
    (memory.write mode address bytes).contains = memory.contains := by
  funext start count
  exact contains_update _ _ _ _ _ _

theorem contains_erase : (memory.erase address length).contains = memory.contains := by
  funext start count
  exact contains_update _ _ _ _ _ _

end Memory

/-! ## Chips -/

theorem drive_of_beyond {rejects : NorFlash.Call → Option DeviceFault} {call : NorFlash.Call}
    {i : Bool} (h : rejects call = Memory.beyond i) (id : DeviceId) (m : Medium) :
    NorFlash.drive id rejects call m =
      (if i then .ok (call.effect id m).1 else .error .outOfBounds,
        if i then (call.effect id m).2 else m) := by
  unfold NorFlash.drive
  rw [h]
  cases i <;> rfl

theorem answer_of_beyond {programming : Programming} {lacks : OperationKind → Bool}
    {rejects : Operation → Option DeviceFault} {operation : Operation} {i : Bool}
    (present : lacks operation.kind = false) (h : rejects operation = Memory.beyond i)
    (id : DeviceId) (m : Medium) :
    let make := Make.direct programming lacks rejects
    make.answer id operation m =
      (if i then .ok (make.effect id m operation).1 else .error Chip.outside,
        if i then (make.effect id m operation).2 else m) := by
  intro make
  cases i <;> simp [make, Make.answer, present, h, Memory.beyond, Chip.outside]

namespace Chip

variable {chip : Chip} {base : Memory} {m n : Medium} {id : DeviceId}

/-- A chip works, has the range of a memory, and is shown by a device of a medium. -/
structure Mirrors (chip : Chip) (base : Memory) (id : DeviceId) (n m : Medium) : Prop where
  healthy : chip.fault = none
  range : chip.memory.contains = base.contains
  bytes : m = chip.memory.shown id n

theorem read_of_healthy (healthy : chip.fault = none) (address length : Nat) :
    chip.read address length =
      (if chip.memory.contains address length then .ok (chip.memory.read address length)
        else .error outside, { chip with events := .read address length :: chip.events }) := by
  unfold read meet
  simp only [healthy]
  split <;> rfl

theorem change_of_healthy (healthy : chip.fault = none) (event : Event) (inside : Bool)
    (length : Nat) (apply : Nat → Memory) :
    chip.change event inside length apply =
      (if inside then .ok () else .error outside,
        { chip with
          memory := if inside then apply length else chip.memory
          events := event :: chip.events }) := by
  unfold change meet
  simp only [healthy]
  split <;> rfl

/-- A read of a chip is a read of the medium, unless it goes beyond the memory. -/
theorem Mirrors.read (h : chip.Mirrors base id n m) (address length : Nat) :
    (chip.read address length).1 =
        (if base.contains address length then .ok (m.read id address length)
          else .error outside) ∧
      (chip.read address length).2.Mirrors base id n m := by
  obtain ⟨healthy, range, rfl⟩ := h
  rw [read_of_healthy healthy, range, Memory.read_shown]
  exact ⟨rfl, healthy, range, rfl⟩

/-- A change of a chip is the change of the medium that it shows as, unless it goes beyond the
memory. -/
theorem Mirrors.change (h : chip.Mirrors base id n m) (event : Event) {inside : Bool}
    {length : Nat} {apply : Nat → Memory} {m' : Medium}
    (range : (apply length).contains = chip.memory.contains)
    (bytes : inside = true → (apply length).shown id n = m') :
    (chip.change event inside length apply).1 =
        (if inside then .ok () else .error outside) ∧
      (chip.change event inside length apply).2.Mirrors base id n (if inside then m' else m) := by
  rw [change_of_healthy h.healthy]
  refine ⟨rfl, h.healthy, ?_, ?_⟩
  · dsimp only
    split
    · rw [range, h.range]
    · exact h.range
  · dsimp only
    split
    · rename_i within
      exact (bytes within).symm
    · exact h.bytes

theorem Mirrors.write (h : chip.Mirrors base id n m) (mode : Programming) (address : Nat)
    (bytes : List UInt8) :
    (chip.write mode address bytes).1 =
        (if base.contains address bytes.length then .ok () else .error outside) ∧
      (chip.write mode address bytes).2.Mirrors base id n
        (if base.contains address bytes.length then m.program mode id address bytes else m) := by
  rw [← h.range]
  refine h.change _ (Memory.contains_write _ _) fun inside => ?_
  rw [List.take_length, Memory.shown_write inside, h.bytes]

theorem Mirrors.erase (h : chip.Mirrors base id n m) (address length : Nat) :
    (chip.erase address length).1 =
        (if base.contains address length then .ok () else .error outside) ∧
      (chip.erase address length).2.Mirrors base id n
        (if base.contains address length then m.reset id address length else m) := by
  rw [← h.range]
  refine h.change _ Memory.contains_erase fun inside => ?_
  rw [Memory.shown_erase inside, h.bytes]

theorem Mirrors.eraseRange (h : chip.Mirrors base id n m) (start stop : Nat) :
    let inside : Bool := start ≤ stop && base.contains start (stop - start)
    (chip.eraseRange start stop).1 = (if inside then .ok () else .error outside) ∧
      (chip.eraseRange start stop).2.Mirrors base id n
        (if inside then m.reset id start (stop - start) else m) := by
  rw [← h.range]
  refine h.change _ Memory.contains_erase fun inside => ?_
  rw [Memory.shown_erase (Bool.and_eq_true_iff.1 inside).2, h.bytes]

theorem Mirrors.sync (h : chip.Mirrors base id n m) :
    chip.sync.1 = .ok () ∧ chip.sync.2.Mirrors base id n m :=
  h.change .sync rfl fun _ => h.bytes.symm

theorem mapError_faultOf {α : Type} (i : Bool) (data : α) :
    (if i then .ok data else .error outside : Except Error α).mapError faultOf =
      if i then .ok data else .error .outOfBounds := by
  cases i <;> rfl

/-- A NOR flash driver on a chip answers as one on the medium. -/
theorem Mirrors.drive (h : chip.Mirrors base id n m) (call : NorFlash.Call) :
    (chip.drive call).1 = (NorFlash.drive id base.rejectsCall call m).1 ∧
      (chip.drive call).2.Mirrors base id n (NorFlash.drive id base.rejectsCall call m).2 := by
  cases call with
  | read address length =>
    obtain ⟨reply, after⟩ := h.read address.toNat length
    rw [drive_of_beyond (i := base.contains address.toNat length) rfl]
    refine ⟨(congrArg _ reply).trans (mapError_faultOf _ _), ?_⟩
    dsimp only [NorFlash.Call.effect]
    rw [ite_self]
    exact after
  | write address bytes =>
    obtain ⟨reply, after⟩ := h.write .clearBits address.toNat bytes
    rw [drive_of_beyond (i := base.contains address.toNat bytes.length) rfl]
    exact ⟨(congrArg _ reply).trans (mapError_faultOf _ _), after⟩
  | erase start stop =>
    obtain ⟨reply, after⟩ := h.eraseRange start.toNat stop.toNat
    rw [drive_of_beyond rfl]
    exact ⟨(congrArg _ reply).trans (mapError_faultOf _ _), after⟩

/-- A chip whose cells can be overwritten answers as a device without a driver. -/
theorem Mirrors.perform (h : chip.Mirrors base id n m) {lacks : OperationKind → Bool}
    {operation : Operation} (present : lacks operation.kind = false) :
    let make := Make.direct .overwrite lacks base.rejects
    (chip.perform operation).1 = (make.answer id operation m).1 ∧
      (chip.perform operation).2.Mirrors base id n (make.answer id operation m).2 := by
  intro make
  cases operation with
  | read address length =>
    rw [answer_of_beyond (i := base.contains address.toNat length) present rfl]
    refine ⟨(h.read address.toNat length).1, ?_⟩
    dsimp only [Make.effect]
    rw [ite_self]
    exact (h.read address.toNat length).2
  | write address bytes =>
    rw [answer_of_beyond (i := base.contains address.toNat bytes.length) present rfl]
    exact h.write .overwrite address.toNat bytes
  | erase address length =>
    rw [answer_of_beyond (i := base.contains address.toNat length) present rfl]
    exact h.erase address.toNat length
  | sync =>
    rw [answer_of_beyond (i := true) present rfl]
    exact h.sync

end Chip

/-! ## Devices -/

/-- The kinds of operations that a kind of device lacks. -/
def DeviceKind.lacks : DeviceKind → OperationKind → Bool
  | .ram, _ => false
  | .eeprom, kind => kind = .erase ∨ kind = .sync
  | .rom, kind => kind ≠ .read
  | .nor _, _ => false

theorem DeviceKind.supports_eq (kind : DeviceKind) (operation : Operation) :
    kind.supports operation = !kind.lacks operation.kind := by
  cases kind <;> cases operation <;> rfl

namespace Device

def make (d : Device) : Make :=
  match d.kind with
  | .nor readSize => .nor readSize d.chip.memory.rejectsCall
  | kind => .direct .overwrite kind.lacks d.chip.memory.rejects

variable {d : Device} {id : DeviceId} {m : Medium}

theorem make_congr {chip : Chip} (same : chip.memory.contains = d.chip.memory.contains) :
    make { d with chip } = d.make := by
  unfold make
  dsimp only
  rw [Memory.rejects_congr same, Memory.rejectsCall_congr same]

/-- The answer of a device is that of its make, and it stays healthy and of that make. -/
def Follows (d : Device) (id : DeviceId) (m : Medium) (operation : Operation) : Prop :=
  d.make.answer id operation (d.chip.memory.shown id m) =
      ((d.perform operation).1, (d.perform operation).2.chip.memory.shown id m) ∧
    (d.perform operation).2.chip.fault = none ∧ (d.perform operation).2.make = d.make

variable {operation : Operation}

theorem Follows.of_mirrors {r : Except Error operation.Data × Chip}
    (same : d.perform operation = (r.1, { d with chip := r.2 }))
    (reply : r.1 = (d.make.answer id operation (d.chip.memory.shown id m)).1)
    (after : r.2.Mirrors d.chip.memory id m
      (d.make.answer id operation (d.chip.memory.shown id m)).2) :
    d.Follows id m operation := by
  unfold Follows
  rw [same]
  exact ⟨Prod.ext reply.symm after.bytes, after.healthy, make_congr after.range⟩

/-- A device without a driver that works follows its make. -/
theorem follows_direct (healthy : d.chip.fault = none)
    (make : d.make = .direct .overwrite d.kind.lacks d.chip.memory.rejects)
    (perform : d.perform operation =
      if d.kind.supports operation then
        ((d.chip.perform operation).1, { d with chip := (d.chip.perform operation).2 })
      else (.error .notSupported, d)) :
    d.Follows id m operation := by
  rw [DeviceKind.supports_eq] at perform
  cases lacking : d.kind.lacks operation.kind <;> rw [lacking] at perform
  case true =>
    unfold Follows
    rw [perform, make]
    exact ⟨if_pos lacking, healthy, make⟩
  case false =>
    have start : d.chip.Mirrors d.chip.memory id m (d.chip.memory.shown id m) := ⟨healthy, rfl, rfl⟩
    obtain ⟨reply, after⟩ := start.perform lacking
    rw [← make] at reply after
    exact .of_mirrors perform reply after

/-- A simulated device without a fault follows its make. -/
theorem follows (healthy : d.chip.fault = none) : d.Follows id m operation := by
  obtain ⟨kind, chip⟩ := d
  cases kind with
  | nor readSize =>
    have start : chip.Mirrors chip.memory id m (chip.memory.shown id m) := ⟨healthy, rfl, rfl⟩
    obtain ⟨reply, after⟩ := Script.Only.run_related
      (R := fun (chip' : Chip) m' => chip'.Mirrors chip.memory id m m')
      (fun call _ _ _ mirrors => mirrors.drive call)
      (.all (NorFlash.perform readSize operation).run) start
    exact .of_mirrors rfl reply after
  | _ => exact follows_direct healthy rfl rfl

end Device

/-! ## Benches -/

/-- The makes of simulated devices. A device that does not exist fails. -/
def makes (devices : Array Device) : Devices := fun id =>
  match devices[id.index]? with
  | none => .direct .overwrite (fun _ => false) fun _ => some .other
  | some d => d.make

/-- The bytes of simulated devices. Where there is no cell, the byte is zero. -/
def bytes (devices : Array Device) : Medium := fun id a =>
  match devices[id.index]? with
  | none => 0
  | some d => (d.chip.memory.byte? a).getD 0

variable {devices : Array Device} {makers : Devices} {m : Medium}

/-- Devices work, are of certain makes, and hold the bytes of a medium. -/
structure Mirrors (devices : Array Device) (makers : Devices) (m : Medium) : Prop where
  healthy : ∀ d ∈ devices, d.chip.fault = none
  makes : makes devices = makers
  bytes : m = bytes devices

/-- A device in the place of another. -/
theorem Mirrors.replace {id : DeviceId} {d d' : Device} (h : Mirrors devices makers m)
    (present : devices[id.index]? = some d) (healthy : d'.chip.fault = none)
    (make : d'.make = d.make) :
    Mirrors (devices.setIfInBounds id.index d') makers (d'.chip.memory.shown id m) := by
  have place (other : DeviceId) : (devices.setIfInBounds id.index d')[other.index]? =
      if other = id then some d' else devices[other.index]? := by
    rw [Array.getElem?_setIfInBounds]
    by_cases same : other = id
    · subst same
      have bound : other.index < devices.size := (Array.getElem?_eq_some_iff.1 present).1
      rw [if_pos rfl, if_pos rfl, if_pos bound]
    · have ne : id.index ≠ other.index := fun h => same (by cases other; cases id; cases h; rfl)
      rw [if_neg ne, if_neg same]
  refine ⟨fun e member => ?_, ?_, ?_⟩
  · rcases Array.mem_or_eq_of_mem_setIfInBounds member with old | rfl
    · exact h.healthy e old
    · exact healthy
  · rw [← h.makes]
    funext other
    unfold Sim.makes
    rw [place]
    by_cases same : other = id
    · subst same
      rw [if_pos rfl, present]
      exact make
    · rw [if_neg same]
  · funext other a
    unfold Sim.bytes Memory.shown
    rw [place, h.bytes]
    split <;> rfl

/-- Devices that work answer as devices of their makes. -/
theorem Mirrors.answer (h : Mirrors devices makers m) (request : Bus.Request) :
    (answer request devices).1 = (makers.answer request m).1 ∧
      Mirrors (answer request devices).2 makers (makers.answer request m).2 := by
  have make : makers request.device = Sim.makes devices request.device :=
    congrFun h.makes.symm request.device
  unfold Sim.answer Devices.answer
  rw [make]
  unfold Sim.makes
  cases present : devices[request.device.index]? with
  | none => exact ⟨rfl, h⟩
  | some d =>
    have held : m = d.chip.memory.shown request.device m := by
      funext id a
      unfold Memory.shown
      split
      · rename_i same
        rw [h.bytes, same, Sim.bytes, present]
      · rfl
    obtain ⟨reply, healthy, make⟩ := @Device.follows d request.device m request.operation
      (h.healthy d (Array.mem_of_getElem? present))
    rw [← held] at reply
    dsimp only
    rw [reply]
    exact ⟨rfl, h.replace present healthy make⟩

/-- What a script does on a bench without faults is what it does on devices of these makes. -/
theorem Bench.run_eq {α : Type} {b : Bench} (healthy : ∀ d ∈ b.devices, d.chip.fault = none)
    (x : Script Bus α) :
    x.run (makes b.devices).answer (bytes b.devices) =
      ((b.run x).1, bytes (b.run x).2.devices) := by
  have start : Mirrors b.devices (makes b.devices) (bytes b.devices) := ⟨healthy, rfl, rfl⟩
  obtain ⟨result, after⟩ := Script.Only.run_related
    (R := fun devices m => Mirrors devices (makes b.devices) m)
    (fun request _ _ _ mirrors => mirrors.answer request) (.all x) start
  exact Prod.ext result.symm after.bytes

end Sim

end TwinLog
