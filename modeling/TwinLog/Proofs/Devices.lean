-- SUMMARY: Devices without faults, of every make: which bytes they look at, and which they change.
import TwinLog.NorFlash
import TwinLog.Proofs.Align
import TwinLog.Proofs.Medium
import TwinLog.Volume

/-! # Devices without faults

A device carries out operations by itself, as far as it has them, or by the calls of a NOR flash
driver. It may reject an operation, for the range of its memory, say, but what it rejects depends
on the operation alone. Main statements: an operation changes no byte outside of its span
(`Devices.answer_frame`), and looks at no other byte (`Devices.answer_agree`), although a driver
reads bytes around those that are asked for. -/

namespace TwinLog

/-- A set of addresses on devices. -/
abbrev Region := DeviceId → Nat → Prop

/-- Two media hold the same bytes in a region. -/
def Medium.Agree (m : Medium) (R : Region) (n : Medium) : Prop :=
  ∀ d a, R d a → m d a = n d a

/-- The addresses that an operation is about. -/
def Operation.Spans : Operation → Nat → Prop
  | .read address length, a => address.toNat ≤ a ∧ a < address.toNat + length
  | .write address bytes, a => address.toNat ≤ a ∧ a < address.toNat + bytes.length
  | .erase address length, a => address.toNat ≤ a ∧ a < address.toNat + length
  | .sync, _ => False

/-- The request is about addresses of a region, which devices have. -/
def Request.Within (R : Region) (request : Request) : Prop :=
  ∀ a, request.operation.Spans a → a < addressSpace ∧ R request.device a

/-! ## Makes -/

namespace NorFlash

/-- What a call of a NOR flash driver returns and leaves behind. -/
def Call.effect (device : DeviceId) (m : Medium) : (call : Call) → call.Data × Medium
  | .read address length => (m.read device address.toNat length, m)
  | .write address bytes => ((), m.program .clearBits device address.toNat bytes)
  | .erase start stop => ((), m.reset device start.toNat (stop.toNat - start.toNat))

/-- The answer of a NOR flash driver, apart from the calls that it rejects. -/
def drive (device : DeviceId) (rejects : Call → Option DeviceFault) (call : Driver.Request) :
    StateM Medium (Driver.Reply call) := fun m =>
  match rejects call with
  | some fault => (.error fault, m)
  | none => (.ok (call.effect device m).1, (call.effect device m).2)

end NorFlash

/-- How a device without faults carries out operations. -/
inductive Make where
  /-- By itself, apart from the kinds of operations that it lacks, and from the operations that it
  rejects. -/
  | direct (programming : Sim.Programming) (lacks : Sim.OperationKind → Bool)
    (rejects : Operation → Option DeviceFault)
  /-- By the calls of a NOR flash driver that reads multiples of `readSize`, apart from the calls
  that it rejects. -/
  | nor (readSize : UInt64) (rejects : NorFlash.Call → Option DeviceFault)

namespace Make

/-- What a write does to a byte. The writes of NOR flash only clear bits. -/
def programming : Make → Sim.Programming
  | .direct programming _ _ => programming
  | .nor _ _ => .clearBits

/-- How many bytes an erase resets. A NOR flash driver is given the end of the range, so the length
is cut to 32 bits. -/
def erased (length : Nat) : Make → Nat
  | .direct _ _ _ => length
  | .nor _ _ => length % UInt32.size

/-- What an operation returns and leaves behind where it is carried out. -/
def effect (make : Make) (device : DeviceId) (m : Medium) :
    (operation : Operation) → operation.Data × Medium
  | .read address length => (m.read device address.toNat length, m)
  | .write address bytes => ((), m.program make.programming device address.toNat bytes)
  | .erase address length => ((), m.reset device address.toNat (make.erased length))
  | .sync => ((), m)

def answer (make : Make) (device : DeviceId) (operation : Operation) :
    StateM Medium (Except Error operation.Data) :=
  match make with
  | .direct _ lacks rejects => fun m =>
    if lacks operation.kind then (.error .notSupported, m)
    else
      match rejects operation with
      | some fault => (.error (.device fault), m)
      | none =>
        (.ok (make.effect device m operation).1, (make.effect device m operation).2)
  | .nor readSize rejects => (NorFlash.perform readSize operation).run.run
      (NorFlash.drive device rejects)

end Make

abbrev Devices := DeviceId → Make

def Devices.answer (devices : Devices) (request : Bus.Request) :
    StateM Medium (Bus.Reply request) :=
  (devices request.device).answer request.device request.operation

/-! ## Reads of NOR flash -/

namespace Medium

/-- Bytes are read as well in two parts. -/
theorem toList_read_append (m : Medium) (device : DeviceId) (address length length' : Nat) :
    (m.read device address length).toList ++ (m.read device (address + length) length').toList =
      (m.read device address (length + length')).toList := by
  apply List.ext_getElem
  · simp
  · intro i _ h
    simp only [Vector.length_toList] at h
    by_cases first : i < length
    · rw [List.getElem_append_left (by simpa)]
      simp [read]
    · rw [List.getElem_append_right (by simpa using first)]
      simp only [read, Vector.getElem_toList, Vector.getElem_ofFn, Vector.length_toList]
      congr 1
      omega

/-- Some of the bytes that are read are read themselves. -/
theorem ofListPadded_read (m : Medium) (device : DeviceId) {start length address stop : Nat}
    (low : start ≤ address) (high : address + length ≤ stop) :
    Bytes.ofListPadded length ((m.read device start (stop - start)).toList.drop (address - start)) =
      m.read device address length := by
  apply Vector.ext
  intro i hi
  have inside : address - start + i < stop - start := by omega
  have same : start + (address - start + i) = address + i := by omega
  rw [Bytes.getElem_ofListPadded, List.getD_eq_getElem?_getD, List.getElem?_drop,
    List.getElem?_eq_getElem (by simpa)]
  simp [read, same]

end Medium

namespace NorFlash

variable {α β γ : Type} {device : DeviceId} {rejects : Call → Option DeviceFault}

/-- A script over a driver fails on every medium, or returns what `f` says and changes nothing. -/
def Fetches (device : DeviceId) (rejects : Call → Option DeviceFault) (x : Drive α)
    (f : Medium → α) : Prop :=
  (∃ e, ∀ m, x.run.run (drive device rejects) m = (.error e, m)) ∨
    ∀ m, x.run.run (drive device rejects) m = (.ok (f m), m)

/-- A call is rejected on every medium and changes nothing, or is carried out. -/
theorem run_call_cases (device : DeviceId) (rejects : Call → Option DeviceFault) (c : Call) :
    (∃ fault, ∀ m, (call c).run.run (drive device rejects) m = (.error (.device fault), m)) ∨
      ∀ m, (call c).run.run (drive device rejects) m =
        (.ok (c.effect device m).1, (c.effect device m).2) := by
  have run (m : Medium) : (call c).run.run (drive device rejects) m =
      ((drive device rejects c m).1.mapError Error.device, (drive device rejects c m).2) := rfl
  unfold drive at run
  cases h : rejects c with
  | some fault =>
    simp only [h] at run
    exact .inl ⟨fault, run⟩
  | none =>
    simp only [h] at run
    exact .inr run

theorem fetches_call (address : UInt32) (length : Nat) :
    Fetches device rejects (call (.read address length))
      fun m => m.read device address.toNat length := by
  rcases run_call_cases device rejects (.read address length) with ⟨fault, failed⟩ | done
  · exact .inl ⟨.device fault, failed⟩
  · exact .inr done

theorem Fetches.of_eq {x : Drive α} {f g : Medium → α} (h : Fetches device rejects x f)
    (same : ∀ m, f m = g m) : Fetches device rejects x g :=
  funext same ▸ h

theorem Fetches.pure (a : α) : Fetches device rejects (Pure.pure a) fun _ => a :=
  .inr fun _ => rfl

/-- A sequence goes on where its first part succeeds. -/
theorem run_bind (x : Drive β) (k : β → Drive α) (m : Medium) :
    (x >>= k).run.run (drive device rejects) m =
      match x.run.run (drive device rejects) m with
      | (.ok b, m) => (k b).run.run (drive device rejects) m
      | (.error e, m) => (.error e, m) := by
  rw [ExceptT.run_bind, Script.run_bind]
  have first (y : StateM Medium (Except Error β)) 
      (rest : Except Error β → StateM Medium (Except Error α)) :
      (y >>= rest) m = rest (y m).1 (y m).2 := rfl
  rw [first]
  rcases x.run.run (drive device rejects) m with ⟨_ | _, _⟩ <;> rfl

theorem Fetches.map {x : Drive α} {f : Medium → α} (hx : Fetches device rejects x f) (h : α → β) :
    Fetches device rejects (do let a ← x; return h a) fun m => h (f m) := by
  rcases hx with ⟨e, hx⟩ | hx
  · exact .inl ⟨e, fun m => by rw [run_bind, hx]⟩
  · exact .inr fun m => by
      rw [run_bind, hx]
      rfl

/-- Two scripts one after the other. -/
theorem Fetches.both {x : Drive α} {y : Drive β} {f : Medium → α} {g : Medium → β}
    (hx : Fetches device rejects x f) (hy : Fetches device rejects y g) (h : α → β → γ) :
    Fetches device rejects (do let a ← x; let b ← y; return h a b) fun m => h (f m) (g m) := by
  rcases hx with ⟨e, hx⟩ | hx
  · exact .inl ⟨e, fun m => by rw [run_bind, hx]⟩
  rcases hy with ⟨e, hy⟩ | hy
  · exact .inl ⟨e, fun m => by simp only [run_bind, hx, hy]⟩
  · exact .inr fun m => by
      simp only [run_bind, hx, hy]
      rfl

/-- The `n` bytes from `cursor` on are read where both are multiples of a granularity, so that no
call starts behind the last address. -/
theorem fetches_readWindow {unit step cursor n : Nat} (hs : 0 < step) (hstep : unit ∣ step)
    (hcursor : unit ∣ cursor) (hn : unit ∣ n) (high : cursor + n < 4294967296 + unit) :
    Fetches device rejects (readWindow step hs cursor (cursor + n))
      fun m => (m.read device cursor n).toList := by
  -- every part is whole units, so its address is one that has not wrapped
  induction n using Nat.strongRecOn generalizing cursor with
  | ind n ih =>
    rw [readWindow]
    split
    · rename_i more
      have room : unit ≤ n := Nat.le_of_dvd (by omega) hn
      have address : cursor.toUInt32.toNat = cursor :=
        Nat.mod_eq_of_lt (show cursor < 4294967296 by omega)
      rw [Nat.add_sub_cancel_left]
      obtain ⟨length, hlength⟩ : ∃ length, length = min step n := ⟨_, rfl⟩
      have whole : unit ∣ length := by
        rcases Nat.le_total step n with le | le
        · rwa [hlength, Nat.min_eq_left le]
        · rwa [hlength, Nat.min_eq_right le]
      obtain ⟨rest, rfl⟩ : ∃ rest, n = length + rest := ⟨n - length, by omega⟩
      have head : Fetches device rejects (call (.read cursor.toUInt32 length))
          fun m => m.read device cursor length := by
        have read := @fetches_call device rejects cursor.toUInt32 length
        rwa [address] at read
      have tail := ih rest (by omega) (Nat.dvd_add hcursor whole)
        ((Nat.dvd_add_right whole).1 hn) (by omega)
      rw [← hlength, ← Nat.add_assoc]
      refine (Fetches.both head tail fun a b => a.toList ++ b).of_eq fun m => ?_
      exact m.toList_read_append device cursor length rest
    · rename_i done
      obtain rfl : n = 0 := by omega
      exact Fetches.pure []

/-- A read gets exactly the bytes that are asked for, also where it is widened. -/
theorem fetches_read (readSize : UInt64) {address : UInt32} {length : Nat}
    (inside : address.toNat + length ≤ 4294967296) :
    Fetches device rejects (read readSize address length)
      fun m => m.read device address.toNat length := by
  unfold read
  split
  · exact fetches_call address length
  dsimp only
  split
  · exact .inl ⟨.notSupported, fun _ => rfl⟩
  rename_i small
  rw [not_or, Nat.not_lt, Nat.max_le] at small
  obtain ⟨nonzero, -, unit_le⟩ := small
  replace unit_le : readSize.toNat ≤ 64 := unit_le
  have pos := pos_of_max_alignFloor nonzero
  have start_le := alignFloor_le address.toUInt64 readSize
  rw [UInt32.toNat_toUInt64] at start_le
  have size : (address.toNat + length).toUInt64.toNat = address.toNat + length :=
    Nat.mod_eq_of_lt (by omega)
  obtain ⟨le_stop, stop_lt⟩ :=
    @le_alignCeil (address.toNat + length).toUInt64 readSize pos (by omega)
  rw [size] at le_stop stop_lt
  have dvd_start := dvd_alignFloor address.toUInt64 readSize
  have dvd_stop := dvd_alignCeil (address.toNat + length).toUInt64 readSize
  have hstep := dvd_max_alignFloor windowSize.toUInt64 readSize
  generalize (alignFloor address.toUInt64 readSize).toNat = start at *
  generalize (alignCeil (address.toNat + length).toUInt64 readSize).toNat = stop at *
  obtain ⟨n, rfl⟩ : ∃ n, stop = start + n := ⟨stop - start, by omega⟩
  -- the window may end up to a unit behind the last address
  have bytes := @fetches_readWindow device rejects _ _ start n (Nat.pos_of_ne_zero nonzero) hstep
    dvd_start ((Nat.dvd_add_right dvd_start).1 dvd_stop) (by omega)
  refine (bytes.map fun window =>
    Bytes.ofListPadded length (window.drop (address.toNat - start))).of_eq fun m => ?_
  rw [← m.ofListPadded_read device start_le le_stop, Nat.add_sub_cancel_left]

/-- An erase is refused unless it ends at an address, as far as 32 bits of its length go. -/
theorem run_erase_cases (device : DeviceId) (rejects : Call → Option DeviceFault)
    (address : UInt32) (length : Nat) :
    (¬address.toNat + length % UInt32.size < UInt32.size ∧
        ∀ m, (erase address length).run.run (drive device rejects) m =
          (.error .invalidArgument, m)) ∨
      address.toNat + length % UInt32.size < UInt32.size ∧
        ((∃ fault, ∀ m, (erase address length).run.run (drive device rejects) m =
            (.error (.device fault), m)) ∨
          ∀ m, (erase address length).run.run (drive device rejects) m =
            (.ok (), m.reset device address.toNat (length % UInt32.size))) := by
  unfold erase
  dsimp only
  split
  · rename_i fits
    refine .inr ⟨fits, ?_⟩
    have stop : (address + length.toUInt32).toNat - address.toNat = length % UInt32.size := by
      rw [UInt32.toNat_add, Nat.mod_eq_of_lt fits, Nat.add_sub_cancel_left]
      rfl
    rcases run_call_cases device rejects (.erase address (address + length.toUInt32)) with
      failed | done
    · exact .inl failed
    · refine .inr fun m => ?_
      rw [done, Call.effect, stop]
  · rename_i overflow
    exact .inl ⟨overflow, fun _ => rfl⟩

end NorFlash

/-! ## Effects -/

/-- The operation is about addresses that devices have. -/
def Operation.Inside (operation : Operation) : Prop :=
  ∀ a, operation.Spans a → a < addressSpace

theorem Operation.Inside.read {address : UInt32} {length : Nat}
    (h : (Operation.read address length).Inside) : address.toNat + length ≤ 4294967296 := by
  by_cases empty : length = 0
  · have := address.toNat_lt
    omega
  · have last : address.toNat + length - 1 < 4294967296 := h _ ⟨by omega, by omega⟩
    omega

namespace Make

variable {device : DeviceId} {operation : Operation}

theorem erased_le (make : Make) (length : Nat) : make.erased length ≤ length := by
  cases make with
  | direct => exact Nat.le_refl _
  | nor => exact Nat.mod_le _ _

/-- A device without a driver lacks an operation, or it rejects it on every medium, or it carries it
out. -/
theorem direct_cases (programming : Sim.Programming) (lacks : Sim.OperationKind → Bool)
    (rejects : Operation → Option DeviceFault) :
    let make := Make.direct programming lacks rejects
    (lacks operation.kind = true ∧
        ∀ m, make.answer device operation m = (.error .notSupported, m)) ∨
      lacks operation.kind = false ∧
        ((∃ fault, ∀ m, make.answer device operation m = (.error (.device fault), m)) ∨
          ∀ m, make.answer device operation m =
            (.ok (make.effect device m operation).1, (make.effect device m operation).2)) := by
  intro make
  cases lacking : lacks operation.kind with
  | true => exact .inl ⟨rfl, fun m => if_pos lacking⟩
  | false =>
    refine .inr ⟨rfl, ?_⟩
    cases h : rejects operation with
    | some fault => exact .inl ⟨fault, fun m => by simp [make, answer, lacking, h]⟩
    | none => exact .inr fun m => by simp [make, answer, lacking, h]

/-- An operation fails on every medium and changes nothing, or is carried out. -/
theorem answer_cases (make : Make) (inside : operation.Inside) :
    (∃ e, ∀ m, make.answer device operation m = (.error e, m)) ∨
      ∀ m, make.answer device operation m =
        (.ok (make.effect device m operation).1, (make.effect device m operation).2) := by
  cases make with
  | direct programming lacks rejects =>
    rcases @direct_cases device operation programming lacks rejects with
      ⟨-, failed⟩ | ⟨-, ⟨fault, failed⟩ | done⟩
    · exact .inl ⟨.notSupported, failed⟩
    · exact .inl ⟨.device fault, failed⟩
    · exact .inr done
  | nor readSize rejects =>
    cases operation with
    | read address length =>
      rcases @NorFlash.fetches_read device rejects readSize address length inside.read with
        ⟨e, failed⟩ | read
      · exact .inl ⟨e, failed⟩
      · exact .inr read
    | write address bytes =>
      rcases NorFlash.run_call_cases device rejects (.write address bytes) with
        ⟨fault, failed⟩ | done
      · exact .inl ⟨.device fault, failed⟩
      · exact .inr done
    | erase address length =>
      rcases NorFlash.run_erase_cases device rejects address length with
        ⟨-, refused⟩ | ⟨-, ⟨fault, failed⟩ | done⟩
      · exact .inl ⟨.invalidArgument, refused⟩
      · exact .inl ⟨.device fault, failed⟩
      · exact .inr done
    | sync => exact .inr fun _ => rfl

/-- An operation changes no byte outside of its span. -/
theorem effect_frame (make : Make) {m : Medium} {d : DeviceId} {a : Nat}
    (outside : ¬(d = device ∧ operation.Spans a)) :
    (make.effect device m operation).2 d a = m d a := by
  cases operation with
  | read => rfl
  | write address bytes => exact if_neg outside
  | erase address length =>
    have le := make.erased_le length
    refine if_neg fun changed => outside ⟨changed.1, changed.2.1, ?_⟩
    exact Nat.lt_of_lt_of_le changed.2.2 (Nat.add_le_add_left le _)
  | sync => rfl

/-- What an operation returns depends on the bytes in its span. -/
theorem effect_agree (make : Make) {m n : Medium}
    (agree : ∀ a, operation.Spans a → m device a = n device a) :
    (make.effect device m operation).1 = (make.effect device n operation).1 := by
  cases operation with
  | read address length =>
    apply Vector.ext
    intro i hi
    simp only [effect, Medium.read, Vector.getElem_ofFn]
    exact agree _ ⟨Nat.le_add_right _ _, Nat.add_lt_add_left hi _⟩
  | write => rfl
  | erase => rfl
  | sync => rfl

/-- What an operation makes of a byte depends on that byte. -/
theorem effect_congr (make : Make) {m n : Medium} {d : DeviceId} {a : Nat}
    (same : m d a = n d a) :
    (make.effect device m operation).2 d a = (make.effect device n operation).2 d a := by
  cases operation with
  | read => exact same
  | write => simp only [effect, Medium.program, same]
  | erase => simp only [effect, Medium.reset, same]
  | sync => exact same

end Make

/-! ## Regions -/

namespace Devices

variable {devices : Devices} {R : Region} {request : Request} {m n : Medium}

theorem answer_cases (devices : Devices) (within : request.Within R) :
    (∃ e, ∀ m, devices.answer request m = (.error e, m)) ∨
      ∀ m, devices.answer request m =
        (.ok ((devices request.device).effect request.device m request.operation).1,
          ((devices request.device).effect request.device m request.operation).2) :=
  (devices request.device).answer_cases fun a spans => (within a spans).1

/-- A request within a region changes nothing outside. -/
theorem answer_frame (within : request.Within R) {d : DeviceId} {a : Nat} (outside : ¬R d a) :
    (devices.answer request m).2 d a = m d a := by
  rcases devices.answer_cases within with ⟨e, failed⟩ | done
  · rw [failed]
  · rw [done]
    refine Make.effect_frame _ ?_
    rintro ⟨rfl, spans⟩
    exact outside (within a spans).2

/-- What a request within a region returns and what it makes of the region depends on nothing
outside. -/
theorem answer_agree (within : request.Within R) (agree : m.Agree R n) :
    (devices.answer request m).1 = (devices.answer request n).1 ∧
      (devices.answer request m).2.Agree R (devices.answer request n).2 := by
  rcases devices.answer_cases within with ⟨e, failed⟩ | done
  · rw [failed, failed]
    exact ⟨rfl, agree⟩
  · rw [done, done]
    refine ⟨congrArg Except.ok (Make.effect_agree _ fun a spans => ?_), fun d a inside => ?_⟩
    · exact agree _ _ (within a spans).2
    · exact Make.effect_congr _ (agree d a inside)

end Devices

end TwinLog
