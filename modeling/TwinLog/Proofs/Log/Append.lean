-- SUMMARY: What resetting a volume and appending a record leave on the medium, also when cut short.
import TwinLog.Log.Recover
import TwinLog.Proofs.Record

/-! # Writing a log

Laws of the operations that change a volume. A reset that stops early has reset the first bytes
(`Volume.wp_eraseAll`). An append that stops early has written a part of the record, behind the
log or into the volume that it has reset (`Volume.wp_append`). Over erased bytes, such a part is a
torn record (`Volume.content_written_record`). -/

namespace TwinLog.Volume

/-! ## Conditions -/

/-- A volume with room for a record, which is written byte by byte. -/
structure Writable (v : Volume) : Prop where
  addressable : v.start + v.size ≤ addressSpace
  unit : v.geometry.writeSize = some 1
  room : Record.size ≤ v.size

/-- The volume is erased natively and consists of whole erase units. -/
structure Native (hw : Hardware) (v : Volume) (unit : UInt64) : Prop where
  erases : (hw v.device).erases = true
  granularity : v.geometry.eraseSize = some unit
  start : v.start % unit.toNat = 0
  whole : v.size % unit.toNat = 0

structure Emulated (hw : Hardware) (v : Volume) : Prop where
  unsupported : (hw v.device).erases = false
  overwrites : (hw v.device).programming = .overwrite
  aligned : ∀ unit, v.geometry.eraseSize = some unit →
    v.start % unit.toNat = 0 ∧ v.size % unit.toNat = 0

/-- The volume can be reset. Where that takes writes, devices are not in trouble. -/
def Erasable (hw : Hardware) (trouble : Trouble) (v : Volume) : Prop :=
  (∃ unit, v.Native hw unit) ∨ (v.Emulated hw ∧ trouble = .none)

variable {v : Volume} {hw : Hardware} {trouble : Trouble} {m : Medium}

theorem Writable.nonempty (h : v.Writable) : 0 < v.size :=
  Nat.lt_of_lt_of_le (by decide) h.room

theorem Writable.below (h : v.Writable) : v.start < addressSpace :=
  Nat.lt_of_lt_of_le (Nat.lt_add_of_pos_right h.nonempty) h.addressable

/-! ## Resetting -/

@[simp] theorem wiped_zero : v.wiped m 0 = m :=
  Medium.reset_zero m v.device v.start

/-- Filling goes on with a reset where the device overwrites, also over bytes that are reset
already. -/
theorem written_wiped (overwrites : (hw v.device).programming = .overwrite) {n offset : Nat}
    (le : offset ≤ n) (k : Nat) :
    v.written hw (v.wiped m n) offset (erasedBytes k) = v.wiped m (max n (offset + k)) := by
  funext d a
  simp only [written, wiped, Medium.program, Medium.reset, overwrites, Sim.Programming.apply,
    length_erasedBytes]
  by_cases device : d = v.device
  · simp only [device, true_and]
    by_cases inside : v.start + offset ≤ a ∧ a < v.start + offset + k
    · have whole : v.start ≤ a ∧ a < v.start + max n (offset + k) := by omega
      rw [if_pos inside, if_pos whole, List.getD_eq_getElem?_getD,
        List.getElem?_eq_getElem (by simp; omega), Option.getD_some]
      simp [erasedBytes]
    · rw [if_neg inside]
      by_cases before : v.start ≤ a ∧ a < v.start + n
      · have whole : v.start ≤ a ∧ a < v.start + max n (offset + k) := by omega
        rw [if_pos before, if_pos whole]
      · have outside : ¬(v.start ≤ a ∧ a < v.start + max n (offset + k)) := by omega
        rw [if_neg before, if_neg outside]
  · simp only [device, false_and, if_false]

/-- A write of erased bytes behind those that are reset goes on with the reset. -/
theorem program_wiped (v : Volume) (m : Medium) (offset k : Nat) :
    (v.wiped m offset).program .overwrite v.device (v.start + offset) (erasedBytes k) =
      v.wiped m (offset + k) := by
  have grown := @written_wiped v (fun _ => ⟨.overwrite, false, false⟩) m rfl offset offset
    (Nat.le_refl _) k
  rwa [Nat.max_eq_right (Nat.le_add_right _ _)] at grown

section Erase

variable {ok : Unit → Medium → Prop} {err : Error → Medium → Prop} {crash : Medium → Prop}

/-- One write of a fill resets the bytes behind those that are reset already. -/
theorem wp_fillStep (writable : v.Writable) (overwrites : (hw v.device).programming = .overwrite)
    {offset k : Nat} {rest : Access Unit} (pos : 0 < k) (room : offset + k ≤ v.size)
    (h : Access.wp (hw.server .none) rest ok err crash (v.wiped m (offset + k)))
    (hcrash : ∀ n ≤ v.size, crash (v.wiped m n)) :
    Access.wp (hw.server .none) (do v.write offset (erasedBytes k); rest) ok err crash
      (v.wiped m offset) := by
  have write (n : Nat) :
      v.written hw (v.wiped m offset) offset (erasedBytes n) = v.wiped m (offset + n) := by
    rw [written, overwrites, program_wiped]
  rw [Access.wp_bind]
  refine wp_write writable.addressable writable.unit (by omega) (by simpa using room)
    (fun _ => ?_) (fun failure hit => by cases hit) (fun n => ?_)
  · rwa [write]
  · rw [take_erasedBytes, write]
    exact hcrash _ (by omega)

/-- A fill that got to an offset goes on to the end of the volume. -/
theorem wp_fillFrom (writable : v.Writable) (overwrites : (hw v.device).programming = .overwrite)
    {chunk step : Nat} {hc : 0 < chunk} {hs : 0 < step} {offset : Nat} (inside : offset ≤ v.size)
    (hok : ok () (v.wiped m v.size)) (hcrash : ∀ n ≤ v.size, crash (v.wiped m n)) :
    Access.wp (hw.server .none) (v.fillFrom chunk step hc hs offset) ok err crash
      (v.wiped m offset) := by
  induction left : v.size - offset using Nat.strongRecOn generalizing offset with
  | ind left ih =>
    rw [fillFrom]
    split
    · rename_i room
      exact wp_fillStep writable overwrites hc room (ih _ (by omega) room rfl) hcrash
    · split
      · exact wp_fillStep writable overwrites (by omega) (by omega)
          (ih _ (by omega) (by omega) rfl) hcrash
      · obtain rfl : offset = v.size := by omega
        exact hok

/-- Resetting a volume. A failure leaves as many bytes reset as the device has reset. -/
theorem wp_eraseAll (writable : v.Writable) (erasable : v.Erasable hw trouble)
    (hok : trouble .erase = none → ok () (v.wiped m v.size))
    (herr : ∀ failure, trouble .erase = some failure →
      err (.device failure.fault) (v.wiped m (min failure.bytes v.size)))
    (hcrash : ∀ n ≤ v.size, crash (v.wiped m n)) :
    Access.wp (hw.server trouble) v.eraseAll ok err crash m := by
  have addressable := writable.addressable
  have nonempty := writable.nonempty
  rw [eraseAll, Access.wp_tryCatch]
  rcases erasable with ⟨unit, native⟩ | ⟨emulated, rfl⟩
  · exact wp_erase addressable nonempty native.granularity native.start native.whole native.erases
      hok herr hcrash
  · have start := hcrash 0 (Nat.zero_le _)
    rw [wiped_zero] at start
    refine wp_erase_of_unsupported addressable nonempty rfl emulated.aligned emulated.unsupported
      ?_ start
    -- the fill starts with nothing reset
    have fill : Access.wp (hw.server .none) v.fill ok err crash (v.wiped m 0) := by
      unfold fill
      rw [writable.unit]
      exact wp_fillFrom writable emulated.overwrites (Nat.zero_le _) (hok rfl) hcrash
    rwa [wiped_zero] at fill

end Erase

/-! ## Appending -/

/-- Whether the volume is reset before the next record is written. -/
def resets (v : Volume) (log : LogState) : Prop :=
  log.status = .corrupt ∨ v.size < log.freeOffset + Record.size

instance (v : Volume) (log : LogState) : Decidable (v.resets log) :=
  inferInstanceAs (Decidable (_ ∨ _))

def place (v : Volume) (log : LogState) : Nat :=
  if v.resets log then 0 else log.freeOffset

/-- The medium after the first `t` bytes of a record are appended to the log. -/
def appended (v : Volume) (hw : Hardware) (log : LogState) (r : Record) (m : Medium) (t : Nat) :
    Medium :=
  if v.resets log then v.written hw (v.wiped m v.size) 0 (r.encode.toList.take t)
  else v.written hw m log.freeOffset (r.encode.toList.take t)

/-- The state of the log after a record is appended. -/
def next (v : Volume) (log : LogState) : LogState :=
  ⟨.clean, if v.resets log then Record.size else log.freeOffset + Record.size⟩

theorem next_eq (v : Volume) (log : LogState) :
    v.next log = ⟨.clean, v.place log + Record.size⟩ := by
  unfold next place
  split
  · rw [Nat.zero_add]
  · rfl

theorem appended_eq (v : Volume) (hw : Hardware) (log : LogState) (r : Record) (m : Medium)
    (t : Nat) :
    v.appended hw log r m t = v.written hw (if v.resets log then v.wiped m v.size else m)
      (v.place log) (r.encode.toList.take t) := by
  unfold appended place
  split <;> rfl

/-- An append resets the volume where it has to, and writes the record. -/
theorem append_eq (v : Volume) (log : LogState) (r : Record) :
    v.append r log.freeOffset (log.status = .corrupt) =
      (if v.resets log then v.eraseAll else pure ()) >>= fun _ => do
        v.write (v.place log) r.encode.toList
        return (v.next log).freeOffset := by
  have condition : (decide (log.status = .corrupt) = true ∨
      v.size < log.freeOffset + Record.size) ↔ v.resets log := by
    rw [decide_eq_true_iff]
    rfl
  unfold append place next
  simp only [condition]
  split
  · rfl
  · rfl

/-- The next record ends within the volume. -/
theorem place_inside (writable : v.Writable) (log : LogState) (r : Record) :
    v.place log + r.encode.toList.length ≤ v.size := by
  rw [Record.length_toList_encode]
  unfold place
  split
  · exact (Nat.zero_add _).symm ▸ writable.room
  · rename_i room
    exact Nat.le_of_not_lt fun full => room (.inr full)

theorem place_lt (writable : v.Writable) (log : LogState) : v.place log < v.size := by
  have inside := place_inside writable log .default
  rw [Record.length_toList_encode, Record.size_eq] at inside
  omega

/-- Appending a record. -/
theorem wp_append (writable : v.Writable) (erasable : v.Erasable hw trouble) (log : LogState)
    {r : Record} {ok : Nat → Medium → Prop} {err : Error → Medium → Prop} {crash : Medium → Prop}
    (hok : trouble .write = none → (v.resets log → trouble .erase = none) →
      ok (v.next log).freeOffset (v.appended hw log r m Record.size))
    (hwrite : ∀ failure, trouble .write = some failure → (v.resets log → trouble .erase = none) →
      err (.device failure.fault) (v.appended hw log r m failure.bytes))
    (herase : ∀ failure, trouble .erase = some failure → v.resets log →
      err (.device failure.fault) (v.wiped m (min failure.bytes v.size)))
    (hcrash : ∀ t, crash (v.appended hw log r m t))
    (hreset : v.resets log → ∀ n ≤ v.size, crash (v.wiped m n)) :
    Access.wp (hw.server trouble) (v.append r log.freeOffset (log.status = .corrupt)) ok err crash
      m := by
  simp only [appended_eq, Record.take_size_encode] at hok hwrite hcrash
  -- the write, whether or not the volume is reset before it
  have write : (v.resets log → trouble .erase = none) →
      Access.wp (hw.server trouble) (do
        v.write (v.place log) r.encode.toList
        return (v.next log).freeOffset) ok err crash
        (if v.resets log then v.wiped m v.size else m) := by
    intro erase
    rw [Access.wp_bind]
    exact wp_write writable.addressable writable.unit (place_lt writable log)
      (place_inside writable log r) (fun works => hok works erase)
      (fun failure hit => hwrite failure hit erase) hcrash
  rw [append_eq, Access.wp_bind]
  by_cases reset : v.resets log
  · rw [if_pos reset] at write ⊢
    exact wp_eraseAll writable erasable (fun healthy => write fun _ => healthy)
      (fun failure hit => herase failure hit reset) (hreset reset)
  · rw [if_neg reset] at write ⊢
    exact write fun h => absurd h reset

/-! ## What a record leaves -/

/-- A record that is cut short over erased bytes leaves a torn record. -/
theorem content_written_record (r : Record) {offset : Nat} (t : Nat)
    (room : offset + Record.size ≤ v.size)
    (erased : (v.content m).drop offset = erasedBytes (v.size - offset)) :
    v.content (v.written hw m offset (r.encode.toList.take t)) =
      (v.content m).take offset ++
        (r.torn t ++ erasedBytes (v.size - (offset + Record.size))) := by
  rw [Record.size_eq] at room
  have length : (r.encode.toList.take t).length = min t 41 := by
    rw [List.length_take, Record.length_toList_encode, Record.size_eq]
  rw [content_written, overlay_eq (by rw [length, length_content]; omega)
    (.inr (by rw [erased, take_erasedBytes, length]; congr 1; omega)), length, List.append_assoc,
    ← List.drop_drop, erased, drop_erasedBytes, Record.torn, List.append_assoc, erasedBytes_append]
  congr 3
  simp only [Record.size_eq]
  omega


/-! ## The first request -/

section Native

variable {unit : UInt64} (writable : v.Writable) (native : v.Native hw unit)
include writable native

theorem first?_eraseAll :
    v.eraseAll.run.first? = some ⟨v.device, .erase v.start.toUInt32 v.size⟩ := by
  unfold eraseAll
  rw [erase_whole writable.below native.granularity native.start native.whole]
  rfl

/-- An append that resets the volume starts with the reset. -/
theorem first?_append {log : LogState} (r : Record) (reset : v.resets log) :
    (v.append r log.freeOffset (log.status = .corrupt)).run.first? =
      some ⟨v.device, .erase v.start.toUInt32 v.size⟩ := by
  unfold append
  unfold resets at reset
  rw [if_pos (by simpa using reset), ExceptT.run_bind]
  exact Script.first?_bind (first?_eraseAll writable native) _

end Native

end TwinLog.Volume
