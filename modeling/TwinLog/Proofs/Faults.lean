-- SUMMARY: Devices whose calls fail one by one, and what is left when they do.
import TwinLog.Proofs.Log.Append
import TwinLog.Proofs.Requests

/-! # Calls that fail

Each write, erase and sync may fail on its own, with any error and after any part of its effect. A
plan says which of the calls to come fail. What holds for every plan is stated against a server
that leaves open what fails (`Hardware.exposed`). The laws below are those of volumes and logs on
that server. A reset that fails has reset the first bytes, also where a native erase gives up and
the volume is filled instead (`Volume.wp_eraseAll_exposed`). -/

namespace TwinLog

open Volume (erasedBytes)

/-- A failure of one call, which changes its first bytes before it returns an error. -/
structure Mishap where
  bytes : Nat
  error : Error
deriving DecidableEq

/-- The error that a device returns. Devices that only clear bits have no errors but device
faults. -/
def Traits.reported (traits : Traits) (e : Error) : Error :=
  match traits.programming, e with
  | .overwrite, e => e
  | .clearBits, .device fault => .device fault
  | .clearBits, _ => .device .other

theorem Traits.overwrites_of_reported {traits : Traits} {e : Error}
    (h : traits.reported e = .notSupported) : traits.programming = .overwrite := by
  unfold reported at h
  split at h
  · assumption
  · cases h
  · cases h

namespace Hardware

variable (hw : Hardware)

def fail (mishap : Mishap) (request : Bus.Request) : StateM Medium (Bus.Reply request) := fun m =>
  (.error ((hw request.device).reported mishap.error), hw.tear mishap.bytes request m)

/-- The answer of devices whose calls fail as a plan says. Reads work. Every other call takes the
next entry of the plan, and works if there is none. -/
def answerAmid (request : Bus.Request) :
    StateM (Medium × List (Option Mishap)) (Bus.Reply request) :=
  fun (m, plan) =>
    if request.operation.kind = .read then
      let (reply, m') := hw.answer request m
      (reply, m', plan)
    else
      let (reply, m') :=
        match plan.head?.join with
        | none => hw.answer request m
        | some mishap => hw.fail mishap request m
      (reply, m', plan.tail)

/-- Devices of which each call may fail, except for reads. -/
def exposed : Server Bus Medium where
  replies request m reply m' :=
    (reply, m') = hw.answer request m ∨
      (request.operation.kind ≠ .read ∧ ∃ mishap, (reply, m') = hw.fail mishap request m)
  breaks _ _ _ := False

theorem replies_answerAmid (request : Bus.Request) (s : Medium × List (Option Mishap)) :
    hw.exposed.replies request s.1 (hw.answerAmid request s).1 (hw.answerAmid request s).2.1 := by
  obtain ⟨m, plan⟩ := s
  unfold answerAmid
  by_cases read : request.operation.kind = .read
  · simp only [if_pos read]
    exact .inl rfl
  · simp only [if_neg read]
    cases plan.head?.join with
    | none => exact .inl rfl
    | some mishap => exact .inr ⟨read, mishap, rfl⟩

end Hardware

namespace Volume

variable {v : Volume} {hw : Hardware} {m : Medium}

/-! ## Volumes -/

/-- Reads return what is on the medium. -/
theorem holds_exposed (addressable : v.start + v.size ≤ addressSpace) :
    hw.exposed.Holds v m (v.content m) where
  length_eq := length_content v m
  addressable := addressable
  breaks _ _ _ h := h.elim
  replies offset length reply t start inside h := by
    rcases h with works | ⟨other, -⟩
    · have healthy : (hw.server .none).Holds v m (v.content m) := server_holds addressable rfl
      exact healthy.replies offset length reply t start inside works
    · exact absurd rfl other

section Exposed

variable {ok : Unit → Medium → Prop} {err : Error → Medium → Prop} {crash : Medium → Prop}

theorem wp_write_exposed (writable : v.Writable) {offset : Nat} {bytes : List UInt8}
    (start : offset < v.size) (inside : offset + bytes.length ≤ v.size)
    (hok : ok () (v.written hw m offset bytes))
    (herr : ∀ e n, err e (v.written hw m offset (bytes.take n))) :
    Access.wp hw.exposed (v.write offset bytes) ok err crash m := by
  have address := toNat_address writable.addressable start
  rw [write_eq writable.addressable writable.unit start inside, Access.wp_perform]
  refine ⟨fun t h => h.elim, fun reply t h => ?_⟩
  rcases h with works | ⟨-, mishap, fails⟩
  · simp only [Hardware.answer, address] at works
    cases works
    exact hok
  · simp only [Hardware.fail, Hardware.tear, address] at fails
    cases fails
    exact herr _ _

/-- An erase that fails has reset the first bytes, or none where there is no native erase. -/
theorem wp_erase_exposed (writable : v.Writable) (erasable : v.Erasable hw .none)
    (hok : ok () (v.wiped m v.size))
    (herr : ∀ e, ∀ n ≤ v.size, (e = .notSupported → (hw v.device).programming = .overwrite) →
      err e (v.wiped m n)) :
    Access.wp hw.exposed (v.erase 0 v.size) ok err crash m := by
  have addressable := writable.addressable
  have nonempty := writable.nonempty
  have address := toNat_address addressable nonempty
  rw [Nat.add_zero] at address
  rcases erasable with ⟨unit, native⟩ | ⟨emulated, -⟩
  · rw [erase_eq addressable nonempty native.granularity native.start native.whole,
      Access.wp_perform]
    refine ⟨fun t h => h.elim, fun reply t h => ?_⟩
    rcases h with works | ⟨-, mishap, fails⟩
    · simp only [Hardware.answer, native.erases, address, if_true] at works
      cases works
      exact hok
    · simp only [Hardware.fail, Hardware.tear, native.erases, address, if_true] at fails
      cases fails
      exact herr _ _ (Nat.min_le_right _ _) Traits.overwrites_of_reported
  · -- whatever the device says, it has no erase and leaves the medium as it is
    have unchanged : ∀ e, err e m := fun e => by
      simpa using herr e 0 (Nat.zero_le _) fun _ => emulated.overwrites
    cases granularity : v.geometry.eraseSize with
    | none =>
      rw [erase_of_none addressable nonempty granularity]
      exact unchanged _
    | some unit =>
      obtain ⟨start, whole⟩ := emulated.aligned unit granularity
      rw [erase_eq addressable nonempty granularity start whole, Access.wp_perform]
      refine ⟨fun t h => h.elim, fun reply t h => ?_⟩
      rcases h with works | ⟨-, mishap, fails⟩
      · simp only [Hardware.answer, emulated.unsupported] at works
        cases works
        exact unchanged _
      · simp only [Hardware.fail, Hardware.tear, emulated.unsupported] at fails
        cases fails
        exact unchanged _

/-! ## Resetting -/

/-- One write of a fill adds to the bytes that are reset, whether it fails or not. -/
theorem wp_fillStep_exposed (writable : v.Writable)
    (overwrites : (hw v.device).programming = .overwrite) {offset n k : Nat} {rest : Access Unit}
    (le : offset ≤ n) (pos : 0 < k) (room : offset + k ≤ v.size) (inside : n ≤ v.size)
    (h : Access.wp hw.exposed rest ok err crash (v.wiped m (max n (offset + k))))
    (herr : ∀ e, ∀ n ≤ v.size, err e (v.wiped m n)) :
    Access.wp hw.exposed (do v.write offset (erasedBytes k); rest) ok err crash (v.wiped m n) := by
  rw [Access.wp_bind]
  refine wp_write_exposed writable (by omega) (by simpa using room) ?_ fun e t => ?_
  · rwa [written_wiped overwrites le]
  · rw [take_erasedBytes, written_wiped overwrites le]
    exact herr e _ (by omega)

/-- A fill from an offset ends with all bytes reset, if those before the offset are. -/
theorem wp_fillFrom_exposed (writable : v.Writable)
    (overwrites : (hw v.device).programming = .overwrite) {chunk step : Nat} {hc : 0 < chunk}
    {hs : 0 < step} {offset n : Nat} (le : offset ≤ n) (inside : n ≤ v.size)
    (hok : ok () (v.wiped m v.size)) (herr : ∀ e, ∀ n ≤ v.size, err e (v.wiped m n)) :
    Access.wp hw.exposed (v.fillFrom chunk step hc hs offset) ok err crash (v.wiped m n) := by
  induction left : v.size - offset using Nat.strongRecOn generalizing offset n with
  | ind left ih =>
    rw [fillFrom]
    split
    · rename_i room
      exact wp_fillStep_exposed writable overwrites le hc room inside
        (ih _ (by omega) (Nat.le_max_right _ _) (Nat.max_le.2 ⟨inside, room⟩) rfl) herr
    · split
      · have room : offset + min step (v.size - offset) ≤ v.size := by omega
        exact wp_fillStep_exposed writable overwrites le (by omega) room inside
          (ih _ (by omega) (Nat.le_max_right _ _) (Nat.max_le.2 ⟨inside, room⟩) rfl) herr
      · obtain rfl : n = v.size := by omega
        exact hok

/-- Resetting a volume. Where a native erase gives up, the fill goes over what it has left. -/
theorem wp_eraseAll_exposed (writable : v.Writable) (erasable : v.Erasable hw .none)
    (hok : ok () (v.wiped m v.size)) (herr : ∀ e, ∀ n ≤ v.size, err e (v.wiped m n)) :
    Access.wp hw.exposed v.eraseAll ok err crash m := by
  rw [eraseAll, Access.wp_tryCatch]
  refine wp_erase_exposed writable erasable hok fun e n inside overwrites => ?_
  split
  · unfold fill
    rw [writable.unit]
    exact wp_fillFrom_exposed writable (overwrites rfl) (Nat.zero_le _) inside hok herr
  · exact herr e n inside

/-! ## Appending -/

/-- Appending a record. -/
theorem wp_append_exposed (writable : v.Writable) (erasable : v.Erasable hw .none) (log : LogState)
    {r : Record} {ok : Nat → Medium → Prop}
    (hok : ok (v.next log).freeOffset (v.appended hw log r m Record.size))
    (hwrite : ∀ e t, err e (v.appended hw log r m t))
    (herase : v.resets log → ∀ e, ∀ n ≤ v.size, err e (v.wiped m n)) :
    Access.wp hw.exposed (v.append r log.freeOffset (log.status = .corrupt)) ok err crash m := by
  simp only [appended_eq, Record.take_size_encode] at hok hwrite
  have write : Access.wp hw.exposed (do
      v.write (v.place log) r.encode.toList
      return (v.next log).freeOffset) ok err crash
      (if v.resets log then v.wiped m v.size else m) := by
    rw [Access.wp_bind]
    exact wp_write_exposed writable (place_lt writable log) (place_inside writable log r) hok hwrite
  rw [append_eq, Access.wp_bind]
  split
  · rename_i reset
    rw [if_pos reset] at write
    exact wp_eraseAll_exposed writable erasable write (herase reset)
  · rename_i room
    rwa [if_neg room] at write

end Exposed

end Volume

end TwinLog
