-- SUMMARY: NOR flash drivers of any kind, and what is expected of those that work.
import TwinLog.Proofs.Devices
import TwinLog.Proofs.Requests

/-! # NOR flash drivers

A driver answers calls from states of its own. What its memory holds is seen as the content of one
device of a medium. A driver that works carries out the calls that its granularities and its range
allow (`CarriesOut`). What it does with other calls is left open. -/

namespace TwinLog.NorFlash

variable {σ α β : Type}

abbrev Answers (σ : Type) := (c : Driver.Request) → StateM σ (Driver.Reply c)

/-- A driver does with the accepted calls what they are for. -/
def CarriesOut (driver : Answers σ) (content : σ → Medium) (device : DeviceId)
    (accepts : Call → Prop) : Prop :=
  ∀ c, accepts c → ∀ s, ∃ s', driver c s = (.ok (c.effect device (content s)).1, s') ∧
    content s' = (c.effect device (content s)).2

/-- The call reads whole units between two addresses. -/
def WholeRead (unit low high : Nat) : Call → Prop
  | .read address length =>
    unit ∣ address.toNat ∧ unit ∣ length ∧ low ≤ address.toNat ∧ address.toNat + length ≤ high
  | _ => False

/-- The call erases whole units between two addresses. -/
def WholeErase (unit low high : Nat) : Call → Prop
  | .erase start stop =>
    unit ∣ start.toNat ∧ unit ∣ stop.toNat ∧ start ≤ stop ∧ low ≤ start.toNat ∧ stop.toNat ≤ high
  | _ => False

/-- The driver of a medium that rejects nothing carries out every call. -/
theorem carriesOut_drive (device : DeviceId) (accepts : Call → Prop) :
    CarriesOut (drive device fun _ => none) id device accepts :=
  fun _ _ _ => ⟨_, rfl, rfl⟩

/-! ## Runs -/

variable {driver : Answers σ}

/-- A call is answered by the driver, whose faults become errors. -/
theorem run_call (driver : Answers σ) (c : Call) (s : σ) :
    (call c).run.run driver s = ((driver c s).1.mapError Error.device, (driver c s).2) :=
  rfl

/-- A sequence goes on where its first part has succeeded. -/
theorem run_bind_of_ok {x : Drive β} {b : β} {s t : σ} (h : x.run.run driver s = (.ok b, t))
    (k : β → Drive α) : (x >>= k).run.run driver s = (k b).run.run driver t := by
  rw [ExceptT.run_bind, Script.run_bind]
  have first (y : StateM σ (Except Error β)) (rest : Except Error β → StateM σ (Except Error α)) :
      (y >>= rest) s = rest (y s).1 (y s).2 := rfl
  rw [first, h]

/-! ## Calls -/

variable {allowed : Call → Prop}

theorem only_call {c : Call} (h : allowed c) : (call c).run.Only (I := Driver) allowed :=
  ⟨h, fun _ => trivial⟩

theorem only_bind {x : Drive β} {k : β → Drive α} (h : x.run.Only (I := Driver) allowed)
    (hk : ∀ b, (k b).run.Only (I := Driver) allowed) :
    (x >>= k).run.Only (I := Driver) allowed := by
  rw [ExceptT.run_bind]
  refine Script.Only.bind h fun result => ?_
  cases result with
  | ok b => exact hk b
  | error e => trivial

/-! ## Drivers that work -/

variable {content : σ → Medium} {device : DeviceId} {accepts : Call → Prop}

/-- A call that is accepted has its effect. -/
theorem CarriesOut.run_call (works : CarriesOut driver content device accepts) {c : Call}
    (h : accepts c) (s : σ) :
    ∃ s', (call c).run.run driver s = (.ok (c.effect device (content s)).1, s') ∧
      content s' = (c.effect device (content s)).2 := by
  obtain ⟨s', answer, after⟩ := works c h s
  refine ⟨s', ?_, after⟩
  rw [NorFlash.run_call, answer]
  rfl

end TwinLog.NorFlash
