-- SUMMARY: Errors that end a script: scripts that stop at an error of a device and return it.
import TwinLog.Proofs.Requests

/-! # Raised errors

A script raises an error of a device if the error ends it at once, and its result tells of the
error. -/

namespace TwinLog

variable {α β : Type} {counts : Error → Prop}

namespace Script

/-- Whatever the replies, an error that counts ends the script at once, with a result that tells of
it. -/
def Raises (counts : Error → Prop) (raised : Error → α → Prop) : Script Bus α → Prop
  | .done _ => True
  | .call _ next =>
    (∀ e, counts e → ∃ a, next (.error e) = .done a ∧ raised e a) ∧
      ∀ reply, (next reply).Raises counts raised

namespace Raises

variable {raised : Error → α → Prop}

theorem mono {raised' : Error → α → Prop} {x : Script Bus α} (h : x.Raises counts raised)
    (le : ∀ e a, counts e → raised e a → raised' e a) : x.Raises counts raised' := by
  induction x with
  | done a => trivial
  | call request next ih =>
    refine ⟨fun e counted => ?_, fun reply => ih reply (h.2 reply)⟩
    obtain ⟨a, same, tells⟩ := h.1 e counted
    exact ⟨a, same, le e a counted tells⟩

/-- In a sequence, the rest makes no request after an error. -/
theorem bind {x : Script Bus β} {k : β → Script Bus α}
    (h : x.Raises counts fun e b => ∃ a, k b = .done a ∧ raised e a)
    (hk : ∀ b, (k b).Raises counts raised) : (x >>= k).Raises counts raised := by
  induction x with
  | done b => exact hk b
  | call request next ih =>
    refine ⟨fun e counted => ?_, fun reply => ih reply (h.2 reply)⟩
    obtain ⟨b, same, a, ends, tells⟩ := h.1 e counted
    refine ⟨a, ?_, tells⟩
    show (next (.error e) >>= k) = _
    rw [same, done_bind, ends]

end Raises

end Script

/-! ## Accesses -/

namespace Access

/-- Whatever the replies, an error that counts ends the access at once and is what it fails with. -/
def Raises (counts : Error → Prop) (x : Access α) : Prop :=
  x.run.Raises counts fun e result => result = .error e

namespace Raises

theorem pure (a : α) : (Pure.pure a : Access α).Raises counts :=
  trivial

theorem throw (e : Error) : (MonadExcept.throw e : Access α).Raises counts :=
  trivial

theorem perform (device : DeviceId) (operation : Operation) :
    (device.perform operation).Raises counts :=
  ⟨fun _ _ => ⟨_, rfl, rfl⟩, fun _ => trivial⟩

theorem bind_ok {b : β} {k : β → Access α} (h : (k b).Raises counts) :
    ((liftM (Except.ok b : Except Error β) : Access β) >>= k).Raises counts :=
  h

theorem bind {x : Access β} {k : β → Access α} (h : x.Raises counts)
    (hk : ∀ b, (k b).Raises counts) : (x >>= k).Raises counts := by
  unfold Raises
  rw [ExceptT.run_bind]
  refine Script.Raises.bind (Script.Raises.mono h ?_) fun result => ?_
  · rintro e _ - rfl
    exact ⟨_, rfl, rfl⟩
  · cases result with
    | ok b => exact hk b
    | error e => trivial

/-- Errors that the handler throws again are raised. -/
theorem tryCatch {x : Access α} {handler : Error → Access α} (h : x.Raises counts)
    (again : ∀ e, counts e → handler e = MonadExcept.throw e)
    (hh : ∀ e, (handler e).Raises counts) : (MonadExcept.tryCatch x handler).Raises counts := by
  unfold Raises
  rw [ExceptT.run_tryCatch]
  refine Script.Raises.bind (Script.Raises.mono h ?_) fun result => ?_
  · rintro e _ counted rfl
    refine ⟨.error e, ?_, rfl⟩
    show (handler e).run = _
    rw [again e counted]
    rfl
  · cases result with
    | ok a => trivial
    | error e => exact hh e

end Raises

end Access

end TwinLog
