-- SUMMARY: Interrupted runs: what a script goes on with if one of its requests fails.
import TwinLog.Proofs.Requests

/-! # Interruptions

A run may be interrupted at each of its requests, which then fails instead of being answered
(`Script.interruption`). What the script goes on with is a script again. On devices of which one
request fails, a run is as usual up to that request and goes on with that script from there
(`Script.run_failingAt`). `Access.Breaks` says of what kind all interruptions of a run are. -/

namespace TwinLog

variable {σ α β : Type}

/-- A request that a run is about to make. -/
structure Interruption (σ α : Type) where
  request : Request
  /-- What the script goes on with if the request fails. -/
  after : Error → Script Bus α
  /-- The state of the devices, which a request that fails does not change. -/
  state : σ

/-- The interruption of the first part of a sequence interrupts the sequence. -/
def Interruption.bind (i : Interruption σ β) (k : β → Script Bus α) : Interruption σ α where
  request := i.request
  after e := i.after e >>= k
  state := i.state

namespace Script

variable {answer : (request : Bus.Request) → StateM σ (Bus.Reply request)}

section Interruption

variable (answer)

/-- A run is interrupted after `n` requests, if it makes another one. -/
def interruption : Script Bus α → σ → Nat → Option (Interruption σ α)
  | .done _, _, _ => none
  | .call request next, s, 0 => some ⟨request, fun e => next (.error e), s⟩
  | .call request next, s, n + 1 =>
    (next (answer request s).1).interruption (answer request s).2 n

theorem trace_getElem? (x : Script Bus α) (s : σ) (n : Nat) :
    (x.trace answer s)[n]? = (x.interruption answer s n).map (·.request) := by
  induction x generalizing s n with
  | done a => rfl
  | call request next ih =>
    cases n with
    | zero => rfl
    | succ n => exact ih _ _ n

/-- A sequence is interrupted in its first part or in the rest. -/
theorem interruption_bind (x : Script Bus β) (k : β → Script Bus α) (s : σ) (n : Nat) :
    (x >>= k).interruption answer s n =
      if n < (x.trace answer s).length then (x.interruption answer s n).map (·.bind k)
      else (k (x.run answer s).1).interruption answer (x.run answer s).2
        (n - (x.trace answer s).length) := by
  induction x generalizing s n with
  | done b => rfl
  | call request next ih =>
    cases n with
    | zero => rfl
    | succ n =>
      have length : (trace answer (.call request next) s).length =
          ((next (answer request s).1).trace answer (answer request s).2).length + 1 := rfl
      rw [length, Nat.add_sub_add_right]
      simp only [Nat.add_lt_add_iff_right]
      exact ih _ _ n

end Interruption

/-- A script that leaves a part of the state alone has left it alone when it is interrupted. -/
theorem Only.interruption_state {τ : Type} {allowed : Request → Prop} {view : σ → τ}
    (keeps : ∀ request, allowed request → ∀ s, view (answer request s).2 = view s)
    {x : Script Bus α} (only : x.Only allowed) {s : σ} {n : Nat} {i : Interruption σ α}
    (h : x.interruption answer s n = some i) : view i.state = view s := by
  induction x generalizing s n with
  | done a => cases h
  | call request next ih =>
    cases n with
    | zero =>
      cases h
      rfl
    | succ n => exact (ih _ (only.2 _) h).trans (keeps request only.1 s)

/-! ## Devices of which a request fails -/

/-- Devices of which the request after `n` others fails and changes nothing. The requests are
counted. -/
def failingAt (n : Nat) (e : Error)
    (answer : (request : Bus.Request) → StateM σ (Bus.Reply request)) (request : Bus.Request) :
    StateM (σ × Nat) (Bus.Reply request) := fun (s, calls) =>
  if calls = n then (.error e, s, calls + 1)
  else
    let (reply, s') := answer request s
    (reply, s', calls + 1)

theorem failingAt_self (n : Nat) (e : Error) (request : Bus.Request) (s : σ) :
    failingAt n e answer request (s, n) = (.error e, s, n + 1) :=
  if_pos rfl

theorem failingAt_of_ne {n calls : Nat} (other : calls ≠ n) (e : Error) (request : Bus.Request)
    (s : σ) : failingAt n e answer request (s, calls) =
      ((answer request s).1, (answer request s).2, calls + 1) :=
  if_neg other

/-- Once the request has failed, the devices are as usual. -/
theorem run_failingAt_of_lt (x : Script Bus α) {n calls : Nat} (past : n < calls) (e : Error)
    (s : σ) : x.run (failingAt n e answer) (s, calls) =
      ((x.run answer s).1, (x.run answer s).2, calls + (x.trace answer s).length) := by
  induction x generalizing s calls with
  | done a => rfl
  | call request next ih =>
    show Script.run (failingAt n e answer) (next (failingAt n e answer request (s, calls)).1)
      (failingAt n e answer request (s, calls)).2 = _
    have index : calls + (trace answer (.call request next) s).length = calls + 1 +
        ((next (answer request s).1).trace answer (answer request s).2).length := by
      show calls + (_ + 1) = _
      omega
    rw [failingAt_of_ne (by omega), index]
    exact ih _ (by omega) _

/-- A run is as usual up to the request that fails, and goes on with what the script does then. -/
theorem run_failingAt {x : Script Bus α} {s : σ} {n : Nat} {i : Interruption σ α}
    (h : x.interruption answer s n = some i) (e : Error) (calls : Nat) :
    x.run (failingAt (calls + n) e answer) (s, calls) =
      (((i.after e).run answer i.state).1, ((i.after e).run answer i.state).2,
        calls + n + 1 + ((i.after e).trace answer i.state).length) := by
  induction x generalizing s n calls with
  | done a => cases h
  | call request next ih =>
    show Script.run (failingAt (calls + n) e answer)
      (next (failingAt (calls + n) e answer request (s, calls)).1)
      (failingAt (calls + n) e answer request (s, calls)).2 = _
    cases n with
    | zero =>
      cases h
      rw [Nat.add_zero, failingAt_self]
      exact run_failingAt_of_lt _ (Nat.lt_succ_self calls) e s
    | succ n =>
      have index : calls + (n + 1) = calls + 1 + n := by omega
      rw [failingAt_of_ne (by omega), index]
      exact ih _ h (calls + 1)

end Script

/-! ## Accesses -/

namespace Interruption

/-- The access ends at once with an error, if the request fails with it. -/
def Raises (i : Interruption σ (Except Error α)) (e : Error) : Prop :=
  i.after e = .done (.error e)

def andThen (i : Interruption σ (Except Error β)) (k : β → Access α) :
    Interruption σ (Except Error α) where
  request := i.request
  after e := (ExceptT.mk (i.after e) >>= k).run
  state := i.state

def orElse (i : Interruption σ (Except Error α)) (handler : Error → Access α) :
    Interruption σ (Except Error α) where
  request := i.request
  after e := (tryCatch (ExceptT.mk (i.after e)) handler).run
  state := i.state

theorem Raises.andThen {i : Interruption σ (Except Error β)} {e : Error} (raises : i.Raises e)
    (k : β → Access α) : (i.andThen k).Raises e := by
  show (ExceptT.mk (i.after e) >>= k).run = _
  rw [raises]
  rfl

/-- The handler goes on with an error that is raised. -/
theorem Raises.after_orElse {i : Interruption σ (Except Error α)} {e : Error} (raises : i.Raises e)
    (handler : Error → Access α) : (i.orElse handler).after e = (handler e).run := by
  show (tryCatch (ExceptT.mk (i.after e)) handler).run = _
  rw [raises]
  rfl

end Interruption

namespace Access

variable {answer : (request : Bus.Request) → StateM σ (Bus.Reply request)}
  {kind kind' : Interruption σ (Except Error α) → Prop} {s : σ}

/-- Every interruption of the run from a state is of a kind. -/
def Breaks (answer : (request : Bus.Request) → StateM σ (Bus.Reply request)) (s : σ)
    (kind : Interruption σ (Except Error α) → Prop) (x : Access α) : Prop :=
  ∀ n i, x.run.interruption answer s n = some i → kind i

/-- A sequence is interrupted in its first part or in the rest. -/
theorem interruption_bind (x : Access β) (k : β → Access α) (n : Nat) :
    (x >>= k).run.interruption answer s n =
      if n < (x.run.trace answer s).length then (x.run.interruption answer s n).map (·.andThen k)
      else
        match (x.run.run answer s).1 with
        | .ok b => (k b).run.interruption answer (x.run.run answer s).2
            (n - (x.run.trace answer s).length)
        | .error _ => none := by
  rw [ExceptT.run_bind, Script.interruption_bind]
  split
  · rfl
  · cases (x.run.run answer s).1 <;> rfl

namespace Breaks

theorem pure (a : α) : (Pure.pure a : Access α).Breaks answer s kind :=
  nofun

theorem throw (e : Error) : (MonadExcept.throw e : Access α).Breaks answer s kind :=
  nofun

theorem mono {x : Access α} (h : x.Breaks answer s kind) (le : ∀ i, kind i → kind' i) :
    x.Breaks answer s kind' :=
  fun n i found => le i (h n i found)

theorem perform (device : DeviceId) (operation : Operation)
    {kind : Interruption σ (Except Error operation.Data) → Prop}
    (h : kind ⟨⟨device, operation⟩, fun e => .done (.error e), s⟩) :
    (device.perform operation).Breaks answer s kind := by
  intro n i found
  cases n with
  | zero =>
    cases found
    exact h
  | succ n => cases found

/-- A result that is known already makes no request. -/
theorem bind_ok {b : β} {k : β → Access α} (h : (k b).Breaks answer s kind) :
    ((liftM (Except.ok b : Except Error β) : Access β) >>= k).Breaks answer s kind :=
  h

theorem bind {x : Access β} {k : β → Access α}
    (h : x.Breaks answer s fun i => kind (i.andThen k))
    (hk : ∀ b, (x.run.run answer s).1 = .ok b →
      (k b).Breaks answer (x.run.run answer s).2 kind) : (x >>= k).Breaks answer s kind := by
  intro n i found
  rw [interruption_bind] at found
  split at found
  · obtain ⟨first, here, rfl⟩ := Option.map_eq_some_iff.1 found
    exact h n first here
  · split at found
    · rename_i b ended
      exact hk b ended _ i found
    · cases found

/-- A handler that makes no request is not interrupted itself. -/
theorem tryCatch {x : Access α} {handler : Error → Access α}
    (h : x.Breaks answer s fun i => kind (i.orElse handler))
    (hh : ∀ e, ∃ result, handler e = ExceptT.mk (.done result)) :
    (MonadExcept.tryCatch x handler).Breaks answer s kind := by
  intro n i found
  rw [ExceptT.run_tryCatch, Script.interruption_bind] at found
  split at found
  · obtain ⟨first, here, rfl⟩ := Option.map_eq_some_iff.1 found
    exact h n first here
  · split at found
    · cases found
    · rename_i e _
      obtain ⟨result, ends⟩ := hh e
      rw [ends] at found
      cases found

end Breaks

end Access

end TwinLog
