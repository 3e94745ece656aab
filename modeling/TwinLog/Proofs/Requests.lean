-- SUMMARY: The requests of scripts: those that a run makes, and bounds on those of all runs.
import TwinLog.Proofs.Wp

/-! # Requests of scripts

`Script.trace` lists the requests of a run in order, and `Script.Executes` says how a run ends and
which requests it makes on the way. `Script.Only` bounds the requests of a script whatever the
replies are. A script that is bound to some requests runs on every device that answers these as
its server may (`Script.Only.run`), whatever the device keeps besides and does with other
requests. -/

namespace TwinLog

namespace Script

variable {I : Interface} {σ τ α β : Type} {allowed : I.Request → Prop}

/-! ## Bounds -/

/-- Whatever the replies, the script makes allowed requests only. -/
def Only (allowed : I.Request → Prop) : Script I α → Prop
  | .done _ => True
  | .call request next => allowed request ∧ ∀ reply, (next reply).Only allowed

namespace Only

theorem done (a : α) : (Script.done a : Script I α).Only allowed :=
  trivial

theorem bind {x : Script I β} {k : β → Script I α} (h : x.Only allowed)
    (hk : ∀ b, (k b).Only allowed) : (x >>= k).Only allowed := by
  induction x with
  | done b => exact hk b
  | call request next ih => exact ⟨h.1, fun reply => ih reply (h.2 reply)⟩

theorem mono {x : Script I α} {allowed' : I.Request → Prop} (h : x.Only allowed)
    (le : ∀ request, allowed request → allowed' request) : x.Only allowed' := by
  induction x with
  | done a => trivial
  | call request next ih => exact ⟨le request h.1, fun reply => ih reply (h.2 reply)⟩

/-- Every script makes some requests. -/
theorem all (x : Script I α) : x.Only fun _ => True := by
  induction x with
  | done a => trivial
  | call request next ih => exact ⟨trivial, ih⟩

end Only

/-! ## Results -/

/-- Whatever the replies, the script ends with a result that meets `post`. -/
def Ends (post : α → Prop) : Script I α → Prop
  | .done a => post a
  | .call _ next => ∀ reply, (next reply).Ends post

namespace Ends

variable {post : α → Prop}

/-- Every script ends somehow. -/
theorem all (x : Script I α) : x.Ends fun _ => True := by
  induction x with
  | done a => trivial
  | call request next ih => exact ih

theorem bind {pre : β → Prop} {x : Script I β} {k : β → Script I α} (h : x.Ends pre)
    (hk : ∀ b, pre b → (k b).Ends post) : (x >>= k).Ends post := by
  induction x with
  | done b => exact hk b h
  | call request next ih => exact fun reply => ih reply (h reply)

/-- Sequences are the same if they go on alike with every result that there can be. -/
theorem bind_congr {pre : β → Prop} {x : Script I β} (h : x.Ends pre) {k k' : β → Script I α}
    (same : ∀ b, pre b → k b = k' b) : (x >>= k) = (x >>= k') := by
  induction x with
  | done b => exact same b h
  | call request next ih =>
    exact congrArg (Script.call request) (funext fun reply => ih reply (h reply))

theorem run {x : Script I α} (h : x.Ends post)
    (answer : (request : I.Request) → StateM σ (I.Reply request)) (s : σ) :
    post (x.run answer s).1 := by
  induction x generalizing s with
  | done a => exact h
  | call request next ih => exact ih _ (h _) _

end Ends

/-! ## Traces -/

section Trace

variable (answer : (request : I.Request) → StateM σ (I.Reply request))

/-- The requests that a run makes, in order. -/
def trace : Script I α → σ → List I.Request
  | .done _, _ => []
  | .call request next, s => request :: (next (answer request s).1).trace (answer request s).2

/-- A sequence makes the requests of its first part and then those of the rest. -/
@[simp] theorem trace_bind (x : Script I β) (k : β → Script I α) (s : σ) :
    (x >>= k).trace answer s =
      x.trace answer s ++ (k (x.run answer s).1).trace answer (x.run answer s).2 := by
  induction x generalizing s with
  | done b => rfl
  | call request next ih => exact congrArg (request :: ·) (ih _ _)

variable {answer}

/-- Every request of a run is among those that the script is bound to. -/
theorem Only.trace {x : Script I α} (h : x.Only allowed) {s : σ} :
    ∀ request ∈ x.trace answer s, allowed request := by
  induction x generalizing s with
  | done a => exact nofun
  | call request next ih =>
    intro other mem
    rcases List.mem_cons.1 mem with rfl | later
    · exact h.1
    · exact ih _ (h.2 _) other later

end Trace

/-- A run from `s` ends with `a` in `t`, after the requests. -/
structure Executes (answer : (request : I.Request) → StateM σ (I.Reply request)) (x : Script I α)
    (s : σ) (a : α) (t : σ) (requests : List I.Request) : Prop where
  run_eq : x.run answer s = (a, t)
  trace_eq : x.trace answer s = requests

namespace Executes

variable {answer : (request : I.Request) → StateM σ (I.Reply request)} {s t u : σ}
  {requests requests' : List I.Request}

theorem done (a : α) : (Script.done a : Script I α).Executes answer s a s [] :=
  ⟨rfl, rfl⟩

theorem bind {x : Script I β} {k : β → Script I α} {b : β} {a : α}
    (h : x.Executes answer s b t requests) (hk : (k b).Executes answer t a u requests') :
    (x >>= k).Executes answer s a u (requests ++ requests') := by
  constructor
  · rw [run_bind]
    show (k (x.run answer s).1).run answer (x.run answer s).2 = _
    rw [h.run_eq]
    exact hk.run_eq
  · rw [trace_bind, h.run_eq, h.trace_eq, hk.trace_eq]

end Executes

/-! ## Other devices -/

/-- What holds of every run holds of a run on a device that the server is a view of, as far as the
script goes. -/
theorem Only.run {server : Server I σ} {post : α → σ → Prop} {crash : σ → Prop} {view : τ → σ}
    {answer : (request : I.Request) → StateM τ (I.Reply request)}
    (hanswer : ∀ request, allowed request → ∀ t,
      server.replies request (view t) (answer request t).1 (view (answer request t).2))
    {x : Script I α} (only : x.Only allowed) (t : τ) (h : x.wp server post crash (view t)) :
    post (x.run answer t).1 (view (x.run answer t).2) := by
  induction x generalizing t with
  | done a => exact h
  | call request next ih => exact ih _ (only.2 _) _ (h.2 _ _ (hanswer request only.1 t))

/-- What every answer keeps, a run keeps. -/
theorem Only.run_keeps {P : σ → Prop}
    {answer : (request : I.Request) → StateM σ (I.Reply request)}
    (hanswer : ∀ request, allowed request → ∀ s, P s → P (answer request s).2)
    {x : Script I α} (only : x.Only allowed) {s : σ} (start : P s) :
    P (x.run answer s).2 := by
  induction x generalizing s with
  | done a => exact start
  | call request next ih => exact ih _ (only.2 _) (hanswer request only.1 s start)

/-- A script whose requests leave the state as it is leaves it as it is. -/
theorem Only.run_unchanged {answer : (request : I.Request) → StateM σ (I.Reply request)}
    (hanswer : ∀ request, allowed request → ∀ s, (answer request s).2 = s)
    {x : Script I α} (only : x.Only allowed) (s : σ) : (x.run answer s).2 = s := by
  refine only.run_keeps (P := fun t => t = s) ?_ rfl
  rintro request h _ rfl
  exact hanswer request h _

/-- Two devices that answer alike in related states, and are related again after it, end related
with the same result. -/
theorem Only.run_related {R : σ → τ → Prop}
    {answer : (request : I.Request) → StateM σ (I.Reply request)}
    {answer' : (request : I.Request) → StateM τ (I.Reply request)}
    (hanswer : ∀ request, allowed request → ∀ s t, R s t →
      (answer request s).1 = (answer' request t).1 ∧
        R (answer request s).2 (answer' request t).2)
    {x : Script I α} (only : x.Only allowed) {s : σ} {t : τ} (start : R s t) :
    (x.run answer s).1 = (x.run answer' t).1 ∧ R (x.run answer s).2 (x.run answer' t).2 := by
  induction x generalizing s t with
  | done a => exact ⟨rfl, start⟩
  | call request next ih =>
    obtain ⟨reply, after⟩ := hanswer request only.1 s t start
    have rest := ih (answer request s).1 (only.2 _) after
    have run : (Script.call request next).run answer' t =
        (next (answer' request t).1).run answer' (answer' request t).2 := rfl
    rw [run, ← reply]
    exact rest

end Script

/-! ## Accesses -/

namespace Access

variable {σ α β : Type} {allowed : Request → Prop}

/-- Whatever the replies, the access makes allowed requests only. -/
def Only (allowed : Request → Prop) (x : Access α) : Prop :=
  x.run.Only allowed

namespace Only

theorem pure (a : α) : (Pure.pure a : Access α).Only allowed :=
  trivial

theorem throw (e : Error) : (MonadExcept.throw e : Access α).Only allowed :=
  trivial

/-- A result that is known already makes no request. -/
theorem bind_ok {b : β} {k : β → Access α} (h : (k b).Only allowed) :
    ((liftM (Except.ok b : Except Error β) : Access β) >>= k).Only allowed :=
  h

theorem bind {x : Access β} {k : β → Access α} (h : x.Only allowed)
    (hk : ∀ b, (k b).Only allowed) : (x >>= k).Only allowed := by
  unfold Only
  rw [ExceptT.run_bind]
  refine Script.Only.bind h fun result => ?_
  cases result with
  | ok b => exact hk b
  | error e => trivial

theorem tryCatch {x : Access α} {handler : Error → Access α} (h : x.Only allowed)
    (hh : ∀ e, (handler e).Only allowed) : (MonadExcept.tryCatch x handler).Only allowed := by
  unfold Only
  rw [ExceptT.run_tryCatch]
  refine Script.Only.bind h fun result => ?_
  cases result with
  | ok a => trivial
  | error e => exact hh e

theorem perform {device : DeviceId} {operation : Operation} (h : allowed ⟨device, operation⟩) :
    (device.perform operation).Only allowed :=
  ⟨h, fun _ => trivial⟩

end Only

/-- Whatever the replies, the access fails or its result meets `post`. -/
def Ends (post : α → Prop) (x : Access α) : Prop :=
  x.run.Ends fun result => ∀ a, result = .ok a → post a

namespace Ends

variable {post : α → Prop}

theorem all (x : Access α) : x.Ends fun _ => True := by
  simpa only [Ends, implies_true] using Script.Ends.all x.run

theorem pure {a : α} (h : post a) : (Pure.pure a : Access α).Ends post := by
  rintro _ ⟨⟩
  exact h

theorem bind {x : Access β} {k : β → Access α} (hk : ∀ b, (k b).Ends post) :
    (x >>= k).Ends post := by
  unfold Ends
  rw [ExceptT.run_bind]
  refine (Script.Ends.all x.run).bind fun result _ => ?_
  cases result with
  | ok b => exact hk b
  | error e => exact nofun

theorem bind_congr {x : Access α} (h : x.Ends post) {k k' : α → Access β}
    (same : ∀ a, post a → k a = k' a) : (x >>= k) = (x >>= k') := by
  apply ExceptT.ext
  rw [ExceptT.run_bind, ExceptT.run_bind]
  refine Script.Ends.bind_congr h fun result met => ?_
  cases result with
  | ok a => exact congrArg ExceptT.run (same a (met a rfl))
  | error e => rfl

end Ends

/-- A run from `s` succeeds with `a` in `t`, after the requests. -/
def Executes (answer : (request : Bus.Request) → StateM σ (Bus.Reply request)) (x : Access α)
    (s : σ) (a : α) (t : σ) (requests : List Request) : Prop :=
  x.run.Executes answer s (.ok a) t requests

namespace Executes

variable {answer : (request : Bus.Request) → StateM σ (Bus.Reply request)} {s t u : σ}
  {requests requests' : List Request}

theorem pure (a : α) : (Pure.pure a : Access α).Executes answer s a s [] :=
  ⟨rfl, rfl⟩

/-- A result that is known already makes no request. -/
theorem bind_ok {b : β} {k : β → Access α} {a : α} (h : (k b).Executes answer s a t requests) :
    ((liftM (Except.ok b : Except Error β) : Access β) >>= k).Executes answer s a t requests :=
  h

theorem bind {x : Access β} {k : β → Access α} {b : β} {a : α}
    (h : x.Executes answer s b t requests) (hk : (k b).Executes answer t a u requests') :
    (x >>= k).Executes answer s a u (requests ++ requests') := by
  unfold Executes
  rw [ExceptT.run_bind]
  exact Script.Executes.bind h hk

theorem bind_pure {x : Access β} {b : β} (h : x.Executes answer s b t requests) (f : β → α) :
    (x >>= fun b => Pure.pure (f b)).Executes answer s (f b) t requests := by
  rw [← List.append_nil requests]
  exact .bind h (.pure (f b))

theorem tryCatch {x : Access α} {a : α} (h : x.Executes answer s a t requests)
    (handler : Error → Access α) :
    (MonadExcept.tryCatch x handler).Executes answer s a t requests := by
  unfold Executes
  rw [ExceptT.run_tryCatch, ← List.append_nil requests]
  exact Script.Executes.bind h (.done _)

/-- The handler takes over after an error, whatever it ends with. -/
theorem tryCatch_error {x : Access α} {handler : Error → Access α} {e : Error}
    {result : Except Error α} (h : x.run.Executes answer s (.error e) t requests)
    (hh : (handler e).run.Executes answer t result u requests') :
    (MonadExcept.tryCatch x handler).run.Executes answer s result u (requests ++ requests') := by
  rw [ExceptT.run_tryCatch]
  exact Script.Executes.bind h hh

theorem perform {device : DeviceId} {operation : Operation} {data : operation.Data}
    (h : answer ⟨device, operation⟩ s = (.ok data, t)) :
    (device.perform operation).Executes answer s data t [⟨device, operation⟩] :=
  ⟨h, rfl⟩

end Executes

end Access

end TwinLog
