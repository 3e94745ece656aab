-- SUMMARY: Weakest preconditions of scripts, with a condition for power loss on the way.
import TwinLog.Device

/-! # Weakest preconditions with power loss

A server says how requests are answered and what is left when power is lost during one. Against a
server, `Script.wp` asks that every run of a script ends in a postcondition and that every power
loss on the way leaves a crash condition. `Access.wp` is the same for scripts that may fail.
Main statements: `Script.wp_bind`, `Script.wp_run` and `Script.wp_cut`. -/

namespace TwinLog

/-- How requests are answered in the states of a world. -/
structure Server (I : Interface) (σ : Type) where
  /-- The replies to a request in a state, each with the state after it. -/
  replies : (request : I.Request) → σ → I.Reply request → σ → Prop
  /-- The states that are left when power is lost during a request. -/
  breaks : I.Request → σ → σ → Prop

namespace Script

variable {I : Interface} {σ α β : Type}

/-! ## Scripts -/

/-- Every run of the script ends in `post`, and every power loss on the way leaves `crash`. -/
def wp (server : Server I σ) : Script I α → (α → σ → Prop) → (σ → Prop) → σ → Prop
  | .done a, post, _, s => post a s
  | .call request next, post, crash, s =>
    (∀ t, server.breaks request s t → crash t) ∧
      ∀ reply t, server.replies request s reply t → (next reply).wp server post crash t

variable {server : Server I σ} {post : α → σ → Prop} {crash : σ → Prop} {s : σ}

@[simp] theorem wp_done (a : α) : (Script.done a : Script I α).wp server post crash s ↔ post a s :=
  Iff.rfl

theorem wp_call (request : I.Request) (next : I.Reply request → Script I α) :
    (Script.call request next).wp server post crash s ↔
      (∀ t, server.breaks request s t → crash t) ∧
        ∀ reply t, server.replies request s reply t → (next reply).wp server post crash t :=
  Iff.rfl

/-- A sequence meets a condition if its first part meets the condition of the rest. -/
@[simp] theorem wp_bind (x : Script I β) (k : β → Script I α) :
    (x >>= k).wp server post crash s ↔
      x.wp server (fun b t => (k b).wp server post crash t) crash s := by
  induction x generalizing s with
  | done b => rfl
  | call request next ih => simp only [call_bind, wp_call, ih]

/-- Weaker conditions are met, too. -/
theorem wp_mono {x : Script I α} {post' : α → σ → Prop} {crash' : σ → Prop}
    (h : x.wp server post crash s) (hpost : ∀ a t, post a t → post' a t)
    (hcrash : ∀ t, crash t → crash' t) : x.wp server post' crash' s := by
  induction x generalizing s with
  | done a => exact hpost a s h
  | call request next ih =>
    obtain ⟨hbreaks, hreplies⟩ := h
    exact ⟨fun t ht => hcrash t (hbreaks t ht), fun reply t ht => ih reply (hreplies reply t ht)⟩

/-! ## Runs -/

/-- What holds of every run holds of the run with given answers. -/
theorem wp_run {answer : (request : I.Request) → StateM σ (I.Reply request)}
    (hanswer : ∀ request s, server.replies request s (answer request s).1 (answer request s).2)
    {x : Script I α} (h : x.wp server post crash s) :
    post (x.run answer s).1 (x.run answer s).2 := by
  induction x generalizing s with
  | done a => exact h
  | call request next ih => exact ih _ (h.2 _ _ (hanswer request s))

/-- Runs a script until power is lost during the request after the first `calls` ones, which
leaves what `tear` says. Without a result, power was lost before the end. -/
def cut (answer : (request : I.Request) → StateM σ (I.Reply request)) (tear : I.Request → σ → σ) :
    Nat → Script I α → σ → Option α × σ
  | _, .done a, s => (some a, s)
  | 0, .call request _, s => (none, tear request s)
  | calls + 1, .call request next, s =>
    let (reply, t) := answer request s
    (next reply).cut answer tear calls t

/-- The first request of a script, if it makes one. -/
def first? : Script I α → Option I.Request
  | .done _ => none
  | .call request _ => some request

theorem first?_bind {x : Script I β} {request : I.Request} (h : x.first? = some request)
    (k : β → Script I α) : (x >>= k).first? = some request := by
  cases x with
  | done b => cases h
  | call _ next => exact h

/-- A run that is cut during the first request. -/
theorem cut_zero {answer : (request : I.Request) → StateM σ (I.Reply request)}
    {tear : I.Request → σ → σ} {x : Script I α} {request : I.Request}
    (h : x.first? = some request) (s : σ) : x.cut answer tear 0 s = (none, tear request s) := by
  cases x with
  | done a => cases h
  | call _ next =>
    cases h
    rfl

/-- What holds of every run and of every power loss holds of a run that is cut. -/
theorem wp_cut {answer : (request : I.Request) → StateM σ (I.Reply request)}
    {tear : I.Request → σ → σ}
    (hanswer : ∀ request s, server.replies request s (answer request s).1 (answer request s).2)
    (htear : ∀ request s, server.breaks request s (tear request s))
    {x : Script I α} (h : x.wp server post crash s) (calls : Nat) :
    match x.cut answer tear calls s with
    | (some a, t) => post a t
    | (none, t) => crash t := by
  induction x generalizing s calls with
  | done a => cases calls <;> exact h
  | call request next ih =>
    cases calls with
    | zero => exact h.1 _ (htear request s)
    | succ calls => exact ih _ (h.2 _ _ (hanswer request s)) calls

end Script

/-! ## Accesses -/

namespace Access

variable {σ α β : Type}

/-- Every run of the access succeeds with `ok` or fails with `err`, and every power loss on the
way leaves `crash`. -/
def wp (server : Server Bus σ) (x : Access α) (ok : α → σ → Prop) (err : Error → σ → Prop)
    (crash : σ → Prop) (s : σ) : Prop :=
  x.run.wp server (fun result t =>
    match result with
    | .ok a => ok a t
    | .error e => err e t) crash s

variable {server : Server Bus σ} {ok : α → σ → Prop} {err : Error → σ → Prop} {crash : σ → Prop}
  {s : σ}

/-- The script of an access meets what the access meets with its result. -/
theorem wp_run {x : Access α} {post : Except Error α → σ → Prop} :
    x.run.wp server post crash s ↔
      wp server x (fun a => post (.ok a)) (fun e => post (.error e)) crash s := by
  unfold wp
  refine iff_of_eq (congrArg (fun post => x.run.wp server post crash s) ?_)
  funext result t
  cases result <;> rfl

@[simp] theorem wp_pure (a : α) : wp server (pure a : Access α) ok err crash s ↔ ok a s :=
  Iff.rfl

@[simp] theorem wp_throw (e : Error) : wp server (throw e : Access α) ok err crash s ↔ err e s :=
  Iff.rfl

@[simp] theorem wp_bind (x : Access β) (k : β → Access α) :
    wp server (x >>= k) ok err crash s ↔
      wp server x (fun b t => wp server (k b) ok err crash t) err crash s := by
  unfold wp
  rw [ExceptT.run_bind, Script.wp_bind]
  refine iff_of_eq (congrArg (fun post => x.run.wp server post crash s) ?_)
  funext result t
  cases result <;> rfl

@[simp] theorem wp_tryCatch (x : Access α) (handler : Error → Access α) :
    wp server (tryCatch x handler) ok err crash s ↔
      wp server x ok (fun e t => wp server (handler e) ok err crash t) crash s := by
  unfold wp
  rw [ExceptT.run_tryCatch, Script.wp_bind]
  refine iff_of_eq (congrArg (fun post => x.run.wp server post crash s) ?_)
  funext result t
  cases result <;> rfl

@[simp] theorem wp_ok (a : α) :
    wp server (liftM (Except.ok a : Except Error α) : Access α) ok err crash s ↔ ok a s :=
  Iff.rfl

@[simp] theorem wp_error (e : Error) :
    wp server (liftM (Except.error e : Except Error α) : Access α) ok err crash s ↔ err e s :=
  Iff.rfl

theorem wp_mono {x : Access α} {ok' : α → σ → Prop} {err' : Error → σ → Prop}
    {crash' : σ → Prop} (h : wp server x ok err crash s) (hok : ∀ a t, ok a t → ok' a t)
    (herr : ∀ e t, err e t → err' e t) (hcrash : ∀ t, crash t → crash' t) :
    wp server x ok' err' crash' s := by
  refine Script.wp_mono h (fun result t ht => ?_) hcrash
  cases result with
  | ok a => exact hok a t ht
  | error e => exact herr e t ht

/-- An operation meets a condition if each of its replies does. -/
theorem wp_perform (device : DeviceId) (operation : Operation)
    {ok : operation.Data → σ → Prop} :
    wp server (device.perform operation) ok err crash s ↔
      (∀ t, server.breaks ⟨device, operation⟩ s t → crash t) ∧
        ∀ reply t, server.replies ⟨device, operation⟩ s reply t →
          match reply with
          | .ok data => ok data t
          | .error e => err e t := by
  refine and_congr_right fun _ => forall_congr' fun reply => ?_
  cases reply <;> rfl

end Access

end TwinLog
