-- SUMMARY: Interaction scripts: programs that send requests and branch on the replies.

/-! # Scripts

A script is a tree: it either is done with a result or sends a request and continues with the
reply. A script fixes nothing about who answers, so the same script runs on a real device, on a
simulated one, and on every behaviour a device might show. Scripts are well-founded trees, hence
every run ends. -/

namespace TwinLog

/-- The requests that can be sent and the type of the reply to each. -/
structure Interface where
  Request : Type
  Reply : Request → Type

/-- A program that sends requests over `I` and ends with an `α`. -/
inductive Script (I : Interface) (α : Type) where
  | done (result : α)
  | call (request : I.Request) (next : I.Reply request → Script I α)

namespace Script

variable {I : Interface} {α β γ : Type}

/-- Sends one request and returns its reply. -/
def ask (I : Interface) (request : I.Request) : Script I (I.Reply request) :=
  .call request .done

/-! ## Sequencing -/

def bind : Script I α → (α → Script I β) → Script I β
  | .done a, k => k a
  | .call request next, k => .call request fun reply => (next reply).bind k

instance : Monad (Script I) where
  pure := .done
  bind := Script.bind

@[simp] theorem pure_eq (a : α) : (pure a : Script I α) = .done a := rfl

@[simp] theorem done_bind (a : α) (k : α → Script I β) : (Script.done a >>= k) = k a := rfl

@[simp] theorem call_bind (request : I.Request) (next : I.Reply request → Script I α)
    (k : α → Script I β) :
    (Script.call request next >>= k) = .call request fun reply => next reply >>= k := rfl

theorem bind_done (s : Script I α) : (s >>= Script.done) = s := by
  induction s with
  | done a => rfl
  | call request next ih => simp only [call_bind, ih]

theorem bind_assoc (s : Script I α) (f : α → Script I β) (g : β → Script I γ) :
    ((s >>= f) >>= g) = s >>= fun a => f a >>= g := by
  induction s with
  | done a => rfl
  | call request next ih => simp only [call_bind, ih]

instance : LawfulMonad (Script I) :=
  LawfulMonad.mk' (Script I) (fun s => bind_done s) (fun _ _ => rfl) bind_assoc

/-! ## Running -/

/-- Runs a script with every request answered by `answer`. -/
def run {m : Type → Type} [Monad m] (answer : (request : I.Request) → m (I.Reply request)) :
    Script I α → m α
  | .done a => pure a
  | .call request next => answer request >>= fun reply => (next reply).run answer

section Run

variable {m : Type → Type} [Monad m] (answer : (request : I.Request) → m (I.Reply request))

@[simp] theorem run_done (a : α) : (Script.done a : Script I α).run answer = pure a := rfl

@[simp] theorem run_call (request : I.Request) (next : I.Reply request → Script I α) :
    (Script.call request next).run answer = answer request >>= fun reply => (next reply).run answer :=
  rfl

@[simp] theorem run_ask [LawfulMonad m] (request : I.Request) :
    (ask I request).run answer = answer request := by
  simp [ask]

/-- Running a sequence runs its parts one after the other. -/
@[simp] theorem run_bind [LawfulMonad m] (s : Script I α) (k : α → Script I β) :
    (s >>= k).run answer = s.run answer >>= fun a => (k a).run answer := by
  induction s with
  | done a => simp
  | call request next ih => simp [ih]

end Run

end Script

end TwinLog
