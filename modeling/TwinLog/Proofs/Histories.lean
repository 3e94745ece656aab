-- SUMMARY: Histories of scripts: the requests of a run with the replies that they got.
import TwinLog.Proofs.Raising

/-! # Histories

A script yields a history if some devices answer its requests with the replies of the history. What
holds of every history holds of every run, whatever the devices do. The history of a sequence is
that of its first part followed by that of the rest (`Script.yields_bind`), and a history has
nothing behind an error that is raised (`Script.Raises.of_yields`). Over all its histories, an access
may be bound to a number of requests (`Access.AtMost`) and to some errors of its own
(`Access.Fails`). -/

namespace TwinLog

structure Exchange (I : Interface) where
  request : I.Request
  reply : I.Reply request

/-- The error that a device replied, if it did. -/
def Exchange.error? (x : Exchange Bus) : Option Error :=
  match x.reply with
  | .ok _ => none
  | .error e => some e

theorem Exchange.reply_eq {x : Exchange Bus} {e : Error} (h : x.error? = some e) :
    x.reply = .error e := by
  unfold error? at h
  split at h
  · cases h
  · rename_i same
    cases h
    exact same

namespace Script

variable {I : Interface} {σ α β : Type}

/-! ## Scripts -/

/-- The script ends with a result after the exchanges of a history. -/
inductive Yields : Script I α → List (Exchange I) → α → Prop where
  | done (a : α) : Yields (.done a) [] a
  | call {request : I.Request} {next : I.Reply request → Script I α} (reply : I.Reply request)
      {history : List (Exchange I)} {a : α} (rest : Yields (next reply) history a) :
      Yields (.call request next) (⟨request, reply⟩ :: history) a

theorem yields_done {b a : α} {history : List (Exchange I)} :
    (Script.done b).Yields history a ↔ history = [] ∧ a = b := by
  constructor
  · intro h
    cases h
    exact ⟨rfl, rfl⟩
  · rintro ⟨rfl, rfl⟩
    exact .done a

theorem yields_call {request : I.Request} {next : I.Reply request → Script I α} {a : α}
    {history : List (Exchange I)} :
    (Script.call request next).Yields history a ↔
      ∃ reply rest, history = ⟨request, reply⟩ :: rest ∧ (next reply).Yields rest a := by
  constructor
  · intro h
    cases h with
    | call reply rest => exact ⟨reply, _, rfl, rest⟩
  · rintro ⟨reply, rest, rfl, h⟩
    exact .call reply h

/-- The history of a sequence is that of its first part followed by that of the rest. -/
theorem yields_bind {x : Script I β} {k : β → Script I α} {history : List (Exchange I)} {a : α} :
    (x >>= k).Yields history a ↔
      ∃ b first rest, history = first ++ rest ∧ x.Yields first b ∧ (k b).Yields rest a := by
  constructor
  · intro h
    induction x generalizing history with
    | done b => exact ⟨b, [], history, rfl, .done b, h⟩
    | call request next ih =>
      obtain ⟨reply, later, rfl, behind⟩ := yields_call.1 h
      obtain ⟨b, first, rest, rfl, hx, hk⟩ := ih reply behind
      exact ⟨b, ⟨request, reply⟩ :: first, rest, rfl, .call reply hx, hk⟩
  · rintro ⟨b, first, rest, rfl, hx, hk⟩
    induction hx with
    | done b => exact hk
    | call reply _ ih => exact .call reply (ih hk)

def history (answer : (request : I.Request) → StateM σ (I.Reply request)) :
    Script I α → σ → List (Exchange I)
  | .done _, _ => []
  | .call request next, s =>
    ⟨request, (answer request s).1⟩ ::
      (next (answer request s).1).history answer (answer request s).2

/-- A run yields its history. -/
theorem yields_run (answer : (request : I.Request) → StateM σ (I.Reply request)) (x : Script I α)
    (s : σ) : x.Yields (x.history answer s) (x.run answer s).1 := by
  induction x generalizing s with
  | done a => exact .done a
  | call request next ih => exact .call _ (ih _ _)

/-- Every request of a history is among those that the script is bound to. -/
theorem Only.of_yields {allowed : I.Request → Prop} {x : Script I α} (only : x.Only allowed)
    {history : List (Exchange I)} {a : α} (h : x.Yields history a) :
    ∀ exchange ∈ history, allowed exchange.request := by
  induction h with
  | done a => exact nofun
  | call reply _ ih =>
    intro exchange mem
    rcases List.mem_cons.1 mem with rfl | later
    · exact only.1
    · exact ih (only.2 reply) exchange later

/-- A history has nothing behind an error that is raised. -/
theorem Raises.of_yields {counts : Error → Prop} {raised : Error → α → Prop} {x : Script Bus α}
    (raises : x.Raises counts raised) {before after : List (Exchange Bus)}
    {failing : Exchange Bus} {e : Error} {a : α} (h : x.Yields (before ++ failing :: after) a)
    (reply : failing.reply = .error e) (counted : counts e) : after = [] ∧ raised e a := by
  induction before generalizing x with
  | nil =>
    cases h with
    | call reply' rest =>
      obtain rfl : reply' = .error e := reply
      obtain ⟨b, same, tells⟩ := raises.1 e counted
      rw [same] at rest
      obtain ⟨rfl, rfl⟩ := yields_done.1 rest
      exact ⟨rfl, tells⟩
  | cons first before ih =>
    cases h with
    | call reply' rest => exact ih (raises.2 reply') rest

end Script

/-! ## Accesses -/

namespace Access

variable {α β : Type} {history : List (Exchange Bus)}

/-- The access has a result after the exchanges of a history. -/
def Yields (x : Access α) (history : List (Exchange Bus)) (result : Except Error α) : Prop :=
  x.run.Yields history result

variable {result : Except Error α}

theorem yields_pure {a : α} : (pure a : Access α).Yields history result ↔
    history = [] ∧ result = .ok a :=
  Script.yields_done

theorem yields_throw {e : Error} : (throw e : Access α).Yields history result ↔
    history = [] ∧ result = .error e :=
  Script.yields_done

theorem yields_perform {device : DeviceId} {operation : Operation}
    {reply : Except Error operation.Data} : (device.perform operation).Yields history reply ↔
      history = [⟨⟨device, operation⟩, reply⟩] := by
  refine Script.yields_call.trans ⟨?_, ?_⟩
  · rintro ⟨reply', rest, rfl, h⟩
    obtain ⟨rfl, rfl⟩ := Script.yields_done.1 h
    rfl
  · rintro rfl
    exact ⟨reply, [], rfl, .done reply⟩

/-- A sequence fails where its first part does, or goes on with the rest. -/
theorem yields_bind {x : Access β} {k : β → Access α} :
    (x >>= k).Yields history result ↔
      (∃ e, x.Yields history (.error e) ∧ result = .error e) ∨
        ∃ b first rest, history = first ++ rest ∧ x.Yields first (.ok b) ∧
          (k b).Yields rest result := by
  unfold Yields
  rw [ExceptT.run_bind, Script.yields_bind]
  constructor
  · rintro ⟨b | b, first, rest, rfl, hx, hk⟩
    · obtain ⟨rfl, rfl⟩ := Script.yields_done.1 hk
      rw [List.append_nil]
      exact .inl ⟨b, hx, rfl⟩
    · exact .inr ⟨b, first, rest, rfl, hx, hk⟩
  · rintro (⟨e, hx, rfl⟩ | ⟨b, first, rest, rfl, hx, hk⟩)
    · exact ⟨.error e, history, [], (List.append_nil _).symm, hx, .done _⟩
    · exact ⟨.ok b, first, rest, rfl, hx, hk⟩

/-- A result that is known already has no history. -/
theorem yields_bind_liftM {b : Except Error β} {k : β → Access α} :
    ((liftM b : Access β) >>= k).Yields history result ↔
      (∃ e, b = .error e ∧ history = [] ∧ result = .error e) ∨
        ∃ b', b = .ok b' ∧ (k b').Yields history result := by
  cases b with
  | error e =>
    refine Script.yields_done.trans ⟨?_, ?_⟩
    · rintro ⟨rfl, rfl⟩
      exact .inl ⟨e, rfl, rfl, rfl⟩
    · rintro (⟨e', same, rfl, rfl⟩ | ⟨_, same, -⟩)
      · cases same
        exact ⟨rfl, rfl⟩
      · cases same
  | ok b =>
    show (k b).Yields history result ↔ _
    constructor
    · exact fun h => .inr ⟨b, rfl, h⟩
    · rintro (⟨_, same, -⟩ | ⟨b', same, h⟩)
      · cases same
      · cases same
        exact h

/-- Where an access fails, its handler goes on. -/
theorem yields_tryCatch {x : Access α} {handler : Error → Access α} :
    (tryCatch x handler).Yields history result ↔
      (∃ a, x.Yields history (.ok a) ∧ result = .ok a) ∨
        ∃ e first rest, history = first ++ rest ∧ x.Yields first (.error e) ∧
          (handler e).Yields rest result := by
  unfold Yields
  rw [ExceptT.run_tryCatch, Script.yields_bind]
  constructor
  · rintro ⟨e | a, first, rest, rfl, hx, hk⟩
    · exact .inr ⟨e, first, rest, rfl, hx, hk⟩
    · obtain ⟨rfl, rfl⟩ := Script.yields_done.1 hk
      rw [List.append_nil]
      exact .inl ⟨a, hx, rfl⟩
  · rintro (⟨a, hx, rfl⟩ | ⟨e, first, rest, rfl, hx, hk⟩)
    · exact ⟨.ok a, history, [], (List.append_nil _).symm, hx, .done _⟩
    · exact ⟨.error e, first, rest, rfl, hx, hk⟩

/-- Whatever the replies, the access makes at most `n` requests. -/
def AtMost (n : Nat) (x : Access α) : Prop :=
  ∀ history result, x.Yields history result → history.length ≤ n

namespace AtMost

theorem pure (a : α) : (Pure.pure a : Access α).AtMost 0 := by
  intro history result h
  rw [(yields_pure.1 h).1]
  exact Nat.le_refl 0

theorem throw (n : Nat) (e : Error) : (MonadExcept.throw e : Access α).AtMost n := by
  intro history result h
  rw [(yields_throw.1 h).1]
  exact Nat.zero_le n

theorem perform {device : DeviceId} {operation : Operation} :
    (device.perform operation).AtMost 1 := by
  intro history result h
  rw [yields_perform.1 h]
  exact Nat.le_refl 1

theorem bind {x : Access β} {k : β → Access α} {m n : Nat} (h : x.AtMost m)
    (hk : ∀ b, (k b).AtMost n) : (x >>= k).AtMost (m + n) := by
  intro history result yields
  rcases yields_bind.1 yields with ⟨e, failed, -⟩ | ⟨b, first, rest, rfl, hx, hrest⟩
  · exact Nat.le_add_right_of_le (h _ _ failed)
  · rw [List.length_append]
    exact Nat.add_le_add (h _ _ hx) (hk b _ _ hrest)

theorem tryCatch {x : Access α} {handler : Error → Access α} {n : Nat} (h : x.AtMost n)
    (hh : ∀ e, (handler e).AtMost 0) : (MonadExcept.tryCatch x handler).AtMost n := by
  intro history result yields
  rcases yields_tryCatch.1 yields with ⟨a, hx, -⟩ | ⟨e, first, rest, rfl, hx, hrest⟩
  · exact h _ _ hx
  · rw [List.length_append]
    exact Nat.add_le_add (h _ _ hx) (hh e _ _ hrest)

end AtMost

/-- Whatever the replies, an error of the access is one of its own or the one that its last request
got. -/
def Fails (own : Error → Prop) (x : Access α) : Prop :=
  ∀ history e, x.Yields history (.error e) →
    own e ∨ history.getLast?.bind Exchange.error? = some e

namespace Fails

variable {own : Error → Prop}

theorem pure (a : α) : (Pure.pure a : Access α).Fails own := by
  intro history e h
  cases (yields_pure.1 h).2

theorem throw {e : Error} (h : own e) : (MonadExcept.throw e : Access α).Fails own := by
  intro history e' yields
  obtain ⟨-, same⟩ := yields_throw.1 yields
  cases same
  exact .inl h

theorem perform {device : DeviceId} {operation : Operation} :
    (device.perform operation).Fails own := by
  intro history e h
  rw [yields_perform.1 h]
  exact .inr rfl

theorem bind {x : Access β} {k : β → Access α} (h : x.Fails own) (hk : ∀ b, (k b).Fails own) :
    (x >>= k).Fails own := by
  intro history e yields
  rcases yields_bind.1 yields with ⟨e', failed, same⟩ | ⟨b, first, rest, rfl, -, hrest⟩
  · cases same
    exact h _ _ failed
  · refine (hk b _ _ hrest).imp id fun last => ?_
    obtain ⟨exchange, found, -⟩ := Option.bind_eq_some_iff.1 last
    rw [List.getLast?_append, found]
    rwa [found] at last

/-- The handler takes some errors for results, and throws the others again. -/
theorem tryCatch {own' : Error → Prop} {x : Access α} {handler : Error → Access α}
    (h : x.Fails own)
    (hh : ∀ e, (∃ a, handler e = Pure.pure a) ∨
      handler e = MonadExcept.throw e ∧ (own e → own' e)) :
    (MonadExcept.tryCatch x handler).Fails own' := by
  intro history e yields
  rcases yields_tryCatch.1 yields with ⟨a, -, same⟩ | ⟨e', first, rest, rfl, hx, hrest⟩
  · cases same
  rcases hh e' with ⟨a, caught⟩ | ⟨thrown, kind⟩
  · rw [caught] at hrest
    cases (yields_pure.1 hrest).2
  · rw [thrown] at hrest
    obtain ⟨rfl, same⟩ := yields_throw.1 hrest
    cases same
    rw [List.append_nil]
    exact (h _ _ hx).imp kind id

end Fails

end Access

end TwinLog
