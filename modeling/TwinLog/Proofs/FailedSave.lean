-- SUMMARY: Saves that fail because a request of theirs does, and what the next saves do about it.
import TwinLog.Proofs.Faults
import TwinLog.Proofs.Log.Renewal
import TwinLog.Proofs.Save

/-! # Failed saves

A save raises every error of a device, apart from an operation that is not supported. The log of a
record that may be torn is in doubt from then on, and waits for a reset (`Session.Doubts`): saves of
the other side leave it in doubt, and the next save of its side resets it before anything else.
Main statement: `Storage.failed_save`, whatever the devices reply. -/

namespace TwinLog

/-! ## Errors -/

namespace Volume

variable {v : Volume}

theorem Alters.ne_sync {request : Request} (alters : v.Alters request) :
    request.operation ≠ .sync := by
  obtain ⟨device, operation⟩ := request
  rintro rfl
  exact alters

theorem raises_write (offset : Nat) (bytes : List UInt8) :
    (v.write offset bytes).Raises (· ≠ .notSupported) := by
  unfold write
  cases v.locateAligned v.geometry.writeSize offset bytes.length with
  | error e => exact .throw e
  | ok address => exact .bind_ok (.perform _ _)

theorem raises_erase (offset length : Nat) :
    (v.erase offset length).Raises (· ≠ .notSupported) := by
  unfold erase
  cases v.locateAligned v.geometry.eraseSize offset length with
  | error e => exact .throw e
  | ok address => exact .bind_ok (.perform _ _)

theorem raises_fillFrom {chunk step : Nat} (hc : 0 < chunk) (hs : 0 < step) (offset : Nat) :
    (v.fillFrom chunk step hc hs offset).Raises (· ≠ .notSupported) := by
  induction left : v.size - offset using Nat.strongRecOn generalizing offset with
  | ind left ih =>
    rw [fillFrom]
    split
    · exact .bind (raises_write _ _) fun _ => ih _ (by omega) _ rfl
    split
    · exact .bind (raises_write _ _) fun _ => ih _ (by omega) _ rfl
    · exact .pure _

theorem raises_eraseAll : v.eraseAll.Raises (· ≠ .notSupported) := by
  refine .tryCatch (raises_erase 0 v.size) (fun e other => ?_) fun e => ?_
  · cases e <;> first | rfl | exact absurd rfl other
  · split
    · unfold fill
      split
      · exact .throw _
      dsimp only
      split
      · exact .throw _
      · exact raises_fillFrom _ _ _
    · exact .throw _

/-- An append raises every error but that of an erase that is not supported. -/
theorem raises_append (r : Record) (freeOffset : Nat) (force : Bool) :
    (v.append r freeOffset force).Raises (· ≠ .notSupported) := by
  unfold append
  split
  · refine .bind raises_eraseAll fun _ => ?_
    exact .bind (raises_write _ _) fun _ => .pure _
  · exact .bind (raises_write _ _) fun _ => .pure _

end Volume

/-- A sync is turned down by the table, or it is one request. -/
theorem Table.yields_sync {table : Table} {area : Nat} {history : List (Exchange Bus)}
    {result : Except Error Unit} (h : (table.sync area).Yields history result) :
    history = [] ∨ ∃ device, history = [⟨⟨device, .sync⟩, result⟩] := by
  rcases Access.yields_bind_liftM.1 h with ⟨e, -, rfl, -⟩ | ⟨descriptor, -, sent⟩
  · exact .inl rfl
  · exact .inr ⟨descriptor.device, Access.yields_perform.1 sent⟩

/-- A request of a sync that fails is the sync itself. -/
theorem Table.sync_failing {table : Table} {area : Nat} {before after : List (Exchange Bus)}
    {failing : Exchange Bus} {e : Error} {result : Except Error Unit}
    (h : (table.sync area).Yields (before ++ failing :: after) result)
    (reply : failing.reply = .error e) :
    before = [] ∧ after = [] ∧ failing.request.operation = .sync ∧ result = .error e := by
  rcases yields_sync h with none | ⟨device, one⟩
  · exact absurd none (List.append_ne_nil_of_right_ne_nil before (List.cons_ne_nil _ _))
  · rcases List.append_eq_singleton_iff.1 one with ⟨rfl, same⟩ | ⟨-, none⟩
    · obtain ⟨rfl, rfl⟩ := List.cons.inj same
      exact ⟨rfl, rfl, rfl, reply⟩
    · exact absurd none (List.cons_ne_nil _ _)

/-! ## Sessions -/

/-- An exchange of a sequence is one of its first part or one of the rest. -/
theorem split_append {α : Type} {first rest before after : List α} {x : α}
    (h : first ++ rest = before ++ x :: after) :
    (∃ tail, first = before ++ x :: tail) ∨ ∃ front, before = first ++ front ∧
      rest = front ++ x :: after := by
  rcases List.append_eq_append_iff.1 h with ⟨front, rfl, rfl⟩ | ⟨tail, rfl, same⟩
  · exact .inr ⟨front, rfl, rfl⟩
  · cases tail with
    | nil => exact .inr ⟨[], by rw [List.append_nil, List.append_nil], same.symm⟩
    | cons y tail =>
      obtain ⟨rfl, -⟩ := List.cons.inj same
      exact .inl ⟨tail, rfl⟩

namespace Session

variable {site : Site} {table : Table} {s s' : Session} {history : List (Exchange Bus)}
  {result : Except Error Unit}

theorem raises_append (s : Session) : (s.append site table).Raises (· ≠ .notSupported) := by
  unfold append
  cases site.volume table s.target with
  | error e => exact .throw e
  | ok v => exact .bind_ok (Volume.raises_append _ _ _)

/-- An append makes the requests of an append to the volume of the side. -/
theorem yields_append {freeOffset : Except Error Nat}
    (h : (s.append site table).Yields history freeOffset) :
    (history = [] ∧ ∃ e, site.volume table s.target = .error e ∧ freeOffset = .error e) ∨
      ∃ v, site.volume table s.target = .ok v ∧
        (v.append s.latest s.log.freeOffset (s.log.status = .corrupt)).Yields history
          freeOffset := by
  rcases Access.yields_bind_liftM.1 h with ⟨e, unknown, rfl, rfl⟩ | ⟨v, found, h⟩
  · exact .inl ⟨rfl, e, unknown, rfl⟩
  · exact .inr ⟨v, found, h⟩

/-- A request of an append that fails is the last one, and a write or an erase. -/
theorem append_failing {before after : List (Exchange Bus)} {failing : Exchange Bus} {e : Error}
    {freeOffset : Except Error Nat}
    (h : (s.append site table).Yields (before ++ failing :: after) freeOffset)
    (reply : failing.reply = .error e) (aborts : e ≠ .notSupported) :
    after = [] ∧ freeOffset = .error e ∧ failing.request.operation ≠ .sync ∧
      ∃ v, site.volume table s.target = .ok v := by
  obtain ⟨last, failed⟩ := (raises_append s).of_yields h reply aborts
  rcases yields_append h with ⟨none, -⟩ | ⟨v, found, appended⟩
  · exact absurd none (List.append_ne_nil_of_right_ne_nil before (List.cons_ne_nil _ _))
  · have alters := (Volume.only_append _ _ _).of_yields appended failing
      (List.mem_append_right before List.mem_cons_self)
    exact ⟨last, failed, alters.ne_sync, v, found⟩

/-- An append to a log in doubt resets it first. -/
theorem append_renews {v : Volume} (found : site.volume table s.target = .ok v)
    (corrupt : s.log.status = .corrupt) {freeOffset : Except Error Nat}
    (h : (s.append site table).Yields history freeOffset) :
    (∃ e, freeOffset = .error e ∧ v.Renews s.latest history (.error e)) ∨
      ∃ next, freeOffset = .ok next ∧ ∀ rest ended, v.Renews s.latest (history ++ rest) ended := by
  rcases yields_append h with ⟨-, e, unknown, -⟩ | ⟨v', found', appended⟩
  · cases found.symm.trans unknown
  · cases found.symm.trans found'
    simp only [corrupt, decide_true] at appended
    exact Volume.yields_append_forced appended

/-- The session after the latest generation is written in front of the next free offset. -/
def stored (s : Session) (freeOffset : Nat) : Session :=
  { s with logs := s.logs.set s.target ⟨.clean, freeOffset⟩ }

/-- How a flush ends, by the histories of the append and of the sync. -/
inductive Flushed (site : Site) (table : Table) (s : Session) :
    List (Exchange Bus) → Except Error Unit → Session → Prop where
  | unwritten {history : List (Exchange Bus)} {e : Error}
      (failed : (s.append site table).Yields history (.error e)) :
      Flushed site table s history (.error e) s.doubted
  | written {first rest : List (Exchange Bus)} {freeOffset : Nat} {synced : Except Error Unit}
      (appended : (s.append site table).Yields first (.ok freeOffset))
      (sync : (table.sync site.area).Yields rest synced)
      (settled : synced = .ok () ∨ synced = .error .notSupported) :
      Flushed site table s (first ++ rest) (.ok ())
        { s.stored freeOffset with writePending := false }
  | unsynced {first rest : List (Exchange Bus)} {freeOffset : Nat} {e : Error}
      (appended : (s.append site table).Yields first (.ok freeOffset))
      (sync : (table.sync site.area).Yields rest (.error e)) (aborts : e ≠ .notSupported) :
      Flushed site table s (first ++ rest) (.error e) (s.stored freeOffset)

theorem flushed_of_yields (h : (s.flush site table).Yields history (result, s')) :
    s.Flushed site table history result s' := by
  obtain ⟨e | freeOffset, first, rest, rfl, appended, h⟩ := Script.yields_bind.1 h
  · obtain ⟨rfl, same⟩ := Script.yields_done.1 h
    cases same
    rw [List.append_nil]
    exact .unwritten appended
  · obtain ⟨synced, sync, last, rfl, replied, h⟩ := Script.yields_bind.1 h
    split at h
    · obtain ⟨rfl, same⟩ := Script.yields_done.1 h
      cases same
      rw [List.append_nil]
      exact .written appended replied (.inl rfl)
    · obtain ⟨rfl, same⟩ := Script.yields_done.1 h
      cases same
      rw [List.append_nil]
      exact .written appended replied (.inr rfl)
    · rename_i e other
      obtain ⟨rfl, same⟩ := Script.yields_done.1 h
      cases same
      rw [List.append_nil]
      exact .unsynced appended replied other

/-- A save has nothing to write, or it flushes what it has staged. -/
theorem yields_save {image : Settings.Image}
    (h : (s.save site table image).Yields history (result, s')) :
    ((s.stage image).writePending = false ∧ history = [] ∧ s' = s.stage image) ∨
      (s.stage image).writePending = true ∧
        (s.stage image).Flushed site table history result s' := by
  unfold save at h
  dsimp only at h
  split at h
  · rename_i pending
    exact .inr ⟨pending, flushed_of_yields h⟩
  · rename_i idle
    obtain ⟨rfl, same⟩ := Script.yields_done.1 h
    cases same
    exact .inl ⟨Bool.eq_false_iff.2 idle, rfl, rfl⟩

/-! ## Logs in doubt -/

namespace Flushed

variable (flushed : s.Flushed site table history result s')
include flushed

theorem latest_eq : s'.latest = s.latest := by
  cases flushed <;> rfl

theorem target_eq : s'.target = s.target := by
  unfold target
  rw [flushed.latest_eq]

/-- A flush leaves the log of the other side alone. -/
theorem other_log_eq : s'.logs.get s.target.other = s.logs.get s.target.other := by
  cases flushed <;> exact Sides.get_set_of_ne _ (Side.other_ne _) _

/-- A request that fails ends a flush. If it was not the sync, the log is in doubt. If it was the
sync, the record before it is written. -/
theorem failing (pending : s.writePending = true) {before after : List (Exchange Bus)}
    {failing : Exchange Bus} {e : Error} (split : history = before ++ failing :: after)
    (reply : failing.reply = .error e) (aborts : e ≠ .notSupported) :
    result = .error e ∧ after = [] ∧ s'.writePending = true ∧
      ((failing.request.operation ≠ .sync ∧ s' = s.doubted ∧
          ∃ v, site.volume table s.target = .ok v) ∨
        failing.request.operation = .sync ∧ ∃ v place, ∃ address : UInt32,
          site.volume table s.target = .ok v ∧ address.toNat = v.start + place ∧
          before.getLast? = some ⟨⟨v.device, .write address s.latest.encode.toList⟩, .ok ()⟩ ∧
          s' = s.stored (place + Record.size)) := by
  cases flushed with
  | unwritten failed =>
    subst split
    obtain ⟨rfl, same, written, v, found⟩ := append_failing failed reply aborts
    cases same
    exact ⟨rfl, rfl, pending, .inl ⟨written, rfl, v, found⟩⟩
  | written appended sync settled =>
    rcases split_append split with ⟨tail, rfl⟩ | ⟨front, -, rfl⟩
    · cases (append_failing appended reply aborts).2.1
    · obtain ⟨-, -, -, rfl⟩ := Table.sync_failing sync reply
      rcases settled with same | same
      · cases same
      · cases same
        exact absurd rfl aborts
  | unsynced appended sync other =>
    rcases split_append split with ⟨tail, rfl⟩ | ⟨front, rfl, rfl⟩
    · cases (append_failing appended reply aborts).2.1
    · obtain ⟨rfl, rfl, kind, failed⟩ := Table.sync_failing sync reply
      cases failed
      refine ⟨rfl, rfl, pending, .inr ⟨kind, ?_⟩⟩
      rcases yields_append appended with ⟨-, e, -, same⟩ | ⟨v, found, appended⟩
      · cases same
      · obtain ⟨front, place, address, start, rfl, rfl⟩ := Volume.yields_append_ok appended
        refine ⟨v, place, address, found, start, ?_, rfl⟩
        rw [List.append_nil, List.getLast?_concat]

end Flushed

/-- The log of a side is in doubt, and the next generation that is saved to the side is yet to
come. -/
structure Doubts (s : Session) (side : Side) : Prop where
  corrupt : (s.logs.get side).status = .corrupt
  due : s.writePending = true ∨ s.target = side.other

namespace Doubts

variable {side : Side} {image : Settings.Image} (doubts : s.Doubts side)
  (h : (s.save site table image).Yields history (result, s'))
include doubts h

/-- A save of the other side leaves the log in doubt. -/
theorem save_other (spares : s'.target ≠ side) : s'.Doubts side := by
  rcases yields_save h with ⟨idle, -, rfl⟩ | ⟨pending, flushed⟩
  · rw [(stage_of_idle idle).1]
    exact doubts
  · have target : s'.target = side.other := (Side.eq_or_eq_other s'.target side).resolve_left spares
    have same : (s.stage image).target.other = side := by
      rw [← flushed.target_eq, target, Side.other_other]
    have log := flushed.other_log_eq
    rw [same, logs_stage] at log
    exact ⟨by rw [log]; exact doubts.corrupt, .inr target⟩

/-- The next save of the side resets the log before it writes a record. -/
theorem save_renews {v : Volume} (found : site.volume table side = .ok v)
    (selects : s'.target = side) : v.Renews s'.latest history result := by
  rcases yields_save h with ⟨idle, -, rfl⟩ | ⟨pending, flushed⟩
  · have staged := (stage_of_idle idle).1
    rw [staged] at idle selects
    rcases doubts.due with pending | other
    · rw [idle] at pending
      cases pending
    · exact absurd (other.symm.trans selects) side.other_ne
  · have target := flushed.target_eq.symm.trans selects
    rw [← target] at found
    have corrupt : (s.stage image).log.status = .corrupt := by
      unfold log
      rw [target, logs_stage]
      exact doubts.corrupt
    rw [flushed.latest_eq]
    cases flushed with
    | unwritten failed =>
      rcases append_renews found corrupt failed with ⟨e, same, renews⟩ | ⟨_, same, -⟩
      · cases same
        exact renews
      · cases same
    | written appended _ _ =>
      rcases append_renews found corrupt appended with ⟨e, same, -⟩ | ⟨_, -, renews⟩
      · cases same
      · exact renews _ _
    | unsynced appended _ _ =>
      rcases append_renews found corrupt appended with ⟨e, same, -⟩ | ⟨_, -, renews⟩
      · cases same
      · exact renews _ _

end Doubts

end Session

/-! ## Storages -/

namespace Storage

variable {table : Table} {s s' : Storage} {session : Session} {history : List (Exchange Bus)}

/-- The record of the latest generation, written or not. -/
def latest (s : Storage) : Record :=
  (s.session.getD .initial).latest

/-- The side that the latest generation belongs to. -/
def side (s : Storage) : Side :=
  .ofCounter s.statistics.counter

/-- A load with a session returns its settings. -/
theorem yields_load (initialized : s.session = some session) {result : Except Error Settings}
    (h : (s.load table).Yields history (result, s')) : s' = s := by
  unfold load mounted at h
  rw [initialized] at h
  obtain ⟨-, same⟩ := Script.yields_done.1 h
  cases same
  rw [← initialized]

/-- A save with a session saves that. -/
theorem yields_save (initialized : s.session = some session) {settings : Settings}
    {result : Except Error Unit} (h : (s.save table settings).Yields history (result, s')) :
    ∃ session', s' = { s with session := some session' } ∧
      (session.save s.site table settings.encode).Yields history (result, session') := by
  unfold save mounted at h
  rw [initialized] at h
  have works : (session.save s.site table settings.encode >>= fun saved =>
      pure (saved.1, { s with session := some saved.2 })).Yields history (result, s') := h
  obtain ⟨⟨result', session'⟩, first, rest, rfl, saved, h⟩ := Script.yields_bind.1 works
  obtain ⟨rfl, same⟩ := Script.yields_done.1 h
  cases same
  rw [List.append_nil]
  exact ⟨_, rfl, saved⟩

/-- Loads, and saves that leave the latest generation with the other side. -/
inductive Spares (table : Table) (side : Side) (s : Storage) : Storage → Prop where
  | refl : Spares table side s s
  | load {s₁ s₂ : Storage} {history : List (Exchange Bus)} {result : Except Error Settings}
      (before : Spares table side s s₁) (load : (s₁.load table).Yields history (result, s₂)) :
      Spares table side s s₂
  | save {s₁ s₂ : Storage} {settings : Settings} {history : List (Exchange Bus)}
      {result : Except Error Unit} (before : Spares table side s s₁)
      (save : (s₁.save table settings).Yields history (result, s₂)) (spares : s₂.side ≠ side) :
      Spares table side s s₂

/-- The next save of the side, after any loads and any saves of the other side, resets the log
before it writes a record. -/
def ResetsNext (table : Table) (side : Side) (s : Storage) : Prop :=
  ∀ s₁ settings history result s₂, s.Spares table side s₁ →
    (s₁.save table settings).Yields history (result, s₂) → s₂.side = side →
    ∃ v, s.site.volume table side = .ok v ∧ v.Renews s₂.latest history result

/-- A log stays in doubt until its side is saved to. -/
theorem Spares.doubts {side : Side} (spares : s.Spares table side s')
    (initialized : s.session = some session) (doubts : session.Doubts side) :
    s'.site = s.site ∧ ∃ session', s'.session = some session' ∧ session'.Doubts side := by
  induction spares with
  | refl => exact ⟨rfl, session, initialized, doubts⟩
  | load before load ih =>
    obtain ⟨site, session', known, doubts⟩ := ih
    rw [yields_load known load]
    exact ⟨site, session', known, doubts⟩
  | save before save spares ih =>
    obtain ⟨site, session', known, doubts⟩ := ih
    obtain ⟨session'', rfl, saved⟩ := yields_save known save
    exact ⟨site, session'', rfl, doubts.save_other saved spares⟩

theorem resetsNext_of_doubts {side : Side} {v : Volume} (initialized : s.session = some session)
    (doubts : session.Doubts side) (found : s.site.volume table side = .ok v) :
    s.ResetsNext table side := by
  intro s₁ settings history result s₂ spares save selects
  obtain ⟨site, session₁, known, doubts⟩ := spares.doubts initialized doubts
  obtain ⟨session₂, rfl, saved⟩ := yields_save known save
  rw [site] at saved
  exact ⟨v, found, doubts.save_renews saved found selects⟩

/-- A request that fails is the last one of a save, which fails with the same error. The write stays
pending, and the other log is as before. If the request was to erase or to write, the log is in
doubt and is reset by the next save of its side; if it was the sync, the log goes on behind the
record that was written before it. -/
theorem failed_save (initialized : s.session = some session) {settings : Settings}
    {before after : List (Exchange Bus)} {failing : Exchange Bus} {e : Error}
    {result : Except Error Unit}
    (save : (s.save table settings).Yields (before ++ failing :: after) (result, s'))
    (reply : failing.reply = .error e) (aborts : e ≠ .notSupported) :
    (result = .error e ∧ after = [] ∧ s'.site = s.site ∧
      s'.statistics.writePending = true ∧
      s'.statistics.logs.get s'.side.other = s.statistics.logs.get s'.side.other) ∧
    (failing.request.operation ≠ .sync →
      s'.statistics.logs.get s'.side =
        { s.statistics.logs.get s'.side with status := .corrupt } ∧
      s'.ResetsNext table s'.side) ∧
    (failing.request.operation = .sync →
      ∃ v place, ∃ address : UInt32, s.site.volume table s'.side = .ok v ∧
        address.toNat = v.start + place ∧
        before.getLast? =
          some ⟨⟨v.device, .write address s'.latest.encode.toList⟩, .ok ()⟩ ∧
        s'.statistics.logs.get s'.side = ⟨.clean, place + Record.size⟩) := by
  obtain ⟨session', rfl, saved⟩ := yields_save initialized save
  rcases Session.yields_save saved with ⟨-, none, -⟩ | ⟨pending, flushed⟩
  · exact absurd none (List.append_ne_nil_of_right_ne_nil before (List.cons_ne_nil _ _))
  obtain ⟨failed, last, due, outcome⟩ := flushed.failing pending rfl reply aborts
  have logs : s.statistics.logs = (session.stage settings.encode).logs := by
    rw [Session.logs_stage, statistics, initialized]
    rfl
  have selected : side { s with session := some session' } =
      (session.stage settings.encode).target := flushed.target_eq
  rw [selected, logs]
  refine ⟨⟨failed, last, rfl, due, flushed.other_log_eq⟩, fun written => ?_, fun sync => ?_⟩
  · -- a log in doubt stays so until a save of its side, which resets it
    rcases outcome with ⟨-, same, v, found⟩ | ⟨sync, -⟩
    · have log : session'.logs.get (session.stage settings.encode).target =
          { (session.stage settings.encode).log with status := .corrupt } := by
        rw [same]
        exact Sides.get_set_self _ _ _
      have doubts : session'.Doubts (session.stage settings.encode).target :=
        ⟨by rw [log], .inl due⟩
      exact ⟨log, resetsNext_of_doubts rfl doubts found⟩
    · exact absurd sync written
  · rcases outcome with ⟨written, -⟩ | ⟨-, v, place, address, found, start, stored, same⟩
    · exact absurd sync written
    · refine ⟨v, place, address, found, start, ?_, ?_⟩
      · rw [stored]
        exact congrArg (fun r : Record =>
          some (⟨⟨v.device, .write address r.encode.toList⟩, .ok ()⟩ : Exchange Bus))
          flushed.latest_eq.symm
      · show session'.logs.get _ = _
        rw [same]
        exact Sides.get_set_self _ _ _

end Storage

/-- A save to the flash whose write fails, a save of the other side, and the next one of its
side. -/
theorem Installation.failed_save_first :
    let answer := flash.hardware.answerAmid
    let fault := Error.device .other
    let s : Storage := { site := flash.site, session := some (.ofRecovered ⟨.empty, .empty⟩) }
    let t : Medium × List (Option Mishap) := (.erased, [some ⟨10, fault⟩])
    let first := s.save flash.table { Settings.default with brightness := 1 }
    let after := first.run answer t
    let second := after.1.2.save flash.table .default
    let after' := second.run answer after.2
    let third := after'.1.2.save flash.table { Settings.default with brightness := 1 }
    let after'' := third.run answer after'.2
    (s.session = some (.ofRecovered ⟨.empty, .empty⟩) ∧
      ∃ failing, first.history answer t = [] ++ failing :: [] ∧
        failing.reply = .error fault ∧ fault ≠ .notSupported ∧
        failing.request.operation ≠ .sync) ∧
    after.1.1 = .error fault ∧
    (after.1.2.side = .b ∧ after'.1.2.side = .a ∧ after''.1.2.side = .b) ∧
    ∃ v, after.1.2.site.volume flash.table after.1.2.side = .ok v ∧
      v.Renews after''.1.2.latest (third.history answer after'.2) after''.1.1 := by
  intro answer fault s t first after second after' third after''
  have aborts : fault ≠ .notSupported := nofun
  obtain ⟨failing, one⟩ : ∃ failing, first.history answer t = [failing] :=
    List.length_eq_one_iff.1 (by decide +kernel)
  have replies : (first.history answer t).map Exchange.error? = [some fault] := by decide +kernel
  have kinds : (first.history answer t).map (·.request.operation.kind) = [.write] := by
    decide +kernel
  have sides : after.1.2.side = .b ∧ after'.1.2.side = .a ∧ after''.1.2.side = .b := by
    decide +kernel
  rw [one] at replies kinds
  have reply := Exchange.reply_eq (List.cons.inj replies).1
  have written : failing.request.operation ≠ .sync := by
    intro sync
    have kind : failing.request.operation.kind = .write := (List.cons.inj kinds).1
    rw [sync] at kind
    cases kind
  have save : first.Yields ([] ++ failing :: []) after.1 := by
    have yields := Script.yields_run answer first t
    rwa [one] at yields
  have save' : second.Yields (second.history answer after.2) after'.1 :=
    Script.yields_run answer _ _
  have save'' : third.Yields (third.history answer after'.2) after''.1 :=
    Script.yields_run answer _ _
  clear_value after after' after''
  obtain ⟨⟨failed, -⟩, doubted, -⟩ := Storage.failed_save rfl save reply aborts
  obtain ⟨-, resets⟩ := doubted written
  refine ⟨⟨rfl, failing, one, reply, aborts, written⟩, failed, sides, ?_⟩
  refine resets _ _ _ _ _ (.save .refl save' ?_) save'' ?_
  · rw [sides.1, sides.2.1]
    decide
  · rw [sides.1, sides.2.2]

end TwinLog
