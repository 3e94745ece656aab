-- SUMMARY: Loads and saves of which a read fails while the logs are recovered.
import TwinLog.Proofs.Log.Upset
import TwinLog.Proofs.Translation

/-! # Failed recovery

A load or save of which a read fails while the logs are recovered fails with the error of the read
and leaves the storage and the devices such that the next load is like the first one. The exception
is a read of a record that fails because the record is too large: the log is recovered without that
record then (`Storage.failed_recovery`). -/

namespace TwinLog

variable {σ : Type} {answer : (request : Bus.Request) → StateM σ (Bus.Reply request)}
  {content : σ → Medium}

/-! ## Reads of a volume -/

namespace Volume

variable {v : Volume} {request : Request}

theorem Reads.kind_eq (reads : v.Reads request) : request.operation.kind = .read := by
  obtain ⟨address, length, rfl⟩ := reads.eq_read
  rfl

/-- A read changes nothing. -/
theorem Served.content_answer (served : v.Served answer content) (reads : v.Reads request) (t : σ) :
    content (answer request t).2 = content t := by
  obtain ⟨address, length, rfl⟩ := reads.eq_read
  exact (served address length t reads).2

/-- The reply to a read is a matter of the content. -/
theorem Served.answer_congr (served : v.Served answer content) (reads : v.Reads request) {t t' : σ}
    (same : content t = content t') : (answer request t).1 = (answer request t').1 := by
  obtain ⟨address, length, rfl⟩ := reads.eq_read
  rw [(served address length t reads).1, (served address length t' reads).1, same]

end Volume

/-! ## Interrupted mounts -/

namespace Site

def recover (site : Site) (table : Table) (side : Side) : Access Recovered := do
  let v ← site.volume table side
  v.recover

/-- What the recovery of each side returns, given the content of the devices. -/
def recovered (site : Site) (table : Table) (m : Medium) : Sides (Except Error Recovered) where
  a := (site.volume table .a).map fun v => Log.recovered (v.content m)
  b := (site.volume table .b).map fun v => Log.recovered (v.content m)

/-- The side whose log is under recovery when a mount makes the request after `n` others. -/
def recovering (site : Site) (table : Table)
    (answer : (request : Bus.Request) → StateM σ (Bus.Reply request)) (s : σ) (n : Nat) : Side :=
  if n < ((site.recover table .a).run.trace answer s).length then .a else .b

variable {site : Site} {table : Table}

theorem get_recovered (m : Medium) (side : Side) : (site.recovered table m).get side =
    (site.volume table side).map fun v => Log.recovered (v.content m) := by
  cases side <;> rfl

theorem only_recover (site : Site) (table : Table) (side : Side) :
    (site.recover table side).Only fun request =>
      ∃ side v, site.volume table side = .ok v ∧ v.Reads request := by
  unfold recover
  cases found : site.volume table side with
  | error e => exact .throw e
  | ok v =>
    exact .bind_ok ((v.only_recoverBelow none v.size).mono
      fun request reads => ⟨side, v, found, reads⟩)

variable (mapped : table.Mapped)
  (served : ∀ side v, site.volume table side = .ok v → v.Served answer content)
include mapped served

theorem run_recover (side : Side) (s : σ) :
    ∃ s', (site.recover table side).run.run answer s =
      ((site.recovered table (content s)).get side, s') ∧ content s' = content s := by
  rw [get_recovered]
  unfold recover
  cases found : site.volume table side with
  | error e => exact ⟨s, rfl, rfl⟩
  | ok v =>
    exact (served side v found).run_recover (mapped.volume_end_le found) s

/-- The recovery of a side raises the error of a read that fails, unless a record is too large. Then
it goes on with the records before. -/
theorem interrupted_recover {side : Side} {s : σ} {n : Nat}
    {i : Interruption σ (Except Error Recovered)}
    (found : (site.recover table side).run.interruption answer s n = some i) :
    ∃ v, site.volume table side = .ok v ∧
      (∀ e, ¬(e = .tooLarge ∧ v.GetsEntry (v.content (content s)) i.request) → i.Raises e) ∧
      (v.GetsEntry (v.content (content s)) i.request → ∃ front entry back,
        Log.entries (v.content (content s)) = some (front ++ entry :: back) ∧
        v.GetsRecord (Log.extent front) entry.length i.request ∧
        ∃ s', (i.after .tooLarge).run answer i.state =
          (.ok (Log.outcome (Log.extent (front ++ entry :: back)) front), s') ∧
          content s' = content s) := by
  have state : content i.state = content s := by
    refine (only_recover site table side).interruption_state ?_ found
    rintro request ⟨side, v, volume, reads⟩ s
    exact (served side v volume).content_answer reads s
  unfold recover at found
  cases volume : site.volume table side with
  | error e =>
    rw [volume] at found
    cases found
  | ok v =>
    have serves := served side v volume
    have addressable := mapped.volume_end_le volume
    rw [volume] at found
    have upset := v.breaks_recover serves addressable s n i found
    refine ⟨v, rfl, fun e other => upset.raises other, fun gets => ?_⟩
    obtain ⟨front, entry, back, entries, record, below⟩ := upset.skips gets
    obtain ⟨s', ended, kept⟩ := serves.run_recoverBelow addressable (s := i.state)
      (by rw [state]; exact entries) (Log.extent (front ++ entry :: back))
    exact ⟨front, entry, back, entries, record, s', by rw [below, ended], kept.trans state⟩

end Site

namespace Session

/-- Recovers the log of one side, then that of the other. -/
def assemble (x y : Access Recovered) : Access Session := do
  let a ← x
  let b ← y
  return ofRecovered ⟨a, b⟩

/-- The session of two recoveries, or the first error. -/
def ofSides (found : Sides (Except Error Recovered)) : Except Error Session := do
  let a ← found.a
  let b ← found.b
  return ofRecovered ⟨a, b⟩

theorem mount_eq_assemble (site : Site) (table : Table) :
    mount site table = assemble (site.recover table .a) (site.recover table .b) := by
  simp only [mount, assemble, Site.recover, bind_assoc]

theorem run_assemble (x y : Access Recovered) (s : σ) :
    ((assemble x y).run.run answer s).1 =
      ofSides ⟨(x.run.run answer s).1, (y.run.run answer (x.run.run answer s).2).1⟩ := by
  unfold assemble
  rw [ExceptT.run_bind, Script.run_bind]
  show (Script.run answer _ (x.run.run answer s).2).1 = _
  cases (x.run.run answer s).1 with
  | error e => rfl
  | ok a =>
    show ((ExceptT.run (y >>= _)).run answer _).1 = _
    rw [ExceptT.run_bind, Script.run_bind]
    show (Script.run answer _ (y.run.run answer (x.run.run answer s).2).2).1 = _
    cases (y.run.run answer (x.run.run answer s).2).1 <;> rfl

/-- The error of a session is that of a side. -/
theorem ofSides_error {found : Sides (Except Error Recovered)} {e : Error}
    (h : ofSides found = .error e) : ∃ side, found.get side = .error e := by
  obtain ⟨a, b⟩ := found
  cases a with
  | error e' =>
    cases h
    exact ⟨.a, rfl⟩
  | ok a =>
    cases b with
    | error e' =>
      cases h
      exact ⟨.b, rfl⟩
    | ok b => cases h

section Served

variable {site : Site} {table : Table} (mapped : table.Mapped)
  (served : ∀ side v, site.volume table side = .ok v → v.Served answer content)
include mapped served

/-- A mount raises the error of a read that fails, unless a record is too large. Then the side of
the record is recovered from the records before it. -/
theorem interrupted_mount {s : σ} {n : Nat} {i : Interruption σ (Except Error Session)}
    (found : (mount site table).run.interruption answer s n = some i) :
    let side := site.recovering table answer s n
    ∃ v, site.volume table side = .ok v ∧
      (∀ e, ¬(e = .tooLarge ∧ v.GetsEntry (v.content (content s)) i.request) → i.Raises e) ∧
      (v.GetsEntry (v.content (content s)) i.request → ∃ front entry back,
        Log.entries (v.content (content s)) = some (front ++ entry :: back) ∧
        v.GetsRecord (Log.extent front) entry.length i.request ∧
        ((i.after .tooLarge).run answer i.state).1 =
          ofSides ((site.recovered table (content s)).set side
            (.ok (Log.outcome (Log.extent (front ++ entry :: back)) front)))) := by
  intro side
  obtain ⟨s', recoveredA, kept⟩ := site.run_recover mapped served .a s
  rw [mount_eq_assemble, assemble, Access.interruption_bind] at found
  split at found
  · rename_i early
    -- while side `a` is recovered: side `b` is still recovered as usual
    have same : side = .a := if_pos early
    rw [same]
    obtain ⟨first, here, rfl⟩ := Option.map_eq_some_iff.1 found
    obtain ⟨v, volume, raises, skips⟩ := site.interrupted_recover mapped served here
    refine ⟨v, volume, fun e other => (raises e other).andThen _, fun gets => ?_⟩
    obtain ⟨front, entry, back, entries, record, t, ended, same⟩ := skips gets
    obtain ⟨t', recoveredB, -⟩ := site.run_recover mapped served .b t
    refine ⟨front, entry, back, entries, record, ?_⟩
    show ((assemble (ExceptT.mk (first.after .tooLarge)) (site.recover table .b)).run.run answer
      first.state).1 = _
    rw [run_assemble]
    show ofSides ⟨((first.after .tooLarge).run answer first.state).1, (Script.run answer _
      ((first.after .tooLarge).run answer first.state).2).1⟩ = _
    rw [ended, recoveredB, same]
    rfl
  · rename_i late
    -- while side `b` is recovered: side `a` has been by then
    have same : side = .b := if_neg late
    rw [same, recoveredA] at *
    split at found
    · rename_i a ended
      rw [Access.interruption_bind] at found
      split at found
      · obtain ⟨first, here, rfl⟩ := Option.map_eq_some_iff.1 found
        obtain ⟨v, volume, raises, skips⟩ := site.interrupted_recover mapped served here
        rw [kept] at raises skips
        refine ⟨v, volume, fun e other => (raises e other).andThen _, fun gets => ?_⟩
        obtain ⟨front, entry, back, entries, record, t, ended', -⟩ := skips gets
        refine ⟨front, entry, back, entries, record, ?_⟩
        show ((assemble (pure a) (ExceptT.mk (first.after .tooLarge))).run.run answer
          first.state).1 = _
        rw [run_assemble]
        show ofSides ⟨.ok a, ((first.after .tooLarge).run answer first.state).1⟩ = _
        rw [ended', ← ended]
        rfl
      · split at found
        · cases found
        · cases found
    · cases found

end Served

end Session

/-! ## Loads and saves -/

namespace Storage

variable {table : Table} {site : Site}

/-- What a load returns and the storage after it, given what mounting returns. -/
def afterMount (s : Storage) : Except Error Session → Except Error Settings × Storage
  | .error e => (.error e, s)
  | .ok session => (.ok session.settings, { s with session })

/-- A read that fails makes loads and saves fail with its error before anything is written. The
storage and the devices are such after it that the next load is like the first. -/
def FailsCleanly (s : Storage) (table : Table)
    (answer : (request : Bus.Request) → StateM σ (Bus.Reply request)) (content : σ → Medium)
    (t : σ) (n : Nat) (e : Error) : Prop :=
  let failing := Script.failingAt n e answer
  ∃ t', (s.load table).run failing (t, 0) = ((.error e, s), t', n + 1) ∧
    (∀ settings, (s.save table settings).run failing (t, 0) = ((.error e, s), t', n + 1) ∧
      ∀ request ∈ (s.save table settings).trace failing (t, 0), request.operation.kind = .read) ∧
    content t' = content t ∧
    ((s.load table).run answer t').1 = ((s.load table).run answer t).1

theorem run_load_eq (s : Storage) (t : σ) : ((s.load table).run answer t).1 =
    s.afterMount ((s.mounted table).run.run answer t).1 := by
  cases result : ((s.mounted table).run.run answer t).1 with
  | error e =>
    rw [run_load_of_error (Prod.ext result rfl)]
    rfl
  | ok session =>
    rw [run_load_of_ok (Prod.ext result rfl)]
    rfl

theorem eq_error_of_afterMount {s s' : Storage} {mounted : Except Error Session} {e : Error}
    (h : s.afterMount mounted = (.error e, s')) : mounted = .error e := by
  cases mounted with
  | error e' =>
    cases h
    rfl
  | ok session => cases h

/-- A load makes the requests of its mount. -/
theorem trace_load (s : Storage) (t : σ) :
    (s.load table).trace answer t = (s.mounted table).run.trace answer t := by
  unfold load
  rw [Script.trace_bind]
  cases ((s.mounted table).run.run answer t).1 <;> exact List.append_nil _

/-- A save whose mount fails makes the requests of the mount. -/
theorem trace_save_of_error {s : Storage} {e : Error} {t t' : σ}
    (failed : (s.mounted table).run.run answer t = (.error e, t')) (settings : Settings) :
    (s.save table settings).trace answer t = (s.mounted table).run.trace answer t := by
  unfold save
  rw [Script.trace_bind, failed]
  exact List.append_nil _

section Served

variable (served : ∀ side v, site.volume table side = .ok v → v.Served answer content)
include served

/-- The first load changes nothing where one of its reads fails. -/
theorem content_load_failing (n : Nat) (e : Error) (t : σ) (calls : Nat) :
    content ((load { site } table).run (Script.failingAt n e answer) (t, calls)).2.1 =
      content t := by
  refine (only_load_reads site table).run_keeps
    (P := fun u : σ × Nat => content u.1 = content t) ?_ rfl
  rintro request ⟨side, v, found, reads⟩ ⟨u, k⟩ same
  by_cases fails : k = n
  · rw [fails, Script.failingAt_self]
    exact same
  · rw [Script.failingAt_of_ne fails]
    exact ((served side v found).content_answer reads u).trans same

/-- What the first load returns is a matter of the content of the medium. -/
theorem load_congr {t t' : σ} (same : content t = content t') :
    ((load { site } table).run answer t).1 = ((load { site } table).run answer t').1 := by
  refine ((only_load_reads site table).run_related (R := fun u u' => content u = content u')
    ?_ same).1
  rintro request ⟨side, v, found, reads⟩ u u' same
  have serves := served side v found
  refine ⟨serves.answer_congr reads same, ?_⟩
  rw [serves.content_answer reads, serves.content_answer reads, same]

/-- An error that a mount raises is that of loads and saves. -/
theorem failsCleanly_of_raises {t : σ} {n : Nat} {i : Interruption σ (Except Error Session)}
    (found : (Session.mount site table).run.interruption answer t n = some i) {e : Error}
    (raises : i.Raises e) : FailsCleanly { site } table answer content t n e := by
  let s : Storage := { site }
  have reads : ∀ request ∈ (s.load table).trace (Script.failingAt n e answer) (t, 0),
      request.operation.kind = .read := by
    intro request mem
    obtain ⟨side, v, -, reads⟩ := (only_load_reads site table).trace request mem
    exact reads.kind_eq
  have ended := Script.run_failingAt found e 0
  rw [raises, Nat.zero_add] at ended
  have failed : (s.mounted table).run.run (Script.failingAt n e answer) (t, 0) =
      (.error e, i.state, n + 1) := ended
  have load := run_load_of_error failed
  have kept := content_load_failing served n e t 0
  rw [load] at kept
  refine ⟨i.state, load, fun settings => ⟨run_save_of_error failed settings, ?_⟩, kept,
    load_congr served kept⟩
  rw [trace_save_of_error failed settings, ← trace_load]
  exact reads

end Served

/-- A mount that takes a record for none does not fail because a record is too large. -/
theorem ofSides_ne_tooLarge (m : Medium) (side : Side) (recovered : Recovered) :
    Session.ofSides ((site.recovered table m).set side (.ok recovered)) ≠ .error .tooLarge := by
  intro failed
  obtain ⟨other, failed⟩ := Session.ofSides_error failed
  by_cases same : other = side
  · rw [same, Sides.get_set_self] at failed
    cases failed
  · rw [Sides.get_set_of_ne _ same, Site.get_recovered] at failed
    cases volume : site.volume table other with
    | ok v =>
      rw [volume] at failed
      cases failed
    | error e =>
      rw [volume] at failed
      cases failed
      exact absurd (Table.volume_error volume) nofun

/-- Whatever the error of a read that fails while a load recovers the logs, the load only reads and
leaves the medium as it is. The error is returned, and all is as before, unless the read is one of a
record and the error is that it is too large. Then the load goes on with the records before that
one. -/
theorem failed_recovery (mapped : table.Mapped)
    (served : ∀ side v, site.volume table side = .ok v → v.Served answer content) (t : σ)
    {n : Nat} {request : Request}
    (fails : ((Session.mount site table).run.trace answer t)[n]? = some request) (e : Error) :
    let s : Storage := { site }
    let failing := Script.failingAt n e answer
    let side := site.recovering table answer t n
    ((∀ request ∈ (s.load table).trace failing (t, 0), request.operation.kind = .read) ∧
      content ((s.load table).run failing (t, 0)).2.1 = content t) ∧
    ∃ v, site.volume table side = .ok v ∧
      (s.FailsCleanly table answer content t n e ↔
        ¬(e = .tooLarge ∧ v.GetsEntry (v.content (content t)) request)) ∧
      (e = .tooLarge → v.GetsEntry (v.content (content t)) request → ∃ front entry back,
        Log.entries (v.content (content t)) = some (front ++ entry :: back) ∧
        v.GetsRecord (Log.extent front) entry.length request ∧
        ((s.load table).run failing (t, 0)).1 =
          s.afterMount (Session.ofSides ((site.recovered table (content t)).set side
            (.ok (Log.outcome (Log.extent (front ++ entry :: back)) front))))) := by
  intro s failing side
  rw [Script.trace_getElem?, Option.map_eq_some_iff] at fails
  obtain ⟨i, found, rfl⟩ := fails
  obtain ⟨v, volume, raises, skips⟩ := Session.interrupted_mount mapped served found
  have loaded : ((s.load table).run failing (t, 0)).1 =
      s.afterMount ((i.after e).run answer i.state).1 := by
    have mounted := Script.run_failingAt found e 0
    rw [Nat.zero_add] at mounted
    rw [run_load_eq]
    exact congrArg (s.afterMount ·.1) mounted
  refine ⟨⟨fun request mem => ?_, content_load_failing served n e t 0⟩, v, volume,
    ⟨?_, fun other => failsCleanly_of_raises served found (raises e other)⟩, ?_⟩
  · obtain ⟨_, w, -, reads⟩ := (only_load_reads site table).trace request mem
    exact reads.kind_eq
  -- a mount that goes on does not end with the error that it has passed over
  · rintro ⟨t', failed, -⟩ ⟨rfl, gets⟩
    obtain ⟨front, entry, back, -, -, ended⟩ := skips gets
    rw [failed, ended] at loaded
    exact ofSides_ne_tooLarge _ _ _ (eq_error_of_afterMount loaded.symm)
  · rintro rfl gets
    obtain ⟨front, entry, back, entries, record, ended⟩ := skips gets
    exact ⟨front, entry, back, entries, record, by rw [loaded, ended]⟩

end Storage

namespace Installation

/-- The flash with a record of its second volume. -/
def recorded : Medium :=
  Medium.erased.program .clearBits ⟨0⟩ 82
    (Record.default.refresh Settings.default.encode).encode.toList

/-- The record is the only entry of its log. -/
theorem entries_recorded : Log.entries ((flash.volume .b).content recorded) =
    some [⟨41, some (Record.default.refresh Settings.default.encode)⟩] := by
  have bytes : (flash.volume .b).content recorded =
      (Record.default.refresh Settings.default.encode).encode.toList ++ Volume.erasedBytes 41 := by
    decide +kernel
  rw [bytes, Log.entries_encode (by decide +kernel), Log.entries_erasedBytes]
  rfl

/-- A device fault where the header of the record is read, and an error of the name of a record that
is too large, where the first word is looked at and where the header of the record is read. -/
theorem failed_recovery_recorded :
    let s : Storage := { site := flash.site }
    let requests := (Session.mount flash.site flash.table).run.trace metered (recorded, 0)
    (flash.table.Mapped ∧
      ∀ side v, flash.site.volume flash.table side = .ok v → v.Served metered Prod.fst) ∧
    (requests[0]? = some ⟨⟨0⟩, .read 0 6⟩ ∧
      s.FailsCleanly flash.table metered Prod.fst (recorded, 0) 0 .tooLarge) ∧
    requests[3]? = some ⟨⟨0⟩, .read 82 8⟩ ∧
      s.FailsCleanly flash.table metered Prod.fst (recorded, 0) 3 (.device .other) ∧
      ¬s.FailsCleanly flash.table metered Prod.fst (recorded, 0) 3 .tooLarge ∧
      ∃ front entry back,
        Log.entries ((flash.volume .b).content recorded) = some (front ++ entry :: back) ∧
        (flash.volume .b).GetsRecord (Log.extent front) entry.length ⟨⟨0⟩, .read 82 8⟩ ∧
        ((s.load flash.table).run (Script.failingAt 3 .tooLarge metered) ((recorded, 0), 0)).1 =
          s.afterMount (Session.ofSides ((flash.site.recovered flash.table recorded).set .b
            (.ok (Log.outcome (Log.extent (front ++ entry :: back)) front)))) := by
  intro s requests
  have mapped : flash.table.Mapped := ⟨by decide, by decide⟩
  have served : ∀ side v, flash.site.volume flash.table side = .ok v →
      v.Served metered Prod.fst := fun _ _ _ _ _ _ _ => ⟨rfl, rfl⟩
  have word : requests[0]? = some ⟨⟨0⟩, .read 0 6⟩ := by decide +kernel
  have header : requests[3]? = some ⟨⟨0⟩, .read 82 8⟩ := by decide +kernel
  have first : flash.site.recovering flash.table metered (recorded, 0) 0 = .a := by decide +kernel
  have second : flash.site.recovering flash.table metered (recorded, 0) 3 = .b := by decide +kernel
  have gets : (flash.volume .b).GetsEntry ((flash.volume .b).content recorded)
      ⟨⟨0⟩, .read 82 8⟩ := ⟨[], _, [], entries_recorded, .inl ⟨82, rfl, rfl⟩⟩
  obtain ⟨-, v, volume, clean, -⟩ :=
    Storage.failed_recovery mapped served (recorded, 0) word .tooLarge
  obtain ⟨-, v', volume', clean', -⟩ :=
    Storage.failed_recovery mapped served (recorded, 0) header (.device .other)
  obtain ⟨-, v'', volume'', clean'', goesOn⟩ :=
    Storage.failed_recovery mapped served (recorded, 0) header .tooLarge
  rw [first, flash.volume_eq] at volume
  rw [second, flash.volume_eq] at volume' volume''
  rw [second] at goesOn
  cases volume
  cases volume'
  cases volume''
  refine ⟨⟨mapped, served⟩, ⟨word, clean.2 ?_⟩, header, clean'.2 (fun large => nomatch large.1),
    fun fails => clean''.1 fails ⟨rfl, gets⟩, goesOn rfl gets⟩
  rintro ⟨-, front, entry, back, entries, -⟩
  have blank : (flash.volume .a).content recorded = Volume.erasedBytes 82 := by decide +kernel
  rw [blank, Log.entries_erasedBytes] at entries
  simp at entries

/-- A device that calls the record too large while its header is read makes the load succeed with
the defaults, as if the record were torn. -/
theorem load_too_large_record :
    let answer := Hardware.answer fun _ => ⟨.overwrite, true, true⟩
    let s : Storage := { site := flash.site }
    let after := (s.load flash.table).run (Script.failingAt 3 .tooLarge answer) (recorded, 0)
    ((Session.mount flash.site flash.table).run.trace answer recorded)[3]? =
        some ⟨⟨0⟩, .read 82 8⟩ ∧
      after.1.1.toOption = some Settings.default ∧ after.1.1 ≠ .error .tooLarge ∧
      after.1.2.statistics = ⟨⟨.empty, ⟨.corrupt, 41⟩⟩, 0, true, none⟩ ∧ after.1.2 ≠ s := by
  intro answer s after
  have loaded : after.1.1.toOption = some Settings.default := by decide +kernel
  refine ⟨by decide +kernel, loaded, fun failed => ?_, by decide +kernel, by decide +kernel⟩
  rw [failed] at loaded
  cases loaded

end Installation

end TwinLog
