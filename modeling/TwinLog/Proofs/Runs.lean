-- SUMMARY: Runs without trouble: what they leave in the logs, and when the newest record is the latest.
import TwinLog.Proofs.Log.Records
import TwinLog.Proofs.Save

/-! # Runs without trouble

A run of loads and saves, with new storages in between, keeps the logs regular: they hold whole
records, and the last ones of the two sides follow each other (`Installation.Regular.saved`). No
bound on the number of saves is assumed, so the counter may wrap. The latest record is the newest
one except where it has just wrapped (`Installation.Regular.reload_iff`). -/

namespace TwinLog

/-- The log holds whole records of its side. -/
def Log.InOrder (side : Side) (log : LogState) (bytes : List UInt8) : Prop :=
  ∃ rs, Log.Keeps log bytes rs ∧ ∀ r ∈ rs, Side.ofCounter r.counter = side

/-- The last record has other settings than a record with the image of others. -/
theorem Log.InOrder.settings_ne {side : Side} {log : LogState} {bytes : List UInt8}
    (h : Log.InOrder side log bytes) {r latest : Record} (found : Log.latest? bytes = some r)
    (payload : ∃ settings : Settings, latest.payload = settings.encode)
    (differs : r.payload ≠ latest.payload) : r.settings ≠ latest.settings := by
  obtain ⟨rs, keeps, -⟩ := h
  rw [keeps.latest?_eq] at found
  -- both payloads are images of settings
  obtain ⟨old, image⟩ := keeps.payload r (List.mem_of_getLast? found)
  obtain ⟨new, image'⟩ := payload
  intro same
  rw [Record.settings, Record.settings, image, image'] at same
  rw [image, image'] at differs
  exact differs (Settings.encode_eq_of_decode_eq same)

/-- What may precede a record: nothing at first, later the generation before it with another
payload, and also the one after it, where a new storage has fallen back behind a wrapped counter. -/
def Record.Follows (latest : Record) : Option Record → Prop
  | none => latest.counter ≠ 0
  | some r => (r.counter + 1 = latest.counter ∧ r.payload ≠ latest.payload) ∨
      (latest.counter.toNat = 65535 ∧ r.counter = 0)

namespace Installation

variable (i : Installation)

/-- The worlds that a blank medium reaches by loads and saves without trouble, and new storages,
with the number of saves that made a new generation. -/
inductive Runs : Nat → World → Prop where
  | boot {m : Medium} (blank : i.Blank m) : Runs 0 (i.boot m)
  | reboot {n : Nat} {w : World} (h : Runs n w) : Runs n (i.boot w.medium)
  | load {n : Nat} {w : World} (h : Runs n w) : Runs n (i.load w).2
  | save {n : Nat} {w : World} (h : Runs n w) (settings : Settings) :
      Runs (n + (i.advances w settings).toNat) (i.save .none w settings).2

/-- The logs hold whole records, and the latest record is the last one of its side and follows the
last one of the other side. -/
structure Regular (w : World) : Prop where
  site : w.storage.site = i.site
  order : ∀ side,
    Log.InOrder side ((i.session w).logs.get side) ((i.volume side).content w.medium)
  current : (i.session w).latest.integrity = .current
  payload : ∃ settings : Settings, (i.session w).latest.payload = settings.encode
  fresh : (i.session w).writePending = true →
    (i.session w).latest.counter = 0 ∧ ∀ side, (i.last w.medium).get side = none
  settled : (i.session w).writePending = false →
    (i.last w.medium).get (i.session w).target = some (i.session w).latest ∧
      (i.session w).latest.Follows ((i.last w.medium).get (i.session w).target.other)

variable {i} {w : World}

/-! ## Writing -/

section Stored

variable {s : Session} {m : Medium}

/-- The log of the latest generation stays in order, and ends with it. -/
theorem inOrder_stored
    (order : Log.InOrder s.target (s.logs.get s.target) ((i.volume s.target).content m))
    (current : s.latest.integrity = .current)
    (payload : ∃ settings : Settings, s.latest.payload = settings.encode) :
    Log.InOrder s.target ((s.appended (i.target s)).logs.get s.target)
        ((i.volume s.target).content (i.stored s m Record.size)) ∧
      (i.last (i.stored s m Record.size)).get s.target = some s.latest := by
  obtain ⟨rs, kept, sides⟩ := order
  have appended := kept.appended i.hardware (i.writable s.target) current payload
  refine ⟨⟨(if (i.target s).resets s.log then [] else rs) ++ [s.latest], ?_, fun r mem => ?_⟩, ?_⟩
  · rw [Session.appended, Sides.get_set_self]
    exact appended
  · rcases List.mem_append.1 mem with old | new
    · split at old
      · cases old
      · exact sides r old
    · rw [List.mem_singleton.1 new]
      rfl
  · rw [get_last]
    exact appended.latest?_eq.trans List.getLast?_concat

/-- The other log stays in order. -/
theorem inOrder_other_stored
    (order : Log.InOrder s.target.other (s.logs.get s.target.other)
      ((i.volume s.target.other).content m)) :
    Log.InOrder s.target.other ((s.appended (i.target s)).logs.get s.target.other)
      ((i.volume s.target.other).content (i.stored s m Record.size)) := by
  rw [Session.appended, Sides.get_set_of_ne _ (Side.other_ne _), content_other_stored]
  exact order

end Stored

/-- Recovery finds a log that is in order. -/
theorem inOrder_recovered {m : Medium} {side : Side}
    (order : ∃ log, Log.InOrder side log ((i.volume side).content m)) :
    Log.InOrder side ((i.recovered m).logs.get side) ((i.volume side).content m) := by
  obtain ⟨log, rs, keeps, sides⟩ := order
  rw [get_logs_recovered]
  exact ⟨rs, keeps.recovered (content_ne_nil m side), sides⟩

namespace Regular

/-! ## The newest record -/

section Newest

variable (h : i.Regular w) (idle : (i.session w).writePending = false)
include h idle

/-- The latest record is the newest one, unless its counter has just wrapped. -/
theorem newest_eq (counted : (i.session w).latest.counter ≠ 0) :
    Session.newest (i.last w.medium) = some (i.session w).latest := by
  obtain ⟨latest, follows⟩ := h.settled idle
  refine Session.newest_of_lt latest fun r found => ?_
  rw [found] at follows
  rw [UInt16.lt_iff_toNat_lt]
  rcases follows with ⟨succ, -⟩ | ⟨top, zero⟩
  · rcases counter_succ_cases succ with ⟨-, wrapped⟩ | succ
    · exact absurd wrapped counted
    · omega
  · rw [top, zero]
    decide

/-- Where the counter has just wrapped, the record before the latest one is the newest one. -/
theorem newest_of_wrapped (wrapped : (i.session w).latest.counter = 0) :
    ∃ r, (i.last w.medium).get (i.session w).target.other = some r ∧
      Session.newest (i.last w.medium) = some r ∧ r.counter.toNat = 65535 ∧
      r.counter + 1 = 0 ∧ r.payload ≠ (i.session w).latest.payload := by
  obtain ⟨latest, follows⟩ := h.settled idle
  cases found : (i.last w.medium).get (i.session w).target.other with
  | none =>
    rw [found] at follows
    exact absurd wrapped follows
  | some r =>
    rw [found] at follows
    rcases follows with ⟨succ, payload⟩ | ⟨top, -⟩
    · rw [wrapped] at succ
      have top : r.counter.toNat = 65535 := by
        rcases counter_succ_cases succ with ⟨top, -⟩ | succ
        · exact top
        · cases succ
      refine ⟨r, rfl, Session.newest_of_lt found fun r' found' => ?_, top, succ, payload⟩
      rw [Side.other_other, latest] at found'
      cases found'
      rw [UInt16.lt_iff_toNat_lt, top, wrapped]
      decide
    · rw [wrapped] at top
      cases top

/-- A new storage loads the latest settings, unless the counter has just wrapped. -/
theorem reload_iff :
    i.reload w.medium = .ok (i.session w).settings ↔ (i.session w).latest.counter ≠ 0 := by
  constructor
  · intro same wrapped
    obtain ⟨r, found, newest, -, -, differs⟩ := h.newest_of_wrapped idle wrapped
    rw [get_last] at found
    rw [reload_of_newest newest] at same
    exact (h.order _).settings_ne found h.payload differs (Except.ok.inj same)
  · intro counted
    exact reload_of_newest (h.newest_eq idle counted)

end Newest

/-! ## New storages -/

section Boot

variable {m : Medium} (order : ∀ side, ∃ log, Log.InOrder side log ((i.volume side).content m))
include order

/-- A new storage that finds no record. -/
theorem boot_of_none (none : ∀ side, (i.last m).get side = none) : i.Regular (i.boot m) := by
  have newest := Session.newest_eq_none none
  have latest : (i.recovered m).latest = .default := by
    rw [i.latest_recovered, newest]
    rfl
  refine { site := rfl, order := fun side => inOrder_recovered (order side), current := ?_, payload := ?_,
           fresh := fun _ => ⟨?_, none⟩, settled := fun idle => ?_ }
  · rw [session_boot, latest]
    exact Record.integrity_default
  · rw [session_boot, latest]
    exact ⟨.default, rfl⟩
  · rw [session_boot, latest]
    rfl
  · rw [session_boot, i.writePending_recovered, newest] at idle
    cases idle

/-- A new storage that goes on with the newest record. -/
theorem boot_of_newest {r : Record} (newest : Session.newest (i.last m) = some r)
    (latest : (i.last m).get (Side.ofCounter r.counter) = some r)
    (follows : r.Follows ((i.last m).get (Side.ofCounter r.counter).other)) :
    i.Regular (i.boot m) := by
  have recovered : (i.recovered m).latest = r := by
    rw [i.latest_recovered, newest]
    rfl
  obtain ⟨log, rs, kept, -⟩ := order (Side.ofCounter r.counter)
  have mem : r ∈ rs := by
    rw [get_last, kept.latest?_eq] at latest
    exact List.mem_of_getLast? latest
  refine { site := rfl, order := fun side => inOrder_recovered (order side), current := ?_, payload := ?_,
           fresh := fun pending => ?_, settled := fun _ => ?_ }
  · rw [session_boot, recovered]
    exact kept.current r mem
  · rw [session_boot, recovered]
    exact kept.payload r mem
  · rw [session_boot, i.writePending_recovered, newest] at pending
    rw [Option.elim_some, kept.current r mem] at pending
    cases pending
  · rw [session_boot, Session.target, recovered]
    exact ⟨latest, follows⟩

end Boot

/-- A new storage on a blank medium. -/
theorem boot {m : Medium} (blank : i.Blank m) : i.Regular (i.boot m) :=
  boot_of_none (fun side => ⟨.empty, [], blank side ▸ Log.Keeps.of_erased _, nofun⟩)
    (last_of_blank blank)

variable (h : i.Regular w)
include h

/-- A new storage finds the logs as they are. It falls back behind a counter that has just
wrapped. -/
theorem reboot : i.Regular (i.boot w.medium) := by
  have order : ∀ side, ∃ log, Log.InOrder side log ((i.volume side).content w.medium) :=
    fun side => ⟨_, h.order side⟩
  cases pending : (i.session w).writePending with
  | true => exact boot_of_none order (h.fresh pending).2
  | false =>
    obtain ⟨latest, follows⟩ := h.settled pending
    by_cases wrapped : (i.session w).latest.counter = 0
    · obtain ⟨r, found, newest, top, succ, -⟩ := h.newest_of_wrapped pending wrapped
      have side : Side.ofCounter r.counter = (i.session w).target.other := by
        have other := Side.ofCounter_succ r.counter
        rw [succ, ← wrapped] at other
        rw [Session.target, other, Side.other_other]
      refine boot_of_newest order newest (side ▸ found) ?_
      rw [side, Side.other_other, latest]
      exact .inr ⟨top, wrapped⟩
    · exact boot_of_newest order (h.newest_eq pending wrapped) latest follows

/-! ## Steps -/

/-- A load keeps the logs regular. -/
theorem load : i.Regular (i.load w).2 := by
  rw [load_eq h.site]
  exact { h with site := rfl }

/-- A save that stages nothing has nothing to do. -/
theorem saved_idle {settings : Settings}
    (idle : ((i.session w).stage settings.encode).writePending = false) :
    i.Regular ⟨w.medium, ⟨i.site, some ((i.session w).stage settings.encode)⟩⟩ ∧
      ((i.session w).stage settings.encode).latest.payload = settings.encode := by
  obtain ⟨same, payload⟩ := Session.stage_of_idle idle
  rw [same]
  exact ⟨{ h with site := rfl }, payload.symm⟩

/-- The next generation follows the latest one. -/
theorem follows_staged {settings : Settings}
    (pending : ((i.session w).stage settings.encode).writePending = true) :
    ((i.session w).stage settings.encode).latest.Follows
      ((i.last w.medium).get (i.session w).target) := by
  rw [Session.stage_of_pending pending]
  cases fresh : (i.session w).writePending with
  | true =>
    obtain ⟨zero, none⟩ := h.fresh fresh
    rw [none]
    show (i.session w).latest.counter + 1 ≠ 0
    rw [zero]
    decide
  | false =>
    rw [(h.settled fresh).1]
    exact .inl ⟨rfl, (Session.ne_of_pending fresh pending).symm⟩

/-- A save that writes a new generation appends it to the log of its side. -/
theorem saved_written {settings : Settings} {s : Session}
    (staged : s = (i.session w).stage settings.encode) (pending : s.writePending = true) :
    i.Regular ⟨i.stored s w.medium Record.size,
      ⟨i.site, some { s.appended (i.target s) with writePending := false }⟩⟩ := by
  have logs : s.logs = (i.session w).logs := by rw [staged, Session.logs_stage]
  have follows : s.latest.Follows ((i.last w.medium).get (i.session w).target) := by
    rw [staged] at pending ⊢
    exact h.follows_staged pending
  have target : s.target = (i.session w).target.other := by
    rw [staged] at pending ⊢
    exact Session.target_stage pending
  have current : s.latest.integrity = .current := by
    rw [staged] at pending ⊢
    exact Session.current_stage pending h.current
  have payload : s.latest.payload = settings.encode := by
    rw [staged] at pending ⊢
    exact Session.payload_stage pending
  obtain ⟨order, last⟩ := inOrder_stored (logs ▸ h.order s.target) current ⟨settings, payload⟩
  refine { site := rfl, order := fun side => ?_, current := current,
           payload := ⟨settings, payload⟩, fresh := nofun, settled := fun _ => ⟨last, ?_⟩ }
  · rcases side.eq_or_eq_other s.target with rfl | rfl
    · exact order
    · exact inOrder_other_stored (logs ▸ h.order s.target.other)
  · show s.latest.Follows ((i.last (i.stored s w.medium Record.size)).get s.target.other)
    rw [get_last, content_other_stored, target, Side.other_other, ← get_last]
    exact follows

/-- A save keeps the logs regular. -/
theorem saved {settings : Settings} {result : Except Error Unit} {s : Session} {m : Medium}
    (saved : i.Saved .none ((i.session w).stage settings.encode) w.medium result s m) :
    i.Regular ⟨m, ⟨i.site, some s⟩⟩ ∧ s.writePending = false ∧
      s.latest.payload = settings.encode := by
  rcases saved.of_healthy.2 with ⟨idle, rfl, rfl⟩ | ⟨pending, rfl, rfl⟩
  · obtain ⟨regular, payload⟩ := h.saved_idle idle
    exact ⟨regular, idle, payload⟩
  · exact ⟨h.saved_written rfl pending, rfl, Session.payload_stage pending⟩

end Regular

/-! ## Runs -/

/-- Every run leaves regular logs. -/
theorem Runs.regular (erasable : ∀ side, (i.volume side).Erasable i.hardware .none) {n : Nat}
    (run : i.Runs n w) : i.Regular w := by
  induction run with
  | boot blank => exact .boot blank
  | reboot _ ih => exact ih.reboot
  | load _ ih => exact ih.load
  | save _ settings ih =>
    obtain ⟨result, s, m, run, saved⟩ := save_cases rfl erasable ih.site settings
    rw [run]
    exact (ih.saved saved).1

/-- As long as the counter has not wrapped, it counts the generations. -/
theorem Runs.counter_eq (erasable : ∀ side, (i.volume side).Erasable i.hardware .none) {n : Nat}
    (run : i.Runs n w) (few : n < 65536) :
    (i.session w).latest.counter.toNat = n ∧ ((i.session w).writePending = false → 0 < n) := by
  induction run with
  | boot blank =>
    have newest := newest_of_blank blank
    rw [session_boot, i.latest_recovered, i.writePending_recovered, newest]
    exact ⟨rfl, nofun⟩
  | @reboot n w run ih =>
    have regular := run.regular erasable
    obtain ⟨counter, counted⟩ := ih few
    rw [session_boot, i.latest_recovered, i.writePending_recovered]
    -- a new storage takes the counter from the newest record, or starts again with the default
    -- settings if nothing has been written
    cases pending : (i.session w).writePending with
    | true =>
      obtain ⟨zero, none⟩ := regular.fresh pending
      rw [Session.newest_eq_none none]
      rw [zero] at counter
      exact ⟨counter, nofun⟩
    | false =>
      have pos := counted pending
      have wrapped : (i.session w).latest.counter ≠ 0 := by
        intro zero
        rw [zero] at counter
        exact absurd counter (Nat.ne_of_lt pos)
      rw [regular.newest_eq pending wrapped]
      exact ⟨counter, fun _ => pos⟩
  | load run ih =>
    rw [load_eq (run.regular erasable).site]
    exact ih few
  | @save n w run settings ih =>
    have regular := run.regular erasable
    obtain ⟨counter, counted⟩ := ih (Nat.lt_of_le_of_lt (Nat.le_add_right _ _) few)
    obtain ⟨result, s, m, ran, saved⟩ := save_cases rfl erasable regular.site settings
    rw [ran]
    rw [advances_eq erasable regular.site] at few ⊢
    show s.latest.counter.toNat = _ ∧ (s.writePending = false → _)
    rw [saved.ended.latest_eq]
    cases pending : ((i.session w).stage settings.encode).writePending with
    | false =>
      have same := (Session.stage_of_idle pending).1
      rw [same] at pending ⊢
      exact ⟨counter, fun _ => counted pending⟩
    | true =>
      rw [pending, ← counter] at few
      refine ⟨?_, fun _ => Nat.succ_pos n⟩
      rw [Session.toNat_counter_stage pending (Nat.lt_of_succ_lt_succ few), counter]
      rfl

/-! ## A run on the flash -/

/-- Settings that differ from one number to the next. -/
def numbered (k : Nat) : Settings :=
  { Settings.default with brightness := k.toUInt8, voxLevel := (k / 256).toUInt8 }

/-- The flash after the settings from 1 to `k` are saved. -/
def counted : Nat → World
  | 0 => flash.boot .erased
  | k + 1 => (flash.save .none (counted k) (numbered (k + 1))).2

theorem encode_numbered_succ (k : Nat) : (numbered (k + 1)).encode ≠ (numbered k).encode := by
  intro same
  have brightness : ∀ s : Settings, s.encode[0] = s.brightness := by
    intro s
    simp [Settings.getElem_encode, s.toList_encode]
  have first : (numbered (k + 1)).encode[0] = (numbered k).encode[0] := by rw [same]
  rw [brightness, brightness] at first
  have low : (k + 1).toUInt8.toNat = k.toUInt8.toNat := congrArg UInt8.toNat first
  simp [Nat.toUInt8] at low
  omega

/-- Every save makes a new generation. -/
theorem advances_counted (k : Nat) :
    flash.Runs k (counted k) ∧ flash.advances (counted k) (numbered (k + 1)) = true := by
  induction k with
  | zero => exact ⟨.boot flash_blank, by decide +kernel⟩
  | succ k ih =>
    obtain ⟨run, advances⟩ := ih
    have regular := run.regular (flash_erasable .none)
    have next := run.save (numbered (k + 1))
    rw [advances] at next
    refine ⟨next, ?_⟩
    obtain ⟨result, s, m, ran, saved⟩ :=
      save_cases rfl (flash_erasable .none) regular.site (numbered (k + 1))
    have payload := (regular.saved saved).2.2
    rw [counted, ran, advances_eq (flash_erasable .none) rfl]
    refine Session.stage_pending_of_ne fun same => encode_numbered_succ (k + 1) ?_
    exact same.trans payload

end Installation

end TwinLog
