-- SUMMARY: Saves after the reset of a log was interrupted, and which of them survive.
import TwinLog.Proofs.Consistency
import TwinLog.Proofs.Log.Patch
import TwinLog.Proofs.Runs

/-! # Interrupted resets

When power is lost while a full log is reset, a new storage takes the log for an empty one if its
first word is erased, and appends to it over the old records. Every second save goes there. Such a
save survives if the place behind its record starts with an erased word, so that the old records
are not read (`Installation.Ahead.reload_iff`); the saves in between are not affected
(`Installation.Level.reload_eq`). -/

namespace TwinLog.Installation

variable (i : Installation)

/-- A log that has no room for another record, and whose records are older than a generation. -/
structure FullLog (side : Side) (before : List UInt8) (old : List Record) (first : Nat) :
    Prop where
  keeps : ∃ log, Log.Keeps log before old
  sides : ∀ r ∈ old, Side.ofCounter r.counter = side
  length : before.length = (i.volume side).size
  full : (i.volume side).size < Record.size * old.length + Record.size
  last : ∀ r, old.getLast? = some r → r.counter.toNat < first

/-- A storage that has gone on with `count` records in the log of one side. The other log is in
order. -/
structure Resumed (side : Side) (count generation : Nat) (w : World) : Prop where
  site : w.storage.site = i.site
  idle : (i.session w).writePending = false
  current : (i.session w).latest.integrity = .current
  payload : ∃ settings : Settings, (i.session w).latest.payload = settings.encode
  counter : (i.session w).latest.counter.toNat = generation
  trusted : ((i.session w).logs.get side).status ≠ .corrupt
  free : ((i.session w).logs.get side).freeOffset = Record.size * count
  other : Log.InOrder side.other ((i.session w).logs.get side.other)
    ((i.volume side.other).content w.medium)

/-- The latest record is in the other log. -/
structure Level (side : Side) (before : List UInt8) (n first j : Nat) (w : World) : Prop
    extends i.Resumed side j (first + 2 * j) w where
  target : (i.session w).target = side.other
  latest : (i.last w.medium).get side.other = some (i.session w).latest
  patched : Log.Patched before n (first + 2 * j) j ((i.volume side).content w.medium)

/-- The latest record is in the log that was reset in part. -/
structure Ahead (side : Side) (before : List UInt8) (old : List Record) (n first j : Nat)
    (w : World) : Prop extends i.Resumed side (j + 1) (first + 2 * j + 1) w where
  target : (i.session w).target = side
  previous : ∃ r, (i.last w.medium).get side.other = some r ∧
    r.counter + 1 = (i.session w).latest.counter ∧ r.payload ≠ (i.session w).latest.payload
  topped : Log.Topped before old n (first + 2 * j) j (i.session w).latest
    ((i.volume side).content w.medium)

variable {i} {side : Side} {before : List UInt8} {old : List Record} {n first j : Nat} {w : World}

/-! ## What is loaded -/

/-- The latest record is the newest one if it is in the other log. -/
theorem Level.reload_eq (h : i.Level side before n first j w)
    (full : i.FullLog side before old first) (count : j ≤ old.length) :
    i.reload w.medium = .ok (i.session w).settings := by
  obtain ⟨log, keeps⟩ := full.keeps
  have newest : Session.newest (i.last w.medium) = some (i.session w).latest := by
    refine Session.newest_of_lt h.latest fun r found => ?_
    rw [Side.other_other, get_last] at found
    have below : ∀ o, old.getLast? = some o → o.counter.toNat < first + 2 * j :=
      fun o last => Nat.lt_of_lt_of_le (full.last o last) (Nat.le_add_right _ _)
    rw [UInt16.lt_iff_toNat_lt, h.counter]
    exact h.patched.latest?_lt keeps count below found
  exact reload_of_newest newest

namespace Ahead

variable (h : i.Ahead side before old n first j w) (full : i.FullLog side before old first)
  (count : j < old.length)
include h full count

/-- Every record of the log that was reset in part is the latest generation, or older than the
previous one. -/
theorem counter_cases {r : Record} (found : (i.last w.medium).get side = some r) :
    r.counter = (i.session w).latest.counter ∨ r.counter.toNat < first + 2 * j := by
  obtain ⟨log, keeps⟩ := full.keeps
  have own : Side.ofCounter (i.session w).latest.counter = side := h.target
  have counter := h.counter
  rw [get_last] at found
  rcases h.topped.latest?_cases keeps h.current count
      (fun o last => Nat.lt_of_lt_of_le (full.last o last) (Nat.le_add_right _ _))
      (fun o mem => (full.sides o mem).trans own.symm) found with older | ⟨le, same⟩
  · exact .inr older
  · rw [Side.ofCounter_eq_iff] at same
    by_cases equal : r.counter.toNat = (i.session w).latest.counter.toNat
    · exact .inl (UInt16.toNat_inj.1 equal)
    · -- the previous generation is on the other side
      exact .inr (by omega)

/-- The latest settings are loaded if they are read from the log that was reset in part. -/
theorem reload_iff_agrees :
    i.reload w.medium = .ok (i.session w).settings ↔
      ∃ r, Log.latest? ((i.volume side).content w.medium) = some r ∧
        r.Agrees (i.session w).latest := by
  obtain ⟨p, found, succ, differs⟩ := h.previous
  have counter := h.counter
  have previous : p.counter.toNat = first + 2 * j := by
    rcases counter_succ_cases succ with ⟨-, zero⟩ | succ
    · rw [zero] at counter
      cases counter
    · omega
  have old : p.settings ≠ (i.session w).latest.settings := by
    rw [get_last] at found
    exact h.other.settings_ne found h.payload differs
  have loaded : ∀ {r : Record}, Session.newest (i.last w.medium) = some r →
      (i.reload w.medium = .ok (i.session w).settings ↔
        r.settings = (i.session w).latest.settings) := by
    intro r newest
    rw [reload_of_newest newest]
    exact ⟨Except.ok.inj, congrArg Except.ok⟩
  rw [← get_last]
  -- the record on the other side is of the previous generation: it is loaded unless a newer one is
  -- read from this side
  cases top : (i.last w.medium).get side with
  | none =>
    rw [loaded ((Session.newest_of_none top).trans found)]
    exact iff_of_false old fun ⟨r, found, _⟩ => by cases found
  | some r =>
    rcases h.counter_cases full count top with same | older
    · have newest : Session.newest (i.last w.medium) = some r := by
        refine Session.newest_of_lt top fun r' found' => ?_
        rw [found] at found'
        cases found'
        rw [UInt16.lt_iff_toNat_lt, same]
        omega
      rw [loaded newest]
      constructor
      · exact fun settings => ⟨r, rfl, same, settings⟩
      · rintro ⟨r', found', agrees⟩
        cases found'
        exact agrees.2
    · have newest : Session.newest (i.last w.medium) = some p := by
        refine Session.newest_of_lt found fun r' found' => ?_
        rw [Side.other_other, top] at found'
        cases found'
        rw [UInt16.lt_iff_toNat_lt]
        omega
      rw [loaded newest]
      refine iff_of_false old ?_
      rintro ⟨r', found', agrees⟩
      cases found'
      refine agrees.not_lt ?_
      omega

/-- The latest settings survive if the place behind their record starts with an erased word. At
the end of the log they survive if their record does. -/
theorem reload_iff :
    i.reload w.medium = .ok (i.session w).settings ↔
      (j + 1 < old.length ∧ Record.size * (j + 1) + 4 ≤ n) ∨
        (j + 1 = old.length ∧ ∃ r, Record.read? ((((i.volume side).content w.medium).drop
          (Record.size * j)).take Record.size) = some r ∧ r.Agrees (i.session w).latest) := by
  obtain ⟨log, keeps⟩ := full.keeps
  have counter := h.counter
  rw [h.reload_iff_agrees full count]
  refine h.topped.latest?_agrees_iff keeps h.current count ?_ fun o last => ?_
  · omega
  · have := full.last o last
    omega

end Ahead

/-! ## Saves -/

section Save

variable {settings : Settings} {s : Session} (staged : s = (i.session w).stage settings.encode)
  (pending : s.writePending = true)
include staged pending

/-- What is staged follows the latest generation. -/
theorem Resumed.staging {count generation : Nat} (h : i.Resumed side count generation w)
    (few : generation < 65535) :
    s.logs = (i.session w).logs ∧ s.target = (i.session w).target.other ∧
      s.latest.integrity = .current ∧ s.latest.payload = settings.encode ∧
      s.latest.counter.toNat = generation + 1 ∧
      (i.session w).latest.counter + 1 = s.latest.counter ∧
      (i.session w).latest.payload ≠ s.latest.payload := by
  rw [staged] at pending ⊢
  have payload := Session.payload_stage pending
  have succ := Session.counter_stage pending
  have differs := Session.ne_of_pending h.idle pending
  refine ⟨Session.logs_stage, Session.target_stage pending,
    Session.current_stage pending h.current, payload, ?_, succ, ?_⟩
  · rw [← h.counter] at few ⊢
    exact Session.toNat_counter_stage pending few
  · rw [payload]
    exact differs.symm

/-- The next generation is written over an old record. -/
theorem Level.written (h : i.Level side before n first j w)
    (full : i.FullLog side before old first) (count : j < old.length)
    (few : first + 2 * j < 65535) :
    i.Ahead side before old n first j ⟨i.stored s w.medium Record.size,
      ⟨i.site, some { s.appended (i.target s) with writePending := false }⟩⟩ := by
  obtain ⟨logs, target, current, payload, counter, succ, differs⟩ :=
    h.toResumed.staging staged pending few
  obtain ⟨log, keeps⟩ := full.keeps
  rw [h.target, Side.other_other] at target
  subst target
  have trusted : s.log.status ≠ .corrupt := by
    rw [Session.log, logs]
    exact h.trusted
  have free : s.log.freeOffset = Record.size * j := by
    rw [Session.log, logs]
    exact h.free
  -- there seems to be room for the record
  have room : ¬(i.volume s.target).resets s.log := by
    have inside := keeps.inside
    have slots := Nat.mul_le_mul_left Record.size count
    rw [full.length] at inside
    rw [Nat.mul_succ] at slots
    rintro (corrupt | full)
    · exact trusted corrupt
    · rw [free] at full
      omega
  refine { site := rfl, idle := rfl, current := current, payload := ⟨settings, payload⟩,
           counter := counter, trusted := ?_, free := ?_, other := ?_, target := rfl,
           previous := ?_, topped := ?_ }
  · show ((s.logs.set s.target _).get s.target).status ≠ .corrupt
    rw [Sides.get_set_self]
    exact nofun
  · show ((s.logs.set s.target _).get s.target).freeOffset = _
    rw [Sides.get_set_self, Nat.mul_succ, ← free]
    exact if_neg room
  · exact inOrder_other_stored (logs ▸ h.other)
  · refine ⟨(i.session w).latest, ?_, succ, differs⟩
    rw [get_last, content_other_stored, ← get_last]
    exact h.latest
  · show Log.Topped before old n _ j s.latest
      ((i.volume s.target).content (i.stored s w.medium Record.size))
    rw [stored, Installation.target, Volume.appended, if_neg room, Record.take_size_encode,
      Volume.content_written, free]
    exact h.patched.append keeps count _ s.latest

/-- A log that has been filled up over the old records is reset, and all is in order again. -/
theorem Level.reset (h : i.Level side before n first j w)
    (full : i.FullLog side before old first) (count : j = old.length)
    (few : first + 2 * j < 65535) :
    i.Regular ⟨i.stored s w.medium Record.size,
      ⟨i.site, some { s.appended (i.target s) with writePending := false }⟩⟩ := by
  obtain ⟨logs, target, current, payload, counter, succ, differs⟩ :=
    h.toResumed.staging staged pending few
  rw [h.target, Side.other_other] at target
  subst target
  -- there is no room behind as many records as the log held before
  have resets : (i.volume s.target).resets s.log := by
    refine .inr ?_
    rw [Session.log, logs, h.free, count]
    exact full.full
  have kept := Log.keeps_appended_of_resets (m := w.medium) i.hardware (i.writable s.target)
    resets current ⟨settings, payload⟩
  refine { site := rfl, order := fun side => ?_, current := current,
           payload := ⟨settings, payload⟩, fresh := nofun, settled := fun _ => ⟨?_, ?_⟩ }
  · rcases side.eq_or_eq_other s.target with rfl | rfl
    · refine ⟨[s.latest], ?_, fun r mem => ?_⟩
      · show Log.Keeps ((s.logs.set s.target _).get s.target) _ _
        rw [Sides.get_set_self]
        exact kept
      · rw [List.mem_singleton.1 mem]
        rfl
    · exact inOrder_other_stored (logs ▸ h.other)
  · show (i.last (i.stored s w.medium Record.size)).get s.target = some s.latest
    rw [get_last]
    exact kept.latest?_eq
  · show s.latest.Follows ((i.last (i.stored s w.medium Record.size)).get s.target.other)
    rw [get_last, content_other_stored, ← get_last, h.latest]
    exact .inl ⟨succ, differs⟩

/-- The next generation goes to the other log. -/
theorem Ahead.written (h : i.Ahead side before old n first j w)
    (full : i.FullLog side before old first) (few : first + 2 * j + 1 < 65535) :
    i.Level side before n first (j + 1) ⟨i.stored s w.medium Record.size,
      ⟨i.site, some { s.appended (i.target s) with writePending := false }⟩⟩ := by
  obtain ⟨logs, target, current, payload, counter, -, -⟩ :=
    h.toResumed.staging staged pending few
  obtain ⟨log, keeps⟩ := full.keeps
  rw [h.target] at target
  obtain rfl : side = s.target.other := by rw [target, Side.other_other]
  have order : Log.InOrder s.target (s.logs.get s.target) ((i.volume s.target).content w.medium) := by
    have other := h.other
    rwa [Side.other_other, ← logs] at other
  obtain ⟨order, last⟩ := inOrder_stored order current ⟨settings, payload⟩
  -- nothing is written to the log that was reset in part, so what is known of it stays
  refine { site := rfl, idle := rfl, current := current, payload := ⟨settings, payload⟩,
           counter := counter, trusted := ?_, free := ?_, other := ?_, target := ?_,
           latest := ?_, patched := ?_ }
  · show ((s.logs.set s.target _).get s.target.other).status ≠ .corrupt
    rw [Sides.get_set_of_ne _ (Side.other_ne _), logs]
    exact h.trusted
  · show ((s.logs.set s.target _).get s.target.other).freeOffset = _
    rw [Sides.get_set_of_ne _ (Side.other_ne _), logs]
    exact h.free
  · rw [Side.other_other]
    exact order
  · exact (Side.other_other _).symm
  · rw [Side.other_other]
    exact last
  · rw [content_other_stored]
    have latest := h.counter
    exact h.topped.patched keeps h.current (by omega) (by omega)

end Save

end TwinLog.Installation
