-- SUMMARY: Which requests the calls of a storage make, and where each generation is written.
import TwinLog.Proofs.Execution
import TwinLog.Proofs.Runs

/-! # The schedule of writes and erases

From erased partitions, the requests of every save follow from the number of saves before it that
had something new to write. The generations alternate between the two sides, each side is filled
from its start, and it is erased when it is full (`Installation.save_on_schedule`). The number of
saves is not bounded: the counter may wrap. -/

namespace TwinLog

/-! ## Calls -/

inductive Call where
  | load
  | save (settings : Settings)

namespace Call

/-- The image that was saved last, by calls of which the latest one is the first. -/
def saved? : List Call → Option Settings.Image
  | [] => none
  | .load :: calls => saved? calls
  | .save settings :: _ => some settings.encode

/-- A save after the calls is effective: it is the first one, or its image is not that of the save
before. -/
def effective (settings : Settings) (calls : List Call) : Bool :=
  saved? calls ≠ some settings.encode

def effectiveSaves : List Call → Nat
  | [] => 0
  | .load :: calls => effectiveSaves calls
  | .save settings :: calls => effectiveSaves calls + (effective settings calls).toNat

end Call

/-! ## Places -/

namespace Side

/-- The side of the generation with a number: odd ones go to `b`, even ones to `a`. -/
def ofNumber (n : Nat) : Side :=
  if n % 2 = 1 then .b else .a

/-- How many of the first `n` generations belong to the side. -/
def share : Side → Nat → Nat
  | .a, n => n / 2
  | .b, n => (n + 1) / 2

theorem share_succ (n : Nat) :
    (ofNumber (n + 1)).share (n + 1) = (ofNumber (n + 1)).share n + 1 := by
  unfold ofNumber
  split
  · show (n + 1 + 1) / 2 = (n + 1) / 2 + 1
    omega
  · show (n + 1) / 2 = n / 2 + 1
    omega

theorem share_other_succ (n : Nat) :
    (ofNumber (n + 1)).other.share (n + 1) = (ofNumber (n + 1)).other.share n := by
  unfold ofNumber
  split
  · show (n + 1) / 2 = n / 2
    omega
  · show (n + 1 + 1) / 2 = (n + 1) / 2
    omega

theorem share_ofNumber (n : Nat) : (ofNumber (n + 1)).share (n + 1) = (n + 1 + 1) / 2 := by
  unfold ofNumber
  split
  · rfl
  · show (n + 1) / 2 = (n + 1 + 1) / 2
    omega

/-- The side of a counter that has counted the generations, also where it has wrapped. -/
theorem ofCounter_eq_ofNumber {counter : UInt16} {n : Nat} (h : counter.toNat = n % 65536) :
    ofCounter counter = ofNumber n := by
  rw [ofCounter_eq, h]
  unfold ofNumber
  rcases Nat.mod_two_eq_zero_or_one n with even | odd
  · rw [if_pos (by omega), if_neg (by omega)]
  · rw [if_neg (by omega), if_pos odd]

end Side

namespace Volume

/-- How many records the volume takes until it is full. -/
def capacity (v : Volume) : Nat :=
  v.size / Record.size

/-- The slot of the `k`th record of the volume, counted from one. -/
def slot (v : Volume) (k : Nat) : Nat :=
  (k - 1) % v.capacity

/-- How many records the volume holds after the `k`th one. -/
def held (v : Volume) (k : Nat) : Nat :=
  if k = 0 then 0 else v.slot k + 1

/-- The requests that write the `k`th record of the volume. -/
def scheduled (v : Volume) (k : Nat) (r : Record) : List Request :=
  (if 1 < k ∧ v.slot k = 0 then [⟨v.device, .erase v.start.toUInt32 v.size⟩] else []) ++
    [⟨v.device, .write (v.start + Record.size * v.slot k).toUInt32 r.encode.toList⟩,
      ⟨v.device, .sync⟩]

/-- The log is as the schedule has it after `k` records. -/
structure Filled (v : Volume) (log : LogState) (k : Nat) : Prop where
  trusted : log.status ≠ .corrupt
  free : log.freeOffset = Record.size * v.held k

section Slots

variable {v : Volume} (writable : v.Writable)
include writable

theorem capacity_pos : 0 < v.capacity :=
  Nat.div_pos writable.room (by decide)

theorem held_le (k : Nat) : v.held k ≤ v.capacity := by
  unfold held slot
  split
  · exact Nat.zero_le _
  · exact Nat.mod_lt _ (capacity_pos writable)

/-- The next record goes behind the ones that are held, or to the start of a full volume. -/
theorem slot_succ (k : Nat) :
    v.slot (k + 1) = if v.held k = v.capacity then 0 else v.held k := by
  cases k with
  | zero => simp [slot, held]
  | succ k =>
    have le := held_le writable (k + 1)
    have next : v.slot (k + 1 + 1) = (v.slot (k + 1) + 1) % v.capacity :=
      (Nat.mod_add_mod k _ 1).symm
    have held : v.held (k + 1) = v.slot (k + 1) + 1 := rfl
    rw [next, ← held]
    split
    · rename_i full
      rw [full, Nat.mod_self]
    · rename_i room
      exact Nat.mod_eq_of_lt (Nat.lt_of_le_of_ne le room)

/-- The volume is full where the schedule has an erase. -/
theorem held_eq_capacity_iff (k : Nat) :
    v.held k = v.capacity ↔ 1 < k + 1 ∧ v.slot (k + 1) = 0 := by
  have pos := capacity_pos writable
  rw [slot_succ writable]
  cases k with
  | zero =>
    have none : v.held 0 = 0 := rfl
    omega
  | succ k =>
    have some : v.held (k + 1) = v.slot (k + 1) + 1 := rfl
    split
    · rename_i full
      exact ⟨fun _ => ⟨Nat.succ_lt_succ (Nat.succ_pos k), rfl⟩, fun _ => full⟩
    · omega

variable {log : LogState} {k : Nat} (filled : v.Filled log k)
include filled

theorem Filled.resets_iff : v.resets log ↔ v.held k = v.capacity := by
  have le := held_le writable k
  have full : v.size < Record.size * v.held k + Record.size ↔ v.capacity < v.held k + 1 := by
    rw [capacity, Nat.div_lt_iff_lt_mul (by decide), Nat.succ_mul, Nat.mul_comm]
  unfold resets
  rw [filled.free, full]
  simp only [filled.trusted, false_or]
  omega

theorem Filled.place_eq : v.place log = Record.size * v.slot (k + 1) := by
  unfold place
  rw [slot_succ writable]
  simp only [filled.resets_iff writable]
  split
  · rfl
  · exact filled.free

/-- A record that is appended is the next one. -/
theorem Filled.next : v.Filled (v.next log) (k + 1) := by
  refine ⟨nofun, ?_⟩
  rw [next_eq, filled.place_eq writable]
  rfl

theorem Filled.requests_eq (r : Record) :
    v.requests log r ++ [⟨v.device, .sync⟩] = v.scheduled (k + 1) r := by
  unfold requests scheduled
  rw [filled.place_eq writable, List.append_assoc]
  simp only [filled.resets_iff writable, held_eq_capacity_iff writable]
  rfl

end Slots

end Volume

/-! ## Runs of calls -/

namespace Installation

variable (i : Installation)

def step (w : World) : Call → World
  | .load => (i.load w).2
  | .save settings => (i.save .none w settings).2

def trace (w : World) : Call → List Request
  | .load => (w.storage.load i.table).trace i.hardware.answer w.medium
  | .save settings => (w.storage.save i.table settings).trace i.hardware.answer w.medium

/-- The world after calls of a new storage, of which the latest one is the first. -/
def after (m : Medium) : List Call → World
  | [] => i.boot m
  | call :: calls => i.step (after m calls) call

/-- The session and the logs are as the schedule has them after the calls. -/
structure OnSchedule (calls : List Call) (w : World) : Prop extends i.Regular w where
  mounted : calls ≠ [] → w.storage.session.isSome
  saved : Call.saved? calls =
    if (i.session w).writePending then none else some (i.session w).latest.payload
  counter : (i.session w).latest.counter.toNat = Call.effectiveSaves calls % 65536
  filled : ∀ side,
    (i.volume side).Filled ((i.session w).logs.get side) (side.share (Call.effectiveSaves calls))

namespace OnSchedule

variable {i} {calls : List Call} {w : World}

/-- A new storage on a blank medium. -/
theorem boot {m : Medium} (blank : i.Blank m) : i.OnSchedule [] (i.boot m) := by
  have newest := newest_of_blank blank
  refine { toRegular := .boot blank, mounted := fun h => absurd rfl h, saved := ?_, counter := ?_,
           filled := fun side => ?_ }
  · rw [session_boot, i.writePending_recovered, newest]
    rfl
  · rw [session_boot, i.latest_recovered, newest]
    rfl
  · have erased : Log.Keeps .empty ((i.volume side).content m) [] :=
      blank side ▸ Log.Keeps.of_erased _
    rw [session_boot, get_logs_recovered, erased.state_recovered (content_ne_nil m side)]
    cases side <;> exact ⟨nofun, rfl⟩

variable (h : i.OnSchedule calls w)
include h

/-- A save stages its image if it is effective. -/
theorem writePending_stage (settings : Settings) :
    ((i.session w).stage settings.encode).writePending = Call.effective settings calls := by
  unfold Call.effective
  rw [h.saved]
  cases pending : (i.session w).writePending with
  | true => simp [Session.stage, pending]
  | false =>
    rw [Session.writePending_stage_of_idle pending]
    simp [eq_comm]

/-- A mounted storage makes no requests to mount. -/
theorem reads_eq_nil {reads : List Request} (mounting : i.Mounting w reads) (later : calls ≠ []) :
    reads = [] :=
  mounting.2 (h.mounted later)

/-- A load makes requests only if it is the first call. -/
theorem load : i.OnSchedule (.load :: calls) (i.load w).2 ∧
    (calls ≠ [] → i.trace w .load = []) := by
  obtain ⟨reads, mounting, executes⟩ := executes_load h.site
  refine ⟨?_, fun later => executes.trace_eq.trans (h.reads_eq_nil mounting later)⟩
  have regular := h.toRegular.load
  rw [load_eq h.site] at regular ⊢
  exact { toRegular := regular, mounted := fun _ => rfl, saved := h.saved, counter := h.counter,
          filled := h.filled }

/-- A save that is not effective makes no request. -/
theorem save_idle {settings : Settings} (idle : Call.effective settings calls = false) :
    i.OnSchedule (.save settings :: calls) (i.save .none w settings).2 ∧
      i.trace w (.save settings) = [] := by
  have nothing := (h.writePending_stage settings).trans idle
  have later : calls ≠ [] := by
    rintro rfl
    cases idle
  obtain ⟨reads, mounting, executes⟩ := executes_save h.site (executes_save_idle nothing)
  rw [h.reads_eq_nil mounting later] at executes
  have same : Call.saved? calls = some settings.encode := by
    simpa [Call.effective] using idle
  refine ⟨?_, executes.trace_eq⟩
  rw [save_eq executes]
  exact { toRegular := { h.toRegular with site := rfl }, mounted := fun _ => rfl,
          saved := same.symm.trans h.saved,
          counter := by rw [Call.effectiveSaves, idle]; exact h.counter,
          filled := by rw [Call.effectiveSaves, idle]; exact h.filled }

end OnSchedule

/-! ## Effective saves -/

/-- A storage on schedule that has staged the settings of an effective save. -/
structure Due (i : Installation) (calls : List Call) (w : World) (settings : Settings)
    (s : Session) : Prop extends i.OnSchedule calls w where
  effective : Call.effective settings calls = true
  staged : s = (i.session w).stage settings.encode

namespace Due

variable {i} {calls : List Call} {w : World} {settings : Settings} {s : Session}
  (h : i.Due calls w settings s)
include h

theorem pending : s.writePending = true := by
  rw [h.staged]
  exact (h.writePending_stage settings).trans h.effective

theorem payload_eq : s.latest.payload = settings.encode := by
  have pending := h.pending
  rw [h.staged] at pending ⊢
  exact Session.payload_stage pending

theorem current_staged : s.latest.integrity = .current := by
  have pending := h.pending
  rw [h.staged] at pending ⊢
  exact Session.current_stage pending h.current

theorem effectiveSaves_eq :
    Call.effectiveSaves (.save settings :: calls) = Call.effectiveSaves calls + 1 := by
  rw [Call.effectiveSaves, h.effective]
  rfl

/-- The counter goes on, and wraps. -/
theorem counter_staged : s.latest.counter.toNat = (Call.effectiveSaves calls + 1) % 65536 := by
  have pending := h.pending
  rw [h.staged] at pending ⊢
  rw [← Session.counter_stage pending, UInt16.toNat_add, h.counter]
  exact Nat.mod_add_mod _ _ _

theorem target_eq : s.target = Side.ofNumber (Call.effectiveSaves calls + 1) :=
  Side.ofCounter_eq_ofNumber h.counter_staged

theorem filled_staged (side : Side) :
    (i.volume side).Filled (s.logs.get side) (side.share (Call.effectiveSaves calls)) := by
  rw [h.staged, Session.logs_stage]
  exact h.filled side

/-- The requests write the next record of the side. -/
theorem requests_eq :
    (i.target s).requests s.log s.latest ++ [⟨(i.target s).device, .sync⟩] =
      (i.target s).scheduled (s.target.share (Call.effectiveSaves calls) + 1) s.latest :=
  (h.filled_staged s.target).requests_eq (i.writable s.target) s.latest

/-- The new record is in its slot. -/
theorem content_stored :
    (((i.target s).content (i.stored s w.medium Record.size)).drop
        (Record.size * (i.target s).slot (s.target.share (Call.effectiveSaves calls) + 1))).take
      Record.size = s.latest.encode.toList := by
  obtain ⟨rs, kept, -⟩ := h.order s.target
  have logs : s.logs = (i.session w).logs := by rw [h.staged, Session.logs_stage]
  rw [← logs] at kept
  have appended := kept.appended i.hardware (i.writable s.target) h.current_staged
    ⟨settings, h.payload_eq⟩
  generalize (if (i.volume s.target).resets (s.logs.get s.target) then [] else rs) = front
    at appended
  have next := ((h.filled_staged s.target).next (i.writable s.target)).free
  -- the log ends with the new record, so its slot is the number of records before it
  have slot : (i.target s).slot (s.target.share (Call.effectiveSaves calls) + 1) =
      front.length := by
    have total := next.symm.trans appended.free
    rw [List.length_append, List.length_singleton] at total
    exact Nat.succ.inj (Nat.eq_of_mul_eq_mul_left (by decide) total)
  have lt : front.length < (front ++ [s.latest]).length := by simp
  have stored := appended.drop_eq_encode lt
  rw [List.getElem_concat_length rfl] at stored
  rw [slot]
  exact (congrArg (List.take Record.size) stored).trans
    (List.take_left' (Record.length_toList_encode s.latest))

/-- The storage stays on schedule. -/
theorem onSchedule : i.OnSchedule (.save settings :: calls) ⟨i.stored s w.medium Record.size,
    ⟨i.site, some { s.appended (i.target s) with writePending := false }⟩⟩ := by
  refine { toRegular := h.saved_written h.staged h.pending, mounted := fun _ => rfl,
           saved := congrArg some h.payload_eq.symm, counter := ?_, filled := fun side => ?_ }
  · rw [h.effectiveSaves_eq]
    exact h.counter_staged
  · show (i.volume side).Filled ((s.logs.set s.target ((i.target s).next s.log)).get side) _
    rw [h.effectiveSaves_eq]
    -- only the side of this save has got one record more
    rcases side.eq_or_eq_other s.target with rfl | rfl
    · have succ := Side.share_succ (Call.effectiveSaves calls)
      rw [← h.target_eq] at succ
      rw [Sides.get_set_self, succ]
      exact (h.filled_staged s.target).next (i.writable s.target)
    · have same := Side.share_other_succ (Call.effectiveSaves calls)
      rw [← h.target_eq] at same
      rw [Sides.get_set_of_ne _ (Side.other_ne _), same]
      exact h.filled_staged s.target.other

/-- The save writes the next record of its side, and nothing else. -/
theorem executes (native : ∀ side, ∃ unit, (i.volume side).Native i.hardware unit) :
    ∃ reads, i.Mounting w reads ∧
      (w.storage.save i.table settings).Executes i.hardware.answer w.medium
        (.ok (), ⟨i.site, some { s.appended (i.target s) with writePending := false }⟩)
        (i.stored s w.medium Record.size)
        (reads ++
          (i.target s).scheduled (s.target.share (Call.effectiveSaves calls) + 1) s.latest) := by
  obtain ⟨unit, native⟩ := native s.target
  rw [← h.requests_eq]
  exact executes_save h.site (executes_save_pending h.staged h.pending native)

end Due

/-! ## The schedule -/

variable {i}

/-- Every sequence of calls keeps the schedule. -/
theorem onSchedule (native : ∀ side, ∃ unit, (i.volume side).Native i.hardware unit) {m : Medium}
    (blank : i.Blank m) (calls : List Call) : i.OnSchedule calls (i.after m calls) := by
  induction calls with
  | nil => exact .boot blank
  | cons call calls ih =>
    cases call with
    | load => exact ih.load.1
    | save settings =>
      cases effective : Call.effective settings calls with
      | false => exact (ih.save_idle effective).1
      | true =>
        have due : i.Due calls (i.after m calls) settings
            ((i.session (i.after m calls)).stage settings.encode) :=
          { toOnSchedule := ih, effective := effective, staged := rfl }
        obtain ⟨reads, -, executes⟩ := due.executes native
        show i.OnSchedule _ (i.save .none (i.after m calls) settings).2
        rw [save_eq executes]
        exact due.onSchedule

/-- The requests of every call after any sequence of calls. The `n`th effective save writes the
`k`th record of its side. -/
theorem save_on_schedule (native : ∀ side, ∃ unit, (i.volume side).Native i.hardware unit)
    {m : Medium} (blank : i.Blank m) (calls : List Call) :
    (calls ≠ [] → i.trace (i.after m calls) .load = []) ∧
      ∀ settings,
        (Call.effective settings calls = false →
          i.trace (i.after m calls) (.save settings) = []) ∧
        (Call.effective settings calls = true →
          let n := Call.effectiveSaves calls + 1
          let k := (n + 1) / 2
          let v := i.volume (.ofNumber n)
          let w := i.step (i.after m calls) (.save settings)
          (i.save .none (i.after m calls) settings).1 = .ok () ∧
            w.storage.statistics.counter.toNat = n % 65536 ∧
            ∃ r reads, r.integrity = .current ∧ r.counter.toNat = n % 65536 ∧
              r.payload = settings.encode ∧
              i.trace (i.after m calls) (.save settings) = reads ++ v.scheduled k r ∧
              (∀ request ∈ reads, ∃ side, (i.volume side).Reads request) ∧
              (calls ≠ [] → reads = []) ∧
              ((v.content w.medium).drop (Record.size * v.slot k)).take Record.size =
                r.encode.toList) := by
  have on := onSchedule native blank calls
  refine ⟨on.load.2, fun settings => ⟨fun idle => (on.save_idle idle).2, fun effective => ?_⟩⟩
  intro n k v w
  have due : i.Due calls (i.after m calls) settings
      ((i.session (i.after m calls)).stage settings.encode) :=
    { toOnSchedule := on, effective := effective, staged := rfl }
  obtain ⟨reads, mounting, executes⟩ := due.executes native
  generalize (i.session (i.after m calls)).stage settings.encode = s at due executes
  have run := save_eq executes
  have after : w = ⟨i.stored s (i.after m calls).medium Record.size,
      ⟨i.site, some { s.appended (i.target s) with writePending := false }⟩⟩ :=
    congrArg Prod.snd run
  have target : i.target s = v := congrArg i.volume due.target_eq
  have number : s.target.share (Call.effectiveSaves calls) + 1 = k := by
    rw [due.target_eq, ← Side.share_succ]
    exact Side.share_ofNumber _
  have trace := executes.trace_eq
  have stored := due.content_stored
  rw [target, number] at trace stored
  refine ⟨congrArg Prod.fst run, ?_, s.latest, reads, due.current_staged, due.counter_staged,
    due.payload_eq, trace, mounting.1, on.reads_eq_nil mounting, ?_⟩
  · rw [after]
    exact due.counter_staged
  · rw [after]
    exact stored

/-- The fifth save on the flash is the third one of its side, which is full then. -/
theorem save_on_schedule_fifth :
    let calls := [4, 3, 2, 1].map fun k => Call.save (numbered k)
    (∀ side, ∃ unit, (flash.volume side).Native flash.hardware unit) ∧ flash.Blank .erased ∧
      ∃ r : Record, r.counter.toNat = 5 ∧ r.payload = (numbered 5).encode ∧
        flash.trace (flash.after .erased calls) (.save (numbered 5)) =
          [⟨⟨0⟩, .erase 82 82⟩, ⟨⟨0⟩, .write 82 r.encode.toList⟩, ⟨⟨0⟩, .sync⟩] := by
  intro calls
  have native : ∀ side, ∃ unit, (flash.volume side).Native flash.hardware unit :=
    fun side => ⟨41, flash_native side⟩
  have count : Call.effectiveSaves calls = 4 := by decide +kernel
  obtain ⟨-, -, r, reads, -, counter, payload, trace, -, mounted, -⟩ :=
    ((save_on_schedule native flash_blank calls).2 (numbered 5)).2 (by decide +kernel)
  rw [mounted nofun] at trace
  rw [count] at counter trace
  exact ⟨native, flash_blank, r, counter, payload, trace⟩

end Installation

end TwinLog
