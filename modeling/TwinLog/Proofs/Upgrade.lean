-- SUMMARY: Records of older firmware: what they load as, and how a save replaces them.
import TwinLog.Proofs.Log.Frames
import TwinLog.Proofs.Schedule

/-! # Upgrades

A medium on which older firmware has saved last loads as the settings it holds, completed with the
default ones, and a write is due. A save of just these settings writes them as a current record of
the next generation, and a new storage goes on with that one (`Installation.Outdated.upgrade`).
The two logs may hold any frames, so the record may have to go to a volume that is full or
damaged, and it has to lead before all that is left. -/

namespace TwinLog

/-- The frame leads: it is the last one of its side to verify, and its counter is the greater one,
or the counters are equal and the side is `a`. -/
def Log.LeadingFrame (frames : Side → List (List UInt8)) (side : Side) (frame : List UInt8) : Prop :=
  lastFrame? (frames side) = some frame ∧ ∀ other, lastFrame? (frames side.other) = some other →
    counter other < counter frame ∨ (counter other = counter frame ∧ side = .a)

namespace Installation

variable {i : Installation} {m : Medium} {side : Side}

/-! ## Records that lead -/

section Leading

variable {r : Record} (leads : Session.Leads (i.last m) side r)
include leads

/-- A new storage goes on with the record that leads. A stale one is due to be written. -/
theorem recovered_of_leads :
    (i.recovered m).latest = r ∧ (i.recovered m).loadedFrom = some side ∧
      (i.recovered m).writePending = decide (r.integrity = .stale) := by
  have taken := Session.authoritative_of_leads leads
  unfold recovered Session.ofRecovered
  simp only [found, Log.latest?_recovered]
  simp only [last] at taken
  rw [taken]
  exact ⟨rfl, rfl, rfl⟩

/-- A new storage loads the settings of the record that leads, and reports it. -/
theorem load_of_leads :
    let loaded := i.load (i.boot m)
    loaded.1 = .ok r.settings ∧ loaded.2 = ⟨m, ⟨i.site, some (i.recovered m)⟩⟩ ∧
      loaded.2.storage.statistics =
        ⟨(i.recovered m).logs, r.counter, decide (r.integrity = .stale), some side⟩ := by
  intro loaded
  obtain ⟨latest, source, pending⟩ := recovered_of_leads leads
  have run : loaded = _ := load_eq rfl
  rw [session_boot] at run
  rw [run]
  refine ⟨?_, rfl, ?_⟩
  · rw [Session.settings, latest]
  · show (i.recovered m).statistics = _
    rw [Session.statistics, latest, source, pending]

end Leading

/-- What a save works with is recovered from the medium, but for what it stages. -/
theorem log_staged {settings : Settings} {s : Session}
    (staged : s = (i.recovered m).stage settings.encode) :
    s.log = (Log.recovered ((i.target s).content m)).state := by
  have logs : s.logs = (i.recovered m).logs := by rw [staged, Session.logs_stage]
  rw [Session.log, logs, get_logs_recovered]
  rfl

/-- A record leads once it is written, if it is newer than the last one of the other side. -/
theorem leads_stored {s : Session} (tracks : Log.Tracks s.log ((i.target s).content m))
    (current : s.latest.integrity = .current)
    (newer : ∀ r, (i.last m).get s.target.other = some r → r.counter < s.latest.counter) :
    Session.Leads (i.last (i.stored s m Record.size)) s.target s.latest := by
  have whole : s.latest.torn Record.size = s.latest.encode.toList :=
    s.latest.torn_of_le (Nat.le_refl _)
  obtain ⟨written, kept⟩ := last_stored tracks current fun part => absurd whole part
  rw [if_pos whole] at written
  refine ⟨written, fun r found => .inl ?_⟩
  rw [kept] at found
  exact newer r found

/-! ## Outdated media -/

/-- Both volumes hold framed logs, and the frame that leads is one of older firmware. -/
structure Outdated (i : Installation) (m : Medium) (frames : Side → List (List UInt8))
    (side : Side) (legacy : List UInt8) : Prop where
  framed : ∀ side, Log.Framed (frames side) ((i.volume side).content m)
  leading : Log.LeadingFrame frames side legacy
  short : legacy.length < Record.size
  counted : Log.counter legacy < 65535

namespace Outdated

variable {frames : Side → List (List UInt8)} {legacy : List UInt8}
  (h : i.Outdated m frames side legacy)
include h

theorem frame : Log.Frame legacy :=
  (h.framed side).frame legacy (Log.mem_of_lastFrame? h.leading.1).1

theorem verifies : Log.Verifies legacy :=
  (Log.mem_of_lastFrame? h.leading.1).2

/-- The last record of a side is that of its last frame that verifies. -/
theorem get_last_eq (side : Side) :
    (i.last m).get side = (Log.lastFrame? (frames side)).map Record.ofList :=
  (get_last m side).trans (h.framed side).latest?_eq

/-- The last record of a side has the counter of its last frame that verifies. -/
theorem counter_last {side : Side} {r : Record} (found : (i.last m).get side = some r) :
    ∃ frame, Log.lastFrame? (frames side) = some frame ∧ r.counter.toNat = Log.counter frame := by
  rw [h.get_last_eq] at found
  obtain ⟨frame, last, rfl⟩ := Option.map_eq_some_iff.1 found
  obtain ⟨mem, verifies⟩ := Log.mem_of_lastFrame? last
  exact ⟨frame, last, ((h.framed side).frame frame mem).counter_ofList verifies⟩

/-- The record of the frame that leads does so. -/
theorem leads : Session.Leads (i.last m) side (Record.ofList legacy) := by
  refine ⟨by rw [h.get_last_eq, h.leading.1]; rfl, fun r found => ?_⟩
  obtain ⟨other, last, counter⟩ := h.counter_last found
  rw [UInt16.lt_iff_toNat_lt, ← UInt16.toNat_inj, counter, h.frame.counter_ofList h.verifies]
  exact h.leading.2 other last

/-- No record is newer than the one that leads. -/
theorem counter_le {other : Side} {r : Record} (found : (i.last m).get other = some r) :
    r.counter.toNat ≤ Log.counter legacy := by
  obtain ⟨frame, last, counter⟩ := h.counter_last found
  rw [counter]
  rcases other.eq_or_eq_other side with rfl | rfl
  · rw [h.leading.1] at last
    cases last
    exact Nat.le_refl _
  · rcases h.leading.2 frame last with lt | ⟨eq, -⟩
    · exact Nat.le_of_lt lt
    · exact Nat.le_of_eq eq

theorem latest_recovered : (i.recovered m).latest = Record.ofList legacy :=
  (recovered_of_leads h.leads).1

theorem writePending_recovered : (i.recovered m).writePending = true := by
  rw [(recovered_of_leads h.leads).2.2]
  exact decide_eq_true (h.frame.integrity_eq_stale h.verifies h.short)

/-! ## The next generation -/

section Staged

variable {settings : Settings} {s : Session} (staged : s = (i.recovered m).stage settings.encode)
include staged

theorem pending_staged : s.writePending = true :=
  staged ▸ Session.stage_pending_of_due h.writePending_recovered _

theorem payload_staged : s.latest.payload = settings.encode := by
  subst staged
  exact Session.payload_stage (h.pending_staged rfl)

/-- The next generation is in the current format. -/
theorem current_staged : s.latest.integrity = .current := by
  have magic := (Record.bounds_of_integrity (h.frame.integrity_ofList h.verifies)).1
  subst staged
  rw [Session.latest_stage (h.pending_staged rfl), h.latest_recovered]
  exact Record.integrity_refresh magic _

theorem counter_staged : s.latest.counter.toNat = Log.counter legacy + 1 := by
  have counter : (i.recovered m).latest.counter.toNat = Log.counter legacy := by
    rw [h.latest_recovered]
    exact h.frame.counter_ofList h.verifies
  subst staged
  rw [Session.toNat_counter_stage (h.pending_staged rfl) (counter ▸ h.counted), counter]

theorem target_staged : s.target = .ofNumber (Log.counter legacy + 1) := by
  have counter := h.counter_staged staged
  have bound := s.latest.counter.toNat_lt
  exact Side.ofCounter_eq_ofNumber (by rw [counter] at bound ⊢; exact (Nat.mod_eq_of_lt bound).symm)

/-- The record goes behind the frames of its side, or to the start of its volume if these leave no
room. -/
theorem requests_staged :
    (i.target s).requests s.log s.latest =
      if Log.HasRoom (frames s.target) (i.target s).size then
        [⟨(i.target s).device, .write ((i.target s).start + (frames s.target).flatten.length).toUInt32
          s.latest.encode.toList⟩]
      else
        [⟨(i.target s).device, .erase (i.target s).start.toUInt32 (i.target s).size⟩,
          ⟨(i.target s).device, .write (i.target s).start.toUInt32 s.latest.encode.toList⟩] := by
  have framed : Log.Framed (frames s.target) ((i.target s).content m) := h.framed s.target
  have present : (i.target s).content m ≠ [] := content_ne_nil m s.target
  unfold Volume.requests
  rw [log_staged staged, framed.place_eq present]
  simp only [framed.resets_iff present, ite_not]
  split
  · rfl
  · rfl

/-- The record leads once it is written. -/
theorem leads_staged : Session.Leads (i.last (i.stored s m Record.size)) s.target s.latest := by
  refine leads_stored ?_ (h.current_staged staged) fun r found => ?_
  · rw [log_staged staged]
    exact Log.tracks_recovered (h.framed s.target).tidy
  · rw [UInt16.lt_iff_toNat_lt, h.counter_staged staged]
    exact Nat.lt_succ_of_le (h.counter_le found)

/-- A save writes the record and makes the device commit. -/
theorem executes_staged {unit : UInt64} (native : (i.target s).Native i.hardware unit) :
    (Storage.save ⟨i.site, some (i.recovered m)⟩ i.table settings).Executes i.hardware.answer m
      (.ok (), ⟨i.site, some { s.appended (i.target s) with writePending := false }⟩)
      (i.stored s m Record.size)
      ((i.target s).requests s.log s.latest ++ [⟨(i.target s).device, .sync⟩]) := by
  let w : World := ⟨m, ⟨i.site, some (i.recovered m)⟩⟩
  obtain ⟨reads, mounting, executes⟩ := @executes_save i _ w rfl settings _ _ _
    (executes_save_pending staged (h.pending_staged staged) native)
  rwa [mounting.2 rfl] at executes

/-- A new storage loads the settings of the record. -/
theorem load_stored :
    let reloaded := i.load (i.boot (i.stored s m Record.size))
    reloaded.1 = .ok settings.stored ∧ reloaded.2.storage.statistics.writePending = false ∧
      reloaded.2.storage.statistics.loadedFrom = some (.ofNumber (Log.counter legacy + 1)) ∧
      reloaded.2.storage.statistics.counter.toNat = Log.counter legacy + 1 := by
  intro reloaded
  obtain ⟨result, -, statistics⟩ := load_of_leads (h.leads_staged staged)
  rw [h.current_staged staged, h.target_staged staged] at statistics
  rw [Record.settings, h.payload_staged staged, Settings.decode_encode] at result
  refine ⟨result, ?_, ?_, ?_⟩
  · rw [statistics]
    rfl
  · rw [statistics]
  · rw [statistics]
    exact h.counter_staged staged

end Staged

/-! ## Upgrading -/

/-- What older firmware has saved is loaded, saved as a record of the current format, and loaded
again from that one. -/
theorem upgrade (native : ∀ side, ∃ unit, (i.volume side).Native i.hardware unit) :
    let settings := Settings.decode (Log.completed legacy)
    let n := Log.counter legacy + 1
    let v := i.volume (.ofNumber n)
    let loaded := i.load (i.boot m)
    let saved := i.save .none loaded.2 settings
    let reloaded := i.load (i.boot saved.2.medium)
    (Log.completed legacy).toList = (legacy.drop 8).take (legacy.length - 10) ++
        Settings.default.encode.toList.drop (legacy.length - 10) ∧
      (loaded.1 = .ok settings ∧ loaded.2.medium = m ∧
        loaded.2.storage.statistics.writePending = true ∧
        loaded.2.storage.statistics.loadedFrom = some side ∧
        loaded.2.storage.statistics.counter.toNat = Log.counter legacy) ∧
      (saved.1 = .ok () ∧ saved.2.storage.statistics.writePending = false ∧
        ∃ r : Record, r.integrity = .current ∧ r.counter.toNat = n ∧ r.payload = settings.encode ∧
          i.trace loaded.2 (.save settings) =
            (if Log.HasRoom (frames (.ofNumber n)) v.size then
              [⟨v.device, .write (v.start + (frames (.ofNumber n)).flatten.length).toUInt32
                r.encode.toList⟩]
            else
              [⟨v.device, .erase v.start.toUInt32 v.size⟩,
                ⟨v.device, .write v.start.toUInt32 r.encode.toList⟩]) ++ [⟨v.device, .sync⟩]) ∧
      reloaded.1 = .ok settings ∧ reloaded.2.storage.statistics.writePending = false ∧
        reloaded.2.storage.statistics.loadedFrom = some (.ofNumber n) ∧
        reloaded.2.storage.statistics.counter.toNat = n := by
  intro settings n v loaded saved reloaded
  -- the load, the save that it makes due, and the load by a new storage
  obtain ⟨result, world, statistics⟩ := load_of_leads h.leads
  rw [Record.settings, h.frame.payload_ofList h.verifies] at result
  rw [h.frame.integrity_eq_stale h.verifies h.short] at statistics
  obtain ⟨s, staged⟩ : ∃ s, s = (i.recovered m).stage settings.encode := ⟨_, rfl⟩
  have target : i.target s = v := congrArg i.volume (h.target_staged staged)
  obtain ⟨unit, native⟩ := native s.target
  have executes := h.executes_staged staged native
  rw [h.requests_staged staged, target, h.target_staged staged] at executes
  have save : saved = _ := (congrArg (i.save .none · settings) world).trans (save_eq executes)
  have trace : i.trace loaded.2 (.save settings) = _ :=
    (congrArg (i.trace · (.save settings)) world).trans executes.trace_eq
  have medium : saved.2.medium = i.stored s m Record.size := congrArg (World.medium ·.2) save
  have reload := h.load_stored staged
  rw [← medium, Settings.stored_decode] at reload
  refine ⟨h.frame.toList_completed h.verifies, ⟨result, congrArg World.medium world, ?_, ?_, ?_⟩,
    ⟨congrArg Prod.fst save, ?_, s.latest, h.current_staged staged, h.counter_staged staged,
      h.payload_staged staged, trace⟩, reload⟩
  · rw [statistics]
    rfl
  · rw [statistics]
  · rw [statistics]
    exact h.frame.counter_ofList h.verifies
  · rw [save]
    rfl

end Outdated

/-- The flash's second volume holds an old record of generation five with two bytes of payload, the
first one a damaged record. It is erased before the record of generation six is written to it. -/
theorem upgrade_damaged :
    let legacy : List UInt8 :=
      [0x4F, 0x50, 0x4E, 0x58, 0x0C, 0x00, 0x05, 0x00, 0x07, 0x08, 0x77, 0x77]
    let damaged : List UInt8 :=
      [0x4F, 0x50, 0x4E, 0x58, 0x0C, 0x00, 0x04, 0x00, 0x07, 0x08, 0x77, 0x77]
    let m := (Medium.erased.program .clearBits ⟨0⟩ 0 damaged).program .clearBits ⟨0⟩ 82 legacy
    let settings := Settings.decode (Log.completed legacy)
    flash.Outdated m (Sides.get ⟨[damaged], [legacy]⟩) .b legacy ∧
      (∀ side, ∃ unit, (flash.volume side).Native flash.hardware unit) ∧
      ∃ r : Record, r.counter.toNat = 6 ∧ r.payload = settings.encode ∧
        flash.trace (flash.load (flash.boot m)).2 (.save settings) =
          [⟨⟨0⟩, .erase 0 82⟩, ⟨⟨0⟩, .write 0 r.encode.toList⟩, ⟨⟨0⟩, .sync⟩] := by
  intro legacy damaged m settings
  have native : ∀ side, ∃ unit, (flash.volume side).Native flash.hardware unit :=
    fun side => ⟨41, flash_native side⟩
  have outdated : flash.Outdated m (Sides.get ⟨[damaged], [legacy]⟩) .b legacy := by
    refine { framed := fun side => ?_, leading := ⟨by decide +kernel, fun other last => ?_⟩,
             short := by decide, counted := by decide }
    · cases side with
      | a =>
        exact ⟨List.forall_mem_singleton.2 ⟨by decide, by decide, by decide⟩, by decide +kernel⟩
      | b =>
        exact ⟨List.forall_mem_singleton.2 ⟨by decide, by decide, by decide⟩, by decide +kernel⟩
    · have none : Log.lastFrame? [damaged] = none := by decide +kernel
      cases none.symm.trans last
  obtain ⟨-, -, ⟨-, -, r, -, counter, payload, trace⟩, -⟩ := outdated.upgrade native
  have next : Side.ofNumber (Log.counter legacy + 1) = .a := by decide
  have full : ¬Log.HasRoom (Sides.get ⟨[damaged], [legacy]⟩ .a) (flash.volume .a).size := by
    decide +kernel
  rw [next, if_neg full] at trace
  exact ⟨outdated, native, r, counter, payload, trace⟩

end Installation

end TwinLog
