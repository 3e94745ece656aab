-- SUMMARY: A save that succeeds is durable, whatever has failed before it and while it ran.
import TwinLog.Proofs.Faults
import TwinLog.Proofs.Live

/-! # Durability of successful saves

One storage is kept in use, and any of the writes, erases and syncs of its saves may fail with any
error. Once a save returns without an error, a new storage on the medium loads what was saved and
has nothing to write (`Installation.save_durable`). The session need not know what a failure has
left of a log, because it erases that log before it writes there again. -/

namespace TwinLog.Installation

variable (i : Installation)

/-- Saves settings with devices whose calls fail as a plan says. -/
def saveAmid (plan : List (Option Mishap)) (w : World) (settings : Settings) :
    Except Error Unit × World :=
  let ((result, storage), (medium, _)) :=
    (w.storage.save i.table settings).run i.hardware.answerAmid (w.medium, plan)
  (result, ⟨medium, storage⟩)

/-- The worlds that one storage reaches from a blank medium by loads and by saves whose calls may
fail, with the number of saves that made a new generation. -/
inductive Endures : Nat → World → Prop where
  | boot {m : Medium} (blank : i.Blank m) : Endures 0 (i.boot m)
  | load {n : Nat} {w : World} (h : Endures n w) : Endures n (i.load w).2
  | save {n : Nat} {w : World} (h : Endures n w) (plan : List (Option Mishap)) (settings : Settings)
      (tears : i.advances w settings → (i.generation w settings).DetectsTears) :
      Endures (n + (i.advances w settings).toNat) (i.saveAmid plan w settings).2

variable {i} {generation : Nat} {w : World} {s : Session} {m : Medium}

/-! ## Laws -/

theorem readable_exposed (m : Medium) : i.Readable i.hardware.exposed m :=
  fun side => Volume.holds_exposed (i.writable side).addressable

/-- A sync may fail, and leaves the medium as it is. -/
theorem wp_sync_exposed {ok : Unit → Medium → Prop} {err : Error → Medium → Prop}
    {crash : Medium → Prop} (hok : ok () m) (herr : ∀ e, err e m) :
    Access.wp i.hardware.exposed (i.table.sync i.site.area) ok err crash m := by
  obtain ⟨area, found, -⟩ := i.area_eq .a
  unfold Table.sync
  rw [found, Access.wp_bind, Access.wp_ok, Access.wp_perform]
  refine ⟨fun t h => h.elim, fun reply t h => ?_⟩
  rcases h with works | ⟨-, mishap, fails⟩
  · simp only [Hardware.answer] at works
    split at works
    · cases works
      exact hok
    · cases works
      exact herr _
  · cases fails
    exact herr _

section Save

variable (erasable : ∀ side, (i.volume side).Erasable i.hardware .none)
include erasable

/-- Writing the latest generation. -/
theorem wp_flush_exposed (pending : s.writePending = true) (m : Medium) :
    (s.flush i.site i.table).wp i.hardware.exposed
      (fun result m' => i.Ended s m result.1 result.2 m') (fun _ => True) m := by
  unfold Session.flush Session.append
  rw [Script.wp_bind, Access.wp_run, i.volume_eq, Access.wp_bind, Access.wp_ok]
  refine Volume.wp_append_exposed (i.writable s.target) (erasable s.target) s.log ?_
    (fun e t => .unwritten pending e t) (fun _ e n inside => .unerased pending e inside)
  show Script.wp _ ((i.table.sync i.site.area).run >>= _) _ _ _
  rw [Script.wp_bind, Access.wp_run]
  refine wp_sync_exposed (.written pending) fun e => ?_
  -- a device that has nothing to commit may say so
  cases e with
  | notSupported => exact .written pending
  | invalidArgument => exact .unsynced pending _
  | tooLarge => exact .unsynced pending _
  | malformedLog => exact .unsynced pending _
  | device fault => exact .unsynced pending _

/-- Every way in which a save ends when calls fail. -/
theorem saveAmid_cases (site : w.storage.site = i.site) (plan : List (Option Mishap))
    (settings : Settings) :
    ∃ result s m, i.saveAmid plan w settings = (result, ⟨m, ⟨i.site, some s⟩⟩) ∧
      i.Ended ((i.session w).stage settings.encode) w.medium result s m := by
  have save : (w.storage.save i.table settings).wp i.hardware.exposed (fun result m =>
      ∃ s, result.2 = ⟨i.site, some s⟩ ∧
        i.Ended ((i.session w).stage settings.encode) w.medium result.1 s m)
      (fun _ => True) w.medium :=
    wp_save_of (readable_exposed w.medium) site trivial .idle
      fun pending => wp_flush_exposed erasable pending w.medium
  obtain ⟨s, storage, ended⟩ := (Script.Only.all _).run
    (fun request _ s => i.hardware.replies_answerAmid request s) (w.medium, plan) save
  refine ⟨_, s, _, ?_, ended⟩
  rw [← storage]
  rfl

end Save

/-! ## Runs -/

section Runs

variable (erasable : ∀ side, (i.volume side).Erasable i.hardware .none)
include erasable

/-- A save keeps a storage in use, whatever fails. If it returns no error, the latest generation
holds what was saved. -/
theorem Live.saveAmid (h : i.Live generation w) {settings : Settings}
    (few : generation + (i.advances w settings).toNat ≤ 65535)
    (tears : i.advances w settings → (i.generation w settings).DetectsTears)
    (plan : List (Option Mishap)) :
    i.Live (generation + (i.advances w settings).toNat) (i.saveAmid plan w settings).2 ∧
      ((i.saveAmid plan w settings).1 = .ok () →
        (i.session (i.saveAmid plan w settings).2).writePending = false ∧
        (i.session (i.saveAmid plan w settings).2).latest.payload = settings.encode) := by
  obtain ⟨result, s, m, run, ended⟩ := saveAmid_cases erasable h.site plan settings
  rw [generation_eq erasable h.site] at tears
  rw [advances_eq erasable h.site] at few tears ⊢
  rw [run]
  show i.Live _ ⟨m, ⟨i.site, some s⟩⟩ ∧ (result = .ok () → s.writePending = false ∧ _)
  cases pending : ((i.session w).stage settings.encode).writePending with
  | false =>
    have payload := (Session.stage_of_idle pending).2
    obtain ⟨rfl, rfl, rfl, live⟩ := h.ended_of_idle pending ended
    exact ⟨live, fun ok => ⟨ended.writePending_eq ok, payload.symm⟩⟩
  | true =>
    rw [pending] at few tears
    have attempt : i.Attempt generation w settings.encode ((i.session w).stage settings.encode) :=
      { toLive := h, few := few, staged := rfl, pending := pending }
    refine ⟨attempt.ended (tears rfl) ended, fun ok => ⟨ended.writePending_eq ok, ?_⟩⟩
    show s.latest.payload = _
    rw [ended.latest_eq]
    exact attempt.payload

/-- Every world that is reached has a storage in use. -/
theorem Endures.live {n : Nat} (h : i.Endures n w) (few : n ≤ 65535) : i.Live n w := by
  induction h with
  | boot blank => exact .boot blank
  | load _ ih => exact (ih few).load
  | save _ plan settings tears ih =>
    exact ((ih (Nat.le_trans (Nat.le_add_right _ _) few)).saveAmid erasable few tears plan).1

end Runs

/-- Whatever has failed before and during a save, once it returns no error, a new storage loads
what was saved and has nothing to write. -/
theorem save_durable (i : Installation)
    (erasable : ∀ side, (i.volume side).Erasable i.hardware .none) {n : Nat} {w : World}
    (endures : i.Endures n w) (plan : List (Option Mishap)) (settings : Settings)
    (tears : i.advances w settings → (i.generation w settings).DetectsTears)
    (few : n + (i.advances w settings).toNat ≤ 65535)
    (ok : (i.saveAmid plan w settings).1 = .ok ()) :
    i.reload (i.saveAmid plan w settings).2.medium = .ok (.decode settings.encode) ∧
      (i.load (i.boot (i.saveAmid plan w settings).2.medium)).2.storage.statistics.writePending =
        false := by
  have before := endures.live erasable (Nat.le_trans (Nat.le_add_right _ _) few)
  obtain ⟨live, done⟩ := before.saveAmid erasable few tears plan
  obtain ⟨idle, payload⟩ := done ok
  have newest := live.newest_eq idle
  constructor
  · rw [reload_of_newest newest, Record.settings, payload]
  · rw [load_eq rfl, session_boot]
    show (i.recovered _).writePending = false
    rw [i.writePending_recovered, newest, Option.elim_some, live.current]
    rfl

/-- On the flash, a write that fails after ten bytes, and a save that succeeds. -/
theorem save_durable_second :
    let first := { Settings.default with brightness := 1 }
    let second := { Settings.default with brightness := 2 }
    let w := (flash.saveAmid [some ⟨10, .device .other⟩] (flash.boot .erased) first).2
    let w' := (flash.saveAmid [] w second).2
    flash.Endures 1 w ∧
      (flash.advances w second → (flash.generation w second).DetectsTears) ∧
      (flash.saveAmid [] w second).1 = .ok () ∧
      flash.reload w'.medium = .ok (.decode second.encode) ∧
      (flash.load (flash.boot w'.medium)).2.storage.statistics.writePending = false := by
  intro first second w w'
  have generation : flash.generation (flash.boot .erased) first =
      Record.default.refresh first.encode := by decide +kernel
  have generation' : flash.generation w second =
      (Record.default.refresh first.encode).refresh second.encode := by decide +kernel
  have tears : flash.advances (flash.boot .erased) first →
      (flash.generation (flash.boot .erased) first).DetectsTears :=
    fun _ => generation ▸ detectsTears_first
  have tears' : flash.advances w second → (flash.generation w second).DetectsTears :=
    fun _ => generation' ▸ detectsTears_second
  have advance : (flash.advances (flash.boot .erased) first).toNat = 1 := by decide +kernel
  have advance' : (flash.advances w second).toNat = 1 := by decide +kernel
  have endures := (Endures.boot flash_blank).save [some ⟨10, .device .other⟩] first tears
  rw [advance] at endures
  have ok : (flash.saveAmid [] w second).1 = .ok () := by
    cases result : (flash.saveAmid [] w second).1 with
    | ok => rfl
    | error e =>
      have failed : (flash.saveAmid [] w second).1.toOption = none :=
        congrArg Except.toOption result
      exact absurd failed (by decide +kernel)
  have few : 1 + (flash.advances w second).toNat ≤ 65535 := by
    rw [advance']
    decide
  exact ⟨endures, tears', ok,
    save_durable flash (flash_erasable .none) endures [] second tears' few ok⟩

end TwinLog.Installation
