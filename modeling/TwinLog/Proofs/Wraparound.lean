-- SUMMARY: Saves of a run of any length survive, except the one that wraps the counter to zero.
import TwinLog.Proofs.Runs

/-! # Runs of any length

The newest record is the one of the greater counter, so a record whose counter has wrapped to zero
is older than all others. Without trouble this is the only save whose settings are not loaded
again (`Installation.saved_survives_iff`), and the first one is the 65536th generation. -/

namespace TwinLog.Installation

variable {i : Installation} {w : World}

/-- The settings of a save are loaded again if and only if the counter is not zero. -/
theorem Regular.save (h : i.Regular w)
    (erasable : ∀ side, (i.volume side).Erasable i.hardware .none) (settings : Settings) :
    (i.save .none w settings).1 = .ok () ∧
      (i.reload (i.save .none w settings).2.medium = .ok (.decode settings.encode) ↔
        (i.save .none w settings).2.storage.statistics.counter ≠ 0) := by
  obtain ⟨result, s, m, run, saved⟩ := save_cases rfl erasable h.site settings
  obtain ⟨regular, idle, payload⟩ := h.saved saved
  have reload := regular.reload_iff idle
  rw [run]
  refine ⟨saved.of_healthy.1, ?_⟩
  rw [← payload]
  exact reload

/-- In a run of loads and saves of any length, with new storages in between, every save succeeds.
A new storage loads its settings if and only if the counter is not zero, which it is not before
the 65536th generation. -/
theorem saved_survives_iff (i : Installation)
    (erasable : ∀ side, (i.volume side).Erasable i.hardware .none) {n : Nat} {w : World}
    (run : i.Runs n w) (settings : Settings) :
    (i.save .none w settings).1 = .ok () ∧
      (i.reload (i.save .none w settings).2.medium = .ok (.decode settings.encode) ↔
        (i.save .none w settings).2.storage.statistics.counter ≠ 0) ∧
      (n + (i.advances w settings).toNat < 65536 →
        (i.save .none w settings).2.storage.statistics.counter ≠ 0) := by
  have regular := run.regular erasable
  obtain ⟨done, reload⟩ := regular.save erasable settings
  refine ⟨done, reload, fun few wrapped => ?_⟩
  obtain ⟨counter, counted⟩ := (run.save settings).counter_eq erasable few
  obtain ⟨result, s, m, ran, saved⟩ := save_cases rfl erasable regular.site settings
  rw [ran] at counter counted wrapped
  have zero : s.latest.counter = 0 := wrapped
  have pos := counted (regular.saved saved).2.1
  rw [← counter] at pos
  exact absurd (congrArg UInt16.toNat zero) (Nat.ne_of_gt pos)

/-- The first save. -/
theorem saved_survives_iff_first :
    let w := flash.boot .erased
    let settings := { Settings.default with brightness := 1 }
    flash.Runs 0 w ∧
      (flash.reload (flash.save .none w settings).2.medium = .ok (.decode settings.encode) ↔
        (flash.save .none w settings).2.storage.statistics.counter ≠ 0) := by
  intro w settings
  have run : flash.Runs 0 w := .boot flash_blank
  exact ⟨run, (saved_survives_iff flash (flash_erasable .none) run settings).2.1⟩

/-! ## A run that wraps the counter -/

/-- The 65536th save wraps the counter. -/
theorem counter_counted {k : Nat} (top : k = 65535) :
    (flash.save .none (counted k) (numbered (k + 1))).2.storage.statistics.counter = 0 := by
  obtain ⟨run, advances⟩ := advances_counted k
  have regular := run.regular (flash_erasable .none)
  obtain ⟨counter, -⟩ := run.counter_eq (flash_erasable .none) (by rw [top]; decide)
  obtain ⟨result, s, m, ran, saved⟩ :=
    save_cases rfl (flash_erasable .none) regular.site (numbered (k + 1))
  rw [advances_eq (flash_erasable .none) regular.site] at advances
  rw [ran]
  show s.latest.counter = 0
  rw [saved.ended.latest_eq, Session.stage_of_pending advances]
  rcases counter_succ_cases (c := (flash.session (counted k)).latest.counter) rfl with
    ⟨-, zero⟩ | succ
  · exact zero
  · rw [counter, top] at succ
    exact absurd succ (Nat.ne_of_gt (UInt16.toNat_lt _))

theorem lost_counted {k : Nat} (top : k = 65535) :
    flash.Runs k (counted k) ∧ (flash.save .none (counted k) (numbered (k + 1))).1 = .ok () ∧
      flash.reload (flash.save .none (counted k) (numbered (k + 1))).2.medium ≠
        .ok (.decode (numbered (k + 1)).encode) := by
  have run := (advances_counted k).1
  obtain ⟨done, reload⟩ :=
    (run.regular (flash_erasable .none)).save (flash_erasable .none) (numbered (k + 1))
  exact ⟨run, done, fun same => reload.1 same (counter_counted top)⟩

/-- The settings of the 65536th save are not loaded again. -/
theorem wrapped_save_lost :
    let k := 65535
    let w := counted k
    let settings := numbered (k + 1)
    flash.Runs k w ∧ (flash.save .none w settings).1 = .ok () ∧
      flash.reload (flash.save .none w settings).2.medium ≠ .ok (.decode settings.encode) :=
  lost_counted rfl

end TwinLog.Installation
