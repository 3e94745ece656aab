-- SUMMARY: A storage that is kept in use reports what a new storage would recover.
import TwinLog.Proofs.Atomicity

/-! # Bookkeeping

A storage updates what it knows of its logs with every save and does not read them again. After
any call of a run without trouble, a new storage on the same medium reports the same and loads the
same settings (`Installation.bookkeeping`). Only the side that the settings came from may differ,
which a storage does not update. -/

namespace TwinLog.Installation

variable {i : Installation} {w : World}

/-- A storage in a consistent world reports what a new one does, but for the source of the
settings. -/
theorem Consistent.statistics_eq {generation : Nat} (h : i.Consistent generation w) {s : Session}
    (mounted : w.storage.session = some s) :
    { (i.recovered w.medium).statistics with loadedFrom := s.loadedFrom } = s.statistics := by
  have session : i.session w = s := by rw [Installation.session, mounted, Option.getD_some]
  have logs := h.logs
  have latest := h.latest
  have writePending := h.writePending
  rw [session] at logs latest writePending
  simp only [Session.statistics, logs, latest, writePending]

/-- After every call, a new storage on the medium reports and loads the same. -/
theorem bookkeeping (i : Installation)
    (erasable : ∀ side, (i.volume side).Erasable i.hardware .none) {n : Nat} {w : World}
    (run : i.Runs n w) (few : n < 65535) (mounted : w.storage.session.isSome) :
    (∃ settings, (i.load (i.boot w.medium)).1 = .ok settings ∧ (i.load w).1 = .ok settings) ∧
      { (i.load (i.boot w.medium)).2.storage.statistics with
        loadedFrom := w.storage.statistics.loadedFrom } = w.storage.statistics := by
  have consistent := run.reaches.consistent erasable (Nat.le_of_lt few)
  obtain ⟨s, mounted⟩ := Option.isSome_iff_exists.1 mounted
  refine ⟨⟨_, consistent.reload_eq, by rw [load_eq consistent.site]⟩, ?_⟩
  have reported : w.storage.statistics = s.statistics := by
    rw [Storage.statistics, mounted, Option.getD_some]
  rw [load_eq rfl, reported]
  exact consistent.statistics_eq mounted

/-- Five saves, of which the last one has erased a side. -/
theorem bookkeeping_counted :
    flash.Runs 5 (counted 5) ∧ (counted 5).storage.session.isSome ∧
      (∃ settings, (flash.load (flash.boot (counted 5).medium)).1 = .ok settings ∧
        (flash.load (counted 5)).1 = .ok settings) ∧
      { (flash.load (flash.boot (counted 5).medium)).2.storage.statistics with
        loadedFrom := (counted 5).storage.statistics.loadedFrom } =
          (counted 5).storage.statistics := by
  have run := (advances_counted 5).1
  have mounted : (counted 5).storage.session.isSome := by decide +kernel
  exact ⟨run, mounted, bookkeeping flash (flash_erasable .none) run (by decide) mounted⟩

end TwinLog.Installation
