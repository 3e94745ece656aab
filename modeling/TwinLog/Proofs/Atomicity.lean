-- SUMMARY: A save that power loss cuts short leaves the old settings or the new ones.
import TwinLog.Proofs.Consistency
import TwinLog.Proofs.Runs

/-! # Atomicity of saves

Power may be lost during any save of a run, and a new storage goes on from there. Where the
checksum detects torn records, a save that is cut short leaves what was there or what was to be
saved. The runs exclude that power is lost part-way through an erase, which is allowed in the last
save only: what remains of a half erased log passes for an empty one. -/

namespace TwinLog.Installation

variable (i : Installation)

def HalfErased (before after : Medium) : Prop :=
  ∃ side, ∃ n < (i.volume side).size, after = (i.volume side).wiped before n ∧
    after ≠ before ∧ after ≠ (i.volume side).wiped before (i.volume side).size

/-- The worlds that a blank medium reaches by loads, saves, saves that are cut short, and new
storages, with the number of saves that made a new generation. -/
inductive Reaches : Nat → World → Prop where
  | boot {m : Medium} (blank : i.Blank m) : Reaches 0 (i.boot m)
  | reboot {n : Nat} {w : World} (h : Reaches n w) : Reaches n (i.boot w.medium)
  | load {n : Nat} {w : World} (h : Reaches n w) : Reaches n (i.load w).2
  | save {n : Nat} {w : World} (h : Reaches n w) (settings : Settings) :
      Reaches (n + (i.advances w settings).toNat) (i.save .none w settings).2
  | cut {n : Nat} {w : World} (h : Reaches n w) (settings : Settings) (calls bytes : Nat)
      (tears : i.advances w settings → (i.generation w settings).DetectsTears)
      (whole : ¬i.HalfErased w.medium (i.cut w settings calls bytes).2.medium) :
      Reaches (n + (i.advances w settings).toNat) (i.cut w settings calls bytes).2

variable {i} {generation : Nat} {w : World} {image : Settings.Image} {s : Session}

/-! ## Power loss -/

/-- Power loss leaves the newest record that was there or the new generation. -/
theorem Staged.newest_broken (h : i.Staged generation w image s) (tears : s.latest.DetectsTears)
    {m : Medium} (broken : i.Broken s w.medium m) :
    Session.newest (i.last m) = Session.newest (i.last w.medium) ∨
      Session.newest (i.last m) = some s.latest := by
  cases broken with
  | before => exact .inl rfl
  | @reset _ _ n inside =>
    refine .inl ?_
    by_cases zero : n = 0
    · rw [zero, Volume.wiped_zero]
    -- the log that is reset is not the one with the newest record
    obtain ⟨target, other⟩ := last_wiped (m := w.medium) inside
    rw [if_neg zero] at target
    exact (Session.newest_of_none target).trans (other.trans h.newest_eq.symm)
  | record _ t =>
    by_cases whole : s.latest.torn t = s.latest.encode.toList
    · exact .inr (h.newest_stored whole)
    · exact .inl (h.newest_stored_of_part whole tears)

/-- Power loss leaves a sound medium, unless it leaves a half erased one. -/
theorem Staged.sound_broken (h : i.Staged generation w image s) (tears : s.latest.DetectsTears)
    {m : Medium} (broken : i.Broken s w.medium m) (whole : ¬i.HalfErased w.medium m) :
    i.Sound (generation + 1) m := by
  have sound := h.sound.mono (Nat.le_succ generation)
  cases broken with
  | before => exact sound
  | @reset _ _ n inside =>
    by_cases before : (i.target s).wiped w.medium n = w.medium
    · rwa [before]
    have all : (i.target s).wiped w.medium n = (i.target s).wiped w.medium (i.target s).size := by
      by_cases part : n < (i.target s).size
      · exact Classical.byContradiction fun other =>
          whole ⟨s.target, n, part, rfl, before, other⟩
      · rw [Nat.le_antisymm inside (Nat.le_of_not_lt part)]
    rw [all]
    exact sound.wiped s.target
  | record _ t => exact h.sound_stored fun _ => tears

/-- Power loss during a save keeps the medium sound, and what is loaded then was there before or
is what was to be saved. -/
theorem Consistent.of_broken (h : i.Consistent generation w)
    (few : generation + ((i.session w).stage image).writePending.toNat ≤ 65535)
    (tears : ((i.session w).stage image).writePending →
      ((i.session w).stage image).latest.DetectsTears)
    {m : Medium} (broken : i.Broken ((i.session w).stage image) w.medium m) :
    (¬i.HalfErased w.medium m →
        i.Sound (generation + ((i.session w).stage image).writePending.toNat) m) ∧
      (i.reload m = i.reload w.medium ∨ i.reload m = .ok (.decode image)) := by
  cases pending : ((i.session w).stage image).writePending with
  | false =>
    -- nothing is written
    obtain rfl : m = w.medium := by
      cases broken with
      | before => rfl
      | reset pending' =>
        rw [pending] at pending'
        cases pending'
      | record pending' =>
        rw [pending] at pending'
        cases pending'
    exact ⟨fun _ => h.sound, .inl rfl⟩
  | true =>
    rw [pending] at few tears
    have staged : i.Staged generation w image ((i.session w).stage image) :=
      { toConsistent := h, few := few, staged := rfl, pending := pending }
    refine ⟨staged.sound_broken (tears rfl) broken, ?_⟩
    rw [i.reload_eq, i.reload_eq]
    rcases staged.newest_broken (tears rfl) broken with newest | newest
    · rw [newest]
      exact .inl rfl
    · rw [newest]
      refine .inr ?_
      show Except.ok (Settings.decode ((i.session w).stage image).latest.payload) = _
      rw [staged.payload]

/-! ## Runs -/

/-- A save that is cut short keeps the medium sound, and what is loaded then was there before or
is what was to be saved. -/
theorem Consistent.cut (erasable : ∀ side, (i.volume side).Erasable i.hardware .none)
    (h : i.Consistent generation w) {settings : Settings}
    (few : generation + (i.advances w settings).toNat ≤ 65535) (calls bytes : Nat)
    (tears : i.advances w settings → (i.generation w settings).DetectsTears) :
    ∃ m, (i.cut w settings calls bytes).2 = i.boot m ∧
      (¬i.HalfErased w.medium m → i.Sound (generation + (i.advances w settings).toNat) m) ∧
      (i.reload m = i.reload w.medium ∨ i.reload m = .ok (.decode settings.encode)) ∧
      ((i.cut w settings calls bytes).1 = some (.ok ()) →
        i.reload m = .ok (.decode settings.encode)) := by
  rw [generation_eq erasable h.site] at tears
  rw [advances_eq erasable h.site] at few tears ⊢
  rcases cut_cases erasable h.site settings calls bytes with
    ⟨m, run, broken⟩ | ⟨result, s, m, run, saved⟩
  · rw [run]
    obtain ⟨sound, reload⟩ := h.of_broken few tears broken
    exact ⟨m, rfl, sound, reload, fun done => by cases done⟩
  · rw [run]
    obtain ⟨-, consistent, reload⟩ := h.of_saved few saved
    exact ⟨m, rfl, fun _ => consistent.sound, .inr reload, fun _ => reload⟩

/-- Every world that is reached is consistent. -/
theorem Reaches.consistent (erasable : ∀ side, (i.volume side).Erasable i.hardware .none) {n : Nat}
    (h : i.Reaches n w) (few : n ≤ 65535) : i.Consistent n w := by
  induction h with
  | boot blank => exact .of_sound (.of_blank blank)
  | reboot _ ih => exact .of_sound (ih few).sound
  | load _ ih => exact (ih few).load
  | @save n w _ settings ih =>
    have consistent := ih (Nat.le_trans (Nat.le_add_right _ _) few)
    exact (consistent.save erasable few).2.1
  | @cut n w _ settings calls bytes tears whole ih =>
    have consistent := ih (Nat.le_trans (Nat.le_add_right _ _) few)
    obtain ⟨m, after, sound, -⟩ := consistent.cut erasable few calls bytes tears
    rw [after] at whole ⊢
    exact .of_sound (sound whole)

/-- A run without trouble is one in which no save is cut short. -/
theorem Runs.reaches {n : Nat} (run : i.Runs n w) : i.Reaches n w := by
  induction run with
  | boot blank => exact .boot blank
  | reboot _ ih => exact .reboot ih
  | load _ ih => exact .load ih
  | save _ settings ih => exact .save ih settings

/-- A save that power loss cuts short leaves what a new storage loaded before or the settings that
were to be saved, and these if the save has returned. -/
theorem save_atomic (i : Installation)
    (erasable : ∀ side, (i.volume side).Erasable i.hardware .none) {n : Nat} {w : World}
    (reaches : i.Reaches n w) (few : n < 65535) (settings : Settings) (calls bytes : Nat)
    (tears : i.advances w settings → (i.generation w settings).DetectsTears) :
    ∃ old, i.reload w.medium = .ok old ∧
      (i.reload (i.cut w settings calls bytes).2.medium = .ok old ∨
        i.reload (i.cut w settings calls bytes).2.medium = .ok (.decode settings.encode)) ∧
      ((i.cut w settings calls bytes).1 = some (.ok ()) →
        i.reload (i.cut w settings calls bytes).2.medium = .ok (.decode settings.encode)) := by
  have consistent := reaches.consistent erasable (Nat.le_of_lt few)
  have bound : n + (i.advances w settings).toNat ≤ 65535 := by
    have := Bool.toNat_le (i.advances w settings)
    omega
  obtain ⟨m, after, -, reload, done⟩ := consistent.cut erasable bound calls bytes tears
  rw [after]
  exact ⟨_, i.reload_eq w.medium, by rwa [i.reload_eq w.medium] at reload, done⟩

/-- The first save, with ten bytes written. -/
theorem save_atomic_first :
    let w := flash.boot .erased
    let settings := { Settings.default with brightness := 1 }
    flash.Reaches 0 w ∧
      (flash.advances w settings → (flash.generation w settings).DetectsTears) ∧
      ∃ old, flash.reload w.medium = .ok old ∧
        (flash.reload (flash.cut w settings 2 10).2.medium = .ok old ∨
          flash.reload (flash.cut w settings 2 10).2.medium = .ok (.decode settings.encode)) ∧
        ((flash.cut w settings 2 10).1 = some (.ok ()) →
          flash.reload (flash.cut w settings 2 10).2.medium = .ok (.decode settings.encode)) := by
  intro w settings
  have reaches : flash.Reaches 0 w := .boot flash_blank
  have generation : flash.generation w settings = Record.default.refresh settings.encode := by
    decide +kernel
  have tears : (Record.default.refresh settings.encode).DetectsTears :=
    Record.detectsTears_of_crc (by decide +kernel) (by decide +kernel)
  rw [← generation] at tears
  exact ⟨reaches, fun _ => tears, save_atomic flash (flash_erasable .none) reaches (by decide)
    settings 2 10 fun _ => tears⟩

/-- Ten bytes of this record pass for a record whose settings nobody has saved. -/
theorem torn_save_passes :
    let w := flash.boot .erased
    let settings := { Settings.default with brightness := 162, contrast := 112 }
    flash.Reaches 0 w ∧ flash.reload w.medium = .ok .default ∧
      flash.reload (flash.cut w settings 2 10).2.medium ≠ .ok .default ∧
      flash.reload (flash.cut w settings 2 10).2.medium ≠ .ok (.decode settings.encode) := by
  intro w settings
  refine ⟨.boot flash_blank, ?_, fun h => ?_, fun h => ?_⟩
  · rw [flash.reload_eq]
    exact congrArg Except.ok (by decide +kernel)
  · exact absurd (congrArg Except.toOption h) (by decide +kernel)
  · exact absurd (congrArg Except.toOption h) (by decide +kernel)

end TwinLog.Installation
