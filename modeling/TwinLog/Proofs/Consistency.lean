-- SUMMARY: What a storage knows agrees with its medium, as long as saves succeed.
import TwinLog.Proofs.Save

/-! # Consistent worlds

A medium is sound if its logs are tidy and each last record is on the side of its counter. A world
is consistent if its medium is sound and its session is, but for the source of the settings, the
one that a new storage recovers. Loads and saves keep worlds consistent
(`Installation.Consistent.save`) as long as the counter does not wrap. -/

namespace TwinLog.Installation

variable (i : Installation)

/-- The logs are tidy and hold records of at most the given generation, each on its side. -/
structure Sound (generation : Nat) (m : Medium) : Prop where
  tidy : ∀ side, Log.Tidy ((i.volume side).content m)
  current : ∀ side r, (i.last m).get side = some r → r.integrity = .current
  side : ∀ side r, (i.last m).get side = some r → Side.ofCounter r.counter = side
  counter : ∀ side r, (i.last m).get side = some r → r.counter.toNat ≤ generation

/-- The session knows what a new storage would recover. -/
structure Consistent (generation : Nat) (w : World) : Prop where
  site : w.storage.site = i.site
  sound : i.Sound generation w.medium
  logs : (i.session w).logs = (i.recovered w.medium).logs
  latest : (i.session w).latest = (i.recovered w.medium).latest
  writePending : (i.session w).writePending = (i.recovered w.medium).writePending

variable {i} {generation : Nat} {m : Medium} {w : World}

/-! ## Sound media -/

theorem Sound.mono (h : i.Sound generation m) {n : Nat} (le : generation ≤ n) : i.Sound n m where
  tidy := h.tidy
  current := h.current
  side := h.side
  counter side r found := Nat.le_trans (h.counter side r found) le

/-- Blank media are sound. -/
theorem Sound.of_blank (blank : i.Blank m) : i.Sound 0 m := by
  constructor
  · intro side
    rw [blank side]
    exact Log.tidy_erasedBytes _
  all_goals
    intro side r found
    rw [last_of_blank blank side] at found
    cases found

/-- A reset of a log that stops early keeps a medium sound if it leaves the log tidy. -/
theorem Sound.wiped_of_tidy (h : i.Sound generation m) {side : Side} {n : Nat}
    (inside : n ≤ (i.volume side).size)
    (tidy : Log.Tidy ((i.volume side).content ((i.volume side).wiped m n))) :
    i.Sound generation ((i.volume side).wiped m n) := by
  obtain ⟨self, other⟩ := last_wiped (m := m) inside
  -- every record that is left was there before
  have old : ∀ target r, (i.last ((i.volume side).wiped m n)).get target = some r →
      (i.last m).get target = some r := by
    intro target r found
    rcases target.eq_or_eq_other side with rfl | rfl
    · rw [self] at found
      split at found
      · exact found
      · cases found
    · exact other.symm.trans found
  refine ⟨fun target => ?_, fun target r found => h.current target r (old target r found),
    fun target r found => h.side target r (old target r found),
    fun target r found => h.counter target r (old target r found)⟩
  rcases target.eq_or_eq_other side with rfl | rfl
  · exact tidy
  · rw [content_other_wiped inside]
    exact h.tidy _

/-- Resetting a log keeps a medium sound. -/
theorem Sound.wiped (h : i.Sound generation m) (side : Side) :
    i.Sound generation ((i.volume side).wiped m (i.volume side).size) := by
  refine h.wiped_of_tidy (Nat.le_refl _) ?_
  rw [Volume.content_wiped_size]
  exact Log.tidy_erasedBytes _

/-- The latest generation of a recovered session is current and counted. -/
theorem Sound.latest_recovered (h : i.Sound generation m) :
    (i.recovered m).latest.integrity = .current ∧
      (i.recovered m).latest.counter.toNat ≤ generation := by
  rw [i.latest_recovered]
  rcases Session.newest_cases (i.last m) with ⟨-, newest⟩ | ⟨side, r, found, newest, -⟩
  · rw [newest]
    exact ⟨Record.integrity_default, Nat.zero_le _⟩
  · rw [newest]
    exact ⟨h.current side r found, h.counter side r found⟩

/-- The newest record is on the side of the latest generation. -/
theorem Sound.newest_eq (h : i.Sound generation m) :
    Session.newest (i.last m) = (i.last m).get (i.recovered m).target := by
  rcases Session.newest_cases (i.last m) with ⟨none, newest⟩ | ⟨side, r, found, newest, -⟩
  · rw [newest, none]
  · have target : (i.recovered m).target = side := by
      unfold Session.target
      rw [i.latest_recovered, newest]
      exact h.side side r found
    rw [target, newest, found]

/-! ## Consistent worlds -/

/-- A new storage on a sound medium is consistent. -/
theorem Consistent.of_sound (sound : i.Sound generation m) : i.Consistent generation (i.boot m) where
  site := rfl
  sound := sound
  logs := rfl
  latest := rfl
  writePending := rfl

namespace Consistent

variable (h : i.Consistent generation w)
include h

/-- A load keeps a world consistent. -/
theorem load : i.Consistent generation (i.load w).2 := by
  rw [load_eq h.site]
  exact { site := rfl, sound := h.sound, logs := h.logs, latest := h.latest,
          writePending := h.writePending }

/-- What the session knows of a log tracks it. -/
theorem tracks (side : Side) :
    Log.Tracks ((i.session w).logs.get side) ((i.volume side).content w.medium) := by
  rw [h.logs, get_logs_recovered]
  exact Log.tracks_recovered (h.sound.tidy side)

/-- The session has the settings that a new storage loads. -/
theorem reload_eq : i.reload w.medium = .ok (i.session w).settings := by
  rw [i.reload_eq, ← i.latest_recovered, ← h.latest]
  rfl

end Consistent

/-! ## Staged generations -/

/-- A consistent world whose session has staged an image as the next generation. -/
structure Staged (i : Installation) (generation : Nat) (w : World) (image : Settings.Image)
    (s : Session) : Prop extends i.Consistent generation w where
  few : generation < 65535
  staged : s = (i.session w).stage image
  pending : s.writePending = true

namespace Staged

variable {image : Settings.Image} {s : Session} (h : i.Staged generation w image s)
include h

theorem latest_eq : s.latest = (i.recovered w.medium).latest.refresh image := by
  have pending := h.pending
  rw [h.staged] at pending ⊢
  rw [Session.stage_of_pending pending, ← h.latest]

theorem current : s.latest.integrity = .current := by
  rw [h.latest_eq]
  have magic := (Record.integrity_eq_current.1 h.sound.latest_recovered.1).1
  exact Record.integrity_refresh magic image

theorem payload : s.latest.payload = image := by
  rw [h.latest_eq]
  rfl

/-- The counter does not wrap. -/
theorem counter : s.latest.counter.toNat = (i.recovered w.medium).latest.counter.toNat + 1 := by
  have pending := h.pending
  have few := Nat.lt_of_le_of_lt h.sound.latest_recovered.2 h.few
  rw [← h.latest] at few ⊢
  rw [h.staged] at pending ⊢
  exact Session.toNat_counter_stage pending few

theorem target : s.target = (i.recovered w.medium).target.other := by
  have pending := h.pending
  rw [h.staged] at pending ⊢
  rw [Session.target_stage pending]
  unfold Session.target
  rw [h.latest]

theorem tracks :
    Log.Tracks s.log ((i.volume s.target).content w.medium) := by
  unfold Session.log
  rw [h.staged, Session.logs_stage, ← h.staged]
  exact h.toConsistent.tracks s.target

/-- The newest record on the medium is on the other side. -/
theorem newest_eq :
    Session.newest (i.last w.medium) = (i.last w.medium).get s.target.other := by
  rw [h.sound.newest_eq, h.target, Side.other_other]

/-- The new generation is newer than every record on the medium. -/
theorem counter_lt {side : Side} {r : Record} (found : (i.last w.medium).get side = some r) :
    r.counter < s.latest.counter := by
  have counter := h.counter
  rw [UInt16.lt_iff_toNat_lt]
  rcases Session.newest_cases (i.last w.medium) with ⟨none, -⟩ | ⟨side', r', found', newest, le⟩
  · rw [none side] at found
    cases found
  rw [i.latest_recovered, newest] at counter
  have bound : r.counter ≤ r'.counter := by
    rcases side.eq_or_eq_other side' with rfl | rfl
    · rw [found'] at found
      cases found
      exact UInt16.le_refl _
    · exact le r found
  rw [UInt16.le_iff_toNat_le] at bound
  have same : (Option.getD (some r') Record.default) = r' := rfl
  rw [same] at counter
  omega

/-! ## The new generation on the medium -/

/-- A part of the new generation leaves a sound medium. -/
theorem sound_stored {t : Nat} (tears : s.latest.torn t ≠ s.latest.encode.toList →
      s.latest.DetectsTears) : i.Sound (generation + 1) (i.stored s w.medium t) := by
  have sound := h.sound
  refine ⟨fun side => ?_, fun side r found => ?_, fun side r found => ?_, fun side r found => ?_⟩
  · rcases side.eq_or_eq_other s.target with rfl | rfl
    · exact Volume.tidy_appended (i.writable s.target) h.tracks h.current tears
    · rw [content_other_stored]
      exact sound.tidy _
  · rcases last_stored_cases h.tracks h.current tears found with ⟨-, rfl⟩ | found
    · exact h.current
    · exact sound.current side r found
  · rcases last_stored_cases h.tracks h.current tears found with ⟨rfl, rfl⟩ | found
    · rfl
    · exact sound.side side r found
  · rcases last_stored_cases h.tracks h.current tears found with ⟨-, rfl⟩ | found
    · have := h.counter
      have := sound.latest_recovered.2
      omega
    · exact Nat.le_succ_of_le (sound.counter side r found)

/-- Once it is written, the new generation is the newest record. -/
theorem newest_stored {t : Nat} (whole : s.latest.torn t = s.latest.encode.toList) :
    Session.newest (i.last (i.stored s w.medium t)) = some s.latest := by
  obtain ⟨target, other⟩ := last_stored h.tracks h.current fun part => absurd whole part
  rw [if_pos whole] at target
  refine Session.newest_of_lt target fun r found => ?_
  rw [other] at found
  exact h.counter_lt found

/-- A part of the new generation leaves the newest record that was there. -/
theorem newest_stored_of_part {t : Nat} (part : s.latest.torn t ≠ s.latest.encode.toList)
    (tears : s.latest.DetectsTears) :
    Session.newest (i.last (i.stored s w.medium t)) = Session.newest (i.last w.medium) := by
  obtain ⟨target, other⟩ := last_stored h.tracks h.current fun _ => tears
  rw [if_neg part] at target
  split at target
  · rw [Session.newest_of_none target, other, h.newest_eq]
  · rename_i kept
    have same : i.last (i.stored s w.medium t) = i.last w.medium := by
      refine Sides.ext_get fun side => ?_
      rcases side.eq_or_eq_other s.target with rfl | rfl
      · exact target
      · exact other
    rw [same]

/-- A save that is complete leaves a consistent world. -/
theorem consistent_written :
    i.Consistent (generation + 1) ⟨i.stored s w.medium Record.size,
      ⟨i.site, some { s.appended (i.target s) with writePending := false }⟩⟩ := by
  have whole : s.latest.torn Record.size = s.latest.encode.toList :=
    s.latest.torn_of_le (Nat.le_refl _)
  have newest := h.newest_stored whole
  refine ⟨rfl, h.sound_stored fun part => absurd whole part, ?_, ?_, ?_⟩
  · show s.logs.set s.target ((i.target s).next s.log) = _
    refine Sides.ext_get fun side => ?_
    rw [get_logs_recovered]
    rcases side.eq_or_eq_other s.target with rfl | rfl
    · have recovered := Volume.recovered_appended i.hardware (i.writable s.target) h.tracks
        h.current
      rw [Sides.get_set_self]
      exact (congrArg Recovered.state recovered).symm
    · rw [Sides.get_set_of_ne _ (Side.other_ne _), content_other_stored, ← get_logs_recovered,
        ← h.logs, h.staged, Session.logs_stage]
  · show s.latest = _
    rw [i.latest_recovered, newest]
    rfl
  · show false = _
    rw [i.writePending_recovered, newest]
    simp [h.current]

end Staged

/-! ## Saves -/

/-- A save that ends without trouble leaves a consistent world from which its settings are
loaded. -/
theorem Consistent.of_saved (h : i.Consistent generation w) {image : Settings.Image}
    (few : generation + ((i.session w).stage image).writePending.toNat ≤ 65535)
    {result : Except Error Unit} {s : Session}
    (saved : i.Saved .none ((i.session w).stage image) w.medium result s m) :
    result = .ok () ∧
      i.Consistent (generation + ((i.session w).stage image).writePending.toNat)
        ⟨m, ⟨i.site, some s⟩⟩ ∧
      i.reload m = .ok (.decode image) := by
  obtain ⟨rfl, outcome⟩ := saved.of_healthy
  rcases outcome with ⟨pending, rfl, rfl⟩ | ⟨pending, rfl, rfl⟩
  · obtain ⟨same, payload⟩ := Session.stage_of_idle pending
    have consistent : i.Consistent generation ⟨w.medium, ⟨i.site, some (i.session w)⟩⟩ :=
      { site := rfl, sound := h.sound, logs := h.logs, latest := h.latest,
        writePending := h.writePending }
    rw [pending, same]
    refine ⟨rfl, consistent, ?_⟩
    rw [h.reload_eq, payload]
    rfl
  · rw [pending] at few ⊢
    have staged : i.Staged generation w image ((i.session w).stage image) :=
      { toConsistent := h, few := few, staged := rfl, pending := pending }
    refine ⟨rfl, staged.consistent_written, ?_⟩
    refine staged.consistent_written.reload_eq.trans ?_
    show Except.ok (Settings.decode ((i.session w).stage image).latest.payload) = _
    rw [staged.payload]

/-- A save without trouble succeeds and keeps a world consistent, unless the counter wraps. -/
theorem Consistent.save (erasable : ∀ side, (i.volume side).Erasable i.hardware .none)
    (h : i.Consistent generation w) {settings : Settings}
    (few : generation + (i.advances w settings).toNat ≤ 65535) :
    (i.save .none w settings).1 = .ok () ∧
      i.Consistent (generation + (i.advances w settings).toNat) (i.save .none w settings).2 ∧
      i.reload (i.save .none w settings).2.medium = .ok (.decode settings.encode) := by
  obtain ⟨result, s, m, run, saved⟩ := save_cases rfl erasable h.site settings
  rw [advances_eq erasable h.site] at few ⊢
  rw [run]
  exact h.of_saved few saved

end TwinLog.Installation
