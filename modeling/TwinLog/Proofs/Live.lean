-- SUMMARY: What a storage that is kept in use knows of its logs, whatever errors its devices return.
import TwinLog.Proofs.Save

/-! # Storages in use

After an error the session may know less of a log than a new storage would recover, but what it
relies on is right: each log that is not in doubt is tracked, and the latest generation is not
older than any record. Every save keeps this, whether it fails or not
(`Installation.Attempt.ended`). -/

namespace TwinLog.Installation

variable (i : Installation)

/-- The session relies on nothing that the medium does not bear out. Its latest generation is the
one of the given number. -/
structure Live (generation : Nat) (w : World) : Prop where
  site : w.storage.site = i.site
  tracks : ∀ side,
    Log.Tracks ((i.session w).logs.get side) ((i.volume side).content w.medium)
  current : (i.session w).latest.integrity = .current
  latest : (i.session w).latest.counter.toNat = generation
  side : ∀ side r, (i.last w.medium).get side = some r → Side.ofCounter r.counter = side
  counter : ∀ side r, (i.last w.medium).get side = some r → r.counter.toNat ≤ generation
  settled : (i.session w).writePending = false →
    (i.last w.medium).get (i.session w).target = some (i.session w).latest

variable {i} {generation : Nat} {w : World}

/-- A new storage on a blank medium. -/
theorem Live.boot {m : Medium} (blank : i.Blank m) : i.Live 0 (i.boot m) := by
  have none := last_of_blank blank
  have newest := newest_of_blank blank
  have latest : (i.recovered m).latest = .default := by
    rw [i.latest_recovered, newest]
    rfl
  refine ⟨rfl, fun side => ?_, ?_, ?_, fun side r found => ?_, fun side r found => ?_, ?_⟩
  · rw [session_boot, get_logs_recovered]
    refine Log.tracks_recovered ?_
    show Log.Tidy ((i.volume side).content m)
    rw [blank side]
    exact Log.tidy_erasedBytes _
  · rw [session_boot, latest]
    exact Record.integrity_default
  · rw [session_boot, latest]
    rfl
  · cases (none side).symm.trans found
  · cases (none side).symm.trans found
  · intro pending
    rw [session_boot, i.writePending_recovered, newest] at pending
    cases pending

/-- A load keeps a storage in use. -/
theorem Live.load (h : i.Live generation w) : i.Live generation (i.load w).2 := by
  rw [load_eq h.site]
  exact { site := rfl, tracks := h.tracks, current := h.current, latest := h.latest,
          side := h.side, counter := h.counter, settled := h.settled }

/-- Where no write is pending, the latest generation is the newest record: the records of its side
end with it, and those of the other side have counters of the other parity. -/
theorem Live.newest_eq (h : i.Live generation w) (idle : (i.session w).writePending = false) :
    Session.newest (i.last w.medium) = some (i.session w).latest := by
  refine Session.newest_of_lt (h.settled idle) fun r found => ?_
  have le := h.counter _ r found
  have other : Side.ofCounter r.counter ≠ Side.ofCounter (i.session w).latest.counter :=
    (h.side _ r found).trans_ne (Side.other_ne _)
  have ne : r.counter.toNat ≠ generation := by
    intro same
    rw [← h.latest] at same
    exact other (Side.ofCounter_eq_iff.2 (congrArg (· % 2) same))
  rw [UInt16.lt_iff_toNat_lt, h.latest]
  exact Nat.lt_of_le_of_ne le ne

/-! ## Attempts -/

/-- A storage in use that has staged an image as the next generation. -/
structure Attempt (i : Installation) (generation : Nat) (w : World) (image : Settings.Image)
    (s : Session) : Prop extends i.Live generation w where
  few : generation < 65535
  staged : s = (i.session w).stage image
  pending : s.writePending = true

namespace Attempt

variable {image : Settings.Image} {s : Session} (h : i.Attempt generation w image s)
include h

theorem latest_eq : s.latest = (i.session w).latest.refresh image := by
  have pending := h.pending
  rw [h.staged] at pending ⊢
  exact Session.latest_stage pending

theorem current_staged : s.latest.integrity = .current := by
  rw [h.latest_eq]
  exact Record.integrity_refresh (Record.integrity_eq_current.1 h.current).1 image

theorem payload : s.latest.payload = image := by
  rw [h.latest_eq]
  rfl

/-- The counter does not wrap. -/
theorem latest_staged : s.latest.counter.toNat = generation + 1 := by
  have pending := h.pending
  have few := h.few
  rw [← h.latest] at few ⊢
  rw [h.staged] at pending ⊢
  exact Session.toNat_counter_stage pending few

theorem tracks_staged (side : Side) :
    Log.Tracks (s.logs.get side) ((i.volume side).content w.medium) := by
  rw [h.staged, Session.logs_stage]
  exact h.tracks side

/-- What a save leaves is in use if its log is tracked or in doubt, and each of its records is the
new generation or was there before. -/
theorem live {s' : Session} {m : Medium} (latest : s'.latest = s.latest)
    (target : Log.Tracks (s'.logs.get s.target) ((i.volume s.target).content m))
    (other : s'.logs.get s.target.other = s.logs.get s.target.other)
    (content : (i.volume s.target.other).content m =
      (i.volume s.target.other).content w.medium)
    (records : ∀ r, (i.last m).get s.target = some r →
      r = s.latest ∨ (i.last w.medium).get s.target = some r)
    (settled : s'.writePending = false → (i.last m).get s.target = some s.latest) :
    i.Live (generation + 1) ⟨m, ⟨i.site, some s'⟩⟩ := by
  -- the other log is as before
  have old : ∀ side r, (i.last m).get side = some r →
      (side = s.target ∧ r = s.latest) ∨ (i.last w.medium).get side = some r := by
    intro side r found
    rcases side.eq_or_eq_other s.target with rfl | rfl
    · rcases records r found with rfl | found
      · exact .inl ⟨rfl, rfl⟩
      · exact .inr found
    · rw [get_last, content, ← get_last] at found
      exact .inr found
  refine ⟨rfl, fun side => ?_, ?_, ?_, fun side r found => ?_, fun side r found => ?_, ?_⟩
  · show Log.Tracks (s'.logs.get side) ((i.volume side).content m)
    rcases side.eq_or_eq_other s.target with rfl | rfl
    · exact target
    · rw [other, content]
      exact h.tracks_staged _
  · show s'.latest.integrity = _
    rw [latest]
    exact h.current_staged
  · show s'.latest.counter.toNat = _
    rw [latest]
    exact h.latest_staged
  · -- the new record is on its side, and no record has a greater counter
    rcases old side r found with ⟨rfl, rfl⟩ | found
    · rfl
    · exact h.side side r found
  · rcases old side r found with ⟨-, rfl⟩ | found
    · exact Nat.le_of_eq h.latest_staged
    · exact Nat.le_succ_of_le (h.counter side r found)
  · intro pending
    show (i.last m).get (Side.ofCounter s'.latest.counter) = some s'.latest
    rw [latest]
    exact settled pending

/-- What is known of the log after the new generation is written. -/
theorem live_appended {s' : Session} (latest : s'.latest = s.latest)
    (logs : s'.logs = s.logs.set s.target ((i.target s).next s.log)) :
    i.Live (generation + 1) ⟨i.stored s w.medium Record.size, ⟨i.site, some s'⟩⟩ := by
  have whole : s.latest.torn Record.size = s.latest.encode.toList :=
    s.latest.torn_of_le (Nat.le_refl _)
  have last := (last_stored (h.tracks_staged s.target) h.current_staged
    fun part => absurd whole part).1
  rw [if_pos whole] at last
  refine h.live latest ?_ ?_ (content_other_stored _) (fun r found => ?_) fun _ => last
  · rw [logs, Sides.get_set_self]
    exact Volume.tracks_next (i.writable s.target) (h.tracks_staged s.target) h.current_staged
  · rw [logs, Sides.get_set_of_ne _ (Side.other_ne _)]
  · rw [last] at found
    cases found
    exact .inl rfl

/-- What is known of the log after a save that failed. -/
theorem live_doubted {m : Medium}
    (content : (i.volume s.target.other).content m =
      (i.volume s.target.other).content w.medium)
    (records : ∀ r, (i.last m).get s.target = some r →
      r = s.latest ∨ (i.last w.medium).get s.target = some r) :
    i.Live (generation + 1) ⟨m, ⟨i.site, some s.doubted⟩⟩ := by
  refine h.live rfl ?_ ?_ content records fun settled => ?_
  · intro trusted
    rw [Session.doubted, Sides.get_set_self] at trusted
    exact absurd rfl trusted
  · rw [Session.doubted, Sides.get_set_of_ne _ (Side.other_ne _)]
  · have pending := h.pending
    rw [show s.writePending = false from settled] at pending
    cases pending

/-- Every save of a new generation leaves a storage in use. -/
theorem ended (tears : s.latest.DetectsTears) {result : Except Error Unit} {s' : Session}
    {m : Medium} (ended : i.Ended s w.medium result s' m) :
    i.Live (generation + 1) ⟨m, ⟨i.site, some s'⟩⟩ := by
  cases ended with
  | idle idle =>
    rw [h.pending] at idle
    cases idle
  | written => exact h.live_appended rfl rfl
  | unsynced => exact h.live_appended rfl rfl
  | unwritten =>
    refine h.live_doubted (content_other_stored _) fun r found => ?_
    rcases last_stored_cases (h.tracks_staged s.target) h.current_staged (fun _ => tears) found with
      ⟨-, new⟩ | old
    · exact .inl new
    · exact .inr old
  | unerased _ _ inside =>
    refine h.live_doubted (content_other_wiped inside) fun r found => ?_
    rw [target, (last_wiped inside).1] at found
    split at found
    · exact .inr found
    · cases found

end Attempt

/-- A save that stages nothing leaves everything as it is. -/
theorem Live.ended_of_idle (h : i.Live generation w) {image : Settings.Image}
    (idle : ((i.session w).stage image).writePending = false) {result : Except Error Unit}
    {s : Session} {m : Medium}
    (ended : i.Ended ((i.session w).stage image) w.medium result s m) :
    result = .ok () ∧ s = i.session w ∧ m = w.medium ∧
      i.Live generation ⟨w.medium, ⟨i.site, some (i.session w)⟩⟩ := by
  have same := (Session.stage_of_idle idle).1
  have live : i.Live generation ⟨w.medium, ⟨i.site, some (i.session w)⟩⟩ :=
    { site := rfl, tracks := h.tracks, current := h.current, latest := h.latest, side := h.side,
      counter := h.counter, settled := h.settled }
  cases ended with
  | idle => exact ⟨rfl, same, rfl, live⟩
  | written pending => cases idle.symm.trans pending
  | unsynced pending => cases idle.symm.trans pending
  | unwritten pending => cases idle.symm.trans pending
  | unerased pending => cases idle.symm.trans pending

/-! ## Two generations -/

/-- Every tear of the first generation with brightness 1 is detected. -/
theorem detectsTears_first :
    (Record.default.refresh { Settings.default with brightness := 1 }.encode).DetectsTears :=
  Record.detectsTears_of_crc (by decide +kernel) (by decide +kernel)

/-- Every tear of the second generation with brightness 2 is detected. -/
theorem detectsTears_second :
    ((Record.default.refresh { Settings.default with brightness := 1 }.encode).refresh
      { Settings.default with brightness := 2 }.encode).DetectsTears :=
  Record.detectsTears_of_crc (by decide +kernel) (by decide +kernel)

end TwinLog.Installation
