-- SUMMARY: What is known of a log agrees with its bytes, and appends keep it so.
import TwinLog.Proofs.Log.Append
import TwinLog.Proofs.Log.Entries

/-! # Tracked logs

A state tracks the bytes of a log if its free offset is the end of the log and nothing but erased
bytes follow. A log in doubt need not be tracked, since it is reset before anything is appended.
For a tracked log, the laws below say what an append leaves, also when only a part of the record
is written: the last record (`Volume.latest?_appended`), and a log that is tidy again. -/

namespace TwinLog

open Volume (erasedBytes)

namespace Log

/-- The state says where the log ends, unless the log is in doubt. -/
def Tracks (log : LogState) (bytes : List UInt8) : Prop :=
  log.status ≠ .corrupt →
    ∃ es, entries bytes = some es ∧ log.freeOffset = extent es ∧ Tidy bytes

/-- Recovery tracks a tidy log. -/
theorem tracks_recovered {bytes : List UInt8} (tidy : Tidy bytes) :
    Tracks (recovered bytes).state bytes := by
  intro trusted
  unfold recovered at trusted ⊢
  by_cases empty : bytes = []
  · rw [if_pos empty] at trusted
    exact absurd rfl trusted
  rw [if_neg empty] at trusted ⊢
  cases found : entries bytes with
  | none =>
    rw [found] at trusted
    exact absurd rfl trusted
  | some es =>
    rw [found] at trusted
    refine ⟨es, rfl, ?_, tidy⟩
    by_cases nil : es = []
    · subst nil
      rfl
    · simp only [if_neg nil, outcome] at trusted ⊢
      cases last : latest es with
      | none =>
        rw [last] at trusted
        exact absurd rfl trusted
      | some r => rfl

end Log

namespace Volume

variable {v : Volume} {hw : Hardware} {m : Medium} {log : LogState} {r : Record}

/-- An append is a write behind the entries of a tidy log, which is the old one or an erased
one. -/
theorem content_appended (hw : Hardware) (writable : v.Writable) (tracks : Log.Tracks log (v.content m))
    (r : Record) :
    ∃ base es, Log.entries base = some es ∧ Log.Tidy base ∧ base.length = v.size ∧
      Log.extent es + Record.size ≤ v.size ∧
      v.next log = ⟨.clean, Log.extent es + Record.size⟩ ∧
      base = (if v.resets log then erasedBytes v.size else v.content m) ∧
      ∀ t, v.content (v.appended hw log r m t) = Log.withTorn base es r t := by
  unfold next appended
  by_cases reset : v.resets log
  · simp only [if_pos reset]
    refine ⟨_, [], Log.entries_erasedBytes v.size, Log.tidy_erasedBytes _, length_erasedBytes _,
      by rw [Log.extent_nil, Nat.zero_add]; exact writable.room, by simp, rfl, fun t => ?_⟩
    have erased : (v.content (v.wiped m v.size)).drop 0 = erasedBytes (v.size - 0) :=
      content_wiped_size v m
    rw [content_written_record r t (by rw [Nat.zero_add]; exact writable.room) erased,
      Log.withTorn, Log.extent_nil, length_erasedBytes]
    rfl
  · simp only [if_neg reset]
    unfold resets at reset
    rw [not_or, Nat.not_lt] at reset
    obtain ⟨trusted, room⟩ := reset
    obtain ⟨es, entries, free, tidy⟩ := tracks trusted
    rw [free] at room
    refine ⟨_, es, entries, tidy, length_content v m, room, by rw [free], rfl, fun t => ?_⟩
    have erased := tidy es entries
    rw [length_content] at erased
    rw [free, content_written_record r t room erased, Log.withTorn, length_content]

/-- A record that is written whole is tracked. -/
theorem tracks_next (writable : v.Writable) (tracks : Log.Tracks log (v.content m))
    (current : r.integrity = .current) :
    Log.Tracks (v.next log) (v.content (v.appended hw log r m Record.size)) := by
  obtain ⟨base, es, entries, -, length, room, next, -, content⟩ :=
    content_appended hw writable tracks r
  have whole : r.torn Record.size = r.encode.toList := r.torn_of_le (Nat.le_refl _)
  intro _
  rw [content, next]
  rw [← length] at room
  refine ⟨_, Log.entries_withTorn_whole entries (by omega) current whole, ?_,
    Log.tidy_withTorn entries room current fun part => absurd whole part⟩
  exact (Log.extent_append_singleton es ⟨Record.size, some r⟩).symm

/-- A record that is written whole is recovered as the last one. -/
theorem recovered_appended (hw : Hardware) (writable : v.Writable) (tracks : Log.Tracks log (v.content m))
    (current : r.integrity = .current) :
    Log.recovered (v.content (v.appended hw log r m Record.size)) =
      .clean (v.next log).freeOffset r := by
  obtain ⟨base, es, entries, -, length, room, next, -, content⟩ :=
    content_appended hw writable tracks r
  have whole : r.torn Record.size = r.encode.toList := r.torn_of_le (Nat.le_refl _)
  have pos : 0 < v.size := writable.nonempty
  rw [content, next, Log.recovered, if_neg]
  · rw [Log.entries_withTorn_whole entries (by omega) current whole]
    simp only [List.append_eq_nil_iff, List.cons_ne_nil, and_false, if_false, Log.outcome,
      Log.latest_append_singleton, Option.some_or, Log.extent_append_singleton]
  · intro empty
    have := congrArg List.length empty
    rw [Log.length_withTorn (by omega), List.length_nil] at this
    omega

/-- A part of a record leaves a tidy log tidy. -/
theorem tidy_appended (writable : v.Writable) (tracks : Log.Tracks log (v.content m))
    (current : r.integrity = .current) {t : Nat}
    (tears : r.torn t ≠ r.encode.toList → r.DetectsTears) :
    Log.Tidy (v.content (v.appended hw log r m t)) := by
  obtain ⟨base, es, entries, -, length, room, -, -, content⟩ :=
    content_appended hw writable tracks r
  rw [content]
  exact Log.tidy_withTorn entries (by omega) current tears

/-- The last record after a part of a record is appended. -/
theorem latest?_appended (writable : v.Writable) (tracks : Log.Tracks log (v.content m))
    (current : r.integrity = .current) {t : Nat}
    (tears : r.torn t ≠ r.encode.toList → r.DetectsTears) :
    Log.latest? (v.content (v.appended hw log r m t)) =
      if r.torn t = r.encode.toList then some r
      else if (0 < t ∧ t < 4) ∨ v.resets log then none
      else Log.latest? (v.content m) := by
  obtain ⟨base, es, entries, -, length, room, -, old, content⟩ :=
    content_appended hw writable tracks r
  rw [content, Log.latest?_withTorn entries (by omega) current tears]
  by_cases whole : r.torn t = r.encode.toList
  · rw [if_pos whole, if_pos whole]
  rw [if_neg whole, if_neg whole]
  have last : Log.latest es = Log.latest? base := by
    rw [Log.latest?, entries, Option.bind_some]
  by_cases reset : v.resets log
  · have none : Log.latest es = none := by
      rw [last, old, if_pos reset, Log.latest?_erasedBytes]
    rw [none, ite_self, if_pos (.inr reset)]
  · rw [last, old, if_neg reset]
    simp only [reset, or_false]

/-- A reset that has begun leaves no record. -/
theorem latest?_wiped {n : Nat} (pos : 0 < n) (inside : n ≤ v.size) :
    Log.latest? (v.content (v.wiped m n)) = none := by
  rw [content_wiped v m inside]
  exact Log.latest?_erased_append pos _

end Volume

end TwinLog
