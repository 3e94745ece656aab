-- SUMMARY: Logs of whole records, and the state of a log that is known to hold them.
import TwinLog.Proofs.Log.Tracking
import TwinLog.Proofs.Settings

/-! # Logs of whole records

Saves that are never interrupted leave logs that are their records one after the other, with
erased bytes behind them. `Log.Keeps` says so of a log and of what is known about it. Recovery
finds the last record (`Log.Keeps.latest?_eq`), and an append adds one (`Log.Keeps.appended`). -/

namespace TwinLog

open Volume (erasedBytes)

namespace Log

/-! ## Bytes -/

/-- The bytes of records one after the other. -/
def image (rs : List Record) : List UInt8 :=
  rs.flatMap fun r => r.encode.toList

/-- The entries of records one after the other. -/
def entriesOf (rs : List Record) : List Entry :=
  rs.map fun r => ⟨Record.size, some r⟩

@[simp] theorem length_image (rs : List Record) : (image rs).length = Record.size * rs.length := by
  induction rs with
  | nil => rfl
  | cons r rs ih =>
    rw [image, List.flatMap_cons, List.length_append, Record.length_toList_encode]
    rw [image] at ih
    rw [ih, List.length_cons, Nat.mul_succ, Nat.add_comm]

@[simp] theorem image_append (rs rs' : List Record) : image (rs ++ rs') = image rs ++ image rs' :=
  List.flatMap_append

@[simp] theorem image_singleton (r : Record) : image [r] = r.encode.toList := by
  simp [image]

@[simp] theorem extent_entriesOf (rs : List Record) :
    extent (entriesOf rs) = Record.size * rs.length := by
  induction rs with
  | nil => rfl
  | cons r rs ih =>
    rw [entriesOf, List.map_cons, extent, List.length_cons, Nat.mul_succ, Nat.add_comm]
    exact congrArg (· + Record.size) ih

@[simp] theorem latest_entriesOf (rs : List Record) : latest (entriesOf rs) = rs.getLast? := by
  have records : (entriesOf rs).filterMap Entry.record? = rs := by
    rw [entriesOf, List.filterMap_map]
    exact List.filterMap_some
  rw [latest, records]

/-- Records in the current format are read one after the other. -/
theorem entries_image {rs : List Record} (current : ∀ r ∈ rs, r.integrity = .current)
    (tail : List UInt8) : entries (image rs ++ tail) = (entries tail).map (entriesOf rs ++ ·) := by
  induction rs with
  | nil => simp [image, entriesOf]
  | cons r rs ih =>
    have split : image (r :: rs) ++ tail = r.encode.toList ++ (image rs ++ tail) := by
      rw [image, List.flatMap_cons, List.append_assoc]
      rfl
    rw [split, entries_encode (current r List.mem_cons_self),
      ih fun r' mem => current r' (List.mem_cons_of_mem r mem), Option.map_map]
    rfl

/-! ## States -/

/-- The log holds whole records of settings, and its state says where they end. -/
structure Keeps (log : LogState) (bytes : List UInt8) (rs : List Record) : Prop where
  bytes_eq : bytes = image rs ++ erasedBytes (bytes.length - Record.size * rs.length)
  current : ∀ r ∈ rs, r.integrity = .current
  payload : ∀ r ∈ rs, ∃ settings : Settings, r.payload = settings.encode
  trusted : log.status ≠ .corrupt
  free : log.freeOffset = Record.size * rs.length

namespace Keeps

variable {log : LogState} {bytes : List UInt8} {rs : List Record}

/-- The log without records. -/
theorem of_erased (size : Nat) : Keeps .empty (erasedBytes size) [] where
  bytes_eq := by simp [image]
  current := nofun
  payload := nofun
  trusted := nofun
  free := rfl

variable (h : Keeps log bytes rs)
include h

theorem entries_eq : entries bytes = some (entriesOf rs) := by
  rw [h.bytes_eq, entries_image h.current, entries_erasedBytes]
  simp

/-- The last record is the latest one. -/
theorem latest?_eq : latest? bytes = rs.getLast? := by
  rw [latest?, h.entries_eq]
  exact latest_entriesOf rs

theorem inside : Record.size * rs.length ≤ bytes.length := by
  have length := congrArg List.length h.bytes_eq
  rw [List.length_append, length_image, length_erasedBytes] at length
  omega

/-- The log from a record on. -/
theorem drop_eq {j : Nat} (le : j ≤ rs.length) :
    bytes.drop (Record.size * j) = image (rs.drop j) ++
      erasedBytes (bytes.length - Record.size * rs.length) := by
  have split : image rs = image (rs.take j) ++ image (rs.drop j) := by
    rw [← image_append, List.take_append_drop]
  have front : (image (rs.take j)).length = Record.size * j := by
    rw [length_image, List.length_take, Nat.min_eq_left le]
  conv => lhs; rw [h.bytes_eq, split, List.append_assoc]
  exact List.drop_left' front

/-- The log from a record on starts with it. -/
theorem drop_eq_encode {j : Nat} (lt : j < rs.length) :
    bytes.drop (Record.size * j) = rs[j].encode.toList ++
      (image (rs.drop (j + 1)) ++ erasedBytes (bytes.length - Record.size * rs.length)) := by
  rw [h.drop_eq (Nat.le_of_lt lt), List.drop_eq_getElem_cons lt, image, List.flatMap_cons,
    List.append_assoc]
  rfl

theorem tidy : Tidy bytes := by
  intro es found
  rw [h.entries_eq] at found
  cases found
  rw [extent_entriesOf]
  conv => lhs; rw [h.bytes_eq]
  exact List.drop_left' (length_image rs)

theorem tracks : Tracks log bytes := by
  intro _
  refine ⟨entriesOf rs, h.entries_eq, ?_, h.tidy⟩
  rw [extent_entriesOf, h.free]

theorem state_recovered (nonempty : bytes ≠ []) :
    (Log.recovered bytes).state =
      ⟨if rs = [] then .empty else .clean, Record.size * rs.length⟩ := by
  unfold Log.recovered
  rw [if_neg nonempty, h.entries_eq]
  by_cases none : rs = []
  · rw [none]
    rfl
  · have some : entriesOf rs ≠ [] := fun nil => none (List.map_eq_nil_iff.1 nil)
    simp only [if_neg some, if_neg none, outcome, latest_entriesOf,
      List.getLast?_eq_some_getLast none, extent_entriesOf]
    rfl

/-- Recovery finds out the same. -/
theorem recovered (nonempty : bytes ≠ []) : Keeps (Log.recovered bytes).state bytes rs := by
  rw [h.state_recovered nonempty]
  refine { bytes_eq := h.bytes_eq, current := h.current, payload := h.payload,
           trusted := ?_, free := rfl }
  show (if rs = [] then Status.empty else Status.clean) ≠ Status.corrupt
  split <;> exact nofun

end Keeps

end Log

/-- A record that is appended comes last. A log that is full is reset first. -/
theorem Log.Keeps.appended {v : Volume} {m : Medium} {log : LogState} {rs : List Record}
    (h : Log.Keeps log (v.content m) rs) (hw : Hardware) (writable : v.Writable) {r : Record}
    (current : r.integrity = .current) (payload : ∃ settings : Settings, r.payload = settings.encode) :
    Log.Keeps (v.next log) (v.content (v.appended hw log r m Record.size))
      ((if v.resets log then [] else rs) ++ [r]) := by
  -- the records that the new one goes behind
  obtain ⟨base, es, entries, -, length, room, next, old, content⟩ :=
    Volume.content_appended hw writable h.tracks r
  have front : es = Log.entriesOf (if v.resets log then [] else rs) ∧
      base.take (Log.extent es) = Log.image (if v.resets log then [] else rs) ∧
      ∀ r' ∈ (if v.resets log then [] else rs), r' ∈ rs := by
    by_cases reset : v.resets log
    · rw [if_pos reset] at old ⊢
      rw [old, Log.entries_erasedBytes] at entries
      cases entries
      refine ⟨rfl, List.take_zero, fun r' mem => ?_⟩
      cases mem
    · rw [if_neg reset] at old ⊢
      rw [old, h.entries_eq] at entries
      cases entries
      refine ⟨rfl, ?_, fun r' mem => mem⟩
      rw [Log.extent_entriesOf, old]
      conv => lhs; rw [h.bytes_eq]
      exact List.take_left' (Log.length_image rs)
  generalize (if v.resets log then [] else rs) = kept at front ⊢
  obtain ⟨rfl, image, sub⟩ := front
  rw [Log.extent_entriesOf] at room next image
  have whole : r.torn Record.size = r.encode.toList := r.torn_of_le (Nat.le_refl _)
  have count : Record.size * (kept ++ [r]).length = Record.size * kept.length + Record.size := by
    rw [List.length_append, List.length_singleton, Nat.mul_succ]
  refine ⟨?_, fun r' mem => ?_, fun r' mem => ?_, ?_, ?_⟩
  · rw [Volume.length_content, content, Log.withTorn, Log.extent_entriesOf, image, whole, length,
      count, Log.image_append, Log.image_singleton, List.append_assoc]
  · rcases List.mem_append.1 mem with old | new
    · exact h.current r' (sub r' old)
    · rwa [List.mem_singleton.1 new]
  · rcases List.mem_append.1 mem with old | new
    · exact h.payload r' (sub r' old)
    · rwa [List.mem_singleton.1 new]
  · rw [next]
    intro corrupt
    cases corrupt
  · rw [next, count]

/-- A log that is reset keeps only the record that is appended, whatever it held. -/
theorem Log.keeps_appended_of_resets {v : Volume} {m : Medium} {log : LogState} (hw : Hardware)
    (writable : v.Writable) (reset : v.resets log) {r : Record} (current : r.integrity = .current)
    (payload : ∃ settings : Settings, r.payload = settings.encode) :
    Log.Keeps (v.next log) (v.content (v.appended hw log r m Record.size)) [r] := by
  have room : ¬v.resets .empty := by
    rintro (corrupt | full)
    · cases corrupt
    · exact absurd full (Nat.not_lt.2 (by rw [LogState.empty, Nat.zero_add]; exact writable.room))
  -- it is the same as an append to the log that the reset leaves
  have erased : Log.Keeps .empty (v.content (v.wiped m v.size)) [] := by
    rw [Volume.content_wiped_size]
    exact Log.Keeps.of_erased v.size
  have appended := erased.appended hw writable current payload
  unfold Volume.appended at appended ⊢
  unfold Volume.next at appended ⊢
  rw [if_neg room] at appended
  simp only [if_neg room] at appended
  simp only [if_pos reset]
  exact appended

end TwinLog
