-- SUMMARY: Logs as the bytes of their records one behind the other, and what is recovered of them.
import TwinLog.Proofs.Log.Decoding

/-! # Frames

A frame is the stored form of a record of any length, whose checksum may be wrong. A log is framed
if it consists of frames one behind the other, with nothing but erased bytes behind them. The
entries of a framed log are its frames (`Log.entries_flatten`), so what is recovered of it can be
read off the frames: the last one that verifies, and where the next one goes. -/

namespace TwinLog.Log

open Volume (erasedBytes)

/-! ## Frames -/

/-- The bytes start with the magic word and declare their own number, as the bytes of a record do. -/
structure Frame (frame : List UInt8) : Prop where
  magic : number frame 0 4 = 0x584E504F
  length : number frame 4 2 = frame.length
  long : 10 ≤ frame.length

/-- The frame is no longer than a record, and ends with the checksum of the bytes before it. -/
def Verifies (frame : List UInt8) : Prop :=
  frame.length ≤ 41 ∧ number frame (frame.length - 2) 2 =
    (Crc16.checksum (frame.take (frame.length - 2))).toNat

instance (frame : List UInt8) : Decidable (Verifies frame) :=
  inferInstanceAs (Decidable (_ ∧ _))

def counter (frame : List UInt8) : Nat :=
  number frame 6 2

/-- The payload of a frame, completed with that of the default settings. -/
def completed (frame : List UInt8) : Settings.Image :=
  .ofListPadded Settings.imageSize ((frame.drop 8).take (frame.length - 10) ++
    Settings.default.encode.toList.drop (frame.length - 10))

def lastFrame? (frames : List (List UInt8)) : Option (List UInt8) :=
  (frames.filter (Verifies ·)).getLast?

namespace Frame

variable {frame : List UInt8} (h : Frame frame)
include h

/-- A frame is read as its record exactly if it verifies. -/
theorem read?_eq :
    Record.read? frame = if Verifies frame then some (Record.ofList frame) else none := by
  let e : Member := ⟨0, frame.length⟩
  have long := h.long
  have stop : e.stop = frame.length := Nat.zero_add _
  have verifies : e.Verifies frame ↔ Verifies frame := by
    unfold Member.Verifies Verifies
    rw [stop, List.drop_zero]
    exact ⟨fun ⟨high, _, checksum⟩ => ⟨high, checksum⟩,
      fun ⟨high, checksum⟩ => ⟨high, Nat.le_refl _, checksum⟩⟩
  have read := @read?_drop frame e h.magic h.length long (by simp only [e]; omega)
  have record := @ofList_drop frame e h.magic h.length long (Nat.le_of_eq stop)
  rw [List.drop_zero] at read record
  rw [read, record, Member.entry]
  simp only [verifies]

/-- The record of a frame that verifies has its fields. -/
theorem decodes (verifies : Verifies frame) : Decodes frame 0 (Record.ofList frame) := by
  have long := h.long
  have length : (Header.ofList (frame.drop 0)).length.toNat = frame.length :=
    (toNat_length_eq (by omega)).trans h.length
  exact decodes_ofList (by omega) (length ▸ verifies.1)
    (by rw [Nat.zero_add]; exact Nat.le_of_eq length)

theorem length_ofList (verifies : Verifies frame) :
    (Record.ofList frame).length.toNat = frame.length :=
  (h.decodes verifies).length.trans h.length

theorem counter_ofList (verifies : Verifies frame) :
    (Record.ofList frame).counter.toNat = counter frame :=
  (h.decodes verifies).counter

theorem payload_ofList (verifies : Verifies frame) :
    (Record.ofList frame).payload = completed frame := by
  have payload := (h.decodes verifies).payload
  rw [h.length_ofList verifies, Nat.zero_add] at payload
  have whole := Bytes.ofListPadded_append (Record.ofList frame).payload []
  rw [List.append_nil, payload] at whole
  exact whole.symm

/-- The payload consists of the bytes of the frame and the last ones of the default image. -/
theorem toList_completed (verifies : Verifies frame) :
    (completed frame).toList = (frame.drop 8).take (frame.length - 10) ++
      Settings.default.encode.toList.drop (frame.length - 10) := by
  have long := h.long
  have high := verifies.1
  have length : ((frame.drop 8).take (frame.length - 10) ++
      Settings.default.encode.toList.drop (frame.length - 10)).length = Settings.imageSize := by
    rw [List.length_append, List.length_take, List.length_drop, List.length_drop,
      Vector.length_toList]
    have size : Settings.imageSize = 31 := rfl
    omega
  rw [completed, Bytes.toList_ofListPadded (Nat.le_of_eq length.symm),
    List.take_of_length_le (Nat.le_of_eq length)]

theorem integrity_ofList (verifies : Verifies frame) :
    (Record.ofList frame).integrity ≠ .invalid :=
  Record.integrity_of_read? (h.read?_eq.trans (if_pos verifies))

/-- A frame that is shorter than a current record is that of a stale one. -/
theorem integrity_eq_stale (verifies : Verifies frame) (old : frame.length < 41) :
    (Record.ofList frame).integrity = .stale :=
  (Record.integrity_eq_stale (h.integrity_ofList verifies)).2 (h.length_ofList verifies ▸ old)

/-- The entry of a frame that starts a log. -/
theorem entries_append (rest : List UInt8) :
    entries (frame ++ rest) =
      (entries rest).map (⟨frame.length, Record.read? frame⟩ :: ·) := by
  have long := h.long
  have header : Header.ofList (frame ++ rest) = Header.ofList frame := by
    have same := Header.ofList_take_append rest (Nat.le_trans (by decide) long)
      (Nat.le_refl frame.length)
    rwa [List.take_length] at same
  have length : (Header.ofList frame).length.toNat = frame.length :=
    (@toNat_length_eq frame 0 (by omega)).trans h.length
  have magic : (Header.ofList frame).magic = Record.magicWord := by
    apply UInt32.toNat_inj.1
    exact (@toNat_magic_eq frame 0 (by omega)).trans h.magic
  have record : Record.read? (frame ++ rest) = Record.read? frame := by
    have same := Record.read?_take_append rest (Nat.le_trans (by decide) long)
      (Nat.le_of_eq length) (Nat.le_refl frame.length)
    rwa [List.take_length] at same
  rw [entries_of_header (by rw [List.length_append]; omega) (by rw [header, magic])
    (by rw [header, length]; exact long), header, length, record, List.drop_left]

end Frame

/-! ## Framed logs -/

/-- The log consists of frames one behind the other, and erased bytes. -/
structure Framed (frames : List (List UInt8)) (bytes : List UInt8) : Prop where
  frame : ∀ frame ∈ frames, Frame frame
  content : bytes = frames.flatten ++ erasedBytes (bytes.length - frames.flatten.length)

def frameEntry (frame : List UInt8) : Entry :=
  ⟨frame.length, Record.read? frame⟩

variable {frames : List (List UInt8)} {bytes : List UInt8}

/-- The entries of a framed log are its frames. -/
theorem entries_flatten (frame : ∀ frame ∈ frames, Frame frame) (n : Nat) :
    entries (frames.flatten ++ erasedBytes n) = some (frames.map frameEntry) := by
  induction frames with
  | nil => exact entries_erasedBytes n
  | cons first rest ih =>
    rw [List.flatten_cons, List.append_assoc, (frame first List.mem_cons_self).entries_append,
      ih fun f mem => frame f (List.mem_cons_of_mem _ mem)]
    rfl

theorem extent_map_frameEntry (frames : List (List UInt8)) :
    extent (frames.map frameEntry) = frames.flatten.length := by
  induction frames with
  | nil => rfl
  | cons first rest ih =>
    rw [List.flatten_cons, List.length_append, ← ih]
    rfl

/-- The last record of a framed log is that of the last frame that verifies. -/
theorem latest_map_frameEntry (frame : ∀ frame ∈ frames, Frame frame) :
    latest (frames.map frameEntry) = (lastFrame? frames).map Record.ofList := by
  have records : (frames.map frameEntry).filterMap Entry.record? =
      (frames.filter (Verifies ·)).map Record.ofList := by
    induction frames with
    | nil => rfl
    | cons first rest ih =>
      have read : (frameEntry first).record? = _ := (frame first List.mem_cons_self).read?_eq
      have later := ih fun f mem => frame f (List.mem_cons_of_mem _ mem)
      by_cases verifies : Verifies first
      · rw [if_pos verifies] at read
        rw [List.map_cons, List.filterMap_cons_some read, later,
          List.filter_cons_of_pos (by simpa using verifies), List.map_cons]
      · rw [if_neg verifies] at read
        rw [List.map_cons, List.filterMap_cons_none read, later,
          List.filter_cons_of_neg (by simpa using verifies)]
  rw [latest, records, List.getLast?_map, lastFrame?]

namespace Framed

variable (h : Framed frames bytes)
include h

theorem entries_eq : entries bytes = some (frames.map frameEntry) := by
  rw [h.content]
  exact entries_flatten h.frame _

theorem latest?_eq : latest? bytes = (lastFrame? frames).map Record.ofList := by
  rw [latest?, h.entries_eq]
  exact latest_map_frameEntry h.frame

/-- Behind its frames, the log is erased. -/
theorem tidy : Tidy bytes := by
  intro es found
  rw [h.entries_eq] at found
  cases found
  rw [extent_map_frameEntry]
  exact (congrArg (List.drop frames.flatten.length) h.content).trans (List.drop_left ..)

/-- What is recovered of a framed log. -/
theorem state_recovered (present : bytes ≠ []) :
    (recovered bytes).state =
      if frames = [] then .empty
      else ⟨if lastFrame? frames = none then .corrupt else .clean, frames.flatten.length⟩ := by
  unfold recovered
  rw [if_neg present, h.entries_eq]
  simp only [List.map_eq_nil_iff]
  split
  · rfl
  · rw [outcome, latest_map_frameEntry h.frame, extent_map_frameEntry]
    cases lastFrame? frames <;> rfl

/-- Where a framed log ends. -/
theorem freeOffset_recovered (present : bytes ≠ []) :
    (recovered bytes).state.freeOffset = frames.flatten.length := by
  rw [h.state_recovered present]
  split
  · rename_i none
    rw [none]
    rfl
  · rfl

/-- A framed log is in doubt if none of its frames verifies. -/
theorem status_recovered (present : bytes ≠ []) :
    (recovered bytes).state.status = .corrupt ↔ frames ≠ [] ∧ lastFrame? frames = none := by
  rw [h.state_recovered present]
  by_cases unused : frames = []
  · rw [if_pos unused]
    exact iff_of_false nofun fun ⟨used, _⟩ => used unused
  · rw [if_neg unused]
    by_cases damaged : lastFrame? frames = none
    · rw [if_pos damaged]
      exact iff_of_true rfl ⟨unused, damaged⟩
    · rw [if_neg damaged]
      exact iff_of_false nofun fun ⟨_, all⟩ => damaged all

end Framed

/-- A frame that is the last one to verify is one of the frames, and verifies. -/
theorem mem_of_lastFrame? {frame : List UInt8} (last : lastFrame? frames = some frame) :
    frame ∈ frames ∧ Verifies frame := by
  have mem := List.mem_filter.1 (List.mem_of_getLast? last)
  exact ⟨mem.1, of_decide_eq_true mem.2⟩

theorem lastFrame?_eq_none : lastFrame? frames = none ↔ ¬∃ frame ∈ frames, Verifies frame := by
  rw [lastFrame?, List.getLast?_eq_none_iff, List.filter_eq_nil_iff]
  simp

/-! ## Room -/

/-- A record goes behind the frames of a log of this size: they are not all damaged, and there is
room for it. -/
def HasRoom (frames : List (List UInt8)) (size : Nat) : Prop :=
  (frames = [] ∨ ∃ frame ∈ frames, Verifies frame) ∧ frames.flatten.length + 41 ≤ size

instance (frames : List (List UInt8)) (size : Nat) : Decidable (HasRoom frames size) :=
  inferInstanceAs (Decidable (_ ∧ _))

namespace Framed

variable {v : Volume} {m : Medium} (h : Framed frames (v.content m)) (present : v.content m ≠ [])
include h present

/-- A framed log is reset where it has no room. -/
theorem resets_iff : v.resets (recovered (v.content m)).state ↔ ¬HasRoom frames v.size := by
  unfold Volume.resets HasRoom
  rw [h.status_recovered present, h.freeOffset_recovered present, lastFrame?_eq_none, ← not_or,
    Record.size_eq, ← Nat.not_le, ← not_and_or]

/-- A record goes behind the frames, or to the start of a log that is reset. -/
theorem place_eq : v.place (recovered (v.content m)).state =
    if HasRoom frames v.size then frames.flatten.length else 0 := by
  unfold Volume.place
  rw [h.freeOffset_recovered present]
  simp only [h.resets_iff present, ite_not]

end Framed

end TwinLog.Log
