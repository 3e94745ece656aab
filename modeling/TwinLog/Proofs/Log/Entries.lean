-- SUMMARY: Logs as lists of entries, and what appending a record or a torn record does to them.
import TwinLog.Log.Recover
import TwinLog.Proofs.Record

/-! # Logs as lists of entries

`Log.entries` splits the bytes of a log at its record headers. An entry whose record cannot be
read still takes its place. Main statements: a log is extended at its end (`Log.entries_append`),
a record that is appended is the new last entry, and a torn record leaves the log as it was, adds
an entry without record, or makes the log unreadable (`Log.entries_torn`). -/

namespace TwinLog.Log

open Record (peekSize minSize magicWord)
open Volume (erasedBytes erasedWord)

/-! ## Entries -/

/-- What a log holds from one header to the next. -/
structure Entry where
  length : Nat
  /-- The record, unless it is invalid or runs past the end of the log. -/
  record? : Option Record
deriving DecidableEq

/-- The entries of a log up to erased bytes or the end, none if something else comes first. -/
def entries (bytes : List UInt8) : Option (List Entry) :=
  if bytes.length < peekSize ∨ (Header.ofList bytes).magic = erasedWord then some []
  else if (Header.ofList bytes).magic ≠ magicWord ∨
      (Header.ofList bytes).length.toNat < minSize then none
  else (entries (bytes.drop (Header.ofList bytes).length.toNat)).map
    (⟨(Header.ofList bytes).length.toNat, Record.read? bytes⟩ :: ·)
termination_by bytes.length
decreasing_by
  rename_i present whole
  simp only [not_or, Nat.not_lt, peekSize, minSize, Record.headerSize, Record.crcSize] at present whole
  rw [List.length_drop]
  omega

/-- The number of bytes that the entries take. -/
def extent : List Entry → Nat
  | [] => 0
  | e :: es => e.length + extent es

def latest (es : List Entry) : Option Record :=
  (es.filterMap Entry.record?).getLast?

/-- What recovery makes of entries in a log that ends at `logEnd`. -/
def outcome (logEnd : Nat) (es : List Entry) : Recovered :=
  match latest es with
  | none => .corrupt logEnd
  | some r => .clean logEnd r

/-- What recovery makes of the bytes of a log. -/
def recovered (bytes : List UInt8) : Recovered :=
  if bytes = [] then .corrupt 0
  else
    match entries bytes with
    | none => .corrupt 0
    | some es => if es = [] then .empty else outcome (extent es) es

@[simp] theorem extent_nil : extent [] = 0 := rfl

@[simp] theorem extent_append (es es' : List Entry) :
    extent (es ++ es') = extent es + extent es' := by
  induction es with
  | nil => simp [extent]
  | cons e es ih => simp [extent, ih, Nat.add_assoc]

theorem extent_append_singleton (es : List Entry) (e : Entry) :
    extent (es ++ [e]) = extent es + e.length := by
  rw [extent_append]
  rfl

@[simp] theorem latest_nil : latest [] = none := rfl

theorem latest_append (es es' : List Entry) :
    latest (es ++ es') = (latest es').or (latest es) := by
  rw [latest, List.filterMap_append, List.getLast?_append]
  rfl

@[simp] theorem latest_append_singleton (es : List Entry) (e : Entry) :
    latest (es ++ [e]) = e.record?.or (latest es) := by
  rw [latest_append]
  rcases e with ⟨length, _ | r⟩ <;> rfl

/-! ## The first entry -/

section Head

variable {bytes : List UInt8}

/-- A log that ends or is erased has no entry. -/
theorem entries_of_blank (h : bytes.length < 6 ∨ (Header.ofList bytes).magic = erasedWord) :
    entries bytes = some [] := by
  rw [entries, if_pos h]

/-- Something that is neither erased nor a header makes a log unreadable. -/
theorem entries_of_garbage (long : 6 ≤ bytes.length)
    (erased : (Header.ofList bytes).magic ≠ erasedWord)
    (other : (Header.ofList bytes).magic ≠ magicWord ∨ (Header.ofList bytes).length.toNat < 10) :
    entries bytes = none := by
  have present : ¬(bytes.length < peekSize ∨ (Header.ofList bytes).magic = erasedWord) := by
    rintro (short | magic)
    · exact absurd short (Nat.not_lt.2 long)
    · exact erased magic
  rw [entries, if_neg present]
  exact if_pos other

/-- A header starts an entry. -/
theorem entries_of_header (long : 6 ≤ bytes.length)
    (magic : (Header.ofList bytes).magic = magicWord)
    (length : 10 ≤ (Header.ofList bytes).length.toNat) :
    entries bytes = (entries (bytes.drop (Header.ofList bytes).length.toNat)).map
      (⟨(Header.ofList bytes).length.toNat, Record.read? bytes⟩ :: ·) := by
  have present : ¬(bytes.length < peekSize ∨ (Header.ofList bytes).magic = erasedWord) := by
    rintro (short | erased)
    · exact absurd short (Nat.not_lt.2 long)
    · exact absurd (magic.symm.trans erased) (by decide)
  have whole : ¬((Header.ofList bytes).magic ≠ magicWord ∨
      (Header.ofList bytes).length.toNat < minSize) := by
    rintro (other | short)
    · exact other magic
    · exact absurd short (Nat.not_lt.2 length)
  rw [entries, if_neg present, if_neg whole]

/-- The cases of `entries`, for proofs about the entries of a log. -/
theorem entries_cases {motive : List UInt8 → Prop} (bytes : List UInt8)
    (blank : ∀ bytes, bytes.length < 6 ∨ (Header.ofList bytes).magic = erasedWord → motive bytes)
    (garbage : ∀ bytes, 6 ≤ bytes.length → (Header.ofList bytes).magic ≠ erasedWord →
      ((Header.ofList bytes).magic ≠ magicWord ∨ (Header.ofList bytes).length.toNat < 10) →
      motive bytes)
    (header : ∀ bytes, 6 ≤ bytes.length → (Header.ofList bytes).magic = magicWord →
      10 ≤ (Header.ofList bytes).length.toNat →
      motive (bytes.drop (Header.ofList bytes).length.toNat) → motive bytes) : motive bytes := by
  induction bytes using entries.induct with
  | case1 bytes h => exact blank bytes h
  | case2 bytes present other =>
    exact garbage bytes (Nat.le_of_not_lt fun h => present (.inl h)) (fun h => present (.inr h)) other
  | case3 bytes present whole ih =>
    refine header bytes (Nat.le_of_not_lt fun h => present (.inl h)) ?_ ?_ ih
    · exact Decidable.not_not.1 fun h => whole (.inl h)
    · exact Nat.le_of_not_lt fun h => whole (.inr h)

end Head

/-! ## Extending a log -/

/-- Bytes behind the entries of a log continue it. -/
theorem entries_append {bytes : List UInt8} {es : List Entry} (h : entries bytes = some es)
    (inside : extent es ≤ bytes.length) (tail : List UInt8) :
    entries (bytes.take (extent es) ++ tail) = (entries tail).map (es ++ ·) := by
  induction bytes using entries_cases generalizing es with
  | blank bytes blank =>
    rw [entries_of_blank blank] at h
    cases h
    simp
  | garbage bytes long erased other =>
    rw [entries_of_garbage long erased other] at h
    cases h
  | header bytes long magic length ih =>
    rw [entries_of_header long magic length] at h
    obtain ⟨rest, found, rfl⟩ := Option.map_eq_some_iff.1 h
    have total : extent (⟨(Header.ofList bytes).length.toNat, Record.read? bytes⟩ :: rest) =
        (Header.ofList bytes).length.toNat + extent rest := rfl
    rw [total] at inside ⊢
    generalize heq : (Header.ofList bytes).length.toNat = n at *
    have header := Header.ofList_take_append tail (by omega : 8 ≤ n + extent rest) inside
    have record := Record.read?_take_append tail (by omega : 8 ≤ n + extent rest)
      (by omega) inside
    have behind : (bytes.take (n + extent rest) ++ tail).drop n =
        (bytes.drop n).take (extent rest) ++ tail := by
      rw [List.drop_append_of_le_length (by simp; omega), List.drop_take, Nat.add_sub_cancel_left]
    rw [entries_of_header (by simp; omega) (by rw [header, magic]) (by rw [header, heq]; exact length),
      header, record, heq, behind, ih found (by simp; omega), Option.map_map]
    rfl

/-- Erased bytes are an empty log. -/
@[simp] theorem entries_erasedBytes (n : Nat) : entries (erasedBytes n) = some [] := by
  apply entries_of_blank
  by_cases short : n < 6
  · exact .inl (by simpa using short)
  · refine .inr ?_
    rw [Header.magic_ofList (by simp; omega), take_erasedBytes, Nat.min_eq_left (by omega)]
    rfl

/-- A record in the current format is the first entry of a log that starts with it. -/
theorem entries_encode {r : Record} (h : r.integrity = .current) (tail : List UInt8) :
    entries (r.encode.toList ++ tail) =
      (entries tail).map (⟨Record.size, some r⟩ :: ·) := by
  obtain ⟨magic, length, -⟩ := Record.integrity_eq_current.1 h
  have header := Record.headerOfList_encode r tail
  have long : 6 ≤ (r.encode.toList ++ tail).length := by
    rw [List.length_append, Record.length_toList_encode, Record.size_eq]
    omega
  rw [entries_of_header long (by rw [header, magic]) (by rw [header, length]; decide), header,
    length, Record.read?_encode h, List.drop_left' (Record.length_toList_encode r)]

/-- A torn record that is not whole leaves nothing behind, makes the log unreadable, or leaves an
entry without record behind. -/
theorem entries_torn {r : Record} (h : r.integrity = .current) (tears : r.DetectsTears) {t : Nat}
    (part : r.torn t ≠ r.encode.toList) (n : Nat) :
    (t = 0 ∧ entries (r.torn t ++ erasedBytes n) = some []) ∨
      ((0 < t ∧ t < 4) ∧ entries (r.torn t ++ erasedBytes n) = none) ∨
      (4 ≤ t ∧ ∃ length ≥ Record.size,
        entries (r.torn t ++ erasedBytes n) = some [⟨length, none⟩]) := by
  have size := Record.length_torn r t
  have long : 6 ≤ (r.torn t ++ erasedBytes n).length := by
    rw [List.length_append, size, Record.size_eq]
    omega
  by_cases zero : t = 0
  · refine .inl ⟨zero, ?_⟩
    subst zero
    exact (congrArg entries (erasedBytes_append Record.size n)).trans (entries_erasedBytes _)
  by_cases low : 4 ≤ t
  · refine .inr (.inr ⟨low, ?_⟩)
    obtain ⟨magic, length⟩ := Record.header_torn_of_le h low (erasedBytes n)
    have bound : Record.size ≤ (Header.ofList (r.torn t ++ erasedBytes n)).length.toNat := by
      rcases length with ⟨-, length⟩ | ⟨-, length⟩
      · exact Nat.le_of_eq length.symm
      · exact Nat.le_of_lt length
    refine ⟨_, bound, ?_⟩
    rw [entries_of_header long magic (Nat.le_trans (by decide) bound),
      tears.read?_torn h low part]
    rw [List.drop_append, List.drop_of_length_le (by rw [size]; exact bound), List.nil_append,
      drop_erasedBytes, entries_erasedBytes]
    rfl
  · have pos : 0 < t := Nat.pos_of_ne_zero zero
    have high : t < 4 := Nat.lt_of_not_le low
    refine .inr (.inl ⟨⟨pos, high⟩, ?_⟩)
    obtain ⟨magic, erased⟩ := Record.magic_torn_of_lt h pos high (erasedBytes n)
    exact entries_of_garbage long erased (.inl magic)

/-! ## The last record -/

def latest? (bytes : List UInt8) : Option Record :=
  (entries bytes).bind latest

/-- Recovery finds the last valid record. -/
theorem latest?_recovered (bytes : List UInt8) : (recovered bytes).latest? = latest? bytes := by
  unfold recovered latest?
  by_cases empty : bytes = []
  · subst empty
    rw [if_pos rfl, entries_of_blank (.inl (by decide))]
    rfl
  rw [if_neg empty]
  cases entries bytes with
  | none => rfl
  | some es =>
    by_cases nil : es = []
    · subst nil
      rfl
    · simp only [if_neg nil, outcome, Option.bind_some]
      cases latest es <;> rfl

/-- An erased log has no record. -/
theorem latest?_erasedBytes (n : Nat) : latest? (erasedBytes n) = none := by
  rw [latest?, entries_erasedBytes]
  rfl

/-- A log whose first byte is erased has no record. -/
theorem latest?_erased_append {n : Nat} (pos : 0 < n) (tail : List UInt8) :
    latest? (erasedBytes n ++ tail) = none := by
  unfold latest?
  by_cases blank : (erasedBytes n ++ tail).length < 6 ∨
      (Header.ofList (erasedBytes n ++ tail)).magic = erasedWord
  · rw [entries_of_blank blank]
    rfl
  rw [not_or, Nat.not_lt] at blank
  obtain ⟨long, erased⟩ := blank
  have magic : (Header.ofList (erasedBytes n ++ tail)).magic ≠ magicWord := by
    obtain ⟨n, rfl⟩ : ∃ k, n = k + 1 := ⟨n - 1, by omega⟩
    have first : ((erasedBytes (n + 1) ++ tail).take 6).take 4 =
        0xFF :: (erasedBytes n ++ tail).take 3 := by
      rw [List.take_take]
      rfl
    rw [Header.magic_ofList long, first, Bytes.listToNat]
    intro h
    have := congrArg UInt32.toNat h
    simp [Nat.toUInt32, magicWord] at this
    omega
  rw [entries_of_garbage long erased (.inl magic)]
  rfl

/-- The log after a torn record is written behind its entries. -/
def withTorn (bytes : List UInt8) (es : List Entry) (r : Record) (t : Nat) : List UInt8 :=
  bytes.take (extent es) ++
    (r.torn t ++ erasedBytes (bytes.length - (extent es + Record.size)))

section Torn

variable {bytes : List UInt8} {es : List Entry} {r : Record}

/-- A whole record is the new last entry. -/
theorem entries_withTorn_whole (h : entries bytes = some es) (inside : extent es ≤ bytes.length)
    (current : r.integrity = .current) {t : Nat} (whole : r.torn t = r.encode.toList) :
    entries (withTorn bytes es r t) = some (es ++ [⟨Record.size, some r⟩]) := by
  rw [withTorn, entries_append h inside, whole, entries_encode current, entries_erasedBytes]
  rfl

/-- The last record of a log behind which a torn record is written. -/
theorem latest?_withTorn (h : entries bytes = some es) (inside : extent es ≤ bytes.length)
    (current : r.integrity = .current) {t : Nat}
    (tears : r.torn t ≠ r.encode.toList → r.DetectsTears) :
    latest? (withTorn bytes es r t) =
      if r.torn t = r.encode.toList then some r
      else if 0 < t ∧ t < 4 then none else latest es := by
  unfold latest?
  by_cases whole : r.torn t = r.encode.toList
  · rw [entries_withTorn_whole h inside current whole, if_pos whole]
    simp
  rw [withTorn, entries_append h inside, if_neg whole]
  rcases entries_torn current (tears whole) whole (bytes.length - (extent es + Record.size)) with
    ⟨rfl, found⟩ | ⟨low, found⟩ | ⟨high, length, -, found⟩
  · rw [found, if_neg (by omega)]
    simp
  · rw [found, if_pos low]
    rfl
  · rw [found, if_neg (by omega)]
    simp

end Torn

/-! ## Tidy logs -/

/-- Behind its entries the log is erased. -/
def Tidy (bytes : List UInt8) : Prop :=
  ∀ es, entries bytes = some es → bytes.drop (extent es) = erasedBytes (bytes.length - extent es)

theorem tidy_erasedBytes (n : Nat) : Tidy (erasedBytes n) := by
  intro es h
  rw [entries_erasedBytes] at h
  cases h
  simp

section Torn

variable {bytes : List UInt8} {es : List Entry} {r : Record}

@[simp] theorem length_withTorn (room : extent es + Record.size ≤ bytes.length) (t : Nat) :
    (withTorn bytes es r t).length = bytes.length := by
  simp only [withTorn, List.length_append, List.length_take, Record.length_torn,
    length_erasedBytes]
  omega

/-- Behind the place of a record that is torn, the log is erased. -/
theorem drop_withTorn (room : extent es + Record.size ≤ bytes.length) (t : Nat) {n : Nat}
    (h : extent es + Record.size ≤ n) :
    (withTorn bytes es r t).drop n = erasedBytes (bytes.length - n) := by
  have front : (bytes.take (extent es) ++ r.torn t).length = extent es + Record.size := by
    rw [List.length_append, List.length_take, Record.length_torn]
    omega
  rw [withTorn, ← List.append_assoc, List.drop_append, List.drop_of_length_le (by omega),
    List.nil_append, drop_erasedBytes, front]
  congr 1
  omega

/-- A torn record behind the entries leaves the log tidy. -/
theorem tidy_withTorn (h : entries bytes = some es)
    (room : extent es + Record.size ≤ bytes.length) (current : r.integrity = .current) {t : Nat}
    (tears : r.torn t ≠ r.encode.toList → r.DetectsTears) : Tidy (withTorn bytes es r t) := by
  have inside : extent es ≤ bytes.length := by omega
  intro es' found
  rw [length_withTorn room]
  by_cases whole : r.torn t = r.encode.toList
  · rw [entries_withTorn_whole h inside current whole] at found
    cases found
    exact drop_withTorn room t (by rw [extent_append]; exact Nat.le_refl _)
  have found' := found
  rw [withTorn, entries_append h inside] at found'
  rcases entries_torn current (tears whole) whole (bytes.length - (extent es + Record.size)) with
    ⟨rfl, new⟩ | ⟨-, new⟩ | ⟨-, length, bound, new⟩
  · -- nothing is written
    rw [new] at found'
    cases found'
    simp only [List.append_nil]
    rw [withTorn, List.drop_left' (by rw [List.length_take]; omega)]
    show erasedBytes Record.size ++ _ = _
    rw [erasedBytes_append]
    congr 1
    omega
  · rw [new] at found'
    cases found'
  · rw [new] at found'
    cases found'
    refine drop_withTorn room t ?_
    rw [extent_append]
    exact Nat.add_le_add_left bound _

end Torn

end TwinLog.Log
