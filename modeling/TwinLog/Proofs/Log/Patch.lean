-- SUMMARY: Logs whose reset was interrupted, and what records that are appended to them meet.
import TwinLog.Proofs.Log.Blend

/-! # Logs that were reset in part

A reset that is interrupted leaves erased bytes in front of old records. If at least the magic word
of the first one is erased, the log passes for an empty one, and new records are appended over the
old ones. `Log.Patched` says what is known of such a log between two appends, and `Log.Topped`
what is known of it right after one. What is recovered depends on what the header behind the new
records has become (`Log.Topped.latest?_agrees_iff`). -/

namespace TwinLog

/-- The same generation with the same settings. -/
def Record.Agrees (r r' : Record) : Prop :=
  r.counter = r'.counter ∧ r.settings = r'.settings

theorem Record.Agrees.not_lt {r r' : Record} (h : r.Agrees r') :
    ¬r.counter.toNat < r'.counter.toNat := by
  rw [h.1]
  exact Nat.lt_irrefl _

namespace Log

open Volume (erasedBytes erasedWord)

/-! ## What an interrupted reset leaves -/

/-- The log after its first `n` bytes are reset. -/
def interrupted (before : List UInt8) (n : Nat) : List UInt8 :=
  erasedBytes n ++ before.drop n

/-- A log that starts with an erased word has no entry. -/
theorem entries_erased_append {n : Nat} (word : 4 ≤ n) (tail : List UInt8) :
    entries (erasedBytes n ++ tail) = some [] := by
  apply entries_of_blank
  by_cases short : (erasedBytes n ++ tail).length < 6
  · exact .inl short
  · refine .inr ?_
    have front : ((erasedBytes n ++ tail).take 6).take 4 = erasedBytes 4 := by
      rw [List.take_take, Nat.min_eq_left (by decide),
        List.take_append_of_le_length (by rwa [length_erasedBytes]), take_erasedBytes,
        Nat.min_eq_left word]
    rw [Header.magic_ofList (Nat.le_of_not_lt short), front]
    rfl

/-- A log whose first record has lost a part of its magic word is unreadable. -/
theorem entries_half_erased {r : Record} (current : r.integrity = .current) {n : Nat}
    (pos : 0 < n) (part : n < 4) (tail : List UInt8) :
    entries (erasedBytes n ++ (r.encode.toList ++ tail).drop n) = none := by
  have parts : ∀ n < 4, 0 < n →
      let magic := Bytes.listToNat (erasedBytes n ++ (Record.preamble.take 4).drop n)
      magic.toUInt32 ≠ Record.magicWord ∧ magic.toUInt32 ≠ erasedWord := by
    decide
  have length : r.encode.toList.length = 41 := r.length_toList_encode
  have long : 6 ≤ (erasedBytes n ++ (r.encode.toList ++ tail).drop n).length := by
    rw [List.length_append, length_erasedBytes, List.length_drop, List.length_append]
    omega
  -- the first word begins with erased bytes and ends as the magic word does
  have word : ((erasedBytes n ++ (r.encode.toList ++ tail).drop n).take 6).take 4 =
      erasedBytes n ++ (Record.preamble.take 4).drop n := by
    rw [← Record.take_encode current, List.take_take, List.take_take]
    show List.take 4 _ = _ ++ List.drop n (List.take 4 _)
    rw [List.take_append, length_erasedBytes, List.drop_take,
      List.take_of_length_le (by rw [length_erasedBytes]; omega), List.drop_append_of_le_length
      (by omega), List.take_append_of_le_length (by rw [List.length_drop]; omega)]
  obtain ⟨magic, erased⟩ := parts n part pos
  rw [← word, ← Header.magic_ofList long] at magic erased
  exact entries_of_garbage long erased (.inl magic)

section Interrupted

variable {before : List UInt8} {log : LogState} {old : List Record} {n : Nat}

theorem length_interrupted (inside : n ≤ before.length) :
    (interrupted before n).length = before.length := by
  rw [interrupted, List.length_append, length_erasedBytes, List.length_drop]
  omega

theorem getD_interrupted (p : Nat) :
    (interrupted before n).getD p 0 = if p < n then 0xFF else before.getD p 0 := by
  rw [interrupted, List.getD_eq_getElem?_getD]
  by_cases reset : p < n
  · have front : p < (erasedBytes n).length := by rwa [length_erasedBytes]
    rw [if_pos reset, List.getElem?_append_left front, List.getElem?_eq_getElem front]
    simp [erasedBytes]
  · have front : (erasedBytes n).length ≤ p := by
      rw [length_erasedBytes]
      exact Nat.le_of_not_lt reset
    rw [if_neg reset, List.getElem?_append_right front, length_erasedBytes, List.getElem?_drop,
      Nat.add_sub_cancel' (Nat.le_of_not_lt reset), ← List.getD_eq_getElem?_getD]

/-- Behind the bytes that are reset, the log is as before. -/
theorem drop_interrupted_of_le {k : Nat} (h : n ≤ k) :
    (interrupted before n).drop k = before.drop k := by
  rw [interrupted, List.drop_append, length_erasedBytes, drop_erasedBytes,
    Nat.sub_eq_zero_of_le h, List.drop_drop, Nat.add_sub_cancel' h]
  rfl

theorem drop_interrupted_of_ge {k : Nat} (h : k ≤ n) :
    (interrupted before n).drop k = erasedBytes (n - k) ++ before.drop n := by
  rw [interrupted, List.drop_append_of_le_length (by rwa [length_erasedBytes]), drop_erasedBytes]

variable (keeps : Keeps log before old)
include keeps

/-- What follows the place of a record reads as erased, as the old records, or as garbage. -/
theorem entries_drop_interrupted {j : Nat} (h : j ≤ old.length) :
    entries ((interrupted before n).drop (Record.size * j)) =
      if j = old.length ∨ Record.size * j + 4 ≤ n then some []
      else if n ≤ Record.size * j then some (entriesOf (old.drop j))
      else none := by
  have split : Record.size * j ≤ n →
      before.drop n = (before.drop (Record.size * j)).drop (n - Record.size * j) := by
    intro le
    rw [List.drop_drop, Nat.add_sub_cancel' le]
  by_cases last : j = old.length
  · -- behind the old records the log was erased before
    have erased := keeps.drop_eq h
    rw [List.drop_of_length_le (Nat.le_of_eq last.symm)] at erased
    rw [if_pos (.inl last)]
    by_cases le : n ≤ Record.size * j
    · rw [drop_interrupted_of_le le, erased]
      exact entries_erasedBytes _
    · have ge := Nat.le_of_not_le le
      rw [drop_interrupted_of_ge ge, split ge, erased]
      show entries (_ ++ (erasedBytes _).drop _) = _
      rw [drop_erasedBytes, erasedBytes_append]
      exact entries_erasedBytes _
  have more : j < old.length := Nat.lt_of_le_of_ne h last
  by_cases word : Record.size * j + 4 ≤ n
  · rw [if_pos (.inr word), drop_interrupted_of_ge (Nat.le_trans (Nat.le_add_right _ _) word)]
    exact entries_erased_append (by omega) _
  rw [if_neg (not_or.2 ⟨last, word⟩)]
  by_cases le : n ≤ Record.size * j
  · rw [if_pos le, drop_interrupted_of_le le, keeps.drop_eq h,
      entries_image fun r mem => keeps.current r (List.mem_of_mem_drop mem), entries_erasedBytes]
    simp
  · have ge := Nat.le_of_not_le le
    rw [if_neg le, drop_interrupted_of_ge ge, split ge, keeps.drop_eq_encode more]
    exact entries_half_erased (keeps.current _ (List.getElem_mem more)) (by omega) (by omega) _

end Interrupted

/-! ## Appending over old records -/


/-- All records of the entries have smaller counters. -/
def Below (bound : Nat) (es : List Entry) : Prop :=
  ∀ e ∈ es, ∀ r, e.record? = some r → r.counter.toNat < bound

theorem Below.mono {bound bound' : Nat} {es : List Entry} (h : Below bound es)
    (le : bound ≤ bound') : Below bound' es :=
  fun e mem r found => Nat.lt_of_lt_of_le (h e mem r found) le

theorem Below.append {bound : Nat} {es es' : List Entry} (h : Below bound es)
    (h' : Below bound es') : Below bound (es ++ es') := by
  intro e mem
  rcases List.mem_append.1 mem with mem | mem
  · exact h e mem
  · exact h' e mem

theorem Below.latest {bound : Nat} {es : List Entry} (h : Below bound es) {r : Record}
    (found : latest es = some r) : r.counter.toNat < bound := by
  obtain ⟨e, mem, record⟩ := List.mem_filterMap.1 (List.mem_of_getLast? found)
  exact h e mem r record

variable {before : List UInt8} {log : LogState} {old : List Record} {n bound j : Nat}
  {bytes : List UInt8} {r : Record}

/-- A log with `j` new records over the old ones. What is read there has smaller counters, and the
rest is as the interrupted reset has left it. -/
structure Patched (before : List UInt8) (n bound j : Nat) (bytes : List UInt8) : Prop where
  length : bytes.length = before.length
  rest : bytes.drop (Record.size * j) = (interrupted before n).drop (Record.size * j)
  parsed : ∃ es, Parses (bytes.take (Record.size * j)) es ∧ Below bound es

/-- Such a log after one more record was written over an old one. -/
structure Topped (before : List UInt8) (old : List Record) (n bound j : Nat) (r : Record)
    (bytes : List UInt8) : Prop where
  length : bytes.length = before.length
  rest : bytes.drop (Record.size * (j + 1)) = (interrupted before n).drop (Record.size * (j + 1))
  parsed : ∃ es, Parses (bytes.take (Record.size * j)) es ∧ Below bound es
  blend : ∃ o ∈ old, Record.Blends o r ((bytes.drop (Record.size * j)).take Record.size)
  intact : Record.size * (j + 1) ≤ n →
    (bytes.drop (Record.size * j)).take Record.size = r.encode.toList

/-- An interrupted reset leaves no new record. -/
theorem patched_interrupted (inside : n ≤ before.length) :
    Patched before n bound 0 (interrupted before n) where
  length := length_interrupted inside
  rest := rfl
  parsed := ⟨[], by rw [Nat.mul_zero, List.take_zero]; exact Parses.nil, nofun⟩

/-- The entries from the place of a record on have the last record of the old ones, if any. -/
theorem latest_drop_interrupted (keeps : Keeps log before old) (count : j ≤ old.length)
    {es : List Entry} (found : entries ((interrupted before n).drop (Record.size * j)) = some es) :
    latest es = if j = old.length ∨ Record.size * j + 4 ≤ n then none else old.getLast? := by
  rw [entries_drop_interrupted keeps count] at found
  by_cases blank : j = old.length ∨ Record.size * j + 4 ≤ n
  · rw [if_pos blank] at found ⊢
    cases found
    rfl
  · rw [if_neg blank] at found ⊢
    rw [not_or] at blank
    split at found
    · cases found
      rw [latest_entriesOf, List.getLast?_drop, if_neg (by omega)]
    · cases found

/-- The last record that is read has a smaller counter if the last old one has. -/
theorem Patched.latest?_lt (h : Patched before n bound j bytes) (keeps : Keeps log before old)
    (count : j ≤ old.length) (below : ∀ o, old.getLast? = some o → o.counter.toNat < bound)
    {r : Record} (found : latest? bytes = some r) : r.counter.toNat < bound := by
  obtain ⟨es, parses, below'⟩ := h.parsed
  have split := parses (bytes.drop (Record.size * j))
  rw [List.take_append_drop, h.rest] at split
  rw [latest?, split] at found
  cases rest : entries ((interrupted before n).drop (Record.size * j)) with
  | none =>
    rw [rest] at found
    cases found
  | some es' =>
    rw [rest, Option.map_some, Option.bind_some, latest_append,
      latest_drop_interrupted keeps count rest] at found
    rcases Option.or_eq_some_iff.1 found with found | ⟨-, found⟩
    · split at found
      · cases found
      · exact below r found
    · exact below'.latest found

/-! ## The record on top -/

namespace Topped

variable (h : Topped before old n bound j r bytes) (keeps : Keeps log before old)
  (current : r.integrity = .current)
include h keeps current

/-- The entries up to the new record, and those behind it. -/
theorem entries_eq : ∃ es, Below bound es ∧
    Parses (bytes.take (Record.size * (j + 1))) (es ++ [⟨Record.size,
      Record.read? ((bytes.drop (Record.size * j)).take Record.size)⟩]) ∧
    entries bytes = (entries ((interrupted before n).drop (Record.size * (j + 1)))).map
      ((es ++ [⟨Record.size,
        Record.read? ((bytes.drop (Record.size * j)).take Record.size)⟩]) ++ ·) := by
  obtain ⟨es, parses, below⟩ := h.parsed
  obtain ⟨o, mem, blend⟩ := h.blend
  have front : bytes.take (Record.size * (j + 1)) =
      bytes.take (Record.size * j) ++ (bytes.drop (Record.size * j)).take Record.size := by
    rw [Nat.mul_succ, List.take_add]
  have parses' := parses.append (blend.parses (keeps.current o mem) current)
  rw [← front] at parses'
  have split := parses' (bytes.drop (Record.size * (j + 1)))
  rw [List.take_append_drop, h.rest] at split
  exact ⟨es, below, parses', split⟩

/-- The new record is counted with those before it. -/
theorem patched {bound' : Nat} (le : bound ≤ bound') (counter : r.counter.toNat < bound') :
    Patched before n bound' (j + 1) bytes := by
  obtain ⟨es, below, parses, -⟩ := h.entries_eq keeps current
  obtain ⟨o, mem, blend⟩ := h.blend
  refine ⟨h.length, h.rest, _, parses, (below.mono le).append ?_⟩
  intro e mem r' found
  rw [List.mem_singleton.1 mem] at found
  exact Nat.lt_of_le_of_lt (blend.counter_le found) counter

/-- The new record is read last if the place behind it starts with an erased word. At the end of
the log it is read last if it is intact, or as good as that. -/
theorem latest?_agrees_iff (count : j < old.length) (newer : bound ≤ r.counter.toNat)
    (below : ∀ o, old.getLast? = some o → o.counter.toNat < r.counter.toNat) :
    (∃ r', latest? bytes = some r' ∧ r'.Agrees r) ↔
      (j + 1 < old.length ∧ Record.size * (j + 1) + 4 ≤ n) ∨
        (j + 1 = old.length ∧ ∃ r', Record.read?
          ((bytes.drop (Record.size * j)).take Record.size) = some r' ∧ r'.Agrees r) := by
  obtain ⟨es, below', -, split⟩ := h.entries_eq keeps current
  have whole : Record.size * (j + 1) + 4 ≤ n →
      Record.read? ((bytes.drop (Record.size * j)).take Record.size) = some r := by
    intro word
    have read := Record.read?_encode current []
    rw [List.append_nil] at read
    rw [h.intact (Nat.le_trans (Nat.le_add_right _ _) word), read]
  generalize Record.read? ((bytes.drop (Record.size * j)).take Record.size) = top at split whole ⊢
  cases rest : entries ((interrupted before n).drop (Record.size * (j + 1))) with
  | none =>
    -- the header behind the new record is damaged, and nothing is read
    have blank : ¬(j + 1 = old.length ∨ Record.size * (j + 1) + 4 ≤ n) := by
      intro blank
      rw [entries_drop_interrupted keeps count, if_pos blank] at rest
      cases rest
    rw [latest?, split, rest]
    refine iff_of_false ?_ ?_
    · rintro ⟨r', found, -⟩
      cases found
    · rintro (⟨-, word⟩ | ⟨last, -⟩)
      · exact blank (.inr word)
      · exact blank (.inl last)
  | some es' =>
    have behind := latest_drop_interrupted keeps count rest
    -- what is read last comes from behind the new record, from the record itself or from before it,
    -- in this order
    rw [latest?, split, rest, Option.map_some, Option.bind_some, latest_append, behind,
      latest_append_singleton]
    by_cases blank : j + 1 = old.length ∨ Record.size * (j + 1) + 4 ≤ n
    · rw [if_pos blank, Option.none_or]
      cases top with
      | none =>
        -- only records before the new one can be read
        refine iff_of_false ?_ ?_
        · rintro ⟨r', found, agrees⟩
          exact agrees.not_lt (Nat.lt_of_lt_of_le (below'.latest found) newer)
        · rintro (⟨-, word⟩ | ⟨-, r', found, -⟩)
          · cases whole word
          · cases found
      | some t =>
        constructor
        · rintro ⟨r', found, agrees⟩
          cases found
          -- before the end of the log, only an erased word can let the new record be the last one
          by_cases last : j + 1 = old.length
          · exact .inr ⟨last, t, rfl, agrees⟩
          · exact .inl ⟨Nat.lt_of_le_of_ne count last, blank.resolve_left last⟩
        · rintro (⟨-, word⟩ | ⟨-, r', found, agrees⟩)
          · cases whole word
            exact ⟨r, rfl, rfl, rfl⟩
          · cases found
            exact ⟨t, rfl, agrees⟩
    · -- the header behind the new record is that of an old one, and the old ones are read
      rw [if_neg blank]
      rw [not_or] at blank
      have nonempty : old ≠ [] := List.ne_nil_of_length_pos (Nat.lt_of_le_of_lt (Nat.zero_le j) count)
      rw [List.getLast?_eq_some_getLast nonempty, Option.some_or]
      refine iff_of_false ?_ ?_
      · rintro ⟨r', found, agrees⟩
        cases found
        exact agrees.not_lt (below _ (List.getLast?_eq_some_getLast nonempty))
      · rintro (⟨-, word⟩ | ⟨last, -⟩)
        · exact blank.2 word
        · exact blank.1 last

/-- Whatever is read last has a smaller counter or one of the same side that is not greater. -/
theorem latest?_cases (count : j < old.length)
    (below : ∀ o, old.getLast? = some o → o.counter.toNat < bound)
    (sides : ∀ o ∈ old, Side.ofCounter o.counter = Side.ofCounter r.counter) {r' : Record}
    (found : latest? bytes = some r') :
    r'.counter.toNat < bound ∨ (r'.counter.toNat ≤ r.counter.toNat ∧
      Side.ofCounter r'.counter = Side.ofCounter r.counter) := by
  obtain ⟨es, below', -, split⟩ := h.entries_eq keeps current
  obtain ⟨o, mem, blend⟩ := h.blend
  cases rest : entries ((interrupted before n).drop (Record.size * (j + 1))) with
  | none =>
    rw [latest?, split, rest] at found
    cases found
  | some es' =>
    rw [latest?, split, rest, Option.map_some, Option.bind_some, latest_append,
      latest_append_singleton, latest_drop_interrupted keeps count rest] at found
    -- from behind the new record come old ones only, which have smaller counters
    rcases Option.or_eq_some_iff.1 found with found | ⟨-, found⟩
    · split at found
      · cases found
      · exact .inl (below r' found)
    · rcases Option.or_eq_some_iff.1 found with found | ⟨-, found⟩
      · exact .inr ⟨blend.counter_le found, blend.side_eq found (sides o mem)⟩
      · exact .inl (below'.latest found)

end Topped

/-! ## Writing over old records -/

/-- Writing a record over an old one. -/
theorem Patched.append (h : Patched before n bound j bytes) (keeps : Keeps log before old)
    (count : j < old.length) (mode : Sim.Programming) (r : Record) :
    Topped before old n bound j r (overlay mode bytes (Record.size * j) r.encode.toList) := by
  have inside := keeps.inside
  have length := r.length_toList_encode
  have whole : Record.size * (j + 1) ≤ Record.size * old.length := Nat.mul_le_mul_left _ count
  rw [Nat.mul_succ] at whole
  have room : Record.size * j + r.encode.toList.length ≤ bytes.length := by
    rw [length, h.length]
    exact Nat.le_trans whole inside
  -- the bytes that the record meets are erased or those of an old record
  have met : ∀ p < Record.size, bytes.getD (Record.size * j + p) 0 =
      if Record.size * j + p < n then 0xFF else old[j].encode.toList.getD p 0 := by
    intro p hp
    have front : before.getD (Record.size * j + p) 0 = old[j].encode.toList.getD p 0 := by
      rw [← getD_drop, keeps.drop_eq_encode count,
        List.getD_append _ _ _ _ (by rwa [Record.length_toList_encode])]
    rw [← getD_drop, h.rest, getD_drop, getD_interrupted, front]
  have slot : ∀ p < Record.size,
      (((overlay mode bytes (Record.size * j) r.encode.toList).drop (Record.size * j)).take
        Record.size).getD p 0 = mode.apply (if Record.size * j + p < n then 0xFF
          else old[j].encode.toList.getD p 0) (r.encode.toList.getD p 0) := by
    intro p hp
    rw [getD_take hp, getD_drop, getD_overlay room (by rwa [length]), met p hp]
  have size : (((overlay mode bytes (Record.size * j) r.encode.toList).drop
      (Record.size * j)).take Record.size).length = Record.size := by
    rw [length] at room
    rw [List.length_take, List.length_drop, length_overlay]
    omega
  refine { length := by rw [length_overlay, h.length], rest := ?_, parsed := ?_, blend := ?_,
           intact := fun erased => ?_ }
  · rw [drop_overlay (by rw [length, Nat.mul_succ]), Nat.mul_succ, ← List.drop_drop, h.rest,
      List.drop_drop]
  · rw [take_overlay (Nat.le_refl _)]
    exact h.parsed
  · refine ⟨old[j], List.getElem_mem count, size, fun p hp => ?_⟩
    rw [slot p hp]
    -- where bits can only be cleared, a byte that is not erased keeps what the old record cleared
    cases mode with
    | overwrite => exact .inl rfl
    | clearBits =>
      by_cases reset : Record.size * j + p < n
      · rw [if_pos reset]
        exact .inl (Sim.Programming.apply_erased .clearBits _)
      · rw [if_neg reset]
        exact .inr rfl
  · refine eq_of_getD (by rw [size, length]) fun p hp => ?_
    rw [size] at hp
    have reset : Record.size * j + p < n := by
      rw [Nat.mul_succ] at erased
      omega
    rw [slot p hp, if_pos reset, Sim.Programming.apply_erased]

end Log

end TwinLog
