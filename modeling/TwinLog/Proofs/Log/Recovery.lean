-- SUMMARY: Recovery reads off the entries of a log: the last valid record and the free offset.
import TwinLog.Proofs.Log.Entries

/-! # Recovery of a log

Against any server from which a volume reads back, `Volume.recover` returns what `Log.recovered`
makes of the bytes, whatever they are (`Volume.wp_recover`). -/

namespace TwinLog

open Record (headerSize peekSize minSize crcSize)

/-! ## Parts of a log -/

namespace Log

/-- The first entry of a log is the record at its start. -/
theorem entries_cons {bytes : List UInt8} {e : Entry} {es : List Entry}
    (h : entries bytes = some (e :: es)) :
    6 ≤ bytes.length ∧ (Header.ofList bytes).magic = Record.magicWord ∧
      10 ≤ (Header.ofList bytes).length.toNat ∧
      e = ⟨(Header.ofList bytes).length.toNat, Record.read? bytes⟩ ∧
      entries (bytes.drop e.length) = some es := by
  cases bytes using entries_cases with
  | blank bytes blank =>
    rw [entries_of_blank blank] at h
    cases h
  | garbage bytes long erased other =>
    rw [entries_of_garbage long erased other] at h
    cases h
  | header bytes long magic length _ =>
    rw [entries_of_header long magic length] at h
    obtain ⟨rest, found, same⟩ := Option.map_eq_some_iff.1 h
    cases same
    exact ⟨long, magic, length, rfl, found⟩

/-- A log without entries ends or is erased. -/
theorem blank_of_entries {bytes : List UInt8} (h : entries bytes = some []) :
    bytes.length < 6 ∨ (Header.ofList bytes).magic = Volume.erasedWord := by
  cases bytes using entries_cases with
  | blank bytes blank => exact blank
  | garbage bytes long erased other =>
    rw [entries_of_garbage long erased other] at h
    cases h
  | header bytes long magic length _ =>
    rw [entries_of_header long magic length] at h
    obtain ⟨rest, -, same⟩ := Option.map_eq_some_iff.1 h
    cases same

/-- A log behind some of its entries has the other entries. -/
theorem entries_drop {bytes : List UInt8} {front back : List Entry}
    (h : entries bytes = some (front ++ back)) :
    entries (bytes.drop (extent front)) = some back := by
  induction front generalizing bytes with
  | nil => exact h
  | cons e front ih =>
    obtain ⟨-, -, -, -, rest⟩ := entries_cons h
    have total : extent (e :: front) = e.length + extent front := rfl
    rw [total, ← List.drop_drop]
    exact ih rest

/-- Every entry of a log takes some bytes. -/
theorem length_pos_of_entries {bytes : List UInt8} {front back : List Entry} {e : Entry}
    (h : entries bytes = some (front ++ e :: back)) : 0 < e.length := by
  obtain ⟨-, -, length, same, -⟩ := entries_cons (entries_drop h)
  rw [same]
  exact Nat.lt_of_lt_of_le (by decide) length

end Log

/-! ## Scans -/

namespace Volume

/-- The last candidate of a scan that walks over entries. -/
def lastCandidate (limit : Nat) :
    (offset : Nat) → Option (Candidate limit) → List Log.Entry → Option (Candidate limit)
  | _, last, [] => last
  | offset, last, e :: es =>
    if h : offset < limit then lastCandidate limit (offset + e.length) (some ⟨offset, e.length, h⟩) es
    else last

/-- The walk does not go beyond the limit. -/
theorem lastCandidate_append {limit offset : Nat} {last : Option (Candidate limit)}
    {front : List Log.Entry} (h : limit ≤ offset + Log.extent front) (back : List Log.Entry) :
    lastCandidate limit offset last (front ++ back) = lastCandidate limit offset last front := by
  induction front generalizing offset last with
  | nil =>
    cases back with
    | nil => rfl
    | cons e back => exact dif_neg (Nat.not_lt.2 h)
  | cons e front ih =>
    have total : Log.extent (e :: front) = e.length + Log.extent front := rfl
    rw [total] at h
    simp only [List.cons_append, lastCandidate]
    split
    · exact ih (by omega)
    · rfl

/-- The walk ends at the last entry below the limit. -/
theorem lastCandidate_append_singleton {limit offset : Nat} {last : Option (Candidate limit)}
    {front : List Log.Entry} {e : Log.Entry} (h : offset + Log.extent front < limit) :
    lastCandidate limit offset last (front ++ [e]) =
      some ⟨offset + Log.extent front, e.length, h⟩ := by
  induction front generalizing offset last with
  | nil => exact dif_pos h
  | cons e' front ih =>
    have total : Log.extent (e' :: front) = e'.length + Log.extent front := rfl
    simp only [total, ← Nat.add_assoc] at h ⊢
    simp only [List.cons_append, lastCandidate]
    rw [dif_pos (by omega), ih h]

section Reading

variable {σ : Type} {server : Server Bus σ} {v : Volume} {s : σ} {bytes : List UInt8}
  {err : Error → σ → Prop} {crash : σ → Prop}

/-- One step of a scan looks at the header under it. -/
theorem wp_scanStep (holds : server.Holds v s bytes) {limit offset : Nat}
    {last : Option (Candidate limit)} {ok : Scan limit → σ → Prop}
    (inside : offset < limit) (long : offset + 6 ≤ v.size)
    (erased : (Header.ofList (bytes.drop offset)).magic = erasedWord → ok (.ofLast last) s)
    (garbage : (Header.ofList (bytes.drop offset)).magic ≠ erasedWord →
      ((Header.ofList (bytes.drop offset)).magic ≠ Record.magicWord ∨
        (Header.ofList (bytes.drop offset)).length.toNat < 10) → ok .malformed s)
    (header : (Header.ofList (bytes.drop offset)).magic = Record.magicWord →
      10 ≤ (Header.ofList (bytes.drop offset)).length.toNat →
      Access.wp server (v.scanFrom limit
        (offset + (Header.ofList (bytes.drop offset)).length.toNat)
        (some ⟨offset, (Header.ofList (bytes.drop offset)).length.toNat, inside⟩)) ok err crash s)
    (hcrash : crash s) :
    Access.wp server (v.scanFrom limit offset last) ok err crash s := by
  rw [scanFrom, dif_pos ⟨inside, long⟩, Access.wp_bind]
  refine wp_read holds (by omega) long ?_ hcrash
  rw [Header.peek_ofListPadded]
  generalize Header.ofList (bytes.drop offset) = first at *
  by_cases blank : first.magic = erasedWord
  · simp only [if_pos blank]
    exact erased blank
  by_cases magic : first.magic = Record.magicWord
  · by_cases short : first.length.toNat < minSize
    · simp only [if_neg blank, if_neg (not_not_intro magic), dif_pos short]
      exact garbage blank (.inr short)
    · simp only [if_neg blank, if_neg (not_not_intro magic), dif_neg short]
      exact header magic (Nat.le_of_not_lt short)
  · simp only [if_neg blank, if_pos magic]
    exact garbage blank (.inl magic)

/-- A scan walks over the entries of the log. -/
theorem wp_scanFrom (holds : server.Holds v s bytes) {limit offset : Nat}
    {last : Option (Candidate limit)} {es : List Log.Entry}
    (h : Log.entries (bytes.drop offset) = some es) {ok : Scan limit → σ → Prop}
    (hok : ok (.ofLast (lastCandidate limit offset last es)) s) (hcrash : crash s) :
    Access.wp server (v.scanFrom limit offset last) ok err crash s := by
  have size := holds.length_eq
  induction es generalizing offset last with
  | nil =>
    by_cases inside : offset < limit ∧ offset + 6 ≤ v.size
    · have erased : (Header.ofList (bytes.drop offset)).magic = erasedWord := by
        refine (Log.blank_of_entries h).resolve_left ?_
        rw [List.length_drop]
        omega
      refine wp_scanStep holds inside.1 inside.2 (fun _ => hok)
        (fun other => absurd erased other) (fun magic => ?_) hcrash
      exact absurd (magic.symm.trans erased) (by decide)
    · rw [scanFrom, dif_neg inside]
      exact hok
  | cons e es ih =>
    obtain ⟨long, magic, length, same, rest⟩ := Log.entries_cons h
    rw [List.drop_drop, same] at rest
    rw [same] at hok
    rw [List.length_drop] at long
    by_cases inside : offset < limit
    · rw [lastCandidate, dif_pos inside] at hok
      refine wp_scanStep holds inside (by omega) (fun erased => ?_) (fun _ other => ?_)
        (fun _ _ => ih rest hok) hcrash
      · exact absurd (magic.symm.trans erased) (by decide)
      · rcases other with other | short
        · exact absurd magic other
        · omega
    · rw [lastCandidate, dif_neg inside] at hok
      rw [scanFrom, dif_neg fun h => inside h.1]
      exact hok

/-- A scan of the whole volume fails on a log that is unreadable. -/
theorem wp_scanFrom_malformed (holds : server.Holds v s bytes) {offset : Nat}
    {last : Option (Candidate v.size)} (h : Log.entries (bytes.drop offset) = none)
    {ok : Scan v.size → σ → Prop} (hok : ok .malformed s) (hcrash : crash s) :
    Access.wp server (v.scanFrom v.size offset last) ok err crash s := by
  have size := holds.length_eq
  obtain ⟨rest, split⟩ : ∃ rest, rest = bytes.drop offset := ⟨_, rfl⟩
  rw [← split] at h
  -- the log is unreadable from here on, so the scan comes to garbage before it comes to an end
  induction rest using Log.entries_cases generalizing offset last with
  | blank rest blank =>
    rw [Log.entries_of_blank blank] at h
    cases h
  | garbage rest long erased other =>
    subst split
    rw [List.length_drop] at long
    refine wp_scanStep holds (by omega) (by omega) (fun blank => absurd blank erased)
      (fun _ _ => hok) (fun magic length => ?_) hcrash
    rcases other with other | short
    · exact absurd magic other
    · omega
  | header rest long magic length ih =>
    rw [Log.entries_of_header long magic length, Option.map_eq_none_iff] at h
    subst split
    rw [List.length_drop] at long
    refine wp_scanStep holds (by omega) (by omega) (fun erased => ?_) (fun _ other => ?_)
      (fun _ _ => ih h List.drop_drop) hcrash
    · exact absurd (magic.symm.trans erased) (by decide)
    · rcases other with other | short
      · exact absurd magic other
      · omega

/-- Only a record that is in range and ends within the log can be read. -/
theorem read?_eq_none (offset : Nat) (size : bytes.length = v.size)
    (large : Record.size < (Header.ofList (bytes.drop offset)).length.toNat ∨
      v.size - offset < (Header.ofList (bytes.drop offset)).length.toNat) :
    Record.read? (bytes.drop offset) = none := by
  refine if_neg fun valid => ?_
  have fits := valid.1
  rw [List.length_drop, size] at fits
  rcases large with large | large
  · exact absurd (Record.bounds_of_integrity valid.2).2.2 (Nat.not_le.2 large)
  · exact absurd fits (Nat.not_le.2 large)

/-- A record is read where its length is in range and it ends within the log. -/
theorem wp_readRecord (holds : server.Holds v s bytes) {offset : Nat} {ok : Record → σ → Prop}
    (hok : 10 ≤ (Header.ofList (bytes.drop offset)).length.toNat →
      (Header.ofList (bytes.drop offset)).length.toNat ≤ 41 →
      offset + (Header.ofList (bytes.drop offset)).length.toNat ≤ v.size →
      ok (Record.ofList (bytes.drop offset)) s)
    (herr : ∀ e,
      (10 ≤ (Header.ofList (bytes.drop offset)).length.toNat → e = .tooLarge ∧
        (41 < (Header.ofList (bytes.drop offset)).length.toNat ∨
          v.size < offset + (Header.ofList (bytes.drop offset)).length.toNat)) → err e s)
    (hcrash : crash s) : Access.wp server (v.readRecord offset) ok err crash s := by
  have size := holds.length_eq
  obtain ⟨first, heq⟩ : ∃ first, first = Header.ofList (bytes.drop offset) := ⟨_, rfl⟩
  rw [← heq] at hok herr
  unfold readRecord
  by_cases short : v.size < offset + headerSize
  · rw [if_pos short]
    simp only [headerSize] at short
    exact herr _ fun low => ⟨rfl, .inr (by omega)⟩
  rw [if_neg short, Access.wp_bind]
  simp only [headerSize] at short
  refine wp_read holds (by omega) (by simp only [headerSize]; omega) ?_ hcrash
  simp only
  generalize decoded : Header.decode (.ofListPadded headerSize (bytes.drop offset)) = first'
  obtain rfl : first = first' := heq.trans decoded
  by_cases large : Record.size < first.length.toNat
  · rw [if_pos large]
    exact herr _ fun _ => ⟨rfl, .inl large⟩
  rw [if_neg large]
  by_cases low : first.length.toNat < minSize
  · rw [if_pos low]
    exact herr _ fun long => absurd long (Nat.not_le.2 low)
  rw [if_neg low]
  by_cases past : v.size < offset + first.length.toNat
  · rw [if_pos past]
    exact herr _ fun _ => ⟨rfl, .inr past⟩
  rw [if_neg past, Access.wp_bind]
  simp only [minSize, headerSize, crcSize] at low ⊢
  refine wp_read holds (by omega) (by omega) ?_ hcrash
  rw [Access.wp_bind]
  refine wp_read holds (by omega) (by omega) ?_ hcrash
  -- the parts that were read one by one are those of the record that starts here
  have same : Record.mk first
      (Settings.completeImage (Bytes.ofListPadded (first.length.toNat - 10)
        (bytes.drop (offset + 8))))
      (Bytes.ofListPadded 2 (bytes.drop (offset + first.length.toNat - 2))).toNat.toUInt16 =
        Record.ofList (bytes.drop offset) := by
    rw [Record.ofList, ← heq, Record.ofBytes, List.drop_drop, List.drop_drop,
      Nat.add_sub_assoc (by omega)]
    rfl
  rw [same, Access.wp_pure]
  exact hok (Nat.le_of_not_lt low) (Nat.le_of_not_lt large) (Nat.le_of_not_lt past)

/-- A candidate is read if its record is valid. -/
theorem wp_readValid (holds : server.Holds v s bytes) {offset : Nat}
    (header : 10 ≤ (Header.ofList (bytes.drop offset)).length.toNat)
    {ok : Option Record → σ → Prop} (hok : ok (Record.read? (bytes.drop offset)) s)
    (hcrash : crash s) : Access.wp server (v.readValid offset) ok err crash s := by
  have size := holds.length_eq
  unfold readValid
  rw [Access.wp_tryCatch, Access.wp_bind]
  refine wp_readRecord holds (fun low high fits => ?_) (fun e failed => ?_) hcrash
  · rw [Access.wp_pure]
    have inside : (Record.ofList (bytes.drop offset)).length.toNat ≤ (bytes.drop offset).length := by
      show (Header.ofList (bytes.drop offset)).length.toNat ≤ _
      rw [List.length_drop]
      omega
    simp only [Record.read?, inside, true_and, ne_eq, ite_not] at hok
    exact hok
  · -- a candidate has the length of a header at least, so the only error is the one that is caught
    obtain ⟨rfl, large⟩ := failed header
    have none : Record.read? (bytes.drop offset) = none :=
      read?_eq_none offset size (large.imp id fun past => by omega)
    rw [none] at hok
    exact hok

/-! ## Rounds -/

/-- A later round goes on with the entries below its limit. -/
theorem wp_recoverBelow (holds : server.Holds v s bytes) {es back : List Log.Entry}
    {logEnd : Nat} (h : Log.entries bytes = some (es ++ back))
    {ok : Recovered → σ → Prop} (hok : ok (Log.outcome logEnd es) s) (hcrash : crash s) :
    Access.wp server (v.recoverBelow (some logEnd) (Log.extent es)) ok err crash s := by
  obtain ⟨n, length⟩ : ∃ n, n = es.length := ⟨_, rfl⟩
  -- each round takes the last entry off, so the induction is on the number of entries: the list
  -- shrinks from its end
  induction n generalizing es back with
  | zero =>
    obtain rfl := List.length_eq_zero_iff.1 length.symm
    rw [recoverBelow]
    exact hok
  | succ n ih =>
    obtain ⟨front, e, rfl⟩ := (List.eq_nil_or_concat es).resolve_left (by
      rintro rfl
      cases length)
    rw [List.concat_eq_append] at *
    rw [List.append_assoc] at h
    have pos := Log.length_pos_of_entries h
    obtain ⟨-, -, header, same, -⟩ := Log.entries_cons (Log.entries_drop h)
    have total := Log.extent_append_singleton front e
    have record : Record.read? (bytes.drop (Log.extent front)) = e.record? := by rw [same]
    rw [recoverBelow, if_neg (by omega), Access.wp_bind]
    have whole : Log.entries (bytes.drop 0) = some (front ++ ([e] ++ back)) := h
    refine wp_scanFrom holds whole ?_ hcrash
    rw [← List.append_assoc, lastCandidate_append (by omega),
      lastCandidate_append_singleton (by omega)]
    simp only [Scan.ofLast, Nat.zero_add, Option.getD_some]
    rw [Access.wp_bind]
    refine wp_readValid holds header ?_ hcrash
    rw [record]
    rw [Log.outcome, Log.latest_append_singleton] at hok
    cases found : e.record? with
    | none =>
      rw [found] at hok
      exact ih h hok (by simpa using length)
    | some latest =>
      rw [found] at hok
      exact hok

/-- Recovery of a volume that holds its bytes. -/
theorem wp_recover (holds : server.Holds v s bytes) {ok : Recovered → σ → Prop}
    (hok : ok (Log.recovered bytes) s) (hcrash : crash s) :
    Access.wp server v.recover ok err crash s := by
  have size := holds.length_eq
  unfold recover
  rw [recoverBelow]
  unfold Log.recovered at hok
  by_cases empty : v.size = 0
  · obtain rfl := List.length_eq_zero_iff.1 (size.trans empty)
    rw [if_pos empty]
    exact hok
  have nonempty : bytes ≠ [] := by
    rintro rfl
    exact empty size.symm
  rw [if_neg empty, Access.wp_bind]
  rw [if_neg nonempty] at hok
  cases h : Log.entries bytes with
  | none =>
    rw [h] at hok
    have whole : Log.entries (bytes.drop 0) = none := h
    exact wp_scanFrom_malformed holds whole hok hcrash
  | some es =>
    rw [h] at hok
    have whole : Log.entries (bytes.drop 0) = some es := h
    -- the first round differs from the later ones: it fixes the end of the log
    refine wp_scanFrom holds whole ?_ hcrash
    rcases List.eq_nil_or_concat es with rfl | ⟨front, e, rfl⟩
    · exact hok
    rw [List.concat_eq_append] at *
    obtain ⟨long, -, header, same, -⟩ := Log.entries_cons (Log.entries_drop h)
    rw [List.length_drop] at long
    have record : Record.read? (bytes.drop (Log.extent front)) = e.record? := by rw [same]
    rw [lastCandidate_append_singleton (by omega)]
    simp only [Scan.ofLast, Nat.zero_add, Option.getD_none]
    rw [Access.wp_bind]
    refine wp_readValid holds header ?_ hcrash
    rw [record]
    have total := Log.extent_append_singleton front e
    simp only [total, if_neg (List.append_ne_nil_of_right_ne_nil front (List.cons_ne_nil e []))]
      at hok
    rw [Log.outcome, Log.latest_append_singleton] at hok
    cases found : e.record? with
    | none =>
      rw [found] at hok
      exact wp_recoverBelow holds h hok hcrash
    | some latest =>
      rw [found] at hok
      exact hok

end Reading

end Volume

end TwinLog
