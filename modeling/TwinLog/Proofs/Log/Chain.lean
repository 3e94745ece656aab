-- SUMMARY: Recovery in a single pass: the chain of headers in a log, and the last member that verifies.
import TwinLog.Proofs.FirstLoad

/-! # Chains

A chain goes from header to header by the lengths that they declare. `Log.survey` reads off one
pass over the chain what there is to know of a log: where it ends, and the last member whose
checksum is right. Recovery starts over for every member that does not verify, but comes to the
same (`Volume.recover_eq_survey`), whatever the bytes and on every device that reads back. -/

namespace TwinLog.Log

/-! ## One pass -/

/-- The number that some bytes of a log hold, least significant byte first. -/
def number (bytes : List UInt8) (offset width : Nat) : Nat :=
  Bytes.listToNat ((bytes.drop offset).take width)

/-- A header in a log, with the length that it declares. -/
structure Member where
  offset : Nat
  length : Nat
deriving DecidableEq

/-- The members of a log from an offset on, none if something else comes before its end. -/
def chain (bytes : List UInt8) (offset : Nat) : Option (List Member) :=
  if bytes.length < offset + 6 then some []
  else if number bytes offset 4 = 0xFFFFFFFF then some []
  else if number bytes offset 4 ≠ 0x584E504F then none
  else if number bytes (offset + 4) 2 < 10 then none
  else (chain bytes (offset + number bytes (offset + 4) 2)).map
    (⟨offset, number bytes (offset + 4) 2⟩ :: ·)
termination_by bytes.length - offset

namespace Member

variable (e : Member) (bytes : List UInt8)

/-- Where the member ends, as far as its header goes. -/
def stop : Nat :=
  e.offset + e.length

/-- The member is in the log, no longer than a record, and ends with the checksum of the bytes
before it. -/
def Verifies : Prop :=
  e.length ≤ 41 ∧ e.stop ≤ bytes.length ∧
    number bytes (e.stop - 2) 2 =
      (Crc16.checksum ((bytes.drop e.offset).take (e.length - 2))).toNat

instance : Decidable (e.Verifies bytes) :=
  inferInstanceAs (Decidable (_ ∧ _ ∧ _))

/-- The record of the member. The payload that it lacks is that of the default settings. -/
def record : Record where
  magic := 0x584E504F
  length := e.length.toUInt16
  counter := (number bytes (e.offset + 6) 2).toUInt16
  payload := Vector.ofFn fun i =>
    if i.val < e.length - 10 then bytes.getD (e.offset + 8 + i.val) 0
    else Settings.default.encode[i]
  crc := (number bytes (e.stop - 2) 2).toUInt16

end Member

/-- What one pass over a log finds. -/
def survey (bytes : List UInt8) : Recovered :=
  if bytes = [] then .corrupt 0
  else
    match chain bytes 0 with
    | none => .corrupt 0
    | some members =>
      match members.getLast? with
      | none => .empty
      | some last =>
        match (members.filter (·.Verifies bytes)).getLast? with
        | none => .corrupt last.stop
        | some e => .clean last.stop (e.record bytes)

/-! ## Members and entries -/

def Member.entry (bytes : List UInt8) (e : Member) : Entry :=
  ⟨e.length, if e.Verifies bytes then some (e.record bytes) else none⟩

section Fields

variable {bytes : List UInt8} {offset : Nat}

theorem number_eq {width : Nat} (inside : offset + width ≤ bytes.length) :
    (Bytes.ofListPadded width (bytes.drop offset)).toNat = number bytes offset width := by
  rw [Bytes.toNat, Bytes.toList_ofListPadded (by rw [List.length_drop]; omega)]
  rfl

theorem toNat_magic_eq (long : offset + 6 ≤ bytes.length) :
    (Header.ofList (bytes.drop offset)).magic.toNat = number bytes offset 4 := by
  simp only [Header.ofList, Header.decode, Bytes.field_ofListPadded, Bytes.toNat_toUInt32,
    List.drop_zero]
  exact number_eq (by omega)

theorem toNat_length_eq (long : offset + 6 ≤ bytes.length) :
    (Header.ofList (bytes.drop offset)).length.toNat = number bytes (offset + 4) 2 := by
  simp only [Header.ofList, Header.decode, Bytes.field_ofListPadded, Bytes.toNat_toUInt16,
    List.drop_drop]
  exact number_eq (by omega)

theorem toNat_counter_eq (long : offset + 8 ≤ bytes.length) :
    (Header.ofList (bytes.drop offset)).counter.toNat = number bytes (offset + 6) 2 := by
  simp only [Header.ofList, Header.decode, Bytes.field_ofListPadded, Bytes.toNat_toUInt16,
    List.drop_drop]
  exact number_eq (by omega)

variable {e : Member} (magic : number bytes e.offset 4 = 0x584E504F)
  (length : number bytes (e.offset + 4) 2 = e.length) (low : 10 ≤ e.length)
include magic length low

/-- A member that fits is read as its record. -/
theorem ofList_drop (inside : e.stop ≤ bytes.length) :
    Record.ofList (bytes.drop e.offset) = e.record bytes := by
  unfold Member.stop at inside
  have total : (Header.ofList (bytes.drop e.offset)).length.toNat = e.length := by
    rw [toNat_length_eq (by omega), length]
  have magicEq : (Record.ofList (bytes.drop e.offset)).magic = (e.record bytes).magic := by
    apply UInt32.toNat_inj.1
    exact (toNat_magic_eq (by omega)).trans magic
  have lengthEq : (Record.ofList (bytes.drop e.offset)).length = (e.record bytes).length := by
    show _ = e.length.toUInt16
    rw [← total, Nat.toUInt16, UInt16.ofNat_toNat]
    rfl
  have counterEq : (Record.ofList (bytes.drop e.offset)).counter = (e.record bytes).counter := by
    show _ = (number bytes (e.offset + 6) 2).toUInt16
    rw [← toNat_counter_eq (by omega), Nat.toUInt16, UInt16.ofNat_toNat]
    rfl
  have payload : (Record.ofList (bytes.drop e.offset)).payload = (e.record bytes).payload := by
    apply Vector.ext
    intro i hi
    simp only [Record.ofList, Record.ofBytes, Settings.completeImage, Member.record,
      Vector.getElem_ofFn, Bytes.getElem_ofListPadded, total, List.getD_eq_getElem?_getD,
      List.getElem?_drop, Nat.add_assoc]
    exact dite_eq_ite
  have crc : (Record.ofList (bytes.drop e.offset)).crc = (e.record bytes).crc := by
    have last : e.offset + (e.length - 2) = e.stop - 2 := by
      unfold Member.stop
      omega
    have word : (Bytes.ofListPadded 2 (bytes.drop (e.stop - 2))).toNat =
        number bytes (e.stop - 2) 2 := number_eq (by unfold Member.stop; omega)
    simp only [Record.ofList, Record.ofBytes, Member.record, total, List.drop_drop,
      Record.crcSize, last, word]
  exact Record.eq_of_fields magicEq lengthEq counterEq payload crc

/-- The record that is read at a header is that of its member, if the member verifies. -/
theorem read?_drop (long : e.offset + 6 ≤ bytes.length) :
    Record.read? (bytes.drop e.offset) = (e.entry bytes).record? := by
  have total : (Header.ofList (bytes.drop e.offset)).length.toNat = e.length := by
    rw [toNat_length_eq long, length]
  have rest : e.length ≤ (bytes.drop e.offset).length ↔ e.stop ≤ bytes.length := by
    rw [List.length_drop, Member.stop]
    omega
  -- a member that is too long, or does not end within the log, is not read, and does not verify
  -- either
  by_cases fits : e.length ≤ 41 ∧ e.stop ≤ bytes.length
  · have read := ofList_drop magic length low fits.2
    have valid : (e.record bytes).integrity ≠ .invalid ↔ e.Verifies bytes := by
      have behind : 8 + (e.length - 10) = e.length - 2 := by omega
      have checksum : (e.record bytes).calculateCrc =
          Crc16.checksum ((bytes.drop e.offset).take (e.length - 2)) := by
        rw [← read, ← behind]
        exact Record.calculateCrc_ofList (by omega) (by omega) (by omega)
      have crc : (e.record bytes).crc.toNat = number bytes (e.stop - 2) 2 := by
        have word : (Bytes.ofListPadded 2 (bytes.drop (e.stop - 2))).toNat =
            number bytes (e.stop - 2) 2 := number_eq (by unfold Member.stop at fits ⊢; omega)
        show (number bytes (e.stop - 2) 2).toUInt16.toNat = _
        rw [← word, Bytes.toNat_toUInt16]
      have bounds : Record.minSize ≤ (e.record bytes).length.toNat ∧
          (e.record bytes).length.toNat ≤ Record.size := by
        have same : (e.record bytes).length.toNat = e.length := by
          rw [← read]
          exact total
        rw [same]
        exact ⟨low, fits.1⟩
      rw [Record.integrity_ne_invalid, checksum, ← UInt16.toNat_inj, crc]
      exact ⟨fun h => ⟨fits.1, fits.2, h.2⟩, fun h => ⟨⟨rfl, bounds⟩, h.2.2⟩⟩
    have whole : (e.record bytes).length.toNat ≤ (bytes.drop e.offset).length := by
      rw [← read]
      exact Nat.le_trans (Nat.le_of_eq total) (rest.2 fits.2)
    simp only [Record.read?, read, whole, true_and, valid]
    rfl
  · have none : ¬e.Verifies bytes := fun h => fits ⟨h.1, h.2.1⟩
    have other : ¬((Record.ofList (bytes.drop e.offset)).length.toNat ≤
        (bytes.drop e.offset).length ∧
        (Record.ofList (bytes.drop e.offset)).integrity ≠ .invalid) := by
      rintro ⟨inside, valid⟩
      have same : (Record.ofList (bytes.drop e.offset)).length.toNat = e.length := total
      have high := (Record.bounds_of_integrity valid).2.2
      rw [same] at inside high
      exact fits ⟨high, rest.1 inside⟩
    rw [Member.entry, if_neg none]
    exact if_neg other

end Fields

/-- The entries of a log are the members of its chain. -/
theorem entries_eq_chain (bytes : List UInt8) (offset : Nat) :
    entries (bytes.drop offset) = (chain bytes offset).map (·.map (Member.entry bytes)) := by
  -- case by case as the chain is walked; the numbers in it are the fields of the header
  induction offset using chain.induct bytes with
  | case1 offset short =>
    rw [chain, if_pos short, entries_of_blank (.inl (by rw [List.length_drop]; omega))]
    rfl
  | case2 offset long erased =>
    have blank : (Header.ofList (bytes.drop offset)).magic = Volume.erasedWord := by
      apply UInt32.toNat_inj.1
      rw [toNat_magic_eq (by omega), erased]
      rfl
    rw [chain, if_neg long, if_pos erased, entries_of_blank (.inr blank)]
    rfl
  | case3 offset long erased other =>
    rw [chain, if_neg long, if_neg erased, if_pos other]
    refine entries_of_garbage (by rw [List.length_drop]; omega) (fun blank => erased ?_)
      (.inl fun magic => other ?_)
    · rw [← toNat_magic_eq (by omega), blank]
      rfl
    · rw [← toNat_magic_eq (by omega), magic]
      rfl
  | case4 offset long erased magic short =>
    rw [chain, if_neg long, if_neg erased, if_neg magic, if_pos short]
    refine entries_of_garbage (by rw [List.length_drop]; omega) (fun blank => erased ?_)
      (.inr (by rwa [toNat_length_eq (by omega)]))
    rw [← toNat_magic_eq (by omega), blank]
    rfl
  | case5 offset long erased magic low ih =>
    have word : (Header.ofList (bytes.drop offset)).magic = Record.magicWord := by
      apply UInt32.toNat_inj.1
      rw [toNat_magic_eq (by omega), Decidable.not_not.1 magic]
      rfl
    have length : (Header.ofList (bytes.drop offset)).length.toNat =
        number bytes (offset + 4) 2 := toNat_length_eq (by omega)
    have record := @read?_drop bytes ⟨offset, number bytes (offset + 4) 2⟩
      (Decidable.not_not.1 magic) rfl (Nat.le_of_not_lt low) (by simp only; omega)
    rw [chain, if_neg long, if_neg erased, if_neg magic, if_neg low,
      entries_of_header (by rw [List.length_drop]; omega) word (by omega), length,
      List.drop_drop, ih, record, Option.map_map, Option.map_map]
    rfl

/-- The members of a chain follow each other. -/
theorem chain_eq_cons {bytes : List UInt8} {offset : Nat} {e : Member} {rest : List Member}
    (walk : chain bytes offset = some (e :: rest)) :
    e.offset = offset ∧ chain bytes e.stop = some rest := by
  rw [chain] at walk
  split_ifs at walk
  · cases walk
  · cases walk
  · obtain ⟨members, behind, same⟩ := Option.map_eq_some_iff.1 walk
    cases same
    exact ⟨rfl, behind⟩

/-- The last member of a chain ends where all of them end. -/
theorem stop_getLast {bytes : List UInt8} {offset : Nat} {members : List Member} {last : Member}
    (walk : chain bytes offset = some members) (h : members.getLast? = some last) :
    last.stop = offset + extent (members.map (Member.entry bytes)) := by
  induction members generalizing offset with
  | nil => cases h
  | cons e rest ih =>
    obtain ⟨rfl, behind⟩ := chain_eq_cons walk
    have total : extent ((e :: rest).map (Member.entry bytes)) =
        e.length + extent (rest.map (Member.entry bytes)) := rfl
    rw [total, ← Nat.add_assoc]
    cases rest with
    | nil =>
      cases h
      rfl
    | cons next rest =>
      rw [List.getLast?_cons_cons] at h
      exact ih behind h

/-- The last record of the entries is that of the last member that verifies. -/
theorem latest_map_entry (bytes : List UInt8) (members : List Member) :
    latest (members.map (Member.entry bytes)) =
      ((members.filter (·.Verifies bytes)).getLast?).map (·.record bytes) := by
  have records : (members.map (Member.entry bytes)).filterMap Entry.record? =
      (members.filter (·.Verifies bytes)).map (·.record bytes) := by
    induction members with
    | nil => rfl
    | cons e members ih =>
      by_cases h : e.Verifies bytes
      · have record : (e.entry bytes).record? = some (e.record bytes) := if_pos h
        rw [List.map_cons, List.filterMap_cons_some record, ih,
          List.filter_cons_of_pos (by simpa using h), List.map_cons]
      · have record : (e.entry bytes).record? = none := if_neg h
        rw [List.map_cons, List.filterMap_cons_none record, ih,
          List.filter_cons_of_neg (by simpa using h)]
  rw [latest, records, List.getLast?_map]

/-- One pass finds what recovery finds. -/
theorem survey_eq (bytes : List UInt8) : survey bytes = recovered bytes := by
  unfold survey recovered
  split
  · rfl
  have walk := entries_eq_chain bytes 0
  rw [List.drop_zero] at walk
  rw [walk]
  cases found : chain bytes 0 with
  | none => rfl
  | some members =>
    cases h : members.getLast? with
    | none =>
      rw [List.getLast?_eq_none_iff.1 h]
      rfl
    | some last =>
      have present : members.map (Member.entry bytes) ≠ [] := by
        intro nil
        rw [List.map_eq_nil_iff.1 nil] at h
        cases h
      have stop := stop_getLast found h
      rw [Nat.zero_add] at stop
      simp only [h, Option.map_some, if_neg present, outcome, latest_map_entry, ← stop]
      cases (members.filter (·.Verifies bytes)).getLast? <;> rfl

end TwinLog.Log

/-! ## Recovery -/

namespace TwinLog

/-- Recovery finds what one pass over the bytes of the volume finds, and only reads. -/
theorem Volume.recover_eq_survey {σ : Type}
    {answer : (request : Bus.Request) → StateM σ (Bus.Reply request)} {content : σ → Medium}
    {v : Volume} (addressable : v.start + v.size ≤ addressSpace)
    (served : v.Served answer content) (s : σ) :
    ∃ s', v.recover.run.run answer s = (.ok (Log.survey (v.content (content s))), s') ∧
      content s' = content s := by
  rw [Log.survey_eq]
  exact served.run_recover addressable s

/-- Behind a record, a header that points past the end of the flash's first volume. -/
theorem Installation.recover_eq_survey_past_end :
    let r := Record.default.refresh Settings.default.encode
    let m := Medium.erased.program .clearBits ⟨0⟩ 0
      (r.encode.toList ++ [0x4F, 0x50, 0x4E, 0x58, 0xFF, 0x01])
    let v := flash.volume .a
    (v.start + v.size ≤ addressSpace ∧ v.Served metered Prod.fst) ∧
      Log.survey (v.content m) = .clean 552 r ∧
      ∃ s', v.recover.run.run metered (m, 0) = (.ok (Log.survey (v.content m)), s') ∧ s'.1 = m := by
  intro r m v
  have addressable : v.start + v.size ≤ addressSpace := (flash.writable .a).addressable
  have served : v.Served metered Prod.fst := fun _ _ _ _ => ⟨rfl, rfl⟩
  exact ⟨⟨addressable, served⟩, by decide +kernel, Volume.recover_eq_survey addressable served (m, 0)⟩

end TwinLog
