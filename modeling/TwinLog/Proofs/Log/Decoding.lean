-- SUMMARY: Decoding records: what is read at an offset of a log agrees with the bytes there.
import TwinLog.Proofs.Log.Chain

/-! # Decoding records

A record is read field by field, its payload is completed, and its checksum is computed over the
completed form, in which the checksum stands elsewhere than on the medium. Main statement: what is
read is what the bytes hold, for every length that a record may have and for no other, and its
checksum is that of the bytes (`Volume.readRecord_decodes`). -/

namespace TwinLog

/-- The record is what a log holds at an offset. The payload that the log lacks is that of the
default settings. -/
structure Log.Decodes (bytes : List UInt8) (offset : Nat) (r : Record) : Prop where
  magic : r.magic.toNat = number bytes offset 4
  length : r.length.toNat = number bytes (offset + 4) 2
  counter : r.counter.toNat = number bytes (offset + 6) 2
  payload : r.payload.toList = (bytes.drop (offset + 8)).take (r.length.toNat - 10) ++
    Settings.default.encode.toList.drop (r.length.toNat - 10)
  crc : r.crc.toNat = number bytes (offset + r.length.toNat - 2) 2

/-! ## Records in bytes -/

namespace Record

/-- The payload behind the stored one is that of the default settings. -/
theorem drop_payload_ofList {bytes : List UInt8} {n : Nat}
    (length : (Header.ofList bytes).length.toNat = n + 10) :
    (ofList bytes).payload.toList.drop n = Settings.default.encode.toList.drop n := by
  apply List.ext_getElem
  · simp only [List.length_drop, Vector.length_toList]
  · intro i _ _
    have behind : ¬n + i < (Header.ofList bytes).length.toNat - minSize := by
      rw [length]
      exact Nat.not_lt.2 (Nat.le_add_right n i)
    simp only [ofList, ofBytes, List.getElem_drop, Vector.getElem_toList, Settings.completeImage,
      Vector.getElem_ofFn, dif_neg behind]
    rfl

/-- The payload is the stored one, completed by that of the default settings. -/
theorem payload_ofList {bytes : List UInt8} {n : Nat}
    (length : (Header.ofList bytes).length.toNat = n + 10) (high : n ≤ 31)
    (enough : n + 8 ≤ bytes.length) :
    (ofList bytes).payload.toList =
      (bytes.drop 8).take n ++ Settings.default.encode.toList.drop n := by
  rw [← take_payload_ofList length high enough, ← drop_payload_ofList length,
    List.take_append_drop]

/-- What the integrity of a record is if it is not invalid. -/
theorem integrity_of_valid {r : Record} (valid : r.integrity ≠ .invalid) :
    r.integrity = if r.length.toNat = size then .current else .stale := by
  split
  · rename_i whole
    obtain ⟨⟨magic, -⟩, crc⟩ := integrity_ne_invalid.1 valid
    exact integrity_eq_current.2 ⟨magic, whole, crc⟩
  · rename_i part
    have bound := (bounds_of_integrity valid).2.2
    exact (integrity_eq_stale valid).2 (Nat.lt_of_le_of_ne bound part)

end Record

namespace Log

variable {bytes : List UInt8} {offset : Nat}

section Fields

variable (low : 10 ≤ (Header.ofList (bytes.drop offset)).length.toNat)
  (high : (Header.ofList (bytes.drop offset)).length.toNat ≤ 41)
  (fits : offset + (Header.ofList (bytes.drop offset)).length.toNat ≤ bytes.length)
include low high fits

theorem decodes_ofList : Decodes bytes offset (Record.ofList (bytes.drop offset)) := by
  obtain ⟨n, length⟩ : ∃ n, (Header.ofList (bytes.drop offset)).length.toNat = n + 10 :=
    ⟨_, (Nat.sub_add_cancel low).symm⟩
  rw [length] at high fits
  have payload : (Record.ofList (bytes.drop offset)).payload.toList =
      (bytes.drop (offset + 8)).take n ++ Settings.default.encode.toList.drop n := by
    rw [Record.payload_ofList length (by omega) (by rw [List.length_drop]; omega), List.drop_drop]
  have stored : (Record.ofList (bytes.drop offset)).length.toNat = n + 10 := length
  refine ⟨toNat_magic_eq (by omega), toNat_length_eq (by omega), toNat_counter_eq (by omega),
    ?_, ?_⟩
  · rw [stored]
    exact payload
  · have last : offset + (n + 10) - 2 = offset + (n + 8) := by omega
    rw [stored, last, ← number_eq (by omega)]
    simp only [Record.ofList, Record.ofBytes, length, Record.crcSize, List.drop_drop,
      Bytes.toNat_toUInt16]
    rfl

/-- The checksum of a record that is read is that of the bytes before it. -/
theorem integrity_ofList (magic : number bytes offset 4 = 0x584E504F) :
    let r := Record.ofList (bytes.drop offset)
    r.integrity ≠ .invalid ↔
      r.crc = Crc16.checksum ((bytes.drop offset).take (r.length.toNat - 2)) := by
  intro r
  obtain ⟨n, length⟩ : ∃ n, (Header.ofList (bytes.drop offset)).length.toNat = n + 10 :=
    ⟨_, (Nat.sub_add_cancel low).symm⟩
  rw [length] at high fits
  have stored : r.length.toNat = n + 10 := length
  have word : r.magic = Record.magicWord := by
    apply UInt32.toNat_inj.1
    exact (toNat_magic_eq (by omega)).trans magic
  have covered : r.calculateCrc = Crc16.checksum ((bytes.drop offset).take (8 + n)) :=
    Record.calculateCrc_ofList length (by omega) (by rw [List.length_drop]; omega)
  have before : n + 10 - 2 = 8 + n := by omega
  have range : Record.minSize ≤ n + 10 ∧ n + 10 ≤ Record.size := ⟨Nat.le_add_left _ _, high⟩
  rw [Record.integrity_ne_invalid, covered, stored, before]
  exact and_iff_right ⟨word, range⟩

end Fields

/-- A record in the current format is what the log holds at an offset where it is stored. -/
theorem ofList_of_take {r : Record} (length : r.length.toNat = 41)
    (stored : (bytes.drop offset).take 41 = r.encode.toList) :
    Record.ofList (bytes.drop offset) = r ∧ offset + 41 ≤ bytes.length := by
  have whole := congrArg List.length stored
  rw [Record.length_toList_encode, Record.size_eq, List.length_take, List.length_drop] at whole
  refine ⟨?_, by omega⟩
  rw [← List.take_append_drop 41 (bytes.drop offset), stored]
  exact Record.ofList_encode length _

end Log

/-! ## Reading -/

namespace Volume

variable {σ : Type} {answer : (request : Bus.Request) → StateM σ (Bus.Reply request)}
  {content : σ → Medium} {v : Volume}

/-- A record is read exactly where its length is in range and it ends within the volume. -/
theorem run_readRecord (addressable : v.start + v.size ≤ addressSpace)
    (served : v.Served answer content) (s : σ) (offset : Nat) :
    let bytes := v.content (content s)
    let length := (Header.ofList (bytes.drop offset)).length.toNat
    ∃ result s', (v.readRecord offset).run.run answer s = (result, s') ∧ content s' = content s ∧
      if 10 ≤ length ∧ length ≤ 41 ∧ offset + length ≤ v.size then
        result = .ok (Record.ofList (bytes.drop offset))
      else ∃ e, result = .error e := by
  intro bytes length
  -- the reads are served as on hardware, of which any kind will do: nothing is written
  let hw : Hardware := fun _ => ⟨.overwrite, false, false⟩
  have read : Access.wp (hw.server .none) (v.readRecord offset)
      (fun r m => (10 ≤ length ∧ length ≤ 41 ∧ offset + length ≤ v.size) ∧
        r = Record.ofList (bytes.drop offset) ∧ m = content s)
      (fun _ m => ¬(10 ≤ length ∧ length ≤ 41 ∧ offset + length ≤ v.size) ∧ m = content s)
      (fun _ => True) (content s) := by
    refine wp_readRecord (server_holds addressable rfl) (fun low high fits => ?_)
      (fun e failed => ?_) trivial
    · exact ⟨⟨low, high, fits⟩, rfl, rfl⟩
    · refine ⟨?_, rfl⟩
      rintro ⟨low, high, fits⟩
      rcases (failed low).2 with large | past
      · exact absurd high (Nat.not_le.2 large)
      · exact absurd fits (Nat.not_le.2 past)
  have ended := (v.only_readRecord offset).run (served.replies hw) s read
  refine ⟨_, _, rfl, ?_⟩
  cases result : ((v.readRecord offset).run.run answer s).1 with
  | ok r =>
    rw [result] at ended
    obtain ⟨fits, rfl, kept⟩ := ended
    exact ⟨kept, by rw [if_pos fits]⟩
  | error e =>
    rw [result] at ended
    obtain ⟨unfit, kept⟩ := ended
    refine ⟨kept, ?_⟩
    rw [if_neg unfit]
    exact ⟨e, rfl⟩

/-- At a magic word, a record is read exactly if the length behind it is one that a record may have
and the record ends within the volume. It has the fields that the medium holds, and is valid exactly
if its checksum is that of the bytes before it. So a record in the current format is read from
where it is stored. -/
theorem readRecord_decodes (addressable : v.start + v.size ≤ addressSpace)
    (served : v.Served answer content) (s : σ) :
    let bytes := v.content (content s)
    (∀ offset, Log.number bytes offset 4 = 0x584E504F →
      ((∃ r s', (v.readRecord offset).run.run answer s = (.ok r, s')) ↔
        10 ≤ Log.number bytes (offset + 4) 2 ∧ Log.number bytes (offset + 4) 2 ≤ 41 ∧
          offset + Log.number bytes (offset + 4) 2 ≤ v.size) ∧
      ∀ r s', (v.readRecord offset).run.run answer s = (.ok r, s') →
        content s' = content s ∧ Log.Decodes bytes offset r ∧
        (r.integrity ≠ .invalid ↔
          r.crc = Crc16.checksum ((bytes.drop offset).take (r.length.toNat - 2))) ∧
        (r.integrity ≠ .invalid →
          r.integrity = if r.length.toNat = 41 then .current else .stale)) ∧
    ∀ offset r, r.magic = Record.magicWord → r.length.toNat = 41 → r.crc = r.calculateCrc →
      (bytes.drop offset).take 41 = r.encode.toList →
      ∃ s', (v.readRecord offset).run.run answer s = (.ok r, s') ∧ content s' = content s ∧
        r.integrity = .current := by
  intro bytes
  have size : bytes.length = v.size := length_content v (content s)
  constructor
  · intro offset magic
    obtain ⟨result, s', run, kept, read⟩ := run_readRecord addressable served s offset
    have header : (10 ≤ (Header.ofList (bytes.drop offset)).length.toNat ∧
          (Header.ofList (bytes.drop offset)).length.toNat ≤ 41 ∧
          offset + (Header.ofList (bytes.drop offset)).length.toNat ≤ v.size) ↔
        10 ≤ Log.number bytes (offset + 4) 2 ∧ Log.number bytes (offset + 4) 2 ≤ 41 ∧
          offset + Log.number bytes (offset + 4) 2 ≤ v.size := by
      by_cases long : offset + 6 ≤ bytes.length
      · rw [Log.toNat_length_eq long]
      · -- neither number leaves room for a record
        constructor <;> (rintro ⟨low, -, fits⟩; omega)
    constructor
    · rw [← header, run]
      split at read
      · rename_i fits
        exact ⟨fun _ => fits, fun _ => ⟨_, s', by rw [read]⟩⟩
      · rename_i unfit
        obtain ⟨e, rfl⟩ := read
        refine iff_of_false ?_ unfit
        rintro ⟨_, _, ok⟩
        cases ok
    · intro r s'' ok
      cases run.symm.trans ok
      split at read
      · rename_i fits
        obtain ⟨low, high, fits⟩ := fits
        cases read
        rw [← size] at fits
        exact ⟨kept, Log.decodes_ofList low high fits,
          Log.integrity_ofList low high fits magic, Record.integrity_of_valid⟩
      · obtain ⟨e, same⟩ := read
        cases same
  · intro offset r magic length crc stored
    obtain ⟨result, s', run, kept, read⟩ := run_readRecord addressable served s offset
    obtain ⟨same, inside⟩ := Log.ofList_of_take length stored
    have header : (Header.ofList (bytes.drop offset)).length.toNat = 41 := by
      rw [← length, ← same]
      rfl
    -- a record that is stored whole ends within the volume, so it is read
    rw [if_pos ⟨by rw [header]; decide, Nat.le_of_eq header, by rw [header, ← size]; exact inside⟩,
      same] at read
    exact ⟨s', by rw [run, read], kept, Record.integrity_eq_current.2 ⟨magic, length, crc⟩⟩

end Volume

/-- An old record with two bytes of payload in the flash's first volume, and a current one behind
it. -/
theorem Installation.readRecord_decodes_old :
    let r := Record.default.refresh Settings.default.encode
    let m := Medium.erased.program .clearBits ⟨0⟩ 0
      ([0x4F, 0x50, 0x4E, 0x58, 0x0C, 0x00, 0x05, 0x00, 0x07, 0x08, 0x77, 0x77] ++
        r.encode.toList)
    let v := flash.volume .a
    (v.start + v.size ≤ addressSpace ∧ v.Served metered Prod.fst ∧
      Log.number (v.content m) 0 4 = 0x584E504F ∧ r.magic = Record.magicWord ∧
      r.length.toNat = 41 ∧ r.crc = r.calculateCrc ∧
      ((v.content m).drop 12).take 41 = r.encode.toList) ∧
    (∃ old s', (v.readRecord 0).run.run metered (m, 0) = (.ok old, s') ∧ s'.1 = m ∧
      Log.Decodes (v.content m) 0 old ∧ old.integrity = .stale) ∧
    ∃ s', (v.readRecord 12).run.run metered (m, 0) = (.ok r, s') ∧ s'.1 = m ∧
      r.integrity = .current := by
  intro r m v
  have addressable : v.start + v.size ≤ addressSpace := (flash.writable .a).addressable
  have served : v.Served metered Prod.fst := fun _ _ _ _ => ⟨rfl, rfl⟩
  have magic : Log.number (v.content m) 0 4 = 0x584E504F := by decide +kernel
  have current : r.magic = Record.magicWord ∧ r.length.toNat = 41 ∧ r.crc = r.calculateCrc :=
    Record.integrity_eq_current.1 (Record.integrity_refresh rfl _)
  have stored : ((v.content m).drop 12).take 41 = r.encode.toList := by decide +kernel
  obtain ⟨decodes, found⟩ := Volume.readRecord_decodes addressable served (m, 0)
  obtain ⟨readable, read⟩ := decodes 0 magic
  obtain ⟨old, s', run⟩ := readable.2 (by decide +kernel)
  obtain ⟨kept, fields, valid, integrity⟩ := read old s' run
  have length : old.length.toNat = 12 := fields.length.trans (by decide +kernel)
  have crc : old.crc = Crc16.checksum (((v.content m).drop 0).take 10) := by
    have last := fields.crc
    rw [length] at last
    exact UInt16.toNat_inj.1 (last.trans (by decide +kernel))
  rw [length] at valid integrity
  exact ⟨⟨addressable, served, magic, current.1, current.2.1, current.2.2, stored⟩,
    ⟨old, s', run, kept, fields, integrity (valid.2 crc)⟩,
    found 12 r current.1 current.2.1 current.2.2 stored⟩

end TwinLog
