-- SUMMARY: Records read from lists of bytes: their stored form, their checksum, and torn images.
import TwinLog.Log.Read
import TwinLog.Log.Scan
import TwinLog.Proofs.Volume

/-! # Records in bytes

`Record.read?` is the valid record at the start of a list of bytes. It finds every record in its
stored form again (`Record.read?_encode`), and looks at no byte behind the record
(`Record.read?_take_append`). `Record.torn` is what is left of a record when power is lost while it
is written over erased bytes. -/

namespace TwinLog

open Volume (erasedBytes)

/-- A whole image needs no completion. -/
theorem Settings.completeImage_image (image : Settings.Image) :
    Settings.completeImage image = image := by
  apply Vector.ext
  intro i hi
  simp only [completeImage, Vector.getElem_ofFn]
  exact dif_pos hi

/-! ## Padded lists -/

namespace Bytes

/-- Enough bytes are taken as they are. -/
theorem toList_ofListPadded {n : Nat} {bytes : List UInt8} (h : n ≤ bytes.length) :
    (ofListPadded n bytes).toList = bytes.take n := by
  apply List.ext_getElem
  · simp [h]
  · intro i hi _
    simp only [Vector.length_toList] at hi
    rw [Vector.getElem_toList, getElem_ofListPadded, List.getElem_take,
      List.getD_eq_getElem?_getD, List.getElem?_eq_getElem (by omega), Option.getD_some]

/-- A field of a padded list is a padded list. -/
theorem field_ofListPadded {n start width : Nat} (bytes : List UInt8) (h : start + width ≤ n) :
    (ofListPadded n bytes).field start width h = ofListPadded width (bytes.drop start) := by
  apply Vector.ext
  intro i hi
  simp [List.getD_eq_getElem?_getD]

/-- What follows the bytes that are taken does not matter. -/
theorem ofListPadded_take_append {n k start : Nat} {bytes : List UInt8} (tail : List UInt8)
    (h : start + n ≤ k) (enough : k ≤ bytes.length) :
    ofListPadded n ((bytes.take k ++ tail).drop start) = ofListPadded n (bytes.drop start) := by
  apply Vector.ext
  intro i hi
  rw [getElem_ofListPadded, getElem_ofListPadded, List.getD_eq_getElem?_getD,
    List.getD_eq_getElem?_getD, List.getElem?_drop, List.getElem?_drop,
    List.getElem?_append_left (by simp; omega), List.getElem?_take_of_lt (by omega)]

/-- A byte string is found again at the start of a list. -/
theorem ofListPadded_append {n : Nat} (bytes : Bytes n) (tail : List UInt8) :
    ofListPadded n (bytes.toList ++ tail) = bytes := by
  apply Vector.ext
  intro i hi
  rw [getElem_ofListPadded, List.getD_eq_getElem?_getD, List.getElem?_append_left (by simpa),
    List.getElem?_eq_getElem (by simpa), Option.getD_some, Vector.getElem_toList]

/-- A byte string is found again behind other bytes. -/
theorem ofListPadded_drop_of_split {n : Nat} {bytes front back : List UInt8} {field : Bytes n}
    (split : bytes = front ++ (field.toList ++ back)) {start : Nat} (h : front.length = start) :
    ofListPadded n (bytes.drop start) = field := by
  rw [split, ← h, List.drop_left, ofListPadded_append]

/-- A word is found again behind other bytes. -/
theorem toNat_ofListPadded_drop_of_split {width value : Nat} {bytes front back : List UInt8}
    (split : bytes = front ++ ((ofNat width value).toList ++ back)) {start : Nat}
    (h : front.length = start) (fits : value < count width) :
    (ofListPadded width (bytes.drop start)).toNat = value := by
  rw [ofListPadded_drop_of_split split h, toNat_ofNat, Nat.mod_eq_of_lt fits]

theorem listOfNat_listToNat (bytes : List UInt8) :
    listOfNat bytes.length (listToNat bytes) = bytes := by
  induction bytes with
  | nil => rfl
  | cons byte rest ih =>
    have bound := byte.toNat_lt
    have low : (byte.toNat + 256 * listToNat rest).toUInt8 = byte := by
      apply UInt8.toNat_inj.1
      simp [Nat.toUInt8]
    have high : (byte.toNat + 256 * listToNat rest) / 256 = listToNat rest := by omega
    rw [List.length_cons, listToNat, listOfNat, low, high, ih]

theorem toNat_toUInt16 (bytes : Bytes 2) : bytes.toNat.toUInt16.toNat = bytes.toNat := by
  have fits : bytes.toNat < 65536 := toNat_lt bytes
  simp [Nat.toUInt16]
  omega

theorem toNat_toUInt32 (bytes : Bytes 4) : bytes.toNat.toUInt32.toNat = bytes.toNat := by
  have fits : bytes.toNat < 4294967296 := toNat_lt bytes
  simp [Nat.toUInt32]
  omega

/-- The word that some bytes denote is stored in these bytes. -/
theorem toList_ofNat_toNat {width start : Nat} {bytes : List UInt8}
    (h : start + width ≤ bytes.length) :
    (ofNat width (ofListPadded width (bytes.drop start)).toNat).toList =
      (bytes.drop start).take width := by
  have enough : width ≤ (bytes.drop start).length := by
    rw [List.length_drop]
    omega
  have length : ((bytes.drop start).take width).length = width := by
    rw [List.length_take]
    omega
  rw [toList_ofNat, toNat, toList_ofListPadded enough]
  conv => lhs; arg 1; rw [← length]
  exact listOfNat_listToNat _

end Bytes

/-! ## Headers -/

namespace Header

/-- The header at the start of a list of bytes. -/
def ofList (bytes : List UInt8) : Header :=
  .decode (.ofListPadded Record.headerSize bytes)

/-- The first bytes of a header hold its magic word and its length. -/
theorem peek_ofListPadded (bytes : List UInt8) :
    Header.peek (.ofListPadded Record.peekSize bytes) =
      ((ofList bytes).magic, (ofList bytes).length) := by
  simp only [peek, ofList, decode, Bytes.field_ofListPadded]

/-- A header is in its first eight bytes. -/
theorem ofList_take_append {k : Nat} {bytes : List UInt8} (tail : List UInt8)
    (h : Record.headerSize ≤ k) (enough : k ≤ bytes.length) :
    ofList (bytes.take k ++ tail) = ofList bytes := by
  have same : Bytes.ofListPadded Record.headerSize ((bytes.take k ++ tail).drop 0) =
      Bytes.ofListPadded Record.headerSize (bytes.drop 0) :=
    Bytes.ofListPadded_take_append tail (by omega) enough
  rw [List.drop_zero, List.drop_zero] at same
  rw [ofList, same, ofList]

theorem magic_ofList {bytes : List UInt8} (h : 6 ≤ bytes.length) :
    (ofList bytes).magic = (Bytes.listToNat ((bytes.take 6).take 4)).toUInt32 := by
  simp only [ofList, decode, Bytes.field_ofListPadded, Bytes.toNat, List.drop_zero, List.take_take]
  rw [Bytes.toList_ofListPadded (by omega)]
  rfl

theorem length_ofList {bytes : List UInt8} (h : 6 ≤ bytes.length) :
    (ofList bytes).length = (Bytes.listToNat ((bytes.take 6).drop 4)).toUInt16 := by
  simp only [ofList, decode, Bytes.field_ofListPadded, Bytes.toNat, List.drop_take]
  rw [Bytes.toList_ofListPadded (by simp; omega)]

end Header

namespace Record

theorem size_eq : size = 41 := rfl

/-- Records with the same fields are the same. -/
theorem eq_of_fields {r s : Record} (magic : r.magic = s.magic) (length : r.length = s.length)
    (counter : r.counter = s.counter) (payload : r.payload = s.payload) (crc : r.crc = s.crc) :
    r = s := by
  obtain ⟨⟨⟩, _, _⟩ := r
  obtain ⟨⟨⟩, _, _⟩ := s
  simp only at magic length counter payload crc
  rw [magic, length, counter, payload, crc]

/-! ## Reading -/

/-- The record with a given header and the other fields as the bytes hold them, completed as the
header says. -/
def ofBytes (header : Header) (bytes : List UInt8) : Record where
  toHeader := header
  payload := Settings.completeImage
    (Bytes.ofListPadded (header.length.toNat - minSize) (bytes.drop headerSize))
  crc := (Bytes.ofListPadded crcSize (bytes.drop (header.length.toNat - crcSize))).toNat.toUInt16

/-- The record at the start of a list of bytes. -/
def ofList (bytes : List UInt8) : Record :=
  ofBytes (Header.ofList bytes) bytes

/-- The valid record at the start of a list of bytes. -/
def read? (bytes : List UInt8) : Option Record :=
  let r := ofList bytes
  if r.length.toNat ≤ bytes.length ∧ r.integrity ≠ .invalid then some r else none

/-- A record is valid if it has the magic word, a length in range and the right checksum. -/
theorem integrity_ne_invalid {r : Record} :
    r.integrity ≠ .invalid ↔
      (r.magic = magicWord ∧ minSize ≤ r.length.toNat ∧ r.length.toNat ≤ size) ∧
        r.crc = r.calculateCrc := by
  unfold integrity
  constructor
  · intro h
    split at h
    · exact absurd rfl h
    · rename_i magic
      split at h
      · exact absurd rfl h
      · split at h
        · exact absurd rfl h
        · rename_i length crc
          exact ⟨⟨Decidable.not_not.1 magic, by omega, by omega⟩, Decidable.not_not.1 crc⟩
  · rintro ⟨⟨magic, low, high⟩, crc⟩
    rw [if_neg (not_not_intro magic), if_neg (by omega), if_neg (not_not_intro crc)]
    split <;> nofun

/-- Records that are not invalid have the magic word and a length in range. -/
theorem bounds_of_integrity {r : Record} (h : r.integrity ≠ .invalid) :
    r.magic = magicWord ∧ minSize ≤ r.length.toNat ∧ r.length.toNat ≤ size :=
  (integrity_ne_invalid.1 h).1

theorem integrity_eq_current {r : Record} :
    r.integrity = .current ↔
      r.magic = magicWord ∧ r.length.toNat = size ∧ r.crc = r.calculateCrc := by
  unfold integrity
  constructor
  · intro h
    split at h
    · cases h
    · split at h
      · cases h
      · split at h
        · cases h
        · split at h
          · exact ⟨Decidable.not_not.1 ‹_›, ‹_›, Decidable.not_not.1 ‹_›⟩
          · cases h
  · rintro ⟨magic, length, crc⟩
    rw [if_neg (not_not_intro magic), if_neg (by rw [length]; decide),
      if_neg (not_not_intro crc), if_pos length]

/-- A record is read only from its own bytes. -/
theorem read?_take_append {k : Nat} {bytes : List UInt8} (tail : List UInt8)
    (header : headerSize ≤ k) (length : (Header.ofList bytes).length.toNat ≤ k)
    (enough : k ≤ bytes.length) : read? (bytes.take k ++ tail) = read? bytes := by
  have heq := Header.ofList_take_append tail header enough
  by_cases short : (Header.ofList bytes).length.toNat < minSize
  · -- neither list starts with a record
    have invalid : ∀ l, Header.ofList l = Header.ofList bytes → read? l = none := by
      intro l hl
      refine if_neg fun h => ?_
      have := (bounds_of_integrity h.2).2.1
      simp only [ofList, ofBytes, hl] at this
      omega
    rw [invalid _ heq, invalid _ rfl]
  · have same : ofList (bytes.take k ++ tail) = ofList bytes := by
      simp only [minSize, headerSize, crcSize] at short header
      unfold ofList
      rw [heq]
      unfold ofBytes
      rw [Bytes.ofListPadded_take_append tail (by simp only [minSize, headerSize, crcSize]; omega)
          enough,
        Bytes.ofListPadded_take_append tail (by simp only [crcSize]; omega) enough]
    unfold read?
    rw [same]
    have fits : (ofList bytes).length.toNat ≤ (bytes.take k ++ tail).length := by
      simp only [List.length_append, List.length_take, Nat.min_eq_left enough]
      exact Nat.le_trans length (Nat.le_add_right k _)
    have fits' : (ofList bytes).length.toNat ≤ bytes.length := Nat.le_trans length enough
    simp only [fits, fits']

/-! ## Stored form -/

/-- The bytes of a record before its length, its counter, its payload and its checksum. -/
theorem toList_encode (r : Record) :
    r.encode.toList =
      (Bytes.ofNat 4 r.magic.toNat).toList ++ ((Bytes.ofNat 2 r.length.toNat).toList ++
        ((Bytes.ofNat 2 r.counter.toNat).toList ++ (r.payload.toList ++
          (Bytes.ofNat 2 r.crc.toNat).toList))) := by
  simp only [encode, Vector.toList_append, List.append_assoc]

@[simp] theorem length_toList_encode (r : Record) : r.encode.toList.length = size :=
  Vector.length_toList

@[simp] theorem take_size_encode (r : Record) : r.encode.toList.take size = r.encode.toList :=
  List.take_of_length_le (Nat.le_of_eq r.length_toList_encode)

/-- The header of a record is found again. -/
theorem headerOfList_encode (r : Record) (tail : List UInt8) :
    Header.ofList (r.encode.toList ++ tail) = r.toHeader := by
  obtain ⟨bytes, split⟩ : ∃ bytes, bytes = r.encode.toList ++ tail := ⟨_, rfl⟩
  rw [← split]
  rw [toList_encode] at split
  simp only [List.append_assoc] at split
  have magic : (Bytes.ofListPadded 4 (bytes.drop 0)).toNat = r.magic.toNat :=
    @Bytes.toNat_ofListPadded_drop_of_split 4 _ bytes [] _ split 0 rfl r.magic.toNat_lt
  have length : (Bytes.ofListPadded 2 (bytes.drop 4)).toNat = r.length.toNat :=
    Bytes.toNat_ofListPadded_drop_of_split split rfl r.length.toNat_lt
  rw [← List.append_assoc] at split
  have counter : (Bytes.ofListPadded 2 (bytes.drop 6)).toNat = r.counter.toNat :=
    Bytes.toNat_ofListPadded_drop_of_split split rfl r.counter.toNat_lt
  simp only [Header.ofList, Header.decode, Bytes.field_ofListPadded, magic, length, counter]
  simp

/-- A record in the current format is found again. -/
theorem ofList_encode {r : Record} (h : r.length.toNat = size) (tail : List UInt8) :
    ofList (r.encode.toList ++ tail) = r := by
  rw [ofList, headerOfList_encode]
  obtain ⟨bytes, split⟩ : ∃ bytes, bytes = r.encode.toList ++ tail := ⟨_, rfl⟩
  rw [← split]
  rw [toList_encode] at split
  simp only [List.append_assoc] at split
  rw [← List.append_assoc, ← List.append_assoc] at split
  have payload : Settings.completeImage
      (Bytes.ofListPadded (r.length.toNat - minSize) (bytes.drop headerSize)) = r.payload := by
    have field : Bytes.ofListPadded Settings.imageSize (bytes.drop headerSize) = r.payload :=
      Bytes.ofListPadded_drop_of_split split rfl
    rw [h]
    show Settings.completeImage (Bytes.ofListPadded Settings.imageSize _) = r.payload
    rw [field, Settings.completeImage_image]
  rw [← List.append_assoc] at split
  have crc : (Bytes.ofListPadded crcSize (bytes.drop (size - crcSize))).toNat = r.crc.toNat :=
    Bytes.toNat_ofListPadded_drop_of_split split (by simp [size, headerSize, crcSize, Settings.imageSize]) r.crc.toNat_lt
  simp only [ofBytes, payload, h, crc]
  simp

/-- A record in the current format is read again if its checksum is right. -/
theorem read?_encode {r : Record} (h : r.integrity = .current) (tail : List UInt8) :
    read? (r.encode.toList ++ tail) = some r := by
  have length := (integrity_eq_current.1 h).2.1
  unfold read?
  rw [ofList_encode length tail]
  exact if_pos ⟨by simp [length], by simp [h]⟩

/-- A record that is read is stored as its header, its payload and its checksum. -/
theorem toList_encode_ofList {bytes : List UInt8} (enough : 8 ≤ bytes.length) :
    (ofList bytes).encode.toList = bytes.take 8 ++
      ((ofList bytes).payload.toList ++ (Bytes.ofNat 2 (ofList bytes).crc.toNat).toList) := by
  have word : ∀ {start width : Nat}, start + width ≤ 8 →
      (Bytes.ofNat width (Bytes.ofListPadded width (bytes.drop start)).toNat).toList =
        (bytes.drop start).take width :=
    fun h => Bytes.toList_ofNat_toNat (Nat.le_trans h enough)
  have magic : (ofList bytes).magic.toNat = (Bytes.ofListPadded 4 (bytes.drop 0)).toNat := by
    simp only [ofList, ofBytes, Header.ofList, Header.decode, Bytes.field_ofListPadded,
      Bytes.toNat_toUInt32]
  have total : (ofList bytes).length.toNat = (Bytes.ofListPadded 2 (bytes.drop 4)).toNat := by
    simp only [ofList, ofBytes, Header.ofList, Header.decode, Bytes.field_ofListPadded,
      Bytes.toNat_toUInt16]
  have counter : (ofList bytes).counter.toNat = (Bytes.ofListPadded 2 (bytes.drop 6)).toNat := by
    simp only [ofList, ofBytes, Header.ofList, Header.decode, Bytes.field_ofListPadded,
      Bytes.toNat_toUInt16]
  have parts : bytes.take 8 = bytes.take 4 ++ ((bytes.drop 4).take 2 ++ (bytes.drop 6).take 2) := by
    rw [show 8 = 4 + (2 + 2) from rfl, List.take_add, List.take_add, List.drop_drop]
  rw [toList_encode, magic, total, counter, word (by omega), word (by omega), word (by omega),
    List.drop_zero, parts, List.append_assoc, List.append_assoc]

/-- The stored payload of a record is what it is read from. -/
theorem take_payload_ofList {bytes : List UInt8} {n : Nat}
    (length : (Header.ofList bytes).length.toNat = n + 10) (high : n ≤ 31)
    (enough : n + 8 ≤ bytes.length) :
    (ofList bytes).payload.toList.take n = (bytes.drop 8).take n := by
  apply List.ext_getElem
  · simp only [List.length_take, Vector.length_toList, List.length_drop, Settings.imageSize]
    omega
  · intro i hi _
    rw [List.length_take, Vector.length_toList] at hi
    have stored : i < (Header.ofList bytes).length.toNat - minSize := by
      rw [length]
      exact Nat.lt_of_lt_of_le hi (Nat.min_le_left _ _)
    have inside : 8 + i < bytes.length := by omega
    simp only [ofList, ofBytes, List.getElem_take, Vector.getElem_toList, Settings.completeImage,
      Vector.getElem_ofFn, dif_pos stored, Bytes.getElem_ofListPadded, List.getElem_drop]
    rw [List.getD_eq_getElem?_getD, List.getElem?_drop, List.getElem?_eq_getElem inside,
      Option.getD_some]

/-- The checksum of a record that is read covers the bytes before it. -/
theorem calculateCrc_ofList {bytes : List UInt8} {n : Nat}
    (length : (Header.ofList bytes).length.toNat = n + 10) (high : n ≤ 31)
    (enough : n + 8 ≤ bytes.length) :
    (ofList bytes).calculateCrc = Crc16.checksum (bytes.take (8 + n)) := by
  have covered : (ofList bytes).coveredSize = 8 + n := by
    unfold coveredSize
    show min (max (Header.ofList bytes).length.toNat 10) 41 - 2 = _
    rw [length]
    omega
  have header : (bytes.take 8).length = 8 := List.length_take_of_le (by omega)
  have payload : n ≤ (ofList bytes).payload.toList.length := by rwa [Vector.length_toList]
  have front : (ofList bytes).encode.toList.take (8 + n) = bytes.take (8 + n) := by
    rw [toList_encode_ofList (by omega), List.take_append, header, Nat.add_sub_cancel_left,
      List.take_of_length_le (by rw [header]; omega),
      List.take_append_of_le_length payload, take_payload_ofList length high enough,
      ← List.take_add]
  rw [calculateCrc, covered, front]

/-- The stored form of a record is the bytes that it is read from. -/
theorem encode_ofList {bytes : List UInt8} (length : (Header.ofList bytes).length.toNat = size)
    (enough : bytes.length = size) : (ofList bytes).encode.toList = bytes := by
  rw [size_eq] at enough
  have payload : (ofList bytes).payload.toList = (bytes.drop 8).take 31 := by
    have stored := take_payload_ofList (n := 31) length (Nat.le_refl _) (by omega)
    rwa [List.take_of_length_le (Nat.le_of_eq Vector.length_toList)] at stored
  have crc : (ofList bytes).crc.toNat = (Bytes.ofListPadded 2 (bytes.drop 39)).toNat := by
    simp only [ofList, ofBytes, length, Bytes.toNat_toUInt16]
    rfl
  have rest : (bytes.drop 39).take 2 = bytes.drop 39 :=
    List.take_of_length_le (by rw [List.length_drop]; omega)
  have behind : bytes.drop 39 = (bytes.drop 8).drop 31 := by rw [List.drop_drop]
  rw [toList_encode_ofList (by omega), payload, crc, Bytes.toList_ofNat_toNat (by omega), rest,
    behind, List.take_append_drop, List.take_append_drop]

/-- Bytes with a wrong checksum are no record. -/
theorem read?_eq_none_of_crc {bytes : List UInt8}
    (length : (Header.ofList bytes).length.toNat = size) (enough : bytes.length = size)
    (crc : (Bytes.listToNat (bytes.drop 39)).toUInt16 ≠ Crc16.checksum (bytes.take 39)) :
    read? bytes = none := by
  refine if_neg fun valid => valid.2 ?_
  have stored : (ofList bytes).crc = (Bytes.listToNat (bytes.drop 39)).toUInt16 := by
    have rest : (bytes.drop 39).take 2 = bytes.drop 39 :=
      List.take_of_length_le (Nat.le_of_eq (by rw [List.length_drop, enough, size_eq]))
    simp only [ofList, ofBytes, length, Bytes.toNat]
    rw [Bytes.toList_ofListPadded (by rw [List.length_drop, enough]; decide)]
    exact congrArg (fun l => (Bytes.listToNat l).toUInt16) rest
  have covered : (ofList bytes).coveredSize = 39 := by
    unfold coveredSize
    show min (max (Header.ofList bytes).length.toNat minSize) size - crcSize = 39
    rw [length]
    rfl
  have wrong : (ofList bytes).crc ≠ (ofList bytes).calculateCrc := by
    rw [calculateCrc, covered, encode_ofList length enough, stored]
    exact crc
  unfold integrity
  rw [if_pos wrong, ite_self, ite_self]

/-! ## Sealing -/

/-- The checksum covers no byte of itself. -/
theorem calculateCrc_of_crc (r : Record) (crc : UInt16) :
    calculateCrc { r with crc } = r.calculateCrc := by
  have covered : r.coveredSize ≤ 39 := by
    unfold coveredSize
    simp only [size, headerSize, Settings.imageSize, crcSize]
    omega
  have front : ∀ s : Record, s.encode.toList.take 39 =
      (Bytes.ofNat 4 s.magic.toNat).toList ++ ((Bytes.ofNat 2 s.length.toNat).toList ++
        ((Bytes.ofNat 2 s.counter.toNat).toList ++ s.payload.toList)) := by
    intro s
    rw [toList_encode]
    simp only [← List.append_assoc]
    exact List.take_left' (by simp [Settings.imageSize])
  unfold calculateCrc
  have : ∀ s : Record, s.encode.toList.take r.coveredSize =
      (s.encode.toList.take 39).take r.coveredSize := by
    intro s
    rw [List.take_take, Nat.min_eq_left covered]
  show Crc16.checksum ((encode { r with crc }).toList.take r.coveredSize) = _
  rw [this { r with crc }, this r, front, front]

theorem calculateCrc_sealed (r : Record) : r.sealed.calculateCrc = r.calculateCrc :=
  r.calculateCrc_of_crc r.calculateCrc

/-- A sealed record is valid. -/
theorem integrity_sealed {r : Record} (magic : r.magic = magicWord)
    (length : r.length = size.toUInt16) : r.sealed.integrity = .current := by
  refine integrity_eq_current.2 ⟨magic, ?_, (calculateCrc_sealed r).symm⟩
  show r.length.toNat = size
  rw [length]
  rfl

theorem integrity_default : default.integrity = .current :=
  integrity_sealed rfl rfl

theorem integrity_refresh {r : Record} (h : r.magic = magicWord) (payload : Settings.Image) :
    (r.refresh payload).integrity = .current :=
  integrity_sealed h rfl

/-! ## Torn records -/

/-- What is left of a record on erased bytes after only its first `t` bytes are written. -/
def torn (r : Record) (t : Nat) : List UInt8 :=
  r.encode.toList.take t ++ erasedBytes (size - t)

/-- No part of the record passes for a record, apart from the record itself. -/
def DetectsTears (r : Record) : Prop :=
  ∀ t, read? (r.torn t) = none ∨ r.torn t = r.encode.toList

@[simp] theorem length_torn (r : Record) (t : Nat) : (r.torn t).length = size := by
  simp only [torn, List.length_append, List.length_take, length_toList_encode, length_erasedBytes]
  omega

theorem torn_of_le (r : Record) {t : Nat} (h : size ≤ t) : r.torn t = r.encode.toList := by
  rw [torn, List.take_of_length_le (by rwa [length_toList_encode]), Nat.sub_eq_zero_of_le h]
  exact List.append_nil _

/-- The magic word and the length of every record in the current format. -/
def preamble : List UInt8 := [0x4F, 0x50, 0x4E, 0x58, 0x29, 0x00]

theorem take_encode {r : Record} (h : r.integrity = .current) :
    r.encode.toList.take peekSize = preamble := by
  obtain ⟨magic, length, -⟩ := integrity_eq_current.1 h
  rw [toList_encode, ← List.append_assoc, magic, length]
  exact List.take_left' rfl

/-- The start of a torn record is a part of the preamble. -/
theorem take_torn {r : Record} (h : r.integrity = .current) (t : Nat) :
    (r.torn t).take peekSize = preamble.take t ++ erasedBytes (peekSize - t) := by
  have bytes := length_toList_encode r
  rw [torn, List.take_append, List.take_take, Nat.min_comm, ← List.take_take, take_encode h,
    take_erasedBytes]
  simp only [List.length_take, bytes, size_eq, peekSize]
  congr 2
  omega

/-- The header of a torn record is read off its part of the preamble. -/
theorem headerOfList_torn {r : Record} (h : r.integrity = .current) (t : Nat)
    (tail : List UInt8) :
    let start := preamble.take t ++ erasedBytes (peekSize - t)
    (Header.ofList (r.torn t ++ tail)).magic = (Bytes.listToNat (start.take 4)).toUInt32 ∧
      (Header.ofList (r.torn t ++ tail)).length = (Bytes.listToNat (start.drop 4)).toUInt16 := by
  have long : 6 ≤ (r.torn t).length := by
    rw [length_torn, size_eq]
    omega
  have long' : 6 ≤ (r.torn t ++ tail).length := by
    rw [List.length_append]
    omega
  rw [Header.magic_ofList long', Header.length_ofList long', List.take_append_of_le_length long,
    take_torn h]
  exact ⟨rfl, rfl⟩

/-- A record torn within its magic word is neither a record nor erased. -/
theorem magic_torn_of_lt {r : Record} (h : r.integrity = .current) {t : Nat} (pos : 0 < t)
    (ht : t < 4) (tail : List UInt8) :
    (Header.ofList (r.torn t ++ tail)).magic ≠ magicWord ∧
      (Header.ofList (r.torn t ++ tail)).magic ≠ Volume.erasedWord := by
  have parts : ∀ t < 4, 0 < t →
      let magic := Bytes.listToNat ((preamble.take t ++ erasedBytes (peekSize - t)).take 4)
      magic.toUInt32 ≠ magicWord ∧ magic.toUInt32 ≠ Volume.erasedWord := by
    decide
  rw [(headerOfList_torn h t tail).1]
  exact parts t ht pos

/-- A record torn behind its magic word has its own length, or a length that no record has. -/
theorem header_torn_of_le {r : Record} (h : r.integrity = .current) {t : Nat} (low : 4 ≤ t)
    (tail : List UInt8) :
    let header := Header.ofList (r.torn t ++ tail)
    header.magic = magicWord ∧
      ((6 ≤ t ∧ header.length.toNat = size) ∨ (t < 6 ∧ size < header.length.toNat)) := by
  have parts : ∀ t < 7, 4 ≤ t →
      let start := preamble.take t ++ erasedBytes (peekSize - t)
      (Bytes.listToNat (start.take 4)).toUInt32 = magicWord ∧
        ((6 ≤ t ∧ (Bytes.listToNat (start.drop 4)).toUInt16.toNat = size) ∨
          (t < 6 ∧ size < (Bytes.listToNat (start.drop 4)).toUInt16.toNat)) := by
    decide
  obtain ⟨magic, length⟩ := headerOfList_torn h t tail
  simp only [magic, length]
  by_cases whole : t < 7
  · exact parts t whole low
  · have same : preamble.take t ++ erasedBytes (peekSize - t) =
        preamble.take 6 ++ erasedBytes (peekSize - 6) := by
      rw [List.take_of_length_le (by simp only [preamble, List.length_cons, List.length_nil]; omega),
        Nat.sub_eq_zero_of_le (by simp only [peekSize]; omega)]
      rfl
    obtain ⟨magic, length⟩ := parts 6 (by omega) (by omega)
    rw [same]
    refine ⟨magic, ?_⟩
    rcases length with ⟨-, length⟩ | ⟨short, -⟩
    · exact .inl ⟨by omega, length⟩
    · omega

/-- Where tears are detected, a torn record that is not whole cannot be read. -/
theorem DetectsTears.read?_torn {r : Record} (tears : r.DetectsTears)
    (h : r.integrity = .current) {t : Nat} (low : 4 ≤ t)
    (part : r.torn t ≠ r.encode.toList) (tail : List UInt8) : read? (r.torn t ++ tail) = none := by
  have length := length_torn r t
  rcases (header_torn_of_le h low tail).2 with ⟨whole, -⟩ | ⟨-, long⟩
  · -- the length is intact, so that nothing behind the record is read
    have same : (Header.ofList (r.torn t)).length.toNat ≤ size := by
      have header := (header_torn_of_le h low []).2
      rw [List.append_nil] at header
      rcases header with ⟨-, same⟩ | ⟨short, -⟩
      · exact Nat.le_of_eq same
      · omega
    have none := (tears t).resolve_right part
    rw [← none, ← read?_take_append (k := size) tail (by decide) same
      (Nat.le_of_eq length.symm), List.take_of_length_le (Nat.le_of_eq length)]
  · refine if_neg fun valid => ?_
    have := (bounds_of_integrity valid.2).2.2
    exact absurd this (Nat.not_le.2 long)

/-- Tears are detected if no part of the record but the record itself has the right checksum. -/
theorem detectsTears_of_crc {r : Record} (h : r.integrity = .current)
    (crc : ∀ t < size, 6 ≤ t →
      (Bytes.listToNat ((r.torn t).drop 39)).toUInt16 ≠ Crc16.checksum ((r.torn t).take 39) ∨
        r.torn t = r.encode.toList) : r.DetectsTears := by
  intro t
  have length := length_torn r t
  by_cases part : size ≤ t
  · exact .inr (r.torn_of_le part)
  by_cases low : 4 ≤ t
  · have header := (header_torn_of_le h low []).2
    rw [List.append_nil] at header
    rcases header with ⟨high, same⟩ | ⟨-, long⟩
    · rcases crc t (Nat.lt_of_not_le part) high with wrong | whole
      · exact .inl (read?_eq_none_of_crc same length wrong)
      · exact .inr whole
    · refine .inl (if_neg fun valid => ?_)
      exact absurd (bounds_of_integrity valid.2).2.2 (Nat.not_le.2 long)
  · refine .inl (if_neg fun valid => ?_)
    have magic := (bounds_of_integrity valid.2).1
    rcases Nat.eq_zero_or_pos t with rfl | pos
    · have erased := (headerOfList_torn h 0 []).1
      rw [List.append_nil] at erased
      exact absurd (erased.symm.trans magic) (by decide)
    · have other := (magic_torn_of_lt h pos (Nat.lt_of_not_le low) []).1
      rw [List.append_nil] at other
      exact other magic

end Record

end TwinLog
