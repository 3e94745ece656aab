-- SUMMARY: What volumes hold on a medium, and what accesses to them do.
import Mathlib.Data.List.GetD
import TwinLog.Log.Append
import TwinLog.Proofs.Medium

/-! # Volumes on media

`Volume.content` is the list of bytes that a volume holds. Writes and resets of a volume are laws
on that list (`content_written`, `content_wiped`), and leave the content of disjoint volumes as it
is. `Server.Holds` says that a volume reads back as given bytes. -/

namespace TwinLog

open Volume (erasedBytes)

/-! ## Lists of bytes -/

/-- The bytes after `new` is programmed over them from an offset on. -/
def overlay (mode : Sim.Programming) (bytes : List UInt8) (offset : Nat) (new : List UInt8) :
    List UInt8 :=
  bytes.mapIdx fun i byte =>
    if offset ≤ i ∧ i < offset + new.length then mode.apply byte (new.getD (i - offset) 0)
    else byte

@[simp] theorem length_overlay (mode : Sim.Programming) (bytes : List UInt8) (offset : Nat)
    (new : List UInt8) : (overlay mode bytes offset new).length = bytes.length := by
  simp [overlay]

@[simp] theorem length_erasedBytes (length : Nat) : (erasedBytes length).length = length := by
  simp [erasedBytes]

theorem erasedBytes_append (m n : Nat) : erasedBytes m ++ erasedBytes n = erasedBytes (m + n) :=
  List.replicate_append_replicate

theorem take_erasedBytes (n length : Nat) :
    (erasedBytes length).take n = erasedBytes (min n length) :=
  List.take_replicate

theorem drop_erasedBytes (n length : Nat) :
    (erasedBytes length).drop n = erasedBytes (length - n) :=
  List.drop_replicate

/-- Lists of bytes that agree at each offset are the same. -/
theorem eq_of_getD {bytes bytes' : List UInt8} (length : bytes.length = bytes'.length)
    (h : ∀ p < bytes.length, bytes.getD p 0 = bytes'.getD p 0) : bytes = bytes' := by
  apply List.ext_getElem length
  intro p hp hp'
  have same := h p hp
  rwa [List.getD_eq_getElem?_getD, List.getD_eq_getElem?_getD, List.getElem?_eq_getElem hp,
    List.getElem?_eq_getElem hp'] at same

theorem getD_take {bytes : List UInt8} {n p : Nat} (h : p < n) :
    (bytes.take n).getD p 0 = bytes.getD p 0 := by
  rw [List.getD_eq_getElem?_getD, List.getElem?_take_of_lt h, ← List.getD_eq_getElem?_getD]

theorem getD_drop (bytes : List UInt8) (n p : Nat) :
    (bytes.drop n).getD p 0 = bytes.getD (n + p) 0 := by
  rw [List.getD_eq_getElem?_getD, List.getElem?_drop, ← List.getD_eq_getElem?_getD]

/-- A byte is programmed exactly where it overwrites or meets an erased byte. -/
theorem Sim.Programming.apply_erased (mode : Sim.Programming) (byte : UInt8) :
    mode.apply 0xFF byte = byte := by
  cases mode with
  | overwrite => rfl
  | clearBits =>
    apply UInt8.toBitVec_inj.1
    exact BitVec.allOnes_and

section Overlay

variable {mode : Sim.Programming} {bytes new : List UInt8} {offset k : Nat}

theorem take_overlay (h : k ≤ offset) : (overlay mode bytes offset new).take k = bytes.take k := by
  apply List.ext_getElem
  · simp
  · intro p hp _
    rw [List.length_take] at hp
    simp only [List.getElem_take, overlay, List.getElem_mapIdx]
    exact if_neg fun inside => by omega

theorem drop_overlay (h : offset + new.length ≤ k) :
    (overlay mode bytes offset new).drop k = bytes.drop k := by
  apply List.ext_getElem
  · simp
  · intro p _ _
    simp only [List.getElem_drop, overlay, List.getElem_mapIdx]
    exact if_neg fun inside => by omega

theorem getD_overlay {p : Nat} (room : offset + new.length ≤ bytes.length) (h : p < new.length) :
    (overlay mode bytes offset new).getD (offset + p) 0 =
      mode.apply (bytes.getD (offset + p) 0) (new.getD p 0) := by
  have inside : offset + p < bytes.length := by omega
  rw [List.getD_eq_getElem?_getD, List.getD_eq_getElem?_getD,
    List.getElem?_eq_getElem (by rwa [length_overlay]), List.getElem?_eq_getElem inside,
    Option.getD_some, Option.getD_some]
  simp only [overlay, List.getElem_mapIdx]
  rw [if_pos ⟨Nat.le_add_right _ _, Nat.add_lt_add_left h _⟩, Nat.add_sub_cancel_left]

end Overlay

/-- New bytes replace the old ones where these are overwritten or erased. -/
theorem overlay_eq {mode : Sim.Programming} {bytes new : List UInt8} {offset : Nat}
    (room : offset + new.length ≤ bytes.length)
    (clear : mode = .overwrite ∨
      (bytes.drop offset).take new.length = erasedBytes new.length) :
    overlay mode bytes offset new =
      bytes.take offset ++ new ++ bytes.drop (offset + new.length) := by
  apply List.ext_getElem
  · simp
    omega
  · intro i hi _
    simp only [overlay, List.getElem_mapIdx] at hi ⊢
    by_cases before : i < offset
    · rw [if_neg (by omega), List.getElem_append_left (by simp; omega),
        List.getElem_append_left (by simp; omega), List.getElem_take]
    · by_cases behind : offset + new.length ≤ i
      · rw [if_neg (by omega), List.getElem_append_right (by simp; omega), List.getElem_drop]
        congr 1
        simp
        omega
      · have inside : i - offset < new.length := by omega
        rw [if_pos (by omega), List.getElem_append_left (by simp; omega),
          List.getElem_append_right (by simp; omega)]
        simp only [List.length_take, Nat.min_eq_left (by omega : offset ≤ bytes.length)]
        rw [List.getD_eq_getElem?_getD, List.getElem?_eq_getElem inside, Option.getD_some]
        -- programming an erased byte gives the new one, also where bits can only be cleared
        rcases clear with rfl | erased
        · rfl
        · have byte : bytes[i] = 0xFF := by
            have := List.getElem_of_eq erased (i := i - offset) (by simp; omega)
            simp only [List.getElem_take, List.getElem_drop, erasedBytes,
              List.getElem_replicate] at this
            rw [← this]
            congr 1
            omega
          rw [byte, Sim.Programming.apply_erased]

/-! ## Content -/

namespace Volume

variable (v : Volume) (hw : Hardware) (m : Medium)

/-- What the volume holds. -/
def content : List UInt8 :=
  (List.range v.size).map fun i => m v.device (v.start + i)

/-- The medium after bytes are written at an offset of the volume. -/
def written (offset : Nat) (bytes : List UInt8) : Medium :=
  m.program (hw v.device).programming v.device (v.start + offset) bytes

/-- The medium after the first `length` bytes of the volume are reset. -/
def wiped (length : Nat) : Medium :=
  m.reset v.device v.start length

/-- Two volumes that share no byte. -/
def Disjoint (v w : Volume) : Prop :=
  v.device ≠ w.device ∨ v.start + v.size ≤ w.start ∨ w.start + w.size ≤ v.start

@[simp] theorem length_content : (v.content m).length = v.size := by
  simp [content]

@[simp] theorem getElem_content (i : Nat) (h : i < (v.content m).length) :
    (v.content m)[i] = m v.device (v.start + i) := by
  simp [content]

theorem Disjoint.symm {v w : Volume} (h : v.Disjoint w) : w.Disjoint v := by
  rcases h with h | h | h
  · exact .inl (Ne.symm h)
  · exact .inr (.inr h)
  · exact .inr (.inl h)

/-- A write is an overlay of the content. -/
theorem content_written (offset : Nat) (bytes : List UInt8) :
    v.content (v.written hw m offset bytes) =
      overlay (hw v.device).programming (v.content m) offset bytes := by
  apply List.ext_getElem
  · simp
  · intro i _ _
    simp only [getElem_content, overlay, List.getElem_mapIdx, written, Medium.program, true_and]
    by_cases h : offset ≤ i ∧ i < offset + bytes.length
    · rw [if_pos (by omega), if_pos h]
      congr 2
      omega
    · rw [if_neg (by omega), if_neg h]

/-- A reset replaces the first bytes by ones. -/
theorem content_wiped {length : Nat} (h : length ≤ v.size) :
    v.content (v.wiped m length) = erasedBytes length ++ (v.content m).drop length := by
  apply List.ext_getElem
  · simp
    omega
  · intro i hi _
    simp only [getElem_content, wiped, Medium.reset, true_and]
    by_cases inside : i < length
    · rw [if_pos (by omega), List.getElem_append_left (by simpa using inside)]
      simp [erasedBytes]
    · rw [if_neg (by omega), List.getElem_append_right (by simp; omega), List.getElem_drop]
      simp only [length_erasedBytes, getElem_content]
      congr 1
      omega

theorem content_wiped_size : v.content (v.wiped m v.size) = erasedBytes v.size := by
  rw [content_wiped v m (Nat.le_refl _), List.drop_of_length_le (by simp), List.append_nil]

variable {v hw m} {w : Volume}

/-- A write keeps what a disjoint volume holds. -/
theorem content_written_of_disjoint {offset : Nat} {bytes : List UInt8} (h : v.Disjoint w)
    (inside : offset + bytes.length ≤ v.size) :
    w.content (v.written hw m offset bytes) = w.content m := by
  apply List.ext_getElem
  · simp
  · intro i hi _
    simp only [length_content] at hi
    simp only [getElem_content, written, Medium.program]
    refine if_neg fun ⟨device, address⟩ => ?_
    rcases h with h | h
    · exact h device.symm
    · omega

/-- A reset keeps what a disjoint volume holds. -/
theorem content_wiped_of_disjoint {length : Nat} (h : v.Disjoint w) (inside : length ≤ v.size) :
    w.content (v.wiped m length) = w.content m := by
  apply List.ext_getElem
  · simp
  · intro i hi _
    simp only [length_content] at hi
    simp only [getElem_content, wiped, Medium.reset]
    refine if_neg fun ⟨device, address⟩ => ?_
    rcases h with h | h
    · exact h device.symm
    · omega

/-- A read returns a part of the content. -/
theorem read_eq_content {offset length : Nat} (inside : offset + length ≤ v.size) :
    m.read v.device (v.start + offset) length =
      Bytes.ofListPadded length ((v.content m).drop offset) := by
  apply Vector.ext
  intro i hi
  simp only [Medium.read, Vector.getElem_ofFn, Bytes.getElem_ofListPadded]
  rw [List.getD_eq_getElem?_getD, List.getElem?_eq_getElem (by simp; omega), Option.getD_some,
    List.getElem_drop, getElem_content, Nat.add_assoc]

end Volume

/-! ## Accesses -/

/-- Reads of a volume return its bytes and change nothing. -/
structure Server.Holds {σ : Type} (server : Server Bus σ) (v : Volume) (s : σ)
    (bytes : List UInt8) : Prop where
  length_eq : bytes.length = v.size
  addressable : v.start + v.size ≤ addressSpace
  breaks : ∀ address length t, server.breaks ⟨v.device, .read address length⟩ s t → t = s
  replies : ∀ offset length reply t, offset < v.size → offset + length ≤ v.size →
    server.replies ⟨v.device, .read (v.start + offset).toUInt32 length⟩ s reply t →
      reply = .ok (.ofListPadded length (bytes.drop offset)) ∧ t = s

namespace Volume

variable {v : Volume}

/-- The address of an access within the volume. -/
theorem locate_eq_ok {offset length : Nat} (addressable : v.start + v.size ≤ addressSpace)
    (start : offset < v.size) (inside : offset + length ≤ v.size) :
    v.locate offset length = .ok (v.start + offset).toUInt32 :=
  if_pos ⟨inside, by omega⟩

theorem toNat_address {offset : Nat} (addressable : v.start + v.size ≤ addressSpace)
    (start : offset < v.size) : (v.start + offset).toUInt32.toNat = v.start + offset := by
  simp only [addressSpace, UInt32.size] at addressable
  simp [Nat.toUInt32]
  omega

/-- The address of an access that is aligned. -/
theorem locateAligned_eq_ok {unit : UInt64} {offset length : Nat}
    (addressable : v.start + v.size ≤ addressSpace) (start : offset < v.size)
    (inside : offset + length ≤ v.size) (address : (v.start + offset) % unit.toNat = 0)
    (whole : length % unit.toNat = 0) :
    v.locateAligned (some unit) offset length = .ok (v.start + offset).toUInt32 := by
  unfold locateAligned
  rw [locate_eq_ok addressable start inside]
  refine if_pos ⟨?_, whole⟩
  rwa [toNat_address addressable start]

/-- Without a granularity there is no access. -/
theorem locateAligned_none {offset length : Nat} (addressable : v.start + v.size ≤ addressSpace)
    (start : offset < v.size) (inside : offset + length ≤ v.size) :
    v.locateAligned none offset length = .error .notSupported := by
  unfold locateAligned
  rw [locate_eq_ok addressable start inside]
  rfl

/-- A read within the volume reaches the device. -/
theorem read_eq {offset length : Nat} (addressable : v.start + v.size ≤ addressSpace)
    (start : offset < v.size) (inside : offset + length ≤ v.size) :
    v.read offset length = v.device.perform (.read (v.start + offset).toUInt32 length) := by
  unfold read
  rw [locate_eq_ok addressable start inside]
  rfl

/-- A write at byte granularity reaches the device. -/
theorem write_eq {offset : Nat} {bytes : List UInt8}
    (addressable : v.start + v.size ≤ addressSpace) (unit : v.geometry.writeSize = some 1)
    (start : offset < v.size) (inside : offset + bytes.length ≤ v.size) :
    v.write offset bytes = v.device.perform (.write (v.start + offset).toUInt32 bytes) := by
  unfold write
  rw [unit, locateAligned_eq_ok addressable start inside (Nat.mod_one _) (Nat.mod_one _)]
  rfl

/-- The address of the whole volume. -/
theorem toNat_start (below : v.start < addressSpace) : v.start.toUInt32.toNat = v.start :=
  UInt32.toNat_ofNat_of_lt' below

/-- The whole volume is located where it starts, also if it is empty. -/
theorem locate_whole (below : v.start < addressSpace) :
    v.locate 0 v.size = .ok v.start.toUInt32 :=
  if_pos ⟨Nat.le_of_eq (Nat.zero_add _), below⟩

/-- An erase of the whole volume in units reaches the device. -/
theorem erase_whole {unit : UInt64} (below : v.start < addressSpace)
    (granularity : v.geometry.eraseSize = some unit) (start : v.start % unit.toNat = 0)
    (whole : v.size % unit.toNat = 0) :
    v.erase 0 v.size = v.device.perform (.erase v.start.toUInt32 v.size) := by
  unfold erase locateAligned
  rw [granularity, locate_whole below]
  simp only [bind, Except.bind, toNat_start below, start, whole, and_self, ↓reduceIte]
  rfl

/-- Without an erase granularity, an erase of the whole volume does not reach the device. -/
theorem erase_whole_none (below : v.start < addressSpace)
    (granularity : v.geometry.eraseSize = none) : v.erase 0 v.size = throw .notSupported := by
  unfold erase locateAligned
  rw [granularity, locate_whole below]
  rfl

theorem erase_eq {unit : UInt64} (addressable : v.start + v.size ≤ addressSpace)
    (nonempty : 0 < v.size) (granularity : v.geometry.eraseSize = some unit)
    (start : v.start % unit.toNat = 0) (whole : v.size % unit.toNat = 0) :
    v.erase 0 v.size = v.device.perform (.erase v.start.toUInt32 v.size) :=
  erase_whole (by omega) granularity start whole

theorem erase_of_none (addressable : v.start + v.size ≤ addressSpace) (nonempty : 0 < v.size)
    (granularity : v.geometry.eraseSize = none) : v.erase 0 v.size = throw .notSupported :=
  erase_whole_none (by omega) granularity

/-- Reading a volume that holds its bytes. -/
theorem wp_read {σ : Type} {server : Server Bus σ} {s : σ} {bytes : List UInt8}
    (h : server.Holds v s bytes) {offset length : Nat} (start : offset < v.size)
    (inside : offset + length ≤ v.size) {ok : Bytes length → σ → Prop}
    {err : Error → σ → Prop} {crash : σ → Prop}
    (hok : ok (.ofListPadded length (bytes.drop offset)) s) (hcrash : crash s) :
    Access.wp server (v.read offset length) ok err crash s := by
  rw [read_eq h.addressable start inside, Access.wp_perform]
  constructor
  · intro t ht
    rwa [h.breaks _ _ t ht]
  · intro reply t ht
    obtain ⟨rfl, rfl⟩ := h.replies offset length reply t start inside ht
    exact hok

variable {hw : Hardware} {trouble : Trouble} {m : Medium} {ok : Unit → Medium → Prop}
  {err : Error → Medium → Prop} {crash : Medium → Prop}

/-- Devices without read trouble hold what is on the medium. -/
theorem server_holds (addressable : v.start + v.size ≤ addressSpace)
    (reads : trouble .read = none) : (hw.server trouble).Holds v m (v.content m) where
  length_eq := length_content v m
  addressable := addressable
  breaks := by
    rintro address length t ⟨bytes, rfl⟩
    rfl
  replies := by
    intro offset length reply t start inside h
    simp only [Hardware.server, Hardware.answerIn, Operation.kind, reads, Hardware.answer,
      Prod.mk.injEq] at h
    rw [toNat_address addressable start, read_eq_content inside] at h
    exact h

/-- Writing bytes at byte granularity. -/
theorem wp_write {offset : Nat} {bytes : List UInt8}
    (addressable : v.start + v.size ≤ addressSpace) (unit : v.geometry.writeSize = some 1)
    (start : offset < v.size) (inside : offset + bytes.length ≤ v.size)
    (hok : trouble .write = none → ok () (v.written hw m offset bytes))
    (herr : ∀ failure, trouble .write = some failure →
      err (.device failure.fault) (v.written hw m offset (bytes.take failure.bytes)))
    (hcrash : ∀ n, crash (v.written hw m offset (bytes.take n))) :
    Access.wp (hw.server trouble) (v.write offset bytes) ok err crash m := by
  rw [write_eq addressable unit start inside, Access.wp_perform]
  have address := toNat_address addressable start
  constructor
  · rintro t ⟨n, rfl⟩
    simpa only [Hardware.tear, address, written] using hcrash n
  · intro reply t h
    simp only [Hardware.server, Hardware.answerIn, Operation.kind] at h
    cases hit : trouble .write with
    | none =>
      simp only [hit, Hardware.answer, address] at h
      cases h
      exact hok hit
    | some failure =>
      simp only [hit, Hardware.tear, address] at h
      cases h
      exact herr failure hit

/-- Erasing the volume natively. -/
theorem wp_erase {unit : UInt64} (addressable : v.start + v.size ≤ addressSpace)
    (nonempty : 0 < v.size) (granularity : v.geometry.eraseSize = some unit)
    (start : v.start % unit.toNat = 0) (whole : v.size % unit.toNat = 0)
    (native : (hw v.device).erases = true) (hok : trouble .erase = none → ok () (v.wiped m v.size))
    (herr : ∀ failure, trouble .erase = some failure →
      err (.device failure.fault) (v.wiped m (min failure.bytes v.size)))
    (hcrash : ∀ n ≤ v.size, crash (v.wiped m n)) :
    Access.wp (hw.server trouble) (v.erase 0 v.size) ok err crash m := by
  rw [erase_eq addressable nonempty granularity start whole, Access.wp_perform]
  have address := toNat_address addressable nonempty
  rw [Nat.add_zero] at address
  constructor
  · rintro t ⟨n, rfl⟩
    simpa only [Hardware.tear, native, ↓reduceIte, address, wiped] using
      hcrash _ (Nat.min_le_right n v.size)
  · intro reply t h
    simp only [Hardware.server, Hardware.answerIn, Operation.kind] at h
    cases hit : trouble .erase with
    | none =>
      simp only [hit, Hardware.answer, native, address] at h
      cases h
      exact hok hit
    | some failure =>
      simp only [hit, Hardware.tear, native, address] at h
      cases h
      exact herr failure hit

/-- Erasing a volume whose device has no native erase. -/
theorem wp_erase_of_unsupported (addressable : v.start + v.size ≤ addressSpace)
    (nonempty : 0 < v.size) (healthy : trouble .erase = none)
    (aligned : ∀ unit, v.geometry.eraseSize = some unit →
      v.start % unit.toNat = 0 ∧ v.size % unit.toNat = 0)
    (unsupported : (hw v.device).erases = false) (herr : err .notSupported m) (hcrash : crash m) :
    Access.wp (hw.server trouble) (v.erase 0 v.size) ok err crash m := by
  cases granularity : v.geometry.eraseSize with
  | none =>
    rw [erase_of_none addressable nonempty granularity]
    exact herr
  | some unit =>
    obtain ⟨start, whole⟩ := aligned unit granularity
    rw [erase_eq addressable nonempty granularity start whole, Access.wp_perform]
    constructor
    · rintro t ⟨n, rfl⟩
      simpa [Hardware.tear, unsupported] using hcrash
    · intro reply t h
      simp only [Hardware.server, Hardware.answerIn, Operation.kind, healthy, Hardware.answer,
        unsupported] at h
      cases h
      exact herr

end Volume

end TwinLog
