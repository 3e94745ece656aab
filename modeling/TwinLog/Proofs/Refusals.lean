-- SUMMARY: Saves that are refused from metadata: what they have wiped by then.
import TwinLog.Proofs.Confinement
import TwinLog.Proofs.Log.Append

/-! # Refused saves

A save is refused where a granularity or the lack of an operation forbids one of its requests. The
requests are checked one by one, so by then the volume may have been reset, or a part of it. What
is left is determined by the geometry (`Make.cleared`, `Storage.save_refused`), and the medium is
untouched exactly if those bytes were erased before. -/

namespace TwinLog

open Volume (erasedBytes)

/-- The error is about the request itself, not about what a device did with it. -/
def Error.isMetadata : Error → Bool
  | .invalidArgument => true
  | .notSupported => true
  | .tooLarge => true
  | .malformedLog => false
  | .device _ => false

/-! ## What is cleared -/

namespace Make

/-- Whether the device can be filled with erased bytes. The writes of some devices change no bit
of such bytes. -/
def fills : Make → Bool
  | .direct .overwrite lacks _ => !lacks .write
  | _ => false

/-- How many bytes of a volume a fill resets. It stops at a rest that is shorter than a write. -/
def filled (make : Make) (v : Volume) : Nat :=
  match v.geometry.writeSize with
  | none => 0
  | some unit =>
    if 0 < unit.toNat ∧ unit.toNat ≤ Volume.maxChunk ∧ v.start % unit.toNat = 0 ∧ make.fills then
      v.size - v.size % unit.toNat
    else 0

/-- How many bytes an erase of a volume resets, where its granularity allows it. A device without
native erase is filled, and a NOR flash driver has to be given the end of the volume. -/
def erasing (v : Volume) : Make → Nat
  | .direct programming lacks rejects =>
    if lacks .erase then (Make.direct programming lacks rejects).filled v else v.size
  | .nor readSize rejects =>
    let length := (Make.nor readSize rejects).erased v.size
    if v.start + length < addressSpace then length else 0

/-- How many bytes of a volume a reset clears before it ends or is refused. -/
def cleared (make : Make) (v : Volume) : Nat :=
  match v.geometry.eraseSize with
  | none => make.filled v
  | some unit =>
    if v.start % unit.toNat = 0 ∧ v.size % unit.toNat = 0 then make.erasing v else 0

theorem filled_le (make : Make) (v : Volume) : make.filled v ≤ v.size := by
  unfold filled
  split
  · exact Nat.zero_le _
  split
  · exact Nat.sub_le _ _
  · exact Nat.zero_le _

theorem erasing_le (make : Make) (v : Volume) : make.erasing v ≤ v.size := by
  unfold erasing
  split
  · split
    · exact filled_le _ _
    · exact Nat.le_refl _
  · dsimp only
    split
    · exact erased_le _ _
    · exact Nat.zero_le _

theorem cleared_le (make : Make) (v : Volume) : make.cleared v ≤ v.size := by
  unfold cleared
  split
  · exact filled_le _ _
  split
  · exact erasing_le _ _
  · exact Nat.zero_le _

end Make

def Devices.server (devices : Devices) : Server Bus Medium where
  replies request m reply m' := (reply, m') = devices.answer request m
  breaks _ _ _ := False

/-- Devices without faults answer in one way, so what holds of every run holds of the run. -/
theorem Devices.wp_iff_run {α : Type} (devices : Devices) {x : Script Bus α}
    {post : α → Medium → Prop} {crash : Medium → Prop} {m : Medium} :
    x.wp devices.server post crash m ↔
      post (x.run devices.answer m).1 (x.run devices.answer m).2 := by
  induction x generalizing m with
  | done a => rfl
  | call request next ih =>
    rw [Script.wp_call]
    constructor
    · intro h
      exact (ih _).1 (h.2 _ _ rfl)
    · intro h
      refine ⟨fun _ lost => lost.elim, fun reply m' answered => (ih reply).2 ?_⟩
      replace answered : (reply, m') = devices.answer request m := answered
      have run : (Script.call request next).run devices.answer m =
          (next (devices.answer request m).1).run devices.answer (devices.answer request m).2 := rfl
      rw [run, ← answered] at h
      exact h

/-! ## Requests that are refused -/

namespace Make

variable {device : DeviceId} {m : Medium}

/-- A write fails and changes nothing, or programs its bytes. -/
theorem answer_write (make : Make) (address : UInt32) (bytes : List UInt8) :
    (∃ e, make.answer device (.write address bytes) m = (.error e, m) ∧
        (e.isMetadata = true → make.fills = false)) ∨
      (make.answer device (.write address bytes) m =
          (.ok (), m.program make.programming device address.toNat bytes) ∧
        (make.programming = .overwrite → make.fills = true)) := by
  cases make with
  | direct programming lacks rejects =>
    rcases @direct_cases device (.write address bytes) programming lacks rejects with
      ⟨lacking, failed⟩ | ⟨present, ⟨fault, failed⟩ | done⟩
    · replace lacking : lacks .write = true := lacking
      refine .inl ⟨.notSupported, failed m, fun _ => ?_⟩
      cases programming <;> simp [fills, lacking]
    · exact .inl ⟨.device fault, failed m, nofun⟩
    · replace present : lacks .write = false := present
      refine .inr ⟨done m, ?_⟩
      rintro rfl
      simp [fills, present]
  | nor readSize rejects =>
    rcases NorFlash.run_call_cases device rejects (.write address bytes) with ⟨fault, failed⟩ | done
    · exact .inl ⟨.device fault, failed m, fun _ => rfl⟩
    · exact .inr ⟨done m, nofun⟩

/-- An erase of a volume is not supported, fails for another reason, or resets the bytes. -/
theorem answer_erase (make : Make) {v : Volume} {address : UInt32} (start : address.toNat = v.start) :
    (make.answer device (.erase address v.size) m = (.error .notSupported, m) ∧
        make.erasing v = make.filled v) ∨
      (∃ e, make.answer device (.erase address v.size) m = (.error e, m) ∧ e ≠ .notSupported ∧
        (e.isMetadata = true → make.erasing v = 0)) ∨
      make.answer device (.erase address v.size) m =
        (.ok (), m.reset device v.start (make.erasing v)) := by
  cases make with
  | direct programming lacks rejects =>
    rcases @direct_cases device (.erase address v.size) programming lacks rejects with
      ⟨lacking, failed⟩ | ⟨present, ⟨fault, failed⟩ | done⟩
    · exact .inl ⟨failed m, if_pos lacking⟩
    · exact .inr (.inl ⟨.device fault, failed m, nofun, nofun⟩)
    · replace present : lacks .erase = false := present
      have whole : (Make.direct programming lacks rejects).erasing v = v.size := by
        simp [erasing, present]
      rw [whole, ← start]
      exact .inr (.inr (done m))
  | nor readSize rejects =>
    rcases NorFlash.run_erase_cases device rejects address v.size with
      ⟨overflow, refused⟩ | ⟨fits, ⟨fault, failed⟩ | done⟩
    · rw [start] at overflow
      exact .inr (.inl ⟨.invalidArgument, refused m, nofun, fun _ => if_neg overflow⟩)
    · exact .inr (.inl ⟨.device fault, failed m, nofun, nofun⟩)
    · rw [start] at fits
      have whole : (Make.nor readSize rejects).erasing v = v.size % UInt32.size := if_pos fits
      rw [whole, ← start]
      exact .inr (.inr (done m))

end Make

/-- Erased bytes clear no bit. -/
theorem Medium.program_erasedBytes (m : Medium) (device : DeviceId) (address n : Nat) :
    m.program .clearBits device address (erasedBytes n) = m := by
  funext d a
  unfold program
  split
  · rename_i inside
    rw [length_erasedBytes] at inside
    have byte : (erasedBytes n).getD (a - address) 0 = 0xFF := by
      rw [List.getD_eq_getElem?_getD, List.getElem?_eq_getElem (by simp; omega), Option.getD_some]
      simp [erasedBytes]
    rw [byte]
    exact UInt8.toBitVec_inj.1 BitVec.and_allOnes
  · rfl

namespace Volume

variable {v : Volume} {devices : Devices} {m : Medium}

/-- The medium after a fill of the volume has got to an offset. -/
def filledTo (v : Volume) (make : Make) (m : Medium) (offset : Nat) : Medium :=
  v.wiped m (if make.fills then offset else 0)

/-- A reset changes nothing if its bytes are erased. -/
theorem wiped_eq_self_iff {n : Nat} :
    v.wiped m n = m ↔ ∀ i < n, m v.device (v.start + i) = 0xFF := by
  constructor
  · intro same i hi
    rw [← same]
    exact if_pos ⟨rfl, Nat.le_add_right _ _, Nat.add_lt_add_left hi _⟩
  · intro erased
    funext d a
    unfold wiped Medium.reset
    split
    · rename_i inside
      obtain ⟨rfl, low, high⟩ := inside
      obtain ⟨i, rfl⟩ := Nat.exists_eq_add_of_le low
      exact (erased i (by omega)).symm
    · rfl

/-- A fill programs the bytes behind those that are reset already. -/
theorem program_filledTo {make : Make} (fills : make.programming = .overwrite → make.fills = true)
    (offset k : Nat) :
    (v.filledTo make m offset).program make.programming v.device (v.start + offset) (erasedBytes k) =
      v.filledTo make m (offset + k) := by
  unfold filledTo
  cases mode : make.programming with
  | overwrite =>
    rw [if_pos (fills mode), if_pos (fills mode), program_wiped]
  | clearBits =>
    have none : ¬make.fills = true := by
      cases make with
      | direct programming lacks rejects =>
        obtain rfl : programming = .clearBits := mode
        simp [Make.fills]
      | nor => simp [Make.fills]
    rw [if_neg none, if_neg none, Medium.program_erasedBytes]

/-- A write that is located reaches the device. -/
theorem wp_perform_write {address : UInt32} {bytes : List UInt8} {ok : Unit → Medium → Prop}
    {err : Error → Medium → Prop}
    (hok : ((devices v.device).programming = .overwrite → (devices v.device).fills = true) →
      ok () (m.program (devices v.device).programming v.device address.toNat bytes))
    (herr : ∀ e, (e.isMetadata = true → (devices v.device).fills = false) → err e m) :
    Access.wp devices.server (v.device.perform (.write address bytes)) ok err (fun _ => True) m := by
  rw [Access.wp_perform]
  refine ⟨fun _ lost => lost.elim, fun reply m' answered => ?_⟩
  replace answered : (reply, m') = (devices v.device).answer v.device (.write address bytes) m :=
    answered
  rcases @Make.answer_write v.device m (devices v.device) address bytes with
    ⟨e, failed, metadata⟩ | ⟨done, fills⟩
  · rw [failed] at answered
    cases answered
    exact herr e metadata
  · rw [done] at answered
    cases answered
    exact hok fills

/-- A write that fails, for whatever reason, changes nothing. -/
theorem wp_write_unchanged (v : Volume) (offset : Nat) (bytes : List UInt8) :
    Access.wp devices.server (v.write offset bytes) (fun _ _ => True) (fun _ m' => m' = m)
      (fun _ => True) m := by
  unfold write
  rw [Access.wp_bind]
  cases v.locateAligned v.geometry.writeSize offset bytes.length with
  | error e => exact rfl
  | ok address => exact wp_perform_write (fun _ => trivial) (fun _ _ => rfl)

/-- What is left of a volume behind the last multiple of a granularity. -/
theorem size_mod_of_rest {unit offset size : Nat} (hoffset : unit ∣ offset) (inside : offset ≤ size)
    (rest : size - offset < unit) : size % unit = size - offset := by
  obtain ⟨k, rfl⟩ : ∃ k, size = offset + k := ⟨size - offset, by omega⟩
  rw [Nat.add_sub_cancel_left] at rest ⊢
  rw [Nat.add_mod, Nat.mod_eq_zero_of_dvd hoffset, Nat.zero_add, Nat.mod_mod,
    Nat.mod_eq_of_lt rest]

section Fill

variable (addressable : v.start + v.size ≤ addressSpace) {unit : UInt64}
  (granularity : v.geometry.writeSize = some unit)
include addressable granularity

/-- One write of a fill. -/
theorem wp_fill_write {offset k : Nat} (start : offset < v.size) (inside : offset + k ≤ v.size)
    (address : unit.toNat ∣ v.start + offset) (whole : unit.toNat ∣ k) :
    Access.wp devices.server (v.write offset (erasedBytes k))
      (fun _ m' => m' = v.filledTo (devices v.device) m (offset + k))
      (fun e m' => e.isMetadata = true → ∀ n, m' = v.filledTo (devices v.device) m n)
      (fun _ => True) (v.filledTo (devices v.device) m offset) := by
  unfold write
  rw [granularity, length_erasedBytes, locateAligned_eq_ok addressable start inside
    (Nat.mod_eq_zero_of_dvd address) (Nat.mod_eq_zero_of_dvd whole), Access.wp_bind]
  refine wp_perform_write (fun fills => ?_) (fun e refused metadata n => ?_)
  · rw [toNat_address addressable start]
    exact program_filledTo fills offset k
  · have none := refused metadata
    rw [filledTo, filledTo, none]
    rfl

/-- A fill that has got to an offset goes on to the end, or up to a rest that is shorter than a
write. -/
theorem wp_fillFrom_refused {chunk : Nat} (hc : 0 < chunk) (hs : 0 < unit.toNat)
    (hchunk : unit.toNat ∣ chunk) (aligned : unit.toNat ∣ v.start) {offset : Nat}
    (hoffset : unit.toNat ∣ offset) (inside : offset ≤ v.size) :
    Access.wp devices.server (v.fillFrom chunk unit.toNat hc hs offset)
      (fun _ m' => m' = v.filledTo (devices v.device) m (v.size - v.size % unit.toNat))
      (fun e m' => e.isMetadata = true →
        m' = v.filledTo (devices v.device) m (v.size - v.size % unit.toNat))
      (fun _ => True) (v.filledTo (devices v.device) m offset) := by
  -- on what is left of the volume: the fill has cleared everything up to the offset, and a refused
  -- write leaves it at that
  induction left : v.size - offset using Nat.strongRecOn generalizing offset with
  | ind left ih =>
    rw [fillFrom]
    split
    · rename_i room
      rw [Access.wp_bind]
      refine Access.wp_mono (wp_fill_write addressable granularity (by omega) room
        (Nat.dvd_add aligned hoffset) hchunk) ?_ (fun e m' refused metadata => refused metadata _)
        (fun _ _ => trivial)
      rintro _ m' rfl
      exact ih _ (by omega) (Nat.dvd_add hoffset hchunk) room rfl
    split
    · rename_i more
      rw [Access.wp_bind]
      by_cases unit_le : unit.toNat ≤ v.size - offset
      · rw [Nat.min_eq_left unit_le]
        refine Access.wp_mono (wp_fill_write addressable granularity more (by omega)
          (Nat.dvd_add aligned hoffset) (Nat.dvd_refl _)) ?_
          (fun e m' refused metadata => refused metadata _) (fun _ _ => trivial)
        rintro _ m' rfl
        exact ih _ (by omega) (Nat.dvd_add hoffset (Nat.dvd_refl _)) (by omega) rfl
      · -- the rest of the volume is shorter than a write
        have rest := size_mod_of_rest hoffset inside (Nat.lt_of_not_le unit_le)
        have misaligned : v.locateAligned (some unit) offset (v.size - offset) =
            .error .invalidArgument := by
          refine locateAligned_misaligned addressable more (by omega) fun whole => ?_
          exact Nat.not_dvd_of_pos_of_lt (by omega) (Nat.lt_of_not_le unit_le) whole.2
        rw [Nat.min_eq_right (Nat.le_of_not_le unit_le), rest, Nat.sub_sub_self inside]
        unfold write
        rw [granularity, length_erasedBytes, misaligned, Access.wp_bind]
        exact fun _ => rfl
    · have done : offset = v.size := by omega
      have rest := size_mod_of_rest hoffset inside (by omega)
      rw [rest, Nat.sub_sub_self inside]
      exact rfl

/-- A fill of a volume that does not start at a multiple of the granularity is refused at once. -/
theorem wp_fillFrom_misaligned (misaligned : ¬unit.toNat ∣ v.start) {chunk step : Nat}
    {hc : 0 < chunk} {hs : 0 < step} :
    Access.wp devices.server (v.fillFrom chunk step hc hs 0) (fun _ m' => m' = m)
      (fun e m' => e.isMetadata = true → m' = m) (fun _ => True) m := by
  have refused (k : Nat) (rest : Access Unit) (nonempty : 0 < v.size) (inside : k ≤ v.size) :
      Access.wp devices.server (do v.write 0 (erasedBytes k); rest) (fun _ m' => m' = m)
        (fun e m' => e.isMetadata = true → m' = m) (fun _ => True) m := by
    unfold write
    rw [granularity, length_erasedBytes, locateAligned_misaligned addressable nonempty (by omega)
      fun whole => misaligned whole.1]
    exact fun _ => rfl
  rw [fillFrom]
  split
  · exact refused _ _ (by omega) (by omega)
  split
  · exact refused _ _ (by omega) (by omega)
  · exact rfl

end Fill

/-- A fill has cleared what it can clear when it ends or is refused. -/
theorem wp_fill_refused (addressable : v.start + v.size ≤ addressSpace) :
    Access.wp devices.server v.fill
      (fun _ m' => m' = v.wiped m ((devices v.device).filled v))
      (fun e m' => e.isMetadata = true → m' = v.wiped m ((devices v.device).filled v))
      (fun _ => True) m := by
  unfold fill Make.filled
  cases granularity : v.geometry.writeSize with
  | none => exact fun _ => wiped_zero.symm
  | some unit =>
    dsimp only
    split
    · rename_i unsupported
      have none : ¬(0 < unit.toNat ∧ unit.toNat ≤ maxChunk ∧ v.start % unit.toNat = 0 ∧
          (devices v.device).fills = true) := by
        rintro ⟨pos, le, -⟩
        rcases unsupported with zero | large
        · omega
        · exact Nat.not_le.2 large (Nat.max_le.2 ⟨alignFloor_le _ _, le⟩)
      rw [if_neg none]
      exact fun _ => wiped_zero.symm
    · rename_i supported
      rw [not_or, Nat.not_lt, Nat.max_le] at supported
      obtain ⟨nonzero, -, le⟩ := supported
      have pos : 0 < unit.toNat := Nat.pos_of_ne_zero nonzero
      -- a volume that starts between two units refuses the first write already
      by_cases aligned : unit.toNat ∣ v.start
      · have start : v.filledTo (devices v.device) m 0 = m := by
          unfold filledTo
          rw [ite_self, wiped_zero]
        have filled : v.filledTo (devices v.device) m (v.size - v.size % unit.toNat) =
            v.wiped m (if 0 < unit.toNat ∧ unit.toNat ≤ maxChunk ∧ v.start % unit.toNat = 0 ∧
              (devices v.device).fills = true then v.size - v.size % unit.toNat else 0) := by
          simp only [filledTo, pos, le, Nat.mod_eq_zero_of_dvd aligned, true_and]
        have run := @wp_fillFrom_refused v devices m addressable unit granularity _
          (Nat.lt_of_lt_of_le pos (Nat.le_max_right _ _)) pos
          (dvd_max_alignFloor maxChunk.toUInt64 unit) aligned 0 (Nat.dvd_zero _) (Nat.zero_le _)
        rw [start, filled] at run
        exact run
      · have none : ¬(0 < unit.toNat ∧ unit.toNat ≤ maxChunk ∧ v.start % unit.toNat = 0 ∧
            (devices v.device).fills = true) :=
          fun whole => aligned (Nat.dvd_of_mod_eq_zero whole.2.2.1)
        rw [if_neg none, wiped_zero]
        exact wp_fillFrom_misaligned addressable granularity aligned

/-- Resetting an empty volume changes nothing. -/
theorem wp_eraseAll_empty (addressable : v.start + v.size ≤ addressSpace) (empty : v.size = 0) :
    Access.wp devices.server v.eraseAll (fun _ m' => m' = m) (fun _ m' => m' = m)
      (fun _ => True) m := by
  have run : v.eraseAll.run.wp devices.server (fun _ m' => m' = m) (fun _ => True) m := by
    rw [Devices.wp_iff_run]
    funext d a
    have within : v.eraseAll.Only (Request.Within v.region) :=
      only_eraseAll.mono fun request alters => alters.within addressable
    refine within.run_frame devices ?_
    rintro ⟨-, low, high⟩
    omega
  exact Access.wp_run.1 run

/-- A reset has cleared what it can clear when it ends or is refused. -/
theorem wp_eraseAll_refused (addressable : v.start + v.size ≤ addressSpace) :
    Access.wp devices.server v.eraseAll
      (fun _ m' => m' = v.wiped m ((devices v.device).cleared v))
      (fun e m' => e.isMetadata = true → m' = v.wiped m ((devices v.device).cleared v))
      (fun _ => True) m := by
  by_cases empty : v.size = 0
  · have none : (devices v.device).cleared v = 0 :=
      Nat.eq_zero_of_le_zero (Nat.le_trans (Make.cleared_le _ v) (Nat.le_of_eq empty))
    rw [none, wiped_zero]
    exact Access.wp_mono (wp_eraseAll_empty addressable empty) (fun _ _ unchanged => unchanged)
      (fun _ _ unchanged _ => unchanged) (fun _ _ => trivial)
  have nonempty : 0 < v.size := Nat.pos_of_ne_zero empty
  unfold eraseAll Make.cleared
  rw [Access.wp_tryCatch]
  cases granularity : v.geometry.eraseSize with
  | none =>
    rw [erase_of_none addressable nonempty granularity]
    exact wp_fill_refused addressable
  | some unit =>
    dsimp only
    split
    · rename_i aligned
      rw [erase_eq addressable nonempty granularity aligned.1 aligned.2, Access.wp_perform]
      refine ⟨fun _ lost => lost.elim, fun reply m' answered => ?_⟩
      replace answered : (reply, m') = (devices v.device).answer v.device
        (.erase v.start.toUInt32 v.size) m := answered
      have start : v.start.toUInt32.toNat = v.start := toNat_address addressable nonempty
      -- a device without erase is filled instead, one that rejects the erase has changed nothing,
      -- and any other has erased the volume
      rcases @Make.answer_erase v.device m (devices v.device) v _ start with
        ⟨lacking, filled⟩ | ⟨e, failed, other, metadata⟩ | done
      · rw [lacking] at answered
        cases answered
        rw [filled]
        exact wp_fill_refused addressable
      · rw [failed] at answered
        cases answered
        have unchanged : e.isMetadata = true →
            m = v.wiped m ((devices v.device).erasing v) := by
          intro h
          rw [metadata h, wiped_zero]
        cases e with
        | notSupported => exact absurd rfl other
        | invalidArgument => exact unchanged
        | tooLarge => exact unchanged
        | malformedLog => exact unchanged
        | device fault => exact unchanged
      · rw [done] at answered
        cases answered
        exact rfl
    · rename_i misaligned
      unfold erase
      rw [granularity, locateAligned_misaligned addressable nonempty (by omega) fun aligned =>
        misaligned ⟨Nat.mod_eq_zero_of_dvd aligned.1, Nat.mod_eq_zero_of_dvd aligned.2⟩]
      exact fun _ => wiped_zero.symm

/-- An append that is refused has cleared the log if it resets it, and changed nothing else. -/
theorem wp_append_refused (addressable : v.start + v.size ≤ addressSpace) (log : LogState)
    (r : Record) :
    Access.wp devices.server (v.append r log.freeOffset (log.status = .corrupt)) (fun _ _ => True)
      (fun e m' => e.isMetadata = true →
        m' = if v.resets log then v.wiped m ((devices v.device).cleared v) else m)
      (fun _ => True) m := by
  rw [append_eq, Access.wp_bind]
  split
  · refine Access.wp_mono (wp_eraseAll_refused addressable) ?_ (fun _ _ refused => refused)
      (fun _ _ => trivial)
    rintro _ m' rfl
    rw [Access.wp_bind]
    exact Access.wp_mono (wp_write_unchanged v _ _) (fun _ _ _ => trivial)
      (fun _ _ unchanged _ => unchanged) (fun _ _ => trivial)
  · rw [Access.wp_pure, Access.wp_bind]
    exact Access.wp_mono (wp_write_unchanged v _ _) (fun _ _ _ => trivial)
      (fun _ _ unchanged _ => unchanged) (fun _ _ => trivial)

end Volume

/-! ## Saves that are refused -/

/-- The medium after a volume is cleared as far as its device goes, if there is one to clear. -/
def Devices.clear (devices : Devices) (m : Medium) : Option Volume → Medium
  | none => m
  | some v => v.wiped m ((devices v.device).cleared v)

/-- The volume that is reset before the latest generation is written, if its log is in doubt or has
no room. -/
def Session.reset? (s : Session) (site : Site) (table : Table) : Option Volume :=
  match site.volume table s.target with
  | .error _ => none
  | .ok v => if v.resets (s.logs.get s.target) then some v else none

/-- Devices refuse a sync only where they lack it. -/
theorem Table.wp_sync_refused (devices : Devices) {table : Table} {area : Nat} {descriptor : Area}
    {m : Medium} (found : table.area area = .ok descriptor) :
    Access.wp devices.server (table.sync area) (fun _ _ => True)
      (fun e _ => e.isMetadata = true → e = .notSupported) (fun _ => True) m := by
  unfold sync
  rw [found, Access.wp_bind, Access.wp_ok, Access.wp_perform]
  refine ⟨fun _ lost => lost.elim, fun reply m' answered => ?_⟩
  replace answered : (reply, m') =
      (devices descriptor.device).answer descriptor.device .sync m := answered
  cases reply with
  | ok => trivial
  | error e =>
    intro metadata
    cases make : devices descriptor.device with
    | direct programming lacks rejects =>
      simp only [make, Make.answer] at answered
      split at answered
      · cases answered
        rfl
      · split at answered
        · cases answered
          cases metadata
        · cases answered
    | nor readSize rejects =>
      rw [make] at answered
      cases answered

namespace Session

variable {devices : Devices} {table : Table} {site : Site} {m : Medium} (mapped : table.Mapped)
include mapped

theorem wp_append_refused (s : Session) :
    Access.wp devices.server (s.append site table)
      (fun _ _ => ∃ descriptor, table.area site.area = .ok descriptor)
      (fun e m' => e.isMetadata = true → m' = devices.clear m (s.reset? site table))
      (fun _ => True) m := by
  unfold append reset?
  rw [Access.wp_bind]
  cases found : site.volume table s.target with
  | error e => exact fun _ => rfl
  | ok v =>
    rw [Access.wp_ok]
    refine Access.wp_mono
      (Volume.wp_append_refused (mapped.volume_end_le found) (s.logs.get s.target) s.latest)
      (fun _ _ _ => Table.area_of_volume found) (fun e m' refused metadata => ?_)
      (fun _ _ => trivial)
    rw [refused metadata]
    dsimp only
    split <;> rfl

/-- A save that is refused has cleared the log of its side if it resets it, and changed nothing
else. -/
theorem wp_save_refused (s : Session) (image : Settings.Image) :
    (s.save site table image).wp devices.server
      (fun result m' => ∀ e, result.1 = .error e → e.isMetadata = true →
        m' = devices.clear m (if (s.stage image).writePending then
          (s.stage image).reset? site table else none)) (fun _ => True) m := by
  unfold save
  dsimp only
  split
  · unfold flush
    rw [Script.wp_bind, Access.wp_run]
    refine Access.wp_mono (wp_append_refused mapped _) ?_ ?_ (fun _ _ => trivial)
    · rintro freeOffset m' ⟨descriptor, found⟩
      dsimp only
      rw [Script.wp_bind, Access.wp_run]
      refine Access.wp_mono (Table.wp_sync_refused devices found) (fun _ _ _ => nofun) ?_
        (fun _ _ => trivial)
      intro e m'' refused
      have other (ne : e ≠ .notSupported) : e.isMetadata = true → False :=
        fun metadata => ne (refused metadata)
      cases e with
      | notSupported => exact nofun
      | invalidArgument => exact (other nofun rfl).elim
      | tooLarge => exact (other nofun rfl).elim
      | malformedLog =>
        rintro _ ⟨⟩ metadata
        cases metadata
      | device fault =>
        rintro _ ⟨⟩ metadata
        cases metadata
    · intro e m' refused
      rintro _ ⟨⟩ metadata
      exact refused metadata
  · exact nofun

end Session

namespace Storage

variable {devices : Devices} {table : Table} {m : Medium}

/-- The volume that a save resets before it writes, if it does. -/
def reset? (s : Storage) (table : Table) (devices : Devices) (m : Medium) (settings : Settings) :
    Option Volume :=
  match ((s.mounted table).run.run devices.answer m).1 with
  | .error _ => none
  | .ok session =>
    if (session.stage settings.encode).writePending then
      (session.stage settings.encode).reset? s.site table
    else none

/-- The medium after a save that is refused. -/
theorem save_refused (mapped : table.Mapped) {s : Storage} {settings : Settings} {e : Error}
    (refused : ((s.save table settings).run devices.answer m).1.1 = .error e)
    (metadata : e.isMetadata = true) :
    ((s.save table settings).run devices.answer m).2 =
      devices.clear m (s.reset? table devices m settings) := by
  have all : (s.save table settings).wp devices.server
      (fun result m' => ∀ e, result.1 = .error e → e.isMetadata = true →
        m' = devices.clear m (s.reset? table devices m settings)) (fun _ => True) m := by
    unfold save reset?
    rw [Script.wp_bind, Devices.wp_iff_run, run_mounted mapped]
    cases ((s.mounted table).run.run devices.answer m).1 with
    | error e => exact fun _ _ _ => rfl
    | ok session =>
      dsimp only
      rw [Script.wp_bind]
      exact Script.wp_mono (Session.wp_save_refused mapped session _) (fun _ _ saved => saved)
        (fun _ _ => trivial)
  exact (devices.wp_iff_run.1 all) e refused metadata

/-- A save that is refused leaves the medium untouched exactly if it resets no volume, or has
cleared erased bytes only. -/
theorem refused_save_unchanged_iff (mapped : table.Mapped) {s : Storage} {settings : Settings}
    {e : Error} (refused : ((s.save table settings).run devices.answer m).1.1 = .error e)
    (metadata : e.isMetadata = true) :
    ((s.save table settings).run devices.answer m).2 =
        devices.clear m (s.reset? table devices m settings) ∧
      (((s.save table settings).run devices.answer m).2 = m ↔
        ∀ v, s.reset? table devices m settings = some v →
          ∀ i < (devices v.device).cleared v, m v.device (v.start + i) = 0xFF) := by
  have after := save_refused mapped refused metadata
  refine ⟨after, ?_⟩
  rw [after]
  cases s.reset? table devices m settings with
  | none => exact ⟨fun _ => nofun, fun _ => rfl⟩
  | some v =>
    refine Volume.wiped_eq_self_iff.trans ⟨?_, fun h => h v rfl⟩
    rintro h _ ⟨⟩
    exact h

end Storage

/-! ## Partitions of odd size -/

instance decidableEqExcept {ε α : Type} [DecidableEq ε] [DecidableEq α] : DecidableEq (Except ε α)
  | .error e, .error e' => decidable_of_iff (e = e') (by rw [Except.error.injEq])
  | .ok a, .ok a' => decidable_of_iff (a = a') (by rw [Except.ok.injEq])
  | .error _, .ok _ => .isFalse nofun
  | .ok _, .error _ => .isFalse nofun

/-- A device that is written two bytes at a time, with a partition of even and one of odd size. -/
def oddTable : Table where
  devices := #[⟨some 2, none⟩]
  areas := #[{
    name := "odd"
    device := ⟨0⟩
    base := 0
    size := 95
    partitions := [⟨0, 48⟩, ⟨48, 47⟩]
  }]
  device_lt := by simp

/-- Devices that can be read and overwritten, but have neither an erase nor a sync. -/
def overwritten : Devices := fun _ =>
  .direct .overwrite (fun kind => kind = .erase ∨ kind = .sync) fun _ => none

/-- A save over garbage fills the partition of odd size up to its last byte, which cannot be
written alone. -/
theorem refused_save_unchanged_iff_odd :
    let s := Storage.ofParts 0 1 2
    let settings := { Settings.default with brightness := 1 }
    let m : Medium := fun _ _ => 0
    let after := (s.save oddTable settings).run overwritten.answer m
    let reset := s.reset? oddTable overwritten m settings
    (oddTable.Mapped ∧ after.1.1 = .error .invalidArgument ∧
        Error.invalidArgument.isMetadata = true) ∧
      after.2 = overwritten.clear m reset ∧
      (after.2 = m ↔ ∀ v, reset = some v →
        ∀ i < (overwritten v.device).cleared v, m v.device (v.start + i) = 0xFF) := by
  intro s settings m after reset
  have mapped : oddTable.Mapped := ⟨by decide, by decide⟩
  have refused : after.1.1 = .error .invalidArgument := by decide +kernel
  exact ⟨⟨mapped, refused, rfl⟩, Storage.refused_save_unchanged_iff mapped refused rfl⟩

/-- The refused save has left 46 of the 47 bytes of the partition erased. -/
theorem refused_save_changes_medium :
    let m : Medium := fun _ _ => 0
    let after := ((Storage.ofParts 0 1 2).save oddTable
      { Settings.default with brightness := 1 }).run overwritten.answer m
    after.1.1 = .error .invalidArgument ∧
      (∀ i < 46, after.2 ⟨0⟩ (48 + i) = 0xFF ∧ m ⟨0⟩ (48 + i) = 0) ∧ after.2 ⟨0⟩ (48 + 46) = 0 := by
  decide +kernel

end TwinLog
