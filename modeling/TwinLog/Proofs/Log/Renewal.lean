-- SUMMARY: Histories of a log that is reset and appended to: what the device is asked, and the ends.
import TwinLog.Proofs.Confinement
import TwinLog.Proofs.Histories

/-! # Renewal of a log

The rules below list the histories of a reset, by a native erase or by a fill of the whole volume,
and those of a log that is renewed: its reset comes first, and a record follows only if the reset
succeeded. A table may turn down any of these accesses before it reaches the device. Every history
of an append with a reset is one of them (`Volume.yields_append_forced`), whatever the device
replies. -/

namespace TwinLog.Volume

variable {v : Volume} {history : List (Exchange Bus)}

/-! ## Rules -/

/-- The granularity of writes is unknown, or larger than what is filled at once. -/
def Coarse (v : Volume) : Prop :=
  ∀ unit, v.geometry.writeSize = some unit →
    unit.toNat = 0 ∨ maxChunk < max (alignFloor maxChunk.toUInt64 unit).toNat unit.toNat

/-- A fill from an offset to the end of the volume, in chunks that follow each other. -/
inductive Fills (v : Volume) : Nat → List (Exchange Bus) → Except Error Unit → Prop where
  | filled : Fills v v.size [] (.ok ())
  /-- The table turns down the next chunk. -/
  | refused {offset length : Nat} {e : Error} (inside : offset + length ≤ v.size)
      (refused : v.locateAligned v.geometry.writeSize offset length = .error e) :
      Fills v offset [] (.error e)
  | failed {offset length : Nat} {address : UInt32} {e : Error}
      (start : address.toNat = v.start + offset) (inside : offset + length ≤ v.size) :
      Fills v offset [⟨⟨v.device, .write address (erasedBytes length)⟩, .error e⟩] (.error e)
  | chunk {offset length : Nat} {address : UInt32} {history : List (Exchange Bus)}
      {result : Except Error Unit} (start : address.toNat = v.start + offset)
      (inside : offset + length ≤ v.size) (rest : Fills v (offset + length) history result) :
      Fills v offset (⟨⟨v.device, .write address (erasedBytes length)⟩, .ok ()⟩ :: history) result

/-- A reset of the whole volume, by a native erase or, where that is not supported, by a fill. -/
inductive Resets (v : Volume) : List (Exchange Bus) → Except Error Unit → Prop where
  | erased {address : UInt32} {reply : Except Error Unit} (start : address.toNat = v.start)
      (supported : reply ≠ .error .notSupported) :
      Resets v [⟨⟨v.device, .erase address v.size⟩, reply⟩] reply
  /-- The table turns down the erase. -/
  | refused {e : Error} (refused : v.locateAligned v.geometry.eraseSize 0 v.size = .error e)
      (supported : e ≠ .notSupported) : Resets v [] (.error e)
  /-- The erase is not supported by the device, or not even asked of it. -/
  | filled {erase fill : List (Exchange Bus)} {result : Except Error Unit}
      (unsupported : erase = [] ∨ ∃ address : UInt32, address.toNat = v.start ∧
        erase = [⟨⟨v.device, .erase address v.size⟩, .error .notSupported⟩])
      (fills : v.Fills 0 fill result) : Resets v (erase ++ fill) result
  /-- Neither an erase nor a fill is supported. -/
  | unsupported {erase : List (Exchange Bus)}
      (unsupported : erase = [] ∨ ∃ address : UInt32, address.toNat = v.start ∧
        erase = [⟨⟨v.device, .erase address v.size⟩, .error .notSupported⟩])
      (coarse : v.Coarse) : Resets v erase (.error .notSupported)

/-- A record becomes the first one of a log that is reset for it. Nothing follows on a reset that
failed. -/
inductive Renews (v : Volume) (r : Record) : List (Exchange Bus) → Except Error Unit → Prop where
  | unerased {reset : List (Exchange Bus)} {e : Error} (unerased : v.Resets reset (.error e)) :
      Renews v r reset (.error e)
  /-- The table turns down the record. -/
  | refused {reset : List (Exchange Bus)} {e : Error} (erased : v.Resets reset (.ok ()))
      (refused : v.locateAligned v.geometry.writeSize 0 Record.size = .error e) :
      Renews v r reset (.error e)
  | programmed {reset rest : List (Exchange Bus)} {address : UInt32}
      {reply result : Except Error Unit} (erased : v.Resets reset (.ok ()))
      (start : address.toNat = v.start) :
      Renews v r (reset ++ ⟨⟨v.device, .write address r.encode.toList⟩, reply⟩ :: rest) result

/-! ## Histories -/

/-- A write is turned down by the table, or it is one request. -/
theorem yields_write {offset : Nat} {bytes : List UInt8} {result : Except Error Unit}
    (h : (v.write offset bytes).Yields history result) :
    (history = [] ∧ ∃ e, result = .error e ∧
        v.locateAligned v.geometry.writeSize offset bytes.length = .error e) ∨
      ∃ address : UInt32, address.toNat = v.start + offset ∧ offset + bytes.length ≤ v.size ∧
        history = [⟨⟨v.device, .write address bytes⟩, result⟩] := by
  rcases Access.yields_bind_liftM.1 h with ⟨e, refused, rfl, rfl⟩ | ⟨address, located, sent⟩
  · exact .inl ⟨rfl, e, rfl, refused⟩
  · obtain ⟨start, inside⟩ := locateAligned_exact located
    exact .inr ⟨address, start, inside, Access.yields_perform.1 sent⟩

/-- An erase is turned down by the table, or it is one request. -/
theorem yields_erase {offset length : Nat} {result : Except Error Unit}
    (h : (v.erase offset length).Yields history result) :
    (history = [] ∧ ∃ e, result = .error e ∧
        v.locateAligned v.geometry.eraseSize offset length = .error e) ∨
      ∃ address : UInt32, address.toNat = v.start + offset ∧ offset + length ≤ v.size ∧
        history = [⟨⟨v.device, .erase address length⟩, result⟩] := by
  rcases Access.yields_bind_liftM.1 h with ⟨e, refused, rfl, rfl⟩ | ⟨address, located, sent⟩
  · exact .inl ⟨rfl, e, rfl, refused⟩
  · obtain ⟨start, inside⟩ := locateAligned_exact located
    exact .inr ⟨address, start, inside, Access.yields_perform.1 sent⟩

/-- A chunk that is not written ends a fill. -/
theorem fills_of_write {offset length : Nat} {result : Except Error Unit} {rest : Access Unit}
    (inside : offset + length ≤ v.size)
    (h : (do v.write offset (erasedBytes length); rest).Yields history result)
    (next : ∀ {history}, rest.Yields history result → v.Fills (offset + length) history result) :
    v.Fills offset history result := by
  rcases Access.yields_bind.1 h with ⟨e, written, rfl⟩ | ⟨⟨⟩, first, back, rfl, written, later⟩
  · rcases yields_write written with ⟨rfl, e', same, refused⟩ | ⟨address, start, -, rfl⟩
    · cases same
      rw [length_erasedBytes] at refused
      exact .refused inside refused
    · exact .failed start inside
  · rcases yields_write written with ⟨-, e', same, -⟩ | ⟨address, start, -, rfl⟩
    · cases same
    · exact .chunk start inside (next later)

/-- A fill is by chunks that follow each other, whatever their size. -/
theorem yields_fillFrom {chunk step : Nat} (hc : 0 < chunk) (hs : 0 < step) {offset : Nat}
    (inside : offset ≤ v.size) {result : Except Error Unit}
    (h : (v.fillFrom chunk step hc hs offset).Yields history result) :
    v.Fills offset history result := by
  induction left : v.size - offset using Nat.strongRecOn generalizing offset history with
  | ind left ih =>
    rw [fillFrom] at h
    split at h
    · rename_i full
      exact fills_of_write full h fun h => ih _ (by omega) full h rfl
    split at h
    · have part : offset + min step (v.size - offset) ≤ v.size := by omega
      exact fills_of_write part h fun h => ih _ (by omega) part h rfl
    · obtain ⟨rfl, rfl⟩ := Access.yields_pure.1 h
      obtain rfl : offset = v.size := by omega
      exact .filled

/-- A reset erases the whole volume natively or fills it. -/
theorem yields_eraseAll {result : Except Error Unit} (h : v.eraseAll.Yields history result) :
    v.Resets history result := by
  rcases Access.yields_tryCatch.1 h with ⟨⟨⟩, erased, rfl⟩ | ⟨e, first, rest, rfl, failed, h⟩
  · rcases yields_erase erased with ⟨-, e, same, -⟩ | ⟨address, start, -, rfl⟩
    · cases same
    · exact .erased start nofun
  by_cases other : e = .notSupported
  · subst other
    have unsupported : first = [] ∨ ∃ address : UInt32, address.toNat = v.start ∧
        first = [⟨⟨v.device, .erase address v.size⟩, .error .notSupported⟩] := by
      rcases yields_erase failed with ⟨rfl, -⟩ | ⟨address, start, -, same⟩
      · exact .inl rfl
      · exact .inr ⟨address, start, same⟩
    have filled : v.fill.Yields rest result := h
    unfold fill at filled
    split at filled
    · rename_i none
      obtain ⟨rfl, rfl⟩ := Access.yields_throw.1 filled
      rw [List.append_nil]
      refine .unsupported unsupported fun unit some => ?_
      rw [none] at some
      cases some
    · rename_i unit granular
      dsimp only at filled
      split at filled
      · rename_i coarse
        obtain ⟨rfl, rfl⟩ := Access.yields_throw.1 filled
        rw [List.append_nil]
        refine .unsupported unsupported fun unit' some => ?_
        rw [granular] at some
        cases some
        exact coarse
      · exact .filled unsupported (yields_fillFrom _ _ (Nat.zero_le _) filled)
  · have thrown : (throw e : Access Unit).Yields rest result := by
      cases e <;> first | exact h | exact absurd rfl other
    obtain ⟨rfl, rfl⟩ := Access.yields_throw.1 thrown
    rw [List.append_nil]
    rcases yields_erase failed with ⟨rfl, e', same, refused⟩ | ⟨address, start, -, rfl⟩
    · cases same
      exact .refused refused other
    · refine .erased start fun same => other ?_
      cases same
      rfl

/-- An append to a log that is reset for it renews the log, whatever follows on its success. -/
theorem yields_append_forced {r : Record} {freeOffset : Nat} {result : Except Error Nat}
    (h : (v.append r freeOffset true).Yields history result) :
    (∃ e, result = .error e ∧ v.Renews r history (.error e)) ∨
      ∃ next, result = .ok next ∧ ∀ rest ended, v.Renews r (history ++ rest) ended := by
  unfold append at h
  rw [if_pos (.inl rfl)] at h
  rcases Access.yields_bind.1 h with ⟨e, failed, rfl⟩ | ⟨⟨⟩, reset, back, rfl, erased, h⟩
  · exact .inl ⟨e, rfl, .unerased (yields_eraseAll failed)⟩
  have erased := yields_eraseAll erased
  rcases Access.yields_bind.1 h with ⟨e, written, rfl⟩ | ⟨⟨⟩, write, last, rfl, written, h⟩
  · refine .inl ⟨e, rfl, ?_⟩
    rcases yields_write written with ⟨rfl, e', same, refused⟩ | ⟨address, start, -, rfl⟩
    · cases same
      rw [Record.length_toList_encode] at refused
      rw [List.append_nil]
      exact .refused erased refused
    · exact .programmed erased start
  · obtain ⟨rfl, rfl⟩ := Access.yields_pure.1 h
    rcases yields_write written with ⟨-, e, same, -⟩ | ⟨address, start, -, rfl⟩
    · cases same
    · refine .inr ⟨_, rfl, fun rest ended => ?_⟩
      rw [List.append_nil, List.append_assoc]
      exact .programmed erased start

/-- An append that succeeds ends with the record being written before the next free offset. -/
theorem yields_append_ok {r : Record} {freeOffset next : Nat} {force : Bool}
    (h : (v.append r freeOffset force).Yields history (.ok next)) :
    ∃ front place, ∃ address : UInt32, address.toNat = v.start + place ∧
      history = front ++ [⟨⟨v.device, .write address r.encode.toList⟩, .ok ()⟩] ∧
      next = place + Record.size := by
  have stored {offset : Nat} {history : List (Exchange Bus)}
      (h : (do v.write offset r.encode.toList; return offset + Record.size : Access Nat).Yields
        history (.ok next)) :
      ∃ address : UInt32, address.toNat = v.start + offset ∧
        history = [⟨⟨v.device, .write address r.encode.toList⟩, .ok ()⟩] ∧
        next = offset + Record.size := by
    rcases Access.yields_bind.1 h with ⟨e, -, same⟩ | ⟨⟨⟩, write, behind, rfl, written, h⟩
    · cases same
    · obtain ⟨rfl, same⟩ := Access.yields_pure.1 h
      cases same
      rcases yields_write written with ⟨-, e, same, -⟩ | ⟨address, start, -, rfl⟩
      · cases same
      · exact ⟨address, start, List.append_nil _, rfl⟩
  unfold append at h
  split at h
  · rcases Access.yields_bind.1 h with ⟨e, -, same⟩ | ⟨⟨⟩, reset, rest, rfl, -, h⟩
    · cases same
    · have written : (do v.write 0 r.encode.toList; return 0 + Record.size : Access Nat).Yields
          rest (.ok next) := by
        rw [Nat.zero_add]
        exact h
      obtain ⟨address, start, rfl, same⟩ := stored written
      exact ⟨reset, 0, address, start, rfl, same⟩
  · obtain ⟨address, start, rfl, same⟩ := stored h
    exact ⟨[], freeOffset, address, start, rfl, same⟩

end TwinLog.Volume
