-- SUMMARY: Recovery with its offsets computed in 64-bit words, none of which overflows.
import TwinLog.Log.Recover
import TwinLog.Proofs.Requests
import TwinLog.Proofs.Translation

/-! # Recovery in words

Offsets are natural numbers in the theory and 64-bit words where a log is recovered. Here recovery
is written with every sum and difference of offsets that it takes, down to the device address. Each
is checked, and a run in which one is no word has no result. On a partition within the address space
there is no such run, whatever the devices reply: what is left is recovery
(`Checked.recover_eq`). -/

namespace TwinLog

/-- Accesses that compute with words. They have no result where a number is no word. -/
abbrev Checked := OptionT Access

namespace Checked

/-! ## Arithmetic -/

/-- The sum, which has to be a word. -/
def add (a b : Nat) : Checked Nat :=
  if a + b < UInt64.size then return a + b else failure

/-- The difference, which has to be a word. -/
def sub (a b : Nat) : Checked Nat :=
  if b ≤ a then return a - b else failure

variable {α : Type} {a b : Nat}

theorem add_bind (word : a + b < UInt64.size) (k : Nat → Checked α) :
    (add a b >>= k) = k (a + b) := by
  rw [add, if_pos word, pure_bind]

theorem sub_bind (word : b ≤ a) (k : Nat → Checked α) : (sub a b >>= k) = k (a - b) := by
  rw [sub, if_pos word, pure_bind]

/-! ## Recovery -/

variable (area : Area) (p : Partition)

def read (offset length : Nat) : Checked (Bytes length) := do
  let stop ← add offset length
  if p.size.toNat < stop then OptionT.lift (throw .invalidArgument)
  else do
    let inner ← add p.offset.toNat offset
    let address ← add area.base.toNat inner
    if addressSpace ≤ address then OptionT.lift (throw .invalidArgument)
    else OptionT.lift (area.device.perform (.read address.toUInt32 length))

def scanFrom (limit offset : Nat) (last : Option (Candidate limit)) : Checked (Scan limit) :=
  if below : offset < limit then do
    let stop ← add offset Record.peekSize
    if p.size.toNat < stop then return .ofLast last
    else do
      let (magic, length) := Header.peek (← read area p offset Record.peekSize)
      if magic = Volume.erasedWord then return .ofLast last
      else if magic ≠ Record.magicWord then return .malformed
      else if short : length.toNat < Record.minSize then return .malformed
      else do
        have : 10 ≤ length.toNat := Nat.le_of_not_lt short
        -- the sum is written again below, where the distance to the limit is seen to decrease
        let _ ← add offset length.toNat
        scanFrom limit (offset + length.toNat) (some ⟨offset, length.toNat, below⟩)
  else return .ofLast last
termination_by limit - offset

def readRecord (offset : Nat) : Checked Record := do
  let headerStop ← add offset Record.headerSize
  if p.size.toNat < headerStop then OptionT.lift (throw .tooLarge)
  else do
    let header := Header.decode (← read area p offset Record.headerSize)
    let length := header.length.toNat
    if Record.size < length then OptionT.lift (throw .tooLarge)
    else if length < Record.minSize then OptionT.lift (throw .malformedLog)
    else do
      let stop ← add offset length
      if p.size.toNat < stop then OptionT.lift (throw .tooLarge)
      else do
        let count ← sub length Record.minSize
        let payloadStart ← add offset Record.headerSize
        let stored ← read area p payloadStart count
        let crcStart ← sub stop Record.crcSize
        let crc ← read area p crcStart Record.crcSize
        return {
          toHeader := header
          payload := Settings.completeImage stored
          crc := crc.toNat.toUInt16
        }

def readValid (offset : Nat) : Checked (Option Record) :=
  tryCatchThe Error
    (do
      let r ← readRecord area p offset
      return if r.integrity = .invalid then none else some r)
    fun
      | .tooLarge => return none
      | e => OptionT.lift (throw e)

def recoverBelow (logEnd : Option Nat) (limit : Nat) : Checked Recovered :=
  if limit = 0 then return .corrupt (logEnd.getD 0)
  else do
    match ← scanFrom area p limit 0 none with
    | .empty => return .empty
    | .malformed => return .corrupt (logEnd.getD 0)
    | .found ⟨offset, length, _⟩ =>
      let stop ← add offset length
      let logEnd := logEnd.getD stop
      match ← readValid area p offset with
      | some latest => return .clean logEnd latest
      | none => recoverBelow (some logEnd) offset
termination_by limit

def recover (t : Table) (index part : Nat) : Checked Recovered := do
  let area ← OptionT.lift (t.area index)
  let p ← OptionT.lift (area.partition part)
  recoverBelow area p none p.size.toNat

/-! ## Agreement -/

section Lifts

variable {β : Type}

/-- A sequence is one of accesses if what follows on each result is an access. -/
theorem lift_bind_of_ends {x : Access β} {post : β → Prop} (ends : x.Ends post)
    {f : β → Checked α} {g : β → Access α} (same : ∀ b, post b → f b = OptionT.lift (g b)) :
    (OptionT.lift x >>= f) = OptionT.lift (x >>= g) := by
  apply OptionT.ext
  rw [OptionT.lift_bind]
  simp only [OptionT.run_bind, OptionT.run_lift, Option.elimM, bind_assoc, pure_bind,
    Option.elim_some]
  refine ends.bind_congr fun b met => ?_
  rw [same b met, OptionT.run_lift]

theorem lift_bind {x : Access β} {f : β → Checked α} {g : β → Access α}
    (same : ∀ b, f b = OptionT.lift (g b)) : (OptionT.lift x >>= f) = OptionT.lift (x >>= g) :=
  lift_bind_of_ends (.all x) fun b _ => same b

/-- A result that is known already takes no arithmetic. -/
theorem lift_ok_bind (b : β) (k : β → Checked α) :
    (OptionT.lift (liftM (Except.ok b : Except Error β) : Access β) >>= k) = k b :=
  pure_bind b k

/-- Errors are caught alike. -/
theorem lift_tryCatch {x : Access α} {handler : Error → Checked α} {handler' : Error → Access α}
    (same : ∀ e, handler e = OptionT.lift (handler' e)) :
    tryCatchThe Error (OptionT.lift x : Checked α) handler =
      OptionT.lift (tryCatch x handler') := by
  obtain rfl : handler = fun e => OptionT.lift (handler' e) := funext same
  apply OptionT.ext
  apply ExceptT.ext
  show (tryCatch (x >>= fun a => pure (some a)) fun e => handler' e >>= fun a => pure (some a)).run =
    (tryCatch x handler' >>= fun a => pure (some a)).run
  rw [ExceptT.run_tryCatch, ExceptT.run_bind, ExceptT.run_bind, ExceptT.run_tryCatch, bind_assoc,
    bind_assoc]
  refine bind_congr fun result => ?_
  cases result with
  | ok a => rfl
  | error e => rfl

end Lifts

/-- The volume is the one of the partition, and within the address space. -/
structure Occupies (v : Volume) (area : Area) (p : Partition) : Prop where
  device_eq : v.device = area.device
  start_eq : v.start = area.base.toNat + p.offset.toNat
  size_eq : v.size = p.size.toNat
  addressable : v.start + v.size ≤ addressSpace

/-- No length takes an address out of the words. -/
theorem addressSpace_lt : addressSpace + 65536 < UInt64.size := by
  decide

variable {area p} {v : Volume}

/-- Reads within the partition take sums of words only. -/
theorem read_eq (occupies : Occupies v area p) {offset length : Nat} (start : offset < v.size)
    (inside : offset + length ≤ v.size) :
    read area p offset length = OptionT.lift (v.read offset length) := by
  obtain ⟨device, base, size, addressable⟩ := occupies
  have space := addressSpace_lt
  rw [read, add_bind (by omega), if_neg (by omega), add_bind (by omega), add_bind (by omega),
    if_neg (by omega), Volume.read_eq addressable start inside, device, base, Nat.add_assoc]

theorem scanFrom_eq (occupies : Occupies v area p) {limit : Nat} (le : limit ≤ v.size)
    (offset : Nat) (last : Option (Candidate limit)) :
    scanFrom area p limit offset last = OptionT.lift (v.scanFrom limit offset last) := by
  have addressable := occupies.addressable
  have size := occupies.size_eq
  have space := addressSpace_lt
  have peek : Record.peekSize = 6 := rfl
  induction left : limit - offset using Nat.strongRecOn generalizing offset last with
  | ind left ih =>
    rw [scanFrom, Volume.scanFrom]
    by_cases below : offset < limit
    · rw [dif_pos below, add_bind (by omega)]
      by_cases room : offset + Record.peekSize ≤ v.size
      · rw [if_neg (by omega), dif_pos ⟨below, room⟩, read_eq occupies (by omega) room]
        refine lift_bind fun header => ?_
        dsimp only
        split
        · rfl
        split
        · rfl
        split
        · rfl
        · rename_i whole
          have long : 10 ≤ (Header.peek header).2.toNat := Nat.le_of_not_lt whole
          have short := (Header.peek header).2.toNat_lt
          rw [add_bind (by omega)]
          exact ih _ (by omega) _ _ rfl
      · rw [if_pos (by omega), dif_neg fun inside => room inside.2]
        rfl
    · rw [dif_neg below, dif_neg fun inside => below inside.1]
      rfl

theorem readRecord_eq (occupies : Occupies v area p) {offset : Nat} (start : offset < v.size) :
    readRecord area p offset = OptionT.lift (v.readRecord offset) := by
  have addressable := occupies.addressable
  have size := occupies.size_eq
  have space := addressSpace_lt
  have sizes : Record.headerSize = 8 ∧ Record.minSize = 10 ∧ Record.crcSize = 2 := ⟨rfl, rfl, rfl⟩
  rw [readRecord, Volume.readRecord, add_bind (by omega)]
  by_cases header : v.size < offset + Record.headerSize
  · rw [if_pos (by omega), if_pos header]
  rw [if_neg (by omega), if_neg header, read_eq occupies start (by omega)]
  refine lift_bind fun bytes => ?_
  dsimp only
  generalize Header.decode bytes = first
  have short := first.length.toNat_lt
  split
  · rfl
  split
  · rfl
  rw [add_bind (by omega)]
  by_cases past : v.size < offset + first.length.toNat
  · rw [if_pos (by omega), if_pos past]
  rw [if_neg (by omega), if_neg past, sub_bind (by omega), add_bind (by omega),
    read_eq occupies (by omega) (by omega)]
  refine lift_bind fun stored => ?_
  rw [sub_bind (by omega), read_eq occupies (by omega) (by omega)]
  exact lift_bind fun crc => rfl

theorem readValid_eq (occupies : Occupies v area p) {offset : Nat} (start : offset < v.size) :
    readValid area p offset = OptionT.lift (v.readValid offset) := by
  unfold readValid Volume.readValid
  rw [readRecord_eq occupies start]
  have checked (r : Record) :
      (pure (if r.integrity = .invalid then none else some r) : Checked (Option Record)) =
        OptionT.lift (pure (if r.integrity = .invalid then none else some r)) := rfl
  rw [lift_bind checked]
  refine lift_tryCatch fun e => ?_
  cases e <;> rfl

/-- A scan finds lengths of two bytes. -/
theorem ends_scanFrom (v : Volume) (limit offset : Nat) (last : Option (Candidate limit))
    (short : ∀ c, last = some c → c.length < 65536) :
    (v.scanFrom limit offset last).Ends fun scan => ∀ c, scan = .found c → c.length < 65536 := by
  induction left : limit - offset using Nat.strongRecOn generalizing offset last with
  | ind left ih =>
    rw [Volume.scanFrom]
    split
    · refine .bind fun header => ?_
      dsimp only
      split
      · exact .pure fun c same => short c (Scan.ofLast_eq_found same)
      split
      · exact .pure nofun
      split
      · exact .pure nofun
      · rename_i whole
        have long : 10 ≤ (Header.peek header).2.toNat := Nat.le_of_not_lt whole
        refine ih _ (by omega) _ _ ?_ rfl
        rintro _ ⟨⟩
        exact (Header.peek header).2.toNat_lt
    · exact .pure fun c same => short c (Scan.ofLast_eq_found same)

theorem recoverBelow_eq (occupies : Occupies v area p) (logEnd : Option Nat) {limit : Nat}
    (le : limit ≤ v.size) :
    recoverBelow area p logEnd limit = OptionT.lift (v.recoverBelow logEnd limit) := by
  have addressable := occupies.addressable
  have space := addressSpace_lt
  induction limit using Nat.strongRecOn generalizing logEnd with
  | ind limit ih =>
    rw [recoverBelow, Volume.recoverBelow]
    split
    · rfl
    rw [scanFrom_eq occupies le]
    refine lift_bind_of_ends (ends_scanFrom v limit 0 none nofun) fun scan short => ?_
    cases scan with
    | empty => rfl
    | malformed => rfl
    | found last =>
      have below := last.offset_lt
      have length := short last rfl
      dsimp only
      rw [add_bind (by omega), readValid_eq occupies (by omega)]
      refine lift_bind fun latest => ?_
      cases latest with
      | none => exact ih last.offset below _ (by omega)
      | some latest => rfl

/-- On a partition within the address space, no sum or difference that recovery takes is out of the
words. -/
theorem recover_eq {t : Table} {index part : Nat} (found : t.volume index part = .ok v)
    (addressable : v.start + v.size ≤ addressSpace) :
    recover t index part = OptionT.lift v.recover := by
  obtain ⟨area, p, known, device, start, size⟩ := Table.knows_of_volume found
  have indexed : t.area index = .ok area := by
    unfold Table.area
    rw [known.area_eq]
  rw [recover, indexed, lift_ok_bind, known.partition_eq, lift_ok_bind, ← size]
  exact recoverBelow_eq ⟨device, start, size, addressable⟩ none (Nat.le_refl _)

end Checked

end TwinLog
