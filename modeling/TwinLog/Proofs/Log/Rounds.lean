-- SUMMARY: Recovery on devices that reply anything: what it reads, when it ends and how it fails.
import TwinLog.Proofs.FirstLoad
import TwinLog.Proofs.Histories
import TwinLog.Proofs.Log.Words

/-! # Rounds of recovery

Nothing is assumed of the devices here. A read may return any bytes or any error, and an address
that is read again may hold something else. A scan still moves on by a whole record with every step,
and each round of recovery has a smaller limit than the one before (`Volume.Rounds`), so recovery
ends after a bounded number of reads. Main statement: `Table.recovery_ends`. -/

namespace TwinLog

/-! ## Scans -/

namespace Volume

/-- The look at the magic word and the length at an offset. -/
def look (v : Volume) (offset : Nat) : Request :=
  ⟨v.device, .read (v.start + offset).toUInt32 Record.peekSize⟩

/-- The offsets that a scan looks at, from one on: each is below the limit, and the next one is at
least a record behind it. -/
inductive Walk (limit : Nat) : Nat → List Nat → Prop where
  | stop (offset : Nat) : Walk limit offset []
  | step {offset next : Nat} {offsets : List Nat} (below : offset < limit)
      (ahead : offset + Record.minSize ≤ next) (rest : Walk limit next offsets) :
      Walk limit offset (offset :: offsets)

namespace Walk

variable {limit offset : Nat} {offsets : List Nat}

theorem lt_of_mem (walk : Walk limit offset offsets) : ∀ o ∈ offsets, o < limit := by
  induction walk with
  | stop offset => exact nofun
  | step below _ _ ih => exact List.forall_mem_cons.2 ⟨below, ih⟩

theorem length_le (walk : Walk limit offset offsets) :
    offsets.length * Record.minSize ≤ limit + 9 - offset := by
  have size : Record.minSize = 10 := rfl
  induction walk with
  | stop offset => simp
  | step below ahead _ ih =>
    rw [List.length_cons, Nat.succ_mul]
    omega

/-- A scan from the start takes a step for every ten bytes at most. -/
theorem length_le_of_start (walk : Walk limit 0 offsets) : offsets.length ≤ (limit + 9) / 10 :=
  (Nat.le_div_iff_mul_le (by decide)).2 walk.length_le

end Walk

section Scans

variable {v : Volume} (addressable : v.start + v.size ≤ addressSpace)
include addressable

/-- A scan makes the looks of a walk, and finds the record at one of them. -/
theorem yields_scanFrom {limit offset : Nat} (le : limit ≤ v.size)
    {last : Option (Candidate limit)} {history : List (Exchange Bus)}
    {result : Except Error (Scan limit)}
    (h : (v.scanFrom limit offset last).Yields history result) :
    ∃ offsets, Walk limit offset offsets ∧ history.map Exchange.request = offsets.map v.look ∧
      ∀ c, result = .ok (.found c) → last = some c ∨ c.offset ∈ offsets := by
  -- on what is left below the limit, since the lengths in the headers are whatever the device
  -- replies
  induction left : limit - offset using Nat.strongRecOn generalizing offset last history with
  | ind left ih =>
    rw [scanFrom] at h
    split at h
    · rename_i inside
      have one : Walk limit offset [offset] := .step inside.1 (Nat.le_refl _) (.stop _)
      rw [read_eq addressable (by omega) inside.2] at h
      rcases Access.yields_bind.1 h with ⟨e, failed, rfl⟩ | ⟨header, first, rest, rfl, looked, h⟩
      · rw [Access.yields_perform.1 failed]
        refine ⟨[offset], one, rfl, fun c same => ?_⟩
        cases same
      rw [Access.yields_perform.1 looked]
      have stop {scan : Scan limit} (known : ∀ c, scan = .found c → last = some c)
          (h : (pure scan : Access (Scan limit)).Yields rest result) :
          ∃ offsets, Walk limit offset offsets ∧
            v.look offset :: rest.map Exchange.request = offsets.map v.look ∧
            ∀ c, result = .ok (.found c) → last = some c ∨ c.offset ∈ offsets := by
        obtain ⟨rfl, rfl⟩ := Access.yields_pure.1 h
        exact ⟨[offset], one, rfl, fun c same => .inl (known c (Except.ok.inj same))⟩
      have garbage (c : Candidate limit) (same : Scan.malformed = .found c) : last = some c := by
        cases same
      dsimp only at h
      split at h
      · exact stop (fun c => Scan.ofLast_eq_found) h
      split at h
      · exact stop garbage h
      split at h
      · exact stop garbage h
      · rename_i whole
        have long : Record.minSize ≤ (Header.peek header).2.toNat := Nat.le_of_not_lt whole
        have pos : 0 < Record.minSize := by decide
        obtain ⟨offsets, walk, requests, member⟩ := ih _ (by omega) h rfl
        refine ⟨offset :: offsets, .step inside.1 (by omega) walk, ?_, fun c same => .inr ?_⟩
        · rw [List.map_append, requests]
          rfl
        · rcases member c same with same | later
          · cases same
            exact List.mem_cons_self
          · exact List.mem_cons_of_mem _ later
    · obtain ⟨rfl, rfl⟩ := Access.yields_pure.1 h
      exact ⟨[], .stop _, rfl, fun c same => .inl (Scan.ofLast_eq_found (Except.ok.inj same))⟩

/-- A read within the volume fails only with the error that it gets. -/
theorem fails_read {offset length : Nat} {own : Error → Prop} (start : offset < v.size)
    (inside : offset + length ≤ v.size) : (v.read offset length).Fails own := by
  rw [read_eq addressable start inside]
  exact .perform

theorem fails_scanFrom {limit : Nat} (le : limit ≤ v.size) (offset : Nat)
    (last : Option (Candidate limit)) {own : Error → Prop} :
    (v.scanFrom limit offset last).Fails own := by
  refine v.scanFrom_ind (fun scan => ?_) (fun offset k below inside rest => ?_) offset last
  · exact .pure scan
  · exact .bind (fails_read addressable (Nat.lt_of_lt_of_le below le) inside) rest

/-- A record may be too large. Its header may also have become too short since it was scanned. -/
theorem fails_readRecord {offset : Nat} (start : offset < v.size) :
    (v.readRecord offset).Fails fun e => e = .tooLarge ∨ e = .malformedLog := by
  have sizes : Record.headerSize = 8 ∧ Record.minSize = 10 ∧ Record.crcSize = 2 := ⟨rfl, rfl, rfl⟩
  unfold readRecord
  split
  · exact .throw (.inl rfl)
  refine .bind (fails_read addressable start (by omega)) fun header => ?_
  dsimp only
  split
  · exact .throw (.inl rfl)
  split
  · exact .throw (.inr rfl)
  split
  · exact .throw (.inl rfl)
  refine .bind (fails_read addressable (by omega) (by omega)) fun stored => ?_
  exact .bind (fails_read addressable (by omega) (by omega)) fun crc => .pure _

theorem fails_readValid {offset : Nat} (start : offset < v.size) :
    (v.readValid offset).Fails (· = .malformedLog) := by
  refine .tryCatch (.bind (fails_readRecord addressable start) fun r => .pure _) fun e => ?_
  by_cases large : e = .tooLarge
  · rw [large]
    exact .inl ⟨none, rfl⟩
  · refine .inr ⟨?_, fun own => own.resolve_left large⟩
    cases e <;> first | rfl | exact absurd rfl large

theorem fails_recoverBelow (logEnd : Option Nat) {limit : Nat} (le : limit ≤ v.size) :
    (v.recoverBelow logEnd limit).Fails (· = .malformedLog) := by
  refine v.recoverBelow_ind (fun found => ?_) (fun limit k le rest => ?_)
    (fun offset k start rest => ?_) logEnd le
  · exact .pure found
  · exact .bind (fails_scanFrom addressable le 0 none) rest
  · exact .bind (fails_readValid addressable start) rest

end Scans

/-! ## Rounds -/

/-- What recovery below a limit reads, in rounds. A round scans, and then reads the record that the
scan has found at one of its offsets. That offset, which is below the limit, is the limit of the
next round. Recovery may end at any point. -/
inductive Rounds (v : Volume) : Nat → List Request → Prop where
  | done (limit : Nat) : Rounds v limit []
  | scan {limit : Nat} {offsets : List Nat} (walk : Walk limit 0 offsets) :
      Rounds v limit (offsets.map v.look)
  | round {limit offset : Nat} {offsets : List Nat} {record rest : List Request}
      (walk : Walk limit 0 offsets) (found : offset ∈ offsets) (few : record.length ≤ 3)
      (later : Rounds v offset rest) : Rounds v limit (offsets.map v.look ++ record ++ rest)

/-- The limits decrease, so there is an end. -/
theorem Rounds.length_le {v : Volume} {limit : Nat} {requests : List Request}
    (rounds : v.Rounds limit requests) :
    requests.length ≤ limit * ((limit + 9) / 10 + 3) := by
  induction rounds with
  | done limit => exact Nat.zero_le _
  | @scan limit offsets walk =>
    have steps := walk.length_le_of_start
    rw [List.length_map]
    rcases Nat.eq_zero_or_pos limit with rfl | pos
    · omega
    · exact Nat.le_trans (by omega) (Nat.le_mul_of_pos_left _ pos)
  | @round limit offset offsets record rest walk found few later ih =>
    have steps := walk.length_le_of_start
    have lower := walk.lt_of_mem offset found
    have fewer : offset * ((offset + 9) / 10 + 3) ≤ (limit - 1) * ((limit + 9) / 10 + 3) :=
      Nat.mul_le_mul (by omega) (by omega)
    calc
      (offsets.map v.look ++ record ++ rest).length ≤
          (limit + 9) / 10 + 3 + (limit - 1) * ((limit + 9) / 10 + 3) := by
        simp only [List.length_append, List.length_map]
        omega
      _ = (1 + (limit - 1)) * ((limit + 9) / 10 + 3) := by
        rw [Nat.add_mul, Nat.one_mul]
      _ = limit * ((limit + 9) / 10 + 3) := by
        rw [Nat.add_sub_cancel' (by omega)]

theorem atMost_read (v : Volume) (offset length : Nat) : (v.read offset length).AtMost 1 := by
  unfold read
  cases v.locate offset length with
  | error e => exact .throw 1 e
  | ok address => exact Access.AtMost.perform

theorem atMost_readRecord (v : Volume) (offset : Nat) : (v.readRecord offset).AtMost 3 := by
  unfold readRecord
  split
  · exact .throw 3 _
  refine .bind (n := 2) (v.atMost_read _ _) fun header => ?_
  dsimp only
  split
  · exact .throw 2 _
  split
  · exact .throw 2 _
  split
  · exact .throw 2 _
  refine .bind (n := 1) (v.atMost_read _ _) fun stored => ?_
  exact .bind (n := 0) (v.atMost_read _ _) fun crc => .pure _

theorem atMost_readValid (v : Volume) (offset : Nat) : (v.readValid offset).AtMost 3 := by
  refine .tryCatch (.bind (n := 0) (v.atMost_readRecord offset) fun r => .pure _) fun e => ?_
  split
  · exact .pure _
  · exact .throw 0 _

/-- Recovery goes in rounds, whatever the devices reply. -/
theorem yields_recoverBelow {v : Volume} (addressable : v.start + v.size ≤ addressSpace)
    {logEnd : Option Nat} {limit : Nat} (le : limit ≤ v.size) {history : List (Exchange Bus)}
    {result : Except Error Recovered} (h : (v.recoverBelow logEnd limit).Yields history result) :
    v.Rounds limit (history.map Exchange.request) := by
  induction limit using Nat.strongRecOn generalizing logEnd history with
  | ind limit ih =>
    rw [recoverBelow] at h
    split at h
    · rw [(Access.yields_pure.1 h).1]
      exact .done limit
    rcases Access.yields_bind.1 h with ⟨e, failed, -⟩ | ⟨scan, first, rest, rfl, scanned, h⟩
    · obtain ⟨offsets, walk, looks, -⟩ := yields_scanFrom addressable le failed
      rw [looks]
      exact .scan walk
    obtain ⟨offsets, walk, looks, member⟩ := yields_scanFrom addressable le scanned
    rw [List.map_append, looks]
    cases scan with
    | empty =>
      rw [(Access.yields_pure.1 h).1, List.map_nil, List.append_nil]
      exact .scan walk
    | malformed =>
      rw [(Access.yields_pure.1 h).1, List.map_nil, List.append_nil]
      exact .scan walk
    | found last =>
      have found : last.offset ∈ offsets := by
        rcases member last rfl with none | found
        · cases none
        · exact found
      -- what a round reads after its walk is the record at the place that it found
      have round {record : List (Exchange Bus)} (later : List (Exchange Bus))
          (few : record.length ≤ 3) (behind : v.Rounds last.offset (later.map Exchange.request)) :
          v.Rounds limit (offsets.map v.look ++ (record ++ later).map Exchange.request) := by
        rw [List.map_append, ← List.append_assoc]
        exact .round walk found (by rwa [List.length_map]) behind
      have few := v.atMost_readValid last.offset
      rcases Access.yields_bind.1 h with ⟨e, failed, -⟩ | ⟨latest, record, later, rfl, read, h⟩
      · have ended := round [] (few _ _ failed) (.done _)
        rwa [List.append_nil] at ended
      refine round later (few _ _ read) ?_
      -- the next round is limited to the bytes before this place
      cases latest with
      | none =>
        exact ih last.offset last.offset_lt (Nat.le_trans (Nat.le_of_lt last.offset_lt) le) h
      | some latest =>
        rw [(Access.yields_pure.1 h).1]
        exact .done _

end Volume

/-! ## Recovery -/

/-- Recovery of a partition within the address space ends on every device: after rounds of reads
with smaller and smaller limits, all of them within the partition, and all offsets words. Either
it succeeds, or a header has become too short since it was scanned, or it has the error that its
last read got. -/
theorem Table.recovery_ends {t : Table} {index part : Nat} {v : Volume}
    (found : t.volume index part = .ok v) (addressable : v.start + v.size ≤ addressSpace)
    {σ : Type} (answer : (request : Bus.Request) → StateM σ (Bus.Reply request)) (s : σ) :
    let result := (v.recover.run.run answer s).1
    let history := v.recover.run.history answer s
    (v.Rounds v.size (history.map Exchange.request) ∧
      history.length ≤ v.size * ((v.size + 9) / 10 + 3)) ∧
    (∀ exchange ∈ history, v.Reads exchange.request) ∧
    Checked.recover t index part = OptionT.lift v.recover ∧
    ((∃ recovered, result = .ok recovered) ∨ result = .error .malformedLog ∨
      ∃ e, result = .error e ∧ history.getLast?.bind Exchange.error? = some e) := by
  intro result history
  have yields : v.recover.Yields history result := Script.yields_run answer v.recover.run s
  have rounds := Volume.yields_recoverBelow addressable (Nat.le_refl _) yields
  have bound := rounds.length_le
  rw [List.length_map] at bound
  have only : v.recover.Only v.Reads := v.only_recoverBelow none v.size
  refine ⟨⟨rounds, bound⟩, only.of_yields yields, Checked.recover_eq found addressable, ?_⟩
  cases ended : result with
  | ok recovered => exact .inl ⟨recovered, rfl⟩
  | error e =>
    rw [ended] at yields
    refine .inr ((Volume.fails_recoverBelow addressable none (Nat.le_refl _) _ _ yields).imp ?_ ?_)
    · rintro rfl
      rfl
    · exact fun last => ⟨e, rfl, last⟩

/-- A device that shows a record wherever it is read, of another length each time. It keeps the
lengths that are left, and fails when there is none. -/
def restless (request : Bus.Request) : StateM (List Nat) (Bus.Reply request) :=
  match request with
  | ⟨_, .read _ size⟩ => fun
    | [] => (.error (.device .other), [])
    | length :: lengths =>
      (.ok (.ofListPadded size
        (Bytes.listOfNat 4 Record.magicWord.toNat ++ Bytes.listOfNat 2 length)), lengths)
  | ⟨_, .write _ _⟩ => fun lengths => (.error .notSupported, lengths)
  | ⟨_, .erase _ _⟩ => fun lengths => (.error .notSupported, lengths)
  | ⟨_, .sync⟩ => fun lengths => (.error .notSupported, lengths)

/-- Recovery of the last partition of the address space. The record at offset 41 is too long when its
header is read, and the one at offset 0 too short. -/
theorem Table.recovery_ends_restless :
    let v : Volume := ⟨⟨0⟩, ⟨some 4, some 4096⟩, 0xFFFFF000, 4096⟩
    let lengths := [41, 65535, 42, 41, 9]
    let requests := (v.recover.run.history restless lengths).map Exchange.request
    (summit.volume 0 2 = .ok v ∧ v.start + v.size ≤ addressSpace) ∧
      requests = [v.look 0, v.look 41, ⟨⟨0⟩, .read 0xFFFFF029 8⟩, v.look 0,
        ⟨⟨0⟩, .read 0xFFFFF000 8⟩] ∧
      v.Rounds 4096 requests ∧ (∀ request ∈ requests, v.Reads request) ∧
      Checked.recover summit 0 2 = OptionT.lift v.recover ∧
      (v.recover.run.run restless lengths).1 = .error .malformedLog := by
  intro v lengths requests
  have found : summit.volume 0 2 = .ok v := rfl
  have addressable : v.start + v.size ≤ addressSpace := by decide
  obtain ⟨⟨rounds, -⟩, reads, words, outcome⟩ := recovery_ends found addressable restless lengths
  refine ⟨⟨found, addressable⟩, by decide +kernel, rounds, List.forall_mem_map.2 reads, words, ?_⟩
  have unrecovered : (v.recover.run.run restless lengths).1.toOption = none := by decide +kernel
  have shown : (v.recover.run.history restless lengths).getLast?.bind Exchange.error? = none := by
    decide +kernel
  rcases outcome with ⟨recovered, ended⟩ | failed | ⟨e, -, last⟩
  · rw [ended] at unrecovered
    cases unrecovered
  · exact failed
  · rw [shown] at last
    cases last

end TwinLog
