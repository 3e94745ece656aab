-- SUMMARY: What becomes of the recovery of a log of which a read fails.
import Mathlib.Data.List.Induction
import TwinLog.Proofs.FirstLoad
import TwinLog.Proofs.Interruption

/-! # Upset recovery

Recovery looks at the start of each entry of a log, and reads the records of some of them. It raises
every error of a read but one: a record that is too large is taken for a torn one, and recovery
cannot tell whether the device says so. An error of this name is raised where the start of an entry
is looked at. Where a record is read, recovery goes on with the records before
(`Volume.breaks_recover`). -/

namespace TwinLog

variable {σ : Type} {answer : (request : Bus.Request) → StateM σ (Bus.Reply request)}
  {content : σ → Medium}

/-! ## Reads of records -/

namespace Log

/-- Where an entry of a log starts, no other entry is under way. -/
theorem extent_ne_of_entry {front back front' back' : List Entry} {entry : Entry}
    (same : front ++ back = front' ++ entry :: back') {n : Nat} (pos : 0 < n)
    (inside : n < entry.length) : extent front ≠ extent front' + n := by
  rcases List.append_eq_append_iff.1 same with ⟨more, rfl, -⟩ | ⟨more, rfl, split⟩
  · rw [extent_append]
    omega
  · cases more with
    | nil =>
      rw [List.append_nil]
      omega
    | cons first more =>
      obtain ⟨rfl, -⟩ := List.cons.inj split
      have total : extent (entry :: more) = entry.length + extent more := rfl
      rw [extent_append, total]
      omega

end Log

namespace Volume

variable {v : Volume}

/-- The request reads `length` bytes at an offset. -/
def Gets (v : Volume) (offset length : Nat) (request : Request) : Prop :=
  ∃ address : UInt32, address.toNat = v.start + offset ∧
    request = ⟨v.device, .read address length⟩

/-- The request reads the header, the payload or the CRC of a record. -/
def GetsRecord (v : Volume) (offset length : Nat) (request : Request) : Prop :=
  v.Gets offset Record.headerSize request ∨
    v.Gets (offset + Record.headerSize) (length - Record.minSize) request ∨
    v.Gets (offset + length - Record.crcSize) Record.crcSize request

/-- The request reads one of the records of a log, and does not just look where it starts. -/
def GetsEntry (v : Volume) (bytes : List UInt8) (request : Request) : Prop :=
  ∃ front entry back, Log.entries bytes = some (front ++ entry :: back) ∧
    v.GetsRecord (Log.extent front) entry.length request

/-- A read tells its offset and its length. -/
theorem Gets.unique {offset offset' length length' : Nat} {request : Request}
    (h : v.Gets offset length request) (h' : v.Gets offset' length' request) :
    offset = offset' ∧ length = length' := by
  obtain ⟨address, start, rfl⟩ := h
  obtain ⟨address', start', same⟩ := h'
  cases same
  exact ⟨by omega, rfl⟩

/-- A look at an entry reads no record, not even a payload of as many bytes. -/
theorem not_getsEntry_of_look {bytes : List UInt8} {front back : List Log.Entry}
    (h : Log.entries bytes = some (front ++ back)) {request : Request}
    (looks : v.Gets (Log.extent front) Record.peekSize request) : ¬v.GetsEntry bytes request := by
  rintro ⟨front', entry, back', h', header | payload | crc⟩
  · exact absurd (looks.unique header).2 (by decide)
  · -- a payload of six bytes starts within its entry, where no other one starts
    obtain ⟨offset, length⟩ := looks.unique payload
    have same := Option.some.inj (h.symm.trans h')
    refine Log.extent_ne_of_entry same (by decide) ?_ offset
    simp only [Record.peekSize, Record.minSize, Record.headerSize, Record.crcSize] at length ⊢
    omega
  · exact absurd (looks.unique crc).2 (by decide)

/-- The walk from the start ends at the entry that reaches the limit. -/
theorem lastCandidate_append_cons {limit : Nat} {front back : List Log.Entry} {entry : Log.Entry}
    (below : Log.extent front < limit) (above : limit ≤ Log.extent (front ++ [entry])) :
    lastCandidate limit 0 none (front ++ entry :: back) =
      some ⟨Log.extent front, entry.length, below⟩ := by
  rw [List.append_cons, lastCandidate_append (by omega),
    lastCandidate_append_singleton (by omega)]
  simp only [Nat.zero_add]

/-! ## Interrupted recovery -/

/-- How a recovery goes on of which a read fails. -/
inductive Upset (v : Volume) (bytes : List UInt8) (i : Interruption σ (Except Error Recovered)) :
    Prop where
  /-- The read just looks at the start of an entry. Every error is raised. -/
  | look (other : ¬v.GetsEntry bytes i.request) (raises : ∀ e, i.Raises e)
  /-- The read is one of a record. If the record is too large, recovery goes on below it. -/
  | record {front back : List Log.Entry} {entry : Log.Entry}
      (found : Log.entries bytes = some (front ++ entry :: back))
      (gets : v.GetsRecord (Log.extent front) entry.length i.request)
      (raises : ∀ e, e ≠ .tooLarge → i.Raises e)
      (below : i.after .tooLarge =
        (v.recoverBelow (some (Log.extent (front ++ entry :: back))) (Log.extent front)).run)

namespace Upset

variable {bytes : List UInt8} {i : Interruption σ (Except Error Recovered)}

theorem raises (upset : v.Upset bytes i) {e : Error}
    (other : ¬(e = .tooLarge ∧ v.GetsEntry bytes i.request)) : i.Raises e := by
  cases upset with
  | look _ raises => exact raises e
  | record found gets raises =>
    exact raises e fun large => other ⟨large, _, _, _, found, gets⟩

theorem skips (upset : v.Upset bytes i) (gets : v.GetsEntry bytes i.request) :
    ∃ front entry back, Log.entries bytes = some (front ++ entry :: back) ∧
      v.GetsRecord (Log.extent front) entry.length i.request ∧
      i.after .tooLarge =
        (v.recoverBelow (some (Log.extent (front ++ entry :: back))) (Log.extent front)).run := by
  cases upset with
  | look other => exact absurd gets other
  | record found gets _ below => exact ⟨_, _, _, found, gets, below⟩

end Upset

theorem breaks_read (v : Volume) (offset length : Nat) (s : σ) :
    (v.read offset length).Breaks answer s fun i =>
      v.Gets offset length i.request ∧ ∀ e, i.Raises e := by
  unfold read
  cases located : v.locate offset length with
  | error e => exact .throw e
  | ok address =>
    have asked : (v.device.perform (.read address length)).Breaks answer s fun i =>
        v.Gets offset length i.request ∧ ∀ e, i.Raises e :=
      .perform _ _ ⟨⟨address, (locate_exact located).1, rfl⟩, fun e => rfl⟩
    exact .bind_ok asked

/-- A scan raises every error. -/
theorem breaks_scanFrom_raises (v : Volume) (limit offset : Nat) (last : Option (Candidate limit))
    (s : σ) : (v.scanFrom limit offset last).Breaks answer s fun i => ∀ e, i.Raises e := by
  refine v.scanFrom_ind (motive := fun x => ∀ s, x.Breaks answer s fun i => ∀ e, i.Raises e)
    (fun scan s => ?_) (fun offset k _ _ rest s => ?_) offset last s
  · exact .pure scan
  · refine .bind ((v.breaks_read _ _ s).mono fun i h e => (h.2 e).andThen k) fun header _ => ?_
    exact rest header _

/-- A log without records is scanned once. -/
theorem breaks_recover_of_scan {bytes : List UInt8} {scan : Scan v.size} {s s' : σ}
    (scanned : (v.scan v.size).run.run answer s = (.ok scan, s'))
    (ends : scan = .empty ∨ scan = .malformed)
    (looks : (v.scan v.size).Breaks answer s fun i =>
      ¬v.GetsEntry bytes i.request ∧ ∀ e, i.Raises e) :
    v.recover.Breaks answer s (v.Upset bytes) := by
  unfold recover
  rw [recoverBelow]
  split
  · exact .pure _
  refine .bind (looks.mono fun i h => .look h.1 fun e => (h.2 e).andThen _) fun scan' found => ?_
  rw [scanned] at found
  cases found
  rcases ends with rfl | rfl
  · exact .pure _
  · exact .pure _

section Served

variable (served : v.Served answer content) (addressable : v.start + v.size ≤ addressSpace)
include served addressable

theorem Served.run_read (offset length : Nat) (start : offset < v.size)
    (inside : offset + length ≤ v.size) (s : σ) :
    ∃ s', (v.read offset length).run.run answer s =
        (.ok (.ofListPadded length ((v.content (content s)).drop offset)), s') ∧
      content s' = content s :=
  served.run_of_holds addressable (v.only_read _ _)
    fun _ holds => wp_read holds start inside ⟨rfl, rfl⟩ trivial

/-- Recovery below some entries of a log returns what these entries determine. -/
theorem Served.run_recoverBelow {es back : List Log.Entry} {s : σ}
    (h : Log.entries (v.content (content s)) = some (es ++ back)) (logEnd : Nat) :
    ∃ s', (v.recoverBelow (some logEnd) (Log.extent es)).run.run answer s =
        (.ok (Log.outcome logEnd es), s') ∧ content s' = content s :=
  served.run_of_holds addressable (v.only_recoverBelow _ _)
    fun _ holds => wp_recoverBelow holds h ⟨rfl, rfl⟩ trivial

/-- One step of a scan looks at the header under it. -/
theorem breaks_scanStep {limit offset : Nat} {last : Option (Candidate limit)} {bytes : List UInt8}
    {s : σ} {kind : Interruption σ (Except Error (Scan limit)) → Prop}
    (holds : v.content (content s) = bytes)
    (look : ∀ i, v.Gets offset Record.peekSize i.request → (∀ e, i.Raises e) → kind i)
    (header : (inside : offset < limit) → offset + 6 ≤ v.size →
      (Header.ofList (bytes.drop offset)).magic = Record.magicWord →
      10 ≤ (Header.ofList (bytes.drop offset)).length.toNat → ∀ s', content s' = content s →
      (v.scanFrom limit (offset + (Header.ofList (bytes.drop offset)).length.toNat)
        (some ⟨offset, (Header.ofList (bytes.drop offset)).length.toNat, inside⟩)).Breaks answer s'
          kind) : (v.scanFrom limit offset last).Breaks answer s kind := by
  rw [scanFrom]
  split
  · rename_i inside
    refine .bind ((v.breaks_read _ _ s).mono fun i h => look _ h.1 fun e => (h.2 e).andThen _)
      fun first read => ?_
    obtain ⟨s', run, kept⟩ := served.run_read addressable offset Record.peekSize
      (Nat.lt_of_lt_of_le (Nat.lt_add_of_pos_right (by decide)) inside.2) inside.2 s
    rw [run] at read ⊢
    cases read
    rw [holds, Header.peek_ofListPadded]
    dsimp only
    split
    · exact .pure _
    split
    · exact .pure _
    split
    · exact .pure _
    · rename_i magic whole
      exact header inside.1 inside.2 (not_not.1 magic) (Nat.le_of_not_lt whole) s' kept
  · exact .pure _

/-- A scan over the entries of a log looks at each of them, and raises every error. -/
theorem breaks_scanFrom {bytes : List UInt8} {limit offset : Nat} (front : List Log.Entry)
    {es : List Log.Entry} {last : Option (Candidate limit)}
    (h : Log.entries bytes = some (front ++ es)) (start : offset = Log.extent front) {s : σ}
    (holds : v.content (content s) = bytes) :
    (v.scanFrom limit offset last).Breaks answer s fun i =>
      ¬v.GetsEntry bytes i.request ∧ ∀ e, i.Raises e := by
  induction es generalizing front offset last s with
  | nil =>
    refine v.breaks_scanStep served addressable holds
      (fun i looks raises => ⟨not_getsEntry_of_look h (start ▸ looks), raises⟩)
      fun inside long magic length s' kept => ?_
    -- behind the entries there is no header
    rcases Log.blank_of_entries (Log.entries_drop h) with short | erased
    · rw [← start, List.length_drop, ← holds, length_content] at short
      omega
    · rw [← start, magic] at erased
      exact absurd erased (by decide)
  | cons e es ih =>
    obtain ⟨-, -, -, same, -⟩ := Log.entries_cons (Log.entries_drop h)
    refine v.breaks_scanStep served addressable holds
      (fun i looks raises => ⟨not_getsEntry_of_look h (start ▸ looks), raises⟩)
      fun inside long magic length s' kept => ?_
    refine ih (front ++ [e]) (by simpa using h) ?_ (kept.symm ▸ holds)
    rw [Log.extent_append_singleton, same, start]

/-- A read of a record raises every error. -/
theorem breaks_readRecord {bytes : List UInt8} {offset : Nat} {s : σ}
    (holds : v.content (content s) = bytes) :
    (v.readRecord offset).Breaks answer s fun i =>
      v.GetsRecord offset (Header.ofList (bytes.drop offset)).length.toNat i.request ∧
        ∀ e, i.Raises e := by
  have sizes : Record.headerSize = 8 := rfl
  unfold readRecord
  split
  · exact .throw _
  rename_i inside
  refine .bind ((v.breaks_read _ _ s).mono fun i h => ⟨.inl h.1, fun e => (h.2 e).andThen _⟩)
    fun first read => ?_
  obtain ⟨s', run, kept⟩ := served.run_read addressable offset Record.headerSize
    (by omega) (Nat.le_of_not_lt inside) s
  rw [run] at read ⊢
  cases read
  rw [holds]
  have decoded : Header.decode (.ofListPadded Record.headerSize (bytes.drop offset)) =
      Header.ofList (bytes.drop offset) := rfl
  rw [decoded]
  dsimp only
  split
  · exact .throw _
  split
  · exact .throw _
  split
  · exact .throw _
  refine .bind ((v.breaks_read _ _ s').mono fun i h =>
    ⟨.inr (.inl h.1), fun e => (h.2 e).andThen _⟩) fun stored _ => ?_
  exact .bind ((v.breaks_read _ _ _).mono fun i h =>
    ⟨.inr (.inr h.1), fun e => (h.2 e).andThen _⟩) fun crc _ => .pure _

/-- A record is taken for none if one of its reads fails because the record is too large. Every
other error is raised. -/
theorem breaks_readValid {bytes : List UInt8} {offset : Nat} {s : σ}
    (holds : v.content (content s) = bytes) :
    (v.readValid offset).Breaks answer s fun i =>
      v.GetsRecord offset (Header.ofList (bytes.drop offset)).length.toNat i.request ∧
        (∀ e, e ≠ .tooLarge → i.Raises e) ∧ i.after .tooLarge = .done (.ok none) := by
  refine .tryCatch (.bind ((v.breaks_readRecord served addressable holds).mono
    fun i h => ⟨h.1, fun e other => ?_, ?_⟩) fun r _ => .pure _) fun e => ?_
  · refine (((h.2 e).andThen _).after_orElse _).trans ?_
    cases e <;> first | rfl | exact absurd rfl other
  · exact ((h.2 .tooLarge).andThen _).after_orElse _
  · split
    · exact ⟨_, rfl⟩
    · exact ⟨_, rfl⟩

/-- One round of recovery looks at entries and reads the record of the last one below the limit. -/
theorem breaks_round {bytes : List UInt8} {front back : List Log.Entry} {entry : Log.Entry}
    (h : Log.entries bytes = some (front ++ entry :: back)) {limit : Nat}
    (below : Log.extent front < limit)
    (last : lastCandidate limit 0 none (front ++ entry :: back) =
      some ⟨Log.extent front, entry.length, below⟩) {logEnd : Option Nat}
    (ends : logEnd.getD (Log.extent front + entry.length) = Log.extent (front ++ entry :: back))
    {s : σ} (holds : v.content (content s) = bytes)
    (rest : ∀ s', v.content (content s') = bytes →
      (v.recoverBelow (some (Log.extent (front ++ entry :: back))) (Log.extent front)).Breaks answer
        s' (v.Upset bytes)) :
    (v.recoverBelow logEnd limit).Breaks answer s (v.Upset bytes) := by
  obtain ⟨-, -, header, same, -⟩ := Log.entries_cons (Log.entries_drop h)
  have length : entry.length = (Header.ofList (bytes.drop (Log.extent front))).length.toNat := by
    rw [same]
  have candidate : Scan.ofLast (lastCandidate limit 0 none (front ++ entry :: back)) =
      .found ⟨Log.extent front, entry.length, below⟩ := by
    rw [last]
    rfl
  obtain ⟨s', scanned, kept⟩ : ∃ s', (v.scan limit).run.run answer s =
      (.ok (.found ⟨Log.extent front, entry.length, below⟩), s') ∧ content s' = content s :=
    served.run_of_holds addressable (v.only_scanFrom limit 0 none) fun _ held =>
      wp_scanFrom held (by rw [holds]; exact h) ⟨candidate, rfl⟩ trivial
  have holds' : v.content (content s') = bytes := kept.symm ▸ holds
  rw [recoverBelow, if_neg (by omega)]
  refine .bind ((v.breaks_scanFrom served addressable [] h rfl holds).mono
    fun i looked => .look looked.1 fun e => (looked.2 e).andThen _) fun scan found => ?_
  rw [scanned] at found ⊢
  cases found
  simp only [ends]
  -- the reads of the record follow, and where it is no valid one, the next round
  refine .bind ((v.breaks_readValid served addressable holds').mono
    fun i passed => ?_) fun latest _ => ?_
  · obtain ⟨gets, raises, skips⟩ := passed
    refine .record h (length ▸ gets) (fun e other => (raises e other).andThen _) ?_
    show (ExceptT.mk (i.after .tooLarge) >>= _).run = _
    rw [skips]
    rfl
  · cases latest with
    | some latest => exact .pure _
    | none =>
      obtain ⟨s'', read, kept'⟩ := served.run_of_holds addressable (s := s')
        (v.only_readValid (Log.extent front)) fun _ held =>
          wp_readValid held (by rw [holds']; exact header) ⟨rfl, rfl⟩ trivial
      rw [read]
      exact rest s'' (kept'.symm ▸ holds')

/-- Recovery below some entries of a log. -/
theorem breaks_recoverBelow {bytes : List UInt8} {es back : List Log.Entry}
    (h : Log.entries bytes = some (es ++ back)) {s : σ} (holds : v.content (content s) = bytes) :
    (v.recoverBelow (some (Log.extent (es ++ back))) (Log.extent es)).Breaks answer s
      (v.Upset bytes) := by
  -- each round takes the last entry off
  induction es using List.reverseRecOn generalizing back s with
  | nil =>
    rw [recoverBelow]
    exact .pure _
  | append_singleton front entry ih =>
    rw [List.append_assoc, List.singleton_append] at h ⊢
    have pos := Log.length_pos_of_entries h
    have total := Log.extent_append_singleton front entry
    exact v.breaks_round served addressable h (by omega)
      (lastCandidate_append_cons (by omega) (Nat.le_refl _)) rfl holds fun s' held => ih h held

/-- A recovery is upset by the read that fails, depending on what the volume holds. -/
theorem breaks_recover (s : σ) :
    v.recover.Breaks answer s (v.Upset (v.content (content s))) := by
  obtain ⟨bytes, holds⟩ : ∃ bytes, v.content (content s) = bytes := ⟨_, rfl⟩
  have size : bytes.length = v.size := by rw [← holds, length_content]
  have only : (v.scan v.size).Only v.Reads := v.only_scanFrom v.size 0 none
  rw [holds]
  cases h : Log.entries bytes with
  | none =>
    -- the log is unreadable: no record of it is read
    obtain ⟨s', scanned, -⟩ := served.run_of_holds addressable (s := s) only fun _ held =>
      wp_scanFrom_malformed held (by rw [holds]; exact h) ⟨rfl, rfl⟩ trivial
    refine v.breaks_recover_of_scan scanned (.inr rfl)
      ((v.breaks_scanFrom_raises _ _ _ s).mono fun i raises => ⟨?_, raises⟩)
    rintro ⟨front, entry, back, found, -⟩
    rw [h] at found
    cases found
  | some es =>
    rcases List.eq_nil_or_concat es with rfl | ⟨front, entry, rfl⟩
    · obtain ⟨s', scanned, -⟩ := served.run_of_holds addressable (s := s) only fun _ held =>
        wp_scanFrom held (by rw [holds]; exact h) ⟨rfl, rfl⟩ trivial
      exact v.breaks_recover_of_scan scanned (.inl rfl)
        (v.breaks_scanFrom served addressable [] h rfl holds)
    · -- the first round has no limit but the size, and fixes the end of the log
      rw [List.concat_eq_append] at h
      obtain ⟨long, -⟩ := Log.entries_cons (Log.entries_drop h)
      rw [List.length_drop, size] at long
      have last : lastCandidate v.size 0 none (front ++ [entry]) =
          some ⟨0 + Log.extent front, entry.length, by omega⟩ :=
        lastCandidate_append_singleton _
      simp only [Nat.zero_add] at last
      have ends : Option.getD none (Log.extent front + entry.length) =
          Log.extent (front ++ [entry]) := (Log.extent_append_singleton front entry).symm
      exact v.breaks_round served addressable h (by omega) last ends holds
        fun s' held => v.breaks_recoverBelow served addressable h held

end Served

end Volume

end TwinLog
