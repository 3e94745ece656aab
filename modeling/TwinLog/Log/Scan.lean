-- SUMMARY: Walking the record headers of a log.
import TwinLog.Record.Basic
import TwinLog.Volume

/-! # Scanning a log

A log is a sequence of records from the start of a volume, followed by erased bytes. The scan
walks from header to header and trusts nothing but the magic word and the length, so a record it
finds is only a candidate. -/

namespace TwinLog

/-- A record header that a scan found below a limit. Nothing of its content is verified. -/
structure Candidate (limit : Nat) where
  offset : Nat
  length : Nat
  offset_lt : offset < limit

inductive Scan (limit : Nat) where
  /-- There is no record. -/
  | empty
  /-- There is something that is neither a record header nor erased. -/
  | malformed
  /-- The last record header. -/
  | found (last : Candidate limit)

namespace Scan

/-- The outcome of a scan that ended in order. -/
def ofLast {limit : Nat} : Option (Candidate limit) → Scan limit
  | none => .empty
  | some last => .found last

theorem ofLast_eq_found {limit : Nat} {last : Option (Candidate limit)} {c : Candidate limit}
    (h : ofLast last = .found c) : last = some c := by
  cases last with
  | none => cases h
  | some last =>
    cases h
    rfl

end Scan

namespace Volume

/-- What an erased word reads as. -/
def erasedWord : UInt32 := 0xFFFFFFFF

/-- Goes on with a scan at `offset`, with `last` the last header so far. -/
def scanFrom (v : Volume) (limit offset : Nat) (last : Option (Candidate limit)) :
    Access (Scan limit) :=
  if h : offset < limit ∧ offset + Record.peekSize ≤ v.size then do
    let (magic, length) := Header.peek (← v.read offset Record.peekSize)
    if magic = erasedWord then return .ofLast last
    else if magic ≠ Record.magicWord then return .malformed
    else if short : length.toNat < Record.minSize then return .malformed
    else
      have : 10 ≤ length.toNat := Nat.le_of_not_lt short
      v.scanFrom limit (offset + length.toNat) (some ⟨offset, length.toNat, h.1⟩)
  else return .ofLast last
termination_by limit - offset

/-- Walks the log from its start until erased bytes, the end of the volume or the limit. -/
def scan (v : Volume) (limit : Nat) : Access (Scan limit) :=
  v.scanFrom limit 0 none

end Volume

end TwinLog
