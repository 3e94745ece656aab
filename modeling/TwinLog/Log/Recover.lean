-- SUMMARY: Recovering the last valid record of a log.
import TwinLog.Log.Read
import TwinLog.Log.Scan

/-! # Recovery

The last record of a log may be torn, because power was lost while it was written. Recovery takes
the last record that a scan finds; if it is not valid, the scan is repeated below it, until a
valid record turns up or nothing is left. The limit decreases with every round. -/

namespace TwinLog

/-- How much a log can be relied on. -/
inductive Status where
  /-- The log holds garbage or no valid record, and is erased before the next record. -/
  | corrupt
  | empty
  | clean
deriving DecidableEq

/-- Where a log stands after recovery or after the last write. -/
structure LogState where
  status : Status
  /-- The end of the last record, where the next one goes. -/
  freeOffset : Nat
deriving DecidableEq

def LogState.empty : LogState := ⟨.empty, 0⟩

inductive Recovered where
  | empty
  | corrupt (freeOffset : Nat)
  | clean (freeOffset : Nat) (latest : Record)
deriving DecidableEq

namespace Recovered

def state : Recovered → LogState
  | .empty => .empty
  | .corrupt freeOffset => ⟨.corrupt, freeOffset⟩
  | .clean freeOffset _ => ⟨.clean, freeOffset⟩

def latest? : Recovered → Option Record
  | .empty => none
  | .corrupt _ => none
  | .clean _ latest => some latest

end Recovered

namespace Volume

/-- Recovers the log below `limit`. The end of the log, once an earlier round has found it, is
`logEnd`. -/
def recoverBelow (v : Volume) (logEnd : Option Nat) (limit : Nat) : Access Recovered :=
  if limit = 0 then return .corrupt (logEnd.getD 0)
  else do
    match ← v.scan limit with
    | .empty => return .empty
    | .malformed => return .corrupt (logEnd.getD 0)
    | .found ⟨offset, length, _⟩ =>
      let logEnd := logEnd.getD (offset + length)
      match ← v.readValid offset with
      | some latest => return .clean logEnd latest
      | none => v.recoverBelow (some logEnd) offset
termination_by limit

/-- Finds the last valid record of the log and the end of the log. -/
def recover (v : Volume) : Access Recovered :=
  v.recoverBelow none v.size

end Volume

end TwinLog
