-- SUMMARY: Mounted twin logs: what is cached of them, and how the next generation is written.
import TwinLog.Log.Append
import TwinLog.Log.Recover
import TwinLog.Side
import TwinLog.Table

/-! # Sessions

Two logs in partitions of one area hold the settings. A session is what is known of them once
they are recovered: the state of each, and the latest record. Each save appends the next
generation to the side of its counter's parity, so that consecutive generations are on different
sides. A generation that could not be written is counted, too. -/

namespace TwinLog

/-- The partitions of an area that hold the two logs. -/
structure Site where
  area : Nat
  parts : Sides Nat
deriving DecidableEq

def Site.volume (site : Site) (table : Table) (side : Side) : Except Error Volume :=
  table.volume site.area (site.parts.get side)

/-- What is known of the two logs. -/
structure Session where
  logs : Sides LogState
  /-- The record of the latest generation, written or not. -/
  latest : Record
  /-- The side that the settings were recovered from, none for the defaults. -/
  loadedFrom : Option Side
  /-- Whether the next save writes even if the settings are the same. -/
  writePending : Bool
deriving DecidableEq

namespace Session

/-- The session of two logs of which nothing is known yet. -/
def initial : Session where
  logs := ⟨.empty, .empty⟩
  latest := .default
  loadedFrom := none
  writePending := false

/-! ## Mounting -/

/-- The side whose latest record has the greater counter, with that record. A tie goes to `a`. -/
def authoritative : Option Record → Option Record → Option (Side × Record)
  | none, none => none
  | some a, none => some (.a, a)
  | none, some b => some (.b, b)
  | some a, some b => if b.counter ≤ a.counter then some (.a, a) else some (.b, b)

/-- The session of two recovered logs. Without a valid record the defaults are due to be written,
and a stale record is due to be written in the current format. -/
def ofRecovered (found : Sides Recovered) : Session :=
  let logs := ⟨found.a.state, found.b.state⟩
  match authoritative found.a.latest? found.b.latest? with
  | none => { logs, latest := .default, loadedFrom := none, writePending := true }
  | some (side, latest) =>
    { logs, latest, loadedFrom := some side, writePending := latest.integrity = .stale }

def mount (site : Site) (table : Table) : Access Session := do
  let a ← (← site.volume table .a).recover
  let b ← (← site.volume table .b).recover
  return ofRecovered ⟨a, b⟩

/-! ## Saving -/

def settings (s : Session) : Settings :=
  s.latest.settings

/-- Makes the image the latest generation, unless it already is and no write is pending. -/
def stage (s : Session) (image : Settings.Image) : Session :=
  if image ≠ s.latest.payload ∨ s.writePending then
    { s with latest := s.latest.refresh image, writePending := true }
  else s

/-- The side that the latest generation belongs to. -/
def target (s : Session) : Side :=
  .ofCounter s.latest.counter

/-- Appends the latest generation to the log of its side. A log in doubt is erased first. Returns
the next free offset. -/
def append (s : Session) (site : Site) (table : Table) : Access Nat := do
  let v ← site.volume table s.target
  let log := s.logs.get s.target
  v.append s.latest log.freeOffset (log.status = .corrupt)

/-- Writes the latest generation. If the append fails, the log of its side is in doubt and the
write stays pending. It also stays pending if the device does not commit the write, but a device
that has nothing to commit may say so. -/
def flush (s : Session) (site : Site) (table : Table) : Script Bus (Except Error Unit × Session) := do
  match ← (s.append site table).run with
  | .error e =>
    let log := s.logs.get s.target
    return (.error e, { s with logs := s.logs.set s.target { log with status := .corrupt } })
  | .ok freeOffset =>
    let s := { s with logs := s.logs.set s.target ⟨.clean, freeOffset⟩ }
    match ← (table.sync site.area).run with
    | .ok () | .error .notSupported => return (.ok (), { s with writePending := false })
    | .error e => return (.error e, s)

/-- Saves an image. Nothing is written if it is the latest generation and no write is pending. -/
def save (s : Session) (site : Site) (table : Table) (image : Settings.Image) :
    Script Bus (Except Error Unit × Session) :=
  let s := s.stage image
  if s.writePending then s.flush site table else return (.ok (), s)

end Session

end TwinLog
