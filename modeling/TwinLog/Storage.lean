-- SUMMARY: Settings storages: loading and saving settings with twin logs.
import TwinLog.Session

/-! # Storages

A storage is where settings are loaded from and saved to. It mounts its logs at the first load or
save; a storage that could not be mounted is as before. -/

namespace TwinLog

/-- What a storage reports of itself. -/
structure Statistics where
  logs : Sides LogState
  counter : UInt16
  writePending : Bool
  loadedFrom : Option Side
deriving DecidableEq

def Session.statistics (s : Session) : Statistics where
  logs := s.logs
  counter := s.latest.counter
  writePending := s.writePending
  loadedFrom := s.loadedFrom

/-- A place for settings in two logs. There is no session before the first load or save. -/
structure Storage where
  site : Site
  session : Option Session := none
deriving DecidableEq

namespace Storage

/-- The storage with partitions `a` and `b` of an area. -/
def ofParts (area a b : Nat) : Storage where
  site := ⟨area, ⟨a, b⟩⟩

/-- What the storage reports of itself. Before the first load or save it is as if the defaults
were loaded. -/
def statistics (s : Storage) : Statistics :=
  (s.session.getD .initial).statistics

/-- The session, which is mounted if there is none. -/
def mounted (s : Storage) (table : Table) : Access Session :=
  match s.session with
  | some session => return session
  | none => Session.mount s.site table

def load (s : Storage) (table : Table) : Script Bus (Except Error Settings × Storage) := do
  match ← (s.mounted table).run with
  | .error e => return (.error e, s)
  | .ok session => return (.ok session.settings, { s with session })

def save (s : Storage) (table : Table) (settings : Settings) :
    Script Bus (Except Error Unit × Storage) := do
  match ← (s.mounted table).run with
  | .error e => return (.error e, s)
  | .ok session =>
    let (result, session) ← session.save s.site table settings.encode
    return (result, { s with session })

/-- Saves one settings value after the other, up to the first that fails. Returns how many were
saved before it, with its error. -/
def saveAll (s : Storage) (table : Table) (saved : Nat) :
    List Settings → Script Bus (Except (Nat × Error) Unit × Storage)
  | [] => return (.ok (), s)
  | settings :: rest => do
    match ← s.save table settings with
    | (.error e, s) => return (.error (saved, e), s)
    | (.ok (), s) => s.saveAll table (saved + 1) rest

end Storage

end TwinLog
