-- SUMMARY: A storage on two volumes of real hardware: its worlds, calls, power cuts and recovery.
import TwinLog.Proofs.Generations
import TwinLog.Proofs.Log.Recovery
import TwinLog.Proofs.Log.Tracking
import TwinLog.Storage

/-! # Installations

An installation puts a storage on two volumes of an area. A world is a medium with the storage
that works on it, and loads, saves and power cuts take one world to the next. A new storage
recovers what is on the medium (`Installation.load_eq`). -/

namespace TwinLog

/-! ## Mounting -/

section Mount

variable {σ : Type} {server : Server Bus σ} {table : Table} {s : σ}

/-- A mount recovers both logs. -/
theorem Session.wp_mount {site : Site} {volume : Side → Volume} {bytes : Side → List UInt8}
    (volume_eq : ∀ side, site.volume table side = .ok (volume side))
    (holds : ∀ side, server.Holds (volume side) s (bytes side)) {ok : Session → σ → Prop}
    {err : Error → σ → Prop} {crash : σ → Prop}
    (hok : ok (.ofRecovered ⟨Log.recovered (bytes .a), Log.recovered (bytes .b)⟩) s)
    (hcrash : crash s) : Access.wp server (Session.mount site table) ok err crash s := by
  unfold Session.mount
  rw [volume_eq, volume_eq, Access.wp_bind, Access.wp_ok, Access.wp_bind]
  refine Volume.wp_recover (holds .a) ?_ hcrash
  rw [Access.wp_bind, Access.wp_ok, Access.wp_bind]
  exact Volume.wp_recover (holds .b) hok hcrash

/-- A load returns the settings of the session. -/
theorem Storage.wp_load {storage : Storage} {session : Session}
    (mounted : Access.wp server (storage.mounted table) (fun s' t => s' = session ∧ t = s)
      (fun _ _ => False) (fun _ => True) s) :
    (storage.load table).wp server (fun result t =>
      result = (.ok session.settings, { storage with session }) ∧ t = s) (fun _ => True) s := by
  unfold Storage.load
  rw [Script.wp_bind]
  refine Script.wp_mono mounted (fun result t h => ?_) fun _ h => h
  cases result with
  | error e => exact h.elim
  | ok s' =>
    obtain ⟨rfl, rfl⟩ := h
    exact ⟨rfl, rfl⟩

end Mount

section Calls

variable {σ : Type} {answer : (request : Bus.Request) → StateM σ (Bus.Reply request)}
  {table : Table} {s : Storage} {t t' : σ}

/-- A load whose mount fails has the error of the mount. -/
theorem Storage.run_load_of_error {e : Error}
    (failed : (s.mounted table).run.run answer t = (.error e, t')) :
    (s.load table).run answer t = ((.error e, s), t') := by
  unfold load
  rw [Script.run_bind]
  show Script.run answer _ ((s.mounted table).run.run answer t).2 = _
  rw [failed]
  rfl

theorem Storage.run_load_of_ok {session : Session}
    (mounted : (s.mounted table).run.run answer t = (.ok session, t')) :
    (s.load table).run answer t = ((.ok session.settings, { s with session }), t') := by
  unfold load
  rw [Script.run_bind]
  show Script.run answer _ ((s.mounted table).run.run answer t).2 = _
  rw [mounted]
  rfl

/-- A save whose mount fails has the error of the mount. -/
theorem Storage.run_save_of_error {e : Error}
    (failed : (s.mounted table).run.run answer t = (.error e, t')) (settings : Settings) :
    (s.save table settings).run answer t = ((.error e, s), t') := by
  unfold save
  rw [Script.run_bind]
  show Script.run answer _ ((s.mounted table).run.run answer t).2 = _
  rw [failed]
  rfl

theorem Storage.run_save_of_ok {session : Session}
    (mounted : (s.mounted table).run.run answer t = (.ok session, t')) (settings : Settings) :
    let saved := (session.save s.site table settings.encode).run answer t'
    (s.save table settings).run answer t =
      ((saved.1.1, { s with session := saved.1.2 }), saved.2) := by
  intro saved
  unfold save
  rw [Script.run_bind]
  show Script.run answer _ ((s.mounted table).run.run answer t).2 = _
  rw [mounted]
  show Script.run answer (session.save s.site table settings.encode >>= _) t' = _
  rw [Script.run_bind]
  rfl

end Calls

/-! ## Installations -/

/-- A site on hardware, with its two volumes. -/
structure Installation where
  table : Table
  site : Site
  hardware : Hardware
  volume : Side → Volume
  volume_eq : ∀ side, site.volume table side = .ok (volume side)
  writable : ∀ side, (volume side).Writable
  disjoint : (volume .a).Disjoint (volume .b)

/-- A medium and the storage that works on it. -/
structure World where
  medium : Medium
  storage : Storage

namespace Installation

variable (i : Installation)

/-! ## Calls -/

def boot (m : Medium) : World :=
  ⟨m, { site := i.site }⟩

def load (w : World) : Except Error Settings × World :=
  let ((result, storage), medium) := (w.storage.load i.table).run i.hardware.answer w.medium
  (result, ⟨medium, storage⟩)

/-- Saves settings with devices that may be in trouble. -/
def save (trouble : Trouble) (w : World) (settings : Settings) : Except Error Unit × World :=
  let ((result, storage), medium) :=
    (w.storage.save i.table settings).run (i.hardware.answerIn trouble) w.medium
  (result, ⟨medium, storage⟩)

/-- Saves settings until power is lost during the request after the first `calls` ones, of which
`bytes` bytes get through. Then there is a new storage. The result is none if power was lost
before the save returned. -/
def cut (w : World) (settings : Settings) (calls bytes : Nat) :
    Option (Except Error Unit) × World :=
  let (result, medium) :=
    (w.storage.save i.table settings).cut i.hardware.answer (i.hardware.tear bytes) calls w.medium
  (result.map Prod.fst, i.boot medium)

/-- What a new storage loads from a medium. -/
def reload (m : Medium) : Except Error Settings :=
  (i.load (i.boot m)).1

/-- Both volumes are erased. -/
def Blank (m : Medium) : Prop :=
  ∀ side, (i.volume side).content m = Volume.erasedBytes (i.volume side).size

/-! ## Recovery -/

def found (m : Medium) : Sides Recovered :=
  ⟨Log.recovered ((i.volume .a).content m), Log.recovered ((i.volume .b).content m)⟩

/-- The session after a mount. -/
def recovered (m : Medium) : Session :=
  .ofRecovered (i.found m)

/-- The last valid record of each log. -/
def last (m : Medium) : Sides (Option Record) :=
  ⟨Log.latest? ((i.volume .a).content m), Log.latest? ((i.volume .b).content m)⟩

/-- The session that a call works on. -/
def session (w : World) : Session :=
  w.storage.session.getD (i.recovered w.medium)

/-- Reads of both volumes return what is on the medium. -/
def Readable (server : Server Bus Medium) (m : Medium) : Prop :=
  ∀ side, server.Holds (i.volume side) m ((i.volume side).content m)

/-- Devices without read trouble can be read. -/
theorem readable_server {trouble : Trouble} (reads : trouble .read = none) (m : Medium) :
    i.Readable (i.hardware.server trouble) m :=
  fun side => Volume.server_holds (i.writable side).addressable reads

section Mount

variable {i} {server : Server Bus Medium} {err : Error → Medium → Prop} {crash : Medium → Prop}

/-- A mount recovers both logs. -/
theorem wp_mount {m : Medium} (readable : i.Readable server m) {ok : Session → Medium → Prop}
    (hok : ok (i.recovered m) m) (hcrash : crash m) :
    Access.wp server (Session.mount i.site i.table) ok err crash m :=
  Session.wp_mount i.volume_eq readable hok hcrash

/-- A call works on the session of the world. -/
theorem wp_mounted {w : World} (readable : i.Readable server w.medium)
    (site : w.storage.site = i.site) {ok : Session → Medium → Prop}
    (hok : ok (i.session w) w.medium) (hcrash : crash w.medium) :
    Access.wp server (w.storage.mounted i.table) ok err crash w.medium := by
  unfold Storage.mounted
  unfold session at hok
  cases mounted : w.storage.session with
  | some s =>
    rw [mounted] at hok
    exact hok
  | none =>
    rw [mounted] at hok
    rw [site]
    exact wp_mount readable hok hcrash

end Mount

/-- The devices answer as their server does. -/
theorem replies_answerIn (trouble : Trouble) (request : Bus.Request) (m : Medium) :
    (i.hardware.server trouble).replies request m (i.hardware.answerIn trouble request m).1
      (i.hardware.answerIn trouble request m).2 :=
  rfl

/-- Power loss leaves what a tear leaves. -/
theorem breaks_tear (trouble : Trouble) (bytes : Nat) (request : Bus.Request) (m : Medium) :
    (i.hardware.server trouble).breaks request m (i.hardware.tear bytes request m) :=
  ⟨bytes, rfl⟩

variable {i}

/-- A load returns the settings of the session and leaves the medium as it is. -/
theorem load_eq {w : World} (site : w.storage.site = i.site) :
    i.load w = (.ok (i.session w).settings, ⟨w.medium, ⟨i.site, i.session w⟩⟩) := by
  have mounted : Access.wp (i.hardware.server .none) (w.storage.mounted i.table)
      (fun s m => s = i.session w ∧ m = w.medium) (fun _ _ => False) (fun _ => True) w.medium :=
    wp_mounted (i.readable_server rfl w.medium) site ⟨rfl, rfl⟩ trivial
  have run := Script.wp_run (i.replies_answerIn .none) (Storage.wp_load mounted)
  rw [Hardware.answerIn_none] at run
  have whole : (w.storage.load i.table).run i.hardware.answer w.medium =
      ((.ok (i.session w).settings, ⟨i.site, i.session w⟩), w.medium) := by
    rw [← site]
    exact Prod.ext run.1 run.2
  unfold load
  rw [whole]

@[simp] theorem session_boot (m : Medium) : i.session (i.boot m) = i.recovered m := rfl

@[simp] theorem get_last (m : Medium) (side : Side) :
    (i.last m).get side = Log.latest? ((i.volume side).content m) := by
  cases side <;> rfl

@[simp] theorem get_logs_recovered (m : Medium) (side : Side) :
    (i.recovered m).logs.get side = (Log.recovered ((i.volume side).content m)).state := by
  rw [recovered, Session.logs_ofRecovered]
  cases side <;> rfl

theorem latest_recovered (m : Medium) :
    (i.recovered m).latest = (Session.newest (i.last m)).getD .default := by
  rw [recovered, Session.latest_ofRecovered]
  simp only [found, last, Log.latest?_recovered]

theorem writePending_recovered (m : Medium) :
    (i.recovered m).writePending =
      (Session.newest (i.last m)).elim true (·.integrity = .stale) := by
  rw [recovered, Session.writePending_ofRecovered]
  simp only [found, last, Log.latest?_recovered]

/-- A new storage loads the settings of the newest record, or the default ones. -/
theorem reload_eq (m : Medium) :
    i.reload m = .ok ((Session.newest (i.last m)).getD .default).settings := by
  rw [reload, load_eq rfl, session_boot, ← latest_recovered]
  rfl

/-- The settings of the newest record are loaded. -/
theorem reload_of_newest {m : Medium} {r : Record} (newest : Session.newest (i.last m) = some r) :
    i.reload m = .ok r.settings := by
  rw [i.reload_eq, newest]
  rfl

theorem content_ne_nil (m : Medium) (side : Side) : (i.volume side).content m ≠ [] := by
  intro empty
  have length := Volume.length_content (i.volume side) m
  rw [empty] at length
  exact Nat.ne_of_lt (i.writable side).nonempty length

/-- A blank medium has no record. -/
theorem last_of_blank {m : Medium} (blank : i.Blank m) (side : Side) :
    (i.last m).get side = none := by
  rw [get_last, blank side]
  exact Log.latest?_erasedBytes _

theorem newest_of_blank {m : Medium} (blank : i.Blank m) : Session.newest (i.last m) = none :=
  Session.newest_eq_none (last_of_blank blank)

/-! ## Flash -/

/-- One NOR flash device with two partitions of two erase units each, which hold two records. -/
def flashTable : Table where
  devices := #[⟨some 1, some 41⟩]
  areas := #[{
    name := "settings"
    device := ⟨0⟩
    base := 0
    size := 164
    partitions := [⟨0, 82⟩, ⟨82, 82⟩]
  }]
  device_lt := by simp

def flashVolume (side : Side) : Volume where
  device := ⟨0⟩
  geometry := ⟨some 1, some 41⟩
  start :=
    match side with
    | .a => 0
    | .b => 82
  size := 82

def flash : Installation where
  table := flashTable
  site := ⟨0, ⟨1, 2⟩⟩
  hardware := fun _ => ⟨.clearBits, true, false⟩
  volume := flashVolume
  volume_eq side := by cases side <;> rfl
  writable side := by cases side <;> exact ⟨by decide, rfl, by decide⟩
  disjoint := .inr (.inl (by decide))

theorem flash_native (side : Side) : (flash.volume side).Native flash.hardware 41 := by
  cases side <;> exact ⟨rfl, rfl, rfl, rfl⟩

theorem flash_erasable (trouble : Trouble) (side : Side) :
    (flash.volume side).Erasable flash.hardware trouble :=
  .inl ⟨41, flash_native side⟩

theorem flash_blank : flash.Blank .erased := by
  intro side
  cases side <;> rfl

end Installation

end TwinLog
