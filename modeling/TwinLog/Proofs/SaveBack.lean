-- SUMMARY: Saving back the settings that were loaded: when that makes no request.
import TwinLog.Proofs.FirstLoad
import TwinLog.Proofs.Footprint
import TwinLog.Proofs.Settings

/-! # Saving back what was loaded

A save compares the image of the settings with the payload that is stored, byte by byte. So saving
back what was loaded makes no request exactly if the payload of the record that was loaded loses
nothing when it is decoded (`Storage.save_loaded_iff`). All payloads that this firmware writes are
such (`Settings.canonical_iff_encode`). A record with any other payload is followed by one with the
same settings. -/

namespace TwinLog

/-! ## Sessions -/

/-- A save of an image that is not held makes the next generation of it, whether or not that gets
written. -/
theorem Session.latest_save {s : Session} {image : Settings.Image}
    (changed : image ≠ s.latest.payload) (site : Site) (table : Table) :
    (s.save site table image).Ends fun result => result.2.latest = s.latest.refresh image := by
  have staged : s.stage image =
      { s with latest := s.latest.refresh image, writePending := true } := if_pos (.inl changed)
  unfold save
  rw [staged]
  dsimp only
  rw [if_pos rfl]
  exact latest_flush { s with latest := s.latest.refresh image, writePending := true } site table

/-- The settings of a session are held exactly if nothing of the payload that is cached is lost. -/
theorem Session.encode_settings_eq_iff (s : Session) :
    s.settings.encode = s.latest.payload ↔ Settings.Canonical s.latest.payload :=
  Settings.encode_decode_eq_self_iff s.latest.payload

/-- A session that is up to date goes on with the record that leads. -/
theorem Session.leads_of_idle {found : Sides Recovered}
    (idle : (ofRecovered found).writePending = false) :
    ∃ side r, Leads ⟨found.a.latest?, found.b.latest?⟩ side r ∧ (ofRecovered found).latest = r := by
  rcases authoritative_cases ⟨found.a.latest?, found.b.latest?⟩ with
    ⟨-, taken⟩ | ⟨side, r, leads, taken⟩
  · unfold ofRecovered at idle
    simp only [taken] at idle
    cases idle
  · refine ⟨side, r, leads, ?_⟩
    unfold ofRecovered
    simp only [taken]

/-! ## Storages -/

namespace Storage

variable {σ : Type} {table : Table}
  {answer : (request : Bus.Request) → StateM σ (Bus.Reply request)}

section Session

variable {s : Storage} {session : Session} (initialized : s.session = some session)
  {settings : Settings}
include initialized

theorem run_mounted_of_session (t : σ) : (s.mounted table).run.run answer t = (.ok session, t) := by
  unfold mounted
  rw [initialized]
  rfl

/-- A save of settings that are held makes no request and leaves the storage as it is. -/
theorem save_of_held (held : settings.encode = session.latest.payload)
    (idle : session.writePending = false) : s.save table settings = .done (.ok (), s) := by
  obtain ⟨site, _⟩ := s
  cases initialized
  show (session.save site table settings.encode >>= _) = _
  rw [Session.save_of_held held idle]
  rfl

/-- A save of settings that are not held counts on, whatever its outcome. -/
theorem counter_save (changed : settings.encode ≠ session.latest.payload) (t : σ) :
    ((s.save table settings).run answer t).1.2.statistics.counter = session.latest.counter + 1 := by
  rw [run_save_of_ok (run_mounted_of_session initialized t)]
  have latest := (Session.latest_save changed s.site table).run answer t
  show ((session.save s.site table settings.encode).run answer t).1.2.latest.counter = _
  rw [latest]
  rfl

/-- A save of what is cached makes no request, succeeds and leaves the storage as it is exactly if
nothing is lost of the payload that is cached. -/
theorem executes_save_cached_iff (idle : session.writePending = false) (t : σ) :
    (s.save table session.settings).Executes answer t (.ok (), s) t [] ↔
      Settings.Canonical session.latest.payload := by
  rw [← session.encode_settings_eq_iff]
  constructor
  · intro executes
    by_contra changed
    have counted : ((s.save table session.settings).run answer t).1.2.statistics.counter =
        session.latest.counter + 1 := counter_save initialized changed t
    rw [executes.run_eq] at counted
    have same : s.statistics.counter = session.latest.counter := by
      unfold statistics
      rw [initialized]
      rfl
    rw [same] at counted
    simp at counted
  · intro held
    rw [save_of_held initialized held idle]
    exact .done _

end Session

variable {site : Site} {volume : Side → Volume} {content : σ → Medium}

/-- If the first load returns settings with no write pending, they are those of the record that
leads. Saving them back then makes no request, succeeds and leaves the storage as it is exactly if
nothing of the payload of that record is lost when it is decoded. Otherwise the save makes the next
generation of the settings. -/
theorem save_loaded_iff (volume_eq : ∀ side, site.volume table side = .ok (volume side))
    (addressable : ∀ side, (volume side).start + (volume side).size ≤ addressSpace)
    (served : ∀ side, (volume side).Served answer content) {s t : σ} {settings : Settings}
    {storage : Storage}
    (loaded : (load { site } table).run answer s = ((.ok settings, storage), t))
    (idle : storage.statistics.writePending = false) :
    ∃ side r, Session.Leads ⟨Log.latest? ((volume .a).content (content s)),
        Log.latest? ((volume .b).content (content s))⟩ side r ∧
      settings = r.settings ∧
      ((storage.save table settings).Executes answer t (.ok (), storage) t [] ↔
        Settings.Canonical r.payload) ∧
      (¬Settings.Canonical r.payload →
        ((storage.save table settings).run answer t).1.2.statistics.counter = r.counter + 1) := by
  obtain ⟨t', run, -⟩ := run_load volume_eq addressable served s
  rw [run] at loaded
  cases loaded
  obtain ⟨side, r, leads, latest⟩ := Session.leads_of_idle idle
  simp only [Log.latest?_recovered] at leads
  refine ⟨side, r, leads, congrArg Record.settings latest, ?_, fun lossy => ?_⟩
  · rw [← latest]
    exact executes_save_cached_iff rfl idle t
  · rw [← latest] at lossy ⊢
    have changed := mt (Session.encode_settings_eq_iff _).1 lossy
    exact counter_save rfl changed t

end Storage

/-! ## Saving back on the flash -/

namespace Installation

/-- The flash with one record, in its second partition. -/
def inscribed (r : Record) : Medium :=
  Medium.erased.program .clearBits ⟨0⟩ 82 r.encode.toList

/-- The first load of the flash with one record. -/
def loadInscribed (r : Record) : (Except Error Settings × Storage) × Medium :=
  (Storage.load { site := flash.site } flash.table).run flash.hardware.answer (inscribed r)

/-- Settings that were saved once are saved back. -/
theorem save_loaded_iff_inscribed :
    let r := Record.default.refresh { Settings.default with brightness := 1 }.encode
    let storage := (loadInscribed r).1.2
    let m := (loadInscribed r).2
    (∀ side, flash.site.volume flash.table side = .ok (flash.volume side)) ∧
      (∀ side, (flash.volume side).start + (flash.volume side).size ≤ addressSpace) ∧
      (∀ side, (flash.volume side).Served flash.hardware.answer id) ∧
      loadInscribed r = ((.ok r.settings, storage), m) ∧
      storage.statistics.writePending = false ∧
      (storage.save flash.table r.settings).Executes flash.hardware.answer m (.ok (), storage) m
        [] := by
  intro r storage m
  have addressable : ∀ side, (flash.volume side).start + (flash.volume side).size ≤ addressSpace :=
    fun side => (flash.writable side).addressable
  have served : ∀ side, (flash.volume side).Served flash.hardware.answer id :=
    fun _ _ _ _ _ => ⟨rfl, rfl⟩
  have result : (loadInscribed r).1.1 = .ok r.settings := by decide +kernel
  have loaded : loadInscribed r = ((.ok r.settings, storage), m) := by
    rw [← result]
  have idle : storage.statistics.writePending = false := by decide +kernel
  refine ⟨flash.volume_eq, addressable, served, loaded, idle, ?_⟩
  obtain ⟨side, r', leads, -, silent, -⟩ :=
    Storage.save_loaded_iff flash.volume_eq addressable served loaded idle
  refine silent.2 ?_
  have first : Log.latest? ((flash.volume .a).content (inscribed r)) = none := by decide +kernel
  have second : Log.latest? ((flash.volume .b).content (inscribed r)) = some r := by decide +kernel
  have found := leads.1
  simp only [id, first, second] at found
  cases side with
  | a => cases found
  | b =>
    cases found
    exact Settings.canonical_iff_encode.2 ⟨_, rfl⟩

/-- A record that is current, and up to date on the flash, is written again when the settings that
were loaded from it are saved back. Its GPS flag is two. -/
theorem save_back_writes :
    let r := Record.default.refresh (Settings.default.encode.set 5 2)
    let storage := (loadInscribed r).1.2
    let saved := storage.save flash.table r.settings
    Log.latest? ((flash.volume .b).content (inscribed r)) = some r ∧ r.integrity = .current ∧
      (loadInscribed r).1.1 = .ok r.settings ∧ storage.statistics.writePending = false ∧
      saved.trace flash.hardware.answer (loadInscribed r).2 =
        [⟨⟨0⟩, .write 0 (r.refresh r.settings.encode).encode.toList⟩, ⟨⟨0⟩, .sync⟩] ∧
      (saved.run flash.hardware.answer (loadInscribed r).2).1.2.statistics.counter = 2 := by
  intro r storage saved
  refine ⟨?_, ?_, ?_, ?_, ?_, ?_⟩ <;> decide +kernel

end Installation

end TwinLog
