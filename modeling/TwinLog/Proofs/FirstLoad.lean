-- SUMMARY: The first load of a storage, from whatever bytes its partitions hold.
import Mathlib.Tactic.SplitIfs
import TwinLog.Proofs.Installation
import TwinLog.Proofs.Requests

/-! # The first load

A mount reads its two volumes and makes no other request (`Session.only_mount`), whatever it
reads. On every device that answers these reads from a medium, a new storage loads the settings of
the last valid record of one side, or the defaults, for any content of the volumes
(`Storage.first_load`). A log with garbage in it counts as one without a valid record. -/

namespace TwinLog

/-! ## Requests -/

namespace Volume

/-- The request reads within the volume. -/
def Reads (v : Volume) : Request → Prop
  | ⟨device, .read address length⟩ =>
    device = v.device ∧ v.start ≤ address.toNat ∧ address.toNat + length ≤ v.start + v.size
  | _ => False

/-- A request that reads within the volume is a read of its device. -/
theorem Reads.eq_read {v : Volume} {request : Request} (reads : v.Reads request) :
    ∃ address length, request = ⟨v.device, .read address length⟩ := by
  obtain ⟨device, operation⟩ := request
  cases operation with
  | read address length =>
    obtain rfl := reads.1
    exact ⟨address, length, rfl⟩
  | write => exact reads.elim
  | erase => exact reads.elim
  | sync => exact reads.elim

/-- An access that is located is within the volume. -/
theorem locate_exact {v : Volume} {offset length : Nat} {address : UInt32}
    (located : v.locate offset length = .ok address) :
    address.toNat = v.start + offset ∧ offset + length ≤ v.size := by
  unfold locate at located
  split at located
  · rename_i inside
    cases located
    exact ⟨Nat.mod_eq_of_lt inside.2, inside.1⟩
  · cases located

variable (v : Volume)

theorem only_read (offset length : Nat) : (v.read offset length).Only v.Reads := by
  unfold read
  cases located : v.locate offset length with
  | error e => exact Access.Only.throw e
  | ok address =>
    obtain ⟨start, inside⟩ := locate_exact located
    refine .bind_ok (Access.Only.perform ⟨rfl, ?_, ?_⟩)
    · omega
    · omega

/-- What holds of results, and of a look at a header if it holds of all that may follow, holds of
scans. -/
theorem scanFrom_ind {limit : Nat} {motive : Access (Scan limit) → Prop}
    (result : ∀ scan, motive (pure scan))
    (step : ∀ offset k, offset < limit → offset + Record.peekSize ≤ v.size →
      (∀ header, motive (k header)) → motive (v.read offset Record.peekSize >>= k))
    (offset : Nat) (last : Option (Candidate limit)) : motive (v.scanFrom limit offset last) := by
  induction left : limit - offset using Nat.strongRecOn generalizing offset last with
  | ind left ih =>
    rw [scanFrom]
    split
    · rename_i inside
      refine step _ _ inside.1 inside.2 fun header => ?_
      dsimp only
      split
      · exact result _
      split
      · exact result _
      split
      · exact result _
      · rename_i whole
        have long : 10 ≤ (Header.peek header).2.toNat := Nat.le_of_not_lt whole
        exact ih _ (by omega) _ _ rfl
    · exact result _

/-- What holds of results, of scans and of readings of records, if it holds of all that may follow,
holds of recovery. -/
theorem recoverBelow_ind {top : Nat} {motive : Access Recovered → Prop}
    (result : ∀ found, motive (pure found))
    (scan : ∀ limit k, limit ≤ top → (∀ scan, motive (k scan)) →
      motive (v.scanFrom limit 0 none >>= k))
    (read : ∀ offset k, offset < top → (∀ latest, motive (k latest)) →
      motive (v.readValid offset >>= k))
    (logEnd : Option Nat) {limit : Nat} (le : limit ≤ top) :
    motive (v.recoverBelow logEnd limit) := by
  induction limit using Nat.strongRecOn generalizing logEnd with
  | ind limit ih =>
    rw [recoverBelow]
    split
    · exact result _
    refine scan _ _ le fun found => ?_
    cases found with
    | empty => exact result _
    | malformed => exact result _
    | found last =>
      have below := last.offset_lt
      refine read _ _ (by omega) fun latest => ?_
      cases latest with
      | none => exact ih last.offset below _ (by omega)
      | some latest => exact result _

/-- A scan only reads the volume. -/
theorem only_scanFrom (limit offset : Nat) (last : Option (Candidate limit)) :
    (v.scanFrom limit offset last).Only v.Reads := by
  refine v.scanFrom_ind (fun scan => ?_) (fun offset k _ _ rest => ?_) offset last
  · exact .pure scan
  · exact .bind (v.only_read _ _) rest

theorem only_readRecord (offset : Nat) : (v.readRecord offset).Only v.Reads := by
  unfold readRecord
  split
  · exact .throw _
  refine .bind (v.only_read _ _) fun header => ?_
  dsimp only
  split
  · exact .throw _
  split
  · exact .throw _
  split
  · exact .throw _
  refine .bind (v.only_read _ _) fun stored => ?_
  exact .bind (v.only_read _ _) fun crc => .pure _

theorem only_readValid (offset : Nat) : (v.readValid offset).Only v.Reads := by
  refine .tryCatch (.bind (v.only_readRecord offset) fun r => .pure _) fun e => ?_
  split
  · exact .pure _
  · exact .throw _

/-- Recovery only reads the volume. -/
theorem only_recoverBelow (logEnd : Option Nat) (limit : Nat) :
    (v.recoverBelow logEnd limit).Only v.Reads := by
  refine v.recoverBelow_ind (fun found => ?_) (fun limit k _ rest => ?_)
    (fun offset k _ rest => ?_) logEnd (Nat.le_refl limit)
  · exact .pure found
  · exact .bind (v.only_scanFrom limit 0 none) rest
  · exact .bind (v.only_readValid offset) rest

end Volume

namespace Session

/-- A mount only reads the volumes that its partitions occupy. -/
theorem only_mount_reads (site : Site) (table : Table) :
    (mount site table).Only fun request =>
      ∃ side v, site.volume table side = .ok v ∧ v.Reads request := by
  have recover {side : Side} {v : Volume} (found : site.volume table side = .ok v) :
      v.recover.Only fun request => ∃ side v, site.volume table side = .ok v ∧ v.Reads request :=
    (v.only_recoverBelow none _).mono fun request reads => ⟨side, v, found, reads⟩
  unfold mount
  cases a : site.volume table .a with
  | error e => exact .throw e
  | ok va =>
    refine .bind_ok (.bind (recover a) fun foundA => ?_)
    cases b : site.volume table .b with
    | error e => exact .throw e
    | ok vb => exact .bind_ok (.bind (recover b) fun foundB => .pure _)

/-- A mount only reads the two volumes. -/
theorem only_mount {table : Table} {site : Site} {volume : Side → Volume}
    (volume_eq : ∀ side, site.volume table side = .ok (volume side)) :
    (mount site table).Only fun request => ∃ side, (volume side).Reads request := by
  refine (only_mount_reads site table).mono fun request => ?_
  rintro ⟨side, v, found, reads⟩
  rw [volume_eq] at found
  cases found
  exact ⟨side, reads⟩

end Session

/-! ## The side that is loaded -/

theorem Record.integrity_of_read? {bytes : List UInt8} {r : Record} (h : read? bytes = some r) :
    r.integrity ≠ .invalid := by
  simp only [read?] at h
  split at h
  · rename_i valid
    cases h
    exact valid.2
  · cases h

/-- A valid record is stale if it is shorter than a current one. -/
theorem Record.integrity_eq_stale {r : Record} (valid : r.integrity ≠ .invalid) :
    r.integrity = .stale ↔ r.length.toNat < size := by
  have bound := (bounds_of_integrity valid).2.2
  cases h : r.integrity with
  | invalid => exact absurd h valid
  | current => simp [(integrity_eq_current.1 h).2]
  | stale =>
    have old : r.length.toNat ≠ size := by
      unfold integrity at h
      split_ifs at h with magic length crc whole
      exact whole
    simp [Nat.lt_of_le_of_ne bound old]

theorem Record.settings_default : Record.default.settings = .default := by
  decide +kernel

namespace Log

/-- Every record of a log is valid. -/
theorem integrity_of_entries {bytes : List UInt8} {es : List Entry} (h : entries bytes = some es) :
    ∀ r ∈ es.filterMap Entry.record?, r.integrity ≠ .invalid := by
  induction bytes using entries_cases generalizing es with
  | blank bytes blank =>
    rw [entries_of_blank blank] at h
    cases h
    exact nofun
  | garbage bytes long erased other =>
    rw [entries_of_garbage long erased other] at h
    cases h
  | header bytes long magic length ih =>
    rw [entries_of_header long magic length] at h
    obtain ⟨rest, found, rfl⟩ := Option.map_eq_some_iff.1 h
    intro r mem
    obtain ⟨e, inside, record⟩ := List.mem_filterMap.1 mem
    rcases List.mem_cons.1 inside with rfl | later
    · exact Record.integrity_of_read? record
    · exact ih found r (List.mem_filterMap.2 ⟨e, later, record⟩)

theorem integrity_of_latest? {bytes : List UInt8} {r : Record} (h : latest? bytes = some r) :
    r.integrity ≠ .invalid := by
  obtain ⟨es, found, last⟩ := Option.bind_eq_some_iff.1 h
  exact integrity_of_entries found r (List.mem_of_getLast? last)

end Log

/-- What is loaded and reported, given the last valid record of each log: the record that leads, or
the defaults, which are due to be written. -/
inductive Session.Loaded (last : Sides (Option Record)) : Settings → Statistics → Prop where
  | defaults (logs : Sides LogState) (none : ∀ side, last.get side = none) :
      Loaded last .default
        { logs, counter := 0, loadedFrom := .none, writePending := true }
  | record (logs : Sides LogState) {side : Side} {r : Record} (leads : Leads last side r) :
      Loaded last r.settings
        { logs, counter := r.counter, loadedFrom := some side,
          writePending := r.length.toNat < Record.size }

theorem Session.loaded_ofRecovered (found : Sides Recovered)
    (valid : ∀ side r, (found.get side).latest? = some r → r.integrity ≠ .invalid) :
    Loaded ⟨found.a.latest?, found.b.latest?⟩ (ofRecovered found).settings
      (ofRecovered found).statistics := by
  unfold ofRecovered
  rcases authoritative_cases ⟨found.a.latest?, found.b.latest?⟩ with
    ⟨none, taken⟩ | ⟨side, r, leads, taken⟩
  · simp only [taken]
    rw [settings, Record.settings_default]
    exact .defaults _ none
  · have stale : r.integrity = .stale ↔ r.length.toNat < Record.size := by
      refine Record.integrity_eq_stale (valid side r ?_)
      cases side <;> exact leads.1
    simp only [taken, stale]
    exact .record _ leads

/-! ## Loads -/

/-- A device that keeps a medium and answers reads of a volume from it. What else it keeps, and
what it does with other requests, is left open. -/
def Volume.Served {σ : Type} (answer : (request : Bus.Request) → StateM σ (Bus.Reply request))
    (content : σ → Medium) (v : Volume) : Prop :=
  ∀ address length s, v.Reads ⟨v.device, .read address length⟩ →
    (answer ⟨v.device, .read address length⟩ s).1 =
        .ok ((content s).read v.device address.toNat length) ∧
      content (answer ⟨v.device, .read address length⟩ s).2 = content s

/-- The device answers as one that keeps nothing but the medium, as far as reads go. -/
theorem Volume.Served.replies {σ : Type}
    {answer : (request : Bus.Request) → StateM σ (Bus.Reply request)} {content : σ → Medium}
    {v : Volume} (served : v.Served answer content) (hw : Hardware) (request : Request)
    (reads : v.Reads request) (s : σ) :
    (hw.server .none).replies request (content s) (answer request s).1
      (content (answer request s).2) := by
  obtain ⟨address, length, rfl⟩ := reads.eq_read
  obtain ⟨reply, keeps⟩ := served address length s reads
  exact Prod.ext reply keeps

/-- An access that only reads the volume returns what it is sure to return where the bytes of the
volume are held. -/
theorem Volume.Served.run_of_holds {σ α : Type}
    {answer : (request : Bus.Request) → StateM σ (Bus.Reply request)} {content : σ → Medium}
    {v : Volume} (served : v.Served answer content) (addressable : v.start + v.size ≤ addressSpace)
    {x : Access α} (only : x.Only v.Reads) {a : α} {s : σ}
    (h : ∀ server : Server Bus Medium, server.Holds v (content s) (v.content (content s)) →
      Access.wp server x (fun b m => b = a ∧ m = content s) (fun _ _ => False) (fun _ => True)
        (content s)) :
    ∃ s', x.run.run answer s = (.ok a, s') ∧ content s' = content s := by
  let hw : Hardware := fun _ => ⟨.overwrite, false, false⟩
  have ended := only.run (served.replies hw) s (h (hw.server .none) (server_holds addressable rfl))
  cases result : (x.run.run answer s).1 with
  | ok b =>
    rw [result] at ended
    obtain ⟨rfl, kept⟩ := ended
    exact ⟨_, Prod.ext result rfl, kept⟩
  | error e =>
    rw [result] at ended
    exact ended.elim

/-- Recovery returns what the bytes of the volume determine. -/
theorem Volume.Served.run_recover {σ : Type}
    {answer : (request : Bus.Request) → StateM σ (Bus.Reply request)} {content : σ → Medium}
    {v : Volume} (served : v.Served answer content) (addressable : v.start + v.size ≤ addressSpace)
    (s : σ) : ∃ s', v.recover.run.run answer s =
      (.ok (Log.recovered (v.content (content s))), s') ∧ content s' = content s :=
  served.run_of_holds addressable (v.only_recoverBelow none v.size)
    fun _ holds => wp_recover holds ⟨rfl, rfl⟩ trivial

namespace Storage

variable {σ : Type} {table : Table} {site : Site} {volume : Side → Volume}
  {answer : (request : Bus.Request) → StateM σ (Bus.Reply request)} {content : σ → Medium}

/-- The first load only reads the volumes that its partitions occupy. -/
theorem only_load_reads (site : Site) (table : Table) : (load { site } table).Only fun request =>
    ∃ side v, site.volume table side = .ok v ∧ v.Reads request := by
  refine .bind (Session.only_mount_reads site table) fun mounted => ?_
  cases mounted with
  | ok session => exact .done _
  | error e => exact .done _

/-- The first load only reads the two volumes. -/
theorem only_load (volume_eq : ∀ side, site.volume table side = .ok (volume side)) :
    (load { site } table).Only fun request => ∃ side, (volume side).Reads request := by
  refine (only_load_reads site table).mono fun request => ?_
  rintro ⟨side, v, found, reads⟩
  rw [volume_eq] at found
  cases found
  exact ⟨side, reads⟩

/-- The devices answer as ones that keep nothing but the medium, as far as a load goes. -/
theorem replies_of_served (served : ∀ side, (volume side).Served answer content) (hw : Hardware)
    (request : Request) (reads : ∃ side, (volume side).Reads request) (s : σ) :
    (hw.server .none).replies request (content s) (answer request s).1
      (content (answer request s).2) := by
  obtain ⟨side, reads⟩ := reads
  exact (served side).replies hw request reads s

/-- The first load keeps the session that the bytes of the volumes determine. -/
theorem run_load (volume_eq : ∀ side, site.volume table side = .ok (volume side))
    (addressable : ∀ side, (volume side).start + (volume side).size ≤ addressSpace)
    (served : ∀ side, (volume side).Served answer content) (s : σ) :
    let session := Session.ofRecovered ⟨Log.recovered ((volume .a).content (content s)),
      Log.recovered ((volume .b).content (content s))⟩
    ∃ t, (load { site } table).run answer s = ((.ok session.settings, ⟨site, session⟩), t) ∧
      content t = content s := by
  intro session
  let hw : Hardware := fun _ => ⟨.overwrite, false, false⟩
  have mounted : Access.wp (hw.server .none) (Storage.mounted { site } table)
      (fun found m => found = session ∧ m = content s) (fun _ _ => False) (fun _ => True)
      (content s) :=
    Session.wp_mount volume_eq (fun side => Volume.server_holds (addressable side) rfl) ⟨rfl, rfl⟩
      trivial
  obtain ⟨result, kept⟩ :=
    (only_load volume_eq).run (replies_of_served served hw) s (wp_load mounted)
  exact ⟨_, Prod.ext result rfl, kept⟩

/-- A new storage loads from any content of the volumes. What it knows of a log afterwards depends
on the bytes of that log only. -/
theorem first_load (volume_eq : ∀ side, site.volume table side = .ok (volume side))
    (addressable : ∀ side, (volume side).start + (volume side).size ≤ addressSpace)
    (served : ∀ side, (volume side).Served answer content) (s : σ) :
    ∃ settings storage s', (load { site } table).run answer s = ((.ok settings, storage), s') ∧
      content s' = content s ∧
      (∀ request ∈ (load { site } table).trace answer s, ∃ side, (volume side).Reads request) ∧
      (∀ side, storage.statistics.logs.get side =
        (Log.recovered ((volume side).content (content s))).state) ∧
      Session.Loaded ⟨Log.latest? ((volume .a).content (content s)),
        Log.latest? ((volume .b).content (content s))⟩ settings storage.statistics := by
  let found : Sides Recovered := ⟨Log.recovered ((volume .a).content (content s)),
    Log.recovered ((volume .b).content (content s))⟩
  obtain ⟨t, run, kept⟩ := run_load volume_eq addressable served s
  refine ⟨_, _, t, run, kept, (only_load volume_eq).trace, fun side => ?_, ?_⟩
  · show (Session.ofRecovered found).logs.get side = _
    rw [Session.logs_ofRecovered]
    cases side <;> rfl
  · have loaded := Session.loaded_ofRecovered found fun side r last => by
      have same := Log.latest?_recovered ((volume side).content (content s))
      refine Log.integrity_of_latest? (same.symm.trans ?_)
      cases side <;> exact last
    simp only [found, Log.latest?_recovered] at loaded
    exact loaded

end Storage

/-! ## Loads of the flash -/

namespace Installation

/-- The flash, with a count of the requests. -/
def metered (request : Bus.Request) : StateM (Medium × Nat) (Bus.Reply request) := fun (m, n) =>
  let (reply, m') := flash.hardware.answer request m
  (reply, m', n + 1)

/-- The first volume holds a record of generation one, the second one an old and shorter record of
generation five. The latter is loaded, and due to be written in the current format. -/
theorem first_load_metered :
    let current := Record.default.refresh { Settings.default with brightness := 1 }.encode
    let legacy : List UInt8 :=
      [0x4F, 0x50, 0x4E, 0x58, 0x0C, 0x00, 0x05, 0x00, 0x07, 0x08, 0x77, 0x77]
    let m := (Medium.erased.program .clearBits ⟨0⟩ 0 current.encode.toList).program .clearBits ⟨0⟩
      82 legacy
    let s : Storage := { site := flash.site }
    (∀ side, flash.site.volume flash.table side = .ok (flash.volume side)) ∧
      (∀ side, (flash.volume side).start + (flash.volume side).size ≤ addressSpace) ∧
      (∀ side, (flash.volume side).Served metered Prod.fst) ∧
      (Log.latest? ((flash.volume .a).content m) = some current ∧
        Log.latest? ((flash.volume .b).content m) = some (Record.ofList legacy)) ∧
      ∃ settings storage s',
        (s.load flash.table).run metered (m, 0) = ((.ok settings, storage), s') ∧ s'.1 = m ∧
        (∀ request ∈ (s.load flash.table).trace metered (m, 0),
          ∃ side, (flash.volume side).Reads request) ∧
        (∀ side, storage.statistics.logs.get side =
          (Log.recovered ((flash.volume side).content m)).state) ∧
        Session.Loaded ⟨some current, some (Record.ofList legacy)⟩ settings storage.statistics ∧
        settings = (Record.ofList legacy).settings ∧
        storage.statistics = ⟨⟨⟨.clean, 41⟩, ⟨.clean, 12⟩⟩, 5, true, some .b⟩ := by
  intro current legacy m s
  have addressable : ∀ side, (flash.volume side).start + (flash.volume side).size ≤ addressSpace :=
    fun side => (flash.writable side).addressable
  have served : ∀ side, (flash.volume side).Served metered Prod.fst :=
    fun _ _ _ _ _ => ⟨rfl, rfl⟩
  have first : Log.latest? ((flash.volume .a).content m) = some current := by decide +kernel
  have second : Log.latest? ((flash.volume .b).content m) = some (Record.ofList legacy) := by
    decide +kernel
  have result : ((s.load flash.table).run metered (m, 0)).1.1.toOption =
      some (Record.ofList legacy).settings := by decide +kernel
  have statistics : ((s.load flash.table).run metered (m, 0)).1.2.statistics =
      ⟨⟨⟨.clean, 41⟩, ⟨.clean, 12⟩⟩, 5, true, some .b⟩ := by decide +kernel
  obtain ⟨settings, storage, s', run, kept, reads, logs, loaded⟩ :=
    Storage.first_load flash.volume_eq addressable served (m, 0)
  rw [run] at result statistics
  rw [first, second] at loaded
  exact ⟨flash.volume_eq, addressable, served, ⟨first, second⟩, settings, storage, s', run, kept,
    reads, logs, loaded, Option.some.inj result, statistics⟩

/-- A valid record with garbage behind it is not loaded. -/
theorem load_skips_record_before_garbage :
    let settings := { Settings.default with brightness := 1 }
    let r := Record.default.refresh settings.encode
    let m := Medium.erased.program .clearBits ⟨0⟩ 0 (r.encode.toList ++ [0, 0, 0, 0])
    Record.read? ((flash.volume .a).content m) = some r ∧ r.settings ≠ .default ∧
      flash.reload m = .ok .default ∧
      (flash.load (flash.boot m)).2.storage.statistics =
        ⟨⟨⟨.corrupt, 0⟩, .empty⟩, 0, true, none⟩ := by
  intro settings r m
  refine ⟨by decide +kernel, by decide +kernel, ?_, by decide +kernel⟩
  rw [flash.reload_eq]
  exact congrArg Except.ok (by decide +kernel)

end Installation

end TwinLog
