-- SUMMARY: The requests that loads and saves make of devices that work and erase natively.
import TwinLog.Proofs.FirstLoad
import TwinLog.Proofs.Save

/-! # Executions without trouble

On devices that work and erase natively, every run of an access is known with all its requests.
An append erases the volume where it has to, writes the record and nothing else
(`Volume.executes_append`). A save of a new generation appends it and makes the device commit
(`Installation.executes_save`). -/

namespace TwinLog

/-! ## Volumes -/

namespace Volume

variable {v : Volume} {hw : Hardware} {m : Medium} {unit : UInt64}

theorem executes_write (writable : v.Writable) {offset : Nat} {bytes : List UInt8}
    (start : offset < v.size) (inside : offset + bytes.length ≤ v.size) :
    (v.write offset bytes).Executes hw.answer m () (v.written hw m offset bytes)
      [⟨v.device, .write (v.start + offset).toUInt32 bytes⟩] := by
  have address := toNat_address writable.addressable start
  rw [write_eq writable.addressable writable.unit start inside]
  refine .perform ?_
  simp only [Hardware.answer, address, written]

/-- A reset of a volume that is erased natively is the erase. -/
theorem executes_eraseAll (below : v.start < addressSpace) (native : v.Native hw unit) :
    v.eraseAll.Executes hw.answer m () (v.wiped m v.size)
      [⟨v.device, .erase v.start.toUInt32 v.size⟩] := by
  unfold eraseAll
  rw [erase_whole below native.granularity native.start native.whole]
  refine .tryCatch (.perform ?_) _
  simp only [Hardware.answer, native.erases, toNat_start below, wiped, if_true]

/-- The requests that append a record to a log. -/
def requests (v : Volume) (log : LogState) (r : Record) : List Request :=
  (if v.resets log then [⟨v.device, .erase v.start.toUInt32 v.size⟩] else []) ++
    [⟨v.device, .write (v.start + v.place log).toUInt32 r.encode.toList⟩]

/-- An append erases the volume where it has to, and writes the record. -/
theorem executes_append (writable : v.Writable) (native : v.Native hw unit) (log : LogState)
    (r : Record) :
    (v.append r log.freeOffset (log.status = .corrupt)).Executes hw.answer m
      (v.next log).freeOffset (v.appended hw log r m Record.size) (v.requests log r) := by
  rw [append_eq, appended_eq, Record.take_size_encode]
  have reset : (if v.resets log then v.eraseAll else pure ()).Executes hw.answer m ()
      (if v.resets log then v.wiped m v.size else m)
      (if v.resets log then [⟨v.device, .erase v.start.toUInt32 v.size⟩] else []) := by
    split
    · exact executes_eraseAll writable.below native
    · exact .pure ()
  exact .bind reset (.bind_pure (executes_write writable (place_lt writable log)
    (place_inside writable log r)) _)

end Volume

/-! ## Saves -/

namespace Installation

variable {i : Installation} {s : Session} {m : Medium}

/-- A sync asks the device to commit, which need not support it. -/
theorem executes_sync (i : Installation) (side : Side) (m : Medium) :
    (i.table.sync i.site.area).run.Executes i.hardware.answer m
      (if (i.hardware (i.volume side).device).syncs then .ok () else .error .notSupported) m
      [⟨(i.volume side).device, .sync⟩] := by
  obtain ⟨area, found, device⟩ := i.area_eq side
  unfold Table.sync
  rw [found, ← device]
  exact ⟨rfl, rfl⟩

/-- The session and the medium after the latest generation is written, with the requests for it. -/
theorem executes_flush {unit : UInt64} (native : (i.target s).Native i.hardware unit) (m : Medium) :
    (s.flush i.site i.table).Executes i.hardware.answer m
      (.ok (), { s.appended (i.target s) with writePending := false }) (i.stored s m Record.size)
      ((i.target s).requests s.log s.latest ++ [⟨(i.target s).device, .sync⟩]) := by
  have append : (s.append i.site i.table).Executes i.hardware.answer m
      ((i.target s).next s.log).freeOffset (i.stored s m Record.size)
      ((i.target s).requests s.log s.latest) := by
    unfold Session.append
    rw [i.volume_eq]
    exact .bind_ok (Volume.executes_append (i.writable s.target) native s.log s.latest)
  refine Script.Executes.bind append (Script.Executes.bind (i.executes_sync s.target _) ?_)
  cases (i.hardware (i.volume s.target).device).syncs <;> exact .done _

/-! ## Calls -/

/-- A call starts with these requests: they mount the storage, unless it is mounted. -/
def Mounting (i : Installation) (w : World) (reads : List Request) : Prop :=
  (∀ request ∈ reads, ∃ side, (i.volume side).Reads request) ∧
    (w.storage.session.isSome → reads = [])

theorem executes_mounted {w : World} (site : w.storage.site = i.site) :
    ∃ reads, i.Mounting w reads ∧
      (w.storage.mounted i.table).Executes i.hardware.answer w.medium (i.session w) w.medium
        reads := by
  unfold Storage.mounted session Mounting
  cases mounted : w.storage.session with
  | some s => exact ⟨[], ⟨nofun, fun _ => rfl⟩, .pure s⟩
  | none =>
    rw [site]
    have mount : (Session.mount i.site i.table).run.wp (i.hardware.server .none)
        (fun result m => (result, m) = (.ok (i.recovered w.medium), w.medium)) (fun _ => True)
        w.medium := Access.wp_run.2 (wp_mount (i.readable_server rfl w.medium) rfl trivial)
    exact ⟨_, ⟨(Session.only_mount i.volume_eq).trace, nofun⟩,
      Script.wp_run (i.replies_answerIn .none) mount, rfl⟩

/-- A load makes no request but those of a mount. -/
theorem executes_load {w : World} (site : w.storage.site = i.site) :
    ∃ reads, i.Mounting w reads ∧
      (w.storage.load i.table).Executes i.hardware.answer w.medium
        (.ok (i.session w).settings, ⟨i.site, some (i.session w)⟩) w.medium reads := by
  obtain ⟨reads, mounting, mounted⟩ := executes_mounted site
  refine ⟨reads, mounting, ?_⟩
  rw [← List.append_nil reads, ← site]
  exact Script.Executes.bind mounted (.done _)

/-- A save mounts the storage and saves in the session. -/
theorem executes_save {w : World} (site : w.storage.site = i.site) {settings : Settings}
    {result : Except Error Unit} {m : Medium} {requests : List Request}
    (save : ((i.session w).save i.site i.table settings.encode).Executes i.hardware.answer w.medium
      (result, s) m requests) :
    ∃ reads, i.Mounting w reads ∧
      (w.storage.save i.table settings).Executes i.hardware.answer w.medium
        (result, ⟨i.site, some s⟩) m (reads ++ requests) := by
  obtain ⟨reads, mounting, mounted⟩ := executes_mounted site
  refine ⟨reads, mounting, ?_⟩
  rw [← site] at save ⊢
  rw [← List.append_nil requests]
  exact Script.Executes.bind mounted (Script.Executes.bind save (.done _))

theorem save_eq {w : World} {settings : Settings} {result : Except Error Unit} {storage : Storage}
    {m : Medium} {requests : List Request}
    (executes : (w.storage.save i.table settings).Executes i.hardware.answer w.medium
      (result, storage) m requests) : i.save .none w settings = (result, ⟨m, storage⟩) := by
  unfold save
  rw [Hardware.answerIn_none, executes.run_eq]

/-- A save of nothing new makes no request. -/
theorem executes_save_idle {w : World} {image : Settings.Image}
    (idle : ((i.session w).stage image).writePending = false) :
    ((i.session w).save i.site i.table image).Executes i.hardware.answer w.medium
      (.ok (), i.session w) w.medium [] := by
  have same := (Session.stage_of_idle idle).1
  unfold Session.save
  simp only [same] at idle ⊢
  simp only [idle]
  exact .done _

/-- A save of a new generation writes it. -/
theorem executes_save_pending {w : World} {image : Settings.Image}
    (staged : s = (i.session w).stage image) (pending : s.writePending = true)
    {unit : UInt64} (native : (i.target s).Native i.hardware unit) :
    ((i.session w).save i.site i.table image).Executes i.hardware.answer w.medium
      (.ok (), { s.appended (i.target s) with writePending := false })
      (i.stored s w.medium Record.size)
      ((i.target s).requests s.log s.latest ++ [⟨(i.target s).device, .sync⟩]) := by
  unfold Session.save
  simp only [← staged, if_pos pending]
  exact executes_flush native w.medium

end Installation

end TwinLog
