-- SUMMARY: Storages keep to their partitions: what they do on devices without faults is confined to them.
import TwinLog.Proofs.Devices
import TwinLog.Proofs.FirstLoad
import TwinLog.Proofs.Translation

/-! # Confinement

Loads and saves make requests within the partitions of their storage only
(`Storage.confined_load`, `Storage.confined_save`), for all replies of the devices. On devices
without faults such a script changes nothing outside of the partitions (`Script.Only.run_frame`),
and what it returns and leaves in them depends on nothing outside (`Script.Only.run_agree`). -/

namespace TwinLog

/-! ## Confined scripts -/

namespace Script.Only

variable {α : Type} {R : Region} {x : Script Bus α} {m n : Medium}

/-- A script within a region changes nothing outside. -/
theorem run_frame (h : x.Only (Request.Within R)) (devices : Devices) {d : DeviceId} {a : Nat}
    (outside : ¬R d a) : (x.run devices.answer m).2 d a = m d a :=
  h.run_keeps (P := fun m' : Medium => m' d a = m d a)
    (fun _ within _ same => (Devices.answer_frame within outside).trans same) rfl

/-- What a script within a region returns and what it makes of the region depends on nothing
outside. -/
theorem run_agree (h : x.Only (Request.Within R)) (devices : Devices) (agree : m.Agree R n) :
    (x.run devices.answer m).1 = (x.run devices.answer n).1 ∧
      (x.run devices.answer m).2.Agree R (x.run devices.answer n).2 :=
  run_related (R := fun m n => Medium.Agree m R n)
    (fun _ within _ _ agree => Devices.answer_agree within agree) h agree

end Script.Only

/-! ## Volumes -/

namespace Volume

variable (v : Volume)

def region : Region := fun d a =>
  d = v.device ∧ v.start ≤ a ∧ a < v.start + v.size

variable {v}

theorem Reads.within (addressable : v.start + v.size ≤ addressSpace) {request : Request}
    (reads : v.Reads request) : request.Within v.region := by
  obtain ⟨address, length, rfl⟩ := reads.eq_read
  obtain ⟨-, low, high⟩ := reads
  rintro a ⟨above, below⟩
  exact ⟨by omega, rfl, by omega, by omega⟩

/-- A read of a volume changes nothing. -/
theorem Reads.answer_unchanged (addressable : v.start + v.size ≤ addressSpace) {request : Request}
    (reads : v.Reads request) (devices : Devices) (m : Medium) :
    (devices.answer request m).2 = m := by
  rcases devices.answer_cases (reads.within addressable) with ⟨e, failed⟩ | done
  · rw [failed]
  · rw [done]
    obtain ⟨address, length, rfl⟩ := reads.eq_read
    rfl

/-- An aligned access that is located is within the volume. -/
theorem locateAligned_exact {granularity : Option UInt64} {offset length : Nat} {address : UInt32}
    (located : v.locateAligned granularity offset length = .ok address) :
    address.toNat = v.start + offset ∧ offset + length ≤ v.size := by
  refine locate_exact ?_
  unfold locateAligned at located
  cases place : v.locate offset length with
  | error e =>
    rw [place] at located
    cases located
  | ok address' =>
    rw [place] at located
    cases granularity with
    | none => cases located
    | some unit =>
      simp only [bind, Except.bind] at located
      split at located
      · exact located
      · cases located

/-- The request writes or erases within the volume. -/
def Alters (v : Volume) : Request → Prop
  | ⟨device, .write address bytes⟩ =>
    device = v.device ∧ v.start ≤ address.toNat ∧
      address.toNat + bytes.length ≤ v.start + v.size
  | ⟨device, .erase address length⟩ =>
    device = v.device ∧ v.start ≤ address.toNat ∧ address.toNat + length ≤ v.start + v.size
  | _ => False

theorem Alters.within (addressable : v.start + v.size ≤ addressSpace) {request : Request}
    (alters : v.Alters request) : request.Within v.region := by
  obtain ⟨device, operation⟩ := request
  cases operation with
  | read => exact alters.elim
  | write address bytes =>
    obtain ⟨rfl, low, high⟩ := alters
    rintro a ⟨above, below⟩
    exact ⟨by omega, rfl, by omega, by omega⟩
  | erase address length =>
    obtain ⟨rfl, low, high⟩ := alters
    rintro a ⟨above, below⟩
    exact ⟨by omega, rfl, by omega, by omega⟩
  | sync => exact alters.elim

theorem only_write (offset : Nat) (bytes : List UInt8) : (v.write offset bytes).Only v.Alters := by
  unfold write
  cases located : v.locateAligned v.geometry.writeSize offset bytes.length with
  | error e => exact .throw e
  | ok address =>
    obtain ⟨start, inside⟩ := locateAligned_exact located
    refine .bind_ok (.perform ⟨rfl, ?_, ?_⟩)
    · omega
    · omega

theorem only_erase (offset length : Nat) : (v.erase offset length).Only v.Alters := by
  unfold erase
  cases located : v.locateAligned v.geometry.eraseSize offset length with
  | error e => exact .throw e
  | ok address =>
    obtain ⟨start, inside⟩ := locateAligned_exact located
    refine .bind_ok (.perform ⟨rfl, ?_, ?_⟩)
    · omega
    · omega

/-- Filling a volume, in whatever chunks, only writes to it. -/
theorem only_fillFrom {chunk step : Nat} (hc : 0 < chunk) (hs : 0 < step) (offset : Nat) :
    (v.fillFrom chunk step hc hs offset).Only v.Alters := by
  induction left : v.size - offset using Nat.strongRecOn generalizing offset with
  | ind left ih =>
    rw [fillFrom]
    split
    · exact .bind (only_write _ _) fun _ => ih _ (by omega) _ rfl
    split
    · exact .bind (only_write _ _) fun _ => ih _ (by omega) _ rfl
    · exact .pure _

theorem only_eraseAll : v.eraseAll.Only v.Alters := by
  refine .tryCatch (only_erase _ _) fun e => ?_
  split
  · unfold fill
    split
    · exact .throw _
    dsimp only
    split
    · exact .throw _
    · exact only_fillFrom _ _ _
  · exact .throw _

/-- An append only writes to the volume or erases it. -/
theorem only_append (record : Record) (freeOffset : Nat) (force : Bool) :
    (v.append record freeOffset force).Only v.Alters := by
  unfold append
  split
  · refine .bind only_eraseAll fun _ => ?_
    exact .bind (only_write _ _) fun _ => .pure _
  · exact .bind (only_write _ _) fun _ => .pure _

end Volume

/-! ## Storages -/

theorem Request.Within.mono {R R' : Region} {request : Request} (h : request.Within R)
    (le : ∀ d a, R d a → R' d a) : request.Within R' :=
  fun a spans => ⟨(h a spans).1, le _ _ (h a spans).2⟩

def Site.sideRegion (site : Site) (table : Table) (side : Side) : Region := fun d a =>
  ∃ v, site.volume table side = .ok v ∧ v.region d a

def Site.region (site : Site) (table : Table) : Region := fun d a =>
  ∃ side v, site.volume table side = .ok v ∧ v.region d a

/-- A sync is about no address. -/
theorem Table.only_sync (table : Table) (R : Region) (area : Nat) :
    (table.sync area).Only (Request.Within R) := by
  unfold sync
  cases found : table.area area with
  | error e => exact .throw e
  | ok descriptor => exact .bind_ok (.perform fun a spans => spans.elim)

namespace Session

section Target

variable {site : Site} {table : Table} (s : Session)
  (addressable : ∀ v, site.volume table s.target = .ok v → v.start + v.size ≤ addressSpace)
include addressable

/-- An append keeps to the partition of the side that the latest generation belongs to. -/
theorem only_append :
    (s.append site table).Only (Request.Within (site.sideRegion table s.target)) := by
  unfold append
  cases found : site.volume table s.target with
  | error e => exact .throw e
  | ok v =>
    refine .bind_ok ((Volume.only_append _ _ _).mono fun request alters => ?_)
    exact (alters.within (addressable v found)).mono fun d a inside => ⟨v, found, inside⟩

theorem only_flush :
    (s.flush site table).Only (Request.Within (site.sideRegion table s.target)) := by
  refine .bind (only_append s addressable) fun result => ?_
  cases result with
  | error e => exact .done _
  | ok freeOffset =>
    refine .bind (table.only_sync _ _) fun synced => ?_
    dsimp only
    split <;> exact .done _

end Target

section Sites

variable {site : Site} {table : Table} (mapped : table.Mapped)
include mapped

theorem only_mount_within :
    (mount site table).Only (Request.Within (site.region table)) := by
  refine (only_mount_reads site table).mono fun request => ?_
  rintro ⟨side, v, found, reads⟩
  exact (reads.within (mapped.volume_end_le found)).mono fun d a inside => ⟨side, v, found, inside⟩

theorem only_save (s : Session) (image : Settings.Image) :
    (s.save site table image).Only (Request.Within (site.region table)) := by
  unfold save
  dsimp only
  split
  · refine (only_flush _ fun v found => mapped.volume_end_le found).mono fun request h => ?_
    exact h.mono fun d a inside => ⟨_, inside⟩
  · exact .done _

end Sites

end Session

namespace Storage

variable {table : Table} (mapped : table.Mapped) (s : Storage)
include mapped

theorem only_mounted : (s.mounted table).Only (Request.Within (s.site.region table)) := by
  unfold mounted
  split
  · exact .pure _
  · exact Session.only_mount_within mapped

/-- Mounting changes nothing. -/
theorem run_mounted (devices : Devices) (m : Medium) :
    ((s.mounted table).run.run devices.answer m).2 = m := by
  unfold mounted
  split
  · rfl
  · refine (Session.only_mount_reads s.site table).run_unchanged ?_ m
    rintro request ⟨side, v, found, reads⟩ m
    exact reads.answer_unchanged (mapped.volume_end_le found) devices m

/-- A load keeps to the partitions of the storage. -/
theorem confined_load : (s.load table).Only (Request.Within (s.site.region table)) := by
  refine .bind (only_mounted mapped s) fun result => ?_
  cases result <;> exact .done _

/-- A save keeps to the partitions of the storage. -/
theorem confined_save (settings : Settings) :
    (s.save table settings).Only (Request.Within (s.site.region table)) := by
  refine .bind (only_mounted mapped s) fun result => ?_
  cases result with
  | error e => exact .done _
  | ok session => exact .bind (Session.only_save mapped session _) fun saved => .done _

end Storage

end TwinLog
