-- SUMMARY: What a call of a storage changes, on devices whose operations may stop after any part.
import TwinLog.Proofs.Confinement
import TwinLog.Proofs.Faults

/-! # Footprints

An operation that fails may have taken effect on its first bytes. On devices of which nothing else
is known (`Tears`), a save changes one partition at most, the one that the parity of the counter
selects, and loads change nothing (`Storage.save_footprint`). -/

namespace TwinLog

/-! ## Devices -/

/-- Devices whose operations take effect on some of their first bytes, whatever they can do and
whatever they reply. What they keep besides the medium is left open. -/
def Tears {σ : Type} (answer : (request : Bus.Request) → StateM σ (Bus.Reply request))
    (content : σ → Medium) : Prop :=
  ∀ request s, request.operation.Inside →
    ∃ hw : Hardware, ∃ n, content (answer request s).2 = hw.tear n request (content s)

namespace Hardware

variable (hw : Hardware)

theorem tear_write (n : Nat) (device : DeviceId) (address : UInt32) (bytes : List UInt8)
    (m : Medium) : hw.tear n ⟨device, .write address bytes⟩ m =
      m.program (hw device).programming device address.toNat (bytes.take n) :=
  rfl

theorem tear_erase (n : Nat) (device : DeviceId) (address : UInt32) (length : Nat) (m : Medium) :
    hw.tear n ⟨device, .erase address length⟩ m =
      if (hw device).erases then m.reset device address.toNat (min n length) else m :=
  rfl

/-- No part of an operation changes nothing. -/
theorem tear_zero (request : Request) (m : Medium) : hw.tear 0 request m = m := by
  obtain ⟨device, operation⟩ := request
  cases operation with
  | read => rfl
  | write address bytes => rw [tear_write, List.take_zero, Medium.program_nil]
  | erase address length => rw [tear_erase, Nat.zero_min, Medium.reset_zero, ite_self]
  | sync => rfl

/-- A part of an operation changes no byte outside of its span. -/
theorem tear_frame {request : Request} {d : DeviceId} {a : Nat}
    (outside : ¬(d = request.device ∧ request.operation.Spans a)) (n : Nat) (m : Medium) :
    hw.tear n request m d a = m d a := by
  obtain ⟨device, operation⟩ := request
  cases operation with
  | read => rfl
  | write address bytes =>
    refine if_neg fun changed => outside ⟨changed.1, changed.2.1, ?_⟩
    have part := changed.2.2
    rw [List.length_take] at part
    exact Nat.lt_of_lt_of_le part (Nat.add_le_add_left (Nat.min_le_right _ _) _)
  | erase address length =>
    rw [tear_erase]
    split
    · refine if_neg fun changed => outside ⟨changed.1, changed.2.1, ?_⟩
      exact Nat.lt_of_lt_of_le changed.2.2 (Nat.add_le_add_left (Nat.min_le_right _ _) _)
    · rfl
  | sync => rfl

/-- A whole operation is a part of it. -/
theorem answer_eq_tear (request : Bus.Request) (m : Medium) :
    ∃ n, (hw.answer request m).2 = hw.tear n request m := by
  obtain ⟨device, operation⟩ := request
  cases operation with
  | read => exact ⟨0, rfl⟩
  | write address bytes =>
    refine ⟨bytes.length, ?_⟩
    rw [tear_write, List.take_length]
    rfl
  | erase address length =>
    refine ⟨length, ?_⟩
    rw [tear_erase, Nat.min_self]
    show (if _ then _ else _ : _ × Medium).2 = _
    split <;> rfl
  | sync => exact ⟨0, rfl⟩

theorem tears_answer : Tears hw.answer id :=
  fun request m _ => ⟨hw, hw.answer_eq_tear request m⟩

theorem tears_answerAmid : Tears hw.answerAmid Prod.fst := by
  rintro request ⟨m, plan⟩ -
  rcases hw.replies_answerAmid request (m, plan) with works | ⟨-, mishap, fails⟩
  · obtain ⟨n, whole⟩ := hw.answer_eq_tear request m
    exact ⟨hw, n, (congrArg Prod.snd works).trans whole⟩
  · exact ⟨hw, mishap.bytes, congrArg Prod.snd fails⟩

end Hardware

/-- Devices of every make do a part of each operation, none if they fail. -/
theorem Devices.tears_answer (devices : Devices) : Tears devices.answer id := by
  rintro ⟨device, operation⟩ m inside
  let hw : Hardware := fun device => ⟨(devices device).programming, true, false⟩
  refine ⟨hw, ?_⟩
  rcases @Make.answer_cases device operation (devices device) inside with ⟨e, failed⟩ | done
  · exact ⟨0, (congrArg Prod.snd (failed m)).trans (hw.tear_zero _ m).symm⟩
  have effect : (devices.answer ⟨device, operation⟩ m).2 =
      ((devices device).effect device m operation).2 := congrArg Prod.snd (done m)
  cases operation with
  | read => exact ⟨0, effect⟩
  | write address bytes =>
    refine ⟨bytes.length, effect.trans ?_⟩
    rw [Hardware.tear_write, List.take_length]
    rfl
  | erase address length =>
    refine ⟨(devices device).erased length, effect.trans ?_⟩
    rw [Hardware.tear_erase, Nat.min_eq_left ((devices device).erased_le length)]
    rfl
  | sync => exact ⟨0, effect⟩

namespace Tears

variable {σ : Type} {answer : (request : Bus.Request) → StateM σ (Bus.Reply request)}
  {content : σ → Medium} (tears : Tears answer content)
include tears

/-- A request within a region changes nothing outside. -/
theorem answer_frame {R : Region} {request : Request} (within : request.Within R) {d : DeviceId}
    {a : Nat} (outside : ¬R d a) (s : σ) : content (answer request s).2 d a = content s d a := by
  obtain ⟨hw, n, torn⟩ := tears request s fun a spans => (within a spans).1
  rw [torn]
  refine hw.tear_frame ?_ n _
  rintro ⟨rfl, spans⟩
  exact outside (within a spans).2

/-- A read changes nothing. -/
theorem answer_read {v : Volume} (addressable : v.start + v.size ≤ addressSpace)
    {request : Request} (reads : v.Reads request) (s : σ) :
    content (answer request s).2 = content s := by
  obtain ⟨hw, n, torn⟩ := tears request s fun a spans => (reads.within addressable a spans).1
  rw [torn]
  obtain ⟨address, length, rfl⟩ := reads.eq_read
  rfl

end Tears

/-! ## Partitions -/

/-- Every area and every partition of the table ends within the address space. -/
def Table.Addressable (t : Table) : Prop :=
  ∀ index part area p, t.Knows index part area p →
    area.base.toNat + p.offset.toNat + p.size.toNat ≤ addressSpace

/-- The byte at an address of a device belongs to the partition of a side. -/
def Site.Owns (site : Site) (table : Table) (side : Side) (device : DeviceId) (address : Nat) :
    Prop :=
  ∃ area p, table.Knows site.area (site.parts.get side) area p ∧ device = area.device ∧
    area.base.toNat + p.offset.toNat ≤ address ∧
      address < area.base.toNat + p.offset.toNat + p.size.toNat

theorem Table.Mapped.partitions_addressable {table : Table} (mapped : table.Mapped) :
    table.Addressable :=
  fun _ _ _ _ known => mapped.end_le known

section Partitions

variable {table : Table} {site : Site} {side : Side}

theorem Table.Addressable.volume_end_le (addressable : table.Addressable) {v : Volume}
    (found : site.volume table side = .ok v) : v.start + v.size ≤ addressSpace := by
  obtain ⟨area, p, known, -, start, size⟩ := Table.knows_of_volume found
  rw [start, size]
  exact addressable _ _ area p known

theorem Site.owns_of_sideRegion {d : DeviceId} {a : Nat} (inside : site.sideRegion table side d a) :
    site.Owns table side d a := by
  obtain ⟨v, found, same, low, high⟩ := inside
  obtain ⟨area, p, known, device, start, size⟩ := Table.knows_of_volume found
  exact ⟨area, p, known, same.trans device, start ▸ low, by omega⟩

end Partitions

/-! ## Storages -/

/-- A save of settings that are held makes no request, if no write is pending. -/
theorem Session.save_of_held {s : Session} {image : Settings.Image} {site : Site} {table : Table}
    (held : image = s.latest.payload) (idle : s.writePending = false) :
    s.save site table image = .done (.ok (), s) := by
  have staged : s.stage image = s := if_neg (by simp [held, idle])
  unfold save
  rw [staged]
  exact if_neg (by simp [idle])

/-- A flush, whatever its result, leaves the latest generation as it is. -/
theorem Session.latest_flush (s : Session) (site : Site) (table : Table) :
    (s.flush site table).Ends fun result => result.2.latest = s.latest := by
  refine .bind (.all _) fun result _ => ?_
  cases result with
  | error e => rfl
  | ok freeOffset =>
    refine .bind (.all _) fun synced _ => ?_
    dsimp only
    split <;> rfl

namespace Storage

variable {σ : Type} {answer : (request : Bus.Request) → StateM σ (Bus.Reply request)}
  {content : σ → Medium} {table : Table}

section Tearing

variable (addressable : table.Addressable) (tears : Tears answer content) (s : Storage) (t : σ)
include addressable tears

/-- Mounting changes nothing. -/
theorem content_mounted : content ((s.mounted table).run.run answer t).2 = content t := by
  unfold mounted
  split
  · rfl
  · refine (Session.only_mount_reads s.site table).run_keeps
      (P := fun t' => content t' = content t) ?_ rfl
    rintro request ⟨side, v, found, reads⟩ t' same
    exact (tears.answer_read (addressable.volume_end_le found) reads t').trans same

/-- Loading changes nothing. -/
theorem content_load : content ((s.load table).run answer t).2 = content t := by
  have same := content_mounted addressable tears s t
  cases mounted : (s.mounted table).run.run answer t with
  | mk result t' =>
    rw [mounted] at same
    cases result with
    | error e =>
      rw [run_load_of_error mounted]
      exact same
    | ok session =>
      rw [run_load_of_ok mounted]
      exact same

end Tearing

/-- A save of a session keeps to the partition that the counter after it selects. -/
theorem content_session_save (addressable : table.Addressable) (tears : Tears answer content)
    (session : Session) (site : Site) (image : Settings.Image) (t : σ) {d : DeviceId} {a : Nat}
    (outside : ¬site.Owns table (.ofCounter
      ((session.save site table image).run answer t).1.2.latest.counter) d a) :
    content ((session.save site table image).run answer t).2 d a = content t d a := by
  unfold Session.save at outside ⊢
  dsimp only at outside ⊢
  split
  · rename_i pending
    rw [if_pos pending, ((session.stage image).latest_flush site table).run answer t] at outside
    refine ((session.stage image).only_flush fun v (found : site.volume table _ = .ok v) =>
      addressable.volume_end_le found).run_keeps
        (P := fun t' => content t' d a = content t d a) ?_ rfl
    intro request within t' same
    exact (tears.answer_frame within (fun inside => outside (Site.owns_of_sideRegion inside))
      t').trans same
  · rfl

/-- A save keeps to the partition that the counter after it selects, whatever its outcome. If the
session that it starts from holds the settings and has no write pending, it changes nothing, like
a load. -/
theorem save_footprint (addressable : table.Addressable) (tears : Tears answer content)
    (s : Storage) (settings : Settings) (t : σ) :
    let after := (s.save table settings).run answer t
    (∀ d a, ¬s.site.Owns table (.ofCounter after.1.2.statistics.counter) d a →
      content after.2 d a = content t d a) ∧
    (∀ session, ((s.mounted table).run.run answer t).1 = .ok session →
      settings.encode = session.latest.payload → session.writePending = false →
      content after.2 = content t) ∧
    content ((s.load table).run answer t).2 = content t := by
  intro after
  have same := content_mounted addressable tears s t
  refine ⟨?_, ?_, content_load addressable tears s t⟩
  · intro d a outside
    rw [← same]
    cases mounted : (s.mounted table).run.run answer t with
    | mk result t' =>
      cases result with
      | error e =>
        have failed : after = ((.error e, s), t') := run_save_of_error mounted settings
        rw [failed]
      | ok session =>
        have saved := run_save_of_ok mounted settings
        simp only [after, saved] at outside ⊢
        exact content_session_save addressable tears session s.site settings.encode t' outside
  · intro session found held idle
    have mounted : (s.mounted table).run.run answer t =
        (.ok session, ((s.mounted table).run.run answer t).2) := Prod.ext found rfl
    have saved := run_save_of_ok mounted settings
    rw [← same]
    simp only [after, saved, Session.save_of_held held idle]
    rfl

end Storage

/-- A save to the flash whose write fails after ten bytes, and one that needs no write. -/
theorem Installation.save_footprint_torn :
    let answer := flash.hardware.answerAmid
    let s : Storage := { site := flash.site, session := some (.ofRecovered ⟨.empty, .empty⟩) }
    let idle : Storage := { site := flash.site, session := some .initial }
    let settings := { Settings.default with brightness := 1 }
    let t : Medium × List (Option Mishap) := (.erased, [some ⟨10, .device .other⟩])
    let after := (s.save flash.table settings).run answer t
    (flash.table.Addressable ∧ Tears answer Prod.fst) ∧
      (after.1.2.statistics.writePending = true ∧ after.2.1 ⟨0⟩ 82 = 0x4F) ∧
      (∀ d a, ¬s.site.Owns flash.table (.ofCounter after.1.2.statistics.counter) d a →
        after.2.1 d a = t.1 d a) ∧
      ((idle.save flash.table .default).run answer t).2.1 = t.1 ∧
      ((idle.load flash.table).run answer t).2.1 = t.1 := by
  intro answer s idle settings t after
  have mapped : flash.table.Mapped := ⟨by decide, by decide⟩
  have addressable := mapped.partitions_addressable
  have tears : Tears answer Prod.fst := flash.hardware.tears_answerAmid
  have torn : after.1.2.statistics.writePending = true ∧ after.2.1 ⟨0⟩ 82 = 0x4F := by
    decide +kernel
  obtain ⟨footprint, -, -⟩ := Storage.save_footprint addressable tears s settings t
  obtain ⟨-, unchanged, loaded⟩ := Storage.save_footprint addressable tears idle .default t
  have held : Settings.default.encode = Session.initial.latest.payload := by decide +kernel
  simp only [after] at torn ⊢
  exact ⟨⟨addressable, tears⟩, torn, footprint, unchanged .initial rfl held rfl, loaded⟩

end TwinLog
