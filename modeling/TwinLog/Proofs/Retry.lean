-- SUMMARY: When settings that were saved survive failed saves and their retries.
import TwinLog.Proofs.Live

/-! # Failed saves and retries

Every save that fails makes a new generation, so that a retry goes to the other log, even if that
is the only one with the settings that were saved last. A ledger follows which logs keep them. A
new storage loads what was saved last or tried since exactly as long as some log keeps it
(`Installation.retries_keep_iff`). -/

namespace TwinLog

/-- What the saves of a run have promised. -/
structure Ledger where
  /-- The generation of the last save that succeeded. -/
  acknowledged : Option Nat
  /-- The settings of the last save that succeeded and of all saves since. -/
  tried : List Settings
  /-- Whether the logs keep a record of the acknowledged generation or a later one. -/
  keeps : Sides Bool

def Ledger.empty : Ledger := ⟨none, [], ⟨false, false⟩⟩

/-- Whether a log keeps a record through a save that fails. A reset that has begun takes all
records, and a record that is torn within its magic word makes the log unreadable. -/
def survives (trouble : Trouble) (reset : Bool) (r : Record) (kept : Bool) : Bool :=
  match if reset then trouble .erase else none, trouble .write with
  | some failure, _ => kept && failure.bytes == 0
  | none, some failure =>
    r.torn failure.bytes = r.encode.toList ||
      !reset && kept && !decide (0 < failure.bytes ∧ failure.bytes < 4)
  | none, none => kept

section Survival

variable {trouble : Trouble} {reset : Bool} {failure : Failure}

theorem survives_unerased (r : Record) (kept : Bool) (erase : trouble .erase = some failure)
    (h : reset = true) : survives trouble reset r kept = (kept && failure.bytes == 0) := by
  rw [survives, if_pos h, erase]

theorem survives_unwritten (r : Record) (kept : Bool) (write : trouble .write = some failure)
    (erase : reset = true → trouble .erase = none) :
    survives trouble reset r kept =
      (decide (r.torn failure.bytes = r.encode.toList) ||
        !reset && kept && !decide (0 < failure.bytes ∧ failure.bytes < 4)) := by
  have erased : (if reset then trouble .erase else none) = none := by
    cases reset with
    | false => rfl
    | true => exact erase rfl
  rw [survives, erased, write]

end Survival

namespace Installation

variable (i : Installation)

/-- The ledger after a save, by what the save returns. -/
def enter (trouble : Trouble) (w : World) (settings : Settings) (l : Ledger) : Ledger :=
  let s := (i.session w).stage settings.encode
  match (i.save trouble w settings).1 with
  | .ok () => {
      acknowledged := some s.latest.counter.toNat
      tried := [settings]
      keeps := if s.writePending then (Sides.mk false false).set s.target true else l.keeps
    }
  | .error _ => {
      acknowledged := l.acknowledged
      tried := l.tried ++ [settings]
      keeps := l.keeps.set s.target
        (survives trouble ((i.target s).resets s.log) s.latest (l.keeps.get s.target))
    }

/-- The worlds that one storage reaches from a blank medium by loads and saves whose writes and
erases may fail, with the number of saves that made a new generation and the ledger. -/
inductive Trials : Nat → Ledger → World → Prop where
  | boot {m : Medium} (blank : i.Blank m) : Trials 0 .empty (i.boot m)
  | load {n : Nat} {l : Ledger} {w : World} (h : Trials n l w) : Trials n l (i.load w).2
  | save {n : Nat} {l : Ledger} {w : World} (h : Trials n l w) (trouble : Trouble)
      (reads : trouble .read = none) (syncs : trouble .sync = none) (settings : Settings)
      (tears : i.advances w settings → (i.generation w settings).DetectsTears) :
      Trials (n + (i.advances w settings).toNat) (i.enter trouble w settings l)
        (i.save trouble w settings).2

/-- The generation that a new storage loads from a medium. -/
def loaded (m : Medium) : Nat :=
  (i.load (i.boot m)).2.storage.statistics.counter.toNat

/-- The ledger is right about the logs. -/
structure Balanced (generation : Nat) (l : Ledger) (w : World) : Prop
    extends i.Live generation w where
  idle : (i.session w).writePending = false → l.acknowledged = some generation
  bound : ∀ g, l.acknowledged = some g → 0 < g ∧ g ≤ generation
  keeps : ∀ g, l.acknowledged = some g → ∀ side,
    (l.keeps.get side = true ↔
      ∃ r, (i.last w.medium).get side = some r ∧ g ≤ r.counter.toNat)
  tried : ∀ g, l.acknowledged = some g → ∀ side r, (i.last w.medium).get side = some r →
    g ≤ r.counter.toNat → ∃ settings ∈ l.tried, r.payload = settings.encode

variable {i} {generation : Nat} {w : World} {l : Ledger}

/-! ## Steps -/

/-- A save that writes the new generation keeps the ledger balanced. -/
theorem Attempt.balanced_written {settings : Settings} {s s' : Session}
    (h : i.Attempt generation w settings.encode s)
    (live : i.Live (generation + 1) ⟨i.stored s w.medium Record.size, ⟨i.site, some s'⟩⟩) :
    i.Balanced (generation + 1)
      ⟨some s.latest.counter.toNat, [settings], (Sides.mk false false).set s.target true⟩
      ⟨i.stored s w.medium Record.size, ⟨i.site, some s'⟩⟩ := by
  have whole : s.latest.torn Record.size = s.latest.encode.toList :=
    s.latest.torn_of_le (Nat.le_refl _)
  obtain ⟨target, other⟩ := last_stored (h.tracks_staged s.target) h.current_staged
    fun part => absurd whole part
  rw [if_pos whole] at target
  -- every record of the new generation is the one that was written
  have new : ∀ side r, (i.last (i.stored s w.medium Record.size)).get side = some r →
      s.latest.counter.toNat ≤ r.counter.toNat → side = s.target ∧ r = s.latest := by
    intro side r found le
    rcases side.eq_or_eq_other s.target with rfl | rfl
    · rw [target] at found
      cases found
      exact ⟨rfl, rfl⟩
    · rw [other] at found
      have := h.counter _ r found
      rw [h.latest_staged] at le
      omega
  refine { toLive := live, idle := fun _ => ?_, bound := ?_, keeps := ?_, tried := ?_ }
  · rw [h.latest_staged]
  · intro g same
    cases same
    rw [h.latest_staged]
    exact ⟨Nat.succ_pos _, Nat.le_refl _⟩
  · intro g same side
    cases same
    constructor
    · intro kept
      rcases side.eq_or_eq_other s.target with rfl | rfl
      · exact ⟨s.latest, target, Nat.le_refl _⟩
      · have none : ∀ side, (Sides.mk false false).get side = false := fun side => by
          cases side <;> rfl
        rw [Sides.get_set_of_ne _ (Side.other_ne _), none] at kept
        cases kept
    · rintro ⟨r, found, le⟩
      obtain ⟨rfl, -⟩ := new side r found le
      rw [Sides.get_set_self]
  · intro g same side r found le
    cases same
    obtain ⟨-, rfl⟩ := new side r found le
    exact ⟨settings, List.mem_singleton.2 rfl, h.payload⟩

/-- A save that fails keeps the ledger balanced if its log keeps records as the ledger says. -/
theorem Attempt.balanced_failed {settings : Settings} {s : Session}
    (h : i.Attempt generation w settings.encode s) (balanced : i.Balanced generation l w)
    {m : Medium} (live : i.Live (generation + 1) ⟨m, ⟨i.site, some s.doubted⟩⟩) {kept : Bool}
    (other : (i.last m).get s.target.other = (i.last w.medium).get s.target.other)
    (records : ∀ r, (i.last m).get s.target = some r →
      r = s.latest ∨ (i.last w.medium).get s.target = some r)
    (keeps : ∀ g, l.acknowledged = some g →
      (kept = true ↔ ∃ r, (i.last m).get s.target = some r ∧ g ≤ r.counter.toNat)) :
    i.Balanced (generation + 1)
      ⟨l.acknowledged, l.tried ++ [settings], l.keeps.set s.target kept⟩
      ⟨m, ⟨i.site, some s.doubted⟩⟩ := by
  refine { toLive := live, idle := fun idle => ?_, bound := fun g same => ?_,
           keeps := fun g same side => ?_, tried := fun g same side r found le => ?_ }
  · have pending := h.pending
    rw [show s.writePending = false from idle] at pending
    cases pending
  · exact ⟨(balanced.bound g same).1, Nat.le_succ_of_le (balanced.bound g same).2⟩
  · rcases side.eq_or_eq_other s.target with rfl | rfl
    · rw [Sides.get_set_self]
      exact keeps g same
    · rw [Sides.get_set_of_ne _ (Side.other_ne _), balanced.keeps g same]
      show _ ↔ ∃ r, (i.last m).get s.target.other = some r ∧ g ≤ r.counter.toNat
      rw [other]
  · have old : r = s.latest ∨ (i.last w.medium).get side = some r := by
      rcases side.eq_or_eq_other s.target with rfl | rfl
      · exact records r found
      · exact .inr (other.symm.trans found)
    rcases old with rfl | old
    · exact ⟨settings, List.mem_append_right _ (List.mem_singleton.2 rfl), h.payload⟩
    · obtain ⟨settings', mem, payload⟩ := balanced.tried g same side r old le
      exact ⟨settings', List.mem_append_left _ mem, payload⟩

/-- A failed write leaves the log the records that the ledger says. -/
theorem Attempt.balanced_unwritten {settings : Settings} {s : Session}
    (h : i.Attempt generation w settings.encode s) (balanced : i.Balanced generation l w)
    (tears : s.latest.DetectsTears) (t : Nat)
    (live : i.Live (generation + 1) ⟨i.stored s w.medium t, ⟨i.site, some s.doubted⟩⟩) :
    i.Balanced (generation + 1)
      ⟨l.acknowledged, l.tried ++ [settings], l.keeps.set s.target
        (decide (s.latest.torn t = s.latest.encode.toList) ||
          !decide ((i.target s).resets s.log) && l.keeps.get s.target &&
            !decide (0 < t ∧ t < 4))⟩
      ⟨i.stored s w.medium t, ⟨i.site, some s.doubted⟩⟩ := by
  obtain ⟨target, other⟩ := last_stored (h.tracks_staged s.target) h.current_staged (t := t)
    fun _ => tears
  refine h.balanced_failed balanced live other (fun r found => ?_) fun g same => ?_
  · rcases last_stored_cases (h.tracks_staged s.target) h.current_staged (fun _ => tears) found with
      ⟨-, new⟩ | old
    · exact .inl new
    · exact .inr old
  rw [target]
  have old := balanced.keeps g same s.target
  -- a record that is there in spite of the error is as good as one that was acknowledged
  by_cases whole : s.latest.torn t = s.latest.encode.toList
  · have le : g ≤ s.latest.counter.toNat := by
      rw [h.latest_staged]
      exact Nat.le_succ_of_le (balanced.bound g same).2
    rw [if_pos whole, decide_eq_true whole, Bool.true_or]
    exact iff_of_true rfl ⟨s.latest, rfl, le⟩
  rw [if_neg whole, decide_eq_false whole, Bool.false_or]
  -- the old records are lost to the reset, or behind a header that cannot be read
  by_cases lost : (0 < t ∧ t < 4) ∨ (i.target s).resets s.log
  · rw [if_pos lost]
    refine iff_of_false (fun kept => ?_) fun ⟨r, found, _⟩ => by cases found
    simp only [Bool.and_eq_true, Bool.not_eq_true', decide_eq_false_iff_not] at kept
    rcases lost with lost | reset
    · exact kept.2 lost
    · exact kept.1.1 reset
  · rw [if_neg lost]
    rw [not_or] at lost
    rw [decide_eq_false lost.1, decide_eq_false lost.2]
    simpa using old

/-- A failed erase leaves the log the records that the ledger says. -/
theorem Attempt.balanced_unerased {settings : Settings} {s : Session}
    (h : i.Attempt generation w settings.encode s) (balanced : i.Balanced generation l w)
    (bytes : Nat)
    (live : i.Live (generation + 1)
      ⟨(i.target s).wiped w.medium (min bytes (i.target s).size), ⟨i.site, some s.doubted⟩⟩) :
    i.Balanced (generation + 1)
      ⟨l.acknowledged, l.tried ++ [settings],
        l.keeps.set s.target (l.keeps.get s.target && bytes == 0)⟩
      ⟨(i.target s).wiped w.medium (min bytes (i.target s).size),
        ⟨i.site, some s.doubted⟩⟩ := by
  have inside : min bytes (i.volume s.target).size ≤ (i.volume s.target).size :=
    Nat.min_le_right _ _
  obtain ⟨target, other⟩ := last_wiped (m := w.medium) inside
  have nonempty : 0 < (i.volume s.target).size := (i.writable s.target).nonempty
  have old := fun g same => balanced.keeps g same s.target
  by_cases zero : bytes = 0
  · rw [if_pos (by rw [zero, Nat.zero_min])] at target
    refine h.balanced_failed balanced live other (fun r found => .inr (target ▸ found))
      fun g same => ?_
    rw [show (i.last ((i.target s).wiped w.medium (min bytes (i.target s).size))).get s.target =
      (i.last w.medium).get s.target from target, ← old g same, zero]
    simp
  · rw [if_neg (by omega)] at target
    refine h.balanced_failed balanced live other (fun r found => ?_) fun g same => ?_
    · cases target.symm.trans found
    · refine iff_of_false (fun kept => ?_) fun ⟨r, found, _⟩ => ?_
      · simp [zero] at kept
      · cases target.symm.trans found

/-- A save that stages nothing keeps the ledger balanced. -/
theorem Balanced.entered_idle (h : i.Balanced generation l w) {settings : Settings}
    (idle : ((i.session w).stage settings.encode).writePending = false)
    (live : i.Live generation ⟨w.medium, ⟨i.site, some (i.session w)⟩⟩) :
    i.Balanced generation ⟨some (i.session w).latest.counter.toNat, [settings], l.keeps⟩
      ⟨w.medium, ⟨i.site, some (i.session w)⟩⟩ := by
  obtain ⟨same, payload⟩ := Session.stage_of_idle idle
  rw [same] at idle
  have acknowledged := h.idle idle
  rw [h.latest]
  refine { toLive := live, idle := fun _ => rfl, bound := ?_, keeps := ?_, tried := ?_ }
  · intro g same
    cases same
    exact h.bound _ acknowledged
  · intro g same
    cases same
    exact h.keeps _ acknowledged
  · intro g same side r found le
    cases same
    refine ⟨settings, List.mem_singleton.2 rfl, ?_⟩
    -- only the latest record is of the acknowledged generation
    have counter : r.counter = (i.session w).latest.counter := by
      rw [← UInt16.toNat_inj, h.latest]
      exact Nat.le_antisymm (h.counter side r found) le
    have target : side = (i.session w).target := by
      rw [← h.side side r found, counter]
      rfl
    have latest := h.settled idle
    rw [← target] at latest
    rw [payload, Option.some.inj (found.symm.trans latest)]

/-- Every save keeps the ledger balanced. -/
theorem Balanced.save {trouble : Trouble}
    (erasable : ∀ side, (i.volume side).Erasable i.hardware trouble)
    (healthy : ∀ side, (i.volume side).Erasable i.hardware .none) (reads : trouble .read = none)
    (syncs : trouble .sync = none) (h : i.Balanced generation l w) {settings : Settings}
    (few : generation + (i.advances w settings).toNat ≤ 65535)
    (tears : i.advances w settings → (i.generation w settings).DetectsTears) :
    i.Balanced (generation + (i.advances w settings).toNat) (i.enter trouble w settings l)
      (i.save trouble w settings).2 := by
  obtain ⟨result, s, m, run, saved⟩ := save_cases reads erasable h.site settings
  rw [generation_eq healthy h.site] at tears
  rw [advances_eq healthy h.site] at few tears ⊢
  unfold enter
  rw [run]
  cases pending : ((i.session w).stage settings.encode).writePending with
  | false =>
    obtain ⟨rfl, rfl, rfl, live⟩ := h.ended_of_idle pending saved.ended
    rw [(Session.stage_of_idle pending).1]
    have settled := pending
    rw [(Session.stage_of_idle pending).1] at settled
    have idle := h.entered_idle pending live
    simp only [settled]
    exact idle
  | true =>
    rw [pending] at few tears
    have attempt : i.Attempt generation w settings.encode
        ((i.session w).stage settings.encode) :=
      { toLive := h.toLive, few := few, staged := rfl, pending := pending }
    have live := attempt.ended (tears rfl) saved.ended
    -- how the save ended tells which entry the ledger gets
    cases saved with
    | idle idle =>
      rw [pending] at idle
      cases idle
    | unsynced _ _ _ sync =>
      rw [syncs] at sync
      cases sync
    | written =>
      simp only [pending, if_true]
      exact attempt.balanced_written live
    | unwritten _ write erase =>
      simp only [survives_unwritten _ _ write fun reset => erase (of_decide_eq_true reset)]
      exact attempt.balanced_unwritten h (tears rfl) _ live
    | unerased _ reset erase =>
      simp only [survives_unerased _ _ erase (decide_eq_true reset)]
      exact attempt.balanced_unerased h _ live

/-! ## Runs -/

/-- The ledger of every run is balanced. -/
theorem Trials.balanced
    (native : ∀ side, ∃ unit, (i.volume side).Native i.hardware unit) {n : Nat}
    (trials : i.Trials n l w) (few : n ≤ 65535) : i.Balanced n l w := by
  induction trials with
  | boot blank =>
    refine { toLive := .boot blank, idle := fun idle => ?_, bound := nofun, keeps := nofun,
             tried := nofun }
    -- the default settings are due to be written
    rw [session_boot, i.writePending_recovered, newest_of_blank blank] at idle
    cases idle
  | load _ ih =>
    have balanced := ih few
    have live := balanced.load
    rw [load_eq balanced.site] at live ⊢
    exact { toLive := live, idle := balanced.idle, bound := balanced.bound,
            keeps := balanced.keeps, tried := balanced.tried }
  | @save n l w _ trouble reads syncs settings tears ih =>
    have balanced := ih (Nat.le_trans (Nat.le_add_right _ _) few)
    exact balanced.save (fun side => .inl (native side)) (fun side => .inl (native side)) reads
      syncs few tears

/-! ## What is loaded -/

theorem loaded_eq (m : Medium) :
    i.loaded m = ((Session.newest (i.last m)).getD .default).counter.toNat := by
  rw [loaded, load_eq rfl, ← i.latest_recovered]
  rfl

/-- What was acknowledged or tried since is loaded as long as the ledger says that a log keeps
it. -/
theorem Balanced.loaded_iff (h : i.Balanced generation l w) {g : Nat}
    (acknowledged : l.acknowledged = some g) :
    (g ≤ i.loaded w.medium ↔ l.keeps.a = true ∨ l.keeps.b = true) ∧
      (g ≤ i.loaded w.medium →
        ∃ settings ∈ l.tried, i.reload w.medium = .ok (.decode settings.encode)) := by
  have keeps : (l.keeps.a = true ∨ l.keeps.b = true) ↔ ∃ side, l.keeps.get side = true := by
    refine ⟨?_, fun ⟨side, kept⟩ => ?_⟩
    · rintro (kept | kept)
      · exact ⟨.a, kept⟩
      · exact ⟨.b, kept⟩
    · cases side with
      | a => exact .inl kept
      | b => exact .inr kept
  rw [keeps, loaded_eq, i.reload_eq]
  rcases Session.newest_cases (i.last w.medium) with
    ⟨none, newest⟩ | ⟨side, r, found, newest, newer⟩
  · -- without records the default settings are loaded, which were never acknowledged
    rw [newest]
    have pos := (h.bound g acknowledged).1
    refine ⟨iff_of_false (Nat.not_le.2 pos) ?_, fun le => absurd le (Nat.not_le.2 pos)⟩
    rintro ⟨side, kept⟩
    obtain ⟨r, found, -⟩ := (h.keeps g acknowledged side).1 kept
    cases (none side).symm.trans found
  · -- the record that is loaded has the greatest counter, so it is recent if any is
    rw [newest]
    refine ⟨⟨fun le => ?_, ?_⟩, fun le => ?_⟩
    · exact ⟨side, (h.keeps g acknowledged side).2 ⟨r, found, le⟩⟩
    · rintro ⟨side', kept⟩
      obtain ⟨r', found', le⟩ := (h.keeps g acknowledged side').1 kept
      refine Nat.le_trans le ?_
      rcases side'.eq_or_eq_other side with rfl | rfl
      · cases found.symm.trans found'
        exact Nat.le_refl _
      · exact UInt16.le_iff_toNat_le.1 (newer r' found')
    · obtain ⟨settings, tried, payload⟩ := h.tried g acknowledged side r found le
      refine ⟨settings, tried, ?_⟩
      rw [← payload]
      rfl

/-! ## Power loss -/

/-- The operations of one kind fail. -/
def failing (kind : Sim.OperationKind) (bytes : Nat) : Trouble := fun other =>
  if other = kind then some ⟨bytes, .other⟩ else none

section Failing

variable (native : ∀ side, ∃ unit, (i.volume side).Native i.hardware unit)
  (site : w.storage.site = i.site) (settings : Settings)
include native site

/-- Without a new generation, no trouble changes the medium. -/
theorem save_idle (pending : ((i.session w).stage settings.encode).writePending = false)
    {trouble : Trouble} (reads : trouble .read = none) :
    (i.save trouble w settings).2.medium = w.medium := by
  obtain ⟨result, s, m, run, saved⟩ :=
    save_cases reads (fun side => .inl (native side)) site settings
  rw [run]
  cases saved with
  | idle => rfl
  | written on => rw [pending] at on; cases on
  | unsynced on => rw [pending] at on; cases on
  | unwritten on => rw [pending] at on; cases on
  | unerased on => rw [pending] at on; cases on

/-- A write that fails leaves a part of the new generation. -/
theorem save_failing_write (pending : ((i.session w).stage settings.encode).writePending = true)
    (bytes : Nat) :
    (i.save (failing .write bytes) w settings).2.medium =
      i.stored ((i.session w).stage settings.encode) w.medium bytes := by
  have reads : failing .write bytes .read = none := rfl
  obtain ⟨result, s, m, run, saved⟩ :=
    save_cases reads (fun side => .inl (native side)) site settings
  rw [run]
  cases saved with
  | idle idle => rw [pending] at idle; cases idle
  | written _ write => cases write
  | unsynced _ write => cases write
  | unwritten _ write => cases write; rfl
  | unerased _ _ erase => cases erase

/-- An erase that fails leaves a part of the log reset. -/
theorem save_failing_erase (pending : ((i.session w).stage settings.encode).writePending = true)
    (reset : (i.target ((i.session w).stage settings.encode)).resets
      ((i.session w).stage settings.encode).log) (bytes : Nat) :
    (i.save (failing .erase bytes) w settings).2.medium =
      (i.target ((i.session w).stage settings.encode)).wiped w.medium
        (min bytes (i.target ((i.session w).stage settings.encode)).size) := by
  have reads : failing .erase bytes .read = none := rfl
  obtain ⟨result, s, m, run, saved⟩ :=
    save_cases reads (fun side => .inl (native side)) site settings
  rw [run]
  cases saved with
  | idle idle => rw [pending] at idle; cases idle
  | written _ _ erase => cases erase reset
  | unsynced _ _ erase => cases erase reset
  | unwritten _ write => cases write
  | unerased _ _ erase => cases erase; rfl

/-- Power loss during a save leaves what the save leaves if a write or an erase fails. -/
theorem cut_eq_save (calls bytes : Nat) :
    ∃ trouble : Trouble, trouble .read = none ∧ trouble .sync = none ∧
      (i.cut w settings calls bytes).2.medium = (i.save trouble w settings).2.medium := by
  have healthy : ∀ side, (i.volume side).Erasable i.hardware .none :=
    fun side => .inl (native side)
  rcases cut_cases healthy site settings calls bytes with
    ⟨m, run, broken⟩ | ⟨result, s, m, run, saved⟩
  · rw [run]
    cases broken with
    | before =>
      cases pending : ((i.session w).stage settings.encode).writePending with
      | false => exact ⟨.none, rfl, rfl, (save_idle native site settings pending rfl).symm⟩
      | true =>
        by_cases reset : (i.target ((i.session w).stage settings.encode)).resets
          ((i.session w).stage settings.encode).log
        · refine ⟨failing .erase 0, rfl, rfl, ?_⟩
          rw [save_failing_erase native site settings pending reset, Nat.zero_min,
            Volume.wiped_zero]
          rfl
        · refine ⟨failing .write 0, rfl, rfl, ?_⟩
          rw [save_failing_write native site settings pending, stored, Volume.appended,
            if_neg reset]
          exact (Medium.program_nil _ _ _ _).symm
    | @reset pending reset n inside =>
      refine ⟨failing .erase n, rfl, rfl, ?_⟩
      rw [save_failing_erase native site settings pending reset, Nat.min_eq_left inside]
      rfl
    | record pending t =>
      exact ⟨failing .write t, rfl, rfl, (save_failing_write native site settings pending t).symm⟩
  · refine ⟨.none, rfl, rfl, ?_⟩
    obtain ⟨result', s', m', run', saved'⟩ := save_cases rfl healthy site settings
    rw [run, run']
    rcases saved.of_healthy.2 with ⟨pending, -, rfl⟩ | ⟨pending, -, rfl⟩
    · rcases saved'.of_healthy.2 with ⟨-, -, rfl⟩ | ⟨pending', -, -⟩
      · rfl
      · rw [pending] at pending'; cases pending'
    · rcases saved'.of_healthy.2 with ⟨pending', -, -⟩ | ⟨-, -, rfl⟩
      · rw [pending] at pending'; cases pending'
      · rfl

end Failing

/-- On the flash, a save that succeeds and one that fails within the magic word. -/
theorem flash_trials :
    let first := { Settings.default with brightness := 1 }
    let second := { Settings.default with brightness := 2 }
    let w := (flash.save .none (flash.boot .erased) first).2
    let l := flash.enter .none (flash.boot .erased) first .empty
    flash.Trials 2 (flash.enter (failing .write 2) w second l)
      (flash.save (failing .write 2) w second).2 := by
  intro first second w l
  have advance : (flash.advances (flash.boot .erased) first).toNat = 1 := by decide +kernel
  have advance' : (flash.advances w second).toNat = 1 := by decide +kernel
  have generation : flash.generation (flash.boot .erased) first =
      Record.default.refresh first.encode := by decide +kernel
  have generation' : flash.generation w second =
      (Record.default.refresh first.encode).refresh second.encode := by decide +kernel
  have trials := ((Trials.boot flash_blank).save .none rfl rfl first
    fun _ => generation ▸ detectsTears_first).save (failing .write 2) rfl rfl second
      fun _ => generation' ▸ detectsTears_second
  rwa [advance, advance'] at trials

/-- After failed saves and retries a new storage loads settings that were saved last or tried
since exactly as long as some log keeps them, as the ledger says. What power loss leaves during a
further save is what that save leaves if a write or an erase fails. -/
theorem retries_keep_iff (i : Installation)
    (native : ∀ side, ∃ unit, (i.volume side).Native i.hardware unit) {n : Nat} {l : Ledger}
    {w : World} (trials : i.Trials n l w) (few : n ≤ 65535) {g : Nat}
    (acknowledged : l.acknowledged = some g) :
    (g ≤ i.loaded w.medium ↔ l.keeps.a = true ∨ l.keeps.b = true) ∧
      (g ≤ i.loaded w.medium →
        ∃ settings ∈ l.tried, i.reload w.medium = .ok (.decode settings.encode)) ∧
      ∀ settings calls bytes, ∃ trouble : Trouble, trouble .read = none ∧ trouble .sync = none ∧
        (i.cut w settings calls bytes).2.medium = (i.save trouble w settings).2.medium := by
  have balanced := trials.balanced native few
  obtain ⟨keeps, tried⟩ := balanced.loaded_iff acknowledged
  exact ⟨keeps, tried, fun settings => cut_eq_save native balanced.site settings⟩

/-- One save that succeeds, and one that fails after two bytes. -/
theorem retries_keep_iff_second :
    let first := { Settings.default with brightness := 1 }
    let second := { Settings.default with brightness := 2 }
    let w := (flash.save .none (flash.boot .erased) first).2
    let l := flash.enter .none (flash.boot .erased) first .empty
    let w' := (flash.save (failing .write 2) w second).2
    let l' := flash.enter (failing .write 2) w second l
    flash.Trials 2 l' w' ∧ l'.acknowledged = some 1 ∧
      (1 ≤ flash.loaded w'.medium ↔ l'.keeps.a = true ∨ l'.keeps.b = true) := by
  intro first second w l w' l'
  have trials : flash.Trials 2 l' w' := flash_trials
  have acknowledged : l'.acknowledged = some 1 := by decide +kernel
  have keeps := retries_keep_iff flash (fun side => ⟨41, flash_native side⟩) trials (by decide)
    acknowledged
  exact ⟨trials, acknowledged, keeps.1⟩

/-- After two writes that failed within the magic word, the settings that were saved are lost. -/
theorem retries_lose_saved :
    let first := { Settings.default with brightness := 1 }
    let second := { Settings.default with brightness := 2 }
    let w := (flash.save .none (flash.boot .erased) first).2
    let l := flash.enter .none (flash.boot .erased) first .empty
    let w' := (flash.save (failing .write 2) w second).2
    let l' := flash.enter (failing .write 2) w second l
    let w'' := (flash.save (failing .write 2) w' second).2
    let l'' := flash.enter (failing .write 2) w' second l'
    flash.Trials 3 l'' w'' ∧ l''.acknowledged = some 1 ∧ l''.tried = [first, second, second] ∧
      (∀ settings ∈ l''.tried, Settings.decode settings.encode ≠ .default) ∧
      flash.reload w''.medium = .ok .default := by
  intro first second w l w' l' w'' l''
  have advance : (flash.advances w' second).toNat = 1 := by decide +kernel
  have generation : flash.generation w' second =
      ((Record.default.refresh first.encode).refresh second.encode).refresh second.encode := by
    decide +kernel
  have tears : (((Record.default.refresh first.encode).refresh second.encode).refresh
      second.encode).DetectsTears :=
    Record.detectsTears_of_crc (by decide +kernel) (by decide +kernel)
  have trials := flash_trials.save (failing .write 2) rfl rfl second fun _ => generation ▸ tears
  rw [advance] at trials
  refine ⟨trials, by decide +kernel, by decide +kernel, by decide +kernel, ?_⟩
  rw [flash.reload_eq]
  exact congrArg Except.ok (by decide +kernel)

end Installation

end TwinLog
