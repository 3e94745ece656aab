-- SUMMARY: Which saves survive on a new storage that goes on after the reset of a log was interrupted.
import TwinLog.Proofs.Atomicity
import TwinLog.Proofs.InterruptedReset

/-! # Going on after an interrupted reset

Power is lost while a full log is reset, and a new storage goes on without trouble. Its saves
alternate between the two logs until the log that was reset in part is full and is reset again.
Which of them survive depends on how far the first reset has got
(`Installation.saved_survives_interrupted_reset_iff`). -/

namespace TwinLog.Installation

variable (i : Installation)

/-- The worlds that a new storage reaches from a medium by loads and saves without trouble, with
the number of saves that made a new generation. -/
inductive Later (m : Medium) : Nat → World → Prop where
  | boot : Later m 0 (i.boot m)
  | load {e : Nat} {w : World} (h : Later m e w) : Later m e (i.load w).2
  | save {e : Nat} {w : World} (h : Later m e w) (settings : Settings) :
      Later m (e + (i.advances w settings).toNat) (i.save .none w settings).2

/-- The worlds after `e` new generations. The logs take turns until the one that was reset in part
is full and is reset as a whole. -/
inductive Phase (side : Side) (before : List UInt8) (old : List Record) (n first : Nat) :
    Nat → World → Prop where
  | level {j : Nat} {w : World} (h : i.Level side before n first j w) (count : j ≤ old.length) :
      Phase side before old n first (2 * j) w
  | ahead {j : Nat} {w : World} (h : i.Ahead side before old n first j w)
      (count : j < old.length) : Phase side before old n first (2 * j + 1) w
  | regular {e : Nat} {w : World} (h : i.Regular w) (idle : (i.session w).writePending = false)
      (counter : (i.session w).latest.counter.toNat = first + e) (done : 2 * old.length < e) :
      Phase side before old n first e w

/-- Whether the last of `e` generations survives after a log with places for `slots` records was
reset in its first `n` bytes. It does if the log is unreadable and thus reset first, if the record
is in the other log, if the log has been reset in the meantime, or if the place behind the record
starts with an erased word. At the end of the log it does if it can be read. -/
def Outlasts (slots n e : Nat) (readable : Prop) : Prop :=
  n < 4 ∨ e % 2 = 0 ∨ slots < (e + 1) / 2 ∨
    ((e + 1) / 2 < slots ∧ Record.size * ((e + 1) / 2) + 4 ≤ n) ∨
    ((e + 1) / 2 = slots ∧ readable)

variable {i} {side : Side} {before : List UInt8} {old : List Record} {n first e : Nat} {w : World}

namespace Phase

variable (h : i.Phase side before old n first e w)
include h

theorem site : w.storage.site = i.site := by
  cases h with
  | level h => exact h.site
  | ahead h => exact h.site
  | regular h => exact h.site

theorem counter : (i.session w).latest.counter.toNat = first + e := by
  cases h with
  | level h => exact h.counter
  | ahead h => exact h.counter
  | regular _ _ counter => exact counter

/-- When the latest settings are loaded. -/
theorem reload_iff (full : i.FullLog side before old first) (pos : 0 < first) (word : 4 ≤ n) :
    i.reload w.medium = .ok (i.session w).settings ↔
      Outlasts old.length n e (∃ r, Record.read? ((((i.volume side).content w.medium).drop
        (Record.size * (old.length - 1))).take Record.size) = some r ∧
          r.Agrees (i.session w).latest) := by
  have counter := h.counter
  have short : ¬n < 4 := Nat.not_lt.2 word
  unfold Outlasts
  simp only [short, false_or]
  -- the number of saves is even where both sides have had as many, and odd where the side that was
  -- reset is ahead
  cases h with
  | @level j _ h count =>
    rw [h.reload_eq full count]
    exact iff_of_true rfl (.inl (by omega))
  | @ahead j _ h count =>
    have half : (2 * j + 1 + 1) / 2 = j + 1 := by omega
    have odd : ¬(2 * j + 1) % 2 = 0 := by omega
    have inside : ¬old.length < j + 1 := Nat.not_lt.2 count
    rw [h.reload_iff full count, half]
    simp only [odd, inside, false_or]
    refine or_congr Iff.rfl (and_congr_right fun last => ?_)
    rw [← last, Nat.add_sub_cancel]
  | regular h idle _ done =>
    rw [h.reload_iff idle]
    refine iff_of_true (fun zero => ?_) (.inr (.inl (by omega)))
    rw [zero] at counter
    have none : (0 : UInt16).toNat = 0 := rfl
    omega

/-- A load leaves the phase as it is. -/
theorem load : i.Phase side before old n first e (i.load w).2 := by
  have site := h.site
  rw [load_eq site]
  cases h with
  | level h count => exact .level { h with site := rfl } count
  | ahead h count => exact .ahead { h with site := rfl } count
  | regular h idle counter done => exact .regular { h with site := rfl } idle counter done

/-- A save that stages nothing leaves the phase as it is. -/
theorem saved_idle {settings : Settings}
    (pending : ((i.session w).stage settings.encode).writePending = false) :
    i.Phase side before old n first e
      ⟨w.medium, ⟨i.site, some ((i.session w).stage settings.encode)⟩⟩ := by
  rw [(Session.stage_of_idle pending).1]
  cases h with
  | level h count => exact .level { h with site := rfl } count
  | ahead h count => exact .ahead { h with site := rfl } count
  | regular h idle counter done => exact .regular { h with site := rfl } idle counter done

/-- A save that makes a new generation leads to the next phase. -/
theorem written (full : i.FullLog side before old first) {settings : Settings} {s : Session}
    (staged : s = (i.session w).stage settings.encode) (pending : s.writePending = true)
    (few : first + e < 65535) :
    i.Phase side before old n first (e + 1) ⟨i.stored s w.medium Record.size,
      ⟨i.site, some { s.appended (i.target s) with writePending := false }⟩⟩ := by
  cases h with
  | @level j _ h count =>
    by_cases last : j = old.length
    · have counter := (h.toResumed.staging staged pending few).2.2.2.2.1
      exact .regular (h.reset staged pending full last few) rfl counter (by omega)
    · have more : j < old.length := Nat.lt_of_le_of_ne count last
      exact .ahead (h.written staged pending full more few) more
  | @ahead j _ h count => exact .level (h.written staged pending full few) count
  | regular h idle counter done =>
    refine .regular (h.saved_written staged pending) rfl ?_ (Nat.lt_succ_of_lt done)
    show s.latest.counter.toNat = _
    rw [← counter] at few
    rw [staged] at pending ⊢
    rw [Session.toNat_counter_stage pending few, counter, Nat.add_assoc]

/-- A save leads on. -/
theorem saved (full : i.FullLog side before old first) {settings : Settings}
    (few : first + (e + ((i.session w).stage settings.encode).writePending.toNat) ≤ 65535)
    {result : Except Error Unit} {s : Session} {m : Medium}
    (saved : i.Saved .none ((i.session w).stage settings.encode) w.medium result s m) :
    i.Phase side before old n first
        (e + ((i.session w).stage settings.encode).writePending.toNat) ⟨m, ⟨i.site, some s⟩⟩ ∧
      s.latest.payload = settings.encode := by
  rcases saved.of_healthy.2 with ⟨pending, rfl, rfl⟩ | ⟨pending, rfl, rfl⟩
  · obtain ⟨same, payload⟩ := Session.stage_of_idle pending
    have phase := h.saved_idle pending
    rw [pending]
    rw [same] at phase ⊢
    exact ⟨phase, payload.symm⟩
  · rw [pending] at few ⊢
    exact ⟨h.written full rfl pending few, Session.payload_stage pending⟩

end Phase

/-! ## The start -/

/-- A full log holds a record. -/
theorem FullLog.length_pos (full : i.FullLog side before old first) : 0 < old.length := by
  have room := (i.writable side).room
  have size := full.full
  refine Nat.pos_of_ne_zero fun none => ?_
  rw [none] at size
  omega

/-- What is read of a full log after its first bytes are reset. -/
theorem FullLog.entries_wiped {m : Medium}
    (full : i.FullLog side ((i.volume side).content m) old first) (pos : 0 < n)
    (inside : n ≤ (i.volume side).size) :
    Log.entries ((i.volume side).content ((i.volume side).wiped m n)) =
      if 4 ≤ n then some [] else none := by
  obtain ⟨log, keeps⟩ := full.keeps
  have entries := Log.entries_drop_interrupted keeps (n := n) (Nat.zero_le old.length)
  rw [Nat.mul_zero, List.drop_zero] at entries
  rw [Volume.content_wiped _ _ inside]
  refine entries.trans ?_
  have some : old.length ≠ 0 := Nat.ne_of_gt full.length_pos
  by_cases word : 4 ≤ n
  · rw [if_pos (.inr (by omega)), if_pos word]
  · rw [if_neg (by omega), if_neg (by omega), if_neg word]

section Start

variable {settings : Settings} {s : Session} (h : i.Regular w)
  (staged : s = (i.session w).stage settings.encode) (pending : s.writePending = true)
include h staged pending

/-- What a run without trouble knows of a log that it is about to reset. -/
theorem Regular.fullLog (reset : (i.volume s.target).resets s.log)
    (counted : (i.session w).writePending = false → (i.session w).latest.counter ≠ 0) :
    (i.session w).writePending = false ∧
      ∃ old, i.FullLog s.target ((i.volume s.target).content w.medium) old
        (i.session w).latest.counter.toNat := by
  have logs : s.logs = (i.session w).logs := by rw [staged, Session.logs_stage]
  have target : s.target = (i.session w).target.other := by
    rw [staged] at pending ⊢
    exact Session.target_stage pending
  obtain ⟨old, keeps, sides⟩ := h.order s.target
  have full : (i.volume s.target).size < Record.size * old.length + Record.size := by
    rw [Session.log, logs] at reset
    rcases reset with corrupt | full
    · exact absurd corrupt keeps.trusted
    · rwa [keeps.free] at full
  have last : (i.last w.medium).get s.target = old.getLast? := by
    rw [get_last, keeps.latest?_eq]
  have room := (i.writable s.target).room
  -- default settings are due only while both logs are empty, and an empty log is not reset
  have idle : (i.session w).writePending = false := by
    refine Bool.eq_false_iff.2 fun fresh => ?_
    rw [(h.fresh fresh).2, eq_comm, List.getLast?_eq_none_iff] at last
    rw [last, List.length_nil] at full
    omega
  refine ⟨idle, old, ⟨⟨_, keeps⟩, sides, Volume.length_content _ _, full, fun r found => ?_⟩⟩
  have follows := (h.settled idle).2
  rw [← target, last, found] at follows
  -- the newest generation is on the other side, so the last old record is of an earlier one
  rcases follows with ⟨succ, -⟩ | ⟨top, zero⟩
  · rcases counter_succ_cases succ with ⟨-, zero⟩ | succ
    · exact absurd zero (counted idle)
    · omega
  · rw [top, zero]
    decide

/-- A new storage takes a log for an empty one if its first word is erased. -/
theorem Regular.level (idle : (i.session w).writePending = false)
    (full : i.FullLog s.target ((i.volume s.target).content w.medium) old
      (i.session w).latest.counter.toNat)
    (word : 4 ≤ n) (inside : n ≤ (i.volume s.target).size) :
    i.Level s.target ((i.volume s.target).content w.medium) n
      (i.session w).latest.counter.toNat 0 (i.boot ((i.volume s.target).wiped w.medium n)) := by
  have target : (i.session w).target = s.target.other := by
    rw [staged] at pending ⊢
    rw [Session.target_stage pending, Side.other_other]
  -- the erased word hides the records behind it
  have blank : Log.entries ((i.volume s.target).content ((i.volume s.target).wiped w.medium n)) =
      some [] := by
    rw [full.entries_wiped (Nat.lt_of_lt_of_le (by decide) word) inside, if_pos word]
  have other := content_other_wiped (m := w.medium) inside
  -- so the new storage goes on from the other log, which holds the newest generation
  have latest : (i.last ((i.volume s.target).wiped w.medium n)).get s.target.other =
      some (i.session w).latest := by
    rw [get_last, other, ← get_last, ← target]
    exact (h.settled idle).1
  have newest : Session.newest (i.last ((i.volume s.target).wiped w.medium n)) =
      some (i.session w).latest := by
    refine (Session.newest_of_none ?_).trans latest
    rw [get_last, Log.latest?, blank]
    rfl
  have recovered : (i.recovered ((i.volume s.target).wiped w.medium n)).latest =
      (i.session w).latest := by
    rw [i.latest_recovered, newest]
    rfl
  have state : (i.recovered ((i.volume s.target).wiped w.medium n)).logs.get s.target = .empty := by
    rw [get_logs_recovered, Log.recovered, if_neg (content_ne_nil _ _), blank]
    rfl
  refine { site := rfl, idle := ?_, current := ?_, payload := ?_, counter := ?_, trusted := ?_,
           free := ?_, other := ?_, target := ?_, latest := ?_, patched := ?_ }
  · rw [session_boot, i.writePending_recovered, newest, Option.elim_some, h.current]
    rfl
  · rw [session_boot, recovered]
    exact h.current
  · rw [session_boot, recovered]
    exact h.payload
  · rw [session_boot, recovered]
    rfl
  · rw [session_boot, state]
    intro corrupt
    cases corrupt
  · rw [session_boot, state]
    rfl
  · have order := h.order s.target.other
    rw [← other] at order
    exact inOrder_recovered ⟨_, order⟩
  · rw [session_boot, Session.target, recovered]
    exact target
  · rw [session_boot, recovered]
    exact latest
  · show Log.Patched _ n _ 0 ((i.volume s.target).content ((i.volume s.target).wiped w.medium n))
    rw [Volume.content_wiped _ _ inside]
    exact Log.patched_interrupted (by rwa [full.length])

end Start

/-- A log that has lost a part of its first word is unreadable, and is reset first. -/
theorem FullLog.sound (full : i.FullLog side ((i.volume side).content w.medium) old first)
    {generation : Nat} (sound : i.Sound generation w.medium) (short : n < 4) :
    i.Sound generation ((i.volume side).wiped w.medium n) := by
  have room := (i.writable side).room
  have inside : n ≤ (i.volume side).size := by
    rw [Record.size_eq] at room
    omega
  refine sound.wiped_of_tidy inside ?_
  by_cases zero : n = 0
  · rw [zero, Volume.wiped_zero]
    exact sound.tidy side
  · intro es found
    rw [full.entries_wiped (Nat.pos_of_ne_zero zero) inside, if_neg (Nat.not_le.2 short)] at found
    cases found

/-! ## Runs -/

section Later

variable (erasable : ∀ side, (i.volume side).Erasable i.hardware .none) {m : Medium}
  (later : i.Later m e w)
include erasable later

/-- On a sound medium all goes on as in a run without trouble. -/
theorem Later.consistent {generation : Nat} (sound : i.Sound generation m)
    (few : generation + e ≤ 65535) : i.Consistent (generation + e) w := by
  induction later with
  | boot => exact .of_sound sound
  | load _ ih => exact (ih few).load
  | @save e w _ settings ih =>
    rw [← Nat.add_assoc] at few ⊢
    have consistent := ih (Nat.le_trans (Nat.le_add_right _ _) few)
    exact (consistent.save erasable few).2.1

/-- The phases follow one another. -/
theorem Later.phase (full : i.FullLog side before old first)
    (start : i.Level side before n first 0 (i.boot m)) (few : first + e ≤ 65535) :
    i.Phase side before old n first e w := by
  -- the phase is carried from save to save; loads leave it as it is
  induction later with
  | boot => exact .level start (Nat.zero_le _)
  | load _ ih => exact (ih few).load
  | @save e w _ settings ih =>
    have phase := ih (by omega)
    obtain ⟨result, s, m, run, saved⟩ := save_cases rfl erasable phase.site settings
    rw [run]
    rw [advances_eq erasable phase.site] at few ⊢
    exact (phase.saved full few saved).1

end Later

/-- The number of places for records in a full log. -/
theorem FullLog.slots_eq (full : i.FullLog side before old first) :
    (i.volume side).size / Record.size = old.length := by
  obtain ⟨log, keeps⟩ := full.keeps
  have inside := keeps.inside
  have size := full.full
  rw [full.length] at inside
  rw [Nat.div_eq_iff (by decide)]
  rw [Nat.mul_comm] at inside size
  omega

/-- The reset of a log is interrupted after `k` bytes by power loss during a save, and a new storage
goes on without trouble. Every later save succeeds, and its settings survive as long as
`Outlasts` says so. -/
theorem saved_survives_interrupted_reset_iff (i : Installation)
    (erasable : ∀ side, (i.volume side).Erasable i.hardware .none) {n : Nat} {w : World}
    (run : i.Runs n w) {settings : Settings} (advances : i.advances w settings = true) {side : Side}
    (target : Side.ofCounter (i.generation w settings).counter = side)
    (reset : (i.volume side).resets ((i.session w).logs.get side)) {k : Nat}
    (inside : k ≤ (i.volume side).size) {calls bytes : Nat}
    (lost : (i.cut w settings calls bytes).2.medium = (i.volume side).wiped w.medium k) {e : Nat}
    {w' : World} (later : i.Later (i.cut w settings calls bytes).2.medium e w')
    (settings' : Settings) (few : n + (e + (i.advances w' settings').toNat) ≤ 65535) :
    let after := (i.save .none w' settings').2
    let slots := (i.volume side).size / Record.size
    let readable := ∃ r, Record.read? ((((i.volume side).content after.medium).drop
        (Record.size * (slots - 1))).take Record.size) = some r ∧
      r.counter = after.storage.statistics.counter ∧ r.settings = .decode settings'.encode
    (i.save .none w' settings').1 = .ok () ∧
      (i.reload after.medium = .ok (.decode settings'.encode) ↔
        Outlasts slots k (e + (i.advances w' settings').toNat) readable) := by
  intro after slots readable
  have regular := run.regular erasable
  rw [generation_eq erasable regular.site] at target
  rw [advances_eq erasable regular.site] at advances
  obtain ⟨s, staged⟩ : ∃ s, s = (i.session w).stage settings.encode := ⟨_, rfl⟩
  rw [← staged] at target advances
  obtain rfl : s.target = side := target
  rw [← show s.logs = (i.session w).logs by rw [staged, Session.logs_stage]] at reset
  obtain ⟨counter, counted⟩ := run.counter_eq erasable (by omega)
  obtain ⟨idle, old, full⟩ := regular.fullLog staged advances reset fun idle zero => by
    rw [zero] at counter
    exact absurd counter (Nat.ne_of_lt (counted idle))
  have start := regular.level (n := k) staged advances idle full
  rw [counter] at full start
  rw [lost] at later
  have count : slots = old.length := full.slots_eq
  by_cases short : k < 4
  · -- the storage knows that the log is unreadable
    have consistent := (run.reaches.consistent erasable (by omega)).sound
    have sound := full.sound consistent short
    rw [← Nat.add_assoc] at few
    obtain ⟨done, -, reload⟩ :=
      (later.consistent erasable sound (by omega)).save erasable few
    exact ⟨done, iff_of_true reload (.inl short)⟩
  · -- the storage takes the log for an empty one and writes over the old records
    have word : 4 ≤ k := Nat.le_of_not_lt short
    have phase := later.phase erasable full (start word inside) (by omega)
    obtain ⟨result, s', m, run', saved⟩ := save_cases rfl erasable phase.site settings'
    have world : after = ⟨m, ⟨i.site, some s'⟩⟩ := congrArg Prod.snd run'
    rw [advances_eq erasable phase.site] at few ⊢
    obtain ⟨phase', payload⟩ := phase.saved full few saved
    have pos : 0 < n := counted idle
    have reload := phase'.reload_iff full pos word
    rw [← count] at reload
    refine ⟨(congrArg Prod.fst run').trans saved.of_healthy.1, ?_⟩
    show i.reload after.medium = _ ↔ Outlasts slots k _ (∃ r, Record.read?
      ((((i.volume s.target).content after.medium).drop (Record.size * (slots - 1))).take
        Record.size) = some r ∧ r.counter = after.storage.statistics.counter ∧ _)
    have loaded : s'.latest.settings = .decode settings'.encode := congrArg Settings.decode payload
    rw [world, ← loaded]
    exact reload

/-! ## A run on the flash -/

/-- A save leaves a mounted storage. -/
theorem storage_counted (k : Nat) :
    (counted (k + 1)).storage = ⟨flash.site, some (flash.session (counted (k + 1)))⟩ := by
  have regular := (advances_counted k).1.regular (flash_erasable .none)
  obtain ⟨result, s, m, run, -⟩ :=
    save_cases rfl (flash_erasable .none) regular.site (numbered (k + 1))
  rw [counted, run]
  rfl

/-- The fifth save resets the log of side `b`, which is full. -/
theorem cut_counted (bytes : Nat) :
    flash.cut (counted 4) (numbered 5) 0 bytes =
      (none, flash.boot ((flash.volume .b).wiped (counted 4).medium (min bytes 82))) := by
  have storage := storage_counted 3
  obtain ⟨s, staged⟩ : ∃ s, s = (flash.session (counted 4)).stage (numbered 5).encode := ⟨_, rfl⟩
  have target : s.target = .b := by
    rw [staged]
    decide +kernel
  have pending : s.writePending = true := by
    rw [staged]
    decide +kernel
  have reset : (flash.target s).resets s.log := by
    rw [staged]
    decide +kernel
  have volume : flash.target s = flash.volume .b := congrArg flash.volume target
  have native := flash_native .b
  rw [← volume] at native ⊢
  exact cut_reset storage staged pending native reset bytes

/-- Power is lost after 50 of 82 bytes, which leaves the second place with an erased word. -/
theorem saved_survives_interrupted_reset_iff_fifth :
    let w := counted 4
    let settings := numbered 5
    let w' := (flash.cut w settings 0 50).2
    flash.Runs 4 w ∧ flash.advances w settings = true ∧
      (flash.volume .b).resets ((flash.session w).logs.get .b) ∧
      w'.medium = (flash.volume .b).wiped w.medium 50 ∧ flash.Later w'.medium 0 w' ∧
      flash.reload (flash.save .none w' settings).2.medium = .ok (.decode settings.encode) := by
  intro w settings w'
  obtain ⟨run, advances⟩ := advances_counted 4
  have target : Side.ofCounter (flash.generation w settings).counter = .b := by decide +kernel
  have reset : (flash.volume .b).resets ((flash.session w).logs.get .b) := by decide +kernel
  have new : w' = flash.boot ((flash.volume .b).wiped w.medium 50) :=
    congrArg Prod.snd (cut_counted 50)
  have lost : w'.medium = (flash.volume .b).wiped w.medium 50 := congrArg World.medium new
  have later : flash.Later w'.medium 0 w' := by
    rw [new]
    exact .boot
  have next : flash.advances w' settings = true := by decide +kernel
  have few : 4 + (0 + (flash.advances w' settings).toNat) ≤ 65535 := by
    rw [next]
    decide
  obtain ⟨-, reload⟩ := saved_survives_interrupted_reset_iff flash (flash_erasable .none) run
    advances target reset (by decide) lost later settings few
  refine ⟨run, advances, reset, lost, later, reload.2 ?_⟩
  rw [next]
  exact .inr (.inr (.inr (.inl (by decide))))

/-- Power is lost after 10 of 82 bytes. The record that is saved then is followed by the rest of an
old one. -/
theorem lost_after_interrupted_reset :
    let w := counted 4
    let settings := numbered 5
    let w' := (flash.cut w settings 0 10).2
    flash.Runs 4 w ∧ (flash.cut w settings 0 10).1.isNone ∧
      w'.medium = (flash.volume .b).wiped w.medium 10 ∧ flash.Later w'.medium 0 w' ∧
      (flash.save .none w' settings).1 = .ok () ∧
      flash.reload (flash.save .none w' settings).2.medium ≠ .ok (.decode settings.encode) := by
  intro w settings w'
  have cut := cut_counted 10
  have new : w' = flash.boot ((flash.volume .b).wiped w.medium 10) := congrArg Prod.snd cut
  have site : w'.storage.site = flash.site := congrArg (fun w => w.storage.site) new
  refine ⟨(advances_counted 4).1, congrArg (fun run => run.1.isNone) cut,
    congrArg World.medium new, ?_, ?_, ?_⟩
  · rw [new]
    exact .boot
  · obtain ⟨result, s, m, run, saved⟩ := save_cases rfl (flash_erasable .none) site settings
    rw [run]
    exact saved.of_healthy.1
  · intro same
    exact absurd (congrArg Except.toOption same) (by decide +kernel)

end TwinLog.Installation
