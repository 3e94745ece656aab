-- SUMMARY: Every way a save can end: what it returns, what it remembers and what it leaves on the medium.
import TwinLog.Proofs.Installation

/-! # Saves

`Installation.Ended` lists the ways in which a save ends, `Installation.Saved` those in which it
ends when devices are in given trouble, and `Installation.Broken` what is left when power is lost
on the way. Main statements: `Installation.save_cases` and `Installation.cut_cases`. -/

namespace TwinLog

/-! ## Sessions -/

namespace Session

/-- The state of the log that the latest generation goes to. -/
def log (s : Session) : LogState :=
  s.logs.get s.target

/-- The session after the latest generation is written to a volume. -/
def appended (s : Session) (v : Volume) : Session :=
  { s with logs := s.logs.set s.target (v.next s.log) }

/-- The session after the latest generation could not be written. -/
def doubted (s : Session) : Session :=
  { s with logs := s.logs.set s.target { s.log with status := .corrupt } }

end Session

namespace Installation

variable (i : Installation)

/-- The volume that the latest generation goes to. -/
def target (s : Session) : Volume :=
  i.volume s.target

/-- The medium after the first `t` bytes of the latest generation are written. -/
def stored (s : Session) (m : Medium) (t : Nat) : Medium :=
  (i.target s).appended i.hardware s.log s.latest m t

/-- How a save ends for a session that has staged its settings, whatever fails with whatever
error. -/
inductive Ended (s : Session) (m : Medium) : Except Error Unit → Session → Medium → Prop where
  /-- There is nothing to write. -/
  | idle (pending : s.writePending = false) : Ended s m (.ok ()) s m
  | written (pending : s.writePending = true) :
      Ended s m (.ok ()) { s.appended (i.target s) with writePending := false }
        (i.stored s m Record.size)
  | unsynced (pending : s.writePending = true) (e : Error) :
      Ended s m (.error e) (s.appended (i.target s)) (i.stored s m Record.size)
  | unwritten (pending : s.writePending = true) (e : Error) (t : Nat) :
      Ended s m (.error e) s.doubted (i.stored s m t)
  | unerased (pending : s.writePending = true) (e : Error) {n : Nat}
      (inside : n ≤ (i.target s).size) :
      Ended s m (.error e) s.doubted ((i.target s).wiped m n)

/-- How a save ends when devices are in trouble. -/
inductive Saved (trouble : Trouble) (s : Session) (m : Medium) :
    Except Error Unit → Session → Medium → Prop where
  /-- There is nothing to write. -/
  | idle (pending : s.writePending = false) : Saved trouble s m (.ok ()) s m
  | written (pending : s.writePending = true) (write : trouble .write = none)
      (erase : (i.target s).resets s.log → trouble .erase = none) (sync : trouble .sync = none) :
      Saved trouble s m (.ok ()) { s.appended (i.target s) with writePending := false }
        (i.stored s m Record.size)
  | unsynced (pending : s.writePending = true) (write : trouble .write = none)
      (erase : (i.target s).resets s.log → trouble .erase = none) {failure : Failure}
      (sync : trouble .sync = some failure) :
      Saved trouble s m (.error (.device failure.fault)) (s.appended (i.target s))
        (i.stored s m Record.size)
  | unwritten (pending : s.writePending = true) {failure : Failure}
      (write : trouble .write = some failure)
      (erase : (i.target s).resets s.log → trouble .erase = none) :
      Saved trouble s m (.error (.device failure.fault)) s.doubted (i.stored s m failure.bytes)
  | unerased (pending : s.writePending = true) (reset : (i.target s).resets s.log)
      {failure : Failure} (erase : trouble .erase = some failure) :
      Saved trouble s m (.error (.device failure.fault)) s.doubted
        ((i.target s).wiped m (min failure.bytes (i.target s).size))

/-- What is left when power is lost during a save. -/
inductive Broken (s : Session) (m : Medium) : Medium → Prop where
  | before : Broken s m m
  | reset (pending : s.writePending = true) (reset : (i.target s).resets s.log) {n : Nat}
      (inside : n ≤ (i.target s).size) : Broken s m ((i.target s).wiped m n)
  | record (pending : s.writePending = true) (t : Nat) : Broken s m (i.stored s m t)

/-- Whether a save makes a new generation, by what the storage reports before and after it. -/
def advances (w : World) (settings : Settings) : Bool :=
  (i.save .none w settings).2.storage.statistics.counter != (i.load w).2.storage.statistics.counter

/-- The latest generation after a save, which is what the save writes. -/
def generation (w : World) (settings : Settings) : Record :=
  ((i.save .none w settings).2.storage.session.getD .initial).latest

/-! ## The other side -/

variable {i} {s : Session} {m : Medium}

theorem disjoint_other (i : Installation) (side : Side) :
    (i.volume side).Disjoint (i.volume side.other) := by
  cases side with
  | a => exact i.disjoint
  | b => exact i.disjoint.symm

/-- A reset keeps the other log. -/
theorem content_other_wiped {side : Side} {n : Nat} (inside : n ≤ (i.volume side).size) :
    (i.volume side.other).content ((i.volume side).wiped m n) =
      (i.volume side.other).content m :=
  Volume.content_wiped_of_disjoint (i.disjoint_other side) inside

/-- A write of the latest generation keeps the other log. -/
theorem content_other_stored (t : Nat) :
    (i.volume s.target.other).content (i.stored s m t) =
      (i.volume s.target.other).content m := by
  have inside : (i.target s).place s.log + (s.latest.encode.toList.take t).length ≤
      (i.target s).size := by
    have part := (List.take_sublist t s.latest.encode.toList).length_le
    exact Nat.le_trans (Nat.add_le_add_left part _)
      (Volume.place_inside (i.writable s.target) s.log s.latest)
  rw [stored, Volume.appended_eq]
  refine (Volume.content_written_of_disjoint (i.disjoint_other s.target) inside).trans ?_
  split
  · exact content_other_wiped (Nat.le_refl _)
  · rfl

/-- The last records after a part of the latest generation is written. -/
theorem last_stored (tracks : Log.Tracks s.log ((i.volume s.target).content m))
    (current : s.latest.integrity = .current) {t : Nat}
    (tears : s.latest.torn t ≠ s.latest.encode.toList → s.latest.DetectsTears) :
    (i.last (i.stored s m t)).get s.target =
        (if s.latest.torn t = s.latest.encode.toList then some s.latest
        else if (0 < t ∧ t < 4) ∨ (i.target s).resets s.log then none
        else (i.last m).get s.target) ∧
      (i.last (i.stored s m t)).get s.target.other = (i.last m).get s.target.other := by
  simp only [get_last, content_other_stored, and_true]
  exact Volume.latest?_appended (i.writable s.target) tracks current tears

/-- Each record that is found then is the latest generation or was there before. -/
theorem last_stored_cases (tracks : Log.Tracks s.log ((i.volume s.target).content m))
    (current : s.latest.integrity = .current) {t : Nat}
    (tears : s.latest.torn t ≠ s.latest.encode.toList → s.latest.DetectsTears) {side : Side}
    {r : Record} (found : (i.last (i.stored s m t)).get side = some r) :
    (side = s.target ∧ r = s.latest) ∨ (i.last m).get side = some r := by
  obtain ⟨target, other⟩ := last_stored tracks current tears
  rcases side.eq_or_eq_other s.target with rfl | rfl
  · rw [target] at found
    split at found
    · cases found
      exact .inl ⟨rfl, rfl⟩
    · split at found
      · cases found
      · exact .inr found
  · rw [other] at found
    exact .inr found

/-- The last records after a reset has begun. -/
theorem last_wiped {side : Side} {n : Nat} (inside : n ≤ (i.volume side).size) :
    (i.last ((i.volume side).wiped m n)).get side =
        (if n = 0 then (i.last m).get side else none) ∧
      (i.last ((i.volume side).wiped m n)).get side.other = (i.last m).get side.other := by
  simp only [get_last, content_other_wiped inside, and_true]
  split
  · rename_i zero
    rw [zero, Volume.wiped_zero]
  · rename_i pos
    exact Volume.latest?_wiped (Nat.pos_of_ne_zero pos) inside

/-! ## Laws -/

variable {trouble : Trouble}

/-- The area of the site lies on the device of both volumes. -/
theorem area_eq (i : Installation) (side : Side) :
    ∃ area, i.table.area i.site.area = .ok area ∧ area.device = (i.volume side).device := by
  have resolved := i.volume_eq side
  unfold Site.volume Table.volume at resolved
  cases found : i.table.area i.site.area with
  | error e =>
    rw [found] at resolved
    cases resolved
  | ok area =>
    rw [found] at resolved
    simp only [bind, Except.bind] at resolved
    split at resolved
    · cases resolved
    split at resolved
    · cases resolved
    refine ⟨area, rfl, ?_⟩
    rw [← Except.ok.inj resolved]

/-- A sync leaves the medium as it is. Without trouble it succeeds or is not supported. -/
theorem wp_sync {ok : Unit → Medium → Prop} {err : Error → Medium → Prop}
    {crash : Medium → Prop} (hok : trouble .sync = none → ok () m)
    (hunsupported : trouble .sync = none → err .notSupported m)
    (herr : ∀ failure, trouble .sync = some failure → err (.device failure.fault) m)
    (hcrash : crash m) :
    Access.wp (i.hardware.server trouble) (i.table.sync i.site.area) ok err crash m := by
  obtain ⟨area, found, -⟩ := i.area_eq .a
  unfold Table.sync
  rw [found, Access.wp_bind, Access.wp_ok, Access.wp_perform]
  constructor
  · rintro t ⟨bytes, rfl⟩
    exact hcrash
  · intro reply t h
    simp only [Hardware.server, Hardware.answerIn, Operation.kind] at h
    cases hit : trouble .sync with
    | none =>
      simp only [hit, Hardware.answer] at h
      split at h
      · cases h
        exact hok hit
      · cases h
        exact hunsupported hit
    | some failure =>
      simp only [hit, Hardware.tear] at h
      cases h
      exact herr failure hit

/-- Writing the latest generation. -/
theorem wp_flush (erasable : ∀ side, (i.volume side).Erasable i.hardware trouble)
    (pending : s.writePending = true) (m : Medium) :
    (s.flush i.site i.table).wp (i.hardware.server trouble)
      (fun result m' => i.Saved trouble s m result.1 result.2 m') (i.Broken s m) m := by
  unfold Session.flush Session.append
  rw [Script.wp_bind, Access.wp_run, i.volume_eq, Access.wp_bind, Access.wp_ok]
  refine Volume.wp_append (i.writable s.target) (erasable s.target) s.log
    (fun write erase => ?_) (fun failure write erase => .unwritten pending write erase)
    (fun failure erase reset => .unerased pending reset erase) (fun t => .record pending t)
    (fun reset n inside => .reset pending reset inside)
  show Script.wp _ ((i.table.sync i.site.area).run >>= _) _ _ _
  rw [Script.wp_bind, Access.wp_run]
  exact wp_sync (fun sync => .written pending write erase sync)
    (fun sync => .written pending write erase sync)
    (fun failure sync => .unsynced pending write erase sync) (.record pending Record.size)

/-- Saving settings in the session of a world, on devices whose flush is known. -/
theorem wp_save_of {server : Server Bus Medium} {w : World}
    (readable : i.Readable server w.medium) (site : w.storage.site = i.site) {settings : Settings}
    {post : Except Error Unit → Session → Medium → Prop} {crash : Medium → Prop}
    (hcrash : crash w.medium)
    (idle : ((i.session w).stage settings.encode).writePending = false →
      post (.ok ()) ((i.session w).stage settings.encode) w.medium)
    (flush : ((i.session w).stage settings.encode).writePending = true →
      (((i.session w).stage settings.encode).flush i.site i.table).wp server
        (fun result m => post result.1 result.2 m) crash w.medium) :
    (w.storage.save i.table settings).wp server
      (fun result m => ∃ s, result.2 = ⟨i.site, some s⟩ ∧ post result.1 s m) crash w.medium := by
  unfold Storage.save
  rw [Script.wp_bind, Access.wp_run]
  refine wp_mounted readable site ?_ hcrash
  rw [Script.wp_bind, site]
  have done : ((i.session w).save i.site i.table settings.encode).wp server
      (fun result m => post result.1 result.2 m) crash w.medium := by
    unfold Session.save
    by_cases pending : ((i.session w).stage settings.encode).writePending = true
    · rw [if_pos pending]
      exact flush pending
    · rw [if_neg pending]
      exact idle (Bool.eq_false_iff.2 pending)
  exact Script.wp_mono done (fun result m h => ⟨_, rfl, h⟩) fun _ h => h

/-- Saving settings in the session of a world. -/
theorem wp_save (reads : trouble .read = none)
    (erasable : ∀ side, (i.volume side).Erasable i.hardware trouble) {w : World}
    (site : w.storage.site = i.site) (settings : Settings) :
    (w.storage.save i.table settings).wp (i.hardware.server trouble)
      (fun result m => ∃ s, result.2 = ⟨i.site, some s⟩ ∧
        i.Saved trouble ((i.session w).stage settings.encode) w.medium result.1 s m)
      (i.Broken ((i.session w).stage settings.encode) w.medium) w.medium :=
  wp_save_of (i.readable_server reads w.medium) site .before .idle
    fun pending => wp_flush erasable pending w.medium

/-! ## Runs -/

/-- Every way in which a save ends. -/
theorem save_cases (reads : trouble .read = none)
    (erasable : ∀ side, (i.volume side).Erasable i.hardware trouble) {w : World}
    (site : w.storage.site = i.site) (settings : Settings) :
    ∃ result s m, i.save trouble w settings = (result, ⟨m, ⟨i.site, some s⟩⟩) ∧
      i.Saved trouble ((i.session w).stage settings.encode) w.medium result s m := by
  obtain ⟨s, storage, saved⟩ :=
    Script.wp_run (i.replies_answerIn trouble) (wp_save reads erasable site settings)
  refine ⟨_, s, _, ?_, saved⟩
  rw [← storage]
  rfl

/-- Without trouble, a save succeeds. -/
theorem Saved.of_healthy {result : Except Error Unit} {s' : Session} {m' : Medium}
    (h : i.Saved .none s m result s' m') :
    result = .ok () ∧
      ((s.writePending = false ∧ s' = s ∧ m' = m) ∨
        (s.writePending = true ∧ s' = { s.appended (i.target s) with writePending := false } ∧
          m' = i.stored s m Record.size)) := by
  cases h with
  | idle pending => exact ⟨rfl, .inl ⟨pending, rfl, rfl⟩⟩
  | written pending => exact ⟨rfl, .inr ⟨pending, rfl, rfl⟩⟩
  | unsynced _ _ _ sync => cases sync
  | unwritten _ write => cases write
  | unerased _ _ erase => cases erase

theorem Saved.ended {result : Except Error Unit} {s' : Session} {m' : Medium}
    (h : i.Saved trouble s m result s' m') : i.Ended s m result s' m' := by
  cases h with
  | idle pending => exact .idle pending
  | written pending => exact .written pending
  | unsynced pending => exact .unsynced pending _
  | unwritten pending => exact .unwritten pending _ _
  | unerased pending => exact .unerased pending _ (Nat.min_le_right _ _)

/-- Every outcome of a save keeps the latest generation that was staged. -/
theorem Ended.latest_eq {result : Except Error Unit} {s' : Session} {m' : Medium}
    (h : i.Ended s m result s' m') : s'.latest = s.latest := by
  cases h <;> rfl

/-- A save that ends without an error leaves nothing to write. -/
theorem Ended.writePending_eq {result : Except Error Unit} {s' : Session} {m' : Medium}
    (h : i.Ended s m result s' m') (ok : result = .ok ()) : s'.writePending = false := by
  cases h with
  | idle pending => exact pending
  | written => rfl
  | unsynced => cases ok
  | unwritten => cases ok
  | unerased => cases ok

/-- A save makes the generation that it stages. -/
theorem generation_eq (erasable : ∀ side, (i.volume side).Erasable i.hardware .none) {w : World}
    (site : w.storage.site = i.site) (settings : Settings) :
    i.generation w settings = ((i.session w).stage settings.encode).latest := by
  obtain ⟨result, s, m, run, saved⟩ := save_cases rfl erasable site settings
  unfold generation
  rw [run]
  exact saved.ended.latest_eq

/-- A save makes a new generation if it stages one. -/
theorem advances_eq (erasable : ∀ side, (i.volume side).Erasable i.hardware .none) {w : World}
    (site : w.storage.site = i.site) (settings : Settings) :
    i.advances w settings = ((i.session w).stage settings.encode).writePending := by
  obtain ⟨result, s, m, run, saved⟩ := save_cases rfl erasable site settings
  have counter : (i.advances w settings) =
      (((i.session w).stage settings.encode).latest.counter != (i.session w).latest.counter) := by
    unfold advances
    rw [run, load_eq site, ← saved.ended.latest_eq]
    rfl
  rw [counter]
  cases pending : ((i.session w).stage settings.encode).writePending with
  | false => rw [(Session.stage_of_idle pending).1, bne_self_eq_false]
  | true =>
    rw [Session.stage_of_pending pending, bne_iff_ne]
    intro same
    -- the side changes with every generation
    have sides := Side.ofCounter_succ (i.session w).latest.counter
    rw [show (i.session w).latest.counter + 1 = (i.session w).latest.counter from same] at sides
    exact Side.other_ne _ sides.symm

/-- Every way in which a save without trouble ends or is cut. -/
theorem cut_cases (erasable : ∀ side, (i.volume side).Erasable i.hardware .none) {w : World}
    (site : w.storage.site = i.site) (settings : Settings) (calls bytes : Nat) :
    (∃ m, i.cut w settings calls bytes = (none, i.boot m) ∧
        i.Broken ((i.session w).stage settings.encode) w.medium m) ∨
      ∃ result s m, i.cut w settings calls bytes = (some result, i.boot m) ∧
        i.Saved .none ((i.session w).stage settings.encode) w.medium result s m := by
  have h := Script.wp_cut (i.replies_answerIn .none) (i.breaks_tear .none bytes)
    (wp_save rfl erasable site settings) calls
  rw [Hardware.answerIn_none] at h
  unfold cut
  split at h
  · rename_i result m run
    obtain ⟨s, -, saved⟩ := h
    refine .inr ⟨result.1, s, m, ?_, saved⟩
    rw [run]
    rfl
  · rename_i m run
    refine .inl ⟨m, ?_, h⟩
    rw [run]
    rfl

/-- Power is lost during the native reset of a log, after some bytes of it. -/
theorem cut_reset {w : World} {s₀ : Session} (storage : w.storage = ⟨i.site, some s₀⟩)
    {settings : Settings} (staged : s = s₀.stage settings.encode) (pending : s.writePending = true)
    {unit : UInt64} (native : (i.target s).Native i.hardware unit)
    (reset : (i.target s).resets s.log) (bytes : Nat) :
    i.cut w settings 0 bytes =
      (none, i.boot ((i.target s).wiped w.medium (min bytes (i.target s).size))) := by
  have append := Volume.first?_append (i.writable s.target) native s.latest reset
  have flush : (s.flush i.site i.table).first? =
      some ⟨(i.target s).device, .erase (i.target s).start.toUInt32 (i.target s).size⟩ := by
    unfold Session.flush Session.append
    rw [i.volume_eq]
    exact Script.first?_bind append _
  have save : (s₀.save i.site i.table settings.encode).first? =
      some ⟨(i.target s).device, .erase (i.target s).start.toUInt32 (i.target s).size⟩ := by
    unfold Session.save
    rwa [← staged, if_pos pending]
  have first : (w.storage.save i.table settings).first? =
      some ⟨(i.target s).device, .erase (i.target s).start.toUInt32 (i.target s).size⟩ := by
    rw [storage]
    exact Script.first?_bind save _
  have address : (i.target s).start.toUInt32.toNat = (i.target s).start :=
    Volume.toNat_address (i.writable s.target).addressable (i.writable s.target).nonempty
  unfold cut
  rw [Script.cut_zero first]
  simp only [Hardware.tear, native.erases, ↓reduceIte, address, Volume.wiped, Option.map_none]

end Installation

end TwinLog
