-- SUMMARY: Generations: the side each belongs to, and which of two records is the latest one.
import TwinLog.Proofs.Record
import TwinLog.Session

/-! # Generations

Consecutive generations belong to different sides (`Side.ofCounter_succ`). Of the last records of
the two sides the newest one is taken (`Session.newest`); the lemmas below say when a record is
the newest one, and that it is lost on one side only when it is not on the other. -/

namespace TwinLog

/-! ## Counters -/

/-- Where the counter goes next. It wraps to zero. -/
theorem counter_succ_cases {c d : UInt16} (h : c + 1 = d) :
    (c.toNat = 65535 ∧ d = 0) ∨ c.toNat + 1 = d.toNat := by
  have sum := congrArg UInt16.toNat h
  rw [UInt16.toNat_add] at sum
  have bound := c.toNat_lt
  have zero : d = 0 ↔ d.toNat = 0 := UInt16.toNat_inj.symm
  have one : (1 : UInt16).toNat = 1 := rfl
  rw [zero]
  omega

/-! ## Sides -/

namespace Side

def other : Side → Side
  | .a => .b
  | .b => .a

@[simp] theorem other_other (side : Side) : side.other.other = side := by
  cases side <;> rfl

theorem other_ne (side : Side) : side.other ≠ side := by
  cases side <;> decide

theorem eq_or_eq_other (side target : Side) : side = target ∨ side = target.other := by
  cases side <;> cases target <;> decide

/-- The side is the parity of the counter. -/
theorem ofCounter_eq (counter : UInt16) :
    Side.ofCounter counter = if counter.toNat % 2 = 0 then .a else .b := by
  have parity : counter % 2 = 0 ↔ counter.toNat % 2 = 0 := by
    rw [← UInt16.toNat_inj, UInt16.toNat_mod]
    rfl
  unfold Side.ofCounter
  simp only [parity]

/-- Counters of the same parity belong to the same side. -/
theorem ofCounter_eq_iff {c d : UInt16} :
    Side.ofCounter c = Side.ofCounter d ↔ c.toNat % 2 = d.toNat % 2 := by
  rw [ofCounter_eq, ofCounter_eq]
  rcases Nat.mod_two_eq_zero_or_one c.toNat with even | odd
  · rcases Nat.mod_two_eq_zero_or_one d.toNat with even' | odd'
    · simp [even, even']
    · simp [even, odd']
  · rcases Nat.mod_two_eq_zero_or_one d.toNat with even' | odd'
    · simp [odd, even']
    · simp [odd, odd']

/-- Consecutive generations are on different sides, also where the counter wraps. -/
theorem ofCounter_succ (counter : UInt16) :
    Side.ofCounter (counter + 1) = (Side.ofCounter counter).other := by
  have sum : (counter + 1).toNat = (counter.toNat + 1) % 65536 := UInt16.toNat_add _ _
  rw [ofCounter_eq, ofCounter_eq, sum]
  by_cases even : counter.toNat % 2 = 0
  · rw [if_pos even, if_neg (by omega)]
    rfl
  · rw [if_neg even, if_pos (by omega)]
    rfl

end Side

/-- Pairs with the same values on both sides are the same. -/
theorem Sides.ext_get {α : Type} {x y : Sides α} (h : ∀ side, x.get side = y.get side) : x = y := by
  obtain ⟨a, b⟩ := x
  obtain ⟨a', b'⟩ := y
  obtain rfl : a = a' := h .a
  obtain rfl : b = b' := h .b
  rfl

/-! ## Staging -/

namespace Session

variable {s : Session} {image : Settings.Image}

/-- Nothing is staged only if the image is that of the latest generation. -/
theorem stage_of_idle (h : (s.stage image).writePending = false) :
    s.stage image = s ∧ image = s.latest.payload := by
  unfold stage at h ⊢
  split at h
  · cases h
  · rename_i same
    rw [if_neg same]
    rw [not_or] at same
    exact ⟨rfl, Decidable.not_not.1 same.1⟩

/-- Otherwise the image becomes the next generation. -/
theorem stage_of_pending (h : (s.stage image).writePending = true) :
    s.stage image = { s with latest := s.latest.refresh image, writePending := true } := by
  unfold stage at h ⊢
  split at h
  · rename_i differs
    rw [if_pos differs]
  · rename_i same
    rw [not_or] at same
    exact absurd h same.2

section Pending

variable (h : (s.stage image).writePending = true)
include h

theorem latest_stage : (s.stage image).latest = s.latest.refresh image := by
  rw [stage_of_pending h]

theorem payload_stage : (s.stage image).latest.payload = image := by
  rw [latest_stage h]
  rfl

/-- The counter goes on by one, or wraps. -/
theorem counter_stage : s.latest.counter + 1 = (s.stage image).latest.counter := by
  rw [latest_stage h]
  rfl

theorem toNat_counter_stage (few : s.latest.counter.toNat < 65535) :
    (s.stage image).latest.counter.toNat = s.latest.counter.toNat + 1 := by
  rcases counter_succ_cases (counter_stage h) with ⟨top, -⟩ | succ
  · rw [top] at few
    exact absurd few (Nat.lt_irrefl _)
  · exact succ.symm

/-- The new generation is in the current format. -/
theorem current_stage (current : s.latest.integrity = .current) :
    (s.stage image).latest.integrity = .current := by
  rw [latest_stage h]
  exact Record.integrity_refresh (Record.integrity_eq_current.1 current).1 image

end Pending

/-- Where no write was pending, the image differs from that of the latest generation. -/
theorem ne_of_pending (idle : s.writePending = false) (h : (s.stage image).writePending = true) :
    image ≠ s.latest.payload := by
  intro same
  have unchanged : s.stage image = s := if_neg (by simp [same, idle])
  rw [unchanged, idle] at h
  cases h

/-- Without a write that is pending, exactly the images that differ are staged. -/
theorem writePending_stage_of_idle (idle : s.writePending = false) (image : Settings.Image) :
    (s.stage image).writePending = decide (image ≠ s.latest.payload) := by
  unfold stage
  split
  · rename_i due
    simpa [idle] using due
  · rename_i same
    simpa [idle] using same

/-- An image that differs from that of the latest generation is staged. -/
theorem stage_pending_of_ne (h : image ≠ s.latest.payload) :
    (s.stage image).writePending = true := by
  unfold stage
  rw [if_pos (.inl h)]

/-- Every image is staged where a write is pending. -/
theorem stage_pending_of_due (due : s.writePending = true) (image : Settings.Image) :
    (s.stage image).writePending = true := by
  unfold stage
  rw [if_pos (.inr due)]

/-- The next generation belongs to the other side. -/
theorem target_stage (h : (s.stage image).writePending = true) :
    (s.stage image).target = s.target.other := by
  rw [stage_of_pending h]
  exact Side.ofCounter_succ s.latest.counter

@[simp] theorem logs_stage : (s.stage image).logs = s.logs := by
  unfold stage
  split <;> rfl

/-! ## The newest record -/

/-- The record of the greater counter. -/
def newest (records : Sides (Option Record)) : Option Record :=
  (authoritative records.a records.b).map Prod.snd

/-- A session goes on with the newest record, or with the default one if there is none. -/
theorem latest_ofRecovered (found : Sides Recovered) :
    (ofRecovered found).latest =
      (newest ⟨found.a.latest?, found.b.latest?⟩).getD .default := by
  unfold ofRecovered newest
  cases authoritative found.a.latest? found.b.latest? <;> rfl

/-- A recovered session writes a stale record and the default one again. -/
theorem writePending_ofRecovered (found : Sides Recovered) :
    (ofRecovered found).writePending =
      (newest ⟨found.a.latest?, found.b.latest?⟩).elim true (·.integrity = .stale) := by
  unfold ofRecovered newest
  cases authoritative found.a.latest? found.b.latest? <;> rfl

@[simp] theorem logs_ofRecovered (found : Sides Recovered) :
    (ofRecovered found).logs = ⟨found.a.state, found.b.state⟩ := by
  unfold ofRecovered
  cases authoritative found.a.latest? found.b.latest? <;> rfl

variable {records : Sides (Option Record)} {side : Side} {r : Record}

/-- The record leads: it is the last one of its side and its counter is the greater one, or the
counters are equal and the side is `a`. -/
def Leads (records : Sides (Option Record)) (side : Side) (r : Record) : Prop :=
  records.get side = some r ∧ ∀ r', records.get side.other = some r' →
    r'.counter < r.counter ∨ (r'.counter = r.counter ∧ side = .a)

/-- The record that leads is taken, if there is one. -/
theorem authoritative_cases (records : Sides (Option Record)) :
    ((∀ side, records.get side = none) ∧ authoritative records.a records.b = none) ∨
      ∃ side r, Leads records side r ∧ authoritative records.a records.b = some (side, r) := by
  obtain ⟨a, b⟩ := records
  cases a with
  | none =>
    cases b with
    | none =>
      refine .inl ⟨fun side => ?_, rfl⟩
      cases side <;> rfl
    | some b => exact .inr ⟨.b, b, ⟨rfl, nofun⟩, rfl⟩
  | some a =>
    cases b with
    | none => exact .inr ⟨.a, a, ⟨rfl, nofun⟩, rfl⟩
    | some b =>
      by_cases le : b.counter ≤ a.counter
      · refine .inr ⟨.a, a, ⟨rfl, fun r' found => ?_⟩, if_pos le⟩
        cases found
        rcases UInt16.lt_or_eq_of_le le with lt | eq
        · exact .inl lt
        · exact .inr ⟨eq, rfl⟩
      · refine .inr ⟨.b, b, ⟨rfl, fun r' found => ?_⟩, if_neg le⟩
        cases found
        exact .inl (UInt16.not_le.1 le)

/-- A record that leads is taken. -/
theorem authoritative_of_leads (leads : Leads records side r) :
    authoritative records.a records.b = some (side, r) := by
  obtain ⟨found, ahead⟩ := leads
  rcases authoritative_cases records with ⟨none, -⟩ | ⟨side', r', ⟨found', ahead'⟩, taken⟩
  · rw [none side] at found
    cases found
  rcases side'.eq_or_eq_other side with rfl | rfl
  · rw [found] at found'
    cases found'
    exact taken
  · -- two records that lead would each be at least as new as the other, and both on side a
    rw [Side.other_other] at ahead'
    rcases ahead r' found' with lt | ⟨eq, a⟩
    · rcases ahead' r found with lt' | ⟨eq', -⟩
      · exact absurd (UInt16.lt_trans lt lt') (UInt16.lt_irrefl _)
      · rw [eq'] at lt
        exact absurd lt (UInt16.lt_irrefl _)
    · rcases ahead' r found with lt' | ⟨-, other⟩
      · rw [eq] at lt'
        exact absurd lt' (UInt16.lt_irrefl _)
      · rw [a] at other
        cases other

/-- The newest record is the last one of some side, and no record is newer. -/
theorem newest_cases (records : Sides (Option Record)) :
    ((∀ side, records.get side = none) ∧ newest records = none) ∨
      ∃ side r, records.get side = some r ∧ newest records = some r ∧
        ∀ r', records.get side.other = some r' → r'.counter ≤ r.counter := by
  unfold newest
  rcases authoritative_cases records with ⟨none, taken⟩ | ⟨side, r, ⟨found, leads⟩, taken⟩
  · exact .inl ⟨none, congrArg _ taken⟩
  · refine .inr ⟨side, r, found, congrArg _ taken, fun r' other => ?_⟩
    rcases leads r' other with lt | ⟨eq, -⟩
    · exact UInt16.le_of_lt lt
    · exact UInt16.le_of_eq eq

/-- A record with a greater counter than that of the other side is the newest one. -/
theorem newest_of_lt (found : records.get side = some r)
    (lt : ∀ r', records.get side.other = some r' → r'.counter < r.counter) :
    newest records = some r :=
  congrArg (Option.map Prod.snd)
    (authoritative_of_leads ⟨found, fun r' other => .inl (lt r' other)⟩)

/-- Without a record on one side the newest one is that of the other side. -/
theorem newest_of_none (h : records.get side = none) : newest records = records.get side.other := by
  rcases newest_cases records with ⟨none, newest⟩ | ⟨side', r, found, newest, -⟩
  · rw [newest, none]
  · rcases side.eq_or_eq_other side' with rfl | rfl
    · rw [h] at found
      cases found
    · rw [newest, Side.other_other, found]

/-- Without any record there is no newest one. -/
theorem newest_eq_none (h : ∀ side, records.get side = none) : newest records = none :=
  (newest_of_none (h .a)).trans (h .b)

end Session

end TwinLog
