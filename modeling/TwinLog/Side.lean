-- SUMMARY: The two sides of a twin log, and pairs indexed by them.

/-! # Sides -/

namespace TwinLog

/-- One of the two logs. -/
inductive Side where
  | a
  | b
deriving DecidableEq

/-- The side that a generation is written to: even counters go to `a`, odd ones to `b`. -/
def Side.ofCounter (counter : UInt16) : Side :=
  if counter % 2 = 0 then .a else .b

/-- One value for each side. -/
structure Sides (α : Type) where
  a : α
  b : α
deriving DecidableEq

namespace Sides

variable {α : Type}

def get (s : Sides α) : Side → α
  | .a => s.a
  | .b => s.b

def set (s : Sides α) : Side → α → Sides α
  | .a, x => { s with a := x }
  | .b, x => { s with b := x }

@[simp] theorem get_set_self (s : Sides α) (side : Side) (x : α) : (s.set side x).get side = x := by
  cases side <;> rfl

@[simp] theorem get_set_of_ne (s : Sides α) {side other : Side} (h : other ≠ side) (x : α) :
    (s.set side x).get other = s.get other := by
  cases side <;> cases other <;> first | rfl | exact absurd rfl h

end Sides

end TwinLog
