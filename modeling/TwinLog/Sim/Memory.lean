-- SUMMARY: The cells of a simulated device.
import TwinLog.Bytes

/-! # Simulated memory

A memory is a range of byte cells from an origin on. `byte?` is the view of it by address, and
each operation says what it does to that view. -/

namespace TwinLog.Sim

/-- Byte cells at consecutive addresses. -/
structure Memory where
  /-- The address of the first cell. -/
  origin : Nat
  cells : Array UInt8
deriving DecidableEq

/-- What writing a byte does to a cell. -/
inductive Programming where
  /-- The cell takes the byte. -/
  | overwrite
  /-- The cell keeps those of its bits that the byte has, too. -/
  | clearBits
deriving DecidableEq

/-- The cell after a byte is written to it. -/
def Programming.apply : Programming → UInt8 → UInt8 → UInt8
  | .overwrite, _, byte => byte
  | .clearBits, cell, byte => cell &&& byte

namespace Memory

def filled (origin size : Nat) (byte : UInt8) : Memory :=
  ⟨origin, Array.replicate size byte⟩

/-- Whether the memory has `length` cells from `address` on. An empty range has to touch it. -/
def contains (m : Memory) (address length : Nat) : Bool :=
  m.origin ≤ address && address + length ≤ m.origin + m.cells.size

def byte? (m : Memory) (address : Nat) : Option UInt8 :=
  if m.origin ≤ address then m.cells[address - m.origin]? else none

/-- The `length` cells from `address` on. Where there is no cell, the byte is zero. -/
def read (m : Memory) (address length : Nat) : Bytes length :=
  Vector.ofFn fun i => (m.byte? (address + i.val)).getD 0

/-- Changes the `length` cells from `address` on, each by its distance from `address`. -/
def update (m : Memory) (address length : Nat) (change : Nat → UInt8 → UInt8) : Memory :=
  { m with cells := m.cells.mapIdx fun i cell =>
      if address ≤ m.origin + i ∧ m.origin + i < address + length then
        change (m.origin + i - address) cell
      else cell }

def write (m : Memory) (mode : Programming) (address : Nat) (bytes : List UInt8) : Memory :=
  let content := bytes.toArray
  m.update address content.size fun i cell => mode.apply cell (content.getD i cell)

def erase (m : Memory) (address length : Nat) : Memory :=
  m.update address length fun _ _ => 0xFF

/-! ## The view by address -/

theorem byte?_update (m : Memory) (address length : Nat) (change : Nat → UInt8 → UInt8)
    (target : Nat) :
    (m.update address length change).byte? target =
      if address ≤ target ∧ target < address + length then
        (m.byte? target).map (change (target - address))
      else m.byte? target := by
  unfold byte? update
  by_cases h : m.origin ≤ target
  · simp only [h, ↓reduceIte, Array.getElem?_mapIdx, Nat.add_sub_cancel' h]
    split <;> simp
  · simp [h]

/-- An update changes no cell outside its range. -/
theorem byte?_update_of_outside (m : Memory) {address length : Nat}
    (change : Nat → UInt8 → UInt8) {target : Nat}
    (h : target < address ∨ address + length ≤ target) :
    (m.update address length change).byte? target = m.byte? target := by
  rw [byte?_update, if_neg (by omega)]

@[simp] theorem size_update (m : Memory) (address length : Nat)
    (change : Nat → UInt8 → UInt8) :
    (m.update address length change).cells.size = m.cells.size := by
  simp [update]

@[simp] theorem contains_update (m : Memory) (address length : Nat)
    (change : Nat → UInt8 → UInt8) (start count : Nat) :
    (m.update address length change).contains start count = m.contains start count := by
  unfold contains
  rw [size_update]
  rfl

@[simp] theorem getElem_read (m : Memory) (address length i : Nat) (h : i < length) :
    (m.read address length)[i] = (m.byte? (address + i)).getD 0 := by
  simp [read]

end Memory

end TwinLog.Sim
