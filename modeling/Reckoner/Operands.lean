import Reckoner.Operation

/-!
# Operand slots

Every operation has a left slot; all but the unary minus have a right slot as well. `Operands`
holds one thing per slot, whether the operation uses the slot or not.
-/

namespace Reckoner

/-- The place of an operand. -/
inductive Slot where
  | left
  | right
deriving DecidableEq, Inhabited, Repr

namespace Slot

/-- Slots are numbered from zero. -/
def number : Slot → Nat
  | left => 0
  | right => 1

/-- The slot with a given number. -/
def ofNumber? : Nat → Option Slot
  | 0 => some left
  | 1 => some right
  | _ => none

@[simp] theorem ofNumber?_number (slot : Slot) : ofNumber? slot.number = some slot := by
  cases slot <;> rfl

end Slot

/-- One value per operand slot. -/
structure Operands (α : Type) where
  /-- What belongs to the left slot. -/
  left : α
  /-- What belongs to the right slot. -/
  right : α
deriving DecidableEq, Inhabited, Repr

namespace Operands

variable {α β : Type}

/-- The value of a slot. -/
def get (operands : Operands α) : Slot → α
  | .left => operands.left
  | .right => operands.right

/-- The operands with another value in one slot. -/
def set (operands : Operands α) (slot : Slot) (value : α) : Operands α :=
  match slot with
  | .left => { operands with left := value }
  | .right => { operands with right := value }

/-- Applies a function to both slots. -/
def map (f : α → β) (operands : Operands α) : Operands β := ⟨f operands.left, f operands.right⟩

/-- Both slots empty. -/
def empty : Operands (Option α) := ⟨none, none⟩

/-- The values in slot order. -/
def toList (operands : Operands α) : List α := [operands.left, operands.right]

/-- Operands that agree in both slots are equal. -/
theorem ext_get {a b : Operands α} (h : ∀ slot, a.get slot = b.get slot) : a = b := by
  obtain ⟨left, right⟩ := a
  obtain rfl : left = b.left := h .left
  obtain rfl : right = b.right := h .right
  rfl

@[simp] theorem get_set_self (operands : Operands α) (slot : Slot) (value : α) :
    (operands.set slot value).get slot = value := by
  cases slot <;> rfl

@[simp] theorem get_set_ne (operands : Operands α) {slot other : Slot} (value : α)
    (h : other ≠ slot) : (operands.set slot value).get other = operands.get other := by
  cases slot <;> cases other <;> first | rfl | exact absurd rfl h

@[simp] theorem get_map (f : α → β) (operands : Operands α) (slot : Slot) :
    (operands.map f).get slot = f (operands.get slot) := by
  cases slot <;> rfl

end Operands

/-- The slots whose values an operation needs, in order. -/
def Operation.slots : Operation → List Slot
  | .negate => [.left]
  | _ => [.left, .right]

@[simp] theorem Operation.length_slots (op : Operation) : op.slots.length = op.arity := by
  cases op <;> rfl

end Reckoner
