import Mathlib.Algebra.Group.Nat.Defs
import Mathlib.Data.Nat.Notation

/-!
# Resource identifiers

An identifier is a 32-bit number: its upper half is the base value of a kind of resource, its
lower half a serial number. The resources of a kind live in a table, and the slot of an
identifier is its serial number modulo the size of the table.
-/

namespace ResourceId

/-- `CFE_RESOURCEID_UNDEFINED`, which marks a free slot, an unowned buffer and no application. -/
def undefinedId : Nat := 0

/-- `CFE_RESOURCEID_RESERVED`, which marks a slot whose resource is being created or deleted. -/
def reservedId : Nat := 0xFFFFFFFF

/-- `CFE_RESOURCEID_MAX` -/
def resourceIdMax : Nat := 0xFFFF

/-- `CFE_ResourceId_ToIndex`; the subtraction wraps around at 32 bits. -/
def toIndex (id baseValue tableSize : Nat) : Option Nat :=
  let serial := if baseValue ≤ id then id - baseValue else id + 2 ^ 32 - baseValue
  if serial > resourceIdMax ∨ tableSize = 0 then none else some (serial % tableSize)

theorem toIndex_lt {id baseValue tableSize i : Nat} (h : toIndex id baseValue tableSize = some i) :
    i < tableSize := by
  rw [toIndex, Option.ite_none_left_eq_some, not_or] at h
  obtain ⟨⟨-, hpos⟩, hi⟩ := h
  rw [← Option.some.inj hi]
  exact Nat.mod_lt _ (Nat.pos_of_ne_zero hpos)

/-- The loop of `CFE_ResourceId_FindNext`: the first identifier behind `serial` that is not
taken, or the undefined one when the tries are used up. -/
def findNextFrom (resourceType tableSize : Nat) (isTaken : Nat → Bool) (serial : Nat) : Nat → Nat
  | 0 => undefinedId
  | count + 1 =>
    let next := if serial + 1 ≥ resourceIdMax then (serial + 1) % tableSize else serial + 1
    if isTaken (resourceType + next) then findNextFrom resourceType tableSize isTaken next count
    else resourceType + next

/-- `CFE_ResourceId_FindNext`: base and serial number are the two halves of an identifier. -/
def findNext (startId tableSize : Nat) (checkFunc : Nat → Bool) : Nat :=
  let serial := startId % (resourceIdMax + 1)
  findNextFrom (startId - serial) tableSize checkFunc serial tableSize

/-- The serial number that the loop tries behind `serial`. -/
def nextSerial (tableSize serial : Nat) : Nat :=
  if serial + 1 ≥ resourceIdMax then (serial + 1) % tableSize else serial + 1

end ResourceId
