import OpenTypeLayout.Bisect
import OpenTypeLayout.Bytes.FixedRecord

/-!
# Arrays of records

Records of one kind, stored one behind the other. All of them lie inside the window, so an item
below the length can always be decoded.
-/

namespace OpenTypeLayout

/-- A number of records of one kind at the beginning of a window. -/
structure RecordArray (α : Type) where
  /-- The window that holds the records. -/
  window : Window
  /-- The number of records. -/
  length : Nat
  /-- The kind of the records. -/
  record : FixedRecord α
  /-- Every record is inside the window. -/
  fits : length * record.size ≤ window.size

namespace RecordArray

variable {α : Type}

theorem item_fits (a : RecordArray α) {i : Nat} (h : i < a.length) :
    i * a.record.size + a.record.size ≤ a.window.size := by
  have := a.fits
  have : (i + 1) * a.record.size ≤ a.length * a.record.size := Nat.mul_le_mul_right _ h
  rw [Nat.add_mul, Nat.one_mul] at this
  omega

/-- The item at a place below the length. -/
def get (a : RecordArray α) (i : Nat) (h : i < a.length) : α :=
  a.record.decodeAt a.window (i * a.record.size) (a.item_fits h)

/-- The item at a place, if there is one. -/
def get? (a : RecordArray α) (i : Nat) : Option α :=
  if h : i < a.length then some (a.get i h) else none

/-- The item at a place, or the error of a place past the end. -/
def readItem (a : RecordArray α) (i : Nat) : Except ParseError α :=
  if h : i < a.length then .ok (a.get i h) else .error .badIndex

/-- All items in order. -/
def toArray (a : RecordArray α) : Array α := Array.ofFn fun i : Fin a.length => a.get i i.isLt

/-- Whether the array has no items. -/
def isEmpty (a : RecordArray α) : Bool := a.length == 0

/-- Whether a place is below the length. -/
def hasIndex (a : RecordArray α) (i : Nat) : Bool := i < a.length

/-- Bisect the array, decoding only the items that are looked at. -/
def search (a : RecordArray α) (compare : α → Ordering) : Search :=
  bisect a.length fun i => (a.get? i).map compare

end RecordArray

/-- A list of numbers in brackets, separated by a comma and a space. -/
def RecordArray.listText (a : RecordArray UInt16) : String :=
  "[" ++ ", ".intercalate (a.toArray.toList.map fun n => toString n.toNat) ++ "]"

end OpenTypeLayout
