import OpenTypeLayout.Bytes.Window

/-!
# Records of fixed size

A kind of record says how many bytes it takes and what those bytes mean. Numbers are big-endian.
Kinds are put together with `pair` and given another meaning with `map`; the size of a pair is
the sum of the sizes of its parts, which is what makes arrays of records addressable.
-/

namespace OpenTypeLayout

/-- A kind of record: its number of bytes, and the value that so many bytes stand for. The value
    depends on these bytes and on nothing else. -/
structure FixedRecord (α : Type) where
  /-- The number of bytes that one record takes. -/
  size : Nat
  /-- The value of the record with the given bytes. -/
  decode : (Fin size → UInt8) → α

namespace FixedRecord

variable {α β : Type}

/-! ## §1 Numbers -/

/-- The number with the given bytes, the most significant one first. -/
def bigEndian (bytes : List UInt8) : Nat := ofDigits 256 (bytes.map UInt8.toNat)

/-- An unsigned byte. -/
def u8 : FixedRecord UInt8 := ⟨1, fun b => b 0⟩

/-- A byte in two's complement. -/
def i8 : FixedRecord Int8 := ⟨1, fun b => (b 0).toInt8⟩

/-- An unsigned number of two bytes. -/
def u16 : FixedRecord UInt16 := ⟨2, fun b => UInt16.ofNat (bigEndian [b 0, b 1])⟩

/-- A two's complement number of two bytes. -/
def i16 : FixedRecord Int16 := ⟨2, fun b => (UInt16.ofNat (bigEndian [b 0, b 1])).toInt16⟩

/-- An unsigned number of four bytes. -/
def u32 : FixedRecord UInt32 := ⟨4, fun b => UInt32.ofNat (bigEndian [b 0, b 1, b 2, b 3])⟩

/-- A two's complement number of four bytes. -/
def i32 : FixedRecord Int32 :=
  ⟨4, fun b => (UInt32.ofNat (bigEndian [b 0, b 1, b 2, b 3])).toInt32⟩

/-! ## §2 Records out of records -/

/-- One record and then another. -/
def pair (first : FixedRecord α) (second : FixedRecord β) : FixedRecord (α × β) where
  size := first.size + second.size
  decode b := (first.decode fun i => b (i.castAdd second.size),
    second.decode fun i => b (i.natAdd first.size))

/-- Three records in a row. -/
def triple {γ : Type} (first : FixedRecord α) (second : FixedRecord β) (third : FixedRecord γ) :
    FixedRecord (α × β × γ) :=
  first.pair (second.pair third)

/-- The same bytes with another meaning. -/
def map (f : α → β) (record : FixedRecord α) : FixedRecord β where
  size := record.size
  decode b := f (record.decode b)

/-- A tag is stored as a number of four bytes. -/
def tag : FixedRecord Tag := u32.map Tag.mk

/-! ## §3 Records in a window -/

/-- The record that begins at a place of a window, given that all of it is inside. -/
def decodeAt (record : FixedRecord α) (w : Window) (place : Nat)
    (h : place + record.size ≤ w.size) : α :=
  record.decode fun i => w.get (place + i) (Nat.lt_of_lt_of_le (Nat.add_lt_add_left i.isLt _) h)

end FixedRecord

end OpenTypeLayout
