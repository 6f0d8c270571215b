import OpenTypeLayout.Device

/-!
# Value records

A value record adjusts the placement and the advance of a glyph. Its format says which of twelve
words are stored: for each of the four amounts one in design units, one that leads to a device
table, and one that names a metric by its number.

- `ValueFormat.size` is the number of bytes that a record of a format takes.
- `ValueRecord.decoder` reads a record. All words come before any device table is looked at.
-/

namespace OpenTypeLayout

/-! ## §1 Formats -/

/-- Which words a value record has. The twelve lowest bits stand for the words in order. -/
structure ValueFormat where
  /-- The bits. -/
  bits : UInt16
deriving DecidableEq, Repr, Inhabited

namespace ValueFormat

/-- Whether the word with a number is stored. -/
def has (f : ValueFormat) (word : Nat) : Bool := f.bits.toNat.testBit word

/-- The number of words that are stored. -/
def wordCount (f : ValueFormat) : Nat := (List.range 12).countP f.has

/-- The number of bytes of a record. -/
def size (f : ValueFormat) : Nat := 2 * f.wordCount

/-- Whether no word is stored. -/
def isEmpty (f : ValueFormat) : Bool := f.bits == 0

/-- A word as a format. Only the twelve lowest bits may be set. -/
def ofBits (bits : UInt16) : Except ParseError ValueFormat :=
  if bits &&& 0xF000 = 0 then .ok ⟨bits⟩ else .error .badValue

/-- Read a format. -/
def decoder {m : Type → Type} [Monad m] [MonadExceptOf ParseError m] : Decoder m ValueFormat := do
  MonadExcept.ofExcept (ofBits (← Decoder.u16))

end ValueFormat

/-! ## §2 Records -/

/-- One of the four amounts of a value record. -/
structure ValueAmount where
  /-- The amount in design units. -/
  design : Option Int16 := none
  /-- The adjustment for the size. -/
  device : Option Device := none
  /-- The number of a metric. -/
  metric : Option UInt16 := none
deriving DecidableEq, Repr, Inhabited

/-- An adjustment of a glyph. -/
structure ValueRecord where
  /-- The horizontal placement. -/
  xPlacement : ValueAmount := {}
  /-- The vertical placement. -/
  yPlacement : ValueAmount := {}
  /-- The horizontal advance. -/
  xAdvance : ValueAmount := {}
  /-- The vertical advance. -/
  yAdvance : ValueAmount := {}
deriving DecidableEq, Repr, Inhabited

namespace ValueRecord

/-- Read a word if it is stored. -/
def word {α : Type} (f : ValueFormat) (number : Nat) (record : FixedRecord α) :
    Decoder (Except ParseError) (Option α) :=
  if f.has number then some <$> Decoder.read record else pure none

/-- Follow a device offset, if it is stored. -/
def device (w : Window) (n : Option UInt16) : Except ParseError (Option Device) :=
  match n with
  | some n => w.optionalDevice n
  | none => .ok none

/-- Read a value record. Device offsets are relative to `base`. -/
def decoder (f : ValueFormat) (base : Window) : Decoder (Except ParseError) ValueRecord := do
  -- the numbers in this order are the order of the words in the record
  let xPlacement ← word f 0 .i16
  let yPlacement ← word f 1 .i16
  let xAdvance ← word f 2 .i16
  let yAdvance ← word f 3 .i16
  let xPlacementDevice ← word f 4 .u16
  let yPlacementDevice ← word f 5 .u16
  let xAdvanceDevice ← word f 6 .u16
  let yAdvanceDevice ← word f 7 .u16
  let xPlacementMetric ← word f 8 .u16
  let yPlacementMetric ← word f 9 .u16
  let xAdvanceMetric ← word f 10 .u16
  let yAdvanceMetric ← word f 11 .u16
  return {
    xPlacement := ⟨xPlacement, ← device base xPlacementDevice, xPlacementMetric⟩
    yPlacement := ⟨yPlacement, ← device base yPlacementDevice, yPlacementMetric⟩
    xAdvance := ⟨xAdvance, ← device base xAdvanceDevice, xAdvanceMetric⟩
    yAdvance := ⟨yAdvance, ← device base yAdvanceDevice, yAdvanceMetric⟩ }

end ValueRecord

end OpenTypeLayout
