import OpenTypeLayout.Bytes.Cursor
import OpenTypeLayout.Bytes.Writer

/-!
# Device tables

A device table adjusts a value by a number of pixels that depends on the size in pixels per em.
There is one small signed number, a delta, for each size of a range of sizes. Deltas take 2, 4 or
8 bits and are packed into words, the first delta in the most significant bits.

- `Device.ofDeltas` packs deltas, `Device.delta` looks one up.
- `Device.decoder` reads a table and `Device.write` writes it.
-/

namespace OpenTypeLayout

/-! ## §1 Packing -/

/-- How many bits a delta takes. -/
inductive DeltaFormat where
  /-- Eight deltas of two bits in a word. -/
  | bits2
  /-- Four deltas of four bits in a word. -/
  | bits4
  /-- Two deltas of eight bits in a word. -/
  | bits8
deriving DecidableEq, Repr, Inhabited

namespace DeltaFormat

/-- The number by which the format is stored. -/
def code : DeltaFormat → UInt16
  | .bits2 => 1
  | .bits4 => 2
  | .bits8 => 3

/-- The format with a stored number. -/
def ofCode? (n : UInt16) : Option DeltaFormat :=
  if n = 1 then some .bits2 else if n = 2 then some .bits4 else if n = 3 then some .bits8 else none

/-- The number of values that a delta can have. -/
def base : DeltaFormat → Nat
  | .bits2 => 4
  | .bits4 => 16
  | .bits8 => 256

/-- The number of deltas in a word. -/
def perWord : DeltaFormat → Nat
  | .bits2 => 8
  | .bits4 => 4
  | .bits8 => 2

/-- Half of the values of a delta are negative. -/
def contains (f : DeltaFormat) (delta : Int) : Bool :=
  -(f.base : Int) ≤ 2 * delta && 2 * delta < f.base

/-- The number of words that hold `n` deltas. -/
def wordCount (f : DeltaFormat) (n : Nat) : Nat := (n + f.perWord - 1) / f.perWord

/-- The delta at a place of a word, counted from the most significant end. -/
def unpack (f : DeltaFormat) (word : UInt16) (place : Nat) : Int :=
  -- the field is in two's complement: its upper half stands for the negative deltas
  let field := digit f.base word.toNat (f.perWord - 1 - place)
  if 2 * field < f.base then field else (field : Int) - f.base

/-- The word with the given deltas in its places. -/
def pack (f : DeltaFormat) (deltas : Nat → Int) : UInt16 :=
  UInt16.ofNat (ofDigits f.base ((List.range f.perWord).map fun place =>
    (deltas place % f.base).toNat))

end DeltaFormat

/-! ## §2 Tables -/

/-- Deltas for the sizes from `startSize` to `endSize`, packed into words. -/
structure Device where
  /-- The first size that has a delta. -/
  startSize : UInt16
  /-- The last size that has a delta. -/
  endSize : UInt16
  /-- How deltas are packed. -/
  format : DeltaFormat
  /-- The packed deltas. -/
  words : Array UInt16
deriving DecidableEq, Repr, Inhabited

namespace Device

/-- The number of sizes in a range. -/
def sizeCount (startSize endSize : UInt16) : Nat := endSize.toNat - startSize.toNat + 1

/-- Read a device table. The format is checked before the order of the sizes. -/
def decoder : Decoder (Except ParseError) Device := do
  let startSize ← Decoder.u16
  let endSize ← Decoder.u16
  match DeltaFormat.ofCode? (← Decoder.u16) with
  | none => throw ParseError.badFormat
  | some format =>
    demand (startSize ≤ endSize) ParseError.badValue
    let words ← Decoder.u16s (format.wordCount (sizeCount startSize endSize))
    return { startSize, endSize, format, words }

/-- Read the device table at the beginning of a window. -/
def ofWindow (w : Window) : Except ParseError Device := w.decode decoder

/-- Write a device table behind what is written. -/
def write (d : Device) (w : Writer) : Writer :=
  ((w.putU16 d.startSize).putU16 d.endSize).putU16 d.format.code |>.putU16s d.words

/-- The bytes of a device table. -/
def toBytes (d : Device) : ByteArray := (d.write Writer.empty).bytes

/-- The table with the given deltas for consecutive sizes. There has to be at least one delta,
    every delta has to fit the format, and the last size has to fit sixteen bits. -/
def ofDeltas (startSize formatCode : UInt16) (deltas : Array Int) : Except WriteError Device :=
  match DeltaFormat.ofCode? formatCode with
  | none => .error .badValue
  | some format =>
    -- the first delta is for `startSize`, so the last one is for this size
    if deltas.isEmpty || startSize.toNat + (deltas.size - 1) > 0xFFFF
        || !deltas.all format.contains then
      .error .badValue
    else
      .ok {
        startSize
        endSize := UInt16.ofNat (startSize.toNat + (deltas.size - 1))
        format
        words := Array.ofFn fun i : Fin (format.wordCount deltas.size) =>
          format.pack fun place => deltas[i.val * format.perWord + place]?.getD 0 }

/-- The delta at a size, which is zero outside of the range of sizes. -/
def delta (d : Device) (size : UInt16) : Int :=
  if d.startSize ≤ size && size ≤ d.endSize then
    let place := size.toNat - d.startSize.toNat
    match d.words[place / d.format.perWord]? with
    | some word => d.format.unpack word (place % d.format.perWord)
    -- does not happen: a table has a word for every size of its range
    | none => 0
  else 0

end Device

/-! ## §3 Optional tables -/

/-- The format number of a variation index table, which may stand where a device table could. -/
def variationIndexFormat : UInt16 := 0x8000

/-- Follow a stored offset to a device table. A variation index table in its place counts as
    absent. -/
def Window.optionalDevice (w : Window) (n : UInt16) : Except ParseError (Option Device) := do
  match ← w.offsetNullable n with
  | none => return none
  | some target =>
    -- the format is the third word of either table
    let format ← (target.offset 4).decode Decoder.u16
    if format = variationIndexFormat then return none else return some (← Device.ofWindow target)

end OpenTypeLayout
