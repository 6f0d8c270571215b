import OpenTypeLayout.Bytes.Cursor
import OpenTypeLayout.GlyphProperty

/-!
# Class definitions

A class definition sorts glyphs into numbered classes. It is stored as the classes of a block of
consecutive glyphs, or as ranges of glyphs with one class each. A glyph that the table does not
mention counts as class 0.
-/

namespace OpenTypeLayout

/-- Consecutive glyphs of one class. -/
structure ClassRange where
  /-- The first glyph. -/
  first : GlyphId
  /-- The last glyph. -/
  last : GlyphId
  /-- The class of all of them. -/
  value : UInt16
deriving DecidableEq, Repr, Inhabited

/-- Three words. -/
def ClassRange.record : FixedRecord ClassRange :=
  (FixedRecord.triple .u16 .u16 .u16).map fun (first, last, value) => { first, last, value }

/-- Which glyphs are mentioned, and in which class. -/
inductive ClassDef where
  /-- The classes of the glyphs from `first` on. -/
  | block (first : GlyphId) (values : Array UInt16)
  /-- Ranges of glyphs. -/
  | ranges (list : Array ClassRange)
deriving DecidableEq, Repr, Inhabited

namespace ClassDef

/-- The definition that mentions no glyph. -/
def empty : ClassDef := .ranges #[]

/-- Read a class definition. A block must not run past the last glyph number, and ranges must be
    in order and apart from each other. -/
def decoder : Decoder (Except ParseError) ClassDef := do
  match ← Decoder.u16 with
  | 1 =>
    let first ← Decoder.u16
    let count ← Decoder.count
    -- the last glyph of the block has to be a glyph number; this is checked before the data
    demand (first.toNat + count ≤ 0x10000) ParseError.badValue
    return .block first (← Decoder.u16s count)
  | 2 =>
    let ranges ← Decoder.array ClassRange.record (← Decoder.count)
    demand (ranges.all fun r => r.first ≤ r.last) ParseError.badValue
    demand (adjacentAll (fun a b => a.last < b.first) ranges.toList) ParseError.badValue
    return .ranges ranges
  | _ => throw ParseError.badFormat

/-- Read the class definition at the beginning of a window. -/
def ofWindow (w : Window) : Except ParseError ClassDef := w.decode decoder

/-- The class of a glyph, if the table mentions the glyph. -/
def classOf (d : ClassDef) (glyph : GlyphId) : Option UInt16 :=
  match d with
  | .block first values =>
    if first ≤ glyph then values[glyph.toNat - first.toNat]? else none
  | .ranges list => (locate list (fun r => compareInterval r.first r.last glyph)).map
      fun (_, r) => r.value

/-- The class of a glyph, where glyphs that are not mentioned are in class 0. -/
def value (d : ClassDef) (glyph : GlyphId) : UInt16 := (d.classOf glyph).getD 0

/-- The classes that entries of the table name. -/
def named : ClassDef → List UInt16
  | .block _ values => values.toList
  | .ranges list => list.toList.map ClassRange.value

/-- Whether some glyph is put into a class. -/
def defines (d : ClassDef) (c : UInt16) : Bool := d.named.contains c

/-- Whether all classes named are below a limit. -/
def isBelow (d : ClassDef) (limit : UInt16) : Bool := d.named.all fun c => c < limit

/-- Accept a definition only if all classes that it names are below a limit. -/
def checkLimit (d : ClassDef) (limit : UInt16) : Except ParseError Unit :=
  if d.isBelow limit then .ok () else .error .badValue

end ClassDef

end OpenTypeLayout
