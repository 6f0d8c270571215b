import OpenTypeLayout.Bytes.Cursor
import OpenTypeLayout.GlyphProperty

/-!
# Coverage tables

A coverage table says which glyphs a subtable applies to and numbers them, so that the subtable
can keep one entry for each. It is stored as a list of glyphs or as a list of ranges of glyphs.
-/

namespace OpenTypeLayout

/-- Glyphs with consecutive coverage indices. -/
structure CoverageRange where
  /-- The first glyph. -/
  first : GlyphId
  /-- The last glyph. -/
  last : GlyphId
  /-- The coverage index of the first glyph. -/
  startIndex : UInt16
deriving DecidableEq, Repr, Inhabited

namespace CoverageRange

/-- Three words. -/
def record : FixedRecord CoverageRange :=
  (FixedRecord.triple .u16 .u16 .u16).map fun (first, last, startIndex) =>
    { first, last, startIndex }

/-- Whether the range is not empty and its coverage indices stay within sixteen bits. -/
def isValid (r : CoverageRange) : Bool :=
  r.first ≤ r.last && r.startIndex.toNat + (r.last.toNat - r.first.toNat) ≤ 0xFFFF

/-- The number of glyphs in the range. -/
def count (r : CoverageRange) : Nat := r.last.toNat + 1 - r.first.toNat

end CoverageRange

/-- Which glyphs are covered, and with which coverage index. -/
inductive Coverage where
  /-- The glyphs themselves; the index of a glyph is its place in the list. -/
  | glyphs (list : Array GlyphId)
  /-- Ranges of glyphs with the index of the first glyph of each. -/
  | ranges (list : Array CoverageRange)
deriving DecidableEq, Repr, Inhabited

namespace Coverage

/-- Read a coverage table. Glyphs must not descend, and ranges must be in order, apart from each
    other and each of them valid. -/
def decoder : Decoder (Except ParseError) Coverage := do
  match ← Decoder.u16 with
  | 1 =>
    let glyphs ← Decoder.u16s (← Decoder.count)
    -- the search needs the order; a glyph listed twice has the index of its last place
    demand (adjacentAll (fun a b => a ≤ b) glyphs.toList) ParseError.badValue
    return .glyphs glyphs
  | 2 =>
    let ranges ← Decoder.array CoverageRange.record (← Decoder.count)
    -- validity comes first: the order of ranges means nothing if one of them is turned around
    demand (ranges.all CoverageRange.isValid) ParseError.badValue
    demand (adjacentAll (fun a b => a.last < b.first) ranges.toList) ParseError.badValue
    return .ranges ranges
  | _ => throw ParseError.badFormat

/-- Read the coverage table at the beginning of a window. -/
def ofWindow (w : Window) : Except ParseError Coverage := w.decode decoder

/-- The coverage index of a glyph, if the glyph is covered. -/
def index? (c : Coverage) (glyph : GlyphId) : Option UInt16 :=
  match c with
  | .glyphs list => (locate list (fun g => compareInterval g g glyph)).map fun (i, _) =>
      UInt16.ofNat i
  | .ranges list => (locate list (fun r => compareInterval r.first r.last glyph)).map
      fun (_, r) => r.startIndex + (glyph - r.first)

/-- Whether a glyph is covered. -/
def covers (c : Coverage) (glyph : GlyphId) : Bool := (c.index? glyph).isSome

/-- The number of glyphs that the table lists. -/
def count : Coverage → Nat
  | .glyphs list => list.size
  | .ranges list => list.foldl (fun n r => n + r.count) 0

end Coverage

end OpenTypeLayout
