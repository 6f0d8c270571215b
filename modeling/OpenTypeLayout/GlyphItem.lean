import OpenTypeLayout.GlyphProperty

/-!
# Glyphs of a text

A glyph in a text carries more than its number: which lookups may change it, which part of the
text it stands for, and how it belongs to a ligature. Once a lookup has asked for the property of
a glyph, the property stays with the glyph until the glyph is replaced.
-/

namespace OpenTypeLayout

/-- A glyph of a text and what travels with it. -/
structure GlyphItem where
  /-- The glyph. -/
  glyph : GlyphId
  /-- The bits of the features that are active here. -/
  activation : UInt32
  /-- The part of the text that the glyph stands for. -/
  cluster : UInt32
  /-- The ligature component that the glyph belongs to. -/
  component : UInt16 := 0
  /-- The ligature that the glyph is, or belongs to. Zero stands for none. -/
  ligature : UInt16 := 0
  /-- The property that a lookup has found for the glyph. -/
  known : Option GlyphProperty := none
deriving DecidableEq, Repr, Inhabited

/-- Whether any of the given activation bits is set for the glyph. -/
def GlyphItem.isActive (item : GlyphItem) (bits : UInt32) : Bool := item.activation &&& bits != 0

end OpenTypeLayout
