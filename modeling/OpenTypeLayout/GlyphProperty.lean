/-!
# Glyph classes and lookup flags

- A `GlyphProperty` is what a lookup tests a glyph with: one bit for the class of the glyph, or
  its mark attachment class in the high byte.
- A `LookupFlag` says which glyphs a lookup skips: bases, ligatures and marks, and marks of
  another mark attachment class than its own.
-/

namespace OpenTypeLayout

/-- The number of a glyph in a font. -/
abbrev GlyphId := UInt16

/-! ## §1 Properties -/

/-- Sixteen bits: in the low byte the class of the glyph, in the high byte its mark attachment
    class. -/
structure GlyphProperty where
  /-- The bits. -/
  bits : UInt16
deriving DecidableEq, Repr, Inhabited

namespace GlyphProperty

/-- No class at all. -/
def none : GlyphProperty := ⟨0⟩

/-- A single character that marks attach to. -/
def base : GlyphProperty := ⟨0x0002⟩

/-- A ligature of several characters. -/
def ligature : GlyphProperty := ⟨0x0004⟩

/-- A mark that attaches to another glyph. -/
def mark : GlyphProperty := ⟨0x0008⟩

/-- A part of a character. -/
def component : GlyphProperty := ⟨0x0010⟩

/-- Classes are numbered in a glyph class definition: 1 is a base, 2 a ligature, 3 a mark and 4 a
    component. Any other number stands for no class. -/
def ofClass (c : UInt16) : GlyphProperty :=
  if c = 1 then base else if c = 2 then ligature else if c = 3 then mark
  else if c = 4 then component else none

/-- The property of a mark with a mark attachment class. -/
def ofMarkAttachment (c : UInt16) : GlyphProperty := ⟨c <<< 8⟩

/-- The mark attachment class, still in the high byte. -/
def markAttachment (p : GlyphProperty) : UInt16 := p.bits &&& 0xFF00

/-- The property without the mark attachment class. A glyph that has one is a mark. -/
def basic (p : GlyphProperty) : GlyphProperty := if p.markAttachment = 0 then p else mark

/-- Whether the glyph is a mark, with or without a mark attachment class. -/
def isMark (p : GlyphProperty) : Bool := p.basic == mark

/-- The number of the class that the property stands for, if it is one class or none. -/
def classNumber? (p : GlyphProperty) : Option UInt16 :=
  if p = none then some 0 else if p = base then some 1 else if p = ligature then some 2
  else if p = mark then some 3 else if p = component then some 4 else Option.none

end GlyphProperty

/-! ## §2 Lookup flags -/

/-- The flag word of a lookup. -/
structure LookupFlag where
  /-- The bits. -/
  bits : UInt16
deriving DecidableEq, Repr, Inhabited

namespace LookupFlag

/-- The flag of a lookup that skips nothing. -/
def empty : LookupFlag := ⟨0⟩

/-- Whether the text of the lookup runs from right to left. -/
def rightToLeft (f : LookupFlag) : Bool := f.bits &&& 0x0001 != 0

/-- Whether base glyphs are skipped. -/
def ignoresBases (f : LookupFlag) : Bool := f.bits &&& 0x0002 != 0

/-- Whether ligatures are skipped. -/
def ignoresLigatures (f : LookupFlag) : Bool := f.bits &&& 0x0004 != 0

/-- Whether marks are skipped. -/
def ignoresMarks (f : LookupFlag) : Bool := f.bits &&& 0x0008 != 0

/-- The classes that are skipped. The bits of a flag are those of a property. -/
def ignoredClasses (f : LookupFlag) : GlyphProperty := ⟨f.bits &&& 0x000E⟩

/-- The mark attachment class of the marks that are not skipped, in the high byte like that of a
    property. Zero does not single out any class. -/
def markAttachmentType (f : LookupFlag) : UInt16 := f.bits &&& 0xFF00

/-- Whether a lookup with this flag processes a glyph with the given property. -/
def admits (f : LookupFlag) (p : GlyphProperty) : Bool :=
  -- first the class as such, then, among marks, the attachment class
  f.ignoredClasses.bits &&& p.basic.bits == 0 &&
    !(f.markAttachmentType != 0 && p.isMark && p.bits != f.markAttachmentType)

end LookupFlag

end OpenTypeLayout
