import OpenTypeLayout.ClassDef

/-!
# Glyph classes made up while shaping

A font without glyph classes can be given some from outside, as a list of glyphs with a class
each. A glyph of the font that is not in the list gets the first class that a substitution
records for it, and keeps it.

The list is kept as ranges of glyphs. The glyphs that no range has lie in gaps: before the first
range, between two of them, and after the last. The recorded classes are packed, four to a word,
and every gap has words of its own.
-/

namespace OpenTypeLayout

/-! ## §1 Ranges of listed glyphs -/

/-- Put a glyph with its class in front of ranges. It joins the first range if it precedes that
    range directly and has its class. -/
def ClassRange.consGlyph (glyph : GlyphId) (value : UInt16) (ranges : List ClassRange) :
    List ClassRange :=
  match ranges with
  | [] => [⟨glyph, glyph, value⟩]
  | r :: rest =>
    if glyph.toNat + 1 = r.first.toNat ∧ value = r.value then { r with first := glyph } :: rest
    else ⟨glyph, glyph, value⟩ :: r :: rest

/-- The ranges of consecutive glyphs of one class in a list of glyphs with their classes. -/
def ClassRange.ofGlyphs (listed : Array (GlyphId × UInt16)) : List ClassRange :=
  listed.foldr (fun (glyph, value) ranges => consGlyph glyph value ranges) []

/-! ## §2 Packed classes -/

/-- Classes below sixteen, four to a word. The first class of a word is in its highest bits. -/
structure PackedClasses where
  /-- The words. -/
  words : Array UInt16
deriving DecidableEq, Repr, Inhabited

namespace PackedClasses

/-- Words for `count` classes, all of them zero. -/
def zeros (count : Nat) : PackedClasses := ⟨Array.replicate ((count + 3) / 4) 0⟩

/-- The lowest bit, in its word, of the class at a place. -/
def lane (place : Nat) : Nat := 12 - place % 4 * 4

/-- By how many bits the class at a place is shifted. -/
def shift (place : Nat) : UInt16 := UInt16.ofNat (lane place)

/-- Put a class into the word of its place. The other three classes of the word stay. -/
def put (word : UInt16) (place : Nat) (value : UInt16) : UInt16 :=
  -- the class that was there is cleared first
  (word &&& ~~~(0xF <<< shift place)) ||| ((value &&& 0xF) <<< shift place)

/-- The class at a place, zero past the last word. -/
def get (c : PackedClasses) (place : Nat) : UInt16 :=
  match c.words[place / 4]? with
  | some word => (word >>> shift place) &&& 0xF
  | none => 0

/-- Put a class at a place. -/
def set (c : PackedClasses) (place : Nat) (value : UInt16) : PackedClasses :=
  ⟨c.words.modify (place / 4) fun word => put word place value⟩

/-- Put a class at a place, unless one other than zero is there already. -/
def record (c : PackedClasses) (place : Nat) (value : UInt16) : PackedClasses :=
  if c.get place = 0 then c.set place value else c

end PackedClasses

/-! ## §3 Gaps between ranges -/

/-- A place in one of the gaps. -/
structure GapPlace where
  /-- Which gap, counted from the one before the first range. -/
  gap : Nat
  /-- The place in the gap. -/
  place : Nat
deriving DecidableEq, Repr, Inhabited

/-- How many glyphs each gap has, where `start` is the first glyph that has not been counted. -/
def gapSizes (glyphCount : Nat) : (start : Nat) → List ClassRange → List Nat
  | start, [] => [glyphCount - start]
  | start, r :: rest => (r.first.toNat - start) :: gapSizes glyphCount (r.last.toNat + 1) rest

/-- Where a glyph lies, unless one of the ranges has it. The gap with number `gap` begins at
    `start` and ends before the first of the ranges. -/
def gapPlace (glyph : Nat) : (gap start : Nat) → List ClassRange → Option GapPlace
  | gap, start, [] => some ⟨gap, glyph - start⟩
  | gap, start, r :: rest =>
    if r.last.toNat < glyph then gapPlace glyph (gap + 1) (r.last.toNat + 1) rest
    else if r.first.toNat ≤ glyph then none
    else some ⟨gap, glyph - start⟩

/-! ## §4 Recorded classes -/

/-- For every glyph of a font that is in none of the ranges, the class recorded for it, zero where
    none has been. -/
structure SynthesizedClasses where
  /-- The number of glyphs of the font. -/
  glyphCount : Nat
  /-- The ranges, in order. -/
  ranges : List ClassRange
  /-- The recorded classes of each gap. -/
  gaps : Array PackedClasses
deriving DecidableEq, Repr, Inhabited

namespace SynthesizedClasses

/-- Nothing recorded for any glyph of a font. -/
def ofRanges (glyphCount : Nat) (ranges : List ClassRange) : SynthesizedClasses where
  glyphCount := glyphCount
  ranges := ranges
  gaps := ((gapSizes glyphCount 0 ranges).map PackedClasses.zeros).toArray

/-- Where the class of a glyph is kept, if the font has the glyph and none of the ranges does. -/
def place? (s : SynthesizedClasses) (glyph : GlyphId) : Option GapPlace :=
  if glyph.toNat < s.glyphCount then gapPlace glyph.toNat 0 0 s.ranges else none

/-- The class at a place in a gap. -/
def classAt (s : SynthesizedClasses) (p : GapPlace) : UInt16 :=
  (s.gaps[p.gap]?.map fun classes => classes.get p.place).getD 0

/-- The class recorded for a glyph. -/
def get (s : SynthesizedClasses) (glyph : GlyphId) : UInt16 :=
  match s.place? glyph with
  | some p => s.classAt p
  | none => 0

/-- Whether a class can be recorded for a glyph. -/
def takes (s : SynthesizedClasses) (glyph : GlyphId) : Bool :=
  (s.place? glyph).any fun p => p.gap < s.gaps.size

/-- Record a class for a glyph, unless one other than zero is recorded already. -/
def record (s : SynthesizedClasses) (glyph : GlyphId) (value : UInt16) : SynthesizedClasses :=
  match s.place? glyph with
  | some p => { s with gaps := s.gaps.modify p.gap fun c => c.record p.place value }
  | none => s

end SynthesizedClasses

end OpenTypeLayout
