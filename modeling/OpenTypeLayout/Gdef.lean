import OpenTypeLayout.Coverage
import OpenTypeLayout.Device
import OpenTypeLayout.GlyphItem
import OpenTypeLayout.Sfnt
import OpenTypeLayout.SynthesizedClasses

/-!
# Glyph definitions

The glyph definition table says of each glyph whether it is a base, a ligature, a mark or a
component, and of marks to which attachment class they belong. Lookups use this to skip glyphs.
The table also lists attachment points and the caret positions inside ligatures.

- `Gdef.property` is what a lookup tests a glyph with.
- `Gdef.build` gives classes to a font that has none, and `Gdef.record` adds to them.
- `Gdef.check` decides whether a lookup processes a glyph of a text, and `Gdef.remember` keeps
  with that glyph the property that was found.
-/

namespace OpenTypeLayout

/-! ## §1 Attachment points and carets -/

/-- Where the caret goes between two components of a ligature. -/
inductive CaretValue where
  /-- A coordinate in design units. -/
  | coordinate (x : Int16)
  /-- The place of a point of the outline. -/
  | contourPoint (index : UInt16)
  /-- A coordinate with an adjustment for the size. -/
  | adjusted (x : Int16) (device : Option Device)
  /-- A metric that the font names by a number. -/
  | metric (id : UInt16)
deriving DecidableEq, Repr, Inhabited

/-- Read the caret value at the beginning of a window. -/
def CaretValue.ofWindow (w : Window) : Except ParseError CaretValue := w.decode do
  match ← Decoder.u16 with
  | 1 => return .coordinate (← Decoder.i16)
  | 2 => return .contourPoint (← Decoder.u16)
  | 3 =>
    let x ← Decoder.i16
    return .adjusted x (← w.optionalDevice (← Decoder.u16))
  | 4 => return .metric (← Decoder.u16)
  | _ => throw ParseError.badFormat

/-- One list of values for each covered glyph. -/
structure GlyphLists (α : Type) where
  /-- The glyphs that have a list. -/
  coverage : Coverage
  /-- The lists by coverage index. -/
  lists : Array (Array α)

/-- The list of a glyph, if it has one. -/
def GlyphLists.find? {α : Type} (g : GlyphLists α) (glyph : GlyphId) : Option (Array α) := do
  g.lists[(← g.coverage.index? glyph).toNat]?

/-- Read lists for covered glyphs. The coverage comes first, then the offset of each list. -/
def GlyphLists.ofWindow {α : Type} (decodeList : Window → Except ParseError (Array α))
    (w : Window) : Except ParseError (GlyphLists α) := w.decode do
  let coverage ← Coverage.ofWindow (w.offset (← Decoder.count))
  let offsets ← Decoder.u16s (← Decoder.count)
  return { coverage, lists := ← w.decodeEach offsets decodeList }

/-- Read the attachment points of one glyph. -/
def attachPointList (w : Window) : Except ParseError (Array UInt16) := w.decode do
  Decoder.u16s (← Decoder.count)

/-- Read the caret values of one ligature. -/
def caretList (w : Window) : Except ParseError (Array CaretValue) := w.decode do
  w.decodeEach (← Decoder.u16s (← Decoder.count)) CaretValue.ofWindow

/-! ## §2 The table -/

/-- The mark attachment classes of a table. They are decoded only when a lookup needs them. -/
inductive MarkAttachment where
  /-- The table has none. -/
  | absent
  /-- They are at an offset in the table and have not been needed yet. -/
  | deferred (table : Window) (offset : UInt16)
  /-- They have been decoded. -/
  | loaded (classes : ClassDef)

/-- A glyph definition table. -/
structure Gdef where
  /-- The classes of glyphs. -/
  classes : Option ClassDef := none
  /-- Attachment points of glyphs. -/
  attachPoints : Option (GlyphLists UInt16) := none
  /-- Carets inside ligatures. -/
  carets : Option (GlyphLists CaretValue) := none
  /-- Attachment classes of marks. -/
  markAttachment : MarkAttachment := .absent
  /-- Classes recorded for glyphs that built classes do not mention. -/
  synthesized : Option SynthesizedClasses := none
  /-- Whether a property, once found for a glyph of a text, is kept with that glyph. -/
  keepsProperties : Bool := true

namespace Gdef

/-- The table of a font that has none. -/
def empty : Gdef := {}

/-- Read a glyph definition table. Glyph classes have to be below 5. -/
def ofWindow (w : Window) : Except ParseError Gdef := w.decode do
  demand ((← Decoder.u16) = 1) ParseError.badVersion
  let _minorVersion ← Decoder.u16
  -- all four offsets are read before any of them is followed
  let classesOffset ← Decoder.u16
  let attachOffset ← Decoder.u16
  let caretsOffset ← Decoder.u16
  let markAttachmentOffset ← Decoder.u16
  let classes ← w.decodeNullable classesOffset fun target => do
    let classes ← ClassDef.ofWindow target
    classes.checkLimit 5
    return classes
  let attachPoints ← w.decodeNullable attachOffset (GlyphLists.ofWindow attachPointList)
  let carets ← w.decodeNullable caretsOffset (GlyphLists.ofWindow caretList)
  -- not even whether the offset points into the table is looked at before it is needed
  let markAttachment :=
    if markAttachmentOffset = 0 then MarkAttachment.absent
    else .deferred w markAttachmentOffset
  return { classes, attachPoints, carets, markAttachment }

/-- The glyph definition table of a font, if the font has one. -/
def ofSfnt (font : Sfnt) : Except ParseError (Option Gdef) := do
  match ← font.tableData? .gdef with
  | some data => return some (← ofWindow (Window.ofBytes data))
  | none => return none

/-- Decode the mark attachment classes, if there are any and they have not been decoded. They have
    to be below 256. -/
def loadMarkAttachment (g : Gdef) : Except ParseError Gdef :=
  match g.markAttachment with
  | .absent => .ok g
  | .loaded _ => .ok g
  | .deferred table n => do
    match ← table.offsetNullable n with
    -- does not happen: an offset of zero is never deferred
    | none => return g
    | some target =>
      let classes ← ClassDef.ofWindow target
      classes.checkLimit 256
      return { g with markAttachment := .loaded classes }

/-- The mark attachment classes, if they have been decoded. -/
def markClasses? (g : Gdef) : Option ClassDef :=
  match g.markAttachment with
  | .loaded classes => some classes
  | _ => none

/-- The attachment points of a glyph. -/
def attachPoints? (g : Gdef) (glyph : GlyphId) : Option (Array UInt16) := do
  (← g.attachPoints).find? glyph

/-- The carets inside a ligature. -/
def carets? (g : Gdef) (glyph : GlyphId) : Option (Array CaretValue) := do
  (← g.carets).find? glyph

/-! ## §3 Properties of glyphs -/

/-- The mark attachment class of a glyph, zero if it has none. -/
def markClass (g : Gdef) (glyph : GlyphId) : UInt16 :=
  match g.markClasses? with
  | some classes => classes.value glyph
  | none => 0

/-- The class of a glyph: the one that the table gives, and otherwise the one recorded. -/
def glyphClass (g : Gdef) (glyph : GlyphId) : UInt16 :=
  match g.classes.bind fun classes => classes.classOf glyph with
  -- a glyph that the table puts into class 0 is mentioned, and takes no recorded class
  | some c => c
  | none =>
    match g.synthesized with
    | some recorded => recorded.get glyph
    | none => 0

/-- The property that lookups test a glyph with. A mark attachment class goes before all else. -/
def property (g : Gdef) (glyph : GlyphId) : GlyphProperty :=
  if g.markClass glyph ≠ 0 then .ofMarkAttachment (g.markClass glyph)
  else .ofClass (g.glyphClass glyph)

/-! ## §4 Made-up classes -/

/-- Whether glyphs with their classes can be taken as the classes of a font with `glyphCount`
    glyphs: the glyphs strictly ascend and are in the font, and the classes are below 5. -/
def listIsValid (glyphCount : UInt16) (glyphs classes : Array UInt16) : Bool :=
  glyphCount != 0 && glyphs.size == classes.size && classes.all (· ≤ 4) &&
    glyphs.all (· < glyphCount) && adjacentAll (· < ·) glyphs.toList

/-- Give classes to a font that has none. The mark attachment classes are dropped. -/
def build (g : Gdef) (glyphCount : UInt16) (glyphs classes : Array UInt16) :
    Except LayoutError Gdef :=
  if g.classes.isNone && listIsValid glyphCount glyphs classes then
    let ranges := ClassRange.ofGlyphs (glyphs.zip classes)
    .ok { g with
      classes := some (.ranges ranges.toArray)
      synthesized := some (.ofRanges glyphCount.toNat ranges)
      markAttachment := .absent }
  else .error .invalidArgument

/-- Record a class for a glyph that a substitution has produced. The property has to stand for one
    class or none. The answer is whether the glyph takes recorded classes: classes have been
    built, they do not mention the glyph, and the font has it. -/
def record (g : Gdef) (glyph : GlyphId) (p : GlyphProperty) : Except LayoutError (Bool × Gdef) :=
  match p.classNumber? with
  | none => .error .invalidArgument
  | some c =>
    if (g.classes.bind fun classes => classes.classOf glyph).isSome then .ok (false, g)
    else
      match g.synthesized with
      | none => .ok (false, g)
      | some recorded =>
        .ok (recorded.takes glyph, { g with synthesized := some (recorded.record glyph c) })

/-- Whether classes have been built, so that classes are recorded. -/
def recordsClasses (g : Gdef) : Bool := g.synthesized.isSome

/-! ## §5 Glyphs of a text -/

/-- The property of a glyph of a text: the one that is known, if properties are kept, and the one
    of the table otherwise. -/
def propertyOf (g : Gdef) (item : GlyphItem) : GlyphProperty :=
  match item.known with
  | some p => if g.keepsProperties then p else g.property item.glyph
  | none => g.property item.glyph

/-- The property of a glyph of a text if a lookup with this flag processes the glyph. Without a
    table every glyph is processed and has no class. -/
def check (table : Option Gdef) (flag : LookupFlag) (item : GlyphItem) : Option GlyphProperty :=
  match table with
  | none => some .none
  | some g => if flag.admits (g.propertyOf item) then some (g.propertyOf item) else none

/-- Whether a lookup with this flag processes a glyph of a text. -/
def admits (table : Option Gdef) (flag : LookupFlag) (item : GlyphItem) : Bool :=
  (check table flag item).isSome

theorem admits_of_check {table : Option Gdef} {flag : LookupFlag} {item : GlyphItem}
    {p : GlyphProperty} (h : check table flag item = some p) : admits table flag item = true := by
  rw [admits, h, Option.isSome_some]

/-- The property of a glyph of a text, whatever a lookup skips. -/
def propertyIn (table : Option Gdef) (item : GlyphItem) : GlyphProperty :=
  (check table .empty item).getD .none

/-- The glyph together with the property that has been found for it. -/
def remember (table : Option Gdef) (item : GlyphItem) : GlyphItem :=
  match table with
  | none => item
  | some g => if g.keepsProperties then { item with known := some (g.propertyOf item) } else item

end Gdef

end OpenTypeLayout
