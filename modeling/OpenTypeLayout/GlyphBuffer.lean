import OpenTypeLayout.Error
import OpenTypeLayout.GlyphItem

/-!
# Glyph buffers

Substitution reads a text from the front and writes a new one. At every moment some glyphs of the
input are done and their replacements are in the output; the glyph at the position is the current
one. When all of the input is done the output becomes the input of the next pass.

Glyphs that are written take the activation bits and the cluster of the current glyph. Ligatures
are told apart by numbers that the buffer hands out.
-/

namespace OpenTypeLayout

/-- Stands, as a component or a ligature number, for that of the current glyph. -/
def inherit : UInt16 := 0xFFFF

/-- A text that is being substituted. -/
structure GlyphBuffer where
  /-- The glyphs that are read. -/
  input : Array GlyphItem := #[]
  /-- The glyphs that have been written. -/
  output : Array GlyphItem := #[]
  /-- The number of input glyphs that are done. -/
  position : Nat := 0
  /-- The number of the next ligature. -/
  nextLigature : UInt16 := 1
deriving DecidableEq, Repr, Inhabited

namespace GlyphBuffer

/-! ## §1 Filling and looking -/

/-- A buffer without glyphs. -/
def empty : GlyphBuffer := {}

/-- Put a glyph at the end of the input. -/
def push (b : GlyphBuffer) (glyph : GlyphId) (activation cluster : UInt32) : GlyphBuffer :=
  { b with input := b.input.push { glyph, activation, cluster } }

/-- The number of input glyphs. -/
def size (b : GlyphBuffer) : Nat := b.input.size

/-- The current glyph, if the position is not at the end. -/
def current? (b : GlyphBuffer) : Option GlyphItem := b.input[b.position]?

/-- The current glyph, or the error that there is none. -/
def current (b : GlyphBuffer) : Except LayoutError GlyphItem :=
  match b.current? with
  | some item => .ok item
  | none => .error .invalidArgument

/-! ## §2 Writing -/

/-- The given value, or the value of the current glyph if the given one says so. -/
def inheriting (value own : UInt16) : UInt16 := if value = inherit then own else value

/-- A glyph written in the place of `item`. -/
def replacement (item : GlyphItem) (component ligature : UInt16) (glyph : GlyphId) : GlyphItem where
  glyph := glyph
  activation := item.activation
  cluster := item.cluster
  component := inheriting component item.component
  ligature := inheriting ligature item.ligature

/-- The glyph that the next `count` input glyphs are replaced at, if there are that many. There has
    to be a current glyph, even if none is taken. -/
def replaced (b : GlyphBuffer) (count : Nat) : Except LayoutError GlyphItem :=
  -- at the end of the input not even nothing can be replaced
  if b.position + count ≤ b.input.size then b.current else .error .invalidArgument

/-- Write glyphs in the place of `item`, and go past `count` input glyphs. -/
def put (b : GlyphBuffer) (item : GlyphItem) (count : Nat) (glyphs : Array GlyphId)
    (component ligature : UInt16) : GlyphBuffer :=
  { b with
    output := glyphs.foldl (fun out g => out.push (replacement item component ligature g)) b.output
    position := b.position + count }

/-- Put glyphs in the place of the next `count` input glyphs. -/
def emit (b : GlyphBuffer) (count : Nat) (glyphs : Array GlyphId) (component ligature : UInt16) :
    Except LayoutError GlyphBuffer :=
  (b.replaced count).map fun item => b.put item count glyphs component ligature

/-- Put one glyph in the place of the current one. -/
def emitOne (b : GlyphBuffer) (glyph : GlyphId) (component ligature : UInt16) :
    Except LayoutError GlyphBuffer :=
  b.emit 1 #[glyph] component ligature

/-- Write a glyph as it is, and go past one input glyph. -/
def putItem (b : GlyphBuffer) (item : GlyphItem) : GlyphBuffer :=
  { b with output := b.output.push item, position := b.position + 1 }

/-- Write the current glyph as it is. -/
def copy (b : GlyphBuffer) : Except LayoutError GlyphBuffer := b.current.map b.putItem

/-- Begin a new pass, with what has been written as the input. -/
def swap (b : GlyphBuffer) : GlyphBuffer :=
  { b with input := b.output, output := #[], position := 0 }

/-- Hand out a ligature number. The numbers go round after the last one of sixteen bits. -/
def allocateLigature (b : GlyphBuffer) : UInt16 × GlyphBuffer :=
  (b.nextLigature, { b with nextLigature := b.nextLigature + 1 })

/-- Change the glyph at a place of the input. What was known of the glyph before is forgotten. -/
def replaceInput (b : GlyphBuffer) (place : Nat) (glyph : GlyphId) : GlyphBuffer :=
  { b with input := b.input.modify place fun item => { item with glyph, known := none } }

end GlyphBuffer

end OpenTypeLayout
