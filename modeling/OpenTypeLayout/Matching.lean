import OpenTypeLayout.Gdef

/-!
# Matching glyphs in context

A contextual rule asks for certain glyphs before, at and after a place of a text. Glyphs that the
lookup skips do not count: matching filters the text and compares what is left.

- `GlyphFilter` finds the glyphs that count, `GlyphPattern` says what is asked for at each place.
- `GlyphFilter.scanBack` and `GlyphFilter.scanFront` compare a pattern with the glyphs that count
  on one side. They also report how far they have looked, because the properties of all glyphs
  looked at are kept with those glyphs.
- `ContextPattern.scan` puts three patterns together.
-/

namespace OpenTypeLayout

/-! ## §1 Filtering -/

/-- What a lookup needs to know to tell which glyphs count. -/
structure GlyphFilter where
  /-- The glyph definitions of the font. -/
  table : Option Gdef
  /-- The flag of the lookup. -/
  flag : LookupFlag

namespace GlyphFilter

/-- Whether a glyph counts. -/
def admits (f : GlyphFilter) (item : GlyphItem) : Bool := Gdef.admits f.table f.flag item

/-- The nearest glyph before a place that counts. -/
def prev? (f : GlyphFilter) (items : Array GlyphItem) : (place : Nat) → Option Nat
  | 0 => none
  | place + 1 =>
    if items[place]?.any f.admits then some place else prev? f items place

/-- The first of the next `left` glyphs from a place on that counts. -/
def firstFrom (f : GlyphFilter) (items : Array GlyphItem) : (left place : Nat) → Option Nat
  | 0, _ => none
  | left + 1, place =>
    if items[place]?.any f.admits then some place else firstFrom f items left (place + 1)

/-- The nearest glyph after a place that counts. -/
def next? (f : GlyphFilter) (items : Array GlyphItem) (place : Nat) : Option Nat :=
  f.firstFrom items (items.size - (place + 1)) (place + 1)

/-- A place and the next `n` places of glyphs that count, as far as there are any. -/
def places (f : GlyphFilter) (items : Array GlyphItem) : (n place : Nat) → List Nat
  | 0, place => [place]
  | n + 1, place =>
    match f.next? items place with
    | some next => place :: places f items n next
    | none => [place]

end GlyphFilter

/-! ## §2 Patterns -/

/-- What is asked for at consecutive glyphs that count. -/
inductive GlyphPattern where
  /-- Nothing. -/
  | empty
  /-- A certain glyph at each place. -/
  | glyphs (list : Array GlyphId)
  /-- A glyph of a certain class at each place. -/
  | classes (definition : ClassDef) (list : Array UInt16)
  /-- A covered glyph at each place. -/
  | coverages (list : Array Coverage)
deriving DecidableEq, Repr, Inhabited

namespace GlyphPattern

/-- The number of places. -/
def length : GlyphPattern → Nat
  | .empty => 0
  | .glyphs list => list.size
  | .classes _ list => list.size
  | .coverages list => list.size

/-- Whether a glyph is what is asked for at a place. -/
def accepts (p : GlyphPattern) (place : Nat) (glyph : GlyphId) : Bool :=
  match p with
  | .empty => false
  | .glyphs list => list[place]? == some glyph
  | .classes definition list => list[place]? == some (definition.value glyph)
  | .coverages list => list[place]?.any fun c => c.covers glyph

/-- Whether the glyph at an index of a text is what is asked for at a place. -/
def acceptsAt (p : GlyphPattern) (place : Nat) (items : Array GlyphItem) (index : Nat) : Bool :=
  items[index]?.any fun item => p.accepts place item.glyph

end GlyphPattern

/-! ## §3 Scanning one side -/

/-- The outcome of comparing a pattern with the glyphs on one side of a place. -/
structure Scan where
  /-- Where the last glyph of the pattern was found, if all of them were. -/
  last : Option Nat
  /-- How far the scan has looked: backwards the first index that it looked at, forwards the first
      index that it did not. -/
  bound : Nat
deriving DecidableEq, Repr, Inhabited

namespace GlyphFilter

variable (f : GlyphFilter) (p : GlyphPattern) (items : Array GlyphItem)

/-- Compare `left` places of a pattern, the first of them being `place`, with the glyphs before an
    index. -/
def scanBackFrom : (left place index : Nat) → Scan
  | 0, _, index => ⟨some index, index⟩
  | left + 1, place, index =>
    match f.prev? items index with
    | none => ⟨none, 0⟩
    | some found =>
      if p.acceptsAt place items found then scanBackFrom left (place + 1) found
      else ⟨none, found⟩

/-- Compare a pattern with the glyphs before an index, the nearest glyph first. -/
def scanBack (index : Nat) : Scan := scanBackFrom f p items p.length 0 index

/-- Compare `left` places of a pattern, the first of them being `place`, with the glyphs after an
    index. -/
def scanFrontFrom : (left place index : Nat) → Scan
  | 0, _, index => ⟨some index, index + 1⟩
  | left + 1, place, index =>
    match f.next? items index with
    | none => ⟨none, items.size⟩
    | some found =>
      if p.acceptsAt place items found then scanFrontFrom left (place + 1) found
      else ⟨none, found + 1⟩

/-- Compare a pattern with the glyphs after an index. -/
def scanFront (index : Nat) : Scan := scanFrontFrom f p items p.length 0 index

end GlyphFilter

/-! ## §4 Contexts -/

/-- What a rule asks for around its first glyph, which is known to match. -/
structure ContextPattern where
  /-- The glyphs before, the nearest one first. -/
  backtrack : GlyphPattern := .empty
  /-- The glyphs after the first one that the rule works on. -/
  input : GlyphPattern := .empty
  /-- The glyphs after those. -/
  lookahead : GlyphPattern := .empty
deriving DecidableEq, Repr, Inhabited

/-- A place in a text, where the glyphs before it may have been written already and be different
    from those that were read. -/
structure TextPlace where
  /-- The glyphs that backtrack patterns are compared with. -/
  before : Array GlyphItem
  /-- The number of glyphs of `before` that precede the place. -/
  beforeCount : Nat
  /-- The glyphs that all other patterns are compared with. -/
  items : Array GlyphItem
  /-- The index of the place. -/
  index : Nat

/-- How far around a place glyphs have been looked at. -/
structure Reach where
  /-- The first index before the place that was looked at. -/
  low : Nat
  /-- The first index after the place that was not looked at. -/
  high : Nat
deriving DecidableEq, Repr, Inhabited

/-- The reach of two scans together. -/
def Reach.union (a b : Reach) : Reach := ⟨min a.low b.low, max a.high b.high⟩

/-- The reach of having looked at nothing. -/
def TextPlace.reach (t : TextPlace) : Reach := ⟨t.beforeCount, t.index + 1⟩

namespace ContextPattern

/-- Compare a context with the text around a place: first what is before, then the input, then
    what follows the input. Looking ends where the first of them fails. -/
def scan (c : ContextPattern) (f : GlyphFilter) (t : TextPlace) : Bool × Reach :=
  let back := f.scanBack c.backtrack t.before t.beforeCount
  if back.last.isNone then (false, ⟨back.bound, t.index + 1⟩)
  else
    -- the lookahead goes on where the input has ended
    let input := f.scanFront c.input t.items t.index
    match input.last with
    | none => (false, ⟨back.bound, input.bound⟩)
    | some last =>
      let ahead := f.scanFront c.lookahead t.items last
      (ahead.last.isSome, ⟨back.bound, max input.bound ahead.bound⟩)

/-- Whether a context matches the text around a place. -/
def isMatch (c : ContextPattern) (f : GlyphFilter) (t : TextPlace) : Bool := (c.scan f t).1

end ContextPattern

/-! ## §5 Keeping what was found -/

/-- Keep with each of `n` glyphs from an index on the property that was found for it. -/
def rememberFrom (table : Option Gdef) (items : Array GlyphItem) : (n index : Nat) →
    Array GlyphItem
  | 0, _ => items
  | n + 1, index => rememberFrom table (items.modify index (Gdef.remember table)) n (index + 1)

/-- Keep with the glyphs from `low` up to, and not including, `high` the properties that were
    found for them. -/
def rememberRange (table : Option Gdef) (items : Array GlyphItem) (low high : Nat) :
    Array GlyphItem :=
  rememberFrom table items (high - low) low

end OpenTypeLayout
