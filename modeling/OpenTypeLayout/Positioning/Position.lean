import OpenTypeLayout.Error
import OpenTypeLayout.GlyphProperty
import OpenTypeLayout.Positioning.Anchor
import OpenTypeLayout.Positioning.ValueRecord

/-!
# Positions

The outcome of positioning: for each glyph how far it is moved, how its advance changes, and
which glyph it is attached to. Amounts of the font are in design units and are scaled by a number
with sixteen binary places. Where positioning depends on the device, amounts are in 64ths of a
pixel and device tables add whole pixels.
-/

namespace OpenTypeLayout

/-! ## §1 Points and positions -/

/-- A place in output units. -/
structure Point where
  /-- The horizontal coordinate. -/
  x : Int32
  /-- The vertical coordinate. -/
  y : Int32
deriving DecidableEq, Repr, Inhabited

/-- The coordinate-wise difference. -/
def Point.sub (a b : Point) : Point := ⟨a.x - b.x, a.y - b.y⟩

/-- How a glyph is positioned. -/
structure Position where
  /-- How far the glyph is moved horizontally. -/
  x : Int32 := 0
  /-- How far the glyph is moved vertically. -/
  y : Int32 := 0
  /-- The change of the horizontal advance. -/
  xAdvance : Int32 := 0
  /-- The change of the vertical advance. -/
  yAdvance : Int32 := 0
  /-- Whether the horizontal advance is replaced and not changed. -/
  newAdvance : Bool := false
  /-- How many glyphs back the glyph is that this one is attached to, zero for none. -/
  back : UInt16 := 0
deriving DecidableEq, Repr, Inhabited

/-! ## §2 Parameters and sources -/

/-- How amounts of the font become output units. -/
structure PosParams where
  /-- The horizontal scale, with sixteen binary places. -/
  xScale : Int32 := 0x10000
  /-- The vertical scale, with sixteen binary places. -/
  yScale : Int32 := 0x10000
  /-- The horizontal size in pixels per em. -/
  xPpem : UInt16 := 0
  /-- The vertical size in pixels per em. -/
  yPpem : UInt16 := 0
  /-- Whether device tables and outlines are left out of account. -/
  deviceIndependent : Bool := true
  /-- Whether the text runs from right to left. -/
  rightToLeft : Bool := false
  /-- What the source of outlines is told. -/
  loadFlags : UInt32 := 0
deriving DecidableEq, Repr, Inhabited

/-- Where outlines and metrics come from. Asking may fail, and may change what the source keeps. -/
structure PosSource (σ : Type) where
  /-- The points of the outline of a glyph, none if it has no outline. -/
  contour : σ → GlyphId → UInt32 → Except LayoutError (Array Point) × σ
  /-- The value of the metric with a number. -/
  metric : σ → UInt16 → Except LayoutError Int32 × σ

/-- No glyph has an outline. -/
def PosSource.noOutlines {σ : Type} : σ → GlyphId → UInt32 →
    Except LayoutError (Array Point) × σ :=
  fun kept _ _ => (.ok #[], kept)

/-- No metric has a value. -/
def PosSource.noMetrics {σ : Type} : σ → UInt16 → Except LayoutError Int32 × σ :=
  fun kept _ => (.error .noMultipleMasterInterpreter, kept)

/-! ## §3 Scaling -/

/-- An amount in design units times a scale. What is below the last binary place is cut off. -/
def scaled (amount : Int16) (scale : Int32) : Int32 :=
  -- cutting off goes towards zero, for negative amounts too
  Int32.ofInt (Int.tdiv (scale.toInt * amount.toInt) 0x10000)

/-- The adjustment of a device table at a size, in 64ths of a pixel. -/
def pixels (device : Option Device) (ppem : UInt16) : Int32 :=
  match device with
  | some d => Int32.ofInt (d.delta ppem * 64)
  | none => 0

namespace PosParams

/-- A place in design units. -/
def design (params : PosParams) (x y : Int16) : Point :=
  ⟨scaled x params.xScale, scaled y params.yScale⟩

/-- The part of a horizontal amount that needs no source. -/
def xAmount (params : PosParams) (a : ValueAmount) : Int32 :=
  (a.design.elim 0 fun n => scaled n params.xScale) +
    (if params.deviceIndependent then 0 else pixels a.device params.xPpem)

/-- The part of a vertical amount that needs no source. -/
def yAmount (params : PosParams) (a : ValueAmount) : Int32 :=
  (a.design.elim 0 fun n => scaled n params.yScale) +
    (if params.deviceIndependent then 0 else pixels a.device params.yPpem)

/-- Add to a position the parts of a value record that need no source. -/
def adjust (params : PosParams) (v : ValueRecord) (p : Position) : Position :=
  { p with
    x := p.x + params.xAmount v.xPlacement
    y := p.y + params.yAmount v.yPlacement
    xAdvance := p.xAdvance + params.xAmount v.xAdvance
    yAdvance := p.yAdvance + params.yAmount v.yAdvance }

end PosParams

end OpenTypeLayout
