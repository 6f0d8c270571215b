import OpenTypeLayout.Device

/-!
# Anchors

An anchor is the place on a glyph where another glyph is attached.
-/

namespace OpenTypeLayout

/-- A place on a glyph. -/
inductive Anchor where
  /-- A place in design units. -/
  | design (x y : Int16)
  /-- A place in design units, which a point of the outline stands in for if the glyph has an
      outline. -/
  | contour (x y : Int16) (point : UInt16)
  /-- A place in design units with adjustments for the size. -/
  | adjusted (x y : Int16) (xDevice yDevice : Option Device)
  /-- Two metrics that the font names by number. -/
  | metric (x y : UInt16)
deriving DecidableEq, Repr, Inhabited

/-- Read the anchor at the beginning of a window. Each device table is looked at as soon as its
    offset has been read. -/
def Anchor.ofWindow (w : Window) : Except ParseError Anchor := w.decode do
  match ← Decoder.u16 with
  | 1 =>
    let x ← Decoder.i16
    return .design x (← Decoder.i16)
  | 2 =>
    let x ← Decoder.i16
    let y ← Decoder.i16
    return .contour x y (← Decoder.u16)
  | 3 =>
    let x ← Decoder.i16
    let y ← Decoder.i16
    let xDevice ← w.optionalDevice (← Decoder.u16)
    let yDevice ← w.optionalDevice (← Decoder.u16)
    return .adjusted x y xDevice yDevice
  | 4 =>
    let x ← Decoder.u16
    return .metric x (← Decoder.u16)
  | _ => throw ParseError.badFormat

/-- The anchor at a stored offset, if there is one. -/
def Window.optionalAnchor (w : Window) (n : UInt16) : Except ParseError (Option Anchor) := do
  match ← w.offsetNullable n with
  | none => return none
  | some target => return some (← Anchor.ofWindow target)

end OpenTypeLayout
