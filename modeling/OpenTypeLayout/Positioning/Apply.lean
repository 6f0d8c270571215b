import OpenTypeLayout.ActiveTable
import OpenTypeLayout.GlyphItem
import OpenTypeLayout.Positioning.Position
import OpenTypeLayout.Positioning.Subtable

/-!
# Applying positionings

Positioning leaves the glyphs of a text as they are and fills in a position for each of them.
Lookups are applied one after the other, each of them to the whole text from the front.

- `PosM` is a computation on positions that may fail. What was done before a failure stays done.
- `applyLookup` applies one lookup to the glyph at an index. It answers with the index to go on
  from, or with nothing if it did not apply.
- `ActiveTable.position` applies all active lookups.
-/

namespace OpenTypeLayout

/-! ## §1 State -/

/-- What positioning works on. -/
structure PosState (σ : Type) where
  /-- The text. -/
  glyphs : Array GlyphItem
  /-- The positions of the glyphs. -/
  positions : Array Position
  /-- The last glyph of the joined glyphs so far, and where the next one joins it. -/
  chain : Option (Nat × Point)
  /-- What the source of outlines and metrics keeps. -/
  kept : σ

/-- A computation that works on the state of positioning and may fail. -/
abbrev PosM (σ : Type) := Program (PosState σ)

/-- What stays the same while a text is positioned. -/
structure PosContext (σ : Type) where
  /-- The glyph definitions. -/
  gdef : Option Gdef
  /-- How amounts of the font become output units. -/
  params : PosParams
  /-- Where outlines and metrics come from. -/
  source : PosSource σ

namespace PosM

variable {σ : Type} (c : PosContext σ)

/-! ## §2 Single steps -/

/-- Keep the properties of the glyphs from `low` up to, and not including, `high`. -/
def remember (low high : Nat) : PosM σ Unit :=
  modify fun s => { s with glyphs := rememberRange c.gdef s.glyphs low high }

/-- Change the position of the glyph at an index. -/
def modifyPosition (index : Nat) (f : Position → Position) : PosM σ Unit :=
  modify fun s => { s with positions := s.positions.modify index f }

/-- Break the chain of joined glyphs. -/
def breakChain : PosM σ Unit := modify fun s => { s with chain := none }

/-- The value of the metric with a number. -/
def metric (id : UInt16) : PosM σ Int32 := do
  let (value, kept) := c.source.metric (← get).kept id
  modify fun s => { s with kept }
  value

/-- The points of the outline of a glyph. -/
def contour (glyph : GlyphId) : PosM σ (Array Point) := do
  let (points, kept) := c.source.contour (← get).kept glyph c.params.loadFlags
  modify fun s => { s with kept }
  points

/-- Add the value of a metric, if there is one, to the position of a glyph. -/
def addMetric (index : Nat) (id : Option UInt16) (add : Int32 → Position → Position) :
    PosM σ Unit := do
  match id with
  | none => pure ()
  | some id =>
    let value ← metric c id
    modifyPosition index (add value)

/-- Add a value record to the position of a glyph. Metrics come last. -/
def adjust (v : ValueRecord) (index : Nat) : PosM σ Unit := do
  -- what needs no source comes first and stays even if a metric fails
  modifyPosition index (c.params.adjust v)
  addMetric c index v.xPlacement.metric fun n p => { p with x := p.x + n }
  addMetric c index v.yPlacement.metric fun n p => { p with y := p.y + n }
  addMetric c index v.xAdvance.metric fun n p => { p with xAdvance := p.xAdvance + n }
  addMetric c index v.yAdvance.metric fun n p => { p with yAdvance := p.yAdvance + n }

/-- The place of an anchor of a glyph. A point of the outline stands in for the place in design
    units only where the device counts and the glyph has an outline. -/
def anchorPoint (a : Anchor) (glyph : GlyphId) : PosM σ Point := do
  match a with
  | .design x y => return c.params.design x y
  | .contour x y point =>
    if c.params.deviceIndependent then return c.params.design x y
    else
      let points ← contour c glyph
      if points.isEmpty then return c.params.design x y
      else
        match points[point.toNat]? with
        | some p => return p
        | none => throw (.parse .badIndex)
  | .adjusted x y xDevice yDevice =>
    let p := c.params.design x y
    if c.params.deviceIndependent then return p
    else return ⟨p.x + pixels xDevice c.params.xPpem, p.y + pixels yDevice c.params.yPpem⟩
  | .metric x y =>
    let x ← metric c x
    return ⟨x, ← metric c y⟩

/-- Do something with the glyph at an index and its property if a lookup with the flag processes
    it. -/
def atGlyph (flag : LookupFlag) (index : Nat)
    (action : GlyphItem → GlyphProperty → PosM σ (Option Nat)) : PosM σ (Option Nat) := do
  match (← get).glyphs[index]? with
  | none => return none
  | some item =>
    let found := Gdef.check c.gdef flag item
    remember c index (index + 1)
    match found with
    | none => return none
    | some p => action item p

/-! ## §3 Single glyphs, pairs and joins -/

/-- Adjust the glyph at an index by the first subtable that covers it. -/
def applySingle (subtables : Array SinglePos) (index : Nat) (item : GlyphItem) :
    PosM σ (Option Nat) := do
  match ← LayoutError.ofParse (firstAnswer (fun s => s.apply item.glyph) subtables.toList) with
  | none => return none
  | some value =>
    adjust c value index
    return some (index + 1)

/-- What a pair subtable says about a pair, with the index at which the next pair may begin. -/
def pairAnswer (first second : GlyphId) (secondIndex : Nat) (s : PairPos) :
    Except ParseError (Option (PairValue × Nat)) :=
  (s.apply first second).map fun value => value.map fun v =>
    (v, if s.adjustsSecond then secondIndex + 1 else secondIndex)

/-- Adjust the pair of the glyph at an index and the next one that counts by the first subtable
    that has the pair. -/
def applyPair (flag : LookupFlag) (subtables : Array PairPos) (index : Nat) (item : GlyphItem) :
    PosM σ (Option Nat) := do
  let s ← get
  match (GlyphFilter.mk c.gdef flag).next? s.glyphs index with
  | none =>
    remember c (index + 1) s.glyphs.size
    return none
  | some secondIndex =>
    -- the default is never used: what is found is inside the text
    let second := (s.glyphs[secondIndex]?.map GlyphItem.glyph).getD 0
    remember c (index + 1) (secondIndex + 1)
    match ← LayoutError.ofParse
        (firstAnswer (pairAnswer item.glyph second secondIndex) subtables.toList) with
    | none => return none
    | some (value, next) =>
      adjust c value.first index
      adjust c value.second secondIndex
      return some next

/-- Join a glyph to the last glyph of the chain. The advance between them is made to fit, and the
    glyph is moved up or down to meet the other. -/
def join (index : Nat) (entry : Point) (last : Nat) (exit : Point) : PosM σ Unit := do
  -- of the two glyphs, the one that is further left in the output makes up the advance
  if c.params.rightToLeft then
    modifyPosition index fun p => { p with xAdvance := entry.x - exit.x, newAdvance := true }
  else
    modifyPosition last fun p => { p with xAdvance := exit.x - entry.x, newAdvance := true }
  -- the other glyph may have been moved itself, and this one moves along
  let height := ((← get).positions[last]?.map Position.y).getD 0
  modifyPosition index fun p => { p with y := exit.y - entry.y + height }

/-- Join the glyph at an index to the chain of joined glyphs, and let the chain go on from it. Marks
    and glyphs without joins break the chain; glyphs that the lookup skips do not. -/
def applyCursive (subtables : Array CursivePos) (index : Nat) (item : GlyphItem)
    (p : GlyphProperty) : PosM σ (Option Nat) := do
  if p.isMark then
    breakChain
    return none
  match ← LayoutError.ofParse (firstAnswer (fun s => s.find item.glyph) subtables.toList) with
  | none =>
    breakChain
    return none
  | some joins =>
    match (← get).chain, joins.entry with
    | some (last, exit), some entry =>
      join c index (← anchorPoint c entry item.glyph) last exit
    | _, _ => pure ()
    -- the chain goes on from this glyph, whether or not it was joined to the one before
    match joins.exit with
    | none => breakChain
    | some exit =>
      let exit ← anchorPoint c exit item.glyph
      modify fun s => { s with chain := some (index, exit) }
    return some (index + 1)

/-! ## §4 Marks -/

/-- The nearest glyph before an index that is not a mark, with its property. -/
def markTarget? (table : Option Gdef) (items : Array GlyphItem) : (index : Nat) →
    Option (Nat × GlyphProperty)
  | 0 => none
  | index + 1 =>
    match items[index]? with
    | none => none
    | some item =>
      let p := Gdef.propertyIn table item
      if p.isMark then markTarget? table items index else some (index, p)

/-- Move the mark at an index so that its anchor meets the anchor of the glyph at `target`. -/
def attach (index target : Nat) (targetPoint markPoint : Point) : PosM σ Unit := do
  let offset := targetPoint.sub markPoint
  modifyPosition index fun p =>
    { p with x := offset.x, y := offset.y, xAdvance := 0, yAdvance := 0 }
  -- the mark stays moved even if the link to its target does not fit
  let back ← fit16 (index - target)
  modifyPosition index fun p => { p with back }

/-- Attach the mark at an index to a target at the anchors of both, if there are any. -/
def attachAt (index target : Nat) (mark : GlyphItem) (targetGlyph : GlyphId)
    (anchors : Except ParseError (Option (Anchor × Anchor))) : PosM σ (Option Nat) := do
  match ← LayoutError.ofParse anchors with
  | none => return none
  | some (targetAnchor, markAnchor) =>
    let targetPoint ← anchorPoint c targetAnchor targetGlyph
    let markPoint ← anchorPoint c markAnchor mark.glyph
    attach index target targetPoint markPoint
    return some (index + 1)

/-- The nearest glyph before an index that is not a mark: its index, the glyph and its property.
    The properties of all glyphs up to there are kept. -/
def findTarget (index : Nat) : PosM σ (Option (Nat × GlyphItem × GlyphProperty)) := do
  let s ← get
  let found := markTarget? c.gdef s.glyphs index
  let result := found.bind fun (target, p) => s.glyphs[target]?.map fun item => (target, item, p)
  remember c ((found.map Prod.fst).getD 0) index
  return result

/-- Attach the mark at an index to the base before it. The first subtable that covers the mark
    decides. A glyph without a class counts as a base. -/
def applyMarkBase (subtables : Array MarkBasePos) (index : Nat) (item : GlyphItem) :
    PosM σ (Option Nat) := do
  match subtables.find? fun s => s.coversMark item.glyph with
  | none => return none
  | some subtable =>
    match ← findTarget c index with
    | none => return none
    | some (target, base, p) =>
      if p = .base || p = .none then
        attachAt c index target item base.glyph (subtable.apply base.glyph item.glyph)
      else return none

/-- Attach the mark at an index to the ligature before it. A mark that belongs to the ligature goes
    to its component, any other to the last one. -/
def applyMarkLigature (subtables : Array MarkLigPos) (index : Nat) (item : GlyphItem) :
    PosM σ (Option Nat) := do
  match subtables.find? fun s => s.coversMark item.glyph with
  | none => return none
  | some subtable =>
    match ← findTarget c index with
    | none => return none
    | some (target, ligature, p) =>
      if p = .ligature then
        let component :=
          if item.ligature ≠ 0 ∧ item.ligature = ligature.ligature then some item.component
          else none
        attachAt c index target item ligature.glyph
          (subtable.apply ligature.glyph item.glyph component)
      else return none

/-- Attach the mark at an index to the glyph before it that counts, which has to be a mark of the
    attachment class of the lookup, or any mark if the lookup has none. -/
def applyMarkMark (flag : LookupFlag) (subtables : Array MarkBasePos) (index : Nat)
    (item : GlyphItem) : PosM σ (Option Nat) := do
  match subtables.find? fun s => s.coversMark item.glyph with
  | none => return none
  | some subtable =>
    let s ← get
    let found := (GlyphFilter.mk c.gdef flag).prev? s.glyphs index
    let result := found.bind fun target => s.glyphs[target]?.map fun other => (target, other)
    remember c (found.getD 0) index
    match result with
    | none => return none
    | some (target, other) =>
      let p := Gdef.propertyIn c.gdef other
      -- the property of a mark with an attachment class is that class in the high byte
      let attachable :=
        if flag.markAttachmentType ≠ 0 then p.bits = flag.markAttachmentType else p.isMark
      if attachable then
        attachAt c index target item other.glyph (subtable.apply other.glyph item.glyph)
      else return none

/-! ## §5 Lookups in context -/

/-- A lookup invoked with its index, the index of a glyph and a context length. -/
abbrev Invoke (σ : Type) := Nat → Nat → UInt16 → PosM σ (Option Nat)

/-- Apply the records of a rule up to its last glyph, and answer with the index after it. -/
def applyRecords (invoke : Invoke σ) (places : List Nat) (last : Nat) : (rounds index : Nat) →
    List LookupRecord → PosM σ Nat
  | 0, index, _ => return index
  | rounds + 1, index, records => do
    if index ≤ last then
      let (record, rest) := nextRecord places index records
      -- a lookup that does not apply leaves its glyph behind like one without a record
      let next ← match record with
        | some r => do
          invoke r.lookupIndex.toNat index (← fit16 (remainingFrom places index))
        | none => pure none
      applyRecords invoke places last rounds (next.getD (index + 1)) rest
    else return index

/-- Apply a rule whose context matches at an index. -/
def applyRule (invoke : Invoke σ) (flag : LookupFlag) (rule : RuleMatch) (index : Nat) :
    PosM σ Nat := do
  let places := rule.places ⟨c.gdef, flag⟩ (← get).glyphs index
  let last := places.getLast?.getD index
  applyRecords invoke places last (last + 1 - index) index rule.records

/-- Apply the first rule that matches at an index. -/
def applyContext (invoke : Invoke σ) (flag : LookupFlag) (contextLength : UInt16) (index : Nat)
    (item : GlyphItem) : List ContextLookup → PosM σ (Option Nat)
  | [] => return none
  | subtable :: rest => do
    let rules ← LayoutError.ofParse (subtable.candidates item.glyph contextLength)
    let s ← get
    let place : TextPlace := { before := s.glyphs, beforeCount := index, items := s.glyphs, index }
    let (found, reach) := firstMatch ⟨c.gdef, flag⟩ place rules place.reach
    remember c reach.low reach.high
    match found with
    | none => applyContext invoke flag contextLength index item rest
    | some rule => return some (← applyRule c invoke flag rule index)

/-- Apply a lookup to the glyph at an index. Every invocation takes one of the levels that are
    left. -/
def applyLookup (table : LayoutTable Positioning) : (levels : Nat) → Invoke σ
  | 0, _, _, _ => throw .tooManyNestedContexts
  | levels + 1, lookupIndex, index, contextLength => do
    let lookup ← LayoutError.ofParse (table.lookup lookupIndex)
    let flag := lookup.flag
    let single := fitsContext 1 contextLength
    match lookup.subtables with
    | .single subtables =>
      if single then atGlyph c flag index fun item _ => applySingle c subtables index item
      else return none
    | .pair subtables =>
      if fitsContext 2 contextLength then
        atGlyph c flag index fun item _ => applyPair c flag subtables index item
      else return none
    | .cursive subtables =>
      if single then atGlyph c flag index (applyCursive c subtables index)
      else
        breakChain
        return none
    | .markBase subtables =>
      if single && !flag.ignoresBases then
        atGlyph c flag index fun item _ => applyMarkBase c subtables index item
      else return none
    | .markLigature subtables =>
      if single && !flag.ignoresLigatures then
        atGlyph c flag index fun item _ => applyMarkLigature c subtables index item
      else return none
    | .markMark subtables =>
      if single && !flag.ignoresMarks then
        atGlyph c flag index fun item _ => applyMarkMark c flag subtables index item
      else return none
    | .context subtables =>
      atGlyph c flag index fun item _ =>
        applyContext c (applyLookup table levels) flag contextLength index item subtables.toList
    | .chained subtables =>
      atGlyph c flag index fun item _ =>
        applyContext c (applyLookup table levels) flag contextLength index item subtables.toList

/-! ## §6 Passes -/

/-- Apply a lookup to the text from an index on. A glyph at which it is not active breaks the chain
    of joined glyphs. -/
def pass (apply : Nat → PosM σ (Option Nat)) (bits : UInt32) : (rounds index : Nat) → PosM σ Unit
  | 0, _ => pure ()
  | rounds + 1, index => do
    match (← get).glyphs[index]? with
    | none => pure ()
    | some item =>
      if item.isActive bits then
        let next ← apply index
        -- where no subtable applies the chain is left to the lookup
        pass apply bits rounds (next.getD (index + 1))
      else
        breakChain
        pass apply bits rounds (index + 1)

/-- Apply active lookups in order. No chain goes from one lookup to the next. -/
def applyActive (table : ActiveTable Positioning) : List (Nat × UInt32) → PosM σ Unit
  | [] => pure ()
  | (lookupIndex, bits) :: rest => do
    breakChain
    pass (fun index => applyLookup c table.layout table.nestingLimit lookupIndex index noContext)
      bits (← get).glyphs.size 0
    applyActive table rest

end PosM

/-- What a text has after it has been positioned: its glyphs, which have kept their properties, the
    positions, and what the source keeps. -/
structure PosOutcome (σ : Type) where
  /-- The glyphs. -/
  glyphs : Array GlyphItem
  /-- The positions. -/
  positions : Array Position
  /-- What the source keeps. -/
  kept : σ
deriving DecidableEq

/-- Position a text. There has to be a glyph; if there is none, the positions from before stay. -/
def ActiveTable.position {σ : Type} (table : ActiveTable Positioning) (c : PosContext σ)
    (before : PosOutcome σ) : Except LayoutError Unit × PosOutcome σ :=
  if before.glyphs.isEmpty then (.error .invalidArgument, before)
  else
    let state : PosState σ := {
      glyphs := before.glyphs
      positions := Array.replicate before.glyphs.size {}
      chain := none
      kept := before.kept }
    let (result, s) := ((PosM.applyActive c table table.active).run).run state
    (result, { glyphs := s.glyphs, positions := s.positions, kept := s.kept })

end OpenTypeLayout
