import OpenTypeLayout.ContextLookup
import OpenTypeLayout.CoverageMap
import OpenTypeLayout.LookupList
import OpenTypeLayout.Positioning.Anchor
import OpenTypeLayout.Positioning.ValueRecord

/-!
# Positioning subtables

What a subtable of each lookup type says about a glyph or about two glyphs: value records for
single glyphs and for pairs, anchors at which glyphs join, and anchors at which marks attach to
bases, to ligatures and to other marks.
-/

namespace OpenTypeLayout

/-! ## §1 Single glyphs and pairs -/

/-- Adjustments of single glyphs. -/
inductive SinglePos where
  /-- One adjustment for all covered glyphs. -/
  | all (coverage : Coverage) (value : ValueRecord)
  /-- One adjustment for each covered glyph. -/
  | each (values : CoverageMap ValueRecord)
deriving DecidableEq, Repr, Inhabited

/-- The adjustment of a glyph. -/
def SinglePos.apply (s : SinglePos) (glyph : GlyphId) : Except ParseError (Option ValueRecord) :=
  match s with
  | .all coverage value => .ok (if coverage.covers glyph then some value else none)
  | .each values => values.find glyph

/-- The adjustments of the first and the second glyph of a pair. -/
structure PairValue where
  /-- The adjustment of the first glyph. -/
  first : ValueRecord
  /-- The adjustment of the second glyph. -/
  second : ValueRecord
deriving DecidableEq, Repr, Inhabited

/-- Adjustments of pairs of glyphs. -/
inductive PairPos where
  /-- For each covered first glyph a list of second glyphs with the adjustments. -/
  | byGlyph (secondFormat : ValueFormat) (sets : CoverageMap (Array (GlyphId × PairValue)))
  /-- Adjustments by the classes of both glyphs, one row for each class of the first. -/
  | byClass (coverage : Coverage) (secondFormat : ValueFormat) (first second : ClassDef)
      (secondCount : Nat) (rows : Array (Array PairValue))
deriving DecidableEq, Repr, Inhabited

namespace PairPos

/-- The covered first glyphs. -/
def coverage : PairPos → Coverage
  | .byGlyph _ sets => sets.coverage
  | .byClass coverage .. => coverage

/-- Whether a first glyph is covered. -/
def covers (p : PairPos) (glyph : GlyphId) : Bool := p.coverage.covers glyph

/-- Whether second glyphs are adjusted. If not, a second glyph may begin the next pair. -/
def adjustsSecond : PairPos → Bool
  | .byGlyph secondFormat _ => !secondFormat.isEmpty
  | .byClass _ secondFormat .. => !secondFormat.isEmpty

/-- The adjustments of a pair. -/
def apply (p : PairPos) (first second : GlyphId) : Except ParseError (Option PairValue) :=
  match p with
  | .byGlyph _ sets => do
    match ← sets.find first with
    | none => return none
    | some set => return (set.find? fun (glyph, _) => glyph = second).map Prod.snd
  | .byClass coverage _ firstClasses secondClasses secondCount rows =>
    if coverage.covers first then
      let row := (firstClasses.value first).toNat
      let column := (secondClasses.value second).toNat
      if column < secondCount then
        match rows[row]?.bind fun r => r[column]? with
        | some value => .ok (some value)
        | none => .error .badIndex
      else .error .badIndex
    else .ok none

end PairPos

/-! ## §2 Joining and attaching -/

/-- Where a glyph joins the one before it and the one after it. -/
structure EntryExit where
  /-- Where the glyph before joins. -/
  entry : Option Anchor
  /-- Where the glyph after joins. -/
  exit : Option Anchor
deriving DecidableEq, Repr, Inhabited

/-- Joins of covered glyphs. -/
abbrev CursivePos := CoverageMap EntryExit

/-- The class of a mark and where it attaches. -/
structure MarkRecord where
  /-- The class of the mark. -/
  markClass : UInt16
  /-- The place on the mark. -/
  anchor : Option Anchor
deriving DecidableEq, Repr, Inhabited

/-- Anchors for marks, by the class of the mark. -/
abbrev AnchorRow := Array (Option Anchor)

/-- Attachment of marks to targets of some kind. -/
structure MarkAttach (T : Type) where
  /-- The covered marks. -/
  markCoverage : Coverage
  /-- The covered targets. -/
  targetCoverage : Coverage
  /-- The number of classes of marks. -/
  classCount : Nat
  /-- The marks by coverage index. -/
  marks : Array MarkRecord
  /-- The targets by coverage index. -/
  targets : Array T
deriving DecidableEq, Repr, Inhabited

/-- Attachment of marks to bases, or to other marks. -/
abbrev MarkBasePos := MarkAttach AnchorRow

/-- Attachment of marks to the components of ligatures. -/
abbrev MarkLigPos := MarkAttach (Array AnchorRow)

namespace MarkAttach

variable {T : Type}

/-- Whether a mark is covered. -/
def coversMark (a : MarkAttach T) (glyph : GlyphId) : Bool := a.markCoverage.covers glyph

/-- The record of the mark with a coverage index. Its class has to be one of the classes. -/
def mark (a : MarkAttach T) (index : UInt16) : Except ParseError MarkRecord :=
  match a.marks[index.toNat]? with
  | none => .error .badIndex
  | some r => if r.markClass.toNat < a.classCount then .ok r else .error .badIndex

/-- Where a mark attaches to a target: the place on the target and the place on the mark. From the
    entry of the target a row of anchors is picked, in which there is one for each class. -/
def anchors (a : MarkAttach T) (row : T → Option AnchorRow) (target mark : GlyphId) :
    Except ParseError (Option (Anchor × Anchor)) :=
  match a.targetCoverage.index? target, a.markCoverage.index? mark with
  | some targetIndex, some markIndex => do
    let record ← a.mark markIndex
    match a.targets[targetIndex.toNat]? with
    | none => throw .badIndex
    | some entry =>
      -- a missing component and a missing anchor both mean that nothing is attached
      let targetAnchor := (row entry).bind fun r => r[record.markClass.toNat]?.join
      return targetAnchor.bind fun t => record.anchor.map fun m => (t, m)
  | _, _ => .ok none

end MarkAttach

/-- Where a mark attaches to a base. -/
def MarkBasePos.apply (p : MarkBasePos) (base mark : GlyphId) :
    Except ParseError (Option (Anchor × Anchor)) :=
  p.anchors some base mark

/-- Where a mark attaches to a component of a ligature, which is the last one if none is given. -/
def MarkLigPos.apply (p : MarkLigPos) (ligature mark : GlyphId) (component : Option UInt16) :
    Except ParseError (Option (Anchor × Anchor)) :=
  p.anchors (fun rows => match component with
    | some c => rows[c.toNat]?
    | none => rows.back?) ligature mark

/-- The subtables of a positioning lookup. -/
inductive Positioning where
  /-- Adjust single glyphs. -/
  | single (subtables : Array SinglePos)
  /-- Adjust pairs of glyphs. -/
  | pair (subtables : Array PairPos)
  /-- Join glyphs. -/
  | cursive (subtables : Array CursivePos)
  /-- Attach marks to bases. -/
  | markBase (subtables : Array MarkBasePos)
  /-- Attach marks to ligatures. -/
  | markLigature (subtables : Array MarkLigPos)
  /-- Attach marks to marks. -/
  | markMark (subtables : Array MarkBasePos)
  /-- Other lookups in a context of input glyphs. -/
  | context (subtables : Array ContextLookup)
  /-- Other lookups in a context with glyphs before and after. -/
  | chained (subtables : Array ContextLookup)
deriving DecidableEq, Repr, Inhabited

/-! ## §3 Reading -/

/-- Read `n` records of `stride` bytes with a decoder that may fail. -/
def Decoder.records {m : Type → Type} {α : Type} [Monad m] [MonadExceptOf ParseError m]
    (stride n : Nat) (one : Decoder (Except ParseError) α) : Decoder m (Array α) := do
  let items ← Decoder.windows stride n
  MonadExcept.ofExcept (items.mapM fun (w : Window) => w.decode one)

/-- Read both value records of a pair. -/
def PairValue.decoder (first second : ValueFormat) (base : Window) :
    Decoder (Except ParseError) PairValue := do
  return { first := ← ValueRecord.decoder first base, second := ← ValueRecord.decoder second base }

/-- Read the second glyphs of the pairs with one first glyph. -/
def readPairSet (first second : ValueFormat) (w : Window) :
    Except ParseError (Array (GlyphId × PairValue)) := w.decode do
  let count ← Decoder.count
  Decoder.records (2 + first.size + second.size) count do
    return (← Decoder.u16, ← PairValue.decoder first second w)

/-- Read where a glyph joins others. -/
def EntryExit.decoder (base : Window) : Decoder (Except ParseError) EntryExit := do
  let entry ← base.optionalAnchor (← Decoder.u16)
  let exit ← base.optionalAnchor (← Decoder.u16)
  return { entry, exit }

/-- Read the class of a mark and where it attaches. -/
def MarkRecord.decoder (base : Window) : Decoder (Except ParseError) MarkRecord := do
  let markClass ← Decoder.u16
  return { markClass, anchor := ← base.optionalAnchor (← Decoder.u16) }

/-- Read the marks of an attachment subtable. -/
def readMarks (w : Window) : Except ParseError (Array MarkRecord) := w.decode do
  Decoder.records 4 (← Decoder.count) (MarkRecord.decoder w)

/-- Read rows of anchors. -/
def readAnchorRows (classCount : Nat) (w : Window) : Except ParseError (Array AnchorRow) :=
  w.decode do
    Decoder.records (2 * classCount) (← Decoder.count) do
      let offsets ← Decoder.u16s classCount
      offsets.mapM fun n => (w.optionalAnchor n : Except ParseError (Option Anchor))

/-- Read for each ligature the rows of anchors of its components. -/
def readLigatureRows (classCount : Nat) (w : Window) :
    Except ParseError (Array (Array AnchorRow)) := w.decode do
  w.decodeEach (← Decoder.u16s (← Decoder.count)) (readAnchorRows classCount)

section Load

variable {m : Type → Type} [Monad m] [MonadExceptOf ParseError m] [SharedTables m]

/-- Read a value record as part of a subtable. -/
def loadValue (f : ValueFormat) (base : Window) : Decoder m ValueRecord :=
  Decoder.ofRead (ValueRecord.decoder f base).run

/-- Read a single adjustment subtable. -/
def SinglePos.load (w : Window) : m SinglePos := w.decode do
  match ← Decoder.u16 with
  | 1 =>
    let coverage ← w.coverage (← Decoder.u16)
    let format ← ValueFormat.decoder
    return .all coverage (← loadValue format w)
  | 2 =>
    let coverage ← w.coverage (← Decoder.u16)
    let format ← ValueFormat.decoder
    let count ← Decoder.count
    let entries ← Decoder.records format.size count (ValueRecord.decoder format w)
    return .each { coverage, entries }
  | _ => throw ParseError.badFormat

/-- Read a pair adjustment subtable. Classes have to be below the counts of rows and columns. -/
def PairPos.load (w : Window) : m PairPos := w.decode do
  match ← Decoder.u16 with
  | 1 =>
    let coverage ← w.coverage (← Decoder.u16)
    let first ← ValueFormat.decoder
    let second ← ValueFormat.decoder
    let offsets ← Decoder.u16s (← Decoder.count)
    let entries ← w.decodeEach offsets fun target =>
      MonadExcept.ofExcept (readPairSet first second target)
    return .byGlyph second { coverage, entries }
  | 2 =>
    let coverage ← w.coverage (← Decoder.u16)
    let first ← ValueFormat.decoder
    let second ← ValueFormat.decoder
    let firstClasses ← w.classDef (← Decoder.u16)
    let secondClasses ← w.classDef (← Decoder.u16)
    let firstCount ← Decoder.u16
    let secondCount ← Decoder.u16
    -- every class that is named gets a row and a column
    demand (firstClasses.isBelow firstCount) ParseError.badValue
    demand (secondClasses.isBelow secondCount) ParseError.badValue
    let stride := first.size + second.size
    let rows ← Decoder.records (secondCount.toNat * stride) firstCount.toNat
      (Decoder.records stride secondCount.toNat (PairValue.decoder first second w))
    return .byClass coverage second firstClasses secondClasses secondCount.toNat rows
  | _ => throw ParseError.badFormat

/-- Read a joining subtable. -/
def CursivePos.load (w : Window) : m CursivePos := w.decode do
  demand ((← Decoder.u16) = 1) ParseError.badFormat
  let coverage ← w.coverage (← Decoder.u16)
  let count ← Decoder.count
  return { coverage, entries := ← Decoder.records 4 count (EntryExit.decoder w) }

/-- Read an attachment subtable. -/
def MarkAttach.load {T : Type} (targets : (classCount : Nat) → Window → Except ParseError (Array T))
    (w : Window) : m (MarkAttach T) := w.decode do
  demand ((← Decoder.u16) = 1) ParseError.badFormat
  let markCoverageOffset ← Decoder.u16
  let targetCoverageOffset ← Decoder.u16
  let classCount ← Decoder.count
  let marksOffset ← Decoder.count
  let targetsOffset ← Decoder.count
  let markCoverage ← w.coverage markCoverageOffset
  let targetCoverage ← w.coverage targetCoverageOffset
  let marks ← MonadExcept.ofExcept (readMarks (w.offset marksOffset))
  let targets ← MonadExcept.ofExcept (targets classCount (w.offset targetsOffset))
  return { markCoverage, targetCoverage, classCount, marks, targets }

/-- Read the subtables of a positioning lookup. -/
def Positioning.load (lookupType : UInt16) (subtables : Array Window) : m Positioning :=
  match lookupType with
  | 1 => .single <$> subtables.mapM SinglePos.load
  | 2 => .pair <$> subtables.mapM PairPos.load
  | 3 => .cursive <$> subtables.mapM CursivePos.load
  | 4 => .markBase <$> subtables.mapM (MarkAttach.load readAnchorRows)
  | 5 => .markLigature <$> subtables.mapM (MarkAttach.load readLigatureRows)
  | 6 => .markMark <$> subtables.mapM (MarkAttach.load readAnchorRows)
  | 7 => .context <$> subtables.mapM ContextLookup.plain
  | 8 => .chained <$> subtables.mapM ContextLookup.chained
  | _ => throw ParseError.badFormat

end Load

/-- The lookup types of positionings. -/
instance : LookupFamily Positioning where
  extensionType := 9
  typeOf
    | .single _ => 1
    | .pair _ => 2
    | .cursive _ => 3
    | .markBase _ => 4
    | .markLigature _ => 5
    | .markMark _ => 6
    | .context _ => 7
    | .chained _ => 8
  count
    | .single subtables => subtables.size
    | .pair subtables => subtables.size
    | .cursive subtables => subtables.size
    | .markBase subtables => subtables.size
    | .markLigature subtables => subtables.size
    | .markMark subtables => subtables.size
    | .context subtables => subtables.size
    | .chained subtables => subtables.size
  load := Positioning.load

end OpenTypeLayout
