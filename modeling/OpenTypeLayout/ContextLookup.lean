import OpenTypeLayout.Matching
import OpenTypeLayout.SharedTables

/-!
# Contextual lookups

A contextual subtable holds rules. A rule asks for a context and says which lookups to apply at
which of the glyphs that it matched. Rules are written with glyphs, with classes of glyphs or
with coverage tables. There are subtables without and with glyphs before and after the input; the
former are the latter with nothing asked for on either side.

- `ContextLookup.candidates` lists, in order, the rules that may apply to a glyph.
- `ContextLookup.findRule` is the first of them whose context matches.
-/

namespace OpenTypeLayout

/-! ## §1 Rules -/

/-- A lookup to apply at one of the glyphs that a rule has matched. -/
structure LookupRecord where
  /-- Which of the matched glyphs. -/
  sequenceIndex : UInt16
  /-- Which lookup. -/
  lookupIndex : UInt16
deriving DecidableEq, Repr, Inhabited

/-- Two words. -/
def LookupRecord.record : FixedRecord LookupRecord :=
  (FixedRecord.pair .u16 .u16).map fun (sequenceIndex, lookupIndex) =>
    { sequenceIndex, lookupIndex }

/-- Records in the order of the glyphs that they are for. Records for one glyph stay in the order
    of the font. -/
def LookupRecord.sorted (records : Array LookupRecord) : List LookupRecord :=
  records.toList.mergeSort fun a b => a.sequenceIndex ≤ b.sequenceIndex

/-- A rule written with numbers, which are glyphs or classes. -/
structure ContextRule where
  /-- What is before, the nearest one first. -/
  backtrack : Array UInt16
  /-- The input after its first glyph. -/
  input : Array UInt16
  /-- What is after. -/
  lookahead : Array UInt16
  /-- The lookups to apply. -/
  records : List LookupRecord
deriving DecidableEq, Repr, Inhabited

/-- Rules in the order in which they are tried. -/
abbrev RuleSet := Array ContextRule

/-- A contextual subtable. -/
inductive ContextLookup where
  /-- Rules written with glyphs, one set for each covered glyph. -/
  | byGlyph (coverage : Coverage) (ruleSets : Array (Option RuleSet))
  /-- Rules written with classes, one set for each class of the first glyph. -/
  | byClass (coverage : Coverage) (backtrack input lookahead : ClassDef)
      (ruleSets : Array (Option RuleSet))
  /-- One rule written with coverage tables, the first of which is for the first glyph. -/
  | byCoverage (first : Coverage) (backtrack input lookahead : Array Coverage)
      (records : List LookupRecord)
deriving DecidableEq, Repr, Inhabited

/-! ## §2 Finding a rule -/

/-- The context length of a lookup that is not invoked by a rule. -/
def noContext : UInt16 := 0xFFFF

/-- Whether so many input glyphs fit a context length. -/
def fitsContext (count : Nat) (contextLength : UInt16) : Bool :=
  contextLength == noContext || count ≤ contextLength.toNat

/-- What a rule that applies does. -/
structure RuleMatch where
  /-- The number of input glyphs, the first one included. -/
  inputCount : Nat
  /-- The lookups to apply. -/
  records : List LookupRecord
deriving DecidableEq, Repr, Inhabited

/-- The indices of the glyphs that a rule has matched from an index on. -/
def RuleMatch.places (r : RuleMatch) (f : GlyphFilter) (items : Array GlyphItem) (index : Nat) :
    List Nat :=
  f.places items (r.inputCount - 1) index

/-- A rule that applies if its context matches. -/
structure RuleCandidate where
  /-- The context. -/
  context : ContextPattern
  /-- What the rule does. -/
  result : RuleMatch
deriving DecidableEq, Repr, Inhabited

namespace ContextLookup

/-- The rules of a set that fit a context length, with their numbers read as patterns. -/
def candidatesOf (rules : RuleSet) (contextLength : UInt16)
    (backtrack input lookahead : Array UInt16 → GlyphPattern) : List RuleCandidate :=
  (rules.toList.filter fun r => fitsContext (r.input.size + 1) contextLength).map fun r =>
    { context := {
        backtrack := backtrack r.backtrack
        input := input r.input
        lookahead := lookahead r.lookahead }
      result := { inputCount := r.input.size + 1, records := r.records } }

/-- The rules that may apply to a glyph, in the order in which they are tried. -/
def candidates (c : ContextLookup) (glyph : GlyphId) (contextLength : UInt16) :
    Except ParseError (List RuleCandidate) :=
  match c with
  | .byGlyph coverage ruleSets =>
    match coverage.index? glyph with
    | none => .ok []
    | some index =>
      match ruleSets[index.toNat]? with
      -- a covered glyph without a rule set is an error, one with an absent rule set is not
      | none => .error .badIndex
      | some none => .ok []
      | some (some rules) => .ok (candidatesOf rules contextLength .glyphs .glyphs .glyphs)
  | .byClass coverage backtrack input lookahead ruleSets =>
    if coverage.covers glyph then
      -- here the coverage only admits the glyph, its class picks the rules
      match ruleSets[(input.value glyph).toNat]? with
      | some (some rules) =>
        .ok (candidatesOf rules contextLength (.classes backtrack) (.classes input)
          (.classes lookahead))
      | _ => .ok []
    else .ok []
  | .byCoverage first backtrack input lookahead records =>
    if first.covers glyph && fitsContext (input.size + 1) contextLength then
      .ok [{
        context := {
          backtrack := .coverages backtrack
          input := .coverages input
          lookahead := .coverages lookahead }
        result := { inputCount := input.size + 1, records } }]
    else .ok []

/-- The first candidate whose context passes a test. -/
def findRule (c : ContextLookup) (glyph : GlyphId) (contextLength : UInt16)
    (test : ContextPattern → Bool) : Except ParseError (Option RuleMatch) :=
  (c.candidates glyph contextLength).map fun rules =>
    (rules.find? fun r => test r.context).map RuleCandidate.result

/-- The number of rules in each rule set. -/
def ruleCounts : ContextLookup → Array (Option Nat)
  | .byGlyph _ ruleSets => ruleSets.map fun s => s.map Array.size
  | .byClass _ _ _ _ ruleSets => ruleSets.map fun s => s.map Array.size
  | .byCoverage .. => #[]

end ContextLookup

/-- The first candidate whose context matches a text around a place, and how far the text has been
    looked at to find it. -/
def firstMatch (f : GlyphFilter) (t : TextPlace) : List RuleCandidate → Reach →
    Option RuleMatch × Reach
  | [], reach => (none, reach)
  | r :: rest, reach =>
    let (matched, seen) := r.context.scan f t
    if matched then (some r.result, reach.union seen)
    else firstMatch f t rest (reach.union seen)

/-! ## §3 Working through a rule -/

/-- The record to apply at an index, and the records that are left. Records for glyphs that have
    been passed are dropped, and so are records for glyphs that the rule has not matched. -/
def nextRecord (places : List Nat) (index : Nat) : List LookupRecord →
    Option LookupRecord × List LookupRecord
  | [] => (none, [])
  | r :: rest =>
    match places[r.sequenceIndex.toNat]? with
    -- the rule has not matched that many glyphs
    | none => nextRecord places index rest
    | some place =>
      if place = index then (some r, rest)
      -- the glyph of this record is still to come, and with it those of all records after it
      else if index < place then (none, r :: rest)
      -- the glyph has been passed by a lookup that consumed it
      else nextRecord places index rest

/-- The number of matched glyphs from an index on. It is the context length of lookups that are
    applied there. -/
def remainingFrom (places : List Nat) (index : Nat) : Nat :=
  (places.filter fun place => index ≤ place).length

/-! ## §4 Reading -/

/-- Read lookup records and put them in order. -/
def Decoder.lookupRecords {m : Type → Type} [Monad m] [MonadExceptOf ParseError m] (n : Nat) :
    Decoder m (List LookupRecord) := do
  return LookupRecord.sorted (← Decoder.array LookupRecord.record n)

/-- Read a rule without backtrack and lookahead. The count of input glyphs includes the first. -/
def ContextRule.plain (w : Window) : Except ParseError ContextRule := w.decode do
  let inputCount ← Decoder.count
  demand (inputCount > 0) ParseError.badValue
  let recordCount ← Decoder.count
  let input ← Decoder.u16s (inputCount - 1)
  let records ← Decoder.lookupRecords recordCount
  return { backtrack := #[], input, lookahead := #[], records }

/-- Read a rule with backtrack and lookahead. -/
def ContextRule.chained (w : Window) : Except ParseError ContextRule := w.decode do
  let backtrack ← Decoder.u16s (← Decoder.count)
  let inputCount ← Decoder.count
  demand (inputCount > 0) ParseError.badValue
  let input ← Decoder.u16s (inputCount - 1)
  let lookahead ← Decoder.u16s (← Decoder.count)
  let records ← Decoder.lookupRecords (← Decoder.count)
  return { backtrack, input, lookahead, records }

/-- Read a set of rules. -/
def RuleSet.ofWindow (rule : Window → Except ParseError ContextRule) (w : Window) :
    Except ParseError RuleSet := w.decode do
  w.decodeEach (← Decoder.u16s (← Decoder.count)) rule

namespace ContextLookup

variable {m : Type → Type} [Monad m] [MonadExceptOf ParseError m] [SharedTables m]

/-- Read rule sets at stored offsets. -/
def ruleSets (w : Window) (offsets : Array UInt16)
    (rule : Window → Except ParseError ContextRule) : Decoder m (Array (Option RuleSet)) :=
  w.decodeEachNullable offsets fun target => MonadExcept.ofExcept (RuleSet.ofWindow rule target)

/-- Split off the coverage of the first glyph. -/
def ofCoverages (backtrack input lookahead : Array Coverage) (records : List LookupRecord) :
    Except ParseError ContextLookup :=
  match input[0]? with
  | some first => .ok (.byCoverage first backtrack (input.extract 1 input.size) lookahead records)
  | none => .error .badValue

/-- Read a class definition that may be absent, in which case all glyphs are in class 0. -/
def optionalClassDef (w : Window) (n : UInt16) : Decoder m ClassDef :=
  if n = 0 then pure ClassDef.empty else w.classDef n

/-- Read the subtable without backtrack and lookahead at the beginning of a window. Rule sets come
    before coverages and class definitions. -/
def plain (w : Window) : m ContextLookup := w.decode do
  match ← Decoder.u16 with
  | 1 =>
    let coverageOffset ← Decoder.u16
    let sets ← ruleSets w (← Decoder.u16s (← Decoder.count)) ContextRule.plain
    return .byGlyph (← w.coverage coverageOffset) sets
  | 2 =>
    let coverageOffset ← Decoder.u16
    let classesOffset ← Decoder.u16
    let setCount ← Decoder.u16
    let sets ← ruleSets w (← Decoder.u16s setCount.toNat) ContextRule.plain
    let coverage ← w.coverage coverageOffset
    let classes ← w.classDef classesOffset
    demand (classes.isBelow setCount) ParseError.badValue
    return .byClass coverage .empty classes .empty sets
  | 3 =>
    let inputCount ← Decoder.count
    demand (inputCount > 0) ParseError.badValue
    let recordCount ← Decoder.count
    let offsets ← Decoder.u16s inputCount
    let records ← Decoder.lookupRecords recordCount
    let input ← w.coverages offsets
    MonadExcept.ofExcept (ofCoverages #[] input #[] records)
  | _ => throw ParseError.badFormat

/-- Read the subtable with backtrack and lookahead at the beginning of a window. -/
def chained (w : Window) : m ContextLookup := w.decode do
  match ← Decoder.u16 with
  | 1 =>
    let coverageOffset ← Decoder.u16
    let sets ← ruleSets w (← Decoder.u16s (← Decoder.count)) ContextRule.chained
    return .byGlyph (← w.coverage coverageOffset) sets
  | 2 =>
    let coverageOffset ← Decoder.u16
    let backtrackOffset ← Decoder.u16
    let inputOffset ← Decoder.u16
    let lookaheadOffset ← Decoder.u16
    let setCount ← Decoder.u16
    let sets ← ruleSets w (← Decoder.u16s setCount.toNat) ContextRule.chained
    let coverage ← w.coverage coverageOffset
    let backtrack ← optionalClassDef w backtrackOffset
    let input ← w.classDef inputOffset
    demand (input.isBelow setCount) ParseError.badValue
    let lookahead ← optionalClassDef w lookaheadOffset
    return .byClass coverage backtrack input lookahead sets
  | 3 =>
    let backtrackOffsets ← Decoder.u16s (← Decoder.count)
    let inputCount ← Decoder.count
    demand (inputCount > 0) ParseError.badValue
    let inputOffsets ← Decoder.u16s inputCount
    let lookaheadOffsets ← Decoder.u16s (← Decoder.count)
    let records ← Decoder.lookupRecords (← Decoder.count)
    let backtrack ← w.coverages backtrackOffsets
    let input ← w.coverages inputOffsets
    let lookahead ← w.coverages lookaheadOffsets
    MonadExcept.ofExcept (ofCoverages backtrack input lookahead records)
  | _ => throw ParseError.badFormat

end ContextLookup

end OpenTypeLayout
