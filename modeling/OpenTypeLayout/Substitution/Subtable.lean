import OpenTypeLayout.ContextLookup
import OpenTypeLayout.CoverageMap
import OpenTypeLayout.LookupList

/-!
# Substitution subtables

What a subtable of each lookup type says about a glyph. A subtable applies to the glyphs that its
coverage table covers, and finds what to do by coverage index.
-/

namespace OpenTypeLayout

/-! ## §1 Subtables -/

/-- One glyph for one glyph. -/
inductive SingleSubst where
  /-- A number is added to the number of a covered glyph. -/
  | delta (coverage : Coverage) (amount : UInt16)
  /-- Each covered glyph has a substitute. -/
  | list (substitutes : CoverageMap GlyphId)
deriving DecidableEq, Repr, Inhabited

/-- The substitute of a glyph. The addition goes round after the last glyph number. -/
def SingleSubst.apply (s : SingleSubst) (glyph : GlyphId) : Except ParseError (Option GlyphId) :=
  match s with
  | .delta coverage amount => .ok (if coverage.covers glyph then some (glyph + amount) else none)
  | .list substitutes => substitutes.find glyph

theorem SingleSubst.apply_error {s : SingleSubst} {glyph : GlyphId} {cause : ParseError}
    (h : s.apply glyph = .error cause) : cause = .badIndex := by
  cases s with
  | delta => cases h
  | list => exact CoverageMap.find_error h

/-- Several glyphs, or none, for one glyph. -/
abbrev MultipleSubst := CoverageMap (Array GlyphId)

/-- One of several glyphs for one glyph. -/
abbrev AlternateSubst := CoverageMap (Array GlyphId)

/-- A glyph that stands for several. -/
structure Ligature where
  /-- The ligature. -/
  glyph : GlyphId
  /-- The components after the first. -/
  components : Array GlyphId
deriving DecidableEq, Repr, Inhabited

/-- The number of glyphs that the ligature stands for. -/
def Ligature.count (l : Ligature) : Nat := l.components.size + 1

/-- Ligatures by their first component. -/
abbrev LigatureSubst := CoverageMap (Array Ligature)

/-- One glyph for one glyph in a context, applied from the end of the text. -/
structure ReverseSubst where
  /-- The glyphs that are substituted. -/
  coverage : Coverage
  /-- What is before, the nearest glyph first. -/
  backtrack : Array Coverage
  /-- What is after. -/
  lookahead : Array Coverage
  /-- The substitutes by coverage index. -/
  substitutes : Array GlyphId
deriving DecidableEq, Repr, Inhabited

namespace ReverseSubst

/-- The substitute of a glyph, whatever its context. -/
def substitute? (s : ReverseSubst) (glyph : GlyphId) : Option GlyphId := do
  s.substitutes[(← s.coverage.index? glyph).toNat]?

/-- The context that the substitution asks for. -/
def context (s : ReverseSubst) : ContextPattern where
  backtrack := .coverages s.backtrack
  input := .empty
  lookahead := .coverages s.lookahead

end ReverseSubst

/-- The subtables of a substitution lookup. -/
inductive Substitution where
  /-- One glyph for one. -/
  | single (subtables : Array SingleSubst)
  /-- Several glyphs for one. -/
  | multiple (subtables : Array MultipleSubst)
  /-- One of several glyphs for one. -/
  | alternate (subtables : Array AlternateSubst)
  /-- One glyph for several. -/
  | ligature (subtables : Array LigatureSubst)
  /-- Other lookups in a context of input glyphs. -/
  | context (subtables : Array ContextLookup)
  /-- Other lookups in a context with glyphs before and after. -/
  | chained (subtables : Array ContextLookup)
  /-- One glyph for one in a context, from the end of the text. -/
  | reverse (subtables : Array ReverseSubst)
deriving DecidableEq, Repr, Inhabited

/-! ## §2 Reading -/

section Load

variable {m : Type → Type} [Monad m] [MonadExceptOf ParseError m] [SharedTables m]

/-- Read a coverage table and the entries at stored offsets, in the only format that there is. -/
def CoverageMap.load {α : Type} (entry : Window → Except ParseError α) (w : Window) :
    m (CoverageMap α) := w.decode do
  demand ((← Decoder.u16) = 1) ParseError.badFormat
  let coverage ← w.coverage (← Decoder.u16)
  let offsets ← Decoder.u16s (← Decoder.count)
  let entries ← w.decodeEach offsets fun target => MonadExcept.ofExcept (entry target)
  return { coverage, entries }

/-- Read a single substitution subtable. -/
def SingleSubst.load (w : Window) : m SingleSubst := w.decode do
  match ← Decoder.u16 with
  | 1 =>
    let coverage ← w.coverage (← Decoder.u16)
    return .delta coverage (← Decoder.u16)
  | 2 =>
    let coverage ← w.coverage (← Decoder.u16)
    return .list { coverage, entries := ← Decoder.u16s (← Decoder.count) }
  | _ => throw ParseError.badFormat

/-- Read the glyphs that one glyph is replaced by. There may be none. -/
def readSequence (w : Window) : Except ParseError (Array GlyphId) := w.decode do
  Decoder.u16s (← Decoder.count)

/-- Read the alternates of a glyph. There has to be one. -/
def readAlternates (w : Window) : Except ParseError (Array GlyphId) := w.decode do
  let count ← Decoder.count
  demand (count > 0) ParseError.badValue
  Decoder.u16s count

/-- Read a ligature. The count of components includes the first, which is not listed. -/
def Ligature.ofWindow (w : Window) : Except ParseError Ligature := w.decode do
  let glyph ← Decoder.u16
  let count ← Decoder.count
  demand (count > 0) ParseError.badValue
  return { glyph, components := ← Decoder.u16s (count - 1) }

/-- Read the ligatures that begin with one glyph. -/
def readLigatures (w : Window) : Except ParseError (Array Ligature) := w.decode do
  w.decodeEach (← Decoder.u16s (← Decoder.count)) Ligature.ofWindow

/-- Read a reverse chaining subtable. It has one substitute for each covered glyph. -/
def ReverseSubst.load (w : Window) : m ReverseSubst := w.decode do
  demand ((← Decoder.u16) = 1) ParseError.badFormat
  let coverageOffset ← Decoder.u16
  let backtrackOffsets ← Decoder.u16s (← Decoder.count)
  let lookaheadOffsets ← Decoder.u16s (← Decoder.count)
  let substitutes ← Decoder.u16s (← Decoder.count)
  let coverage ← w.coverage coverageOffset
  let backtrack ← w.coverages backtrackOffsets
  let lookahead ← w.coverages lookaheadOffsets
  -- the only lookup type whose count is checked against the coverage
  demand (coverage.count == substitutes.size) ParseError.badValue
  return { coverage, backtrack, lookahead, substitutes }

/-- Read the subtables of a substitution lookup. -/
def Substitution.load (lookupType : UInt16) (subtables : Array Window) : m Substitution :=
  match lookupType with
  | 1 => .single <$> subtables.mapM SingleSubst.load
  | 2 => .multiple <$> subtables.mapM (CoverageMap.load readSequence)
  | 3 => .alternate <$> subtables.mapM (CoverageMap.load readAlternates)
  | 4 => .ligature <$> subtables.mapM (CoverageMap.load readLigatures)
  | 5 => .context <$> subtables.mapM ContextLookup.plain
  | 6 => .chained <$> subtables.mapM ContextLookup.chained
  | 8 => .reverse <$> subtables.mapM ReverseSubst.load
  | _ => throw ParseError.badFormat

end Load

/-- The lookup types of substitutions. -/
instance : LookupFamily Substitution where
  extensionType := 7
  typeOf
    | .single _ => 1
    | .multiple _ => 2
    | .alternate _ => 3
    | .ligature _ => 4
    | .context _ => 5
    | .chained _ => 6
    | .reverse _ => 8
  count
    | .single subtables => subtables.size
    | .multiple subtables => subtables.size
    | .alternate subtables => subtables.size
    | .ligature subtables => subtables.size
    | .context subtables => subtables.size
    | .chained subtables => subtables.size
    | .reverse subtables => subtables.size
  load := Substitution.load

end OpenTypeLayout
