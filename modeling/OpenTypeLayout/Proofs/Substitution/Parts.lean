import OpenTypeLayout.Proofs.Substitution.Context

/-!
# The parts of substituting

Some programs of substituting are put together from parts that are worth a name of their own.
Looking for a rule is one of them, and so is what a lookup does once it is known which lookup it is.
-/

namespace OpenTypeLayout

namespace SubstM

variable {σ : Type}

/-- The text around the current glyph. -/
def placeOf (b : GlyphBuffer) : TextPlace where
  before := b.output
  beforeCount := b.output.size
  items := b.input
  index := b.position

/-- Look for the first rule that matches at the current glyph. The properties of the glyphs that are
    looked at are kept. -/
def findRule (flag : LookupFlag) (rules : List RuleCandidate) : SubstM σ (Option RuleMatch) := do
  let s ← get
  let place := placeOf s.buffer
  let (found, reach) := firstMatch ⟨s.gdef, flag⟩ place rules place.reach
  rememberOutput reach.low
  rememberInput (s.buffer.position + 1) reach.high
  return found

theorem applyContext_cons (invoke : Invoke σ) (flag : LookupFlag) (contextLength : UInt16)
    (item : GlyphItem) (subtable : ContextLookup) (rest : List ContextLookup) :
    applyContext invoke flag contextLength item (subtable :: rest) = (do
      let rules ← LayoutError.ofParse (subtable.candidates item.glyph contextLength)
      match ← findRule flag rules with
      | none => applyContext invoke flag contextLength item rest
      | some rule => do
        applyRule invoke flag rule
        return true) := rfl

/-- Apply the subtables of a lookup at the current glyph. -/
def applySubtables (chooser : AlternateChooser σ) (invoke : Invoke σ)
    (lookup : Lookup Substitution) (contextLength : UInt16) : SubstM σ Bool :=
  let flag := lookup.flag
  let single := fitsContext 1 contextLength
  match lookup.subtables with
  | .single subtables =>
    if single then atCurrent flag (applySingle subtables) else return false
  | .multiple subtables =>
    if single then atCurrent flag (applyMultiple subtables) else return false
  | .alternate subtables =>
    if single then atCurrent flag (applyAlternate chooser subtables) else return false
  | .ligature subtables =>
    if single then
      atCurrent flag fun item p => applyLigature flag contextLength item p subtables.toList
    else return false
  | .context subtables | .chained subtables =>
    atCurrent flag fun item _ => applyContext invoke flag contextLength item subtables.toList
  | .reverse _ => return false

theorem applyLookup_succ (chooser : AlternateChooser σ) (layout : LayoutTable Substitution)
    (levels index : Nat) (contextLength : UInt16) :
    applyLookup chooser layout (levels + 1) index contextLength = (do
      let lookup ← LayoutError.ofParse (layout.lookup index)
      applySubtables chooser (applyLookup chooser layout levels) lookup contextLength) := by
  rw [applyLookup]
  congr 1

end SubstM

end OpenTypeLayout
