import OpenTypeLayout.ActiveTable
import OpenTypeLayout.GlyphBuffer
import OpenTypeLayout.Substitution.Subtable

/-!
# Applying substitutions

Lookups are applied one after the other, each of them to the whole text. A pass reads the input
of a glyph buffer from the front: where the lookup applies it writes replacements, and everywhere
else it copies the glyph. Then the output becomes the input of the next pass.

- `SubstM` is a computation on a buffer that may fail. What was done before a failure stays done.
- `applyLookup` applies one lookup at the current glyph and says whether it did. Contextual
  lookups invoke others; how deeply they still may is the argument that the recursion is on.
- `ActiveTable.substitute` applies all active lookups.
-/

namespace OpenTypeLayout

/-! ## §1 State -/

/-- Picks one of the alternates of a glyph: from what it has kept so far, the place in the input,
    the glyph and the alternates it makes an index and what it keeps from then on. -/
structure AlternateChooser (σ : Type) where
  /-- Make a choice. -/
  choose : σ → Nat → GlyphId → Array GlyphId → Nat × σ

/-- Always the first alternate. -/
def AlternateChooser.first {σ : Type} : AlternateChooser σ := ⟨fun kept _ _ _ => (0, kept)⟩

/-- What substitution works on. -/
structure SubstState (σ : Type) where
  /-- The text. -/
  buffer : GlyphBuffer
  /-- The glyph definitions, in which the classes of new glyphs are recorded. -/
  gdef : Option Gdef
  /-- What the chooser of alternates keeps. -/
  kept : σ

/-- A computation that works on the state of substitution and may fail. -/
abbrev SubstM (σ : Type) := Program (SubstState σ)

namespace SubstM

variable {σ : Type}

/-! ## §2 Single steps -/

/-- Change the buffer. -/
def modifyBuffer (f : GlyphBuffer → GlyphBuffer) : SubstM σ Unit :=
  modify fun s => { s with buffer := f s.buffer }

/-- Keep the properties of the input glyphs from `low` up to, and not including, `high`. -/
def rememberInput (low high : Nat) : SubstM σ Unit :=
  modify fun s => { s with buffer := { s.buffer with
    input := rememberRange s.gdef s.buffer.input low high } }

/-- Keep the properties of the output glyphs from `low` on. -/
def rememberOutput (low : Nat) : SubstM σ Unit :=
  modify fun s => { s with buffer := { s.buffer with
    output := rememberRange s.gdef s.buffer.output low s.buffer.output.size } }

/-- Put glyphs in the place of the next `count` input glyphs. -/
def emit (count : Nat) (glyphs : Array GlyphId) (component ligature : UInt16) :
    SubstM σ Unit := do
  let item ← (← get).buffer.replaced count
  modifyBuffer fun b => b.put item count glyphs component ligature

/-- Copy the current glyph. -/
def copy : SubstM σ Unit := do
  let item ← (← get).buffer.current
  modifyBuffer fun b => b.putItem item

/-- Hand out a ligature number. -/
def allocateLigature : SubstM σ UInt16 :=
  modifyGet fun s =>
    let (ligature, buffer) := s.buffer.allocateLigature
    (ligature, { s with buffer })

/-- Record the class of a glyph that has been written, if the font takes classes. -/
def recordClass (p : GlyphProperty) (glyph : GlyphId) : SubstM σ Unit := do
  match (← get).gdef with
  | none => pure ()
  | some g =>
    if g.recordsClasses then
      let (_, g) ← g.record glyph p.basic
      modify fun s => { s with gdef := some g }

/-- The current glyph and its property, if a lookup with the flag processes it. -/
def current (flag : LookupFlag) : SubstM σ (Option (GlyphItem × GlyphProperty)) := do
  let s ← get
  let item ← s.buffer.current
  -- the property is kept whether or not the lookup skips the glyph
  let found := (Gdef.check s.gdef flag item).map fun p => (item, p)
  let place := s.buffer.position
  rememberInput place (place + 1)
  return found

/-- Do something at the current glyph if a lookup with the flag processes it. -/
def atCurrent (flag : LookupFlag) (action : GlyphItem → GlyphProperty → SubstM σ Bool) :
    SubstM σ Bool := do
  match ← current flag with
  | none => return false
  | some (item, p) => action item p

/-! ## §3 Lookups without context -/

/-- Put one glyph in the place of the current one. -/
def applySingle (subtables : Array SingleSubst) (item : GlyphItem) (p : GlyphProperty) :
    SubstM σ Bool := do
  match ← LayoutError.ofParse (firstAnswer (fun s => s.apply item.glyph) subtables.toList) with
  | none => return false
  | some glyph =>
    emit 1 #[glyph] inherit inherit
    recordClass p glyph
    return true

/-- Put several glyphs, or none, in the place of the current one. The parts of a ligature are
    bases. -/
def applyMultiple (subtables : Array MultipleSubst) (item : GlyphItem) (p : GlyphProperty) :
    SubstM σ Bool := do
  match ← LayoutError.ofParse (firstAnswer (fun s => s.find item.glyph) subtables.toList) with
  | none => return false
  | some glyphs =>
    emit 1 glyphs inherit inherit
    -- the pieces of a ligature are no ligatures themselves
    glyphs.toList.forM (recordClass (if p = .ligature then .base else p))
    return true

/-- Let the chooser pick the glyph to put in the place of the current one. -/
def applyAlternate (chooser : AlternateChooser σ) (subtables : Array AlternateSubst)
    (item : GlyphItem) (p : GlyphProperty) : SubstM σ Bool := do
  match ← LayoutError.ofParse (firstAnswer (fun s => s.find item.glyph) subtables.toList) with
  | none => return false
  | some alternates =>
    let s ← get
    let (index, kept) := chooser.choose s.kept s.buffer.position item.glyph alternates
    modify fun s => { s with kept }
    -- what the chooser keeps is kept even if its choice is not one of the alternates
    match alternates[index]? with
    | none => throw (.parse .badIndex)
    | some glyph =>
      emit 1 #[glyph] inherit inherit
      recordClass p glyph
      return true

end SubstM

/-! ## §4 Ligatures -/

/-- Components that were found in a text. -/
structure LigatureMatch where
  /-- The places of the components. -/
  places : List Nat
  /-- Whether all components are marks. -/
  allMarks : Bool
deriving DecidableEq, Repr, Inhabited

/-- Find components after an index, and say up to where the text has been looked at. -/
def matchComponents (f : GlyphFilter) (items : Array GlyphItem) :
    List GlyphId → (index : Nat) → (allMarks : Bool) → Option LigatureMatch × Nat
  | [], index, allMarks => (some ⟨[index], allMarks⟩, index + 1)
  | component :: rest, index, allMarks =>
    match f.next? items index with
    | none => (none, items.size)
    | some found =>
      match items[found]? with
      -- does not happen: what is found is inside the text
      | none => (none, items.size)
      | some item =>
        if item.glyph = component then
          let isMark := (Gdef.check f.table f.flag item).any GlyphProperty.isMark
          let (result, bound) := matchComponents f items rest found (allMarks && isMark)
          (result.map fun m => { m with places := index :: m.places }, bound)
        else (none, found + 1)

/-- Find the components of a ligature, the first of which is at an index. There have to be that
    many glyphs, and they have to fit the context. -/
def Ligature.search (l : Ligature) (f : GlyphFilter) (contextLength : UInt16)
    (items : Array GlyphItem) (index : Nat) (isMark : Bool) : Option LigatureMatch × Nat :=
  if fitsContext l.count contextLength && index + l.count ≤ items.size then
    matchComponents f items l.components.toList index isMark
  else (none, index + 1)

/-- The first ligature whose components are found, and up to where the text has been looked at. -/
def firstLigature (f : GlyphFilter) (contextLength : UInt16) (items : Array GlyphItem)
    (index : Nat) (isMark : Bool) : List Ligature → Nat → Option (GlyphId × LigatureMatch) × Nat
  | [], bound => (none, bound)
  | l :: rest, bound =>
    match l.search f contextLength items index isMark with
    | (some m, seen) => (some (l.glyph, m), max bound seen)
    | (none, seen) => firstLigature f contextLength items index isMark rest (max bound seen)

namespace SubstM

variable {σ : Type}

/-- Write again the input glyphs up to a place, as parts of a ligature that follow a component. -/
def emitSkipped (component : Nat) (ligature : UInt16) (place : Nat) : (rounds : Nat) →
    SubstM σ Unit
  | 0 => pure ()
  | rounds + 1 => do
    let b := (← get).buffer
    if b.position < place then
      let item ← b.current
      -- the glyph is written anew, so what was known of it is forgotten
      emit 1 #[item.glyph] (← fit16 component) ligature
      emitSkipped component ligature place rounds

/-- Go past the components of a ligature after the first, writing again what is between them. -/
def emitComponents (ligature : UInt16) : (component : Nat) → List Nat → SubstM σ Unit
  | _, [] => pure ()
  | component, place :: rest => do
    emitSkipped component ligature place (place - (← get).buffer.position)
    modifyBuffer fun b => { b with position := place + 1 }
    emitComponents ligature (component + 1) rest

/-- Put a ligature in the place of its components. If they follow each other directly, a ligature
    number that the first one has is kept. If glyphs were skipped between them, these are written
    after the ligature and get its number and the component that they follow. -/
def emitLigature (glyph : GlyphId) (places : List Nat) : SubstM σ Unit := do
  let b := (← get).buffer
  let position := b.position
  let own := (b.current?.map GlyphItem.ligature).getD 0
  -- nothing was skipped exactly if the last place is as far off as there are components
  if places.getLast? = some (position + places.length - 1) then
    let ligature ← if own ≠ 0 then pure inherit else allocateLigature
    emit places.length #[glyph] inherit ligature
  else
    let ligature ← allocateLigature
    emit 1 #[glyph] inherit ligature
    emitComponents ligature 0 places.tail

/-- Put a ligature in the place of its components, which begin at the current glyph. The subtables
    are tried in order, and in each of them the ligatures that begin with the glyph. -/
def applyLigature (flag : LookupFlag) (contextLength : UInt16) (item : GlyphItem)
    (p : GlyphProperty) : List LigatureSubst → SubstM σ Bool
  | [] => return false
  | subtable :: rest => do
    match ← LayoutError.ofParse (subtable.find item.glyph) with
    | none => applyLigature flag contextLength item p rest
    | some ligatures =>
      let s ← get
      let place := s.buffer.position
      let (found, bound) := firstLigature ⟨s.gdef, flag⟩ contextLength s.buffer.input place
        p.isMark ligatures.toList (place + 1)
      rememberInput (place + 1) bound
      match found with
      | none => applyLigature flag contextLength item p rest
      | some (glyph, m) =>
        -- marks that form a ligature are a mark again
        recordClass (if m.allMarks then .mark else .ligature) glyph
        emitLigature glyph m.places
        return true

end SubstM

/-! ## §5 Lookups in context -/

namespace SubstM

variable {σ : Type}

/-- A lookup invoked with an index and a context length. -/
abbrev Invoke (σ : Type) := Nat → UInt16 → SubstM σ Bool

/-- Apply the records of a rule up to its last glyph, and copy the glyphs at which there is nothing
    to apply. -/
def applyRecords (invoke : Invoke σ) (places : List Nat) (last : Nat) : (rounds : Nat) →
    List LookupRecord → SubstM σ Unit
  | 0, _ => pure ()
  | rounds + 1, records => do
    let position := (← get).buffer.position
    if position ≤ last then
      -- one record at most for each round: whether or not its lookup applies, the round moves on
      let (record, rest) := nextRecord places position records
      let applied ← match record with
        | some r => do
          invoke r.lookupIndex.toNat (← fit16 (remainingFrom places position))
        | none => pure false
      if !applied then copy
      applyRecords invoke places last rounds rest

/-- Apply a rule whose context matches at the current glyph. -/
def applyRule (invoke : Invoke σ) (flag : LookupFlag) (rule : RuleMatch) : SubstM σ Unit := do
  let s ← get
  let position := s.buffer.position
  let places := rule.places ⟨s.gdef, flag⟩ s.buffer.input position
  let last := places.getLast?.getD position
  -- every round goes past at least one glyph
  applyRecords invoke places last (last + 1 - position) rule.records

/-- Apply the first rule that matches at the current glyph. Backtrack is compared with what has
    been written. -/
def applyContext (invoke : Invoke σ) (flag : LookupFlag) (contextLength : UInt16)
    (item : GlyphItem) : List ContextLookup → SubstM σ Bool
  | [] => return false
  | subtable :: rest => do
    let rules ← LayoutError.ofParse (subtable.candidates item.glyph contextLength)
    let s ← get
    let place : TextPlace := {
      before := s.buffer.output
      beforeCount := s.buffer.output.size
      items := s.buffer.input
      index := s.buffer.position }
    let index := s.buffer.position
    let (found, reach) := firstMatch ⟨s.gdef, flag⟩ place rules place.reach
    rememberOutput reach.low
    rememberInput (index + 1) reach.high
    match found with
    | none => applyContext invoke flag contextLength item rest
    | some rule =>
      applyRule invoke flag rule
      return true

/-- Apply a lookup at the current glyph, and say whether it applied. Every invocation takes one of
    the levels that are left. -/
def applyLookup (chooser : AlternateChooser σ) (table : LayoutTable Substitution) :
    (levels : Nat) → Invoke σ
  | 0, _, _ => throw .tooManyNestedContexts
  | levels + 1, index, contextLength => do
    let lookup ← LayoutError.ofParse (table.lookup index)
    let flag := lookup.flag
    let single := fitsContext 1 contextLength
    match lookup.subtables with
    | .single subtables =>
      if single then atCurrent flag (applySingle subtables) else return false
    | .multiple subtables =>
      if single then atCurrent flag (applyMultiple subtables) else return false
    | .alternate subtables =>
      if single then atCurrent flag (applyAlternate chooser subtables) else return false
    | .ligature subtables =>
      if single then
        atCurrent flag fun item p => applyLigature flag contextLength item p subtables.toList
      else return false
    | .context subtables =>
      atCurrent flag fun item _ =>
        applyContext (applyLookup chooser table levels) flag contextLength item subtables.toList
    | .chained subtables =>
      atCurrent flag fun item _ =>
        applyContext (applyLookup chooser table levels) flag contextLength item subtables.toList
    -- a lookup that runs from the end cannot be invoked at one place
    | .reverse _ => return false

/-! ## §6 Passes -/

/-- Apply a lookup to the input from the current glyph on. Glyphs at which it is not active, or
    does not apply, are copied. -/
def forwardPass (apply : SubstM σ Bool) (bits : UInt32) : (rounds : Nat) → SubstM σ Unit
  | 0 => pure ()
  | rounds + 1 => do
    match (← get).buffer.current? with
    | none => pure ()
    | some item =>
      -- a lookup that applies has written what replaces the glyph
      let applied ← if item.isActive bits then apply else pure false
      if !applied then copy
      forwardPass apply bits rounds

/-- The substitute that the first of some subtables has for a glyph in its context, and how far the
    text around it has been looked at. -/
def firstReverse (f : GlyphFilter) (t : TextPlace) (glyph : GlyphId) : List ReverseSubst → Reach →
    Option GlyphId × Reach
  | [], reach => (none, reach)
  | subtable :: rest, reach =>
    match subtable.substitute? glyph with
    | none => firstReverse f t glyph rest reach
    | some substitute =>
      let (matched, seen) := subtable.context.scan f t
      if matched then (some substitute, reach.union seen)
      else firstReverse f t glyph rest (reach.union seen)

/-- Substitute one input glyph in place if it is active, the lookup processes it, and its context
    matches. -/
def reverseAt (subtables : List ReverseSubst) (flag : LookupFlag) (bits : UInt32) (index : Nat) :
    SubstM σ Unit := do
  let s ← get
  match s.buffer.input[index]? with
  | none => pure ()
  | some item =>
    if item.isActive bits then
      match Gdef.check s.gdef flag item with
      | none => rememberInput index (index + 1)
      | some p =>
        let place : TextPlace := {
          before := s.buffer.input, beforeCount := index, items := s.buffer.input, index }
        let (found, reach) := firstReverse ⟨s.gdef, flag⟩ place item.glyph subtables place.reach
        rememberInput reach.low reach.high
        match found with
        | none => pure ()
        | some glyph =>
          modifyBuffer fun b => b.replaceInput index glyph
          recordClass p glyph

/-- Apply a reverse chaining lookup to the first `count` input glyphs, from the last to the
    first. -/
def reversePass (subtables : List ReverseSubst) (flag : LookupFlag) (bits : UInt32) :
    (count : Nat) → SubstM σ Unit
  | 0 => pure ()
  | index + 1 => do
    reverseAt subtables flag bits index
    reversePass subtables flag bits index

/-- Apply active lookups in order. -/
def applyActive (chooser : AlternateChooser σ) (table : ActiveTable Substitution) :
    List (Nat × UInt32) → SubstM σ Unit
  | [] => pure ()
  | (index, bits) :: rest => do
    let lookup ← LayoutError.ofParse (table.layout.lookup index)
    match lookup.subtables with
    -- substitutes go into the input, so there is nothing to swap
    | .reverse subtables =>
      reversePass subtables.toList lookup.flag bits (← get).buffer.size
    | _ =>
      let b := (← get).buffer
      forwardPass (applyLookup chooser table.layout table.nestingLimit index noContext) bits
        (b.size - b.position)
      modifyBuffer GlyphBuffer.swap
    applyActive chooser table rest

end SubstM

/-- Apply every active lookup to a text. There has to be a glyph. -/
def ActiveTable.substitute {σ : Type} (table : ActiveTable Substitution)
    (chooser : AlternateChooser σ) (state : SubstState σ) :
    Except LayoutError Unit × SubstState σ :=
  if state.buffer.input.isEmpty then (.error .invalidArgument, state)
  else ((SubstM.applyActive chooser table table.active).run).run state

end OpenTypeLayout
