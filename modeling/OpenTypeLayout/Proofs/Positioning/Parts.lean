import OpenTypeLayout.Positioning.Apply
import OpenTypeLayout.Proofs.Lookalikes

/-!
# The parts of positioning

Some programs of positioning are put together from parts that are worth a name of their own: looking
for a rule, one round of working through a rule, what a lookup does once it is known which lookup it
is, and the pass of one lookup.
-/

namespace OpenTypeLayout

namespace PosM

variable {σ : Type} (c : PosContext σ)

/-! ## §1 Rules -/

/-- Invoke the lookup of a record, if there is a record. -/
def invokeRecord (invoke : Invoke σ) (places : List Nat) (index : Nat) :
    Option LookupRecord → PosM σ (Option Nat)
  | some r => do invoke r.lookupIndex.toNat index (← fit16 (remainingFrom places index))
  | none => return none

theorem applyRecords_succ (invoke : Invoke σ) (places : List Nat) (last rounds index : Nat)
    (records : List LookupRecord) :
    applyRecords invoke places last (rounds + 1) index records =
      if index ≤ last then do
        let found := nextRecord places index records
        let next ← invokeRecord invoke places index found.1
        applyRecords invoke places last rounds (next.getD (index + 1)) found.2
      else return index := by
  rw [applyRecords]
  split
  case isFalse => rfl
  case isTrue =>
    dsimp only
    cases (nextRecord places index records).1 with
    | none => simp only [invokeRecord, pure_bind]
    | some r => simp only [invokeRecord, bind_assoc]

/-- Look for the first rule that matches at an index. The properties of the glyphs that are looked
    at are kept. -/
def findRule (flag : LookupFlag) (index : Nat) (rules : List RuleCandidate) :
    PosM σ (Option RuleMatch) := do
  let s ← get
  let place : TextPlace := { before := s.glyphs, beforeCount := index, items := s.glyphs, index }
  let (found, reach) := firstMatch ⟨c.gdef, flag⟩ place rules place.reach
  remember c reach.low reach.high
  return found

theorem applyContext_cons (invoke : Invoke σ) (flag : LookupFlag) (contextLength : UInt16)
    (index : Nat) (item : GlyphItem) (subtable : ContextLookup) (rest : List ContextLookup) :
    applyContext c invoke flag contextLength index item (subtable :: rest) = (do
      let rules ← LayoutError.ofParse (subtable.candidates item.glyph contextLength)
      match ← findRule c flag index rules with
      | none => applyContext c invoke flag contextLength index item rest
      | some rule => return some (← applyRule c invoke flag rule index)) := rfl

/-! ## §2 Joins -/

/-- Join the glyph at an index to the last glyph of the chain, if there is a chain and the glyph can
    be joined. -/
def joinToChain (index : Nat) (item : GlyphItem) (joins : EntryExit) : PosM σ Unit := do
  match (← get).chain, joins.entry with
  | some (last, exit), some entry => do join c index (← anchorPoint c entry item.glyph) last exit
  | _, _ => pure ()

/-- Let the chain go on from the glyph at an index, if another glyph can be joined to it. -/
def continueChain (index : Nat) (item : GlyphItem) (joins : EntryExit) : PosM σ Unit :=
  match joins.exit with
  | none => breakChain
  | some exit => do
    let exit ← anchorPoint c exit item.glyph
    modify fun s => { s with chain := some (index, exit) }

theorem applyCursive_eq (subtables : Array CursivePos) (index : Nat) (item : GlyphItem)
    (p : GlyphProperty) :
    applyCursive c subtables index item p =
      if p.isMark then do
        breakChain
        return none
      else do
        match ← LayoutError.ofParse
            (firstAnswer (fun s => s.find item.glyph) subtables.toList) with
        | none => do
          breakChain
          return none
        | some joins => do
          joinToChain c index item joins
          continueChain c index item joins
          return some (index + 1) := by
  unfold applyCursive
  split
  case isTrue => rfl
  case isFalse =>
    congr 1
    funext found
    cases found with
    | none => rfl
    | some joins =>
      -- what is done depends on the chain and on which of its two anchors the glyph has
      simp only [joinToChain, continueChain, bind_assoc]
      congr 1
      funext s
      rcases s.chain with _ | ⟨last, exit⟩ <;> rcases joins.entry with _ | entry <;>
        rcases joins.exit with _ | exit' <;> simp only [bind_assoc, pure_bind]

/-! ## §3 Lookups -/

/-- Apply the subtables of a lookup to the glyph at an index. -/
def applySubtables (invoke : Invoke σ) (lookup : Lookup Positioning) (index : Nat)
    (contextLength : UInt16) : PosM σ (Option Nat) :=
  let flag := lookup.flag
  let single := fitsContext 1 contextLength
  match lookup.subtables with
  | .single subtables =>
    if single then atGlyph c flag index fun item _ => applySingle c subtables index item
    else return none
  | .pair subtables =>
    if fitsContext 2 contextLength then
      atGlyph c flag index fun item _ => applyPair c flag subtables index item
    else return none
  | .cursive subtables =>
    if single then atGlyph c flag index (applyCursive c subtables index)
    else do
      breakChain
      return none
  | .markBase subtables =>
    if single && !flag.ignoresBases then
      atGlyph c flag index fun item _ => applyMarkBase c subtables index item
    else return none
  | .markLigature subtables =>
    if single && !flag.ignoresLigatures then
      atGlyph c flag index fun item _ => applyMarkLigature c subtables index item
    else return none
  | .markMark subtables =>
    if single && !flag.ignoresMarks then
      atGlyph c flag index fun item _ => applyMarkMark c flag subtables index item
    else return none
  | .context subtables | .chained subtables =>
    atGlyph c flag index fun item _ =>
      applyContext c invoke flag contextLength index item subtables.toList

theorem applyLookup_succ (layout : LayoutTable Positioning) (levels lookupIndex index : Nat)
    (contextLength : UInt16) :
    applyLookup c layout (levels + 1) lookupIndex index contextLength = (do
      let lookup ← LayoutError.ofParse (layout.lookup lookupIndex)
      applySubtables c (applyLookup c layout levels) lookup index contextLength) := by
  rw [applyLookup]
  congr 1

variable {c}

/-- A lookup that answers has worked through its subtables. -/
theorem applyLookup_eq_ok {layout : LayoutTable Positioning} {lookup : Lookup Positioning}
    {levels lookupIndex index : Nat} {contextLength : UInt16}
    {answer : Option Nat} {s s' : PosState σ} (hlookup : layout.lookup lookupIndex = .ok lookup)
    (hrun : Program.outcome (applyLookup c layout levels lookupIndex index contextLength) s =
      (.ok answer, s')) :
    ∃ invoke,
      Program.outcome (applySubtables c invoke lookup index contextLength) s =
        (.ok answer, s') := by
  cases levels with
  | zero => cases hrun
  | succ levels =>
    rw [applyLookup_succ, hlookup] at hrun
    exact ⟨_, hrun⟩

/-- At a glyph that a lookup skips, it does no more than to keep the property of it. -/
theorem atGlyph_eq_ok {flag : LookupFlag} {index : Nat}
    {action : GlyphItem → GlyphProperty → PosM σ (Option Nat)} {item : GlyphItem}
    {answer : Option Nat} {s s' : PosState σ} (hitem : s.glyphs[index]? = some item)
    (hrun : Program.outcome (atGlyph c flag index action) s = (.ok answer, s')) :
    let t : PosState σ := { s with glyphs := rememberRange c.gdef s.glyphs index (index + 1) }
    (Gdef.check c.gdef flag item = none ∧ answer = none ∧ s' = t) ∨
      ∃ p, Gdef.check c.gdef flag item = some p ∧
        Program.outcome (action item p) t = (.ok answer, s') := by
  rw [atGlyph, Program.outcome_get_bind, hitem] at hrun
  dsimp only at hrun
  cases hcheck : Gdef.check c.gdef flag item with
  | none =>
    rw [hcheck] at hrun
    cases hrun
    exact .inl ⟨rfl, rfl, rfl⟩
  | some p =>
    rw [hcheck] at hrun
    exact .inr ⟨p, rfl, hrun⟩

variable (c)

/-! ## §4 Passes -/

/-- One step of a pass: a lookup is applied at an index if it is active there. The answer is the
    index of the next step. -/
def passStep (apply : Nat → PosM σ (Option Nat)) (bits : UInt32) (item : GlyphItem) (index : Nat) :
    PosM σ Nat :=
  if item.isActive bits then do return (← apply index).getD (index + 1)
  else do
    breakChain
    return index + 1

theorem pass_succ (apply : Nat → PosM σ (Option Nat)) (bits : UInt32) (rounds index : Nat) :
    pass apply bits (rounds + 1) index = (do
      match (← get).glyphs[index]? with
      | none => pure ()
      | some item => do pass apply bits rounds (← passStep apply bits item index)) := by
  rw [pass]
  congr 1
  funext s
  cases s.glyphs[index]? with
  | none => rfl
  | some item =>
    dsimp only [passStep]
    split <;> simp only [bind_assoc, pure_bind]

/-- The pass of an active lookup over the whole text. No chain comes over from the pass before. -/
def passOf (table : ActiveTable Positioning) (lookupIndex : Nat) (bits : UInt32) : PosM σ Unit := do
  breakChain
  pass (fun index => applyLookup c table.layout table.nestingLimit lookupIndex index noContext)
    bits (← get).glyphs.size 0

theorem applyActive_cons (table : ActiveTable Positioning) (lookupIndex : Nat) (bits : UInt32)
    (rest : List (Nat × UInt32)) :
    applyActive c table ((lookupIndex, bits) :: rest) =
      passOf c table lookupIndex bits >>= fun _ => applyActive c table rest := by
  simp only [applyActive, passOf, bind_assoc]

/-- Positioning a text makes a pass for each active lookup, unless there is no glyph. -/
theorem position_eq (table : ActiveTable Positioning) {before : PosOutcome σ}
    (h : before.glyphs.isEmpty = false) :
    table.position c before =
      let run := Program.outcome (applyActive c table table.active) {
        glyphs := before.glyphs
        positions := Array.replicate before.glyphs.size {}
        chain := none
        kept := before.kept }
      (run.1, { glyphs := run.2.glyphs, positions := run.2.positions, kept := run.2.kept }) := by
  rw [ActiveTable.position, h, if_neg Bool.false_ne_true]
  rfl

end PosM

/-- A mark attaches to the same glyph in texts that look alike. -/
theorem TextsAlike.markTarget? {table table' : Option Gdef} {items items' : Array GlyphItem}
    (h : TextsAlike table table' items items') (index : Nat) :
    PosM.markTarget? table' items' index = PosM.markTarget? table items index := by
  induction index with
  | zero => rfl
  | succ index ih =>
    rw [PosM.markTarget?, PosM.markTarget?]
    rcases h.getElem?_cases index with ⟨hx, hy⟩ | ⟨x, y, hx, hy, hxy⟩
    · rw [hx, hy]
    · rw [hx, hy]
      simp only [hxy.propertyIn, ih]

end OpenTypeLayout
