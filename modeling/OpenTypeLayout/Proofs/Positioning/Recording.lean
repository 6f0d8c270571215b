import OpenTypeLayout.Proofs.Positioning.Parts
import OpenTypeLayout.Proofs.Recording

/-!
# Positioning with a record

Where a run is looked into, a record is kept beside what the source keeps, and things are noted on
the way: calls to the source, lookups that are applied, and glyphs at which they are not.

- `PosState.beside` puts the record beside the state, and `PosContext.logged` is what stays the same
  for such states.
- `PosSource.noting` notes the calls to the source.
- `Notes` says what else is noted, and `PosM.activeNoting` applies the active lookups and notes
  this.
-/

namespace OpenTypeLayout

variable {σ R : Type}

/-! ## §1 States -/

namespace PosState

/-- The state with a record. -/
def logged (s : PosState σ) (record : R) : PosState (σ × R) where
  glyphs := s.glyphs
  positions := s.positions
  chain := s.chain
  kept := (s.kept, record)

/-- The state without its record. -/
def plain (s : PosState (σ × R)) : PosState σ where
  glyphs := s.glyphs
  positions := s.positions
  chain := s.chain
  kept := s.kept.1

/-- The record is kept beside what the source keeps. -/
def beside : Beside (PosState σ) R (PosState (σ × R)) where
  join := logged
  state := plain
  record s := s.kept.2
  state_join _ _ := rfl
  record_join _ _ := rfl

@[simp] theorem beside_join (s : PosState σ) (record : R) :
    beside.join s record = s.logged record := rfl

@[simp] theorem glyphs_logged (s : PosState σ) (record : R) :
    (s.logged record).glyphs = s.glyphs := rfl

end PosState

/-! ## §2 Sources -/

/-- A call to a source. -/
inductive SourceCall where
  /-- The points of the outline of a glyph are asked for. -/
  | contour (glyph : GlyphId) (loadFlags : UInt32)
  /-- The value of a metric is asked for. -/
  | metric (id : UInt16)
deriving DecidableEq, Repr

/-- A source whose calls are noted. -/
def PosSource.noting (source : PosSource σ) (note : SourceCall → R → R) : PosSource (σ × R) where
  contour kept glyph flags :=
    let (points, after) := source.contour kept.1 glyph flags
    (points, after, note (.contour glyph flags) kept.2)
  metric kept id :=
    let (value, after) := source.metric kept.1 id
    (value, after, note (.metric id) kept.2)

/-- What stays the same, with a source whose calls are noted. -/
def PosContext.noting (c : PosContext σ) (note : SourceCall → R → R) : PosContext (σ × R) where
  gdef := c.gdef
  params := c.params
  source := c.source.noting note

/-- What stays the same, for states with a record of something else. -/
def PosContext.logged (c : PosContext σ) : PosContext (σ × R) := c.noting fun _ record => record

/-! ## §3 Lookups -/

/-- What is noted when lookups are applied: how the record changes, which may depend on
    the state. -/
structure Notes (σ R : Type) where
  /-- A lookup is going to be applied to the glyph at an index, in a context of some length. -/
  before : (lookupIndex : Nat) → Lookup Positioning → (index : Nat) → (contextLength : UInt16) →
    PosState σ → R → R := fun _ _ _ _ _ record => record
  /-- A lookup has been applied to the glyph at an index, and has answered. -/
  after : Lookup Positioning → (index : Nat) → (answer : Option Nat) → PosState σ → R → R :=
    fun _ _ _ _ record => record
  /-- The lookup of a pass is not active at the glyph at an index. -/
  inactive : (index : Nat) → PosState σ → R → R := fun _ _ record => record

namespace PosM

open PosState (beside)
open Program (within note)

/-- Apply the subtables of a lookup. Only in context are other lookups invoked, and these
    are noted. -/
def applySubtablesNoting (c : PosContext σ) (invoke' : Invoke (σ × R)) (invoke : Invoke σ)
    (lookup : Lookup Positioning) (index : Nat) (contextLength : UInt16) :
    PosM (σ × R) (Option Nat) :=
  match lookup.subtables with
  | .context subtables | .chained subtables =>
    atGlyph c.logged lookup.flag index fun item _ =>
      applyContext c.logged invoke' lookup.flag contextLength index item subtables.toList
  | _ => within beside (applySubtables c invoke lookup index contextLength)

/-- Apply a lookup, and note this and all lookups that are applied on the way. -/
def applyNoting (c : PosContext σ) (notes : Notes σ R) (layout : LayoutTable Positioning) :
    (levels : Nat) → Invoke (σ × R)
  | 0, _, _, _ => throw .tooManyNestedContexts
  | levels + 1, lookupIndex, index, contextLength => do
    let lookup ← LayoutError.ofParse (layout.lookup lookupIndex)
    note beside (notes.before lookupIndex lookup index contextLength)
    let answer ← applySubtablesNoting c (applyNoting c notes layout levels)
      (applyLookup c layout levels) lookup index contextLength
    note beside (notes.after lookup index answer)
    return answer

/-! ## §4 Passes -/

/-- A step of a pass. -/
def stepNoting (notes : Notes σ R) (apply : Nat → PosM (σ × R) (Option Nat)) (bits : UInt32)
    (item : GlyphItem) (index : Nat) : PosM (σ × R) Nat :=
  if item.isActive bits then do return (← apply index).getD (index + 1)
  else do
    note beside (notes.inactive index)
    breakChain
    return index + 1

/-- Apply a lookup to the text from an index on. -/
def loopNoting (notes : Notes σ R) (apply : Nat → PosM (σ × R) (Option Nat)) (bits : UInt32) :
    (rounds index : Nat) → PosM (σ × R) Unit
  | 0, _ => pure ()
  | rounds + 1, index => do
    match (← get).glyphs[index]? with
    | none => pure ()
    | some item => loopNoting notes apply bits rounds (← stepNoting notes apply bits item index)

/-- The pass of an active lookup over the whole text. -/
def passNoting (c : PosContext σ) (notes : Notes σ R) (table : ActiveTable Positioning)
    (lookupIndex : Nat) (bits : UInt32) : PosM (σ × R) Unit := do
  breakChain
  loopNoting notes (fun index =>
    applyNoting c notes table.layout table.nestingLimit lookupIndex index noContext)
    bits (← get).glyphs.size 0

/-- Apply active lookups in order. -/
def activeNoting (c : PosContext σ) (notes : Notes σ R) (table : ActiveTable Positioning) :
    List (Nat × UInt32) → PosM (σ × R) Unit
  | [] => pure ()
  | (lookupIndex, bits) :: rest => do
    passNoting c notes table lookupIndex bits
    activeNoting c notes table rest

/-! ## §5 Comparing runs -/

open Program (Records Quiet quiet_lift)

theorem quiet_breakChain : Quiet (beside (R := R)) (breakChain : PosM (σ × R) Unit) breakChain :=
  fun _ _ => rfl

theorem quiet_remember (c : PosContext σ) (low high : Nat) :
    Quiet (beside (R := R)) (remember c.logged low high) (remember c low high) := fun _ _ => rfl

theorem quiet_findRule (c : PosContext σ) (flag : LookupFlag) (index : Nat)
    (rules : List RuleCandidate) :
    Quiet (beside (R := R)) (findRule c.logged flag index rules) (findRule c flag index rules) :=
  fun _ _ => rfl

variable {c : PosContext σ} {s : PosState σ} {record : R} {index : Nat}
variable {answers : Option Nat → PosState σ → R → Prop}
    {fails : LayoutError → PosState σ → R → Prop}

/-- Something is done with the glyph at an index, if there is one and the flag does not make the
    lookup skip it. In any case its property is kept. -/
theorem records_atGlyph {flag : LookupFlag}
    {action' : GlyphItem → GlyphProperty → PosM (σ × R) (Option Nat)}
    {action : GlyphItem → GlyphProperty → PosM σ (Option Nat)} (hnone : answers none s record)
    (h : let t : PosState σ := { s with glyphs := rememberRange c.gdef s.glyphs index (index + 1) }
      answers none t record ∧
        ∀ item p, Records beside (action' item p) (action item p) t record answers fails) :
    Records beside (atGlyph c.logged flag index action') (atGlyph c flag index action) s record
      answers fails := by
  refine .get_bind ?_
  rw [PosState.beside_join, PosState.glyphs_logged]
  cases s.glyphs[index]? with
  | none => exact .pure hnone
  | some item =>
    refine (quiet_remember c _ _).bind (fun _ _ hrun => nomatch hrun) fun _ t hrun => ?_
    cases hrun
    dsimp only [PosContext.logged, PosContext.noting]
    cases Gdef.check c.gdef flag item with
    | none => exact .pure h.1
    | some p => exact h.2 item p

/-- Applying a lookup comes down to its subtables, between what is noted before and after them. -/
theorem records_applyNoting {notes : Notes σ R} {layout : LayoutTable Positioning}
    {levels lookupIndex : Nat} {contextLength : UInt16}
    (hfails : ∀ e, LayoutError.ofParse (layout.lookup lookupIndex) = .error e → fails e s record)
    (h : ∀ lookup, layout.lookup lookupIndex = .ok lookup →
      Records beside (applySubtablesNoting c (applyNoting c notes layout levels)
          (applyLookup c layout levels) lookup index contextLength)
        (applySubtables c (applyLookup c layout levels) lookup index contextLength) s
        (notes.before lookupIndex lookup index contextLength s record)
        (fun answer s' record' => answers answer s' (notes.after lookup index answer s' record'))
        fails) :
    Records beside (applyNoting c notes layout (levels + 1) lookupIndex index contextLength)
      (applyLookup c layout (levels + 1) lookupIndex index contextLength) s record
        answers fails := by
  rw [applyLookup_succ, applyNoting]
  refine (quiet_lift _).bind (fun e s' hrun => ?_) fun lookup t hrun => ?_
  · obtain ⟨herror, rfl⟩ := Prod.mk.inj hrun
    exact hfails e herror
  · obtain ⟨hlookup, rfl⟩ := Prod.mk.inj hrun
    exact .note_bind (.bind_note (h lookup (LayoutError.ofParse_eq_ok hlookup)))

end PosM

end OpenTypeLayout
