import OpenTypeLayout.Proofs.Lookalikes
import OpenTypeLayout.Proofs.Substitution.Emission
import OpenTypeLayout.Proofs.Substitution.Parts
import OpenTypeLayout.Proofs.Substitution.Passes

/-!
# Two ways of substituting

A text is substituted in two ways, with other glyph definitions or with something else known of its
glyphs. If the glyphs look the same either way to begin with, then both runs do the same.

- `SubstM.Coupling` is two ways of substituting together with what the glyphs have in common, and
  `Coupled` holds of the states of both.
- `Lawful.relates_applyLookup` goes through all lookup types and all nesting, and
  `Lawful.substitute` is about whole runs.
-/

namespace OpenTypeLayout

/-- In texts that look alike the same substitute is found. -/
theorem TextPlace.Alike.firstReverse {table table' : Option Gdef} {t t' : TextPlace}
    (h : TextPlace.Alike table table' t t') (flag : LookupFlag) (glyph : GlyphId)
    (subtables : List ReverseSubst) (reach : Reach) :
    SubstM.firstReverse ⟨table', flag⟩ t' glyph subtables reach =
      SubstM.firstReverse ⟨table, flag⟩ t glyph subtables reach := by
  induction subtables generalizing reach with
  | nil => rfl
  | cons subtable rest ih => simp only [SubstM.firstReverse, h.scan, ih]

namespace SubstM

open Program (Relates)

/-- Two ways of substituting, and what the glyphs of both have in common. -/
structure Coupling where
  /-- The glyph definitions of the first run. -/
  table : Option Gdef
  /-- The glyph definitions of the second run. -/
  table' : Option Gdef
  /-- What glyphs have in common. -/
  items : GlyphItem → GlyphItem → Prop

namespace Coupling

variable {σ : Type}

/-- The texts have in common what they should, and all else is the same. -/
structure Coupled (k : Coupling) (s t : SubstState σ) : Prop where
  gdef : s.gdef = k.table
  gdef' : t.gdef = k.table'
  input : Pointwise k.items s.buffer.input t.buffer.input
  output : Pointwise k.items s.buffer.output t.buffer.output
  position : t.buffer.position = s.buffer.position
  nextLigature : t.buffer.nextLigature = s.buffer.nextLigature
  kept : t.kept = s.kept

/-- Glyphs that have in common what they should look the same, and go on to do so when properties
    are kept with them. Nothing is known of new glyphs, and no classes are recorded for them. -/
structure Lawful (k : Coupling) : Prop where
  alike : ∀ {x y}, k.items x y → Gdef.Alike k.table k.table' x y
  rememberLeft : ∀ x y, k.items x y → k.items (Gdef.remember k.table x) y
  rememberRight : ∀ x y, k.items x y → k.items x (Gdef.remember k.table' y)
  unknown : ∀ x, x.known = none → k.items x x
  unrecorded : ∀ g, k.table = some g → g.recordsClasses = false
  unrecorded' : ∀ g, k.table' = some g → g.recordsClasses = false

section

variable {k : Coupling} {s t : SubstState σ}

/-- There is a current glyph in both runs, or in none. -/
theorem Coupled.current?_cases (h : k.Coupled s t) :
    (s.buffer.current? = none ∧ t.buffer.current? = none) ∨
      ∃ x y, s.buffer.current? = some x ∧ t.buffer.current? = some y ∧ k.items x y := by
  rw [GlyphBuffer.current?, GlyphBuffer.current?, h.position]
  exact h.input.getElem?_cases s.buffer.position

theorem Coupled.size_eq (h : k.Coupled s t) : t.buffer.size = s.buffer.size := h.input.size_eq

theorem Lawful.input (hk : k.Lawful) (h : k.Coupled s t) :
    TextsAlike k.table k.table' s.buffer.input t.buffer.input := h.input.mono fun _ _ => hk.alike

/-- The text around the current glyph looks alike in both runs. -/
theorem Lawful.place (hk : k.Lawful) (h : k.Coupled s t) :
    TextPlace.Alike k.table k.table' (placeOf s.buffer) (placeOf t.buffer) where
  before := h.output.mono fun _ _ => hk.alike
  beforeCount := h.output.size_eq
  items := hk.input h
  index := h.position

/-- Whatever is written in the place of glyphs that are the same is the same. -/
theorem Lawful.replacement (hk : k.Lawful) {x y : GlyphItem} (hxy : k.items x y)
    (component ligature : UInt16) (glyph : GlyphId) :
    k.items (GlyphBuffer.replacement x component ligature glyph)
      (GlyphBuffer.replacement y component ligature glyph) := by
  have hsame : GlyphBuffer.replacement y component ligature glyph =
      GlyphBuffer.replacement x component ligature glyph := by
    have hbare := (hk.alike hxy).bare
    cases x
    cases y
    cases hbare
    rfl
  rw [hsame]
  exact hk.unknown _ rfl

theorem Lawful.replaced (hk : k.Lawful) {x y : GlyphItem} (hxy : k.items x y) (glyph : GlyphId) :
    k.items { x with glyph, known := none } { y with glyph, known := none } := by
  have hsame : { y with glyph, known := none } = { x with glyph, known := none } := by
    have hbare := (hk.alike hxy).bare
    cases x
    cases y
    cases hbare
    rfl
  rw [hsame]
  exact hk.unknown _ rfl

end

namespace Lawful

variable {k : Coupling} {x y : GlyphItem}

/-! ## §1 Single steps -/

theorem relates_rememberInput (hk : k.Lawful) (low high : Nat) :
    Relates (k.Coupled (σ := σ)) Eq (rememberInput low high) (rememberInput low high) := by
  refine .modify fun s t h => { h with input := ?_ }
  rw [h.gdef, h.gdef']
  exact (h.input.rememberRange_left hk.rememberLeft low high).rememberRange_right hk.rememberRight
    low high

theorem relates_rememberOutput (hk : k.Lawful) (low : Nat) :
    Relates (k.Coupled (σ := σ)) Eq (rememberOutput low) (rememberOutput low) := by
  refine .modify fun s t h => { h with output := ?_ }
  rw [h.gdef, h.gdef']
  exact (h.output.rememberRange_left hk.rememberLeft low _).rememberRange_right hk.rememberRight
    low _

theorem relates_current {s t : SubstState σ} (h : k.Coupled s t) :
    Relates (k.Coupled (σ := σ)) k.items (liftM s.buffer.current) (liftM t.buffer.current) := by
  rw [GlyphBuffer.current, GlyphBuffer.current]
  rcases h.current?_cases with ⟨hx, hy⟩ | ⟨x, y, hx, hy, hxy⟩
  · rw [hx, hy]
    exact .throw _
  · rw [hx, hy]
    exact .pure hxy

theorem relates_replaced {s t : SubstState σ} (h : k.Coupled s t) (count : Nat) :
    Relates (k.Coupled (σ := σ)) k.items (liftM (s.buffer.replaced count))
      (liftM (t.buffer.replaced count)) := by
  rw [GlyphBuffer.replaced, GlyphBuffer.replaced, h.position, h.input.size_eq]
  split
  · exact relates_current h
  · exact .throw _

theorem relates_emit (hk : k.Lawful) (count : Nat) (glyphs : Array GlyphId)
    (component ligature : UInt16) :
    Relates (k.Coupled (σ := σ)) Eq (emit count glyphs component ligature)
      (emit count glyphs component ligature) := by
  refine .get_bind fun s t h => (relates_replaced h count).bind fun x y hxy => ?_
  refine .modify fun s t h => { h with output := ?_, position := congrArg (· + count) h.position }
  rw [GlyphBuffer.output_put, GlyphBuffer.output_put]
  exact h.output.append (.map_same glyphs fun glyph => hk.replacement hxy component ligature glyph)

theorem relates_copy : Relates (k.Coupled (σ := σ)) Eq copy copy := by
  refine .get_bind fun s t h => (relates_current h).bind fun x y hxy => ?_
  exact .modify fun s t h => { h with
    output := h.output.push hxy
    position := congrArg (· + 1) h.position }

theorem relates_copyUnless (applied : Bool) :
    Relates (k.Coupled (σ := σ)) Eq (copyUnless applied) (copyUnless applied) :=
  .ite (.pure rfl) relates_copy

theorem relates_allocateLigature :
    Relates (k.Coupled (σ := σ)) Eq allocateLigature allocateLigature := fun _ _ h =>
  .answered h.nextLigature.symm { h with nextLigature := congrArg (· + 1) h.nextLigature }

/-- No classes are recorded. -/
theorem relates_recordClass (hk : k.Lawful) (p : GlyphProperty) (glyph : GlyphId) :
    Relates (k.Coupled (σ := σ)) Eq (recordClass p glyph) (recordClass p glyph) := by
  -- each run leaves its state as it is, whatever the other one does
  have hnothing : ∀ s : SubstState σ, (∀ g, s.gdef = some g → g.recordsClasses = false) →
      Program.outcome (recordClass p glyph) s = (.ok (), s) := by
    intro s hs
    rw [recordClass, Program.outcome_get_bind]
    cases hgdef : s.gdef with
    | none => rfl
    | some g =>
      dsimp only
      rw [hs g hgdef]
      rfl
  intro s t h
  rw [hnothing s (h.gdef ▸ hk.unrecorded), hnothing t (h.gdef' ▸ hk.unrecorded')]
  exact .answered rfl h

theorem relates_atCurrent (hk : k.Lawful)
    {action action' : GlyphItem → GlyphProperty → SubstM σ Bool} (flag : LookupFlag)
    (haction : ∀ x y p, k.items x y → Relates k.Coupled Eq (action x p) (action' y p)) :
    Relates k.Coupled Eq (atCurrent flag action) (atCurrent flag action') := by
  have hcurrent : Relates (k.Coupled (σ := σ))
      (Option.Rel fun found found' => k.items found.1 found'.1 ∧ found'.2 = found.2)
      (current flag) (current flag) := by
    refine .get_bind fun s t h => (relates_current h).bind fun x y hxy => ?_
    -- the glyphs are alike, so the flag admits both or neither, with one property
    dsimp only
    rw [h.position, h.gdef, h.gdef', (hk.alike hxy).check]
    refine (hk.relates_rememberInput _ _).andThen fun _ => .pure ?_
    cases Gdef.check k.table flag x with
    | none => exact .none
    | some p => exact .some ⟨hxy, rfl⟩
  refine hcurrent.bind fun found found' hfound => ?_
  cases hfound with
  | none => exact .pure rfl
  | @some found found' h =>
    obtain ⟨x, p⟩ := found
    obtain ⟨y, p'⟩ := found'
    obtain ⟨hxy, rfl⟩ := h
    exact haction x y p' hxy

/-! ## §2 Lookups without context -/

theorem relates_applySingle (hk : k.Lawful) (subtables : Array SingleSubst)
    (p : GlyphProperty) (hxy : k.items x y) :
    Relates (k.Coupled (σ := σ)) Eq (applySingle subtables x p) (applySingle subtables y p) := by
  unfold applySingle
  rw [(hk.alike hxy).glyph]
  refine (Relates.lift _).andThen fun found => ?_
  cases found with
  | none => exact .pure rfl
  | some glyph =>
    refine (hk.relates_emit _ _ _ _).andThen fun _ => ?_
    exact (hk.relates_recordClass p glyph).andThen fun _ => .pure rfl

theorem relates_recordClasses (hk : k.Lawful) (p : GlyphProperty) (glyphs : List GlyphId) :
    Relates (k.Coupled (σ := σ)) Eq (glyphs.forM (recordClass p))
      (glyphs.forM (recordClass p)) := by
  induction glyphs with
  | nil => exact .pure rfl
  | cons glyph rest ih => exact (hk.relates_recordClass p glyph).andThen fun _ => ih

theorem relates_applyMultiple (hk : k.Lawful) (subtables : Array MultipleSubst)
    (p : GlyphProperty) (hxy : k.items x y) :
    Relates (k.Coupled (σ := σ)) Eq (applyMultiple subtables x p)
      (applyMultiple subtables y p) := by
  unfold applyMultiple
  rw [(hk.alike hxy).glyph]
  refine (Relates.lift _).andThen fun found => ?_
  cases found with
  | none => exact .pure rfl
  | some glyphs =>
    refine (hk.relates_emit _ _ _ _).andThen fun _ => ?_
    exact (hk.relates_recordClasses _ glyphs.toList).andThen fun _ => .pure rfl

theorem relates_applyAlternate (hk : k.Lawful) (chooser : AlternateChooser σ)
    (subtables : Array AlternateSubst) (p : GlyphProperty) (hxy : k.items x y) :
    Relates k.Coupled Eq (applyAlternate chooser subtables x p)
      (applyAlternate chooser subtables y p) := by
  unfold applyAlternate
  rw [(hk.alike hxy).glyph]
  refine (Relates.lift _).andThen fun found => ?_
  cases found with
  | none => exact .pure rfl
  | some alternates =>
    refine .get_bind fun s t h => ?_
    dsimp only
    rw [h.kept, h.position]
    refine Relates.andThen (.modify fun _ _ h => { h with kept := rfl }) fun _ => ?_
    cases alternates[(chooser.choose s.kept s.buffer.position x.glyph alternates).1]? with
    | none => exact .throw _
    | some glyph =>
      refine (hk.relates_emit _ _ _ _).andThen fun _ => ?_
      exact (hk.relates_recordClass p glyph).andThen fun _ => .pure rfl

/-! ## §3 Ligatures -/

theorem relates_emitSkipped (hk : k.Lawful)
    (component : Nat) (ligature : UInt16) (place rounds : Nat) :
    Relates (k.Coupled (σ := σ)) Eq (emitSkipped component ligature place rounds)
      (emitSkipped component ligature place rounds) := by
  induction rounds with
  | zero => exact .pure rfl
  | succ rounds ih =>
    refine .get_bind fun s t h => ?_
    dsimp only
    rw [h.position]
    refine .ite ((relates_current h).bind fun x y hxy => ?_) (.pure rfl)
    rw [(hk.alike hxy).glyph]
    exact (Relates.lift _).andThen fun _ => (hk.relates_emit _ _ _ _).andThen fun _ => ih

theorem relates_emitComponents (hk : k.Lawful) (ligature : UInt16) (component : Nat)
    (places : List Nat) :
    Relates (k.Coupled (σ := σ)) Eq (emitComponents ligature component places)
      (emitComponents ligature component places) := by
  induction places generalizing component with
  | nil => exact .pure rfl
  | cons place rest ih =>
    refine .get_bind fun s t h => ?_
    rw [h.position]
    refine (hk.relates_emitSkipped _ _ _ _).andThen fun _ => ?_
    exact Relates.andThen (.modify fun _ _ h => { h with position := rfl }) fun _ => ih _

theorem relates_emitLigature (hk : k.Lawful) (glyph : GlyphId) (places : List Nat) :
    Relates (k.Coupled (σ := σ)) Eq (emitLigature glyph places) (emitLigature glyph places) := by
  refine .get_bind fun s t h => ?_
  -- whether a new number is needed depends on the one that the current glyph has
  have hown : t.buffer.current?.map GlyphItem.ligature =
      s.buffer.current?.map GlyphItem.ligature := by
    rcases h.current?_cases with ⟨hx, hy⟩ | ⟨x, y, hx, hy, hxy⟩
    · rw [hx, hy]
    · rw [hx, hy, Option.map_some, Option.map_some, (hk.alike hxy).ligature]
  dsimp only
  rw [h.position, hown]
  refine .ite ?_ ?_
  · refine .ite (Relates.andThen (.pure rfl) fun _ => hk.relates_emit _ _ _ _) ?_
    exact relates_allocateLigature.andThen fun _ => hk.relates_emit _ _ _ _
  · refine relates_allocateLigature.andThen fun _ => ?_
    exact (hk.relates_emit _ _ _ _).andThen fun _ => hk.relates_emitComponents _ _ _

/-- The same ligature is found. -/
theorem relates_findLigature (hk : k.Lawful)
    (flag : LookupFlag) (contextLength : UInt16) (isMark : Bool) (ligatures : List Ligature) :
    Relates (k.Coupled (σ := σ)) Eq (findLigature flag contextLength isMark ligatures)
      (findLigature flag contextLength isMark ligatures) := by
  refine .get_bind fun s t h => ?_
  dsimp only
  rw [h.gdef, h.gdef', h.position, (hk.input h).firstLigature]
  exact (hk.relates_rememberInput _ _).andThen fun _ => .pure rfl

theorem relates_applyLigature (hk : k.Lawful) (flag : LookupFlag) (contextLength : UInt16)
    (p : GlyphProperty) (subtables : List LigatureSubst) (hxy : k.items x y) :
    Relates (k.Coupled (σ := σ)) Eq (applyLigature flag contextLength x p subtables)
      (applyLigature flag contextLength y p subtables) := by
  induction subtables with
  | nil => exact .pure rfl
  | cons subtable rest ih =>
    rw [applyLigature_cons, applyLigature_cons, (hk.alike hxy).glyph]
    refine (Relates.lift _).andThen fun found => ?_
    cases found with
    | none => exact ih
    | some ligatures =>
      refine (hk.relates_findLigature _ _ _ _).andThen fun found => ?_
      cases found with
      | none => exact ih
      | some found =>
        refine (hk.relates_recordClass _ _).andThen fun _ => ?_
        exact (hk.relates_emitLigature _ _).andThen fun _ => .pure rfl

/-! ## §4 Lookups in context -/

variable {invoke invoke' : Invoke σ}

theorem relates_applyRecords
    (hinvoke : ∀ index n, Relates k.Coupled Eq (invoke index n) (invoke' index n))
    (places : List Nat) (last rounds : Nat) (records : List LookupRecord) :
    Relates k.Coupled Eq (applyRecords invoke places last rounds records)
      (applyRecords invoke' places last rounds records) := by
  induction rounds generalizing records with
  | zero => exact .pure rfl
  | succ rounds ih =>
    rw [applyRecords_succ, applyRecords_succ]
    refine .get_bind fun s t h => ?_
    dsimp only
    rw [h.position]
    refine .ite (Relates.andThen (.andThen ?_ relates_copyUnless) fun _ => ih _) (.pure rfl)
    cases (nextRecord places s.buffer.position records).1 with
    | none => exact .pure rfl
    | some r => exact (Relates.lift _).andThen fun n => hinvoke r.lookupIndex.toNat n

theorem relates_applyRule (hk : k.Lawful)
    (hinvoke : ∀ index n, Relates k.Coupled Eq (invoke index n) (invoke' index n))
    (flag : LookupFlag) (rule : RuleMatch) :
    Relates k.Coupled Eq (applyRule invoke flag rule) (applyRule invoke' flag rule) := by
  refine .get_bind fun s t h => ?_
  dsimp only
  rw [h.gdef, h.gdef', h.position, (hk.input h).rulePlaces]
  exact relates_applyRecords hinvoke _ _ _ _

/-- The same rule is found. -/
theorem relates_findRule (hk : k.Lawful) (flag : LookupFlag) (rules : List RuleCandidate) :
    Relates (k.Coupled (σ := σ)) Eq (findRule flag rules) (findRule flag rules) := by
  refine .get_bind fun s t h => ?_
  dsimp only
  rw [h.gdef, h.gdef', (hk.place h).firstMatch, (hk.place h).reach, h.position]
  refine (hk.relates_rememberOutput _).andThen fun _ => ?_
  exact (hk.relates_rememberInput _ _).andThen fun _ => .pure rfl

theorem relates_applyContext (hk : k.Lawful)
    (hinvoke : ∀ index n, Relates k.Coupled Eq (invoke index n) (invoke' index n))
    (flag : LookupFlag) (contextLength : UInt16) (subtables : List ContextLookup)
    (hxy : k.items x y) :
    Relates k.Coupled Eq (applyContext invoke flag contextLength x subtables)
      (applyContext invoke' flag contextLength y subtables) := by
  induction subtables with
  | nil => exact .pure rfl
  | cons subtable rest ih =>
    rw [applyContext_cons, applyContext_cons, (hk.alike hxy).glyph]
    refine (Relates.lift _).andThen fun rules => ?_
    refine (hk.relates_findRule flag rules).andThen fun found => ?_
    cases found with
    | none => exact ih
    | some rule => exact (hk.relates_applyRule hinvoke flag rule).andThen fun _ => .pure rfl

theorem relates_applySubtables (hk : k.Lawful) (chooser : AlternateChooser σ)
    (hinvoke : ∀ index n, Relates k.Coupled Eq (invoke index n) (invoke' index n))
    (lookup : Lookup Substitution) (contextLength : UInt16) :
    Relates k.Coupled Eq (applySubtables chooser invoke lookup contextLength)
      (applySubtables chooser invoke' lookup contextLength) := by
  obtain ⟨flag, subtables⟩ := lookup
  cases subtables with
  | single subtables =>
    exact .ite (hk.relates_atCurrent flag fun _ _ => hk.relates_applySingle subtables) (.pure rfl)
  | multiple subtables =>
    exact .ite (hk.relates_atCurrent flag fun _ _ => hk.relates_applyMultiple subtables) (.pure rfl)
  | alternate subtables =>
    exact .ite (hk.relates_atCurrent flag fun _ _ => hk.relates_applyAlternate chooser subtables)
      (.pure rfl)
  | ligature subtables =>
    exact .ite (hk.relates_atCurrent flag fun _ _ p =>
      hk.relates_applyLigature flag contextLength p subtables.toList) (.pure rfl)
  | context subtables | chained subtables =>
    exact hk.relates_atCurrent flag fun _ _ _ =>
      hk.relates_applyContext hinvoke flag contextLength subtables.toList
  | reverse subtables => exact .pure rfl

/-- By induction on the levels: rules invoke lookups with one level less. -/
theorem relates_applyLookup (hk : k.Lawful) (chooser : AlternateChooser σ)
    (layout : LayoutTable Substitution) (levels index : Nat) (contextLength : UInt16) :
    Relates k.Coupled Eq (applyLookup chooser layout levels index contextLength)
      (applyLookup chooser layout levels index contextLength) := by
  induction levels generalizing index contextLength with
  | zero => exact .throw _
  | succ levels ih =>
    rw [applyLookup_succ]
    refine (Relates.lift _).andThen fun lookup => ?_
    exact hk.relates_applySubtables chooser ih lookup contextLength

/-! ## §5 Passes -/

theorem relates_forwardPass (hk : k.Lawful) {apply apply' : SubstM σ Bool}
    (h : Relates k.Coupled Eq apply apply') (bits : UInt32) (rounds : Nat) :
    Relates k.Coupled Eq (forwardPass apply bits rounds) (forwardPass apply' bits rounds) := by
  induction rounds with
  | zero => exact .pure rfl
  | succ rounds ih =>
    rw [forwardPass_succ, forwardPass_succ]
    refine .get_bind fun s t hs => ?_
    rcases hs.current?_cases with ⟨hx, hy⟩ | ⟨x, y, hx, hy, hxy⟩
    · rw [hx, hy]
      exact .pure rfl
    · rw [hx, hy]
      dsimp only [passStep]
      rw [(hk.alike hxy).isActive]
      exact Relates.andThen (.andThen (.ite h (.pure rfl)) relates_copyUnless) fun _ => ih

theorem relates_reverseAt (hk : k.Lawful) (subtables : List ReverseSubst)
    (flag : LookupFlag) (bits : UInt32) (index : Nat) :
    Relates (k.Coupled (σ := σ)) Eq (reverseAt subtables flag bits index)
      (reverseAt subtables flag bits index) := by
  refine .get_bind fun s t h => ?_
  rcases h.input.getElem?_cases index with ⟨hx, hy⟩ | ⟨x, y, hx, hy, hxy⟩
  · rw [hx, hy]
    exact .pure rfl
  · -- the input is what is before the glyph and also what comes after it
    have hplace : TextPlace.Alike k.table k.table' ⟨s.buffer.input, index, s.buffer.input, index⟩
        ⟨t.buffer.input, index, t.buffer.input, index⟩ := ⟨hk.input h, rfl, hk.input h, rfl⟩
    rw [hx, hy]
    dsimp only
    rw [h.gdef, h.gdef', (hk.alike hxy).isActive, (hk.alike hxy).check]
    refine .ite ?_ (.pure rfl)
    cases Gdef.check k.table flag x with
    | none => exact hk.relates_rememberInput _ _
    | some p =>
      dsimp only
      rw [(hk.alike hxy).glyph, hplace.firstReverse, hplace.reach]
      refine (hk.relates_rememberInput _ _).andThen fun _ => ?_
      cases (firstReverse ⟨k.table, flag⟩ ⟨s.buffer.input, index, s.buffer.input, index⟩ x.glyph
        subtables (TextPlace.reach ⟨s.buffer.input, index, s.buffer.input, index⟩)).1 with
      | none => exact .pure rfl
      | some glyph =>
        refine Relates.andThen (.modify fun s t h => ?_) fun _ => hk.relates_recordClass p glyph
        exact { h with input := h.input.modify index fun x y hxy => hk.replaced hxy glyph }

theorem relates_reversePass (hk : k.Lawful) (subtables : List ReverseSubst)
    (flag : LookupFlag) (bits : UInt32) (count : Nat) :
    Relates (k.Coupled (σ := σ)) Eq (reversePass subtables flag bits count)
      (reversePass subtables flag bits count) := by
  induction count with
  | zero => exact .pure rfl
  | succ index ih => exact (hk.relates_reverseAt subtables flag bits index).andThen fun _ => ih

theorem relates_passOf (hk : k.Lawful) (chooser : AlternateChooser σ)
    (table : ActiveTable Substitution) (index : Nat) (bits : UInt32)
    (lookup : Lookup Substitution) :
    Relates k.Coupled Eq (passOf chooser table index bits lookup)
      (passOf chooser table index bits lookup) := by
  unfold passOf
  cases lookup.subtables with
  | reverse subtables =>
    refine .get_bind fun s t h => ?_
    rw [h.size_eq]
    exact hk.relates_reversePass subtables.toList lookup.flag bits _
  | _ =>
    refine .get_bind fun s t h => ?_
    dsimp only
    rw [h.size_eq, h.position]
    refine Relates.andThen (hk.relates_forwardPass ?_ bits _) fun _ => ?_
    · exact hk.relates_applyLookup chooser table.layout table.nestingLimit index noContext
    · exact .modify fun s t h => { h with input := h.output, output := .empty, position := rfl }

theorem relates_applyActive (hk : k.Lawful) (chooser : AlternateChooser σ)
    (table : ActiveTable Substitution) (active : List (Nat × UInt32)) :
    Relates k.Coupled Eq (applyActive chooser table active) (applyActive chooser table active) := by
  induction active with
  | nil => exact .pure rfl
  | cons first rest ih =>
    rw [applyActive_cons, pass_eq]
    refine Relates.andThen ?_ fun _ => ih
    exact (Relates.lift _).andThen fun lookup => hk.relates_passOf chooser table _ _ lookup

end Lawful

/-! ## §6 Whole runs -/

/-- Both runs have the same result, and what they leave has in common what it should. -/
theorem Lawful.substitute {k : Coupling} (hk : k.Lawful) (table : ActiveTable Substitution)
    (chooser : AlternateChooser σ) {s t : SubstState σ} (h : k.Coupled s t) :
    (table.substitute chooser t).1 = (table.substitute chooser s).1 ∧
      k.Coupled (table.substitute chooser s).2 (table.substitute chooser t).2 := by
  have hempty : t.buffer.input.isEmpty = s.buffer.input.isEmpty := by
    rw [Array.isEmpty, Array.isEmpty, h.input.size_eq]
  cases hs : s.buffer.input.isEmpty with
  | true =>
    rw [ActiveTable.substitute, ActiveTable.substitute, hempty, hs, if_pos rfl, if_pos rfl]
    exact ⟨rfl, h⟩
  | false =>
    rw [substitute_eq_outcome chooser table hs,
      substitute_eq_outcome chooser table (hempty.trans hs)]
    have hrun := hk.relates_applyActive chooser table table.active s t h
    exact ⟨hrun.answer_eq, hrun.states⟩

end Coupling

end SubstM

/-- Substituting leaves the glyph definitions as they are, unless classes have been built. -/
theorem substitute_gdef {σ : Type} (table : ActiveTable Substitution) (chooser : AlternateChooser σ)
    {s : SubstState σ} (h : ∀ g, s.gdef = some g → g.recordsClasses = false) :
    (table.substitute chooser s).2.gdef = s.gdef := by
  -- a run beside itself: the definitions are the same at the end because a coupling says which they
  -- are
  let k : SubstM.Coupling := ⟨s.gdef, s.gdef, Gdef.Alike s.gdef s.gdef⟩
  have hk : k.Lawful := {
    alike := id
    rememberLeft := fun _ _ hxy => hxy.remember_left
    rememberRight := fun _ _ hxy => hxy.remember_right
    unknown := fun x _ => .refl _ x
    unrecorded := h
    unrecorded' := h }
  have hself : ∀ items, Pointwise (Gdef.Alike s.gdef s.gdef) items items := fun _ =>
    .refl fun x _ => .refl _ x
  have hs : k.Coupled s s := ⟨rfl, rfl, hself _, hself _, rfl, rfl, rfl⟩
  exact (hk.substitute table chooser hs).2.gdef

end OpenTypeLayout
