import OpenTypeLayout.Proofs.Invocation
import OpenTypeLayout.Proofs.Locate

/-!
# The formats of rules

A contextual subtable is written with glyphs, with classes of glyphs or with coverage tables. The
first two formats say nothing that coverage tables could not: a glyph is the same as a coverage
table of just that glyph, and a class is the same as a coverage table of all glyphs of the class.

- `Coverage.ofTest` is the coverage table of the glyphs that pass a test.
- `ContextLookup.expanded` lists the subtables with coverage tables that stand for the rules which a
  subtable has for a glyph.
- `findRule_eq_expanded` says that looking for a rule comes to the same in both forms.
-/

namespace OpenTypeLayout

/-! ## §1 Coverage tables of given glyphs -/

namespace Coverage

/-- All glyph numbers in order. -/
def allGlyphs : List GlyphId := List.ofFn fun i : Fin UInt16.size => UInt16.ofFin i

theorem mem_allGlyphs (glyph : GlyphId) : glyph ∈ allGlyphs := by
  simp only [allGlyphs, List.mem_ofFn]
  exact ⟨glyph.toFin, rfl⟩

theorem pairwise_allGlyphs : allGlyphs.Pairwise (· < ·) := by
  rw [allGlyphs, List.pairwise_iff_getElem]
  intro i j hi hj hij
  rw [List.getElem_ofFn, List.getElem_ofFn]
  exact hij

/-- The coverage table of the glyphs that pass a test. -/
def ofTest (test : GlyphId → Bool) : Coverage := .glyphs (allGlyphs.filter test).toArray

@[simp] theorem covers_ofTest (test : GlyphId → Bool) (glyph : GlyphId) :
    (ofTest test).covers glyph = test glyph := by
  have hascending : (allGlyphs.filter test).toArray.toList.Pairwise (· < ·) := by
    rw [List.toList_toArray]
    exact pairwise_allGlyphs.filter test
  rw [Bool.eq_iff_iff, ofTest, covers_glyphs_iff hascending]
  simp [mem_allGlyphs]

/-- The coverage table of a single glyph. -/
def single (glyph : GlyphId) : Coverage := ofTest (· == glyph)

@[simp] theorem covers_single (glyph g : GlyphId) : (single glyph).covers g = (g == glyph) :=
  covers_ofTest _ g

/-- The coverage table of the glyphs of a class. Glyphs that the definition does not mention are in
    class 0. -/
def ofClass (definition : ClassDef) (c : UInt16) : Coverage :=
  ofTest fun g => definition.value g == c

@[simp] theorem covers_ofClass (definition : ClassDef) (c : UInt16) (g : GlyphId) :
    (ofClass definition c).covers g = (definition.value g == c) :=
  covers_ofTest _ g

end Coverage

/-! ## §2 Patterns that ask for the same -/

/-- Two patterns ask for the same glyphs at the same places. -/
structure GlyphPattern.SameAs (p q : GlyphPattern) : Prop where
  length : q.length = p.length
  accepts : ∀ place glyph, q.accepts place glyph = p.accepts place glyph

namespace GlyphPattern.SameAs

variable {p q : GlyphPattern}

theorem acceptsAt (h : SameAs p q) (place : Nat) (items : Array GlyphItem) (index : Nat) :
    q.acceptsAt place items index = p.acceptsAt place items index := by
  simp only [GlyphPattern.acceptsAt, h.accepts]

theorem scanBack (h : SameAs p q) (f : GlyphFilter) (items : Array GlyphItem) (index : Nat) :
    f.scanBack q items index = f.scanBack p items index := by
  have hfrom : ∀ left place index,
      f.scanBackFrom q items left place index = f.scanBackFrom p items left place index := by
    intro left
    induction left with
    | zero => exact fun _ _ => rfl
    | succ left ih =>
      intro place index
      simp only [GlyphFilter.scanBackFrom, h.acceptsAt, ih]
  rw [GlyphFilter.scanBack, GlyphFilter.scanBack, h.length, hfrom]

theorem scanFront (h : SameAs p q) (f : GlyphFilter) (items : Array GlyphItem) (index : Nat) :
    f.scanFront q items index = f.scanFront p items index := by
  have hfrom : ∀ left place index,
      f.scanFrontFrom q items left place index = f.scanFrontFrom p items left place index := by
    intro left
    induction left with
    | zero => exact fun _ _ => rfl
    | succ left ih =>
      intro place index
      simp only [GlyphFilter.scanFrontFrom, h.acceptsAt, ih]
  rw [GlyphFilter.scanFront, GlyphFilter.scanFront, h.length, hfrom]

theorem glyphs (list : Array GlyphId) :
    SameAs (.glyphs list) (.coverages (list.map Coverage.single)) where
  length := Array.size_map
  accepts place glyph := by
    simp only [GlyphPattern.accepts, Array.getElem?_map]
    cases list[place]? with
    | none => rfl
    | some g =>
      rw [Option.map_some, Option.any_some, Coverage.covers_single, Option.some_beq_some]
      exact Bool.beq_comm

theorem classes (definition : ClassDef) (list : Array UInt16) :
    SameAs (.classes definition list) (.coverages (list.map (Coverage.ofClass definition))) where
  length := Array.size_map
  accepts place glyph := by
    simp only [GlyphPattern.accepts, Array.getElem?_map]
    cases list[place]? with
    | none => rfl
    | some c =>
      rw [Option.map_some, Option.any_some, Coverage.covers_ofClass, Option.some_beq_some]
      exact Bool.beq_comm

end GlyphPattern.SameAs

/-- Contexts match in the same places if they ask for the same on all sides. -/
theorem ContextPattern.isMatch_of_sameAs {c d : ContextPattern}
    (hbacktrack : c.backtrack.SameAs d.backtrack) (hinput : c.input.SameAs d.input)
    (hlookahead : c.lookahead.SameAs d.lookahead) (f : GlyphFilter) (t : TextPlace) :
    d.isMatch f t = c.isMatch f t := by
  simp only [isMatch, scan, hbacktrack.scanBack, hinput.scanFront, hlookahead.scanFront]

/-! ## §3 Rules with coverage tables -/

/-- The subtable that has a rule as its only one, for the given first glyph, with numbers read as
    coverage tables. -/
def ContextRule.withCoverages (r : ContextRule) (first : GlyphId)
    (backtrack input lookahead : UInt16 → Coverage) : ContextLookup :=
  .byCoverage (.single first) (r.backtrack.map backtrack) (r.input.map input)
    (r.lookahead.map lookahead) r.records

namespace ContextLookup

/-- The rules that a subtable written with glyphs or classes has for a glyph. With glyphs, they are
    those of the coverage index of the glyph. With classes, they are those of the class of the
    glyph, if the glyph is covered. -/
def ruleSet (c : ContextLookup) (glyph : GlyphId) : RuleSet :=
  match c with
  | .byGlyph coverage sets =>
    ((coverage.index? glyph).bind fun index => sets[index.toNat]?.join).getD #[]
  | .byClass coverage _ input _ sets =>
    if coverage.covers glyph then (sets[(input.value glyph).toNat]?.join).getD #[] else #[]
  | .byCoverage .. => #[]

/-- The subtables with coverage tables that stand for the rules which a subtable has for a glyph, in
    the order of the rules. -/
def expanded (c : ContextLookup) (glyph : GlyphId) : List ContextLookup :=
  match c with
  | .byGlyph .. =>
    (c.ruleSet glyph).toList.map fun r => r.withCoverages glyph .single .single .single
  | .byClass _ backtrack input lookahead _ =>
    (c.ruleSet glyph).toList.map fun r =>
      r.withCoverages glyph (.ofClass backtrack) (.ofClass input) (.ofClass lookahead)
  | .byCoverage .. => [c]

/-- Whether the subtable is written with glyphs, and the coverage index of a glyph is past its rule
    sets. -/
def lacksRuleSet (c : ContextLookup) (glyph : GlyphId) : Bool :=
  match c with
  | .byGlyph coverage sets => (coverage.index? glyph).any fun index => sets.size ≤ index.toNat
  | _ => false

variable {contextLength : UInt16} {f : GlyphFilter} {t : TextPlace} {glyph : GlyphId}

/-- A rule with coverage tables applies where the rule with numbers fits and matches. -/
theorem findRule_withCoverages (r : ContextRule) (context : ContextPattern)
    {backtrack input lookahead : UInt16 → Coverage}
    (hbacktrack : context.backtrack.SameAs (.coverages (r.backtrack.map backtrack)))
    (hinput : context.input.SameAs (.coverages (r.input.map input)))
    (hlookahead : context.lookahead.SameAs (.coverages (r.lookahead.map lookahead))) :
    (r.withCoverages glyph backtrack input lookahead).findRule glyph contextLength
        (fun p => p.isMatch f t) =
      .ok (if fitsContext (r.input.size + 1) contextLength && context.isMatch f t then
        some ⟨r.input.size + 1, r.records⟩ else none) := by
  -- the glyph of the rule is the only one covered, so the rule is the only candidate
  rw [findRule, ContextRule.withCoverages, candidates, Coverage.covers_single, beq_self_eq_true,
    Bool.true_and, Array.size_map]
  cases fitsContext (r.input.size + 1) contextLength with
  | false => rfl
  | true =>
    have hmatch := ContextPattern.isMatch_of_sameAs (d := {
      backtrack := .coverages (r.backtrack.map backtrack)
      input := .coverages (r.input.map input)
      lookahead := .coverages (r.lookahead.map lookahead) }) hbacktrack hinput hlookahead f t
    simp only [if_true, Except.map, List.find?_singleton, hmatch, Bool.true_and]
    cases context.isMatch f t <;> rfl

/-- What the first of several subtables answers is enough to know. Nobody has to look into the
    subtable, which would take long for a coverage table of all glyphs of a class. -/
theorem firstAnswer_cons {α β : Type} {answer : α → Except ParseError (Option β)} {a : α}
    {found : Option β} (h : answer a = .ok found) (rest : List α) :
    firstAnswer answer (a :: rest) =
      found.elim (firstAnswer answer rest) fun b => .ok (some b) := by
  rw [firstAnswer, h]
  cases found <;> rfl

variable (glyph contextLength f t) in
/-- The first rule of a set that fits and matches is found among the rules with coverage
    tables, too. -/
theorem firstAnswer_withCoverages {backtrack input lookahead : Array UInt16 → GlyphPattern}
    {backtrack' input' lookahead' : UInt16 → Coverage}
    (hbacktrack : ∀ list, (backtrack list).SameAs (.coverages (list.map backtrack')))
    (hinput : ∀ list, (input list).SameAs (.coverages (list.map input')))
    (hlookahead : ∀ list, (lookahead list).SameAs (.coverages (list.map lookahead')))
    (rules : RuleSet) :
    firstAnswer (fun l : ContextLookup => l.findRule glyph contextLength fun p => p.isMatch f t)
        (rules.toList.map fun r => r.withCoverages glyph backtrack' input' lookahead') =
      .ok (((candidatesOf rules contextLength backtrack input lookahead).find?
        fun r => r.context.isMatch f t).map RuleCandidate.result) := by
  rw [candidatesOf]
  generalize hanswer : (fun l : ContextLookup =>
    l.findRule glyph contextLength fun p => p.isMatch f t) = answer
  induction rules.toList with
  | nil => rfl
  | cons r rest ih =>
    have hfirst := (congrFun hanswer.symm _).trans (findRule_withCoverages r
      ⟨backtrack r.backtrack, input r.input, lookahead r.lookahead⟩ (hbacktrack _) (hinput _)
      (hlookahead _))
    rw [List.map_cons, firstAnswer_cons hfirst]
    -- a rule that does not fit is not a candidate, and one that does not match is passed over
    rw [List.filter_cons]
    cases fitsContext (r.input.size + 1) contextLength with
    | false => simpa using ih
    | true =>
      rw [if_pos rfl, List.map_cons, List.find?_cons]
      cases ContextPattern.isMatch _ f t with
      | false => simpa using ih
      | true => rfl

/-- Looking for a rule in a subtable written with glyphs or classes fails or looks at the rules that
    the subtable has for the glyph. -/
theorem findRule_eq_firstAnswer (c : ContextLookup) (h : c.lacksRuleSet glyph = false) :
    c.findRule glyph contextLength (fun p => p.isMatch f t) =
      firstAnswer (fun l => l.findRule glyph contextLength fun p => p.isMatch f t)
        (c.expanded glyph) := by
  cases c with
  | byGlyph coverage sets =>
    rw [expanded, firstAnswer_withCoverages contextLength f t glyph GlyphPattern.SameAs.glyphs
      GlyphPattern.SameAs.glyphs GlyphPattern.SameAs.glyphs, findRule, candidates, ruleSet]
    cases hindex : coverage.index? glyph with
    | none => rfl
    | some index =>
      simp only [lacksRuleSet, hindex, Option.any_some, decide_eq_false_iff_not, Nat.not_le] at h
      simp only [Option.bind_some, Array.getElem?_eq_getElem h, Option.join_some]
      cases sets[index.toNat] <;> rfl
  | byClass coverage backtrack input lookahead sets =>
    rw [expanded, firstAnswer_withCoverages contextLength f t glyph
      (GlyphPattern.SameAs.classes backtrack) (GlyphPattern.SameAs.classes input)
      (GlyphPattern.SameAs.classes lookahead), findRule, candidates, ruleSet]
    split
    case isTrue => rcases sets[(input.value glyph).toNat]? with _ | _ | rules <;> rfl
    case isFalse => rfl
  | byCoverage first backtrack input lookahead records =>
    -- the subtable is in the form asked for, and the only one to be tried
    rw [expanded, firstAnswer]
    rcases findRule _ glyph contextLength _ with _ | _ | _ <;> rfl

/-- A glyph that is covered, but past the rule sets, is all that looking for a rule fails for. -/
theorem findRule_error_iff {c : ContextLookup} {test : ContextPattern → Bool} {cause : ParseError} :
    c.findRule glyph contextLength test = .error cause ↔
      cause = .badIndex ∧ c.lacksRuleSet glyph = true := by
  -- trying the rules cannot fail, so a failure is one of finding the candidates
  have hmap : c.findRule glyph contextLength test = .error cause ↔
      c.candidates glyph contextLength = .error cause := by
    rw [findRule]
    cases c.candidates glyph contextLength <;> simp [Except.map]
  rw [hmap]
  cases c with
  | byGlyph coverage sets =>
    rw [candidates, lacksRuleSet]
    cases coverage.index? glyph with
    | none => simp
    | some index =>
      -- the index of the coverage table may be past the rule sets, which is the failure
      rcases Nat.lt_or_ge index.toNat sets.size with hsize | hsize
      · simp only [Array.getElem?_eq_getElem hsize, Option.any_some, Nat.not_le.mpr hsize]
        cases sets[index.toNat] <;> simp
      · simp [hsize, eq_comm]
  | byClass coverage backtrack input lookahead sets =>
    rw [candidates]
    split
    case isTrue =>
      rcases sets[(input.value glyph).toNat]? with _ | _ | rules <;> simp [lacksRuleSet]
    case isFalse => simp [lacksRuleSet]
  | byCoverage first backtrack input lookahead records =>
    rw [candidates]
    split <;> simp [lacksRuleSet]

/-- The rule that is found is the one that is applied. -/
theorem findRule_eq_firstMatch (c : ContextLookup) :
    c.findRule glyph contextLength (fun p => p.isMatch f t) =
      (c.candidates glyph contextLength).map fun rules => (firstMatch f t rules t.reach).1 := by
  have hfirst : ∀ rules reach, (firstMatch f t rules reach).1 =
      (rules.find? fun r => r.context.isMatch f t).map RuleCandidate.result := by
    intro rules
    induction rules with
    | nil => exact fun _ => rfl
    | cons r rest ih =>
      intro reach
      rw [firstMatch, List.find?_cons, ContextPattern.isMatch]
      rcases r.context.scan f t with ⟨_ | _, seen⟩
      · exact ih _
      · rfl
  simp only [findRule, hfirst]

end ContextLookup

/-- Looking for a rule in a contextual subtable for a glyph comes to the same, whether its rules are
    written with glyphs, with classes or with coverage tables: the first answer of the subtables
    with coverage tables that stand for its rules is the answer of the subtable, and this is the
    rule that is applied. It fails only where the subtable is written with glyphs, and the coverage
    index of the glyph is past its rule sets. -/
theorem findRule_eq_expanded (c : ContextLookup) (glyph : GlyphId) (contextLength : UInt16)
    (f : GlyphFilter) (t : TextPlace) :
    let found := fun l : ContextLookup => l.findRule glyph contextLength fun p => p.isMatch f t
    (found c = if c.lacksRuleSet glyph then .error .badIndex
      else firstAnswer found (c.expanded glyph)) ∧
    ((∃ cause, found c = .error cause) ↔ c.lacksRuleSet glyph = true) ∧
    found c =
      (c.candidates glyph contextLength).map fun rules => (firstMatch f t rules t.reach).1 := by
  refine ⟨?_, ?_, c.findRule_eq_firstMatch⟩
  · cases hlacks : c.lacksRuleSet glyph with
    | false => exact c.findRule_eq_firstAnswer hlacks
    | true => exact ContextLookup.findRule_error_iff.mpr ⟨rfl, hlacks⟩
  · constructor
    · rintro ⟨cause, hcause⟩
      exact (ContextLookup.findRule_error_iff.mp hcause).2
    · exact fun hlacks => ⟨.badIndex, ContextLookup.findRule_error_iff.mpr ⟨rfl, hlacks⟩⟩

end OpenTypeLayout
