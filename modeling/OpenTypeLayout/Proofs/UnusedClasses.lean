import OpenTypeLayout.Proofs.Filtering
import OpenTypeLayout.Proofs.RuleFormats
import OpenTypeLayout.Proofs.SharedLoading
import OpenTypeLayout.Substitution.Apply

/-!
# Classes without glyphs

A rule may ask for a class that its class definition puts no glyph into. Such a class is compared as
it is. Glyphs that are not mentioned are in class 0, so class 0 can be asked for even if no entry
names it, but any other class without glyphs is one that no glyph has, and a rule that asks for it
never matches.

- `ClassDef.orZero` reads a class without glyphs as class 0, and `ClassDef.isFound` says that there
  may be a glyph with the class.
- `ContextRule.zeroed` is a rule with its classes read in this way.
- `classRules_unusedClasses` compares the two readings: for single glyphs, for rules and for
  subtables.
- §5 has a rule that matches only if it is read in this way.
-/

namespace OpenTypeLayout

/-! ## §1 Classes -/

namespace ClassDef

/-- Class 0 in the place of a class without glyphs. -/
def orZero (d : ClassDef) (c : UInt16) : UInt16 := if d.defines c then c else 0

/-- Whether there may be a glyph with the class: an entry names it, or it is the class of the glyphs
    that are not mentioned. -/
def isFound (d : ClassDef) (c : UInt16) : Bool := c == 0 || d.defines c

variable {d : ClassDef} {c : UInt16} {glyph : GlyphId}

theorem isFound_value (d : ClassDef) (glyph : GlyphId) : d.isFound (d.value glyph) = true := by
  rw [value]
  cases hclass : d.classOf glyph with
  | none => rfl
  | some c => rw [Option.getD_some, isFound, defines_of_classOf hclass, Bool.or_true]

theorem orZero_of_isFound (h : d.isFound c = true) : d.orZero c = c := by
  unfold orZero
  split
  case isTrue => rfl
  case isFalse hnot =>
    rw [isFound, Bool.or_eq_true, beq_iff_eq] at h
    exact (h.resolve_right hnot).symm

/-- No glyph has a class without glyphs, unless this is class 0. -/
theorem value_eq_iff_of_not_defines (h : d.defines c = false) :
    d.value glyph = c ↔ c = 0 ∧ d.value glyph = 0 := by
  constructor
  · intro heq
    have hfound := d.isFound_value glyph
    rw [heq, isFound, h, Bool.or_false, beq_iff_eq] at hfound
    exact ⟨hfound, heq.trans hfound⟩
  · rintro ⟨rfl, hzero⟩
    exact hzero

end ClassDef

/-! ## §2 Patterns -/

namespace GlyphPattern

/-- A pattern of classes accepts what it accepts when it is read with class 0 for classes without
    glyphs, except where it asks for a class that no glyph has. -/
theorem accepts_classes_eq_orZero (d : ClassDef) (list : Array UInt16) (place : Nat)
    (glyph : GlyphId) :
    (classes d list).accepts place glyph =
      ((classes d (list.map d.orZero)).accepts place glyph && list[place]?.all d.isFound) := by
  simp only [accepts, Array.getElem?_map]
  cases list[place]? with
  | none => rfl
  | some c =>
    simp only [Option.map_some, Option.all_some, Option.some_beq_some]
    cases hfound : d.isFound c with
    | true => rw [ClassDef.orZero_of_isFound hfound, Bool.and_true]
    | false =>
      rw [Bool.and_false, beq_eq_false_iff_ne]
      rintro rfl
      rw [ClassDef.isFound_value] at hfound
      cases hfound

theorem fits_classes_iff (d : ClassDef) (list : Array UInt16) (glyphs : List GlyphItem) :
    (classes d list).Fits glyphs ↔
      (classes d (list.map d.orZero)).Fits glyphs ∧ list.all d.isFound = true := by
  have hlength : (classes d (list.map d.orZero)).length = list.size := Array.size_map
  rw [Array.all_eq_true]
  constructor
  · intro h
    -- at each place the two conditions are asked of the same glyph
    have hsplit : ∀ place < list.size, ∃ item, glyphs[place]? = some item ∧
        (classes d (list.map d.orZero)).accepts place item.glyph = true ∧
        list[place]?.all d.isFound = true := by
      intro place hplace
      obtain ⟨item, hitem, haccepts⟩ := (Option.any_eq_true _ _).mp (h place hplace)
      rw [accepts_classes_eq_orZero, Bool.and_eq_true] at haccepts
      exact ⟨item, hitem, haccepts⟩
    refine ⟨fun place hplace => ?_, fun place hplace => ?_⟩
    · obtain ⟨item, hitem, haccepts, -⟩ := hsplit place (hlength ▸ hplace)
      exact (Option.any_eq_true _ _).mpr ⟨item, hitem, haccepts⟩
    · obtain ⟨item, -, -, hfound⟩ := hsplit place hplace
      rwa [Array.getElem?_eq_getElem hplace, Option.all_some] at hfound
  · rintro ⟨hfits, hfound⟩ place hplace
    obtain ⟨item, hitem, haccepts⟩ := (Option.any_eq_true _ _).mp (hfits place (by rwa [hlength]))
    refine (Option.any_eq_true _ _).mpr ⟨item, hitem, ?_⟩
    rw [accepts_classes_eq_orZero, haccepts, Bool.true_and, Array.getElem?_eq_getElem hplace,
      Option.all_some]
    exact hfound place hplace

end GlyphPattern

/-! ## §3 Rules -/

namespace ContextRule

variable (backtrack input lookahead : ClassDef)

/-- What a rule asks for if its numbers are classes. -/
def classContext (r : ContextRule) : ContextPattern where
  backtrack := .classes backtrack r.backtrack
  input := .classes input r.input
  lookahead := .classes lookahead r.lookahead

/-- The rule with class 0 in the place of all classes without glyphs. -/
def zeroed (r : ContextRule) : ContextRule where
  backtrack := r.backtrack.map backtrack.orZero
  input := r.input.map input.orZero
  lookahead := r.lookahead.map lookahead.orZero
  records := r.records

/-- Whether all classes that the rule asks for are classes that glyphs may have. -/
def asksForFound (r : ContextRule) : Bool :=
  r.backtrack.all backtrack.isFound && r.input.all input.isFound &&
    r.lookahead.all lookahead.isFound

/-- A rule matches where it does when it is read with class 0 for classes without glyphs, unless it
    asks for a class that no glyph has. -/
theorem isMatch_eq_zeroed (r : ContextRule) (f : GlyphFilter) (t : TextPlace) :
    (r.classContext backtrack input lookahead).isMatch f t =
      (((r.zeroed backtrack input lookahead).classContext backtrack input lookahead).isMatch f t &&
        r.asksForFound backtrack input lookahead) := by
  rw [Bool.eq_iff_iff, Bool.and_eq_true, asksForFound, Bool.and_eq_true, Bool.and_eq_true,
    ContextPattern.isMatch_iff_fits, ContextPattern.isMatch_iff_fits]
  simp only [classContext, zeroed]
  rw [GlyphPattern.fits_classes_iff backtrack, GlyphPattern.fits_classes_iff input,
    GlyphPattern.fits_classes_iff lookahead]
  simp only [GlyphPattern.length, Array.size_map]
  constructor
  · rintro ⟨⟨hback, hbackFound⟩, ⟨hinput, hinputFound⟩, hahead, haheadFound⟩
    exact ⟨⟨hback, hinput, hahead⟩, ⟨hbackFound, hinputFound⟩, haheadFound⟩
  · rintro ⟨⟨hback, hinput, hahead⟩, ⟨hbackFound, hinputFound⟩, haheadFound⟩
    exact ⟨⟨hback, hbackFound⟩, ⟨hinput, hinputFound⟩, hahead, haheadFound⟩

end ContextRule

/-! ## §4 Subtables -/

namespace ContextLookup

/-- The subtable without the rules that ask for a class that no glyph has. -/
def withoutUnused : ContextLookup → ContextLookup
  | .byClass coverage backtrack input lookahead ruleSets =>
    .byClass coverage backtrack input lookahead
      (ruleSets.map fun set => set.map (·.filter (·.asksForFound backtrack input lookahead)))
  | c => c

section

variable {backtrack input lookahead : ClassDef} {keeps : ContextRule → Bool}

/-- Rules that do not pass the test of a search may be left out of it. -/
theorem find?_candidatesOf_filter (test : ContextPattern → Bool)
    (h : ∀ r : ContextRule, keeps r = false →
      test (r.classContext backtrack input lookahead) = false)
    (contextLength : UInt16) (rules : RuleSet) :
    (candidatesOf (rules.filter keeps) contextLength (.classes backtrack) (.classes input)
        (.classes lookahead)).find? (fun r => test r.context) =
      (candidatesOf rules contextLength (.classes backtrack) (.classes input)
        (.classes lookahead)).find? fun r => test r.context := by
  rw [candidatesOf, candidatesOf, Array.toList_filter]
  induction rules.toList with
  | nil => rfl
  | cons r rest ih =>
    cases hkeeps : keeps r with
    -- a rule that is kept stands first on both sides
    | true =>
      rw [List.filter_cons_of_pos hkeeps, List.filter_cons, List.filter_cons]
      split
      case isTrue => rw [List.map_cons, List.map_cons, List.find?_cons, List.find?_cons, ih]
      case isFalse => exact ih
    -- a rule that is dropped could not have been the one found
    | false =>
      rw [List.filter_cons_of_neg (Bool.eq_false_iff.mp hkeeps), ih, List.filter_cons]
      split
      case isTrue =>
        have hfails := h r hkeeps
        rw [ContextRule.classContext] at hfails
        rw [List.map_cons, List.find?_cons, hfails]
      case isFalse => rfl

end

theorem findRule_withoutUnused (c : ContextLookup) (glyph : GlyphId) (contextLength : UInt16)
    (f : GlyphFilter) (t : TextPlace) :
    c.withoutUnused.findRule glyph contextLength (fun p => p.isMatch f t) =
      c.findRule glyph contextLength fun p => p.isMatch f t := by
  cases c with
  | byGlyph coverage ruleSets => rfl
  | byCoverage first backtrack input lookahead records => rfl
  | byClass coverage backtrack input lookahead ruleSets =>
    rw [withoutUnused, findRule, findRule, candidates, candidates]
    split
    case isFalse => rfl
    case isTrue =>
      rw [Array.getElem?_map]
      rcases ruleSets[(input.value glyph).toNat]? with _ | _ | rules
      · rfl
      · rfl
      -- what is dropped asks for a class without glyphs, and so matches nothing
      · have hfails : ∀ r : ContextRule, r.asksForFound backtrack input lookahead = false →
            (r.classContext backtrack input lookahead).isMatch f t = false := fun r hr => by
          rw [ContextRule.isMatch_eq_zeroed, hr, Bool.and_false]
        have hfind := find?_candidatesOf_filter (·.isMatch f t) hfails contextLength rules
        simp only [Option.map_some, Except.map, hfind]

end ContextLookup

/-- A class without glyphs that is asked for at some place accepts the glyphs of class 0 if it is
    class 0 itself, and no glyph otherwise. So a rule written with classes matches where the rule
    does that has class 0 in the place of all classes without glyphs, if the classes that it asks
    for are class 0 or have glyphs. If it asks for another class it matches nowhere, and looking for
    a rule in a subtable comes to the same without such rules. -/
theorem classRules_unusedClasses (backtrack input lookahead : ClassDef) (f : GlyphFilter)
    (t : TextPlace) :
    (∀ (d : ClassDef) (list : Array UInt16) (place : Nat) (c : UInt16) (glyph : GlyphId),
      list[place]? = some c → d.defines c = false →
        ((GlyphPattern.classes d list).accepts place glyph = true ↔ c = 0 ∧ d.value glyph = 0)) ∧
    (∀ r : ContextRule, (r.classContext backtrack input lookahead).isMatch f t =
      (((r.zeroed backtrack input lookahead).classContext backtrack input lookahead).isMatch f t &&
        r.asksForFound backtrack input lookahead)) ∧
    ∀ (coverage : Coverage) (ruleSets : Array (Option RuleSet)) (glyph : GlyphId)
      (contextLength : UInt16),
      let subtable := ContextLookup.byClass coverage backtrack input lookahead ruleSets
      subtable.findRule glyph contextLength (fun p => p.isMatch f t) =
        subtable.withoutUnused.findRule glyph contextLength fun p => p.isMatch f t := by
  refine ⟨fun d list place c glyph hplace hunused => ?_, ?_, ?_⟩
  · rw [GlyphPattern.accepts, hplace, Option.some_beq_some, beq_iff_eq, eq_comm,
      ClassDef.value_eq_iff_of_not_defines hunused]
  · exact fun r => r.isMatch_eq_zeroed backtrack input lookahead f t
  · intro coverage ruleSets glyph contextLength subtable
    exact (subtable.findRule_withoutUnused glyph contextLength f t).symm

/-! ## §5 A class without glyphs -/

/-! A font with a rule for the glyph 1 that asks for class 5 at the next glyph. The class definition
    names class 1 only, and the glyph 2 is in class 0. -/

namespace FifthClass

/-- The layout table as a font stores it. -/
def data : ByteArray := ⟨#[
  0x00, 0x01, 0x00, 0x00, 0x00, 0x00, 0x00, 0x00, 0x00, 0x0A,
  -- two lookups
  0x00, 0x02, 0x00, 0x06, 0x00, 0x36,
  -- the rules that begin with class 1, of which there is one
  0x00, 0x05, 0x00, 0x00, 0x00, 0x01, 0x00, 0x08,
  0x00, 0x02, 0x00, 0x0C, 0x00, 0x12, 0x00, 0x02, 0x00, 0x00, 0x00, 0x1A,
  0x00, 0x01, 0x00, 0x01, 0x00, 0x01,
  0x00, 0x01, 0x00, 0x01, 0x00, 0x01, 0x00, 0x01,
  0x00, 0x01, 0x00, 0x04, 0x00, 0x02, 0x00, 0x01, 0x00, 0x05, 0x00, 0x00, 0x00, 0x01,
  -- 9 for 1
  0x00, 0x01, 0x00, 0x00, 0x00, 0x01, 0x00, 0x08,
  0x00, 0x01, 0x00, 0x06, 0x00, 0x08, 0x00, 0x01, 0x00, 0x01, 0x00, 0x01]⟩

def classes : ClassDef := .block 1 #[1]

def rule : ContextRule where
  backtrack := #[]
  input := #[5]
  lookahead := #[]
  records := [⟨0, 1⟩]

/-- The lookups with a rule in the place of the one that asks for class 5. -/
def layout (rule : ContextRule) : LayoutTable Substitution where
  scripts := #[]
  features := #[]
  lookups := #[
    { flag := ⟨0⟩
      subtables :=
        .context #[.byClass (.glyphs #[1]) .empty classes .empty #[none, some #[rule]]] },
    { flag := ⟨0⟩, subtables := .single #[.delta (.glyphs #[1]) 8] }]

/-- The glyphs 1 and 2. -/
def text : GlyphBuffer := (GlyphBuffer.empty.push 1 1 0).push 2 1 1

/-- The glyphs that are written when the first lookup is applied to the text. -/
def written (rule : ContextRule) : Except LayoutError Unit × Array GlyphId :=
  let table : ActiveTable Substitution := { layout := layout rule, bits := #[1] }
  let (answer, s) := table.substitute .first ⟨text, none, ()⟩
  (answer, s.buffer.input.map GlyphItem.glyph)

/-- The rule does not match, and the text stays as it is. With class 0 in the place of class 5,
    which has no glyphs, the rule matches at the glyph 1, and 9 is put in its place. -/
theorem rule_not_applied :
    LayoutTable.ofWindow (Window.ofBytes data) = .ok (layout rule) ∧
    classes.defines 5 = false ∧ classes.value 2 = 0 ∧
    (GlyphPattern.classes classes rule.input).accepts 0 2 = false ∧
    rule.zeroed .empty classes .empty = { rule with input := #[0] } ∧
    written rule = (.ok (), #[1, 2]) ∧
    written (rule.zeroed .empty classes .empty) = (.ok (), #[9, 2]) :=
  ⟨by rw [LayoutTable.ofWindow_eq_afresh]; decide +kernel, by decide, by decide, by decide,
    by decide +kernel, by decide +kernel, by decide +kernel⟩

end FifthClass

end OpenTypeLayout
