import OpenTypeLayout.Proofs.SharedLoading
import OpenTypeLayout.Proofs.Substitution.Contract
import OpenTypeLayout.Proofs.Substitution.Counts

/-!
# How substitution can fail

Substitution has checks for states that do not come up: positions past the end of the text, counts
that do not fit sixteen bits, and properties that are no single class. With a table that has been
read, and with properties that have been looked up, only two failures are left: lookups that are
nested too deeply, and indices in the font that point nowhere.
-/

namespace OpenTypeLayout

/-! ## §1 Single classes -/

namespace GlyphProperty

/-- The property, without a mark attachment class, stands for one class or for none. -/
def IsClass (p : GlyphProperty) : Prop := p.basic.classNumber? ≠ Option.none

instance (p : GlyphProperty) : Decidable p.IsClass :=
  inferInstanceAs (Decidable (p.basic.classNumber? ≠ Option.none))

theorem isClass_ofClass (c : UInt16) : (ofClass c).IsClass := by
  unfold ofClass
  repeat' split
  all_goals decide

/-- A mark attachment class takes up the high byte and nothing else. -/
theorem markAttachment_ofMarkAttachment (c : UInt16) :
    (ofMarkAttachment c).markAttachment = (ofMarkAttachment c).bits := by
  have hmask : ∀ i : Fin 16, 8 ≤ i.val → (0xFF00#16).getLsbD i = true := by decide
  apply UInt16.toBitVec_inj.mp
  apply BitVec.eq_of_getLsbD_eq
  intro i hi
  simp only [markAttachment, ofMarkAttachment, UInt16.toBitVec_and, UInt16.toBitVec_shiftLeft,
    UInt16.toBitVec_ofNat, BitVec.shiftLeft_eq', BitVec.getLsbD_and, BitVec.getLsbD_shiftLeft]
  -- below the high byte there is nothing, and in it the mask is all ones
  by_cases hlow : i < 8
  · simp [hlow]
  · rw [hmask ⟨i, hi⟩ (Nat.le_of_not_lt hlow), Bool.and_true]

theorem isClass_ofMarkAttachment (c : UInt16) : (ofMarkAttachment c).IsClass := by
  unfold IsClass basic
  split
  case isTrue h =>
    rw [markAttachment_ofMarkAttachment] at h
    have hnone : ofMarkAttachment c = none := by
      rw [ofMarkAttachment] at h ⊢
      exact congrArg GlyphProperty.mk h
    rw [hnone]
    decide
  case isFalse => decide

end GlyphProperty

theorem Gdef.isClass_property (g : Gdef) (glyph : GlyphId) : (g.property glyph).IsClass := by
  unfold property
  split
  · exact GlyphProperty.isClass_ofMarkAttachment _
  · exact GlyphProperty.isClass_ofClass _

/-- What is known of a glyph stands for one class or for none. -/
def GlyphItem.KnownIsClass (x : GlyphItem) : Prop := ∀ p, x.known = some p → p.IsClass

theorem Gdef.isClass_propertyOf (g : Gdef) {x : GlyphItem} (hx : x.KnownIsClass) :
    (g.propertyOf x).IsClass := by
  unfold propertyOf
  split
  case h_1 p hknown =>
    split
    · exact hx p hknown
    · exact g.isClass_property x.glyph
  case h_2 => exact g.isClass_property x.glyph

theorem GlyphItem.KnownIsClass.remember {x : GlyphItem} (hx : x.KnownIsClass)
    (table : Option Gdef) : (Gdef.remember table x).KnownIsClass := by
  unfold Gdef.remember
  split
  case h_1 => exact hx
  case h_2 g =>
    split
    · intro p hp
      cases hp
      exact g.isClass_propertyOf hx
    · exact hx

/-- Whatever a check finds stands for one class or for none. -/
theorem Gdef.isClass_of_check {table : Option Gdef} {flag : LookupFlag} {x : GlyphItem}
    {p : GlyphProperty} (hx : x.KnownIsClass) (h : check table flag x = some p) : p.IsClass := by
  unfold check at h
  split at h
  case h_1 =>
    cases h
    decide
  case h_2 g =>
    split at h
    · cases h
      exact g.isClass_propertyOf hx
    · cases h

/-! ## §2 The failures that are left -/

/-- The discipline under which only nesting and bad indices make a lookup fail. -/
def Discipline.classified : Discipline where
  table _ := True
  item := GlyphItem.KnownIsClass
  flag _ := True
  free _ := True
  failure e := e = .tooManyNestedContexts ∨ e = .parse .badIndex
  item_of_unknown := by
    intro x hx p hp
    rw [hx] at hp
    cases hp
  item_remember _ hx := hx.remember _
  table_record _ _ := trivial
  free_of_admits _ _ _ _ := trivial
  failure_badIndex := .inr rfl
  failure_nested := .inl rfl
  failure_unclassified _ hx hcheck hnone := absurd hnone (Gdef.isClass_of_check hx hcheck)

/-- The discipline can be applied to tables that have been read. -/
theorem Discipline.classified_allows {w : Window} {layout : LayoutTable Substitution}
    (hread : LayoutTable.ofWindow w = .ok layout) : classified.Allows layout fun _ => True where
  closed _ _ := trivial
  flag _ _ := trivial
  counts _ hlookup :=
    .inl (LayoutTable.subtables_of_ofWindow Substitution.ensures_load hread hlookup)

/-- If the layout table has been read, there is a glyph, the position is in the text, and what is
    known of glyphs are properties of theirs in some glyph definition table, then substituting
    succeeds, or lookups are nested too deeply, or an index in the font is bad. -/
theorem substitute_failures {σ : Type} (chooser : AlternateChooser σ)
    (table : ActiveTable Substitution) {w : Window}
    (hread : LayoutTable.ofWindow w = .ok table.layout) {s : SubstState σ}
    (hglyph : 0 < s.buffer.size) (hinside : s.buffer.position ≤ s.buffer.size)
    (hknown : ∀ x, x ∈ s.buffer.input ∨ x ∈ s.buffer.output → ∀ p, x.known = some p →
      ∃ g : Gdef, g.property x.glyph = p) :
    (table.substitute chooser s).1 = .ok () ∨
      (table.substitute chooser s).1 = .error .tooManyNestedContexts ∨
      (table.substitute chooser s).1 = .error (.parse .badIndex) := by
  -- what is remembered at the start is a class, so recording it cannot be refused
  have hclass : ∀ x, x ∈ s.buffer.input ∨ x ∈ s.buffer.output → x.KnownIsClass := by
    intro x hx p hp
    obtain ⟨g, rfl⟩ := hknown x hx p hp
    exact g.isClass_property x.glyph
  have hholds : Discipline.classified.Holds s :=
    ⟨trivial, fun x hx => hclass x (.inl hx), fun x hx => hclass x (.inr hx), hinside⟩
  have hnonempty : s.buffer.input.isEmpty = false := by
    rw [Array.isEmpty_eq_false_iff]
    exact Array.ne_empty_of_size_pos hglyph
  -- lookups of a table that has been read let a run fail in these ways only
  have hkeeps : ∀ active,
      Discipline.classified.Keeps (SubstM.applyActive chooser table active) s _ :=
    fun active => Discipline.keeps_applyActive chooser (Discipline.classified_allows hread)
      (fun _ _ => trivial) hholds
  rw [SubstM.substitute_eq_outcome chooser table hnonempty]
  rcases hrun : (SubstM.applyActive chooser table table.active).outcome s with ⟨_ | ⟨⟩, s'⟩
  case error e =>
    obtain ⟨-, hfailure⟩ := (hkeeps table.active).of_error hrun
    rcases hfailure with rfl | rfl
    · exact .inr (.inl rfl)
    · exact .inr (.inr rfl)
  case ok => exact .inl rfl

namespace MarkedPair

/-- The layout table as a font stores it. -/
def data : ByteArray := ⟨#[
  0x00, 0x01, 0x00, 0x00, 0x00, 0x00, 0x00, 0x00, 0x00, 0x0A,
  -- two lookups
  0x00, 0x02, 0x00, 0x06, 0x00, 0x2C,
  -- in context, with marks skipped: 1 and then 2
  0x00, 0x06, 0x00, 0x08, 0x00, 0x01, 0x00, 0x08,
  0x00, 0x03, 0x00, 0x00, 0x00, 0x02, 0x00, 0x12, 0x00, 0x18, 0x00, 0x00, 0x00, 0x01,
  0x00, 0x00, 0x00, 0x01,
  0x00, 0x01, 0x00, 0x01, 0x00, 0x01,
  0x00, 0x01, 0x00, 0x01, 0x00, 0x02,
  -- with marks skipped: 9 for 1 and 2
  0x00, 0x04, 0x00, 0x08, 0x00, 0x01, 0x00, 0x08,
  0x00, 0x01, 0x00, 0x08, 0x00, 0x01, 0x00, 0x0E,
  0x00, 0x01, 0x00, 0x01, 0x00, 0x01,
  0x00, 0x01, 0x00, 0x04, 0x00, 0x09, 0x00, 0x02, 0x00, 0x02]⟩

theorem ofWindow_data : LayoutTable.ofWindow (Window.ofBytes data) = .ok layout := by
  rw [LayoutTable.ofWindow_eq_afresh]
  decide +kernel

/-- The text, with the properties of its glyphs looked up. -/
def remembered : SubstState Unit :=
  { start with buffer := { start.buffer with
      input := start.buffer.input.map (Gdef.remember (some gdef)) } }

end MarkedPair

open MarkedPair in
theorem substitute_failures_markedPair :
    LayoutTable.ofWindow (Window.ofBytes data) = .ok table.layout ∧
      ((table.substitute AlternateChooser.first remembered).1 = .ok () ∨
        (table.substitute AlternateChooser.first remembered).1 = .error .tooManyNestedContexts ∨
        (table.substitute AlternateChooser.first remembered).1 = .error (.parse .badIndex)) := by
  have hread : LayoutTable.ofWindow (Window.ofBytes data) = .ok table.layout := ofWindow_data
  refine ⟨hread, substitute_failures AlternateChooser.first table hread (by decide +kernel)
    (by decide +kernel) ?_⟩
  intro x hx p hp
  rcases hx with hx | hx
  · obtain ⟨y, hy, rfl⟩ := Array.mem_map.mp hx
    have hfresh : ∀ y ∈ start.buffer.input, y.known = none := by decide
    cases hp
    refine ⟨gdef, ?_⟩
    rw [Gdef.propertyOf, hfresh y hy]
    rfl
  · exact absurd hx (Array.not_mem_empty x)

end OpenTypeLayout
