import OpenTypeLayout.Proofs.RecordedClasses
import OpenTypeLayout.Proofs.Substitution.Provenance

/-!
# Glyphs that a lookup ignores

While a lookup is applied, classes may be recorded for glyphs that had none. Such a class never
replaces another one, so a glyph that the lookup ignores at the beginning is ignored to the end:
only a glyph with a class can be ignored.

A pass therefore carries over every glyph that its lookup ignores, as long as the lookups that are
invoked from it ignore the same glyphs.
-/

namespace OpenTypeLayout

/-! ## §1 Growing tables -/

namespace Gdef

/-- The second table gives every glyph the property that the first one gives it, if that is any. -/
def Grows (g g' : Gdef) : Prop :=
  ∀ glyph, g.property glyph = .none ∨ g'.property glyph = g.property glyph

theorem Grows.refl (g : Gdef) : g.Grows g := fun _ => .inr rfl

theorem Grows.trans {g₁ g₂ g₃ : Gdef} (h₁₂ : g₁.Grows g₂) (h₂₃ : g₂.Grows g₃) : g₁.Grows g₃ := by
  intro glyph
  rcases h₁₂ glyph with hnone | hsame
  · exact .inl hnone
  · rcases h₂₃ glyph with hnone | hsame'
    · exact .inl (hsame.symm.trans hnone)
    · exact .inr (hsame'.trans hsame)

/-- Recording a class for a glyph makes a table grow. -/
theorem grows_record {g : Gdef} {glyph : GlyphId} {p : GlyphProperty} {answer : Bool × Gdef}
    (h : g.record glyph p = .ok answer) : g.Grows answer.2 := by
  unfold record at h
  split at h
  case h_1 => cases h
  case h_2 c _ =>
    split at h
    case isTrue =>
      cases h
      exact .refl g
    case isFalse =>
      split at h
      case h_1 =>
        cases h
        exact .refl g
      case h_2 recorded hrecorded =>
        cases h
        intro x
        have hmark : ({ g with synthesized := some (recorded.record glyph c) } : Gdef).markClass x =
            g.markClass x := rfl
        simp only [property, hmark]
        -- a recorded class only counts for a glyph without attachment class and without stored
        -- class
        split
        case isTrue => exact .inr rfl
        case isFalse =>
          simp only [glyphClass, hrecorded]
          split
          case h_1 => exact .inr rfl
          case h_2 =>
            by_cases hzero : recorded.get x = 0
            · left
              rw [hzero]
              rfl
            · right
              rw [SynthesizedClasses.get_record hzero]

end Gdef

/-! ## §2 What a flag ignores -/

/-- A glyph without a class is never ignored. -/
theorem LookupFlag.admits_none (flag : LookupFlag) : flag.admits .none = true := by
  have hbasic : GlyphProperty.none.basic = .none := by decide
  have hmark : GlyphProperty.none.isMark = false := by decide
  have hzero : flag.ignoredClasses.bits &&& GlyphProperty.none.bits = 0 := UInt16.and_zero
  simp [admits, hbasic, hmark, hzero]

/-- The first table has become the second one by recording classes. -/
def TableGrows : Option Gdef → Option Gdef → Prop
  | none, none => True
  | some g, some g' => g.Grows g'
  | _, _ => False

theorem TableGrows.refl (table : Option Gdef) : TableGrows table table := by
  cases table with
  | none => trivial
  | some g => exact Gdef.Grows.refl g

namespace Gdef

/-- What is ignored under a table, before anything is known of it, does not have its property
    replaced when the table grows. -/
theorem admits_property_of_grows {g g' : Gdef} (hgrows : g.Grows g') {flag : LookupFlag}
    {glyph : GlyphId} (h : flag.admits (g.property glyph) = false) :
    flag.admits (g'.property glyph) = false := by
  rcases hgrows glyph with hnone | hsame
  · rw [hnone, LookupFlag.admits_none] at h
    cases h
  · rw [hsame, h]

theorem admits_some (g : Gdef) (flag : LookupFlag) (item : GlyphItem) :
    admits (some g) flag item = flag.admits (g.propertyOf item) := by
  cases h : flag.admits (g.propertyOf item) <;> simp [admits, check, h]

theorem admits_bare (g : Gdef) (flag : LookupFlag) (item : GlyphItem) :
    admits (some g) flag item.bare = flag.admits (g.property item.glyph) :=
  admits_some g flag item.bare

end Gdef

/-- What is known of a glyph of a text agrees with a flag ignoring it under a table. -/
def KnowsIgnored (table : Option Gdef) (flag : LookupFlag) (x : GlyphItem) : Prop :=
  ∀ p, x.known = some p → Gdef.admits table flag x.bare = false → flag.admits p = false

/-- A glyph that is ignored under a table is still ignored when the table has grown. -/
theorem Gdef.admits_propertyOf_of_grows {g g' : Gdef} (hgrows : g.Grows g') {flag : LookupFlag}
    {x : GlyphItem} (hx : KnowsIgnored (some g) flag x)
    (hignored : admits (some g) flag x.bare = false) :
    flag.admits (g'.propertyOf x) = false := by
  have hproperty : flag.admits (g'.property x.glyph) = false :=
    admits_property_of_grows hgrows (admits_bare g flag x ▸ hignored)
  unfold propertyOf
  split
  case h_1 p hknown =>
    split
    · exact hx p hknown hignored
    · exact hproperty
  case h_2 => exact hproperty

theorem KnowsIgnored.remember {table g : Option Gdef} (hgrows : TableGrows table g)
    {flag : LookupFlag} {x : GlyphItem} (hx : KnowsIgnored table flag x) :
    KnowsIgnored table flag (Gdef.remember g x) := by
  intro p hp hignored
  rw [Gdef.bare_remember] at hignored
  match table, g, hgrows with
  | none, none, _ => exact hx p hp hignored
  | some g, some g', hgrows =>
    unfold Gdef.remember at hp
    dsimp only at hp
    split at hp
    case isTrue =>
      cases hp
      exact Gdef.admits_propertyOf_of_grows hgrows hx hignored
    case isFalse => exact hx p hp hignored

theorem KnowsIgnored.admits_bare {table g : Option Gdef} (hgrows : TableGrows table g)
    {flag : LookupFlag} {x : GlyphItem} (hx : KnowsIgnored table flag x)
    (hadmits : Gdef.admits g flag x = true) : Gdef.admits table flag x.bare = true := by
  match table, g, hgrows with
  | none, none, _ => rfl
  | some g, some g', hgrows =>
    cases hignored : Gdef.admits (some g) flag x.bare with
    | true => rfl
    | false =>
      rw [Gdef.admits_some, Gdef.admits_propertyOf_of_grows hgrows hx hignored] at hadmits
      cases hadmits

theorem TableGrows.record {table : Option Gdef} {g : Gdef} (hgrows : TableGrows table (some g))
    {glyph : GlyphId} {p : GlyphProperty} {answer : Bool × Gdef}
    (h : g.record glyph p = .ok answer) : TableGrows table (some answer.2) := by
  match table, hgrows with
  | some g₀, hgrows => exact Gdef.Grows.trans hgrows (Gdef.grows_record h)

/-- The discipline of lookups with one flag: what the flag ignores under a table stays, and only
    what it does not ignore is free. -/
def Discipline.ignoring (table : Option Gdef) (flag : LookupFlag) : Discipline where
  table := TableGrows table
  item := KnowsIgnored table flag
  flag f := f = flag
  free x := Gdef.admits table flag x = true
  failure _ := True
  item_of_unknown := by
    intro x hx p hp
    rw [hx] at hp
    cases hp
  item_remember hgrows hx := hx.remember hgrows
  table_record hgrows := hgrows.record
  free_of_admits := by
    intro g f x hgrows hf hx hadmits
    exact hx.admits_bare hgrows (hf ▸ hadmits)
  failure_badIndex := trivial
  failure_nested := trivial
  failure_unclassified _ _ _ _ := trivial

namespace Discipline

variable {σ : Type}

/-- The discipline can be applied to a lookup if all that is reached from it has the flag. -/
theorem ignoring_allows (table : Option Gdef) {layout : LayoutTable Substitution} {index : Nat}
    {flag : LookupFlag} (h : ∀ j lookup, layout.Reaches index j → layout.lookup j = .ok lookup →
      lookup.flag = flag) : (ignoring table flag).Allows layout (layout.Reaches index) where
  closed hi hj := Relation.ReflTransGen.tail hi hj
  flag hi hlookup := h _ _ hi hlookup
  counts _ _ := .inr trivial

theorem ignoring_holds {s : SubstState σ} (hfresh : ∀ x ∈ s.buffer.input, x.known = none)
    (hstart : s.buffer.AtStart) (flag : LookupFlag) : (ignoring s.gdef flag).Holds s where
  table := TableGrows.refl s.gdef
  input x hx := (ignoring s.gdef flag).item_of_unknown (hfresh x hx)
  output x hx := by
    rw [hstart.output] at hx
    exact absurd hx (Array.not_mem_empty x)
  inside := hstart.position ▸ Nat.zero_le _

end Discipline

/-! ## §3 Passes -/

/-- Let all lookups that are reached from a lookup have the flag that it has. If its pass over a
    text of which nothing is known yet succeeds, there is a map from the glyphs that the flag
    ignores at the beginning to the glyphs of the result that keeps the order, and every glyph is
    mapped to one with its number, its cluster and its activation bits. -/
theorem pass_keeps_ignored {σ : Type} (chooser : AlternateChooser σ)
    (table : ActiveTable Substitution) (index : Nat) (bits : UInt32) {flag : LookupFlag}
    {s s' : SubstState σ}
    (hflag : ∀ j lookup, table.layout.Reaches index j → table.layout.lookup j = .ok lookup →
      lookup.flag = flag)
    (hfresh : ∀ x ∈ s.buffer.input, x.known = none) (hstart : s.buffer.AtStart)
    (hrun : (SubstM.pass chooser table index bits).outcome s = (.ok (), s')) :
    ∃ image : { i : Fin s.buffer.size // Gdef.check s.gdef flag (s.buffer.glyphAt i) = none } →
        Fin s'.buffer.size,
      StrictMono image ∧ ∀ i,
        (s'.buffer.glyphAt (image i)).glyph = (s.buffer.glyphAt i.val).glyph ∧
        (s'.buffer.glyphAt (image i)).cluster = (s.buffer.glyphAt i.val).cluster ∧
        (s'.buffer.glyphAt (image i)).activation = (s.buffer.glyphAt i.val).activation := by
  have hkeeps := (Discipline.keeps_pass (Discipline.ignoring_allows s.gdef hflag) .refl bits
    (Discipline.ignoring_holds hfresh hstart flag)).of_ok hrun
  obtain ⟨image, hmono, himage⟩ := (hkeeps.2 hstart).2.exists_embedding
  have hignored : ∀ i : Fin s.buffer.size, Gdef.check s.gdef flag (s.buffer.glyphAt i) = none →
      ¬ (Discipline.ignoring s.gdef flag).free (s.buffer.glyphAt i).bare := by
    -- nothing is known of the glyph, so the check goes by the table that the discipline goes by
    intro i hcheck hfree
    have hbare : (s.buffer.glyphAt i).bare = s.buffer.glyphAt i :=
      GlyphItem.bare_of_known (hfresh _ (Array.getElem_mem i.isLt))
    have hadmits : Gdef.admits s.gdef flag (s.buffer.glyphAt i).bare = true := hfree
    rw [hbare, Gdef.admits, hcheck] at hadmits
    cases hadmits
  refine ⟨fun i => image ⟨i.val, hignored i.val i.property⟩, fun i j hij => hmono hij, fun i => ?_⟩
  have hsame := himage ⟨i.val, hignored i.val i.property⟩
  exact ⟨hsame.glyph, hsame.cluster, hsame.activation⟩

open Program SubstM MarkedPair in
/-- The mark between the two parts of the ligature is ignored, and is there afterwards. -/
theorem pass_keeps_ignored_markedPair :
    Gdef.check start.gdef ⟨0x0008⟩ (start.buffer.glyphAt ⟨1, by decide⟩) = none ∧
      ∃ image : { i : Fin start.buffer.size //
            Gdef.check start.gdef ⟨0x0008⟩ (start.buffer.glyphAt i) = none } →
          Fin ((pass AlternateChooser.first table 0 1).outcome start).2.buffer.size,
        StrictMono image ∧ ∀ i,
          (((pass AlternateChooser.first table 0 1).outcome start).2.buffer.glyphAt
            (image i)).glyph = (start.buffer.glyphAt i.val).glyph := by
  have hflag : ∀ j lookup, table.layout.Reaches 0 j → table.layout.lookup j = .ok lookup →
      lookup.flag = ⟨0x0008⟩ := by
    intro j lookup _ hlookup
    rcases j with _ | _ | j
    · cases hlookup
      rfl
    · cases hlookup
      rfl
    · cases hlookup
  have hrun : ((pass AlternateChooser.first table 0 1).outcome start).1 = .ok () := by
    decide +kernel
  obtain ⟨image, hmono, hsame⟩ := pass_keeps_ignored AlternateChooser.first table 0 1 hflag
    (by decide) ⟨rfl, rfl⟩ (outcome_eq_of_answer hrun)
  exact ⟨by decide +kernel, image, hmono, fun i => (hsame i).1⟩

end OpenTypeLayout
