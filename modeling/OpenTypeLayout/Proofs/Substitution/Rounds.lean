import OpenTypeLayout.Proofs.Rounds
import OpenTypeLayout.Proofs.Substitution.Contract

/-!
# Rounds of a substitution rule

When a rule has been worked through without a failure, this has been done in rounds as `Rounds`
describes them: in each of them the lookup of a record is invoked at the current glyph, or a glyph
is copied.
-/

namespace OpenTypeLayout

namespace SubstM

open Program

variable {σ : Type} {invoke : Invoke σ} {places : List Nat} {last : Nat} {s s' : SubstState σ}

/-- How far a state has got. -/
abbrev reached (s : SubstState σ) : Nat := s.buffer.position

/-- A round that does not fail. For a record its lookup is invoked at the current glyph, and the
    context length is the number of glyphs of the rule that are left. If no lookup applies, the
    glyph is copied. -/
def Round (invoke : Invoke σ) (places : List Nat) (found : Option LookupRecord)
    (s t : SubstState σ) : Prop :=
  (invokeRecord invoke places s.buffer.position found >>= copyUnless).outcome s = (.ok (), t)

/-- A program that may be used as a lookup, whatever it does to the text. -/
abbrev Lawful (x : SubstM σ Bool) : Prop := Discipline.unrestricted.Lawful x

/-- Every round goes past at least one glyph, and past no more than one if there is no record. -/
theorem Round.moved {found : Option LookupRecord} {t : SubstState σ}
    (hinvoke : ∀ i contextLength, Lawful (invoke i contextLength))
    (hlt : s.buffer.position < s.buffer.size) (h : Round invoke places found s t) :
    s.buffer.position < t.buffer.position ∧ t.buffer.position ≤ t.buffer.size ∧
      t.buffer.size = s.buffer.size ∧
      (found = none → t.buffer.position = s.buffer.position + 1) := by
  have hholds := Discipline.unrestricted_holds (Nat.le_of_lt hlt)
  have hlawful : Lawful (invokeRecord invoke places s.buffer.position found) :=
    Discipline.lawful_invokeRecord (fun r _ => hinvoke r.lookupIndex.toNat) (.inr trivial)
  obtain ⟨ht, hadvance⟩ :=
    (Discipline.keeps_round hlt (hlawful s hholds hlt)).of_ok h
  refine ⟨hadvance.moved, ht.inside, hadvance.size, ?_⟩
  rintro rfl
  exact ((Discipline.keeps_copy hholds hlt).of_ok h).2.2

theorem rounds_applyRecords (hinvoke : ∀ i contextLength, Lawful (invoke i contextLength))
    {rounds : Nat} {records : List LookupRecord} (hlast : last < s.buffer.size)
    (hrounds : last < s.buffer.position + rounds)
    (hrun : (applyRecords invoke places last rounds records).outcome s = (.ok (), s')) :
    ∃ handed, Rounds reached (Round invoke places) places last records s handed s' := by
  -- whatever a nested lookup consumes, position and rounds together stay beyond the last glyph
  induction rounds generalizing s records with
  | zero =>
    cases hrun
    exact ⟨[], .done hrounds⟩
  | succ rounds ih =>
    rw [applyRecords_succ, outcome_bind_ok (outcome_get s)] at hrun
    dsimp only at hrun
    split at hrun
    case isFalse hpassed =>
      cases hrun
      exact ⟨[], .done (Nat.lt_of_not_le hpassed)⟩
    case isTrue hle =>
      obtain ⟨⟨⟩, t, hround, hrest⟩ := outcome_bind_eq_ok hrun
      obtain ⟨hmoved, -, hsize, hidle⟩ :=
        Round.moved hinvoke (Nat.lt_of_le_of_lt hle hlast) hround
      obtain ⟨handed, hrest⟩ := ih (hsize ▸ hlast) (by omega) hrest
      cases hnext : (nextRecord places s.buffer.position records).1 with
      | none =>
        rw [hnext] at hround
        exact ⟨handed, .idle hle hnext hround (hidle hnext) hrest⟩
      | some r =>
        rw [hnext] at hround
        exact ⟨⟨r, s, t⟩ :: handed, .hand hle hnext hround hmoved hrest⟩

/-- What is done for a rule that matches at the current glyph is done in rounds. -/
theorem rounds_applyRule (hinvoke : ∀ i contextLength, Lawful (invoke i contextLength))
    {flag : LookupFlag} {rule : RuleMatch} (hlt : s.buffer.position < s.buffer.size)
    (hlast : (rule.places ⟨s.gdef, flag⟩ s.buffer.input s.buffer.position).getLast? = some last)
    (hrun : (applyRule invoke flag rule).outcome s = (.ok (), s')) :
    let places := rule.places ⟨s.gdef, flag⟩ s.buffer.input s.buffer.position
    ∃ handed, Rounds reached (Round invoke places) places last rule.records s handed s' := by
  obtain ⟨last', hlast', hle, hsize⟩ := rule.getLast?_places ⟨s.gdef, flag⟩ hlt
  obtain rfl : last = last' := Option.some.inj (hlast.symm.trans hlast')
  rw [applyRule, outcome_bind_ok (outcome_get s)] at hrun
  dsimp only at hrun
  rw [hlast, Option.getD_some] at hrun
  exact rounds_applyRecords hinvoke hsize (by omega) hrun

variable (chooser : AlternateChooser σ) (layout : LayoutTable Substitution)

theorem lawful_applyLookup (levels index : Nat) (contextLength : UInt16) :
    Lawful (applyLookup chooser layout levels index contextLength) :=
  Discipline.lawful_applyLookup (Discipline.unrestricted_allows layout) levels trivial contextLength

end SubstM

end OpenTypeLayout
