import OpenTypeLayout.Proofs.Positioning.Context
import OpenTypeLayout.Proofs.Rounds

/-!
# Rounds of a positioning rule

When a rule has been worked through without a failure, this has been done in rounds as `Rounds`
describes them. A round begins at an index and ends at a later one, so the states are those of
positioning together with an index.
-/

namespace OpenTypeLayout

namespace PosM

open PosState (Kept Ready)

variable {σ : Type} {c : PosContext σ} {fails : LayoutError → Prop} {text : Array GlyphItem}
variable {invoke : Invoke σ} {places : List Nat} {last index next : Nat} {s s' : PosState σ}

/-- A round that does not fail. For a record its lookup is invoked at the index, and the context
    length is the number of glyphs of the rule that are left. If no lookup applies, the round goes
    on to the next index. -/
def Round (invoke : Invoke σ) (places : List Nat) (found : Option LookupRecord)
    (a b : PosState σ × Nat) : Prop :=
  ∃ answer, Program.outcome (invokeRecord invoke places a.2 found) a.1 = (.ok answer, b.1) ∧
    b.2 = answer.getD (a.2 + 1)

/-- Every round goes on by one index at least, and leaves the same text to settle. Where it ends, a
    lookup can be applied, unless that is the end of the text. -/
theorem Round.moved {found : Option LookupRecord} {a b : PosState σ × Nat}
    (hinvoke : ∀ l contextLength, Lawful c fails text fun index => invoke l index contextLength)
    (hcount : remainingFrom places a.2 ≤ 0xFFFF)
    (htext : settled c.gdef a.1.glyphs = settled c.gdef text) (ha : a.1.Ready a.2)
    (h : Round invoke places found a b) :
    a.2 < b.2 ∧ Kept c a.1 b.1 ∧ (b.2 < b.1.glyphs.size → b.1.Ready b.2) := by
  obtain ⟨answer, hanswer, hnext⟩ := h
  obtain ⟨hkept, hstep⟩ := (keeps_invokeRecord (fun r _ => hinvoke r.lookupIndex.toNat) hcount htext
    ha).of_ok hanswer
  obtain ⟨hmoved, hspans⟩ := hstep.spans ha
  rw [hnext]
  exact ⟨hmoved, hkept, fun hlt => hspans.ready hkept ha (hkept.size ▸ hlt)⟩

theorem rounds_applyRecords (hinvoke : ∀ l contextLength,
      Lawful c fails text fun index => invoke l index contextLength)
    {rounds : Nat} {records : List LookupRecord}
    (hcount : ∀ index, remainingFrom places index ≤ 0xFFFF)
    (htext : settled c.gdef s.glyphs = settled c.gdef text) (hlast : last < s.glyphs.size)
    (hs : index < s.glyphs.size → s.Ready index) (hrounds : last < index + rounds)
    (hrun : Program.outcome (applyRecords invoke places last rounds index records) s =
      (.ok next, s')) :
    ∃ handed, Rounds Prod.snd (Round invoke places) places last records (s, index) handed
      (s', next) := by
  induction rounds generalizing s index records with
  | zero =>
    cases hrun
    exact ⟨[], .done hrounds⟩
  | succ rounds ih =>
    rw [applyRecords_succ] at hrun
    split at hrun
    case isFalse hpassed =>
      cases hrun
      exact ⟨[], .done (Nat.lt_of_not_le hpassed)⟩
    case isTrue hle =>
      -- a round is one call or one step by a glyph; the rest is what the induction gives
      dsimp only at hrun
      obtain ⟨answer, t, hanswer, hrest⟩ := Program.outcome_bind_eq_ok hrun
      have hs := hs (Nat.lt_of_le_of_lt hle hlast)
      have hround : Round invoke places (nextRecord places index records).1 (s, index)
          (t, answer.getD (index + 1)) := ⟨answer, hanswer, rfl⟩
      obtain ⟨hmoved, hkept, hready⟩ := hround.moved hinvoke (hcount index) htext hs
      dsimp only at hmoved hkept hready
      obtain ⟨handed, hrest⟩ := ih (hkept.text.trans htext) (hkept.size ▸ hlast) hready (by omega)
        hrest
      cases hnext : (nextRecord places index records).1 with
      -- no record is for this glyph
      | none =>
        rw [hnext] at hround hanswer
        cases hanswer
        exact ⟨handed, .idle (t := (s, index + 1)) hle hnext hround rfl hrest⟩
      | some r =>
        rw [hnext] at hround
        exact ⟨_, .hand hle hnext hround hmoved hrest⟩

/-- What is done for a rule that matches at an index is done in rounds. -/
theorem rounds_applyRule (hinvoke : ∀ l contextLength,
      Lawful c fails text fun index => invoke l index contextLength)
    {flag : LookupFlag} {rule : RuleMatch} (hcount : rule.inputCount ≤ 0xFFFF)
    (htext : settled c.gdef s.glyphs = settled c.gdef text) (hs : s.Ready index)
    (hlast : (rule.places ⟨c.gdef, flag⟩ s.glyphs index).getLast? = some last)
    (hrun : Program.outcome (applyRule c invoke flag rule index) s = (.ok next, s')) :
    let places := rule.places ⟨c.gdef, flag⟩ s.glyphs index
    ∃ handed, Rounds Prod.snd (Round invoke places) places last rule.records (s, index) handed
      (s', next) := by
  obtain ⟨last', hlast', hle, hsize⟩ := rule.getLast?_places ⟨c.gdef, flag⟩ hs.inside
  obtain rfl : last = last' := Option.some.inj (hlast.symm.trans hlast')
  rw [applyRule, Program.outcome_get_bind] at hrun
  dsimp only at hrun
  rw [hlast, Option.getD_some] at hrun
  have hremaining := remainingFrom_places_le_word hcount ⟨c.gdef, flag⟩ s.glyphs index
  exact rounds_applyRecords hinvoke hremaining htext hsize (fun _ => hs) (by omega) hrun

end PosM

end OpenTypeLayout
