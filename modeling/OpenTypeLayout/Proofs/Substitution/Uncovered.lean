import Mathlib.Logic.Function.Iterate
import OpenTypeLayout.Proofs.Substitution.Contract
import OpenTypeLayout.Proofs.Substitution.Parts

/-!
# Text that no lookup covers

Every lookup type looks up the current glyph in a coverage table before it does anything else. If
none of the glyphs of a text is covered by an active lookup, then whatever the lookups are, the text
is copied as it is, pass after pass, and nothing else is touched.

- `Substitution.coverages` lists the coverage tables that decide where a lookup may apply.
- `SubstM.LeavesAt` is about single lookups: with any chooser a lookup answers that it has not
  applied.
- `SubstM.Copied` is what a forward pass makes of a text when its lookup never applies.
- `substitute_uncovered` is the result for all passes, made any number of times.
-/

namespace OpenTypeLayout

/-! ## §1 Lookups that exist -/

namespace ActiveTable

variable {S : Type} {t : ActiveTable S}

/-- Tables that were made of a layout table, had lookups activated and deactivated, and had their
    nesting limited. -/
inductive Obtained : ActiveTable S → Prop
  /-- Nothing is active at first. -/
  | made {layout : LayoutTable S} {gdef : Option Gdef} {answer : ActiveTable S × Option Gdef}
      (h : ofLayout layout gdef = .ok answer) : Obtained answer.1
  /-- Lookups are activated one by one, or all those of a feature. -/
  | activated {t : ActiveTable S} (ht : Obtained t) (lookup : UInt16) (bits : UInt32) :
      Obtained (t.activateLookup lookup bits)
  | deactivated {t : ActiveTable S} (ht : Obtained t) : Obtained t.deactivate
  | limited {t : ActiveTable S} (ht : Obtained t) (limit : Nat) :
      Obtained (t.withNestingLimit limit)

/-- Activating a feature is activating its lookups. -/
theorem Obtained.activate (ht : t.Obtained) {feature : UInt16} {bits : UInt32} {t' : ActiveTable S}
    (h : t.activate feature bits = .ok t') : t'.Obtained := by
  have hall : ∀ (lookups : List UInt16) {t : ActiveTable S}, t.Obtained →
      (lookups.foldl (fun t lookup => t.activateLookup lookup bits) t).Obtained := by
    intro lookups
    induction lookups with
    | nil => exact fun ht => ht
    | cons lookup rest ih => exact fun ht => ih (ht.activated lookup bits)
  unfold ActiveTable.activate at h
  cases hlookups : t.layout.featureLookups feature with
  | error e =>
    rw [hlookups] at h
    cases h
  | ok lookups =>
    rw [hlookups] at h
    cases h
    rw [← Array.foldl_toList]
    exact hall lookups.toList ht

/-- There are activation bits for every lookup of the table, and for no others. -/
def Complete (t : ActiveTable S) : Prop := t.bits.size = t.layout.lookups.size

theorem Obtained.complete (h : t.Obtained) : t.Complete := by
  induction h with
  | @made layout gdef answer h =>
    have htable : answer.1 = { layout, bits := Array.replicate layout.lookups.size 0 } := by
      unfold ofLayout at h
      -- the glyph definitions may be loaded further, which is none of the table's business
      cases gdef with
      | none =>
        cases h
        rfl
      | some g =>
        dsimp only at h
        split at h
        · cases hload : g.loadMarkAttachment with
          | error e =>
            rw [hload] at h
            cases h
          | ok g' =>
            rw [hload] at h
            cases h
            rfl
        · cases h
          rfl
    simp [Complete, htable]
  | activated _ lookup bits ih => simpa [Complete, activateLookup] using ih
  | deactivated _ ih => simpa [Complete, deactivate] using ih
  | limited _ limit ih => exact ih

/-- The active lookups of a complete table exist. -/
theorem Complete.exists_lookup (h : t.Complete) {index : Nat} {bits : UInt32}
    (hactive : (index, bits) ∈ t.active) : ∃ l, t.layout.lookup index = .ok l := by
  have hlt : index < t.bits.size := by
    simp only [active, List.mem_filter, List.mem_map, Prod.exists, Prod.mk.injEq] at hactive
    obtain ⟨⟨bits', index', hmem, rfl, rfl⟩, -⟩ := hactive
    simpa using (List.mem_zipIdx hmem).2.1
  rw [h] at hlt
  exact ⟨t.layout.lookups[index], by simp [LayoutTable.lookup, hlt]⟩

end ActiveTable

/-! ## §2 Coverage -/

/-- The coverage of the first input glyph. -/
def ContextLookup.firstCoverage : ContextLookup → Coverage
  | .byGlyph coverage _ => coverage
  | .byClass coverage .. => coverage
  | .byCoverage first .. => first

/-- The covered glyphs. -/
def SingleSubst.coverage : SingleSubst → Coverage
  | .delta coverage _ => coverage
  | .list substitutes => substitutes.coverage

/-- The coverages of the subtables of a lookup. -/
def Substitution.coverages : Substitution → List Coverage
  | .single subtables => subtables.toList.map SingleSubst.coverage
  | .multiple subtables => subtables.toList.map CoverageMap.coverage
  | .alternate subtables => subtables.toList.map CoverageMap.coverage
  | .ligature subtables => subtables.toList.map CoverageMap.coverage
  | .context subtables => subtables.toList.map ContextLookup.firstCoverage
  | .chained subtables => subtables.toList.map ContextLookup.firstCoverage
  | .reverse subtables => subtables.toList.map ReverseSubst.coverage

/-- No subtable of the lookup covers the glyph. -/
def Substitution.Spares (l : Substitution) (glyph : GlyphId) : Prop :=
  ∀ c ∈ l.coverages, c.covers glyph = false

section

variable {glyph : GlyphId}

theorem Coverage.covers_eq_false_iff {c : Coverage} :
    c.covers glyph = false ↔ c.index? glyph = none := by
  simp [covers]

theorem CoverageMap.find_of_not_covers {α : Type} {m : CoverageMap α}
    (h : m.coverage.covers glyph = false) : m.find glyph = .ok none := by
  simp [find, Coverage.covers_eq_false_iff.mp h]

theorem SingleSubst.apply_of_not_covers {s : SingleSubst} (h : s.coverage.covers glyph = false) :
    s.apply glyph = .ok none := by
  cases s with
  | delta c amount =>
    have hcovers : c.covers glyph = false := h
    simp [apply, hcovers]
  | list substitutes => exact CoverageMap.find_of_not_covers h

theorem ContextLookup.candidates_of_not_covers {c : ContextLookup}
    (h : c.firstCoverage.covers glyph = false) (contextLength : UInt16) :
    c.candidates glyph contextLength = .ok [] := by
  cases c with
  | byGlyph c ruleSets =>
    have hindex : c.index? glyph = none := Coverage.covers_eq_false_iff.mp h
    simp [candidates, hindex]
  | byClass c | byCoverage c =>
    have hcovers : c.covers glyph = false := h
    simp [candidates, hcovers]

theorem ReverseSubst.substitute?_of_not_covers {s : ReverseSubst}
    (h : s.coverage.covers glyph = false) : s.substitute? glyph = none := by
  simp [substitute?, Coverage.covers_eq_false_iff.mp h]

/-- Subtables none of which answers anything do not answer anything together. -/
theorem firstAnswer_eq_none {α β : Type} {answer : α → Except ParseError (Option β)} {list : List α}
    (h : ∀ a ∈ list, answer a = .ok none) : firstAnswer answer list = .ok none := by
  induction list with
  | nil => rfl
  | cons a rest ih =>
    obtain ⟨ha, hrest⟩ := List.forall_mem_cons.mp h
    rw [firstAnswer, ha]
    exact ih hrest

end

/-! ## §3 Single lookups -/

namespace SubstM

open Program

open Discipline

variable {σ : Type} {s : SubstState σ} {item : GlyphItem}

/-- From the state, the lookup answers that it has not applied. -/
def LeavesAt (x : SubstM σ Bool) (s : SubstState σ) : Prop := ∃ s', x.outcome s = (.ok false, s')

theorem leavesAt_false (s : SubstState σ) : LeavesAt (pure false) s := ⟨s, rfl⟩

theorem LeavesAt.of_bind {α : Type} {x : SubstM σ α} {f : α → SubstM σ Bool} {a : α}
    {t : SubstState σ} (hx : x.outcome s = (.ok a, t)) (h : LeavesAt (f a) t) :
    LeavesAt (x >>= f) s := by
  obtain ⟨s', hs'⟩ := h
  exact ⟨s', by rw [outcome_bind_ok hx, hs']⟩

theorem outcome_current (hitem : s.buffer.current? = some item) (flag : LookupFlag) :
    (current flag).outcome s = (.ok ((Gdef.check s.gdef flag item).map fun p => (item, p)),
      { s with buffer := { s.buffer with
        input := rememberRange s.gdef s.buffer.input s.buffer.position
          (s.buffer.position + 1) } }) := by
  unfold current
  rw [outcome_bind_ok (outcome_get s), GlyphBuffer.current_eq_ok hitem]
  rfl

/-- What is done at the current glyph does not apply if it does not apply to this glyph. -/
theorem leavesAt_atCurrent (hitem : s.buffer.current? = some item) (flag : LookupFlag)
    {action : GlyphItem → GlyphProperty → SubstM σ Bool}
    (h : ∀ p t, LeavesAt (action item p) t) : LeavesAt (atCurrent flag action) s := by
  refine .of_bind (outcome_current hitem flag) ?_
  cases Gdef.check s.gdef flag item with
  | none => exact leavesAt_false _
  | some p => exact h p _

section

variable (s)

theorem leavesAt_applySingle {subtables : Array SingleSubst}
    (h : (Substitution.single subtables).Spares item.glyph) (p : GlyphProperty) :
    LeavesAt (applySingle subtables item p) s := by
  have hnone : firstAnswer (fun t => t.apply item.glyph) subtables.toList = .ok none :=
    firstAnswer_eq_none fun t ht =>
      SingleSubst.apply_of_not_covers (h t.coverage (List.mem_map_of_mem ht))
  unfold applySingle
  rw [hnone]
  exact leavesAt_false s

/-- The lookups that keep entries by coverage index look for one in the same way. -/
theorem find_eq_none {α : Type} {subtables : Array (CoverageMap α)} {glyph : GlyphId}
    (h : ∀ c ∈ subtables.toList.map CoverageMap.coverage, c.covers glyph = false) :
    firstAnswer (fun t => t.find glyph) subtables.toList = .ok none :=
  firstAnswer_eq_none fun t ht =>
    CoverageMap.find_of_not_covers (h t.coverage (List.mem_map_of_mem ht))

theorem leavesAt_applyMultiple {subtables : Array MultipleSubst}
    (h : (Substitution.multiple subtables).Spares item.glyph) (p : GlyphProperty) :
    LeavesAt (applyMultiple subtables item p) s := by
  unfold applyMultiple
  rw [find_eq_none h]
  exact leavesAt_false s

theorem leavesAt_applyAlternate (chooser : AlternateChooser σ) {subtables : Array AlternateSubst}
    (h : (Substitution.alternate subtables).Spares item.glyph) (p : GlyphProperty) :
    LeavesAt (applyAlternate chooser subtables item p) s := by
  unfold applyAlternate
  rw [find_eq_none h]
  exact leavesAt_false s

theorem leavesAt_applyLigature (flag : LookupFlag) (contextLength : UInt16) (p : GlyphProperty)
    {subtables : List LigatureSubst}
    (h : ∀ t ∈ subtables, t.coverage.covers item.glyph = false) :
    LeavesAt (applyLigature flag contextLength item p subtables) s := by
  induction subtables with
  | nil => exact leavesAt_false s
  | cons t rest ih =>
    obtain ⟨ht, hrest⟩ := List.forall_mem_cons.mp h
    rw [applyLigature, CoverageMap.find_of_not_covers ht]
    exact ih hrest

/-- Without rules there is none to apply, though the glyph itself may be looked up. -/
theorem leavesAt_applyContext (invoke : Invoke σ) (flag : LookupFlag) (contextLength : UInt16)
    {subtables : List ContextLookup}
    (h : ∀ c ∈ subtables, c.firstCoverage.covers item.glyph = false) :
    LeavesAt (applyContext invoke flag contextLength item subtables) s := by
  induction subtables generalizing s with
  | nil => exact leavesAt_false s
  | cons c rest ih =>
    obtain ⟨hc, hrest⟩ := List.forall_mem_cons.mp h
    rw [applyContext_cons, ContextLookup.candidates_of_not_covers hc]
    obtain ⟨t, ht⟩ : ∃ t, (findRule flag []).outcome s = (.ok none, t) := ⟨_, rfl⟩
    exact .of_bind (outcome_lift (.ok []) s) (.of_bind ht (ih t hrest))

end

/-- A lookup that does not cover the current glyph does not apply there, of whatever type it is. -/
theorem leavesAt_applyLookup (chooser : AlternateChooser σ) {layout : LayoutTable Substitution}
    {index : Nat} {lookup : Lookup Substitution} (hlookup : layout.lookup index = .ok lookup)
    (hitem : s.buffer.current? = some item) (h : lookup.subtables.Spares item.glyph) (levels : Nat)
    (contextLength : UInt16) :
    LeavesAt (applyLookup chooser layout (levels + 1) index contextLength) s := by
  rw [applyLookup_succ, hlookup]
  show LeavesAt (applySubtables chooser (applyLookup chooser layout levels) lookup contextLength) s
  obtain ⟨flag, subtables⟩ := lookup
  -- the lookups without context are only tried where a single glyph fits the context
  have hsingle : ∀ {x : SubstM σ Bool}, LeavesAt x s →
      LeavesAt (if fitsContext 1 contextLength then x else pure false) s := by
    intro x hx
    split
    · exact hx
    · exact leavesAt_false s
  unfold applySubtables
  cases subtables with
  | single subtables =>
    exact hsingle (leavesAt_atCurrent hitem flag fun p t => leavesAt_applySingle t h p)
  | multiple subtables =>
    exact hsingle (leavesAt_atCurrent hitem flag fun p t => leavesAt_applyMultiple t h p)
  | alternate subtables =>
    exact hsingle (leavesAt_atCurrent hitem flag fun p t => leavesAt_applyAlternate t chooser h p)
  | ligature subtables =>
    refine hsingle (leavesAt_atCurrent hitem flag fun p t => ?_)
    exact leavesAt_applyLigature t flag contextLength p fun c hc => h _ (List.mem_map_of_mem hc)
  | context subtables | chained subtables =>
    refine leavesAt_atCurrent hitem flag fun p t => ?_
    exact leavesAt_applyContext t _ flag contextLength fun c hc => h _ (List.mem_map_of_mem hc)
  | reverse subtables => exact leavesAt_false s

/-- A lookup that does not cover the current glyph leaves everything as it is, whatever
    the chooser. -/
theorem exists_unmoved_applyLookup {layout : LayoutTable Substitution} {index : Nat}
    {lookup : Lookup Substitution} (hlookup : layout.lookup index = .ok lookup)
    (hitem : s.buffer.current? = some item) (h : lookup.subtables.Spares item.glyph) (levels : Nat)
    (contextLength : UInt16) :
    ∃ s', Unmoved s s' ∧ ∀ chooser : AlternateChooser σ,
      (applyLookup chooser layout (levels + 1) index contextLength).outcome s =
        (.ok false, s') := by
  have hlt := GlyphBuffer.position_lt_of_current? hitem
  obtain ⟨s', hrun⟩ := leavesAt_applyLookup .first hlookup hitem h levels contextLength
  refine ⟨s', ?_, fun chooser =>
    declines_applyLookup .first chooser layout (levels + 1) index contextLength s s' hrun⟩
  have hlawful : unrestricted.Lawful
      (applyLookup (σ := σ) .first layout (levels + 1) index contextLength) :=
    Discipline.lawful_applyLookup (unrestricted_allows layout) (levels + 1) trivial contextLength
  obtain ⟨-, hstep⟩ := (hlawful s (unrestricted_holds (Nat.le_of_lt hlt)) hlt).of_ok hrun
  cases hstep with
  | notApplied hunmoved => exact hunmoved

/-! ## §4 Passes -/

/-- All of the input that was left has been copied, and nothing else has been done. -/
structure Copied (s s' : SubstState σ) : Prop where
  input : s'.buffer.inputText = s.buffer.inputText
  position : s'.buffer.position = s.buffer.size
  output : s'.buffer.outputText = s.buffer.outputText ++ s.buffer.remainingText
  nextLigature : s'.buffer.nextLigature = s.buffer.nextLigature
  gdef : s'.gdef = s.gdef
  kept : s'.kept = s.kept

/-- Copying a glyph first, and then all the others. -/
theorem Copied.of_putItem {s t s' : SubstState σ} (hs : Unmoved s t)
    (hitem : t.buffer.current? = some item)
    (h : Copied { t with buffer := t.buffer.putItem item } s') : Copied s s' where
  input := h.input.trans hs.text.input
  position := h.position.trans hs.text.size
  output := by
    rw [h.output, GlyphBuffer.outputText_putItem, ← hs.text.output, ← hs.text.remaining,
      GlyphBuffer.remainingText_eq_cons hitem, List.append_assoc]
    rfl
  nextLigature := h.nextLigature.trans hs.text.nextLigature
  gdef := h.gdef.trans hs.gdef
  kept := h.kept.trans hs.kept

theorem Copied.of_done (h : s.buffer.position = s.buffer.size) : Copied s s where
  input := rfl
  position := h
  output := by
    have hnil : s.buffer.remainingText = [] := by
      simp [GlyphBuffer.remainingText, h]
    rw [hnil, List.append_nil]
  nextLigature := rfl
  gdef := rfl
  kept := rfl

theorem outcome_copy (hitem : s.buffer.current? = some item) :
    copy.outcome s = (.ok (), { s with buffer := s.buffer.putItem item }) := by
  unfold copy
  rw [outcome_bind_ok (outcome_get s), GlyphBuffer.current_eq_ok hitem]
  rfl

/-- If a lookup leaves every glyph that is still to be read, the pass copies them all. -/
theorem exists_copied_forwardPass {apply : AlternateChooser σ → SubstM σ Bool}
    {left : GlyphId → Prop} (happly : ∀ s item, s.buffer.current? = some item → left item.glyph →
      ∃ s', Unmoved s s' ∧ ∀ chooser, (apply chooser).outcome s = (.ok false, s'))
    (bits : UInt32) {rounds : Nat} (hinside : s.buffer.position ≤ s.buffer.size)
    (hrounds : s.buffer.size - s.buffer.position ≤ rounds)
    (hleft : ∀ x ∈ s.buffer.remainingText, left x.glyph) :
    ∃ s', Copied s s' ∧
      ∀ chooser, (forwardPass (apply chooser) bits rounds).outcome s = (.ok (), s') := by
  -- every round copies one glyph, so as many rounds as there are glyphs are enough
  induction rounds generalizing s with
  | zero => exact ⟨s, .of_done (by omega), fun _ => rfl⟩
  | succ rounds ih =>
    simp only [forwardPass_succ, outcome_bind_ok (outcome_get s)]
    cases hitem : s.buffer.current? with
    | none =>
      -- nothing is left to be read, so nothing has to be copied
      have hend : s.buffer.size ≤ s.buffer.position := Array.getElem?_eq_none_iff.mp hitem
      exact ⟨s, .of_done (Nat.le_antisymm hinside hend), fun _ => rfl⟩
    | some item =>
      rw [GlyphBuffer.remainingText_eq_cons hitem] at hleft
      obtain ⟨hfirst, hrest⟩ := List.forall_mem_cons.mp hleft
      -- whether the glyph is active or not, the lookup leaves it
      obtain ⟨t, ht, hnotApplied⟩ : ∃ t, Unmoved s t ∧ ∀ chooser,
          (if item.isActive bits then apply chooser else pure false).outcome s =
            (.ok false, t) := by
        split
        · exact happly s item hitem hfirst
        · exact ⟨s, .refl s, fun _ => rfl⟩
      obtain ⟨item', hitem', -⟩ := ht.text.current? hitem
      have hlt := GlyphBuffer.position_lt_of_current? hitem'
      have hsize := ht.text.size
      have hposition := ht.text.position
      -- behind the glyph that has been copied, the text is the rest of what there was
      have hremaining : (t.buffer.putItem item').remainingText =
          s.buffer.inputText.drop (s.buffer.position + 1) := by
        rw [← ht.text.input, ← hposition]
        rfl
      have hrounds' : t.buffer.size - (t.buffer.position + 1) ≤ rounds := by omega
      obtain ⟨s', hcopied, hrun⟩ := @ih { t with buffer := t.buffer.putItem item' } hlt hrounds'
        (hremaining ▸ hrest)
      refine ⟨s', .of_putItem ht hitem' hcopied, fun chooser => ?_⟩
      -- one step is a copy of the glyph
      have hstep : (passStep (apply chooser) bits item).outcome s =
          (.ok (), { t with buffer := t.buffer.putItem item' }) := by
        rw [passStep, outcome_bind_ok (hnotApplied chooser)]
        exact outcome_copy hitem'
      dsimp only
      rw [outcome_bind_ok hstep]
      exact hrun chooser

/-! ### From the end -/

theorem firstReverse_of_not_covers {f : GlyphFilter} {place : TextPlace} {glyph : GlyphId}
    {subtables : List ReverseSubst} (h : ∀ c ∈ subtables, c.coverage.covers glyph = false)
    (reach : Reach) : firstReverse f place glyph subtables reach = (none, reach) := by
  induction subtables with
  | nil => rfl
  | cons c rest ih =>
    obtain ⟨hc, hrest⟩ := List.forall_mem_cons.mp h
    rw [firstReverse, ReverseSubst.substitute?_of_not_covers hc]
    exact ih hrest

theorem exists_unmoved_rememberInput (low high : Nat) (s : SubstState σ) :
    ∃ s', Unmoved s s' ∧ (rememberInput low high).outcome s = (.ok (), s') :=
  ⟨{ s with buffer := { s.buffer with input := rememberRange s.gdef s.buffer.input low high } },
    ⟨⟨bareText_rememberRange _ _ _ _, rfl, rfl, rfl⟩, rfl, rfl⟩, rfl⟩

theorem exists_unmoved_reverseAt {subtables : List ReverseSubst}
    (h : ∀ x ∈ s.buffer.inputText, ∀ c ∈ subtables, c.coverage.covers x.glyph = false)
    (flag : LookupFlag) (bits : UInt32) (index : Nat) :
    ∃ s', Unmoved s s' ∧ (reverseAt subtables flag bits index).outcome s = (.ok (), s') := by
  unfold reverseAt
  simp only [outcome_bind_ok (outcome_get s)]
  cases hitem : s.buffer.input[index]? with
  | none => exact ⟨s, .refl s, rfl⟩
  | some item =>
    -- the glyph is one of the text, so no subtable covers it
    have hcovers : ∀ c ∈ subtables, c.coverage.covers item.glyph = false :=
      h item.bare (List.mem_map_of_mem (Array.mem_toList_iff.mpr (Array.mem_of_getElem? hitem)))
    dsimp only
    split
    case isFalse => exact ⟨s, .refl s, rfl⟩
    case isTrue =>
      -- the glyph is skipped, or it is asked for and not substituted
      split
      · exact exists_unmoved_rememberInput _ _ s
      · rw [firstReverse_of_not_covers hcovers]
        obtain ⟨s', hs', hrun⟩ := exists_unmoved_rememberInput _ _ s
        refine ⟨s', hs', ?_⟩
        dsimp only
        rw [outcome_bind_ok hrun]
        rfl

theorem exists_unmoved_reversePass {subtables : List ReverseSubst}
    (h : ∀ x ∈ s.buffer.inputText, ∀ c ∈ subtables, c.coverage.covers x.glyph = false)
    (flag : LookupFlag) (bits : UInt32) (count : Nat) :
    ∃ s', Unmoved s s' ∧ (reversePass subtables flag bits count).outcome s = (.ok (), s') := by
  induction count generalizing s with
  | zero => exact ⟨s, .refl s, rfl⟩
  | succ index ih =>
    obtain ⟨t, ht, hstep⟩ := exists_unmoved_reverseAt h flag bits index
    obtain ⟨s', hs', hrun⟩ := ih (s := t) (by rw [ht.text.input]; exact h)
    exact ⟨s', ht.trans hs', by rw [reversePass, outcome_bind_ok hstep, hrun]⟩

end SubstM

/-! ## §5 All passes -/

/-- No subtable of an active lookup covers a glyph of the text. -/
def ActiveTable.SparesText (table : ActiveTable Substitution) (text : List GlyphItem) : Prop :=
  ∀ active ∈ table.active, ∀ lookup, table.layout.lookup active.1 = .ok lookup →
    ∀ item ∈ text, lookup.subtables.Spares item.glyph

namespace Discipline

theorem Unmoved.atStart {σ : Type} {s s' : SubstState σ} (h : Unmoved s s')
    (hstart : s.buffer.AtStart) : s'.buffer.AtStart where
  position := h.text.position.trans hstart.position
  output := by
    have houtput : s'.buffer.outputText = bareText #[] := by
      rw [h.text.output, GlyphBuffer.outputText, hstart.output]
    have hsize := congrArg List.length houtput
    simpa [GlyphBuffer.outputText] using hsize

end Discipline

namespace SubstM

open Program

open Discipline

variable {σ : Type} {s : SubstState σ} {table : ActiveTable Substitution}

/-- A forward pass that copies everything makes the text its own successor. -/
theorem Copied.unmoved_swap {s s' : SubstState σ} (hstart : s.buffer.AtStart) (h : Copied s s') :
    Unmoved s { s' with buffer := s'.buffer.swap } where
  text := by
    have houtput : s.buffer.outputText = [] := by
      simp [GlyphBuffer.outputText, bareText, hstart.output]
    have hremaining : s.buffer.remainingText = s.buffer.inputText := by
      simp [GlyphBuffer.remainingText, hstart.position]
    refine ⟨?_, hstart.position.symm, ?_, h.nextLigature⟩
    · show s'.buffer.outputText = _
      rw [h.output, houtput, hremaining, List.nil_append]
    · rw [houtput]
      rfl
  gdef := h.gdef
  kept := h.kept

/-- A pass over a text that its lookup does not cover changes nothing. -/
theorem exists_unmoved_pass {index : Nat} {lookup : Lookup Substitution} (bits : UInt32)
    (hlimit : 1 ≤ table.nestingLimit) (hlookup : table.layout.lookup index = .ok lookup)
    (hstart : s.buffer.AtStart)
    (hspares : ∀ x ∈ s.buffer.inputText, lookup.subtables.Spares x.glyph) :
    ∃ s', Unmoved s s' ∧ ∀ chooser, (pass chooser table index bits).outcome s = (.ok (), s') := by
  -- a lookup at the top is never nested too deeply
  obtain ⟨levels, hlevels⟩ : ∃ levels, table.nestingLimit = levels + 1 :=
    Nat.exists_eq_succ_of_ne_zero (Nat.ne_of_gt hlimit)
  have hpass : ∀ chooser, (pass chooser table index bits).outcome s =
      (passOf chooser table index bits lookup).outcome s := by
    intro chooser
    rw [pass_eq, hlookup]
    rfl
  simp only [hpass, passOf]
  split
  case h_1 subtables hkind =>
    have hcovers : ∀ x ∈ s.buffer.inputText, ∀ c ∈ subtables.toList,
        c.coverage.covers x.glyph = false := by
      -- the subtables of the reverse type cover no glyph of the text
      intro x hx c hc
      apply hspares x hx
      rw [hkind]
      exact List.mem_map_of_mem hc
    obtain ⟨s', hs', hrun⟩ := exists_unmoved_reversePass hcovers lookup.flag bits s.buffer.size
    exact ⟨s', hs', fun _ => hrun⟩
  case h_2 =>
    -- the other types copy the whole text, which then is the input again
    have hinside : s.buffer.position ≤ s.buffer.size := hstart.position ▸ Nat.zero_le _
    obtain ⟨t, ht, hrun⟩ := exists_copied_forwardPass
      (fun s item hitem hitem' => exists_unmoved_applyLookup hlookup hitem hitem' levels noContext)
      bits hinside (Nat.le_refl _) fun x hx => hspares x (List.mem_of_mem_drop hx)
    refine ⟨_, ht.unmoved_swap hstart, fun chooser => ?_⟩
    rw [outcome_bind_ok (outcome_get s), hlevels, outcome_bind_ok (hrun chooser)]
    rfl

theorem exists_unmoved_applyActive (hlimit : 1 ≤ table.nestingLimit) {active : List (Nat × UInt32)}
    (hactive : ∀ entry ∈ active, ∃ lookup, table.layout.lookup entry.1 = .ok lookup ∧
      ∀ x ∈ s.buffer.inputText, lookup.subtables.Spares x.glyph) (hstart : s.buffer.AtStart) :
    ∃ s', Unmoved s s' ∧
      ∀ chooser, (applyActive chooser table active).outcome s = (.ok (), s') := by
  induction active generalizing s with
  | nil => exact ⟨s, .refl s, fun _ => rfl⟩
  | cons entry rest ih =>
    obtain ⟨index, bits⟩ := entry
    obtain ⟨⟨lookup, hlookup, hspares⟩, hrest⟩ := List.forall_mem_cons.mp hactive
    obtain ⟨t, ht, hpass⟩ := exists_unmoved_pass bits hlimit hlookup hstart hspares
    rw [← ht.text.input] at hrest
    obtain ⟨s', hs', hrun⟩ := ih hrest (ht.atStart hstart)
    refine ⟨s', ht.trans hs', fun chooser => ?_⟩
    rw [applyActive_cons, outcome_bind_ok (hpass chooser), hrun chooser]

/-- One application to a text that is not covered succeeds and changes nothing, whatever
    the chooser. -/
theorem exists_unmoved_substitute (hcomplete : table.Complete) (hlimit : 1 ≤ table.nestingLimit)
    (hstart : s.buffer.AtStart) (hglyphs : 0 < s.buffer.size)
    (hspares : table.SparesText s.buffer.inputText) :
    ∃ s', Unmoved s s' ∧ ∀ chooser, table.substitute chooser s = (.ok (), s') := by
  have hempty : s.buffer.input.isEmpty = false := by
    simpa [GlyphBuffer.size, Array.size_pos_iff] using hglyphs
  have hactive : ∀ entry ∈ table.active, ∃ lookup, table.layout.lookup entry.1 = .ok lookup ∧
      ∀ x ∈ s.buffer.inputText, lookup.subtables.Spares x.glyph := by
    intro entry hentry
    obtain ⟨lookup, hlookup⟩ := hcomplete.exists_lookup hentry
    exact ⟨lookup, hlookup, hspares entry hentry lookup hlookup⟩
  obtain ⟨s', hs', hrun⟩ := exists_unmoved_applyActive hlimit hactive hstart
  refine ⟨s', hs', fun chooser => ?_⟩
  rw [substitute_eq_outcome chooser table hempty, hrun chooser]

end SubstM

/-- Let no glyph of a text be covered by an active lookup, whatever lookups there are. The table has
    activation bits for all its lookups, as every table does that is obtained from a font
    (`Obtained.complete`). Then applying it succeeds any number of times, and it makes no difference
    which chooser there is, because it is not asked. The text stays as it is but for what is known
    of its glyphs: the input is as long as it was and has the same glyphs, clusters, activation
    bits, components and ligature numbers, nothing of it is done and nothing has been written. No
    ligature number is handed out and no class recorded. -/
theorem substitute_uncovered {σ : Type} (table : ActiveTable Substitution)
    (chooser : AlternateChooser σ) (s : SubstState σ) (hcomplete : table.Complete)
    (hlimit : 1 ≤ table.nestingLimit) (hstart : s.buffer.AtStart) (hglyphs : 0 < s.buffer.size)
    (hspares : table.SparesText s.buffer.inputText) (n : Nat) :
    let after := fun n => (fun s => (table.substitute chooser s).2)^[n] s
    (∀ chooser', table.substitute chooser' (after n) = (.ok (), after (n + 1))) ∧
      Discipline.Unmoved s (after n) ∧ (after n).buffer.AtStart := by
  intro after
  -- whatever has happened before, one application more leaves the text as it is
  have hstep : ∀ t, Discipline.Unmoved s t → ∃ t', Discipline.Unmoved t t' ∧
      ∀ chooser', table.substitute chooser' t = (.ok (), t') := by
    intro t ht
    refine SubstM.exists_unmoved_substitute hcomplete hlimit (ht.atStart hstart) ?_ ?_
    · rw [ht.text.size]
      exact hglyphs
    · rw [ht.text.input]
      exact hspares
  have hsucc : ∀ n, after (n + 1) = (table.substitute chooser (after n)).2 :=
    fun n => Function.iterate_succ_apply' _ n s
  -- so do any number of applications
  have hunmoved : ∀ n, Discipline.Unmoved s (after n) := by
    intro n
    induction n with
    | zero => exact .refl s
    | succ n ih =>
      obtain ⟨t', ht', hrun⟩ := hstep (after n) ih
      rw [hsucc, hrun chooser]
      exact ih.trans ht'
  obtain ⟨t', -, hrun⟩ := hstep (after n) (hunmoved n)
  -- the chooser may be another one, since it is not asked
  refine ⟨fun chooser' => ?_, hunmoved n, (hunmoved n).atStart hstart⟩
  rw [hsucc, hrun chooser', hrun chooser]

/-! A font with one lookup of each type. All of them are for the glyph 1 and are active everywhere.
    The glyph 5 is a mark, which two of the lookups skip. -/

namespace EveryType

def layout : LayoutTable Substitution where
  scripts := #[]
  features := #[]
  lookups := #[
    { flag := ⟨0⟩, subtables := .single #[.delta (.glyphs #[1]) 1, .list ⟨.glyphs #[1], #[2]⟩] },
    { flag := ⟨0⟩, subtables := .multiple #[⟨.glyphs #[1], #[#[2, 3]]⟩] },
    { flag := ⟨0⟩, subtables := .alternate #[⟨.glyphs #[1], #[#[2, 3]]⟩] },
    { flag := ⟨0x0008⟩, subtables := .ligature #[⟨.glyphs #[1], #[#[⟨9, #[2]⟩]]⟩] },
    -- there is no rule set for the covered glyph, so the lookup would fail there
    { flag := ⟨0x0008⟩, subtables := .context #[.byGlyph (.glyphs #[1]) #[]] },
    { flag := ⟨0⟩, subtables := .chained #[
      .byCoverage (.glyphs #[1]) #[.glyphs #[5]] #[.glyphs #[2]] #[.glyphs #[3]] [⟨0, 0⟩]] },
    { flag := ⟨0⟩, subtables :=
      .reverse #[⟨.glyphs #[1], #[.glyphs #[5]], #[.glyphs #[3]], #[2]⟩] }]

def table : ActiveTable Substitution where
  layout := layout
  bits := #[1, 1, 1, 1, 1, 1, 1]
  nestingLimit := 1

def gdef : Gdef where
  classes := some (.ranges #[⟨5, 5, 3⟩])
  synthesized := some (.ofRanges 10 [⟨5, 5, 3⟩])

/-- The glyphs 5, 2, 3. -/
def start : SubstState Unit where
  buffer := ((GlyphBuffer.empty.push 5 1 0).push 2 1 1).push 3 1 2
  gdef := some gdef
  kept := ()

theorem sparesText : table.SparesText start.buffer.inputText := by
  have hall : ∀ l ∈ layout.lookups.toList, ∀ x ∈ start.buffer.inputText,
      ∀ c ∈ l.subtables.coverages, c.covers x.glyph = false := by decide
  intro active _ lookup hlookup
  apply hall
  unfold LayoutTable.lookup at hlookup
  split at hlookup
  case h_1 hget =>
    cases hlookup
    exact Array.mem_toList_iff.mpr (Array.mem_of_getElem? hget)
  case h_2 => cases hlookup

end EveryType

open EveryType in
/-- Twice, and then once more. -/
theorem substitute_uncovered_everyType :
    let after := (fun s => (table.substitute .first s).2)^[2] start
    (table.substitute .first after).1 = .ok () ∧ Discipline.Unmoved start after := by
  intro after
  obtain ⟨hrun, hunmoved, -⟩ :=
    substitute_uncovered table .first start rfl (Nat.le_refl 1) ⟨rfl, rfl⟩ (by decide) sparesText 2
  exact ⟨congrArg Prod.fst (hrun .first), hunmoved⟩

end OpenTypeLayout
