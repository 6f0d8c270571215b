import OpenTypeLayout.Proofs.Positioning.Consumption
import OpenTypeLayout.Proofs.Positioning.Contract
import OpenTypeLayout.Proofs.Substitution.Consumption
import OpenTypeLayout.Proofs.Substitution.Failures

/-!
# Rules consume what they match

A rule that has matched ends just behind the last glyph that it has matched, whatever its lookups
do, as long as all lookups that are involved skip the same glyphs. For substituting this needs
properties to be kept with the glyphs, as they are with all glyph definitions that can be had.
-/

namespace OpenTypeLayout

/-! ## §1 Glyph definitions that can be had -/

namespace Gdef

/-- The ways in which glyph definitions come about and change. -/
inductive Obtained : Gdef → Prop
  /-- The table of a font that has none. -/
  | empty : Obtained .empty
  /-- A table is read. -/
  | read {w : Window} {g : Gdef} (h : ofWindow w = .ok g) : Obtained g
  /-- The mark attachment classes are decoded. -/
  | loaded {g g' : Gdef} (hg : Obtained g) (h : g.loadMarkAttachment = .ok g') : Obtained g'
  /-- Classes are made up. -/
  | built {g g' : Gdef} {glyphCount : UInt16} {glyphs classes : Array UInt16} (hg : Obtained g)
      (h : g.build glyphCount glyphs classes = .ok g') : Obtained g'
  /-- The class of a glyph is recorded. -/
  | recorded {g : Gdef} {glyph : GlyphId} {p : GlyphProperty} {answer : Bool × Gdef}
      (hg : Obtained g) (h : g.record glyph p = .ok answer) : Obtained answer.2

theorem keepsProperties_of_build {g g' : Gdef} {glyphCount : UInt16} {glyphs classes : Array UInt16}
    (h : g.build glyphCount glyphs classes = .ok g') : g'.keepsProperties = g.keepsProperties := by
  unfold build at h
  split at h <;> cases h
  rfl

/-- Properties are kept with the glyphs whatever the definitions are. -/
theorem Obtained.keepsProperties {g : Gdef} (h : g.Obtained) : g.keepsProperties = true := by
  induction h with
  | empty => rfl
  | read h => exact (ensures_ofWindow _ _ h).1
  | loaded _ h ih =>
    obtain ⟨_, rfl⟩ := ensures_loadMarkAttachment _ _ h
    exact ih
  | built _ h ih => exact (keepsProperties_of_build h).trans ih
  | recorded _ h ih => exact (keepsProperties_of_record h).trans ih

end Gdef

/-! ## §2 Rules -/

/-- Let a layout table have been read, and let all lookups that are reached from a contextual one
    have the flag that it has. If some of its rules that may apply are tried and one of them
    matches, and then this rule is worked through without a failure, substituting has gone past the
    last glyph that the rule has matched and past no more, and positioning answers with the index
    behind that glyph. So no lookup that is invoked on the way reaches any further. This holds
    however deeply lookups may be nested, and for rules of any length. -/
theorem applyRule_consumes_matched :
    (∀ {σ : Type} (chooser : AlternateChooser σ) {w : Window} {layout : LayoutTable Substitution}
      {lookupIndex : Nat} {lookup : Lookup Substitution} {subtables : Array ContextLookup}
      {subtable : ContextLookup} {glyph : GlyphId} {contextLength : UInt16}
      {candidates rules : List RuleCandidate} {rule : RuleMatch} (levels : Nat)
      {s t s' : SubstState σ},
      LayoutTable.ofWindow w = .ok layout → layout.lookup lookupIndex = .ok lookup →
      (∀ j other, layout.Reaches lookupIndex j → layout.lookup j = .ok other →
        other.flag = lookup.flag) →
      lookup.subtables = .context subtables ∨ lookup.subtables = .chained subtables →
      subtable ∈ subtables → subtable.candidates glyph contextLength = .ok candidates →
      rules ⊆ candidates → (∀ g, s.gdef = some g → g.Obtained) →
      s.buffer.position < s.buffer.size →
      (SubstM.findRule lookup.flag rules).outcome s = (.ok (some rule), t) →
      (SubstM.applyRule (SubstM.applyLookup chooser layout levels) lookup.flag rule).outcome t =
        (.ok (), s') →
      let places := rule.places ⟨t.gdef, lookup.flag⟩ t.buffer.input t.buffer.position
      ∃ last handed, places.getLast? = some last ∧
        Rounds SubstM.reached
          (SubstM.Round (SubstM.applyLookup chooser layout levels) places)
          places last rule.records t handed s' ∧
        (∀ h ∈ handed, h.after.buffer.position ≤ last + 1) ∧ s'.buffer.position = last + 1) ∧
    ∀ {σ : Type} (c : PosContext σ) {w : Window} {layout : LayoutTable Positioning}
      {lookupIndex : Nat} {lookup : Lookup Positioning} {subtables : Array ContextLookup}
      {subtable : ContextLookup} {glyph : GlyphId} {contextLength : UInt16}
      {candidates rules : List RuleCandidate} {rule : RuleMatch} (levels : Nat) {index next : Nat}
      {s t s' : PosState σ},
      LayoutTable.ofWindow w = .ok layout → layout.lookup lookupIndex = .ok lookup →
      (∀ j other, Positioning.Reaches layout lookupIndex j → layout.lookup j = .ok other →
        other.flag = lookup.flag) →
      lookup.subtables = .context subtables ∨ lookup.subtables = .chained subtables →
      subtable ∈ subtables → subtable.candidates glyph contextLength = .ok candidates →
      rules ⊆ candidates → s.Ready index →
      Program.outcome (PosM.findRule c lookup.flag index rules) s = (.ok (some rule), t) →
      Program.outcome
        (PosM.applyRule c (PosM.applyLookup c layout levels) lookup.flag rule index) t =
        (.ok next, s') →
      let places := rule.places ⟨c.gdef, lookup.flag⟩ t.glyphs index
      ∃ last handed, places.getLast? = some last ∧
        Rounds Prod.snd (PosM.Round (PosM.applyLookup c layout levels) places) places last
          rule.records (t, index) handed (s', next) ∧
        (∀ h ∈ handed, h.after.2 ≤ last + 1) ∧ next = last + 1 := by
  constructor
  · intro σ chooser w layout lookupIndex lookup subtables subtable glyph contextLength candidates
      rules rule levels s t s' hread hlookup hflag hkind hsubtable hcandidates hrules hgdef hlt
      hfind hrun
    -- the rule that is found is one of the candidates, and its last glyph is known
    have hfit := fun r (hr : r ∈ rules) => ContextLookup.candidates_fit hcandidates (hrules hr)
    obtain ⟨hretained, hposition, hfound⟩ := (SubstM.retains_findRule (fun r hr => (hfit r hr).1)
      fun g hg => (hgdef g hg).keepsProperties).of_ok hfind
    obtain ⟨last, ⟨r, hr, rfl⟩, hnth, hknown⟩ := hfound rule rfl
    have hresult : r.result ∈ lookup.subtables.results := by
      have hmem := ContextLookup.mem_results hsubtable hcandidates (hrules hr)
      rcases hkind with hkind | hkind <;> exact hkind ▸ hmem
    -- all lookups that it leads to have the same flag, so they are confined to the context
    have hconfined : ∀ record ∈ r.result.records, SubstM.Confined lookup.flag
        (SubstM.applyLookup chooser layout levels record.lookupIndex.toNat) := by
      intro record hrecord
      refine SubstM.confined_applyLookup
        (LayoutTable.subtables_of_ofWindow Substitution.ensures_load hread)
        (fun j other hreaches => ?_) levels
      exact hflag j other (.head ⟨lookup, hlookup, _, hresult, record, hrecord, rfl⟩ hreaches)
    have hlt' : t.buffer.position < t.buffer.size := by
      rw [hposition, hretained.size]
      exact hlt
    have hlawful := SubstM.lawful_applyLookup chooser layout levels
    -- the rule ends behind its last glyph, and no round goes further
    have hend := ((SubstM.retains_applyRule hlawful hconfined hlt' hknown hnth).of_ok hrun).2
    have hlast := GlyphFilter.getLast?_places hnth
    obtain ⟨handed, hrounds⟩ := SubstM.rounds_applyRule hlawful hlt' hlast hrun
    exact ⟨last, handed, hlast, hrounds, fun h hh => hend ▸ hrounds.reached_after_le h hh, hend⟩
  -- positioning takes the same way, with an index in the place of the buffer
  · intro σ c w layout lookupIndex lookup subtables subtable glyph contextLength candidates
      rules rule levels index next s t s' hread hlookup hflag hkind hsubtable hcandidates hrules
      hs hfind hrun
    have hfit := fun r (hr : r ∈ rules) => ContextLookup.candidates_fit hcandidates (hrules hr)
    obtain ⟨hkept, hstays, hfound⟩ :=
      (PosM.meets_findRule fun r hr => (hfit r hr).1).of_ok hfind
    obtain ⟨r, hr, rfl, last, hnth⟩ := hfound rule rfl
    have hresult : r.result ∈ lookup.subtables.results := by
      have hmem := ContextLookup.mem_results hsubtable hcandidates (hrules hr)
      rcases hkind with hkind | hkind <;> exact hkind ▸ hmem
    have hallows : PosM.Allows c (c.Failure layout s.glyphs) layout s.glyphs :=
      PosM.allows_failure hread s.glyphs
    -- here confinement is about the text, which stays as it is
    have hconfined : ∀ record ∈ r.result.records, PosM.Confined c lookup.flag s.glyphs
        (PosM.applyLookup c layout levels record.lookupIndex.toNat) := by
      intro record hrecord
      refine PosM.confined_applyLookup hallows (fun j other hreaches => ?_) levels
      exact hflag j other (.head ⟨lookup, hlookup, _, hresult, record, hrecord, rfl⟩ hreaches)
    have hloaded := (LayoutTable.loaded_of_ofWindow hread hlookup).rules _ hresult
    have hlawful := PosM.lawful_applyLookup hallows levels
    have hs' := hstays.ready hkept hs
    -- the index that is answered is the one behind the last glyph
    have hend : next = last + 1 :=
      (PosM.answers_applyRule hlawful hconfined hloaded.count hkept.text hs' hnth).of_ok hrun
    have hlast := GlyphFilter.getLast?_places hnth
    obtain ⟨handed, hrounds⟩ :=
      PosM.rounds_applyRule hlawful hloaded.count hkept.text hs' hlast hrun
    exact ⟨last, handed, hlast, hrounds, fun h hh => hend ▸ hrounds.reached_after_le h hh, hend⟩

/-! The rules of the two fonts with a pair, looked for and worked through. Between the two glyphs of
    the pair there is a mark, which is skipped. -/

namespace MarkedPair

def contextual : ContextLookup := .byCoverage (.glyphs #[1]) #[] #[.glyphs #[2]] #[] [⟨0, 1⟩]

def rules : List RuleCandidate := (contextual.candidates 1 noContext).toOption.getD []

def found : Except LayoutError (Option RuleMatch) × SubstState Unit :=
  (SubstM.findRule ⟨0x0008⟩ rules).outcome start

def worked : Except LayoutError Unit × SubstState Unit :=
  (SubstM.applyRule (SubstM.applyLookup AlternateChooser.first layout 99) ⟨0x0008⟩
    ⟨2, [⟨0, 1⟩]⟩).outcome found.2

/-- The glyph definitions have been made up for a font that has none. -/
theorem obtained_of_start {g : Gdef} (h : start.gdef = some g) : g.Obtained := by
  have hranges : ClassRange.ofGlyphs (#[5].zip #[3]) = [⟨5, 5, 3⟩] := by decide +kernel
  have hbuild : Gdef.empty.build 10 #[5] #[3] = .ok gdef := by
    rw [Gdef.build, if_pos (by decide +kernel), hranges]
    rfl
  cases h
  exact .built .empty hbuild

theorem flag_eq {index : Nat} {lookup : Lookup Substitution}
    (h : layout.lookup index = .ok lookup) : lookup.flag = ⟨0x0008⟩ := by
  rcases index with _ | _ | index <;> cases h <;> rfl

end MarkedPair

namespace JoinedPair

def contextual : ContextLookup :=
  .byCoverage (.glyphs #[1]) #[] #[.glyphs #[2]] #[] [⟨0, 1⟩, ⟨1, 1⟩]

def rules : List RuleCandidate := (contextual.candidates 1 noContext).toOption.getD []

def found : Except LayoutError (Option RuleMatch) × PosState Unit :=
  Program.outcome (PosM.findRule context ⟨0x0008⟩ 0 rules) (PosM.startOf before)

def worked : Except LayoutError Nat × PosState Unit :=
  Program.outcome (PosM.applyRule context (PosM.applyLookup context layout 99) ⟨0x0008⟩
    ⟨2, [⟨0, 1⟩, ⟨1, 1⟩]⟩ 0) found.2

theorem flag_eq {index : Nat} {lookup : Lookup Positioning}
    (h : layout.lookup index = .ok lookup) : lookup.flag = ⟨0x0008⟩ := by
  rcases index with _ | _ | index <;> cases h <;> rfl

end JoinedPair

/-- Both end behind the third glyph. -/
theorem applyRule_consumes_matched_pairs :
    MarkedPair.found.1 = .ok (some ⟨2, [⟨0, 1⟩]⟩) ∧
      (∃ last, [0, 2].getLast? = some last ∧ MarkedPair.worked.2.buffer.position = last + 1) ∧
      JoinedPair.found.1 = .ok (some ⟨2, [⟨0, 1⟩, ⟨1, 1⟩]⟩) ∧
      ∃ last, [0, 2].getLast? = some last ∧ JoinedPair.worked.1 = .ok (last + 1) := by
  obtain ⟨hsubst, hpos⟩ := applyRule_consumes_matched
  have hmarked : MarkedPair.found.1 = .ok (some ⟨2, [⟨0, 1⟩]⟩) := by decide +kernel
  have hjoined : JoinedPair.found.1 = .ok (some ⟨2, [⟨0, 1⟩, ⟨1, 1⟩]⟩) := by decide +kernel
  refine ⟨hmarked, ?_, hjoined, ?_⟩
  -- the ligature is applied within the pair, and the mark between them is gone past
  · have hlookup : MarkedPair.layout.lookup 0 = .ok MarkedPair.layout.lookups[0] := rfl
    have hworked : MarkedPair.worked.1 = .ok () := by decide +kernel
    obtain ⟨last, -, hlast, -, -, hend⟩ := hsubst AlternateChooser.first 99
      MarkedPair.ofWindow_data hlookup
      (fun j other _ h => MarkedPair.flag_eq h) (.inr rfl) (Array.mem_singleton.mpr rfl)
      (show MarkedPair.contextual.candidates 1 noContext = .ok MarkedPair.rules from rfl)
      (List.Subset.refl _) (fun g hg => MarkedPair.obtained_of_start hg) (by decide)
      (Program.outcome_eq_of_answer hmarked) (Program.outcome_eq_of_answer hworked)
    exact ⟨last, hlast, hend⟩
  -- both glyphs of the pair are joined, and the mark between them is skipped
  · have hlookup : JoinedPair.layout.lookup 0 = .ok JoinedPair.layout.lookups[0] := rfl
    have hworked : JoinedPair.worked.1 = .ok 3 := by decide +kernel
    obtain ⟨last, -, hlast, -, -, hnext⟩ := hpos JoinedPair.context 99 JoinedPair.ofWindow_data
      hlookup (fun j other _ h => JoinedPair.flag_eq h) (.inr rfl) (Array.mem_singleton.mpr rfl)
      (show JoinedPair.contextual.candidates 1 noContext = .ok JoinedPair.rules from rfl)
      (List.Subset.refl _) (by decide +kernel) (Prod.ext hjoined rfl) (Prod.ext hworked rfl)
    exact ⟨last, hlast, hnext ▸ hworked⟩

end OpenTypeLayout
