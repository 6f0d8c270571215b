import Mathlib.Data.List.Perm.Subperm
import OpenTypeLayout.Proofs.Positioning.Contract
import OpenTypeLayout.Proofs.Positioning.Rounds
import OpenTypeLayout.Proofs.Substitution.Failures
import OpenTypeLayout.Proofs.Substitution.Rounds

/-!
# Which records are handed over

A rule is stored with records that name the lookups to invoke at its glyphs. They are worked through
in order, but only the first one for a glyph is ever handed over. The others for that glyph are
dropped, even if the lookup of the first one has not applied.

- `Handing.isDue` picks the records that should be handed over, and `Handing.handed_eq_due_iff` says
  when all of these are.
- `records_handedOver` is about the rules of all layout tables that have been read.
- §3 has a font with a rule one of whose records is dropped.
-/

namespace OpenTypeLayout

/-! ## §1 Records that are due -/

namespace Handing

variable {S : Type} {reached : S → Nat} {places : List Nat} {records : List LookupRecord}
variable {handed : List (Handed S)}

/-- The rule has matched the glyph of the record, and no lookup for an earlier glyph has
    gone past it. -/
def isDue (reached : S → Nat) (places : List Nat) (handed : List (Handed S)) (r : LookupRecord) :
    Bool :=
  (places[r.sequenceIndex.toNat]?).any fun place =>
    handed.all fun h => decide (h.record.sequenceIndex < r.sequenceIndex → reached h.after ≤ place)

theorem isDue_iff {r : LookupRecord} :
    isDue reached places handed r = true ↔ ∃ place, places[r.sequenceIndex.toNat]? = some place ∧
      ∀ h ∈ handed, h.record.sequenceIndex < r.sequenceIndex → reached h.after ≤ place := by
  rw [isDue, Option.any_eq_true]
  simp only [List.all_eq_true, decide_eq_true_eq]

/-- Records for one glyph are due together. -/
theorem isDue_of_eq {r r' : LookupRecord} (h : isDue reached places handed r = true)
    (heq : r'.sequenceIndex = r.sequenceIndex) : isDue reached places handed r' = true := by
  rw [isDue_iff] at h ⊢
  exact heq ▸ h

/-- Of two records that are handed over, the lookup of the earlier one ends before the other is
    invoked. -/
theorem after_le_before (h : Handing reached places records handed) {x y : Handed S}
    (hx : x ∈ handed) (hy : y ∈ handed) (hlt : y.record.sequenceIndex < x.record.sequenceIndex) :
    reached y.after ≤ reached x.before := by
  obtain ⟨i, hi, rfl⟩ := List.mem_iff_getElem.mp hy
  obtain ⟨j, hj, rfl⟩ := List.mem_iff_getElem.mp hx
  rcases Nat.lt_trichotomy i j with hij | rfl | hji
  · exact List.pairwise_iff_getElem.mp h.inTurn i j hi hj hij
  · exact absurd hlt (UInt16.lt_irrefl _)
  · exact absurd hlt (UInt16.lt_asymm (List.pairwise_iff_getElem.mp h.ascending j i hj hi hji))

/-- What is handed over is due. -/
theorem isDue_of_handed (h : Handing reached places records handed) {x : Handed S}
    (hx : x ∈ handed) : isDue reached places handed x.record = true :=
  isDue_iff.mpr ⟨reached x.before, h.atPlace x hx, fun _ hy => h.after_le_before hx hy⟩

theorem sublist_due (h : Handing reached places records handed) :
    (handed.map Handed.record).Sublist (records.filter (isDue reached places handed)) := by
  have hfilter := h.sublist.filter (isDue reached places handed)
  rwa [List.filter_eq_self.mpr] at hfilter
  exact List.forall_mem_map.mpr fun x hx => h.isDue_of_handed hx

/-- A record that is due is handed over if it comes first for its glyph. -/
theorem mem_of_isDue (h : Handing reached places records handed) {earlier later : List LookupRecord}
    {r : LookupRecord} (hrecords : records = earlier ++ r :: later)
    (hfirst : ∀ e ∈ earlier, e.sequenceIndex ≠ r.sequenceIndex)
    (hdue : isDue reached places handed r = true) : r ∈ handed.map Handed.record := by
  obtain ⟨place, hplace, hpassed⟩ := isDue_iff.mp hdue
  rcases h.complete earlier r later place hrecords hfirst hplace with
    ⟨x, hx, rfl⟩ | ⟨x, hx, hlt, hpast⟩
  · exact List.mem_map_of_mem hx
  · have := hpassed x hx hlt
    omega

/-- All records that are due are handed over just in case no two of them are for one glyph. -/
theorem handed_eq_due_iff (h : Handing reached places records handed) :
    handed.map Handed.record = records.filter (isDue reached places handed) ↔
      (records.filter (isDue reached places handed)).Pairwise fun a b =>
        a.sequenceIndex ≠ b.sequenceIndex := by
  constructor
  · intro heq
    rw [← heq, List.pairwise_map]
    exact h.ascending.imp fun hlt => UInt16.ne_of_lt hlt
  · intro hdistinct
    have hsubset : records.filter (isDue reached places handed) ⊆ handed.map Handed.record := by
      intro r hr
      obtain ⟨hmem, hdue⟩ := List.mem_filter.mp hr
      obtain ⟨earlier, later, hrecords⟩ := List.append_of_mem hmem
      refine h.mem_of_isDue hrecords (fun e he heq => ?_) hdue
      -- another record for the glyph would be due, too
      rw [hrecords, List.filter_append, List.pairwise_append] at hdistinct
      exact hdistinct.2.2 e (List.mem_filter.mpr ⟨he, isDue_of_eq hdue heq⟩) r
        (List.mem_filter.mpr ⟨List.mem_cons_self, hdue⟩) heq
    have hnodup : (records.filter (isDue reached places handed)).Nodup :=
      hdistinct.imp fun hne heq => hne (congrArg LookupRecord.sequenceIndex heq)
    exact h.sublist_due.eq_of_length_le (List.subperm_of_subset hnodup hsubset).length_le

end Handing

/-! ## §2 Rules of both kinds -/

/-- Let a layout table have been read, and a rule of one of its lookups have been worked through
    without a failure. Then this has been done in rounds, each of which invokes the lookup of a
    record or goes on by one glyph. The records that are handed over are in order, which is that of
    the font for records of one glyph (`LookupRecord.filter_sorted`), and each is handed over where
    the rule has matched its glyph. They are all the records that are due just in case no two of
    these are for one glyph. If there are more for one glyph, the first of them is handed over and
    the others are not. -/
theorem records_handedOver {σ : Type} {lookupIndex : Nat} (levels : Nat) :
    (∀ (chooser : AlternateChooser σ) {w : Window} {layout : LayoutTable Substitution}
      {lookup : Lookup Substitution} {rule : RuleMatch} {s s' : SubstState σ},
      LayoutTable.ofWindow w = .ok layout → layout.lookup lookupIndex = .ok lookup →
      rule ∈ lookup.subtables.results → s.buffer.position < s.buffer.size →
      (SubstM.applyRule (SubstM.applyLookup chooser layout levels) lookup.flag rule).outcome s =
        (.ok (), s') →
      let places := rule.places ⟨s.gdef, lookup.flag⟩ s.buffer.input s.buffer.position
      ∃ last handed, places.getLast? = some last ∧
        Rounds SubstM.reached
          (SubstM.Round (SubstM.applyLookup chooser layout levels) places) places
          last rule.records s handed s' ∧
        Handing SubstM.reached places rule.records handed ∧
        let due := rule.records.filter (Handing.isDue SubstM.reached places handed)
        (handed.map Handed.record = due ↔
          due.Pairwise fun a b => a.sequenceIndex ≠ b.sequenceIndex)) ∧
    ∀ (c : PosContext σ) {w : Window} {layout : LayoutTable Positioning}
      {lookup : Lookup Positioning} {rule : RuleMatch} {index next : Nat} {s s' : PosState σ},
      LayoutTable.ofWindow w = .ok layout → layout.lookup lookupIndex = .ok lookup →
      rule ∈ lookup.subtables.results → s.Ready index →
      Program.outcome
        (PosM.applyRule c (PosM.applyLookup c layout levels) lookup.flag rule index) s =
        (.ok next, s') →
      let places := rule.places ⟨c.gdef, lookup.flag⟩ s.glyphs index
      ∃ last handed, places.getLast? = some last ∧
        Rounds Prod.snd (PosM.Round (PosM.applyLookup c layout levels) places) places last
          rule.records (s, index) handed (s', next) ∧
        Handing Prod.snd places rule.records handed ∧
        let due := rule.records.filter (Handing.isDue Prod.snd places handed)
        (handed.map Handed.record = due ↔
          due.Pairwise fun a b => a.sequenceIndex ≠ b.sequenceIndex) := by
  constructor
  · intro chooser w layout lookup rule s s' hread hlookup hrule hlt hrun
    dsimp only
    obtain ⟨last, hlast, -⟩ := rule.getLast?_places ⟨s.gdef, lookup.flag⟩ hlt
    -- the records of a rule that has been read are sorted by the glyphs they are for
    have hloaded : rule.Loaded :=
      LayoutTable.subtables_of_ofWindow Substitution.ensures_load_results hread hlookup rule hrule
    obtain ⟨handed, hrounds⟩ :=
      SubstM.rounds_applyRule (SubstM.lawful_applyLookup chooser layout levels) hlt hlast hrun
    have hhanding := hloaded.handing hlast hrounds rfl
    exact ⟨last, handed, hlast, hrounds, hhanding, hhanding.handed_eq_due_iff⟩
  · intro c w layout lookup rule index next s s' hread hlookup hrule hs hrun
    dsimp only
    obtain ⟨last, hlast, -⟩ := rule.getLast?_places ⟨c.gdef, lookup.flag⟩ hs.inside
    have hloaded : rule.Loaded :=
      (LayoutTable.loaded_of_ofWindow hread hlookup).rules rule hrule
    -- the failures a positioning step may have are not restricted: only success is used
    have hallows : PosM.Allows c (c.Failure layout s.glyphs) layout s.glyphs :=
      PosM.allows_failure hread s.glyphs
    obtain ⟨handed, hrounds⟩ := PosM.rounds_applyRule (PosM.lawful_applyLookup hallows levels)
      hloaded.count rfl hs hlast hrun
    have hhanding := hloaded.handing hlast hrounds rfl
    exact ⟨last, handed, hlast, hrounds, hhanding, hhanding.handed_eq_due_iff⟩

open MarkedPair in
/-- The record for the first glyph of the pair is handed over, for substituting and for
    positioning. -/
theorem records_handedOver_pairs :
    LayoutTable.ofWindow (Window.ofBytes data) = .ok layout ∧
      LayoutTable.ofWindow (Window.ofBytes JoinedPair.data) = .ok JoinedPair.layout ∧
      (∃ s' last handed, Rounds SubstM.reached
          (SubstM.Round (SubstM.applyLookup AlternateChooser.first layout 99) [0, 2]) [0, 2] last
          [⟨0, 1⟩] start handed s' ∧
        Handing SubstM.reached [0, 2] [⟨0, 1⟩] handed) ∧
      ∃ s' last handed, Rounds Prod.snd
          (PosM.Round (PosM.applyLookup JoinedPair.context JoinedPair.layout 99) [0, 2]) [0, 2] last
          [⟨0, 1⟩, ⟨1, 1⟩] (PosM.startOf JoinedPair.before, 0) handed (s', 3) ∧
        Handing Prod.snd [0, 2] [⟨0, 1⟩, ⟨1, 1⟩] handed := by
  obtain ⟨hsubst, hpos⟩ := records_handedOver (σ := Unit) 99
  refine ⟨ofWindow_data, JoinedPair.ofWindow_data, ?_, ?_⟩
  · have hlookup : layout.lookup 0 = .ok layout.lookups[0] := rfl
    have hrun : ((SubstM.applyRule (SubstM.applyLookup AlternateChooser.first layout 99) ⟨0x0008⟩
        ⟨2, [⟨0, 1⟩]⟩).outcome start).1 = .ok () := by decide +kernel
    obtain ⟨last, handed, -, hrounds, hhanding, -⟩ := hsubst AlternateChooser.first ofWindow_data
      hlookup (List.mem_singleton.mpr rfl) (by decide) (Program.outcome_eq_of_answer hrun)
    exact ⟨_, last, handed, hrounds, hhanding⟩
  · have hlookup : JoinedPair.layout.lookup 0 = .ok JoinedPair.layout.lookups[0] := rfl
    have hrun : (Program.outcome (PosM.applyRule JoinedPair.context
        (PosM.applyLookup JoinedPair.context JoinedPair.layout 99) ⟨0x0008⟩
        ⟨2, [⟨0, 1⟩, ⟨1, 1⟩]⟩ 0) (PosM.startOf JoinedPair.before)).1 = .ok 3 := by decide +kernel
    obtain ⟨last, handed, -, hrounds, hhanding, -⟩ := hpos JoinedPair.context
      JoinedPair.ofWindow_data hlookup (List.mem_singleton.mpr rfl) (by decide +kernel)
      (Prod.ext hrun rfl)
    exact ⟨_, last, handed, hrounds, hhanding⟩

/-! ## §3 Two records for one glyph -/

/-! A font with a rule that invokes two lookups at the glyph 5, in this order: one puts 8 in the
    place of 7, the other 6 in the place of 5. -/

namespace TwoRecords

/-- The layout table as a font stores it. -/
def data : ByteArray := ⟨#[
  0x00, 0x01, 0x00, 0x00, 0x00, 0x00, 0x00, 0x00, 0x00, 0x0A,
  -- three lookups
  0x00, 0x03, 0x00, 0x08, 0x00, 0x26, 0x00, 0x3A,
  -- in context: 5, with two records for it
  0x00, 0x05, 0x00, 0x00, 0x00, 0x01, 0x00, 0x08,
  0x00, 0x03, 0x00, 0x01, 0x00, 0x02, 0x00, 0x10, 0x00, 0x00, 0x00, 0x01, 0x00, 0x00, 0x00, 0x02,
  0x00, 0x01, 0x00, 0x01, 0x00, 0x05,
  -- 8 for 7
  0x00, 0x01, 0x00, 0x00, 0x00, 0x01, 0x00, 0x08,
  0x00, 0x01, 0x00, 0x06, 0x00, 0x01, 0x00, 0x01, 0x00, 0x01, 0x00, 0x07,
  -- 6 for 5
  0x00, 0x01, 0x00, 0x00, 0x00, 0x01, 0x00, 0x08,
  0x00, 0x01, 0x00, 0x06, 0x00, 0x01, 0x00, 0x01, 0x00, 0x01, 0x00, 0x05]⟩

def layout : LayoutTable Substitution where
  scripts := #[]
  features := #[]
  lookups := #[
    { flag := ⟨0⟩
      subtables := .context #[.byCoverage (.glyphs #[5]) #[] #[] #[] [⟨0, 1⟩, ⟨0, 2⟩]] },
    { flag := ⟨0⟩, subtables := .single #[.delta (.glyphs #[7]) 1] },
    { flag := ⟨0⟩, subtables := .single #[.delta (.glyphs #[5]) 1] }]

theorem ofWindow_data : LayoutTable.ofWindow (Window.ofBytes data) = .ok layout := by
  rw [LayoutTable.ofWindow_eq_afresh]
  -- down to where the two records of the rule are put in order
  delta LayoutTable.ofWindowAfresh LayoutTable.load loadLookups Lookup.load LookupFamily.load
    instLookupFamilySubstitution Substitution.load ContextLookup.plain Decoder.lookupRecords
  rw [LookupRecord.sorted_eq_ite]
  decide +kernel

/-- The glyph 5. -/
def start : SubstState Unit where
  buffer := GlyphBuffer.empty.push 5 1 0
  gdef := none
  kept := ()

/-- A lookup invoked from the rule. -/
abbrev invoke : SubstM.Invoke Unit := SubstM.applyLookup AlternateChooser.first layout 99

/-- The rule worked through. -/
def run : Except LayoutError Unit × SubstState Unit :=
  (SubstM.applyRule invoke ⟨0⟩ ⟨1, [⟨0, 1⟩, ⟨0, 2⟩]⟩).outcome start

end TwoRecords

open TwoRecords SubstM in
/-- The second record for the glyph is not handed over, and the glyph stays as it is. The lookup of
    the first record has not applied and no other glyph comes into it, and the lookup of the second
    record would have put 6 in the place of the glyph. -/
theorem second_record_dropped :
    LayoutTable.ofWindow (Window.ofBytes data) = .ok layout ∧ run.1 = .ok () ∧
      (∃ handed, Rounds reached (Round invoke [0]) [0] 0 [⟨0, 1⟩, ⟨0, 2⟩] start handed run.2 ∧
        ∀ h ∈ handed, h.record ≠ ⟨0, 2⟩) ∧
      run.2.buffer.output.map GlyphItem.glyph = #[5] ∧
      ((invoke 1 1).outcome start).1 = .ok false ∧
      ((invoke 2 1).outcome start).1 = .ok true ∧
      ((invoke 2 1).outcome start).2.buffer.output.map GlyphItem.glyph = #[6] := by
  -- the first round goes past the glyph, so that there is no other
  have hrounds : Rounds reached (Round invoke [0]) [0] 0 [⟨0, 1⟩, ⟨0, 2⟩] start
      [⟨⟨0, 1⟩, start, run.2⟩] run.2 :=
    .hand (by decide) rfl rfl (by decide +kernel) (.done (by decide +kernel))
  exact ⟨ofWindow_data, by decide +kernel, ⟨_, hrounds, by simp⟩, by decide +kernel,
    by decide +kernel, by decide +kernel, by decide +kernel⟩

end OpenTypeLayout
