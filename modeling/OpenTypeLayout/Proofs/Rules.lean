import OpenTypeLayout.Proofs.Invocation
import OpenTypeLayout.Proofs.Loading

/-!
# Rules that have been read

The counts of a rule are stored in sixteen bits, and its records are put in order when it is read.
So much holds of the rules of every contextual subtable, whether it substitutes or positions.
-/

namespace OpenTypeLayout

/-! ## §1 Records -/

namespace LookupRecord

/-- Records for earlier glyphs of a rule come first. -/
def Ordered (records : List LookupRecord) : Prop :=
  records.Pairwise fun a b => a.sequenceIndex ≤ b.sequenceIndex

theorem ordered_sorted (records : Array LookupRecord) : Ordered (sorted records) := by
  have h : (records.toList.mergeSort fun a b => a.sequenceIndex ≤ b.sequenceIndex).Pairwise
      fun a b => decide (a.sequenceIndex ≤ b.sequenceIndex) = true :=
    List.pairwise_mergeSort (fun a b c => by simpa using UInt16.le_trans)
      (fun a b => by simpa using UInt16.le_total a.sequenceIndex b.sequenceIndex) records.toList
  simpa [Ordered, sorted] using h

instance (records : List LookupRecord) : Decidable (Ordered records) :=
  inferInstanceAs (Decidable (records.Pairwise _))

/-- Records that are in order stay as they are. With this, reading them can be evaluated: sorting
    recurses on lengths, where evaluation gets stuck. -/
theorem sorted_eq_ite : sorted = fun records =>
    if Ordered records.toList then records.toList else sorted records := by
  funext records
  split
  case isTrue hordered => exact List.mergeSort_of_pairwise (by simpa [Ordered] using hordered)
  case isFalse => rfl

/-- Putting records in order keeps the records for one glyph, in the order in which they
    are stored. -/
theorem filter_sorted (records : Array LookupRecord) (n : UInt16) :
    (sorted records).filter (fun r => r.sequenceIndex = n) =
      records.toList.filter fun r => r.sequenceIndex = n := by
  -- records for one glyph are in order already, so that sorting does not tear them apart
  have hordered : (records.toList.filter fun r => r.sequenceIndex = n).Pairwise
      fun a b => decide (a.sequenceIndex ≤ b.sequenceIndex) = true := by
    refine List.pairwise_iff_forall_sublist.mpr fun {a b} hab => ?_
    have ha : a.sequenceIndex = n := by simpa using (List.mem_filter.mp (hab.subset (by simp))).2
    have hb : b.sequenceIndex = n := by simpa using (List.mem_filter.mp (hab.subset (by simp))).2
    simp [ha, hb]
  have hsublist := (List.sublist_mergeSort (fun a b c => by simpa using UInt16.le_trans)
    (fun a b => by simpa using UInt16.le_total a.sequenceIndex b.sequenceIndex) hordered
    List.filter_sublist).filter fun r => r.sequenceIndex = n
  rw [List.filter_filter] at hsublist
  simp only [Bool.and_self] at hsublist
  have hperm := (List.mergeSort_perm records.toList
    fun a b => a.sequenceIndex ≤ b.sequenceIndex).filter fun r => r.sequenceIndex = n
  exact (hsublist.eq_of_length hperm.length_eq.symm).symm

end LookupRecord

/-- What holds of what a rule does if the rule has been read. -/
structure RuleMatch.Loaded (r : RuleMatch) : Prop where
  count : r.inputCount ≤ 0xFFFF
  ordered : LookupRecord.Ordered r.records

variable {m : Type → Type} [Monad m] [MonadExceptOf ParseError m] [Loader m]

theorem ensures_lookupRecords (n : Nat) :
    Ensures (Decoder.lookupRecords n : Decoder m _) LookupRecord.Ordered :=
  ensures_after fun records => ensures_pure (LookupRecord.ordered_sorted records)

/-! ## §2 Rules -/

namespace ContextRule

/-- What the rule does. -/
def result (r : ContextRule) : RuleMatch := { inputCount := r.input.size + 1, records := r.records }

theorem ensures_plain (w : Window) : Ensures (plain w) fun r => r.result.Loaded := by
  apply ensures_decode
  refine ensures_bind ensures_count fun count hcount => ?_
  refine ensures_bind ensures_demand fun _ hpos => ensures_after fun recordCount => ?_
  refine ensures_bind (ensures_u16s (count - 1)) fun input hsize => ?_
  refine ensures_bind (ensures_lookupRecords recordCount) fun records hordered => ?_
  have hpos : 0 < count := of_decide_eq_true hpos
  exact ensures_pure ⟨by simp only [result]; omega, hordered⟩

theorem ensures_chained (w : Window) : Ensures (chained w) fun r => r.result.Loaded := by
  apply ensures_decode
  refine ensures_after fun backtrackCount => ensures_after fun backtrack => ?_
  refine ensures_bind ensures_count fun count hcount => ?_
  refine ensures_bind ensures_demand fun _ hpos => ?_
  refine ensures_bind (ensures_u16s (count - 1)) fun input hsize => ?_
  refine ensures_after fun lookaheadCount => ensures_after fun lookahead =>
    ensures_after fun recordCount => ?_
  refine ensures_bind (ensures_lookupRecords recordCount) fun records hordered => ?_
  have hpos : 0 < count := of_decide_eq_true hpos
  exact ensures_pure ⟨by simp only [result]; omega, hordered⟩

end ContextRule

/-! ## §3 Subtables -/

namespace ContextLookup

/-- All rules of the subtable are as rules are that have been read. -/
def RulesLoaded (c : ContextLookup) : Prop := ∀ r ∈ c.results, r.Loaded

theorem ensures_ruleSets (w : Window) (offsets : Array UInt16)
    {rule : Window → Except ParseError ContextRule}
    (h : ∀ w, Ensures (rule w) fun r => r.result.Loaded) :
    Ensures (ruleSets w offsets rule : Decoder m _) fun sets =>
      ∀ r ∈ ruleSetResults sets, r.Loaded := by
  have hset : ∀ w, Ensures (RuleSet.ofWindow rule w) fun rules => ∀ r ∈ rules, r.result.Loaded := by
    intro w
    apply ensures_decode
    refine ensures_after fun count => ensures_after fun offsets => ?_
    exact ensures_mono (ensures_decodeEach w offsets h) fun _ h => h.2
  refine ensures_mono (ensures_decodeEachNullable w offsets fun target =>
    ensures_ofExcept (hset target)) fun sets hsets r hr => ?_
  obtain ⟨answer, hanswer, hr⟩ := List.mem_flatMap.mp hr
  cases answer with
  | none => exact absurd hr List.not_mem_nil
  | some rules =>
    obtain ⟨stored, hstored, rfl⟩ := List.mem_map.mp hr
    exact hsets _ (Array.mem_toList_iff.mp hanswer) rules rfl stored
      (Array.mem_toList_iff.mp hstored)

theorem rulesLoaded_ofCoverages {backtrack input lookahead : Array Coverage}
    {records : List LookupRecord} (h : input.size ≤ 0xFFFF)
    (hordered : LookupRecord.Ordered records) {c : ContextLookup}
    (hc : ofCoverages backtrack input lookahead records = .ok c) : c.RulesLoaded := by
  unfold ofCoverages at hc
  split at hc
  case h_1 first hfirst =>
    cases hc
    intro r hr
    obtain ⟨hpos, -⟩ := Array.getElem?_eq_some_iff.mp hfirst
    rw [List.mem_singleton.mp hr]
    refine ⟨?_, hordered⟩
    simp only [Array.size_extract]
    omega
  case h_2 => cases hc

variable [SharedTables m]

theorem ensures_coverages (w : Window) (offsets : Array UInt16) :
    Ensures (w.coverages offsets : Decoder m _) fun tables => tables.size = offsets.size :=
  ensures_mono (ensures_decodeEach w offsets fun _ => ensures_true _) fun _ h => h.1

theorem ensures_plain (w : Window) : Ensures (plain w : m ContextLookup) RulesLoaded := by
  -- the cases are the formats, and the steps those of the reader
  apply ensures_decode
  refine ensures_after fun format => ?_
  split
  case h_1 =>
    refine ensures_after fun coverageOffset => ensures_after fun count =>
      ensures_after fun offsets => ?_
    refine ensures_bind (ensures_ruleSets w offsets ContextRule.ensures_plain) fun sets hsets => ?_
    exact ensures_after fun coverage => ensures_pure hsets
  case h_2 =>
    refine ensures_after fun coverageOffset => ensures_after fun classesOffset =>
      ensures_after fun setCount => ensures_after fun offsets => ?_
    refine ensures_bind (ensures_ruleSets w offsets ContextRule.ensures_plain) fun sets hsets => ?_
    exact ensures_after fun coverage => ensures_after fun classes => ensures_after fun _ =>
      ensures_pure hsets
  case h_3 =>
    refine ensures_bind ensures_count fun count hcount => ensures_after fun _ =>
      ensures_after fun recordCount => ?_
    refine ensures_bind (ensures_u16s count) fun offsets hsize => ?_
    refine ensures_bind (ensures_lookupRecords recordCount) fun records hordered => ?_
    refine ensures_bind (ensures_coverages w offsets) fun input hinput => ?_
    exact ensures_ofExcept fun c hc => rulesLoaded_ofCoverages (by omega) hordered hc
  case h_4 => exact ensures_throw _

theorem ensures_chained (w : Window) : Ensures (chained w : m ContextLookup) RulesLoaded := by
  -- as for plain contexts; only what comes first and last in the rules is read besides
  apply ensures_decode
  refine ensures_after fun format => ?_
  split
  case h_1 =>
    refine ensures_after fun coverageOffset => ensures_after fun count =>
      ensures_after fun offsets => ?_
    refine ensures_bind (ensures_ruleSets w offsets ContextRule.ensures_chained)
      fun sets hsets => ?_
    exact ensures_after fun coverage => ensures_pure hsets
  case h_2 =>
    refine ensures_after fun coverageOffset => ensures_after fun backtrackOffset =>
      ensures_after fun inputOffset => ensures_after fun lookaheadOffset =>
      ensures_after fun setCount => ensures_after fun offsets => ?_
    refine ensures_bind (ensures_ruleSets w offsets ContextRule.ensures_chained)
      fun sets hsets => ?_
    exact ensures_after fun coverage => ensures_after fun backtrack => ensures_after fun input =>
      ensures_after fun _ => ensures_after fun lookahead => ensures_pure hsets
  case h_3 =>
    refine ensures_after fun backtrackCount => ensures_after fun backtrackOffsets => ?_
    refine ensures_bind ensures_count fun count hcount => ensures_after fun _ => ?_
    refine ensures_bind (ensures_u16s count) fun offsets hsize => ?_
    refine ensures_after fun lookaheadCount => ensures_after fun lookaheadOffsets =>
      ensures_after fun recordCount => ?_
    refine ensures_bind (ensures_lookupRecords recordCount) fun records hordered => ?_
    refine ensures_after fun backtrack => ?_
    refine ensures_bind (ensures_coverages w offsets) fun input hinput => ?_
    refine ensures_after fun lookahead => ?_
    exact ensures_ofExcept fun c hc => rulesLoaded_ofCoverages (by omega) hordered hc
  case h_4 => exact ensures_throw _

/-- What holds of the rules of every subtable holds of the rules of all of them. -/
theorem forall_mem_results {subtables : Array ContextLookup} (h : ∀ c ∈ subtables, c.RulesLoaded) :
    ∀ r ∈ subtables.toList.flatMap results, r.Loaded := by
  intro r hr
  obtain ⟨c, hc, hr⟩ := List.mem_flatMap.mp hr
  exact h c (Array.mem_toList_iff.mp hc) r hr

end ContextLookup

end OpenTypeLayout
