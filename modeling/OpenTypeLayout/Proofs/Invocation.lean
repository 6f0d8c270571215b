import Mathlib.Logic.Relation
import OpenTypeLayout.LayoutTable
import OpenTypeLayout.Substitution.Subtable

/-!
# Which lookups invoke which

A contextual subtable can only do what one of its rules says, and a rule invokes the lookups that
its records name.

- `ContextLookup.results` lists what the rules of a subtable do, and `candidates_results` shows that
  a candidate rule does one of these things.
- `LayoutTable.Invokes` is the relation between lookups of a table that this gives rise to, and
  `LayoutTable.Reaches` follows it any number of times.
-/

namespace OpenTypeLayout

/-! ## §1 What rules do -/

/-- What the rules of a set do. -/
def RuleSet.results (rules : RuleSet) : List RuleMatch :=
  rules.toList.map fun r => { inputCount := r.input.size + 1, records := r.records }

/-- What the rules of some sets do, of which some may be absent. -/
def ruleSetResults (sets : Array (Option RuleSet)) : List RuleMatch :=
  sets.toList.flatMap fun rules => (rules.getD #[]).results

namespace ContextLookup

/-- What the rules of a subtable do. -/
def results : ContextLookup → List RuleMatch
  | .byGlyph _ sets => ruleSetResults sets
  | .byClass _ _ _ _ sets => ruleSetResults sets
  | .byCoverage _ _ input _ records => [{ inputCount := input.size + 1, records }]

private theorem mem_ruleSetResults {sets : Array (Option RuleSet)} {i : Nat} {rules : RuleSet}
    {contextLength : UInt16} {backtrack input lookahead : Array UInt16 → GlyphPattern}
    {r : RuleCandidate} (hset : sets[i]? = some (some rules))
    (hr : r ∈ candidatesOf rules contextLength backtrack input lookahead) :
    r.result ∈ ruleSetResults sets := by
  obtain ⟨rule, hrule, rfl⟩ := List.mem_map.mp hr
  rw [ruleSetResults, List.mem_flatMap]
  refine ⟨some rules, ?_, List.mem_map.mpr ⟨rule, (List.mem_filter.mp hrule).1, rfl⟩⟩
  exact Array.mem_toList_iff.mpr (Array.mem_of_getElem? hset)

/-- A rule that may apply does one of the things that the rules of the subtable do. -/
theorem candidates_results {c : ContextLookup} {glyph : GlyphId} {contextLength : UInt16}
    {rules : List RuleCandidate} (h : c.candidates glyph contextLength = .ok rules)
    {r : RuleCandidate} (hr : r ∈ rules) : r.result ∈ c.results := by
  -- the cases are those of `candidates`; only a rule set or the single rule gives anything back
  cases c with
  | byGlyph coverage sets =>
    simp only [candidates] at h
    split at h
    case h_1 => cases h; cases hr
    case h_2 index _ =>
      split at h
      case h_1 => cases h
      case h_2 => cases h; cases hr
      case h_3 hset =>
        cases h
        exact mem_ruleSetResults hset hr
  | byClass coverage backtrack input lookahead sets =>
    simp only [candidates] at h
    split at h
    case isTrue =>
      split at h
      case h_1 hset =>
        cases h
        exact mem_ruleSetResults hset hr
      case h_2 => cases h; cases hr
    case isFalse => cases h; cases hr
  | byCoverage first backtrack input lookahead records =>
    simp only [candidates] at h
    split at h
    case isTrue =>
      cases h
      rw [List.mem_singleton] at hr
      rw [hr]
      exact List.mem_singleton.mpr rfl
    case isFalse => cases h; cases hr

theorem mem_results {subtables : Array ContextLookup} {c : ContextLookup} (hc : c ∈ subtables)
    {glyph : GlyphId} {contextLength : UInt16} {rules : List RuleCandidate}
    (h : c.candidates glyph contextLength = .ok rules) {r : RuleCandidate} (hr : r ∈ rules) :
    r.result ∈ subtables.toList.flatMap results :=
  List.mem_flatMap.mpr ⟨c, Array.mem_toList_iff.mpr hc, candidates_results h hr⟩

/-- The only failure in looking for a rule is that a covered glyph has no rule set. -/
theorem candidates_error {c : ContextLookup} {glyph : GlyphId} {contextLength : UInt16}
    {cause : ParseError} (h : c.candidates glyph contextLength = .error cause) :
    cause = .badIndex := by
  unfold candidates at h
  repeat' split at h
  all_goals cases h
  rfl

end ContextLookup

/-! ## §2 Substitutions -/

namespace Substitution

/-- What the rules of the subtables do. -/
def results : Substitution → List RuleMatch
  | .context subtables => subtables.toList.flatMap ContextLookup.results
  | .chained subtables => subtables.toList.flatMap ContextLookup.results
  | _ => []

/-- The ligatures of the subtables. -/
def ligatures : Substitution → List Ligature
  | .ligature subtables => subtables.toList.flatMap fun s => s.entries.toList.flatMap Array.toList
  | _ => []

/-- The counts in the rules and in the ligatures are numbers of sixteen bits. -/
structure WithinWords (l : Substitution) : Prop where
  rules : ∀ m ∈ l.results, m.inputCount ≤ 0xFFFF
  ligatures : ∀ ligature ∈ l.ligatures, ligature.count ≤ 0xFFFF

theorem withinWords_ligature {subtables : Array LigatureSubst} :
    (ligature subtables).WithinWords ↔
      ∀ m ∈ subtables, ∀ ligatures ∈ m.entries, ∀ l ∈ ligatures, l.count ≤ 0xFFFF := by
  constructor
  · intro h m hm ligatures hligatures l hl
    apply h.ligatures
    refine List.mem_flatMap.mpr ⟨m, Array.mem_toList_iff.mpr hm, List.mem_flatMap.mpr ?_⟩
    exact ⟨ligatures, Array.mem_toList_iff.mpr hligatures, Array.mem_toList_iff.mpr hl⟩
  · intro h
    refine ⟨fun r hr => absurd hr List.not_mem_nil, fun l hl => ?_⟩
    obtain ⟨m, hm, hl⟩ := List.mem_flatMap.mp hl
    obtain ⟨ligatures, hligatures, hl⟩ := List.mem_flatMap.mp hl
    exact h m (Array.mem_toList_iff.mp hm) ligatures (Array.mem_toList_iff.mp hligatures) l
      (Array.mem_toList_iff.mp hl)

end Substitution

/-! ## §3 Invoking -/

namespace LayoutTable

/-- The only failure in getting a lookup is that there is none with the index. -/
theorem lookup_error {S : Type} {t : LayoutTable S} {index : Nat} {cause : ParseError}
    (h : t.lookup index = .error cause) : cause = .badIndex := by
  unfold lookup at h
  split at h <;> cases h
  rfl

/-- A lookup invokes another if one of its rules has a record for the other. -/
def Invokes (t : LayoutTable Substitution) (i j : Nat) : Prop :=
  ∃ lookup, t.lookup i = .ok lookup ∧
    ∃ m ∈ lookup.subtables.results, ∃ r ∈ m.records, r.lookupIndex.toNat = j

/-- A lookup reaches those that it invokes, those that these invoke, and so on. It
    reaches itself. -/
def Reaches (t : LayoutTable Substitution) : Nat → Nat → Prop := Relation.ReflTransGen t.Invokes

end LayoutTable

/-! ## §4 Records -/

/-- The record to apply and the records that are left are among the records given. -/
theorem nextRecord_subset (places : List Nat) (index : Nat) (records : List LookupRecord) :
    (∀ r, (nextRecord places index records).1 = some r → r ∈ records) ∧
      ∀ r ∈ (nextRecord places index records).2, r ∈ records := by
  induction records with
  | nil => exact ⟨by simp [nextRecord], by simp [nextRecord]⟩
  | cons r rest ih =>
    -- a record that is skipped takes nothing from those behind it
    have hskip : (∀ x, (nextRecord places index rest).1 = some x → x ∈ r :: rest) ∧
        ∀ x ∈ (nextRecord places index rest).2, x ∈ r :: rest :=
      ⟨fun x hx => List.mem_cons_of_mem r (ih.1 x hx),
        fun x hx => List.mem_cons_of_mem r (ih.2 x hx)⟩
    rw [nextRecord]
    split
    case h_1 => exact hskip
    case h_2 =>
      split
      · refine ⟨?_, fun x hx => List.mem_cons_of_mem r hx⟩
        intro x hx
        cases hx
        exact List.mem_cons_self
      · split
        · exact ⟨by simp, fun x hx => hx⟩
        · exact hskip

end OpenTypeLayout
