import Mathlib.Logic.Relation
import OpenTypeLayout.Proofs.Positioning.Lookups
import OpenTypeLayout.Proofs.Rules

/-!
# Positionings that have been read

In a positioning lookup that has been read, counts and records of rules are as they should be, and a
pair subtable whose second glyphs are not adjusted stores nothing for them.

Contextual positionings invoke other lookups as contextual substitutions do: `Positioning.Invokes`
and `Positioning.Reaches` are the same relations for them.
-/

namespace OpenTypeLayout

/-! ## §1 Lookups and what they invoke -/

namespace Positioning

/-- What the rules of the subtables do. -/
def results : Positioning → List RuleMatch
  | .context subtables => subtables.toList.flatMap ContextLookup.results
  | .chained subtables => subtables.toList.flatMap ContextLookup.results
  | _ => []

/-- The pair subtables. -/
def pairs : Positioning → Array PairPos
  | .pair subtables => subtables
  | _ => #[]

/-- What holds of the subtables of a lookup that has been read. -/
structure Loaded (l : Positioning) : Prop where
  rules : ∀ r ∈ l.results, r.Loaded
  pairs : ∀ p ∈ l.pairs, p.SecondsFit

/-- A lookup invokes another if one of its rules has a record for the other. -/
def Invokes (t : LayoutTable Positioning) (i j : Nat) : Prop :=
  ∃ lookup, t.lookup i = .ok lookup ∧
    ∃ m ∈ lookup.subtables.results, ∃ r ∈ m.records, r.lookupIndex.toNat = j

/-- A lookup reaches those that it invokes, those that these invoke, and so on. It
    reaches itself. -/
def Reaches (t : LayoutTable Positioning) : Nat → Nat → Prop := Relation.ReflTransGen (Invokes t)

end Positioning

/-! ## §2 Pairs -/

section

variable {m : Type → Type} [Monad m] [MonadExceptOf ParseError m] [Loader m]

/-- What holds of every record wherever it is read holds of all records. -/
theorem ensures_records {α : Type} {P : α → Prop} (stride n : Nat)
    {one : Decoder (Except ParseError) α} (h : Ensures one P) :
    Ensures (Decoder.records stride n one : Decoder m (Array α)) fun answers =>
      ∀ a ∈ answers, P a := by
  refine ensures_after fun items => ensures_ofExcept ?_
  exact ensures_mono (ensures_mapM fun w : Window => ensures_decode h) fun _ h => h.2

end

theorem ValueFormat.has_of_isEmpty {f : ValueFormat} (h : f.isEmpty = true) (word : Nat) :
    f.has word = false := by
  have hbits : f.bits = 0 := by simpa [isEmpty] using h
  simp [has, hbits]

theorem ValueRecord.word_of_isEmpty {α : Type} {f : ValueFormat} (h : f.isEmpty = true)
    (number : Nat) (record : FixedRecord α) : word f number record = pure none := by
  rw [word, f.has_of_isEmpty h, if_neg Bool.false_ne_true]

/-- A value record in a format without words has no amounts. -/
theorem ValueRecord.ensures_decoder (f : ValueFormat) (base : Window) :
    Ensures (decoder f base) fun v => f.isEmpty = true → v = {} := by
  cases hempty : f.isEmpty with
  | false => exact ensures_mono (ensures_true _) fun _ _ h => absurd h Bool.false_ne_true
  | true =>
    have hdecoder : decoder f base = pure {} := by
      unfold decoder
      simp only [word_of_isEmpty hempty, pure_bind, device]
      rfl
    rw [hdecoder]
    exact ensures_pure fun _ => rfl

theorem PairValue.ensures_decoder (first second : ValueFormat) (base : Window) :
    Ensures (decoder first second base) fun v => second.isEmpty = true → v.second = {} :=
  ensures_after fun _ => ensures_bind (ValueRecord.ensures_decoder second base) fun _ h =>
    ensures_pure h

theorem ensures_readPairSet (first second : ValueFormat) (w : Window) :
    Ensures (readPairSet first second w) fun set =>
      ∀ pair ∈ set, second.isEmpty = true → pair.2.second = {} := by
  apply ensures_decode
  refine ensures_after fun count => ensures_records _ _ ?_
  exact ensures_after fun glyph =>
    ensures_bind (PairValue.ensures_decoder first second w) fun _ h =>
    ensures_pure h

namespace PairPos

theorem secondsFit_byGlyph {format : ValueFormat}
    {sets : CoverageMap (Array (GlyphId × PairValue))}
    (h : ∀ set ∈ sets.entries, ∀ pair ∈ set, format.isEmpty = true → pair.2.second = {}) :
    (byGlyph format sets).SecondsFit := by
  -- a subtable of the first format adjusts the second glyph unless its format is empty
  intro hadjusts first second v happly
  have hempty : format.isEmpty = true := by simpa [adjustsSecond] using hadjusts
  rw [apply] at happly
  cases hfind : sets.find first with
  | error cause =>
    rw [hfind] at happly
    cases happly
  | ok set =>
    rw [hfind] at happly
    cases set with
    | none => cases happly
    | some set =>
      simp only [bind, Except.bind, pure, Except.pure, Except.ok.injEq, Option.map_eq_some_iff]
        at happly
      obtain ⟨pair, hpair, rfl⟩ := happly
      exact h set (CoverageMap.mem_of_find hfind) pair (Array.mem_of_find?_eq_some hpair) hempty

theorem secondsFit_byClass {coverage : Coverage} {format : ValueFormat} {first second : ClassDef}
    {secondCount : Nat} {rows : Array (Array PairValue)}
    (h : ∀ row ∈ rows, ∀ v ∈ row, format.isEmpty = true → v.second = {}) :
    (byClass coverage format first second secondCount rows).SecondsFit := by
  intro hadjusts firstGlyph secondGlyph v happly
  have hempty : format.isEmpty = true := by simpa [adjustsSecond] using hadjusts
  simp only [apply] at happly
  split at happly
  case isTrue =>
    split at happly
    case isTrue =>
      split at happly
      case h_1 value hvalue =>
        cases happly
        obtain ⟨row, hrow, hvalue⟩ := Option.bind_eq_some_iff.mp hvalue
        exact h row (Array.mem_of_getElem? hrow) v (Array.mem_of_getElem? hvalue) hempty
      case h_2 => cases happly
    case isFalse => cases happly
  case isFalse => cases happly

variable {m : Type → Type} [Monad m] [MonadExceptOf ParseError m] [SharedTables m] [Loader m]

theorem ensures_load (w : Window) : Ensures (load w : m PairPos) SecondsFit := by
  apply ensures_decode
  refine ensures_after fun format => ?_
  split
  -- only the values of the pairs matter; everything read before them is passed over
  case h_1 =>
    refine ensures_after fun coverageOffset => ensures_after fun coverage =>
      ensures_after fun first => ensures_after fun second => ensures_after fun count =>
      ensures_after fun offsets => ?_
    refine ensures_bind (ensures_decodeEach w offsets fun target =>
      ensures_ofExcept (ensures_readPairSet first second target)) fun entries hentries => ?_
    exact ensures_pure (secondsFit_byGlyph hentries.2)
  case h_2 =>
    refine ensures_after fun coverageOffset => ensures_after fun coverage =>
      ensures_after fun first => ensures_after fun second => ensures_after fun firstOffset =>
      ensures_after fun firstClasses => ensures_after fun secondOffset =>
      ensures_after fun secondClasses => ensures_after fun firstCount =>
      ensures_after fun secondCount => ensures_after fun _ => ensures_after fun _ => ?_
    -- likewise for the values in the matrix of classes
    refine ensures_bind (ensures_records _ _ (ensures_records _ _
      (PairValue.ensures_decoder first second w))) fun rows hrows => ?_
    exact ensures_pure (secondsFit_byClass hrows)
  case h_3 => exact ensures_throw _

end PairPos

/-! ## §3 Lookups -/

namespace Positioning

variable {m : Type → Type} [Monad m] [MonadExceptOf ParseError m] [SharedTables m] [Loader m]

theorem loaded_of_rules {l : Positioning} (hpairs : l.pairs = #[]) (h : ∀ r ∈ l.results, r.Loaded) :
    l.Loaded where
  rules := h
  pairs p hp := by
    rw [hpairs] at hp
    exact absurd hp (Array.not_mem_empty p)

theorem ensures_load (type : UInt16) (subtables : Array Window) :
    Ensures (load type subtables : m Positioning) Loaded := by
  have hnil : ∀ r ∈ ([] : List RuleMatch), r.Loaded := fun _ hr => absurd hr List.not_mem_nil
  unfold load
  split
  case h_2 =>
    exact ensures_map (ensures_mapM PairPos.ensures_load) fun _ h => ⟨hnil, h.2⟩
  case h_7 =>
    exact ensures_map (ensures_mapM ContextLookup.ensures_plain) fun _ h =>
      loaded_of_rules rfl (ContextLookup.forall_mem_results h.2)
  case h_8 =>
    exact ensures_map (ensures_mapM ContextLookup.ensures_chained) fun _ h =>
      loaded_of_rules rfl (ContextLookup.forall_mem_results h.2)
  case h_9 => exact ensures_throw _
  all_goals exact ensures_map (ensures_true _) fun _ _ => loaded_of_rules rfl hnil

end Positioning

/-- The lookups of a table that has been read have been read. -/
theorem LayoutTable.loaded_of_ofWindow {w : Window} {layout : LayoutTable Positioning}
    (hread : ofWindow w = .ok layout) {i : Nat} {lookup : Lookup Positioning}
    (hlookup : layout.lookup i = .ok lookup) : lookup.subtables.Loaded :=
  subtables_of_ofWindow Positioning.ensures_load hread hlookup

end OpenTypeLayout
