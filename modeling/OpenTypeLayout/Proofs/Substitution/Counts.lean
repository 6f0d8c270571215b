import OpenTypeLayout.Proofs.Rules

/-!
# Counts in loaded substitutions

The rules and the ligatures of a substitution lookup are stored with counts of sixteen bits. So the
numbers of glyphs that a loaded rule or ligature has fit sixteen bits again.
-/

namespace OpenTypeLayout

/-! ## §1 Ligatures -/

theorem ensures_ligature (w : Window) :
    Ensures (Ligature.ofWindow w) fun l => l.count ≤ 0xFFFF := by
  apply ensures_decode
  refine ensures_after fun glyph => ensures_bind ensures_count fun count hcount => ?_
  refine ensures_bind ensures_demand fun _ hpos => ?_
  refine ensures_bind (ensures_u16s (count - 1)) fun components hsize => ensures_pure ?_
  have hpos : 0 < count := of_decide_eq_true hpos
  rw [Ligature.count, hsize]
  omega

theorem ensures_readLigatures (w : Window) :
    Ensures (readLigatures w) fun ligatures => ∀ l ∈ ligatures, l.count ≤ 0xFFFF := by
  apply ensures_decode
  refine ensures_after fun count => ensures_after fun offsets => ?_
  exact ensures_mono (ensures_decodeEach w offsets ensures_ligature) fun _ h => h.2

section

variable {m : Type → Type} [Monad m] [MonadExceptOf ParseError m] [SharedTables m] [Loader m]

/-- What holds of entries wherever they are read holds of all entries of a coverage map. -/
theorem ensures_coverageMap {α : Type} {P : α → Prop} {entry : Window → Except ParseError α}
    (h : ∀ w, Ensures (entry w) P) (w : Window) :
    Ensures (CoverageMap.load entry w : m (CoverageMap α)) fun map => ∀ e ∈ map.entries, P e := by
  apply ensures_decode
  refine ensures_after fun format => ensures_after fun _ => ensures_after fun coverageOffset =>
    ensures_after fun coverage => ensures_after fun count => ensures_after fun offsets => ?_
  refine ensures_bind (ensures_decodeEach w offsets fun target => ensures_ofExcept (h target)) ?_
  exact fun entries hentries => ensures_pure hentries.2

end

/-! ## §2 Lookups -/

namespace Substitution

variable {m : Type → Type} [Monad m] [MonadExceptOf ParseError m] [SharedTables m] [Loader m]

/-- A lookup without rules and ligatures has no counts. -/
theorem withinWords_of_nil {l : Substitution} (hrules : l.results = [])
    (hligatures : l.ligatures = []) : l.WithinWords where
  rules r hr := by
    rw [hrules] at hr
    exact absurd hr List.not_mem_nil
  ligatures l hl := by
    rw [hligatures] at hl
    exact absurd hl List.not_mem_nil

theorem withinWords_of_rules {l : Substitution} (hligatures : l.ligatures = [])
    (h : ∀ r ∈ l.results, r.Loaded) : l.WithinWords where
  rules r hr := (h r hr).count
  ligatures l hl := by
    rw [hligatures] at hl
    exact absurd hl List.not_mem_nil

/-- The rules of a lookup that has been read are as they should be. -/
theorem ensures_load_results (type : UInt16) (subtables : Array Window) :
    Ensures (load type subtables : m Substitution) fun l => ∀ r ∈ l.results, r.Loaded := by
  unfold load
  split
  case h_5 =>
    exact ensures_map (ensures_mapM ContextLookup.ensures_plain) fun _ h =>
      ContextLookup.forall_mem_results h.2
  case h_6 =>
    exact ensures_map (ensures_mapM ContextLookup.ensures_chained) fun _ h =>
      ContextLookup.forall_mem_results h.2
  case h_8 => exact ensures_throw _
  all_goals exact ensures_map (ensures_true _) fun _ _ _ hr => absurd hr List.not_mem_nil

/-- The counts of a lookup that has been read fit sixteen bits. -/
theorem ensures_load (type : UInt16) (subtables : Array Window) :
    Ensures (load type subtables : m Substitution) WithinWords := by
  unfold load
  split
  case h_4 =>
    exact ensures_map (ensures_mapM (ensures_coverageMap ensures_readLigatures)) fun _ h =>
      withinWords_ligature.mpr h.2
  case h_5 =>
    exact ensures_map (ensures_mapM ContextLookup.ensures_plain) fun _ h =>
      withinWords_of_rules rfl (ContextLookup.forall_mem_results h.2)
  case h_6 =>
    exact ensures_map (ensures_mapM ContextLookup.ensures_chained) fun _ h =>
      withinWords_of_rules rfl (ContextLookup.forall_mem_results h.2)
  case h_8 => exact ensures_throw _
  all_goals exact ensures_map (ensures_true _) fun _ _ => withinWords_of_nil rfl rfl

end Substitution

end OpenTypeLayout
