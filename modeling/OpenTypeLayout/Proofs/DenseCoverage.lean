import Mathlib.Data.List.Sort
import OpenTypeLayout.Proofs.CoverageTables
import OpenTypeLayout.Proofs.SharedLoading

/-!
# Dense coverage

Subtables keep one entry for each covered glyph, in the order of the glyphs, so the coverage indices
should be the numbers from zero on, each of them once. A list of glyphs numbers them in this way.
Ranges say themselves which index they begin with, and nothing compares that with the ranges before
them.

- `Coverage.indices` are the indices of the covered glyphs in the order of the glyphs, and
  `Coverage.Dense` says that they are the numbers below the count.
- `Coverage.Continued` says that ranges begin with the index that the ranges before them have left
  off at.
- `Coverage.dense_iff_continued` compares the two, and says what follows for tables with an entry
  for each glyph that is counted.
- §4 has ranges that do not continue each other, and a subtable that loses a substitute by them.
-/

namespace OpenTypeLayout

namespace Coverage

/-! ## §1 Indices in the order of the glyphs -/

/-- The coverage indices of the covered glyphs, in ascending order of the glyphs. -/
def indices (table : Coverage) : List Nat :=
  (List.range 0x10000).filterMap fun g => (table.index? (UInt16.ofNat g)).map UInt16.toNat

/-- The glyphs in ascending order have the indices from zero up to the count. -/
def Dense (table : Coverage) : Prop := table.indices = List.range table.count

variable {table : Coverage}

theorem mem_indices {n : Nat} :
    n ∈ table.indices ↔ ∃ glyph index, table.index? glyph = some index ∧ index.toNat = n := by
  simp only [indices, List.mem_filterMap, List.mem_range, Option.map_eq_some_iff]
  constructor
  · rintro ⟨g, -, index, hindex, hn⟩
    exact ⟨_, index, hindex, hn⟩
  · rintro ⟨glyph, index, hindex, hn⟩
    exact ⟨glyph.toNat, glyph.toNat_lt, index, by rwa [UInt16.ofNat_toNat], hn⟩

/-- A relation holds of all indices in this order if it holds of those of any two glyphs. -/
theorem pairwise_indices_iff {related : Nat → Nat → Prop} :
    table.indices.Pairwise related ↔ ∀ (glyph glyph' : GlyphId) (n n' : UInt16), glyph < glyph' →
      table.index? glyph = some n → table.index? glyph' = some n' → related n.toNat n'.toNat := by
  rw [indices, List.pairwise_filterMap]
  -- the list goes through the glyphs in order and has the index of each covered one
  constructor
  · intro h glyph glyph' n n' hlt hn hn'
    have hall := List.pairwise_iff_getElem.mp h glyph.toNat glyph'.toNat
      (by simpa using glyph.toNat_lt) (by simpa using glyph'.toNat_lt)
      (UInt16.lt_iff_toNat_lt.mp hlt)
    simp only [List.getElem_range, UInt16.ofNat_toNat, hn, hn', Option.map_some] at hall
    exact hall _ rfl _ rfl
  · intro h
    refine List.pairwise_lt_range.imp_of_mem fun {g g'} hg hg' hlt n hn n' hn' => ?_
    rw [List.mem_range] at hg hg'
    obtain ⟨i, hi, rfl⟩ := Option.map_eq_some_iff.mp hn
    obtain ⟨i', hi', rfl⟩ := Option.map_eq_some_iff.mp hn'
    refine h _ _ i i' ?_ hi hi'
    rw [UInt16.lt_iff_toNat_lt, UInt16.toNat_ofNat', UInt16.toNat_ofNat', Nat.mod_eq_of_lt hg,
      Nat.mod_eq_of_lt hg']
    exact hlt

/-- Where no glyph is listed twice, the indices are the places in the list. -/
theorem dense_glyphs {list : Array GlyphId} (hsize : list.size ≤ 0xFFFF)
    (hascending : list.toList.Pairwise (· < ·)) : (Coverage.glyphs list).Dense := by
  have hindex : ∀ (glyph : GlyphId) (n : UInt16),
      (Coverage.glyphs list).index? glyph = some n → list[n.toNat]? = some glyph := by
    intro glyph n hn
    exact ((index?_glyphs_iff_last hsize (hascending.imp UInt16.le_of_lt)).mp hn).1
  -- both lists are in ascending order, so it is enough that they have the same members
  refine List.Pairwise.eq_of_mem_iff (r := (· < ·)) ?_ List.pairwise_lt_range fun n => ?_
  · refine pairwise_indices_iff.mpr fun glyph glyph' n n' hlt hn hn' =>
      Nat.lt_of_not_le fun hle => ?_
    rcases Nat.eq_or_lt_of_le hle with heq | hbefore
    · have hsame : some glyph = some glyph' := by rw [← hindex _ _ hn, ← hindex _ _ hn', heq]
      exact UInt16.lt_irrefl glyph (Option.some.inj hsame ▸ hlt)
    · have hgt : glyph' < glyph :=
        rel_of_pairwise hascending hbefore (hindex _ _ hn') (hindex _ _ hn)
      exact UInt16.lt_irrefl glyph (UInt16.lt_trans hlt hgt)
  · rw [mem_indices, List.mem_range]
    constructor
    · rintro ⟨glyph, index, hn, rfl⟩
      exact (Array.getElem?_eq_some_iff.mp (hindex _ _ hn)).1
    · intro hlt
      have hplace : n < list.size := hlt
      refine ⟨list[n], UInt16.ofNat n, (index?_glyphs_iff hascending).mpr
        ⟨n, Array.getElem?_eq_getElem hplace, rfl⟩, ?_⟩
      rw [UInt16.toNat_ofNat', Nat.mod_eq_of_lt (by omega)]

/-! ## §2 Ranges -/

/-- Each range begins with the index that the ranges before it have left off at, the first of them
    with `n`. -/
def Continued : (n : Nat) → List CoverageRange → Prop
  | _, [] => True
  | n, r :: rest => r.startIndex.toNat = n ∧ Continued (n + r.count) rest

/-- The glyphs that apart ranges list are in ascending order. -/
theorem ascending_listed {list : Array CoverageRange}
    (hapart : list.toList.Pairwise fun a b => a.last < b.first) :
    (Coverage.ranges list).listed.Pairwise (· < ·) := by
  rw [listed, List.pairwise_flatMap]
  refine ⟨fun r _ => List.pairwise_lt_range', hapart.imp fun {a b} hlt x hx y hy => ?_⟩
  rw [List.mem_range'_1] at hx hy
  rw [UInt16.lt_iff_toNat_lt] at hlt
  unfold CoverageRange.count at hx
  omega

/-- The covered glyphs are the listed ones, also in their order. -/
theorem covered_ranges {list : Array CoverageRange} (h : (Coverage.ranges list).WellFormed) :
    (List.range 0x10000).filter (fun g => (Coverage.ranges list).covers (UInt16.ofNat g)) =
      (Coverage.ranges list).listed := by
  refine List.Pairwise.eq_of_mem_iff (r := (· < ·)) (List.pairwise_lt_range.filter _)
    (ascending_listed h.2.2) fun g => ?_
  rw [List.mem_filter, List.mem_range, h.covers_iff, UInt16.toNat_ofNat']
  constructor
  · rintro ⟨hlt, hmem⟩
    rwa [Nat.mod_eq_of_lt hlt] at hmem
  · intro hmem
    obtain ⟨r, -, hr⟩ := List.mem_flatMap.mp hmem
    have hlast := r.last.toNat_lt
    rw [List.mem_range'_1, CoverageRange.count] at hr
    have hlt : g < 0x10000 := by omega
    exact ⟨hlt, by rwa [Nat.mod_eq_of_lt hlt]⟩

/-- The index of a glyph in a range is the one that the range begins with, and as many more as there
    are glyphs before it in the range. -/
theorem index?_in_range {list : Array CoverageRange} (h : (Coverage.ranges list).WellFormed)
    {r : CoverageRange} (hr : r ∈ list) {g : Nat} (hg : g ∈ List.range' r.first.toNat r.count) :
    ((Coverage.ranges list).index? (UInt16.ofNat g)).map UInt16.toNat =
      some (r.startIndex.toNat + (g - r.first.toNat)) := by
  obtain ⟨-, hvalid, hapart⟩ := h
  rw [List.mem_range'_1, CoverageRange.count] at hg
  have hlast := r.last.toNat_lt
  have hglyph : (UInt16.ofNat g).toNat = g := Nat.mod_eq_of_lt (by omega)
  have hhas : r.Has (UInt16.ofNat g) := by
    rw [CoverageRange.Has, UInt16.le_iff_toNat_le, UInt16.le_iff_toNat_le, hglyph]
    omega
  have hn := (hvalid r hr).toNat_index hhas
  have hfound := (index?_ranges_iff hvalid hapart).mpr ⟨r, hr, hhas, hn⟩
  rw [hglyph] at hn
  exact Option.map_eq_some_iff.mpr ⟨_, hfound, hn⟩

/-- In the order of the glyphs, the indices are those of the first range, then those of the second
    one, and so on. -/
theorem indices_ranges {list : Array CoverageRange} (h : (Coverage.ranges list).WellFormed) :
    (Coverage.ranges list).indices =
      list.toList.flatMap fun r => List.range' r.startIndex.toNat r.count := by
  have hcovered : (Coverage.ranges list).indices = (Coverage.ranges list).listed.filterMap
      fun g => ((Coverage.ranges list).index? (UInt16.ofNat g)).map UInt16.toNat := by
    -- a glyph that is not covered has no index, so it makes no difference to leave it out
    rw [← covered_ranges h, List.filterMap_filter, indices]
    refine List.filterMap_congr fun g _ => ?_
    rw [covers]
    cases (Coverage.ranges list).index? (UInt16.ofNat g) <;> rfl
  rw [hcovered, listed, List.filterMap_flatMap]
  refine List.flatMap_congr fun r hr => ?_
  rw [List.filterMap_congr fun g hg => index?_in_range h (Array.mem_toList_iff.mp hr) hg,
    List.range'_eq_map_range, List.range'_eq_map_range, List.filterMap_map, ← List.filterMap_eq_map]
  refine List.filterMap_congr fun k _ => ?_
  simp

/-- The indices of ranges are as many numbers in a row as glyphs are listed, if and only if the
    ranges continue each other. -/
theorem flatMap_range'_eq_iff {list : List CoverageRange} (h : ∀ r ∈ list, r.Valid) (n : Nat) :
    (list.flatMap fun r => List.range' r.startIndex.toNat r.count) =
      List.range' n (list.flatMap fun r => List.range' r.first.toNat r.count).length ↔
        Continued n list := by
  induction list generalizing n with
  | nil => simp [Continued]
  | cons r rest ih =>
    obtain ⟨hr, hrest⟩ := List.forall_mem_cons.mp h
    have hordered := UInt16.le_iff_toNat_le.mp hr.ordered
    have hcount : r.count = r.last.toNat - r.first.toNat + 1 := by
      unfold CoverageRange.count
      omega
    rw [List.flatMap_cons, List.flatMap_cons, List.length_append, List.length_range',
      ← List.range'_append_1, Continued, ← ih hrest]
    constructor
    · intro heq
      -- no range is empty, so the first of its indices is the one it begins with
      obtain ⟨hfirst, hafter⟩ := List.append_inj heq (by simp)
      rw [hcount, List.range'_succ, List.range'_succ] at hfirst
      exact ⟨List.head_eq_of_cons_eq hfirst, hafter⟩
    · rintro ⟨rfl, hafter⟩
      rw [hafter]

/-- Ranges number the glyphs from zero on if and only if they continue each other. -/
theorem dense_ranges_iff {list : Array CoverageRange} (h : (Coverage.ranges list).WellFormed) :
    (Coverage.ranges list).Dense ↔ Continued 0 list.toList := by
  rw [Dense, indices_ranges h, count_eq_length_listed, listed, List.range_eq_range',
    flatMap_range'_eq_iff fun r hr => h.2.1 r (Array.mem_toList_iff.mp hr)]

/-! ## §3 Tables with an entry for each glyph -/

theorem Dense.toNat_lt (h : table.Dense) {glyph : GlyphId} {n : UInt16}
    (hn : table.index? glyph = some n) : n.toNat < table.count :=
  List.mem_range.mp (h ▸ mem_indices.mpr ⟨glyph, n, hn, rfl⟩)

/-- Glyphs with the same index are the same. -/
theorem Dense.index?_inj (h : table.Dense) {glyph glyph' : GlyphId} {n : UInt16}
    (hn : table.index? glyph = some n) (hn' : table.index? glyph' = some n) : glyph = glyph' := by
  have hnodup : table.indices.Pairwise (· ≠ ·) := h ▸ List.nodup_range
  have hne := pairwise_indices_iff.mp hnodup
  by_contra hdiffer
  rcases UInt16.lt_or_lt_of_ne hdiffer with hlt | hlt
  · exact hne _ _ _ _ hlt hn hn' rfl
  · exact hne _ _ _ _ hlt hn' hn rfl

/-- Where there are as many entries as glyphs are counted, each covered glyph has one. -/
theorem Dense.exists_entry (h : table.Dense) {α : Type} {entries : Array α}
    (hsize : entries.size = table.count) {glyph : GlyphId} {n : UInt16}
    (hn : table.index? glyph = some n) : ∃ entry, entries[n.toNat]? = some entry :=
  ⟨_, Array.getElem?_eq_getElem (hsize ▸ h.toNat_lt hn)⟩

end Coverage

/-- A reverse chaining subtable has as many substitutes as its coverage table counts glyphs. -/
theorem ReverseSubst.ensures_count {m : Type → Type} [Monad m] [MonadExceptOf ParseError m]
    [SharedTables m] [Loader m] (w : Window) :
    Ensures (load w : m ReverseSubst) fun s => s.substitutes.size = s.coverage.count := by
  apply ensures_decode
  -- the count is compared when everything has been read
  refine ensures_after fun format => ensures_after fun _ => ensures_after fun coverageOffset =>
    ensures_after fun backtrackCount => ensures_after fun backtrackOffsets =>
    ensures_after fun lookaheadCount => ensures_after fun lookaheadOffsets =>
    ensures_after fun count => ensures_after fun substitutes => ensures_after fun coverage =>
    ensures_after fun backtrack => ensures_after fun lookahead => ?_
  exact ensures_bind ensures_demand fun _ hcount => ensures_pure (eq_of_beq hcount).symm

namespace Coverage

/-- **Dense coverage.** A list of glyphs that has been read gives them the indices from zero on in
    ascending order, if no glyph is in it twice. Ranges that have been read give the glyphs the
    indices of the first range, then those of the second one, and so on, so the indices are those
    from zero on if and only if each range begins with the index that the ranges before it have left
    off at.

    Where the indices are dense, glyphs with the same index are the same, and any table with as many
    entries as there are covered glyphs has one for each of them. A reverse chaining subtable is
    such a table. -/
theorem dense_iff_continued (w v : Window) :
    (∀ list, ofWindow w = .ok (.glyphs list) → list.toList.Nodup → (Coverage.glyphs list).Dense) ∧
    (∀ list, ofWindow w = .ok (.ranges list) →
      (Coverage.ranges list).indices =
        list.toList.flatMap (fun r => List.range' r.startIndex.toNat r.count) ∧
      ((Coverage.ranges list).Dense ↔ Continued 0 list.toList)) ∧
    (∀ table : Coverage, table.Dense →
      (∀ glyph glyph' n,
        table.index? glyph = some n → table.index? glyph' = some n → glyph = glyph') ∧
      ∀ (α : Type) (entries : Array α), entries.size = table.count →
        ∀ glyph, table.covers glyph = true →
          ∃ entry, (CoverageMap.mk table entries).find glyph = .ok (some entry)) ∧
    ∀ cache s cache', (ReverseSubst.load v : CachedLoad ReverseSubst).run cache = .ok (s, cache') →
      s.substitutes.size = s.coverage.count ∧
      (s.coverage.Dense → ∀ glyph, (s.substitute? glyph).isSome = s.coverage.covers glyph) := by
  refine ⟨fun list hread hnodup => ?_, fun list hread => ?_, fun table hdense => ⟨?_, ?_⟩, ?_⟩
  · obtain ⟨⟨hsize, hascending⟩, -⟩ := ofWindow_eq_ok.mp hread
    -- the glyphs of the first format may repeat, so that they do not has to be asked for
    refine dense_glyphs hsize ((hascending.and hnodup).imp fun {a b} ⟨hle, hne⟩ => ?_)
    exact UInt16.lt_of_le_of_ne hle hne
  · obtain ⟨hformed, -⟩ := ofWindow_eq_ok.mp hread
    exact ⟨indices_ranges hformed, dense_ranges_iff hformed⟩
  · exact fun glyph glyph' n => hdense.index?_inj
  · intro α entries hsize glyph hcovers
    obtain ⟨n, hn⟩ := Option.isSome_iff_exists.mp hcovers
    obtain ⟨entry, hentry⟩ := hdense.exists_entry hsize hn
    exact ⟨entry, by simp only [CoverageMap.find, hn, hentry]⟩
  -- in the last subtable the index of a glyph is taken as the place of its substitute
  · intro cache s cache' hrun
    have hload : Ensures (ReverseSubst.load v : CachedLoad ReverseSubst)
        fun s => s.substitutes.size = s.coverage.count := ReverseSubst.ensures_count v
    have hsize : s.substitutes.size = s.coverage.count := ensures_run_iff.mp hload cache _ hrun
    refine ⟨hsize, fun hdense glyph => ?_⟩
    rw [ReverseSubst.substitute?, covers]
    cases hn : s.coverage.index? glyph with
    | none => rfl
    | some n =>
      obtain ⟨substitute, hsubstitute⟩ := hdense.exists_entry hsize hn
      exact Option.isSome_of_eq_some hsubstitute

/-! ## §4 Three ranges of one glyph -/

/-! A reverse chaining subtable with substitutes for the glyphs 5, 7 and 9, each of which is a range
    of its own in the coverage table. The first range begins with index 0. -/

namespace ThreeRanges

/-- The subtable as a font stores it, with the indices that the second and the third range
    begin with. -/
def data (second third : UInt8) : ByteArray := ⟨#[
  0x00, 0x01, 0x00, 0x10, 0x00, 0x00, 0x00, 0x00, 0x00, 0x03, 0x00, 0x46, 0x00, 0x50, 0x00, 0x5A,
  0x00, 0x02, 0x00, 0x03, 0x00, 0x05, 0x00, 0x05, 0x00, 0x00,
  0x00, 0x07, 0x00, 0x07, 0x00, second, 0x00, 0x09, 0x00, 0x09, 0x00, third]⟩

/-- The coverage table in it. -/
def window (second third : UInt8) : Window := (Window.ofBytes (data second third)).offset 16

def list (second third : UInt16) : Array CoverageRange :=
  #[⟨5, 5, 0⟩, ⟨7, 7, second⟩, ⟨9, 9, third⟩]

def subtable (second third : UInt16) : ReverseSubst :=
  ⟨.ranges (list second third), #[], #[], #[70, 80, 90]⟩

/-- The second range begins with the index that the first one has, and the third one behind the
    count. The subtable is read all the same. The glyph 7 then has the substitute that is meant for
    5, and 9 has none. -/
theorem indices_not_dense :
    ofWindow (window 0 3) = .ok (.ranges (list 0 3)) ∧ ¬ (Coverage.ranges (list 0 3)).Dense ∧
    (Coverage.ranges (list 0 3)).count = 3 ∧
    [5, 7, 9].map (Coverage.ranges (list 0 3)).index? = [some 0, some 0, some 3] ∧
    (ReverseSubst.load (.ofBytes (data 0 3)) : CachedLoad ReverseSubst).result =
      .ok (subtable 0 3) ∧ [5, 7, 9].map (subtable 0 3).substitute? = [some 70, some 70, none] := by
  refine ⟨by decide +kernel, fun hdense => ?_, by decide, by decide, ?_, by decide⟩
  · have hindex : (Coverage.ranges (list 0 3)).index? 9 = some 3 := by decide
    exact absurd (hdense.toNat_lt hindex) (by decide)
  · rw [ReverseSubst.result_load]
    decide +kernel

/-- Where the ranges continue each other, the glyphs have the indices 0, 1 and 2, and none of the
    three substitutes gets lost. -/
theorem dense_three : ofWindow (window 1 2) = .ok (.ranges (list 1 2)) ∧
    (Coverage.ranges (list 1 2)).indices = [0, 1, 2] ∧ (Coverage.ranges (list 1 2)).Dense ∧
    (ReverseSubst.load (.ofBytes (data 1 2)) : CachedLoad ReverseSubst).result =
      .ok (subtable 1 2) ∧ ((subtable 1 2).substitute? 9).isSome = true := by
  have hread : ofWindow (window 1 2) = .ok (.ranges (list 1 2)) := by decide +kernel
  have hload : (ReverseSubst.load (.ofBytes (data 1 2)) : CachedLoad ReverseSubst).result =
      .ok (subtable 1 2) := by
    rw [ReverseSubst.result_load]
    decide +kernel
  obtain ⟨cache, hrun⟩ := CachedLoad.exists_run hload
  obtain ⟨-, hranges, -, hreverse⟩ := dense_iff_continued (window 1 2) (.ofBytes (data 1 2))
  obtain ⟨hindices, hdense⟩ := hranges _ hread
  have hcontinued : (Coverage.ranges (list 1 2)).Dense := hdense.mpr ⟨rfl, rfl, rfl, trivial⟩
  exact ⟨hread, hindices, hcontinued, hload, (hreverse {} _ cache hrun).2 hcontinued 9⟩

end ThreeRanges

end Coverage

end OpenTypeLayout
