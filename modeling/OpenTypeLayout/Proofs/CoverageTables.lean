import OpenTypeLayout.Proofs.Locate
import OpenTypeLayout.Proofs.StoredRecords

/-!
# Coverage tables from bytes

A coverage table is read from bytes and then searched for one glyph after the other. The search
halves the table, so it relies on the order that has been checked when the table was read. This
module shows that what is checked is enough: the search finds what going through the whole table
would find.

- `Coverage.WellFormed` holds of tables in order, with valid ranges.
- `Coverage.ofWindow_eq_ok` says which table is read: the one whose bytes come first, if it is
  well-formed.
- `Coverage.index?_glyphs_iff_last` and `Coverage.index?_ranges_iff` say what is found.
- `Coverage.read_and_searched` puts this together.
-/

namespace OpenTypeLayout

/-! ## §1 Tables and their bytes -/

namespace CoverageRange

/-- The words of a range in the order in which they are stored. -/
def words (r : CoverageRange) : List UInt16 := [r.first, r.last, r.startIndex]

theorem storedAs_record : record.StoredAs words :=
  (FixedRecord.storedAs_u16.pair (FixedRecord.storedAs_u16.pair FixedRecord.storedAs_u16)).map
    (fun r : CoverageRange => (r.first, r.last, r.startIndex)) (fun _ => rfl) fun _ => rfl

/-- A range has a glyph. -/
def Has (r : CoverageRange) (glyph : GlyphId) : Prop := r.first ≤ glyph ∧ glyph ≤ r.last

/-- The range is not empty, and the coverage index of its last glyph has sixteen bits. -/
structure Valid (r : CoverageRange) : Prop where
  ordered : r.first ≤ r.last
  lastIndex : r.startIndex.toNat + (r.last.toNat - r.first.toNat) ≤ 0xFFFF

theorem isValid_iff {r : CoverageRange} : r.isValid = true ↔ r.Valid := by
  rw [isValid, Bool.and_eq_true, decide_eq_true_iff, decide_eq_true_iff]
  exact ⟨fun ⟨h, hlast⟩ => ⟨h, hlast⟩, fun h => ⟨h.ordered, h.lastIndex⟩⟩

/-- The coverage index of a glyph of a valid range is the one that counting gives. -/
theorem Valid.toNat_index {r : CoverageRange} (h : r.Valid) {glyph : GlyphId} (hhas : r.Has glyph) :
    (r.startIndex + (glyph - r.first)).toNat =
      r.startIndex.toNat + (glyph.toNat - r.first.toNat) := by
  have hlast := UInt16.le_iff_toNat_le.mp hhas.2
  have hindex := h.lastIndex
  rw [UInt16.toNat_add, UInt16.toNat_sub_of_le _ _ hhas.1, Nat.mod_eq_of_lt (by omega)]

end CoverageRange

namespace Coverage

/-- A table is in order, and its length has sixteen bits. Listed glyphs do not descend. Ranges are
    valid, and each ends before the next one begins. -/
def WellFormed : Coverage → Prop
  | .glyphs list => list.size ≤ 0xFFFF ∧ list.toList.Pairwise (· ≤ ·)
  | .ranges list =>
    list.size ≤ 0xFFFF ∧ (∀ r ∈ list, r.Valid) ∧ list.toList.Pairwise fun a b => a.last < b.first

/-- The words of a table in the order in which they are stored. -/
def storedWords : Coverage → List UInt16
  | .glyphs list => 1 :: countedWords (fun g => [g]) list
  | .ranges list => 2 :: countedWords CoverageRange.words list

/-- The bytes of a table as they are stored. -/
def storedBytes (c : Coverage) : List UInt8 := wordsBytes c.storedWords

theorem adjacentAll_glyphs {list : List GlyphId} :
    adjacentAll (fun a b => a ≤ b) list = true ↔ list.Pairwise (· ≤ ·) := by
  rw [adjacentAll_iff_pairwise]
  · simp
  · intro a b _ c hab hbc
    exact decide_eq_true (UInt16.le_trans (of_decide_eq_true hab) (of_decide_eq_true hbc))

theorem all_isValid {list : Array CoverageRange} :
    list.all CoverageRange.isValid = true ↔ ∀ r ∈ list, r.Valid := by
  simp only [Array.all_eq_true_iff_forall_mem, CoverageRange.isValid_iff]

/-- Neighbours are apart if and only if all ranges are, since no range between them is
    turned around. -/
theorem adjacentAll_ranges {list : Array CoverageRange} (hvalid : ∀ r ∈ list, r.Valid) :
    adjacentAll (fun a b => a.last < b.first) list.toList = true ↔
      list.toList.Pairwise fun a b => a.last < b.first := by
  rw [adjacentAll_iff_pairwise]
  · simp
  · intro a b hb c hab hbc
    have hordered := (hvalid b (Array.mem_toList_iff.mp hb)).ordered
    exact decide_eq_true (UInt16.lt_trans (of_decide_eq_true hab)
      (UInt16.lt_of_le_of_lt hordered (of_decide_eq_true hbc)))

/-- A table is read if it is well-formed, and its bytes come next. -/
theorem reads_decoder {c : Cursor} {table : Coverage} :
    (∃ next, Decoder.Reads decoder c table next) ↔
      table.WellFormed ∧ table.storedBytes <+: c.remaining := by
  simp only [decoder, Decoder.reads_u16_bind, Decoder.u16s]
  -- each format has a count, its records and a check of their order
  constructor
  · rintro ⟨next, format, hformat, hrest⟩
    split at hrest
    case h_1 =>
      simp only [Decoder.reads_counted_bind FixedRecord.storedAs_u16, Decoder.reads_demand_bind,
        Decoder.reads_pure, Cursor.remaining_skip, adjacentAll_glyphs] at hrest
      obtain ⟨glyphs, hsize, hbytes, hascending, rfl, -⟩ := hrest
      exact ⟨⟨hsize, hascending⟩, prefix_append_iff.mpr ⟨hformat, hbytes⟩⟩
    case h_2 =>
      simp only [Decoder.reads_counted_bind CoverageRange.storedAs_record,
        Decoder.reads_demand_bind, Decoder.reads_pure, Cursor.remaining_skip, all_isValid] at hrest
      obtain ⟨ranges, hsize, hbytes, hvalid, hapart, rfl, -⟩ := hrest
      exact ⟨⟨hsize, hvalid, (adjacentAll_ranges hvalid).mp hapart⟩,
        prefix_append_iff.mpr ⟨hformat, hbytes⟩⟩
    case h_3 => exact absurd hrest Decoder.not_reads_throw
  · rintro ⟨hformed, hbytes⟩
    -- and what is in order is read again, as the check comes to the same
    cases table with
    | glyphs list =>
      obtain ⟨hsize, hascending⟩ := hformed
      obtain ⟨hformat, hbytes⟩ := prefix_append_iff.mp hbytes
      refine ⟨_, 1, hformat, (Decoder.reads_counted_bind FixedRecord.storedAs_u16).mpr
        ⟨list, hsize, by rwa [Cursor.remaining_skip], Decoder.reads_demand_bind.mpr
          ⟨adjacentAll_glyphs.mpr hascending, Decoder.reads_pure.mpr ⟨rfl, rfl⟩⟩⟩⟩
    | ranges list =>
      obtain ⟨hsize, hvalid, hapart⟩ := hformed
      obtain ⟨hformat, hbytes⟩ := prefix_append_iff.mp hbytes
      refine ⟨_, 2, hformat, (Decoder.reads_counted_bind CoverageRange.storedAs_record).mpr
        ⟨list, hsize, by rwa [Cursor.remaining_skip], Decoder.reads_demand_bind.mpr
          ⟨all_isValid.mpr hvalid, Decoder.reads_demand_bind.mpr
            ⟨(adjacentAll_ranges hvalid).mpr hapart, Decoder.reads_pure.mpr ⟨rfl, rfl⟩⟩⟩⟩⟩

/-- The table is read whose bytes come first. -/
theorem ofWindow_eq_ok {w : Window} {table : Coverage} :
    ofWindow w = .ok table ↔ table.WellFormed ∧ table.storedBytes <+: w.toList := by
  rw [ofWindow, Window.decode_eq_ok, reads_decoder, Cursor.remaining_ofWindow]

/-! ## §2 What is found -/

/-- Glyphs that do not descend are in order for every glyph. -/
theorem inOrder_glyphs {list : Array GlyphId} (h : list.toList.Pairwise (· ≤ ·)) (glyph : GlyphId) :
    InOrder (fun g => compareInterval g g glyph) list := by
  intro i j a b hij ha hb
  have hle : a ≤ b := rel_of_pairwise h hij ha hb
  simp only [UInt16.lt_iff_toNat_lt, UInt16.le_iff_toNat_le, compareInterval] at *
  grind

/-- The coverage index of a listed glyph is its last place. -/
theorem index?_glyphs_iff_last {list : Array GlyphId} (hsize : list.size ≤ 0xFFFF)
    (h : list.toList.Pairwise (· ≤ ·)) {glyph : GlyphId} {n : UInt16} :
    (Coverage.glyphs list).index? glyph = some n ↔
      list[n.toNat]? = some glyph ∧ ∀ j, n.toNat < j → list[j]? ≠ some glyph := by
  -- a glyph is compared with itself as an interval of one glyph
  have heq : ∀ g, compareInterval g g glyph = .eq ↔ g = glyph := fun g => by
    rw [compareInterval_eq_iff, ← UInt16.toNat_inj]
    omega
  -- the search gives the last place of the glyph, whatever way it takes
  have hlocate : ∀ i g, locate list (fun g => compareInterval g g glyph) = some (i, g) ↔
      g = glyph ∧ list[i]? = some glyph ∧ ∀ j, i < j → list[j]? ≠ some glyph := by
    intro i g
    rw [locate_eq_some_iff (inOrder_glyphs h glyph)]
    constructor
    · rintro ⟨hg, hsame, hlast⟩
      obtain rfl := (heq g).mp hsame
      exact ⟨rfl, hg, fun j hij hj => hlast j g hij hj hsame⟩
    · rintro ⟨rfl, hg, hlast⟩
      exact ⟨hg, (heq g).mpr rfl, fun j b hij hb hsame => hlast j hij ((heq b).mp hsame ▸ hb)⟩
  rw [index?, Option.map_eq_some_iff]
  constructor
  · rintro ⟨⟨i, g⟩, hfound, rfl⟩
    obtain ⟨-, hi, hlast⟩ := (hlocate i g).mp hfound
    have hlt := (Array.getElem?_eq_some_iff.mp hi).1
    -- the place is the coverage index, as there are no more places than words can number
    rw [UInt16.toNat_ofNat', Nat.mod_eq_of_lt (by omega)]
    exact ⟨hi, hlast⟩
  · rintro ⟨hn, hlast⟩
    -- the last place is one of those that are found
    exact ⟨(n.toNat, glyph), (hlocate _ _).mpr ⟨rfl, hn, hlast⟩, UInt16.ofNat_toNat⟩

/-- A range that has a glyph is the only one. -/
theorem range_unique {list : Array CoverageRange}
    (hapart : list.toList.Pairwise fun a b => a.last < b.first)
    {glyph : GlyphId} {r r' : CoverageRange} (hr : r ∈ list) (hr' : r' ∈ list) (hhas : r.Has glyph)
    (hhas' : r'.Has glyph) : r = r' := by
  obtain ⟨i, hi⟩ := Array.getElem?_of_mem hr
  obtain ⟨j, hj⟩ := Array.getElem?_of_mem hr'
  obtain ⟨hfirst, hlast⟩ := hhas
  obtain ⟨hfirst', hlast'⟩ := hhas'
  simp only [UInt16.le_iff_toNat_le] at *
  rcases Nat.lt_trichotomy i j with hij | rfl | hij
  · have hlt : r.last < r'.first := rel_of_pairwise hapart hij hi hj
    rw [UInt16.lt_iff_toNat_lt] at hlt
    omega
  · exact Option.some.inj (hi.symm.trans hj)
  · have hlt : r'.last < r.first := rel_of_pairwise hapart hij hj hi
    rw [UInt16.lt_iff_toNat_lt] at hlt
    omega

/-- The coverage index of a glyph in a range is counted from the index of the first glyph. -/
theorem index?_ranges_iff {list : Array CoverageRange} (hvalid : ∀ r ∈ list, r.Valid)
    (hapart : list.toList.Pairwise fun a b => a.last < b.first) {glyph : GlyphId} {n : UInt16} :
    (Coverage.ranges list).index? glyph = some n ↔
      ∃ r ∈ list, r.Has glyph ∧ n.toNat = r.startIndex.toNat + (glyph.toNat - r.first.toNat) := by
  have horder := inOrder_compareInterval (fun r hr => (hvalid r hr).ordered) hapart glyph
  -- a range is found for a glyph exactly if it has it
  have hhas : ∀ r : CoverageRange, compareInterval r.first r.last glyph = .eq ↔ r.Has glyph :=
    fun r => compareInterval_eq_iff
  rw [index?, Option.map_eq_some_iff]
  constructor
  -- at the place that is found, the range has the glyph, and counts on from its first index
  · rintro ⟨⟨i, r⟩, hfound, rfl⟩
    obtain ⟨hi, heq, -⟩ := (locate_eq_some_iff horder).mp hfound
    have hr := Array.mem_of_getElem? hi
    exact ⟨r, hr, (hhas r).mp heq, (hvalid r hr).toNat_index ((hhas r).mp heq)⟩
  -- a range that has the glyph is the one that is found, as no other range has it
  · rintro ⟨r, hr, hin, hn⟩
    obtain ⟨i, hi⟩ := Array.getElem?_of_mem hr
    refine ⟨(i, r), (locate_eq_some_iff horder).mpr ⟨hi, (hhas r).mpr hin, ?_⟩,
      UInt16.toNat_inj.mp (((hvalid r hr).toNat_index hin).trans hn.symm)⟩
    intro j b hij hb heq
    have hlt : r.last < b.first := rel_of_pairwise hapart hij hi hb
    obtain rfl := range_unique hapart hr (Array.mem_of_getElem? hb) hin ((hhas b).mp heq)
    exact UInt16.lt_irrefl _ (UInt16.lt_of_lt_of_le hlt (hvalid r hr).ordered)

/-! ## §3 The whole table -/

/-- The glyphs that a table lists, one after the other. -/
def listed : Coverage → List Nat
  | .glyphs list => list.toList.map UInt16.toNat
  | .ranges list => list.toList.flatMap fun r => List.range' r.first.toNat r.count

theorem count_eq_length_listed (table : Coverage) : table.count = table.listed.length := by
  cases table with
  | glyphs list => simp [count, listed]
  | ranges list =>
    have hlengths : list.toList.map (fun r => (List.range' r.first.toNat r.count).length) =
        list.toList.map CoverageRange.count := List.map_congr_left fun r _ => List.length_range'
    rw [count, listed, List.length_flatMap, hlengths, ← Array.foldl_toList, List.sum_eq_foldl,
      List.foldl_map]

theorem mem_listed_ranges {list : Array CoverageRange} {glyph : GlyphId} :
    glyph.toNat ∈ (Coverage.ranges list).listed ↔ ∃ r ∈ list, r.Has glyph := by
  have hrange : ∀ r : CoverageRange, glyph.toNat ∈ List.range' r.first.toNat r.count ↔
      r.Has glyph := by
    intro r
    rw [List.mem_range'_1, CoverageRange.Has, CoverageRange.count, UInt16.le_iff_toNat_le,
      UInt16.le_iff_toNat_le]
    omega
  simp only [listed, List.mem_flatMap, Array.mem_toList_iff, hrange]

/-- What is in a list is in it for the last time somewhere. -/
theorem exists_last_place {α : Type} {list : List α} {a : α} (h : a ∈ list) :
    ∃ i : Nat, list[i]? = some a ∧ ∀ j, i < j → list[j]? ≠ some a := by
  induction list with
  | nil => cases h
  | cons b list ih =>
    by_cases hagain : a ∈ list
    · obtain ⟨i, hi, hlast⟩ := ih hagain
      refine ⟨i + 1, hi, fun j hj => ?_⟩
      obtain ⟨j, rfl⟩ := Nat.exists_eq_succ_of_ne_zero (Nat.ne_zero_of_lt hj)
      exact hlast j (Nat.lt_of_succ_lt_succ hj)
    · obtain rfl : a = b := (List.mem_cons.mp h).resolve_right hagain
      refine ⟨0, rfl, fun j hj hsame => ?_⟩
      obtain ⟨j, rfl⟩ := Nat.exists_eq_succ_of_ne_zero (Nat.ne_zero_of_lt hj)
      exact hagain (List.mem_of_getElem? hsame)

/-- A glyph is covered if and only if it is listed. -/
theorem WellFormed.covers_iff {table : Coverage} (h : table.WellFormed) (glyph : GlyphId) :
    table.covers glyph = true ↔ glyph.toNat ∈ table.listed := by
  rw [covers, Option.isSome_iff_exists]
  -- a list is searched for the glyph itself, and ranges for one that has it
  cases table with
  | glyphs list =>
    obtain ⟨hsize, hascending⟩ := h
    have hmem : glyph.toNat ∈ (Coverage.glyphs list).listed ↔ glyph ∈ list.toList := by
      simp [listed, UInt16.toNat_inj]
    simp only [hmem, index?_glyphs_iff_last hsize hascending]
    constructor
    · rintro ⟨n, hn, -⟩
      exact Array.mem_toList_iff.mpr (Array.mem_of_getElem? hn)
    · intro hglyph
      -- a glyph that is listed more than once is found at its last place
      obtain ⟨i, hi, hlast⟩ := exists_last_place hglyph
      have hlt := (List.getElem?_eq_some_iff.mp hi).1
      rw [Array.length_toList] at hlt
      refine ⟨UInt16.ofNat i, ?_⟩
      rw [UInt16.toNat_ofNat', Nat.mod_eq_of_lt (by omega)]
      simp only [← Array.getElem?_toList]
      exact ⟨hi, hlast⟩
  | ranges list =>
    obtain ⟨-, hvalid, hapart⟩ := h
    simp only [mem_listed_ranges, index?_ranges_iff hvalid hapart]
    constructor
    · rintro ⟨n, r, hr, hhas, -⟩
      exact ⟨r, hr, hhas⟩
    · rintro ⟨r, hr, hhas⟩
      exact ⟨_, r, hr, hhas, (hvalid r hr).toNat_index hhas⟩

/-- **Coverage tables from bytes.** A table is read from a window if and only if its bytes come
    first and it is in order: it has at most 65535 glyphs that do not descend, or so many ranges
    that are apart from each other, none of them empty and none of them with coverage indices that
    need more than sixteen bits.

    A table that has been read lists as many glyphs as its count says, and it has a coverage index
    for these glyphs and for no others. Where no glyph is listed twice, the index of a listed glyph
    is its place in the list. The index of a glyph in a range is counted from the first glyph of the
    range, and no other range has the glyph. -/
theorem read_and_searched (w : Window) :
    (∀ table, ofWindow w = .ok table ↔ table.WellFormed ∧ table.storedBytes <+: w.toList) ∧
    (∀ table, ofWindow w = .ok table →
      table.count = table.listed.length ∧
      ∀ glyph, table.index? glyph = none ↔ glyph.toNat ∉ table.listed) ∧
    (∀ list, ofWindow w = .ok (.glyphs list) → list.toList.Nodup → ∀ (glyph : GlyphId) (n : UInt16),
      (Coverage.glyphs list).index? glyph = some n ↔ list[n.toNat]? = some glyph) ∧
    ∀ list, ofWindow w = .ok (.ranges list) → ∀ glyph : GlyphId,
      (∀ r ∈ list, ∀ r' ∈ list, r.Has glyph → r'.Has glyph → r = r') ∧
      ∀ n : UInt16, (Coverage.ranges list).index? glyph = some n ↔
        ∃ r ∈ list, r.Has glyph ∧ n.toNat = r.startIndex.toNat + (glyph.toNat - r.first.toNat) := by
  refine ⟨fun table => ofWindow_eq_ok, fun table hread => ⟨table.count_eq_length_listed,
    fun glyph => ?_⟩, fun list hread hnodup glyph n => ?_, fun list hread glyph => ?_⟩
  -- what is not covered is not listed
  · rw [← (ofWindow_eq_ok.mp hread).1.covers_iff, covers, Bool.not_eq_true,
      Option.isSome_eq_false_iff, Option.isNone_iff_eq_none]
  -- without duplicates the last place of a glyph is its only one
  · obtain ⟨⟨hsize, hascending⟩, -⟩ := ofWindow_eq_ok.mp hread
    rw [index?_glyphs_iff_last hsize hascending]
    refine ⟨And.left, fun hn => ⟨hn, fun j hj hsame => ?_⟩⟩
    rw [← Array.getElem?_toList] at hn hsame
    have hlt := (List.getElem?_eq_some_iff.mp hsame).1
    exact absurd ((List.getElem?_inj hlt hnodup).mp (hsame.trans hn.symm)) (Nat.ne_of_gt hj)
  · obtain ⟨⟨-, hvalid, hapart⟩, -⟩ := ofWindow_eq_ok.mp hread
    exact ⟨fun r hr r' hr' => range_unique hapart hr hr', fun n => index?_ranges_iff hvalid hapart⟩

namespace TouchingRanges

/-- Glyphs 5 to 7, and glyph 8 right behind them. -/
def data : ByteArray :=
  ⟨#[0, 2, 0, 2, 0, 5, 0, 7, 0, 0, 0, 8, 0, 8, 0, 3]⟩

def table : Coverage := .ranges #[⟨5, 7, 0⟩, ⟨8, 8, 3⟩]

/-- The glyph behind the first range belongs to the second one. -/
theorem eight_found : ofWindow (.ofBytes data) = .ok table ∧ table.index? 8 = some 3 := by
  obtain ⟨hread, -, -, hranges⟩ := read_and_searched (.ofBytes data)
  have hvalid : ∀ r ∈ #[⟨5, 7, 0⟩, ⟨8, 8, 3⟩], CoverageRange.Valid r :=
    all_isValid.mp (by decide +kernel)
  have htable : ofWindow (.ofBytes data) = .ok table :=
    (hread table).mpr ⟨⟨by decide, hvalid, by decide⟩, by decide⟩
  exact ⟨htable, ((hranges _ htable 8).2 3).mpr ⟨⟨8, 8, 3⟩, by simp, ⟨by decide, by decide⟩, rfl⟩⟩

end TouchingRanges

end Coverage

end OpenTypeLayout
