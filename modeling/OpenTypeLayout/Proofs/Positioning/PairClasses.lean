import OpenTypeLayout.Proofs.DirectIndexing
import OpenTypeLayout.Proofs.SharedLoading

/-!
# Pairs by class

A subtable that adjusts pairs by class has a row of records for each class of the first glyph, and
in each row one record for each class of the second. The classes that a class definition names are
compared with the counts when the subtable is read. Class 0 is the class of the glyphs that are not
mentioned, and a class definition may be empty, so class 0 has a row and a column only where there
are any.

- `PairPos.ClassHeader` stands in front of the records, and `ClassHeader.StoredAt` says what a
  subtable has in common with the bytes of a window.
- `PairPos.pairs_by_class` is what every pair of glyphs is answered with.
- §3 has a subtable without rows.
-/

namespace OpenTypeLayout

/-! ## §1 What is stored -/

section

variable {m : Type → Type} [Monad m] [MonadExceptOf ParseError m] [Loader m]

/-- Behind words, the next word is read as a format. -/
theorem ValueFormat.ensuresFrom_decoder {c : Cursor} {w : Window} {ns : List UInt16}
    (h : c.Behind w ns) :
    Decoder.EnsuresFrom c (decoder : Decoder m ValueFormat) fun f next =>
    next.Behind w (ns ++ [f.bits]) := by
  refine Decoder.ensuresFrom_bind (Decoder.ensuresFrom_word h) fun bits next hnext =>
    ensures_mono (Decoder.ensuresFrom_ofExcept _) fun ⟨f, after⟩ ⟨hf, hafter⟩ => ?_
  obtain rfl : after = next := hafter
  rw [ofBits] at hf
  split at hf
  case isTrue =>
    cases hf
    exact hnext
  case isFalse => cases hf

end

namespace PairPos

/-- What stands in front of the records of a subtable that adjusts pairs by class. -/
structure ClassHeader where
  /-- Where the coverage table is. -/
  coverageOffset : UInt16
  /-- The format of the records for first glyphs. -/
  firstFormat : ValueFormat
  /-- The format of the records for second glyphs. -/
  secondFormat : ValueFormat
  /-- Where the classes of first glyphs are. -/
  firstOffset : UInt16
  /-- Where the classes of second glyphs are. -/
  secondOffset : UInt16
  /-- The number of rows. -/
  firstCount : UInt16
  /-- The number of columns. -/
  secondCount : UInt16

namespace ClassHeader

/-- The words of a header in the order in which they are stored. -/
def words (h : ClassHeader) : List UInt16 :=
  [2, h.coverageOffset, h.firstFormat.bits, h.secondFormat.bits, h.firstOffset, h.secondOffset,
    h.firstCount, h.secondCount]

/-- The number of bytes of both value records of a pair. -/
def stride (h : ClassHeader) : Nat := h.firstFormat.size + h.secondFormat.size

/-- The value records that are stored in a row and a column. The rows are one behind the other, and
    the first one is right behind the header. -/
def valueAt (h : ClassHeader) (w : Window) (row column : Nat) : Except ParseError PairValue :=
  (w.narrow (2 * h.words.length + (row * h.secondCount.toNat + column) * h.stride) h.stride).decode
    (PairValue.decoder h.firstFormat h.secondFormat w)

/-- A window begins with the header, and the rows are those behind it. The classes named are below
    the numbers of rows and columns. -/
structure StoredAt (h : ClassHeader) (w : Window) (secondFormat : ValueFormat)
    (first second : ClassDef) (secondCount : Nat) (rows : Array (Array PairValue)) : Prop where
  bytes : wordsBytes h.words <+: w.toList
  secondFormat_eq : secondFormat = h.secondFormat
  secondCount_eq : secondCount = h.secondCount.toNat
  first_isBelow : first.isBelow h.firstCount = true
  second_isBelow : second.isBelow h.secondCount = true
  size_rows : rows.size = h.firstCount.toNat
  size_row : ∀ row ∈ rows, row.size = secondCount
  valueAt_eq : ∀ (i j : Nat) (row : Array PairValue) (value : PairValue),
    rows[i]? = some row → row[j]? = some value → h.valueAt w i j = .ok value

end ClassHeader

section

variable {m : Type → Type} [Monad m] [MonadExceptOf ParseError m] [SharedTables m] [Loader m]
variable {P : Window → Coverage → Prop} {Q : Window → ClassDef → Prop}

/-- A subtable that has been read is stored, and of its shared tables holds what holds of those at
    the offsets in the header. -/
theorem ensures_stored (hcoverage : ∀ v, Ensures (SharedTables.coverage v : m Coverage) (P v))
    (hclassDef : ∀ v, Ensures (SharedTables.classDef v : m ClassDef) (Q v)) (w : Window) :
    Ensures (load w : m PairPos) fun p => ∀ coverage secondFormat first second secondCount rows,
      p = .byClass coverage secondFormat first second secondCount rows →
        ∃ h : ClassHeader, h.StoredAt w secondFormat first second secondCount rows ∧
          P (w.offset h.coverageOffset.toNat) coverage ∧ Q (w.offset h.firstOffset.toNat) first ∧
          Q (w.offset h.secondOffset.toNat) second := by
  refine ensures_decode_from (Decoder.ensuresFrom_word_bind (.ofWindow w) fun format c hc => ?_)
  split
  case h_1 =>
    -- pairs by glyph, of which nothing is said here
    refine Decoder.ensuresFrom_of_ensures
      (ensures_after fun coverageOffset => ensures_after fun coverage =>
      ensures_after fun first => ensures_after fun second => ensures_after fun count =>
      ensures_after fun offsets => ensures_after fun entries => ensures_pure ?_)
    exact fun _ _ _ _ _ _ heq => nomatch heq
  case h_2 =>
    -- shared tables are read as soon as their offset is known, between the words of the header
    refine Decoder.ensuresFrom_word_bind hc fun coverageOffset c hc => ?_
    refine Decoder.ensuresFrom_lift_bind (hcoverage _) fun coverage hP => ?_
    refine Decoder.ensuresFrom_bind (ValueFormat.ensuresFrom_decoder hc) fun firstFormat c hc => ?_
    refine Decoder.ensuresFrom_bind (ValueFormat.ensuresFrom_decoder hc) fun secondFormat c hc => ?_
    refine Decoder.ensuresFrom_word_bind hc fun firstOffset c hc => ?_
    refine Decoder.ensuresFrom_lift_bind (hclassDef _) fun first hfirst => ?_
    refine Decoder.ensuresFrom_word_bind hc fun secondOffset c hc => ?_
    refine Decoder.ensuresFrom_lift_bind (hclassDef _) fun second hsecond => ?_
    refine Decoder.ensuresFrom_word_bind hc fun firstCount c hc => ?_
    refine Decoder.ensuresFrom_word_bind hc fun secondCount c hc => ?_
    refine Decoder.ensuresFrom_demand_bind fun hbelow =>
      Decoder.ensuresFrom_demand_bind fun hbelow' => ?_
    refine Decoder.ensuresFrom_bind (Decoder.ensuresFrom_records _ _ _) fun rows _ ⟨hsize, hrows⟩ =>
      Decoder.ensuresFrom_pure fun _ _ _ _ _ _ heq => ?_
    cases heq
    obtain ⟨rfl, hbytes⟩ := hc
    refine ⟨⟨coverageOffset, firstFormat, secondFormat, firstOffset, secondOffset,
      firstCount, secondCount⟩,
      ⟨hbytes, rfl, rfl, hbelow, hbelow', hsize, fun row hrow => ?_, fun i j row value hi hj => ?_⟩,
      hP, hfirst, hsecond⟩
    · obtain ⟨i, hi⟩ := Array.getElem?_of_mem hrow
      exact (Decoder.records_eq_ok (hrows i row hi)).1
    · exact Decoder.record_of_row (hrows i row hi) hj
  case h_3 => exact Decoder.ensuresFrom_throw _

end

end PairPos

/-! ## §2 What is answered -/

/-- The class of a glyph is below a limit that the classes named are below. Glyphs that are not
    mentioned are in class 0, so the limit must not be zero. -/
theorem ClassDef.value_lt {d : ClassDef} {limit : UInt16} (h : d.isBelow limit = true)
    (hlimit : limit ≠ 0) (glyph : GlyphId) : d.value glyph < limit := by
  rw [value]
  cases hclass : d.classOf glyph with
  | none => exact UInt16.pos_iff_ne_zero.mpr hlimit
  | some c =>
    have hnamed : c ∈ d.named := List.contains_iff_mem.mp (defines_of_classOf hclass)
    exact of_decide_eq_true (List.all_eq_true.mp h c hnamed)

namespace PairPos

section

variable {h : ClassHeader} {w : Window} {coverage : Coverage} {secondFormat : ValueFormat}
variable {first second : ClassDef} {secondCount : Nat} {rows : Array (Array PairValue)}
variable {glyph glyph' : GlyphId}

/-- If the first glyph is covered, the record in the row of its class and in the column of the class
    of the second is looked up. -/
theorem apply_byClass (hcovers : coverage.covers glyph = true) :
    (byClass coverage secondFormat first second secondCount rows).apply glyph glyph' =
      if (second.value glyph').toNat < secondCount then
        match rows[(first.value glyph).toNat]?.bind
            fun row => row[(second.value glyph').toNat]? with
        | some value => .ok (some value)
        | none => .error .badIndex
      else .error .badIndex :=
  if_pos hcovers

/-- Where there are rows and columns, there is a record for every class. -/
theorem ClassHeader.StoredAt.apply_eq_some
    (hstored : h.StoredAt w secondFormat first second secondCount rows)
    (hcovers : coverage.covers glyph = true)
    (hfirst : h.firstCount ≠ 0) (hsecond : h.secondCount ≠ 0) :
    ∃ value, (byClass coverage secondFormat first second secondCount rows).apply glyph glyph' =
        .ok (some value) ∧
      h.valueAt w (first.value glyph).toNat (second.value glyph').toNat = .ok value := by
  have hrow : (first.value glyph).toNat < rows.size := by
    rw [hstored.size_rows]
    exact UInt16.lt_iff_toNat_lt.mp (ClassDef.value_lt hstored.first_isBelow hfirst glyph)
  have hcolumn : (second.value glyph').toNat < secondCount := by
    rw [hstored.secondCount_eq]
    exact UInt16.lt_iff_toNat_lt.mp (ClassDef.value_lt hstored.second_isBelow hsecond glyph')
  have hrow? := Array.getElem?_eq_getElem hrow
  have hinside : (second.value glyph').toNat < rows[(first.value glyph).toNat].size := by
    rwa [hstored.size_row _ (Array.mem_of_getElem? hrow?)]
  have hvalue? := Array.getElem?_eq_getElem hinside
  refine ⟨_, ?_, hstored.valueAt_eq _ _ _ _ hrow? hvalue?⟩
  rw [apply_byClass hcovers, if_pos hcolumn, hrow?, Option.bind_some, hvalue?]

/-- Without rows or without columns, there is no record at all. -/
theorem ClassHeader.StoredAt.apply_eq_error
    (hstored : h.StoredAt w secondFormat first second secondCount rows)
    (hcovers : coverage.covers glyph = true) (hnone : h.firstCount = 0 ∨ h.secondCount = 0) :
    (byClass coverage secondFormat first second secondCount rows).apply glyph glyph' =
      .error .badIndex := by
  rw [apply_byClass hcovers]
  split
  case isFalse => rfl
  case isTrue hcolumn =>
    have hfirst : h.firstCount = 0 := by
      refine hnone.resolve_right fun hsecond => ?_
      rw [hstored.secondCount_eq, hsecond] at hcolumn
      exact Nat.not_lt_zero _ hcolumn
    have hrows : rows.size = 0 := by
      rw [hstored.size_rows, hfirst]
      rfl
    rw [Array.getElem?_eq_none (by omega), Option.bind_none]

end

/-- A subtable that has been read has a header. From an honest cache, its shared tables are those at
    the offsets in the header. -/
theorem exists_header {w : Window} {cache cache' : LoadCache} {p : PairPos} {coverage : Coverage}
    {secondFormat : ValueFormat} {first second : ClassDef} {secondCount : Nat}
    {rows : Array (Array PairValue)}
    (hrun : (load w : CachedLoad PairPos).run cache = .ok (p, cache'))
    (hp : p = .byClass coverage secondFormat first second secondCount rows) :
    ∃ h : ClassHeader, h.StoredAt w secondFormat first second secondCount rows ∧
      (cache.Honest w → Coverage.ofWindow (w.offset h.coverageOffset.toNat) = .ok coverage ∧
        ClassDef.ofWindow (w.offset h.firstOffset.toNat) = .ok first ∧
        ClassDef.ofWindow (w.offset h.secondOffset.toNat) = .ok second) := by
  by_cases hhonest : cache.Honest w
  · -- what is answered from an honest cache is answered without one as well
    have hafresh : (load w : Except ParseError PairPos) = .ok p := RecordedLoad.afresh_of_run
      ((RecordedLoad.erasure w).same_pairPos (.refl w)).1
      ((RecordedLoad.freshness w).same_pairPos (.refl w)).1 hhonest hrun
    have hstored := ensures_stored (m := Except ParseError)
      (P := fun v table => Coverage.ofWindow v = .ok table)
      (Q := fun v d => ClassDef.ofWindow v = .ok d) (fun _ _ h => h) (fun _ _ h => h) w
    obtain ⟨h, hstored, htables⟩ := hstored p hafresh _ _ _ _ _ _ hp
    exact ⟨h, hstored, fun _ => htables⟩
  · -- any other cache may have other tables, but the records are never in it
    have hstored := ensures_stored (m := CachedLoad) (P := fun _ _ => True) (Q := fun _ _ => True)
      (fun _ => ensures_true _) (fun _ => ensures_true _) w
    obtain ⟨h, hstored, -⟩ := ensures_run_iff.mp hstored cache _ hrun _ _ _ _ _ _ hp
    exact ⟨h, hstored, fun h => absurd h hhonest⟩

/-- **Pairs by class.** A subtable that adjusts pairs by class has been read, from whatever cache.
    Its rows are stored behind the header with which the window begins, and its coverage table and
    its class definitions at the offsets in the header, if the cache is honest. Then for all pairs
    of glyphs: if the first glyph is not covered, nothing is answered. If it is, and if there are
    rows and columns, the answer is the two value records that are stored in the row of the class
    of the first glyph, and in the column of that of the second, whether or not the class
    definitions mention the glyphs. Only without rows, or without columns, there is a failure, and
    it is a bad index. -/
theorem pairs_by_class (w : Window) (cache cache' : LoadCache) (p : PairPos) (coverage : Coverage)
    (secondFormat : ValueFormat) (first second : ClassDef) (secondCount : Nat)
    (rows : Array (Array PairValue))
    (hrun : (load w : CachedLoad PairPos).run cache = .ok (p, cache'))
    (hp : p = .byClass coverage secondFormat first second secondCount rows) :
    ∃ h : ClassHeader, h.StoredAt w secondFormat first second secondCount rows ∧
      (cache.Honest w → Coverage.ofWindow (w.offset h.coverageOffset.toNat) = .ok coverage ∧
        ClassDef.ofWindow (w.offset h.firstOffset.toNat) = .ok first ∧
        ClassDef.ofWindow (w.offset h.secondOffset.toNat) = .ok second) ∧
      ∀ glyph glyph' : GlyphId,
        (coverage.covers glyph = false → p.apply glyph glyph' = .ok none) ∧
        (coverage.covers glyph = true → h.firstCount ≠ 0 → h.secondCount ≠ 0 →
          ∃ value, p.apply glyph glyph' = .ok (some value) ∧
            h.valueAt w (first.value glyph).toNat (second.value glyph').toNat = .ok value) ∧
        (coverage.covers glyph = true → h.firstCount = 0 ∨ h.secondCount = 0 →
          p.apply glyph glyph' = .error .badIndex) := by
  obtain ⟨h, hstored, htables⟩ := exists_header hrun hp
  subst hp
  refine ⟨h, hstored, htables, fun glyph glyph' =>
    -- the cells are looked up only for covered glyphs, and there are none where a count is zero
    ⟨fun hcovers => ?_, fun hcovers => ?_, fun hcovers => ?_⟩⟩
  · rw [apply, if_neg (by rw [hcovers]; exact Bool.false_ne_true)]
  · exact hstored.apply_eq_some hcovers
  · exact hstored.apply_eq_error hcovers

end PairPos

namespace ClassPairs

/-- In the subtable with two classes on either side, the pair of the glyphs 1 and 2 is adjusted by
    the records that are stored in row 1 and column 1. -/
theorem one_two_adjusted :
    (PairPos.load (.ofBytes data) : CachedLoad PairPos).result = .ok subtable ∧
    subtable.apply 1 2 = .ok (some (advance (-50))) ∧
    ∃ h : PairPos.ClassHeader, wordsBytes h.words <+: (Window.ofBytes data).toList ∧
      h.valueAt (.ofBytes data) 1 1 = .ok (advance (-50)) := by
  have hread : (PairPos.load (.ofBytes data) : CachedLoad PairPos).result = .ok subtable := by
    rw [PairPos.result_load]
    decide +kernel
  obtain ⟨cache, hrun⟩ := CachedLoad.exists_run hread
  obtain ⟨h, hstored, -, hpairs⟩ :=
    PairPos.pairs_by_class (.ofBytes data) {} cache subtable _ _ _ _ _ _ hrun rfl
  have hfirst : h.firstCount ≠ 0 := fun hzero => absurd hstored.size_rows (by rw [hzero]; decide)
  have hsecond : h.secondCount ≠ 0 :=
    fun hzero => absurd hstored.secondCount_eq (by rw [hzero]; decide)
  obtain ⟨value, happly, hvalue⟩ := (hpairs 1 2).2.1 (by decide) hfirst hsecond
  have hadjusted : subtable.apply 1 2 = .ok (some (advance (-50))) := rfl
  cases happly.symm.trans hadjusted
  exact ⟨hread, hadjusted, h, hstored.bytes, hvalue⟩

end ClassPairs

/-! ## §3 No rows -/

namespace NoRows

/-- A subtable that covers the glyph 1, with one column, but without rows. Both class definitions
    are the same, and mention no glyph. -/
def data : ByteArray := ⟨#[
  0x00, 0x02, 0x00, 0x10, 0x00, 0x00, 0x00, 0x00, 0x00, 0x16, 0x00, 0x16, 0x00, 0x00, 0x00, 0x01,
  0x00, 0x01, 0x00, 0x01, 0x00, 0x01,
  0x00, 0x02, 0x00, 0x00]⟩

def subtable : PairPos := .byClass (.glyphs #[1]) ⟨0⟩ .empty .empty 1 #[]

/-- The subtable is read, as no class that is named is out of bounds. Both glyphs of the pair are in
    class 0, which has no row, so there is a failure. -/
theorem covered_without_row :
    (PairPos.load (.ofBytes data) : CachedLoad PairPos).result = .ok subtable ∧
    subtable.covers 1 = true ∧ subtable.apply 1 2 = .error .badIndex := by
  refine ⟨?_, by decide, rfl⟩
  rw [PairPos.result_load]
  decide +kernel

end NoRows

end OpenTypeLayout
