import OpenTypeLayout.Proofs.Locate
import OpenTypeLayout.SynthesizedClasses

/-!
# Recorded classes

Classes that are recorded while shaping are packed, four to a word, with words of their own for each
gap between the ranges of listed glyphs. This module looks at them glyph by glyph.

- `PackedClasses.get_set_self` and `get_set_of_ne`: a class that is put at a place is found there,
  and the classes in the other parts of the word stay.
- `gapPlace_inj`: no two glyphs have their classes at one place.
- `SynthesizedClasses.get_record_self` and `get_record_of_ne`: the first class that is recorded for
  a glyph is kept, and it is the class of that glyph only.
-/

namespace OpenTypeLayout

/-! ## §1 Bits of a word -/

namespace PackedClasses

theorem toNat_shift_mod (place : Nat) : ((shift place).toBitVec % 16).toNat = lane place := by
  have hlane : lane place ≤ 12 := Nat.sub_le _ _
  unfold shift
  rw [BitVec.toNat_umod, UInt16.toNat_toBitVec, UInt16.toNat_ofNat']
  rw [Nat.mod_eq_of_lt (show lane place < 2 ^ 16 by omega)]
  exact Nat.mod_eq_of_lt (show lane place < 16 by omega)

theorem getLsbD_mask (bit : Nat) : (0xF : UInt16).toBitVec.getLsbD bit = decide (bit < 4) := by
  show (BitVec.ofNat 16 (2 ^ 4 - 1)).getLsbD bit = decide (bit < 4)
  rw [BitVec.getLsbD_ofNat, Nat.testBit_two_pow_sub_one]
  grind

theorem getLsbD_shiftRight (word : UInt16) (place bit : Nat) :
    (word >>> shift place).toBitVec.getLsbD bit = word.toBitVec.getLsbD (lane place + bit) := by
  rw [UInt16.toBitVec_shiftRight, BitVec.ushiftRight_eq', toNat_shift_mod,
    BitVec.getLsbD_ushiftRight]

theorem getLsbD_shiftLeft (word : UInt16) (place bit : Nat) :
    (word <<< shift place).toBitVec.getLsbD bit =
      (decide (bit < 16) && !decide (bit < lane place) &&
      word.toBitVec.getLsbD (bit - lane place)) := by
  rw [UInt16.toBitVec_shiftLeft, BitVec.shiftLeft_eq', toNat_shift_mod, BitVec.getLsbD_shiftLeft]

/-- In the four bits of the place there are those of the class, and all other bits stay. -/
theorem getLsbD_put (word value : UInt16) (place : Nat) {bit : Nat} (hbit : bit < 16) :
    (put word place value).toBitVec.getLsbD bit =
      if lane place ≤ bit ∧ bit < lane place + 4 then value.toBitVec.getLsbD (bit - lane place)
      else word.toBitVec.getLsbD bit := by
  unfold put
  rw [UInt16.toBitVec_or, BitVec.getLsbD_or, UInt16.toBitVec_and, BitVec.getLsbD_and,
    UInt16.toBitVec_not, BitVec.getLsbD_not, getLsbD_shiftLeft, getLsbD_shiftLeft,
    UInt16.toBitVec_and, BitVec.getLsbD_and, getLsbD_mask]
  grind

/-- Words with the same four lowest bits are the same once the others are masked off. -/
theorem and_mask_congr {a b : UInt16}
    (h : ∀ bit < 4, a.toBitVec.getLsbD bit = b.toBitVec.getLsbD bit) : a &&& 0xF = b &&& 0xF := by
  apply UInt16.toBitVec_inj.mp
  apply BitVec.eq_of_getLsbD_eq
  intro bit _
  rw [UInt16.toBitVec_and, UInt16.toBitVec_and, BitVec.getLsbD_and,
    BitVec.getLsbD_and, getLsbD_mask]
  by_cases hbit : bit < 4
  · rw [h bit hbit]
  · simp [hbit]

theorem and_mask_of_lt {value : UInt16} (h : value < 16) : value &&& 0xF = value := by
  apply UInt16.toNat_inj.mp
  rw [UInt16.toNat_and]
  show value.toNat &&& (2 ^ 4 - 1) = value.toNat
  rw [Nat.and_two_pow_sub_one_eq_mod]
  exact Nat.mod_eq_of_lt (UInt16.lt_iff_toNat_lt.mp h)

theorem put_self (word value : UInt16) (place : Nat) :
    (put word place value >>> shift place) &&& 0xF = value &&& 0xF := by
  apply and_mask_congr
  intro bit hbit
  have hlane : lane place ≤ 12 := Nat.sub_le _ _
  rw [getLsbD_shiftRight, getLsbD_put _ _ _ (by omega), if_pos (by omega), Nat.add_sub_cancel_left]

theorem put_of_ne (word value : UInt16) {place other : Nat} (h : other % 4 ≠ place % 4) :
    (put word place value >>> shift other) &&& 0xF = (word >>> shift other) &&& 0xF := by
  apply and_mask_congr
  intro bit hbit
  have hlane : lane other ≤ 12 := Nat.sub_le _ _
  -- lanes of different places are four bits apart
  have hapart : ¬ (lane place ≤ lane other + bit ∧ lane other + bit < lane place + 4) := by
    unfold lane
    omega
  rw [getLsbD_shiftRight, getLsbD_shiftRight, getLsbD_put _ _ _ (by omega), if_neg hapart]

/-! ## §2 Packed classes -/

theorem words_set (c : PackedClasses) (place : Nat) (value : UInt16) :
    (c.set place value).words = c.words.modify (place / 4) fun word => put word place value := rfl

/-- The number of places. -/
def capacity (c : PackedClasses) : Nat := 4 * c.words.size

theorem le_capacity_zeros (count : Nat) : count ≤ (zeros count).capacity := by
  unfold zeros capacity
  rw [Array.size_replicate]
  omega

@[simp] theorem capacity_set (c : PackedClasses) (place : Nat) (value : UInt16) :
    (c.set place value).capacity = c.capacity := by
  unfold capacity
  rw [words_set, Array.size_modify]

theorem get_zeros (count place : Nat) : (zeros count).get place = 0 := by
  unfold get zeros
  rw [Array.getElem?_replicate]
  split
  case h_1 word hword =>
    split at hword
    case isTrue =>
      cases hword
      rw [UInt16.zero_shiftRight, UInt16.zero_and]
    case isFalse => cases hword
  case h_2 => rfl

theorem get_set_self {c : PackedClasses} {place : Nat} (h : place < c.capacity) (value : UInt16) :
    (c.set place value).get place = value &&& 0xF := by
  have hword : place / 4 < c.words.size := by
    unfold capacity at h
    omega
  unfold get
  rw [words_set, Array.getElem?_modify, if_pos rfl, Array.getElem?_eq_getElem hword]
  exact put_self _ _ _

theorem get_set_of_ne (c : PackedClasses) {place other : Nat} (h : other ≠ place) (value : UInt16) :
    (c.set place value).get other = c.get other := by
  unfold get
  rw [words_set, Array.getElem?_modify]
  by_cases hword : place / 4 = other / 4
  · rw [if_pos hword]
    cases c.words[other / 4]? with
    | none => rfl
    | some word => exact put_of_ne word value (by omega)
  · rw [if_neg hword]

@[simp] theorem capacity_record (c : PackedClasses) (place : Nat) (value : UInt16) :
    (c.record place value).capacity = c.capacity := by
  unfold record
  split
  · rw [capacity_set]
  · rfl

/-- The first class that is put at a place is kept. -/
theorem get_record_self {c : PackedClasses} {place : Nat}
    (h : place < c.capacity) (value : UInt16) :
    (c.record place value).get place = if c.get place = 0 then value &&& 0xF else c.get place := by
  unfold record
  split
  · rw [get_set_self h]
  · rfl

theorem get_record_of_ne (c : PackedClasses) {place other : Nat} (h : other ≠ place)
    (value : UInt16) : (c.record place value).get other = c.get other := by
  unfold record
  split
  · rw [get_set_of_ne c h]
  · rfl

/-- A class that is not zero stays. -/
theorem get_record_of_ne_zero {c : PackedClasses} {other : Nat} (h : c.get other ≠ 0) (place : Nat)
    (value : UInt16) : (c.record place value).get other = c.get other := by
  by_cases hsame : other = place
  · rw [record, if_neg (hsame ▸ h)]
  · exact get_record_of_ne c hsame value

end PackedClasses

/-! ## §3 Gaps -/

/-- Ranges in order and apart from each other, of glyphs from `start` on and below `stop`. -/
def ClassRange.Apart (stop : Nat) : (start : Nat) → List ClassRange → Prop
  | _, [] => True
  | start, r :: rest =>
    start ≤ r.first.toNat ∧ r.first.toNat ≤ r.last.toNat ∧ r.last.toNat < stop ∧
      Apart stop (r.last.toNat + 1) rest

section Gaps

variable {stop glyph other gap start : Nat} {ranges : List ClassRange} {p : GapPlace}

/-- The ranges have no glyph before the first one. -/
theorem ClassRange.Apart.le (h : Apart stop start ranges) {r : ClassRange} (hr : r ∈ ranges) :
    start ≤ r.first.toNat := by
  induction ranges generalizing start with
  | nil => cases hr
  | cons first rest ih =>
    obtain ⟨hstart, hfirst, -, hrest⟩ := h
    rcases List.mem_cons.mp hr with rfl | hr
    · exact hstart
    · have := ih hrest hr
      omega

/-- A glyph has no place exactly if one of the ranges has it. -/
theorem gapPlace_eq_none_iff (h : ClassRange.Apart stop start ranges) :
    gapPlace glyph gap start ranges = none ↔ ∃ r ∈ ranges, r.Has glyph := by
  induction ranges generalizing gap start with
  | nil => simp [gapPlace]
  | cons r rest ih =>
    obtain ⟨-, -, -, hrest⟩ := h
    rw [gapPlace]
    split
    -- the glyph is behind this range, so only the others can have it
    case isTrue hbelow =>
      have hnot : ¬ r.Has glyph := fun hhas => Nat.not_lt.mpr hhas.2 hbelow
      simp [ih hrest, hnot]
    case isFalse hbelow =>
      split
      case isTrue hhas =>
        exact iff_of_true rfl ⟨r, List.mem_cons_self, hhas, Nat.le_of_not_lt hbelow⟩
      -- the glyph is before this range, and so before all the others
      case isFalse habove =>
        refine iff_of_false nofun ?_
        rintro ⟨r', hr', hhas⟩
        rcases List.mem_cons.mp hr' with rfl | hr'
        · exact habove hhas.1
        · have := hrest.le hr'
          have := hhas.1
          omega

theorem gap_le_of_gapPlace (hplace : gapPlace glyph gap start ranges = some p) : gap ≤ p.gap := by
  induction ranges generalizing gap start with
  | nil =>
    cases hplace
    exact Nat.le_refl _
  | cons r rest ih =>
    rw [gapPlace] at hplace
    split at hplace
    case isTrue => exact Nat.le_of_succ_le (ih hplace)
    case isFalse =>
      split at hplace
      case isTrue => cases hplace
      case isFalse =>
        cases hplace
        exact Nat.le_refl _

/-- A place lies inside its gap. -/
theorem gapPlace_inside (h : ClassRange.Apart stop start ranges) (hstart : start ≤ glyph)
    (hstop : glyph < stop) (hplace : gapPlace glyph gap start ranges = some p) :
    ∃ size, (gapSizes stop start ranges)[p.gap - gap]? = some size ∧ p.place < size := by
  induction ranges generalizing gap start with
  | nil =>
    cases hplace
    exact ⟨stop - start, by simp [gapSizes], by simp; omega⟩
  -- the place is in the gap before this range, or in a later one
  | cons r rest ih =>
    obtain ⟨-, -, -, hrest⟩ := h
    rw [gapPlace] at hplace
    split at hplace
    case isTrue hbelow =>
      have hgap := gap_le_of_gapPlace hplace
      obtain ⟨size, hsize, hlt⟩ := ih hrest hbelow hplace
      refine ⟨size, ?_, hlt⟩
      rw [gapSizes, show p.gap - gap = (p.gap - (gap + 1)) + 1 by omega, List.getElem?_cons_succ]
      exact hsize
    case isFalse =>
      split at hplace
      case isTrue => cases hplace
      case isFalse habove =>
        cases hplace
        exact ⟨r.first.toNat - start, by simp [gapSizes], by simp; omega⟩

/-- No two glyphs have one place. -/
theorem gapPlace_inj (hglyph : start ≤ glyph) (hother : start ≤ other)
    (hplace : gapPlace glyph gap start ranges = some p)
    (hplace' : gapPlace other gap start ranges = some p) : glyph = other := by
  induction ranges generalizing gap start with
  | nil =>
    cases hplace
    have hsame := congrArg GapPlace.place (Option.some.inj hplace')
    dsimp only at hsame
    omega
  | cons r rest ih =>
    rw [gapPlace] at hplace hplace'
    split at hplace
    case isTrue hbelow =>
      split at hplace'
      case isTrue hbelow' => exact ih hbelow hbelow' hplace hplace'
      case isFalse =>
        -- the other glyph would have its place in an earlier gap
        have hgap := gap_le_of_gapPlace hplace
        split at hplace'
        case isTrue => cases hplace'
        case isFalse =>
          cases hplace'
          exact absurd hgap (Nat.not_succ_le_self _)
    case isFalse =>
      split at hplace
      case isTrue => cases hplace
      case isFalse =>
        cases hplace
        split at hplace'
        case isTrue => exact absurd (gap_le_of_gapPlace hplace') (Nat.not_succ_le_self _)
        case isFalse =>
          split at hplace'
          case isTrue => cases hplace'
          case isFalse =>
            have hsame := congrArg GapPlace.place (Option.some.inj hplace')
            dsimp only at hsame
            omega

end Gaps

/-! ## §4 Recorded classes -/

namespace SynthesizedClasses

variable {s : SynthesizedClasses} {x y : GlyphId}

theorem place?_record (s : SynthesizedClasses) (x : GlyphId) (value : UInt16) (y : GlyphId) :
    (s.record x value).place? y = s.place? y := by
  unfold record
  split <;> rfl

@[simp] theorem glyphCount_record (s : SynthesizedClasses) (x : GlyphId) (value : UInt16) :
    (s.record x value).glyphCount = s.glyphCount := by
  unfold record
  split <;> rfl

@[simp] theorem ranges_record (s : SynthesizedClasses) (x : GlyphId) (value : UInt16) :
    (s.record x value).ranges = s.ranges := by
  unfold record
  split <;> rfl

theorem get_of_place? {p : GapPlace} (h : s.place? x = some p) : s.get x = s.classAt p := by
  rw [get, h]

theorem get_of_no_place (h : s.place? x = none) : s.get x = 0 := by
  rw [get, h]

theorem record_of_place? {p : GapPlace} (h : s.place? x = some p) (value : UInt16) :
    s.record x value =
      { s with gaps := s.gaps.modify p.gap fun c => c.record p.place value } := by
  rw [record, h]

/-- A place keeps its class if that of its gap does. -/
theorem classAt_record {q : GapPlace} {value : UInt16}
    (h : ∀ p c, s.place? x = some p → p.gap = q.gap → s.gaps[q.gap]? = some c →
      (c.record p.place value).get q.place = c.get q.place) :
    (s.record x value).classAt q = s.classAt q := by
  cases hplace : s.place? x with
  | none => rw [record, hplace]
  | some p =>
    rw [record_of_place? hplace, classAt, classAt, Array.getElem?_modify]
    by_cases hgap : p.gap = q.gap
    · rw [if_pos hgap]
      cases hclasses : s.gaps[q.gap]? with
      | none => rfl
      | some c => exact h p c hplace hgap hclasses
    · rw [if_neg hgap]

/-- A recorded class stays. -/
theorem get_record (h : s.get x ≠ 0) (glyph : GlyphId) (value : UInt16) :
    (s.record glyph value).get x = s.get x := by
  cases hplace : s.place? x with
  | none => exact absurd (get_of_no_place hplace) h
  | some q =>
    rw [get_of_place? hplace] at h ⊢
    rw [get_of_place? ((place?_record s glyph value x).trans hplace)]
    refine classAt_record fun p c _ _ hclasses =>
      PackedClasses.get_record_of_ne_zero ?_ p.place value
    simpa [classAt, hclasses] using h

theorem place?_inj {p : GapPlace} (hx : s.place? x = some p)
    (hy : s.place? y = some p) : x = y := by
  unfold place? at hx hy
  split at hx
  case isFalse => cases hx
  case isTrue =>
    split at hy
    case isFalse => cases hy
    case isTrue =>
      exact UInt16.toNat_inj.mp (gapPlace_inj (Nat.zero_le _) (Nat.zero_le _) hx hy)

/-- Recording a class for a glyph leaves all other glyphs alone. -/
theorem get_record_of_ne (hne : y ≠ x) (value : UInt16) : (s.record x value).get y = s.get y := by
  cases hy : s.place? y with
  | none => rw [get_of_no_place hy, get_of_no_place ((place?_record s x value y).trans hy)]
  | some q =>
    rw [get_of_place? hy, get_of_place? ((place?_record s x value y).trans hy)]
    refine classAt_record fun p c hx hgap _ => ?_
    -- in one gap different glyphs have different places
    refine PackedClasses.get_record_of_ne c (fun hsame => hne ?_) value
    have hpq : p = q := by
      cases p
      cases q
      rw [GapPlace.mk.injEq]
      exact ⟨hgap, hsame.symm⟩
    exact place?_inj hy (hpq ▸ hx)

/-- The ranges are in order and of glyphs that the font has, and every gap has places for its
    glyphs. -/
structure Fits (s : SynthesizedClasses) : Prop where
  apart : ClassRange.Apart s.glyphCount 0 s.ranges
  sizes : ∀ (i size : Nat), (gapSizes s.glyphCount 0 s.ranges)[i]? = some size →
    ∃ classes : PackedClasses, s.gaps[i]? = some classes ∧ size ≤ classes.capacity

theorem fits_ofRanges {glyphCount : Nat} {ranges : List ClassRange}
    (h : ClassRange.Apart glyphCount 0 ranges) : (ofRanges glyphCount ranges).Fits where
  apart := h
  sizes i size hsize := by
    refine ⟨PackedClasses.zeros size, ?_, PackedClasses.le_capacity_zeros size⟩
    change (gapSizes glyphCount 0 ranges)[i]? = some size at hsize
    simp [ofRanges, hsize]

theorem get_ofRanges (glyphCount : Nat) (ranges : List ClassRange) (x : GlyphId) :
    (ofRanges glyphCount ranges).get x = 0 := by
  unfold get
  split
  case h_2 => rfl
  case h_1 p _ =>
    simp only [classAt, ofRanges, List.getElem?_toArray, List.getElem?_map, Option.map_map]
    cases (gapSizes glyphCount 0 ranges)[p.gap]? with
    | none => rfl
    | some size => exact PackedClasses.get_zeros size p.place

theorem Fits.record (h : s.Fits) (x : GlyphId) (value : UInt16) : (s.record x value).Fits := by
  cases hplace : s.place? x with
  | none =>
    rw [SynthesizedClasses.record, hplace]
    exact h
  | some p =>
    rw [record_of_place? hplace]
    refine ⟨h.apart, fun i size hsize => ?_⟩
    obtain ⟨c, hclasses, hle⟩ := h.sizes i size hsize
    rw [Array.getElem?_modify, hclasses]
    split
    case isFalse => exact ⟨c, rfl, hle⟩
    case isTrue =>
      refine ⟨_, rfl, ?_⟩
      rw [PackedClasses.capacity_record]
      exact hle

/-- Where the class of a glyph is kept there is room for it. -/
theorem Fits.room (h : s.Fits) {p : GapPlace} (hplace : s.place? x = some p) :
    ∃ classes : PackedClasses, s.gaps[p.gap]? = some classes ∧ p.place < classes.capacity := by
  unfold place? at hplace
  split at hplace
  case isFalse => cases hplace
  case isTrue hlt =>
    obtain ⟨size, hsize, hinside⟩ := gapPlace_inside h.apart (Nat.zero_le _) hlt hplace
    obtain ⟨classes, hclasses, hle⟩ := h.sizes _ size hsize
    exact ⟨classes, hclasses, Nat.lt_of_lt_of_le hinside hle⟩

/-- A class can be recorded for the glyphs of the font that no range has. -/
theorem Fits.takes_iff (h : s.Fits) :
    s.takes x = true ↔ x.toNat < s.glyphCount ∧ ¬ ∃ r ∈ s.ranges, r.Has x.toNat := by
  have hplace : s.takes x = (s.place? x).isSome := by
    unfold takes
    cases hp : s.place? x with
    | none => rfl
    | some p =>
      obtain ⟨classes, hclasses, -⟩ := h.room hp
      simpa using (Array.getElem?_eq_some_iff.mp hclasses).1
  rw [hplace, Option.isSome_iff_ne_none, place?]
  split
  case isTrue hlt => rw [Ne, gapPlace_eq_none_iff h.apart, and_iff_right hlt]
  case isFalse hlt => simp [hlt]

/-- What is recorded for a glyph that has no class yet is its class from then on. -/
theorem Fits.get_record_self (h : s.Fits) (htakes : s.takes x = true) {value : UInt16}
    (hvalue : value < 16) :
    (s.record x value).get x = if s.get x = 0 then value else s.get x := by
  cases hplace : s.place? x with
  | none => simp [takes, hplace] at htakes
  | some p =>
    obtain ⟨c, hclasses, hroom⟩ := h.room hplace
    have hold : s.classAt p = c.get p.place := by simp [classAt, hclasses]
    have hnew : (s.record x value).classAt p = (c.record p.place value).get p.place := by
      simp [record_of_place? hplace, classAt, Array.getElem?_modify, hclasses]
    rw [get_of_place? hplace, get_of_place? ((place?_record s x value x).trans hplace), hold, hnew,
      PackedClasses.get_record_self hroom, PackedClasses.and_mask_of_lt hvalue]

end SynthesizedClasses

end OpenTypeLayout
