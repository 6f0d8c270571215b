import Mathlib.Data.Nat.Bitwise
import OpenTypeLayout.Device

/-!
# Deltas packed into words

The deltas of a word are its digits in base 4, 16 or 256, in two's complement. In these bases digits
are groups of bits, so packing and unpacking are compared bit by bit.

- `testBit_digit` and `testBit_ofDigits` say where the bits of digits are.
- `DeltaFormat.unpack_pack` gives back what has been packed, if it fits.
- `DeltaFormat.testBit_pack` says which bits of a word its deltas have.
-/

namespace OpenTypeLayout

/-! ## §1 Digits as groups of bits -/

section

variable {width : Nat}

theorem testBit_digit (n place i : Nat) :
    (digit (2 ^ width) n place).testBit i =
      (decide (i < width) && n.testBit (place * width + i)) := by
  induction place generalizing n with
  | zero => rw [digit, Nat.testBit_mod_two_pow, Nat.zero_mul, Nat.zero_add]
  | succ place ih =>
    rw [digit, ih, Nat.testBit_div_two_pow, Nat.add_mul, Nat.one_mul]
    congr 2
    omega

theorem digit_lt {base : Nat} (hbase : 0 < base) (n place : Nat) : digit base n place < base := by
  induction place generalizing n with
  | zero => exact Nat.mod_lt n hbase
  | succ place ih => exact ih (n / base)

/-- The bits of a number are those of its digits, the last digit first. -/
theorem testBit_ofDigits (hwidth : 0 < width)
    {ds : List Nat} (hds : ∀ d ∈ ds, d < 2 ^ width) (i : Nat) :
    (ofDigits (2 ^ width) ds).testBit i = (ds.reverse[i / width]?.getD 0).testBit (i % width) := by
  induction hreverse : ds.reverse generalizing ds i with
  | nil =>
    obtain rfl := List.reverse_eq_nil_iff.mp hreverse
    simp [ofDigits]
  | cons d rest ih =>
    obtain rfl : ds = rest.reverse ++ [d] := by
      rw [← List.reverse_cons, ← hreverse, List.reverse_reverse]
    have hd : d < 2 ^ width := hds d (by simp)
    have hrest : (ofDigits (2 ^ width) rest.reverse).testBit (i - width) =
        (rest[(i - width) / width]?.getD 0).testBit ((i - width) % width) :=
      ih (fun d' hd' => hds d' (List.mem_append_left _ hd')) (i - width) (List.reverse_reverse rest)
    -- the last digit has the low bits, and the digits before it all bits from `width` on
    rw [ofDigits_append, Nat.mul_comm, Nat.testBit_two_pow_mul_add _ hd]
    split
    case isTrue hlt => rw [Nat.div_eq_of_lt hlt, Nat.mod_eq_of_lt hlt]; rfl
    case isFalse hge =>
      have hdiv : i / width = (i - width) / width + 1 := by
        rw [Nat.div_eq_sub_div hwidth (by omega)]
      rw [hrest, hdiv, List.getElem?_cons_succ, ← Nat.mod_eq_sub_mod (by omega)]

/-- The digits of a number are those that it has been put together from, the last one first. -/
theorem digit_ofDigits (hwidth : 0 < width) {ds : List Nat} (hds : ∀ d ∈ ds, d < 2 ^ width)
    (place : Nat) :
    digit (2 ^ width) (ofDigits (2 ^ width) ds) place = ds.reverse[place]?.getD 0 := by
  have hlt : ds.reverse[place]?.getD 0 < 2 ^ width := by
    cases h : ds.reverse[place]? with
    | none => exact Nat.two_pow_pos width
    | some d => exact hds d (List.mem_reverse.mp (List.mem_of_getElem? h))
  apply Nat.eq_of_testBit_eq
  intro i
  rw [testBit_digit, testBit_ofDigits hwidth hds]
  rcases Nat.lt_or_ge i width with hi | hi
  · rw [decide_eq_true hi, Bool.true_and, Nat.mul_comm, Nat.mul_add_div hwidth, Nat.div_eq_of_lt hi,
      Nat.add_zero, Nat.mul_add_mod, Nat.mod_eq_of_lt hi]
  · rw [decide_eq_false (by omega), Bool.false_and,
      Nat.testBit_lt_two_pow (Nat.lt_of_lt_of_le hlt (Nat.pow_le_pow_right (by decide) hi))]

theorem ofDigits_lt (hwidth : 0 < width) {ds : List Nat} (hds : ∀ d ∈ ds, d < 2 ^ width) :
    ofDigits (2 ^ width) ds < 2 ^ (ds.length * width) := by
  apply Nat.lt_pow_two_of_testBit
  intro i hi
  have hend : ds.length ≤ i / width := (Nat.le_div_iff_mul_le hwidth).mpr hi
  rw [testBit_ofDigits hwidth hds, List.getElem?_eq_none (by simpa using hend), Option.getD_none,
    Nat.zero_testBit]

end

/-! ## §2 Deltas -/

namespace DeltaFormat

variable {f : DeltaFormat} {deltas : Nat → Int} {place : Nat}

/-- The number of bits that a delta takes. -/
def bits : DeltaFormat → Nat
  | .bits2 => 2
  | .bits4 => 4
  | .bits8 => 8

/-- A delta is less than this number, and not less than minus this number: half of its values are
    negative. -/
def limit : DeltaFormat → Int
  | .bits2 => 2
  | .bits4 => 8
  | .bits8 => 128

theorem bits_pos (f : DeltaFormat) : 0 < f.bits := by cases f <;> decide

theorem base_eq (f : DeltaFormat) : f.base = 2 ^ f.bits := by cases f <;> rfl

theorem perWord_mul_bits (f : DeltaFormat) : f.perWord * f.bits = 16 := by cases f <;> rfl

theorem ofCode?_eq_some {n : UInt16} : ofCode? n = some f ↔ n = f.code := by
  constructor
  · intro h
    unfold ofCode? at h
    repeat' split at h
    all_goals cases h
    all_goals assumption
  · rintro rfl
    cases f <;> rfl

theorem contains_iff {delta : Int} :
    f.contains delta = true ↔ -f.limit ≤ delta ∧ delta < f.limit := by
  rw [contains, Bool.and_eq_true, decide_eq_true_iff, decide_eq_true_iff]
  cases f <;> simp only [base, limit] <;> omega

theorem contains_zero (f : DeltaFormat) : f.contains 0 = true := by cases f <;> decide

/-- The digit that stands for a delta. -/
def field (f : DeltaFormat) (delta : Int) : Nat := (delta % f.base).toNat

theorem field_lt (delta : Int) : f.field delta < 2 ^ f.bits := by
  rw [← base_eq]
  have := Int.emod_nonneg delta (show (f.base : Int) ≠ 0 by cases f <;> decide)
  have := Int.emod_lt_of_pos delta (show (0 : Int) < f.base by cases f <;> decide)
  rw [field]
  omega

/-- The digits of a word are taken for deltas of the format. -/
theorem contains_unpack (word : UInt16) (place : Nat) :
    f.contains (f.unpack word place) = true := by
  have hlt : digit f.base word.toNat (f.perWord - 1 - place) < f.base :=
    digit_lt (by cases f <;> decide) _ _
  rw [contains_iff, unpack]
  generalize digit f.base word.toNat (f.perWord - 1 - place) = field at hlt
  split <;> cases f <;> simp only [base, limit] at * <;> omega

/-- What a delta has been taken for, stands for it. -/
theorem field_unpack (word : UInt16) (place : Nat) :
    f.field (f.unpack word place) = digit f.base word.toNat (f.perWord - 1 - place) := by
  have hlt : digit f.base word.toNat (f.perWord - 1 - place) < f.base :=
    digit_lt (by cases f <;> decide) _ _
  rw [field, unpack]
  generalize digit f.base word.toNat (f.perWord - 1 - place) = field at hlt
  split <;> cases f <;> simp only [base] at * <;> omega

/-! ## §3 Words of deltas -/

theorem fields_lt (deltas : Nat → Int) :
    ∀ d ∈ (List.range f.perWord).map fun place => f.field (deltas place), d < 2 ^ f.bits := by
  intro d hd
  obtain ⟨place, -, rfl⟩ := List.mem_map.mp hd
  exact field_lt _

theorem toNat_pack (deltas : Nat → Int) :
    (f.pack deltas).toNat =
    ofDigits (2 ^ f.bits) ((List.range f.perWord).map fun place => f.field (deltas place)) := by
  have hlt := ofDigits_lt f.bits_pos (f.fields_lt deltas)
  rw [List.length_map, List.length_range, perWord_mul_bits] at hlt
  rw [← base_eq] at hlt ⊢
  exact Nat.mod_eq_of_lt hlt

/-- The digits of a word of deltas, the last one first. -/
theorem getElem?_reverse_fields (deltas : Nat → Int) (hplace : place < f.perWord) :
    ((List.range f.perWord).map fun place => f.field (deltas place)).reverse[
        f.perWord - 1 - place]? =
      some (f.field (deltas place)) := by
  rw [List.getElem?_reverse (by simp; omega), List.length_map, List.length_range,
    show f.perWord - 1 - (f.perWord - 1 - place) = place by omega, List.getElem?_map,
    List.getElem?_range hplace, Option.map_some]

/-- A delta that fits the format is unpacked from where it has been packed. -/
theorem unpack_pack (hplace : place < f.perWord) (hfits : f.contains (deltas place) = true) :
    f.unpack (f.pack deltas) place = deltas place := by
  have hfield : digit f.base (f.pack deltas).toNat (f.perWord - 1 - place) =
      f.field (deltas place) := by
    rw [toNat_pack, base_eq, digit_ofDigits f.bits_pos (f.fields_lt deltas),
      getElem?_reverse_fields deltas hplace, Option.getD_some]
  rw [contains_iff] at hfits
  rw [unpack, hfield, field]
  generalize deltas place = delta at hfits
  split <;> cases f <;> simp only [base, limit] at * <;> omega

/-- A bit of a word of deltas is a bit of the delta in whose place it is. -/
theorem testBit_pack (deltas : Nat → Int) {i : Nat} (hi : i < 16) :
    (f.pack deltas).toNat.testBit (15 - i) =
      (f.field (deltas (i / f.bits))).testBit (f.bits - 1 - i % f.bits) := by
  have hplace : i / f.bits < f.perWord := by cases f <;> simp only [bits, perWord] <;> omega
  have hdiv : (15 - i) / f.bits = f.perWord - 1 - i / f.bits := by
    cases f <;> simp only [bits, perWord] <;> omega
  have hmod : (15 - i) % f.bits = f.bits - 1 - i % f.bits := by
    cases f <;> simp only [bits] <;> omega
  rw [toNat_pack, testBit_ofDigits f.bits_pos (f.fields_lt deltas), hdiv, hmod,
    getElem?_reverse_fields deltas hplace, Option.getD_some]

/-- Where a delta comes from a word, its bits are those of that word. -/
theorem testBit_field_unpack (word : UInt16) {i : Nat} (hi : i < 16) :
    (f.field (f.unpack word (i / f.bits))).testBit (f.bits - 1 - i % f.bits) =
      word.toNat.testBit (15 - i) := by
  have hlt : f.bits - 1 - i % f.bits < f.bits := by have := f.bits_pos; omega
  have hplace : (f.perWord - 1 - i / f.bits) * f.bits + (f.bits - 1 - i % f.bits) = 15 - i := by
    cases f <;> simp only [bits, perWord] <;> omega
  rw [field_unpack, base_eq, testBit_digit, decide_eq_true hlt, Bool.true_and, hplace]

/-! ## §4 How many words -/

/-- There is a word for every delta. -/
theorem div_lt_wordCount {n : Nat} (h : place < n) : place / f.perWord < f.wordCount n := by
  cases f <;> simp only [perWord, wordCount] <;> omega

theorem wordCount_pos {n : Nat} (h : 0 < n) : 0 < f.wordCount n :=
  Nat.lt_of_le_of_lt (Nat.zero_le _) (div_lt_wordCount h)

/-- Less than a word is left over. -/
theorem wordCount_bounds (f : DeltaFormat) (n : Nat) :
    f.bits * n ≤ 16 * f.wordCount n ∧ 16 * f.wordCount n < f.bits * n + 16 := by
  cases f <;> simp only [bits, perWord, wordCount] <;> omega

end DeltaFormat

end OpenTypeLayout
