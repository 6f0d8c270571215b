import Mathlib.Data.List.Induction
import Mathlib.Data.String.Basic
import OpenTypeLayout.Error
import OpenTypeLayout.Proofs.Packing

/-!
# Tags and their texts

A tag of printable characters is shown by its four characters, and reading them gives it back. Any
other tag is shown by its number, which is too long to be read as a tag. The length of a text is
limited in bytes and not in characters, and this makes no difference: characters of more than one
byte are refused anyway.

- `ofDigits_digits` and `digits_ofDigits`: bytes put together are taken apart again.
- `Tag.ofString_eq_ok` says which texts are read, and as what tags.
- `Tag.prints_and_parses` puts both directions together.
-/

namespace OpenTypeLayout

/-! ## §1 Digits taken apart and put together -/

theorem ofDigits_digits {base : Nat} (count : Nat) {n : Nat} (h : n < base ^ count) :
    ofDigits base (digits base count n) = n := by
  induction count generalizing n with
  | zero =>
    obtain rfl : n = 0 := Nat.lt_one_iff.mp h
    rfl
  | succ count ih =>
    have hquotient : n / base < base ^ count := Nat.div_lt_of_lt_mul (by rwa [Nat.pow_succ'] at h)
    rw [digits, ofDigits_append, ih hquotient, Nat.mul_comm, Nat.div_add_mod]

theorem digits_ofDigits {base : Nat} {ds : List Nat} (h : ∀ d ∈ ds, d < base) :
    digits base ds.length (ofDigits base ds) = ds := by
  -- digits are taken off at the end
  induction ds using List.reverseRecOn with
  | nil => rfl
  | append_singleton init d ih =>
    have hd : d < base := h d (by simp)
    have hinit := ih fun d' hd' => h d' (List.mem_append_left _ hd')
    have hquotient : (base * ofDigits base init + d) / base = ofDigits base init := by
      rw [Nat.mul_add_div (by omega), Nat.div_eq_of_lt hd, Nat.add_zero]
    rw [List.length_append, List.length_singleton, digits, ofDigits_append, Nat.mul_comm, hquotient,
      hinit, Nat.mul_add_mod, Nat.mod_eq_of_lt hd]

/-! ## §2 Bytes and texts -/

namespace Tag

/-- All four bytes are printable ASCII, from the space to the tilde. -/
def IsPrintable (t : Tag) : Prop := ∀ b ∈ t.bytes, 0x20 ≤ b ∧ b ≤ 0x7E

/-- A text of at most four characters, all of them printable ASCII. -/
structure IsTagText (s : String) : Prop where
  length_le : s.length ≤ 4
  printable : ∀ c ∈ s.toList, 0x20 ≤ c.toNat ∧ c.toNat ≤ 0x7E

/-- The text with spaces behind it, so that there are four characters. -/
def padded (s : String) : String := String.ofList (s.toList.rightpad 4 ' ')

theorem isPrintable_iff {n : Nat} : isPrintable n = true ↔ 0x20 ≤ n ∧ n ≤ 0x7E := by
  simp [isPrintable]

theorem all_bytes_iff {t : Tag} : t.bytes.all isPrintable = true ↔ t.IsPrintable := by
  simp only [List.all_eq_true, isPrintable_iff, IsPrintable]

instance (t : Tag) : Decidable t.IsPrintable := decidable_of_iff _ all_bytes_iff

theorem ofDigits_bytes (t : Tag) : ofDigits 256 t.bytes = t.code.toNat :=
  ofDigits_digits 4 t.code.toNat_lt

/-- A tag is known from its bytes. -/
theorem eq_of_bytes {t u : Tag} (h : t.bytes = u.bytes) : t = u := by
  have hcode := congrArg (ofDigits 256) h
  rw [ofDigits_bytes, ofDigits_bytes] at hcode
  exact congrArg mk (UInt32.toNat_inj.mp hcode)

/-- The tag with given bytes has these bytes. -/
theorem bytes_ofDigits {ds : List Nat} (hlength : ds.length = 4) (h : ∀ d ∈ ds, d < 256) :
    (mk (UInt32.ofNat (ofDigits 256 ds))).bytes = ds := by
  have hbits : ofDigits (2 ^ 8) ds < 2 ^ (ds.length * 8) := ofDigits_lt (by decide) h
  have hlt : ofDigits 256 ds < 2 ^ 32 := by
    rw [hlength] at hbits
    exact hbits
  rw [bytes, UInt32.toNat_ofNat', Nat.mod_eq_of_lt hlt, ← hlength, digits_ofDigits h]

/-- A printable character takes one byte. -/
theorem utf8Len_of_printable {cs : List Char} (h : ∀ c ∈ cs, 0x20 ≤ c.toNat ∧ c.toNat ≤ 0x7E) :
    String.utf8Len cs = cs.length := by
  induction cs with
  | nil => rfl
  | cons c cs ih =>
    have hc : c.utf8Size = 1 := Char.utf8Size_eq_one_iff.mpr
      (UInt32.le_iff_toNat_le.mpr (Nat.le_trans (h c List.mem_cons_self).2 (by decide)))
    rw [String.utf8Len, ih fun c' hc' => h c' (List.mem_cons_of_mem _ hc'), hc, List.length_cons]

theorem isTagText_iff {s : String} :
    IsTagText s ↔ s.utf8ByteSize ≤ 4 ∧ (s.toList.map Char.toNat).all isPrintable = true := by
  have hall : (s.toList.map Char.toNat).all isPrintable = true ↔
      ∀ c ∈ s.toList, 0x20 ≤ c.toNat ∧ c.toNat ≤ 0x7E := by
    simp only [List.all_eq_true, List.forall_mem_map, isPrintable_iff]
  have hsize : s.utf8ByteSize = String.utf8Len s.toList := by
    rw [← String.utf8ByteSize_ofList, String.ofList_toList]
  rw [hall, hsize]
  constructor
  · rintro ⟨hlength, hprintable⟩
    rw [utf8Len_of_printable hprintable]
    exact ⟨hlength, hprintable⟩
  · rintro ⟨hlength, hprintable⟩
    rw [utf8Len_of_printable hprintable] at hlength
    exact ⟨hlength, hprintable⟩

/-! ## §3 Reading a text -/

/-- The codes of the characters of the padded text. -/
def paddedCodes (s : String) : List Nat := (padded s).toList.map Char.toNat

theorem paddedCodes_eq (s : String) :
    paddedCodes s = s.toList.map Char.toNat ++
    List.replicate (4 - (s.toList.map Char.toNat).length) 0x20 := by
  simp [paddedCodes, padded, List.rightpad]

theorem ofString_of_tagText {s : String} (h : IsTagText s) :
    ofString s = .ok ⟨UInt32.ofNat (ofDigits 256 (paddedCodes s))⟩ := by
  obtain ⟨hsize, hprintable⟩ := isTagText_iff.mp h
  rw [ofString, ofString?, if_pos (by simp [hsize, hprintable]), paddedCodes_eq]

theorem ofString_of_not_tagText {s : String} (h : ¬ IsTagText s) :
    ofString s = .error .badValue := by
  rw [ofString, ofString?, if_neg]
  rwa [Bool.and_eq_true, decide_eq_true_eq, ← isTagText_iff]

section

variable {s : String} (h : IsTagText s)
include h

theorem length_paddedCodes : (paddedCodes s).length = 4 := by
  have hlength : s.toList.length ≤ 4 := String.length_toList ▸ h.length_le
  rw [paddedCodes_eq, List.length_append, List.length_replicate, List.length_map]
  omega

theorem paddedCodes_printable : ∀ n ∈ paddedCodes s, 0x20 ≤ n ∧ n ≤ 0x7E := by
  intro n hn
  rw [paddedCodes_eq, List.mem_append, List.mem_map] at hn
  rcases hn with ⟨c, hc, rfl⟩ | hspace
  · exact h.printable c hc
  · rw [(List.mem_replicate.mp hspace).2]
    decide

end

/-- A text is read if it has at most four characters, all of them printable ASCII, and then as the
    tag whose bytes are the padded text. -/
theorem ofString_eq_ok {s : String} {t : Tag} :
    ofString s = .ok t ↔ IsTagText s ∧ t.bytes = paddedCodes s := by
  by_cases h : IsTagText s
  · have hbytes := bytes_ofDigits (length_paddedCodes h) fun n hn =>
      Nat.lt_of_le_of_lt (paddedCodes_printable h n hn).2 (by decide)
    rw [ofString_of_tagText h]
    constructor
    · rintro ⟨⟩
      exact ⟨h, hbytes⟩
    · rintro ⟨-, hcodes⟩
      rw [eq_of_bytes (hcodes.trans hbytes.symm)]
  · rw [ofString_of_not_tagText h]
    exact iff_of_false (fun hok => nomatch hok) fun hok => h hok.1

/-! ## §4 Showing a tag -/

theorem text_of_isPrintable {t : Tag} (h : t.IsPrintable) :
    t.text = String.ofList (t.bytes.map Char.ofNat) := if_pos (all_bytes_iff.mpr h)

theorem length_bytes (t : Tag) : t.bytes.length = 4 := length_digits 256 4 t.code.toNat

/-- The characters that a tag is shown by have the bytes as their codes. -/
theorem codes_text {t : Tag} (h : t.IsPrintable) : t.text.toList.map Char.toNat = t.bytes := by
  rw [text_of_isPrintable h, String.toList_ofList, List.map_map]
  refine (List.map_congr_left fun b hb => ?_).trans (List.map_id _)
  have hvalid : b.isValidChar := .inl (Nat.lt_of_le_of_lt (h b hb).2 (by decide))
  show (Char.ofNat b).toNat = b
  rw [Char.ofNat, dif_pos hvalid]
  rfl

/-- A tag of printable characters is shown by a text that is read as this tag. -/
theorem ofString_text {t : Tag} (h : t.IsPrintable) : ofString t.text = .ok t := by
  have hlength : t.text.length = 4 := by
    rw [← String.length_toList, ← length_bytes t, ← codes_text h, List.length_map]
  refine ofString_eq_ok.mpr ⟨⟨Nat.le_of_eq hlength, fun c hc => h _ ?_⟩, ?_⟩
  · rw [← codes_text h]
    exact List.mem_map_of_mem hc
  · rw [paddedCodes_eq, codes_text h, length_bytes, Nat.sub_self, List.replicate_zero,
      List.append_nil]

/-- A number has ten characters, which are too many for a tag. -/
theorem ofString_text_of_not_printable {t : Tag} (h : ¬ t.IsPrintable) :
    ofString t.text = .error .badValue := by
  have htext : t.text = t.hexText := if_neg (mt all_bytes_iff.mp h)
  have hlength : t.hexText.length = 10 := by
    simp only [hexText, String.length_append, String.length_ofList, List.length_map, length_digits]
    rfl
  refine ofString_of_not_tagText fun htag => ?_
  have := htag.length_le
  rw [htext] at this
  omega

/-- What is read is shown as the text, with spaces behind it. -/
theorem text_of_ofString {s : String} {t : Tag} (h : ofString s = .ok t) : t.text = padded s := by
  obtain ⟨htag, hbytes⟩ := ofString_eq_ok.mp h
  have hprintable : t.IsPrintable := fun b hb => paddedCodes_printable htag b (hbytes ▸ hb)
  rw [text_of_isPrintable hprintable, hbytes, paddedCodes, List.map_map]
  have hback : Char.ofNat ∘ Char.toNat = id := funext Char.ofNat_toNat
  rw [hback, List.map_id, String.ofList_toList]

/-- **Tags are printed and parsed back.** A tag of four printable characters is read from the text
    that it is shown by, and the text of any other tag is a value that is not allowed. A text is
    read if it has at most four characters, all of them printable ASCII, and is not an allowed value
    otherwise. What has been read is shown as the text, with spaces behind it. So two texts that are
    read give the same tag if they are the same with these spaces. -/
theorem prints_and_parses (t : Tag) (s s' : String) :
    (t.IsPrintable → ofString t.text = .ok t) ∧
    (¬ t.IsPrintable → ofString t.text = .error .badValue) ∧
    ((∃ u, ofString s = .ok u) ↔ IsTagText s) ∧
    (¬ IsTagText s → ofString s = .error .badValue) ∧
    (∀ u, ofString s = .ok u → u.text = padded s) ∧
    (∀ u u', ofString s = .ok u → ofString s' = .ok u' → (u = u' ↔ padded s = padded s')) := by
  refine ⟨ofString_text, ofString_text_of_not_printable, ⟨?_, ?_⟩, ofString_of_not_tagText,
    fun _ => text_of_ofString, fun u u' hu hu' => ⟨?_, ?_⟩⟩
  · rintro ⟨u, hu⟩
    exact (ofString_eq_ok.mp hu).1
  · exact fun h => ⟨_, ofString_of_tagText h⟩
  · rintro rfl
    rw [← text_of_ofString hu, text_of_ofString hu']
  · intro hpadded
    refine eq_of_bytes ?_
    rw [(ofString_eq_ok.mp hu).2, (ofString_eq_ok.mp hu').2, paddedCodes, paddedCodes, hpadded]

/-- The language tag of Turkish is read with or without the space behind it. A tag that is not
    printable is shown by its number, which is not read. -/
theorem prints_and_parses_turkish :
    (mk 0x54524B20).IsPrintable ∧ ofString (mk 0x54524B20).text = .ok (mk 0x54524B20) ∧
    ofString "TRK" = .ok (mk 0x54524B20) ∧ ofString "TRK " = .ok (mk 0x54524B20) ∧
    padded "TRK" = padded "TRK " ∧
    ¬ (mk 0x12345678).IsPrintable ∧ (mk 0x12345678).text = "0x12345678" ∧
    ofString (mk 0x12345678).text = .error .badValue := by
  have hprintable : (mk 0x54524B20).IsPrintable := by decide
  have hnumber : ¬ (mk 0x12345678).IsPrintable := by decide
  have hshort : ofString "TRK" = .ok (mk 0x54524B20) := by decide
  have hlong : ofString "TRK " = .ok (mk 0x54524B20) := by decide
  have hall := prints_and_parses (mk 0x54524B20) "TRK" "TRK "
  exact ⟨hprintable, hall.1 hprintable, hshort, hlong, (hall.2.2.2.2.2 _ _ hshort hlong).mp rfl,
    hnumber, by decide, (prints_and_parses (mk 0x12345678) "" "").2.1 hnumber⟩

end Tag

end OpenTypeLayout
