import OpenTypeLayout.Proofs.Packing
import OpenTypeLayout.Proofs.StoredRecords

/-!
# Device tables there and back

A device table is made of deltas, written, read again and asked for deltas. This module shows that
these fit together, for all deltas and for all bytes.

- `Device.WellFormed` holds of tables that have a word for every size, no more and no less.
- `Device.ofWindow_eq_ok` says which table is read: the one whose bytes come first.
- `Device.ofDeltas_eq_ok` says which deltas are packed, and `Device.delta_of_packed` gives them
  back.
- `Device.round_trip` puts this together.
-/

namespace OpenTypeLayout

namespace Device

/-! ## §1 Writing and reading -/

/-- The sizes are in order, and there are as many words as they need. -/
structure WellFormed (d : Device) : Prop where
  ordered : d.startSize ≤ d.endSize
  words : d.words.size = d.format.wordCount (sizeCount d.startSize d.endSize)

/-- The words of a table in the order in which they are stored. -/
def storedWords (d : Device) : List UInt16 :=
  d.startSize :: d.endSize :: d.format.code :: d.words.toList

/-- The bytes of a table as they are stored. -/
def storedBytes (d : Device) : List UInt8 := wordsBytes d.storedWords

theorem toList_write (d : Device) (w : Writer) :
    (d.write w).bytes.data.toList = w.bytes.data.toList ++ d.storedBytes := by
  simp only [write, Writer.toList_putU16s, Writer.toList_putU16, storedBytes, storedWords,
    wordsBytes_cons, List.append_assoc]

theorem toList_toBytes (d : Device) : d.toBytes.data.toList = d.storedBytes := by
  rw [toBytes, toList_write]
  rfl

theorem length_storedBytes (d : Device) : d.storedBytes.length = 6 + 2 * d.words.size := by
  rw [storedBytes, length_wordsBytes]
  simp only [storedWords, List.length_cons, Array.length_toList]
  omega

/-- A table is read if its sizes are in order, it has as many words as it needs, and its bytes come
    next. -/
theorem reads_decoder {c : Cursor} {d : Device} :
    (∃ next, Decoder.Reads decoder c d next) ↔ d.WellFormed ∧ d.storedBytes <+: c.remaining := by
  simp only [decoder, Decoder.reads_u16_bind, Cursor.remaining_skip]
  -- what has been read in order is well formed, and such bytes are read in order
  constructor
  · rintro ⟨next, startSize, hstart, endSize, hend, code, hcode, hrest⟩
    -- the format has to be known before anything else can be read
    split at hrest
    case h_1 => exact absurd hrest Decoder.not_reads_throw
    case h_2 format hformat =>
      obtain ⟨hordered, hrest⟩ := Decoder.reads_demand_bind.mp hrest
      obtain ⟨words, _, hread, hrest⟩ := Decoder.reads_bind.mp hrest
      obtain ⟨hsize, hwords, rfl⟩ :=
        (Decoder.reads_u16s (DeltaFormat.wordCount_pos (Nat.succ_pos _))).mp hread
      obtain ⟨rfl, rfl⟩ := Decoder.reads_pure.mp hrest
      obtain rfl := DeltaFormat.ofCode?_eq_some.mp hformat
      simp only [Cursor.remaining_skip] at hwords
      refine ⟨⟨of_decide_eq_true hordered, hsize⟩, ?_⟩
      simp only [storedBytes, storedWords, wordsBytes_cons]
      exact prefix_append_iff.mpr ⟨hstart, prefix_append_iff.mpr ⟨hend,
        prefix_append_iff.mpr ⟨hcode, hwords⟩⟩⟩
  · rintro ⟨hformed, hbytes⟩
    -- the words come one after the other, and the last ones are the packed deltas
    simp only [storedBytes, storedWords, wordsBytes_cons, prefix_append_iff,
      length_wordBytes] at hbytes
    obtain ⟨hstart, hend, hcode, hwords⟩ := hbytes
    refine ⟨(((c.skip 2).skip 2).skip 2).skip
        (2 * d.format.wordCount (sizeCount d.startSize d.endSize)),
      d.startSize, hstart, d.endSize, hend, d.format.code, hcode, ?_⟩
    rw [DeltaFormat.ofCode?_eq_some.mpr rfl]
    dsimp only
    refine Decoder.reads_demand_bind.mpr ⟨decide_eq_true hformed.ordered, Decoder.reads_bind.mpr
      ⟨d.words, _, (Decoder.reads_u16s (DeltaFormat.wordCount_pos (Nat.succ_pos _))).mpr
        ⟨hformed.words, ?_, rfl⟩, Decoder.reads_pure.mpr ⟨rfl, rfl⟩⟩⟩
    simpa only [Cursor.remaining_skip] using hwords

/-- The table is read whose bytes come first. -/
theorem ofWindow_eq_ok {w : Window} {d : Device} :
    ofWindow w = .ok d ↔ d.WellFormed ∧ d.storedBytes <+: w.toList := by
  rw [ofWindow, Window.decode_eq_ok, reads_decoder, Cursor.remaining_ofWindow]

/-- What is written is read again, wherever it stands and whatever follows it. -/
theorem ofWindow_write {d : Device} (h : d.WellFormed) (before : Writer) (after : ByteArray) :
    ofWindow ((Window.ofBytes ((d.write before).putBytes after).bytes).offset before.written) =
      .ok d := by
  refine ofWindow_eq_ok.mpr ⟨h, ?_⟩
  have hwritten : before.bytes.data.toList.length = before.written := by simp [Writer.written]
  rw [Window.toList_offset, Window.toList_ofBytes, Writer.toList_putBytes, toList_write,
    List.append_assoc, ← hwritten, List.drop_left]
  exact List.prefix_append _ _

/-! ## §2 Packing deltas -/

/-- The table that holds deltas for consecutive sizes. -/
def packed (startSize : UInt16) (format : DeltaFormat) (deltas : Array Int) : Device where
  startSize
  endSize := UInt16.ofNat (startSize.toNat + (deltas.size - 1))
  format
  words := Array.ofFn fun i : Fin (format.wordCount deltas.size) =>
    format.pack fun place => deltas[i.val * format.perWord + place]?.getD 0

/-- Deltas can be packed in a format: all of them fit it, there is at least one, and the last size
    is a size. -/
structure Packable (startSize : UInt16) (format : DeltaFormat) (deltas : Array Int) : Prop where
  fits : ∀ delta ∈ deltas, -format.limit ≤ delta ∧ delta < format.limit
  nonempty : deltas ≠ #[]
  last : startSize.toNat + deltas.size - 1 ≤ 0xFFFF

section

variable {startSize : UInt16} {format : DeltaFormat} {deltas : Array Int}

theorem Packable.size_pos (h : Packable startSize format deltas) : 0 < deltas.size :=
  Array.size_pos_iff.mpr h.nonempty

theorem ofDeltas_eq_ok {formatCode : UInt16} {d : Device} :
    ofDeltas startSize formatCode deltas = .ok d ↔
      ∃ format : DeltaFormat, format.code = formatCode ∧ Packable startSize format deltas ∧
        d = packed startSize format deltas := by
  unfold ofDeltas
  -- each check that has been passed is one part of what can be packed
  constructor
  · intro h
    split at h
    case h_1 => cases h
    case h_2 format hformat =>
      split at h
      case isTrue => cases h
      case isFalse hchecks =>
        cases h
        simp only [Bool.or_eq_true, decide_eq_true_eq, Bool.not_eq_true', not_or, Bool.not_eq_false,
          Array.isEmpty_iff, Array.all_eq_true_iff_forall_mem] at hchecks
        obtain ⟨⟨hnonempty, hlast⟩, hfits⟩ := hchecks
        have hpos := Array.size_pos_iff.mpr hnonempty
        exact ⟨format, (DeltaFormat.ofCode?_eq_some.mp hformat).symm,
          ⟨fun delta hdelta => DeltaFormat.contains_iff.mp (hfits delta hdelta), hnonempty,
            by omega⟩, rfl⟩
  -- and what can be packed passes all checks
  · rintro ⟨format, rfl, h, rfl⟩
    have hpos := h.size_pos
    have hlast := h.last
    have hchecks : ¬ (deltas.isEmpty || startSize.toNat + (deltas.size - 1) > 0xFFFF ||
        !deltas.all format.contains) = true := by
      simp only [Bool.or_eq_true, decide_eq_true_eq, Bool.not_eq_true', not_or, Bool.not_eq_false,
        Array.isEmpty_iff, Array.all_eq_true_iff_forall_mem]
      exact ⟨⟨h.nonempty, by omega⟩,
        fun delta hdelta => DeltaFormat.contains_iff.mpr (h.fits delta hdelta)⟩
    rw [DeltaFormat.ofCode?_eq_some.mpr rfl]
    dsimp only
    rw [if_neg hchecks]
    rfl

namespace Packable

theorem toNat_endSize (h : Packable startSize format deltas) :
    (packed startSize format deltas).endSize.toNat = startSize.toNat + (deltas.size - 1) := by
  have := h.size_pos
  have := h.last
  exact Nat.mod_eq_of_lt (by omega)

theorem wellFormed (h : Packable startSize format deltas) :
    (packed startSize format deltas).WellFormed where
  ordered := by
    rw [UInt16.le_iff_toNat_le, h.toNat_endSize]
    exact Nat.le_add_right _ _
  words := by
    have hpos := h.size_pos
    have hcount : sizeCount startSize (packed startSize format deltas).endSize = deltas.size := by
      rw [sizeCount, h.toNat_endSize]
      omega
    show (Array.ofFn _).size = format.wordCount (sizeCount startSize _)
    rw [Array.size_ofFn, hcount]

theorem contains_getD (h : Packable startSize format deltas) (i : Nat) :
    format.contains (deltas[i]?.getD 0) = true := by
  cases hdelta : deltas[i]? with
  | none => exact format.contains_zero
  | some delta => exact DeltaFormat.contains_iff.mpr (h.fits delta (Array.mem_of_getElem? hdelta))

/-- The word in which a delta has been packed. -/
theorem getElem?_words {i : Nat} (hi : i < format.wordCount deltas.size) :
    (packed startSize format deltas).words[i]? =
      some (format.pack fun place => deltas[i * format.perWord + place]?.getD 0) := by
  simp only [packed, Array.getElem?_ofFn, hi, dif_pos]

/-- The deltas that have been packed are those of the table, and all others are zero. -/
theorem delta_eq (h : Packable startSize format deltas) (size : UInt16) :
    (packed startSize format deltas).delta size =
      if startSize ≤ size then deltas[size.toNat - startSize.toNat]?.getD 0 else 0 := by
  have hend := h.toNat_endSize
  have hpos := h.size_pos
  have hstart : (packed startSize format deltas).startSize = startSize := rfl
  have hformat : (packed startSize format deltas).format = format := rfl
  rw [delta, hstart, hformat]
  -- sizes before the first one have no delta
  by_cases hlow : startSize ≤ size
  · rw [if_pos hlow, decide_eq_true hlow, Bool.true_and]
    rw [UInt16.le_iff_toNat_le] at hlow
    -- between the first and the last size the delta is unpacked from its word
    by_cases hhigh : size ≤ (packed startSize format deltas).endSize
    · rw [decide_eq_true hhigh, if_pos rfl]
      rw [UInt16.le_iff_toNat_le, hend] at hhigh
      have hplace : size.toNat - startSize.toNat < deltas.size := by omega
      have hperWord : 0 < format.perWord := by cases format <;> decide
      dsimp only
      rw [getElem?_words (DeltaFormat.div_lt_wordCount hplace)]
      dsimp only
      rw [DeltaFormat.unpack_pack (Nat.mod_lt _ hperWord) (h.contains_getD _), Nat.div_add_mod']
    -- behind the last size there is neither a word nor a delta
    · rw [decide_eq_false hhigh, if_neg Bool.false_ne_true]
      rw [UInt16.le_iff_toNat_le, hend] at hhigh
      rw [Array.getElem?_eq_none (by omega), Option.getD_none]
  · rw [if_neg hlow, decide_eq_false hlow, Bool.false_and, if_neg Bool.false_ne_true]

end Packable

end

/-! ## §3 Tables from bytes -/

/-- The deltas of a table for the sizes of its range, in order. -/
def deltas (d : Device) : Array Int :=
  Array.ofFn fun i : Fin (sizeCount d.startSize d.endSize) =>
    d.delta (UInt16.ofNat (d.startSize.toNat + i))

@[simp] theorem size_deltas (d : Device) : d.deltas.size = sizeCount d.startSize d.endSize :=
  Array.size_ofFn

/-- The delta at a place of the words. -/
def deltaAt (d : Device) (place : Nat) : Int :=
  (d.words[place / d.format.perWord]?.map fun word =>
    d.format.unpack word (place % d.format.perWord)).getD 0

theorem delta_of_le {d : Device} {size : UInt16} (hlow : d.startSize ≤ size)
    (hhigh : size ≤ d.endSize) : d.delta size = d.deltaAt (size.toNat - d.startSize.toNat) := by
  rw [delta, decide_eq_true hlow, decide_eq_true hhigh, Bool.true_and, if_pos rfl, deltaAt]
  dsimp only
  cases d.words[(size.toNat - d.startSize.toNat) / d.format.perWord]? <;> rfl

theorem delta_of_lt {d : Device} {size : UInt16} (hlow : size < d.startSize) :
    d.delta size = 0 := by
  rw [delta, decide_eq_false (UInt16.not_le.mpr hlow), Bool.false_and, if_neg Bool.false_ne_true]

theorem delta_of_gt {d : Device} {size : UInt16} (hhigh : d.endSize < size) : d.delta size = 0 := by
  rw [delta, decide_eq_false (UInt16.not_le.mpr hhigh), Bool.and_false, if_neg Bool.false_ne_true]

/-- Whatever the words of a table are, its deltas fit the format. -/
theorem contains_delta (d : Device) (size : UInt16) : d.format.contains (d.delta size) = true := by
  rcases UInt16.lt_or_le size d.startSize with hlow | hlow
  · rw [delta_of_lt hlow, d.format.contains_zero]
  rcases UInt16.lt_or_le d.endSize size with hhigh | hhigh
  · rw [delta_of_gt hhigh, d.format.contains_zero]
  rw [delta_of_le hlow hhigh, deltaAt]
  cases d.words[(size.toNat - d.startSize.toNat) / d.format.perWord]? with
  | none => exact d.format.contains_zero
  | some word => exact DeltaFormat.contains_unpack word _

theorem sizeCount_pos (startSize endSize : UInt16) : 0 < sizeCount startSize endSize :=
  Nat.succ_pos _

namespace WellFormed

variable {d : Device}

/-- There is a word for every size of the range. -/
theorem word_lt (h : d.WellFormed)
    {size : UInt16} (hlow : d.startSize ≤ size) (hhigh : size ≤ d.endSize) :
    (size.toNat - d.startSize.toNat) / d.format.perWord < d.words.size := by
  rw [UInt16.le_iff_toNat_le] at hlow hhigh
  rw [h.words]
  refine DeltaFormat.div_lt_wordCount ?_
  rw [sizeCount]
  omega

theorem toNat_sizeAt (h : d.WellFormed) {i : Nat} (hi : i < sizeCount d.startSize d.endSize) :
    (UInt16.ofNat (d.startSize.toNat + i)).toNat = d.startSize.toNat + i := by
  have hordered := UInt16.le_iff_toNat_le.mp h.ordered
  have := d.endSize.toNat_lt
  rw [sizeCount] at hi
  exact Nat.mod_eq_of_lt (by omega)

theorem packable (h : d.WellFormed) : Packable d.startSize d.format d.deltas where
  fits delta hdelta := by
    obtain ⟨i, hi, rfl⟩ := Array.mem_iff_getElem.mp hdelta
    simp only [Device.deltas, Array.getElem_ofFn]
    exact DeltaFormat.contains_iff.mp (d.contains_delta _)
  nonempty := Array.size_pos_iff.mp (by simpa [Device.deltas] using sizeCount_pos _ _)
  last := by
    have hordered := UInt16.le_iff_toNat_le.mp h.ordered
    have := d.endSize.toNat_lt
    rw [size_deltas, sizeCount]
    omega

/-- The delta at a place of the range is the one in the same place of the words. -/
theorem getD_deltas (h : d.WellFormed) (i : Nat) :
    d.deltas[i]?.getD 0 = if i < sizeCount d.startSize d.endSize then d.deltaAt i else 0 := by
  split
  case isTrue hi =>
    have hsize := h.toNat_sizeAt hi
    have hordered := UInt16.le_iff_toNat_le.mp h.ordered
    have hlow : d.startSize ≤ UInt16.ofNat (d.startSize.toNat + i) := by
      rw [UInt16.le_iff_toNat_le, hsize]
      exact Nat.le_add_right _ _
    have hhigh : UInt16.ofNat (d.startSize.toNat + i) ≤ d.endSize := by
      rw [UInt16.le_iff_toNat_le, hsize]
      rw [sizeCount] at hi
      omega
    have hdelta : d.deltas[i]? = some (d.delta (UInt16.ofNat (d.startSize.toNat + i))) := by
      simp only [Device.deltas, Array.getElem?_ofFn, hi, dif_pos]
    rw [hdelta, Option.getD_some, delta_of_le hlow hhigh, hsize, Nat.add_sub_cancel_left]
  case isFalse hi =>
    rw [Array.getElem?_eq_none (by simpa [Device.deltas] using hi), Option.getD_none]

/-- Packing the deltas of a table again leaves its deltas as they are. -/
theorem delta_packed (h : d.WellFormed) (size : UInt16) :
    (packed d.startSize d.format d.deltas).delta size = d.delta size := by
  have hordered := UInt16.le_iff_toNat_le.mp h.ordered
  rw [h.packable.delta_eq, h.getD_deltas]
  rcases UInt16.lt_or_le size d.startSize with hlow | hlow
  · rw [if_neg (UInt16.not_le.mpr hlow), delta_of_lt hlow]
  rw [if_pos hlow]
  rw [UInt16.le_iff_toNat_le] at hlow
  rcases UInt16.lt_or_le d.endSize size with hhigh | hhigh
  · rw [delta_of_gt hhigh]
    rw [UInt16.lt_iff_toNat_lt] at hhigh
    rw [if_neg (by rw [sizeCount]; omega)]
  · rw [delta_of_le (UInt16.le_iff_toNat_le.mpr hlow) hhigh]
    rw [UInt16.le_iff_toNat_le] at hhigh
    rw [if_pos (by rw [sizeCount]; omega)]

theorem endSize_packed (h : d.WellFormed) :
    (packed d.startSize d.format d.deltas).endSize = d.endSize := by
  have hordered := UInt16.le_iff_toNat_le.mp h.ordered
  apply UInt16.toNat_inj.mp
  rw [h.packable.toNat_endSize, size_deltas, sizeCount]
  omega

theorem size_words_packed (h : d.WellFormed) :
    (packed d.startSize d.format d.deltas).words.size = d.words.size := by
  rw [packed, Array.size_ofFn, size_deltas, h.words]

/-- The bits of the words that belong to deltas stay the same. -/
theorem testBit_words_packed (h : d.WellFormed) {i place : Nat} (hplace : place < 16)
    (hused : 16 * i + place < d.format.bits * sizeCount d.startSize d.endSize) :
    ((packed d.startSize d.format d.deltas).words[i]?.map fun n => n.toNat.testBit (15 - place)) =
      d.words[i]?.map fun n => n.toNat.testBit (15 - place) := by
  have hperWord : d.format.perWord * d.format.bits = 16 := d.format.perWord_mul_bits
  have hlane : place / d.format.bits < d.format.perWord :=
    (Nat.div_lt_iff_lt_mul d.format.bits_pos).mpr (by rw [hperWord]; exact hplace)
  -- the delta that the bit belongs to
  have hcount : i * d.format.perWord + place / d.format.bits < sizeCount d.startSize d.endSize := by
    have hindex : (16 * i + place) / d.format.bits =
        i * d.format.perWord + place / d.format.bits := by
      rw [← hperWord, Nat.mul_right_comm, Nat.mul_comm _ d.format.bits,
        Nat.mul_add_div d.format.bits_pos, Nat.mul_comm i]
    rw [← hindex]
    rw [Nat.mul_comm d.format.bits] at hused
    exact (Nat.div_lt_iff_lt_mul d.format.bits_pos).mpr hused
  have hword : (i * d.format.perWord + place / d.format.bits) / d.format.perWord = i := by
    rw [Nat.mul_comm, Nat.mul_add_div (Nat.zero_lt_of_lt hlane),
      Nat.div_eq_of_lt hlane, Nat.add_zero]
  have hmod : (i * d.format.perWord + place / d.format.bits) % d.format.perWord =
      place / d.format.bits := by
    rw [Nat.mul_comm, Nat.mul_add_mod, Nat.mod_eq_of_lt hlane]
  have hi : i < d.format.wordCount (sizeCount d.startSize d.endSize) := by
    have := DeltaFormat.div_lt_wordCount (f := d.format) hcount
    rwa [hword] at this
  obtain ⟨word, hget⟩ : ∃ word, d.words[i]? = some word :=
    ⟨_, Array.getElem?_eq_getElem (h.words ▸ hi)⟩
  have hpacked : i < d.format.wordCount d.deltas.size := by rwa [size_deltas]
  rw [Packable.getElem?_words hpacked, hget, Option.map_some, Option.map_some,
    DeltaFormat.testBit_pack _ hplace, h.getD_deltas, if_pos hcount, deltaAt, hword, hmod, hget,
    Option.map_some, Option.getD_some, DeltaFormat.testBit_field_unpack word hplace]

/-- Packing the deltas of a table again leaves all bits of its bytes as they are, up to the last one
    that belongs to a delta. -/
theorem bitAt_packed (h : d.WellFormed) {place : Nat}
    (hused : place < 48 + d.format.bits * sizeCount d.startSize d.endSize) :
    bitAt (packed d.startSize d.format d.deltas).storedBytes place = bitAt d.storedBytes place := by
  rw [storedBytes, storedBytes, bitAt_wordsBytes, bitAt_wordsBytes]
  congr 1
  unfold storedWords
  rw [h.endSize_packed]
  rcases Nat.lt_or_ge (place / 16) 3 with hhead | hwords
  · -- the sizes and the format come first
    obtain hzero | hone | htwo : place / 16 = 0 ∨ place / 16 = 1 ∨ place / 16 = 2 := by omega
    · rw [hzero]; rfl
    · rw [hone]; rfl
    · rw [htwo]; rfl
  · obtain ⟨i, hi⟩ := Nat.exists_eq_add_of_le' hwords
    rw [hi]
    simp only [List.getElem?_cons_succ, Array.getElem?_toList]
    exact h.testBit_words_packed (Nat.mod_lt _ (by decide)) (by omega)

end WellFormed

/-! ## §4 There and back -/

/-- **Device tables there and back.** Deltas are packed if and only if the format exists, every
    delta fits it, there is at least one, and the last size is a size. The table is read again as
    it was written, wherever it stands and whatever follows it. Its deltas are those that were
    packed, and zero for all other sizes.

    The other way round, let a table be read from some bytes. All its deltas fit the format, and
    there is a word for every size of its range. Its deltas can be packed again, into a table with
    the same deltas. The bytes of that table are as many as those that were read, and each of
    their bits is the same, up to the last one that belongs to a delta; what is left over is less
    than a word. -/
theorem round_trip :
    (∀ (startSize formatCode : UInt16) (deltas : Array Int),
      ((∃ d, ofDeltas startSize formatCode deltas = .ok d) ↔
        ∃ format : DeltaFormat, format.code = formatCode ∧ deltas ≠ #[] ∧
          (∀ delta ∈ deltas, -format.limit ≤ delta ∧ delta < format.limit) ∧
          startSize.toNat + deltas.size - 1 ≤ 0xFFFF) ∧
      ∀ d, ofDeltas startSize formatCode deltas = .ok d →
        (∀ (before : Writer) (after : ByteArray),
          ofWindow
              ((Window.ofBytes ((d.write before).putBytes after).bytes).offset before.written) =
            .ok d) ∧
        ∀ size, d.delta size =
          if startSize ≤ size then deltas[size.toNat - startSize.toNat]?.getD 0 else 0) ∧
    ∀ (w : Window) (d : Device), ofWindow w = .ok d →
      (∀ size, -d.format.limit ≤ d.delta size ∧ d.delta size < d.format.limit) ∧
      (∀ size, d.startSize ≤ size → size ≤ d.endSize →
        (size.toNat - d.startSize.toNat) / d.format.perWord < d.words.size) ∧
      ∃ d', ofDeltas d.startSize d.format.code d.deltas = .ok d' ∧
        (∀ size, d'.delta size = d.delta size) ∧
        let read := d.toBytes.data.toList
        let written := d'.toBytes.data.toList
        let used := 48 + d.format.bits * sizeCount d.startSize d.endSize
        read <+: w.toList ∧ written.length = read.length ∧
          used ≤ 8 * written.length ∧ 8 * written.length < used + 16 ∧
          ∀ place < used, bitAt written place = bitAt w.toList place := by
  constructor
  · intro startSize formatCode deltas
    -- deltas can be packed exactly if the checks are passed
    refine ⟨⟨?_, ?_⟩, ?_⟩
    · rintro ⟨d, hd⟩
      obtain ⟨format, hformat, h, -⟩ := ofDeltas_eq_ok.mp hd
      exact ⟨format, hformat, h.nonempty, h.fits, h.last⟩
    · rintro ⟨format, hformat, hnonempty, hfits, hlast⟩
      exact ⟨_, ofDeltas_eq_ok.mpr ⟨format, hformat, ⟨hfits, hnonempty, hlast⟩, rfl⟩⟩
    -- what has been packed is read back, with the same deltas
    · intro d hd
      obtain ⟨format, -, h, rfl⟩ := ofDeltas_eq_ok.mp hd
      exact ⟨ofWindow_write h.wellFormed, h.delta_eq⟩
  -- a table that has been read can be packed again from its deltas
  · intro w d hd
    obtain ⟨h, hread⟩ := ofWindow_eq_ok.mp hd
    refine ⟨fun size => DeltaFormat.contains_iff.mp (d.contains_delta size), fun size => h.word_lt,
      packed d.startSize d.format d.deltas, ofDeltas_eq_ok.mpr ⟨d.format, rfl, h.packable, rfl⟩,
      h.delta_packed, ?_⟩
    -- the words that are needed take up less than one word more than the deltas themselves
    have hbounds := d.format.wordCount_bounds (sizeCount d.startSize d.endSize)
    have hlength : (packed d.startSize d.format d.deltas).storedBytes.length =
        d.storedBytes.length := by
      rw [length_storedBytes, length_storedBytes, h.size_words_packed]
    simp only [toList_toBytes]
    rw [hlength, length_storedBytes, h.words]
    -- the bits are the same as long as they belong to a delta, and the rest of a word is padding
    refine ⟨hread, rfl, by omega, by omega, fun place hplace => ?_⟩
    have hinside : place < 8 * d.storedBytes.length := by
      rw [length_storedBytes, h.words]
      omega
    rw [bitAt_of_first hread hinside, h.bitAt_packed hplace]

namespace ThreeDeltas

/-- Three deltas of two bits. -/
def device : Device := ⟨11, 13, .bits2, #[0x6C00]⟩

/-- The same deltas, with something in the bits that are left over. -/
def padded : Device := ⟨11, 13, .bits2, #[0x6C05]⟩

def data : ByteArray := ⟨#[0x00, 0x0B, 0x00, 0x0D, 0x00, 0x01, 0x6C, 0x05]⟩

/-- Three deltas are packed and read again between other bytes, and the same deltas are packed again
    from bytes in which more than they is set. -/
theorem round_trip_threeDeltas :
    ofDeltas 11 1 #[1, -2, -1] = .ok device ∧
    ofWindow ((Window.ofBytes ((device.write ⟨⟨#[9]⟩⟩).putBytes data).bytes).offset 1) =
      .ok device ∧ device.delta 12 = -2 ∧ ofWindow (Window.ofBytes data) = .ok padded ∧
    ∃ d', ofDeltas 11 1 padded.deltas = .ok d' ∧ ∀ size, d'.delta size = padded.delta size := by
  have hpacked : ofDeltas 11 1 #[1, -2, -1] = .ok device :=
    ofDeltas_eq_ok.mpr ⟨.bits2, rfl, ⟨by decide, by decide, by decide⟩, rfl⟩
  have hread : ofWindow (Window.ofBytes data) = .ok padded :=
    ofWindow_eq_ok.mpr ⟨⟨by decide, rfl⟩, by decide⟩
  obtain ⟨hthere, hback⟩ := round_trip
  obtain ⟨hwritten, hdelta⟩ := (hthere 11 1 #[1, -2, -1]).2 device hpacked
  obtain ⟨-, -, d', hagain, hsame, -⟩ := hback _ padded hread
  exact ⟨hpacked, hwritten ⟨⟨#[9]⟩⟩ data, hdelta 12, hread, d', hagain, hsame⟩

end ThreeDeltas

end Device

end OpenTypeLayout
