import OpenTypeLayout.Positioning.Subtable
import OpenTypeLayout.Proofs.LoadedBytes
import OpenTypeLayout.Proofs.PlainAnswers

/-!
# Sizes of value records

The format of a value record says which of twelve words are stored. The words are read one by one,
but the places of records in an array come from the number of bits. A word that is missed would move
all that comes behind it, and no error would tell.

- `ValueFormat.rank` is the number of words in front of one, and so its place among those that are
  stored.
- `Decoder.Takes` says how many bytes a decoder takes and what it makes of them. There is one lemma
  for each way in which decoders are put together.
- `ValueRecord.ofBytes` is the record that is stored as some bytes. Each field is that of its own
  word.
- `PosRecord` is any kind of record with value records in it, up to rows of pairs.
  `readPairSet_of_le` says what the pairs with one first glyph are decoded from.
- `FailsByDevice` says that nothing but a device table can be at fault.
- `PosRecord.exact_of_formats` is the main result: sizes, items and arrays are as the formats say.
-/

namespace OpenTypeLayout

/-! ## §1 Words in bytes -/

/-- The word with a number in some bytes. What is past the end counts as zero. -/
def wordIn (bytes : List UInt8) (number : Nat) : UInt16 :=
  wordOf (bytes.getD (2 * number) 0) (bytes.getD (2 * number + 1) 0)

theorem wordIn_take {bytes : List UInt8} {number n : Nat} (h : 2 * number + 1 < n) :
    wordIn (bytes.take n) number = wordIn bytes number := by
  simp only [wordIn, List.getD_eq_getElem?_getD, List.getElem?_take_of_lt h,
    List.getElem?_take_of_lt (Nat.lt_of_succ_lt h)]

theorem wordIn_drop (bytes : List UInt8) (before number : Nat) :
    wordIn (bytes.drop (2 * before)) number = wordIn bytes (before + number) := by
  simp only [wordIn, List.getD_eq_getElem?_getD, List.getElem?_drop, Nat.mul_add, Nat.add_assoc]

/-! ## §2 Formats -/

namespace ValueFormat

variable {f : ValueFormat} {number : Nat}

/-- How many words are stored in front of the one with a number. -/
def rank (f : ValueFormat) (number : Nat) : Nat := (List.range number).countP f.has

/-- The number of bits that are set. -/
def ones (f : ValueFormat) : Nat := (List.range 16).countP f.bits.toNat.testBit

/-- The word with a number, if it is stored. -/
def wordFrom? (f : ValueFormat) (bytes : List UInt8) (number : Nat) : Option UInt16 :=
  if f.has number then some (wordIn bytes (f.rank number)) else none

theorem rank_succ_of_has (h : f.has number = true) : f.rank (number + 1) = f.rank number + 1 := by
  simp [rank, List.range_succ, h]

theorem rank_succ_of_not_has (h : f.has number = false) : f.rank (number + 1) = f.rank number := by
  simp [rank, List.range_succ, h]

theorem rank_mono {later : Nat} (h : number ≤ later) : f.rank number ≤ f.rank later := by
  induction h with
  | refl => exact Nat.le_refl _
  | step _ ih => exact Nat.le_trans ih (by simp [rank, List.range_succ])

theorem size_eq_rank (f : ValueFormat) : f.size = 2 * f.rank 12 := rfl

/-- No bit of the mask is set if no bit is from the twelfth on. -/
theorem and_high_eq_zero_iff {bits : UInt16} : bits &&& 0xF000 = 0 ↔ bits.toNat < 0x1000 := by
  have hmask (i : Nat) : (bits &&& 0xF000).toNat.testBit i =
      (bits.toNat.testBit i && (decide (12 ≤ i) && decide (i - 12 < 4))) := by
    rw [UInt16.toNat_and, Nat.testBit_and,
      show (0xF000 : UInt16).toNat = (2 ^ 4 - 1) <<< 12 from rfl, Nat.testBit_shiftLeft,
      Nat.testBit_two_pow_sub_one]
  rw [← UInt16.toNat_inj]
  constructor
  · intro h
    refine Nat.lt_pow_two_of_testBit (n := 12) bits.toNat fun i hi => ?_
    -- the mask has the bits up to the fifteenth, and a word has no others
    rcases Nat.lt_or_ge i 16 with hlt | hge
    · have hbit := hmask i
      rw [h, decide_eq_true hi, decide_eq_true (show i - 12 < 4 by omega)] at hbit
      simpa using hbit.symm
    · exact Nat.testBit_lt_two_pow
        (Nat.lt_of_lt_of_le bits.toNat_lt (Nat.pow_le_pow_right Nat.two_pos hge))
  · intro h
    apply Nat.eq_of_testBit_eq
    intro i
    rw [hmask]
    rcases Nat.lt_or_ge i 12 with hlt | hge
    · simp [Nat.not_le.mpr hlt]
    · have hbit : bits.toNat.testBit i = false :=
        Nat.testBit_lt_two_pow (Nat.lt_of_lt_of_le h (Nat.pow_le_pow_right Nat.two_pos hge))
      simp [hbit]

/-- A format can be read if it has no bits but those of the twelve words. -/
theorem ofBits_eq_ok {bits : UInt16} : ofBits bits = .ok f ↔ bits.toNat < 0x1000 ∧ f = ⟨bits⟩ := by
  unfold ofBits
  split
  case isTrue h =>
    constructor
    · rintro ⟨⟩
      exact ⟨and_high_eq_zero_iff.mp h, rfl⟩
    · rintro ⟨-, rfl⟩
      rfl
  case isFalse h =>
    exact iff_of_false (fun hok => nomatch hok) fun hok => h (and_high_eq_zero_iff.mpr hok.1)

/-- A format that can be read has no other bits than those of its words. -/
theorem size_eq_ones (h : f.bits.toNat < 0x1000) : f.size = 2 * f.ones := by
  have hhigh : ∀ i, 12 ≤ i → f.bits.toNat.testBit i = false := fun i hi =>
    Nat.testBit_lt_two_pow (Nat.lt_of_lt_of_le h (Nat.pow_le_pow_right Nat.two_pos hi))
  -- the last four of the sixteen bits count for nothing
  have hones : f.ones = f.rank 12 := by
    rw [ones, show List.range 16 = List.range 12 ++ [12, 13, 14, 15] from rfl, List.countP_append]
    simp [hhigh, rank]
    rfl
  rw [size_eq_rank, hones]

end ValueFormat

/-! ## §3 Decoders that take what is stated -/

/-- A decoder takes the next `n` bytes. If they are there, it answers or fails as is stated. In any
    case it answers nothing else, goes on nowhere else, and takes no bytes that are not there. -/
structure Decoder.Takes {α : Type} (x : Decoder (Except ParseError) α) (c : Cursor) (n : Nat)
    (stated : Except ParseError α) : Prop where
  inside : c.position + n ≤ c.window.size → x.run c = stated.map fun a => (a, c.skip n)
  answers : ∀ {a : α} {next : Cursor}, Reads x c a next → stated = .ok a ∧ next = c.skip n
  fits : ∀ {a : α} {next : Cursor}, Reads x c a next → 0 < n → c.position + n ≤ c.window.size

namespace Decoder

variable {α β : Type} {x : Decoder (Except ParseError) α} {c : Cursor} {n m : Nat}
  {stated : Except ParseError α}

theorem Takes.congr {other : Except ParseError α} (h : Takes x c n stated) (heq : stated = other) :
    Takes x c n other := heq ▸ h

theorem takes_pure (a : α) : Takes (pure a) c 0 (.ok a) where
  inside _ := rfl
  answers h := by
    obtain ⟨rfl, rfl⟩ := reads_pure.mp h
    exact ⟨rfl, rfl⟩
  fits _ h := absurd h (Nat.lt_irrefl 0)

/-- What is done without the cursor takes nothing. -/
theorem takes_of_eq_lift (hx : x = liftM stated) : Takes x c 0 stated where
  inside _ := by cases stated <;> exact hx ▸ rfl
  answers h := by
    rw [hx] at h
    cases stated with
    | error => cases h
    | ok =>
      cases h
      exact ⟨rfl, rfl⟩
  fits _ h := absurd h (Nat.lt_irrefl 0)

/-- If two decoders have an answer one after the other, the bytes of both are there. -/
theorem add_le_of_fits {w : Window} (hfirst : 0 < n → c.position + n ≤ w.size)
    (hsecond : 0 < m → c.position + n + m ≤ w.size) (h : 0 < n + m) :
    c.position + (n + m) ≤ w.size := by
  rcases Nat.eq_zero_or_pos m with rfl | hm
  · exact hfirst h
  · exact Nat.add_assoc _ _ _ ▸ hsecond hm

theorem Takes.bind {f : α → Decoder (Except ParseError) β} {following : α → Except ParseError β}
    (hx : Takes x c n stated) (hf : ∀ a, Takes (f a) (c.skip n) m (following a)) :
    Takes (x >>= f) c (n + m) (stated >>= following) where
  inside h := by
    rw [StateT.run_bind, hx.inside (by omega)]
    cases stated with
    | error => rfl
    | ok a =>
      -- the second part stands behind the first, so the bytes asked for are those of both
      have hrest := (hf a).inside (show c.position + n + m ≤ c.window.size by omega)
      rw [Cursor.skip_skip] at hrest
      exact hrest
  answers h := by
    obtain ⟨a, mid, ha, hrest⟩ := reads_bind.mp h
    obtain ⟨rfl, rfl⟩ := hx.answers ha
    obtain ⟨hstated, rfl⟩ := (hf a).answers hrest
    exact ⟨hstated, Cursor.skip_skip c n m⟩
  fits h := by
    obtain ⟨a, mid, ha, hrest⟩ := reads_bind.mp h
    obtain ⟨-, rfl⟩ := hx.answers ha
    exact add_le_of_fits (hx.fits ha) ((hf a).fits hrest)

/-- What comes next is stated for the answer that there is. -/
theorem Takes.andThen {a : α} {f : α → Decoder (Except ParseError) β}
    {following : Except ParseError β} (hx : Takes x c n (.ok a))
    (hf : Takes (f a) (c.skip n) m following) : Takes (x >>= f) c (n + m) following where
  inside h := by
    have hrest := hf.inside (show c.position + n + m ≤ c.window.size by omega)
    rw [Cursor.skip_skip] at hrest
    rw [StateT.run_bind, hx.inside (by omega)]
    exact hrest
  answers h := by
    obtain ⟨found, mid, hfound, hrest⟩ := reads_bind.mp h
    obtain ⟨⟨⟩, rfl⟩ := hx.answers hfound
    obtain ⟨hstated, rfl⟩ := hf.answers hrest
    exact ⟨hstated, Cursor.skip_skip c n m⟩
  fits h := by
    obtain ⟨found, mid, hfound, hrest⟩ := reads_bind.mp h
    obtain ⟨⟨⟩, rfl⟩ := hx.answers hfound
    exact add_le_of_fits (hx.fits hfound) (hf.fits hrest)

theorem Takes.map (hx : Takes x c n stated) (f : α → β) : Takes (f <$> x) c n (stated.map f) :=
  hx.bind fun a => takes_pure (f a)

/-- A window is decoded as is stated, if it has all the bytes. -/
theorem Takes.decode {w : Window} (h : Takes x (.ofWindow w) n stated) (hfit : n ≤ w.size) :
    w.decode x = stated := by
  rw [Window.decode, h.inside ((Nat.zero_add n).symm ▸ hfit)]
  cases stated <;> rfl

theorem takes_read {record : FixedRecord α} {a : α}
    (ha : ∀ h : c.position + record.size ≤ c.window.size,
      record.decodeAt c.window c.position h = a) :
    Takes (read record) c record.size (.ok a) := by
  have hrun : (read record : Decoder (Except ParseError) α).run c =
      if c.position + record.size ≤ c.window.size then .ok (a, c.skip record.size)
      else .error .endOfData := by
    -- the record is read whole or not at all
    show ofRead (Cursor.read record) c = _
    unfold ofRead Cursor.read
    by_cases hfit : c.position + record.size ≤ c.window.size
    · rw [dif_pos hfit, if_pos hfit, ha hfit]
      rfl
    · rw [dif_neg hfit, if_neg hfit]
      rfl
  have hread {found : α} {next : Cursor} (h : Reads (read record) c found next) :
      c.position + record.size ≤ c.window.size ∧ a = found ∧ next = c.skip record.size := by
    rw [Reads, hrun] at h
    split at h
    case isTrue hfit =>
      cases h
      exact ⟨hfit, rfl, rfl⟩
    case isFalse => cases h
  exact ⟨fun h => hrun.trans (if_pos h), fun h => (hread h).2.imp_left (congrArg Except.ok),
    fun h _ => (hread h).1⟩

theorem decodeAt_u16 {w : Window} {place : Nat} (h : place + 2 ≤ w.size) :
    FixedRecord.u16.decodeAt w place h = wordIn (w.toList.drop place) 0 := by
  rw [w.drop_eq_cons (by omega), w.drop_eq_cons (show place + 1 < w.size by omega)]
  rfl

theorem takes_u16 : Takes u16 c 2 (.ok (wordIn (c.window.toList.drop c.position) 0)) :=
  takes_read decodeAt_u16

theorem takes_i16 : Takes i16 c 2 (.ok (wordIn (c.window.toList.drop c.position) 0).toInt16) :=
  takes_read fun h => congrArg UInt16.toInt16 (decodeAt_u16 h)

end Decoder

/-! ## §4 Value records -/

open Decoder

/-- One of the four amounts of a value record. Its words have the numbers `k`, `4 + k`
    and `8 + k`. -/
def ValueAmount.ofBytes (f : ValueFormat) (base : Window) (bytes : List UInt8) (k : Nat) :
    Except ParseError ValueAmount := do
  return {
    design := (f.wordFrom? bytes k).map UInt16.toInt16
    device := ← ValueRecord.device base (f.wordFrom? bytes (4 + k))
    metric := f.wordFrom? bytes (8 + k) }

/-- The value record that is stored as some bytes. -/
def ValueRecord.ofBytes (f : ValueFormat) (base : Window) (bytes : List UInt8) :
    Except ParseError ValueRecord := do
  return {
    xPlacement := ← ValueAmount.ofBytes f base bytes 0
    yPlacement := ← ValueAmount.ofBytes f base bytes 1
    xAdvance := ← ValueAmount.ofBytes f base bytes 2
    yAdvance := ← ValueAmount.ofBytes f base bytes 3 }

namespace ValueRecord

variable {α β : Type} {f : ValueFormat} {c : Cursor}

/-- A word is read behind those with smaller numbers, if it is stored. -/
theorem takes_word {record : FixedRecord α} (meaning : UInt16 → α) {number : Nat}
    (hnumber : number < 12)
    (hrecord : ∀ c, Takes (read record) c 2
      (.ok (meaning (wordIn (c.window.toList.drop c.position) 0)))) :
    Takes (word f number record) (c.skip (2 * f.rank number))
      (2 * (f.rank (number + 1) - f.rank number))
      (.ok ((f.wordFrom? (c.window.bytesAt c.position f.size) number).map meaning)) := by
  rw [word, ValueFormat.wordFrom?]
  cases hhas : f.has number with
  | false =>
    -- a word that is not stored takes no place, so that the next one has the same rank
    rw [f.rank_succ_of_not_has hhas, Nat.sub_self]
    exact takes_pure none
  | true =>
    have hlast : f.rank (number + 1) ≤ f.rank 12 := f.rank_mono hnumber
    have hword : wordIn (c.window.bytesAt c.position f.size) (f.rank number) =
        wordIn ((c.skip (2 * f.rank number)).window.toList.drop
          (c.skip (2 * f.rank number)).position) 0 := by
      rw [f.rank_succ_of_has hhas] at hlast
      rw [Window.bytesAt, wordIn_take (by rw [f.size_eq_rank]; omega)]
      show _ = wordIn (c.window.toList.drop (c.position + 2 * f.rank number)) 0
      rw [← List.drop_drop, wordIn_drop, Nat.add_zero]
    rw [f.rank_succ_of_has hhas, Nat.add_sub_cancel_left, if_pos rfl, if_pos rfl, hword]
    exact (hrecord _).map some

/-- Behind a word, the words with greater numbers are read. -/
theorem takes_word_bind {x : Decoder (Except ParseError) α} {number : Nat} (hnumber : number < 12)
    {a : α} {rest : α → Decoder (Except ParseError) β} {following : Except ParseError β}
    (hx : Takes x (c.skip (2 * f.rank number)) (2 * (f.rank (number + 1) - f.rank number)) (.ok a))
    (hrest : Takes (rest a) (c.skip (2 * f.rank (number + 1)))
      (2 * (f.rank 12 - f.rank (number + 1))) following) :
    Takes (x >>= rest) (c.skip (2 * f.rank number)) (2 * (f.rank 12 - f.rank number))
      following := by
  have hnext : f.rank number ≤ f.rank (number + 1) := f.rank_mono (Nat.le_succ _)
  have hlast : f.rank (number + 1) ≤ f.rank 12 := f.rank_mono hnumber
  have hskip : (c.skip (2 * f.rank number)).skip (2 * (f.rank (number + 1) - f.rank number)) =
      c.skip (2 * f.rank (number + 1)) := by
    rw [Cursor.skip_skip]
    congr 1
    omega
  have hsum : 2 * (f.rank 12 - f.rank number) =
      2 * (f.rank (number + 1) - f.rank number) + 2 * (f.rank 12 - f.rank (number + 1)) := by omega
  rw [hsum]
  exact hx.andThen (hskip ▸ hrest)

theorem takes_decoder (f : ValueFormat) (base : Window) (c : Cursor) :
    Takes (decoder f base) c f.size (ofBytes f base (c.window.bytesAt c.position f.size)) := by
  have hi16 {number : Nat} (hnumber : number < 12) :
      Takes (word f number .i16) (c.skip (2 * f.rank number))
        (2 * (f.rank (number + 1) - f.rank number))
        (.ok ((f.wordFrom? (c.window.bytesAt c.position f.size) number).map UInt16.toInt16)) :=
    takes_word _ hnumber fun _ => takes_i16
  have hu16 {number : Nat} (hnumber : number < 12) :
      Takes (word f number .u16) (c.skip (2 * f.rank number))
        (2 * (f.rank (number + 1) - f.rank number))
        (.ok ((f.wordFrom? (c.window.bytesAt c.position f.size) number).map id)) :=
    takes_word _ hnumber fun _ => takes_u16
  show Takes (decoder f base) (c.skip (2 * f.rank 0)) (2 * (f.rank 12 - f.rank 0)) _
  -- four words in design units, and four of each of the other kinds
  iterate 4 refine takes_word_bind (by decide) (hi16 (by decide)) ?_
  iterate 8 refine takes_word_bind (by decide) (hu16 (by decide)) ?_
  rw [Nat.sub_self]
  refine takes_of_eq_lift ?_
  simp only [ofBytes, ValueAmount.ofBytes, liftM_bind, liftM_pure, bind_assoc, pure_bind,
    Option.map_id, id_eq]

end ValueRecord

/-! ## §5 Arrays -/

/-- Some bytes, cut into `n` pieces of `stride` bytes. -/
def pieces (stride n : Nat) (bytes : List UInt8) : Array (List UInt8) :=
  Array.ofFn fun i : Fin n => (bytes.drop (i * stride)).take stride

/-- A stretch of `n` items ends where its last item does, or behind it. -/
theorem item_end_le (stride : Nat) {n i : Nat} (hi : i < n) : i * stride + stride ≤ n * stride := by
  rw [← Nat.succ_mul]
  exact Nat.mul_le_mul_right stride hi

theorem Window.piece_bytesAt (w : Window) (place stride : Nat) {n i : Nat} (hi : i < n) :
    ((w.bytesAt place (n * stride)).drop (i * stride)).take stride =
      w.bytesAt (place + i * stride) stride := by
  obtain ⟨behind, hbehind⟩ := Nat.exists_eq_add_of_le (item_end_le stride hi)
  rw [hbehind, Nat.add_assoc, drop_bytesAt, take_bytesAt]

/-- A stretch that is cut out has the bytes of the stretch. -/
theorem Window.bytesAt_narrow {w : Window} {place n : Nat} (h : place + n ≤ w.size) :
    (w.narrow place n).bytesAt 0 n = w.bytesAt place n := by
  rw [bytesAt, toList_narrow h, List.drop_zero, List.take_of_length_le]
  exact Nat.le_of_eq (length_bytesAt h)

/-- Two arrays are gone through in the same way if their entries lead to the same. -/
theorem mapM_ofFn_congr {α β γ : Type} {n : Nat} {f : α → Except ParseError γ}
    {g : β → Except ParseError γ} {xs : Fin n → α} {ys : Fin n → β} (h : ∀ i, f (xs i) = g (ys i)) :
    (Array.ofFn xs).mapM f = (Array.ofFn ys).mapM g := by
  have heach (δ : Type) (k : δ → Except ParseError γ) (zs : Fin n → δ) :
      (Array.ofFn zs).mapM k = (Array.ofFn (k ∘ zs)).mapM id := by
    rw [← Array.map_ofFn, Array.mapM_map]
    rfl
  rw [heach _ f, heach _ g, show f ∘ xs = g ∘ ys from funext h]

namespace Decoder

variable {α : Type} {one : Decoder (Except ParseError) α} {value : List UInt8 → Except ParseError α}
  {stride n : Nat} {c : Cursor}

/-- The windows of the items. -/
def stretches (c : Cursor) (stride n : Nat) : Array Window :=
  Array.ofFn fun i : Fin n => c.window.narrow (c.position + i * stride) stride

theorem getElem_stretches {i : Nat} (hi : i < (stretches c stride n).size) :
    (stretches c stride n)[i] = c.window.narrow (c.position + i * stride) stride :=
      Array.getElem_ofFn hi

theorem run_windows_of_le (h : c.position + n * stride ≤ c.window.size) :
    (windows stride n : Decoder (Except ParseError) (Array Window)).run c =
      .ok (stretches c stride n, c.skip (n * stride)) := by
  have hitems : (Array.ofFn fun i : Fin n =>
      (c.window.narrow c.position (n * stride)).narrow (i * stride) stride) =
        stretches c stride n :=
    congrArg Array.ofFn (funext fun i => Window.narrow_narrow _ (item_end_le stride i.isLt))
  simp only [windows, ofRead, StateT.run, Cursor.take, if_pos h, ← hitems]
  rfl

theorem run_windows_of_lt (h : c.window.size < c.position + n * stride) :
    (windows stride n : Decoder (Except ParseError) (Array Window)).run c = .error .endOfData := by
  simp only [windows, ofRead, StateT.run, Cursor.take, if_neg (Nat.not_le.mpr h)]
  rfl

/-- A window of just the right size is decoded to its end. -/
theorem run_narrow (hone : ∀ c, Takes one c stride (value (c.window.bytesAt c.position stride)))
    {w : Window} {place : Nat} (h : place + stride ≤ w.size) :
    one.run (.ofWindow (w.narrow place stride)) =
      (value (w.bytesAt place stride)).map fun a =>
        (a, ⟨w.narrow place stride, (w.narrow place stride).size⟩) := by
  have hsize := Window.size_narrow h
  have hend : (Cursor.ofWindow (w.narrow place stride)).skip stride =
      ⟨w.narrow place stride, (w.narrow place stride).size⟩ := by
    rw [hsize]
    exact congrArg (Cursor.mk _) (Nat.zero_add _)
  have hinside : (Cursor.ofWindow (w.narrow place stride)).position + stride ≤
      (w.narrow place stride).size := Nat.le_of_eq ((Nat.zero_add _).trans hsize.symm)
  rw [(hone _).inside hinside, hend, ← Window.bytesAt_narrow h]
  rfl

theorem decode_narrow (hone : ∀ c, Takes one c stride (value (c.window.bytesAt c.position stride)))
    {w : Window} {place : Nat} (h : place + stride ≤ w.size) :
    (w.narrow place stride).decode one = value (w.bytesAt place stride) := by
  rw [← Window.bytesAt_narrow h]
  exact (hone (.ofWindow _)).decode (Nat.le_of_eq (Window.size_narrow h).symm)

theorem takes_records
    (hone : ∀ c, Takes one c stride (value (c.window.bytesAt c.position stride))) :
    Takes (records stride n one) c (n * stride)
      ((pieces stride n (c.window.bytesAt c.position (n * stride))).mapM value) := by
  have hinside (h : c.position + n * stride ≤ c.window.size) : (records stride n one).run c =
      ((pieces stride n (c.window.bytesAt c.position (n * stride))).mapM value).map fun items =>
        (items, c.skip (n * stride)) := by
    have heach : (stretches c stride n).mapM (fun w : Window => w.decode one) =
        (pieces stride n (c.window.bytesAt c.position (n * stride))).mapM value :=
      mapM_ofFn_congr fun i => by
        have hend := item_end_le stride i.isLt
        rw [decode_narrow hone (by omega), Window.piece_bytesAt _ _ _ i.isLt]
    rw [records, StateT.run_bind, run_windows_of_le h, ← heach]
    show (MonadExcept.ofExcept ((stretches c stride n).mapM fun w : Window => w.decode one) :
      Decoder (Except ParseError) (Array α)).run (c.skip (n * stride)) = _
    cases (stretches c stride n).mapM fun w : Window => w.decode one <;> rfl
  -- the windows are cut out before any item is decoded, so that nothing is answered if they do not
  -- fit
  have hfits {items : Array α} {next : Cursor} (h : Reads (records stride n one) c items next) :
      c.position + n * stride ≤ c.window.size := by
    by_contra hlt
    rw [Reads, records, StateT.run_bind, run_windows_of_lt (Nat.not_le.mp hlt)] at h
    cases h
  refine ⟨hinside, fun {items next} h => ?_, fun h _ => hfits h⟩
  rw [Reads, hinside (hfits h)] at h
  obtain ⟨_, hitems, ⟨⟩⟩ := except_map_eq_ok.mp h
  exact ⟨hitems, rfl⟩

end Decoder

/-! ## §6 Records with value records in them -/

/-- The offsets of the device tables that a value record points to. -/
def ValueFormat.deviceOffsets (f : ValueFormat) (bytes : List UInt8) : List UInt16 :=
  (List.range 4).filterMap fun k => f.wordFrom? bytes (4 + k)

/-- The two value records that are stored as some bytes. -/
def PairValue.ofBytes (first second : ValueFormat) (base : Window) (bytes : List UInt8) :
    Except ParseError PairValue := do
  return {
    first := ← ValueRecord.ofBytes first base (bytes.take first.size)
    second := ← ValueRecord.ofBytes second base (bytes.drop first.size) }

/-- The offsets of the device tables that two value records point to. -/
def PairValue.deviceOffsets (first second : ValueFormat) (bytes : List UInt8) : List UInt16 :=
  first.deviceOffsets (bytes.take first.size) ++ second.deviceOffsets (bytes.drop first.size)

/-- The kinds of records that have value records in them. -/
inductive PosRecord : Type → Type 1 where
  /-- A value record. -/
  | value (f : ValueFormat) : PosRecord ValueRecord
  /-- Two value records. -/
  | pair (first second : ValueFormat) : PosRecord PairValue
  /-- A glyph with two value records. -/
  | glyphPair (first second : ValueFormat) : PosRecord (GlyphId × PairValue)
  /-- A row of two value records each. -/
  | row (count : Nat) (first second : ValueFormat) : PosRecord (Array PairValue)

namespace PosRecord

variable {α : Type}

/-- The formats of the value records. -/
def formats : PosRecord α → List ValueFormat
  | .value f => [f]
  | .pair first second => [first, second]
  | .glyphPair first second => [first, second]
  | .row _ first second => [first, second]

/-- The number of bytes of a record, if `size` is that of a value record. -/
def sizeBy (size : ValueFormat → Nat) : PosRecord α → Nat
  | .value f => size f
  | .pair first second => size first + size second
  | .glyphPair first second => 2 + size first + size second
  | .row count first second => count * (size first + size second)

/-- The number of bytes of a record. -/
def size (record : PosRecord α) : Nat := record.sizeBy ValueFormat.size

/-- The decoder of a record. -/
def decoder (base : Window) : PosRecord α → Decoder (Except ParseError) α
  | .value f => ValueRecord.decoder f base
  | .pair first second => PairValue.decoder first second base
  | .glyphPair first second => do return (← Decoder.u16, ← PairValue.decoder first second base)
  | .row count first second =>
    Decoder.records (first.size + second.size) count (PairValue.decoder first second base)

/-- The record that is stored as some bytes. -/
def ofBytes (base : Window) : PosRecord α → List UInt8 → Except ParseError α
  | .value f, bytes => ValueRecord.ofBytes f base bytes
  | .pair first second, bytes => PairValue.ofBytes first second base bytes
  | .glyphPair first second, bytes => do
    return (wordIn bytes 0, ← PairValue.ofBytes first second base (bytes.drop 2))
  | .row count first second, bytes =>
    (pieces (first.size + second.size) count bytes).mapM (PairValue.ofBytes first second base)

/-- The offsets of the device tables that a record points to. -/
def deviceOffsets : PosRecord α → List UInt8 → List UInt16
  | .value f, bytes => f.deviceOffsets bytes
  | .pair first second, bytes => PairValue.deviceOffsets first second bytes
  | .glyphPair first second, bytes => PairValue.deviceOffsets first second (bytes.drop 2)
  | .row count first second, bytes =>
    (pieces (first.size + second.size) count bytes).toList.flatMap
      (PairValue.deviceOffsets first second)

end PosRecord

open Decoder

theorem PairValue.takes_decoder (first second : ValueFormat) (base : Window) (c : Cursor) :
    Takes (decoder first second base) c (first.size + second.size)
      (ofBytes first second base (c.window.bytesAt c.position (first.size + second.size))) := by
  have htakes := (ValueRecord.takes_decoder first base c).bind fun a =>
    (ValueRecord.takes_decoder second base (c.skip first.size)).bind fun b =>
      takes_pure (PairValue.mk a b)
  refine htakes.congr ?_
  rw [ofBytes, Window.take_bytesAt, Window.drop_bytesAt]
  rfl

theorem PosRecord.takes_decoder {α : Type} (record : PosRecord α) (base : Window) (c : Cursor) :
    Takes (record.decoder base) c record.size
      (record.ofBytes base (c.window.bytesAt c.position record.size)) := by
  cases record with
  | value f => exact ValueRecord.takes_decoder f base c
  | pair first second => exact PairValue.takes_decoder first second base c
  | glyphPair first second =>
    have htakes := (takes_u16 (c := c)).bind fun glyph =>
      (PairValue.takes_decoder first second base (c.skip 2)).bind fun value =>
        takes_pure (glyph, value)
    have hsize : (glyphPair first second).size = 2 + (first.size + second.size) :=
      Nat.add_assoc _ _ _
    have hglyph : wordIn (c.window.bytesAt c.position (2 + (first.size + second.size))) 0 =
        wordIn (c.window.toList.drop c.position) 0 := wordIn_take (by omega)
    rw [hsize]
    refine htakes.congr ?_
    rw [ofBytes, Window.drop_bytesAt, hglyph]
    rfl
  | row count first second => exact takes_records (PairValue.takes_decoder first second base)

/-- The pairs with one first glyph are such records. They are decoded from the bytes behind their
    number, if all of these are there. -/
theorem readPairSet_of_le (first second : ValueFormat)
    {w : Window} {record : PosRecord (GlyphId × PairValue)}
    {n : Nat} (hrecord : record = .glyphPair first second) (hn : n = (wordIn w.toList 0).toNat)
    (hfit : 2 + n * record.size ≤ w.size) :
    readPairSet first second w =
      (pieces record.size n (w.bytesAt 2 (n * record.size))).mapM (record.ofBytes w) := by
  have hread : readPairSet first second w = w.decode (Decoder.count >>= fun count =>
      Decoder.records record.size count (record.decoder w)) := by
    subst hrecord
    unfold readPairSet
    congr 1
  have hcount : Takes Decoder.count (.ofWindow w) 2 (.ok n) := hn ▸ takes_u16.map UInt16.toNat
  rw [hread]
  exact (hcount.andThen (takes_records (record.takes_decoder w))).decode hfit

/-! ## §7 Failures -/

/-- What is computed fails only as one of some device tables does. -/
def FailsByDevice {α : Type} (base : Window) (offsets : List UInt16)
    (x : Except ParseError α) : Prop :=
  ∀ e, x = .error e → ∃ n ∈ offsets, base.optionalDevice n = .error e

namespace FailsByDevice

variable {α β : Type} {base : Window} {offsets : List UInt16} {x : Except ParseError α}

theorem ok (a : α) : FailsByDevice base offsets (.ok a) := fun _ h => nomatch h

theorem mono {more : List UInt16} (h : FailsByDevice base offsets x) (hsub : offsets ⊆ more) :
    FailsByDevice base more x := fun e he =>
  let ⟨n, hn, hfail⟩ := h e he
  ⟨n, hsub hn, hfail⟩

theorem bind {f : α → Except ParseError β} (hx : FailsByDevice base offsets x)
    (hf : ∀ a, FailsByDevice base offsets (f a)) :
    FailsByDevice base offsets (x >>= f) := fun e he =>
  (except_bind_eq_error.mp he).elim (hx e) fun ⟨a, _, hfail⟩ => hf a e hfail

theorem mapM {f : β → Except ParseError α} {items : Array β}
    (h : ∀ b ∈ items, FailsByDevice base offsets (f b)) :
    FailsByDevice base offsets (items.mapM f) :=
  fun e he =>
  let ⟨b, hb, hfail⟩ := except_mapM_eq_error he
  h b hb e hfail

end FailsByDevice

theorem ValueAmount.failsByDevice (f : ValueFormat) (base : Window) (bytes : List UInt8) {k : Nat}
    (hk : k < 4) : FailsByDevice base (f.deviceOffsets bytes) (ofBytes f base bytes k) := by
  -- the words themselves are there; only the device has to be looked at
  refine FailsByDevice.bind (fun e he => ?_) fun _ => .ok _
  cases hword : f.wordFrom? bytes (4 + k) with
  | none =>
    rw [hword] at he
    cases he
  | some n =>
    rw [hword] at he
    exact ⟨n, List.mem_filterMap.mpr ⟨k, List.mem_range.mpr hk, hword⟩, he⟩

theorem ValueRecord.failsByDevice (f : ValueFormat) (base : Window) (bytes : List UInt8) :
    FailsByDevice base (f.deviceOffsets bytes) (ofBytes f base bytes) :=
  (ValueAmount.failsByDevice f base bytes (by decide)).bind fun _ =>
  (ValueAmount.failsByDevice f base bytes (by decide)).bind fun _ =>
  (ValueAmount.failsByDevice f base bytes (by decide)).bind fun _ =>
  (ValueAmount.failsByDevice f base bytes (by decide)).bind fun _ => .ok _

theorem PairValue.failsByDevice (first second : ValueFormat) (base : Window) (bytes : List UInt8) :
    FailsByDevice base (deviceOffsets first second bytes) (ofBytes first second base bytes) :=
  ((ValueRecord.failsByDevice first base _).mono (List.subset_append_left _ _)).bind fun _ =>
  ((ValueRecord.failsByDevice second base _).mono (List.subset_append_right _ _)).bind fun _ =>
    .ok _

namespace PosRecord

variable {α : Type}

theorem failsByDevice (record : PosRecord α) (base : Window) (bytes : List UInt8) :
    FailsByDevice base (record.deviceOffsets bytes) (record.ofBytes base bytes) := by
  cases record with
  | value f => exact ValueRecord.failsByDevice f base bytes
  | pair first second => exact PairValue.failsByDevice first second base bytes
  | glyphPair first second =>
    exact (PairValue.failsByDevice first second base _).bind fun _ => .ok _
  | row count first second =>
    refine FailsByDevice.mapM fun piece hpiece => ?_
    refine (PairValue.failsByDevice first second base piece).mono fun n hn => ?_
    exact List.mem_flatMap.mpr ⟨piece, Array.mem_toList_iff.mpr hpiece, hn⟩

/-! ## §8 Exact sizes -/

theorem size_eq_sizeBy_ones (record : PosRecord α)
    (h : ∀ f ∈ record.formats, ∃ bits, ValueFormat.ofBits bits = .ok f) :
    record.size = record.sizeBy fun f => 2 * f.ones := by
  have hsize {f : ValueFormat} (hf : f ∈ record.formats) : f.size = 2 * f.ones := by
    obtain ⟨bits, hbits⟩ := h f hf
    obtain ⟨hlow, rfl⟩ := ValueFormat.ofBits_eq_ok.mp hbits
    exact ValueFormat.size_eq_ones hlow
  cases record with
  | value f => exact hsize List.mem_cons_self
  | pair first second | glyphPair first second | row count first second =>
    simp only [size, sizeBy, hsize (f := first) List.mem_cons_self,
      hsize (f := second) (List.mem_cons_of_mem _ List.mem_cons_self)]

/-- A window holds the bytes of a record and nothing else, and the record is decoded from
    all of it. -/
structure FillsWindow (record : PosRecord α) (base : Window) (bytes : List UInt8)
    (v : Window) : Prop where
  toList_eq : v.toList = bytes
  run_eq : (record.decoder base).run (.ofWindow v) =
    (record.ofBytes base bytes).map fun a => (a, ⟨v, v.size⟩)

/-- Records of a kind have the size that their formats say, also in arrays. Device offsets lead on
    from `base`. -/
structure Exact (record : PosRecord α) (base : Window) : Prop where
  /-- Each bit of a format stands for two bytes. -/
  size_eq : record.size = record.sizeBy fun f => 2 * f.ones
  /-- A record is decoded from as many bytes, each field from the word that it is stored as. -/
  takes : ∀ c : Cursor, Takes (record.decoder base) c record.size
    (record.ofBytes base (c.window.bytesAt c.position record.size))
  /-- An array is cut into windows if all of its bytes are there. The item with a number fills
      its window. -/
  items : ∀ (c : Cursor) (n : Nat), c.position + n * record.size ≤ c.window.size →
    ∃ items : Array Window, (windows record.size n).run c =
        (.ok (items, c.skip (n * record.size)) : Except ParseError _) ∧ items.size = n ∧
      ∀ (i : Nat) (v : Window), items[i]? = some v →
        record.FillsWindow base (c.window.bytesAt (c.position + i * record.size) record.size) v
  /-- Otherwise there is no array. -/
  refused : ∀ (c : Cursor) (n : Nat), c.window.size < c.position + n * record.size →
    (windows record.size n).run c = (.error .endOfData : Except ParseError (Array Window × Cursor))
  /-- All items of an array are decoded from the bytes of the array, which are cut into pieces. -/
  array : ∀ (c : Cursor) (n : Nat),
    Takes (records record.size n (record.decoder base)) c (n * record.size)
      ((pieces record.size n (c.window.bytesAt c.position (n * record.size))).mapM
        (record.ofBytes base))
  /-- What the bytes of a record stand for is known but for the device tables that it points to. -/
  failure : ∀ bytes : List UInt8,
    FailsByDevice base (record.deviceOffsets bytes) (record.ofBytes base bytes)

theorem fillsWindow_narrow (record : PosRecord α) (base : Window) {w : Window} {place : Nat}
    (h : place + record.size ≤ w.size) :
    record.FillsWindow base (w.bytesAt place record.size) (w.narrow place record.size) where
  toList_eq := Window.toList_narrow h
  run_eq := run_narrow (record.takes_decoder base) h

/-- Of formats that can be read, all records have the size that the formats say. -/
theorem exact_of_formats (record : PosRecord α)
    (h : ∀ f ∈ record.formats, ∃ bits, ValueFormat.ofBits bits = .ok f) (base : Window) :
    record.Exact base where
  size_eq := record.size_eq_sizeBy_ones h
  takes := record.takes_decoder base
  items c n hfit := by
    refine ⟨stretches c record.size n, run_windows_of_le hfit, Array.size_ofFn, fun i v hv => ?_⟩
    obtain ⟨hi, rfl⟩ := Array.getElem?_eq_some_iff.mp hv
    have hlt : i < n := Nat.lt_of_lt_of_eq hi Array.size_ofFn
    have hend := item_end_le record.size hlt
    rw [getElem_stretches]
    exact record.fillsWindow_narrow base (by omega)
  refused _ _ := run_windows_of_lt
  array _ _ := takes_records (record.takes_decoder base)
  failure := record.failsByDevice base

/-- A row of two pairs. The first record of a pair has words of all three kinds. -/
theorem exact_of_formats_row :
    (∀ f ∈ (row 2 ⟨0x0915⟩ ⟨0x0004⟩).formats, ∃ bits, ValueFormat.ofBits bits = .ok f) ∧
      (row 2 ⟨0x0915⟩ ⟨0x0004⟩).Exact (.ofBytes ⟨#[0, 9]⟩) := by
  have h : ∀ f ∈ (row 2 ⟨0x0915⟩ ⟨0x0004⟩).formats, ∃ bits, ValueFormat.ofBits bits = .ok f :=
    List.forall_mem_cons.mpr ⟨⟨0x0915, rfl⟩, List.forall_mem_singleton.mpr ⟨0x0004, rfl⟩⟩
  exact ⟨h, exact_of_formats _ h _⟩

end PosRecord

end OpenTypeLayout
