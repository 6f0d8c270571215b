import OpenTypeLayout.Proofs.Words

/-!
# Records that are stored as words

Most records of a font are made of words, and most arrays have their length in front of them. What
such a record, or such an array, is read from are the bytes of its words, and nothing else.

- `FixedRecord.StoredAs` ties a kind of record to the words that it is stored as. Pairs and records
  with another meaning are stored as what they are made of.
- `Decoder.Reads` holds of a decoder that answers. What is read one after the other is stored one
  behind the other.
- `Decoder.reads_read`, `Decoder.reads_array` and `Decoder.reads_counted`: a record, some records,
  or records with their number in front are read if their bytes come next.
-/

namespace OpenTypeLayout

/-! ## §1 Records and their words -/

namespace FixedRecord

variable {α β : Type} {record : FixedRecord α} {words : α → List UInt16}

/-- A record of this kind takes the bytes of its words, and it is known from them. -/
structure StoredAs (record : FixedRecord α) (words : α → List UInt16) : Prop where
  size_eq : ∀ a, record.size = 2 * (words a).length
  drop_eq : ∀ (w : Window) (place : Nat) (h : place + record.size ≤ w.size),
    w.toList.drop place =
      wordsBytes (words (record.decodeAt w place h)) ++ w.toList.drop (place + record.size)
  injective : ∀ a b, words a = words b → a = b

theorem decodeAt_congr {v w : Window} (hbytes : v.bytes = w.bytes) {i j : Nat}
    (hi : i + record.size ≤ v.size) (hj : j + record.size ≤ w.size)
    (hplace : v.base + i = w.base + j) : record.decodeAt v i hi = record.decodeAt w j hj :=
  congrArg record.decode (funext fun k => Window.get_congr hbytes _ _ (by omega))

/-- The bytes of a record are those of its words. -/
theorem StoredAs.length_wordsBytes (h : record.StoredAs words) (a : α) :
    (wordsBytes (words a)).length = record.size := by
  rw [OpenTypeLayout.length_wordsBytes, h.size_eq a]

theorem StoredAs.length_eq (h : record.StoredAs words) (a b : α) :
    (words a).length = (words b).length := by
  have ha := h.size_eq a
  have hb := h.size_eq b
  omega

theorem storedAs_u16 : u16.StoredAs fun n => [n] where
  size_eq _ := rfl
  drop_eq w place h := by
    have hsize : place + 2 ≤ w.size := h
    rw [w.drop_eq_cons (by omega), w.drop_eq_cons (show place + 1 < w.size by omega)]
    exact congrArg (· ++ w.toList.drop (place + 2)) (wordBytes_wordOf _ _).symm
  injective _ _ h := List.head_eq_of_cons_eq h

/-- The two words of a number of four bytes. -/
def halves (n : UInt32) : List UInt16 :=
  [UInt16.ofNat (n.toNat / 65536), UInt16.ofNat (n.toNat % 65536)]

theorem toNat_u32 (a b c d : UInt8) :
    (UInt32.ofNat (bigEndian [a, b, c, d])).toNat =
      (wordOf a b).toNat * 65536 + (wordOf c d).toNat := by
  have := a.toNat_lt
  have := b.toNat_lt
  have := c.toNat_lt
  have := d.toNat_lt
  have hvalue : bigEndian [a, b, c, d] =
      ((a.toNat * 256 + b.toNat) * 256 + c.toNat) * 256 + d.toNat := by
    simp [bigEndian, ofDigits]
  rw [hvalue, UInt32.toNat_ofNat', Nat.mod_eq_of_lt (by omega), toNat_wordOf, toNat_wordOf]
  omega

theorem halves_u32 (a b c d : UInt8) :
    halves (UInt32.ofNat (bigEndian [a, b, c, d])) = [wordOf a b, wordOf c d] := by
  have := (wordOf c d).toNat_lt
  rw [halves, toNat_u32, Nat.mul_add_mod', Nat.mod_eq_of_lt (by omega),
    show ((wordOf a b).toNat * 65536 + (wordOf c d).toNat) / 65536 = (wordOf a b).toNat by omega,
    UInt16.ofNat_toNat, UInt16.ofNat_toNat]

theorem storedAs_u32 : u32.StoredAs halves where
  size_eq _ := rfl
  drop_eq w place h := by
    have hsize : place + 4 ≤ w.size := h
    rw [w.drop_eq_cons (by omega), w.drop_eq_cons (show place + 1 < w.size by omega),
      w.drop_eq_cons (show place + 2 < w.size by omega),
      w.drop_eq_cons (show place + 3 < w.size by omega)]
    show _ = wordsBytes (halves (UInt32.ofNat (bigEndian [_, _, _, _]))) ++ _
    rw [halves_u32, wordsBytes_cons, wordsBytes_cons, wordBytes_wordOf, wordBytes_wordOf]
    rfl
  injective n m h := by
    have hn := n.toNat_lt
    have hm := m.toNat_lt
    obtain ⟨hhigh, hrest⟩ := List.cons_eq_cons.mp h
    have hhigh := congrArg UInt16.toNat hhigh
    have hlow := congrArg UInt16.toNat (List.cons_eq_cons.mp hrest).1
    simp only [UInt16.toNat_ofNat'] at hhigh hlow
    exact UInt32.toNat_inj.mp (by omega)

/-- One record and then another are stored as the words of both. -/
theorem StoredAs.pair {other : FixedRecord β} {otherWords : β → List UInt16}
    (h : record.StoredAs words) (hother : other.StoredAs otherWords) :
    (record.pair other).StoredAs fun (a, b) => words a ++ otherWords b where
  size_eq := by
    rintro ⟨a, b⟩
    have ha := h.size_eq a
    have hb := hother.size_eq b
    simp only [FixedRecord.pair, List.length_append]
    omega
  -- the second record begins where the first one ends
  drop_eq w place hfit := by
    have hfit' : place + (record.size + other.size) ≤ w.size := hfit
    have hparts : (record.pair other).decodeAt w place hfit =
        (record.decodeAt w place (by omega), other.decodeAt w (place + record.size) (by omega)) :=
      Prod.ext rfl (congrArg other.decode (funext fun i => Window.get_congr rfl _ _
        (congrArg (w.base + ·) (Nat.add_assoc place record.size i).symm)))
    rw [hparts, h.drop_eq w place (by omega), hother.drop_eq w (place + record.size) (by omega)]
    simp only [wordsBytes_append, List.append_assoc, FixedRecord.pair, Nat.add_assoc]
  -- the bytes are cut where the first record ends, and each part tells its record
  injective := by
    rintro ⟨a, b⟩ ⟨a', b'⟩ heq
    obtain ⟨hfirst, hsecond⟩ := List.append_inj heq (h.length_eq a a')
    rw [h.injective a a' hfirst, hother.injective b b' hsecond]

/-- Where no meaning gets lost, records with another meaning are stored as the same words. -/
theorem StoredAs.map (h : record.StoredAs words) {meaning : α → β} (back : β → α)
    (hback : ∀ a, back (meaning a) = a) (hmeaning : ∀ b, meaning (back b) = b) :
    (record.map meaning).StoredAs fun b => words (back b) where
  size_eq b := h.size_eq (back b)
  drop_eq w place hfit := by
    rw [h.drop_eq w place hfit]
    exact congrArg (fun a => wordsBytes (words a) ++ _) (hback _).symm
  injective a b heq := by
    rw [← hmeaning a, h.injective _ _ heq, hmeaning]

/-! ## §2 Arrays -/

/-- The records that stand in a window from a place on. -/
def allAt (record : FixedRecord α) (w : Window) (place k : Nat)
    (h : place + k * record.size ≤ w.size) : List α :=
  List.ofFn fun i : Fin k => record.decodeAt w (place + i * record.size) (by
    have := Nat.mul_le_mul_right record.size (show i.val + 1 ≤ k from i.isLt)
    rw [Nat.add_mul, Nat.one_mul] at this
    omega)

theorem allAt_succ (w : Window) {place k : Nat} (h : place + (k + 1) * record.size ≤ w.size) :
    record.allAt w place (k + 1) h =
      record.decodeAt w place (by rw [Nat.add_mul] at h; omega) ::
        record.allAt w (place + record.size) k (by rw [Nat.add_mul] at h; omega) := by
  rw [allAt, List.ofFn_succ, allAt]
  refine List.cons_eq_cons.mpr ⟨decodeAt_congr rfl _ _ (by simp),
    congrArg List.ofFn (funext fun i => ?_)⟩
  exact decodeAt_congr rfl _ _ (by rw [Fin.val_succ, Nat.add_mul]; omega)

@[simp] theorem length_allAt (w : Window) {place k : Nat} (h : place + k * record.size ≤ w.size) :
    (record.allAt w place k h).length = k := List.length_ofFn

/-- An array that is taken from a window has the records that stand there. -/
theorem toArray_narrow (w : Window) {place k : Nat} (h : place + k * record.size ≤ w.size) :
    RecordArray.toArray ⟨w.narrow place (k * record.size), k, record,
        Nat.le_of_eq (Window.size_narrow h).symm⟩ = (record.allAt w place k h).toArray := by
  rw [allAt, List.toArray_ofFn]
  exact congrArg Array.ofFn (funext fun i =>
    decodeAt_congr (v := w.narrow place (k * record.size)) (w := w) rfl _ _
      (Nat.add_assoc w.base place (i * record.size)))

/-- The bytes of records in a row come first of what is left there. -/
theorem StoredAs.drop_eq_allAt (h : record.StoredAs words) (w : Window) {place k : Nat}
    (hfit : place + k * record.size ≤ w.size) :
    w.toList.drop place = wordsBytes ((record.allAt w place k hfit).flatMap words) ++
      w.toList.drop (place + k * record.size) := by
  induction k generalizing place with
  | zero => simp [allAt]
  | succ k ih =>
    have hsize : place + record.size + k * record.size ≤ w.size := by
      rw [Nat.add_mul] at hfit
      omega
    have hrest := ih hsize
    rw [show place + record.size + k * record.size = place + (k + 1) * record.size by
      rw [Nat.add_mul]; omega] at hrest
    rw [allAt_succ, List.flatMap_cons, wordsBytes_append, List.append_assoc,
      h.drop_eq w place (by omega), hrest]

theorem StoredAs.length_flatMap (h : record.StoredAs words) (items : List α) :
    (wordsBytes (items.flatMap words)).length = items.length * record.size := by
  induction items with
  | nil => simp
  | cons a items ih =>
    rw [List.flatMap_cons, wordsBytes_append, List.length_append, h.length_wordsBytes, ih,
      List.length_cons, Nat.add_mul]
    omega

theorem StoredAs.flatMap_injective (h : record.StoredAs words) {as bs : List α}
    (hlength : as.length = bs.length) (heq : as.flatMap words = bs.flatMap words) : as = bs := by
  induction as generalizing bs with
  | nil => exact (List.eq_nil_of_length_eq_zero hlength.symm).symm
  | cons a as ih =>
    cases bs with
    | nil => cases hlength
    | cons b bs =>
      obtain ⟨hfirst, hrest⟩ := List.append_inj heq (h.length_eq a b)
      rw [h.injective a b hfirst, ih (Nat.succ.inj hlength) hrest]

end FixedRecord

/-- The words of records with their number in front. -/
def countedWords {α : Type} (words : α → List UInt16) (items : Array α) : List UInt16 :=
  UInt16.ofNat items.size :: items.toList.flatMap words

/-! ## §3 Decoders that answer -/

namespace Decoder

variable {α β : Type}

/-- A decoder answers with a value and goes on to another cursor. -/
def Reads (x : Decoder (Except ParseError) α) (c : Cursor) (a : α) (next : Cursor) : Prop :=
  x.run c = .ok (a, next)

theorem reads_pure {a b : α} {c next : Cursor} :
    Reads (pure a) c b next ↔ b = a ∧ next = c := by
  constructor
  · rintro ⟨⟩
    exact ⟨rfl, rfl⟩
  · rintro ⟨rfl, rfl⟩
    rfl

theorem not_reads_throw {e : ParseError} {c next : Cursor} {a : α} :
    ¬ Reads (throw e : Decoder (Except ParseError) α) c a next :=
  fun h => nomatch h

/-- What reads one thing after the other reads both. -/
theorem reads_bind {x : Decoder (Except ParseError) α} {f : α → Decoder (Except ParseError) β}
    {c next : Cursor} {b : β} :
    Reads (x >>= f) c b next ↔ ∃ a mid, Reads x c a mid ∧ Reads (f a) mid b next := by
  unfold Reads
  rw [StateT.run_bind]
  rcases x.run c with e | ⟨a, mid⟩
  · constructor
    · exact fun h => nomatch h
    · rintro ⟨a, mid, h, -⟩
      cases h
  · constructor
    · exact fun h => ⟨a, mid, rfl, h⟩
    · rintro ⟨a', mid', h, hf⟩
      cases h
      exact hf

theorem reads_ofRead {f : Cursor → Except ParseError (α × Cursor)} {c next : Cursor} {a : α} :
    Reads (ofRead f) c a next ↔ f c = .ok (a, next) := by
  unfold Reads
  show ofRead f c = _ ↔ _
  unfold ofRead
  rcases f c with e | answer <;> exact .rfl

theorem reads_demand {condition : Bool} {e : ParseError} {c next : Cursor} {u : Unit} :
    Reads (demand condition e : Decoder (Except ParseError) Unit) c u next ↔
      condition = true ∧ next = c := by
  cases condition with
  | false =>
    constructor
    · exact fun h => nomatch h
    · exact fun h => nomatch h.1
  | true =>
    constructor
    · rintro ⟨⟩
      exact ⟨rfl, rfl⟩
    · rintro ⟨-, rfl⟩
      rfl

theorem reads_demand_bind {condition : Bool} {e : ParseError} {x : Decoder (Except ParseError) β}
    {c next : Cursor} {b : β} :
    Reads (do demand condition e; x) c b next ↔ condition = true ∧ Reads x c b next := by
  rw [reads_bind]
  constructor
  · rintro ⟨_, _, hdemand, hx⟩
    obtain ⟨hcondition, rfl⟩ := reads_demand.mp hdemand
    exact ⟨hcondition, hx⟩
  · rintro ⟨hcondition, hx⟩
    exact ⟨(), c, reads_demand.mpr ⟨hcondition, rfl⟩, hx⟩

/-! ## §4 Records in a row -/

section

variable {record : FixedRecord α} {words : α → List UInt16}

/-- A record is read if its bytes come next. -/
theorem reads_read (h : record.StoredAs words) (hpos : 0 < record.size) {c next : Cursor} {a : α} :
    Reads (read record) c a next ↔
      wordsBytes (words a) <+: c.remaining ∧ next = c.skip record.size := by
  -- reading depends on nothing but whether the record fits
  have hrun : (read record : Decoder (Except ParseError) α).run c =
      if h : c.position + record.size ≤ c.window.size then
        .ok (record.decodeAt c.window c.position h, c.skip record.size)
      else .error .endOfData := by
    unfold read ofRead Cursor.read
    simp only [StateT.run]
    by_cases hfit : c.position + record.size ≤ c.window.size
    · rw [dif_pos hfit, dif_pos hfit]
      rfl
    · rw [dif_neg hfit, dif_neg hfit]
      rfl
  unfold Reads
  rw [hrun]
  split
  case isTrue hfit =>
    -- the bytes of the record that is read come next
    have hnext : wordsBytes (words (record.decodeAt c.window c.position hfit)) <+: c.remaining :=
      ⟨_, (h.drop_eq c.window c.position hfit).symm⟩
    constructor
    · rintro ⟨⟩
      exact ⟨hnext, rfl⟩
    · rintro ⟨hbytes, rfl⟩
      rw [h.injective _ _ (eq_of_wordsBytes_first (h.length_eq _ _) hbytes hnext)]
  -- bytes that do not fit are not among those that are left
  case isFalse hfit =>
    refine iff_of_false (fun h => nomatch h) fun ⟨hbytes, _⟩ => hfit ?_
    have hlength := hbytes.length_le
    rw [h.length_wordsBytes, Cursor.length_remaining] at hlength
    omega

/-- Records are read if their bytes come next. If there is nothing to be read, the end of the window
    must not have been passed. -/
theorem reads_array (h : record.StoredAs words) {k : Nat} {c next : Cursor} {items : Array α}
    (hinside : c.position ≤ c.window.size ∨ 0 < k * record.size) :
    Reads (array record k) c items next ↔
      items.size = k ∧ wordsBytes (items.toList.flatMap words) <+: c.remaining ∧
        next = c.skip (k * record.size) := by
  -- and so does reading an array
  have hrun : (array record k : Decoder (Except ParseError) (Array α)).run c =
      if h : c.position + k * record.size ≤ c.window.size then
        .ok ((record.allAt c.window c.position k h).toArray, c.skip (k * record.size))
      else .error .endOfData := by
    unfold array ofRead Cursor.readArray
    simp only [StateT.run]
    by_cases hfit : c.position + k * record.size ≤ c.window.size
    · rw [dif_pos hfit, dif_pos hfit, ← FixedRecord.toArray_narrow c.window hfit]
      rfl
    · rw [dif_neg hfit, dif_neg hfit]
      rfl
  unfold Reads
  rw [hrun]
  split
  case isTrue hfit =>
    have hnext : wordsBytes ((record.allAt c.window c.position k hfit).flatMap words) <+:
        c.remaining :=
      ⟨_, (h.drop_eq_allAt c.window hfit).symm⟩
    constructor
    · rintro ⟨⟩
      exact ⟨by simp, hnext, rfl⟩
    -- arrays with the same number of items and the same bytes are the same
    · rintro ⟨hsize, hbytes, rfl⟩
      have hlength : items.toList.length = (record.allAt c.window c.position k hfit).length := by
        simp [hsize]
      have hwords : (items.toList.flatMap words).length =
          ((record.allAt c.window c.position k hfit).flatMap words).length := by
        have hitems := h.length_flatMap items.toList
        have hall := h.length_flatMap (record.allAt c.window c.position k hfit)
        rw [length_wordsBytes] at hitems hall
        rw [hlength] at hitems
        omega
      rw [← h.flatMap_injective hlength (eq_of_wordsBytes_first hwords hbytes hnext)]
  case isFalse hfit =>
    refine iff_of_false (fun h => nomatch h) fun ⟨hsize, hbytes, _⟩ => hfit ?_
    have hlength := hbytes.length_le
    rw [h.length_flatMap, Array.length_toList, hsize, Cursor.length_remaining] at hlength
    omega

/-- A word is read if its bytes come next. -/
theorem reads_u16 {c next : Cursor} {n : UInt16} :
    Reads u16 c n next ↔ wordBytes n <+: c.remaining ∧ next = c.skip 2 :=
  reads_read FixedRecord.storedAs_u16 (by decide)

/-- A number of four bytes is read if its bytes come next. -/
theorem reads_u32 {c next : Cursor} {n : UInt32} :
    Reads u32 c n next ↔ wordsBytes (FixedRecord.halves n) <+: c.remaining ∧ next = c.skip 4 :=
  reads_read FixedRecord.storedAs_u32 (by decide)

theorem reads_u16_bind {f : UInt16 → Decoder (Except ParseError) β} {c next : Cursor} {b : β} :
    Reads (u16 >>= f) c b next ↔
      ∃ n, wordBytes n <+: c.remaining ∧ Reads (f n) (c.skip 2) b next := by
  simp only [reads_bind, reads_u16, and_assoc, exists_and_left, exists_eq_left]

theorem reads_u32_bind {f : UInt32 → Decoder (Except ParseError) β} {c next : Cursor} {b : β} :
    Reads (u32 >>= f) c b next ↔
      ∃ n, wordsBytes (FixedRecord.halves n) <+: c.remaining ∧ Reads (f n) (c.skip 4) b next := by
  simp only [reads_bind, reads_u32, and_assoc, exists_and_left, exists_eq_left]

/-- Words are read if their bytes come next. -/
theorem reads_u16s {k : Nat} (hk : 0 < k) {c next : Cursor} {ns : Array UInt16} :
    Reads (u16s k) c ns next ↔
      ns.size = k ∧ wordsBytes ns.toList <+: c.remaining ∧ next = c.skip (2 * k) := by
  have hsize : k * FixedRecord.u16.size = 2 * k := Nat.mul_comm k 2
  rw [u16s, reads_array FixedRecord.storedAs_u16 (.inr (by omega)), List.flatMap_singleton', hsize]

/-- A count is read if the bytes of a word come next that is the same number. -/
theorem reads_count {c next : Cursor} {k : Nat} :
    Reads count c k next ↔
      ∃ n : UInt16, wordBytes n <+: c.remaining ∧ n.toNat = k ∧ next = c.skip 2 := by
  simp only [count, reads_bind, reads_u16, reads_pure]
  constructor
  · rintro ⟨n, _, ⟨hn, rfl⟩, rfl, rfl⟩
    exact ⟨n, hn, rfl, rfl⟩
  · rintro ⟨n, hn, rfl, rfl⟩
    exact ⟨n, _, ⟨hn, rfl⟩, rfl, rfl⟩

/-- Records with their number in front are read if there are not too many of them, and their bytes
    come next. -/
theorem reads_counted (h : record.StoredAs words) {c next : Cursor} {items : Array α} :
    Reads (do array record (← count)) c items next ↔
      items.size ≤ 0xFFFF ∧ wordsBytes (countedWords words items) <+: c.remaining ∧
        next = (c.skip 2).skip (items.size * record.size) := by
  simp only [reads_bind, reads_count, countedWords, wordsBytes_cons, prefix_append_iff,
    length_wordBytes]
  constructor
  · rintro ⟨_, _, ⟨n, hn, rfl, rfl⟩, hread⟩
    obtain ⟨hsize, hbytes, rfl⟩ :=
      (reads_array h (.inl (Cursor.position_skip_le hn Nat.two_pos))).mp hread
    have hlt := n.toNat_lt
    rw [hsize, UInt16.ofNat_toNat, ← Cursor.remaining_skip]
    exact ⟨by omega, ⟨hn, hbytes⟩, rfl⟩
  · rintro ⟨hsize, ⟨hn, hbytes⟩, rfl⟩
    rw [← Cursor.remaining_skip] at hbytes
    refine ⟨items.size, _, ⟨_, hn, Nat.mod_eq_of_lt (by omega), rfl⟩, ?_⟩
    exact (reads_array h (.inl (Cursor.position_skip_le hn Nat.two_pos))).mpr ⟨rfl, hbytes, rfl⟩

/-- What is done with records behind their number is done with the ones whose bytes come next. -/
theorem reads_counted_bind (h : record.StoredAs words) {f : Array α → Decoder (Except ParseError) β}
    {c next : Cursor} {b : β} :
    Reads (do let k ← count; let items ← array record k; f items) c b next ↔
      ∃ items : Array α,
        items.size ≤ 0xFFFF ∧ wordsBytes (countedWords words items) <+: c.remaining ∧
        Reads (f items) ((c.skip 2).skip (items.size * record.size)) b next := by
  have hassoc : (do let k ← count; let items ← array record k; f items) =
      (do array record (← count) : Decoder (Except ParseError) (Array α)) >>= f :=
    (bind_assoc _ _ _).symm
  rw [hassoc, reads_bind]
  simp only [reads_counted h]
  constructor
  · rintro ⟨items, _, ⟨hsize, hbytes, rfl⟩, hrest⟩
    exact ⟨items, hsize, hbytes, hrest⟩
  · rintro ⟨items, hsize, hbytes, hrest⟩
    exact ⟨items, _, ⟨hsize, hbytes, rfl⟩, hrest⟩

/-- It makes no difference whether something is demanded of the number of records before they are
    read, or afterwards. -/
theorem reads_counted_demand_bind (h : record.StoredAs words) {p : Nat → Bool} {e : ParseError}
    {f : Array α → Decoder (Except ParseError) β} {c next : Cursor} {b : β} :
    Reads (do let k ← count; demand (p k) e; let items ← array record k; f items) c b next ↔
      ∃ items : Array α,
        items.size ≤ 0xFFFF ∧ wordsBytes (countedWords words items) <+: c.remaining ∧
        p items.size = true ∧
        Reads (f items) ((c.skip 2).skip (items.size * record.size)) b next := by
  -- if the check fails, it does not matter how much has been read before
  have hlate :
      Reads (do let k ← count; demand (p k) e; let items ← array record k; f items) c b next ↔
        Reads (do let k ← count; let items ← array record k; demand (p items.size) e; f items)
          c b next := by
    simp only [reads_bind (x := count), reads_count, reads_demand_bind]
    refine exists_congr fun k => exists_congr fun mid => and_congr_right fun ⟨n, hn, _, hmid⟩ => ?_
    have hinside : mid.position ≤ mid.window.size := hmid ▸ Cursor.position_skip_le hn Nat.two_pos
    simp only [reads_bind (x := array record k), reads_array h (.inl hinside), reads_demand_bind]
    constructor
    · rintro ⟨hp, items, mid, ⟨hsize, hread⟩, hrest⟩
      exact ⟨items, mid, ⟨hsize, hread⟩, hsize ▸ hp, hrest⟩
    · rintro ⟨items, mid, ⟨hsize, hread⟩, hp, hrest⟩
      exact ⟨hsize ▸ hp, items, mid, ⟨hsize, hread⟩, hrest⟩
  rw [hlate, reads_counted_bind h]
  simp only [reads_demand_bind]

end

end Decoder

/-- What is decoded from a window is what is read at its beginning. -/
theorem Window.decode_eq_ok {α : Type} {w : Window} {x : Decoder (Except ParseError) α} {a : α} :
    w.decode x = .ok a ↔ ∃ next, Decoder.Reads x (.ofWindow w) a next := by
  unfold Window.decode Decoder.Reads
  rcases x.run (Cursor.ofWindow w) with e | ⟨found, next⟩
  · exact iff_of_false (fun h => nomatch h) fun ⟨_, h⟩ => nomatch h
  · constructor
    · rintro ⟨⟩
      exact ⟨next, rfl⟩
    · rintro ⟨_, ⟨⟩⟩
      rfl

end OpenTypeLayout
