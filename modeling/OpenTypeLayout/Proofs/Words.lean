import OpenTypeLayout.Bytes.Cursor
import OpenTypeLayout.Bytes.Writer

/-!
# Words in bytes

A word is stored as two bytes, the more significant one first. Tables are written and read word by
word.

- `wordsBytes` are the bytes of a list of words. Different words have different bytes.
- `Window.toList` are the bytes of a window and `Cursor.remaining` those from a cursor on.
- `bitAt` looks at single bits of a list of bytes.
-/

namespace OpenTypeLayout

/-! ## §1 Words -/

/-- The two bytes of a word, the more significant one first. -/
def wordBytes (n : UInt16) : List UInt8 :=
  [UInt8.ofNat (n.toNat / 256), UInt8.ofNat (n.toNat % 256)]

/-- The bytes of words, one word behind the other. -/
def wordsBytes (ns : List UInt16) : List UInt8 := ns.flatMap wordBytes

/-- The word with the given two bytes. -/
def wordOf (high low : UInt8) : UInt16 := UInt16.ofNat (FixedRecord.bigEndian [high, low])

@[simp] theorem wordsBytes_nil : wordsBytes [] = [] := rfl

@[simp] theorem wordsBytes_cons (n : UInt16) (ns : List UInt16) :
    wordsBytes (n :: ns) = wordBytes n ++ wordsBytes ns := rfl

@[simp] theorem length_wordBytes (n : UInt16) : (wordBytes n).length = 2 := rfl

theorem wordsBytes_append (ns ms : List UInt16) :
    wordsBytes (ns ++ ms) = wordsBytes ns ++ wordsBytes ms := List.flatMap_append

@[simp] theorem length_wordsBytes (ns : List UInt16) : (wordsBytes ns).length = 2 * ns.length := by
  induction ns with
  | nil => rfl
  | cons n ns ih =>
    rw [wordsBytes_cons, List.length_append, length_wordBytes, ih, List.length_cons]
    omega

theorem toNat_wordOf (high low : UInt8) :
    (wordOf high low).toNat = high.toNat * 256 + low.toNat := by
  have := high.toNat_lt
  have := low.toNat_lt
  have hvalue : FixedRecord.bigEndian [high, low] = high.toNat * 256 + low.toNat := by
    simp [FixedRecord.bigEndian, ofDigits]
  rw [wordOf, hvalue, UInt16.toNat_ofNat', Nat.mod_eq_of_lt (by omega)]

/-- Two bytes are those of the word that is read from them. -/
theorem wordBytes_wordOf (high low : UInt8) : wordBytes (wordOf high low) = [high, low] := by
  have := low.toNat_lt
  rw [wordBytes, toNat_wordOf, show (high.toNat * 256 + low.toNat) / 256 = high.toNat by omega,
    show (high.toNat * 256 + low.toNat) % 256 = low.toNat by omega, UInt8.ofNat_toNat,
    UInt8.ofNat_toNat]

theorem wordBytes_injective {n m : UInt16} (h : wordBytes n = wordBytes m) : n = m := by
  have hn := n.toNat_lt
  have hm := m.toNat_lt
  obtain ⟨hhigh, hlow⟩ := List.cons_eq_cons.mp h
  have hhigh := congrArg UInt8.toNat hhigh
  have hlow := congrArg UInt8.toNat (List.cons_eq_cons.mp hlow).1
  simp only [UInt8.toNat_ofNat'] at hhigh hlow
  exact UInt16.toNat_inj.mp (by omega)

theorem wordsBytes_injective {ns ms : List UInt16} (h : wordsBytes ns = wordsBytes ms) :
    ns = ms := by
  induction ns generalizing ms with
  | nil =>
    cases ms with
    | nil => rfl
    | cons => cases h
  | cons n ns ih =>
    cases ms with
    | nil => cases h
    | cons m ms =>
      obtain ⟨hfirst, hrest⟩ := List.append_inj h rfl
      rw [wordBytes_injective hfirst, ih hrest]

/-! ## §2 Writing -/

namespace Writer

theorem toList_putU16 (w : Writer) (n : UInt16) :
    (w.putU16 n).bytes.data.toList = w.bytes.data.toList ++ wordBytes n := by
  simp [putU16, wordBytes]

theorem toList_putU16s (w : Writer) (ns : Array UInt16) :
    (w.putU16s ns).bytes.data.toList = w.bytes.data.toList ++ wordsBytes ns.toList := by
  rw [putU16s, ← Array.foldl_toList]
  generalize ns.toList = ns
  induction ns generalizing w with
  | nil => rw [List.foldl_nil, wordsBytes_nil, List.append_nil]
  | cons n ns ih => rw [List.foldl_cons, ih, toList_putU16, wordsBytes_cons, List.append_assoc]

theorem toList_putBytes (w : Writer) (data : ByteArray) :
    (w.putBytes data).bytes.data.toList = w.bytes.data.toList ++ data.data.toList := by
  simp [putBytes, ByteArray.data_append]

end Writer

/-! ## §3 Bytes of a window -/

namespace Window

@[simp] theorem length_toList (w : Window) : w.toList.length = w.size := List.length_ofFn

/-- A byte depends on nothing but the data and its place in them. -/
theorem get_congr {v w : Window} (hbytes : v.bytes = w.bytes) {i j : Nat} (hi : i < v.size)
    (hj : j < w.size) (hplace : v.base + i = w.base + j) : v.get i hi = w.get j hj := by
  obtain ⟨bytes, base, stop, hstop⟩ := v
  obtain ⟨bytes', base', stop', hstop'⟩ := w
  cases hbytes
  have hplace : base + i = base' + j := hplace
  unfold get
  congr 1

theorem getElem?_toList (w : Window) {i : Nat} (h : i < w.size) :
    w.toList[i]? = some (w.get i h) := by
  rw [toList, List.getElem?_ofFn, dif_pos h]

theorem toList_ofBytes (bytes : ByteArray) : (ofBytes bytes).toList = bytes.data.toList := by
  apply List.ext_getElem?
  intro i
  by_cases h : i < bytes.size
  · have hbyte : bytes.data.toList[0 + i]? = some ((ofBytes bytes).get i (by simpa using h)) :=
      List.getElem?_eq_getElem (by simpa using h)
    rw [getElem?_toList _ (by simpa using h), ← hbyte, Nat.zero_add]
  · rw [List.getElem?_eq_none (by simpa using h), List.getElem?_eq_none (by simpa using h)]

theorem toList_offset (w : Window) (n : Nat) : (w.offset n).toList = w.toList.drop n := by
  apply List.ext_getElem?
  intro i
  rw [List.getElem?_drop]
  by_cases h : n + i < w.size
  · rw [getElem?_toList _ h, getElem?_toList _ (by simp; omega)]
    have hbytes : (w.offset n).bytes = w.bytes := rfl
    exact congrArg some (get_congr hbytes _ _ (Nat.add_assoc w.base n i))
  · rw [List.getElem?_eq_none (by simp; omega), List.getElem?_eq_none (by simpa using h)]

end Window

/-- The bytes from a cursor on. -/
def Cursor.remaining (c : Cursor) : List UInt8 := c.window.toList.drop c.position

/-- The cursor behind the next `n` bytes. -/
def Cursor.skip (c : Cursor) (n : Nat) : Cursor := ⟨c.window, c.position + n⟩

@[simp] theorem Cursor.remaining_ofWindow (w : Window) : (ofWindow w).remaining = w.toList :=
  List.drop_zero

@[simp] theorem Cursor.length_remaining (c : Cursor) :
    c.remaining.length = c.window.size - c.position := by
  simp [remaining]

theorem Cursor.remaining_skip (c : Cursor) (n : Nat) :
    (c.skip n).remaining = c.remaining.drop n := by
  rw [remaining, remaining, List.drop_drop, skip]

theorem Cursor.skip_skip (c : Cursor) (n m : Nat) : (c.skip n).skip m = c.skip (n + m) := by
  rw [skip, skip, skip, Nat.add_assoc]

/-- Behind bytes that come next a cursor is still inside its window, or at its end. -/
theorem Cursor.position_skip_le {c : Cursor} {bytes : List UInt8} (h : bytes <+: c.remaining)
    (hpos : 0 < bytes.length) : (c.skip bytes.length).position ≤ c.window.size := by
  have hlength := h.length_le
  rw [length_remaining] at hlength
  show c.position + bytes.length ≤ c.window.size
  omega

theorem Window.drop_eq_cons (w : Window) {i : Nat} (h : i < w.size) :
    w.toList.drop i = w.get i h :: w.toList.drop (i + 1) := by
  obtain ⟨hlt, hget⟩ := List.getElem?_eq_some_iff.mp (w.getElem?_toList h)
  rw [List.drop_eq_getElem_cons hlt, hget]

theorem Window.get_narrow (w : Window) {place length i : Nat} (h : i < (w.narrow place length).size)
    (hw : place + i < w.size) : (w.narrow place length).get i h = w.get (place + i) hw := by
  have hbytes : (w.narrow place length).bytes = w.bytes := rfl
  exact get_congr hbytes h hw (Nat.add_assoc w.base place i)

/-- The `n` bytes from a place on, or as many of them as the window has. -/
def Window.bytesAt (w : Window) (place n : Nat) : List UInt8 := (w.toList.drop place).take n

theorem Window.length_bytesAt {w : Window} {place n : Nat} (h : place + n ≤ w.size) :
    (w.bytesAt place n).length = n := by
  rw [bytesAt, List.length_take, List.length_drop, length_toList]
  omega

theorem Window.bytesAt_succ {w : Window} {place n : Nat} (h : place < w.size) :
    w.bytesAt place (n + 1) = w.get place h :: w.bytesAt (place + 1) n := by
  rw [bytesAt, w.drop_eq_cons h, List.take_succ_cons, bytesAt]

/-- What comes first of a stretch. -/
theorem Window.take_bytesAt (w : Window) (place n m : Nat) :
    (w.bytesAt place (n + m)).take n = w.bytesAt place n := by
  rw [bytesAt, List.take_take, Nat.min_eq_left (Nat.le_add_right n m), bytesAt]

/-- What is left of a stretch. -/
theorem Window.drop_bytesAt (w : Window) (place n m : Nat) :
    (w.bytesAt place (n + m)).drop n = w.bytesAt (place + n) m := by
  rw [bytesAt, List.drop_take, List.drop_drop, Nat.add_sub_cancel_left, bytesAt]

/-- The bytes of a stretch that is cut out of a window. -/
theorem Window.toList_narrow {w : Window} {place n : Nat} (h : place + n ≤ w.size) :
    (w.narrow place n).toList = w.bytesAt place n := by
  apply List.ext_getElem?
  intro i
  by_cases hi : i < n
  · have hnarrow : i < (w.narrow place n).size := (size_narrow h).symm ▸ hi
    rw [getElem?_toList _ hnarrow, w.get_narrow hnarrow (by omega), bytesAt,
      List.getElem?_take_of_lt hi, List.getElem?_drop, getElem?_toList]
  · rw [List.getElem?_eq_none (by rw [length_toList, size_narrow h]; omega),
      List.getElem?_eq_none (by rw [length_bytesAt h]; omega)]

/-- Of what comes next, the words are known that are as many as others that come next. -/
theorem eq_of_wordsBytes_first {ns ms : List UInt16} {bytes : List UInt8}
    (hlength : ns.length = ms.length) (hns : wordsBytes ns <+: bytes)
    (hms : wordsBytes ms <+: bytes) : ns = ms := by
  obtain ⟨t, ht⟩ := hns
  obtain ⟨u, hu⟩ := hms
  refine wordsBytes_injective (List.append_inj_left (ht.trans hu.symm) ?_)
  rw [length_wordsBytes, length_wordsBytes, hlength]

/-- Bytes that come one behind the other come first if the former do, and the latter behind them. -/
theorem prefix_append_iff {bytes more whole : List UInt8} :
    bytes ++ more <+: whole ↔ bytes <+: whole ∧ more <+: whole.drop bytes.length := by
  constructor
  · rintro ⟨rest, rfl⟩
    rw [List.append_assoc, List.drop_left]
    exact ⟨List.prefix_append _ _, List.prefix_append _ _⟩
  · rintro ⟨⟨rest, rfl⟩, hmore⟩
    rw [List.drop_left] at hmore
    exact (List.prefix_append_right_inj bytes).mpr hmore

/-! ## §4 Bits -/

/-- The bit at a place of some bytes, counted from the most significant bit of the first byte. -/
def bitAt (bytes : List UInt8) (place : Nat) : Bool :=
  (bytes[place / 8]?.map fun byte => byte.toNat.testBit (7 - place % 8)).getD false

/-- What comes first has the same bits. -/
theorem bitAt_of_first {bytes whole : List UInt8} (h : bytes <+: whole) {place : Nat}
    (hplace : place < 8 * bytes.length) : bitAt whole place = bitAt bytes place := by
  obtain ⟨rest, rfl⟩ := h
  rw [bitAt, List.getElem?_append_left (by omega), bitAt]

theorem bitAt_wordBytes (n : UInt16) (rest : List UInt8) {place : Nat} (hplace : place < 16) :
    bitAt (wordBytes n ++ rest) place = n.toNat.testBit (15 - place) := by
  have hn := n.toNat_lt
  -- the high byte comes first, and its bits are those from 8 on
  rcases Nat.lt_or_ge place 8 with hlt | hge
  · have hbyte : (wordBytes n ++ rest)[place / 8]? = some (UInt8.ofNat (n.toNat / 256)) := by
      rw [Nat.div_eq_of_lt hlt]
      rfl
    have hhigh : (UInt8.ofNat (n.toNat / 256)).toNat = n.toNat / 256 := by
      rw [UInt8.toNat_ofNat', Nat.mod_eq_of_lt (by omega)]
    rw [bitAt, hbyte, Option.map_some, Option.getD_some, hhigh, show 256 = 2 ^ 8 from rfl,
      Nat.testBit_div_two_pow]
    congr 1
    omega
  -- the low byte has the bits below 8
  · have hbyte : (wordBytes n ++ rest)[place / 8]? = some (UInt8.ofNat (n.toNat % 256)) := by
      rw [show place / 8 = 1 by omega]
      rfl
    have hlow : (UInt8.ofNat (n.toNat % 256)).toNat = n.toNat % 256 := by
      rw [UInt8.toNat_ofNat', Nat.mod_eq_of_lt (by omega)]
    rw [bitAt, hbyte, Option.map_some, Option.getD_some, hlow, show 256 = 2 ^ 8 from rfl,
      Nat.testBit_mod_two_pow, decide_eq_true (by omega), Bool.true_and]
    congr 1
    omega

/-- The bits of words in order. -/
theorem bitAt_wordsBytes (ns : List UInt16) (place : Nat) :
    bitAt (wordsBytes ns) place =
      (ns[place / 16]?.map fun n => n.toNat.testBit (15 - place % 16)).getD false := by
  induction ns generalizing place with
  | nil => simp [bitAt]
  | cons n ns ih =>
    rcases Nat.lt_or_ge place 16 with hlt | hge
    · rw [wordsBytes_cons, bitAt_wordBytes n _ hlt, Nat.div_eq_of_lt hlt, Nat.mod_eq_of_lt hlt]
      rfl
    · obtain ⟨place, rfl⟩ := Nat.exists_eq_add_of_le' hge
      have hshift : bitAt (wordsBytes (n :: ns)) (place + 16) = bitAt (wordsBytes ns) place := by
        rw [bitAt, bitAt, show (place + 16) / 8 = place / 8 + 2 by omega,
          show (place + 16) % 8 = place % 8 by omega]
        rfl
      rw [hshift, ih, show (place + 16) / 16 = place / 16 + 1 by omega,
        show (place + 16) % 16 = place % 16 by omega, List.getElem?_cons_succ]

end OpenTypeLayout
