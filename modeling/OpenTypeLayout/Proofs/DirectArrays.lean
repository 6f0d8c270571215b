import OpenTypeLayout.Proofs.DirectReading

/-!
# Arrays read byte by byte

The items of an array are read byte by byte as well. There are several ways to them, each with a
check of its own: an item can be asked for by its index, with or without an error for an index past
the end, and all of them can be gone through one by one.

- `DirectArray` is an array as it is kept, with the ways to its items as they are written.
- `DirectArray.Yields` says that all these ways lead to the same items, and each item is what its
  own bytes stand for.
- `ReadCall` are the reads that are made through a cursor. `ReadCall.exact_after`: after any of
  them, one after the other, the cursor is in the window or at its end. From there each read takes
  exactly the bytes that it asks for, or fails and takes none.
-/

namespace OpenTypeLayout

/-! ## §1 Ways to the items -/

/-- An array as it is kept: the window with its bytes, the number of items and the size of one. -/
structure DirectArray where
  /-- The window that holds the items. -/
  window : Window
  /-- The number of items. -/
  length : Nat
  /-- The number of bytes from one item to the next. -/
  stride : Nat

/-- Take the bytes of `n` records. None of them is read before it is asked for. -/
def CheckedReader.array {α : Type} (type : RecordType α) (n : Nat) : CheckedReader DirectArray := do
  let w ← take (n * type.size)
  return ⟨w, n, type.size⟩

namespace DirectArray

variable {α : Type} (a : DirectArray) (type : RecordType α)

/-- The item at an index, as a search looks it up. -/
def getItem (index : Nat) : Direct (Option α) :=
  if index < a.length then
    match a.window.slice (index * a.stride) a.stride with
    | .ok w => return some (← type.direct.run' (.ofWindow w))
    | .error _ => return none
  else return none

/-- The item at an index, or the error of an index past the end. -/
def readItem (index : Nat) : Direct (Except ParseError α) :=
  if index < a.length then
    match a.window.slice (index * type.size) type.size with
    | .ok w => (CheckedReader.read type).run.run' (.ofWindow w)
    | .error failure => return .error failure
  else return .error .badIndex

/-- A step through the items, of which `index` have been gone through. -/
def next (index : Nat) : Direct (Option α × Nat) :=
  if a.length ≤ index then return (none, index)
  else
    let c := Cursor.ofWindow (a.window.offset (index * a.stride))
    if c.position + a.stride ≤ c.window.size then return (some (← type.direct.run' c), index + 1)
    else return (none, index)

/-- A step through the items, each of which may fail. -/
def nextResult (index : Nat) : Direct (Option (Except ParseError α) × Nat) :=
  if index < a.length then return (some (← a.readItem type index), index + 1)
  else return (none, index)

section

variable {a type}

/-- A step that leads to an item goes on to the next index. -/
theorem next_advances {index after : Nat} {item : α}
    (h : a.next type index = some (some item, after)) : index < a.length ∧ after = index + 1 := by
  unfold next at h
  split at h
  case isTrue => cases h
  case isFalse hlt =>
    dsimp only at h
    split at h
    case isTrue =>
      obtain ⟨_, -, hstep⟩ := Option.bind_eq_some_iff.mp h
      cases hstep
      exact ⟨Nat.lt_of_not_le hlt, rfl⟩
    case isFalse => cases h

theorem nextResult_advances {index after : Nat} {result : Except ParseError α}
    (h : a.nextResult type index = some (some result, after)) :
    index < a.length ∧ after = index + 1 := by
  unfold nextResult at h
  split at h
  case isTrue hlt =>
    obtain ⟨_, -, hstep⟩ := Option.bind_eq_some_iff.mp h
    cases hstep
    exact ⟨hlt, rfl⟩
  case isFalse => cases h

end

/-- Step through the items from an index on until there is none, and collect them. -/
def toListFrom (index : Nat) : Direct (List α) :=
  match _hnext : a.next type index with
  | none => none
  | some (none, _) => return []
  | some (some item, after) => return item :: (← toListFrom after)
termination_by a.length - index
decreasing_by
  have := next_advances _hnext
  omega

/-- Step through the items from an index on until there is none or one has failed, and
    collect them. -/
def readToListFrom (index : Nat) : Direct (Except ParseError (List α)) :=
  match _hnext : a.nextResult type index with
  | none => none
  | some (none, _) => return .ok []
  | some (some (.error failure), _) => return .error failure
  | some (some (.ok item), after) => return (← readToListFrom after).map (item :: ·)
termination_by a.length - index
decreasing_by
  have := nextResult_advances _hnext
  omega

/-- All items in order. -/
def toList : Direct (List α) := a.toListFrom type 0

/-- All items in order, or the failure of the first that fails. -/
def readToList : Direct (Except ParseError (List α)) := a.readToListFrom type 0

end DirectArray

/-! ## §2 Where they lead -/

section

variable {α : Type} {type : RecordType α} {v w : Window} {place : Nat}

/-- A record that is read at the beginning of a window is the one that stands there in a
    larger window. -/
theorem RecordType.run'_direct (h : place + type.record.size ≤ w.size) (hbytes : v.bytes = w.bytes)
    (hbase : v.base = w.base + place) (hsize : type.record.size ≤ v.size) :
    type.direct.run' (.ofWindow v) = some (type.record.decodeAt w place h) := by
  have hfit : 0 + type.record.size ≤ v.size := Nat.zero_add _ ▸ hsize
  rw [DirectReader.run'_of_run (type.direct_eq hfit)]
  exact congrArg some (FixedRecord.decodeAt_congr hbytes hfit h hbase)

theorem CheckedReader.run'_read (h : place + type.record.size ≤ w.size) (hbytes : v.bytes = w.bytes)
    (hbase : v.base = w.base + place) (hsize : type.record.size ≤ v.size) :
    (read type).run.run' (.ofWindow v) = some (.ok (type.record.decodeAt w place h)) := by
  have hfit : 0 + type.record.size ≤ v.size := Nat.zero_add _ ▸ hsize
  rw [DirectReader.run'_of_run (run_read_of_le type hfit)]
  exact congrArg (fun a => some (Except.ok a)) (FixedRecord.decodeAt_congr hbytes hfit h hbase)

end

namespace DirectArray

variable {α : Type} {type : RecordType α} {w : Window} {n : Nat} (h : n * type.record.size ≤ w.size)

include h in
theorem fits_of_lt {i : Nat} (hi : i < n) : i * type.record.size + type.record.size ≤ w.size :=
  RecordArray.item_fits ⟨w, n, type.record, h⟩ hi

theorem getItem_eq (i : Nat) :
    DirectArray.getItem ⟨w, n, type.size⟩ type i =
      some (RecordArray.get? ⟨w, n, type.record, h⟩ i) := by
  rw [getItem, RecordArray.get?, ← type.size_record]
  by_cases hi : i < n
  · have hfit := fits_of_lt h hi
    rw [if_pos hi, dif_pos hi, Window.slice_of_le hfit]
    have hsize := Nat.le_of_eq (Window.size_narrow hfit).symm
    have hread := RecordType.run'_direct (v := w.narrow _ _) hfit rfl rfl hsize
    dsimp only
    rw [hread]
    rfl
  · rw [if_neg hi, dif_neg hi]
    rfl

theorem readItem_eq (i : Nat) :
    DirectArray.readItem ⟨w, n, type.size⟩ type i =
      some (RecordArray.readItem ⟨w, n, type.record, h⟩ i) := by
  rw [readItem, RecordArray.readItem, ← type.size_record]
  by_cases hi : i < n
  · have hfit := fits_of_lt h hi
    rw [if_pos hi, dif_pos hi, Window.slice_of_le hfit]
    have hsize := Nat.le_of_eq (Window.size_narrow hfit).symm
    exact CheckedReader.run'_read (v := w.narrow _ _) hfit rfl rfl hsize
  · rw [if_neg hi, dif_neg hi]
    rfl

theorem next_eq (i : Nat) :
    DirectArray.next ⟨w, n, type.size⟩ type i =
      some (RecordArray.get? ⟨w, n, type.record, h⟩ i, if i < n then i + 1 else i) := by
  rw [next, RecordArray.get?, ← type.size_record]
  by_cases hi : i < n
  · have hfit := fits_of_lt h hi
    have hsize : type.record.size ≤ (w.offset (i * type.record.size)).size := by
      rw [Window.size_offset]
      omega
    -- the window of the item goes on to the end of the array, and so it has at least the bytes of
    -- the item
    have hread := RecordType.run'_direct (v := w.offset (i * type.record.size)) hfit rfl rfl hsize
    have havail : (Cursor.ofWindow (w.offset (i * type.record.size))).position + type.record.size ≤
        (Cursor.ofWindow (w.offset (i * type.record.size))).window.size :=
      Nat.le_trans (Nat.le_of_eq (Nat.zero_add _)) hsize
    rw [if_neg (Nat.not_le.mpr hi), dif_pos hi, if_pos hi]
    dsimp only
    rw [if_pos havail, hread]
    rfl
  · rw [if_pos (Nat.not_lt.mp hi), dif_neg hi, if_neg hi]
    rfl

theorem nextResult_eq (i : Nat) :
    DirectArray.nextResult ⟨w, n, type.size⟩ type i =
      some ((RecordArray.get? ⟨w, n, type.record, h⟩ i).map .ok, if i < n then i + 1 else i) := by
  rw [nextResult, readItem_eq h, RecordArray.readItem, RecordArray.get?]
  by_cases hi : i < n
  · rw [if_pos hi, if_pos hi, dif_pos hi, dif_pos hi]
    rfl
  · rw [if_neg hi, if_neg hi, dif_neg hi]
    rfl

end DirectArray

/-! ## §3 Going through the items -/

namespace DirectArray

variable {α : Type} {a : DirectArray} {type : RecordType α} {items : List α}

/-- What is left to go through is collected, whatever the index. -/
theorem toListFrom_eq
    (hnext : ∀ i, a.next type i = some (items[i]?, if i < items.length then i + 1 else i))
    (i : Nat) : a.toListFrom type i = some (items.drop i) := by
  fun_induction toListFrom a type i with
  | case1 i h => cases h.symm.trans (hnext i)
  | case2 i after h =>
    obtain ⟨hnone, -⟩ := Prod.mk.inj (Option.some.inj (h.symm.trans (hnext i)))
    rw [List.drop_eq_nil_of_le (List.getElem?_eq_none_iff.mp hnone.symm)]
    rfl
  | case3 i item after h ih =>
    obtain ⟨hitem, rfl⟩ := Prod.mk.inj (Option.some.inj (h.symm.trans (hnext i)))
    obtain ⟨hi, rfl⟩ := List.getElem?_eq_some_iff.mp hitem.symm
    rw [ih, if_pos hi, List.drop_eq_getElem_cons hi]
    rfl

/-- Where no item fails, all of them are collected. -/
theorem readToListFrom_eq
    (hnext : ∀ i, a.nextResult type i =
      some (items[i]?.map .ok, if i < items.length then i + 1 else i)) (i : Nat) :
    a.readToListFrom type i = some (.ok (items.drop i)) := by
  fun_induction readToListFrom a type i with
  | case1 i h => cases h.symm.trans (hnext i)
  | case2 i after h =>
    obtain ⟨hnone, -⟩ := Prod.mk.inj (Option.some.inj (h.symm.trans (hnext i)))
    rw [List.drop_eq_nil_of_le
        (List.getElem?_eq_none_iff.mp (Option.map_eq_none_iff.mp hnone.symm))]
    rfl
  | case3 i failure after h =>
    obtain ⟨hitem, -⟩ := Prod.mk.inj (Option.some.inj (h.symm.trans (hnext i)))
    obtain ⟨_, -, ⟨⟩⟩ := Option.map_eq_some_iff.mp hitem.symm
  | case4 i item after h ih =>
    obtain ⟨hitem, rfl⟩ := Prod.mk.inj (Option.some.inj (h.symm.trans (hnext i)))
    obtain ⟨_, hget, ⟨⟩⟩ := Option.map_eq_some_iff.mp hitem.symm
    obtain ⟨hi, rfl⟩ := List.getElem?_eq_some_iff.mp hget
    rw [ih, if_pos hi, List.drop_eq_getElem_cons hi]
    rfl

end DirectArray

/-- Every way to the items of an array leads to the same items, and each item is what its own bytes
    stand for. -/
structure DirectArray.Yields {α : Type} (a : DirectArray) (type : RecordType α) (items : List α) :
    Prop where
  length_eq : a.length = items.length
  value? : ∀ i < a.length, type.value? (a.window.bytesAt (i * type.size) type.size) = items[i]?
  getItem : ∀ i, a.getItem type i = some items[i]?
  readItem : ∀ i, a.readItem type i = some (items[i]?.elim (.error .badIndex) .ok)
  next : ∀ i, a.next type i = some (items[i]?, if i < items.length then i + 1 else i)
  nextResult : ∀ i,
    a.nextResult type i = some (items[i]?.map .ok, if i < items.length then i + 1 else i)
  toList : a.toList type = some items
  readToList : a.readToList type = some (.ok items)

/-- An array that can be decoded has these items. -/
structure RecordArray.Holds {α : Type} (r : RecordArray α) (items : List α) : Prop where
  get? : ∀ i, r.get? i = items[i]?
  readItem : ∀ i, r.readItem i = items[i]?.elim (.error .badIndex) .ok
  toArray : r.toArray = items.toArray

namespace RecordArray

variable {α : Type} (r : RecordArray α)

theorem length_toArray : r.toArray.toList.length = r.length := by
  rw [Array.length_toList, toArray, Array.size_ofFn]

theorem get?_eq (i : Nat) : r.get? i = r.toArray.toList[i]? := by
  rw [get?, Array.getElem?_toList, toArray, Array.getElem?_ofFn]

theorem holds_toArray : r.Holds r.toArray.toList where
  get? := r.get?_eq
  readItem i := by
    rw [← r.get?_eq, readItem, get?]
    split <;> rfl
  toArray := rfl

end RecordArray

/-- The bytes of an array hold the items that can be decoded from them. -/
theorem DirectArray.yields {α : Type} {type : RecordType α} {w : Window} {n : Nat}
    (h : n * type.record.size ≤ w.size) :
    DirectArray.Yields ⟨w, n, type.size⟩ type
      (RecordArray.toArray ⟨w, n, type.record, h⟩).toList where
  length_eq := (RecordArray.length_toArray ⟨w, n, type.record, h⟩).symm
  value? i hi := by
    have hfit := fits_of_lt h hi
    rw [← RecordArray.get?_eq, RecordArray.get?, dif_pos hi, RecordArray.get,
      ← type.value?_eq w hfit, type.size_record]
  getItem i := by rw [getItem_eq h, RecordArray.get?_eq]
  readItem i := by rw [readItem_eq h, (RecordArray.holds_toArray _).readItem]
  next i := by rw [next_eq h, RecordArray.get?_eq, RecordArray.length_toArray]
  nextResult i := by rw [nextResult_eq h, RecordArray.get?_eq, RecordArray.length_toArray]
  toList :=
    toListFrom_eq (fun i => by rw [next_eq h, RecordArray.get?_eq, RecordArray.length_toArray]) 0
  readToList :=
    readToListFrom_eq
      (fun i => by rw [nextResult_eq h, RecordArray.get?_eq, RecordArray.length_toArray]) 0

/-! ## §4 Reads one after the other -/

/-- A read through a cursor. -/
inductive ReadCall : Type 1 where
  /-- Read a record. -/
  | read {α : Type} (type : RecordType α)
  /-- Read some records of one kind. -/
  | array {α : Type} (type : RecordType α) (n : Nat)
  /-- Take some bytes as a window of their own. -/
  | take (n : Nat)

/-- What a read leaves of a cursor. What has been read is dropped, and so is a failure. -/
def ReadCall.run : ReadCall → DirectReader Unit
  | .read type => discard (CheckedReader.read type).run
  | .array type n => discard (CheckedReader.array type n).run
  | .take n => discard (CheckedReader.take n).run

/-- A read takes the next `n` bytes if there are as many, and leaves the cursor behind them. If not,
    it fails and leaves the cursor where it is. The same holds of the decoder, and what they answer
    is related. -/
structure TakesExactly {α β : Type} (n : Nat) (c : Cursor) (direct : CheckedReader α)
    (decoder : Cursor → Except ParseError (β × Cursor)) (R : α → β → Prop) : Prop where
  inside : c.position + n ≤ c.window.size →
    ∃ a b, direct.run.run c = some (.ok a, c.skip n) ∧ decoder c = .ok (b, c.skip n) ∧ R a b
  outside : c.window.size < c.position + n →
    direct.run.run c = some (.error .endOfData, c) ∧ decoder c = .error .endOfData

theorem TakesExactly.leaves {α β : Type} {n : Nat} {c : Cursor} {direct : CheckedReader α}
    {decoder : Cursor → Except ParseError (β × Cursor)} {R : α → β → Prop}
    (h : TakesExactly n c direct decoder R) (hc : c.position ≤ c.window.size) :
    ∃ next, (discard direct.run : DirectReader Unit).run c = some ((), next) ∧
      next.window = c.window ∧ next.position ≤ c.window.size := by
  rcases Nat.lt_or_ge c.window.size (c.position + n) with hlt | hge
  · exact ⟨c, DirectReader.run_map_some (h.outside hlt).1 _, rfl, hc⟩
  · obtain ⟨_, _, hrun, -⟩ := h.inside hge
    exact ⟨c.skip n, DirectReader.run_map_some hrun _, rfl, hge⟩

/-- A read from a cursor is exact. What is read are the bytes from the cursor on. -/
def ReadCall.ExactAt (c : Cursor) : ReadCall → Prop
  | .read type =>
    TakesExactly type.size c (CheckedReader.read type) (Cursor.read type.record) fun a b =>
      a = b ∧ type.value? (c.window.bytesAt c.position type.size) = some a
  | .array type n =>
    TakesExactly (n * type.size) c (CheckedReader.array type n) (Cursor.readArray type.record n)
      fun a r => a.window.toList = c.window.bytesAt c.position (n * type.size) ∧
        ∃ items, items.length = n ∧ a.Yields type items ∧ r.Holds items
  | .take n =>
    TakesExactly n c (CheckedReader.take n) (Cursor.take n) fun v w =>
      v = w ∧ v.toList = c.window.bytesAt c.position n

namespace CheckedReader

theorem run_array_of_le {α : Type} (type : RecordType α) {n : Nat} {c : Cursor}
    (h : c.position + n * type.record.size ≤ c.window.size) :
    (array type n).run.run c =
      some (.ok ⟨c.window.narrow c.position (n * type.record.size), n, type.size⟩,
        c.skip (n * type.record.size)) := by
  rw [array, ← type.size_record, run_bind_ok (run_take_of_le h)]
  rfl

theorem run_array_of_lt {α : Type} (type : RecordType α) {n : Nat} {c : Cursor}
    (hc : c.position ≤ c.window.size) (h : c.window.size < c.position + n * type.record.size) :
    (array type n).run.run c = some (.error .endOfData, c) := by
  rw [array, ← type.size_record, run_bind_error (run_take_of_lt hc h)]

end CheckedReader

namespace ReadCall

variable {c : Cursor}

open CheckedReader

/-- From inside the window, or from its end, each read is exact. -/
theorem exactAt (call : ReadCall) (hc : c.position ≤ c.window.size) : call.ExactAt c := by
  cases call with
  | read type =>
    rw [ExactAt, ← type.size_record]
    refine ⟨fun h => ?_, fun h => ?_⟩
    · exact ⟨_, _, run_read_of_le type h, dif_pos h, rfl,
        type.size_record ▸ type.value?_eq c.window h⟩
    · exact ⟨run_read_of_lt type h, dif_neg (Nat.not_le.mpr h)⟩
  | array type n =>
    rw [ExactAt, ← type.size_record]
    refine ⟨fun h => ?_, fun h => ?_⟩
    · have hsize := Nat.le_of_eq (Window.size_narrow h).symm
      exact ⟨_, _, run_array_of_le type h, dif_pos h, Window.toList_narrow h, _,
        RecordArray.length_toArray _, DirectArray.yields hsize, RecordArray.holds_toArray _⟩
    · exact ⟨run_array_of_lt type hc h, dif_neg (Nat.not_le.mpr h)⟩
  | take n =>
    refine ⟨fun h => ?_, fun h => ?_⟩
    · exact ⟨_, _, run_take_of_le h, if_pos h, rfl, Window.toList_narrow h⟩
    · exact ⟨run_take_of_lt hc h, if_neg (Nat.not_le.mpr h)⟩

/-- A read that is exact leaves a cursor that is in the same window, or at its end. -/
theorem run_of_exactAt {call : ReadCall} (h : call.ExactAt c) (hc : c.position ≤ c.window.size) :
    ∃ next, call.run.run c = some ((), next) ∧ next.window = c.window ∧
      next.position ≤ c.window.size := by
  cases call with
  | read type => exact h.leaves hc
  | array type n => exact h.leaves hc
  | take n => exact h.leaves hc

/-- Reads one after the other stay in range, and leave a cursor in the same window, or
    at its end. -/
theorem run_all (calls : List ReadCall) (hc : c.position ≤ c.window.size) :
    ∃ next, (calls.forM run).run c = some ((), next) ∧ next.window = c.window ∧
      next.position ≤ c.window.size := by
  -- what carries the induction is that a cursor stays in its window, whether a read has failed or
  -- not
  induction calls generalizing c with
  | nil => exact ⟨c, rfl, rfl, hc⟩
  | cons call calls ih =>
    obtain ⟨mid, hcall, hwindow, hmid⟩ := run_of_exactAt (call.exactAt hc) hc
    obtain ⟨next, hcalls, hnext⟩ := ih (hwindow ▸ hmid)
    exact ⟨next, (DirectReader.run_bind_some hcall _).trans hcalls, hwindow ▸ hnext⟩

/-- After any reads in a window, one after the other, the cursor is in this window or at its end,
    and from there each further read is exact. -/
theorem exact_after (w : Window) (calls : List ReadCall) :
    ∃ c, (calls.forM run).run (.ofWindow w) = some ((), c) ∧ c.window = w ∧ c.position ≤ w.size ∧
      ∀ call : ReadCall, call.ExactAt c := by
  obtain ⟨c, hcalls, hwindow, hc⟩ := run_all calls (c := .ofWindow w) (Nat.zero_le _)
  exact ⟨c, hcalls, hwindow, hc, fun call => call.exactAt (hwindow.symm ▸ hc)⟩

end ReadCall

end OpenTypeLayout
