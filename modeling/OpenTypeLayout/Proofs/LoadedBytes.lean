import OpenTypeLayout.Positioning.Subtable
import OpenTypeLayout.Proofs.Loading
import OpenTypeLayout.Proofs.StoredRecords

/-!
# Loads and the bytes that they read

What a load answers depends on bytes at known places. A load may be one that shares tables, so what
is answered is said by a condition on all answers, and where they have been read from by the cursor
that is left.

- `Cursor.Behind` holds of a cursor behind words with which a window begins.
- `Decoder.EnsuresFrom` is `Ensures` for a decoder that begins at a known cursor. The condition is
  one of the answer and of the cursor behind it. There is one lemma for each way in which decoders
  are put together.
- `Decoder.ensuresFrom_word` and `Decoder.ensuresFrom_array` read words and records behind words.
- `Decoder.ensuresFrom_records` says which bytes each of some records is decoded from, and
  `Decoder.record_of_row` does so for records in rows.
-/

namespace OpenTypeLayout

/-! ## §1 Behind words -/

/-- A window begins with some words, and the cursor is behind them. -/
structure Cursor.Behind (c : Cursor) (w : Window) (ns : List UInt16) : Prop where
  eq : c = ⟨w, 2 * ns.length⟩
  bytes : wordsBytes ns <+: w.toList

namespace Cursor.Behind

variable {c : Cursor} {w : Window} {ns : List UInt16}

theorem ofWindow (w : Window) : (Cursor.ofWindow w).Behind w [] := ⟨rfl, List.nil_prefix⟩

theorem window_eq (h : c.Behind w ns) : c.window = w := h.eq ▸ rfl

theorem position_eq (h : c.Behind w ns) : c.position = 2 * ns.length := h.eq ▸ rfl

/-- Behind words that come next, all of them have been read. -/
theorem skip (h : c.Behind w ns) {ms : List UInt16} (hms : wordsBytes ms <+: c.remaining) :
    (c.skip (2 * ms.length)).Behind w (ns ++ ms) := by
  obtain ⟨rfl, hns⟩ := h
  refine ⟨?_, ?_⟩
  · rw [Cursor.skip, List.length_append, Nat.mul_add]
  · rw [wordsBytes_append, prefix_append_iff, length_wordsBytes]
    exact ⟨hns, hms⟩

end Cursor.Behind

/-- An offset leads to what is there, or to nothing if it is zero. -/
def Window.Leads {α : Type} (w : Window) (n : UInt16) (R : Window → α → Prop) : Option α → Prop
  | none => n = 0
  | some a => n ≠ 0 ∧ R (w.offset n.toNat) a

/-! ## §2 Decoders from a cursor -/

namespace Decoder

section

variable {m : Type → Type} [Monad m] [MonadExceptOf ParseError m] [Loader m]
variable {α β : Type} {c : Cursor} {P : α → Cursor → Prop} {Q : β → Cursor → Prop}

/-- What a decoder answers from a cursor on, and the cursor that it leaves off at. -/
def EnsuresFrom (c : Cursor) (x : Decoder m α) (P : α → Cursor → Prop) : Prop :=
  Ensures (x.run c) fun answer => P answer.1 answer.2

/-- What holds of all answers holds of those from any cursor on. -/
theorem ensuresFrom_of_ensures {x : Decoder m α} {P : α → Prop} (h : Ensures x P) :
    EnsuresFrom c x fun a _ => P a :=
  ensures_run_iff.mp h c

theorem ensuresFrom_pure {a : α} (h : P a c) : EnsuresFrom c (pure a : Decoder m α) P :=
  ensures_pure h

theorem ensuresFrom_throw (e : ParseError) : EnsuresFrom c (throw e : Decoder m α) P :=
  ensures_bind (ensures_throw e) fun _ h => h

/-- What comes next goes on from where the first decoder has left off. -/
theorem ensuresFrom_bind {x : Decoder m α} {f : α → Decoder m β} (hx : EnsuresFrom c x P)
    (hf : ∀ a next, P a next → EnsuresFrom next (f a) Q) : EnsuresFrom c (x >>= f) Q :=
  ensures_bind hx fun answer hanswer => hf answer.1 answer.2 hanswer

theorem ensuresFrom_lift {x : m α} {P : α → Prop} (h : Ensures x P) :
    EnsuresFrom c (StateT.lift x : Decoder m α) fun a next => P a ∧ next = c :=
  ensures_bind h fun _ ha => ensures_pure ⟨ha, rfl⟩

theorem ensuresFrom_ofExcept (r : Except ParseError α) :
    EnsuresFrom c (MonadExcept.ofExcept r : Decoder m α) fun a next => r = .ok a ∧ next = c := by
  cases r with
  | error e => exact ensuresFrom_throw e
  | ok a => exact ensuresFrom_pure ⟨rfl, rfl⟩

theorem ensuresFrom_demand {condition : Bool} {e : ParseError} :
    EnsuresFrom c (demand condition e : Decoder m Unit)
      fun _ next => condition = true ∧ next = c := by
  unfold demand
  split
  case isTrue h => exact ensuresFrom_pure ⟨h, rfl⟩
  case isFalse => exact ensuresFrom_throw e

theorem ensuresFrom_lift_bind {x : m α} {f : α → Decoder m β} {P : α → Prop} (hx : Ensures x P)
    (hf : ∀ a, P a → EnsuresFrom c (f a) Q) : EnsuresFrom c (StateT.lift x >>= f) Q :=
  ensuresFrom_bind (ensuresFrom_lift hx) fun a _ ⟨ha, hsame⟩ => hsame ▸ hf a ha

theorem ensuresFrom_demand_bind {condition : Bool} {e : ParseError} {x : Decoder m β}
    (hx : condition = true → EnsuresFrom c x Q) : EnsuresFrom c (do demand condition e; x) Q :=
  ensuresFrom_bind ensuresFrom_demand fun _ _ ⟨hcondition, hsame⟩ => hsame ▸ hx hcondition

/-- A single read answers what it does on its own. -/
theorem ensuresFrom_ofRead (f : Cursor → Except ParseError (α × Cursor)) :
    EnsuresFrom c (ofRead f : Decoder m α) fun a next => f c = .ok (a, next) := by
  show Ensures (ofRead f c : m _) _
  unfold ofRead
  split
  case h_1 answer hanswer => exact ensures_pure hanswer
  case h_2 e _ => exact ensures_throw e

/-- A decoder from a nullable offset: there is no answer where the offset is zero, and otherwise one
    from where the offset leads. -/
theorem ensuresFrom_nullable_bind {v : Window} {n : UInt16} {decodeOne : Window → m α}
    {f : Option α → Decoder m β} {R : Window → α → Prop} (h : ∀ u, Ensures (decodeOne u) (R u))
    (hf : ∀ answer, v.Leads n R answer → EnsuresFrom c (f answer) Q) :
    EnsuresFrom c (v.decodeNullable n decodeOne >>= f) Q := by
  refine ensuresFrom_lift_bind ?_ hf
  rw [Window.offsetNullable]
  by_cases hzero : n = 0
  · rw [if_pos hzero]
    exact ensures_pure hzero
  · rw [if_neg hzero]
    by_cases hinside : n.toNat < v.size
    · rw [if_pos hinside]
      exact ensures_map (h _) fun a ha => ⟨hzero, ha⟩
    · rw [if_neg hinside]
      exact ensures_throw _

/-! ### Words and records -/

variable {w : Window} {ns : List UInt16}

/-- Behind words, the next word is read. -/
theorem ensuresFrom_word (h : c.Behind w ns) :
    EnsuresFrom c (u16 : Decoder m UInt16) fun n next => next.Behind w (ns ++ [n]) := by
  refine ensures_mono (ensuresFrom_ofRead _) fun answer hanswer => ?_
  obtain ⟨hbytes, hnext⟩ := reads_u16.mp (reads_ofRead.mpr hanswer)
  have hword : wordsBytes [answer.1] <+: c.remaining := hbytes
  exact hnext ▸ h.skip hword

theorem ensuresFrom_word_bind {f : UInt16 → Decoder m β} (h : c.Behind w ns)
    (hf : ∀ n next, next.Behind w (ns ++ [n]) → EnsuresFrom next (f n) Q) :
    EnsuresFrom c (u16 >>= f) Q :=
  ensuresFrom_bind (ensuresFrom_word h) hf

theorem ensuresFrom_count (h : c.Behind w ns) :
    EnsuresFrom c (count : Decoder m Nat) fun k next =>
      ∃ n : UInt16, n.toNat = k ∧ next.Behind w (ns ++ [n]) :=
  ensuresFrom_bind (ensuresFrom_word h) fun n _ hnext => ensuresFrom_pure ⟨n, rfl, hnext⟩

/-- Behind words, the next records are read. -/
theorem ensuresFrom_array {record : FixedRecord α} {words : α → List UInt16}
    (hrecord : record.StoredAs words) (k : Nat) (h : c.Behind w ns) :
    EnsuresFrom c (array record k : Decoder m (Array α)) fun items next =>
      items.size = k ∧ next.Behind w (ns ++ items.toList.flatMap words) := by
  -- an empty stretch is found at any place, but here the place is one in the window
  have hinside : c.position ≤ c.window.size := by
    have hlength := h.bytes.length_le
    rw [h.position_eq, h.window_eq]
    simpa using hlength
  refine ensures_mono (ensuresFrom_ofRead _) fun answer hanswer => ?_
  obtain ⟨hsize, hbytes, hnext⟩ :=
    (reads_array hrecord (.inl hinside)).mp (reads_ofRead.mpr hanswer)
  refine ⟨hsize, ?_⟩
  have hlength : k * record.size = 2 * (answer.1.toList.flatMap words).length := by
    rw [← length_wordsBytes, hrecord.length_flatMap, Array.length_toList, hsize]
  rw [hnext, hlength]
  exact h.skip hbytes

end

end Decoder

/-- Decoding goes on from the beginning of the window. -/
theorem ensures_decode_from {m : Type → Type} [Monad m] [MonadExceptOf ParseError m] [Loader m]
    {α : Type} {P : α → Prop} {w : Window} {x : Decoder m α}
    (h : Decoder.EnsuresFrom (.ofWindow w) x fun a _ => P a) : Ensures (w.decode x) P :=
  ensures_bind h fun _ ha => ensures_pure ha

/-! ## §3 Records in a row -/

/-- A stretch within a stretch. -/
theorem Window.narrow_narrow (w : Window) {n length inner innerLength : Nat}
    (h : inner + innerLength ≤ length) :
    (w.narrow n length).narrow inner innerLength = w.narrow (n + inner) innerLength := by
  simp only [narrow, Window.mk.injEq, true_and]
  omega

namespace Decoder

variable {m : Type → Type} [Monad m] [MonadExceptOf ParseError m] [Loader m] {α : Type} {c : Cursor}

/-- There are as many stretches as have been asked for, one behind the other. -/
theorem ensuresFrom_windows (stride n : Nat) :
    EnsuresFrom c (windows stride n : Decoder m (Array Window)) fun items _ =>
      items.size = n ∧ ∀ (i : Nat) (w : Window), items[i]? = some w →
        w = c.window.narrow (c.position + i * stride) stride := by
  refine ensures_mono (ensuresFrom_ofRead _) fun ⟨items, next⟩ hanswer => ?_
  obtain ⟨⟨taken, behind⟩, htake, hitems⟩ := except_map_eq_ok.mp hanswer
  obtain ⟨rfl, -⟩ := Prod.mk.inj hitems
  rw [Cursor.take] at htake
  split at htake
  case isFalse => cases htake
  case isTrue =>
    cases htake
    refine ⟨Array.size_ofFn, fun i w hw => ?_⟩
    obtain ⟨hi, rfl⟩ := Array.getElem?_eq_some_iff.mp hw
    rw [Array.size_ofFn] at hi
    rw [Array.getElem_ofFn]
    refine Window.narrow_narrow _ ?_
    rw [← Nat.succ_mul]
    exact Nat.mul_le_mul_right stride hi

/-- Each record is decoded from its own stretch. -/
theorem ensuresFrom_records (stride n : Nat) (one : Decoder (Except ParseError) α) :
    EnsuresFrom c (records stride n one : Decoder m (Array α)) fun items _ =>
      items.size = n ∧ ∀ (i : Nat) (a : α), items[i]? = some a →
        (c.window.narrow (c.position + i * stride) stride).decode one = .ok a := by
  refine ensuresFrom_bind (ensuresFrom_windows stride n) fun ws next ⟨hsize, hws⟩ =>
    ensures_mono (ensuresFrom_ofExcept _) fun answer hanswer => ?_
  have heach := except_mapM_each hanswer.1
  refine ⟨?_, fun i a ha => ?_⟩
  · rw [← hsize]
    simpa using heach.length_eq.symm
  · obtain ⟨w, hw, hdecode⟩ := exists_of_forall₂ heach (by rwa [Array.getElem?_toList])
    rw [Array.getElem?_toList] at hw
    exact hws i w hw ▸ hdecode

/-- The records with which a window begins. -/
theorem records_eq_ok {w : Window}
    {stride n : Nat} {one : Decoder (Except ParseError) α} {items : Array α}
    (h : (w.decode (records stride n one) : Except ParseError (Array α)) = .ok items) :
    items.size = n ∧ ∀ (i : Nat) (a : α), items[i]? = some a →
      (w.narrow (i * stride) stride).decode one = .ok a := by
  have hall :=
    ensures_decode_from (ensuresFrom_records (m := Except ParseError) stride n one) items h
  simpa only [Cursor.ofWindow, Nat.zero_add] using hall

/-- In rows of records, a record stands behind all records of the rows before and those before it in
    its own row. -/
theorem record_of_row {w : Window} {place stride columns i j : Nat}
    {one : Decoder (Except ParseError) α} {row : Array α} {a : α}
    (hrow : ((w.narrow (place + i * (columns * stride)) (columns * stride)).decode
      (records stride columns one) : Except ParseError (Array α)) = .ok row)
    (ha : row[j]? = some a) :
    (w.narrow (place + (i * columns + j) * stride) stride).decode one = .ok a := by
  -- the stretch of the record is one in the stretch of its row
  obtain ⟨hsize, hall⟩ := records_eq_ok hrow
  have hj : j < columns := hsize ▸ (Array.getElem?_eq_some_iff.mp ha).1
  have hfits : j * stride + stride ≤ columns * stride := by
    rw [← Nat.succ_mul]
    exact Nat.mul_le_mul_right stride hj
  have hplace : place + i * (columns * stride) + j * stride =
      place + (i * columns + j) * stride := by
    rw [Nat.add_mul, Nat.mul_assoc, Nat.add_assoc]
  have hdecode := hall j a ha
  rwa [Window.narrow_narrow _ hfits, hplace] at hdecode

end Decoder

end OpenTypeLayout
