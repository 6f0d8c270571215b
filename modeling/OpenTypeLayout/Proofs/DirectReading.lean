import OpenTypeLayout.Proofs.DirectMatching
import OpenTypeLayout.Proofs.StoredRecords

/-!
# Reading byte by byte

A record is read byte by byte, and no byte is compared with the end of the window on the way.
Whether there are enough bytes is asked once, before, with the size that is stated for the kind of
the record. Here this is written out: a byte is looked up directly, and where it is out of range,
nothing is answered at all.

- `RecordType` are the kinds of records that are put together from numbers. `RecordType.size` is the
  stated size, `RecordType.value?` is what given bytes stand for, and `RecordType.record` is the
  kind as it is decoded.
- `RecordType.direct` reads a record byte by byte. Where there are as many bytes as the size says,
  it stays in range and takes just these bytes (`RecordType.direct_eq`), and the record is what they
  stand for (`RecordType.value?_eq`).
- `CheckedReader.read` and `CheckedReader.take` ask before they read. They leave the cursor where it
  is if they fail.
-/

namespace OpenTypeLayout

namespace Window

theorem slice_of_le {w : Window} {place n : Nat} (h : place + n ≤ w.size) :
    w.slice place n = .ok (w.narrow place n) := by
  rw [slice, if_pos (by omega), if_pos (by omega)]

/-- From inside the window, or from its end, nothing is cut out that does not fit. -/
theorem slice_of_lt {w : Window} {place n : Nat} (hplace : place ≤ w.size)
    (h : w.size < place + n) : ∃ e, w.slice place n = .error e := by
  unfold slice
  split
  · rw [if_neg (by omega)]
    exact ⟨_, rfl⟩
  · exact ⟨_, rfl⟩

end Window

/-! ## §1 Kinds of records -/

/-- How a record is put together from numbers. -/
inductive RecordType : Type → Type 1 where
  | u8 : RecordType UInt8
  | i8 : RecordType Int8
  | u16 : RecordType UInt16
  | i16 : RecordType Int16
  | u32 : RecordType UInt32
  | i32 : RecordType Int32
  | pair {α β : Type} (first : RecordType α) (second : RecordType β) : RecordType (α × β)
  | triple {α β γ : Type} (first : RecordType α) (second : RecordType β) (third : RecordType γ) :
      RecordType (α × β × γ)
  | map {α β : Type} (meaning : α → β) (source : RecordType α) : RecordType β

namespace RecordType

variable {α : Type}

/-- The number of bytes that is stated for a kind of record. -/
def size {α : Type} : RecordType α → Nat
  | .u8 => 1
  | .i8 => 1
  | .u16 => 2
  | .i16 => 2
  | .u32 => 4
  | .i32 => 4
  | .pair first second => first.size + second.size
  | .triple first second third => first.size + second.size + third.size
  | .map _ source => source.size

/-- The kind as it is decoded. -/
def record {α : Type} : RecordType α → FixedRecord α
  | .u8 => .u8
  | .i8 => .i8
  | .u16 => .u16
  | .i16 => .i16
  | .u32 => .u32
  | .i32 => .i32
  | .pair first second => .pair first.record second.record
  | .triple first second third => .triple first.record second.record third.record
  | .map meaning source => .map meaning source.record

/-- The number that is stored in `count` bytes, the most significant one first. -/
def number? (count : Nat) (bytes : List UInt8) : Option Nat :=
  if bytes.length = count then some (FixedRecord.bigEndian bytes) else none

/-- What bytes stand for, if they are as many as the record has. Signed numbers are in two's
    complement, and the parts of a record come one behind the other. -/
def value? {α : Type} : RecordType α → List UInt8 → Option α
  | .u8, bytes => (number? 1 bytes).map UInt8.ofNat
  | .i8, bytes => (number? 1 bytes).map Int8.ofNat
  | .u16, bytes => (number? 2 bytes).map UInt16.ofNat
  | .i16, bytes => (number? 2 bytes).map Int16.ofNat
  | .u32, bytes => (number? 4 bytes).map UInt32.ofNat
  | .i32, bytes => (number? 4 bytes).map Int32.ofNat
  | .pair first second, bytes => do
    let a ← first.value? (bytes.take first.size)
    let b ← second.value? (bytes.drop first.size)
    return (a, b)
  | .triple first second third, bytes => do
    let a ← first.value? (bytes.take first.size)
    let b ← second.value? ((bytes.drop first.size).take second.size)
    let c ← third.value? (bytes.drop (first.size + second.size))
    return (a, b, c)
  | .map meaning source, bytes => (source.value? bytes).map meaning

theorem size_record (type : RecordType α) : type.record.size = type.size := by
  induction type with
  | pair first second ihfirst ihsecond => exact congrArg₂ _ ihfirst ihsecond
  | triple first second third ihfirst ihsecond ihthird =>
    show first.record.size + (second.record.size + third.record.size) = _
    rw [ihfirst, ihsecond, ihthird, ← Nat.add_assoc, size]
  | map meaning source ih => exact ih
  | _ => rfl

/-- Two records in a row: the second begins where the first ends. -/
theorem decodeAt_pair {β : Type} (first : FixedRecord α) (second : FixedRecord β) (w : Window)
    {place : Nat} (h : place + (first.size + second.size) ≤ w.size) :
    (first.pair second).decodeAt w place h =
      (first.decodeAt w place (by omega), second.decodeAt w (place + first.size) (by omega)) :=
  Prod.ext rfl (congrArg second.decode (funext fun i => Window.get_congr rfl _ _
    (congrArg (w.base + ·) (Nat.add_assoc place first.size i).symm)))

theorem decodeAt_triple {β γ : Type} (first : FixedRecord α) (second : FixedRecord β)
    (third : FixedRecord γ) (w : Window) {place : Nat}
    (h : place + (first.size + (second.size + third.size)) ≤ w.size) :
    (first.triple second third).decodeAt w place h =
      (first.decodeAt w place (by omega), second.decodeAt w (place + first.size) (by omega),
        third.decodeAt w (place + first.size + second.size) (by omega)) :=
  (decodeAt_pair first (second.pair third) w h).trans
    (Prod.ext rfl (decodeAt_pair second third w (by omega)))

theorem number?_bytesAt {w : Window} {place n : Nat} (h : place + n ≤ w.size) :
    number? n (w.bytesAt place n) = some (FixedRecord.bigEndian (w.bytesAt place n)) :=
  if_pos (Window.length_bytesAt h)

theorem number?_one {w : Window} {place : Nat} (h : place + 1 ≤ w.size) :
    number? 1 (w.bytesAt place 1) = some (w.get place h).toNat := by
  rw [number?_bytesAt h, Window.bytesAt_succ h]
  simp [Window.bytesAt, FixedRecord.bigEndian, ofDigits]

theorem number?_two {w : Window} {place : Nat} (h : place + 2 ≤ w.size) :
    number? 2 (w.bytesAt place 2) =
      some (FixedRecord.bigEndian [w.get place (by omega), w.get (place + 1) h]) := by
  rw [number?_bytesAt h, Window.bytesAt_succ (by omega), Window.bytesAt_succ h, Window.bytesAt,
    List.take_zero]

theorem number?_four {w : Window} {place : Nat} (h : place + 4 ≤ w.size) :
    number? 4 (w.bytesAt place 4) =
      some (FixedRecord.bigEndian [w.get place (by omega), w.get (place + 1) (by omega),
        w.get (place + 2) (by omega), w.get (place + 3) h]) := by
  rw [number?_bytesAt h, Window.bytesAt_succ (by omega), Window.bytesAt_succ (by omega),
    Window.bytesAt_succ (by omega), Window.bytesAt_succ h, Window.bytesAt, List.take_zero]

/-- A record is what its bytes stand for. -/
theorem value?_eq (type : RecordType α) (w : Window) {place : Nat}
    (h : place + type.record.size ≤ w.size) :
    type.value? (w.bytesAt place type.size) = some (type.record.decodeAt w place h) := by
  induction type generalizing place with
  | u8 => exact (congrArg _ (number?_one h)).trans (congrArg some UInt8.ofNat_toNat)
  | i8 =>
    rw [value?, size, number?_one h, Option.map_some, ← UInt8.toInt8_ofNat', UInt8.ofNat_toNat]
    rfl
  | u16 => exact congrArg _ (number?_two h)
  | i16 => exact congrArg _ (number?_two h)
  | u32 => exact congrArg _ (number?_four h)
  | i32 => exact congrArg _ (number?_four h)
  | pair first second ihfirst ihsecond =>
    have hfit : place + (first.record.size + second.record.size) ≤ w.size := h
    rw [value?, size, w.take_bytesAt, w.drop_bytesAt, ihfirst (by omega), ← first.size_record,
      ihsecond (by omega)]
    exact congrArg some (decodeAt_pair _ _ _ hfit).symm
  | triple first second third ihfirst ihsecond ihthird =>
    have hfit : place + (first.record.size + (second.record.size + third.record.size)) ≤ w.size := h
    rw [value?, size, ← List.drop_drop, Nat.add_assoc, w.take_bytesAt, w.drop_bytesAt,
      w.take_bytesAt, w.drop_bytesAt, ihfirst (by omega), ← first.size_record, ihsecond (by omega),
      ← second.size_record, ihthird (by omega)]
    exact congrArg some (decodeAt_triple _ _ _ _ hfit).symm
  -- what is made of a record has the bytes of the record
  | map meaning source ih => exact congrArg (Option.map meaning) (ih h)

end RecordType

/-! ## §2 Bytes looked up directly -/

theorem Cursor.position_skip (c : Cursor) (n : Nat) : (c.skip n).position = c.position + n := rfl

/-- A program that looks bytes up directly, and moves a cursor on. -/
abbrev DirectReader := StateT Cursor Direct

namespace DirectReader

variable {α β : Type}

/-- The byte that is some bytes ahead of the cursor. -/
def byte (ahead : Nat) : DirectReader UInt8 := do
  let c ← get
  StateT.lift c.window.toList[c.position + ahead]?

/-- Move the cursor on. -/
def advance (n : Nat) : DirectReader Unit := modify fun c => c.skip n

/-- Read a byte. -/
def u8 : DirectReader UInt8 := do
  let byte ← byte 0
  advance 1
  return byte

/-- Read two bytes and put them together. -/
def u16 : DirectReader UInt16 := do
  let high ← byte 0
  let low ← byte 1
  advance 2
  return (high.toUInt16 <<< 8) ||| low.toUInt16

/-- Read four bytes and put them together. -/
def u32 : DirectReader UInt32 := do
  let b₀ ← byte 0
  let b₁ ← byte 1
  let b₂ ← byte 2
  let b₃ ← byte 3
  advance 4
  return (b₀.toUInt32 <<< 24) ||| (b₁.toUInt32 <<< 16) ||| (b₂.toUInt32 <<< 8) ||| b₃.toUInt32

end DirectReader

/-- Read a record. Its parts are read one after the other, and none of them asks for the end of the
    window. -/
def RecordType.direct {α : Type} : RecordType α → DirectReader α
  | .u8 => DirectReader.u8
  | .i8 => return (← DirectReader.u8).toInt8
  | .u16 => DirectReader.u16
  | .i16 => return (← DirectReader.u16).toInt16
  | .u32 => DirectReader.u32
  | .i32 => return (← DirectReader.u32).toInt32
  | .pair first second => return (← first.direct, ← second.direct)
  | .triple first second third => return (← first.direct, ← second.direct, ← third.direct)
  | .map meaning source => return meaning (← source.direct)

namespace DirectReader

variable {α β : Type} {x : DirectReader α} {c next : Cursor} {a : α}

/-- What comes next is read from where the first reader has left the cursor. -/
theorem run_bind_some (hx : x.run c = some (a, next)) (f : α → DirectReader β) :
    (x >>= f).run c = (f a).run next := by
  rw [StateT.run_bind, hx]
  rfl

theorem run_map_some (hx : x.run c = some (a, next)) (f : α → β) :
    (do return f (← x) : DirectReader β).run c = some (f a, next) :=
  run_bind_some hx _

theorem run'_of_run (hx : x.run c = some (a, next)) : x.run' c = some a :=
  congrArg (Option.map Prod.fst) hx

/-- A byte of the window is found. -/
theorem run_byte {ahead : Nat} (h : c.position + ahead < c.window.size) :
    (byte ahead).run c = some (c.window.get (c.position + ahead) h, c) := by
  show (c.window.toList[c.position + ahead]?).bind _ = _
  rw [c.window.getElem?_toList h]
  rfl

end DirectReader

/-- One more byte fills the bits that a shift has cleared. -/
theorem FixedRecord.bigEndian_append (bytes : List UInt8) (byte : UInt8) :
    bigEndian (bytes ++ [byte]) = bigEndian bytes <<< 8 ||| byte.toNat := by
  rw [bigEndian, List.map_append, List.map_singleton, ofDigits_append,
    ← Nat.shiftLeft_add_eq_or_of_lt byte.toNat_lt, Nat.shiftLeft_eq, bigEndian]

theorem FixedRecord.bigEndian_singleton (byte : UInt8) : bigEndian [byte] = byte.toNat := by
  simp [bigEndian, ofDigits]

theorem toUInt16_or (high low : UInt8) :
    (high.toUInt16 <<< 8) ||| low.toUInt16 = UInt16.ofNat (FixedRecord.bigEndian [high, low]) := by
  rw [show [high, low] = [high] ++ [low] from rfl, FixedRecord.bigEndian_append,
    FixedRecord.bigEndian_singleton, UInt16.ofNat_or, UInt16.ofNat_shiftLeft _ _ (by decide),
    UInt16.ofNat_uInt8ToNat, UInt16.ofNat_uInt8ToNat]
  rfl

/-- Each byte is shifted to its place, or all bytes are shifted each time that one more is
    filled in. -/
theorem toUInt32_or (b₀ b₁ b₂ b₃ : UInt8) :
    (b₀.toUInt32 <<< 24) ||| (b₁.toUInt32 <<< 16) ||| (b₂.toUInt32 <<< 8) ||| b₃.toUInt32 =
      UInt32.ofNat (FixedRecord.bigEndian [b₀, b₁, b₂, b₃]) := by
  have htwice (n : UInt32) : n <<< 8 <<< 8 = n <<< 16 :=
    (UInt32.shiftLeft_add (by decide) (by decide) (by decide)).symm
  have hthrice (n : UInt32) : n <<< 8 <<< 16 = n <<< 24 :=
    (UInt32.shiftLeft_add (by decide) (by decide) (by decide)).symm
  have hvalue : UInt32.ofNat (FixedRecord.bigEndian [b₀, b₁, b₂, b₃]) =
      ((b₀.toUInt32 <<< 8 ||| b₁.toUInt32) <<< 8 ||| b₂.toUInt32) <<< 8 ||| b₃.toUInt32 := by
    rw [show [b₀, b₁, b₂, b₃] = [b₀] ++ [b₁] ++ [b₂] ++ [b₃] from rfl]
    simp only [FixedRecord.bigEndian_append, FixedRecord.bigEndian_singleton, UInt32.ofNat_or,
      UInt32.ofNat_shiftLeft _ 8 (by decide), UInt32.ofNat_uInt8ToNat]
    rfl
  rw [hvalue, UInt32.shiftLeft_or, htwice, UInt32.shiftLeft_or, hthrice]

namespace DirectReader

variable {c : Cursor}

theorem run_u8 (h : c.position + 1 ≤ c.window.size) :
    u8.run c = some (FixedRecord.u8.decodeAt c.window c.position h, c.skip 1) := by
  rw [u8, run_bind_some (run_byte h)]
  rfl

theorem run_u16 (h : c.position + 2 ≤ c.window.size) :
    u16.run c = some (FixedRecord.u16.decodeAt c.window c.position h, c.skip 2) := by
  rw [u16, run_bind_some (run_byte (by omega)), run_bind_some (run_byte h), toUInt16_or]
  rfl

theorem run_u32 (h : c.position + 4 ≤ c.window.size) :
    u32.run c = some (FixedRecord.u32.decodeAt c.window c.position h, c.skip 4) := by
  rw [u32, run_bind_some (run_byte (by omega)), run_bind_some (run_byte (by omega)),
    run_bind_some (run_byte (by omega)), run_bind_some (run_byte h), toUInt32_or]
  rfl

end DirectReader

/-- Where there are as many bytes as the size says, reading stays in range and takes just
    these bytes. -/
theorem RecordType.direct_eq {α : Type} (type : RecordType α) {c : Cursor}
    (h : c.position + type.record.size ≤ c.window.size) :
    type.direct.run c =
      some (type.record.decodeAt c.window c.position h, c.skip type.record.size) := by
  induction type generalizing c with
  | u8 => exact DirectReader.run_u8 h
  | i8 => exact DirectReader.run_map_some (DirectReader.run_u8 h) _
  | u16 => exact DirectReader.run_u16 h
  | i16 => exact DirectReader.run_map_some (DirectReader.run_u16 h) _
  | u32 => exact DirectReader.run_u32 h
  | i32 => exact DirectReader.run_map_some (DirectReader.run_u32 h) _
  | pair first second ihfirst ihsecond =>
    have hfit : c.position + (first.record.size + second.record.size) ≤ c.window.size := h
    -- the size of the whole leaves room for the second part behind the first
    have hsecond : (c.skip first.record.size).position + second.record.size ≤ c.window.size := by
      rwa [Cursor.position_skip, Nat.add_assoc]
    rw [direct, DirectReader.run_bind_some (ihfirst (by omega)),
      DirectReader.run_map_some (ihsecond hsecond), Cursor.skip_skip]
    exact congrArg (fun a => some (a, c.skip _)) (decodeAt_pair _ _ _ hfit).symm
  | triple first second third ihfirst ihsecond ihthird =>
    have hfit : c.position + (first.record.size + (second.record.size + third.record.size)) ≤
        c.window.size := h
    have hsecond : (c.skip first.record.size).position + second.record.size ≤ c.window.size := by
      rw [Cursor.position_skip]
      omega
    have hthird :
        ((c.skip first.record.size).skip second.record.size).position + third.record.size ≤
        c.window.size := by
      rw [Cursor.position_skip, Cursor.position_skip]
      omega
    have hskip : ((c.skip first.record.size).skip second.record.size).skip third.record.size =
        c.skip (first.record.size + (second.record.size + third.record.size)) := by
      rw [Cursor.skip_skip, Cursor.skip_skip]
    rw [direct, DirectReader.run_bind_some (ihfirst (by omega)),
      DirectReader.run_bind_some (ihsecond hsecond), DirectReader.run_map_some (ihthird hthird)]
    exact congrArg₂ (fun a next => some (a, next)) (decodeAt_triple _ _ _ _ hfit).symm hskip
  | map meaning source ih => exact DirectReader.run_map_some (ih h) meaning

-- a byte is missing: nothing is answered
example :
    (RecordType.pair .u8 .i16).direct.run' (.ofWindow (.ofBytes ⟨#[7, 0xFF]⟩)) = none := by decide

/-! ## §3 Asking before reading -/

/-- A program that reads directly, and may fail. It leaves a cursor behind also where it fails. -/
abbrev CheckedReader := ExceptT ParseError DirectReader

namespace CheckedReader

variable {α : Type}

/-- Go on if there are `n` more bytes. -/
def demandBytes (n : Nat) : CheckedReader Unit := do
  let c ← get
  demand (c.position + n ≤ c.window.size) ParseError.endOfData

/-- Read a record. -/
def read (type : RecordType α) : CheckedReader α := do
  demandBytes type.size
  type.direct

/-- Take the next `n` bytes as a window of their own. If they cannot be cut out, it is the end of
    the data, whatever the reason is. -/
def take (n : Nat) : CheckedReader Window := do
  let c ← get
  match c.window.slice c.position n with
  | .ok w =>
    DirectReader.advance n
    return w
  | .error _ => throw .endOfData

section

variable {β : Type} {x : CheckedReader α} {c next : Cursor}

theorem run_bind_ok {a : α} (h : x.run.run c = some (.ok a, next)) (f : α → CheckedReader β) :
    (x >>= f).run.run c = (f a).run.run next := by
  rw [ExceptT.run_bind, DirectReader.run_bind_some h]

theorem run_bind_error {e : ParseError} (h : x.run.run c = some (.error e, next))
    (f : α → CheckedReader β) : (x >>= f).run.run c = some (.error e, next) := by
  rw [ExceptT.run_bind, DirectReader.run_bind_some h]
  rfl

end

variable {c : Cursor} {n : Nat}

theorem run_get : (get : CheckedReader Cursor).run.run c = some (.ok c, c) := rfl

theorem run_demandBytes_of_le (h : c.position + n ≤ c.window.size) :
    (demandBytes n).run.run c = some (.ok (), c) := by
  rw [demandBytes, run_bind_ok run_get, demand, if_pos (decide_eq_true h)]
  rfl

theorem run_demandBytes_of_lt (h : c.window.size < c.position + n) :
    (demandBytes n).run.run c = some (.error .endOfData, c) := by
  rw [demandBytes, run_bind_ok run_get, demand, if_neg (by simpa using h)]
  rfl

theorem run_read_of_le (type : RecordType α) (h : c.position + type.record.size ≤ c.window.size) :
    (read type).run.run c =
      some (.ok (type.record.decodeAt c.window c.position h), c.skip type.record.size) := by
  rw [read, ← type.size_record, run_bind_ok (run_demandBytes_of_le h)]
  exact DirectReader.run_map_some (type.direct_eq h) Except.ok

theorem run_read_of_lt (type : RecordType α) (h : c.window.size < c.position + type.record.size) :
    (read type).run.run c = some (.error .endOfData, c) := by
  rw [read, ← type.size_record, run_bind_error (run_demandBytes_of_lt h)]

theorem run_take_of_le (h : c.position + n ≤ c.window.size) :
    (take n).run.run c = some (.ok (c.window.narrow c.position n), c.skip n) := by
  rw [take, run_bind_ok run_get, Window.slice_of_le h]
  rfl

theorem run_take_of_lt (hc : c.position ≤ c.window.size) (h : c.window.size < c.position + n) :
    (take n).run.run c = some (.error .endOfData, c) := by
  obtain ⟨e, he⟩ := Window.slice_of_lt hc h
  rw [take, run_bind_ok run_get, he]
  rfl

end CheckedReader

end OpenTypeLayout
