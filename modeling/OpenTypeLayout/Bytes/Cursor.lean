import OpenTypeLayout.Bytes.RecordArray

/-!
# Reading from the front

A cursor is a place in a window. A read looks at the bytes from there on: it takes all the bytes
that it needs and moves the cursor past them, or it fails and there is no new cursor.

- `Cursor.read`, `Cursor.take` and `Cursor.readArray` are single reads.
- `Decoder m` strings reads together in a monad `m` that may also do other things. A decoder that
  only reads works in every `m` that can fail with a `ParseError`.
-/

namespace OpenTypeLayout

/-- A place in a window. -/
structure Cursor where
  /-- The window that is read. -/
  window : Window
  /-- The number of bytes that are behind the cursor. -/
  position : Nat

namespace Cursor

variable {α : Type}

/-! ## §1 Single reads -/

/-- The cursor at the beginning of a window. -/
def ofWindow (w : Window) : Cursor := ⟨w, 0⟩

/-- The window from the cursor on. -/
def rest (c : Cursor) : Window := c.window.offset c.position

/-- Read one record. -/
def read (record : FixedRecord α) (c : Cursor) : Except ParseError (α × Cursor) :=
  if h : c.position + record.size ≤ c.window.size then
    .ok (record.decodeAt c.window c.position h, { c with position := c.position + record.size })
  else .error .endOfData

/-- Take the next `n` bytes as a window of their own. -/
def take (n : Nat) (c : Cursor) : Except ParseError (Window × Cursor) :=
  if c.position + n ≤ c.window.size then
    .ok (c.window.narrow c.position n, { c with position := c.position + n })
  else .error .endOfData

/-- Read `n` records of one kind. -/
def readArray (record : FixedRecord α) (n : Nat) (c : Cursor) :
    Except ParseError (RecordArray α × Cursor) :=
  if h : c.position + n * record.size ≤ c.window.size then
    .ok (⟨c.window.narrow c.position (n * record.size), n, record,
        Nat.le_of_eq (Window.size_narrow h).symm⟩,
      { c with position := c.position + n * record.size })
  else .error .endOfData

end Cursor

/-! ## §2 Decoders -/

/-- A program that reads from a cursor inside a monad. -/
abbrev Decoder (m : Type → Type) (α : Type) := StateT Cursor m α

namespace Decoder

variable {m : Type → Type} {α : Type} [Monad m] [MonadExceptOf ParseError m]

/-- A single read as a decoder. -/
def ofRead (f : Cursor → Except ParseError (α × Cursor)) : Decoder m α := fun c =>
  match f c with
  | .ok result => pure result
  | .error failure => throw failure

/-- Read one record. -/
def read (record : FixedRecord α) : Decoder m α := ofRead (Cursor.read record)

/-- Read an unsigned number of two bytes. -/
def u16 : Decoder m UInt16 := read .u16

/-- Read a count: an unsigned number of two bytes as a natural number. -/
def count : Decoder m Nat := do return (← u16).toNat

/-- Read a two's complement number of two bytes. -/
def i16 : Decoder m Int16 := read .i16

/-- Read an unsigned number of four bytes. -/
def u32 : Decoder m UInt32 := read .u32

/-- Read a tag. -/
def tag : Decoder m Tag := read .tag

/-- Read `n` records of one kind. -/
def array (record : FixedRecord α) (n : Nat) : Decoder m (Array α) :=
  ofRead fun c => (c.readArray record n).map fun (items, next) => (items.toArray, next)

/-- Read `n` unsigned numbers of two bytes. -/
def u16s (n : Nat) : Decoder m (Array UInt16) := array .u16 n

/-- Take `n` stretches of `stride` bytes, each as a window of its own. -/
def windows (stride n : Nat) : Decoder m (Array Window) :=
  ofRead fun c => (c.take (n * stride)).map fun (w, next) =>
    (Array.ofFn fun i : Fin n => w.narrow (i * stride) stride, next)

/-- The window from the cursor on. -/
def rest : Decoder m Window := do return (← get).rest

end Decoder

/-- Run a decoder from the beginning of a window. -/
def Window.decode {m : Type → Type} {α : Type} [Monad m] (w : Window) (decoder : Decoder m α) :
    m α := do
  let (value, _) ← decoder.run (Cursor.ofWindow w)
  return value

/-! ## §3 Following offsets -/

section Offsets

variable {m : Type → Type} {α : Type} [Monad m]

/-- Follow each of a list of offsets and decode what is there. -/
def Window.decodeEach (w : Window) (offsets : Array UInt16) (decodeOne : Window → m α) :
    Decoder m (Array α) :=
  StateT.lift (offsets.mapM fun n => decodeOne (w.offset n.toNat))

/-- Follow each of a list of offsets, where zero stands for an absent item. -/
def Window.decodeEachNullable (w : Window) (offsets : Array UInt16) (decodeOne : Window → m α) :
    Decoder m (Array (Option α)) :=
  -- unlike a single nullable offset, one past the end is left for the item itself to fail on
  StateT.lift (offsets.mapM fun n =>
    if n = 0 then pure none else some <$> decodeOne (w.offset n.toNat))

/-- Follow a stored offset and decode what is there, if there is anything. -/
def Window.decodeNullable [MonadExceptOf ParseError m] (w : Window) (n : UInt16)
    (decodeOne : Window → m α) : Decoder m (Option α) :=
  StateT.lift (match w.offsetNullable n with
    | .ok none => pure none
    | .ok (some target) => some <$> decodeOne target
    | .error failure => throw failure)

end Offsets

end OpenTypeLayout
