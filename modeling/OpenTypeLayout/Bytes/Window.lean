import OpenTypeLayout.Error

/-!
# Windows on font data

A window is a stretch of the font data that remembers where it begins. Offsets stored in a table
are relative to the window of that table, so following an offset makes a window out of a window
and no position is ever added up by hand.

- `Window.offset` moves the beginning forward and never fails: past the end there is an empty
  window, which still knows its place.
- `Window.offsetNullable` follows a stored 16-bit offset in which zero stands for an absent table.
- `Window.slice` cuts out a stretch of a given length.
-/

namespace OpenTypeLayout

/-- The bytes from `base` up to, and not including, `stop`. A window whose base is not below its
    stop is empty. -/
structure Window where
  /-- All of the data that the window looks at. -/
  bytes : ByteArray
  /-- The place in the data where the window begins. -/
  base : Nat
  /-- The place in the data where the window ends. -/
  stop : Nat
  /-- The window ends inside the data. -/
  stop_le : stop ≤ bytes.size

namespace Window

/-! ## §1 Bytes of a window -/

/-- The window on all of the data. -/
def ofBytes (bytes : ByteArray) : Window := ⟨bytes, 0, bytes.size, Nat.le_refl _⟩

/-- The number of bytes in the window. -/
def size (w : Window) : Nat := w.stop - w.base

theorem base_add_lt {w : Window} {i : Nat} (h : i < w.size) : w.base + i < w.bytes.size := by
  have := w.stop_le
  unfold size at h
  omega

/-- The byte at a place counted from the beginning of the window. -/
def get (w : Window) (i : Nat) (h : i < w.size) : UInt8 :=
  w.bytes.get (w.base + i) (base_add_lt h)

/-- The bytes of the window in order. -/
def toList (w : Window) : List UInt8 := List.ofFn fun i : Fin w.size => w.get i i.isLt

/-- The bytes of the window as data of their own. -/
def toByteArray (w : Window) : ByteArray := w.bytes.extract w.base w.stop

/-! ## §2 Windows inside windows -/

/-- The window that begins `n` bytes later and ends where this one does. -/
def offset (w : Window) (n : Nat) : Window := { w with base := w.base + n }

/-- The stretch of `length` bytes from the place `n`, or as much of it as the window has. -/
def narrow (w : Window) (n length : Nat) : Window where
  bytes := w.bytes
  base := w.base + n
  stop := min (w.base + n + length) w.stop
  stop_le := Nat.le_trans (Nat.min_le_right _ _) w.stop_le

/-- Follow a stored offset. Zero means that there is nothing to follow, and the offset has to
    point inside the window. -/
def offsetNullable (w : Window) (n : UInt16) : Except ParseError (Option Window) :=
  if n = 0 then .ok none
  -- an offset to the very end is refused: no table is empty
  else if n.toNat < w.size then .ok (some (w.offset n.toNat))
  else .error .badOffset

/-- The stretch of exactly `length` bytes from the place `n`. An empty stretch is found anywhere,
    also past the end. -/
def slice (w : Window) (n length : Nat) : Except ParseError Window :=
  if n < w.size ∨ length = 0 then
    -- past the end the difference is zero, and so is the length
    if length ≤ w.size - n then .ok (w.narrow n length) else .error .endOfData
  else .error .badOffset

/-! ## §3 Sizes -/

@[simp] theorem size_ofBytes (bytes : ByteArray) : (ofBytes bytes).size = bytes.size := by
  simp [ofBytes, size]

@[simp] theorem size_offset (w : Window) (n : Nat) : (w.offset n).size = w.size - n := by
  simp only [offset, size]
  omega

theorem size_narrow {w : Window} {n length : Nat} (h : n + length ≤ w.size) :
    (w.narrow n length).size = length := by
  simp only [narrow, size] at *
  omega

end Window

end OpenTypeLayout
