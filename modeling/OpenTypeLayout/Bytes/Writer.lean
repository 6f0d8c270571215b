/-!
# Writing words

Encoded data is built from the front: each step puts bytes behind those already written.
-/

namespace OpenTypeLayout

/-- The bytes written so far. -/
structure Writer where
  /-- The bytes in order. -/
  bytes : ByteArray := ByteArray.empty

namespace Writer

/-- Nothing written yet. -/
def empty : Writer := {}

/-- The number of bytes written so far. -/
def written (w : Writer) : Nat := w.bytes.size

/-- Put given bytes behind what is written. -/
def putBytes (w : Writer) (data : ByteArray) : Writer := ⟨w.bytes ++ data⟩

/-- Write a number of two bytes, the more significant byte first. -/
def putU16 (w : Writer) (n : UInt16) : Writer :=
  ⟨(w.bytes.push (UInt8.ofNat (n.toNat / 256))).push (UInt8.ofNat (n.toNat % 256))⟩

/-- Write numbers of two bytes one behind the other. -/
def putU16s (w : Writer) (ns : Array UInt16) : Writer := ns.foldl putU16 w

end Writer

end OpenTypeLayout
