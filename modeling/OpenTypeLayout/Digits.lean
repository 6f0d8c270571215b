/-!
# Digits

The bytes of a stored number, the hexadecimal digits of a tag and the deltas that are packed into
a word are all digits of a number in some base. Digits are written with the most significant one
first, as they are in a font.

- `digits` takes a number apart and `ofDigits` puts one together.
- `digit` is a single digit.
-/

namespace OpenTypeLayout

/-- The digit of a number at a place, where place 0 is the least significant one. -/
def digit (base n : Nat) : (place : Nat) → Nat
  | 0 => n % base
  | place + 1 => digit base (n / base) place

/-- The last `count` digits of a number. -/
def digits (base : Nat) : (count n : Nat) → List Nat
  | 0, _ => []
  | count + 1, n => digits base count (n / base) ++ [n % base]

/-- The number with the given digits. -/
def ofDigits (base : Nat) (ds : List Nat) : Nat := ds.foldl (fun n d => n * base + d) 0

@[simp] theorem length_digits (base count n : Nat) : (digits base count n).length = count := by
  induction count generalizing n with
  | zero => rfl
  | succ count ih => simp [digits, ih]

/-- One more digit at the end. -/
theorem ofDigits_append (base : Nat) (ds : List Nat) (d : Nat) :
    ofDigits base (ds ++ [d]) = ofDigits base ds * base + d := by
  simp [ofDigits]

end OpenTypeLayout
