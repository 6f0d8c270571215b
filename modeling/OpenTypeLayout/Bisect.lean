/-!
# Ordered sequences

- `adjacentAll` checks a relation between neighbours, which is how tables that have to be in
  order are accepted.
- `bisect` searches a sequence that is split into a smaller part, an equal part and a larger
  part. It answers with a place in the equal part, or with the place where that part would begin.
- `locate` searches an array in the same order. It answers with the last item of the equal part.
-/

namespace OpenTypeLayout

/-! ## §1 Neighbours -/

/-- Whether every element is related to the one that follows it. -/
def adjacentAll {α : Type} (related : α → α → Bool) : List α → Bool
  | a :: b :: rest => related a b && adjacentAll related (b :: rest)
  | _ => true

/-! ## §2 Bisection -/

/-- The answer of a search. -/
inductive Search where
  /-- The item at this place is equal to the one looked for. -/
  | found (index : Nat)
  /-- No item was found; the one looked for belongs at this place. -/
  | insertAt (index : Nat)
deriving DecidableEq, Repr

/-- The place of the item that was found. -/
def Search.index? : Search → Option Nat
  | .found index => some index
  | .insertAt _ => none

/-- Bisect the places `left … left + size - 1`. A probe says how the item at a place compares to
    the one looked for, and says nothing where there is no item, which ends the search. Every
    round leaves less than it was given, so as many rounds as there are places are enough. -/
def bisectFrom (probe : Nat → Option Ordering) : (rounds left size : Nat) → Search
  | 0, left, _ => .insertAt left
  | rounds + 1, left, size =>
    if size = 0 then .insertAt left
    else
      let mid := left + size / 2
      match probe mid with
      | none => .insertAt left
      | some .lt => bisectFrom probe rounds (mid + 1) (size - size / 2 - 1)
      | some .gt => bisectFrom probe rounds left (size / 2)
      | some .eq => .found mid

/-- Bisect a sequence of `length` items. -/
def bisect (length : Nat) (probe : Nat → Option Ordering) : Search :=
  bisectFrom probe length 0 length

/-! ## §3 The last item that is not above -/

/-- The last of `size` places from `base` on whose item is not above the one looked for, where
    such items come first. The item at `base` is not asked about, so that the answer is `base` if
    there is no such place. Every round leaves less than it was given. -/
def lastNotAbove (isAbove : Nat → Bool) : (rounds base size : Nat) → Nat
  | 0, base, _ => base
  | rounds + 1, base, size =>
    if size ≤ 1 then base
    else
      let mid := base + size / 2
      -- an item equal to the one looked for does not end the search: more may follow
      lastNotAbove isAbove rounds (if isAbove mid then base else mid) (size - size / 2)

/-- The item of an array that is equal to the one looked for, with its place. Of several such
    items in an ordered array it is the last. -/
def locate {α : Type} (items : Array α) (compare : α → Ordering) : Option (Nat × α) :=
  let isAbove := fun i => items[i]?.any fun a => compare a == .gt
  let place := lastNotAbove isAbove items.size 0 items.size
  match items[place]? with
  | some a => if compare a = .eq then some (place, a) else none
  | none => none

/-! ## §4 Intervals -/

/-- How the interval from `lo` to `hi` lies relative to a point, seen from the interval. -/
def compareInterval (lo hi x : UInt16) : Ordering :=
  if hi < x then .lt else if x < lo then .gt else .eq

end OpenTypeLayout
