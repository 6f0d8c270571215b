import OpenTypeLayout.Error

/-!
# Nesting of lookups

A contextual lookup invokes other lookups, which may be contextual too, or even the same. How
deeply they may be nested is limited, so that every table comes to an end.
-/

namespace OpenTypeLayout

/-- How deeply lookups are nested, and how deeply they may be. -/
structure Nesting where
  /-- The largest level that may be entered. -/
  limit : Nat := 100
  /-- The level that has been entered. -/
  level : Nat := 0
deriving DecidableEq, Repr, Inhabited

namespace Nesting

/-- Nothing entered yet, under a limit. -/
def withLimit (limit : Nat) : Nesting := { limit }

/-- Enter one more level. -/
def enter (n : Nesting) : Except LayoutError Nesting :=
  if n.level + 1 ≤ n.limit then .ok { n with level := n.level + 1 }
  else .error .tooManyNestedContexts

/-- The number of levels that may still be entered. -/
def remaining (n : Nesting) : Nat := n.limit - n.level

end Nesting

end OpenTypeLayout
