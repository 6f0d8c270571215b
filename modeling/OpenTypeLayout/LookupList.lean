import OpenTypeLayout.SharedTables

/-!
# Lookups

A lookup is a list of subtables of one type together with a flag that says which glyphs it skips.
What the types are depends on whether the table is one of substitutions or of positionings, so a
lookup is generic in its subtables.

Subtables may be wrapped in extension subtables, which allow for larger offsets. They are
unwrapped when a lookup is read, so that no lookup has the extension type.
-/

namespace OpenTypeLayout

/-- The subtables of one kind of layout table, of any of the lookup types that it has. -/
class LookupFamily (S : Type) where
  /-- The lookup type of extension subtables. -/
  extensionType : UInt16
  /-- The lookup type that subtables have. -/
  typeOf : S → UInt16
  /-- The number of subtables. -/
  count : S → Nat
  /-- Read the subtables of a lookup type, each at the beginning of a window. -/
  load {m : Type → Type} [Monad m] [MonadExceptOf ParseError m] [SharedTables m]
    (lookupType : UInt16) (subtables : Array Window) : m S

/-- Subtables of one type with the flag that goes for all of them. -/
structure Lookup (S : Type) where
  /-- Which glyphs are skipped. -/
  flag : LookupFlag
  /-- What the lookup does. -/
  subtables : S
deriving DecidableEq, Repr, Inhabited

/-- The lookup type. -/
def Lookup.type {S : Type} [LookupFamily S] (l : Lookup S) : UInt16 :=
  LookupFamily.typeOf l.subtables

namespace Extension

/-- Read an extension subtable: the lookup type that it wraps, and where the wrapped subtable
    begins, which has to be inside the data. -/
def ofWindow (w : Window) : Except ParseError (UInt16 × Window) := w.decode do
  match ← Decoder.u16 with
  | 1 =>
    let wrapped ← Decoder.u16
    let n ← Decoder.u32
    -- zero is not special here: it would make the record its own subtable
    demand (n.toNat < w.size) ParseError.badOffset
    return (wrapped, w.offset n.toNat)
  | _ => throw ParseError.badFormat

/-- Read extension subtables from the first to the last. None may wrap another extension, and each
    has to wrap the type that those before it do. -/
def unwrapEach (extensionType : UInt16) : (known : Option UInt16) → List Window →
    Except ParseError (Option UInt16 × List Window)
  | known, [] => .ok (known, [])
  | known, w :: rest => do
    let (wrapped, target) ← ofWindow w
    demand (wrapped != extensionType) ParseError.badValue
    demand (known.all (· == wrapped)) ParseError.badValue
    let (type, targets) ← unwrapEach extensionType (some wrapped) rest
    return (type, target :: targets)

/-- The lookup type and the subtables that extension subtables wrap. There has to be at least one,
    because there is no type otherwise. -/
def unwrap (extensionType : UInt16) (subtables : Array Window) :
    Except ParseError (UInt16 × Array Window) := do
  match ← unwrapEach extensionType none subtables.toList with
  | (some type, targets) => return (type, targets.toArray)
  | (none, _) => throw .badValue

end Extension

section Load

variable {S : Type} [LookupFamily S]
variable {m : Type → Type} [Monad m] [MonadExceptOf ParseError m] [SharedTables m]

/-- Read the lookup at the beginning of a window. -/
def Lookup.load (w : Window) : m (Lookup S) := w.decode do
  let type ← Decoder.u16
  let flag ← Decoder.u16
  let offsets ← Decoder.u16s (← Decoder.count)
  -- offsets of subtables are relative to the lookup, also those of extension records
  let wrapped := offsets.map fun n => w.offset n.toNat
  let (type, subtables) ←
    if type = LookupFamily.extensionType S then
      Decoder.ofRead fun c => (Extension.unwrap type wrapped).map fun result => (result, c)
    else pure (type, wrapped)
  return { flag := ⟨flag⟩, subtables := ← StateT.lift (LookupFamily.load type subtables) }

/-- Read the list of lookups at the beginning of a window. -/
def loadLookups (w : Window) : m (Array (Lookup S)) := w.decode do
  w.decodeEach (← Decoder.u16s (← Decoder.count)) Lookup.load

end Load

end OpenTypeLayout
