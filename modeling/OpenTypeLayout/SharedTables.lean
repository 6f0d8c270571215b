import Std.Data.HashMap
import OpenTypeLayout.Coverage
import OpenTypeLayout.ClassDef

/-!
# Tables that subtables share

Many subtables of a font point at the same coverage tables and class definitions. While a layout
table is loaded, each of them can be decoded once and kept under the place where it begins.

- `DecodeCache` keeps decoded values by place.
- `SharedTables m` is what a subtable decoder asks for coverages and class definitions. There are
  two ways to answer: `Except ParseError` decodes afresh every time, and `CachedLoad` keeps what
  it has decoded.
-/

namespace OpenTypeLayout

/-! ## §1 Keeping decoded values -/

/-- Decoded values under the places where they begin. -/
structure DecodeCache (α : Type) where
  /-- The values by place. -/
  entries : Std.HashMap Nat α := {}

namespace DecodeCache

variable {α : Type}

/-- Nothing decoded yet. -/
def empty : DecodeCache α := {}

/-- The number of values kept. -/
def size (c : DecodeCache α) : Nat := c.entries.size

/-- Whether no value is kept. -/
def isEmpty (c : DecodeCache α) : Bool := c.entries.isEmpty

/-- The value of a window: the one kept for the place where the window begins, and otherwise the
    one decoded from it, which is kept from then on. A failure is not kept. -/
def fetch (c : DecodeCache α) (decodeOne : Window → Except ParseError α) (w : Window) :
    Except ParseError (α × DecodeCache α) :=
  match c.entries[w.base]? with
  | some value => .ok (value, c)
  | none => (decodeOne w).map fun value => (value, ⟨c.entries.insert w.base value⟩)

end DecodeCache

/-! ## §2 Ways to load -/

/-- A monad in which coverage tables and class definitions can be asked for. -/
class SharedTables (m : Type → Type) where
  /-- The coverage table at the beginning of a window. -/
  coverage : Window → m Coverage
  /-- The class definition at the beginning of a window. -/
  classDef : Window → m ClassDef

/-- Decode afresh every time. -/
instance : SharedTables (Except ParseError) where
  coverage := Coverage.ofWindow
  classDef := ClassDef.ofWindow

/-- The coverage tables and class definitions decoded so far. -/
structure LoadCache where
  /-- The coverage tables. -/
  coverages : DecodeCache Coverage := {}
  /-- The class definitions. -/
  classDefs : DecodeCache ClassDef := {}

/-- Loading that keeps what it has decoded. -/
abbrev CachedLoad := StateT LoadCache (Except ParseError)

/-- Decode each table at most once. -/
instance : SharedTables CachedLoad where
  coverage w := fun cache =>
    (cache.coverages.fetch Coverage.ofWindow w).map fun (value, coverages) =>
      (value, { cache with coverages })
  classDef w := fun cache =>
    (cache.classDefs.fetch ClassDef.ofWindow w).map fun (value, classDefs) =>
      (value, { cache with classDefs })

/-- The result of a load that begins with nothing decoded. -/
def CachedLoad.result {α : Type} (load : CachedLoad α) : Except ParseError α :=
  (load.run {}).map Prod.fst

/-! ## §3 Following offsets to shared tables -/

variable {m : Type → Type} [Monad m] [SharedTables m]

/-- The coverage table at a stored offset. -/
def Window.coverage (w : Window) (n : UInt16) : Decoder m Coverage :=
  StateT.lift (SharedTables.coverage (w.offset n.toNat))

/-- The coverage tables at stored offsets. -/
def Window.coverages (w : Window) (offsets : Array UInt16) : Decoder m (Array Coverage) :=
  w.decodeEach offsets SharedTables.coverage

/-- The class definition at a stored offset. -/
def Window.classDef (w : Window) (n : UInt16) : Decoder m ClassDef :=
  StateT.lift (SharedTables.classDef (w.offset n.toNat))

end OpenTypeLayout
