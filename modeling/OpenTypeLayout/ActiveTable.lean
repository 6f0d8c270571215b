import OpenTypeLayout.Gdef
import OpenTypeLayout.LayoutTable
import OpenTypeLayout.Nesting

/-!
# Active lookups

A layout table is applied lookup by lookup. For each lookup there are activation bits, and the
lookup applies to the glyphs of a text that have one of them. Activating a feature sets bits of
all the lookups that the feature names.
-/

namespace OpenTypeLayout

/-- A layout table, and for which glyphs each of its lookups is active. -/
structure ActiveTable (S : Type) where
  /-- The table. -/
  layout : LayoutTable S
  /-- The activation bits of each lookup. -/
  bits : Array UInt32
  /-- How deeply lookups may be nested. -/
  nestingLimit : Nat := 100
deriving DecidableEq, Repr, Inhabited

/-- What a feature was looked for by, and not found. -/
inductive NotFound where
  /-- There is no such script. -/
  | script
  /-- The script has no such language system. -/
  | language
  /-- The language system has no such feature. -/
  | feature
deriving DecidableEq, Repr, Inhabited

namespace ActiveTable

variable {S : Type}

/-- A table with no lookup active. The mark attachment classes of the font are decoded if some
    lookup needs them. -/
def ofLayout (layout : LayoutTable S) (gdef : Option Gdef) :
    Except ParseError (ActiveTable S × Option Gdef) := do
  let table : ActiveTable S := { layout, bits := Array.replicate layout.lookups.size 0 }
  match gdef with
  | some g =>
    -- otherwise nobody asks for the attachment class of a mark, and marks are plain marks
    if layout.usesMarkAttachment then return (table, some (← g.loadMarkAttachment))
    else return (table, some g)
  | none => return (table, none)

/-- The table at the beginning of a window, with no lookup active. -/
def ofWindow [LookupFamily S] (w : Window) (gdef : Option Gdef) :
    Except ParseError (ActiveTable S × Option Gdef) := do
  ofLayout (← LayoutTable.ofWindow w) gdef

/-- The table of a font, if the font has one. -/
def ofSfnt [LookupFamily S] (font : Sfnt) (tag : Tag) (gdef : Option Gdef) :
    Except ParseError (Option (ActiveTable S) × Option Gdef) := do
  match ← font.tableData? tag with
  | some data =>
    let (table, gdef) ← ofWindow (Window.ofBytes data) gdef
    return (some table, gdef)
  | none => return (none, gdef)

/-- Set activation bits of a lookup. A lookup that there is not is passed over. -/
def activateLookup (t : ActiveTable S) (lookup : UInt16) (bits : UInt32) : ActiveTable S :=
  { t with bits := t.bits.modify lookup.toNat fun old => old ||| bits }

/-- Set activation bits of all lookups of a feature. -/
def activate (t : ActiveTable S) (feature : UInt16) (bits : UInt32) :
    Except LayoutError (ActiveTable S) := do
  let lookups ← t.layout.featureLookups feature
  return lookups.foldl (fun t lookup => t.activateLookup lookup bits) t

/-- Activate the feature with a tag in the language system with a tag of the script with a tag.
    Without a tag for the language system the default one is meant. -/
def activateByTag (t : ActiveTable S) (script : Tag) (language : Option Tag) (feature : Tag)
    (bits : UInt32) : Except LayoutError (Except NotFound (ActiveTable S)) :=
  match t.layout.selectScript script with
  | none => .ok (.error .script)
  | some scriptIndex => do
    match ← selectLanguage scriptIndex with
    | none => return .error .language
    | some languageIndex =>
      match ← t.layout.selectFeature feature scriptIndex languageIndex with
      | none => return .error .feature
      | some featureIndex => return .ok (← t.activate featureIndex bits)
where
  selectLanguage (scriptIndex : UInt16) : Except LayoutError (Option UInt16) :=
    match language with
    | none => .ok (some defaultLanguage)
    | some tag => (t.layout.selectLanguage tag scriptIndex).map fun l => l.map Prod.fst

/-- Deactivate every lookup. -/
def deactivate (t : ActiveTable S) : ActiveTable S := { t with bits := t.bits.map fun _ => 0 }

/-- Change how deeply lookups may be nested. -/
def withNestingLimit (t : ActiveTable S) (limit : Nat) : ActiveTable S :=
  { t with nestingLimit := limit }

/-- The lookups that are active, in order, each with its index and its activation bits. -/
def active (t : ActiveTable S) : List (Nat × UInt32) :=
  (t.bits.toList.zipIdx.map fun (bits, index) => (index, bits)).filter fun (_, bits) => bits != 0

end ActiveTable

end OpenTypeLayout
