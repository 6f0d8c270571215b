import OpenTypeLayout.LookupList
import OpenTypeLayout.ScriptList

/-!
# Layout tables

A layout table has a list of scripts, a list of features and a list of lookups. Scripts point at
features by index, and features point at lookups.

- `LayoutTable.load` reads a table in any monad that knows shared tables, `LayoutTable.ofWindow`
  reads it with each shared table decoded once, and `LayoutTable.ofWindowAfresh` reads it with
  every one decoded where it is asked for.
- The selecting functions find a script, a language system and a feature by tag; the listing
  functions give the tags in order.
-/

namespace OpenTypeLayout

/-- A table of substitutions or of positionings. -/
structure LayoutTable (S : Type) where
  /-- The scripts. -/
  scripts : Array (Tagged Script)
  /-- The features, each a list of lookup indices. -/
  features : Array (Tagged (Array UInt16))
  /-- The lookups. -/
  lookups : Array (Lookup S)
deriving DecidableEq, Repr, Inhabited

namespace LayoutTable

variable {S : Type}

/-! ## §1 Reading -/

/-- Read a layout table. All versions with a major number of 1 are alike here. A list whose offset
    is zero is empty. -/
def load [LookupFamily S] {m : Type → Type} [Monad m] [MonadExceptOf ParseError m]
    [SharedTables m] (w : Window) : m (LayoutTable S) := w.decode do
  let majorVersion ← Decoder.u16
  let _minorVersion ← Decoder.u16
  let scriptsOffset ← Decoder.u16
  let featuresOffset ← Decoder.u16
  let lookupsOffset ← Decoder.u16
  -- the version counts only once the whole header has been read
  demand (majorVersion = 1) ParseError.badVersion
  let scripts ← w.decodeNullable scriptsOffset fun target =>
    MonadExcept.ofExcept (scriptsOfWindow target)
  let features ← w.decodeNullable featuresOffset fun target =>
    MonadExcept.ofExcept (featuresOfWindow target)
  let lookups ← w.decodeNullable lookupsOffset loadLookups
  return {
    scripts := scripts.getD #[]
    features := features.getD #[]
    lookups := lookups.getD #[] }

/-- The layout table at the beginning of a window, each shared table decoded once. -/
def ofWindow [LookupFamily S] (w : Window) : Except ParseError (LayoutTable S) :=
  CachedLoad.result (load w)

/-- The layout table at the beginning of a window, shared tables decoded wherever they are asked
    for. -/
def ofWindowAfresh [LookupFamily S] (w : Window) : Except ParseError (LayoutTable S) := load w

/-! ## §2 Items by index -/

/-- The script with an index. -/
def script (t : LayoutTable S) (script : UInt16) : Except LayoutError Script :=
  match t.scripts[script.toNat]? with
  | some s => .ok s.item
  | none => .error .invalidArgument

/-- The language system of a script with an index. -/
def langSys (t : LayoutTable S) (script language : UInt16) : Except LayoutError LangSys := do
  match (← t.script script).langSys? language with
  | some system => return system
  | none => throw .invalidArgument

/-- The feature with an index. -/
def feature (t : LayoutTable S) (index : Nat) : Except ParseError (Tagged (Array UInt16)) :=
  match t.features[index]? with
  | some f => .ok f
  | none => .error .badIndex

/-- The lookup with an index. -/
def lookup (t : LayoutTable S) (index : Nat) : Except ParseError (Lookup S) :=
  match t.lookups[index]? with
  | some l => .ok l
  | none => .error .badIndex

/-- The lookup indices of a feature that a caller asks for. -/
def featureLookups (t : LayoutTable S) (index : UInt16) : Except LayoutError (Array UInt16) :=
  match t.features[index.toNat]? with
  | some f => .ok f.item
  | none => .error .invalidArgument

/-- Whether some lookup tells marks apart by their attachment class. -/
def usesMarkAttachment (t : LayoutTable S) : Bool :=
  t.lookups.any fun l => l.flag.markAttachmentType != 0

/-! ## §3 Listing -/

/-- The tags of the scripts. -/
def scriptTags (t : LayoutTable S) : Array Tag := t.scripts.map Tagged.tag

/-- The tags of the language systems of a script. -/
def languageTags (t : LayoutTable S) (script : UInt16) : Except LayoutError (Array Tag) := do
  return (← t.script script).languages.map Tagged.tag

/-- The tags of the features of a language system. -/
def featureTags (t : LayoutTable S) (script language : UInt16) :
    Except LayoutError (Array Tag) := do
  let system ← t.langSys script language
  system.features.mapM fun f => do return (← LayoutError.ofParse (t.feature f.toNat)).tag

/-! ## §4 Selecting -/

/-- The index of the first item with a tag. -/
def firstTagged {α : Type} (items : Array (Tagged α)) (tag : Tag) : Option UInt16 :=
  (items.findIdx? fun i => i.tag = tag).map UInt16.ofNat

/-- The index of the script with a tag. -/
def selectScript (t : LayoutTable S) (tag : Tag) : Option UInt16 := firstTagged t.scripts tag

/-- The index of the language system of a script with a tag, and the index of its required
    feature. -/
def selectLanguage (t : LayoutTable S) (tag : Tag) (script : UInt16) :
    Except LayoutError (Option (UInt16 × UInt16)) := do
  let languages := (← t.script script).languages
  -- the required feature is given as it is stored, also where it stands for none
  return (languages.findIdx? fun l => l.tag = tag).bind fun i =>
    languages[i]?.map fun l => (UInt16.ofNat i, l.item.required)

/-- The required feature of a language system, if it has one. -/
def requiredFeature (t : LayoutTable S) (script language : UInt16) :
    Except LayoutError (Option UInt16) := do
  return (← t.langSys script language).required?

/-- The first of some feature indices at which there is a feature with a tag. An index past the
    features fails, but only if the search gets there. -/
def findFeature (t : LayoutTable S) (tag : Tag) :
    List UInt16 → Except LayoutError (Option UInt16)
  | [] => .ok none
  | index :: rest =>
    match t.feature index.toNat with
    | .error cause => .error (.parse cause)
    | .ok f => if f.tag = tag then .ok (some index) else findFeature t tag rest

/-- The index of the feature of a language system with a tag. -/
def selectFeature (t : LayoutTable S) (tag : Tag) (script language : UInt16) :
    Except LayoutError (Option UInt16) := do
  t.findFeature tag (← t.langSys script language).features.toList

end LayoutTable

end OpenTypeLayout
