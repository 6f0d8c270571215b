import OpenTypeLayout.Bytes.Cursor

/-!
# Scripts and language systems

A layout table lists the scripts that it supports. Each script has language systems, and each
language system names the features that may be used for it and one feature that has to be.
Scripts that offer nothing are dropped when the list is read.
-/

namespace OpenTypeLayout

/-- The index that stands for no required feature. -/
def noFeature : UInt16 := 0xFFFF

/-- The index that stands for the default language system of a script. -/
def defaultLanguage : UInt16 := 0xFFFF

/-- The features of a language system. -/
structure LangSys where
  /-- The index of the required feature. -/
  required : UInt16 := noFeature
  /-- The indices of the other features. -/
  features : Array UInt16 := #[]
deriving DecidableEq, Repr, Inhabited

namespace LangSys

/-- The language system without features. -/
def empty : LangSys := {}

/-- Whether the language system has no features. -/
def isEmpty (s : LangSys) : Bool := s.required == noFeature && s.features.isEmpty

/-- The index of the required feature, if there is one. -/
def required? (s : LangSys) : Option UInt16 :=
  if s.required = noFeature then none else some s.required

/-- Read the language system at the beginning of a window. -/
def ofWindow (w : Window) : Except ParseError LangSys := w.decode do
  let _reserved ← Decoder.u16
  let required ← Decoder.u16
  return { required, features := ← Decoder.u16s (← Decoder.count) }

end LangSys

/-- Something that a tag names. -/
structure Tagged (α : Type) where
  /-- The name. -/
  tag : Tag
  /-- What is named. -/
  item : α
deriving DecidableEq, Repr, Inhabited

/-- Read a list of tags, each with the offset of what it names. Offsets are relative to `base`. -/
def Decoder.taggedList {α : Type} (base : Window) (decodeOne : Window → Except ParseError α) :
    Decoder (Except ParseError) (Array (Tagged α)) := do
  let records ← Decoder.array (FixedRecord.pair .tag .u16) (← Decoder.count)
  records.mapM fun (tag, n) => do return { tag, item := ← decodeOne (base.offset n.toNat) }

/-- The language systems of a script. -/
structure Script where
  /-- The language system for languages that are not listed. -/
  default : LangSys := .empty
  /-- The language systems of single languages. -/
  languages : Array (Tagged LangSys) := #[]
deriving DecidableEq, Repr, Inhabited

namespace Script

/-- Whether the script offers nothing. -/
def isEmpty (s : Script) : Bool := s.languages.isEmpty && s.default.isEmpty

/-- Read the script at the beginning of a window. -/
def ofWindow (w : Window) : Except ParseError Script := w.decode do
  -- the default language system is decoded before the others are counted
  let default ← w.decodeNullable (← Decoder.u16) LangSys.ofWindow
  let languages ← Decoder.taggedList w LangSys.ofWindow
  return { default := default.getD .empty, languages }

/-- The language system with an index, which may be that of the default language system. -/
def langSys? (s : Script) (language : UInt16) : Option LangSys :=
  -- there are at most 65535 others, so no other index is taken for this one
  if language = defaultLanguage then some s.default
  else s.languages[language.toNat]?.map Tagged.item

end Script

/-- Read the list of scripts at the beginning of a window, without the scripts that offer
    nothing. -/
def scriptsOfWindow (w : Window) : Except ParseError (Array (Tagged Script)) := w.decode do
  let scripts ← Decoder.taggedList w Script.ofWindow
  return scripts.filter fun s => !s.item.isEmpty

/-- Read the list of features at the beginning of a window. A feature is a list of lookup
    indices. -/
def featuresOfWindow (w : Window) : Except ParseError (Array (Tagged (Array UInt16))) :=
  w.decode (Decoder.taggedList w feature)
where
  feature (w : Window) : Except ParseError (Array UInt16) := w.decode do
    let _reserved ← Decoder.u16
    Decoder.u16s (← Decoder.count)

end OpenTypeLayout
