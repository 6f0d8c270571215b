import OpenTypeLayout.Bytes.Cursor

/-!
# Font files

A font file begins with a directory of its tables. The first record with a tag is the one that
counts.
-/

namespace OpenTypeLayout

/-- Where a table is in the file. -/
structure TableRecord where
  /-- The name of the table. -/
  tag : Tag
  /-- The stored checksum, which is not checked. -/
  checksum : UInt32
  /-- The place of the table, from the beginning of the file. -/
  offset : UInt32
  /-- The number of bytes of the table. -/
  length : UInt32
deriving DecidableEq, Repr, Inhabited

/-- Four numbers of four bytes. -/
def TableRecord.record : FixedRecord TableRecord :=
  (FixedRecord.pair (FixedRecord.pair .tag .u32) (FixedRecord.pair .u32 .u32)).map
    fun ((tag, checksum), (offset, length)) => { tag, checksum, offset, length }

/-- A font file with its table directory. -/
structure Sfnt where
  /-- The file. -/
  window : Window
  /-- The kind of font: TrueType outlines or a compact font program. -/
  version : UInt32
  /-- A stored aid for searching. -/
  searchRange : UInt16
  /-- A stored aid for searching. -/
  entrySelector : UInt16
  /-- A stored aid for searching. -/
  rangeShift : UInt16
  /-- The records of the directory. -/
  records : Array TableRecord

namespace Sfnt

/-- The version of fonts with TrueType outlines. -/
def trueTypeVersion : UInt32 := 0x00010000

/-- The version of fonts with a compact font program, which spells `OTTO`. -/
def compactVersion : UInt32 := 0x4F54544F

/-- Read the table directory of a font file. -/
def ofWindow (w : Window) : Except ParseError Sfnt := w.decode do
  let version ← Decoder.u32
  demand (version = trueTypeVersion || version = compactVersion) ParseError.badVersion
  let count ← Decoder.count
  -- the three aids are kept as they are stored; looking up a table does not use them
  let searchRange ← Decoder.u16
  let entrySelector ← Decoder.u16
  let rangeShift ← Decoder.u16
  let records ← Decoder.array TableRecord.record count
  return { window := w, version, searchRange, entrySelector, rangeShift, records }

/-- The first record with a tag. -/
def find? (f : Sfnt) (tag : Tag) : Option TableRecord := f.records.find? fun r => r.tag = tag

/-- Whether the directory has a record with the tag. -/
def hasTable (f : Sfnt) (tag : Tag) : Bool := (f.find? tag).isSome

/-- The window of a table, if the font has one with this tag. -/
def table? (f : Sfnt) (tag : Tag) : Except ParseError (Option Window) :=
  match f.find? tag with
  | none => .ok none
  | some r => (f.window.slice r.offset.toNat r.length.toNat).map some

/-- The bytes of a table as data of their own, if the font has one with this tag. -/
def tableData? (f : Sfnt) (tag : Tag) : Except ParseError (Option ByteArray) :=
  (f.table? tag).map fun w => w.map Window.toByteArray

/-- The bytes of a table that the font has to have. -/
def tableData (f : Sfnt) (tag : Tag) : Except ParseError ByteArray := do
  match ← f.tableData? tag with
  | some data => return data
  | none => throw (.missingTable tag)

end Sfnt

end OpenTypeLayout
