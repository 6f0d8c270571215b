import OpenTypeLayout.Digits

/-!
# Tags

A tag names a table, a script, a language system or a feature. It is four bytes, held as one
big-endian number.

- `Tag.text` shows a tag: its four characters when all of them are printable ASCII, and the
  number in hexadecimal otherwise.
- `Tag.ofString?` goes the other way for texts of at most four printable ASCII characters.
-/

namespace OpenTypeLayout

/-- A four-byte name, most significant byte first. -/
structure Tag where
  /-- The four bytes read as a number. -/
  code : UInt32
deriving DecidableEq, Repr, Inhabited

namespace Tag

/-! ## §1 Bytes and text -/

/-- The four bytes, the most significant one first. -/
def bytes (t : Tag) : List Nat := digits 256 4 t.code.toNat

/-- Printable ASCII runs from the space to the tilde. -/
def isPrintable (n : Nat) : Bool := 0x20 ≤ n && n ≤ 0x7E

/-- The lower-case hexadecimal digit of a number below sixteen. -/
def hexDigit (n : Nat) : Char := if n < 10 then Char.ofNat (48 + n) else Char.ofNat (87 + n)

/-- The tag as a number of eight hexadecimal digits. -/
def hexText (t : Tag) : String :=
  "0x" ++ String.ofList ((digits 16 8 t.code.toNat).map hexDigit)

/-- A tag is shown by its characters if it can be, and by its number if not. -/
def text (t : Tag) : String :=
  if t.bytes.all isPrintable then String.ofList (t.bytes.map Char.ofNat) else t.hexText

/-- The shown text in double quotes, a quote or a backslash in it preceded by a backslash. -/
def quotedText (t : Tag) : String :=
  "\"" ++ String.ofList (t.text.toList.flatMap escaped) ++ "\""
where
  escaped (c : Char) : List Char := if c == '"' || c == '\\' then ['\\', c] else [c]

/-! ## §2 Tags from text -/

/-- The tag written by at most four printable ASCII characters, padded with spaces on the right.
    The limit is on the number of bytes of the text, so a longer text is refused even when its
    characters are few. -/
def ofString? (s : String) : Option Tag :=
  let codes := s.toList.map Char.toNat
  -- printable characters take one byte each, so there are at most four of them here
  if s.utf8ByteSize ≤ 4 && codes.all isPrintable then
    some ⟨UInt32.ofNat (ofDigits 256 (codes ++ List.replicate (4 - codes.length) 0x20))⟩
  else
    none

/-! ## §3 Tables of the layout engine -/

/-- The tag of the glyph definition table. -/
def gdef : Tag := ⟨0x47444546⟩

/-- The tag of the glyph substitution table. -/
def gsub : Tag := ⟨0x47535542⟩

/-- The tag of the glyph positioning table. -/
def gpos : Tag := ⟨0x47504F53⟩

end Tag

end OpenTypeLayout
