import OpenTypeLayout.Tag

/-!
# Errors

What can go wrong, as causes. There are three kinds of failure: font data that cannot be decoded
(`ParseError`), a layout operation that cannot be carried out (`LayoutError`, which wraps the
first), and a structure that cannot be encoded (`WriteError`). The wording of each cause is in
its `message` function and nowhere else. A `Program` is what can fail with a `LayoutError`.
-/

namespace OpenTypeLayout

/-! ## §1 Causes -/

/-- Why font data could not be decoded. -/
inductive ParseError where
  /-- The data ends before the item does. -/
  | endOfData
  /-- A field holds a value that its table does not allow. -/
  | badValue
  /-- The table has a version that is not known. -/
  | badVersion
  /-- The subtable has a format that is not known. -/
  | badFormat
  /-- An offset points outside the data. -/
  | badOffset
  /-- An index points outside a list. -/
  | badIndex
  /-- A count is larger than is supported. -/
  | limitExceeded
  /-- A value that has to be there is not. -/
  | missingValue
  /-- The font lacks a table that is needed. -/
  | missingTable (tag : Tag)
deriving DecidableEq, Repr

/-- Why a layout operation could not be carried out. -/
inductive LayoutError where
  /-- An index, a glyph list or a buffer given by the caller cannot be used. -/
  | invalidArgument
  /-- The font data is at fault. -/
  | parse (cause : ParseError)
  /-- Contextual lookups invoked one another too deeply. -/
  | tooManyNestedContexts
  /-- A metric was asked for by its number and nothing resolves such numbers. -/
  | noMultipleMasterInterpreter
  /-- The source of glyph outlines failed. -/
  | outline (text : String)
deriving DecidableEq, Repr

/-- Why a structure could not be encoded. -/
inductive WriteError where
  /-- A value does not fit the field that should hold it. -/
  | badValue
deriving DecidableEq, Repr

/-! ## §2 Wording -/

/-- The text of a decoding error. -/
def ParseError.message : ParseError → String
  | .endOfData => "end of data reached unexpectedly"
  | .badValue => "invalid value"
  | .badVersion => "unexpected data version"
  | .badFormat => "unknown subtable format"
  | .badOffset => "invalid data offset"
  | .badIndex => "invalid data index"
  | .limitExceeded => "limit exceeded"
  | .missingValue => "an expected data value was missing"
  | .missingTable tag => "font is missing '" ++ tag.text ++ "' table"

/-- The text of a layout error. A decoding error keeps its text behind a short heading. -/
def LayoutError.message : LayoutError → String
  | .invalidArgument => "invalid argument"
  | .parse cause => "layout parse: " ++ cause.message
  | .tooManyNestedContexts => "too many nested contexts"
  | .noMultipleMasterInterpreter => "no multiple master interpreter available"
  | .outline text => "glyph outline: " ++ text

/-- The text of an encoding error. -/
def WriteError.message : WriteError → String
  | .badValue => "write: bad value"

/-! ## §3 Raising errors -/

/-- Go on if the condition holds and fail with the given error if not. -/
def demand {m : Type → Type} {ε : Type} [Monad m] [MonadExceptOf ε m] (condition : Bool)
    (failure : ε) : m Unit :=
  if condition then pure () else throw failure

/-- The tag written by a text, or the error of a value that is not allowed. -/
def Tag.ofString (s : String) : Except ParseError Tag :=
  match Tag.ofString? s with
  | some tag => .ok tag
  | none => .error .badValue

/-- A number in sixteen bits, or the error of a value that does not fit. -/
def fit16 (n : Nat) : Except LayoutError UInt16 :=
  if n ≤ 0xFFFF then .ok (UInt16.ofNat n) else .error (.parse .badValue)

theorem fit16_error {n : Nat} {e : LayoutError} (h : fit16 n = .error e) :
    e = .parse .badValue ∧ 0xFFFF < n := by
  unfold fit16 at h
  split at h
  case isTrue => cases h
  case isFalse hlt =>
    cases h
    exact ⟨rfl, Nat.lt_of_not_le hlt⟩

/-- A decoding result seen as the result of a layout operation. -/
def LayoutError.ofParse {α : Type} : Except ParseError α → Except LayoutError α
  | .ok a => .ok a
  | .error cause => .error (.parse cause)

theorem LayoutError.ofParse_eq_ok {α : Type} {r : Except ParseError α} {a : α}
    (h : ofParse r = .ok a) : r = .ok a := by
  cases r with
  | ok b =>
    cases h
    rfl
  | error => cases h

/-- A program that works on a state and may fail. What it has done before a failure stays done. -/
abbrev Program (S : Type) := ExceptT LayoutError (StateM S)

end OpenTypeLayout
