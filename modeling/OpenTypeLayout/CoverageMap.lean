import OpenTypeLayout.Coverage

/-!
# Entries for covered glyphs

Most subtables keep one entry for each glyph that a coverage table covers. A covered glyph without
an entry is an error when the glyph is met, not when the table is read.
-/

namespace OpenTypeLayout

/-- A coverage table with one entry for each covered glyph. -/
structure CoverageMap (α : Type) where
  /-- The covered glyphs. -/
  coverage : Coverage
  /-- The entries by coverage index. -/
  entries : Array α
deriving DecidableEq, Repr, Inhabited

/-- The entry for a glyph: none if the glyph is not covered, and an error if it is covered but has
    no entry. -/
def CoverageMap.find {α : Type} (m : CoverageMap α) (glyph : GlyphId) :
    Except ParseError (Option α) :=
  match m.coverage.index? glyph with
  | none => .ok none
  | some index =>
    -- nothing relates the number of entries to the coverage before this
    match m.entries[index.toNat]? with
    | some entry => .ok (some entry)
    | none => .error .badIndex

/-- Looking up an entry fails in one way only. -/
theorem CoverageMap.find_error {α : Type} {m : CoverageMap α} {glyph : GlyphId} {cause : ParseError}
    (h : m.find glyph = .error cause) : cause = .badIndex := by
  unfold find at h
  repeat' split at h
  all_goals cases h
  rfl

/-- What is found is one of the entries. -/
theorem CoverageMap.mem_of_find {α : Type} {m : CoverageMap α} {glyph : GlyphId} {entry : α}
    (h : m.find glyph = .ok (some entry)) : entry ∈ m.entries := by
  unfold find at h
  split at h
  case h_1 => cases h
  case h_2 =>
    split at h
    case h_1 hentry =>
      cases h
      exact Array.mem_of_getElem? hentry
    case h_2 => cases h

/-- The first answer that one of a list of subtables gives, unless one before it fails. -/
def firstAnswer {α β : Type} (answer : α → Except ParseError (Option β)) :
    List α → Except ParseError (Option β)
  | [] => .ok none
  | a :: rest =>
    match answer a with
    | .error cause => .error cause
    | .ok (some b) => .ok (some b)
    | .ok none => firstAnswer answer rest

/-- A failure is that of one of the subtables. -/
theorem firstAnswer_error {α β : Type} {answer : α → Except ParseError (Option β)} {list : List α}
    {cause : ParseError} (h : firstAnswer answer list = .error cause) :
    ∃ a ∈ list, answer a = .error cause := by
  induction list with
  | nil => cases h
  | cons a rest ih =>
    rw [firstAnswer] at h
    split at h
    case h_1 cause' ha =>
      cases h
      exact ⟨a, List.mem_cons_self, ha⟩
    case h_2 => cases h
    case h_3 =>
      obtain ⟨a', ha', hcause⟩ := ih h
      exact ⟨a', List.mem_cons_of_mem a ha', hcause⟩

end OpenTypeLayout
