import OpenTypeLayout.Proofs.Ahead
import OpenTypeLayout.Proofs.GlyphText

/-!
# Settled texts

As long as the glyph definitions stay the same, it makes no difference whether the property of a
glyph has been kept with the glyph. A text is settled once all properties are kept; two texts that
settle to the same one count the same glyphs, and marks attach to the same glyphs in them.
-/

namespace OpenTypeLayout

/-! ## §1 Keeping properties -/

theorem LookupFlag.admits_empty (p : GlyphProperty) : LookupFlag.empty.admits p = true := by
  simp [admits, empty, ignoredClasses, markAttachmentType]

namespace Gdef

/-- A lookup that skips nothing tests every glyph with its property. -/
theorem check_empty (table : Option Gdef) (item : GlyphItem) :
    check table .empty item = some (propertyIn table item) := by
  cases table with
  | none => rfl
  | some g =>
    unfold propertyIn check
    dsimp only
    rw [if_pos (LookupFlag.admits_empty _), Option.getD_some]

theorem propertyIn_some (g : Gdef) (item : GlyphItem) :
    propertyIn (some g) item = g.propertyOf item := by
  have hcheck := check_empty (some g) item
  rw [check, if_pos (LookupFlag.admits_empty _), Option.some.injEq] at hcheck
  exact hcheck.symm

/-- Glyphs with the same property are tested in the same way. -/
theorem check_of_propertyIn {table : Option Gdef} {item item' : GlyphItem}
    (h : propertyIn table item' = propertyIn table item) (flag : LookupFlag) :
    check table flag item' = check table flag item := by
  cases table with
  | none => rfl
  | some g =>
    rw [propertyIn_some, propertyIn_some] at h
    rw [check, check, h]

theorem propertyOf_remember (g : Gdef) (item : GlyphItem) :
    g.propertyOf (remember (some g) item) = g.propertyOf item := by
  unfold remember
  dsimp only
  split
  case isTrue hkeeps => simp [propertyOf, hkeeps]
  case isFalse => rfl

@[simp] theorem check_remember (table : Option Gdef) (flag : LookupFlag) (item : GlyphItem) :
    check table flag (remember table item) = check table flag item := by
  cases table with
  | none => rfl
  | some g => rw [check, check, propertyOf_remember]

@[simp] theorem admits_remember (table : Option Gdef) (flag : LookupFlag) (item : GlyphItem) :
    admits table flag (remember table item) = admits table flag item := by
  rw [admits, check_remember, admits]

/-- Nothing changes for a glyph of which the property is known. -/
theorem remember_of_known {item : GlyphItem} {p : GlyphProperty} (h : item.known = some p)
    (table : Option Gdef) : remember table item = item := by
  unfold remember
  split
  case h_1 => rfl
  case h_2 g =>
    split
    case isTrue hkeeps =>
      rw [propertyOf, h]
      simp only [hkeeps, if_true]
      rw [← h]
    case isFalse => rfl

@[simp] theorem remember_remember (table : Option Gdef) (item : GlyphItem) :
    remember table (remember table item) = remember table item := by
  cases table with
  | none => rfl
  | some g =>
    by_cases hkeeps : g.keepsProperties = true
    · apply remember_of_known (p := g.propertyOf item)
      simp [remember, hkeeps]
    · simp [remember, hkeeps]

section

variable {table : Option Gdef} {item item' : GlyphItem}

theorem bare_of_remember (h : remember table item = remember table item') :
    item.bare = item'.bare := by
  rw [← bare_remember table, h, bare_remember]

theorem glyph_of_remember (h : remember table item = remember table item') :
    item.glyph = item'.glyph := by
  have hglyph := congrArg GlyphItem.glyph (bare_of_remember h)
  exact hglyph

theorem isActive_of_remember (h : remember table item = remember table item') (bits : UInt32) :
    item.isActive bits = item'.isActive bits := by
  have hactivation := congrArg GlyphItem.activation (bare_of_remember h)
  exact congrArg (fun activation => activation &&& bits != 0) hactivation

theorem check_of_remember (h : remember table item = remember table item') (flag : LookupFlag) :
    check table flag item = check table flag item' := by
  rw [← check_remember, h, check_remember]

end

end Gdef

theorem getElem?_rememberFrom (table : Option Gdef) (items : Array GlyphItem) (n index i : Nat) :
    (rememberFrom table items n index)[i]? =
      if index ≤ i ∧ i < index + n then items[i]?.map (Gdef.remember table) else items[i]? := by
  induction n generalizing items index with
  | zero => rw [rememberFrom, if_neg (by omega)]
  | succ n ih =>
    rw [rememberFrom, ih, Array.getElem?_modify]
    by_cases hi : index = i
    · rw [if_neg (by omega), if_pos hi, if_pos (by omega)]
    · rw [if_neg hi]
      congr 1
      exact propext ⟨fun h => by omega, fun h => by omega⟩

theorem getElem?_rememberRange (table : Option Gdef) (items : Array GlyphItem) (low high i : Nat) :
    (rememberRange table items low high)[i]? =
      if low ≤ i ∧ i < high then items[i]?.map (Gdef.remember table) else items[i]? := by
  rw [rememberRange, getElem?_rememberFrom]
  congr 1
  exact propext ⟨fun h => by omega, fun h => by omega⟩

@[simp] theorem size_rememberRange (table : Option Gdef) (items : Array GlyphItem)
    (low high : Nat) : (rememberRange table items low high).size = items.size := by
  rw [← length_bareText, bareText_rememberRange, length_bareText]

/-! ## §2 Settled texts -/

/-- The text with all properties kept. -/
def settled (table : Option Gdef) (items : Array GlyphItem) : Array GlyphItem :=
  items.map (Gdef.remember table)

@[simp] theorem size_settled (table : Option Gdef) (items : Array GlyphItem) :
    (settled table items).size = items.size := by
  simp [settled]

@[simp] theorem getElem?_settled (table : Option Gdef) (items : Array GlyphItem) (i : Nat) :
    (settled table items)[i]? = items[i]?.map (Gdef.remember table) := by
  simp [settled]

/-- Keeping some of the properties leaves the same text to settle. -/
@[simp] theorem settled_rememberRange (table : Option Gdef) (items : Array GlyphItem)
    (low high : Nat) :
    settled table (rememberRange table items low high) = settled table items := by
  apply Array.ext_getElem?
  intro i
  rw [getElem?_settled, getElem?_settled, getElem?_rememberRange]
  split
  · simp [Function.comp_def]
  · rfl

section

variable {table : Option Gdef} {items items' : Array GlyphItem}

theorem size_of_settled (h : settled table items' = settled table items) :
    items'.size = items.size := by
  simpa using congrArg Array.size h

/-- A glyph of a text is the same in a text that settles to the same one, up to what is kept. -/
theorem getElem?_of_settled (h : settled table items' = settled table items) {i : Nat}
    {item' : GlyphItem} (hitem : items'[i]? = some item') :
    ∃ item, items[i]? = some item ∧ Gdef.remember table item = Gdef.remember table item' := by
  have hsame : items'[i]?.map (Gdef.remember table) = items[i]?.map (Gdef.remember table) := by
    rw [← getElem?_settled, ← getElem?_settled, h]
  rw [hitem] at hsame
  cases hget : items[i]? with
  | none =>
    rw [hget] at hsame
    cases hsame
  | some item =>
    rw [hget] at hsame
    exact ⟨item, rfl, (Option.some.inj hsame).symm⟩

theorem bareText_of_settled (h : settled table items' = settled table items) :
    bareText items' = bareText items := by
  have hbare : ∀ items, bareText (settled table items) = bareText items := fun items => by
    simp [bareText, settled, Function.comp_def]
  rw [← hbare items', h, hbare]

theorem any_admits_settled (table : Option Gdef) (flag : LookupFlag) (items : Array GlyphItem)
    (i : Nat) :
    (settled table items)[i]?.any (GlyphFilter.mk table flag).admits =
      items[i]?.any (GlyphFilter.mk table flag).admits := by
  rw [getElem?_settled]
  cases items[i]? <;> simp [GlyphFilter.admits]

/-- Texts that settle to the same one count the same glyphs. -/
theorem agree_of_settled (h : settled table items' = settled table items) (flag : LookupFlag)
    (low high : Nat) :
    (GlyphFilter.mk table flag).Agree items (GlyphFilter.mk table flag) items' low high where
  size := size_of_settled h
  admits i _ _ := by rw [← any_admits_settled, h, any_admits_settled]

end

end OpenTypeLayout
