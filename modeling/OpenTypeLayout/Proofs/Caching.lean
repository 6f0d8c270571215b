import OpenTypeLayout.Proofs.Lookalikes

/-!
# Properties that are kept

The property that a lookup has found for a glyph of a text is kept with the glyph. It is right to do
so as long as what is kept is what the table says: then nothing is different from looking every
property up again.

- `Gdef.afresh` is the table with no property ever kept.
- `Gdef.Confirms` holds of a glyph if what is known of it is right.
-/

namespace OpenTypeLayout

namespace Gdef

variable {g : Gdef} {x y : GlyphItem}

/-- The table, of which every property is looked up whenever it is needed, and none is kept. -/
def afresh (g : Gdef) : Gdef := { g with keepsProperties := false }

theorem propertyOf_afresh (g : Gdef) (x : GlyphItem) :
    g.afresh.propertyOf x = g.property x.glyph := by
  rw [propertyOf]
  cases x.known <;> rfl

/-- What is known of a glyph, if anything is known, is what the table says of the glyph. -/
def Confirms (g : Gdef) (x : GlyphItem) : Prop := ∀ p, x.known = some p → p = g.property x.glyph

theorem confirms_of_unknown (h : x.known = none) : g.Confirms x := by
  intro p hp
  rw [h] at hp
  cases hp

theorem Confirms.propertyOf (h : g.Confirms x) : g.propertyOf x = g.property x.glyph := by
  unfold Gdef.propertyOf
  cases hx : x.known with
  | none => rfl
  | some p =>
    obtain rfl := h p hx
    exact ite_self _

theorem Confirms.remember (h : g.Confirms x) : g.Confirms (Gdef.remember (some g) x) := by
  intro p hp
  simp only [Gdef.remember] at hp ⊢
  split at hp
  case isTrue => rw [if_pos ‹_›, ← Option.some.inj hp, h.propertyOf]
  case isFalse =>
    rw [if_neg ‹_›]
    exact h p hp

/-- Two glyphs are the same apart from what is known of them, and what is known of the first one is
    right. -/
structure KnownRightly (g : Gdef) (x y : GlyphItem) : Prop where
  bare : y.bare = x.bare
  confirmed : g.Confirms x

namespace KnownRightly

/-- A glyph of which something right is known looks the same as one whose property is looked up. -/
theorem alike (h : g.KnownRightly x y) : Alike (some g) (some g.afresh) x y where
  bare := h.bare
  check flag := by
    rw [Gdef.check, Gdef.check, propertyOf_afresh, h.confirmed.propertyOf,
      GlyphItem.glyph_of_bare h.bare]

theorem remember (h : g.KnownRightly x y) : g.KnownRightly (Gdef.remember (some g) x) y :=
  ⟨h.bare.trans (bare_remember (some g) x).symm, h.confirmed.remember⟩

end KnownRightly

end Gdef

/-- The items of two texts are the same apart from what is known of them, and what is known in the
    first one is right. -/
abbrev TextKnownRightly (g : Gdef) (items items' : Array GlyphItem) : Prop :=
  Pointwise g.KnownRightly items items'

namespace TextKnownRightly

variable {g : Gdef} {items items' : Array GlyphItem}

theorem alike (h : TextKnownRightly g items items') :
    TextsAlike (some g) (some g.afresh) items items' :=
  h.mono fun _ _ hxy => hxy.alike

theorem of_confirms (h : ∀ x ∈ items, g.Confirms x) : TextKnownRightly g items items :=
  .refl fun x hx => ⟨rfl, h x hx⟩

theorem confirms (h : TextKnownRightly g items items') : ∀ x ∈ items, g.Confirms x := by
  intro x hx
  obtain ⟨i, hi, rfl⟩ := Array.mem_iff_getElem.mp hx
  rcases Pointwise.getElem?_cases h i with ⟨hnone, -⟩ | ⟨x, y, hitem, -, hxy⟩
  · rw [Array.getElem?_eq_getElem hi] at hnone
    cases hnone
  · rw [Array.getElem?_eq_getElem hi] at hitem
    cases hitem
    exact hxy.confirmed

/-- Texts that look alike stay so for as long as what is known in the first one is right. -/
theorem of_alike (h : TextsAlike (some g) (some g.afresh) items items')
    (hconfirms : ∀ x ∈ items, g.Confirms x) : TextKnownRightly g items items' := by
  intro i
  rcases Pointwise.getElem?_cases h i with ⟨hx, hy⟩ | ⟨x, y, hx, hy, hxy⟩
  · rw [hx, hy]
    exact .none
  · rw [hx, hy]
    exact .some ⟨hxy.bare, hconfirms x (Array.mem_of_getElem? hx)⟩

theorem bareText_eq (h : TextKnownRightly g items items') : bareText items' = bareText items := by
  apply List.ext_getElem?
  intro i
  rw [getElem?_bareText, getElem?_bareText]
  exact Pointwise.map_getElem? h (fun _ _ hxy => hxy.bare) i

end TextKnownRightly

end OpenTypeLayout
