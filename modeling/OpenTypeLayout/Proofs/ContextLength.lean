import OpenTypeLayout.Proofs.Ahead

/-!
# What a context length stands for

A lookup that is invoked from a rule is given a number only: how many glyphs of the rule are left,
the one at hand included. `GlyphFilter.EndsAt` says which glyph is the last one of so many.
Everything that fits the context length ends there or before, if it has no more glyphs than sixteen
bits can count. This holds for the largest length, too, which at the same time stands for no context
at all.
-/

namespace OpenTypeLayout

/-- What fits a context length has no more glyphs than that. -/
theorem le_of_fitsContext {count : Nat} {contextLength : UInt16}
    (hfits : fitsContext count contextLength = true) (hcount : count ≤ 0xFFFF) :
    count ≤ contextLength.toNat := by
  rw [fitsContext, Bool.or_eq_true, beq_iff_eq, decide_eq_true_iff] at hfits
  rcases hfits with rfl | hle
  · exact hcount
  · exact hle

theorem toNat_of_fit16 {n : Nat} {answer : UInt16} (h : fit16 n = .ok answer) :
    answer.toNat = n := by
  unfold fit16 at h
  split at h
  case isTrue hle =>
    cases h
    exact UInt16.toNat_ofNat_of_lt' (Nat.lt_succ_of_le hle)
  case isFalse => cases h

namespace GlyphFilter

variable {f : GlyphFilter} {items : Array GlyphItem} {contextLength : UInt16} {place last : Nat}

/-- Of as many glyphs that count as the context length says, the first of which is at `place`, the
    last one is at `last`. -/
structure EndsAt (f : GlyphFilter) (items : Array GlyphItem) (contextLength : UInt16)
    (place last : Nat) : Prop where
  pos : 0 < contextLength.toNat
  nth : f.nth? items (contextLength.toNat - 1) place = some last

namespace EndsAt

theorem place_le (h : f.EndsAt items contextLength place last) : place ≤ last :=
  Nat.le_trans (Nat.le_add_right _ _) (nth?_le h.nth)

/-- Glyphs that fit the context length do not reach past the last one. -/
theorem le_last (h : f.EndsAt items contextLength place last)
    {count p : Nat} (hcount : count ≤ 0xFFFF) (hfits : fitsContext count contextLength = true)
    (hp : f.nth? items (count - 1) place = some p) : p ≤ last := by
  have := le_of_fitsContext hfits hcount
  exact nth?_mono (by omega) hp h.nth

theorem of_agree {f' : GlyphFilter} {items' : Array GlyphItem}
    (h : f.EndsAt items contextLength place last) (hagree : f.Agree items f' items' place last) :
    f'.EndsAt items' contextLength place last :=
  ⟨h.pos, hagree.nth? h.nth⟩

end EndsAt

end GlyphFilter

/-- A lookup that is invoked at a glyph of a rule gets a context length that ends where the
    rule ends. -/
theorem RuleMatch.endsAt {rule : RuleMatch} {f : GlyphFilter} {items : Array GlyphItem}
    {index last i place : Nat} {contextLength : UInt16}
    (hlast : f.nth? items (rule.inputCount - 1) index = some last)
    (hplace : (rule.places f items index)[i]? = some place)
    (hlength : fit16 (remainingFrom (rule.places f items index) place) = .ok contextLength) :
    f.EndsAt items contextLength place last := by
  rw [RuleMatch.places, GlyphFilter.getElem?_places, Option.ite_none_right_eq_some] at hplace
  obtain ⟨hi, hplace⟩ := hplace
  have hremaining := toNat_of_fit16 hlength
  rw [RuleMatch.places, GlyphFilter.remainingFrom_places hi hplace hlast] at hremaining
  refine ⟨by omega, ?_⟩
  rw [hremaining, Nat.add_sub_cancel]
  exact GlyphFilter.nth?_of_le hi hplace hlast

end OpenTypeLayout
