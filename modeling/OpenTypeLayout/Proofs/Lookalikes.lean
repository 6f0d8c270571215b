import OpenTypeLayout.Proofs.Settled
import OpenTypeLayout.Proofs.SideBySide

/-!
# Texts that look alike

Two texts may be read with two tables of glyph definitions. If they differ only in what is known of
their glyphs, and the same is found out about glyphs at the same index, then lookups do not tell
them apart: the same glyphs count, the same rules match, and looking goes equally far.
-/

namespace OpenTypeLayout

/-! ## §1 Glyphs -/

theorem GlyphItem.glyph_of_bare {x y : GlyphItem} (h : y.bare = x.bare) : y.glyph = x.glyph := by
  have hglyph := congrArg GlyphItem.glyph h
  exact hglyph

/-- A glyph looks the same to every lookup as another one does with another table: they differ at
    most in what is known of them, and the same is found out about them. -/
structure Gdef.Alike (table table' : Option Gdef) (x y : GlyphItem) : Prop where
  bare : y.bare = x.bare
  check : ∀ flag, Gdef.check table' flag y = Gdef.check table flag x

namespace Gdef.Alike

variable {table table' : Option Gdef} {x y : GlyphItem}

theorem refl (table : Option Gdef) (x : GlyphItem) : Alike table table x x := ⟨rfl, fun _ => rfl⟩

theorem glyph (h : Alike table table' x y) : y.glyph = x.glyph := GlyphItem.glyph_of_bare h.bare

theorem ligature (h : Alike table table' x y) : y.ligature = x.ligature := by
  have hligature := congrArg GlyphItem.ligature h.bare
  exact hligature

theorem component (h : Alike table table' x y) : y.component = x.component := by
  have hcomponent := congrArg GlyphItem.component h.bare
  exact hcomponent

theorem isActive (h : Alike table table' x y) (bits : UInt32) :
    y.isActive bits = x.isActive bits := by
  have hactivation := congrArg GlyphItem.activation h.bare
  exact congrArg (fun activation => activation &&& bits != 0) hactivation

theorem admits (h : Alike table table' x y) (flag : LookupFlag) :
    Gdef.admits table' flag y = Gdef.admits table flag x := by
  rw [Gdef.admits, h.check, Gdef.admits]

theorem propertyIn (h : Alike table table' x y) :
    Gdef.propertyIn table' y = Gdef.propertyIn table x := by
  rw [Gdef.propertyIn, h.check, Gdef.propertyIn]

/-- Keeping what has been found out about either glyph makes no difference. -/
theorem remember_left (h : Alike table table' x y) : Alike table table' (remember table x) y where
  bare := h.bare.trans (bare_remember table x).symm
  check flag := (h.check flag).trans (check_remember table flag x).symm

theorem remember_right (h : Alike table table' x y) : Alike table table' x (remember table' y) where
  bare := (bare_remember table' y).trans h.bare
  check flag := (check_remember table' flag y).trans (h.check flag)

end Gdef.Alike

/-! ## §2 Texts -/

/-- The glyphs of two texts look the same to every lookup, each text with its own table. -/
abbrev TextsAlike (table table' : Option Gdef) (items items' : Array GlyphItem) : Prop :=
  Pointwise (Gdef.Alike table table') items items'

/-- What holds of the items of two arrays, and goes on to hold when the property of a glyph of the
    first one is kept, holds when properties are kept with some of them. -/
theorem Pointwise.rememberRange_left {α : Type} {related : GlyphItem → α → Prop}
    {table : Option Gdef} {items : Array GlyphItem} {ys : Array α} (h : Pointwise related items ys)
    (hremember : ∀ x y, related x y → related (Gdef.remember table x) y) (low high : Nat) :
    Pointwise related (rememberRange table items low high) ys := by
  intro i
  rw [getElem?_rememberRange]
  split
  · rcases h.getElem?_cases i with ⟨hx, hy⟩ | ⟨x, y, hx, hy, hxy⟩
    · rw [hx, hy]
      exact .none
    · rw [hx, hy]
      exact .some (hremember x y hxy)
  · exact h i

theorem Pointwise.rememberRange_right {α : Type} {related : α → GlyphItem → Prop}
    {table : Option Gdef} {xs : Array α} {items : Array GlyphItem} (h : Pointwise related xs items)
    (hremember : ∀ x y, related x y → related x (Gdef.remember table y)) (low high : Nat) :
    Pointwise related xs (rememberRange table items low high) := by
  intro i
  rw [getElem?_rememberRange]
  split
  · rcases h.getElem?_cases i with ⟨hx, hy⟩ | ⟨x, y, hx, hy, hxy⟩
    · rw [hx, hy]
      exact .none
    · rw [hx, hy]
      exact .some (hremember x y hxy)
  · exact h i

theorem Pointwise.of_bareText {items items' : Array GlyphItem}
    (h : bareText items' = bareText items) :
    Pointwise (fun x y => y.bare = x.bare) items items' := by
  intro i
  have hbare : items'[i]?.map GlyphItem.bare = items[i]?.map GlyphItem.bare := by
    rw [← getElem?_bareText, h, getElem?_bareText]
  revert hbare
  rcases items[i]? with _ | x <;> rcases items'[i]? with _ | y <;> intro hbare
  · exact .none
  · cases hbare
  · cases hbare
  · exact .some (Option.some.inj hbare)

namespace TextsAlike

variable {table table' : Option Gdef} {items items' : Array GlyphItem}

theorem rememberRange (h : TextsAlike table table' items items') (low high low' high' : Nat) :
    TextsAlike table table' (rememberRange table items low high)
      (rememberRange table' items' low' high') :=
  (h.rememberRange_left (fun _ _ hxy => hxy.remember_left) low high).rememberRange_right
    (fun _ _ hxy => hxy.remember_right) low' high'

/-- The glyphs at an index are the same, if there are any. -/
theorem glyph_getElem? (h : TextsAlike table table' items items') (i : Nat) :
    items'[i]?.map GlyphItem.glyph = items[i]?.map GlyphItem.glyph :=
  h.map_getElem? (fun _ _ hxy => hxy.glyph) i

theorem any_admits (h : TextsAlike table table' items items') (flag : LookupFlag) (i : Nat) :
    items'[i]?.any (GlyphFilter.mk table' flag).admits =
      items[i]?.any (GlyphFilter.mk table flag).admits :=
  h.any_getElem? (fun _ _ hxy => hxy.admits flag) i

theorem acceptsAt (h : TextsAlike table table' items items') (p : GlyphPattern) (place i : Nat) :
    p.acceptsAt place items' i = p.acceptsAt place items i :=
  h.any_getElem? (fun _ _ hxy => congrArg (p.accepts place) hxy.glyph) i

/-- Texts that settle to the same one look alike. -/
theorem of_settled (h : settled table items' = settled table items) :
    TextsAlike table table items items' := by
  intro i
  cases hy : items'[i]? with
  | none =>
    have hend : items[i]? = none := by
      rw [Array.getElem?_eq_none_iff] at hy ⊢
      rw [← size_of_settled h]
      exact hy
    rw [hend]
    exact .none
  | some y =>
    obtain ⟨x, hx, hsame⟩ := getElem?_of_settled h hy
    rw [hx]
    exact .some ⟨(Gdef.bare_of_remember hsame).symm, fun flag =>
      (Gdef.check_of_remember hsame flag).symm⟩

/-- Texts look alike if their glyphs are the same, and lookups find out the same about them. -/
theorem of_propertyIn (hbare : bareText items' = bareText items)
    (hproperty : ∀ i : Nat,
      items'[i]?.map (Gdef.propertyIn table) = items[i]?.map (Gdef.propertyIn table)) :
    TextsAlike table table items items' := by
  intro i
  have hproperty := hproperty i
  revert hproperty
  rcases (Pointwise.of_bareText hbare).getElem?_cases i with ⟨hx, hy⟩ | ⟨x, y, hx, hy, hxy⟩
  · rw [hx, hy]
    exact fun _ => .none
  · rw [hx, hy]
    exact fun hproperty => .some ⟨hxy, Gdef.check_of_propertyIn (Option.some.inj hproperty)⟩

/-! ## §3 Glyphs that count -/

theorem firstFrom (h : TextsAlike table table' items items') (flag : LookupFlag)
    (left place : Nat) :
    (GlyphFilter.mk table' flag).firstFrom items' left place =
      (GlyphFilter.mk table flag).firstFrom items left place := by
  induction left generalizing place with
  | zero => rfl
  | succ left ih => rw [GlyphFilter.firstFrom, GlyphFilter.firstFrom, h.any_admits, ih]

theorem next? (h : TextsAlike table table' items items') (flag : LookupFlag) (place : Nat) :
    (GlyphFilter.mk table' flag).next? items' place =
      (GlyphFilter.mk table flag).next? items place := by
  rw [GlyphFilter.next?, GlyphFilter.next?, h.firstFrom, h.size_eq]

theorem prev? (h : TextsAlike table table' items items') (flag : LookupFlag) (place : Nat) :
    (GlyphFilter.mk table' flag).prev? items' place =
      (GlyphFilter.mk table flag).prev? items place := by
  induction place with
  | zero => rfl
  | succ place ih => rw [GlyphFilter.prev?, GlyphFilter.prev?, h.any_admits, ih]

theorem places (h : TextsAlike table table' items items') (flag : LookupFlag) (n place : Nat) :
    (GlyphFilter.mk table' flag).places items' n place =
      (GlyphFilter.mk table flag).places items n place := by
  induction n generalizing place with
  | zero => rfl
  | succ n ih => simp only [GlyphFilter.places, h.next?, ih]

/-- A rule has matched the same glyphs in both texts. -/
theorem rulePlaces (h : TextsAlike table table' items items') (flag : LookupFlag) (rule : RuleMatch)
    (index : Nat) :
    rule.places ⟨table', flag⟩ items' index = rule.places ⟨table, flag⟩ items index :=
  h.places flag _ index

/-! ## §4 Rules that match -/

theorem scanBackFrom (h : TextsAlike table table' items items')
    (flag : LookupFlag) (p : GlyphPattern) (left place index : Nat) :
    (GlyphFilter.mk table' flag).scanBackFrom p items' left place index =
      (GlyphFilter.mk table flag).scanBackFrom p items left place index := by
  induction left generalizing place index with
  | zero => rfl
  | succ left ih => simp only [GlyphFilter.scanBackFrom, h.prev?, h.acceptsAt, ih]

theorem scanFrontFrom (h : TextsAlike table table' items items')
    (flag : LookupFlag) (p : GlyphPattern) (left place index : Nat) :
    (GlyphFilter.mk table' flag).scanFrontFrom p items' left place index =
      (GlyphFilter.mk table flag).scanFrontFrom p items left place index := by
  induction left generalizing place index with
  | zero => rfl
  | succ left ih => simp only [GlyphFilter.scanFrontFrom, h.next?, h.acceptsAt, h.size_eq, ih]

end TextsAlike

/-- Two places are at the same index of texts that look alike, and so does the text before them. -/
structure TextPlace.Alike (table table' : Option Gdef) (t t' : TextPlace) : Prop where
  before : TextsAlike table table' t.before t'.before
  beforeCount : t'.beforeCount = t.beforeCount
  items : TextsAlike table table' t.items t'.items
  index : t'.index = t.index

namespace TextPlace.Alike

variable {table table' : Option Gdef} {t t' : TextPlace}

theorem reach (h : Alike table table' t t') : t'.reach = t.reach := by
  rw [TextPlace.reach, TextPlace.reach, h.beforeCount, h.index]

theorem scan (h : Alike table table' t t') (flag : LookupFlag) (c : ContextPattern) :
    c.scan ⟨table', flag⟩ t' = c.scan ⟨table, flag⟩ t := by
  have hback : ∀ p count, (GlyphFilter.mk table' flag).scanBack p t'.before count =
      (GlyphFilter.mk table flag).scanBack p t.before count := fun p count =>
    h.before.scanBackFrom flag p _ 0 count
  have hfront : ∀ p index, (GlyphFilter.mk table' flag).scanFront p t'.items index =
      (GlyphFilter.mk table flag).scanFront p t.items index := fun p index =>
    h.items.scanFrontFrom flag p _ 0 index
  simp only [ContextPattern.scan, hback, hfront, h.beforeCount, h.index]

/-- The same rule is the first one that matches. -/
theorem firstMatch (h : Alike table table' t t') (flag : LookupFlag) (rules : List RuleCandidate)
    (reach : Reach) :
    OpenTypeLayout.firstMatch ⟨table', flag⟩ t' rules reach =
      OpenTypeLayout.firstMatch ⟨table, flag⟩ t rules reach := by
  induction rules generalizing reach with
  | nil => rfl
  | cons r rest ih => simp only [OpenTypeLayout.firstMatch, h.scan, ih]

end TextPlace.Alike

end OpenTypeLayout
