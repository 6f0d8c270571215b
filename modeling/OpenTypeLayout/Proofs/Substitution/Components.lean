import OpenTypeLayout.Proofs.Lookalikes
import OpenTypeLayout.Proofs.Places
import OpenTypeLayout.Substitution.Apply

/-!
# Components of ligatures

Where the components of a ligature are found, their places begin at the current glyph, ascend, and
hold glyphs that the lookup does not skip. In texts that look alike the same ligatures are found.
-/

namespace OpenTypeLayout

/-- Places from an index on: the index itself, and then ascending places of glyphs that count. -/
structure GlyphFilter.Found (f : GlyphFilter) (items : Array GlyphItem) (index : Nat)
    (places : List Nat) : Prop where
  /-- The first place is the index. -/
  head : places.head? = some index
  /-- The places ascend. -/
  ascending : places.Pairwise (· < ·)
  /-- The other places hold glyphs that count. -/
  admitted : ∀ p ∈ places.tail, ∃ item, items[p]? = some item ∧ f.admits item = true

/-- The places after the first one are places of glyphs. -/
theorem GlyphFilter.Found.lt_of_mem_tail {f : GlyphFilter} {items : Array GlyphItem} {index : Nat}
    {places : List Nat} (h : f.Found items index places) {q : Nat} (hq : q ∈ places.tail) :
    q < items.size := by
  obtain ⟨_, hitem, -⟩ := h.admitted q hq
  exact (Array.getElem?_eq_some_iff.mp hitem).1

/-- If the first place is the place of a glyph, so are all of them. -/
theorem GlyphFilter.Found.lt_of_mem {f : GlyphFilter} {items : Array GlyphItem} {index : Nat}
    {places : List Nat} (h : f.Found items index places) (hindex : index < items.size) {q : Nat}
    (hq : q ∈ places) : q < items.size := by
  obtain ⟨tail, htail⟩ := List.head?_eq_some_iff.mp h.head
  rw [htail] at hq
  rcases List.mem_cons.mp hq with rfl | hq
  · exact hindex
  · exact h.lt_of_mem_tail (htail ▸ hq)

/-- Ascending numbers are at least as far apart as their places in the list. -/
theorem add_sub_le_of_ascending {l : List Nat} (h : l.Pairwise (· < ·)) {i j : Nat} (hij : i ≤ j)
    (hj : j < l.length) : l[i] + (j - i) ≤ l[j] := by
  induction j with
  | zero =>
    obtain rfl : i = 0 := by omega
    simp
  | succ j ih =>
    rcases Nat.eq_or_lt_of_le hij with rfl | hlt
    · simp
    · have hprev := ih (by omega) (by omega)
      have hnext := List.pairwise_iff_getElem.mp h j (j + 1) (by omega) hj (Nat.lt_succ_self j)
      omega

/-- If the last of some ascending numbers is as far off as there are numbers, they follow each other
    directly. -/
theorem getElem_of_contiguous {l : List Nat} {a : Nat} (h : l.Pairwise (· < ·))
    (hhead : l.head? = some a) (hlast : l.getLast? = some (a + l.length - 1)) {i : Nat}
    (hi : i < l.length) : l[i] = a + i := by
  have hfirst : l[0] = a := by
    rw [List.head?_eq_getElem?, List.getElem?_eq_some_iff] at hhead
    exact hhead.2
  have hend : l[l.length - 1] = a + l.length - 1 := by
    rw [List.getLast?_eq_getElem?, List.getElem?_eq_some_iff] at hlast
    exact hlast.2
  have hbelow := add_sub_le_of_ascending h (Nat.zero_le i) hi
  have habove := add_sub_le_of_ascending h (show i ≤ l.length - 1 by omega) (by omega)
  omega

theorem matchComponents_eq_some {f : GlyphFilter} {items : Array GlyphItem}
    {components : List GlyphId} {index : Nat} {allMarks : Bool} {m : LigatureMatch} {bound : Nat}
    (h : matchComponents f items components index allMarks = (some m, bound)) :
    f.Found items index m.places ∧ m.places.length = components.length + 1 := by
  induction components generalizing index allMarks m bound with
  | nil =>
    simp only [matchComponents, Prod.mk.injEq, Option.some.injEq] at h
    obtain ⟨rfl, -⟩ := h
    exact ⟨⟨rfl, by simp, by simp⟩, rfl⟩
  | cons component rest ih =>
    rw [matchComponents] at h
    split at h
    -- no glyph that counts is left for the component
    case h_1 => cases h
    case h_2 found hfound =>
      obtain ⟨hlt, item, hitem, hadmits⟩ := GlyphFilter.next?_eq_some hfound
      simp only [hitem] at h
      split at h
      case isFalse => cases h
      case isTrue =>
        simp only [Prod.mk.injEq, Option.map_eq_some_iff] at h
        obtain ⟨⟨m', hm', rfl⟩, -⟩ := h
        obtain ⟨hrest, hlength⟩ := ih (Prod.ext hm' rfl)
        -- what follows starts at the place found for this component
        obtain ⟨tail, htail⟩ : ∃ tail, m'.places = found :: tail :=
          List.head?_eq_some_iff.mp hrest.head
        have hall := hrest.admitted
        have hascending := hrest.ascending
        rw [htail] at hall hascending
        refine ⟨⟨rfl, ?_, ?_⟩, by simp [hlength]⟩
        · -- all that is found after the next component is ahead of it
          rw [List.pairwise_cons]
          refine ⟨?_, hrest.ascending⟩
          intro p hp
          rw [htail] at hp
          rcases List.mem_cons.mp hp with rfl | hp
          · exact hlt
          · exact Nat.lt_trans hlt (List.rel_of_pairwise_cons hascending hp)
        -- the place of this component holds the glyph found; the induction has the others
        · intro p hp
          simp only [List.tail_cons, htail] at hp
          rcases List.mem_cons.mp hp with rfl | hp
          · exact ⟨item, hitem, hadmits⟩
          · exact hall p hp

theorem Ligature.search_eq_some {l : Ligature} {f : GlyphFilter} {contextLength : UInt16}
    {items : Array GlyphItem} {index : Nat} {isMark : Bool} {m : LigatureMatch} {bound : Nat}
    (h : l.search f contextLength items index isMark = (some m, bound)) :
    f.Found items index m.places ∧ m.places.length = l.count := by
  rw [Ligature.search] at h
  split at h
  case isTrue => simpa [Ligature.count] using matchComponents_eq_some h
  case isFalse => cases h

/-- The first ligature whose components are found is one of those that are tried. -/
theorem firstLigature_eq_some {f : GlyphFilter} {contextLength : UInt16} {items : Array GlyphItem}
    {index : Nat} {isMark : Bool} {ligatures : List Ligature} {bound bound' : Nat} {glyph : GlyphId}
    {m : LigatureMatch}
    (h : firstLigature f contextLength items index isMark ligatures bound =
      (some (glyph, m), bound')) :
    f.Found items index m.places ∧ ∃ l ∈ ligatures, m.places.length = l.count := by
  induction ligatures generalizing bound with
  | nil => cases h
  | cons l rest ih =>
    rw [firstLigature] at h
    split at h
    case h_1 hsearch =>
      simp only [Prod.mk.injEq, Option.some.injEq] at h
      obtain ⟨⟨-, rfl⟩, -⟩ := h
      obtain ⟨hfound, hlength⟩ := Ligature.search_eq_some hsearch
      exact ⟨hfound, l, List.mem_cons_self, hlength⟩
    case h_2 =>
      obtain ⟨hfound, l', hl', hlength⟩ := ih h
      exact ⟨hfound, l', List.mem_cons_of_mem l hl', hlength⟩

namespace TextsAlike

variable {table table' : Option Gdef} {items items' : Array GlyphItem}

theorem matchComponents (h : TextsAlike table table' items items') (flag : LookupFlag)
    (components : List GlyphId) (index : Nat) (allMarks : Bool) :
    OpenTypeLayout.matchComponents ⟨table', flag⟩ items' components index allMarks =
      OpenTypeLayout.matchComponents ⟨table, flag⟩ items components index allMarks := by
  induction components generalizing index allMarks with
  | nil => rfl
  | cons component rest ih =>
    rw [OpenTypeLayout.matchComponents, OpenTypeLayout.matchComponents, h.next?, h.size_eq]
    cases (GlyphFilter.mk table flag).next? items index with
    | none => rfl
    | some found =>
      dsimp only
      rcases h.getElem?_cases found with ⟨hx, hy⟩ | ⟨x, y, hx, hy, hxy⟩
      · rw [hx, hy]
      · rw [hx, hy]
        dsimp only
        rw [hxy.glyph, hxy.check]
        simp only [ih]

theorem firstLigature (h : TextsAlike table table' items items') (flag : LookupFlag)
    (contextLength : UInt16) (index : Nat) (isMark : Bool) (ligatures : List Ligature)
    (bound : Nat) :
    OpenTypeLayout.firstLigature ⟨table', flag⟩ contextLength items' index isMark ligatures bound =
      OpenTypeLayout.firstLigature ⟨table, flag⟩ contextLength items index isMark ligatures
        bound := by
  induction ligatures generalizing bound with
  | nil => rfl
  | cons l rest ih =>
    rw [OpenTypeLayout.firstLigature, OpenTypeLayout.firstLigature, Ligature.search,
      Ligature.search, h.size_eq, h.matchComponents]
    simp only [ih]

end TextsAlike

end OpenTypeLayout
