import OpenTypeLayout.ClassDef
import OpenTypeLayout.Coverage

/-!
# Finding an item in order

Tables that are in order are searched by halving. The search looks at few of the items, and what it
answers is right because of the order: first come the items below the one looked for, then those
that are equal to it, and then those above.

- `locate_eq_some_iff`: `locate` answers with the last item that is equal.
- `ClassDef.classOf_ranges_iff`: a glyph has the class of the range that has it.
- `ClassDef.defines_of_classOf`: whatever class is found, it is the class of an entry.
- `Coverage.index?_glyphs_iff`: the coverage index of a glyph that is listed is its place in the
  list.
-/

namespace OpenTypeLayout

/-! ## §1 Halving -/

/-- Where all places after one that is above are above too, halving ends at the last place that is
    not above, or at the first one of all. -/
theorem lastNotAbove_last {isAbove : Nat → Bool} {stop rounds : Nat} (base size : Nat)
    (hmono : ∀ i j, i ≤ j → j < stop → isAbove i = true → isAbove j = true)
    (hstop : base + size ≤ stop) (hrounds : size ≤ rounds) :
    let place := lastNotAbove isAbove rounds base size
    base ≤ place ∧ place < max (base + size) (base + 1) ∧
      (place = base ∨ isAbove place = false) ∧
      ∀ i, place < i → i < base + size → isAbove i = true := by
  induction rounds generalizing base size with
  | zero =>
    rw [lastNotAbove]
    exact ⟨Nat.le_refl _, by omega, .inl rfl, fun i _ _ => by omega⟩
  | succ rounds ih =>
    dsimp only
    rw [lastNotAbove]
    split
    case isTrue hsmall =>
      exact ⟨Nat.le_refl _, by omega, .inl rfl, fun i _ _ => by omega⟩
    case isFalse hlarge =>
      dsimp only
      split
      -- the middle is above, and by the order so is everything behind it: the front half is left
      case isTrue habove =>
        obtain ⟨hbase, hlt, hat, hafter⟩ := ih base (size - size / 2) (by omega) (by omega)
        refine ⟨hbase, by omega, hat, fun i hi hlast => ?_⟩
        by_cases hhalf : i < base + (size - size / 2)
        · exact hafter i hi hhalf
        · exact hmono _ i (by omega) (by omega) habove
      -- the middle is not above, so it may serve as the place: the back half is left
      case isFalse hnot =>
        obtain ⟨hbase, hlt, hat, hafter⟩ := ih (base + size / 2) (size - size / 2)
          (by omega) (by omega)
        refine ⟨by omega, by omega, .inr ?_, fun i hi hlast => hafter i hi (by omega)⟩
        rcases hat with hat | hat
        · rw [hat]
          exact Bool.eq_false_iff.mpr hnot
        · exact hat

/-! ## §2 Items in order -/

section Items

variable {α : Type} {items : Array α} {compare : α → Ordering}

/-- Items below the one looked for come first, and items above it last. -/
def InOrder (compare : α → Ordering) (items : Array α) : Prop :=
  ∀ (i j : Nat) (a b : α), i < j → items[i]? = some a → items[j]? = some b →
    (compare b = .lt → compare a = .lt) ∧ (compare a = .gt → compare b = .gt)

/-- What is located is the last item that is equal to the one looked for. -/
theorem locate_eq_some_iff (h : InOrder compare items) {i : Nat} {a : α} :
    locate items compare = some (i, a) ↔
      items[i]? = some a ∧ compare a = .eq ∧
        ∀ (j : Nat) (b : α), i < j → items[j]? = some b → compare b ≠ .eq := by
  have hmono : ∀ i j, i ≤ j → j < items.size →
      (items[i]?.any fun a => compare a == .gt) = true →
        (items[j]?.any fun a => compare a == .gt) = true := by
    intro i j hij hj habove
    rcases Nat.eq_or_lt_of_le hij with rfl | hij
    · exact habove
    · rw [Array.getElem?_eq_getElem hj]
      rw [Array.getElem?_eq_getElem (Nat.lt_trans hij hj)] at habove
      simp only [Option.any_some, beq_iff_eq] at habove ⊢
      exact (h i j _ _ hij (Array.getElem?_eq_getElem _) (Array.getElem?_eq_getElem _)).2 habove
  obtain ⟨-, hlt, hat, hafter⟩ := lastNotAbove_last 0 items.size hmono (by omega)
    (Nat.le_refl _)
  unfold locate
  dsimp only
  -- only what the search promises of its place is used from here on
  generalize lastNotAbove _ items.size 0 items.size = place at *
  constructor
  · intro hfound
    split at hfound
    case h_2 => cases hfound
    -- the item at the place is the one found, and a later equal one would be above
    case h_1 b hb =>
      split at hfound
      case isFalse => cases hfound
      case isTrue heq =>
        cases hfound
        refine ⟨hb, heq, fun j b' hj hb' heq' => ?_⟩
        have habove := hafter j hj (by have := (Array.getElem?_eq_some_iff.mp hb').1; omega)
        simp [hb', heq'] at habove
  · rintro ⟨ha, heq, hlast⟩
    have hi : i < items.size := (Array.getElem?_eq_some_iff.mp ha).1
    have hplace : place < items.size := by omega
    have hb := Array.getElem?_eq_getElem hplace
    -- an item before the place would be above, and one after it below
    have hsame : place = i := by
      rcases Nat.lt_trichotomy place i with hbefore | hsame | hbehind
      · have habove := hafter i hbefore (by omega)
        simp [ha, heq] at habove
      · exact hsame
      · have hnot : compare items[place] ≠ .gt := by
          rcases hat with hat | hat
          · omega
          · simpa [hb] using hat
        have hne := hlast place _ hbehind hb
        have hbelow : compare items[place] = .lt := by
          cases hcompare : compare items[place] with
          | lt => rfl
          | eq => exact absurd hcompare hne
          | gt => exact absurd hcompare hnot
        rw [(h i place _ _ hbehind ha hb).1 hbelow] at heq
        cases heq
    subst hsame
    rw [ha]
    exact if_pos heq

/-- What is located is one of the items, whether or not they are in order. -/
theorem mem_of_locate {i : Nat} {a : α} (h : locate items compare = some (i, a)) : a ∈ items := by
  unfold locate at h
  dsimp only at h
  split at h
  case h_1 b hb =>
    split at h
    case isTrue =>
      cases h
      exact Array.mem_of_getElem? hb
    case isFalse => cases h
  case h_2 => cases h

/-- A check of neighbours is a check of all pairs, where the relation goes on over every item of the
    list. -/
theorem adjacentAll_iff_pairwise {related : α → α → Bool} {list : List α}
    (htrans : ∀ a, ∀ b ∈ list, ∀ c, related a b = true → related b c = true → related a c = true) :
    adjacentAll related list = true ↔ list.Pairwise fun a b => related a b = true := by
  induction list with
  | nil => simp [adjacentAll]
  | cons a rest ih =>
    cases rest with
    | nil => simp [adjacentAll]
    | cons b rest =>
      rw [adjacentAll, Bool.and_eq_true, ih fun a b hb => htrans a b (List.mem_cons_of_mem _ hb),
        List.pairwise_cons (a := a)]
      refine and_congr_left fun hrest => ⟨fun hab x hx => ?_, fun hall => hall b List.mem_cons_self⟩
      rcases List.mem_cons.mp hx with rfl | hx
      · exact hab
      · exact htrans a b (by simp) x hab ((List.pairwise_cons.mp hrest).1 x hx)

end Items

/-! ## §3 Ranges of glyphs -/

/-- Whether a range has a glyph. -/
def ClassRange.Has (r : ClassRange) (glyph : Nat) : Prop :=
  r.first.toNat ≤ glyph ∧ glyph ≤ r.last.toNat

theorem rel_of_pairwise {α : Type} {related : α → α → Prop} {items : Array α}
    (h : items.toList.Pairwise related) {i j : Nat} {a b : α} (hij : i < j)
    (ha : items[i]? = some a) (hb : items[j]? = some b) : related a b := by
  rw [← Array.getElem?_toList] at ha hb
  obtain ⟨hi, rfl⟩ := List.getElem?_eq_some_iff.mp ha
  obtain ⟨hj, rfl⟩ := List.getElem?_eq_some_iff.mp hb
  exact List.pairwise_iff_getElem.mp h i j hi hj hij

theorem compareInterval_eq_iff {lo hi x : UInt16} :
    compareInterval lo hi x = .eq ↔ lo.toNat ≤ x.toNat ∧ x.toNat ≤ hi.toNat := by
  unfold compareInterval
  simp only [UInt16.lt_iff_toNat_lt]
  grind

/-- Ranges that are apart from each other are in order for every glyph. -/
theorem inOrder_compareInterval {α : Type} {items : Array α} {first last : α → UInt16}
    (hvalid : ∀ a ∈ items, first a ≤ last a)
    (hapart : items.toList.Pairwise fun a b => last a < first b) (x : UInt16) :
    InOrder (fun a => compareInterval (first a) (last a) x) items := by
  intro i j a b hij ha hb
  have hlt : last a < first b := rel_of_pairwise hapart hij ha hb
  have hvalida := hvalid a (Array.mem_of_getElem? ha)
  have hvalidb := hvalid b (Array.mem_of_getElem? hb)
  simp only [UInt16.lt_iff_toNat_lt, UInt16.le_iff_toNat_le, compareInterval] at *
  grind

namespace ClassDef

/-- A glyph has the class of the range that has it. -/
theorem classOf_ranges_iff {list : Array ClassRange} (hvalid : ∀ r ∈ list, r.first ≤ r.last)
    (hapart : list.toList.Pairwise fun a b => a.last < b.first) {x : GlyphId} {c : UInt16} :
    (ClassDef.ranges list).classOf x = some c ↔ ∃ r ∈ list, r.Has x.toNat ∧ r.value = c := by
  have horder := inOrder_compareInterval hvalid hapart x
  rw [classOf, Option.map_eq_some_iff]
  constructor
  · rintro ⟨⟨i, r⟩, hfound, rfl⟩
    obtain ⟨hr, heq, -⟩ := (locate_eq_some_iff horder).mp hfound
    exact ⟨r, Array.mem_of_getElem? hr, compareInterval_eq_iff.mp heq, rfl⟩
  · rintro ⟨r, hr, hhas, rfl⟩
    obtain ⟨i, hi⟩ := Array.getElem?_of_mem hr
    refine ⟨(i, r), (locate_eq_some_iff horder).mpr ⟨hi, compareInterval_eq_iff.mpr hhas, ?_⟩, rfl⟩
    -- a range after it begins behind the glyph
    intro j b hij hb heq
    have hlt : r.last < b.first := rel_of_pairwise hapart hij hi hb
    have hbegin := (compareInterval_eq_iff.mp heq).1
    have hend := hhas.2
    rw [UInt16.lt_iff_toNat_lt] at hlt
    omega

/-- The class of a glyph that is mentioned is one that an entry names. -/
theorem defines_of_classOf {d : ClassDef} {glyph : GlyphId} {c : UInt16}
    (h : d.classOf glyph = some c) : d.defines c = true := by
  rw [defines, List.contains_iff_mem]
  cases d with
  | block first values =>
    rw [classOf] at h
    split at h
    case isTrue => exact Array.mem_toList_iff.mpr (Array.mem_of_getElem? h)
    case isFalse => cases h
  | ranges list =>
    obtain ⟨⟨place, r⟩, hlocate, rfl⟩ := Option.map_eq_some_iff.mp h
    exact List.mem_map_of_mem (Array.mem_toList_iff.mpr (mem_of_locate hlocate))

end ClassDef

namespace Coverage

/-- Where no glyph is listed twice, the coverage index of a glyph is its place in the list. -/
theorem index?_glyphs_iff {list : Array GlyphId} (hascending : list.toList.Pairwise (· < ·))
    {x : GlyphId} {n : UInt16} :
    (Coverage.glyphs list).index? x = some n ↔ ∃ i, list[i]? = some x ∧ UInt16.ofNat i = n := by
  -- a listed glyph is an interval of one glyph
  have horder := inOrder_compareInterval (fun g _ => UInt16.le_refl g) hascending x
  have heq : ∀ g, compareInterval g g x = .eq ↔ g = x := fun g => by
    rw [compareInterval_eq_iff, ← UInt16.toNat_inj]
    omega
  rw [index?, Option.map_eq_some_iff]
  constructor
  · rintro ⟨⟨i, g⟩, hfound, rfl⟩
    obtain ⟨hg, hsame, -⟩ := (locate_eq_some_iff horder).mp hfound
    exact ⟨i, (heq g).mp hsame ▸ hg, rfl⟩
  · rintro ⟨i, hi, rfl⟩
    refine ⟨(i, x), (locate_eq_some_iff horder).mpr ⟨hi, (heq x).mpr rfl, ?_⟩, rfl⟩
    intro j g hij hg hsame
    have hlt : x < g := rel_of_pairwise hascending hij hi hg
    rw [(heq g).mp hsame] at hlt
    exact UInt16.lt_irrefl x hlt

theorem covers_glyphs_iff {list : Array GlyphId} (hascending : list.toList.Pairwise (· < ·))
    {x : GlyphId} : (Coverage.glyphs list).covers x = true ↔ x ∈ list := by
  rw [covers, Option.isSome_iff_exists, Array.mem_iff_getElem?]
  constructor
  · rintro ⟨n, hn⟩
    obtain ⟨i, hi, -⟩ := (index?_glyphs_iff hascending).mp hn
    exact ⟨i, hi⟩
  · rintro ⟨i, hi⟩
    exact ⟨UInt16.ofNat i, (index?_glyphs_iff hascending).mpr ⟨i, hi, rfl⟩⟩

end Coverage

end OpenTypeLayout
