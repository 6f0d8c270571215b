import OpenTypeLayout.ContextLookup

/-!
# Places of glyphs that count

Matching goes from one glyph that counts to the next. The places that it finds lie ahead of where it
began, inside the text, and hold glyphs that the filter admits. `GlyphFilter.NextAt` says which
place is the next one without going there.
-/

namespace OpenTypeLayout

namespace GlyphFilter

variable {f : GlyphFilter} {items : Array GlyphItem}

/-! ## §1 The next glyph that counts -/

theorem firstFrom_eq_some {left place found : Nat} (h : f.firstFrom items left place = some found) :
    place ≤ found ∧ ∃ item, items[found]? = some item ∧ f.admits item = true := by
  induction left generalizing place with
  | zero => cases h
  | succ left ih =>
    rw [firstFrom] at h
    split at h
    case isTrue hany =>
      cases h
      obtain ⟨item, hitem, hadmits⟩ := (Option.any_eq_true _ _).mp hany
      exact ⟨Nat.le_refl _, item, hitem, hadmits⟩
    case isFalse =>
      obtain ⟨hle, hitem⟩ := ih h
      exact ⟨by omega, hitem⟩

/-- The next glyph that counts lies ahead, and counts. -/
theorem next?_eq_some {place found : Nat} (h : f.next? items place = some found) :
    place < found ∧ ∃ item, items[found]? = some item ∧ f.admits item = true := by
  obtain ⟨hle, hitem⟩ := firstFrom_eq_some h
  exact ⟨hle, hitem⟩

/-- The glyphs before the next one that counts do not count. -/
theorem not_admits_of_next? {place found q : Nat} (h : f.next? items place = some found)
    (hlow : place < q) (hhigh : q < found) : items[q]?.any f.admits = false := by
  have hfirst : ∀ left start, f.firstFrom items left start = some found → start ≤ q →
      items[q]?.any f.admits = false := by
    intro left
    induction left with
    | zero => exact fun _ h => nomatch h
    | succ left ih =>
      intro start h hle
      rw [firstFrom] at h
      split at h
      case isTrue =>
        cases h
        exact absurd hhigh (Nat.not_lt_of_le hle)
      case isFalse hany =>
        rcases Nat.eq_or_lt_of_le hle with rfl | hlt
        · exact Bool.eq_false_iff.mpr hany
        · exact ih (start + 1) h hlt
  exact hfirst _ _ h hlow

/-- A place, and the next one after it with a glyph that counts. -/
structure NextAt (f : GlyphFilter) (items : Array GlyphItem) (place found : Nat) : Prop where
  lt : place < found
  counts : items[found]?.any f.admits = true
  between : ∀ q < found, place < q → items[q]?.any f.admits = false

instance (f : GlyphFilter) (items : Array GlyphItem) (place found : Nat) :
    Decidable (f.NextAt items place found) :=
  decidable_of_iff (place < found ∧ items[found]?.any f.admits = true ∧
      ∀ q < found, place < q → items[q]?.any f.admits = false)
    ⟨fun ⟨hlt, hcounts, hbetween⟩ => ⟨hlt, hcounts, hbetween⟩, fun h => ⟨h.lt, h.counts, h.between⟩⟩

theorem not_admits_of_firstFrom_none {left start q : Nat} (h : f.firstFrom items left start = none)
    (hlow : start ≤ q) (hhigh : q < start + left) : items[q]?.any f.admits = false := by
  induction left generalizing start with
  | zero => omega
  | succ left ih =>
    rw [firstFrom] at h
    split at h
    case isTrue => cases h
    case isFalse hany =>
      rcases Nat.eq_or_lt_of_le hlow with rfl | hlt
      · exact Bool.eq_false_iff.mpr hany
      · exact ih h hlt (by omega)

theorem NextAt.le {place found found' : Nat} (h : f.NextAt items place found)
    (h' : f.NextAt items place found') : found' ≤ found := by
  refine Nat.le_of_not_lt fun hlt => ?_
  have hskipped := h'.between found hlt h.lt
  rw [h.counts] at hskipped
  cases hskipped

theorem next?_eq_some_iff {place found : Nat} :
    f.next? items place = some found ↔ f.NextAt items place found := by
  have hsound : ∀ found, f.next? items place = some found → f.NextAt items place found := by
    intro found h
    obtain ⟨hlt, item, hitem, hadmits⟩ := next?_eq_some h
    refine ⟨hlt, ?_, fun q hq hlow => not_admits_of_next? h hlow hq⟩
    rw [hitem, Option.any_some, hadmits]
  refine ⟨hsound found, fun h => ?_⟩
  cases hnext : f.next? items place with
  | some found' => rw [Nat.le_antisymm (h.le (hsound found' hnext)) ((hsound found' hnext).le h)]
  | none =>
    obtain ⟨item, hitem, -⟩ := (Option.any_eq_true _ _).mp h.counts
    have hinside : found < items.size := (Array.getElem?_eq_some_iff.mp hitem).1
    have hlt := h.lt
    have hskipped := not_admits_of_firstFrom_none hnext hlt (by omega)
    rw [h.counts] at hskipped
    cases hskipped

/-! ## §2 The glyphs of a rule -/

theorem places_ne_nil (n place : Nat) : f.places items n place ≠ [] := by
  cases n with
  | zero => simp [places]
  | succ n =>
    rw [places]
    split <;> simp

theorem length_places_le (n place : Nat) : (f.places items n place).length ≤ n + 1 := by
  induction n generalizing place with
  | zero => simp [places]
  | succ n ih =>
    rw [places]
    split
    case h_1 next _ => simpa using ih next
    case h_2 => simp

/-- The places of the glyphs of a rule begin with the place of the rule, and the others lie ahead of
    it and inside the text. -/
theorem mem_places {n place p : Nat} (h : p ∈ f.places items n place) :
    p = place ∨ place < p ∧ p < items.size := by
  induction n generalizing place with
  | zero => exact .inl (List.mem_singleton.mp h)
  | succ n ih =>
    rw [places] at h
    split at h
    case h_1 next hnext =>
      obtain ⟨hlt, item, hitem, -⟩ := next?_eq_some hnext
      have hsize : next < items.size := (Array.getElem?_eq_some_iff.mp hitem).1
      rcases List.mem_cons.mp h with rfl | hp
      · exact .inl rfl
      · rcases ih hp with rfl | ⟨hltp, hp⟩
        · exact .inr ⟨hlt, hsize⟩
        · exact .inr ⟨Nat.lt_trans hlt hltp, hp⟩
    case h_2 => exact .inl (List.mem_singleton.mp h)

theorem pairwise_places (n place : Nat) : (f.places items n place).Pairwise (· < ·) := by
  induction n generalizing place with
  | zero => exact List.pairwise_singleton _ _
  | succ n ih =>
    rw [places]
    split
    case h_1 next hnext =>
      refine List.pairwise_cons.mpr ⟨fun p hp => ?_, ih next⟩
      have hlt := (next?_eq_some hnext).1
      rcases mem_places hp with rfl | ⟨hltp, -⟩
      · exact hlt
      · exact Nat.lt_trans hlt hltp
    case h_2 => exact List.pairwise_singleton _ _

end GlyphFilter

/-- The last of the places of the glyphs of a rule, for a rule that is inside the text. -/
theorem RuleMatch.getLast?_places (r : RuleMatch) (f : GlyphFilter) {items : Array GlyphItem}
    {index : Nat} (hindex : index < items.size) :
    ∃ last, (r.places f items index).getLast? = some last ∧ index ≤ last ∧ last < items.size := by
  obtain ⟨last, hlast⟩ :=
    Option.ne_none_iff_exists'.mp (mt List.getLast?_eq_none_iff.mp (f.places_ne_nil _ index))
  have hmem : last ∈ r.places f items index := List.mem_of_getLast? hlast
  rcases GlyphFilter.mem_places hmem with rfl | ⟨hlt, hsize⟩
  · exact ⟨last, hlast, Nat.le_refl _, hindex⟩
  · exact ⟨last, hlast, Nat.le_of_lt hlt, hsize⟩

/-- No more glyphs are left of a rule than the rule has. -/
theorem remainingFrom_places_le (r : RuleMatch) (f : GlyphFilter) (items : Array GlyphItem)
    (index from_ : Nat) : remainingFrom (r.places f items index) from_ ≤ r.inputCount - 1 + 1 :=
  calc remainingFrom (r.places f items index) from_
      ≤ (r.places f items index).length := List.length_filter_le _ _
    _ ≤ r.inputCount - 1 + 1 := GlyphFilter.length_places_le _ index

theorem remainingFrom_places_le_word {r : RuleMatch} (hcount : r.inputCount ≤ 0xFFFF)
    (f : GlyphFilter) (items : Array GlyphItem) (index from_ : Nat) :
    remainingFrom (r.places f items index) from_ ≤ 0xFFFF :=
  Nat.le_trans (remainingFrom_places_le r f items index from_) (by omega)

/-! ## §3 Rules -/

theorem firstMatch_eq_some {f : GlyphFilter} {t : TextPlace} {rules : List RuleCandidate}
    {reach reach' : Reach} {result : RuleMatch}
    (h : firstMatch f t rules reach = (some result, reach')) :
    ∃ r ∈ rules, r.result = result := by
  induction rules generalizing reach with
  | nil => cases h
  | cons r rest ih =>
    simp only [firstMatch] at h
    split at h
    · simp only [Prod.mk.injEq, Option.some.injEq] at h
      exact ⟨r, List.mem_cons_self, h.1⟩
    · obtain ⟨r', hr', hresult⟩ := ih h
      exact ⟨r', List.mem_cons_of_mem r hr', hresult⟩

end OpenTypeLayout
