import OpenTypeLayout.Proofs.Lookalikes

/-!
# Matching is filtering and comparing

Matching goes over a text glyph by glyph and passes over those that do not count. It comes to the
same to filter the text first, and to compare a context with what is left: entry by entry, backwards
from the place of the rule with what is before it, forwards with what is after it.

- `GlyphFilter.before` and `GlyphFilter.after` are the glyphs that count on either side of a place.
- `GlyphPattern.Fits` compares a pattern with such a list, entry by entry.
- A scan succeeds if and only if its pattern fits, and where it ends the rest of the list begins.
  That is by induction on how many entries are left.
-/

namespace OpenTypeLayout

/-! ## §1 Filtered texts -/

namespace GlyphFilter

variable {f : GlyphFilter} {items : Array GlyphItem}

/-- The glyphs that count among the first `count` ones, the nearest to the end first. -/
def before (f : GlyphFilter) (items : Array GlyphItem) (count : Nat) : List GlyphItem :=
  (items.toList.take count).reverse.filter f.admits

/-- The glyphs that count from a place on, in order, each with its place. -/
def onward (f : GlyphFilter) (items : Array GlyphItem) (place : Nat) : List (GlyphItem × Nat) :=
  (items.toList.zipIdx.drop place).filter fun entry => f.admits entry.1

/-- The glyphs that count after a place, in order, each with its place. -/
def after (f : GlyphFilter) (items : Array GlyphItem) (place : Nat) : List (GlyphItem × Nat) :=
  f.onward items (place + 1)

theorem before_succ {count : Nat} {item : GlyphItem} (h : items[count]? = some item) :
    f.before items (count + 1) =
      if f.admits item then item :: f.before items count else f.before items count := by
  have hlast : items.toList[count]?.toList = [item] := by
    rw [Array.getElem?_toList, h]
    rfl
  rw [before, List.take_add_one, hlast, List.reverse_concat, List.filter_cons, before]

/-- Beyond the end of a text no glyph is added. -/
theorem before_succ_of_size_le {count : Nat} (h : items[count]? = none) :
    f.before items (count + 1) = f.before items count := by
  have hlast : items.toList[count]?.toList = [] := by
    rw [Array.getElem?_toList, h]
    rfl
  rw [before, List.take_add_one, hlast, List.append_nil, before]

theorem onward_of_size_le {place : Nat} (h : items.size ≤ place) : f.onward items place = [] := by
  rw [onward, List.drop_eq_nil_of_le (by simpa using h), List.filter_nil]

theorem onward_eq {place : Nat} {item : GlyphItem} (h : items[place]? = some item) :
    f.onward items place =
      if f.admits item then (item, place) :: f.onward items (place + 1)
      else f.onward items (place + 1) := by
  obtain ⟨hlt, hget⟩ := Array.getElem?_eq_some_iff.mp h
  have hdrop : items.toList.zipIdx.drop place =
      (item, place) :: items.toList.zipIdx.drop (place + 1) := by
    rw [List.drop_eq_getElem_cons (by simpa using hlt)]
    simp [hget]
  rw [onward, hdrop, List.filter_cons, onward]

/-! ## §2 The next glyph that counts is the first of them -/

theorem before_of_prev?_none {count : Nat} (h : f.prev? items count = none) :
    f.before items count = [] := by
  induction count with
  | zero => rfl
  | succ count ih =>
    rw [prev?] at h
    split at h
    case isTrue => cases h
    case isFalse hany =>
      cases hitem : items[count]? with
      | none => rw [before_succ_of_size_le hitem, ih h]
      | some item =>
        have hskipped : ¬ f.admits item = true := by simpa [hitem] using hany
        rw [before_succ hitem, if_neg hskipped, ih h]

/-- The nearest glyph before a place that counts is the first of those before it, and the others are
    those before that glyph. -/
theorem before_of_prev?_some {count found : Nat} (h : f.prev? items count = some found) :
    ∃ item, items[found]? = some item ∧ f.before items count = item :: f.before items found := by
  induction count with
  | zero => cases h
  | succ count ih =>
    rw [prev?] at h
    split at h
    case isTrue hany =>
      cases h
      obtain ⟨item, hitem, hadmits⟩ := (Option.any_eq_true _ _).mp hany
      exact ⟨item, hitem, by rw [before_succ hitem, if_pos hadmits]⟩
    case isFalse hany =>
      obtain ⟨item, hfound, hrest⟩ := ih h
      refine ⟨item, hfound, ?_⟩
      cases hitem : items[count]? with
      | none => rw [before_succ_of_size_le hitem, hrest]
      | some last =>
        have hskipped : ¬ f.admits last = true := by simpa [hitem] using hany
        rw [before_succ hitem, if_neg hskipped, hrest]

theorem onward_of_firstFrom_none {left place : Nat} (hleft : items.size ≤ place + left)
    (h : f.firstFrom items left place = none) : f.onward items place = [] := by
  induction left generalizing place with
  | zero => exact onward_of_size_le hleft
  | succ left ih =>
    rw [firstFrom] at h
    split at h
    case isTrue => cases h
    case isFalse hany =>
      have hrest := ih (by omega) h
      cases hitem : items[place]? with
      | none => exact onward_of_size_le (Array.getElem?_eq_none_iff.mp hitem)
      | some item =>
        have hskipped : ¬ f.admits item = true := by simpa [hitem] using hany
        rw [onward_eq hitem, if_neg hskipped, hrest]

theorem onward_of_firstFrom_some {left place found : Nat}
    (h : f.firstFrom items left place = some found) :
    ∃ item, items[found]? = some item ∧
      f.onward items place = (item, found) :: f.after items found := by
  induction left generalizing place with
  | zero => cases h
  | succ left ih =>
    rw [firstFrom] at h
    split at h
    case isTrue hany =>
      cases h
      obtain ⟨item, hitem, hadmits⟩ := (Option.any_eq_true _ _).mp hany
      exact ⟨item, hitem, by rw [onward_eq hitem, if_pos hadmits, after]⟩
    case isFalse hany =>
      obtain ⟨item, hfound, hrest⟩ := ih h
      refine ⟨item, hfound, ?_⟩
      cases hitem : items[place]? with
      | none =>
        -- nothing is found beyond the end of the text
        rw [onward_of_size_le (Nat.le_succ_of_le (Array.getElem?_eq_none_iff.mp hitem))] at hrest
        cases hrest
      | some first =>
        have hskipped : ¬ f.admits first = true := by simpa [hitem] using hany
        rw [onward_eq hitem, if_neg hskipped, hrest]

theorem after_of_next?_none {place : Nat} (h : f.next? items place = none) :
    f.after items place = [] :=
  onward_of_firstFrom_none (by omega) h

/-- The next glyph that counts is the first of those after a place, and the others are those after
    that glyph. -/
theorem after_of_next?_some {place found : Nat} (h : f.next? items place = some found) :
    ∃ item, items[found]? = some item ∧
      f.after items place = (item, found) :: f.after items found :=
  onward_of_firstFrom_some h

/-- The places of a rule are its own and those of the first so many glyphs that count after it. -/
theorem places_eq_after (n place : Nat) :
    f.places items n place = place :: ((f.after items place).map Prod.snd).take n := by
  induction n generalizing place with
  | zero => rfl
  | succ n ih =>
    rw [places]
    split
    case h_1 next hnext =>
      obtain ⟨item, -, hafter⟩ := after_of_next?_some hnext
      rw [ih, hafter, List.map_cons, List.take_succ_cons]
    case h_2 hnone => rw [after_of_next?_none hnone, List.map_nil, List.take_nil]

end GlyphFilter

/-! ## §3 Comparing entry by entry -/

namespace GlyphPattern

variable {p : GlyphPattern}

/-- Of a list of glyphs, `left` entries of a pattern, the first of them being `place`, accept the
    first so many, and there are so many. -/
def FitsFrom (p : GlyphPattern) (place left : Nat) (glyphs : List GlyphItem) : Prop :=
  ∀ i < left, glyphs[i]?.any (fun item => p.accepts (place + i) item.glyph) = true

/-- Each entry of a pattern accepts the glyph at the same place of a list, which is long enough. -/
def Fits (p : GlyphPattern) (glyphs : List GlyphItem) : Prop :=
  ∀ place < p.length, glyphs[place]?.any (fun item => p.accepts place item.glyph) = true

instance (p : GlyphPattern) (glyphs : List GlyphItem) : Decidable (p.Fits glyphs) :=
  inferInstanceAs (Decidable (∀ place < p.length, _ = true))

theorem fitsFrom_zero_iff (p : GlyphPattern) (glyphs : List GlyphItem) :
    p.FitsFrom 0 p.length glyphs ↔ p.Fits glyphs := by
  simp only [FitsFrom, Fits, Nat.zero_add]

@[simp] theorem fitsFrom_none_left (place : Nat) (glyphs : List GlyphItem) :
    p.FitsFrom place 0 glyphs :=
  fun _ hi => absurd hi (Nat.not_lt_zero _)

@[simp] theorem not_fitsFrom_nil (place left : Nat) : ¬ p.FitsFrom place (left + 1) [] :=
  fun h => Bool.noConfusion (h 0 (Nat.succ_pos left))

theorem fitsFrom_cons (place left : Nat) (item : GlyphItem) (rest : List GlyphItem) :
    p.FitsFrom place (left + 1) (item :: rest) ↔
      p.accepts place item.glyph = true ∧ p.FitsFrom (place + 1) left rest := by
  constructor
  · intro h
    refine ⟨h 0 (Nat.succ_pos left), fun i hi => ?_⟩
    have hnext := h (i + 1) (Nat.succ_lt_succ hi)
    rwa [List.getElem?_cons_succ, ← Nat.add_assoc, Nat.add_right_comm] at hnext
  · rintro ⟨hfirst, hrest⟩ i hi
    cases i with
    | zero => exact hfirst
    | succ i =>
      rw [List.getElem?_cons_succ, ← Nat.add_assoc, Nat.add_right_comm]
      exact hrest i (Nat.lt_of_succ_lt_succ hi)

/-- A list that a pattern fits is as long as the pattern at least. -/
theorem Fits.length_le {glyphs : List GlyphItem} (h : p.Fits glyphs) :
    p.length ≤ glyphs.length := by
  rcases Nat.eq_zero_or_pos p.length with hzero | hpos
  · exact hzero ▸ Nat.zero_le _
  · obtain ⟨item, hitem, -⟩ := (Option.any_eq_true _ _).mp (h (p.length - 1) (by omega))
    have := (List.getElem?_eq_some_iff.mp hitem).1
    omega

theorem acceptsAt_of_getElem? {items : Array GlyphItem} {index : Nat} {item : GlyphItem}
    (h : items[index]? = some item) (place : Nat) :
    p.acceptsAt place items index = p.accepts place item.glyph := by
  rw [acceptsAt, h, Option.any_some]

end GlyphPattern

/-! ## §4 Scans -/

namespace GlyphFilter

variable {f : GlyphFilter} {items : Array GlyphItem} {p : GlyphPattern}

theorem isSome_scanBackFrom (left place index : Nat) :
    (f.scanBackFrom p items left place index).last.isSome = true ↔
      p.FitsFrom place left (f.before items index) := by
  induction left generalizing place index with
  | zero => simp [scanBackFrom]
  | succ left ih =>
    rw [scanBackFrom]
    split
    case h_1 hnone => simp [before_of_prev?_none hnone]
    case h_2 found hfound =>
      obtain ⟨item, hitem, hbefore⟩ := before_of_prev?_some hfound
      rw [GlyphPattern.acceptsAt_of_getElem? hitem, hbefore, GlyphPattern.fitsFrom_cons]
      split
      case isTrue haccepts => rw [ih, and_iff_right haccepts]
      case isFalse hrejects => simp [hrejects]

theorem isSome_scanFrontFrom (left place index : Nat) :
    (f.scanFrontFrom p items left place index).last.isSome = true ↔
      p.FitsFrom place left ((f.after items index).map Prod.fst) := by
  induction left generalizing place index with
  | zero => simp [scanFrontFrom]
  | succ left ih =>
    rw [scanFrontFrom]
    split
    case h_1 hnone => simp [after_of_next?_none hnone]
    case h_2 found hfound =>
      obtain ⟨item, hitem, hafter⟩ := after_of_next?_some hfound
      rw [GlyphPattern.acceptsAt_of_getElem? hitem, hafter, List.map_cons,
        GlyphPattern.fitsFrom_cons]
      split
      case isTrue haccepts => rw [ih, and_iff_right haccepts]
      case isFalse hrejects => simp [hrejects]

/-- Where a scan ends, the glyphs that count begin that it has not gone over. -/
theorem after_scanFrontFrom {left place index last : Nat}
    (h : (f.scanFrontFrom p items left place index).last = some last) :
    f.after items last = (f.after items index).drop left := by
  induction left generalizing place index with
  | zero =>
    obtain rfl := Option.some.inj h
    rfl
  | succ left ih =>
    rw [scanFrontFrom] at h
    split at h
    case h_1 => cases h
    case h_2 found hfound =>
      obtain ⟨item, -, hafter⟩ := after_of_next?_some hfound
      split at h
      case isTrue => rw [hafter, List.drop_succ_cons, ih h]
      case isFalse => cases h

theorem isSome_scanBack (index : Nat) :
    (f.scanBack p items index).last.isSome = true ↔ p.Fits (f.before items index) := by
  rw [scanBack, isSome_scanBackFrom, GlyphPattern.fitsFrom_zero_iff]

theorem isSome_scanFront (index : Nat) :
    (f.scanFront p items index).last.isSome = true ↔
      p.Fits ((f.after items index).map Prod.fst) := by
  rw [scanFront, isSome_scanFrontFrom, GlyphPattern.fitsFrom_zero_iff]

end GlyphFilter

/-! ## §5 Contexts -/

namespace ContextPattern

/-- A context matches if its three parts do, the lookahead from where the input has ended. -/
theorem isMatch_iff_scans (c : ContextPattern) (f : GlyphFilter) (t : TextPlace) :
    c.isMatch f t = true ↔
      (f.scanBack c.backtrack t.before t.beforeCount).last.isSome = true ∧
        ∃ last, (f.scanFront c.input t.items t.index).last = some last ∧
          (f.scanFront c.lookahead t.items last).last.isSome = true := by
  rw [isMatch, scan]
  dsimp only
  split
  case isTrue hback =>
    rw [Option.isNone_iff_eq_none] at hback
    simp [hback]
  case isFalse hback =>
    have hsome : (f.scanBack c.backtrack t.before t.beforeCount).last.isSome = true := by
      rwa [Option.isNone_iff_eq_none, ← ne_eq, Option.ne_none_iff_isSome] at hback
    rw [and_iff_right hsome]
    cases hinput : (f.scanFront c.input t.items t.index).last with
    | none => simp
    | some last => simp

theorem isMatch_iff_fits (c : ContextPattern) (f : GlyphFilter) (t : TextPlace) :
    c.isMatch f t = true ↔
      c.backtrack.Fits (f.before t.before t.beforeCount) ∧
        c.input.Fits ((f.after t.items t.index).map Prod.fst) ∧
        c.lookahead.Fits (((f.after t.items t.index).map Prod.fst).drop c.input.length) := by
  rw [isMatch_iff_scans, GlyphFilter.isSome_scanBack, ← GlyphFilter.isSome_scanFront]
  refine and_congr_right fun _ => ?_
  cases hinput : (f.scanFront c.input t.items t.index).last with
  | none => simp
  | some last =>
    have hrest : f.after t.items last = (f.after t.items t.index).drop c.input.length :=
      GlyphFilter.after_scanFrontFrom hinput
    simp [GlyphFilter.isSome_scanFront, hrest]

/-- **Matching is filtering and comparing.** Of the glyphs before a place, take those that count,
    the nearest first, and of the glyphs after it those that count, in order. A context matches at
    the place if and only if each entry of its backtrack accepts the glyph at the same place of the
    former, each entry of its input that of the latter, and each entry of its lookahead that of what
    follows the input. Then the glyphs of the rule are the one at the place and those that the input
    was compared with, in order and inside the text. It makes no difference what of the properties
    of the glyphs has been kept with them, before the match or during it. -/
theorem isMatch_iff_filtered (c : ContextPattern) (f : GlyphFilter) {t t' : TextPlace}
    (hindex : t.index < t.items.size) (hkept : TextPlace.Alike f.table f.table t t') :
    let behind := f.before t.before t.beforeCount
    let ahead := f.after t.items t.index
    (c.isMatch f t = true ↔
      c.backtrack.Fits behind ∧ c.input.Fits (ahead.map Prod.fst) ∧
        c.lookahead.Fits ((ahead.map Prod.fst).drop c.input.length)) ∧
    c.isMatch f t' = c.isMatch f t ∧
    (c.isMatch f t = true → ∀ records,
      let positions := RuleMatch.places ⟨c.input.length + 1, records⟩ f t'.items t'.index
      positions = t.index :: (ahead.map Prod.snd).take c.input.length ∧
        positions.length = c.input.length + 1 ∧
        positions.Pairwise (· < ·) ∧ ∀ p ∈ positions, p < t.items.size) := by
  intro behind ahead
  refine ⟨isMatch_iff_fits c f t, ?_, fun hmatch records => ?_⟩
  · rw [isMatch, isMatch, hkept.scan f.flag c]
  · have hplaces : RuleMatch.places ⟨c.input.length + 1, records⟩ f t'.items t'.index =
        f.places t.items c.input.length t.index := by
      rw [hkept.index]
      exact hkept.items.rulePlaces f.flag _ t.index
    have hahead : f.places t.items c.input.length t.index =
        t.index :: (ahead.map Prod.snd).take c.input.length :=
      GlyphFilter.places_eq_after _ _
    dsimp only
    rw [hplaces]
    refine ⟨hahead, ?_, GlyphFilter.pairwise_places _ _, fun p hp => ?_⟩
    · -- there are as many glyphs ahead as the input has entries
      have hlong := ((isMatch_iff_fits c f t).mp hmatch).2.1.length_le
      rw [List.length_map] at hlong
      rw [hahead, List.length_cons, List.length_take, List.length_map, Nat.min_eq_left hlong]
    · rcases GlyphFilter.mem_places hp with rfl | ⟨-, hlt⟩
      · exact hindex
      · exact hlt

/-! A text in which marks are passed over, one of them on each side of every glyph of the rule. -/

namespace SkippedMarks

/-- Glyph 3 is a mark, and marks do not count. -/
def filter : GlyphFilter where
  table := some { classes := some (.ranges #[⟨3, 3, 3⟩]) }
  flag := ⟨0x0008⟩

/-- Glyph 1 before, glyph 5 as the second glyph, and glyph 7 after that. -/
def pattern : ContextPattern where
  backtrack := .glyphs #[1]
  input := .glyphs #[5]
  lookahead := .glyphs #[7]

def items : Array GlyphItem :=
  ([1, 3, 2, 3, 5, 3, 7].map fun glyph => { glyph, activation := 1, cluster := 0 }).toArray

def place : TextPlace where
  before := items
  beforeCount := 2
  items := items
  index := 2

/-- The same place once the properties of all glyphs have been kept. -/
def placeKept : TextPlace where
  before := rememberRange filter.table items 0 2
  beforeCount := 2
  items := rememberRange filter.table items 0 7
  index := 2

theorem alike : TextPlace.Alike filter.table filter.table place placeKept where
  before := (TextsAlike.of_settled rfl).rememberRange_right (fun _ _ hxy => hxy.remember_right) 0 2
  beforeCount := rfl
  items := (TextsAlike.of_settled rfl).rememberRange_right (fun _ _ hxy => hxy.remember_right) 0 7
  index := rfl

/-- The rule matches across the marks, and its glyphs are the third and the fifth. -/
theorem isMatch_pattern :
    pattern.isMatch filter place = true ∧
      RuleMatch.places ⟨2, []⟩ filter placeKept.items 2 = [2, 4] := by
  have hindex : place.index < place.items.size := by decide
  obtain ⟨hfits, -, hpositions⟩ := pattern.isMatch_iff_filtered filter hindex alike
  have hmatch : pattern.isMatch filter place = true := hfits.mpr (by decide)
  have hahead : ((filter.after place.items place.index).map Prod.snd).take pattern.input.length =
      [4] := by decide
  have hplaces := (hpositions hmatch []).1
  rw [hahead] at hplaces
  exact ⟨hmatch, hplaces⟩

end SkippedMarks

end ContextPattern

end OpenTypeLayout
