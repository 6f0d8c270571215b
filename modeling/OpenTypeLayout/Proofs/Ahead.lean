import OpenTypeLayout.Proofs.Invocation
import OpenTypeLayout.Proofs.Places
import OpenTypeLayout.Substitution.Apply

/-!
# Glyphs ahead

The glyphs of a rule, the components of a ligature and the second glyph of a pair are all found by
going on to the next glyph that counts, a number of times. `GlyphFilter.nth?` is where that leads.

- The places of a rule are the first so many of these glyphs, and what is left of a rule from one of
  them on is as many glyphs as can still be gone on to.
- Where one leads depends on nothing but which glyphs count up to there.
-/

namespace OpenTypeLayout

namespace GlyphFilter

variable {f : GlyphFilter} {items : Array GlyphItem}

/-! ## §1 Going on -/

/-- Go on to the next glyph that counts `n` times. -/
def nth? (f : GlyphFilter) (items : Array GlyphItem) : (n place : Nat) → Option Nat
  | 0, place => some place
  | n + 1, place => (f.next? items place).bind (nth? f items n)

@[simp] theorem nth?_zero (place : Nat) : f.nth? items 0 place = some place := rfl

theorem nth?_succ_eq_some {n place p : Nat} :
    f.nth? items (n + 1) place = some p ↔
      ∃ next, f.next? items place = some next ∧ f.nth? items n next = some p := by
  rw [nth?, Option.bind_eq_some_iff]

theorem nth?_add (n m place : Nat) :
    f.nth? items (n + m) place = (f.nth? items n place).bind (f.nth? items m) := by
  induction n generalizing place with
  | zero => rw [Nat.zero_add, nth?_zero, Option.bind_some]
  | succ n ih =>
    rw [Nat.add_right_comm, nth?, nth?, Option.bind_assoc]
    congr 1
    exact funext ih

theorem nth?_le {n place p : Nat} (h : f.nth? items n place = some p) : place + n ≤ p := by
  induction n generalizing place with
  | zero => exact Nat.le_of_eq (Option.some.inj h)
  | succ n ih =>
    obtain ⟨next, hnext, h⟩ := nth?_succ_eq_some.mp h
    have := (next?_eq_some hnext).1
    have := ih h
    omega

theorem nth?_lt_size {n place p : Nat} (hplace : place < items.size)
    (h : f.nth? items n place = some p) : p < items.size := by
  induction n generalizing place with
  | zero => exact Option.some.inj h ▸ hplace
  | succ n ih =>
    obtain ⟨next, hnext, h⟩ := nth?_succ_eq_some.mp h
    obtain ⟨-, item, hitem, -⟩ := next?_eq_some hnext
    exact ih (Array.getElem?_eq_some_iff.mp hitem).1 h

/-- Whoever goes on more often gets further, from where the other has got to. -/
theorem nth?_of_le {n m place p q : Nat} (hnm : n ≤ m) (hp : f.nth? items n place = some p)
    (hq : f.nth? items m place = some q) : f.nth? items (m - n) p = some q := by
  rw [← Nat.add_sub_of_le hnm, nth?_add, hp, Option.bind_some] at hq
  exact hq

theorem nth?_mono {n m place p q : Nat} (hnm : n ≤ m) (hp : f.nth? items n place = some p)
    (hq : f.nth? items m place = some q) : p ≤ q :=
  Nat.le_trans (Nat.le_add_right p (m - n)) (nth?_le (nth?_of_le hnm hp hq))

/-! ## §2 The places of a rule -/

theorem getElem?_places (n i place : Nat) :
    (f.places items n place)[i]? = if i ≤ n then f.nth? items i place else none := by
  induction n generalizing i place with
  | zero => cases i <;> simp [places]
  | succ n ih =>
    rw [places]
    cases i with
    | zero => split <;> simp
    | succ i =>
      rw [nth?]
      split
      case h_1 next hnext => simp [ih, hnext]
      case h_2 hnone => simp [hnone]

/-- If it is possible to go on that often, there are that many places. -/
theorem length_places {n place last : Nat} (h : f.nth? items n place = some last) :
    (f.places items n place).length = n + 1 := by
  induction n generalizing place with
  | zero => rfl
  | succ n ih =>
    obtain ⟨next, hnext, h⟩ := nth?_succ_eq_some.mp h
    simp [places, hnext, ih h]

theorem getLast?_places {n place last : Nat} (h : f.nth? items n place = some last) :
    (f.places items n place).getLast? = some last := by
  rw [List.getLast?_eq_getElem?, length_places h, getElem?_places, Nat.add_sub_cancel,
    if_pos (Nat.le_refl n), h]

/-- From one of the places on, there are as many places left as can still be gone on to. -/
theorem remainingFrom_places {n i place p last : Nat} (hi : i ≤ n)
    (hp : f.nth? items i place = some p) (hlast : f.nth? items n place = some last) :
    remainingFrom (f.places items n place) p = n - i + 1 := by
  induction i generalizing n place with
  | zero =>
    -- no place is before the first one
    have hall : ∀ q ∈ f.places items n place, decide (p ≤ q) = true := by
      intro q hq
      obtain rfl := Option.some.inj hp
      rcases mem_places hq with rfl | ⟨hlt, -⟩
      · simp
      · simpa using Nat.le_of_lt hlt
    rw [remainingFrom, List.filter_eq_self.mpr hall, length_places hlast, Nat.sub_zero]
  | succ i ih =>
    obtain ⟨n, rfl⟩ : ∃ m, n = m + 1 := ⟨n - 1, by omega⟩
    obtain ⟨next, hnext, hp'⟩ := nth?_succ_eq_some.mp hp
    obtain ⟨next', hnext', hlast'⟩ := nth?_succ_eq_some.mp hlast
    obtain rfl := Option.some.inj (hnext.symm.trans hnext')
    -- the first place is before all that are left
    have hpassed : decide (p ≤ place) = false := by
      have := nth?_le hp
      simpa using by omega
    have hrest := ih (Nat.le_of_succ_le_succ hi) hp' hlast'
    rw [remainingFrom] at hrest ⊢
    simp only [places, hnext, List.filter_cons, hpassed, Bool.false_eq_true, if_false]
    omega

/-! ## §3 What counts up to a place -/

/-- Of the glyphs of two texts behind `low` and up to `high`, two filters count the same ones. -/
structure Agree (f : GlyphFilter) (items : Array GlyphItem) (f' : GlyphFilter)
    (items' : Array GlyphItem) (low high : Nat) : Prop where
  size : items'.size = items.size
  admits : ∀ i, low < i → i ≤ high → items'[i]?.any f'.admits = items[i]?.any f.admits

section

variable {f' : GlyphFilter} {items' : Array GlyphItem} {low high : Nat}

theorem Agree.mono (h : f.Agree items f' items' low high) {low' high' : Nat} (hlow : low ≤ low')
    (hhigh : high' ≤ high) : f.Agree items f' items' low' high' where
  size := h.size
  admits i hi hi' := h.admits i (by omega) (by omega)

theorem firstFrom_congr {left place found : Nat}
    (hadmits : ∀ i, place ≤ i → i ≤ found → items'[i]?.any f'.admits = items[i]?.any f.admits)
    (h : f.firstFrom items left place = some found) :
    f'.firstFrom items' left place = some found := by
  induction left generalizing place with
  | zero => cases h
  | succ left ih =>
    have hle := (firstFrom_eq_some h).1
    rw [firstFrom] at h ⊢
    rw [hadmits place (Nat.le_refl _) hle]
    split at h
    case isTrue hany => rw [if_pos hany, h]
    case isFalse hany =>
      rw [if_neg hany]
      exact ih (fun i hi => hadmits i (by omega)) h

theorem Agree.next? {place found : Nat} (h : f.Agree items f' items' place found)
    (hnext : f.next? items place = some found) : f'.next? items' place = some found := by
  rw [GlyphFilter.next?, h.size]
  exact firstFrom_congr (fun i hi => h.admits i hi) hnext

theorem Agree.nth? {n place last : Nat} (h : f.Agree items f' items' place last)
    (hlast : f.nth? items n place = some last) : f'.nth? items' n place = some last := by
  induction n generalizing place with
  | zero => exact hlast
  | succ n ih =>
    obtain ⟨next, hnext, hrest⟩ := nth?_succ_eq_some.mp hlast
    have hlt := (next?_eq_some hnext).1
    have hle := nth?_le hrest
    exact nth?_succ_eq_some.mpr
      ⟨next, (h.mono (Nat.le_refl _) (by omega)).next? hnext,
        ih (h.mono (Nat.le_of_lt hlt) (Nat.le_refl _)) hrest⟩

end

/-! ## §4 What is found -/

/-- A scan that succeeds has gone on as often as the pattern is long, and has looked no further. -/
theorem scanFrontFrom_eq_some {p : GlyphPattern} {left place index last bound : Nat}
    (h : f.scanFrontFrom p items left place index = ⟨some last, bound⟩) :
    f.nth? items left index = some last ∧ bound = last + 1 := by
  induction left generalizing place index with
  | zero =>
    cases h
    exact ⟨rfl, rfl⟩
  | succ left ih =>
    rw [scanFrontFrom] at h
    split at h
    case h_1 => cases h
    case h_2 found hfound =>
      split at h
      case isTrue =>
        obtain ⟨hlast, hbound⟩ := ih h
        exact ⟨nth?_succ_eq_some.mpr ⟨found, hfound, hlast⟩, hbound⟩
      case isFalse => cases h

/-- The components of a ligature are the glyphs that one gets to by going on from the first one. -/
theorem matchComponents_places {components : List GlyphId} {index : Nat} {allMarks : Bool}
    {m : LigatureMatch} {bound : Nat}
    (h : matchComponents f items components index allMarks = (some m, bound)) :
    m.places = f.places items components.length index ∧
      ∃ last, f.nth? items components.length index = some last := by
  -- each component is the next glyph that counts, and the last of them is where the match ends
  induction components generalizing index allMarks m bound with
  | nil =>
    cases h
    exact ⟨rfl, index, rfl⟩
  | cons component rest ih =>
    rw [matchComponents] at h
    split at h
    case h_1 => cases h
    case h_2 found hfound =>
      split at h
      case h_1 => cases h
      case h_2 item _ =>
        split at h
        case isTrue =>
          simp only [Prod.mk.injEq, Option.map_eq_some_iff] at h
          obtain ⟨⟨m', hm', rfl⟩, -⟩ := h
          obtain ⟨hplaces, last, hlast⟩ := ih (Prod.ext hm' rfl)
          refine ⟨?_, last, nth?_succ_eq_some.mpr ⟨found, hfound, hlast⟩⟩
          simp only [List.length_cons, places, hfound, hplaces]
        case isFalse => cases h

end GlyphFilter

/-- If a ligature is found, its last component is the last of some glyphs ahead, of which there are
    no more than fit the context. -/
theorem firstLigature_last {f : GlyphFilter} {contextLength : UInt16} {items : Array GlyphItem}
    {index : Nat} {isMark : Bool} {ligatures : List Ligature} {bound bound' : Nat} {glyph : GlyphId}
    {m : LigatureMatch}
    (h : firstLigature f contextLength items index isMark ligatures bound =
      (some (glyph, m), bound')) :
    ∃ l ∈ ligatures, fitsContext l.count contextLength = true ∧
      ∃ last, f.nth? items (l.count - 1) index = some last ∧ m.places.getLast? = some last := by
  -- the ligatures before the one that matches leave nothing but what has been looked at
  induction ligatures generalizing bound with
  | nil => cases h
  | cons l rest ih =>
    rw [firstLigature] at h
    split at h
    case h_1 m' bound'' hsearch =>
      simp only [Prod.mk.injEq, Option.some.injEq] at h
      obtain ⟨⟨-, rfl⟩, -⟩ := h
      rw [Ligature.search] at hsearch
      split at hsearch
      -- the ligature fits the context, and its places end with its last component
      case isTrue hfits =>
        obtain ⟨hplaces, last, hlast⟩ := GlyphFilter.matchComponents_places hsearch
        rw [Array.length_toList] at hplaces hlast
        have hfits := (Bool.and_eq_true_iff.mp hfits).1
        exact ⟨l, List.mem_cons_self, hfits, last, hlast,
          hplaces ▸ GlyphFilter.getLast?_places hlast⟩
      case isFalse => cases hsearch
    case h_2 =>
      obtain ⟨l', hl', hrest⟩ := ih h
      exact ⟨l', List.mem_cons_of_mem l hl', hrest⟩

/-- If a rule matches, there are as many glyphs ahead as it asks for, and all of the text up to the
    last of them has been looked at. -/
theorem firstMatch_last {f : GlyphFilter} {t : TextPlace} {rules : List RuleCandidate}
    {reach reach' : Reach} {result : RuleMatch}
    (h : firstMatch f t rules reach = (some result, reach')) :
    ∃ r ∈ rules, r.result = result ∧ ∃ last,
      f.nth? t.items r.context.input.length t.index = some last ∧ last < reach'.high := by
  -- likewise for rules, where the reach goes past what has been looked at
  induction rules generalizing reach with
  | nil => cases h
  | cons r rest ih =>
    simp only [firstMatch] at h
    split at h
    case isTrue hmatched =>
      simp only [Prod.mk.injEq, Option.some.injEq] at h
      obtain ⟨hresult, rfl⟩ := h
      refine ⟨r, List.mem_cons_self, hresult, ?_⟩
      rw [ContextPattern.scan] at hmatched ⊢
      split at hmatched
      case isTrue => cases hmatched
      -- the glyphs before have matched, and now those of the rule itself
      case isFalse hback =>
        rw [if_neg hback]
        rcases hinput : f.scanFront r.context.input t.items t.index with ⟨_ | last, bound⟩
        · simp [hinput] at hmatched
        · obtain ⟨hlast, rfl⟩ := GlyphFilter.scanFrontFrom_eq_some hinput
          refine ⟨last, hlast, ?_⟩
          simp only [Reach.union]
          omega
    case isFalse =>
      obtain ⟨r', hr', hrest⟩ := ih h
      exact ⟨r', List.mem_cons_of_mem r hr', hrest⟩

namespace ContextLookup

/-- A rule that may apply asks for as many glyphs as it has, and these fit the context. -/
theorem candidates_fit {c : ContextLookup} {glyph : GlyphId} {contextLength : UInt16}
    {rules : List RuleCandidate} (h : c.candidates glyph contextLength = .ok rules)
    {r : RuleCandidate} (hr : r ∈ rules) :
    r.context.input.length + 1 = r.result.inputCount ∧
      fitsContext r.result.inputCount contextLength = true := by
  -- a rule of a set is a candidate if it fits, whatever its values mean
  have hset : ∀ {set : RuleSet} {backtrack input lookahead : Array UInt16 → GlyphPattern},
      (∀ list, (input list).length = list.size) →
      r ∈ candidatesOf set contextLength backtrack input lookahead →
      r.context.input.length + 1 = r.result.inputCount ∧
        fitsContext r.result.inputCount contextLength = true := by
    intro set backtrack input lookahead hlength hr
    obtain ⟨rule, hrule, rfl⟩ := List.mem_map.mp hr
    exact ⟨by rw [hlength], (List.mem_filter.mp hrule).2⟩
  unfold candidates at h
  -- each format gives the rules of one set, or a single rule, or none
  cases c with
  | byGlyph coverage sets =>
    dsimp only at h
    repeat' split at h
    all_goals cases h
    · cases hr
    · cases hr
    · exact hset (fun _ => rfl) hr
  | byClass coverage backtrack input lookahead sets =>
    dsimp only at h
    repeat' split at h
    all_goals cases h
    · exact hset (fun _ => rfl) hr
    · cases hr
    · cases hr
  | byCoverage first backtrack input lookahead records =>
    dsimp only at h
    split at h
    case isTrue hfits =>
      cases h
      obtain rfl := List.mem_singleton.mp hr
      exact ⟨rfl, (Bool.and_eq_true_iff.mp hfits).2⟩
    case isFalse =>
      cases h
      cases hr

end ContextLookup

end OpenTypeLayout
