import OpenTypeLayout.Proofs.Caching
import OpenTypeLayout.Proofs.Filtering
import OpenTypeLayout.Proofs.Programs
import OpenTypeLayout.Substitution.Apply

/-!
# Reverse chaining from right to left

A reverse chaining lookup goes over a text from its end, and writes each substitute into the text
that it reads. So what is before a glyph is still as it was when the glyph is looked at, and what is
after it is already as it will be. This module shows that nothing else matters: the text that is
left is the one that this rule determines, glyph by glyph from the right.

- `GlyphFilter.behind` and `GlyphFilter.ahead` are the glyphs that count around a place, as the
  glyph definitions have it. What is kept with the glyphs of a text does not come in.
- `ReverseSubst.fromRight` is the glyph that a lookup leaves between such glyphs.
- `SubstM.outcome_reverseAt` is a single step, and `SubstM.exists_reversePass` goes through all of
  them.
- `SubstM.reversePass_fromRight` is the result.
-/

namespace OpenTypeLayout

/-! ## §1 Glyphs that count -/

/-- The glyphs of a text in order. -/
def glyphIds (items : Array GlyphItem) : List GlyphId := items.toList.map GlyphItem.glyph

@[simp] theorem getElem?_glyphIds (items : Array GlyphItem) (i : Nat) :
    (glyphIds items)[i]? = items[i]?.map GlyphItem.glyph := by
  simp [glyphIds]

theorem glyphIds_of_bareText {items items' : Array GlyphItem}
    (h : bareText items' = bareText items) : glyphIds items' = glyphIds items := by
  have hglyphs : ∀ items, glyphIds items = (bareText items).map GlyphItem.glyph := fun items => by
    simp [glyphIds, bareText, Function.comp_def, GlyphItem.bare]
  rw [hglyphs, h, hglyphs]

/-- What is known of the glyphs of a text is right, if there are glyph definitions. -/
def Gdef.ConfirmsText (table : Option Gdef) (items : Array GlyphItem) : Prop :=
  ∀ g, table = some g → ∀ x ∈ items, g.Confirms x

namespace GlyphFilter

/-- Whether a glyph counts, as the glyph definitions have it. -/
def counts (f : GlyphFilter) (glyph : GlyphId) : Bool :=
  match f.table with
  | none => true
  | some g => f.flag.admits (g.property glyph)

/-- The glyphs before a place that count, the nearest one first. -/
def behind (f : GlyphFilter) (glyphs : List GlyphId) (place : Nat) : List GlyphId :=
  (glyphs.take place).reverse.filter f.counts

/-- The glyphs after a place that count, in order. -/
def ahead (f : GlyphFilter) (glyphs : List GlyphId) (place : Nat) : List GlyphId :=
  (glyphs.drop (place + 1)).filter f.counts

variable {f : GlyphFilter} {items : Array GlyphItem} {glyphs glyphs' : List GlyphId} {place : Nat}

theorem behind_congr (h : ∀ i < place, glyphs'[i]? = glyphs[i]?) :
    f.behind glyphs' place = f.behind glyphs place := by
  have htake : glyphs'.take place = glyphs.take place := by
    apply List.ext_getElem?
    intro i
    rw [List.getElem?_take, List.getElem?_take]
    split
    · exact h i ‹_›
    · rfl
  rw [behind, htake, behind]

theorem ahead_congr (h : ∀ i, place < i → glyphs'[i]? = glyphs[i]?) :
    f.ahead glyphs' place = f.ahead glyphs place := by
  have hdrop : glyphs'.drop (place + 1) = glyphs.drop (place + 1) := by
    apply List.ext_getElem?
    intro i
    rw [List.getElem?_drop, List.getElem?_drop]
    exact h _ (by omega)
  rw [ahead, hdrop, ahead]

theorem admits_eq_counts (h : Gdef.ConfirmsText f.table items) {item : GlyphItem}
    (hitem : item ∈ items) : f.admits item = f.counts item.glyph := by
  obtain ⟨table, flag⟩ := f
  cases table with
  | none => rfl
  | some g =>
    have hproperty : g.propertyOf item = g.property item.glyph := (h g rfl item hitem).propertyOf
    simp only [admits, Gdef.admits, Gdef.check, counts, hproperty]
    split <;> simp_all

theorem map_filter_admits (h : Gdef.ConfirmsText f.table items) {list : List GlyphItem}
    (hlist : ∀ x ∈ list, x ∈ items) :
    (list.filter f.admits).map GlyphItem.glyph = (list.map GlyphItem.glyph).filter f.counts := by
  rw [List.filter_map]
  exact congrArg _ (List.filter_congr fun x hx => admits_eq_counts h (hlist x hx))

theorem map_before (h : Gdef.ConfirmsText f.table items) (place : Nat) :
    (f.before items place).map GlyphItem.glyph = f.behind (glyphIds items) place := by
  rw [before, map_filter_admits h fun x hx =>
    Array.mem_toList_iff.mp (List.mem_of_mem_take (List.mem_reverse.mp hx)), behind, glyphIds,
    List.map_reverse, List.map_take]

theorem map_after (h : Gdef.ConfirmsText f.table items) (place : Nat) :
    ((f.after items place).map Prod.fst).map GlyphItem.glyph = f.ahead (glyphIds items) place := by
  have hitems : (f.after items place).map Prod.fst =
      (items.toList.drop (place + 1)).filter f.admits := by
    rw [after, onward, ← Function.comp_def f.admits Prod.fst, ← List.filter_map, List.map_drop,
      List.zipIdx_map_fst]
  rw [hitems, map_filter_admits h fun x hx => Array.mem_toList_iff.mp (List.mem_of_mem_drop hx),
    ahead, glyphIds, List.map_drop]

end GlyphFilter

/-! ## §2 Substitutes in context -/

/-- Each entry of a pattern accepts the glyph at the same place of a list, which is long enough. -/
def GlyphPattern.FitsGlyphs (p : GlyphPattern) (glyphs : List GlyphId) : Prop :=
  ∀ place < p.length, glyphs[place]?.any (p.accepts place) = true

instance (p : GlyphPattern) (glyphs : List GlyphId) : Decidable (p.FitsGlyphs glyphs) :=
  inferInstanceAs (Decidable (∀ place < p.length, _ = true))

theorem GlyphPattern.fits_iff_fitsGlyphs {p : GlyphPattern} {items : List GlyphItem} :
    p.Fits items ↔ p.FitsGlyphs (items.map GlyphItem.glyph) := by
  simp only [Fits, FitsGlyphs, List.getElem?_map, Option.any_map]

namespace ReverseSubst

/-- The substitute of a glyph that has certain glyphs behind it and ahead of it. -/
def between? (s : ReverseSubst) (behind ahead : List GlyphId) (glyph : GlyphId) : Option GlyphId :=
  if s.context.backtrack.FitsGlyphs behind ∧ s.context.lookahead.FitsGlyphs ahead then
    s.substitute? glyph
  else none

/-- The glyph that a lookup leaves in the place of a glyph: the substitute that the first of the
    subtables with one has, if the lookup is active there and the glyph counts, and otherwise the
    glyph itself. -/
def fromRight (subtables : List ReverseSubst) (f : GlyphFilter) (active : Bool)
    (behind ahead : List GlyphId) (glyph : GlyphId) : GlyphId :=
  if active && f.counts glyph then
    (subtables.findSome? fun s => s.between? behind ahead glyph).getD glyph
  else glyph

theorem isMatch_iff_fitsGlyphs (s : ReverseSubst) {f : GlyphFilter} {items : Array GlyphItem}
    (h : Gdef.ConfirmsText f.table items) (index : Nat) :
    s.context.isMatch f ⟨items, index, items, index⟩ = true ↔
      s.context.backtrack.FitsGlyphs (f.behind (glyphIds items) index) ∧
        s.context.lookahead.FitsGlyphs (f.ahead (glyphIds items) index) := by
  have hinput : ∀ glyphs, s.context.input.Fits glyphs := fun _ place hplace =>
    absurd hplace (Nat.not_lt_zero place)
  have hlength : s.context.input.length = 0 := rfl
  rw [ContextPattern.isMatch_iff_fits, and_iff_right (hinput _), hlength, List.drop_zero,
    GlyphPattern.fits_iff_fitsGlyphs, GlyphPattern.fits_iff_fitsGlyphs, GlyphFilter.map_before h,
    GlyphFilter.map_after h]

end ReverseSubst

namespace SubstM

open Program

variable {σ : Type} {s : SubstState σ} {subtables : List ReverseSubst} {flag : LookupFlag}
    {bits : UInt32}

theorem firstReverse_eq_findSome? (f : GlyphFilter) (t : TextPlace) (glyph : GlyphId)
    (reach : Reach) :
    (firstReverse f t glyph subtables reach).1 =
      subtables.findSome? fun s => if s.context.isMatch f t then s.substitute? glyph else none := by
  induction subtables generalizing reach with
  | nil => rfl
  | cons c rest ih =>
    rw [firstReverse, List.findSome?_cons]
    cases c.substitute? glyph with
    | none => simpa using ih reach
    | some substitute =>
      have hmatch : c.context.isMatch f t = (c.context.scan f t).1 := rfl
      rw [hmatch]
      dsimp only
      by_cases h : (c.context.scan f t).1 = true
      · rw [if_pos h, if_pos h]
      · rw [if_neg h, if_neg h]
        exact ih _

/-! ## §3 One glyph -/

/-- A text in which a glyph has been substituted, if there is something to substitute it by. -/
def substituteAt (items : Array GlyphItem) (index : Nat) : Option GlyphId → Array GlyphItem
  | none => items
  | some glyph => items.modify index fun item => { item with glyph, known := none }

/-- The substitute of the glyph at an index, if the lookup is active there and the glyph counts. -/
def substituteFor (subtables : List ReverseSubst) (f : GlyphFilter) (bits : UInt32)
    (items : Array GlyphItem) (index : Nat) : Option GlyphId :=
  items[index]?.bind fun item =>
    if item.isActive bits && f.counts item.glyph then
      subtables.findSome? fun s =>
        s.between? (f.behind (glyphIds items) index) (f.ahead (glyphIds items) index) item.glyph
    else none

theorem getD_substituteFor {f : GlyphFilter} {items : Array GlyphItem} {index : Nat}
    {item : GlyphItem} (hitem : items[index]? = some item) :
    (substituteFor subtables f bits items index).getD item.glyph =
      ReverseSubst.fromRight subtables f (item.isActive bits) (f.behind (glyphIds items) index)
        (f.ahead (glyphIds items) index) item.glyph := by
  rw [substituteFor, hitem, Option.bind_some, ReverseSubst.fromRight]
  split <;> rfl

/-- Where no classes are recorded, nothing is done for a glyph that has been written. -/
theorem outcome_recordClass_of_plain (hplain : ∀ g, s.gdef = some g → g.recordsClasses = false)
    (p : GlyphProperty) (glyph : GlyphId) : (recordClass p glyph).outcome s = (.ok (), s) := by
  rw [recordClass, outcome_bind_ok (outcome_get s)]
  cases hgdef : s.gdef with
  | none => rfl
  | some g =>
    dsimp only
    rw [hplain g hgdef]
    rfl

/-- A step keeps properties, and substitutes the glyph at the index if it has a substitute. -/
theorem outcome_reverseAt (subtables : List ReverseSubst) (flag : LookupFlag) (bits : UInt32)
    (hplain : ∀ g, s.gdef = some g → g.recordsClasses = false)
    (hknown : Gdef.ConfirmsText s.gdef s.buffer.input) (index : Nat) :
    ∃ low high, (reverseAt subtables flag bits index).outcome s =
      (.ok (), { s with buffer := { s.buffer with
        input := substituteAt (rememberRange s.gdef s.buffer.input low high) index
          (substituteFor subtables ⟨s.gdef, flag⟩ bits s.buffer.input index) } }) := by
  unfold reverseAt
  rw [outcome_bind_ok (outcome_get s), substituteFor]
  -- behind the text there is no glyph, and nothing is remembered
  cases hitem : s.buffer.input[index]? with
  | none => exact ⟨0, 0, rfl⟩
  | some item =>
    have hcounts : Gdef.admits s.gdef flag item = GlyphFilter.counts ⟨s.gdef, flag⟩ item.glyph :=
      GlyphFilter.admits_eq_counts (f := ⟨s.gdef, flag⟩) hknown (Array.mem_of_getElem? hitem)
    dsimp only
    rw [Option.bind_some, ← hcounts]
    split
    -- a glyph without the feature is not looked at
    case isFalse hinactive =>
      rw [Bool.not_eq_true] at hinactive
      rw [hinactive, Bool.false_and, if_neg Bool.false_ne_true]
      exact ⟨0, 0, rfl⟩
    case isTrue hactive =>
      rw [hactive, Bool.true_and, Gdef.admits]
      -- a glyph that the flag ignores is only remembered
      cases hcheck : Gdef.check s.gdef flag item with
      | none => exact ⟨index, index + 1, rfl⟩
      | some p =>
        -- the subtables remember glyphs as they go, which does not change what they answer
        have hfound :
            (firstReverse ⟨s.gdef, flag⟩ ⟨s.buffer.input, index, s.buffer.input, index⟩ item.glyph
              subtables ⟨index, index + 1⟩).1 = subtables.findSome? fun c =>
              c.between? (GlyphFilter.behind ⟨s.gdef, flag⟩ (glyphIds s.buffer.input) index)
                (GlyphFilter.ahead ⟨s.gdef, flag⟩ (glyphIds s.buffer.input) index) item.glyph := by
          rw [firstReverse_eq_findSome?]
          simp only [ReverseSubst.between?,
            ReverseSubst.isMatch_iff_fitsGlyphs _ (f := ⟨s.gdef, flag⟩) hknown index]
        dsimp only [TextPlace.reach]
        rw [Option.isSome_some, if_pos rfl, ← hfound]
        rcases firstReverse ⟨s.gdef, flag⟩ ⟨s.buffer.input, index, s.buffer.input, index⟩ item.glyph
          subtables ⟨index, index + 1⟩ with ⟨found, reach⟩
        refine ⟨reach.low, reach.high, ?_⟩
        cases found with
        | none => rfl
        | some glyph =>
          exact outcome_recordClass_of_plain (s := { s with buffer := { s.buffer with
            input := substituteAt (rememberRange s.gdef s.buffer.input reach.low reach.high) index
              (some glyph) } }) hplain p glyph

/-! ## §4 The whole text -/

/-- A state in which nothing but the glyphs of the input differs, and what is known of them. -/
structure OnlyGlyphsChange (s t : SubstState σ) : Prop where
  gdef : t.gdef = s.gdef
  kept : t.kept = s.kept
  output : t.buffer.output = s.buffer.output
  position : t.buffer.position = s.buffer.position
  nextLigature : t.buffer.nextLigature = s.buffer.nextLigature
  items :
    Pointwise (fun x y => y.bare = { x.bare with glyph := y.glyph }) s.buffer.input t.buffer.input

namespace OnlyGlyphsChange

variable {s₁ s₂ s₃ : SubstState σ}

theorem refl (s : SubstState σ) : OnlyGlyphsChange s s :=
  ⟨rfl, rfl, rfl, rfl, rfl, .refl fun _ _ => rfl⟩

theorem trans (h₁₂ : OnlyGlyphsChange s₁ s₂) (h₂₃ : OnlyGlyphsChange s₂ s₃) :
    OnlyGlyphsChange s₁ s₃ where
  gdef := h₂₃.gdef.trans h₁₂.gdef
  kept := h₂₃.kept.trans h₁₂.kept
  output := h₂₃.output.trans h₁₂.output
  position := h₂₃.position.trans h₁₂.position
  nextLigature := h₂₃.nextLigature.trans h₁₂.nextLigature
  items i := by
    rcases h₁₂.items.getElem?_cases i with ⟨hx, hy⟩ | ⟨x, y, hx, hy, hxy⟩ <;>
      rcases h₂₃.items.getElem?_cases i with ⟨hy', hz⟩ | ⟨y', z, hy', hz, hyz⟩
    · rw [hx, hz]
      exact .none
    · cases hy.symm.trans hy'
    · cases hy.symm.trans hy'
    · cases hy.symm.trans hy'
      rw [hx, hz]
      exact .some (by rw [hyz, hxy])

end OnlyGlyphsChange

section

variable {table : Option Gdef} {items : Array GlyphItem} {index : Nat} {found : Option GlyphId}

theorem pointwise_substituteAt (low high : Nat) :
    Pointwise (fun x y => y.bare = { x.bare with glyph := y.glyph }) items
      (substituteAt (rememberRange table items low high) index found) := by
  have hremember := Pointwise.of_bareText (bareText_rememberRange table items low high)
  intro i
  cases found with
  | none => exact (hremember.mono fun x y hxy => by rw [← hxy]; rfl) i
  | some glyph =>
    rw [substituteAt, Array.getElem?_modify]
    rcases hremember.getElem?_cases i with ⟨hx, hy⟩ | ⟨x, y, hx, hy, hxy⟩ <;> rw [hx, hy]
    · split <;> exact .none
    · split <;> refine .some ?_ <;> rw [← hxy] <;> rfl

theorem confirmsText_substituteAt (h : Gdef.ConfirmsText table items) (low high : Nat) :
    Gdef.ConfirmsText table (substituteAt (rememberRange table items low high) index found) := by
  rintro g rfl
  have hremember :=
    forall_mem_rememberRange (fun x hx => Gdef.Confirms.remember hx) (h g rfl) low high
  cases found with
  | none => exact hremember
  | some glyph =>
    intro x hx
    obtain ⟨i, hi, rfl⟩ := Array.mem_iff_getElem.mp hx
    rw [substituteAt, Array.size_modify] at hi
    simp only [substituteAt, Array.getElem_modify]
    split
    · exact Gdef.confirms_of_unknown rfl
    · exact hremember _ (Array.getElem_mem hi)

theorem getElem?_glyphIds_substituteAt (low high i : Nat) :
    (glyphIds (substituteAt (rememberRange table items low high) index found))[i]? =
      if i = index then (glyphIds items)[i]?.map found.getD else (glyphIds items)[i]? := by
  rw [← glyphIds_of_bareText (bareText_rememberRange table items low high)]
  cases found with
  | none =>
    have hid : ∀ o : Option GlyphId, o.map (none : Option GlyphId).getD = o :=
      congrFun Option.map_id
    rw [hid, ite_self, substituteAt]
  | some glyph =>
    rw [getElem?_glyphIds, getElem?_glyphIds, substituteAt, Array.getElem?_modify]
    by_cases hi : index = i
    · rw [if_pos hi, if_pos hi.symm, Option.map_map, Option.map_map]
      rfl
    · rw [if_neg hi, if_neg (Ne.symm hi)]

end

/-- Steps from a place to the beginning leave the glyphs after that place as they are, and in each
    place before it the glyph that the rule determines. -/
theorem exists_reversePass (hplain : ∀ g, s.gdef = some g → g.recordsClasses = false)
    (hknown : Gdef.ConfirmsText s.gdef s.buffer.input) (count : Nat) :
    ∃ t, (reversePass subtables flag bits count).outcome s = (.ok (), t) ∧ OnlyGlyphsChange s t ∧
      Gdef.ConfirmsText t.gdef t.buffer.input ∧
      (∀ i, count ≤ i → (glyphIds t.buffer.input)[i]? = (glyphIds s.buffer.input)[i]?) ∧
      ∀ i < count, ∀ item, s.buffer.input[i]? = some item →
        (glyphIds t.buffer.input)[i]? = some (ReverseSubst.fromRight subtables ⟨s.gdef, flag⟩
          (item.isActive bits) (GlyphFilter.behind ⟨s.gdef, flag⟩ (glyphIds s.buffer.input) i)
          (GlyphFilter.ahead ⟨s.gdef, flag⟩ (glyphIds t.buffer.input) i) item.glyph) := by
  induction count generalizing s with
  | zero =>
    exact ⟨s, rfl, .refl s, hknown, fun _ _ => rfl, fun i hi => absurd hi (Nat.not_lt_zero i)⟩
  | succ index ih =>
    obtain ⟨low, high, hstep⟩ := outcome_reverseAt subtables flag bits hplain hknown index
    let s₁ : SubstState σ := { s with buffer := { s.buffer with
      input := substituteAt (rememberRange s.gdef s.buffer.input low high) index
        (substituteFor subtables ⟨s.gdef, flag⟩ bits s.buffer.input index) } }
    have hone : OnlyGlyphsChange s s₁ := ⟨rfl, rfl, rfl, rfl, rfl, pointwise_substituteAt low high⟩
    have hglyphs₁ : ∀ i, (glyphIds s₁.buffer.input)[i]? = _ :=
      getElem?_glyphIds_substituteAt low high
    have hother : ∀ i, i ≠ index → (glyphIds s₁.buffer.input)[i]? = (glyphIds s.buffer.input)[i]? :=
      fun i hi => (hglyphs₁ i).trans (if_neg hi)
    obtain ⟨t, hrun, hchange, hconfirms, hlater, hearlier⟩ := ih (s := s₁) hplain
      (confirmsText_substituteAt hknown low high)
    refine ⟨t, by rw [reversePass, outcome_bind_ok hstep, hrun], hone.trans hchange, hconfirms,
      fun i hi => (hlater i (by omega)).trans (hother i (by omega)), fun i hi item hitem => ?_⟩
    rcases Nat.lt_succ_iff_lt_or_eq.mp hi with hlt | rfl
    case inl =>
      -- a glyph that is still to come, and what is before it, are not changed by this step
      rcases hone.items.getElem?_cases i with ⟨hnone, -⟩ | ⟨x, y, hx, hy, hxy⟩
      · cases hnone.symm.trans hitem
      · obtain rfl := Option.some.inj (hx.symm.trans hitem)
        have hglyph : y.glyph = x.glyph := by
          simpa only [getElem?_glyphIds, hx, hy, Option.map_some, Option.some.injEq] using
            hother i (Nat.ne_of_lt hlt)
        have hactive : y.isActive bits = x.isActive bits := by
          have hactivation : y.activation = x.activation := (congrArg GlyphItem.activation hxy :)
          rw [GlyphItem.isActive, hactivation, GlyphItem.isActive]
        rw [hearlier i hlt y hy, hactive, hglyph,
          GlyphFilter.behind_congr fun j hj => hother j (by omega)]
    case inr =>
      -- what comes after the glyph of this step does not change any more
      have hahead : GlyphFilter.ahead ⟨s.gdef, flag⟩ (glyphIds t.buffer.input) i =
          GlyphFilter.ahead ⟨s.gdef, flag⟩ (glyphIds s.buffer.input) i :=
        GlyphFilter.ahead_congr fun j hj => (hlater j (by omega)).trans (hother j (by omega))
      rw [hlater i (Nat.le_refl i), hglyphs₁, if_pos rfl, getElem?_glyphIds, hitem, Option.map_some,
        Option.map_some, getD_substituteFor hitem, hahead]

/-- **Reverse chaining from right to left.** Over a text of which nothing wrong is known, and with
    glyph definitions in which no classes are recorded, a reverse chaining lookup goes through, and
    it changes nothing but the glyphs. Each glyph is in the end the one that the rule determines
    from the glyph that was there, from what counts before it in the text that was given, and from
    what counts after it in the text that is left. -/
theorem reversePass_fromRight (subtables : List ReverseSubst) (flag : LookupFlag) (bits : UInt32)
    (s : SubstState σ) (hplain : ∀ g, s.gdef = some g → g.recordsClasses = false)
    (hknown : ∀ g, s.gdef = some g → ∀ x ∈ s.buffer.input, g.Confirms x) :
    let f : GlyphFilter := ⟨s.gdef, flag⟩
    ∃ t, (reversePass subtables flag bits s.buffer.size).outcome s = (.ok (), t) ∧
      OnlyGlyphsChange s t ∧ (∀ g, t.gdef = some g → ∀ x ∈ t.buffer.input, g.Confirms x) ∧
      ∀ i x, s.buffer.input[i]? = some x → ∃ y, t.buffer.input[i]? = some y ∧
        y.glyph = ReverseSubst.fromRight subtables f (x.isActive bits)
          (f.behind (glyphIds s.buffer.input) i) (f.ahead (glyphIds t.buffer.input) i) x.glyph := by
  intro f
  obtain ⟨t, hrun, hchange, hconfirms, -, hglyphs⟩ := exists_reversePass hplain hknown s.buffer.size
  refine ⟨t, hrun, hchange, hconfirms, fun i x hx => ?_⟩
  have hlt : i < s.buffer.size := (Array.getElem?_eq_some_iff.mp hx).1
  have hglyph := hglyphs i hlt x hx
  rw [getElem?_glyphIds, Option.map_eq_some_iff] at hglyph
  exact hglyph

end SubstM

/-! A lookup that skips marks. The glyph 5 before 6 is substituted by 7 if it comes after 4, and
    otherwise by 6, so that the glyph 5 before it is also before a 6. -/

namespace FromTheEnd

def subtables : List ReverseSubst :=
  [{ coverage := .glyphs #[5], backtrack := #[.glyphs #[4]], lookahead := #[.glyphs #[6]],
     substitutes := #[7] },
   { coverage := .glyphs #[5], backtrack := #[], lookahead := #[.glyphs #[6]],
     substitutes := #[6] }]

/-- The glyph 3 is a mark. -/
def gdef : Gdef := { classes := some (.ranges #[⟨3, 3, 3⟩]) }

/-- The glyphs 4, 5, 3, 5 and 6. -/
def start : SubstState Unit where
  buffer := ((((GlyphBuffer.empty.push 4 1 0).push 5 1 1).push 3 1 2).push 5 1 3).push 6 1 4
  gdef := some gdef
  kept := ()

open SubstM in
/-- The glyph 5 next to 4 is substituted by 7. What counts after it are the glyph 6 that has been
    written there, and the one that was there before. -/
theorem seven_written : ∃ t, (reversePass subtables ⟨8⟩ 1 5).outcome start = (.ok (), t) ∧
    OnlyGlyphsChange start t ∧ glyphIds t.buffer.input = [4, 7, 3, 6, 6] ∧
    ∃ y, t.buffer.input[1]? = some y ∧ y.glyph = 7 ∧
      y.glyph = ReverseSubst.fromRight subtables ⟨some gdef, ⟨8⟩⟩ true [4] [6, 6] 5 := by
  have hunknown : ∀ x ∈ start.buffer.input, x.known = none := by decide
  obtain ⟨t, hrun, hchange, -, hglyphs⟩ := reversePass_fromRight subtables ⟨8⟩ 1 start
    (by rintro g ⟨⟩; rfl) (fun g _ x hx => Gdef.confirms_of_unknown (hunknown x hx))
  have hleft : glyphIds t.buffer.input = [4, 7, 3, 6, 6] := by
    have ht : t = ((reversePass subtables ⟨8⟩ 1 start.buffer.size).outcome start).2 := by rw [hrun]
    rw [ht]
    decide +kernel
  obtain ⟨y, hy, hglyph⟩ := hglyphs 1 _ rfl
  rw [hleft] at hglyph
  exact ⟨t, hrun, hchange, hleft, y, hy, hglyph.trans (by decide +kernel), hglyph⟩

end FromTheEnd

end OpenTypeLayout
