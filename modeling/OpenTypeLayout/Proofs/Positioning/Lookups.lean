import OpenTypeLayout.Proofs.Positioning.Spans

/-!
# Lookups that position glyphs

Each type of lookup without context makes one step: where it applies it goes past its glyph and
changes positions of glyphs that it goes past, and where it does not it changes no position. Only
joins also change the glyph that is joined to, which may have been gone past before.
-/

namespace OpenTypeLayout

/-! ## §1 Subtables -/

theorem SinglePos.apply_error {s : SinglePos} {glyph : GlyphId} {cause : ParseError}
    (h : s.apply glyph = .error cause) : cause = .badIndex := by
  cases s with
  | all => cases h
  | each => exact CoverageMap.find_error h

theorem PairPos.apply_error {s : PairPos} {first second : GlyphId} {cause : ParseError}
    (h : s.apply first second = .error cause) : cause = .badIndex := by
  cases s with
  | byGlyph format sets =>
    rw [apply] at h
    cases hfind : sets.find first with
    | error cause' =>
      rw [hfind] at h
      cases h
      exact CoverageMap.find_error hfind
    | ok set =>
      rw [hfind] at h
      cases set <;> cases h
  | byClass =>
    simp only [apply] at h
    repeat' split at h
    all_goals cases h
    all_goals rfl

theorem MarkAttach.anchors_error {T : Type} {a : MarkAttach T} {row : T → Option AnchorRow}
    {target mark : GlyphId} {cause : ParseError} (h : a.anchors row target mark = .error cause) :
    cause = .badIndex := by
  unfold anchors at h
  split at h
  -- only the mark array is indexed with a number that comes from elsewhere
  case h_1 targetIndex markIndex _ _ =>
    cases hmark : a.mark markIndex with
    | error cause' =>
      rw [hmark] at h
      cases h
      unfold MarkAttach.mark at hmark
      repeat' split at hmark
      all_goals cases hmark
      all_goals rfl
    | ok record =>
      rw [hmark] at h
      simp only [bind, Except.bind] at h
      split at h <;> cases h
      rfl
  case h_2 => cases h

/-- An answer is that of one of the subtables. -/
theorem firstAnswer_eq_some {α β : Type} {answer : α → Except ParseError (Option β)} {list : List α}
    {b : β} (h : firstAnswer answer list = .ok (some b)) : ∃ a ∈ list, answer a = .ok (some b) := by
  induction list with
  | nil => cases h
  | cons a rest ih =>
    rw [firstAnswer] at h
    split at h
    case h_1 => cases h
    case h_2 b' ha =>
      cases h
      exact ⟨a, List.mem_cons_self, ha⟩
    case h_3 =>
      obtain ⟨a', ha', hb⟩ := ih h
      exact ⟨a', List.mem_cons_of_mem a ha', hb⟩

/-- If a subtable has an answer and none before it does, then that is the answer, unless
    one fails. -/
theorem firstAnswer_of_earlier {α β : Type} {answer : α → Except ParseError (Option β)}
    {earlier later : List α} {a : α} {b : β} {found : Option β}
    (hearlier : ∀ e ∈ earlier, ∀ b, answer e ≠ .ok (some b)) (ha : answer a = .ok (some b))
    (h : firstAnswer answer (earlier ++ a :: later) = .ok found) : found = some b := by
  induction earlier with
  | nil =>
    rw [List.nil_append, firstAnswer, ha] at h
    exact (Except.ok.inj h).symm
  | cons e rest ih =>
    obtain ⟨he, hrest⟩ := List.forall_mem_cons.mp hearlier
    rw [List.cons_append, firstAnswer] at h
    split at h
    case h_1 => cases h
    case h_2 b' hb' => exact absurd hb' (he b')
    case h_3 => exact ih hrest h

/-- If second glyphs are not adjusted, the adjustments of second glyphs have no amounts. -/
def PairPos.SecondsFit (s : PairPos) : Prop :=
  s.adjustsSecond = false → ∀ first second v, s.apply first second = .ok (some v) → v.second = {}

namespace PosM

open PosState (Kept Ready)

variable {σ : Type} {c : PosContext σ} {fails : LayoutError → Prop} {s : PosState σ} {index : Nat}
variable {item : GlyphItem}

/-! ## §2 The glyph at an index -/

/-- Something is done with the glyph at an index if the lookup processes it. -/
theorem keeps_atGlyph {flag : LookupFlag} (hs : s.Ready index)
    {action : GlyphItem → GlyphProperty → PosM σ (Option Nat)}
    (haction : ∀ item p s', Kept c s s' → Stays s s' → s'.Ready index →
      s.glyphs[index]? = some item → Keeps c fails (action item p) s' (Step index s')) :
    Keeps c fails (atGlyph c flag index action) s (Step index s) := by
  unfold atGlyph
  refine .get_bind ?_ fun _ => rfl
  split
  case h_1 => exact .pure (.notApplied (.refl s))
  case h_2 item hitem =>
    refine (keeps_remember _ _).bind fun _ s' hkept hs' => ?_
    have hstays : Stays s s' := by
      subst hs'
      exact ⟨rfl, fun _ => id⟩
    split
    case h_1 => exact .pure (.notApplied hstays)
    case h_2 p _ =>
      exact (haction item p s' hkept hstays (hstays.ready hkept hs) hitem).mono
        fun answer s'' _ hstep => hstep.of_stays hstays hkept

/-! ## §3 Single glyphs and pairs -/

theorem keeps_applySingle (hfails : Admits c fails) (subtables : Array SinglePos)
    (hs : s.Ready index) :
    Keeps c fails (applySingle c subtables index item) s (Step index s) := by
  apply Keeps.lift_bind
  · intro e he
    apply hfails.ofParse _ he
    intro cause hcause
    obtain ⟨subtable, -, herror⟩ := firstAnswer_error hcause
    exact SinglePos.apply_error herror
  · intro found _
    cases found with
    | none => exact .pure (.notApplied (.refl s))
    | some value =>
      have hindex := hs.positioned ▸ hs.inside
      refine (keeps_adjust hfails value hindex).bind fun _ s' _ hs' => .pure ?_
      exact .applied (Nat.lt_succ_self _) (.of_shifts hs' (Nat.le_succ _) hs.inside (by omega))

/-- What a pair subtable says about a pair, if it says something. -/
theorem pairAnswer_eq_some {first second : GlyphId} {secondIndex next : Nat} {subtable : PairPos}
    {v : PairValue}
    (h : pairAnswer first second secondIndex subtable = .ok (some (v, next))) :
    subtable.apply first second = .ok (some v) ∧
      next = if subtable.adjustsSecond then secondIndex + 1 else secondIndex := by
  unfold pairAnswer at h
  cases happly : subtable.apply first second with
  | error cause =>
    rw [happly] at h
    cases h
  | ok value =>
    rw [happly] at h
    cases value with
    | none => cases h
    | some value =>
      cases h
      exact ⟨rfl, rfl⟩

theorem pairAnswer_error {first second : GlyphId} {secondIndex : Nat} {subtable : PairPos}
    {cause : ParseError} (h : pairAnswer first second secondIndex subtable = .error cause) :
    cause = .badIndex := by
  unfold pairAnswer at h
  cases happly : subtable.apply first second with
  | error cause' =>
    rw [happly] at h
    cases h
    exact PairPos.apply_error happly
  | ok value =>
    rw [happly] at h
    cases h

/-- If the second glyph of a pair is not gone past, its position stays. -/
theorem keeps_applyPair (hfails : Admits c fails) (flag : LookupFlag) {subtables : Array PairPos}
    (hfit : ∀ p ∈ subtables, p.SecondsFit) (hs : s.Ready index) :
    Keeps c fails (applyPair c flag subtables index item) s (Step index s) := by
  unfold applyPair
  refine .get_bind ?_ fun _ => rfl
  split
  -- no second glyph: nothing but the remembered place changes
  case h_1 =>
    refine (keeps_remember _ _).bind fun _ s' _ hs' => .pure (.notApplied ?_)
    subst hs'
    exact ⟨rfl, fun _ => id⟩
  case h_2 secondIndex hsecond =>
    obtain ⟨hlt, item', hitem', -⟩ := GlyphFilter.next?_eq_some hsecond
    have hinside : secondIndex < s.glyphs.size := (Array.getElem?_eq_some_iff.mp hitem').1
    refine (keeps_remember _ _).bind fun _ s₁ hkept₁ hs₁ => ?_
    have hstays₁ : Stays s s₁ := by
      subst hs₁
      exact ⟨rfl, fun _ => id⟩
    have hready₁ := hstays₁.ready hkept₁ hs
    have hinside₁ : secondIndex < s₁.glyphs.size := hkept₁.size ▸ hinside
    -- the two kinds of subtable can fail only in looking up the pair
    apply Keeps.lift_bind
    · intro e he
      apply hfails.ofParse _ he
      intro cause hcause
      obtain ⟨subtable, -, herror⟩ := firstAnswer_error hcause
      exact pairAnswer_error herror
    · intro found hfound
      cases found with
      | none => exact .pure (.notApplied hstays₁)
      | some found =>
        obtain ⟨v, next⟩ := found
        obtain ⟨subtable, hsubtable, hanswer⟩ :=
          firstAnswer_eq_some (LayoutError.ofParse_eq_ok hfound)
        obtain ⟨happly, rfl⟩ := pairAnswer_eq_some hanswer
        have hindex₁ := hready₁.positioned ▸ hready₁.inside
        refine (keeps_adjust hfails v.first hindex₁).bind fun _ s₂ hkept₂ hs₂ => ?_
        have hsecond₂ : secondIndex < s₂.positions.size := by
          rw [hkept₂.positioned, hready₁.positioned]
          exact hinside₁
        -- the second glyph is adjusted too, and the step goes past it
        cases hadjusts : subtable.adjustsSecond with
        | true =>
          refine (keeps_adjust hfails v.second hsecond₂).bind fun _ s₃ _ hs₃ => .pure ?_
          have hshifts : Shifts (fun i => i = index ∨ i = secondIndex) s₁ s₃ :=
            (hs₂.mono fun _ => .inl).trans (hs₃.mono fun _ => .inr)
          rw [if_pos rfl]
          refine .applied (Nat.lt_succ_of_lt hlt) (.of_stays hstays₁ hkept₁ ?_)
          exact .of_shifts hshifts (Nat.le_succ_of_le (Nat.le_of_lt hlt)) hinside₁ (by omega)
        -- a subtable that leaves the second glyph alone has no value for it either
        | false =>
          have hempty := hfit subtable (Array.mem_toList_iff.mp hsubtable) hadjusts _ _ v happly
          rw [hempty]
          refine (keeps_adjust_empty hsecond₂).bind fun _ s₃ _ hs₃ => .pure ?_
          have hshifts : Shifts (fun i => i = index) s₁ s₃ :=
            hs₂.trans (hs₃.mono fun _ => False.elim)
          rw [if_neg Bool.false_ne_true]
          refine .applied hlt (.of_stays hstays₁ hkept₁ ?_)
          exact .of_shifts hshifts (Nat.le_of_lt hlt) (Nat.le_of_lt hinside₁) (by omega)

end PosM

end OpenTypeLayout
