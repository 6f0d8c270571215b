import OpenTypeLayout.Proofs.Positioning.Lookups

/-!
# Lookups that join and attach glyphs

A glyph that is joined may change the advance of the last glyph of the chain, which has been gone
past before, and becomes the last glyph of the chain itself. A mark is moved to where it attaches,
and only its own position changes. The number of glyphs between the mark and where it attaches has
to fit sixteen bits.
-/

namespace OpenTypeLayout

namespace PosM

open PosState (Kept Ready)

variable {σ : Type} {c : PosContext σ} {fails : LayoutError → Prop} {s s' t : PosState σ}
variable {index : Nat} {item : GlyphItem}

/-! ## §1 Joins -/

theorem Spans.modify_joined {last : Nat} {exit : Point} (hs : s.Ready index)
    (hchain : s.chain = some (last, exit)) (advance : Int32) :
    Spans index (index + 1) s { s with positions := s.positions.modify last fun p =>
      { p with xAdvance := advance, newAdvance := true } } where
  le := Nat.le_succ _
  inside := hs.inside
  positions i _ hi := by
    have hne : last ≠ i := by
      rintro rfl
      exact hi exit hchain
    rw [Array.getElem?_modify, if_neg hne]
  joined last' exit' hchain' _ p hp := by
    obtain ⟨rfl, rfl⟩ := Prod.mk.inj (Option.some.inj (hchain.symm.trans hchain'))
    exact ⟨_, by rw [Array.getElem?_modify, if_pos rfl, hp, Option.map_some], .inr ⟨advance, rfl⟩⟩
  chain _ _ h := .inl h

/-- One of the two glyphs gets a new advance, and the one that is joined is moved. -/
theorem keeps_join {entry : Point} {last : Nat} {exit : Point} (hs : s.Ready index)
    (hchain : s.chain = some (last, exit)) :
    Keeps c fails (join c index entry last exit) s fun _ s' => Spans index (index + 1) s s' := by
  have hlast : last < s.positions.size :=
    hs.positioned ▸ Nat.lt_trans (hs.chained last exit hchain) hs.inside
  have hindex : index < s.positions.size := hs.positioned ▸ hs.inside
  -- the height of the last glyph is read from the positions, so it has to be there
  have hheight : ∀ t : PosState σ, Kept c s t → Spans index (index + 1) s t →
      Keeps c fails (do
        let height := ((← get).positions[last]?.map Position.y).getD 0
        modifyPosition index fun p => { p with y := exit.y - entry.y + height }) t
        fun _ s' => Spans index (index + 1) s s' := by
    intro t hkept ht
    have hindex' : index < t.positions.size := hkept.positioned ▸ hindex
    refine .get_bind ?_ fun extra => ?_
    · refine (keeps_modifyPosition hindex' _).mono fun _ s' _ hs' => ?_
      exact ht.shift (hs' ▸ shifts_modify t index _) (by omega)
    · have hget : (t.positions ++ extra)[last]? = t.positions[last]? :=
        Array.getElem?_append_left (hkept.positioned ▸ hlast)
      simp only [PosState.pad, hget]
  unfold join
  split
  case isTrue =>
    refine (keeps_modifyPosition hindex _).bind fun _ t hkept ht => hheight t hkept ?_
    rw [ht]
    exact .of_shifts (shifts_modify s index _) (Nat.le_succ _) hs.inside (by omega)
  case isFalse =>
    refine (keeps_modifyPosition hlast _).bind fun _ t hkept ht => hheight t hkept ?_
    rw [ht]
    exact .modify_joined hs hchain _

theorem keeps_joinToChain (hfails : Admits c fails) (joins : EntryExit) (hs : s.Ready index) :
    Keeps c fails (joinToChain c index item joins) s fun _ s' => Spans index (index + 1) s s' := by
  have hrefl : Spans index (index + 1) s s := (Stays.refl s).spans (Nat.le_succ _) hs.inside
  unfold joinToChain
  refine .get_bind ?_ fun _ => rfl
  split
  case h_1 last exit entry hchain _ =>
    refine (keeps_anchorPoint hfails entry item.glyph).bind fun point t hkept ht => ?_
    have hstays := Stays.of_shifts ht
    refine (keeps_join (hstays.ready hkept hs) (ht.chain.trans hchain)).mono fun _ s' _ hs' => ?_
    exact .of_stays hstays hkept hs'
  case h_2 => exact .pure hrefl

/-- The chain is broken, or goes on from the glyph. -/
theorem keeps_continueChain' (hfails : Admits c fails) (joins : EntryExit) :
    Keeps c fails (continueChain c index item joins) s fun _ s' =>
      s'.positions = s.positions ∧ ∀ last exit, s'.chain = some (last, exit) → last = index := by
  unfold continueChain
  split
  case h_1 =>
    refine keeps_breakChain.mono fun _ s' _ hs' => ?_
    subst hs'
    exact ⟨rfl, fun last exit h => nomatch h⟩
  case h_2 exit _ =>
    refine (keeps_anchorPoint hfails exit item.glyph).bind fun point t _ ht => ?_
    refine (keeps_continueChain index point).mono fun _ s' _ hs' => ?_
    subst hs'
    refine ⟨(Stays.of_shifts ht).positions, fun last exit h => ?_⟩
    cases h
    rfl

theorem keeps_applyCursive (hfails : Admits c fails) (subtables : Array CursivePos)
    (p : GlyphProperty) (hs : s.Ready index) :
    Keeps c fails (applyCursive c subtables index item p) s (Step index s) := by
  -- wherever the lookup does not apply the chain is broken
  have hbreak : Keeps c fails (do breakChain; return none) s (Step index s) := by
    refine keeps_breakChain.bind fun _ s' _ hs' => .pure (.notApplied ?_)
    subst hs'
    exact ⟨rfl, fun _ h => nomatch h⟩
  rw [applyCursive_eq]
  split
  case isTrue => exact hbreak
  case isFalse =>
    apply Keeps.lift_bind
    · intro e he
      apply hfails.ofParse _ he
      intro cause hcause
      obtain ⟨subtable, -, herror⟩ := firstAnswer_error hcause
      exact CoverageMap.find_error herror
    · intro found _
      cases found with
      | none => exact hbreak
      | some joins =>
        -- the glyph is joined to the one before it, and then the chain goes on
        refine (keeps_joinToChain hfails joins hs).bind fun _ t _ ht => ?_
        refine (keeps_continueChain' hfails joins).bind fun _ s' _ hs' => .pure ?_
        obtain ⟨hpositions, hchain⟩ := hs'
        refine .applied (Nat.lt_succ_self _) { ht with positions := ?_, joined := ?_, chain := ?_ }
        · simpa only [hpositions] using ht.positions
        · simpa only [hpositions] using ht.joined
        -- a chain that goes on does so from this glyph
        · intro last exit h
          exact .inr (by rw [hchain last exit h]; omega)

/-! ## §2 Marks -/

/-- A mark is moved, and is attached if the distance fits. -/
theorem keeps_attach {target : Nat} (targetPoint markPoint : Point) (hs : s.Ready index)
    (hfar : 0xFFFF < index - target → fails (.parse .badValue)) :
    Keeps c fails (attach index target targetPoint markPoint) s fun _ s' =>
      Shifts (· = index) s s' := by
  have hindex : index < s.positions.size := hs.positioned ▸ hs.inside
  refine (keeps_modifyPosition hindex _).bind fun _ t hkept ht => ?_
  apply Keeps.lift_bind
  · intro e he
    obtain ⟨rfl, hbig⟩ := fit16_error he
    exact hfar hbig
  · intro back _
    refine (keeps_modifyPosition (hkept.positioned ▸ hindex) _).mono fun _ s' _ hs' => ?_
    subst ht hs'
    exact (shifts_modify s index _).trans (shifts_modify _ index _)

/-- Attaching a mark is a step, also if something has been done before that changes no position. -/
theorem keeps_attachAt (hfails : Admits c fails) {target : Nat} (targetGlyph : GlyphId)
    {anchors : Except ParseError (Option (Anchor × Anchor))} (hs : s.Ready index)
    (hkept : Kept c s t) (hstays : Stays s t)
    (hanchors : ∀ cause, anchors = .error cause → cause = .badIndex)
    (hfar : 0xFFFF < index - target → fails (.parse .badValue)) :
    Keeps c fails (attachAt c index target item targetGlyph anchors) t (Step index s) := by
  apply Keeps.lift_bind fun e he => hfails.ofParse hanchors he
  intro found _
  cases found with
  | none => exact .pure (.notApplied hstays)
  | some found =>
    refine (keeps_anchorPoint hfails found.1 targetGlyph).bind fun targetPoint s₁ hkept₁ hs₁ => ?_
    -- both anchors are asked of the outlines before anything is written
    refine (keeps_anchorPoint hfails found.2 item.glyph).bind fun markPoint s₂ hkept₂ hs₂ => ?_
    have hstays₂ : Stays s s₂ := hstays.trans (.of_shifts (hs₁.trans hs₂))
    have hkept₂ := (hkept.trans hkept₁).trans hkept₂
    refine (keeps_attach targetPoint markPoint (hstays₂.ready hkept₂ hs) hfar).bind
      fun _ s₃ _ hs₃ => .pure ?_
    have hspans : Spans index (index + 1) s₂ s₃ :=
      .of_shifts hs₃ (Nat.le_succ _) (hkept₂.size ▸ hs.inside) (by omega)
    exact .applied (Nat.lt_succ_self _) (.of_stays hstays₂ hkept₂ hspans)

theorem keeps_findTarget :
    Keeps c fails (findTarget c index) s fun found s' => Stays s s' ∧
      ∀ target item p, found = some (target, item, p) →
        markTarget? c.gdef s.glyphs index = some (target, p) := by
  unfold findTarget
  refine .get_bind ?_ fun _ => rfl
  refine (keeps_remember _ _).bind fun _ s' _ hs' => .pure ⟨?_, ?_⟩
  · subst hs'
    exact ⟨rfl, fun _ => id⟩
  · intro target item p hfound
    obtain ⟨⟨target', p'⟩, htarget, hfound⟩ := Option.bind_eq_some_iff.mp hfound
    obtain ⟨item', -, hfound⟩ := Option.map_eq_some_iff.mp hfound
    cases hfound
    exact htarget

/-- Some subtable covers a mark. -/
def CoversMark {T : Type} (subtables : Array (MarkAttach T)) (mark : GlyphId) : Prop :=
  ∃ a ∈ subtables, a.coversMark mark = true

theorem coversMark_of_find? {T : Type} {subtables : Array (MarkAttach T)} {mark : GlyphId}
    {a : MarkAttach T} (h : subtables.find? (fun a => a.coversMark mark) = some a) :
    CoversMark subtables mark :=
  have hcovers := Array.find?_some h
  ⟨a, Array.mem_of_find?_eq_some h, hcovers⟩

theorem keeps_applyMarkBase (hfails : Admits c fails) {subtables : Array MarkBasePos}
    (hs : s.Ready index)
    (hfar : CoversMark subtables item.glyph → ∀ target p,
      markTarget? c.gdef s.glyphs index = some (target, p) → 0xFFFF < index - target →
        fails (.parse .badValue)) :
    Keeps c fails (applyMarkBase c subtables index item) s (Step index s) := by
  unfold applyMarkBase
  split
  case h_1 => exact .pure (.notApplied (.refl s))
  case h_2 subtable hfind =>
    refine keeps_findTarget.bind fun found t hkept ht => ?_
    obtain ⟨hstays, htarget⟩ := ht
    split
    case h_1 => exact .pure (.notApplied hstays)
    case h_2 target base p =>
      have hfar := hfar (coversMark_of_find? hfind) target p (htarget target base p rfl)
      split
      · exact keeps_attachAt hfails _ hs hkept hstays (fun _ => MarkAttach.anchors_error) hfar
      · exact .pure (.notApplied hstays)

theorem keeps_applyMarkLigature (hfails : Admits c fails) {subtables : Array MarkLigPos}
    (hs : s.Ready index)
    (hfar : CoversMark subtables item.glyph → ∀ target p,
      markTarget? c.gdef s.glyphs index = some (target, p) → 0xFFFF < index - target →
        fails (.parse .badValue)) :
    Keeps c fails (applyMarkLigature c subtables index item) s (Step index s) := by
  unfold applyMarkLigature
  split
  case h_1 => exact .pure (.notApplied (.refl s))
  case h_2 subtable hfind =>
    refine keeps_findTarget.bind fun found t hkept ht => ?_
    obtain ⟨hstays, htarget⟩ := ht
    split
    case h_1 => exact .pure (.notApplied hstays)
    case h_2 target ligature p =>
      have hfar := hfar (coversMark_of_find? hfind) target p (htarget target ligature p rfl)
      split
      · exact keeps_attachAt hfails _ hs hkept hstays (fun _ => MarkAttach.anchors_error) hfar
      · exact .pure (.notApplied hstays)

theorem keeps_applyMarkMark (hfails : Admits c fails) {flag : LookupFlag}
    {subtables : Array MarkBasePos} (hs : s.Ready index)
    (hfar : CoversMark subtables item.glyph → ∀ target,
      (GlyphFilter.mk c.gdef flag).prev? s.glyphs index = some target → 0xFFFF < index - target →
        fails (.parse .badValue)) :
    Keeps c fails (applyMarkMark c flag subtables index item) s (Step index s) := by
  unfold applyMarkMark
  split
  case h_1 => exact .pure (.notApplied (.refl s))
  case h_2 subtable hfind =>
    refine .get_bind ?_ fun _ => rfl
    refine (keeps_remember _ _).bind fun _ t hkept ht => ?_
    have hstays : Stays s t := by
      subst ht
      exact ⟨rfl, fun _ => id⟩
    split
    case h_1 => exact .pure (.notApplied hstays)
    case h_2 target other hresult =>
      obtain ⟨target', htarget, hresult⟩ := Option.bind_eq_some_iff.mp hresult
      obtain ⟨other', -, hresult⟩ := Option.map_eq_some_iff.mp hresult
      cases hresult
      have hfar := hfar (coversMark_of_find? hfind) target htarget
      have hattach : Keeps c fails (attachAt c index target item other.glyph
          (subtable.apply other.glyph item.glyph)) t (Step index s) :=
        keeps_attachAt hfails _ hs hkept hstays (fun _ => MarkAttach.anchors_error) hfar
      -- with and without an attachment class, the test only decides whether the mark is attached
      dsimp only
      split <;> split
      · exact hattach
      · exact .pure (.notApplied hstays)
      · exact hattach
      · exact .pure (.notApplied hstays)

end PosM

end OpenTypeLayout
