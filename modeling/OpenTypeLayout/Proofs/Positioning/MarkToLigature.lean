import OpenTypeLayout.Proofs.Positioning.Chain
import OpenTypeLayout.Proofs.Positioning.Consumption

/-!
# Marks on ligatures

A lookup that attaches marks to ligatures goes to each mark once. A mark goes back over the marks
before it to a ligature, and attaches to one of its components.

- `MarkLigPos.Anchors` says that a mark has a place on a component of a ligature.
- `PosM.Attached` says what the position of a mark is once it is attached there.
- `PosM.placed_of_position` says that the marks of a text get these positions, if no other lookup is
  active.
-/

namespace OpenTypeLayout

/-! ## §1 Places for marks -/

/-- What is found for a mark and a target that are covered. -/
theorem MarkAttach.anchors_of_index {T : Type} {a : MarkAttach T} {row : T → Option AnchorRow}
    {target mark : GlyphId} {targetIndex markIndex : UInt16} {record : MarkRecord} {entry : T}
    (htarget : a.targetCoverage.index? target = some targetIndex)
    (hmark : a.markCoverage.index? mark = some markIndex)
    (hrecord : a.marks[markIndex.toNat]? = some record)
    (hentry : a.targets[targetIndex.toNat]? = some entry) :
    a.anchors row target mark =
      if record.markClass.toNat < a.classCount then
        .ok (((row entry).bind fun r => r[record.markClass.toNat]?.join).bind fun t =>
          record.anchor.map fun m => (t, m))
      else .error .badIndex := by
  simp only [anchors, htarget, hmark, MarkAttach.mark, hrecord, hentry]
  split <;> rfl

namespace MarkLigPos

/-- The component of a ligature that a mark belongs to. None stands for the last one, which is that
    of a mark that belongs to no ligature or to another one. -/
def componentOf (mark ligature : GlyphItem) : Option UInt16 :=
  if mark.ligature ≠ 0 ∧ mark.ligature = ligature.ligature then some mark.component else none

/-- The anchors of a component. -/
def row (component : Option UInt16) (rows : Array AnchorRow) : Option AnchorRow :=
  match component with
  | some c => rows[c.toNat]?
  | none => rows.back?

/-- A ligature and a mark are covered, and there are anchors for the mark on both of them, on the
    component of the ligature with a row of anchors. -/
inductive Anchors (a : MarkLigPos) (row : Array AnchorRow → Option AnchorRow)
    (ligature mark : GlyphId) (onLigature onMark : Anchor) : Prop
  | intro {ligatureIndex markIndex : UInt16} {record : MarkRecord} {rows : Array AnchorRow}
      {anchors : AnchorRow} (hligature : a.targetCoverage.index? ligature = some ligatureIndex)
      (hmark : a.markCoverage.index? mark = some markIndex)
      (hrecord : a.marks[markIndex.toNat]? = some record)
      (hrows : a.targets[ligatureIndex.toNat]? = some rows) (hrow : row rows = some anchors)
      (hligatureAnchor : anchors[record.markClass.toNat]? = some (some onLigature))
      (hmarkAnchor : record.anchor = some onMark) : Anchors a row ligature mark onLigature onMark

variable {a : MarkLigPos} {component : Option UInt16} {ligature mark : GlyphId}
variable {onLigature onMark : Anchor}

theorem Anchors.coversMark {row : Array AnchorRow → Option AnchorRow}
    (h : a.Anchors row ligature mark onLigature onMark) : a.coversMark mark = true := by
  cases h with
  | intro _ hmark =>
    rw [MarkAttach.coversMark, Coverage.covers, hmark]
    rfl

/-- Where there are anchors, these are the anchors that are found, unless the font is broken. -/
theorem Anchors.eq_some_of_apply (h : a.Anchors (row component) ligature mark onLigature onMark)
    {found : Option (Anchor × Anchor)} (hfound : a.apply ligature mark component = .ok found) :
    found = some (onLigature, onMark) := by
  cases h with
  | intro hligature hmark hrecord hrows hrow hligatureAnchor hmarkAnchor =>
    have hfound : a.anchors (row component) ligature mark = .ok found := hfound
    rw [MarkAttach.anchors_of_index hligature hmark hrecord hrows, hrow, Option.bind_some,
      hligatureAnchor, Option.join_some, Option.bind_some, hmarkAnchor, Option.map_some] at hfound
    split at hfound <;> cases hfound
    rfl

end MarkLigPos

/-! ## §2 The glyph that a mark goes back to -/

namespace PosM

variable {σ : Type} {c : PosContext σ} {s s' t : PosState σ} {index : Nat}

/-- A mark goes back over marks to the first glyph that is not one. -/
theorem markTarget?_of_marks {table : Option Gdef} {items : Array GlyphItem} {target distance : Nat}
    {ligature : GlyphItem} (hligature : items[target]? = some ligature)
    (hproperty : (Gdef.propertyIn table ligature).isMark = false)
    (hmarks : ∀ d, 0 < d → d < distance →
      ∃ mark, items[target + d]? = some mark ∧ (Gdef.propertyIn table mark).isMark = true)
    (hdistance : 0 < distance) :
    markTarget? table items (target + distance) =
      some (target, Gdef.propertyIn table ligature) := by
  -- going back from the mark, all that is met is marks until the ligature
  induction distance with
  | zero => exact absurd hdistance (Nat.lt_irrefl 0)
  | succ distance ih =>
    rw [← Nat.add_assoc, markTarget?]
    rcases Nat.eq_zero_or_pos distance with rfl | hpos
    · rw [Nat.add_zero, hligature]
      dsimp only
      rw [hproperty, if_neg Bool.false_ne_true]
    · obtain ⟨mark, hmark, hisMark⟩ := hmarks distance hpos (Nat.lt_succ_self _)
      rw [hmark]
      dsimp only
      rw [if_pos hisMark]
      exact ih (fun d hd hlt => hmarks d hd (Nat.lt_succ_of_lt hlt)) hpos

/-! ## §3 Attaching a mark -/

/-- The position of a mark that has been attached: the mark is moved by as much as the place on the
    target is away from the place on the mark, it has no advance, and it says how far back the
    target is. -/
structure Attached (c : PosContext σ) (onTarget : Anchor) (target : GlyphId) (onMark : Anchor)
    (mark : GlyphId) (distance : Nat) (position : Position) : Prop where
  moved : ∃ (t t₁ t₂ : PosState σ) (place markPlace : Point),
    Program.outcome (anchorPoint c onTarget target) t = (.ok place, t₁) ∧
    Program.outcome (anchorPoint c onMark mark) t₁ = (.ok markPlace, t₂) ∧
    position = { x := place.x - markPlace.x, y := place.y - markPlace.y, back := position.back }
  back : position.back.toNat = distance

/-- Where both anchors are in design units, the position is known. -/
theorem Attached.eq_of_design {x y x' y' : Int16} {target mark : GlyphId} {distance : Nat}
    {position : Position}
    (h : Attached c (.design x y) target (.design x' y') mark distance position) :
    position =
      { x := scaled x c.params.xScale - scaled x' c.params.xScale
        y := scaled y c.params.yScale - scaled y' c.params.yScale
        back := UInt16.ofNat distance } := by
  obtain ⟨⟨t, t₁, t₂, place, markPlace, hplace, hmarkPlace, hposition⟩, hback⟩ := h
  cases hplace
  cases hmarkPlace
  rw [hposition, ← hback, UInt16.ofNat_toNat]
  rfl

theorem outcome_modifyPosition (index : Nat) (f : Position → Position) (s : PosState σ) :
    Program.outcome (modifyPosition index f) s =
      (.ok (), { s with positions := s.positions.modify index f }) := rfl

theorem attached_of_attach {target : Nat} {onTarget onMark : Anchor} {targetGlyph mark : GlyphId}
    {place markPlace : Point} {t₁ t₂ : PosState σ}
    (hplace : Program.outcome (anchorPoint c onTarget targetGlyph) t = (.ok place, t₁))
    (hmarkPlace : Program.outcome (anchorPoint c onMark mark) t₁ = (.ok markPlace, t₂))
    (hdefault : s.positions[index]? = some {})
    (hrun : Program.outcome (attach index target place markPlace) s = (.ok (), s')) :
    ∃ p, s'.positions[index]? = some p ∧
      Attached c onTarget targetGlyph onMark mark (index - target) p := by
  unfold attach at hrun
  dsimp only at hrun
  rw [Program.outcome_bind_ok (outcome_modifyPosition _ _ s)] at hrun
  obtain ⟨back, t', hfit, hrun⟩ := Program.outcome_bind_eq_ok hrun
  obtain ⟨hback, rfl⟩ := Prod.mk.inj hfit
  rw [outcome_modifyPosition] at hrun
  obtain rfl := congrArg Prod.snd hrun
  refine ⟨{ x := place.x - markPlace.x, y := place.y - markPlace.y, back }, ?_,
    ⟨t, t₁, t₂, place, markPlace, hplace, hmarkPlace, rfl⟩, toNat_of_fit16 hback⟩
  rw [Array.getElem?_modify, if_pos rfl, Array.getElem?_modify, if_pos rfl, hdefault]
  rfl

/-- What a text says about the position of the mark at an index: if the mark goes back to a
    ligature, and there are anchors on both for a component, the mark is attached there. -/
def Placed (c : PosContext σ) (a : MarkLigPos) (text : Array GlyphItem) (index : Nat)
    (position : Position) : Prop :=
  ∀ mark target ligature onLigature onMark, text[index]? = some mark →
    markTarget? c.gdef text index = some (target, .ligature) → text[target]? = some ligature →
    a.Anchors (MarkLigPos.row (MarkLigPos.componentOf mark ligature)) ligature.glyph mark.glyph
      onLigature onMark →
    Attached c onLigature ligature.glyph onMark mark.glyph (index - target) position

theorem admits_true (c : PosContext σ) : Admits c fun _ => True where
  nested := trivial
  badIndex := trivial
  contour _ _ _ _ := trivial
  metric _ _ _ _ := trivial

theorem attached_of_attachAt {target : Nat} {mark : GlyphItem} {targetGlyph : GlyphId}
    {onTarget onMark : Anchor} {anchors : Except ParseError (Option (Anchor × Anchor))}
    (hanchors : ∀ found, anchors = .ok found → found = some (onTarget, onMark))
    {answer : Option Nat}
    (hrun : Program.outcome (attachAt c index target mark targetGlyph anchors) s = (.ok answer, s'))
    (hindex : s.positions[index]? = some {}) :
    ∃ p, s'.positions[index]? = some p ∧
      Attached c onTarget targetGlyph onMark mark.glyph (index - target) p := by
  obtain ⟨found, t, hlift, hrun⟩ := Program.outcome_bind_eq_ok hrun
  obtain ⟨hfound, rfl⟩ := Prod.mk.inj hlift
  rw [hanchors found (LayoutError.ofParse_eq_ok hfound)] at hrun
  obtain ⟨place, t₁, hplace, hrun⟩ := Program.outcome_bind_eq_ok hrun
  obtain ⟨markPlace, t₂, hmarkPlace, hrun⟩ := Program.outcome_bind_eq_ok hrun
  obtain ⟨_, t₃, hattach, hrun⟩ := Program.outcome_bind_eq_ok hrun
  obtain rfl : t₃ = s' := congrArg Prod.snd hrun
  have hadmits := admits_true c
  have hstays := Stays.of_shifts (((keeps_anchorPoint hadmits _ _).of_ok hplace).2.trans
    ((keeps_anchorPoint hadmits _ _).of_ok hmarkPlace).2)
  exact attached_of_attach hplace hmarkPlace (by rw [hstays.positions]; exact hindex) hattach

theorem outcome_findTarget {target : Nat} {item : GlyphItem} {p : GlyphProperty}
    (htarget : markTarget? c.gdef s.glyphs index = some (target, p))
    (hitem : s.glyphs[target]? = some item) :
    Program.outcome (findTarget c index) s = (.ok (some (target, item, p)),
      { s with glyphs := rememberRange c.gdef s.glyphs target index }) := by
  unfold findTarget
  rw [Program.outcome_get_bind, htarget]
  dsimp only [Option.bind_some]
  rw [hitem]
  rfl

theorem componentOf_of_bare {mark mark' ligature ligature' : GlyphItem}
    (hmark : mark'.bare = mark.bare) (hligature : ligature'.bare = ligature.bare) :
    MarkLigPos.componentOf mark' ligature' = MarkLigPos.componentOf mark ligature := by
  have hnumber : mark'.ligature = mark.ligature := (congrArg GlyphItem.ligature hmark :)
  have hcomponent : mark'.component = mark.component := (congrArg GlyphItem.component hmark :)
  have hnumber' : ligature'.ligature = ligature.ligature :=
    (congrArg GlyphItem.ligature hligature :)
  rw [MarkLigPos.componentOf, MarkLigPos.componentOf, hnumber, hcomponent, hnumber']

theorem placed_of_applyMarkLigature {a : MarkLigPos}
    {text : Array GlyphItem} {mark item : GlyphItem}
    (htext : settled c.gdef s.glyphs = settled c.gdef text) (hmark : text[index]? = some mark)
    (hitem : Gdef.remember c.gdef item = Gdef.remember c.gdef mark) {answer : Option Nat}
    (hrun : Program.outcome (applyMarkLigature c #[a] index item) s = (.ok answer, s'))
    (hindex : s.positions[index]? = some {}) {p : Position} (hp : s'.positions[index]? = some p) :
    Placed c a text index p := by
  intro mark' target ligature onLigature onMark hmark' htarget hligature hanchors
  -- the mark and the ligature of the text are those that the run has met
  obtain rfl := Option.some.inj (hmark.symm.trans hmark')
  obtain ⟨ligature', hligature', hsame⟩ := getElem?_of_settled htext.symm hligature
  have hglyph : item.glyph = mark.glyph := Gdef.glyph_of_remember hitem
  have hglyph' : ligature'.glyph = ligature.glyph := Gdef.glyph_of_remember hsame
  have hcomponent := componentOf_of_bare (Gdef.bare_of_remember hitem) (Gdef.bare_of_remember hsame)
  -- the only subtable covers the mark
  have hfind : Array.find? (fun s => s.coversMark item.glyph) #[a] = some a := by
    simp [hglyph, hanchors.coversMark]
  rw [applyMarkLigature, hfind] at hrun
  dsimp only at hrun
  -- going back leads to the same ligature as in the text
  rw [← (TextsAlike.of_settled htext).markTarget?] at htarget
  rw [Program.outcome_bind_ok (outcome_findTarget htarget hligature')] at hrun
  dsimp only at hrun
  rw [if_pos rfl, ← MarkLigPos.componentOf, hcomponent, hglyph, hglyph'] at hrun
  obtain ⟨p', hp', hattached⟩ :=
    attached_of_attachAt (fun _ hfound => hanchors.eq_some_of_apply hfound) hrun hindex
  obtain rfl := Option.some.inj (hp.symm.trans hp')
  exact hglyph ▸ hattached

/-! ## §4 Attaching the marks of a text -/

open PosState (Kept Ready)

variable {a : MarkLigPos} {text : Array GlyphItem} {layout : LayoutTable Positioning}
variable {lookupIndex : Nat}

/-- No position but that of the glyph at an index changes, and a mark there is placed. -/
structure Places (c : PosContext σ) (a : MarkLigPos) (text : Array GlyphItem) (index : Nat)
    (s s' : PosState σ) : Prop where
  kept : Kept c s s'
  chain : s'.chain = s.chain
  others : ∀ i, i ≠ index → s'.positions[i]? = s.positions[i]?
  placed : ∃ p, s'.positions[index]? = some p ∧ Placed c a text index p

/-- One step: each glyph is gone to once, and if it is a mark, it is placed. -/
theorem places_applyLookup {levels : Nat}
    (hlookup : layout.lookup lookupIndex = .ok ⟨.empty, .markLigature #[a]⟩)
    (htext : settled c.gdef s.glyphs = settled c.gdef text) (hs : s.Ready index)
    (hchain : s.chain = none) (hindex : s.positions[index]? = some {}) {answer : Option Nat}
    (hrun : Program.outcome (applyLookup c layout levels lookupIndex index noContext) s =
      (.ok answer, s')) :
    answer.getD (index + 1) = index + 1 ∧ Places c a text index s s' := by
  obtain ⟨invoke, hrun⟩ := applyLookup_eq_ok hlookup hrun
  unfold applySubtables at hrun
  dsimp only at hrun
  rw [if_pos (by decide)] at hrun
  have hadmits := admits_true c
  -- with the empty flag no glyph is skipped, so each is handled for itself
  obtain ⟨hkept, hstep⟩ := (keeps_atGlyph hs fun item p s' _ _ hs' _ =>
    keeps_applyMarkLigature hadmits hs' fun _ _ _ _ _ => trivial).of_ok hrun
  have hbound : EndsBy (index + 1) answer := (answers_atGlyph fun item p t _ _ =>
    answers_applyMarkLigature #[a] item (Nat.le_refl _)).of_ok hrun
  have hnext : answer.getD (index + 1) = index + 1 := by
    cases answer with
    | none => rfl
    | some next => exact Nat.le_antisymm (hbound next rfl) (hstep.spans hs).1
  -- what does not change, the chain, the positions of the other glyphs, and that of the mark
  refine ⟨hnext, hkept, ?_, fun i hi => ?_, ?_⟩
  · exact keepsChain_atGlyph c .empty index
      (fun item _ => keepsChain_applyMarkLigature c #[a] index item) _ _ _ hrun
  · have hspans := (hstep.spans hs).2
    rw [hnext] at hspans
    exact hspans.positions i (by omega) fun exit h => by rw [hchain] at h; cases h
  · obtain ⟨item, hitem⟩ : ∃ item, s.glyphs[index]? = some item :=
      ⟨_, Array.getElem?_eq_getElem hs.inside⟩
    obtain ⟨mark, hmark, hsame⟩ := getElem?_of_settled htext hitem
    -- nothing is skipped, so the lookup has looked at the glyph
    rcases atGlyph_eq_ok hitem hrun with ⟨hcheck, -⟩ | ⟨p, -, hrun⟩
    · rw [Gdef.check_empty] at hcheck
      cases hcheck
    · have htext' : settled c.gdef (rememberRange c.gdef s.glyphs index (index + 1)) =
          settled c.gdef text := (settled_rememberRange _ _ _ _).trans htext
      have hpositioned : index < s'.positions.size := by
        rw [hkept.positioned, hs.positioned]
        exact hs.inside
      have hp := Array.getElem?_eq_getElem hpositioned
      exact ⟨_, hp, placed_of_applyMarkLigature htext' hmark hsame.symm hrun hindex hp⟩

/-- The run: all marks of the rest of the text are placed, and other positions stay. -/
theorem placed_of_pass {levels : Nat} {bits : UInt32}
    (hlookup : layout.lookup lookupIndex = .ok ⟨.empty, .markLigature #[a]⟩)
    (hactive : ∀ x ∈ text, x.isActive bits = true) {rounds : Nat}
    (htext : settled c.gdef s.glyphs = settled c.gdef text) (hrounds : text.size ≤ index + rounds)
    (hpositioned : s.positions.size = s.glyphs.size) (hchain : s.chain = none)
    (hdefault : ∀ i, index ≤ i → i < text.size → s.positions[i]? = some {})
    (hrun : Program.outcome
        (pass (fun index => applyLookup c layout levels lookupIndex index noContext)
          bits rounds index) s =
      (.ok (), s')) :
    (∀ i, i < index → s'.positions[i]? = s.positions[i]?) ∧
      ∀ i, index ≤ i → i < text.size →
        ∃ p, s'.positions[i]? = some p ∧ Placed c a text i p := by
  -- at each round the glyph at the index is placed, and the others are left alone
  induction rounds generalizing s index with
  | zero =>
    obtain rfl : s = s' := congrArg Prod.snd hrun
    exact ⟨fun _ _ => rfl, fun i hi hlt => by omega⟩
  | succ rounds ih =>
    rw [pass, Program.outcome_get_bind] at hrun
    cases hitem : s.glyphs[index]? with
    | none =>
      rw [hitem] at hrun
      obtain rfl : s = s' := congrArg Prod.snd hrun
      have hend := size_of_settled htext ▸ Array.getElem?_eq_none_iff.mp hitem
      -- the end of the text has been reached
      exact ⟨fun _ _ => rfl, fun i hi hlt => by omega⟩
    | some item =>
      obtain ⟨mark, hmark, hsame⟩ := getElem?_of_settled htext hitem
      have hinside : index < s.glyphs.size := (Array.getElem?_eq_some_iff.mp hitem).1
      have hlt : index < text.size := (Array.getElem?_eq_some_iff.mp hmark).1
      -- the glyph is active as it was in the text
      have hactivation : item.isActive bits = true :=
        (Gdef.isActive_of_remember hsame bits).symm.trans
          (hactive mark (Array.mem_of_getElem? hmark))
      rw [hitem] at hrun
      dsimp only at hrun
      rw [if_pos hactivation] at hrun
      obtain ⟨answer, t, hstep, hrun⟩ := Program.outcome_bind_eq_ok hrun
      have hs : s.Ready index := ⟨hinside, hpositioned, fun _ _ h => by rw [hchain] at h; cases h⟩
      obtain ⟨hnext, hplaces⟩ := places_applyLookup hlookup htext hs hchain
        (hdefault index (Nat.le_refl _) hlt) hstep
      rw [hnext] at hrun
      have hpositioned' : t.positions.size = t.glyphs.size := by
        rw [hplaces.kept.positioned, hplaces.kept.size, hpositioned]
      obtain ⟨hbefore, hafter⟩ := ih (hplaces.kept.text.trans htext) (by omega) hpositioned'
        (hplaces.chain.trans hchain)
        (fun i hi hlt => (hplaces.others i (by omega)).trans (hdefault i (by omega) hlt)) hrun
      -- the first glyph is placed here and not touched later, the others are placed later
      refine ⟨fun i hi => (hbefore i (by omega)).trans (hplaces.others i (by omega)),
        fun i hi hlt => ?_⟩
      rcases Nat.eq_or_lt_of_le hi with rfl | hi
      · rw [hbefore index (Nat.lt_succ_self _)]
        exact hplaces.placed
      · exact hafter i hi hlt

/-- If the only active lookup attaches marks to ligatures, all marks of the text are placed. -/
theorem placed_of_position {table : ActiveTable Positioning} {bits : UInt32}
    (htable : table.active = [(lookupIndex, bits)])
    (hlookup : table.layout.lookup lookupIndex = .ok ⟨.empty, .markLigature #[a]⟩)
    {before after : PosOutcome σ} (hactive : ∀ x ∈ before.glyphs, x.isActive bits = true)
    (hposition : table.position c before = (.ok (), after)) :
    ∀ i, i < before.glyphs.size →
      ∃ p, after.positions[i]? = some p ∧ Placed c a before.glyphs i p := by
  intro i hi
  obtain ⟨s, hpass, rfl⟩ := position_eq_ok htable hposition
  have hdefault : ∀ i, 0 ≤ i → i < before.glyphs.size →
      (startOf before).positions[i]? = some {} := fun i _ hi => by simp [startOf, hi]
  obtain ⟨-, hplaced⟩ := placed_of_pass hlookup hactive rfl (Nat.le_of_eq (Nat.zero_add _).symm)
    (by simp [startOf]) rfl hdefault hpass
  exact hplaced i (Nat.zero_le i) hi

/-! ## §5 Marks behind a ligature -/

/-- The mark at an index is attached to the component of a ligature with a row of anchors, if there
    are anchors. -/
def AttachedIn (c : PosContext σ) (a : MarkLigPos) (row : Array AnchorRow → Option AnchorRow)
    (positions : Array Position) (ligature mark : GlyphId) (index distance : Nat) : Prop :=
  ∀ onLigature onMark, a.Anchors row ligature mark onLigature onMark →
    ∃ p, positions[index]? = some p ∧ Attached c onLigature ligature onMark mark distance p

/-- Where all marks are placed, a mark behind a ligature is attached to it, if only marks are in
    between. -/
theorem attachedIn_of_marks {positions : Array Position} {target distance : Nat}
    {ligature mark : GlyphItem}
    (hplaced : ∀ i, i < text.size → ∃ p, positions[i]? = some p ∧ Placed c a text i p)
    (hligature : text[target]? = some ligature)
    (hproperty : Gdef.propertyIn c.gdef ligature = .ligature) (hdistance : 0 < distance)
    (hmarks : ∀ d, 0 < d → d < distance →
      ∃ other, text[target + d]? = some other ∧ (Gdef.propertyIn c.gdef other).isMark = true)
    (hmark : text[target + distance]? = some mark) :
    AttachedIn c a (MarkLigPos.row (MarkLigPos.componentOf mark ligature)) positions ligature.glyph
      mark.glyph (target + distance) distance := by
  intro onLigature onMark hanchors
  -- the ligature is where going back over marks ends
  have hnotMark : (Gdef.propertyIn c.gdef ligature).isMark = false := by
    rw [hproperty]
    decide
  have htarget := markTarget?_of_marks hligature hnotMark hmarks hdistance
  rw [hproperty] at htarget
  obtain ⟨p, hp, hattached⟩ := hplaced _ (Array.getElem?_eq_some_iff.mp hmark).1
  refine ⟨p, hp, ?_⟩
  -- and there the mark has been attached
  have hresult := hattached mark target ligature onLigature onMark hmark htarget hligature hanchors
  rwa [Nat.add_sub_cancel_left] at hresult

end PosM

end OpenTypeLayout
