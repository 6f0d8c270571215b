import OpenTypeLayout.Proofs.Substitution.Components
import OpenTypeLayout.Proofs.Substitution.Discipline

/-!
# Lookups that form ligatures

Where a ligature is formed, the components make place for it and the glyphs that are skipped between
them are carried over. Where none is found, nothing changes.
-/

namespace OpenTypeLayout

namespace Discipline

open SubstM

variable {σ : Type} {D : Discipline} {s : SubstState σ} {item : GlyphItem} {p : GlyphProperty}

/-! ## §1 Writing a ligature -/

/-- A place of the text whose glyph may be replaced. -/
def FreeAt (D : Discipline) (b : GlyphBuffer) (place : Nat) : Prop :=
  ∃ x, b.inputText[place]? = some x ∧ D.free x

theorem FreeAt.lt_size {b : GlyphBuffer} {place : Nat} (h : D.FreeAt b place) : place < b.size := by
  obtain ⟨x, hx, -⟩ := h
  rw [← b.length_inputText]
  exact (List.getElem?_eq_some_iff.mp hx).1

theorem FreeAt.of_inputText {b b' : GlyphBuffer} {place : Nat} (h : D.FreeAt b place)
    (htext : b'.inputText = b.inputText) : D.FreeAt b' place := by
  unfold FreeAt
  rw [htext]
  exact h

theorem FreeAt.current? {b : GlyphBuffer} (h : D.FreeAt b b.position) :
    ∃ x, b.current? = some x ∧ D.free x.bare := by
  obtain ⟨x, hx, hfree⟩ := h
  rw [GlyphBuffer.inputText, getElem?_bareText, Option.map_eq_some_iff] at hx
  obtain ⟨y, hy, rfl⟩ := hx
  exact ⟨y, hy, hfree⟩

/-- The glyphs that are skipped inside a ligature are carried over. -/
theorem keeps_emitSkipped {component : Nat}
    (hcomponent : component ≤ 0xFFFF ∨ D.failure (.parse .badValue)) (ligature : UInt16)
    {place : Nat} {rounds : Nat} (h : D.Holds s) (hle : s.buffer.position ≤ place)
    (hplace : place < s.buffer.size) (hrounds : place - s.buffer.position ≤ rounds) :
    D.Keeps (emitSkipped component ligature place rounds) s fun _ s' =>
      s.buffer.Progress D.free s'.buffer ∧ s'.buffer.position = place := by
  -- there are as many rounds as glyphs up to the place, and every round writes one of them
  induction rounds generalizing s with
  | zero => exact .pure h ⟨.refl _, by omega⟩
  | succ rounds ih =>
    rw [emitSkipped]
    apply Keeps.get_bind
    dsimp only
    split
    case isFalse => exact .pure h ⟨.refl _, by omega⟩
    case isTrue hlt =>
      obtain ⟨x, hx⟩ := GlyphBuffer.exists_current? (Nat.lt_trans hlt hplace)
      have hok := GlyphBuffer.current_eq_ok hx
      rw [hok]
      apply Keeps.lift_bind h (fun e he => by cases he)
      rintro _ ⟨⟩
      apply Keeps.lift_bind h
      · intro e he
        obtain ⟨rfl, hbig⟩ := fit16_error he
        exact hcomponent.resolve_left (by omega)
      · intro number _
        refine (keeps_emit h hx (by omega) _ number ligature).bind fun _ s' h' hs' => ?_
        subst hs'
        have hprogress : s.buffer.Progress D.free _ :=
          GlyphBuffer.progress_putAgain hx number ligature
        have hposition : (s.buffer.put x 1 #[x.glyph] number ligature).position =
            s.buffer.position + 1 := rfl
        refine (ih h' ?_ hplace ?_).mono fun _ s'' _ hs'' => ⟨hprogress.trans hs''.1, hs''.2⟩
        · simp only [hposition]
          omega
        · simp only [hposition]
          omega

/-- Components after the first are dropped, and what is between them is carried over. -/
theorem keeps_emitComponents (ligature : UInt16) {component : Nat} {places : List Nat}
    (h : D.Holds s) (hascending : places.Pairwise (· < ·))
    (hplaces : ∀ q ∈ places, s.buffer.position ≤ q ∧ D.FreeAt s.buffer q)
    (hcount : component + places.length ≤ 0x10000 ∨ D.failure (.parse .badValue)) :
    D.Keeps (emitComponents ligature component places) s fun _ s' =>
      s.buffer.Progress D.free s'.buffer := by
  -- the glyphs that are skipped are written again, and the component itself may be dropped
  induction places generalizing s component with
  | nil => exact .pure h (.refl _)
  | cons place rest ih =>
    obtain ⟨hle, hfree⟩ := hplaces place List.mem_cons_self
    rw [emitComponents]
    apply Keeps.get_bind
    -- a component number that is too great is a failure that the discipline has to allow
    have hcomponent : component ≤ 0xFFFF ∨ D.failure (.parse .badValue) :=
      hcount.imp_left fun hsum => by simp at hsum; omega
    refine (keeps_emitSkipped hcomponent ligature h hle hfree.lt_size (Nat.le_refl _)).bind
      fun _ s₁ h₁ hs₁ => ?_
    obtain ⟨hskipped, hat⟩ := hs₁
    -- the component is still there, as only what is before it has been read
    obtain ⟨x, hx, hfreex⟩ := (hat ▸ hfree.of_inputText hskipped.input).current?
    have hpassed := GlyphBuffer.progress_pass hx hfreex
    have hlt := GlyphBuffer.position_lt_of_current? hx
    rw [hat] at hpassed hlt
    refine (keeps_moveTo h₁ hlt).bind fun _ s₂ h₂ hs₂ => ?_
    have hprogress : s.buffer.Progress D.free s₂.buffer := hskipped.trans (hs₂ ▸ hpassed)
    obtain ⟨hfirst, hrest⟩ := List.pairwise_cons.mp hascending
    -- what has happened so far and what happens to the rest are put together
    refine (ih h₂ hrest ?_ ?_).mono fun _ s₃ _ hs₃ => hprogress.trans hs₃
    · intro q hq
      refine ⟨?_, (hplaces q (List.mem_cons_of_mem place hq)).2.of_inputText hprogress.input⟩
      rw [hs₂]
      exact hfirst q hq
    · exact hcount.imp_left fun hsum => by simp at hsum; omega

/-- Components that follow each other directly make place for a ligature all at once. -/
theorem keeps_emitContiguous (h : D.Holds s) {places : List Nat}
    (hascending : places.Pairwise (· < ·)) (hhead : places.head? = some s.buffer.position)
    (hplaces : ∀ q ∈ places, D.FreeAt s.buffer q)
    (hlast : places.getLast? = some (s.buffer.position + places.length - 1)) (glyph : GlyphId)
    (ligature : UInt16) :
    D.Keeps (emit places.length #[glyph] inherit ligature) s fun _ s' =>
      s.buffer.Advance D.free s'.buffer := by
  have hfirst := hplaces _ (List.mem_of_head? hhead)
  have hend := (hplaces _ (List.mem_of_getLast? hlast)).lt_size
  have hpos : 0 < places.length := List.length_pos_of_mem (List.mem_of_head? hhead)
  obtain ⟨x, hx, -⟩ := hfirst.current?
  refine (keeps_emit h hx (by omega) #[glyph] inherit ligature).mono fun _ s' _ hs' => ?_
  subst hs'
  refine ⟨GlyphBuffer.progress_put hx hpos ?_ #[glyph] inherit ligature,
    Nat.lt_add_of_pos_right hpos⟩
  intro y hy
  obtain ⟨i, hi, rfl⟩ := List.mem_iff_getElem.mp hy
  have hilt : i < places.length := by
    rw [List.length_take] at hi
    omega
  -- every place up to the last is the place of a component
  obtain ⟨z, hz, hfree⟩ := hplaces _ (List.getElem_mem hilt)
  rw [getElem_of_contiguous hascending hhead hlast hilt] at hz
  have hyz : s.buffer.remainingText[i]? = some z := by
    rw [GlyphBuffer.remainingText, List.getElem?_drop]
    exact hz
  rw [List.getElem_take]
  rw [List.getElem?_eq_some_iff] at hyz
  obtain ⟨_, rfl⟩ := hyz
  exact hfree

/-- Components with glyphs between them make place for a ligature one by one. -/
theorem keeps_emitScattered (h : D.Holds s) {tail : List Nat}
    (hascending : (s.buffer.position :: tail).Pairwise (· < ·))
    (hplaces : ∀ q ∈ s.buffer.position :: tail, D.FreeAt s.buffer q)
    (hcount : tail.length < 0xFFFF ∨ D.failure (.parse .badValue)) (glyph : GlyphId)
    (ligature : UInt16) :
    D.Keeps (do emit 1 #[glyph] inherit ligature; emitComponents ligature 0 tail) s fun _ s' =>
      s.buffer.Advance D.free s'.buffer := by
  obtain ⟨hfirst, hrest⟩ := List.pairwise_cons.mp hascending
  -- the current glyph is the first place, which is free
  obtain ⟨x, hx, hfree⟩ := (hplaces _ List.mem_cons_self).current?
  have hlt := GlyphBuffer.position_lt_of_current? hx
  -- one glyph is read, and the ligature is written for it
  have hfreeAll : ∀ y ∈ s.buffer.remainingText.take 1, D.free y := by
    rw [GlyphBuffer.remainingText_eq_cons hx]
    simpa using hfree
  have hprogress := GlyphBuffer.progress_put hx Nat.one_pos hfreeAll #[glyph] inherit ligature
  refine (keeps_emit h hx hlt #[glyph] inherit ligature).bind fun _ s₁ h₁ hs₁ => ?_
  subst hs₁
  -- the other places are free as before, and all of them are still ahead
  have htail : ∀ q ∈ tail, s.buffer.position + 1 ≤ q ∧
      D.FreeAt (s.buffer.put x 1 #[glyph] inherit ligature) q := fun q hq =>
    ⟨hfirst q hq, (hplaces q (List.mem_cons_of_mem _ hq)).of_inputText hprogress.input⟩
  have hsum : 0 + tail.length ≤ 0x10000 ∨ D.failure (.parse .badValue) :=
    hcount.imp_left fun hlt => by omega
  -- something has been read, so there has been an advance
  refine (keeps_emitComponents ligature h₁ hrest htail hsum).mono fun _ s₂ _ hs₂ => ?_
  exact ⟨hprogress.trans hs₂, Nat.lt_of_succ_le (hs₂.position_le h₁.inside)⟩

theorem keeps_emitLigature (h : D.Holds s) (glyph : GlyphId) {places : List Nat}
    (hascending : places.Pairwise (· < ·)) (hhead : places.head? = some s.buffer.position)
    (hplaces : ∀ q ∈ places, D.FreeAt s.buffer q)
    (hcount : places.length ≤ 0xFFFF ∨ D.failure (.parse .badValue)) :
    D.Keeps (emitLigature glyph places) s fun _ s' => s.buffer.Advance D.free s'.buffer := by
  have hplaces₁ : ∀ q ∈ places, D.FreeAt
      { s.buffer with nextLigature := s.buffer.nextLigature + 1 } q :=
    fun q hq => (hplaces q hq).of_inputText rfl
  unfold emitLigature
  apply Keeps.get_bind
  dsimp only
  split
  -- components in a row are written at once, others one by one
  case isTrue hlast =>
    -- a ligature number is taken only where there is none to keep
    split
    case isTrue => exact keeps_emitContiguous h hascending hhead hplaces hlast glyph inherit
    case isFalse =>
      refine (keeps_allocateLigature h).bind fun ligature s₁ h₁ hs₁ => ?_
      subst hs₁
      exact (keeps_emitContiguous h₁ hascending hhead hplaces₁ hlast glyph ligature).mono
        fun _ s' _ hs' => ⟨hs'.toProgress.of_nextLigature, hs'.moved⟩
  case isFalse =>
    obtain ⟨tail, rfl⟩ := List.head?_eq_some_iff.mp hhead
    refine (keeps_allocateLigature h).bind fun ligature s₁ h₁ hs₁ => ?_
    subst hs₁
    exact (keeps_emitScattered h₁ hascending hplaces₁ hcount glyph ligature).mono
      fun _ s' _ hs' => ⟨hs'.toProgress.of_nextLigature, hs'.moved⟩

/-! ## §2 Finding a ligature -/

/-- The places of the components that are found for the current glyph hold glyphs that may be
    replaced. -/
theorem freeAt_of_found (h : D.Holds s) (hcurrent : D.Current s item p) {flag : LookupFlag}
    (hflag : D.flag flag) {places : List Nat}
    (hfound : GlyphFilter.Found ⟨s.gdef, flag⟩ s.buffer.input s.buffer.position places) {q : Nat}
    (hq : q ∈ places) : D.FreeAt s.buffer q := by
  obtain ⟨tail, rfl⟩ := List.head?_eq_some_iff.mp hfound.head
  rcases List.mem_cons.mp hq with rfl | hq
  · obtain ⟨x, hx, hbare⟩ := hcurrent.current
    refine ⟨x.bare, ?_, hbare ▸ hcurrent.free⟩
    rw [GlyphBuffer.inputText, getElem?_bareText, show s.buffer.input[_]? = some x from hx]
    rfl
  · obtain ⟨x, hx, hadmits⟩ := hfound.admitted q hq
    refine ⟨x.bare, ?_, D.free_of_admits h.table hflag ?_ hadmits⟩
    · rw [GlyphBuffer.inputText, getElem?_bareText, hx]
      rfl
    · exact h.input x (Array.mem_of_getElem? hx)

theorem keeps_applyLigature {flag : LookupFlag} (hflag : D.flag flag) (contextLength : UInt16)
    {subtables : List LigatureSubst}
    (hcounts : (∀ m ∈ subtables, ∀ ligatures ∈ m.entries, ∀ l ∈ ligatures, l.count ≤ 0xFFFF) ∨
      D.failure (.parse .badValue))
    (h : D.Holds s) (hcurrent : D.Current s item p) :
    D.Keeps (applyLigature flag contextLength item p subtables) s (D.Step s) := by
  -- nothing that has been looked at has moved, so the next subtable begins where this one has
  induction subtables generalizing s with
  | nil => exact .pure h (.notApplied (.refl s))
  | cons subtable rest ih =>
    have hcounts' := hcounts.imp_left fun hall m hm => hall m (List.mem_cons_of_mem subtable hm)
    rw [applyLigature]
    apply Keeps.lift_bind h fun e he => D.failure_of_ofParse (fun _ => CoverageMap.find_error) he
    intro ligatures hligatures
    cases ligatures with
    | none => exact ih hcounts' h hcurrent
    | some ligatures =>
      apply Keeps.get_bind
      dsimp only
      cases hsearch : firstLigature ⟨s.gdef, flag⟩ contextLength s.buffer.input s.buffer.position
        p.isMark ligatures.toList (s.buffer.position + 1) with
      | mk found bound =>
        dsimp only
        refine (keeps_rememberInput h _ _).bind fun _ s₁ h₁ hunmoved => ?_
        -- no ligature matches in this subtable
        cases found with
        | none =>
          exact (ih hcounts' h₁ (hcurrent.of_unmoved hunmoved)).mono
            fun applied s' _ hstep => hstep.of_unmoved hunmoved
        | some found =>
          obtain ⟨glyph, m⟩ := found
          -- one matches, and what is known of the match is what is needed to write it
          obtain ⟨hfound, l, hl, hlength⟩ := firstLigature_eq_some hsearch
          have hentry := CoverageMap.mem_of_find (LayoutError.ofParse_eq_ok hligatures)
          have hcount : m.places.length ≤ 0xFFFF ∨ D.failure (.parse .badValue) :=
            hcounts.imp_left fun hall =>
              hlength ▸ hall subtable List.mem_cons_self _ hentry l (Array.mem_toList_iff.mp hl)
          -- a class that cannot be recorded would be a failure, but both classes can
          have hclass : (if m.allMarks then GlyphProperty.mark else .ligature).basic.classNumber? =
              none → D.failure .invalidArgument := by
            split <;> (intro hnone; cases hnone)
          refine (keeps_recordClass h₁ glyph hclass).bind fun _ s₂ h₂ hbuffer => ?_
          have hsame : s.buffer.SameText s₂.buffer := hbuffer ▸ hunmoved.text
          -- the places of the match are free, as no glyph there is skipped
          have hplaces : ∀ q ∈ m.places, D.FreeAt s₂.buffer q := fun q hq =>
            (freeAt_of_found h hcurrent hflag hfound hq).of_inputText hsame.input
          have hhead : m.places.head? = some s₂.buffer.position := hsame.position ▸ hfound.head
          refine (keeps_emitLigature h₂ glyph hfound.ascending hhead hplaces hcount).bind
            fun _ s₃ h₃ hadvance => .pure h₃ (.applied ⟨?_, ?_⟩)
          · exact (GlyphBuffer.Progress.of_sameText hsame).trans hadvance.toProgress
          · exact hsame.position ▸ hadvance.moved

end Discipline

end OpenTypeLayout
