import OpenTypeLayout.Proofs.Substitution.Discipline

/-!
# Lookups that replace one glyph

The lookups that replace the current glyph keep every discipline: where they apply they go past that
glyph, and where they do not they change nothing.
-/

namespace OpenTypeLayout

namespace Discipline

open SubstM

variable {σ : Type} {D : Discipline} {s : SubstState σ} {item : GlyphItem} {p : GlyphProperty}

/-! ## §1 The current glyph -/

theorem keeps_current (h : D.Holds s) (hlt : s.buffer.position < s.buffer.size)
    {flag : LookupFlag} (hflag : D.flag flag) :
    D.Keeps (current flag) s fun found s' =>
      Unmoved s s' ∧ ∀ item p, found = some (item, p) → D.Current s item p := by
  obtain ⟨x, hx⟩ := GlyphBuffer.exists_current? hlt
  have hok := GlyphBuffer.current_eq_ok hx
  have hmem : x ∈ s.buffer.input := Array.mem_of_getElem? hx
  unfold current
  apply Keeps.get_bind
  -- the text has not ended, so asking for the glyph cannot fail
  apply Keeps.lift_bind h
  · intro e he
    rw [hok] at he
    cases he
  · intro x' hx'
    rw [hok] at hx'
    cases hx'
    -- remembering classes changes neither the glyph nor what the flag says of it
    refine (keeps_rememberInput h _ _).bind fun _ s' h' hunmoved => .pure h' ⟨hunmoved, ?_⟩
    intro item p hfound
    obtain ⟨p', hcheck, hpair⟩ := Option.map_eq_some_iff.mp hfound
    cases hpair
    have hitem := h.input x hmem
    exact ⟨⟨x, hx, rfl⟩, D.free_of_admits h.table hflag hitem (Gdef.admits_of_check hcheck),
      D.failure_unclassified h.table hitem hcheck⟩

theorem lawful_atCurrent {flag : LookupFlag} (hflag : D.flag flag)
    {action : GlyphItem → GlyphProperty → SubstM σ Bool}
    (haction : ∀ s item p, D.Holds s → D.Current s item p → D.Keeps (action item p) s (D.Step s)) :
    D.Lawful (atCurrent flag action) := by
  intro s h hlt
  refine (keeps_current h hlt hflag).bind fun found s' h' hfound => ?_
  obtain ⟨hunmoved, hcurrent⟩ := hfound
  cases found with
  | none => exact .pure h' (.notApplied hunmoved)
  | some found =>
    obtain ⟨item, p⟩ := found
    have hitem := (hcurrent item p rfl).of_unmoved hunmoved
    exact (haction s' item p h' hitem).mono fun applied s'' _ hstep => hstep.of_unmoved hunmoved

/-! ## §2 One glyph -/

/-- Writing glyphs in the place of the current one, and then recording something about them, goes
    past that glyph. -/
theorem keeps_replaceCurrent (h : D.Holds s) (hcurrent : D.Current s item p)
    (glyphs : Array GlyphId) {records : SubstM σ Unit}
    (hrecords : ∀ s', D.Holds s' → D.Keeps records s' fun _ s'' => s''.buffer = s'.buffer) :
    D.Keeps (do emit 1 glyphs inherit inherit; records; return true) s fun applied s' =>
      applied = true ∧ s.buffer.Advance D.free s'.buffer := by
  obtain ⟨x, hx, hbare⟩ := hcurrent.current
  have hfree : ∀ y ∈ s.buffer.remainingText.take 1, D.free y := by
    rw [GlyphBuffer.remainingText_eq_cons hx, hbare]
    simpa using hcurrent.free
  refine (keeps_emit h hx hcurrent.position_lt glyphs inherit inherit).bind fun _ s' h' hs' => ?_
  refine (hrecords s' h').bind fun _ s'' h'' hs'' => .pure h'' ⟨rfl, ?_⟩
  have hbuffer : s''.buffer = s.buffer.put x 1 glyphs inherit inherit := by rw [hs'', hs']
  rw [hbuffer]
  exact ⟨GlyphBuffer.progress_put hx Nat.one_pos hfree glyphs inherit inherit, Nat.lt_succ_self _⟩

theorem keeps_forM_recordClass (h : D.Holds s) (glyphs : List GlyphId)
    (hp : p.basic.classNumber? = none → D.failure .invalidArgument) :
    D.Keeps (glyphs.forM (recordClass (σ := σ) p)) s fun _ s' => s'.buffer = s.buffer := by
  induction glyphs generalizing s with
  | nil => exact .pure h rfl
  | cons glyph rest ih =>
    refine (keeps_recordClass h glyph hp).bind fun _ s' h' hs' => ?_
    exact (ih h').mono fun _ s'' _ hs'' => hs''.trans hs'

theorem keeps_applySingle (subtables : Array SingleSubst) (h : D.Holds s)
    (hcurrent : D.Current s item p) : D.Keeps (applySingle subtables item p) s (D.Step s) := by
  apply Keeps.lift_bind h
  · intro e he
    apply D.failure_of_ofParse _ he
    intro cause hcause
    obtain ⟨subtable, -, herror⟩ := firstAnswer_error hcause
    exact SingleSubst.apply_error herror
  · intro found _
    cases found with
    | none => exact .pure h (.notApplied (.refl s))
    | some glyph =>
      apply Keeps.step
      exact keeps_replaceCurrent h hcurrent #[glyph] fun s' h' =>
        keeps_recordClass h' glyph hcurrent.classified

/-- Entries of subtables that are looked up fail in one way only. -/
theorem failure_of_find (D : Discipline) {α : Type} {subtables : List (CoverageMap α)}
    {glyph : GlyphId} {e : LayoutError}
    (h : LayoutError.ofParse (firstAnswer (fun s => s.find glyph) subtables) = .error e) :
    D.failure e := by
  apply D.failure_of_ofParse _ h
  intro cause hcause
  obtain ⟨subtable, -, herror⟩ := firstAnswer_error hcause
  exact CoverageMap.find_error herror

theorem keeps_applyMultiple (subtables : Array MultipleSubst) (h : D.Holds s)
    (hcurrent : D.Current s item p) : D.Keeps (applyMultiple subtables item p) s (D.Step s) := by
  apply Keeps.lift_bind h fun e he => D.failure_of_find he
  intro found _
  cases found with
  | none => exact .pure h (.notApplied (.refl s))
  | some glyphs =>
    apply Keeps.step
    refine keeps_replaceCurrent h hcurrent glyphs fun s' h' => keeps_forM_recordClass h' _ ?_
    -- a base always is a class that can be recorded
    split
    · intro hbase
      cases hbase
    · exact hcurrent.classified

theorem keeps_applyAlternate (chooser : AlternateChooser σ) (subtables : Array AlternateSubst)
    (h : D.Holds s) (hcurrent : D.Current s item p) :
    D.Keeps (applyAlternate chooser subtables item p) s (D.Step s) := by
  apply Keeps.lift_bind h fun e he => D.failure_of_find he
  intro found _
  cases found with
  | none => exact .pure h (.notApplied (.refl s))
  | some alternates =>
    apply Keeps.get_bind
    refine Keeps.bind (keeps_keep h _) ?_
    rintro _ _ h' rfl
    split
    case h_1 => exact .throw h' D.failure_badIndex
    case h_2 glyph _ =>
      apply Keeps.step
      exact keeps_replaceCurrent h' (hcurrent.of_buffer rfl) #[glyph] fun s' h' =>
        keeps_recordClass h' glyph hcurrent.classified

end Discipline

end OpenTypeLayout
