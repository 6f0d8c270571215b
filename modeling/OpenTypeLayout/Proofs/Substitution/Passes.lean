import Mathlib.Data.List.Induction
import OpenTypeLayout.Proofs.Substitution.Context

/-!
# Passes

A lookup is applied to a whole text in one pass. Most lookups go forward, write a new text and make
it the input of the next pass; a reverse lookup changes the input from the last glyph to the first.
Either way a pass that is started at the front ends there, and what it makes of the text is a
rewriting of its glyphs.

- `SubstM.pass` is the pass of one lookup, and `applyActive_cons` splits a run into passes.
- `Discipline.keeps_pass` is about one pass, `Discipline.keeps_applyActive` about all of them.
-/

namespace OpenTypeLayout

/-! ## §1 Programs -/

/-- Nothing of the input is done, and nothing has been written. -/
structure GlyphBuffer.AtStart (b : GlyphBuffer) : Prop where
  position : b.position = 0
  output : b.output = #[]

namespace SubstM

open Program

variable {σ : Type}

/-- Apply one active lookup to the whole text. -/
def pass (chooser : AlternateChooser σ) (table : ActiveTable Substitution) (index : Nat)
    (bits : UInt32) : SubstM σ Unit := applyActive chooser table [(index, bits)]

variable (chooser : AlternateChooser σ) (table : ActiveTable Substitution)

theorem applyActive_cons (index : Nat) (bits : UInt32) (rest : List (Nat × UInt32)) :
    applyActive chooser table ((index, bits) :: rest) =
      pass chooser table index bits >>= fun _ => applyActive chooser table rest := by
  simp only [pass, applyActive, bind_assoc]
  congr 1
  funext lookup
  cases lookup.subtables <;> simp only [bind_assoc, pure_bind]

theorem applyActive_append (earlier later : List (Nat × UInt32)) :
    applyActive chooser table (earlier ++ later) =
      applyActive chooser table earlier >>= fun _ => applyActive chooser table later := by
  induction earlier with
  | nil => simp only [List.nil_append, applyActive, pure_bind]
  | cons first rest ih =>
    obtain ⟨index, bits⟩ := first
    rw [List.cons_append, applyActive_cons, applyActive_cons, ih, bind_assoc]

/-- Substituting makes a pass for each active lookup, unless there is no glyph. -/
theorem substitute_eq_outcome {s : SubstState σ} (h : s.buffer.input.isEmpty = false) :
    table.substitute chooser s = (applyActive chooser table table.active).outcome s := by
  rw [ActiveTable.substitute, h, if_neg Bool.false_ne_true, outcome]

theorem outcome_of_substitute {s s' : SubstState σ}
    (h : table.substitute chooser s = (.ok (), s')) :
    (applyActive chooser table table.active).outcome s = (.ok (), s') := by
  cases hempty : s.buffer.input.isEmpty with
  | true =>
    rw [ActiveTable.substitute, hempty, if_pos rfl] at h
    cases h
  | false => rw [← substitute_eq_outcome chooser table hempty, h]

/-- What the pass of a lookup does once the lookup is known. -/
def passOf (index : Nat) (bits : UInt32) (lookup : Lookup Substitution) : SubstM σ Unit :=
  match lookup.subtables with
  | .reverse subtables => do
    reversePass subtables.toList lookup.flag bits (← get).buffer.size
  | _ => do
    let b := (← get).buffer
    forwardPass (applyLookup chooser table.layout table.nestingLimit index noContext) bits
      (b.size - b.position)
    modifyBuffer GlyphBuffer.swap

theorem pass_eq (index : Nat) (bits : UInt32) :
    pass chooser table index bits = (do
      passOf chooser table index bits (← LayoutError.ofParse (table.layout.lookup index))) := by
  simp only [pass, applyActive]
  congr 1
  funext lookup
  rw [passOf]
  cases lookup.subtables <;> simp only [bind_pure_unit]

end SubstM

/-! ## §2 Forward -/

namespace Discipline

open SubstM

variable {σ : Type} {D : Discipline} {s : SubstState σ}

/-- With a round for every glyph that is left, all of the input gets done. -/
theorem keeps_forwardPass {apply : SubstM σ Bool} (happly : D.Lawful apply) (bits : UInt32)
    {rounds : Nat} (h : D.Holds s) (hrounds : s.buffer.size - s.buffer.position ≤ rounds) :
    D.Keeps (forwardPass apply bits rounds) s fun _ s' =>
      s.buffer.Progress D.free s'.buffer ∧ s'.buffer.position = s'.buffer.size := by
  -- every step goes past a glyph, so the rounds that are left stay enough
  induction rounds generalizing s with
  | zero =>
    have hinside := h.inside
    exact .pure h ⟨.refl _, by omega⟩
  | succ rounds ih =>
    rw [forwardPass_succ]
    apply Keeps.get_bind
    cases hcurrent : s.buffer.current? with
    | none =>
      have hend : s.buffer.size ≤ s.buffer.position := Array.getElem?_eq_none_iff.mp hcurrent
      exact .pure h ⟨.refl _, Nat.le_antisymm h.inside hend⟩
    | some item =>
      refine (keeps_passStep happly bits h hcurrent).bind fun _ s' h' hadvance => ?_
      have hmoved := hadvance.moved
      have hsize := hadvance.size
      refine (ih h' (by omega)).mono fun _ s'' _ hs'' => ⟨?_, hs''.2⟩
      exact hadvance.toProgress.trans hs''.1

theorem keeps_swap (h : D.Holds s) :
    D.Keeps (modifyBuffer GlyphBuffer.swap) s fun _ s' => s'.buffer = s.buffer.swap := by
  refine ⟨⟨h.table, h.output, ?_, Nat.zero_le _⟩, rfl⟩
  exact fun x hx => absurd hx (Array.not_mem_empty x)

/-! ## §3 Backward -/

/-- The text that is read is another one; nothing of it is done, and nothing has been written. -/
structure InPlace (s s' : SubstState σ) : Prop where
  position : s'.buffer.position = s.buffer.position
  output : s'.buffer.outputText = s.buffer.outputText

theorem InPlace.refl (s : SubstState σ) : InPlace s s := ⟨rfl, rfl⟩

theorem InPlace.trans {s₁ s₂ s₃ : SubstState σ} (h₁₂ : InPlace s₁ s₂) (h₂₃ : InPlace s₂ s₃) :
    InPlace s₁ s₃ :=
  ⟨h₂₃.position.trans h₁₂.position, h₂₃.output.trans h₁₂.output⟩

theorem InPlace.of_unmoved {s s' : SubstState σ} (h : Unmoved s s') : InPlace s s' :=
  ⟨h.text.position, h.text.output⟩

theorem inputText_replaceInput {b : GlyphBuffer} {before after : List GlyphItem}
    {item : GlyphItem} (htext : b.inputText = before ++ item :: after) (glyph : GlyphId) :
    (b.replaceInput before.length glyph).inputText = before ++ { item with glyph } :: after := by
  apply List.ext_getElem?
  intro i
  have hget : (before ++ item :: after)[i]? = b.input[i]?.map GlyphItem.bare := by
    rw [← htext, GlyphBuffer.inputText, getElem?_bareText]
  -- what the text says of a glyph holds nothing that is kept with it
  have hknown : item.known = none := by
    have hitem : item ∈ b.inputText := by simp [htext]
    obtain ⟨x, -, rfl⟩ := List.mem_map.mp hitem
    rfl
  rw [GlyphBuffer.inputText, getElem?_bareText, GlyphBuffer.replaceInput, Array.getElem?_modify]
  -- it is compared place by place, and differs at this one only
  by_cases hi : before.length = i
  · subst hi
    rw [List.getElem?_append_right (Nat.le_refl _), Nat.sub_self] at hget ⊢
    simp only [List.getElem?_cons_zero, if_true, Option.map_map] at hget ⊢
    obtain ⟨x, hx, rfl⟩ := Option.map_eq_some_iff.mp hget.symm
    rw [hx]
    rfl
  · rw [if_neg hi, ← hget]
    rcases Nat.lt_or_gt_of_ne hi with hlt | hgt
    · obtain ⟨k, rfl⟩ := Nat.exists_eq_add_of_lt hlt
      simp [List.getElem?_append_right, Nat.add_assoc]
    · rw [List.getElem?_append_left hgt, List.getElem?_append_left hgt]

theorem keeps_replaceInput (h : D.Holds s) (place : Nat) (glyph : GlyphId) :
    D.Keeps (modifyBuffer fun b => b.replaceInput place glyph) s fun _ s' =>
      s'.buffer = s.buffer.replaceInput place glyph := by
  refine ⟨⟨h.table, ?_, h.output, ?_⟩, rfl⟩
  · intro x hx
    obtain ⟨i, hi, rfl⟩ := Array.mem_iff_getElem.mp hx
    simp only [GlyphBuffer.replaceInput, Array.getElem_modify]
    split
    · exact D.item_of_unknown rfl
    · exact h.input _ (Array.getElem_mem _)
  · have hsize : (s.buffer.replaceInput place glyph).size = s.buffer.size := by
      simp [GlyphBuffer.replaceInput, GlyphBuffer.size]
    exact Nat.le_trans h.inside (Nat.le_of_eq hsize.symm)

/-- At one place of the input, the glyph is left as it is or replaced by another. -/
theorem keeps_reverseAt (subtables : List ReverseSubst) {flag : LookupFlag} (hflag : D.flag flag)
    (bits : UInt32) (h : D.Holds s) {before after : List GlyphItem} {item : GlyphItem}
    (htext : s.buffer.inputText = before ++ item :: after) :
    D.Keeps (reverseAt subtables flag bits before.length) s fun _ s' =>
      InPlace s s' ∧ ∃ item', s'.buffer.inputText = before ++ item' :: after ∧
        Rewrites D.free [item] [item'] := by
  -- a glyph that is left alone is carried over
  have hkept : Rewrites D.free [item] [item] := .carry (.refl item) .nil
  have hget : s.buffer.input[before.length]?.map GlyphItem.bare = some item := by
    rw [← getElem?_bareText, ← GlyphBuffer.inputText, htext]
    simp
  obtain ⟨x, hx, rfl⟩ := Option.map_eq_some_iff.mp hget
  have hmem : x ∈ s.buffer.input := Array.mem_of_getElem? hx
  unfold reverseAt
  apply Keeps.get_bind
  simp only [hx]
  -- the glyph is inactive, or skipped, or has no substitute, or is replaced
  split
  case isFalse => exact .pure h ⟨.refl s, x.bare, htext, hkept⟩
  case isTrue =>
    split
    case h_1 =>
      refine (keeps_rememberInput h _ _).mono fun _ s' _ hunmoved => ?_
      exact ⟨.of_unmoved hunmoved, x.bare, hunmoved.text.input.trans htext, hkept⟩
    case h_2 p hcheck =>
      -- only a glyph that is not skipped is replaced, and such a glyph is free
      have hfree : D.free x.bare :=
        D.free_of_admits h.table hflag (h.input x hmem) (Gdef.admits_of_check hcheck)
      refine (keeps_rememberInput h _ _).bind fun _ s₁ h₁ hunmoved => ?_
      have htext₁ := hunmoved.text.input.trans htext
      split
      case h_1 => exact .pure h₁ ⟨.of_unmoved hunmoved, x.bare, htext₁, hkept⟩
      case h_2 glyph _ =>
        refine (keeps_replaceInput h₁ before.length glyph).bind fun _ s₂ h₂ hs₂ => ?_
        have hclass := D.failure_unclassified h.table (h.input x hmem) hcheck
        refine (keeps_recordClass h₂ glyph hclass).mono fun _ s₃ _ hs₃ => ?_
        have hbuffer := hs₃.trans hs₂
        -- nothing but this glyph of the text has changed
        refine ⟨(InPlace.of_unmoved hunmoved).trans ⟨?_, ?_⟩, { x.bare with glyph }, ?_, ?_⟩
        · rw [hbuffer]
          rfl
        · rw [hbuffer]
          rfl
        · rw [hbuffer]
          exact inputText_replaceInput htext₁ glyph
        -- the new glyph comes from the old one
        · have hnew : ∀ y ∈ [{ x.bare with glyph }], GlyphItem.SameOrigin y x.bare := by
            simpa using ⟨rfl, rfl⟩
          exact .replace hfree hnew .nil

/-- Going backward over a part of the input rewrites that part. -/
theorem keeps_reversePass (subtables : List ReverseSubst) {flag : LookupFlag} (hflag : D.flag flag)
    (bits : UInt32) (h : D.Holds s) {before after : List GlyphItem}
    (htext : s.buffer.inputText = before ++ after) :
    D.Keeps (reversePass subtables flag bits before.length) s fun _ s' =>
      InPlace s s' ∧ ∃ new, s'.buffer.inputText = new ++ after ∧ Rewrites D.free before new := by
  induction before using List.reverseRecOn generalizing s after with
  | nil => exact .pure h ⟨.refl s, [], htext, .nil⟩
  | append_singleton before item ih =>
    rw [List.append_assoc, List.singleton_append] at htext
    rw [List.length_append, List.length_singleton, reversePass]
    -- the last glyph is the first to be looked at, and what precedes it stays as it is
    refine (keeps_reverseAt subtables hflag bits h htext).bind fun _ s₁ h₁ hs₁ => ?_
    obtain ⟨hplace₁, item', htext₁, hitem⟩ := hs₁
    refine (ih h₁ htext₁).mono fun _ s₂ _ hs₂ => ?_
    obtain ⟨hplace₂, new, htext₂, hnew⟩ := hs₂
    refine ⟨hplace₁.trans hplace₂, new ++ [item'], ?_, hnew.append hitem⟩
    rw [htext₂, List.append_assoc, List.singleton_append]

/-! ## §4 All passes -/

/-- A pass that is started at the front ends at the front, and rewrites the text. -/
def Rewritten (D : Discipline) (s s' : SubstState σ) : Prop :=
  s.buffer.AtStart → s'.buffer.AtStart ∧
    Rewrites D.free s.buffer.inputText s'.buffer.inputText

variable {table : ActiveTable Substitution} {within : Nat → Prop} {chooser : AlternateChooser σ}

theorem keeps_passOf_forward (hallows : D.Allows table.layout within) {index : Nat}
    (hindex : within index) (bits : UInt32) (h : D.Holds s) :
    D.Keeps (do
      let b := (← get).buffer
      forwardPass (applyLookup chooser table.layout table.nestingLimit index noContext) bits
        (b.size - b.position)
      modifyBuffer GlyphBuffer.swap) s fun _ s' => D.Rewritten s s' := by
  apply Keeps.get_bind
  dsimp only
  have hlawful : D.Lawful (applyLookup chooser table.layout table.nestingLimit index noContext) :=
    lawful_applyLookup hallows table.nestingLimit hindex noContext
  refine (keeps_forwardPass hlawful bits h (Nat.le_refl _)).bind fun _ s₁ h₁ hs₁ => ?_
  obtain ⟨hprogress, hend⟩ := hs₁
  refine (keeps_swap h₁).mono fun _ s₂ _ hs₂ hstart => ⟨⟨?_, ?_⟩, ?_⟩
  · rw [hs₂, GlyphBuffer.swap]
  · rw [hs₂, GlyphBuffer.swap]
  · -- what has been written comes from all of the input, and becomes the input
    obtain ⟨new, hnew, hrewrites⟩ := hprogress.rewrites hend
    have hall : s.buffer.remainingText = s.buffer.inputText := by
      rw [GlyphBuffer.remainingText, hstart.position, List.drop_zero]
    have hnone : s.buffer.outputText = [] := by
      rw [GlyphBuffer.outputText, hstart.output, bareText]
      rfl
    have htext : s₂.buffer.inputText = new := by
      rw [hs₂, show s₁.buffer.swap.inputText = s₁.buffer.outputText from rfl, hnew, hnone,
        List.nil_append]
    rw [htext, ← hall]
    exact hrewrites

theorem keeps_pass (hallows : D.Allows table.layout within) {index : Nat} (hindex : within index)
    (bits : UInt32) (h : D.Holds s) :
    D.Keeps (pass chooser table index bits) s fun _ s' => D.Rewritten s s' := by
  rw [pass_eq]
  apply Keeps.lift_bind h fun e he => D.failure_of_ofParse (fun _ => LayoutTable.lookup_error) he
  intro lookup hok
  have hlookup := LayoutError.ofParse_eq_ok hok
  unfold passOf
  -- the reverse type goes through the text in place, and the others write a new one
  split
  case h_1 subtables _ =>
    apply Keeps.get_bind
    have htext : s.buffer.inputText = s.buffer.inputText ++ [] := by rw [List.append_nil]
    rw [← GlyphBuffer.length_inputText]
    refine (keeps_reversePass subtables.toList (hallows.flag hindex hlookup) bits h htext).mono
      fun _ s' _ hs' hstart => ?_
    obtain ⟨hplace, new, hnew, hrewrites⟩ := hs'
    -- nothing has been written, so the text stands at its start as before
    refine ⟨⟨hplace.position.trans hstart.position, ?_⟩, ?_⟩
    · apply Array.eq_empty_of_size_eq_zero
      rw [← length_bareText, ← GlyphBuffer.outputText, hplace.output, GlyphBuffer.outputText,
        length_bareText, hstart.output, Array.size_empty]
    · rw [hnew, List.append_nil]
      exact hrewrites
  case h_2 => exact keeps_passOf_forward hallows hindex bits h

/-- All passes together rewrite the text step by step. -/
theorem keeps_applyActive (chooser : AlternateChooser σ) {active : List (Nat × UInt32)}
    (hallows : D.Allows table.layout within) (hactive : ∀ a ∈ active, within a.1) (h : D.Holds s) :
    D.Keeps (applyActive chooser table active) s fun _ s' =>
      s.buffer.AtStart → s'.buffer.AtStart ∧
        Relation.ReflTransGen (Rewrites D.free) s.buffer.inputText s'.buffer.inputText := by
  induction active generalizing s with
  | nil => exact .pure h fun hstart => ⟨hstart, .refl⟩
  | cons first rest ih =>
    obtain ⟨index, bits⟩ := first
    rw [applyActive_cons]
    refine (keeps_pass hallows (hactive _ List.mem_cons_self) bits h).bind fun _ s₁ h₁ hs₁ => ?_
    have hrest := ih (fun a ha => hactive a (List.mem_cons_of_mem _ ha)) h₁
    refine hrest.mono fun _ s₂ _ hs₂ hstart => ?_
    obtain ⟨hstart₁, hrewrites₁⟩ := hs₁ hstart
    obtain ⟨hstart₂, hrewrites₂⟩ := hs₂ hstart₁
    exact ⟨hstart₂, .head hrewrites₁ hrewrites₂⟩

end Discipline

end OpenTypeLayout
