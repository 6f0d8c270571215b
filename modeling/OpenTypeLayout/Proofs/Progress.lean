import OpenTypeLayout.Proofs.GlyphText
import OpenTypeLayout.Proofs.Rewriting

/-!
# Progress through a text

While a lookup is applied, a buffer goes through its input and adds to its output. What is added
comes from the glyphs that have been gone past.
-/

namespace OpenTypeLayout

namespace GlyphBuffer

/-- The input stays as it is, up to what is known of its glyphs. Some more glyphs of it are done,
    and what is added to the output comes from them. -/
structure Progress (free : GlyphItem → Prop) (b b' : GlyphBuffer) : Prop where
  input : b'.inputText = b.inputText
  written : ∃ done new, b.remainingText = done ++ b'.remainingText ∧
    b'.outputText = b.outputText ++ new ∧ Rewrites free done new

namespace Progress

variable {free : GlyphItem → Prop} {b b' b₁ b₂ b₃ : GlyphBuffer}

theorem of_sameText (h : SameText b b') : Progress free b b' where
  input := h.input
  written := ⟨[], [], by simp [h.remaining], by simp [h.output], .nil⟩

theorem refl (b : GlyphBuffer) : Progress free b b := of_sameText (.refl b)

theorem trans (h₁₂ : Progress free b₁ b₂) (h₂₃ : Progress free b₂ b₃) : Progress free b₁ b₃ where
  input := h₂₃.input.trans h₁₂.input
  written := by
    obtain ⟨done, new, hdone, hnew, hrewrites⟩ := h₁₂.written
    obtain ⟨done', new', hdone', hnew', hrewrites'⟩ := h₂₃.written
    refine ⟨done ++ done', new ++ new', ?_, ?_, hrewrites.append hrewrites'⟩
    · rw [hdone, hdone', List.append_assoc]
    · rw [hnew', hnew, List.append_assoc]

theorem size (h : Progress free b b') : b'.size = b.size := by
  rw [← length_inputText, h.input, length_inputText]

/-- Handing out a ligature number is no progress and no obstacle to it. -/
theorem of_nextLigature {n : UInt16} (h : Progress free { b with nextLigature := n } b') :
    Progress free b b' := ⟨h.input, h.written⟩

/-- What had been written stays. -/
theorem output_prefix (h : Progress free b b') : b.outputText <+: b'.outputText := by
  obtain ⟨-, new, -, hnew, -⟩ := h.written
  exact ⟨new, hnew.symm⟩

theorem position_le (h : Progress free b b') (hb : b.position ≤ b.size) :
    b.position ≤ b'.position := by
  obtain ⟨done, -, hdone, -, -⟩ := h.written
  have hlength := congrArg List.length hdone
  have hsize := h.size
  rw [List.length_append, length_remainingText, length_remainingText] at hlength
  omega

/-- If all of the input gets done, all of the output that is added comes from all that was left of
    the input. -/
theorem rewrites (h : Progress free b b') (hend : b'.position = b'.size) :
    ∃ new, b'.outputText = b.outputText ++ new ∧ Rewrites free b.remainingText new := by
  obtain ⟨done, new, hdone, hnew, hrewrites⟩ := h.written
  have hnil : b'.remainingText = [] := by
    rw [← List.length_eq_zero_iff, length_remainingText, hend, Nat.sub_self]
  rw [hnil, List.append_nil] at hdone
  exact ⟨new, hnew, hdone ▸ hrewrites⟩

end Progress

/-- Progress past at least one glyph. -/
structure Advance (free : GlyphItem → Prop) (b b' : GlyphBuffer) : Prop
    extends Progress free b b' where
  moved : b.position < b'.position

/-! ## Single steps -/

variable {free : GlyphItem → Prop} {b : GlyphBuffer} {item : GlyphItem}

theorem progress_putItem (h : b.current? = some item) : Progress free b (b.putItem item) where
  input := rfl
  written :=
    ⟨[item.bare], [item.bare], remainingText_eq_cons h, outputText_putItem b item,
      .carry (.refl _) .nil⟩

/-- Writing a glyph anew, with its own number, carries it over. -/
theorem progress_putAgain (h : b.current? = some item) (component ligature : UInt16) :
    Progress free b (b.put item 1 #[item.glyph] component ligature) where
  input := rfl
  written :=
    ⟨[item.bare], [replacement item component ligature item.glyph], remainingText_eq_cons h,
      outputText_put b item 1 _ component ligature, .carry ⟨⟨rfl, rfl⟩, rfl⟩ .nil⟩

/-- Free glyphs make place for others. -/
theorem progress_put (h : b.current? = some item) {count : Nat} (hcount : 0 < count)
    (hfree : ∀ x ∈ b.remainingText.take count, free x) (glyphs : Array GlyphId)
    (component ligature : UInt16) :
    Progress free b (b.put item count glyphs component ligature) where
  input := rfl
  written := by
    refine ⟨b.remainingText.take count, _, ?_,
      outputText_put b item count glyphs component ligature, ?_⟩
    · have hrest : (b.put item count glyphs component ligature).remainingText =
          b.remainingText.drop count := by
        rw [remainingText, remainingText, List.drop_drop]
        rfl
      rw [hrest, List.take_append_drop]
    · obtain ⟨n, rfl⟩ := Nat.exists_eq_succ_of_ne_zero (Nat.ne_of_gt hcount)
      rw [remainingText_eq_cons h, List.take_succ_cons] at hfree ⊢
      apply Rewrites.replaceAll hfree
      intro x hx
      obtain ⟨glyph, -, rfl⟩ := List.mem_map.mp hx
      exact ⟨rfl, rfl⟩

/-- A free glyph can be gone past. -/
theorem progress_pass (h : b.current? = some item) (hfree : free item.bare) :
    Progress free b { b with position := b.position + 1 } where
  input := rfl
  written :=
    ⟨[item.bare], [], remainingText_eq_cons h, (List.append_nil _).symm,
      .drop (by simpa using hfree)⟩

end GlyphBuffer

end OpenTypeLayout
