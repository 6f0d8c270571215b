import OpenTypeLayout.GlyphBuffer
import OpenTypeLayout.Matching

/-!
# The text of a glyph buffer

Lookups keep with the glyphs of a text what they have found out about them. This module looks at a
buffer without that: what is read, what is still to be read, and what has been written.

- `GlyphItem.bare` is a glyph without the property that is known of it.
- `GlyphBuffer.inputText`, `remainingText` and `outputText` are the glyphs of a buffer as lists of
  bare glyphs. There is one lemma for each operation on a buffer.
- `GlyphBuffer.SameText` holds of two buffers that differ at most in what is known of their glyphs.
-/

namespace OpenTypeLayout

/-! ## §1 Bare glyphs -/

/-- The glyph without what is known of it. -/
def GlyphItem.bare (item : GlyphItem) : GlyphItem := { item with known := none }

theorem GlyphItem.bare_of_known {item : GlyphItem} (h : item.known = none) : item.bare = item := by
  cases item
  cases h
  rfl

@[simp] theorem Gdef.bare_remember (table : Option Gdef) (item : GlyphItem) :
    (remember table item).bare = item.bare := by
  cases table with
  | none => rfl
  | some g =>
    simp only [remember]
    split <;> rfl

/-- The glyphs of a text in order, without what is known of them. -/
def bareText (items : Array GlyphItem) : List GlyphItem := items.toList.map GlyphItem.bare

@[simp] theorem length_bareText (items : Array GlyphItem) :
    (bareText items).length = items.size := by
  simp [bareText]

@[simp] theorem getElem?_bareText (items : Array GlyphItem) (i : Nat) :
    (bareText items)[i]? = items[i]?.map GlyphItem.bare := by
  simp [bareText]

theorem getElem_bareText {items : Array GlyphItem} {i : Nat} (h : i < (bareText items).length)
    (hi : i < items.size) : (bareText items)[i] = items[i].bare := by
  simp [bareText]

/-- Changing what is known of a glyph leaves the text as it is. -/
theorem bareText_modify {items : Array GlyphItem} {f : GlyphItem → GlyphItem}
    (hf : ∀ item, (f item).bare = item.bare) (i : Nat) :
    bareText (items.modify i f) = bareText items := by
  apply List.ext_getElem?
  intro j
  rw [getElem?_bareText, getElem?_bareText, Array.getElem?_modify]
  split
  · simp [Option.map_map, Function.comp_def, hf]
  · rfl

theorem bareText_rememberFrom (table : Option Gdef) (items : Array GlyphItem) (n i : Nat) :
    bareText (rememberFrom table items n i) = bareText items := by
  induction n generalizing items i with
  | zero => rfl
  | succ n ih =>
    rw [rememberFrom, ih, bareText_modify (Gdef.bare_remember table)]

@[simp] theorem bareText_rememberRange (table : Option Gdef) (items : Array GlyphItem)
    (low high : Nat) : bareText (rememberRange table items low high) = bareText items :=
  bareText_rememberFrom table items (high - low) low

/-- What holds of all glyphs, and goes on to hold of a glyph when its property is kept with it,
    holds of all glyphs when properties are kept with some of them. -/
theorem forall_mem_rememberFrom {P : GlyphItem → Prop} {table : Option Gdef}
    (hP : ∀ item, P item → P (Gdef.remember table item)) {items : Array GlyphItem}
    (h : ∀ item ∈ items, P item) (n i : Nat) : ∀ item ∈ rememberFrom table items n i, P item := by
  induction n generalizing items i with
  | zero => exact h
  | succ n ih =>
    apply ih
    intro item hitem
    obtain ⟨j, hj, rfl⟩ := Array.mem_iff_getElem.mp hitem
    rw [Array.getElem_modify]
    have hold := h _ (Array.getElem_mem (by simpa using hj))
    split
    · exact hP _ hold
    · exact hold

theorem forall_mem_rememberRange {P : GlyphItem → Prop} {table : Option Gdef}
    (hP : ∀ item, P item → P (Gdef.remember table item)) {items : Array GlyphItem}
    (h : ∀ item ∈ items, P item) (low high : Nat) :
    ∀ item ∈ rememberRange table items low high, P item :=
  forall_mem_rememberFrom hP h (high - low) low

/-! ## §2 Buffers -/

namespace GlyphBuffer

/-- The glyphs that are read. -/
def inputText (b : GlyphBuffer) : List GlyphItem := bareText b.input

/-- The glyph at a place of what is read. -/
def glyphAt (b : GlyphBuffer) (place : Fin b.input.size) : GlyphItem := b.input[place]

/-- The glyphs that are still to be read. -/
def remainingText (b : GlyphBuffer) : List GlyphItem := b.inputText.drop b.position

/-- The glyphs that have been written. -/
def outputText (b : GlyphBuffer) : List GlyphItem := bareText b.output

@[simp] theorem length_inputText (b : GlyphBuffer) : b.inputText.length = b.size := by
  simp [inputText, size]

theorem length_remainingText (b : GlyphBuffer) :
    b.remainingText.length = b.size - b.position := by
  simp [remainingText]

/-- Where there is a current glyph, it is the first of those that are still to be read. -/
theorem remainingText_eq_cons {b : GlyphBuffer} {item : GlyphItem} (h : b.current? = some item) :
    b.remainingText = item.bare :: b.inputText.drop (b.position + 1) := by
  have htext : b.inputText[b.position]? = some item.bare := by
    rw [inputText, getElem?_bareText, show b.input[b.position]? = some item from h]
    rfl
  obtain ⟨hlt, hget⟩ := List.getElem?_eq_some_iff.mp htext
  rw [remainingText, List.drop_eq_getElem_cons hlt, hget]

theorem exists_current? {b : GlyphBuffer} (h : b.position < b.size) :
    ∃ item, b.current? = some item :=
  ⟨_, Array.getElem?_eq_getElem h⟩

theorem position_lt_of_current? {b : GlyphBuffer} {item : GlyphItem} (h : b.current? = some item) :
    b.position < b.size :=
  (Array.getElem?_eq_some_iff.mp h).1

theorem current_eq_ok {b : GlyphBuffer} {item : GlyphItem} (h : b.current? = some item) :
    b.current = .ok item := by
  rw [current, h]

theorem replaced_eq_ok {b : GlyphBuffer} {item : GlyphItem} {count : Nat}
    (h : b.current? = some item) (hcount : b.position + count ≤ b.size) :
    b.replaced count = .ok item := by
  have hinside : b.position + count ≤ b.input.size := hcount
  rw [replaced, if_pos hinside, current_eq_ok h]

/-- The same text is read from the same place on, and the same text has been written. What is known
    of the glyphs may differ. -/
structure SameText (b b' : GlyphBuffer) : Prop where
  input : b'.inputText = b.inputText
  position : b'.position = b.position
  output : b'.outputText = b.outputText
  nextLigature : b'.nextLigature = b.nextLigature

theorem SameText.refl (b : GlyphBuffer) : SameText b b := ⟨rfl, rfl, rfl, rfl⟩

theorem SameText.trans {b₁ b₂ b₃ : GlyphBuffer} (h₁₂ : SameText b₁ b₂) (h₂₃ : SameText b₂ b₃) :
    SameText b₁ b₃ where
  input := h₂₃.input.trans h₁₂.input
  position := h₂₃.position.trans h₁₂.position
  output := h₂₃.output.trans h₁₂.output
  nextLigature := h₂₃.nextLigature.trans h₁₂.nextLigature

theorem SameText.size {b b' : GlyphBuffer} (h : SameText b b') : b'.size = b.size := by
  rw [← length_inputText, h.input, length_inputText]

theorem SameText.remaining {b b' : GlyphBuffer} (h : SameText b b') :
    b'.remainingText = b.remainingText := by
  rw [remainingText, remainingText, h.input, h.position]

/-- The current glyphs of buffers with the same text differ at most in what is known of them. -/
theorem SameText.current? {b b' : GlyphBuffer} (h : SameText b b') {item : GlyphItem}
    (hitem : b.current? = some item) :
    ∃ item', b'.current? = some item' ∧ item'.bare = item.bare := by
  have hlt : b'.position < b'.size := by
    rw [h.position, h.size]
    exact position_lt_of_current? hitem
  obtain ⟨item', hitem'⟩ := exists_current? hlt
  have hcons := h.remaining
  rw [remainingText_eq_cons hitem, remainingText_eq_cons hitem'] at hcons
  exact ⟨item', hitem', (List.cons.inj hcons).1⟩

/-! ## §3 Writing -/

/-- Nothing is known of a glyph that has just been written. -/
theorem bare_replacement (item : GlyphItem) (component ligature : UInt16) (glyph : GlyphId) :
    (replacement item component ligature glyph).bare =
      replacement item component ligature glyph := rfl

theorem output_put (b : GlyphBuffer) (item : GlyphItem) (count : Nat) (glyphs : Array GlyphId)
    (component ligature : UInt16) :
    (b.put item count glyphs component ligature).output =
      b.output ++ glyphs.map (replacement item component ligature) := by
  simp [put, Array.foldl_push_eq_append]

theorem outputText_put (b : GlyphBuffer) (item : GlyphItem) (count : Nat) (glyphs : Array GlyphId)
    (component ligature : UInt16) :
    (b.put item count glyphs component ligature).outputText =
      b.outputText ++ glyphs.toList.map (replacement item component ligature) := by
  simp [outputText, output_put, bareText, bare_replacement, Function.comp_def]

theorem outputText_putItem (b : GlyphBuffer) (item : GlyphItem) :
    (b.putItem item).outputText = b.outputText ++ [item.bare] := by
  simp [outputText, putItem, bareText]

end GlyphBuffer

end OpenTypeLayout
