import Mathlib.Order.Fin.Basic
import OpenTypeLayout.Proofs.Substitution.Contract

/-!
# Where glyphs come from

Every glyph of a substituted text stands for the same part of the text as one of the original glyphs
does, and the order of the parts is kept. One pass does this because it rewrites the text; the maps
of several passes are composed.

- `Descends` follows the glyphs of a text back to those of another.
- `Rewrites.exists_embedding` follows glyphs that are not replaced the other way.
-/

namespace OpenTypeLayout

/-! ## §1 Following glyphs -/

/-- Every glyph of the first text has the origin of some glyph of the second one, and these are in
    the same order. -/
def Descends (after before : List GlyphItem) : Prop :=
  ∃ source : Fin after.length → Fin before.length, Monotone source ∧
    ∀ k : Fin after.length, after[k].SameOrigin before[source k]

namespace Descends

theorem refl (text : List GlyphItem) : Descends text text :=
  ⟨id, monotone_id, fun k => .refl text[k]⟩

theorem trans {text₁ text₂ text₃ : List GlyphItem} (h₁₂ : Descends text₁ text₂)
    (h₂₃ : Descends text₂ text₃) : Descends text₁ text₃ := by
  obtain ⟨source₁₂, hmono₁₂, horigin₁₂⟩ := h₁₂
  obtain ⟨source₂₃, hmono₂₃, horigin₂₃⟩ := h₂₃
  refine ⟨source₂₃ ∘ source₁₂, hmono₂₃.comp hmono₁₂, fun k => ?_⟩
  exact (horigin₁₂ k).trans (horigin₂₃ (source₁₂ k))

theorem of_rewrites {free : GlyphItem → Prop} {before after : List GlyphItem}
    (h : Rewrites free before after) : Descends after before := by
  obtain ⟨source, hmono, hsource⟩ := h.exists_source
  refine ⟨fun k => ⟨source k, (hsource k k.isLt).1⟩, ?_, fun k => (hsource k k.isLt).2⟩
  intro k l hkl
  exact hmono k l hkl l.isLt

/-- Passes are composed. -/
theorem of_passes {free : GlyphItem → Prop} {before after : List GlyphItem}
    (h : Relation.ReflTransGen (Rewrites free) before after) : Descends after before := by
  induction h with
  | refl => exact .refl before
  | tail _ hpass ih => exact (of_rewrites hpass).trans ih

/-- The same of arrays of glyphs, of which nothing needs to be forgotten. -/
theorem exists_source {items items' : Array GlyphItem}
    (h : Descends (bareText items') (bareText items)) :
    ∃ source : Fin items'.size → Fin items.size, Monotone source ∧
      ∀ k : Fin items'.size, items'[k].SameOrigin items[source k] := by
  obtain ⟨source, hmono, horigin⟩ := h
  refine ⟨fun k => (source (k.cast (length_bareText items').symm)).cast (length_bareText items),
    ?_, ?_⟩
  · intro k l hkl
    exact hmono hkl
  · intro k
    let i := source (k.cast (length_bareText items').symm)
    have hi : i.val < items.size := length_bareText items ▸ i.isLt
    have hk := horigin (k.cast (length_bareText items').symm)
    simp only [Fin.getElem_fin, Fin.val_cast] at hk
    rw [getElem_bareText _ k.isLt, getElem_bareText _ hi] at hk
    exact ⟨hk.cluster, hk.activation⟩

end Descends

/-- The glyphs of an array that are not free can be found again after rewriting, in order. -/
theorem Rewrites.exists_embedding {free : GlyphItem → Prop} {items items' : Array GlyphItem}
    (h : Rewrites free (bareText items) (bareText items')) :
    ∃ image : { i : Fin items.size // ¬ free items[i].bare } → Fin items'.size,
      StrictMono image ∧ ∀ i, items'[image i].SameGlyph items[i.val] := by
  obtain ⟨image, hmono, himage⟩ := h.exists_image
  have hlt : ∀ i : Fin items.size, i.val < (bareText items).length :=
    fun i => (length_bareText items).symm ▸ i.isLt
  have hfound : ∀ i : { i : Fin items.size // ¬ free items[i].bare },
      ∃ hm : image i.val < items'.size, items'[image i.val].SameGlyph items[i.val] := by
    rintro ⟨i, hfree⟩
    -- the images speak of bare glyphs, which differ from the items in what is remembered only
    have hi := hlt i
    obtain ⟨hm, hsame⟩ := himage i hi (by rwa [getElem_bareText hi i.isLt])
    have hm' : image i < items'.size := length_bareText items' ▸ hm
    rw [getElem_bareText hm hm', getElem_bareText hi i.isLt] at hsame
    exact ⟨hm', ⟨hsame.cluster, hsame.activation⟩, hsame.glyph⟩
  refine ⟨fun i => ⟨image i.val, (hfound i).1⟩, ?_, fun i => (hfound i).2⟩
  rintro ⟨i, hi⟩ ⟨j, hj⟩ hij
  refine hmono i j (hlt i) (hlt j) hij ?_ ?_
  · rwa [getElem_bareText (hlt i) i.isLt]
  · rwa [getElem_bareText (hlt j) j.isLt]

/-! ## §2 Substituted texts -/

/-- If substituting is started at the front and succeeds, there is a map from the glyphs of the
    result to the glyphs of the original text that keeps the order, and every glyph has the cluster
    and the activation bits of the one that it is mapped to. So clusters that do not decrease still
    do not decrease afterwards. -/
theorem substitute_provenance {σ : Type} (chooser : AlternateChooser σ)
    (table : ActiveTable Substitution) {s s' : SubstState σ} (hstart : s.buffer.AtStart)
    (hrun : table.substitute chooser s = (.ok (), s')) :
    (∃ source : Fin s'.buffer.size → Fin s.buffer.size, Monotone source ∧
      ∀ k, (s'.buffer.glyphAt k).cluster = (s.buffer.glyphAt (source k)).cluster ∧
        (s'.buffer.glyphAt k).activation = (s.buffer.glyphAt (source k)).activation) ∧
    ((∀ i j, i ≤ j → (s.buffer.glyphAt i).cluster ≤ (s.buffer.glyphAt j).cluster) →
      ∀ k l, k ≤ l → (s'.buffer.glyphAt k).cluster ≤ (s'.buffer.glyphAt l).cluster) := by
  -- every pass takes its glyphs from those before it, so the places can be composed
  have hinside : s.buffer.position ≤ s.buffer.size := hstart.position ▸ Nat.zero_le _
  have hkeeps := (Discipline.keeps_applyActive chooser
    (Discipline.unrestricted_allows table.layout) (fun _ _ => trivial)
    (Discipline.unrestricted_holds hinside)).of_ok (SubstM.outcome_of_substitute chooser table hrun)
  obtain ⟨source, hmono, horigin⟩ := (Descends.of_passes (hkeeps.2 hstart).2).exists_source
  refine ⟨⟨source, hmono, fun k => ⟨(horigin k).cluster, (horigin k).activation⟩⟩, ?_⟩
  intro hclusters k l hkl
  have hk : (s'.buffer.glyphAt k).cluster = (s.buffer.glyphAt (source k)).cluster :=
    (horigin k).cluster
  have hl : (s'.buffer.glyphAt l).cluster = (s.buffer.glyphAt (source l)).cluster :=
    (horigin l).cluster
  rw [hk, hl]
  exact hclusters (source k) (source l) (hmono hkl)

open MarkedPair in
/-- The ligature and the mark after it come from the first glyph, although the ligature has been
    made of two. -/
theorem substitute_provenance_markedPair :
    start.buffer.AtStart ∧
      (∃ source : Fin (table.substitute AlternateChooser.first start).2.buffer.size →
          Fin start.buffer.size, Monotone source ∧
        ∀ k, ((table.substitute AlternateChooser.first start).2.buffer.glyphAt k).cluster =
          (start.buffer.glyphAt (source k)).cluster) := by
  have hrun : (table.substitute AlternateChooser.first start).1 = .ok () := by decide +kernel
  obtain ⟨⟨source, hmono, horigin⟩, -⟩ := substitute_provenance AlternateChooser.first table
    (s := start) ⟨rfl, rfl⟩ (Program.outcome_eq_of_answer hrun)
  exact ⟨⟨rfl, rfl⟩, source, hmono, fun k => (horigin k).1⟩

end OpenTypeLayout
