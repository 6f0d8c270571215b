import OpenTypeLayout.GlyphItem

/-!
# What becomes of the glyphs of a text

Going through a text, a lookup carries some glyphs over as they are and replaces others, each by any
number of glyphs that stand for the same part of the text.

- `Rewrites free before after` says that `after` comes from `before` in this way, where only glyphs
  for which `free` holds are replaced.
- `Rewrites.exists_source` follows the glyphs of the result back to where they come from, in order.
- `Rewrites.exists_image` follows the glyphs that are not free to where they end up, in order.
-/

namespace OpenTypeLayout

/-! ## §1 Origins -/

/-- Two glyphs stand for the same part of the text, and the same lookups are active for them. -/
structure GlyphItem.SameOrigin (x y : GlyphItem) : Prop where
  cluster : x.cluster = y.cluster
  activation : x.activation = y.activation

/-- Two glyphs have the same number and the same origin. -/
structure GlyphItem.SameGlyph (x y : GlyphItem) : Prop extends GlyphItem.SameOrigin x y where
  glyph : x.glyph = y.glyph

theorem GlyphItem.SameOrigin.refl (x : GlyphItem) : x.SameOrigin x := ⟨rfl, rfl⟩

theorem GlyphItem.SameOrigin.trans {x y z : GlyphItem} (hxy : x.SameOrigin y)
    (hyz : y.SameOrigin z) : x.SameOrigin z :=
  ⟨hxy.cluster.trans hyz.cluster, hxy.activation.trans hyz.activation⟩

theorem GlyphItem.SameGlyph.refl (x : GlyphItem) : x.SameGlyph x := ⟨⟨rfl, rfl⟩, rfl⟩

/-! ## §2 Rewriting -/

/-- The second text comes from the first one glyph by glyph. A glyph is carried over, or, if it is
    free, replaced by glyphs of the same origin. -/
inductive Rewrites (free : GlyphItem → Prop) : List GlyphItem → List GlyphItem → Prop
  /-- Nothing comes from nothing. -/
  | nil : Rewrites free [] []
  /-- A glyph keeps its number and its origin. -/
  | carry {item kept : GlyphItem} {rest out : List GlyphItem} (hkept : kept.SameGlyph item)
      (hrest : Rewrites free rest out) : Rewrites free (item :: rest) (kept :: out)
  /-- A free glyph makes place for any number of glyphs. -/
  | replace {item : GlyphItem} {new rest out : List GlyphItem} (hfree : free item)
      (hnew : ∀ x ∈ new, x.SameOrigin item) (hrest : Rewrites free rest out) :
      Rewrites free (item :: rest) (new ++ out)

namespace Rewrites

variable {free : GlyphItem → Prop} {before after : List GlyphItem}

theorem append (h : Rewrites free before after) {before' after' : List GlyphItem}
    (h' : Rewrites free before' after') : Rewrites free (before ++ before') (after ++ after') := by
  induction h with
  | nil => exact h'
  | carry hkept _ ih => exact .carry hkept ih
  | replace hfree hnew _ ih =>
    rw [List.append_assoc]
    exact .replace hfree hnew ih

/-- Free glyphs can be dropped. -/
theorem drop (h : ∀ x ∈ before, free x) : Rewrites free before [] := by
  induction before with
  | nil => exact .nil
  | cons item rest ih =>
    have hrest := ih fun x hx => h x (List.mem_cons_of_mem item hx)
    have hnone : ∀ x ∈ ([] : List GlyphItem), x.SameOrigin item := by simp
    exact replace (h item List.mem_cons_self) hnone hrest

/-- Free glyphs can make place for glyphs that come from the first of them. -/
theorem replaceAll {item : GlyphItem} {rest new : List GlyphItem}
    (h : ∀ x ∈ item :: rest, free x) (hnew : ∀ x ∈ new, x.SameOrigin item) :
    Rewrites free (item :: rest) new := by
  have hrest : Rewrites free rest [] := drop fun x hx => h x (List.mem_cons_of_mem item hx)
  simpa using replace (h item List.mem_cons_self) hnew hrest

/-! ## §3 Following glyphs -/

/-- Every glyph of the result comes from a glyph of the same origin, and later glyphs do not come
    from earlier ones. -/
theorem exists_source (h : Rewrites free before after) :
    ∃ source : Nat → Nat, (∀ k l, k ≤ l → l < after.length → source k ≤ source l) ∧
      ∀ k (hk : k < after.length), ∃ hs : source k < before.length,
        after[k].SameOrigin before[source k] := by
  induction h with
  | nil => exact ⟨id, by simp, by simp⟩
  | @carry item kept rest out hkept _ ih =>
    obtain ⟨source, hmono, hsource⟩ := ih
    -- the first glyph comes from the first one, the others come from behind it
    refine ⟨fun k => if k = 0 then 0 else source (k - 1) + 1, ?_, ?_⟩
    · intro k l hkl hl
      rcases k with _ | k
      · simp
      · have hl' : l - 1 < out.length := by simp at hl; omega
        have := hmono k (l - 1) (by omega) hl'
        simp only [Nat.add_one_ne_zero, if_false, Nat.add_sub_cancel, if_neg (show l ≠ 0 by omega)]
        omega
    · intro k hk
      rcases k with _ | k
      · exact ⟨by simp, hkept.toSameOrigin⟩
      · obtain ⟨hs, horigin⟩ := hsource k (by simpa using hk)
        exact ⟨by simpa using hs, by simpa using horigin⟩
  | @replace item new rest out _ hnew _ ih =>
    obtain ⟨source, hmono, hsource⟩ := ih
    -- all new glyphs come from the one that they replace
    refine ⟨fun k => if k < new.length then 0 else source (k - new.length) + 1, ?_, ?_⟩
    · intro k l hkl hl
      by_cases hk : k < new.length
      · simp [hk]
      · have hl' : l - new.length < out.length := by simp at hl; omega
        have := hmono (k - new.length) (l - new.length) (by omega) hl'
        simp only [if_neg hk, if_neg (show ¬ l < new.length by omega)]
        omega
    · intro k hk
      by_cases hnewk : k < new.length
      · refine ⟨by simp [hnewk], ?_⟩
        simp only [hnewk, if_true, List.getElem_append_left, List.getElem_cons_zero]
        exact hnew _ (List.getElem_mem hnewk)
      · obtain ⟨hs, horigin⟩ := hsource (k - new.length) (by simp at hk; omega)
        refine ⟨by simp [hnewk, hs], ?_⟩
        simp only [hnewk, if_false, List.getElem_cons_succ]
        rw [List.getElem_append_right (by omega)]
        exact horigin

/-- Every glyph that is not free ends up as a glyph of the same number and origin, and later ones
    end up later. -/
theorem exists_image (h : Rewrites free before after) :
    ∃ image : Nat → Nat,
      (∀ i j (hi : i < before.length) (hj : j < before.length), i < j → ¬ free before[i] →
        ¬ free before[j] → image i < image j) ∧
      ∀ i (hi : i < before.length), ¬ free before[i] → ∃ hm : image i < after.length,
        after[image i].SameGlyph before[i] := by
  induction h with
  | nil => exact ⟨id, by simp, by simp⟩
  -- a glyph that is carried over is the first on both sides
  | @carry item kept rest out hkept _ ih =>
    obtain ⟨image, hmono, himage⟩ := ih
    refine ⟨fun i => if i = 0 then 0 else image (i - 1) + 1, ?_, ?_⟩
    · intro i j hi hj hij hfi hfj
      rcases j with _ | j
      · omega
      · rcases i with _ | i
        · simp
        · have := hmono i j (by simpa using hi) (by simpa using hj) (by omega) hfi hfj
          simpa using this
    · intro i hi hfi
      rcases i with _ | i
      · exact ⟨by simp, hkept⟩
      · obtain ⟨hm, hsame⟩ := himage i (by simpa using hi) hfi
        exact ⟨by simpa using hm, by simpa using hsame⟩
  | @replace item new rest out hfree _ _ ih =>
    obtain ⟨image, hmono, himage⟩ := ih
    -- a glyph that is replaced needs no image; the images of the others move behind the new glyphs
    refine ⟨fun i => image (i - 1) + new.length, ?_, ?_⟩
    · intro i j hi hj hij hfi hfj
      rcases i with _ | i
      · exact absurd hfree hfi
      · rcases j with _ | j
        · omega
        · have := hmono i j (by simpa using hi) (by simpa using hj) (by omega) hfi hfj
          simpa using this
    · intro i hi hfi
      rcases i with _ | i
      · exact absurd hfree hfi
      · obtain ⟨hm, hsame⟩ := himage i (by simpa using hi) hfi
        refine ⟨by simp; omega, ?_⟩
        simp only [Nat.add_sub_cancel]
        rw [List.getElem_append_right (by omega)]
        simpa using hsame

end Rewrites

end OpenTypeLayout
