import OpenTypeLayout.Proofs.Positioning.Keeping

/-!
# Spans of a text

Positioning goes through a text, and what it does on the way from one index to another concerns the
glyphs in between: their positions change, and nothing else does, except that a glyph may be joined
to one that has been gone past before. Spans that follow each other make up a longer one.
-/

namespace OpenTypeLayout

/-! ## §1 Positions -/

/-- The position is the same, or its horizontal advance has been replaced. -/
def Position.UpToAdvance (p p' : Position) : Prop :=
  p' = p ∨ ∃ advance, p' = { p with xAdvance := advance, newAdvance := true }

theorem Position.UpToAdvance.trans {p q r : Position} (h : p.UpToAdvance q)
    (h' : q.UpToAdvance r) : p.UpToAdvance r := by
  rcases h' with rfl | ⟨advance, rfl⟩
  · exact h
  · rcases h with rfl | ⟨_, rfl⟩ <;> exact .inr ⟨advance, rfl⟩

namespace PosM

open PosState (Kept Ready)

variable {σ : Type} {c : PosContext σ} {fails : LayoutError → Prop} {s s' t : PosState σ}

/-! ## §2 Spans -/

/-- No position has changed, and the chain goes on as before if it goes on. -/
structure Stays (s s' : PosState σ) : Prop where
  positions : s'.positions = s.positions
  chain : ∀ joined, s'.chain = some joined → s.chain = some joined

/-- The positions from `index` up to, and not including, `next` may have changed. Another position
    may have changed only if its glyph was the last one of the chain, and then a glyph was joined to
    it. The chain ends where it did, or at one of the glyphs that were gone past. -/
structure Spans (index next : Nat) (s s' : PosState σ) : Prop where
  le : index ≤ next
  inside : next ≤ s.glyphs.size
  positions : ∀ i, i < index ∨ next ≤ i → (∀ exit, s.chain ≠ some (i, exit)) →
    s'.positions[i]? = s.positions[i]?
  joined : ∀ last exit, s.chain = some (last, exit) → last < index →
    ∀ p, s.positions[last]? = some p → ∃ p', s'.positions[last]? = some p' ∧ p.UpToAdvance p'
  chain : ∀ last exit, s'.chain = some (last, exit) →
    s.chain = some (last, exit) ∨ index ≤ last ∧ last < next

theorem Stays.refl (s : PosState σ) : Stays s s := ⟨rfl, fun _ => id⟩

theorem Stays.trans (h : Stays s t) (h' : Stays t s') : Stays s s' :=
  ⟨h'.positions.trans h.positions, fun _ hjoined => h.chain _ (h'.chain _ hjoined)⟩

theorem Stays.of_shifts (h : Shifts (fun _ => False) s s') : Stays s s' :=
  ⟨Array.ext_getElem? fun i => h.positions i id, fun _ hjoined => h.chain ▸ hjoined⟩

theorem Stays.ready {index : Nat} (h : Stays s s') (hkept : Kept c s s') (hs : s.Ready index) :
    s'.Ready index where
  inside := hkept.size ▸ hs.inside
  positioned := by rw [h.positions, hkept.size, hs.positioned]
  chained last exit hchain := hs.chained last exit (h.chain _ hchain)

/-- Whatever does not change positions spans any range. -/
theorem Stays.spans {index next : Nat} (h : Stays s s') (hle : index ≤ next)
    (hinside : next ≤ s.glyphs.size) : Spans index next s s' where
  le := hle
  inside := hinside
  positions i _ _ := by rw [h.positions]
  joined last _ _ _ p hp := ⟨p, h.positions ▸ hp, .inl rfl⟩
  chain last exit hchain := .inl (h.chain _ hchain)

/-- Positions inside a span may change once more. -/
theorem Spans.shift {free : Nat → Prop} {index next : Nat} (h : Spans index next s t)
    (h' : Shifts free t s') (hfree : ∀ i, free i → index ≤ i ∧ i < next) :
    Spans index next s s' where
  le := h.le
  inside := h.inside
  positions i hi hchain := by
    refine (h'.positions i fun hf => ?_).trans (h.positions i hi hchain)
    have := hfree i hf
    omega
  joined last exit hchain hlt p hp := by
    obtain ⟨p', hp', hup⟩ := h.joined last exit hchain hlt p hp
    refine ⟨p', (h'.positions last fun hf => ?_).trans hp', hup⟩
    have := (hfree last hf).1
    omega
  chain last exit hchain := h.chain last exit (h'.chain ▸ hchain)

theorem Spans.of_shifts {free : Nat → Prop} {index next : Nat} (h : Shifts free s s')
    (hle : index ≤ next) (hinside : next ≤ s.glyphs.size)
    (hfree : ∀ i, free i → index ≤ i ∧ i < next) : Spans index next s s' :=
  ((Stays.refl s).spans hle hinside).shift h hfree

theorem Spans.ready {index next : Nat} (h : Spans index next s s') (hkept : Kept c s s')
    (hs : s.Ready index) (hnext : next < s.glyphs.size) : s'.Ready next where
  inside := hkept.size ▸ hnext
  positioned := by rw [hkept.positioned, hkept.size, hs.positioned]
  chained last exit hchain := by
    rcases h.chain last exit hchain with hchain | ⟨-, hlt⟩
    · exact Nat.lt_of_lt_of_le (hs.chained last exit hchain) h.le
    · exact hlt

theorem Spans.trans {index mid next : Nat} (h : Spans index mid s t) (hkept : Kept c s t)
    (h' : Spans mid next t s') : Spans index next s s' where
  le := Nat.le_trans h.le h'.le
  inside := hkept.size ▸ h'.inside
  positions i hi hchain := by
    have hle := h.le
    have hle' := h'.le
    refine (h'.positions i (by omega) ?_).trans (h.positions i (by omega) hchain)
    -- the chain of the middle state ends where the first one does, or inside
    intro exit ht
    rcases h.chain i exit ht with hs | hin
    · exact hchain exit hs
    · omega
  joined last exit hchain hlt p hp := by
    obtain ⟨q, hq, hpq⟩ := h.joined last exit hchain hlt p hp
    have hlt' : last < mid := Nat.lt_of_lt_of_le hlt h.le
    by_cases ht : ∃ exit', t.chain = some (last, exit')
    · obtain ⟨exit', ht⟩ := ht
      obtain ⟨r, hr, hqr⟩ := h'.joined last exit' ht hlt' q hq
      exact ⟨r, hr, hpq.trans hqr⟩
    · refine ⟨q, (h'.positions last (.inl hlt') fun exit' ht' => ht ⟨exit', ht'⟩).trans hq, hpq⟩
  chain last exit hchain := by
    have hle := h.le
    have hle' := h'.le
    rcases h'.chain last exit hchain with ht | hin
    · exact (h.chain last exit ht).imp_right fun hin => by omega
    · exact .inr (by omega)

/-- Before a span, something may have been done that changes no position. -/
theorem Spans.of_stays {index next : Nat} (h : Stays s t) (hkept : Kept c s t)
    (h' : Spans index next t s') : Spans index next s s' :=
  have hinside : index ≤ s.glyphs.size := hkept.size ▸ Nat.le_trans h'.le h'.inside
  (h.spans (Nat.le_refl index) hinside).trans hkept h'

/-! ## §3 Steps -/

/-- What a lookup does at an index: if it applies it goes past the glyph there, and otherwise it
    changes no position. -/
inductive Step (index : Nat) (s : PosState σ) : Option Nat → PosState σ → Prop
  | applied {next : Nat} {s' : PosState σ} (hlt : index < next) (hspans : Spans index next s s') :
      Step index s (some next) s'
  | notApplied {s' : PosState σ} (hstays : Stays s s') : Step index s none s'

theorem Step.of_stays {index : Nat} {answer : Option Nat} (h : Stays s t) (hkept : Kept c s t)
    (h' : Step index t answer s') : Step index s answer s' := by
  cases h' with
  | applied hlt hspans => exact .applied hlt (.of_stays h hkept hspans)
  | notApplied hstays => exact .notApplied (h.trans hstays)

/-- Whether or not a lookup applies, what is done up to the next index is a span. -/
theorem Step.spans {index : Nat} {answer : Option Nat} (h : Step index s answer s')
    (hs : s.Ready index) :
    index < answer.getD (index + 1) ∧ Spans index (answer.getD (index + 1)) s s' := by
  cases h with
  | applied hlt hspans => exact ⟨hlt, hspans⟩
  | notApplied hstays => exact ⟨Nat.lt_succ_self _, hstays.spans (Nat.le_succ _) hs.inside⟩

end PosM

end OpenTypeLayout
