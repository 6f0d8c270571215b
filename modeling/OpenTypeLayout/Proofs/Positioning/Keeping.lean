import OpenTypeLayout.Proofs.Positioning.Parts
import OpenTypeLayout.Proofs.Settled

/-!
# What positioning keeps true

Positioning leaves the text alone and changes positions that are there. `PosM.Keeps` says this of a
program that is run from a state, together with what holds if it answers and how it may fail. That
no position past the end is read or written is said by comparing the run with runs from states that
have more positions: these leave the additional ones alone, and make no other difference.
-/

namespace OpenTypeLayout

/-! ## §1 States -/

theorem modify_append_left {α : Type} {xs ys : Array α} {i : Nat} (hi : i < xs.size) (f : α → α) :
    (xs ++ ys).modify i f = xs.modify i f ++ ys := by
  apply Array.ext_getElem?
  intro j
  rw [Array.getElem?_modify, Array.getElem?_append, Array.getElem?_append, Array.getElem?_modify,
    Array.size_modify]
  by_cases hj : j < xs.size
  · simp [hj]
  · have hne : i ≠ j := by omega
    simp [hj, hne]

/-- Changing an item of an array by something that changes nothing leaves the array as it is. -/
theorem modify_eq_self {α : Type} {xs : Array α} {i : Nat} {f : α → α} (hf : ∀ x, f x = x) :
    xs.modify i f = xs := by
  apply Array.ext_getElem?
  intro j
  rw [Array.getElem?_modify, funext hf, Option.map_id']
  exact ite_self _

namespace PosState

variable {σ : Type}

/-- The glyph at an index can be positioned: it is in the text, every glyph has a position, and the
    chain of joined glyphs ends before it. -/
structure Ready (s : PosState σ) (index : Nat) : Prop where
  inside : index < s.glyphs.size
  positioned : s.positions.size = s.glyphs.size
  chained : ∀ last exit, s.chain = some (last, exit) → last < index

/-- The text is the same, up to properties that are kept, and there are as many positions. -/
structure Kept (c : PosContext σ) (s s' : PosState σ) : Prop where
  text : settled c.gdef s'.glyphs = settled c.gdef s.glyphs
  positioned : s'.positions.size = s.positions.size

/-- The state with more positions behind those of the text. -/
def pad (s : PosState σ) (extra : Array Position) : PosState σ :=
  { s with positions := s.positions ++ extra }

variable {c : PosContext σ} {s s' t : PosState σ}

theorem Kept.refl (c : PosContext σ) (s : PosState σ) : Kept c s s := ⟨rfl, rfl⟩

theorem Kept.trans (h : Kept c s t) (h' : Kept c t s') : Kept c s s' :=
  ⟨h'.text.trans h.text, h'.positioned.trans h.positioned⟩

theorem Kept.size (h : Kept c s s') : s'.glyphs.size = s.glyphs.size := size_of_settled h.text

end PosState

namespace PosM

open PosState (Kept)

variable {σ α β : Type} {c : PosContext σ} {fails : LayoutError → Prop}

/-! ## §2 Programs -/

/-- From a state, a program keeps the text and the number of positions, and only fails in ways that
    may come up. If it answers, something more holds. It makes no use of positions past the end. -/
structure Keeps (c : PosContext σ) (fails : LayoutError → Prop) (x : PosM σ α) (s : PosState σ)
    (answers : α → PosState σ → Prop) : Prop where
  meets :
    Program.Meets x s (fun a s' => Kept c s s' ∧ answers a s') fun e s' => Kept c s s' ∧ fails e
  pads : ∀ extra, Program.outcome x (s.pad extra) =
    ((Program.outcome x s).1, (Program.outcome x s).2.pad extra)

section Programs

variable {x : PosM σ α} {s s' : PosState σ} {answers answers' : α → PosState σ → Prop}
variable {ends : β → PosState σ → Prop}

theorem Keeps.pure {a : α} (ha : answers a s) :
    Keeps c fails (Pure.pure a : PosM σ α) s answers := ⟨⟨.refl c s, ha⟩, fun _ => rfl⟩

theorem Keeps.throw {e : LayoutError} (he : fails e) :
    Keeps c fails (throw e : PosM σ α) s answers := ⟨⟨.refl c s, he⟩, fun _ => rfl⟩

theorem Keeps.mono (hx : Keeps c fails x s answers)
    (himp : ∀ a s', Kept c s s' → answers a s' → answers' a s') : Keeps c fails x s answers' :=
  ⟨hx.meets.mono (fun a s' h => ⟨h.1, himp a s' h.1 h.2⟩) fun _ _ => id, hx.pads⟩

theorem Keeps.bind {f : α → PosM σ β} (hx : Keeps c fails x s answers)
    (hf : ∀ a s', Kept c s s' → answers a s' → Keeps c fails (f a) s' ends) :
    Keeps c fails (x >>= f) s ends where
  meets := by
    refine hx.meets.bind fun a s' h => (hf a s' h.1 h.2).meets.mono ?_ ?_
    · exact fun b s'' h' => ⟨h.1.trans h'.1, h'.2⟩
    · exact fun e s'' h' => ⟨h.1.trans h'.1, h'.2⟩
  pads extra := by
    have hpads := hx.pads extra
    rcases hrun : Program.outcome x s with ⟨e | a, t⟩
    · rw [hrun] at hpads
      rw [Program.outcome_bind_error hpads, Program.outcome_bind_error hrun]
    · rw [hrun] at hpads
      obtain ⟨hkept, ha⟩ := hx.meets.of_ok hrun
      rw [Program.outcome_bind_ok hpads, Program.outcome_bind_ok hrun]
      exact (hf a t hkept ha).pads extra

/-- A program may look at the state first, as long as positions past the end make no difference. -/
theorem Keeps.get_bind {f : PosState σ → PosM σ β} (hf : Keeps c fails (f s) s ends)
    (hpad : ∀ extra, f (s.pad extra) = f s) : Keeps c fails (get >>= f) s ends where
  meets := hf.meets
  pads extra := by
    rw [Program.outcome_get_bind, Program.outcome_get_bind, hpad]
    exact hf.pads extra

theorem Keeps.lift_bind {r : Except LayoutError α} {f : α → PosM σ β}
    (herror : ∀ e, r = .error e → fails e) (hf : ∀ a, r = .ok a → Keeps c fails (f a) s ends) :
    Keeps c fails ((liftM r : PosM σ α) >>= f) s ends := by
  cases r with
  | error e => exact ⟨⟨.refl c s, herror e rfl⟩, fun _ => rfl⟩
  | ok a => exact ⟨(hf a rfl).meets, (hf a rfl).pads⟩

theorem Keeps.of_ok (hx : Keeps c fails x s answers) {a : α}
    (hrun : Program.outcome x s = (.ok a, s')) : Kept c s s' ∧ answers a s' := hx.meets.of_ok hrun

theorem Keeps.of_error (hx : Keeps c fails x s answers) {e : LayoutError}
    (hrun : Program.outcome x s = (.error e, s')) : Kept c s s' ∧ fails e :=
  hx.meets.of_error hrun

end Programs

/-- Failures that may come up wherever lookups are applied: lookups are nested too deeply, an index
    in the font is bad, or outlines or metrics cannot be had. -/
structure Admits (c : PosContext σ) (fails : LayoutError → Prop) : Prop where
  nested : fails .tooManyNestedContexts
  badIndex : fails (.parse .badIndex)
  contour : ∀ kept glyph e, (c.source.contour kept glyph c.params.loadFlags).1 = .error e → fails e
  metric : ∀ kept id e, (c.source.metric kept id).1 = .error e → fails e

theorem Admits.ofParse (hfails : Admits c fails) {r : Except ParseError α} {e : LayoutError}
    (hr : ∀ cause, r = .error cause → cause = .badIndex) (h : LayoutError.ofParse r = .error e) :
    fails e := by
  cases r with
  | ok a => cases h
  | error cause =>
    cases h
    rw [hr cause rfl]
    exact hfails.badIndex

/-! ## §3 Single steps -/

/-- Positions that are not free, and the chain, stay as they are. -/
structure Shifts (free : Nat → Prop) (s s' : PosState σ) : Prop where
  chain : s'.chain = s.chain
  positions : ∀ i, ¬ free i → s'.positions[i]? = s.positions[i]?

section Steps

variable {s s' t : PosState σ} {free : Nat → Prop}

theorem Shifts.refl (free : Nat → Prop) (s : PosState σ) : Shifts free s s := ⟨rfl, fun _ _ => rfl⟩

theorem Shifts.trans (h : Shifts free s t) (h' : Shifts free t s') : Shifts free s s' :=
  ⟨h'.chain.trans h.chain, fun i hi => (h'.positions i hi).trans (h.positions i hi)⟩

theorem Shifts.mono {free' : Nat → Prop} (h : Shifts free s s') (himp : ∀ i, free i → free' i) :
    Shifts free' s s' := ⟨h.chain, fun i hi => h.positions i (mt (himp i) hi)⟩

theorem keeps_remember (low high : Nat) :
    Keeps c fails (remember c low high) s fun _ s' =>
      s' = { s with glyphs := rememberRange c.gdef s.glyphs low high } :=
  ⟨⟨⟨settled_rememberRange c.gdef s.glyphs low high, rfl⟩, rfl⟩, fun _ => rfl⟩

theorem keeps_breakChain :
    Keeps c fails breakChain s fun _ s' => s' = { s with chain := none } :=
  ⟨⟨⟨rfl, rfl⟩, rfl⟩, fun _ => rfl⟩

theorem keeps_continueChain (index : Nat) (exit : Point) :
    Keeps c fails (modify fun s => { s with chain := some (index, exit) } : PosM σ Unit) s
      fun _ s' => s' = { s with chain := some (index, exit) } :=
  ⟨⟨⟨rfl, rfl⟩, rfl⟩, fun _ => rfl⟩

theorem keeps_modifyPosition {index : Nat} (hindex : index < s.positions.size)
    (f : Position → Position) :
    Keeps c fails (modifyPosition index f) s fun _ s' =>
      s' = { s with positions := s.positions.modify index f } := by
  refine ⟨⟨⟨rfl, Array.size_modify⟩, rfl⟩, fun extra => ?_⟩
  unfold modifyPosition
  rw [Program.outcome_modify, Program.outcome_modify]
  simp only [PosState.pad, modify_append_left hindex]

/-- Changing one position changes no other. -/
theorem shifts_modify (s : PosState σ) (index : Nat) (f : Position → Position) :
    Shifts (· = index) s { s with positions := s.positions.modify index f } where
  chain := rfl
  positions i hi := by rw [Array.getElem?_modify, if_neg (Ne.symm hi)]

theorem outcome_metric (c : PosContext σ) (id : UInt16) (s : PosState σ) :
    Program.outcome (metric c id) s =
      ((c.source.metric s.kept id).1, { s with kept := (c.source.metric s.kept id).2 }) := rfl

theorem outcome_contour (c : PosContext σ) (glyph : GlyphId) (s : PosState σ) :
    Program.outcome (contour c glyph) s =
      ((c.source.contour s.kept glyph c.params.loadFlags).1,
        { s with kept := (c.source.contour s.kept glyph c.params.loadFlags).2 }) := rfl

theorem keeps_metric (hfails : Admits c fails) (id : UInt16) :
    Keeps c fails (metric c id) s fun _ s' => Shifts (fun _ => False) s s' := by
  refine ⟨?_, fun extra => rfl⟩
  unfold Program.Meets
  rw [outcome_metric]
  cases hvalue : (c.source.metric s.kept id).1 with
  | error e => exact ⟨⟨rfl, rfl⟩, hfails.metric _ _ e hvalue⟩
  | ok value => exact ⟨⟨rfl, rfl⟩, rfl, fun _ _ => rfl⟩

theorem keeps_contour (hfails : Admits c fails) (glyph : GlyphId) :
    Keeps c fails (contour c glyph) s fun _ s' => Shifts (fun _ => False) s s' := by
  refine ⟨?_, fun extra => rfl⟩
  unfold Program.Meets
  rw [outcome_contour]
  cases hpoints : (c.source.contour s.kept glyph c.params.loadFlags).1 with
  | error e => exact ⟨⟨rfl, rfl⟩, hfails.contour _ _ e hpoints⟩
  | ok points => exact ⟨⟨rfl, rfl⟩, rfl, fun _ _ => rfl⟩

theorem keeps_addMetric (hfails : Admits c fails) {index : Nat} (hindex : index < s.positions.size)
    (id : Option UInt16) (add : Int32 → Position → Position) :
    Keeps c fails (addMetric c index id add) s fun _ s' => Shifts (· = index) s s' := by
  cases id with
  | none => exact .pure (.refl _ s)
  | some id =>
    refine (keeps_metric hfails id).bind fun value s' hkept hs' => ?_
    refine (keeps_modifyPosition (hkept.positioned ▸ hindex) (add value)).mono
      fun _ s'' _ hs'' => ?_
    exact (hs'.mono fun _ => False.elim).trans (hs'' ▸ shifts_modify s' index (add value))

/-- A value record changes the position of one glyph. -/
theorem keeps_adjust (hfails : Admits c fails) (v : ValueRecord) {index : Nat}
    (hindex : index < s.positions.size) :
    Keeps c fails (adjust c v index) s fun _ s' => Shifts (· = index) s s' := by
  refine (keeps_modifyPosition hindex _).bind fun _ s₁ hkept₁ hs₁ => ?_
  have hshifts₁ : Shifts (· = index) s s₁ := hs₁ ▸ shifts_modify s index _
  have hindex₁ := hkept₁.positioned ▸ hindex
  refine (keeps_addMetric hfails hindex₁ _ _).bind fun _ s₂ hkept₂ hs₂ => ?_
  have hindex₂ := hkept₂.positioned ▸ hindex₁
  refine (keeps_addMetric hfails hindex₂ _ _).bind fun _ s₃ hkept₃ hs₃ => ?_
  have hindex₃ := hkept₃.positioned ▸ hindex₂
  refine (keeps_addMetric hfails hindex₃ _ _).bind fun _ s₄ hkept₄ hs₄ => ?_
  have hindex₄ := hkept₄.positioned ▸ hindex₃
  refine (keeps_addMetric hfails hindex₄ _ _).mono fun _ s₅ _ hs₅ => ?_
  exact (((hshifts₁.trans hs₂).trans hs₃).trans hs₄).trans hs₅

theorem adjust_empty (params : PosParams) (p : Position) : params.adjust {} p = p := by
  simp [PosParams.adjust, PosParams.xAmount, PosParams.yAmount, pixels]

/-- A value record without any amount changes nothing. -/
theorem keeps_adjust_empty {index : Nat} (hindex : index < s.positions.size) :
    Keeps c fails (adjust c {} index) s fun _ s' => Shifts (fun _ => False) s s' := by
  refine (keeps_modifyPosition hindex _).bind fun _ s' _ hs' => .pure ?_
  rw [hs', modify_eq_self (adjust_empty c.params)]
  exact .refl _ s

/-- Finding the place of an anchor may ask the source, and changes nothing else. -/
theorem keeps_anchorPoint (hfails : Admits c fails) (a : Anchor) (glyph : GlyphId) :
    Keeps c fails (anchorPoint c a glyph) s fun _ s' => Shifts (fun _ => False) s s' := by
  unfold anchorPoint
  -- only anchors at a point of the outline and at metrics ask for something that can fail
  cases a with
  | design x y => exact .pure (.refl _ s)
  | contour x y point =>
    dsimp only
    split
    case isTrue => exact .pure (.refl _ s)
    case isFalse =>
      refine (keeps_contour hfails glyph).bind fun points s' _ hs' => ?_
      split
      case isTrue => exact .pure hs'
      case isFalse =>
        split
        case h_1 => exact .pure hs'
        case h_2 => exact .throw hfails.badIndex
  | adjusted x y xDevice yDevice =>
    dsimp only
    split <;> exact .pure (.refl _ s)
  | metric x y =>
    refine (keeps_metric hfails x).bind fun _ s₁ _ hs₁ => ?_
    exact (keeps_metric hfails y).bind fun _ s₂ _ hs₂ => .pure (hs₁.trans hs₂)

end Steps

end PosM

end OpenTypeLayout
