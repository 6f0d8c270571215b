import OpenTypeLayout.Proofs.Filtering

/-!
# Matching by direct indexing

Matching looks glyphs up in a text and entries up in a pattern by index, and takes it that each
index is in range. Here this is written out: a look-up answers nothing where the index is out of
range, and then the whole of matching answers nothing.

- `GlyphFilter.directPrev`, `GlyphFilter.directNext` look for glyphs that count,
  `GlyphPattern.directWalk` compares a pattern with those that one of them leads to, and
  `ContextPattern.directMatch` compares a context.
- A place from which a text is matched is in the text, or at its end. From there all of these
  answer, and their answer is that of the scans.
-/

namespace OpenTypeLayout

/-- What a program answers that looks entries up by index: nothing, if an index has been out
    of range. -/
abbrev Direct := Option

/-! ## §1 Definitions -/

namespace GlyphFilter

/-- The nearest glyph before an index that counts. Glyph by glyph is looked up on the way back. -/
def directPrev (f : GlyphFilter) (items : Array GlyphItem) : (index : Nat) → Direct (Option Nat)
  | 0 => some none
  | index + 1 => do
    let item ← items[index]?
    if f.admits item then return some index else directPrev f items index

/-- The nearest glyph after an index that counts. Glyph by glyph is looked up up to the end. -/
def directNext (f : GlyphFilter) (items : Array GlyphItem) (index : Nat) : Direct (Option Nat) :=
  if _ : index + 1 < items.size then do
    let item ← items[index + 1]?
    if f.admits item then return some (index + 1) else directNext f items (index + 1)
  else some none
termination_by items.size - index

end GlyphFilter

namespace GlyphPattern

/-- Whether a glyph is what is asked for at a place, which is looked up in the list of
    the pattern. -/
def directAccepts (p : GlyphPattern) (place : Nat) (glyph : GlyphId) : Direct Bool :=
  match p with
  | .empty => return false
  | .glyphs list => return (← list[place]?) == glyph
  | .classes definition list => return definition.value glyph == (← list[place]?)
  | .coverages list => return (← list[place]?).covers glyph

/-- Compare `left` places of a pattern, the first of them being `place`, with the glyphs that
    `next` leads to from an index. The answer is where the last of them has been found, if all of
    them have been. -/
def directWalk (p : GlyphPattern) (next : Nat → Direct (Option Nat)) (items : Array GlyphItem) :
    (left place index : Nat) → Direct (Option Nat)
  | 0, _, index => some (some index)
  | left + 1, place, index => do
    match ← next index with
    | none => return none
    | some found =>
      let item ← items[found]?
      if ← p.directAccepts place item.glyph then directWalk p next items left (place + 1) found
      else return none

end GlyphPattern

namespace GlyphFilter

variable (f : GlyphFilter) (p : GlyphPattern) (items : Array GlyphItem)

/-- Compare a pattern with the glyphs before an index. -/
def directBack (index : Nat) : Direct (Option Nat) :=
  p.directWalk (f.directPrev items) items p.length 0 index

/-- Compare a pattern with the glyphs after an index. -/
def directFront (index : Nat) : Direct (Option Nat) :=
  p.directWalk (f.directNext items) items p.length 0 index

end GlyphFilter

/-- Whether a context matches the text around a place: first what is before, then the input, then
    what follows the input. -/
def ContextPattern.directMatch (c : ContextPattern) (f : GlyphFilter) (t : TextPlace) :
    Direct Bool := do
  match ← f.directBack c.backtrack t.before t.beforeCount with
  | none => return false
  | some _ =>
    match ← f.directFront c.input t.items t.index with
    | none => return false
    | some last => return (← f.directFront c.lookahead t.items last).isSome

/-- The place is within both texts, or at their ends. -/
structure TextPlace.WithinText (t : TextPlace) : Prop where
  before : t.beforeCount ≤ t.before.size
  after : t.index ≤ t.items.size

/-! ## §2 Looking for glyphs -/

namespace GlyphFilter

variable {f : GlyphFilter} {items : Array GlyphItem}

theorem directPrev_eq {index : Nat} (h : index ≤ items.size) :
    f.directPrev items index = some (f.prev? items index) := by
  induction index with
  | zero => rfl
  | succ index ih =>
    have hitem : items[index]? = some items[index] := Array.getElem?_eq_getElem h
    rw [directPrev, prev?, hitem, Option.any_some]
    simp only [bind, Option.bind_some]
    split
    · rfl
    · exact ih (Nat.le_of_succ_le h)

/-- Unlike looking back, looking ahead stays in range from everywhere: it is the end of the text
    that it compares an index with. -/
theorem directNext_eq (index : Nat) : f.directNext items index = some (f.next? items index) := by
  fun_induction directNext f items index with
  | case1 index hlt ih =>
    have hitem : items[index + 1]? = some items[index + 1] := Array.getElem?_eq_getElem hlt
    obtain ⟨left, hleft⟩ : ∃ left, items.size - (index + 1) = left + 1 :=
      ⟨items.size - (index + 2), by omega⟩
    -- the glyphs that are left are counted on one side, and compared with the end on the other
    rw [next?, hleft, firstFrom, hitem, Option.any_some]
    simp only [bind, Option.bind_some]
    split
    · rfl
    · have hrest : items.size - (index + 1 + 1) = left := by omega
      rw [ih, next?, hrest]
  | case2 index hge =>
    have hleft : items.size - (index + 1) = 0 := by omega
    rw [next?, hleft, firstFrom]

theorem lt_of_prev? {index found : Nat} (h : f.prev? items index = some found) :
    found < items.size := by
  obtain ⟨item, hitem, -⟩ := before_of_prev?_some h
  exact (Array.getElem?_eq_some_iff.mp hitem).1

theorem lt_of_next? {index found : Nat} (h : f.next? items index = some found) :
    found < items.size := by
  obtain ⟨-, item, hitem, -⟩ := next?_eq_some h
  exact (Array.getElem?_eq_some_iff.mp hitem).1

end GlyphFilter

/-! ## §3 Comparing -/

namespace GlyphPattern

variable {p : GlyphPattern}

theorem directAccepts_eq {place : Nat} (h : place < p.length) (glyph : GlyphId) :
    p.directAccepts place glyph = some (p.accepts place glyph) := by
  cases p with
  | empty => rfl
  | glyphs list =>
    have hentry : list[place]? = some list[place] := Array.getElem?_eq_getElem h
    simp [directAccepts, accepts, hentry]
  | classes definition list =>
    have hentry : list[place]? = some list[place] := Array.getElem?_eq_getElem h
    simp [directAccepts, accepts, hentry, BEq.comm]
  | coverages list =>
    have hentry : list[place]? = some list[place] := Array.getElem?_eq_getElem h
    simp [directAccepts, accepts, hentry]

/-- A step of a walk: where the next glyph is and whether it is accepted can be looked up. -/
theorem directWalk_succ {next : Nat → Direct (Option Nat)} {items : Array GlyphItem}
    {left place index : Nat} {found : Option Nat} (hnext : next index = some found)
    (hfound : ∀ i, found = some i → i < items.size) (hplace : place < p.length) :
    p.directWalk next items (left + 1) place index = found.elim (some none) fun i =>
      if p.acceptsAt place items i then p.directWalk next items left (place + 1) i
      else some none := by
  rw [directWalk, hnext]
  cases found with
  | none => rfl
  | some i =>
    obtain ⟨item, hitem⟩ : ∃ item, items[i]? = some item :=
      ⟨_, Array.getElem?_eq_getElem (hfound i rfl)⟩
    rw [Option.elim_some, acceptsAt_of_getElem? hitem]
    simp only [bind, Option.bind_some, hitem, directAccepts_eq hplace]
    rfl

end GlyphPattern

namespace GlyphFilter

variable {f : GlyphFilter} {items : Array GlyphItem} {p : GlyphPattern}

theorem directWalk_directPrev {left place index : Nat} (hplace : place + left ≤ p.length)
    (hindex : index ≤ items.size) :
    p.directWalk (f.directPrev items) items left place index =
      some (f.scanBackFrom p items left place index).last := by
  -- at each step the place is still in the pattern, and the index still in the text
  induction left generalizing place index with
  | zero => rfl
  | succ left ih =>
    rw [GlyphPattern.directWalk_succ (directPrev_eq hindex) (fun _ h => lt_of_prev? h) (by omega),
      scanBackFrom]
    cases hprev : f.prev? items index with
    | none => rfl
    | some found =>
      rw [Option.elim_some]
      dsimp only
      split
      · exact ih (by omega) (Nat.le_of_lt (lt_of_prev? hprev))
      · rfl

theorem directWalk_directNext {left place : Nat} (hplace : place + left ≤ p.length) (index : Nat) :
    p.directWalk (f.directNext items) items left place index =
      some (f.scanFrontFrom p items left place index).last := by
  induction left generalizing place index with
  | zero => rfl
  | succ left ih =>
    rw [GlyphPattern.directWalk_succ (directNext_eq index) (fun _ h => lt_of_next? h) (by omega),
      scanFrontFrom]
    cases f.next? items index with
    | none => rfl
    | some found =>
      rw [Option.elim_some]
      dsimp only
      split
      · exact ih (by omega) found
      · rfl

theorem directBack_eq {index : Nat} (h : index ≤ items.size) :
    f.directBack p items index = some (f.scanBack p items index).last :=
  directWalk_directPrev (Nat.le_of_eq (Nat.zero_add _)) h

theorem directFront_eq (index : Nat) :
    f.directFront p items index = some (f.scanFront p items index).last :=
  directWalk_directNext (Nat.le_of_eq (Nat.zero_add _)) index

end GlyphFilter

/-- From a place within the text, a context is compared without going out of range, and matches if
    it matches by the scans. -/
theorem ContextPattern.directMatch_eq (c : ContextPattern) (f : GlyphFilter) {t : TextPlace}
    (ht : t.WithinText) : c.directMatch f t = some (c.isMatch f t) := by
  rw [directMatch, f.directBack_eq ht.before, isMatch, scan]
  cases (f.scanBack c.backtrack t.before t.beforeCount).last with
  | none => rfl
  | some first =>
    simp only [bind, Option.bind_some, GlyphFilter.directFront_eq, Option.isNone_some,
      Bool.false_eq_true, if_false]
    cases (f.scanFront c.input t.items t.index).last <;> rfl

end OpenTypeLayout
