import OpenTypeLayout.Proofs.Positioning.Keeping

/-!
# Which glyphs are joined

A lookup that joins glyphs cuts a text into chains. What follows what in a chain can be said without
going through the text, and so can what the source of outlines and metrics is asked.

- `CursivePass.Follows` says which glyph is joined to which.
- `CursivePass.open?` is the glyph that the next one may be joined to, found in one go.
- `CursivePass.LinksTo` lists the links before a glyph in its chain.
- `PosContext.ask` is one question to the source, and `CursivePass.keptBefore` what comes of all of
  them.
-/

namespace OpenTypeLayout

/-- The pass of a lookup that joins glyphs over a text. -/
structure CursivePass (σ : Type) where
  /-- What stays the same. -/
  context : PosContext σ
  /-- The flag of the lookup. -/
  flag : LookupFlag
  /-- The subtables of the lookup. -/
  subtables : Array CursivePos
  /-- The bits of the glyphs at which the lookup is active. -/
  bits : UInt32
  /-- The text. -/
  before : PosOutcome σ

namespace CursivePass

variable {σ : Type} (t : CursivePass σ)

/-! ## §1 Joins -/

/-- How a glyph joins others. It does not if the lookup is not active at it, skips it, or does not
    cover it, or if it is a mark. -/
def joinsOf (item : GlyphItem) : Option EntryExit :=
  if item.isActive t.bits then
    (Gdef.check t.context.gdef t.flag item).bind fun p =>
      if p.isMark then none
      else (firstAnswer (fun s => s.find item.glyph) t.subtables.toList).toOption.join
  else none

/-- Whether the lookup is active at a glyph and skips it. -/
def skips (item : GlyphItem) : Bool :=
  item.isActive t.bits && !Gdef.admits t.context.gdef t.flag item

/-- Where the glyph at an index joins the one before it. -/
def entryAt? (i : Nat) : Option (GlyphId × Anchor) :=
  t.before.glyphs[i]?.bind fun item =>
    (t.joinsOf item).bind fun joins => joins.entry.map fun a => (item.glyph, a)

/-- Where the glyph after it joins the glyph at an index. -/
def exitAt? (i : Nat) : Option (GlyphId × Anchor) :=
  t.before.glyphs[i]?.bind fun item =>
    (t.joinsOf item).bind fun joins => joins.exit.map fun a => (item.glyph, a)

/-- Whether the lookup is active at the glyph at an index and skips it. -/
def skipsAt (i : Nat) : Bool := t.before.glyphs[i]?.any t.skips

/-- The second glyph is joined to the first one, and all glyphs between them are skipped. -/
structure Follows (p q : Nat) : Prop where
  lt : p < q
  exit : (t.exitAt? p).isSome = true
  entry : (t.entryAt? q).isSome = true
  between : ∀ i < q, p < i → t.skipsAt i = true

instance (p q : Nat) : Decidable (t.Follows p q) :=
  decidable_of_iff (p < q ∧ (t.exitAt? p).isSome = true ∧ (t.entryAt? q).isSome = true ∧
      ∀ i < q, p < i → t.skipsAt i = true)
    ⟨fun ⟨hlt, hexit, hentry, hbetween⟩ => ⟨hlt, hexit, hentry, hbetween⟩,
      fun h => ⟨h.lt, h.exit, h.entry, h.between⟩⟩

/-- The glyph that the glyph at an index may be joined to: the last one that is not skipped, if
    glyphs may join it. -/
def open? : Nat → Option Nat
  | 0 => none
  | i + 1 => if t.skipsAt i then open? i else if (t.exitAt? i).isSome then some i else none

variable {t} {i p p' q q' : Nat}

theorem joinsOf_of_skips {item : GlyphItem} (h : t.skips item = true) : t.joinsOf item = none := by
  rw [skips, Bool.and_eq_true, Bool.not_eq_true', Gdef.admits, Option.isSome_eq_false_iff,
    Option.isNone_iff_eq_none] at h
  rw [joinsOf, if_pos h.1, h.2, Option.bind_none]

/-- A glyph that is skipped joins no other, at neither of its sides. -/
theorem not_skipsAt_of_joins (side : EntryExit → Option Anchor)
    (h : (t.before.glyphs[i]?.bind fun item =>
      (t.joinsOf item).bind fun joins => (side joins).map fun a => (item.glyph, a)).isSome = true) :
    t.skipsAt i = false := by
  obtain ⟨a, ha⟩ := Option.isSome_iff_exists.mp h
  obtain ⟨item, hitem, hside⟩ := Option.bind_eq_some_iff.mp ha
  obtain ⟨joins, hjoins, -⟩ := Option.bind_eq_some_iff.mp hside
  rw [skipsAt, hitem, Option.any_some, Bool.eq_false_iff]
  intro hskips
  rw [joinsOf_of_skips hskips] at hjoins
  cases hjoins

theorem not_skipsAt_of_exit (h : (t.exitAt? i).isSome = true) : t.skipsAt i = false :=
  not_skipsAt_of_joins EntryExit.exit h

theorem not_skipsAt_of_entry (h : (t.entryAt? i).isSome = true) : t.skipsAt i = false :=
  not_skipsAt_of_joins EntryExit.entry h

theorem open?_eq_some_iff :
    t.open? q = some p ↔
      p < q ∧ (t.exitAt? p).isSome = true ∧ ∀ i < q, p < i → t.skipsAt i = true := by
  induction q with
  | zero => exact ⟨(nomatch ·), fun h => absurd h.1 (Nat.not_lt_zero p)⟩
  | succ q ih =>
    rw [open?]
    split
    case isTrue hskips =>
      rw [ih]
      constructor
      · rintro ⟨hlt, hexit, hbetween⟩
        refine ⟨Nat.lt_succ_of_lt hlt, hexit, fun i hi hpi => ?_⟩
        rcases Nat.eq_or_lt_of_le (Nat.le_of_lt_succ hi) with rfl | hi
        · exact hskips
        · exact hbetween i hi hpi
      · rintro ⟨hlt, hexit, hbetween⟩
        -- the glyph before is skipped, so it is not the one
        have hne : p ≠ q := by
          rintro rfl
          rw [not_skipsAt_of_exit hexit] at hskips
          cases hskips
        exact ⟨by omega, hexit, fun i hi => hbetween i (Nat.lt_succ_of_lt hi)⟩
    case isFalse hskips =>
      constructor
      · intro h
        split at h
        case isFalse => cases h
        case isTrue hexit =>
          cases h
          exact ⟨Nat.lt_succ_self _, hexit, fun i hi hqi => by omega⟩
      · rintro ⟨hlt, hexit, hbetween⟩
        -- the glyph before is not skipped, so no other one is possible
        have hle : q ≤ p := Nat.le_of_not_lt fun hlt' =>
          hskips (hbetween q (Nat.lt_succ_self q) hlt')
        obtain rfl : p = q := Nat.le_antisymm (Nat.le_of_lt_succ hlt) hle
        rw [if_pos hexit]

theorem follows_iff : t.Follows p q ↔ t.open? q = some p ∧ (t.entryAt? q).isSome = true := by
  rw [open?_eq_some_iff]
  exact ⟨fun h => ⟨⟨h.lt, h.exit, h.between⟩, h.entry⟩,
    fun ⟨⟨hlt, hexit, hbetween⟩, hentry⟩ => ⟨hlt, hexit, hentry, hbetween⟩⟩

theorem Follows.lt_size (h : t.Follows p q) : q < t.before.glyphs.size := by
  obtain ⟨a, ha⟩ := Option.isSome_iff_exists.mp h.entry
  obtain ⟨item, hitem, -⟩ := Option.bind_eq_some_iff.mp ha
  exact (Array.getElem?_eq_some_iff.mp hitem).1

/-- A glyph is joined to one other glyph at most. -/
theorem Follows.unique_first (h : t.Follows p q) (h' : t.Follows p' q) : p = p' :=
  Option.some.inj ((follows_iff.mp h).1.symm.trans (follows_iff.mp h').1)

/-- One glyph at most is joined to a glyph. -/
theorem Follows.unique_second (h : t.Follows p q) (h' : t.Follows p q') : q = q' := by
  have hle : ∀ {q q'}, t.Follows p q → t.Follows p q' → q' ≤ q := fun {q q'} h h' => by
    refine Nat.le_of_not_lt fun hlt => ?_
    -- the earlier one would be skipped
    have hskips := h'.between q hlt h.lt
    rw [not_skipsAt_of_entry h.entry] at hskips
    cases hskips
  exact Nat.le_antisymm (hle h' h) (hle h h')

/-! ## §2 Chains -/

variable (t) in
/-- The links before a glyph in its chain, the nearest first. -/
inductive LinksTo : List (Nat × Nat) → Nat → Prop
  /-- The glyph is the first one of its chain. -/
  | first {i : Nat} (h : ∀ p, ¬ t.Follows p i) : LinksTo [] i
  /-- The glyph is joined to another one. -/
  | joined {links : List (Nat × Nat)} {p q : Nat} (h : LinksTo links p) (hfollows : t.Follows p q) :
      LinksTo ((p, q) :: links) q

/-- Every glyph is in a chain. -/
theorem exists_linksTo (i : Nat) : ∃ links, t.LinksTo links i := by
  induction i using Nat.strongRecOn with
  | ind i ih =>
    by_cases hfollows : ∃ p, t.Follows p i
    case pos =>
      obtain ⟨p, hp⟩ := hfollows
      obtain ⟨links, hlinks⟩ := ih p hp.lt
      exact ⟨_, .joined hlinks hp⟩
    case neg => exact ⟨[], .first fun p hp => hfollows ⟨p, hp⟩⟩

theorem LinksTo.eq_nil {links : List (Nat × Nat)} (h : t.LinksTo links i)
    (hfirst : ∀ p, ¬ t.Follows p i) : links = [] := by
  cases h with
  | first => rfl
  | joined _ hfollows => exact absurd hfollows (hfirst _)

theorem LinksTo.eq_cons {links : List (Nat × Nat)} (h : t.LinksTo links q)
    (hfollows : t.Follows p q) : ∃ rest, links = (p, q) :: rest ∧ t.LinksTo rest p := by
  cases h with
  | first hfirst => exact absurd hfollows (hfirst p)
  | joined hrest hfollows' =>
    obtain rfl := hfollows.unique_first hfollows'
    exact ⟨_, rfl, hrest⟩

end CursivePass

/-! ## §3 Questions to the source -/

/-- Ask for the place of an anchor of a glyph, if there is one. The answer comes with what the
    source keeps from then on. -/
def PosContext.ask {σ : Type} (c : PosContext σ) (anchor : Option (GlyphId × Anchor)) (kept : σ) :
    Except LayoutError Point × σ :=
  match anchor with
  | none => (.ok ⟨0, 0⟩, kept)
  | some (glyph, a) =>
    let run := Program.outcome (PosM.anchorPoint c a glyph)
      { glyphs := #[], positions := #[], chain := none, kept }
    (run.1, run.2.kept)

namespace PosM

variable {σ α β : Type}

/-- A program depends on what the source keeps, and changes nothing else. -/
def OnlyAsks (x : PosM σ α) : Prop :=
  ∀ s s₀ : PosState σ, s.kept = s₀.kept → Program.outcome x s =
    ((Program.outcome x s₀).1, { s with kept := (Program.outcome x s₀).2.kept })

namespace OnlyAsks

theorem pure (a : α) : OnlyAsks (Pure.pure a : PosM σ α) := by
  intro s s₀ hkept
  rw [Program.outcome_pure, Program.outcome_pure, ← hkept]

theorem throw (e : LayoutError) : OnlyAsks (throw e : PosM σ α) := by
  intro s s₀ hkept
  rw [Program.outcome_throw, Program.outcome_throw, ← hkept]

theorem bind {x : PosM σ α} {f : α → PosM σ β} (hx : OnlyAsks x) (hf : ∀ a, OnlyAsks (f a)) :
    OnlyAsks (x >>= f) := by
  intro s s₀ hkept
  rw [Program.outcome_bind, Program.outcome_bind, hx s s₀ hkept]
  rcases Program.outcome x s₀ with ⟨e | a, t⟩
  · rfl
  · exact hf a _ t rfl

end OnlyAsks

variable (c : PosContext σ)

theorem onlyAsks_anchorPoint (a : Anchor) (glyph : GlyphId) : OnlyAsks (anchorPoint c a glyph) := by
  have hmetric : ∀ id, OnlyAsks (metric c id) := fun id s s₀ hkept => by
    rw [outcome_metric, outcome_metric, hkept]
  have hcontour : OnlyAsks (contour c glyph) := fun s s₀ hkept => by
    rw [outcome_contour, outcome_contour, hkept]
  unfold anchorPoint
  -- the kinds of anchors differ in what they ask the provider for
  cases a with
  | design x y => exact .pure _
  | contour x y point =>
    dsimp only
    split
    case isTrue => exact .pure _
    case isFalse =>
      refine hcontour.bind fun points => ?_
      split
      case isTrue => exact .pure _
      case isFalse =>
        split
        case h_1 => exact .pure _
        case h_2 => exact .throw _
  | adjusted x y xDevice yDevice =>
    dsimp only
    split <;> exact .pure _
  | metric x y => exact (hmetric x).bind fun _ => (hmetric y).bind fun _ => .pure _

/-- Finding the place of an anchor asks for it. -/
theorem outcome_anchorPoint (glyph : GlyphId) (a : Anchor) (s : PosState σ) :
    Program.outcome (anchorPoint c a glyph) s =
      ((c.ask (some (glyph, a)) s.kept).1,
        { s with kept := (c.ask (some (glyph, a)) s.kept).2 }) :=
  onlyAsks_anchorPoint c a glyph s _ rfl

end PosM

namespace CursivePass

variable {σ : Type} (t : CursivePass σ)

/-- Where the glyph at an index is joined to the one that it follows, if it follows one. -/
def joined? (q : Nat) : Option (GlyphId × Anchor) :=
  if ∃ p < q, t.Follows p q then t.entryAt? q else none

/-- What the source keeps when it has been asked about all glyphs before an index: of each glyph
    first where it is joined, and then where the next one may join it. -/
def keptBefore : Nat → σ
  | 0 => t.before.kept
  | i + 1 => (t.context.ask (t.exitAt? i) (t.context.ask (t.joined? i) (keptBefore i)).2).2

/-- What the source says about where the glyph at an index is joined to the one that it follows. -/
def entryAnswer (i : Nat) : Except LayoutError Point :=
  (t.context.ask (t.joined? i) (t.keptBefore i)).1

/-- What the source says about where the next glyph may join the glyph at an index. -/
def exitAnswer (i : Nat) : Except LayoutError Point :=
  (t.context.ask (t.exitAt? i) (t.context.ask (t.joined? i) (t.keptBefore i)).2).1

/-- Where the glyph at an index is joined to the one that it follows. -/
def entryPoint (i : Nat) : Point := (t.entryAnswer i).toOption.getD ⟨0, 0⟩

/-- Where the next glyph may join the glyph at an index. -/
def exitPoint (i : Nat) : Point := (t.exitAnswer i).toOption.getD ⟨0, 0⟩

variable {t} {i p q : Nat}

theorem joined?_of_follows (h : t.Follows p q) : t.joined? q = t.entryAt? q := if_pos ⟨p, h.lt, h⟩

theorem joined?_of_not_follows (h : ∀ p, ¬ t.Follows p q) : t.joined? q = none :=
  if_neg fun ⟨p, _, hp⟩ => h p hp

theorem entryPoint_eq {point : Point} (h : t.entryAnswer i = .ok point) :
    t.entryPoint i = point := by
  rw [entryPoint, h]
  rfl

theorem exitPoint_eq {point : Point} (h : t.exitAnswer i = .ok point) : t.exitPoint i = point := by
  rw [exitPoint, h]
  rfl

end CursivePass

end OpenTypeLayout
