import OpenTypeLayout.Proofs.Positioning.Contract
import OpenTypeLayout.Proofs.Positioning.JoinedGlyphs

/-!
# Positions of joined glyphs

If joining glyphs is all that is done to a text, its positions can be said outright: the advance
between two joined glyphs makes them meet, and a glyph is moved up or down by the sum of the links
before it.

- `CursivePass.Reached` is the invariant of going through the text, and `CursivePass.Steps` says
  what is done at one glyph.
- `CursivePass.Placed` is the position of a glyph when the text has been gone through up to an
  index.
- `cursive_positions` is the closed form.
-/

namespace OpenTypeLayout

/-! ## §1 One glyph -/

/-- The positions after the glyph at an index has been joined to another one. -/
def joinedPositions (rightToLeft : Bool) (index : Nat) (entry : Point) (last : Nat) (exit : Point)
    (positions : Array Position) : Array Position :=
  let advanced :=
    if rightToLeft then
      positions.modify index fun p => { p with xAdvance := entry.x - exit.x, newAdvance := true }
    else positions.modify last fun p => { p with xAdvance := exit.x - entry.x, newAdvance := true }
  advanced.modify index fun p =>
    { p with y := exit.y - entry.y + (advanced[last]?.map Position.y).getD 0 }

theorem PosM.outcome_join {σ : Type} (c : PosContext σ) (index : Nat) (entry : Point) (last : Nat)
    (exit : Point) (s : PosState σ) :
    Program.outcome (join c index entry last exit) s =
      (.ok (), { s with
        positions := joinedPositions c.params.rightToLeft index entry last exit s.positions }) := by
  unfold join joinedPositions
  cases c.params.rightToLeft <;> rfl

namespace CursivePass

variable {σ : Type} {t : CursivePass σ} {i : Nat} {s s' : PosState σ} {item : GlyphItem}
variable {joins : EntryExit}

variable (t) in
/-- What is known when the text has been gone through up to an index. -/
structure Reached (i : Nat) (s : PosState σ) : Prop where
  /-- It is the same text. -/
  text : settled t.context.gdef s.glyphs = settled t.context.gdef t.before.glyphs
  /-- The chain ends at the glyph that the next one may be joined to. -/
  chain : s.chain = (t.open? i).map fun p => (p, t.exitPoint p)
  /-- The source has been asked about the glyphs before. -/
  kept : s.kept = t.keptBefore i

variable (t) in
/-- What is done at the glyph at an index: it is joined to the glyph that it follows, and
    nothing else. -/
structure Steps (i : Nat) (s s' : PosState σ) : Prop where
  joined : ∀ p, t.Follows p i → s'.positions =
    joinedPositions t.context.params.rightToLeft i (t.entryPoint i) p (t.exitPoint p) s.positions
  single : (∀ p, ¬ t.Follows p i) → s'.positions = s.positions
  entry : t.entryAnswer i = .ok (t.entryPoint i)
  exit : t.exitAnswer i = .ok (t.exitPoint i)

variable (t) in
/-- A glyph stands at an index, up to what has been remembered of it. -/
structure Stands (i : Nat) (item : GlyphItem) : Prop where
  entry : t.entryAt? i = (t.joinsOf item).bind fun joins => joins.entry.map fun a => (item.glyph, a)
  exit : t.exitAt? i = (t.joinsOf item).bind fun joins => joins.exit.map fun a => (item.glyph, a)
  skips : t.skipsAt i = t.skips item

theorem Reached.stands (hs : t.Reached i s) (hitem : s.glyphs[i]? = some item) :
    t.Stands i item := by
  obtain ⟨x, hx, hsame⟩ := getElem?_of_settled hs.text hitem
  have hjoins : t.joinsOf x = t.joinsOf item := by
    simp only [joinsOf, Gdef.isActive_of_remember hsame, Gdef.check_of_remember hsame,
      Gdef.glyph_of_remember hsame]
  have hskips : t.skips x = t.skips item := by
    simp only [CursivePass.skips, Gdef.admits, Gdef.isActive_of_remember hsame,
      Gdef.check_of_remember hsame]
  refine ⟨?_, ?_, ?_⟩
  · rw [entryAt?, hx, Option.bind_some, hjoins, Gdef.glyph_of_remember hsame]
  · rw [exitAt?, hx, Option.bind_some, hjoins, Gdef.glyph_of_remember hsame]
  · rw [skipsAt, hx, Option.any_some, hskips]

/-- At a glyph that does not join others there is nothing to do. If it is not skipped, it breaks the
    chain. -/
theorem Reached.noJoins (hs : t.Reached i s) (hitem : t.Stands i item)
    (hjoins : t.joinsOf item = none)
    (htext : settled t.context.gdef s'.glyphs = settled t.context.gdef s.glyphs)
    (hpositions : s'.positions = s.positions) (hkept : s'.kept = s.kept)
    (hchain : s'.chain = if t.skips item then s.chain else none) :
    t.Reached (i + 1) s' ∧ t.Steps i s s' := by
  -- a glyph that joins no others has neither anchor
  have hentry : t.entryAt? i = none := by rw [hitem.entry, hjoins, Option.bind_none]
  have hexit : t.exitAt? i = none := by rw [hitem.exit, hjoins, Option.bind_none]
  have hfirst : ∀ p, ¬ t.Follows p i := fun p h => by
    have := h.entry
    rw [hentry] at this
    cases this
  have hjoined := joined?_of_not_follows hfirst
  have hentryAnswer : t.entryAnswer i = .ok ⟨0, 0⟩ := by
    rw [entryAnswer, hjoined]
    rfl
  have hexitAnswer : t.exitAnswer i = .ok ⟨0, 0⟩ := by
    rw [exitAnswer, hexit]
    rfl
  refine ⟨⟨htext.trans hs.text, ?_, ?_⟩,
    ⟨fun p h => absurd h (hfirst p), fun _ => hpositions, ?_, ?_⟩⟩
  -- the chain stays open only over a glyph that is skipped
  · rw [hchain, open?, hitem.skips, hexit]
    split
    · exact hs.chain
    · rfl
  · rw [hkept, keptBefore, hexit, hjoined]
    exact hs.kept
  · rw [hentryAnswer, entryPoint_eq hentryAnswer]
  · rw [hexitAnswer, exitPoint_eq hexitAnswer]

/-- A glyph that can be joined is joined to the last glyph of the chain, if there is one. -/
theorem Reached.joinToChain (hs : t.Reached i s)
    (hentry : t.entryAt? i = joins.entry.map fun a => (item.glyph, a))
    (hrun : Program.outcome (PosM.joinToChain t.context i item joins) s = (.ok (), s')) :
    s'.glyphs = s.glyphs ∧ s'.kept = (t.context.ask (t.joined? i) s.kept).2 ∧
      t.entryAnswer i = .ok (t.entryPoint i) ∧
      (∀ p, t.Follows p i → s'.positions =
        joinedPositions t.context.params.rightToLeft i (t.entryPoint i) p (t.exitPoint p)
          s.positions) ∧
      ((∀ p, ¬ t.Follows p i) → s'.positions = s.positions) := by
  rw [PosM.joinToChain, Program.outcome_get_bind, hs.chain] at hrun
  -- it matters whether the chain is open and the glyph has an entry
  by_cases hfollows : ∃ p, t.Follows p i
  case pos =>
    obtain ⟨p, hp⟩ := hfollows
    have hopen := (follows_iff.mp hp).1
    have hjoined := joined?_of_follows hp
    -- no entry would mean that the glyph follows nothing
    cases hanchor : joins.entry with
    | none =>
      have := hp.entry
      rw [hentry, hanchor] at this
      cases this
    | some a =>
      rw [hanchor, Option.map_some] at hentry
      rw [hopen, hanchor] at hrun
      dsimp only [Option.map_some] at hrun
      obtain ⟨point, s₁, hpoint, hrun⟩ := Program.outcome_bind_eq_ok hrun
      rw [PosM.outcome_anchorPoint, ← hentry, ← hjoined] at hpoint
      obtain ⟨hanswer, rfl⟩ := Prod.mk.inj hpoint
      rw [PosM.outcome_join] at hrun
      cases hrun
      have hentryAnswer : t.entryAnswer i = .ok point := by rw [entryAnswer, ← hs.kept, hanswer]
      rw [hentryAnswer, entryPoint_eq hentryAnswer]
      refine ⟨rfl, rfl, rfl, fun p' hp' => ?_, fun hfirst => absurd hp (hfirst p)⟩
      rw [hp.unique_first hp']
  case neg =>
    have hfirst : ∀ p, ¬ t.Follows p i := fun p hp => hfollows ⟨p, hp⟩
    have hjoined := joined?_of_not_follows hfirst
    -- without a glyph to follow, the entry is not asked for and counts as the origin
    have hentryAnswer : t.entryAnswer i = .ok ⟨0, 0⟩ := by
      rw [entryAnswer, hjoined]
      rfl
    have hsame : s' = s := by
      -- the chain is broken, or the glyph has no entry: in both cases nothing is done
      cases hopen : t.open? i with
      | none =>
        rw [hopen] at hrun
        cases hrun
        rfl
      | some p =>
        cases hanchor : joins.entry with
        | none =>
          rw [hopen, hanchor] at hrun
          cases hrun
          rfl
        | some a =>
          refine absurd (follows_iff.mpr ⟨hopen, ?_⟩) (hfirst p)
          rw [hentry, hanchor, Option.map_some, Option.isSome_some]
    subst hsame
    rw [hjoined]
    refine ⟨rfl, rfl, ?_, fun p hp => absurd hp (hfirst p), fun _ => rfl⟩
    rw [hentryAnswer, entryPoint_eq hentryAnswer]

/-- The chain goes on from a glyph that the next one may join, and is broken at any other one. -/
theorem outcome_continueChain
    (hexit : t.exitAt? i = joins.exit.map fun a => (item.glyph, a))
    (hrun : Program.outcome (PosM.continueChain t.context i item joins) s = (.ok (), s')) :
    s'.glyphs = s.glyphs ∧ s'.positions = s.positions ∧
      s'.kept = (t.context.ask (t.exitAt? i) s.kept).2 ∧
      ∃ point, (t.context.ask (t.exitAt? i) s.kept).1 = .ok point ∧
        s'.chain = (t.exitAt? i).map fun _ => (i, point) := by
  unfold PosM.continueChain at hrun
  -- the exit is asked for only if there is one, and then the chain is open at it
  cases hanchor : joins.exit with
  | none =>
    rw [hanchor] at hrun hexit
    cases hrun
    rw [hexit]
    exact ⟨rfl, rfl, rfl, _, rfl, rfl⟩
  | some a =>
    rw [hanchor] at hrun hexit
    dsimp only at hrun
    obtain ⟨point, s₁, hpoint, hrun⟩ := Program.outcome_bind_eq_ok hrun
    rw [PosM.outcome_anchorPoint] at hpoint
    obtain ⟨hanswer, rfl⟩ := Prod.mk.inj hpoint
    cases hrun
    rw [hexit]
    exact ⟨rfl, rfl, rfl, point, hanswer, rfl⟩

/-- A glyph that joins others is joined to the one that it follows, and the chain goes on. -/
theorem Reached.joinsOthers {s₁ : PosState σ} (hs : t.Reached i s) (hitem : t.Stands i item)
    (hjoins : t.joinsOf item = some joins)
    (hjoin : Program.outcome (PosM.joinToChain t.context i item joins) s = (.ok (), s₁))
    (hcontinue : Program.outcome (PosM.continueChain t.context i item joins) s₁ = (.ok (), s')) :
    t.Reached (i + 1) s' ∧ t.Steps i s s' := by
  have hentry := hitem.entry
  have hexit := hitem.exit
  rw [hjoins, Option.bind_some] at hentry hexit
  -- a glyph with anchors is not skipped
  have hcounted : t.skipsAt i = false := by
    rw [hitem.skips, Bool.eq_false_iff]
    intro hskips
    rw [joinsOf_of_skips hskips] at hjoins
    cases hjoins
  -- first the glyph is joined to the one before, and then its own exit is asked for
  obtain ⟨hglyphs₁, hkept₁, hentryAnswer, hjoined, hsingle⟩ := hs.joinToChain hentry hjoin
  obtain ⟨hglyphs₂, hpositions, hkept₂, point, hanswer, hchain⟩ :=
    outcome_continueChain hexit hcontinue
  have hexitAnswer : t.exitAnswer i = .ok point := by
    rw [exitAnswer, ← hs.kept, ← hkept₁, hanswer]
  refine ⟨⟨?_, ?_, ?_⟩, ⟨fun p hp => hpositions.trans (hjoined p hp),
    fun hfirst => hpositions.trans (hsingle hfirst), hentryAnswer, ?_⟩⟩
  · rw [hglyphs₂, hglyphs₁, hs.text]
  -- the chain is open if there is an exit, at the point that has been answered
  · rw [hchain, open?, hcounted, if_neg Bool.false_ne_true]
    cases t.exitAt? i with
    | none => rfl
    | some a => rw [Option.isSome_some, if_pos rfl, Option.map_some, Option.map_some,
        exitPoint_eq hexitAnswer]
  · rw [hkept₂, hkept₁, hs.kept, keptBefore]
  · rw [hexitAnswer, exitPoint_eq hexitAnswer]

/-- Applying the subtables at a glyph that is not skipped. The pass goes on with the next glyph. -/
theorem Reached.applyCursive {p : GlyphProperty} {answer : Option Nat} (hs : t.Reached i s)
    (hitem : t.Stands i item) (hactive : item.isActive t.bits = true)
    (hcheck : Gdef.check t.context.gdef t.flag item = some p)
    (hrun : Program.outcome (PosM.applyCursive t.context t.subtables i item p) s =
      (.ok answer, s')) :
    answer.getD (i + 1) = i + 1 ∧ t.Reached (i + 1) s' ∧ t.Steps i s s' := by
  -- the glyph counts, so a chain that is not continued here is broken
  have hcounted : t.skips item = false := by
    rw [skips, Gdef.admits, hcheck, Option.isSome_some, Bool.not_true, Bool.and_false]
  have hbroken : (if t.skips item then s.chain else none) = none := by
    rw [hcounted, if_neg Bool.false_ne_true]
  have hjoins : t.joinsOf item = if p.isMark then none
      else (firstAnswer (fun s => s.find item.glyph) t.subtables.toList).toOption.join := by
    rw [joinsOf, if_pos hactive, hcheck, Option.bind_some]
  rw [PosM.applyCursive_eq] at hrun
  split at hrun
  -- marks join no others
  case isTrue hmark =>
    rw [if_pos hmark] at hjoins
    cases hrun
    exact ⟨rfl, hs.noJoins hitem hjoins rfl rfl rfl hbroken.symm⟩
  case isFalse hmark =>
    obtain ⟨found, s₁, hlift, hrun⟩ := Program.outcome_bind_eq_ok hrun
    obtain ⟨hfound, rfl⟩ := Prod.mk.inj hlift
    rw [if_neg hmark, LayoutError.ofParse_eq_ok hfound] at hjoins
    cases found with
    | none =>
      cases hrun
      exact ⟨rfl, hs.noJoins hitem hjoins rfl rfl rfl hbroken.symm⟩
    | some joins =>
      obtain ⟨_, s₁, hjoin, hrun⟩ := Program.outcome_bind_eq_ok hrun
      obtain ⟨_, s₂, hcontinue, hrun⟩ := Program.outcome_bind_eq_ok hrun
      cases hrun
      exact ⟨rfl, hs.joinsOthers hitem hjoins hjoin hcontinue⟩

/-- One step of the pass comes to the next glyph. -/
theorem Reached.passStep {layout : LayoutTable Positioning} {levels lookupIndex next : Nat}
    (hlookup : layout.lookup lookupIndex = .ok ⟨t.flag, .cursive t.subtables⟩) (hs : t.Reached i s)
    (hitem : s.glyphs[i]? = some item)
    (hrun : Program.outcome (PosM.passStep
      (fun index => PosM.applyLookup t.context layout levels lookupIndex index noContext)
      t.bits item i) s = (.ok next, s')) :
    next = i + 1 ∧ t.Reached (i + 1) s' ∧ t.Steps i s s' := by
  have hstands := hs.stands hitem
  unfold PosM.passStep at hrun
  split at hrun
  case isFalse hactive =>
    cases hrun
    refine ⟨rfl, hs.noJoins hstands (if_neg hactive) rfl rfl rfl ?_⟩
    rw [skips, Bool.eq_false_iff.mpr hactive]
    rfl
  case isTrue hactive =>
    obtain ⟨answer, s₁, happly, hrun⟩ := Program.outcome_bind_eq_ok hrun
    cases hrun
    obtain ⟨invoke, happly⟩ := PosM.applyLookup_eq_ok hlookup happly
    have htext := settled_rememberRange t.context.gdef s.glyphs i (i + 1)
    rcases PosM.atGlyph_eq_ok hitem happly with ⟨hcheck, rfl, rfl⟩ | ⟨p, hcheck, happly⟩
    · -- the glyph is skipped, and the chain goes on across it
      have hskips : t.skips item = true := by
        rw [skips, hactive, Bool.true_and, Gdef.admits, hcheck, Option.isSome_none, Bool.not_false]
      refine ⟨rfl, hs.noJoins hstands (joinsOf_of_skips hskips) htext rfl rfl ?_⟩
      rw [hskips, if_pos rfl]
    · have hs₀ : t.Reached i
          { s with glyphs := rememberRange t.context.gdef s.glyphs i (i + 1) } :=
        ⟨htext.trans hs.text, hs.chain, hs.kept⟩
      obtain ⟨hnext, hreached, hsteps⟩ := hs₀.applyCursive hstands hactive hcheck happly
      exact ⟨hnext, hreached, hsteps.joined, hsteps.single, hsteps.entry, hsteps.exit⟩

/-! ## §2 Positions -/

variable (t) in
/-- The one of two joined glyphs whose advance is made to fit. -/
def widened (p q : Nat) : Nat := if t.context.params.rightToLeft then q else p

variable (t) in
/-- The advance that makes two joined glyphs meet. -/
def gap (p q : Nat) : Int32 :=
  if t.context.params.rightToLeft then (t.entryPoint q).x - (t.exitPoint p).x
  else (t.exitPoint p).x - (t.entryPoint q).x

variable (t) in
/-- How far up links take a glyph. -/
def rise (links : List (Nat × Nat)) : Int32 :=
  (links.map fun link => (t.exitPoint link.1).y - (t.entryPoint link.2).y).sum

variable (t) in
/-- The position of a glyph when the text has been gone through up to an index. -/
structure Placed (i j : Nat) (pos : Position) : Prop where
  x : pos.x = 0
  yAdvance : pos.yAdvance = 0
  back : pos.back = 0
  advance : ∀ p q, q < i → t.Follows p q → j = t.widened p q →
    pos.xAdvance = t.gap p q ∧ pos.newAdvance = true
  noAdvance : (∀ p q, q < i → t.Follows p q → j ≠ t.widened p q) →
    pos.xAdvance = 0 ∧ pos.newAdvance = false
  height : j < i → ∀ links, t.LinksTo links j → pos.y = t.rise links
  level : i ≤ j → pos.y = 0

variable {p q p' q' j : Nat} {pos : Position} {positions : Array Position}

theorem widened_of_left (h : t.context.params.rightToLeft = false) (p q : Nat) :
    t.widened p q = p := by
  rw [widened, h, if_neg Bool.false_ne_true]

theorem widened_of_right (h : t.context.params.rightToLeft = true) (p q : Nat) :
    t.widened p q = q := by
  rw [widened, h, if_pos rfl]

theorem gap_of_left (h : t.context.params.rightToLeft = false) (p q : Nat) :
    t.gap p q = (t.exitPoint p).x - (t.entryPoint q).x := by
  rw [gap, h, if_neg Bool.false_ne_true]

theorem gap_of_right (h : t.context.params.rightToLeft = true) (p q : Nat) :
    t.gap p q = (t.entryPoint q).x - (t.exitPoint p).x := by
  rw [gap, h, if_pos rfl]

/-- One link at most makes the advance of a glyph fit. -/
theorem Follows.unique_widened (h : t.Follows p q) (h' : t.Follows p' q')
    (heq : t.widened p q = t.widened p' q') : p = p' ∧ q = q' := by
  unfold widened at heq
  split at heq
  case isTrue =>
    subst heq
    exact ⟨h.unique_first h', rfl⟩
  case isFalse =>
    subst heq
    exact ⟨rfl, h.unique_second h'⟩

theorem getElem?_joinedPositions (hlt : p < q) :
    (joinedPositions t.context.params.rightToLeft q (t.entryPoint q) p (t.exitPoint p)
        positions)[j]? =
      positions[j]?.map fun pos => { pos with
        xAdvance := if j = t.widened p q then t.gap p q else pos.xAdvance
        newAdvance := if j = t.widened p q then true else pos.newAdvance
        y := if j = q then (t.exitPoint p).y - (t.entryPoint q).y +
          (positions[p]?.map Position.y).getD 0 else pos.y } := by
  have hne : q ≠ p := Nat.ne_of_gt hlt
  unfold joinedPositions widened gap
  cases t.context.params.rightToLeft with
  -- the joined glyph is widened
  | true =>
    simp only [if_true, Array.getElem?_modify, if_neg hne]
    by_cases hj : q = j
    case pos =>
      subst hj
      simp [Function.comp_def]
    case neg => simp [hj, Ne.symm hj]
  -- the glyph that it is joined to is widened
  | false =>
    simp only [Bool.false_eq_true, if_false, Array.getElem?_modify, if_true]
    by_cases hj : q = j
    case pos =>
      subst hj
      simp [hne, Ne.symm hne, Function.comp_def]
    case neg =>
      by_cases hp : p = j
      case pos =>
        subst hp
        simp [Ne.symm hne, hne]
      case neg => simp [hj, hp, Ne.symm hj, Ne.symm hp]

theorem Placed.start (j : Nat) : t.Placed 0 j {} where
  x := rfl
  yAdvance := rfl
  back := rfl
  advance _ q hq := absurd hq (Nat.not_lt_zero q)
  noAdvance _ := ⟨rfl, rfl⟩
  height hj := absurd hj (Nat.not_lt_zero j)
  level _ := rfl

theorem Placed.single (h : t.Placed i j pos) (hfirst : ∀ p, ¬ t.Follows p i) :
    t.Placed (i + 1) j pos where
  x := h.x
  yAdvance := h.yAdvance
  back := h.back
  advance p q hq hfollows := by
    rcases Nat.eq_or_lt_of_le (Nat.le_of_lt_succ hq) with rfl | hq
    · exact absurd hfollows (hfirst p)
    · exact h.advance p q hq hfollows
  noAdvance hnone := h.noAdvance fun p q hq => hnone p q (Nat.lt_succ_of_lt hq)
  height hj links hlinks := by
    rcases Nat.eq_or_lt_of_le (Nat.le_of_lt_succ hj) with rfl | hj
    · rw [hlinks.eq_nil hfirst]
      exact h.level (Nat.le_refl _)
    · exact h.height hj links hlinks
  level hj := h.level (Nat.le_of_succ_le hj)

theorem Placed.joined (hp : t.Follows p i) (hinside : p < positions.size)
    (h : ∀ j pos, positions[j]? = some pos → t.Placed i j pos)
    (hpos : (joinedPositions t.context.params.rightToLeft i (t.entryPoint i) p (t.exitPoint p)
      positions)[j]? = some pos) : t.Placed (i + 1) j pos := by
  rw [getElem?_joinedPositions hp.lt] at hpos
  obtain ⟨pos₀, hpos₀, rfl⟩ := Option.map_eq_some_iff.mp hpos
  have hj := h j pos₀ hpos₀
  -- the fields that a join changes are taken one by one
  refine ⟨hj.x, hj.yAdvance, hj.back, fun p' q hq hfollows hwidened => ?_, fun hnone => ?_, ?_, ?_⟩
  -- each glyph is widened by at most one join, so earlier joins are left alone
  · by_cases hthis : j = t.widened p i
    case pos =>
      obtain ⟨rfl, rfl⟩ := hp.unique_widened hfollows (hthis.symm.trans hwidened)
      exact ⟨if_pos hthis, if_pos hthis⟩
    case neg =>
      dsimp only
      rw [if_neg hthis, if_neg hthis]
      rcases Nat.eq_or_lt_of_le (Nat.le_of_lt_succ hq) with rfl | hq
      · rw [hp.unique_first hfollows] at hthis
        exact absurd hwidened hthis
      · exact hj.advance p' q hq hfollows hwidened
  · have hthis : j ≠ t.widened p i := hnone p i (Nat.lt_succ_self i) hp
    dsimp only
    rw [if_neg hthis, if_neg hthis]
    exact hj.noAdvance fun p' q hq => hnone p' q (Nat.lt_succ_of_lt hq)
  · intro hlt links hlinks
    dsimp only
    by_cases hthis : j = i
    case pos =>
      subst hthis
      -- the height is that of the glyph before, which has its final height already
      obtain ⟨rest, rfl, hrest⟩ := hlinks.eq_cons hp
      have hlast := Array.getElem?_eq_getElem hinside
      rw [if_pos rfl, hlast, Option.map_some, Option.getD_some,
        (h p _ hlast).height hp.lt rest hrest, rise, rise, List.map_cons, List.sum_cons]
    case neg =>
      rw [if_neg hthis]
      exact hj.height (by omega) links hlinks
  · intro hle
    dsimp only
    rw [if_neg (by omega)]
    exact hj.level (Nat.le_of_succ_le hle)

/-! ## §3 The whole text -/

variable (t) in
/-- Each position is what it has to be when the text has been gone through up to an index. -/
structure Positioned (i : Nat) (s : PosState σ) : Prop where
  size : s.positions.size = t.before.glyphs.size
  placed : ∀ j pos, s.positions[j]? = some pos → t.Placed i j pos

theorem Positioned.step (h : t.Positioned i s) (hi : i < t.before.glyphs.size)
    (hsteps : t.Steps i s s') : t.Positioned (i + 1) s' := by
  by_cases hfollows : ∃ p, t.Follows p i
  case pos =>
    obtain ⟨p, hp⟩ := hfollows
    have hsize : ∀ positions, (joinedPositions t.context.params.rightToLeft i (t.entryPoint i) p
        (t.exitPoint p) positions).size = positions.size := fun positions => by
      unfold joinedPositions
      cases t.context.params.rightToLeft <;> simp
    have hinside : p < s.positions.size := h.size ▸ Nat.lt_trans hp.lt hi
    refine ⟨?_, fun j pos hpos => ?_⟩
    · rw [hsteps.joined p hp, hsize, h.size]
    · rw [hsteps.joined p hp] at hpos
      exact .joined hp hinside h.placed hpos
  case neg =>
    have hfirst : ∀ p, ¬ t.Follows p i := fun p hp => hfollows ⟨p, hp⟩
    have hsame := hsteps.single hfirst
    exact ⟨hsame ▸ h.size, fun j pos hpos => (h.placed j pos (hsame ▸ hpos)).single hfirst⟩

/-- The pass goes through the rest of the text glyph by glyph. -/
theorem Reached.pass {layout : LayoutTable Positioning} {levels lookupIndex rounds : Nat}
    (hlookup : layout.lookup lookupIndex = .ok ⟨t.flag, .cursive t.subtables⟩) (hs : t.Reached i s)
    (hpositioned : t.Positioned i s) (hi : i ≤ t.before.glyphs.size)
    (hrounds : t.before.glyphs.size ≤ i + rounds)
    (hrun : Program.outcome (PosM.pass
      (fun index => PosM.applyLookup t.context layout levels lookupIndex index noContext)
      t.bits rounds i) s = (.ok (), s')) :
    t.Reached t.before.glyphs.size s' ∧ t.Positioned t.before.glyphs.size s' ∧
      ∀ k, i ≤ k → k < t.before.glyphs.size →
        t.entryAnswer k = .ok (t.entryPoint k) ∧ t.exitAnswer k = .ok (t.exitPoint k) := by
  have hsize : s.glyphs.size = t.before.glyphs.size := size_of_settled hs.text
  -- a round is a step, which places the glyphs up to one more
  induction rounds generalizing s i with
  | zero =>
    cases hrun
    obtain rfl : i = t.before.glyphs.size := by omega
    exact ⟨hs, hpositioned, fun k hle hlt => by omega⟩
  | succ rounds ih =>
    rw [PosM.pass_succ, Program.outcome_get_bind] at hrun
    cases hitem : s.glyphs[i]? with
    | none =>
      rw [hitem] at hrun
      cases hrun
      have hend := Array.getElem?_eq_none_iff.mp hitem
      obtain rfl : i = t.before.glyphs.size := by omega
      exact ⟨hs, hpositioned, fun k hle hlt => by omega⟩
    | some item =>
      rw [hitem] at hrun
      have hlt : i < t.before.glyphs.size := hsize ▸ (Array.getElem?_eq_some_iff.mp hitem).1
      obtain ⟨next, s₁, hstep, hrun⟩ := Program.outcome_bind_eq_ok hrun
      obtain ⟨rfl, hs₁, hsteps⟩ := hs.passStep hlookup hitem hstep
      obtain ⟨hreached, hplaced, hanswers⟩ :=
        ih hs₁ (hpositioned.step hlt hsteps) hlt (by omega) hrun (size_of_settled hs₁.text)
      refine ⟨hreached, hplaced, fun k hle hk => ?_⟩
      -- what is answered at the first glyph is known from its step, the rest by induction
      rcases Nat.eq_or_lt_of_le hle with rfl | hik
      · exact ⟨hsteps.entry, hsteps.exit⟩
      · exact hanswers k hik hk

/-- The pass has gone through the whole text when positioning it has not failed. -/
theorem exists_reached {c : PosContext σ} {table : ActiveTable Positioning} {lookupIndex : Nat}
    {bits : UInt32} {flag : LookupFlag} {subtables : Array CursivePos} {before after : PosOutcome σ}
    (hactive : table.active = [(lookupIndex, bits)])
    (hlookup : table.layout.lookup lookupIndex = .ok ⟨flag, .cursive subtables⟩)
    (hrun : table.position c before = (.ok (), after)) :
    let t : CursivePass σ := ⟨c, flag, subtables, bits, before⟩
    let n := before.glyphs.size
    ∃ s, s.positions = after.positions ∧ s.kept = after.kept ∧ t.Reached n s ∧ t.Positioned n s ∧
      ∀ k < n, t.entryAnswer k = .ok (t.entryPoint k) ∧ t.exitAnswer k = .ok (t.exitPoint k) := by
  intro t n
  obtain ⟨s, hpass, rfl⟩ := PosM.position_eq_ok hactive hrun
  have hstart : t.Reached 0 (PosM.startOf before) := ⟨rfl, rfl, rfl⟩
  have hpositioned : t.Positioned 0 (PosM.startOf before) := by
    refine ⟨by simp [PosM.startOf, t], fun j pos hpos => ?_⟩
    rw [PosM.eq_zero_of_startOf hpos]
    exact .start j
  obtain ⟨hreached, hpositioned, hanswers⟩ := hstart.pass hlookup hpositioned (Nat.zero_le n)
    (Nat.le_of_eq (Nat.zero_add n).symm) hpass
  exact ⟨s, rfl, rfl, hreached, hpositioned, fun k => hanswers k (Nat.zero_le k)⟩

end CursivePass

open CursivePass in
/-- If the only active lookup joins glyphs, and positioning does not fail, this is what comes out.
    In every chain of joined glyphs, the advance of the one glyph that is further left in the output
    makes the two meet, and each glyph is moved up or down by the sum of the links before it. There
    is nothing else in the positions. The places are those that the source answers with when it is
    asked about the glyphs one after the other. -/
theorem cursive_positions {σ : Type} (c : PosContext σ) (table : ActiveTable Positioning)
    {lookupIndex : Nat} {bits : UInt32} {flag : LookupFlag} {subtables : Array CursivePos}
    (hactive : table.active = [(lookupIndex, bits)])
    (hlookup : table.layout.lookup lookupIndex = .ok ⟨flag, .cursive subtables⟩)
    {before after : PosOutcome σ} (hrun : table.position c before = (.ok (), after)) :
    let t : CursivePass σ := ⟨c, flag, subtables, bits, before⟩
    let n := before.glyphs.size
    (∀ i < n, t.entryAnswer i = .ok (t.entryPoint i) ∧ t.exitAnswer i = .ok (t.exitPoint i)) ∧
    after.kept = t.keptBefore n ∧ after.positions.size = n ∧
    ∀ i pos, after.positions[i]? = some pos →
      pos.x = 0 ∧ pos.yAdvance = 0 ∧ pos.back = 0 ∧
      (c.params.rightToLeft = false →
        (∀ q, t.Follows i q →
          pos.xAdvance = (t.exitPoint i).x - (t.entryPoint q).x ∧ pos.newAdvance = true) ∧
        ((∀ q, ¬ t.Follows i q) → pos.xAdvance = 0 ∧ pos.newAdvance = false)) ∧
      (c.params.rightToLeft = true →
        (∀ p, t.Follows p i →
          pos.xAdvance = (t.entryPoint i).x - (t.exitPoint p).x ∧ pos.newAdvance = true) ∧
        ((∀ p, ¬ t.Follows p i) → pos.xAdvance = 0 ∧ pos.newAdvance = false)) ∧
      (∃ links, t.LinksTo links i) ∧ ∀ links, t.LinksTo links i → pos.y =
        (links.map fun link => (t.exitPoint link.1).y - (t.entryPoint link.2).y).sum := by
  intro t n
  obtain ⟨s, hpositions, hkept, hreached, ⟨hsize, hplaced⟩, hanswers⟩ :=
    exists_reached hactive hlookup hrun
  rw [← hpositions, ← hkept]
  refine ⟨hanswers, hreached.kept, hsize, fun i pos hpos => ?_⟩
  have h := hplaced i pos hpos
  have hi : i < n := Nat.lt_of_lt_of_eq (Array.getElem?_eq_some_iff.mp hpos).1 hsize
  -- which glyph is widened depends on the direction, so there are two cases for a join
  refine ⟨h.x, h.yAdvance, h.back, fun hleft => ⟨?_, ?_⟩, fun hright => ⟨?_, ?_⟩,
    exists_linksTo i, h.height hi⟩
  -- from left to right the first glyph of a join is widened
  · intro q hq
    have hgap := h.advance i q hq.lt_size hq (widened_of_left hleft i q).symm
    rwa [gap_of_left hleft] at hgap
  · intro hnone
    refine h.noAdvance fun p q _ hq heq => ?_
    rw [widened_of_left hleft] at heq
    exact hnone q (heq ▸ hq)
  -- from right to left it is the second one
  · intro p hp
    have hgap := h.advance p i hi hp (widened_of_right hright p i).symm
    rwa [gap_of_right hright] at hgap
  · intro hnone
    refine h.noAdvance fun p q _ hq heq => ?_
    rw [widened_of_right hright] at heq
    exact hnone p (heq ▸ hq)

/-! ## §4 Three joined glyphs, and a skipped one -/

/-! A font in which 2 is joined to 1 and to other glyphs 2, and marks are skipped. The glyph 5
is a mark. -/

namespace ThreeJoined

def subtables : Array CursivePos := #[⟨.glyphs #[1, 2],
  #[⟨none, some (.design 500 0)⟩, ⟨some (.design 20 10), some (.design 400 30)⟩]⟩]

def table : ActiveTable Positioning where
  layout := {
    scripts := #[]
    features := #[]
    lookups := #[{ flag := ⟨8⟩, subtables := .cursive subtables }] }
  bits := #[1]

def context : PosContext Unit where
  gdef := some { classes := some (.ranges #[⟨5, 5, 3⟩]) }
  params := {}
  source := { contour := PosSource.noOutlines, metric := PosSource.noMetrics }

/-- The glyphs 1, 5, 2, 2, 3. -/
def before : PosOutcome Unit where
  glyphs := #[⟨1, 1, 0, 0, 0, none⟩, ⟨5, 1, 1, 0, 0, none⟩, ⟨2, 1, 2, 0, 0, none⟩,
    ⟨2, 1, 3, 0, 0, none⟩, ⟨3, 1, 4, 0, 0, none⟩]
  positions := #[]
  kept := ()

def pass : CursivePass Unit := ⟨context, ⟨8⟩, subtables, 1, before⟩

/-- The third glyph is joined to the first one across the mark, and the fourth one to the third. So
    the fourth one is moved by 10 units down and 20 up. -/
theorem fourth_moved :
    table.active = [(0, 1)] ∧ table.layout.lookup 0 = .ok ⟨⟨8⟩, .cursive subtables⟩ ∧
    (table.position context before).1 = .ok () ∧ pass.LinksTo [(2, 3), (0, 2)] 3 ∧
    ∀ pos, (table.position context before).2.positions[3]? = some pos →
      pos = { y := 10 } := by
  have hactive : table.active = [(0, 1)] := by decide
  have hlookup : table.layout.lookup 0 = .ok ⟨⟨8⟩, .cursive subtables⟩ := rfl
  have hrun : (table.position context before).1 = .ok () := by decide +kernel
  have hthird : pass.Follows 0 2 := by decide +kernel
  have hfourth : pass.Follows 2 3 := by decide +kernel
  have hfirst : ∀ p, ¬ pass.Follows p 0 := fun p h => Nat.not_lt_zero p h.lt
  -- the last glyph of the text is the mark, which joins nothing
  have hlast : ∀ q, ¬ pass.Follows 3 q := fun q h => by
    have hq : q < 5 := h.lt_size
    have hlow : 3 < q := h.lt
    obtain rfl : q = 4 := by omega
    exact absurd h (by decide +kernel)
  have hlinks : pass.LinksTo [(2, 3), (0, 2)] 3 := .joined (.joined (.first hfirst) hthird) hfourth
  have hposition : table.position context before = (.ok (), (table.position context before).2) := by
    rw [← hrun]
  obtain ⟨-, -, -, hpositions⟩ := cursive_positions context table hactive hlookup hposition
  refine ⟨hactive, hlookup, hrun, hlinks, fun pos hpos => ?_⟩
  obtain ⟨hx, hyAdvance, hback, hleft, -, -, hy⟩ := hpositions 3 pos hpos
  obtain ⟨hxAdvance, hnewAdvance⟩ := (hleft rfl).2 hlast
  have hheight : pos.y = 10 := (hy _ hlinks).trans (by decide +kernel)
  -- all fields but the height are those of a position that nothing has changed
  obtain ⟨x, y, xAdvance, yAdvance, newAdvance, back⟩ := pos
  simp only at hx hyAdvance hback hxAdvance hnewAdvance hheight
  rw [hx, hheight, hxAdvance, hyAdvance, hnewAdvance, hback]

end ThreeJoined

/-! A font in which 2 may be joined to 1, but glyphs of the class of bases are skipped, and
1 is one. -/

namespace SkippedFirst

/-- The layout table as a font stores it. -/
def data : ByteArray := ⟨#[
  0x00, 0x01, 0x00, 0x00, 0x00, 0x00, 0x00, 0x00, 0x00, 0x0A,
  -- one lookup
  0x00, 0x01, 0x00, 0x04, 0x00, 0x03, 0x00, 0x02, 0x00, 0x01, 0x00, 0x08,
  -- 2 may be joined to 1
  0x00, 0x01, 0x00, 0x0E, 0x00, 0x02, 0x00, 0x00, 0x00, 0x16, 0x00, 0x1C, 0x00, 0x00,
  0x00, 0x01, 0x00, 0x02, 0x00, 0x01, 0x00, 0x02,
  0x00, 0x01, 0x01, 0xF4, 0x00, 0x00,
  0x00, 0x01, 0x00, 0x14, 0x00, 0x0A]⟩

def joins : CursivePos :=
  ⟨.glyphs #[1, 2], #[⟨none, some (.design 500 0)⟩, ⟨some (.design 20 10), none⟩]⟩

def table : ActiveTable Positioning where
  layout := {
    scripts := #[]
    features := #[]
    lookups := #[{ flag := ⟨2⟩, subtables := .cursive #[joins] }] }
  bits := #[1]

theorem ofWindow_data : LayoutTable.ofWindow (Window.ofBytes data) = .ok table.layout := by
  rw [LayoutTable.ofWindow_eq_afresh]
  decide +kernel

def context : PosContext Unit where
  gdef := some { classes := some (.block 1 #[1]) }
  params := {}
  source := { contour := PosSource.noOutlines, metric := PosSource.noMetrics }

/-- The glyphs 1 and 2. -/
def before : PosOutcome Unit where
  glyphs := #[⟨1, 1, 0, 0, 0, none⟩, ⟨2, 1, 1, 0, 0, none⟩]
  positions := #[]
  kept := ()

/-- The lookup is active at both glyphs and covers them, neither is a mark, glyphs may join the
    first one, the second one can be joined, and there is no glyph between them. But the lookup
    skips the first one, and the second one is not joined to it. -/
theorem second_not_joined :
    LayoutTable.ofWindow (Window.ofBytes data) = .ok table.layout ∧ table.active = [(0, 1)] ∧
    table.layout.lookup 0 = .ok ⟨⟨2⟩, .cursive #[joins]⟩ ∧
    (∀ item ∈ before.glyphs.toList,
      item.isActive 1 = true ∧ (Gdef.propertyIn context.gdef item).isMark = false) ∧
    joins.find 1 = .ok (some ⟨none, some (.design 500 0)⟩) ∧
    joins.find 2 = .ok (some ⟨some (.design 20 10), none⟩) ∧
    before.glyphs.map (Gdef.admits context.gdef ⟨2⟩) = #[false, true] ∧
    (table.position context before).1 = .ok () ∧
    (table.position context before).2.positions = #[{}, {}] ∧
    (table.position context before).2.positions[0]?.map Position.xAdvance ≠ some (500 - 20) :=
  ⟨ofWindow_data, by decide, rfl, by decide +kernel, by decide, by decide, by decide +kernel,
    by decide +kernel, by decide +kernel, by decide +kernel⟩

end SkippedFirst

end OpenTypeLayout
