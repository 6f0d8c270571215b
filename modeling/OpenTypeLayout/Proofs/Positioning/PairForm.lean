import Mathlib.Data.Nat.Init
import OpenTypeLayout.Proofs.Positioning.Contract

/-!
# Adjusted pairs

A lookup that adjusts the first glyphs of pairs goes from the first glyph of a pair that it has
adjusted to the second one, which may begin the next pair, and from any other glyph to the next one.
This module shows that no pair is left out and none is met twice: the position of a glyph is what
its own pair says, and nothing else.

- `PairPos.Has` says that a subtable has a pair, in either format.
- `PosContext.adjustment` is a value record as the position that it makes out of nothing.
- `PairPass.Reached` is the invariant of going through the text, wherever a step ends.
- `pair_positions` is the closed form.
-/

namespace OpenTypeLayout

/-! ## §1 Pairs -/

/-- A subtable covers the first glyph of a pair, and has a value for both glyphs: either in
    the first of the records of the first glyph that are for the second one, or for the
    classes of the two. -/
def PairPos.Has (s : PairPos) (first second : GlyphId) (v : PairValue) : Prop :=
  match s with
  | .byGlyph _ sets => ∃ index set earlier later, sets.coverage.index? first = some index ∧
      sets.entries[index.toNat]? = some set ∧ set.toList = earlier ++ (second, v) :: later ∧
      ∀ record ∈ earlier, record.1 ≠ second
  | .byClass coverage _ firstClasses secondClasses secondCount rows =>
    coverage.covers first = true ∧ (secondClasses.value second).toNat < secondCount ∧
      ∃ row, rows[(firstClasses.value first).toNat]? = some row ∧
        row[(secondClasses.value second).toNat]? = some v

theorem CoverageMap.find_eq_some_iff {α : Type} {m : CoverageMap α} {glyph : GlyphId} {entry : α} :
    m.find glyph = .ok (some entry) ↔
      ∃ index, m.coverage.index? glyph = some index ∧ m.entries[index.toNat]? = some entry := by
  unfold find
  cases m.coverage.index? glyph with
  | none => simp
  | some index =>
    cases hentry : m.entries[index.toNat]? with
    | none => simp [hentry]
    | some entry' => simp [hentry]

/-- What the records of a first glyph say about a second one is in the first record for that one. -/
theorem PairPos.find?_eq_some_iff {set : Array (GlyphId × PairValue)} {second : GlyphId}
    {v : PairValue} :
    (set.find? fun (glyph, _) => glyph = second).map Prod.snd = some v ↔
      ∃ earlier later, set.toList = earlier ++ (second, v) :: later ∧
        ∀ record ∈ earlier, record.1 ≠ second := by
  rw [← Array.find?_toList, Option.map_eq_some_iff]
  constructor
  · rintro ⟨⟨glyph, value⟩, hfind, rfl⟩
    obtain ⟨hglyph, earlier, later, hset, hearlier⟩ := List.find?_eq_some_iff_append.mp hfind
    obtain rfl := of_decide_eq_true hglyph
    exact ⟨earlier, later, hset, fun record hrecord => by simpa using hearlier record hrecord⟩
  · rintro ⟨earlier, later, hset, hearlier⟩
    refine ⟨(second, v),
      List.find?_eq_some_iff_append.mpr ⟨decide_eq_true rfl, earlier, later, hset, ?_⟩,
      rfl⟩
    exact fun record hrecord => by simpa using hearlier record hrecord

theorem PairPos.apply_eq_some_iff {s : PairPos} {first second : GlyphId} {v : PairValue} :
    s.apply first second = .ok (some v) ↔ s.Has first second v := by
  -- each format has its own search, and both find the first record there is
  cases s with
  | byGlyph format sets =>
    have hset : (byGlyph format sets).apply first second = .ok (some v) ↔
        ∃ set, sets.find first = .ok (some set) ∧
          (set.find? fun (glyph, _) => glyph = second).map Prod.snd = some v := by
      rw [apply]
      rcases sets.find first with cause | _ | set <;> simp [bind, Except.bind, pure, Except.pure]
    simp only [hset, CoverageMap.find_eq_some_iff, find?_eq_some_iff, Has]
    constructor
    · rintro ⟨set, ⟨index, hindex, hentry⟩, earlier, later, hrecords⟩
      exact ⟨index, set, earlier, later, hindex, hentry, hrecords⟩
    · rintro ⟨index, set, earlier, later, hindex, hentry, hrecords⟩
      exact ⟨set, ⟨index, hindex, hentry⟩, earlier, later, hrecords⟩
  | byClass coverage format firstClasses secondClasses secondCount rows =>
    simp only [apply, Has, ← Option.bind_eq_some_iff]
    split
    case isFalse hcovers => simp [hcovers]
    -- both checks of the format are among the conditions
    case isTrue hcovers =>
      split
      case isFalse hcolumn => simp [hcolumn]
      case isTrue hcolumn =>
        rw [and_iff_right hcovers, and_iff_right hcolumn]
        split
        case h_1 value hvalue => simp [hvalue]
        case h_2 hnone => simp [hnone]

/-! ## §2 Adjustments -/

/-- Ask for the value of a metric, if there is one. -/
def PosContext.asked {σ : Type} (c : PosContext σ) (id : Option UInt16) : Program σ Int32 := do
  match id with
  | none => return 0
  | some id =>
    let (value, kept) := c.source.metric (← get) id
    set kept
    value

/-- The position of a glyph that is adjusted by a value record, and not otherwise. The metrics are
    asked for one after the other. -/
def PosContext.adjustment {σ : Type} (c : PosContext σ) (v : ValueRecord) : Program σ Position := do
  let x ← c.asked v.xPlacement.metric
  let y ← c.asked v.yPlacement.metric
  let xAdvance ← c.asked v.xAdvance.metric
  let yAdvance ← c.asked v.yAdvance.metric
  return {
    x := c.params.xAmount v.xPlacement + x
    y := c.params.yAmount v.yPlacement + y
    xAdvance := c.params.xAmount v.xAdvance + xAdvance
    yAdvance := c.params.yAmount v.yAdvance + yAdvance }

namespace PosM

variable {σ : Type} {c : PosContext σ} {s s' : PosState σ} {index : Nat}

theorem addMetric_eq_ok {id : Option UInt16} {add : Int32 → Position → Position}
    (hadd : ∀ p, add 0 p = p) (hrun : Program.outcome (addMetric c index id add) s = (.ok (), s')) :
    ∃ n kept, (c.asked id).outcome s.kept = (.ok n, kept) ∧
      s' = { s with positions := s.positions.modify index (add n), kept } := by
  cases id with
  | none =>
    cases hrun
    exact ⟨0, s.kept, rfl, by rw [modify_eq_self hadd]⟩
  | some id =>
    obtain ⟨n, s₁, hmetric, hrun⟩ := Program.outcome_bind_eq_ok hrun
    cases hrun
    rw [outcome_metric] at hmetric
    obtain ⟨hvalue, rfl⟩ := Prod.mk.inj hmetric
    exact ⟨n, _, Prod.ext hvalue rfl, rfl⟩

/-- A glyph without adjustments gets just those of a value record. -/
theorem adjust_eq_ok {v : ValueRecord} (hzero : s.positions[index]? = some {})
    (hrun : Program.outcome (adjust c v index) s = (.ok (), s')) :
    ∃ pos kept, (c.adjustment v).outcome s.kept = (.ok pos, kept) ∧
      s' = { s with positions := s.positions.modify index fun _ => pos, kept } := by
  -- the four amounts are asked for one after the other, and each hands on what is kept
  obtain ⟨_, s₁, hplain, hrun⟩ := Program.outcome_bind_eq_ok hrun
  cases hplain
  obtain ⟨_, s₂, hrunX, hrun⟩ := Program.outcome_bind_eq_ok hrun
  obtain ⟨x, kept₂, hx, rfl⟩ := addMetric_eq_ok (fun p => by simp) hrunX
  obtain ⟨_, s₃, hrunY, hrun⟩ := Program.outcome_bind_eq_ok hrun
  obtain ⟨y, kept₃, hy, rfl⟩ := addMetric_eq_ok (fun p => by simp) hrunY
  obtain ⟨_, s₄, hrunAdvance, hrun⟩ := Program.outcome_bind_eq_ok hrun
  obtain ⟨xAdvance, kept₄, hxAdvance, rfl⟩ := addMetric_eq_ok (fun p => by simp) hrunAdvance
  obtain ⟨yAdvance, kept, hyAdvance, rfl⟩ := addMetric_eq_ok (fun p => by simp) hrun
  let pos : Position := {
    x := c.params.xAmount v.xPlacement + x
    y := c.params.yAmount v.yPlacement + y
    xAdvance := c.params.xAmount v.xAdvance + xAdvance
    yAdvance := c.params.yAmount v.yAdvance + yAdvance }
  refine ⟨pos, kept, ?_, ?_⟩
  · rw [PosContext.adjustment, Program.outcome_bind_ok hx, Program.outcome_bind_ok hy,
      Program.outcome_bind_ok hxAdvance, Program.outcome_bind_ok hyAdvance]
    rfl
  · simp only [PosState.mk.injEq, true_and, and_true]
    -- the position was zero, so adding the amounts gives the amounts
    apply Array.ext_getElem?
    intro i
    simp only [Array.getElem?_modify]
    by_cases hi : index = i
    · subst hi
      simp [hzero, PosParams.adjust, pos]
    · simp [hi]

theorem outcome_adjust_empty : Program.outcome (adjust c {} index) s = (.ok (), s) := by
  have hrun : Program.outcome (adjust c {} index) s =
      (.ok (), { s with positions := s.positions.modify index (c.params.adjust {}) }) := rfl
  rw [hrun, modify_eq_self (adjust_empty c.params)]

end PosM

/-- Subtables that do not adjust second glyphs say where the next pair may begin besides what they
    say about a pair. -/
theorem PosM.firstAnswer_pairAnswer {subtables : List PairPos} (first second : GlyphId)
    (place : Nat) (h : ∀ s ∈ subtables, s.adjustsSecond = false) :
    firstAnswer (pairAnswer first second place) subtables =
      (firstAnswer (fun s => s.apply first second) subtables).map
        (Option.map fun v => (v, place)) := by
  induction subtables with
  | nil => rfl
  | cons s rest ih =>
    obtain ⟨hs, hrest⟩ := List.forall_mem_cons.mp h
    rw [firstAnswer, firstAnswer, pairAnswer, hs, if_neg Bool.false_ne_true]
    rcases s.apply first second with cause | _ | v
    · rfl
    · exact ih hrest
    · rfl

/-! ## §3 The pass -/

/-- The pass of a lookup that adjusts pairs over a text. -/
structure PairPass (σ : Type) where
  /-- What stays the same. -/
  context : PosContext σ
  /-- The flag of the lookup. -/
  flag : LookupFlag
  /-- The subtables of the lookup. -/
  subtables : Array PairPos
  /-- The bits of the glyphs at which the lookup is active. -/
  bits : UInt32
  /-- The text. -/
  before : PosOutcome σ

namespace PairPass

variable {σ : Type} (t : PairPass σ)

/-- Which glyphs count. -/
def filter : GlyphFilter := ⟨t.context.gdef, t.flag⟩

/-- The pair that begins at an index: if the lookup is active at the glyph there and does not skip
    it, it is that glyph and the next one that counts. -/
def pairAt? (i : Nat) : Option (GlyphId × GlyphId) :=
  t.before.glyphs[i]?.bind fun item =>
    if item.isActive t.bits && t.filter.admits item then
      (t.filter.next? t.before.glyphs i).bind fun q =>
        t.before.glyphs[q]?.map fun second => (item.glyph, second.glyph)
    else none

/-- What the subtables say about the pair that begins at an index. -/
def answerAt (i : Nat) : Except ParseError (Option PairValue) :=
  match t.pairAt? i with
  | none => .ok none
  | some (first, second) => firstAnswer (fun s => s.apply first second) t.subtables.toList

/-- What the source keeps when it has been asked about the pairs that begin before an index. -/
def keptBefore : Nat → σ
  | 0 => t.before.kept
  | i + 1 =>
    match t.answerAt i with
    | .ok (some v) => ((t.context.adjustment v.first).outcome (keptBefore i)).2
    | _ => keptBefore i

/-- A position is what the pair that begins at an index makes of it. -/
inductive Placed (i : Nat) : Position → Prop
  /-- There is no such pair, or no subtable has it. -/
  | untouched (h : t.answerAt i = .ok none) : Placed i {}
  /-- The first glyph of the pair is adjusted. -/
  | adjusted {v : PairValue} {pos : Position} (h : t.answerAt i = .ok (some v))
      (hpos : (t.context.adjustment v.first).outcome (t.keptBefore i) =
        (.ok pos, t.keptBefore (i + 1))) : Placed i pos

/-- What is known when the text has been gone through up to an index. -/
structure Reached (i : Nat) (s : PosState σ) : Prop where
  /-- It is the same text. -/
  text : settled t.context.gdef s.glyphs = settled t.context.gdef t.before.glyphs
  /-- The source has been asked about the pairs that begin before. -/
  kept : s.kept = t.keptBefore i
  size : s.positions.size = t.before.glyphs.size
  /-- The positions before the index are what they have to be. -/
  placed : ∀ j < i, ∀ pos, s.positions[j]? = some pos → t.Placed j pos
  /-- The others have not been touched. -/
  untouched : ∀ j, i ≤ j → ∀ pos, s.positions[j]? = some pos → pos = {}

variable {t} {i k : Nat} {s s' : PosState σ} {item : GlyphItem}

theorem keptBefore_of_none (h : t.answerAt i = .ok none) :
    t.keptBefore (i + 1) = t.keptBefore i := by
  rw [keptBefore, h]

/-- An index at which there is nothing to do can be gone past. -/
theorem Reached.idle (hs : t.Reached i s) (hanswer : t.answerAt i = .ok none)
    (htext : settled t.context.gdef s'.glyphs = settled t.context.gdef s.glyphs)
    (hpositions : s'.positions = s.positions) (hkept : s'.kept = s.kept) :
    t.Reached (i + 1) s' where
  text := htext.trans hs.text
  kept := by rw [hkept, hs.kept, keptBefore_of_none hanswer]
  size := hpositions ▸ hs.size
  placed j hj pos hpos := by
    rw [hpositions] at hpos
    rcases Nat.lt_succ_iff_lt_or_eq.mp hj with hj | rfl
    · exact hs.placed j hj pos hpos
    · obtain rfl := hs.untouched j (Nat.le_refl j) pos hpos
      exact .untouched hanswer
  untouched j hj pos hpos := hs.untouched j (Nat.le_of_succ_le hj) pos (hpositions ▸ hpos)

/-- So can any number of them. -/
theorem Reached.skipTo (hs : t.Reached i s) (hle : i ≤ k)
    (hanswers : ∀ j, i ≤ j → j < k → t.answerAt j = .ok none) : t.Reached k s := by
  induction k, hle using Nat.le_induction with
  | base => exact hs
  | succ k hle ih =>
    have hreached := ih fun j hij hjk => hanswers j hij (Nat.lt_succ_of_lt hjk)
    exact hreached.idle (hanswers k hle (Nat.lt_succ_self k)) rfl rfl rfl

/-- The glyph at the index is adjusted. -/
theorem Reached.adjusted {v : PairValue} {pos : Position} {kept : σ} (hs : t.Reached i s)
    (hanswer : t.answerAt i = .ok (some v))
    (hpos : (t.context.adjustment v.first).outcome s.kept = (.ok pos, kept)) :
    t.Reached (i + 1) { s with positions := s.positions.modify i fun _ => pos, kept } := by
  rw [hs.kept] at hpos
  have hkept : t.keptBefore (i + 1) = kept := by
    rw [keptBefore, hanswer]
    exact congrArg Prod.snd hpos
  -- up to this glyph everything is placed, and behind it nothing has been touched
  refine ⟨hs.text, hkept.symm, (Array.size_modify).trans hs.size, fun j hj pos' hpos' => ?_,
    fun j hj pos' hpos' => ?_⟩
  all_goals
    dsimp only at hpos'
    rw [Array.getElem?_modify] at hpos'
  · rcases Nat.lt_succ_iff_lt_or_eq.mp hj with hlt | rfl
    · rw [if_neg (Nat.ne_of_gt hlt)] at hpos'
      exact hs.placed j hlt pos' hpos'
    · rw [if_pos rfl] at hpos'
      obtain ⟨_, -, rfl⟩ := Option.map_eq_some_iff.mp hpos'
      exact .adjusted hanswer (hkept ▸ hpos)
  · rw [if_neg (by omega)] at hpos'
    exact hs.untouched j (by omega) pos' hpos'

theorem Reached.remember (hs : t.Reached i s) (low high : Nat) :
    t.Reached i { s with glyphs := rememberRange t.context.gdef s.glyphs low high } :=
  { hs with text := (settled_rememberRange t.context.gdef s.glyphs low high).trans hs.text }

/-! ## §4 Steps of the pass -/

theorem answerAt_of_pairAt?_none (h : t.pairAt? i = none) : t.answerAt i = .ok none := by
  rw [answerAt, h]

/-- No pair begins at a glyph that is skipped. -/
theorem pairAt?_of_skipped (hitem : t.before.glyphs[i]? = some item)
    (h : (item.isActive t.bits && t.filter.admits item) = false) : t.pairAt? i = none := by
  rw [pairAt?, hitem, Option.bind_some, h, if_neg Bool.false_ne_true]

/-- No pair begins at the last glyph that counts. -/
theorem pairAt?_of_last (h : t.filter.next? t.before.glyphs i = none) : t.pairAt? i = none := by
  rw [pairAt?, h]
  cases t.before.glyphs[i]? with
  | none => rfl
  | some item => exact ite_self _

theorem pairAt?_of_next {second : GlyphItem} {q : Nat} (hitem : t.before.glyphs[i]? = some item)
    (hcounts : (item.isActive t.bits && t.filter.admits item) = true)
    (hnext : t.filter.next? t.before.glyphs i = some q)
    (hsecond : t.before.glyphs[q]? = some second) :
    t.pairAt? i = some (item.glyph, second.glyph) := by
  rw [pairAt?, hitem, Option.bind_some, if_pos hcounts, hnext, Option.bind_some, hsecond,
    Option.map_some]

/-- Applying the subtables at a glyph that is not skipped. If the glyph is adjusted, the pass goes
    on with the second glyph of the pair, and no pair begins between the two. -/
theorem Reached.applyPair {x : GlyphItem} {answer : Option Nat} (hs : t.Reached i s)
    (hx : t.before.glyphs[i]? = some x) (hcounts : (x.isActive t.bits && t.filter.admits x) = true)
    (hglyph : item.glyph = x.glyph) (hplain : ∀ p ∈ t.subtables, p.adjustsSecond = false)
    (hfit : ∀ p ∈ t.subtables, p.SecondsFit)
    (hrun : Program.outcome (PosM.applyPair t.context t.flag t.subtables i item) s =
      (.ok answer, s')) :
    i < answer.getD (i + 1) ∧ t.Reached (answer.getD (i + 1)) s' := by
  -- the glyphs that have been looked up are skipped or not as those of the original text are
  have halike := TextsAlike.of_settled hs.text
  have hnext : (GlyphFilter.mk t.context.gdef t.flag).next? s.glyphs i =
      t.filter.next? t.before.glyphs i := halike.next? t.flag i
  rw [PosM.applyPair, Program.outcome_get_bind, hnext] at hrun
  cases hq : t.filter.next? t.before.glyphs i with
  | none =>
    rw [hq] at hrun
    cases hrun
    exact ⟨Nat.lt_succ_self i,
      (hs.remember _ _).idle (answerAt_of_pairAt?_none (pairAt?_of_last hq)) rfl rfl rfl⟩
  | some q =>
    have hnextAt := GlyphFilter.next?_eq_some_iff.mp hq
    obtain ⟨second, hsecond, -⟩ := (Option.any_eq_true _ _).mp hnextAt.counts
    have hname : (s.glyphs[q]?.map GlyphItem.glyph).getD 0 = second.glyph := by
      rw [halike.glyph_getElem? q, hsecond]
      rfl
    rw [hq] at hrun
    dsimp only at hrun
    rw [hname, hglyph,
      PosM.firstAnswer_pairAnswer _ _ _ fun p hp => hplain p (Array.mem_toList_iff.mp hp)]
      at hrun
    obtain ⟨_, s₁, hremember, hrun⟩ := Program.outcome_bind_eq_ok hrun
    cases hremember
    have hs₁ := hs.remember (i + 1) (q + 1)
    obtain ⟨found, s₂, hlift, hrun⟩ := Program.outcome_bind_eq_ok hrun
    obtain ⟨hfound, rfl⟩ := Prod.mk.inj hlift
    have hanswer :
        t.answerAt i = firstAnswer (fun p => p.apply x.glyph second.glyph) t.subtables.toList := by
      rw [answerAt, pairAt?_of_next hx hcounts hq hsecond]
    have hfound := LayoutError.ofParse_eq_ok hfound
    rw [← hanswer] at hfound
    rcases hvalue : t.answerAt i with cause | _ | v
    case error =>
      rw [hvalue] at hfound
      cases hfound
    case ok.none =>
      rw [hvalue] at hfound
      cases hfound
      cases hrun
      exact ⟨Nat.lt_succ_self i, hs₁.idle hvalue rfl rfl rfl⟩
    case ok.some =>
      rw [hvalue] at hfound
      cases hfound
      -- the formats leave no room for a value of the second glyph, so nothing happens to it
      obtain ⟨p, hp, happly⟩ := firstAnswer_eq_some (hanswer.symm.trans hvalue)
      have hp := Array.mem_toList_iff.mp hp
      have hempty : v.second = {} := hfit p hp (hplain p hp) _ _ v happly
      have hinside : i < s.positions.size := by
        rw [hs.size]
        exact (Array.getElem?_eq_some_iff.mp hx).1
      -- no pair that ends here has adjusted the glyph before
      have hzero : s.positions[i]? = some {} := by
        have hpos := Array.getElem?_eq_getElem hinside
        rw [hpos, hs.untouched i (Nat.le_refl i) _ hpos]
      obtain ⟨_, s₂, hfirst, hrun⟩ := Program.outcome_bind_eq_ok hrun
      obtain ⟨pos, kept, hpos, rfl⟩ := PosM.adjust_eq_ok
        (s := { s with glyphs := rememberRange t.context.gdef s.glyphs (i + 1) (q + 1) })
        hzero hfirst
      rw [hempty] at hrun
      obtain ⟨_, s₃, hnothing, hrun⟩ := Program.outcome_bind_eq_ok hrun
      rw [PosM.outcome_adjust_empty] at hnothing
      cases hnothing
      cases hrun
      refine ⟨hnextAt.lt, (hs₁.adjusted hvalue hpos).skipTo hnextAt.lt fun j hij hjq => ?_⟩
      -- what is between the glyphs of the pair is skipped
      have hskipped := hnextAt.between j hjq hij
      have hqsize : q < t.before.glyphs.size := (Array.getElem?_eq_some_iff.mp hsecond).1
      have hj := Array.getElem?_eq_getElem (Nat.lt_trans hjq hqsize)
      rw [hj, Option.any_some] at hskipped
      exact answerAt_of_pairAt?_none (pairAt?_of_skipped hj (by rw [hskipped, Bool.and_false]))

/-- One step of the pass comes to where the next pair may begin. -/
theorem Reached.passStep {layout : LayoutTable Positioning} {levels lookupIndex next : Nat}
    (hlookup : layout.lookup lookupIndex = .ok ⟨t.flag, .pair t.subtables⟩)
    (hplain : ∀ p ∈ t.subtables, p.adjustsSecond = false) (hfit : ∀ p ∈ t.subtables, p.SecondsFit)
    (hs : t.Reached i s) (hitem : s.glyphs[i]? = some item)
    (hrun : Program.outcome (PosM.passStep
      (fun index => PosM.applyLookup t.context layout levels lookupIndex index noContext)
      t.bits item i) s = (.ok next, s')) :
    i < next ∧ t.Reached next s' := by
  obtain ⟨x, hx, hsame⟩ := getElem?_of_settled hs.text hitem
  have hactive : x.isActive t.bits = item.isActive t.bits := Gdef.isActive_of_remember hsame t.bits
  have hadmits : t.filter.admits x = Gdef.admits t.context.gdef t.flag item :=
    congrArg Option.isSome (Gdef.check_of_remember hsame t.flag)
  -- whether the glyph is inactive or is skipped, it is the first glyph of no pair
  have hskip : (item.isActive t.bits && Gdef.admits t.context.gdef t.flag item) = false →
      t.answerAt i = .ok none := fun hskipped => by
    rw [← hactive, ← hadmits] at hskipped
    exact answerAt_of_pairAt?_none (pairAt?_of_skipped hx hskipped)
  unfold PosM.passStep at hrun
  split at hrun
  case isFalse hinactive =>
    cases hrun
    have hskipped := hskip (by rw [Bool.eq_false_iff.mpr hinactive, Bool.false_and])
    exact ⟨Nat.lt_succ_self i, hs.idle hskipped rfl rfl rfl⟩
  case isTrue hitemActive =>
    obtain ⟨answer, s₁, happly, hrun⟩ := Program.outcome_bind_eq_ok hrun
    cases hrun
    obtain ⟨invoke, happly⟩ := PosM.applyLookup_eq_ok hlookup happly
    have hs₀ := hs.remember i (i + 1)
    rcases PosM.atGlyph_eq_ok hitem happly with ⟨hcheck, rfl, rfl⟩ | ⟨p, hcheck, happly⟩
    · have hskipped := hskip (by rw [Gdef.admits, hcheck, Option.isSome_none, Bool.and_false])
      exact ⟨Nat.lt_succ_self i, hs₀.idle hskipped rfl rfl rfl⟩
    · refine hs₀.applyPair hx ?_ (Gdef.glyph_of_remember hsame).symm hplain hfit happly
      rw [hactive, hadmits, hitemActive, Gdef.admits, hcheck]
      rfl

/-! ## §5 The whole text -/

/-- Wherever the pass is, it comes to the end of the text, and everything has been done by then. -/
theorem Reached.pass {layout : LayoutTable Positioning} {levels lookupIndex rounds : Nat}
    (hlookup : layout.lookup lookupIndex = .ok ⟨t.flag, .pair t.subtables⟩)
    (hplain : ∀ p ∈ t.subtables, p.adjustsSecond = false) (hfit : ∀ p ∈ t.subtables, p.SecondsFit)
    (hs : t.Reached i s) (hrounds : t.before.glyphs.size ≤ i + rounds)
    (hrun : Program.outcome (PosM.pass
      (fun index => PosM.applyLookup t.context layout levels lookupIndex index noContext)
      t.bits rounds i) s = (.ok (), s')) :
    ∃ k, t.before.glyphs.size ≤ k ∧ t.Reached k s' := by
  have hsize : s.glyphs.size = t.before.glyphs.size := size_of_settled hs.text
  -- one round is one step, from the first glyph of a pair to its second or to the next glyph
  induction rounds generalizing s i with
  | zero =>
    cases hrun
    exact ⟨i, hrounds, hs⟩
  | succ rounds ih =>
    rw [PosM.pass_succ, Program.outcome_get_bind] at hrun
    cases hitem : s.glyphs[i]? with
    | none =>
      rw [hitem] at hrun
      cases hrun
      exact ⟨i, hsize ▸ Array.getElem?_eq_none_iff.mp hitem, hs⟩
    | some item =>
      rw [hitem] at hrun
      obtain ⟨next, s₁, hstep, hrun⟩ := Program.outcome_bind_eq_ok hrun
      obtain ⟨hlt, hs₁⟩ := hs.passStep hlookup hplain hfit hitem hstep
      exact ih hs₁ (by omega) hrun (size_of_settled hs₁.text)

/-- The source is not asked about what is past the end. -/
theorem Reached.atEnd (hs : t.Reached k s) (hk : t.before.glyphs.size ≤ k) :
    s.kept = t.keptBefore t.before.glyphs.size := by
  have hkept : t.keptBefore k = t.keptBefore t.before.glyphs.size := by
    clear hs
    induction k, hk using Nat.le_induction with
    | base => rfl
    | succ k hle ih =>
      have hpair : t.pairAt? k = none := by
        rw [pairAt?, Array.getElem?_eq_none hle, Option.bind_none]
      rw [keptBefore_of_none (answerAt_of_pairAt?_none hpair), ih]
  rw [hs.kept, hkept]

/-- If positioning a text does not fail, each position is what it has to be. -/
theorem placed_of_position {c : PosContext σ} {table : ActiveTable Positioning} {lookupIndex : Nat}
    {bits : UInt32} {flag : LookupFlag} {subtables : Array PairPos} {before after : PosOutcome σ}
    (hactive : table.active = [(lookupIndex, bits)])
    (hlookup : table.layout.lookup lookupIndex = .ok ⟨flag, .pair subtables⟩)
    (hplain : ∀ p ∈ subtables, p.adjustsSecond = false) (hfit : ∀ p ∈ subtables, p.SecondsFit)
    (hrun : table.position c before = (.ok (), after)) :
    let t : PairPass σ := ⟨c, flag, subtables, bits, before⟩
    after.positions.size = before.glyphs.size ∧ after.kept = t.keptBefore before.glyphs.size ∧
      ∀ i pos, after.positions[i]? = some pos → t.Placed i pos := by
  intro t
  obtain ⟨s, hpass, rfl⟩ := PosM.position_eq_ok hactive hrun
  have hstart : t.Reached 0 (PosM.startOf before) :=
    ⟨rfl, rfl, by simp [PosM.startOf, t], fun j hj => absurd hj (Nat.not_lt_zero j),
      fun j _ pos hpos => PosM.eq_zero_of_startOf hpos⟩
  obtain ⟨k, hk, hreached⟩ := hstart.pass hlookup hplain hfit
    (Nat.le_of_eq (Nat.zero_add before.glyphs.size).symm) hpass
  refine ⟨hreached.size, hreached.atEnd hk, fun i pos hpos => hreached.placed i ?_ pos hpos⟩
  exact Nat.lt_of_lt_of_le (hreached.size ▸ (Array.getElem?_eq_some_iff.mp hpos).1) hk

end PairPass

open PairPass in
/-- **Adjusted pairs.** If the only active lookup adjusts pairs, none of its subtables adjusts
    second glyphs, and positioning does not fail, this is what comes out. A glyph at which the
    lookup is active and that it does not skip makes a pair with the next glyph that it does not
    skip. The position of the glyph is the adjustment by the first value of the first subtable that
    has the pair, once and from nothing. It is zero if there is no such subtable or no next glyph,
    and so are the positions of all other glyphs. -/
theorem pair_positions {σ : Type} (c : PosContext σ) (table : ActiveTable Positioning) {w : Window}
    (hread : LayoutTable.ofWindow w = .ok table.layout) {lookupIndex : Nat} {bits : UInt32}
    {flag : LookupFlag} {subtables : Array PairPos} (hactive : table.active = [(lookupIndex, bits)])
    (hlookup : table.layout.lookup lookupIndex = .ok ⟨flag, .pair subtables⟩)
    (hplain : ∀ p ∈ subtables, p.adjustsSecond = false) {before after : PosOutcome σ}
    (hrun : table.position c before = (.ok (), after)) :
    let f : GlyphFilter := ⟨c.gdef, flag⟩
    let t : PairPass σ := ⟨c, flag, subtables, bits, before⟩
    after.positions.size = before.glyphs.size ∧ after.kept = t.keptBefore before.glyphs.size ∧
    ∀ i item pos, before.glyphs[i]? = some item → after.positions[i]? = some pos →
      (item.isActive bits = false ∨ f.admits item = false → pos = {}) ∧
      (item.isActive bits = true → f.admits item = true →
        ((∀ q, ¬ f.NextAt before.glyphs i q) → pos = {}) ∧
        ∀ q second, f.NextAt before.glyphs i q → before.glyphs[q]? = some second →
          ((∀ p ∈ subtables, ∀ v, ¬ p.Has item.glyph second.glyph v) → pos = {}) ∧
          ∀ earlier p later v, subtables.toList = earlier ++ p :: later →
            (∀ e ∈ earlier, ∀ v, ¬ e.Has item.glyph second.glyph v) →
              p.Has item.glyph second.glyph v →
            (c.adjustment v.first).outcome (t.keptBefore i) = (.ok pos, t.keptBefore (i + 1))) := by
  intro f t
  have hfit := (LayoutTable.loaded_of_ofWindow hread hlookup).pairs
  obtain ⟨hsize, hkept, hplaced⟩ := PairPass.placed_of_position hactive hlookup hplain hfit hrun
  refine ⟨hsize, hkept, fun i item pos hitem hpos => ?_⟩
  -- what a glyph has got is decided by what the pass answers at it
  have hplaced : t.Placed i pos := hplaced i pos hpos
  have hzero : t.answerAt i = .ok none → pos = {} := fun hnone => by
    cases hplaced with
    | untouched => rfl
    | adjusted h => cases hnone.symm.trans h
  refine ⟨fun hskipped => ?_,
    fun hcounted hadmits => ⟨fun hlast => ?_, fun q second hq hsecond => ?_⟩⟩
  · exact hzero (answerAt_of_pairAt?_none
      (pairAt?_of_skipped hitem (Bool.and_eq_false_iff.mpr hskipped)))
  -- behind the glyph there is none that the lookup processes
  · cases hnext : f.next? before.glyphs i with
    | none => exact hzero (answerAt_of_pairAt?_none (pairAt?_of_last hnext))
    | some q => exact absurd (GlyphFilter.next?_eq_some_iff.mp hnext) (hlast q)
  -- there is a second glyph, and the subtables are asked about both
  · have hanswer : t.answerAt i =
        firstAnswer (fun p => p.apply item.glyph second.glyph) subtables.toList := by
      rw [answerAt, pairAt?_of_next (t := t) hitem (Bool.and_eq_true_iff.mpr ⟨hcounted, hadmits⟩)
        (GlyphFilter.next?_eq_some_iff.mpr hq) hsecond]
    -- no subtable has the pair, or there is a first one that has
    refine ⟨fun hnone => ?_, fun earlier p later v hlist hearlier hp => ?_⟩
    · cases hplaced with
      | untouched => rfl
      | adjusted h =>
        obtain ⟨p, hp, happly⟩ := firstAnswer_eq_some (hanswer.symm.trans h)
        exact absurd (PairPos.apply_eq_some_iff.mp happly) (hnone p (Array.mem_toList_iff.mp hp) _)
    · rw [hlist] at hanswer
      have hfirst : ∀ found, t.answerAt i = .ok found → found = some v := fun found h =>
        firstAnswer_of_earlier (fun e he v h => hearlier e he v (PairPos.apply_eq_some_iff.mp h))
          (PairPos.apply_eq_some_iff.mpr hp) (hanswer.symm.trans h)
      cases hplaced with
      | untouched h => cases hfirst _ h
      | adjusted h hpos =>
        cases hfirst _ h
        exact hpos

/-! A font in which marks are skipped. The pair 10 and 21 is brought 50 units closer together, and
    any other pair that begins with 10 or 21 by 20 units. The glyph 30 is a mark. -/

namespace TwoPairs

/-- The layout table as a font stores it. -/
def data : ByteArray := ⟨#[
  0x00, 0x01, 0x00, 0x00, 0x00, 0x00, 0x00, 0x00, 0x00, 0x0A,
  -- one lookup with two subtables
  0x00, 0x01, 0x00, 0x04, 0x00, 0x02, 0x00, 0x08, 0x00, 0x02, 0x00, 0x0A, 0x00, 0x22,
  -- by glyph: 10 and 21
  0x00, 0x01, 0x00, 0x0C, 0x00, 0x04, 0x00, 0x00, 0x00, 0x01, 0x00, 0x12,
  0x00, 0x01, 0x00, 0x01, 0x00, 0x0A,
  0x00, 0x01, 0x00, 0x15, 0xFF, 0xCE,
  -- by class: 10 or 21 and any glyph
  0x00, 0x02, 0x00, 0x12, 0x00, 0x04, 0x00, 0x00, 0x00, 0x1A, 0x00, 0x1A, 0x00, 0x01, 0x00, 0x01,
  0xFF, 0xEC,
  0x00, 0x01, 0x00, 0x02, 0x00, 0x0A, 0x00, 0x15,
  0x00, 0x02, 0x00, 0x00]⟩

def closer (units : Int16) : PairValue :=
  { first := { xAdvance := { design := some (-units) } }, second := {} }

def byGlyph : PairPos :=
  .byGlyph ⟨0⟩ { coverage := .glyphs #[10], entries := #[#[(21, closer 50)]] }

def byClass : PairPos :=
  .byClass (.glyphs #[10, 21]) ⟨0⟩ (.ranges #[]) (.ranges #[]) 1 #[#[closer 20]]

def table : ActiveTable Positioning where
  layout := {
    scripts := #[]
    features := #[]
    lookups := #[{ flag := ⟨8⟩, subtables := .pair #[byGlyph, byClass] }] }
  bits := #[1]

def context : PosContext Unit where
  gdef := some { classes := some (.ranges #[⟨30, 30, 3⟩]) }
  params := {}
  source := { contour := PosSource.noOutlines, metric := PosSource.noMetrics }

/-- The glyphs 10, 30, 21 and 10. -/
def before : PosOutcome Unit where
  glyphs := #[⟨10, 1, 0, 0, 0, none⟩, ⟨30, 1, 1, 0, 0, none⟩, ⟨21, 1, 2, 0, 0, none⟩,
    ⟨10, 1, 3, 0, 0, none⟩]
  positions := #[]
  kept := ()

theorem ofWindow_data : LayoutTable.ofWindow (Window.ofBytes data) = .ok table.layout := by
  rw [LayoutTable.ofWindow_eq_afresh]
  decide +kernel

/-- The first glyph and the third one make a pair across the mark, and the third one makes another
    pair with the last one, which the first subtable does not have. -/
theorem both_adjusted :
    LayoutTable.ofWindow (Window.ofBytes data) = .ok table.layout ∧ table.active = [(0, 1)] ∧
    table.layout.lookup 0 = .ok ⟨⟨8⟩, .pair #[byGlyph, byClass]⟩ ∧
    (∀ p ∈ #[byGlyph, byClass], p.adjustsSecond = false) ∧
    (table.position context before).1 = .ok () ∧
    ∀ pos : Position,
      ((table.position context before).2.positions[0]? = some pos → pos = { xAdvance := -50 }) ∧
      ((table.position context before).2.positions[1]? = some pos → pos = {}) ∧
      ((table.position context before).2.positions[2]? = some pos → pos = { xAdvance := -20 }) ∧
      ((table.position context before).2.positions[3]? = some pos → pos = {}) := by
  have hactive : table.active = [(0, 1)] := by decide
  have hlookup : table.layout.lookup 0 = .ok ⟨⟨8⟩, .pair #[byGlyph, byClass]⟩ := rfl
  have hplain : ∀ p ∈ #[byGlyph, byClass], p.adjustsSecond = false := by decide
  have hrun : (table.position context before).1 = .ok () := by decide +kernel
  have hposition : table.position context before = (.ok (), (table.position context before).2) := by
    rw [← hrun]
  obtain ⟨-, -, hpositions⟩ :=
    pair_positions context table ofWindow_data hactive hlookup hplain hposition
  refine ⟨ofWindow_data, hactive, hlookup, hplain, hrun, fun pos => ⟨fun hpos => ?_, fun hpos => ?_,
    fun hpos => ?_, fun hpos => ?_⟩⟩
  · obtain ⟨-, hfirst⟩ := ((hpositions 0 _ pos rfl hpos).2 (by decide) (by decide +kernel)).2 2 _
      (by decide +kernel) rfl
    have hadjusted := hfirst [] byGlyph [byClass] (closer 50) rfl (fun e he => nomatch he)
      (PairPos.apply_eq_some_iff.mp (by decide +kernel))
    have hfifty : (context.adjustment (closer 50).first).outcome () =
        (.ok { xAdvance := -50 }, ()) := by
      decide +kernel
    exact Except.ok.inj (congrArg Prod.fst (hadjusted.symm.trans hfifty))
  · exact (hpositions 1 _ pos rfl hpos).1 (.inr (by decide +kernel))
  · obtain ⟨-, hfirst⟩ := ((hpositions 2 _ pos rfl hpos).2 (by decide) (by decide +kernel)).2 3 _
      (by decide +kernel) rfl
    -- the pair is in no set of the first subtable
    have hother : ∀ e ∈ [byGlyph], ∀ v, ¬ e.Has 21 10 v := fun e he v hv => by
      have hnone : byGlyph.apply 21 10 = .ok none := by decide +kernel
      rw [List.mem_singleton.mp he] at hv
      cases hnone.symm.trans (PairPos.apply_eq_some_iff.mpr hv)
    have hadjusted := hfirst [byGlyph] byClass [] (closer 20) rfl hother
      (PairPos.apply_eq_some_iff.mp (by decide +kernel))
    have htwenty : (context.adjustment (closer 20).first).outcome () =
        (.ok { xAdvance := -20 }, ()) := by
      decide +kernel
    exact Except.ok.inj (congrArg Prod.fst (hadjusted.symm.trans htwenty))
  -- the last glyph of the text has none behind it
  · refine ((hpositions 3 _ pos rfl hpos).2 (by decide) (by decide +kernel)).1 fun q hq => ?_
    obtain ⟨item, hitem, -⟩ := (Option.any_eq_true _ _).mp hq.counts
    have hinside : q < 4 := (Array.getElem?_eq_some_iff.mp hitem).1
    have hlt := hq.lt
    omega

end TwoPairs

end OpenTypeLayout
