import OpenTypeLayout.Proofs.Lookalikes
import OpenTypeLayout.Proofs.Positioning.Amounts
import OpenTypeLayout.Proofs.Positioning.Parts

/-!
# Two ways of positioning

A text is positioned in two ways: with other glyph definitions, other parameters, another source or
other amounts in the table. What the two runs have in common is said by a relation of positions and
one of points.

- `PosM.Coupling` is two ways of positioning together with these relations, and `Coupled` holds of
  the states of both.
- `Coupling.Lawful` says that the relations are kept by adding a value record and by looking up an
  anchor. Only these look at the parameters, at the source and at the amounts of the table.
- `Lawful.relates_applyLookup` carries this through all lookup types and all nesting, and
  `Lawful.position` through whole runs.
-/

namespace OpenTypeLayout

namespace PosM

open Program (Relates Corresponds)

/-! ## §1 Couplings -/

/-- What points and what positions have in common is kept by all that is done with them. -/
structure Congruence (points : Point → Point → Prop) (positions : Position → Position → Prop) :
    Prop where
  refl : ∀ a, points a a
  start : positions {} {}
  addX : ∀ {p p'} (n : Int32), positions p p' → positions { p with x := p.x + n }
    { p' with x := p'.x + n }
  addY : ∀ {p p'} (n : Int32), positions p p' → positions { p with y := p.y + n }
    { p' with y := p'.y + n }
  addXAdvance : ∀ {p p'} (n : Int32), positions p p' →
    positions { p with xAdvance := p.xAdvance + n } { p' with xAdvance := p'.xAdvance + n }
  addYAdvance : ∀ {p p'} (n : Int32), positions p p' →
    positions { p with yAdvance := p.yAdvance + n } { p' with yAdvance := p'.yAdvance + n }
  /-- A glyph that is joined, or the one before it, gets a new advance. -/
  joined : ∀ {a a' b b' p p'}, points a a' → points b b' → positions p p' →
    positions { p with xAdvance := a.x - b.x, newAdvance := true }
      { p' with xAdvance := a'.x - b'.x, newAdvance := true }
  /-- A glyph that is joined is moved up or down, starting from the height of another one. -/
  raised : ∀ {a a' b b' p p' q q'}, points a a' → points b b' → positions q q' → positions p p' →
    positions { p with y := a.y - b.y + q.y } { p' with y := a'.y - b'.y + q'.y }
  attached : ∀ {a a' b b' p p'}, points a a' → points b b' → positions p p' →
    positions { p with x := (a.sub b).x, y := (a.sub b).y, xAdvance := 0, yAdvance := 0 }
      { p' with x := (a'.sub b').x, y := (a'.sub b').y, xAdvance := 0, yAdvance := 0 }
  linked : ∀ {p p'} (back : UInt16), positions p p' → positions { p with back } { p' with back }

theorem Congruence.eq : Congruence Eq Eq where
  refl _ := rfl
  start := rfl
  addX _ h := h ▸ rfl
  addY _ h := h ▸ rfl
  addXAdvance _ h := h ▸ rfl
  addYAdvance _ h := h ▸ rfl
  joined ha hb hp := ha ▸ hb ▸ hp ▸ rfl
  raised ha hb hq hp := ha ▸ hb ▸ hq ▸ hp ▸ rfl
  attached ha hb hp := ha ▸ hb ▸ hp ▸ rfl
  linked _ h := h ▸ rfl

/-- Two ways of positioning, and what their points, their positions and what their sources keep have
    in common. The table of the second one is that of the first one with other amounts. -/
structure Coupling (σ σ' : Type) where
  /-- What stays the same the first way. -/
  context : PosContext σ
  /-- What stays the same the second way. -/
  context' : PosContext σ'
  /-- The value record that the second table has in place of one of the first. -/
  value : ValueRecord → ValueRecord := id
  /-- The anchor that the second table has in place of one of the first. -/
  anchor : Anchor → Anchor := id
  /-- What points have in common. -/
  points : Point → Point → Prop := Eq
  /-- What positions have in common. -/
  positions : Position → Position → Prop := Eq
  /-- What the sources keep has in common. -/
  kept : σ → σ' → Prop
  /-- What holds of each glyph of the first text. -/
  items : GlyphItem → Prop := fun _ => True

namespace Coupling

variable {σ σ' : Type}

/-- The texts look alike, all positions and the chains have in common what they should, and so has
    what the sources keep. -/
structure Coupled (k : Coupling σ σ') (s : PosState σ) (s' : PosState σ') : Prop where
  glyphs : TextsAlike k.context.gdef k.context'.gdef s.glyphs s'.glyphs
  positions : Pointwise k.positions s.positions s'.positions
  chain : Option.Rel (fun last last' => last'.1 = last.1 ∧ k.points last.2 last'.2) s.chain s'.chain
  kept : k.kept s.kept s'.kept
  items : ∀ x ∈ s.glyphs, k.items x

/-- What points and positions have in common is kept by every step, and what holds of glyphs goes on
    to hold when properties are kept with them. -/
structure Lawful (k : Coupling σ σ') : Prop extends Congruence k.points k.positions where
  items : ∀ x, k.items x → k.items (Gdef.remember k.context.gdef x)
  direction : k.context'.params.rightToLeft = k.context.params.rightToLeft
  adjust : ∀ v index, Relates k.Coupled Eq (adjust k.context v index)
    (adjust k.context' (k.value v) index)
  anchorPoint : ∀ a glyph, Relates k.Coupled k.points (anchorPoint k.context a glyph)
    (anchorPoint k.context' (k.anchor a) glyph)

/-! ## §2 Single steps -/

section Steps

variable {k : Coupling σ σ'}

theorem Lawful.relates_remember (hk : k.Lawful) (low high low' high' : Nat) :
    Relates k.Coupled Eq (remember k.context low high) (remember k.context' low' high') :=
  .modify fun _ _ hs => { hs with
    glyphs := hs.glyphs.rememberRange low high low' high'
    items := forall_mem_rememberRange hk.items hs.items low high }

theorem relates_modifyPosition (index : Nat) {f f' : Position → Position}
    (hf : ∀ p p', k.positions p p' → k.positions (f p) (f' p')) :
    Relates k.Coupled Eq (modifyPosition index f) (modifyPosition index f') :=
  .modify fun _ _ hs => { hs with positions := hs.positions.modify index hf }

theorem relates_breakChain : Relates k.Coupled Eq (breakChain (σ := σ)) breakChain :=
  .modify fun _ _ hs => { hs with chain := .none }

theorem Lawful.relates_atGlyph (hk : k.Lawful)
    {action : GlyphItem → GlyphProperty → PosM σ (Option Nat)}
    {action' : GlyphItem → GlyphProperty → PosM σ' (Option Nat)} (flag : LookupFlag) (index : Nat)
    (haction : ∀ x y p, Gdef.Alike k.context.gdef k.context'.gdef x y →
      Relates k.Coupled Eq (action x p) (action' y p)) :
    Relates k.Coupled Eq (atGlyph k.context flag index action)
      (atGlyph k.context' flag index action') := by
  refine .get_bind fun s s' hs => ?_
  rcases hs.glyphs.getElem?_cases index with ⟨hx, hy⟩ | ⟨x, y, hx, hy, hxy⟩
  · rw [hx, hy]
    exact .pure rfl
  · rw [hx, hy]
    refine (hk.relates_remember _ _ _ _).andThen fun _ => ?_
    rw [hxy.check]
    cases Gdef.check k.context.gdef flag x with
    | none => exact .pure rfl
    | some p => exact haction x y p hxy

end Steps

/-! ## §3 Lookups without context -/

theorem pairAnswer_mapAmounts (value : ValueRecord → ValueRecord) (first second : GlyphId)
    (secondIndex : Nat) (s : PairPos) :
    pairAnswer first second secondIndex (s.mapAmounts value) =
      (pairAnswer first second secondIndex s).map
        (Option.map (Prod.map (PairValue.mapAmounts value) id)) := by
  rw [pairAnswer, pairAnswer, s.apply_mapAmounts, s.adjustsSecond_mapAmounts]
  rcases s.apply first second with _ | _ | v <;> rfl

namespace Lawful

variable {k : Coupling σ σ'} {x y : GlyphItem} {index : Nat}

theorem relates_applySingle (hk : k.Lawful) (subtables : Array SinglePos)
    (hxy : Gdef.Alike k.context.gdef k.context'.gdef x y) :
    Relates k.Coupled Eq (applySingle k.context subtables index x)
      (applySingle k.context' (subtables.map (SinglePos.mapAmounts k.value)) index y) := by
  unfold applySingle
  rw [hxy.glyph, Array.toList_map, firstAnswer_map fun s => s.apply_mapAmounts k.value x.glyph]
  refine (Relates.parse_map _ _).bind fun found _ hfound => ?_
  subst hfound
  cases found with
  | none => exact .pure rfl
  | some v => exact (hk.adjust v index).andThen fun _ => .pure rfl

theorem relates_applyPair (hk : k.Lawful) (flag : LookupFlag) (subtables : Array PairPos)
    (hxy : Gdef.Alike k.context.gdef k.context'.gdef x y) :
    Relates k.Coupled Eq (applyPair k.context flag subtables index x)
      (applyPair k.context' flag (subtables.map (PairPos.mapAmounts k.value)) index y) := by
  -- the next glyph that counts is at the same index, so that the same pair is looked for
  refine .get_bind fun s s' hs => ?_
  rw [hs.glyphs.next?]
  cases (GlyphFilter.mk k.context.gdef flag).next? s.glyphs index with
  | none => exact (hk.relates_remember _ _ _ _).andThen fun _ => .pure rfl
  | some secondIndex =>
    dsimp only
    rw [hs.glyphs.glyph_getElem?, hxy.glyph, Array.toList_map,
      firstAnswer_map fun p => pairAnswer_mapAmounts k.value _ _ _ p]
    refine (hk.relates_remember _ _ _ _).andThen fun _ => ?_
    refine (Relates.parse_map _ _).bind fun found _ hfound => ?_
    subst hfound
    cases found with
    | none => exact .pure rfl
    | some found =>
      refine (hk.adjust found.1.first index).andThen fun _ => ?_
      exact (hk.adjust found.1.second secondIndex).andThen fun _ => .pure rfl

theorem relates_join (hk : k.Lawful) {entry entry' exit exit' : Point} (last : Nat)
    (hentry : k.points entry entry') (hexit : k.points exit exit') :
    Relates k.Coupled Eq (join k.context index entry last exit)
      (join k.context' index entry' last exit') := by
  -- the height of the last glyph is that of some position, even if there is no such glyph
  have hraise : Relates k.Coupled Eq
      (do
        let height := ((← get).positions[last]?.map Position.y).getD 0
        modifyPosition index fun p => { p with y := exit.y - entry.y + height } : PosM σ Unit)
      (do
        let height := ((← get).positions[last]?.map Position.y).getD 0
        modifyPosition index fun p => { p with y := exit'.y - entry'.y + height }) := by
    refine .get_bind fun s s' hs => relates_modifyPosition index fun p p' hp => ?_
    rcases hs.positions.getElem?_cases last with ⟨hq, hq'⟩ | ⟨q, q', hq, hq', hqq⟩
    · rw [hq, hq']
      exact hk.raised hexit hentry hk.start hp
    · rw [hq, hq']
      exact hk.raised hexit hentry hqq hp
  unfold join
  rw [hk.direction]
  split
  · exact (relates_modifyPosition index fun p p' hp => hk.joined hentry hexit hp).andThen
      fun _ => hraise
  · exact (relates_modifyPosition last fun p p' hp => hk.joined hexit hentry hp).andThen
      fun _ => hraise

theorem relates_joinToChain (hk : k.Lawful) (joins : EntryExit)
    (hxy : Gdef.Alike k.context.gdef k.context'.gdef x y) :
    Relates k.Coupled Eq (joinToChain k.context index x joins)
      (joinToChain k.context' index y (joins.mapAnchors k.anchor)) := by
  -- there is a chain in both runs or in neither, and it has come to the same glyph
  refine .get_bind fun s s' hs => ?_
  have hchain := hs.chain
  revert hchain
  rcases s.chain with _ | ⟨last, exit⟩ <;> rcases s'.chain with _ | ⟨last', exit'⟩ <;> intro hchain
  · exact .pure rfl
  · exact nomatch hchain
  · exact nomatch hchain
  · obtain ⟨rfl, hexit⟩ := Option.rel_some_some.mp hchain
    rcases joins with ⟨_ | entry, _⟩
    · exact .pure rfl
    · dsimp only [EntryExit.mapAnchors, Option.map_some]
      rw [hxy.glyph]
      exact (hk.anchorPoint entry x.glyph).bind fun _ _ hentry => hk.relates_join _ hentry hexit

theorem relates_continueChain (hk : k.Lawful) (joins : EntryExit)
    (hxy : Gdef.Alike k.context.gdef k.context'.gdef x y) :
    Relates k.Coupled Eq (continueChain k.context index x joins)
      (continueChain k.context' index y (joins.mapAnchors k.anchor)) := by
  rcases joins with ⟨_, _ | exit⟩
  · exact relates_breakChain
  · dsimp only [continueChain, EntryExit.mapAnchors, Option.map_some]
    rw [hxy.glyph]
    refine (hk.anchorPoint exit x.glyph).bind fun _ _ hexit => ?_
    exact .modify fun _ _ hs => { hs with chain := .some ⟨rfl, hexit⟩ }

theorem relates_applyCursive (hk : k.Lawful) (subtables : Array CursivePos) (p : GlyphProperty)
    (hxy : Gdef.Alike k.context.gdef k.context'.gdef x y) :
    Relates k.Coupled Eq (applyCursive k.context subtables index x p)
      (applyCursive k.context' (subtables.map (CoverageMap.map (EntryExit.mapAnchors k.anchor)))
        index y p) := by
  rw [applyCursive_eq, applyCursive_eq, hxy.glyph, Array.toList_map,
    firstAnswer_map fun m => CoverageMap.find_map _ m x.glyph]
  refine .ite (relates_breakChain.andThen fun _ => .pure rfl) ?_
  refine (Relates.parse_map _ _).bind fun found _ hfound => ?_
  subst hfound
  cases found with
  | none => exact relates_breakChain.andThen fun _ => .pure rfl
  | some joins =>
    refine (hk.relates_joinToChain joins hxy).andThen fun _ => ?_
    exact (hk.relates_continueChain joins hxy).andThen fun _ => .pure rfl

/-! ## §4 Marks -/

theorem relates_attach (hk : k.Lawful) {a a' b b' : Point} (target : Nat) (ha : k.points a a')
    (hb : k.points b b') :
    Relates k.Coupled Eq (attach (σ := σ) index target a b) (attach index target a' b') := by
  refine (relates_modifyPosition index fun p p' hp => hk.attached ha hb hp).andThen fun _ => ?_
  refine (Relates.lift _).andThen fun back => ?_
  exact relates_modifyPosition index fun p p' hp => hk.linked back hp

theorem relates_attachAt (hk : k.Lawful) (target : Nat) (targetGlyph : GlyphId)
    (anchors : Except ParseError (Option (Anchor × Anchor)))
    (hxy : Gdef.Alike k.context.gdef k.context'.gdef x y) :
    Relates k.Coupled Eq (attachAt k.context index target x targetGlyph anchors)
      (attachAt k.context' index target y targetGlyph
        (anchors.map (Option.map (Prod.map k.anchor k.anchor)))) := by
  refine (Relates.parse_map _ _).bind fun found _ hfound => ?_
  subst hfound
  cases found with
  | none => exact .pure rfl
  | some found =>
    refine (hk.anchorPoint found.1 targetGlyph).bind fun _ _ htarget => ?_
    rw [hxy.glyph]
    refine (hk.anchorPoint found.2 x.glyph).bind fun _ _ hmark => ?_
    exact (hk.relates_attach target htarget hmark).andThen fun _ => .pure rfl

/-- The same glyph is found, and it looks the same. -/
theorem relates_findTarget (hk : k.Lawful) :
    Relates k.Coupled
      (Option.Rel fun t t' => t'.1 = t.1 ∧
        Gdef.Alike k.context.gdef k.context'.gdef t.2.1 t'.2.1 ∧ t'.2.2 = t.2.2)
      (findTarget k.context index) (findTarget k.context' index) := by
  refine .get_bind fun s s' hs => ?_
  dsimp only
  rw [hs.glyphs.markTarget?]
  refine (hk.relates_remember _ _ _ _).andThen fun _ => .pure ?_
  rcases markTarget? k.context.gdef s.glyphs index with _ | ⟨target, p⟩
  · exact .none
  · rcases hs.glyphs.getElem?_cases target with ⟨hx, hy⟩ | ⟨x, y, hx, hy, hxy⟩
    · simp only [Option.bind_some, hx, hy]
      exact .none
    · simp only [Option.bind_some, hx, hy]
      exact .some ⟨rfl, hxy, rfl⟩

/-- The same subtable covers a mark, whatever its anchors are. -/
theorem find?_coversMark {T : Type} (f : MarkAttach T → MarkAttach T) (glyph : GlyphId)
    (hf : ∀ a, (f a).coversMark glyph = a.coversMark glyph) (subtables : Array (MarkAttach T)) :
    (subtables.map f).find? (fun a => a.coversMark glyph) =
      (subtables.find? fun a => a.coversMark glyph).map f := by
  rw [Array.find?_map]
  congr 2
  exact funext hf

theorem relates_applyMarkBase (hk : k.Lawful) (subtables : Array MarkBasePos)
    (hxy : Gdef.Alike k.context.gdef k.context'.gdef x y) :
    Relates k.Coupled Eq (applyMarkBase k.context subtables index x)
      (applyMarkBase k.context' (subtables.map (MarkBasePos.mapAnchors k.anchor)) index y) := by
  unfold applyMarkBase
  rw [hxy.glyph, find?_coversMark (MarkBasePos.mapAnchors k.anchor) x.glyph fun _ => rfl]
  cases subtables.find? fun a => a.coversMark x.glyph with
  | none => exact .pure rfl
  | some subtable =>
    refine hk.relates_findTarget.bind fun found found' hfound => ?_
    cases hfound with
    | none => exact .pure rfl
    | @some t t' h =>
      obtain ⟨target, base, p⟩ := t
      obtain ⟨target', base', p'⟩ := t'
      obtain ⟨rfl, hbase, rfl⟩ := h
      dsimp only
      rw [hbase.glyph, MarkBasePos.apply_mapAnchors]
      exact .ite (hk.relates_attachAt _ _ _ hxy) (.pure rfl)

theorem relates_applyMarkLigature (hk : k.Lawful) (subtables : Array MarkLigPos)
    (hxy : Gdef.Alike k.context.gdef k.context'.gdef x y) :
    Relates k.Coupled Eq (applyMarkLigature k.context subtables index x)
      (applyMarkLigature k.context' (subtables.map (MarkLigPos.mapAnchors k.anchor)) index y) := by
  unfold applyMarkLigature
  -- the same subtable covers the mark on both sides, since anchors do not matter to coverage
  rw [hxy.glyph, find?_coversMark (MarkLigPos.mapAnchors k.anchor) x.glyph fun _ => rfl]
  cases subtables.find? fun a => a.coversMark x.glyph with
  | none => exact .pure rfl
  | some subtable =>
    refine hk.relates_findTarget.bind fun found found' hfound => ?_
    cases hfound with
    | none => exact .pure rfl
    -- the targets are in the same place and are of the same ligature
    | @some t t' h =>
      obtain ⟨target, ligature, p⟩ := t
      obtain ⟨target', ligature', p'⟩ := t'
      obtain ⟨rfl, hligature, rfl⟩ := h
      dsimp only
      rw [hligature.glyph, hligature.ligature, hxy.ligature, hxy.component,
        MarkLigPos.apply_mapAnchors]
      exact .ite (hk.relates_attachAt _ _ _ hxy) (.pure rfl)

theorem relates_applyMarkMark (hk : k.Lawful) (flag : LookupFlag) (subtables : Array MarkBasePos)
    (hxy : Gdef.Alike k.context.gdef k.context'.gdef x y) :
    Relates k.Coupled Eq (applyMarkMark k.context flag subtables index x)
      (applyMarkMark k.context' flag (subtables.map (MarkBasePos.mapAnchors k.anchor)) index
        y) := by
  unfold applyMarkMark
  rw [hxy.glyph, find?_coversMark (MarkBasePos.mapAnchors k.anchor) x.glyph fun _ => rfl]
  cases subtables.find? fun a => a.coversMark x.glyph with
  | none => exact .pure rfl
  | some subtable =>
    -- the glyphs that are looked at are skipped or not on both sides
    refine .get_bind fun s s' hs => ?_
    dsimp only
    rw [hs.glyphs.prev?]
    refine (hk.relates_remember _ _ _ _).andThen fun _ => ?_
    rcases (GlyphFilter.mk k.context.gdef flag).prev? s.glyphs index with _ | target
    · exact .pure rfl
    -- there is no glyph at the target, or there are two that are alike
    · rcases hs.glyphs.getElem?_cases target with ⟨ho, ho'⟩ | ⟨other, other', ho, ho', hother⟩
      · simp only [Option.bind_some, ho, ho']
        exact .pure rfl
      · simp only [Option.bind_some, ho, ho', Option.map_some]
        rw [hother.propertyIn, hother.glyph, MarkBasePos.apply_mapAnchors]
        exact .ite (hk.relates_attachAt _ _ _ hxy) (.pure rfl)

/-! ## §5 Lookups in context -/

section Invoking

variable {invoke : Invoke σ} {invoke' : Invoke σ'}

theorem relates_applyRecords
    (hinvoke : ∀ l index n, Relates k.Coupled Eq (invoke l index n) (invoke' l index n))
    (places : List Nat) (last rounds index : Nat) (records : List LookupRecord) :
    Relates k.Coupled Eq (applyRecords invoke places last rounds index records)
      (applyRecords invoke' places last rounds index records) := by
  induction rounds generalizing index records with
  | zero => exact .pure rfl
  | succ rounds ih =>
    rw [applyRecords_succ, applyRecords_succ]
    refine .ite (Relates.andThen ?_ fun _ => ih _ _) (.pure rfl)
    cases (nextRecord places index records).1 with
    | none => exact .pure rfl
    | some r => exact (Relates.lift _).andThen fun n => hinvoke r.lookupIndex.toNat index n

theorem relates_applyRule
    (hinvoke : ∀ l index n, Relates k.Coupled Eq (invoke l index n) (invoke' l index n))
    (flag : LookupFlag) (rule : RuleMatch) (index : Nat) :
    Relates k.Coupled Eq (applyRule k.context invoke flag rule index)
      (applyRule k.context' invoke' flag rule index) := by
  refine .get_bind fun s s' hs => ?_
  dsimp only
  rw [hs.glyphs.rulePlaces]
  exact relates_applyRecords hinvoke _ _ _ _ _

/-- The same rule is found. -/
theorem relates_findRule (hk : k.Lawful) (flag : LookupFlag) (index : Nat)
    (rules : List RuleCandidate) :
    Relates k.Coupled Eq (findRule k.context flag index rules)
      (findRule k.context' flag index rules) := by
  refine .get_bind fun s s' hs => ?_
  have hplace : TextPlace.Alike k.context.gdef k.context'.gdef ⟨s.glyphs, index, s.glyphs, index⟩
      ⟨s'.glyphs, index, s'.glyphs, index⟩ := ⟨hs.glyphs, rfl, hs.glyphs, rfl⟩
  dsimp only
  rw [hplace.firstMatch, hplace.reach]
  exact (hk.relates_remember _ _ _ _).andThen fun _ => .pure rfl

theorem relates_applyContext (hk : k.Lawful)
    (hinvoke : ∀ l index n, Relates k.Coupled Eq (invoke l index n) (invoke' l index n))
    (flag : LookupFlag) (contextLength : UInt16) (index : Nat)
    (hxy : Gdef.Alike k.context.gdef k.context'.gdef x y) (subtables : List ContextLookup) :
    Relates k.Coupled Eq (applyContext k.context invoke flag contextLength index x subtables)
      (applyContext k.context' invoke' flag contextLength index y subtables) := by
  induction subtables with
  | nil => exact .pure rfl
  | cons subtable rest ih =>
    rw [applyContext_cons, applyContext_cons, hxy.glyph]
    refine (Relates.lift _).andThen fun rules => ?_
    refine (hk.relates_findRule flag index rules).andThen fun found => ?_
    cases found with
    | none => exact ih
    | some rule => exact (relates_applyRule hinvoke flag rule index).andThen fun _ => .pure rfl

/-! ## §6 Lookups and passes -/

theorem relates_applySubtables (hk : k.Lawful)
    (hinvoke : ∀ l index n, Relates k.Coupled Eq (invoke l index n) (invoke' l index n))
    (lookup : Lookup Positioning) (index : Nat) (contextLength : UInt16) :
    Relates k.Coupled Eq (applySubtables k.context invoke lookup index contextLength)
      (applySubtables k.context' invoke' (lookup.mapAmounts k.value k.anchor) index
        contextLength) := by
  obtain ⟨flag, subtables⟩ := lookup
  -- each type is worked through on both sides in the same way, and its amounts are asked for in
  -- order
  cases subtables with
  | single subtables =>
    exact .ite (hk.relates_atGlyph flag index fun _ _ _ => hk.relates_applySingle subtables)
      (.pure rfl)
  | pair subtables =>
    exact .ite (hk.relates_atGlyph flag index fun _ _ _ => hk.relates_applyPair flag subtables)
      (.pure rfl)
  | cursive subtables =>
    exact .ite (hk.relates_atGlyph flag index fun _ _ p => hk.relates_applyCursive subtables p)
      (relates_breakChain.andThen fun _ => .pure rfl)
  | markBase subtables =>
    exact .ite (hk.relates_atGlyph flag index fun _ _ _ => hk.relates_applyMarkBase subtables)
      (.pure rfl)
  | markLigature subtables =>
    exact .ite (hk.relates_atGlyph flag index fun _ _ _ => hk.relates_applyMarkLigature subtables)
      (.pure rfl)
  | markMark subtables =>
    exact .ite (hk.relates_atGlyph flag index fun _ _ _ => hk.relates_applyMarkMark flag subtables)
      (.pure rfl)
  | context subtables | chained subtables =>
    exact hk.relates_atGlyph flag index fun _ _ _ hxy =>
      hk.relates_applyContext hinvoke flag contextLength index hxy subtables.toList

end Invoking

/-- By induction on the levels: rules invoke lookups with one level less. -/
theorem relates_applyLookup (hk : k.Lawful) (layout : LayoutTable Positioning)
    (levels lookupIndex index : Nat) (contextLength : UInt16) :
    Relates k.Coupled Eq (applyLookup k.context layout levels lookupIndex index contextLength)
      (applyLookup k.context' (layout.mapAmounts k.value k.anchor) levels lookupIndex index
        contextLength) := by
  induction levels generalizing lookupIndex index contextLength with
  | zero => exact .throw _
  | succ levels ih =>
    rw [applyLookup_succ, applyLookup_succ, layout.lookup_mapAmounts]
    refine (Relates.parse_map _ _).bind fun lookup _ hlookup => ?_
    subst hlookup
    exact hk.relates_applySubtables ih lookup index contextLength

theorem relates_pass {apply : Nat → PosM σ (Option Nat)} {apply' : Nat → PosM σ' (Option Nat)}
    (h : ∀ index, Relates k.Coupled Eq (apply index) (apply' index)) (bits : UInt32)
    (rounds index : Nat) :
    Relates k.Coupled Eq (pass apply bits rounds index) (pass apply' bits rounds index) := by
  induction rounds generalizing index with
  | zero => exact .pure rfl
  | succ rounds ih =>
    rw [pass_succ, pass_succ]
    refine .get_bind fun s s' hs => ?_
    rcases hs.glyphs.getElem?_cases index with ⟨hx, hy⟩ | ⟨x, y, hx, hy, hxy⟩
    · rw [hx, hy]
      exact .pure rfl
    · rw [hx, hy]
      dsimp only [passStep]
      rw [hxy.isActive]
      refine Relates.andThen (.ite ?_ ?_) fun next => ih next
      · exact (h index).andThen fun _ => .pure rfl
      · exact relates_breakChain.andThen fun _ => .pure rfl

theorem relates_passOf (hk : k.Lawful) (table : ActiveTable Positioning) (lookupIndex : Nat)
    (bits : UInt32) :
    Relates k.Coupled Eq (passOf k.context table lookupIndex bits)
      (passOf k.context' (table.mapAmounts k.value k.anchor) lookupIndex bits) := by
  refine relates_breakChain.andThen fun _ => .get_bind fun s s' hs => ?_
  -- as many glyphs are left in both runs, and so are rounds
  rw [hs.glyphs.size_eq]
  exact relates_pass (fun index => hk.relates_applyLookup table.layout _ _ index _) bits _ 0

theorem relates_applyActive (hk : k.Lawful) (table : ActiveTable Positioning)
    (active : List (Nat × UInt32)) :
    Relates k.Coupled Eq (applyActive k.context table active)
      (applyActive k.context' (table.mapAmounts k.value k.anchor) active) := by
  induction active with
  | nil => exact .pure rfl
  | cons first rest ih =>
    rw [applyActive_cons, applyActive_cons]
    exact (hk.relates_passOf table first.1 first.2).andThen fun _ => ih

end Lawful

/-! ## §7 Asking the sources -/

section Sources

variable {k : Coupling σ σ'}

/-- Two programs that ask for a metric get the same value if their sources give the same. -/
theorem relates_metric
    (h : ∀ kept kept' id, k.kept kept kept' →
      (k.context'.source.metric kept' id).1 = (k.context.source.metric kept id).1 ∧
        k.kept (k.context.source.metric kept id).2 (k.context'.source.metric kept' id).2)
    (id : UInt16) : Relates k.Coupled Eq (metric k.context id) (metric k.context' id) := by
  refine .get_bind fun s s' hs => ?_
  obtain ⟨hvalue, hkept⟩ := h s.kept s'.kept id hs.kept
  dsimp only
  rw [hvalue]
  exact Relates.andThen (.modify fun _ _ ht => { ht with kept := hkept }) fun _ => .lift _

theorem relates_contour
    (h : ∀ kept kept' glyph, k.kept kept kept' →
      (k.context'.source.contour kept' glyph k.context'.params.loadFlags).1 =
          (k.context.source.contour kept glyph k.context.params.loadFlags).1 ∧
        k.kept (k.context.source.contour kept glyph k.context.params.loadFlags).2
          (k.context'.source.contour kept' glyph k.context'.params.loadFlags).2)
    (glyph : GlyphId) :
    Relates k.Coupled Eq (contour k.context glyph) (contour k.context' glyph) := by
  refine .get_bind fun s s' hs => ?_
  obtain ⟨hpoints, hkept⟩ := h s.kept s'.kept glyph hs.kept
  dsimp only
  rw [hpoints]
  exact Relates.andThen (.modify fun _ _ ht => { ht with kept := hkept }) fun _ => .lift _

theorem relates_addMetric
    (hmetric : ∀ id, Relates k.Coupled Eq (metric k.context id) (metric k.context' id))
    {add : Int32 → Position → Position}
    (hadd : ∀ n p p', k.positions p p' → k.positions (add n p) (add n p')) (index : Nat)
    (id : Option UInt16) :
    Relates k.Coupled Eq (addMetric k.context index id add)
      (addMetric k.context' index id add) := by
  cases id with
  | none => exact .pure rfl
  | some id => exact (hmetric id).andThen fun n => relates_modifyPosition index (hadd n)

/-- A value record and one that names the same metrics are added, if the rest of them is. -/
theorem relates_adjust (hk : Congruence k.points k.positions)
    (hmetric : ∀ id, Relates k.Coupled Eq (metric k.context id) (metric k.context' id))
    {v v' : ValueRecord}
    (hv : v'.xPlacement.metric = v.xPlacement.metric ∧ v'.yPlacement.metric = v.yPlacement.metric ∧
      v'.xAdvance.metric = v.xAdvance.metric ∧ v'.yAdvance.metric = v.yAdvance.metric)
    (hadjust : ∀ p p', k.positions p p' →
      k.positions (k.context.params.adjust v p) (k.context'.params.adjust v' p')) (index : Nat) :
    Relates k.Coupled Eq (PosM.adjust k.context v index) (PosM.adjust k.context' v' index) := by
  obtain ⟨hx, hy, hxAdvance, hyAdvance⟩ := hv
  unfold PosM.adjust
  rw [hx, hy, hxAdvance, hyAdvance]
  refine (relates_modifyPosition index hadjust).andThen fun _ => ?_
  refine (relates_addMetric hmetric (fun n _ _ => hk.addX n) index _).andThen fun _ => ?_
  refine (relates_addMetric hmetric (fun n _ _ => hk.addY n) index _).andThen fun _ => ?_
  refine (relates_addMetric hmetric (fun n _ _ => hk.addXAdvance n) index _).andThen fun _ => ?_
  exact relates_addMetric hmetric (fun n _ _ => hk.addYAdvance n) index _

theorem relates_metricAnchor (hk : Congruence k.points k.positions)
    (hmetric : ∀ id, Relates k.Coupled Eq (metric k.context id) (metric k.context' id))
    (x y : UInt16) (glyph : GlyphId) :
    Relates k.Coupled k.points (PosM.anchorPoint k.context (.metric x y) glyph)
      (PosM.anchorPoint k.context' (.metric x y) glyph) :=
  (hmetric x).andThen fun _ => (hmetric y).andThen fun _ => .pure (hk.refl _)

end Sources

/-- Amounts that are scaled with either parameters have in common what they should. In all else the
    parameters are the same. -/
structure ParamsAgree (points : Point → Point → Prop) (positions : Position → Position → Prop)
    (params params' : PosParams) : Prop extends Congruence points positions where
  direction : params'.rightToLeft = params.rightToLeft
  deviceIndependent : params'.deviceIndependent = params.deviceIndependent
  loadFlags : params'.loadFlags = params.loadFlags
  design : ∀ x y, points (params.design x y) (params'.design x y)
  pixels : ∀ {a a'} (x y : Option Device), points a a' →
    points ⟨a.x + pixels x params.xPpem, a.y + pixels y params.yPpem⟩
      ⟨a'.x + pixels x params'.xPpem, a'.y + pixels y params'.yPpem⟩
  adjust : ∀ {p p'} (v : ValueRecord), positions p p' →
    positions (params.adjust v p) (params'.adjust v p')

theorem ParamsAgree.eq (params : PosParams) : ParamsAgree Eq Eq params params where
  toCongruence := .eq
  direction := rfl
  deviceIndependent := rfl
  loadFlags := rfl
  design _ _ := rfl
  pixels _ _ h := h ▸ rfl
  adjust _ h := h ▸ rfl

/-- The second source gives the same as the first one, as long as what they keep has in common what
    it should. -/
structure SourcesAgree (kept : σ → σ' → Prop) (source : PosSource σ) (source' : PosSource σ') :
    Prop where
  metric : ∀ {k k'} (id : UInt16), kept k k' → (source'.metric k' id).1 = (source.metric k id).1 ∧
    kept (source.metric k id).2 (source'.metric k' id).2
  contour : ∀ {k k'} (glyph : GlyphId) (flags : UInt32), kept k k' →
    (source'.contour k' glyph flags).1 = (source.contour k glyph flags).1 ∧
      kept (source.contour k glyph flags).2 (source'.contour k' glyph flags).2

theorem SourcesAgree.eq (source : PosSource σ) : SourcesAgree Eq source source where
  metric _ h := h ▸ ⟨rfl, rfl⟩
  contour _ _ h := h ▸ ⟨rfl, rfl⟩

/-- It is lawful to use the same table both ways, with parameters and sources that agree. -/
theorem Lawful.of_agree {k : Coupling σ σ'} (hvalue : k.value = id) (hanchor : k.anchor = id)
    (hitems : ∀ x, k.items x → k.items (Gdef.remember k.context.gdef x))
    (hparams : ParamsAgree k.points k.positions k.context.params k.context'.params)
    (hsource : SourcesAgree k.kept k.context.source k.context'.source) : k.Lawful where
  toCongruence := hparams.toCongruence
  items := hitems
  direction := hparams.direction
  adjust v index := by
    rw [hvalue]
    exact relates_adjust hparams.toCongruence (relates_metric fun _ _ => hsource.metric)
      ⟨rfl, rfl, rfl, rfl⟩ (fun _ _ => hparams.adjust v) index
  anchorPoint a glyph := by
    rw [hanchor]
    cases a with
    | design x y => exact .pure (hparams.design x y)
    | contour x y point =>
      unfold PosM.anchorPoint
      rw [hparams.deviceIndependent]
      refine .ite (.pure (hparams.design x y)) ?_
      refine (relates_contour (hparams.loadFlags ▸ fun _ _ _ => hsource.contour _ _) glyph).andThen
        fun points => .ite (.pure (hparams.design x y)) ?_
      cases points[point.toNat]? with
      | none => exact .throw _
      -- a point of an outline is taken as it is, without any scaling
      | some p => exact .pure (hparams.refl p)
    | adjusted x y xDevice yDevice =>
      unfold PosM.anchorPoint
      rw [hparams.deviceIndependent]
      exact .ite (.pure (hparams.design x y))
        (.pure (hparams.pixels xDevice yDevice (hparams.design x y)))
    | metric x y =>
      exact relates_metricAnchor hparams.toCongruence (relates_metric fun _ _ => hsource.metric)
        x y glyph

/-! ## §8 Whole runs -/

/-- What texts and what sources keep have in common before and after they are positioned. -/
structure Placed (k : Coupling σ σ') (run : PosOutcome σ) (run' : PosOutcome σ') : Prop where
  glyphs : TextsAlike k.context.gdef k.context'.gdef run.glyphs run'.glyphs
  positions : Pointwise k.positions run.positions run'.positions
  kept : k.kept run.kept run'.kept
  items : ∀ x ∈ run.glyphs, k.items x

/-- Both ways of positioning have the same result, and what they leave has in common what
    it should. -/
theorem Lawful.position {k : Coupling σ σ'} (hk : k.Lawful) (table : ActiveTable Positioning)
    {before : PosOutcome σ} {before' : PosOutcome σ'} (hbefore : k.Placed before before') :
    ((table.mapAmounts k.value k.anchor).position k.context' before').1 =
        (table.position k.context before).1 ∧
      k.Placed (table.position k.context before).2
        ((table.mapAmounts k.value k.anchor).position k.context' before').2 := by
  -- both texts are empty, or neither is
  have hempty : before'.glyphs.isEmpty = before.glyphs.isEmpty := by
    rw [Array.isEmpty, Array.isEmpty, hbefore.glyphs.size_eq]
  cases h : before.glyphs.isEmpty with
  | true =>
    rw [ActiveTable.position, ActiveTable.position, hempty, h, if_pos rfl, if_pos rfl]
    exact ⟨rfl, hbefore⟩
  | false =>
    rw [position_eq _ _ h, position_eq _ _ (hempty.trans h)]
    -- the positions begin as zero on both sides
    have hrun := hk.relates_applyActive table table.active
      ⟨before.glyphs, .replicate before.glyphs.size {}, none, before.kept⟩
      ⟨before'.glyphs, .replicate before'.glyphs.size {}, none, before'.kept⟩
      ⟨hbefore.glyphs, hbefore.glyphs.size_eq ▸ .replicate hk.start _, .none, hbefore.kept,
        hbefore.items⟩
    have hs := hrun.states
    exact ⟨hrun.answer_eq, hs.glyphs, hs.positions, hs.kept, hs.items⟩

end Coupling

/-- Texts that look alike are positioned in the same way. What holds of the glyphs of one of them
    goes on to hold if it does so when properties are kept with them. -/
theorem position_of_alike {σ : Type} {gdef gdef' : Option Gdef} {items items' : Array GlyphItem}
    (h : TextsAlike gdef gdef' items items') (table : ActiveTable Positioning) (params : PosParams)
    (source : PosSource σ) (positions : Array Position) (kept : σ) (holds : GlyphItem → Prop)
    (hremember : ∀ x, holds x → holds (Gdef.remember gdef x)) (hitems : ∀ x ∈ items, holds x) :
    let run := table.position ⟨gdef, params, source⟩ ⟨items, positions, kept⟩
    let run' := table.position ⟨gdef', params, source⟩ ⟨items', positions, kept⟩
    run'.1 = run.1 ∧ TextsAlike gdef gdef' run.2.glyphs run'.2.glyphs ∧
      run'.2.positions = run.2.positions ∧ run'.2.kept = run.2.kept ∧
      ∀ x ∈ run.2.glyphs, holds x := by
  -- the amounts are the same, so the tables are coupled with themselves
  let k : Coupling σ σ := {
    context := ⟨gdef, params, source⟩
    context' := ⟨gdef', params, source⟩
    kept := Eq
    items := holds }
  have hk : k.Lawful := .of_agree rfl rfl hremember (.eq params) (.eq source)
  have hplaced : k.Placed ⟨items, positions, kept⟩ ⟨items', positions, kept⟩ :=
    ⟨h, .refl fun _ _ => rfl, rfl, hitems⟩
  obtain ⟨hresult, hafter⟩ := hk.position table hplaced
  rw [table.mapAmounts_id] at hresult hafter
  exact ⟨hresult, hafter.glyphs, hafter.positions.eq, hafter.kept.symm, hafter.items⟩

end PosM

end OpenTypeLayout
