import OpenTypeLayout.Proofs.Positioning.Contract
import OpenTypeLayout.Proofs.Positioning.Visits

/-!
# Chains of joined glyphs

Joining lookups join glyphs to the last glyph of a chain. There is one chain for all lookups that
are applied in a pass. This module says where a chain can have come from when a glyph is joined to
it.

- `PosM.chain_of_joining` and `PosM.KeepsChain` are about single lookups: only those that join
  glyphs change the chain.
- `PosM.History` is the invariant of going through a text. Its step is `History.snoc_joining`, and
  `PosM.preserves_applyNoting` and `PosM.records_passLogged` are the runs.
- `joins_follow_chain`: the chain comes from the last glyph that a joining lookup has counted. In a
  pass of a joining lookup only glyphs that are skipped lie in between, but a rule may leave out
  other glyphs too.
-/

namespace OpenTypeLayout

namespace PosM

open PosState (Kept Ready beside)
open Program (Records within quiet_within)

variable {σ α β : Type}

/-! ## §1 Lookups that leave the chain alone -/

/-- If the program answers, the chain is what it was. -/
def KeepsChain (x : PosM σ α) : Prop :=
  ∀ s a s', Program.outcome x s = (.ok a, s') → s'.chain = s.chain

namespace KeepsChain

theorem pure (a : α) : KeepsChain (Pure.pure a : PosM σ α) := by
  intro s b s' h
  cases h
  rfl

theorem throw (e : LayoutError) : KeepsChain (throw e : PosM σ α) := fun _ _ _ h => nomatch h

theorem lift (r : Except LayoutError α) : KeepsChain (liftM r : PosM σ α) := by
  intro s a s' h
  exact congrArg PosState.chain (Prod.mk.inj h).2.symm

theorem bind {x : PosM σ α} {f : α → PosM σ β} (hx : KeepsChain x) (hf : ∀ a, KeepsChain (f a)) :
    KeepsChain (x >>= f) := by
  intro s b s' h
  obtain ⟨a, t, hrun, hrest⟩ := Program.outcome_bind_eq_ok h
  exact (hf a t b s' hrest).trans (hx s a t hrun)

theorem get_bind {f : PosState σ → PosM σ β} (hf : ∀ s, KeepsChain (f s)) :
    KeepsChain (get >>= f) := fun s => hf s s

theorem ite {condition : Prop} [Decidable condition] {x y : PosM σ α} (hx : KeepsChain x)
    (hy : KeepsChain y) : KeepsChain (if condition then x else y) := by
  split
  · exact hx
  · exact hy

end KeepsChain

variable (c : PosContext σ)

theorem keepsChain_remember (low high : Nat) : KeepsChain (remember c low high) := by
  intro s a s' h
  cases h
  rfl

theorem keepsChain_modifyPosition (index : Nat) (f : Position → Position) :
    KeepsChain (modifyPosition index f : PosM σ Unit) := by
  intro s a s' h
  cases h
  rfl

theorem keepsChain_metric (id : UInt16) : KeepsChain (metric c id) := by
  intro s a s' h
  obtain ⟨-, rfl⟩ := Prod.mk.inj ((outcome_metric c id s).symm.trans h)
  rfl

theorem keepsChain_contour (glyph : GlyphId) : KeepsChain (contour c glyph) := by
  intro s a s' h
  obtain ⟨-, rfl⟩ := Prod.mk.inj ((outcome_contour c glyph s).symm.trans h)
  rfl

theorem keepsChain_addMetric (index : Nat) (id : Option UInt16)
    (add : Int32 → Position → Position) : KeepsChain (addMetric c index id add) := by
  cases id with
  | none => exact .pure _
  | some id => exact (keepsChain_metric c id).bind fun _ => keepsChain_modifyPosition _ _

theorem keepsChain_adjust (v : ValueRecord) (index : Nat) : KeepsChain (adjust c v index) :=
  (keepsChain_modifyPosition _ _).bind fun _ =>
    (keepsChain_addMetric c _ _ _).bind fun _ =>
      (keepsChain_addMetric c _ _ _).bind fun _ =>
        (keepsChain_addMetric c _ _ _).bind fun _ => keepsChain_addMetric c _ _ _

theorem keepsChain_anchorPoint (a : Anchor) (glyph : GlyphId) :
    KeepsChain (anchorPoint c a glyph) := by
  unfold anchorPoint
  -- no form of an anchor does more than ask for what its place depends on
  cases a with
  | design x y => exact .pure _
  | contour x y point =>
    dsimp only
    split
    case isTrue => exact .pure _
    case isFalse =>
      refine (keepsChain_contour c glyph).bind fun points => ?_
      split
      case isTrue => exact .pure _
      case isFalse =>
        split
        case h_1 => exact .pure _
        case h_2 => exact .throw _
  | adjusted x y xDevice yDevice =>
    dsimp only
    split <;> exact .pure _
  | metric x y =>
    exact (keepsChain_metric c x).bind fun _ => (keepsChain_metric c y).bind fun _ => .pure _

theorem keepsChain_atGlyph (flag : LookupFlag) (index : Nat)
    {action : GlyphItem → GlyphProperty → PosM σ (Option Nat)}
    (haction : ∀ item p, KeepsChain (action item p)) :
    KeepsChain (atGlyph c flag index action) := by
  refine .get_bind fun s => ?_
  split
  case h_1 => exact .pure _
  case h_2 =>
    refine (keepsChain_remember c _ _).bind fun _ => ?_
    split
    case h_1 => exact .pure _
    case h_2 => exact haction _ _

theorem keepsChain_applySingle (subtables : Array SinglePos) (index : Nat) (item : GlyphItem) :
    KeepsChain (applySingle c subtables index item) := by
  refine (KeepsChain.lift _).bind fun found => ?_
  cases found with
  | none => exact .pure _
  | some value => exact (keepsChain_adjust c value index).bind fun _ => .pure _

theorem keepsChain_applyPair (flag : LookupFlag) (subtables : Array PairPos) (index : Nat)
    (item : GlyphItem) : KeepsChain (applyPair c flag subtables index item) := by
  refine .get_bind fun s => ?_
  split
  case h_1 => exact (keepsChain_remember c _ _).bind fun _ => .pure _
  case h_2 =>
    refine (keepsChain_remember c _ _).bind fun _ => (KeepsChain.lift _).bind fun found => ?_
    cases found with
    | none => exact .pure _
    | some found =>
      exact (keepsChain_adjust c _ _).bind fun _ => (keepsChain_adjust c _ _).bind fun _ => .pure _

theorem keepsChain_attachAt (index target : Nat) (mark : GlyphItem) (targetGlyph : GlyphId)
    (anchors : Except ParseError (Option (Anchor × Anchor))) :
    KeepsChain (attachAt c index target mark targetGlyph anchors) := by
  refine (KeepsChain.lift _).bind fun found => ?_
  cases found with
  | none => exact .pure _
  | some found =>
    refine (keepsChain_anchorPoint c _ _).bind fun _ =>
      (keepsChain_anchorPoint c _ _).bind fun _ => ?_
    refine KeepsChain.bind ?_ fun _ => .pure _
    exact (keepsChain_modifyPosition _ _).bind fun _ =>
      (KeepsChain.lift _).bind fun _ => keepsChain_modifyPosition _ _

theorem keepsChain_findTarget (index : Nat) : KeepsChain (findTarget c index) :=
  .get_bind fun _ => (keepsChain_remember c _ _).bind fun _ => .pure _

theorem keepsChain_applyMarkBase (subtables : Array MarkBasePos) (index : Nat) (item : GlyphItem) :
    KeepsChain (applyMarkBase c subtables index item) := by
  unfold applyMarkBase
  split
  case h_1 => exact .pure _
  case h_2 =>
    refine (keepsChain_findTarget c index).bind fun found => ?_
    split
    case h_1 => exact .pure _
    case h_2 =>
      exact KeepsChain.ite (keepsChain_attachAt c _ _ _ _ _) (.pure _)

theorem keepsChain_applyMarkLigature (subtables : Array MarkLigPos) (index : Nat)
    (item : GlyphItem) : KeepsChain (applyMarkLigature c subtables index item) := by
  unfold applyMarkLigature
  split
  case h_1 => exact .pure _
  case h_2 =>
    refine (keepsChain_findTarget c index).bind fun found => ?_
    split
    case h_1 => exact .pure _
    case h_2 =>
      exact KeepsChain.ite (keepsChain_attachAt c _ _ _ _ _) (.pure _)

theorem keepsChain_applyMarkMark (flag : LookupFlag) (subtables : Array MarkBasePos) (index : Nat)
    (item : GlyphItem) : KeepsChain (applyMarkMark c flag subtables index item) := by
  unfold applyMarkMark
  split
  case h_1 => exact .pure _
  case h_2 =>
    refine .get_bind fun s => (keepsChain_remember c _ _).bind fun _ => ?_
    split
    case h_1 => exact .pure _
    case h_2 =>
      exact KeepsChain.ite (keepsChain_attachAt c _ _ _ _ _) (.pure _)

/-! ## §2 Lookups that join glyphs -/

/-- A joining lookup counts the glyph at an index, and the next glyph may join it at a point. -/
def Leads (c : PosContext σ) (layout : LayoutTable Positioning) (text : Array GlyphItem)
    (lookupIndex index : Nat) (exit : Point) : Prop :=
  ∃ flag subtables item p joins anchor,
    layout.lookup lookupIndex = .ok ⟨flag, .cursive subtables⟩ ∧ text[index]? = some item ∧
    Gdef.check c.gdef flag item = some p ∧ p.isMark = false ∧
    firstAnswer (fun s : CursivePos => s.find item.glyph) subtables.toList = .ok (some joins) ∧
    joins.exit = some anchor ∧
    ∃ t t', Program.outcome (anchorPoint c anchor item.glyph) t = (.ok exit, t')

/-- A joining lookup is applied to a glyph that its flag makes it skip. -/
def Skips (c : PosContext σ) (layout : LayoutTable Positioning) (text : Array GlyphItem) :
    Visit → Prop
  | .inactive _ => False
  | .joining lookupIndex index contextLength _ =>
    fitsContext 1 contextLength = true ∧ ∃ flag subtables item,
      layout.lookup lookupIndex = .ok ⟨flag, .cursive subtables⟩ ∧ text[index]? = some item ∧
      Gdef.admits c.gdef flag item = false

variable {c} {layout : LayoutTable Positioning} {s s' : PosState σ} {text : Array GlyphItem}

/-- A joining lookup breaks the chain, leaves it because it skips the glyph, or lets it go on from
    the glyph. -/
theorem chain_of_joining {invoke : Invoke σ} {flag : LookupFlag} {subtables : Array CursivePos}
    {lookupIndex index : Nat} {contextLength : UInt16} {answer : Option Nat}
    (hlookup : layout.lookup lookupIndex = .ok ⟨flag, .cursive subtables⟩)
    (htext : settled c.gdef s.glyphs = settled c.gdef text) (hindex : index < s.glyphs.size)
    (hrun : Program.outcome
      (applySubtables c invoke ⟨flag, .cursive subtables⟩ index contextLength) s =
        (.ok answer, s')) :
    answer.getD (index + 1) = index + 1 ∧
      (s'.chain = none ∨
        (s'.chain = s.chain ∧
          ∀ chain, Skips c layout text (.joining lookupIndex index contextLength chain)) ∨
        ∃ exit, s'.chain = some (index, exit) ∧ Leads c layout text lookupIndex index exit) := by
  have hitem := Array.getElem?_eq_getElem hindex
  generalize s.glyphs[index] = item at hitem
  -- the glyph may have been looked up before, so it is compared with that of the original text
  obtain ⟨item₀, hitem₀, hsame⟩ := getElem?_of_settled htext hitem
  unfold applySubtables at hrun
  dsimp only at hrun
  split at hrun
  -- the context is too short for the lookup, and so the chain is broken
  case isFalse =>
    cases hrun
    exact ⟨rfl, .inl rfl⟩
  case isTrue hfits =>
    rw [atGlyph, Program.outcome_get_bind, hitem] at hrun
    dsimp only at hrun
    obtain ⟨_, t, hremember, hrun⟩ := Program.outcome_bind_eq_ok hrun
    -- looking the glyph up leaves the chain as it is
    have hchain : t.chain = s.chain := keepsChain_remember c _ _ _ _ _ hremember
    cases hcheck : Gdef.check c.gdef flag item with
    -- a glyph that the lookup skips is the one case in which the chain stays as it was
    | none =>
      rw [hcheck] at hrun
      cases hrun
      refine ⟨rfl,
        .inr (.inl ⟨hchain, fun _ => ⟨hfits, flag, subtables, item₀, hlookup, hitem₀, ?_⟩⟩)⟩
      rw [Gdef.admits, Gdef.check_of_remember hsame, hcheck, Option.isSome_none]
    | some p =>
      rw [hcheck] at hrun
      dsimp only at hrun
      rw [applyCursive_eq] at hrun
      split at hrun
      -- a mark breaks the chain
      case isTrue =>
        cases hrun
        exact ⟨rfl, .inl rfl⟩
      case isFalse hmark =>
        obtain ⟨found, t', hlift, hrun⟩ := Program.outcome_bind_eq_ok hrun
        obtain ⟨hfound, rfl⟩ := Prod.mk.inj hlift
        cases found with
        -- and so does a glyph without anchors
        | none =>
          cases hrun
          exact ⟨rfl, .inl rfl⟩
        | some joins =>
          -- whatever the glyph has been joined to, its own exit decides what comes next
          obtain ⟨-, t₁, -, hrun⟩ := Program.outcome_bind_eq_ok hrun
          obtain ⟨_, t₂, hcontinue, hrun⟩ := Program.outcome_bind_eq_ok hrun
          cases hrun
          refine ⟨rfl, ?_⟩
          unfold continueChain at hcontinue
          cases hexit : joins.exit with
          -- without an exit there is nothing to join the next glyph to
          | none =>
            rw [hexit] at hcontinue
            cases hcontinue
            exact .inl rfl
          -- with one, the chain leads on from here
          | some anchor =>
            rw [hexit] at hcontinue
            obtain ⟨exit, t₃, hexitPoint, hcontinue⟩ := Program.outcome_bind_eq_ok hcontinue
            cases hcontinue
            refine .inr (.inr ⟨exit, rfl, flag, subtables, item₀, p, joins, anchor, hlookup, hitem₀,
              ?_, Bool.eq_false_iff.mpr hmark, ?_, hexit, t₁, t₃, ?_⟩)
            · rw [Gdef.check_of_remember hsame, hcheck]
            · rw [Gdef.glyph_of_remember hsame]
              exact LayoutError.ofParse_eq_ok hfound
            · rw [Gdef.glyph_of_remember hsame]
              exact hexitPoint

/-! ## §3 What the visits say about the chain -/

/-- The visits since a chain was led to a glyph: all of them are to glyphs after it that
    are skipped. -/
def Since (c : PosContext σ) (layout : LayoutTable Positioning) (text : Array GlyphItem)
    (visits : List Visit) (last : Nat) (exit : Point) : Prop :=
  ∃ before lookupIndex contextLength chain after,
    visits = before ++ .joining lookupIndex last contextLength chain :: after ∧
    Leads c layout text lookupIndex last exit ∧
    ∀ v ∈ after, Skips c layout text v ∧ last < v.index

/-- Wherever a joining lookup has been applied, all visits before it were to earlier glyphs, and if
    there was a chain, the visits before it say where the chain has come from. -/
def Linked (c : PosContext σ) (layout : LayoutTable Positioning) (text : Array GlyphItem)
    (visits : List Visit) : Prop :=
  ∀ before lookupIndex index contextLength last exit after,
    visits = before ++ .joining lookupIndex index contextLength (some (last, exit)) :: after →
      Since c layout text before last exit ∧ ∀ v ∈ before, v.index < index

/-- What is known of the visits when the text has been gone through up to an index. -/
structure History (c : PosContext σ) (layout : LayoutTable Positioning) (text : Array GlyphItem)
    (chain : Option (Nat × Point)) (index : Nat) (visits : List Visit) : Prop where
  linked : Linked c layout text visits
  behind : ∀ v ∈ visits, v.index < index
  since : ∀ last exit, chain = some (last, exit) → Since c layout text visits last exit

namespace History

variable {chain chain' : Option (Nat × Point)} {index next : Nat} {visits : List Visit}

theorem mono (h : History c layout text chain index visits) (hle : index ≤ next) :
    History c layout text chain next visits :=
  ⟨h.linked, fun v hv => Nat.lt_of_lt_of_le (h.behind v hv) hle, h.since⟩

theorem start (c : PosContext σ) (layout : LayoutTable Positioning) (text : Array GlyphItem)
    (index : Nat) : History c layout text none index [] :=
  ⟨fun _ _ _ _ _ _ _ h => by simp at h, fun _ h => absurd h List.not_mem_nil,
    fun _ _ h => nomatch h⟩

/-- One more visit, to the next glyph. -/
theorem linked_snoc (h : History c layout text chain index visits) {v : Visit}
    (hv : ∀ lookupIndex index' contextLength chain',
      v = .joining lookupIndex index' contextLength chain' → index' = index ∧ chain' = chain) :
    Linked c layout text (visits ++ [v]) := by
  intro before lookupIndex index' contextLength last exit after heq
  rcases List.eq_nil_or_concat after with rfl | ⟨after, w, rfl⟩
  · obtain ⟨rfl, hlast⟩ := List.append_inj' heq rfl
    obtain ⟨rfl, hchain⟩ := hv _ _ _ _ (List.cons.inj hlast).1
    exact ⟨h.since last exit hchain.symm, h.behind⟩
  · refine h.linked before lookupIndex index' contextLength last exit after ?_
    rw [List.concat_eq_append, ← List.cons_append, ← List.append_assoc] at heq
    exact (List.append_inj' heq rfl).1

theorem behind_snoc (h : History c layout text chain index visits) {v : Visit}
    (hv : v.index = index) : ∀ w ∈ visits ++ [v], w.index < index + 1 := by
  intro w hw
  rcases List.mem_append.mp hw with hw | hw
  · exact Nat.lt_succ_of_lt (h.behind w hw)
  · rw [List.mem_singleton.mp hw, hv]
    exact Nat.lt_succ_self _

theorem snoc_inactive (h : History c layout text chain index visits) :
    History c layout text none (index + 1) (visits ++ [.inactive index]) :=
  ⟨h.linked_snoc (fun _ _ _ _ hv => nomatch hv), h.behind_snoc rfl, fun _ _ h => nomatch h⟩

/-- The step of the invariant: a joining lookup is applied to the next glyph. -/
theorem snoc_joining (h : History c layout text chain index visits) {lookupIndex : Nat}
    {contextLength : UInt16}
    (heffect : chain' = none ∨
      (chain' = chain ∧
        ∀ chain, Skips c layout text (.joining lookupIndex index contextLength chain)) ∨
      ∃ exit, chain' = some (index, exit) ∧ Leads c layout text lookupIndex index exit) :
    History c layout text chain' (index + 1)
      (visits ++ [.joining lookupIndex index contextLength chain]) := by
  refine ⟨h.linked_snoc ?_, h.behind_snoc rfl, fun last exit hchain => ?_⟩
  · rintro _ _ _ _ ⟨⟩
    exact ⟨rfl, rfl⟩
  rcases heffect with rfl | ⟨rfl, hskips⟩ | ⟨exit', rfl, hleads⟩
  · cases hchain
  · -- a glyph that is skipped is one more after the last of the chain
    obtain ⟨before, l, length, chain₀, after, rfl, hleads, hafter⟩ := h.since last exit hchain
    refine ⟨before, l, length, chain₀, after ++ [.joining lookupIndex index contextLength chain'],
      by simp, hleads, fun v hv => ?_⟩
    rcases List.mem_append.mp hv with hv | hv
    · exact hafter v hv
    · rw [List.mem_singleton.mp hv]
      exact ⟨hskips _, h.behind (.joining l last length chain₀) (by simp)⟩
  · cases hchain
    exact ⟨visits, lookupIndex, contextLength, chain, [], rfl, hleads, fun v hv => nomatch hv⟩

end History

/-- History as an invariant of going through a text. -/
def history (c : PosContext σ) (layout : LayoutTable Positioning) (text : Array GlyphItem) :
    Invariant where
  holds := History c layout text
  mono := History.mono

/-! ## §4 Lookups and passes -/

variable {fails : LayoutError → Prop} {visits : List Visit}

/-- A lookup that leaves the chain alone and invokes nothing. -/
theorem records_within {x : PosM σ (Option Nat)} {index : Nat} (hchain : KeepsChain x)
    (hknown : History c layout text s.chain index visits)
    (hnext : ∀ answer s', Program.outcome x s = (.ok answer, s') →
      index < answer.getD (index + 1)) :
    Records beside (within beside x) x s visits
      (fun answer s' visits' => History c layout text s'.chain (answer.getD (index + 1)) visits')
      fun _ _ => Linked c layout text := by
  refine (quiet_within x).records (fun answer s' hrun => ?_) fun _ _ _ => hknown.linked
  rw [hchain s answer s' hrun]
  exact hknown.mono (Nat.le_of_lt (hnext answer s' hrun))

/-- A joining lookup is noted, and goes past one glyph. -/
theorem records_joining {flag : LookupFlag} {subtables : Array CursivePos} {lookupIndex index : Nat}
    (contextLength : UInt16) (levels : Nat)
    (hlookup : layout.lookup lookupIndex = .ok ⟨flag, .cursive subtables⟩)
    (htext : settled c.gdef s.glyphs = settled c.gdef text) (hindex : index < s.glyphs.size)
    (visits : List Visit) :
    Records beside (applyNoting c visitNotes layout (levels + 1) lookupIndex index contextLength)
      (applyLookup c layout (levels + 1) lookupIndex index contextLength) s visits
      (fun answer s' visits' => answer.getD (index + 1) = index + 1 ∧
        visits' = visits ++ [.joining lookupIndex index contextLength s.chain] ∧
        (s'.chain = none ∨
          (s'.chain = s.chain ∧
            ∀ chain, Skips c layout text (.joining lookupIndex index contextLength chain)) ∨
          ∃ exit, s'.chain = some (index, exit) ∧ Leads c layout text lookupIndex index exit))
      fun _ _ visits' => visits' =
        visits ++ [.joining lookupIndex index contextLength s.chain] := by
  refine records_applyNoting (fun e herror => ?_) fun lookup hfound => ?_
  · rw [hlookup] at herror
    cases herror
  · cases hlookup.symm.trans hfound
    refine (quiet_within (applySubtables c (applyLookup c layout levels) ⟨flag, .cursive subtables⟩
      index contextLength)).records (fun answer s' hrun => ?_) fun _ _ _ => rfl
    -- in all cases the visit has been noted, and the chain is as the lookup leaves it
    obtain ⟨hanswer, heffect⟩ := chain_of_joining hlookup htext hindex hrun
    exact ⟨hanswer, rfl, heffect⟩

/-- Lookups of every type, nested to any depth, tell the history of the chain. -/
theorem preserves_applyNoting (hallows : Allows c fails layout text) (levels lookupIndex : Nat)
    (contextLength : UInt16) :
    Preserves c text (history c layout text) (Linked c layout text)
      (fun index => applyNoting c visitNotes layout levels lookupIndex index contextLength)
      fun index => applyLookup c layout levels lookupIndex index contextLength := by
  induction levels generalizing lookupIndex contextLength with
  | zero => exact fun s index visits _ _ hknown => .throw hknown.linked
  | succ levels ih =>
    intro s index visits htext hs hknown
    refine records_applyNoting (fun _ _ => hknown.linked) fun lookup hlookup => ?_
    have hinvoke := lawful_applyLookup hallows levels
    have hloaded := hallows.loaded hlookup
    -- wherever the lookup goes on, it goes past its glyph
    have hnext : ∀ answer s', Program.outcome
        (applySubtables c (applyLookup c layout levels) lookup index contextLength) s =
          (.ok answer, s') → index < answer.getD (index + 1) := fun answer s' hrun =>
      have hkeeps := lawful_applySubtables hallows hlookup hinvoke contextLength s index htext hs
      ((hkeeps.of_ok hrun).2.spans hs).1
    obtain ⟨flag, subtables⟩ := lookup
    cases subtables with
    | single subtables =>
      exact records_within (.ite (keepsChain_atGlyph c _ _ fun _ _ =>
        keepsChain_applySingle c _ _ _) (.pure _)) hknown hnext
    | pair subtables =>
      exact records_within (.ite (keepsChain_atGlyph c _ _ fun _ _ =>
        keepsChain_applyPair c _ _ _ _) (.pure _)) hknown hnext
    | markBase subtables =>
      exact records_within (.ite (keepsChain_atGlyph c _ _ fun _ _ =>
        keepsChain_applyMarkBase c _ _ _) (.pure _)) hknown hnext
    | markLigature subtables =>
      exact records_within (.ite (keepsChain_atGlyph c _ _ fun _ _ =>
        keepsChain_applyMarkLigature c _ _ _) (.pure _)) hknown hnext
    | markMark subtables =>
      exact records_within (.ite (keepsChain_atGlyph c _ _ fun _ _ =>
        keepsChain_applyMarkMark c _ _ _ _) (.pure _)) hknown hnext
    | cursive subtables =>
      -- here the chain may change, and the visit has been noted before
      refine (quiet_within (applySubtables c (applyLookup c layout levels)
          ⟨flag, .cursive subtables⟩ index contextLength)).records (fun answer s' hrun => ?_)
        fun _ _ _ => (hknown.snoc_joining (.inl rfl)).linked
      obtain ⟨hanswer, heffect⟩ := chain_of_joining hlookup htext hs.inside hrun
      rw [hanswer]
      exact hknown.snoc_joining heffect
    | context subtables | chained subtables =>
      have hnone : History c layout text s.chain (index + 1) visits := hknown.mono (Nat.le_succ _)
      refine records_atGlyph hnone ⟨hnone, fun item p => ?_⟩
      have hkeeps : Keeps c fails (remember c index (index + 1)) s _ := keeps_remember _ _
      obtain ⟨hkept, -⟩ := hkeeps.of_ok rfl
      have hstays : Stays s { s with glyphs := rememberRange c.gdef s.glyphs index (index + 1) } :=
        ⟨rfl, fun _ => id⟩
      have hcount : ∀ l ∈ subtables.toList, ∀ m ∈ l.results, m.inputCount ≤ 0xFFFF :=
        fun l hl m hm => (hloaded.rules m (List.mem_flatMap.mpr ⟨l, hl, hm⟩)).count
      exact records_applyContext hinvoke (fun l contextLength => ih l contextLength)
        (fun h => h.linked) hcount (hkept.text.trans htext) (hstays.ready hkept hs) hknown

variable {table : ActiveTable Positioning} {lookupIndex : Nat} {bits : UInt32}

/-- In the pass of a joining lookup every glyph is visited once, in order, and the lookup is applied
    where it is active. -/
structure Stepped (text : Array GlyphItem) (lookupIndex : Nat) (bits : UInt32) (index : Nat)
    (visits : List Visit) : Prop where
  order : visits.map Visit.index = List.range index
  active : ∀ l i contextLength chain, .joining l i contextLength chain ∈ visits →
    l = lookupIndex ∧ ∃ item, text[i]? = some item ∧ item.isActive bits = true

theorem Stepped.snoc_inactive {index : Nat} (h : Stepped text lookupIndex bits index visits) :
    Stepped text lookupIndex bits (index + 1) (visits ++ [.inactive index]) where
  order := by simp [h.order, List.range_succ, Visit.index]
  active l i contextLength chain hmem := by
    rcases List.mem_append.mp hmem with hmem | hmem
    · exact h.active l i contextLength chain hmem
    · cases List.mem_singleton.mp hmem

theorem Stepped.snoc_joining {index : Nat} (h : Stepped text lookupIndex bits index visits)
    {item : GlyphItem} (hitem : text[index]? = some item) (hactive : item.isActive bits = true)
    (contextLength : UInt16) (chain : Option (Nat × Point)) :
    Stepped text lookupIndex bits (index + 1)
      (visits ++ [.joining lookupIndex index contextLength chain]) where
  order := by simp [h.order, List.range_succ, Visit.index]
  active l i contextLength' chain' hmem := by
    rcases List.mem_append.mp hmem with hmem | hmem
    · exact h.active l i contextLength' chain' hmem
    · cases List.mem_singleton.mp hmem
      exact ⟨rfl, item, hitem, hactive⟩

/-- A lookup joins glyphs. -/
def Joining (layout : LayoutTable Positioning) (lookupIndex : Nat) : Prop :=
  ∃ flag subtables, layout.lookup lookupIndex = .ok ⟨flag, .cursive subtables⟩

/-- What is known in the pass of a lookup. -/
def Known (c : PosContext σ) (layout : LayoutTable Positioning) (text : Array GlyphItem)
    (lookupIndex : Nat) (bits : UInt32) (chain : Option (Nat × Point)) (index : Nat)
    (visits : List Visit) : Prop :=
  History c layout text chain index visits ∧
    (Joining layout lookupIndex → Stepped text lookupIndex bits index visits)

/-- What is known at the end of a pass, or when it fails. -/
def Told (c : PosContext σ) (layout : LayoutTable Positioning) (text : Array GlyphItem)
    (lookupIndex : Nat) (bits : UInt32) (visits : List Visit) : Prop :=
  Linked c layout text visits ∧
    (Joining layout lookupIndex → ∃ index, Stepped text lookupIndex bits index visits)

theorem Known.told {chain : Option (Nat × Point)} {index : Nat}
    (h : Known c layout text lookupIndex bits chain index visits) :
    Told c layout text lookupIndex bits visits :=
      ⟨h.1.linked, fun hjoining => ⟨index, h.2 hjoining⟩⟩

/-- One step of a pass. -/
theorem records_stepNoting (hallows : Allows c fails table.layout text) {index : Nat}
    {item : GlyphItem} (htext : settled c.gdef s.glyphs = settled c.gdef text) (hs : s.Ready index)
    (hitem : s.glyphs[index]? = some item)
    (hknown : Known c table.layout text lookupIndex bits s.chain index visits) :
    Records beside
      (stepNoting visitNotes
        (fun index => applyNoting c visitNotes table.layout table.nestingLimit lookupIndex index
          noContext) bits item index)
      (passStep
        (fun index => applyLookup c table.layout table.nestingLimit lookupIndex index noContext)
        bits item index) s visits
      (fun next s' visits' => Known c table.layout text lookupIndex bits s'.chain next visits')
      fun _ _ => Told c table.layout text lookupIndex bits := by
  obtain ⟨hhistory, hstepped⟩ := hknown
  unfold stepNoting passStep
  -- the glyph is either passed over with a note, or the lookup is applied at it
  split
  case isFalse =>
    refine .note_bind ((quiet_breakChain).bind ?_ fun _ t hrun => ?_)
    · exact fun _ _ _ => ⟨hhistory.snoc_inactive.linked, fun hjoining =>
        ⟨_, (hstepped hjoining).snoc_inactive⟩⟩
    · cases hrun
      exact .pure ⟨hhistory.snoc_inactive, fun hjoining => (hstepped hjoining).snoc_inactive⟩
  case isTrue hactive =>
    -- glyphs that have been looked up are active if they were active before
    obtain ⟨item₀, hitem₀, hsame⟩ := getElem?_of_settled htext hitem
    have hactive₀ : item₀.isActive bits = true := by
      rw [← hactive]
      have hactivation := congrArg GlyphItem.activation (Gdef.bare_of_remember hsame)
      exact congrArg (fun activation => activation &&& bits != 0) hactivation
    have hrecords := preserves_applyNoting hallows table.nestingLimit lookupIndex noContext s index
      visits htext hs hhistory
    have hrecords' : Records beside
        (applyNoting c visitNotes table.layout table.nestingLimit lookupIndex index noContext)
        (applyLookup c table.layout table.nestingLimit lookupIndex index noContext) s visits
        (fun answer _ visits' => Joining table.layout lookupIndex →
          Stepped text lookupIndex bits (answer.getD (index + 1)) visits')
        fun _ _ visits' => Joining table.layout lookupIndex →
          ∃ index, Stepped text lookupIndex bits index visits' := by
      -- the places of the visits matter only if the lookup itself joins glyphs
      by_cases hjoining : Joining table.layout lookupIndex
      case neg =>
        exact hrecords.mono (fun _ _ _ _ _ h => absurd h hjoining)
          fun _ _ _ _ h => absurd h hjoining
      case pos =>
        have hstepped := hstepped hjoining
        have hsnoc := hstepped.snoc_joining hitem₀ hactive₀ noContext s.chain
        obtain ⟨flag, subtables, hlookup⟩ := hjoining
        -- at the nesting limit there is nothing to note, and the lookup fails
        cases hlevels : table.nestingLimit with
        | zero => exact .throw fun _ => ⟨index, hstepped⟩
        | succ levels =>
          refine (records_joining _ levels hlookup htext hs.inside visits).mono ?_ ?_
          · rintro answer t visits' - ⟨hanswer, rfl, -⟩ -
            rw [hanswer]
            exact hsnoc
          · rintro e t visits' rfl -
            exact ⟨_, hsnoc⟩
    -- what is known of the history and of the places is put together
    exact ((hrecords.and hrecords').mono (fun _ _ _ _ => id) fun _ _ _ => id).bind
      fun answer t visits' _ h => .pure h

theorem records_loopNoting (hallows : Allows c fails table.layout text) {rounds index : Nat}
    (htext : settled c.gdef s.glyphs = settled c.gdef text)
    (hs : index < s.glyphs.size → s.Ready index)
    (hknown : Known c table.layout text lookupIndex bits s.chain index visits) :
    Records beside
      (loopNoting visitNotes
        (fun index => applyNoting c visitNotes table.layout table.nestingLimit lookupIndex index
          noContext) bits rounds index)
      (pass
        (fun index => applyLookup c table.layout table.nestingLimit lookupIndex index noContext)
        bits rounds index) s visits
      (fun _ _ visits' => Told c table.layout text lookupIndex bits visits')
      fun _ _ => Told c table.layout text lookupIndex bits := by
  -- each round is one step, and the next one begins with what has become known
  induction rounds generalizing s index visits with
  | zero => exact .pure hknown.told
  | succ rounds ih =>
    rw [pass_succ, loopNoting]
    refine .get_bind ?_
    rw [PosState.beside_join, PosState.glyphs_logged]
    cases hitem : s.glyphs[index]? with
    | none => exact .pure hknown.told
    | some item =>
      have hs := hs (Array.getElem?_eq_some_iff.mp hitem).1
      refine (records_stepNoting hallows htext hs hitem hknown).bind
        fun next t visits' hrun hnext => ?_
      have hlawful := lawful_applyLookup hallows table.nestingLimit lookupIndex noContext
      obtain ⟨hkept, -, hspans⟩ := (keeps_passStep hlawful bits item htext hs).of_ok hrun
      exact ih (hkept.text.trans htext) (fun hlt => hspans.ready hkept hs (hkept.size ▸ hlt)) hnext

/-- The pass of a lookup, from any state. -/
theorem records_passLogged (hallows : Allows c fails table.layout text) (lookupIndex : Nat)
    (bits : UInt32) (htext : settled c.gdef s.glyphs = settled c.gdef text)
    (hpositioned : s.positions.size = s.glyphs.size) :
    Records beside (passLogged c table lookupIndex bits) (passOf c table lookupIndex bits) s []
      (fun _ _ visits => Told c table.layout text lookupIndex bits visits)
      fun _ _ => Told c table.layout text lookupIndex bits := by
  have hstart : Known c table.layout text lookupIndex bits none 0 [] :=
    ⟨History.start c table.layout text 0,
      fun _ => ⟨rfl, fun _ _ _ _ h => absurd h List.not_mem_nil⟩⟩
  refine quiet_breakChain.bind (fun _ _ _ => hstart.told) fun _ t hrun => .get_bind ?_
  cases hrun
  exact records_loopNoting hallows htext
    (fun hlt => ⟨hlt, hpositioned, fun _ _ h => nomatch h⟩) hstart

/-! ## §5 Where joined glyphs come from -/

/-- A chain comes from an earlier glyph that a joining lookup counts, and since then joining lookups
    have only been applied to glyphs that they skip. -/
theorem Linked.comes (h : Linked c layout text visits) {before after : List Visit}
    {l index last : Nat} {contextLength : UInt16} {exit : Point}
    (hvisits : visits = before ++ .joining l index contextLength (some (last, exit)) :: after) :
    last < index ∧ ∃ earlier l₀ contextLength₀ chain between,
      before = earlier ++ .joining l₀ last contextLength₀ chain :: between ∧
      Leads c layout text l₀ last exit ∧
      ∀ v ∈ between, Skips c layout text v ∧ last < v.index ∧ v.index < index := by
  obtain ⟨⟨earlier, l₀, contextLength₀, chain, between, rfl, hleads, hbetween⟩, hbehind⟩ :=
    h before l index contextLength last exit after hvisits
  refine ⟨hbehind (.joining l₀ last contextLength₀ chain) (by simp), earlier, l₀, contextLength₀,
    chain, between, rfl, hleads, fun v hv => ?_⟩
  obtain ⟨hskips, hlt⟩ := hbetween v hv
  exact ⟨hskips, hlt, hbehind v (by simp [hv])⟩

/-- Where every glyph is visited in order, each visit is at its own index. -/
theorem Stepped.index_eq {n : Nat} (h : Stepped text lookupIndex bits n visits) {i : Nat}
    {v : Visit} (hv : visits[i]? = some v) : v.index = i := by
  have hmap : (visits.map Visit.index)[i]? = some v.index := by
    rw [List.getElem?_map, hv, Option.map_some]
  rw [h.order, List.getElem?_eq_some_iff] at hmap
  obtain ⟨_, hmap⟩ := hmap
  rw [← hmap, List.getElem_range]

theorem Stepped.between {n : Nat} (h : Stepped text lookupIndex bits n visits)
    {earlier between after : List Visit} {u v : Visit}
    (hvisits : visits = earlier ++ u :: (between ++ v :: after)) {i : Nat} (hlast : u.index < i)
    (hindex : i < v.index) : ∃ w ∈ between, w.index = i := by
  have hu : u.index = earlier.length := h.index_eq (by simp [hvisits])
  have hv : v.index = earlier.length + 1 + between.length := by
    refine h.index_eq ?_
    rw [hvisits, List.getElem?_append_right (by omega)]
    simp [show earlier.length + 1 + between.length - earlier.length = between.length + 1 by omega]
  have hi : i - (earlier.length + 1) < between.length := by omega
  refine ⟨between[i - (earlier.length + 1)], List.getElem_mem hi, h.index_eq ?_⟩
  rw [hvisits, List.getElem?_append_right (by omega),
    show i - earlier.length = i - (earlier.length + 1) + 1 by omega, List.getElem?_cons_succ,
    List.getElem?_append_left hi, List.getElem?_eq_getElem hi]

/-- In the pass of a joining lookup, a chain comes from a glyph that this lookup counts, and the
    lookup is active at all glyphs since then and skips them. -/
theorem Told.neighbours (h : Told c layout text lookupIndex bits visits) {flag : LookupFlag}
    {subtables : Array CursivePos}
    (hlookup : layout.lookup lookupIndex = .ok ⟨flag, .cursive subtables⟩)
    {before after : List Visit} {l index last : Nat} {contextLength : UInt16} {exit : Point}
    (hvisits : visits = before ++ .joining l index contextLength (some (last, exit)) :: after) :
    l = lookupIndex ∧ Leads c layout text lookupIndex last exit ∧
      ∀ i, last < i → i < index → ∃ item, text[i]? = some item ∧ item.isActive bits = true ∧
        Gdef.admits c.gdef flag item = false := by
  obtain ⟨hlinked, hstepped⟩ := h
  obtain ⟨n, hstepped⟩ := hstepped ⟨flag, subtables, hlookup⟩
  -- where the chain was left open, and what has come since
  obtain ⟨-, earlier, l₀, contextLength₀, chain, between, rfl, hleads, hbetween⟩ :=
    hlinked.comes hvisits
  rw [List.append_assoc, List.cons_append] at hvisits
  -- both ends of the link are visits of the lookup itself, as it invokes no others
  obtain ⟨rfl, -⟩ := hstepped.active l index contextLength (some (last, exit)) (by simp [hvisits])
  obtain ⟨rfl, -⟩ := hstepped.active l₀ last contextLength₀ chain (by simp [hvisits])
  refine ⟨rfl, hleads, fun i hlast hindex => ?_⟩
  -- every place between has been visited, and each visit there has skipped its glyph
  obtain ⟨v, hv, rfl⟩ := hstepped.between hvisits hlast hindex
  obtain ⟨hskips, -, -⟩ := hbetween v hv
  cases v with
  | inactive => exact hskips.elim
  | joining l' i length chain' =>
    obtain ⟨-, flag', subtables', item, hlookup', hitem, hignored⟩ := hskips
    obtain ⟨rfl, item', hitem', hactive⟩ :=
      hstepped.active l' i length chain' (by simp [hvisits, hv])
    cases hlookup.symm.trans hlookup'
    cases hitem.symm.trans hitem'
    exact ⟨item, hitem, hactive, hignored⟩

end PosM

open PosM in
/-- A pass, after others, does the same if the visits of joining lookups are noted. Wherever one is
    applied to a glyph when there is a chain, which is where glyphs are joined:

    - The chain comes from an earlier glyph that a joining lookup has counted in the same pass. No
      joining lookup has been applied to a glyph since then, unless its flag makes it skip the
      glyph, and the pass has not come to a glyph at which its lookup is not active.
    - If the lookup of the pass joins glyphs itself, this lookup has counted the earlier glyph, and
      its flag makes it skip all glyphs in between. -/
theorem joins_follow_chain {σ : Type} (c : PosContext σ) (table : ActiveTable Positioning)
    {w : Window} (hread : LayoutTable.ofWindow w = .ok table.layout)
    {earlier later : List (Nat × UInt32)} {lookupIndex : Nat} {bits : UInt32}
    (hactive : table.active = earlier ++ (lookupIndex, bits) :: later) {text : PosOutcome σ}
    {t : PosState σ}
    (hrun : Program.outcome (applyActive c table earlier) (startOf text) = (.ok (), t)) :
    Program.outcome (applyActive c table table.active) (startOf text) =
      Program.outcome (do passOf c table lookupIndex bits; applyActive c table later) t ∧
    ∃ visits : List Visit,
      Program.outcome (passLogged c table lookupIndex bits) (t.logged []) =
        (let run := Program.outcome (passOf c table lookupIndex bits) t
        (run.1, run.2.logged visits)) ∧
      ∀ (before after : List Visit) (l index last : Nat) (contextLength : UInt16) (exit : Point),
        visits = before ++ .joining l index contextLength (some (last, exit)) :: after →
        (last < index ∧ ∃ earlier l₀ contextLength₀ chain between,
          before = earlier ++ .joining l₀ last contextLength₀ chain :: between ∧
          Leads c table.layout text.glyphs l₀ last exit ∧
          ∀ v ∈ between, Skips c table.layout text.glyphs v ∧ last < v.index ∧ v.index < index) ∧
        ∀ flag subtables, table.layout.lookup lookupIndex = .ok ⟨flag, .cursive subtables⟩ →
          l = lookupIndex ∧ Leads c table.layout text.glyphs lookupIndex last exit ∧
          ∀ i, last < i → i < index → ∃ item, text.glyphs[i]? = some item ∧
            item.isActive bits = true ∧ Gdef.admits c.gdef flag item = false := by
  -- whatever has been applied before has left the glyphs as they were, but for their properties
  have hallows : Allows c (c.Failure table.layout text.glyphs) table.layout text.glyphs :=
    allows_failure hread text.glyphs
  have hpositioned : (startOf text).positions.size = (startOf text).glyphs.size := by simp [startOf]
  have hkeeps : Keeps c _ (applyActive c table earlier) (startOf text) _ :=
    keeps_applyActive hallows earlier rfl hpositioned
  obtain ⟨hkept, -⟩ := hkeeps.of_ok hrun
  have hsizes : t.positions.size = t.glyphs.size := by
    rw [hkept.positioned, hkept.size, hpositioned]
  refine ⟨?_, ?_⟩
  -- the pass of this lookup comes between those before it and those behind it
  · rw [hactive, applyActive_append, Program.outcome_bind_ok hrun, applyActive_cons]
  -- the notes are taken beside the pass, and say the same whether it succeeds or fails
  obtain ⟨visits, hlogged, htold⟩ := records_passLogged hallows lookupIndex bits hkept.text hsizes
  have htold : Told c table.layout text.glyphs lookupIndex bits visits := by
    unfold Program.Meets at htold
    split at htold <;> exact htold
  exact ⟨visits, hlogged, fun before after l index last contextLength exit hvisits =>
    ⟨htold.1.comes hvisits, fun flag subtables hlookup => htold.neighbours hlookup hvisits⟩⟩

open PosM JoinedPair in
/-- The third glyph is joined to the first one, and nothing has been done at the mark
    between them. -/
theorem joins_follow_chain_joinedPair :
    ∃ visits : List Visit,
      Program.outcome (passLogged context table 0 1) ((startOf before).logged []) =
        (let run := Program.outcome (passOf context table 0 1) (startOf before)
        (run.1, run.2.logged visits)) ∧
      visits = [.joining 1 0 2 none, .joining 1 2 1 (some (0, ⟨500, 0⟩))] ∧
      ∃ earlier l₀ contextLength₀ chain between,
        [Visit.joining 1 0 2 none] = earlier ++ .joining l₀ 0 contextLength₀ chain :: between ∧
        Leads context layout before.glyphs l₀ 0 ⟨500, 0⟩ := by
  have hactive : table.active = [] ++ (0, 1) :: [] := by decide
  have hrun : Program.outcome (applyActive context table []) (startOf before) =
      (.ok (), startOf before) := rfl
  -- the general statement says that there is a list of visits; what it holds is computed
  obtain ⟨-, visits, hlogged, hjoined⟩ :=
    joins_follow_chain context table ofWindow_data hactive hrun
  have hvisits :
      (Program.outcome (passLogged context table 0 1) ((startOf before).logged [])).2.kept.2 =
      [.joining 1 0 2 none, .joining 1 2 1 (some (0, ⟨500, 0⟩))] := by rfl
  have hsame : visits = [.joining 1 0 2 none, .joining 1 2 1 (some (0, ⟨500, 0⟩))] := by
    rw [← hvisits, hlogged]
    rfl
  obtain ⟨⟨-, earlier, l₀, contextLength₀, chain, between, hbefore, hleads, -⟩, -⟩ :=
    hjoined [.joining 1 0 2 none] [] 1 2 0 1 ⟨500, 0⟩ hsame
  exact ⟨visits, hlogged, hsame, earlier, l₀, contextLength₀, chain, between, hbefore, hleads⟩

/-! A font in which 2 is joined to 1 across 3. The lookup that joins is invoked for the first and
    the third glyph of a rule, and has nothing for the second one, which it would not skip. -/

namespace JoinedAcross

def joins : CursivePos :=
  ⟨.glyphs #[1, 2], #[⟨none, some (.design 500 0)⟩, ⟨some (.design 20 10), none⟩]⟩

def layout : LayoutTable Positioning where
  scripts := #[]
  features := #[]
  lookups := #[
    { flag := ⟨0⟩
      subtables := .context
        #[.byCoverage (.glyphs #[1]) #[] #[.glyphs #[3], .glyphs #[2]] #[] [⟨0, 1⟩, ⟨2, 1⟩]] },
    { flag := ⟨0⟩
      subtables := .cursive #[joins] }]

/-- The layout table as a font stores it. -/
def data : ByteArray := ⟨#[
  0x00, 0x01, 0x00, 0x00, 0x00, 0x00, 0x00, 0x00, 0x00, 0x0A,
  -- two lookups
  0x00, 0x02, 0x00, 0x06, 0x00, 0x34,
  -- in context: 1, 3 and then 2
  0x00, 0x07, 0x00, 0x00, 0x00, 0x01, 0x00, 0x08,
  0x00, 0x03, 0x00, 0x03, 0x00, 0x02, 0x00, 0x14, 0x00, 0x1A, 0x00, 0x20,
  0x00, 0x00, 0x00, 0x01, 0x00, 0x02, 0x00, 0x01,
  0x00, 0x01, 0x00, 0x01, 0x00, 0x01,
  0x00, 0x01, 0x00, 0x01, 0x00, 0x03,
  0x00, 0x01, 0x00, 0x01, 0x00, 0x02,
  -- from 1 the chain goes on, and 2 is joined
  0x00, 0x03, 0x00, 0x00, 0x00, 0x01, 0x00, 0x08,
  0x00, 0x01, 0x00, 0x0E, 0x00, 0x02, 0x00, 0x00, 0x00, 0x16, 0x00, 0x1C, 0x00, 0x00,
  0x00, 0x01, 0x00, 0x02, 0x00, 0x01, 0x00, 0x02,
  0x00, 0x01, 0x01, 0xF4, 0x00, 0x00,
  0x00, 0x01, 0x00, 0x14, 0x00, 0x0A]⟩

theorem ofWindow_data : LayoutTable.ofWindow (Window.ofBytes data) = .ok layout := by
  rw [LayoutTable.ofWindow_eq_afresh]
  -- down to where the two records of the rule are put in order
  delta LayoutTable.ofWindowAfresh LayoutTable.load loadLookups Lookup.load LookupFamily.load
    instLookupFamilyPositioning Positioning.load ContextLookup.plain Decoder.lookupRecords
  rw [LookupRecord.sorted_eq_ite]
  decide +kernel

def table : ActiveTable Positioning where
  layout := layout
  bits := #[1, 0]

def context : PosContext Unit where
  gdef := none
  params := {}
  source := { contour := PosSource.noOutlines, metric := PosSource.noMetrics }

/-- The glyphs 1, 3, 2. -/
def before : PosOutcome Unit where
  glyphs := #[
    { glyph := 1, activation := 1, cluster := 0 }, { glyph := 3, activation := 1, cluster := 1 },
    { glyph := 2, activation := 1, cluster := 2 }]
  positions := #[]
  kept := ()

end JoinedAcross

open PosM JoinedAcross in
/-- The glyph 3 does not break the chain: the lookup that joins would count it, and does not cover
    it, but it is not applied to it. -/
theorem join_across_uncovered :
    LayoutTable.ofWindow (Window.ofBytes data) = .ok layout ∧
    (∀ item, Gdef.admits context.gdef ⟨0⟩ item = true) ∧ joins.find 3 = .ok none ∧
    (Program.outcome (passLogged context table 0 1) ((startOf before).logged [])).2.kept.2 =
      [.joining 1 0 3 none, .joining 1 2 1 (some (0, ⟨500, 0⟩))] ∧
    (table.position context before).2.positions[0]? =
      some { xAdvance := 480, newAdvance := true } :=
  ⟨ofWindow_data, fun _ => rfl, by decide, by decide +kernel, by decide +kernel⟩

end OpenTypeLayout
