import OpenTypeLayout.Proofs.Positioning.MarkToLigature

/-!
# Links of attached marks

A mark that is attached says how many glyphs back the glyph is that it is attached to. Only the last
step of attaching a mark writes such a link. Everything else that lookups do to a position leaves it
alone, even what fails half way.

- `NearestBefore` is what the two ways of looking back for a glyph find.
- `Lookup.PointsTo` says to which glyph a lookup of each type links a mark.
- `PosM.KeepsLinks` holds of programs that write no link, and `PosM.Attaches` of those that attach a
  mark.
-/

namespace OpenTypeLayout

/-! ## §1 Looking back -/

/-- Of the glyphs before an index that count, the nearest one is at `target`. -/
structure NearestBefore (text : Array GlyphItem) (counts : GlyphItem → Bool) (index target : Nat) :
    Prop where
  before : target < index
  counted : text[target]?.any counts = true
  between : ∀ i, target < i → i < index → text[i]?.any counts = false

namespace NearestBefore

variable {text : Array GlyphItem} {counts : GlyphItem → Bool} {index target : Nat}

theorem here (h : text[index]?.any counts = true) : NearestBefore text counts (index + 1) index :=
  ⟨Nat.lt_succ_self index, h, fun i hlow hhigh => by omega⟩

/-- A glyph that does not count is passed over. -/
theorem succ (h : NearestBefore text counts index target)
    (hskip : text[index]?.any counts = false) : NearestBefore text counts (index + 1) target where
  before := Nat.lt_succ_of_lt h.before
  counted := h.counted
  between i hlow hhigh := by
    rcases Nat.lt_succ_iff_lt_or_eq.mp hhigh with hhigh | rfl
    · exact h.between i hlow hhigh
    · exact hskip

end NearestBefore

/-- Looking back with a filter finds the nearest glyph that the filter lets through. -/
theorem GlyphFilter.nearestBefore_of_prev? {f : GlyphFilter} {items : Array GlyphItem}
    {index target : Nat} (h : f.prev? items index = some target) :
    NearestBefore items f.admits index target := by
  induction index with
  | zero => cases h
  | succ index ih =>
    rw [prev?] at h
    split at h
    case isTrue hcounts =>
      cases h
      exact .here hcounts
    case isFalse hcounts => exact (ih h).succ (Bool.eq_false_iff.mpr hcounts)

/-- Whether a glyph of a text is a mark. -/
def Gdef.isMarkIn (table : Option Gdef) (item : GlyphItem) : Bool := (propertyIn table item).isMark

theorem Gdef.Alike.isMarkIn {table table' : Option Gdef} {x y : GlyphItem}
    (h : Alike table table' x y) : Gdef.isMarkIn table' y = Gdef.isMarkIn table x := by
  rw [Gdef.isMarkIn, h.propertyIn, Gdef.isMarkIn]

/-- Going back over marks finds the nearest glyph that is not one, whatever any lookup skips. -/
theorem PosM.nearestBefore_of_markTarget? {table : Option Gdef} {items : Array GlyphItem}
    {index target : Nat} {p : GlyphProperty}
    (h : markTarget? table items index = some (target, p)) :
    NearestBefore items (fun item => !Gdef.isMarkIn table item) index target := by
  induction index with
  | zero => cases h
  | succ index ih =>
    rw [markTarget?] at h
    split at h
    case h_1 => cases h
    case h_2 item hitem =>
      dsimp only at h
      split at h
      case isTrue hmark => exact (ih h).succ (by simp [hitem, Gdef.isMarkIn, hmark])
      case isFalse hmark =>
        cases h
        exact .here (by simp [hitem, Gdef.isMarkIn, hmark])

/-- A glyph of the class that a lookup singles out is a mark. -/
theorem GlyphProperty.isMark_of_bits_eq {p : GlyphProperty} {flag : LookupFlag}
    (hflag : flag.markAttachmentType ≠ 0) (hbits : p.bits = flag.markAttachmentType) :
    p.isMark = true := by
  have hclass : p.markAttachment = flag.markAttachmentType := by
    rw [markAttachment, hbits, LookupFlag.markAttachmentType, UInt16.and_assoc, UInt16.and_self]
  rw [isMark, basic, hclass, if_neg hflag, beq_self_eq_true]

/-! ## §2 Where marks are linked to -/

/-- Whether a lookup attaches marks. -/
def Positioning.attachesMarks : Positioning → Bool
  | .markBase _ | .markLigature _ | .markMark _ => true
  | _ => false

/-- To which glyph a lookup links a mark at an index: a lookup for bases or ligatures to the nearest
    glyph before it that is not a mark, and a lookup for marks to the nearest one before it that the
    lookup does not skip, which has to be a mark. -/
def Lookup.PointsTo (lookup : Lookup Positioning) (table : Option Gdef) (text : Array GlyphItem)
    (index target : Nat) : Prop :=
  match lookup.subtables with
  | .markBase _ | .markLigature _ =>
    NearestBefore text (fun item => !Gdef.isMarkIn table item) index target
  | .markMark _ =>
    NearestBefore text (GlyphFilter.mk table lookup.flag).admits index target ∧
      text[target]?.any (Gdef.isMarkIn table) = true
  | _ => False

theorem Lookup.PointsTo.before {lookup : Lookup Positioning} {table : Option Gdef}
    {text : Array GlyphItem} {index target : Nat} (h : lookup.PointsTo table text index target) :
    target < index := by
  unfold PointsTo at h
  split at h
  · exact NearestBefore.before h
  · exact NearestBefore.before h
  · exact h.1.before
  · exact h.elim

/-- How many glyphs back the glyph is that the one at an index is linked to, zero for none. -/
def backAt (positions : Array Position) (index : Nat) : Nat :=
  (positions[index]?.map fun p => p.back.toNat).getD 0

theorem backAt_modify (positions : Array Position) (index : Nat) (f : Position → Position) :
    backAt (positions.modify index f) = Function.update (backAt positions) index
      ((positions[index]?.map fun p => (f p).back.toNat).getD 0) := by
  funext i
  unfold backAt
  rw [Array.getElem?_modify, Function.update_apply]
  rcases Decidable.eq_or_ne index i with rfl | hne
  · simp [Function.comp_def]
  · rw [if_neg hne, if_neg hne.symm]

/-- Whatever else is changed about a position, its link stays. -/
theorem backAt_modify_of_back {f : Position → Position} (hf : ∀ p, (f p).back = p.back)
    (positions : Array Position) (index : Nat) :
    backAt (positions.modify index f) = backAt positions := by
  rw [backAt_modify]
  simp only [hf]
  exact Function.update_eq_self index (backAt positions)

theorem backAt_modify_link {positions : Array Position} {index : Nat} (h : index < positions.size)
    (back : UInt16) :
    backAt (positions.modify index fun p => { p with back }) =
      Function.update (backAt positions) index back.toNat := by
  simp [backAt_modify, h]

namespace PosM

open PosState (Kept)

variable {σ α β : Type}

/-! ## §3 Programs that write no link -/

/-- The links are the same, and so is the text. -/
structure SameLinks (c : PosContext σ) (s s' : PosState σ) : Prop where
  kept : Kept c s s'
  links : backAt s'.positions = backAt s.positions

namespace SameLinks

variable {c : PosContext σ} {s s' t : PosState σ}

theorem refl (c : PosContext σ) (s : PosState σ) : SameLinks c s s := ⟨.refl c s, rfl⟩

theorem trans (h : SameLinks c s t) (h' : SameLinks c t s') : SameLinks c s s' :=
  ⟨h.kept.trans h'.kept, h'.links.trans h.links⟩

end SameLinks

variable (c : PosContext σ)

/-- The links stay, whether the program answers or fails. -/
def KeepsLinks (x : PosM σ α) : Prop := ∀ s, SameLinks c s (Program.outcome x s).2

namespace KeepsLinks

variable {c}

theorem pure (a : α) : KeepsLinks c (Pure.pure a : PosM σ α) := SameLinks.refl c

theorem throw (e : LayoutError) : KeepsLinks c (throw e : PosM σ α) := SameLinks.refl c

theorem lift (r : Except LayoutError α) : KeepsLinks c (liftM r : PosM σ α) := SameLinks.refl c

theorem bind {x : PosM σ α} {f : α → PosM σ β} (hx : KeepsLinks c x)
    (hf : ∀ a, KeepsLinks c (f a)) : KeepsLinks c (x >>= f) := by
  intro s
  have hs := hx s
  rcases hrun : Program.outcome x s with ⟨e | a, t⟩
  · rw [Program.outcome_bind_error hrun]
    rwa [hrun] at hs
  · rw [Program.outcome_bind_ok hrun]
    rw [hrun] at hs
    exact hs.trans (hf a t)

theorem get_bind {f : PosState σ → PosM σ β} (hf : ∀ s, KeepsLinks c (f s)) :
    KeepsLinks c (get >>= f) := fun s => hf s s

theorem ite {condition : Prop} [Decidable condition] {x y : PosM σ α} (hx : KeepsLinks c x)
    (hy : KeepsLinks c y) : KeepsLinks c (if condition then x else y) := by
  split
  · exact hx
  · exact hy

end KeepsLinks

theorem keepsLinks_remember (low high : Nat) : KeepsLinks c (remember c low high) := fun s =>
  ⟨⟨settled_rememberRange c.gdef s.glyphs low high, rfl⟩, rfl⟩

theorem keepsLinks_breakChain : KeepsLinks c breakChain := fun _ => ⟨⟨rfl, rfl⟩, rfl⟩

theorem keepsLinks_modifyPosition (index : Nat) {f : Position → Position}
    (hf : ∀ p, (f p).back = p.back) : KeepsLinks c (modifyPosition index f) := fun s =>
  ⟨⟨rfl, Array.size_modify⟩, backAt_modify_of_back hf s.positions index⟩

theorem keepsLinks_metric (id : UInt16) : KeepsLinks c (metric c id) := by
  intro s
  rw [outcome_metric]
  exact ⟨⟨rfl, rfl⟩, rfl⟩

theorem keepsLinks_contour (glyph : GlyphId) : KeepsLinks c (contour c glyph) := by
  intro s
  rw [outcome_contour]
  exact ⟨⟨rfl, rfl⟩, rfl⟩

theorem keepsLinks_addMetric (index : Nat) (id : Option UInt16) {add : Int32 → Position → Position}
    (hadd : ∀ n p, (add n p).back = p.back) : KeepsLinks c (addMetric c index id add) := by
  cases id with
  | none => exact .pure _
  | some id =>
    exact (keepsLinks_metric c id).bind fun n => keepsLinks_modifyPosition c index (hadd n)

theorem keepsLinks_adjust (v : ValueRecord) (index : Nat) : KeepsLinks c (adjust c v index) := by
  refine (keepsLinks_modifyPosition c index ?_).bind fun _ =>
    (keepsLinks_addMetric c index _ ?_).bind fun _ =>
      (keepsLinks_addMetric c index _ ?_).bind fun _ =>
      (keepsLinks_addMetric c index _ ?_).bind fun _ => keepsLinks_addMetric c index _ ?_
  · exact fun _ => rfl
  all_goals exact fun _ _ => rfl

theorem keepsLinks_anchorPoint (a : Anchor) (glyph : GlyphId) :
    KeepsLinks c (anchorPoint c a glyph) := by
  unfold anchorPoint
  cases a with
  | design x y => exact .pure _
  | contour x y point =>
    refine KeepsLinks.ite (.pure _) ?_
    refine (keepsLinks_contour c glyph).bind fun points => KeepsLinks.ite (.pure _) ?_
    split
    case h_1 => exact .pure _
    case h_2 => exact .throw _
  | adjusted x y xDevice yDevice => exact KeepsLinks.ite (.pure _) (.pure _)
  | metric x y =>
    exact (keepsLinks_metric c x).bind fun _ => (keepsLinks_metric c y).bind fun _ => .pure _

theorem keepsLinks_atGlyph (flag : LookupFlag) (index : Nat)
    {action : GlyphItem → GlyphProperty → PosM σ (Option Nat)}
    (haction : ∀ item p, KeepsLinks c (action item p)) :
    KeepsLinks c (atGlyph c flag index action) := by
  refine .get_bind fun s => ?_
  split
  case h_1 => exact .pure _
  case h_2 =>
    refine (keepsLinks_remember c _ _).bind fun _ => ?_
    split
    case h_1 => exact .pure _
    case h_2 => exact haction _ _

theorem keepsLinks_applySingle (subtables : Array SinglePos) (index : Nat) (item : GlyphItem) :
    KeepsLinks c (applySingle c subtables index item) := by
  refine (KeepsLinks.lift _).bind fun found => ?_
  cases found with
  | none => exact .pure _
  | some value => exact (keepsLinks_adjust c value index).bind fun _ => .pure _

theorem keepsLinks_applyPair (flag : LookupFlag) (subtables : Array PairPos) (index : Nat)
    (item : GlyphItem) : KeepsLinks c (applyPair c flag subtables index item) := by
  refine .get_bind fun s => ?_
  split
  case h_1 => exact (keepsLinks_remember c _ _).bind fun _ => .pure _
  case h_2 =>
    refine (keepsLinks_remember c _ _).bind fun _ => (KeepsLinks.lift _).bind fun found => ?_
    cases found with
    | none => exact .pure _
    | some found =>
      refine (keepsLinks_adjust c _ _).bind fun _ => ?_
      exact (keepsLinks_adjust c _ _).bind fun _ => .pure _

theorem keepsLinks_join (index : Nat) (entry : Point) (last : Nat) (exit : Point) :
    KeepsLinks c (join c index entry last exit) := by
  unfold join
  dsimp only
  split
  all_goals
    refine (keepsLinks_modifyPosition c _ ?_).bind fun _ => .get_bind fun s =>
      keepsLinks_modifyPosition c _ ?_
    all_goals exact fun _ => rfl

theorem keepsLinks_joinToChain (index : Nat) (item : GlyphItem) (joins : EntryExit) :
    KeepsLinks c (joinToChain c index item joins) := by
  refine .get_bind fun s => ?_
  split
  case h_1 =>
    exact (keepsLinks_anchorPoint c _ _).bind fun _ => keepsLinks_join c _ _ _ _
  case h_2 => exact .pure _

theorem keepsLinks_continueChain (index : Nat) (item : GlyphItem) (joins : EntryExit) :
    KeepsLinks c (continueChain c index item joins) := by
  unfold continueChain
  split
  case h_1 => exact keepsLinks_breakChain c
  case h_2 =>
    exact (keepsLinks_anchorPoint c _ _).bind fun _ => fun _ => ⟨⟨rfl, rfl⟩, rfl⟩

theorem keepsLinks_applyCursive (subtables : Array CursivePos) (index : Nat) (item : GlyphItem)
    (p : GlyphProperty) : KeepsLinks c (applyCursive c subtables index item p) := by
  rw [applyCursive_eq]
  refine .ite ((keepsLinks_breakChain c).bind fun _ => .pure _) ?_
  refine (KeepsLinks.lift _).bind fun found => ?_
  cases found with
  | none => exact (keepsLinks_breakChain c).bind fun _ => .pure _
  | some joins =>
    refine (keepsLinks_joinToChain c index item joins).bind fun _ => ?_
    exact (keepsLinks_continueChain c index item joins).bind fun _ => .pure _

theorem keepsLinks_findTarget (index : Nat) : KeepsLinks c (findTarget c index) :=
  .get_bind fun _ => (keepsLinks_remember c _ _).bind fun _ => .pure _

theorem keepsLinks_findRule (flag : LookupFlag) (index : Nat) (rules : List RuleCandidate) :
    KeepsLinks c (findRule c flag index rules) :=
  .get_bind fun _ => (keepsLinks_remember c _ _).bind fun _ => .pure _

/-! ## §4 Attaching a mark -/

/-- The glyph at an index is linked to the one at `target`, and no other link is changed. -/
structure NewLink (index target : Nat) (s s' : PosState σ) : Prop where
  kept : Kept c s s'
  links : backAt s'.positions = Function.update (backAt s.positions) index (index - target)

variable {c} {s t : PosState σ} {text : Array GlyphItem} {index target : Nat} {goal : Nat → Prop}

theorem NewLink.of_sameLinks {s' : PosState σ} (h : SameLinks c s t)
    (h' : NewLink c index target t s') : NewLink c index target s s' :=
  ⟨h.kept.trans h'.kept, by rw [h'.links, h.links]⟩

/-- From a state, a program that applies links the glyph at an index to one that is a goal. If it
    does not apply, or fails, the links stay. -/
def Attaches (c : PosContext σ) (goal : Nat → Prop) (index : Nat) (x : PosM σ (Option Nat))
    (s : PosState σ) : Prop :=
  Program.Meets x s
    (fun answer s' =>
      if answer.isSome then ∃ target, goal target ∧ NewLink c index target s s'
      else SameLinks c s s')
    fun _ s' => SameLinks c s s'

theorem Attaches.notApplied : Attaches c goal index (pure none) s := SameLinks.refl c s

theorem Attaches.ite {condition : Prop} [Decidable condition] {x : PosM σ (Option Nat)}
    (hx : Attaches c goal index x s) :
    Attaches c goal index (if condition then x else pure none) s := by
  split
  · exact hx
  · exact .notApplied

/-- Something else may be done first. -/
theorem Attaches.after {x : PosM σ α} {f : α → PosM σ (Option Nat)} (hx : KeepsLinks c x)
    (hf : ∀ a t, Program.outcome x s = (.ok a, t) → SameLinks c s t →
      Attaches c goal index (f a) t) : Attaches c goal index (x >>= f) s := by
  have hs := hx s
  unfold Attaches Program.Meets
  rcases hrun : Program.outcome x s with ⟨e | a, t⟩
  · rw [Program.outcome_bind_error hrun]
    rwa [hrun] at hs
  · rw [hrun] at hs
    rw [Program.outcome_bind_ok hrun]
    refine (hf a t hrun hs).mono (fun answer s' h => ?_) fun _ s' h => hs.trans h
    cases answer with
    | none => exact hs.trans h
    | some next =>
      obtain ⟨target, hgoal, hlink⟩ := h
      exact ⟨target, hgoal, hlink.of_sameLinks hs⟩

theorem Attaches.get_bind {f : PosState σ → PosM σ (Option Nat)}
    (hf : Attaches c goal index (f s) s) : Attaches c goal index (get >>= f) s := hf

theorem attaches_attach (targetPoint markPoint : Point) (hindex : index < s.positions.size)
    (htarget : goal target) :
    Attaches c goal index (do
      attach index target targetPoint markPoint
      return some (index + 1)) s := by
  unfold attach
  simp only [bind_assoc]
  -- the first change leaves the link alone, and only the last step writes it
  refine .after (keepsLinks_modifyPosition c index fun _ => rfl) fun _ t _ hmoved => ?_
  refine .after (.lift _) fun back t' hfit _ => ?_
  obtain ⟨hback, rfl⟩ := Prod.mk.inj hfit
  have hlink := backAt_modify_link (hmoved.kept.positioned ▸ hindex) back
  rw [toNat_of_fit16 hback] at hlink
  exact ⟨target, htarget, ⟨rfl, Array.size_modify⟩, hlink⟩

theorem attaches_attachAt (mark : GlyphItem) (targetGlyph : GlyphId)
    (anchors : Except ParseError (Option (Anchor × Anchor))) (hindex : index < s.positions.size)
    (htarget : goal target) :
    Attaches c goal index (attachAt c index target mark targetGlyph anchors) s := by
  refine .after (.lift _) fun found t _ hs => ?_
  cases found with
  | none => exact .notApplied
  | some found =>
    refine .after (keepsLinks_anchorPoint c _ _) fun targetPoint t₁ _ h₁ => ?_
    refine .after (keepsLinks_anchorPoint c _ _) fun markPoint t₂ _ h₂ => ?_
    have hpositioned := ((hs.trans h₁).trans h₂).kept.positioned
    exact attaches_attach targetPoint markPoint (hpositioned ▸ hindex) htarget

section Lookups

variable (htext : settled c.gdef s.glyphs = settled c.gdef text) (hindex : index < s.positions.size)
include htext hindex

/-- What is found by going back over marks is found in the text as it was at the start. -/
theorem attaches_findTarget
    {f : Option (Nat × GlyphItem × GlyphProperty) → PosM σ (Option Nat)}
    (hf : ∀ found t, index < t.positions.size →
      (∀ target item p, found = some (target, item, p) →
        NearestBefore text (fun item => !Gdef.isMarkIn c.gdef item) index target) →
      Attaches c goal index (f found) t) :
    Attaches c goal index (findTarget c index >>= f) s := by
  refine .after (keepsLinks_findTarget c index) fun found t hrun hs => ?_
  refine hf found t (hs.kept.positioned ▸ hindex) fun target item p hfound => ?_
  have hkeeps : Keeps c (fun _ => True) (findTarget c index) s _ := keeps_findTarget
  obtain ⟨-, -, hmarkTarget⟩ := hkeeps.of_ok hrun
  have hmarkTarget := hmarkTarget target item p hfound
  rw [(TextsAlike.of_settled htext).markTarget?] at hmarkTarget
  exact nearestBefore_of_markTarget? hmarkTarget

theorem attaches_applyMarkBase (subtables : Array MarkBasePos) (item : GlyphItem) :
    Attaches c (NearestBefore text (fun item => !Gdef.isMarkIn c.gdef item) index) index
      (applyMarkBase c subtables index item) s := by
  unfold applyMarkBase
  split
  case h_1 => exact .notApplied
  case h_2 =>
    refine attaches_findTarget htext hindex fun found t ht hfound => ?_
    split
    case h_1 => exact .notApplied
    case h_2 target base p =>
      split
      · exact attaches_attachAt _ _ _ ht (hfound target base p rfl)
      · exact .notApplied

theorem attaches_applyMarkLigature (subtables : Array MarkLigPos) (item : GlyphItem) :
    Attaches c (NearestBefore text (fun item => !Gdef.isMarkIn c.gdef item) index) index
      (applyMarkLigature c subtables index item) s := by
  unfold applyMarkLigature
  split
  case h_1 => exact .notApplied
  case h_2 =>
    refine attaches_findTarget htext hindex fun found t ht hfound => ?_
    split
    case h_1 => exact .notApplied
    case h_2 target ligature p =>
      split
      · exact attaches_attachAt _ _ _ ht (hfound target ligature p rfl)
      · exact .notApplied

theorem attaches_applyMarkMark (flag : LookupFlag) (subtables : Array MarkBasePos)
    (item : GlyphItem) :
    Attaches c (fun target => NearestBefore text (GlyphFilter.mk c.gdef flag).admits index target ∧
      text[target]?.any (Gdef.isMarkIn c.gdef) = true) index
      (applyMarkMark c flag subtables index item) s := by
  have halike := TextsAlike.of_settled htext
  unfold applyMarkMark
  split
  case h_1 => exact .notApplied
  case h_2 subtable _ =>
    refine .get_bind (.after (keepsLinks_remember c _ _) fun _ t _ hs => ?_)
    split
    case h_1 => exact .notApplied
    case h_2 target other hresult =>
      -- the other mark has to be there for the lookup to go on
      obtain ⟨target', htarget, hresult⟩ := Option.bind_eq_some_iff.mp hresult
      obtain ⟨other', hother, hresult⟩ := Option.map_eq_some_iff.mp hresult
      cases hresult
      rw [halike.prev?] at htarget
      -- whichever way the other mark passes, it is the nearest glyph before that counts
      have hattach : (Gdef.propertyIn c.gdef other).isMark = true →
          Attaches c
            (fun target => NearestBefore text (GlyphFilter.mk c.gdef flag).admits index target ∧
              text[target]?.any (Gdef.isMarkIn c.gdef) = true)
            index
            (attachAt c index target item other.glyph (subtable.apply other.glyph item.glyph))
            t := by
        intro hmark
        refine attaches_attachAt _ _ _ (hs.kept.positioned ▸ hindex)
          ⟨GlyphFilter.nearestBefore_of_prev? htarget, ?_⟩
        rw [← halike.any_getElem? fun _ _ hxy => hxy.isMarkIn, hother]
        exact hmark
      -- with an attachment class a mark of this class is asked for, otherwise any mark
      dsimp only
      split
      case isTrue hclass =>
        split
        case isTrue hbits => exact hattach (GlyphProperty.isMark_of_bits_eq hclass hbits)
        case isFalse => exact .notApplied
      case isFalse =>
        split
        case isTrue hmark => exact hattach hmark
        case isFalse => exact .notApplied

end Lookups

theorem attaches_atGlyph (flag : LookupFlag)
    {action : GlyphItem → GlyphProperty → PosM σ (Option Nat)}
    (htext : settled c.gdef s.glyphs = settled c.gdef text)
    (hpositioned : s.positions.size = s.glyphs.size)
    (haction : ∀ item p t, settled c.gdef t.glyphs = settled c.gdef text →
      index < t.positions.size → Attaches c goal index (action item p) t) :
    Attaches c goal index (atGlyph c flag index action) s := by
  refine .get_bind ?_
  split
  case h_1 => exact .notApplied
  case h_2 item hitem =>
    refine .after (keepsLinks_remember c _ _) fun _ t _ hs => ?_
    split
    case h_1 => exact .notApplied
    case h_2 p _ =>
      have hindex : index < s.glyphs.size := (Array.getElem?_eq_some_iff.mp hitem).1
      refine haction item p t (hs.kept.text.trans htext) ?_
      rw [hs.kept.positioned, hpositioned]
      exact hindex

end PosM

end OpenTypeLayout
