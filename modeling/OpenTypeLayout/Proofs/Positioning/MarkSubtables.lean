import OpenTypeLayout.Proofs.Positioning.Links

/-!
# Which subtable attaches a mark

Where the glyph is right that a mark would be attached to, the subtables of a lookup are asked for
places for the mark. The first subtable that covers the mark decides, whatever it says about the
other glyph. So a mark is attached at the places of the first subtable that has places for it,
unless a subtable before that one covers the mark; then it is not attached at all.

- `MarkSubtable` is what the three types of lookups that attach marks have in common.
- `Lookup.FindsTarget` says which glyph is found for a mark.
- `PosM.outcome_lookup_of_target` is one step of such a lookup: what the first subtable says that
  covers the mark is what is done.
-/

namespace OpenTypeLayout

/-! ## §1 What decides -/

/-- A subtable that attaches marks: which marks it covers, and where it says that a mark goes on a
    target. The first place is on the target and the second one on the mark. -/
structure MarkSubtable where
  /-- Whether a mark is covered. -/
  covers : GlyphId → Bool
  /-- Where a mark attaches to a target. -/
  anchors : (target mark : GlyphItem) → Except ParseError (Option (Anchor × Anchor))

/-- Marks attach to a base, or to another mark, by what glyphs the two are. -/
def MarkSubtable.ofBase (a : MarkBasePos) : MarkSubtable where
  covers := a.coversMark
  anchors target mark := a.apply target.glyph mark.glyph

/-- Marks attach to the component of a ligature that they belong to. -/
def MarkSubtable.ofLigature (a : MarkLigPos) : MarkSubtable where
  covers := a.coversMark
  anchors target mark :=
    a.apply target.glyph mark.glyph (MarkLigPos.componentOf mark target)

/-- The subtables of a lookup that attach marks, in order. -/
def Positioning.markSubtables : Positioning → List MarkSubtable
  | .markBase subtables => subtables.toList.map .ofBase
  | .markLigature subtables => subtables.toList.map .ofLigature
  | .markMark subtables => subtables.toList.map .ofBase
  | _ => []

/-- What the first of some subtables says that covers a mark. -/
def firstCovering (subtables : List MarkSubtable) (target mark : GlyphItem) :
    Except ParseError (Option (Anchor × Anchor)) :=
  match subtables.find? fun s => s.covers mark.glyph with
  | none => .ok none
  | some s => s.anchors target mark

/-- What is not covered has no place. -/
theorem MarkAttach.coversMark_of_anchors {T : Type} {a : MarkAttach T} {row : T → Option AnchorRow}
    {target mark : GlyphId} {found : Anchor × Anchor}
    (h : a.anchors row target mark = .ok (some found)) : a.coversMark mark = true := by
  unfold anchors at h
  split at h
  case h_1 markIndex _ hmark => rw [coversMark, Coverage.covers, hmark, Option.isSome_some]
  case h_2 => cases h

theorem Positioning.covers_of_anchors {p : Positioning} {subtable : MarkSubtable}
    (hsubtable : subtable ∈ p.markSubtables) {target mark : GlyphItem} {found : Anchor × Anchor}
    (h : subtable.anchors target mark = .ok (some found)) : subtable.covers mark.glyph = true := by
  unfold markSubtables at hsubtable
  split at hsubtable
  case h_1 | h_3 =>
    obtain ⟨a, -, rfl⟩ := List.mem_map.mp hsubtable
    exact MarkAttach.coversMark_of_anchors h
  case h_2 =>
    obtain ⟨a, -, rfl⟩ := List.mem_map.mp hsubtable
    exact MarkAttach.coversMark_of_anchors h
  case h_4 => cases hsubtable

/-- Which subtable covers a mark is the same, whatever is said about the mark. -/
theorem firstCovering_map {T : Type} {view : MarkAttach T → MarkSubtable}
    (hview : ∀ a, (view a).covers = a.coversMark) (subtables : Array (MarkAttach T))
    (target mark : GlyphItem) :
    firstCovering (subtables.toList.map view) target mark =
      match subtables.find? fun a => a.coversMark mark.glyph with
      | none => .ok none
      | some a => (view a).anchors target mark := by
  have hcovers : (fun s : MarkSubtable => s.covers mark.glyph) ∘ view =
      fun a => a.coversMark mark.glyph := funext fun a => congrFun (hview a) mark.glyph
  rw [firstCovering, List.find?_map, hcovers, Array.find?_toList]
  cases subtables.find? fun a => a.coversMark mark.glyph <;> rfl

section

variable {earlier later : List MarkSubtable} {subtable : MarkSubtable} {target mark : GlyphItem}

/-- Subtables that do not cover a mark are passed over. -/
theorem firstCovering_append (hearlier : ∀ s ∈ earlier, s.covers mark.glyph = false)
    (hcovers : subtable.covers mark.glyph = true) :
    firstCovering (earlier ++ subtable :: later) target mark = subtable.anchors target mark := by
  have hnone : earlier.find? (fun s => s.covers mark.glyph) = none :=
    List.find?_eq_none.mpr fun s hs => by simp [hearlier s hs]
  rw [firstCovering, List.find?_append, hnone, Option.none_or, List.find?_cons, hcovers]

/-- Nothing that comes after a subtable that covers a mark is asked. -/
theorem firstCovering_of_covered {s : MarkSubtable} (hs : s ∈ earlier)
    (hcovers : s.covers mark.glyph = true)
    (hnone : ∀ s ∈ earlier, s.anchors target mark = .ok none) :
    firstCovering (earlier ++ later) target mark = .ok none := by
  obtain ⟨first, hfirst⟩ : ∃ first, earlier.find? (fun s => s.covers mark.glyph) = some first :=
    Option.isSome_iff_exists.mp (List.find?_isSome.mpr ⟨s, hs, hcovers⟩)
  rw [firstCovering, List.find?_append, hfirst, Option.some_or]
  exact hnone first (List.mem_of_find?_eq_some hfirst)

end

/-! ## §2 What a mark attaches to -/

/-- A lookup with a flag that ignores the glyphs it attaches marks to does nothing. -/
def Lookup.ignoresTargets (lookup : Lookup Positioning) : Bool :=
  match lookup.subtables with
  | .markBase _ => lookup.flag.ignoresBases
  | .markLigature _ => lookup.flag.ignoresLigatures
  | .markMark _ => lookup.flag.ignoresMarks
  | _ => false

/-- The glyph that is found for the mark at an index is at `target`, and it is of the kind that the
    lookup attaches marks to: a base or a glyph without a class, a ligature, or a mark, which has to
    be of the attachment class of the lookup if there is one. -/
def Lookup.FindsTarget (lookup : Lookup Positioning) (table : Option Gdef) (text : Array GlyphItem)
    (index target : Nat) (other : GlyphItem) : Prop :=
  text[target]? = some other ∧
    match lookup.subtables with
    | .markBase _ =>
      PosM.markTarget? table text index = some (target, .base) ∨
        PosM.markTarget? table text index = some (target, .none)
    | .markLigature _ => PosM.markTarget? table text index = some (target, .ligature)
    | .markMark _ =>
      (GlyphFilter.mk table lookup.flag).prev? text index = some target ∧
        if lookup.flag.markAttachmentType ≠ 0 then
          (Gdef.propertyIn table other).bits = lookup.flag.markAttachmentType
        else (Gdef.propertyIn table other).isMark = true
    | _ => False

namespace Lookup.FindsTarget

variable {lookup : Lookup Positioning} {table : Option Gdef} {text : Array GlyphItem}
variable {index target : Nat} {other : GlyphItem}

theorem lt (h : lookup.FindsTarget table text index target other) : target < index := by
  obtain ⟨-, h⟩ := h
  split at h
  · rcases h with h | h <;> exact (PosM.nearestBefore_of_markTarget? h).before
  · exact (PosM.nearestBefore_of_markTarget? h).before
  · exact (GlyphFilter.nearestBefore_of_prev? h.1).before
  · exact h.elim

theorem attachesMarks (h : lookup.FindsTarget table text index target other) :
    lookup.subtables.attachesMarks = true := by
  obtain ⟨-, h⟩ := h
  split at h
  case h_1 hsubtables => rw [hsubtables, Positioning.attachesMarks]
  case h_2 hsubtables => rw [hsubtables, Positioning.attachesMarks]
  case h_3 hsubtables => rw [hsubtables, Positioning.attachesMarks]
  case h_4 => exact h.elim

/-- The same glyph is found once the property of the mark has been kept. -/
theorem remember (h : lookup.FindsTarget table text index target other) :
    lookup.FindsTarget table (rememberRange table text index (index + 1)) index target other := by
  have halike : TextsAlike table table text (rememberRange table text index (index + 1)) :=
    .of_settled (settled_rememberRange table text index (index + 1))
  have hlt := h.lt
  refine ⟨?_, ?_⟩
  · rw [getElem?_rememberRange, if_neg (by omega)]
    exact h.1
  · simpa only [halike.markTarget?, halike.prev?] using h.2

end Lookup.FindsTarget

/-! ## §3 One lookup -/

namespace PosM

variable {σ : Type} {c : PosContext σ} {s : PosState σ} {index target : Nat}
    {mark other : GlyphItem}

/-- Something is done with the glyph at an index, its property being kept, if the lookup does
    not skip it. -/
theorem outcome_atGlyph {flag : LookupFlag} (hmark : s.glyphs[index]? = some mark)
    (hadmits : Gdef.admits c.gdef flag mark = true)
    (action : GlyphItem → GlyphProperty → PosM σ (Option Nat)) :
    ∃ p, Program.outcome (atGlyph c flag index action) s =
      Program.outcome (action mark p)
        { s with glyphs := rememberRange c.gdef s.glyphs index (index + 1) } := by
  obtain ⟨p, hp⟩ := Option.isSome_iff_exists.mp hadmits
  refine ⟨p, ?_⟩
  rw [atGlyph, Program.outcome_get_bind, hmark]
  dsimp only
  rw [hp]
  rfl

theorem outcome_attachAt_none (c : PosContext σ) (index target : Nat) (mark : GlyphItem)
    (targetGlyph : GlyphId) (s : PosState σ) :
    Program.outcome (attachAt c index target mark targetGlyph (.ok none)) s = (.ok none, s) := rfl

/-- With a base as its target, a mark goes where the first subtable says that covers it. -/
theorem outcome_applyMarkBase {subtables : Array MarkBasePos} {p : GlyphProperty}
    (hp : p = .base ∨ p = .none) (htarget : markTarget? c.gdef s.glyphs index = some (target, p))
    (hother : s.glyphs[target]? = some other) :
    ∃ glyphs, settled c.gdef glyphs = settled c.gdef s.glyphs ∧
      Program.outcome (applyMarkBase c subtables index mark) s =
        Program.outcome (attachAt c index target mark other.glyph
          (firstCovering (subtables.toList.map .ofBase) other mark)) { s with glyphs } := by
  rw [firstCovering_map fun _ => rfl, applyMarkBase]
  cases subtables.find? fun s => s.coversMark mark.glyph with
  | none => exact ⟨s.glyphs, rfl, rfl⟩
  | some subtable =>
    have hkind : (decide (p = .base) || decide (p = .none)) = true := by simpa using hp
    refine ⟨rememberRange c.gdef s.glyphs target index, settled_rememberRange _ _ _ _, ?_⟩
    dsimp only
    rw [Program.outcome_bind_ok (outcome_findTarget htarget hother)]
    dsimp only
    rw [if_pos hkind]
    rfl

/-- With a ligature as its target, a mark goes where the first subtable says that covers it. -/
theorem outcome_applyMarkLigature {subtables : Array MarkLigPos}
    (htarget : markTarget? c.gdef s.glyphs index = some (target, .ligature))
    (hother : s.glyphs[target]? = some other) :
    ∃ glyphs, settled c.gdef glyphs = settled c.gdef s.glyphs ∧
      Program.outcome (applyMarkLigature c subtables index mark) s =
        Program.outcome (attachAt c index target mark other.glyph
          (firstCovering (subtables.toList.map .ofLigature) other mark)) { s with glyphs } := by
  rw [firstCovering_map fun _ => rfl, applyMarkLigature]
  cases subtables.find? fun s => s.coversMark mark.glyph with
  | none => exact ⟨s.glyphs, rfl, rfl⟩
  | some subtable =>
    refine ⟨rememberRange c.gdef s.glyphs target index, settled_rememberRange _ _ _ _, ?_⟩
    dsimp only
    rw [Program.outcome_bind_ok (outcome_findTarget htarget hother)]
    rfl

/-- With a mark as its target, a mark goes where the first subtable says that covers it. -/
theorem outcome_applyMarkMark {flag : LookupFlag} {subtables : Array MarkBasePos}
    (htarget : (GlyphFilter.mk c.gdef flag).prev? s.glyphs index = some target)
    (hother : s.glyphs[target]? = some other)
    (hkind : if flag.markAttachmentType ≠ 0 then
        (Gdef.propertyIn c.gdef other).bits = flag.markAttachmentType
      else (Gdef.propertyIn c.gdef other).isMark = true) :
    ∃ glyphs, settled c.gdef glyphs = settled c.gdef s.glyphs ∧
      Program.outcome (applyMarkMark c flag subtables index mark) s =
        Program.outcome (attachAt c index target mark other.glyph
          (firstCovering (subtables.toList.map .ofBase) other mark)) { s with glyphs } := by
  rw [firstCovering_map fun _ => rfl, applyMarkMark]
  cases subtables.find? fun s => s.coversMark mark.glyph with
  | none => exact ⟨s.glyphs, rfl, rfl⟩
  | some subtable =>
    -- the glyphs are looked up on the way to the target, which changes nothing else
    refine ⟨rememberRange c.gdef s.glyphs target index, settled_rememberRange _ _ _ _, ?_⟩
    dsimp only
    rw [Program.outcome_get_bind, htarget]
    dsimp only [Option.bind_some]
    rw [hother]
    dsimp only [Option.map_some]
    rw [if_pos hkind]
    rfl

/-- What a lookup that attaches marks does with a glyph that it does not skip. -/
def applyMark (c : PosContext σ) (lookup : Lookup Positioning) (index : Nat) (item : GlyphItem) :
    PosM σ (Option Nat) :=
  match lookup.subtables with
  | .markBase subtables => applyMarkBase c subtables index item
  | .markLigature subtables => applyMarkLigature c subtables index item
  | .markMark subtables => applyMarkMark c lookup.flag subtables index item
  | _ => return none

theorem outcome_applyMark (mark : GlyphItem) {lookup : Lookup Positioning}
    (htarget : lookup.FindsTarget c.gdef s.glyphs index target other) :
    ∃ glyphs, settled c.gdef glyphs = settled c.gdef s.glyphs ∧
      Program.outcome (applyMark c lookup index mark) s =
        Program.outcome (attachAt c index target mark other.glyph
          (firstCovering lookup.subtables.markSubtables other mark)) { s with glyphs } := by
  obtain ⟨hother, hkind⟩ := htarget
  unfold applyMark Positioning.markSubtables
  -- each type looks for its target in its own way, and then does the same with it
  cases hsubtables : lookup.subtables with
  | markBase subtables =>
    rw [hsubtables] at hkind
    -- the glyph is a base, or there are no classes that could tell
    rcases hkind with hfound | hfound
    · exact outcome_applyMarkBase (.inl rfl) hfound hother
    · exact outcome_applyMarkBase (.inr rfl) hfound hother
  | markLigature subtables =>
    rw [hsubtables] at hkind
    exact outcome_applyMarkLigature hkind hother
  | markMark subtables =>
    rw [hsubtables] at hkind
    exact outcome_applyMarkMark hkind.1 hother hkind.2
  | single | pair | cursive | context | chained =>
    rw [hsubtables] at hkind
    exact hkind.elim

section

variable {layout : LayoutTable Positioning} {lookup : Lookup Positioning} {lookupIndex : Nat}
variable {contextLength : UInt16}

/-- A lookup that attaches marks, with a flag that does not ignore what it attaches them to, goes to
    the glyph at an index. -/
theorem outcome_applyLookup_mark (levels : Nat) (hlookup : layout.lookup lookupIndex = .ok lookup)
    (hmarks : lookup.subtables.attachesMarks = true) (hflag : lookup.ignoresTargets = false)
    (hfits : fitsContext 1 contextLength = true) :
    Program.outcome (applyLookup c layout (levels + 1) lookupIndex index contextLength) s =
      Program.outcome
        (atGlyph c lookup.flag index fun item _ => applyMark c lookup index item) s := by
  -- the lookup is read first
  have hread : Program.outcome (LayoutError.ofParse (layout.lookup lookupIndex) : PosM σ _) s =
      (.ok lookup, s) := by
    rw [hlookup]
    rfl
  rw [applyLookup_succ, Program.outcome_bind_ok hread]
  -- nothing is applied if the context has no room or the targets are ignored
  have hopen : ∀ ignored, ignored = false → (fitsContext 1 contextLength && !ignored) = true := by
    rintro _ rfl
    rw [hfits]
    rfl
  obtain ⟨flag, subtables⟩ := lookup
  cases subtables with
  -- these are the types that attach marks
  | markBase | markLigature | markMark =>
    have hcondition := hopen _ hflag
    unfold Lookup.ignoresTargets at hcondition
    dsimp only at hcondition
    unfold applySubtables
    dsimp only
    rw [if_pos hcondition]
    rfl
  | single | pair | cursive | context | chained => cases hmarks

/-- One step of a lookup that attaches marks: with the right glyph as its target, a mark goes where
    the first subtable says that covers it. -/
theorem outcome_lookup_of_target (levels : Nat) (hlookup : layout.lookup lookupIndex = .ok lookup)
    (hflag : lookup.ignoresTargets = false) (hfits : fitsContext 1 contextLength = true)
    (hmark : s.glyphs[index]? = some mark) (hadmits : Gdef.admits c.gdef lookup.flag mark = true)
    (htarget : lookup.FindsTarget c.gdef s.glyphs index target other) :
    ∃ glyphs, settled c.gdef glyphs = settled c.gdef s.glyphs ∧
      Program.outcome (applyLookup c layout (levels + 1) lookupIndex index contextLength) s =
        Program.outcome (attachAt c index target mark other.glyph
          (firstCovering lookup.subtables.markSubtables other mark)) { s with glyphs } := by
  have hsettled := settled_rememberRange c.gdef s.glyphs index (index + 1)
  obtain ⟨p, hrun⟩ := outcome_atGlyph hmark hadmits fun item _ => applyMark c lookup index item
  obtain ⟨glyphs, hglyphs, happly⟩ := outcome_applyMark mark
    (s := { s with glyphs := rememberRange c.gdef s.glyphs index (index + 1) }) htarget.remember
  refine ⟨glyphs, hglyphs.trans hsettled, ?_⟩
  rw [outcome_applyLookup_mark levels hlookup htarget.attachesMarks hflag hfits, hrun, happly]

/-- **The first subtable that covers a mark decides.** Let some subtable have places for the mark at
    an index and the glyph that is found for it, and let those before it have none, and not fail. If
    none of those before it covers the mark, the mark is attached at the places of this subtable.
    But if one does, nothing is done, and this subtable is not asked. -/
theorem mark_attached_by_first (levels : Nat) (hlookup : layout.lookup lookupIndex = .ok lookup)
    (hflag : lookup.ignoresTargets = false) (hfits : fitsContext 1 contextLength = true)
    (hmark : s.glyphs[index]? = some mark) (hadmits : Gdef.admits c.gdef lookup.flag mark = true)
    (htarget : lookup.FindsTarget c.gdef s.glyphs index target other)
    {earlier later : List MarkSubtable} {subtable : MarkSubtable} {onTarget onMark : Anchor}
    (hsubtables : lookup.subtables.markSubtables = earlier ++ subtable :: later)
    (hearlier : ∀ s ∈ earlier, s.anchors other mark = .ok none)
    (hsubtable : subtable.anchors other mark = .ok (some (onTarget, onMark))) :
    ∃ glyphs, settled c.gdef glyphs = settled c.gdef s.glyphs ∧
      ((∀ s ∈ earlier, s.covers mark.glyph = false) →
        Program.outcome (applyLookup c layout (levels + 1) lookupIndex index contextLength) s =
          Program.outcome (attachAt c index target mark other.glyph (.ok (some (onTarget, onMark))))
            { s with glyphs }) ∧
      ((∃ s ∈ earlier, s.covers mark.glyph = true) →
        Program.outcome (applyLookup c layout (levels + 1) lookupIndex index contextLength) s =
          (.ok none, { s with glyphs })) := by
  obtain ⟨glyphs, hglyphs, hrun⟩ :=
    outcome_lookup_of_target levels hlookup hflag hfits hmark hadmits htarget
  -- a subtable with both anchors covers the mark
  have hcovers : subtable.covers mark.glyph = true := by
    apply Positioning.covers_of_anchors (p := lookup.subtables) _ hsubtable
    rw [hsubtables]
    exact List.mem_append_right _ List.mem_cons_self
  -- whether an earlier subtable covers the mark decides what happens
  refine ⟨glyphs, hglyphs, fun hfree => ?_, fun ⟨blocking, hblocking, hcovered⟩ => ?_⟩
  · rw [hrun, hsubtables, firstCovering_append hfree hcovers, hsubtable]
  · rw [hrun, hsubtables, firstCovering_of_covered hblocking hcovered hearlier,
      outcome_attachAt_none]

end

end PosM

/-! A font with two subtables that attach marks to bases. Only the second one has places for the
    mark 3 on the base 1; the first one covers some mark and the base 9. -/

namespace TwoMarkSubtables

open PosM

def gdef : Gdef := { classes := some (.ranges #[⟨1, 1, 1⟩, ⟨3, 3, 3⟩]) }

def first (covered : GlyphId) : MarkBasePos where
  markCoverage := .glyphs #[covered]
  targetCoverage := .glyphs #[9]
  classCount := 1
  marks := #[⟨0, some (.design 0 0)⟩]
  targets := #[#[some (.design 0 0)]]

def second : MarkBasePos where
  markCoverage := .glyphs #[3]
  targetCoverage := .glyphs #[1]
  classCount := 1
  marks := #[⟨0, some (.design 10 20)⟩]
  targets := #[#[some (.design 100 200)]]

/-- The lookup, with the mark that the first subtable covers. -/
def lookup (covered : GlyphId) : Lookup Positioning where
  flag := .empty
  subtables := .markBase #[first covered, second]

def layout (covered : GlyphId) : LayoutTable Positioning where
  scripts := #[]
  features := #[]
  lookups := #[lookup covered]

def context : PosContext Unit where
  gdef := some gdef
  params := {}
  source := { contour := PosSource.noOutlines, metric := PosSource.noMetrics }

def base : GlyphItem := { glyph := 1, activation := 1, cluster := 0 }

def mark : GlyphItem := { glyph := 3, activation := 1, cluster := 1 }

def before : PosOutcome Unit where
  glyphs := #[base, mark]
  positions := #[]
  kept := ()

theorem findsTarget (covered : GlyphId) :
    (lookup covered).FindsTarget context.gdef before.glyphs 1 0 base :=
  ⟨rfl, .inl (by decide)⟩

/-- If the first subtable covers another mark, the second one attaches the mark 3. -/
theorem mark_attached_by_second :
    (Program.outcome (applyLookup context (layout 5) 1 0 1 noContext)
      (startOf before)).2.positions =
      #[{}, { x := 90, y := 180, back := 1 }] := by
  have hlookup : (layout 5).lookup 0 = .ok (lookup 5) := rfl
  have hflag : (lookup 5).ignoresTargets = false := rfl
  have hfits : fitsContext 1 noContext = true := by decide
  have hmark : (startOf before).glyphs[1]? = some mark := rfl
  have hadmits : Gdef.admits context.gdef (lookup 5).flag mark = true := by decide
  have hsubtables : (lookup 5).subtables.markSubtables =
      [.ofBase (first 5)] ++ MarkSubtable.ofBase second :: [] := rfl
  -- the first subtable has no anchor for this base
  have hearlier : ∀ s ∈ [MarkSubtable.ofBase (first 5)], s.anchors base mark = .ok none := by
    intro s hs
    obtain rfl := List.mem_singleton.mp hs
    decide
  have hsecond : (MarkSubtable.ofBase second).anchors base mark =
      .ok (some (.design 100 200, .design 10 20)) := by decide
  obtain ⟨glyphs, -, hattached, -⟩ := mark_attached_by_first 0 hlookup hflag hfits hmark hadmits
    (findsTarget 5) hsubtables hearlier hsecond
  -- and it does not cover the mark either
  have hfree : ∀ s ∈ [MarkSubtable.ofBase (first 5)], s.covers mark.glyph = false := by
    intro s hs
    obtain rfl := List.mem_singleton.mp hs
    decide
  rw [hattached hfree]
  rfl

/-- The layout table of a font in which both subtables cover the mark 3. -/
def data : ByteArray := ⟨#[
  0x00, 0x01, 0x00, 0x00, 0x00, 0x00, 0x00, 0x00, 0x00, 0x0A,
  -- one lookup with two subtables
  0x00, 0x01, 0x00, 0x04, 0x00, 0x04, 0x00, 0x00, 0x00, 0x02, 0x00, 0x0A, 0x00, 0x38,
  -- the first one covers the mark 3 and the base 9
  0x00, 0x01, 0x00, 0x0C, 0x00, 0x12, 0x00, 0x01, 0x00, 0x18, 0x00, 0x24,
  0x00, 0x01, 0x00, 0x01, 0x00, 0x03, 0x00, 0x01, 0x00, 0x01, 0x00, 0x09,
  0x00, 0x01, 0x00, 0x00, 0x00, 0x06, 0x00, 0x01, 0x00, 0x00, 0x00, 0x00,
  0x00, 0x01, 0x00, 0x04, 0x00, 0x01, 0x00, 0x00, 0x00, 0x00,
  -- the second one covers the mark 3 and the base 1
  0x00, 0x01, 0x00, 0x0C, 0x00, 0x12, 0x00, 0x01, 0x00, 0x18, 0x00, 0x24,
  0x00, 0x01, 0x00, 0x01, 0x00, 0x03, 0x00, 0x01, 0x00, 0x01, 0x00, 0x01,
  0x00, 0x01, 0x00, 0x00, 0x00, 0x06, 0x00, 0x01, 0x00, 0x0A, 0x00, 0x14,
  0x00, 0x01, 0x00, 0x04, 0x00, 0x01, 0x00, 0x64, 0x00, 0xC8]⟩

def table : ActiveTable Positioning where
  layout := layout 3
  bits := #[1]

theorem ofWindow_data : LayoutTable.ofWindow (Window.ofBytes data) = .ok table.layout := by
  rw [LayoutTable.ofWindow_eq_afresh]
  decide +kernel

/-- If the first subtable covers the mark 3 too, the mark is not attached, even though the second
    subtable has places for it and the first one has none and does not fail. -/
theorem mark_not_attached :
    LayoutTable.ofWindow (Window.ofBytes data) = .ok table.layout ∧
    table.active = [(0, 1)] ∧ table.layout.lookup 0 = .ok (lookup 3) ∧
    (lookup 3).ignoresTargets = false ∧ Gdef.admits context.gdef (lookup 3).flag mark = true ∧
    (Gdef.propertyIn context.gdef mark).isMark = true ∧
    (lookup 3).FindsTarget context.gdef before.glyphs 1 0 base ∧
    (lookup 3).subtables.markSubtables.map (fun s => s.anchors base mark) =
      [.ok none, .ok (some (.design 100 200, .design 10 20))] ∧
    table.position context before =
      (.ok (), { before with
        glyphs := before.glyphs.map (Gdef.remember context.gdef), positions := #[{}, {}] }) :=
  ⟨ofWindow_data, by decide, rfl, rfl, by decide, by decide, findsTarget 3, by decide,
    by decide +kernel⟩

end TwoMarkSubtables

end OpenTypeLayout
