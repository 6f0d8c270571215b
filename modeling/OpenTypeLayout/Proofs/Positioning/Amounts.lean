import OpenTypeLayout.Positioning.Apply

/-!
# Tables with other amounts

Which glyphs a positioning table is about, and in which order its lookups look at them, does not
depend on its value records and anchors. A table in which all of these have been changed gives the
same answers, with the same changes.

- `ActiveTable.mapAmounts` changes every value record and every anchor of a table.
- There is one lemma for each kind of subtable: asking and changing can be done in either order.
-/

namespace OpenTypeLayout

/-! ## §1 Subtables -/

section Subtables

variable (value : ValueRecord → ValueRecord) (anchor : Anchor → Anchor)

/-- Change every entry. The glyphs that are covered stay the same. -/
def CoverageMap.map {α β : Type} (f : α → β) (m : CoverageMap α) : CoverageMap β where
  coverage := m.coverage
  entries := m.entries.map f

def SinglePos.mapAmounts : SinglePos → SinglePos
  | .all coverage v => .all coverage (value v)
  | .each values => .each (values.map value)

def PairValue.mapAmounts (v : PairValue) : PairValue := ⟨value v.first, value v.second⟩

/-- The formats stay as they are, and with them the index at which the next pair may begin. -/
def PairPos.mapAmounts : PairPos → PairPos
  | .byGlyph secondFormat sets =>
    .byGlyph secondFormat
      (sets.map fun set => set.map fun (glyph, v) => (glyph, v.mapAmounts value))
  | .byClass coverage secondFormat first second secondCount rows =>
    .byClass coverage secondFormat first second secondCount
      (rows.map fun row => row.map (PairValue.mapAmounts value))

/-- Change the anchors at which a glyph is joined, those of them that there are. -/
def EntryExit.mapAnchors (joins : EntryExit) : EntryExit :=
  ⟨joins.entry.map anchor, joins.exit.map anchor⟩

def AnchorRow.mapAnchors (row : AnchorRow) : AnchorRow := row.map (Option.map anchor)

/-- Change the anchors of marks, and each target as given. Marks keep their classes. -/
def MarkAttach.mapAnchors {T : Type} (target : T → T) (a : MarkAttach T) : MarkAttach T where
  markCoverage := a.markCoverage
  targetCoverage := a.targetCoverage
  classCount := a.classCount
  marks := a.marks.map fun r => { r with anchor := r.anchor.map anchor }
  targets := a.targets.map target

def MarkBasePos.mapAnchors (p : MarkBasePos) : MarkBasePos :=
  MarkAttach.mapAnchors anchor (AnchorRow.mapAnchors anchor) p

def MarkLigPos.mapAnchors (p : MarkLigPos) : MarkLigPos :=
  MarkAttach.mapAnchors anchor (fun rows => rows.map (AnchorRow.mapAnchors anchor)) p

/-- Lookups with context have no amounts of their own. -/
def Positioning.mapAmounts : Positioning → Positioning
  | .single subtables => .single (subtables.map (SinglePos.mapAmounts value))
  | .pair subtables => .pair (subtables.map (PairPos.mapAmounts value))
  | .cursive subtables => .cursive (subtables.map (CoverageMap.map (EntryExit.mapAnchors anchor)))
  | .markBase subtables => .markBase (subtables.map (MarkBasePos.mapAnchors anchor))
  | .markLigature subtables => .markLigature (subtables.map (MarkLigPos.mapAnchors anchor))
  | .markMark subtables => .markMark (subtables.map (MarkBasePos.mapAnchors anchor))
  | .context subtables => .context subtables
  | .chained subtables => .chained subtables

/-- Change every value record and every anchor of a lookup. -/
def Lookup.mapAmounts (l : Lookup Positioning) : Lookup Positioning :=
  { l with subtables := l.subtables.mapAmounts value anchor }

/-- Change every value record and every anchor of a table. -/
def LayoutTable.mapAmounts (layout : LayoutTable Positioning) : LayoutTable Positioning :=
  { layout with lookups := layout.lookups.map (Lookup.mapAmounts value anchor) }

/-- Change every value record and every anchor of a table, and leave the activation as it is. -/
def ActiveTable.mapAmounts (table : ActiveTable Positioning) : ActiveTable Positioning :=
  { table with layout := table.layout.mapAmounts value anchor }

end Subtables

/-! ## §2 Leaving the amounts as they are -/

theorem CoverageMap.map_id {α : Type} {f : α → α} (hf : ∀ a, f a = a) (m : CoverageMap α) :
    m.map f = m := by
  rw [map, funext (g := id) hf, Array.map_id_fun, id]

theorem Positioning.mapAmounts_id (p : Positioning) : p.mapAmounts id id = p := by
  have hjoins : ∀ joins : EntryExit, joins.mapAnchors id = joins := fun joins => by
    simp [EntryExit.mapAnchors]
  have hrow : AnchorRow.mapAnchors id = id := funext fun row => by simp [AnchorRow.mapAnchors]
  cases p with
  | single subtables =>
    have hsingle : SinglePos.mapAmounts id = id := funext fun s => by
      cases s <;> simp [SinglePos.mapAmounts, CoverageMap.map_id]
    simp [mapAmounts, hsingle]
  | pair subtables =>
    have hvalue : PairValue.mapAmounts id = id := rfl
    have hpair : PairPos.mapAmounts id = id := funext fun s => by
      cases s <;> simp [PairPos.mapAmounts, CoverageMap.map_id, hvalue]
    simp [mapAmounts, hpair]
  | cursive subtables => simp [mapAmounts, funext (CoverageMap.map_id hjoins)]
  | markBase subtables | markMark subtables =>
    have hmarks : MarkBasePos.mapAnchors id = id := funext fun a => by
      simp [MarkBasePos.mapAnchors, MarkAttach.mapAnchors, hrow]
    simp [mapAmounts, hmarks]
  | markLigature subtables =>
    have hmarks : MarkLigPos.mapAnchors id = id := funext fun a => by
      simp [MarkLigPos.mapAnchors, MarkAttach.mapAnchors, hrow]
    simp [mapAmounts, hmarks]
  | context subtables | chained subtables => rfl

theorem ActiveTable.mapAmounts_id (table : ActiveTable Positioning) :
    table.mapAmounts id id = table := by
  have hlookup : Lookup.mapAmounts id id = id := funext fun l => by
    simp [Lookup.mapAmounts, Positioning.mapAmounts_id]
  simp [mapAmounts, LayoutTable.mapAmounts, hlookup]

/-! ## §3 Answers -/

theorem CoverageMap.find_map {α β : Type} (f : α → β) (m : CoverageMap α) (glyph : GlyphId) :
    (m.map f).find glyph = (m.find glyph).map (Option.map f) := by
  rw [find, find]
  cases hindex : m.coverage.index? glyph with
  | none => simp only [map, hindex]; rfl
  | some index =>
    simp only [map, hindex, Array.getElem?_map]
    cases m.entries[index.toNat]? <;> rfl

/-- If changed subtables give changed answers, the first answer of them all is changed too. -/
theorem firstAnswer_map {α α' β β' : Type} {answer : α → Except ParseError (Option β)}
    {answer' : α' → Except ParseError (Option β')} {f : α → α'} {g : β → β'}
    (h : ∀ a, answer' (f a) = (answer a).map (Option.map g)) (list : List α) :
    firstAnswer answer' (list.map f) = (firstAnswer answer list).map (Option.map g) := by
  induction list with
  | nil => rfl
  | cons a rest ih =>
    rw [List.map_cons, firstAnswer, firstAnswer, h]
    rcases answer a with _ | _ | b
    · rfl
    · exact ih
    · rfl

section Answers

variable (value : ValueRecord → ValueRecord) (anchor : Anchor → Anchor)

theorem SinglePos.apply_mapAmounts (s : SinglePos) (glyph : GlyphId) :
    (s.mapAmounts value).apply glyph = (s.apply glyph).map (Option.map value) := by
  cases s with
  | all coverage v =>
    simp only [mapAmounts, apply]
    split <;> rfl
  | each values => exact values.find_map value glyph

theorem PairPos.adjustsSecond_mapAmounts (s : PairPos) :
    (s.mapAmounts value).adjustsSecond = s.adjustsSecond := by
  cases s <;> rfl

theorem PairPos.apply_mapAmounts (s : PairPos) (first second : GlyphId) :
    (s.mapAmounts value).apply first second =
      (s.apply first second).map (Option.map (PairValue.mapAmounts value)) := by
  cases s with
  | byGlyph secondFormat sets =>
    simp only [mapAmounts, apply, CoverageMap.find_map]
    rcases sets.find first with _ | _ | set
    · rfl
    · rfl
    · simp only [Except.map, Option.map_some, bind, Except.bind, pure, Except.pure]
      congr 1
      -- pairs are found by their second glyph, which stays the same
      rw [← Array.find?_toList, ← Array.find?_toList, Array.toList_map, List.find?_map]
      simp only [Option.map_map]
      rfl
  | byClass coverage secondFormat firstClasses secondClasses secondCount rows =>
    simp only [mapAmounts, apply, Array.getElem?_map]
    split
    case isTrue =>
      split
      case isTrue =>
        rcases rows[(firstClasses.value first).toNat]? with _ | row
        · rfl
        · simp only [Option.map_some, Option.bind_some, Array.getElem?_map]
          cases row[(secondClasses.value second).toNat]? <;> rfl
      case isFalse => rfl
    case isFalse => rfl

theorem MarkAttach.mark_mapAnchors {T : Type} (target : T → T) (a : MarkAttach T) (index : UInt16) :
    (a.mapAnchors anchor target).mark index =
      (a.mark index).map fun r => { r with anchor := r.anchor.map anchor } := by
  simp only [mark, mapAnchors, Array.getElem?_map]
  cases a.marks[index.toNat]? with
  | none => rfl
  | some r =>
    by_cases hclass : r.markClass.toNat < a.classCount <;> simp [hclass, Except.map]

/-- If rows are picked from changed entries as from those that they come from, then what attaches
    are the same anchors, changed. -/
theorem MarkAttach.anchors_mapAnchors {T : Type} {target : T → T} (a : MarkAttach T)
    {row : T → Option AnchorRow}
    (hrow : ∀ entry, row (target entry) = (row entry).map (AnchorRow.mapAnchors anchor))
    (targetGlyph markGlyph : GlyphId) :
    (a.mapAnchors anchor target).anchors row targetGlyph markGlyph =
      (a.anchors row targetGlyph markGlyph).map (Option.map (Prod.map anchor anchor)) := by
  -- both sides ask the same tables in the same order, so the cases are the answers of these
  unfold anchors
  rw [show (a.mapAnchors anchor target).targetCoverage = a.targetCoverage from rfl,
    show (a.mapAnchors anchor target).markCoverage = a.markCoverage from rfl,
    show (a.mapAnchors anchor target).targets = a.targets.map target from rfl]
  rcases a.targetCoverage.index? targetGlyph with _ | targetIndex
  · rfl
  rcases a.markCoverage.index? markGlyph with _ | markIndex
  · rfl
  dsimp only
  rw [mark_mapAnchors, Array.getElem?_map]
  rcases a.mark markIndex with _ | r
  · rfl
  rcases a.targets[targetIndex.toNat]? with _ | entry
  · rfl
  simp only [Except.map, bind, Except.bind, pure, Except.pure, Option.map_some, hrow]
  congr 1
  rcases row entry with _ | anchors
  · rfl
  simp only [Option.map_some, Option.bind_some, AnchorRow.mapAnchors, Array.getElem?_map]
  rcases anchors[r.markClass.toNat]? with _ | _ | targetAnchor
  · rfl
  · rfl
  · cases r.anchor <;> rfl

theorem MarkBasePos.apply_mapAnchors (p : MarkBasePos) (base mark : GlyphId) :
    (p.mapAnchors anchor).apply base mark =
      (p.apply base mark).map (Option.map (Prod.map anchor anchor)) :=
  MarkAttach.anchors_mapAnchors anchor p (fun _ => rfl) base mark

theorem MarkLigPos.apply_mapAnchors (p : MarkLigPos) (ligature mark : GlyphId)
    (component : Option UInt16) :
    (p.mapAnchors anchor).apply ligature mark component =
      (p.apply ligature mark component).map (Option.map (Prod.map anchor anchor)) := by
  refine MarkAttach.anchors_mapAnchors anchor p (fun rows => ?_) ligature mark
  cases component with
  | none => simp only [Array.back?_map]
  | some c => simp only [Array.getElem?_map]

theorem LayoutTable.lookup_mapAmounts (layout : LayoutTable Positioning) (index : Nat) :
    (layout.mapAmounts value anchor).lookup index =
      (layout.lookup index).map (Lookup.mapAmounts value anchor) := by
  simp only [lookup, mapAmounts, Array.getElem?_map]
  cases layout.lookups[index]? <;> rfl

end Answers

end OpenTypeLayout
