import OpenTypeLayout.Proofs.LoadedBytes
import OpenTypeLayout.Proofs.Positioning.Loaded
import OpenTypeLayout.Proofs.RuleFormats
import OpenTypeLayout.Proofs.SharedLoading
import OpenTypeLayout.Proofs.StoredContexts

/-!
# Indexing in subtables that have been read

A subtable looks entries up by coverage index, by class and by the class of a mark. Coverage indices
and classes are compared with the number of entries when a glyph is met. That entries of rows are in
range is left to what reading makes sure of: rows of pairs have as many entries as there are classes
of second glyphs, rows of anchors as many as there are classes of marks, and a list of coverage
tables for the input is not empty.

- The definitions that begin with `direct` do what the subtables do, by direct indexing.
- §2 proves what reading makes sure of, for each kind of row.
- §3 puts the kinds of subtables together: whatever is read, from whatever cache, each direct
  look-up stays in range, and the only failure is a bad index.
-/

namespace OpenTypeLayout

/-! ## §1 Looking up in subtables -/

/-- The entry for a glyph. -/
def CoverageMap.directFind {α : Type} (m : CoverageMap α) (glyph : GlyphId) :
    DirectAnswer (Option α) :=
  match m.coverage.index? glyph with
  | none => return none
  | some index => return some (← DirectAnswer.checkedEntry m.entries index.toNat)

/-- The substitute of a glyph. -/
def SingleSubst.directApply (s : SingleSubst) (glyph : GlyphId) : DirectAnswer (Option GlyphId) :=
  match s with
  | .delta coverage amount => return if coverage.covers glyph then some (glyph + amount) else none
  | .list substitutes => substitutes.directFind glyph

/-- The adjustment of a glyph. -/
def SinglePos.directApply (s : SinglePos) (glyph : GlyphId) : DirectAnswer (Option ValueRecord) :=
  match s with
  | .all coverage value => return if coverage.covers glyph then some value else none
  | .each values => values.directFind glyph

/-- The adjustments of a pair. With classes, both are compared with the counts, and then looked up
    one after the other. -/
def PairPos.directApply (p : PairPos) (first second : GlyphId) : DirectAnswer (Option PairValue) :=
  match p with
  | .byGlyph _ sets => do
    match ← sets.directFind first with
    | none => return none
    | some set => return (set.find? fun (glyph, _) => glyph = second).map Prod.snd
  | .byClass coverage _ firstClasses secondClasses secondCount rows =>
    if coverage.covers first then do
      let row := (firstClasses.value first).toNat
      let column := (secondClasses.value second).toNat
      demand (row < rows.size && column < secondCount) ParseError.badIndex
      return some (← DirectAnswer.entry (← DirectAnswer.entry rows row) column)
    else return none

namespace MarkAttach

variable {T : Type}

/-- The record of the mark with a coverage index. Its class has to be one of the classes. -/
def directMark (a : MarkAttach T) (index : UInt16) : DirectAnswer MarkRecord := do
  let record ← DirectAnswer.checkedEntry a.marks index.toNat
  demand (record.markClass.toNat < a.classCount) ParseError.badIndex
  return record

/-- Where a mark attaches to a target. The anchor on the target is looked up by the class of
    the mark. -/
def directAnchors (a : MarkAttach T) (row : T → Option AnchorRow) (target mark : GlyphId) :
    DirectAnswer (Option (Anchor × Anchor)) :=
  match a.targetCoverage.index? target, a.markCoverage.index? mark with
  | some targetIndex, some markIndex => do
    let record ← a.directMark markIndex
    match row (← DirectAnswer.checkedEntry a.targets targetIndex.toNat) with
    | none => return none
    | some anchors =>
      let targetAnchor ← DirectAnswer.entry anchors record.markClass.toNat
      return targetAnchor.bind fun t => record.anchor.map fun m => (t, m)
  | _, _ => return none

end MarkAttach

/-- Where a mark attaches to a base. -/
def MarkBasePos.directApply (p : MarkBasePos) (base mark : GlyphId) :
    DirectAnswer (Option (Anchor × Anchor)) :=
  p.directAnchors some base mark

/-- Where a mark attaches to a component of a ligature, which is the last one if none is given. -/
def MarkLigPos.directApply (p : MarkLigPos) (ligature mark : GlyphId) (component : Option UInt16) :
    DirectAnswer (Option (Anchor × Anchor)) :=
  p.directAnchors (fun rows => match component with
    | some c => rows[c.toNat]?
    | none => rows.back?) ligature mark

open DirectAnswer

theorem CoverageMap.directFind_eq {α : Type} (m : CoverageMap α) (glyph : GlyphId) :
    (m.directFind glyph).run = some (m.find glyph) := by
  rw [directFind, find]
  cases m.coverage.index? glyph with
  | none => rfl
  | some index =>
    dsimp only
    cases hentry : m.entries[index.toNat]? with
    | none => exact run_bind_error (run_checkedEntry_of_none hentry) _
    | some entry => exact run_bind_ok (run_checkedEntry_of_some hentry) _

theorem SingleSubst.directApply_eq (s : SingleSubst) (glyph : GlyphId) :
    (s.directApply glyph).run = some (s.apply glyph) := by
  cases s with
  | delta => rfl
  | list substitutes => exact substitutes.directFind_eq glyph

theorem SinglePos.directApply_eq (s : SinglePos) (glyph : GlyphId) :
    (s.directApply glyph).run = some (s.apply glyph) := by
  cases s with
  | all => rfl
  | each values => exact values.directFind_eq glyph

/-- Each row has an entry for each class of the second glyph. -/
def PairPos.RowsFull : PairPos → Prop
  | .byGlyph .. => True
  | .byClass _ _ _ _ secondCount rows => ∀ row ∈ rows, row.size = secondCount

theorem PairPos.directApply_eq {p : PairPos} (h : p.RowsFull) (first second : GlyphId) :
    (p.directApply first second).run = some (p.apply first second) := by
  cases p with
  | byGlyph format sets =>
    rw [directApply, apply, ExceptT.run_bind, sets.directFind_eq]
    rcases sets.find first with cause | _ | set <;> rfl
  | byClass coverage format firstClasses secondClasses secondCount rows =>
    rw [directApply, apply]
    cases coverage.covers first with
    | false => rfl
    | true =>
      rw [if_pos rfl, if_pos rfl]
      dsimp only
      generalize (firstClasses.value first).toNat = row
      generalize (secondClasses.value second).toNat = column
      rcases Nat.lt_or_ge column secondCount with hcolumn | hcolumn
      · rcases Nat.lt_or_ge row rows.size with hrow | hrow
        · have hget : rows[row]? = some rows[row] := Array.getElem?_eq_getElem hrow
          have hsize : rows[row].size = secondCount := h _ (Array.getElem_mem hrow)
          -- the column has been compared with the count, which is the size of every row
          have hvalue : rows[row][column]? = some rows[row][column] :=
            Array.getElem?_eq_getElem (hsize ▸ hcolumn)
          rw [run_bind_ok (run_demand_of_true (by simp [hrow, hcolumn]) _),
            run_bind_ok (run_entry hget), if_pos hcolumn, hget, Option.bind_some, hvalue]
          exact run_bind_ok (run_entry hvalue) _
        · rw [run_bind_error (run_demand_of_false (by simp [Nat.not_lt.mpr hrow]) _),
            if_pos hcolumn, Array.getElem?_eq_none hrow]
          rfl
      · rw [run_bind_error (run_demand_of_false (by simp [Nat.not_lt.mpr hcolumn]) _),
          if_neg (Nat.not_lt.mpr hcolumn)]

namespace MarkAttach

variable {T : Type} {a : MarkAttach T} {row : T → Option AnchorRow}

theorem directMark_eq (index : UInt16) : (a.directMark index).run = some (a.mark index) := by
  rw [directMark, mark]
  cases hget : a.marks[index.toNat]? with
  | none => exact run_bind_error (run_checkedEntry_of_none hget) _
  | some record =>
    rw [run_bind_ok (run_checkedEntry_of_some hget)]
    dsimp only
    split
    case isTrue h => exact run_bind_ok (run_demand_of_true (decide_eq_true h) _) _
    case isFalse h => exact run_bind_error (run_demand_of_false (decide_eq_false h) _) _

/-- The class of a mark that has been found is one of the classes. -/
theorem markClass_lt {index : UInt16} {record : MarkRecord} (h : a.mark index = .ok record) :
    record.markClass.toNat < a.classCount := by
  unfold mark at h
  split at h
  case h_1 => cases h
  case h_2 found _ =>
    split at h
    case isTrue hlt =>
      cases h
      exact hlt
    case isFalse => cases h

/-- Each row that may be picked has an anchor, present or not, for each class of marks. -/
def RowsFull (a : MarkAttach T) (row : T → Option AnchorRow) : Prop :=
  ∀ entry ∈ a.targets, ∀ anchors, row entry = some anchors → anchors.size = a.classCount

theorem directAnchors_eq (h : a.RowsFull row) (target mark : GlyphId) :
    (a.directAnchors row target mark).run = some (a.anchors row target mark) := by
  rw [directAnchors, anchors]
  rcases a.targetCoverage.index? target with _ | targetIndex
  · rfl
  rcases a.markCoverage.index? mark with _ | markIndex
  · rfl
  have hdirect := a.directMark_eq markIndex
  dsimp only
  cases hmark : a.mark markIndex with
  | error cause => exact run_bind_error (hmark ▸ hdirect) _
  | ok record =>
    rw [run_bind_ok (hmark ▸ hdirect)]
    cases htarget : a.targets[targetIndex.toNat]? with
    | none => exact run_bind_error (run_checkedEntry_of_none htarget) _
    | some entry =>
      rw [run_bind_ok (run_checkedEntry_of_some htarget)]
      dsimp only [bind, Except.bind]
      cases hrow : row entry with
      | none => rfl
      | some anchors =>
        -- the class of the mark has been compared with the number of classes, not with the row
        have hlt : record.markClass.toNat < anchors.size :=
          (h entry (Array.mem_of_getElem? htarget) anchors hrow).symm ▸ markClass_lt hmark
        have hanchor := Array.getElem?_eq_getElem hlt
        rw [Option.bind_some, hanchor]
        exact run_bind_ok (run_entry hanchor) _

end MarkAttach

/-! ## §2 What reading makes sure of -/

section

variable {m : Type → Type} [Monad m] [MonadExceptOf ParseError m] [Loader m]

/-- There are as many records as have been asked for. This is so whatever they take up, which may be
    nothing. -/
theorem ensures_size_records {α : Type} (stride n : Nat) (one : Decoder (Except ParseError) α) :
    Ensures (Decoder.records stride n one : Decoder m (Array α)) fun answers => answers.size = n :=
  ensures_run_iff.mpr fun _ =>
    ensures_mono (Decoder.ensuresFrom_records stride n one) fun _ h => h.1

end

theorem ensures_readAnchorRows (classCount : Nat) (w : Window) :
    Ensures (readAnchorRows classCount w) fun rows => ∀ row ∈ rows, row.size = classCount := by
  apply ensures_decode
  refine ensures_after fun count => ensures_records _ _ ?_
  refine ensures_bind (ensures_u16s classCount) fun offsets hoffsets => ?_
  exact ensures_mono (ensures_mapM (P := fun _ => True) fun n => ensures_true _)
    fun row h => h.1.trans hoffsets

theorem ensures_readLigatureRows (classCount : Nat) (w : Window) :
    Ensures (readLigatureRows classCount w) fun ligatures =>
      ∀ rows ∈ ligatures, ∀ row ∈ rows, row.size = classCount := by
  apply ensures_decode
  refine ensures_after fun count => ensures_after fun offsets => ?_
  exact ensures_mono (ensures_decodeEach w offsets (ensures_readAnchorRows classCount))
    fun _ h => h.2

section

variable {m : Type → Type} [Monad m] [MonadExceptOf ParseError m] [SharedTables m] [Loader m]

theorem PairPos.ensures_rowsFull (w : Window) : Ensures (load w : m PairPos) RowsFull := by
  apply ensures_decode
  refine ensures_after fun format => ?_
  split
  case h_1 =>
    exact ensures_after fun coverageOffset => ensures_after fun coverage =>
      ensures_after fun first => ensures_after fun second => ensures_after fun count =>
      ensures_after fun offsets => ensures_after fun entries => ensures_pure trivial
  case h_2 =>
    refine ensures_after fun coverageOffset => ensures_after fun coverage =>
      ensures_after fun first => ensures_after fun second => ensures_after fun firstOffset =>
      ensures_after fun firstClasses => ensures_after fun secondOffset =>
      ensures_after fun secondClasses => ensures_after fun firstCount =>
      ensures_after fun secondCount => ensures_after fun _ => ensures_after fun _ => ?_
    exact ensures_bind (ensures_records _ _ (ensures_size_records _ _ _)) fun rows hrows =>
      ensures_pure hrows
  case h_3 => exact ensures_throw _

/-- What holds of targets wherever they are read holds of all targets of an attachment subtable. -/
theorem MarkAttach.ensures_targets {T : Type} {P : Nat → T → Prop}
    {targets : Nat → Window → Except ParseError (Array T)}
    (h : ∀ n w, Ensures (targets n w) fun entries => ∀ entry ∈ entries, P n entry) (w : Window) :
    Ensures (load targets w : m (MarkAttach T)) fun a =>
      ∀ entry ∈ a.targets, P a.classCount entry := by
  apply ensures_decode
  refine ensures_after fun format => ensures_after fun _ => ensures_after fun markOffset =>
    ensures_after fun targetOffset => ensures_after fun classCount =>
      ensures_after fun marksOffset =>
    ensures_after fun targetsOffset => ensures_after fun markCoverage =>
    ensures_after fun targetCoverage => ensures_after fun marks => ?_
  exact ensures_bind (ensures_ofExcept (h classCount _)) fun entries hentries =>
    ensures_pure hentries

end

/-! ## §3 All subtables -/

/-- Whatever is read, from whatever cache: for all queries, the direct look-up stays in range and
    answers what the subtable does, and the only failure is a bad index. -/
def AnswersInRange {S Q A : Type} (load : CachedLoad S) (direct : S → Q → DirectAnswer A)
    (answer : S → Q → Except ParseError A) : Prop :=
  ∀ cache s cache', load.run cache = .ok (s, cache') → ∀ q,
    (direct s q).run = some (answer s q) ∧
      ∀ cause, answer s q = .error cause → cause = .badIndex

theorem AnswersInRange.of_ensures {S Q A : Type} {load : CachedLoad S} {P : S → Prop}
    {direct : S → Q → DirectAnswer A} {answer : S → Q → Except ParseError A}
    (hload : Ensures load P) (hdirect : ∀ s, P s → ∀ q, (direct s q).run = some (answer s q))
    (hcause : ∀ s, P s → ∀ q cause, answer s q = .error cause → cause = .badIndex) :
    AnswersInRange load direct answer := by
  intro cache s cache' hrun q
  have hs : P s := ensures_run_iff.mp hload cache _ hrun
  exact ⟨hdirect s hs q, hcause s hs q⟩

/-- A glyph at a place of a text, where a rule is looked for. -/
structure ContextQuery where
  /-- The glyph. -/
  glyph : GlyphId
  /-- The number of glyphs that the rule may have. -/
  contextLength : UInt16
  /-- Which glyphs count. -/
  filter : GlyphFilter
  /-- The place. -/
  place : TextPlace
  /-- The place is within the text. -/
  withinText : place.WithinText

namespace StoredContext

/-- The rule that is found at a place by direct indexing. -/
def directAnswer (c : StoredContext) (q : ContextQuery) : DirectAnswer (Option RuleMatch) :=
  c.directRule q.glyph q.contextLength fun context => context.directMatch q.filter q.place

/-- The rule that the lookup finds at a place. -/
def answer (c : StoredContext) (q : ContextQuery) : Except ParseError (Option RuleMatch) := do
  (← c.toLookup).findRule q.glyph q.contextLength fun context => context.isMatch q.filter q.place

theorem answersInRange {load : CachedLoad StoredContext} (h : Ensures load HasFirst) :
    AnswersInRange load directAnswer answer := by
  refine .of_ensures h (fun c hc q => ?_) fun c hc q cause hcause => ?_
  · obtain ⟨lookup, hlookup⟩ := exists_toLookup hc
    rw [answer, hlookup]
    exact directRule_eq hlookup (fun context => context.directMatch_eq q.filter q.withinText) _ _
  · obtain ⟨lookup, hlookup⟩ := exists_toLookup hc
    rw [answer, hlookup] at hcause
    have hfind : (lookup.findRule q.glyph q.contextLength fun context =>
        context.isMatch q.filter q.place) = .error cause := hcause
    exact (ContextLookup.findRule_error_iff.mp hfind).1

end StoredContext

namespace ReverseSubst

/-- The substitute of a glyph at a place, whose context is compared by direct indexing. -/
def directAnswer (s : ReverseSubst) (q : ContextQuery) : DirectAnswer (Option GlyphId) :=
  match s.substitute? q.glyph with
  | none => return none
  | some substitute => do
    if ← ExceptT.lift (s.context.directMatch q.filter q.place) then return some substitute
    else return none

/-- The substitute of a glyph at a place. There is no failure. -/
def answer (s : ReverseSubst) (q : ContextQuery) : Except ParseError (Option GlyphId) :=
  .ok <| (s.substitute? q.glyph).filter fun _ => s.context.isMatch q.filter q.place

theorem directAnswer_eq (s : ReverseSubst) (q : ContextQuery) :
    (s.directAnswer q).run = some (s.answer q) := by
  rw [directAnswer, answer, s.context.directMatch_eq q.filter q.withinText]
  cases s.substitute? q.glyph with
  | none => rfl
  | some substitute =>
    rw [Option.filter_some]
    cases s.context.isMatch q.filter q.place <;> rfl

end ReverseSubst

/-- The subtables of every kind that may be read from a window. -/
structure SubtablesInRange (w : Window) : Prop where
  singleSubst : AnswersInRange (SingleSubst.load w) SingleSubst.directApply SingleSubst.apply
  multiple :
    AnswersInRange (CoverageMap.load readSequence w) CoverageMap.directFind CoverageMap.find
  alternate :
    AnswersInRange (CoverageMap.load readAlternates w) CoverageMap.directFind CoverageMap.find
  ligature :
    AnswersInRange (CoverageMap.load readLigatures w) CoverageMap.directFind CoverageMap.find
  reverse : AnswersInRange (ReverseSubst.load w) ReverseSubst.directAnswer ReverseSubst.answer
  singlePos : AnswersInRange (SinglePos.load w) SinglePos.directApply SinglePos.apply
  pair : AnswersInRange (PairPos.load w) (fun p (g : GlyphId × GlyphId) => p.directApply g.1 g.2)
    fun p g => p.apply g.1 g.2
  cursive : AnswersInRange (CursivePos.load w) CoverageMap.directFind CoverageMap.find
  markBase : AnswersInRange (MarkAttach.load readAnchorRows w)
    (fun p (g : GlyphId × GlyphId) => MarkBasePos.directApply p g.1 g.2)
    fun p g => MarkBasePos.apply p g.1 g.2
  markLigature : AnswersInRange (MarkAttach.load readLigatureRows w)
    (fun p (g : GlyphId × GlyphId × Option UInt16) => MarkLigPos.directApply p g.1 g.2.1 g.2.2)
    fun p g => MarkLigPos.apply p g.1 g.2.1 g.2.2
  context : AnswersInRange (StoredContext.plain w) StoredContext.directAnswer StoredContext.answer
  chained : AnswersInRange (StoredContext.chained w) StoredContext.directAnswer StoredContext.answer
  /-- Contextual subtables are read as they are stored. -/
  context_read : (ContextLookup.plain w : CachedLoad ContextLookup) =
    StoredContext.plain w >>= fun s => MonadExcept.ofExcept s.toLookup
  chained_read : (ContextLookup.chained w : CachedLoad ContextLookup) =
    StoredContext.chained w >>= fun s => MonadExcept.ofExcept s.toLookup

/-- What matching looks up from an index. -/
structure MatchingInRange (f : GlyphFilter) (p : GlyphPattern) (items : Array GlyphItem)
    (index : Nat) : Prop where
  prev : f.directPrev items index = some (f.prev? items index)
  next : f.directNext items index = some (f.next? items index)
  back : f.directBack p items index = some (f.scanBack p items index).last
  front : f.directFront p items index = some (f.scanFront p items index).last
  entries : ∀ place < p.length, ∀ glyph, p.directAccepts place glyph = some (p.accepts place glyph)

/-- Coverage maps are in range however they are read. -/
theorem CoverageMap.answersInRange {α : Type} (load : CachedLoad (CoverageMap α)) :
    AnswersInRange load CoverageMap.directFind CoverageMap.find :=
  .of_ensures (ensures_true load) (fun m _ => m.directFind_eq) fun _ _ _ _ => find_error

theorem subtablesInRange (w : Window) : SubtablesInRange w where
  singleSubst := .of_ensures (ensures_true _) (fun s _ => s.directApply_eq) fun _ _ _ _ =>
    SingleSubst.apply_error
  multiple := CoverageMap.answersInRange _
  alternate := CoverageMap.answersInRange _
  ligature := CoverageMap.answersInRange _
  reverse := .of_ensures (ensures_true _) (fun s _ => s.directAnswer_eq) fun _ _ _ _ h => nomatch h
  singlePos := .of_ensures (ensures_true _) (fun s _ => s.directApply_eq) fun _ _ _ _ =>
    SinglePos.apply_error
  pair := .of_ensures (PairPos.ensures_rowsFull w) (fun _ h g => PairPos.directApply_eq h g.1 g.2)
    fun _ _ _ _ => PairPos.apply_error
  cursive := CoverageMap.answersInRange _
  markBase := by
    refine .of_ensures (MarkAttach.ensures_targets ensures_readAnchorRows w)
      (fun a h g => ?_) fun _ _ _ _ => MarkAttach.anchors_error
    refine MarkAttach.directAnchors_eq (fun entry hentry anchors hrow => ?_) g.1 g.2
    cases hrow
    exact h entry hentry
  markLigature := by
    refine .of_ensures (MarkAttach.ensures_targets ensures_readLigatureRows w)
      (fun a h g => ?_) fun _ _ _ _ => MarkAttach.anchors_error
    refine MarkAttach.directAnchors_eq (fun rows hrows anchors hrow => ?_) g.1 g.2.1
    -- whichever component the mark is on, its row is one of those of the ligature
    split at hrow
    case h_1 => exact h rows hrows anchors (Array.mem_of_getElem? hrow)
    case h_2 => exact h rows hrows anchors (Array.mem_of_back? hrow)
  context := StoredContext.answersInRange (StoredContext.ensures_plain w)
  chained := StoredContext.answersInRange (StoredContext.ensures_chained w)
  context_read := StoredContext.plain_toLookup w
  chained_read := StoredContext.chained_toLookup w

/-- Whatever subtable is read, and for all glyphs, components and places of a text: the entries that
    are looked up without a check are in range, and so are the glyphs and the entries of patterns
    that matching looks up from any index up to the end of the text. So a subtable that has been
    read does not fail other than by a bad index. -/
theorem indices_in_range (w : Window) (f : GlyphFilter) (p : GlyphPattern) (items : Array GlyphItem)
    (index : Nat) (hindex : index ≤ items.size) :
    SubtablesInRange w ∧ MatchingInRange f p items index :=
  ⟨subtablesInRange w, {
    prev := GlyphFilter.directPrev_eq hindex
    next := GlyphFilter.directNext_eq index
    back := GlyphFilter.directBack_eq hindex
    front := GlyphFilter.directFront_eq index
    entries := fun _ hplace => GlyphPattern.directAccepts_eq hplace }⟩

namespace ClassPairs

/-- A pair subtable with two classes on either side. -/
def data : ByteArray := ⟨#[
  0x00, 0x02, 0x00, 0x18, 0x00, 0x04, 0x00, 0x00, 0x00, 0x1E, 0x00, 0x28, 0x00, 0x02, 0x00, 0x02,
  -- the advance for each class of the first glyph and each of the second
  0x00, 0x00, 0x00, 0x00, 0x00, 0x00, 0xFF, 0xCE,
  -- the glyph 1 is covered, and in class 1 as the first glyph
  0x00, 0x01, 0x00, 0x01, 0x00, 0x01,
  0x00, 0x02, 0x00, 0x01, 0x00, 0x01, 0x00, 0x01, 0x00, 0x01,
  -- the glyph 2 is in class 1 as the second glyph
  0x00, 0x02, 0x00, 0x01, 0x00, 0x02, 0x00, 0x02, 0x00, 0x01]⟩

def advance (n : Int16) : PairValue := ⟨{ xAdvance := { design := some n } }, {}⟩

def subtable : PairPos :=
  .byClass (.glyphs #[1]) ⟨0⟩ (.ranges #[⟨1, 1, 1⟩]) (.ranges #[⟨2, 2, 1⟩]) 2
    #[#[advance 0, advance 0], #[advance 0, advance (-50)]]

def filter : GlyphFilter := ⟨none, .empty⟩

def text : Array GlyphItem :=
  #[{ glyph := 1, activation := 1, cluster := 0 }, { glyph := 2, activation := 1, cluster := 1 }]

/-- The subtable has been read, so that the advance of a pair is looked up by both classes. Looking
    back from the end of a text of the two glyphs, both are looked up. -/
theorem indices_in_range_classPairs :
    (PairPos.load (Window.ofBytes data) : CachedLoad PairPos).result = .ok subtable ∧
    (subtable.directApply 1 2).run = some (.ok (some (advance (-50)))) ∧
    filter.directBack (.glyphs #[2, 1]) text 2 = some (some 0) := by
  have hread : (PairPos.load (Window.ofBytes data) : CachedLoad PairPos).result = .ok subtable := by
    rw [PairPos.result_load]
    decide +kernel
  obtain ⟨cache, hrun⟩ := CachedLoad.exists_run hread
  obtain ⟨hsubtables, hmatching⟩ :=
    indices_in_range (Window.ofBytes data) filter (.glyphs #[2, 1]) text 2 (by decide)
  have happly : subtable.apply 1 2 = .ok (some (advance (-50))) := rfl
  have hback : (filter.scanBack (.glyphs #[2, 1]) text 2).last = some 0 := by decide
  exact ⟨hread, happly ▸ (hsubtables.pair {} subtable cache hrun (1, 2)).1, hback ▸ hmatching.back⟩

end ClassPairs

end OpenTypeLayout
