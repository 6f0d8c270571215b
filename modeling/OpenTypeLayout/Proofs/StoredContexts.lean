import OpenTypeLayout.Proofs.DirectMatching
import OpenTypeLayout.Proofs.Rules

/-!
# Contextual subtables as they are stored

A contextual subtable in the format with coverage tables stores one list of them for the input. The
table for the first glyph is taken out of it, and what is left is for the glyphs after. Here
subtables are kept as they are stored, and a rule is looked for by direct indexing: in the rule
sets, in the list of coverage tables, and in the text.

- Reading a subtable is reading it as it is stored and taking the first coverage table out.
- Reading accepts no empty list, so that there is a first coverage table.
- `StoredContext.directRule` looks for a rule by direct indexing. It stays in range, and finds what
  `ContextLookup.findRule` does.
-/

namespace OpenTypeLayout

/-! ## §1 Answers that may be failures -/

/-- What a program answers that looks entries up by index, and may fail. -/
abbrev DirectAnswer := ExceptT ParseError Direct

namespace DirectAnswer

variable {α : Type}

/-- The entry at an index. -/
def entry (entries : Array α) (index : Nat) : DirectAnswer α := ExceptT.lift entries[index]?

/-- The entries from an index on. The index may be that of the end, but not beyond it. -/
def entriesFrom (entries : Array α) (index : Nat) : DirectAnswer (Array α) :=
  ExceptT.lift (if index ≤ entries.size then some (entries.extract index entries.size) else none)

/-- The entry at an index, which is checked before. -/
def checkedEntry (entries : Array α) (index : Nat) : DirectAnswer α := do
  demand (index < entries.size) ParseError.badIndex
  entry entries index

theorem run_bind_ok {β : Type} {x : DirectAnswer α} {a : α} (h : x.run = some (.ok a))
    (rest : α → DirectAnswer β) : (x >>= rest).run = (rest a).run := by
  rw [ExceptT.run_bind, h]
  rfl

theorem run_bind_error {β : Type} {x : DirectAnswer α} {cause : ParseError}
    (h : x.run = some (.error cause)) (rest : α → DirectAnswer β) :
    (x >>= rest).run = some (.error cause) := by
  rw [ExceptT.run_bind, h]
  rfl

theorem run_demand_of_true {condition : Bool} (h : condition = true) (failure : ParseError) :
    (demand condition failure : DirectAnswer Unit).run = some (.ok ()) := by
  rw [demand, if_pos h]
  rfl

theorem run_demand_of_false {condition : Bool} (h : condition = false) (failure : ParseError) :
    (demand condition failure : DirectAnswer Unit).run = some (.error failure) := by
  rw [demand, if_neg (Bool.eq_false_iff.mp h)]
  rfl

theorem run_entry {entries : Array α} {index : Nat} {a : α} (h : entries[index]? = some a) :
    (entry entries index).run = some (.ok a) := by
  rw [entry, h]
  rfl

theorem run_entriesFrom {entries : Array α} {index : Nat} (h : index ≤ entries.size) :
    (entriesFrom entries index).run = some (.ok (entries.extract index entries.size)) := by
  rw [entriesFrom, if_pos h]
  rfl

/-- An index that has passed the check is in range. -/
theorem run_checkedEntry_of_some {entries : Array α} {index : Nat} {a : α}
    (h : entries[index]? = some a) : (checkedEntry entries index).run = some (.ok a) := by
  have hlt : index < entries.size := (Array.getElem?_eq_some_iff.mp h).1
  rw [checkedEntry, run_bind_ok (run_demand_of_true (decide_eq_true hlt) _), run_entry h]

theorem run_checkedEntry_of_none {entries : Array α} {index : Nat} (h : entries[index]? = none) :
    (checkedEntry entries index).run = some (.error .badIndex) := by
  have hge : ¬ index < entries.size := Nat.not_lt.mpr (Array.getElem?_eq_none_iff.mp h)
  rw [checkedEntry, run_bind_error (run_demand_of_false (decide_eq_false hge) _)]

end DirectAnswer

/-! ## §2 Stored subtables -/

/-- A contextual subtable with one list of coverage tables for the input, the first glyph
    included. -/
inductive StoredContext where
  /-- Rules written with glyphs, one set for each covered glyph. -/
  | byGlyph (coverage : Coverage) (ruleSets : Array (Option RuleSet))
  /-- Rules written with classes, one set for each class of the first glyph. -/
  | byClass (coverage : Coverage) (backtrack input lookahead : ClassDef)
      (ruleSets : Array (Option RuleSet))
  /-- One rule written with coverage tables. -/
  | byCoverage (backtrack input lookahead : Array Coverage) (records : List LookupRecord)

namespace StoredContext

/-- Take the coverage table of the first glyph out of the list. -/
def toLookup : StoredContext → Except ParseError ContextLookup
  | .byGlyph coverage ruleSets => .ok (.byGlyph coverage ruleSets)
  | .byClass coverage backtrack input lookahead ruleSets =>
    .ok (.byClass coverage backtrack input lookahead ruleSets)
  | .byCoverage backtrack input lookahead records =>
    ContextLookup.ofCoverages backtrack input lookahead records

section Read

variable {m : Type → Type} [Monad m] [MonadExceptOf ParseError m] [SharedTables m]

open ContextLookup (ruleSets optionalClassDef)

/-- Read the subtable without backtrack and lookahead at the beginning of a window. -/
def plain (w : Window) : m StoredContext := w.decode do
  match ← Decoder.u16 with
  | 1 =>
    let coverageOffset ← Decoder.u16
    let sets ← ruleSets w (← Decoder.u16s (← Decoder.count)) ContextRule.plain
    return .byGlyph (← w.coverage coverageOffset) sets
  | 2 =>
    let coverageOffset ← Decoder.u16
    let classesOffset ← Decoder.u16
    let setCount ← Decoder.u16
    let sets ← ruleSets w (← Decoder.u16s setCount.toNat) ContextRule.plain
    let coverage ← w.coverage coverageOffset
    let classes ← w.classDef classesOffset
    demand (classes.isBelow setCount) ParseError.badValue
    return .byClass coverage .empty classes .empty sets
  | 3 =>
    let inputCount ← Decoder.count
    demand (inputCount > 0) ParseError.badValue
    let recordCount ← Decoder.count
    let offsets ← Decoder.u16s inputCount
    let records ← Decoder.lookupRecords recordCount
    return .byCoverage #[] (← w.coverages offsets) #[] records
  | _ => throw ParseError.badFormat

/-- Read the subtable with backtrack and lookahead at the beginning of a window. -/
def chained (w : Window) : m StoredContext := w.decode do
  match ← Decoder.u16 with
  | 1 =>
    let coverageOffset ← Decoder.u16
    let sets ← ruleSets w (← Decoder.u16s (← Decoder.count)) ContextRule.chained
    return .byGlyph (← w.coverage coverageOffset) sets
  | 2 =>
    let coverageOffset ← Decoder.u16
    let backtrackOffset ← Decoder.u16
    let inputOffset ← Decoder.u16
    let lookaheadOffset ← Decoder.u16
    let setCount ← Decoder.u16
    let sets ← ruleSets w (← Decoder.u16s setCount.toNat) ContextRule.chained
    let coverage ← w.coverage coverageOffset
    let backtrack ← optionalClassDef w backtrackOffset
    let input ← w.classDef inputOffset
    demand (input.isBelow setCount) ParseError.badValue
    let lookahead ← optionalClassDef w lookaheadOffset
    return .byClass coverage backtrack input lookahead sets
  | 3 =>
    let backtrackOffsets ← Decoder.u16s (← Decoder.count)
    let inputCount ← Decoder.count
    demand (inputCount > 0) ParseError.badValue
    let inputOffsets ← Decoder.u16s inputCount
    let lookaheadOffsets ← Decoder.u16s (← Decoder.count)
    let records ← Decoder.lookupRecords (← Decoder.count)
    let backtrack ← w.coverages backtrackOffsets
    let input ← w.coverages inputOffsets
    let lookahead ← w.coverages lookaheadOffsets
    return .byCoverage backtrack input lookahead records
  | _ => throw ParseError.badFormat

end Read

/-! ## §3 Reading is reading what is stored -/

/-- Whether what has been decoded is acceptable can be told after decoding. -/
theorem decode_bind_ofExcept {α β : Type} (w : Window) (decoder : Decoder CachedLoad α)
    (accept : α → Except ParseError β) :
    w.decode (decoder >>= fun a => MonadExcept.ofExcept (accept a)) =
      w.decode decoder >>= fun a => MonadExcept.ofExcept (accept a) := by
  simp only [Window.decode, StateT.run_bind, bind_assoc, pure_bind]
  refine bind_congr fun answer => ?_
  cases accept answer.1 <;> rfl

theorem plain_toLookup (w : Window) :
    (ContextLookup.plain w : CachedLoad ContextLookup) =
      plain w >>= fun s => MonadExcept.ofExcept s.toLookup := by
  rw [plain, ← decode_bind_ofExcept, ContextLookup.plain, bind_assoc]
  congr 1
  refine bind_congr fun format => ?_
  by_cases hformat : format = 1 ∨ format = 2 ∨ format = 3
  case pos =>
    rcases hformat with rfl | rfl | rfl
    all_goals
      simp only [bind_assoc, pure_bind]
      rfl
  case neg =>
    -- in no other format can anything be read
    obtain ⟨h₁, h₂, h₃⟩ : format ≠ 1 ∧ format ≠ 2 ∧ format ≠ 3 := by
      simpa only [not_or] using hformat
    simp only
    rfl

theorem chained_toLookup (w : Window) :
    (ContextLookup.chained w : CachedLoad ContextLookup) =
      chained w >>= fun s => MonadExcept.ofExcept s.toLookup := by
  rw [chained, ← decode_bind_ofExcept, ContextLookup.chained, bind_assoc]
  congr 1
  refine bind_congr fun format => ?_
  by_cases hformat : format = 1 ∨ format = 2 ∨ format = 3
  case pos =>
    rcases hformat with rfl | rfl | rfl
    all_goals
      simp only [bind_assoc, pure_bind]
      rfl
  case neg =>
    -- in no other format can anything be read
    obtain ⟨h₁, h₂, h₃⟩ : format ≠ 1 ∧ format ≠ 2 ∧ format ≠ 3 := by
      simpa only [not_or] using hformat
    simp only
    rfl

/-- The list for the input is not empty, if there is one. -/
def HasFirst : StoredContext → Prop
  | .byCoverage _ input _ _ => 0 < input.size
  | _ => True

section

variable {m : Type → Type} [Monad m] [MonadExceptOf ParseError m] [SharedTables m] [Loader m]

theorem ensures_plain (w : Window) : Ensures (plain w : m StoredContext) HasFirst := by
  apply ensures_decode
  refine ensures_after fun format => ?_
  split
  case h_1 =>
    -- only the last format has a first coverage table to speak of
    exact ensures_after fun coverageOffset => ensures_after fun count =>
      ensures_after fun offsets => ensures_after fun sets => ensures_after fun coverage =>
      ensures_pure trivial
  case h_2 =>
    exact ensures_after fun coverageOffset => ensures_after fun classesOffset =>
      ensures_after fun setCount => ensures_after fun offsets => ensures_after fun sets =>
      ensures_after fun coverage => ensures_after fun classes => ensures_after fun _ =>
      ensures_pure trivial
  case h_3 =>
    refine ensures_after fun count => ensures_bind ensures_demand fun _ hpos => ?_
    -- there are as many tables as the count says, and it is not zero
    refine ensures_after fun recordCount =>
      ensures_bind (ensures_u16s count) fun offsets hoffsets => ?_
    refine ensures_after fun records => ?_
    refine ensures_bind (ContextLookup.ensures_coverages w offsets) fun input hinput =>
      ensures_pure ?_
    rw [HasFirst, hinput, hoffsets]
    exact of_decide_eq_true hpos
  case h_4 => exact ensures_throw _

theorem ensures_chained (w : Window) : Ensures (chained w : m StoredContext) HasFirst := by
  apply ensures_decode
  refine ensures_after fun format => ?_
  split
  case h_1 =>
    exact ensures_after fun coverageOffset => ensures_after fun count =>
      ensures_after fun offsets => ensures_after fun sets => ensures_after fun coverage =>
      ensures_pure trivial
  case h_2 =>
    exact ensures_after fun coverageOffset => ensures_after fun backtrackOffset =>
      ensures_after fun inputOffset => ensures_after fun lookaheadOffset =>
      ensures_after fun setCount => ensures_after fun offsets => ensures_after fun sets =>
      ensures_after fun coverage => ensures_after fun backtrack => ensures_after fun input =>
      ensures_after fun _ => ensures_after fun lookahead => ensures_pure trivial
  case h_3 =>
    -- the counts of the glyphs before and behind do not matter
    refine ensures_after fun backtrackCount => ensures_after fun backtrackOffsets => ?_
    refine ensures_after fun count => ensures_bind ensures_demand fun _ hpos => ?_
    refine ensures_bind (ensures_u16s count) fun offsets hoffsets => ?_
    refine ensures_after fun lookaheadCount => ensures_after fun lookaheadOffsets =>
      ensures_after fun recordCount => ensures_after fun records =>
        ensures_after fun backtrack => ?_
    refine ensures_bind (ContextLookup.ensures_coverages w offsets) fun input hinput => ?_
    refine ensures_after fun lookahead => ensures_pure ?_
    rw [HasFirst, hinput, hoffsets]
    exact of_decide_eq_true hpos
  case h_4 => exact ensures_throw _

end

/-! ## §4 Looking for a rule -/

/-- The first of some rules whose context passes a test that may go out of range. -/
def directFirst (test : ContextPattern → Direct Bool) :
    List RuleCandidate → Direct (Option RuleMatch)
  | [] => some none
  | r :: rest => do if ← test r.context then return some r.result else directFirst test rest

/-- The rules that may apply to a glyph, in the order in which they are tried. -/
def directCandidates (c : StoredContext) (glyph : GlyphId) (contextLength : UInt16) :
    DirectAnswer (List RuleCandidate) :=
  match c with
  | .byGlyph coverage ruleSets =>
    match coverage.index? glyph with
    | none => return []
    | some index => do
      match ← DirectAnswer.checkedEntry ruleSets index.toNat with
      | none => return []
      | some rules => return ContextLookup.candidatesOf rules contextLength .glyphs .glyphs .glyphs
  | .byClass coverage backtrack input lookahead ruleSets =>
    if coverage.covers glyph then
      match ruleSets[(input.value glyph).toNat]? with
      | some (some rules) =>
        return ContextLookup.candidatesOf rules contextLength (.classes backtrack) (.classes input)
          (.classes lookahead)
      | _ => return []
    else return []
  | .byCoverage backtrack input lookahead records => do
    let first ← DirectAnswer.entry input 0
    if first.covers glyph && fitsContext input.size contextLength then
      let tail ← DirectAnswer.entriesFrom input 1
      return [{
        context := {
          backtrack := .coverages backtrack
          input := .coverages tail
          lookahead := .coverages lookahead }
        result := { inputCount := input.size, records } }]
    else return []

/-- The first rule that may apply to a glyph and whose context passes a test. -/
def directRule (c : StoredContext) (glyph : GlyphId) (contextLength : UInt16)
    (test : ContextPattern → Direct Bool) : DirectAnswer (Option RuleMatch) := do
  ExceptT.lift (directFirst test (← c.directCandidates glyph contextLength))

theorem directFirst_eq {direct : ContextPattern → Direct Bool} {test : ContextPattern → Bool}
    (htest : ∀ context, direct context = some (test context)) (rules : List RuleCandidate) :
    directFirst direct rules =
      some ((rules.find? fun r => test r.context).map RuleCandidate.result) := by
  induction rules with
  | nil => rfl
  | cons r rest ih =>
    rw [directFirst, htest, List.find?_cons]
    cases test r.context with
    | false => exact ih
    | true => rfl

theorem exists_toLookup {c : StoredContext} (h : c.HasFirst) :
    ∃ lookup, c.toLookup = .ok lookup := by
  cases c with
  | byGlyph => exact ⟨_, rfl⟩
  | byClass => exact ⟨_, rfl⟩
  | byCoverage backtrack input lookahead records =>
    have hfirst : input[0]? = some input[0] := Array.getElem?_eq_getElem h
    exact ⟨_, by rw [toLookup, ContextLookup.ofCoverages, hfirst]⟩

theorem directCandidates_eq {c : StoredContext} {lookup : ContextLookup}
    (h : c.toLookup = .ok lookup) (glyph : GlyphId) (contextLength : UInt16) :
    (c.directCandidates glyph contextLength).run =
    some (lookup.candidates glyph contextLength) := by
  cases c with
  | byGlyph coverage ruleSets =>
    cases h
    rw [directCandidates, ContextLookup.candidates]
    cases coverage.index? glyph with
    | none => rfl
    | some index =>
      dsimp only
      cases hset : ruleSets[index.toNat]? with
      | none => rw [DirectAnswer.run_bind_error (DirectAnswer.run_checkedEntry_of_none hset)]
      | some set =>
        rw [DirectAnswer.run_bind_ok (DirectAnswer.run_checkedEntry_of_some hset)]
        cases set <;> rfl
  | byClass coverage backtrack input lookahead ruleSets =>
    cases h
    rw [directCandidates, ContextLookup.candidates]
    cases coverage.covers glyph with
    | true => rcases ruleSets[(input.value glyph).toNat]? with _ | _ | rules <;> rfl
    | false => rfl
  | byCoverage backtrack input lookahead records =>
    rw [toLookup, ContextLookup.ofCoverages] at h
    split at h
    case h_2 => cases h
    case h_1 first hfirst =>
      cases h
      have hpos : 0 < input.size := (Array.getElem?_eq_some_iff.mp hfirst).1
      -- the lookup counts the glyphs after the first one, what is stored counts all of them
      have hcount : (input.extract 1 input.size).size + 1 = input.size := by
        rw [Array.size_extract]
        omega
      rw [directCandidates, ContextLookup.candidates, hcount,
        DirectAnswer.run_bind_ok (DirectAnswer.run_entry hfirst)]
      cases first.covers glyph && fitsContext input.size contextLength with
      | true => exact DirectAnswer.run_bind_ok (DirectAnswer.run_entriesFrom hpos) _
      | false => rfl

/-- Where a stored subtable has a first coverage table, a rule is found by direct indexing that is
    found by the lookup. -/
theorem directRule_eq {c : StoredContext} {lookup : ContextLookup} (h : c.toLookup = .ok lookup)
    {direct : ContextPattern → Direct Bool} {test : ContextPattern → Bool}
    (htest : ∀ context, direct context = some (test context)) (glyph : GlyphId)
    (contextLength : UInt16) :
    (c.directRule glyph contextLength direct).run =
      some (lookup.findRule glyph contextLength test) := by
  have hcandidates := directCandidates_eq h glyph contextLength
  rw [directRule, ContextLookup.findRule]
  cases hrules : lookup.candidates glyph contextLength with
  | error cause => exact DirectAnswer.run_bind_error (hrules ▸ hcandidates) _
  | ok rules =>
    rw [DirectAnswer.run_bind_ok (hrules ▸ hcandidates), directFirst_eq htest]
    rfl

end StoredContext

end OpenTypeLayout
