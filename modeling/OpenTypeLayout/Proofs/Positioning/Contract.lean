import OpenTypeLayout.Proofs.Positioning.Guarded
import OpenTypeLayout.Proofs.SharedLoading

/-!
# What positioning promises

A lookup that applies goes past its glyph and changes positions of glyphs that it goes past, besides
joining one to a glyph before. So every pass comes to an end, with at most one step for each glyph
of the text. All that is looked at is there, and only few things can go wrong.

- `PosM.Loops` is going through a text step by step, without a limit on the number of steps.
- `PosContext.Failure` lists how positioning may fail.
-/

namespace OpenTypeLayout

/-- The ways in which positioning a text may fail. -/
inductive PosContext.Failure {σ : Type} (c : PosContext σ) (layout : LayoutTable Positioning)
    (glyphs : Array GlyphItem) : LayoutError → Prop
  /-- Lookups are nested too deeply. -/
  | nested : Failure c layout glyphs .tooManyNestedContexts
  /-- An index in the font is bad. -/
  | badIndex : Failure c layout glyphs (.parse .badIndex)
  /-- A mark would be attached to a glyph that is too far away. -/
  | far {lookup : Lookup Positioning} {index target : Nat} (hlookup : lookup ∈ layout.lookups)
      (hattaches : lookup.Attaches c.gdef glyphs index target) (hfar : 0xFFFF < index - target) :
      Failure c layout glyphs (.parse .badValue)
  /-- The source has no outline for a glyph. -/
  | contour {kept : σ} {glyph : GlyphId} {e : LayoutError}
      (hcontour : (c.source.contour kept glyph c.params.loadFlags).1 = .error e) :
      Failure c layout glyphs e
  /-- The source has no value for a metric. -/
  | metric {kept : σ} {id : UInt16} {e : LayoutError}
      (hmetric : (c.source.metric kept id).1 = .error e) : Failure c layout glyphs e

namespace PosM

open PosState (Kept Ready)

variable {σ : Type} {c : PosContext σ} {fails : LayoutError → Prop} {s s' t : PosState σ}
variable {text : Array GlyphItem} {apply : Nat → PosM σ (Option Nat)}

/-! ## §1 Passes -/

theorem keeps_passStep (happly : Lawful c fails text apply) (bits : UInt32) (item : GlyphItem)
    {index : Nat} (htext : settled c.gdef s.glyphs = settled c.gdef text) (hs : s.Ready index) :
    Keeps c fails (passStep apply bits item index) s fun next s' =>
      index < next ∧ Spans index next s s' := by
  unfold passStep
  split
  case isTrue =>
    exact (happly s index htext hs).bind fun answer s' _ hstep => .pure (hstep.spans hs)
  case isFalse =>
    refine keeps_breakChain.bind fun _ s' _ hs' => .pure ⟨Nat.lt_succ_self _, ?_⟩
    subst hs'
    have hstays : Stays s { s with chain := none } := ⟨rfl, fun _ h => nomatch h⟩
    exact hstays.spans (Nat.le_succ _) hs.inside

theorem keeps_pass (happly : Lawful c fails text apply) (bits : UInt32) {rounds index : Nat}
    (htext : settled c.gdef s.glyphs = settled c.gdef text)
    (hs : index < s.glyphs.size → s.Ready index) :
    Keeps c fails (pass apply bits rounds index) s fun _ _ => True := by
  induction rounds generalizing s index with
  | zero => exact .pure trivial
  | succ rounds ih =>
    rw [pass_succ]
    refine .get_bind ?_ fun _ => rfl
    split
    case h_1 => exact .pure trivial
    case h_2 item hitem =>
      have hs := hs (Array.getElem?_eq_some_iff.mp hitem).1
      refine (keeps_passStep happly bits item htext hs).bind fun next t hkept ht => ?_
      exact ih (hkept.text.trans htext) fun hlt => ht.2.ready hkept hs (hkept.size ▸ hlt)

variable {table : ActiveTable Positioning}

theorem keeps_passOf (hallows : Allows c fails table.layout text) (lookupIndex : Nat)
    (bits : UInt32) (htext : settled c.gdef s.glyphs = settled c.gdef text)
    (hpositioned : s.positions.size = s.glyphs.size) :
    Keeps c fails (passOf c table lookupIndex bits) s fun _ _ => True := by
  refine keeps_breakChain.bind fun _ t hkept ht => .get_bind ?_ fun _ => rfl
  subst ht
  exact keeps_pass (lawful_applyLookup hallows table.nestingLimit lookupIndex noContext) bits htext
    fun hlt => ⟨hlt, hpositioned, fun _ _ h => nomatch h⟩

theorem keeps_applyActive (hallows : Allows c fails table.layout text)
    (active : List (Nat × UInt32)) (htext : settled c.gdef s.glyphs = settled c.gdef text)
    (hpositioned : s.positions.size = s.glyphs.size) :
    Keeps c fails (applyActive c table active) s fun _ _ => True := by
  induction active generalizing s with
  | nil => exact .pure trivial
  | cons first rest ih =>
    obtain ⟨lookupIndex, bits⟩ := first
    rw [applyActive_cons]
    refine (keeps_passOf hallows lookupIndex bits htext hpositioned).bind fun _ t hkept _ => ?_
    exact ih (hkept.text.trans htext) (by rw [hkept.positioned, hkept.size, hpositioned])

/-! ## §2 Passes step by step -/

/-- Going through a text from an index on, with the number of steps and the outcome. Every step is
    made at an index at which a lookup can be applied. A step that fails is the last one. -/
inductive Loops (apply : Nat → PosM σ (Option Nat)) (bits : UInt32) :
    Nat → Nat → PosState σ → Except LayoutError Unit × PosState σ → Prop
  /-- All of the text is done. -/
  | done {index : Nat} {s : PosState σ} (hend : index = s.glyphs.size) :
      Loops apply bits 0 index s (.ok (), s)
  /-- The step at an index fails. -/
  | failed {index : Nat} {s s' : PosState σ} {item : GlyphItem} {e : LayoutError}
      (hready : s.Ready index) (hitem : s.glyphs[index]? = some item)
      (hstep : Program.outcome (passStep apply bits item index) s = (.error e, s')) :
      Loops apply bits 1 index s (.error e, s')
  /-- There is a step, and more after it. -/
  | step {index next n : Nat} {s t : PosState σ} {item : GlyphItem}
      {result : Except LayoutError Unit × PosState σ}
      (hready : s.Ready index) (hitem : s.glyphs[index]? = some item)
      (hstep : Program.outcome (passStep apply bits item index) s = (.ok next, t))
      (hrest : Loops apply bits n next t result) : Loops apply bits (n + 1) index s result

/-- The limit on the number of rounds is never what ends a pass. -/
theorem loops_pass (happly : Lawful c fails text apply) (bits : UInt32) {rounds index : Nat}
    (htext : settled c.gdef s.glyphs = settled c.gdef text) (hindex : index ≤ s.glyphs.size)
    (hs : index < s.glyphs.size → s.Ready index) (hrounds : s.glyphs.size - index ≤ rounds) :
    ∃ n ≤ s.glyphs.size - index,
      Loops apply bits n index s (Program.outcome (pass apply bits rounds index) s) := by
  -- as in the pass itself, the rounds stay enough because every step goes past a glyph
  induction rounds generalizing s index with
  | zero => exact ⟨0, Nat.zero_le _, .done (by omega)⟩
  | succ rounds ih =>
    rw [pass_succ, Program.outcome_get_bind]
    cases hitem : s.glyphs[index]? with
    | none =>
      have hend := Array.getElem?_eq_none_iff.mp hitem
      exact ⟨0, Nat.zero_le _, .done (Nat.le_antisymm hindex hend)⟩
    | some item =>
      have hlt : index < s.glyphs.size := (Array.getElem?_eq_some_iff.mp hitem).1
      have hkeeps := keeps_passStep happly bits item htext (hs hlt)
      dsimp only
      rcases hstep : Program.outcome (passStep apply bits item index) s with ⟨e | next, t⟩
      case error =>
        rw [Program.outcome_bind_error hstep]
        exact ⟨1, by omega, .failed (hs hlt) hitem hstep⟩
      case ok =>
        obtain ⟨hkept, hmoved, hspans⟩ := hkeeps.of_ok hstep
        have hinside := hspans.inside
        have hsize := hkept.size
        obtain ⟨n, hn, hloops⟩ := ih (hkept.text.trans htext) (by omega)
          (fun hlt' => hspans.ready hkept (hs hlt) (by omega)) (by omega)
        rw [Program.outcome_bind_ok hstep]
        exact ⟨n + 1, by omega, .step (hs hlt) hitem hstep hloops⟩

theorem applyActive_append (earlier later : List (Nat × UInt32)) :
    applyActive c table (earlier ++ later) =
      applyActive c table earlier >>= fun _ => applyActive c table later := by
  induction earlier with
  | nil => simp [applyActive]
  | cons first rest ih =>
    obtain ⟨lookupIndex, bits⟩ := first
    rw [List.cons_append, applyActive_cons, applyActive_cons, ih, bind_assoc]

/-! ## §3 The contract -/

/-- The state in which positioning a text begins. -/
def startOf (before : PosOutcome σ) : PosState σ where
  glyphs := before.glyphs
  positions := Array.replicate before.glyphs.size {}
  chain := none
  kept := before.kept

/-- All positions are zero in the beginning. -/
theorem eq_zero_of_startOf {before : PosOutcome σ} {i : Nat} {pos : Position}
    (hpos : (startOf before).positions[i]? = some pos) : pos = {} := by
  rw [startOf, Array.getElem?_replicate] at hpos
  split at hpos
  case isTrue => exact (Option.some.inj hpos).symm
  case isFalse => cases hpos

/-- If there is one active lookup and positioning a text does not fail, then it is the pass of that
    lookup over the text. -/
theorem position_eq_ok {lookupIndex : Nat} {bits : UInt32}
    (hactive : table.active = [(lookupIndex, bits)]) {before after : PosOutcome σ}
    (hrun : table.position c before = (.ok (), after)) :
    ∃ s, Program.outcome
        (pass
          (fun index => applyLookup c table.layout table.nestingLimit lookupIndex index noContext)
          bits before.glyphs.size 0) (startOf before) = (.ok (), s) ∧
      after = { glyphs := s.glyphs, positions := s.positions, kept := s.kept } := by
  have hnonempty : before.glyphs.isEmpty = false := by
    rw [Bool.eq_false_iff]
    intro hempty
    rw [ActiveTable.position, if_pos hempty] at hrun
    cases hrun
  rw [position_eq c table hnonempty, hactive, applyActive_cons] at hrun
  obtain ⟨hok, rfl⟩ := Prod.mk.inj hrun
  obtain ⟨_, s, hpass, hrest⟩ := Program.outcome_bind_eq_ok (Prod.ext hok rfl)
  have hlast : s = _ := congrArg Prod.snd hrest
  exact ⟨s, hpass, by rw [hlast]⟩

theorem allows_failure {w : Window} {layout : LayoutTable Positioning}
    (hread : LayoutTable.ofWindow w = .ok layout) (glyphs : Array GlyphItem) :
    Allows c (c.Failure layout glyphs) layout glyphs where
  nested := .nested
  badIndex := .badIndex
  contour _ _ _ := .contour
  metric _ _ _ := .metric
  loaded := LayoutTable.loaded_of_ofWindow hread
  far hlookup hattaches hfar := by
    refine .far ?_ hattaches hfar
    unfold LayoutTable.lookup at hlookup
    split at hlookup
    case h_1 hget =>
      cases hlookup
      exact Array.mem_of_getElem? hget
    case h_2 => cases hlookup

end PosM

open PosM in
/-- Let a layout table have been read.

    - At an index at which a lookup can be applied, a lookup that applies goes past the glyph, stays
      in the text, and changes positions of glyphs that it goes past and at most the advance of the
      glyph at which the chain ended. One that does not apply changes no position.
    - There, no lookup is invoked at an index at which it cannot be applied, and no position past
      the end is read or written.
    - A pass that comes after others comes to an end with at most one step for each glyph of the
      text, each of them at an index at which a lookup can be applied.
    - When positioning a text returns, each glyph has a position. If it fails, it does so in one of
      the ways that are listed. -/
theorem position_contract {σ : Type} (c : PosContext σ) (table : ActiveTable Positioning)
    {w : Window} (hread : LayoutTable.ofWindow w = .ok table.layout) :
    (∀ (levels lookupIndex index : Nat) (contextLength : UInt16) (s s' : PosState σ)
      (answer : Option Nat), s.Ready index →
        Program.outcome (applyLookup c table.layout levels lookupIndex index contextLength) s =
          (.ok answer, s') → Step index s answer s') ∧
    (∀ (levels lookupIndex index : Nat) (contextLength : UInt16) (s : PosState σ), s.Ready index →
      (∀ elsewhere : Invoke σ, Program.outcome
        (applyGuarded c elsewhere table.layout levels lookupIndex index contextLength) s =
          Program.outcome (applyLookup c table.layout levels lookupIndex index contextLength) s) ∧
      ∀ extra : Array Position, Program.outcome
        (applyLookup c table.layout levels lookupIndex index contextLength) (s.pad extra) =
          let run := Program.outcome
            (applyLookup c table.layout levels lookupIndex index contextLength) s
          (run.1, run.2.pad extra)) ∧
    (∀ (earlier later : List (Nat × UInt32)) (lookupIndex : Nat) (bits : UInt32)
      (before : PosOutcome σ) (t : PosState σ),
      table.active = earlier ++ (lookupIndex, bits) :: later →
        Program.outcome (applyActive c table earlier) (startOf before) = (.ok (), t) →
          Program.outcome (applyActive c table table.active) (startOf before) =
            Program.outcome (do passOf c table lookupIndex bits; applyActive c table later) t ∧
          ∃ n ≤ before.glyphs.size,
            Loops (fun index => applyLookup c table.layout table.nestingLimit lookupIndex index
              noContext) bits n 0 { t with chain := none }
              (Program.outcome (passOf c table lookupIndex bits) t)) ∧
    ∀ before : PosOutcome σ, before.glyphs.isEmpty = false →
      (table.position c before).2.glyphs.size = before.glyphs.size ∧
      (table.position c before).2.positions.size = before.glyphs.size ∧
      ∀ e, (table.position c before).1 = .error e → c.Failure table.layout before.glyphs e := by
  have hallows : ∀ glyphs, Allows c (c.Failure table.layout glyphs) table.layout glyphs :=
    allows_failure hread
  have hstart : ∀ before : PosOutcome σ,
      (startOf before).positions.size = (startOf before).glyphs.size := fun before => by
    simp [startOf]
  refine ⟨?_, ?_, ?_, ?_⟩
  -- one step
  · intro levels lookupIndex index contextLength s s' answer hs hrun
    have hlawful := lawful_applyLookup (hallows s.glyphs) levels lookupIndex contextLength
    exact ((hlawful s index rfl hs).of_ok hrun).2
  -- the guards never fire, and positions behind the last glyph are not looked at
  · intro levels lookupIndex index contextLength s hs
    have hlawful := lawful_applyLookup (hallows s.glyphs) levels lookupIndex contextLength
    refine ⟨fun elsewhere => ?_, (hlawful s index rfl hs).pads⟩
    exact same_applyGuarded (hallows s.glyphs) elsewhere levels lookupIndex contextLength s index
      rfl hs
  -- one pass: it starts in the state that the lookups before it leave
  · intro earlier later lookupIndex bits before t hactive hrun
    have hkeeps : Keeps c _ (applyActive c table earlier) (startOf before) _ :=
      keeps_applyActive (hallows before.glyphs) earlier rfl (hstart before)
    obtain ⟨hkept, -⟩ := hkeeps.of_ok hrun
    have hsize : t.glyphs.size = before.glyphs.size := hkept.size
    have hready : ∀ hlt : 0 < t.glyphs.size, { t with chain := none }.Ready 0 := fun hlt =>
      ⟨hlt, by rw [hkept.positioned, hsize]; exact hstart before, fun _ _ h => nomatch h⟩
    have hlawful :=
      lawful_applyLookup (hallows before.glyphs) table.nestingLimit lookupIndex noContext
    refine ⟨?_, ?_⟩
    · rw [hactive, applyActive_append, Program.outcome_bind_ok hrun, applyActive_cons]
    · rw [← hsize]
      exact loops_pass (s := { t with chain := none }) hlawful bits hkept.text (Nat.zero_le _)
        hready (Nat.sub_le _ _)
  -- the whole run, with success and failure
  · intro before hnonempty
    have hkeeps : Keeps c _ (applyActive c table table.active) (startOf before) _ :=
      keeps_applyActive (hallows before.glyphs) table.active rfl (hstart before)
    rw [position_eq c table hnonempty]
    rcases hrun : Program.outcome (applyActive c table table.active) (startOf before) with
      ⟨e | ⟨⟩, s'⟩
    case error =>
      obtain ⟨hkept, hfailure⟩ := hkeeps.of_error hrun
      unfold startOf at hrun
      simp only [hrun]
      refine ⟨hkept.size, hkept.positioned.trans (hstart before), fun e' he' => ?_⟩
      cases he'
      exact hfailure
    case ok =>
      obtain ⟨hkept, -⟩ := hkeeps.of_ok hrun
      unfold startOf at hrun
      simp only [hrun]
      exact ⟨hkept.size, hkept.positioned.trans (hstart before), fun e he => nomatch he⟩

/-! A font in which the glyph 2 is joined to the glyph 1, with the marks between them skipped. The
    lookup that finds them invokes the one that joins at both of them. The glyph 5 is a mark. -/

namespace JoinedPair

def layout : LayoutTable Positioning where
  scripts := #[]
  features := #[]
  lookups := #[
    { flag := ⟨0x0008⟩
      subtables :=
        .chained #[.byCoverage (.glyphs #[1]) #[] #[.glyphs #[2]] #[] [⟨0, 1⟩, ⟨1, 1⟩]] },
    { flag := ⟨0x0008⟩
      subtables := .cursive #[⟨.glyphs #[1, 2],
        #[⟨none, some (.design 500 0)⟩, ⟨some (.design 20 10), none⟩]⟩] }]

/-- The layout table as a font stores it. -/
def data : ByteArray := ⟨#[
  0x00, 0x01, 0x00, 0x00, 0x00, 0x00, 0x00, 0x00, 0x00, 0x0A,
  -- two lookups
  0x00, 0x02, 0x00, 0x06, 0x00, 0x30,
  -- in context, with marks skipped: 1 and then 2
  0x00, 0x08, 0x00, 0x08, 0x00, 0x01, 0x00, 0x08,
  0x00, 0x03, 0x00, 0x00, 0x00, 0x02, 0x00, 0x16, 0x00, 0x1C, 0x00, 0x00, 0x00, 0x02,
  0x00, 0x00, 0x00, 0x01, 0x00, 0x01, 0x00, 0x01,
  0x00, 0x01, 0x00, 0x01, 0x00, 0x01,
  0x00, 0x01, 0x00, 0x01, 0x00, 0x02,
  -- with marks skipped: from 1 the chain goes on, and 2 is joined
  0x00, 0x03, 0x00, 0x08, 0x00, 0x01, 0x00, 0x08,
  0x00, 0x01, 0x00, 0x0E, 0x00, 0x02, 0x00, 0x00, 0x00, 0x16, 0x00, 0x1C, 0x00, 0x00,
  0x00, 0x01, 0x00, 0x02, 0x00, 0x01, 0x00, 0x02,
  0x00, 0x01, 0x01, 0xF4, 0x00, 0x00,
  0x00, 0x01, 0x00, 0x14, 0x00, 0x0A]⟩

theorem ofWindow_data : LayoutTable.ofWindow (Window.ofBytes data) = .ok layout := by
  rw [LayoutTable.ofWindow_eq_afresh]
  -- down to where the two records of the rule are put in order
  delta LayoutTable.ofWindowAfresh LayoutTable.load loadLookups Lookup.load LookupFamily.load
    instLookupFamilyPositioning Positioning.load ContextLookup.chained Decoder.lookupRecords
  rw [LookupRecord.sorted_eq_ite]
  decide +kernel

def table : ActiveTable Positioning where
  layout := layout
  bits := #[1, 0]

def context : PosContext Unit where
  gdef := some { classes := some (.ranges #[⟨5, 5, 3⟩]) }
  params := {}
  source := { contour := PosSource.noOutlines, metric := PosSource.noMetrics }

/-- The glyphs 1, 5, 2, 3. -/
def before : PosOutcome Unit where
  glyphs := #[
    { glyph := 1, activation := 1, cluster := 0 }, { glyph := 5, activation := 1, cluster := 0 },
    { glyph := 2, activation := 1, cluster := 1 }, { glyph := 3, activation := 1, cluster := 2 }]
  positions := #[]
  kept := ()

end JoinedPair

open PosM JoinedPair in
/-- The advance of the first glyph is replaced when the third one is joined to it, and the pass has
    at most four steps. -/
theorem position_contract_joinedPair :
    LayoutTable.ofWindow (Window.ofBytes data) = .ok layout ∧ (startOf before).Ready 0 ∧
      Step 0 (startOf before) (some 3)
        (Program.outcome (applyLookup context layout 100 0 0 noContext) (startOf before)).2 ∧
      (∃ n ≤ 4, Loops (fun index => applyLookup context layout 100 0 index noContext) 1 n 0
        (startOf before) (Program.outcome (passOf context table 0 1) (startOf before))) ∧
      (table.position context before).2.positions.size = 4 := by
  obtain ⟨hstep, -, hpass, hall⟩ := position_contract context table ofWindow_data
  have hready : (startOf before).Ready 0 := by decide +kernel
  have hlookup : (Program.outcome (applyLookup context layout 100 0 0 noContext)
      (startOf before)).1 = .ok (some 3) := by decide +kernel
  refine ⟨ofWindow_data, hready, ?_, ?_, ?_⟩
  · exact hstep 100 0 0 noContext _ _ _ hready (Prod.ext hlookup rfl)
  · exact (hpass [] [] 0 1 before (startOf before) (by decide) rfl).2
  · exact (hall before (by decide)).2.1

end OpenTypeLayout
