import OpenTypeLayout.Proofs.Substitution.Passes

/-!
# What applying a lookup promises

A lookup that applies goes past at least one glyph and only adds to the output. A lookup that does
not apply leaves everything as it was, and has not asked for a choice. So every pass comes to an
end, with at most one step for each glyph of the text.

- `SubstM.Declines` compares programs that answer that they have not applied.
- `SubstM.Loops` is going through a text step by step, without a limit on the number of steps.
- `SubstM.PassRun` is the run of a pass, with its number of steps.
-/

namespace OpenTypeLayout

/-! ## §1 No restrictions -/

/-- The discipline that asks for nothing. -/
def Discipline.unrestricted : Discipline where
  table _ := True
  item _ := True
  flag _ := True
  free _ := True
  failure _ := True
  item_of_unknown _ := trivial
  item_remember _ _ := trivial
  table_record _ _ := trivial
  free_of_admits _ _ _ _ := trivial
  failure_badIndex := trivial
  failure_nested := trivial
  failure_unclassified _ _ _ _ := trivial

namespace Discipline

variable {σ : Type}

theorem unrestricted_allows (layout : LayoutTable Substitution) :
    unrestricted.Allows layout fun _ => True where
  closed _ _ := trivial
  flag _ _ := trivial
  counts _ _ := .inr trivial

theorem unrestricted_holds {s : SubstState σ} (h : s.buffer.position ≤ s.buffer.size) :
    unrestricted.Holds s := ⟨trivial, fun _ _ => trivial, fun _ _ => trivial, h⟩

end Discipline

/-! ## §2 Lookups that do not apply -/

namespace SubstM

open Program

variable {σ α : Type}

/-- Where the first program answers that it has not applied, so does the second. -/
def Declines (x x' : SubstM σ Bool) : Prop :=
  ∀ s s', x.outcome s = (.ok false, s') → x'.outcome s = (.ok false, s')

/-- The program never answers that it has not applied. -/
def Insists (x : SubstM σ Bool) : Prop := ∀ s s', x.outcome s ≠ (.ok false, s')

theorem Declines.refl (x : SubstM σ Bool) : Declines x x := fun _ _ => id

theorem Declines.bind {x : SubstM σ α} {f f' : α → SubstM σ Bool}
    (h : ∀ a, Declines (f a) (f' a)) : Declines (x >>= f) (x >>= f') := by
  intro s s' hrun
  obtain ⟨a, t, hx, hf⟩ := outcome_bind_eq_ok hrun
  rw [outcome_bind_ok hx]
  exact h a t s' hf

theorem Insists.declines {x : SubstM σ Bool} (h : Insists x) (x' : SubstM σ Bool) :
    Declines x x' := fun s s' hrun => absurd hrun (h s s')

theorem Insists.bind {x : SubstM σ α} {f : α → SubstM σ Bool} (h : ∀ a, Insists (f a)) :
    Insists (x >>= f) := by
  intro s s' hrun
  obtain ⟨a, t, -, hf⟩ := outcome_bind_eq_ok hrun
  exact h a t s' hf

theorem insists_true : Insists (pure true : SubstM σ Bool) := by
  intro s s' hrun
  cases hrun

theorem insists_throw (e : LayoutError) : Insists (throw e : SubstM σ Bool) := by
  intro s s' hrun
  cases hrun

theorem declines_applyAlternate (chooser chooser' : AlternateChooser σ)
    (subtables : Array AlternateSubst) (item : GlyphItem) (p : GlyphProperty) :
    Declines (applyAlternate chooser subtables item p)
      (applyAlternate chooser' subtables item p) := by
  apply Declines.bind
  intro found
  cases found with
  | none => exact .refl _
  | some alternates =>
    -- once there is something to choose from, the lookup applies or fails
    apply Insists.declines
    refine .bind fun s => .bind fun _ => ?_
    split
    · exact insists_throw _
    · exact .bind fun _ => .bind fun _ => insists_true

theorem declines_applyContext (invoke invoke' : Invoke σ) (flag : LookupFlag)
    (contextLength : UInt16) (item : GlyphItem) (subtables : List ContextLookup) :
    Declines (applyContext invoke flag contextLength item subtables)
      (applyContext invoke' flag contextLength item subtables) := by
  induction subtables with
  | nil => exact .refl _
  | cons subtable rest ih =>
    rw [applyContext, applyContext]
    refine .bind fun rules => .bind fun s => ?_
    -- lookups are only invoked once a rule has matched, and then this one applies
    dsimp only
    refine .bind fun _ => .bind fun _ => ?_
    split
    · exact ih
    · exact Insists.declines (.bind fun _ => insists_true) _

/-- A lookup that does not apply has not asked the chooser. -/
theorem declines_applyLookup (chooser chooser' : AlternateChooser σ)
    (layout : LayoutTable Substitution) (levels index : Nat) (contextLength : UInt16) :
    Declines (applyLookup chooser layout levels index contextLength)
      (applyLookup chooser' layout levels index contextLength) := by
  cases levels with
  | zero => exact .refl _
  | succ levels =>
    rw [applyLookup, applyLookup]
    refine .bind fun lookup => ?_
    dsimp only
    -- only alternates ask the chooser, at the top or within a rule
    cases lookup.subtables with
    | single | multiple | ligature | reverse => exact .refl _
    | alternate subtables =>
      dsimp only
      -- if the context has no room for a glyph, nobody is asked
      split
      · refine .bind fun found => ?_
        cases found with
        | none => exact .refl _
        | some found => exact declines_applyAlternate chooser chooser' subtables found.1 found.2
      · exact .refl _
    | context subtables | chained subtables =>
      refine .bind fun found => ?_
      cases found with
      | none => exact .refl _
      | some found => exact declines_applyContext _ _ lookup.flag contextLength found.1 _

/-! ## §3 Passes step by step -/

/-- Going through a text until there is no current glyph, with the number of steps and the outcome.
    A step that fails is the last one. -/
inductive Loops (apply : SubstM σ Bool) (bits : UInt32) :
    Nat → SubstState σ → Except LayoutError Unit × SubstState σ → Prop
  /-- All of the text is done. -/
  | done {s : SubstState σ} (hend : s.buffer.current? = none) : Loops apply bits 0 s (.ok (), s)
  /-- The step at the current glyph fails. -/
  | failed {s s' : SubstState σ} {item : GlyphItem} {e : LayoutError}
      (hcurrent : s.buffer.current? = some item)
      (hstep : (passStep apply bits item).outcome s = (.error e, s')) :
      Loops apply bits 1 s (.error e, s')
  /-- There is a step, and more after it. -/
  | step {s t : SubstState σ} {item : GlyphItem} {n : Nat}
      {result : Except LayoutError Unit × SubstState σ}
      (hcurrent : s.buffer.current? = some item)
      (hstep : (passStep apply bits item).outcome s = (.ok (), t))
      (hrest : Loops apply bits n t result) : Loops apply bits (n + 1) s result

/-- The limit on the number of rounds is never what ends a pass. -/
theorem loops_forwardPass {D : Discipline} {apply : SubstM σ Bool} (happly : D.Lawful apply)
    (bits : UInt32) {s : SubstState σ} (h : D.Holds s) {rounds : Nat}
    (hrounds : s.buffer.size - s.buffer.position ≤ rounds) :
    ∃ n ≤ s.buffer.size - s.buffer.position,
      Loops apply bits n s ((forwardPass apply bits rounds).outcome s) := by
  -- as in the pass itself, the rounds stay enough because every step goes past a glyph
  induction rounds generalizing s with
  | zero =>
    have hend : s.buffer.current? = none := Array.getElem?_eq_none (Nat.sub_eq_zero_iff_le.mp
      (Nat.le_zero.mp hrounds))
    exact ⟨0, Nat.zero_le _, .done hend⟩
  | succ rounds ih =>
    rw [forwardPass_succ, outcome_bind_ok (outcome_get s)]
    cases hcurrent : s.buffer.current? with
    | none => exact ⟨0, Nat.zero_le _, .done hcurrent⟩
    | some item =>
      have hlt := GlyphBuffer.position_lt_of_current? hcurrent
      have hkeeps := Discipline.keeps_passStep happly bits h hcurrent
      dsimp only
      rcases hstep : (passStep apply bits item).outcome s with ⟨_ | ⟨⟩, t⟩
      case error e =>
        rw [outcome_bind, hstep]
        exact ⟨1, by omega, .failed hcurrent hstep⟩
      case ok =>
        obtain ⟨ht, hadvance⟩ := hkeeps.of_ok hstep
        have hmoved := hadvance.moved
        have hsize := hadvance.size
        obtain ⟨n, hn, hloops⟩ := ih ht (by omega)
        rw [outcome_bind_ok hstep]
        exact ⟨n + 1, by omega, .step hcurrent hstep hloops⟩

theorem reversePass_eq_forM (subtables : List ReverseSubst) (flag : LookupFlag) (bits : UInt32)
    (count : Nat) : reversePass (σ := σ) subtables flag bits count =
      (List.range count).reverse.forM (reverseAt subtables flag bits) := by
  induction count with
  | zero => rfl
  | succ count ih =>
    rw [List.range_succ, List.reverse_append, reversePass, ih]
    rfl

variable (chooser : AlternateChooser σ) (table : ActiveTable Substitution)

/-- A run of the pass of a lookup, with the number of steps and the outcome. -/
inductive PassRun (index : Nat) (bits : UInt32) :
    Nat → SubstState σ → Except LayoutError Unit × SubstState σ → Prop
  /-- There is no such lookup. -/
  | missing {s : SubstState σ} {cause : ParseError}
      (hlookup : table.layout.lookup index = .error cause) :
      PassRun index bits 0 s (.error (.parse cause), s)
  /-- A reverse lookup looks at every place of the text once, the last one first. -/
  | backward {s : SubstState σ} {lookup : Lookup Substitution} {subtables : Array ReverseSubst}
      (hlookup : table.layout.lookup index = .ok lookup)
      (hkind : lookup.subtables = .reverse subtables) :
      PassRun index bits s.buffer.size s
        (((List.range s.buffer.size).reverse.forM
          (reverseAt subtables.toList lookup.flag bits)).outcome s)
  /-- Any other lookup goes through the text, and may fail on the way. -/
  | failed {n : Nat} {s t : SubstState σ} {e : LayoutError} {lookup : Lookup Substitution}
      (hlookup : table.layout.lookup index = .ok lookup)
      (hkind : ∀ subtables, lookup.subtables ≠ .reverse subtables)
      (hloops : Loops (applyLookup chooser table.layout table.nestingLimit index noContext) bits n
        s (.error e, t)) : PassRun index bits n s (.error e, t)
  /-- If it does not, all of the input gets done, and what has been written is the new text. -/
  | finished {n : Nat} {s t : SubstState σ} {lookup : Lookup Substitution}
      (hlookup : table.layout.lookup index = .ok lookup)
      (hkind : ∀ subtables, lookup.subtables ≠ .reverse subtables)
      (hloops : Loops (applyLookup chooser table.layout table.nestingLimit index noContext) bits n
        s (.ok (), t))
      (hend : t.buffer.position = t.buffer.size) :
      PassRun index bits n s (.ok (), { t with buffer := t.buffer.swap })

variable {chooser table}

/-- Every pass is such a run, with at most one step for each glyph. -/
theorem exists_passRun {index : Nat} (bits : UInt32) {s : SubstState σ}
    (h : s.buffer.position ≤ s.buffer.size) :
    ∃ n ≤ s.buffer.size, PassRun chooser table index bits n s
      ((pass chooser table index bits).outcome s) := by
  rw [pass_eq]
  -- there are four ways for a pass to go, and each is one of the runs
  cases hlookup : table.layout.lookup index with
  | error cause => exact ⟨0, Nat.zero_le _, .missing hlookup⟩
  | ok lookup =>
    rw [outcome_bind_ok (show (liftM (LayoutError.ofParse (.ok lookup)) : SubstM σ _).outcome s =
      (.ok lookup, s) from rfl), passOf]
    -- the reverse type needs no rounds, since it goes through all places of the text
    split
    case h_1 subtables hkind =>
      rw [outcome_bind_ok (outcome_get s), reversePass_eq_forM]
      exact ⟨s.buffer.size, Nat.le_refl _, .backward hlookup hkind⟩
    case h_2 hkind =>
      have hlawful : Discipline.unrestricted.Lawful
          (applyLookup chooser table.layout table.nestingLimit index noContext) :=
        Discipline.lawful_applyLookup (Discipline.unrestricted_allows table.layout)
          table.nestingLimit trivial noContext
      -- any other lookup has a bound for its rounds, as each of them reads a glyph at least
      have hholds := Discipline.unrestricted_holds h
      obtain ⟨n, hn, hloops⟩ := loops_forwardPass hlawful bits hholds (Nat.le_refl _)
      refine ⟨n, Nat.le_trans hn (Nat.sub_le _ _), ?_⟩
      have hkeeps := Discipline.keeps_forwardPass hlawful bits hholds (Nat.le_refl _)
      have hforward : ∀ subtables, lookup.subtables ≠ .reverse subtables :=
        fun subtables => hkind subtables
      rw [outcome_bind_ok (outcome_get s)]
      dsimp only
      rcases hrun : (forwardPass (applyLookup chooser table.layout table.nestingLimit index
        noContext) bits (s.buffer.size - s.buffer.position)).outcome s with ⟨_ | ⟨⟩, t⟩
      case error e =>
        rw [hrun] at hloops
        rw [outcome_bind, hrun]
        exact .failed hlookup hforward hloops
      case ok =>
        rw [hrun] at hloops
        rw [outcome_bind_ok hrun]
        exact .finished hlookup hforward hloops (hkeeps.of_ok hrun).2.2

end SubstM

/-! ## §4 The contract -/

/-- What a lookup that applies does to a buffer. -/
structure GlyphBuffer.Applied (b b' : GlyphBuffer) : Prop where
  moved : b.position < b'.position
  inside : b'.position ≤ b'.size
  written : b.outputText <+: b'.outputText
  input : b'.inputText = b.inputText

open Program SubstM in
/-- Up to what is known of the glyphs of the text:

    - A lookup that applies goes past some glyph, stays in the text, keeps the input and adds to the
      output. One that does not leaves everything as it was, and it would have done so with any
      chooser.
    - A pass that comes next, after passes that were started at the front, begins at the front. It
      comes to an end with at most one step for each glyph of the text, when all of the input is
      done.
    - When all passes have been made, the position is at the front and the output is empty. -/
theorem applyLookup_contract {σ : Type} (chooser : AlternateChooser σ)
    (table : ActiveTable Substitution) :
    (∀ (levels index : Nat) (contextLength : UInt16) (s s' : SubstState σ),
      s.buffer.position < s.buffer.size →
        ((applyLookup chooser table.layout levels index contextLength).outcome s = (.ok true, s') →
          s.buffer.Applied s'.buffer) ∧
        ((applyLookup chooser table.layout levels index contextLength).outcome s = (.ok false, s') →
          Discipline.Unmoved s s' ∧ ∀ chooser' : AlternateChooser σ,
            (applyLookup chooser' table.layout levels index contextLength).outcome s =
              (.ok false, s'))) ∧
    (∀ (earlier later : List (Nat × UInt32)) (index : Nat) (bits : UInt32) (s t : SubstState σ),
      table.active = earlier ++ (index, bits) :: later → s.buffer.AtStart →
        (applyActive chooser table earlier).outcome s = (.ok (), t) →
          (applyActive chooser table table.active).outcome s =
            (do pass chooser table index bits; applyActive chooser table later).outcome t ∧
          t.buffer.AtStart ∧ ∃ n ≤ t.buffer.size, PassRun chooser table index bits n t
            ((pass chooser table index bits).outcome t)) ∧
    ∀ s s' : SubstState σ, s.buffer.AtStart → table.substitute chooser s = (.ok (), s') →
      s'.buffer.AtStart := by
  -- nothing is asked of the layout, so the discipline has no conditions
  have hallows := Discipline.unrestricted_allows table.layout
  have hinside : ∀ {s : SubstState σ}, s.buffer.AtStart → s.buffer.position ≤ s.buffer.size :=
    fun hstart => hstart.position ▸ Nat.zero_le _
  -- one application, one pass among others, and the whole run
  refine ⟨?_, ?_, ?_⟩
  · intro levels index contextLength s s' hlt
    have hlawful : Discipline.unrestricted.Lawful
        (applyLookup chooser table.layout levels index contextLength) :=
      Discipline.lawful_applyLookup hallows levels trivial contextLength
    have hkeeps := hlawful s (Discipline.unrestricted_holds (Nat.le_of_lt hlt)) hlt
    constructor
    · intro hrun
      obtain ⟨h', hstep⟩ := hkeeps.of_ok hrun
      cases hstep with
      | applied hadvance =>
        exact ⟨hadvance.moved, h'.inside, hadvance.output_prefix, hadvance.input⟩
    -- what is answered without having been applied does not depend on the chooser
    · intro hrun
      obtain ⟨-, hstep⟩ := hkeeps.of_ok hrun
      cases hstep with
      | notApplied hunmoved =>
        exact ⟨hunmoved, fun chooser' =>
          declines_applyLookup chooser chooser' table.layout levels index contextLength s s' hrun⟩
  -- the passes before have left the text at its start again
  · intro earlier later index bits s t hactive hstart hrun
    have hholds := Discipline.unrestricted_holds (hinside hstart)
    obtain ⟨ht, hrewritten⟩ :=
      (Discipline.keeps_applyActive chooser hallows (fun _ _ => trivial) hholds).of_ok hrun
    refine ⟨?_, (hrewritten hstart).1, exists_passRun bits ht.inside⟩
    rw [hactive, applyActive_append, outcome_bind_ok hrun, applyActive_cons]
  · intro s s' hstart hrun
    have hholds := Discipline.unrestricted_holds (hinside hstart)
    have hkept := (Discipline.keeps_applyActive chooser hallows (fun _ _ => trivial) hholds).of_ok
      (outcome_of_substitute chooser table hrun)
    exact (hkept.2 hstart).1

/-! A font in which the glyphs 1 and 2 form the glyph 9, with the marks between them skipped. The
    lookup that finds them invokes the one that has the ligature. The glyph 5 is a mark. -/

namespace MarkedPair

def layout : LayoutTable Substitution where
  scripts := #[]
  features := #[]
  lookups := #[
    { flag := ⟨0x0008⟩
      subtables := .chained #[.byCoverage (.glyphs #[1]) #[] #[.glyphs #[2]] #[] [⟨0, 1⟩]] },
    { flag := ⟨0x0008⟩
      subtables := .ligature #[⟨.glyphs #[1], #[#[⟨9, #[2]⟩]]⟩] }]

def table : ActiveTable Substitution where
  layout := layout
  bits := #[1, 0]

def gdef : Gdef where
  classes := some (.ranges #[⟨5, 5, 3⟩])
  synthesized := some (.ofRanges 10 [⟨5, 5, 3⟩])

/-- The glyphs 1, 5, 2, 3. -/
def start : SubstState Unit where
  buffer := (((GlyphBuffer.empty.push 1 1 0).push 5 1 0).push 2 1 1).push 3 1 2
  gdef := some gdef
  kept := ()

end MarkedPair

open Program SubstM MarkedPair in
/-- The ligature takes three glyphs, the mark among them, and the pass has two steps. -/
theorem applyLookup_contract_markedPair :
    start.buffer.Applied
        ((applyLookup AlternateChooser.first layout 100 0 noContext).outcome start).2.buffer ∧
      (∃ n ≤ 4, PassRun AlternateChooser.first table 0 1 n start
        ((pass AlternateChooser.first table 0 1).outcome start)) ∧
      (table.substitute AlternateChooser.first start).2.buffer.AtStart := by
  obtain ⟨hstep, hpass, hall⟩ := applyLookup_contract AlternateChooser.first table
  have hlookup : ((applyLookup AlternateChooser.first layout 100 0 noContext).outcome start).1 =
      .ok true := by decide +kernel
  have hsubstitute : (table.substitute AlternateChooser.first start).1 = .ok () := by
    decide +kernel
  refine ⟨?_, ?_, ?_⟩
  · exact (hstep 100 0 noContext start _ (by decide)).1 (outcome_eq_of_answer hlookup)
  · exact (hpass [] [] 0 1 start start (by decide) ⟨rfl, rfl⟩ rfl).2.2
  · exact hall start _ ⟨rfl, rfl⟩ (outcome_eq_of_answer hsubstitute)

end OpenTypeLayout
