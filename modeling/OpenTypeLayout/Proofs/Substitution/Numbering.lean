import OpenTypeLayout.Proofs.ContextLength
import OpenTypeLayout.Proofs.Recording
import OpenTypeLayout.Proofs.Substitution.Counts
import OpenTypeLayout.Proofs.Substitution.Emission
import OpenTypeLayout.Proofs.Substitution.Parts

/-!
# Numbering ligatures

A glyph buffer hands out numbers for ligatures, and whoever writes a ligature may take one. Programs
that keep a list of this can be compared with the programs themselves.

- `GlyphBuffer.Ligates` holds of the buffers before and after a ligature is written.
- `SubstM.substituteLogged` substitutes a text and notes each ligature that is written.
- `SubstM.Numbers` says that a program does the same with a list as another one without, and that
  the list accounts for all numbers that have been taken.
-/

namespace OpenTypeLayout

/-! ## §1 Written ligatures -/

namespace GlyphBuffer

/-- A ligature has been written: the buffers are those before and after. -/
structure Ligates (b b' : GlyphBuffer) (first : GlyphItem) (glyph : GlyphId) (places : List Nat) :
    Prop where
  ascending : places.Pairwise (· < ·)
  head : places.head? = some b.position
  inside : ∀ q ∈ places, q < b.size
  /-- The first component is the current glyph, up to what is known of it. -/
  current : ∃ x, b.current? = some x ∧ x.bare = first.bare
  output : b'.output = b.output ++ (#[replacement first inherit (b.numberFor first places) glyph] ++
    carried b.input (b.numberFor first places) 0 (b.position + 1) places.tail)
  nextLigature : b'.nextLigature =
    if KeepsNumber first places b.position then b.nextLigature else b.nextLigature + 1

theorem Ligates.of_sameText {b b₁ : GlyphBuffer} (hsame : b.SameText b₁)
    (houtput : b₁.output = b.output) {first : GlyphItem} (hfirst : b₁.current? = some first)
    {places : List Nat} (hascending : places.Pairwise (· < ·))
    (hhead : places.head? = some b.position) (hinside : ∀ q ∈ places, q < b.size)
    (glyph : GlyphId) : b.Ligates (b₁.ligated first glyph places) first glyph places where
  ascending := hascending
  head := hhead
  inside := hinside
  current := by
    -- there is a current glyph in both buffers, the same but for what is known of it
    have hlt : b.position < b.size := by
      rw [← hsame.position, ← hsame.size]
      exact position_lt_of_current? hfirst
    obtain ⟨x, hx⟩ := exists_current? hlt
    obtain ⟨x', hx', hbare⟩ := hsame.current? hx
    cases hfirst.symm.trans hx'
    exact ⟨x, hx, hbare.symm⟩
  output := by
    have hnumber : b₁.numberFor first places = b.numberFor first places := by
      rw [numberFor, numberFor, hsame.position, hsame.nextLigature]
    rw [ligated, houtput, hnumber, hsame.position, carried_of_bareText hsame.input]
  nextLigature := by
    rw [ligated, hsame.position, hsame.nextLigature]

end GlyphBuffer

/-- What takes a number for a ligature, or writes one. -/
inductive Numbering where
  /-- A number is handed out. -/
  | handedOut (number : UInt16)
  /-- A ligature is written; these are the buffers before and after. -/
  | written (before after : GlyphBuffer)

/-- The numbers that are taken. -/
def Numbering.taken : Numbering → List UInt16
  | .handedOut number => [number]
  | .written before after =>
    if after.nextLigature = before.nextLigature then [] else [before.nextLigature]

/-- One after the other, from the next number before all of them to the next number after. -/
def Numbering.Account : UInt16 → List Numbering → UInt16 → Prop
  | next, [], next' => next' = next
  | next, .handedOut number :: rest, next' => number = next ∧ Account (next + 1) rest next'
  | next, .written before after :: rest, next' =>
    before.nextLigature = next ∧ (∃ first glyph places, before.Ligates after first glyph places) ∧
      Account after.nextLigature rest next'

theorem Numbering.Account.append {next next' next'' : UInt16} {events events' : List Numbering}
    (h : Account next events next') (h' : Account next' events' next'') :
    Account next (events ++ events') next'' := by
  induction events generalizing next with
  | nil =>
    cases h
    exact h'
  | cons event rest ih =>
    cases event with
    | handedOut number => exact ⟨h.1, ih h.2⟩
    | written before after => exact ⟨h.1, h.2.1, ih h.2.2⟩

/-! ## §2 Runs with a list -/

namespace SubstState

variable {σ R : Type}

/-- The state with a record. -/
def logged (s : SubstState σ) (record : R) : SubstState (σ × R) where
  buffer := s.buffer
  gdef := s.gdef
  kept := (s.kept, record)

/-- The record is kept beside what the chooser keeps. -/
def beside : Beside (SubstState σ) R (SubstState (σ × R)) where
  join := logged
  state s := { buffer := s.buffer, gdef := s.gdef, kept := s.kept.1 }
  record s := s.kept.2
  state_join _ _ := rfl
  record_join _ _ := rfl

@[simp] theorem beside_join (s : SubstState σ) (record : R) :
    beside.join s record = s.logged record :=
  rfl

@[simp] theorem buffer_logged (s : SubstState σ) (record : R) :
    (s.logged record).buffer = s.buffer :=
  rfl

end SubstState

namespace SubstM

open Program
open SubstState (beside)

variable {σ α β : Type}

/-- Run a lookup that may write a ligature, and note it if it does. -/
def noting (x : SubstM σ Bool) : SubstM (σ × List Numbering) Bool := do
  let before := (← get).buffer
  let applied ← within beside x
  if applied then
    note beside fun s events => events ++ [.written before s.buffer]
  return applied

/-- Apply a lookup, and note the ligatures that are written on the way. -/
def applyLogged (chooser : AlternateChooser σ) (layout : LayoutTable Substitution) :
    (levels : Nat) → Invoke (σ × List Numbering)
  | 0, _, _ => throw .tooManyNestedContexts
  | levels + 1, index, contextLength => do
    let lookup ← LayoutError.ofParse (layout.lookup index)
    match lookup.subtables with
    | .context subtables | .chained subtables =>
      atCurrent lookup.flag fun item _ =>
        applyContext (applyLogged chooser layout levels) lookup.flag contextLength item
          subtables.toList
    | .ligature _ =>
      noting (applySubtables chooser (applyLookup chooser layout levels) lookup contextLength)
    -- the other types neither invoke lookups nor write ligatures
    | _ =>
      within beside
        (applySubtables chooser (applyLookup chooser layout levels) lookup contextLength)

/-- Apply active lookups in order, with a list. -/
def activeLogged (chooser : AlternateChooser σ) (table : ActiveTable Substitution) :
    List (Nat × UInt32) → SubstM (σ × List Numbering) Unit
  | [] => pure ()
  | (index, bits) :: rest => do
    let lookup ← LayoutError.ofParse (table.layout.lookup index)
    match lookup.subtables with
    | .reverse subtables =>
      let size := (← get).buffer.size
      within beside (reversePass subtables.toList lookup.flag bits size)
    | _ =>
      let b := (← get).buffer
      forwardPass (applyLogged chooser table.layout table.nestingLimit index noContext) bits
        (b.size - b.position)
      modifyBuffer GlyphBuffer.swap
    activeLogged chooser table rest

end SubstM

/-- Apply every active lookup to a text, with a list. -/
def ActiveTable.substituteLogged {σ : Type} (table : ActiveTable Substitution)
    (chooser : AlternateChooser σ) (state : SubstState (σ × List Numbering)) :
    Except LayoutError Unit × SubstState (σ × List Numbering) :=
  if state.buffer.input.isEmpty then (.error .invalidArgument, state)
  else (SubstM.activeLogged chooser table table.active).outcome state

namespace SubstM

open Program
open SubstState (beside)

variable {σ α β : Type}

/-! ## §3 Comparing programs -/

/-- What is added to the list accounts for the numbers that have been taken. -/
def numbering : Tracking (SubstState σ) (List Numbering) where
  rel s events s' events' := ∃ added, events' = events ++ added ∧
    Numbering.Account s.buffer.nextLigature added s'.buffer.nextLigature
  refl s events := ⟨[], (List.append_nil events).symm, rfl⟩
  trans := by
    rintro s s' s'' events _ _ ⟨added, rfl, haccount⟩ ⟨added', rfl, haccount'⟩
    exact ⟨added ++ added', List.append_assoc .., haccount.append haccount'⟩

/-- With a list, one program has the outcome that another one has without, and what it adds to the
    list accounts for the numbers that have been taken. -/
abbrev Numbers (x' : SubstM (σ × List Numbering) α) (x : SubstM σ α) : Prop :=
  Tracks beside numbering x' x

/-- A program takes no number. -/
def TakesNone (x : SubstM σ α) : Prop :=
  ∀ s, (x.outcome s).2.buffer.nextLigature = s.buffer.nextLigature

/-- A program that does nothing with the list and takes no number. -/
theorem numbers_of_takesNone {x' : SubstM (σ × List Numbering) α} {x : SubstM σ α}
    (hx : TakesNone x) (h : Quiet beside x' x) : Numbers x' x :=
  .of_quiet h fun s events => ⟨[], (List.append_nil events).symm, hx s⟩

theorem numbers_within {x : SubstM σ α} (hx : TakesNone x) : Numbers (within beside x) x :=
  numbers_of_takesNone hx (quiet_within x)

/-! ## §4 Single steps -/

namespace TakesNone

theorem pure (a : α) : TakesNone (Pure.pure a : SubstM σ α) := fun _ => rfl

theorem throw (e : LayoutError) : TakesNone (throw e : SubstM σ α) := fun _ => rfl

theorem lift (r : Except LayoutError α) : TakesNone (liftM r : SubstM σ α) := fun _ => rfl

theorem bind {x : SubstM σ α} {f : α → SubstM σ β} (hx : TakesNone x) (hf : ∀ a, TakesNone (f a)) :
    TakesNone (x >>= f) := by
  intro s
  have hs := hx s
  rw [outcome_bind]
  rcases hrun : x.outcome s with ⟨e | a, t⟩
  · rw [hrun] at hs
    exact hs
  · rw [hrun] at hs
    exact (hf a t).trans hs

theorem get_bind {f : SubstState σ → SubstM σ β} (hf : ∀ s, TakesNone (f s)) :
    TakesNone (get >>= f) := fun s => hf s s

theorem ite {condition : Prop} [Decidable condition] {x y : SubstM σ α} (hx : TakesNone x)
    (hy : TakesNone y) : TakesNone (if condition then x else y) := by
  split
  · exact hx
  · exact hy

end TakesNone

theorem takesNone_modifyBuffer {f : GlyphBuffer → GlyphBuffer}
    (hf : ∀ b, (f b).nextLigature = b.nextLigature) :
    TakesNone (modifyBuffer f : SubstM σ Unit) := fun s => hf s.buffer

theorem takesNone_rememberInput (low high : Nat) :
    TakesNone (rememberInput low high : SubstM σ Unit) := fun _ => rfl

theorem takesNone_emit (count : Nat) (glyphs : Array GlyphId) (component ligature : UInt16) :
    TakesNone (emit count glyphs component ligature : SubstM σ Unit) :=
  .get_bind fun _ => (TakesNone.lift _).bind fun _ => takesNone_modifyBuffer fun _ => rfl

theorem takesNone_recordClass (p : GlyphProperty) (glyph : GlyphId) :
    TakesNone (recordClass p glyph : SubstM σ Unit) := by
  refine .get_bind fun s => ?_
  cases s.gdef with
  | none => exact .pure _
  | some g =>
    refine TakesNone.ite ?_ (.pure _)
    exact (TakesNone.lift _).bind fun _ _ => rfl

theorem takesNone_atCurrent (flag : LookupFlag)
    {action : GlyphItem → GlyphProperty → SubstM σ Bool}
    (haction : ∀ item p, TakesNone (action item p)) : TakesNone (atCurrent flag action) := by
  refine TakesNone.bind (.get_bind fun s => (TakesNone.lift _).bind fun item =>
    (takesNone_rememberInput _ _).bind fun _ => .pure _) fun found => ?_
  cases found with
  | none => exact .pure _
  | some found => exact haction found.1 found.2

theorem takesNone_applySingle (subtables : Array SingleSubst) (item : GlyphItem)
    (p : GlyphProperty) : TakesNone (applySingle subtables item p : SubstM σ Bool) := by
  refine (TakesNone.lift _).bind fun found => ?_
  cases found with
  | none => exact .pure _
  | some glyph =>
    exact (takesNone_emit _ _ _ _).bind fun _ => (takesNone_recordClass _ _).bind fun _ => .pure _

theorem takesNone_forM_recordClass (p : GlyphProperty) (glyphs : List GlyphId) :
    TakesNone (glyphs.forM (recordClass (σ := σ) p)) := by
  induction glyphs with
  | nil => exact .pure _
  | cons glyph rest ih => exact (takesNone_recordClass p glyph).bind fun _ => ih

theorem takesNone_applyMultiple (subtables : Array MultipleSubst) (item : GlyphItem)
    (p : GlyphProperty) : TakesNone (applyMultiple subtables item p : SubstM σ Bool) := by
  refine (TakesNone.lift _).bind fun found => ?_
  cases found with
  | none => exact .pure _
  | some glyphs =>
    exact (takesNone_emit _ _ _ _).bind fun _ =>
      (takesNone_forM_recordClass _ _).bind fun _ => .pure _

theorem takesNone_applyAlternate (chooser : AlternateChooser σ) (subtables : Array AlternateSubst)
    (item : GlyphItem) (p : GlyphProperty) :
    TakesNone (applyAlternate chooser subtables item p) := by
  refine (TakesNone.lift _).bind fun found => ?_
  cases found with
  | none => exact .pure _
  | some alternates =>
    refine .get_bind fun s => TakesNone.bind (fun _ => rfl) fun _ => ?_
    split
    case h_1 => exact .throw _
    case h_2 =>
      exact (takesNone_emit _ _ _ _).bind fun _ => (takesNone_recordClass _ _).bind fun _ => .pure _

theorem takesNone_reverseAt (subtables : List ReverseSubst) (flag : LookupFlag) (bits : UInt32)
    (index : Nat) : TakesNone (reverseAt subtables flag bits index : SubstM σ Unit) := by
  refine .get_bind fun s => ?_
  split
  case h_1 => exact .pure _
  case h_2 item _ =>
    refine TakesNone.ite ?_ (.pure _)
    split
    case h_1 => exact takesNone_rememberInput _ _
    case h_2 =>
      refine (takesNone_rememberInput _ _).bind fun _ => ?_
      split
      case h_1 => exact .pure _
      case h_2 =>
        exact TakesNone.bind (fun _ => rfl) fun _ => takesNone_recordClass _ _

theorem takesNone_reversePass (subtables : List ReverseSubst) (flag : LookupFlag) (bits : UInt32)
    (count : Nat) : TakesNone (reversePass subtables flag bits count : SubstM σ Unit) := by
  induction count with
  | zero => exact .pure _
  | succ index ih => exact (takesNone_reverseAt _ _ _ _).bind fun _ => ih

/-! ## §5 Ligatures -/

theorem meets_recordClass (p : GlyphProperty) (glyph : GlyphId) {s : SubstState σ}
    {fails : LayoutError → SubstState σ → Prop} (hfails : ∀ e, fails e s) :
    (recordClass p glyph).Meets s (fun _ s' => s'.buffer = s.buffer) fails := by
  unfold Meets recordClass
  rw [outcome_bind_ok (outcome_get s)]
  cases s.gdef with
  | none => rfl
  | some g =>
    dsimp only
    by_cases hrecords : g.recordsClasses = true
    · rw [if_pos hrecords]
      cases hrecord : g.record glyph p.basic with
      | error e => exact hfails e
      | ok answer => rfl
    · rw [if_neg hrecords]
      rfl

/-- Where a ligature is found it is written; otherwise the buffer stays, but for what is known of
    its glyphs. -/
theorem meets_applyLigature {flag : LookupFlag} {contextLength : UInt16} {item : GlyphItem}
    {p : GlyphProperty} {subtables : List LigatureSubst}
    (hcounts : ∀ m ∈ subtables, ∀ ligatures ∈ m.entries, ∀ l ∈ ligatures, l.count ≤ 0xFFFF)
    {s : SubstState σ} (hlt : s.buffer.position < s.buffer.size) {b : GlyphBuffer}
    (hsame : b.SameText s.buffer) (houtput : s.buffer.output = b.output) :
    (applyLigature flag contextLength item p subtables).Meets s
      (fun applied s' =>
        if applied then ∃ first glyph places, b.Ligates s'.buffer first glyph places
        else b.SameText s'.buffer)
      fun _ s' => b.SameText s'.buffer := by
  -- a subtable without a ligature changes nothing but what is known of the glyphs
  induction subtables generalizing s with
  | nil => exact hsame
  | cons subtable rest ih =>
    have ih := fun s => ih (s := s) fun m hm => hcounts m (List.mem_cons_of_mem subtable hm)
    rw [applyLigature_cons]
    -- asking for the rule set leaves the state as it is
    have hlift : (liftM (LayoutError.ofParse (subtable.find item.glyph)) : SubstM σ _).Meets s
        (fun found t => s = t ∧ LayoutError.ofParse (subtable.find item.glyph) = .ok found)
        fun _ s' => b.SameText s'.buffer := by
      unfold Meets
      rw [outcome_lift]
      cases hfind : LayoutError.ofParse (subtable.find item.glyph) with
      | error e => exact hsame
      | ok found => exact ⟨rfl, rfl⟩
    refine hlift.bind ?_
    rintro ligatures _ ⟨rfl, hfind⟩
    cases ligatures with
    | none => exact ih s hlt hsame houtput
    | some ligatures =>
      rcases hsearch : firstLigature ⟨s.gdef, flag⟩ contextLength s.buffer.input s.buffer.position
        p.isMark ligatures.toList (s.buffer.position + 1) with ⟨found, bound⟩
      -- and searching it only looks at glyphs
      have hfind' : (findLigature flag contextLength p.isMark ligatures.toList).Meets s
          (fun answer t => found = answer ∧ s.buffer.SameText t.buffer ∧
            t.buffer.output = s.buffer.output) fun _ s' => b.SameText s'.buffer := by
        unfold Meets
        rw [outcome_findLigature, hsearch]
        exact ⟨rfl, ⟨bareText_rememberRange _ _ _ _, rfl, rfl, rfl⟩, rfl⟩
      refine hfind'.bind ?_
      rintro _ t ⟨rfl, hsame', houtput'⟩
      have hlt' : t.buffer.position < t.buffer.size := by
        rw [hsame'.position, hsame'.size]
        exact hlt
      have hsame := hsame.trans hsame'
      have houtput := houtput'.trans houtput
      cases found with
      -- no ligature of this subtable matches, so the next one is asked
      | none => exact ih t hlt' hsame houtput
      | some found =>
        obtain ⟨glyph, m⟩ := found
        -- recording the class of the ligature does not touch the buffer
        refine Meets.bind (meets_recordClass _ glyph fun _ => hsame) fun _ t' ht' => ?_
        obtain ⟨hfound, l, hl, hlength⟩ := firstLigature_eq_some hsearch
        have hentry := CoverageMap.mem_of_find (LayoutError.ofParse_eq_ok hfind)
        -- the ligature has as many places as components, and all of them are in the text
        have hcount : m.places.length ≤ 0xFFFF :=
          hlength ▸ hcounts subtable List.mem_cons_self _ hentry l (Array.mem_toList_iff.mp hl)
        have hinside : ∀ q ∈ m.places, q < s.buffer.size := fun q hq => hfound.lt_of_mem hlt hq
        rw [← ht'] at hlt' hsame houtput hsame'
        obtain ⟨first, hfirst⟩ := GlyphBuffer.exists_current? hlt'
        have hhead : m.places.head? = some t'.buffer.position := hsame'.position ▸ hfound.head
        have hwritten := outcome_emitLigature hfirst glyph hfound.ascending hhead
          (fun q hq => hsame'.size ▸ hinside q hq) hcount
        unfold Meets
        rw [outcome_bind_ok hwritten]
        -- what is written is written over the text as it was at first
        refine ⟨first, glyph, m.places, .of_sameText hsame houtput hfirst hfound.ascending ?_ ?_ _⟩
        · rw [← hsame.position]
          exact hhead
        · intro q hq
          rw [← hsame.size, hsame'.size]
          exact hinside q hq

/-- A lookup that writes ligatures, at the current glyph. -/
theorem meets_ligatures (chooser : AlternateChooser σ) (invoke : Invoke σ) {flag : LookupFlag}
    {subtables : Array LigatureSubst} (hwords : (Substitution.ligature subtables).WithinWords)
    (contextLength : UInt16) (s : SubstState σ) :
    (applySubtables chooser invoke ⟨flag, .ligature subtables⟩ contextLength).Meets s
      (fun applied s' =>
        if applied then ∃ first glyph places, s.buffer.Ligates s'.buffer first glyph places
        else s.buffer.SameText s'.buffer)
      fun _ s' => s.buffer.SameText s'.buffer := by
  unfold applySubtables
  dsimp only
  split
  case isFalse => exact .refl _
  case isTrue =>
    -- before the subtables are asked, the current glyph is looked up
    have hcurrent : (current flag).Meets s (fun _ t => s.buffer.SameText t.buffer ∧
        t.buffer.output = s.buffer.output ∧ s.buffer.position < s.buffer.size)
        fun _ s' => s.buffer.SameText s'.buffer := by
      unfold Meets current
      rw [outcome_bind_ok (outcome_get s)]
      cases hx : s.buffer.current? with
      | none =>
        rw [GlyphBuffer.current, hx]
        exact .refl _
      | some x =>
        rw [GlyphBuffer.current, hx]
        exact ⟨⟨bareText_rememberRange _ _ _ _, rfl, rfl, rfl⟩, rfl,
          GlyphBuffer.position_lt_of_current? hx⟩
    refine hcurrent.bind ?_
    rintro found t ⟨hsame, houtput, hlt⟩
    -- a glyph that is skipped leaves the text alone
    cases found with
    | none => exact hsame
    | some found =>
      have hcounts := Substitution.withinWords_ligature.mp hwords
      refine meets_applyLigature
        (fun m hm => hcounts m (Array.mem_toList_iff.mp hm)) ?_ hsame houtput
      rw [hsame.position, hsame.size]
      exact hlt

/-- If a lookup writes a ligature where it applies, and does nothing else that matters, noting it
    accounts for the numbers. -/
theorem numbers_noting {x : SubstM σ Bool}
    (hx : ∀ s, x.Meets s
      (fun applied s' =>
        if applied then ∃ first glyph places, s.buffer.Ligates s'.buffer first glyph places
        else s.buffer.SameText s'.buffer)
      fun _ s' => s.buffer.SameText s'.buffer) : Numbers (noting x) x := by
  intro s events
  have hmeets := hx s
  -- as long as no ligature is written, no number is taken
  have hnone : ∀ {s' : SubstState σ}, s.buffer.SameText s'.buffer →
      numbering.rel s events s' events := fun hsame =>
    ⟨[], (List.append_nil events).symm, hsame.nextLigature⟩
  have hwithin : Records beside (within beside x) x s events
      (fun _ _ events' => events' = events) fun _ s' events' => numbering.rel s events s' events' :=
    (quiet_within x).records (fun _ _ _ => rfl) fun _ _ hrun => hnone (hmeets.of_error hrun)
  refine hwithin.finish fun applied s' events' hrun hsame => ?_
  subst hsame
  have happlied := hmeets.of_ok hrun
  cases applied with
  | false => exact .pure (hnone happlied)
  | true => exact .note_bind (.pure ⟨[.written s.buffer s'.buffer], rfl, rfl, happlied, rfl⟩)

/-! ## §6 Rules -/

theorem numbers_copy : Numbers (copy : SubstM (σ × List Numbering) Unit) (copy : SubstM σ Unit) :=
  .get_bind fun _ _ => (Tracks.lift _).bind fun _ =>
    numbers_of_takesNone (fun _ => rfl) fun _ _ => rfl

theorem numbers_atCurrent (flag : LookupFlag)
    {action' : GlyphItem → GlyphProperty → SubstM (σ × List Numbering) Bool}
    {action : GlyphItem → GlyphProperty → SubstM σ Bool}
    (haction : ∀ item p, Numbers (action' item p) (action item p)) :
    Numbers (atCurrent flag action') (atCurrent flag action) := by
  have hcurrent : Numbers (current flag : SubstM (σ × List Numbering) _)
      (current flag : SubstM σ _) :=
    .get_bind fun _ _ => (Tracks.lift _).bind fun _ =>
      (numbers_of_takesNone (takesNone_rememberInput _ _) fun _ _ => rfl).bind fun _ => .pure _
  refine hcurrent.bind fun found => ?_
  cases found with
  | none => exact .pure _
  | some found => exact haction found.1 found.2

theorem numbers_findRule (flag : LookupFlag) (rules : List RuleCandidate) :
    Numbers (findRule flag rules : SubstM (σ × List Numbering) _)
      (findRule flag rules : SubstM σ _) :=
  numbers_of_takesNone (fun _ => rfl) fun _ _ => rfl

variable {invoke' : Invoke (σ × List Numbering)} {invoke : Invoke σ}

theorem numbers_applyRecords
    (h : ∀ i contextLength, Numbers (invoke' i contextLength) (invoke i contextLength))
    (places : List Nat) (last rounds : Nat) (records : List LookupRecord) :
    Numbers (applyRecords invoke' places last rounds records)
      (applyRecords invoke places last rounds records) := by
  induction rounds generalizing records with
  | zero => exact .pure _
  | succ rounds ih =>
    rw [applyRecords, applyRecords]
    refine .get_bind fun s events => ?_
    rw [SubstState.beside_join, SubstState.buffer_logged]
    dsimp only
    refine Tracks.ite ?_ (.pure _)
    -- whether a record was handed over or not, the rest of the rule goes on alike
    have hmove : ∀ (applied : Bool) (rest : List LookupRecord),
        Numbers (do
            if !applied then copy
            applyRecords invoke' places last rounds rest)
          (do
            if !applied then copy
            applyRecords invoke places last rounds rest) := by
      intro applied rest
      cases applied with
      | true => exact ih rest
      | false => exact numbers_copy.bind fun _ => ih rest
    cases (nextRecord places s.buffer.position records).1 with
    | none => exact hmove false _
    | some r =>
      refine (Tracks.lift (fit16 _)).bind fun n => ?_
      exact (h _ n).bind fun applied => hmove applied _

theorem numbers_applyRule (h : ∀ i contextLength, Numbers (invoke' i contextLength)
      (invoke i contextLength)) (flag : LookupFlag) (rule : RuleMatch) :
    Numbers (applyRule invoke' flag rule) (applyRule invoke flag rule) :=
  .get_bind fun _ _ => numbers_applyRecords h _ _ _ _

theorem numbers_applyContext (h : ∀ i contextLength, Numbers (invoke' i contextLength)
      (invoke i contextLength)) (flag : LookupFlag) (contextLength : UInt16) (item : GlyphItem)
    (subtables : List ContextLookup) :
    Numbers (applyContext invoke' flag contextLength item subtables)
      (applyContext invoke flag contextLength item subtables) := by
  induction subtables with
  | nil => exact .pure _
  | cons subtable rest ih =>
    rw [applyContext_cons, applyContext_cons]
    refine (Tracks.lift _).bind fun rules => (numbers_findRule flag rules).bind fun found => ?_
    cases found with
    | none => exact ih
    | some rule => exact (numbers_applyRule h flag rule).bind fun _ => .pure _

/-! ## §7 Lookups and passes -/

/-- Lookups of every type, nested to any depth. -/
theorem numbers_applyLogged (chooser : AlternateChooser σ) {layout : LayoutTable Substitution}
    (hwords : ∀ {i lookup}, layout.lookup i = .ok lookup → lookup.subtables.WithinWords)
    (levels index : Nat) (contextLength : UInt16) :
    Numbers (applyLogged chooser layout levels index contextLength)
      (applyLookup chooser layout levels index contextLength) := by
  induction levels generalizing index contextLength with
  | zero => exact .throw _
  | succ levels ih =>
    rw [applyLookup_succ, applyLogged]
    cases hlookup : layout.lookup index with
    | error cause => exact .throw _
    | ok lookup =>
      have hwords := hwords hlookup
      obtain ⟨flag, subtables⟩ := lookup
      -- only context lookups invoke others, and only ligature lookups take a number
      cases subtables with
      | context subtables =>
        exact numbers_atCurrent flag fun _ _ => numbers_applyContext ih flag _ _ _
      | chained subtables =>
        exact numbers_atCurrent flag fun _ _ => numbers_applyContext ih flag _ _ _
      | ligature subtables =>
        exact numbers_noting (meets_ligatures chooser (applyLookup chooser layout levels) hwords _)
      | single subtables =>
        exact numbers_within (.ite (takesNone_atCurrent _ (takesNone_applySingle _)) (.pure _))
      | multiple subtables =>
        exact numbers_within (.ite (takesNone_atCurrent _ (takesNone_applyMultiple _)) (.pure _))
      | alternate subtables =>
        exact numbers_within (.ite (takesNone_atCurrent _ (takesNone_applyAlternate _ _)) (.pure _))
      | reverse subtables => exact numbers_within (.pure _)

theorem numbers_forwardPass {apply' : SubstM (σ × List Numbering) Bool} {apply : SubstM σ Bool}
    (h : Numbers apply' apply) (bits : UInt32) (rounds : Nat) :
    Numbers (forwardPass apply' bits rounds) (forwardPass apply bits rounds) := by
  induction rounds with
  | zero => exact .pure _
  | succ rounds ih =>
    refine .get_bind fun s events => ?_
    rw [SubstState.beside_join, SubstState.buffer_logged]
    -- with or without a glyph having been copied, the pass goes on alike
    have hmove : ∀ applied : Bool,
        Numbers (do
            if !applied then copy
            forwardPass apply' bits rounds)
          (do
            if !applied then copy
            forwardPass apply bits rounds) := by
      intro applied
      cases applied with
      | true => exact ih
      | false => exact numbers_copy.bind fun _ => ih
    cases s.buffer.current? with
    | none => exact .pure _
    | some item =>
      dsimp only
      split
      · exact h.bind hmove
      · exact hmove false

theorem numbers_activeLogged (chooser : AlternateChooser σ) {table : ActiveTable Substitution}
    (hwords : ∀ {i lookup}, table.layout.lookup i = .ok lookup → lookup.subtables.WithinWords)
    (active : List (Nat × UInt32)) :
    Numbers (activeLogged chooser table active) (applyActive chooser table active) := by
  induction active with
  | nil => exact .pure _
  | cons entry rest ih =>
    obtain ⟨index, bits⟩ := entry
    refine (Tracks.lift _).bind fun lookup => ?_
    -- lookups of all types but one are applied from the first glyph to the last
    have hforward : Numbers
        (do
          let b := (← get).buffer
          forwardPass (applyLogged chooser table.layout table.nestingLimit index noContext) bits
            (b.size - b.position)
          modifyBuffer GlyphBuffer.swap
          activeLogged chooser table rest)
        (do
          let b := (← get).buffer
          forwardPass (applyLookup chooser table.layout table.nestingLimit index noContext) bits
            (b.size - b.position)
          modifyBuffer GlyphBuffer.swap
          applyActive chooser table rest) := by
      -- between the pass and the other lookups the buffers change places
      refine .get_bind fun s events => ?_
      refine (numbers_forwardPass (numbers_applyLogged chooser hwords _ _ _) _ _).bind fun _ => ?_
      refine Tracks.bind (numbers_of_takesNone ?_ fun _ _ => rfl) fun _ => ih
      exact takesNone_modifyBuffer fun _ => rfl
    obtain ⟨flag, subtables⟩ := lookup
    cases subtables with
    -- the reverse type writes no ligature and is applied in the other direction
    | reverse subtables =>
      refine .get_bind fun s events => ?_
      exact (numbers_within (takesNone_reversePass _ _ _ _)).bind fun _ => ih
    | single => exact hforward
    | multiple => exact hforward
    | alternate => exact hforward
    | ligature => exact hforward
    | context => exact hforward
    | chained => exact hforward

end SubstM

/-- With a list, a text is substituted as it is without, and what is added to the list accounts for
    the numbers that are taken. -/
theorem ActiveTable.substituteLogged_eq {σ : Type} {table : ActiveTable Substitution} {w : Window}
    (hread : LayoutTable.ofWindow w = .ok table.layout) (chooser : AlternateChooser σ)
    (s : SubstState σ) (events : List Numbering) :
    ∃ added, table.substituteLogged chooser (s.logged events) =
        ((table.substitute chooser s).1, (table.substitute chooser s).2.logged (events ++ added)) ∧
      Numbering.Account s.buffer.nextLigature added
        (table.substitute chooser s).2.buffer.nextLigature := by
  have hsame : (s.logged events).buffer = s.buffer := rfl
  unfold substituteLogged substitute
  rw [hsame]
  by_cases hempty : s.buffer.input.isEmpty = true
  -- there is nothing to do in an empty text, and nothing is noted
  case pos =>
    rw [if_pos hempty, if_pos hempty]
    exact ⟨[], by rw [List.append_nil], rfl⟩
  case neg =>
    rw [if_neg hempty, if_neg hempty]
    have hnumbers := SubstM.numbers_activeLogged chooser
      (LayoutTable.subtables_of_ofWindow Substitution.ensures_load hread) table.active
    obtain ⟨_, hrun, added, rfl, haccount⟩ := Program.Tracks.iff_exists.mp hnumbers s events
    exact ⟨added, hrun, haccount⟩

end OpenTypeLayout
