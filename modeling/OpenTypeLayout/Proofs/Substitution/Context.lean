import OpenTypeLayout.Proofs.Invocation
import OpenTypeLayout.Proofs.Places
import OpenTypeLayout.Proofs.Substitution.Ligatures
import OpenTypeLayout.Proofs.Substitution.Lookups

/-!
# Lookups in context

A contextual lookup that finds a rule works through the glyphs of the rule. In every round a lookup
is invoked or a glyph is copied, and either goes past at least one glyph. The main statement,
`Discipline.lawful_applyLookup`, is about lookups of every type, nested to any depth: it goes by
induction on the levels that may still be entered.
-/

namespace OpenTypeLayout

/-! ## §1 Rounds -/

namespace SubstM

variable {σ : Type}

/-- Invoke the lookup of a record, if there is a record. -/
def invokeRecord (invoke : Invoke σ) (places : List Nat) (position : Nat) :
    Option LookupRecord → SubstM σ Bool
  | some r => do invoke r.lookupIndex.toNat (← fit16 (remainingFrom places position))
  | none => return false

/-- Copy the current glyph if nothing has been applied at it. -/
def copyUnless (applied : Bool) : SubstM σ Unit := if applied then pure () else copy

theorem applyRecords_succ (invoke : Invoke σ) (places : List Nat) (last rounds : Nat)
    (records : List LookupRecord) :
    applyRecords invoke places last (rounds + 1) records = (do
      let position := (← get).buffer.position
      if position ≤ last then do
        let found := nextRecord places position records
        invokeRecord invoke places position found.1 >>= copyUnless
        applyRecords invoke places last rounds found.2
      else pure ()) := by
  rw [applyRecords]
  congr 1
  funext s
  dsimp only
  split
  case isFalse => rfl
  case isTrue =>
    -- no record, or one: in both cases the rest is done at the place that has been reached
    cases (nextRecord places s.buffer.position records).1 with
    | none =>
      simp only [invokeRecord, copyUnless, bind_assoc]
      rfl
    | some r =>
      simp only [invokeRecord, copyUnless, bind_assoc]
      congr 1
      funext number
      congr 1
      funext applied
      cases applied <;> simp

/-- One step of a pass: a lookup is applied at the current glyph if it is active there, and if that
    does not do anything the glyph is copied. -/
def passStep (apply : SubstM σ Bool) (bits : UInt32) (item : GlyphItem) : SubstM σ Unit :=
  (if item.isActive bits then apply else pure false) >>= copyUnless

theorem forwardPass_succ (apply : SubstM σ Bool) (bits : UInt32) (rounds : Nat) :
    forwardPass apply bits (rounds + 1) = (do
      match (← get).buffer.current? with
      | none => pure ()
      | some item => do
        passStep apply bits item
        forwardPass apply bits rounds) := by
  rw [forwardPass]
  congr 1
  funext s
  cases s.buffer.current? with
  | none => rfl
  | some item =>
    dsimp only [passStep]
    split
    -- an active glyph is copied unless the lookup has been applied, any other one is copied
    case isTrue =>
      simp only [copyUnless, bind_assoc]
      congr 1
      funext applied
      cases applied <;> simp
    case isFalse =>
      simp only [copyUnless, bind_assoc]
      rfl

end SubstM

namespace Discipline

open SubstM

variable {σ : Type} {D : Discipline} {s : SubstState σ} {item : GlyphItem} {p : GlyphProperty}

/-- A round goes past at least one glyph, whether or not a lookup applies. -/
theorem keeps_round (hlt : s.buffer.position < s.buffer.size) {x : SubstM σ Bool}
    (hx : D.Keeps x s (D.Step s)) :
    D.Keeps (x >>= copyUnless) s fun _ s' => s.buffer.Advance D.free s'.buffer := by
  refine hx.bind fun applied s' h' hstep => ?_
  cases hstep with
  | applied hadvance => exact .pure h' hadvance
  | notApplied hunmoved =>
    have hposition := hunmoved.text.position
    have hlt' : s'.buffer.position < s'.buffer.size := by
      rw [hposition, hunmoved.text.size]
      exact hlt
    refine (keeps_copy h' hlt').mono fun _ s'' _ hcopied => ⟨?_, by omega⟩
    exact (GlyphBuffer.Progress.of_sameText hunmoved.text).trans hcopied.1

theorem lawful_notApplied : D.Lawful (pure false : SubstM σ Bool) :=
  fun s h _ => .pure h (.notApplied (.refl s))

/-- A lookup may be left out under some condition. -/
theorem Lawful.ite {x : SubstM σ Bool} (hx : D.Lawful x) (condition : Bool) :
    D.Lawful (if condition then x else pure false) := by
  cases condition with
  | true => exact hx
  | false => exact lawful_notApplied

/-- A step of a pass goes past at least one glyph, whether or not the lookup is active. -/
theorem keeps_passStep {apply : SubstM σ Bool} (happly : D.Lawful apply) (bits : UInt32)
    (h : D.Holds s) (hcurrent : s.buffer.current? = some item) :
    D.Keeps (passStep apply bits item) s fun _ s' => s.buffer.Advance D.free s'.buffer := by
  have hlt := GlyphBuffer.position_lt_of_current? hcurrent
  exact keeps_round hlt (happly.ite (item.isActive bits) s h hlt)

theorem lawful_invokeRecord {invoke : Invoke σ} {places : List Nat} {position : Nat}
    {record : Option LookupRecord}
    (hinvoke : ∀ r, record = some r → ∀ contextLength,
      D.Lawful (invoke r.lookupIndex.toNat contextLength))
    (hcount : remainingFrom places position ≤ 0xFFFF ∨ D.failure (.parse .badValue)) :
    D.Lawful (invokeRecord invoke places position record) := by
  intro s h hlt
  cases record with
  | none => exact .pure h (.notApplied (.refl s))
  | some r =>
    apply Keeps.lift_bind h
    · intro e he
      obtain ⟨rfl, hbig⟩ := fit16_error he
      exact hcount.resolve_left (by omega)
    · exact fun contextLength _ => hinvoke r rfl contextLength s h hlt

/-! ## §2 Rules -/

/-- Working through a rule ends behind the last of its glyphs. -/
theorem keeps_applyRecords {invoke : Invoke σ} {places : List Nat} {last rounds : Nat}
    {records : List LookupRecord}
    (hinvoke : ∀ r ∈ records, ∀ contextLength, D.Lawful (invoke r.lookupIndex.toNat contextLength))
    (hcount : (∀ index, remainingFrom places index ≤ 0xFFFF) ∨ D.failure (.parse .badValue))
    (h : D.Holds s) (hlast : last < s.buffer.size) (hrounds : last < s.buffer.position + rounds) :
    D.Keeps (applyRecords invoke places last rounds records) s fun _ s' =>
      s.buffer.Progress D.free s'.buffer ∧ last < s'.buffer.position := by
  -- whatever a nested lookup consumes, position and rounds together stay beyond the last glyph
  induction rounds generalizing s records with
  | zero => exact .pure h ⟨.refl _, hrounds⟩
  | succ rounds ih =>
    rw [applyRecords_succ]
    apply Keeps.get_bind
    dsimp only
    split
    case isFalse hpassed => exact .pure h ⟨.refl _, Nat.lt_of_not_le hpassed⟩
    case isTrue hle =>
      obtain ⟨hfirst, hrest⟩ := nextRecord_subset places s.buffer.position records
      have hlt : s.buffer.position < s.buffer.size := Nat.lt_of_le_of_lt hle hlast
      have hlawful := lawful_invokeRecord (fun r hr => hinvoke r (hfirst r hr))
        (hcount.imp_left fun hall => hall s.buffer.position)
      refine (keeps_round hlt (hlawful s h hlt)).bind fun _ s' h' hadvance => ?_
      have hmoved := hadvance.moved
      refine (ih (fun r hr => hinvoke r (hrest r hr)) h' ?_ ?_).mono fun _ s'' _ hs'' =>
        ⟨hadvance.toProgress.trans hs''.1, hs''.2⟩
      · rw [hadvance.size]
        exact hlast
      · omega

theorem keeps_applyRule {invoke : Invoke σ} (flag : LookupFlag) {rule : RuleMatch}
    (hinvoke : ∀ r ∈ rule.records, ∀ contextLength,
      D.Lawful (invoke r.lookupIndex.toNat contextLength))
    (hcount : rule.inputCount - 1 < 0xFFFF ∨ D.failure (.parse .badValue))
    (h : D.Holds s) (hlt : s.buffer.position < s.buffer.size) :
    D.Keeps (applyRule invoke flag rule) s fun _ s' => s.buffer.Advance D.free s'.buffer := by
  unfold applyRule
  apply Keeps.get_bind
  dsimp only
  obtain ⟨last, hget, hle, hlast⟩ := rule.getLast?_places ⟨s.gdef, flag⟩ hlt
  rw [hget, Option.getD_some]
  have hremaining : (∀ index, remainingFrom
      (rule.places ⟨s.gdef, flag⟩ s.buffer.input s.buffer.position) index ≤ 0xFFFF) ∨
        D.failure (.parse .badValue) :=
    hcount.imp_left fun hsmall index =>
      Nat.le_trans (remainingFrom_places_le rule _ _ _ index) hsmall
  refine (keeps_applyRecords hinvoke hremaining h hlast (by omega)).mono fun _ s' _ hs' => ?_
  exact ⟨hs'.1, Nat.lt_of_le_of_lt hle hs'.2⟩

theorem keeps_applyContext {invoke : Invoke σ} (flag : LookupFlag) (contextLength : UInt16)
    (item : GlyphItem) {subtables : List ContextLookup}
    (hinvoke : ∀ c ∈ subtables, ∀ m ∈ c.results, ∀ r ∈ m.records, ∀ contextLength,
      D.Lawful (invoke r.lookupIndex.toNat contextLength))
    (hcount : (∀ c ∈ subtables, ∀ m ∈ c.results, m.inputCount ≤ 0xFFFF) ∨
      D.failure (.parse .badValue))
    (h : D.Holds s) (hlt : s.buffer.position < s.buffer.size) :
    D.Keeps (applyContext invoke flag contextLength item subtables) s (D.Step s) := by
  -- the rules of each subtable are looked through in order
  induction subtables generalizing s with
  | nil => exact .pure h (.notApplied (.refl s))
  | cons subtable rest ih =>
    rw [applyContext]
    apply Keeps.lift_bind h fun e he =>
      D.failure_of_ofParse (fun _ => ContextLookup.candidates_error) he
    intro rules hrules
    apply Keeps.get_bind
    dsimp only
    cases hmatch : firstMatch ⟨s.gdef, flag⟩
      { before := s.buffer.output
        beforeCount := s.buffer.output.size
        items := s.buffer.input
        index := s.buffer.position } rules
      (TextPlace.reach {
        before := s.buffer.output
        beforeCount := s.buffer.output.size
        items := s.buffer.input
        index := s.buffer.position }) with
    | mk found reach =>
      dsimp only
      -- remembering changes no glyph, so what is left to do is done at the same place
      refine (keeps_rememberOutput h _).bind fun _ s₁ h₁ hunmoved₁ => ?_
      refine (keeps_rememberInput h₁ _ _).bind fun _ s₂ h₂ hunmoved₂ => ?_
      have hunmoved := hunmoved₁.trans hunmoved₂
      have hlt₂ : s₂.buffer.position < s₂.buffer.size := by
        rw [hunmoved.text.position, hunmoved.text.size]
        exact hlt
      cases found with
      -- no rule matches, and the next subtable begins at the same place
      | none =>
        refine (ih ?_ ?_ h₂ hlt₂).mono fun applied s' _ hstep => hstep.of_unmoved hunmoved
        · exact fun c hc => hinvoke c (List.mem_cons_of_mem subtable hc)
        · exact hcount.imp_left fun hall c hc => hall c (List.mem_cons_of_mem subtable hc)
      | some rule =>
        -- a rule matches, and its records are handed over one after the other
        obtain ⟨r, hr, rfl⟩ := firstMatch_eq_some hmatch
        have hresult := ContextLookup.candidates_results (LayoutError.ofParse_eq_ok hrules) hr
        have hsmall : r.result.inputCount - 1 < 0xFFFF ∨ D.failure (.parse .badValue) :=
          hcount.imp_left fun hall => by
            have := hall subtable List.mem_cons_self _ hresult
            omega
        refine (keeps_applyRule flag (hinvoke subtable List.mem_cons_self _ hresult) hsmall h₂
          hlt₂).bind fun _ s₃ h₃ hadvance => .pure h₃ ?_
        exact Step.of_unmoved hunmoved (.applied hadvance)

/-! ## §3 Lookups of every type -/

/-- A set of lookups, closed under invoking, to which a discipline can be applied. -/
structure Allows (D : Discipline) (layout : LayoutTable Substitution) (within : Nat → Prop) :
    Prop where
  closed : ∀ {i j}, within i → layout.Invokes i j → within j
  flag : ∀ {i lookup}, within i → layout.lookup i = .ok lookup → D.flag lookup.flag
  counts : ∀ {i lookup}, within i → layout.lookup i = .ok lookup →
    lookup.subtables.WithinWords ∨ D.failure (.parse .badValue)

variable {layout : LayoutTable Substitution} {within : Nat → Prop} {chooser : AlternateChooser σ}

/-- A contextual lookup is lawful if those that its rules invoke are. -/
theorem lawful_context {levels index : Nat} {lookup : Lookup Substitution}
    (hallows : D.Allows layout within) (hindex : within index)
    (hlookup : layout.lookup index = .ok lookup)
    (ih : ∀ {i}, within i → ∀ contextLength,
      D.Lawful (applyLookup chooser layout levels i contextLength))
    {subtables : Array ContextLookup}
    (hresults : lookup.subtables.results = subtables.toList.flatMap ContextLookup.results)
    (contextLength : UInt16) :
    D.Lawful (atCurrent lookup.flag fun item _ =>
      applyContext (applyLookup chooser layout levels) lookup.flag contextLength item
        subtables.toList) := by
  apply lawful_atCurrent (hallows.flag hindex hlookup)
  intro s item p h hcurrent
  refine keeps_applyContext lookup.flag contextLength item ?_ ?_ h hcurrent.position_lt
  -- the rules of the lookup invoke only lookups that are allowed
  · intro c hc m hm r hr
    have hresult : m ∈ lookup.subtables.results :=
      hresults ▸ List.mem_flatMap.mpr ⟨c, hc, hm⟩
    exact ih (hallows.closed hindex ⟨lookup, hlookup, m, hresult, r, hr, rfl⟩)
  -- and they have no more glyphs than words can count
  · refine (hallows.counts hindex hlookup).imp_left fun hwords c hc m hm => ?_
    exact hwords.rules m (hresults ▸ List.mem_flatMap.mpr ⟨c, hc, hm⟩)

/-- Every lookup of the set keeps the discipline, however deeply it may nest others. -/
theorem lawful_applyLookup (hallows : D.Allows layout within) (levels : Nat) {index : Nat}
    (hindex : within index) (contextLength : UInt16) :
    D.Lawful (applyLookup chooser layout levels index contextLength) := by
  -- the levels bound the recursion: a rule invokes lookups with one level less
  induction levels generalizing index contextLength with
  | zero => exact fun s h _ => .throw h D.failure_nested
  | succ levels ih =>
    intro s h hlt
    rw [applyLookup]
    apply Keeps.lift_bind h fun e he => D.failure_of_ofParse (fun _ => LayoutTable.lookup_error) he
    intro lookup hok
    have hlookup := LayoutError.ofParse_eq_ok hok
    have hflag := hallows.flag hindex hlookup
    have hnested : ∀ {i}, within i → ∀ contextLength,
        D.Lawful (applyLookup chooser layout levels i contextLength) := fun hi c => ih hi c
    dsimp only
    cases hkind : lookup.subtables with
    | single subtables =>
      have haction := lawful_atCurrent (σ := σ) hflag fun _ _ _ => keeps_applySingle subtables
      exact haction.ite _ s h hlt
    | multiple subtables =>
      have haction := lawful_atCurrent (σ := σ) hflag fun _ _ _ => keeps_applyMultiple subtables
      exact haction.ite _ s h hlt
    | alternate subtables =>
      have haction := lawful_atCurrent hflag fun _ _ _ => keeps_applyAlternate chooser subtables
      exact haction.ite _ s h hlt
    | ligature subtables =>
      have hcounts : (∀ m ∈ subtables.toList, ∀ ligatures ∈ m.entries, ∀ l ∈ ligatures,
          l.count ≤ 0xFFFF) ∨ D.failure (.parse .badValue) := by
        refine (hallows.counts hindex hlookup).imp_left fun hwords m hm => ?_
        rw [hkind, Substitution.withinWords_ligature] at hwords
        exact hwords m (Array.mem_toList_iff.mp hm)
      have haction := lawful_atCurrent (σ := σ) hflag fun _ _ _ =>
        keeps_applyLigature hflag contextLength hcounts
      exact haction.ite _ s h hlt
    | context subtables | chained subtables =>
      have hresults : lookup.subtables.results =
          subtables.toList.flatMap ContextLookup.results := by rw [hkind, Substitution.results]
      exact lawful_context hallows hindex hlookup hnested hresults contextLength s h hlt
    -- a reverse lookup that is invoked does nothing
    | reverse => exact lawful_notApplied s h hlt

end Discipline

end OpenTypeLayout
