import OpenTypeLayout.Proofs.Positioning.Contract
import OpenTypeLayout.Proofs.Substitution.Contract
import OpenTypeLayout.Proofs.Substitution.Parts

/-!
# The nesting limit

How deeply lookups may be nested is limited so that every table comes to an end, also one in which
lookups invoke themselves. The limit never makes a difference to a run that it does not cut off.

What is proved of single programs is that a program with more levels left extends one with less. It
goes by induction on the levels: the subtables of a lookup pass the comparison on from the lookups
that they invoke. Loops pass it on as well.
-/

namespace OpenTypeLayout

open Program (Extends)

/-! ## §1 Substituting -/

namespace SubstM

variable {σ : Type} {invoke invoke' : Invoke σ}

theorem extends_invokeRecord (h : ∀ index n, Extends (invoke index n) (invoke' index n))
    (places : List Nat) (position : Nat) (record : Option LookupRecord) :
    Extends (invokeRecord invoke places position record)
      (invokeRecord invoke' places position record) := by
  cases record with
  | none => exact .refl _
  | some r => exact .after fun n => h r.lookupIndex.toNat n

theorem extends_applyRecords (h : ∀ index n, Extends (invoke index n) (invoke' index n))
    (places : List Nat) (last rounds : Nat) (records : List LookupRecord) :
    Extends (applyRecords invoke places last rounds records)
      (applyRecords invoke' places last rounds records) := by
  induction rounds generalizing records with
  | zero => exact .refl _
  | succ rounds ih =>
    rw [applyRecords_succ, applyRecords_succ]
    refine .after fun s => .ite ?_ (.refl _)
    refine .bind ?_ fun _ => ih _
    exact (extends_invokeRecord h places _ _).bind fun applied => .refl (copyUnless applied)

theorem extends_applyRule (h : ∀ index n, Extends (invoke index n) (invoke' index n))
    (flag : LookupFlag) (rule : RuleMatch) :
    Extends (applyRule invoke flag rule) (applyRule invoke' flag rule) :=
  .after fun _ => extends_applyRecords h _ _ _ rule.records

theorem extends_applyContext (h : ∀ index n, Extends (invoke index n) (invoke' index n))
    (flag : LookupFlag) (contextLength : UInt16) (item : GlyphItem)
    (subtables : List ContextLookup) :
    Extends (applyContext invoke flag contextLength item subtables)
      (applyContext invoke' flag contextLength item subtables) := by
  induction subtables with
  | nil => exact .refl _
  | cons subtable rest ih =>
    rw [applyContext_cons, applyContext_cons]
    refine .after fun rules => .after fun found => ?_
    cases found with
    | none => exact ih
    | some rule => exact (extends_applyRule h flag rule).bind fun _ => .refl _

theorem extends_atCurrent {action action' : GlyphItem → GlyphProperty → SubstM σ Bool}
    (flag : LookupFlag) (h : ∀ item p, Extends (action item p) (action' item p)) :
    Extends (atCurrent flag action) (atCurrent flag action') := by
  refine .after fun found => ?_
  cases found with
  | none => exact .refl _
  | some found => exact h found.1 found.2

theorem extends_applySubtables (chooser : AlternateChooser σ)
    (h : ∀ index n, Extends (invoke index n) (invoke' index n)) (lookup : Lookup Substitution)
    (contextLength : UInt16) :
    Extends (applySubtables chooser invoke lookup contextLength)
      (applySubtables chooser invoke' lookup contextLength) := by
  unfold applySubtables
  cases lookup.subtables with
  -- only rules invoke other lookups
  | context subtables | chained subtables =>
    exact extends_atCurrent _ fun item _ => extends_applyContext h _ contextLength item _
  | _ => exact .refl _

/-- With more levels left, a lookup does the same wherever it is not cut off. -/
theorem extends_applyLookup (chooser : AlternateChooser σ) (layout : LayoutTable Substitution)
    {n m : Nat} (hle : n ≤ m) (index : Nat) (contextLength : UInt16) :
    Extends (applyLookup chooser layout n index contextLength)
      (applyLookup chooser layout m index contextLength) := by
  induction n generalizing m index contextLength with
  | zero => exact .cutOff _
  | succ n ih =>
    obtain ⟨m, rfl⟩ := Nat.exists_eq_add_of_lt hle
    rw [applyLookup_succ, applyLookup_succ]
    refine .after fun lookup => ?_
    exact extends_applySubtables chooser (fun index n => ih (by omega) index n) lookup contextLength

theorem extends_forwardPass {apply apply' : SubstM σ Bool} (h : Extends apply apply')
    (bits : UInt32) (rounds : Nat) :
    Extends (forwardPass apply bits rounds) (forwardPass apply' bits rounds) := by
  induction rounds with
  | zero => exact .refl _
  | succ rounds ih =>
    rw [forwardPass_succ, forwardPass_succ]
    refine .after fun s => ?_
    cases s.buffer.current? with
    | none => exact .refl _
    | some item => exact (Extends.bind (.ite h (.refl _)) fun _ => .refl _).bind fun _ => ih

theorem extends_applyActive (chooser : AlternateChooser σ) (table : ActiveTable Substitution)
    {n m : Nat} (hle : n ≤ m) (active : List (Nat × UInt32)) :
    Extends (applyActive chooser (table.withNestingLimit n) active)
      (applyActive chooser (table.withNestingLimit m) active) := by
  induction active with
  | nil => exact .refl _
  | cons first rest ih =>
    obtain ⟨index, bits⟩ := first
    rw [applyActive_cons, applyActive_cons]
    refine .bind ?_ fun _ => ih
    rw [pass_eq, pass_eq]
    refine .after fun lookup => ?_
    unfold passOf
    cases lookup.subtables with
    -- a reverse lookup invokes nothing, so no levels are taken
    | reverse => exact .refl _
    | _ =>
      refine .after fun s => .bind ?_ fun _ => .refl _
      exact extends_forwardPass
        (extends_applyLookup chooser table.layout hle index noContext) bits _

end SubstM

/-! ## §2 Positioning -/

namespace PosM

variable {σ : Type} {c : PosContext σ} {invoke invoke' : Invoke σ}

theorem extends_invokeRecord (h : ∀ l index n, Extends (invoke l index n) (invoke' l index n))
    (places : List Nat) (index : Nat) (record : Option LookupRecord) :
    Extends (invokeRecord invoke places index record)
      (invokeRecord invoke' places index record) := by
  cases record with
  | none => exact .refl _
  | some r => exact .after fun n => h r.lookupIndex.toNat index n

theorem extends_applyRecords (h : ∀ l index n, Extends (invoke l index n) (invoke' l index n))
    (places : List Nat) (last rounds index : Nat) (records : List LookupRecord) :
    Extends (applyRecords invoke places last rounds index records)
      (applyRecords invoke' places last rounds index records) := by
  induction rounds generalizing index records with
  | zero => exact .refl _
  | succ rounds ih =>
    rw [applyRecords_succ, applyRecords_succ]
    exact .ite ((extends_invokeRecord h places index _).bind fun _ => ih _ _) (.refl _)

theorem extends_applyContext (h : ∀ l index n, Extends (invoke l index n) (invoke' l index n))
    (flag : LookupFlag) (contextLength : UInt16) (index : Nat) (item : GlyphItem)
    (subtables : List ContextLookup) :
    Extends (applyContext c invoke flag contextLength index item subtables)
      (applyContext c invoke' flag contextLength index item subtables) := by
  induction subtables with
  | nil => exact .refl _
  | cons subtable rest ih =>
    rw [applyContext_cons, applyContext_cons]
    refine .after fun rules => .after fun found => ?_
    cases found with
    | none => exact ih
    | some rule =>
      have hrule : Extends (applyRule c invoke flag rule index)
          (applyRule c invoke' flag rule index) :=
        .after fun s => extends_applyRecords h _ _ _ index rule.records
      exact hrule.bind fun _ => .refl _

theorem extends_atGlyph {action action' : GlyphItem → GlyphProperty → PosM σ (Option Nat)}
    (flag : LookupFlag) (index : Nat) (h : ∀ item p, Extends (action item p) (action' item p)) :
    Extends (atGlyph c flag index action) (atGlyph c flag index action') := by
  refine .after fun s => ?_
  cases s.glyphs[index]? with
  | none => exact .refl _
  | some item =>
    refine .after fun _ => ?_
    cases Gdef.check c.gdef flag item with
    | none => exact .refl _
    | some p => exact h item p

theorem extends_applySubtables (h : ∀ l index n, Extends (invoke l index n) (invoke' l index n))
    (lookup : Lookup Positioning) (index : Nat) (contextLength : UInt16) :
    Extends (applySubtables c invoke lookup index contextLength)
      (applySubtables c invoke' lookup index contextLength) := by
  unfold applySubtables
  cases lookup.subtables with
  | context subtables | chained subtables =>
    exact extends_atGlyph _ index fun item _ =>
      extends_applyContext h _ contextLength index item _
  | _ => exact .refl _

/-- With more levels left, a lookup does the same wherever it is not cut off. -/
theorem extends_applyLookup (layout : LayoutTable Positioning) {n m : Nat} (hle : n ≤ m)
    (lookupIndex index : Nat) (contextLength : UInt16) :
    Extends (applyLookup c layout n lookupIndex index contextLength)
      (applyLookup c layout m lookupIndex index contextLength) := by
  induction n generalizing m lookupIndex index contextLength with
  | zero => exact .cutOff _
  | succ n ih =>
    obtain ⟨m, rfl⟩ := Nat.exists_eq_add_of_lt hle
    rw [applyLookup_succ, applyLookup_succ]
    refine .after fun lookup => ?_
    exact extends_applySubtables (fun l index n => ih (by omega) l index n) lookup index _

theorem extends_pass {apply apply' : Nat → PosM σ (Option Nat)}
    (h : ∀ index, Extends (apply index) (apply' index)) (bits : UInt32) (rounds index : Nat) :
    Extends (pass apply bits rounds index) (pass apply' bits rounds index) := by
  induction rounds generalizing index with
  | zero => exact .refl _
  | succ rounds ih =>
    rw [pass_succ, pass_succ]
    refine .after fun s => ?_
    cases s.glyphs[index]? with
    | none => exact .refl _
    | some item =>
      refine .bind ?_ fun next => ih next
      exact .ite ((h index).bind fun _ => .refl _) (.refl _)

theorem extends_applyActive (table : ActiveTable Positioning) {n m : Nat} (hle : n ≤ m)
    (active : List (Nat × UInt32)) :
    Extends (applyActive c (table.withNestingLimit n) active)
      (applyActive c (table.withNestingLimit m) active) := by
  induction active with
  | nil => exact .refl _
  | cons first rest ih =>
    obtain ⟨lookupIndex, bits⟩ := first
    rw [applyActive_cons, applyActive_cons]
    refine .bind (.after fun _ => .after fun s => ?_) fun _ => ih
    exact extends_pass
      (fun index => extends_applyLookup table.layout hle lookupIndex index _) bits _ 0

end PosM

/-! ## §3 Whole runs -/

/-- Let the nesting limit be raised. If a run was not cut off by the lower limit, then with the
    higher one it has the same result and leaves the same state: in substituting the buffer with the
    number of the next ligature, the classes of glyphs and what the chooser keeps; in positioning
    the positions, what is known of the glyphs, and what the source keeps. -/
theorem nestingLimit_cutsOff {σ τ : Type} {n m : Nat} (hle : n ≤ m) :
    (∀ (chooser : AlternateChooser σ) (table : ActiveTable Substitution) (s : SubstState σ),
      ((table.withNestingLimit n).substitute chooser s).1 ≠ .error .tooManyNestedContexts →
        (table.withNestingLimit m).substitute chooser s =
          (table.withNestingLimit n).substitute chooser s) ∧
    ∀ (c : PosContext τ) (table : ActiveTable Positioning) (before : PosOutcome τ),
      ((table.withNestingLimit n).position c before).1 ≠ .error .tooManyNestedContexts →
        (table.withNestingLimit m).position c before =
          (table.withNestingLimit n).position c before := by
  constructor
  · intro chooser table s hrun
    -- without a text there is no run; else both runs go through the same lookups
    cases hempty : s.buffer.input.isEmpty with
    | true => simp [ActiveTable.substitute, hempty]
    | false =>
      rw [SubstM.substitute_eq_outcome chooser _ hempty] at hrun ⊢
      rw [SubstM.substitute_eq_outcome chooser _ hempty]
      exact SubstM.extends_applyActive chooser table hle table.active s hrun
  · intro c table before hrun
    cases hempty : before.glyphs.isEmpty with
    | true => simp [ActiveTable.position, hempty]
    | false =>
      rw [PosM.position_eq c _ hempty] at hrun ⊢
      rw [PosM.position_eq c _ hempty]
      have hextends := PosM.extends_applyActive (c := c) table hle table.active _ hrun
      dsimp only
      rw [show (table.withNestingLimit m).active = table.active from rfl, hextends]
      rfl

/-- Two levels are enough for lookups that invoke lookups that do not invoke any, and more levels
    make no difference. -/
theorem nestingLimit_cutsOff_pairs :
    (MarkedPair.table.withNestingLimit 100).substitute AlternateChooser.first MarkedPair.start =
        (MarkedPair.table.withNestingLimit 2).substitute AlternateChooser.first MarkedPair.start ∧
      (JoinedPair.table.withNestingLimit 100).position JoinedPair.context JoinedPair.before =
        (JoinedPair.table.withNestingLimit 2).position JoinedPair.context JoinedPair.before := by
  have hsubstitute : ((MarkedPair.table.withNestingLimit 2).substitute AlternateChooser.first
      MarkedPair.start).1 = .ok () := by decide +kernel
  have hposition : ((JoinedPair.table.withNestingLimit 2).position JoinedPair.context
      JoinedPair.before).1 = .ok () := by decide +kernel
  obtain ⟨hsubstitutes, hpositions⟩ := nestingLimit_cutsOff (show 2 ≤ 100 by decide)
  refine ⟨hsubstitutes _ _ _ ?_, hpositions _ _ _ ?_⟩
  · rw [hsubstitute]
    exact nofun
  · rw [hposition]
    exact nofun

end OpenTypeLayout
