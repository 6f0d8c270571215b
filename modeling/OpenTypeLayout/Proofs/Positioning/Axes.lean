import OpenTypeLayout.Proofs.Positioning.SourceCalls

/-!
# The two axes

What is horizontal in positions comes from what is horizontal in a table and from the horizontal
scale and size. The vertical scale and size have no part in it, and the other way round.

- `Position.AgreeAcross` and `Position.AgreeUpright` say what two positions have in common on one
  axis.
- `ActiveTable.RunsAgree` compares two runs with other parameters.
- `position_axes` changes the parameters of one axis.
-/

namespace OpenTypeLayout

/-! ## §1 One axis -/

/-- Two positions are horizontally the same, and attached to the same glyph. -/
structure Position.AgreeAcross (p p' : Position) : Prop where
  x : p'.x = p.x
  xAdvance : p'.xAdvance = p.xAdvance
  newAdvance : p'.newAdvance = p.newAdvance
  back : p'.back = p.back

/-- Two positions are vertically the same, and attached to the same glyph. -/
structure Position.AgreeUpright (p p' : Position) : Prop where
  y : p'.y = p.y
  yAdvance : p'.yAdvance = p.yAdvance
  newAdvance : p'.newAdvance = p.newAdvance
  back : p'.back = p.back

namespace PosM

theorem congruence_across : Congruence (fun a a' => a'.x = a.x) Position.AgreeAcross where
  refl _ := rfl
  start := ⟨rfl, rfl, rfl, rfl⟩
  addX n h := { h with x := congrArg (· + n) h.x }
  addY _ h := { h with }
  addXAdvance n h := { h with xAdvance := congrArg (· + n) h.xAdvance }
  addYAdvance _ h := { h with }
  joined ha hb h := { h with xAdvance := congrArg₂ (· - ·) ha hb, newAdvance := rfl }
  raised _ _ _ h := { h with }
  attached ha hb h := { h with x := congrArg₂ (· - ·) ha hb, xAdvance := rfl }
  linked _ h := { h with back := rfl }

theorem congruence_upright : Congruence (fun a a' => a'.y = a.y) Position.AgreeUpright where
  refl _ := rfl
  start := ⟨rfl, rfl, rfl, rfl⟩
  addX _ h := { h with }
  addY n h := { h with y := congrArg (· + n) h.y }
  addXAdvance _ h := { h with }
  addYAdvance n h := { h with yAdvance := congrArg (· + n) h.yAdvance }
  joined _ _ h := { h with newAdvance := rfl }
  raised ha hb hq h := { h with y := congrArg₂ (· + ·) (congrArg₂ (· - ·) ha hb) hq.y }
  attached ha hb h := { h with y := congrArg₂ (· - ·) ha hb, yAdvance := rfl }
  linked _ h := { h with back := rfl }

/-- Other vertical parameters do not change horizontal amounts. -/
theorem paramsAgree_across (params : PosParams) (yScale : Int32) (yPpem : UInt16) :
    Coupling.ParamsAgree (fun a a' => a'.x = a.x) Position.AgreeAcross params
      { params with yScale, yPpem } where
  toCongruence := congruence_across
  direction := rfl
  deviceIndependent := rfl
  loadFlags := rfl
  design _ _ := rfl
  pixels x _ ha := congrArg (· + OpenTypeLayout.pixels x params.xPpem) ha
  adjust v h := { h with
    x := congrArg (· + params.xAmount v.xPlacement) h.x
    xAdvance := congrArg (· + params.xAmount v.xAdvance) h.xAdvance }

/-- Other horizontal parameters do not change vertical amounts. -/
theorem paramsAgree_upright (params : PosParams) (xScale : Int32) (xPpem : UInt16) :
    Coupling.ParamsAgree (fun a a' => a'.y = a.y) Position.AgreeUpright params
      { params with xScale, xPpem } where
  toCongruence := congruence_upright
  direction := rfl
  deviceIndependent := rfl
  loadFlags := rfl
  design _ _ := rfl
  pixels _ y ha := congrArg (· + OpenTypeLayout.pixels y params.yPpem) ha
  adjust v h := { h with
    y := congrArg (· + params.yAmount v.yPlacement) h.y
    yAdvance := congrArg (· + params.yAmount v.yAdvance) h.yAdvance }

end PosM

/-! ## §2 Runs with other parameters -/

/-- Two runs that start from the same have the same result, make the same calls to their sources,
    which then keep the same, and leave positions that have something in common. -/
structure ActiveTable.RunsAgree {σ : Type} (positions : Position → Position → Prop)
    (table : ActiveTable Positioning) (c c' : PosContext σ) (before : PosOutcome σ) : Prop where
  result : (table.position c' before).1 = (table.position c before).1
  calls : table.calls c' before = table.calls c before
  kept : (table.position c' before).2.kept = (table.position c before).2.kept
  positions : Pointwise positions (table.position c before).2.positions
    (table.position c' before).2.positions

/-- Only the parameters are different, and they agree. -/
theorem runsAgree_of_paramsAgree {σ : Type} {points : Point → Point → Prop}
    {positions : Position → Position → Prop} (table : ActiveTable Positioning) (c : PosContext σ)
    {params' : PosParams} (hparams : PosM.Coupling.ParamsAgree points positions c.params params')
    {before : PosOutcome σ} (hbefore : Pointwise positions before.positions before.positions) :
    table.RunsAgree positions c { c with params := params' } before := by
  -- what is compared is the runs while their calls are recorded
  let c' : PosContext σ := { c with params := params' }
  let k : PosM.Coupling (σ × List SourceCall) (σ × List SourceCall) := {
    context := c.recording
    context' := c'.recording
    points, positions
    kept := Eq }
  have hk : k.Lawful := .of_agree rfl rfl (fun _ _ => trivial) hparams (.eq c.recording.source)
  have hplaced : k.Placed before.recording before.recording :=
    ⟨.refl fun x _ => .refl _ x, hbefore, rfl, fun _ _ => trivial⟩
  have hrun := hk.position table hplaced
  rw [table.mapAmounts_id] at hrun
  obtain ⟨hresult, hplaced⟩ := hrun
  obtain ⟨hrecorded, hpositions, hkept⟩ := PosM.position_recording table c before
  obtain ⟨hrecorded', hpositions', hkept'⟩ := PosM.position_recording table c' before
  exact {
    result := hrecorded'.symm.trans (hresult.trans hrecorded)
    calls := congrArg Prod.snd hplaced.kept.symm
    kept := hkept'.symm.trans ((congrArg Prod.fst hplaced.kept.symm).trans hkept)
    positions := hpositions ▸ hpositions' ▸ hplaced.positions }

/-- Let the scale and the size on one axis be changed. A run has the same result as before and makes
    the same calls to the source in the same order. On the other axis the positions of all glyphs
    are the same. -/
theorem position_axes {σ : Type} (table : ActiveTable Positioning) (c : PosContext σ)
    (before : PosOutcome σ) :
    (∀ (yScale : Int32) (yPpem : UInt16), table.RunsAgree Position.AgreeAcross c
      { c with params := { c.params with yScale, yPpem } } before) ∧
    ∀ (xScale : Int32) (xPpem : UInt16), table.RunsAgree Position.AgreeUpright c
      { c with params := { c.params with xScale, xPpem } } before := by
  constructor
  · intro yScale yPpem
    exact runsAgree_of_paramsAgree table c (PosM.paramsAgree_across c.params yScale yPpem)
      (.refl fun _ _ => ⟨rfl, rfl, rfl, rfl⟩)
  · intro xScale xPpem
    exact runsAgree_of_paramsAgree table c (PosM.paramsAgree_upright c.params xScale xPpem)
      (.refl fun _ _ => ⟨rfl, rfl, rfl, rfl⟩)

end OpenTypeLayout
