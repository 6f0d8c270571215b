import OpenTypeLayout.Proofs.Positioning.Contract
import OpenTypeLayout.Proofs.Positioning.SourceCalls

/-!
# Positioning that does not depend on the device

If parameters say that positioning does not depend on the device, then it uses neither device tables
nor outlines, and not the size in pixels.

- `ActiveTable.withoutDevices` leaves device tables and points of outlines out of a table.
- `position_deviceIndependent` changes all that has to do with the device at once.
-/

namespace OpenTypeLayout

/-! ## §1 Tables without devices -/

/-- An anchor at its place in design units. -/
def Anchor.withoutDevice : Anchor → Anchor
  | .design x y | .contour x y _ | .adjusted x y _ _ => .design x y
  | .metric x y => .metric x y

/-- An amount that is not adjusted for the size. -/
def ValueAmount.withoutDevice (a : ValueAmount) : ValueAmount := { a with device := none }

/-- A value record that is not adjusted for the size. -/
def ValueRecord.withoutDevices (v : ValueRecord) : ValueRecord where
  xPlacement := v.xPlacement.withoutDevice
  yPlacement := v.yPlacement.withoutDevice
  xAdvance := v.xAdvance.withoutDevice
  yAdvance := v.yAdvance.withoutDevice

/-- A table without device tables, and without points of outlines. -/
def ActiveTable.withoutDevices (table : ActiveTable Positioning) : ActiveTable Positioning :=
  table.mapAmounts ValueRecord.withoutDevices Anchor.withoutDevice

/-! ## §2 Without devices and with them -/

variable {σ : Type}

/-- Both ways of positioning do not depend on the device, and in all else they are the same. -/
structure PosContext.SameApartFromDevice (c c' : PosContext σ) : Prop where
  gdef : c'.gdef = c.gdef
  independent : c.params.deviceIndependent = true
  independent' : c'.params.deviceIndependent = true
  xScale : c'.params.xScale = c.params.xScale
  yScale : c'.params.yScale = c.params.yScale
  direction : c'.params.rightToLeft = c.params.rightToLeft
  metric : c'.source.metric = c.source.metric

namespace PosContext.SameApartFromDevice

variable {c c' : PosContext σ}

theorem design (h : c.SameApartFromDevice c') (x y : Int16) :
    c'.params.design x y = c.params.design x y := by
  rw [PosParams.design, PosParams.design, h.xScale, h.yScale]

theorem xAmount (h : c.SameApartFromDevice c') (a : ValueAmount) :
    c'.params.xAmount a.withoutDevice = c.params.xAmount a := by
  rw [PosParams.xAmount, PosParams.xAmount, h.independent, h.independent', h.xScale]
  rfl

theorem yAmount (h : c.SameApartFromDevice c') (a : ValueAmount) :
    c'.params.yAmount a.withoutDevice = c.params.yAmount a := by
  rw [PosParams.yAmount, PosParams.yAmount, h.independent, h.independent', h.yScale]
  rfl

theorem adjust (h : c.SameApartFromDevice c') (v : ValueRecord) (p : Position) :
    c'.params.adjust v.withoutDevices p = c.params.adjust v p := by
  simp only [PosParams.adjust, ValueRecord.withoutDevices, h.xAmount, h.yAmount]

theorem recording (h : c.SameApartFromDevice c') :
    c.recording.SameApartFromDevice c'.recording where
  gdef := h.gdef
  independent := h.independent
  independent' := h.independent'
  xScale := h.xScale
  yScale := h.yScale
  direction := h.direction
  metric := by
    funext kept id
    simp only [PosContext.recording, PosContext.noting, PosSource.noting, h.metric]

end PosContext.SameApartFromDevice

namespace PosM

/-- A table and the one without devices, each used its own way. What is kept is the same, and
    metrics keep up what is said of it. -/
def withoutDevices (c c' : PosContext σ) (holds : σ → Prop) : Coupling σ σ where
  context := c
  context' := c'
  value := ValueRecord.withoutDevices
  anchor := Anchor.withoutDevice
  kept := fun kept kept' => kept' = kept ∧ holds kept

theorem lawful_withoutDevices {c c' : PosContext σ} (h : c.SameApartFromDevice c')
    {holds : σ → Prop} (hholds : ∀ kept id, holds kept → holds (c.source.metric kept id).2) :
    (withoutDevices c c' holds).Lawful := by
  have hmetric : ∀ id, Program.Relates (withoutDevices c c' holds).Coupled Eq (metric c id)
      (metric c' id) := by
    -- metrics are asked of the same provider on both sides
    refine Coupling.relates_metric (k := withoutDevices c c' holds) ?_
    rintro kept _ id ⟨rfl, hkept⟩
    exact ⟨by rw [withoutDevices, h.metric], by rw [withoutDevices, h.metric], hholds _ _ hkept⟩
  refine ⟨.eq, fun _ _ => trivial, h.direction, ?_, ?_⟩
  · intro v index
    refine Coupling.relates_adjust (k := withoutDevices c c' holds) .eq hmetric ?_ ?_ index
    · exact ⟨rfl, rfl, rfl, rfl⟩
    · rintro p _ rfl
      exact (h.adjust v p).symm
  · intro a glyph
    have hdesign : ∀ x y, c.params.design x y = c'.params.design x y := fun x y =>
      (h.design x y).symm
    -- outlines and device tables are not asked for where positions do not depend on the device
    cases a with
    | design x y => exact .pure (hdesign x y)
    | contour x y point | adjusted x y xDevice yDevice =>
      unfold PosM.anchorPoint
      rw [show (withoutDevices c c' holds).context.params.deviceIndependent = true
        from h.independent]
      exact .pure (hdesign x y)
    | metric x y =>
      exact Coupling.relates_metricAnchor (k := withoutDevices c c' holds) .eq hmetric x y glyph

/-- A table without devices does the same, and what holds of what is kept goes on to hold. -/
theorem position_withoutDevices {c c' : PosContext σ} (h : c.SameApartFromDevice c')
    (holds : σ → Prop) (hholds : ∀ kept id, holds kept → holds (c.source.metric kept id).2)
    (table : ActiveTable Positioning) {before : PosOutcome σ} (hbefore : holds before.kept) :
    let run := table.position c before
    let run' := table.withoutDevices.position c' before
    run'.1 = run.1 ∧ run'.2.positions = run.2.positions ∧ run'.2.kept = run.2.kept ∧
      holds run.2.kept := by
  have hglyphs : TextsAlike c.gdef c'.gdef before.glyphs before.glyphs :=
    h.gdef ▸ .refl fun x _ => .refl _ x
  have hplaced : (withoutDevices c c' holds).Placed before before :=
    ⟨hglyphs, .refl fun _ _ => rfl, ⟨rfl, hbefore⟩, fun _ _ => trivial⟩
  have hrun := (lawful_withoutDevices h hholds).position table hplaced
  exact ⟨hrun.1, hrun.2.positions.eq, hrun.2.kept⟩

end PosM

/-! ## §3 Runs -/

/-- No outline has been asked for. -/
def NoOutlines (kept : σ × List SourceCall) : Prop := ∀ call ∈ kept.2, call.isContour = false

theorem noOutlines_recording (before : PosOutcome σ) : NoOutlines before.recording.kept := nofun

theorem noOutlines_metric {source : PosSource σ} (kept : σ × List SourceCall) (id : UInt16)
    (h : NoOutlines kept) :
    NoOutlines ((source.noting fun call calls => calls ++ [call]).metric kept id).2 := by
  intro call hcall
  rcases List.mem_append.mp hcall with hcall | hcall
  · exact h call hcall
  · rw [List.mem_singleton.mp hcall]
    rfl

/-- Let positioning not depend on the device. Then the sizes in pixels may be changed, and what the
    source of outlines is told, the outlines, the device tables in the table and the points of its
    anchors: the result is the same, and so are the positions and what the source keeps. The calls
    to the source are the same, and none of them asks for an outline. -/
theorem position_deviceIndependent {table table' : ActiveTable Positioning}
    (htable : table'.withoutDevices = table.withoutDevices) (c : PosContext σ)
    (hc : c.params.deviceIndependent = true) (before : PosOutcome σ) (xPpem yPpem : UInt16)
    (loadFlags : UInt32)
    (contour : σ → GlyphId → UInt32 → Except LayoutError (Array Point) × σ) :
    let c' : PosContext σ := { c with
      params := { c.params with xPpem, yPpem, loadFlags }
      source := { c.source with contour } }
    let run := table.position c before
    let run' := table'.position c' before
    run'.1 = run.1 ∧ run'.2.positions = run.2.positions ∧ run'.2.kept = run.2.kept ∧
      table'.calls c' before = table.calls c before ∧
      ∀ call ∈ table.calls c before, call.isContour = false := by
  intro c' run run'
  have hself : c.SameApartFromDevice c := ⟨rfl, hc, hc, rfl, rfl, rfl, rfl⟩
  have hother : c'.SameApartFromDevice c := ⟨rfl, hc, hc, rfl, rfl, rfl, rfl⟩
  -- both tables are compared with the one that both of them become without devices
  obtain ⟨hresult, hpositions, hkept, houtlines⟩ := PosM.position_withoutDevices hself.recording
    NoOutlines noOutlines_metric table (noOutlines_recording before)
  obtain ⟨hresult', hpositions', hkept', -⟩ := PosM.position_withoutDevices hother.recording
    NoOutlines noOutlines_metric table' (noOutlines_recording before)
  rw [htable] at hresult' hpositions' hkept'
  obtain ⟨hrun, hrunPositions, hrunKept⟩ := PosM.position_recording table c before
  obtain ⟨hrun', hrunPositions', hrunKept'⟩ := PosM.position_recording table' c' before
  have hsame := hkept'.symm.trans hkept
  refine ⟨?_, ?_, ?_, congrArg Prod.snd hsame, houtlines⟩
  · exact hrun'.symm.trans ((hresult'.symm.trans hresult).trans hrun)
  · exact hrunPositions'.symm.trans ((hpositions'.symm.trans hpositions).trans hrunPositions)
  · exact hrunKept'.symm.trans ((congrArg Prod.fst hsame).trans hrunKept)

/-! A font that moves the glyph 1, and joins the glyph 2 to it where their outlines and device
tables say. -/

namespace HintedPair

def hint (delta : UInt16) : Option Device := some ⟨12, 12, .bits8, #[delta]⟩

def layout (delta point : UInt16) : LayoutTable Positioning where
  scripts := #[]
  features := #[]
  lookups := #[
    { flag := ⟨0⟩
      subtables := .single #[.all (.glyphs #[1]) { yPlacement := ⟨some 30, hint delta, none⟩ }] },
    { flag := ⟨0⟩
      subtables := .cursive #[⟨.glyphs #[1, 2],
        #[⟨none, some (.contour 500 0 point)⟩,
        ⟨some (.adjusted 20 10 (hint delta) none), none⟩]⟩] }]

def table (delta point : UInt16) : ActiveTable Positioning where
  layout := layout delta point
  bits := #[1, 1]

def context : PosContext Unit where
  gdef := none
  params := {}
  source := { contour := PosSource.noOutlines, metric := PosSource.noMetrics }

def before : PosOutcome Unit where
  glyphs := #[
    { glyph := 1, activation := 1, cluster := 0 }, { glyph := 2, activation := 1, cluster := 1 }]
  positions := #[]
  kept := ()

end HintedPair

open HintedPair in
/-- Other hints, another point of the outline, another size and a source without any outline make no
    difference. -/
theorem position_deviceIndependent_hintedPair :
    (table 0x0300 7).withoutDevices = (table 0x0200 4).withoutDevices ∧
      context.params.deviceIndependent = true ∧
      ((table 0x0200 4).position context before).2.positions =
        #[{ y := 30, xAdvance := 480, newAdvance := true }, { y := 20 }] ∧
      ((table 0x0300 7).position { context with
        params := { context.params with xPpem := 12, yPpem := 12, loadFlags := 1 }
        source := { context.source with
          contour := fun kept _ _ => (.error .invalidArgument, kept) } } before).2.positions =
        #[{ y := 30, xAdvance := 480, newAdvance := true }, { y := 20 }] := by
  have htable : (table 0x0300 7).withoutDevices = (table 0x0200 4).withoutDevices := by
    decide +kernel
  have hpositions : ((table 0x0200 4).position context before).2.positions =
      #[{ y := 30, xAdvance := 480, newAdvance := true }, { y := 20 }] := by decide +kernel
  have hsame := position_deviceIndependent htable context rfl before 12 12 1
    fun kept _ _ => (.error .invalidArgument, kept)
  exact ⟨htable, rfl, hpositions, hsame.2.1.trans hpositions⟩

end OpenTypeLayout
