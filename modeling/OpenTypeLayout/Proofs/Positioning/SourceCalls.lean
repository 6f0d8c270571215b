import OpenTypeLayout.Proofs.Positioning.Coupling
import OpenTypeLayout.Proofs.Positioning.Recording

/-!
# Calls to the source

Positioning asks a source for outlines and for metrics. Which calls it makes, and in which order, is
found out by giving it a source that keeps a list of them. Positioning does not notice this.

- `PosContext.recording` has a source that keeps a list of its calls.
- `ActiveTable.calls` are the calls that a run makes.
-/

namespace OpenTypeLayout

variable {σ : Type}

/-- Whether an outline is asked for. -/
def SourceCall.isContour : SourceCall → Bool
  | .contour .. => true
  | .metric _ => false

/-- Position with a source that keeps a list of the calls, the first one first. -/
def PosContext.recording (c : PosContext σ) : PosContext (σ × List SourceCall) :=
  c.noting fun call calls => calls ++ [call]

/-- A text for which no call has been made yet. -/
def PosOutcome.recording (before : PosOutcome σ) : PosOutcome (σ × List SourceCall) where
  glyphs := before.glyphs
  positions := before.positions
  kept := (before.kept, [])

/-- The calls that a run makes to its source, in order. -/
def ActiveTable.calls (table : ActiveTable Positioning) (c : PosContext σ) (before : PosOutcome σ) :
    List SourceCall :=
  (table.position c.recording before.recording).2.kept.2

namespace PosM

theorem sourcesAgree_noting (source : PosSource σ) {R : Type} (note : SourceCall → R → R) :
    Coupling.SourcesAgree (fun kept kept' => kept'.1 = kept) source (source.noting note) where
  metric _ h := h ▸ ⟨rfl, rfl⟩
  contour _ _ h := h ▸ ⟨rfl, rfl⟩

/-- A run does the same whether or not its calls are recorded. -/
theorem position_recording (table : ActiveTable Positioning) (c : PosContext σ)
    (before : PosOutcome σ) :
    let run := table.position c before
    let recorded := table.position c.recording before.recording
    recorded.1 = run.1 ∧ recorded.2.positions = run.2.positions ∧
    recorded.2.kept.1 = run.2.kept := by
  let k : Coupling σ (σ × List SourceCall) := {
    context := c
    context' := c.recording
    kept := fun kept kept' => kept'.1 = kept }
  have hk : k.Lawful := .of_agree rfl rfl (fun _ _ => trivial) (.eq c.params)
    (sourcesAgree_noting c.source fun call calls => calls ++ [call])
  have hbefore : k.Placed before before.recording :=
    ⟨.refl fun x _ => .refl _ x, .refl fun _ _ => rfl, rfl, fun _ _ => trivial⟩
  have hrun := hk.position table hbefore
  rw [table.mapAmounts_id] at hrun
  exact ⟨hrun.1, hrun.2.positions.eq, hrun.2.kept⟩

end PosM

end OpenTypeLayout
