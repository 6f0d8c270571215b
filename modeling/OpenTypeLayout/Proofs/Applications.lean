import OpenTypeLayout.Proofs.Caching
import OpenTypeLayout.Proofs.Positioning.Contract
import OpenTypeLayout.Proofs.Positioning.Coupling
import OpenTypeLayout.Proofs.Substitution.Contract
import OpenTypeLayout.Proofs.Substitution.Coupling

/-!
# Texts to which tables are applied

Tables are applied to one text one after the other: substitutions, positionings, and substitutions
again. What one of them has found out about the glyphs is there for those that come after it.

- `Application` is one of these steps, and `TextState.runAll` makes several of them.
- `runAll_afresh` says that it makes no difference whether properties are kept in between.
-/

namespace OpenTypeLayout

variable {σ τ : Type}

/-! ## §1 Texts -/

/-- A text with its positions, and what the chooser of alternates and the source of outlines and
    metrics keep. -/
structure TextState (σ τ : Type) where
  /-- The text with the glyph definitions, and what the chooser keeps. -/
  text : SubstState σ
  /-- The positions of the glyphs. -/
  positions : Array Position
  /-- What the source keeps. -/
  kept : τ

/-- A table and what it is applied with. -/
inductive Application (σ τ : Type) where
  /-- Substitute with a chooser of alternates. -/
  | substitute (table : ActiveTable Substitution) (chooser : AlternateChooser σ)
  /-- Position with parameters and a source. -/
  | position (table : ActiveTable Positioning) (params : PosParams) (source : PosSource τ)

namespace TextState

/-- Apply a table to a text. What is positioned is the input. -/
def run (s : TextState σ τ) : Application σ τ → Except LayoutError Unit × TextState σ τ
  | .substitute table chooser =>
    let (result, text) := table.substitute chooser s.text
    (result, { s with text })
  | .position table params source =>
    let (result, after) := table.position ⟨s.text.gdef, params, source⟩
      ⟨s.text.buffer.input, s.positions, s.kept⟩
    (result, {
      text := { s.text with buffer := { s.text.buffer with input := after.glyphs } }
      positions := after.positions
      kept := after.kept })

/-- Apply tables one after the other. If one of them fails, the next one is applied to what it has
    left. -/
def runAll (s : TextState σ τ) : List (Application σ τ) →
    List (Except LayoutError Unit) × TextState σ τ
  | [] => ([], s)
  | application :: rest =>
    let (result, s') := s.run application
    let (results, s'') := s'.runAll rest
    (result :: results, s'')

/-- The text with other glyph definitions. -/
def withGdef (s : TextState σ τ) (gdef : Option Gdef) : TextState σ τ :=
  { s with text := { s.text with gdef } }

/-- All that is known of glyphs is what a table says of them. -/
structure Confirmed (g : Gdef) (s : TextState σ τ) : Prop where
  gdef : s.text.gdef = some g
  input : ∀ x ∈ s.text.buffer.input, g.Confirms x
  output : ∀ x ∈ s.text.buffer.output, g.Confirms x

/-- The texts are the same apart from what is known of their glyphs, and all the rest is
    the same. -/
structure SameText (s t : TextState σ τ) : Prop where
  text : s.text.buffer.SameText t.text.buffer
  chosen : t.text.kept = s.text.kept
  positions : t.positions = s.positions
  kept : t.kept = s.kept

end TextState

/-! ## §2 Properties that are looked up again -/

/-- Substituting with properties kept, and with each of them looked up again. -/
def SubstM.keepingOrAfresh (g : Gdef) : SubstM.Coupling where
  table := some g
  table' := some g.afresh
  items := g.KnownRightly

theorem SubstM.lawful_keepingOrAfresh {g : Gdef} (hg : g.synthesized = none) :
    (keepingOrAfresh g).Lawful where
  alike := Gdef.KnownRightly.alike
  rememberLeft _ _ := Gdef.KnownRightly.remember
  rememberRight _ _ h := h
  unknown _ hx := ⟨rfl, Gdef.confirms_of_unknown hx⟩
  unrecorded := by
    rintro _ ⟨⟩
    rw [Gdef.recordsClasses, hg, Option.isSome_none]
  unrecorded' := by
    rintro _ ⟨⟩
    rw [Gdef.recordsClasses, show g.afresh.synthesized = none from hg, Option.isSome_none]

namespace TextState

/-- The states of two runs. In the second one every property is looked up again. -/
structure Afresh (g : Gdef) (s t : TextState σ τ) : Prop where
  text : (SubstM.keepingOrAfresh g).Coupled s.text t.text
  positions : t.positions = s.positions
  kept : t.kept = s.kept

namespace Afresh

variable {g : Gdef} {s t : TextState σ τ}

theorem of_confirmed (h : s.Confirmed g) : Afresh g s (s.withGdef (some g.afresh)) :=
  ⟨⟨h.gdef, rfl, TextKnownRightly.of_confirms h.input,
    TextKnownRightly.of_confirms h.output, rfl, rfl,
    rfl⟩, rfl, rfl⟩

theorem confirmed (h : Afresh g s t) : s.Confirmed g :=
  ⟨h.text.gdef, TextKnownRightly.confirms h.text.input, TextKnownRightly.confirms h.text.output⟩

theorem sameText (h : Afresh g s t) : s.SameText t where
  text := ⟨TextKnownRightly.bareText_eq h.text.input, h.text.position,
    TextKnownRightly.bareText_eq h.text.output, h.text.nextLigature⟩
  chosen := h.text.kept
  positions := h.positions
  kept := h.kept

/-- One application has the same result in both runs. -/
theorem run (h : Afresh g s t) (hg : g.synthesized = none) (application : Application σ τ) :
    (t.run application).1 = (s.run application).1 ∧
      Afresh g (s.run application).2 (t.run application).2 := by
  cases application with
  | substitute table chooser =>
    obtain ⟨hresult, htext⟩ := (SubstM.lawful_keepingOrAfresh hg).substitute table chooser h.text
    exact ⟨hresult, htext, h.positions, h.kept⟩
  | position table params source =>
    have htext := h.text
    obtain ⟨hresult, hglyphs, hpositions, hkept, hconfirms⟩ :=
      PosM.position_of_alike (TextKnownRightly.alike htext.input) table params source s.positions
        s.kept g.Confirms (fun _ => Gdef.Confirms.remember) (TextKnownRightly.confirms htext.input)
    have hgdef : s.text.gdef = some g := htext.gdef
    have hgdef' : t.text.gdef = some g.afresh := htext.gdef'
    simp only [TextState.run]
    rw [hgdef, hgdef', h.positions, h.kept]
    exact ⟨hresult, ⟨rfl, rfl, TextKnownRightly.of_alike hglyphs hconfirms, htext.output,
      htext.position, htext.nextLigature, htext.kept⟩, hpositions, hkept⟩

theorem runAll (h : Afresh g s t) (hg : g.synthesized = none)
    (applications : List (Application σ τ)) :
    (t.runAll applications).1 = (s.runAll applications).1 ∧
      Afresh g (s.runAll applications).2 (t.runAll applications).2 := by
  induction applications generalizing s t with
  | nil => exact ⟨rfl, h⟩
  | cons application rest ih =>
    obtain ⟨hresult, hafter⟩ := h.run hg application
    obtain ⟨hresults, hend⟩ := ih hafter
    exact ⟨congrArg₂ List.cons hresult hresults, hend⟩

end Afresh

end TextState

/-- Let classes not have been built, and let all that is known of the glyphs of a text be what the
    glyph definitions say. Then, whatever is applied to the text, and whether or not it fails, this
    stays so for both the input and the output. All results, the text and the positions are the same
    as if no property were ever kept and each one looked up whenever it is needed. -/
theorem runAll_afresh {g : Gdef} (hg : g.synthesized = none) {s : TextState σ τ}
    (hs : s.Confirmed g) (applications : List (Application σ τ)) :
    let run := s.runAll applications
    let afresh := (s.withGdef (some g.afresh)).runAll applications
    run.2.Confirmed g ∧ afresh.1 = run.1 ∧ run.2.SameText afresh.2 := by
  obtain ⟨hresults, hafter⟩ := (TextState.Afresh.of_confirmed hs).runAll hg applications
  exact ⟨hafter.confirmed, hresults, hafter.sameText⟩

/-! A text of which one property is known. Its glyphs are joined, then two of them form a ligature,
    and then a positioning fails. -/

namespace KnownMark

def gdef : Gdef where
  classes := some (.ranges #[⟨5, 5, 3⟩])

/-- The glyphs 1, 5, 2, 3. The glyph 5 is known to be a mark. -/
def start : TextState Unit Unit where
  text := {
    buffer := { input := #[{ glyph := 1, activation := 1, cluster := 0 },
      { glyph := 5, activation := 1, cluster := 0, known := some .mark },
      { glyph := 2, activation := 1, cluster := 1 },
      { glyph := 3, activation := 1, cluster := 2 }] }
    gdef := some gdef
    kept := () }
  positions := #[]
  kept := ()

def applications : List (Application Unit Unit) := [
  .position JoinedPair.table {} JoinedPair.context.source,
  .substitute MarkedPair.table .first,
  .position (JoinedPair.table.withNestingLimit 0) {} JoinedPair.context.source]

theorem confirmed_start : start.Confirmed gdef := by
  refine ⟨rfl, fun x hx => ?_, nofun⟩
  have hall : ∀ x ∈ start.text.buffer.input, x.known.all (· = gdef.property x.glyph) := by decide
  intro p hp
  simpa [hp] using hall x hx

end KnownMark

open KnownMark in
theorem runAll_afresh_knownMark :
    gdef.synthesized = none ∧ start.Confirmed gdef ∧
      (start.runAll applications).1 = [.ok (), .ok (), .error .tooManyNestedContexts] ∧
      ((start.withGdef (some gdef.afresh)).runAll applications).1 =
        [.ok (), .ok (), .error .tooManyNestedContexts] ∧
      (start.runAll applications).2.Confirmed gdef := by
  have hresults : (start.runAll applications).1 =
      [.ok (), .ok (), .error .tooManyNestedContexts] := by decide +kernel
  obtain ⟨hconfirmed, hsame, -⟩ := runAll_afresh rfl confirmed_start applications
  exact ⟨rfl, confirmed_start, hresults, hsame.trans hresults, hconfirmed⟩

end OpenTypeLayout
