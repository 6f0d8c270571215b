import OpenTypeLayout.Proofs.Applications
import OpenTypeLayout.Proofs.Loading

/-!
# Mark attachment classes that are decoded late

The mark attachment classes of a font are decoded when a table is made that needs them. This may be
before or after a text is substituted. What lookups have found out before that stays with the
glyphs, and is not looked up again.

- `TextState.early` makes the positioning table before the text is substituted, and `TextState.late`
  makes it afterwards.
- `late_eq_early` says when both orders position the text in the same way, and
  `late_ne_early` that they do not always.
-/

namespace OpenTypeLayout

variable {σ τ : Type}

/-! ## §1 Orders -/

namespace TextState

/-- Make a table, which decodes the mark attachment classes of the font if the table needs them. -/
def make {S : Type} (s : TextState σ τ) (layout : LayoutTable S) :
    Except ParseError (TextState σ τ) :=
  (ActiveTable.ofLayout layout s.text.gdef).map fun made => s.withGdef made.2

/-- Make both tables, and substitute. -/
def early (s : TextState σ τ) (gsub : ActiveTable Substitution) (chooser : AlternateChooser σ)
    (gpos : ActiveTable Positioning) : Except ParseError (TextState σ τ) := do
  let s ← s.make gsub.layout
  let s ← s.make gpos.layout
  return (s.run (.substitute gsub chooser)).2

/-- Make the substitution table, substitute, and make the positioning table after that. -/
def late (s : TextState σ τ) (gsub : ActiveTable Substitution) (chooser : AlternateChooser σ)
    (gpos : ActiveTable Positioning) : Except ParseError (TextState σ τ) := do
  let s ← s.make gsub.layout
  (s.run (.substitute gsub chooser)).2.make gpos.layout

/-- The property that lookups test the glyph at an index with: the one that is known of it, and
    otherwise the one that the table gives. -/
def propertyAt (s : TextState σ τ) (i : Nat) : Option GlyphProperty :=
  s.text.buffer.input[i]?.map (Gdef.propertyIn s.text.gdef)

/-- Two texts are positioned in the same way by a table: with any parameters and any source they
    have the same result and the same positions. -/
def SamePositions (gpos : ActiveTable Positioning) (s t : TextState σ τ) : Prop :=
  ∀ (params : PosParams) (source : PosSource τ),
    (t.run (.position gpos params source)).1 = (s.run (.position gpos params source)).1 ∧
    (t.run (.position gpos params source)).2.positions =
      (s.run (.position gpos params source)).2.positions ∧
    (t.run (.position gpos params source)).2.kept = (s.run (.position gpos params source)).2.kept

/-! ## §2 Making tables -/

section

variable {S : Type} {s t : TextState σ τ} {g : Gdef} {layout : LayoutTable S}

theorem withGdef_self (h : s.text.gdef = some g) : s.withGdef (some g) = s := by
  rw [← h]
  rfl

/-- A table that needs no mark attachment classes leaves them as they are. -/
theorem make_of_plain (h : s.text.gdef = some g) (hlayout : layout.usesMarkAttachment = false) :
    s.make layout = .ok s := by
  have hmade : s.make layout = .ok (s.withGdef (some g)) := by
    simp only [make, ActiveTable.ofLayout, h, hlayout, Bool.false_eq_true, if_false]
    rfl
  rw [hmade, withGdef_self h]

/-- Whether a table can be made, and what is decoded for it, only depends on the glyph
    definitions. -/
theorem make_cases (h : s.text.gdef = some g) (ht : t.text.gdef = some g) (layout : LayoutTable S) :
    (∃ e, s.make layout = .error e ∧ t.make layout = .error e) ∨
      ∃ markAttachment, s.make layout = .ok (s.withGdef (some { g with markAttachment })) ∧
        t.make layout = .ok (t.withGdef (some { g with markAttachment })) := by
  simp only [make, ActiveTable.ofLayout, h, ht]
  cases layout.usesMarkAttachment with
  | false => exact .inr ⟨g.markAttachment, rfl, rfl⟩
  | true =>
    cases hload : g.loadMarkAttachment with
    | error e => exact .inl ⟨e, rfl, rfl⟩
    | ok loaded =>
      obtain ⟨markAttachment, rfl⟩ := Gdef.ensures_loadMarkAttachment g loaded hload
      exact .inr ⟨markAttachment, rfl, rfl⟩

/-- Substituting leaves the glyph definitions as they are. -/
theorem gdef_run_substitute (hplain : g.synthesized = none) (h : s.text.gdef = some g)
    (gsub : ActiveTable Substitution) (chooser : AlternateChooser σ) :
    (s.run (.substitute gsub chooser)).2.text.gdef = some g := by
  have hrun : (gsub.substitute chooser s.text).2.gdef = s.text.gdef := by
    refine substitute_gdef gsub chooser fun g' hg' => ?_
    obtain rfl := Option.some.inj (h.symm.trans hg')
    rw [Gdef.recordsClasses, hplain, Option.isSome_none]
  exact hrun.trans h

theorem early_of_plain (h : s.text.gdef = some g) {gsub : ActiveTable Substitution}
    (hgsub : gsub.layout.usesMarkAttachment = false) {chooser : AlternateChooser σ}
    {gpos : ActiveTable Positioning} :
    s.early gsub chooser gpos =
      (s.make gpos.layout).map fun s => (s.run (.substitute gsub chooser)).2 := by
  rw [early, make_of_plain h hgsub]
  change (s.make gpos.layout >>= fun s => pure (s.run (.substitute gsub chooser)).2) = _
  cases s.make gpos.layout <;> rfl

theorem late_of_plain (h : s.text.gdef = some g) {gsub : ActiveTable Substitution}
    (hgsub : gsub.layout.usesMarkAttachment = false) {chooser : AlternateChooser σ}
    {gpos : ActiveTable Positioning} :
    s.late gsub chooser gpos = (s.run (.substitute gsub chooser)).2.make gpos.layout := by
  rw [late, make_of_plain h hgsub]
  rfl

end

/-! ## §3 Positions -/

section

variable {s t : TextState σ τ} {g : Gdef}

/-- Texts with the same glyphs, and with the same property of each glyph, are positioned in the same
    way. -/
theorem samePositions_of_propertyAt (hs : s.text.gdef = some g) (ht : t.text.gdef = some g)
    (htext : t.text.buffer.inputText = s.text.buffer.inputText)
    (hproperty : ∀ i, t.propertyAt i = s.propertyAt i) (hpositions : t.positions = s.positions)
    (hkept : t.kept = s.kept) (gpos : ActiveTable Positioning) : s.SamePositions gpos t := by
  simp only [propertyAt, hs, ht] at hproperty
  have halike : TextsAlike (some g) (some g) s.text.buffer.input t.text.buffer.input :=
    .of_propertyIn htext hproperty
  intro params source
  obtain ⟨hresult, -, hrun, hafter, -⟩ := PosM.position_of_alike halike gpos params source
    s.positions s.kept (fun _ => True) (fun _ _ => trivial) fun _ _ => trivial
  simp only [run]
  rw [hs, ht, hpositions, hkept]
  exact ⟨hresult, hrun, hafter⟩

/-- If the glyphs of two texts are the same, and what is known of those in the first one is right,
    then their properties are the same exactly if what is known of those in the second one is
    right as well. -/
theorem propertyAt_eq_iff (hkeeps : g.keepsProperties = true) (hs : s.text.gdef = some g)
    (ht : t.text.gdef = some g) (htext : t.text.buffer.inputText = s.text.buffer.inputText)
    (hconfirms : ∀ x ∈ s.text.buffer.input, g.Confirms x) :
    (∀ i, t.propertyAt i = s.propertyAt i) ↔ ∀ y ∈ t.text.buffer.input, g.Confirms y := by
  have hbare := Pointwise.of_bareText htext
  simp only [propertyAt, hs, ht]
  constructor
  · -- what is known of a glyph is its property, and the first text says which one it should be
    intro hproperty y hy p hp
    obtain ⟨i, hi⟩ := Array.getElem?_of_mem hy
    have hproperty := hproperty i
    rcases hbare.getElem?_cases i with ⟨-, hnone⟩ | ⟨x, y', hx, hy', hxy⟩
    · cases hi.symm.trans hnone
    · cases hi.symm.trans hy'
      rw [hx, hi, Option.map_some, Option.map_some, Option.some.injEq, Gdef.propertyIn_some,
        Gdef.propertyIn_some, (hconfirms x (Array.mem_of_getElem? hx)).propertyOf,
        ← GlyphItem.glyph_of_bare hxy] at hproperty
      rw [← hproperty, Gdef.propertyOf, hp]
      simp only [hkeeps, if_true]
  · intro hconfirms' i
    rcases hbare.getElem?_cases i with ⟨hx, hy⟩ | ⟨x, y, hx, hy, hxy⟩
    · rw [hx, hy]
    · rw [hx, hy, Option.map_some, Option.map_some, Gdef.propertyIn_some, Gdef.propertyIn_some,
        (hconfirms x (Array.mem_of_getElem? hx)).propertyOf,
        (hconfirms' y (Array.mem_of_getElem? hy)).propertyOf, GlyphItem.glyph_of_bare hxy]

end

end TextState

/-- Let glyph definitions have been read from a font, and let the lookups of a substitution table
    not ask for mark attachment classes. If a positioning table cannot be made before substituting,
    then it cannot be made afterwards either. If it can, let the text be the same after
    substituting in both orders. Then both orders have the same positions if each glyph has the
    same property, known or looked up, in both of them. And if what is known of glyphs to begin
    with, if anything, is right once the mark attachment classes are decoded, then this is so
    exactly if the later order leaves no glyph of which something else is known than what the table
    with these classes says. -/
theorem late_eq_early {w : Window} {g : Gdef} (hread : Gdef.ofWindow w = .ok g) {s : TextState σ τ}
    (hs : s.text.gdef = some g) {gsub : ActiveTable Substitution}
    (hgsub : gsub.layout.usesMarkAttachment = false) (chooser : AlternateChooser σ)
    (gpos : ActiveTable Positioning) :
    (∃ e, s.early gsub chooser gpos = .error e ∧ s.late gsub chooser gpos = .error e) ∨
    ∃ early late loaded,
      s.early gsub chooser gpos = .ok early ∧ s.late gsub chooser gpos = .ok late ∧
      early.text.gdef = some loaded ∧ late.text.gdef = some loaded ∧
      (late.text.buffer.inputText = early.text.buffer.inputText →
        ((∀ i, late.propertyAt i = early.propertyAt i) → early.SamePositions gpos late) ∧
        ((∀ x, x ∈ s.text.buffer.input ∨ x ∈ s.text.buffer.output → loaded.Confirms x) →
          ((∀ i, late.propertyAt i = early.propertyAt i) ↔
            ∀ x ∈ late.text.buffer.input, loaded.Confirms x))) := by
  obtain ⟨hkeeps, hplain⟩ := Gdef.ensures_ofWindow w g hread
  rw [TextState.early_of_plain hs hgsub, TextState.late_of_plain hs hgsub]
  have hafter := TextState.gdef_run_substitute hplain hs gsub chooser
  rcases TextState.make_cases hs hafter gpos.layout with
    ⟨e, hmake, hmake'⟩ | ⟨markAttachment, hmake, hmake'⟩
  · rw [hmake, hmake']
    exact .inl ⟨e, rfl, rfl⟩
  · rw [hmake, hmake']
    let loaded : Gdef := { g with markAttachment }
    have hearly : ((s.withGdef (some loaded)).run (.substitute gsub chooser)).2.text.gdef =
        some loaded :=
      TextState.gdef_run_substitute (g := loaded) hplain rfl gsub chooser
    refine .inr ⟨_, _, loaded, rfl, rfl, hearly, rfl,
      fun htext => ⟨fun hproperty => ?_, fun hstart => ?_⟩⟩
    · exact TextState.samePositions_of_propertyAt hearly rfl htext hproperty rfl rfl gpos
    · -- in the early order what is known to begin with is right, and stays so
      have hconfirmed : (s.withGdef (some loaded)).Confirmed loaded :=
        ⟨rfl, fun x hx => hstart x (.inl hx), fun x hx => hstart x (.inr hx)⟩
      have hconfirms := ((TextState.Afresh.of_confirmed hconfirmed).run hplain
        (.substitute gsub chooser)).2.confirmed.input
      exact TextState.propertyAt_eq_iff hkeeps hearly rfl htext hconfirms

/-! A font in which the glyph 3 is a mark with the attachment class 1. The substitution looks at all
    glyphs that it is active for and replaces the glyph 1, and the positioning moves the mark. -/

namespace ClassedMark

def data : ByteArray := ⟨#[
  0x00, 0x01, 0x00, 0x00, 0x00, 0x0C, 0x00, 0x00, 0x00, 0x00, 0x00, 0x14,
  -- the class of the glyph, and the attachment class
  0x00, 0x01, 0x00, 0x03, 0x00, 0x01, 0x00, 0x03,
  0x00, 0x01, 0x00, 0x03, 0x00, 0x01, 0x00, 0x01]⟩

def gdef : Gdef where
  classes := some (.block 3 #[3])
  markAttachment := .deferred (Window.ofBytes data) 0x14

theorem ofWindow_data : Gdef.ofWindow (Window.ofBytes data) = .ok gdef := by rfl

def gsub : ActiveTable Substitution where
  layout := {
    scripts := #[]
    features := #[]
    lookups := #[{ flag := ⟨0⟩, subtables := .single #[.list ⟨.glyphs #[1], #[2]⟩] }] }
  bits := #[1]

def gpos : ActiveTable Positioning where
  layout := {
    scripts := #[]
    features := #[]
    lookups := #[
      { flag := ⟨0x0100⟩
        subtables := .single #[.all (.glyphs #[3]) { xPlacement := { design := some 100 } }] }] }
  bits := #[2]

/-- The glyphs 1 and 3. The positioning is active for both of them, the substitution for those with
    the given bits. -/
def start (bits : UInt32) : TextState Unit Unit where
  text := {
    buffer := (GlyphBuffer.empty.push 1 3 0).push 3 (bits ||| 2) 1
    gdef := some gdef
    kept := () }
  positions := #[]
  kept := ()

/-- The positions of a text. -/
def positions (s : TextState Unit Unit) : Array Position :=
  (s.run (.position gpos {} JoinedPair.context.source)).2.positions

end ClassedMark

open ClassedMark in
/-- If the substitution is not active for the mark, nothing is known of the mark before its
    attachment class is decoded. -/
theorem late_eq_early_classedMark :
    ∃ early late, (start 0).early gsub .first gpos = .ok early ∧
      (start 0).late gsub .first gpos = .ok late ∧ positions late = positions early := by
  have hearly : ((start 0).early gsub .first gpos).isOk = true := by decide +kernel
  have htext : ((start 0).late gsub .first gpos).map (fun s => s.text.buffer.inputText) =
      ((start 0).early gsub .first gpos).map (fun s => s.text.buffer.inputText) := by decide +kernel
  -- no class has been remembered in the text, so none can be a wrong one
  have hknown : ((start 0).late gsub .first gpos).toOption.all (fun s =>
      s.text.buffer.input.all fun x => x.known.isNone) = true := by decide +kernel
  rcases late_eq_early ofWindow_data (show (start 0).text.gdef = some gdef from rfl)
    (show gsub.layout.usesMarkAttachment = false by decide +kernel) .first gpos with
    ⟨e, herror, -⟩ | ⟨early, late, loaded, hok, hlate, -, -, hpositions⟩
  · rw [herror] at hearly
    cases hearly
  -- both runs end with the same text, and what is remembered in it is right
  · rw [hok, hlate] at htext
    rw [hlate] at hknown
    obtain ⟨hsame, hright⟩ := hpositions (Except.ok.inj htext)
    have hinput : ∀ x ∈ (start 0).text.buffer.input, x.known = none := by decide
    have hstart : ∀ x, x ∈ (start 0).text.buffer.input ∨ x ∈ (start 0).text.buffer.output →
        x.known = none := fun x hx => hx.elim (hinput x) nofun
    have hproperty := (hright fun x hx => Gdef.confirms_of_unknown (hstart x hx)).mpr fun x hx =>
      Gdef.confirms_of_unknown (Option.isNone_iff_eq_none.mp (Array.all_eq_true'.mp hknown x hx))
    exact ⟨early, late, hok, hlate, (hsame hproperty {} JoinedPair.context.source).2.1⟩

open ClassedMark in
/-- If the substitution is active for the mark, then in the late order the mark is known as a mark
    without an attachment class. The positioning skips it, although the text is the same as in the
    early order, in which the mark is moved. -/
theorem late_ne_early :
    Gdef.ofWindow (Window.ofBytes data) = .ok gdef ∧ gsub.layout.usesMarkAttachment = false ∧
      ((start 1).late gsub .first gpos).map (fun s => s.text.buffer.inputText) =
        ((start 1).early gsub .first gpos).map (fun s => s.text.buffer.inputText) ∧
      ((start 1).early gsub .first gpos).map positions = .ok #[{}, { x := 100 }] ∧
      ((start 1).late gsub .first gpos).map positions = .ok #[{}, {}] :=
  ⟨ofWindow_data, by decide +kernel, by decide +kernel, by decide +kernel, by decide +kernel⟩

end OpenTypeLayout
