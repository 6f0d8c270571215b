import OpenTypeLayout.Proofs.Positioning.MarkToLigature
import OpenTypeLayout.Proofs.Substitution.FormedLigatures
import OpenTypeLayout.Proofs.Substitution.FreshNumbers

/-!
# Marks on the components of ligatures

A lookup that forms ligatures and skips marks leaves the marks behind the ligature. Positioning has
to put each of them on the component that it was at before: this is what the numbers are for that a
glyph carries with it. `marks_attach_to_components` says that they serve their purpose, from the
text that is substituted to the positions.
-/

namespace OpenTypeLayout

/-! ## §1 Skipping marks -/

/-- The flag of a lookup that skips marks, and nothing else. -/
def LookupFlag.skipsMarks : LookupFlag := ⟨0x0008⟩

theorem LookupFlag.admits_skipsMarks {p : GlyphProperty} (hp : p.IsClass) :
    skipsMarks.admits p = !p.isMark := by
  have hbasic : p.basic = .none ∨ p.basic = .base ∨ p.basic = .ligature ∨ p.basic = .mark ∨
      p.basic = .component := by
    unfold GlyphProperty.IsClass GlyphProperty.classNumber? at hp
    repeat' split at hp
    all_goals simp_all
  -- no attachment class is singled out, so only the class counts
  have hclass : skipsMarks.admits p = (skipsMarks.ignoredClasses.bits &&& p.basic.bits == 0) := by
    have hany : (skipsMarks.markAttachmentType != 0) = false := by decide
    rw [admits, hany, Bool.false_and, Bool.false_and, Bool.not_false, Bool.and_true]
  rw [hclass, GlyphProperty.isMark]
  rcases hbasic with h | h | h | h | h <;> rw [h] <;> decide

theorem GlyphFilter.admits_skipsMarks {g : Gdef} {x : GlyphItem} (hx : x.known = none) :
    (GlyphFilter.mk (some g) .skipsMarks).admits x = !(g.property x.glyph).isMark := by
  have hproperty : g.propertyOf x = g.property x.glyph := Gdef.knows_of_known hx
  rw [admits, Gdef.admits, Gdef.check, hproperty,
    LookupFlag.admits_skipsMarks (g.isClass_property _)]
  cases (g.property x.glyph).isMark <;> rfl

/-- What a table knows of a glyph is the property of the glyph. -/
theorem Gdef.Knows.propertyIn {g : Gdef} {x : GlyphItem} (h : g.Knows x) :
    Gdef.propertyIn (some g) x = g.property x.glyph := (Gdef.propertyIn_some g x).trans h

/-! ## §2 Glyphs of a text with ligatures -/

theorem exists_of_mem_ligatedFrom {f : GlyphFilter} {subtables : List LigatureSubst}
    {items : Array GlyphItem} {rounds place : Nat} {number : UInt16} {y : GlyphItem}
    (hy : y ∈ ligatedFrom f subtables items rounds place number) :
    ∃ x ∈ items, y.activation = x.activation := by
  -- every glyph that is written comes from one of the text, which hands on its activation
  induction rounds generalizing place number with
  | zero => cases hy
  | succ rounds ih =>
    rw [ligatedFrom] at hy
    cases hitem : items[place]? with
    | none =>
      rw [hitem] at hy
      cases hy
    | some item =>
      rw [hitem] at hy
      have hmem := Array.mem_of_getElem? hitem
      dsimp only at hy
      split at hy
      -- the glyph is copied
      case h_1 =>
        rcases List.mem_cons.mp hy with rfl | hy
        · exact ⟨_, hmem, rfl⟩
        · exact ih hy
      -- or a ligature is written, with what was skipped within it behind it
      case h_2 =>
        rcases List.mem_cons.mp hy with rfl | hy
        · exact ⟨item, hmem, rfl⟩
        · rcases List.mem_append.mp hy with hy | hy
          · obtain ⟨_, _, _, _, x, -, -, -, -, hx, rfl⟩ :=
              GlyphBuffer.exists_of_mem_carried (Array.mem_toList_iff.mp hy)
            exact ⟨x, Array.mem_of_getElem? hx, rfl⟩
          · exact ih hy

/-- A glyph of a text with ligatures is used by the features that all the glyphs before
    were used by. -/
theorem isActive_of_mem_ligatedFrom {f : GlyphFilter} {subtables : List LigatureSubst}
    {items : Array GlyphItem} {rounds place : Nat} {number : UInt16} {bits : UInt32}
    (hactive : ∀ x ∈ items, x.isActive bits = true) {y : GlyphItem}
    (hy : y.bare ∈ ligatedFrom f subtables items rounds place number) : y.isActive bits = true := by
  obtain ⟨x, hx, hsame⟩ := exists_of_mem_ligatedFrom hy
  rw [← hactive x hx]
  exact congrArg (fun activation => activation &&& bits != 0) hsame

/-- The numbers of the ligatures, if they do not run out. -/
theorem toNat_ligatureNumber {first : UInt16} {count i : Nat} (hlast : first.toNat + count ≤ 0xFFFF)
    (hi : i ≤ count) : (first + UInt16.ofNat i).toNat = first.toNat + i := by
  rw [UInt16.toNat_add, UInt16.toNat_ofNat']
  omega

/-- No ligature has the number of what belongs to none, or the one that is taken over. -/
theorem ligatureNumber_ne {first : UInt16} {count i : Nat} (hfirst : 1 ≤ first.toNat)
    (hlast : first.toNat + count ≤ 0xFFFF) (hi : i < count) :
    first + UInt16.ofNat i ≠ 0 ∧ first + UInt16.ofNat i ≠ inherit := by
  have hvalue := toNat_ligatureNumber hlast (Nat.le_of_lt hi)
  constructor
  · intro hzero
    rw [hzero, UInt16.toNat_zero] at hvalue
    omega
  · intro hinherit
    have hmax : inherit.toNat = 0xFFFF := rfl
    rw [hinherit] at hvalue
    omega

/-! ## §3 Marks behind a ligature -/

namespace FormedLigature

variable {σ : Type} {c : PosContext σ} {g : Gdef} {a : MarkLigPos} {items text : Array GlyphItem}
variable {positions : Array Position} {number : UInt16} {l : FormedLigature}

/-- The ligature stands in the text with its number. -/
theorem WrittenIn.exists_ligature {f : GlyphFilter} (h : l.WrittenIn f items (bareText text) number)
    (hnumber : number ≠ inherit) :
    ∃ y, text[l.index]? = some y ∧ y.glyph = l.glyph ∧ y.ligature = number := by
  obtain ⟨x, -, hget⟩ := h.ligature
  rw [getElem?_bareText] at hget
  obtain ⟨y, hy, hbare⟩ := Option.map_eq_some_iff.mp hget
  have hglyph := congrArg GlyphItem.glyph hbare
  have hligature := congrArg GlyphItem.ligature hbare
  exact ⟨y, hy, hglyph, hligature.trans (if_neg hnumber)⟩

/-- A mark behind a ligature is attached to it, if only glyphs that are skipped are in between. -/
theorem WrittenIn.attachedIn (h : l.WrittenIn ⟨some g, .skipsMarks⟩ items (bareText text) number)
    (hnumber : number ≠ inherit) (hgdef : c.gdef = some g) (hitems : ∀ x ∈ items, x.Fresh)
    (hknows : ∀ y ∈ text, g.Knows y) (hligature : g.property l.glyph = .ligature)
    (hplaced : ∀ i, i < text.size →
      ∃ p, positions[i]? = some p ∧ PosM.Placed c a text i p) {d : Nat} (hpos : 0 < d)
    (hskipped : ∀ d', 0 < d' → d' < d → ∃ (x y : GlyphItem), x ∈ items ∧
      (GlyphFilter.mk (some g) .skipsMarks).admits x = false ∧
      (bareText text)[l.index + d']? = some y ∧ y.glyph = x.glyph)
    {mark : GlyphItem} (hmark : text[l.index + d]? = some mark) :
    PosM.AttachedIn c a (MarkLigPos.row (if mark.ligature ≠ 0 ∧ mark.ligature = number then
      some mark.component else none)) positions l.glyph mark.glyph (l.index + d) d := by
  -- the ligature is where it has been written, with the number that it has got
  obtain ⟨y, hy, hglyph, hnumber'⟩ := h.exists_ligature hnumber
  have hproperty : ∀ x ∈ text, Gdef.propertyIn c.gdef x = g.property x.glyph :=
    fun x hx => hgdef ▸ (hknows x hx).propertyIn
  have hresult := PosM.attachedIn_of_marks hplaced hy ?_ hpos ?_ hmark
  · rw [MarkLigPos.componentOf, hnumber', hglyph] at hresult
    exact hresult
  -- the glyph in front is a ligature
  · rw [hproperty y (Array.mem_of_getElem? hy), hglyph, hligature]
  -- and what stands between the ligature and the mark are marks, which are skipped
  · intro d' hpos' hlt
    obtain ⟨x, z, hx, hadmits, hz, hglyph'⟩ := hskipped d' hpos' hlt
    rw [getElem?_bareText] at hz
    obtain ⟨other, hother, rfl⟩ := Option.map_eq_some_iff.mp hz
    have hglyph' : other.glyph = x.glyph := hglyph'
    rw [GlyphFilter.admits_skipsMarks (hitems x hx).known, Bool.not_eq_false'] at hadmits
    refine ⟨other, hother, ?_⟩
    rw [hproperty other (Array.mem_of_getElem? hother), hglyph', hadmits]

/-- A glyph between two components is attached to the first of them. -/
theorem WrittenIn.attachedIn_between
    (h : l.WrittenIn ⟨some g, .skipsMarks⟩ items (bareText text) number) (hzero : number ≠ 0)
    (hnumber : number ≠ inherit) (hgdef : c.gdef = some g) (hitems : ∀ x ∈ items, x.Fresh)
    (hknows : ∀ y ∈ text, g.Knows y) (hligature : g.property l.glyph = .ligature)
    (hplaced : ∀ i, i < text.size → ∃ p, positions[i]? = some p ∧ PosM.Placed c a text i p)
    (hascending : l.places.Pairwise (· < ·)) (hcount : l.others.length < 0xFFFF) {k p p' q : Nat}
    {mark : GlyphItem} (hp : l.places[k]? = some p) (hp' : l.places[k + 1]? = some p')
    (hlow : p < q) (hhigh : q < p') (hmark : items[q]? = some mark) :
    (∃ y, text[l.index + l.distance k q]? = some y ∧ y.glyph = mark.glyph) ∧
      PosM.AttachedIn c a (fun rows => rows[k]?) positions l.glyph mark.glyph
        (l.index + l.distance k q) (l.distance k q) := by
  -- the mark has been carried behind the ligature, with its number and its component
  have hget := h.skipped k p p' q mark hp hp' hlow hhigh hmark
  rw [getElem?_bareText] at hget
  obtain ⟨y, hy, hbare⟩ := Option.map_eq_some_iff.mp hget
  have hfirst := l.add_le_of_places hascending hp
  have hend := l.le_last_of_places hascending hp'
  -- there are less components than the number that stands for none
  have hk : (UInt16.ofNat k).toNat = k := UInt16.toNat_ofNat_of_lt' (by show k < 65536; omega)
  have hinherit : UInt16.ofNat k ≠ inherit := fun heq => by
    have hsame := congrArg UInt16.toNat heq
    rw [hk] at hsame
    have hmax : inherit.toNat = 0xFFFF := rfl
    omega
  have hglyph : y.glyph = mark.glyph := (congrArg GlyphItem.glyph hbare :)
  have hligature' : y.ligature = number :=
    (congrArg GlyphItem.ligature hbare :).trans (if_neg hnumber)
  have hcomponent : y.component = UInt16.ofNat k :=
    (congrArg GlyphItem.component hbare :).trans (if_neg hinherit)
  have hresult := h.attachedIn hnumber hgdef hitems hknows hligature hplaced
    (by unfold distance; omega) (fun d' hpos hlt => ?_) hy
  -- the numbers are the same, so the component decides about the row
  · rw [if_pos ⟨hligature' ▸ hzero, hligature'⟩, hcomponent, hglyph] at hresult
    refine ⟨⟨y, hy, hglyph⟩, ?_⟩
    have hrow : MarkLigPos.row (some (UInt16.ofNat k)) = fun rows => rows[k]? := by
      funext rows
      rw [MarkLigPos.row, hk]
    rwa [hrow] at hresult
  -- all that has been carried before it are marks as well
  · exact h.between d' hpos (by unfold distance at hlt ⊢; omega)

/-- A glyph that follows the last component, with only skipped glyphs in between, is attached to the
    last component. -/
theorem WrittenIn.attachedIn_following
    (h : l.WrittenIn ⟨some g, .skipsMarks⟩ items (bareText text) number)
    (hnumber : number ≠ inherit) (hgdef : c.gdef = some g) (hitems : ∀ x ∈ items, x.Fresh)
    (hknows : ∀ y ∈ text, g.Knows y) (hligature : g.property l.glyph = .ligature)
    (hplaced : ∀ i, i < text.size → ∃ p, positions[i]? = some p ∧ PosM.Placed c a text i p)
    (hlast : l.first + l.others.length ≤ l.last) {q : Nat} {mark : GlyphItem} (hlow : l.last < q)
    (hmark : items[q]? = some mark) (hskipped : ∀ i, l.last < i → i ≤ q →
      items[i]?.any (GlyphFilter.mk (some g) .skipsMarks).admits = false) :
    (∃ y, text[l.index + l.distance l.others.length q]? = some y ∧ y.glyph = mark.glyph) ∧
      PosM.AttachedIn c a Array.back? positions l.glyph mark.glyph
        (l.index + l.distance l.others.length q) (l.distance l.others.length q) := by
  -- behind the last component a mark keeps what it was
  have hget := h.following q mark hlow hskipped hmark
  rw [getElem?_bareText] at hget
  obtain ⟨y, hy, hbare⟩ := Option.map_eq_some_iff.mp hget
  have hglyph : y.glyph = mark.glyph := (congrArg GlyphItem.glyph hbare :)
  have hnone : y.ligature = 0 := (congrArg GlyphItem.ligature hbare :).trans
    (hitems mark (Array.mem_of_getElem? hmark)).ligature
  have hresult := h.attachedIn hnumber hgdef hitems hknows hligature hplaced
    (by unfold distance; omega) (fun d' hpos hlt => ?_) hy
  -- it belongs to no ligature, so the last row is the one for it
  · rw [if_neg fun hboth => hboth.1 hnone, hglyph] at hresult
    exact ⟨⟨y, hy, hglyph⟩, hresult⟩
  · exact h.exists_skipped hlast (Array.getElem?_eq_some_iff.mp hmark).1 hskipped hpos
      (Nat.le_of_lt hlt)

end FormedLigature

/-! ## §4 From substitution to positioning -/

/-- Let one lookup form ligatures and skip marks, and let another one attach marks to ligatures.
    Then marks that were skipped between two components of a ligature are attached to the first of
    them, and marks that were skipped after the last component are attached to the last one. -/
theorem marks_attach_to_components {σ τ : Type} {gsub : ActiveTable Substitution} {w : Window}
    (hread : LayoutTable.ofWindow w = .ok gsub.layout) {ligating : Nat} {bits : UInt32}
    (hgsub : gsub.active = [(ligating, bits)]) {subtables : Array LigatureSubst}
    (hligating : gsub.layout.lookup ligating = .ok ⟨.skipsMarks, .ligature subtables⟩)
    {gpos : ActiveTable Positioning} {attaching : Nat} {bits' : UInt32}
    (hgpos : gpos.active = [(attaching, bits')]) {a : MarkLigPos}
    (hattaching : gpos.layout.lookup attaching = .ok ⟨.empty, .markLigature #[a]⟩)
    {g : Gdef} (hligatures : ∀ subtable ∈ subtables, ∀ ligatures ∈ subtable.entries,
      ∀ l ∈ ligatures, g.property l.glyph = .ligature)
    {chooser : AlternateChooser σ} {s s' : SubstState σ} (hgdef : s.gdef = some g)
    (hstart : s.buffer.AtStart) (hitems : ∀ x ∈ s.buffer.input, x.Fresh)
    (hactive : ∀ x ∈ s.buffer.input, x.isActive bits = true ∧ x.isActive bits' = true)
    {formed : List FormedLigature}
    (hformed : formed = formedLigatures ⟨some g, .skipsMarks⟩ subtables s.buffer.input)
    (hfirst : 1 ≤ s.buffer.nextLigature.toNat)
    (hlast : s.buffer.nextLigature.toNat + formed.length ≤ 0xFFFF)
    (hsubstitute : gsub.substitute chooser s = (.ok (), s'))
    {c : PosContext τ} (hcontext : c.gdef = s'.gdef) {before after : PosOutcome τ}
    (hbefore : before.glyphs = s'.buffer.input)
    (hposition : gpos.position c before = (.ok (), after)) :
    s'.buffer.nextLigature.toNat = s.buffer.nextLigature.toNat + formed.length ∧
    ∀ l ∈ formed, l.places.Pairwise (· < ·) ∧
      (∃ y, before.glyphs[l.index]? = some y ∧ y.glyph = l.glyph) ∧
      (∀ (k p p' q : Nat) (mark : GlyphItem), l.places[k]? = some p → l.places[k + 1]? = some p' →
        p < q → q < p' → s.buffer.input[q]? = some mark →
        (∃ y, before.glyphs[l.index + l.distance k q]? = some y ∧ y.glyph = mark.glyph) ∧
        PosM.AttachedIn c a (fun rows => rows[k]?) after.positions l.glyph mark.glyph
          (l.index + l.distance k q) (l.distance k q)) ∧
      ∀ (q : Nat) (mark : GlyphItem), l.last < q → s.buffer.input[q]? = some mark →
        (∀ i x, l.last < i → i ≤ q → s.buffer.input[i]? = some x →
          (g.property x.glyph).isMark = true) →
        (∃ y, before.glyphs[l.index + l.distance l.others.length q]? = some y ∧
          y.glyph = mark.glyph) ∧
        PosM.AttachedIn c a Array.back? after.positions l.glyph mark.glyph
          (l.index + l.distance l.others.length q) (l.distance l.others.length q) := by
  -- the text that substituting leaves, and how many ligature numbers it has used
  obtain ⟨hgdef', htext, hnext, hknows⟩ :=
    SubstM.bareText_of_substitute hread hgsub hligating hligatures hgdef hstart hitems
      (fun x hx => (hactive x hx).1) hsubstitute
  -- every glyph that has been written has the activation of one that was read
  have hactive' : ∀ y ∈ before.glyphs, y.isActive bits' = true := by
    intro y hy
    rw [hbefore] at hy
    have hbare : y.bare ∈ bareText s'.buffer.input :=
      List.mem_map_of_mem (Array.mem_toList_iff.mpr hy)
    rw [htext] at hbare
    exact isActive_of_mem_ligatedFrom (fun x hx => (hactive x hx).2) hbare
  -- so positioning has placed each of them
  have hplaced := PosM.placed_of_position hgpos hattaching hactive' hposition
  rw [hbefore] at hplaced ⊢
  rw [hgdef'] at hcontext
  rw [← hformed] at hnext
  refine ⟨?_, fun l hl => ?_⟩
  · rw [hnext, toNat_ligatureNumber hlast (Nat.le_refl _)]
  -- a ligature that has been formed has a number of its own, and its glyphs are where it was
  -- written
  obtain ⟨i, hi⟩ := List.mem_iff_getElem?.mp hl
  obtain ⟨hzero, hnumber⟩ := ligatureNumber_ne hfirst hlast (List.getElem?_eq_some_iff.mp hi).1
  rw [hformed] at hi hl
  have hwritten := FormedLigature.writtenIn_of_formedLigatures hi s.buffer.nextLigature
  rw [← htext] at hwritten
  -- what the subtable says about it: the components in order, and the class of its glyph
  obtain ⟨⟨x, hx⟩, hstrings, subtable, hsubtable, ligatures, hentry, l', hl', hglyph, hcount⟩ :=
    exists_of_ligatureAt (ligatureAt_of_mem_formedFrom hl)
  have hascending : l.places.Pairwise (· < ·) := hstrings.found.ascending
  obtain ⟨hword, hligature⟩ := takenForLigatures_of_ofWindow hread hligating hligatures subtable
    hsubtable ligatures hentry l' hl'
  rw [hglyph] at hligature
  obtain ⟨y, hy, hglyph', -⟩ := hwritten.exists_ligature hnumber
  refine ⟨hascending, ⟨y, hy, hglyph'⟩, ?_, ?_⟩
  · intro k p p' q mark hp hp' hlow hhigh hmark
    exact hwritten.attachedIn_between hzero hnumber hcontext hitems hknows hligature hplaced
      hascending (by omega) hp hp' hlow hhigh hmark
  -- what follows the last component up to the mark is skipped, as all of it are marks
  · intro q mark hlow hmark hmarks
    refine hwritten.attachedIn_following hnumber hcontext hitems hknows hligature hplaced
      (GlyphBuffer.le_getLastD_of_ascending hascending) hlow hmark fun i hi hle => ?_
    cases hother : s.buffer.input[i]? with
    | none => rfl
    | some other =>
      rw [Option.any_some,
        GlyphFilter.admits_skipsMarks (hitems other (Array.mem_of_getElem? hother)).known,
        hmarks i other hi hle hother]
      rfl

/-! The marks of the ligature of 1 and 2 are put on it, over each of them in another place. -/

namespace MarkedLigature

open GlyphBuffer.AcrossMark (table)

/-- The glyph 3 is a mark, and the glyph 9 is a ligature. -/
def gdef : Gdef := { classes := some (.ranges #[⟨3, 3, 3⟩, ⟨9, 9, 2⟩]) }

/-- What forms the ligature of 1 and 2. -/
def subtables : Array LigatureSubst := #[{ coverage := .glyphs #[1], entries := #[#[⟨9, #[2]⟩]] }]

/-- The glyphs 1, 3, 2, 3. -/
def start : SubstState Unit where
  buffer := { input := #[
    { glyph := 1, activation := 1, cluster := 0 }, { glyph := 3, activation := 1, cluster := 1 },
    { glyph := 2, activation := 1, cluster := 2 }, { glyph := 3, activation := 1, cluster := 3 }] }
  gdef := some gdef
  kept := ()

/-- Where the mark 3 goes on the two components of the ligature 9. -/
def anchors : MarkLigPos where
  markCoverage := .glyphs #[3]
  targetCoverage := .glyphs #[9]
  classCount := 1
  marks := #[⟨0, some (.design 10 20)⟩]
  targets := #[#[#[some (.design 100 500)], #[some (.design 600 500)]]]

def positioning : ActiveTable Positioning where
  layout := { scripts := #[], features := #[], lookups := #[⟨.empty, .markLigature #[anchors]⟩] }
  bits := #[1]

def context : PosContext Unit where
  gdef := some gdef
  params := {}
  source := { contour := PosSource.noOutlines, metric := PosSource.noMetrics }

/-- What substitution leaves: the glyphs 9, 3, 3. -/
def ligated : SubstState Unit := (table.substitute .first start).2

/-- What is positioned. -/
def before : PosOutcome Unit where
  glyphs := ligated.buffer.input
  positions := #[]
  kept := ()

/-- What positioning leaves. -/
def after : PosOutcome Unit := (positioning.position context before).2

end MarkedLigature

open MarkedLigature in
open GlyphBuffer.AcrossMark (table data ofWindow_data) in
/-- The mark between the components goes to the first one, and the mark after them to the second. -/
theorem marks_attach_to_components_acrossMark :
    table.substitute .first start = (.ok (), ligated) ∧
    positioning.position context before = (.ok (), after) ∧
    formedLigatures ⟨some gdef, .skipsMarks⟩ subtables start.buffer.input =
      [⟨9, 0, 0, [2]⟩] ∧
    after.positions[1]? = some { x := 90, y := 480, back := 1 } ∧
    after.positions[2]? = some { x := 590, y := 480, back := 2 } := by
  -- the hypotheses hold of this font and this text
  have hread : LayoutTable.ofWindow (Window.ofBytes data) = .ok table.layout := ofWindow_data
  have hgsub : table.active = [(0, 1)] := by decide
  have hligating : table.layout.lookup 0 = .ok ⟨.skipsMarks, .ligature subtables⟩ := rfl
  have hgpos : positioning.active = [(0, 1)] := by decide
  have hattaching : positioning.layout.lookup 0 = .ok ⟨.empty, .markLigature #[anchors]⟩ := rfl
  have hligatures : ∀ subtable ∈ subtables, ∀ ligatures ∈ subtable.entries, ∀ l ∈ ligatures,
      gdef.property l.glyph = .ligature := by decide
  have hitems : ∀ x ∈ start.buffer.input, x.Fresh := by
    simp only [start, List.mem_toArray, List.forall_mem_cons]
    exact ⟨⟨rfl, rfl, rfl⟩, ⟨rfl, rfl, rfl⟩, ⟨rfl, rfl, rfl⟩, ⟨rfl, rfl, rfl⟩, nofun⟩
  have hactive : ∀ x ∈ start.buffer.input, x.isActive 1 = true ∧ x.isActive 1 = true := by decide
  have hformed : formedLigatures ⟨some gdef, .skipsMarks⟩ subtables start.buffer.input =
      [⟨9, 0, 0, [2]⟩] := by rfl
  have hsubstitute : table.substitute .first start = (.ok (), ligated) := by rfl
  have hcontext : context.gdef = ligated.gdef := by rfl
  have hposition : positioning.position context before = (.ok (), after) := by rfl
  obtain ⟨-, hmarks⟩ :=
    marks_attach_to_components hread hgsub hligating hgpos hattaching hligatures rfl ⟨rfl, rfl⟩
      hitems hactive hformed.symm (by decide) (by decide) hsubstitute hcontext rfl hposition
  obtain ⟨-, -, hbetween, hfollowing⟩ := hmarks ⟨9, 0, 0, [2]⟩ (List.mem_singleton_self _)
  have hligature : anchors.targetCoverage.index? 9 = some 0 := by decide
  have hmark : anchors.markCoverage.index? 3 = some 0 := by decide
  -- between the components the first row counts, and behind them the last one
  refine ⟨hsubstitute, hposition, hformed, ?_, ?_⟩
  · obtain ⟨-, hattached⟩ := hbetween 0 0 2 1 _ rfl rfl (by decide) (by decide) rfl
    obtain ⟨p, hp, hattached⟩ := hattached (.design 100 500) (.design 10 20)
      (.intro hligature hmark rfl rfl rfl rfl rfl)
    rw [hattached.eq_of_design] at hp
    exact hp
  · obtain ⟨-, hattached⟩ := hfollowing 3 _ (by decide) rfl fun i x hlow hhigh hx => by
      obtain rfl : i = 3 := Nat.le_antisymm hhigh hlow
      cases hx
      decide
    obtain ⟨p, hp, hattached⟩ := hattached (.design 600 500) (.design 10 20)
      (.intro hligature hmark rfl rfl rfl rfl rfl)
    rw [hattached.eq_of_design] at hp
    exact hp

end OpenTypeLayout
