import OpenTypeLayout.Gdef
import OpenTypeLayout.Proofs.RecordedClasses

/-!
# Built classes

Glyphs with their classes can be given to a font that has no classes. They become ranges, and glyphs
that are not among them have classes recorded for them later. What comes of this is a map from
glyphs to classes in which the first entry for a glyph is kept.

- `ClassRange.gives_foldr_iff`: the ranges have the glyphs that are listed, with their classes.
- `Gdef.Built` holds of a table from the moment its classes are built. `Built.record` is one step,
  and `Built.property_recordAll` any number of them.
- `Gdef.build_keepsFirst` puts this together.
-/

namespace OpenTypeLayout

/-! ## §1 Ranges of listed glyphs -/

namespace ClassRange

variable {stop start : Nat} {ranges : List ClassRange} {glyph x : GlyphId} {value c : UInt16}

theorem Apart.mono {start' : Nat} (h : Apart stop start ranges) (hle : start' ≤ start) :
    Apart stop start' ranges := by
  cases ranges with
  | nil => trivial
  | cons r rest => exact ⟨Nat.le_trans hle h.1, h.2⟩

theorem Apart.first_le_last (h : Apart stop start ranges) {r : ClassRange} (hr : r ∈ ranges) :
    r.first ≤ r.last := by
  induction ranges generalizing start with
  | nil => cases hr
  | cons first rest ih =>
    obtain ⟨-, hle, -, hrest⟩ := h
    rcases List.mem_cons.mp hr with rfl | hr
    · exact UInt16.le_iff_toNat_le.mpr hle
    · exact ih hrest hr

theorem Apart.pairwise (h : Apart stop start ranges) :
    ranges.Pairwise fun a b => a.last < b.first := by
  induction ranges generalizing start with
  | nil => exact .nil
  | cons r rest ih =>
    obtain ⟨-, -, -, hrest⟩ := h
    exact .cons (fun r' hr' => UInt16.lt_iff_toNat_lt.mpr (hrest.le hr')) (ih hrest)

/-- A glyph before all ranges may be put in front of them. -/
theorem Apart.consGlyph (h : Apart stop (glyph.toNat + 1) ranges) (hstop : glyph.toNat < stop)
    (value : UInt16) : Apart stop glyph.toNat (consGlyph glyph value ranges) := by
  cases ranges with
  | nil => exact ⟨Nat.le_refl _, Nat.le_refl _, hstop, trivial⟩
  | cons r rest =>
    obtain ⟨hstart, hle, hlast, hrest⟩ := h
    unfold ClassRange.consGlyph
    dsimp only
    split
    case isTrue =>
      have hlonger : glyph.toNat ≤ r.last.toNat := by omega
      exact ⟨Nat.le_refl _, hlonger, hlast, hrest⟩
    case isFalse => exact ⟨Nat.le_refl _, Nat.le_refl _, hstop, hstart, hle, hlast, hrest⟩

/-- One of the ranges has a glyph and gives it a class. -/
def Gives (ranges : List ClassRange) (x : GlyphId) (c : UInt16) : Prop :=
  ∃ r ∈ ranges, r.Has x.toNat ∧ r.value = c

theorem gives_cons {r : ClassRange} :
    Gives (r :: ranges) x c ↔ (r.Has x.toNat ∧ r.value = c) ∨ Gives ranges x c := by
  simp [Gives]

theorem not_gives_nil : ¬ Gives [] x c := by
  simp [Gives]

theorem has_single_iff : (⟨glyph, glyph, value⟩ : ClassRange).Has x.toNat ↔ x = glyph := by
  rw [← UInt16.toNat_inj]
  unfold Has
  dsimp only
  omega

/-- What has been put in front is in the ranges, with all that was there. -/
theorem gives_consGlyph_iff (h : Apart stop (glyph.toNat + 1) ranges) :
    Gives (consGlyph glyph value ranges) x c ↔ (x = glyph ∧ value = c) ∨ Gives ranges x c := by
  cases ranges with
  | nil => rw [consGlyph, gives_cons, has_single_iff]
  | cons r rest =>
    obtain ⟨-, hle, -⟩ := h
    unfold consGlyph
    dsimp only
    split
    case isTrue hjoins =>
      obtain ⟨hnext, rfl⟩ := hjoins
      -- the longer range has one more glyph
      have hlonger : ({ r with first := glyph } : ClassRange).Has x.toNat ↔
          x = glyph ∨ r.Has x.toNat := by
        rw [← UInt16.toNat_inj]
        unfold Has
        dsimp only
        omega
      rw [gives_cons, gives_cons, hlonger, or_and_right, or_assoc]
    case isFalse => rw [gives_cons, has_single_iff]

variable {listed : List (GlyphId × UInt16)}

theorem apart_foldr (hascending : (listed.map Prod.fst).Pairwise (· < ·))
    (hstart : ∀ a ∈ listed, start ≤ a.1.toNat) (hstop : ∀ a ∈ listed, a.1.toNat < stop) :
    Apart stop start
      (listed.foldr (fun a ranges => ClassRange.consGlyph a.1 a.2 ranges) []) := by
  induction listed generalizing start with
  | nil => trivial
  | cons a rest ih =>
    obtain ⟨hfirst, hrest⟩ := List.pairwise_cons.mp hascending
    have hbehind : ∀ b ∈ rest, a.1.toNat + 1 ≤ b.1.toNat := fun b hb =>
      UInt16.lt_iff_toNat_lt.mp (hfirst b.1 (List.mem_map_of_mem hb))
    have hapart := ih hrest hbehind fun b hb => hstop b (List.mem_cons_of_mem a hb)
    exact (hapart.consGlyph (hstop a List.mem_cons_self) a.2).mono (hstart a List.mem_cons_self)

theorem gives_foldr_iff (hascending : (listed.map Prod.fst).Pairwise (· < ·)) :
    Gives (listed.foldr (fun a ranges => ClassRange.consGlyph a.1 a.2 ranges) []) x c ↔
      (x, c) ∈ listed := by
  induction listed with
  | nil => exact iff_of_false not_gives_nil List.not_mem_nil
  | cons a rest ih =>
    obtain ⟨hfirst, hrest⟩ := List.pairwise_cons.mp hascending
    have hbehind : ∀ b ∈ rest, a.1.toNat + 1 ≤ b.1.toNat := fun b hb =>
      UInt16.lt_iff_toNat_lt.mp (hfirst b.1 (List.mem_map_of_mem hb))
    have hapart := apart_foldr hrest hbehind fun b _ => b.1.toNat_lt
    rw [List.foldr_cons, gives_consGlyph_iff hapart, ih hrest, List.mem_cons, Prod.ext_iff]
    dsimp only
    rw [eq_comm (a := c)]

end ClassRange

/-! ## §2 What can be listed -/

namespace Gdef

/-- Glyphs can be listed with classes if they ascend and the font has them, and the classes are
    those that there are. -/
structure Listable (glyphCount : UInt16) (glyphs classes : Array UInt16) : Prop where
  nonempty : 0 < glyphCount
  sizes : glyphs.size = classes.size
  classes : ∀ c ∈ classes, c ≤ 4
  ascending : glyphs.toList.Pairwise (· < ·)
  inside : ∀ x ∈ glyphs, x < glyphCount

theorem listIsValid_iff {glyphCount : UInt16} {glyphs classes : Array UInt16} :
    listIsValid glyphCount glyphs classes = true ↔ Listable glyphCount glyphs classes := by
  have hascending : adjacentAll (fun a b => decide (a < b)) glyphs.toList = true ↔
      glyphs.toList.Pairwise (· < ·) := by
    rw [adjacentAll_iff_pairwise]
    · simp
    · intro a b _ c hab hbc
      exact decide_eq_true (UInt16.lt_trans (of_decide_eq_true hab) (of_decide_eq_true hbc))
  have hpositive : (glyphCount != 0) = true ↔ 0 < glyphCount := by
    rw [bne_iff_ne, UInt16.pos_iff_ne_zero]
  unfold listIsValid
  simp only [Bool.and_eq_true, hpositive, beq_iff_eq, Array.all_eq_true', decide_eq_true_iff,
    hascending]
  exact ⟨fun ⟨⟨⟨⟨h₁, h₂⟩, h₃⟩, h₄⟩, h₅⟩ => ⟨h₁, h₂, h₃, h₅, h₄⟩,
    fun h => ⟨⟨⟨⟨h.nonempty, h.sizes⟩, h.classes⟩, h.inside⟩, h.ascending⟩⟩

/-! ## §3 One step -/

/-- The properties that stand for one class. -/
def singleClasses : List GlyphProperty := [.base, .ligature, .mark, .component]

/-- The properties that can be recorded are those that stand for one class or none. -/
theorem classNumber?_eq_none_iff {p : GlyphProperty} :
    p.classNumber? = none ↔ p ≠ .none ∧ p ∉ singleClasses := by
  unfold GlyphProperty.classNumber? singleClasses
  grind

theorem ofClass_classNumber? {p : GlyphProperty} {c : UInt16} (h : p.classNumber? = some c) :
    c ≤ 4 ∧ GlyphProperty.ofClass c = p := by
  unfold GlyphProperty.classNumber? at h
  have hof : GlyphProperty.ofClass 0 = .none ∧ GlyphProperty.ofClass 1 = .base ∧
      GlyphProperty.ofClass 2 = .ligature ∧ GlyphProperty.ofClass 3 = .mark ∧
      GlyphProperty.ofClass 4 = .component := by decide
  grind

theorem ofClass_eq_none_iff {c : UInt16} (h : c ≤ 4) : GlyphProperty.ofClass c = .none ↔ c = 0 := by
  have hsingle : GlyphProperty.base ≠ .none ∧ GlyphProperty.ligature ≠ .none ∧
      GlyphProperty.mark ≠ .none ∧ GlyphProperty.component ≠ .none := by decide
  unfold GlyphProperty.ofClass
  grind

/-- A table whose classes have been built from a list. The ranges have what is in the list, and the
    classes that are recorded are those of properties. -/
structure Built (glyphCount : UInt16) (listed : List (GlyphId × UInt16)) (g : Gdef) : Prop where
  classOf : ∀ x c, (g.classes.bind fun classes => classes.classOf x) = some c ↔ (x, c) ∈ listed
  markAttachment : g.markAttachment = .absent
  recorded : ∃ s : SynthesizedClasses, g.synthesized = some s ∧ s.Fits ∧
    s.glyphCount = glyphCount.toNat ∧
    (∀ x : GlyphId, (∃ r ∈ s.ranges, r.Has x.toNat) ↔ x ∈ listed.map Prod.fst) ∧
    ∀ x, s.get x ≤ 4

theorem markClass_of_absent {g : Gdef} (h : g.markAttachment = .absent) (x : GlyphId) :
    g.markClass x = 0 := by
  rw [markClass, markClasses?, h]

namespace Built

variable {glyphCount : UInt16} {listed : List (GlyphId × UInt16)} {g : Gdef} {x : GlyphId}

theorem property_eq (h : Built glyphCount listed g) (x : GlyphId) :
    g.property x = .ofClass (g.glyphClass x) := by
  rw [property, if_neg fun hne => hne (markClass_of_absent h.markAttachment x)]

theorem property_of_listed (h : Built glyphCount listed g) {c : UInt16} (hx : (x, c) ∈ listed) :
    g.property x = .ofClass c := by
  rw [h.property_eq, glyphClass, (h.classOf x c).mpr hx]

theorem classOf_isSome_iff (h : Built glyphCount listed g) :
    (g.classes.bind fun classes => classes.classOf x).isSome = true ↔ x ∈ listed.map Prod.fst := by
  rw [Option.isSome_iff_exists, List.mem_map]
  constructor
  · rintro ⟨c, hc⟩
    exact ⟨(x, c), (h.classOf x c).mp hc, rfl⟩
  · rintro ⟨⟨_, c⟩, hmem, rfl⟩
    exact ⟨c, (h.classOf _ c).mpr hmem⟩

theorem property_of_not_listed (h : Built glyphCount listed g) (hx : x ∉ listed.map Prod.fst)
    {s : SynthesizedClasses} (hs : g.synthesized = some s) : g.property x = .ofClass (s.get x) := by
  have hnone : (g.classes.bind fun classes => classes.classOf x) = none :=
    Option.not_isSome_iff_eq_none.mp fun hsome => hx (h.classOf_isSome_iff.mp hsome)
  rw [h.property_eq, glyphClass, hnone, hs]

/-- One call. The glyph that it is for may take the property; all other glyphs keep theirs. -/
theorem record (h : Built glyphCount listed g) (x : GlyphId) {p : GlyphProperty}
    (hp : p = .none ∨ p ∈ singleClasses) :
    ∃ next, g.record x p = .ok (decide (x ∉ listed.map Prod.fst ∧ x < glyphCount), next) ∧
      Built glyphCount listed next ∧ (∀ y, y ≠ x → next.property y = g.property y) ∧
      next.property x =
        if x ∉ listed.map Prod.fst ∧ x < glyphCount ∧ g.property x = .none then p
        else g.property x := by
  -- what is recorded, of which glyphs, and that no class is greater than four
  obtain ⟨s, hs, hfits, hcount, hranges, hbelow⟩ := h.recorded
  -- only a property with a class number can be recorded
  have hnumber : p.classNumber? ≠ none := by
    rw [Ne, classNumber?_eq_none_iff]
    rintro ⟨hnone, hsingle⟩
    exact hp.elim hnone hsingle
  obtain ⟨c, hc⟩ := Option.ne_none_iff_exists'.mp hnumber
  obtain ⟨hfour, rfl⟩ := ofClass_classNumber? hc
  unfold Gdef.record
  rw [hc]
  dsimp only
  -- the first entry for a glyph is the one in the list, if there is one
  by_cases hlisted : x ∈ listed.map Prod.fst
  case pos =>
    rw [if_pos (h.classOf_isSome_iff.mpr hlisted)]
    exact ⟨g, by simp [hlisted], h, fun _ _ => rfl, by simp [hlisted]⟩
  case neg =>
    rw [if_neg (fun hsome => hlisted (h.classOf_isSome_iff.mp hsome)), hs]
    dsimp only
    -- otherwise the record takes glyphs that the font has
    have htakes : s.takes x = true ↔ x < glyphCount := by
      rw [hfits.takes_iff, hranges, hcount, UInt16.lt_iff_toNat_lt, and_iff_left hlisted]
    -- and it is written only where there is nothing yet
    have hself : (s.record x c).get x = if x < glyphCount ∧ s.get x = 0 then c else s.get x := by
      by_cases hinside : x < glyphCount
      · rw [hfits.get_record_self (htakes.mpr hinside) (UInt16.lt_of_le_of_lt hfour (by decide))]
        simp [hinside]
      · have hplace : s.place? x = none := by
          rw [SynthesizedClasses.place?, hcount, if_neg]
          exact fun hlt => hinside (UInt16.lt_iff_toNat_lt.mpr hlt)
        simp [SynthesizedClasses.record, hplace, hinside]
    -- whichever glyph it is, the table stays one that has been built and recorded in
    have hnext : Built glyphCount listed { g with synthesized := some (s.record x c) } := by
      refine ⟨h.classOf, h.markAttachment, s.record x c, rfl, hfits.record x c, ?_, ?_, ?_⟩
      · rw [SynthesizedClasses.glyphCount_record, hcount]
      · rw [SynthesizedClasses.ranges_record]
        exact hranges
      · intro y
        by_cases hxy : y = x
        · subst hxy
          rw [hself]
          split
          · exact hfour
          · exact hbelow y
        · rw [SynthesizedClasses.get_record_of_ne hxy]
          exact hbelow y
    -- the answer, the properties of all other glyphs, and that of the glyph itself
    refine ⟨_, ?_, hnext, fun y hxy => ?_, ?_⟩
    · have hanswer : s.takes x = decide (x ∉ listed.map Prod.fst ∧ x < glyphCount) := by
        rw [Bool.eq_iff_iff, htakes, decide_eq_true_iff, and_iff_right hlisted]
      rw [hanswer]
    -- glyphs of the list have their classes from it, and the others from the record
    · by_cases hy : y ∈ listed.map Prod.fst
      · obtain ⟨⟨_, c'⟩, hmem, rfl⟩ := List.mem_map.mp hy
        rw [hnext.property_of_listed hmem, h.property_of_listed hmem]
      · rw [hnext.property_of_not_listed hy rfl, h.property_of_not_listed hy hs,
          SynthesizedClasses.get_record_of_ne hxy]
    · rw [hnext.property_of_not_listed hlisted rfl, h.property_of_not_listed hlisted hs, hself,
        apply_ite GlyphProperty.ofClass]
      simp only [hlisted, not_false_eq_true, true_and, ofClass_eq_none_iff (hbelow x)]

end Built

/-! ## §4 Any number of steps -/

/-- The table after a call that has given this. A call that fails leaves the table as it was. -/
def after (g : Gdef) (result : Except LayoutError Gdef) : Gdef :=
  match result with
  | .ok next => next
  | .error _ => g

/-- The table after a property has been recorded for a glyph. -/
def afterRecord (g : Gdef) (call : GlyphId × GlyphProperty) : Gdef :=
  g.after ((g.record call.1 call.2).map Prod.snd)

/-- The table after properties have been recorded for several glyphs, one after the other. -/
def recordAll (g : Gdef) (calls : List (GlyphId × GlyphProperty)) : Gdef :=
  calls.foldl afterRecord g

/-- The first property for a glyph, among the calls, that stands for a single class. -/
def firstRecorded (calls : List (GlyphId × GlyphProperty)) (x : GlyphId) : GlyphProperty :=
  ((calls.find? fun call => call.1 == x && singleClasses.contains call.2).map Prod.snd).getD .none

theorem record_invalid {p : GlyphProperty} (hnone : p ≠ .none) (hsingle : p ∉ singleClasses)
    (g : Gdef) (x : GlyphId) : g.record x p = .error .invalidArgument := by
  rw [Gdef.record, classNumber?_eq_none_iff.mpr ⟨hnone, hsingle⟩]

namespace Built

variable {glyphCount : UInt16} {listed : List (GlyphId × UInt16)} {g : Gdef} {x : GlyphId}

/-- One call, whatever its property. -/
theorem afterRecord (h : Built glyphCount listed g) (call : GlyphId × GlyphProperty) :
    Built glyphCount listed (g.afterRecord call) ∧
      ∀ y, (g.afterRecord call).property y =
        if y = call.1 ∧ call.2 ∈ singleClasses ∧ y ∉ listed.map Prod.fst ∧ y < glyphCount ∧
          g.property y = .none then call.2 else g.property y := by
  by_cases hp : call.2 = .none ∨ call.2 ∈ singleClasses
  case neg =>
    obtain ⟨hnone, hsingle⟩ := not_or.mp hp
    rw [Gdef.afterRecord, record_invalid hnone hsingle, Except.map, after]
    exact ⟨h, fun y => by simp [hsingle]⟩
  case pos =>
    obtain ⟨next, hnext, hbuilt, hothers, hself⟩ := h.record call.1 hp
    rw [Gdef.afterRecord, hnext, Except.map, after]
    refine ⟨hbuilt, fun y => ?_⟩
    by_cases hy : y = call.1
    · subst hy
      rw [hself]
      -- without a class there is nothing to be recorded
      grind
    · rw [hothers y hy]
      simp [hy]

theorem recordAll (h : Built glyphCount listed g) (calls : List (GlyphId × GlyphProperty)) :
    Built glyphCount listed (g.recordAll calls) := by
  induction calls generalizing g with
  | nil => exact h
  | cons call calls ih => exact ih (h.afterRecord call).1

/-- A glyph that has a property keeps it. One that has none, is not listed and is in the font gets
    the first that is recorded. -/
theorem property_recordAll (h : Built glyphCount listed g) (calls : List (GlyphId × GlyphProperty))
    (x : GlyphId) :
    (g.recordAll calls).property x =
      if x ∉ listed.map Prod.fst ∧ x < glyphCount ∧ g.property x = .none then
        firstRecorded calls x
      else g.property x := by
  -- a call is done first and the others are done on what it leaves
  induction calls generalizing g with
  | nil =>
    split
    case isTrue hnone => exact hnone.2.2
    case isFalse => rfl
  | cons call calls ih =>
    obtain ⟨hbuilt, hproperty⟩ := h.afterRecord call
    have hfirst : firstRecorded (call :: calls) x =
        if x = call.1 ∧ call.2 ∈ singleClasses then call.2 else firstRecorded calls x := by
      unfold firstRecorded
      rw [List.find?_cons]
      grind
    have hsingle : call.2 ∈ singleClasses → call.2 ≠ .none := by
      rintro hmem hnone
      exact absurd (hnone ▸ hmem) (by decide)
    change ((g.afterRecord call).recordAll calls).property x = _
    rw [ih hbuilt, hproperty, hfirst]
    grind

end Built

/-- What is built is what is listed, and nothing is recorded yet. -/
theorem built_of_listable {g : Gdef} {glyphCount : UInt16} {glyphs classes : Array UInt16}
    (hnone : g.classes = none) (h : Listable glyphCount glyphs classes) :
    ∃ built, g.build glyphCount glyphs classes = .ok built ∧
      Built glyphCount (glyphs.zip classes).toList built ∧
      ∀ x, x ∉ glyphs → built.property x = .none := by
  -- the checks of the list, in the form in which the ranges need them
  have hvalid := listIsValid_iff.mpr h
  have hfsts : (glyphs.zip classes).toList.map Prod.fst = glyphs.toList := by
    rw [Array.toList_zip]
    exact List.map_fst_zip (Nat.le_of_eq h.sizes)
  have hascending : ((glyphs.zip classes).toList.map Prod.fst).Pairwise (· < ·) :=
    hfsts ▸ h.ascending
  have hinside : ∀ a ∈ (glyphs.zip classes).toList, a.1.toNat < glyphCount.toNat := fun a ha =>
    UInt16.lt_iff_toNat_lt.mp
      (h.inside a.1 (Array.mem_toList_iff.mp (hfsts ▸ List.mem_map_of_mem ha)))
  have hlist : ClassRange.ofGlyphs (glyphs.zip classes) = (glyphs.zip classes).toList.foldr
      (fun a ranges => ClassRange.consGlyph a.1 a.2 ranges) [] := by
    rw [ClassRange.ofGlyphs, ← Array.foldr_toList]
  -- the ranges come in order, with the classes that the glyphs have in the list
  have hapart : ClassRange.Apart glyphCount.toNat 0 (ClassRange.ofGlyphs (glyphs.zip classes)) :=
    hlist ▸ ClassRange.apart_foldr hascending (fun _ _ => Nat.zero_le _) hinside
  have hgives : ∀ x c, ClassRange.Gives (ClassRange.ofGlyphs (glyphs.zip classes)) x c ↔
      (x, c) ∈ (glyphs.zip classes).toList := fun x c =>
    hlist ▸ ClassRange.gives_foldr_iff hascending
  unfold build
  rw [hnone, hvalid]
  have hbuilt : Built glyphCount (glyphs.zip classes).toList
      { g with
        classes := some (.ranges (ClassRange.ofGlyphs (glyphs.zip classes)).toArray)
        synthesized := some (.ofRanges glyphCount.toNat (ClassRange.ofGlyphs (glyphs.zip classes)))
        markAttachment := .absent } := by
    -- what the ranges give is what the list says, and nothing has been recorded yet
    refine ⟨fun x c => ?_, rfl, _, rfl, SynthesizedClasses.fits_ofRanges hapart, rfl, fun x => ?_,
      fun x => ?_⟩
    · rw [← hgives, Option.bind_some, ClassDef.classOf_ranges_iff]
      · simp [ClassRange.Gives]
      · exact fun r hr => hapart.first_le_last (List.mem_toArray.mp hr)
      · exact hapart.pairwise
    · rw [List.mem_map]
      constructor
      · rintro ⟨r, hr, hhas⟩
        exact ⟨(x, r.value), (hgives x r.value).mp ⟨r, hr, hhas, rfl⟩, rfl⟩
      · rintro ⟨⟨_, c⟩, hmem, rfl⟩
        obtain ⟨r, hr, hhas, -⟩ := (hgives _ c).mpr hmem
        exact ⟨r, hr, hhas⟩
    · rw [SynthesizedClasses.get_ofRanges]
      decide
  refine ⟨_, rfl, hbuilt, fun x hx => ?_⟩
  have hlisted : x ∉ (glyphs.zip classes).toList.map Prod.fst := by
    rw [hfsts, Array.mem_toList_iff]
    exact hx
  rw [hbuilt.property_of_not_listed hlisted rfl, SynthesizedClasses.get_ofRanges]
  rfl

theorem build_of_not_listable {glyphCount : UInt16} {glyphs classes : Array UInt16}
    (h : ¬ Listable glyphCount glyphs classes) (g : Gdef) :
    g.build glyphCount glyphs classes = .error .invalidArgument := by
  have hinvalid : listIsValid glyphCount glyphs classes = false :=
    Bool.eq_false_iff.mpr fun hvalid => h (listIsValid_iff.mp hvalid)
  rw [build, hinvalid, Bool.and_false]
  rfl

/-- Classes are built if the list is in order; otherwise the table stays without any. From then on,
    whatever is recorded, a glyph in the list has the class that it has there, and any other glyph
    of the font has the first class that is recorded for it. -/
theorem build_keepsFirst {g : Gdef} (hnone : g.classes = none) (glyphCount : UInt16)
    (glyphs classes : Array UInt16) :
    (¬ Listable glyphCount glyphs classes →
      g.build glyphCount glyphs classes = .error .invalidArgument ∧
        g.after (g.build glyphCount glyphs classes) = g) ∧
    (Listable glyphCount glyphs classes → ∃ built, g.build glyphCount glyphs classes = .ok built ∧
      ∀ calls : List (GlyphId × GlyphProperty),
        let table := built.recordAll calls
        (∀ (i : Nat) (x : GlyphId) (c : UInt16), glyphs[i]? = some x → classes[i]? = some c →
          table.property x = .ofClass c) ∧
        (∀ x, x ∉ glyphs →
          table.property x = if x < glyphCount then firstRecorded calls x else .none) ∧
        ∀ (x : GlyphId) (p : GlyphProperty),
          (p = .none ∨ p ∈ singleClasses →
            ∃ next, table.record x p = .ok (decide (x ∉ glyphs ∧ x < glyphCount), next)) ∧
          (¬ (p = .none ∨ p ∈ singleClasses) → table.record x p = .error .invalidArgument ∧
            table.afterRecord (x, p) = table) ∧
          ∀ y, y ≠ x → (table.afterRecord (x, p)).property y = table.property y) := by
  -- a list that is not in order leaves the table without classes
  refine ⟨fun hlist => ?_, fun hlist => ?_⟩
  · rw [build_of_not_listable hlist]
    exact ⟨rfl, rfl⟩
  obtain ⟨built, hbuild, hbuilt, hothers⟩ := built_of_listable hnone hlist
  have hmem : ∀ x, x ∈ (glyphs.zip classes).toList.map Prod.fst ↔ x ∈ glyphs := by
    intro x
    rw [Array.toList_zip, List.map_fst_zip (Nat.le_of_eq hlist.sizes), Array.mem_toList_iff]
  -- glyphs of the list, all others, and one call more after any number of calls
  refine ⟨built, hbuild, fun calls => ⟨fun i x c hx hc => ?_, fun x hx => ?_, fun x p =>
    ⟨fun hp => ?_, fun hp => ?_, fun y hy => ?_⟩⟩⟩
  · refine (hbuilt.recordAll calls).property_of_listed ?_
    rw [Array.mem_toList_iff]
    exact Array.mem_of_getElem? (Array.getElem?_zip_eq_some.mpr ⟨hx, hc⟩)
  · rw [hbuilt.property_recordAll, hothers x hx]
    simp only [hmem, hx, not_false_eq_true, true_and, and_true]
  · obtain ⟨next, hnext, -⟩ := (hbuilt.recordAll calls).record x hp
    simp only [hmem] at hnext
    exact ⟨next, hnext⟩
  · obtain ⟨hpnone, hpsingle⟩ := not_or.mp hp
    have herror := record_invalid hpnone hpsingle (built.recordAll calls) x
    exact ⟨herror, by rw [afterRecord, herror, Except.map, after]⟩
  · rw [((hbuilt.recordAll calls).afterRecord (x, p)).2 y, if_neg fun h => hy h.1]

/-- Glyphs 5, 6 and 20 of a font with forty glyphs are listed. What is recorded for 7 first is kept,
    and nothing is recorded for 6 and 45. -/
theorem build_keepsFirst_forty :
    Gdef.empty.build 40 #[5, 5, 20] #[1, 1, 3] = .error .invalidArgument ∧
    ∃ built, Gdef.empty.build 40 #[5, 6, 20] #[1, 1, 3] = .ok built ∧
      let table := built.recordAll [(7, .mark), (6, .mark), (7, .base), (45, .base)]
      table.property 6 = .base ∧ table.property 7 = .mark ∧ table.property 45 = .none ∧
        ∃ next, table.record 7 .base = .ok (true, next) := by
  have hnone : Gdef.empty.classes = none := rfl
  have hapart : ¬ Listable 40 #[5, 5, 20] #[1, 1, 3] := fun h => absurd h.ascending (by decide)
  have hlist : Listable 40 #[5, 6, 20] #[1, 1, 3] := listIsValid_iff.mp (by decide +kernel)
  obtain ⟨built, hbuild, hall⟩ := (build_keepsFirst hnone 40 #[5, 6, 20] #[1, 1, 3]).2 hlist
  obtain ⟨hlisted, hothers, hcalls⟩ := hall [(7, .mark), (6, .mark), (7, .base), (45, .base)]
  have h7 : (7 : GlyphId) ∉ (#[5, 6, 20] : Array GlyphId) := by simp
  obtain ⟨next, hnext⟩ := (hcalls 7 .base).1 (by decide)
  rw [decide_eq_true ⟨h7, by decide⟩] at hnext
  refine ⟨((build_keepsFirst hnone 40 #[5, 5, 20] #[1, 1, 3]).1 hapart).1, built, hbuild, ?_, ?_,
    ?_, next, hnext⟩
  · exact hlisted 1 6 1 rfl rfl
  · exact hothers 7 h7
  · exact hothers 45 (by simp)

end Gdef

end OpenTypeLayout
