import OpenTypeLayout.Proofs.RecordedClasses
import OpenTypeLayout.Proofs.Settled
import OpenTypeLayout.Proofs.Substitution.Counts
import OpenTypeLayout.Proofs.Substitution.Emission
import OpenTypeLayout.Proofs.Substitution.Failures
import OpenTypeLayout.Proofs.Substitution.Parts
import OpenTypeLayout.Proofs.Substitution.Passes

/-!
# Forming the ligatures of a text

What one lookup that forms ligatures makes of a text can be said without going through the text in
passes. Where the font takes the ligatures for ligatures, recording their classes changes nothing,
so the same glyphs are skipped from the front to the end.

- `ligatureAt` is the ligature that is formed at a place.
- `ligatedFrom` is the text from a place on, when the ligatures have been formed.
- `SubstM.bareText_of_substitute` says that this is the text that substitution leaves.
-/

namespace OpenTypeLayout

/-! ## §1 Ligatures of a text -/

/-- The first ligature that is found at a place, where the subtables are tried in order. -/
def ligatureIn (f : GlyphFilter) (items : Array GlyphItem) (place : Nat) (glyph : GlyphId)
    (isMark : Bool) : List LigatureSubst → Option (GlyphId × LigatureMatch)
  | [] => none
  | subtable :: rest =>
    match subtable.find glyph with
    | .ok (some ligatures) =>
      (firstLigature f noContext items place isMark ligatures.toList (place + 1)).1.or
        (ligatureIn f items place glyph isMark rest)
    | _ => ligatureIn f items place glyph isMark rest

/-- The ligature that is formed at a place, with the places of the components after the
    first one. -/
def ligatureAt (f : GlyphFilter) (subtables : List LigatureSubst) (items : Array GlyphItem)
    (place : Nat) : Option (GlyphId × List Nat) :=
  items[place]?.bind fun item =>
    (Gdef.check f.table f.flag item).bind fun p =>
      (ligatureIn f items place item.glyph p.isMark subtables).map fun (glyph, m) =>
        (glyph, m.places.tail)

/-- The text from a place on, when ligatures have been formed. The first of them has the number
    `number`. -/
def ligatedFrom (f : GlyphFilter) (subtables : List LigatureSubst) (items : Array GlyphItem) :
    (rounds place : Nat) → (number : UInt16) → List GlyphItem
  | 0, _, _ => []
  | rounds + 1, place, number =>
    match items[place]? with
    | none => []
    | some item =>
      match ligatureAt f subtables items place with
      | none => item :: ligatedFrom f subtables items rounds (place + 1) number
      | some (glyph, others) =>
        GlyphBuffer.replacement item inherit number glyph ::
          ((GlyphBuffer.carried items number 0 (place + 1) others).toList ++
            ligatedFrom f subtables items rounds (others.getLastD place + 1) (number + 1))

/-- A ligature that is formed. -/
structure FormedLigature where
  /-- The ligature. -/
  glyph : GlyphId
  /-- Where it is in the text that is written. -/
  index : Nat
  /-- Where its first component is in the text that is read. -/
  first : Nat
  /-- Where its other components are. -/
  others : List Nat
deriving DecidableEq, Repr, Inhabited

namespace FormedLigature

/-- The places of the components. -/
def places (l : FormedLigature) : List Nat := l.first :: l.others

/-- The place of the last component. -/
def last (l : FormedLigature) : Nat := l.others.getLastD l.first

/-- How far behind the ligature a glyph is that follows the component with number `k`, or a glyph
    that comes before the next one. -/
def distance (l : FormedLigature) (k place : Nat) : Nat := place - l.first - k

end FormedLigature

/-- The ligatures that are formed from a place on, where the next glyph is written at an index. -/
def formedFrom (f : GlyphFilter) (subtables : List LigatureSubst) (items : Array GlyphItem) :
    (rounds place index : Nat) → List FormedLigature
  | 0, _, _ => []
  | rounds + 1, place, index =>
    match ligatureAt f subtables items place with
    | none => formedFrom f subtables items rounds (place + 1) (index + 1)
    | some (glyph, others) =>
      let l : FormedLigature := { glyph, index, first := place, others }
      l :: formedFrom f subtables items rounds (l.last + 1)
        (index + 1 + l.distance others.length l.last)

/-- The ligatures of a text. -/
def formedLigatures (f : GlyphFilter) (subtables : Array LigatureSubst) (items : Array GlyphItem) :
    List FormedLigature := formedFrom f subtables.toList items items.size 0 0

section

variable {f : GlyphFilter} {subtables : List LigatureSubst} {items : Array GlyphItem}
variable {rounds place index : Nat}

/-- No ligature begins with a glyph that is skipped. -/
theorem ligatureAt_of_not_admits (h : items[place]?.any f.admits = false) :
    ligatureAt f subtables items place = none := by
  unfold ligatureAt
  cases hitem : items[place]? with
  | none => rfl
  | some item =>
    rw [hitem, Option.any_some, GlyphFilter.admits, Gdef.admits, Option.isSome_eq_false_iff,
      Option.isNone_iff_eq_none] at h
    rw [Option.bind_some, h, Option.bind_none]

/-- No ligature is formed past the end of the text. -/
theorem formedFrom_of_end (h : items.size ≤ place) :
    formedFrom f subtables items rounds place index = [] := by
  induction rounds generalizing place index with
  | zero => rfl
  | succ rounds ih =>
    have hnone : ligatureAt f subtables items place = none :=
      ligatureAt_of_not_admits (by rw [Array.getElem?_eq_none_iff.mpr h, Option.any_none])
    rw [formedFrom, hnone]
    exact ih (Nat.le_succ_of_le h)

end

/-! ## §2 Texts that settle to the same one -/

section

variable {table : Option Gdef} {items items' : Array GlyphItem}

theorem ligatureIn_of_settled (h : settled table items' = settled table items) (flag : LookupFlag)
    (place : Nat) (glyph : GlyphId) (isMark : Bool) (subtables : List LigatureSubst) :
    ligatureIn ⟨table, flag⟩ items' place glyph isMark subtables =
      ligatureIn ⟨table, flag⟩ items place glyph isMark subtables := by
  induction subtables with
  | nil => rfl
  | cons subtable rest ih =>
    simp only [ligatureIn, ih, (TextsAlike.of_settled h).firstLigature]

theorem ligatureAt_of_settled (h : settled table items' = settled table items) (flag : LookupFlag)
    (subtables : List LigatureSubst) (place : Nat) :
    ligatureAt ⟨table, flag⟩ subtables items' place =
      ligatureAt ⟨table, flag⟩ subtables items place := by
  unfold ligatureAt
  cases hitem' : items'[place]? with
  | none =>
    have hend : items[place]? = none := by
      rw [Array.getElem?_eq_none_iff] at hitem' ⊢
      rw [← size_of_settled h]
      exact hitem'
    rw [hend, Option.bind_none, Option.bind_none]
  | some item' =>
    obtain ⟨item, hitem, hsame⟩ := getElem?_of_settled h hitem'
    rw [hitem]
    simp only [Option.bind_some, Gdef.glyph_of_remember hsame, Gdef.check_of_remember hsame flag,
      ligatureIn_of_settled h]

end

/-! ## §3 Where components are found -/

/-- What is found is one of the ligatures. -/
theorem exists_search_of_firstLigature {f : GlyphFilter} {contextLength : UInt16}
    {items : Array GlyphItem} {index : Nat} {isMark : Bool} {ligatures : List Ligature}
    {bound bound' : Nat} {glyph : GlyphId} {m : LigatureMatch}
    (h : firstLigature f contextLength items index isMark ligatures bound =
      (some (glyph, m), bound')) :
    ∃ l ∈ ligatures, l.glyph = glyph ∧
      ∃ seen, l.search f contextLength items index isMark = (some m, seen) := by
  induction ligatures generalizing bound with
  | nil => cases h
  | cons l rest ih =>
    rw [firstLigature] at h
    split at h
    case h_1 m' seen hsearch =>
      simp only [Prod.mk.injEq, Option.some.injEq] at h
      obtain ⟨⟨rfl, rfl⟩, -⟩ := h
      exact ⟨l, List.mem_cons_self, rfl, seen, hsearch⟩
    case h_2 =>
      obtain ⟨l', hl', hrest⟩ := ih h
      exact ⟨l', List.mem_cons_of_mem l hl', hrest⟩

/-- The places of components: the first one, and then each time the next glyph that counts. -/
structure Strings (f : GlyphFilter) (items : Array GlyphItem) (place : Nat) (others : List Nat) :
    Prop where
  found : f.Found items place (place :: others)
  consecutive : ∀ (k p p' : Nat), (place :: others)[k]? = some p →
    (place :: others)[k + 1]? = some p' → f.next? items p = some p'

theorem strings_of_search {l : Ligature} {f : GlyphFilter} {contextLength : UInt16}
    {items : Array GlyphItem} {index : Nat} {isMark : Bool} {m : LigatureMatch} {seen : Nat}
    (h : l.search f contextLength items index isMark = (some m, seen)) :
    m.places = index :: m.places.tail ∧ Strings f items index m.places.tail ∧
      m.places.length = l.count := by
  obtain ⟨hfound, hlength⟩ := Ligature.search_eq_some h
  obtain ⟨tail, htail⟩ := List.head?_eq_some_iff.mp hfound.head
  have hcons : m.places = index :: m.places.tail := by rw [htail, List.tail_cons]
  refine ⟨hcons, ⟨hcons ▸ hfound, ?_⟩, hlength⟩
  rw [← hcons]
  -- a search succeeds only after its places have been matched one by one
  rw [Ligature.search] at h
  split at h
  case isFalse => cases h
  case isTrue =>
    obtain ⟨hplaces, -⟩ := GlyphFilter.matchComponents_places h
    intro k p p' hp hp'
    -- two places in a row are those of two counts in a row, and one step leads from one to the
    -- other
    rw [hplaces, GlyphFilter.getElem?_places] at hp hp'
    split at hp'
    case isFalse => cases hp'
    case isTrue hle =>
      rw [if_pos (Nat.le_of_succ_le hle)] at hp
      rw [GlyphFilter.nth?_add, hp, Option.bind_some] at hp'
      obtain ⟨next, hnext, hlast⟩ := GlyphFilter.nth?_succ_eq_some.mp hp'
      exact hnext.trans hlast

theorem exists_of_ligatureIn {f : GlyphFilter} {items : Array GlyphItem} {place : Nat}
    {first glyph : GlyphId} {isMark : Bool} {subtables : List LigatureSubst} {m : LigatureMatch}
    (h : ligatureIn f items place first isMark subtables = some (glyph, m)) :
    ∃ subtable ∈ subtables, ∃ ligatures ∈ subtable.entries, ∃ l ∈ ligatures, l.glyph = glyph ∧
      m.places = place :: m.places.tail ∧ Strings f items place m.places.tail ∧
        m.places.length = l.count := by
  -- as in the search itself, a subtable without a ligature leaves it to the next one
  induction subtables with
  | nil => cases h
  | cons subtable rest ih =>
    rw [ligatureIn] at h
    split at h
    case h_2 =>
      obtain ⟨subtable', hmem, hfound⟩ := ih h
      exact ⟨subtable', List.mem_cons_of_mem subtable hmem, hfound⟩
    case h_1 ligatures hfind =>
      rcases hsearch :
          firstLigature f noContext items place isMark ligatures.toList (place + 1) with
        ⟨found, bound⟩
      rw [hsearch] at h
      cases found with
      | none =>
        obtain ⟨subtable', hmem, hfound⟩ := ih h
        exact ⟨subtable', List.mem_cons_of_mem subtable hmem, hfound⟩
      | some found =>
        cases h
        obtain ⟨l, hl, hglyph, seen, hfound⟩ := exists_search_of_firstLigature hsearch
        exact ⟨subtable, List.mem_cons_self, ligatures, CoverageMap.mem_of_find hfind, l,
          Array.mem_toList_iff.mp hl, hglyph, strings_of_search hfound⟩

/-! ## §4 Recording classes -/

theorem SynthesizedClasses.record_of_get_ne_zero {s : SynthesizedClasses} {glyph : GlyphId}
    (h : s.get glyph ≠ 0) (value : UInt16) : s.record glyph value = s := by
  cases hplace : s.place? glyph with
  | none => exact absurd (get_of_no_place hplace) h
  | some p =>
    rw [record_of_place? hplace]
    rw [get_of_place? hplace] at h
    -- recording changes a class only where it is zero, so no gap is changed
    have hgaps : (s.gaps.modify p.gap fun c => c.record p.place value) = s.gaps := by
      apply Array.ext_getElem?
      intro i
      rw [Array.getElem?_modify]
      split
      case isFalse => rfl
      case isTrue hsame =>
        subst hsame
        unfold classAt at h
        cases hgap : s.gaps[p.gap]? with
        | none => rfl
        | some c =>
          rw [hgap, Option.map_some, Option.getD_some] at h
          rw [Option.map_some, PackedClasses.record, if_neg h]
    rw [hgaps]

/-- Recording any class for a glyph that is known as a ligature changes nothing. -/
theorem Gdef.record_of_ligature {g : Gdef} {glyph : GlyphId} (h : g.property glyph = .ligature)
    {p : GlyphProperty} {c : UInt16} (hc : p.classNumber? = some c) :
    ∃ takes, g.record glyph p = .ok (takes, g) := by
  -- a mark would carry a mark attachment class, so the property comes from the glyph class
  have hclass : g.glyphClass glyph ≠ 0 := by
    intro hzero
    unfold property at h
    split at h
    case isTrue =>
      have hmark := GlyphProperty.markAttachment_ofMarkAttachment (g.markClass glyph)
      rw [h] at hmark
      exact absurd hmark (by decide)
    case isFalse =>
      rw [hzero] at h
      cases h
  unfold record
  rw [hc]
  dsimp only
  -- where the font defines classes, or keeps no record, nothing is written
  split
  case isTrue => exact ⟨false, rfl⟩
  case isFalse hnone =>
    cases hsynthesized : g.synthesized with
    | none => exact ⟨false, rfl⟩
    | some recorded =>
      refine ⟨recorded.takes glyph, ?_⟩
      -- otherwise the class has been recorded before, and the first entry stays
      have hget : recorded.get glyph ≠ 0 := by
        rw [Option.not_isSome_iff_eq_none] at hnone
        rw [glyphClass, hnone, hsynthesized] at hclass
        exact hclass
      dsimp only
      rw [SynthesizedClasses.record_of_get_ne_zero hget, ← hsynthesized]

/-! ## §5 One ligature -/

/-- All ligatures have counts of sixteen bits, and the font takes them for ligatures. -/
def TakenForLigatures (g : Gdef) (subtables : List LigatureSubst) : Prop :=
  ∀ subtable ∈ subtables, ∀ ligatures ∈ subtable.entries, ∀ l ∈ ligatures,
    l.count ≤ 0xFFFF ∧ g.property l.glyph = .ligature

theorem takenForLigatures_of_ofWindow {g : Gdef} {layout : LayoutTable Substitution} {w : Window}
    (hread : LayoutTable.ofWindow w = .ok layout) {index : Nat} {flag : LookupFlag}
    {subtables : Array LigatureSubst}
    (hlookup : layout.lookup index = .ok ⟨flag, .ligature subtables⟩)
    (hligatures : ∀ subtable ∈ subtables, ∀ ligatures ∈ subtable.entries, ∀ l ∈ ligatures,
      g.property l.glyph = .ligature) : TakenForLigatures g subtables.toList := by
  intro m hm ligatures hentry l hl
  have hwords : (Substitution.ligature subtables).WithinWords :=
    LayoutTable.subtables_of_ofWindow Substitution.ensures_load hread hlookup
  have hm := Array.mem_toList_iff.mp hm
  exact ⟨Substitution.withinWords_ligature.mp hwords m hm ligatures hentry l hl,
    hligatures m hm ligatures hentry l hl⟩

namespace SubstM

open Program

variable {σ : Type} {g : Gdef} {s s' t : SubstState σ}

/-- Glyphs have been looked at, and nothing else has happened. -/
structure Looks (g : Gdef) (s t : SubstState σ) : Prop where
  gdef : t.gdef = s.gdef
  input : settled (some g) t.buffer.input = settled (some g) s.buffer.input
  position : t.buffer.position = s.buffer.position
  output : t.buffer.output = s.buffer.output
  nextLigature : t.buffer.nextLigature = s.buffer.nextLigature

theorem Looks.refl (g : Gdef) (s : SubstState σ) : Looks g s s := ⟨rfl, rfl, rfl, rfl, rfl⟩

theorem Looks.trans (h : Looks g s t) (h' : Looks g t s') : Looks g s s' where
  gdef := h'.gdef.trans h.gdef
  input := h'.input.trans h.input
  position := h'.position.trans h.position
  output := h'.output.trans h.output
  nextLigature := h'.nextLigature.trans h.nextLigature

theorem Looks.rememberRange (hgdef : s.gdef = some g) (low high : Nat) :
    Looks g s { s with buffer := { s.buffer with
      input := OpenTypeLayout.rememberRange s.gdef s.buffer.input low high } } where
  gdef := rfl
  input := by rw [hgdef, settled_rememberRange]
  position := rfl
  output := rfl
  nextLigature := rfl

theorem Looks.size (h : Looks g s t) : t.buffer.size = s.buffer.size := size_of_settled h.input

/-- Where nothing is found, glyphs are looked at only; a ligature that is found is written. -/
inductive Forms (g : Gdef) (s : SubstState σ) :
    Option (GlyphId × List Nat) → Bool → SubstState σ → Prop
  | nothing {s' : SubstState σ} (hlooks : Looks g s s') : Forms g s none false s'
  | ligature {t : SubstState σ} {first : GlyphItem} {glyph : GlyphId} {others : List Nat}
      (hlooks : Looks g s t) (hfirst : t.buffer.current? = some first) :
      Forms g s (some (glyph, others)) true
        { t with buffer := t.buffer.ligated first glyph (t.buffer.position :: others) }

theorem Forms.of_looks {found : Option (GlyphId × List Nat)} {applied : Bool} (h : Looks g s t)
    (h' : Forms g t found applied s') : Forms g s found applied s' := by
  cases h' with
  | nothing hlooks => exact .nothing (h.trans hlooks)
  | ligature hlooks hfirst => exact .ligature (h.trans hlooks) hfirst

theorem outcome_recordClass_of_ligature {glyph : GlyphId} (hgdef : s.gdef = some g)
    (hproperty : g.property glyph = .ligature) {p : GlyphProperty} {c : UInt16}
    (hc : p.basic.classNumber? = some c) :
    (recordClass p glyph).outcome s = (.ok (), s) := by
  unfold recordClass
  rw [outcome_bind_ok (outcome_get s), hgdef]
  dsimp only
  split
  case isFalse => rfl
  case isTrue =>
    obtain ⟨takes, hrecord⟩ := Gdef.record_of_ligature hproperty hc
    rw [hrecord]
    refine (outcome_bind_ok (outcome_lift _ s)).trans ?_
    exact congrArg (fun table => (Except.ok (), { s with gdef := table })) hgdef.symm

theorem looks_of_findLigature {flag : LookupFlag} {contextLength : UInt16} {isMark : Bool}
    {ligatures : List Ligature} {found : Option (GlyphId × LigatureMatch)} (hgdef : s.gdef = some g)
    (hrun : (findLigature flag contextLength isMark ligatures).outcome s = (.ok found, t)) :
    Looks g s t ∧
      found = (firstLigature ⟨some g, flag⟩ contextLength s.buffer.input s.buffer.position
        isMark ligatures (s.buffer.position + 1)).1 := by
  rw [outcome_findLigature] at hrun
  dsimp only at hrun
  rw [← hgdef]
  obtain ⟨hfound, rfl⟩ := Prod.mk.inj hrun
  exact ⟨.rememberRange hgdef _ _, (Except.ok.inj hfound).symm⟩

/-- A ligature that has been matched is written. -/
theorem forms_of_search {flag : LookupFlag} {contextLength : UInt16} {isMark : Bool} {l : Ligature}
    {m : LigatureMatch} {seen : Nat} {applied : Bool}
    (hgdef : s.gdef = some g) (hlooks : Looks g s t) (hlt : s.buffer.position < s.buffer.size)
    (hsearch : l.search ⟨some g, flag⟩ contextLength s.buffer.input s.buffer.position isMark =
      (some m, seen))
    (hcount : l.count ≤ 0xFFFF) (hproperty : g.property l.glyph = .ligature)
    (hrun : (do
      recordClass (if m.allMarks then .mark else .ligature) l.glyph
      emitLigature l.glyph m.places
      return true : SubstM σ Bool).outcome t = (.ok applied, s')) :
    Forms g s (some (l.glyph, m.places.tail)) applied s' := by
  -- what is left is to run the three steps, each of which is known to succeed
  obtain ⟨hcons, hstrings, hlength⟩ := strings_of_search hsearch
  -- the class that is recorded is that of a mark or of a ligature, never nothing
  obtain ⟨c, hc⟩ : ∃ c, (if m.allMarks then GlyphProperty.mark else .ligature).basic.classNumber? =
      some c := by
    split
    · exact ⟨3, by decide⟩
    · exact ⟨2, by decide⟩
  rw [outcome_bind_ok
      (outcome_recordClass_of_ligature (hlooks.gdef.trans hgdef) hproperty hc)] at hrun
  -- the glyphs that have been looked at are as many as before, and stand at the same places
  have hlt' : t.buffer.position < t.buffer.size := by
    rw [hlooks.position, hlooks.size]
    exact hlt
  obtain ⟨first, hfirst⟩ := GlyphBuffer.exists_current? hlt'
  have hascending := hstrings.found.ascending
  rw [hcons, ← hlooks.position] at hrun
  rw [← hlooks.position] at hascending
  have hinside : ∀ q ∈ t.buffer.position :: m.places.tail, q < t.buffer.size := by
    rw [hlooks.position, hlooks.size]
    exact fun q hq => hstrings.found.lt_of_mem hlt hq
  have hsmall : (t.buffer.position :: m.places.tail).length ≤ 0xFFFF := by
    rw [hlooks.position, ← hcons, hlength]
    exact hcount
  rw [outcome_bind_ok (outcome_emitLigature hfirst l.glyph hascending rfl hinside hsmall)] at hrun
  cases hrun
  exact .ligature hlooks hfirst

/-- The ligature that the subtables have is the one that is formed. -/
theorem forms_applyLigature {flag : LookupFlag} {subtables : List LigatureSubst}
    (hligatures : TakenForLigatures g subtables) (hgdef : s.gdef = some g)
    (hlt : s.buffer.position < s.buffer.size) {item : GlyphItem}
    {p : GlyphProperty} {applied : Bool}
    (hrun : (applyLigature flag noContext item p subtables).outcome s = (.ok applied, s')) :
    Forms g s ((ligatureIn ⟨some g, flag⟩ s.buffer.input s.buffer.position item.glyph p.isMark
      subtables).map fun (glyph, m) => (glyph, m.places.tail)) applied s' := by
  -- the subtables are tried in order, and all that happens between two of them is looking at glyphs
  induction subtables generalizing s with
  | nil =>
    cases hrun
    exact .nothing (.refl g _)
  | cons subtable rest ih =>
    rw [applyLigature_cons] at hrun
    obtain ⟨found, _, hlift, hrun⟩ := outcome_bind_eq_ok hrun
    obtain ⟨hfind, rfl⟩ := Prod.mk.inj hlift
    have hfind := LayoutError.ofParse_eq_ok hfind
    have hrest : TakenForLigatures g rest :=
      fun m hm => hligatures m (List.mem_cons_of_mem subtable hm)
    cases found with
    | none =>
      rw [ligatureIn, hfind]
      exact ih hrest hgdef hlt hrun
    | some ligatures =>
      obtain ⟨found, t, hlook, hrun⟩ := outcome_bind_eq_ok hrun
      obtain ⟨hlooks, hfound⟩ := looks_of_findLigature hgdef hlook
      rw [ligatureIn, hfind]
      dsimp only
      rw [← hfound]
      cases found with
      -- none of the ligatures of this subtable is spelled
      | none =>
        have hlt' : t.buffer.position < t.buffer.size := by
          rw [hlooks.position, hlooks.size]
          exact hlt
        have hforms := ih hrest (hlooks.gdef.trans hgdef) hlt' hrun
        rw [ligatureIn_of_settled hlooks.input, hlooks.position] at hforms
        exact hforms.of_looks hlooks
      -- one of them is spelled, and it is the first one
      | some found =>
        obtain ⟨glyph, m⟩ := found
        obtain ⟨l, hl, rfl, seen, hsearch⟩ := exists_search_of_firstLigature
          (Prod.ext hfound.symm rfl : firstLigature _ _ _ _ _ _ _ = (_, _))
        obtain ⟨hcount, hproperty⟩ := hligatures subtable List.mem_cons_self ligatures
          (CoverageMap.mem_of_find hfind) l (Array.mem_toList_iff.mp hl)
        exact forms_of_search hgdef hlooks hlt hsearch hcount hproperty hrun

theorem looks_of_current {flag : LookupFlag} {found : Option (GlyphItem × GlyphProperty)}
    (hgdef : s.gdef = some g) (hrun : (current flag).outcome s = (.ok found, t)) :
    Looks g s t ∧ ∃ x, s.buffer.current? = some x ∧
      found = (Gdef.check (some g) flag x).map fun p => (x, p) := by
  unfold current at hrun
  rw [outcome_bind_ok (outcome_get s)] at hrun
  cases hx : s.buffer.current? with
  | none =>
    rw [GlyphBuffer.current, hx] at hrun
    cases hrun
  | some x =>
    rw [GlyphBuffer.current, hx] at hrun
    obtain ⟨hfound, rfl⟩ := Prod.mk.inj hrun
    refine ⟨.rememberRange hgdef _ _, x, rfl, ?_⟩
    rw [← hgdef]
    exact (Except.ok.inj hfound).symm

variable {chooser : AlternateChooser σ} {layout : LayoutTable Substitution} {flag : LookupFlag}
variable {subtables : Array LigatureSubst}

/-- The ligature that is formed where a lookup is applied is the one at the place. -/
theorem forms_applyLookup {levels index : Nat} {applied : Bool}
    (hlookup : layout.lookup index = .ok ⟨flag, .ligature subtables⟩)
    (hligatures : TakenForLigatures g subtables.toList) (hgdef : s.gdef = some g)
    (hrun : (applyLookup chooser layout levels index noContext).outcome s = (.ok applied, s')) :
    Forms g s (ligatureAt ⟨some g, flag⟩ subtables.toList s.buffer.input s.buffer.position) applied
      s' := by
  -- with no level left the lookup would have failed
  cases levels with
  | zero => cases hrun
  | succ levels =>
    rw [applyLookup_succ, hlookup] at hrun
    obtain ⟨found, t, hcurrent, hrun⟩ := outcome_bind_eq_ok
      (show (current flag >>= _).outcome s = (.ok applied, s') from hrun)
    -- the current glyph is looked up first, and kept as it is but for what is known of it
    obtain ⟨hlooks, x, hx, rfl⟩ := looks_of_current hgdef hcurrent
    have hget : s.buffer.input[s.buffer.position]? = some x := hx
    rw [ligatureAt, hget, Option.bind_some]
    cases hcheck : Gdef.check (some g) flag x with
    | none =>
      rw [hcheck] at hrun
      cases hrun
      exact .nothing hlooks
    | some p =>
      rw [hcheck] at hrun
      have hforms := forms_applyLigature hligatures (hlooks.gdef.trans hgdef) ?_ hrun
      · rw [ligatureIn_of_settled hlooks.input, hlooks.position] at hforms
        exact hforms.of_looks hlooks
      · rw [hlooks.position, hlooks.size]
        exact GlyphBuffer.position_lt_of_current? hx

/-! ## §6 The whole text -/

end SubstM

/-- A glyph as it is put into a buffer: nothing is known of it, and it belongs to no ligature. -/
structure GlyphItem.Fresh (x : GlyphItem) : Prop where
  known : x.known = none
  component : x.component = 0
  ligature : x.ligature = 0

/-- What is known of a glyph is what the table says of it. -/
def Gdef.Knows (g : Gdef) (x : GlyphItem) : Prop := g.propertyOf x = g.property x.glyph

theorem Gdef.knows_of_known {g : Gdef} {x : GlyphItem} (h : x.known = Option.none) : g.Knows x := by
  rw [Knows, propertyOf, h]

theorem Gdef.knows_of_remember {g : Gdef} {x y : GlyphItem}
    (h : remember (some g) x = remember (some g) y) (hx : g.Knows x) : g.Knows y := by
  unfold Knows at hx ⊢
  rw [← propertyOf_remember, ← h, propertyOf_remember, hx, glyph_of_remember h]

theorem GlyphBuffer.known_of_mem_carried {input : Array GlyphItem} {ligature : UInt16}
    {component start : Nat} {places : List Nat} {x : GlyphItem}
    (hx : x ∈ carried input ligature component start places) : x.known = none := by
  induction places generalizing component start with
  | nil => exact absurd hx (Array.not_mem_empty x)
  | cons place rest ih =>
    rcases Array.mem_append.mp hx with hx | hx
    · obtain ⟨y, -, rfl⟩ := Array.mem_map.mp hx
      rfl
    · exact ih hx

namespace SubstM

open Program

variable {σ : Type} {g : Gdef} {s s' t : SubstState σ} {chooser : AlternateChooser σ}
variable {items : Array GlyphItem} {flag : LookupFlag} {ligatures : List LigatureSubst}
variable {subtables : Array LigatureSubst}

/-- From one state to another a text has been written, with a number of ligatures in it. -/
structure Leaves (g : Gdef) (s : SubstState σ) (text : List GlyphItem) (count : Nat)
    (s' : SubstState σ) : Prop where
  gdef : s'.gdef = some g
  input : settled (some g) s'.buffer.input = settled (some g) s.buffer.input
  nextLigature : s'.buffer.nextLigature = s.buffer.nextLigature + UInt16.ofNat count
  output : bareText s'.buffer.output = bareText s.buffer.output ++ text
  knows : ∀ y ∈ s'.buffer.output, y ∈ s.buffer.output ∨ g.Knows y

theorem Leaves.trans {text text' : List GlyphItem} {count count' : Nat}
    (h : Leaves g s text count t) (h' : Leaves g t text' count' s') :
    Leaves g s (text ++ text') (count' + count) s' where
  gdef := h'.gdef
  input := h'.input.trans h.input
  nextLigature := by
    rw [h'.nextLigature, h.nextLigature, UInt16.add_assoc, UInt16.add_comm (UInt16.ofNat count),
      UInt16.ofNat_add]
  output := by rw [h'.output, h.output, List.append_assoc]
  knows y hy := (h'.knows y hy).elim (h.knows y) .inr

/-- Nothing has been written. -/
theorem Leaves.refl (hgdef : s.gdef = some g) : Leaves g s [] 0 s where
  gdef := hgdef
  input := rfl
  nextLigature := (UInt16.add_zero _).symm
  output := (List.append_nil _).symm
  knows _ := .inl

theorem leaves_of_copy (hgdef : s.gdef = some g) (hlooks : Looks g s t) {y : GlyphItem}
    (hknows : g.Knows y) : Leaves g s [y.bare] 0 { t with buffer := t.buffer.putItem y } where
  gdef := hlooks.gdef.trans hgdef
  input := hlooks.input
  nextLigature := hlooks.nextLigature.trans (UInt16.add_zero _).symm
  output := by
    have houtput := GlyphBuffer.outputText_putItem t.buffer y
    unfold GlyphBuffer.outputText at houtput
    rw [houtput, hlooks.output]
  knows x hx := by
    rcases Array.mem_push.mp hx with hx | rfl
    · exact .inl (hlooks.output ▸ hx)
    · exact .inr hknows

theorem leaves_of_ligated (hgdef : s.gdef = some g) (hlooks : Looks g s t) {first : GlyphItem}
    (hfirst : first.ligature = 0) (glyph : GlyphId) (others : List Nat) :
    Leaves g s (GlyphBuffer.replacement first inherit s.buffer.nextLigature glyph ::
        (GlyphBuffer.carried s.buffer.input s.buffer.nextLigature 0 (s.buffer.position + 1)
          others).toList) 1
      { t with buffer := t.buffer.ligated first glyph (t.buffer.position :: others) } := by
  have hkeeps : ¬ GlyphBuffer.KeepsNumber first (t.buffer.position :: others) t.buffer.position :=
    fun h => h.2 hfirst
  have houtput : (t.buffer.ligated first glyph (t.buffer.position :: others)).output =
      s.buffer.output ++ (#[GlyphBuffer.replacement first inherit s.buffer.nextLigature glyph] ++
        GlyphBuffer.carried s.buffer.input s.buffer.nextLigature 0
          (s.buffer.position + 1) others) := by
    rw [GlyphBuffer.ligated, GlyphBuffer.numberFor, if_neg hkeeps,
      hlooks.output, hlooks.nextLigature, hlooks.position, List.tail_cons,
      GlyphBuffer.carried_of_bareText (bareText_of_settled hlooks.input)]
  have hknown : ∀ y ∈ GlyphBuffer.carried s.buffer.input s.buffer.nextLigature 0
      (s.buffer.position + 1) others, y.known = none := fun y => GlyphBuffer.known_of_mem_carried
  refine ⟨hlooks.gdef.trans hgdef, hlooks.input, ?_, ?_, fun y hy => ?_⟩
  · rw [GlyphBuffer.ligated, if_neg hkeeps, hlooks.nextLigature]
    rfl
  · -- what has just been written has nothing known of it
    have hbare :
        (GlyphBuffer.carried s.buffer.input s.buffer.nextLigature 0 (s.buffer.position + 1)
            others).toList.map GlyphItem.bare =
          (GlyphBuffer.carried s.buffer.input s.buffer.nextLigature 0 (s.buffer.position + 1)
            others).toList :=
      (List.map_congr_left fun y hy =>
        GlyphItem.bare_of_known (hknown y (Array.mem_toList_iff.mp hy))).trans (List.map_id _)
    dsimp only
    rw [houtput]
    simp [bareText, GlyphBuffer.bare_replacement, hbare]
  · rw [houtput] at hy
    rcases Array.mem_append.mp hy with hy | hy
    · exact .inl hy
    · refine .inr (Gdef.knows_of_known ?_)
      rcases Array.mem_append.mp hy with hy | hy
      · cases List.mem_singleton.mp (Array.mem_toList_iff.mpr hy)
        rfl
      · exact hknown y hy

/-- From one state to another a text has been written after which the text with
    ligatures goes on. -/
def Advances (g : Gdef) (flag : LookupFlag) (ligatures : List LigatureSubst)
    (items : Array GlyphItem) (s t : SubstState σ) : Prop :=
  ∃ text count, Leaves g s text count t ∧
    (∀ rounds, ligatedFrom ⟨some g, flag⟩ ligatures items (rounds + 1) s.buffer.position
      s.buffer.nextLigature =
        text ++ ligatedFrom ⟨some g, flag⟩ ligatures items rounds t.buffer.position
          t.buffer.nextLigature) ∧
    ∀ rounds index, ∃ index',
      (formedFrom ⟨some g, flag⟩ ligatures items (rounds + 1) s.buffer.position index).length =
        (formedFrom ⟨some g, flag⟩ ligatures items rounds t.buffer.position index').length + count

/-- Whatever glyph is the current one in the end is the one of the text, up to what is
    kept of it. -/
theorem Looks.remember_current (hlooks : Looks g s t)
    (hinput : settled (some g) s.buffer.input = settled (some g) items) {item y : GlyphItem}
    (hitem : items[s.buffer.position]? = some item) (hy : t.buffer.current? = some y) :
    Gdef.remember (some g) item = Gdef.remember (some g) y := by
  obtain ⟨item', hitem', hsame⟩ := getElem?_of_settled (hlooks.input.trans hinput)
    (show t.buffer.input[t.buffer.position]? = some y from hy)
  rw [hlooks.position] at hitem'
  obtain rfl := Option.some.inj (hitem.symm.trans hitem')
  exact hsame

section

variable {item : GlyphItem} (hgdef : s.gdef = some g)
  (hinput : settled (some g) s.buffer.input = settled (some g) items)
  (hitem : items[s.buffer.position]? = some item) (hfresh : item.Fresh)

include hgdef hinput hitem hfresh

/-- Where no ligature begins, the current glyph is copied. -/
theorem advances_of_copy
    (hnone : ligatureAt ⟨some g, flag⟩ ligatures items s.buffer.position = none)
    (hlooks : Looks g s t) (hrun : (copy : SubstM σ Unit).outcome t = (.ok (), s')) :
    Advances g flag ligatures items s s' := by
  -- a ligature is looked for where there is a glyph, and looking leaves it there
  obtain ⟨y, hy⟩ : ∃ y, t.buffer.current? = some y := by
    apply GlyphBuffer.exists_current?
    rw [hlooks.position, hlooks.size, GlyphBuffer.size, size_of_settled hinput]
    exact (Array.getElem?_eq_some_iff.mp hitem).1
  have hsame := hlooks.remember_current hinput hitem hy
  have hcopy : (copy : SubstM σ Unit).outcome t =
      (.ok (), { t with buffer := t.buffer.putItem y }) := by
    unfold copy
    rw [outcome_bind_ok (outcome_get t), GlyphBuffer.current_eq_ok hy]
    rfl
  obtain rfl := congrArg Prod.snd (hcopy.symm.trans hrun)
  -- the copy is the glyph of the original text, of which nothing is known
  have hleaves := leaves_of_copy hgdef hlooks
    (Gdef.knows_of_remember hsame (Gdef.knows_of_known hfresh.known))
  rw [← Gdef.bare_of_remember hsame, GlyphItem.bare_of_known hfresh.known] at hleaves
  have hposition : (t.buffer.putItem y).position = s.buffer.position + 1 :=
    congrArg (· + 1) hlooks.position
  have hnumber : (t.buffer.putItem y).nextLigature = s.buffer.nextLigature := hlooks.nextLigature
  refine ⟨[item], 0, hleaves, fun rounds => ?_, fun rounds index => ⟨index + 1, ?_⟩⟩
  · rw [ligatedFrom, hitem, hnone, hposition, hnumber]
    rfl
  · rw [formedFrom, hnone, hposition]
    rfl

/-- A ligature is written that begins with the current glyph. -/
theorem advances_of_ligated {first : GlyphItem} {glyph : GlyphId} {others : List Nat}
    (hfound : ligatureAt ⟨some g, flag⟩ ligatures items s.buffer.position = some (glyph, others))
    (hlooks : Looks g s t) (hfirst : t.buffer.current? = some first) :
    Advances g flag ligatures items s
      { t with buffer := t.buffer.ligated first glyph (t.buffer.position :: others) } := by
  -- the first component is the glyph of the original text, but for what is known of it
  have hbare : item = first.bare := by
    rw [← Gdef.bare_of_remember (hlooks.remember_current hinput hitem hfirst),
      GlyphItem.bare_of_known hfresh.known]
  have hnone : first.ligature = 0 :=
    (congrArg GlyphItem.ligature hbare).symm.trans hfresh.ligature
  have hleaves := leaves_of_ligated hgdef hlooks hnone glyph others
  rw [GlyphBuffer.carried_of_bareText (bareText_of_settled hinput)] at hleaves
  have hposition : (t.buffer.ligated first glyph (t.buffer.position :: others)).position =
      others.getLastD s.buffer.position + 1 := by
    rw [GlyphBuffer.ligated, List.getLast?_cons, Option.map_some, Option.getD_some,
      List.getLastD_eq_getLast?, hlooks.position]
  -- one ligature more has been written, and the next glyph is the one behind its last component
  refine ⟨_, 1, hleaves, fun rounds => ?_, fun rounds index =>
    ⟨index + 1 + FormedLigature.distance ⟨glyph, index, s.buffer.position, others⟩ others.length
      (others.getLastD s.buffer.position), ?_⟩⟩
  · rw [ligatedFrom, hitem, hfound, hposition, hleaves.nextLigature, hbare]
    rfl
  · rw [formedFrom, hfound, hposition]
    rfl

end

/-- One step: the current glyph is copied, or a ligature is written that begins with it. Either way
    the text with ligatures goes on from there. -/
theorem advances_passStep (hitems : ∀ x ∈ items, x.Fresh) {bits : UInt32}
    (hactive : ∀ x ∈ items, x.isActive bits = true) {apply : SubstM σ Bool}
    (happly : ∀ s applied s', s.gdef = some g → apply.outcome s = (.ok applied, s') →
      Forms g s (ligatureAt ⟨some g, flag⟩ ligatures s.buffer.input s.buffer.position) applied s')
    (hgdef : s.gdef = some g) (hinput : settled (some g) s.buffer.input = settled (some g) items)
    {x : GlyphItem} (hx : s.buffer.current? = some x)
    (hrun : (passStep apply bits x).outcome s = (.ok (), s')) :
    Advances g flag ligatures items s s' := by
  obtain ⟨item, hitem, hsame⟩ := getElem?_of_settled hinput
    (show s.buffer.input[s.buffer.position]? = some x from hx)
  have hmem := Array.mem_of_getElem? hitem
  -- every glyph is active, so the lookup has been applied
  rw [passStep,
    if_pos ((Gdef.isActive_of_remember hsame bits).symm.trans (hactive item hmem))] at hrun
  obtain ⟨applied, t, hstep, hrun⟩ := outcome_bind_eq_ok hrun
  have hforms := happly s applied t hgdef hstep
  rw [ligatureAt_of_settled hinput] at hforms
  generalize hfound : ligatureAt ⟨some g, flag⟩ ligatures items s.buffer.position = found at hforms
  cases hforms with
  | nothing hlooks =>
    exact advances_of_copy hgdef hinput hitem (hitems item hmem) hfound hlooks hrun
  | ligature hlooks hfirst =>
    obtain rfl := congrArg Prod.snd hrun
    exact advances_of_ligated hgdef hinput hitem (hitems item hmem) hfound hlooks hfirst

/-- The text that a pass writes, if a ligature is formed wherever there is one. -/
theorem leaves_of_forwardPass (hitems : ∀ x ∈ items, x.Fresh) {bits : UInt32}
    (hactive : ∀ x ∈ items, x.isActive bits = true) {apply : SubstM σ Bool}
    (happly : ∀ s applied s', s.gdef = some g → apply.outcome s = (.ok applied, s') →
      Forms g s (ligatureAt ⟨some g, flag⟩ ligatures s.buffer.input s.buffer.position) applied s')
    {rounds : Nat} (index : Nat) (hgdef : s.gdef = some g)
    (hinput : settled (some g) s.buffer.input = settled (some g) items)
    (hrun : (forwardPass apply bits rounds).outcome s = (.ok (), s')) :
    Leaves g s (ligatedFrom ⟨some g, flag⟩ ligatures items rounds s.buffer.position
        s.buffer.nextLigature)
      (formedFrom ⟨some g, flag⟩ ligatures items rounds s.buffer.position index).length s' := by
  -- each round leaves more of the text behind, and what is left is as it was
  induction rounds generalizing s index with
  | zero =>
    obtain rfl : s = s' := congrArg Prod.snd hrun
    exact .refl hgdef
  | succ rounds ih =>
    rw [forwardPass_succ, outcome_bind_ok (outcome_get s)] at hrun
    cases hx : s.buffer.current? with
    | none =>
      rw [hx] at hrun
      obtain rfl : s = s' := congrArg Prod.snd hrun
      -- the end of the text has been reached
      have hend : items.size ≤ s.buffer.position := by
        rw [← size_of_settled hinput]
        exact Array.getElem?_eq_none_iff.mp hx
      rw [ligatedFrom, formedFrom_of_end hend, Array.getElem?_eq_none hend]
      exact .refl hgdef
    | some x =>
      rw [hx] at hrun
      -- a step leaves some glyphs, and one ligature or none
      obtain ⟨_, t, hstep, hrun⟩ := outcome_bind_eq_ok hrun
      obtain ⟨text, count, hleaves, htext, hcount⟩ :=
        advances_passStep hitems hactive happly hgdef hinput hx hstep
      obtain ⟨index', hcount⟩ := hcount rounds index
      rw [htext, hcount]
      exact hleaves.trans (ih index' hleaves.gdef (hleaves.input.trans hinput) hrun)

/-- If the only active lookup forms ligatures, and the font takes them for ligatures, the text that
    substitution leaves is the one with these ligatures. -/
theorem bareText_of_substitute {table : ActiveTable Substitution} {w : Window}
    (hread : LayoutTable.ofWindow w = .ok table.layout) {index : Nat} {bits : UInt32}
    (htable : table.active = [(index, bits)])
    (hlookup : table.layout.lookup index = .ok ⟨flag, .ligature subtables⟩)
    (hligatures : ∀ subtable ∈ subtables, ∀ ligatures ∈ subtable.entries, ∀ l ∈ ligatures,
      g.property l.glyph = .ligature)
    (hgdef : s.gdef = some g) (hstart : s.buffer.AtStart) (hitems : ∀ x ∈ s.buffer.input, x.Fresh)
    (hactive : ∀ x ∈ s.buffer.input, x.isActive bits = true)
    (hrun : table.substitute chooser s = (.ok (), s')) :
    s'.gdef = some g ∧
      bareText s'.buffer.input = ligatedFrom ⟨some g, flag⟩ subtables.toList s.buffer.input
        s.buffer.input.size 0 s.buffer.nextLigature ∧
      s'.buffer.nextLigature = s.buffer.nextLigature +
        UInt16.ofNat (formedLigatures ⟨some g, flag⟩ subtables s.buffer.input).length ∧
      ∀ y ∈ s'.buffer.input, g.Knows y := by
  have htaken := takenForLigatures_of_ofWindow hread hlookup hligatures
  have hrun := outcome_of_substitute chooser table hrun
  rw [htable, applyActive_cons] at hrun
  obtain ⟨_, t, hpass, hrun⟩ := outcome_bind_eq_ok hrun
  -- a single lookup is active, and its pass is one run over the text and a swap
  obtain rfl : t = s' := congrArg Prod.snd hrun
  rw [pass_eq, hlookup] at hpass
  obtain ⟨_, t', hforward, hswap⟩ := outcome_bind_eq_ok
    (show (forwardPass (applyLookup chooser table.layout table.nestingLimit index noContext) bits
      (s.buffer.size - s.buffer.position) >>= fun _ => modifyBuffer GlyphBuffer.swap).outcome s =
        (.ok (), t) from hpass)
  have hleaves := leaves_of_forwardPass hitems hactive
    (fun _ _ _ hgdef hrun => forms_applyLookup hlookup htaken hgdef hrun) 0 hgdef rfl hforward
  obtain rfl := congrArg Prod.snd hswap
  rw [hstart.position, Nat.sub_zero] at hleaves
  -- the output of the pass has become the text
  refine ⟨hleaves.gdef, ?_, hleaves.nextLigature, fun y hy => ?_⟩
  · have houtput := hleaves.output
    rw [hstart.output] at houtput
    exact houtput
  · rcases hleaves.knows y hy with hold | hknows
    -- there was no output before the pass
    · rw [hstart.output] at hold
      exact absurd hold (Array.not_mem_empty y)
    · exact hknows

end SubstM

end OpenTypeLayout
