import OpenTypeLayout.Proofs.Filtering
import OpenTypeLayout.Proofs.Settled
import OpenTypeLayout.Proofs.Substitution.Emission
import OpenTypeLayout.Proofs.Substitution.Parts

/-!
# Which ligature is chosen

A ligature is spelled at a place if the glyphs that follow, as far as the lookup counts them, are
its components. Searching for components goes glyph by glyph and may end early. This module says
that exactly the ligatures that are spelled are found, and that of these the first one is written.

- `Ligature.SpelledAt` says that a ligature is spelled, in terms of the glyphs that count after a
  place.
- `Ligature.matchAt` is what is found then, and `Ligature.fst_search` says so.
- `SubstM.Looked` relates states between which glyphs have only been looked at.
- `SubstM.ligature_chosen` goes through the subtables of a lookup.
-/

namespace OpenTypeLayout

/-! ## §1 Spelling -/

namespace Ligature

/-- The glyphs that the components after the first one are compared with, and their places. -/
def others (l : Ligature) (f : GlyphFilter) (items : Array GlyphItem) (place : Nat) :
    List (GlyphItem × Nat) := (f.after items place).take l.components.size

/-- The next glyphs that count are the components after the first one, and all components fit the
    context. -/
structure SpelledAt (l : Ligature) (f : GlyphFilter) (contextLength : UInt16)
    (items : Array GlyphItem) (place : Nat) : Prop where
  fits : fitsContext l.count contextLength = true
  spelled : (l.others f items place).map (fun e => e.1.glyph) = l.components.toList

instance (l : Ligature) (f : GlyphFilter) (contextLength : UInt16) (items : Array GlyphItem)
    (place : Nat) : Decidable (l.SpelledAt f contextLength items place) :=
  decidable_of_iff (_ ∧ _) ⟨fun h => ⟨h.1, h.2⟩, fun h => ⟨h.fits, h.spelled⟩⟩

/-- What is found where a ligature is spelled. -/
def matchAt (l : Ligature) (f : GlyphFilter) (items : Array GlyphItem) (place : Nat)
    (isMark : Bool) : LigatureMatch where
  places := place :: (l.others f items place).map Prod.snd
  allMarks := isMark && (l.others f items place).all fun e => (Gdef.propertyIn f.table e.1).isMark

end Ligature

/-- A glyph that a lookup processes is tested with its property. -/
theorem Gdef.check_of_admits {table : Option Gdef} {flag : LookupFlag} {item : GlyphItem}
    (h : admits table flag item = true) : check table flag item = some (propertyIn table item) := by
  cases table with
  | none => rfl
  | some g =>
    rw [propertyIn_some]
    rw [admits, check] at h
    rw [check]
    split at h
    case isTrue hflag => rw [if_pos hflag]
    case isFalse => cases h

namespace GlyphFilter

variable {f : GlyphFilter} {items : Array GlyphItem} {place : Nat}

theorem admits_of_mem_after {item : GlyphItem} {found : Nat}
    (h : (item, found) ∈ f.after items place) : f.admits item = true := (List.mem_filter.mp h).2

/-- No more glyphs count after a place than there are. -/
theorem length_after_le (f : GlyphFilter) (items : Array GlyphItem) (place : Nat) :
    (f.after items place).length ≤ items.size - (place + 1) := by
  refine Nat.le_trans (List.length_filter_le _ _) (Nat.le_of_eq ?_)
  rw [List.length_drop, List.length_zipIdx, Array.length_toList]

end GlyphFilter

section

variable {f : GlyphFilter} {items : Array GlyphItem} {place : Nat}

/-- Components are found where they are the next glyphs that count. -/
theorem fst_matchComponents (components : List GlyphId) (place : Nat) (allMarks : Bool) :
    (matchComponents f items components place allMarks).1 =
      let next := (f.after items place).take components.length
      if next.map (fun e => e.1.glyph) = components then
        some ⟨place :: next.map Prod.snd,
          allMarks && next.all fun e => (Gdef.propertyIn f.table e.1).isMark⟩
      else none := by
  -- each component takes the next glyph that counts, and the rest is matched behind it
  induction components generalizing place allMarks with
  | nil => simp [matchComponents]
  | cons component rest ih =>
    rw [matchComponents]
    cases hnext : f.next? items place with
    | none => simp [GlyphFilter.after_of_next?_none hnext]
    | some found =>
      obtain ⟨item, hitem, hafter⟩ := GlyphFilter.after_of_next?_some hnext
      -- the glyph has been admitted, so its check gives its property
      have hmem : (item, found) ∈ f.after items place := by
        rw [hafter]
        exact List.mem_cons_self
      have hcheck : Gdef.check f.table f.flag item = some (Gdef.propertyIn f.table item) :=
        Gdef.check_of_admits (GlyphFilter.admits_of_mem_after hmem)
      dsimp only
      rw [hitem, hafter]
      simp only [List.length_cons, List.take_succ_cons, List.map_cons, List.all_cons,
        List.cons.injEq]
      by_cases hglyph : item.glyph = component
      · rw [if_pos hglyph]
        dsimp only
        rw [ih, hcheck, Option.any_some]
        simp only [hglyph, true_and, apply_ite (Option.map _), Option.map_some, Option.map_none,
          Bool.and_assoc]
      · rw [if_neg hglyph, if_neg fun h => hglyph h.1]

namespace Ligature

variable {l : Ligature} {contextLength : UInt16}

/-- Where a ligature is spelled, there is room for its components. -/
theorem SpelledAt.add_count_le (h : l.SpelledAt f contextLength items place)
    (hplace : place < items.size) : place + l.count ≤ items.size := by
  have hlength : (l.others f items place).length = l.components.size := by
    rw [← List.length_map, h.spelled, Array.length_toList]
  have hafter := f.length_after_le items place
  rw [others, List.length_take] at hlength
  rw [count]
  omega

/-- Searching finds the ligatures that are spelled. -/
theorem fst_search (l : Ligature) (contextLength : UInt16) (hplace : place < items.size)
    (isMark : Bool) :
    (l.search f contextLength items place isMark).1 =
      if l.SpelledAt f contextLength items place then some (l.matchAt f items place isMark)
      else none := by
  unfold search
  split
  case isTrue hroom =>
    rw [Bool.and_eq_true] at hroom
    rw [fst_matchComponents, Array.length_toList]
    dsimp only
    split
    case isTrue hspelled => rw [if_pos ⟨hroom.1, hspelled⟩, matchAt, others]
    case isFalse hspelled => rw [if_neg fun h => hspelled h.spelled]
  case isFalse hroom =>
    rw [if_neg fun h => hroom ?_]
    rw [Bool.and_eq_true, decide_eq_true_eq]
    exact ⟨h.fits, h.add_count_le hplace⟩

theorem fst_search_eq_some_iff (hplace : place < items.size) {isMark : Bool} {m : LigatureMatch} :
    (l.search f contextLength items place isMark).1 = some m ↔
      l.SpelledAt f contextLength items place ∧
      m.places = place :: (l.others f items place).map Prod.snd ∧
      (m.allMarks = true ↔ isMark = true ∧
        ∀ e ∈ l.others f items place, (Gdef.propertyIn f.table e.1).isMark = true) := by
  rw [fst_search l contextLength hplace]
  split
  case isFalse hspelled => simp [hspelled]
  case isTrue hspelled =>
    rw [← List.all_eq_true, ← Bool.and_eq_true, ← Bool.eq_iff_iff]
    obtain ⟨places, allMarks⟩ := m
    simp [hspelled, matchAt, eq_comm]

end Ligature

/-- The first ligature of a set that is spelled is found. -/
theorem fst_firstLigature (contextLength : UInt16) (hplace : place < items.size) (isMark : Bool)
    (ligatures : List Ligature) (bound : Nat) :
    (firstLigature f contextLength items place isMark ligatures bound).1 =
      (ligatures.find? fun l => l.SpelledAt f contextLength items place).map fun l =>
        (l.glyph, l.matchAt f items place isMark) := by
  -- as the search goes on, it is the first ligature that is spelled
  induction ligatures generalizing bound with
  | nil => rfl
  | cons l rest ih =>
    have hsearch := l.fst_search (f := f) contextLength hplace isMark
    rw [firstLigature]
    rcases hrun : l.search f contextLength items place isMark with ⟨_ | m, seen⟩
    · rw [hrun] at hsearch
      split at hsearch
      case isTrue => cases hsearch
      case isFalse hspelled =>
        -- where the search of one ligature fails, that ligature is not spelled
        rw [List.find?_cons_of_neg (by simpa using hspelled)]
        exact ih _
    · rw [hrun] at hsearch
      split at hsearch
      case isTrue hspelled =>
        rw [List.find?_cons_of_pos (by simpa using hspelled), Option.map_some]
        cases hsearch
        rfl
      case isFalse => cases hsearch

end

/-! ## §2 Looking at glyphs -/

namespace SubstM

open Program

variable {σ : Type} {s t t' : SubstState σ}

/-- Glyphs of the input have been looked at, and nothing else has happened. -/
def Looked (s t : SubstState σ) : Prop :=
  ∃ input, settled s.gdef input = settled s.gdef s.buffer.input ∧
    t = { s with buffer := { s.buffer with input } }

namespace Looked

theorem refl (s : SubstState σ) : Looked s s := ⟨s.buffer.input, rfl, rfl⟩

theorem rememberRange (s : SubstState σ) (low high : Nat) :
    Looked s { s with buffer := { s.buffer with
      input := OpenTypeLayout.rememberRange s.gdef s.buffer.input low high } } :=
  ⟨_, settled_rememberRange s.gdef s.buffer.input low high, rfl⟩

theorem trans (h : Looked s t) (h' : Looked t t') : Looked s t' := by
  obtain ⟨input, hinput, rfl⟩ := h
  obtain ⟨input', hinput', rfl⟩ := h'
  exact ⟨input', hinput'.trans hinput, rfl⟩

theorem textsAlike (h : Looked s t) :
    TextsAlike s.gdef s.gdef s.buffer.input t.buffer.input := by
  obtain ⟨input, hinput, rfl⟩ := h
  exact .of_settled hinput

theorem gdef (h : Looked s t) : t.gdef = s.gdef := by
  obtain ⟨_, -, rfl⟩ := h
  rfl

theorem position (h : Looked s t) : t.buffer.position = s.buffer.position := by
  obtain ⟨_, -, rfl⟩ := h
  rfl

theorem size (h : Looked s t) : t.buffer.size = s.buffer.size := by
  obtain ⟨_, hinput, rfl⟩ := h
  exact size_of_settled hinput

end Looked

/-- What is known of the current glyph. -/
theorem looked_current {item : GlyphItem} (hitem : s.buffer.current? = some item)
    (flag : LookupFlag) :
    ∃ t, Looked s t ∧ (current flag).outcome s =
      (.ok ((Gdef.check s.gdef flag item).map fun p => (item, p)), t) := by
  refine ⟨_, .rememberRange s s.buffer.position (s.buffer.position + 1), ?_⟩
  unfold current
  rw [outcome_bind_ok (outcome_get s), GlyphBuffer.current_eq_ok hitem]
  rfl

theorem outcome_atCurrent {item : GlyphItem} {p : GlyphProperty} {flag : LookupFlag}
    (hitem : s.buffer.current? = some item) (hcheck : Gdef.check s.gdef flag item = some p)
    (action : GlyphItem → GlyphProperty → SubstM σ Bool) :
    ∃ t, Looked s t ∧ (atCurrent flag action).outcome s = (action item p).outcome t := by
  obtain ⟨t, hlooked, hcurrent⟩ := looked_current hitem flag
  rw [hcheck] at hcurrent
  exact ⟨t, hlooked, outcome_bind_ok hcurrent⟩

/-- Recording one of the classes of glyphs does not fail, and concerns the glyph
    definitions only. -/
theorem outcome_recordClass {p : GlyphProperty} {c : UInt16} (hc : p.basic.classNumber? = some c)
    (glyph : GlyphId) (s : SubstState σ) :
    ∃ gdef, (recordClass p glyph).outcome s = (.ok (), { s with gdef }) := by
  -- without glyph definitions there is nowhere to record a class
  obtain ⟨buffer, gdef, kept⟩ := s
  unfold recordClass
  rw [outcome_bind_ok (outcome_get _)]
  cases gdef with
  | none => exact ⟨none, rfl⟩
  | some g =>
    dsimp only
    split
    case isFalse => exact ⟨some g, rfl⟩
    case isTrue =>
      -- only a class that has no number is refused, and this one has one
      obtain ⟨takes, g', hrecord⟩ : ∃ takes g', g.record glyph p.basic = .ok (takes, g') := by
        unfold Gdef.record
        rw [hc]
        dsimp only
        split
        case isTrue => exact ⟨_, _, rfl⟩
        case isFalse => cases g.synthesized <;> exact ⟨_, _, rfl⟩
      rw [hrecord]
      exact ⟨some g', rfl⟩

/-- What fits a context has one glyph at least. -/
theorem fitsContext_one {l : Ligature} {contextLength : UInt16}
    (h : fitsContext l.count contextLength = true) : fitsContext 1 contextLength = true := by
  rw [fitsContext, Bool.or_eq_true, decide_eq_true_eq] at h ⊢
  exact h.imp_right (Nat.le_trans (Nat.le_add_left 1 l.components.size) ·)

/-! ## §3 Going through the subtables -/

section

variable {flag : LookupFlag} {contextLength : UInt16} {item : GlyphItem} {p : GlyphProperty}

/-- No ligature that a subtable has for a glyph is spelled at a place, and the subtable does
    not fail. -/
def SpellsNone (f : GlyphFilter) (contextLength : UInt16) (items : Array GlyphItem) (place : Nat)
    (glyph : GlyphId) (subtable : LigatureSubst) : Prop :=
  ∃ answer, subtable.find glyph = .ok answer ∧
    ∀ ligatures ∈ answer, ∀ l ∈ ligatures, ¬ l.SpelledAt f contextLength items place

/-- Write a ligature that is spelled. -/
def writeLigature (l : Ligature) (m : LigatureMatch) : SubstM σ Bool := do
  recordClass (if m.allMarks then .mark else .ligature) l.glyph
  emitLigature l.glyph m.places
  return true

variable (hlt : s.buffer.position < s.buffer.size) (hlooked : Looked s t)

include hlt hlooked

/-- Looking for a ligature gives the same if glyphs have been looked at before. -/
theorem outcome_findLigature_of_looked (flag : LookupFlag) (contextLength : UInt16) (isMark : Bool)
    (ligatures : List Ligature) :
    ∃ t', Looked s t' ∧ (findLigature flag contextLength isMark ligatures).outcome t =
      (.ok ((ligatures.find? fun l =>
        l.SpelledAt ⟨s.gdef, flag⟩ contextLength s.buffer.input s.buffer.position).map fun l =>
          (l.glyph, l.matchAt ⟨s.gdef, flag⟩ s.buffer.input s.buffer.position isMark)), t') := by
  have hfound := fst_firstLigature (f := ⟨s.gdef, flag⟩) contextLength hlt isMark ligatures
    (t.buffer.position + 1)
  rw [← hlooked.textsAlike.firstLigature, ← hlooked.position, ← hlooked.gdef] at hfound
  rw [← hlooked.position, ← hlooked.gdef, ← hfound]
  exact ⟨_, hlooked.trans (.rememberRange t (t.buffer.position + 1) _),
    outcome_findLigature flag contextLength isMark ligatures t⟩

/-- A subtable in which no ligature is spelled is gone past. -/
theorem outcome_applyLigature_of_spellsNone {subtable : LigatureSubst}
    (h : SpellsNone ⟨s.gdef, flag⟩ contextLength s.buffer.input s.buffer.position item.glyph
      subtable) (rest : List LigatureSubst) :
    ∃ t', Looked s t' ∧ (applyLigature flag contextLength item p (subtable :: rest)).outcome t =
      (applyLigature flag contextLength item p rest).outcome t' := by
  obtain ⟨answer, hfind, hnone⟩ := h
  rw [applyLigature_cons, hfind]
  -- if the subtable does not cover the glyph, nothing has been looked at
  cases answer with
  | none => exact ⟨t, hlooked, rfl⟩
  | some ligatures =>
    obtain ⟨t', hlooked', hrun⟩ := outcome_findLigature_of_looked hlt hlooked flag contextLength
      p.isMark ligatures.toList
    -- if it does, its ligatures have been searched, and none of them is spelled
    have hnotFound : (ligatures.toList.find? fun l =>
        l.SpelledAt ⟨s.gdef, flag⟩ contextLength s.buffer.input s.buffer.position) = none := by
      rw [List.find?_eq_none]
      intro l hl
      rw [decide_eq_true_eq]
      exact hnone ligatures rfl l (Array.mem_toList_iff.mp hl)
    rw [hnotFound] at hrun
    exact ⟨t', hlooked', (outcome_bind_ok (outcome_lift _ t)).trans (outcome_bind_ok hrun)⟩

/-- All subtables in which no ligature is spelled are gone past. -/
theorem outcome_applyLigature_append {before : List LigatureSubst}
    (hbefore : ∀ b ∈ before, SpellsNone ⟨s.gdef, flag⟩ contextLength s.buffer.input
      s.buffer.position item.glyph b) (rest : List LigatureSubst) :
    ∃ t', Looked s t' ∧ (applyLigature flag contextLength item p (before ++ rest)).outcome t =
      (applyLigature flag contextLength item p rest).outcome t' := by
  induction before generalizing t with
  | nil => exact ⟨t, hlooked, rfl⟩
  | cons b before ih =>
    obtain ⟨t₁, hlooked₁, hpassed⟩ := outcome_applyLigature_of_spellsNone (p := p) hlt
      hlooked (hbefore b List.mem_cons_self) (before ++ rest)
    obtain ⟨t₂, hlooked₂, hrest⟩ := ih hlooked₁ fun c hc => hbefore c (List.mem_cons_of_mem b hc)
    exact ⟨t₂, hlooked₂, hpassed.trans hrest⟩

/-- In the set of the first subtable the first ligature that is spelled is written. -/
theorem outcome_applyLigature_of_spelled {subtable : LigatureSubst} {ligatures : Array Ligature}
    {earlier later : List Ligature} {l : Ligature}
    (hfind : subtable.find item.glyph = .ok (some ligatures))
    (hset : ligatures.toList = earlier ++ l :: later)
    (hearlier : ∀ e ∈ earlier,
      ¬ e.SpelledAt ⟨s.gdef, flag⟩ contextLength s.buffer.input s.buffer.position)
    (hspelled : l.SpelledAt ⟨s.gdef, flag⟩ contextLength s.buffer.input s.buffer.position)
    (rest : List LigatureSubst) :
    ∃ t', Looked s t' ∧ (applyLigature flag contextLength item p (subtable :: rest)).outcome t =
      (writeLigature l (l.matchAt ⟨s.gdef, flag⟩ s.buffer.input s.buffer.position p.isMark)).outcome
        t' := by
  obtain ⟨t', hlooked', hrun⟩ :=
    outcome_findLigature_of_looked hlt hlooked flag contextLength p.isMark ligatures.toList
  -- the ligatures before are not spelled, so the search ends with this one
  have hfirst : (ligatures.toList.find? fun l =>
      l.SpelledAt ⟨s.gdef, flag⟩ contextLength s.buffer.input s.buffer.position) = some l := by
    rw [List.find?_eq_some_iff_append]
    exact ⟨by simpa using hspelled, earlier, later, hset, by simpa using hearlier⟩
  rw [hfirst] at hrun
  rw [applyLigature_cons, hfind]
  exact ⟨t', hlooked', (outcome_bind_ok (outcome_lift _ t)).trans (outcome_bind_ok hrun)⟩

omit hlt hlooked in
/-- A subtable that fails ends the search. -/
theorem outcome_applyLigature_of_error {subtable : LigatureSubst} {e : ParseError}
    (hfind : subtable.find item.glyph = .error e) (rest : List LigatureSubst) :
    (applyLigature flag contextLength item p (subtable :: rest)).outcome t =
      (.error (.parse e), t) := by
  rw [applyLigature_cons, hfind]
  rfl

/-- A ligature that is spelled and has no more components than a font can count is written. -/
theorem outcome_writeLigature {l : Ligature}
    (hspelled : l.SpelledAt ⟨s.gdef, flag⟩ contextLength s.buffer.input s.buffer.position)
    (hcount : l.count ≤ 0xFFFF) (isMark : Bool) :
    ∃ x gdef, t.buffer.current? = some x ∧
      (writeLigature l
          (l.matchAt ⟨s.gdef, flag⟩ s.buffer.input s.buffer.position isMark)).outcome t =
        (.ok true, { t with
          gdef
          buffer := t.buffer.ligated x l.glyph
            (l.matchAt ⟨s.gdef, flag⟩ s.buffer.input s.buffer.position isMark).places }) := by
  -- a ligature that is spelled is found by the search, and what is known of a search can be used
  have hsearch := l.fst_search (f := ⟨s.gdef, flag⟩) contextLength hlt isMark
  rw [if_pos hspelled] at hsearch
  obtain ⟨hfound, hlength⟩ := Ligature.search_eq_some (Prod.ext hsearch rfl)
  generalize l.matchAt ⟨s.gdef, flag⟩ s.buffer.input s.buffer.position isMark = m
    at hfound hlength ⊢
  -- the class that is recorded is that of a mark or of a ligature
  obtain ⟨c, hc⟩ : ∃ c, (if m.allMarks then GlyphProperty.mark else .ligature).basic.classNumber? =
      some c := by
    split
    · exact ⟨3, by decide⟩
    · exact ⟨2, by decide⟩
  obtain ⟨x, hx⟩ :=
    GlyphBuffer.exists_current? (b := t.buffer) (by rwa [hlooked.position, hlooked.size])
  obtain ⟨gdef, hrecord⟩ := outcome_recordClass hc l.glyph t
  -- all places are in the text, since they have been matched there
  have hinside : ∀ q ∈ m.places, q < t.buffer.size := fun q hq =>
    hlooked.size ▸ hfound.lt_of_mem hlt hq
  have hwrite := outcome_emitLigature (s := { t with gdef }) hx l.glyph hfound.ascending
    (hlooked.position ▸ hfound.head) hinside (hlength ▸ hcount)
  exact ⟨x, gdef, hx, (outcome_bind_ok hrecord).trans (outcome_bind_ok hwrite)⟩

end

/-! ## §4 Applying a lookup -/

variable {layout : LayoutTable Substitution} {index : Nat}
variable {flag : LookupFlag} {subtables : Array LigatureSubst} {item : GlyphItem}
    {p : GlyphProperty}

/-- Where one glyph fits the context, a lookup comes to a subtable if no ligature is spelled in
    those before it. -/
theorem outcome_applyLookup_append (chooser : AlternateChooser σ) (levels : Nat)
    {contextLength : UInt16} {before rest : List LigatureSubst}
    (hlookup : layout.lookup index = .ok ⟨flag, .ligature subtables⟩)
    (hitem : s.buffer.current? = some item) (hcheck : Gdef.check s.gdef flag item = some p)
    (hfits : fitsContext 1 contextLength = true) (hsplit : subtables.toList = before ++ rest)
    (hbefore : ∀ b ∈ before, SpellsNone ⟨s.gdef, flag⟩ contextLength s.buffer.input
      s.buffer.position item.glyph b) :
    ∃ t, Looked s t ∧ (applyLookup chooser layout (levels + 1) index contextLength).outcome s =
      (applyLigature flag contextLength item p rest).outcome t := by
  have hlt : s.buffer.position < s.buffer.size := GlyphBuffer.position_lt_of_current? hitem
  obtain ⟨t₁, hlooked₁, hcurrent⟩ := outcome_atCurrent hitem hcheck fun item p =>
    applyLigature flag contextLength item p subtables.toList
  obtain ⟨t₂, hlooked₂, hpassed⟩ := outcome_applyLigature_append (p := p) hlt hlooked₁ hbefore rest
  refine ⟨t₂, hlooked₂, ?_⟩
  rw [← hpassed, ← hsplit, ← hcurrent, applyLookup_succ, hlookup]
  refine (outcome_bind_ok (outcome_lift _ s)).trans ?_
  rw [applySubtables]
  dsimp only
  rw [if_pos hfits]

/-- A lookup does not apply where no ligature is spelled in any of its subtables. -/
theorem outcome_applyLookup_of_spellsNone (chooser : AlternateChooser σ) (levels : Nat)
    (contextLength : UInt16) (hlookup : layout.lookup index = .ok ⟨flag, .ligature subtables⟩)
    (hitem : s.buffer.current? = some item) (hcheck : Gdef.check s.gdef flag item = some p)
    (hnone : ∀ b ∈ subtables.toList, SpellsNone ⟨s.gdef, flag⟩ contextLength s.buffer.input
      s.buffer.position item.glyph b) :
    ∃ t, Looked s t ∧ (applyLookup chooser layout (levels + 1) index contextLength).outcome s =
      (.ok false, t) := by
  by_cases hfits : fitsContext 1 contextLength = true
  case pos =>
    exact outcome_applyLookup_append chooser levels hlookup hitem hcheck hfits
      (List.append_nil _).symm hnone
  case neg =>
    -- not even one glyph fits, so the subtables are not looked at
    refine ⟨s, .refl s, ?_⟩
    rw [applyLookup_succ, hlookup]
    refine (outcome_bind_ok (outcome_lift _ s)).trans ?_
    rw [applySubtables]
    dsimp only
    rw [if_neg hfits]
    rfl

/-- At a glyph that the lookup does not skip, a ligature is found exactly if it is spelled there:
    its components after the first one are the next glyphs that count, and there are no more of them
    than fit the context. Then it is found at the place and at the places of those glyphs, and it is
    made of marks if all of them are marks. There is room for it, so asking for that first changes
    nothing. In the order of the subtables, and in each of them in the order of its set, the first
    ligature that is spelled is written, unless a subtable fails before. If none is spelled, the
    lookup does not apply. -/
theorem ligature_chosen (chooser : AlternateChooser σ) (levels : Nat) (contextLength : UInt16)
    (hlookup : layout.lookup index = .ok ⟨flag, .ligature subtables⟩)
    (hitem : s.buffer.current? = some item) (hcheck : Gdef.check s.gdef flag item = some p) :
    let f : GlyphFilter := ⟨s.gdef, flag⟩
    let items := s.buffer.input
    let place := s.buffer.position
    let run := (applyLookup chooser layout (levels + 1) index contextLength).outcome s
    (∀ (l : Ligature) (m : LigatureMatch),
      (l.search f contextLength items place p.isMark).1 = some m ↔
        l.SpelledAt f contextLength items place ∧
        m.places = place :: (l.others f items place).map Prod.snd ∧
        (m.allMarks = true ↔ p.isMark = true ∧
          ∀ e ∈ l.others f items place, (Gdef.propertyIn s.gdef e.1).isMark = true)) ∧
    (∀ l : Ligature, l.SpelledAt f contextLength items place → place + l.count ≤ items.size) ∧
    (∀ before subtable after, subtables.toList = before ++ subtable :: after →
      (∀ b ∈ before, SpellsNone f contextLength items place item.glyph b) →
      (∀ ligatures earlier l later, subtable.find item.glyph = .ok (some ligatures) →
        ligatures.toList = earlier ++ l :: later →
        (∀ e ∈ earlier, ¬ e.SpelledAt f contextLength items place) →
        l.SpelledAt f contextLength items place →
        ∃ t, Looked s t ∧ run = (writeLigature l (l.matchAt f items place p.isMark)).outcome t ∧
          (l.count ≤ 0xFFFF → run.1 = .ok true)) ∧
      ∀ e, fitsContext 1 contextLength = true → subtable.find item.glyph = .error e →
        ∃ t, Looked s t ∧ run = (.error (.parse e), t)) ∧
    ((∀ b ∈ subtables.toList, SpellsNone f contextLength items place item.glyph b) →
      ∃ t, Looked s t ∧ run = (.ok false, t)) := by
  intro f items place run
  have hlt : s.buffer.position < s.buffer.size := GlyphBuffer.position_lt_of_current? hitem
  -- two parts are about a single ligature, and two about the first subtable that ends the search
  refine ⟨fun l m => Ligature.fst_search_eq_some_iff hlt, fun l hspelled =>
    hspelled.add_count_le hlt, fun before subtable after hsplit hbefore => ⟨?_, ?_⟩,
    outcome_applyLookup_of_spellsNone chooser levels contextLength hlookup hitem hcheck⟩
  · intro ligatures earlier l later hfind hset hearlier hspelled
    obtain ⟨t₁, hlooked₁, hreached⟩ := outcome_applyLookup_append chooser levels hlookup hitem
      hcheck (fitsContext_one hspelled.fits) hsplit hbefore
    obtain ⟨t₂, hlooked₂, hfound⟩ :=
      outcome_applyLigature_of_spelled (p := p) hlt hlooked₁ hfind hset hearlier hspelled after
    have hrun : run = (writeLigature l (l.matchAt f items place p.isMark)).outcome t₂ :=
      hreached.trans hfound
    refine ⟨t₂, hlooked₂, hrun, fun hcount => ?_⟩
    -- a ligature with that many components can always be written
    obtain ⟨_, _, -, hwritten⟩ := outcome_writeLigature hlt hlooked₂ hspelled hcount p.isMark
    rw [hrun, hwritten]
  · intro e hfits hfind
    obtain ⟨t, hlooked, hreached⟩ := outcome_applyLookup_append chooser levels hlookup hitem hcheck
      hfits hsplit hbefore
    exact ⟨t, hlooked, hreached.trans (outcome_applyLigature_of_error hfind after)⟩

end SubstM

/-! ## §5 Several ligatures -/

/-! A font in which several ligatures begin with the glyph 1, in two subtables, and marks
are skipped. -/

namespace SeveralLigatures

/-- 7 stands for 1 and 5. -/
def first : LigatureSubst := { coverage := .glyphs #[1], entries := #[#[⟨7, #[5]⟩]] }

/-- 8 stands for 1, 2 and 2, 9 for 1 and 2, and 6 for 1. -/
def second : LigatureSubst where
  coverage := .glyphs #[1]
  entries := #[#[⟨8, #[2, 2]⟩, ⟨9, #[2]⟩, ⟨6, #[]⟩]]

def layout : LayoutTable Substitution where
  scripts := #[]
  features := #[]
  lookups := #[{ flag := ⟨8⟩, subtables := .ligature #[first, second] }]

/-- The glyph 3 is a mark. -/
def gdef : Gdef := { classes := some (.ranges #[⟨3, 3, 3⟩]) }

/-- The glyphs 1, 3, 2. -/
def start : SubstState Unit where
  buffer := ((GlyphBuffer.empty.push 1 1 0).push 3 1 1).push 2 1 2
  gdef := some gdef
  kept := ()

open SubstM in
/-- The text is too short for 8, and 9 is the first ligature that is spelled. -/
theorem ninth_chosen :
    layout.lookup 0 = .ok ⟨⟨8⟩, .ligature #[first, second]⟩ ∧
    SpellsNone ⟨start.gdef, ⟨8⟩⟩ noContext start.buffer.input 0 1 first ∧
    second.find 1 = .ok (some #[⟨8, #[2, 2]⟩, ⟨9, #[2]⟩, ⟨6, #[]⟩]) ∧
    ¬ (Ligature.mk 8 #[2, 2]).SpelledAt ⟨start.gdef, ⟨8⟩⟩ noContext start.buffer.input 0 ∧
    ∃ t, Looked start t ∧
      (applyLookup .first layout 1 0 noContext).outcome start =
        (writeLigature ⟨9, #[2]⟩ ⟨[0, 2], false⟩).outcome t ∧
      ((applyLookup .first layout 1 0 noContext).outcome start).1 = .ok true := by
  have hlookup : layout.lookup 0 = .ok ⟨⟨8⟩, .ligature #[first, second]⟩ := rfl
  -- the first subtable covers the glyph, but its only ligature asks for another one behind it
  have hfirst : SpellsNone ⟨start.gdef, ⟨8⟩⟩ noContext start.buffer.input 0 1 first := by
    refine ⟨some #[⟨7, #[5]⟩], rfl, fun ligatures hligatures l hl => ?_⟩
    cases hligatures
    obtain rfl := Array.mem_singleton.mp hl
    decide +kernel
  have hfind : second.find 1 = .ok (some #[⟨8, #[2, 2]⟩, ⟨9, #[2]⟩, ⟨6, #[]⟩]) := rfl
  -- the ligature before would need two more glyphs
  have hlonger : ¬ (Ligature.mk 8 #[2, 2]).SpelledAt ⟨start.gdef, ⟨8⟩⟩ noContext
      start.buffer.input 0 := by decide +kernel
  obtain ⟨-, -, hchosen, -⟩ := ligature_chosen (s := start) (p := .none) .first 0 noContext
    hlookup rfl (by decide)
  obtain ⟨hwritten, -⟩ := hchosen [first] second [] rfl
    (fun b hb => (List.mem_singleton.mp hb) ▸ hfirst)
  obtain ⟨t, hlooked, hrun, hanswer⟩ := hwritten _ [⟨8, #[2, 2]⟩] ⟨9, #[2]⟩ [⟨6, #[]⟩] hfind rfl
    (fun e he => (List.mem_singleton.mp he) ▸ hlonger) (by decide +kernel)
  exact ⟨hlookup, hfirst, hfind, hlonger, t, hlooked, hrun, hanswer (by decide)⟩

end SeveralLigatures

end OpenTypeLayout
