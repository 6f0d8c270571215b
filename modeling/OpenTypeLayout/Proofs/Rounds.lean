import OpenTypeLayout.Proofs.Places
import OpenTypeLayout.Proofs.Rules

/-!
# Working through the records of a rule

A rule that has matched is worked through in rounds. A round either hands a record over, which means
that its lookup is invoked where the rule has got to, or goes on by one glyph. This module says
which records are handed over, whatever the lookups do, and so for substituting and positioning
alike.

- `Rounds` is a run that comes to its end, with the records that are handed over on the way.
- `Handing` is what holds of these: in order, at its place, each of the records that come first for
  their glyph is handed over, unless a lookup for an earlier glyph has gone past that glyph. No
  second record for the same glyph ever is.
- `Rounds.reached_eq` tells where the run ends if no lookup goes past the last glyph.
-/

namespace OpenTypeLayout

/-! ## §1 The next record -/

/-- The glyph that a record is for comes before an index, if the rule has matched it at all. -/
def LookupRecord.Passed (places : List Nat) (index : Nat) (r : LookupRecord) : Prop :=
  ∀ place, places[r.sequenceIndex.toNat]? = some place → place < index

theorem le_of_ascending {places : List Nat} (h : places.Pairwise (· < ·)) {i j p q : Nat}
    (hp : places[i]? = some p) (hq : places[j]? = some q) (hij : i ≤ j) : p ≤ q := by
  obtain ⟨hi, rfl⟩ := List.getElem?_eq_some_iff.mp hp
  obtain ⟨hj, rfl⟩ := List.getElem?_eq_some_iff.mp hq
  rcases Nat.eq_or_lt_of_le hij with rfl | hlt
  · exact Nat.le_refl _
  · exact Nat.le_of_lt (List.pairwise_iff_getElem.mp h i j hi hj hlt)

/-- How the record for an index is found, and which records are left: those for glyphs that have
    been passed are dropped. -/
inductive Selects (places : List Nat) (index : Nat) :
    List LookupRecord → Option LookupRecord → List LookupRecord → Prop
  /-- There are no records any more. -/
  | nil : Selects places index [] none []
  /-- The first record is for a glyph that has been passed. -/
  | passed {r : LookupRecord} {records rest : List LookupRecord} {found : Option LookupRecord}
      (hpassed : r.Passed places index) (hrest : Selects places index records found rest) :
      Selects places index (r :: records) found rest
  /-- The first record is for the index. -/
  | found {r : LookupRecord} {rest : List LookupRecord}
      (hplace : places[r.sequenceIndex.toNat]? = some index) :
      Selects places index (r :: rest) (some r) rest
  /-- The first record is for a glyph that is still to come. -/
  | ahead {r : LookupRecord} {rest : List LookupRecord} {place : Nat}
      (hplace : places[r.sequenceIndex.toNat]? = some place) (hlt : index < place) :
      Selects places index (r :: rest) none (r :: rest)

theorem selects_nextRecord (places : List Nat) (index : Nat) (records : List LookupRecord) :
    Selects places index records (nextRecord places index records).1
      (nextRecord places index records).2 := by
  induction records with
  | nil => exact .nil
  | cons r rest ih =>
    rw [nextRecord]
    split
    -- a record that names no matched glyph, or one gone past, is skipped
    case h_1 hnone => exact .passed (fun place hplace => by rw [hnone] at hplace; cases hplace) ih
    case h_2 place hplace =>
      split
      case isTrue heq => exact .found (heq ▸ hplace)
      case isFalse hne =>
        split
        case isTrue hlt => exact .ahead hplace hlt
        case isFalse hnlt =>
          refine .passed (fun place' hplace' => ?_) ih
          rw [hplace] at hplace'
          cases hplace'
          omega

namespace Selects

variable {places : List Nat} {index : Nat} {records rest : List LookupRecord}
variable {found : Option LookupRecord} {r : LookupRecord}

theorem of_next (hnext : (nextRecord places index records).1 = found) :
    Selects places index records found (nextRecord places index records).2 :=
  hnext ▸ selects_nextRecord places index records

theorem sublist (h : Selects places index records found rest) :
    (found.toList ++ rest).Sublist records := by
  induction h with
  | nil => exact .refl _
  | passed _ _ ih => exact ih.cons _
  | found => exact .refl _
  | ahead => exact .refl _

theorem place_eq (h : Selects places index records (some r) rest) :
    places[r.sequenceIndex.toNat]? = some index := by
  generalize hfound : some r = found at h
  induction h with
  | nil => cases hfound
  | passed _ _ ih => exact ih hfound
  | found hplace =>
    cases hfound
    exact hplace
  | ahead => cases hfound

/-- A record for a glyph that has not been passed is either found or left. If it is left, what is
    found are records before it. -/
theorem pending (h : Selects places index records found rest) {earlier later : List LookupRecord}
    (hrecords : records = earlier ++ r :: later) {place : Nat}
    (hplace : places[r.sequenceIndex.toNat]? = some place) (hle : index ≤ place) :
    found = some r ∨ (∀ r', found = some r' → r' ∈ earlier) ∧
      ∃ earlier', earlier'.Sublist earlier ∧ rest = earlier' ++ r :: later := by
  induction h generalizing earlier with
  | nil => simp at hrecords
  | passed hpassed _ ih =>
    cases earlier with
    | nil =>
      -- the record itself cannot have been passed
      obtain ⟨rfl, -⟩ := List.cons.inj hrecords
      have := hpassed place hplace
      omega
    | cons d earlier =>
      obtain ⟨rfl, htail⟩ := List.cons.inj hrecords
      rcases ih htail with hfound | ⟨hbefore, earlier', hsublist, hrest⟩
      · exact .inl hfound
      · exact .inr ⟨fun r' hr' => List.mem_cons_of_mem _ (hbefore r' hr'), earlier',
          hsublist.cons _, hrest⟩
  | found =>
    cases earlier with
    | nil =>
      obtain ⟨rfl, -⟩ := List.cons.inj hrecords
      exact .inl rfl
    | cons d earlier =>
      obtain ⟨rfl, hrest⟩ := List.cons.inj hrecords
      refine .inr ⟨fun r' hr' => ?_, earlier, List.sublist_cons_self _ _, hrest⟩
      cases hr'
      exact List.mem_cons_self
  | ahead => exact .inr ⟨fun r' hr' => (nomatch hr'), earlier, .refl _, hrecords⟩

/-- If no record is found, those that are left are for later glyphs. -/
theorem lt_of_none (h : Selects places index records none rest)
    (hordered : LookupRecord.Ordered records) (hascending : places.Pairwise (· < ·))
    (hr : r ∈ rest) {place : Nat} (hplace : places[r.sequenceIndex.toNat]? = some place) :
    index < place := by
  generalize hfound : none = found at h
  induction h with
  | nil => cases hr
  | passed _ _ ih => exact ih (List.pairwise_cons.mp hordered).2 hr hfound
  | found => cases hfound
  | ahead hplace' hlt =>
    rcases List.mem_cons.mp hr with rfl | hr
    · rw [hplace] at hplace'
      cases hplace'
      exact hlt
    · have hle := (List.pairwise_cons.mp hordered).1 r hr
      exact Nat.lt_of_lt_of_le hlt (le_of_ascending hascending hplace' hplace hle)

end Selects

/-! ## §2 Rounds -/

/-- A record that is handed over, with the states before and after the round in which it is. -/
structure Handed (S : Type) where
  /-- The record. -/
  record : LookupRecord
  /-- The state in which the round begins. -/
  before : S
  /-- The state in which it ends. -/
  after : S

/-- Working through records until the last glyph of the rule has been passed, with the records that
    are handed over and the state at the end. How far a state has got is `reached`, and `round` is
    what a round does, for the record that it hands over or for none. -/
inductive Rounds {S : Type} (reached : S → Nat) (round : Option LookupRecord → S → S → Prop)
    (places : List Nat) (last : Nat) : List LookupRecord → S → List (Handed S) → S → Prop
  /-- The last glyph has been passed. -/
  | done {records : List LookupRecord} {s : S} (hpassed : last < reached s) :
      Rounds reached round places last records s [] s
  /-- There is no record for the glyph, and the round goes on by one. -/
  | idle {records : List LookupRecord} {s t s' : S} {handed : List (Handed S)}
      (hle : reached s ≤ last) (hnext : (nextRecord places (reached s) records).1 = none)
      (hround : round none s t) (hmoved : reached t = reached s + 1)
      (hrest :
        Rounds reached round places last (nextRecord places (reached s) records).2 t handed s') :
      Rounds reached round places last records s handed s'
  /-- A record is handed over, and the round goes past the glyph at least. -/
  | hand {records : List LookupRecord} {s t s' : S} {handed : List (Handed S)} {r : LookupRecord}
      (hle : reached s ≤ last) (hnext : (nextRecord places (reached s) records).1 = some r)
      (hround : round (some r) s t) (hmoved : reached s < reached t)
      (hrest :
        Rounds reached round places last (nextRecord places (reached s) records).2 t handed s') :
      Rounds reached round places last records s (⟨r, s, t⟩ :: handed) s'

/-- Which records are handed over. -/
structure Handing {S : Type} (reached : S → Nat) (places : List Nat) (records : List LookupRecord)
    (handed : List (Handed S)) : Prop where
  /-- They are handed over in order, and no more often than they occur. -/
  sublist : (handed.map Handed.record).Sublist records
  /-- The lookup of a record is invoked where the rule has matched the glyph that it is for. -/
  atPlace : ∀ h ∈ handed, places[h.record.sequenceIndex.toNat]? = some (reached h.before)
  /-- There are never two for one glyph. -/
  ascending : handed.Pairwise fun a b => a.record.sequenceIndex < b.record.sequenceIndex
  /-- A record is handed over after the lookups of those before it have come to their ends. -/
  inTurn : handed.Pairwise fun a b => reached a.after ≤ reached b.before
  /-- A record that comes first for a glyph of the rule is handed over, unless a lookup for an
      earlier glyph has gone past that glyph. -/
  complete : ∀ earlier r later place, records = earlier ++ r :: later →
    (∀ e ∈ earlier, e.sequenceIndex ≠ r.sequenceIndex) →
    places[r.sequenceIndex.toNat]? = some place →
      (∃ h ∈ handed, h.record = r) ∨
      ∃ h ∈ handed, h.record.sequenceIndex < r.sequenceIndex ∧ place < reached h.after

namespace Rounds

variable {S : Type} {reached : S → Nat} {round : Option LookupRecord → S → S → Prop}
variable {places : List Nat} {last : Nat} {records : List LookupRecord} {s s' : S}
variable {handed : List (Handed S)}

theorem reached_le_before (h : Rounds reached round places last records s handed s') :
    ∀ x ∈ handed, reached s ≤ reached x.before := by
  induction h with
  | done => exact fun x hx => absurd hx List.not_mem_nil
  | idle _ _ _ hmoved _ ih => exact fun x hx => by have := ih x hx; omega
  | hand _ _ _ hmoved _ ih =>
    intro x hx
    rcases List.mem_cons.mp hx with rfl | hx
    · exact Nat.le_refl _
    · have := ih x hx
      omega

theorem reached_le (h : Rounds reached round places last records s handed s') :
    reached s ≤ reached s' := by
  induction h with
  | done => exact Nat.le_refl _
  | idle _ _ _ hmoved _ ih => omega
  | hand _ _ _ hmoved _ ih => omega

/-- No round ends behind the end of the last one. -/
theorem reached_after_le (h : Rounds reached round places last records s handed s') :
    ∀ x ∈ handed, reached x.after ≤ reached s' := by
  induction h with
  | done => exact fun x hx => absurd hx List.not_mem_nil
  | idle _ _ _ _ _ ih => exact ih
  | hand _ _ _ _ hrest ih => exact List.forall_mem_cons.mpr ⟨hrest.reached_le, ih⟩

theorem sublist (h : Rounds reached round places last records s handed s') :
    (handed.map Handed.record).Sublist records := by
  induction h with
  | done => exact List.nil_sublist _
  | idle _ hnext _ _ _ ih =>
    have hselects := Selects.of_next hnext
    exact ih.trans hselects.sublist
  | hand _ hnext _ _ _ ih =>
    have hselects := Selects.of_next hnext
    exact (ih.cons_cons _).trans hselects.sublist

theorem atPlace (h : Rounds reached round places last records s handed s') :
    ∀ x ∈ handed, places[x.record.sequenceIndex.toNat]? = some (reached x.before) := by
  induction h with
  | done => exact fun x hx => absurd hx List.not_mem_nil
  | idle _ _ _ _ _ ih => exact ih
  | hand _ hnext _ _ _ ih =>
    have hselects := Selects.of_next hnext
    exact List.forall_mem_cons.mpr ⟨hselects.place_eq, ih⟩

theorem ascending (h : Rounds reached round places last records s handed s')
    (hordered : LookupRecord.Ordered records) :
    handed.Pairwise fun a b => a.record.sequenceIndex < b.record.sequenceIndex := by
  induction h with
  | done => exact .nil
  | idle _ hnext _ _ _ ih =>
    have hselects := Selects.of_next hnext
    exact ih (hordered.sublist hselects.sublist)
  | hand _ hnext _ hmoved hrest ih =>
    have hselects := Selects.of_next hnext
    obtain ⟨hfirst, hordered⟩ := List.pairwise_cons.mp (hordered.sublist hselects.sublist)
    refine List.pairwise_cons.mpr ⟨fun x hx => ?_, ih hordered⟩
    have hle := hfirst x.record (hrest.sublist.subset (List.mem_map_of_mem hx))
    -- the later record is handed over further ahead, so it is for another glyph
    refine UInt16.lt_of_le_of_ne hle fun heq => ?_
    have hplace := hselects.place_eq
    rw [heq, hrest.atPlace x hx] at hplace
    have := hrest.reached_le_before x hx
    have := Option.some.inj hplace
    omega

theorem inTurn (h : Rounds reached round places last records s handed s') :
    handed.Pairwise fun a b => reached a.after ≤ reached b.before := by
  induction h with
  | done => exact .nil
  | idle _ _ _ _ _ ih => exact ih
  | hand _ _ _ _ hrest ih => exact List.pairwise_cons.mpr ⟨hrest.reached_le_before, ih⟩

theorem complete (h : Rounds reached round places last records s handed s')
    (hordered : LookupRecord.Ordered records) (hascending : places.Pairwise (· < ·))
    {earlier later : List LookupRecord} {r : LookupRecord} {place : Nat}
    (hrecords : records = earlier ++ r :: later)
    (hfirst : ∀ e ∈ earlier, e.sequenceIndex ≠ r.sequenceIndex)
    (hplace : places[r.sequenceIndex.toNat]? = some place) (hlast : place ≤ last)
    (hle : reached s ≤ place) :
    (∃ h ∈ handed, h.record = r) ∨
      ∃ h ∈ handed, h.record.sequenceIndex < r.sequenceIndex ∧ place < reached h.after := by
  -- round by round the record is left, until it is its turn or its glyph has been passed
  induction h generalizing earlier with
  | done hpassed => omega
  | idle _ hnext _ hmoved _ ih =>
    have hselects := Selects.of_next hnext
    obtain ⟨-, earlier', hsublist, hrest⟩ := (hselects.pending hrecords hplace hle).resolve_left
      (fun h => nomatch h)
    have hlt := hselects.lt_of_none hordered hascending (hrest ▸ by simp) hplace
    exact ih (hordered.sublist hselects.sublist) hrest (fun e he => hfirst e (hsublist.subset he))
      (by omega)
  | @hand records s t _ _ r₀ _ hnext _ _ _ ih =>
    have hselects := Selects.of_next hnext
    rcases hselects.pending hrecords hplace hle with hfound | ⟨hbefore, earlier', hsublist, hrest⟩
    · cases hfound
      exact .inl ⟨_, List.mem_cons_self, rfl⟩
    · have hmem : r₀ ∈ earlier := hbefore r₀ rfl
      by_cases hpassed : reached t ≤ place
      · refine (ih (List.pairwise_cons.mp (hordered.sublist hselects.sublist)).2 hrest
          (fun e he => hfirst e (hsublist.subset he)) hpassed).imp ?_ ?_
        · exact fun ⟨x, hx, heq⟩ => ⟨x, List.mem_cons_of_mem _ hx, heq⟩
        · exact fun ⟨x, hx, hlt⟩ => ⟨x, List.mem_cons_of_mem _ hx, hlt⟩
      · have hseq : r₀.sequenceIndex ≤ r.sequenceIndex := by
          subst hrecords
          exact (List.pairwise_append.mp hordered).2.2 r₀ hmem r List.mem_cons_self
        exact .inr ⟨_, List.mem_cons_self, UInt16.lt_of_le_of_ne hseq (hfirst r₀ hmem),
          Nat.lt_of_not_le hpassed⟩

/-- Which records are handed over does not depend on what the rounds do. -/
theorem handing (h : Rounds reached round places last records s handed s')
    (hordered : LookupRecord.Ordered records) (hascending : places.Pairwise (· < ·))
    (hinside : ∀ place ∈ places, reached s ≤ place ∧ place ≤ last) :
    Handing reached places records handed where
  sublist := h.sublist
  atPlace := h.atPlace
  ascending := h.ascending hordered
  inTurn := h.inTurn
  complete earlier r later place hrecords hfirst hplace := by
    obtain ⟨hle, hlast⟩ := hinside place (List.mem_of_getElem? hplace)
    exact h.complete hordered hascending hrecords hfirst hplace hlast hle

/-- If no round goes further than just behind the last glyph, the last round ends there. -/
theorem reached_eq {I : S → Prop} (h : Rounds reached round places last records s handed s')
    (hs : I s) (hle : reached s ≤ last + 1)
    (hround : ∀ found s t, I s → reached s ≤ last →
      (∀ r, found = some r → r ∈ records ∧ places[r.sequenceIndex.toNat]? = some (reached s)) →
      round found s t → I t ∧ reached t ≤ last + 1) :
    I s' ∧ reached s' = last + 1 := by
  induction h with
  | done hpassed => exact ⟨hs, by omega⟩
  -- no record is for this glyph, and the round goes on by one
  | @idle records s t _ _ hle' hnext hround' hmoved _ ih =>
    have hrest := (nextRecord_subset places (reached s) records).2
    have ht := (hround none s t hs hle' (fun r hr => nomatch hr) hround').1
    exact ih ht (by omega) fun found s t hs hle hfound =>
      hround found s t hs hle fun r hr => ⟨hrest r (hfound r hr).1, (hfound r hr).2⟩
  -- what the nested lookup gets is one of the records, for the glyph that is reached
  | @hand records s t _ _ r hle' hnext hround' _ _ ih =>
    obtain ⟨hfirst, hrest⟩ := nextRecord_subset places (reached s) records
    have hselects := Selects.of_next hnext
    have hfound : ∀ r', some r = some r' →
        r' ∈ records ∧ places[r'.sequenceIndex.toNat]? = some (reached s) := by
      intro r' hr'
      cases hr'
      exact ⟨hfirst r hnext, hselects.place_eq⟩
    obtain ⟨ht, hle⟩ := hround (some r) s t hs hle' hfound hround'
    exact ih ht hle fun found s t hs hle hfound =>
      hround found s t hs hle fun r hr => ⟨hrest r (hfound r hr).1, (hfound r hr).2⟩

end Rounds

namespace RuleMatch

variable {rule : RuleMatch} {f : GlyphFilter} {items : Array GlyphItem} {index last : Nat}

/-- The places of a rule lie between the first and the last of them. -/
theorem mem_places_le (hlast : (rule.places f items index).getLast? = some last) {place : Nat}
    (hplace : place ∈ rule.places f items index) : index ≤ place ∧ place ≤ last := by
  constructor
  · rcases GlyphFilter.mem_places hplace with rfl | ⟨hlt, -⟩
    · exact Nat.le_refl _
    · exact Nat.le_of_lt hlt
  · obtain ⟨i, hi⟩ := List.getElem?_of_mem hplace
    rw [List.getLast?_eq_getElem?] at hlast
    obtain ⟨hbound, -⟩ := List.getElem?_eq_some_iff.mp hi
    exact le_of_ascending (GlyphFilter.pairwise_places _ index) hi hlast (by omega)

/-- A rule that has been read, worked through from its first glyph on. -/
theorem Loaded.handing {S : Type} {reached : S → Nat} {round : Option LookupRecord → S → S → Prop}
    {s s' : S} {handed : List (Handed S)} (hrule : rule.Loaded)
    (hlast : (rule.places f items index).getLast? = some last)
    (h : Rounds reached round (rule.places f items index) last rule.records s handed s')
    (hindex : reached s = index) :
    Handing reached (rule.places f items index) rule.records handed := by
  refine h.handing hrule.ordered (GlyphFilter.pairwise_places _ _) fun place hplace => ?_
  rw [hindex]
  exact mem_places_le hlast hplace

end RuleMatch

end OpenTypeLayout
