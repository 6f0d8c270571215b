import OpenTypeLayout.Proofs.ContextLength
import OpenTypeLayout.Proofs.Substitution.Counts
import OpenTypeLayout.Proofs.Substitution.Retention
import OpenTypeLayout.Proofs.Substitution.Rounds

/-!
# What a substitution rule consumes

A rule consumes the glyphs that it has matched, and no lookup that it invokes reaches past the last
of them, as long as all of these lookups skip the same glyphs. A lookup only knows how many glyphs
of the rule are left. But it finds the same glyphs as the rule has, because their properties have
been kept.

`SubstM.confined_applyLookup` is about the lookups, of every type and nested to any depth, and
`SubstM.retains_applyRule` about a rule whose lookups are confined.
-/

namespace OpenTypeLayout

namespace SubstM

open Program

open SubstState (Retained KnownBetween)

variable {σ : Type} {s s' : SubstState σ} {flag : LookupFlag} {contextLength : UInt16} {last : Nat}

/-! ## §1 Ligatures -/

theorem retains_emitSkipped (component : Nat) (ligature : UInt16) (place rounds : Nat) :
    Retains (emitSkipped component ligature place rounds) s fun _ _ => True := by
  induction rounds generalizing s with
  | zero => exact .pure trivial
  | succ rounds ih =>
    rw [emitSkipped]
    apply Retains.get_bind
    dsimp only
    split
    case isFalse => exact .pure trivial
    case isTrue =>
      refine .lift_bind fun item _ => .lift_bind fun number _ => ?_
      exact (retains_emit 1 _ number ligature).bind fun _ _ _ _ => ih

theorem retains_emitComponents (ligature : UInt16) {component : Nat} {places : List Nat}
    (hlast : places.getLast? = some last) :
    Retains (emitComponents ligature component places) s fun _ s' =>
      s'.buffer.position = last + 1 := by
  induction places generalizing s component with
  | nil => cases hlast
  | cons place rest ih =>
    rw [emitComponents]
    apply Retains.get_bind
    refine (retains_emitSkipped component ligature place _).bind fun _ s₁ _ _ => ?_
    refine (retains_moveTo (place + 1)).bind fun _ s₂ _ hs₂ => ?_
    cases rest with
    | nil =>
      cases hlast
      exact .pure hs₂
    | cons next rest => exact ih (by simpa using hlast)

/-- A ligature goes past its last component. -/
theorem retains_emitLigature (glyph : GlyphId) {places : List Nat}
    (hhead : places.head? = some s.buffer.position) (hlast : places.getLast? = some last) :
    Retains (emitLigature glyph places) s fun _ s' => s'.buffer.position = last + 1 := by
  obtain ⟨tail, rfl⟩ := List.head?_eq_some_iff.mp hhead
  unfold emitLigature
  apply Retains.get_bind
  dsimp only
  split
  case isTrue hcontiguous =>
    rw [hlast] at hcontiguous
    have hend : s.buffer.position + (s.buffer.position :: tail).length = last + 1 := by
      have := Option.some.inj hcontiguous
      simp only [List.length_cons] at this ⊢
      omega
    split
    case isTrue => exact (retains_emit _ _ _ _).mono fun _ s' hs' => hs'.trans hend
    case isFalse =>
      refine retains_allocateLigature.bind fun ligature s₁ _ hs₁ => ?_
      exact (retains_emit _ _ _ _).mono fun _ s' hs' => by rw [hs', hs₁, hend]
  case isFalse hscattered =>
    -- if there were no component after the first, the components would follow each other directly
    cases tail with
    | nil => exact absurd rfl hscattered
    | cons next tail =>
      refine retains_allocateLigature.bind fun ligature s₁ _ _ => ?_
      refine (retains_emit _ _ _ _).bind fun _ s₂ _ _ => ?_
      exact retains_emitComponents ligature (by simpa using hlast)

theorem retains_applyLigature (item : GlyphItem) (p : GlyphProperty)
    {subtables : List LigatureSubst}
    (hcounts : ∀ m ∈ subtables, ∀ ligatures ∈ m.entries, ∀ l ∈ ligatures, l.count ≤ 0xFFFF)
    (hknown : s.KnownBetween s.buffer.position last)
    (hends :
      (GlyphFilter.mk s.gdef flag).EndsAt s.buffer.input contextLength s.buffer.position last) :
    Retains (applyLigature flag contextLength item p subtables) s (EndsBy (last + 1)) := by
  -- looking at glyphs loses nothing that is known, so the bound is handed on from subtable to
  -- subtable
  induction subtables generalizing s with
  | nil => exact retains_notApplied
  | cons subtable rest ih =>
    rw [applyLigature]
    refine .lift_bind fun found hfound => ?_
    have hrest := fun m hm => hcounts m (List.mem_cons_of_mem subtable hm)
    cases found with
    | none => exact ih hrest hknown hends
    | some ligatures =>
      apply Retains.get_bind
      dsimp only
      cases hsearch : firstLigature ⟨s.gdef, flag⟩ contextLength s.buffer.input s.buffer.position
        p.isMark ligatures.toList (s.buffer.position + 1) with
      | mk found bound =>
        dsimp only
        refine (retains_rememberInput _ _).bind fun _ s₁ hretained hs₁ => ?_
        -- no ligature of the subtable matches
        cases found with
        | none =>
          apply ih hrest
          · rw [hs₁]
            exact hretained.knownBetween hknown
          · rw [hs₁]
            exact hends.of_agree (hretained.agree hknown flag)
        | some found =>
          obtain ⟨glyph, m⟩ := found
          -- the last component of the ligature is at the place up to which the text is known, or
          -- before
          obtain ⟨l, hl, hfits, lastPlace, hnth, hplaces⟩ := firstLigature_last hsearch
          have hentry := CoverageMap.mem_of_find (LayoutError.ofParse_eq_ok hfound)
          have hle := hends.le_last
            (hcounts subtable List.mem_cons_self _ hentry l (Array.mem_toList_iff.mp hl)) hfits hnth
          refine (retains_recordClass _ glyph).bind fun _ s₂ _ hs₂ => ?_
          have hhead : m.places.head? = some s₂.buffer.position := by
            rw [hs₂, hs₁, (firstLigature_eq_some hsearch).1.head]
          refine (retains_emitLigature glyph hhead hplaces).bind fun _ s₃ _ hs₃ => .pure fun _ => ?_
          omega

/-! ## §2 Rules -/

/-- A program that may be used as a lookup with the flag. If it applies, it has not gone past the
    last of the glyphs that the context length stands for. -/
def Confined (flag : LookupFlag) (x : UInt16 → SubstM σ Bool) : Prop :=
  ∀ contextLength s last, s.buffer.position < s.buffer.size →
    s.KnownBetween s.buffer.position last →
    (GlyphFilter.mk s.gdef flag).EndsAt s.buffer.input contextLength s.buffer.position last →
      Retains (x contextLength) s (EndsBy (last + 1))

variable {invoke : Invoke σ} {rule : RuleMatch}

/-- A round stays within the rule if the lookup of its record does. -/
theorem Round.retained {places : List Nat} {found : Option LookupRecord} {t : SubstState σ}
    (hlawful : ∀ i contextLength, Lawful (invoke i contextLength))
    (hconfined : ∀ r, found = some r → Confined flag (invoke r.lookupIndex.toNat))
    (hends : ∀ r, found = some r → ∀ contextLength,
      fit16 (remainingFrom places s.buffer.position) = .ok contextLength →
      (GlyphFilter.mk s.gdef flag).EndsAt s.buffer.input contextLength s.buffer.position last)
    (hlt : s.buffer.position < s.buffer.size) (hle : s.buffer.position ≤ last)
    (hknown : s.KnownBetween s.buffer.position last) (h : Round invoke places found s t) :
    Retained s t ∧ t.buffer.position ≤ last + 1 := by
  -- the lookup of the record, if one is handed over, stays within the places of the rule
  have hinvoke : Retains (invokeRecord invoke places s.buffer.position found) s
      (EndsBy (last + 1)) := by
    cases found with
    | none => exact retains_notApplied
    | some r =>
      exact .lift_bind fun contextLength hlength =>
        hconfined r rfl contextLength s last hlt hknown (hends r rfl contextLength hlength)
  obtain ⟨applied, s₁, hrun, hcopy⟩ := outcome_bind_eq_ok h
  obtain ⟨hretained, hbound⟩ := hinvoke.of_ok hrun
  -- if it applies, it ends where it is confined to, and otherwise one glyph is copied
  cases applied with
  | true =>
    cases hcopy
    exact ⟨hretained, hbound rfl⟩
  | false =>
    have hrecord : Lawful (invokeRecord invoke places s.buffer.position found) :=
      Discipline.lawful_invokeRecord (fun r _ => hlawful r.lookupIndex.toNat) (.inr trivial)
    obtain ⟨-, hstep⟩ :=
      (hrecord s (Discipline.unrestricted_holds (Nat.le_of_lt hlt)) hlt).of_ok hrun
    cases hstep with
    | notApplied hunmoved =>
      obtain ⟨hcopied, hposition⟩ := retains_copy.of_ok hcopy
      have := hunmoved.text.position
      exact ⟨hretained.trans hcopied, by omega⟩

/-- If the lookups that a rule invokes are confined, the rule consumes just the glyphs that it has
    matched. -/
theorem retains_applyRule (hlawful : ∀ i contextLength, Lawful (invoke i contextLength))
    (hconfined : ∀ r ∈ rule.records, Confined flag (invoke r.lookupIndex.toNat))
    (hlt : s.buffer.position < s.buffer.size) (hknown : s.KnownBetween s.buffer.position last)
    (hlast : (GlyphFilter.mk s.gdef flag).nth? s.buffer.input (rule.inputCount - 1)
      s.buffer.position = some last) :
    Retains (applyRule invoke flag rule) s fun _ s' => s'.buffer.position = last + 1 := by
  -- the places of the rule end with the last glyph that it has matched
  have hplaces : (rule.places ⟨s.gdef, flag⟩ s.buffer.input s.buffer.position).getLast? =
      some last := GlyphFilter.getLast?_places hlast
  have hsize : last < s.buffer.size := GlyphFilter.nth?_lt_size hlt hlast
  have hle : s.buffer.position ≤ last :=
    Nat.le_trans (Nat.le_add_right _ _) (GlyphFilter.nth?_le hlast)
  unfold Retains Meets
  rcases hrun : (applyRule invoke flag rule).outcome s with ⟨e | ⟨⟩, s'⟩
  -- a failure leaves nothing to prove
  case error => exact trivial
  case ok =>
    obtain ⟨handed, hrounds⟩ := rounds_applyRule hlawful hlt hplaces hrun
    -- on the way nothing is lost that is known, and so the lookups see the glyphs of the rule
    let I (t : SubstState σ) : Prop := Retained s t ∧ s.buffer.position ≤ t.buffer.position
    have hround : ∀ found s₁ t, I s₁ → reached s₁ ≤ last →
        (∀ r, found = some r → r ∈ rule.records ∧
          (rule.places ⟨s.gdef, flag⟩ s.buffer.input s.buffer.position)[r.sequenceIndex.toNat]? =
            some (reached s₁)) →
        Round invoke (rule.places ⟨s.gdef, flag⟩ s.buffer.input s.buffer.position) found s₁ t →
          I t ∧ reached t ≤ last + 1 := by
      rintro found s₁ t ⟨hretained, hpassed⟩ hle₁ hfound hround
      have hlt₁ : s₁.buffer.position < s₁.buffer.size := by
        rw [hretained.size]
        exact Nat.lt_of_le_of_lt hle₁ hsize
      have hknown₁ := hknown.mono hpassed (Nat.le_refl last)
      -- the context that the record gets ends with the rule, wherever the lookup begins
      have hends : ∀ r, found = some r → ∀ contextLength, fit16 (remainingFrom
          (rule.places ⟨s.gdef, flag⟩ s.buffer.input s.buffer.position) s₁.buffer.position) =
            .ok contextLength → (GlyphFilter.mk s₁.gdef flag).EndsAt s₁.buffer.input contextLength
              s₁.buffer.position last := by
        intro r hr contextLength hlength
        have hends := RuleMatch.endsAt hlast (hfound r hr).2 hlength
        exact hends.of_agree (hretained.agree hknown₁ flag)
      obtain ⟨hretained₁, hbound⟩ := hround.retained hlawful
        (fun r hr => hconfined r (hfound r hr).1) hends hlt₁ hle₁ (hretained.knownBetween hknown₁)
      have hmoved := (hround.moved hlawful hlt₁).1
      exact ⟨⟨hretained.trans hretained₁, by omega⟩, hbound⟩
    obtain ⟨⟨hretained, -⟩, hreached⟩ :=
      hrounds.reached_eq ⟨.refl s, Nat.le_refl _⟩ (Nat.le_succ_of_le hle) hround
    exact ⟨hretained, hreached⟩

/-- A rule matches at the current glyph: the glyphs that it asks for are there, and it is known of
    all of them up to the last which ones count. -/
structure Matches (flag : LookupFlag) (rules : List RuleCandidate) (rule : RuleMatch)
    (s : SubstState σ) (last : Nat) : Prop where
  candidate : ∃ r ∈ rules, r.result = rule
  nth : (GlyphFilter.mk s.gdef flag).nth? s.buffer.input (rule.inputCount - 1) s.buffer.position =
    some last
  known : s.KnownBetween s.buffer.position last

/-- Looking for a rule makes known what has been looked at. -/
theorem retains_findRule {rules : List RuleCandidate}
    (hcandidates : ∀ r ∈ rules, r.context.input.length + 1 = r.result.inputCount)
    (hkeeps : ∀ g, s.gdef = some g → g.keepsProperties = true) :
    Retains (findRule flag rules) s fun found t => t.buffer.position = s.buffer.position ∧
      ∀ rule, found = some rule → ∃ last, Matches flag rules rule t last := by
  apply Retains.get_bind
  dsimp only
  rcases hmatch : firstMatch ⟨s.gdef, flag⟩ (placeOf s.buffer) rules (placeOf s.buffer).reach with
    ⟨found, reach⟩
  have houtput := ((retains_rememberOutput (s := s) reach.low).of_ok rfl).1
  refine ⟨houtput.trans ((retains_rememberInput _ _).of_ok rfl).1, rfl, fun rule hrule => ?_⟩
  cases hrule
  obtain ⟨r, hr, rfl, last, hnth, hlast⟩ := firstMatch_last hmatch
  have hlength : r.result.inputCount - 1 = r.context.input.length := by
    rw [← hcandidates r hr, Nat.add_sub_cancel]
  refine ⟨last, ⟨r, hr, rfl⟩, ?_, hkeeps, fun hgdef i x hlow hhigh hx => ?_⟩
  · rw [hlength]
    exact (agree_of_settled (settled_rememberRange s.gdef s.buffer.input _ _) flag _ _).nth? hnth
  · -- all of the rule has been looked at
    obtain ⟨g, hg⟩ : ∃ g, s.gdef = some g := Option.isSome_iff_exists.mp hgdef
    have hx : (rememberRange s.gdef s.buffer.input (s.buffer.position + 1) reach.high)[i]? =
        some x := hx
    rw [getElem?_rememberRange, if_pos ⟨hlow, by omega⟩, Option.map_eq_some_iff] at hx
    obtain ⟨y, -, rfl⟩ := hx
    rw [hg]
    exact Gdef.known_remember_of_keeps (hkeeps g hg) y

theorem retains_applyContext (hlawful : ∀ i contextLength, Lawful (invoke i contextLength))
    (item : GlyphItem) {subtables : List ContextLookup}
    (hconfined : ∀ c ∈ subtables, ∀ m ∈ c.results, ∀ r ∈ m.records,
      Confined flag (invoke r.lookupIndex.toNat))
    (hcount : ∀ c ∈ subtables, ∀ m ∈ c.results, m.inputCount ≤ 0xFFFF)
    (hlt : s.buffer.position < s.buffer.size) (hknown : s.KnownBetween s.buffer.position last)
    (hends :
      (GlyphFilter.mk s.gdef flag).EndsAt s.buffer.input contextLength s.buffer.position last) :
    Retains (applyContext invoke flag contextLength item subtables) s (EndsBy (last + 1)) := by
  -- the rules of a subtable are looked through, which loses nothing that is known
  induction subtables generalizing s with
  | nil => exact retains_notApplied
  | cons subtable rest ih =>
    rw [applyContext_cons]
    refine .lift_bind fun rules hrules => ?_
    have hcandidates := fun r (hr : r ∈ rules) =>
      ContextLookup.candidates_fit (LayoutError.ofParse_eq_ok hrules) hr
    refine (retains_findRule (fun r hr => (hcandidates r hr).1) hknown.keeps).bind
      fun found t hretained ht => ?_
    obtain ⟨hposition, hfound⟩ := ht
    have hlt' : t.buffer.position < t.buffer.size := by
      rw [hposition, hretained.size]
      exact hlt
    have hends' : (GlyphFilter.mk t.gdef flag).EndsAt t.buffer.input contextLength
        t.buffer.position last := by
      rw [hposition]
      exact hends.of_agree (hretained.agree hknown flag)
    cases found with
    | none =>
      -- no rule of this subtable matches
      refine ih (fun c hc => hconfined c (List.mem_cons_of_mem subtable hc))
        (fun c hc => hcount c (List.mem_cons_of_mem subtable hc)) hlt' ?_ hends'
      rw [hposition]
      exact hretained.knownBetween hknown
    | some rule =>
      -- the rule that is found ends with its last glyph, which is at most the last one of the
      -- context
      obtain ⟨lastPlace, ⟨r, hr, rfl⟩, hnth, hknown'⟩ := hfound rule rfl
      have hresult := ContextLookup.candidates_results (LayoutError.ofParse_eq_ok hrules) hr
      have hle := hends'.le_last (hcount subtable List.mem_cons_self _ hresult)
        (hcandidates r hr).2 hnth
      refine (retains_applyRule hlawful (hconfined subtable List.mem_cons_self _ hresult) hlt'
        hknown' hnth).bind fun _ s' _ hs' => .pure fun _ => ?_
      omega

/-! ## §3 Lookups of every type -/

variable {chooser : AlternateChooser σ} {layout : LayoutTable Substitution}

/-- A lookup that replaces the current glyph only goes past that glyph. -/
theorem confined_atCurrent {action : GlyphItem → GlyphProperty → SubstM σ Bool}
    (haction : ∀ s item p bound, s.buffer.position + 1 ≤ bound →
      Retains (action item p) s (EndsBy bound)) :
    Confined flag fun contextLength =>
      if fitsContext 1 contextLength then atCurrent flag action else return false := by
  intro contextLength s last _ _ hends
  have hle := hends.place_le
  dsimp only
  split
  · exact retains_atCurrent fun t item p _ ht => haction t item p _ (by omega)
  · exact retains_notApplied

theorem confined_applySubtables (hlawful : ∀ i contextLength, Lawful (invoke i contextLength))
    {lookup : Lookup Substitution} (hwords : lookup.subtables.WithinWords)
    (hconfined : ∀ m ∈ lookup.subtables.results, ∀ r ∈ m.records,
      Confined lookup.flag (invoke r.lookupIndex.toNat)) :
    Confined lookup.flag (applySubtables chooser invoke lookup) := by
  obtain ⟨flag, subtables⟩ := lookup
  unfold applySubtables
  -- only ligatures and contexts reach further than the current glyph
  cases subtables with
  | single subtables =>
    exact confined_atCurrent fun s item p bound => retains_applySingle subtables item p
  | multiple subtables =>
    exact confined_atCurrent fun s item p bound => retains_applyMultiple subtables item p
  | alternate subtables =>
    exact confined_atCurrent fun s item p bound => retains_applyAlternate chooser subtables item p
  | ligature subtables =>
    -- a ligature is looked for only if one glyph fits the context
    intro contextLength s last _ hknown hends
    dsimp only
    split
    case isTrue =>
      have hcounts := Substitution.withinWords_ligature.mp hwords
      refine retains_atCurrent fun t item p hretained ht => ?_
      refine retains_applyLigature item p (fun m hm => hcounts m (Array.mem_toList_iff.mp hm)) ?_ ?_
      · rw [ht]
        exact hretained.knownBetween hknown
      · rw [ht]
        exact hends.of_agree (hretained.agree hknown flag)
    case isFalse => exact retains_notApplied
  | context subtables | chained subtables =>
    intro contextLength s last hlt hknown hends
    refine retains_atCurrent fun t item p hretained ht => ?_
    -- what holds of all rules of the lookup holds of those of a subtable
    refine retains_applyContext hlawful item ?_ ?_ ?_ ?_ ?_
    · exact fun c hc m hm => hconfined m (List.mem_flatMap.mpr ⟨c, hc, hm⟩)
    · exact fun c hc m hm => hwords.rules m (List.mem_flatMap.mpr ⟨c, hc, hm⟩)
    · rw [ht, hretained.size]
      exact hlt
    · rw [ht]
      exact hretained.knownBetween hknown
    · rw [ht]
      exact hends.of_agree (hretained.agree hknown flag)
  | reverse => exact fun _ _ _ _ _ _ => retains_notApplied

/-- A lookup is confined if all that it reaches has the same flag, however deeply it may
    nest others. -/
theorem confined_applyLookup
    (hwords : ∀ {i lookup}, layout.lookup i = .ok lookup → lookup.subtables.WithinWords)
    {index : Nat} (hflag : ∀ j lookup, layout.Reaches index j → layout.lookup j = .ok lookup →
      lookup.flag = flag) (levels : Nat) :
    Confined flag (applyLookup chooser layout levels index) := by
  -- the levels bound the recursion: a rule invokes lookups with one level less
  induction levels generalizing index with
  | zero => exact fun _ _ _ _ _ _ => .throw
  | succ levels ih =>
    intro contextLength s last hlt hknown hends
    rw [applyLookup_succ]
    refine .lift_bind fun lookup hok => ?_
    have hlookup := LayoutError.ofParse_eq_ok hok
    obtain rfl := hflag index lookup .refl hlookup
    refine confined_applySubtables (lawful_applyLookup chooser layout levels) (hwords hlookup)
      (fun m hm r hr => ih fun j lookup' hreaches => ?_) contextLength s last hlt hknown hends
    exact hflag j lookup' (.head ⟨lookup, hlookup, m, hm, r, hr, rfl⟩ hreaches)

end SubstM

end OpenTypeLayout
