import OpenTypeLayout.Proofs.ContextLength
import OpenTypeLayout.Proofs.Positioning.Rounds

/-!
# What a positioning rule covers

When a rule is worked through, positioning goes past the glyphs that the rule has matched and past
no others, as long as all lookups that the rule invokes skip the same glyphs. Positioning changes no
glyph, so that a lookup finds the glyphs of the rule again if it knows how many of them are left.

`PosM.confined_applyLookup` is about the lookups, of every type and nested to any depth, and
`PosM.answers_applyRule` about a rule whose lookups are confined.
-/

namespace OpenTypeLayout

namespace PosM

open PosState (Kept Ready)

variable {σ α β : Type} {c : PosContext σ} {fails : LayoutError → Prop} {text : Array GlyphItem}
variable {s s' : PosState σ} {flag : LookupFlag} {index last bound : Nat} {contextLength : UInt16}

/-! ## §1 Answers -/

/-- Whatever a program answers when it is run from a state meets a condition. -/
def Answers (x : PosM σ α) (s : PosState σ) (condition : α → Prop) : Prop :=
  Program.Meets x s (fun a _ => condition a) fun _ _ => True

section Programs

variable {x : PosM σ α} {condition : α → Prop} {ends : β → Prop}

theorem Answers.pure {a : α} (h : condition a) : Answers (Pure.pure a) s condition := h

theorem Answers.throw {e : LayoutError} : Answers (throw e : PosM σ α) s condition := trivial

/-- The answer of a program is that of its last part. -/
theorem Answers.bind {f : α → PosM σ β} (hf : ∀ a t, Answers (f a) t ends) :
    Answers (x >>= f) s ends :=
  (Program.meets_true x s).bind fun a t _ => hf a t

theorem Answers.get_bind {f : PosState σ → PosM σ β} (hf : Answers (f s) s ends) :
    Answers (get >>= f) s ends := hf

theorem Answers.lift_bind {r : Except LayoutError α} {f : α → PosM σ β}
    (hf : ∀ a, r = .ok a → Answers (f a) s ends) :
    Answers ((liftM r : PosM σ α) >>= f) s ends := by
  cases r with
  | error e => exact trivial
  | ok a => exact hf a rfl

end Programs

/-! ## §2 Lookups without context -/

/-- A lookup that applies has not gone past `bound`. -/
def EndsBy (bound : Nat) (answer : Option Nat) : Prop := ∀ next, answer = some next → next ≤ bound

theorem answers_none : Answers (pure none) s (EndsBy bound) := .pure fun _ h => nomatch h

theorem answers_some {next : Nat} (hbound : next ≤ bound) :
    Answers (pure (some next)) s (EndsBy bound) := .pure fun _ h => Option.some.inj h ▸ hbound

/-- A lookup may be left out under some condition. -/
theorem answers_ite {condition : Prop} [Decidable condition] {x : PosM σ (Option Nat)}
    (hx : Answers x s (EndsBy bound)) :
    Answers (if condition then x else pure none) s (EndsBy bound) := by
  split
  · exact hx
  · exact answers_none

/-- What is done at an index is done with the same text. -/
theorem answers_atGlyph {action : GlyphItem → GlyphProperty → PosM σ (Option Nat)}
    (haction : ∀ item p t, Kept c s t → Stays s t → Answers (action item p) t (EndsBy bound)) :
    Answers (atGlyph c flag index action) s (EndsBy bound) := by
  apply Answers.get_bind
  split
  case h_1 => exact answers_none
  case h_2 item _ =>
    have hremember : Program.Meets (remember c index (index + 1)) s
        (fun _ t => Kept c s t ∧ Stays s t) fun _ _ => True :=
      ⟨⟨settled_rememberRange c.gdef s.glyphs _ _, rfl⟩, rfl, fun _ => id⟩
    refine hremember.bind fun _ t ht => ?_
    split
    case h_1 => exact answers_none
    case h_2 p _ => exact haction item p t ht.1 ht.2

theorem answers_applySingle (subtables : Array SinglePos) (item : GlyphItem)
    (hbound : index + 1 ≤ bound) :
    Answers (applySingle c subtables index item) s (EndsBy bound) := by
  refine .bind fun found _ => ?_
  cases found with
  | none => exact answers_none
  | some value => exact .bind fun _ _ => answers_some hbound

/-- A pair does not reach past its second glyph. -/
theorem answers_applyPair (subtables : Array PairPos) (item : GlyphItem)
    (hbound : ∀ second, (GlyphFilter.mk c.gdef flag).next? s.glyphs index = some second →
      second + 1 ≤ bound) :
    Answers (applyPair c flag subtables index item) s (EndsBy bound) := by
  apply Answers.get_bind
  split
  case h_1 => exact .bind fun _ _ => answers_none
  case h_2 second hsecond =>
    refine .bind fun _ _ => .lift_bind fun found hfound => ?_
    cases found with
    | none => exact answers_none
    | some found =>
      obtain ⟨subtable, -, hanswer⟩ := firstAnswer_eq_some (LayoutError.ofParse_eq_ok hfound)
      obtain ⟨-, hnext⟩ := pairAnswer_eq_some hanswer
      have hle : found.2 ≤ second + 1 := by
        rw [hnext]
        split <;> omega
      exact .bind fun _ _ => .bind fun _ _ =>
        answers_some (Nat.le_trans hle (hbound second hsecond))

theorem answers_applyCursive (subtables : Array CursivePos) (item : GlyphItem) (p : GlyphProperty)
    (hbound : index + 1 ≤ bound) :
    Answers (applyCursive c subtables index item p) s (EndsBy bound) := by
  rw [applyCursive_eq]
  split
  case isTrue => exact .bind fun _ _ => answers_none
  case isFalse =>
    refine .bind fun found _ => ?_
    cases found with
    | none => exact .bind fun _ _ => answers_none
    | some joins => exact .bind fun _ _ => .bind fun _ _ => answers_some hbound

theorem answers_attachAt (target : Nat) (mark : GlyphItem) (targetGlyph : GlyphId)
    (anchors : Except ParseError (Option (Anchor × Anchor))) (hbound : index + 1 ≤ bound) :
    Answers (attachAt c index target mark targetGlyph anchors) s (EndsBy bound) := by
  refine .bind fun found _ => ?_
  cases found with
  | none => exact answers_none
  | some found =>
    exact .bind fun _ _ => .bind fun _ _ => .bind fun _ _ => answers_some hbound

theorem answers_applyMarkBase (subtables : Array MarkBasePos) (item : GlyphItem)
    (hbound : index + 1 ≤ bound) :
    Answers (applyMarkBase c subtables index item) s (EndsBy bound) := by
  unfold applyMarkBase
  split
  case h_1 => exact answers_none
  case h_2 =>
    refine .bind fun found _ => ?_
    split
    case h_1 => exact answers_none
    case h_2 => exact answers_ite (answers_attachAt _ _ _ _ hbound)

theorem answers_applyMarkLigature (subtables : Array MarkLigPos) (item : GlyphItem)
    (hbound : index + 1 ≤ bound) :
    Answers (applyMarkLigature c subtables index item) s (EndsBy bound) := by
  unfold applyMarkLigature
  split
  case h_1 => exact answers_none
  case h_2 =>
    refine .bind fun found _ => ?_
    split
    case h_1 => exact answers_none
    case h_2 => exact answers_ite (answers_attachAt _ _ _ _ hbound)

theorem answers_applyMarkMark (subtables : Array MarkBasePos) (item : GlyphItem)
    (hbound : index + 1 ≤ bound) :
    Answers (applyMarkMark c flag subtables index item) s (EndsBy bound) := by
  unfold applyMarkMark
  split
  case h_1 => exact answers_none
  case h_2 =>
    refine .bind fun t _ => .bind fun _ _ => ?_
    split
    case h_1 => exact answers_none
    case h_2 => exact answers_ite (answers_attachAt _ _ _ _ hbound)

/-! ## §3 Rules -/

/-- A program that may be used as a lookup with the flag on texts that settle to a certain one. If
    it applies, it has not gone past the last of the glyphs that the context length stands for. -/
def Confined (c : PosContext σ) (flag : LookupFlag) (text : Array GlyphItem)
    (x : Nat → UInt16 → PosM σ (Option Nat)) : Prop :=
  ∀ s index contextLength last, settled c.gdef s.glyphs = settled c.gdef text → s.Ready index →
    (GlyphFilter.mk c.gdef flag).EndsAt text contextLength index last →
      Answers (x index contextLength) s (EndsBy (last + 1))

variable {invoke : Invoke σ} {rule : RuleMatch}

theorem answers_invokeRecord {places : List Nat} {found : Option LookupRecord}
    (hconfined : ∀ r, found = some r → Confined c flag text (invoke r.lookupIndex.toNat))
    (hends : ∀ r, found = some r → ∀ contextLength,
      fit16 (remainingFrom places index) = .ok contextLength →
      (GlyphFilter.mk c.gdef flag).EndsAt text contextLength index last)
    (htext : settled c.gdef s.glyphs = settled c.gdef text) (hs : s.Ready index) :
    Answers (invokeRecord invoke places index found) s (EndsBy (last + 1)) := by
  cases found with
  | none => exact answers_none
  | some r =>
    exact .lift_bind fun contextLength hlength =>
      hconfined r rfl s index contextLength last htext hs (hends r rfl contextLength hlength)

/-- A round stays within the rule if the lookup of its record does. -/
theorem Round.confined {places : List Nat} {found : Option LookupRecord} {a b : PosState σ × Nat}
    (hconfined : ∀ r, found = some r → Confined c flag text (invoke r.lookupIndex.toNat))
    (hends : ∀ r, found = some r → ∀ contextLength,
      fit16 (remainingFrom places a.2) = .ok contextLength →
      (GlyphFilter.mk c.gdef flag).EndsAt text contextLength a.2 last)
    (htext : settled c.gdef a.1.glyphs = settled c.gdef text) (ha : a.1.Ready a.2)
    (hle : a.2 ≤ last) (h : Round invoke places found a b) : b.2 ≤ last + 1 := by
  obtain ⟨answer, hanswer, hnext⟩ := h
  have hbound := (answers_invokeRecord hconfined hends htext ha).of_ok hanswer
  rw [hnext]
  cases answer with
  | none => exact Nat.succ_le_succ hle
  | some next => exact hbound next rfl

/-- If the lookups that a rule invokes are confined, the rule goes past just the glyphs that it has
    matched. -/
theorem answers_applyRule
    (hlawful : ∀ l contextLength, Lawful c fails text fun index => invoke l index contextLength)
    (hconfined : ∀ r ∈ rule.records, Confined c flag text (invoke r.lookupIndex.toNat))
    (hcount : rule.inputCount ≤ 0xFFFF) (htext : settled c.gdef s.glyphs = settled c.gdef text)
    (hs : s.Ready index)
    (hlast : (GlyphFilter.mk c.gdef flag).nth? s.glyphs (rule.inputCount - 1) index = some last) :
    Answers (applyRule c invoke flag rule index) s (· = last + 1) := by
  have hplaces : (rule.places ⟨c.gdef, flag⟩ s.glyphs index).getLast? = some last :=
    GlyphFilter.getLast?_places hlast
  have hsize : last < s.glyphs.size := GlyphFilter.nth?_lt_size hs.inside hlast
  have hle : index ≤ last := Nat.le_trans (Nat.le_add_right _ _) (GlyphFilter.nth?_le hlast)
  unfold Answers Program.Meets
  rcases hrun : Program.outcome (applyRule c invoke flag rule index) s with ⟨e | next, s'⟩
  case error => exact trivial
  case ok =>
    obtain ⟨handed, hrounds⟩ := rounds_applyRule hlawful hcount htext hs hplaces hrun
    -- on the way the text stays the same, and so the lookups see the glyphs of the rule
    let I (a : PosState σ × Nat) : Prop :=
      settled c.gdef a.1.glyphs = settled c.gdef text ∧ (a.2 < a.1.glyphs.size → a.1.Ready a.2)
    have hround : ∀ found a b, I a → a.2 ≤ last →
        (∀ r, found = some r → r ∈ rule.records ∧
          (rule.places ⟨c.gdef, flag⟩ s.glyphs index)[r.sequenceIndex.toNat]? = some a.2) →
        Round invoke (rule.places ⟨c.gdef, flag⟩ s.glyphs index) found a b →
          I b ∧ b.2 ≤ last + 1 := by
      rintro found a b ⟨htext', hready⟩ hle hfound hround
      have hsize' : a.1.glyphs.size = s.glyphs.size := size_of_settled (htext'.trans htext.symm)
      have ha := hready (hsize' ▸ Nat.lt_of_le_of_lt hle hsize)
      have hremaining := remainingFrom_places_le_word hcount ⟨c.gdef, flag⟩ s.glyphs index a.2
      obtain ⟨-, hkept, hready'⟩ := hround.moved hlawful hremaining htext' ha
      have hends : ∀ r, found = some r → ∀ contextLength, fit16 (remainingFrom
          (rule.places ⟨c.gdef, flag⟩ s.glyphs index) a.2) = .ok contextLength →
            (GlyphFilter.mk c.gdef flag).EndsAt text contextLength a.2 last := by
        intro r hr contextLength hlength
        have hends := RuleMatch.endsAt hlast (hfound r hr).2 hlength
        exact hends.of_agree (agree_of_settled htext.symm flag _ _)
      have hbound := hround.confined (fun r hr => hconfined r (hfound r hr).1) hends htext' ha hle
      exact ⟨⟨hkept.text.trans htext', hready'⟩, hbound⟩
    obtain ⟨-, hreached⟩ := hrounds.reached_eq ⟨htext, fun _ => hs⟩ (Nat.le_succ_of_le hle) hround
    exact hreached

/-- If looking for a rule finds one, the glyphs that it asks for are there. -/
theorem meets_findRule {rules : List RuleCandidate}
    (hcandidates : ∀ r ∈ rules, r.context.input.length + 1 = r.result.inputCount) :
    Program.Meets (findRule c flag index rules) s (fun found t => Kept c s t ∧ Stays s t ∧
      ∀ rule, found = some rule → ∃ r ∈ rules, r.result = rule ∧ ∃ last,
        (GlyphFilter.mk c.gdef flag).nth? t.glyphs (rule.inputCount - 1) index = some last)
      fun _ _ => True := by
  refine ⟨⟨settled_rememberRange c.gdef s.glyphs _ _, rfl⟩, ⟨rfl, fun _ => id⟩,
    fun rule hrule => ?_⟩
  obtain ⟨r, hr, rfl, last, hnth, -⟩ := firstMatch_last (Prod.ext hrule rfl)
  have hlength : r.result.inputCount - 1 = r.context.input.length := by
    rw [← hcandidates r hr, Nat.add_sub_cancel]
  refine ⟨r, hr, rfl, last, ?_⟩
  rw [hlength]
  exact (agree_of_settled (settled_rememberRange c.gdef s.glyphs _ _) flag _ _).nth? hnth

theorem answers_applyContext
    (hlawful : ∀ l contextLength, Lawful c fails text fun index => invoke l index contextLength)
    (item : GlyphItem) {subtables : List ContextLookup}
    (hconfined : ∀ l ∈ subtables, ∀ m ∈ l.results, ∀ r ∈ m.records,
      Confined c flag text (invoke r.lookupIndex.toNat))
    (hcount : ∀ l ∈ subtables, ∀ m ∈ l.results, m.inputCount ≤ 0xFFFF)
    (htext : settled c.gdef s.glyphs = settled c.gdef text) (hs : s.Ready index)
    (hends : (GlyphFilter.mk c.gdef flag).EndsAt text contextLength index last) :
    Answers (applyContext c invoke flag contextLength index item subtables) s
      (EndsBy (last + 1)) := by
  induction subtables generalizing s with
  | nil => exact answers_none
  | cons subtable rest ih =>
    rw [applyContext_cons]
    refine .lift_bind fun rules hrules => ?_
    have hcandidates := fun r (hr : r ∈ rules) =>
      ContextLookup.candidates_fit (LayoutError.ofParse_eq_ok hrules) hr
    refine (meets_findRule fun r hr => (hcandidates r hr).1).bind fun found t ht => ?_
    obtain ⟨hkept, hstays, hfound⟩ := ht
    have htext' := hkept.text.trans htext
    have hs' := hstays.ready hkept hs
    -- no rule of this subtable fits, so the next ones get the same text
    cases found with
    | none =>
      exact ih (fun l hl => hconfined l (List.mem_cons_of_mem subtable hl))
        (fun l hl => hcount l (List.mem_cons_of_mem subtable hl)) htext' hs'
    | some rule =>
      obtain ⟨r, hr, rfl, lastPlace, hnth⟩ := hfound rule rfl
      have hresult := ContextLookup.candidates_results (LayoutError.ofParse_eq_ok hrules) hr
      have hsmall := hcount subtable List.mem_cons_self _ hresult
      -- the rule is at most as long as the context, so its last glyph is not past the end
      have hends' := hends.of_agree (agree_of_settled htext' flag index last)
      have hle := hends'.le_last hsmall (hcandidates r hr).2 hnth
      refine Program.Meets.bind (answers_applyRule hlawful
          (hconfined subtable List.mem_cons_self _ hresult) hsmall htext' hs' hnth)
        fun next s' hs' => ?_
      exact answers_some (by omega)

/-! ## §4 Lookups of every type -/

variable {layout : LayoutTable Positioning}

/-- A lookup that goes past the glyph at the index at most is confined. -/
theorem confined_ite {x : Nat → PosM σ (Option Nat)} (condition : UInt16 → Bool)
    (hx : ∀ s index bound, index + 1 ≤ bound → Answers (x index) s (EndsBy bound)) :
    Confined c flag text fun index contextLength =>
      if condition contextLength then x index else return none := by
  intro s index contextLength last _ _ hends
  exact answers_ite (hx s index _ (Nat.succ_le_succ hends.place_le))

theorem confined_applySubtables
    (hlawful : ∀ l contextLength, Lawful c fails text fun index => invoke l index contextLength)
    {lookup : Lookup Positioning} (hloaded : lookup.subtables.Loaded)
    (hconfined : ∀ m ∈ lookup.subtables.results, ∀ r ∈ m.records,
      Confined c lookup.flag text (invoke r.lookupIndex.toNat)) :
    Confined c lookup.flag text (applySubtables c invoke lookup) := by
  obtain ⟨flag, subtables⟩ := lookup
  unfold applySubtables
  -- most kinds write at the place they are called for, which the context covers
  cases subtables with
  | single subtables =>
    exact confined_ite _ fun s index bound hbound =>
      answers_atGlyph fun item _ _ _ _ => answers_applySingle subtables item hbound
  | pair subtables =>
    intro s index contextLength last htext _ hends
    dsimp only
    split
    case isTrue hfits =>
      refine answers_atGlyph fun item _ t hkept _ => answers_applyPair subtables item ?_
      intro second hsecond
      have hagree := agree_of_settled (hkept.text.trans htext) flag index last
      -- the second glyph is one of those that fit the context
      have hnth : (GlyphFilter.mk c.gdef flag).nth? t.glyphs (2 - 1) index = some second :=
        GlyphFilter.nth?_succ_eq_some.mpr ⟨second, hsecond, rfl⟩
      exact Nat.succ_le_succ ((hends.of_agree hagree).le_last (by omega) hfits hnth)
    case isFalse => exact answers_none
  | cursive subtables =>
    intro s index contextLength last _ _ hends
    dsimp only
    split
    case isTrue =>
      exact answers_atGlyph fun item p _ _ _ =>
        answers_applyCursive subtables item p (Nat.succ_le_succ hends.place_le)
    case isFalse => exact .bind fun _ _ => answers_none
  | markBase subtables =>
    exact confined_ite _ fun s index bound hbound =>
      answers_atGlyph fun item _ _ _ _ => answers_applyMarkBase subtables item hbound
  | markLigature subtables =>
    exact confined_ite _ fun s index bound hbound =>
      answers_atGlyph fun item _ _ _ _ => answers_applyMarkLigature subtables item hbound
  | markMark subtables =>
    exact confined_ite _ fun s index bound hbound =>
      answers_atGlyph fun item _ _ _ _ => answers_applyMarkMark subtables item hbound
  -- the rules of a context lookup call other lookups inside the same context
  | context subtables | chained subtables =>
    intro s index contextLength last htext hs hends
    refine answers_atGlyph fun item p t hkept hstays => ?_
    refine answers_applyContext hlawful item ?_ ?_ (hkept.text.trans htext)
      (hstays.ready hkept hs) hends
    · exact fun l hl m hm => hconfined m (List.mem_flatMap.mpr ⟨l, hl, hm⟩)
    · exact fun l hl m hm => (hloaded.rules m (List.mem_flatMap.mpr ⟨l, hl, hm⟩)).count

/-- A lookup is confined if all that it reaches has the same flag, however deeply it may
    nest others. -/
theorem confined_applyLookup (hallows : Allows c fails layout text) {lookupIndex : Nat}
    (hflag : ∀ j lookup, Positioning.Reaches layout lookupIndex j → layout.lookup j = .ok lookup →
      lookup.flag = flag) (levels : Nat) :
    Confined c flag text (applyLookup c layout levels lookupIndex) := by
  -- the levels bound the recursion: a rule invokes lookups with one level less
  induction levels generalizing lookupIndex with
  | zero => exact fun _ _ _ _ _ _ _ => .throw
  | succ levels ih =>
    intro s index contextLength last htext hs hends
    rw [applyLookup_succ]
    refine .lift_bind fun lookup hok => ?_
    have hlookup := LayoutError.ofParse_eq_ok hok
    obtain rfl := hflag lookupIndex lookup .refl hlookup
    refine confined_applySubtables (lawful_applyLookup hallows levels) (hallows.loaded hlookup)
      (fun m hm r hr => ih fun j lookup' hreaches => ?_) s index contextLength last htext hs hends
    exact hflag j lookup' (.head ⟨lookup, hlookup, m, hm, r, hr, rfl⟩ hreaches)

end PosM

end OpenTypeLayout
