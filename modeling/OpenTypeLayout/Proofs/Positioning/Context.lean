import OpenTypeLayout.Proofs.Positioning.Attachment
import OpenTypeLayout.Proofs.Positioning.Loaded

/-!
# Positioning in context

A contextual lookup that finds a rule works through the glyphs of the rule, and every round goes
past at least one of them. The main statement, `PosM.lawful_applyLookup`, is about lookups of every
type, nested to any depth: each makes one step. It goes by induction on the levels that may still be
entered.
-/

namespace OpenTypeLayout

/-- A lookup attaches marks like the one at `index`, and finds the glyph at `target` to attach
    that mark to. -/
def Lookup.Attaches (lookup : Lookup Positioning) (table : Option Gdef) (glyphs : Array GlyphItem)
    (index target : Nat) : Prop :=
  ∃ mark, glyphs[index]?.map GlyphItem.glyph = some mark ∧
    match lookup.subtables with
    | .markBase subtables =>
      PosM.CoversMark subtables mark ∧ ∃ p, PosM.markTarget? table glyphs index = some (target, p)
    | .markLigature subtables =>
      PosM.CoversMark subtables mark ∧ ∃ p, PosM.markTarget? table glyphs index = some (target, p)
    | .markMark subtables =>
      PosM.CoversMark subtables mark ∧
        (GlyphFilter.mk table lookup.flag).prev? glyphs index = some target
    | _ => False

namespace PosM

open PosState (Kept Ready)

variable {σ : Type} {c : PosContext σ} {fails : LayoutError → Prop} {s : PosState σ}

/-- A program that may be used as a lookup on texts that settle to a certain one. -/
def Lawful (c : PosContext σ) (fails : LayoutError → Prop) (text : Array GlyphItem)
    (x : Nat → PosM σ (Option Nat)) : Prop :=
  ∀ s index, settled c.gdef s.glyphs = settled c.gdef text → s.Ready index →
    Keeps c fails (x index) s (Step index s)

variable {text : Array GlyphItem} {invoke : Invoke σ}

/-! ## §1 Rules -/

theorem keeps_invokeRecord {places : List Nat} {index : Nat} {record : Option LookupRecord}
    (hinvoke : ∀ r, record = some r → ∀ contextLength,
      Lawful c fails text fun index => invoke r.lookupIndex.toNat index contextLength)
    (hcount : remainingFrom places index ≤ 0xFFFF)
    (htext : settled c.gdef s.glyphs = settled c.gdef text) (hs : s.Ready index) :
    Keeps c fails (invokeRecord invoke places index record) s (Step index s) := by
  cases record with
  | none => exact .pure (.notApplied (.refl s))
  | some r =>
    apply Keeps.lift_bind
    · intro e he
      have := (fit16_error he).2
      omega
    · exact fun contextLength _ => hinvoke r rfl contextLength s index htext hs

/-- Working through a rule ends behind the last of its glyphs, and is a span. -/
theorem keeps_applyRecords {places : List Nat} {last rounds index : Nat}
    {records : List LookupRecord}
    (hinvoke : ∀ r ∈ records, ∀ contextLength,
      Lawful c fails text fun index => invoke r.lookupIndex.toNat index contextLength)
    (hcount : ∀ index, remainingFrom places index ≤ 0xFFFF)
    (htext : settled c.gdef s.glyphs = settled c.gdef text) (hlast : last < s.glyphs.size)
    (hindex : index ≤ s.glyphs.size) (hs : index < s.glyphs.size → s.Ready index)
    (hrounds : last < index + rounds) :
    Keeps c fails (applyRecords invoke places last rounds index records) s fun next s' =>
      Spans index next s s' ∧ last < next := by
  -- whatever a nested lookup goes past, index and rounds together stay beyond the last glyph
  induction rounds generalizing s index records with
  | zero => exact .pure ⟨(Stays.refl s).spans (Nat.le_refl _) hindex, hrounds⟩
  | succ rounds ih =>
    rw [applyRecords_succ]
    split
    case isFalse hpassed =>
      exact .pure ⟨(Stays.refl s).spans (Nat.le_refl _) hindex, Nat.lt_of_not_le hpassed⟩
    case isTrue hle =>
      obtain ⟨hfirst, hrest⟩ := nextRecord_subset places index records
      have hs := hs (Nat.lt_of_le_of_lt hle hlast)
      dsimp only
      refine (keeps_invokeRecord (fun r hr => hinvoke r (hfirst r hr)) (hcount index) htext hs).bind
        fun answer t hkept hstep => ?_
      obtain ⟨hlt, hspans⟩ := hstep.spans hs
      have hinside := hspans.inside
      refine (ih (fun r hr => hinvoke r (hrest r hr)) (hkept.text.trans htext) ?_ ?_ ?_ ?_).mono
        fun next s' _ hs' => ⟨hspans.trans hkept hs'.1, hs'.2⟩
      · rwa [hkept.size]
      · rwa [hkept.size]
      · rw [hkept.size]
        exact hspans.ready hkept hs
      · omega

theorem keeps_applyRule {flag : LookupFlag} {rule : RuleMatch} {index : Nat}
    (hinvoke : ∀ r ∈ rule.records, ∀ contextLength,
      Lawful c fails text fun index => invoke r.lookupIndex.toNat index contextLength)
    (hcount : rule.inputCount ≤ 0xFFFF) (htext : settled c.gdef s.glyphs = settled c.gdef text)
    (hs : s.Ready index) :
    Keeps c fails (applyRule c invoke flag rule index) s fun next s' =>
      index < next ∧ Spans index next s s' := by
  unfold applyRule
  refine .get_bind ?_ fun _ => rfl
  dsimp only
  obtain ⟨last, hget, hle, hlast⟩ := rule.getLast?_places ⟨c.gdef, flag⟩ hs.inside
  rw [hget, Option.getD_some]
  have hremaining := remainingFrom_places_le_word hcount ⟨c.gdef, flag⟩ s.glyphs index
  refine (keeps_applyRecords hinvoke hremaining htext hlast (Nat.le_of_lt hs.inside) (fun _ => hs)
    (by omega)).mono fun next s' _ hs' => ⟨by omega, hs'.1⟩

theorem keeps_findRule {flag : LookupFlag} {index : Nat} (rules : List RuleCandidate) :
    Keeps c fails (findRule c flag index rules) s fun found s' =>
      Stays s s' ∧ ∀ m, found = some m → ∃ r ∈ rules, r.result = m := by
  unfold findRule
  refine .get_bind ?_ fun _ => rfl
  dsimp only
  refine (keeps_remember _ _).bind fun _ s' _ hs' => .pure ⟨?_, ?_⟩
  · subst hs'
    exact ⟨rfl, fun _ => id⟩
  · intro m hm
    exact firstMatch_eq_some (Prod.ext hm rfl)

theorem keeps_applyContext (hfails : Admits c fails) {flag : LookupFlag} {contextLength : UInt16}
    {index : Nat} {item : GlyphItem} {subtables : List ContextLookup}
    (hinvoke : ∀ l ∈ subtables, ∀ m ∈ l.results, ∀ r ∈ m.records, ∀ contextLength,
      Lawful c fails text fun index => invoke r.lookupIndex.toNat index contextLength)
    (hcount : ∀ l ∈ subtables, ∀ m ∈ l.results, m.inputCount ≤ 0xFFFF)
    (htext : settled c.gdef s.glyphs = settled c.gdef text) (hs : s.Ready index) :
    Keeps c fails (applyContext c invoke flag contextLength index item subtables) s
      (Step index s) := by
  induction subtables generalizing s with
  | nil => exact .pure (.notApplied (.refl s))
  | cons subtable rest ih =>
    rw [applyContext_cons]
    apply Keeps.lift_bind fun e he =>
      hfails.ofParse (fun _ => ContextLookup.candidates_error) he
    intro rules hrules
    refine (keeps_findRule rules).bind fun found t hkept ht => ?_
    obtain ⟨hstays, hfound⟩ := ht
    have htext' := hkept.text.trans htext
    have hs' := hstays.ready hkept hs
    cases found with
    -- no rule of this subtable fits: the next ones see the text and the positions unchanged
    | none =>
      refine (ih (fun l hl => hinvoke l (List.mem_cons_of_mem subtable hl))
        (fun l hl => hcount l (List.mem_cons_of_mem subtable hl)) htext' hs').mono
        fun answer s' _ hstep => hstep.of_stays hstays hkept
    | some rule =>
      obtain ⟨r, hr, rfl⟩ := hfound rule rfl
      have hresult := ContextLookup.candidates_results (LayoutError.ofParse_eq_ok hrules) hr
      -- the nested lookups act from the place of the rule on, so this counts as an application
      refine (keeps_applyRule (hinvoke subtable List.mem_cons_self _ hresult)
        (hcount subtable List.mem_cons_self _ hresult) htext' hs').bind
        fun next s' _ hs' => .pure ?_
      exact .applied hs'.1 (.of_stays hstays hkept hs'.2)

/-! ## §2 Lookups of every type -/

/-- Lookups attach the same marks in texts that settle to the same one. -/
theorem attaches_of_settled {lookup : Lookup Positioning} {table : Option Gdef}
    {glyphs glyphs' : Array GlyphItem} (h : settled table glyphs' = settled table glyphs)
    {index target : Nat} (hattaches : lookup.Attaches table glyphs' index target) :
    lookup.Attaches table glyphs index target := by
  have halike := TextsAlike.of_settled h
  obtain ⟨mark, hmark, hrest⟩ := hattaches
  refine ⟨mark, by rw [← halike.glyph_getElem?, hmark], ?_⟩
  simpa only [halike.markTarget?, halike.prev?] using hrest

/-- The lookups of a table have been read, and attaching marks too far away is a failure that
    may come up. -/
structure Allows (c : PosContext σ) (fails : LayoutError → Prop) (layout : LayoutTable Positioning)
    (text : Array GlyphItem) : Prop extends Admits c fails where
  loaded : ∀ {i lookup}, layout.lookup i = .ok lookup → lookup.subtables.Loaded
  far : ∀ {i lookup index target}, layout.lookup i = .ok lookup →
    lookup.Attaches c.gdef text index target → 0xFFFF < index - target → fails (.parse .badValue)

variable {layout : LayoutTable Positioning}

/-- A lookup that does nothing under some condition. -/
theorem Lawful.ite {x : Nat → PosM σ (Option Nat)} (hx : Lawful c fails text x) (condition : Bool) :
    Lawful c fails text fun index => if condition then x index else pure none := by
  cases condition with
  | true => exact hx
  | false => exact fun s _ _ _ => .pure (.notApplied (.refl s))

/-- The subtables of a lookup make one step if the lookups that its rules invoke do. -/
theorem lawful_applySubtables (hallows : Allows c fails layout text) {lookup : Lookup Positioning}
    {i : Nat} (hlookup : layout.lookup i = .ok lookup)
    (hinvoke : ∀ l contextLength, Lawful c fails text fun index => invoke l index contextLength)
    (contextLength : UInt16) :
    Lawful c fails text fun index => applySubtables c invoke lookup index contextLength := by
  have hfails := hallows.toAdmits
  have hloaded := hallows.loaded hlookup
  obtain ⟨flag, subtables⟩ := lookup
  unfold applySubtables
  cases subtables with
  | single subtables =>
    refine Lawful.ite (fun s index _ hs => ?_) _
    exact keeps_atGlyph hs fun _ _ _ _ _ hs' _ => keeps_applySingle hfails subtables hs'
  | pair subtables =>
    -- a pair adjustment is tried only where two glyphs fit the context
    refine Lawful.ite (fun s index _ hs => ?_) _
    exact keeps_atGlyph hs fun _ _ _ _ _ hs' _ => keeps_applyPair hfails flag hloaded.pairs hs'
  | cursive subtables =>
    -- outside the context a cursive lookup still breaks the chain
    intro s index _ hs
    dsimp only
    split
    case isTrue =>
      exact keeps_atGlyph hs fun _ p _ _ _ hs' _ => keeps_applyCursive hfails subtables p hs'
    case isFalse =>
      refine keeps_breakChain.bind fun _ s' _ hs' => .pure (.notApplied ?_)
      subst hs'
      exact ⟨rfl, fun _ h => nomatch h⟩
  -- a failure of an attachment is reported only for the target the mark would get in `text`
  | markBase subtables =>
    refine Lawful.ite (fun s index htext hs => ?_) _
    refine keeps_atGlyph hs fun item _ s' hkept _ hs' hitem => ?_
    refine keeps_applyMarkBase hfails hs' fun hcovers target p htarget hfar => ?_
    refine hallows.far hlookup (attaches_of_settled htext ?_) hfar
    rw [(TextsAlike.of_settled hkept.text).markTarget?] at htarget
    exact ⟨item.glyph, by simp [hitem], hcovers, p, htarget⟩
  | markLigature subtables =>
    refine Lawful.ite (fun s index htext hs => ?_) _
    refine keeps_atGlyph hs fun item _ s' hkept _ hs' hitem => ?_
    refine keeps_applyMarkLigature hfails hs' fun hcovers target p htarget hfar => ?_
    refine hallows.far hlookup (attaches_of_settled htext ?_) hfar
    rw [(TextsAlike.of_settled hkept.text).markTarget?] at htarget
    exact ⟨item.glyph, by simp [hitem], hcovers, p, htarget⟩
  | markMark subtables =>
    refine Lawful.ite (fun s index htext hs => ?_) _
    refine keeps_atGlyph hs fun item _ s' hkept _ hs' hitem => ?_
    refine keeps_applyMarkMark hfails hs' fun hcovers target htarget hfar => ?_
    refine hallows.far hlookup (attaches_of_settled htext ?_) hfar
    rw [(TextsAlike.of_settled hkept.text).prev?] at htarget
    exact ⟨item.glyph, by simp [hitem], hcovers, htarget⟩
  -- the loaded rules are short enough for the places of their records
  | context subtables | chained subtables =>
    intro s index htext hs
    refine keeps_atGlyph hs fun _ _ s' hkept _ hs' _ => ?_
    refine keeps_applyContext hfails (fun l _ m _ r _ => hinvoke r.lookupIndex.toNat) ?_
      (hkept.text.trans htext) hs'
    intro l hl m hm
    exact (hloaded.rules m (List.mem_flatMap.mpr ⟨l, hl, hm⟩)).count

/-- Every lookup makes one step, however deeply it may nest others. -/
theorem lawful_applyLookup (hallows : Allows c fails layout text) (levels lookupIndex : Nat)
    (contextLength : UInt16) :
    Lawful c fails text fun index =>
      applyLookup c layout levels lookupIndex index contextLength := by
  -- the levels bound the recursion: a rule invokes lookups with one level less
  induction levels generalizing lookupIndex contextLength with
  | zero => exact fun s index _ _ => .throw hallows.nested
  | succ levels ih =>
    intro s index htext hs
    dsimp only
    rw [applyLookup_succ]
    apply Keeps.lift_bind fun e he => hallows.ofParse (fun _ => LayoutTable.lookup_error) he
    intro lookup hok
    exact lawful_applySubtables hallows (LayoutError.ofParse_eq_ok hok) ih contextLength s index
      htext hs

end PosM

end OpenTypeLayout
