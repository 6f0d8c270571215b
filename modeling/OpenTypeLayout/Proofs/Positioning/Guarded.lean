import OpenTypeLayout.Proofs.Positioning.Context

/-!
# Lookups are invoked where they can be applied

A lookup needs a glyph at the index at which it is applied, a position for it, and a chain that ends
before it. Wherever a lookup is invoked, to whatever depth, this is the case: it would make no
difference if lookups did anything else where it is not.
-/

namespace OpenTypeLayout

/-! ## §1 Guards -/

theorem PosState.ready_iff {σ : Type} {s : PosState σ} {index : Nat} :
    s.Ready index ↔ index < s.glyphs.size ∧ s.positions.size = s.glyphs.size ∧
      s.chain.all (fun joined => joined.1 < index) = true := by
  constructor
  · intro h
    refine ⟨h.inside, h.positioned, ?_⟩
    cases hchain : s.chain with
    | none => rfl
    | some joined => simpa using h.chained joined.1 joined.2 hchain
  · rintro ⟨hinside, hpositioned, hchained⟩
    refine ⟨hinside, hpositioned, fun last exit hchain => ?_⟩
    rw [hchain] at hchained
    simpa using hchained

instance {σ : Type} (s : PosState σ) (index : Nat) : Decidable (s.Ready index) :=
  decidable_of_iff _ PosState.ready_iff.symm

namespace PosM

open PosState (Kept Ready)

variable {σ α β : Type}

/-- Invoke a lookup where it can be applied, and do something else where it cannot. -/
def guarded (elsewhere invoke : Invoke σ) : Invoke σ := fun lookupIndex index contextLength => do
  if (← get).Ready index then invoke lookupIndex index contextLength
  else elsewhere lookupIndex index contextLength

/-- Apply a lookup, with a guard on all lookups that are invoked on the way. -/
def applyGuarded (c : PosContext σ) (elsewhere : Invoke σ) (layout : LayoutTable Positioning) :
    (levels : Nat) → Invoke σ
  | 0, _, _, _ => throw .tooManyNestedContexts
  | levels + 1, lookupIndex, index, contextLength => do
    let lookup ← LayoutError.ofParse (layout.lookup lookupIndex)
    applySubtables c (guarded elsewhere (applyGuarded c elsewhere layout levels)) lookup index
      contextLength

variable {c : PosContext σ} {fails : LayoutError → Prop} {s : PosState σ} {text : Array GlyphItem}
variable {invoke invoke' : Invoke σ}

theorem outcome_guarded (elsewhere : Invoke σ)
    {index : Nat} (hs : s.Ready index) (lookupIndex : Nat) (contextLength : UInt16) :
    Program.outcome (guarded elsewhere invoke lookupIndex index contextLength) s =
      Program.outcome (invoke lookupIndex index contextLength) s := by
  rw [guarded, Program.outcome_get_bind, if_pos hs]

/-- Where lookups can be applied to a text, two ways to apply them make no difference. -/
def Same (c : PosContext σ) (text : Array GlyphItem) (invoke invoke' : Invoke σ) : Prop :=
  ∀ lookupIndex contextLength s index, settled c.gdef s.glyphs = settled c.gdef text →
    s.Ready index → Program.outcome (invoke' lookupIndex index contextLength) s =
      Program.outcome (invoke lookupIndex index contextLength) s

/-! ## §2 Rules -/

theorem outcome_invokeRecord_congr {places : List Nat} {index : Nat}
    (h : Same c text invoke invoke') (record : Option LookupRecord)
    (htext : settled c.gdef s.glyphs = settled c.gdef text) (hs : s.Ready index) :
    Program.outcome (invokeRecord invoke' places index record) s =
      Program.outcome (invokeRecord invoke places index record) s := by
  cases record with
  | none => rfl
  | some r =>
    refine Program.outcome_bind_congr rfl fun contextLength t hrun => ?_
    obtain rfl : s = t := congrArg Prod.snd hrun
    exact h _ contextLength s index htext hs

theorem outcome_applyRecords_congr {places : List Nat} {last rounds index : Nat}
    {records : List LookupRecord}
    (hinvoke : ∀ l contextLength, Lawful c fails text fun index => invoke l index contextLength)
    (h : Same c text invoke invoke') (hcount : ∀ index, remainingFrom places index ≤ 0xFFFF)
    (htext : settled c.gdef s.glyphs = settled c.gdef text) (hlast : last < s.glyphs.size)
    (hs : index < s.glyphs.size → s.Ready index) :
    Program.outcome (applyRecords invoke' places last rounds index records) s =
      Program.outcome (applyRecords invoke places last rounds index records) s := by
  -- a round invokes a lookup at an index that is not past the last glyph, so the guard is passed
  induction rounds generalizing s index records with
  | zero => rfl
  | succ rounds ih =>
    rw [applyRecords_succ, applyRecords_succ]
    split
    case isFalse => rfl
    case isTrue hle =>
      have hs := hs (Nat.lt_of_le_of_lt hle hlast)
      refine Program.outcome_bind_congr (outcome_invokeRecord_congr h _ htext hs)
        fun answer t hrun => ?_
      obtain ⟨hkept, hstep⟩ := (keeps_invokeRecord (fun r _ => hinvoke r.lookupIndex.toNat)
        (hcount index) htext hs).of_ok hrun
      refine ih (hkept.text.trans htext) (hkept.size ▸ hlast) fun hlt => ?_
      exact (hstep.spans hs).2.ready hkept hs (hkept.size ▸ hlt)

theorem outcome_applyContext_congr {flag : LookupFlag} {contextLength : UInt16} {index : Nat}
    {item : GlyphItem} {subtables : List ContextLookup}
    (hinvoke : ∀ l contextLength, Lawful c fails text fun index => invoke l index contextLength)
    (h : Same c text invoke invoke')
    (hcount : ∀ l ∈ subtables, ∀ m ∈ l.results, m.inputCount ≤ 0xFFFF)
    (htext : settled c.gdef s.glyphs = settled c.gdef text) (hs : s.Ready index) :
    Program.outcome (applyContext c invoke' flag contextLength index item subtables) s =
      Program.outcome (applyContext c invoke flag contextLength index item subtables) s := by
  induction subtables generalizing s with
  | nil => rfl
  | cons subtable rest ih =>
    rw [applyContext_cons, applyContext_cons]
    refine Program.outcome_bind_congr rfl fun rules s' hrun => ?_
    obtain ⟨hrules, rfl⟩ := Prod.mk.inj hrun
    -- finding the rule is the same for both, and it leaves a state to which the hypothesis applies
    refine Program.outcome_bind_congr rfl fun found t hfind => ?_
    have hkeeps : Keeps c fails (findRule c flag index rules) s _ := keeps_findRule rules
    obtain ⟨hkept, hstays, hfound⟩ := hkeeps.of_ok hfind
    have htext' := hkept.text.trans htext
    have hs' := hstays.ready hkept hs
    cases found with
    | none => exact ih (fun l hl => hcount l (List.mem_cons_of_mem subtable hl)) htext' hs'
    | some rule =>
      obtain ⟨r, hr, rfl⟩ := hfound rule rfl
      have hresult := ContextLookup.candidates_results (LayoutError.ofParse_eq_ok hrules) hr
      have hsmall := hcount subtable List.mem_cons_self _ hresult
      refine Program.outcome_bind_congr ?_ fun _ _ _ => rfl
      -- the places of the rule are inside the text, where the guards let everything through
      obtain ⟨last, hget, -, hlast⟩ := r.result.getLast?_places ⟨c.gdef, flag⟩ hs'.inside
      unfold applyRule
      rw [Program.outcome_get_bind, Program.outcome_get_bind]
      dsimp only
      rw [hget, Option.getD_some]
      have hremaining := remainingFrom_places_le_word hsmall ⟨c.gdef, flag⟩ t.glyphs index
      exact outcome_applyRecords_congr hinvoke h hremaining htext' hlast fun _ => hs'

/-! ## §3 Lookups -/

theorem outcome_applySubtables_congr {layout : LayoutTable Positioning}
    (hallows : Allows c fails layout text) {lookup : Lookup Positioning} {i : Nat}
    (hlookup : layout.lookup i = .ok lookup)
    (hinvoke : ∀ l contextLength, Lawful c fails text fun index => invoke l index contextLength)
    (h : Same c text invoke invoke') {index : Nat} {contextLength : UInt16}
    (htext : settled c.gdef s.glyphs = settled c.gdef text) (hs : s.Ready index) :
    Program.outcome (applySubtables c invoke' lookup index contextLength) s =
      Program.outcome (applySubtables c invoke lookup index contextLength) s := by
  have hloaded := hallows.loaded hlookup
  obtain ⟨flag, subtables⟩ := lookup
  unfold applySubtables
  cases subtables with
  | context subtables | chained subtables =>
    dsimp only
    unfold atGlyph
    rw [Program.outcome_get_bind, Program.outcome_get_bind]
    split
    case h_1 => rfl
    case h_2 =>
      refine Program.outcome_bind_congr rfl fun _ t hrun => ?_
      have hkeeps : Keeps c fails (remember c index (index + 1)) s _ := keeps_remember _ _
      obtain ⟨hkept, rfl⟩ := hkeeps.of_ok hrun
      split
      case h_1 => rfl
      case h_2 =>
        have hstays :
            Stays s { s with glyphs := rememberRange c.gdef s.glyphs index (index + 1) } :=
          ⟨rfl, fun _ => id⟩
        refine outcome_applyContext_congr hinvoke h ?_ (hkept.text.trans htext)
          (hstays.ready hkept hs)
        intro l hl m hm
        exact (hloaded.rules m (List.mem_flatMap.mpr ⟨l, hl, hm⟩)).count
  -- the other types invoke nothing
  | _ => rfl

/-- All lookups that are invoked on the way pass their guards. -/
theorem same_applyGuarded {layout : LayoutTable Positioning} (hallows : Allows c fails layout text)
    (elsewhere : Invoke σ) (levels : Nat) :
    Same c text (applyLookup c layout levels) (applyGuarded c elsewhere layout levels) := by
  induction levels with
  | zero => exact fun _ _ _ _ _ _ => rfl
  | succ levels ih =>
    intro lookupIndex contextLength s index htext hs
    rw [applyGuarded, applyLookup_succ]
    refine Program.outcome_bind_congr rfl fun lookup t hrun => ?_
    obtain ⟨hlookup, rfl⟩ := Prod.mk.inj hrun
    refine outcome_applySubtables_congr hallows (LayoutError.ofParse_eq_ok hlookup)
      (fun l contextLength => lawful_applyLookup hallows levels l contextLength) ?_ htext hs
    intro l contextLength' s' index' htext' hs'
    rw [outcome_guarded elsewhere hs']
    exact ih l contextLength' s' index' htext' hs'

end PosM

end OpenTypeLayout
