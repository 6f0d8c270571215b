import OpenTypeLayout.Proofs.Positioning.Context
import OpenTypeLayout.Proofs.Positioning.Recording

/-!
# Visits of joining lookups

To which glyph a lookup joins another one depends on what has been done before, by that lookup and
by others. A run that notes its visits shows this.

- `visitNotes` says which visits are noted, and `PosM.passLogged` is the pass of a lookup with these
  notes.
- `PosM.Preserves` says that lookups preserve an invariant of the visits so far. Working through a
  rule preserves it if the lookups that the rule invokes do.
-/

namespace OpenTypeLayout

/-- What happens to a glyph that matters for joined glyphs. -/
inductive Visit where
  /-- The lookup of the pass is not active at the glyph. -/
  | inactive (index : Nat)
  /-- A joining lookup is applied to the glyph. -/
  | joining (lookupIndex index : Nat) (contextLength : UInt16) (chain : Option (Nat × Point))
deriving DecidableEq, Repr

/-- The index of the glyph. -/
def Visit.index : Visit → Nat
  | .inactive index => index
  | .joining _ index _ _ => index

/-- Each glyph at which a joining lookup is applied is noted, with the chain as it is then, and each
    glyph at which the lookup of the pass is not active. -/
def visitNotes {σ : Type} : Notes σ (List Visit) where
  before lookupIndex lookup index contextLength s visits :=
    match lookup.subtables with
    | .cursive _ => visits ++ [.joining lookupIndex index contextLength s.chain]
    | _ => visits
  inactive index _ visits := visits ++ [.inactive index]

namespace PosM

open PosState (Kept Ready beside)
open Program (Records Quiet quiet_lift)

variable {σ : Type}

/-- The pass of an active lookup over the whole text, with a list of visits. -/
def passLogged (c : PosContext σ) (table : ActiveTable Positioning) (lookupIndex : Nat)
    (bits : UInt32) : PosM (σ × List Visit) Unit := passNoting c visitNotes table lookupIndex bits

variable {c : PosContext σ} {fails : LayoutError → Prop} {s : PosState σ} {text : Array GlyphItem}
variable {visits : List Visit} {invoke' : Invoke (σ × List Visit)} {invoke : Invoke σ}

/-- What is known of the visits so far, where a chain has come about and a text has been gone
    through up to an index. It stays known while the text is gone through. -/
structure Invariant where
  holds : Option (Nat × Point) → Nat → List Visit → Prop
  mono : ∀ {chain index next visits}, holds chain index visits → index ≤ next →
    holds chain next visits

/-- Lookups preserve an invariant wherever they can be applied to a text. -/
def Preserves (c : PosContext σ) (text : Array GlyphItem) (known : Invariant)
    (good : List Visit → Prop) (apply' : Nat → PosM (σ × List Visit) (Option Nat))
    (apply : Nat → PosM σ (Option Nat)) : Prop :=
  ∀ s index visits, settled c.gdef s.glyphs = settled c.gdef text → s.Ready index →
    known.holds s.chain index visits →
    Records beside (apply' index) (apply index) s visits
      (fun answer s' visits' => known.holds s'.chain (answer.getD (index + 1)) visits')
      fun _ _ => good

variable {known : Invariant} {good : List Visit → Prop}

theorem records_invokeRecord {places : List Nat} {index : Nat}
    (h : ∀ l contextLength, Preserves c text known good (fun index => invoke' l index contextLength)
      fun index => invoke l index contextLength)
    (hgood : ∀ {chain index visits}, known.holds chain index visits → good visits)
    (record : Option LookupRecord) (htext : settled c.gdef s.glyphs = settled c.gdef text)
    (hs : s.Ready index) (hknown : known.holds s.chain index visits) :
    Records beside (invokeRecord invoke' places index record)
      (invokeRecord invoke places index record) s visits
      (fun answer s' visits' => known.holds s'.chain (answer.getD (index + 1)) visits')
      fun _ _ => good := by
  cases record with
  | none => exact .pure (known.mono hknown (Nat.le_succ _))
  | some r =>
    refine (quiet_lift _).bind (fun _ _ _ => hgood hknown) fun contextLength t hrun => ?_
    obtain rfl : s = t := congrArg Prod.snd hrun
    exact h _ contextLength s index visits htext hs hknown

theorem records_applyRecords {places : List Nat}
    {last rounds index : Nat} {records : List LookupRecord}
    (hinvoke : ∀ l contextLength, Lawful c fails text fun index => invoke l index contextLength)
    (h : ∀ l contextLength, Preserves c text known good (fun index => invoke' l index contextLength)
      fun index => invoke l index contextLength)
    (hgood : ∀ {chain index visits}, known.holds chain index visits → good visits)
    (hcount : ∀ index, remainingFrom places index ≤ 0xFFFF)
    (htext : settled c.gdef s.glyphs = settled c.gdef text) (hlast : last < s.glyphs.size)
    (hs : index < s.glyphs.size → s.Ready index) (hknown : known.holds s.chain index visits) :
    Records beside (applyRecords invoke' places last rounds index records)
      (applyRecords invoke places last rounds index records) s visits
      (fun next s' visits' => known.holds s'.chain next visits') fun _ _ => good := by
  induction rounds generalizing s index records visits with
  | zero => exact .pure hknown
  | succ rounds ih =>
    rw [applyRecords_succ, applyRecords_succ]
    split
    case isFalse => exact .pure hknown
    case isTrue hle =>
      have hs := hs (Nat.lt_of_le_of_lt hle hlast)
      refine (records_invokeRecord h hgood _ htext hs hknown).bind
        fun answer t visits' hrun hnext => ?_
      -- the next round starts where this one ends, in a state that is ready again
      obtain ⟨hkept, hstep⟩ := (keeps_invokeRecord (fun r _ => hinvoke r.lookupIndex.toNat)
        (hcount index) htext hs).of_ok hrun
      refine ih (hkept.text.trans htext) (hkept.size ▸ hlast) (fun hlt => ?_) hnext
      exact (hstep.spans hs).2.ready hkept hs (hkept.size ▸ hlt)

theorem records_applyContext {flag : LookupFlag} {contextLength : UInt16} {index : Nat}
    {item : GlyphItem} {subtables : List ContextLookup}
    (hinvoke : ∀ l contextLength, Lawful c fails text fun index => invoke l index contextLength)
    (h : ∀ l contextLength, Preserves c text known good (fun index => invoke' l index contextLength)
      fun index => invoke l index contextLength)
    (hgood : ∀ {chain index visits}, known.holds chain index visits → good visits)
    (hcount : ∀ l ∈ subtables, ∀ m ∈ l.results, m.inputCount ≤ 0xFFFF)
    (htext : settled c.gdef s.glyphs = settled c.gdef text) (hs : s.Ready index)
    (hknown : known.holds s.chain index visits) :
    Records beside (applyContext c.logged invoke' flag contextLength index item subtables)
      (applyContext c invoke flag contextLength index item subtables) s visits
      (fun answer s' visits' => known.holds s'.chain (answer.getD (index + 1)) visits')
      fun _ _ => good := by
  induction subtables generalizing s with
  | nil => exact .pure (known.mono hknown (Nat.le_succ _))
  | cons subtable rest ih =>
    rw [applyContext_cons, applyContext_cons]
    -- reading the rules and finding one visits nothing
    refine (quiet_lift _).bind (fun _ _ _ => hgood hknown) fun rules s' hrun => ?_
    obtain ⟨hrules, rfl⟩ := Prod.mk.inj hrun
    refine (quiet_findRule c flag index rules).bind (fun _ _ _ => hgood hknown)
      fun found t hfind => ?_
    have hkeeps : Keeps c fails (findRule c flag index rules) s _ := keeps_findRule rules
    obtain ⟨hkept, hstays, hfound⟩ := hkeeps.of_ok hfind
    have htext' := hkept.text.trans htext
    have hs' := hstays.ready hkept hs
    have hknown' : known.holds t.chain index visits := by
      cases hfind
      exact hknown
    cases found with
    -- no rule of this subtable fits, so nothing has been added
    | none => exact ih (fun l hl => hcount l (List.mem_cons_of_mem subtable hl)) htext' hs' hknown'
    | some rule =>
      obtain ⟨r, hr, rfl⟩ := hfound rule rfl
      have hresult := ContextLookup.candidates_results (LayoutError.ofParse_eq_ok hrules) hr
      have hsmall := hcount subtable List.mem_cons_self _ hresult
      have hremaining := remainingFrom_places_le_word hsmall ⟨c.gdef, flag⟩ t.glyphs index
      obtain ⟨last, hget, -, hlast⟩ := r.result.getLast?_places ⟨c.gdef, flag⟩ hs'.inside
      have hrule : Records beside (applyRule c.logged invoke' flag r.result index)
          (applyRule c invoke flag r.result index) t visits
          -- both runs reckon the places of the rule from the same text
          (fun next s' visits' => known.holds s'.chain next visits') fun _ _ => good := by
        refine .get_bind ?_
        dsimp only [PosContext.logged, PosContext.noting, PosState.beside_join,
          PosState.glyphs_logged]
        rw [hget, Option.getD_some]
        exact records_applyRecords hinvoke h hgood hremaining htext' hlast (fun _ => hs') hknown'
      exact hrule.bind fun next s' visits' _ hnext => .pure hnext

end PosM

end OpenTypeLayout
