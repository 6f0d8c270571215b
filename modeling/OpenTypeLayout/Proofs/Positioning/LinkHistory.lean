import Mathlib.Data.Nat.Init
import Mathlib.Logic.Function.Iterate
import OpenTypeLayout.Proofs.Positioning.Links
import OpenTypeLayout.Proofs.Positioning.Recording

/-!
# How links come about

Lookups are applied in any order and nested in each other, and a mark may be attached more than
once. A run that keeps a history of this, and otherwise does the same, shows what the links say at
each moment.

- `ActiveTable.positionObserved` positions a text and keeps the history: each time that a lookup has
  been applied, also from within another one, with the positions as they are then.
- `Explains` is the invariant: the last lookup that has attached a glyph explains its link.
- `PosM.Observes` says that a program does the same when it is observed, and keeps the invariant.
  This goes along the programs, up to whole runs.
- `position_links`: at each moment links go back, end, belong to the glyphs that have been attached,
  and point to the glyph that they should.
-/

namespace OpenTypeLayout

/-! ## §1 Observed runs -/

/-- A moment at which a lookup has been applied to the glyph at an index. -/
structure Moment where
  /-- The lookup. -/
  lookup : Lookup Positioning
  /-- The index of the glyph. -/
  index : Nat
  /-- Whether the lookup did anything there. -/
  applied : Bool
  /-- The positions of all glyphs after that. -/
  positions : Array Position

/-- A lookup has attached the mark at an index. -/
def Moment.attaches (m : Moment) (index : Nat) : Bool :=
  m.applied && m.lookup.subtables.attachesMarks && m.index == index

/-- The last moment at which the mark at an index has been attached. -/
def lastAttached (history : List Moment) (index : Nat) : Option Moment :=
  history.find? fun m => m.attaches index

theorem lastAttached_cons_of_pos {m : Moment} {index : Nat} (h : m.attaches index = true)
    (history : List Moment) : lastAttached (m :: history) index = some m := by
  simp [lastAttached, h]

theorem lastAttached_cons_of_neg {m : Moment} {index : Nat} (h : m.attaches index = false)
    (history : List Moment) : lastAttached (m :: history) index = lastAttached history index := by
  simp [lastAttached, h]

theorem lastAttached_isSome (history : List Moment) (index : Nat) :
    (lastAttached history index).isSome ↔ ∃ m ∈ history, m.attaches index = true := by
  rw [lastAttached, List.find?_isSome]

/-- The history after a lookup has been applied, the last moment first. -/
def momentNotes {σ : Type} : Notes σ (List Moment) where
  after lookup index answer s history := ⟨lookup, index, answer.isSome, s.positions⟩ :: history

/-- Position a text, and keep the history of this. -/
def ActiveTable.positionObserved {σ : Type} (table : ActiveTable Positioning) (c : PosContext σ)
    (before : PosOutcome σ) : (Except LayoutError Unit × PosOutcome σ) × List Moment :=
  if before.glyphs.isEmpty then ((.error .invalidArgument, before), [])
  else
    let (result, s) := Program.outcome (PosM.activeNoting c momentNotes table table.active)
      ((PosM.startOf before).logged [])
    ((result, { glyphs := s.glyphs, positions := s.positions, kept := s.kept.1 }), s.kept.2)

/-! ## §2 What explains the links -/

/-- The index of the glyph that the one at an index is linked to, or the index itself. -/
def follow (positions : Array Position) (index : Nat) : Nat := index - backAt positions index

/-- If no link goes back beyond the first glyph, following links comes to an end. -/
theorem follow_ends {positions : Array Position} (h : ∀ i, backAt positions i ≤ i) (i : Nat) :
    ∃ n ≤ i, backAt positions ((follow positions)^[n] i) = 0 := by
  -- a link leads to an earlier glyph, so each one that is followed makes the index smaller
  induction i using Nat.strong_induction_on with
  | _ i ih =>
    rcases Nat.eq_zero_or_pos (backAt positions i) with hzero | hpos
    · exact ⟨0, Nat.zero_le i, hzero⟩
    · have hle := h i
      have hlt : follow positions i < i := by
        unfold follow
        omega
      obtain ⟨n, hn, hends⟩ := ih (follow positions i) hlt
      exact ⟨n + 1, by omega, hends⟩

/-- What the links of attached marks say after a history of lookups that have been applied. -/
structure LinksSound (table : Option Gdef) (text : Array GlyphItem) (history : List Moment)
    (positions : Array Position) : Prop where
  /-- Every glyph has a position. -/
  size : positions.size = text.size
  /-- A link goes back to a glyph of the text. -/
  back_le : ∀ i, backAt positions i ≤ i
  /-- Following links ends at a glyph without one. -/
  ends : ∀ i, ∃ n ≤ i, backAt positions ((follow positions)^[n] i) = 0
  /-- Those glyphs have links that some lookup has attached. -/
  linked_iff : ∀ i, backAt positions i ≠ 0 ↔ ∃ m ∈ history, m.attaches i = true
  /-- The link points to where the last of these lookups links a glyph. -/
  target : ∀ i m, lastAttached history i = some m →
    m.lookup.PointsTo table text i (follow positions i)

/-- The last lookup that has attached a glyph explains its link, and other glyphs have none. -/
structure Explains (table : Option Gdef) (text : Array GlyphItem) (history : List Moment)
    (positions : Array Position) : Prop where
  size : positions.size = text.size
  unlinked : ∀ i, lastAttached history i = none → backAt positions i = 0
  linked : ∀ i m, lastAttached history i = some m →
    ∃ target, m.lookup.PointsTo table text i target ∧ backAt positions i = i - target

namespace Explains

variable {table : Option Gdef} {text : Array GlyphItem} {history : List Moment}
variable {positions positions' : Array Position}

/-- No glyph is linked at the start. -/
theorem start (table : Option Gdef) (text : Array GlyphItem) :
    Explains table text [] (Array.replicate text.size {}) where
  size := Array.size_replicate
  unlinked i _ := by
    unfold backAt
    rw [Array.getElem?_replicate]
    split <;> rfl
  linked i m h := nomatch h

theorem of_backAt (h : Explains table text history positions)
    (hsize : positions'.size = positions.size) (hback : backAt positions' = backAt positions) :
    Explains table text history positions' where
  size := hsize.trans h.size
  unlinked i hi := by rw [hback, h.unlinked i hi]
  linked i m hm := by
    obtain ⟨target, hpoints, hlink⟩ := h.linked i m hm
    exact ⟨target, hpoints, by rw [hback, hlink]⟩

/-- A moment at which no mark is attached makes no difference. -/
theorem cons (h : Explains table text history positions) {m : Moment}
    (hm : ∀ i, m.attaches i = false) : Explains table text (m :: history) positions where
  size := h.size
  unlinked i hi := h.unlinked i (lastAttached_cons_of_neg (hm i) history ▸ hi)
  linked i m' hm' := h.linked i m' (lastAttached_cons_of_neg (hm i) history ▸ hm')

/-- A mark is attached, whether or not it has been attached before. -/
theorem cons_attached (h : Explains table text history positions) {m : Moment} {target : Nat}
    (hm : ∀ i, m.attaches i = true ↔ i = m.index)
    (hpoints : m.lookup.PointsTo table text m.index target)
    (hsize : positions'.size = positions.size)
    (hback : backAt positions' = Function.update (backAt positions) m.index (m.index - target)) :
    Explains table text (m :: history) positions' where
  size := hsize.trans h.size
  unlinked i hi := by
    -- the glyph attached now has a link, and the other glyphs keep what they have
    by_cases hindex : i = m.index
    · rw [lastAttached_cons_of_pos ((hm i).mpr hindex)] at hi
      cases hi
    · rw [lastAttached_cons_of_neg (Bool.eq_false_iff.mpr (mt (hm i).mp hindex))] at hi
      rw [hback, Function.update_of_ne hindex, h.unlinked i hi]
  linked i m' hm' := by
    by_cases hindex : i = m.index
    -- the newest moment is the last one for its glyph
    · rw [lastAttached_cons_of_pos ((hm i).mpr hindex)] at hm'
      cases hm'
      subst hindex
      exact ⟨target, hpoints, by rw [hback, Function.update_self]⟩
    · rw [lastAttached_cons_of_neg (Bool.eq_false_iff.mpr (mt (hm i).mp hindex))] at hm'
      rw [hback, Function.update_of_ne hindex]
      exact h.linked i m' hm'

theorem back_le (h : Explains table text history positions) (i : Nat) : backAt positions i ≤ i := by
  cases hlast : lastAttached history i with
  | none => simp [h.unlinked i hlast]
  | some m =>
    obtain ⟨target, -, hlink⟩ := h.linked i m hlast
    exact hlink ▸ Nat.sub_le i target

/-- What is explained is sound. -/
theorem sound (h : Explains table text history positions) :
    LinksSound table text history positions where
  size := h.size
  back_le := h.back_le
  ends := follow_ends h.back_le
  linked_iff i := by
    rw [← lastAttached_isSome]
    -- a link goes back by at least one, as its target stands before the glyph
    cases hlast : lastAttached history i with
    | none => simp [h.unlinked i hlast]
    | some m =>
      obtain ⟨target, hpoints, hlink⟩ := h.linked i m hlast
      have hbefore := hpoints.before
      exact iff_of_true (by omega) rfl
  target i m hm := by
    obtain ⟨target, hpoints, hlink⟩ := h.linked i m hm
    have hbefore := hpoints.before
    have htarget : follow positions i = target := by
      unfold follow
      omega
    exact htarget ▸ hpoints

end Explains

namespace PosM

open PosState (Kept beside)
open Program (Records Quiet Tracking Tracks within quiet_within)

variable {σ α : Type} {c : PosContext σ} {text : Array GlyphItem} {s s' : PosState σ}
variable {history : List Moment}

/-! ## §3 Comparing programs -/

/-- The state belongs to the text, and everything in the history explains the links of its time. -/
structure Followed (c : PosContext σ) (text : Array GlyphItem) (s : PosState σ)
    (history : List Moment) : Prop where
  settles : settled c.gdef s.glyphs = settled c.gdef text
  now : Explains c.gdef text history s.positions
  past : ∀ m earlier, m :: earlier <:+ history → Explains c.gdef text (m :: earlier) m.positions

theorem Followed.of_sameLinks (h : Followed c text s history) (hsame : SameLinks c s s') :
    Followed c text s' history where
  settles := hsame.kept.text.trans h.settles
  now := h.now.of_backAt hsame.kept.positioned hsame.links
  past := h.past

theorem Followed.positioned (h : Followed c text s history) : s.positions.size = s.glyphs.size := by
  rw [h.now.size, size_of_settled h.settles]

/-- One more moment. -/
theorem Followed.cons (h : Followed c text s history) {m : Moment} (hkept : Kept c s s')
    (hm : Explains c.gdef text (m :: history) m.positions)
    (hpositions : m.positions = s'.positions) : Followed c text s' (m :: history) where
  settles := hkept.text.trans h.settles
  now := hpositions ▸ hm
  past m' earlier hsuffix := by
    rcases List.suffix_cons_iff.mp hsuffix with heq | hsuffix
    · cases heq
      exact hm
    · exact h.past m' earlier hsuffix

/-- What the history explains goes on to be explained. -/
def following (c : PosContext σ) (text : Array GlyphItem) :
    Tracking (PosState σ) (List Moment) where
  rel s history s' history' := Followed c text s history → Followed c text s' history'
  refl _ _ := id
  trans h h' := h' ∘ h

/-- When it is observed, one program has the outcome that another one has otherwise, and what the
    history explains goes on to be explained. -/
abbrev Observes (c : PosContext σ) (text : Array GlyphItem) (x' : PosM (σ × List Moment) α)
    (x : PosM σ α) : Prop := Tracks beside (following c text) x' x

/-- A program that does nothing with the history and links no glyph. -/
theorem observes_of_keepsLinks {x' : PosM (σ × List Moment) α} {x : PosM σ α} (hx : KeepsLinks c x)
    (h : Quiet beside x' x) : Observes c text x' x :=
  .of_quiet h fun s _ hs => hs.of_sameLinks (hx s)

theorem observes_breakChain : Observes c text breakChain (breakChain : PosM σ Unit) :=
  observes_of_keepsLinks (keepsLinks_breakChain c) quiet_breakChain

theorem observes_findRule (flag : LookupFlag) (index : Nat) (rules : List RuleCandidate) :
    Observes c text (findRule c.logged flag index rules) (findRule c flag index rules) :=
  observes_of_keepsLinks (keepsLinks_findRule c flag index rules)
    (quiet_findRule c flag index rules)

/-! ## §4 Lookups -/

/-- What a lookup that has been applied at an index has done to the links. -/
def LinkStep (c : PosContext σ) (text : Array GlyphItem) (lookup : Lookup Positioning) (index : Nat)
    (answer : Option Nat) (s s' : PosState σ) : Prop :=
  if answer.isSome && lookup.subtables.attachesMarks then
    ∃ target, lookup.PointsTo c.gdef text index target ∧ NewLink c index target s s'
  else SameLinks c s s'

/-- Programs that take a step with the links, and leave them alone where they fail. -/
def StepsLinks (c : PosContext σ) (text : Array GlyphItem) (lookup : Lookup Positioning)
    (index : Nat) (x : PosM σ (Option Nat)) : Prop :=
  ∀ s, settled c.gdef s.glyphs = settled c.gdef text → s.positions.size = s.glyphs.size →
    Program.Meets x s (LinkStep c text lookup index · s) fun _ s' => SameLinks c s s'

variable {lookup : Lookup Positioning} {index : Nat} {x : PosM σ (Option Nat)}

theorem StepsLinks.of_keepsLinks (h : lookup.subtables.attachesMarks = false)
    (hx : KeepsLinks c x) : StepsLinks c text lookup index x := by
  intro s _ _
  have hs := hx s
  unfold Program.Meets
  rcases hrun : Program.outcome x s with ⟨e | answer, t⟩
  all_goals rw [hrun] at hs
  · exact hs
  · simpa [LinkStep, h] using hs

theorem StepsLinks.of_attaches (h : lookup.subtables.attachesMarks = true)
    (hx : ∀ s, settled c.gdef s.glyphs = settled c.gdef text → s.positions.size = s.glyphs.size →
      Attaches c (lookup.PointsTo c.gdef text index) index x s) :
      StepsLinks c text lookup index x := by
  intro s htext hpositioned
  refine (hx s htext hpositioned).mono (fun answer s' hs => ?_) fun _ _ => id
  simpa [LinkStep, h] using hs

/-- When a lookup has been applied, this is added to the history, and goes on to be explained. -/
def ObservesLookup (c : PosContext σ) (text : Array GlyphItem) (lookup : Lookup Positioning)
    (index : Nat) (x' : PosM (σ × List Moment) (Option Nat)) (x : PosM σ (Option Nat)) : Prop :=
  ∀ s history, Records beside x' x s history
    (fun answer s' history' => Followed c text s history →
      Followed c text s' (momentNotes.after lookup index answer s' history'))
    fun _ s' history' => Followed c text s history → Followed c text s' history'

/-- A lookup that does not invoke others. -/
theorem observesLookup_direct (hx : StepsLinks c text lookup index x) :
    ObservesLookup c text lookup index (within beside x) x := by
  intro s history
  refine (quiet_within x).records (fun answer s' hrun hs => ?_) fun e s' hrun hs =>
    hs.of_sameLinks ((hx s hs.settles hs.positioned).of_error hrun)
  have hstep := (hx s hs.settles hs.positioned).of_ok hrun
  unfold LinkStep at hstep
  split at hstep
  case isTrue happlied =>
    obtain ⟨target, hpoints, hlink⟩ := hstep
    refine hs.cons hlink.kept (hs.now.cons_attached (fun i => ?_) hpoints hlink.kept.positioned
      hlink.links) rfl
    rw [Moment.attaches, happlied, Bool.true_and, beq_iff_eq, eq_comm]
  case isFalse happlied =>
    refine hs.cons hstep.kept ((hs.of_sameLinks hstep).now.cons fun i => ?_) rfl
    rw [Moment.attaches, Bool.eq_false_iff.mpr happlied, Bool.false_and]

/-- A lookup that attaches no mark itself, and what it invokes has been observed. -/
theorem observesLookup_indirect {x' : PosM (σ × List Moment) (Option Nat)}
    (h : lookup.subtables.attachesMarks = false) (hx : Observes c text x' x) :
    ObservesLookup c text lookup index x' x := by
  refine fun s history => (hx s history).mono (fun answer s' history' _ hfollows hs => ?_)
    fun _ _ _ => id
  have hs' := hfollows hs
  refine hs'.cons (.refl c s') (hs'.now.cons fun i => ?_) rfl
  simp [Moment.attaches, h]

variable {invoke' : Invoke (σ × List Moment)} {invoke : Invoke σ}

section Invoke

variable (h : ∀ l index contextLength,
  Observes c text (invoke' l index contextLength) (invoke l index contextLength))
include h

theorem observes_applyRecords (places : List Nat) (last rounds index : Nat)
    (records : List LookupRecord) :
    Observes c text (applyRecords invoke' places last rounds index records)
      (applyRecords invoke places last rounds index records) := by
  induction rounds generalizing index records with
  | zero => exact .pure _
  | succ rounds ih =>
    rw [applyRecords_succ, applyRecords_succ]
    refine .ite ?_ (.pure _)
    dsimp only
    refine .bind ?_ fun next => ih _ _
    cases (nextRecord places index records).1 with
    | none => exact .pure _
    | some r => exact (Tracks.lift _).bind fun contextLength => h _ _ contextLength

theorem observes_applyContext (flag : LookupFlag) (contextLength : UInt16) (index : Nat)
    (item : GlyphItem) (subtables : List ContextLookup) :
    Observes c text (applyContext c.logged invoke' flag contextLength index item subtables)
      (applyContext c invoke flag contextLength index item subtables) := by
  induction subtables with
  | nil => exact .pure _
  | cons subtable rest ih =>
    rw [applyContext_cons, applyContext_cons]
    refine (Tracks.lift _).bind fun rules =>
      (observes_findRule flag index rules).bind fun found => ?_
    cases found with
    | none => exact ih
    | some rule =>
      refine Tracks.bind ?_ fun next => .pure _
      exact .get_bind fun s history => observes_applyRecords h _ _ _ _ _

/-- Lookups of every type are observed. -/
theorem observes_applySubtables (lookup : Lookup Positioning) (index : Nat)
    (contextLength : UInt16) :
    ObservesLookup c text lookup index
      (applySubtablesNoting c invoke' invoke lookup index contextLength)
      (applySubtables c invoke lookup index contextLength) := by
  obtain ⟨flag, subtables⟩ := lookup
  -- three types leave links alone, three attach marks, and two only do what they invoke
  cases subtables with
  | single subtables =>
    exact observesLookup_direct (.of_keepsLinks rfl (.ite
      (keepsLinks_atGlyph c _ _ fun _ _ => keepsLinks_applySingle c _ _ _) (.pure _)))
  | pair subtables =>
    exact observesLookup_direct (.of_keepsLinks rfl (.ite
      (keepsLinks_atGlyph c _ _ fun _ _ => keepsLinks_applyPair c _ _ _ _) (.pure _)))
  | cursive subtables =>
    exact observesLookup_direct (.of_keepsLinks rfl (.ite
      (keepsLinks_atGlyph c _ _ fun _ _ => keepsLinks_applyCursive c _ _ _ _)
      ((keepsLinks_breakChain c).bind fun _ => .pure _)))
  | markBase subtables =>
    refine observesLookup_direct (.of_attaches rfl fun s htext hpositioned => .ite ?_)
    exact attaches_atGlyph _ htext hpositioned fun item p t ht hindex =>
      attaches_applyMarkBase ht hindex subtables item
  | markLigature subtables =>
    refine observesLookup_direct (.of_attaches rfl fun s htext hpositioned => .ite ?_)
    exact attaches_atGlyph _ htext hpositioned fun item p t ht hindex =>
      attaches_applyMarkLigature ht hindex subtables item
  | markMark subtables =>
    refine observesLookup_direct (.of_attaches rfl fun s htext hpositioned => .ite ?_)
    exact attaches_atGlyph _ htext hpositioned fun item p t ht hindex =>
      attaches_applyMarkMark ht hindex flag subtables item
  | context subtables | chained subtables =>
    refine observesLookup_indirect rfl fun s history => ?_
    have hremember := keepsLinks_remember c index (index + 1) s
    refine records_atGlyph id ⟨fun hs => hs.of_sameLinks hremember, fun item p => ?_⟩
    refine (observes_applyContext h flag contextLength index item _ _ _).mono
      (fun _ _ _ _ hfollows hs => hfollows (hs.of_sameLinks hremember))
      fun _ _ _ hfollows hs => hfollows (hs.of_sameLinks hremember)

end Invoke

/-- Lookups nested to any depth are observed. -/
theorem observes_applyNoting (layout : LayoutTable Positioning) (levels lookupIndex index : Nat)
    (contextLength : UInt16) :
    Observes c text (applyNoting c momentNotes layout levels lookupIndex index contextLength)
      (applyLookup c layout levels lookupIndex index contextLength) := by
  -- what a rule invokes runs with one level less
  induction levels generalizing lookupIndex index contextLength with
  | zero => exact .throw _
  | succ levels ih =>
    exact fun s history => records_applyNoting (fun _ _ => id) fun lookup _ =>
      observes_applySubtables ih lookup index contextLength s history

/-! ## §5 Whole runs -/

section Pass

variable {apply' : Nat → PosM (σ × List Moment) (Option Nat)} {apply : Nat → PosM σ (Option Nat)}
variable (h : ∀ index, Observes c text (apply' index) (apply index)) (bits : UInt32)
include h

theorem observes_stepNoting (item : GlyphItem) (index : Nat) :
    Observes c text (stepNoting momentNotes apply' bits item index)
      (passStep apply bits item index) := by
  refine .ite ?_ fun s history => .note_bind ?_
  · exact (h index).bind fun answer => .pure _
  · exact observes_breakChain.bind (fun _ => .pure _) s history

theorem observes_loopNoting (rounds index : Nat) :
    Observes c text (loopNoting momentNotes apply' bits rounds index)
      (pass apply bits rounds index) := by
  induction rounds generalizing index with
  | zero => exact .pure _
  | succ rounds ih =>
    rw [pass_succ, loopNoting]
    refine .get_bind fun s history => ?_
    rw [PosState.beside_join, PosState.glyphs_logged]
    cases s.glyphs[index]? with
    | none => exact .pure _
    | some item => exact (observes_stepNoting h bits item index).bind fun next => ih next

end Pass

theorem observes_activeNoting (table : ActiveTable Positioning) (active : List (Nat × UInt32)) :
    Observes c text (activeNoting c momentNotes table active) (applyActive c table active) := by
  induction active with
  | nil => exact .pure _
  | cons first rest ih =>
    obtain ⟨lookupIndex, bits⟩ := first
    rw [applyActive_cons]
    refine Tracks.bind ?_ fun _ => ih
    refine observes_breakChain.bind fun _ => .get_bind fun s history => ?_
    exact observes_loopNoting (fun index =>
      observes_applyNoting table.layout table.nestingLimit lookupIndex index noContext) bits _ _

end PosM

open PosM Program in
/-- Let a text with at least one glyph be positioned, and let the run be observed. It goes as it
    does otherwise. The links of attached marks are sound at the start, each time that a lookup has
    been applied, also from within others, and at the end, even if the run fails:

    - No link goes back beyond the first glyph, so that following links always ends.
    - A glyph has a link if and only if some lookup has attached it as a mark.
    - If the last of these lookups attaches marks to bases or ligatures, the link points to the
      nearest glyph before that is not a mark. If it attaches marks to marks, the link points to the
      nearest glyph before that the lookup does not skip, and this is a mark. -/
theorem position_links {σ : Type} (table : ActiveTable Positioning) (c : PosContext σ)
    (before : PosOutcome σ) (hbefore : before.glyphs.isEmpty = false) :
    let run := table.positionObserved c before
    run.1 = table.position c before ∧
    LinksSound c.gdef before.glyphs [] (startOf before).positions ∧
    (∀ m earlier, m :: earlier <:+ run.2 →
      LinksSound c.gdef before.glyphs (m :: earlier) m.positions) ∧
    LinksSound c.gdef before.glyphs run.2 run.1.2.positions := by
  have hstart : Followed c before.glyphs (startOf before) [] :=
    ⟨rfl, .start c.gdef before.glyphs, fun m earlier h => absurd (List.suffix_nil.mp h) (by simp)⟩
  obtain ⟨history, hrun, hend⟩ :=
    Tracks.iff_exists.mp (observes_activeNoting table table.active) (startOf before) []
  have hend := hend hstart
  have hrun : Program.outcome (activeNoting c momentNotes table table.active)
      ((startOf before).logged []) = (_, PosState.logged _ history) := hrun
  dsimp only
  rw [ActiveTable.positionObserved, hbefore, if_neg Bool.false_ne_true, hrun,
    position_eq c table hbefore]
  exact ⟨rfl, hstart.now.sound, fun m earlier h => (hend.past m earlier h).sound, hend.now.sound⟩

/-! A font with two marks that are stacked on a base. A rule attaches both of them to the base
    first. Another lookup attaches the second mark to the first one instead. -/

namespace StackedMarks

def anchors (marks targets : Array GlyphId) : MarkBasePos where
  markCoverage := .glyphs marks
  targetCoverage := .glyphs targets
  classCount := 1
  marks := marks.map fun _ => ⟨0, some (.design 10 20)⟩
  targets := targets.map fun _ => #[some (.design 100 500)]

/-- Attaches the marks 2 and 3 to the base 1. -/
def onBase : Lookup Positioning := ⟨.empty, .markBase #[anchors #[2, 3] #[1]]⟩

/-- Attaches the mark 3 to the mark 2. -/
def onMark : Lookup Positioning := ⟨.empty, .markMark #[anchors #[3] #[2]]⟩

/-- Invokes the first of the other lookups at both marks after a base. -/
def inContext : Lookup Positioning :=
  ⟨.empty, .context
    #[.byCoverage (.glyphs #[1]) #[] #[.glyphs #[2], .glyphs #[3]] #[] [⟨1, 1⟩, ⟨2, 1⟩]]⟩

def table : ActiveTable Positioning where
  layout := { scripts := #[], features := #[], lookups := #[inContext, onBase, onMark] }
  bits := #[1, 0, 1]

def context : PosContext Unit where
  gdef := some { classes := some (.ranges #[⟨2, 3, 3⟩]) }
  params := {}
  source := { contour := PosSource.noOutlines, metric := PosSource.noMetrics }

/-- The glyphs 1, 2, 3. -/
def before : PosOutcome Unit where
  glyphs := #[
    { glyph := 1, activation := 1, cluster := 0 }, { glyph := 2, activation := 1, cluster := 1 },
    { glyph := 3, activation := 1, cluster := 2 }]
  positions := #[]
  kept := ()

/-- What an observed run has done. -/
def run : (Except LayoutError Unit × PosOutcome Unit) × List Moment :=
  table.positionObserved context before

end StackedMarks

open PosM StackedMarks in
/-- The second mark is linked to the base when the rule has been worked through, and to the mark
    before it at the end. -/
theorem position_links_stackedMarks :
    before.glyphs.isEmpty = false ∧ run.1 = table.position context before ∧
    run.2.map (fun m => (m.index, m.attaches m.index, m.positions.map Position.back)) =
      [(2, true, #[0, 1, 1]), (1, false, #[0, 1, 2]), (0, false, #[0, 1, 2]),
        (0, false, #[0, 1, 2]), (2, true, #[0, 1, 2]), (1, true, #[0, 1, 0])] ∧
    onMark.PointsTo context.gdef before.glyphs 2 1 := by
  have hbefore : before.glyphs.isEmpty = false := by decide
  obtain ⟨hsame, -, -, hend⟩ := position_links table context before hbefore
  have hhistory :
      run.2.map (fun m => (m.index, m.attaches m.index, m.positions.map Position.back)) =
      [(2, true, #[0, 1, 1]), (1, false, #[0, 1, 2]), (0, false, #[0, 1, 2]),
        (0, false, #[0, 1, 2]), (2, true, #[0, 1, 2]), (1, true, #[0, 1, 0])] := by decide +kernel
  have hlast : (lastAttached run.2 2).map Moment.lookup = some onMark := by decide +kernel
  have hfollow : follow run.1.2.positions 2 = 1 := by decide +kernel
  obtain ⟨m, hm, hlookup⟩ := Option.map_eq_some_iff.mp hlast
  refine ⟨hbefore, hsame, hhistory, ?_⟩
  rw [← hlookup, ← hfollow]
  exact hend.target 2 m hm

end OpenTypeLayout
