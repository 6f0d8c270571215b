import OpenTypeLayout.LayoutTable
import OpenTypeLayout.Proofs.Loading
import OpenTypeLayout.Positioning.Subtable
import OpenTypeLayout.Substitution.Subtable

/-!
# Loading in two ways

Everything that reads a layout table is written for any monad that knows shared tables. It cannot
look into the monad, so two monads lead to the same answers if they answer the same wherever shared
tables are asked for.

- `Comparison m n` says what it means that computations in two monads answer alike, with one clause
  for each way in which decoders are put together.
- `SharedComparison whole m n` adds that both monads answer the same when they are asked for a
  shared table. They only have to do so for suffixes of the window that is loaded.
- §3 goes through the decoders that only read, §4 through the readers of subtables, and §6 through
  those of lookups and layout tables. On the way there, every window is a suffix of the first one.
-/

namespace OpenTypeLayout

/-! ## §1 Suffixes of a window -/

/-- The window begins somewhere behind the beginning of the other, or past its end, and ends where
    the other one does. -/
def Window.IsSuffix (w whole : Window) : Prop := ∃ n, w = whole.offset n

namespace Window.IsSuffix

variable {u v w whole : Window}

theorem refl (w : Window) : w.IsSuffix w := ⟨0, rfl⟩

theorem offset (h : w.IsSuffix whole) (n : Nat) : (w.offset n).IsSuffix whole := by
  obtain ⟨k, rfl⟩ := h
  exact ⟨k + n, by simp [Window.offset, Nat.add_assoc]⟩

/-- The place where a suffix begins determines it, also if that place is past the end. -/
theorem eq_of_base (hu : u.IsSuffix whole) (hv : v.IsSuffix whole)
    (h : u.base = v.base) : u = v := by
  obtain ⟨k, rfl⟩ := hu
  obtain ⟨n, rfl⟩ := hv
  have hkn : k = n := by simpa [Window.offset] using h
  rw [hkn]

theorem of_offsetNullable (h : w.IsSuffix whole) {n : UInt16} {target : Window}
    (htarget : w.offsetNullable n = .ok (some target)) : target.IsSuffix whole := by
  unfold offsetNullable at htarget
  split at htarget
  · cases htarget
  · split at htarget
    · cases htarget
      exact h.offset n.toNat
    · cases htarget

end Window.IsSuffix

/-- Following one offset after the other leads to a suffix. -/
theorem Window.isSuffix_foldl_offset (whole : Window) (offsets : List Nat) :
    (offsets.foldl Window.offset whole).IsSuffix whole := by
  have hchain : ∀ w : Window, w.IsSuffix whole →
      (offsets.foldl Window.offset w).IsSuffix whole := by
    induction offsets with
    | nil => exact fun w hw => hw
    | cons n rest ih => exact fun w hw => ih (w.offset n) (hw.offset n)
  exact hchain whole (.refl whole)

/-! ## §2 Comparing computations -/

/-- Two monads for decoding, with what it means that a computation in one and a computation in the
    other answer alike. -/
structure Comparison (m n : Type → Type) [Monad m] [Monad n] [MonadExceptOf ParseError m]
    [MonadExceptOf ParseError n] where
  lawful_left : LawfulMonad m
  lawful_right : LawfulMonad n
  /-- Both computations answer alike, and the condition holds of what they answer. -/
  Alike {α : Type} (x : m α) (y : n α) (P : α → Prop) : Prop
  alike_pure {α : Type} {a : α} {P : α → Prop} : P a → Alike (pure a) (pure a) P
  alike_bind {α β : Type} {x : m α} {y : n α} {f : α → m β} {g : α → n β} {P : α → Prop}
    {Q : β → Prop} :
    Alike x y P → (∀ a, P a → Alike (f a) (g a) Q) → Alike (x >>= f) (y >>= g) Q
  alike_throw {α : Type} {P : α → Prop} (e : ParseError) : Alike (throw e) (throw e) P

namespace Comparison

variable {m n : Type → Type} [Monad m] [Monad n] [MonadExceptOf ParseError m]
variable [MonadExceptOf ParseError n] {α β : Type}

/-- Both computations answer alike. -/
def Same (c : Comparison m n) (x : m α) (y : n α) : Prop := c.Alike x y fun _ => True

/-- With a state, computations are compared from every state to begin with. -/
def withState (c : Comparison m n) (σ : Type) : Comparison (StateT σ m) (StateT σ n) where
  lawful_left := have := c.lawful_left; inferInstance
  lawful_right := have := c.lawful_right; inferInstance
  Alike x y P := ∀ s, c.Alike (x.run s) (y.run s) fun answer => P answer.1
  alike_pure ha _ := c.alike_pure ha
  alike_bind hx hf s := c.alike_bind (hx s) fun answer hanswer => hf answer.1 hanswer answer.2
  alike_throw e _ := c.alike_bind (c.alike_throw e) fun _ h => c.alike_pure h

section

variable {c : Comparison m n} {x : m α} {y : n α} {f : α → m β} {g : α → n β}

theorem same_pure (a : α) : c.Same (pure a) (pure a) := c.alike_pure trivial

theorem same_throw (e : ParseError) : c.Same (throw e : m α) (throw e : n α) := c.alike_throw e

theorem same_bind (hx : c.Same x y) (hf : ∀ a, c.Same (f a) (g a)) : c.Same (x >>= f) (y >>= g) :=
  c.alike_bind hx fun a _ => hf a

theorem same_map (f : α → β) (hx : c.Same x y) : c.Same (f <$> x) (f <$> y) := by
  have := c.lawful_left
  have := c.lawful_right
  rw [← bind_pure_comp, ← bind_pure_comp]
  exact same_bind hx fun a => same_pure (f a)

theorem same_demand (condition : Bool) (e : ParseError) :
    c.Same (demand condition e : m Unit) (demand condition e) := by
  unfold demand
  split
  · exact same_pure ()
  · exact same_throw e

theorem same_ofExcept (r : Except ParseError α) :
    c.Same (MonadExcept.ofExcept r : m α) (MonadExcept.ofExcept r) := by
  cases r with
  | error e => exact same_throw e
  | ok a => exact same_pure a

theorem same_mapM {items : Array β} {f : β → m α} {g : β → n α}
    (h : ∀ b ∈ items, c.Same (f b) (g b)) : c.Same (items.mapM f) (items.mapM g) := by
  have := c.lawful_left
  have := c.lawful_right
  have hlist : ∀ list : List β, (∀ b ∈ list, c.Same (f b) (g b)) →
      c.Same (list.mapM f) (list.mapM g) := by
    intro list hlist
    induction list with
    | nil => exact same_pure []
    | cons b rest ih =>
      rw [List.mapM_cons, List.mapM_cons]
      refine same_bind (hlist b List.mem_cons_self) fun a => ?_
      refine same_bind (ih fun b hb => hlist b (List.mem_cons_of_mem _ hb)) fun answers => ?_
      exact same_pure (a :: answers)
  rw [Array.mapM_eq_mapM_toList, Array.mapM_eq_mapM_toList]
  exact same_map _ (hlist items.toList fun b hb => h b (Array.mem_toList_iff.mp hb))

end

/-! ## §3 Comparing decoders -/

section

variable {c : Comparison m n}

/-- A single read does not depend on the monad. -/
theorem alike_ofRead {f : Cursor → Except ParseError (α × Cursor)} {P : α → Prop}
    (h : ∀ cursor answer, f cursor = .ok answer → P answer.1) :
    (c.withState Cursor).Alike (Decoder.ofRead f) (Decoder.ofRead f) P := by
  intro cursor
  show c.Alike (Decoder.ofRead f cursor) (Decoder.ofRead f cursor) _
  unfold Decoder.ofRead
  cases hanswer : f cursor with
  | error e => exact c.alike_throw e
  | ok answer => exact c.alike_pure (h cursor answer hanswer)

theorem same_ofRead (f : Cursor → Except ParseError (α × Cursor)) :
    (c.withState Cursor).Same (Decoder.ofRead f) (Decoder.ofRead f) :=
  alike_ofRead fun _ _ _ => trivial

theorem same_lift {x : m α} {y : n α} (h : c.Same x y) :
    (c.withState Cursor).Same (StateT.lift x) (StateT.lift y) :=
  fun _ => c.alike_bind h fun _ h => c.alike_pure h

theorem same_decode (w : Window) {x : Decoder m α} {y : Decoder n α}
    (h : (c.withState Cursor).Same x y) : c.Same (w.decode x) (w.decode y) :=
  same_bind (h (Cursor.ofWindow w)) fun answer => same_pure answer.1

theorem same_u16 : (c.withState Cursor).Same Decoder.u16 Decoder.u16 := same_ofRead _

theorem same_u16s (k : Nat) : (c.withState Cursor).Same (Decoder.u16s k) (Decoder.u16s k) :=
  same_ofRead _

theorem same_count : (c.withState Cursor).Same Decoder.count Decoder.count :=
  same_bind same_u16 fun k => same_pure k.toNat

theorem same_lookupRecords (k : Nat) :
    (c.withState Cursor).Same (Decoder.lookupRecords k) (Decoder.lookupRecords k) :=
  same_bind (same_ofRead _) fun records => same_pure (LookupRecord.sorted records)

theorem same_records (stride k : Nat) (one : Decoder (Except ParseError) α) :
    (c.withState Cursor).Same (Decoder.records stride k one) (Decoder.records stride k one) :=
  same_bind (same_ofRead _) fun _ => same_ofExcept _

theorem same_valueFormat :
    (c.withState Cursor).Same ValueFormat.decoder ValueFormat.decoder :=
  same_bind same_u16 fun bits => same_ofExcept (ValueFormat.ofBits bits)

theorem same_loadValue (f : ValueFormat) (base : Window) :
    (c.withState Cursor).Same (loadValue f base) (loadValue f base) :=
  same_ofRead _

/-- Where offsets lead from a suffix, there is a suffix again. -/
theorem same_decodeEach {w whole : Window} (hw : w.IsSuffix whole) (offsets : Array UInt16)
    {x : Window → m α} {y : Window → n α}
    (h : ∀ target, target.IsSuffix whole → c.Same (x target) (y target)) :
    (c.withState Cursor).Same (w.decodeEach offsets x) (w.decodeEach offsets y) :=
  same_lift (same_mapM fun k _ => h _ (hw.offset k.toNat))

theorem same_decodeEachNullable {w whole : Window} (hw : w.IsSuffix whole) (offsets : Array UInt16)
    {x : Window → m α} {y : Window → n α}
    (h : ∀ target, target.IsSuffix whole → c.Same (x target) (y target)) :
    (c.withState Cursor).Same (w.decodeEachNullable offsets x)
      (w.decodeEachNullable offsets y) := by
  refine same_lift (same_mapM fun k _ => ?_)
  split
  · exact same_pure none
  · exact same_map some (h _ (hw.offset k.toNat))

theorem same_decodeNullable {w whole : Window} (hw : w.IsSuffix whole) (k : UInt16)
    {x : Window → m α} {y : Window → n α}
    (h : ∀ target, target.IsSuffix whole → c.Same (x target) (y target)) :
    (c.withState Cursor).Same (w.decodeNullable k x) (w.decodeNullable k y) := by
  apply same_lift
  cases htarget : w.offsetNullable k with
  | error e => exact same_throw e
  | ok target =>
    cases target with
    | none => exact same_pure none
    | some target => exact same_map some (h target (hw.of_offsetNullable htarget))

end

end Comparison

/-! ## §4 Comparing loads -/

/-- Two monads that know shared tables and answer the same when they are asked for one that begins
    somewhere in a suffix of the window that is loaded. -/
structure SharedComparison (whole : Window) (m n : Type → Type) [Monad m] [Monad n]
    [MonadExceptOf ParseError m] [MonadExceptOf ParseError n] [SharedTables m] [SharedTables n]
    extends Comparison m n where
  same_sharedCoverage {w : Window} : w.IsSuffix whole →
    toComparison.Same (SharedTables.coverage w : m Coverage) (SharedTables.coverage w)
  same_sharedClassDef {w : Window} : w.IsSuffix whole →
    toComparison.Same (SharedTables.classDef w : m ClassDef) (SharedTables.classDef w)

namespace SharedComparison

open Comparison

variable {whole w : Window} {m n : Type → Type} [Monad m] [Monad n] [MonadExceptOf ParseError m]
variable [MonadExceptOf ParseError n] [SharedTables m] [SharedTables n]
variable (c : SharedComparison whole m n) (hw : w.IsSuffix whole)

section

include hw

theorem same_coverage (k : UInt16) : (c.withState Cursor).Same (w.coverage k) (w.coverage k) :=
  same_lift (c.same_sharedCoverage (hw.offset k.toNat))

theorem same_classDef (k : UInt16) : (c.withState Cursor).Same (w.classDef k) (w.classDef k) :=
  same_lift (c.same_sharedClassDef (hw.offset k.toNat))

theorem same_coverages (offsets : Array UInt16) :
    (c.withState Cursor).Same (w.coverages offsets) (w.coverages offsets) :=
  same_decodeEach hw offsets fun _ htarget => c.same_sharedCoverage htarget

/-! ### Contextual subtables -/

theorem same_optionalClassDef (k : UInt16) :
    (c.withState Cursor).Same (ContextLookup.optionalClassDef w k)
      (ContextLookup.optionalClassDef w k) := by
  unfold ContextLookup.optionalClassDef
  split
  · exact same_pure _
  · exact c.same_classDef hw k

theorem same_ruleSets (offsets : Array UInt16) (rule : Window → Except ParseError ContextRule) :
    (c.withState Cursor).Same (ContextLookup.ruleSets w offsets rule)
      (ContextLookup.ruleSets w offsets rule) :=
  same_decodeEachNullable hw offsets fun _ _ => same_ofExcept _

theorem same_plain : c.Same (ContextLookup.plain w) (ContextLookup.plain w) := by
  apply same_decode
  refine same_bind same_u16 fun format => ?_
  split
  -- rule sets are read one by one, and the coverage table is a shared one
  case h_1 =>
    refine same_bind same_u16 fun coverageOffset => same_bind same_count fun count =>
      same_bind (same_u16s count) fun offsets => ?_
    refine same_bind (c.same_ruleSets hw offsets _) fun sets => ?_
    exact same_bind (c.same_coverage hw coverageOffset) fun coverage => same_pure _
  -- with classes there is one shared table more
  case h_2 =>
    refine same_bind same_u16 fun coverageOffset => same_bind same_u16 fun classesOffset =>
      same_bind same_u16 fun setCount => same_bind (same_u16s _) fun offsets => ?_
    refine same_bind (c.same_ruleSets hw offsets _) fun sets => ?_
    refine same_bind (c.same_coverage hw coverageOffset) fun coverage => ?_
    refine same_bind (c.same_classDef hw classesOffset) fun classes => ?_
    exact same_bind (same_demand _ _) fun _ => same_pure _
  -- with coverage tables everything but the records is shared
  case h_3 =>
    refine same_bind same_count fun inputCount => same_bind (same_demand _ _) fun _ =>
      same_bind same_count fun recordCount => same_bind (same_u16s inputCount) fun offsets =>
      same_bind (same_lookupRecords recordCount) fun records => ?_
    exact same_bind (c.same_coverages hw offsets) fun input => same_ofExcept _
  case h_4 => exact same_throw _

theorem same_chained : c.Same (ContextLookup.chained w) (ContextLookup.chained w) := by
  apply same_decode
  refine same_bind same_u16 fun format => ?_
  split
  -- rule sets of glyphs
  case h_1 =>
    refine same_bind same_u16 fun coverageOffset => same_bind same_count fun count =>
      same_bind (same_u16s count) fun offsets => ?_
    refine same_bind (c.same_ruleSets hw offsets _) fun sets => ?_
    exact same_bind (c.same_coverage hw coverageOffset) fun coverage => same_pure _
  -- rule sets of classes, where the tables before and behind may be missing
  case h_2 =>
    refine same_bind same_u16 fun coverageOffset => same_bind same_u16 fun backtrackOffset =>
      same_bind same_u16 fun inputOffset => same_bind same_u16 fun lookaheadOffset =>
      same_bind same_u16 fun setCount => same_bind (same_u16s _) fun offsets => ?_
    refine same_bind (c.same_ruleSets hw offsets _) fun sets => ?_
    refine same_bind (c.same_coverage hw coverageOffset) fun coverage => ?_
    refine same_bind (c.same_optionalClassDef hw backtrackOffset) fun backtrack => ?_
    refine same_bind (c.same_classDef hw inputOffset) fun input => ?_
    refine same_bind (same_demand _ _) fun _ => ?_
    exact same_bind (c.same_optionalClassDef hw lookaheadOffset) fun lookahead => same_pure _
  -- one rule with its coverage tables
  case h_3 =>
    refine same_bind same_count fun backtrackCount =>
      same_bind (same_u16s _) fun backtrackOffsets =>
      same_bind same_count fun inputCount => same_bind (same_demand _ _) fun _ =>
      same_bind (same_u16s _) fun inputOffsets => same_bind same_count fun lookaheadCount =>
      same_bind (same_u16s _) fun lookaheadOffsets => same_bind same_count fun recordCount =>
      same_bind (same_lookupRecords recordCount) fun records => ?_
    refine same_bind (c.same_coverages hw backtrackOffsets) fun backtrack => ?_
    refine same_bind (c.same_coverages hw inputOffsets) fun input => ?_
    exact same_bind (c.same_coverages hw lookaheadOffsets) fun lookahead => same_ofExcept _
  case h_4 => exact same_throw _

/-! ### Substitution subtables -/

theorem same_coverageMap {α : Type} (entry : Window → Except ParseError α) :
    c.Same (CoverageMap.load entry w) (CoverageMap.load entry w) := by
  apply same_decode
  refine same_bind same_u16 fun format => same_bind (same_demand _ _) fun _ =>
    same_bind same_u16 fun coverageOffset => ?_
  refine same_bind (c.same_coverage hw coverageOffset) fun coverage => ?_
  refine same_bind same_count fun count => same_bind (same_u16s count) fun offsets => ?_
  exact same_bind (same_decodeEach hw offsets fun _ _ => same_ofExcept _) fun entries => same_pure _

theorem same_singleSubst : c.Same (SingleSubst.load w) (SingleSubst.load w) := by
  apply same_decode
  refine same_bind same_u16 fun format => ?_
  split
  case h_1 =>
    refine same_bind same_u16 fun coverageOffset => ?_
    refine same_bind (c.same_coverage hw coverageOffset) fun coverage => ?_
    exact same_bind same_u16 fun amount => same_pure _
  case h_2 =>
    refine same_bind same_u16 fun coverageOffset => ?_
    refine same_bind (c.same_coverage hw coverageOffset) fun coverage => ?_
    exact same_bind same_count fun count => same_bind (same_u16s count) fun entries => same_pure _
  case h_3 => exact same_throw _

theorem same_reverseSubst : c.Same (ReverseSubst.load w) (ReverseSubst.load w) := by
  apply same_decode
  refine same_bind same_u16 fun format => same_bind (same_demand _ _) fun _ =>
    same_bind same_u16 fun coverageOffset => same_bind same_count fun backtrackCount =>
    same_bind (same_u16s _) fun backtrackOffsets => same_bind same_count fun lookaheadCount =>
    same_bind (same_u16s _) fun lookaheadOffsets => same_bind same_count fun count =>
    same_bind (same_u16s count) fun substitutes => ?_
  refine same_bind (c.same_coverage hw coverageOffset) fun coverage => ?_
  refine same_bind (c.same_coverages hw backtrackOffsets) fun backtrack => ?_
  refine same_bind (c.same_coverages hw lookaheadOffsets) fun lookahead => ?_
  exact same_bind (same_demand _ _) fun _ => same_pure _

/-! ### Positioning subtables -/

theorem same_singlePos : c.Same (SinglePos.load w) (SinglePos.load w) := by
  apply same_decode
  refine same_bind same_u16 fun format => ?_
  split
  case h_1 =>
    refine same_bind same_u16 fun coverageOffset => ?_
    refine same_bind (c.same_coverage hw coverageOffset) fun coverage => ?_
    exact same_bind same_valueFormat fun format =>
      same_bind (same_loadValue format w) fun value => same_pure _
  case h_2 =>
    refine same_bind same_u16 fun coverageOffset => ?_
    refine same_bind (c.same_coverage hw coverageOffset) fun coverage => ?_
    exact same_bind same_valueFormat fun format => same_bind same_count fun count =>
      same_bind (same_records _ _ _) fun entries => same_pure _
  case h_3 => exact same_throw _

theorem same_pairPos : c.Same (PairPos.load w) (PairPos.load w) := by
  apply same_decode
  refine same_bind same_u16 fun format => ?_
  split
  -- the sets of the first format hold no shared tables
  case h_1 =>
    refine same_bind same_u16 fun coverageOffset => ?_
    refine same_bind (c.same_coverage hw coverageOffset) fun coverage => ?_
    refine same_bind same_valueFormat fun first => same_bind same_valueFormat fun second =>
      same_bind same_count fun count => same_bind (same_u16s count) fun offsets => ?_
    exact same_bind (same_decodeEach hw offsets fun _ _ => same_ofExcept _) fun entries =>
      same_pure _
  -- the second format reads its shared tables between its counts
  case h_2 =>
    refine same_bind same_u16 fun coverageOffset => ?_
    refine same_bind (c.same_coverage hw coverageOffset) fun coverage => ?_
    refine same_bind same_valueFormat fun first => same_bind same_valueFormat fun second => ?_
    refine same_bind same_u16 fun firstOffset => ?_
    refine same_bind (c.same_classDef hw firstOffset) fun firstClasses => ?_
    refine same_bind same_u16 fun secondOffset => ?_
    refine same_bind (c.same_classDef hw secondOffset) fun secondClasses => ?_
    refine same_bind same_u16 fun firstCount => same_bind same_u16 fun secondCount =>
      same_bind (same_demand _ _) fun _ => same_bind (same_demand _ _) fun _ => ?_
    exact same_bind (same_records _ _ _) fun rows => same_pure _
  case h_3 => exact same_throw _

theorem same_cursivePos : c.Same (CursivePos.load w) (CursivePos.load w) := by
  apply same_decode
  refine same_bind same_u16 fun format => same_bind (same_demand _ _) fun _ =>
    same_bind same_u16 fun coverageOffset => ?_
  refine same_bind (c.same_coverage hw coverageOffset) fun coverage => ?_
  exact same_bind same_count fun count => same_bind (same_records _ _ _) fun entries => same_pure _

theorem same_markAttach {T : Type} (targets : Nat → Window → Except ParseError (Array T)) :
    c.Same (MarkAttach.load targets w) (MarkAttach.load targets w) := by
  apply same_decode
  refine same_bind same_u16 fun format => same_bind (same_demand _ _) fun _ =>
    same_bind same_u16 fun markCoverageOffset => same_bind same_u16 fun targetCoverageOffset =>
    same_bind same_count fun classCount => same_bind same_count fun marksOffset =>
    same_bind same_count fun targetsOffset => ?_
  refine same_bind (c.same_coverage hw markCoverageOffset) fun markCoverage => ?_
  refine same_bind (c.same_coverage hw targetCoverageOffset) fun targetCoverage => ?_
  exact same_bind (same_ofExcept _) fun marks => same_bind (same_ofExcept _) fun targets =>
    same_pure _

end

/-! ### Families of lookups -/

theorem same_substitution (lookupType : UInt16) {subtables : Array Window}
    (h : ∀ v ∈ subtables, v.IsSuffix whole) :
    c.Same (Substitution.load lookupType subtables) (Substitution.load lookupType subtables) := by
  unfold Substitution.load
  split
  case h_1 => exact same_map _ (same_mapM fun v hv => c.same_singleSubst (h v hv))
  case h_5 => exact same_map _ (same_mapM fun v hv => c.same_plain (h v hv))
  case h_6 => exact same_map _ (same_mapM fun v hv => c.same_chained (h v hv))
  case h_7 => exact same_map _ (same_mapM fun v hv => c.same_reverseSubst (h v hv))
  case h_8 => exact same_throw _
  all_goals exact same_map _ (same_mapM fun v hv => c.same_coverageMap (h v hv) _)

theorem same_positioning (lookupType : UInt16) {subtables : Array Window}
    (h : ∀ v ∈ subtables, v.IsSuffix whole) :
    c.Same (Positioning.load lookupType subtables) (Positioning.load lookupType subtables) := by
  unfold Positioning.load
  split
  case h_1 => exact same_map _ (same_mapM fun v hv => c.same_singlePos (h v hv))
  case h_2 => exact same_map _ (same_mapM fun v hv => c.same_pairPos (h v hv))
  case h_3 => exact same_map _ (same_mapM fun v hv => c.same_cursivePos (h v hv))
  case h_7 => exact same_map _ (same_mapM fun v hv => c.same_plain (h v hv))
  case h_8 => exact same_map _ (same_mapM fun v hv => c.same_chained (h v hv))
  case h_9 => exact same_throw _
  all_goals exact same_map _ (same_mapM fun v hv => c.same_markAttach (h v hv) _)

end SharedComparison

/-! ## §5 Extensions -/

/-- An extension leads to a suffix, like any other offset. -/
theorem Extension.ensures_ofWindow {w whole : Window} (hw : w.IsSuffix whole) :
    Ensures (ofWindow w) fun answer => answer.2.IsSuffix whole := by
  apply ensures_decode
  refine ensures_after fun format => ?_
  split
  · refine ensures_after fun wrapped => ensures_after fun n => ensures_after fun _ => ?_
    exact ensures_pure (hw.offset n.toNat)
  · exact ensures_throw _

theorem Extension.ensures_unwrapEach {whole : Window} {extensionType : UInt16}
    {subtables : List Window} (hw : ∀ w ∈ subtables, w.IsSuffix whole) (known : Option UInt16) :
    Ensures (unwrapEach extensionType known subtables) fun answer =>
      ∀ target ∈ answer.2, target.IsSuffix whole := by
  induction subtables generalizing known with
  | nil => exact ensures_pure fun _ htarget => absurd htarget List.not_mem_nil
  | cons w rest ih =>
    obtain ⟨hfirst, hrest⟩ := List.forall_mem_cons.mp hw
    refine ensures_bind (ensures_ofWindow hfirst) fun (wrapped, target) htarget => ?_
    refine ensures_after fun _ => ensures_after fun _ => ?_
    refine ensures_bind (ih hrest (some wrapped)) fun answer hanswer => ?_
    exact ensures_pure (List.forall_mem_cons.mpr ⟨htarget, hanswer⟩)

theorem Extension.ensures_unwrap {whole : Window} {extensionType : UInt16}
    {subtables : Array Window} (hw : ∀ w ∈ subtables, w.IsSuffix whole) :
    Ensures (unwrap extensionType subtables) fun answer =>
      ∀ target ∈ answer.2, target.IsSuffix whole := by
  have hlist : ∀ w ∈ subtables.toList, w.IsSuffix whole :=
    fun w hmem => hw w (Array.mem_toList_iff.mp hmem)
  refine ensures_bind (ensures_unwrapEach hlist none) fun answer hanswer => ?_
  split
  case h_1 targets =>
    exact ensures_pure fun target htarget => hanswer target (List.mem_toArray.mp htarget)
  case h_2 => exact ensures_throw _

/-! ## §6 Layout tables -/

/-- A family of lookups whose subtables are read in the same way in all monads. -/
class UniformFamily (S : Type) [LookupFamily S] : Prop where
  same_load {whole : Window} {m n : Type → Type} [Monad m] [Monad n] [MonadExceptOf ParseError m]
    [MonadExceptOf ParseError n] [SharedTables m] [SharedTables n] (c : SharedComparison whole m n)
    (lookupType : UInt16) {subtables : Array Window} :
    (∀ w ∈ subtables, w.IsSuffix whole) →
      c.Same (LookupFamily.load lookupType subtables : m S) (LookupFamily.load lookupType subtables)

instance : UniformFamily Substitution where
  same_load c lookupType _ h := c.same_substitution lookupType h

instance : UniformFamily Positioning where
  same_load c lookupType _ h := c.same_positioning lookupType h

namespace SharedComparison

open Comparison

section

variable {S : Type} [LookupFamily S] [UniformFamily S] {whole w : Window} {m n : Type → Type}
variable [Monad m] [Monad n]
variable [MonadExceptOf ParseError m] [MonadExceptOf ParseError n] [SharedTables m] [SharedTables n]

/-- The subtables of a lookup are read where the offsets or the extensions of the lookup lead. -/
theorem same_lookup (c : SharedComparison whole m n) (hw : w.IsSuffix whole) :
    c.Same (Lookup.load w : m (Lookup S)) (Lookup.load w) := by
  apply same_decode
  refine same_bind same_u16 fun type => same_bind same_u16 fun flag =>
    same_bind same_count fun count => same_bind (same_u16s count) fun offsets => ?_
  -- the subtables of the lookup begin in suffixes of the whole window
  have htargets : ∀ v ∈ offsets.map fun n => w.offset n.toNat, v.IsSuffix whole := by
    intro v hv
    obtain ⟨k, -, rfl⟩ := Array.mem_map.mp hv
    exact hw.offset k.toNat
  -- from there on it does not matter which windows they are
  have hrest : ∀ type subtables, (∀ v ∈ subtables, v.IsSuffix whole) →
      (c.withState Cursor).Same
        (do return { flag := ⟨flag⟩
                     subtables := ← StateT.lift (LookupFamily.load type subtables) } :
          Decoder m (Lookup S))
        (do return { flag := ⟨flag⟩
                     subtables := ← StateT.lift (LookupFamily.load type subtables) }) :=
    fun type subtables hsubtables =>
      same_bind (same_lift (UniformFamily.same_load c type hsubtables)) fun _ => same_pure _
  dsimp only
  split
  -- the wrapped subtables do so as well
  case isTrue =>
    refine (c.withState Cursor).alike_bind (P := fun answer => ∀ v ∈ answer.2, v.IsSuffix whole)
      (alike_ofRead fun cursor answer hanswer => ?_) fun answer => hrest answer.1 answer.2
    cases hunwrap : Extension.unwrap type (offsets.map fun n => w.offset n.toNat) with
    | error e =>
      rw [hunwrap] at hanswer
      cases hanswer
    | ok unwrapped =>
      rw [hunwrap] at hanswer
      cases hanswer
      exact Extension.ensures_unwrap htargets unwrapped hunwrap
  case isFalse =>
    exact (c.withState Cursor).alike_bind (P := fun answer => ∀ v ∈ answer.2, v.IsSuffix whole)
      ((c.withState Cursor).alike_pure htargets) fun answer => hrest answer.1 answer.2

theorem same_loadLookups (c : SharedComparison whole m n) (hw : w.IsSuffix whole) :
    c.Same (loadLookups w : m (Array (Lookup S))) (loadLookups w) := by
  apply same_decode
  refine same_bind same_count fun count => same_bind (same_u16s count) fun offsets => ?_
  exact same_decodeEach hw offsets fun _ htarget => c.same_lookup htarget

/-- Monads that answer the same for shared tables lead to the same layout table. -/
theorem same_layoutTable (c : SharedComparison whole m n) (hw : w.IsSuffix whole) :
    c.Same (LayoutTable.load w : m (LayoutTable S)) (LayoutTable.load w) := by
  apply same_decode
  refine same_bind same_u16 fun major => same_bind same_u16 fun minor =>
    same_bind same_u16 fun scriptsOffset => same_bind same_u16 fun featuresOffset =>
    same_bind same_u16 fun lookupsOffset => same_bind (same_demand _ _) fun _ => ?_
  -- scripts and features have no part in shared tables
  refine same_bind (same_decodeNullable hw scriptsOffset fun _ _ => same_ofExcept _)
    fun scripts => ?_
  refine same_bind (same_decodeNullable hw featuresOffset fun _ _ => same_ofExcept _)
    fun features => ?_
  refine same_bind (same_decodeNullable hw lookupsOffset fun _ htarget =>
    c.same_loadLookups htarget) fun lookups => ?_
  exact same_pure _

end

end SharedComparison

end OpenTypeLayout
