import Mathlib.Data.List.Forall2
import OpenTypeLayout.Proofs.SharedLoading
import OpenTypeLayout.Proofs.StoredRecords

/-!
# Lookups of extension subtables

The subtables of a lookup may be wrapped in extension records, which point at them with larger
offsets. The records are unwrapped while the lookup is read, and nothing is left of them then: the
lookup is the one that would have been read if its header had named the wrapped type and pointed at
the wrapped subtables.

- `Extension.Wraps` and `Lookup.StoredAt` say what the bytes of a record and of a lookup are.
- `Extension.unwrap_eq_ok` says when records are unwrapped: if there is one, and all of them wrap
  subtables of one type that is not the extension type again.
- `Lookup.run_load` splits the reading of a lookup into its header and its subtables, with a cache
  for shared tables as well as without one.
- `Extension.transparent` puts this together.
-/

namespace OpenTypeLayout

/-! ## §1 Extension records -/

namespace Extension

/-- The record at the beginning of a window wraps a subtable: behind its format and the type of
    the subtable it has an offset of four bytes, which leads to the subtable and not to the end
    or past it. -/
def Wraps (w : Window) (type : UInt16) (target : Window) : Prop :=
  ∃ n : UInt32, wordsBytes (1 :: type :: FixedRecord.halves n) <+: w.toList ∧ n.toNat < w.size ∧
    target = w.offset n.toNat

theorem ofWindow_eq_ok {w target : Window} {type : UInt16} :
    ofWindow w = .ok (type, target) ↔ Wraps w type target := by
  rw [ofWindow, Window.decode_eq_ok]
  simp only [Decoder.reads_u16_bind, Cursor.remaining_ofWindow]
  -- from left to right the bytes are those that have been read, and from right to left they are
  -- read
  constructor
  · rintro ⟨next, format, hformat, hrest⟩
    split at hrest
    case h_1 =>
      simp only [Decoder.reads_u16_bind, Decoder.reads_u32_bind, Decoder.reads_demand_bind,
        Decoder.reads_pure, Cursor.remaining_skip, decide_eq_true_iff, Prod.mk.injEq] at hrest
      obtain ⟨_, hwrapped, n, hn, hinside, ⟨rfl, rfl⟩, -⟩ := hrest
      exact ⟨n, prefix_append_iff.mpr ⟨hformat, prefix_append_iff.mpr ⟨hwrapped, hn⟩⟩, hinside, rfl⟩
    case h_2 => exact absurd hrest Decoder.not_reads_throw
  · rintro ⟨n, hbytes, hinside, rfl⟩
    obtain ⟨hformat, hbytes⟩ := prefix_append_iff.mp hbytes
    obtain ⟨hwrapped, hn⟩ := prefix_append_iff.mp hbytes
    refine ⟨_, 1, hformat, Decoder.reads_u16_bind.mpr ⟨type, hwrapped, Decoder.reads_u32_bind.mpr
      ⟨n, ?_, Decoder.reads_demand_bind.mpr
        ⟨decide_eq_true hinside, Decoder.reads_pure.mpr ⟨rfl, rfl⟩⟩⟩⟩⟩
    rwa [Cursor.remaining_skip]

variable {extensionType : UInt16}

/-- Where a type is known that is not the extension type, records are unwrapped if all of them wrap
    subtables of that type. -/
theorem unwrapEach_known {type : UInt16} (htype : type ≠ extensionType) {records : List Window}
    {answer : Option UInt16 × List Window} :
    unwrapEach extensionType (some type) records = .ok answer ↔
      answer.1 = some type ∧
      List.Forall₂ (fun w target => Wraps w type target) records answer.2 := by
  -- once the type is known, all records that follow must wrap subtables of that type
  induction records generalizing answer with
  | nil =>
    obtain ⟨found, targets⟩ := answer
    simp [unwrapEach, eq_comm]
  | cons w rest ih =>
    simp only [unwrapEach, except_bind_eq_ok, Prod.exists, demand_eq_ok, ofWindow_eq_ok, bne_iff_ne,
      Option.all_some, beq_iff_eq, exists_const]
    constructor
    · rintro ⟨_, target, hwraps, -, rfl, found, targets, hrest, ⟨⟩⟩
      obtain ⟨hfound, hall⟩ := ih.mp hrest
      exact ⟨hfound, .cons hwraps hall⟩
    · obtain ⟨found, targets⟩ := answer
      rintro ⟨rfl, hall⟩
      cases hall with
      | cons hwraps hall =>
        exact ⟨type, _, hwraps, htype, rfl, some type, _, ih.mpr ⟨rfl, hall⟩, rfl⟩

/-- Records are unwrapped if there is one, and all of them wrap subtables of one type. -/
theorem unwrap_eq_ok {records targets : Array Window} {type : UInt16} :
    unwrap extensionType records = .ok (type, targets) ↔
      0 < records.size ∧ type ≠ extensionType ∧
        List.Forall₂ (fun w target => Wraps w type target) records.toList targets.toList := by
  obtain ⟨records⟩ := records
  -- there is nothing to unwrap without a record
  cases records with
  | nil => exact iff_of_false (fun h => nomatch h) fun h => Nat.lt_irrefl 0 h.1
  | cons w rest =>
    simp only [unwrap, unwrapEach, except_bind_eq_ok, Prod.exists, demand_eq_ok, ofWindow_eq_ok,
      bne_iff_ne, Option.all_none, exists_const]
    constructor
    -- the first record says which type it is
    · rintro ⟨found, answers,
        ⟨wrapped, target, hwraps, htype, -, found', targets', hrest, ⟨⟩⟩, hanswer⟩
      obtain ⟨rfl, hall⟩ := (unwrapEach_known htype).mp hrest
      cases hanswer
      exact ⟨Nat.succ_pos _, htype, .cons hwraps hall⟩
    · rintro ⟨-, htype, hall⟩
      obtain ⟨targets⟩ := targets
      cases hall with
      | cons hwraps hall =>
        exact ⟨some type, _, ⟨type, _, hwraps, htype, trivial, some type, _,
          (unwrapEach_known htype).mpr ⟨rfl, hall⟩, rfl⟩, rfl⟩

end Extension

/-! ## §2 Headers of lookups -/

namespace Lookup

variable {S : Type} [LookupFamily S]

/-- What a lookup says about its subtables: their type and flag, and where they are. -/
def header (S : Type) [LookupFamily S] {m : Type → Type} [Monad m] [MonadExceptOf ParseError m]
    (w : Window) : Decoder m (UInt16 × LookupFlag × Array Window) := do
  let type ← Decoder.u16
  let flag ← Decoder.u16
  let offsets ← Decoder.u16s (← Decoder.count)
  let wrapped := offsets.map fun n => w.offset n.toNat
  let (type, subtables) ←
    if type = LookupFamily.extensionType S then
      Decoder.ofRead fun c => (Extension.unwrap type wrapped).map fun result => (result, c)
    else pure (type, wrapped)
  return (type, ⟨flag⟩, subtables)

/-- The words of a lookup come first in a window. -/
def StoredAt (w : Window) (type flag : UInt16) (offsets : Array UInt16) : Prop :=
  offsets.size ≤ 0xFFFF ∧
    wordsBytes (type :: flag :: countedWords (fun n => [n]) offsets) <+: w.toList

/-- Where the subtables of a lookup are. -/
def targets (w : Window) (offsets : Array UInt16) : Array Window :=
  offsets.map fun n => w.offset n.toNat

theorem header_eq_ok {w : Window} {type : UInt16} {flag : LookupFlag} {subtables : Array Window} :
    w.decode (header S w : Decoder (Except ParseError) _) = .ok (type, flag, subtables) ↔
      ∃ first bits offsets, StoredAt w first bits offsets ∧ flag = ⟨bits⟩ ∧
        if first = LookupFamily.extensionType S then
          Extension.unwrap first (targets w offsets) = .ok (type, subtables)
        else type = first ∧ subtables = targets w offsets := by
  rw [Window.decode_eq_ok, header]
  simp only [Decoder.reads_u16_bind, Decoder.u16s,
    Decoder.reads_counted_bind FixedRecord.storedAs_u16, Cursor.remaining_skip,
    Cursor.remaining_ofWindow]
  -- the three words of the header come first, and only then its type is looked at
  constructor
  · rintro ⟨next, first, hfirst, bits, hbits, offsets, hsize, hbytes, hrest⟩
    have hstored : StoredAt w first bits offsets :=
      ⟨hsize, prefix_append_iff.mpr ⟨hfirst, prefix_append_iff.mpr ⟨hbits, hbytes⟩⟩⟩
    split at hrest
    -- an extension lookup has its records unwrapped at once
    case isTrue hextension =>
      simp only [Decoder.reads_bind, Decoder.reads_ofRead, Decoder.reads_pure, Prod.mk.injEq,
        except_map_eq_ok] at hrest
      obtain ⟨⟨found, places⟩, _, ⟨_, hunwrap, rfl, -⟩, ⟨rfl, rfl, rfl⟩, -⟩ := hrest
      exact ⟨first, bits, offsets, hstored, rfl, by rwa [if_pos hextension]⟩
    -- any other lookup keeps the windows that its offsets lead to
    case isFalse hextension =>
      simp only [pure_bind, Decoder.reads_pure, Prod.mk.injEq] at hrest
      obtain ⟨⟨rfl, rfl, rfl⟩, -⟩ := hrest
      exact ⟨type, bits, offsets, hstored, rfl, by rw [if_neg hextension]; exact ⟨rfl, rfl⟩⟩
  · rintro ⟨first, bits, offsets, ⟨hsize, hbytes⟩, rfl, hsubtables⟩
    obtain ⟨hfirst, hbytes⟩ := prefix_append_iff.mp hbytes
    obtain ⟨hbits, hbytes⟩ := prefix_append_iff.mp hbytes
    split at hsubtables
    case isTrue hextension =>
      exact ⟨_, first, hfirst, bits, hbits, offsets, hsize, hbytes, by
        rw [if_pos hextension]
        exact Decoder.reads_bind.mpr ⟨(type, subtables), _,
          Decoder.reads_ofRead.mpr (except_map_eq_ok.mpr ⟨_, hsubtables, rfl⟩),
          Decoder.reads_pure.mpr ⟨rfl, rfl⟩⟩⟩
    case isFalse hextension =>
      obtain ⟨rfl, rfl⟩ := hsubtables
      exact ⟨_, type, hfirst, bits, hbits, offsets, hsize, hbytes, by
        rw [if_neg hextension]
        exact Decoder.reads_pure.mpr ⟨rfl, rfl⟩⟩

/-! ## §3 Reading in two steps -/

theorem lawful_cachedLoad : LawfulMonad CachedLoad := inferInstance

/-- Reading without a cache, and reading that leaves the cache alone. -/
def readsAlone : Comparison (Except ParseError) CachedLoad where
  lawful_left := instLawfulMonadExcept
  lawful_right := lawful_cachedLoad
  Alike x y P := (∀ cache, y.run cache = x.map fun a => (a, cache)) ∧ ∀ a, x = .ok a → P a
  alike_pure ha := by
    refine ⟨fun cache => rfl, fun a h => ?_⟩
    cases h
    exact ha
  alike_bind {_ _ x _ _ _ _ _} hx hf := by
    refine ⟨fun cache => ?_, fun b hb => ?_⟩
    · rw [StateT.run_bind, hx.1 cache]
      cases x with
      | error e => rfl
      | ok a => exact (hf a (hx.2 a rfl)).1 cache
    · cases x with
      | error e => cases hb
      | ok a => exact (hf a (hx.2 a rfl)).2 b hb
  alike_throw e := ⟨fun cache => rfl, fun a h => by cases h⟩

open Comparison in
theorem same_header {m n : Type → Type} [Monad m] [Monad n] [MonadExceptOf ParseError m]
    [MonadExceptOf ParseError n] (c : Comparison m n) (w : Window) :
    (c.withState Cursor).Same (header S w) (header S w) := by
  refine same_bind same_u16 fun type => same_bind same_u16 fun flag =>
    same_bind same_count fun count =>
    same_bind (same_u16s count) fun offsets => ?_
  dsimp only
  split
  · exact same_bind (same_ofRead _) fun _ => same_pure _
  · exact same_bind (same_pure _) fun _ => same_pure _

/-- A lookup is read by reading its header, and then its subtables where the header leads. -/
theorem load_eq_header {m : Type → Type} [Monad m] [MonadExceptOf ParseError m] [SharedTables m]
    [LawfulMonad m] (w : Window) :
    (Lookup.load w : m (Lookup S)) = w.decode (do
      let (type, flag, subtables) ← header S w
      return { flag, subtables := ← StateT.lift (LookupFamily.load type subtables) }) := by
  rw [Lookup.load, header]
  simp only [bind_assoc]
  refine congrArg w.decode (bind_congr fun type => bind_congr fun flag => bind_congr fun count =>
    bind_congr fun offsets => ?_)
  split
  · simp only [bind_assoc, pure_bind]
  · simp only [pure_bind]

theorem run_load (w : Window) (cache : LoadCache) :
    (Lookup.load w : CachedLoad (Lookup S)).run cache =
      w.decode (header S w : Decoder (Except ParseError) _) >>= fun (type, flag, subtables) =>
        ((LookupFamily.load type subtables : CachedLoad S).run cache).map fun (s, cache') =>
          ({ flag, subtables := s }, cache') := by
  have hheader : ((header S w : Decoder CachedLoad _).run (.ofWindow w)).run cache = _ :=
    (same_header (S := S) readsAlone w (.ofWindow w)).1 cache
  rw [load_eq_header, Window.decode, StateT.run_bind, StateT.run_bind, StateT.run_bind, hheader,
    Window.decode]
  rcases (header S w : Decoder (Except ParseError) _).run (.ofWindow w) with
    e | ⟨⟨type, flag, subtables⟩, c⟩
  · rfl
  · show ((StateT.lift (LookupFamily.load type subtables : CachedLoad S) >>= fun s =>
      (pure { flag, subtables := s } : Decoder CachedLoad (Lookup S))).run c >>= fun answer =>
        (pure answer.1 : CachedLoad (Lookup S))).run cache = _
    simp only [StateT.run_bind, StateT.run_lift, StateT.run_pure, bind_assoc, pure_bind]
    show _ = ((LookupFamily.load type subtables : CachedLoad S).run cache).map _
    cases (LookupFamily.load type subtables : CachedLoad S).run cache <;> rfl

/-- A lookup is read if its header is, and then its subtables where the header leads. -/
theorem run_load_eq_ok {w : Window} {cache cache' : LoadCache} {l : Lookup S} :
    (Lookup.load w : CachedLoad (Lookup S)).run cache = .ok (l, cache') ↔
      ∃ type subtables,
        w.decode (header S w : Decoder (Except ParseError) _) = .ok (type, l.flag, subtables) ∧
        (LookupFamily.load type subtables : CachedLoad S).run cache =
          .ok (l.subtables, cache') := by
  rw [run_load, except_bind_eq_ok]
  simp only [except_map_eq_ok, Prod.exists, Prod.mk.injEq]
  constructor
  · rintro ⟨type, flag, subtables, hheader, s, c, hload, rfl, rfl⟩
    exact ⟨type, subtables, hheader, hload⟩
  · rintro ⟨type, subtables, hheader, hload⟩
    exact ⟨type, l.flag, subtables, hheader, l.subtables, cache', hload, rfl, rfl⟩

end Lookup

/-! ## §4 Transparency -/

/-- Subtables are read as subtables of the type that they are asked for, and there are no subtables
    of the extension type. -/
class TypedFamily (S : Type) [LookupFamily S] : Prop where
  ensures_typeOf (type : UInt16) (subtables : Array Window) :
    Ensures (LookupFamily.load type subtables : CachedLoad S) fun s => LookupFamily.typeOf s = type
  typeOf_ne (s : S) : LookupFamily.typeOf s ≠ LookupFamily.extensionType S

instance : TypedFamily Substitution where
  ensures_typeOf type subtables := by
    show Ensures (Substitution.load type subtables) _
    unfold Substitution.load
    split
    case h_8 => exact ensures_throw _
    all_goals exact ensures_map (ensures_true _) fun _ _ => rfl
  typeOf_ne s := by cases s <;> simp [LookupFamily.typeOf, LookupFamily.extensionType]

instance : TypedFamily Positioning where
  ensures_typeOf type subtables := by
    show Ensures (Positioning.load type subtables) _
    unfold Positioning.load
    split
    case h_9 => exact ensures_throw _
    all_goals exact ensures_map (ensures_true _) fun _ _ => rfl
  typeOf_ne s := by cases s <;> simp [LookupFamily.typeOf, LookupFamily.extensionType]

namespace Extension

variable {S : Type} [LookupFamily S]

/-- The lookup at the beginning of a window has extension records, at least one. All of them wrap
    subtables of one type that is not the extension type, and these are the subtables in order. -/
def Wrapped (S : Type) [LookupFamily S] (w : Window) (type flag : UInt16)
    (subtables : Array Window) : Prop :=
  ∃ offsets, Lookup.StoredAt w (LookupFamily.extensionType S) flag offsets ∧ 0 < offsets.size ∧
    type ≠ LookupFamily.extensionType S ∧
    List.Forall₂ (fun (n : UInt16) target => Wraps (w.offset n.toNat) type target) offsets.toList
      subtables.toList

/-- The lookup at the beginning of a window points at subtables of its own type, and these are the
    subtables in order. -/
def Direct (S : Type) [LookupFamily S] (w : Window) (type flag : UInt16)
    (subtables : Array Window) : Prop :=
  ∃ offsets, Lookup.StoredAt w type flag offsets ∧ type ≠ LookupFamily.extensionType S ∧
    subtables = Lookup.targets w offsets

theorem header_eq_ok_iff {w : Window} {type : UInt16} {flag : LookupFlag}
    {subtables : Array Window} :
    w.decode (Lookup.header S w : Decoder (Except ParseError) _) = .ok (type, flag, subtables) ↔
      Wrapped S w type flag.bits subtables ∨ Direct S w type flag.bits subtables := by
  rw [Lookup.header_eq_ok]
  -- the type of the lookup decides whether its records are unwrapped
  constructor
  · rintro ⟨first, bits, offsets, hstored, rfl, hsubtables⟩
    split at hsubtables
    case isTrue hextension =>
      obtain ⟨hpos, htype, hall⟩ := unwrap_eq_ok.mp hsubtables
      rw [Lookup.targets, Array.toList_map, List.forall₂_map_left_iff] at hall
      rw [hextension] at hstored htype
      rw [Lookup.targets, Array.size_map] at hpos
      exact .inl ⟨offsets, hstored, hpos, htype, hall⟩
    case isFalse hextension =>
      obtain ⟨rfl, rfl⟩ := hsubtables
      exact .inr ⟨offsets, hstored, hextension, rfl⟩
  · rintro (⟨offsets, hstored, hpos, htype, hall⟩ | ⟨offsets, hstored, htype, rfl⟩)
    · refine ⟨_, flag.bits, offsets, hstored, rfl, ?_⟩
      rw [if_pos rfl, unwrap_eq_ok, Lookup.targets, Array.toList_map, List.forall₂_map_left_iff,
        Array.size_map]
      exact ⟨hpos, htype, hall⟩
    · refine ⟨type, flag.bits, offsets, hstored, rfl, ?_⟩
      rw [if_neg htype]
      exact ⟨rfl, rfl⟩

theorem Wrapped.first {w : Window} {type flag : UInt16} {subtables : Array Window}
    (h : Wrapped S w type flag subtables) :
    wordBytes (LookupFamily.extensionType S) <+: w.toList := by
  obtain ⟨offsets, ⟨-, hbytes⟩, -⟩ := h
  exact (prefix_append_iff.mp hbytes).1

theorem Direct.not_first {w : Window} {type flag : UInt16} {subtables : Array Window}
    (h : Direct S w type flag subtables) :
    ¬ wordBytes (LookupFamily.extensionType S) <+: w.toList := by
  obtain ⟨offsets, ⟨-, hbytes⟩, htype, -⟩ := h
  intro hfirst
  have hsame :=
    List.prefix_of_prefix_length_le (prefix_append_iff.mp hbytes).1 hfirst (Nat.le_refl 2)
  exact htype (wordBytes_injective (hsame.eq_of_length rfl))

/-- Extension records make no difference to a lookup, and none is left in a table that has
    been read. -/
structure Transparent (S : Type) [LookupFamily S] : Prop where
  /-- A lookup that begins with the extension type is read if and only if its records wrap subtables
      of one type, and the subtables are read as such. It has that type then, and its own flag. -/
  wrapped_iff : ∀ w : Window, wordBytes (LookupFamily.extensionType S) <+: w.toList →
    ∀ (cache cache' : LoadCache) (l : Lookup S),
      (Lookup.load w : CachedLoad (Lookup S)).run cache = .ok (l, cache') ↔
        ∃ type subtables, Wrapped S w type l.flag.bits subtables ∧ l.type = type ∧
          (LookupFamily.load type subtables : CachedLoad S).run cache = .ok (l.subtables, cache')
  /-- Any other lookup is read if and only if the subtables that it points at are read as such of
      its own type. -/
  direct_iff : ∀ w : Window, ¬ wordBytes (LookupFamily.extensionType S) <+: w.toList →
    ∀ (cache cache' : LoadCache) (l : Lookup S),
      (Lookup.load w : CachedLoad (Lookup S)).run cache = .ok (l, cache') ↔
        ∃ type subtables, Direct S w type l.flag.bits subtables ∧ l.type = type ∧
          (LookupFamily.load type subtables : CachedLoad S).run cache = .ok (l.subtables, cache')
  /-- Wrapped or not, the same subtables lead to the same lookup, or to the same failure. -/
  same : ∀ (w v : Window) (type flag : UInt16) (subtables : Array Window),
    Wrapped S w type flag subtables → Direct S v type flag subtables →
      (Lookup.load w : CachedLoad (Lookup S)) = Lookup.load v
  /-- In a table that has been read, no lookup has the extension type. The subtables of each have
      been read as subtables of its own type. -/
  absent : ∀ (w : Window) (t : LayoutTable S), LayoutTable.ofWindow w = .ok t → ∀ l ∈ t.lookups,
    l.type ≠ LookupFamily.extensionType S ∧
      ∃ (subtables : Array Window) (cache cache' : LoadCache),
        (LookupFamily.load l.type subtables : CachedLoad S).run cache = .ok (l.subtables, cache')

theorem transparent_of_typed [TypedFamily S] : Transparent S := by
  -- what is read as subtables of a type is of that type
  have htyped : ∀ {type subtables} {s : S} {cache cache'},
      (LookupFamily.load type subtables : CachedLoad S).run cache = .ok (s, cache') →
        LookupFamily.typeOf s = type :=
    fun h => ensures_run_iff.mp (TypedFamily.ensures_typeOf _ _) _ _ h
  -- both kinds of lookups are read by way of their headers
  have hload : ∀ (w : Window) (cache cache' : LoadCache) (l : Lookup S),
      (Lookup.load w : CachedLoad (Lookup S)).run cache = .ok (l, cache') ↔
        ∃ type subtables,
          (Wrapped S w type l.flag.bits subtables ∨ Direct S w type l.flag.bits subtables) ∧
          l.type = type ∧ (LookupFamily.load type subtables : CachedLoad S).run cache =
            .ok (l.subtables, cache') := by
    intro w cache cache' l
    simp only [Lookup.run_load_eq_ok, header_eq_ok_iff]
    exact exists_congr fun type => exists_congr fun subtables => and_congr_right fun _ =>
      ⟨fun h => ⟨htyped h, h⟩, And.right⟩
  -- the first word tells the two kinds apart, and the rest follows from the headers
  refine ⟨fun w hfirst cache cache' l => ?_, fun w hfirst cache cache' l => ?_,
    fun w v type flag subtables hwrapped hdirect => ?_, fun w t hread l hl => ⟨?_, ?_⟩⟩
  · rw [hload]
    refine exists_congr fun type => exists_congr fun subtables => and_congr_left fun _ => ?_
    exact or_iff_left fun hdirect => hdirect.not_first hfirst
  · rw [hload]
    refine exists_congr fun type => exists_congr fun subtables => and_congr_left fun _ => ?_
    exact or_iff_right fun hwrapped => hfirst hwrapped.first
  · have hw : w.decode (Lookup.header S w : Decoder (Except ParseError) _) =
        .ok (type, ⟨flag⟩, subtables) :=
      header_eq_ok_iff.mpr (.inl hwrapped)
    have hv : v.decode (Lookup.header S v : Decoder (Except ParseError) _) =
        .ok (type, ⟨flag⟩, subtables) :=
      header_eq_ok_iff.mpr (.inr hdirect)
    refine StateT.ext fun cache => ?_
    rw [Lookup.run_load, Lookup.run_load, hw, hv]
  · exact TypedFamily.typeOf_ne l.subtables
  -- the type of what has been read is the type that it has been read with
  · have hall : ∀ type subtables, Ensures (LookupFamily.load type subtables : CachedLoad S) fun s =>
        ∃ (subtables : Array Window) (cache cache' : LoadCache),
          (LookupFamily.load (LookupFamily.typeOf s) subtables : CachedLoad S).run cache =
            .ok (s, cache') := by
      intro type subtables
      refine ensures_run_iff.mpr fun cache answer hanswer => ⟨subtables, cache, answer.2, ?_⟩
      rw [htyped hanswer]
      exact hanswer
    exact CachedLoad.of_result (ensures_layoutTable_load hall w) hread l hl

/-- **Extensions are transparent.** A lookup of extension records is read as the lookup of the type
    that they wrap, with the same flag and with the wrapped subtables in order, as if it had pointed
    at them itself. It is not read if there are no records, if one of them has another format or an
    offset that leads to the end of the data or past it, or if they do not agree on a type other
    than the extension type. No table that has been read has a lookup of the extension type. -/
theorem transparent : Transparent Substitution ∧ Transparent Positioning :=
  ⟨transparent_of_typed, transparent_of_typed⟩

namespace BothWays

/-- A layout table of a family with an extension type. One lookup points at a subtable, and another
    one has a record that wraps the same subtable, which is for the glyph 5. -/
def data (extensionType : UInt8) : ByteArray := ⟨#[
  0x00, 0x01, 0x00, 0x00, 0x00, 0x00, 0x00, 0x00, 0x00, 0x0A,
  -- two lookups
  0x00, 0x02, 0x00, 0x06, 0x00, 0x0E,
  0x00, 0x01, 0x00, 0x00, 0x00, 0x01, 0x00, 0x18,
  0x00, extensionType, 0x00, 0x00, 0x00, 0x01, 0x00, 0x08,
  -- the record, and behind it the subtable
  0x00, 0x01, 0x00, 0x01, 0x00, 0x00, 0x00, 0x08,
  0x00, 0x01, 0x00, 0x08, 0x00, 0x04, 0x00, 0x32, 0x00, 0x01, 0x00, 0x01, 0x00, 0x05]⟩

/-- The data from an index on. -/
def part (extensionType : UInt8) (index : Nat) : Window :=
  (Window.ofBytes (data extensionType)).offset index

/-- As a substitution the subtable has 9 for the glyph 5. -/
def substitution : Lookup Substitution := ⟨⟨0⟩, .single #[.delta (.glyphs #[5]) 4]⟩

def layout : LayoutTable Substitution where
  scripts := #[]
  features := #[]
  lookups := #[substitution, substitution]

theorem targets_first (extensionType : UInt8) :
    #[part extensionType 0x28] = Lookup.targets (part extensionType 0x10) #[0x18] := by
  simp [Lookup.targets, part, Window.offset]

theorem ofWindow_data : LayoutTable.ofWindow (Window.ofBytes (data 7)) = .ok layout := by
  rw [LayoutTable.ofWindow_eq_afresh]
  decide +kernel

end BothWays

open BothWays in
/-- The substitution that is wrapped is read as the one that is not, and the two positionings are
    read alike. -/
theorem transparent_bothWays :
    (Wrapped Substitution (part 7 0x18) 1 0 #[part 7 0x28] ∧
      Direct Substitution (part 7 0x10) 1 0 #[part 7 0x28] ∧
      ∃ cache : LoadCache,
        (Lookup.load (part 7 0x18) : CachedLoad (Lookup Substitution)).run {} =
          .ok (substitution, cache) ∧
        (Lookup.load (part 7 0x10) : CachedLoad (Lookup Substitution)).run {} =
          .ok (substitution, cache)) ∧
    (LayoutTable.ofWindow (Window.ofBytes (data 7)) = .ok layout ∧
      ∀ l ∈ layout.lookups, l.type ≠ 7) ∧
    Wrapped Positioning (part 9 0x18) 1 0 #[part 9 0x28] ∧
      Direct Positioning (part 9 0x10) 1 0 #[part 9 0x28] ∧
      (Lookup.load (part 9 0x18) : CachedLoad (Lookup Positioning)) =
        Lookup.load (part 9 0x10) := by
  obtain ⟨hsubst, hpos⟩ := transparent
  -- the lookups lead to the same bytes, one of them by way of the record
  have hwrapped : Wrapped Substitution (part 7 0x18) 1 0 #[part 7 0x28] :=
    ⟨#[8], ⟨by decide, by decide⟩, by decide, by decide, .cons ⟨8, by decide, by decide, rfl⟩ .nil⟩
  have hdirect : Direct Substitution (part 7 0x10) 1 0 #[part 7 0x28] :=
    ⟨#[0x18], ⟨by decide, by decide⟩, by decide, targets_first _⟩
  have hwrapped' : Wrapped Positioning (part 9 0x18) 1 0 #[part 9 0x28] :=
    ⟨#[8], ⟨by decide, by decide⟩, by decide, by decide, .cons ⟨8, by decide, by decide, rfl⟩ .nil⟩
  have hdirect' : Direct Positioning (part 9 0x10) 1 0 #[part 9 0x28] :=
    ⟨#[0x18], ⟨by decide, by decide⟩, by decide, targets_first _⟩
  refine ⟨⟨hwrapped, hdirect, ?_⟩, ⟨ofWindow_data, fun l hl => ?_⟩, hwrapped', hdirect', ?_⟩
  · have hsuffix : ∀ w ∈ #[part 7 0x28], w.IsSuffix (Window.ofBytes (data 7)) := by
      simpa using (show (part 7 0x28).IsSuffix _ from (Window.IsSuffix.refl _).offset 0x28)
    have hresult : (LookupFamily.load 1 #[part 7 0x28] : CachedLoad Substitution).result =
        .ok substitution.subtables := by
      rw [LookupFamily.result_load 1 hsuffix]
      decide +kernel
    obtain ⟨cache, hload⟩ := CachedLoad.exists_run hresult
    refine ⟨cache, ?_, ?_⟩
    · exact (hsubst.wrapped_iff _ hwrapped.first _ _ _).mpr ⟨1, _, hwrapped, rfl, hload⟩
    · exact (hsubst.direct_iff _ hdirect.not_first _ _ _).mpr ⟨1, _, hdirect, rfl, hload⟩
  · exact (hsubst.absent _ _ ofWindow_data l hl).1
  · exact hpos.same _ _ 1 0 _ hwrapped' hdirect'

end Extension

end OpenTypeLayout
