import Mathlib.Data.List.Flatten
import OpenTypeLayout.Proofs.Locate
import OpenTypeLayout.Proofs.StoredRecords

/-!
# Class definitions from bytes

A class definition is read from bytes and then asked for the class of one glyph after the other, for
the classes that some glyph is in, and for whether all classes are below a limit. The glyphs are
looked up in a block or by a search among ranges. What the classes are is known from the entries
alone. This module shows that both speak of the same glyphs and classes.

- `ClassDef.WellFormed` holds of blocks that end with the last glyph number or before, and of ranges
  in order.
- `ClassDef.ofWindow_eq_ok` says which definition is read: the one whose bytes come first, if it is
  well-formed.
- `ClassDef.Mentions` says which glyphs an entry puts into which class, and `WellFormed.classOf_iff`
  that these are the classes that are found.
- `ClassDef.flags` has a flag for each class, in a table that grows with the classes that come up.
- `ClassDef.classes_consistent` puts this together.
-/

namespace OpenTypeLayout

/-! ## §1 Definitions and their bytes -/

namespace ClassRange

/-- The words of a range in the order in which they are stored. -/
def words (r : ClassRange) : List UInt16 := [r.first, r.last, r.value]

theorem storedAs_record : record.StoredAs words :=
  (FixedRecord.storedAs_u16.pair (FixedRecord.storedAs_u16.pair FixedRecord.storedAs_u16)).map
    (fun r : ClassRange => (r.first, r.last, r.value)) (fun _ => rfl) fun _ => rfl

end ClassRange

namespace ClassDef

/-- A definition is in order, and its length has sixteen bits. A block ends with the last glyph
    number or before. Ranges are not empty, and each ends before the next one begins. -/
def WellFormed : ClassDef → Prop
  | .block first values => values.size ≤ 0xFFFF ∧ first.toNat + values.size ≤ 0x10000
  | .ranges list =>
    list.size ≤ 0xFFFF ∧ (∀ r ∈ list, r.first ≤ r.last) ∧
    list.toList.Pairwise fun a b => a.last < b.first

/-- The words of a definition in the order in which they are stored. -/
def storedWords : ClassDef → List UInt16
  | .block first values => 1 :: first :: countedWords (fun c => [c]) values
  | .ranges list => 2 :: countedWords ClassRange.words list

/-- The bytes of a definition as they are stored. -/
def storedBytes (d : ClassDef) : List UInt8 := wordsBytes d.storedWords

theorem all_ordered {list : Array ClassRange} :
    (list.all fun r => r.first ≤ r.last) = true ↔ ∀ r ∈ list, r.first ≤ r.last := by
  simp only [Array.all_eq_true_iff_forall_mem, decide_eq_true_iff]

/-- Neighbours are apart if and only if all ranges are, since no range between them is
    turned around. -/
theorem adjacentAll_ranges {list : Array ClassRange} (hordered : ∀ r ∈ list, r.first ≤ r.last) :
    adjacentAll (fun a b => a.last < b.first) list.toList = true ↔
      list.toList.Pairwise fun a b => a.last < b.first := by
  rw [adjacentAll_iff_pairwise]
  · simp
  · intro a b hb c hab hbc
    exact decide_eq_true (UInt16.lt_trans (of_decide_eq_true hab)
      (UInt16.lt_of_le_of_lt (hordered b (Array.mem_toList_iff.mp hb)) (of_decide_eq_true hbc)))

/-- A definition is read if it is well-formed, and its bytes come next. -/
theorem reads_decoder {c : Cursor} {d : ClassDef} :
    (∃ next, Decoder.Reads decoder c d next) ↔ d.WellFormed ∧ d.storedBytes <+: c.remaining := by
  simp only [decoder, Decoder.reads_u16_bind, Decoder.u16s]
  constructor
  -- from what has been decoded to the bytes: each step of the decoder takes one part of them off
  · rintro ⟨next, format, hformat, hrest⟩
    split at hrest
    case h_1 =>
      simp only [Decoder.reads_u16_bind, Decoder.reads_counted_demand_bind FixedRecord.storedAs_u16
        (p := fun k => decide (_ + k ≤ 0x10000)), Decoder.reads_pure, Cursor.remaining_skip,
        decide_eq_true_iff] at hrest
      obtain ⟨first, hfirst, values, hsize, hbytes, hend, rfl, -⟩ := hrest
      exact ⟨⟨hsize, hend⟩, prefix_append_iff.mpr ⟨hformat, prefix_append_iff.mpr ⟨hfirst, hbytes⟩⟩⟩
    case h_2 =>
      simp only [Decoder.reads_counted_bind ClassRange.storedAs_record, Decoder.reads_demand_bind,
        Decoder.reads_pure, Cursor.remaining_skip, all_ordered] at hrest
      obtain ⟨ranges, hsize, hbytes, hordered, hapart, rfl, -⟩ := hrest
      exact ⟨⟨hsize, hordered, (adjacentAll_ranges hordered).mp hapart⟩,
        prefix_append_iff.mpr ⟨hformat, hbytes⟩⟩
    case h_3 => exact absurd hrest Decoder.not_reads_throw
  -- back: the parts of the bytes are handed to the steps of the decoder in turn
  · rintro ⟨hformed, hbytes⟩
    cases d with
    | block first values =>
      obtain ⟨hsize, hend⟩ := hformed
      obtain ⟨hformat, hbytes⟩ := prefix_append_iff.mp hbytes
      obtain ⟨hfirst, hbytes⟩ := prefix_append_iff.mp hbytes
      refine ⟨_, 1, hformat, Decoder.reads_u16_bind.mpr ⟨first, by rwa [Cursor.remaining_skip],
        (Decoder.reads_counted_demand_bind FixedRecord.storedAs_u16).mpr ⟨values, hsize, ?_,
          decide_eq_true hend, Decoder.reads_pure.mpr ⟨rfl, rfl⟩⟩⟩⟩
      rwa [Cursor.remaining_skip, Cursor.remaining_skip]
    | ranges list =>
      obtain ⟨hsize, hordered, hapart⟩ := hformed
      obtain ⟨hformat, hbytes⟩ := prefix_append_iff.mp hbytes
      refine ⟨_, 2, hformat, (Decoder.reads_counted_bind ClassRange.storedAs_record).mpr
        ⟨list, hsize, by rwa [Cursor.remaining_skip], Decoder.reads_demand_bind.mpr
          ⟨all_ordered.mpr hordered, Decoder.reads_demand_bind.mpr
            ⟨(adjacentAll_ranges hordered).mpr hapart, Decoder.reads_pure.mpr ⟨rfl, rfl⟩⟩⟩⟩⟩

/-- The definition is read whose bytes come first. -/
theorem ofWindow_eq_ok {w : Window} {d : ClassDef} :
    ofWindow w = .ok d ↔ d.WellFormed ∧ d.storedBytes <+: w.toList := by
  rw [ofWindow, Window.decode_eq_ok, reads_decoder, Cursor.remaining_ofWindow]

/-! ## §2 Glyphs and classes -/

/-- An entry puts a glyph into a class. -/
def Mentions : ClassDef → GlyphId → UInt16 → Prop
  | .block first values, glyph, c =>
    ∃ place, glyph.toNat = first.toNat + place ∧ values[place]? = some c
  | .ranges list, glyph, c => ∃ r ∈ list, r.Has glyph.toNat ∧ r.value = c

variable {d d' : ClassDef}

/-- A glyph of a block has the class at its place. -/
theorem classOf_block_iff {first : GlyphId} {values : Array UInt16} {glyph : GlyphId} {c : UInt16} :
    (ClassDef.block first values).classOf glyph = some c ↔
      ∃ place, glyph.toNat = first.toNat + place ∧ values[place]? = some c := by
  rw [classOf]
  split
  case isTrue hle =>
    rw [UInt16.le_iff_toNat_le] at hle
    constructor
    · exact fun hc => ⟨_, by omega, hc⟩
    · rintro ⟨place, hplace, hc⟩
      rwa [hplace, Nat.add_sub_cancel_left]
  case isFalse hnot =>
    rw [UInt16.le_iff_toNat_le] at hnot
    constructor
    · rintro ⟨⟩
    · rintro ⟨place, hplace, -⟩
      omega

/-- The class that is found is the one that an entry puts the glyph into. -/
theorem WellFormed.classOf_iff (h : d.WellFormed) {glyph : GlyphId} {c : UInt16} :
    d.classOf glyph = some c ↔ d.Mentions glyph c := by
  cases d with
  | block first values => exact classOf_block_iff
  | ranges list => exact classOf_ranges_iff h.2.1 h.2.2

/-- The classes named are those that some glyph is in: no entry is for nothing. -/
theorem WellFormed.mem_named_iff (h : d.WellFormed) {c : UInt16} :
    c ∈ d.named ↔ ∃ glyph, d.classOf glyph = some c := by
  constructor
  · intro hc
    -- an entry puts at least one glyph into its class: a block ends in time, and no range is empty
    simp only [h.classOf_iff]
    cases d with
    | block first values =>
      obtain ⟨-, hend⟩ := h
      obtain ⟨place, hplace⟩ := Array.getElem?_of_mem (Array.mem_toList_iff.mp hc)
      have hlt := (Array.getElem?_eq_some_iff.mp hplace).1
      refine ⟨UInt16.ofNat (first.toNat + place), place, ?_, hplace⟩
      rw [UInt16.toNat_ofNat', Nat.mod_eq_of_lt (by omega)]
    | ranges list =>
      obtain ⟨-, hordered, -⟩ := h
      obtain ⟨r, hr, hvalue⟩ := List.mem_map.mp hc
      have hr : r ∈ list := Array.mem_toList_iff.mp hr
      exact ⟨r.first, r, hr, ⟨Nat.le_refl _, UInt16.le_iff_toNat_le.mp (hordered r hr)⟩, hvalue⟩
  · rintro ⟨glyph, hclass⟩
    exact List.contains_iff_mem.mp (defines_of_classOf hclass)

theorem WellFormed.defines_iff (h : d.WellFormed) {c : UInt16} :
    d.defines c = true ↔ ∃ glyph, d.classOf glyph = some c := by
  rw [defines, List.contains_iff_mem, h.mem_named_iff]

theorem checkLimit_iff_named {limit : UInt16} :
    d.checkLimit limit = .ok () ↔ ∀ c ∈ d.named, c < limit := by
  rw [checkLimit, isBelow]
  split
  case isTrue hall => simpa using hall
  case isFalse hnot => simpa using hnot

theorem WellFormed.checkLimit_iff (h : d.WellFormed) {limit : UInt16} :
    d.checkLimit limit = .ok () ↔ ∀ glyph c, d.classOf glyph = some c → c < limit := by
  rw [checkLimit_iff_named]
  simp only [h.mem_named_iff, forall_exists_index]
  exact forall_comm

/-- Where a check fails, it fails with one error. -/
theorem checkLimit_congr {limit : UInt16}
    (h : d.checkLimit limit = .ok () ↔ d'.checkLimit limit = .ok ()) :
    d.checkLimit limit = d'.checkLimit limit := by
  unfold checkLimit at *
  split at h <;> split at h <;> simp_all

/-! ## §3 Flags -/

/-- Raise the flag of a class in a table that grows up to the class if it is too short. -/
def raiseFlag (flags : Array Bool) (c : UInt16) : Array Bool :=
  (flags ++ Array.replicate (c.toNat + 1 - flags.size) false).setIfInBounds c.toNat true

/-- The flags of the classes that have been named, one after the other. -/
def flags (d : ClassDef) : Array Bool := d.named.foldl raiseFlag #[]

theorem size_raiseFlag (flags : Array Bool) (c : UInt16) :
    (raiseFlag flags c).size = max flags.size (c.toNat + 1) := by
  rw [raiseFlag, Array.size_setIfInBounds, Array.size_append, Array.size_replicate]
  omega

/-- One more flag is raised, and those that the table grows by are not. -/
theorem raiseFlag_getD (flags : Array Bool) (c : UInt16) (i : Nat) :
    (raiseFlag flags c)[i]?.getD false = true ↔ i = c.toNat ∨ flags[i]?.getD false = true := by
  rw [raiseFlag, Array.getElem?_setIfInBounds, Array.size_append, Array.size_replicate]
  split
  case isTrue hsame =>
    -- the table has grown up to the class, so there is a flag to be raised
    rw [if_pos (by omega)]
    simp [hsame]
  case isFalse hother =>
    have hold : (flags ++ Array.replicate (c.toNat + 1 - flags.size) false)[i]?.getD false =
        flags[i]?.getD false := by
      rcases Nat.lt_or_ge i flags.size with hlt | hge
      · rw [Array.getElem?_append_left hlt]
      · rw [Array.getElem?_append_right hge, Array.getElem?_eq_none hge, Array.getElem?_replicate]
        split <;> rfl
    rw [hold]
    exact ⟨.inr, fun h => h.resolve_left (Ne.symm hother)⟩

/-- Raising flags one after the other: the table is long enough for each, and no longer. -/
theorem size_foldl_raiseFlag_le_iff {classes : List UInt16} {flags : Array Bool} {n : Nat} :
    (classes.foldl raiseFlag flags).size ≤ n ↔ flags.size ≤ n ∧ ∀ c ∈ classes, c.toNat < n := by
  induction classes generalizing flags with
  | nil => simp
  | cons c classes ih =>
    rw [List.foldl_cons, ih, size_raiseFlag, List.forall_mem_cons, Nat.max_le, and_assoc]
    rfl

theorem foldl_raiseFlag_getD {classes : List UInt16} {flags : Array Bool} {i : Nat} :
    (classes.foldl raiseFlag flags)[i]?.getD false = true ↔
      (∃ c ∈ classes, i = c.toNat) ∨ flags[i]?.getD false = true := by
  induction classes generalizing flags with
  | nil => simp
  | cons c classes ih =>
    rw [List.foldl_cons, ih, raiseFlag_getD]
    simp only [List.mem_cons, exists_eq_or_imp]
    exact or_left_comm.trans or_assoc.symm

/-- A class is defined if its flag is raised. -/
theorem flags_getD (d : ClassDef) (c : UInt16) : d.flags[c.toNat]?.getD false = d.defines c := by
  rw [Bool.eq_iff_iff, flags, foldl_raiseFlag_getD, defines, List.contains_iff_mem]
  simp [UInt16.toNat_inj]

/-- The classes are below a limit if there is no flag from the limit on. -/
theorem size_flags_le_iff (d : ClassDef) (limit : UInt16) :
    d.flags.size ≤ limit.toNat ↔ d.checkLimit limit = .ok () := by
  rw [flags, size_foldl_raiseFlag_le_iff, checkLimit_iff_named]
  simp [UInt16.lt_iff_toNat_lt]

/-! ## §4 Whatever is read -/

/-- Where the same glyphs are mentioned with the same classes, everything that is asked for is
    the same. -/
structure Agrees (d d' : ClassDef) : Prop where
  classOf_eq : ∀ glyph, d.classOf glyph = d'.classOf glyph
  value_eq : ∀ glyph, d.value glyph = d'.value glyph
  defines_eq : ∀ c, d.defines c = d'.defines c
  checkLimit_eq : ∀ limit, d.checkLimit limit = d'.checkLimit limit

theorem WellFormed.agrees (h : d.WellFormed) (h' : d'.WellFormed)
    (hsame : ∀ glyph c, d.Mentions glyph c ↔ d'.Mentions glyph c) : d.Agrees d' := by
  have hclass : ∀ glyph, d.classOf glyph = d'.classOf glyph := fun glyph =>
    Option.ext fun c => by rw [h.classOf_iff, h'.classOf_iff, hsame]
  refine ⟨hclass, fun glyph => ?_, fun c => ?_, fun limit => checkLimit_congr ?_⟩
  · rw [value, value, hclass]
  · rw [Bool.eq_iff_iff, h.defines_iff, h'.defines_iff]
    simp only [hclass]
  · rw [h.checkLimit_iff, h'.checkLimit_iff]
    simp only [hclass]

/-- **Class definitions from bytes.** A definition is read from a window if and only if its bytes
    come first and it is in order: it has at most 65535 entries, which are the classes of glyphs in
    a row, or ranges that are apart from each other, none of them empty.

    Of a definition that has been read, a glyph has the class that an entry puts it into, and no
    class if there is no such entry. A class is defined if and only if some glyph is in it, and the
    limit is kept if and only if all classes of glyphs are below it. A table of flags that grows
    with the classes, in whatever order they come, and however often, says the same. Two definitions
    that mention the same glyphs with the same classes agree, whether they are stored as blocks or
    as ranges. -/
theorem classes_consistent (w v : Window) :
    (∀ d, ofWindow w = .ok d ↔ d.WellFormed ∧ d.storedBytes <+: w.toList) ∧
    (∀ d, ofWindow w = .ok d →
      (∀ glyph c, d.classOf glyph = some c ↔ d.Mentions glyph c) ∧
      (∀ c, d.defines c = true ↔ ∃ glyph, d.classOf glyph = some c) ∧
      (∀ limit, d.checkLimit limit = .ok () ↔ ∀ glyph c, d.classOf glyph = some c → c < limit) ∧
      (∀ c, d.flags[c.toNat]?.getD false = d.defines c) ∧
      ∀ limit : UInt16, d.flags.size ≤ limit.toNat ↔ d.checkLimit limit = .ok ()) ∧
    ∀ d d', ofWindow w = .ok d → ofWindow v = .ok d' →
      (∀ glyph c, d.Mentions glyph c ↔ d'.Mentions glyph c) → d.Agrees d' := by
  refine ⟨fun d => ofWindow_eq_ok, fun d hread => ?_, fun d d' hread hread' hsame => ?_⟩
  · obtain ⟨hformed, -⟩ := ofWindow_eq_ok.mp hread
    exact ⟨fun glyph c => hformed.classOf_iff, fun c => hformed.defines_iff,
      fun limit => hformed.checkLimit_iff, d.flags_getD, d.size_flags_le_iff⟩
  · exact (ofWindow_eq_ok.mp hread).1.agrees (ofWindow_eq_ok.mp hread').1 hsame

namespace LastGlyphs

/-- The classes 2 and 1 of the last two glyphs. -/
def blockData : ByteArray := ⟨#[0, 1, 0xFF, 0xFE, 0, 2, 0, 2, 0, 1]⟩

def rangesData : ByteArray :=
  ⟨#[0, 2, 0, 2, 0xFF, 0xFE, 0xFF, 0xFE, 0, 2, 0xFF, 0xFF, 0xFF, 0xFF, 0, 1]⟩

def block : ClassDef := .block 0xFFFE #[2, 1]

def ranges : ClassDef := .ranges #[⟨0xFFFE, 0xFFFE, 2⟩, ⟨0xFFFF, 0xFFFF, 1⟩]

/-- A block that ends with the last glyph, and a range for each of its glyphs. -/
theorem last_glyphs_agree :
    ofWindow (.ofBytes blockData) = .ok block ∧ ofWindow (.ofBytes rangesData) = .ok ranges ∧
    block.classOf 0xFFFF = some 1 ∧ block.defines 1 = true ∧ block.Agrees ranges := by
  have hblock : ofWindow (.ofBytes blockData) = .ok block := by decide +kernel
  have hranges : ofWindow (.ofBytes rangesData) = .ok ranges := by decide +kernel
  obtain ⟨-, hread, hagree⟩ := classes_consistent (.ofBytes blockData) (.ofBytes rangesData)
  obtain ⟨hclass, hdefines, -⟩ := hread block hblock
  have hlast : block.classOf 0xFFFF = some 1 := (hclass 0xFFFF 1).mpr ⟨1, rfl, rfl⟩
  refine ⟨hblock, hranges, hlast, (hdefines 1).mpr ⟨_, hlast⟩,
    hagree block ranges hblock hranges ?_⟩
  -- that the formats give the same classes is left; both list the last two glyphs
  intro glyph c
  have hglyphs : (∃ place, glyph.toNat = 0xFFFE + place ∧ #[2, 1][place]? = some c) ↔
      (0xFFFE ≤ glyph.toNat ∧ glyph.toNat ≤ 0xFFFE) ∧ 2 = c ∨
        (0xFFFF ≤ glyph.toNat ∧ glyph.toNat ≤ 0xFFFF) ∧ 1 = c := by
    constructor
    · rintro ⟨_ | _ | place, hplace, hc⟩
      · exact .inl ⟨by omega, Option.some.inj hc⟩
      · exact .inr ⟨by omega, Option.some.inj hc⟩
      · cases hc
    · rintro (⟨hglyph, rfl⟩ | ⟨hglyph, rfl⟩)
      · exact ⟨0, by omega, rfl⟩
      · exact ⟨1, by omega, rfl⟩
  simpa [block, ranges, Mentions, ClassRange.Has] using hglyphs

end LastGlyphs

end ClassDef

end OpenTypeLayout
