import OpenTypeLayout.Proofs.SharedLoading
import OpenTypeLayout.Proofs.Substitution.Numbering

/-!
# Fresh numbers

Between one clearing of a glyph buffer and the next, every ligature that needs a number gets the
next one of sixteen bits. The first number is 1. One of the numbers stands for none, and one for the
number of the current glyph; both come up if there are more than 65534 ligatures, and after them the
numbers repeat.

- `GlyphBuffer.Run` is everything that can be done with a buffer, with the list of what is numbered.
- `GlyphBuffer.Run.numbers_fresh` says that until then no two ligatures are mixed up.
- `GlyphBuffer.numbers_run_out` is what happens after that.
-/

namespace OpenTypeLayout

/-! ## §1 Counting -/

namespace Numbering

/-- The numbers that are taken, in order. -/
def numbers (events : List Numbering) : List UInt16 := events.flatMap taken

theorem numbers_append (events events' : List Numbering) :
    numbers (events ++ events') = numbers events ++ numbers events' := List.flatMap_append

end Numbering

namespace GlyphBuffer

variable {b b' : GlyphBuffer} {first : GlyphItem} {glyph : GlyphId} {places : List Nat}

/-- All that is carried over belongs to the ligature. -/
theorem ligature_of_mem_carried {ligature : UInt16} (hligature : ligature ≠ inherit)
    {input : Array GlyphItem} {component start : Nat} {x : GlyphItem}
    (hx : x ∈ carried input ligature component start places) : x.ligature = ligature := by
  induction places generalizing component start with
  | nil => exact absurd hx (Array.not_mem_empty x)
  | cons place rest ih =>
    rcases Array.mem_append.mp hx with hx | hx
    · obtain ⟨y, -, rfl⟩ := Array.mem_map.mp hx
      exact if_neg hligature
    · exact ih hx

/-- There is a current glyph, and it does not belong to a ligature. -/
def Unnumbered (b : GlyphBuffer) : Prop := ∃ x, b.current? = some x ∧ x.ligature = 0

/-- All that has been written from one buffer to another belongs to a ligature with a number. -/
def WritesAll (b b' : GlyphBuffer) (number : UInt16) : Prop :=
  ∀ i x, b.output.size ≤ i → b'.output[i]? = some x → x.ligature = number

namespace Ligates

/-- A ligature whose first component belongs to none takes a number. -/
theorem nextLigature_of_unnumbered (h : b.Ligates b' first glyph places) (hb : b.Unnumbered) :
    b'.nextLigature = b.nextLigature + 1 := by
  obtain ⟨x, hx, hnone⟩ := hb
  obtain ⟨x', hx', hbare⟩ := h.current
  cases hx.symm.trans hx'
  have hfirst : first.ligature = 0 := (congrArg GlyphItem.ligature hbare).symm.trans hnone
  rw [h.nextLigature, if_neg fun hkeeps => hkeeps.2 hfirst]

/-- The ligature gets the number that it takes, and what was skipped inside it gets that
    number too. -/
theorem writesAll (h : b.Ligates b' first glyph places)
    (hnext : b'.nextLigature = b.nextLigature + 1) (hnumber : b.nextLigature ≠ inherit) :
    b.WritesAll b' b.nextLigature := by
  have htakes : ¬ KeepsNumber first places b.position := by
    intro hkeeps
    have hsame := h.nextLigature
    rw [if_pos hkeeps] at hsame
    have hmoved : b.nextLigature + 1 = b.nextLigature := hnext.symm.trans hsame
    grind
  intro i x hi hx
  rw [h.output, Array.getElem?_append_right hi] at hx
  rcases Array.mem_append.mp (Array.mem_of_getElem? hx) with hx | hx
  · cases List.mem_singleton.mp (Array.mem_toList_iff.mpr hx)
    rw [numberFor, if_neg htakes]
    exact if_neg hnumber
  · rw [numberFor, if_neg htakes] at hx
    exact ligature_of_mem_carried hnumber hx

end Ligates

end GlyphBuffer

namespace Numbering

open GlyphBuffer (Ligates)

/-- The numbers that are taken follow each other. -/
theorem Account.numbers_eq {start : Nat} {events : List Numbering} {next' : UInt16}
    (h : Account (UInt16.ofNat start) events next') :
    numbers events = (List.range' start (numbers events).length).map UInt16.ofNat ∧
      next' = UInt16.ofNat (start + (numbers events).length) := by
  have hsucc : ∀ n : Nat, UInt16.ofNat n + 1 = UInt16.ofNat (n + 1) := fun n =>
    (UInt16.ofNat_add n 1).symm
  -- each event takes the next number or none
  induction events generalizing start with
  | nil => exact ⟨rfl, h⟩
  | cons event rest ih =>
    -- whatever takes the first number, the rest begins with the one after it
    have htaken : ∀ {next}, next = UInt16.ofNat (start + 1) → Account next rest next' →
        taken event = [UInt16.ofNat start] →
          numbers (event :: rest) =
              (List.range' start (numbers (event :: rest)).length).map UInt16.ofNat ∧
            next' = UInt16.ofNat (start + (numbers (event :: rest)).length) := by
      intro next hnext hrest htaken
      obtain ⟨hnumbers, hlast⟩ := ih (hnext ▸ hrest)
      have hcons : numbers (event :: rest) = UInt16.ofNat start :: numbers rest := by
        rw [numbers, List.flatMap_cons, htaken]
        rfl
      rw [hcons, List.length_cons, List.range'_succ, List.map_cons, ← hnumbers]
      exact ⟨rfl, by rw [hlast]; congr 1; omega⟩
    cases event with
    | handedOut number => exact htaken (hsucc start) h.2 (by rw [taken, h.1])
    | written before after =>
      obtain ⟨hbefore, ⟨first, glyph, places, hligates⟩, hrest⟩ := h
      have hnext := hligates.nextLigature
      -- a ligature that keeps a number takes none
      split at hnext
      case isTrue =>
        have hcons : numbers (.written before after :: rest) = numbers rest := by
          rw [numbers, List.flatMap_cons, taken, if_pos hnext]
          rfl
        rw [hcons]
        exact ih (by rw [← hbefore, ← hnext]; exact hrest)
      -- any other takes the next one
      case isFalse =>
        have hne : after.nextLigature ≠ before.nextLigature := by
          rw [hnext]
          grind
        refine htaken ?_ hrest (by rw [taken, if_neg hne, hbefore])
        rw [hnext, hbefore, hsucc]

theorem Account.ligates {next next' : UInt16} {events : List Numbering}
    (h : Account next events next') {before after : GlyphBuffer}
    (hmem : .written before after ∈ events) :
    ∃ first glyph places, before.Ligates after first glyph places := by
  induction events generalizing next with
  | nil => exact absurd hmem List.not_mem_nil
  | cons event rest ih =>
    cases event with
    | handedOut number => exact ih h.2 ((List.mem_cons.mp hmem).resolve_left (nomatch ·))
    | written before' after' =>
      rcases List.mem_cons.mp hmem with hsame | hmem
      · cases hsame
        exact h.2.1
      · exact ih h.2.2 hmem

end Numbering

/-! ## §2 Runs -/

namespace GlyphBuffer

open OpenTypeLayout.Numbering (numbers)

/-- What can be done with a buffer from when it is new, or has been cleared, with the list of what
    is numbered. -/
inductive Run : List Numbering → GlyphBuffer → Prop where
  /-- Nothing has been done. -/
  | new : Run [] .empty
  /-- Glyphs are put in, written, copied, or made the input of the next pass. -/
  | edit {events : List Numbering} {b : GlyphBuffer} (h : Run events b) (b' : GlyphBuffer)
      (hnext : b'.nextLigature = b.nextLigature) : Run events b'
  /-- A number is handed out. -/
  | allocate {events : List Numbering} {b : GlyphBuffer} (h : Run events b) :
      Run (events ++ [.handedOut b.allocateLigature.1]) b.allocateLigature.2
  /-- The text is substituted, whether this fails or not. -/
  | substitute {events : List Numbering} {b : GlyphBuffer} (h : Run events b) {σ : Type}
      {table : ActiveTable Substitution} {w : Window}
      (hread : LayoutTable.ofWindow w = .ok table.layout) (chooser : AlternateChooser σ)
      (gdef : Option Gdef) (kept : σ) :
      Run (table.substituteLogged chooser ⟨b, gdef, kept, events⟩).2.kept.2
        (table.substitute chooser ⟨b, gdef, kept⟩).2.buffer

namespace Run

variable {events : List Numbering} {b : GlyphBuffer}

theorem account (h : Run events b) : Numbering.Account 1 events b.nextLigature := by
  induction h with
  | new => exact rfl
  | edit _ b' hnext ih => exact hnext ▸ ih
  | allocate _ ih => exact ih.append ⟨rfl, rfl⟩
  | @substitute events b h σ table w hread chooser gdef kept ih =>
    obtain ⟨added, hrun, haccount⟩ :=
      ActiveTable.substituteLogged_eq hread chooser ⟨b, gdef, kept⟩ events
    have hevents : (table.substituteLogged chooser ⟨b, gdef, kept, events⟩).2.kept.2 =
        events ++ added := congrArg (fun outcome => outcome.2.kept.2) hrun
    rw [hevents]
    exact ih.append haccount

/-- The numbers that are taken are 1, 2 and so on, and this is how they go on. -/
theorem numbers_eq (h : Run events b) :
    numbers events = (List.range' 1 (numbers events).length).map UInt16.ofNat ∧
      b.nextLigature = UInt16.ofNat (1 + (numbers events).length) :=
  have haccount : Numbering.Account (UInt16.ofNat 1) events b.nextLigature := h.account
  haccount.numbers_eq

/-- As long as there are not too many, the numbers are those that there are between the one for none
    and the one for the current glyph. -/
theorem toNat_of_mem (h : Run events b)
    (hcount : (numbers events).length ≤ 0xFFFE) {number : UInt16} (hmem : number ∈ numbers events) :
    0 < number.toNat ∧ number.toNat < 0xFFFF := by
  rw [h.numbers_eq.1] at hmem
  obtain ⟨n, hn, rfl⟩ := List.mem_map.mp hmem
  obtain ⟨hle, hlt⟩ := List.mem_range'_1.mp hn
  have hsmall : n < UInt16.size :=
    Nat.lt_of_lt_of_le hlt (Nat.le_trans (Nat.add_le_add_left hcount 1) (by decide))
  rw [UInt16.toNat_ofNat_of_lt' hsmall]
  omega

theorem nodup_numbers (h : Run events b) (hcount : (numbers events).length ≤ 0xFFFE) :
    (numbers events).Nodup := by
  rw [h.numbers_eq.1, List.Nodup, List.pairwise_map]
  refine (List.pairwise_lt_range' 1).imp_of_mem fun {m n} hm hn hlt heq => ?_
  have hsize : 1 + (numbers events).length ≤ UInt16.size :=
    Nat.le_trans (Nat.add_le_add_left hcount 1) (by decide)
  have hm := Nat.lt_of_lt_of_le (List.mem_range'_1.mp hm).2 hsize
  have hn := Nat.lt_of_lt_of_le (List.mem_range'_1.mp hn).2 hsize
  have hsame := congrArg UInt16.toNat heq
  rw [UInt16.toNat_ofNat_of_lt' hm, UInt16.toNat_ofNat_of_lt' hn] at hsame
  exact Nat.ne_of_lt hlt hsame

/-- A ligature whose first component belongs to none takes one of the numbers. -/
theorem taken_of_unnumbered (h : Run events b) {before after : GlyphBuffer}
    (hmem : .written before after ∈ events) (hbefore : before.Unnumbered) :
    Numbering.taken (.written before after) = [before.nextLigature] := by
  obtain ⟨first, glyph, places, hligates⟩ := h.account.ligates hmem
  have hne : after.nextLigature ≠ before.nextLigature := by
    rw [hligates.nextLigature_of_unnumbered hbefore]
    grind
  rw [Numbering.taken, if_neg hne]

/-- As long as no more than 65534 numbers are taken, they are all different, and none of them
    stands for something else. A ligature whose first component belongs to none is written with
    its own number together with all that is skipped inside it, and no other such ligature has
    that number. -/
theorem numbers_fresh (hrun : Run events b) (hcount : (numbers events).length ≤ 0xFFFE) :
    (numbers events).Nodup ∧ 0 ∉ numbers events ∧ inherit ∉ numbers events ∧
    (∀ before after, .written before after ∈ events → before.Unnumbered →
      (∃ first glyph places, before.Ligates after first glyph places) ∧
      before.WritesAll after before.nextLigature ∧ before.nextLigature ∈ numbers events) ∧
    events.Pairwise fun event event' => ∀ before after before' after',
      event = .written before after → event' = .written before' after' →
        before.Unnumbered → before'.Unnumbered → before.nextLigature ≠ before'.nextLigature := by
  -- less numbers have been handed out than there are, so none comes again
  have hnodup := hrun.nodup_numbers hcount
  have hrange : ∀ {number}, number ∈ numbers events → 0 < number.toNat ∧ number.toNat < 0xFFFF :=
    fun hmem => hrun.toNat_of_mem hcount hmem
  -- what holds of the numbers, then of one ligature, and then of two of them
  refine ⟨hnodup, fun h => ?_, fun h => ?_, fun before after hmem hbefore => ?_, ?_⟩
  · exact absurd (hrange h).1 (by decide)
  · exact absurd (hrange h).2 (by decide)
  -- a glyph without a number gets one when a ligature is written
  · obtain ⟨first, glyph, places, hligates⟩ := hrun.account.ligates hmem
    have htaken : before.nextLigature ∈ numbers events := by
      refine List.mem_flatMap.mpr ⟨_, hmem, ?_⟩
      rw [hrun.taken_of_unnumbered hmem hbefore]
      exact List.mem_singleton_self _
    refine ⟨⟨first, glyph, places, hligates⟩, ?_, htaken⟩
    refine hligates.writesAll (hligates.nextLigature_of_unnumbered hbefore) fun heq => ?_
    have hlt := (hrange htaken).2
    rw [heq] at hlt
    exact absurd hlt (by decide)
  -- the numbers of two ligatures have been taken one after the other
  · refine (List.pairwise_flatMap.mp hnodup).2.imp_of_mem ?_
    rintro _ _ hmem hmem' hne before after before' after' rfl rfl hbefore hbefore'
    refine hne _ ?_ _ ?_
    · rw [hrun.taken_of_unnumbered hmem hbefore]
      exact List.mem_singleton_self _
    · rw [hrun.taken_of_unnumbered hmem' hbefore']
      exact List.mem_singleton_self _

end Run

/-! A font in which 1 and 2 form a ligature, and the marks between them are skipped. -/

namespace AcrossMark

def layout : LayoutTable Substitution where
  scripts := #[]
  features := #[]
  lookups := #[
    { flag := ⟨8⟩
      subtables := .ligature #[{ coverage := .glyphs #[1], entries := #[#[⟨9, #[2]⟩]] }] }]

/-- The layout table as a font stores it. -/
def data : ByteArray := ⟨#[
  0x00, 0x01, 0x00, 0x00, 0x00, 0x00, 0x00, 0x00, 0x00, 0x0A,
  -- one lookup
  0x00, 0x01, 0x00, 0x04, 0x00, 0x04, 0x00, 0x08, 0x00, 0x01, 0x00, 0x08,
  -- the ligatures that begin with 1
  0x00, 0x01, 0x00, 0x08, 0x00, 0x01, 0x00, 0x0E,
  0x00, 0x01, 0x00, 0x01, 0x00, 0x01,
  0x00, 0x01, 0x00, 0x04,
  0x00, 0x09, 0x00, 0x02, 0x00, 0x02]⟩

theorem ofWindow_data : LayoutTable.ofWindow (Window.ofBytes data) = .ok layout := by
  rw [LayoutTable.ofWindow_eq_afresh]
  decide +kernel

def table : ActiveTable Substitution where
  layout := layout
  bits := #[1]

/-- The glyph 3 is a mark. -/
def gdef : Gdef := { classes := some (.ranges #[⟨3, 3, 3⟩]) }

/-- The glyphs 1, 3, 2, when the next ligature has a number. -/
def text (nextLigature : UInt16) : GlyphBuffer where
  input := #[
    { glyph := 1, activation := 1, cluster := 0 }, { glyph := 3, activation := 1, cluster := 1 },
    { glyph := 2, activation := 1, cluster := 2 }]
  nextLigature := nextLigature

/-- The text when the ligature has been written with a number, and the number of the next one. -/
def afterText (ligature nextLigature : UInt16) : GlyphBuffer where
  input := #[
    { glyph := 1, activation := 1, cluster := 0, known := some .none },
    { glyph := 3, activation := 1, cluster := 1, known := some .mark },
    { glyph := 2, activation := 1, cluster := 2, known := some .none }]
  output := #[{ glyph := 9, activation := 1, cluster := 0, ligature := ligature },
    { glyph := 3, activation := 1, cluster := 1, ligature := ligature }]
  position := 3
  nextLigature := nextLigature

end AcrossMark

open AcrossMark in
/-- One number is handed out and the next one is that of a ligature and the mark in it. -/
theorem numbers_fresh_acrossMark :
    ∃ events b, Run events b ∧ (numbers events).length ≤ 0xFFFE ∧ numbers events = [1, 2] ∧
      events = [.handedOut 1, .written (text 2) (afterText 2 3)] ∧
      (text 2).WritesAll (afterText 2 3) 2 ∧ 2 ∈ numbers events := by
  have hread : LayoutTable.ofWindow (Window.ofBytes data) = .ok table.layout := ofWindow_data
  have hrun := ((Run.new.edit (text 1) rfl).allocate.edit (text 2) rfl).substitute hread .first
    (some gdef) ()
  have hevents : (table.substituteLogged .first ⟨text 2, some gdef, (), [.handedOut 1]⟩).2.kept.2 =
      [.handedOut 1, .written (text 2) (afterText 2 3)] := by rfl
  have hnumbers : numbers [.handedOut 1, .written (text 2) (afterText 2 3)] = [1, 2] := by rfl
  have hrun : Run [.handedOut 1, .written (text 2) (afterText 2 3)] _ := hevents ▸ hrun
  have hcount : (numbers [.handedOut 1, .written (text 2) (afterText 2 3)]).length ≤ 0xFFFE := by
    rw [hnumbers]
    decide
  obtain ⟨-, -, -, hligatures, -⟩ := hrun.numbers_fresh hcount
  obtain ⟨-, hwrites, hmem⟩ := hligatures (text 2) (afterText 2 3)
    (List.mem_cons_of_mem _ List.mem_cons_self) ⟨_, rfl, rfl⟩
  exact ⟨_, _, hrun, hcount, hnumbers, rfl, hwrites, hmem⟩

/-- As many numbers are handed out, one after the other. -/
def allocations (n : Nat) : List Numbering :=
  (List.range' 1 n).map fun number => .handedOut (UInt16.ofNat number)

theorem Run.allocations (n : Nat) : Run (allocations n) { nextLigature := UInt16.ofNat (1 + n) } ∧
    (numbers (GlyphBuffer.allocations n)).length = n := by
  induction n with
  | zero => exact ⟨.new, rfl⟩
  | succ n ih =>
    obtain ⟨hrun, hlength⟩ := ih
    have hsucc : GlyphBuffer.allocations (n + 1) =
        GlyphBuffer.allocations n ++ [.handedOut (UInt16.ofNat (1 + n))] := by
      unfold GlyphBuffer.allocations
      rw [List.range'_1_concat, List.map_append, List.map_singleton]
    rw [hsucc]
    refine ⟨hrun.allocate.edit _ (UInt16.ofNat_add (1 + n) 1), ?_⟩
    rw [Numbering.numbers_append, List.length_append, hlength]
    rfl

open AcrossMark in
/-- After 65534 numbers the next one is the one that stands for the number of the current glyph. So
    a ligature and the mark in it are written with the one that stands for none. -/
theorem numbers_run_out :
    ∃ events b, Run events b ∧ (numbers events).length = 0xFFFF ∧ inherit ∈ numbers events ∧
      .written (text inherit) (afterText 0 0) ∈ events ∧ (text inherit).Unnumbered ∧
      ¬ (text inherit).WritesAll (afterText 0 0) inherit ∧
      (text inherit).WritesAll (afterText 0 0) 0 := by
  -- all numbers but the last one are handed out first
  obtain ⟨hrun, hlength⟩ := Run.allocations 0xFFFE
  have hevents : (table.substituteLogged .first
      ⟨text inherit, some gdef, (), allocations 0xFFFE⟩).2.kept.2 =
        allocations 0xFFFE ++ [.written (text inherit) (afterText 0 0)] := by rfl
  -- the ligature takes the number that stands for none
  have hnumbers : numbers [.written (text inherit) (afterText 0 0)] = [inherit] := by rfl
  have hzero : (text inherit).WritesAll (afterText 0 0) 0 := by
    intro i x _ hx
    have hmem := Array.mem_of_getElem? hx
    simp only [afterText, List.mem_toArray, List.mem_cons, List.not_mem_nil, or_false] at hmem
    rcases hmem with rfl | rfl <;> rfl
  have hread : LayoutTable.ofWindow (Window.ofBytes data) = .ok table.layout := ofWindow_data
  have hrun := (hrun.edit (text inherit) rfl).substitute hread .first (some gdef) ()
  -- there are as many numbers as that, and the glyph that is written has another one
  refine ⟨_, _, hrun, ?_, ?_, ?_, ⟨_, rfl, rfl⟩, fun h => ?_, hzero⟩
  · rw [hevents, Numbering.numbers_append, List.length_append, hlength, hnumbers]
    rfl
  · rw [hevents, Numbering.numbers_append, hnumbers]
    exact List.mem_append_right _ (List.mem_singleton_self _)
  · rw [hevents]
    exact List.mem_append_right _ (List.mem_singleton_self _)
  · exact absurd (h 0 _ (Nat.zero_le _) rfl) (by decide)

end GlyphBuffer

end OpenTypeLayout
