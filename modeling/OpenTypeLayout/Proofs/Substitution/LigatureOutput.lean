import OpenTypeLayout.Proofs.Substitution.FormedLigatures

/-!
# What is written for a ligature

A ligature takes the place of its first component. The glyphs that were skipped between its
components follow it, in their order. This holds whether the components follow each other directly,
which is written in one step, or are gone past one by one.

- `GlyphBuffer.skippedPlaces` are the places between the components.
- `GlyphBuffer.carried_eq_filterMap` says which glyphs are carried over, and as what.
- `GlyphBuffer.keepsNumber_iff` says when a ligature keeps the number of its first component.
- `SubstM.ligature_output` puts this together.
-/

namespace OpenTypeLayout

namespace GlyphBuffer

/-! ## §1 Skipped places -/

/-- The places after the first component, up to the last one, that are not places of components. -/
def skippedPlaces (first last : Nat) (places : List Nat) : List Nat :=
  (List.range' (first + 1) (last - first)).filter fun q => q ∉ places

/-- The number of the component that a place comes after, where the first one has number 0. -/
def componentBefore (places : List Nat) (q : Nat) : Nat := (places.filter (· < q)).length - 1

/-- A skipped glyph as it is written after a ligature with a number. -/
def tuckedIn (number : UInt16) (places : List Nat) (q : Nat) (x : GlyphItem) : GlyphItem :=
  { x with component := UInt16.ofNat (componentBefore places q), ligature := number, known := none }

section

variable {first last next : Nat} {places rest : List Nat}

theorem mem_skippedPlaces (hlast : last ∈ places) {q : Nat} :
    q ∈ skippedPlaces first last places ↔ first < q ∧ q < last ∧ q ∉ places := by
  rw [skippedPlaces, List.mem_filter, List.mem_range'_1, decide_eq_true_eq]
  constructor
  · rintro ⟨⟨hlow, hhigh⟩, hq⟩
    have hne : q ≠ last := fun h => hq (h ▸ hlast)
    exact ⟨hlow, by omega, hq⟩
  · rintro ⟨hlow, hhigh, hq⟩
    exact ⟨by omega, hq⟩

theorem pairwise_skippedPlaces : (skippedPlaces first last places).Pairwise (· < ·) :=
  List.Pairwise.filter _ List.pairwise_lt_range'

/-- The first component is not one of the places after it. -/
theorem skippedPlaces_first_cons :
    skippedPlaces first last (first :: places) = skippedPlaces first last places := by
  unfold skippedPlaces
  refine List.filter_congr fun q hq => ?_
  have hne : q ≠ first := by
    have := (List.mem_range'_1.mp hq).1
    omega
  simp [hne]

/-- Up to the next component all places are skipped, and then it goes on from there. -/
theorem skippedPlaces_cons (hnext : first < next) (hrest : ∀ q ∈ rest, next < q)
    (hlast : next ≤ last) :
    skippedPlaces first last (next :: rest) =
      List.range' (first + 1) (next - (first + 1)) ++ skippedPlaces next last rest := by
  -- the places in between fall into those before `next`, `next` itself and those behind it
  have hsplit : List.range' (first + 1) (last - first) =
      List.range' (first + 1) (next - (first + 1)) ++
        next :: List.range' (next + 1) (last - next) := by
    obtain ⟨n, rfl⟩ := Nat.exists_eq_add_of_le hnext
    obtain ⟨m, rfl⟩ := Nat.exists_eq_add_of_le hlast
    rw [← List.range'_succ, Nat.add_sub_cancel_left, Nat.add_sub_cancel_left, List.range'_append_1]
    congr 1
    omega
  have hbefore : (List.range' (first + 1) (next - (first + 1))).filter (fun q => q ∉ next :: rest) =
      List.range' (first + 1) (next - (first + 1)) := by
    -- the components all lie from `next` on, so no place before it is one of them
    refine List.filter_eq_self.mpr fun q hq => ?_
    have hlt : q < next := by
      have := (List.mem_range'_1.mp hq).2
      omega
    rw [decide_eq_true_eq, List.mem_cons, not_or]
    exact ⟨Nat.ne_of_lt hlt, fun hmem => Nat.lt_asymm hlt (hrest q hmem)⟩
  have hafter : (next :: List.range' (next + 1) (last - next)).filter (fun q => q ∉ next :: rest) =
      skippedPlaces next last rest := by
    rw [← skippedPlaces_first_cons, skippedPlaces]
    exact List.filter_cons_of_neg (by simp)
  rw [skippedPlaces, hsplit, List.filter_append, hbefore, hafter]

/-- As many places are skipped as there are more places than components. -/
theorem length_skippedPlaces (hascending : (first :: places).Pairwise (· < ·)) :
    (skippedPlaces first (places.getLastD first) places).length + places.length =
      places.getLastD first - first := by
  induction places generalizing first with
  | nil => simp [skippedPlaces]
  | cons next rest ih =>
    obtain ⟨hnext, hrest⟩ := List.pairwise_cons.mp hascending
    have hlt := hnext next List.mem_cons_self
    have hle := le_getLastD_of_ascending hrest
    have hlength := ih hrest
    rw [List.getLastD_cons, skippedPlaces_cons hlt (List.pairwise_cons.mp hrest).1 (by omega),
      List.length_append, List.length_range', List.length_cons]
    omega

/-- Nothing is skipped exactly if the last component is as far off as there are components. -/
theorem skippedPlaces_eq_nil_iff (hascending : (first :: places).Pairwise (· < ·)) :
    skippedPlaces first (places.getLastD first) (first :: places) = [] ↔
      places.getLastD first = first + places.length := by
  have hlength := length_skippedPlaces hascending
  have hle := le_getLastD_of_ascending hascending
  rw [skippedPlaces_first_cons, ← List.length_eq_zero_iff]
  omega

theorem componentBefore_first_cons {q : Nat} (hq : first < q) :
    componentBefore (first :: places) q = (places.filter (· < q)).length := by
  rw [componentBefore, List.filter_cons_of_pos (by simpa using hq)]
  rfl

end

/-! ## §2 What is carried over -/

variable {input : Array GlyphItem} {number : UInt16} {first : Nat} {others : List Nat}

theorem toList_extract_map {β : Type} (g : GlyphItem → β) {low high : Nat}
    (hhigh : high ≤ input.size) :
    ((input.extract low high).map g).toList =
      (List.range' low (high - low)).filterMap fun q => input[q]?.map g := by
  induction hcount : high - low generalizing low with
  | zero =>
    rw [Array.extract_empty_of_stop_le_start (Nat.le_of_sub_eq_zero hcount), Array.map_empty]
    rfl
  | succ n ih =>
    have hlow : input[low]? = some input[low] := Array.getElem?_eq_getElem (by omega)
    rw [extract_eq_cons hlow (by omega), Array.map_append, Array.toList_append, ih (by omega),
      Array.map_singleton, List.range'_succ, List.filterMap_cons, hlow]
    rfl

/-- The glyphs between the components are carried over in their order, each with the number of the
    component that it comes after. Here `component` is the number of the first one. -/
theorem carried_eq_filterMap (component : Nat) (hascending : (first :: others).Pairwise (· < ·))
    (hinside : ∀ q ∈ others, q < input.size) :
    (carried input number component (first + 1) others).toList =
      (skippedPlaces first (others.getLastD first) others).filterMap fun q =>
        input[q]?.map fun x =>
          replacement x (UInt16.ofNat (component + (others.filter (· < q)).length)) number
            x.glyph := by
  induction others generalizing first component with
  | nil => simp [carried, skippedPlaces]
  | cons next rest ih =>
    obtain ⟨hnext, hrest⟩ := List.pairwise_cons.mp hascending
    have hlt := hnext next List.mem_cons_self
    have hafter := (List.pairwise_cons.mp hrest).1
    have hle := le_getLastD_of_ascending hrest
    have hsize := hinside next List.mem_cons_self
    rw [carried, Array.toList_append, toList_extract_map _ (Nat.le_of_lt hsize),
      ih (component + 1) hrest fun q hq => hinside q (List.mem_cons_of_mem next hq),
      List.getLastD_cons, skippedPlaces_cons hlt hafter (by omega), List.filterMap_append]
    congr 1
    · -- no component after the first one comes before these
      refine List.filterMap_congr fun q hq => ?_
      have hnone : (next :: rest).filter (fun p => decide (p < q)) = [] := by
        rw [List.filter_eq_nil_iff]
        intro p hp
        have hnextLe : next ≤ p := by
          rcases List.mem_cons.mp hp with rfl | hp
          · exact Nat.le_refl _
          · exact Nat.le_of_lt (hafter p hp)
        have := (List.mem_range'_1.mp hq).2
        rw [decide_eq_true_eq]
        omega
      rw [hnone]
      rfl
    · refine List.filterMap_congr fun q hq => ?_
      have hlow : next < q := (List.mem_range'_1.mp (List.mem_of_mem_filter hq)).1
      rw [List.filter_cons_of_pos (by simpa using hlow), List.length_cons, Nat.add_right_comm,
        Nat.add_assoc component]

/-- A ligature keeps the number of its first component if that has one and no place is skipped. -/
theorem keepsNumber_iff (x : GlyphItem) (hascending : (first :: others).Pairwise (· < ·)) :
    KeepsNumber x (first :: others) first ↔
      skippedPlaces first (others.getLastD first) (first :: others) = [] ∧ x.ligature ≠ 0 := by
  rw [KeepsNumber, skippedPlaces_eq_nil_iff hascending, List.getLast?_cons,
    ← List.getLastD_eq_getLast?, Option.some.injEq, List.length_cons, ← Nat.add_assoc,
    Nat.add_sub_cancel]

theorem replacement_eq {x : GlyphItem} {component ligature : UInt16}
    (hcomponent : component ≠ inherit) (hligature : ligature ≠ inherit) :
    replacement x component ligature x.glyph = { x with component, ligature, known := none } := by
  rw [replacement, inheriting, inheriting, if_neg hcomponent, if_neg hligature]

theorem replacement_inherit {x : GlyphItem} {ligature : UInt16} (hligature : ligature ≠ inherit)
    (glyph : GlyphId) :
    replacement x inherit ligature glyph = { x with glyph, ligature, known := none } := by
  rw [replacement, inheriting, inheriting, if_pos rfl, if_neg hligature]

theorem replacement_inherit_inherit (x : GlyphItem) (glyph : GlyphId) :
    replacement x inherit inherit glyph = { x with glyph, known := none } := by
  rw [replacement, inheriting, inheriting, if_pos rfl, if_pos rfl]

/-- Nothing is carried over if nothing is skipped. -/
theorem carried_of_skippedPlaces_nil (hascending : (first :: others).Pairwise (· < ·))
    (hinside : ∀ q ∈ others, q < input.size)
    (h : skippedPlaces first (others.getLastD first) (first :: others) = []) :
    carried input number 0 (first + 1) others = #[] := by
  rw [skippedPlaces_first_cons] at h
  rw [← Array.toList_inj, carried_eq_filterMap 0 hascending hinside, h]
  rfl

theorem componentBefore_lt {places : List Nat} (hcount : places.length ≤ 65535) (q : Nat) :
    componentBefore places q < 65535 := by
  have := List.length_filter_le (fun p => decide (p < q)) places
  unfold componentBefore
  omega

theorem toNat_componentBefore {places : List Nat} (hcount : places.length ≤ 65535) (q : Nat) :
    (UInt16.ofNat (componentBefore places q)).toNat = componentBefore places q :=
  UInt16.toNat_ofNat_of_lt' (Nat.lt_succ_of_lt (componentBefore_lt hcount q))

/-- What is carried over are the skipped glyphs as they are written after a ligature. -/
theorem carried_eq_tuckedIn (hascending : (first :: others).Pairwise (· < ·))
    (hinside : ∀ q ∈ others, q < input.size) (hcount : (first :: others).length ≤ 65535)
    (hnumber : number ≠ inherit) :
    carried input number 0 (first + 1) others =
      ((skippedPlaces first (others.getLastD first) (first :: others)).filterMap fun q =>
        input[q]?.map (tuckedIn number (first :: others) q)).toArray := by
  rw [← Array.toList_inj, carried_eq_filterMap 0 hascending hinside, skippedPlaces_first_cons]
  refine List.filterMap_congr fun q hq => ?_
  have hlow : first < q := (List.mem_range'_1.mp (List.mem_of_mem_filter hq)).1
  have hcomponent : UInt16.ofNat (componentBefore (first :: others) q) ≠ inherit := by
    intro h
    have hlt := componentBefore_lt hcount q
    rw [← toNat_componentBefore hcount, h] at hlt
    exact absurd hlt (by decide)
  rw [Nat.zero_add, ← componentBefore_first_cons hlow]
  refine congrArg (Option.map · input[q]?) (funext fun x => ?_)
  rw [replacement_eq hcomponent hnumber, tuckedIn]

end GlyphBuffer

namespace SubstM

open GlyphBuffer

variable {σ : Type} {s : SubstState σ}

/-- A ligature is written for components that begin at the current glyph. It is in the part of the
    text of the first component, and the glyphs that were skipped follow it, each with the number of
    the component that it comes after. All of them have one ligature number. This is the one that
    the first component has, if nothing was skipped and it has one, and the next one otherwise. -/
theorem ligature_output (glyph : GlyphId) (places : List Nat)
    (hhead : places.head? = some s.buffer.position) (hascending : places.Pairwise (· < ·))
    (hinside : ∀ q ∈ places, q < s.buffer.size) (hcount : places.length ≤ 65535)
    (hzero : s.buffer.nextLigature ≠ 0) (hinherit : s.buffer.nextLigature ≠ inherit) :
    ∃ first last, s.buffer.current? = some first ∧ places.getLast? = some last ∧
      let skipped := skippedPlaces s.buffer.position last places
      let keeps := skipped = [] ∧ first.ligature ≠ 0
      let number := if keeps then first.ligature else s.buffer.nextLigature
      (emitLigature glyph places).outcome s = (.ok (), { s with buffer := {
        input := s.buffer.input
        output := s.buffer.output ++ (
          { first with glyph, ligature := number, known := none } ::
          skipped.filterMap fun q => s.buffer.input[q]?.map (tuckedIn number places q)).toArray
        position := last + 1
        nextLigature :=
          if keeps then s.buffer.nextLigature else s.buffer.nextLigature + 1 } }) ∧
      number ≠ 0 ∧ skipped.Pairwise (· < ·) ∧
      (∀ q, q ∈ skipped ↔ s.buffer.position < q ∧ q < last ∧ q ∉ places) ∧
      ∀ q, (UInt16.ofNat (componentBefore places q)).toNat = componentBefore places q := by
  obtain ⟨tail, rfl⟩ := List.head?_eq_some_iff.mp hhead
  obtain ⟨first, hfirst⟩ := exists_current? (hinside _ List.mem_cons_self)
  have hlast : (s.buffer.position :: tail).getLast? = some (tail.getLastD s.buffer.position) := by
    rw [List.getLast?_cons, List.getLastD_eq_getLast?]
  refine ⟨first, _, hfirst, hlast, ?_⟩
  intro skipped keeps number
  have hkeeps : KeepsNumber first (s.buffer.position :: tail) s.buffer.position ↔ keeps :=
    keepsNumber_iff first hascending
  refine ⟨(outcome_emitLigature hfirst glyph hascending hhead hinside hcount).trans ?_, ?_,
    pairwise_skippedPlaces, fun q => mem_skippedPlaces (List.mem_of_getLast? hlast),
    toNat_componentBefore hcount⟩
  · have hwritten : #[replacement first inherit
          (s.buffer.numberFor first (s.buffer.position :: tail)) glyph] ++
        carried s.buffer.input (s.buffer.numberFor first (s.buffer.position :: tail)) 0
          (s.buffer.position + 1) tail =
        ({ first with glyph, ligature := number, known := none } ::
          skipped.filterMap fun q =>
            s.buffer.input[q]?.map (tuckedIn number (s.buffer.position :: tail) q)).toArray := by
      have hinside' : ∀ q ∈ tail, q < s.buffer.input.size := fun q hq =>
        hinside q (List.mem_cons_of_mem _ hq)
      refine Eq.trans ?_ (List.toArray_cons _ _).symm
      unfold numberFor number
      by_cases h : keeps
      case pos =>
        -- nothing is skipped, so there is nothing that could get another number
        rw [if_pos (hkeeps.mpr h), if_pos h, replacement_inherit_inherit, h.1,
          carried_of_skippedPlaces_nil hascending hinside' h.1]
        rfl
      case neg =>
        rw [if_neg (hkeeps.not.mpr h), if_neg h, replacement_inherit hinherit,
          carried_eq_tuckedIn hascending hinside' hcount hinherit]
    rw [ligated, hlast, Option.map_some, Option.getD_some, List.tail_cons, hwritten]
    simp only [hkeeps]
  · unfold number
    split
    case isTrue h => exact h.2
    case isFalse => exact hzero

end SubstM

/-! A text in which the first component is already part of a ligature, and marks stand between it
    and the other components. -/

namespace AmongMarks

/-- The glyphs 7, 1, 3, 3, 2, 3 and 4, of which the first has been copied. -/
def start : SubstState Unit where
  buffer := {
    input := #[⟨7, 1, 0, 0, 0, none⟩, ⟨1, 1, 1, 2, 3, none⟩, ⟨3, 1, 2, 0, 0, none⟩,
      ⟨3, 1, 3, 0, 0, none⟩, ⟨2, 1, 4, 0, 0, none⟩, ⟨3, 1, 5, 0, 0, none⟩, ⟨4, 1, 6, 0, 0, none⟩]
    output := #[⟨7, 1, 0, 0, 0, none⟩]
    position := 1
    nextLigature := 5 }
  gdef := none
  kept := ()

/-- What has been written, and the next ligature number. -/
def written (result : Except LayoutError Unit × SubstState Unit) :
    Array GlyphItem × Nat × UInt16 :=
  (result.2.buffer.output, result.2.buffer.position, result.2.buffer.nextLigature)

open SubstM in
/-- A ligature of 1, 2 and 4 takes the next number, as do the marks. A ligature of 1 and the mark
    after it keeps the number of the first component. -/
theorem ligatures_written :
    written ((emitLigature 9 [1, 4, 6]).outcome start) =
      (#[⟨7, 1, 0, 0, 0, none⟩, ⟨9, 1, 1, 2, 5, none⟩, ⟨3, 1, 2, 0, 5, none⟩, ⟨3, 1, 3, 0, 5, none⟩,
        ⟨3, 1, 5, 1, 5, none⟩], 7, 6) ∧
    written ((emitLigature 9 [1, 2]).outcome start) =
      (#[⟨7, 1, 0, 0, 0, none⟩, ⟨9, 1, 1, 2, 3, none⟩], 3, 5) := by
  constructor
  · obtain ⟨first, last, hfirst, hlast, hrun, -⟩ := ligature_output (s := start) 9
      [1, 4, 6] rfl (by decide) (by decide) (by decide) (by decide) (by decide)
    cases hfirst
    cases hlast
    rw [hrun]
    decide
  · obtain ⟨first, last, hfirst, hlast, hrun, -⟩ := ligature_output (s := start) 9
      [1, 2] rfl (by decide) (by decide) (by decide) (by decide) (by decide)
    cases hfirst
    cases hlast
    rw [hrun]
    decide

end AmongMarks

end OpenTypeLayout
