import OpenTypeLayout.Proofs.GlyphText
import OpenTypeLayout.Proofs.Programs
import OpenTypeLayout.Proofs.Substitution.Components
import OpenTypeLayout.Substitution.Apply

/-!
# Writing a ligature

What is in the output after a ligature has been written, glyph by glyph.

- `GlyphBuffer.carried` are the glyphs that were skipped between the components.
- `GlyphBuffer.ligated` is the buffer after all of it, and `SubstM.outcome_emitLigature` says that
  this is what comes out.
-/

namespace OpenTypeLayout

namespace GlyphBuffer

/-! ## §1 Buffers -/

/-- The glyphs between components of a ligature, written again as parts of it. The places are those
    of the components to come, and `start` is the first glyph after the component before them. -/
def carried (input : Array GlyphItem) (ligature : UInt16) :
    (component start : Nat) → List Nat → Array GlyphItem
  | _, _, [] => #[]
  | component, start, place :: rest =>
    (input.extract start place).map (fun x =>
      replacement x (UInt16.ofNat component) ligature x.glyph) ++
        carried input ligature (component + 1) (place + 1) rest

/-- A ligature keeps the number of its first component if that has one and nothing was skipped. -/
def KeepsNumber (first : GlyphItem) (places : List Nat) (position : Nat) : Prop :=
  places.getLast? = some (position + places.length - 1) ∧ first.ligature ≠ 0

instance (first : GlyphItem) (places : List Nat) (position : Nat) :
    Decidable (KeepsNumber first places position) := inferInstanceAs (Decidable (_ ∧ _))

/-- The number that a ligature and the glyphs in it are written with. -/
def numberFor (b : GlyphBuffer) (first : GlyphItem) (places : List Nat) : UInt16 :=
  if KeepsNumber first places b.position then inherit else b.nextLigature

/-- The buffer after a ligature has been put in the place of components. -/
def ligated (b : GlyphBuffer) (first : GlyphItem) (glyph : GlyphId) (places : List Nat) :
    GlyphBuffer where
  input := b.input
  output := b.output ++ (#[replacement first inherit (b.numberFor first places) glyph] ++
    carried b.input (b.numberFor first places) 0 (b.position + 1) places.tail)
  position := (places.getLast?.map (· + 1)).getD b.position
  nextLigature :=
    if KeepsNumber first places b.position then b.nextLigature else b.nextLigature + 1

theorem extract_eq_cons {α : Type} {items : Array α} {low high : Nat} {x : α}
    (hx : items[low]? = some x) (hlt : low < high) :
    items.extract low high = #[x] ++ items.extract (low + 1) high := by
  obtain ⟨hlow, rfl⟩ := Array.getElem?_eq_some_iff.mp hx
  have hfirst : items.extract low (low + 1) = #[items[low]] := by
    rw [Array.extract_succ_right (Nat.lt_succ_self low) hlow, Array.extract_empty_of_stop_le_start]
    · rfl
    · exact Nat.le_refl _
  rw [← hfirst, Array.extract_append_extract]
  congr 1 <;> omega

/-- Nothing is carried between components that follow each other directly. -/
theorem carried_of_contiguous (input : Array GlyphItem) (ligature : UInt16) {component start : Nat}
    {places : List Nat} (h : ∀ (i : Nat) (hi : i < places.length), places[i] = start + i) :
    carried input ligature component start places = #[] := by
  induction places generalizing component start with
  | nil => rfl
  | cons place rest ih =>
    obtain rfl : place = start := h 0 (Nat.succ_pos _)
    rw [carried, Array.extract_empty_of_stop_le_start (Nat.le_refl _), ih]
    · simp
    · intro i hi
      have := h (i + 1) (Nat.succ_lt_succ hi)
      rw [List.getElem_cons_succ] at this
      omega

/-- What is carried over does not depend on what is known of the glyphs. -/
theorem carried_of_bareText {input input' : Array GlyphItem} (h : bareText input' = bareText input)
    (ligature : UInt16) (component start : Nat) (places : List Nat) :
    carried input' ligature component start places =
      carried input ligature component start places := by
  have hmap : ∀ (items : Array GlyphItem) (low high component : Nat), (items.extract low high).map
      (fun x => replacement x (UInt16.ofNat component) ligature x.glyph) =
        (((bareText items).extract low high).map fun x =>
          replacement x (UInt16.ofNat component) ligature x.glyph).toArray := by
    intro items low high component
    apply Array.toList_inj.mp
    simp [bareText, List.extract, Function.comp_def, replacement, GlyphItem.bare]
  induction places generalizing component start with
  | nil => rfl
  | cons place rest ih => rw [carried, carried, ih, hmap, hmap, h]

end GlyphBuffer

/-! ## §2 Programs -/

namespace SubstM

open Program

variable {σ : Type} {s : SubstState σ} {x : GlyphItem}

theorem outcome_emit (hx : s.buffer.current? = some x) {count : Nat}
    (hcount : s.buffer.position + count ≤ s.buffer.size) (glyphs : Array GlyphId)
    (component ligature : UInt16) :
    (emit count glyphs component ligature).outcome s =
      (.ok (), { s with buffer := s.buffer.put x count glyphs component ligature }) := by
  have hreplaced := GlyphBuffer.replaced_eq_ok hx hcount
  unfold emit
  rw [outcome_bind_ok (outcome_get s), hreplaced]
  rfl

/-- The buffer after some glyphs have been carried over. -/
theorem outcome_emitSkipped {component : Nat} (hcomponent : component ≤ 0xFFFF) (ligature : UInt16)
    {place rounds : Nat} (hle : s.buffer.position ≤ place) (hplace : place ≤ s.buffer.size)
    (hrounds : place - s.buffer.position ≤ rounds) :
    (emitSkipped component ligature place rounds).outcome s =
      (.ok (), { s with buffer := { s.buffer with
        output := s.buffer.output ++ (s.buffer.input.extract s.buffer.position place).map (fun x =>
          GlyphBuffer.replacement x (UInt16.ofNat component) ligature x.glyph)
        position := place } }) := by
  -- each round writes one glyph, and there are as many rounds as glyphs
  induction rounds generalizing s with
  | zero =>
    obtain rfl : place = s.buffer.position := by omega
    rw [Array.extract_empty_of_stop_le_start (Nat.le_refl _), Array.map_empty, Array.append_empty]
    rfl
  | succ rounds ih =>
    rw [emitSkipped, outcome_bind_ok (outcome_get s)]
    dsimp only
    split
    case isFalse =>
      -- the place has been reached
      obtain rfl : place = s.buffer.position := by omega
      rw [Array.extract_empty_of_stop_le_start (Nat.le_refl _), Array.map_empty, Array.append_empty]
      rfl
    case isTrue hlt =>
      obtain ⟨x, hx⟩ := GlyphBuffer.exists_current? (Nat.lt_of_lt_of_le hlt hplace)
      -- the component number fits a word
      have hfit : fit16 component = .ok (UInt16.ofNat component) := by
        rw [fit16, if_pos hcomponent]
      rw [GlyphBuffer.current_eq_ok hx, hfit]
      change (emit 1 #[x.glyph] (UInt16.ofNat component) ligature >>= fun _ =>
        emitSkipped component ligature place rounds).outcome s = _
      rw [outcome_bind_ok (outcome_emit hx (Nat.lt_of_lt_of_le hlt hplace) _ _ _)]
      have hput : (s.buffer.put x 1 #[x.glyph] (UInt16.ofNat component) ligature).position =
          s.buffer.position + 1 := rfl
      rw [ih (s := { s with
          buffer := s.buffer.put x 1 #[x.glyph] (UInt16.ofNat component) ligature })
        (by rw [hput]; omega) hplace (by rw [hput]; omega)]
      rw [GlyphBuffer.extract_eq_cons hx hlt]
      simp [GlyphBuffer.put]

/-- The buffer after the components that follow the first one have been gone past. -/
theorem outcome_emitComponents (ligature : UInt16) {component : Nat} {places : List Nat}
    (hascending : places.Pairwise (· < ·))
    (hplaces : ∀ q ∈ places, s.buffer.position ≤ q ∧ q < s.buffer.size)
    (hcount : component + places.length ≤ 0x10000) :
    (emitComponents ligature component places).outcome s =
      (.ok (), { s with buffer := { s.buffer with
        output := s.buffer.output ++
          GlyphBuffer.carried s.buffer.input ligature component s.buffer.position places
        position := (places.getLast?.map (· + 1)).getD s.buffer.position } }) := by
  -- the glyphs before each component are written, and the component itself is gone past
  induction places generalizing s component with
  | nil =>
    rw [GlyphBuffer.carried, Array.append_empty]
    rfl
  | cons place rest ih =>
    obtain ⟨hle, hlt⟩ := hplaces place List.mem_cons_self
    obtain ⟨hfirst, hrest⟩ := List.pairwise_cons.mp hascending
    rw [List.length_cons] at hcount
    have hcomponent : component ≤ 0xFFFF := by omega
    -- as the places ascend, what is before the next one can be read
    have hskipped := outcome_emitSkipped hcomponent ligature hle (Nat.le_of_lt hlt) (Nat.le_refl _)
    rw [emitComponents, outcome_bind_ok (outcome_get s), outcome_bind_ok hskipped]
    refine (outcome_bind_ok rfl).trans ?_
    refine (ih hrest (fun q hq => ?_) (by omega)).trans ?_
    · exact ⟨hfirst q hq, (hplaces q (List.mem_cons_of_mem place hq)).2⟩
    · rw [GlyphBuffer.carried]
      cases hlast : rest.getLast? with
      | none =>
        obtain rfl := List.getLast?_eq_none_iff.mp hlast
        simp [GlyphBuffer.carried]
      | some last => simp [List.getLast?_cons, hlast]

/-- The state after a ligature number has been handed out. -/
def allocated (s : SubstState σ) : SubstState σ :=
  { s with buffer := { s.buffer with nextLigature := s.buffer.nextLigature + 1 } }

/-- Writing a ligature never fails, and this is what comes out. -/
theorem outcome_emitLigature (hx : s.buffer.current? = some x) (glyph : GlyphId) {places : List Nat}
    (hascending : places.Pairwise (· < ·)) (hhead : places.head? = some s.buffer.position)
    (hinside : ∀ q ∈ places, q < s.buffer.size) (hcount : places.length ≤ 0xFFFF) :
    (emitLigature glyph places).outcome s =
      (.ok (), { s with buffer := s.buffer.ligated x glyph places }) := by
  obtain ⟨tail, rfl⟩ := List.head?_eq_some_iff.mp hhead
  obtain ⟨hfirst, hrest⟩ := List.pairwise_cons.mp hascending
  rw [emitLigature, outcome_bind_ok (outcome_get s)]
  dsimp only
  -- the current glyph is the first component
  rw [hx, Option.map_some, Option.getD_some]
  split
  case isTrue hlast =>
    -- nothing is carried over, and the last place is where the ligature ends
    have hend := hinside _ (List.mem_of_getLast? hlast)
    have hinside' : s.buffer.position + (s.buffer.position :: tail).length ≤ s.buffer.size := by
      rw [List.length_cons] at hend ⊢
      omega
    have hcarried : ∀ ligature, GlyphBuffer.carried s.buffer.input ligature 0
        (s.buffer.position + 1) tail = #[] := fun ligature => by
      refine GlyphBuffer.carried_of_contiguous _ _ fun i hi => ?_
      have := getElem_of_contiguous hascending hhead hlast (i := i + 1) (Nat.succ_lt_succ hi)
      rw [List.getElem_cons_succ] at this
      omega
    have hposition : ((s.buffer.position :: tail).getLast?.map (· + 1)).getD s.buffer.position =
        s.buffer.position + (s.buffer.position :: tail).length := by
      rw [hlast, Option.map_some, Option.getD_some, List.length_cons]
      omega
    -- a first glyph that has a number keeps it, and any other gets a new one
    by_cases hown : x.ligature ≠ 0
    case pos =>
      have hkeeps : GlyphBuffer.KeepsNumber x (s.buffer.position :: tail) s.buffer.position :=
        ⟨hlast, hown⟩
      rw [if_pos hown]
      change (emit _ #[glyph] inherit inherit).outcome s = _
      rw [outcome_emit hx hinside']
      rw [GlyphBuffer.ligated, GlyphBuffer.numberFor, if_pos hkeeps, if_pos hkeeps, hposition,
        List.tail_cons, hcarried]
      simp [GlyphBuffer.put]
    case neg =>
      have hkeeps : ¬ GlyphBuffer.KeepsNumber x (s.buffer.position :: tail) s.buffer.position :=
        fun h => hown h.2
      rw [if_neg hown]
      refine (outcome_emit (s := allocated s) hx hinside' #[glyph] inherit
        s.buffer.nextLigature).trans ?_
      rw [GlyphBuffer.ligated, GlyphBuffer.numberFor, if_neg hkeeps, if_neg hkeeps, hposition,
        List.tail_cons, hcarried]
      simp [GlyphBuffer.put, allocated]
  -- the components are apart, so the ligature is written first and the glyphs between them after it
  case isFalse hlast =>
    have hkeeps : ¬ GlyphBuffer.KeepsNumber x (s.buffer.position :: tail) s.buffer.position :=
      fun h => hlast h.1
    have hlt : s.buffer.position + 1 ≤ s.buffer.size := GlyphBuffer.position_lt_of_current? hx
    refine (outcome_bind_ok (outcome_emit (s := allocated s) hx hlt #[glyph] inherit
      s.buffer.nextLigature)).trans ?_
    -- the rest of the components is gone past in order
    refine (outcome_emitComponents _ hrest (fun q hq => ?_) ?_).trans ?_
    · exact ⟨hfirst q hq, hinside q (List.mem_cons_of_mem _ hq)⟩
    · rw [List.length_cons] at hcount
      omega
    · rw [GlyphBuffer.ligated, GlyphBuffer.numberFor, if_neg hkeeps, if_neg hkeeps, List.tail_cons]
      cases hlast : tail.getLast? with
      | none =>
        obtain rfl := List.getLast?_eq_none_iff.mp hlast
        simp [GlyphBuffer.put, allocated]
      | some last => simp [GlyphBuffer.put, allocated, List.getLast?_cons, hlast]

/-- Look for the first ligature that begins at the current glyph. The properties of the glyphs that
    are looked at are kept. -/
def findLigature (flag : LookupFlag) (contextLength : UInt16) (isMark : Bool)
    (ligatures : List Ligature) : SubstM σ (Option (GlyphId × LigatureMatch)) := do
  let s ← get
  let place := s.buffer.position
  let (found, bound) := firstLigature ⟨s.gdef, flag⟩ contextLength s.buffer.input place isMark
    ligatures (place + 1)
  rememberInput (place + 1) bound
  return found

theorem applyLigature_cons (flag : LookupFlag) (contextLength : UInt16) (item : GlyphItem)
    (p : GlyphProperty) (subtable : LigatureSubst) (rest : List LigatureSubst) :
    (applyLigature flag contextLength item p (subtable :: rest) : SubstM σ Bool) = (do
      match ← LayoutError.ofParse (subtable.find item.glyph) with
      | none => applyLigature flag contextLength item p rest
      | some ligatures => do
        match ← findLigature flag contextLength p.isMark ligatures.toList with
        | none => applyLigature flag contextLength item p rest
        | some (glyph, m) => do
          recordClass (if m.allMarks then .mark else .ligature) glyph
          emitLigature glyph m.places
          return true) := rfl

theorem outcome_findLigature (flag : LookupFlag) (contextLength : UInt16) (isMark : Bool)
    (ligatures : List Ligature) (s : SubstState σ) :
    (findLigature flag contextLength isMark ligatures).outcome s =
      let found :=
        firstLigature ⟨s.gdef, flag⟩ contextLength s.buffer.input s.buffer.position isMark
        ligatures (s.buffer.position + 1)
      (.ok found.1, { s with buffer := { s.buffer with
        input := rememberRange s.gdef s.buffer.input (s.buffer.position + 1) found.2 } }) := rfl

end SubstM

end OpenTypeLayout
