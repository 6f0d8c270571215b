import OpenTypeLayout.Proofs.Programs
import OpenTypeLayout.Proofs.Progress
import OpenTypeLayout.Substitution.Apply

/-!
# What substitution keeps true

A `Discipline` is a condition on the glyph definitions and on the glyphs of a text that every step
of substitution keeps, together with what follows from it: which glyphs a lookup may replace, and in
which ways it may fail. Different choices give different theorems about the same programs.

- `Discipline.Holds` is the condition on a state, `Discipline.Keeps` says that a program keeps it.
- §3 has one lemma for each single step of substitution.
- `Discipline.Step` is what a lookup does at the current glyph, whether or not it applies.
-/

namespace OpenTypeLayout

/-! ## §1 Disciplines -/

/-- A condition that substitution keeps, with its consequences. -/
structure Discipline where
  /-- What holds of the glyph definitions. -/
  table : Option Gdef → Prop
  /-- What holds of every glyph of the text. -/
  item : GlyphItem → Prop
  /-- What holds of the flags of lookups. -/
  flag : LookupFlag → Prop
  /-- Which glyphs may be replaced. -/
  free : GlyphItem → Prop
  /-- Which failures may come up. -/
  failure : LayoutError → Prop
  item_of_unknown : ∀ {x}, x.known = none → item x
  item_remember : ∀ {g x}, table g → item x → item (Gdef.remember g x)
  table_record : ∀ {g glyph p answer}, table (some g) → g.record glyph p = .ok answer →
    table (some answer.2)
  free_of_admits : ∀ {g f x}, table g → flag f → item x → Gdef.admits g f x = true → free x.bare
  failure_badIndex : failure (.parse .badIndex)
  failure_nested : failure .tooManyNestedContexts
  failure_unclassified : ∀ {g f x p}, table g → item x → Gdef.check g f x = some p →
    p.basic.classNumber? = none → failure .invalidArgument

namespace Discipline

variable {σ α β : Type} {D : Discipline}

/-- The condition on a state. -/
structure Holds (D : Discipline) (s : SubstState σ) : Prop where
  table : D.table s.gdef
  input : ∀ x ∈ s.buffer.input, D.item x
  output : ∀ x ∈ s.buffer.output, D.item x
  inside : s.buffer.position ≤ s.buffer.size

/-- From a state, a program leaves a state in which the condition holds, and only fails in ways that
    may come up. If it answers, something more holds. -/
def Keeps (D : Discipline) (x : SubstM σ α) (s : SubstState σ)
    (answers : α → SubstState σ → Prop) : Prop :=
  x.Meets s (fun a s' => D.Holds s' ∧ answers a s') (fun e s' => D.Holds s' ∧ D.failure e)

/-! ## §2 Programs -/

section Programs

variable {x : SubstM σ α} {s s' : SubstState σ} {answers answers' : α → SubstState σ → Prop}

theorem Keeps.pure {a : α} (h : D.Holds s) (ha : answers a s) :
    D.Keeps (Pure.pure a : SubstM σ α) s answers := ⟨h, ha⟩

theorem Keeps.throw {e : LayoutError} (h : D.Holds s) (he : D.failure e) :
    D.Keeps (throw e : SubstM σ α) s answers := ⟨h, he⟩

theorem Keeps.mono (hx : D.Keeps x s answers)
    (himp : ∀ a s', D.Holds s' → answers a s' → answers' a s') : D.Keeps x s answers' :=
  Program.Meets.mono hx (fun a s' h => ⟨h.1, himp a s' h.1 h.2⟩) fun _ _ h => h

theorem Keeps.bind {f : α → SubstM σ β} {ends : β → SubstState σ → Prop}
    (hx : D.Keeps x s answers)
    (hf : ∀ a s', D.Holds s' → answers a s' → D.Keeps (f a) s' ends) :
    D.Keeps (x >>= f) s ends :=
  Program.Meets.bind hx fun a s' h => hf a s' h.1 h.2

/-- A program may look at the state first. -/
theorem Keeps.get_bind {f : SubstState σ → SubstM σ β} {ends : β → SubstState σ → Prop}
    (hf : D.Keeps (f s) s ends) : D.Keeps (get >>= f) s ends := by
  unfold Keeps Program.Meets at hf ⊢
  rw [Program.outcome_bind_ok (Program.outcome_get s)]
  exact hf

/-- A result goes over into the answer of a program, and its failure into that of the program. -/
theorem Keeps.lift_bind {r : Except LayoutError α} {f : α → SubstM σ β}
    {ends : β → SubstState σ → Prop} (h : D.Holds s) (herror : ∀ e, r = .error e → D.failure e)
    (hf : ∀ a, r = .ok a → D.Keeps (f a) s ends) :
    D.Keeps ((liftM r : SubstM σ α) >>= f) s ends := by
  cases r with
  | error e => exact ⟨h, herror e rfl⟩
  | ok a =>
    unfold Keeps Program.Meets at hf ⊢
    rw [Program.outcome_bind_ok (Program.outcome_lift (.ok a) s)]
    exact hf a rfl

/-- What was proved of a program, for a run of it that answers. -/
theorem Keeps.of_ok (hx : D.Keeps x s answers) {a : α} (hrun : x.outcome s = (.ok a, s')) :
    D.Holds s' ∧ answers a s' := Program.Meets.of_ok hx hrun

theorem Keeps.of_error (hx : D.Keeps x s answers) {e : LayoutError}
    (hrun : x.outcome s = (.error e, s')) : D.Holds s' ∧ D.failure e :=
  Program.Meets.of_error hx hrun

/-- Decoded data is the only source of decoding errors, and a bad index is the only one of them. -/
theorem failure_of_ofParse (D : Discipline) {r : Except ParseError α} {e : LayoutError}
    (hr : ∀ cause, r = .error cause → cause = .badIndex) (h : LayoutError.ofParse r = .error e) :
    D.failure e := by
  cases r with
  | ok a => cases h
  | error cause =>
    cases h
    rw [hr cause rfl]
    exact D.failure_badIndex

end Programs

/-! ## §3 Single steps -/

/-- Nothing has changed except for what is known of glyphs. -/
structure Unmoved (s s' : SubstState σ) : Prop where
  text : s.buffer.SameText s'.buffer
  gdef : s'.gdef = s.gdef
  kept : s'.kept = s.kept

theorem Unmoved.refl (s : SubstState σ) : Unmoved s s := ⟨.refl _, rfl, rfl⟩

theorem Unmoved.trans {s₁ s₂ s₃ : SubstState σ} (h₁₂ : Unmoved s₁ s₂) (h₂₃ : Unmoved s₂ s₃) :
    Unmoved s₁ s₃ where
  text := h₁₂.text.trans h₂₃.text
  gdef := h₂₃.gdef.trans h₁₂.gdef
  kept := h₂₃.kept.trans h₁₂.kept

section Steps

variable {s : SubstState σ}

theorem keeps_rememberInput (h : D.Holds s) (low high : Nat) :
    D.Keeps (SubstM.rememberInput low high) s fun _ s' => Unmoved s s' := by
  have hinput := bareText_rememberRange s.gdef s.buffer.input low high
  have hsize := congrArg List.length hinput
  rw [length_bareText, length_bareText] at hsize
  refine ⟨⟨h.table, ?_, h.output, ?_⟩, ⟨hinput, rfl, rfl, rfl⟩, rfl, rfl⟩
  · exact forall_mem_rememberRange (fun x hx => D.item_remember h.table hx) h.input low high
  · exact Nat.le_trans h.inside (Nat.le_of_eq hsize.symm)

theorem keeps_rememberOutput (h : D.Holds s) (low : Nat) :
    D.Keeps (SubstM.rememberOutput low) s fun _ s' => Unmoved s s' := by
  have houtput := bareText_rememberRange s.gdef s.buffer.output low s.buffer.output.size
  refine ⟨⟨h.table, h.input, ?_, h.inside⟩, ⟨rfl, rfl, houtput, rfl⟩, rfl, rfl⟩
  exact forall_mem_rememberRange (fun x hx => D.item_remember h.table hx) h.output low _

theorem keeps_recordClass (h : D.Holds s) (glyph : GlyphId) {p : GlyphProperty}
    (hp : p.basic.classNumber? = none → D.failure .invalidArgument) :
    D.Keeps (SubstM.recordClass p glyph) s fun _ s' => s'.buffer = s.buffer := by
  unfold SubstM.recordClass
  apply Keeps.get_bind
  cases hg : s.gdef with
  | none => exact .pure h rfl
  | some g =>
    dsimp only
    split
    case isFalse => exact .pure h rfl
    case isTrue =>
      apply Keeps.lift_bind h
      -- the class fails to be recorded only if the property has no number
      · intro e he
        unfold Gdef.record at he
        split at he
        case h_1 hclass =>
          cases he
          exact hp hclass
        case h_2 =>
          split at he
          · cases he
          · split at he <;> cases he
      -- the table is changed as `record` does it; the text stays
      · rintro ⟨known, g'⟩ hrecord
        have htable : D.table (some g) := hg ▸ h.table
        exact ⟨⟨D.table_record htable hrecord, h.input, h.output, h.inside⟩, rfl⟩

/-- Where there are enough glyphs, some of them can be replaced. -/
theorem keeps_emit (h : D.Holds s) {item : GlyphItem} (hitem : s.buffer.current? = some item)
    {count : Nat} (hcount : s.buffer.position + count ≤ s.buffer.size) (glyphs : Array GlyphId)
    (component ligature : UInt16) :
    D.Keeps (SubstM.emit count glyphs component ligature) s fun _ s' =>
      s' = { s with buffer := s.buffer.put item count glyphs component ligature } := by
  unfold SubstM.emit
  apply Keeps.get_bind
  have hreplaced := GlyphBuffer.replaced_eq_ok hitem hcount
  apply Keeps.lift_bind h
  · intro e he
    rw [hreplaced] at he
    cases he
  · intro item' hitem'
    rw [hreplaced] at hitem'
    cases hitem'
    refine ⟨⟨h.table, h.input, ?_, hcount⟩, rfl⟩
    intro x hx
    simp only [GlyphBuffer.output_put] at hx
    rcases Array.mem_append.mp hx with hx | hx
    · exact h.output x hx
    · -- what is written is new, so nothing is known of it
      obtain ⟨glyph, -, rfl⟩ := Array.mem_map.mp hx
      exact D.item_of_unknown rfl

theorem keeps_copy (h : D.Holds s) (hlt : s.buffer.position < s.buffer.size) :
    D.Keeps SubstM.copy s fun _ s' =>
      s.buffer.Progress D.free s'.buffer ∧ s'.buffer.position = s.buffer.position + 1 := by
  obtain ⟨item, hitem⟩ := GlyphBuffer.exists_current? hlt
  have hcurrent := GlyphBuffer.current_eq_ok hitem
  unfold SubstM.copy
  apply Keeps.get_bind
  apply Keeps.lift_bind h
  · intro e he
    rw [hcurrent] at he
    cases he
  · intro item' hitem'
    rw [hcurrent] at hitem'
    cases hitem'
    refine ⟨⟨h.table, h.input, ?_, hlt⟩, GlyphBuffer.progress_putItem hitem, rfl⟩
    intro x hx
    rcases Array.mem_push.mp hx with hx | rfl
    · exact h.output x hx
    · exact h.input x (Array.mem_of_getElem? hitem)

theorem keeps_allocateLigature (h : D.Holds s) :
    D.Keeps SubstM.allocateLigature s fun _ s' =>
      s' = { s with buffer := { s.buffer with nextLigature := s.buffer.nextLigature + 1 } } :=
  ⟨⟨h.table, h.input, h.output, h.inside⟩, rfl⟩

/-- What a chooser keeps is no part of the condition. -/
theorem keeps_keep (h : D.Holds s) (kept : σ) :
    D.Keeps (modify fun s => { s with kept } : SubstM σ Unit) s fun _ s' =>
      s' = { s with kept } :=
  ⟨⟨h.table, h.input, h.output, h.inside⟩, rfl⟩

theorem keeps_moveTo (h : D.Holds s) {place : Nat} (hplace : place ≤ s.buffer.size) :
    D.Keeps (SubstM.modifyBuffer fun b => { b with position := place }) s fun _ s' =>
      s'.buffer = { s.buffer with position := place } :=
  ⟨⟨h.table, h.input, h.output, hplace⟩, rfl⟩

end Steps

/-! ## §4 Lookups -/

/-- A glyph that is current and may be replaced, with its property. -/
structure Current (D : Discipline) (s : SubstState σ) (item : GlyphItem) (p : GlyphProperty) :
    Prop where
  current : ∃ x, s.buffer.current? = some x ∧ x.bare = item.bare
  free : D.free item.bare
  classified : p.basic.classNumber? = none → D.failure .invalidArgument

theorem Current.of_unmoved {s s' : SubstState σ} {item : GlyphItem} {p : GlyphProperty}
    (h : D.Current s item p) (hs : Unmoved s s') : D.Current s' item p where
  current := by
    obtain ⟨x, hx, hbare⟩ := h.current
    obtain ⟨x', hx', hbare'⟩ := hs.text.current? hx
    exact ⟨x', hx', hbare'.trans hbare⟩
  free := h.free
  classified := h.classified

theorem Current.of_buffer {s s' : SubstState σ} {item : GlyphItem} {p : GlyphProperty}
    (h : D.Current s item p) (hs : s'.buffer = s.buffer) : D.Current s' item p where
  current := hs.symm ▸ h.current
  free := h.free
  classified := h.classified

theorem Current.position_lt {s : SubstState σ} {item : GlyphItem} {p : GlyphProperty}
    (h : D.Current s item p) : s.buffer.position < s.buffer.size := by
  obtain ⟨x, hx, -⟩ := h.current
  exact GlyphBuffer.position_lt_of_current? hx

/-- What a lookup does at the current glyph: if it applies, it goes past that glyph, and otherwise
    it changes nothing. -/
inductive Step (D : Discipline) (s : SubstState σ) : Bool → SubstState σ → Prop
  | applied {s' : SubstState σ} (hadvance : s.buffer.Advance D.free s'.buffer) : Step D s true s'
  | notApplied {s' : SubstState σ} (hunmoved : Unmoved s s') : Step D s false s'

theorem Step.of_unmoved {s s' s'' : SubstState σ} {applied : Bool} (hs : Unmoved s s')
    (h : D.Step s' applied s'') : D.Step s applied s'' := by
  cases h with
  | applied hadvance =>
    exact .applied ⟨(GlyphBuffer.Progress.of_sameText hs.text).trans hadvance.toProgress,
      hs.text.position ▸ hadvance.moved⟩
  | notApplied hunmoved => exact .notApplied (hs.trans hunmoved)

theorem Keeps.step {x : SubstM σ Bool} {s s₀ : SubstState σ}
    (hx : D.Keeps x s fun applied s' => applied = true ∧ s₀.buffer.Advance D.free s'.buffer) :
    D.Keeps x s (D.Step s₀) :=
  hx.mono fun _ _ _ h => h.1 ▸ .applied h.2

/-- A program that may be used as a lookup. -/
def Lawful (D : Discipline) (x : SubstM σ Bool) : Prop :=
  ∀ s, D.Holds s → s.buffer.position < s.buffer.size → D.Keeps x s (D.Step s)

end Discipline

end OpenTypeLayout
