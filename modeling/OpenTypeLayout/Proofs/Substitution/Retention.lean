import OpenTypeLayout.Proofs.Settled
import OpenTypeLayout.Proofs.Substitution.Parts

/-!
# What is known of the input

While a lookup is applied at one glyph, the input is only read. Properties that have been looked up
are kept with its glyphs, and once a property is kept it is what lookups go by, whatever classes are
recorded later. So a stretch of the input in which all properties are kept looks the same to every
lookup.

- `SubstState.Retained` says that nothing that is known of the input is lost.
- `SubstState.KnownBetween` says that a stretch of the input is known, and `Retained.agree` that
  then the same glyphs count in it before and after.
- `SubstM.Retains` says that a program which answers has lost nothing, and what else holds then. §3
  has one lemma for each single step, and §4 one for each lookup that replaces glyphs.
-/

namespace OpenTypeLayout

/-! ## §1 States -/

namespace Gdef

/-- A property that is kept decides whether a glyph counts. -/
theorem admits_of_known {g : Gdef} (hkeeps : g.keepsProperties = true) {x : GlyphItem}
    {p : GlyphProperty} (hx : x.known = some p) (flag : LookupFlag) :
    admits (some g) flag x = flag.admits p := by
  have hproperty : g.propertyOf x = p := by simp [propertyOf, hx, hkeeps]
  rw [admits, check, hproperty]
  cases flag.admits p <;> rfl

theorem keepsProperties_of_record {g : Gdef} {glyph : GlyphId} {p : GlyphProperty}
    {answer : Bool × Gdef} (h : g.record glyph p = .ok answer) :
    answer.2.keepsProperties = g.keepsProperties := by
  unfold record at h
  repeat' split at h
  all_goals cases h
  all_goals rfl

theorem known_remember_of_keeps {g : Gdef} (hkeeps : g.keepsProperties = true) (x : GlyphItem) :
    (remember (some g) x).known.isSome = true := by
  simp [remember, hkeeps]

end Gdef

namespace SubstState

variable {σ : Type}

/-- The input is as large as before, and what was known of its glyphs is still known. Properties are
    kept from now on if they were kept before. -/
structure Retained (s s' : SubstState σ) : Prop where
  size : s'.buffer.size = s.buffer.size
  keeps : s'.gdef.map Gdef.keepsProperties = s.gdef.map Gdef.keepsProperties
  known : ∀ (i : Nat) (x : GlyphItem), s.buffer.input[i]? = some x → x.known.isSome = true →
    s'.buffer.input[i]? = some x

/-- Properties are kept, and those of the glyphs behind `low` and up to `high` have been. -/
structure KnownBetween (s : SubstState σ) (low high : Nat) : Prop where
  keeps : ∀ g, s.gdef = some g → g.keepsProperties = true
  known : s.gdef.isSome = true → ∀ (i : Nat) (x : GlyphItem), low < i → i ≤ high →
    s.buffer.input[i]? = some x → x.known.isSome = true

variable {s s' t : SubstState σ} {low high : Nat}

namespace Retained

theorem refl (s : SubstState σ) : Retained s s := ⟨rfl, rfl, fun _ _ hx _ => hx⟩

theorem trans (h : Retained s t) (h' : Retained t s') : Retained s s' where
  size := h'.size.trans h.size
  keeps := h'.keeps.trans h.keeps
  known i x hx hknown := h'.known i x (h.known i x hx hknown) hknown

theorem of_input (hinput : s'.buffer.input = s.buffer.input) (hgdef : s'.gdef = s.gdef) :
    Retained s s' where
  size := congrArg Array.size hinput
  keeps := by rw [hgdef]
  known i x hx _ := by rw [hinput, hx]

theorem isSome_gdef (h : Retained s s') : s'.gdef.isSome = s.gdef.isSome := by
  simpa using congrArg Option.isSome h.keeps

theorem keepsProperties (h : Retained s s')
    (hkeeps : ∀ g, s.gdef = some g → g.keepsProperties = true)
    (g' : Gdef) (hg' : s'.gdef = some g') : g'.keepsProperties = true := by
  have hmap := h.keeps
  rw [hg', Option.map_some, eq_comm, Option.map_eq_some_iff] at hmap
  obtain ⟨g, hg, heq⟩ := hmap
  rw [← heq, hkeeps g hg]

/-- A glyph of which something is known is still there. -/
theorem getElem?_eq (h : Retained s s') (hs : s.KnownBetween low high)
    (hgdef : s.gdef.isSome = true) {i : Nat} (hlow : low < i) (hhigh : i ≤ high) :
    s'.buffer.input[i]? = s.buffer.input[i]? := by
  cases hx : s.buffer.input[i]? with
  | none =>
    rw [Array.getElem?_eq_none_iff] at hx ⊢
    exact Nat.le_trans (Nat.le_of_eq h.size) hx
  | some x => exact h.known i x hx (hs.known hgdef i x hlow hhigh hx)

theorem knownBetween (h : Retained s s') (hs : s.KnownBetween low high) :
    s'.KnownBetween low high where
  keeps := h.keepsProperties hs.keeps
  known hgdef i x hlow hhigh hx := by
    rw [h.isSome_gdef] at hgdef
    rw [h.getElem?_eq hs hgdef hlow hhigh] at hx
    exact hs.known hgdef i x hlow hhigh hx

/-- Where the input is known, the same glyphs count before and after. -/
theorem agree (h : Retained s s') (hs : s.KnownBetween low high) (flag : LookupFlag) :
    GlyphFilter.Agree (.mk s.gdef flag) s.buffer.input (.mk s'.gdef flag) s'.buffer.input
      low high where
  size := h.size
  admits i hlow hhigh := by
    cases hgdef : s.gdef with
    | none =>
      -- without a table every glyph counts
      have hgdef' : s'.gdef = none := by simpa [hgdef] using h.isSome_gdef
      have hall : ∀ items : Array GlyphItem,
          items[i]?.any (GlyphFilter.mk none flag).admits = decide (i < items.size) := by
        intro items
        by_cases hi : i < items.size <;> simp [hi, GlyphFilter.admits, Gdef.admits, Gdef.check]
      rw [hgdef', hall, hall, show s'.buffer.input.size = s.buffer.input.size from h.size]
    | some g =>
      have hsome : s.gdef.isSome = true := by rw [hgdef, Option.isSome_some]
      obtain ⟨g', hg'⟩ := Option.isSome_iff_exists.mp (h.isSome_gdef.trans hsome)
      rw [h.getElem?_eq hs hsome hlow hhigh, hg']
      cases hx : s.buffer.input[i]? with
      | none => rfl
      | some x =>
        obtain ⟨p, hp⟩ := Option.isSome_iff_exists.mp (hs.known hsome i x hlow hhigh hx)
        rw [Option.any_some, Option.any_some, GlyphFilter.admits, GlyphFilter.admits,
          Gdef.admits_of_known (hs.keeps g hgdef) hp,
          Gdef.admits_of_known (h.keepsProperties hs.keeps g' hg') hp]

end Retained

theorem KnownBetween.mono (hs : s.KnownBetween low high) {low' high' : Nat} (hlow : low ≤ low')
    (hhigh : high' ≤ high) : s.KnownBetween low' high' where
  keeps := hs.keeps
  known hgdef i x hlow' hhigh' := hs.known hgdef i x (by omega) (by omega)

end SubstState

/-! ## §2 Programs -/

namespace SubstM

open Program

open SubstState (Retained)

variable {σ α β : Type}

/-- From a state, a program that answers has lost nothing that was known of the input, and something
    more holds. -/
def Retains (x : SubstM σ α) (s : SubstState σ) (answers : α → SubstState σ → Prop) : Prop :=
  x.Meets s (fun a s' => Retained s s' ∧ answers a s') fun _ _ => True

section Programs

variable {x : SubstM σ α} {s s' : SubstState σ} {answers answers' : α → SubstState σ → Prop}

theorem Retains.pure {a : α} (ha : answers a s) : Retains (Pure.pure a) s answers :=
  ⟨.refl s, ha⟩

theorem Retains.throw {e : LayoutError} : Retains (throw e : SubstM σ α) s answers := trivial

theorem Retains.mono (hx : Retains x s answers) (himp : ∀ a s', answers a s' → answers' a s') :
    Retains x s answers' :=
  Meets.mono hx (fun a s' h => ⟨h.1, himp a s' h.2⟩) fun _ _ h => h

theorem Retains.bind {f : α → SubstM σ β} {ends : β → SubstState σ → Prop}
    (hx : Retains x s answers)
    (hf : ∀ a s', Retained s s' → answers a s' → Retains (f a) s' ends) :
    Retains (x >>= f) s ends :=
  Meets.bind hx fun a s' h =>
    Meets.mono (hf a s' h.1 h.2) (fun _ _ h' => ⟨h.1.trans h'.1, h'.2⟩) fun _ _ h' => h'

theorem Retains.get_bind {f : SubstState σ → SubstM σ β} {ends : β → SubstState σ → Prop}
    (hf : Retains (f s) s ends) : Retains (get >>= f) s ends := hf

theorem Retains.lift_bind {r : Except LayoutError α} {f : α → SubstM σ β}
    {ends : β → SubstState σ → Prop} (hf : ∀ a, r = .ok a → Retains (f a) s ends) :
    Retains ((liftM r : SubstM σ α) >>= f) s ends := by
  cases r with
  | error e => exact trivial
  | ok a => exact hf a rfl

theorem Retains.of_ok (hx : Retains x s answers) {a : α} (hrun : x.outcome s = (.ok a, s')) :
    Retained s s' ∧ answers a s' := Meets.of_ok hx hrun

end Programs

/-! ## §3 Single steps -/

section Steps

variable {s : SubstState σ}

theorem retains_rememberInput (low high : Nat) :
    Retains (rememberInput low high) s fun _ s' => s'.buffer.position = s.buffer.position := by
  refine ⟨⟨size_rememberRange _ _ _ _, rfl, fun i x hx hknown => ?_⟩, rfl⟩
  -- nothing changes for a glyph of which the property is known
  obtain ⟨p, hp⟩ := Option.isSome_iff_exists.mp hknown
  show (rememberRange s.gdef s.buffer.input low high)[i]? = some x
  rw [getElem?_rememberRange, hx, Option.map_some, Gdef.remember_of_known hp, ite_self]

theorem retains_rememberOutput (low : Nat) :
    Retains (rememberOutput low) s fun _ s' => s'.buffer.position = s.buffer.position :=
  ⟨.of_input rfl rfl, rfl⟩

theorem retains_emit (count : Nat) (glyphs : Array GlyphId) (component ligature : UInt16) :
    Retains (emit count glyphs component ligature) s fun _ s' =>
      s'.buffer.position = s.buffer.position + count :=
  .get_bind (.lift_bind fun _ _ => ⟨.of_input rfl rfl, rfl⟩)

theorem retains_copy :
    Retains copy s fun _ s' => s'.buffer.position = s.buffer.position + 1 :=
  .get_bind (.lift_bind fun _ _ => ⟨.of_input rfl rfl, rfl⟩)

theorem retains_allocateLigature :
    Retains allocateLigature s fun _ s' => s'.buffer.position = s.buffer.position :=
  ⟨.of_input rfl rfl, rfl⟩

theorem retains_moveTo (place : Nat) :
    Retains (modifyBuffer fun b => { b with position := place }) s fun _ s' =>
      s'.buffer.position = place :=
  ⟨.of_input rfl rfl, rfl⟩

/-- What a chooser keeps is no part of the text. -/
theorem retains_keep (kept : σ) :
    Retains (modify fun s => { s with kept } : SubstM σ Unit) s fun _ s' => s'.buffer = s.buffer :=
  ⟨.of_input rfl rfl, rfl⟩

theorem retains_recordClass (p : GlyphProperty) (glyph : GlyphId) :
    Retains (recordClass p glyph) s fun _ s' => s'.buffer = s.buffer := by
  unfold recordClass
  apply Retains.get_bind
  cases hg : s.gdef with
  | none => exact .pure rfl
  | some g =>
    dsimp only
    split
    case isFalse => exact .pure rfl
    case isTrue =>
      refine .lift_bind fun answer hanswer => ⟨⟨rfl, ?_, fun _ _ hx _ => hx⟩, rfl⟩
      rw [hg]
      exact congrArg some (Gdef.keepsProperties_of_record hanswer)

theorem retains_forM_recordClass (p : GlyphProperty) (glyphs : List GlyphId) :
    Retains (glyphs.forM (recordClass (σ := σ) p)) s fun _ s' => s'.buffer = s.buffer := by
  induction glyphs generalizing s with
  | nil => exact .pure rfl
  | cons glyph rest ih =>
    refine (retains_recordClass p glyph).bind fun _ s' _ hs' => ?_
    exact ih.mono fun _ s'' hs'' => hs''.trans hs'

theorem retains_current (flag : LookupFlag) :
    Retains (current flag) s fun _ s' => s'.buffer.position = s.buffer.position :=
  .get_bind (.lift_bind fun _ _ => (retains_rememberInput _ _).bind fun _ _ _ hs' => .pure hs')

end Steps

/-! ## §4 Lookups that replace the current glyph -/

/-- A lookup that has applied has not gone past `bound`. -/
def EndsBy (bound : Nat) (applied : Bool) (s : SubstState σ) : Prop :=
  applied = true → s.buffer.position ≤ bound

theorem endsBy_notApplied (bound : Nat) (s : SubstState σ) : EndsBy bound false s :=
  fun h => absurd h Bool.false_ne_true

section Lookups

variable {s : SubstState σ} {bound : Nat}

theorem retains_notApplied : Retains (pure false) s (EndsBy bound) := .pure (endsBy_notApplied _ _)

/-- What is done at the current glyph begins at the same position. -/
theorem retains_atCurrent {flag : LookupFlag} {action : GlyphItem → GlyphProperty → SubstM σ Bool}
    (haction : ∀ t item p, Retained s t → t.buffer.position = s.buffer.position →
      Retains (action item p) t (EndsBy bound)) :
    Retains (atCurrent flag action) s (EndsBy bound) := by
  refine (retains_current flag).bind fun found t hretained ht => ?_
  cases found with
  | none => exact retains_notApplied
  | some found => exact haction t found.1 found.2 hretained ht

/-- Writing glyphs in the place of the current one, and then recording something about them, goes
    past that glyph only. -/
theorem retains_replaceCurrent (glyphs : Array GlyphId) {records : SubstM σ Unit}
    (hrecords : ∀ s, Retains records s fun _ s' => s'.buffer = s.buffer)
    (hbound : s.buffer.position + 1 ≤ bound) :
    Retains (do emit 1 glyphs inherit inherit; records; return true) s (EndsBy bound) := by
  refine (retains_emit 1 glyphs inherit inherit).bind fun _ s₁ _ hs₁ => ?_
  refine (hrecords s₁).bind fun _ s₂ _ hs₂ => .pure fun _ => ?_
  rw [hs₂, hs₁]
  exact hbound

theorem retains_applySingle (subtables : Array SingleSubst) (item : GlyphItem) (p : GlyphProperty)
    (hbound : s.buffer.position + 1 ≤ bound) :
    Retains (applySingle subtables item p) s (EndsBy bound) := by
  refine .lift_bind fun found _ => ?_
  cases found with
  | none => exact retains_notApplied
  | some glyph =>
    exact retains_replaceCurrent #[glyph] (fun _ => retains_recordClass p glyph) hbound

theorem retains_applyMultiple (subtables : Array MultipleSubst) (item : GlyphItem)
    (p : GlyphProperty) (hbound : s.buffer.position + 1 ≤ bound) :
    Retains (applyMultiple subtables item p) s (EndsBy bound) := by
  refine .lift_bind fun found _ => ?_
  cases found with
  | none => exact retains_notApplied
  | some glyphs =>
    exact retains_replaceCurrent glyphs (fun _ => retains_forM_recordClass _ _) hbound

theorem retains_applyAlternate (chooser : AlternateChooser σ) (subtables : Array AlternateSubst)
    (item : GlyphItem) (p : GlyphProperty) (hbound : s.buffer.position + 1 ≤ bound) :
    Retains (applyAlternate chooser subtables item p) s (EndsBy bound) := by
  refine .lift_bind fun found _ => ?_
  cases found with
  | none => exact retains_notApplied
  | some alternates =>
    apply Retains.get_bind
    refine (retains_keep _).bind fun _ t _ ht => ?_
    split
    case h_1 => exact .throw
    case h_2 glyph _ =>
      exact retains_replaceCurrent #[glyph] (fun _ => retains_recordClass p glyph) (ht ▸ hbound)

end Lookups

end SubstM

end OpenTypeLayout
