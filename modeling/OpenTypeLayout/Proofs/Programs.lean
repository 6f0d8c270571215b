import OpenTypeLayout.Error

/-!
# Programs that work on a state and may fail

Substituting and positioning are programs of one kind: they work on a state, and what they have done
before a failure stays done. This module says what running such a program gives.

- `Program.outcome` is the answer of a program together with the state that it leaves.
- `Program.Meets` says what holds where a program answers, and what holds where it fails.
- `Program.Extends` compares two programs that may differ only where the first one fails because
  lookups are nested too deeply.
-/

namespace OpenTypeLayout

namespace Program

variable {S α β : Type}

/-! ## §1 Outcomes -/

/-- The answer of a program, or its failure, together with the state that it leaves. -/
def outcome (x : Program S α) (s : S) : Except LayoutError α × S := x.run.run s

@[simp] theorem outcome_pure (a : α) (s : S) : outcome (pure a : Program S α) s = (.ok a, s) := rfl

@[simp] theorem outcome_throw (e : LayoutError) (s : S) :
    outcome (throw e : Program S α) s = (.error e, s) := rfl

@[simp] theorem outcome_get (s : S) : outcome (get : Program S S) s = (.ok s, s) := rfl

@[simp] theorem outcome_modify (f : S → S) (s : S) :
    outcome (modify f : Program S PUnit) s = (.ok ⟨⟩, f s) := rfl

@[simp] theorem outcome_lift (r : Except LayoutError α) (s : S) :
    outcome (liftM r : Program S α) s = (r, s) := rfl

/-- An outcome is known once the answer is. -/
theorem outcome_eq_of_answer {result : Except LayoutError α × S} {answer : Except LayoutError α}
    (h : result.1 = answer) : result = (answer, result.2) := Prod.ext h rfl

theorem outcome_bind (x : Program S α) (f : α → Program S β) (s : S) :
    outcome (x >>= f) s =
      match outcome x s with
      | (.ok a, s') => outcome (f a) s'
      | (.error e, s') => (.error e, s') := by
  unfold outcome ExceptT.run StateT.run
  simp only [bind, ExceptT.bind, ExceptT.mk, StateT.bind, ExceptT.bindCont]
  cases x s with
  | mk answer s' => cases answer <;> rfl

section Bind

variable {x : Program S α} {f : α → Program S β} {s s' : S}

theorem outcome_bind_ok {a : α} (hx : outcome x s = (.ok a, s')) :
    outcome (x >>= f) s = outcome (f a) s' := by
  rw [outcome_bind, hx]

theorem outcome_bind_error {e : LayoutError} (hx : outcome x s = (.error e, s')) :
    outcome (x >>= f) s = (.error e, s') := by
  rw [outcome_bind, hx]

@[simp] theorem outcome_get_bind (f : S → Program S β) (s : S) :
    outcome (get >>= f) s = outcome (f s) s := rfl

/-- If a program answers, so does its first part. -/
theorem outcome_bind_eq_ok {b : β} (h : outcome (x >>= f) s = (.ok b, s')) :
    ∃ a t, outcome x s = (.ok a, t) ∧ outcome (f a) t = (.ok b, s') := by
  rcases hx : outcome x s with ⟨_ | a, t⟩
  · rw [outcome_bind_error hx] at h
    cases h
  · rw [outcome_bind_ok hx] at h
    exact ⟨a, t, rfl, h⟩

/-- Programs whose parts have the same outcomes have the same outcome. -/
theorem outcome_bind_congr {x' : Program S α} {f' : α → Program S β}
    (hx : outcome x' s = outcome x s)
    (hf : ∀ a t, outcome x s = (.ok a, t) → outcome (f' a) t = outcome (f a) t) :
    outcome (x' >>= f') s = outcome (x >>= f) s := by
  rcases hrun : outcome x s with ⟨e | a, t⟩
  · rw [outcome_bind_error hrun, outcome_bind_error (hx.trans hrun)]
  · rw [outcome_bind_ok hrun, outcome_bind_ok (hx.trans hrun), hf a t hrun]

end Bind

/-! ## §2 Conditions on answers and failures -/

/-- From a state, a program either answers, and a condition on the answer and the state left holds,
    or fails, and a condition on the failure and the state left holds. -/
def Meets (x : Program S α) (s : S) (answers : α → S → Prop) (fails : LayoutError → S → Prop) :
    Prop :=
  match outcome x s with
  | (.ok a, s') => answers a s'
  | (.error e, s') => fails e s'

section Meets

variable {x : Program S α} {s s' : S} {answers answers' : α → S → Prop}
variable {fails fails' : LayoutError → S → Prop}

theorem meets_true (x : Program S α) (s : S) : Meets x s (fun _ _ => True) fun _ _ => True := by
  unfold Meets
  split <;> trivial

theorem Meets.of_ok (h : Meets x s answers fails) {a : α} (hx : outcome x s = (.ok a, s')) :
    answers a s' := by
  simpa only [Meets, hx] using h

theorem Meets.of_error (h : Meets x s answers fails) {e : LayoutError}
    (hx : outcome x s = (.error e, s')) : fails e s' := by
  simpa only [Meets, hx] using h

theorem Meets.mono (h : Meets x s answers fails) (hanswers : ∀ a s', answers a s' → answers' a s')
    (hfails : ∀ e s', fails e s' → fails' e s') : Meets x s answers' fails' := by
  unfold Meets
  rcases hx : outcome x s with ⟨_ | a, t⟩
  · exact hfails _ t (h.of_error hx)
  · exact hanswers a t (h.of_ok hx)

theorem Meets.bind {f : α → Program S β} {ends : β → S → Prop} (hx : Meets x s answers fails)
    (hf : ∀ a s', answers a s' → Meets (f a) s' ends fails) : Meets (x >>= f) s ends fails := by
  unfold Meets
  rcases hrun : outcome x s with ⟨_ | a, t⟩
  · rw [outcome_bind_error hrun]
    exact hx.of_error hrun
  · rw [outcome_bind_ok hrun]
    exact hf a t (hx.of_ok hrun)

end Meets

/-! ## §3 Programs that go on where others are cut off -/

/-- Wherever the first program does not fail because lookups are nested too deeply, the second one
    has the same outcome. -/
def Extends (x y : Program S α) : Prop :=
  ∀ s, (outcome x s).1 ≠ .error .tooManyNestedContexts → outcome y s = outcome x s

namespace Extends

theorem refl (x : Program S α) : Extends x x := fun _ _ => rfl

/-- A program that is cut off at once is extended by any other. -/
theorem cutOff (y : Program S α) : Extends (throw .tooManyNestedContexts) y :=
  fun _ h => absurd rfl h

theorem bind {x y : Program S α} {f g : α → Program S β} (hx : Extends x y)
    (hf : ∀ a, Extends (f a) (g a)) : Extends (x >>= f) (y >>= g) := by
  intro s h
  rcases hrun : outcome x s with ⟨e | a, t⟩
  · rw [outcome_bind_error hrun] at h ⊢
    have hy := hx s (by simpa [hrun] using h)
    rw [hrun] at hy
    exact outcome_bind_error hy
  · rw [outcome_bind_ok hrun] at h ⊢
    have hy := hx s (by simp [hrun])
    rw [hrun] at hy
    rw [outcome_bind_ok hy]
    exact hf a t h

/-- Programs that begin alike are compared by how they go on. -/
theorem after {x : Program S α} {f g : α → Program S β} (hf : ∀ a, Extends (f a) (g a)) :
    Extends (x >>= f) (x >>= g) := (refl x).bind hf

theorem ite {condition : Prop} [Decidable condition] {x y x' y' : Program S α} (hx : Extends x y)
    (hx' : Extends x' y') :
    Extends (if condition then x else x') (if condition then y else y') := by
  split
  · exact hx
  · exact hx'

end Extends

end Program

end OpenTypeLayout
