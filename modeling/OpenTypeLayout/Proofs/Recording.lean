import OpenTypeLayout.Proofs.Programs

/-!
# Programs that keep a record

What a program does on its way is found out by another program, which does the same and keeps a
record beside the state. The record has no influence on anything, so dropping it from what the
second program leaves gives what the first one leaves.

- `Beside` says how a record is put beside a state, and how both are taken apart again.
- `Program.within` runs a program that knows nothing of the record, and `Program.note` changes only
  the record.
- `Program.Records` compares both programs from a state and a record, and says what holds of the
  record.
- `Program.Tracks` does so for a relation that goes on along a program.
-/

namespace OpenTypeLayout

/-- How a record is kept beside a state. -/
structure Beside (S R T : Type) where
  /-- The state together with a record. -/
  join : S → R → T
  /-- The state without the record. -/
  state : T → S
  /-- The record. -/
  record : T → R
  state_join : ∀ s r, state (join s r) = s
  record_join : ∀ s r, record (join s r) = r

namespace Program

variable {S R T α β : Type} (k : Beside S R T)

/-! ## §1 Programs with a record -/

/-- Run a program in the state without the record. -/
def within (x : Program S α) : Program T α :=
  ExceptT.mk fun t =>
    let (answer, s) := outcome x (k.state t)
    (answer, k.join s (k.record t))

/-- Change the record, by what the state is. -/
def note (f : S → R → R) : Program T Unit :=
  modify fun t => k.join (k.state t) (f (k.state t) (k.record t))

/-! ## §2 Comparing programs -/

/-- With a record, one program has the outcome that another one has without. Conditions hold of the
    record that it leaves, one if it answers and another if it fails. -/
def Records (x' : Program T α) (x : Program S α) (s : S) (r : R) (answers : α → S → R → Prop)
    (fails : LayoutError → S → R → Prop) : Prop :=
  ∃ r', outcome x' (k.join s r) = ((outcome x s).1, k.join (outcome x s).2 r') ∧
    Meets x s (fun a s' => answers a s' r') fun e s' => fails e s' r'

/-- A program that leaves the record as it is. -/
def Quiet (x' : Program T α) (x : Program S α) : Prop :=
  ∀ s r, outcome x' (k.join s r) = ((outcome x s).1, k.join (outcome x s).2 r)

variable {k}

theorem quiet_within (x : Program S α) : Quiet k (within k x) x := by
  intro s r
  show ((outcome x (k.state (k.join s r))).1, k.join _ (k.record (k.join s r))) = _
  rw [k.state_join, k.record_join]
  rfl

theorem quiet_pure (a : α) : Quiet k (pure a) (pure a) := fun _ _ => rfl

theorem quiet_throw (e : LayoutError) : Quiet k (throw e : Program T α) (throw e) := fun _ _ => rfl

theorem quiet_lift (a : Except LayoutError α) :
    Quiet k (liftM a : Program T α) (liftM a : Program S α) := fun _ _ => rfl

theorem outcome_note (f : S → R → R) (s : S) (r : R) :
    outcome (note k f) (k.join s r) = (.ok (), k.join s (f s r)) := by
  show (Except.ok (), k.join (k.state (k.join s r)) (f (k.state (k.join s r)) (k.record _))) = _
  rw [k.state_join, k.record_join]

section Records

variable {x' : Program T α} {x : Program S α} {s : S} {r : R}
variable {answers answers' : α → S → R → Prop} {fails fails' : LayoutError → S → R → Prop}
variable {ends : β → S → R → Prop}

theorem Records.pure {a : α} (ha : answers a s r) :
    Records k (Pure.pure a) (Pure.pure a) s r answers fails := ⟨r, rfl, ha⟩

theorem Records.throw {e : LayoutError} (he : fails e s r) :
    Records k (throw e : Program T α) (throw e) s r answers fails := ⟨r, rfl, he⟩

/-- From what is known of an answer, and of the state and the record that come with it,
    more follows. -/
theorem Records.mono (h : Records k x' x s r answers fails)
    (hanswers : ∀ a s' r', outcome x s = (.ok a, s') → answers a s' r' → answers' a s' r')
    (hfails : ∀ e s' r', fails e s' r' → fails' e s' r') :
    Records k x' x s r answers' fails' := by
  obtain ⟨r', hrun, hmeets⟩ := h
  refine ⟨r', hrun, ?_⟩
  unfold Meets
  rcases hx : outcome x s with ⟨e | a, s'⟩
  · exact hfails e s' r' (hmeets.of_error hx)
  · exact hanswers a s' r' hx (hmeets.of_ok hx)

theorem Records.bind {f' : α → Program T β} {f : α → Program S β}
    (h : Records k x' x s r answers fails)
    (hf : ∀ a s' r', outcome x s = (.ok a, s') → answers a s' r' →
      Records k (f' a) (f a) s' r' ends fails) :
    Records k (x' >>= f') (x >>= f) s r ends fails := by
  obtain ⟨r', hrun, hmeets⟩ := h
  unfold Records Meets
  rcases hx : outcome x s with ⟨e | a, s'⟩
  all_goals rw [hx] at hrun
  · -- the record of a failure is that of the part that has failed
    rw [outcome_bind_error hrun, outcome_bind_error hx]
    exact ⟨r', rfl, hmeets.of_error hx⟩
  · rw [outcome_bind_ok hrun, outcome_bind_ok hx]
    exact hf a s' r' hx (hmeets.of_ok hx)

/-- A program may look at the state first, but not at the record. -/
theorem Records.get_bind {f' : T → Program T β} {f : S → Program S β}
    (hf : Records k (f' (k.join s r)) (f s) s r ends fails) :
    Records k (get >>= f') (get >>= f) s r ends fails := hf

/-- Something is noted, and then things go on. -/
theorem Records.note_bind {g : S → R → R} {f' : Unit → Program T α}
    (hf : Records k (f' ()) x s (g s r) answers fails) :
    Records k (note k g >>= f') x s r answers fails := by
  obtain ⟨r', hrun, hmeets⟩ := hf
  exact ⟨r', (outcome_bind_ok (outcome_note g s r)).trans hrun, hmeets⟩

/-- Something else may follow where a program has answered, if it only has to do with the record. -/
theorem Records.finish {f' : α → Program T α} (h : Records k x' x s r answers fails)
    (hf : ∀ a s' r', outcome x s = (.ok a, s') → answers a s' r' →
      Records k (f' a) (Pure.pure a) s' r' answers' fails) :
    Records k (x' >>= f') x s r answers' fails := by
  have hbind := h.bind (f := Pure.pure) hf
  rwa [bind_pure] at hbind

/-- What a program has done is noted afterwards, with what it has answered. -/
theorem Records.bind_note {g : α → S → R → R}
    (h : Records k x' x s r (fun a s' r' => answers a s' (g a s' r')) fails) :
    Records k (do let a ← x'; note k (g a); return a) x s r answers fails :=
  h.finish fun _ _ _ _ ha => .note_bind (.pure ha)

/-- What two conditions say may be put together: there is one record only. -/
theorem Records.and (h : Records k x' x s r answers fails)
    (h' : Records k x' x s r answers' fails') :
    Records k x' x s r (fun a s' r' => answers a s' r' ∧ answers' a s' r')
      fun e s' r' => fails e s' r' ∧ fails' e s' r' := by
  obtain ⟨r₁, hrun₁, hmeets₁⟩ := h
  obtain ⟨r₂, hrun₂, hmeets₂⟩ := h'
  have hsame : r₁ = r₂ := by
    have hrecord := congrArg (fun run => k.record run.2) (hrun₁.symm.trans hrun₂)
    dsimp only at hrecord
    rwa [k.record_join, k.record_join] at hrecord
  subst hsame
  refine ⟨r₁, hrun₁, ?_⟩
  unfold Meets
  rcases hx : outcome x s with ⟨e | a, s'⟩
  · exact ⟨hmeets₁.of_error hx, hmeets₂.of_error hx⟩
  · exact ⟨hmeets₁.of_ok hx, hmeets₂.of_ok hx⟩

theorem Quiet.records (h : Quiet k x' x)
    (hanswers : ∀ a s', outcome x s = (.ok a, s') → answers a s' r)
    (hfails : ∀ e s', outcome x s = (.error e, s') → fails e s' r) :
    Records k x' x s r answers fails := by
  refine ⟨r, h s r, ?_⟩
  unfold Meets
  rcases hx : outcome x s with ⟨e | a, s'⟩
  · exact hfails e s' hx
  · exact hanswers a s' hx

theorem Quiet.bind {f' : α → Program T β} {f : α → Program S β} (h : Quiet k x' x)
    (hfails : ∀ e s', outcome x s = (.error e, s') → fails e s' r)
    (hf : ∀ a s', outcome x s = (.ok a, s') → Records k (f' a) (f a) s' r ends fails) :
    Records k (x' >>= f') (x >>= f) s r ends fails := by
  have hx : Records k x' x s r (fun _ _ r' => r' = r) fails := h.records (fun _ _ _ => rfl) hfails
  refine hx.bind fun a s' r' hrun hsame => ?_
  subst hsame
  exact hf a s' hrun

end Records

/-! ## §3 Relations that go on -/

/-- A relation between states with records, before and after a program. -/
structure Tracking (S R : Type) where
  /-- The state and the record after something has been done, to those before it. -/
  rel : S → R → S → R → Prop
  refl : ∀ s r, rel s r s r
  trans : ∀ {s s' s'' r r' r''}, rel s r s' r' → rel s' r' s'' r'' → rel s r s'' r''

/-- With a record, one program has the outcome that another one has without, and what is before it
    is related to what is after it. -/
def Tracks (k : Beside S R T) (d : Tracking S R) (x' : Program T α) (x : Program S α) : Prop :=
  ∀ s r, Records k x' x s r (fun _ s' r' => d.rel s r s' r') fun _ s' r' => d.rel s r s' r'

theorem meets_const {x : Program S α} {s : S} {P : S → Prop} :
    Meets x s (fun _ s' => P s') (fun _ s' => P s') ↔ P (outcome x s).2 := by
  unfold Meets
  rcases outcome x s with ⟨e | a, s'⟩ <;> exact Iff.rfl

namespace Tracks

variable {d : Tracking S R} {x' : Program T α} {x : Program S α}

/-- The record that is left, whether the program answers or fails. -/
theorem iff_exists : Tracks k d x' x ↔ ∀ s r, ∃ r',
    outcome x' (k.join s r) = ((outcome x s).1, k.join (outcome x s).2 r') ∧
      d.rel s r (outcome x s).2 r' :=
  forall_congr' fun _ => forall_congr' fun _ => exists_congr fun _ =>
    and_congr_right fun _ => meets_const

theorem of_quiet (h : Quiet k x' x) (hx : ∀ s r, d.rel s r (outcome x s).2 r) : Tracks k d x' x :=
  iff_exists.mpr fun s r => ⟨r, h s r, hx s r⟩

theorem pure (a : α) : Tracks k d (Pure.pure a) (Pure.pure a) := of_quiet (quiet_pure a) d.refl

theorem throw (e : LayoutError) : Tracks k d (throw e : Program T α) (throw e) :=
  of_quiet (quiet_throw e) d.refl

theorem lift (a : Except LayoutError α) :
    Tracks k d (liftM a : Program T α) (liftM a : Program S α) := of_quiet (quiet_lift a) d.refl

theorem bind {f' : α → Program T β} {f : α → Program S β} (h : Tracks k d x' x)
    (hf : ∀ a, Tracks k d (f' a) (f a)) : Tracks k d (x' >>= f') (x >>= f) := fun s r =>
  (h s r).bind fun a s' r' _ hfirst =>
    (hf a s' r').mono (fun _ _ _ _ hsecond => d.trans hfirst hsecond) fun _ _ _ => d.trans hfirst

theorem get_bind {f' : T → Program T β} {f : S → Program S β}
    (hf : ∀ s r, Tracks k d (f' (k.join s r)) (f s)) : Tracks k d (get >>= f') (get >>= f) :=
  fun s r => hf s r s r

theorem ite {condition : Prop} [Decidable condition] {y' : Program T α} {y : Program S α}
    (hx : Tracks k d x' x) (hy : Tracks k d y' y) :
    Tracks k d (if condition then x' else y') (if condition then x else y) := by
  split
  · exact hx
  · exact hy

end Tracks

end Program

end OpenTypeLayout
