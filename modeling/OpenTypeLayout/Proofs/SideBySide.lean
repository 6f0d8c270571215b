import OpenTypeLayout.Proofs.Programs

/-!
# Programs side by side

What a program has to do with some part of its input is said by comparing two runs, between which
only that part is different. Both runs are gone through side by side.

- `Pointwise` holds of two arrays with related items.
- `Program.Relates` says of two programs that from related states they either both answer or both
  fail in the same way, and that the states which they leave are related again. It is put together
  along a program by `Relates.bind`.
-/

namespace OpenTypeLayout

/-! ## §1 Arrays -/

/-- Two arrays are of the same size, and their items at each index are related. -/
def Pointwise {α β : Type} (related : α → β → Prop) (xs : Array α) (ys : Array β) : Prop :=
  ∀ i : Nat, Option.Rel related xs[i]? ys[i]?

namespace Pointwise

variable {α β γ : Type} {related : α → β → Prop} {xs xs' : Array α} {ys ys' : Array β}

/-- At each index there are either two items, which are related, or none. -/
theorem getElem?_cases (h : Pointwise related xs ys) (i : Nat) :
    (xs[i]? = none ∧ ys[i]? = none) ∨
      ∃ x y, xs[i]? = some x ∧ ys[i]? = some y ∧ related x y := by
  have hi := h i
  revert hi
  cases xs[i]? with
  | none =>
    intro hi
    cases hy : ys[i]? with
    | none => exact .inl ⟨rfl, rfl⟩
    | some y => exact nomatch hy ▸ hi
  | some x =>
    intro hi
    cases hy : ys[i]? with
    | none => exact nomatch hy ▸ hi
    | some y => exact .inr ⟨x, y, rfl, rfl, Option.rel_some_some.mp (hy ▸ hi)⟩

theorem size_eq (h : Pointwise related xs ys) : ys.size = xs.size := by
  -- an index is past the end of both arrays, or of neither
  have hlt : ∀ i, i < ys.size ↔ i < xs.size := by
    intro i
    rcases h.getElem?_cases i with ⟨hx, hy⟩ | ⟨x, y, hx, hy, -⟩
    · rw [Array.getElem?_eq_none_iff] at hx hy
      omega
    · exact iff_of_true (Array.getElem?_eq_some_iff.mp hy).1 (Array.getElem?_eq_some_iff.mp hx).1
  have := hlt xs.size
  have := hlt ys.size
  omega

/-- Whatever related items have in common, items at the same index do. -/
theorem map_getElem? {f : α → γ} {g : β → γ} (h : Pointwise related xs ys)
    (hfg : ∀ x y, related x y → g y = f x) (i : Nat) : ys[i]?.map g = xs[i]?.map f := by
  rcases h.getElem?_cases i with ⟨hx, hy⟩ | ⟨x, y, hx, hy, hxy⟩
  · rw [hx, hy, Option.map_none, Option.map_none]
  · rw [hx, hy, Option.map_some, Option.map_some, hfg x y hxy]

/-- Whatever test gives the same for related items gives the same at each index. -/
theorem any_getElem? {p : α → Bool} {q : β → Bool} (h : Pointwise related xs ys)
    (hpq : ∀ x y, related x y → q y = p x) (i : Nat) : ys[i]?.any q = xs[i]?.any p := by
  rcases h.getElem?_cases i with ⟨hx, hy⟩ | ⟨x, y, hx, hy, hxy⟩
  · rw [hx, hy, Option.any_none, Option.any_none]
  · rw [hx, hy, Option.any_some, Option.any_some, hpq x y hxy]

theorem mono {related' : α → β → Prop} (h : Pointwise related xs ys)
    (himp : ∀ x y, related x y → related' x y) : Pointwise related' xs ys := by
  intro i
  rcases h.getElem?_cases i with ⟨hx, hy⟩ | ⟨x, y, hx, hy, hxy⟩
  · rw [hx, hy]
    exact .none
  · rw [hx, hy]
    exact .some (himp x y hxy)

theorem refl {related : α → α → Prop} (hrefl : ∀ x ∈ xs, related x x) :
    Pointwise related xs xs := by
  intro i
  cases hx : xs[i]? with
  | none => exact .none
  | some x => exact .some (hrefl x (Array.mem_of_getElem? hx))

theorem eq {xs ys : Array α} (h : Pointwise Eq xs ys) : ys = xs :=
  Array.ext_getElem? fun i => by
    simpa using h.map_getElem? (f := id) (g := id) (fun _ _ h => h.symm) i

theorem empty : Pointwise related #[] #[] := fun _ => .none

theorem replicate {x : α} {y : β} (hxy : related x y) (n : Nat) :
    Pointwise related (Array.replicate n x) (Array.replicate n y) := by
  intro i
  rw [Array.getElem?_replicate, Array.getElem?_replicate]
  split
  · exact .some hxy
  · exact .none

/-- What is made of the items of one array in two ways is related if it is so for each item. -/
theorem map_same {f : γ → α} {g : γ → β} (items : Array γ) (hfg : ∀ z, related (f z) (g z)) :
    Pointwise related (items.map f) (items.map g) := by
  intro i
  rw [Array.getElem?_map, Array.getElem?_map]
  cases items[i]? with
  | none => exact .none
  | some z => exact .some (hfg z)

theorem append (h : Pointwise related xs ys) (h' : Pointwise related xs' ys') :
    Pointwise related (xs ++ xs') (ys ++ ys') := by
  intro i
  rw [Array.getElem?_append, Array.getElem?_append, h.size_eq]
  split
  · exact h i
  · exact h' _

theorem singleton {x : α} {y : β} (hxy : related x y) : Pointwise related #[x] #[y] := by
  simpa using replicate hxy 1

theorem push {x : α} {y : β} (h : Pointwise related xs ys) (hxy : related x y) :
    Pointwise related (xs.push x) (ys.push y) := by
  rw [Array.push_eq_append, Array.push_eq_append]
  exact h.append (singleton hxy)

theorem modify {f : α → α} {g : β → β} (h : Pointwise related xs ys) (i : Nat)
    (hfg : ∀ x y, related x y → related (f x) (g y)) :
    Pointwise related (xs.modify i f) (ys.modify i g) := by
  intro j
  rw [Array.getElem?_modify, Array.getElem?_modify]
  split
  · rcases h.getElem?_cases j with ⟨hx, hy⟩ | ⟨x, y, hx, hy, hxy⟩
    · rw [hx, hy]
      exact .none
    · rw [hx, hy]
      exact .some (hfg x y hxy)
  · exact h j

end Pointwise

/-! ## §2 Programs -/

namespace Program

variable {S T α α' β β' : Type}

/-- Two programs have answered, and their answers are related, or both have failed in the same way.
    The states that they leave are related. -/
inductive Corresponds (states : S → T → Prop) (answers : α → α' → Prop) :
    Except LayoutError α × S → Except LayoutError α' × T → Prop
  | answered {a : α} {a' : α'} {s : S} {t : T} (ha : answers a a') (hs : states s t) :
    Corresponds states answers (.ok a, s) (.ok a', t)
  | failed {e : LayoutError} {s : S} {t : T} (hs : states s t) :
    Corresponds states answers (.error e, s) (.error e, t)

/-- Whatever related states they are started from, two programs do what corresponds. -/
def Relates (states : S → T → Prop) (answers : α → α' → Prop) (x : Program S α)
    (y : Program T α') : Prop :=
  ∀ s t, states s t → Corresponds states answers (outcome x s) (outcome y t)

theorem Corresponds.states {states : S → T → Prop} {answers : α → α' → Prop}
    {r : Except LayoutError α × S} {r' : Except LayoutError α' × T}
    (h : Corresponds states answers r r') : states r.2 r'.2 := by
  cases h <;> assumption

theorem Corresponds.answer_eq {states : S → T → Prop} {r : Except LayoutError α × S}
    {r' : Except LayoutError α × T} (h : Corresponds states Eq r r') : r'.1 = r.1 := by
  cases h with
  | answered ha _ => exact congrArg Except.ok ha.symm
  | failed _ => rfl

namespace Relates

variable {states : S → T → Prop} {answers : α → α' → Prop} {ends : β → β' → Prop}
variable {x : Program S α} {y : Program T α'}

theorem pure {a : α} {a' : α'} (ha : answers a a') :
    Relates states answers (Pure.pure a) (Pure.pure a') := fun _ _ hs => .answered ha hs

theorem throw (e : LayoutError) : Relates states answers (throw e) (throw e) :=
  fun _ _ hs => .failed hs

theorem lift (r : Except LayoutError α) : Relates states Eq (liftM r) (liftM r) := by
  intro s t hs
  rw [outcome_lift, outcome_lift]
  cases r with
  | error e => exact .failed hs
  | ok a => exact .answered rfl hs

/-- If one table is read with other values than the other, the answers differ in these. -/
theorem parse_map (r : Except ParseError α) (g : α → α') :
    Relates states (fun a a' => a' = g a) (liftM (LayoutError.ofParse r))
      (liftM (LayoutError.ofParse (r.map g))) := by
  intro s t hs
  rw [outcome_lift, outcome_lift]
  cases r with
  | error e => exact .failed hs
  | ok a => exact .answered rfl hs

theorem modify {f : S → S} {g : T → T} (hfg : ∀ s t, states s t → states (f s) (g t)) :
    Relates states Eq (modify f : Program S PUnit) (modify g : Program T PUnit) :=
  fun s t hs => .answered rfl (hfg s t hs)

theorem bind {f : α → Program S β} {g : α' → Program T β'} (hx : Relates states answers x y)
    (hf : ∀ a a', answers a a' → Relates states ends (f a) (g a')) :
    Relates states ends (x >>= f) (y >>= g) := by
  intro s t hs
  have hrun := hx s t hs
  rw [outcome_bind, outcome_bind]
  revert hrun
  generalize outcome x s = r
  generalize outcome y t = r'
  intro hrun
  -- what comes after a failure is not run in either program
  cases hrun with
  | answered ha hs' => exact hf _ _ ha _ _ hs'
  | failed hs' => exact .failed hs'

/-- Where the first parts have the same answer, the rest is compared for each answer. -/
theorem andThen {x : Program S α} {y : Program T α} {f : α → Program S β} {g : α → Program T β'}
    (hx : Relates states Eq x y) (hf : ∀ a, Relates states ends (f a) (g a)) :
    Relates states ends (x >>= f) (y >>= g) :=
  hx.bind fun a _ ha => ha ▸ hf a

theorem get_bind {f : S → Program S β} {g : T → Program T β'}
    (hf : ∀ s t, states s t → Relates states ends (f s) (g t)) :
    Relates states ends (get >>= f) (get >>= g) := fun s t hs => hf s t hs s t hs

theorem ite {condition : Prop} [Decidable condition] {x' : Program S α} {y' : Program T α'}
    (hx : Relates states answers x y) (hx' : Relates states answers x' y') :
    Relates states answers (if condition then x else x') (if condition then y else y') := by
  split
  · exact hx
  · exact hx'

end Relates

end Program

end OpenTypeLayout
