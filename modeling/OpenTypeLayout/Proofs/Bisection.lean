import OpenTypeLayout.Bytes.RecordArray

/-!
# Bisecting an array

A search keeps three numbers: where the places that are left begin, where they end, and how many
there are. It looks at the item in the middle, and goes on with the places before it or with those
behind it.

- `BisectRun` is a run of the search with its three numbers, and with the places that it has looked
  at.
- `exists_bisectRun` says that the search ends, with the answer of `bisectFrom`, and where it has
  looked.
- `RecordArray.search_correct` is about all arrays and all comparisons first, and then about those
  arrays that are divided into a part below, an equal part and a part above.
-/

namespace OpenTypeLayout

/-! ## §1 The loop -/

/-- A run of the search over the places from `left` up to `right`, of which there are `size`. It
    ends with an answer, and has looked at some places, in order. There is no bound on the number of
    rounds, and a search that never ends has no run. -/
inductive BisectRun (probe : Nat → Option Ordering) :
    (left right size : Nat) → Search → List Nat → Prop where
  /-- No place is left. -/
  | done {left right size : Nat} (hleft : right ≤ left) :
      BisectRun probe left right size (.insertAt left) []
  /-- There is no item in the middle. -/
  | missing {left right size : Nat} (hleft : left < right) (hmid : probe (left + size / 2) = none) :
      BisectRun probe left right size (.insertAt left) [left + size / 2]
  /-- The item in the middle is less: go on behind it. -/
  | less {left right size : Nat} {answer : Search} {places : List Nat} (hleft : left < right)
      (hmid : probe (left + size / 2) = some .lt)
      (rest : BisectRun probe (left + size / 2 + 1) right (right - (left + size / 2 + 1))
        answer places) :
      BisectRun probe left right size answer ((left + size / 2) :: places)
  /-- The item in the middle is greater: go on before it. -/
  | greater {left right size : Nat} {answer : Search} {places : List Nat} (hleft : left < right)
      (hmid : probe (left + size / 2) = some .gt)
      (rest : BisectRun probe left (left + size / 2) (left + size / 2 - left) answer places) :
      BisectRun probe left right size answer ((left + size / 2) :: places)
  /-- The item in the middle is equal. -/
  | equal {left right size : Nat}
      (hleft : left < right) (hmid : probe (left + size / 2) = some .eq) :
      BisectRun probe left right size (.found (left + size / 2)) [left + size / 2]

section

variable {probe : Nat → Option Ordering}

/-- There is at most one run: what is done next depends on the item in the middle alone. -/
theorem BisectRun.unique {left right size : Nat} {first second : Search}
    {firstPlaces secondPlaces : List Nat} (h : BisectRun probe left right size first firstPlaces)
    (h' : BisectRun probe left right size second secondPlaces) :
    first = second ∧ firstPlaces = secondPlaces := by
  -- in all other cases the middle would have been two things at once
  induction h generalizing second secondPlaces with
  | done hleft => cases h' <;> grind
  | missing hleft hmid => cases h' <;> grind
  | less hleft hmid rest ih =>
    cases h' with
    | less hleft' hmid' rest' =>
      obtain ⟨rfl, rfl⟩ := ih rest'
      exact ⟨rfl, rfl⟩
    | _ => grind
  | greater hleft hmid rest ih =>
    cases h' with
    | greater hleft' hmid' rest' =>
      obtain ⟨rfl, rfl⟩ := ih rest'
      exact ⟨rfl, rfl⟩
    | _ => grind
  | equal hleft hmid => cases h' <;> grind

/-- The places that are left after a round are among those that were left before it. -/
theorem inside_cons {places : List Nat} {mid left right first last : Nat}
    (hplaces : ∀ i ∈ places, left ≤ i ∧ i < right) (hmid : first ≤ mid ∧ mid < last)
    (hleft : first ≤ left) (hright : right ≤ last) : ∀ i ∈ mid :: places, first ≤ i ∧ i < last := by
  intro i hi
  rcases List.mem_cons.mp hi with rfl | hi
  · exact hmid
  · have := hplaces i hi
    omega

/-- The search ends as `bisectFrom` does, and it looks at places only that are left. -/
theorem exists_bisectRun {rounds left right size : Nat} (hsize : left + size = right)
    (hrounds : size ≤ rounds) :
    ∃ places, BisectRun probe left right size (bisectFrom probe rounds left size) places ∧
      ∀ i ∈ places, left ≤ i ∧ i < right := by
  induction rounds generalizing left right size with
  | zero => exact ⟨[], .done (by omega), by simp⟩
  | succ rounds ih =>
    rcases Nat.eq_zero_or_pos size with rfl | hpos
    · rw [bisectFrom, if_pos rfl]
      exact ⟨[], .done (by omega), by simp⟩
    · have hleft : left < right := by omega
      have hmid : left ≤ left + size / 2 ∧ left + size / 2 < right := by omega
      rw [bisectFrom, if_neg (by omega)]
      dsimp only
      rcases hprobe : probe (left + size / 2) with _ | (_ | _ | _)
      · exact ⟨_, .missing hleft hprobe, by simpa using hmid⟩
      · -- the size that is counted anew is what is left behind the middle
        have hrest : right - (left + size / 2 + 1) = size - size / 2 - 1 := by omega
        obtain ⟨places, hrun, hplaces⟩ :=
          ih (show left + size / 2 + 1 + (size - size / 2 - 1) = right by omega) (by omega)
        rw [← hrest] at hrun ⊢
        exact ⟨_, .less hleft hprobe hrun, inside_cons hplaces hmid (by omega) (Nat.le_refl _)⟩
      · exact ⟨_, .equal hleft hprobe, by simpa using hmid⟩
      · have hrest : left + size / 2 - left = size / 2 := by omega
        obtain ⟨places, hrun, hplaces⟩ :=
          ih (show left + size / 2 = left + size / 2 from rfl) (by omega)
        refine ⟨_, .greater hleft hprobe ?_,
          inside_cons hplaces hmid (Nat.le_refl _) (Nat.le_of_lt hmid.2)⟩
        rw [hrest]
        exact hrun

/-! ## §2 What is found -/

/-- An item that is found is equal, and it is one of the places that are left. A place for another
    item is one of them, or right behind them. -/
def Search.FoundIn (probe : Nat → Option Ordering) (left right : Nat) : Search → Prop
  | .found i => left ≤ i ∧ i < right ∧ probe i = some .eq
  | .insertAt i => left ≤ i ∧ i ≤ right

theorem Search.FoundIn.mono {s : Search} {left right first last : Nat}
    (h : s.FoundIn probe left right) (hleft : first ≤ left) (hright : right ≤ last) :
    s.FoundIn probe first last := by
  cases s with
  | found i => exact ⟨Nat.le_trans hleft h.1, Nat.lt_of_lt_of_le h.2.1 hright, h.2.2⟩
  | insertAt i => exact ⟨Nat.le_trans hleft h.1, Nat.le_trans h.2 hright⟩

theorem foundIn_bisectFrom (probe : Nat → Option Ordering) (rounds left size : Nat) :
    (bisectFrom probe rounds left size).FoundIn probe left (left + size) := by
  induction rounds generalizing left size with
  | zero => exact ⟨Nat.le_refl _, Nat.le_add_right _ _⟩
  | succ rounds ih =>
    rw [bisectFrom]
    split
    case isTrue => exact ⟨Nat.le_refl _, Nat.le_add_right _ _⟩
    case isFalse hsize =>
      dsimp only
      split
      case h_1 => exact ⟨Nat.le_refl _, Nat.le_add_right _ _⟩
      case h_2 => exact (ih _ _).mono (by omega) (by omega)
      case h_3 => exact (ih _ _).mono (Nat.le_refl _) (by omega)
      case h_4 heq => exact ⟨by omega, by omega, heq⟩

/-! ## §3 Divided sequences -/

/-- Of `length` places, the first `below` are less, then `equal` places are equal, and all others
    are greater. -/
structure Divided (probe : Nat → Option Ordering) (length below equal : Nat) : Prop where
  le : below + equal ≤ length
  isLess : ∀ i < below, probe i = some .lt
  isEqual : ∀ i, below ≤ i → i < below + equal → probe i = some .eq
  isGreater : ∀ i, below + equal ≤ i → i < length → probe i = some .gt

/-- The equal items are those of the equal part. -/
theorem Divided.inside_of_eq {length below equal i : Nat} (h : Divided probe length below equal)
    (hi : i < length) (hprobe : probe i = some .eq) : below ≤ i ∧ i < below + equal := by
  constructor
  · refine Nat.le_of_not_lt fun hless => ?_
    cases hprobe.symm.trans (h.isLess i hless)
  · refine Nat.lt_of_not_le fun hgreater => ?_
    cases hprobe.symm.trans (h.isGreater i hgreater hi)

/-- As long as what is left has all of the equal part, with the end of the part below, the place
    that is answered without an item is that of the end, and there is no equal part. -/
theorem Divided.insertAt_eq {length below equal : Nat} (h : Divided probe length below equal)
    {rounds left size i : Nat} (hleft : left ≤ below) (hright : below + equal ≤ left + size)
    (hlength : left + size ≤ length) (hrounds : size ≤ rounds)
    (hanswer : bisectFrom probe rounds left size = .insertAt i) : i = below ∧ equal = 0 := by
  induction rounds generalizing left size with
  | zero =>
    cases hanswer
    omega
  | succ rounds ih =>
    rw [bisectFrom] at hanswer
    split at hanswer
    case isTrue =>
      cases hanswer
      omega
    case isFalse hsize =>
      dsimp only at hanswer
      -- which part the middle is in, and so what is left of it
      rcases Nat.lt_or_ge (left + size / 2) below with hless | hge
      · rw [h.isLess _ hless] at hanswer
        exact ih hless (by omega) (by omega) (by omega) hanswer
      · rcases Nat.lt_or_ge (left + size / 2) (below + equal) with hequal | hgreater
        · rw [h.isEqual _ hge hequal] at hanswer
          cases hanswer
        · rw [h.isGreater _ hgreater (by omega)] at hanswer
          exact ih hleft (by omega) (by omega) (by omega) hanswer

end

namespace RecordArray

variable {α : Type}

/-- How the item at a place compares, if there is an item. -/
def probe (a : RecordArray α) (compare : α → Ordering) (i : Nat) : Option Ordering :=
  (a.get? i).map compare

theorem probe_eq_some {a : RecordArray α} {compare : α → Ordering} {i : Nat} {o : Ordering} :
    a.probe compare i = some o ↔ ∃ h : i < a.length, compare (a.get i h) = o := by
  rw [probe, get?]
  split
  case isTrue h => exact ⟨fun ho => ⟨h, Option.some.inj ho⟩, fun ⟨_, ho⟩ => congrArg some ho⟩
  case isFalse h => exact iff_of_false (fun ho => nomatch ho) fun ⟨h', _⟩ => h h'

/-- **Bisection is correct.** Whatever the items are and however they compare: the search ends, and
    it looks at places below the length only. If it finds a place, there is an item at this place
    that is equal, and a place to insert at is at most the length. If first come items that are
    less, then equal ones, and then greater ones, an item is found exactly if some are equal, and
    otherwise the place is right behind those that are less. -/
theorem search_correct (a : RecordArray α) (compare : α → Ordering) :
    (∃ places, BisectRun (a.probe compare) 0 a.length a.length (a.search compare) places) ∧
    (∀ answer places, BisectRun (a.probe compare) 0 a.length a.length answer places →
      answer = a.search compare ∧ ∀ i ∈ places, i < a.length) ∧
    (∀ i, a.search compare = .found i → ∃ h : i < a.length, compare (a.get i h) = .eq) ∧
    (∀ i, a.search compare = .insertAt i → i ≤ a.length) ∧
    ∀ below equal, Divided (a.probe compare) a.length below equal →
      ((∃ i, a.search compare = .found i) ↔ 0 < equal) ∧
      (equal = 0 → a.search compare = .insertAt below) := by
  -- what the search answers lies in the interval it has started with, here all of the array
  have hfoundIn : (a.search compare).FoundIn (a.probe compare) 0 (0 + a.length) :=
    foundIn_bisectFrom _ _ _ _
  have hfound : ∀ i, a.search compare = .found i → i < a.length ∧ a.probe compare i = some .eq := by
    intro i hi
    rw [hi] at hfoundIn
    exact ⟨Nat.zero_add a.length ▸ hfoundIn.2.1, hfoundIn.2.2⟩
  obtain ⟨places, hrun, hplaces⟩ :
      ∃ places, BisectRun (a.probe compare) 0 a.length a.length (a.search compare) places ∧
        ∀ i ∈ places, 0 ≤ i ∧ i < a.length := exists_bisectRun (Nat.zero_add _) (Nat.le_refl _)
  refine ⟨⟨places, hrun⟩, fun answer others hother => ?_,
    fun i hi => probe_eq_some.mp (hfound i hi).2, fun i hi => ?_, fun below equal hdivided => ?_⟩
  · obtain ⟨rfl, rfl⟩ := hother.unique hrun
    -- any run of the loop is the one that the search makes
    exact ⟨rfl, fun i hi => (hplaces i hi).2⟩
  · rw [hi] at hfoundIn
    exact Nat.zero_add a.length ▸ hfoundIn.2
  · have hinsertAt : ∀ i, a.search compare = .insertAt i → i = below ∧ equal = 0 := fun i =>
      -- where the array is divided, the place answered for an item not found can only be the border
      hdivided.insertAt_eq (Nat.zero_le _) (by simpa using hdivided.le) (by simp) (Nat.le_refl _)
    cases hsearch : a.search compare with
    | found i =>
      obtain ⟨hlt, hequal⟩ := hfound i hsearch
      have hinside := hdivided.inside_of_eq hlt hequal
      exact ⟨iff_of_true ⟨i, rfl⟩ (by omega), fun hnone => by omega⟩
    | insertAt i =>
      obtain ⟨rfl, hnone⟩ := hinsertAt i hsearch
      exact ⟨iff_of_false (fun ⟨_, h⟩ => nomatch h) (by omega), fun _ => rfl⟩

end RecordArray

namespace ThreeNumbers

/-- The numbers 3, 7 and 9. -/
def numbers : RecordArray UInt16 := ⟨.ofBytes ⟨#[0, 3, 0, 7, 0, 9]⟩, 3, .u16, by decide⟩

/-- Two of the numbers are below 8 and none is equal, so that 8 is not found, and its place is
    the third. -/
theorem search_correct_eight :
    Divided (numbers.probe fun n => compare n 8) 3 2 0 ∧
    numbers.search (fun n => compare n 8) = .insertAt 2 ∧
    ∃ places, BisectRun (numbers.probe fun n => compare n 8) 0 3 3 (.insertAt 2) places := by
  have hdivided : Divided (numbers.probe fun n => compare n 8) 3 2 0 :=
    { le := by decide
      isLess := by decide
      isEqual := fun i hle hlt => by omega
      isGreater := fun i hle hlt => by
        obtain rfl : i = 2 := by omega
        decide }
  obtain ⟨hends, -, -, -, hsearch⟩ := RecordArray.search_correct numbers fun n => compare n 8
  have hplace := (hsearch 2 0 hdivided).2 rfl
  rw [hplace] at hends
  exact ⟨hdivided, hplace, hends⟩

end ThreeNumbers

end OpenTypeLayout
