import Mathlib.Data.List.Forall2
import OpenTypeLayout.Error

/-!
# Answers and failures

What is computed step by step has an answer if each step has one, and otherwise fails as the first
step does that fails. These lemmas say so for one step after the other, and for one item after the
other.
-/

namespace OpenTypeLayout

section

variable {ε α β : Type}

/-! ## §1 Steps -/

theorem except_bind_eq_ok {x : Except ε α} {f : α → Except ε β} {b : β} :
    x >>= f = .ok b ↔ ∃ a, x = .ok a ∧ f a = .ok b := by
  cases x with
  | error e => exact iff_of_false (fun h => nomatch h) fun ⟨_, h, _⟩ => nomatch h
  | ok a =>
    constructor
    · exact fun h => ⟨a, rfl, h⟩
    · rintro ⟨_, ⟨⟩, h⟩
      exact h

theorem except_bind_eq_error {x : Except ε α} {f : α → Except ε β} {e : ε} :
    x >>= f = .error e ↔ x = .error e ∨ ∃ a, x = .ok a ∧ f a = .error e := by
  cases x with
  | error e' =>
    constructor
    · rintro ⟨⟩
      exact .inl rfl
    · rintro (⟨⟨⟩⟩ | ⟨_, h, _⟩)
      · rfl
      · cases h
  | ok a =>
    constructor
    · exact fun h => .inr ⟨a, rfl, h⟩
    · rintro (h | ⟨_, ⟨⟩, h⟩)
      · cases h
      · exact h

theorem except_map_eq_ok {x : Except ε α} {f : α → β} {b : β} :
    x.map f = .ok b ↔ ∃ a, x = .ok a ∧ f a = b := by
  cases x with
  | error e => exact iff_of_false (fun h => nomatch h) fun ⟨_, h, _⟩ => nomatch h
  | ok a =>
    constructor
    · rintro ⟨⟩
      exact ⟨a, rfl, rfl⟩
    · rintro ⟨_, ⟨⟩, rfl⟩
      rfl

/-! ## §2 Items -/

/-- An item of the second list comes with the one at the same place of the first. -/
theorem exists_of_forall₂ {R : α → β → Prop} {items : List α} {answers : List β}
    (h : List.Forall₂ R items answers) {i : Nat} {b : β} (hb : answers[i]? = some b) :
    ∃ a, items[i]? = some a ∧ R a b := by
  obtain ⟨hi, rfl⟩ := List.getElem?_eq_some_iff.mp hb
  have hlt : i < items.length := h.length_eq ▸ hi
  exact ⟨items[i], List.getElem?_eq_getElem hlt, h.get hlt hi⟩

/-- Item by item, what is answered is what the item is answered with. -/
theorem except_mapM_each {f : α → Except ε β} {items : Array α} {answers : Array β}
    (h : items.mapM f = .ok answers) :
    List.Forall₂ (fun a b => f a = .ok b) items.toList answers.toList := by
  -- the list is what the induction is on
  have hlist : ∀ (list : List α) (found : List β), list.mapM f = .ok found →
      List.Forall₂ (fun a b => f a = .ok b) list found := by
    intro list
    induction list with
    | nil =>
      rintro found ⟨⟩
      exact .nil
    | cons a rest ih =>
      intro found hfound
      rw [List.mapM_cons] at hfound
      obtain ⟨b, hb, hrest⟩ := except_bind_eq_ok.mp hfound
      obtain ⟨bs, hbs, hcons⟩ := except_bind_eq_ok.mp hrest
      cases hcons
      exact .cons hb (ih bs hbs)
  rw [Array.mapM_eq_mapM_toList] at h
  obtain ⟨found, hfound, rfl⟩ := except_map_eq_ok.mp h
  exact hlist _ found hfound

/-- Only an item can fail. -/
theorem except_mapM_eq_error {f : α → Except ε β} {items : Array α} {e : ε}
    (h : items.mapM f = .error e) : ∃ a ∈ items, f a = .error e := by
  -- the first failure stands behind items that have answers
  have hlist : ∀ list : List α, list.mapM f = .error e → ∃ a ∈ list, f a = .error e := by
    intro list
    induction list with
    | nil => rintro ⟨⟩
    | cons a rest ih =>
      intro hlist
      rw [List.mapM_cons] at hlist
      rcases except_bind_eq_error.mp hlist with ha | ⟨b, -, hrest⟩
      · exact ⟨a, List.mem_cons_self, ha⟩
      · rcases except_bind_eq_error.mp hrest with hrest | ⟨bs, -, ⟨⟩⟩
        obtain ⟨a', hmem, ha'⟩ := ih hrest
        exact ⟨a', List.mem_cons_of_mem _ hmem, ha'⟩
  rw [Array.mapM_eq_mapM_toList] at h
  cases hfound : items.toList.mapM f with
  | ok found =>
    rw [hfound] at h
    cases h
  | error e' =>
    rw [hfound] at h
    cases h
    obtain ⟨a, hmem, ha⟩ := hlist _ hfound
    exact ⟨a, Array.mem_toList_iff.mp hmem, ha⟩

end

theorem demand_eq_ok {condition : Bool} {e : ParseError} {u : Unit} :
    (demand condition e : Except ParseError Unit) = .ok u ↔ condition = true := by
  cases condition with
  | false => exact iff_of_false (fun h => nomatch h) Bool.false_ne_true
  | true => exact iff_of_true rfl rfl

end OpenTypeLayout
