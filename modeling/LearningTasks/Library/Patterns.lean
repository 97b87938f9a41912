import Mathlib.Data.List.Infix
import Mathlib.Data.List.Forall2

namespace LearningTasks.Library.Patterns

/-- What a pattern is made of: any string, any one character, or a character of its own. -/
inductive Token (α : Type*)
  | anyString
  | anyOne
  | literal (a : α)

variable {α : Type*} {same : α → α → Prop}

/-- A string is matched piece by piece; `same` tells which characters pass for another. -/
inductive Matches (same : α → α → Prop) : List (Token α) → List α → Prop
  | nil : Matches same [] []
  | anyString (s : List α) {p : List (Token α)} {t : List α} :
      Matches same p t → Matches same (.anyString :: p) (s ++ t)
  | anyOne (a : α) {p : List (Token α)} {t : List α} :
      Matches same p t → Matches same (.anyOne :: p) (a :: t)
  | literal {a b : α} {p : List (Token α)} {t : List α} :
      same a b → Matches same p t → Matches same (.literal a :: p) (b :: t)

namespace Matches

variable {p : List (Token α)} {t : List α}

theorem nil_iff : Matches same [] t ↔ t = [] := by
  constructor
  · intro h
    cases h
    rfl
  · rintro rfl
    exact .nil

theorem anyString_iff : Matches same (.anyString :: p) t ↔ ∃ u, u <:+ t ∧ Matches same p u := by
  constructor
  · intro h
    cases h with
    | anyString s h => exact ⟨_, List.suffix_append s _, h⟩
  · rintro ⟨u, ⟨s, rfl⟩, h⟩
    exact .anyString s h

theorem anyOne_iff : Matches same (.anyOne :: p) t ↔ ∃ b u, t = b :: u ∧ Matches same p u := by
  constructor
  · intro h
    cases h with
    | anyOne b h => exact ⟨b, _, rfl, h⟩
  · rintro ⟨b, u, rfl, h⟩
    exact .anyOne b h

theorem literal_iff {a : α} :
    Matches same (.literal a :: p) t ↔ ∃ b u, t = b :: u ∧ same a b ∧ Matches same p u := by
  constructor
  · intro h
    cases h with
    | literal hab h => exact ⟨_, _, rfl, hab, h⟩
  · rintro ⟨b, u, rfl, hab, h⟩
    exact .literal hab h

theorem literals_append_iff {s : List α} : Matches same (s.map .literal ++ p) t ↔
    ∃ u v, t = u ++ v ∧ List.Forall₂ same s u ∧ Matches same p v := by
  induction s generalizing t with
  | nil =>
    constructor
    · intro h
      exact ⟨[], t, rfl, .nil, h⟩
    · rintro ⟨u, v, rfl, hu, h⟩
      cases hu
      exact h
  | cons a s ih =>
    rw [List.map_cons, List.cons_append, literal_iff]
    constructor
    · rintro ⟨b, w, rfl, hab, h⟩
      obtain ⟨u, v, rfl, hu, h⟩ := ih.mp h
      exact ⟨b :: u, v, rfl, .cons hab hu, h⟩
    · rintro ⟨u, v, rfl, hu, h⟩
      cases hu with
      | cons hab hu => exact ⟨_, _, rfl, hab, ih.mpr ⟨_, v, rfl, hu, h⟩⟩

/-- A text between two gaps matches the strings that contain it. -/
theorem contains_iff {s : List α} :
    Matches same (.anyString :: (s.map .literal ++ [.anyString])) t ↔
      ∃ u, u <:+: t ∧ List.Forall₂ same s u := by
  rw [anyString_iff]
  constructor
  · rintro ⟨w, hw, h⟩
    obtain ⟨u, v, rfl, hu, -⟩ := literals_append_iff.mp h
    exact ⟨u, (List.prefix_append u v).isInfix.trans hw.isInfix, hu⟩
  · rintro ⟨u, ⟨x, v, rfl⟩, hu⟩
    have hrest : Matches same [.anyString] v :=
      anyString_iff.mpr ⟨[], List.nil_suffix, .nil⟩
    rw [List.append_assoc]
    exact ⟨u ++ v, List.suffix_append x _, literals_append_iff.mpr ⟨u, v, rfl, hu, hrest⟩⟩

theorem contains_map_iff {β : Type*} (f : α → β) {s : List α} :
    Matches (fun a b ↦ f a = f b) (.anyString :: (s.map .literal ++ [.anyString])) t ↔
      s.map f <:+: t.map f := by
  have hmap (u : List α) : List.Forall₂ (fun a b ↦ f a = f b) s u ↔ s.map f = u.map f := by
    rw [← List.forall₂_eq_eq_eq, List.forall₂_map_left_iff, List.forall₂_map_right_iff]
  rw [contains_iff]
  constructor
  · rintro ⟨u, hu, h⟩
    rw [(hmap u).mp h]
    exact hu.map f
  · intro h
    obtain ⟨x, y, heq⟩ := h
    obtain ⟨xu, v, rfl, hxu, rfl⟩ := List.map_eq_append_iff.mp heq.symm
    obtain ⟨w, u, rfl, rfl, hu⟩ := List.map_eq_append_iff.mp hxu
    exact ⟨u, ⟨w, v, rfl⟩, (hmap u).mpr hu.symm⟩

end Matches

end LearningTasks.Library.Patterns
