import Mathlib.Tactic.Common

namespace LearningTasks.Library.ThreeValued

/-- The truth of a condition on values that may be missing; none where it is unknown. -/
abbrev Truth := Option Bool

namespace Truth

def and : Truth → Truth → Truth
  | some false, _ | _, some false => some false
  | some true, some true => some true
  | _, _ => none

def or : Truth → Truth → Truth
  | some true, _ | _, some true => some true
  | some false, some false => some false
  | _, _ => none

def all (conditions : List Truth) : Truth := conditions.foldr and (some true)

/-- A row is kept where its condition is true; it is dropped where it is false or unknown. -/
def holds (t : Truth) : Bool := t == some true

@[simp] theorem holds_some (b : Bool) : holds (some b) = b := by
  cases b <;> rfl

@[simp] theorem holds_none : holds none = false := rfl

@[simp] theorem holds_and (s t : Truth) : (s.and t).holds = (s.holds && t.holds) := by
  rcases s with _ | _ | _ <;> rcases t with _ | _ | _ <;> rfl

@[simp] theorem holds_or (s t : Truth) : (s.or t).holds = (s.holds || t.holds) := by
  rcases s with _ | _ | _ <;> rcases t with _ | _ | _ <;> rfl

theorem holds_all (conditions : List Truth) : (all conditions).holds = conditions.all holds := by
  induction conditions with
  | nil => rfl
  | cons t conditions ih =>
    rw [all, List.foldr_cons, ← all, holds_and, ih, List.all_cons]

@[simp] theorem holds_map {α : Type*} (p : α → Bool) (value : Option α) :
    holds (value.map p) = value.any p := by
  cases value with
  | none => rfl
  | some a => exact holds_some (p a)

end Truth

end LearningTasks.Library.ThreeValued
