import Mathlib.Tactic.Common

namespace LearningTasks.Library.Fallible

universe u v

variable {ε : Type u} {α β : Type v}

theorem ok_bind (a : α) (f : α → Except ε β) : (Except.ok a >>= f) = f a := rfl

theorem ok_map (a : α) (f : α → β) : (Except.ok a : Except ε α).map f = .ok (f a) := rfl

theorem bind_ok {x : Except ε α} {f : α → Except ε β} {b : β} (h : x >>= f = .ok b) :
    ∃ a, x = .ok a ∧ f a = .ok b := by
  cases x with
  | error e => cases h
  | ok a => exact ⟨a, rfl, h⟩

theorem map_ok {x : Except ε α} {f : α → β} {b : β} (h : x.map f = .ok b) :
    ∃ a, x = .ok a ∧ f a = b := by
  cases x with
  | error e => cases h
  | ok a =>
    cases h
    exact ⟨a, rfl, rfl⟩

theorem mapM_ok {ι : Type*} {f : ι → Except ε α} {g : ι → α} {l : List ι}
    (h : ∀ i ∈ l, f i = .ok (g i)) : l.mapM f = .ok (l.map g) := by
  induction l with
  | nil => rfl
  | cons i l ih =>
    rw [List.mapM_cons, h i List.mem_cons_self, ih fun j hj ↦ h j (List.mem_cons_of_mem _ hj)]
    rfl

theorem of_mapM_ok {ι : Type*} {f : ι → Except ε α} {l : List ι} {m : List α}
    (h : l.mapM f = .ok m) : ∀ i ∈ l, ∃ a, f i = .ok a := by
  induction l generalizing m with
  | nil => exact fun _ hi ↦ absurd hi List.not_mem_nil
  | cons i l ih =>
    rw [List.mapM_cons] at h
    obtain ⟨a, ha, h⟩ := bind_ok h
    obtain ⟨as, has, -⟩ := bind_ok h
    exact List.forall_mem_cons.mpr ⟨⟨a, ha⟩, ih has⟩

end LearningTasks.Library.Fallible
