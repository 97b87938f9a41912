import Mathlib.Data.List.Pairwise
import Mathlib.Data.List.Perm.Basic
import Mathlib.Data.List.TakeDrop

namespace LearningTasks.Library.Sorting

open Std

variable {α : Type*} {cmp : α → α → Ordering}

def sortBy (cmp : α → α → Ordering) (l : List α) : List α := l.mergeSort fun a b ↦ cmp a b ≠ .gt

theorem sortBy_perm (cmp : α → α → Ordering) (l : List α) : (sortBy cmp l).Perm l :=
  List.mergeSort_perm l _

theorem mem_sortBy {l : List α} {a : α} : a ∈ sortBy cmp l ↔ a ∈ l := (sortBy_perm cmp l).mem_iff

def Separated (cmp : α → α → Ordering) (l : List α) : Prop := l.Pairwise fun a b ↦ cmp a b ≠ .eq

def Ascending (cmp : α → α → Ordering) (l : List α) : Prop := l.Pairwise fun a b ↦ cmp a b = .lt

theorem Separated.filter {l : List α} (h : Separated cmp l) (p : α → Bool) :
    Separated cmp (l.filter p) := List.Pairwise.filter p h

theorem Ascending.filter {l : List α} (h : Ascending cmp l) (p : α → Bool) :
    Ascending cmp (l.filter p) := List.Pairwise.filter p h

/-- A comparison puts the members of a list in a strict total order. -/
structure StrictTotal (cmp : α → α → Ordering) (l : List α) : Prop where
  irrefl (a : α) : cmp a a ≠ .lt
  trans {a b c : α} (hab : cmp a b = .lt) (hbc : cmp b c = .lt) : cmp a c = .lt
  total : ∀ a ∈ l, ∀ b ∈ l, a = b ∨ cmp a b = .lt ∨ cmp b a = .lt

variable [TransCmp cmp]

theorem Separated.strictTotal {l : List α} (h : Separated cmp l) : StrictTotal cmp l where
  irrefl a := by
    have hself : cmp a a = .eq := ReflCmp.compare_self
    rw [hself]
    exact Ordering.noConfusion
  trans hab hbc := TransCmp.lt_trans hab hbc
  total a ha b hb := by
    by_cases heq : a = b
    · exact .inl heq
    · have hsymm : Std.Symm fun a b ↦ cmp a b ≠ .eq :=
        ⟨fun _ _ hab hba ↦ hab (OrientedCmp.eq_symm hba)⟩
      have hne : cmp a b ≠ .eq := List.Pairwise.forall h ha hb heq
      have hswap : cmp b a = (cmp a b).swap := OrientedCmp.eq_swap
      rw [hswap]
      cases hc : cmp a b with
      | lt => exact .inr (.inl rfl)
      | eq => exact absurd hc hne
      | gt => exact .inr (.inr rfl)

theorem sortBy_ascending {l : List α} (h : Separated cmp l) : Ascending cmp (sortBy cmp l) := by
  have htrans (a b c : α) (hab : decide (cmp a b ≠ .gt) = true)
      (hbc : decide (cmp b c ≠ .gt) = true) : decide (cmp a c ≠ .gt) = true := by
    rw [decide_eq_true_eq, Ne, ← Ordering.isLE_iff_ne_gt] at hab hbc ⊢
    exact TransCmp.isLE_trans hab hbc
  have htotal (a b : α) : (decide (cmp a b ≠ .gt) || decide (cmp b a ≠ .gt)) = true := by
    have hswap : cmp b a = (cmp a b).swap := OrientedCmp.eq_swap
    rw [hswap]
    cases cmp a b <;> rfl
  have hsorted := List.pairwise_mergeSort htrans htotal l
  have hsep : (sortBy cmp l).Pairwise fun a b ↦ cmp a b ≠ .eq := by
    refine (sortBy_perm cmp l).symm.pairwise h fun {a b} hab hba ↦ ?_
    exact hab (OrientedCmp.eq_symm hba)
  refine (hsorted.and hsep).imp fun {a b} hab ↦ ?_
  obtain ⟨hle, hne⟩ := hab
  rw [decide_eq_true_eq] at hle
  cases hc : cmp a b with
  | lt => rfl
  | eq => exact absurd hc hne
  | gt => exact absurd hc hle

theorem Ascending.eq_of_perm {l l' : List α} (h : Ascending cmp l) (h' : Ascending cmp l')
    (hp : l.Perm l') : l = l' := by
  refine hp.eq_of_pairwise (fun a b _ _ hab hba ↦ ?_) h h'
  exact absurd hba (OrientedCmp.not_lt_of_lt hab)

theorem sortBy_filter {l : List α} (h : Separated cmp l) (p : α → Bool) :
    sortBy cmp (l.filter p) = (sortBy cmp l).filter p := by
  refine (sortBy_ascending (h.filter p)).eq_of_perm ((sortBy_ascending h).filter p) ?_
  exact (sortBy_perm cmp _).trans ((sortBy_perm cmp l).filter p).symm

theorem Ascending.nodup {l : List α} (h : Ascending cmp l) : l.Nodup := by
  refine h.imp fun {a b} hab heq ↦ ?_
  have hself : cmp b b = .eq := ReflCmp.compare_self
  rw [heq, hself] at hab
  cases hab

omit [TransCmp cmp]

theorem flatMap_pages (l : List α) (k n : ℕ) :
    ((List.range n).flatMap fun i ↦ (l.drop (i * k)).take k) = l.take (n * k) := by
  induction n with
  | zero => rw [Nat.zero_mul, List.take_zero, List.range_zero, List.flatMap_nil]
  | succ n ih =>
    rw [List.range_succ, List.flatMap_append, ih, List.flatMap_cons, List.flatMap_nil,
      List.append_nil, Nat.succ_mul, List.take_add]

end LearningTasks.Library.Sorting
