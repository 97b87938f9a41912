import Mathlib.Data.List.Basic

namespace LearningTasks.Library.Unwinding

variable {σ ι ρ υ V : Type*} [DecidableEq υ]

structure Shared (σ ι ρ υ : Type*) where
  user : ι → υ
  serve : ι → σ → ρ × σ

namespace Shared

variable (M : Shared σ ι ρ υ)

/-- The answers to calls that come one after the other, and the last state. -/
def run : List ι → σ → List (υ × ρ) × σ
  | [], s => ([], s)
  | i :: is, s =>
    let (r, s) := M.serve i s
    let (rs, s) := run is s
    ((M.user i, r) :: rs, s)

def received (a : υ) (answers : List (υ × ρ)) : List ρ :=
  (answers.filter fun r ↦ r.1 = a).map (·.2)

/-- What one step does about the view of a user, where the state is ready for the
calls to come. -/
structure Unwinds (view : σ → V) (a : υ) (ready : List ι → σ → Prop) : Prop where
  next : ∀ i is s, ready (i :: is) s → ready is (M.serve i s).2
  fewer : ∀ is js s, js.Sublist is → ready is s → ready js s
  respects : ∀ i is s, ready (i :: is) s → M.user i ≠ a → view (M.serve i s).2 = view s
  consistent : ∀ i is js s t, ready (i :: is) s → ready (i :: js) t → M.user i = a →
    view s = view t → (M.serve i s).1 = (M.serve i t).1 ∧
      view (M.serve i s).2 = view (M.serve i t).2

variable {M} {view : σ → V} {a : υ} {ready : List ι → σ → Prop}

/-- Calls of others can be removed from a run without a change in what a user
receives and sees. -/
theorem Unwinds.run_filter (h : M.Unwinds view a ready) {keep : ι → Bool}
    (hkeep : ∀ i, M.user i = a → keep i = true) {is : List ι} {s t : σ} (hs : ready is s)
    (ht : ready (is.filter keep) t) (hv : view s = view t) :
    received a (M.run is s).1 = received a (M.run (is.filter keep) t).1 ∧
      view (M.run is s).2 = view (M.run (is.filter keep) t).2 := by
  induction is generalizing s t with
  | nil => exact ⟨rfl, hv⟩
  | cons i is ih =>
    have hs' := h.next i is s hs
    by_cases hu : M.user i = a
    · rw [List.filter_cons_of_pos (hkeep i hu)] at ht ⊢
      obtain ⟨hr, hv'⟩ := h.consistent i is _ s t hs ht hu hv
      obtain ⟨hreceived, hview⟩ := ih hs' (h.next i _ t ht) hv'
      refine ⟨?_, hview⟩
      simp only [received] at hreceived
      simp only [run, received, List.filter_cons, hu, decide_true, ↓reduceIte, List.map_cons, hr,
        hreceived]
    · have hskip (is : List ι) (u : σ) : received a (M.run (i :: is) u).1 =
          received a (M.run is (M.serve i u).2).1 := by
        simp only [run, received, List.filter_cons, hu, decide_false, Bool.false_eq_true, ↓reduceIte]
      have hvs := h.respects i is s hs hu
      rw [hskip]
      by_cases hi : keep i = true
      · rw [List.filter_cons_of_pos hi] at ht ⊢
        have hvt := h.respects i _ t ht hu
        rw [hskip]
        exact ih hs' (h.next i _ t ht) (hvs.trans (hv.trans hvt.symm))
      · rw [List.filter_cons_of_neg hi] at ht ⊢
        exact ih hs' ht (hvs.trans hv)

end Shared

end LearningTasks.Library.Unwinding
