import LearningTasks.Library.Transition

namespace LearningTasks.Library.Simulation

open Transition

/-- What is seen of one machine moves as another machine does, or stands still. There is
nothing to see at first. -/
structure Simulates {σ ι τ κ : Type*} (M : Machine σ ι) (N : Machine τ κ) (view : σ → Option τ) :
    Prop where
  blank : ∀ s, M.init s → view s = none
  opens : ∀ s i s' x, M.Reachable s → M.step s i = some s' → view s = none → view s' = some x →
    N.init x
  moves : ∀ s i s' x, M.Reachable s → M.step s i = some s' → view s = some x →
    ∃ y, view s' = some y ∧ (y = x ∨ ∃ k, N.step x k = some y)

variable {σ ι τ κ : Type*} {M : Machine σ ι} {N : Machine τ κ} {view : σ → Option τ}

theorem Simulates.reachable (h : Simulates M N view) {s : σ} (hs : M.Reachable s) {x : τ}
    (hx : view s = some x) : N.Reachable x := by
  induction hs generalizing x with
  | init h0 =>
    rw [h.blank _ h0] at hx
    cases hx
  | @step s s' i hr _ hs ih =>
    cases hv : view s with
    | none => exact .start (h.opens s i s' x hr hs hv hx)
    | some y =>
      obtain ⟨z, hz, hstep⟩ := h.moves s i s' y hr hs hv
      obtain rfl := Option.some.inj (hz.symm.trans hx)
      rcases hstep with rfl | ⟨k, hk⟩
      · exact ih hv
      · exact (ih hv).next hk

theorem Simulates.leads (h : Simulates M N view) {s t : σ} (hs : M.Reachable s)
    (ht : M.Leads s t) {x : τ} (hx : view s = some x) :
    ∃ y, view t = some y ∧ N.Leads x y := by
  induction ht with
  | refl => exact ⟨x, hx, .refl x⟩
  | @tail t u hl hi ih =>
    obtain ⟨i, hi⟩ := hi
    obtain ⟨y, hy, hxy⟩ := ih
    obtain ⟨z, hz, hstep⟩ := h.moves t i u y (Machine.Leads.reachable hs hl) hi hy
    refine ⟨z, hz, ?_⟩
    rcases hstep with rfl | ⟨k, hk⟩
    · exact hxy
    · exact hxy.tail hk

/-- What is seen of one machine is a state of another one from the start. -/
structure Projects (M : Machine σ ι) (N : Machine τ κ) (view : σ → τ) : Prop where
  init : ∀ s, M.init s → N.init (view s)
  step : ∀ s i s', M.Reachable s → M.step s i = some s' →
    view s' = view s ∨ ∃ k, N.step (view s) k = some (view s')

theorem Projects.reachable {view : σ → τ} (h : Projects M N view) {s : σ} (hs : M.Reachable s) :
    N.Reachable (view s) := by
  induction hs with
  | init h0 => exact .start (h.init _ h0)
  | @step s s' i hr _ hs ih =>
    rcases h.step s i s' hr hs with heq | ⟨k, hk⟩
    · rw [heq]
      exact ih
    · exact ih.next hk

theorem Projects.leads {view : σ → τ} (h : Projects M N view) {s t : σ} (hs : M.Reachable s)
    (ht : M.Leads s t) : N.Leads (view s) (view t) := by
  induction ht with
  | refl => exact .refl _
  | @tail t u hl hi ih =>
    obtain ⟨i, hi⟩ := hi
    rcases h.step t i u (Machine.Leads.reachable hs hl) hi with heq | ⟨k, hk⟩
    · rw [heq]
      exact ih
    · exact ih.tail hk

end LearningTasks.Library.Simulation
