import Mathlib.Order.Basic
import Mathlib.Tactic.Common

namespace LearningTasks.Library.Bisection

variable (fits : ℕ → Bool)

/-- The last midpoint that fits in a search of the numbers from `low` below `stop`. -/
def bisect (low stop : ℕ) (best : Option ℕ) : Option ℕ :=
  if low < stop then
    let middle := (low + (stop - 1)) / 2
    if fits middle then bisect (middle + 1) stop (some middle) else bisect low middle best
  else best
termination_by stop - low

variable {fits}

theorem bisect_fits {low stop : ℕ} {best : Option ℕ} (hbest : ∀ n ∈ best, fits n = true) :
    ∀ n ∈ bisect fits low stop best, fits n = true := by
  induction low, stop, best using bisect.induct fits with
  | case1 low stop best h middle hm ih =>
    rw [bisect, if_pos h, if_pos hm]
    apply ih
    intro n hn
    cases hn
    exact hm
  | case2 low stop best h middle hm ih =>
    rw [bisect, if_pos h, if_neg hm]
    exact ih hbest
  | case3 low stop best h =>
    rw [bisect, if_neg h]
    exact hbest

theorem bisect_isSome {low stop : ℕ} {best : Option ℕ}
    (h : (low < stop ∧ fits low = true) ∨ best.isSome = true) :
    (bisect fits low stop best).isSome = true := by
  induction low, stop, best using bisect.induct fits with
  | case1 low stop best hl middle hm ih =>
    rw [bisect, if_pos hl, if_pos hm]
    exact ih (.inr rfl)
  | case2 low stop best hl middle hm ih =>
    rw [bisect, if_pos hl, if_neg hm]
    apply ih
    obtain ⟨-, hf⟩ | h := h
    · left
      refine ⟨?_, hf⟩
      by_contra hle
      have he : middle = low := by omega
      exact hm (by rw [he, hf])
    · exact .inr h
  | case3 low stop best hl =>
    rw [bisect, if_neg hl]
    obtain h | h := h
    · exact absurd h.1 hl
    · exact h

/-- Where all numbers below one that fits do too, the search does not miss the greatest. -/
theorem le_bisect (hfits : ∀ m n, m ≤ n → fits n = true → fits m = true) {low stop : ℕ}
    {best : Option ℕ} (hbest : ∀ n < low, ∃ b ∈ best, n ≤ b) :
    ∀ n < stop, fits n = true → ∃ b ∈ bisect fits low stop best, n ≤ b := by
  induction low, stop, best using bisect.induct fits with
  | case1 low stop best h middle hm ih =>
    rw [bisect, if_pos h, if_pos hm]
    apply ih
    intro n hn
    exact ⟨middle, rfl, by omega⟩
  | case2 low stop best h middle hm ih =>
    rw [bisect, if_pos h, if_neg hm]
    intro n _ hf
    refine ih hbest n ?_ hf
    by_contra hle
    exact hm (hfits middle n (by omega) hf)
  | case3 low stop best h =>
    rw [bisect, if_neg h]
    intro n hn _
    exact hbest n (by omega)

end LearningTasks.Library.Bisection
