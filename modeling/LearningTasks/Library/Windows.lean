import Mathlib.Data.List.Basic

namespace LearningTasks.Library.Windows

/-- A window that slides over a list: its size, and how far it moves on. -/
structure Sliding where
  size : ℕ
  step : ℕ
  advances : 0 < step
  step_le : step ≤ size

variable {α : Type*} (w : Sliding)

def Sliding.overlap : ℕ := w.size - w.step

/-- The windows on a list, up to the first that reaches its end. -/
def Sliding.windows (s : List α) : List (List α) :=
  if s = [] then []
  else if s.length ≤ w.size then [s]
  else s.take w.size :: windows (s.drop w.step)
termination_by s.length
decreasing_by
  have := w.advances
  rw [List.length_drop]
  omega

def Sliding.count (n : ℕ) : ℕ := if n = 0 then 0 else 1 + (n - w.size + w.step - 1) / w.step

/-- A list put together again from its windows: what a window shares with the one
before it is dropped. -/
def Sliding.rebuild : List (List α) → List α
  | [] => []
  | s :: ss => s ++ (ss.map (·.drop w.overlap)).flatten

@[simp] theorem windows_nil : w.windows ([] : List α) = [] := by
  rw [Sliding.windows, if_pos rfl]

theorem windows_short {s : List α} (hne : s ≠ []) (h : s.length ≤ w.size) : w.windows s = [s] := by
  rw [Sliding.windows, if_neg hne, if_pos h]

theorem windows_long {s : List α} (h : w.size < s.length) :
    w.windows s = s.take w.size :: w.windows (s.drop w.step) := by
  have hne : s ≠ [] := List.ne_nil_of_length_pos (Nat.zero_lt_of_lt h)
  rw [Sliding.windows, if_neg hne, if_neg (Nat.not_le.mpr h)]

/-- Induction along the windows. -/
theorem windows_induction {P : List α → Prop} (hnil : P [])
    (hshort : ∀ s, s ≠ [] → s.length ≤ w.size → P s)
    (hlong : ∀ s, w.size < s.length → P (s.drop w.step) → P s) (s : List α) : P s := by
  induction hn : s.length using Nat.strongRecOn generalizing s with
  | ind n ih =>
    by_cases hne : s = []
    · exact hne ▸ hnil
    · by_cases h : s.length ≤ w.size
      · exact hshort s hne h
      · refine hlong s (by omega) (ih (s.drop w.step).length ?_ _ rfl)
        have := w.advances
        rw [List.length_drop]
        omega

theorem count_long {n : ℕ} (h : w.size < n) : w.count n = 1 + w.count (n - w.step) := by
  have ha := w.advances
  have hs := w.step_le
  have hne : n - w.step ≠ 0 := by omega
  rw [Sliding.count, Sliding.count, if_neg (by omega), if_neg hne]
  by_cases hd : w.size ≤ n - w.step
  · have he : n - w.size + w.step - 1 = n - w.step - w.size + w.step - 1 + w.step := by omega
    rw [he, Nat.add_div_right _ ha]
    omega
  · have he : n - w.size + w.step - 1 = n - w.size - 1 + w.step := by omega
    rw [he, Nat.add_div_right _ ha, Nat.div_eq_of_lt (by omega), Nat.div_eq_of_lt (by omega)]

theorem length_windows (s : List α) : (w.windows s).length = w.count s.length := by
  induction s using windows_induction w with
  | hnil => rw [windows_nil]; rfl
  | hshort s hne h =>
    have hpos := List.length_pos_iff.mpr hne
    have ha := w.advances
    rw [windows_short w hne h, Sliding.count, if_neg (by omega), Nat.sub_eq_zero_of_le h,
      Nat.div_eq_of_lt (by omega)]
    rfl
  | hlong s h ih =>
    rw [windows_long w h, List.length_cons, ih, List.length_drop, count_long w h, Nat.add_comm]

theorem windows_ne_nil {s : List α} (h : s ≠ []) : w.windows s ≠ [] := by
  rw [Sliding.windows, if_neg h]
  split <;> exact List.cons_ne_nil _ _

theorem flatten_windows (s : List α) :
    ((w.windows s).map (·.drop w.overlap)).flatten = s.drop w.overlap := by
  induction s using windows_induction w with
  | hnil => simp
  | hshort s hne h => rw [windows_short w hne h]; simp
  | hlong s h ih =>
    have hs := w.step_le
    have ho : w.step + w.overlap = w.size := by unfold Sliding.overlap; omega
    have hl : w.overlap ≤ (s.take w.size).length := by
      rw [List.length_take]
      omega
    rw [windows_long w h, List.map_cons, List.flatten_cons, ih, List.drop_drop, ho,
      ← List.drop_append_of_le_length hl, List.take_append_drop]

theorem rebuild_windows (s : List α) : w.rebuild (w.windows s) = s := by
  by_cases hne : s = []
  · subst hne
    rw [windows_nil, Sliding.rebuild]
  · by_cases h : s.length ≤ w.size
    · rw [windows_short w hne h, Sliding.rebuild]
      simp
    · have hlong := Nat.not_le.mp h
      have hs := w.step_le
      have ho : w.step + w.overlap = w.size := by unfold Sliding.overlap; omega
      rw [windows_long w hlong, Sliding.rebuild, flatten_windows, List.drop_drop, ho,
        List.take_append_drop]

/-- The second window starts with what the first ends with, and goes on. -/
structure Sliding.Overlaps (a b : List α) : Prop where
  full : a.length = w.size
  longer : w.overlap < b.length
  shared : a.drop w.step = b.take w.overlap

end LearningTasks.Library.Windows
