import Mathlib.Data.List.Sort
import Mathlib.Algebra.Order.Floor.Ring
import Mathlib.Data.Rat.Floor
import Mathlib.Tactic.Linarith
import Mathlib.Tactic.GCongr
import Mathlib.Tactic.Positivity

namespace LearningTasks.Library.Statistics

section Ranks

variable {α : Type*} [LinearOrder α]

/-- The rank of a percentile among some number of values, rounded up. -/
def rank (percentile n : ℕ) : ℕ := (percentile * n + 99) / 100

def nearestRank (values : List α) (percentile : ℕ) : Option α :=
  (values.insertionSort (· ≤ ·))[rank percentile values.length - 1]?

theorem holds_getElem_iff {P : α → Bool} (hdown : ∀ a b, a ≤ b → P b = true → P a = true)
    {l : List α} (hl : l.Pairwise (· ≤ ·)) {i : ℕ} (hi : i < l.length) :
    P l[i] = true ↔ i < l.countP P := by
  induction l generalizing i with
  | nil => exact absurd hi (Nat.not_lt_zero i)
  | cons a l ih =>
    obtain ⟨ha, hl⟩ := List.pairwise_cons.mp hl
    by_cases hP : P a = true
    · rw [List.countP_cons_of_pos hP]
      cases i with
      | zero => simp only [List.getElem_cons_zero, hP, Nat.zero_lt_succ]
      | succ i =>
        rw [List.getElem_cons_succ, ih hl]
        omega
    · have hnone : ∀ b ∈ l, ¬ P b = true := by
        intro b hb hPb
        exact hP (hdown a b (ha b hb) hPb)
      rw [List.countP_cons_of_neg hP, List.countP_eq_zero.mpr hnone]
      constructor
      · intro h
        cases i with
        | zero => exact absurd h hP
        | succ i => exact absurd h (hnone _ (List.getElem_mem _))
      · intro h
        omega

/-- A percentile meets a downward closed condition if enough of the values do. -/
theorem nearestRank_holds_iff {P : α → Bool} (hdown : ∀ a b, a ≤ b → P b = true → P a = true)
    (values : List α) {percentile : ℕ} (hp : 1 ≤ percentile ∧ percentile ≤ 100) :
    (∃ v ∈ nearestRank values percentile, P v = true) ↔
      0 < values.length ∧ rank percentile values.length ≤ values.countP P := by
  have hperm := List.perm_insertionSort (· ≤ ·) values
  have hsorted := List.pairwise_insertionSort (· ≤ ·) values
  have hcount := hperm.countP_eq P
  have hlength := hperm.length_eq
  unfold nearestRank
  by_cases hv : 0 < values.length
  · have hpos : 0 < rank percentile values.length := by
      have hn := Nat.mul_le_mul hp.1 hv
      unfold rank
      omega
    have hle : rank percentile values.length ≤ values.length := by
      have hn := Nat.mul_le_mul_right values.length hp.2
      unfold rank
      omega
    have hi : rank percentile values.length - 1 < (values.insertionSort (· ≤ ·)).length := by omega
    have hiff := holds_getElem_iff hdown hsorted hi
    rw [List.getElem?_eq_getElem hi]
    constructor
    · rintro ⟨v, hv', hPv⟩
      obtain rfl := Option.some.inj hv'
      have h := hiff.mp hPv
      omega
    · rintro ⟨-, hr⟩
      exact ⟨_, rfl, hiff.mpr (by omega)⟩
  · have hnil : values = [] := List.eq_nil_of_length_eq_zero (by omega)
    subst hnil
    simp

end Ranks

section Replacement

variable {α β : Type*}

theorem countP_set_add {p : α → Bool} {l : List α} {i : ℕ} {a b : α} (h : l[i]? = some a) :
    (l.set i b).countP p + (p a).toNat = l.countP p + (p b).toNat := by
  induction l generalizing i with
  | nil => cases h
  | cons x l ih =>
    have hone : ∀ c, (c :: l).countP p = l.countP p + (p c).toNat := by
      intro c
      cases hc : p c <;> simp [hc]
    cases i with
    | zero =>
      rw [List.getElem?_cons_zero, Option.some.injEq] at h
      subst h
      rw [List.set_cons_zero, hone, hone]
      omega
    | succ i =>
      have hi := ih (i := i) h
      rw [List.set_cons_succ, List.countP_cons, List.countP_cons]
      omega

theorem sum_zipWith_set_add {f : α → β → ℕ} {l : List α} {m : List β} {i : ℕ} {a b : α} {x : β}
    (h : l[i]? = some a) (hx : m[i]? = some x) :
    (List.zipWith f (l.set i b) m).sum + f a x = (List.zipWith f l m).sum + f b x := by
  induction l generalizing i m with
  | nil => cases h
  | cons y l ih =>
    cases m with
    | nil => cases hx
    | cons z m =>
      cases i with
      | zero =>
        rw [List.getElem?_cons_zero, Option.some.injEq] at h hx
        subst h hx
        simp only [List.set_cons_zero, List.zipWith_cons_cons, List.sum_cons]
        omega
      | succ i =>
        have hi := ih (i := i) h hx
        simp only [List.set_cons_succ, List.zipWith_cons_cons, List.sum_cons]
        omega

end Replacement

def rounded (x : ℚ) : ℚ := ⌊x * 1000000 + 1 / 2⌋ / 1000000

theorem rounded_mono {x y : ℚ} (h : x ≤ y) : rounded x ≤ rounded y := by
  unfold rounded
  gcongr

theorem share_le {n d d' : ℕ} (hn : n + 1 ≤ d) (hd : d' = d ∨ d' + 1 = d) :
    (n : ℚ) / d' ≤ (n + 1 : ℕ) / d := by
  rcases hd with rfl | rfl
  · gcongr
    omega
  · by_cases h0 : d' = 0
    · subst h0
      simp only [Nat.cast_zero, div_zero]
      positivity
    · have hpos : (0 : ℚ) < d' := by exact_mod_cast Nat.pos_of_ne_zero h0
      have hle : (n : ℚ) ≤ d' := by exact_mod_cast Nat.le_of_succ_le_succ hn
      rw [div_le_div_iff₀ hpos (by positivity)]
      push_cast
      linarith

end LearningTasks.Library.Statistics
