import Mathlib.Data.List.Basic
import Mathlib.Tactic.Linarith

namespace LearningTasks.Library.Budgets

/-- A part of a whole: its own budget, and the size of what is built with a budget. -/
structure Share where
  base : ℤ
  size : ℤ → ℤ

namespace Share

def slack (s : Share) : ℤ := s.base - s.size s.base

/-- How much longer a share gets with a pool on top of its own budget. -/
def growth (s : Share) (pool : ℤ) : ℤ := s.size (s.base + pool) - s.size s.base

/-- With a pool on top a share leaves as much of its budget as it left without. -/
def KeepsSlack (s : Share) (pool : ℤ) : Prop := s.slack ≤ s.base + pool - s.size (s.base + pool)

theorem keepsSlack_iff {s : Share} {pool : ℤ} : s.KeepsSlack pool ↔ 0 ≤ pool - s.growth pool := by
  unfold KeepsSlack slack growth
  constructor <;> intro h <;> linarith

theorem growth_of_sizes {s : Share} {pool m n : ℤ} (hm : s.size s.base = m)
    (hn : s.size (s.base + pool) = n) : s.growth pool = n - m := by
  rw [growth, hm, hn]

end Share

/-- The pool before each share is built anew, and the one that is left in the end. -/
def pools (pool : ℤ) : List Share → List ℤ
  | [] => [pool]
  | s :: shares => pool :: pools (pool - s.growth pool) shares

def KeepSlack (pool : ℤ) : List Share → Prop
  | [] => True
  | s :: shares => s.KeepsSlack pool ∧ KeepSlack (pool - s.growth pool) shares

def lastPool (pool : ℤ) : List Share → ℤ
  | [] => pool
  | s :: shares => lastPool (pool - s.growth pool) shares

theorem lastPool_mem (pool : ℤ) (shares : List Share) : lastPool pool shares ∈ pools pool shares := by
  induction shares generalizing pool with
  | nil => exact List.mem_singleton_self pool
  | cons s shares ih => exact List.mem_cons_of_mem _ (ih _)

/-- The pools of a redistribution stay what they are called just in case no share
goes into the slack that the pool already counts. -/
theorem pools_nonneg_iff (pool : ℤ) (shares : List Share) :
    (∀ u ∈ pools pool shares, 0 ≤ u) ↔ 0 ≤ pool ∧ KeepSlack pool shares := by
  induction shares generalizing pool with
  | nil => simp [pools, KeepSlack]
  | cons s shares ih =>
    rw [pools, List.forall_mem_cons, ih, KeepSlack, Share.keepsSlack_iff]

/-- What a share could be built of: its whole size, and whether a cut of it fills its own
budget. -/
structure Demand where
  base : ℤ
  whole : ℤ
  filled : Prop

/-- A share stays in the budget that it is given and is no longer than the whole, which it
is where that fits; and a cut that fills its own budget is found. -/
structure Share.Meets (s : Share) (d : Demand) : Prop where
  base : s.base = d.base
  within : ∀ u, 0 ≤ u → s.size (s.base + u) ≤ s.base + u
  most : ∀ u, 0 ≤ u → s.size (s.base + u) ≤ d.whole
  whole : d.whole ≤ d.base → ∀ u, 0 ≤ u → s.size (s.base + u) = d.whole
  filled : d.filled → s.size s.base = s.base

/-- The most that some shares take when each has its own budget. -/
def atFirst : List Demand → ℤ
  | [] => 0
  | d :: demands => min d.whole d.base + atFirst demands

/-- Each demand is whole in its own budget or fills it, or all that was asked so far can be had
beside what the others take at first. -/
def Affordable (total spent : ℤ) : List Demand → Prop
  | [] => True
  | d :: demands =>
    (d.whole ≤ d.base ∨ d.filled ∨ spent + d.whole + atFirst demands ≤ total) ∧
      Affordable total (spent + d.whole) demands

theorem Share.Meets.growth_whole {s : Share} {d : Demand} (h : s.Meets d) (hd : d.whole ≤ d.base)
    {pool : ℤ} (hpool : 0 ≤ pool) : s.growth pool = 0 := by
  have hbase := h.whole hd 0 (le_refl 0)
  rw [add_zero] at hbase
  rw [Share.growth_of_sizes hbase (h.whole hd pool hpool), sub_self]

theorem Share.Meets.size_base_le {s : Share} {d : Demand} (h : s.Meets d) :
    s.size s.base ≤ min d.whole d.base := by
  have hwithin := h.within 0 (le_refl 0)
  have hmost := h.most 0 (le_refl 0)
  rw [add_zero] at hwithin hmost
  exact le_min hmost (h.base ▸ hwithin)

theorem sum_le_atFirst {shares : List Share} {demands : List Demand}
    (h : List.Forall₂ Share.Meets shares demands) :
    (shares.map fun s ↦ s.size s.base).sum ≤ atFirst demands := by
  induction h with
  | nil => exact le_refl 0
  | cons hs _ ih =>
    rw [List.map_cons, List.sum_cons, atFirst]
    exact add_le_add hs.size_base_le ih

/-- A share does not overdraw the pool that is left beside all that was taken before it. -/
theorem Share.Meets.keepsSlack {s : Share} {d : Demand} (h : s.Meets d) {total spent pool rest : ℤ}
    {demands : List Demand} (hpool : 0 ≤ pool) (hrest : rest ≤ atFirst demands)
    (hleft : total ≤ spent + (s.size s.base + rest) + pool)
    (hd : d.whole ≤ d.base ∨ d.filled ∨ spent + d.whole + atFirst demands ≤ total) :
    s.KeepsSlack pool := by
  rw [Share.keepsSlack_iff]
  obtain hwhole | hfilled | hroom := hd
  · rw [h.growth_whole hwhole hpool, sub_zero]
    exact hpool
  · have hwithin := h.within pool hpool
    rw [Share.growth, h.filled hfilled]
    linarith
  · have hmost := h.most pool hpool
    unfold Share.growth
    linarith

theorem keepSlack_of_affordable {shares : List Share} {demands : List Demand}
    (h : List.Forall₂ Share.Meets shares demands) {total spent pool : ℤ} (hpool : 0 ≤ pool)
    (hleft : total ≤ spent + (shares.map fun s ↦ s.size s.base).sum + pool)
    (ha : Affordable total spent demands) : KeepSlack pool shares := by
  induction h generalizing spent pool with
  | nil => trivial
  | @cons s d shares demands hs hrest ih =>
    obtain ⟨hd, ha⟩ := ha
    rw [List.map_cons, List.sum_cons] at hleft
    have hkeeps := hs.keepsSlack hpool (sum_le_atFirst hrest) hleft hd
    have hmost := hs.most pool hpool
    refine ⟨hkeeps, ih (Share.keepsSlack_iff.mp hkeeps) ?_ ha⟩
    unfold Share.growth
    linarith

end LearningTasks.Library.Budgets
