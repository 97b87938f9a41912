import Mathlib.Data.List.Basic
import Mathlib.Data.List.Nodup

namespace LearningTasks.Library.OwnedRows

variable {α κ ω : Type*}

structure Columns (α κ ω : Type*) where
  key : α → κ
  owner : α → ω

namespace Columns

variable (T : Columns α κ ω)

def Keyed (rows : List α) : Prop := (rows.map T.key).Nodup

structure Stable (f : α → α) : Prop where
  key : ∀ r, T.key (f r) = T.key r
  owner : ∀ r, T.owner (f r) = T.owner r

variable {T} {rows : List α} {k : κ} {o : ω}

theorem Keyed.eq (h : T.Keyed rows) {r s : α} (hr : r ∈ rows) (hs : s ∈ rows)
    (hk : T.key r = T.key s) : r = s := List.inj_on_of_nodup_map h hr hs hk

theorem Keyed.forall_key (h : T.Keyed rows) {r : α} (hr : r ∈ rows) {P : α → Prop} :
    (∀ s ∈ rows, T.key s = T.key r → P s) ↔ P r :=
  ⟨fun hall ↦ hall r hr rfl, fun hp _ hs hk ↦ h.eq hs hr hk ▸ hp⟩

theorem Keyed.append (h : T.Keyed rows) {r : α} (hr : ∀ s ∈ rows, T.key s ≠ T.key r) :
    T.Keyed (rows ++ [r]) := by
  unfold Keyed
  rw [List.map_append, List.nodup_append]
  refine ⟨h, by simp, ?_⟩
  intro x hx y hy
  obtain ⟨s, hs, rfl⟩ := List.mem_map.mp hx
  obtain rfl : y = T.key r := by simpa using hy
  exact hr s hs

section

variable [DecidableEq ω]

variable (T) in
def ownedBy (o : ω) (rows : List α) : List α := rows.filter fun r ↦ T.owner r = o

theorem mem_ownedBy {r : α} : r ∈ T.ownedBy o rows ↔ r ∈ rows ∧ T.owner r = o := by
  simp [ownedBy]

theorem Keyed.ownedBy (h : T.Keyed rows) (o : ω) : T.Keyed (T.ownedBy o rows) :=
  List.Nodup.sublist (List.filter_sublist.map T.key) h

theorem ownedBy_append (o : ω) (r : α) :
    T.ownedBy o (rows ++ [r]) = T.ownedBy o rows ++ if T.owner r = o then [r] else [] := by
  simp only [ownedBy, List.filter_append, List.filter_cons, List.filter_nil, decide_eq_true_eq]

theorem Keyed.foreign (h : T.Keyed rows) {r : α} (hr : r ∈ rows) {o : ω} (ho : T.owner r ≠ o) :
    ∀ s ∈ T.ownedBy o rows, T.key s ≠ T.key r := by
  intro s hs hk
  obtain ⟨hs, hso⟩ := mem_ownedBy.mp hs
  rw [h.eq hs hr hk] at hso
  exact ho hso

end

section

variable [DecidableEq κ]

variable (T) in
def modify (k : κ) (f : α → α) (rows : List α) : List α :=
  rows.map fun r ↦ if T.key r = k then f r else r

variable (T) in
def remove (k : κ) (rows : List α) : List α := rows.filter fun r ↦ T.key r != k

theorem Stable.map_key {f : α → α} (hf : T.Stable f) (k : κ) (rows : List α) :
    (T.modify k f rows).map T.key = rows.map T.key := by
  rw [modify, List.map_map]
  refine List.map_congr_left fun r _ ↦ ?_
  by_cases hr : T.key r = k
  · simp [hr, hf.key]
  · simp [hr]

theorem Keyed.modify (h : T.Keyed rows) {f : α → α} (hf : T.Stable f) (k : κ) :
    T.Keyed (T.modify k f rows) := by
  unfold Keyed
  rw [hf.map_key]
  exact h

theorem Keyed.remove (h : T.Keyed rows) (k : κ) : T.Keyed (T.remove k rows) :=
  List.Nodup.sublist (List.filter_sublist.map T.key) h

theorem modify_of_notMem {f : α → α} (h : ∀ r ∈ rows, T.key r ≠ k) : T.modify k f rows = rows := by
  unfold modify
  rw [List.map_congr_left fun r hr ↦ if_neg (h r hr), List.map_id']

theorem remove_of_notMem (h : ∀ r ∈ rows, T.key r ≠ k) : T.remove k rows = rows := by
  unfold remove
  rw [List.filter_eq_self]
  intro r hr
  simpa using h r hr

/-- What an owner can make of a table, with some keys for new rows. -/
inductive Writes (T : Columns α κ ω) (o : ω) (ks : List κ) : List α → List α → Prop
  | refl (rows : List α) : Writes T o ks rows rows
  | append {rows : List α} (r : α) : T.owner r = o → T.key r ∈ ks →
      (∀ s ∈ rows, T.key s ≠ T.key r) → Writes T o ks rows (rows ++ [r])
  | modify {rows : List α} (r : α) (f : α → α) : r ∈ rows → T.owner r = o → T.Stable f →
      Writes T o ks rows (T.modify (T.key r) f rows)
  | remove {rows : List α} (r : α) : r ∈ rows → T.owner r = o →
      Writes T o ks rows (T.remove (T.key r) rows)
  | trans {rows rows' rows'' : List α} : Writes T o ks rows rows' → Writes T o ks rows' rows'' →
      Writes T o ks rows rows''

theorem Writes.mono {ks ks' : List κ} {rows' : List α} (h : T.Writes o ks rows rows')
    (hks : ∀ k ∈ ks, k ∈ ks') : T.Writes o ks' rows rows' := by
  induction h with
  | refl rows => exact .refl rows
  | append r ho hin hfresh => exact .append r ho (hks _ hin) hfresh
  | modify r f hr ho hf => exact .modify r f hr ho hf
  | remove r hr ho => exact .remove r hr ho
  | trans _ _ ih ih' => exact ih.trans ih'

end

section

variable [DecidableEq κ] [DecidableEq ω]

variable (T) in
def lookup (k : κ) (o : ω) (rows : List α) : Option α :=
  rows.find? fun r ↦ T.key r = k && T.owner r = o

theorem lookup_some {r : α} (h : T.lookup k o rows = some r) :
    r ∈ rows ∧ T.key r = k ∧ T.owner r = o := by
  have hp := List.find?_some h
  simp only [Bool.and_eq_true, decide_eq_true_eq] at hp
  exact ⟨List.mem_of_find?_eq_some h, hp⟩

theorem lookup_ownedBy : T.lookup k o (T.ownedBy o rows) = T.lookup k o rows := by
  unfold lookup ownedBy
  rw [List.find?_filter]
  congr 1
  funext r
  by_cases ho : T.owner r = o <;> simp [ho]

theorem ownedBy_modify {f : α → α} (hf : T.Stable f) (o : ω) (k : κ) :
    T.ownedBy o (T.modify k f rows) = T.modify k f (T.ownedBy o rows) := by
  unfold ownedBy modify
  rw [List.filter_map]
  congr 1
  refine List.filter_congr fun r _ ↦ ?_
  by_cases hr : T.key r = k
  · simp [hr, hf.owner]
  · simp [hr]

theorem ownedBy_remove (o : ω) (k : κ) :
    T.ownedBy o (T.remove k rows) = T.remove k (T.ownedBy o rows) := by
  unfold ownedBy remove
  rw [List.filter_comm]

theorem Keyed.ownedBy_modify_foreign (h : T.Keyed rows) {f : α → α} (hf : T.Stable f) {r : α}
    (hr : r ∈ rows) (ho : T.owner r ≠ o) :
    T.ownedBy o (T.modify (T.key r) f rows) = T.ownedBy o rows := by
  rw [ownedBy_modify hf, modify_of_notMem (h.foreign hr ho)]

theorem Keyed.ownedBy_remove_foreign (h : T.Keyed rows) {r : α} (hr : r ∈ rows)
    (ho : T.owner r ≠ o) : T.ownedBy o (T.remove (T.key r) rows) = T.ownedBy o rows := by
  rw [ownedBy_remove, remove_of_notMem (h.foreign hr ho)]

/-- Writes of an owner keep the keys unique, leave the rows of others alone, and
bring no keys but those for new rows. -/
theorem Writes.kept {ks : List κ} {rows' : List α} (h : T.Writes o ks rows rows')
    (hk : T.Keyed rows) :
    T.Keyed rows' ∧ (∀ o', o ≠ o' → T.ownedBy o' rows' = T.ownedBy o' rows) ∧
      ∀ r ∈ rows', (∃ s ∈ rows, T.key s = T.key r) ∨ T.key r ∈ ks := by
  induction h with
  | refl rows => exact ⟨hk, fun _ _ ↦ rfl, fun r hr ↦ .inl ⟨r, hr, rfl⟩⟩
  | append r ho hin hfresh =>
    refine ⟨hk.append hfresh, fun o' hne ↦ ?_, fun s hs ↦ ?_⟩
    · rw [ownedBy_append, if_neg (ho ▸ hne), List.append_nil]
    · rcases List.mem_append.mp hs with hs | hs
      · exact .inl ⟨s, hs, rfl⟩
      · obtain rfl := List.mem_singleton.mp hs
        exact .inr hin
  | modify r f hr ho hf =>
    refine ⟨hk.modify hf _, fun o' hne ↦ hk.ownedBy_modify_foreign hf hr (ho ▸ hne), fun s hs ↦ .inl ?_⟩
    have hmem : T.key s ∈ (T.modify (T.key r) f _).map T.key := List.mem_map_of_mem hs
    rw [hf.map_key] at hmem
    exact List.mem_map.mp hmem
  | remove r hr ho =>
    refine ⟨hk.remove _, fun o' hne ↦ hk.ownedBy_remove_foreign hr (ho ▸ hne), fun s hs ↦ .inl ?_⟩
    exact ⟨s, List.mem_of_mem_filter hs, rfl⟩
  | trans _ _ ih ih' =>
    obtain ⟨hk', hframe, hkeys⟩ := ih hk
    obtain ⟨hk'', hframe', hkeys'⟩ := ih' hk'
    refine ⟨hk'', fun o' hne ↦ (hframe' o' hne).trans (hframe o' hne), fun r hr ↦ ?_⟩
    rcases hkeys' r hr with ⟨s, hs, he⟩ | hin
    · rw [← he]
      exact hkeys s hs
    · exact .inr hin

end

end Columns

end LearningTasks.Library.OwnedRows
