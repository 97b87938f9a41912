import Mathlib.Data.List.Sort

namespace LearningTasks.Library.SortedLog

variable {α β : Type*} (r : α → α → Prop) [DecidableRel r]

def Before (a b : α) : Prop := r a b ∧ ¬ r b a

instance (a b : α) : Decidable (Before r a b) := inferInstanceAs (Decidable (_ ∧ _))

variable {r}

theorem orderedInsert_append_left {a : α} (l₁ : List α) {l₂ : List α} (h : ∀ b ∈ l₂, r a b) :
    (l₁ ++ l₂).orderedInsert r a = l₁.orderedInsert r a ++ l₂ := by
  induction l₁ with
  | nil =>
    cases l₂ with
    | nil => rfl
    | cons b l₂ => simp [List.orderedInsert, h b List.mem_cons_self]
  | cons b l₁ ih =>
    by_cases hab : r a b
    · simp [List.orderedInsert, hab]
    · simp [List.orderedInsert, hab, ih]

theorem orderedInsert_append_right {a : α} {l₁ : List α} (l₂ : List α) (h : ∀ b ∈ l₁, ¬ r a b) :
    (l₁ ++ l₂).orderedInsert r a = l₁ ++ l₂.orderedInsert r a := by
  induction l₁ with
  | nil => rfl
  | cons b l₁ ih =>
    have hb := h b List.mem_cons_self
    have hl := ih fun c hc ↦ h c (List.mem_cons_of_mem b hc)
    simp [hb, hl]

theorem prefix_cons_self_iff (b : β) (l : List β) : l <+: b :: l ↔ ∀ c ∈ l, c = b := by
  induction l generalizing b with
  | nil => simp
  | cons c l ih =>
    rw [List.cons_prefix_cons, ih]
    constructor
    · rintro ⟨rfl, h⟩ a ha
      obtain rfl | ha := List.mem_cons.mp ha
      · rfl
      · exact h a ha
    · intro h
      have hc := h c List.mem_cons_self
      exact ⟨hc, fun a ha ↦ (h a (List.mem_cons_of_mem c ha)).trans hc.symm⟩

variable [Std.Total r] [IsTrans α r]

/-- Where one more entry goes: between those before it and those after it,
which keep their order. -/
theorem insertionSort_split {d : α} (l₁ l₂ : List α)
    (h : ∀ a ∈ l₁ ++ l₂, Before r a d ∨ Before r d a) :
    ∃ x y, (l₁ ++ l₂).insertionSort r = x ++ y ∧ (l₁ ++ d :: l₂).insertionSort r = x ++ d :: y ∧
      (∀ a ∈ x, Before r a d) ∧ ∀ a ∈ y, Before r d a := by
  induction l₁ with
  | nil =>
    have hsorted := List.pairwise_insertionSort r l₂
    have hmem : ∀ a ∈ l₂.insertionSort r, Before r a d ∨ Before r d a := fun a ha ↦
      h a ((List.perm_insertionSort r l₂).mem_iff.mp ha)
    rw [List.nil_append, List.nil_append, List.insertionSort_cons]
    generalize l₂.insertionSort r = s at hsorted hmem
    induction s with
    | nil => exact ⟨[], [], rfl, rfl, by simp, by simp⟩
    | cons b s ih =>
      obtain hb | hb := hmem b List.mem_cons_self
      · obtain ⟨x, y, rfl, hi, hx, hy⟩ := ih hsorted.of_cons
          fun a ha ↦ hmem a (List.mem_cons_of_mem b ha)
        refine ⟨b :: x, y, rfl, ?_, List.forall_mem_cons.mpr ⟨hb, hx⟩, hy⟩
        rw [List.orderedInsert, if_neg hb.2, hi]
        rfl
      · refine ⟨[], b :: s, rfl, by rw [List.orderedInsert, if_pos hb.1]; rfl, by simp, ?_⟩
        intro a ha
        obtain rfl | ha' := List.mem_cons.mp ha
        · exact hb
        · have hba := List.rel_of_pairwise_cons hsorted ha'
          exact ⟨IsTrans.trans _ _ _ hb.1 hba, fun had ↦ hb.2 (IsTrans.trans _ _ _ hba had)⟩
  | cons b l₁ ih =>
    obtain ⟨x, y, hs, hd, hx, hy⟩ := ih fun a ha ↦ h a (List.mem_cons_of_mem b ha)
    rw [List.cons_append, List.cons_append, List.insertionSort_cons, List.insertionSort_cons,
      hs, hd]
    obtain hb | hb := h b List.mem_cons_self
    · have hby : ∀ a ∈ y, r b a := fun a ha ↦ IsTrans.trans _ _ _ hb.1 (hy a ha).1
      refine ⟨x.orderedInsert r b, y, orderedInsert_append_left x hby,
        orderedInsert_append_left x (List.forall_mem_cons.mpr ⟨hb.1, hby⟩), ?_, hy⟩
      intro a ha
      obtain rfl | ha := List.mem_orderedInsert r |>.mp ha
      · exact hb
      · exact hx a ha
    · have hbx : ∀ a ∈ x, ¬ r b a := fun a ha hba ↦ hb.2 (IsTrans.trans _ _ _ hba (hx a ha).1)
      refine ⟨x, y.orderedInsert r b, orderedInsert_append_right y hbx, ?_, hx, ?_⟩
      · rw [orderedInsert_append_right _ hbx, List.orderedInsert, if_neg hb.2]
      · intro a ha
        obtain rfl | ha := List.mem_orderedInsert r |>.mp ha
        · exact hb
        · exact hy a ha

/-- One more entry keeps what the sorted log shows as a prefix exactly when it
comes after all the others, or shows the same as those it precedes. -/
theorem map_insertionSort_prefix_iff (f : α → β) {d : α} (l₁ l₂ : List α)
    (h : ∀ a ∈ l₁ ++ l₂, Before r a d ∨ Before r d a) :
    ((l₁ ++ l₂).insertionSort r).map f <+: ((l₁ ++ d :: l₂).insertionSort r).map f ↔
      ∀ a ∈ l₁ ++ l₂, Before r a d ∨ f a = f d := by
  obtain ⟨x, y, hs, hd, hx, hy⟩ := insertionSort_split l₁ l₂ h
  have hmem (a : α) : a ∈ l₁ ++ l₂ ↔ a ∈ x ∨ a ∈ y := by
    rw [← (List.perm_insertionSort r (l₁ ++ l₂)).mem_iff, hs, List.mem_append]
  rw [hs, hd, List.map_append, List.map_append, List.map_cons, List.prefix_append_right_inj,
    prefix_cons_self_iff]
  constructor
  · intro he a ha
    obtain ha | ha := (hmem a).mp ha
    · exact .inl (hx a ha)
    · exact .inr (he (f a) (List.mem_map_of_mem ha))
  · intro he b hb
    obtain ⟨a, ha, rfl⟩ := List.mem_map.mp hb
    obtain hbefore | hsame := he a ((hmem a).mpr (.inr ha))
    · exact absurd hbefore.1 (hy a ha).2
    · exact hsame

end LearningTasks.Library.SortedLog
