import Mathlib.Logic.Relation

namespace LearningTasks.Library.Transition

variable {σ ι : Type*}

/-- A state machine whose labels name the move that is tried. A move that is
not enabled in a state has no result there. -/
structure Machine (σ ι : Type*) where
  init : σ → Prop
  step : σ → ι → Option σ

namespace Machine

variable (M : Machine σ ι)

def exec : σ → List ι → Option σ
  | s, [] => some s
  | s, i :: is => (M.step s i).bind (fun s' ↦ exec s' is)

def execChecked (ok : σ → ι → Bool) : σ → List ι → Option σ
  | s, [] => some s
  | s, i :: is => if ok s i then (M.step s i).bind (fun s' ↦ execChecked ok s' is) else none

/-- The states of the runs all of whose moves meet a condition. -/
inductive ReachableUnder (C : σ → ι → Prop) : σ → Prop
  | init {s : σ} : M.init s → ReachableUnder C s
  | step {s s' : σ} {i : ι} :
      ReachableUnder C s → C s i → M.step s i = some s' → ReachableUnder C s'

def Reachable : σ → Prop := M.ReachableUnder fun _ _ ↦ True

def Leads : σ → σ → Prop := Relation.ReflTransGen fun s s' ↦ ∃ i, M.step s i = some s'

def LeadsUnder (C : σ → ι → Prop) : σ → σ → Prop :=
  Relation.ReflTransGen fun s s' ↦ ∃ i, C s i ∧ M.step s i = some s'

variable {M}

theorem Reachable.start {s : σ} (h : M.init s) : M.Reachable s := ReachableUnder.init h

theorem Reachable.next {s s' : σ} {i : ι} (h : M.Reachable s) (hs : M.step s i = some s') :
    M.Reachable s' := ReachableUnder.step h trivial hs

theorem ReachableUnder.reachable {C : σ → ι → Prop} {s : σ} (h : M.ReachableUnder C s) :
    M.Reachable s := by
  induction h with
  | init h => exact .init h
  | step _ _ hs ih => exact ih.next hs

theorem ReachableUnder.invariant {C : σ → ι → Prop} (P : σ → Prop)
    (h0 : ∀ s, M.init s → P s)
    (hs : ∀ s i s', P s → C s i → M.step s i = some s' → P s') {s : σ}
    (h : M.ReachableUnder C s) : P s := by
  induction h with
  | init h => exact h0 _ h
  | step _ hC hi ih => exact hs _ _ _ ih hC hi

theorem Reachable.invariant (P : σ → Prop) (h0 : ∀ s, M.init s → P s)
    (hs : ∀ s i s', P s → M.step s i = some s' → P s') {s : σ} (h : M.Reachable s) : P s :=
  ReachableUnder.invariant P h0 (fun s i s' hP _ ↦ hs s i s' hP) h

theorem Reachable.exec {s s' : σ} (h : M.Reachable s) {is : List ι}
    (he : M.exec s is = some s') : M.Reachable s' := by
  induction is generalizing s with
  | nil => cases he; exact h
  | cons i is ih =>
    obtain ⟨t, ht, he⟩ := Option.bind_eq_some_iff.mp he
    exact ih (h.next ht) he

theorem ReachableUnder.execChecked {C : σ → ι → Prop} {ok : σ → ι → Bool}
    (hok : ∀ s i, ok s i = true → C s i) {s s' : σ} (h : M.ReachableUnder C s) {is : List ι}
    (he : M.execChecked ok s is = some s') : M.ReachableUnder C s' := by
  induction is generalizing s with
  | nil => cases he; exact h
  | cons i is ih =>
    obtain ⟨hi, he⟩ := Option.ite_none_right_eq_some.mp he
    obtain ⟨t, ht, he⟩ := Option.bind_eq_some_iff.mp he
    exact ih (.step h (hok s i hi) ht) he

theorem Leads.refl (s : σ) : M.Leads s s := Relation.ReflTransGen.refl

theorem Leads.tail {s t u : σ} {i : ι} (h : M.Leads s t) (hs : M.step t i = some u) :
    M.Leads s u := Relation.ReflTransGen.tail h ⟨i, hs⟩

theorem Leads.reachable {s t : σ} (hs : M.Reachable s) (h : M.Leads s t) : M.Reachable t := by
  induction h with
  | refl => exact hs
  | tail _ hi ih => obtain ⟨i, hi⟩ := hi; exact ih.next hi

theorem LeadsUnder.leads {C : σ → ι → Prop} {s t : σ} (h : M.LeadsUnder C s t) :
    M.Leads s t := by
  induction h with
  | refl => exact .refl s
  | tail _ hi ih => obtain ⟨i, -, hi⟩ := hi; exact ih.tail hi

theorem LeadsUnder.refl {C : σ → ι → Prop} (s : σ) : M.LeadsUnder C s s :=
  Relation.ReflTransGen.refl

theorem LeadsUnder.tail {C : σ → ι → Prop} {s t u : σ} {i : ι} (h : M.LeadsUnder C s t)
    (hC : C t i) (hs : M.step t i = some u) : M.LeadsUnder C s u :=
  Relation.ReflTransGen.tail h ⟨i, hC, hs⟩

theorem LeadsUnder.reachable {C : σ → ι → Prop} {s t : σ} (hs : M.ReachableUnder C s)
    (h : M.LeadsUnder C s t) : M.ReachableUnder C t := by
  induction h with
  | refl => exact hs
  | tail _ hi ih => obtain ⟨i, hC, hi⟩ := hi; exact .step ih hC hi

theorem LeadsUnder.stable {C : σ → ι → Prop} (P : σ → Prop)
    (hk : ∀ s i s', M.ReachableUnder C s → P s → C s i → M.step s i = some s' → P s')
    {s t : σ} (hs : M.ReachableUnder C s) (h : M.LeadsUnder C s t) (hP : P s) : P t := by
  induction h with
  | refl => exact hP
  | tail hl hi ih =>
    obtain ⟨i, hC, hi⟩ := hi
    exact hk _ i _ (LeadsUnder.reachable hs hl) ih hC hi

theorem Leads.exec {s t : σ} {is : List ι} (h : M.exec s is = some t) : M.Leads s t := by
  induction is generalizing s with
  | nil => cases h; exact Leads.refl _
  | cons i is ih =>
    obtain ⟨u, hu, h⟩ := Option.bind_eq_some_iff.mp h
    exact Relation.ReflTransGen.head ⟨i, hu⟩ (ih h)

/-- A property kept by every move from a reachable state, once it holds, holds
in all later states. -/
theorem Leads.stable (P : σ → Prop)
    (hk : ∀ s i s', M.Reachable s → P s → M.step s i = some s' → P s')
    {s t : σ} (hs : M.Reachable s) (h : M.Leads s t) (hP : P s) : P t := by
  induction h with
  | refl => exact hP
  | tail hl hi ih => obtain ⟨i, hi⟩ := hi; exact hk _ i _ (Leads.reachable hs hl) ih hi

/-- A reflexive and transitive relation kept by every move from a reachable
state holds between a state and all of its later states. -/
theorem Leads.related (R : σ → σ → Prop) (hr : ∀ s, R s s)
    (ht : ∀ s t u, R s t → R t u → R s u)
    (hk : ∀ s i s', M.Reachable s → M.step s i = some s' → R s s')
    {s t : σ} (hs : M.Reachable s) (h : M.Leads s t) : R s t := by
  induction h with
  | refl => exact hr s
  | tail hl hi ih => obtain ⟨i, hi⟩ := hi; exact ht _ _ _ ih (hk _ i _ (Leads.reachable hs hl) hi)

end Machine

end LearningTasks.Library.Transition
