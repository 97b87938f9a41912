import LearningTasks.Library.Transition
import Mathlib.Logic.Function.Basic

namespace LearningTasks.Library.RowLocks

open Transition

/-- Transactions that lock one row each and keep the lock to their end. A
phase of a transaction carries what it has read and what it will write; its
writes reach the store when it commits. -/
structure Protocol (δ π ι κ : Type*) where
  idle : π
  owner : π → Option κ
  advance : δ → π → ι → Option π
  commit : δ → π → Option δ

structure State (τ δ π κ : Type*) where
  db : δ
  phase : τ → π
  lock : κ → Option τ

inductive Move (τ ι : Type*)
  | advance (t : τ) (a : ι)
  | commit (t : τ)
  | abort (t : τ)

variable {τ δ π ι κ : Type*} [DecidableEq τ] [DecidableEq κ]

def State.finish (s : State τ δ π κ) (idle : π) (t : τ) (db : δ) : State τ δ π κ where
  db := db
  phase := Function.update s.phase t idle
  lock k := if s.lock k = some t then none else s.lock k

/-- A statement waits for the lock that the phase after it holds. -/
def step (P : Protocol δ π ι κ) (s : State τ δ π κ) : Move τ ι → Option (State τ δ π κ)
  | .advance t a => (P.advance s.db (s.phase t) a).bind fun p ↦
    match P.owner p with
    | none => some { s with phase := Function.update s.phase t p }
    | some k =>
      if s.lock k = none ∨ s.lock k = some t then
        some { s with
          phase := Function.update s.phase t p
          lock := Function.update s.lock k (some t) }
      else none
  | .commit t => (P.commit s.db (s.phase t)).map (s.finish P.idle t)
  | .abort t => some (s.finish P.idle t s.db)

def machine (P : Protocol δ π ι κ) (init : δ → Prop) : Machine (State τ δ π κ) (Move τ ι) where
  init s := init s.db ∧ (∀ t, s.phase t = P.idle) ∧ ∀ k, s.lock k = none
  step := step P

theorem step_cases {P : Protocol δ π ι κ} {s s' : State τ δ π κ} {m : Move τ ι}
    (h : step P s m = some s') :
    (∃ t a p, m = .advance t a ∧ P.advance s.db (s.phase t) a = some p ∧ P.owner p = none ∧
      s' = { s with phase := Function.update s.phase t p }) ∨
    (∃ t a p k, m = .advance t a ∧ P.advance s.db (s.phase t) a = some p ∧ P.owner p = some k ∧
      (s.lock k = none ∨ s.lock k = some t) ∧
      s' = { s with phase := Function.update s.phase t p,
                    lock := Function.update s.lock k (some t) }) ∨
    (∃ t db, m = .commit t ∧ P.commit s.db (s.phase t) = some db ∧ s' = s.finish P.idle t db) ∨
    (∃ t, m = .abort t ∧ s' = s.finish P.idle t s.db) := by
  cases m with
  | advance t a =>
    simp only [step, Option.bind_eq_some_iff] at h
    obtain ⟨p, hp, h⟩ := h
    cases ho : P.owner p with
    | none =>
      simp only [ho, Option.some.injEq] at h
      exact .inl ⟨t, a, p, rfl, hp, ho, h.symm⟩
    | some k =>
      simp only [ho, Option.ite_none_right_eq_some, Option.some.injEq] at h
      exact .inr (.inl ⟨t, a, p, k, rfl, hp, ho, h.1, h.2.symm⟩)
  | commit t =>
    obtain ⟨db, hdb, rfl⟩ := Option.map_eq_some_iff.mp h
    exact .inr (.inr (.inl ⟨t, db, rfl, hdb, rfl⟩))
  | abort t => exact .inr (.inr (.inr ⟨t, rfl, (Option.some.inj h).symm⟩))

/-- What is to be shown of single statements and commits, for invariants of
the store and of the phases; `Same k` relates stores that agree on the row `k`
and all that its lock protects. -/
structure Sound (P : Protocol δ π ι κ) (DbInv : δ → Prop) (PhaseInv : δ → π → Prop)
    (Same : κ → δ → δ → Prop) : Prop where
  idle : ∀ db, PhaseInv db P.idle
  owner_idle : P.owner P.idle = none
  advance : ∀ {db p a p'}, DbInv db → PhaseInv db p → P.advance db p a = some p' → PhaseInv db p'
  commit : ∀ {db p db'}, DbInv db → PhaseInv db p → P.commit db p = some db' → DbInv db'
  frame : ∀ {db p db'}, PhaseInv db p → P.commit db p = some db' →
    ∃ k, P.owner p = some k ∧ ∀ k', k' ≠ k → Same k' db db'
  unlocked : ∀ {db db' p}, P.owner p = none → PhaseInv db p → PhaseInv db' p
  same : ∀ {db db' p k}, P.owner p = some k → Same k db db' → PhaseInv db p → PhaseInv db' p

structure Inv (P : Protocol δ π ι κ) (DbInv : δ → Prop) (PhaseInv : δ → π → Prop)
    (s : State τ δ π κ) : Prop where
  db : DbInv s.db
  phase : ∀ t, PhaseInv s.db (s.phase t)
  lock : ∀ t k, P.owner (s.phase t) = some k → s.lock k = some t

variable {P : Protocol δ π ι κ} {DbInv : δ → Prop} {PhaseInv : δ → π → Prop}
  {Same : κ → δ → δ → Prop}

omit [DecidableEq κ] in
theorem Inv.finish (hP : Sound P DbInv PhaseInv Same) {s : State τ δ π κ}
    (hi : Inv P DbInv PhaseInv s) (t : τ) {db : δ} (hdb : DbInv db)
    (hphase : ∀ u, u ≠ t → PhaseInv db (s.phase u)) :
    Inv P DbInv PhaseInv (s.finish P.idle t db) := by
  refine ⟨hdb, fun u ↦ ?_, fun u k hk ↦ ?_⟩
  · by_cases hu : u = t
    · subst hu
      simpa [State.finish] using hP.idle db
    · simpa [State.finish, hu] using hphase u hu
  · by_cases hu : u = t
    · subst hu
      simp [State.finish, hP.owner_idle] at hk
    · simp only [State.finish, Function.update_of_ne hu] at hk ⊢
      have hl := hi.lock u k hk
      rw [hl, if_neg (by simpa using hu)]

theorem inv_step (hP : Sound P DbInv PhaseInv Same) {s s' : State τ δ π κ} {m : Move τ ι}
    (hi : Inv P DbInv PhaseInv s) (h : step P s m = some s') : Inv P DbInv PhaseInv s' := by
  obtain ⟨t, a, p, rfl, hp, ho, rfl⟩ | ⟨t, a, p, k, rfl, hp, ho, hl, rfl⟩ |
    ⟨t, db, rfl, hdb, rfl⟩ | ⟨t, rfl, rfl⟩ := step_cases h
  · have hpi := hP.advance hi.db (hi.phase t) hp
    refine ⟨hi.db, fun u ↦ ?_, fun u k hk ↦ ?_⟩ <;> by_cases hu : u = t
    · subst hu; simpa using hpi
    · simpa [hu] using hi.phase u
    · subst hu; simp [ho] at hk
    · exact hi.lock u k (by simpa [hu] using hk)
  · have hpi := hP.advance hi.db (hi.phase t) hp
    refine ⟨hi.db, fun u ↦ ?_, fun u j hj ↦ ?_⟩ <;> by_cases hu : u = t
    · subst hu; simpa using hpi
    · simpa [hu] using hi.phase u
    · subst hu
      simp only [Function.update_self] at hj
      rw [ho, Option.some.injEq] at hj
      simp [hj]
    · simp only [Function.update_of_ne hu] at hj
      have hlock := hi.lock u j hj
      by_cases hjk : j = k
      · -- the lock is free or its own, so no other transaction holds it
        subst hjk
        obtain hl | hl := hl <;> rw [hlock] at hl
        · cases hl
        · exact absurd (Option.some.inj hl) hu
      · simpa [Function.update_of_ne hjk] using hlock
  · obtain ⟨k, hk, hsame⟩ := hP.frame (hi.phase t) hdb
    refine hi.finish hP t (hP.commit hi.db (hi.phase t) hdb) fun u hu ↦ ?_
    cases ho : P.owner (s.phase u) with
    | none => exact hP.unlocked ho (hi.phase u)
    | some j =>
      have hjk : j ≠ k := by
        rintro rfl
        have hl := hi.lock u j ho
        rw [hi.lock t j hk, Option.some.injEq] at hl
        exact hu hl.symm
      exact hP.same ho (hsame j hjk) (hi.phase u)
  · exact hi.finish hP t hi.db fun u _ ↦ hi.phase u

theorem inv_reachable (hP : Sound P DbInv PhaseInv Same) {init : δ → Prop}
    (h0 : ∀ db, init db → DbInv db) {s : State τ δ π κ}
    (h : (machine P init).Reachable s) : Inv P DbInv PhaseInv s := by
  refine h.invariant (Inv P DbInv PhaseInv) ?_ (fun _ _ _ hi hs ↦ inv_step hP hi hs)
  rintro s ⟨hdb, hphase, -⟩
  refine ⟨h0 s.db hdb, fun t ↦ hphase t ▸ hP.idle s.db, fun t k hk ↦ ?_⟩
  rw [hphase t, hP.owner_idle] at hk
  cases hk

theorem db_step {s s' : State τ δ π κ} {m : Move τ ι} (h : step P s m = some s') :
    s'.db = s.db ∨ ∃ t, m = .commit t ∧ P.commit s.db (s.phase t) = some s'.db := by
  obtain ⟨t, a, p, rfl, hp, ho, rfl⟩ | ⟨t, a, p, k, rfl, hp, ho, hl, rfl⟩ |
    ⟨t, db, rfl, hdb, rfl⟩ | ⟨t, rfl, rfl⟩ := step_cases h
  · exact .inl rfl
  · exact .inl rfl
  · exact .inr ⟨t, rfl, hdb⟩
  · exact .inl rfl

end LearningTasks.Library.RowLocks
