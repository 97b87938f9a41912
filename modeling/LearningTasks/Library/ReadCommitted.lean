import LearningTasks.Library.Transition
import Mathlib.Logic.Function.Basic

namespace LearningTasks.Library.ReadCommitted

open Transition

/-- How requests edit one row. `plan` is what a request that has read a
version goes on to write, as a change of whatever row it finds then; `check`
stands for the table's constraints, evaluated on the row the write produces. -/
structure Editor (Req ρ : Type*) where
  plan : Req → ρ → Option (ρ → ρ)
  check : ρ → Bool

inductive Phase (Req ρ : Type*)
  | idle
  | read (req : Req) (seen : ρ)
  | written (req : Req) (seen version : ρ)

/-- The last committed version of the row, the phase of every transaction and
the transaction that holds the row lock. -/
structure State (τ Req ρ : Type*) where
  row : ρ
  phase : τ → Phase Req ρ
  writer : Option τ

inductive Move (τ Req : Type*)
  | read (t : τ) (req : Req)
  | write (t : τ)
  | commit (t : τ)
  | abort (t : τ)

variable {τ Req ρ : Type*} [DecidableEq τ]

def State.setPhase (s : State τ Req ρ) (t : τ) (p : Phase Req ρ) : State τ Req ρ :=
  { s with phase := Function.update s.phase t p }

@[simp] theorem setPhase_row (s : State τ Req ρ) (t : τ) (p : Phase Req ρ) :
    (s.setPhase t p).row = s.row := rfl

@[simp] theorem setPhase_writer (s : State τ Req ρ) (t : τ) (p : Phase Req ρ) :
    (s.setPhase t p).writer = s.writer := rfl

theorem setPhase_phase (s : State τ Req ρ) (t u : τ) (p : Phase Req ρ) :
    (s.setPhase t p).phase u = if u = t then p else s.phase u := by
  simp [State.setPhase, Function.update_apply]

/-- Reads see the committed version and take no lock. A write waits for the
row lock, applies the plan to the version committed by then and keeps the lock
until the transaction ends. -/
def step (E : Editor Req ρ) (s : State τ Req ρ) : Move τ Req → Option (State τ Req ρ)
  | .read t req =>
    match s.phase t with
    | .idle => some (s.setPhase t (.read req s.row))
    | _ => none
  | .write t =>
    match s.phase t, s.writer with
    | .read req seen, none =>
      match E.plan req seen with
      | some patch =>
        if E.check (patch s.row) then
          some { s.setPhase t (.written req seen (patch s.row)) with writer := some t }
        else none
      | none => none
    | _, _ => none
  | .commit t =>
    match s.phase t with
    | .written _ _ version => some { s.setPhase t .idle with row := version, writer := none }
    | _ => none
  | .abort t =>
    match s.phase t with
    | .idle => none
    | .read _ _ => some (s.setPhase t .idle)
    | .written _ _ _ => some { s.setPhase t .idle with writer := none }

def machine (E : Editor Req ρ) (row : ρ) : Machine (State τ Req ρ) (Move τ Req) where
  init s := s = { row := row, phase := fun _ ↦ .idle, writer := none }
  step := step E

theorem step_cases {E : Editor Req ρ} {s s' : State τ Req ρ} {m : Move τ Req}
    (h : step E s m = some s') :
    (∃ t req, m = .read t req ∧ s.phase t = .idle ∧ s' = s.setPhase t (.read req s.row)) ∨
    (∃ t req seen patch, m = .write t ∧ s.phase t = .read req seen ∧ s.writer = none ∧
      E.plan req seen = some patch ∧ E.check (patch s.row) = true ∧
      s' = { s.setPhase t (.written req seen (patch s.row)) with writer := some t }) ∨
    (∃ t req seen version, m = .commit t ∧ s.phase t = .written req seen version ∧
      s' = { s.setPhase t .idle with row := version, writer := none }) ∨
    (∃ t req seen, m = .abort t ∧ s.phase t = .read req seen ∧ s' = s.setPhase t .idle) ∨
    (∃ t req seen version, m = .abort t ∧ s.phase t = .written req seen version ∧
      s' = { s.setPhase t .idle with writer := none }) := by
  cases m with
  | read t req =>
    cases hp : s.phase t <;> simp only [step, hp, reduceCtorEq, Option.some.injEq] at h
    exact .inl ⟨t, req, rfl, hp, h.symm⟩
  | write t =>
    cases hp : s.phase t with
    | read req seen =>
      cases hw : s.writer with
      | none =>
        cases hpl : E.plan req seen with
        | none => simp [step, hp, hw, hpl] at h
        | some patch =>
          simp only [step, hp, hw, hpl, Option.ite_none_right_eq_some, Option.some.injEq] at h
          exact .inr (.inl ⟨t, req, seen, patch, rfl, hp, rfl, hpl, h.1, h.2.symm⟩)
      | some u => simp [step, hp, hw] at h
    | idle => simp [step, hp] at h
    | written => simp [step, hp] at h
  | commit t =>
    cases hp : s.phase t <;> simp only [step, hp, reduceCtorEq, Option.some.injEq] at h
    exact .inr (.inr (.inl ⟨t, _, _, _, rfl, hp, h.symm⟩))
  | abort t =>
    cases hp : s.phase t <;> simp only [step, hp, reduceCtorEq, Option.some.injEq] at h
    · exact .inr (.inr (.inr (.inl ⟨t, _, _, rfl, hp, h.symm⟩)))
    · exact .inr (.inr (.inr (.inr ⟨t, _, _, _, rfl, hp, h.symm⟩)))

/-- A transaction that has written holds the lock, and its version is its plan
applied to the row that is still committed. Versions read and written satisfy
the table's constraints as the committed row does. -/
structure Inv (E : Editor Req ρ) (s : State τ Req ρ) : Prop where
  row : E.check s.row = true
  seen : ∀ t req seen, s.phase t = .read req seen → E.check seen = true
  written : ∀ t req seen version, s.phase t = .written req seen version →
    s.writer = some t ∧ E.check seen = true ∧ E.check version = true ∧
      ∃ patch, E.plan req seen = some patch ∧ version = patch s.row

theorem inv_step {E : Editor Req ρ} {s s' : State τ Req ρ} {m : Move τ Req} (hi : Inv E s)
    (h : step E s m = some s') : Inv E s' := by
  obtain ⟨hrow, hseen, hwritten⟩ := hi
  obtain ⟨t, req, rfl, hp, rfl⟩ | ⟨t, req, seen, patch, rfl, hp, hw, hpl, hc, rfl⟩ |
    ⟨t, req, seen, version, rfl, hp, rfl⟩ | ⟨t, req, seen, rfl, hp, rfl⟩ |
    ⟨t, req, seen, version, rfl, hp, rfl⟩ := step_cases h
  · refine ⟨hrow, fun u req' seen' hu ↦ ?_, fun u req' seen' v hu ↦ ?_⟩ <;>
      rw [setPhase_phase] at hu <;> split at hu
    · cases hu; exact hrow
    · exact hseen u _ _ hu
    · cases hu
    · exact hwritten u _ _ _ hu
  · refine ⟨hrow, fun u req' seen' hu ↦ ?_, fun u req' seen' v hu ↦ ?_⟩ <;>
      simp only [setPhase_phase] at hu <;> split at hu
    · cases hu
    · exact hseen u _ _ hu
    · next hut => cases hu; exact ⟨by rw [hut], hseen t _ _ hp, hc, patch, hpl, rfl⟩
    · have hl := (hwritten u _ _ _ hu).1
      rw [hw] at hl
      cases hl
  · obtain ⟨hl, -, hv, -⟩ := hwritten t _ _ _ hp
    refine ⟨hv, fun u req' seen' hu ↦ ?_, fun u req' seen' v hu ↦ ?_⟩ <;>
      simp only [setPhase_phase] at hu <;> split at hu
    · cases hu
    · exact hseen u _ _ hu
    · cases hu
    · next hut =>
      have hl' := (hwritten u _ _ _ hu).1
      rw [hl, Option.some.injEq] at hl'
      exact absurd hl'.symm hut
  · refine ⟨hrow, fun u req' seen' hu ↦ ?_, fun u req' seen' v hu ↦ ?_⟩ <;>
      rw [setPhase_phase] at hu <;> split at hu
    · cases hu
    · exact hseen u _ _ hu
    · cases hu
    · exact hwritten u _ _ _ hu
  · obtain ⟨hl, -, -, -⟩ := hwritten t _ _ _ hp
    refine ⟨hrow, fun u req' seen' hu ↦ ?_, fun u req' seen' v hu ↦ ?_⟩ <;>
      simp only [setPhase_phase] at hu <;> split at hu
    · cases hu
    · exact hseen u _ _ hu
    · cases hu
    · next hut =>
      have hl' := (hwritten u _ _ _ hu).1
      rw [hl, Option.some.injEq] at hl'
      exact absurd hl'.symm hut

theorem inv_reachable {E : Editor Req ρ} {row : ρ} (hrow : E.check row = true)
    {s : State τ Req ρ} (h : (machine E row).Reachable s) : Inv E s :=
  h.invariant (Inv E)
    (fun _ h0 ↦ by
      subst h0
      exact ⟨hrow, fun _ _ _ h ↦ (by cases h), fun _ _ _ _ h ↦ (by cases h)⟩)
    (fun _ _ _ hi hs ↦ inv_step hi hs)

theorem row_step {E : Editor Req ρ} {s s' : State τ Req ρ} {m : Move τ Req} (hi : Inv E s)
    (h : step E s m = some s') :
    s'.row = s.row ∨ ∃ t req seen patch, m = .commit t ∧
      s.phase t = .written req seen s'.row ∧ E.check seen = true ∧ E.plan req seen = some patch ∧
      s'.row = patch s.row := by
  obtain ⟨t, req, rfl, hp, rfl⟩ | ⟨t, req, seen, patch, rfl, hp, hw, hpl, hc, rfl⟩ |
    ⟨t, req, seen, version, rfl, hp, rfl⟩ | ⟨t, req, seen, rfl, hp, rfl⟩ |
    ⟨t, req, seen, version, rfl, hp, rfl⟩ := step_cases h
  · exact .inl rfl
  · exact .inl rfl
  · obtain ⟨-, hs, -, patch, hpl, hv⟩ := hi.written t _ _ _ hp
    exact .inr ⟨t, req, seen, patch, rfl, hp, hs, hpl, hv⟩
  · exact .inl rfl
  · exact .inl rfl

/-- Every write finds a row that is still related as `fresh` says to the
version its request read. -/
def FreshWrites (fresh : Req → ρ → ρ → Prop) (s : State τ Req ρ) : Move τ Req → Prop
  | .write t => ∀ req seen, s.phase t = .read req seen → fresh req seen s.row
  | _ => True

/-- Under fresh writes the relation still holds when the writer commits: the
row lock keeps every other commit out. -/
theorem fresh_written {E : Editor Req ρ} {row : ρ} {fresh : Req → ρ → ρ → Prop}
    (hrow : E.check row = true) {s : State τ Req ρ}
    (h : (machine E row).ReachableUnder (FreshWrites fresh) s) :
    ∀ t req seen version, s.phase t = .written req seen version → fresh req seen s.row := by
  have key : Inv E s ∧
      ∀ t req seen version, s.phase t = .written req seen version → fresh req seen s.row := by
    refine h.invariant (fun s ↦ Inv E s ∧
      ∀ t req seen version, s.phase t = .written req seen version → fresh req seen s.row)
      (fun s h0 ↦ ?_) (fun s m s' hP hC hs ↦ ⟨inv_step hP.1 hs, ?_⟩)
    · exact ⟨inv_reachable hrow (.init h0), fun _ _ _ _ h ↦ by rw [h0] at h; cases h⟩
    · intro u req' seen' v hu
      obtain ⟨t, req, rfl, hp, rfl⟩ | ⟨t, req, seen, patch, rfl, hp, hw, hpl, hc, rfl⟩ |
        ⟨t, req, seen, version, rfl, hp, rfl⟩ | ⟨t, req, seen, rfl, hp, rfl⟩ |
        ⟨t, req, seen, version, rfl, hp, rfl⟩ := step_cases hs <;>
        simp only [setPhase_phase] at hu <;> split at hu
      · cases hu
      · exact hP.2 u _ _ _ hu
      · cases hu; exact hC _ _ hp
      · exact hP.2 u _ _ _ hu
      · cases hu
      · next hut =>
        have hl := (hP.1.written t _ _ _ hp).1
        rw [(hP.1.written u _ _ _ hu).1, Option.some.injEq] at hl
        exact absurd hl hut
      · cases hu
      · exact hP.2 u _ _ _ hu
      · cases hu
      · exact hP.2 u _ _ _ hu
  exact key.2

end LearningTasks.Library.ReadCommitted
