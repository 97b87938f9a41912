import LearningTasks.Library.Transition
import Mathlib.Data.List.Basic
import Mathlib.Logic.Function.Basic

namespace LearningTasks.Library.KeyLocks

open Transition

/-- Transactions that lock the keys of the rows they take or add, and keep the locks to
their end. A phase of a transaction carries what it has read and what it will write; its
writes reach the store when it commits. -/
structure Protocol (δ π ι κ : Type*) where
  idle : π
  holds : π → List κ
  advance : δ → π → ι → Option π
  commit : δ → π → Option δ

structure State (τ δ π κ : Type*) where
  db : δ
  phase : τ → π
  lock : κ → Option τ

inductive Move (τ ι : Type*)
  | advance (t : τ) (a : ι)
  | commit (t : τ)
  | abort (t : τ)

variable {τ δ π ι κ : Type*} [DecidableEq τ] [DecidableEq κ]

def State.Free (s : State τ δ π κ) (t : τ) (ks : List κ) : Prop :=
  ∀ k ∈ ks, s.lock k = none ∨ s.lock k = some t

instance (s : State τ δ π κ) (t : τ) (ks : List κ) : Decidable (s.Free t ks) :=
  inferInstanceAs (Decidable (∀ k ∈ ks, _))

def State.enter (s : State τ δ π κ) (t : τ) (p : π) (ks : List κ) : State τ δ π κ where
  db := s.db
  phase := Function.update s.phase t p
  lock k := if k ∈ ks then some t else s.lock k

def State.finish (s : State τ δ π κ) (idle : π) (t : τ) (db : δ) : State τ δ π κ where
  db := db
  phase := Function.update s.phase t idle
  lock k := if s.lock k = some t then none else s.lock k

@[simp] theorem enter_db (s : State τ δ π κ) (t : τ) (p : π)
    (ks : List κ) : (s.enter t p ks).db = s.db := rfl

@[simp] theorem enter_phase_self (s : State τ δ π κ) (t : τ) (p : π) (ks : List κ) :
    (s.enter t p ks).phase t = p := Function.update_self ..

theorem enter_phase_of_ne (s : State τ δ π κ) {t u : τ} (p : π) (ks : List κ) (h : u ≠ t) :
    (s.enter t p ks).phase u = s.phase u := Function.update_of_ne h ..

theorem enter_lock (s : State τ δ π κ) (t : τ) (p : π) (ks : List κ) (k : κ) :
    (s.enter t p ks).lock k = if k ∈ ks then some t else s.lock k := rfl

/-- A statement waits for the locks that the phase after it holds. -/
def step (P : Protocol δ π ι κ) (s : State τ δ π κ) : Move τ ι → Option (State τ δ π κ)
  | .advance t a => (P.advance s.db (s.phase t) a).bind fun p ↦
    if s.Free t (P.holds p) then some (s.enter t p (P.holds p)) else none
  | .commit t => (P.commit s.db (s.phase t)).map (s.finish P.idle t)
  | .abort t => some (s.finish P.idle t s.db)

def machine (P : Protocol δ π ι κ) (init : δ → Prop) : Machine (State τ δ π κ) (Move τ ι) where
  init s := init s.db ∧ (∀ t, s.phase t = P.idle) ∧ ∀ k, s.lock k = none
  step := step P

theorem step_cases {P : Protocol δ π ι κ} {s s' : State τ δ π κ} {m : Move τ ι}
    (h : step P s m = some s') :
    (∃ t a p, m = .advance t a ∧ P.advance s.db (s.phase t) a = some p ∧ s.Free t (P.holds p) ∧
      s' = s.enter t p (P.holds p)) ∨
    (∃ t db, m = .commit t ∧ P.commit s.db (s.phase t) = some db ∧ s' = s.finish P.idle t db) ∨
    (∃ t, m = .abort t ∧ s' = s.finish P.idle t s.db) := by
  cases m with
  | advance t a =>
    obtain ⟨p, hp, h⟩ := Option.bind_eq_some_iff.mp h
    obtain ⟨hfree, h⟩ := Option.ite_none_right_eq_some.mp h
    exact .inl ⟨t, a, p, rfl, hp, hfree, (Option.some.inj h).symm⟩
  | commit t =>
    obtain ⟨db, hdb, rfl⟩ := Option.map_eq_some_iff.mp h
    exact .inr (.inl ⟨t, db, rfl, hdb, rfl⟩)
  | abort t => exact .inr (.inr ⟨t, rfl, (Option.some.inj h).symm⟩)

/-- What is to be shown of single statements and commits, for invariants of the store and
of the phases. `Same k` relates stores that agree on all that the lock of `k` protects,
and `Later` a store to those that commits make of it. -/
structure Sound (P : Protocol δ π ι κ) (DbInv : δ → Prop) (PhaseInv : δ → π → Prop)
    (Same : κ → δ → δ → Prop) (Later : δ → δ → Prop) : Prop where
  idle : ∀ db, PhaseInv db P.idle
  holds_idle : P.holds P.idle = []
  advance : ∀ {db p a p'}, DbInv db → PhaseInv db p → P.advance db p a = some p' → PhaseInv db p'
  commit : ∀ {db p db'}, DbInv db → PhaseInv db p → P.commit db p = some db' → DbInv db'
  later : ∀ {db p db'}, DbInv db → PhaseInv db p → P.commit db p = some db' → Later db db'
  frame : ∀ {db p db'}, DbInv db → PhaseInv db p → P.commit db p = some db' →
    ∀ k, k ∉ P.holds p → Same k db db'
  same : ∀ {db db' p}, DbInv db → DbInv db' → Later db db' → (∀ k ∈ P.holds p, Same k db db') →
    PhaseInv db p → PhaseInv db' p

structure Inv (P : Protocol δ π ι κ) (DbInv : δ → Prop) (PhaseInv : δ → π → Prop)
    (s : State τ δ π κ) : Prop where
  db : DbInv s.db
  phase : ∀ t, PhaseInv s.db (s.phase t)
  lock : ∀ t, ∀ k ∈ P.holds (s.phase t), s.lock k = some t

variable {P : Protocol δ π ι κ} {DbInv : δ → Prop} {PhaseInv : δ → π → Prop}
  {Same : κ → δ → δ → Prop} {Later : δ → δ → Prop}

omit [DecidableEq κ] in
theorem Inv.finish (hP : Sound P DbInv PhaseInv Same Later) {s : State τ δ π κ}
    (hi : Inv P DbInv PhaseInv s) (t : τ) {db : δ} (hdb : DbInv db)
    (hphase : ∀ u, u ≠ t → PhaseInv db (s.phase u)) :
    Inv P DbInv PhaseInv (s.finish P.idle t db) := by
  refine ⟨hdb, fun u ↦ ?_, fun u k hk ↦ ?_⟩
  · by_cases hu : u = t
    · subst hu
      simpa [State.finish] using hP.idle db
    · simpa [State.finish, hu] using hphase u hu
  · by_cases hu : u = t
    · subst hu
      simp [State.finish, hP.holds_idle] at hk
    · simp only [State.finish, Function.update_of_ne hu] at hk ⊢
      have hl := hi.lock u k hk
      rw [hl, if_neg (by simpa using hu)]

omit [DecidableEq τ] [DecidableEq κ] in
theorem Inv.apart {s : State τ δ π κ} (hi : Inv P DbInv PhaseInv s) {t u : τ} (hu : u ≠ t) :
    ∀ k ∈ P.holds (s.phase u), k ∉ P.holds (s.phase t) := by
  intro k hk ht
  have hl := hi.lock u k hk
  rw [hi.lock t k ht, Option.some.injEq] at hl
  exact hu hl.symm

theorem inv_step (hP : Sound P DbInv PhaseInv Same Later) {s s' : State τ δ π κ} {m : Move τ ι}
    (hi : Inv P DbInv PhaseInv s) (h : step P s m = some s') : Inv P DbInv PhaseInv s' := by
  obtain ⟨t, a, p, rfl, hp, hfree, rfl⟩ | ⟨t, db, rfl, hdb, rfl⟩ | ⟨t, rfl, rfl⟩ := step_cases h
  · have hpi := hP.advance hi.db (hi.phase t) hp
    refine ⟨hi.db, fun u ↦ ?_, fun u k hk ↦ ?_⟩ <;> by_cases hu : u = t
    · subst hu
      rw [enter_phase_self]
      exact hpi
    · rw [enter_phase_of_ne s p _ hu]
      exact hi.phase u
    · subst hu
      rw [enter_phase_self] at hk
      rw [enter_lock, if_pos hk]
    · rw [enter_phase_of_ne s p _ hu] at hk
      have hl := hi.lock u k hk
      -- a key that is free for `t` is not one that `u` has locked
      have hne : k ∉ P.holds p := by
        intro hmem
        rcases hfree k hmem with hn | ht
        · rw [hl] at hn
          cases hn
        · rw [hl, Option.some.injEq] at ht
          exact hu ht
      rw [enter_lock, if_neg hne, hl]
  · have hdb' := hP.commit hi.db (hi.phase t) hdb
    refine hi.finish hP t hdb' fun u hu ↦ ?_
    refine hP.same hi.db hdb' (hP.later hi.db (hi.phase t) hdb) (fun k hk ↦ ?_) (hi.phase u)
    exact hP.frame hi.db (hi.phase t) hdb k (hi.apart hu k hk)
  · exact hi.finish hP t hi.db fun u _ ↦ hi.phase u

theorem inv_reachable (hP : Sound P DbInv PhaseInv Same Later) {init : δ → Prop}
    (h0 : ∀ db, init db → DbInv db) {s : State τ δ π κ}
    (h : (machine P init).Reachable s) : Inv P DbInv PhaseInv s := by
  refine h.invariant (Inv P DbInv PhaseInv) ?_ (fun _ _ _ hi hs ↦ inv_step hP hi hs)
  rintro s ⟨hdb, hphase, -⟩
  refine ⟨h0 s.db hdb, fun t ↦ hphase t ▸ hP.idle s.db, fun t k hk ↦ ?_⟩
  rw [hphase t, hP.holds_idle] at hk
  cases hk

theorem db_step {s s' : State τ δ π κ} {m : Move τ ι} (h : step P s m = some s') :
    s'.db = s.db ∨ ∃ t, m = .commit t ∧ P.commit s.db (s.phase t) = some s'.db := by
  obtain ⟨t, a, p, rfl, hp, hfree, rfl⟩ | ⟨t, db, rfl, hdb, rfl⟩ | ⟨t, rfl, rfl⟩ := step_cases h
  · exact .inl rfl
  · exact .inr ⟨t, rfl, hdb⟩
  · exact .inl rfl

/-- A store is related to the stores of all later states. -/
theorem later_leads (hP : Sound P DbInv PhaseInv Same Later) {init : δ → Prop}
    (h0 : ∀ db, init db → DbInv db) (hrefl : ∀ db, Later db db)
    (htrans : ∀ db₁ db₂ db₃, Later db₁ db₂ → Later db₂ db₃ → Later db₁ db₃)
    {s s' : State τ δ π κ} (h : (machine P init).Reachable s) (hl : (machine P init).Leads s s') :
    Later s.db s'.db := by
  refine hl.related (fun s s' ↦ Later s.db s'.db) (fun s ↦ hrefl s.db)
    (fun s t u ↦ htrans s.db t.db u.db) (fun s m s' hs hstep ↦ ?_) h
  have hi := inv_reachable hP h0 hs
  rcases db_step hstep with he | ⟨t, -, hc⟩
  · rw [he]
    exact hrefl s.db
  · exact hP.later hi.db (hi.phase t) hc

/-- The phase of a transaction after some statements, all on one store. -/
def Protocol.script (P : Protocol δ π ι κ) (db : δ) : π → List ι → Option π
  | p, [] => some p
  | p, a :: as => (P.advance db p a).bind fun p' ↦ P.script db p' as

def State.Alone (s : State τ δ π κ) (t : τ) : Prop := ∀ k, s.lock k = none ∨ s.lock k = some t

theorem exec_script {init : δ → Prop} {s : State τ δ π κ} {t : τ} (h : s.Alone t) {as : List ι}
    {p : π} (hp : P.script s.db (s.phase t) as = some p) :
    ∃ s', (machine P init).exec s (as.map (Move.advance t)) = some s' ∧ s'.Alone t ∧
      s'.phase t = p ∧ s'.db = s.db ∧ ∀ u, u ≠ t → s'.phase u = s.phase u := by
  induction as generalizing s with
  | nil => exact ⟨s, rfl, h, Option.some.inj hp, rfl, fun _ _ ↦ rfl⟩
  | cons a as ih =>
    obtain ⟨p', hp', hrest⟩ := Option.bind_eq_some_iff.mp hp
    have hfree : s.Free t (P.holds p') := fun k _ ↦ h k
    have hstep : step P s (.advance t a) = some (s.enter t p' (P.holds p')) := by
      rw [step, hp', Option.bind_some, if_pos hfree]
    have halone : (s.enter t p' (P.holds p')).Alone t := by
      intro k
      rw [enter_lock]
      split
      · exact .inr rfl
      · exact h k
    obtain ⟨s', hexec, halone', hphase, hdb, hothers⟩ :=
      ih halone (by rwa [enter_phase_self, enter_db])
    refine ⟨s', ?_, halone', hphase, hdb, fun u hu ↦ ?_⟩
    · rw [List.map_cons, Machine.exec]
      change (step P s (.advance t a)).bind _ = _
      rw [hstep]
      exact hexec
    · rw [hothers u hu, enter_phase_of_ne s p' _ hu]

theorem exec_serial {init : δ → Prop} {s : State τ δ π κ} {t : τ} (h : s.Alone t) {as : List ι}
    {p : π} (hp : P.script s.db (s.phase t) as = some p) {db : δ} (hc : P.commit s.db p = some db) :
    ∃ s', (machine P init).Leads s s' ∧ s'.db = db ∧ s'.phase t = P.idle ∧
      (∀ u, u ≠ t → s'.phase u = s.phase u) ∧ ∀ k, s'.lock k = none := by
  obtain ⟨s₁, hexec, halone, hphase, hdb, hothers⟩ := exec_script h hp
  have hstep : (machine P init).step s₁ (.commit t) = some (s₁.finish P.idle t db) := by
    change step P s₁ (.commit t) = _
    rw [step, hphase, hdb, hc]
    rfl
  refine ⟨s₁.finish P.idle t db, (Machine.Leads.exec hexec).tail hstep, rfl,
    Function.update_self .., fun u hu ↦ ?_, fun k ↦ ?_⟩
  · exact (Function.update_of_ne hu ..).trans (hothers u hu)
  change (if s₁.lock k = some t then none else s₁.lock k) = none
  rcases halone k with hn | ht
  · rw [hn]
    rfl
  · exact if_pos ht

section

variable {α ω : Type*}

/-- The operations of the transactions that commit along a run, in the order of their commits. -/
def Protocol.history (P : Protocol δ π ι κ) (op : π → Option ω) (s : State τ δ π κ) :
    List (Move τ ι) → List ω
  | [] => []
  | m :: ms => (match m with
      | .commit t => (op (s.phase t)).toList
      | _ => []) ++ (match step P s m with
      | some s' => P.history op s' ms
      | none => [])

/-- A sequence of operations each of which is legal where it stands. -/
def Lawful (legal : ω → α → Prop) (effect : ω → α → α) : α → List ω → Prop
  | _, [] => True
  | a, o :: os => legal o a ∧ Lawful legal effect (effect o a) os

def replay (effect : ω → α → α) (a : α) (os : List ω) : α := os.foldl (fun a o ↦ effect o a) a

/-- A commit is one legal operation of an abstract store that the store stands for. -/
def Serializes (P : Protocol δ π ι κ) (DbInv : δ → Prop) (PhaseInv : δ → π → Prop)
    (op : π → Option ω) (legal : ω → α → Prop) (effect : ω → α → α) (Stands : δ → α → Prop) :
    Prop :=
  ∀ {db p db' a}, DbInv db → PhaseInv db p → Stands db a → P.commit db p = some db' →
    ∃ o, op p = some o ∧ legal o a ∧ Stands db' (effect o a)

/-- Whatever the transactions interleave, the store is what their operations make of the
abstract one, each at its commit and alone. -/
theorem history_serial (hP : Sound P DbInv PhaseInv Same Later) {op : π → Option ω}
    {legal : ω → α → Prop} {effect : ω → α → α} {Stands : δ → α → Prop}
    (hserial : Serializes P DbInv PhaseInv op legal effect Stands) {init : δ → Prop}
    {s s' : State τ δ π κ} {ms : List (Move τ ι)} {a : α} (hi : Inv P DbInv PhaseInv s)
    (ha : Stands s.db a) (h : (machine P init).exec s ms = some s') :
    Lawful legal effect a (P.history op s ms) ∧
      Stands s'.db (replay effect a (P.history op s ms)) := by
  induction ms generalizing s a with
  | nil =>
    cases h
    exact ⟨trivial, ha⟩
  | cons m ms ih =>
    obtain ⟨s₁, hstep, hrest⟩ := Option.bind_eq_some_iff.mp h
    change step P s m = some s₁ at hstep
    have hi₁ := inv_step hP hi hstep
    obtain ⟨t, b, p, rfl, hp, hfree, rfl⟩ | ⟨t, db, rfl, hdb, rfl⟩ | ⟨t, rfl, rfl⟩ :=
      step_cases hstep
    · simp only [Protocol.history, hstep, List.nil_append]
      exact ih hi₁ ha hrest
    · obtain ⟨o, ho, hlegal, ha'⟩ := hserial hi.db (hi.phase t) ha hdb
      obtain ⟨hlawful, hstands⟩ := ih hi₁ ha' hrest
      simp only [Protocol.history, hstep, ho, Option.toList_some, List.singleton_append]
      exact ⟨⟨hlegal, hlawful⟩, hstands⟩
    · simp only [Protocol.history, hstep, List.nil_append]
      exact ih hi₁ ha hrest

end

end LearningTasks.Library.KeyLocks
