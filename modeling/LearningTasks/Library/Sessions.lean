import LearningTasks.Library.Programs

namespace LearningTasks.Library.Sessions

open Programs

variable {ε S α β : Type}

/-- A database session: what is committed, what its open transaction sees, and how
many statements it has sent. -/
structure Session (S : Type) where
  committed : S
  working : S
  sent : ℕ

abbrev Faults (ε : Type) := ℕ → Option ε

namespace Session

def start (s : S) : Session S := ⟨s, s, 0⟩

/-- A statement of the open transaction; one that fails changes nothing. -/
def statement (faults : Faults ε) (f : S → Except ε (α × S)) : Program ε (Session S) α := fun s ↦
  match faults s.sent, f s.working with
  | some e, _ => (.error e, ⟨s.committed, s.working, s.sent + 1⟩)
  | none, .error e => (.error e, ⟨s.committed, s.working, s.sent + 1⟩)
  | none, .ok (a, w) => (.ok a, ⟨s.committed, w, s.sent + 1⟩)

/-- A commit takes all of the transaction, or fails and takes nothing. -/
def commit (faults : Faults ε) : Program ε (Session S) Unit := fun s ↦
  match faults s.sent with
  | some e => (.error e, ⟨s.committed, s.working, s.sent + 1⟩)
  | none => (.ok (), ⟨s.working, s.working, s.sent + 1⟩)

def rollback : Program ε (Session S) Unit := fun s ↦ (.ok (), ⟨s.committed, s.committed, s.sent⟩)

/-- Work that ends with its commit, and that any exception rolls back. The exception
is raised again, perhaps under another name. -/
def transact (faults : Faults ε) (rename : ε → ε) (p : Program ε (Session S) α) :
    Program ε (Session S) α :=
  Program.handle (do
    let a ← p
    commit faults
    pure a) fun e ↦ do
      rollback
      Program.raise (rename e)

def Keeps (p : Program ε (Session S) α) : Prop := ∀ s, (p s).2.committed = s.committed

theorem statement_of_ok {faults : Faults ε} {f : S → Except ε (α × S)} {s : Session S} {a : α} {w : S}
    (hfault : faults s.sent = none) (h : f s.working = .ok (a, w)) :
    statement faults f s = (.ok a, ⟨s.committed, w, s.sent + 1⟩) := by
  rw [statement, hfault, h]

theorem statement_of_error {faults : Faults ε} {f : S → Except ε (α × S)} {s : Session S} {e : ε}
    (hfault : faults s.sent = none) (h : f s.working = .error e) :
    statement faults f s = (.error e, ⟨s.committed, s.working, s.sent + 1⟩) := by
  rw [statement, hfault, h]

theorem statement_cases (faults : Faults ε) (f : S → Except ε (α × S)) (s : Session S) :
    (∃ e, statement faults f s = (.error e, ⟨s.committed, s.working, s.sent + 1⟩)) ∨
      ∃ a w, f s.working = .ok (a, w) ∧
        statement faults f s = (.ok a, ⟨s.committed, w, s.sent + 1⟩) := by
  cases hfault : faults s.sent with
  | some e => exact .inl ⟨e, by rw [statement, hfault]⟩
  | none =>
    cases h : f s.working with
    | error e => exact .inl ⟨e, statement_of_error hfault h⟩
    | ok x => exact .inr ⟨x.1, x.2, rfl, statement_of_ok hfault h⟩

theorem statement_ok {faults : Faults ε} {f : S → Except ε (α × S)} {s s' : Session S} {a : α}
    (h : statement faults f s = (.ok a, s')) : f s.working = .ok (a, s'.working) := by
  rcases statement_cases faults f s with ⟨e, he⟩ | ⟨b, w, hf, he⟩
  · rw [he] at h
    cases h
  · rw [he] at h
    cases h
    exact hf

theorem statement_sent {faults : Faults ε} {f : S → Except ε (α × S)} {s s' : Session S} {a : α}
    (h : statement faults f s = (.ok a, s')) : faults s.sent = none ∧ s'.sent = s.sent + 1 := by
  cases hfault : faults s.sent with
  | some e =>
    rw [statement, hfault] at h
    cases h
  | none =>
    rcases statement_cases faults f s with ⟨e, he⟩ | ⟨b, w, -, he⟩
    · rw [he] at h
      cases h
    · rw [he] at h
      cases h
      exact ⟨rfl, rfl⟩

namespace Keeps

theorem pure (a : α) : Keeps (Pure.pure a : Program ε (Session S) α) := fun _ ↦ rfl

theorem raise (e : ε) : Keeps (Program.raise e : Program ε (Session S) α) := fun _ ↦ rfl

theorem statement (faults : Faults ε) (f : S → Except ε (α × S)) :
    Keeps (Session.statement faults f) := by
  intro s
  rcases statement_cases faults f s with ⟨e, h⟩ | ⟨a, w, -, h⟩
  · rw [h]
  · rw [h]

theorem ofOption (e : ε) (x : Option α) : Keeps (Program.ofOption e x : Program ε (Session S) α) := by
  cases x with
  | none => exact raise e
  | some a => exact pure a

theorem ofExcept (x : Except ε α) : Keeps (Program.ofExcept x : Program ε (Session S) α) := by
  cases x with
  | error e => exact raise e
  | ok a => exact pure a

theorem bind {p : Program ε (Session S) α} {f : α → Program ε (Session S) β} (hp : Keeps p)
    (hf : ∀ a, Keeps (f a)) : Keeps (p >>= f) := by
  intro s
  have h := hp s
  rcases hr : p s with ⟨_ | a, s'⟩
  · rw [Program.bind_of_error hr, ← h, hr]
  · rw [Program.bind_of_ok hr, hf, ← h, hr]

end Keeps

/-- How a transaction leaves a session: with all of its work, or with none. -/
inductive Settled (p : Program ε (Session S) α) (s : Session S) :
    Except ε α × Session S → Prop
  | rolledBack (e : ε) (s' : Session S) (committed : s'.committed = s.committed)
      (working : s'.working = s.committed) : Settled p s (.error e, s')
  | committed (a : α) (done s' : Session S) (ran : p s = (.ok a, done))
      (committed : s'.committed = done.working) (working : s'.working = done.working) :
      Settled p s (.ok a, s')

theorem transact_settled (faults : Faults ε) (rename : ε → ε) {p : Program ε (Session S) α}
    (hp : Keeps p) (s : Session S) : Settled p s (transact faults rename p s) := by
  have hk := hp s
  unfold transact Program.handle
  rcases hr : p s with ⟨e | a, done⟩
  · rw [hr] at hk
    rw [Program.bind_of_error hr]
    exact .rolledBack _ _ hk hk
  · rw [hr] at hk
    rw [Program.bind_of_ok hr]
    cases hfault : faults done.sent with
    | some e =>
      have hcommit : commit faults done = (.error e, ⟨done.committed, done.working, done.sent + 1⟩) := by
        rw [commit, hfault]
      rw [Program.bind_of_error hcommit]
      exact .rolledBack _ _ hk hk
    | none =>
      have hcommit : commit faults done = (.ok (), ⟨done.working, done.working, done.sent + 1⟩) := by
        rw [commit, hfault]
      rw [Program.bind_of_ok hcommit]
      exact .committed a done _ hr rfl rfl

theorem transact_of_ok {faults : Faults ε} {rename : ε → ε} {p : Program ε (Session S) α}
    {s done : Session S} {a : α} (h : p s = (.ok a, done)) (hfault : faults done.sent = none) :
    transact faults rename p s = (.ok a, ⟨done.working, done.working, done.sent + 1⟩) := by
  have hcommit : commit faults done = (.ok (), ⟨done.working, done.working, done.sent + 1⟩) := by
    rw [commit, hfault]
  unfold transact Program.handle
  rw [Program.bind_of_ok h, Program.bind_of_ok hcommit]
  rfl

/-- Work that has been committed has gone through, and its commit too. -/
theorem transact_ok {faults : Faults ε} {rename : ε → ε} {p : Program ε (Session S) α}
    {s s' : Session S} {a : α} (h : transact faults rename p s = (.ok a, s')) :
    ∃ done, p s = (.ok a, done) ∧ faults done.sent = none ∧ s'.committed = done.working := by
  rcases hr : p s with ⟨e | b, done⟩
  · rw [transact, Program.handle_of_error (Program.bind_of_error hr _)] at h
    cases h
  · cases hfault : faults done.sent with
    | none =>
      rw [transact_of_ok hr hfault] at h
      cases h
      exact ⟨done, rfl, hfault, rfl⟩
    | some e =>
      have hcommit : commit faults done = (.error e, ⟨done.committed, done.working, done.sent + 1⟩) := by
        rw [commit, hfault]
      rw [transact, Program.handle_of_error
        ((Program.bind_of_ok hr _).trans (Program.bind_of_error hcommit _))] at h
      cases h

theorem transact_of_error {faults : Faults ε} {rename : ε → ε} {p : Program ε (Session S) α}
    {s done : Session S} {e : ε} (h : p s = (.error e, done)) :
    transact faults rename p s =
      (.error (rename e), ⟨done.committed, done.committed, done.sent⟩) := by
  unfold transact Program.handle
  rw [Program.bind_of_error h]
  rfl

end Session

end LearningTasks.Library.Sessions
