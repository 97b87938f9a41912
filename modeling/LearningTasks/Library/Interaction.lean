import LearningTasks.Library.Transition

namespace LearningTasks.Library.Interaction

open Transition

/-- What a program does next: it takes a message in, gives one out, or ends, with a fault or
without. -/
inductive Action (ρ σ ε β : Type)
  | receive (resume : Except ε ρ → β)
  | send (message : σ) (resume : Option ε → β)
  | finish (fault : Option ε)

abbrev App (ρ σ ε β : Type) := β → Action ρ σ ε β

inductive Answer (ρ ε : Type)
  | received (result : Except ε ρ)
  | sent (fault : Option ε)

/-- A state of a program, with the messages that came in and went out before it. -/
structure Trace (ρ σ β : Type) where
  state : β
  received : List ρ
  sent : List σ

variable {ρ σ ε β : Type}

namespace Trace

def receive (t : Trace ρ σ β) : Except ε ρ → β → Trace ρ σ β
  | .ok message, next => ⟨next, t.received ++ [message], t.sent⟩
  | .error _, next => ⟨next, t.received, t.sent⟩

def send (t : Trace ρ σ β) (message : σ) (next : β) : Trace ρ σ β :=
  ⟨next, t.received, t.sent ++ [message]⟩

@[simp] theorem receive_state (t : Trace ρ σ β) (result : Except ε ρ) (next : β) :
    (t.receive result next).state = next := by
  cases result <;> rfl

@[simp] theorem receive_sent (t : Trace ρ σ β) (result : Except ε ρ) (next : β) :
    (t.receive result next).sent = t.sent := by
  cases result <;> rfl

end Trace

def advance (app : App ρ σ ε β) (t : Trace ρ σ β) : Answer ρ ε → Option (Trace ρ σ β)
  | .received result => match app t.state with
    | .receive resume => some (t.receive result (resume result))
    | _ => none
  | .sent fault => match app t.state with
    | .send message resume => some (t.send message (resume fault))
    | _ => none

/-- The runs of a program among surroundings that answer as they like. -/
def machine (app : App ρ σ ε β) (start : β) : Machine (Trace ρ σ β) (Answer ρ ε) where
  init t := t = ⟨start, [], []⟩
  step := advance app

/-- The program, with the messages that it has seen as a part of its state. -/
def recorded (app : App ρ σ ε β) : App ρ σ ε (Trace ρ σ β) := fun t ↦
  match app t.state with
  | .receive resume => .receive fun result ↦ t.receive result (resume result)
  | .send message resume => .send message fun fault ↦ t.send message (resume fault)
  | .finish fault => .finish fault

variable {app : App ρ σ ε β} {t t' : Trace ρ σ β}

theorem advance_received {result : Except ε ρ} :
    advance app t (.received result) = some t' ↔
      ∃ resume, app t.state = .receive resume ∧ t' = t.receive result (resume result) := by
  unfold advance
  cases app t.state with
  | receive resume =>
    constructor
    · intro h
      cases h
      exact ⟨resume, rfl, rfl⟩
    · rintro ⟨resume', h, rfl⟩
      cases h
      rfl
  | send message resume => exact iff_of_false (fun h ↦ by cases h) (by rintro ⟨_, h, -⟩; cases h)
  | finish fault => exact iff_of_false (fun h ↦ by cases h) (by rintro ⟨_, h, -⟩; cases h)

theorem advance_sent {fault : Option ε} :
    advance app t (.sent fault) = some t' ↔
      ∃ message resume, app t.state = .send message resume ∧
        t' = t.send message (resume fault) := by
  unfold advance
  cases app t.state with
  | send message resume =>
    constructor
    · intro h
      cases h
      exact ⟨message, resume, rfl, rfl⟩
    · rintro ⟨message', resume', h, rfl⟩
      cases h
      rfl
  | receive resume => exact iff_of_false (fun h ↦ by cases h) (by rintro ⟨_, _, h, -⟩; cases h)
  | finish fault => exact iff_of_false (fun h ↦ by cases h) (by rintro ⟨_, _, h, -⟩; cases h)

theorem recorded_receive {resume : Except ε ρ → Trace ρ σ β}
    (h : recorded app t = .receive resume) : ∃ resume', app t.state = .receive resume' ∧
      resume = fun result ↦ t.receive result (resume' result) := by
  unfold recorded at h
  cases ht : app t.state with
  | receive resume' =>
    rw [ht] at h
    cases h
    exact ⟨resume', rfl, rfl⟩
  | send message resume' =>
    rw [ht] at h
    cases h
  | finish fault =>
    rw [ht] at h
    cases h

theorem recorded_send {message : σ} {resume : Option ε → Trace ρ σ β}
    (h : recorded app t = .send message resume) : ∃ resume', app t.state = .send message resume' ∧
      resume = fun fault ↦ t.send message (resume' fault) := by
  unfold recorded at h
  cases ht : app t.state with
  | send message' resume' =>
    rw [ht] at h
    cases h
    exact ⟨resume', rfl, rfl⟩
  | receive resume' =>
    rw [ht] at h
    cases h
  | finish fault =>
    rw [ht] at h
    cases h

theorem recorded_finish {fault : Option ε} :
    recorded app t = .finish fault ↔ app t.state = .finish fault := by
  unfold recorded
  cases app t.state with
  | finish fault' =>
    exact ⟨fun h ↦ by cases h; rfl, fun h ↦ by cases h; rfl⟩
  | receive resume => exact iff_of_false (fun h ↦ by cases h) (fun h ↦ by cases h)
  | send message resume => exact iff_of_false (fun h ↦ by cases h) (fun h ↦ by cases h)

end LearningTasks.Library.Interaction
