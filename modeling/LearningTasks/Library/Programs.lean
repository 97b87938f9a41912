import Mathlib.Order.Defs.Unbundled
import Mathlib.Tactic.Common

namespace LearningTasks.Library.Programs

variable {ε ω σ ρ ρ' α β : Type}

/-- A program that reads and changes a world and may raise an exception. -/
def Program (ε ω α : Type) := ω → Except ε α × ω

namespace Program

instance : Monad (Program ε ω) where
  pure a := fun w ↦ (.ok a, w)
  bind p f := fun w ↦
    match p w with
    | (.ok a, w) => f a w
    | (.error e, w) => (.error e, w)

def raise (e : ε) : Program ε ω α := fun w ↦ (.error e, w)

/-- What is done about the exceptions of a program, in the world that they leave. -/
def handle (p : Program ε ω α) (handler : ε → Program ε ω α) : Program ε ω α := fun w ↦
  match p w with
  | (.ok a, w) => (.ok a, w)
  | (.error e, w) => handler e w

/-- What is done last in either case; its own exception supersedes the outcome. -/
def ensure (p : Program ε ω α) (last : Program ε ω Unit) : Program ε ω α := fun w ↦
  match p w with
  | (outcome, w) =>
    match last w with
    | (.ok _, w) => (outcome, w)
    | (.error e, w) => (.error e, w)

def ofOption (e : ε) : Option α → Program ε ω α
  | some a => pure a
  | none => raise e

def ofExcept : Except ε α → Program ε ω α
  | .ok a => pure a
  | .error e => raise e

/-- A program that knows nothing of what stands beside its world. -/
def within (p : Program ε σ α) : Program ε (σ × ρ) α := fun w ↦ ((p w.1).1, ((p w.1).2, w.2))

/-- A program that works only on what stands beside the world. -/
def beside (p : Program ε ρ α) : Program ε (σ × ρ) α := fun w ↦ ((p w.2).1, (w.1, (p w.2).2))

def withLocal {υ : Type} (u : υ) (p : Program ε ((σ × υ) × ρ) α) : Program ε (σ × ρ) α := fun w ↦
  ((p ((w.1, u), w.2)).1, ((p ((w.1, u), w.2)).2.1.1, (p ((w.1, u), w.2)).2.2))

@[simp] theorem pure_run (a : α) (w : ω) : (pure a : Program ε ω α) w = (.ok a, w) := rfl

@[simp] theorem raise_run (e : ε) (w : ω) : (raise e : Program ε ω α) w = (.error e, w) := rfl

theorem bind_run (p : Program ε ω α) (f : α → Program ε ω β) (w : ω) :
    (p >>= f) w = match p w with
      | (.ok a, w) => f a w
      | (.error e, w) => (.error e, w) := rfl

theorem bind_of_ok {p : Program ε ω α} {w w' : ω} {a : α} (h : p w = (.ok a, w'))
    (f : α → Program ε ω β) : (p >>= f) w = f a w' := by
  rw [bind_run, h]

theorem bind_of_error {p : Program ε ω α} {w w' : ω} {e : ε} (h : p w = (.error e, w'))
    (f : α → Program ε ω β) : (p >>= f) w = (.error e, w') := by
  rw [bind_run, h]

theorem bind_ok {p : Program ε ω α} {f : α → Program ε ω β} {w w' : ω} {b : β}
    (h : (p >>= f) w = (.ok b, w')) : ∃ a w₁, p w = (.ok a, w₁) ∧ f a w₁ = (.ok b, w') := by
  rcases hp : p w with ⟨e | a, w₁⟩
  · rw [bind_of_error hp] at h
    cases h
  · rw [bind_of_ok hp] at h
    exact ⟨a, w₁, rfl, h⟩

theorem bind_raise (p : Program ε ω α) (e : ε) (w : ω) :
    ∃ e' w', (p >>= fun _ ↦ (raise e : Program ε ω β)) w = (.error e', w') := by
  rcases hp : p w with ⟨e' | a, w'⟩
  · exact ⟨e', w', bind_of_error hp _⟩
  · exact ⟨e, w', bind_of_ok hp _⟩

theorem ofOption_ok {e : ε} {x : Option α} {w w' : ω} {a : α}
    (h : (ofOption e x : Program ε ω α) w = (.ok a, w')) : x = some a ∧ w' = w := by
  cases x with
  | none => cases h
  | some b =>
    cases h
    exact ⟨rfl, rfl⟩

theorem ofExcept_ok {x : Except ε α} {w w' : ω} {a : α}
    (h : (ofExcept x : Program ε ω α) w = (.ok a, w')) : x = .ok a ∧ w' = w := by
  cases x with
  | error e => cases h
  | ok b =>
    cases h
    exact ⟨rfl, rfl⟩

theorem within_run {p : Program ε σ α} {s s' : σ} {outcome : Except ε α}
    (h : p s = (outcome, s')) (r : ρ) :
    (within p : Program ε (σ × ρ) α) (s, r) = (outcome, (s', r)) := by
  simp only [within, h]

theorem run_of_within {p : Program ε σ α} {w w' : σ × ρ} {outcome : Except ε α}
    (h : within p w = (outcome, w')) : p w.1 = (outcome, w'.1) ∧ w'.2 = w.2 := by
  cases h
  exact ⟨rfl, rfl⟩

theorem beside_run {p : Program ε ρ α} {r r' : ρ} {outcome : Except ε α}
    (h : p r = (outcome, r')) (s : σ) :
    (beside p : Program ε (σ × ρ) α) (s, r) = (outcome, (s, r')) := by
  simp only [beside, h]

theorem handle_of_ok {p : Program ε ω α} {w w' : ω} {a : α} (h : p w = (.ok a, w'))
    (handler : ε → Program ε ω α) : p.handle handler w = (.ok a, w') := by
  rw [handle, h]

theorem handle_of_error {p : Program ε ω α} {w w' : ω} {e : ε} (h : p w = (.error e, w'))
    (handler : ε → Program ε ω α) : p.handle handler w = handler e w' := by
  rw [handle, h]

theorem handle_ok {p : Program ε ω α} {handler : ε → Program ε ω α} {w w' : ω} {a : α}
    (h : p.handle handler w = (.ok a, w')) :
    p w = (.ok a, w') ∨ ∃ e w₁, p w = (.error e, w₁) ∧ handler e w₁ = (.ok a, w') := by
  rcases hp : p w with ⟨e | b, w₁⟩
  · rw [handle_of_error hp] at h
    exact .inr ⟨e, w₁, rfl, h⟩
  · rw [handle_of_ok hp] at h
    exact .inl h

theorem pure_bind (a : α) (f : α → Program ε ω β) : (pure a : Program ε ω α) >>= f = f a := rfl

theorem bind_assoc {γ : Type} (p : Program ε ω α) (f : α → Program ε ω β)
    (g : β → Program ε ω γ) : p >>= f >>= g = p >>= fun a ↦ f a >>= g := by
  funext w
  rcases hp : p w with ⟨e | a, w'⟩
  · rw [bind_of_error (bind_of_error hp f), bind_of_error hp]
  · rw [bind_of_ok hp, bind_run, bind_of_ok hp]
    rfl

@[simp] theorem beside_pure (a : α) : (beside (pure a) : Program ε (σ × ρ) α) = pure a := rfl

@[simp] theorem within_pure (a : α) : (within (pure a) : Program ε (σ × ρ) α) = pure a := rfl

@[simp] theorem within_raise (e : ε) : (within (raise e) : Program ε (σ × ρ) α) = raise e := rfl

theorem within_bind (p : Program ε σ α) (f : α → Program ε σ β) :
    (within (p >>= f) : Program ε (σ × ρ) β) = within p >>= fun a ↦ within (f a) := by
  funext ⟨s, r⟩
  simp only [within, bind_run]
  rcases p s with ⟨_ | a, s'⟩ <;> rfl

theorem within_handle (p : Program ε σ α) (f : ε → Program ε σ α) :
    (within (p.handle f) : Program ε (σ × ρ) α) = (within p).handle fun e ↦ within (f e) := by
  funext ⟨s, r⟩
  simp only [within, handle]
  rcases p s with ⟨_ | a, s'⟩ <;> rfl

/-- A program on the side, which never raises and leaves the world alone. -/
def Silent (t : Program ε (σ × ρ) α) : Prop := ∀ s r, ∃ a r', t (s, r) = (.ok a, (s, r'))

/-- Two programs with the same world, whatever stands beside it: one outcome and
one world that is left. -/
def Agree (p : Program ε (σ × ρ) α) (q : Program ε (σ × ρ') α) : Prop :=
  ∀ s r r', (p (s, r)).1 = (q (s, r')).1 ∧ (p (s, r)).2.1 = (q (s, r')).2.1

theorem Silent.beside {t : Program ε ρ α} (h : ∀ r, ∃ a r', t r = (.ok a, r')) :
    Silent (σ := σ) (beside t) := by
  intro s r
  obtain ⟨a, r', ht⟩ := h r
  exact ⟨a, r', by rw [Program.beside, ht]⟩

namespace Agree

theorem within (p : Program ε σ α) :
    Agree (p.within : Program ε (σ × ρ) α) (p.within : Program ε (σ × ρ') α) :=
  fun _ _ _ ↦ ⟨rfl, rfl⟩

theorem pure (a : α) :
    Agree (Pure.pure a : Program ε (σ × ρ) α) (Pure.pure a : Program ε (σ × ρ') α) :=
  fun _ _ _ ↦ ⟨rfl, rfl⟩

theorem raise (e : ε) :
    Agree (Program.raise e : Program ε (σ × ρ) α) (Program.raise e : Program ε (σ × ρ') α) :=
  fun _ _ _ ↦ ⟨rfl, rfl⟩

variable {p : Program ε (σ × ρ) α} {q : Program ε (σ × ρ') α}

theorem ofOption (e : ε) (a : Option α) :
    Agree (Program.ofOption e a : Program ε (σ × ρ) α)
      (Program.ofOption e a : Program ε (σ × ρ') α) := by
  cases a with
  | none => exact raise e
  | some a => exact pure a

theorem cases (h : Agree p q) (s : σ) (r : ρ) (r' : ρ') :
    ∃ outcome s' t t', p (s, r) = (outcome, (s', t)) ∧ q (s, r') = (outcome, (s', t')) := by
  obtain ⟨houtcome, hs⟩ := h s r r'
  refine ⟨(p (s, r)).1, (p (s, r)).2.1, (p (s, r)).2.2, (q (s, r')).2.2, rfl, ?_⟩
  rw [houtcome, hs]

theorem bind (h : Agree p q) {f : α → Program ε (σ × ρ) β} {g : α → Program ε (σ × ρ') β}
    (hf : ∀ a, Agree (f a) (g a)) : Agree (p >>= f) (q >>= g) := by
  intro s r r'
  obtain ⟨outcome, s', t, t', hp, hq⟩ := h.cases s r r'
  cases outcome with
  | error e =>
    rw [bind_of_error hp, bind_of_error hq]
    exact ⟨rfl, rfl⟩
  | ok a =>
    rw [bind_of_ok hp, bind_of_ok hq]
    exact hf a s' t t'

/-- What two programs do on the side may differ, and so may what comes of it. -/
theorem silent {γ δ : Type} {t : Program ε (σ × ρ) γ} {u : Program ε (σ × ρ') δ} (ht : Silent t)
    (hu : Silent u) {f : γ → Program ε (σ × ρ) β} {g : δ → Program ε (σ × ρ') β}
    (hf : ∀ c d, Agree (f c) (g d)) : Agree (t >>= f) (u >>= g) := by
  intro s r r'
  obtain ⟨c, t, ht⟩ := ht s r
  obtain ⟨d, t', hu⟩ := hu s r'
  rw [bind_of_ok ht, bind_of_ok hu]
  exact hf c d s t t'

theorem handle (h : Agree p q) {f : ε → Program ε (σ × ρ) α} {g : ε → Program ε (σ × ρ') α}
    (hf : ∀ e, Agree (f e) (g e)) : Agree (p.handle f) (q.handle g) := by
  intro s r r'
  obtain ⟨outcome, s', t, t', hp, hq⟩ := h.cases s r r'
  cases outcome with
  | error e =>
    rw [handle_of_error hp, handle_of_error hq]
    exact hf e s' t t'
  | ok a =>
    rw [handle_of_ok hp, handle_of_ok hq]
    exact ⟨rfl, rfl⟩

theorem withLocal {υ : Type} {p : Program ε ((σ × υ) × ρ) α} {q : Program ε ((σ × υ) × ρ') α}
    (h : Agree p q) (u : υ) : Agree (p.withLocal u) (q.withLocal u) := by
  intro s r r'
  obtain ⟨houtcome, hs⟩ := h (s, u) r r'
  exact ⟨houtcome, congrArg Prod.fst hs⟩

end Agree

/-- What a program does beside its world, whatever it finds there. -/
def Leaves (S : ρ → ρ → Prop) (p : Program ε (σ × ρ) α) : Prop :=
  ∀ s r, S r (p (s, r)).2.2

namespace Leaves

section

variable {S : ρ → ρ → Prop} [Std.Refl S]

theorem pure (a : α) : Leaves S (Pure.pure a : Program ε (σ × ρ) α) :=
  fun _ r ↦ Std.Refl.refl (r := S) r

theorem raise (e : ε) : Leaves S (Program.raise e : Program ε (σ × ρ) α) :=
  fun _ r ↦ Std.Refl.refl (r := S) r

theorem within (p : Program ε σ α) : Leaves S (p.within : Program ε (σ × ρ) α) :=
  fun _ r ↦ Std.Refl.refl (r := S) r

theorem ofOption (e : ε) (a : Option α) :
    Leaves S (Program.ofOption e a : Program ε (σ × ρ) α) := by
  cases a with
  | none => exact raise e
  | some a => exact pure a

end

section

variable {S : ρ → ρ → Prop} [IsTrans ρ S] {p : Program ε (σ × ρ) α}

theorem bind (h : Leaves S p) {f : α → Program ε (σ × ρ) β} (hf : ∀ a, Leaves S (f a)) :
    Leaves S (p >>= f) := by
  intro s r
  have hp := h s r
  rcases hrun : p (s, r) with ⟨e | a, w⟩
  · rw [hrun] at hp
    rw [bind_of_error hrun]
    exact hp
  · rw [hrun] at hp
    rw [bind_of_ok hrun]
    exact IsTrans.trans _ _ _ hp (hf a w.1 w.2)

theorem handle (h : Leaves S p) {f : ε → Program ε (σ × ρ) α} (hf : ∀ e, Leaves S (f e)) :
    Leaves S (p.handle f) := by
  intro s r
  have hp := h s r
  rcases hrun : p (s, r) with ⟨e | a, w⟩
  · rw [hrun] at hp
    rw [handle_of_error hrun]
    exact IsTrans.trans _ _ _ hp (hf e w.1 w.2)
  · rw [hrun] at hp
    rw [handle_of_ok hrun]
    exact hp

end

theorem withLocal {υ : Type} {S : ρ → ρ → Prop} {p : Program ε ((σ × υ) × ρ) α}
    (h : Leaves S p) (u : υ) : Leaves S (p.withLocal u) := fun s r ↦ h (s, u) r

end Leaves

end Program

end LearningTasks.Library.Programs
