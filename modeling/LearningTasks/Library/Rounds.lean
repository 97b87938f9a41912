import Mathlib.Tactic.Common

namespace LearningTasks.Library.Rounds

variable {ε δ α β S T : Type}

/-- What one turn of a loop leads to: another turn, a result, or an error. The
state is kept in each case. -/
inductive Round (ε α S : Type)
  | next (s : S)
  | done (a : α) (s : S)
  | failed (e : ε) (s : S)

def Round.state : Round ε α S → S
  | .next s | .done _ s | .failed _ s => s

/-- A loop that takes turns until one ends it; a rank goes down with each turn
that does not. -/
structure Driver (ε α S : Type) where
  round : S → Round ε α S
  rank : S → ℕ
  decreases : ∀ s s', round s = .next s' → rank s' < rank s

namespace Driver

/-- The outcome, if the loop ends within some number of turns. -/
def iterate (round : S → Round ε α S) : ℕ → S → Option (Except ε α × S)
  | 0, _ => none
  | n + 1, s =>
    match round s with
    | .next s => iterate round n s
    | .done a s => some (.ok a, s)
    | .failed e s => some (.error e, s)

variable (d : Driver ε α S)

theorem iterate_isSome {n : ℕ} {s : S} (h : d.rank s < n) : (iterate d.round n s).isSome := by
  induction n generalizing s with
  | zero => omega
  | succ n ih =>
    unfold iterate
    cases hr : d.round s with
    | next s' =>
      have hd := d.decreases s s' hr
      exact ih (by omega)
    | done a s' => rfl
    | failed e s' => rfl

def run (s : S) : Except ε α × S :=
  (iterate d.round (d.rank s + 1) s).get (d.iterate_isSome (Nat.lt_succ_self _))

theorem iterate_mono {round : S → Round ε α S} {n m : ℕ} {s : S} {r : Except ε α × S}
    (h : iterate round n s = some r) (hm : n ≤ m) : iterate round m s = some r := by
  induction n generalizing m s with
  | zero => cases h
  | succ n ih =>
    obtain ⟨m, rfl⟩ : ∃ k, m = k + 1 := ⟨m - 1, by omega⟩
    unfold iterate at h ⊢
    cases hr : round s with
    | next s' =>
      rw [hr] at h
      exact ih h (by omega)
    | done a s' => simpa only [hr] using h
    | failed e s' => simpa only [hr] using h

theorem iterate_eq_run {n : ℕ} {s : S} (h : d.rank s < n) : iterate d.round n s = some (d.run s) :=
  iterate_mono (Option.some_get _).symm (by omega)

theorem run_eq (s : S) : d.run s =
    match d.round s with
    | .next s => d.run s
    | .done a s => (.ok a, s)
    | .failed e s => (.error e, s) := by
  apply Option.some.inj
  rw [← d.iterate_eq_run (Nat.lt_succ_self _), iterate]
  cases hr : d.round s with
  | next s' => exact d.iterate_eq_run (d.decreases s s' hr)
  | done a s' => rfl
  | failed e s' => rfl

/-- The states in which turns are started, within some number of turns. -/
def statesWithin (round : S → Round ε α S) : ℕ → S → List S
  | 0, _ => []
  | n + 1, s => s ::
    match round s with
    | .next s => statesWithin round n s
    | .done _ _ | .failed _ _ => []

def states (s : S) : List S := statesWithin d.round (d.rank s + 1) s

theorem statesWithin_eq {n m : ℕ} {s : S} (hn : d.rank s < n) (hm : d.rank s < m) :
    statesWithin d.round n s = statesWithin d.round m s := by
  induction n generalizing m s with
  | zero => omega
  | succ n ih =>
    obtain ⟨m, rfl⟩ : ∃ k, m = k + 1 := ⟨m - 1, by omega⟩
    unfold statesWithin
    cases hr : d.round s with
    | next s' =>
      have hd := d.decreases s s' hr
      exact congrArg _ (ih (by omega) (by omega))
    | done a s' => rfl
    | failed e s' => rfl

theorem states_eq (s : S) : d.states s = s ::
    match d.round s with
    | .next s => d.states s
    | .done _ _ | .failed _ _ => [] := by
  rw [states, statesWithin]
  cases hr : d.round s with
  | next s' =>
    have hd := d.decreases s s' hr
    exact congrArg _ (d.statesWithin_eq (by omega) (by omega))
  | done a s' => rfl
  | failed e s' => rfl

/-- What every turn keeps holds whenever a turn is started. -/
theorem states_rule {I : S → Prop} (hnext : ∀ s s', I s → d.round s = .next s' → I s') {s : S}
    (h : I s) : ∀ t ∈ d.states s, I t := by
  induction hn : d.rank s using Nat.strongRecOn generalizing s with
  | _ n ih =>
    intro t ht
    rw [d.states_eq] at ht
    rcases List.mem_cons.mp ht with rfl | ht
    · exact h
    · cases hr : d.round s with
      | next s' =>
        rw [hr] at ht
        exact ih _ (hn ▸ d.decreases s s' hr) (hnext s s' h hr) rfl t ht
      | done a s' => rw [hr] at ht; cases ht
      | failed e s' => rw [hr] at ht; cases ht

/-- A loop ends as its last turn does, started where what every turn keeps holds. -/
theorem run_rule {I : S → Prop} {Q : Except ε α × S → Prop}
    (hnext : ∀ s s', I s → d.round s = .next s' → I s')
    (hdone : ∀ s a s', I s → d.round s = .done a s' → Q (.ok a, s'))
    (hfailed : ∀ s e s', I s → d.round s = .failed e s' → Q (.error e, s')) {s : S} (h : I s) :
    Q (d.run s) := by
  induction hn : d.rank s using Nat.strongRecOn generalizing s with
  | _ n ih =>
    rw [d.run_eq]
    cases hr : d.round s with
    | next s' => exact ih _ (hn ▸ d.decreases s s' hr) (hnext s s' h hr) rfl
    | done a s' => exact hdone s a s' h hr
    | failed e s' => exact hfailed s e s' h hr

theorem run_state {I : S → Prop} (hround : ∀ s, I s → I (d.round s).state) {s : S} (h : I s) :
    I (d.run s).2 := by
  have hkept {s : S} {r : Round ε α S} (hi : I s) (hr : d.round s = r) : I r.state :=
    hr ▸ hround s hi
  exact d.run_rule (Q := fun r ↦ I r.2) (fun _ _ ↦ hkept) (fun _ _ _ ↦ hkept)
    (fun _ _ _ ↦ hkept) h

theorem run_of_mem_states {s t : S} (ht : t ∈ d.states s) : d.run t = d.run s := by
  induction hn : d.rank s using Nat.strongRecOn generalizing s with
  | _ n ih =>
    rw [d.states_eq] at ht
    rcases List.mem_cons.mp ht with rfl | ht
    · rfl
    · cases hr : d.round s with
      | next s' =>
        rw [hr] at ht
        rw [d.run_eq s, hr]
        exact ih _ (hn ▸ d.decreases s s' hr) ht rfl
      | done a s' => rw [hr] at ht; cases ht
      | failed e s' => rw [hr] at ht; cases ht

end Driver

inductive Round.Rel (R : S → T → Prop) (Done : α → S → β → T → Prop) (Failed : S → T → Prop) :
    Round ε α S → Round δ β T → Prop
  | next {s : S} {t : T} : R s t → Round.Rel R Done Failed (.next s) (.next t)
  | done {a : α} {s : S} {b : β} {t : T} :
      Done a s b t → Round.Rel R Done Failed (.done a s) (.done b t)
  | failed {e : ε} {s : S} {f : δ} {t : T} :
      Failed s t → Round.Rel R Done Failed (.failed e s) (.failed f t)

inductive Together (Done : α → S → β → T → Prop) (Failed : S → T → Prop) :
    Except ε α × S → Except δ β × T → Prop
  | done {a : α} {s : S} {b : β} {t : T} :
      Done a s b t → Together Done Failed (.ok a, s) (.ok b, t)
  | failed {e : ε} {s : S} {f : δ} {t : T} :
      Failed s t → Together Done Failed (.error e, s) (.error f, t)

/-- Two loops whose turns match finish or fail together. -/
theorem Driver.lockstep (d : Driver ε α S) (d' : Driver δ β T) {R : S → T → Prop}
    {Done : α → S → β → T → Prop} {Failed : S → T → Prop}
    (hround : ∀ s t, R s t → Round.Rel R Done Failed (d.round s) (d'.round t)) {s : S} {t : T}
    (h : R s t) : Together Done Failed (d.run s) (d'.run t) := by
  induction hn : d.rank s using Nat.strongRecOn generalizing s t with
  | _ n ih =>
    have hr := hround s t h
    rw [d.run_eq, d'.run_eq]
    generalize hs : d.round s = x at hr
    generalize d'.round t = y at hr
    cases hr with
    | @next s' t' h' => exact ih _ (hn ▸ d.decreases s s' hs) h' rfl
    | done h' => exact .done h'
    | failed h' => exact .failed h'

/-- Two loops whose turns match until the second gives up, which may be where the first
would go on. -/
theorem Driver.lockstep_until (d : Driver ε α S) (d' : Driver δ β T) {R : S → T → Prop}
    {Done : α → S → β → T → Prop} {Failed Quit : S → T → Prop}
    (hround : ∀ s t, R s t → Round.Rel R Done Failed (d.round s) (d'.round t) ∨
      ∃ f t', d'.round t = .failed f t' ∧ Quit s t') {s : S} {t : T} (h : R s t) :
    Together Done Failed (d.run s) (d'.run t) ∨
      ∃ s' f t', d.run s' = d.run s ∧ d'.run t = (.error f, t') ∧ Quit s' t' := by
  induction hn : d.rank s using Nat.strongRecOn generalizing s t with
  | _ n ih =>
    rcases hround s t h with hr | ⟨f, t', ht, hq⟩
    · rw [d.run_eq, d'.run_eq]
      generalize hs : d.round s = x at hr
      generalize d'.round t = y at hr
      cases hr with
      | @next s' t' h' => exact ih _ (hn ▸ d.decreases s s' hs) h' rfl
      | done h' => exact .inl (.done h')
      | failed h' => exact .inl (.failed h')
    · exact .inr ⟨s, f, t', rfl, by rw [d'.run_eq, ht], hq⟩

end LearningTasks.Library.Rounds
