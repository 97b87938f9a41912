import LearningTasks.Agent.Metrics
import LearningTasks.Agent.Termination
import Mathlib.Data.List.ReduceOption

namespace LearningTasks.Agent.UsageAccounting

open Library.Strings Library.Serialization Library.Transition Schemas.Scalars Models.Agent
  Agent.Schemas State Tools Approval Execution Finalization Planning Graph Checkpoints Metrics
  Termination

/-- What a run has asked of its host: the calls of the provider, each with the
usage that it reported if it answered, and the number of write actions. -/
structure Ledger where
  calls : List (Option ProviderUsage)
  writes : ℕ

def Ledger.usages (l : Ledger) : List ProviderUsage := l.calls.reduceOption

def Ledger.call (l : Ledger) (calls : List (Option ProviderUsage)) : Ledger :=
  { l with calls := l.calls ++ calls }

def Ledger.write (l : Ledger) (n : ℕ) : Ledger := { l with writes := l.writes + n }

variable {σ : Type}

def unmetered {α : Type} (f : σ → α × σ) : σ × Ledger → α × (σ × Ledger) :=
  fun w ↦ ((f w.1).1, (f w.1).2, w.2)

def meteredWrite (f : Effect σ AgentWriteToolResult) : Effect (σ × Ledger) AgentWriteToolResult :=
  fun w ↦ ((f w.1).1, (f w.1).2, w.2.write 1)

def reportedUsage (r : Except ProviderError ProviderResponse) : Option ProviderUsage :=
  r.toOption.map (·.usage)

def metered (host : Host σ) : Host (σ × Ledger) where
  sha256 := host.sha256
  coercions := host.coercions
  context := host.context
  planning := {
    parseJson := host.planning.parseJson
    buildInput := host.planning.buildInput
    generate input w :=
      let (r, w') := host.planning.generate input w.1
      (r, w', w.2.call [reportedUsage r])
    latency := unmetered host.planning.latency
    addLatency := host.planning.addLatency }
  fetchContext text := unmetered (host.fetchContext text)
  executors := {
    dispatcher tool arguments context := meteredWrite (host.executors.dispatcher tool arguments context)
    actionExecutor := host.executors.actionExecutor.map fun executor action revision fingerprint context ↦
      meteredWrite (executor action revision fingerprint context) }
  decider request := unmetered (host.decider request)
  durableApproval := host.durableApproval

/-- What moves an uninterrupted run: the graph advances, it is answered, or
others change the world. -/
inductive Move (σ : Type)
  | advance
  | resume (response : AgentApprovalResponse)
  | outside (w : σ)

def machine (host : Host σ) : Machine (Checkpoint × σ × Ledger) (Move σ) where
  init s := (∃ goal, s.1 = initialCheckpoint goal) ∧ s.2.2 = ⟨[], 0⟩
  step s
    | .advance =>
      let (cp, w) := superstep (metered host) s.1 none s.2
      some (cp.getD s.1, w)
    | .resume response =>
      if host.durableApproval = true ∧ s.1.interrupts ≠ [] then
        let (cp, w) := superstep (metered host) s.1 (some response) s.2
        some (cp.getD s.1, w)
      else none
    | .outside w => some (s.1, w, s.2.2)

/-- The metrics account for every call, every reported usage and every write. -/
def Accounts (metrics : Option AgentRunMetrics) (l : Ledger) : Prop :=
  match metrics with
  | none => l.calls = [] ∧ l.writes = 0
  | some m => m.providerAttemptCount = l.calls.length ∧ Counts m l.usages ∧
      m.toolCallCount = l.writes

/-- What the provider answers the prompt when it is asked for the `k`th time, counted from
zero. -/
def answer (planning : PlanningHost σ) (input : Text) (w : σ) (k : ℕ) :
    Except ProviderError ProviderResponse × σ :=
  planning.generate input ((fun w ↦ (planning.generate input w).2)^[k] w)

/-- An answer after which the prompt is sent again: a failure that may pass, or a response that
is no proposal. -/
def Retried (c : Coercions) (planning : PlanningHost σ) :
    Except ProviderError ProviderResponse → Prop
  | .error e => e = .timeout ∨ e = .transient ∨ e = .invalidResponse
  | .ok response => readProposal c planning response = none

/-- One of so many answers is a proposal, those before it ask for another try, and the clock has
not run back by then. -/
def Plans (c : Coercions) (planning : PlanningHost σ) (input : Text) (calls : ℕ) (w : σ) : Prop :=
  ∃ k < calls, (∀ j < k, Retried c planning (answer planning input w j).1) ∧
    ∃ response, (answer planning input w k).1 = .ok response ∧
      (readProposal c planning response).isSome = true ∧
      (planning.latency (answer planning input w k).2).1.isSome = true

/-- The prompt of a planning visit; none where the visit fails before it asks the provider. -/
def visitInput (planning : PlanningHost σ) (v : AgentGraphState) : Option Text :=
  match v.analysis, v.context with
  | some analysis, some context => planning.buildInput v.goal analysis context v.approvalFeedback
  | _, _ => none

/-- A planning visit that asks the provider gets its proposal. -/
def KeptVisits (host : Host σ) (s : Checkpoint × σ × Ledger) : Move σ → Prop
  | .advance => s.1.next = [.generatePlan] → ∀ input,
      visitInput host.planning s.1.values = some input →
        Plans host.coercions host.planning input planningMaxAttempts s.2.1
  | .resume _ | .outside _ => True

variable {host : Host σ}

@[simp] theorem call_nil (l : Ledger) : l.call [] = l := by
  simp [Ledger.call]

theorem call_call (l : Ledger) (cs ds : List (Option ProviderUsage)) :
    (l.call cs).call ds = l.call (cs ++ ds) := by
  simp [Ledger.call]

theorem write_write (l : Ledger) (m n : ℕ) : (l.write m).write n = l.write (m + n) := by
  simp [Ledger.write, Nat.add_assoc]

/-- What a visit adds to the ledger, and the metrics of a proposal that comes of it; some of its
calls have been made before. -/
def VisitLedger (least : ℕ) (before : List (Option ProviderUsage)) (l : Ledger)
    (result : Except PlanningError (AgentPlanProposal × AgentRunMetrics) × (σ × Ledger)) : Prop :=
  ∃ calls, least ≤ calls.length ∧ result.2.2 = l.call calls ∧
    ∀ p m, result.1 = .ok (p, m) → ∃ latencyMs,
      m = generationMetrics (before ++ calls).length (before ++ calls).reduceOption latencyMs

theorem VisitLedger.after {least : ℕ} {before : List (Option ProviderUsage)} {l : Ledger}
    {usage : Option ProviderUsage}
    {result : Except PlanningError (AgentPlanProposal × AgentRunMetrics) × (σ × Ledger)}
    (h : VisitLedger least (before ++ [usage]) (l.call [usage]) result) :
    VisitLedger 1 before l result := by
  obtain ⟨calls, -, hl, hm⟩ := h
  refine ⟨usage :: calls, Nat.succ_pos _, hl.trans (call_call l [usage] calls), fun p m hr ↦ ?_⟩
  obtain ⟨latencyMs, rfl⟩ := hm p m hr
  exact ⟨latencyMs, by rw [List.append_assoc]; rfl⟩

theorem visitLedger_error (before : List (Option ProviderUsage)) (l : Ledger)
    (usage : Option ProviderUsage) (e : PlanningError) (w : σ) :
    VisitLedger 1 before l (.error e, w, l.call [usage]) :=
  ⟨[usage], le_refl 1, rfl, fun _ _ h ↦ by cases h⟩

theorem generateAttempts_ledger (input : Text) (left : ℕ) (before : List (Option ProviderUsage))
    (w : σ × Ledger) :
    VisitLedger (min left 1) before w.2 (generateAttempts host.coercions (metered host).planning
      input left (before.length + 1) before.reduceOption w) := by
  induction left generalizing before w with
  | zero => exact ⟨[], Nat.zero_le _, (call_nil _).symm, fun _ _ h ↦ by cases h⟩
  | succ left ih =>
    rw [min_eq_right (Nat.succ_pos left)]
    rcases hg : host.planning.generate input w.1 with ⟨r, w₁⟩
    have hmetered : (metered host).planning.generate input w =
        (r, w₁, w.2.call [reportedUsage r]) := by
      simp only [metered, hg]
    have hretry := (ih (before ++ [reportedUsage r]) (w₁, w.2.call [reportedUsage r])).after
    rw [List.length_append, List.length_singleton] at hretry
    rw [generateAttempts, hmetered]
    cases r with
    | error e =>
      have hsame : (before ++ [none]).reduceOption = before.reduceOption := by
        simp [List.reduceOption_append]
      cases e with
      | timeout | transient | invalidResponse =>
        rw [reportedUsage, Except.toOption, Option.map_none, hsame] at hretry
        exact hretry
      | configuration | authentication | permission | other =>
        exact visitLedger_error before w.2 none _ w₁
    | ok response =>
      have husages : (before ++ [some response.usage]).reduceOption =
          before.reduceOption ++ [response.usage] := by
        simp [List.reduceOption_append]
      dsimp only
      split
      · next proposal hp =>
        have hl : (metered host).planning.latency (w₁, w.2.call [some response.usage]) =
            ((host.planning.latency w₁).1, (host.planning.latency w₁).2,
              w.2.call [some response.usage]) := rfl
        rw [show reportedUsage (.ok response) = some response.usage from rfl, hl]
        cases (host.planning.latency w₁).1 with
        | none => exact visitLedger_error before w.2 (some response.usage) _ _
        | some latencyMs =>
          refine ⟨[some response.usage], le_refl 1, rfl, fun p m hr ↦ ⟨latencyMs, ?_⟩⟩
          cases hr
          rw [List.length_append, husages]
          rfl
      · rw [reportedUsage, Except.toOption, Option.map_some, husages] at hretry
        exact hretry

theorem plans_succ (c : Coercions) (planning : PlanningHost σ) (input : Text) (left : ℕ) (w : σ) :
    Plans c planning input (left + 1) w ↔
      (∃ response, (planning.generate input w).1 = .ok response ∧
        (readProposal c planning response).isSome = true ∧
        (planning.latency (planning.generate input w).2).1.isSome = true) ∨
      Retried c planning (planning.generate input w).1 ∧
        Plans c planning input left (planning.generate input w).2 := by
  have hnext (k : ℕ) : answer planning input w (k + 1) =
      answer planning input (planning.generate input w).2 k := by
    rw [answer, answer, Function.iterate_succ_apply]
  constructor
  · rintro ⟨k, hk, hbefore, response, hanswer, hread, hclock⟩
    cases k with
    | zero => exact .inl ⟨response, hanswer, hread, hclock⟩
    | succ k =>
      rw [hnext] at hanswer hclock
      refine .inr ⟨hbefore 0 (Nat.succ_pos k), k, Nat.lt_of_succ_lt_succ hk, fun j hj ↦ ?_,
        response, hanswer, hread, hclock⟩
      have hlater := hbefore (j + 1) (Nat.succ_lt_succ hj)
      rwa [hnext] at hlater
  · rintro (⟨response, hanswer, hread, hclock⟩ | ⟨hfirst, k, hk, hbefore, hfound⟩)
    · exact ⟨0, Nat.succ_pos left, fun j hj ↦ absurd hj (Nat.not_lt_zero j), response, hanswer,
        hread, hclock⟩
    · rw [← hnext] at hfound
      refine ⟨k + 1, Nat.succ_lt_succ hk, fun j hj ↦ ?_, hfound⟩
      cases j with
      | zero => exact hfirst
      | succ j =>
        rw [hnext]
        exact hbefore j (Nat.lt_of_succ_lt_succ hj)

theorem generateAttempts_plans (input : Text) (left attempt : ℕ) (usages : List ProviderUsage)
    (w : σ × Ledger) :
    (generateAttempts host.coercions (metered host).planning input left attempt usages w).1.toBool =
        true ↔ Plans host.coercions host.planning input left w.1 := by
  induction left generalizing attempt usages w with
  | zero =>
    refine ⟨fun h ↦ (by cases h), ?_⟩
    rintro ⟨k, hk, -⟩
    exact absurd hk (Nat.not_lt_zero k)
  | succ left ih =>
    rcases hg : host.planning.generate input w.1 with ⟨r, w₁⟩
    have hmetered : (metered host).planning.generate input w =
        (r, w₁, w.2.call [reportedUsage r]) := by
      simp only [metered, hg]
    rw [generateAttempts, hmetered, plans_succ, hg]
    cases r with
    | error e =>
      have hnone : ¬ ∃ response : ProviderResponse,
          (Except.error e : Except ProviderError ProviderResponse) = .ok response ∧
            (readProposal host.coercions host.planning response).isSome = true ∧
            (host.planning.latency w₁).1.isSome = true := by
        rintro ⟨response, h, -⟩
        cases h
      rw [or_iff_right hnone]
      cases e with
      | timeout | transient | invalidResponse =>
        rw [and_iff_right (by simp [Retried])]
        exact ih _ _ _
      | configuration | authentication | permission | other =>
        exact ⟨fun h ↦ (by cases h), fun h ↦ (by simp [Retried] at h)⟩
    | ok response =>
      have hread : readProposal host.coercions (metered host).planning response =
          readProposal host.coercions host.planning response := rfl
      dsimp only
      rw [hread]
      cases hp : readProposal host.coercions host.planning response with
      | none =>
        have hnone : ¬ ∃ r, (Except.ok response : Except ProviderError ProviderResponse) = .ok r ∧
            (readProposal host.coercions host.planning r).isSome = true ∧
            (host.planning.latency w₁).1.isSome = true := by
          rintro ⟨r, h, hr, -⟩
          cases h
          rw [hp] at hr
          cases hr
        rw [or_iff_right hnone, and_iff_right (show Retried _ _ (.ok response) from hp)]
        exact ih _ _ _
      | some proposal =>
        have hretried : ¬ (Retried host.coercions host.planning (.ok response) ∧
            Plans host.coercions host.planning input left w₁) := by
          rintro ⟨h, -⟩
          rw [Retried, hp] at h
          cases h
        have hl : (metered host).planning.latency (w₁, w.2.call [reportedUsage (.ok response)]) =
            ((host.planning.latency w₁).1, (host.planning.latency w₁).2,
              w.2.call [reportedUsage (.ok response)]) := rfl
        rw [or_iff_left hretried, hl]
        dsimp only
        cases hclock : (host.planning.latency w₁).1 with
        | none =>
          refine ⟨fun h ↦ (by cases h), ?_⟩
          rintro ⟨-, -, -, h⟩
          cases h
        | some latencyMs =>
          exact ⟨fun _ ↦ ⟨response, rfl, by rw [hp]; rfl, rfl⟩, fun _ ↦ rfl⟩

theorem generatePlan_visit (host : Host σ) (v : AgentGraphState) (w : σ × Ledger) :
    (visitInput host.planning v = none ∧
      generatePlan host.coercions (metered host).planning v w = (.error .unavailable, w)) ∨
    ∃ input, visitInput host.planning v = some input ∧
      ((generatePlan host.coercions (metered host).planning v w).1.toBool = true ↔
        Plans host.coercions host.planning input planningMaxAttempts w.1) ∧
      VisitLedger 1 [] w.2 (generatePlan host.coercions (metered host).planning v w) := by
  have hbuild : (metered host).planning.buildInput = host.planning.buildInput := rfl
  unfold generatePlan visitInput
  rw [hbuild]
  cases v.analysis with
  | none => exact .inl ⟨rfl, rfl⟩
  | some analysis =>
    cases v.context with
    | none => exact .inl ⟨rfl, rfl⟩
    | some context =>
      dsimp only
      cases host.planning.buildInput v.goal analysis context v.approvalFeedback with
      | none => exact .inl ⟨rfl, rfl⟩
      | some input =>
        exact .inr ⟨input, rfl, generateAttempts_plans input _ 1 [] w,
          generateAttempts_ledger input planningMaxAttempts [] w⟩

theorem Accounts.calls_length {metrics : Option AgentRunMetrics} {l : Ledger}
    (h : Accounts metrics l) : l.calls.length = (metrics.map (·.providerAttemptCount)).getD 0 := by
  cases metrics with
  | none => rw [h.1]; rfl
  | some m => exact h.1.symm

theorem accounts_call {metrics : Option AgentRunMetrics} {l : Ledger} (h : Accounts metrics l)
    (calls : List (Option ProviderUsage)) (add : FloatRepr → FloatRepr → FloatRepr)
    (latencyMs : FloatRepr) :
    Accounts (some (mergeMetrics add metrics
      (generationMetrics calls.length calls.reduceOption latencyMs))) (l.call calls) := by
  have husages : (l.call calls).usages = l.usages ++ calls.reduceOption :=
    List.reduceOption_append l.calls calls
  have hlength : (l.call calls).calls.length = l.calls.length + calls.length :=
    List.length_append
  have hvisit : Counts (generationMetrics calls.length calls.reduceOption latencyMs)
      calls.reduceOption := ⟨rfl, rfl, rfl⟩
  cases metrics with
  | none =>
    obtain ⟨hc, hw⟩ := h
    have hu : l.usages = [] := by rw [Ledger.usages, hc]; rfl
    refine ⟨?_, ?_, hw.symm⟩
    · rw [hlength, hc]
      exact (Nat.zero_add _).symm
    · rw [husages, hu, List.nil_append]
      exact hvisit
  | some m =>
    obtain ⟨ha, hc, hw⟩ := h
    refine ⟨?_, ?_, hw⟩
    · rw [hlength, ← ha]
      rfl
    · rw [husages]
      exact hc.merge hvisit add

theorem dispatch_ledger (host : Host σ) (context : AgentRuntimeContext) (revision : ℕ)
    (fingerprint : Digest) (action : AgentProposedAction) (w : σ × Ledger) :
    (dispatch (metered host).executors context revision fingerprint action w).2.2 = w.2.write 1 := by
  unfold dispatch metered
  cases host.executors.actionExecutor <;> rfl

theorem executeActions_ledger (host : Host σ) (c : Coercions) (context : AgentRuntimeContext)
    (revision : ℕ) (fingerprint : Digest) {actions : List AgentProposedAction}
    (h : ∀ a ∈ actions, (validateToolArguments c a.toolName a.arguments context).toBool = true)
    (w : σ × Ledger) :
    (executeActions c (metered host).executors context revision fingerprint actions w).2.2 =
      w.2.write
        (executeActions c (metered host).executors context revision fingerprint actions w).1.length := by
  induction actions generalizing w with
  | nil => rfl
  | cons action actions ih =>
    obtain ⟨hvalid, hrest⟩ := List.forall_mem_cons.mp h
    cases hv : validateToolArguments c action.toolName action.arguments context with
    | error e => rw [hv] at hvalid; cases hvalid
    | ok arguments =>
      have hd := dispatch_ledger host context revision fingerprint action w
      rcases hdis : dispatch (metered host).executors context revision fingerprint action w with
        ⟨result, w₁⟩
      rw [hdis] at hd
      have hp : performAction c (metered host).executors context revision fingerprint action w =
          (result.bind (validateWriteToolResult action.toolName), w₁) := by
        simp only [performAction, hv, hdis]
      rw [executeActions, hp]
      cases result.bind (validateWriteToolResult action.toolName) with
      | error e => exact hd
      | ok r =>
        dsimp only
        rw [ih hrest w₁, hd, write_write, List.length_cons, Nat.add_comm]

theorem executeTasks_ledger {host : Host σ} {v : AgentGraphState} {w w' : σ × Ledger}
    {o : Option (List AgentActionExecutionRecord)}
    (h : executeTasks host.sha256 host.coercions (metered host).executors host.context v w = (o, w')) :
    (o = none ∧ w' = w) ∨ ∃ records, o = some records ∧ v.proposal.isSome = true ∧
      w'.2 = w.2.write records.length := by
  unfold executeTasks at h
  split at h
  · cases h
    exact .inl ⟨rfl, rfl⟩
  · next p hp =>
    split at h
    · next hc =>
      simp only [Bool.and_eq_true] at hc
      have hvalid : ∀ a ∈ p.actions, (validateToolArguments host.coercions a.toolName a.arguments
          host.context).toBool = true := fun a ha ↦
        (Bool.and_eq_true_iff.mp (List.all_eq_true.mp hc.2 a ha)).1
      cases h
      exact .inr ⟨_, rfl, by rw [hp]; rfl, executeActions_ledger host _ _ _ _ hvalid w⟩
    · cases h
      exact .inl ⟨rfl, rfl⟩

/-- A run that has a proposal has metrics, and they account for all of it. -/
structure Accounted (v : AgentGraphState) (l : Ledger) : Prop where
  accounts : Accounts v.metrics l
  planned : v.proposal.isSome = true → v.metrics.isSome = true

theorem Accounted.failed {v : AgentGraphState} {l : Ledger} (h : Accounted v l) (code : String) :
    Accounted (failed code v) l := ⟨h.accounts, h.planned⟩

theorem Accounted.approval {v : AgentGraphState} {l : Ledger} (h : Accounted v l)
    (response : AgentApprovalResponse) (fingerprint : Digest) :
    Accounted (applyApprovalResponse v response fingerprint v) l := by
  unfold applyApprovalResponse
  cases response.decision with
  | approved | rejected => exact ⟨h.accounts, h.planned⟩
  | requestChanges =>
    by_cases hl : v.revisionCount ≥ maxPlanRevisions
    · simp only [hl, ↓reduceIte]
      exact ⟨h.accounts, h.planned⟩
    · simp only [hl, ↓reduceIte]
      exact ⟨h.accounts, fun hp ↦ by cases hp⟩

theorem approvalNode_ledger {v : AgentGraphState} {answer : Option AgentApprovalResponse}
    {w w' : σ × Ledger} {r : NodeResult} (h : approvalNode (metered host) v answer w = (r, w')) :
    w'.2 = w.2 := by
  unfold approvalNode at h
  split at h
  · cases h
    rfl
  · split at h
    · split at h <;> cases h <;> rfl
    · split at h
      · next hd =>
        cases h
        exact (congrArg (fun x ↦ x.2.2) hd).symm
      · next hd =>
        cases h
        exact (congrArg (fun x ↦ x.2.2) hd).symm

theorem loadContext_ledger {v : AgentGraphState} {w w' : σ × Ledger}
    {o : Option AgentContextSnapshot} (h : loadContext (metered host) v w = (o, w')) :
    w'.2 = w.2 := by
  unfold loadContext at h
  split at h
  · cases h
    rfl
  · split at h <;> cases h <;> rfl

/-- A visit is accounted for just in case it keeps what it has asked for: a visit that fails after a
call leaves the metrics as they were. -/
theorem planning_accounted {v : AgentGraphState} {answer : Option AgentApprovalResponse}
    {w w' : σ × Ledger} {u : StateUpdate} (ha : Accounted v w.2)
    (h : runNode (metered host) v answer w .generatePlan = (.update u, w')) :
    ((∀ input, visitInput host.planning v = some input →
        Plans host.coercions host.planning input planningMaxAttempts w.1) → Accounted (u v) w'.2) ∧
      (Accounts (u v).metrics w'.2 → ∀ input, visitInput host.planning v = some input →
        Plans host.coercions host.planning input planningMaxAttempts w.1) := by
  rcases hg : generatePlan host.coercions (metered host).planning v w with ⟨r, w₁⟩
  have hrun : generatePlan (metered host).coercions (metered host).planning v w = (r, w₁) := hg
  have hvisit := generatePlan_visit host v w
  rw [hg] at hvisit
  rw [runNode, hrun] at h
  obtain ⟨hinput, hsame⟩ | ⟨input, hinput, hplans, calls, hcalled, hl, hm⟩ := hvisit
  · cases hsame
    cases h
    exact ⟨fun _ ↦ ha.failed _, fun _ input hsome ↦ by rw [hinput] at hsome; cases hsome⟩
  · cases r with
    | ok pair =>
      cases h
      obtain ⟨latencyMs, hgm⟩ := hm pair.1 pair.2 rfl
      have haccounted : Accounts (some (mergeMetrics host.planning.addLatency v.metrics pair.2))
          w'.2 := by
        rw [List.nil_append] at hgm
        dsimp only at hl
        rw [hl, hgm]
        exact accounts_call ha.accounts calls _ latencyMs
      refine ⟨fun _ ↦ ⟨haccounted, fun _ ↦ rfl⟩, fun _ input' hsome ↦ ?_⟩
      obtain rfl := Option.some.inj (hinput.symm.trans hsome)
      exact hplans.mp rfl
    | error e =>
      cases h
      have hnot : ¬ Plans host.coercions host.planning input planningMaxAttempts w.1 := fun hp ↦ by
        have hok := hplans.mpr hp
        cases hok
      refine ⟨fun hkept ↦ absurd (hkept input hinput) hnot, fun haccounts ↦ ?_⟩
      have hlength := haccounts.calls_length.trans ha.accounts.calls_length.symm
      dsimp only at hl
      rw [hl, Ledger.call, List.length_append] at hlength
      omega

theorem execution_accounted {v : AgentGraphState} {answer : Option AgentApprovalResponse}
    {w w' : σ × Ledger} {u : StateUpdate} (ha : Accounted v w.2)
    (h : runNode (metered host) v answer w .executeTasks = (.update u, w')) :
    Accounted (u v) w'.2 := by
  rcases hx : executeTasks host.sha256 host.coercions (metered host).executors host.context v w with
    ⟨o, w₁⟩
  have hrun : executeTasks (metered host).sha256 (metered host).coercions (metered host).executors
      (metered host).context v w = (o, w₁) := hx
  rw [runNode, hrun] at h
  rcases executeTasks_ledger hx with ⟨rfl, rfl⟩ | ⟨records, rfl, hp, hw⟩
  · cases h
    exact ha.failed _
  · cases h
    obtain ⟨m, hm⟩ := Option.isSome_iff_exists.mp (ha.planned hp)
    have haccounts := ha.accounts
    rw [hm] at haccounts
    obtain ⟨hattempts, hcounts, hcalls⟩ := haccounts
    refine ⟨?_, fun _ ↦ by simp [hm]⟩
    have hmetrics : (v.metrics.map (withToolCalls records)).or v.metrics =
        some (withToolCalls records m) := by simp [hm]
    dsimp only
    rw [hmetrics, hw]
    exact ⟨hattempts, hcounts.withToolCalls records, congrArg (· + records.length) hcalls⟩

theorem runNode_accounted {v : AgentGraphState} {node : AgentRunNode} (hnode : node ≠ .generatePlan)
    {answer : Option AgentApprovalResponse} {w w' : σ × Ledger} {u : StateUpdate}
    (ha : Accounted v w.2) (h : runNode (metered host) v answer w node = (.update u, w')) :
    Accounted (u v) w'.2 := by
  cases node with
  | generatePlan => exact absurd rfl hnode
  | executeTasks => exact execution_accounted ha h
  | requestApproval =>
    rw [approvalNode_ledger h]
    rcases approvalNode_update h with rfl | ⟨request, fingerprint, response, -, rfl⟩
    · exact ha.failed _
    · exact ha.approval response fingerprint
  | loadContext =>
    rw [runNode] at h
    split at h
    · next snapshot w₁ hl =>
      cases h
      rw [loadContext_ledger hl]
      exact ⟨ha.accounts, ha.planned⟩
    · next w₁ hl =>
      cases h
      rw [loadContext_ledger hl]
      exact ha.failed _
  | summarize =>
    rw [runNode] at h
    split at h <;> cases h
    exact ⟨ha.accounts, ha.planned⟩
  | analyzeGoal | validatePlan | verifyResult =>
    cases h
    exact ⟨ha.accounts, ha.planned⟩

/-- Every superstep but that of a planning visit is accounted for, and that of a visit which keeps
what it has asked for. -/
theorem superstep_accounted {cp : Checkpoint}
    (hi : Inv host.sha256 host.coercions host.context cp) {w : σ × Ledger}
    (ha : Accounted cp.values w.2) {answer : Option AgentApprovalResponse} {o : Option Checkpoint}
    {w' : σ × Ledger} (hs : superstep (metered host) cp answer w = (o, w')) :
    Inv host.sha256 host.coercions host.context (o.getD cp) ∧
      (KeptVisits host (cp, w) .advance → Accounted (o.getD cp).values w'.2) ∧
      (Accounts (o.getD cp).values.metrics w'.2 → KeptVisits host (cp, w) .advance) := by
  rcases next_cases hi with hnext | ⟨node, hnext⟩
  · have hnone : superstep (metered host) cp answer w = (none, w) := by rw [superstep, hnext]
    cases hnone.symm.trans hs
    exact ⟨hi, fun _ ↦ ha, fun _ hplan ↦ by rw [hnext] at hplan; cases hplan⟩
  · rcases hr : runNode (metered host) cp.values answer w node with ⟨r, w₁⟩
    obtain ⟨cp', hc, -⟩ := runNode_progress (metered host) hi hnext hr
    have hstep := superstep_node (metered host) hi.wellFormed hnext answer w
    rw [hr, hc] at hstep
    cases hstep.symm.trans hs
    refine ⟨superstep_inv (metered host) hi hstep, ?_⟩
    have hother (hnode : node ≠ .generatePlan) : KeptVisits host (cp, w) .advance := by
      intro hplan
      rw [hnext] at hplan
      exact absurd (List.head_eq_of_cons_eq hplan) hnode
    cases r with
    | update u =>
      obtain ⟨next, -, rfl⟩ := Option.map_eq_some_iff.mp hc
      by_cases hnode : node = .generatePlan
      · subst hnode
        obtain ⟨hkept, hplans⟩ := planning_accounted ha hr
        exact ⟨fun h ↦ hkept (h hnext), fun h _ ↦ hplans h⟩
      · exact ⟨fun _ ↦ runNode_accounted hnode ha hr, fun _ ↦ hother hnode⟩
    | interrupt value =>
      obtain ⟨rfl, hsame⟩ := runNode_interrupt hr
      cases hc
      rw [approvalNode_ledger hsame]
      exact ⟨fun _ ↦ ha, fun _ ↦ hother (by decide)⟩
    | raised => cases hc

theorem accounted_of_kept_visits {s : Checkpoint × σ × Ledger}
    (h : (machine host).ReachableUnder (KeptVisits host) s) :
    Inv host.sha256 host.coercions host.context s.1 ∧ Accounted s.1.values s.2.2 := by
  refine Machine.ReachableUnder.invariant (fun s : Checkpoint × σ × Ledger ↦
    Inv host.sha256 host.coercions host.context s.1 ∧ Accounted s.1.values s.2.2) ?_ ?_ h
  · rintro ⟨cp, w, l⟩ ⟨⟨goal, rfl⟩, rfl⟩
    exact ⟨inv_initial goal, ⟨rfl, rfl⟩, fun hp ↦ by cases hp⟩
  · rintro s m s' ⟨hi, ha⟩ hkept hs
    cases m with
    | advance =>
      cases hs
      obtain ⟨hi', haccounted, -⟩ := superstep_accounted hi ha rfl
      exact ⟨hi', haccounted hkept⟩
    | resume response =>
      obtain ⟨⟨-, hwaiting⟩, hs⟩ := Option.ite_none_right_eq_some.mp hs
      cases hs
      obtain ⟨hi', haccounted, -⟩ := superstep_accounted hi ha rfl
      refine ⟨hi', haccounted fun hplan ↦ ?_⟩
      -- a run that waits for its approval has no planning visit next
      obtain hnone | ⟨hnext, -⟩ := hi.interrupts
      · exact absurd hnone hwaiting
      · rw [hnext] at hplan
        cases hplan
    | outside w =>
      cases hs
      exact ⟨hi, ha⟩

/-- Every call of the provider, every reported usage and every write action of a run is accounted
for while each planning visit that asks the provider gets its proposal, and no longer once one does
not. -/
theorem usage_complete_of_kept_visits {s : Checkpoint × σ × Ledger}
    (h : (machine host).ReachableUnder (KeptVisits host) s) :
    Accounts s.1.values.metrics s.2.2 ∧
      (∀ output, summarize host.sha256 s.1.values = some output → Accounts output.metrics s.2.2) ∧
      ∀ s', (machine host).step s .advance = some s' →
        (Accounts s'.1.values.metrics s'.2.2 ↔ KeptVisits host s .advance) := by
  obtain ⟨hi, ha⟩ := accounted_of_kept_visits h
  refine ⟨ha.accounts, fun output ho ↦ ?_, fun s' hs ↦ ?_⟩
  · rw [summarize_metrics ho]
    exact ha.accounts
  · cases hs
    obtain ⟨-, haccounted, hkept⟩ := superstep_accounted hi ha rfl
    exact ⟨hkept, fun h ↦ (haccounted h).accounts⟩

def visitSucceeds (host : Host σ) (s : Checkpoint × σ × Ledger) : Move σ → Bool
  | .advance => s.1.next != [.generatePlan] ||
    (generatePlan host.coercions (metered host).planning s.1.values s.2).1.toBool
  | .resume _ | .outside _ => true

theorem keptVisits_of_succeeds (s : Checkpoint × σ × Ledger) (m : Move σ)
    (h : visitSucceeds host s m = true) : KeptVisits host s m := by
  cases m with
  | advance =>
    intro hnext input hinput
    simp only [visitSucceeds, hnext, bne_self_eq_false, Bool.false_or] at h
    obtain ⟨hnone, -⟩ | ⟨input', hsome, hplans, -⟩ := generatePlan_visit host s.1.values s.2
    · rw [hnone] at hinput
      cases hinput
    · obtain rfl := Option.some.inj (hsome.symm.trans hinput)
      exact hplans.mp h
  | resume | outside => trivial

/-- A host whose provider answers some of its calls and times out on the others. -/
def hostAnswering (answers : ℕ → Bool) : Host ℕ where
  sha256 := sampleHost.sha256
  coercions := sampleHost.coercions
  context := sampleHost.context
  planning := {
    parseJson := sampleHost.planning.parseJson
    buildInput := sampleHost.planning.buildInput
    generate _ w := (if answers w then
      .ok ⟨some (dumps sampleProposal.dump), false, ⟨some 10, some 5, some 15⟩⟩
      else .error .timeout, w + 1)
    latency w := (some sampleLatency, w)
    addLatency x _ := x }
  fetchContext text w := ((sampleHost.fetchContext text ()).1, w)
  executors := ⟨fun _ _ _ w ↦ (.error .other, w), some fun _ _ _ _ w ↦ (.error .other, w)⟩
  decider _ w := (none, w)
  durableApproval := true

/-- Every other call is answered, so that each visit asks twice. -/
def slowHost : Host ℕ := hostAnswering (· % 2 = 1)

def flakyHost : Host ℕ := hostAnswering (· = 0)

def sampleStart : Checkpoint × ℕ × Ledger := (initialCheckpoint sampleGoal, 0, ⟨[], 0⟩)

theorem sampleStart_init (host : Host ℕ) : (machine host).init sampleStart := ⟨⟨sampleGoal, rfl⟩, rfl⟩

def advances (n : ℕ) : List (Move ℕ) := List.replicate n .advance

/-- Changes are requested of a plan, and the next one is approved and carried out. -/
theorem usage_complete_of_kept_visits_sample :
    ∃ s output, (machine slowHost).ReachableUnder (KeptVisits slowHost) s ∧
      summarize slowHost.sha256 s.1.values = some output ∧ s.2.2.calls.length = 4 ∧
      s.2.2.writes = 1 ∧ Accounts output.metrics s.2.2 := by
  have hexec : ((machine slowHost).execChecked (visitSucceeds slowHost) sampleStart
      (advances 5 ++ .resume sampleChanges :: advances 3 ++
        .resume sampleConsent :: advances 3)).map (fun s ↦
          (s.2.2.calls.length, s.2.2.writes,
            (summarize slowHost.sha256 s.1.values).isSome)) = some (4, 1, true) := by
    decide +kernel
  obtain ⟨s, hs, hcounts⟩ := Option.map_eq_some_iff.mp hexec
  simp only [Prod.mk.injEq] at hcounts
  obtain ⟨hcalls, hwrites, hsome⟩ := hcounts
  obtain ⟨output, ho⟩ := Option.isSome_iff_exists.mp hsome
  have hr := Machine.ReachableUnder.execChecked keptVisits_of_succeeds
    (.init (sampleStart_init slowHost)) hs
  exact ⟨s, output, hr, ho, hcalls, hwrites, (usage_complete_of_kept_visits hr).2.1 output ho⟩

/-- Changes are requested of the first plan, and the second visit times out twice:
the output counts one attempt of three. -/
theorem failed_visit_unaccounted :
    ∃ s output, (machine flakyHost).Reachable s ∧ s.1.next = [] ∧
      summarize flakyHost.sha256 s.1.values = some output ∧ ¬ Accounts output.metrics s.2.2 := by
  have hexec : (((machine flakyHost).exec sampleStart
      (advances 5 ++ .resume sampleChanges :: advances 3)).bind fun s ↦
        (summarize flakyHost.sha256 s.1.values).map fun output ↦
          (s.1.next, output.metrics.map (·.providerAttemptCount), s.2.2.calls.length)) =
        some ([], some 1, 3) := by
    decide +kernel
  obtain ⟨s, hs, ho⟩ := Option.bind_eq_some_iff.mp hexec
  obtain ⟨output, ho, hcounts⟩ := Option.map_eq_some_iff.mp ho
  simp only [Prod.mk.injEq] at hcounts
  obtain ⟨hnext, hattempts, hcalls⟩ := hcounts
  obtain ⟨m, hm, hattempts⟩ := Option.map_eq_some_iff.mp hattempts
  refine ⟨s, output, .exec (.start (sampleStart_init flakyHost)) hs, hnext, ho, fun hall ↦ ?_⟩
  rw [hm] at hall
  have hall := hall.1
  omega

end LearningTasks.Agent.UsageAccounting
