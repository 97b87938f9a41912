import LearningTasks.Agent.Events
import LearningTasks.Agent.LoopLimits

namespace LearningTasks.Agent.StreamTruth

open Library.Strings Library.Serialization Library.Rounds Schemas.Scalars Agent.Schemas State Tools
  Providers Loop LoopLimits Events
open Planning (ProviderError ProviderUsage)

variable {σ R τ κ : Type}

def isTerminal : AgentEventKind → Bool
  | .resultReady | .runFailed => true
  | .runStarted | .modelStarted | .toolStarted | .toolFinished => false

def toolTransition (body : EventBody) : Option (ToolPhase × ToolName) :=
  match body.kind, body.toolName with
  | .toolStarted, some name => some (.started, name)
  | .toolFinished, some name => some (.finished, name)
  | _, _ => none

def toolTransitions (events : List AgentProgressEvent) : Transitions :=
  events.filterMap fun event ↦ toolTransition event.toEventBody

def toolPair (name : ToolName) : Transitions := [(.started, name), (.finished, name)]

def finishedCount (transitions : Transitions) : ℕ :=
  (transitions.filter fun t ↦ decide (t.1 = .finished)).length

/-- What a consumed stream says of a run in which tools have completed. -/
structure Truthful (completed : List ToolName) (stream : Stream σ) : Prop where
  returned : stream.raised = none
  numbered : stream.events.map (·.sequence) = List.range' 1 stream.events.length
  begins : ∃ event ∈ stream.events.head?, event.kind = .runStarted
  ends : ∃ before last, stream.events = before ++ [last] ∧ isTerminal last.kind = true ∧
    ∀ event ∈ before, isTerminal event.kind = false
  tools : toolTransitions stream.events = completed.flatMap toolPair
  counted : ∀ event ∈ stream.events, ∀ measured ∈ event.metrics,
    measured.toolCallCount = finishedCount (toolTransitions stream.events)

theorem finishedCount_pairs (names : List ToolName) :
    finishedCount (names.flatMap toolPair) = names.length := by
  induction names with
  | nil => rfl
  | cons name names ih =>
    have hp : finishedCount (toolPair name ++ names.flatMap toolPair) =
        finishedCount (names.flatMap toolPair) + 1 := by
      unfold finishedCount toolPair
      simp only [List.cons_append, List.nil_append, reduceCtorEq, decide_false, decide_true,
        List.filter_cons, Bool.false_eq_true, ↓reduceIte, List.length_cons]
    rw [List.flatMap_cons, hp, ih, List.length_cons]

theorem metrics_eq_none (body : EventBody) (h : isTerminal body.kind = false) :
    body.metrics = none := by
  have hs := body.shape
  cases hm : body.metrics with
  | none => rfl
  | some measured =>
    rw [hm] at hs
    cases hk : body.kind with
    | resultReady => rw [hk] at h; cases h
    | runFailed => rw [hk] at h; cases h
    | _ => simp [validShape, hk] at hs

/-- An output that is still open: it has told of the tools that completed, in order. -/
structure Told (completed : List ToolName) (out : Output) : Prop where
  numbered : out.events.map (·.sequence) = List.range' 1 out.sequence
  begins : ∃ event ∈ out.events.head?, event.kind = .runStarted
  running : ∀ event ∈ out.events, isTerminal event.kind = false
  tools : toolTransitions out.events = completed.flatMap toolPair

theorem yield_numbered {out : Output} (clock : ℕ → Datetime) (body : EventBody)
    (h : out.events.map (·.sequence) = List.range' 1 out.sequence) :
    (out.yield clock body).events.map (·.sequence) =
      List.range' 1 (out.yield clock body).sequence := by
  rw [Output.yield, List.map_append, h, List.range'_1_concat, Nat.add_comm 1]
  rfl

theorem head?_yield {out : Output} (clock : ℕ → Datetime) (body : EventBody)
    {event : AgentProgressEvent} (h : event ∈ out.events.head?) :
    event ∈ (out.yield clock body).events.head? := by
  rw [Output.yield, List.head?_append, Option.mem_def.mp h]
  rfl

theorem toolTransitions_yield (clock : ℕ → Datetime) (body : EventBody) (out : Output) :
    toolTransitions (out.yield clock body).events =
      toolTransitions out.events ++ (toolTransition body).toList := by
  rw [Output.yield, toolTransitions, List.filterMap_append]
  cases h : toolTransition body with
  | none => simp [toolTransitions, h]
  | some t => simp [toolTransitions, h]

theorem Told.yield {completed : List ToolName} {out : Output} (h : Told completed out)
    (clock : ℕ → Datetime) {body : EventBody} (hrun : isTerminal body.kind = false)
    (hquiet : toolTransition body = none) : Told completed (out.yield clock body) where
  numbered := yield_numbered clock body h.numbered
  begins := by
    obtain ⟨event, he, hk⟩ := h.begins
    exact ⟨event, head?_yield clock body he, hk⟩
  running event he := by
    rcases List.mem_append.mp he with he | he
    · exact h.running event he
    · rw [List.mem_singleton.mp he]
      exact hrun
  tools := by
    rw [toolTransitions_yield, hquiet, h.tools]
    exact List.append_nil _

theorem Told.yieldPair {completed : List ToolName} {out : Output} (h : Told completed out)
    (clock : ℕ → Datetime) (name : ToolName) :
    Told (completed ++ [name]) (out.yieldAll clock ((toolPair name).map toolEvent)) := by
  have hout : out.yieldAll clock ((toolPair name).map toolEvent) =
      (out.yield clock (toolEvent (.started, name))).yield clock (toolEvent (.finished, name)) := rfl
  rw [hout]
  refine ⟨yield_numbered clock _ (yield_numbered clock _ h.numbered), ?_, ?_, ?_⟩
  · obtain ⟨event, he, hk⟩ := h.begins
    exact ⟨event, head?_yield clock _ (head?_yield clock _ he), hk⟩
  · intro event he
    rcases List.mem_append.mp he with he | he
    · rcases List.mem_append.mp he with he | he
      · exact h.running event he
      · rw [List.mem_singleton.mp he]
        rfl
    · rw [List.mem_singleton.mp he]
      rfl
  · rw [toolTransitions_yield, toolTransitions_yield, h.tools, List.flatMap_append,
      List.append_assoc]
    rfl

theorem yieldAll_append (clock : ℕ → Datetime) (a b : List EventBody) (out : Output) :
    out.yieldAll clock (a ++ b) = (out.yieldAll clock a).yieldAll clock b := List.foldl_append

theorem Told.yieldPairs {completed : List ToolName} {out : Output} (h : Told completed out)
    (clock : ℕ → Datetime) (names : List ToolName) :
    Told (completed ++ names) (out.yieldAll clock ((names.flatMap toolPair).map toolEvent)) := by
  induction names generalizing completed out with
  | nil =>
    rw [List.append_nil]
    exact h
  | cons name names ih =>
    have hrest := ih (h.yieldPair clock name)
    rw [List.flatMap_cons, List.map_append, yieldAll_append]
    simpa only [List.append_assoc, List.singleton_append] using hrest

theorem Told.close {completed : List ToolName} {out : Output} (h : Told completed out)
    (clock : ℕ → Datetime) {body : EventBody} (hend : isTerminal body.kind = true)
    (hquiet : toolTransition body = none)
    (hcount : ∀ measured ∈ body.metrics, measured.toolCallCount = completed.length)
    (world : World σ) : Truthful completed ⟨none, (out.yield clock body).events, world⟩ where
  returned := rfl
  numbered := by
    have hn := yield_numbered clock body h.numbered
    have hl := congrArg List.length hn
    rw [List.length_map, List.length_range'] at hl
    dsimp only
    rw [hn, hl]
  begins := by
    obtain ⟨event, he, hk⟩ := h.begins
    exact ⟨event, head?_yield clock body he, hk⟩
  ends := ⟨out.events, _, rfl, hend, h.running⟩
  tools := by
    dsimp only
    rw [toolTransitions_yield, hquiet, h.tools]
    exact List.append_nil _
  counted event he measured hm := by
    dsimp only
    rw [toolTransitions_yield, hquiet, h.tools, Option.toList_none, List.append_nil,
      finishedCount_pairs]
    rcases List.mem_append.mp he with he | he
    · rw [metrics_eq_none _ (h.running event he)] at hm
      cases hm
    · rw [List.mem_singleton.mp he] at hm
      exact hcount measured hm

/-- The characters fed back and the world after a call whose result is taken: one that
the dispatcher returns and that is within both limits. -/
def settle (host : LoopHost σ R τ) (call : ProviderToolCall) (before : ℕ × σ) : Option (ℕ × σ) :=
  match host.dispatcher call.name.1 call.arguments host.context before.2 with
  | (.error _, _) => none
  | (.ok result, w) => do
    let serialized ← host.dumpResult result
    if maxSingleToolResultChars < serialized.length then none
    else if maxAccumulatedToolResultChars < before.1 + serialized.length then none
    else (host.loads serialized).map fun _ ↦ (before.1 + serialized.length, w)

def settleAll (host : LoopHost σ R τ) : List ProviderToolCall → ℕ × σ → Option (ℕ × σ)
  | [], before => some before
  | call :: calls, before => (settle host call before).bind (settleAll host calls)

def reached (run : Run σ τ κ) : ℕ × σ := (run.machine.feedbackChars, run.world.outside)

def arrived (x : Except LoopError Unit × Run σ τ κ) : Option (ℕ × σ) :=
  match x with
  | (.ok (), run) => some (reached run)
  | (.error _, _) => none

theorem settle_eq (host : LoopHost σ R τ) (observers : ToolObservers κ) (call : ProviderToolCall)
    (run : Run σ τ κ) : settle host call (reached run) = arrived (runCall host observers call run) := by
  unfold settle runCall Run.dispatch reached
  rw [observe_world]
  cases host.dispatcher call.name.1 call.arguments host.context run.world.outside with
  | mk r w =>
    cases r with
    | error e => rfl
    | ok result =>
      dsimp only
      unfold acceptToolResult
      cases host.dumpResult result with
      | none => rfl
      | some serialized =>
        simp only [observe_machine, Option.bind_eq_bind, Option.bind_some]
        split
        · rfl
        · split
          · rfl
          · cases host.loads serialized with
            | none => rfl
            | some output =>
              simp only [Option.map_some, arrived, reached, observe_machine, observe_world]
              rfl

theorem settleAll_eq (host : LoopHost σ R τ) (observers : ToolObservers κ)
    (calls : List ProviderToolCall) (run : Run σ τ κ) :
    settleAll host calls (reached run) = arrived (runCalls host observers calls run) := by
  induction calls generalizing run with
  | nil => rfl
  | cons call calls ih =>
    unfold settleAll runCalls
    rw [settle_eq host observers]
    generalize runCall host observers call run = x
    obtain ⟨r, run'⟩ := x
    cases r with
    | error e => rfl
    | ok u => exact ih run'

/-- A batch that passes its checks and breaks off: its first call is settled, and one
after it is not. -/
structure BreaksOff (host : LoopHost σ R τ) (response : ProviderResponse) (run : Run σ τ κ) :
    Prop where
  plain : response.outputText = none
  checked : acceptable host run.machine response.toolCalls = true
  first : ∃ call ∈ response.toolCalls.head?, (settle host call (reached run)).isSome = true
  later : settleAll host response.toolCalls (reached run) = none

theorem runCalls_error {host : LoopHost σ R τ} {observers : ToolObservers κ}
    {calls : List ProviderToolCall} {run run' : Run σ τ κ} {e : LoopError}
    (h : runCalls host observers calls run = (.error e, run')) :
    (∃ call ∈ calls.head?, (settle host call (reached run)).isSome = true) ∧
        run.machine.records.length < run'.machine.records.length ∨
      (¬ ∃ call ∈ calls.head?, (settle host call (reached run)).isSome = true) ∧
        run'.machine.records = run.machine.records := by
  cases calls with
  | nil => cases h
  | cons call calls =>
    have hsettle := settle_eq host observers call run
    have hout := runCall_outcome host observers call run
    unfold runCalls at h
    generalize runCall host observers call run = x at h hsettle hout
    cases hout with
    | failed e run₁ progress =>
      right
      cases h
      refine ⟨?_, ?_⟩
      · intro hn
        obtain ⟨first, hf, hs⟩ := hn
        cases hf
        rw [hsettle] at hs
        cases hs
      · simpa only [List.map_nil, List.append_nil] using progress.records
    | completed c run₁ same progress chars bound observed =>
      left
      refine ⟨⟨call, rfl, by rw [hsettle]; rfl⟩, ?_⟩
      have hrest := runCalls_outcome host observers calls run₁ bound
      dsimp only at h
      rw [h] at hrest
      have h₁ := congrArg List.length progress.records
      cases hrest with
      | aborted _ _ done call' rest split progress' bound' =>
        have h₂ := congrArg List.length progress'.records
        simp only [List.length_append, List.length_map, List.length_singleton] at h₁ h₂
        omega

variable [LinearOrder τ]

theorem acceptResponse_error {host : LoopHost σ R τ} {observers : ToolObservers κ}
    {response : ProviderResponse} {run run' : Run σ τ κ} {e : LoopError}
    (h : acceptResponse host observers response run = (.error e, run')) :
    BreaksOff host response run ∧ run.machine.records.length < run'.machine.records.length ∨
      ¬ BreaksOff host response run ∧ run'.machine.records = run.machine.records := by
  unfold acceptResponse at h
  split at h
  · next text ht _ =>
    right
    have hu := (finish_outcome host text (run.addUsage response.usage)).1
    generalize finish host text (run.addUsage response.usage) = x at h hu
    obtain ⟨r, run₁⟩ := x
    refine ⟨fun hb ↦ ?_, ?_⟩
    · rw [hb.plain] at ht
      cases ht
    · cases r with
      | error e =>
        cases h
        exact hu.records
      | ok execution => cases h
  · next text _ _ ht _ =>
    right
    cases h
    refine ⟨fun hb ↦ ?_, rfl⟩
    rw [hb.plain] at ht
    cases ht
  · next ht =>
    unfold acceptBatch at h
    by_cases ha : acceptable host (run.addUsage response.usage).machine response.toolCalls = true
    · rw [if_pos ha] at h
      cases hx : runCalls host observers response.toolCalls
          ((run.addUsage response.usage).seeCalls response.toolCalls) with
      | mk r run₁ =>
        rw [hx] at h
        cases r with
        | ok u => cases h
        | error e =>
          cases h
          have hsettle := settleAll_eq host observers response.toolCalls
            ((run.addUsage response.usage).seeCalls response.toolCalls)
          rw [hx] at hsettle
          rcases runCalls_error hx with ⟨hfirst, hlt⟩ | ⟨hfirst, heq⟩
          · exact .inl ⟨⟨ht, ha, hfirst, hsettle⟩, hlt⟩
          · exact .inr ⟨fun hb ↦ hfirst hb.first, heq⟩
    · right
      rw [if_neg ha] at h
      cases h
      exact ⟨fun hb ↦ ha hb.checked, rfl⟩

theorem BreaksOff.raises {host : LoopHost σ R τ} {response : ProviderResponse} {run : Run σ τ κ}
    (h : BreaksOff host response run) (observers : ToolObservers κ) :
    ∃ e run', acceptResponse host observers response run = (.error e, run') := by
  have hsettle := settleAll_eq host observers response.toolCalls
    ((run.addUsage response.usage).seeCalls response.toolCalls)
  have hlater : settleAll host response.toolCalls
      (reached ((run.addUsage response.usage).seeCalls response.toolCalls)) = none := h.later
  have hchecked : acceptable host (run.addUsage response.usage).machine response.toolCalls = true :=
    h.checked
  rw [hlater] at hsettle
  unfold acceptResponse acceptBatch
  simp only [h.plain, hchecked, ↓reduceIte]
  generalize runCalls host observers response.toolCalls
    ((run.addUsage response.usage).seeCalls response.toolCalls) = x at hsettle
  obtain ⟨r, run'⟩ := x
  cases r with
  | error e => exact ⟨e, run', rfl⟩
  | ok u => cases hsettle

def blocking (streaming : StreamingModelProvider σ) : ModelProvider σ := fun request w ↦
  match receive (streaming request w).1 with
  | .ok response => (.ok response, (streaming request w).2)
  | .error _ => (.error .other, (streaming request w).2)

/-- The response of the round that starts in this state, and the run that takes it. -/
def answer (host : LoopHost σ R τ) (streaming : StreamingModelProvider σ) (run : Run σ τ Transitions) :
    Option (ProviderResponse × Run σ τ Transitions) :=
  match nextRequest host run with
  | (.error _, _) => none
  | (.ok request, run) =>
    match streamResponse streaming request run with
    | (.error _, _) => none
    | (.ok response, run) => some (response, run)

def BreaksOffAt (host : LoopHost σ R τ) (streaming : StreamingModelProvider σ)
    (s : StreamState σ τ) : Prop :=
  ∃ response run, answer host streaming s.run = some (response, run) ∧
    BreaksOff host response run

instance (host : LoopHost σ R τ) (response : ProviderResponse) (run : Run σ τ κ) :
    Decidable (BreaksOff host response run) :=
  decidable_of_iff (response.outputText = none ∧
      acceptable host run.machine response.toolCalls = true ∧
      (response.toolCalls.head?.any fun call ↦ (settle host call (reached run)).isSome) = true ∧
      (settleAll host response.toolCalls (reached run)).isNone = true)
    ⟨fun ⟨a, b, c, d⟩ ↦ ⟨a, b, (Option.any_eq_true _ _).mp c, Option.isNone_iff_eq_none.mp d⟩,
      fun ⟨a, b, c, d⟩ ↦ ⟨a, b, (Option.any_eq_true _ _).mpr c, Option.isNone_iff_eq_none.mpr d⟩⟩

instance (host : LoopHost σ R τ) (streaming : StreamingModelProvider σ) (s : StreamState σ τ) :
    Decidable (BreaksOffAt host streaming s) :=
  decidable_of_iff ((answer host streaming s.run).any
      (fun a ↦ decide (BreaksOff host a.1 a.2)) = true) (by
    simp only [Option.any_eq_true, decide_eq_true_eq, Prod.exists]
    rfl)

def completedNames (run : Run σ τ κ) : List ToolName := run.machine.records.map (·.toolName)

omit [LinearOrder τ] in
theorem noted_transitions (calls : List ProviderToolCall) (seen : Transitions) :
    noted transitionObservers calls seen = seen ++ (calls.map (·.name)).flatMap toolPair := by
  induction calls generalizing seen with
  | nil => exact (List.append_nil seen).symm
  | cons call calls ih =>
    have hstep : noted transitionObservers (call :: calls) seen =
        noted transitionObservers calls (seen ++ [(.started, call.name)] ++ [(.finished, call.name)]) :=
      rfl
    rw [hstep, ih, List.map_cons, List.flatMap_cons]
    simp only [toolPair, List.append_assoc, List.singleton_append]

omit [LinearOrder τ] in
theorem completedNames_ledger {host : LoopHost σ R τ} {provider : ModelProvider σ}
    {batches : List (AcceptedBatch host provider)} {completed : List (Completion host)}
    {run : Run σ τ κ} (h : Ledger batches completed run) :
    completedNames run = (batchCalls batches).map (·.name) := by
  rw [completedNames, h.records, ← h.calls, List.map_map, List.map_map]
  rfl

structure Streaming (host : LoopHost σ R τ) (streaming : StreamingModelProvider σ)
    (goal : PlanningGoal) (s : StreamState σ τ) : Prop where
  ledger : ∃ (batches : List (AcceptedBatch host (blocking streaming)))
    (completed : List (Completion host)), Ledger batches completed s.run
  told : Told (completedNames s.run) s.out
  goal : s.run.machine.goal = goal
  startedAt : s.run.machine.startedAt = host.now 0

/-- What one round of a stream leads to. It fails to tell of tools that completed
exactly if it breaks off. -/
inductive StreamOutcome (host : LoopHost σ R τ) (streaming : StreamingModelProvider σ)
    (clock : ℕ → Datetime) (goal : PlanningGoal) (s : StreamState σ τ) :
    Round LoopError Unit (StreamState σ τ) → Prop
  | next (s' : StreamState σ τ) (between : Streaming host streaming goal s')
      (whole : ¬ BreaksOffAt host streaming s) :
      StreamOutcome host streaming clock goal s (.next s')
  | done (run : Run σ τ Transitions) (out : Output) (usage : ProviderUsage)
      (execution : AgentLoopExecution) (told : Told (completedNames run) out)
      (measured : execution.metrics.toolCallCount = run.machine.records.length)
      (whole : ¬ BreaksOffAt host streaming s) :
      StreamOutcome host streaming clock goal s
        (.done () ⟨run, out.yield clock (resultReady usage execution)⟩)
  | failed (e : LoopError) (s' : StreamState σ τ) (names : List ToolName)
      (told : Told names s'.out) (sameGoal : s'.run.machine.goal = goal)
      (startedAt : s'.run.machine.startedAt = host.now 0)
      (records : BreaksOffAt host streaming s ∧ names.length < s'.run.machine.records.length ∨
        ¬ BreaksOffAt host streaming s ∧ completedNames s'.run = names) :
      StreamOutcome host streaming clock goal s (.failed e s')

omit [LinearOrder τ] in
theorem streamResponse_given {streaming : StreamingModelProvider σ} {request : ProviderRequest}
    {run run' : Run σ τ Transitions} {response : ProviderResponse}
    (h : streamResponse streaming request run = (.ok response, run')) :
    ∃ request w, (blocking streaming request w).1 = .ok response := by
  have hr : receive (streaming request run.world.outside).1 = .ok response := congrArg Prod.fst h
  refine ⟨request, run.world.outside, ?_⟩
  rw [blocking, hr]

theorem acceptRound_outcome {host : LoopHost σ R τ} {streaming : StreamingModelProvider σ}
    (clock : ℕ → Datetime) {goal : PlanningGoal} {s : StreamState σ τ}
    {run : Run σ τ Transitions} {out : Output} {response : ProviderResponse}
    (hanswer : answer host streaming s.run = some (response, run))
    (hgiven : ∃ request w, (blocking streaming request w).1 = .ok response)
    (hrun : Streaming host streaming goal ⟨run, out⟩) (hobserved : run.observed = []) :
    StreamOutcome host streaming clock goal s
      (match acceptResponse host transitionObservers response run with
      | (.error e, run) => .failed e ⟨run, out⟩
      | (.ok execution, run) =>
        let out := out.yieldAll clock (run.observed.map toolEvent)
        match execution with
        | none => .next ⟨run, out⟩
        | some execution => .done () ⟨run, out.yield clock (resultReady response.usage execution)⟩) := by
  obtain ⟨batches, completed, hledger⟩ := hrun.ledger
  have hbreaks : BreaksOffAt host streaming s ↔ BreaksOff host response run := by
    constructor
    · intro h
      obtain ⟨response', run', ha, hb⟩ := h
      rw [hanswer] at ha
      cases ha
      exact hb
    · intro h
      exact ⟨response, run, hanswer, h⟩
  have hk := kept_acceptResponse host transitionObservers response run
  have hout := acceptResponse_outcome transitionObservers hledger hgiven
  cases hx : acceptResponse host transitionObservers response run with
  | mk r run' =>
    rw [hx] at hk hout
    have hwhole {execution : Option AgentLoopExecution} (hr : r = .ok execution) :
        ¬ BreaksOffAt host streaming s := by
      intro hb
      obtain ⟨e, run₁, he⟩ := (hbreaks.mp hb).raises transitionObservers
      rw [hx, hr] at he
      cases he
    rcases r with e | _ | execution
    · refine .failed e ⟨run', out⟩ _ hrun.told (hk.goal.trans hrun.goal)
        (hk.startedAt.trans hrun.startedAt) ?_
      rcases acceptResponse_error hx with ⟨hb, hlt⟩ | ⟨hb, heq⟩
      · refine .inl ⟨hbreaks.mpr hb, ?_⟩
        rw [completedNames, List.length_map]
        exact hlt
      · refine .inr ⟨fun h ↦ hb (hbreaks.mp h), ?_⟩
        rw [completedNames, heq, completedNames]
    · cases hout with
      | next batch done _ same ledger observed =>
        refine .next _ ⟨⟨_, _, ledger⟩, ?_, hk.goal.trans hrun.goal,
          hk.startedAt.trans hrun.startedAt⟩ (hwhole rfl)
        have hnames : completedNames run' =
            completedNames run ++ response.toolCalls.map (·.name) := by
          rw [completedNames_ledger ledger, completedNames_ledger hledger, batchCalls_concat,
            List.map_append, same]
        dsimp only
        rw [observed, hobserved, noted_transitions, List.nil_append, hnames]
        exact hrun.told.yieldPairs clock _
    · cases hout with
      | finished _ _ ledger observed reports =>
        refine .done run' _ response.usage execution ?_ reports.measured (hwhole rfl)
        have hnames : completedNames run' = completedNames run := by
          rw [completedNames_ledger ledger, completedNames_ledger hledger]
        rw [observed, hobserved, hnames]
        exact hrun.told

omit [LinearOrder τ] in
theorem not_breaksOffAt {host : LoopHost σ R τ} {streaming : StreamingModelProvider σ}
    {s : StreamState σ τ} (h : answer host streaming s.run = none) :
    ¬ BreaksOffAt host streaming s := by
  rintro ⟨response, run, ha, -⟩
  rw [h] at ha
  cases ha

theorem streamRound_outcome {host : LoopHost σ R τ} {streaming : StreamingModelProvider σ}
    (clock : ℕ → Datetime) {goal : PlanningGoal} {s : StreamState σ τ}
    (h : Streaming host streaming goal s) :
    StreamOutcome host streaming clock goal s (streamRound host streaming clock s) := by
  obtain ⟨batches, completed, hledger⟩ := h.ledger
  unfold streamRound
  cases hn : nextRequest host s.run with
  | mk r run₁ =>
    cases r with
    | error e =>
      have hanswer : answer host streaming s.run = none := by
        unfold answer
        rw [hn]
      have hstate : run₁ = s.run ∨ run₁ = s.run.countRound := by
        simpa only [hn] using nextRequest_state host s.run
      refine .failed e ⟨run₁, s.out⟩ _ h.told ?_ ?_ (.inr ⟨not_breaksOffAt hanswer, ?_⟩)
      · rcases hstate with rfl | rfl
        · exact h.goal
        · exact h.goal
      · rcases hstate with rfl | rfl
        · exact h.startedAt
        · exact h.startedAt
      · rcases hstate with rfl | rfl
        · rfl
        · rfl
    | ok request =>
      obtain ⟨-, rfl⟩ := nextRequest_ok hn
      have htold : Told (completedNames s.run) (s.out.yield clock modelStarted) :=
        h.told.yield clock rfl rfl
      dsimp only
      cases hs : streamResponse streaming request s.run.countRound with
      | mk r run₂ =>
        have hrun₂ : run₂ = { s.run.countRound.moveTo
            (streaming request s.run.countRound.world.outside).2 with observed := [] } :=
          (congrArg Prod.snd hs).symm
        cases r with
        | error e =>
          have hanswer : answer host streaming s.run = none := by
            unfold answer
            rw [hn]
            dsimp only
            rw [hs]
          subst hrun₂
          exact .failed e _ _ htold h.goal h.startedAt (.inr ⟨not_breaksOffAt hanswer, rfl⟩)
        | ok response =>
          have hanswer : answer host streaming s.run = some (response, run₂) := by
            unfold answer
            rw [hn]
            dsimp only
            rw [hs]
          have hgiven := streamResponse_given hs
          subst hrun₂
          exact acceptRound_outcome clock hanswer hgiven
            ⟨⟨batches, completed, hledger.untouched ⟨rfl, rfl, rfl, rfl, rfl⟩⟩, htold, h.goal,
              h.startedAt⟩ rfl

inductive StreamEnd (host : LoopHost σ R τ) (clock : ℕ → Datetime) (goal : PlanningGoal) :
    Except LoopError Unit × StreamState σ τ → Prop
  | ready (run : Run σ τ Transitions) (out : Output) (usage : ProviderUsage)
      (execution : AgentLoopExecution) (told : Told (completedNames run) out)
      (measured : execution.metrics.toolCallCount = run.machine.records.length) :
      StreamEnd host clock goal (.ok (), ⟨run, out.yield clock (resultReady usage execution)⟩)
  | failed (e : LoopError) (s : StreamState σ τ) (told : Told (completedNames s.run) s.out)
      (sameGoal : s.run.machine.goal = goal) (startedAt : s.run.machine.startedAt = host.now 0) :
      StreamEnd host clock goal (.error e, s)

theorem streamLoop_end {host : LoopHost σ R τ} {streaming : StreamingModelProvider σ}
    {clock : ℕ → Datetime} {goal : PlanningGoal} {s : StreamState σ τ}
    (h : Streaming host streaming goal s)
    (hwhole : ∀ t ∈ (streamLoop host streaming clock).states s, ¬ BreaksOffAt host streaming t) :
    StreamEnd host clock goal ((streamLoop host streaming clock).run s) := by
  refine (streamLoop host streaming clock).run_rule
    (I := fun s ↦ Streaming host streaming goal s ∧
      ∀ t ∈ (streamLoop host streaming clock).states s, ¬ BreaksOffAt host streaming t)
    ?_ ?_ ?_ ⟨h, hwhole⟩
  · intro s s' hs hr
    have hout := streamRound_outcome clock hs.1
    rw [show streamRound host streaming clock s = .next s' from hr] at hout
    cases hout with
    | next _ between whole =>
      refine ⟨between, ?_⟩
      intro t ht
      apply hs.2
      rw [Driver.states_eq, hr]
      exact List.mem_cons_of_mem s ht
  · intro s u s' hs hr
    have hout := streamRound_outcome clock hs.1
    rw [show streamRound host streaming clock s = .done u s' from hr] at hout
    cases hout with
    | done run out usage execution told measured whole =>
      exact .ready run out usage execution told measured
  · intro s e s' hs hr
    have hout := streamRound_outcome clock hs.1
    rw [show streamRound host streaming clock s = .failed e s' from hr] at hout
    cases hout with
    | failed _ _ names told sameGoal startedAt records =>
      have hself : s ∈ (streamLoop host streaming clock).states s := by
        rw [Driver.states_eq]
        exact List.mem_cons_self
      rcases records with ⟨hb, -⟩ | ⟨-, hnames⟩
      · exact absurd hb (hs.2 s hself)
      · exact .failed e s' (hnames ▸ told) sameGoal startedAt

/-- A batch that breaks off ends the run with completed tools that were not told of. -/
theorem streamLoop_broken {host : LoopHost σ R τ} {streaming : StreamingModelProvider σ}
    {clock : ℕ → Datetime} {goal : PlanningGoal} {s t : StreamState σ τ}
    (h : Streaming host streaming goal s) (ht : t ∈ (streamLoop host streaming clock).states s)
    (hbreaks : BreaksOffAt host streaming t) :
    ∃ e s' names, (streamLoop host streaming clock).run s = (.error e, s') ∧ Told names s'.out ∧
      names.length < s'.run.machine.records.length := by
  have hstreaming : ∀ t ∈ (streamLoop host streaming clock).states s,
      Streaming host streaming goal t := by
    refine (streamLoop host streaming clock).states_rule ?_ h
    intro s s' hs hr
    have hout := streamRound_outcome clock hs
    rw [show streamRound host streaming clock s = .next s' from hr] at hout
    cases hout with
    | next _ between whole => exact between
  have hout := streamRound_outcome clock (hstreaming t ht)
  rw [← Driver.run_of_mem_states _ ht, Driver.run_eq]
  change StreamOutcome host streaming clock goal t ((streamLoop host streaming clock).round t) at hout
  generalize (streamLoop host streaming clock).round t = x at hout
  cases hout with
  | next s' between whole => exact absurd hbreaks whole
  | done run out usage execution told measured whole => exact absurd hbreaks whole
  | failed e s' names told sameGoal startedAt records =>
    rcases records with ⟨-, hlt⟩ | ⟨hn, -⟩
    · exact ⟨e, s', names, rfl, told, hlt⟩
    · exact absurd hbreaks hn

def opening (clock : ℕ → Datetime) : Output := (⟨0, []⟩ : Output).yield clock runStarted

/-- The tools whose calls completed in a streamed run, in the order of execution. -/
def completedTools (host : LoopHost σ R τ) (streaming : StreamingModelProvider σ)
    (clock : ℕ → Datetime) (goal : GoalInput) (w : σ) : List ToolName :=
  match start host goal w [] with
  | .error _ => []
  | .ok run => completedNames ((streamLoop host streaming clock).run ⟨run, opening clock⟩).2.run

theorem completedTools_of_run {host : LoopHost σ R τ} {streaming : StreamingModelProvider σ}
    {clock : ℕ → Datetime} {goal : GoalInput} {w : σ} {run : Run σ τ Transitions}
    {r : Except LoopError Unit} {s : StreamState σ τ} (hstart : start host goal w [] = .ok run)
    (hrun : (streamLoop host streaming clock).run ⟨run, opening clock⟩ = (r, s)) :
    completedTools host streaming clock goal w = completedNames s.run := by
  rw [completedTools, hstart]
  dsimp only
  rw [hrun]

theorem streamAgent_ready {host : LoopHost σ R τ} {streaming : StreamingModelProvider σ}
    {clock : ℕ → Datetime} {goal : GoalInput} {w : σ} {run : Run σ τ Transitions}
    {s : StreamState σ τ} (hstart : start host goal w [] = .ok run)
    (hrun : (streamLoop host streaming clock).run ⟨run, opening clock⟩ = (.ok (), s)) :
    streamAgent host streaming clock goal w = ⟨none, s.out.events, s.run.world⟩ := by
  rw [opening] at hrun
  rw [streamAgent, hstart]
  dsimp only
  rw [hrun]

theorem streamAgent_failed {host : LoopHost σ R τ} {streaming : StreamingModelProvider σ}
    {clock : ℕ → Datetime} {goal : GoalInput} {w : σ} {run : Run σ τ Transitions}
    {e : LoopError} {s : StreamState σ τ} (hstart : start host goal w [] = .ok run)
    (hrun : (streamLoop host streaming clock).run ⟨run, opening clock⟩ = (.error e, s)) :
    streamAgent host streaming clock goal w = failRun host clock s := by
  rw [opening] at hrun
  rw [streamAgent, hstart]
  dsimp only
  rw [hrun]

def WholeBatches (host : LoopHost σ R τ) (streaming : StreamingModelProvider σ)
    (clock : ℕ → Datetime) (goal : GoalInput) (w : σ) : Prop :=
  ∀ run, start host goal w [] = .ok run →
    ∀ s ∈ (streamLoop host streaming clock).states ⟨run, opening clock⟩,
      ¬ BreaksOffAt host streaming s

theorem opening_told (clock : ℕ → Datetime) : Told [] (opening clock) where
  numbered := rfl
  begins := ⟨_, rfl, rfl⟩
  running event he := by
    rw [List.mem_singleton.mp he]
    rfl
  tools := rfl

omit [LinearOrder τ] in
theorem start_streaming {host : LoopHost σ R τ} (streaming : StreamingModelProvider σ)
    (clock : ℕ → Datetime) {goal : GoalInput} {w : σ} {run : Run σ τ Transitions}
    {g : PlanningGoal} (hv : goal.modelValidate = some g) (h : start host goal w [] = .ok run) :
    Streaming host streaming g ⟨run, opening clock⟩ := by
  simp only [start, hv] at h
  cases h
  exact ⟨⟨[], [], rfl, rfl, rfl, Nat.zero_le _, rfl, rfl, rfl, List.nodup_nil, Nat.zero_le _⟩,
    opening_told clock, rfl, rfl⟩

theorem truthful_of_whole {host : LoopHost σ R τ} (hclock : Monotone host.now)
    {streaming : StreamingModelProvider σ} {clock : ℕ → Datetime} {goal : GoalInput} {w : σ}
    (hfits : ∀ g, goal.modelValidate = some g →
      (studyPlanInput g).length ≤ maxPromptInputCharacters)
    (hwhole : WholeBatches host streaming clock goal w) :
    Truthful (completedTools host streaming clock goal w)
      (streamAgent host streaming clock goal w) := by
  cases hv : goal.modelValidate with
  | none =>
    have hs : start host goal w ([] : Transitions) = .error .validation := by
      simp only [start, hv]
    unfold completedTools streamAgent
    rw [hs]
    refine (opening_told clock).close clock rfl rfl ?_ _
    intro measured hm
    cases hm
  | some g =>
    cases hs : start host goal w ([] : Transitions) with
    | error e =>
      simp only [start, hv] at hs
      cases hs
    | ok run =>
      have hend := streamLoop_end (start_streaming streaming clock hv hs) (hwhole run hs)
      generalize hrun : (streamLoop host streaming clock).run ⟨run, opening clock⟩ = x at hend
      cases hend with
      | ready run out usage execution told measured =>
        rw [completedTools_of_run hs hrun, streamAgent_ready hs hrun]
        refine told.close clock rfl rfl ?_ _
        intro m hm
        cases hm
        rw [measured, completedNames, List.length_map]
      | failed e s told sameGoal startedAt =>
        obtain ⟨measured, hm⟩ := Events.metrics_ok hclock .failed startedAt (sameGoal ▸ hfits g hv)
        have hcount := LoopLimits.metrics_ok hm
        rw [completedTools_of_run hs hrun, streamAgent_failed hs hrun, failRun, hm]
        refine told.close clock rfl rfl ?_ _
        intro m hx
        cases hx
        rw [hcount, completedNames, List.length_map]

omit [LinearOrder τ] in
theorem pairs_length (names : List ToolName) : (names.flatMap toolPair).length = 2 * names.length := by
  induction names with
  | nil => rfl
  | cons name names ih =>
    rw [List.flatMap_cons, List.length_append, ih, List.length_cons, toolPair]
    simp only [List.length_cons, List.length_nil]
    omega

theorem not_truthful_of_breaks {host : LoopHost σ R τ} {streaming : StreamingModelProvider σ}
    {clock : ℕ → Datetime} {goal : GoalInput} {w : σ} {run : Run σ τ Transitions}
    (hstart : start host goal w [] = .ok run) {t : StreamState σ τ}
    (ht : t ∈ (streamLoop host streaming clock).states ⟨run, opening clock⟩)
    (hbreaks : BreaksOffAt host streaming t) :
    ¬ Truthful (completedTools host streaming clock goal w)
      (streamAgent host streaming clock goal w) := by
  intro h
  cases hv : goal.modelValidate with
  | none =>
    simp only [start, hv] at hstart
    cases hstart
  | some g =>
    obtain ⟨e, s, names, hrun, htold, hlt⟩ :=
      streamLoop_broken (start_streaming streaming clock hv hstart) ht hbreaks
    have hevents : toolTransitions (failRun host clock s).events = names.flatMap toolPair := by
      unfold failRun
      cases hm : metrics host .failed s.run with
      | mk r run' =>
        cases r with
        | error e => exact htold.tools
        | ok measured =>
          dsimp only
          rw [toolTransitions_yield, htold.tools]
          exact List.append_nil _
    have htruth := h.tools
    rw [streamAgent_failed hstart hrun, completedTools_of_run hstart hrun, hevents] at htruth
    have hl := congrArg List.length htruth
    rw [pairs_length, pairs_length, completedNames, List.length_map] at hl
    omega

/-- A stream tells the truth exactly if the prompt of its goal fits, should the goal be
valid, and no batch of its rounds breaks off after its first call. -/
theorem truthful_iff_whole (host : LoopHost σ R τ) (hclock : Monotone host.now)
    (streaming : StreamingModelProvider σ) (clock : ℕ → Datetime) (goal : GoalInput) (w : σ) :
    Truthful (completedTools host streaming clock goal w)
        (streamAgent host streaming clock goal w) ↔
      (∀ g, goal.modelValidate = some g →
        (studyPlanInput g).length ≤ maxPromptInputCharacters) ∧
      WholeBatches host streaming clock goal w := by
  constructor
  · intro h
    refine ⟨?_, ?_⟩
    · intro g hv
      by_contra hg
      have hraised := streamAgent_raises host streaming clock w hv hg
      rw [h.returned] at hraised
      cases hraised
    · intro run hstart t ht hbreaks
      exact not_truthful_of_breaks hstart ht hbreaks h
  · intro h
    exact truthful_of_whole hclock h.1 h.2

/-- The stream of a run that calls two tools before the plan tells of both. -/
theorem truthful_on_sample :
    (completedTools toolHost toolStreaming sampleClock (.validated Approval.sampleGoal) 0).length =
      2 ∧
    Truthful (completedTools toolHost toolStreaming sampleClock (.validated Approval.sampleGoal) 0)
      (streamAgent toolHost toolStreaming sampleClock (.validated Approval.sampleGoal) 0) := by
  refine ⟨by decide +kernel, ?_⟩
  refine (truthful_iff_whole toolHost monotone_id toolStreaming sampleClock _ 0).mpr ⟨?_, ?_⟩
  · rintro g ⟨⟩
    decide +kernel
  · rintro run ⟨⟩
    decide +kernel

def twoCallsStreaming : StreamingModelProvider Unit := fun _ w ↦ (⟨[.response twoCalls], none⟩, w)

def halfHost : LoopHost Unit Text ℕ where
  __ := sampleHost
  loads _ := some (.obj [])
  validator _ _ _ := .ok ()
  dispatcher name _ _ w :=
    if name = listProjects.1 then (.ok "\x7b\x7d".toList, w) else (.error .other, w)

theorem halfHost_request : ∃ request,
    nextRequest halfHost (⟨⟨Approval.sampleGoal, 0, [], 0, [], [], 0, []⟩, ⟨(), 1, []⟩, []⟩ :
      Run Unit ℕ Transitions) = (.ok request,
        ⟨⟨Approval.sampleGoal, 0, [], 0, [], [], 1, []⟩, ⟨(), 1, []⟩, []⟩) := by
  have hfits : (studyPlanInput Approval.sampleGoal).length ≤ maxPromptInputCharacters := by
    decide +kernel
  have hmodel : 1 ≤ halfHost.model.length ∧ halfHost.model.length ≤ 200 := by decide
  have hi : (studyPlanInput Approval.sampleGoal).length ≤ 20000 := hfits
  unfold nextRequest providerRequest buildStudyPlanPrompt
  simp only [hfits, hi, hmodel, ↓reduceDIte, ↓reduceIte, maxModelRounds, and_self]
  exact ⟨_, rfl⟩

/-- Projects are listed and then tasks are not: the stream fails without telling of
the call that completed. -/
theorem listed_projects_not_told : Monotone halfHost.now ∧
    ¬ Truthful (completedTools halfHost twoCallsStreaming sampleClock
        (.validated Approval.sampleGoal) ())
      (streamAgent halfHost twoCallsStreaming sampleClock (.validated Approval.sampleGoal) ()) := by
  refine ⟨monotone_id, ?_⟩
  have hstart : start halfHost (.validated Approval.sampleGoal) () ([] : Transitions) =
      .ok ⟨⟨Approval.sampleGoal, 0, [], 0, [], [], 0, []⟩, ⟨(), 1, []⟩, []⟩ := rfl
  apply not_truthful_of_breaks hstart (t := ⟨_, opening sampleClock⟩)
  · rw [Driver.states_eq]
    exact List.mem_cons_self
  · obtain ⟨request, hr⟩ := halfHost_request
    refine ⟨twoCalls, ⟨⟨Approval.sampleGoal, 0, [], 0, [], [], 1, []⟩, ⟨(), 1, []⟩, []⟩, ?_, ?_⟩
    · unfold answer
      rw [hr]
      rfl
    · refine ⟨rfl, ?_, ⟨_, rfl, ?_⟩, ?_⟩
      · decide +kernel
      · decide +kernel
      · decide +kernel

end LearningTasks.Agent.StreamTruth
