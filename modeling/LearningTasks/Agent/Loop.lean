import LearningTasks.Library.Rounds
import LearningTasks.Agent.Providers
import Mathlib.Order.Defs.LinearOrder

namespace LearningTasks.Agent.Loop

open Library.Strings Library.Serialization Library.Rounds Schemas.Scalars Agent.Schemas State Tools
  Providers
open Planning (ProviderError ProviderUsage sumKnown)

def maxModelRounds : ℕ := 4

def maxToolCallsPerResponse : ℕ := 3

def maxTotalToolCalls : ℕ := 8

def maxSingleToolResultChars : ℕ := 6000

def maxAccumulatedToolResultChars : ℕ := 12000

/-- What a run raises: a planning error for its callers, or whatever else the
code below lets through. -/
inductive LoopError
  | unavailable
  | configuration
  | validation
  | clock
  | serialization
  | stream
  deriving DecidableEq

inductive ToolExecutionOutcome
  | succeeded
  deriving DecidableEq

structure AgentToolExecutionRecord where
  callId : Text
  toolName : ToolName
  outcome : ToolExecutionOutcome
  bounds : 1 ≤ callId.length ∧ callId.length ≤ 200

structure AgentRunTrace where
  promptVersion : Text
  roundCount : ℕ
  toolCount : ℕ
  toolRecords : List AgentToolExecutionRecord
  bounds : (1 ≤ roundCount ∧ roundCount ≤ maxModelRounds) ∧ toolCount ≤ maxTotalToolCalls

structure AgentLoopExecution where
  result : PlanningResult
  trace : AgentRunTrace
  metrics : AgentRunMetrics

inductive GoalInput
  | validated (goal : PlanningGoal)
  | mapping (fields : Fields)

def GoalInput.modelValidate : GoalInput → Option PlanningGoal
  | .validated goal => some goal
  | .mapping fields => PlanningGoal.modelValidate (.obj fields)

/-- What a run is set up with: the parsers and serialisers it calls, its tools,
and the successive readings of its clock. -/
structure LoopHost (σ R τ : Type) where
  coercions : Coercions
  context : AgentRuntimeContext
  model : Text
  parseJson : Text → Option Json
  loads : Text → Option Json
  dumpResult : R → Option Text
  validator : Text → Fields → AgentRuntimeContext → Except ToolError Unit
  dispatcher : Text → Fields → AgentRuntimeContext → Effect σ R
  now : ℕ → τ
  elapsed : τ → τ → FloatRepr

structure AgentLoopMachine (τ : Type) where
  goal : PlanningGoal
  startedAt : τ
  feedback : List Json
  feedbackChars : ℕ
  seenCallIds : List Text
  records : List AgentToolExecutionRecord
  roundCount : ℕ
  usages : List ProviderUsage

/-- What a run acts on: the world, its clock after some readings, and the calls
that were handed to the dispatcher. -/
structure World (σ : Type) where
  outside : σ
  ticks : ℕ
  dispatched : List ProviderToolCall

/-- A machine in its world, with what its observers have noted. -/
structure Run (σ τ κ : Type) where
  machine : AgentLoopMachine τ
  world : World σ
  observed : κ

abbrev ToolObserver (κ : Type) := ToolName → κ → κ

structure ToolObservers (κ : Type) where
  onToolStarted : Option (ToolObserver κ)
  onToolFinished : Option (ToolObserver κ)

variable {σ R τ κ : Type}

namespace Run

def observe (observer : Option (ToolObserver κ)) (name : ToolName) (run : Run σ τ κ) : Run σ τ κ :=
  match observer with
  | none => run
  | some note => { run with observed := note name run.observed }

def countRound (run : Run σ τ κ) : Run σ τ κ :=
  { run with machine := { run.machine with roundCount := run.machine.roundCount + 1 } }

def addUsage (usage : ProviderUsage) (run : Run σ τ κ) : Run σ τ κ :=
  { run with machine := { run.machine with usages := run.machine.usages ++ [usage] } }

def seeCalls (calls : List ProviderToolCall) (run : Run σ τ κ) : Run σ τ κ :=
  { run with machine := { run.machine with
      seenCallIds := run.machine.seenCallIds ++ calls.map (·.callId) } }

def countFeedback (chars : ℕ) (run : Run σ τ κ) : Run σ τ κ :=
  { run with machine := { run.machine with feedbackChars := run.machine.feedbackChars + chars } }

def record (call : ProviderToolCall) (output : Json) (run : Run σ τ κ) : Run σ τ κ :=
  { run with machine := { run.machine with
      feedback := run.machine.feedback ++ [.obj [("call_id".toList, .str call.callId),
        ("name".toList, .str call.name.1), ("output".toList, output)]]
      records := run.machine.records ++
        [⟨call.callId, call.name, .succeeded, call.bounds⟩] } }

def tick (run : Run σ τ κ) : Run σ τ κ :=
  { run with world := { run.world with ticks := run.world.ticks + 1 } }

def moveTo (outside : σ) (run : Run σ τ κ) : Run σ τ κ :=
  { run with world := { run.world with outside := outside } }

def dispatch (host : LoopHost σ R τ) (call : ProviderToolCall) (run : Run σ τ κ) :
    Except ToolError R × Run σ τ κ :=
  let called := host.dispatcher call.name.1 call.arguments host.context run.world.outside
  (called.1, { run with world := { run.world with
    outside := called.2
    dispatched := run.world.dispatched ++ [call] } })

end Run

def agentRunTrace (promptVersion : Text) (machine : AgentLoopMachine τ) : Option AgentRunTrace :=
  if h : (1 ≤ machine.roundCount ∧ machine.roundCount ≤ maxModelRounds) ∧
      machine.records.length ≤ maxTotalToolCalls then
    some ⟨promptVersion, machine.roundCount, machine.records.length, machine.records, h⟩
  else none

/-- A machine for a goal that validates, in a world where nothing has been called. -/
def start (host : LoopHost σ R τ) (goal : GoalInput) (w : σ) (observed : κ) :
    Except LoopError (Run σ τ κ) :=
  match goal.modelValidate with
  | none => .error .validation
  | some goal => .ok ⟨⟨goal, host.now 0, [], 0, [], [], 0, []⟩, ⟨w, 1, []⟩, observed⟩

def providerRequest (host : LoopHost σ R τ) (goal : PlanningGoal) (feedback : List Json) :
    Except LoopError ProviderRequest :=
  match buildStudyPlanPrompt goal with
  | none => .error .validation
  | some prompt =>
    let input := if feedback = [] then prompt.input
      else prompt.input ++ "\nValidated tool result data:\n".toList ++ dumps (.arr feedback)
    if hi : input.length ≤ 20000 then
      if hm : 1 ≤ host.model.length ∧ host.model.length ≤ 200 then
        .ok {
          model := host.model
          promptVersion := prompt.version
          input := input
          tools := availableToolDefinitions host.context
          modelBounds := hm
          versionBounds := prompt.versionBounds
          inputBounds := ⟨by
            have h := prompt.inputBounds.1
            dsimp only [input]
            split
            · exact h
            · rw [List.length_append, List.length_append]
              omega, hi⟩
          toolsBound := availableToolDefinitions_length host.context }
      else .error .validation
    else .error .unavailable

def nextRequest (host : LoopHost σ R τ) (run : Run σ τ κ) :
    Except LoopError ProviderRequest × Run σ τ κ :=
  if maxModelRounds ≤ run.machine.roundCount then (.error .unavailable, run)
  else (providerRequest host run.machine.goal run.machine.feedback, run.countRound)

/-- The checks a batch passes before any of its calls is dispatched. -/
def acceptable (host : LoopHost σ R τ) (machine : AgentLoopMachine τ)
    (calls : List ProviderToolCall) : Bool :=
  !calls.isEmpty && calls.length ≤ maxToolCallsPerResponse &&
    machine.records.length + calls.length ≤ maxTotalToolCalls &&
    decide (calls.map (·.callId)).Nodup &&
    calls.all (fun call ↦ !machine.seenCallIds.contains call.callId) &&
    calls.all fun call ↦ (host.validator call.name.1 call.arguments host.context).toBool

def acceptToolResult (host : LoopHost σ R τ) (observers : ToolObservers κ)
    (call : ProviderToolCall) (result : R) (run : Run σ τ κ) : Except LoopError Unit × Run σ τ κ :=
  match host.dumpResult result with
  | none => (.error .serialization, run)
  | some serialized =>
    if maxSingleToolResultChars < serialized.length then (.error .unavailable, run)
    else if maxAccumulatedToolResultChars < run.machine.feedbackChars + serialized.length then
      (.error .unavailable, run.countFeedback serialized.length)
    else
      match host.loads serialized with
      | none => (.error .serialization, run.countFeedback serialized.length)
      | some output => (.ok (), ((run.countFeedback serialized.length).record call output).observe
          observers.onToolFinished call.name)

def runCall (host : LoopHost σ R τ) (observers : ToolObservers κ) (call : ProviderToolCall)
    (run : Run σ τ κ) : Except LoopError Unit × Run σ τ κ :=
  match (run.observe observers.onToolStarted call.name).dispatch host call with
  | (.error _, run) => (.error .unavailable, run)
  | (.ok result, run) => acceptToolResult host observers call result run

def runCalls (host : LoopHost σ R τ) (observers : ToolObservers κ) :
    List ProviderToolCall → Run σ τ κ → Except LoopError Unit × Run σ τ κ
  | [], run => (.ok (), run)
  | call :: calls, run =>
    match runCall host observers call run with
    | (.error e, run) => (.error e, run)
    | (.ok (), run) => runCalls host observers calls run

def acceptBatch (host : LoopHost σ R τ) (observers : ToolObservers κ)
    (calls : List ProviderToolCall) (run : Run σ τ κ) : Except LoopError Unit × Run σ τ κ :=
  if acceptable host run.machine calls then runCalls host observers calls (run.seeCalls calls)
  else (.error .unavailable, run)

def safeError : ProviderError → LoopError
  | .configuration | .authentication | .permission => .configuration
  | .timeout | .transient | .invalidResponse | .other => .unavailable

def generateSafely (provider : ModelProvider σ) (request : ProviderRequest) (run : Run σ τ κ) :
    Except LoopError ProviderResponse × Run σ τ κ :=
  match provider request run.world.outside with
  | (.ok response, w) => (.ok response, run.moveTo w)
  | (.error e, w) => (.error (safeError e), run.moveTo w)

def noObservers : ToolObservers Unit := ⟨none, none⟩

structure Kept (run run' : Run σ τ κ) : Prop where
  goal : run'.machine.goal = run.machine.goal
  startedAt : run'.machine.startedAt = run.machine.startedAt
  roundCount : run'.machine.roundCount = run.machine.roundCount

theorem Kept.refl (run : Run σ τ κ) : Kept run run := ⟨rfl, rfl, rfl⟩

theorem Kept.trans {a b c : Run σ τ κ} (h : Kept a b) (h' : Kept b c) : Kept a c :=
  ⟨h'.goal.trans h.goal, h'.startedAt.trans h.startedAt, h'.roundCount.trans h.roundCount⟩

theorem kept_observe (observer : Option (ToolObserver κ)) (name : ToolName) (run : Run σ τ κ) :
    Kept run (run.observe observer name) := by
  cases observer <;> exact ⟨rfl, rfl, rfl⟩

theorem kept_acceptToolResult (host : LoopHost σ R τ) (observers : ToolObservers κ)
    (call : ProviderToolCall) (result : R) (run : Run σ τ κ) :
    Kept run (acceptToolResult host observers call result run).2 := by
  unfold acceptToolResult
  cases host.dumpResult result with
  | none => exact .refl run
  | some serialized =>
    dsimp only
    split
    · exact .refl run
    · split
      · exact ⟨rfl, rfl, rfl⟩
      · cases host.loads serialized with
        | none => exact ⟨rfl, rfl, rfl⟩
        | some output =>
          have h : Kept run ((run.countFeedback serialized.length).record call output) :=
            ⟨rfl, rfl, rfl⟩
          exact h.trans (kept_observe _ _ _)

theorem kept_runCall (host : LoopHost σ R τ) (observers : ToolObservers κ)
    (call : ProviderToolCall) (run : Run σ τ κ) :
    Kept run (runCall host observers call run).2 := by
  have hd : Kept run ((run.observe observers.onToolStarted call.name).dispatch host call).2 :=
    (kept_observe _ _ _).trans ⟨rfl, rfl, rfl⟩
  unfold runCall
  generalize (run.observe observers.onToolStarted call.name).dispatch host call = x at hd
  obtain ⟨r, run'⟩ := x
  cases r with
  | error e => exact hd
  | ok result => exact hd.trans (kept_acceptToolResult host observers call result run')

theorem kept_runCalls (host : LoopHost σ R τ) (observers : ToolObservers κ)
    (calls : List ProviderToolCall) (run : Run σ τ κ) :
    Kept run (runCalls host observers calls run).2 := by
  induction calls generalizing run with
  | nil => exact .refl run
  | cons call calls ih =>
    have hc := kept_runCall host observers call run
    unfold runCalls
    generalize runCall host observers call run = x at hc
    obtain ⟨r, run'⟩ := x
    cases r with
    | error e => exact hc
    | ok u => exact hc.trans (ih run')

theorem kept_acceptBatch (host : LoopHost σ R τ) (observers : ToolObservers κ)
    (calls : List ProviderToolCall) (run : Run σ τ κ) :
    Kept run (acceptBatch host observers calls run).2 := by
  unfold acceptBatch
  split
  · have h : Kept run (run.seeCalls calls) := ⟨rfl, rfl, rfl⟩
    exact h.trans (kept_runCalls host observers calls _)
  · exact .refl run

theorem generateSafely_kept (provider : ModelProvider σ) (request : ProviderRequest)
    (run : Run σ τ κ) : Kept run (generateSafely provider request run).2 := by
  unfold generateSafely
  split <;> exact ⟨rfl, rfl, rfl⟩

theorem nextRequest_ok {host : LoopHost σ R τ} {run run' : Run σ τ κ} {request : ProviderRequest}
    (h : nextRequest host run = (.ok request, run')) :
    run.machine.roundCount < maxModelRounds ∧ run' = run.countRound := by
  unfold nextRequest at h
  split at h
  · cases h
  · next hc =>
    rw [Prod.mk.injEq] at h
    exact ⟨by omega, h.2.symm⟩

theorem nextRequest_state (host : LoopHost σ R τ) (run : Run σ τ κ) :
    (nextRequest host run).2 = run ∨ (nextRequest host run).2 = run.countRound := by
  unfold nextRequest
  split
  · exact .inl rfl
  · exact .inr rfl

def roundsLeft (run : Run σ τ κ) : ℕ := maxModelRounds - run.machine.roundCount

def Run.silent (run : Run σ τ κ) : Run σ τ Unit := ⟨run.machine, run.world, ()⟩

@[simp] theorem silent_observe (observer : Option (ToolObserver κ)) (name : ToolName)
    (run : Run σ τ κ) : (run.observe observer name).silent = run.silent := by
  cases observer <;> rfl

theorem acceptToolResult_silent (host : LoopHost σ R τ) (observers : ToolObservers κ)
    (call : ProviderToolCall) (result : R) (run : Run σ τ κ) :
    acceptToolResult host noObservers call result run.silent =
      Prod.map id Run.silent (acceptToolResult host observers call result run) := by
  unfold acceptToolResult
  cases host.dumpResult result with
  | none => rfl
  | some serialized =>
    have hc : run.silent.machine = run.machine := rfl
    simp only [hc]
    by_cases hs : maxSingleToolResultChars < serialized.length
    · simp only [hs, ↓reduceIte]
      rfl
    · by_cases ha : maxAccumulatedToolResultChars < run.machine.feedbackChars + serialized.length
      · simp only [hs, ha, ↓reduceIte]
        rfl
      · simp only [hs, ha, ↓reduceIte]
        cases host.loads serialized with
        | none => rfl
        | some output =>
          simp only [Prod.map_apply, id_eq, silent_observe]
          rfl

theorem runCall_silent (host : LoopHost σ R τ) (observers : ToolObservers κ)
    (call : ProviderToolCall) (run : Run σ τ κ) :
    runCall host noObservers call run.silent =
      Prod.map id Run.silent (runCall host observers call run) := by
  have hd : (run.silent.observe noObservers.onToolStarted call.name).dispatch host call =
      Prod.map id Run.silent
        ((run.observe observers.onToolStarted call.name).dispatch host call) := by
    cases observers.onToolStarted <;> rfl
  unfold runCall
  rw [hd]
  generalize (run.observe observers.onToolStarted call.name).dispatch host call = x
  obtain ⟨r, run'⟩ := x
  cases r with
  | error e => rfl
  | ok result => exact acceptToolResult_silent host observers call result run'

theorem runCalls_silent (host : LoopHost σ R τ) (observers : ToolObservers κ)
    (calls : List ProviderToolCall) (run : Run σ τ κ) :
    runCalls host noObservers calls run.silent =
      Prod.map id Run.silent (runCalls host observers calls run) := by
  induction calls generalizing run with
  | nil => rfl
  | cons call calls ih =>
    unfold runCalls
    rw [runCall_silent host observers call run]
    generalize runCall host observers call run = x
    obtain ⟨r, run'⟩ := x
    cases r with
    | error e => rfl
    | ok u => exact ih run'

theorem acceptBatch_silent (host : LoopHost σ R τ) (observers : ToolObservers κ)
    (calls : List ProviderToolCall) (run : Run σ τ κ) :
    acceptBatch host noObservers calls run.silent =
      Prod.map id Run.silent (acceptBatch host observers calls run) := by
  have hm : run.silent.machine = run.machine := rfl
  unfold acceptBatch
  rw [hm]
  split
  · exact runCalls_silent host observers calls (run.seeCalls calls)
  · rfl

variable [LinearOrder τ]

def buildRunMetrics (elapsed : τ → τ → FloatRepr) (promptVersion : Text) (outcome : AgentRunOutcome)
    (modelRoundCount toolCallCount : ℕ) (usages : List ProviderUsage) (startedAt finishedAt : τ) :
    Except LoopError AgentRunMetrics :=
  if finishedAt < startedAt then .error .clock
  else .ok {
    promptVersion := promptVersion
    outcome := outcome
    modelRoundCount := modelRoundCount
    providerAttemptCount := modelRoundCount
    toolCallCount := toolCallCount
    inputTokens := sumKnown (usages.map (·.inputTokens))
    outputTokens := sumKnown (usages.map (·.outputTokens))
    totalTokens := sumKnown (usages.map (·.totalTokens))
    latencyMs := elapsed startedAt finishedAt }

/-- `AgentLoopMachine.metrics`, which builds the prompt again for its version. -/
def metrics (host : LoopHost σ R τ) (outcome : AgentRunOutcome) (run : Run σ τ κ) :
    Except LoopError AgentRunMetrics × Run σ τ κ :=
  match buildStudyPlanPrompt run.machine.goal with
  | none => (.error .validation, run)
  | some prompt =>
    (buildRunMetrics host.elapsed prompt.version outcome run.machine.roundCount
      run.machine.records.length run.machine.usages run.machine.startedAt
      (host.now run.world.ticks), run.tick)

def finish (host : LoopHost σ R τ) (text : Text) (run : Run σ τ κ) :
    Except LoopError AgentLoopExecution × Run σ τ κ :=
  match (host.parseJson text).bind (PlanningResult.modelValidate host.coercions) with
  | none => (.error .unavailable, run)
  | some result =>
    match agentRunTrace result.promptVersion run.machine with
    | none => (.error .validation, run)
    | some trace =>
      match metrics host .succeeded run with
      | (.error e, run) => (.error e, run)
      | (.ok measured, run) => (.ok ⟨result, trace, measured⟩, run)

def acceptResponse (host : LoopHost σ R τ) (observers : ToolObservers κ)
    (response : ProviderResponse) (run : Run σ τ κ) :
    Except LoopError (Option AgentLoopExecution) × Run σ τ κ :=
  match response.outputText, response.toolCalls with
  | some text, [] =>
    match finish host text (run.addUsage response.usage) with
    | (.error e, run) => (.error e, run)
    | (.ok execution, run) => (.ok (some execution), run)
  | some _, _ :: _ => (.error .unavailable, run.addUsage response.usage)
  | none, calls =>
    match acceptBatch host observers calls (run.addUsage response.usage) with
    | (.error e, run) => (.error e, run)
    | (.ok (), run) => (.ok none, run)

def runRound (host : LoopHost σ R τ) (provider : ModelProvider σ) (run : Run σ τ Unit) :
    Round LoopError AgentLoopExecution (Run σ τ Unit) :=
  match nextRequest host run with
  | (.error e, run) => .failed e run
  | (.ok request, run) =>
    match generateSafely provider request run with
    | (.error e, run) => .failed e run
    | (.ok response, run) =>
      match acceptResponse host noObservers response run with
      | (.error e, run) => .failed e run
      | (.ok none, run) => .next run
      | (.ok (some execution), run) => .done execution run

theorem kept_metrics (host : LoopHost σ R τ) (outcome : AgentRunOutcome) (run : Run σ τ κ) :
    Kept run (metrics host outcome run).2 := by
  unfold metrics
  split
  · exact .refl run
  · exact ⟨rfl, rfl, rfl⟩

theorem kept_finish (host : LoopHost σ R τ) (text : Text) (run : Run σ τ κ) :
    Kept run (finish host text run).2 := by
  have hm := kept_metrics host .succeeded run
  unfold finish
  split
  · exact .refl run
  · split
    · exact .refl run
    · generalize metrics host .succeeded run = x at hm
      obtain ⟨r, run'⟩ := x
      cases r with
      | error e => exact hm
      | ok measured => exact hm

theorem kept_acceptResponse (host : LoopHost σ R τ) (observers : ToolObservers κ)
    (response : ProviderResponse) (run : Run σ τ κ) :
    Kept run (acceptResponse host observers response run).2 := by
  have hu : Kept run (run.addUsage response.usage) := ⟨rfl, rfl, rfl⟩
  unfold acceptResponse
  split
  · next text _ _ =>
    have hf := hu.trans (kept_finish host text (run.addUsage response.usage))
    generalize finish host text (run.addUsage response.usage) = x at hf
    obtain ⟨r, run'⟩ := x
    cases r with
    | error e => exact hf
    | ok execution => exact hf
  · exact hu
  · have hb := hu.trans (kept_acceptBatch host observers response.toolCalls (run.addUsage response.usage))
    generalize acceptBatch host observers response.toolCalls (run.addUsage response.usage) = x at hb
    obtain ⟨r, run'⟩ := x
    cases r with
    | error e => exact hb
    | ok u => exact hb

theorem metrics_silent (host : LoopHost σ R τ) (outcome : AgentRunOutcome) (run : Run σ τ κ) :
    metrics host outcome run.silent = Prod.map id Run.silent (metrics host outcome run) := by
  have hm : run.silent.machine = run.machine := rfl
  unfold metrics
  rw [hm]
  split <;> rfl

theorem finish_silent (host : LoopHost σ R τ) (text : Text) (run : Run σ τ κ) :
    finish host text run.silent = Prod.map id Run.silent (finish host text run) := by
  have hm : run.silent.machine = run.machine := rfl
  unfold finish
  rw [hm, metrics_silent]
  split
  · rfl
  · split
    · rfl
    · generalize metrics host .succeeded run = x
      obtain ⟨r, run'⟩ := x
      cases r <;> rfl

theorem acceptResponse_silent (host : LoopHost σ R τ) (observers : ToolObservers κ)
    (response : ProviderResponse) (run : Run σ τ κ) :
    acceptResponse host noObservers response run.silent =
      Prod.map id Run.silent (acceptResponse host observers response run) := by
  have hu : run.silent.addUsage response.usage = (run.addUsage response.usage).silent := rfl
  unfold acceptResponse
  rw [hu]
  split
  · next text _ _ =>
    rw [finish_silent]
    generalize finish host text (run.addUsage response.usage) = x
    obtain ⟨r, run'⟩ := x
    cases r <;> rfl
  · rfl
  · rw [acceptBatch_silent host observers]
    generalize acceptBatch host observers response.toolCalls (run.addUsage response.usage) = x
    obtain ⟨r, run'⟩ := x
    cases r <;> rfl

theorem runRound_decreases (host : LoopHost σ R τ) (provider : ModelProvider σ)
    (run run' : Run σ τ Unit) (h : runRound host provider run = .next run') :
    roundsLeft run' < roundsLeft run := by
  unfold runRound at h
  cases hn : nextRequest host run with
  | mk r run₁ =>
    cases r with
    | error e => rw [hn] at h; cases h
    | ok request =>
      obtain ⟨hlt, rfl⟩ := nextRequest_ok hn
      simp only [hn] at h
      have hg := generateSafely_kept provider request run.countRound
      cases hr : generateSafely provider request run.countRound with
      | mk r run₂ =>
        rw [hr] at h hg
        cases r with
        | error e => cases h
        | ok response =>
          have ha := kept_acceptResponse host noObservers response run₂
          cases hs : acceptResponse host noObservers response run₂ with
          | mk r run₃ =>
            simp only [hs] at h ha
            rcases r with e | _ | execution
            · cases h
            · cases h
              have hc := (hg.trans ha).roundCount
              simp only [roundsLeft, hc, Run.countRound]
              omega
            · cases h

def loop (host : LoopHost σ R τ) (provider : ModelProvider σ) :
    Driver LoopError AgentLoopExecution (Run σ τ Unit) where
  round := runRound host provider
  rank := roundsLeft
  decreases := runRound_decreases host provider

def runAgent (host : LoopHost σ R τ) (provider : ModelProvider σ) (goal : GoalInput) (w : σ) :
    Except LoopError AgentLoopExecution × World σ :=
  match start host goal w () with
  | .error e => (.error e, ⟨w, 0, []⟩)
  | .ok run => Prod.map id Run.world ((loop host provider).run run)

end LearningTasks.Agent.Loop
