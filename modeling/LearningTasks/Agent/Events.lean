import LearningTasks.Agent.Loop
import LearningTasks.Agent.Checkpoints
import Mathlib.Algebra.BigOperators.Group.List.Basic

namespace LearningTasks.Agent.Events

open Library.Strings Library.Serialization Library.Rounds Schemas.Scalars Agent.Schemas State Tools
  Providers Loop
open Planning (ProviderError ProviderUsage)

def eventSummaryMaxLength : ℕ := 300

inductive AgentEventKind
  | runStarted
  | modelStarted
  | toolStarted
  | toolFinished
  | resultReady
  | runFailed
  deriving DecidableEq

inductive AgentEventOutcome
  | succeeded
  | failed
  deriving DecidableEq

/-- `validate_shape`, on which of the optional fields are there. -/
def validShape (kind : AgentEventKind) (toolName result metrics : Bool)
    (outcome : Option AgentEventOutcome) : Bool :=
  ((kind == .toolStarted || kind == .toolFinished) == toolName) &&
    ((kind == .resultReady) == result) &&
    (kind != .resultReady || outcome == some .succeeded) &&
    (kind != .runFailed || outcome == some .failed) &&
    (kind != .resultReady || metrics) &&
    (kind == .resultReady || kind == .runFailed || !metrics)

/-- What an event says, before it is numbered and stamped. -/
structure EventBody where
  kind : AgentEventKind
  toolName : Option ToolName
  summary : Text
  outcome : Option AgentEventOutcome
  usage : Option ProviderUsage
  result : Option PlanningResult
  metrics : Option AgentRunMetrics
  summarised : 1 ≤ summary.length ∧ summary.length ≤ eventSummaryMaxLength
  shape : validShape kind toolName.isSome result.isSome metrics.isSome outcome = true

structure AgentProgressEvent extends EventBody where
  sequence : ℕ
  timestamp : Datetime
  positive : 1 ≤ sequence

def runStarted : EventBody :=
  ⟨.runStarted, none, "Study planning started".toList, none, none, none, none, by decide, rfl⟩

def modelStarted : EventBody :=
  ⟨.modelStarted, none, "Model generation started".toList, none, none, none, none, by decide, rfl⟩

inductive ToolPhase
  | started
  | finished
  deriving DecidableEq

def toolEvent : ToolPhase × ToolName → EventBody
  | (.started, name) => ⟨.toolStarted, some name, "Tool execution started".toList, none, none, none,
      none, by decide, rfl⟩
  | (.finished, name) => ⟨.toolFinished, some name, "Tool execution finished".toList,
      some .succeeded, none, none, none, by decide, rfl⟩

def resultReady (usage : ProviderUsage) (execution : AgentLoopExecution) : EventBody :=
  ⟨.resultReady, none, "Study plan is ready".toList, some .succeeded, some usage,
    some execution.result, some execution.metrics, by decide, rfl⟩

def runFailed (metrics : Option AgentRunMetrics) : EventBody :=
  ⟨.runFailed, none, "Study planning failed".toList, some .failed, none, none, metrics, by decide,
    by cases metrics <;> rfl⟩

structure Output where
  sequence : ℕ
  events : List AgentProgressEvent

/-- The next event, stamped by the next reading of the event clock. -/
def Output.yield (clock : ℕ → Datetime) (body : EventBody) (out : Output) : Output where
  sequence := out.sequence + 1
  events := out.events ++ [⟨body, out.sequence + 1, clock out.sequence, Nat.le_add_left 1 _⟩]

def Output.yieldAll (clock : ℕ → Datetime) (bodies : List EventBody) (out : Output) : Output :=
  bodies.foldl (fun out body ↦ out.yield clock body) out

abbrev Transitions := List (ToolPhase × ToolName)

def transitionObserver (phase : ToolPhase) : ToolObserver Transitions :=
  fun name transitions ↦ transitions ++ [(phase, name)]

def transitionObservers : ToolObservers Transitions :=
  ⟨some (transitionObserver .started), some (transitionObserver .finished)⟩

/-- The final response of a stream, if it ended well and its deltas agree with it. -/
def receive (stream : ProviderStream) : Except LoopError ProviderResponse :=
  match stream.failure, readChunks stream.chunks with
  | some _, _ => .error .stream
  | none, (none, _) => .error .stream
  | none, (some response, parts) =>
    if parts ≠ [] ∧ response.outputText ≠ some parts.flatten then .error .stream
    else .ok response

structure StreamState (σ τ : Type) where
  run : Run σ τ Transitions
  out : Output

variable {σ R τ : Type} [LinearOrder τ]

omit [LinearOrder τ] in
/-- The streamed counterpart of a blocking call; the observers start afresh. -/
def streamResponse (streaming : StreamingModelProvider σ) (request : ProviderRequest)
    (run : Run σ τ Transitions) : Except LoopError ProviderResponse × Run σ τ Transitions :=
  let streamed := streaming request run.world.outside
  (receive streamed.1, { run.moveTo streamed.2 with observed := [] })

def streamRound (host : LoopHost σ R τ) (streaming : StreamingModelProvider σ)
    (clock : ℕ → Datetime) (s : StreamState σ τ) : Round LoopError Unit (StreamState σ τ) :=
  match nextRequest host s.run with
  | (.error e, run) => .failed e ⟨run, s.out⟩
  | (.ok request, run) =>
    let out := s.out.yield clock modelStarted
    match streamResponse streaming request run with
    | (.error e, run) => .failed e ⟨run, out⟩
    | (.ok response, run) =>
      match acceptResponse host transitionObservers response run with
      | (.error e, run) => .failed e ⟨run, out⟩
      | (.ok execution, run) =>
        let out := out.yieldAll clock (run.observed.map toolEvent)
        match execution with
        | none => .next ⟨run, out⟩
        | some execution => .done () ⟨run, out.yield clock (resultReady response.usage execution)⟩

theorem streamRound_decreases (host : LoopHost σ R τ) (streaming : StreamingModelProvider σ)
    (clock : ℕ → Datetime) (s s' : StreamState σ τ)
    (h : streamRound host streaming clock s = .next s') :
    roundsLeft s'.run < roundsLeft s.run := by
  unfold streamRound at h
  cases hn : nextRequest host s.run with
  | mk r run₁ =>
    cases r with
    | error e => rw [hn] at h; cases h
    | ok request =>
      obtain ⟨hlt, rfl⟩ := nextRequest_ok hn
      simp only [hn] at h
      have hr : Kept s.run.countRound (streamResponse streaming request s.run.countRound).2 :=
        ⟨rfl, rfl, rfl⟩
      cases hs : streamResponse streaming request s.run.countRound with
      | mk r run₂ =>
        simp only [hs] at h hr
        cases r with
        | error e => cases h
        | ok response =>
          have ha := kept_acceptResponse host transitionObservers response run₂
          cases hx : acceptResponse host transitionObservers response run₂ with
          | mk r run₃ =>
            simp only [hx] at h ha
            rcases r with e | _ | execution
            · cases h
            · cases h
              have hc := (hr.trans ha).roundCount
              simp only [roundsLeft, hc, Run.countRound]
              omega
            · cases h

def streamLoop (host : LoopHost σ R τ) (streaming : StreamingModelProvider σ)
    (clock : ℕ → Datetime) : Driver LoopError Unit (StreamState σ τ) where
  round := streamRound host streaming clock
  rank s := roundsLeft s.run
  decreases := streamRound_decreases host streaming clock

/-- A generator that was consumed to its end: what it raised, if anything, what it
yielded and the world it leaves behind. -/
structure Stream (σ : Type) where
  raised : Option LoopError
  events : List AgentProgressEvent
  world : World σ

def failRun (host : LoopHost σ R τ) (clock : ℕ → Datetime) (s : StreamState σ τ) : Stream σ :=
  match metrics host .failed s.run with
  | (.error e, run) => ⟨some e, s.out.events, run.world⟩
  | (.ok measured, run) => ⟨none, (s.out.yield clock (runFailed (some measured))).events, run.world⟩

def streamAgent (host : LoopHost σ R τ) (streaming : StreamingModelProvider σ)
    (clock : ℕ → Datetime) (goal : GoalInput) (w : σ) : Stream σ :=
  let out := (⟨0, []⟩ : Output).yield clock runStarted
  match start host goal w [] with
  | .error _ => ⟨none, (out.yield clock (runFailed none)).events, ⟨w, 0, []⟩⟩
  | .ok run =>
    match (streamLoop host streaming clock).run ⟨run, out⟩ with
    | (.ok (), s) => ⟨none, s.out.events, s.run.world⟩
    | (.error _, s) => failRun host clock s

def EndsReady (stream : Stream σ) (result : PlanningResult) : Prop :=
  stream.raised = none ∧ ∃ event ∈ stream.events.getLast?,
    event.kind = .resultReady ∧ event.result = some result

def EndsFailed (stream : Stream σ) : Prop :=
  stream.raised = none ∧ ∃ event ∈ stream.events.getLast?, event.kind = .runFailed

/-- A stream and a plain run that call the same tools and end alike. -/
structure Agrees (plain : Except LoopError AgentLoopExecution × World σ) (stream : Stream σ) :
    Prop where
  dispatched : stream.world.dispatched = plain.2.dispatched
  outside : stream.world.outside = plain.2.outside
  ready : ∀ result, EndsReady stream result ↔
    ∃ execution, plain.1 = .ok execution ∧ execution.result = result
  failed : EndsFailed stream ↔ ∃ e, plain.1 = .error e

omit [LinearOrder τ] in
theorem getLast?_yield (clock : ℕ → Datetime) (body : EventBody) (out : Output) :
    (out.yield clock body).events.getLast? =
      some ⟨body, out.sequence + 1, clock out.sequence, Nat.le_add_left 1 _⟩ := by
  rw [Output.yield, List.getLast?_append, List.getLast?_singleton, Option.some_or]

omit [LinearOrder τ] in
theorem streamResponse_matches {provider : ModelProvider σ} {streaming : StreamingModelProvider σ}
    (h : Streams provider streaming) (request : ProviderRequest) (run : Run σ τ Transitions) :
    (∃ response run', streamResponse streaming request run = (.ok response, run') ∧
      generateSafely provider request run.silent = (.ok response, run'.silent)) ∨
    ∃ e e' run', streamResponse streaming request run = (.error e, run') ∧
      generateSafely provider request run.silent = (.error e', run'.silent) := by
  have hw := h.world request run.world.outside
  have hp : provider request run.silent.world.outside = provider request run.world.outside := rfl
  cases hr : (provider request run.world.outside).1 with
  | ok response =>
    left
    obtain ⟨hf, parts, hc, ht⟩ := h.response request _ response hr
    refine ⟨response, _, Prod.ext ?_ rfl, ?_⟩
    · simp only [streamResponse, receive, hf, hc]
      exact if_neg fun hn ↦ hn.2 (ht hn.1)
    · have he : provider request run.world.outside =
          (.ok response, (streaming request run.world.outside).2) := by rw [hw, ← hr]
      rw [generateSafely, hp, he]
      rfl
  | error e =>
    right
    have hf := h.failure request _ e hr
    refine ⟨.stream, safeError e, _, Prod.ext ?_ rfl, ?_⟩
    · simp only [streamResponse, receive, hf]
    · have he : provider request run.world.outside =
          (.error e, (streaming request run.world.outside).2) := by rw [hw, ← hr]
      rw [generateSafely, hp, he]
      rfl

omit [LinearOrder τ] in
theorem nextRequest_silent (host : LoopHost σ R τ) (run : Run σ τ Transitions) :
    nextRequest host run.silent = Prod.map id Run.silent (nextRequest host run) := by
  have hm : run.silent.machine = run.machine := rfl
  unfold nextRequest
  rw [hm]
  split <;> rfl

/-- A plain run and a streamed one that are at the same point. -/
structure Matched (host : LoopHost σ R τ) (goal : PlanningGoal) (run : Run σ τ Unit)
    (s : StreamState σ τ) : Prop where
  run : s.run.silent = run
  goal : s.run.machine.goal = goal
  startedAt : s.run.machine.startedAt = host.now 0

/-- A plain run and a streamed one that have ended with the same result. -/
structure Finished (execution : AgentLoopExecution) (run : Run σ τ Unit) (_ : Unit)
    (s : StreamState σ τ) : Prop where
  run : s.run.silent = run
  ready : ∃ event ∈ s.out.events.getLast?,
    event.kind = .resultReady ∧ event.result = some execution.result

omit [LinearOrder τ] in
theorem Matched.moved {host : LoopHost σ R τ} {goal : PlanningGoal} {run : Run σ τ Unit}
    {s : StreamState σ τ} (h : Matched host goal run s) {run' : Run σ τ Transitions}
    (hg : run'.machine.goal = s.run.machine.goal)
    (hs : run'.machine.startedAt = s.run.machine.startedAt) (out : Output) :
    Matched host goal run'.silent ⟨run', out⟩ :=
  ⟨rfl, hg.trans h.goal, hs.trans h.startedAt⟩

theorem accept_matches (host : LoopHost σ R τ) (clock : ℕ → Datetime) (goal : PlanningGoal)
    (response : ProviderResponse) (s : StreamState σ τ) (h : Matched host goal s.run.silent s) :
    Round.Rel (Matched host goal) Finished (Matched host goal)
      (match acceptResponse host noObservers response s.run.silent with
      | (.error e, run) => .failed e run
      | (.ok none, run) => .next run
      | (.ok (some execution), run) => .done execution run : Round LoopError AgentLoopExecution _)
      (match acceptResponse host transitionObservers response s.run with
      | (.error e, run) => .failed e ⟨run, s.out⟩
      | (.ok execution, run) =>
        let out := s.out.yieldAll clock (run.observed.map toolEvent)
        match execution with
        | none => .next ⟨run, out⟩
        | some execution =>
          .done () ⟨run, out.yield clock (resultReady response.usage execution)⟩ :
        Round LoopError Unit _) := by
  have hk := kept_acceptResponse host transitionObservers response s.run
  rw [acceptResponse_silent host transitionObservers]
  cases hx : acceptResponse host transitionObservers response s.run with
  | mk r run =>
    rw [hx] at hk
    rcases r with e | _ | execution
    · exact .failed (h.moved hk.goal hk.startedAt _)
    · exact .next (h.moved hk.goal hk.startedAt _)
    · exact .done ⟨rfl, _, getLast?_yield clock _ _, rfl, rfl⟩

/-- The two drivers take each round together. -/
theorem rounds_match (host : LoopHost σ R τ) {provider : ModelProvider σ}
    {streaming : StreamingModelProvider σ} (hstreams : Streams provider streaming)
    (clock : ℕ → Datetime) (goal : PlanningGoal) (run : Run σ τ Unit) (s : StreamState σ τ)
    (h : Matched host goal run s) : Round.Rel (Matched host goal) Finished (Matched host goal)
      (runRound host provider run) (streamRound host streaming clock s) := by
  have hrun := h.run
  subst hrun
  unfold runRound streamRound
  rw [nextRequest_silent]
  cases hn : nextRequest host s.run with
  | mk r run₁ =>
    rcases r with e | request
    · have hstate : run₁ = s.run ∨ run₁ = s.run.countRound := by
        simpa only [hn] using nextRequest_state host s.run
      apply Round.Rel.failed
      rcases hstate with rfl | rfl
      · exact h
      · apply h.moved
        · rfl
        · rfl
    · obtain ⟨-, rfl⟩ := nextRequest_ok hn
      simp only [Prod.map_apply, id_eq]
      have hk : Kept s.run.countRound (streamResponse streaming request s.run.countRound).2 :=
        ⟨rfl, rfl, rfl⟩
      rcases streamResponse_matches hstreams request s.run.countRound with
        ⟨response, run₂, hr, hg⟩ | ⟨e, e', run₂, hr, hg⟩
      · rw [hr] at hk
        simp only [hr, hg]
        exact accept_matches host clock goal response ⟨run₂, s.out.yield clock modelStarted⟩
          (h.moved hk.goal hk.startedAt _)
      · rw [hr] at hk
        simp only [hr, hg]
        exact .failed (h.moved hk.goal hk.startedAt _)

theorem metrics_ok {host : LoopHost σ R τ} (hclock : Monotone host.now) (outcome : AgentRunOutcome)
    {run : Run σ τ Transitions} (hs : run.machine.startedAt = host.now 0)
    (hg : (studyPlanInput run.machine.goal).length ≤ maxPromptInputCharacters) :
    ∃ measured, metrics host outcome run = (.ok measured, run.tick) := by
  obtain ⟨prompt, hp⟩ := Option.isSome_iff_exists.mp ((buildStudyPlanPrompt_isSome _).mpr hg)
  have hle : ¬ host.now run.world.ticks < run.machine.startedAt := by
    rw [hs]
    exact not_lt.mpr (hclock (Nat.zero_le _))
  simp only [metrics, hp, buildRunMetrics, if_neg hle]
  exact ⟨_, rfl⟩

theorem failRun_of_fits {host : LoopHost σ R τ} (hclock : Monotone host.now) (clock : ℕ → Datetime)
    {s : StreamState σ τ} (hs : s.run.machine.startedAt = host.now 0)
    (hg : (studyPlanInput s.run.machine.goal).length ≤ maxPromptInputCharacters) :
    EndsFailed (failRun host clock s) ∧ (failRun host clock s).world = s.run.tick.world := by
  obtain ⟨measured, hm⟩ := metrics_ok hclock .failed hs hg
  rw [failRun, hm]
  exact ⟨⟨rfl, _, getLast?_yield clock _ _, rfl⟩, rfl⟩

omit [LinearOrder τ] in
theorem EndsFailed.not_ready {stream : Stream σ} (h : EndsFailed stream) (result : PlanningResult) :
    ¬ EndsReady stream result := by
  rintro ⟨-, event, he, hk, -⟩
  obtain ⟨-, event', he', hk'⟩ := h
  rw [Option.mem_unique he he', hk'] at hk
  cases hk

theorem agrees_of_failed {e : LoopError} {world : World σ} {stream : Stream σ}
    (h : EndsFailed stream) (hd : stream.world.dispatched = world.dispatched)
    (ho : stream.world.outside = world.outside) :
    Agrees ((.error e, world) : Except LoopError AgentLoopExecution × World σ) stream where
  dispatched := hd
  outside := ho
  ready result := by
    constructor
    · intro hr
      exact absurd hr (h.not_ready result)
    · rintro ⟨execution, he, -⟩
      cases he
  failed := ⟨fun _ ↦ ⟨e, rfl⟩, fun _ ↦ h⟩

theorem agrees_of_ready {execution : AgentLoopExecution} {world : World σ} {stream : Stream σ}
    (h : EndsReady stream execution.result) (hd : stream.world.dispatched = world.dispatched)
    (ho : stream.world.outside = world.outside) :
    Agrees ((.ok execution, world) : Except LoopError AgentLoopExecution × World σ) stream where
  dispatched := hd
  outside := ho
  ready result := by
    have ⟨_, event, he, _, hr⟩ := h
    constructor
    · rintro ⟨-, event', he', -, hr'⟩
      rw [Option.mem_unique he' he, hr, Option.some.injEq] at hr'
      exact ⟨execution, rfl, hr'⟩
    · rintro ⟨execution', he', rfl⟩
      cases he'
      exact h
  failed := by
    constructor
    · intro hf
      exact absurd h (hf.not_ready _)
    · rintro ⟨e, he⟩
      cases he

theorem agrees_of_fits (host : LoopHost σ R τ) {provider : ModelProvider σ}
    {streaming : StreamingModelProvider σ} (hclock : Monotone host.now)
    (hstreams : Streams provider streaming) (clock : ℕ → Datetime) (goal : GoalInput) (w : σ)
    (hfits : ∀ g, goal.modelValidate = some g →
      (studyPlanInput g).length ≤ maxPromptInputCharacters) :
    Agrees (runAgent host provider goal w) (streamAgent host streaming clock goal w) := by
  unfold runAgent streamAgent
  cases hv : goal.modelValidate with
  | none =>
    simp only [start, hv]
    exact agrees_of_failed ⟨rfl, _, getLast?_yield clock _ _, rfl⟩ rfl rfl
  | some g =>
    simp only [start, hv]
    have ht := (loop host provider).lockstep (streamLoop host streaming clock)
      (rounds_match host hstreams clock g)
      (show Matched host g ⟨⟨g, host.now 0, [], 0, [], [], 0, []⟩, ⟨w, 1, []⟩, ()⟩
        ⟨⟨⟨g, host.now 0, [], 0, [], [], 0, []⟩, ⟨w, 1, []⟩, []⟩,
          (⟨0, []⟩ : Output).yield clock runStarted⟩ from ⟨rfl, rfl, rfl⟩)
    generalize (loop host provider).run _ = plain at ht
    generalize (streamLoop host streaming clock).run _ = streamed at ht
    cases ht with
    | @done execution run u s hf =>
      have hrun := hf.run
      subst hrun
      exact agrees_of_ready ⟨rfl, hf.ready⟩ rfl rfl
    | @failed e run f s hf =>
      obtain ⟨hend, hw⟩ := failRun_of_fits hclock clock hf.startedAt (hf.goal ▸ hfits g hv)
      have hrun := hf.run
      subst hrun
      exact agrees_of_failed hend (by rw [hw]; rfl) (by rw [hw]; rfl)

theorem streamAgent_raises (host : LoopHost σ R τ) (streaming : StreamingModelProvider σ)
    (clock : ℕ → Datetime) {goal : GoalInput} (w : σ) {g : PlanningGoal}
    (hv : goal.modelValidate = some g)
    (hg : ¬ (studyPlanInput g).length ≤ maxPromptInputCharacters) :
    (streamAgent host streaming clock goal w).raised = some .validation := by
  have hp : buildStudyPlanPrompt g = none := dif_neg hg
  unfold streamAgent
  simp only [start, hv]
  rw [Driver.run_eq]
  simp only [streamLoop, streamRound, nextRequest, providerRequest, hp]
  rw [if_neg (by decide)]
  simp only [failRun, metrics, Run.countRound, hp]

theorem runAgent_raises (host : LoopHost σ R τ) (provider : ModelProvider σ) {goal : GoalInput}
    (w : σ) {g : PlanningGoal} (hv : goal.modelValidate = some g)
    (hg : ¬ (studyPlanInput g).length ≤ maxPromptInputCharacters) :
    (runAgent host provider goal w).1 = .error .validation := by
  have hp : buildStudyPlanPrompt g = none := dif_neg hg
  unfold runAgent
  simp only [start, hv]
  rw [Driver.run_eq]
  simp only [loop, runRound, nextRequest, providerRequest, hp]
  rw [if_neg (by decide)]
  rfl

/-- The drivers agree exactly on the goals that are refused or whose prompt fits. -/
theorem drivers_agree_iff (host : LoopHost σ R τ) {provider : ModelProvider σ}
    {streaming : StreamingModelProvider σ} (hclock : Monotone host.now)
    (hstreams : Streams provider streaming) (clock : ℕ → Datetime) (goal : GoalInput) (w : σ) :
    Agrees (runAgent host provider goal w) (streamAgent host streaming clock goal w) ↔
      ∀ g, goal.modelValidate = some g →
        (studyPlanInput g).length ≤ maxPromptInputCharacters := by
  constructor
  · intro h g hv
    by_contra hg
    have hraised := streamAgent_raises host streaming clock w hv hg
    have hfailed := h.failed.mpr ⟨_, runAgent_raises host provider w hv hg⟩
    rw [hfailed.1] at hraised
    cases hraised
  · exact agrees_of_fits host hclock hstreams clock goal w

def sampleHost : LoopHost Unit Text ℕ where
  coercions := isoCoercions
  context := Approval.sampleContext
  model := "model".toList
  parseJson s := if s = dumps (Approval.sampleResult.dump false) then
    some (Approval.sampleResult.dump false) else none
  loads _ := none
  dumpResult := some
  validator _ _ _ := .error .toolNotAllowed
  dispatcher _ _ _ w := (.error .toolNotAllowed, w)
  now n := n
  elapsed _ _ := Checkpoints.sampleLatency

def samplePlanText : Text := dumps (Approval.sampleResult.dump false)

def sampleResponse : ProviderResponse where
  outputText := some samplePlanText
  toolCalls := []
  usage := ⟨none, none, none⟩
  bounds := by
    rintro t ⟨⟩
    decide +kernel
  output := .inl rfl

def sampleStreaming : StreamingModelProvider Unit :=
  fun _ w ↦ (⟨[.delta samplePlanText (by decide +kernel), .response sampleResponse], none⟩, w)

def sampleProvider : ModelProvider Unit := fun _ w ↦ (.ok sampleResponse, w)

theorem sample_streams : Streams sampleProvider sampleStreaming where
  world _ _ := rfl
  response _ _ r h := by
    cases h
    refine ⟨rfl, [samplePlanText], rfl, ?_⟩
    intro _
    rw [List.flatten_singleton]
    rfl
  failure _ _ _ h := by cases h

def sampleClock (micros : ℕ) : Datetime :=
  sampleInstant micros

def listProjects : ToolName := ⟨"list_projects".toList, by decide⟩

def listTasks : ToolName := ⟨"list_tasks".toList, by decide⟩

def twoCalls : ProviderResponse where
  outputText := none
  toolCalls := [⟨"a".toList, listProjects, [], by decide⟩, ⟨"b".toList, listTasks, [], by decide⟩]
  usage := ⟨none, none, none⟩
  bounds t ht := by cases ht
  output := .inr (List.cons_ne_nil _ _)

def toolHost : LoopHost ℕ Text ℕ where
  coercions := sampleHost.coercions
  context := sampleHost.context
  model := sampleHost.model
  parseJson := sampleHost.parseJson
  loads _ := some (.obj [])
  dumpResult := some
  validator _ _ _ := .ok ()
  dispatcher _ _ _ w := (.ok "\x7b\x7d".toList, w)
  now n := n
  elapsed _ _ := Checkpoints.sampleLatency

/-- The provider asks for two tools, and answers with the plan once it is asked again. -/
def toolProvider : ModelProvider ℕ :=
  fun _ w ↦ (.ok (if w = 0 then twoCalls else sampleResponse), w + 1)

def toolStreaming : StreamingModelProvider ℕ := fun _ w ↦
  (⟨if w = 0 then [.response twoCalls]
    else [.delta samplePlanText (by decide +kernel), .response sampleResponse], none⟩, w + 1)

theorem tool_streams : Streams toolProvider toolStreaming where
  world _ _ := rfl
  response _ w r h := by
    cases h
    by_cases hw : w = 0
    · subst hw
      exact ⟨rfl, [], rfl, fun hne ↦ absurd rfl hne⟩
    · simp only [toolStreaming, if_neg hw]
      refine ⟨trivial, [samplePlanText], rfl, fun _ ↦ ?_⟩
      rw [List.flatten_singleton]
      rfl
  failure _ _ _ h := by cases h

/-- Two tools are called before the plan. -/
theorem drivers_agree_on_sample :
    (runAgent toolHost toolProvider (.validated Approval.sampleGoal) 0).1.toBool = true ∧
    (runAgent toolHost toolProvider (.validated Approval.sampleGoal) 0).2.dispatched.length = 2 ∧
    Agrees (runAgent toolHost toolProvider (.validated Approval.sampleGoal) 0)
      (streamAgent toolHost toolStreaming sampleClock (.validated Approval.sampleGoal) 0) := by
  refine ⟨by decide +kernel, by decide +kernel, ?_⟩
  refine (drivers_agree_iff toolHost monotone_id tool_streams sampleClock _ 0).mpr ?_
  rintro g ⟨⟩
  decide +kernel

/-- A constraint of five hundred quotes, which a JSON string escapes. -/
def quotes : BoundedText 500 where
  text := List.replicate 500 '"'
  stripped := by decide +kernel
  bounds := by decide +kernel

def overlongGoal : PlanningGoal where
  objective := Approval.sampleGoal.objective
  constraints := List.replicate 20 quotes
  size := by rw [List.length_replicate]

theorem dumpMoreItems_replicate (n : ℕ) (x : Json) :
    (dumpMoreItems (List.replicate n x)).length = n * ((dumps x).length + 1) := by
  induction n with
  | zero => simp [dumpMoreItems]
  | succ n ih =>
    rw [List.replicate_succ, dumpMoreItems, List.length_append, List.length_cons, ih]
    ring

theorem constraints_le_input (g : PlanningGoal) :
    (dumpItems (g.constraints.map fun t ↦ .str t.text)).length ≤ (studyPlanInput g).length := by
  rw [studyPlanInput_length, PlanningGoal.dump]
  simp only [dumps, dumpFields, dumpMoreFields, List.length_append, List.length_cons]
  omega

theorem quotes_dump : (dumps (.str quotes.text)).length = 1002 := by
  have h : (quotes.text.map fun c ↦ (escapeChar c).length) = List.replicate 500 2 := by
    rw [quotes, List.map_replicate]
    rfl
  rw [dumps, dumpString, List.length_append, List.length_cons, List.length_flatMap, h,
    List.sum_replicate]
  rfl

theorem overlongGoal_input : 20000 < (studyPlanInput overlongGoal).length := by
  have hle := constraints_le_input overlongGoal
  have h : (overlongGoal.constraints.map fun t ↦ Json.str t.text) =
      List.replicate 20 (.str quotes.text) := List.map_replicate
  rw [h, List.replicate_succ, dumpItems, List.length_append, dumpMoreItems_replicate,
    quotes_dump] at hle
  omega

/-- Quotes within the limits of a goal make a stream raise where it should report. -/
theorem quotes_disagree : Monotone sampleHost.now ∧ Streams sampleProvider sampleStreaming ∧
    ¬ Agrees (runAgent sampleHost sampleProvider (.validated overlongGoal) ())
      (streamAgent sampleHost sampleStreaming sampleClock (.validated overlongGoal) ()) := by
  refine ⟨monotone_id, sample_streams, ?_⟩
  intro h
  have hg : ¬ (studyPlanInput overlongGoal).length ≤ maxPromptInputCharacters :=
    not_le.mpr overlongGoal_input
  have hv : (GoalInput.validated overlongGoal).modelValidate = some overlongGoal := rfl
  have hraised := streamAgent_raises sampleHost sampleStreaming sampleClock () hv hg
  have hfailed := h.failed.mpr ⟨_, runAgent_raises sampleHost sampleProvider () hv hg⟩
  rw [hfailed.1] at hraised
  cases hraised

end LearningTasks.Agent.Events
