import LearningTasks.Agent.Loop
import LearningTasks.Agent.ReadTools
import Mathlib.Algebra.BigOperators.Group.List.Basic

namespace LearningTasks.Agent.LoopLimits

open Library.Strings Library.Serialization Library.Rounds Agent.Schemas State Tools Providers
  ReadTools Loop
open Planning (ProviderUsage)

variable {σ R τ κ : Type}

/-- A call whose result was accepted: what the dispatcher returned for it, the text
of that, and what was read back from the text. -/
structure Completion (host : LoopHost σ R τ) where
  call : ProviderToolCall
  result : R
  serialized : Text
  output : Json
  returned : ∃ w, (host.dispatcher call.name.1 call.arguments host.context w).1 = .ok result
  dumped : host.dumpResult result = some serialized
  loaded : host.loads serialized = some output
  bound : serialized.length ≤ maxSingleToolResultChars

namespace Completion

variable {host : LoopHost σ R τ}

def feedback (c : Completion host) : Json :=
  .obj [("call_id".toList, .str c.call.callId), ("name".toList, .str c.call.name.1),
    ("output".toList, c.output)]

def record (c : Completion host) : AgentToolExecutionRecord :=
  ⟨c.call.callId, c.call.name, .succeeded, c.call.bounds⟩

def chars (completed : List (Completion host)) : ℕ :=
  (completed.map fun c ↦ c.serialized.length).sum

theorem chars_cons (c : Completion host) (completed : List (Completion host)) :
    chars (c :: completed) = c.serialized.length + chars completed := by
  rw [chars, List.map_cons, List.sum_cons, chars]

theorem chars_append (a b : List (Completion host)) : chars (a ++ b) = chars a + chars b := by
  rw [chars, List.map_append, List.sum_append, chars, chars]

end Completion

def noteWith (observer : Option (ToolObserver κ)) (name : ToolName) (seen : κ) : κ :=
  match observer with
  | none => seen
  | some note => note name seen

def noted (observers : ToolObservers κ) (calls : List ProviderToolCall) (seen : κ) : κ :=
  calls.foldl (fun seen call ↦ noteWith observers.onToolFinished call.name
    (noteWith observers.onToolStarted call.name seen)) seen

@[simp] theorem observe_observed (observer : Option (ToolObserver κ)) (name : ToolName)
    (run : Run σ τ κ) : (run.observe observer name).observed = noteWith observer name run.observed := by
  cases observer <;> rfl

@[simp] theorem observe_machine (observer : Option (ToolObserver κ)) (name : ToolName)
    (run : Run σ τ κ) : (run.observe observer name).machine = run.machine := by
  cases observer <;> rfl

@[simp] theorem observe_world (observer : Option (ToolObserver κ)) (name : ToolName)
    (run : Run σ τ κ) : (run.observe observer name).world = run.world := by
  cases observer <;> rfl

/-- What calls add to a run: the results of those that completed, and all that were tried. -/
structure Progress {host : LoopHost σ R τ} (done : List (Completion host))
    (tried : List ProviderToolCall) (run run' : Run σ τ κ) : Prop where
  feedback : run'.machine.feedback = run.machine.feedback ++ done.map Completion.feedback
  records : run'.machine.records = run.machine.records ++ done.map Completion.record
  seen : run'.machine.seenCallIds = run.machine.seenCallIds
  dispatched : run'.world.dispatched = run.world.dispatched ++ tried

theorem Progress.trans {host : LoopHost σ R τ} {done done' : List (Completion host)}
    {tried tried' : List ProviderToolCall} {a b c : Run σ τ κ} (h : Progress done tried a b)
    (h' : Progress done' tried' b c) : Progress (done ++ done') (tried ++ tried') a c where
  feedback := by rw [h'.feedback, h.feedback, List.map_append, List.append_assoc]
  records := by rw [h'.records, h.records, List.map_append, List.append_assoc]
  seen := h'.seen.trans h.seen
  dispatched := by rw [h'.dispatched, h.dispatched, List.append_assoc]

/-- A call completes within both limits, or raises after it was tried. -/
inductive CallOutcome (host : LoopHost σ R τ) (observers : ToolObservers κ)
    (call : ProviderToolCall) (run : Run σ τ κ) : Except LoopError Unit × Run σ τ κ → Prop
  | completed (c : Completion host) (run' : Run σ τ κ) (same : c.call = call)
      (progress : Progress [c] [call] run run')
      (chars : run'.machine.feedbackChars = run.machine.feedbackChars + c.serialized.length)
      (bound : run'.machine.feedbackChars ≤ maxAccumulatedToolResultChars)
      (observed : run'.observed = noted observers [call] run.observed) :
      CallOutcome host observers call run (.ok (), run')
  | failed (e : LoopError) (run' : Run σ τ κ)
      (progress : Progress ([] : List (Completion host)) [call] run run') :
      CallOutcome host observers call run (.error e, run')

theorem runCall_outcome (host : LoopHost σ R τ) (observers : ToolObservers κ)
    (call : ProviderToolCall) (run : Run σ τ κ) :
    CallOutcome host observers call run (runCall host observers call run) := by
  have failed (run' : Run σ τ κ) (hf : run'.machine.feedback = run.machine.feedback)
      (hr : run'.machine.records = run.machine.records)
      (hs : run'.machine.seenCallIds = run.machine.seenCallIds)
      (hd : run'.world.dispatched = run.world.dispatched ++ [call]) (e : LoopError) :
      CallOutcome host observers call run (.error e, run') :=
    .failed e run' ⟨by rw [hf, List.map_nil, List.append_nil],
      by rw [hr, List.map_nil, List.append_nil], hs, hd⟩
  unfold runCall Run.dispatch
  rw [observe_world, observe_machine, observe_observed]
  cases hx : host.dispatcher call.name.1 call.arguments host.context run.world.outside with
  | mk r w =>
    cases r with
    | error e => apply failed <;> rfl
    | ok result =>
      dsimp only
      unfold acceptToolResult
      cases hs : host.dumpResult result with
      | none => apply failed <;> rfl
      | some serialized =>
        dsimp only
        split
        · apply failed <;> rfl
        · next hsingle =>
          split
          · apply failed <;> rfl
          · next hall =>
            cases hl : host.loads serialized with
            | none => apply failed <;> rfl
            | some output =>
              refine .completed ⟨call, result, serialized, output,
                ⟨run.world.outside, by rw [hx]⟩, hs, hl, not_lt.mp hsingle⟩ _ rfl
                ⟨?_, ?_, ?_, ?_⟩ ?_ ?_ ?_
              · rw [observe_machine]
                rfl
              · rw [observe_machine]
                rfl
              · rw [observe_machine]
                rfl
              · rw [observe_world]
                rfl
              · rw [observe_machine]
                rfl
              · rw [observe_machine]
                exact not_lt.mp hall
              · rw [observe_observed]
                rfl

/-- The calls of a batch all complete, or those before one that raises do. -/
inductive CallsOutcome (host : LoopHost σ R τ) (observers : ToolObservers κ)
    (calls : List ProviderToolCall) (run : Run σ τ κ) : Except LoopError Unit × Run σ τ κ → Prop
  | completed (done : List (Completion host)) (run' : Run σ τ κ)
      (all : done.map Completion.call = calls) (progress : Progress done calls run run')
      (chars : run'.machine.feedbackChars = run.machine.feedbackChars + Completion.chars done)
      (bound : run'.machine.feedbackChars ≤ maxAccumulatedToolResultChars)
      (observed : run'.observed = noted observers calls run.observed) :
      CallsOutcome host observers calls run (.ok (), run')
  | aborted (e : LoopError) (run' : Run σ τ κ) (done : List (Completion host))
      (call : ProviderToolCall) (rest : List ProviderToolCall)
      (split : calls = done.map Completion.call ++ call :: rest)
      (progress : Progress done (done.map Completion.call ++ [call]) run run')
      (bound : run.machine.feedbackChars + Completion.chars done ≤ maxAccumulatedToolResultChars) :
      CallsOutcome host observers calls run (.error e, run')

theorem runCalls_outcome (host : LoopHost σ R τ) (observers : ToolObservers κ)
    (calls : List ProviderToolCall) (run : Run σ τ κ)
    (hfits : run.machine.feedbackChars ≤ maxAccumulatedToolResultChars) :
    CallsOutcome host observers calls run (runCalls host observers calls run) := by
  induction calls generalizing run with
  | nil =>
    refine .completed [] run rfl ⟨?_, ?_, rfl, ?_⟩ rfl hfits rfl
    · rw [List.map_nil, List.append_nil]
    · rw [List.map_nil, List.append_nil]
    · rw [List.append_nil]
  | cons call calls ih =>
    have hcall := runCall_outcome host observers call run
    unfold runCalls
    generalize runCall host observers call run = x at hcall
    cases hcall with
    | failed e run' progress =>
      refine .aborted e run' [] call calls rfl progress ?_
      simpa only [Completion.chars, List.map_nil, List.sum_nil, Nat.add_zero] using hfits
    | completed c run₁ same progress chars bound observed =>
      have hrest := ih run₁ bound
      dsimp only
      generalize runCalls host observers calls run₁ = y at hrest
      cases hrest with
      | completed done run₂ all progress' chars' bound' observed' =>
        refine .completed (c :: done) run₂ ?_ (progress.trans progress') ?_ bound' ?_
        · rw [List.map_cons, same, all]
        · rw [chars', chars, Completion.chars_cons]
          omega
        · rw [observed', observed]
          rfl
      | aborted e run₂ done call' rest split progress' bound' =>
        refine .aborted e run₂ (c :: done) call' rest ?_ ?_ ?_
        · rw [List.map_cons, same, split, List.cons_append]
        · rw [List.map_cons, same, List.cons_append]
          exact progress.trans progress'
        · rw [Completion.chars_cons]
          omega

/-- A response of the provider whose calls all passed their checks. -/
structure AcceptedBatch (host : LoopHost σ R τ) (provider : ModelProvider σ) where
  response : ProviderResponse
  given : ∃ request w, (provider request w).1 = .ok response
  plain : response.outputText = none
  size : 1 ≤ response.toolCalls.length ∧ response.toolCalls.length ≤ maxToolCallsPerResponse
  valid : ∀ call ∈ response.toolCalls,
    host.validator call.name.1 call.arguments host.context = .ok ()

def batchCalls {host : LoopHost σ R τ} {provider : ModelProvider σ}
    (batches : List (AcceptedBatch host provider)) : List ProviderToolCall :=
  batches.flatMap fun batch ↦ batch.response.toolCalls

theorem batchCalls_concat {host : LoopHost σ R τ} {provider : ModelProvider σ}
    (batches : List (AcceptedBatch host provider)) (batch : AcceptedBatch host provider) :
    batchCalls (batches ++ [batch]) = batchCalls batches ++ batch.response.toolCalls := by
  rw [batchCalls, List.flatMap_append, List.flatMap_singleton, batchCalls]

/-- What a machine has kept count of when every call of its batches has completed. -/
structure Ledger {host : LoopHost σ R τ} {provider : ModelProvider σ}
    (batches : List (AcceptedBatch host provider)) (completed : List (Completion host))
    (run : Run σ τ κ) : Prop where
  feedback : run.machine.feedback = completed.map Completion.feedback
  records : run.machine.records = completed.map Completion.record
  chars : run.machine.feedbackChars = Completion.chars completed
  fits : Completion.chars completed ≤ maxAccumulatedToolResultChars
  calls : completed.map Completion.call = batchCalls batches
  dispatched : run.world.dispatched = batchCalls batches
  seen : run.machine.seenCallIds = (batchCalls batches).map (·.callId)
  distinct : ((batchCalls batches).map (·.callId)).Nodup
  total : (batchCalls batches).length ≤ maxTotalToolCalls

/-- A machine that has taken its last batch, whether or not all of it completed. -/
structure Closed {host : LoopHost σ R τ} {provider : ModelProvider σ}
    (batches : List (AcceptedBatch host provider)) (completed : List (Completion host))
    (run : Run σ τ κ) : Prop where
  feedback : run.machine.feedback = completed.map Completion.feedback
  records : run.machine.records = completed.map Completion.record
  fits : Completion.chars completed ≤ maxAccumulatedToolResultChars
  seen : run.machine.seenCallIds = (batchCalls batches).map (·.callId)
  distinct : ((batchCalls batches).map (·.callId)).Nodup
  total : (batchCalls batches).length ≤ maxTotalToolCalls
  dispatched : run.world.dispatched <+: batchCalls batches
  calls : run.world.dispatched = completed.map Completion.call ∨
    ∃ call, run.world.dispatched = completed.map Completion.call ++ [call]

section Rounds

variable {host : LoopHost σ R τ} {provider : ModelProvider σ}
  {batches : List (AcceptedBatch host provider)} {completed : List (Completion host)}
  {run run' : Run σ τ κ}

structure Untouched (run run' : Run σ τ κ) : Prop where
  feedback : run'.machine.feedback = run.machine.feedback
  records : run'.machine.records = run.machine.records
  chars : run'.machine.feedbackChars = run.machine.feedbackChars
  seen : run'.machine.seenCallIds = run.machine.seenCallIds
  dispatched : run'.world.dispatched = run.world.dispatched

theorem Untouched.refl (run : Run σ τ κ) : Untouched run run := ⟨rfl, rfl, rfl, rfl, rfl⟩

theorem Ledger.untouched (h : Ledger batches completed run) (hu : Untouched run run') :
    Ledger batches completed run' :=
  { h with
    feedback := hu.feedback.trans h.feedback
    records := hu.records.trans h.records
    chars := hu.chars.trans h.chars
    dispatched := hu.dispatched.trans h.dispatched
    seen := hu.seen.trans h.seen }

theorem Ledger.closed (h : Ledger batches completed run) : Closed batches completed run :=
  { h with
    dispatched := h.dispatched ▸ List.prefix_rfl
    calls := .inl (h.dispatched.trans h.calls.symm) }

theorem acceptable_iff {calls : List ProviderToolCall} :
    acceptable host run.machine calls = true ↔
      (1 ≤ calls.length ∧ calls.length ≤ maxToolCallsPerResponse) ∧
      run.machine.records.length + calls.length ≤ maxTotalToolCalls ∧
      (calls.map (·.callId)).Nodup ∧
      (∀ call ∈ calls, call.callId ∉ run.machine.seenCallIds) ∧
      ∀ call ∈ calls, host.validator call.name.1 call.arguments host.context = .ok () := by
  have hempty : calls.isEmpty = false ↔ 1 ≤ calls.length := by
    cases calls with
    | nil => simp
    | cons call calls => simp
  have hvalid (x : Except ToolError Unit) : x.toBool = true ↔ x = .ok () := by
    cases x with
    | error e => simp [Except.toBool]
    | ok u => simp [Except.toBool]
  simp only [acceptable, Bool.and_eq_true, Bool.not_eq_true', decide_eq_true_eq, List.all_eq_true,
    List.contains_eq_mem, decide_eq_false_iff_not, hempty, hvalid, and_assoc]

/-- A batch that is not accepted runs nothing; one that is completes, and the machine
goes on, or closes the machine. -/
inductive BatchOutcome (provider : ModelProvider σ) (observers : ToolObservers κ)
    (batches : List (AcceptedBatch host provider)) (completed : List (Completion host))
    (response : ProviderResponse) (run : Run σ τ κ) : Except LoopError Unit × Run σ τ κ → Prop
  | refused (e : LoopError) :
      BatchOutcome provider observers batches completed response run (.error e, run)
  | completed (batch : AcceptedBatch host provider) (done : List (Completion host))
      (run' : Run σ τ κ) (same : batch.response = response)
      (ledger : Ledger (batches ++ [batch]) (completed ++ done) run')
      (observed : run'.observed = noted observers response.toolCalls run.observed) :
      BatchOutcome provider observers batches completed response run (.ok (), run')
  | aborted (e : LoopError) (batch : AcceptedBatch host provider) (done : List (Completion host))
      (run' : Run σ τ κ) (same : batch.response = response)
      (closed : Closed (batches ++ [batch]) (completed ++ done) run') :
      BatchOutcome provider observers batches completed response run (.error e, run')

theorem acceptBatch_outcome (observers : ToolObservers κ) (h : Ledger batches completed run)
    {response : ProviderResponse} (hgiven : ∃ request w, (provider request w).1 = .ok response)
    (hplain : response.outputText = none) :
    BatchOutcome provider observers batches completed response run
      (acceptBatch host observers response.toolCalls run) := by
  unfold acceptBatch
  split
  · next ha =>
    obtain ⟨hsize, htotal, hnodup, hnew, hvalid⟩ := acceptable_iff.mp ha
    let batch : AcceptedBatch host provider := ⟨response, hgiven, hplain, hsize, hvalid⟩
    have hcalls : batchCalls (batches ++ [batch]) = batchCalls batches ++ response.toolCalls :=
      batchCalls_concat batches batch
    have hseen : run.machine.seenCallIds ++ response.toolCalls.map (·.callId) =
        (batchCalls (batches ++ [batch])).map (·.callId) := by
      rw [hcalls, List.map_append, h.seen]
    have hdistinct : ((batchCalls (batches ++ [batch])).map (·.callId)).Nodup := by
      rw [← hseen]
      refine List.Nodup.append (h.seen ▸ h.distinct) hnodup ?_
      intro id hid hid'
      obtain ⟨call, hcall, rfl⟩ := List.mem_map.mp hid'
      exact hnew call hcall hid
    have hlength : (batchCalls (batches ++ [batch])).length ≤ maxTotalToolCalls := by
      have hl := congrArg List.length h.calls
      rw [h.records] at htotal
      rw [hcalls, List.length_append]
      simp only [List.length_map] at hl htotal
      omega
    have hout := runCalls_outcome host observers response.toolCalls (run.seeCalls response.toolCalls)
      (h.chars ▸ h.fits)
    generalize runCalls host observers response.toolCalls (run.seeCalls response.toolCalls) = x
      at hout
    cases hout with
    | completed done run' all progress chars bound observed =>
      refine .completed batch done run' rfl ?_ observed
      refine ⟨?_, ?_, ?_, ?_, ?_, ?_, ?_, hdistinct, hlength⟩
      · rw [progress.feedback, List.map_append, ← h.feedback]
        rfl
      · rw [progress.records, List.map_append, ← h.records]
        rfl
      · rw [chars, Completion.chars_append, ← h.chars]
        rfl
      · rw [Completion.chars_append, ← h.chars]
        exact chars ▸ bound
      · rw [List.map_append, h.calls, all, hcalls]
      · rw [progress.dispatched, hcalls, ← h.dispatched]
        rfl
      · rw [progress.seen, ← hseen]
        rfl
    | aborted e run' done call rest split progress bound =>
      have hdispatched : run'.world.dispatched =
          batchCalls batches ++ (done.map Completion.call ++ [call]) := by
        rw [progress.dispatched, ← h.dispatched]
        rfl
      refine .aborted e batch done run' rfl ?_
      refine ⟨?_, ?_, ?_, ?_, hdistinct, hlength, ?_, .inr ⟨call, ?_⟩⟩
      · rw [progress.feedback, List.map_append, ← h.feedback]
        rfl
      · rw [progress.records, List.map_append, ← h.records]
        rfl
      · rw [Completion.chars_append, ← h.chars]
        exact bound
      · rw [progress.seen, ← hseen]
        rfl
      · refine ⟨rest, ?_⟩
        rw [hdispatched, hcalls, split]
        simp only [List.append_assoc, List.singleton_append]
      · rw [hdispatched, List.map_append, h.calls, List.append_assoc]
  · exact .refused _

variable [LinearOrder τ]

theorem metrics_untouched (host : LoopHost σ R τ) (outcome : AgentRunOutcome) (run : Run σ τ κ) :
    Untouched run (metrics host outcome run).2 := by
  unfold metrics
  split
  · exact .refl run
  · exact ⟨rfl, rfl, rfl, rfl, rfl⟩

theorem metrics_observed (host : LoopHost σ R τ) (outcome : AgentRunOutcome) (run : Run σ τ κ) :
    (metrics host outcome run).2.observed = run.observed := by
  unfold metrics
  split <;> rfl

theorem metrics_ok {outcome : AgentRunOutcome} {measured : AgentRunMetrics}
    (h : metrics host outcome run = (.ok measured, run')) :
    measured.toolCallCount = run.machine.records.length := by
  unfold metrics at h
  split at h
  · cases h
  · obtain ⟨hm, -⟩ := Prod.mk.inj h
    unfold buildRunMetrics at hm
    split at hm
    · cases hm
    · cases hm
      rfl

structure Reports (host : LoopHost σ R τ) (execution : AgentLoopExecution) (run : Run σ τ κ) :
    Prop where
  plan : ∃ text, (host.parseJson text).bind (PlanningResult.modelValidate host.coercions) =
    some execution.result
  records : execution.trace.toolRecords = run.machine.records
  toolCount : execution.trace.toolCount = run.machine.records.length
  roundCount : execution.trace.roundCount = run.machine.roundCount
  measured : execution.metrics.toolCallCount = run.machine.records.length

theorem finish_outcome (host : LoopHost σ R τ) (text : Text) (run : Run σ τ κ) :
    Untouched run (finish host text run).2 ∧
      (finish host text run).2.observed = run.observed ∧
      ∀ execution, (finish host text run).1 = .ok execution → Reports host execution run := by
  have hu := metrics_untouched host .succeeded run
  have ho := metrics_observed host .succeeded run
  unfold finish
  cases hp : (host.parseJson text).bind (PlanningResult.modelValidate host.coercions) with
  | none =>
    refine ⟨.refl run, rfl, ?_⟩
    intro execution h
    cases h
  | some result =>
    dsimp only
    cases ht : agentRunTrace result.promptVersion run.machine with
    | none =>
      refine ⟨.refl run, rfl, ?_⟩
      intro execution h
      cases h
    | some trace =>
      dsimp only
      cases hm : metrics host .succeeded run with
      | mk r run' =>
        rw [hm] at hu ho
        cases r with
        | error e =>
          refine ⟨hu, ho, ?_⟩
          intro execution h
          cases h
        | ok measured =>
          refine ⟨hu, ho, ?_⟩
          intro execution h
          cases h
          unfold agentRunTrace at ht
          split at ht
          · cases ht
            exact ⟨⟨text, hp⟩, rfl, rfl, rfl, metrics_ok hm⟩
          · cases ht

/-- A response is one more batch, or the plan that ends the run, or an error that
closes the machine. -/
inductive ResponseOutcome (provider : ModelProvider σ) (observers : ToolObservers κ)
    (batches : List (AcceptedBatch host provider)) (completed : List (Completion host))
    (response : ProviderResponse) (run : Run σ τ κ) :
    Except LoopError (Option AgentLoopExecution) × Run σ τ κ → Prop
  | next (batch : AcceptedBatch host provider) (done : List (Completion host)) (run' : Run σ τ κ)
      (same : batch.response = response)
      (ledger : Ledger (batches ++ [batch]) (completed ++ done) run')
      (observed : run'.observed = noted observers response.toolCalls run.observed) :
      ResponseOutcome provider observers batches completed response run (.ok none, run')
  | finished (execution : AgentLoopExecution) (run' : Run σ τ κ)
      (ledger : Ledger batches completed run') (observed : run'.observed = run.observed)
      (reports : Reports host execution run') :
      ResponseOutcome provider observers batches completed response run
        (.ok (some execution), run')
  | failed (e : LoopError) (run' : Run σ τ κ) (ledger : Ledger batches completed run') :
      ResponseOutcome provider observers batches completed response run (.error e, run')
  | aborted (e : LoopError) (batch : AcceptedBatch host provider) (done : List (Completion host))
      (run' : Run σ τ κ) (same : batch.response = response)
      (closed : Closed (batches ++ [batch]) (completed ++ done) run') :
      ResponseOutcome provider observers batches completed response run (.error e, run')

theorem acceptResponse_outcome (observers : ToolObservers κ) (h : Ledger batches completed run)
    {response : ProviderResponse} (hgiven : ∃ request w, (provider request w).1 = .ok response) :
    ResponseOutcome provider observers batches completed response run
      (acceptResponse host observers response run) := by
  have hl : Ledger batches completed (run.addUsage response.usage) :=
    h.untouched ⟨rfl, rfl, rfl, rfl, rfl⟩
  unfold acceptResponse
  split
  · next text _ _ =>
    have hk := kept_finish host text (run.addUsage response.usage)
    obtain ⟨hu, ho, hr⟩ := finish_outcome host text (run.addUsage response.usage)
    generalize finish host text (run.addUsage response.usage) = x at hk hu ho hr
    obtain ⟨r, run'⟩ := x
    cases r with
    | error e => exact .failed e run' (hl.untouched hu)
    | ok execution =>
      have hreports := hr execution rfl
      refine .finished execution run' (hl.untouched hu) ho ⟨hreports.plan, ?_, ?_, ?_, ?_⟩
      · exact hreports.records.trans hu.records.symm
      · exact hreports.toolCount.trans (congrArg List.length hu.records.symm)
      · exact hreports.roundCount.trans hk.roundCount.symm
      · exact hreports.measured.trans (congrArg List.length hu.records.symm)
  · exact .failed _ _ hl
  · next hplain =>
    have hb := acceptBatch_outcome observers hl hgiven hplain
    generalize acceptBatch host observers response.toolCalls (run.addUsage response.usage) = x at hb
    cases hb with
    | refused e => exact .failed e _ hl
    | completed batch done run' same ledger observed => exact .next batch done run' same ledger observed
    | aborted e batch done run' same closed => exact .aborted e batch done run' same closed

/-- Between two rounds every batch is complete, and each took one round. -/
structure BetweenRounds (host : LoopHost σ R τ) (provider : ModelProvider σ)
    (batches : List (AcceptedBatch host provider)) (completed : List (Completion host))
    (run : Run σ τ κ) : Prop where
  ledger : Ledger batches completed run
  rounds : batches.length = run.machine.roundCount
  roundBound : run.machine.roundCount ≤ maxModelRounds

/-- How a run ends: with its last plan, or with an error, when it may have left a
batch unfinished. -/
structure Ended {host : LoopHost σ R τ} {provider : ModelProvider σ}
    (batches : List (AcceptedBatch host provider)) (completed : List (Completion host))
    (ended : Except LoopError AgentLoopExecution × Run σ τ κ) : Prop where
  closed : Closed batches completed ended.2
  batchRounds : batches.length ≤ ended.2.machine.roundCount
  roundBound : ended.2.machine.roundCount ≤ maxModelRounds
  plan : ∀ execution, ended.1 = .ok execution → Reports host execution ended.2 ∧
    ended.2.world.dispatched = completed.map Completion.call

inductive RoundOutcome (host : LoopHost σ R τ) (provider : ModelProvider σ) :
    Round LoopError AgentLoopExecution (Run σ τ Unit) → Prop
  | next (batches : List (AcceptedBatch host provider)) (completed : List (Completion host))
      (run' : Run σ τ Unit) (between : BetweenRounds host provider batches completed run') :
      RoundOutcome host provider (.next run')
  | done (batches : List (AcceptedBatch host provider)) (completed : List (Completion host))
      (execution : AgentLoopExecution) (run' : Run σ τ Unit)
      (ended : Ended batches completed (.ok execution, run')) :
      RoundOutcome host provider (.done execution run')
  | failed (batches : List (AcceptedBatch host provider)) (completed : List (Completion host))
      (e : LoopError) (run' : Run σ τ Unit) (ended : Ended batches completed (.error e, run')) :
      RoundOutcome host provider (.failed e run')

omit [LinearOrder τ] in
theorem Ledger.ended_error (h : Ledger batches completed run)
    (hrounds : batches.length ≤ run.machine.roundCount)
    (hbound : run.machine.roundCount ≤ maxModelRounds) (e : LoopError) :
    Ended batches completed (.error e, run) := by
  refine ⟨h.closed, hrounds, hbound, ?_⟩
  intro execution hx
  cases hx

theorem runRound_outcome {run : Run σ τ Unit} (h : BetweenRounds host provider batches completed run) :
    RoundOutcome host provider (runRound host provider run) := by
  have hrounds := h.rounds
  unfold runRound
  cases hn : nextRequest host run with
  | mk r run₁ =>
    cases r with
    | error e =>
      have hstate : run₁ = run ∨ run₁ = run.countRound := by
        simpa only [hn] using nextRequest_state host run
      have hbound : run₁.machine.roundCount ≤ maxModelRounds := by
        unfold nextRequest at hn
        split at hn
        · cases hn
          exact h.roundBound
        · next hc =>
          obtain ⟨-, rfl⟩ := Prod.mk.inj hn
          exact not_le.mp hc
      have hl : Ledger batches completed run₁ := by
        rcases hstate with rfl | rfl
        · exact h.ledger
        · exact h.ledger.untouched ⟨rfl, rfl, rfl, rfl, rfl⟩
      have hle : batches.length ≤ run₁.machine.roundCount := by
        rcases hstate with rfl | rfl
        · exact hrounds.le
        · exact hrounds.le.trans (Nat.le_succ _)
      exact .failed batches completed e run₁ (hl.ended_error hle hbound e)
    | ok request =>
      obtain ⟨hlt, rfl⟩ := nextRequest_ok hn
      have hcount : run.countRound.machine.roundCount = batches.length + 1 := by
        rw [hrounds]
        rfl
      have hk := generateSafely_kept provider request run.countRound
      dsimp only
      cases hg : generateSafely provider request run.countRound with
      | mk r run₂ =>
        rw [hg] at hk
        have hl : Ledger batches completed run₂ := by
          refine h.ledger.untouched ?_
          unfold generateSafely at hg
          split at hg
          · obtain ⟨-, rfl⟩ := Prod.mk.inj hg
            exact ⟨rfl, rfl, rfl, rfl, rfl⟩
          · obtain ⟨-, rfl⟩ := Prod.mk.inj hg
            exact ⟨rfl, rfl, rfl, rfl, rfl⟩
        have hround : run₂.machine.roundCount = batches.length + 1 := hk.roundCount.trans hcount
        have hbound : batches.length + 1 ≤ maxModelRounds := by omega
        cases r with
        | error e =>
          exact .failed batches completed e run₂ (hl.ended_error (by omega) (by omega) e)
        | ok response =>
          have hgiven : ∃ request w, (provider request w).1 = .ok response := by
            refine ⟨request, run.countRound.world.outside, ?_⟩
            unfold generateSafely at hg
            split at hg
            · next hp =>
              cases hg
              rw [hp]
            · cases hg
          have hx := acceptResponse_outcome noObservers hl hgiven
          have hk' := kept_acceptResponse host noObservers response run₂
          dsimp only
          generalize acceptResponse host noObservers response run₂ = x at hx hk'
          cases hx with
          | next batch done run₃ same ledger observed =>
            refine .next (batches ++ [batch]) (completed ++ done) run₃ ⟨ledger, ?_, ?_⟩
            · rw [List.length_append, List.length_singleton, hk'.roundCount, hround]
            · rw [hk'.roundCount, hround]
              exact hbound
          | finished execution run₃ ledger observed reports =>
            have hc : run₃.machine.roundCount = batches.length + 1 := hk'.roundCount.trans hround
            refine .done batches completed execution run₃ ⟨ledger.closed, ?_, ?_, ?_⟩
            · rw [hc]
              exact Nat.le_succ _
            · rw [hc]
              exact hbound
            · intro x hx
              cases hx
              exact ⟨reports, ledger.dispatched.trans ledger.calls.symm⟩
          | failed e run₃ ledger =>
            have hc : run₃.machine.roundCount = batches.length + 1 := hk'.roundCount.trans hround
            exact .failed batches completed e run₃
              (ledger.ended_error (by omega) (by omega) e)
          | aborted e batch done run₃ same closed =>
            have hc : run₃.machine.roundCount = batches.length + 1 := hk'.roundCount.trans hround
            refine .failed (batches ++ [batch]) (completed ++ done) e run₃ ⟨closed, ?_, ?_, ?_⟩
            · rw [List.length_append, List.length_singleton, hc]
            · rw [hc]
              exact hbound
            · intro x hx
              cases hx

theorem loop_ended {run : Run σ τ Unit} (h : BetweenRounds host provider batches completed run) :
    ∃ (batches' : List (AcceptedBatch host provider)) (completed' : List (Completion host)),
      Ended batches' completed' ((loop host provider).run run) := by
  refine (loop host provider).run_rule
    (I := fun run ↦ ∃ batches completed, BetweenRounds host provider batches completed run)
    (Q := fun ended ↦ ∃ (batches : List (AcceptedBatch host provider))
      (completed : List (Completion host)), Ended batches completed ended) ?_ ?_ ?_
    ⟨batches, completed, h⟩
  · intro run run' hrun hr
    obtain ⟨batches, completed, hb⟩ := hrun
    have hout := runRound_outcome hb
    rw [show runRound host provider run = .next run' from hr] at hout
    cases hout with
    | next batches completed _ between => exact ⟨batches, completed, between⟩
  · intro run execution run' hrun hr
    obtain ⟨batches, completed, hb⟩ := hrun
    have hout := runRound_outcome hb
    rw [show runRound host provider run = .done execution run' from hr] at hout
    cases hout with
    | done batches completed _ _ ended => exact ⟨batches, completed, ended⟩
  · intro run e run' hrun hr
    obtain ⟨batches, completed, hb⟩ := hrun
    have hout := runRound_outcome hb
    rw [show runRound host provider run = .failed e run' from hr] at hout
    cases hout with
    | failed batches completed _ _ ended => exact ⟨batches, completed, ended⟩

/-- The requests that the provider is called with, one in each round that gets so far. -/
def requests (host : LoopHost σ R τ) (provider : ModelProvider σ) (run : Run σ τ Unit) :
    List ProviderRequest :=
  ((loop host provider).states run).filterMap fun run ↦ (nextRequest host run).1.toOption

theorem requests_length (host : LoopHost σ R τ) (provider : ModelProvider σ)
    (run : Run σ τ Unit) : (requests host provider run).length ≤ roundsLeft run := by
  induction hleft : roundsLeft run using Nat.strongRecOn generalizing run with
  | _ n ih =>
    unfold requests
    rw [Driver.states_eq]
    cases hn : nextRequest host run with
    | mk r run₁ =>
      cases r with
      | error e =>
        have hround : (loop host provider).round run = .failed e run₁ := by
          simp only [loop, runRound, hn]
        rw [hround]
        simp only [List.filterMap_cons, hn, Except.toOption, List.filterMap_nil, List.length_nil]
        exact Nat.zero_le _
      | ok request =>
        have hlt := (nextRequest_ok hn).1
        have hpos : 1 ≤ n := by
          rw [← hleft, roundsLeft]
          omega
        simp only [List.filterMap_cons, hn, Except.toOption, List.length_cons]
        cases hr : (loop host provider).round run with
        | next run' =>
          have hd : roundsLeft run' < roundsLeft run := (loop host provider).decreases run run' hr
          have hrest := ih _ (hleft ▸ hd) run' rfl
          exact Nat.succ_le_of_lt (hrest.trans_lt (hleft ▸ hd))
        | done execution run' => exact hpos
        | failed e run' => exact hpos

def toolValidator (c : QueryCoercions) (name : Text) (arguments : Fields)
    (context : AgentRuntimeContext) : Except ToolError Unit :=
  (validateAnyToolArguments c name arguments context).map fun _ ↦ ()

omit [LinearOrder τ] in
theorem Closed.dispatched_valid (h : Closed batches completed run) {call : ProviderToolCall}
    (hc : call ∈ run.world.dispatched) :
    host.validator call.name.1 call.arguments host.context = .ok () := by
  obtain ⟨batch, -, hb⟩ := List.mem_flatMap.mp (h.dispatched.subset hc)
  exact batch.valid call hb

theorem toolValidator_readOnly {c : QueryCoercions} {name : Text} {arguments : Fields}
    {context : AgentRuntimeContext} (h : toolValidator c name arguments context = .ok ())
    (hw : context.writeToolsEnabled = false) : name ∈ readToolNames := by
  unfold toolValidator at h
  cases hv : validateAnyToolArguments c name arguments context with
  | error e => rw [hv] at h; cases h
  | ok a => exact validateAnyToolArguments_readOnly hv hw

/-- The limits of a run, in terms of the batches that it accepted and of the calls
whose results it took. -/
structure Limits {host : LoopHost σ R τ} {provider : ModelProvider σ}
    (batches : List (AcceptedBatch host provider)) (completed : List (Completion host))
    (ended : Except LoopError AgentLoopExecution × Run σ τ Unit) : Prop where
  rounds : ended.2.machine.roundCount ≤ maxModelRounds
  batchRounds : batches.length ≤ ended.2.machine.roundCount
  dispatches : ended.2.world.dispatched.length ≤ maxTotalToolCalls
  fedBack : Completion.chars completed ≤ maxAccumulatedToolResultChars
  callIds : ended.2.machine.seenCallIds = (batchCalls batches).map (·.callId) ∧
    ended.2.machine.seenCallIds.Nodup
  dispatched : ended.2.world.dispatched <+: batchCalls batches
  feedback : ended.2.machine.feedback = completed.map Completion.feedback
  records : ended.2.machine.records = completed.map Completion.record
  completed : ended.2.world.dispatched = completed.map Completion.call ∨
    (∃ e, ended.1 = .error e) ∧
      ∃ call, ended.2.world.dispatched = completed.map Completion.call ++ [call]
  readOnly : ∀ c : QueryCoercions, host.validator = toolValidator c →
    host.context.writeToolsEnabled = false →
    ∀ call ∈ ended.2.world.dispatched, call.name.1 ∈ readToolNames
  plan : ∀ execution, ended.1 = .ok execution → Reports host execution ended.2

omit [LinearOrder τ] in
theorem Ended.limits {ended : Except LoopError AgentLoopExecution × Run σ τ Unit}
    (h : Ended batches completed ended) : Limits batches completed ended where
  rounds := h.roundBound
  batchRounds := h.batchRounds
  dispatches := h.closed.dispatched.length_le.trans h.closed.total
  fedBack := h.closed.fits
  callIds := ⟨h.closed.seen, h.closed.seen ▸ h.closed.distinct⟩
  dispatched := h.closed.dispatched
  feedback := h.closed.feedback
  records := h.closed.records
  completed := by
    cases hr : ended.1 with
    | ok execution => exact .inl (h.plan execution hr).2
    | error e =>
      rcases h.closed.calls with hc | hc
      · exact .inl hc
      · exact .inr ⟨⟨e, rfl⟩, hc⟩
  readOnly c hv hw call hc :=
    toolValidator_readOnly (hv ▸ h.closed.dispatched_valid hc) hw
  plan execution hx := (h.plan execution hx).1

/-- The limits of the loop hold for every provider, tool and clock. -/
theorem loop_limits (host : LoopHost σ R τ) (provider : ModelProvider σ) (goal : GoalInput)
    (w : σ) :
    (∃ e, start host goal w () = .error e ∧ runAgent host provider goal w = (.error e, ⟨w, 0, []⟩)) ∨
    ∃ run, start host goal w () = .ok run ∧
      runAgent host provider goal w = Prod.map id Run.world ((loop host provider).run run) ∧
      (requests host provider run).length ≤ maxModelRounds ∧
      (∀ request ∈ requests host provider run, request.input.length ≤ maxPromptInputCharacters) ∧
      ∃ (batches : List (AcceptedBatch host provider)) (completed : List (Completion host)),
        Limits batches completed ((loop host provider).run run) := by
  unfold runAgent
  cases hv : goal.modelValidate with
  | none =>
    left
    refine ⟨.validation, ?_, ?_⟩
    · simp only [start, hv]
    · simp only [start, hv]
  | some g =>
    right
    have hs : start host goal w () = .ok ⟨⟨g, host.now 0, [], 0, [], [], 0, []⟩, ⟨w, 1, []⟩, ()⟩ := by
      simp only [start, hv]
    refine ⟨_, hs, by rw [hs], ?_, ?_, ?_⟩
    · exact (requests_length host provider _).trans (Nat.sub_le _ _)
    · intro request _
      exact request.inputBounds.2
    · have hbetween : BetweenRounds host provider [] []
          (⟨⟨g, host.now 0, [], 0, [], [], 0, []⟩, ⟨w, 1, []⟩, ()⟩ : Run σ τ Unit) :=
        ⟨⟨rfl, rfl, rfl, Nat.zero_le _, rfl, rfl, rfl, List.nodup_nil, Nat.zero_le _⟩, rfl,
          Nat.zero_le _⟩
      obtain ⟨batches, completed, hended⟩ := loop_ended hbetween
      exact ⟨batches, completed, hended.limits⟩

end Rounds

end LearningTasks.Agent.LoopLimits
