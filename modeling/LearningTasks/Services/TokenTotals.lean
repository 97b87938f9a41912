import LearningTasks.Agent.Metrics
import LearningTasks.Services.AgentWorkflow

namespace LearningTasks.Services.TokenTotals

open Library.Serialization Models.Agent Agent.Schemas Agent.State Agent.Approval
  Agent.Execution Agent.Finalization Agent.Planning Agent.Graph Agent.Checkpoints Agent.Metrics
  Services.AgentWorkflow

def complete (u : ProviderUsage) : Bool :=
  u.inputTokens.isSome && u.outputTokens.isSome && u.totalTokens.isSome

/-- Where a response reports all counters, its total is their sum. -/
def Consistent (u : ProviderUsage) : Prop :=
  ∀ i o t, u.inputTokens = some i → u.outputTokens = some o → u.totalTokens = some t → t = i + o

/-- The responses that leave a counter out report, all together, a total that is
the sum of their inputs and outputs. -/
def Balanced (usages : List ProviderUsage) : Prop :=
  reported (·.totalTokens) (usages.filter fun u ↦ !complete u) =
    reported (·.inputTokens) (usages.filter fun u ↦ !complete u) +
      reported (·.outputTokens) (usages.filter fun u ↦ !complete u)

instance (usages : List ProviderUsage) : Decidable (Balanced usages) :=
  inferInstanceAs (Decidable (_ = _))

theorem reported_cons (counter : ProviderUsage → Option ℕ) (u : ProviderUsage)
    (usages : List ProviderUsage) :
    reported counter (u :: usages) = (counter u).getD 0 + reported counter usages := by
  simp only [reported, List.map_cons, List.sum_cons]

theorem Consistent.total {u : ProviderUsage} (h : Consistent u) (hc : complete u = true) :
    u.totalTokens.getD 0 = u.inputTokens.getD 0 + u.outputTokens.getD 0 := by
  simp only [complete, Bool.and_eq_true, Option.isSome_iff_exists] at hc
  obtain ⟨⟨⟨i, hi⟩, o, ho⟩, t, ht⟩ := hc
  rw [hi, ho, ht]
  exact h i o t hi ho ht

theorem reported_split (counter : ProviderUsage → Option ℕ) (usages : List ProviderUsage) :
    reported counter usages = reported counter (usages.filter complete) +
      reported counter (usages.filter fun u ↦ !complete u) := by
  induction usages with
  | nil => rfl
  | cons u usages ih =>
    cases hc : complete u <;>
      simp only [List.filter_cons, hc, Bool.not_true, Bool.not_false, Bool.false_eq_true,
        ↓reduceIte, reported_cons] <;> omega

theorem complete_total {usages : List ProviderUsage} (h : ∀ u ∈ usages, Consistent u) :
    reported (·.totalTokens) (usages.filter complete) =
      reported (·.inputTokens) (usages.filter complete) +
        reported (·.outputTokens) (usages.filter complete) := by
  induction usages with
  | nil => rfl
  | cons u usages ih =>
    obtain ⟨hu, hrest⟩ := List.forall_mem_cons.mp h
    have ih := ih hrest
    cases hc : complete u with
    | true =>
      have ht := hu.total hc
      simp only [List.filter_cons, hc, ↓reduceIte, reported_cons]
      omega
    | false =>
      simp only [List.filter_cons, hc, Bool.false_eq_true, ↓reduceIte]
      exact ih

theorem balanced_iff {usages : List ProviderUsage} (h : ∀ u ∈ usages, Consistent u) :
    Balanced usages ↔ reported (·.totalTokens) usages =
      reported (·.inputTokens) usages + reported (·.outputTokens) usages := by
  have hc := complete_total h
  have hi := reported_split (·.inputTokens) usages
  have ho := reported_split (·.outputTokens) usages
  have ht := reported_split (·.totalTokens) usages
  unfold Balanced
  omega

structure Bounds (visits calls : ℕ) (m : AgentRunMetrics) : Prop where
  rounds : m.modelRoundCount ≤ visits
  attempts : m.providerAttemptCount ≤ planningMaxAttempts * visits
  calls : m.toolCallCount ≤ calls

theorem Bounds.merge {visits : ℕ} {p : AgentRunMetrics} (h : Bounds visits 0 p) {v : Visit}
    (hv : v.attempts ≤ planningMaxAttempts) (add : FloatRepr → FloatRepr → FloatRepr) :
    Bounds (visits + 1) 0 (mergeMetrics add (some p) v.metrics) :=
  ⟨Nat.add_le_add_right h.rounds 1, Nat.add_le_add h.attempts hv, h.calls⟩

theorem Bounds.withToolCalls {visits : ℕ} {m : AgentRunMetrics} (h : Bounds visits 0 m)
    (records : List AgentActionExecutionRecord) :
    Bounds visits records.length (withToolCalls records m) := by
  refine ⟨h.rounds, h.attempts, ?_⟩
  calc m.toolCallCount + records.length
      ≤ 0 + records.length := Nat.add_le_add_right h.calls _
    _ = records.length := Nat.zero_add _

theorem accumulate_bounds {add : FloatRepr → FloatRepr → FloatRepr} {visits : List Visit}
    (hattempts : ∀ v ∈ visits, v.attempts ≤ planningMaxAttempts) {m : AgentRunMetrics}
    (h : accumulate add visits = some m) : Bounds visits.length 0 m := by
  induction visits using List.reverseRecOn generalizing m with
  | nil => cases h
  | append_singleton visits v ih =>
    have hv := hattempts v (List.mem_append_right _ (List.mem_singleton_self v))
    rw [accumulate_concat, Option.some.injEq] at h
    subst h
    rw [List.length_append, List.length_singleton]
    cases hp : accumulate add visits with
    | none =>
      exact ⟨Nat.le_add_left 1 _, hv.trans (Nat.le_mul_of_pos_right _ (Nat.succ_pos _)), le_rfl⟩
    | some p => exact (ih (fun v hv ↦ hattempts v (List.mem_append_left _ hv)) hp).merge hv add

theorem Bounds.inRange {visits calls : ℕ} {m : AgentRunMetrics} (h : Bounds visits calls m)
    (hvisits : visits ≤ maxPlanRevisions + 1) (hcalls : calls ≤ maxPlanActions) :
    m.modelRoundCount ≤ maxInteger ∧ m.providerAttemptCount ≤ maxInteger ∧
      m.toolCallCount ≤ maxInteger := by
  have hrounds := h.rounds
  have hattempts := h.attempts
  have hmade := h.calls
  simp only [maxPlanRevisions, maxPlanActions, planningMaxAttempts, maxInteger] at *
  omega

theorem runMetrics_isSome {m : AgentRunMetrics} {usages : List ProviderUsage}
    (h : Counts m usages) (hm : m.modelRoundCount ≤ maxInteger ∧
      m.providerAttemptCount ≤ maxInteger ∧ m.toolCallCount ≤ maxInteger) :
    (runMetrics m).isSome = true ↔ reported (·.totalTokens) usages =
      reported (·.inputTokens) usages + reported (·.outputTokens) usages ∧
        reported (·.totalTokens) usages ≤ maxInteger := by
  have hi : m.inputTokens.getD 0 = reported (·.inputTokens) usages := by
    rw [h.input, sumKnown_getD]
  have ho : m.outputTokens.getD 0 = reported (·.outputTokens) usages := by
    rw [h.output, sumKnown_getD]
  have ht : m.totalTokens.getD 0 = reported (·.totalTokens) usages := by
    rw [h.total, sumKnown_getD]
  obtain ⟨hrounds, hattempts, hcalls⟩ := hm
  rw [← hi, ← ho, ← ht]
  by_cases hsum : m.totalTokens.getD 0 = m.inputTokens.getD 0 + m.outputTokens.getD 0
  · simp only [runMetrics, dif_pos hsum]
    split
    · next hr => exact ⟨fun _ ↦ ⟨hsum, hr.totalTokens⟩, fun _ ↦ rfl⟩
    · next hr =>
      refine ⟨fun hsome ↦ absurd hsome Bool.false_ne_true, fun ⟨_, hle⟩ ↦ absurd ?_ hr⟩
      exact ⟨hrounds, hattempts, hcalls, (Nat.le_add_right _ _).trans (hsum ▸ hle),
        (Nat.le_add_left _ _).trans (hsum ▸ hle), hle⟩
  · simp only [runMetrics, dif_neg hsum, Option.isSome_none, Bool.false_eq_true, false_iff]
    exact fun ⟨h, _⟩ ↦ hsum h

/-- The totals of the usages fit the row: those of the responses that report only some
counters balance, and the sum is in the range of the column. -/
def Fits (usages : List ProviderUsage) : Prop :=
  Balanced usages ∧ reported (·.totalTokens) usages ≤ maxInteger

variable {σ : Type} {host : Host σ}

theorem runValues_isSome {add : FloatRepr → FloatRepr → FloatRepr} {visits : List Visit}
    (hvisits : RunVisits host.planning visits)
    (hcons : ∀ u ∈ visits.flatMap (·.usages), Consistent u)
    {records : List AgentActionExecutionRecord} (hrecords : records.length ≤ maxPlanActions)
    (run : AgentRun) {output : AgentGraphOutput}
    (hm : output.metrics = (accumulate add visits).map (withToolCalls records)) :
    (runValues run (.output output)).isSome = true ↔ Fits (visits.flatMap (·.usages)) := by
  rw [Fits, balanced_iff hcons]
  cases ha : accumulate add visits with
  | none =>
    rw [ha, Option.map_none] at hm
    obtain rfl := accumulate_none ha
    simp only [runValues, hm]
    exact ⟨fun _ ↦ ⟨rfl, Nat.zero_le _⟩, fun _ ↦ rfl⟩
  | some m =>
    have hc := (accumulate_counts ha).withToolCalls records
    have hb := (accumulate_bounds (fun v hv ↦ (hvisits.made v hv).attempts) ha).withToolCalls
      records
    rw [ha, Option.map_some] at hm
    rw [← runMetrics_isSome hc (hb.inRange hvisits.rounds hrecords)]
    simp only [runValues, hm, Option.isSome_map]

/-- The values of a finished run fit its row and the public schema just when the
totals of its usages fit them; and every output of a run has the totals of such
usages. -/
theorem persistable_iff_balanced (host : Host σ)
    (h : ∀ u, Answered host.planning u → Consistent u) :
    (∀ visits, RunVisits host.planning visits →
      ∀ records : List AgentActionExecutionRecord, records.length ≤ maxPlanActions →
      ∀ (run : AgentRun) (output : AgentGraphOutput),
        output.metrics =
            (accumulate host.planning.addLatency visits).map (withToolCalls records) →
          ((runValues run (.output output)).isSome = true ↔ Fits (visits.flatMap (·.usages)))) ∧
    ∀ s, (machine host).Reachable s →
      ∀ output, summarize host.sha256 s.1.values = some output →
        ∃ visits, RunVisits host.planning visits ∧
          output.metrics = (accumulate host.planning.addLatency visits).map
            (withToolCalls s.1.values.executionRecords) ∧
          ∀ run, (runValues run (.output output)).isSome = true ↔
            Fits (visits.flatMap (·.usages)) := by
  have hcons (visits : List Visit) (hvisits : RunVisits host.planning visits) :
      ∀ u ∈ visits.flatMap (·.usages), Consistent u := by
    intro u hu
    obtain ⟨v, hv, hu⟩ := List.mem_flatMap.mp hu
    exact h u ((hvisits.made v hv).usages u hu)
  refine ⟨fun visits hvisits records hrecords run output hm ↦
    runValues_isSome hvisits (hcons visits hvisits) hrecords run hm, fun s hs output ho ↦ ?_⟩
  obtain ⟨hrecords, visits, hvisits, hm⟩ := output_accumulated hs ho
  exact ⟨visits, hvisits, hm, fun run ↦
    runValues_isSome hvisits (hcons visits hvisits) hrecords run hm⟩

/-- A provider that reports the input in one response, which cannot be read, and the
output in the next. -/
def partialHost : Host ℕ where
  sha256 := sampleHost.sha256
  coercions := sampleHost.coercions
  context := sampleHost.context
  planning := {
    parseJson := sampleHost.planning.parseJson
    buildInput := sampleHost.planning.buildInput
    generate _ w := (.ok (if w % 2 = 0 then ⟨none, false, ⟨some 10, none, some 15⟩⟩
      else ⟨some (dumps sampleProposal.dump), false, ⟨none, some 5, none⟩⟩), w + 1)
    latency w := (some sampleLatency, w)
    addLatency x _ := x }
  fetchContext text w := ((sampleHost.fetchContext text ()).1, w)
  executors := ⟨fun _ _ _ w ↦ (.error .other, w), some fun _ _ _ _ w ↦ (.error .other, w)⟩
  decider _ w := (none, w)
  durableApproval := true

theorem partialHost_consistent (u : ProviderUsage) (h : Answered partialHost.planning u) :
    Consistent u := by
  obtain ⟨input, w, response, w', hg, rfl⟩ := h
  obtain rfl := Except.ok.inj (congrArg Prod.fst hg)
  intro i o t hi ho ht
  by_cases hw : w % 2 = 0
  · simp only [hw, ↓reduceIte] at ho
    cases ho
  · simp only [hw, ↓reduceIte] at hi
    cases hi

theorem partialHost_init : (machine partialHost).init (initialCheckpoint sampleGoal, 0) :=
  ⟨sampleGoal, rfl⟩

/-- Two responses that leave counters out balance each other. -/
theorem persistable_iff_balanced_sample :
    ∃ s output, (machine partialHost).Reachable s ∧
      summarize partialHost.sha256 s.1.values = some output ∧
      output.metrics.map (fun m ↦ (m.inputTokens, m.outputTokens, m.totalTokens)) =
        some (some 10, some 5, some 15) ∧
      ∃ visits, RunVisits partialHost.planning visits ∧ Fits (visits.flatMap (·.usages)) := by
  have hexec : (((machine partialHost).exec (initialCheckpoint sampleGoal, 0)
      (List.replicate 5 .advance ++ .resume ⟨.rejected, none, by decide⟩ ::
        List.replicate 2 .advance)).bind fun s ↦
          (summarize partialHost.sha256 s.1.values).map fun output ↦
            (output.metrics.map (fun m ↦ (m.inputTokens, m.outputTokens, m.totalTokens)),
              (runValues sampleRows.run (.output output)).isSome)) =
        some (some (some 10, some 5, some 15), true) := by
    decide +kernel
  obtain ⟨s, hs, ho⟩ := Option.bind_eq_some_iff.mp hexec
  obtain ⟨output, ho, hvalues⟩ := Option.map_eq_some_iff.mp ho
  simp only [Prod.mk.injEq] at hvalues
  obtain ⟨hm, hsome⟩ := hvalues
  have hr := Library.Transition.Machine.Reachable.exec (.start partialHost_init) hs
  obtain ⟨visits, hvisits, -, hiff⟩ :=
    (persistable_iff_balanced partialHost partialHost_consistent).2 s hr output ho
  exact ⟨s, output, hr, ho, hm, visits, hvisits, (hiff sampleRows.run).mp hsome⟩

def sampleOutput (visits : List Visit) : AgentGraphOutput :=
  ⟨.succeeded, none, sampleText 2000 "Done" (by decide), [],
    (accumulate (fun x _ ↦ x) visits).map (withToolCalls [])⟩

/-- One response that reports its input tokens only leaves a run that the table
does not take. -/
theorem partial_usage_not_persistable :
    Consistent ⟨some 10, none, none⟩ ∧
      runValues sampleRows.run
        (.output (sampleOutput [⟨1, [⟨some 10, none, none⟩], sampleLatency⟩])) = none := by
  exact ⟨fun _ _ _ _ ho ↦ (by cases ho), rfl⟩

end LearningTasks.Services.TokenTotals
