import LearningTasks.Library.SortedLog
import LearningTasks.Models.Agent

namespace LearningTasks.Services.AgentEvents

open Library.Strings Library.Serialization Library.SortedLog Schemas.Scalars Models.Agent

inductive PublicAgentEventPayload
  | runStatus (status : AgentRunStatus)
  | nodeStatus (node : AgentRunNode)
  | toolStarted (toolName : AgentWriteToolName)
  | toolResult (toolName : AgentWriteToolName) (status : AgentToolExecutionStatus) (summary : Text)
  | approvalRequired (revision : ℕ) (proposalFingerprint : Text)
  | metrics (metrics : AgentRunMetricsSnapshot)
  | heartbeat
  | terminalResult (status : AgentRunStatus) (summary : Option Text)
  | safeError (errorCode : Text)
  deriving DecidableEq

structure Draft where
  occurredAt : Datetime
  order : ℕ
  stableKey : Text
  payload : PublicAgentEventPayload
  deriving DecidableEq

structure PublicAgentEvent where
  eventId : Text
  sequence : ℕ
  runId : UUID
  occurredAt : Datetime
  payload : PublicAgentEventPayload
  deriving DecidableEq

abbrev Key := ℕ × ℕ × Text

def Draft.key (d : Draft) : Key := (d.occurredAt.ordinal, d.order, d.stableKey)

def keyLe (k l : Key) : Prop :=
  k.1 < l.1 ∨ k.1 = l.1 ∧ (k.2.1 < l.2.1 ∨ k.2.1 = l.2.1 ∧ leText k.2.2 l.2.2 = true)

instance : DecidableRel keyLe := fun _ _ ↦ inferInstanceAs (Decidable (_ ∨ _))

def Draft.le (d e : Draft) : Prop := keyLe d.key e.key

instance : DecidableRel Draft.le := fun d e ↦ inferInstanceAs (Decidable (keyLe d.key e.key))

def terminalRunStatuses : List AgentRunStatus := [.succeeded, .rejected, .partialFailure, .failed]

def event (runId : UUID) (sequence : ℕ) (d : Draft) : PublicAgentEvent where
  eventId := runId.text ++ ':' :: padded 8 (natRepr sequence)
  sequence := sequence
  runId := runId
  occurredAt := d.occurredAt
  payload := d.payload

def startedDraft (e : AgentToolExecution) : Draft :=
  ⟨e.startedAt, 30, e.id.text ++ ":started".toList, .toolStarted e.toolName⟩

def resultDraft (e : AgentToolExecution) (completedAt : Datetime) (summary : Text) : Draft :=
  ⟨completedAt, 40, e.id.text ++ ":result".toList, .toolResult e.toolName e.status summary⟩

def errorDraft (e : AgentToolExecution) (completedAt : Datetime) (code : Text) : Draft :=
  ⟨completedAt, 40, e.id.text ++ ":error".toList, .safeError code⟩

/-- No result stands for a failed assertion. -/
def executionDrafts (e : AgentToolExecution) : Option (List Draft) :=
  match e.status with
  | .inProgress => some [startedDraft e]
  | .completed => do
    let completedAt ← e.completedAt
    let summary ← e.resultSummary
    return [startedDraft e, resultDraft e completedAt summary]
  | .failed | .unknown => do
    let completedAt ← e.completedAt
    let code ← e.errorCode
    return [startedDraft e, errorDraft e completedAt code]

def allExecutionDrafts : List AgentToolExecution → Option (List Draft)
  | [] => some []
  | e :: executions => do
    let drafts ← executionDrafts e
    let others ← allExecutionDrafts executions
    return drafts ++ others

def approvalDraft (a : AgentApproval) : Option Draft :=
  if a.decision = .pending then
    some ⟨a.createdAt, 25, "approval:".toList ++ a.id.text,
      .approvalRequired a.revision a.proposalFingerprint⟩
  else none

def runStatusDraft (run : AgentRun) : Draft :=
  ⟨run.updatedAt, 10, "run-status".toList, .runStatus run.status⟩

def nodeDraft (run : AgentRun) : Option Draft :=
  run.currentNode.map fun node ↦ ⟨run.updatedAt, 20, "node-status".toList, .nodeStatus node⟩

def metricsDraft (run : AgentRun) : Draft :=
  ⟨run.updatedAt, 80, "metrics".toList, .metrics run.metrics.toAgentRunMetricsSnapshot⟩

def lastDraft (run : AgentRun) : Draft :=
  if run.status ∈ terminalRunStatuses then
    ⟨run.updatedAt, 90, "terminal".toList, .terminalResult run.status run.summary⟩
  else ⟨run.updatedAt, 90, "heartbeat".toList, .heartbeat⟩

def buildPublicAgentEvents (run : AgentRun) (approvals : List AgentApproval)
    (executions : List AgentToolExecution) : Option (List PublicAgentEvent) := do
  let tools ← allExecutionDrafts executions
  let drafts := runStatusDraft run :: (nodeDraft run).toList ++ approvals.filterMap approvalDraft ++
    tools ++ [metricsDraft run, lastDraft run]
  return (drafts.insertionSort Draft.le).mapIdx fun i d ↦ event run.id (i + 1) d

/-- No result stands for an `AgentEventCursorError`. -/
def resumeAfterEvent (events : List PublicAgentEvent) (lastEventId : Option Text) :
    Option (List PublicAgentEvent) :=
  match lastEventId, events with
  | none, _ => some events
  | some _, [] => none
  | some cursor, first :: _ =>
    if (first.runId.text ++ [':']).isPrefixOf cursor then
      match events.findIdx? fun e ↦ e.eventId = cursor with
      | some index => some (events.drop (index + 1))
      | none => none
    else none

/-- The product rows of one run that its events are built from. -/
structure Records where
  run : AgentRun
  approvals : List AgentApproval
  executions : List AgentToolExecution

def maxPublicToolExecutions : ℕ := 50

def getOwnedAgentEvents (r : Records) : Option (List PublicAgentEvent) :=
  buildPublicAgentEvents r.run (r.approvals.take 3) (r.executions.take maxPublicToolExecutions)

/-- Rows as the tables hold them. A run has at most three approvals, one for
each revision, and at most three actions for each approved one, so neither
query limit drops a row. -/
structure Persisted extends Records where
  approvalIds : (approvals.map (·.id)).Nodup
  approvalCount : approvals.length ≤ 3
  executionIds : (executions.map (·.id)).Nodup
  executionCount : executions.length ≤ 9
  executionsValid : ∀ e ∈ executions, e.constraints = true

inductive Change
  | runUpdated (run : AgentRun)
  | approvalCreated (a : AgentApproval)
  | approvalDecided (id : UUID) (decision : AgentApprovalStatus) (feedback : Option Text)
      (decidedAt : Datetime)
  | executionStarted (id : UUID) (toolName : AgentWriteToolName) (startedAt : Datetime)
  | executionCompleted (id taskId : UUID) (summary : Text) (completedAt : Datetime)
  | executionFailed (id : UUID) (status : AgentToolExecutionStatus) (errorCode : Text)
      (completedAt : Datetime)
  | executionRestarted (id : UUID) (startedAt : Datetime)

def editExecution (r : Records) (id : UUID) (status : AgentToolExecutionStatus)
    (edit : AgentToolExecution → AgentToolExecution) : Option Records :=
  if r.executions.any fun e ↦ e.id = id ∧ e.status = status then
    some { r with executions := r.executions.map fun e ↦ if e.id = id then edit e else e }
  else none

def Change.apply (r : Records) : Change → Option Records
  | .runUpdated run =>
    if run.id = r.run.id ∧ r.run.updatedAt < run.updatedAt then some { r with run := run } else none
  | .approvalCreated a =>
    if a.decision = .pending then some { r with approvals := r.approvals ++ [a] } else none
  | .approvalDecided id decision feedback decidedAt =>
    if decision ≠ .pending ∧ r.approvals.any fun a ↦ a.id = id ∧ a.decision = .pending then
      some { r with approvals := r.approvals.map fun a ↦
        if a.id = id then
          { a with decision := decision, feedback := feedback, decidedAt := some decidedAt }
        else a }
    else none
  | .executionStarted id toolName startedAt =>
    some { r with executions := r.executions ++ [createClaim id toolName startedAt] }
  | .executionCompleted id taskId summary completedAt =>
    editExecution r id .inProgress fun e ↦ complete e taskId summary completedAt
  | .executionFailed id status errorCode completedAt =>
    if status = .failed ∨ status = .unknown then
      editExecution r id .inProgress fun e ↦ fail e status errorCode completedAt
    else none
  | .executionRestarted id startedAt =>
    editExecution r id .failed fun e ↦ restartFailed e startedAt

/-- A client that has received the earlier events up to any of them finds that
event under its id later, and resumes to exactly the later events it lacks. -/
def CursorStable (earlier later : List PublicAgentEvent) : Prop :=
  ∀ received e missing, earlier = received ++ e :: missing →
    (∀ e' ∈ later, e'.eventId = e.eventId → e' = e) ∧
      ∃ rest, resumeAfterEvent later (some e.eventId) = some rest ∧ received ++ e :: rest = later

def Draft.shown (d : Draft) : Datetime × PublicAgentEventPayload := (d.occurredAt, d.payload)

def shownEvent (runId : UUID) (i : ℕ) (s : Datetime × PublicAgentEventPayload) :
    PublicAgentEvent :=
  ⟨runId.text ++ ':' :: padded 8 (natRepr (i + 1)), i + 1, runId, s.1, s.2⟩

def number (runId : UUID) (shown : List (Datetime × PublicAgentEventPayload)) :
    List PublicAgentEvent := shown.mapIdx (shownEvent runId)

theorem shownEvent_inj {runId : UUID} {i j : ℕ} {s t : Datetime × PublicAgentEventPayload}
    (h : (shownEvent runId i s).eventId = (shownEvent runId j t).eventId) : i = j := by
  have h' := (List.cons.inj (List.append_cancel_left h)).2
  have := padded_natRepr_injective h'
  omega

theorem number_nodup (runId : UUID) (shown : List (Datetime × PublicAgentEventPayload)) :
    ((number runId shown).map (·.eventId)).Nodup := by
  apply List.pairwise_iff_getElem.mpr
  intro i j hi hj hij h
  simp only [number, List.getElem_map, List.getElem_mapIdx] at h
  exact absurd (shownEvent_inj h) (by omega)

theorem number_append (runId : UUID) (s t : List (Datetime × PublicAgentEventPayload)) :
    ∃ rest, number runId (s ++ t) = number runId s ++ rest := by
  rw [number, List.mapIdx_append]
  exact ⟨_, rfl⟩

theorem number_prefix {runId : UUID} {s t : List (Datetime × PublicAgentEventPayload)}
    (h : number runId s <+: number runId t) : s <+: t := by
  rw [List.prefix_iff_getElem]
  obtain ⟨hlen, hget⟩ := List.prefix_iff_getElem.mp h
  simp only [number, List.length_mapIdx, List.getElem_mapIdx] at hlen hget
  refine ⟨hlen, fun i hi ↦ ?_⟩
  have := hget i hi
  simp only [shownEvent, PublicAgentEvent.mk.injEq] at this
  exact Prod.ext this.2.2.2.1 this.2.2.2.2

theorem number_mem {runId : UUID} {shown : List (Datetime × PublicAgentEventPayload)}
    {e : PublicAgentEvent} (h : e ∈ number runId shown) :
    ∃ cursor, e.runId = runId ∧ e.eventId = runId.text ++ ':' :: cursor := by
  obtain ⟨i, hi, rfl⟩ := List.mem_iff_getElem.mp h
  simp only [number, List.getElem_mapIdx]
  exact ⟨_, rfl, rfl⟩

theorem resumeAfterEvent_split {events received rest : List PublicAgentEvent}
    {e : PublicAgentEvent} {runId : UUID} {shown : List (Datetime × PublicAgentEventPayload)}
    (hevents : events = number runId shown) (hsplit : events = received ++ e :: rest) :
    resumeAfterEvent events (some e.eventId) = some rest := by
  have hnodup := number_nodup runId shown
  have hmem : e ∈ number runId shown := by rw [← hevents, hsplit]; simp
  obtain ⟨cursor, -, hid⟩ := number_mem hmem
  rw [← hevents, hsplit, List.map_append, List.map_cons] at hnodup
  have hnot : ∀ a ∈ received, a.eventId ≠ e.eventId := by
    intro a ha he
    have hdisjoint := List.disjoint_of_nodup_append hnodup
    exact hdisjoint (List.mem_map_of_mem ha) (by rw [he]; exact List.mem_cons_self)
  have hfind : events.findIdx? (fun a ↦ a.eventId = e.eventId) = some received.length := by
    rw [hsplit, List.findIdx?_append, List.findIdx?_eq_none_iff.mpr fun a ha ↦ by
      simpa using hnot a ha]
    simp [List.findIdx?_cons]
  have hdrop : events.drop (received.length + 1) = rest := by rw [hsplit]; simp
  have hfirst : ∀ first others, events = first :: others → first.runId = runId := by
    intro first others he
    have : first ∈ number runId shown := by rw [← hevents, he]; simp
    obtain ⟨-, h, -⟩ := number_mem this
    exact h
  cases he : events with
  | nil => rw [hsplit] at he; simp at he
  | cons first others =>
    have hr := hfirst first others he
    have hpre : (first.runId.text ++ [':']).isPrefixOf e.eventId = true := by
      rw [List.isPrefixOf_iff_prefix, hr, hid]
      exact ⟨cursor, by simp⟩
    rw [he] at hfind hdrop
    simp only [resumeAfterEvent, hpre, hfind, hdrop, ↓reduceIte]

theorem cursorStable_iff {runId : UUID} {s t : List (Datetime × PublicAgentEventPayload)}
    (hs : s ≠ []) : CursorStable (number runId s) (number runId t) ↔ s <+: t := by
  constructor
  · intro h
    have hne : number runId s ≠ [] := by simpa [number] using hs
    have hlast := List.dropLast_append_getLast hne
    obtain ⟨-, rest, -, hrest⟩ := h _ _ [] hlast.symm
    have hpre : number runId s <+: number runId t := ⟨rest, by rw [← hrest, List.append_cons, hlast]⟩
    exact number_prefix hpre
  · rintro ⟨u, rfl⟩ received e missing he
    obtain ⟨rest, hrest⟩ := number_append runId s u
    have hsplit : number runId (s ++ u) = received ++ e :: (missing ++ rest) := by
      rw [hrest, he]; simp
    refine ⟨fun e' he' hid ↦ ?_, _, resumeAfterEvent_split rfl hsplit, hsplit.symm⟩
    exact List.inj_on_of_nodup_map (number_nodup runId (s ++ u)) he' (by rw [hsplit]; simp) hid

def outcomeDraft (e : AgentToolExecution) : Option Draft :=
  match e.status with
  | .inProgress => none
  | .completed => e.completedAt.bind fun t ↦ e.resultSummary.map (resultDraft e t)
  | .failed | .unknown => e.completedAt.bind fun t ↦ e.errorCode.map (errorDraft e t)

def rowDrafts (e : AgentToolExecution) : List Draft := startedDraft e :: (outcomeDraft e).toList

/-- The drafts of all rows, in the order in which they are collected. -/
def Records.drafts (r : Records) : List Draft :=
  (runStatusDraft r.run :: (nodeDraft r.run).toList) ++ r.approvals.filterMap approvalDraft ++
    r.executions.flatMap rowDrafts ++ [metricsDraft r.run, lastDraft r.run]

theorem executionDrafts_eq {e : AgentToolExecution} (h : e.constraints = true) :
    executionDrafts e = some (rowDrafts e) := by
  simp only [AgentToolExecution.constraints, Bool.and_eq_true] at h
  obtain ⟨-, h⟩ := h
  cases hs : e.status <;>
    simp only [hs, Bool.and_eq_true, Option.isSome_iff_exists, Option.isNone_iff_eq_none] at h
  · simp [executionDrafts, rowDrafts, outcomeDraft, hs]
  · obtain ⟨⟨⟨-, s, hr⟩, -⟩, t, ht⟩ := h
    simp [executionDrafts, rowDrafts, outcomeDraft, hs, hr, ht]
  · obtain ⟨⟨-, c, hc⟩, t, ht⟩ := h
    simp [executionDrafts, rowDrafts, outcomeDraft, hs, hc, ht]
  · obtain ⟨⟨-, c, hc⟩, t, ht⟩ := h
    simp [executionDrafts, rowDrafts, outcomeDraft, hs, hc, ht]

theorem allExecutionDrafts_eq {executions : List AgentToolExecution}
    (h : ∀ e ∈ executions, e.constraints = true) :
    allExecutionDrafts executions = some (executions.flatMap rowDrafts) := by
  induction executions with
  | nil => rfl
  | cons e executions ih =>
    have he := executionDrafts_eq (h e List.mem_cons_self)
    have hr := ih fun e' he' ↦ h e' (List.mem_cons_of_mem e he')
    simp [allExecutionDrafts, he, hr]

theorem number_shown (runId : UUID) (drafts : List Draft) :
    drafts.mapIdx (fun i d ↦ event runId (i + 1) d) = number runId (drafts.map Draft.shown) := by
  apply List.ext_getElem <;> simp [number, shownEvent, event, Draft.shown]

theorem getOwnedAgentEvents_eq (r : Persisted) :
    getOwnedAgentEvents r.toRecords =
      some (number r.run.id ((r.drafts.insertionSort Draft.le).map Draft.shown)) := by
  have ha : r.approvals.take 3 = r.approvals := List.take_of_length_le r.approvalCount
  have he : r.executions.take maxPublicToolExecutions = r.executions :=
    List.take_of_length_le (r.executionCount.trans (by decide))
  rw [getOwnedAgentEvents, ha, he, buildPublicAgentEvents, allExecutionDrafts_eq r.executionsValid]
  exact congrArg some (number_shown r.run.id _)

theorem keyLe_total (k l : Key) : keyLe k l ∨ keyLe l k := by
  unfold keyLe
  obtain h | h | h := lt_trichotomy k.1 l.1
  · exact .inl (.inl h)
  · obtain h' | h' | h' := lt_trichotomy k.2.1 l.2.1
    · exact .inl (.inr ⟨h, .inl h'⟩)
    · obtain ht | ht := leText_total k.2.2 l.2.2
      · exact .inl (.inr ⟨h, .inr ⟨h', ht⟩⟩)
      · exact .inr (.inr ⟨h.symm, .inr ⟨h'.symm, ht⟩⟩)
    · exact .inr (.inr ⟨h.symm, .inl h'⟩)
  · exact .inr (.inl h)

theorem keyLe_trans {k l m : Key} (hkl : keyLe k l) (hlm : keyLe l m) : keyLe k m := by
  unfold keyLe at *
  obtain h | ⟨h, h' | ⟨h', ht⟩⟩ := hkl <;> obtain g | ⟨g, g' | ⟨g', gt⟩⟩ := hlm
  · exact .inl (h.trans g)
  · exact .inl (g ▸ h)
  · exact .inl (g ▸ h)
  · exact .inl (h ▸ g)
  · exact .inr ⟨h.trans g, .inl (h'.trans g')⟩
  · exact .inr ⟨h.trans g, .inl (g' ▸ h')⟩
  · exact .inl (h ▸ g)
  · exact .inr ⟨h.trans g, .inl (h' ▸ g')⟩
  · exact .inr ⟨h.trans g, .inr ⟨h'.trans g', leText_trans ht gt⟩⟩

theorem keyLe_antisymm {k l : Key} (hkl : keyLe k l) (hlk : keyLe l k) : k = l := by
  unfold keyLe at *
  obtain h | ⟨h, h' | ⟨h', ht⟩⟩ := hkl <;> obtain g | ⟨g, g' | ⟨g', gt⟩⟩ := hlk <;> try omega
  exact Prod.ext h (Prod.ext h' (leText_antisymm ht gt))

instance : Std.Total Draft.le := ⟨fun d e ↦ keyLe_total d.key e.key⟩

instance : IsTrans Draft Draft.le := ⟨fun _ _ _ ↦ keyLe_trans⟩

theorem before_or_before {d e : Draft} (h : d.key ≠ e.key) :
    Before Draft.le d e ∨ Before Draft.le e d := by
  obtain hde | hed := keyLe_total d.key e.key
  · exact .inl ⟨hde, fun hed ↦ h (keyLe_antisymm hde hed)⟩
  · exact .inr ⟨hed, fun hde ↦ h (keyLe_antisymm hde hed)⟩

theorem approvalDraft_key {a : AgentApproval} {d : Draft} (h : approvalDraft a = some d) :
    d.order = 25 ∧ d.stableKey = "approval:".toList ++ a.id.text := by
  simp only [approvalDraft, Option.ite_none_right_eq_some, Option.some.injEq] at h
  obtain ⟨-, rfl⟩ := h
  exact ⟨rfl, rfl⟩

theorem outcomeDraft_key {e : AgentToolExecution} {d : Draft} (h : outcomeDraft e = some d) :
    d.order = 40 ∧ ∃ suffix, d.stableKey = e.id.text ++ suffix := by
  unfold outcomeDraft at h
  cases hs : e.status <;>
    simp only [hs, reduceCtorEq, Option.bind_eq_some_iff, Option.map_eq_some_iff] at h
  all_goals
    obtain ⟨t, -, s, -, rfl⟩ := h
    exact ⟨rfl, _, rfl⟩

theorem mem_drafts {r : Records} {d : Draft} (h : d ∈ r.drafts) :
    (d.order ∈ [10, 20, 80, 90] ∧ d.occurredAt = r.run.updatedAt) ∨
    (∃ a ∈ r.approvals, approvalDraft a = some d) ∨
    ∃ e ∈ r.executions, d = startedDraft e ∨ outcomeDraft e = some d := by
  simp only [Records.drafts, List.mem_append, List.mem_cons, List.mem_filterMap, List.mem_flatMap,
    Option.mem_toList, nodeDraft, Option.map_eq_some_iff, rowDrafts, List.not_mem_nil,
    or_false] at h
  obtain (((rfl | ⟨node, -, rfl⟩) | ha) | ⟨e, he, hd⟩) | rfl | rfl := h
  · exact .inl ⟨by simp [runStatusDraft], rfl⟩
  · exact .inl ⟨by simp, rfl⟩
  · exact .inr (.inl ha)
  · exact .inr (.inr ⟨e, he, hd⟩)
  · exact .inl ⟨by simp [metricsDraft], rfl⟩
  · refine .inl ?_
    unfold lastDraft
    split <;> simp

theorem approval_key_ne {r : Records} {a : AgentApproval} {d : Draft}
    (ha : ∀ b ∈ r.approvals, b.id ≠ a.id) (hd : approvalDraft a = some d) :
    ∀ e ∈ r.drafts, e.key ≠ d.key := by
  intro e he hk
  obtain ⟨ho, ht⟩ := approvalDraft_key hd
  simp only [Draft.key, Prod.mk.injEq, ho, ht] at hk
  obtain ⟨-, ho', ht'⟩ := hk
  obtain ⟨hm, -⟩ | ⟨b, hb, hbd⟩ | ⟨x, -, rfl | hx⟩ := mem_drafts he
  · simp [ho'] at hm
  · rw [(approvalDraft_key hbd).2] at ht'
    exact ha b hb (UUID.text_injective (List.append_cancel_left ht'))
  · simp [startedDraft] at ho'
  · rw [(outcomeDraft_key hx).1] at ho'
    omega

theorem started_key_ne {r : Records} {x : AgentToolExecution}
    (hx : ∀ y ∈ r.executions, y.id ≠ x.id) : ∀ e ∈ r.drafts, e.key ≠ (startedDraft x).key := by
  intro e he hk
  simp only [Draft.key, Prod.mk.injEq] at hk
  obtain ⟨-, ho, ht⟩ := hk
  obtain ⟨hm, -⟩ | ⟨b, -, hbd⟩ | ⟨y, hy, rfl | hyd⟩ := mem_drafts he
  · rw [ho] at hm
    simp [startedDraft] at hm
  · rw [(approvalDraft_key hbd).1] at ho
    simp [startedDraft] at ho
  · exact hx y hy (UUID.text_append_inj ht)
  · rw [(outcomeDraft_key hyd).1] at ho
    simp [startedDraft] at ho

theorem outcome_key_ne {r : Records} {x : AgentToolExecution} {d : Draft}
    (hd : outcomeDraft x = some d)
    (hx : ∀ y ∈ r.executions, y.id = x.id → outcomeDraft y = none) :
    ∀ e ∈ r.drafts, e.key ≠ d.key := by
  intro e he hk
  obtain ⟨ho, suffix, ht⟩ := outcomeDraft_key hd
  simp only [Draft.key, Prod.mk.injEq, ho, ht] at hk
  obtain ⟨-, ho', ht'⟩ := hk
  obtain ⟨hm, -⟩ | ⟨b, -, hbd⟩ | ⟨y, hy, rfl | hyd⟩ := mem_drafts he
  · simp [ho'] at hm
  · rw [(approvalDraft_key hbd).1] at ho'
    omega
  · simp [startedDraft] at ho'
  · obtain ⟨-, suffix', hty⟩ := outcomeDraft_key hyd
    rw [hty] at ht'
    have hnone := hx y hy (UUID.text_append_inj ht')
    rw [hyd] at hnone
    cases hnone

theorem map_edit_split {α : Type*} (key : α → UUID) (p : α → Prop) [DecidablePred p]
    (edit : α → α) {l : List α} (hn : (l.map key).Nodup) {id : UUID}
    (h : (l.any fun a ↦ key a = id ∧ p a) = true) :
    ∃ x a y, l = x ++ a :: y ∧ key a = id ∧ p a ∧ (∀ b ∈ x ++ y, key b ≠ id) ∧
      (l.map fun a ↦ if key a = id then edit a else a) = x ++ edit a :: y := by
  obtain ⟨a, ha, hp⟩ := List.any_eq_true.mp h
  obtain ⟨hid, hp⟩ := of_decide_eq_true hp
  obtain ⟨x, y, rfl⟩ := List.append_of_mem ha
  have hne : ∀ b ∈ x ++ y, key b ≠ id := by
    intro b hb he
    rw [List.map_append, List.map_cons, List.nodup_middle, List.nodup_cons] at hn
    apply hn.1
    rw [← List.map_append, hid, ← he]
    exact List.mem_map_of_mem hb
  have hkeep (z : List α) (hz : ∀ b ∈ z, key b ≠ id) :
      (z.map fun a ↦ if key a = id then edit a else a) = z := by
    rw [List.map_congr_left fun b hb ↦ if_neg (hz b hb), List.map_id']
  refine ⟨x, a, y, rfl, hid, hp, hne, ?_⟩
  rw [List.map_append, List.map_cons, if_pos hid,
    hkeep x fun b hb ↦ hne b (List.mem_append_left y hb),
    hkeep y fun b hb ↦ hne b (List.mem_append_right x hb)]

theorem editExecution_split {r r' : Records} (hn : (r.executions.map (·.id)).Nodup) {id : UUID}
    {status : AgentToolExecutionStatus} {edit : AgentToolExecution → AgentToolExecution}
    (h : editExecution r id status edit = some r') :
    ∃ x e y, r.executions = x ++ e :: y ∧ e.id = id ∧ e.status = status ∧
      (∀ b ∈ x ++ y, b.id ≠ id) ∧ r' = { r with executions := x ++ edit e :: y } := by
  simp only [editExecution, Option.ite_none_right_eq_some, Option.some.injEq] at h
  obtain ⟨hany, rfl⟩ := h
  obtain ⟨x, e, y, hs, hid, hst, hne, hm⟩ :=
    map_edit_split (·.id) (·.status = status) edit hn hany
  exact ⟨x, e, y, hs, hid, hst, hne, by rw [hm]⟩

/-- The event that a change adds, where it adds one and drops none. -/
def Change.newDraft (r : Records) : Change → Option Draft
  | .approvalCreated a => approvalDraft a
  | .executionStarted id toolName startedAt => some (startedDraft (createClaim id toolName startedAt))
  | .executionCompleted id taskId summary completedAt =>
    (r.executions.find? fun e ↦ e.id = id).bind fun e ↦
      outcomeDraft (complete e taskId summary completedAt)
  | .executionFailed id status errorCode completedAt =>
    (r.executions.find? fun e ↦ e.id = id).bind fun e ↦
      outcomeDraft (fail e status errorCode completedAt)
  | .runUpdated _ | .approvalDecided _ _ _ _ | .executionRestarted _ _ => none

/-- The change only adds an event, dated after all that the rows show before
it, or looking the same as those it is dated before. -/
def Change.AppendsTo (r : Records) (c : Change) : Prop :=
  ∃ d, c.newDraft r = some d ∧ ∀ e ∈ r.drafts, Before Draft.le e d ∨ e.shown = d.shown

/-- What is shown before stays a prefix of what is shown after. -/
def Records.Extends (r r' : Records) : Prop :=
  (r.drafts.insertionSort Draft.le).map Draft.shown <+:
    (r'.drafts.insertionSort Draft.le).map Draft.shown

theorem extends_of_split {r r' : Records} (d : Draft) (l₁ l₂ : List Draft)
    (hr : r.drafts = l₁ ++ l₂) (hr' : r'.drafts = l₁ ++ d :: l₂)
    (hne : ∀ e ∈ r.drafts, e.key ≠ d.key) :
    r.Extends r' ↔ ∀ e ∈ r.drafts, Before Draft.le e d ∨ e.shown = d.shown := by
  unfold Records.Extends
  rw [hr, hr']
  rw [hr] at hne
  exact map_insertionSort_prefix_iff Draft.shown l₁ l₂ fun e he ↦ before_or_before (hne e he)

theorem length_le_of_extends {r r' : Records} (h : r.Extends r') :
    r.drafts.length ≤ r'.drafts.length := by
  have := h.length_le
  rwa [List.length_map, List.length_map, List.length_insertionSort,
    List.length_insertionSort] at this

theorem not_extends_of_run_updated {r r' : Records} (h : r.run.updatedAt < r'.run.updatedAt) :
    ¬ r.Extends r' := by
  intro he
  have hmem : runStatusDraft r.run ∈ r.drafts := by simp [Records.drafts]
  have hshown : (runStatusDraft r.run).shown ∈
      (r'.drafts.insertionSort Draft.le).map Draft.shown := by
    apply he.subset
    exact List.mem_map_of_mem ((List.perm_insertionSort _ _).mem_iff.mpr hmem)
  obtain ⟨d, hd, hds⟩ := List.mem_map.mp hshown
  simp only [Draft.shown, runStatusDraft, Prod.mk.injEq] at hds
  obtain ⟨hat, hpayload⟩ := hds
  obtain ⟨-, ho⟩ | ⟨a, -, ha⟩ | ⟨x, -, rfl | hx⟩ :=
    mem_drafts ((List.perm_insertionSort _ _).mem_iff.mp hd)
  · rw [hat] at ho
    rw [ho] at h
    exact absurd h (lt_irrefl r'.run.updatedAt.ordinal)
  · simp only [approvalDraft, Option.ite_none_right_eq_some, Option.some.injEq] at ha
    obtain ⟨-, rfl⟩ := ha
    cases hpayload
  · cases hpayload
  · unfold outcomeDraft at hx
    cases hs : x.status <;>
      simp only [hs, reduceCtorEq, Option.bind_eq_some_iff, Option.map_eq_some_iff] at hx
    all_goals
      obtain ⟨t, -, c, -, rfl⟩ := hx
      cases hpayload

theorem finished_extends_iff {r r' : Records} (hn : (r.executions.map (·.id)).Nodup) {id : UUID}
    {edit : AgentToolExecution → AgentToolExecution}
    (h : editExecution r id .inProgress edit = some r')
    (hstarted : ∀ e, startedDraft (edit e) = startedDraft e) (hid : ∀ e, (edit e).id = e.id)
    (hout : ∀ e, ∃ d, outcomeDraft (edit e) = some d) :
    r.Extends r' ↔ ∃ d, ((r.executions.find? fun e ↦ e.id = id).bind fun e ↦
      outcomeDraft (edit e)) = some d ∧
        ∀ e ∈ r.drafts, Before Draft.le e d ∨ e.shown = d.shown := by
  obtain ⟨x, e, y, hs, he, hst, hne, rfl⟩ := editExecution_split hn h
  obtain ⟨d, hd⟩ := hout e
  have hnone : outcomeDraft e = none := by simp [outcomeDraft, hst]
  have hfind : r.executions.find? (fun e ↦ e.id = id) = some e := by
    rw [hs, List.find?_append, List.find?_eq_none.mpr fun b hb ↦ by
      simpa using hne b (List.mem_append_left y hb)]
    simp [he]
  have hkey : ∀ f ∈ r.drafts, f.key ≠ d.key := by
    apply outcome_key_ne hd
    intro f hf hfid
    rw [hid, he] at hfid
    rw [hs] at hf
    obtain hf | hf := List.mem_append.mp hf
    · exact absurd hfid (hne f (List.mem_append_left y hf))
    · obtain rfl | hf := List.mem_cons.mp hf
      · exact hnone
      · exact absurd hfid (hne f (List.mem_append_right x hf))
  rw [extends_of_split d
    ((runStatusDraft r.run :: (nodeDraft r.run).toList) ++ r.approvals.filterMap approvalDraft
      ++ (x.flatMap rowDrafts ++ [startedDraft e]))
    (y.flatMap rowDrafts ++ [metricsDraft r.run, lastDraft r.run]) ?_ ?_ hkey, hfind]
  · constructor
    · exact fun hb ↦ ⟨d, hd, hb⟩
    · rintro ⟨d', hd', hb⟩
      rw [Option.bind_some, hd, Option.some.injEq] at hd'
      exact hd' ▸ hb
  · simp [Records.drafts, hs, rowDrafts, hnone]
  · simp [Records.drafts, rowDrafts, hd, hstarted]

theorem not_extends_of_restart {r : Persisted} {r' : Records} {id : UUID} {startedAt : Datetime}
    (h : editExecution r.toRecords id .failed (restartFailed · startedAt) = some r') :
    ¬ r.Extends r' := by
  intro he
  have hlen := length_le_of_extends he
  obtain ⟨x, e, y, hs, -, hst, -, rfl⟩ := editExecution_split r.executionIds h
  have hv := r.executionsValid e (by rw [hs]; simp)
  have hout : ∃ d, outcomeDraft e = some d := by
    simp only [AgentToolExecution.constraints, hst, Bool.and_eq_true,
      Option.isSome_iff_exists] at hv
    obtain ⟨-, ⟨-, c, hc⟩, t, ht⟩ := hv
    exact ⟨errorDraft e t c, by simp [outcomeDraft, hst, hc, ht]⟩
  obtain ⟨d, hd⟩ := hout
  have hnone : outcomeDraft (restartFailed e startedAt) = none := rfl
  simp only [Records.drafts, hs, List.flatMap_append, List.flatMap_cons, rowDrafts, hd, hnone,
    Option.toList_some, Option.toList_none, List.length_append, List.length_cons,
    List.length_nil] at hlen
  omega

theorem not_extends_of_decision {r r' : Records} (ids : (r.approvals.map (·.id)).Nodup)
    {id : UUID} {decision : AgentApprovalStatus} {feedback : Option Text} {decidedAt : Datetime}
    (h : Change.apply r (.approvalDecided id decision feedback decidedAt) = some r') :
    ¬ r.Extends r' := by
  intro he
  have hlen := length_le_of_extends he
  simp only [Change.apply, Option.ite_none_right_eq_some, Option.some.injEq] at h
  obtain ⟨⟨hd, hany⟩, rfl⟩ := h
  obtain ⟨x, a, y, hs, -, hp, -, hm⟩ := map_edit_split (·.id) (·.decision = .pending)
    (fun a : AgentApproval ↦
      { a with decision := decision, feedback := feedback, decidedAt := some decidedAt }) ids hany
  have hbefore : (approvalDraft a).isSome = true := by simp [approvalDraft, hp]
  obtain ⟨d, hbefore⟩ := Option.isSome_iff_exists.mp hbefore
  rw [Records.drafts, Records.drafts, hm, hs] at hlen
  simp only [List.filterMap_append, List.filterMap_cons, hbefore] at hlen
  simp only [approvalDraft, hd, ↓reduceIte, List.length_append, List.length_cons] at hlen
  omega

theorem approvalCreated_extends_iff {r r' : Records} {a : AgentApproval}
    (ids : (r'.approvals.map (·.id)).Nodup)
    (h : Change.apply r (.approvalCreated a) = some r') :
    r.Extends r' ↔ (Change.approvalCreated a).AppendsTo r := by
  simp only [Change.apply, Option.ite_none_right_eq_some, Option.some.injEq] at h
  obtain ⟨hp, rfl⟩ := h
  obtain ⟨d, hd⟩ : ∃ d, approvalDraft a = some d := ⟨_, if_pos hp⟩
  have hnew : ∀ b ∈ r.approvals, b.id ≠ a.id := by
    intro b hb he
    simp only [List.map_append, List.map_cons, List.map_nil] at ids
    have := (List.disjoint_of_nodup_append ids) (List.mem_map_of_mem hb)
    simp [he] at this
  rw [extends_of_split d
    ((runStatusDraft r.run :: (nodeDraft r.run).toList) ++ r.approvals.filterMap approvalDraft)
    (r.executions.flatMap rowDrafts ++ [metricsDraft r.run, lastDraft r.run]) ?_ ?_
    (approval_key_ne hnew hd), Change.AppendsTo]
  · simp only [Change.newDraft, hd, Option.some.injEq, exists_eq_left']
  · simp [Records.drafts]
  · simp [Records.drafts, hd]

theorem executionStarted_extends_iff {r r' : Records} {id : UUID} {toolName : AgentWriteToolName}
    {startedAt : Datetime} (ids : (r'.executions.map (·.id)).Nodup)
    (h : Change.apply r (.executionStarted id toolName startedAt) = some r') :
    r.Extends r' ↔ (Change.executionStarted id toolName startedAt).AppendsTo r := by
  simp only [Change.apply, Option.some.injEq] at h
  subst h
  have hnew : ∀ b ∈ r.executions, b.id ≠ (createClaim id toolName startedAt).id := by
    intro b hb he
    simp only [List.map_append, List.map_cons, List.map_nil] at ids
    have := (List.disjoint_of_nodup_append ids) (List.mem_map_of_mem hb)
    simp [he] at this
  have hnone : outcomeDraft (createClaim id toolName startedAt) = none := rfl
  rw [extends_of_split (startedDraft (createClaim id toolName startedAt))
    ((runStatusDraft r.run :: (nodeDraft r.run).toList) ++ r.approvals.filterMap approvalDraft
      ++ r.executions.flatMap rowDrafts)
    [metricsDraft r.run, lastDraft r.run] ?_ ?_ (started_key_ne hnew), Change.AppendsTo]
  · simp only [Change.newDraft, Option.some.injEq, exists_eq_left']
  · simp [Records.drafts]
  · simp [Records.drafts, rowDrafts, hnone]

theorem extends_iff_appendsTo {r r' : Persisted} {c : Change}
    (h : c.apply r.toRecords = some r'.toRecords) :
    r.Extends r'.toRecords ↔ c.AppendsTo r.toRecords := by
  cases c with
  | runUpdated run =>
    simp only [Change.apply, Option.ite_none_right_eq_some, Option.some.injEq] at h
    obtain ⟨⟨-, hlt⟩, h⟩ := h
    have hrun : r'.run = run := by rw [← h]
    rw [← hrun] at hlt
    exact iff_of_false (not_extends_of_run_updated hlt) (by simp [Change.AppendsTo, Change.newDraft])
  | approvalCreated a => exact approvalCreated_extends_iff r'.approvalIds h
  | approvalDecided id decision feedback decidedAt =>
    exact iff_of_false (not_extends_of_decision r.approvalIds h)
      (by simp [Change.AppendsTo, Change.newDraft])
  | executionStarted id toolName startedAt => exact executionStarted_extends_iff r'.executionIds h
  | executionCompleted id taskId summary completedAt =>
    exact finished_extends_iff r.executionIds h (fun _ ↦ rfl) (fun _ ↦ rfl) fun _ ↦ ⟨_, rfl⟩
  | executionFailed id status errorCode completedAt =>
    simp only [Change.apply, Option.ite_none_right_eq_some] at h
    obtain ⟨rfl | rfl, h⟩ := h
    · exact finished_extends_iff r.executionIds h (fun _ ↦ rfl) (fun _ ↦ rfl) fun _ ↦ ⟨_, rfl⟩
    · exact finished_extends_iff r.executionIds h (fun _ ↦ rfl) (fun _ ↦ rfl) fun _ ↦ ⟨_, rfl⟩
  | executionRestarted id startedAt =>
    exact iff_of_false (not_extends_of_restart h) (by simp [Change.AppendsTo, Change.newDraft])

theorem apply_run_id {r r' : Records} {c : Change} (h : c.apply r = some r') :
    r'.run.id = r.run.id := by
  cases c <;>
    simp only [Change.apply, editExecution, Option.ite_none_right_eq_some, Option.some.injEq] at h
  case runUpdated run => obtain ⟨⟨hid, -⟩, rfl⟩ := h; exact hid
  case approvalCreated => obtain ⟨-, rfl⟩ := h; rfl
  case approvalDecided => obtain ⟨-, rfl⟩ := h; rfl
  case executionStarted => rw [← h]
  case executionCompleted => obtain ⟨-, rfl⟩ := h; rfl
  case executionFailed => obtain ⟨-, -, rfl⟩ := h; rfl
  case executionRestarted => obtain ⟨-, rfl⟩ := h; rfl

theorem drafts_ne_nil (r : Records) : (r.drafts.insertionSort Draft.le).map Draft.shown ≠ [] := by
  intro h
  have hlen := congrArg List.length h
  rw [List.length_map, List.length_insertionSort] at hlen
  simp [Records.drafts] at hlen

/-- Cursors stay valid across a change of the rows exactly when it appends. -/
theorem cursorStable_iff_appendsTo (r r' : Persisted) (c : Change)
    (h : c.apply r.toRecords = some r'.toRecords) :
    ∃ earlier later, getOwnedAgentEvents r.toRecords = some earlier ∧
      getOwnedAgentEvents r'.toRecords = some later ∧
      (CursorStable earlier later ↔ c.AppendsTo r.toRecords) := by
  refine ⟨_, _, getOwnedAgentEvents_eq r, getOwnedAgentEvents_eq r', ?_⟩
  rw [apply_run_id h, cursorStable_iff (drafts_ne_nil r.toRecords)]
  exact extends_iff_appendsTo h

def sampleMetrics : MetricColumns := noMetrics zeroFloat

def sampleRun (status : AgentRunStatus) (updatedAt : Datetime) : AgentRun :=
  ⟨sampleId 1, sampleId 2, status, none, none, none, sampleMetrics, updatedAt⟩

def samplePersisted (status : AgentRunStatus) (updatedAt : Datetime) : Persisted where
  run := sampleRun status updatedAt
  approvals := []
  executions := []
  approvalIds := by simp
  approvalCount := by simp
  executionIds := by simp
  executionCount := by simp
  executionsValid := by simp

def sampleStarted : Persisted where
  run := sampleRun .running (sampleInstant 0)
  approvals := []
  executions := [createClaim (sampleId 3) .createTask (sampleInstant 5)]
  approvalIds := by simp
  approvalCount := by simp
  executionIds := by simp
  executionCount := by simp
  executionsValid := by decide

theorem cursorStable_iff_appendsTo_sample :
    ∃ earlier later, getOwnedAgentEvents (samplePersisted .running (sampleInstant 0)).toRecords =
        some earlier ∧ getOwnedAgentEvents sampleStarted.toRecords = some later ∧
      (CursorStable earlier later ↔ (Change.executionStarted (sampleId 3) .createTask
        (sampleInstant 5)).AppendsTo (samplePersisted .running (sampleInstant 0)).toRecords) :=
  cursorStable_iff_appendsTo (samplePersisted .running (sampleInstant 0)) sampleStarted
    (.executionStarted (sampleId 3) .createTask (sampleInstant 5)) rfl

def earlierEvents : List PublicAgentEvent :=
  number (sampleId 1) [(sampleInstant 0, .runStatus .running),
    (sampleInstant 0, .metrics sampleMetrics.toAgentRunMetricsSnapshot), (sampleInstant 0, .heartbeat)]

def laterEvents : List PublicAgentEvent :=
  number (sampleId 1) [(sampleInstant 7, .runStatus .succeeded),
    (sampleInstant 7, .metrics sampleMetrics.toAgentRunMetricsSnapshot),
    (sampleInstant 7, .terminalResult .succeeded none)]

/-- A run finishes: its three events move on under the ids issued before, and
a client that has seen those never learns of the result. -/
theorem cursor_moves_when_run_finishes :
    (Change.runUpdated (sampleRun .succeeded (sampleInstant 7))).apply
        (samplePersisted .running (sampleInstant 0)).toRecords =
      some (samplePersisted .succeeded (sampleInstant 7)).toRecords ∧
    getOwnedAgentEvents (samplePersisted .running (sampleInstant 0)).toRecords =
      some earlierEvents ∧
    getOwnedAgentEvents (samplePersisted .succeeded (sampleInstant 7)).toRecords =
      some laterEvents ∧
    (∃ last ∈ earlierEvents, last ∉ laterEvents ∧
      resumeAfterEvent laterEvents (some last.eventId) = some []) ∧
    ¬ CursorStable earlierEvents laterEvents := by
  refine ⟨rfl, by decide, by decide, by decide, fun h ↦ ?_⟩
  obtain ⟨hsame, -⟩ := h [] _ _ rfl
  exact absurd (hsame _ List.mem_cons_self rfl) (by decide)

end LearningTasks.Services.AgentEvents
