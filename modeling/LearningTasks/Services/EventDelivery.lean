import LearningTasks.Library.EventStream
import LearningTasks.Library.Transition
import LearningTasks.Services.AgentEvents

namespace LearningTasks.Services.EventDelivery

open Library.Strings Library.Serialization Library.Transition Library.EventStream Schemas.Scalars
  Models.Agent AgentEvents

inductive PublicAgentEventType
  | runStatus
  | nodeStatus
  | toolStarted
  | toolResult
  | approvalRequired
  | metrics
  | heartbeat
  | terminalResult
  | safeError
  deriving DecidableEq

def PublicAgentEventType.value : PublicAgentEventType → Text
  | .runStatus => "run_status".toList
  | .nodeStatus => "node_status".toList
  | .toolStarted => "tool_started".toList
  | .toolResult => "tool_result".toList
  | .approvalRequired => "approval_required".toList
  | .metrics => "metrics".toList
  | .heartbeat => "heartbeat".toList
  | .terminalResult => "terminal_result".toList
  | .safeError => "safe_error".toList

/-- The `kind` of a payload, which is the type of its event. -/
def kind : PublicAgentEventPayload → PublicAgentEventType
  | .runStatus _ => .runStatus
  | .nodeStatus _ => .nodeStatus
  | .toolStarted _ => .toolStarted
  | .toolResult _ _ _ => .toolResult
  | .approvalRequired _ _ => .approvalRequired
  | .metrics _ => .metrics
  | .heartbeat => .heartbeat
  | .terminalResult _ _ => .terminalResult
  | .safeError _ => .safeError

def metricsJson (m : AgentRunMetricsSnapshot) : Json :=
  .obj [("model_round_count".toList, .int m.modelRoundCount),
    ("provider_attempt_count".toList, .int m.providerAttemptCount),
    ("tool_call_count".toList, .int m.toolCallCount),
    ("input_tokens".toList, .int m.inputTokens),
    ("output_tokens".toList, .int m.outputTokens),
    ("total_tokens".toList, .int m.totalTokens),
    ("latency_ms".toList, .float m.latencyMs)]

def textOrNull : Option Text → Json
  | none => .null
  | some s => .str s

def payloadFields : PublicAgentEventPayload → Fields
  | .runStatus status => [("status".toList, .str status.value)]
  | .nodeStatus node => [("node".toList, .str node.value)]
  | .toolStarted toolName => [("tool_name".toList, .str toolName.value)]
  | .toolResult toolName status summary =>
    [("tool_name".toList, .str toolName.value), ("status".toList, .str status.value),
      ("summary".toList, .str summary)]
  | .approvalRequired revision proposalFingerprint =>
    [("revision".toList, .int revision), ("proposal_fingerprint".toList, .str proposalFingerprint)]
  | .metrics metrics => [("metrics".toList, metricsJson metrics)]
  | .heartbeat => []
  | .terminalResult status summary =>
    [("status".toList, .str status.value), ("summary".toList, textOrNull summary)]
  | .safeError errorCode => [("error_code".toList, .str errorCode)]

def payloadJson (p : PublicAgentEventPayload) : Json :=
  .obj (("kind".toList, .str (kind p).value) :: payloadFields p)

def agentEventVersion : Text := "agent-event.v1".toList

def eventJson (e : PublicAgentEvent) : Json :=
  .obj [("version".toList, .str agentEventVersion),
    ("event_id".toList, .str e.eventId),
    ("sequence".toList, .int e.sequence),
    ("run_id".toList, .str e.runId.text),
    ("event_type".toList, .str (kind e.payload).value),
    ("occurred_at".toList, .str e.occurredAt.iso),
    ("payload".toList, payloadJson e.payload)]

def modelDumpJson (e : PublicAgentEvent) : Text := dumps (eventJson e)

def sseEvent (e : PublicAgentEvent) : Text :=
  "id: ".toList ++ e.eventId ++ ['\n'] ++
    ("event: ".toList ++ (kind e.payload).value ++ ['\n']) ++
    ("data: ".toList ++ modelDumpJson e ++ ['\n', '\n'])

def iterSseEvents (events : List PublicAgentEvent) : List Text := events.map sseEvent

def maxLastEventIdLength : ℕ := 128

/-- No result stands for a refused request. -/
def streamRunEvents (r : Records) (lastEventId : Option Text) : Option (List Text) :=
  if lastEventId.all (·.length ≤ maxLastEventIdLength) then do
    let events ← getOwnedAgentEvents r
    let resumed ← resumeAfterEvent events lastEventId
    return iterSseEvents resumed
  else none

def messageOf (e : PublicAgentEvent) : Message :=
  ⟨e.eventId, (kind e.payload).value, modelDumpJson e⟩

theorem PublicAgentEventType.eq_of_value {s t : PublicAgentEventType} (h : s.value = t.value) :
    s = t := by
  cases s <;> cases t <;> first | rfl | exact absurd h (by decide)

theorem textOrNull_injective {s t : Option Text} (h : textOrNull s = textOrNull t) : s = t := by
  cases s <;> cases t <;> simp_all [textOrNull]

theorem metricsJson_injective {m n : AgentRunMetricsSnapshot} (h : metricsJson m = metricsJson n) :
    m = n := by
  cases m
  cases n
  simpa [metricsJson] using h

theorem payloadJson_injective {p q : PublicAgentEventPayload} (h : payloadJson p = payloadJson q) :
    p = q := by
  simp only [payloadJson, Json.obj.injEq, List.cons.injEq, Prod.mk.injEq, Json.str.injEq,
    true_and] at h
  obtain ⟨hkind, hfields⟩ := h
  have hsame := PublicAgentEventType.eq_of_value hkind
  -- the kinds tell the constructors apart
  cases p <;> cases q <;> cases hsame
  all_goals
    simp only [payloadFields, List.cons.injEq, Prod.mk.injEq, Json.str.injEq, Json.int.injEq,
      Nat.cast_inj, true_and, and_true] at hfields
  case runStatus => rw [AgentRunStatus.eq_of_value hfields]
  case nodeStatus => rw [AgentRunNode.eq_of_value hfields]
  case toolStarted => rw [AgentWriteToolName.eq_of_value hfields]
  case toolResult =>
    obtain ⟨htool, hstatus, rfl⟩ := hfields
    rw [AgentWriteToolName.eq_of_value htool, AgentToolExecutionStatus.eq_of_value hstatus]
  case approvalRequired =>
    obtain ⟨rfl, rfl⟩ := hfields
    rfl
  case metrics => rw [metricsJson_injective hfields]
  case heartbeat => rfl
  case terminalResult =>
    obtain ⟨hstatus, hsummary⟩ := hfields
    rw [AgentRunStatus.eq_of_value hstatus, textOrNull_injective hsummary]
  case safeError => rw [hfields]

theorem modelDumpJson_injective {e f : PublicAgentEvent} (h : modelDumpJson e = modelDumpJson f) :
    e = f := by
  have hjson := dumps_injective h
  simp only [eventJson, Json.obj.injEq, List.cons.injEq, Prod.mk.injEq, Json.str.injEq,
    Json.int.injEq, Nat.cast_inj, true_and, and_true] at hjson
  obtain ⟨hid, hsequence, hrun, -, hat, hpayload⟩ := hjson
  have hiso : e.occurredAt = f.occurredAt :=
    Option.some.inj ((readDatetime_iso _).symm.trans ((congrArg _ hat).trans (readDatetime_iso _)))
  cases e
  cases f
  cases hid
  cases hsequence
  cases hiso
  cases UUID.text_injective hrun
  cases payloadJson_injective hpayload
  rfl

theorem messageOf_injective {e f : PublicAgentEvent} (h : messageOf e = messageOf f) : e = f :=
  modelDumpJson_injective (congrArg Message.data h)

theorem printable_unbroken {s : Text} (h : Printable s) : Unbroken s := by
  intro c hc
  have hlow := h c hc
  constructor
  all_goals
    rintro rfl
    exact absurd hlow (by decide)

theorem PublicAgentEventType.value_printable (t : PublicAgentEventType) :
    Printable t.value ∧ t.value ≠ [] := by
  cases t <;> decide

theorem eventId_printable (runId : UUID) (n : ℕ) :
    Printable (runId.text ++ ':' :: padded 8 (natRepr n)) := by
  have hdigit : ∀ k < 16, 32 ≤ (Nat.digitChar k).toNat := by decide
  refine .append (fun c hc ↦ ?_) (.cons (by decide) (.append (fun c hc ↦ ?_) ?_))
  · rcases UUID.mem_text hc with rfl | ⟨k, hk, rfl⟩
    · decide
    · exact hdigit k hk
  · rw [(List.mem_replicate.mp hc).2]
    decide
  · refine .of_numeric fun c hc ↦ ?_
    simp [isNumberChar, natRepr_isDigit hc]

def frameOf (e : PublicAgentEvent) (h : Printable e.eventId) : Frame where
  toMessage := messageOf e
  id_unbroken := printable_unbroken h
  type_unbroken := printable_unbroken (kind e.payload).value_printable.1
  data_unbroken := printable_unbroken (dumps_printable (eventJson e))
  id_plain := fun hc ↦ absurd (h _ hc) (by decide)
  typed := (kind e.payload).value_printable.2

theorem frames_of_events {events : List PublicAgentEvent} (h : ∀ e ∈ events, Printable e.eventId) :
    ∃ frames : List Frame, frames.map Frame.toMessage = events.map messageOf ∧
      (iterSseEvents events).flatten = encode frames := by
  induction events with
  | nil => exact ⟨[], rfl, rfl⟩
  | cons e events ih =>
    obtain ⟨frames, hmessages, htext⟩ := ih fun f hf ↦ h f (List.mem_cons_of_mem e hf)
    refine ⟨frameOf e (h e List.mem_cons_self) :: frames, ?_, ?_⟩
    · rw [List.map_cons, List.map_cons, hmessages]
      rfl
    · simp only [iterSseEvents, List.map_cons, List.flatten_cons] at htext ⊢
      rw [htext]
      simp [encode, unlines, Frame.lines, sseEvent, frameOf, messageOf]

deriving instance DecidableEq for Records

structure State where
  rows : Persisted
  client : Reader

inductive Move
  /-- A change is committed, after which the rows are the later ones. -/
  | commit (c : Change) (later : Persisted)
  /-- A request that continues after the last event received, and a connection that is
  lost after a number of characters. -/
  | connect (received : ℕ)

def step (s : State) : Move → Option State
  | .commit c later =>
    if c.apply s.rows.toRecords = some later.toRecords then some { s with rows := later } else none
  | .connect received => do
    let body ← streamRunEvents s.rows.toRecords s.client.cursor
    return { s with client := s.client.read (body.flatten.take received) }

def machine : Machine State Move where
  init s := s.client = .new
  step := step

def Appending (s : State) : Move → Prop
  | .commit c _ => c.AppendsTo s.rows.toRecords
  | .connect _ => True

def eventsOf (r : Persisted) : List PublicAgentEvent :=
  number r.run.id ((r.drafts.insertionSort Draft.le).map Draft.shown)

/-- The client has the messages of the first events, each once and in order. -/
structure Delivered (s : State) (k : ℕ) : Prop where
  bound : k ≤ (eventsOf s.rows).length
  received : s.client.dispatched = ((eventsOf s.rows).take k).map messageOf
  last : s.client.lastEventId =
    (((eventsOf s.rows).take k).getLast?.map (·.eventId)).getD []

section

variable {r r' : Persisted} {s s' : State} {k : ℕ}

theorem eventsOf_id {e : PublicAgentEvent} (h : e ∈ eventsOf r) :
    ∃ i < (eventsOf r).length, e.eventId = r.run.id.text ++ ':' :: padded 8 (natRepr (i + 1)) := by
  obtain ⟨i, hi, rfl⟩ := List.mem_iff_getElem.mp h
  refine ⟨i, hi, ?_⟩
  simp only [eventsOf, number, List.getElem_mapIdx]
  rfl

theorem outcomeDraft_length (e : AgentToolExecution) : (rowDrafts e).length ≤ 2 := by
  rw [rowDrafts, List.length_cons]
  have := Option.length_toList_le (o := outcomeDraft e)
  omega

theorem eventsOf_length (r : Persisted) : (eventsOf r).length ≤ 25 := by
  have happrovals := (List.length_filterMap_le approvalDraft r.approvals).trans r.approvalCount
  have hnode := Option.length_toList_le (o := nodeDraft r.run)
  have hexecutions : (r.executions.flatMap rowDrafts).length ≤ 2 * r.executions.length := by
    induction r.executions with
    | nil => simp
    | cons e executions ih =>
      rw [List.flatMap_cons, List.length_append, List.length_cons]
      have := outcomeDraft_length e
      omega
  have hcount := r.executionCount
  simp only [eventsOf, number, List.length_mapIdx, List.length_map, List.length_insertionSort,
    Records.drafts, List.length_append, List.length_cons, List.length_nil]
  omega

theorem eventsOf_append {c : Change} (h : c.apply r.toRecords = some r'.toRecords)
    (ha : c.AppendsTo r.toRecords) : ∃ rest, eventsOf r' = eventsOf r ++ rest := by
  obtain ⟨later, hlater⟩ := (extends_iff_appendsTo h).mpr ha
  rw [eventsOf, eventsOf, apply_run_id h, ← hlater]
  exact number_append _ _ _

theorem cursor_eq (h : Delivered s k) :
    s.client.cursor = ((eventsOf s.rows).take k).getLast?.map (·.eventId) := by
  unfold Reader.cursor
  rw [h.last]
  cases hlast : ((eventsOf s.rows).take k).getLast? with
  | none => rfl
  | some e =>
    obtain ⟨i, -, hid⟩ := eventsOf_id (List.mem_of_mem_take (List.mem_of_getLast? hlast))
    simp [hid]

theorem stream_of_delivered (h : Delivered s k) :
    streamRunEvents s.rows.toRecords s.client.cursor =
      some (iterSseEvents ((eventsOf s.rows).drop k)) := by
  have hevents : getOwnedAgentEvents s.rows.toRecords = some (eventsOf s.rows) :=
    getOwnedAgentEvents_eq s.rows
  rw [cursor_eq h]
  cases hlast : ((eventsOf s.rows).take k).getLast? with
  | none =>
    have hk : k = 0 := by
      have hnil := List.getLast?_eq_none_iff.mp hlast
      have hlength := congrArg List.length hnil
      rw [List.length_take, List.length_nil] at hlength
      have := h.bound
      omega
    subst hk
    simp [streamRunEvents, hevents, resumeAfterEvent]
  | some e =>
    obtain ⟨i, hi, hid⟩ := eventsOf_id (List.mem_of_mem_take (List.mem_of_getLast? hlast))
    have hlength : e.eventId.length ≤ maxLastEventIdLength := by
      have := eventsOf_length s.rows
      rw [hid, List.length_append, List.length_cons, UUID.length_text,
        length_padded_natRepr (by decide) (by omega)]
      decide
    obtain ⟨received, hreceived⟩ := List.getLast?_eq_some_iff.mp hlast
    have hsplit : eventsOf s.rows = received ++ e :: (eventsOf s.rows).drop k := by
      conv_lhs => rw [← List.take_append_drop k (eventsOf s.rows), hreceived]
      simp
    have hresume : resumeAfterEvent (eventsOf s.rows) (some e.eventId) =
        some ((eventsOf s.rows).drop k) := resumeAfterEvent_split rfl hsplit
    simp [streamRunEvents, hevents, hresume, hlength]

theorem read_stream (h : Delivered s k) (n : ℕ) :
    ∃ q, Delivered ⟨s.rows, s.client.read
        ((iterSseEvents ((eventsOf s.rows).drop k)).flatten.take n)⟩ (k + q) ∧
      ((iterSseEvents ((eventsOf s.rows).drop k)).flatten.length ≤ n →
        k + q = (eventsOf s.rows).length) := by
  obtain ⟨frames, hframes, hflat⟩ := @frames_of_events ((eventsOf s.rows).drop k) fun e he ↦ by
    obtain ⟨i, -, hid⟩ := eventsOf_id (List.mem_of_mem_drop he)
    rw [hid]
    exact eventId_printable _ _
  obtain ⟨q, hq, hdispatched, hlast, hall⟩ := s.client.read_cut frames n
  have hcount : frames.length = (eventsOf s.rows).length - k := by
    have hlength := congrArg List.length hframes
    simpa using hlength
  have htaken : (frames.take q).map Frame.toMessage =
      (((eventsOf s.rows).drop k).take q).map messageOf := by
    rw [List.map_take, hframes, List.map_take]
  have hbound := h.bound
  rw [hflat]
  refine ⟨q, ⟨?_, ?_, ?_⟩, fun hlong ↦ ?_⟩
  · change k + q ≤ (eventsOf s.rows).length
    omega
  · change (s.client.read _).dispatched = _
    rw [hdispatched, h.received, htaken, ← List.map_append, List.take_add]
  · change (s.client.read _).lastEventId = _
    rw [hlast, h.last, List.take_add, List.getLast?_append]
    have hids : (frames.take q).getLast?.map (·.lastEventId) =
        (((eventsOf s.rows).drop k).take q).getLast?.map (·.eventId) := by
      have hmapped := congrArg (fun messages ↦ messages.getLast?.map Message.lastEventId) htaken
      simp only [List.getLast?_map, Option.map_map] at hmapped
      exact hmapped
    rw [hids]
    cases (((eventsOf s.rows).drop k).take q).getLast? <;> rfl
  · rw [hall hlong]
    omega

theorem step_connect (h : Delivered s k) (n : ℕ) :
    step s (.connect n) = some ⟨s.rows, s.client.read
      ((iterSseEvents ((eventsOf s.rows).drop k)).flatten.take n)⟩ := by
  rw [step, stream_of_delivered h]
  rfl

theorem delivered_step {i : Move} (h : Delivered s k) (hi : Appending s i)
    (hs : step s i = some s') : ∃ k', Delivered s' k' := by
  cases i with
  | commit c later =>
    simp only [step, Option.ite_none_right_eq_some, Option.some.injEq] at hs
    obtain ⟨happly, rfl⟩ := hs
    obtain ⟨rest, hrest⟩ := eventsOf_append happly hi
    have htake : (eventsOf later).take k = (eventsOf s.rows).take k := by
      rw [hrest, List.take_append_of_le_length h.bound]
    refine ⟨k, ⟨?_, ?_, ?_⟩⟩
    · change k ≤ (eventsOf later).length
      rw [hrest, List.length_append]
      exact h.bound.trans (Nat.le_add_right _ _)
    · change s.client.dispatched = ((eventsOf later).take k).map messageOf
      rw [htake, h.received]
    · change s.client.lastEventId = _
      rw [h.last]
      change _ = (((eventsOf later).take k).getLast?.map (·.eventId)).getD []
      rw [htake]
  | connect n =>
    rw [step_connect h n, Option.some.injEq] at hs
    obtain ⟨q, hq, -⟩ := read_stream h n
    exact ⟨k + q, hs ▸ hq⟩

theorem reachable_delivered (h : machine.ReachableUnder Appending s) : ∃ k, Delivered s k := by
  refine h.invariant (fun s ↦ ∃ k, Delivered s k) (fun s hs ↦ ⟨0, ?_⟩) fun s i s' hd hi hs ↦ ?_
  · have hnew : s.client = .new := hs
    exact ⟨Nat.zero_le _, by rw [hnew]; rfl, by rw [hnew]; rfl⟩
  · obtain ⟨k, hk⟩ := hd
    exact delivered_step hk hi hs

end

/-- However often its connections are lost, and wherever, a client has received the events of the
run so far without a gap and none of them twice. The data of the messages tells which these are.
Its next request is accepted, and a connection that lasts brings it up to date. -/
theorem events_delivered {s : State} (h : machine.ReachableUnder Appending s) :
    ∃ events k, getOwnedAgentEvents s.rows.toRecords = some events ∧ k ≤ events.length ∧
      s.client.dispatched = (events.take k).map messageOf ∧
      (∀ others, others.map messageOf = s.client.dispatched → others = events.take k) ∧
      ∃ body, streamRunEvents s.rows.toRecords s.client.cursor = some body ∧
        ∀ n, body.flatten.length ≤ n →
          (s.client.read (body.flatten.take n)).dispatched = events.map messageOf := by
  obtain ⟨k, hk⟩ := reachable_delivered h
  refine ⟨eventsOf s.rows, k, getOwnedAgentEvents_eq s.rows, hk.bound, hk.received,
    fun others hothers ↦ ?_, _, stream_of_delivered hk, fun n hn ↦ ?_⟩
  · rw [hk.received] at hothers
    exact List.map_injective_iff.mpr (fun e f hef ↦ messageOf_injective hef) hothers
  · obtain ⟨q, hq, hall⟩ := read_stream hk n
    have hreceived := hq.received
    change (s.client.read _).dispatched = _ at hreceived
    rw [hreceived, hall hn, List.take_length]

/-- A client whose first connection is lost, on a run that starts a tool meanwhile. -/
theorem events_delivered_sample : ∃ s events k body, machine.ReachableUnder Appending s ∧
    s.rows = sampleStarted ∧ getOwnedAgentEvents s.rows.toRecords = some events ∧
      s.client.dispatched = (events.take k).map messageOf ∧
      streamRunEvents s.rows.toRecords s.client.cursor = some body := by
  have hstart : machine.ReachableUnder Appending
      ⟨samplePersisted .running (sampleInstant 0), .new⟩ := .init rfl
  obtain ⟨k, hk⟩ := reachable_delivered hstart
  have hfree : Appending ⟨samplePersisted .running (sampleInstant 0), .new⟩ (.connect 400) :=
    trivial
  have hconnected := Machine.ReachableUnder.step hstart hfree (step_connect hk 400)
  have hnew : (Change.executionStarted (sampleId 3) .createTask (sampleInstant 5)).AppendsTo
      (samplePersisted .running (sampleInstant 0)).toRecords := by
    refine ⟨_, rfl, fun e he ↦ .inl ?_⟩
    revert e
    decide
  have happends (client : Reader) : Appending ⟨samplePersisted .running (sampleInstant 0), client⟩
      (.commit (.executionStarted (sampleId 3) .createTask (sampleInstant 5)) sampleStarted) := hnew
  have hcommitted := Machine.ReachableUnder.step hconnected (happends _)
    (show machine.step _ _ = some ⟨sampleStarted, _⟩ from rfl)
  obtain ⟨events, k', hevents, -, hreceived, -, body, hbody, -⟩ := events_delivered hcommitted
  exact ⟨_, events, k', body, hcommitted, rfl, hevents, hreceived, hbody⟩

end LearningTasks.Services.EventDelivery
