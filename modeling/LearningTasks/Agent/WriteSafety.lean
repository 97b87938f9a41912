import LearningTasks.Agent.Checkpoints

namespace LearningTasks.Agent.WriteSafety

open Library.Strings Library.Serialization Library.Transition Schemas.Scalars Models.Agent
  Agent.Schemas State Tools Approval Execution Planning Graph Checkpoints

structure Decision where
  revision : ℕ
  fingerprint : Digest
  decision : AgentApprovalDecision
  deriving DecidableEq

structure Write where
  tool : AgentWriteToolName
  arguments : Fields
  durable : Bool
  succeeded : Bool

inductive Event
  | decided (d : Decision)
  | dispatched (e : Write)

def Event.decision : Event → Option Decision
  | .decided d => some d
  | .dispatched _ => none

def Event.write : Event → Option Write
  | .decided _ => none
  | .dispatched e => some e

def decisions (log : List Event) : List Decision := log.filterMap Event.decision

def writes (log : List Event) : List Write := log.filterMap Event.write

variable {σ : Type}

def silent {α : Type} (f : σ → α × σ) : σ × List Event → α × (σ × List Event) :=
  fun w ↦ ((f w.1).1, (f w.1).2, w.2)

def loggedWrite (durable : Bool) (tool : AgentWriteToolName) (arguments : Fields)
    (f : Effect σ AgentWriteToolResult) : Effect (σ × List Event) AgentWriteToolResult := fun w ↦
  ((f w.1).1, (f w.1).2, w.2 ++ [.dispatched ⟨tool, arguments, durable,
    ((f w.1).1.bind (validateWriteToolResult tool)).toBool⟩])

/-- The host, with every decision and every call of a write tool traced. -/
def logged (host : Host σ) : Host (σ × List Event) where
  sha256 := host.sha256
  coercions := host.coercions
  context := host.context
  planning := {
    parseJson := host.planning.parseJson
    buildInput := host.planning.buildInput
    generate input := silent (host.planning.generate input)
    latency := silent host.planning.latency
    addLatency := host.planning.addLatency }
  fetchContext text := silent (host.fetchContext text)
  executors := {
    dispatcher tool arguments context :=
      loggedWrite false tool arguments (host.executors.dispatcher tool arguments context)
    actionExecutor := host.executors.actionExecutor.map fun executor action revision fingerprint context ↦
      loggedWrite true action.toolName action.arguments (executor action revision fingerprint context) }
  decider request w :=
    let (answer, w') := host.decider request w.1
    (answer, w', w.2 ++ answer.toList.map fun response ↦
      .decided ⟨request.revision, request.proposalFingerprint, response.decision⟩)
  durableApproval := host.durableApproval

/-- What a process has done that stops in the execution node, after some of the
calls. -/
def dispatchFirst (host : Host σ) (cp : Checkpoint) (k : ℕ) (w : σ) : σ :=
  match cp.next, cp.values.modelValidate with
  | [.executeTasks], some state =>
    match state.proposal with
    | none => w
    | some proposal =>
      if requireCurrentAuthorization host.sha256 state && host.context.writeToolsEnabled &&
          actionsAuthorized host.coercions host.context host.executors proposal.actions then
        (executeActions host.coercions host.executors host.context state.revisionCount
          (fingerprintPlanProposal host.sha256 proposal) (proposal.actions.take k) w).2
      else w
  | _, _ => w

inductive Move (σ : Type)
  | advance
  | resume (response : AgentApprovalResponse)
  | crash (calls : ℕ)
  | outside (w : σ)

def answered (host : Host σ) (cp : Checkpoint) (response : AgentApprovalResponse) : List Event :=
  (inspectSnapshot host.sha256 host.coercions cp).approval.toList.map fun request ↦
    .decided ⟨request.revision, request.proposalFingerprint, response.decision⟩

def machine (host : Host σ) : Machine (Checkpoint × σ × List Event) (Move σ) where
  init s := ∃ goal, s.1 = initialCheckpoint goal ∧ s.2.2 = []
  step s
    | .advance =>
      let (cp, w) := superstep (logged host) s.1 none s.2
      some (cp.getD s.1, w)
    | .resume response =>
      if host.durableApproval = true ∧ s.1.interrupts ≠ [] then
        let (cp, w) := superstep (logged host) s.1 (some response)
          (s.2.1, s.2.2 ++ answered host s.1 response)
        some (cp.getD s.1, w)
      else none
    | .crash calls => some (s.1, dispatchFirst (logged host) s.1 calls s.2)
    | .outside w => some (s.1, w, s.2.2)

/-- The calls of one visit: those of the first actions of the proposal in their
order, of which only the last can have failed. -/
inductive Dispatched (durable : Bool) : List AgentProposedAction → List Event → Prop
  | stopped (actions : List AgentProposedAction) : Dispatched durable actions []
  | failed (action : AgentProposedAction) (actions : List AgentProposedAction) :
      Dispatched durable (action :: actions)
        [.dispatched ⟨action.toolName, action.arguments, durable, false⟩]
  | succeeded (action : AgentProposedAction) {actions : List AgentProposedAction}
      {events : List Event} : Dispatched durable actions events →
      Dispatched durable (action :: actions)
        (.dispatched ⟨action.toolName, action.arguments, durable, true⟩ :: events)

/-- Changes were requested at each earlier revision, and nothing else was decided. -/
def Changes (revision : ℕ) (ds : List Decision) : Prop :=
  ds.map (fun d ↦ (d.revision, d.decision)) =
    (List.range revision).map fun r ↦ (r, AgentApprovalDecision.requestChanges)

def LogInv (sha256 : Text → Digest) (v : AgentGraphState) (log : List Event) :
    List AgentRunNode → Prop
  | [.executeTasks] => ∃ p ds, v.proposal = some p ∧
      decisions log = ds ++ [⟨v.revisionCount, fingerprintPlanProposal sha256 p, .approved⟩] ∧
      Changes v.revisionCount ds
  | [.analyzeGoal] | [.loadContext] | [.generatePlan] | [.validatePlan] | [.requestApproval] =>
    Changes v.revisionCount (decisions log) ∧ writes log = []
  | _ => True

variable {host : Host σ}

theorem Dispatched.take {durable : Bool} {actions : List AgentProposedAction} {events : List Event}
    {k : ℕ} (h : Dispatched durable (actions.take k) events) : Dispatched durable actions events := by
  induction actions generalizing k events with
  | nil => simpa using h
  | cons action actions ih =>
    cases k with
    | zero =>
      cases h
      exact .stopped _
    | succ k =>
      rw [List.take_succ_cons] at h
      cases h with
      | stopped => exact .stopped _
      | failed => exact .failed _ _
      | succeeded _ h => exact .succeeded _ (ih h)

theorem Dispatched.durable {durable : Bool} {actions : List AgentProposedAction}
    {events : List Event} (h : Dispatched durable actions events) {e : Write}
    (he : .dispatched e ∈ events) :
    ∃ a ∈ actions, e.tool = a.toolName ∧ e.arguments = a.arguments ∧ e.durable = durable := by
  induction h with
  | stopped => cases he
  | failed action actions =>
    cases List.mem_singleton.mp he
    exact ⟨action, List.mem_cons_self, rfl, rfl, rfl⟩
  | succeeded action h ih =>
    rcases List.mem_cons.mp he with he | he
    · cases he
      exact ⟨action, List.mem_cons_self, rfl, rfl, rfl⟩
    · obtain ⟨a, ha, hf⟩ := ih he
      exact ⟨a, List.mem_cons_of_mem _ ha, hf⟩

theorem dispatch_log (revision : ℕ) (fingerprint : Digest) (action : AgentProposedAction)
    (w : σ × List Event) {r : Except ToolError AgentWriteToolResult} {w' : σ × List Event}
    (h : dispatch (logged host).executors host.context revision fingerprint action w = (r, w')) :
    w'.2 = w.2 ++ [.dispatched ⟨action.toolName, action.arguments,
      host.executors.actionExecutor.isSome,
      (r.bind (validateWriteToolResult action.toolName)).toBool⟩] := by
  unfold dispatch logged at h
  cases he : host.executors.actionExecutor with
  | none =>
    simp only [he, Option.map_none] at h
    cases h
    rfl
  | some executor =>
    simp only [he, Option.map_some] at h
    cases h
    rfl

theorem performAction_log (revision : ℕ) (fingerprint : Digest) (action : AgentProposedAction)
    (w : σ × List Event) {r : Except ToolError AgentWriteToolResult} {w' : σ × List Event}
    (h : performAction host.coercions (logged host).executors host.context revision fingerprint
      action w = (r, w')) :
    (w'.2 = w.2 ∧ r.toBool = false) ∨ w'.2 = w.2 ++ [.dispatched ⟨action.toolName,
      action.arguments, host.executors.actionExecutor.isSome, r.toBool⟩] := by
  unfold performAction at h
  split at h
  · cases h
    exact .inl ⟨rfl, rfl⟩
  · cases hd : dispatch (logged host).executors host.context revision fingerprint action w with
    | mk result w₁ =>
      simp only [hd] at h
      cases h
      exact .inr (dispatch_log revision fingerprint action w hd)

theorem executeActions_log (host : Host σ) (revision : ℕ) (fingerprint : Digest)
    (actions : List AgentProposedAction) (w : σ × List Event) :
    ∃ events, (executeActions host.coercions (logged host).executors host.context revision
      fingerprint actions w).2.2 = w.2 ++ events ∧
      Dispatched host.executors.actionExecutor.isSome actions events := by
  induction actions generalizing w with
  | nil => exact ⟨[], (List.append_nil _).symm, .stopped _⟩
  | cons action actions ih =>
    rw [executeActions]
    split
    · next result w₁ hp =>
      obtain ⟨events, hlog, hd⟩ := ih w₁
      rcases performAction_log revision fingerprint action w hp with ⟨-, hf⟩ | hw
      · cases hf
      · refine ⟨_, hlog.trans ?_, .succeeded action hd⟩
        rw [hw, List.append_assoc]
        rfl
    · next e w₁ hp =>
      rcases performAction_log revision fingerprint action w hp with ⟨hw, -⟩ | hw
      · exact ⟨[], by rw [List.append_nil]; exact hw, .stopped _⟩
      · exact ⟨_, hw, .failed action actions⟩

/-- The writes of a visit to the execution node, and what it has checked. -/
structure Visit (host : Host σ) (v : AgentGraphState) (events : List Event) : Prop where
  authorized : requireCurrentAuthorization host.sha256 v = true
  enabled : host.context.writeToolsEnabled = true
  calls : ∃ p, v.proposal = some p ∧
    actionsAuthorized host.coercions host.context (logged host).executors p.actions = true ∧
    Dispatched host.executors.actionExecutor.isSome p.actions events

theorem executeTasks_log (host : Host σ) (v : AgentGraphState) (w : σ × List Event) :
    ∃ events, (executeTasks host.sha256 host.coercions (logged host).executors host.context v w).2.2 =
      w.2 ++ events ∧ (events = [] ∨ Visit host v events) := by
  unfold executeTasks
  split
  · exact ⟨[], (List.append_nil _).symm, .inl rfl⟩
  · next p hp =>
    split
    · next hc =>
      obtain ⟨events, hlog, hd⟩ := executeActions_log host v.revisionCount
        (fingerprintPlanProposal host.sha256 p) p.actions w
      simp only [Bool.and_eq_true] at hc
      exact ⟨events, hlog, .inr ⟨hc.1.1, hc.1.2, p, hp, hc.2, hd⟩⟩
    · exact ⟨[], (List.append_nil _).symm, .inl rfl⟩

theorem dispatchFirst_log (host : Host σ) {cp : Checkpoint} (hw : WellFormed cp.values) (k : ℕ)
    (w : σ × List Event) :
    ∃ events, (dispatchFirst (logged host) cp k w).2 = w.2 ++ events ∧
      (events = [] ∨ cp.next = [.executeTasks] ∧ Visit host cp.values events) := by
  have hnone : ∃ events, w.2 = w.2 ++ events ∧
      (events = [] ∨ cp.next = [.executeTasks] ∧ Visit host cp.values events) :=
    ⟨[], (List.append_nil _).symm, .inl rfl⟩
  unfold dispatchFirst
  rw [hw.modelValidate]
  split
  · next state hnext hs =>
    cases hs
    split
    · exact hnone
    · next p hp =>
      split
      · next hc =>
        obtain ⟨events, hlog, hd⟩ := executeActions_log host cp.values.revisionCount
          (fingerprintPlanProposal host.sha256 p) (p.actions.take k) w
        simp only [Bool.and_eq_true] at hc
        exact ⟨events, hlog, .inr ⟨hnext, hc.1.1, hc.1.2, p, hp, hc.2, hd.take⟩⟩
      · exact hnone
  · exact hnone

theorem generateAttempts_log (input : Text) (left attempt : ℕ) (usages : List ProviderUsage)
    (w : σ × List Event) :
    (generateAttempts host.coercions (logged host).planning input left attempt usages w).2.2 =
      w.2 := by
  induction left generalizing attempt usages w with
  | zero => rfl
  | succ left ih =>
    rw [generateAttempts]
    rcases hg : (logged host).planning.generate input w with ⟨r, w₁⟩
    have hw₁ : w₁.2 = w.2 := (congrArg (fun x ↦ x.2.2) hg).symm
    cases r with
    | ok response =>
      dsimp only
      split
      · split
        · next latency w₂ hl =>
          exact (congrArg (fun x ↦ x.2.2) hl).symm.trans hw₁
        · next w₂ hl =>
          exact (congrArg (fun x ↦ x.2.2) hl).symm.trans hw₁
      · exact (ih _ _ w₁).trans hw₁
    | error e =>
      cases e with
      | timeout | transient | invalidResponse => exact (ih _ _ w₁).trans hw₁
      | configuration | authentication | permission | other => exact hw₁

theorem generatePlan_log (host : Host σ) (v : AgentGraphState) (w : σ × List Event) :
    (generatePlan host.coercions (logged host).planning v w).2.2 = w.2 := by
  unfold generatePlan
  split
  · split
    · exact generateAttempts_log _ _ _ _ w
    · rfl
  · rfl

theorem loadContext_log (host : Host σ) (v : AgentGraphState) (w : σ × List Event) :
    (loadContext (logged host) v w).2.2 = w.2 := by
  unfold loadContext
  split
  · rfl
  · split
    · rfl
    · rfl

theorem approvalNode_log {v : AgentGraphState} {answer : Option AgentApprovalResponse}
    {w w' : σ × List Event} {r : NodeResult} (h : approvalNode (logged host) v answer w = (r, w')) :
    (w'.2 = w.2 ∧ (r = .update (failed "AGENT_APPROVAL_FAILED") ∨ ∃ value, r = .interrupt value)) ∨
      ∃ request fingerprint response,
        buildApprovalRequest host.sha256 host.coercions host.context v = .ok (request, fingerprint) ∧
        r = .update (applyApprovalResponse v response fingerprint) ∧
        (host.durableApproval = true ∧ answer = some response ∧ w'.2 = w.2 ∨
          host.durableApproval = false ∧ w'.2 = w.2 ++ [.decided ⟨request.revision,
            request.proposalFingerprint, response.decision⟩]) := by
  unfold approvalNode at h
  cases hb : buildApprovalRequest host.sha256 host.coercions host.context v with
  | error e =>
    rw [show buildApprovalRequest (logged host).sha256 (logged host).coercions
      (logged host).context v = .error e from hb] at h
    cases h
    exact .inl ⟨rfl, .inl rfl⟩
  | ok pair =>
    obtain ⟨request, fingerprint⟩ := pair
    rw [show buildApprovalRequest (logged host).sha256 (logged host).coercions
      (logged host).context v = .ok (request, fingerprint) from hb] at h
    by_cases hd : host.durableApproval = true
    · have hd' : (logged host).durableApproval = true := hd
      simp only [hd', ↓reduceIte] at h
      cases answer with
      | none =>
        cases h
        exact .inl ⟨rfl, .inr ⟨_, rfl⟩⟩
      | some response =>
        cases h
        exact .inr ⟨request, fingerprint, response, rfl, rfl, .inl ⟨hd, rfl, rfl⟩⟩
    · have hd' : ¬ (logged host).durableApproval = true := hd
      simp only [hd'] at h
      rcases ha : host.decider request w.1 with ⟨a, w₁⟩
      simp only [logged, ha] at h
      cases a with
      | none =>
        cases h
        exact .inl ⟨List.append_nil _, .inl rfl⟩
      | some response =>
        cases h
        exact .inr ⟨request, fingerprint, response, rfl, rfl, .inr ⟨by simpa using hd, rfl⟩⟩

theorem continue_log {sha256 : Text → Digest} {v : AgentGraphState} {log : List Event}
    {node : AgentRunNode} (h : LogInv sha256 v log [node]) :
    LogInv sha256 v log (continueOrVerify node v) := by
  unfold continueOrVerify
  split
  · trivial
  · exact h

theorem runNode_log {v : AgentGraphState} {answer : Option AgentApprovalResponse}
    {w w' : σ × List Event} {node : AgentRunNode} {r : NodeResult} (hne : node ≠ .requestApproval)
    (h : runNode (logged host) v answer w node = (r, w')) :
    ∃ new, w'.2 = w.2 ++ new ∧ (new = [] ∨ node = .executeTasks ∧ Visit host v new) ∧
      ∀ u next, r = .update u → route (u v) node = some next → LogInv host.sha256 v w.2 [node] →
        LogInv host.sha256 (u v) w'.2 next := by
  cases node with
  | analyzeGoal =>
    cases h
    refine ⟨[], (List.append_nil _).symm, .inl rfl, ?_⟩
    rintro _ _ ⟨⟩ ⟨⟩ hl
    exact continue_log hl
  | loadContext =>
    have hlog := loadContext_log host v w
    rw [runNode] at h
    split at h
    · next snapshot w₁ hc =>
      cases h
      rw [hc] at hlog
      refine ⟨[], by rw [List.append_nil]; exact hlog, .inl rfl, ?_⟩
      rintro _ _ ⟨⟩ ⟨⟩ hl
      exact hlog ▸ continue_log hl
    · next w₁ hc =>
      cases h
      rw [hc] at hlog
      refine ⟨[], by rw [List.append_nil]; exact hlog, .inl rfl, ?_⟩
      rintro _ _ ⟨⟩ ⟨⟩ hl
      trivial
  | generatePlan =>
    have hlog := generatePlan_log host v w
    rw [runNode] at h
    split at h
    · next proposal metrics w₁ hg =>
      cases h
      have hw : w'.2 = w.2 := (congrArg (fun x ↦ x.2.2) hg).symm.trans hlog
      refine ⟨[], by rw [List.append_nil]; exact hw, .inl rfl, ?_⟩
      rintro _ _ ⟨⟩ ⟨⟩ hl
      exact hw ▸ continue_log hl
    · next e w₁ hg =>
      cases h
      have hw : w'.2 = w.2 := (congrArg (fun x ↦ x.2.2) hg).symm.trans hlog
      refine ⟨[], by rw [List.append_nil]; exact hw, .inl rfl, ?_⟩
      rintro _ _ ⟨⟩ ⟨⟩ hl
      trivial
  | validatePlan =>
    cases h
    refine ⟨[], (List.append_nil _).symm, .inl rfl, ?_⟩
    rintro _ next ⟨⟩ hroute hl
    simp only [route] at hroute
    split at hroute
    · cases hroute
      trivial
    · split at hroute
      · cases hroute
        exact hl
      · cases hroute
        trivial
  | requestApproval => exact absurd rfl hne
  | executeTasks =>
    obtain ⟨events, hlog, hvisit⟩ := executeTasks_log host v w
    have hvisit' : events = [] ∨ AgentRunNode.executeTasks = .executeTasks ∧ Visit host v events :=
      hvisit.imp_right fun hv ↦ ⟨rfl, hv⟩
    rw [runNode] at h
    split at h
    · next records w₁ hx =>
      cases h
      refine ⟨events, (congrArg (fun x ↦ x.2.2) hx).symm.trans hlog, hvisit', ?_⟩
      rintro _ _ ⟨⟩ ⟨⟩ hl
      trivial
    · next w₁ hx =>
      cases h
      refine ⟨events, (congrArg (fun x ↦ x.2.2) hx).symm.trans hlog, hvisit', ?_⟩
      rintro _ _ ⟨⟩ ⟨⟩ hl
      trivial
  | verifyResult =>
    cases h
    refine ⟨[], (List.append_nil _).symm, .inl rfl, ?_⟩
    rintro _ _ ⟨⟩ ⟨⟩ hl
    trivial
  | summarize =>
    have hw : w'.2 = w.2 := by
      rw [runNode] at h
      split at h
      · cases h
        rfl
      · cases h
        rfl
    refine ⟨[], by rw [List.append_nil]; exact hw, .inl rfl, ?_⟩
    rintro u next - hroute hl
    cases hroute
    trivial

theorem decisions_append (log : List Event) (d : Decision) :
    decisions (log ++ [.decided d]) = decisions log ++ [d] := by
  simp [decisions, Event.decision]

theorem writes_append (log : List Event) (d : Decision) :
    writes (log ++ [.decided d]) = writes log := by
  simp [writes, Event.write]

theorem approval_log {v : AgentGraphState} {log : List Event} (he : v.workflowErrorCode = none)
    (hl : LogInv host.sha256 v log [.requestApproval]) {request : AgentApprovalInterrupt}
    {fingerprint : Digest}
    (hb : buildApprovalRequest host.sha256 host.coercions host.context v = .ok (request, fingerprint))
    (response : AgentApprovalResponse) {next : List AgentRunNode}
    (hroute : route (applyApprovalResponse v response fingerprint v) .requestApproval = some next) :
    LogInv host.sha256 (applyApprovalResponse v response fingerprint v)
      (log ++ [.decided ⟨request.revision, request.proposalFingerprint, response.decision⟩]) next := by
  obtain ⟨hchanges, hwrites⟩ : Changes v.revisionCount (decisions log) ∧ writes log = [] := hl
  obtain ⟨-, -, hrev, hfp⟩ := buildApprovalRequest_checked hb
  obtain ⟨p, q, hp, -, hpf, -⟩ := buildApprovalRequest_spec hb
  unfold applyApprovalResponse at hroute ⊢
  cases hd : response.decision with
  | approved =>
    simp only [hd, route, he, Option.isSome_none, Bool.false_eq_true, ↓reduceIte,
      Option.some.injEq] at hroute
    subst hroute
    refine ⟨p, decisions log, hp, ?_, hchanges⟩
    rw [decisions_append, hrev, hfp, ← hpf]
  | rejected =>
    simp only [hd, route, he, Option.isSome_none, Bool.false_eq_true, ↓reduceIte,
      Option.some.injEq] at hroute
    subst hroute
    trivial
  | requestChanges =>
    by_cases hlim : v.revisionCount ≥ maxPlanRevisions
    · simp only [hd, hlim, route, he, Option.isSome_none, Bool.false_eq_true, ↓reduceIte,
        Option.some.injEq] at hroute
      subst hroute
      trivial
    · simp only [hd, hlim, route, he, Option.isSome_none, Bool.false_eq_true, ↓reduceIte,
        Option.some.injEq] at hroute
      subst hroute
      simp only [hlim, ↓reduceIte]
      refine ⟨?_, (writes_append _ _).trans hwrites⟩
      rw [decisions_append, Changes, List.map_append, hchanges, List.range_succ, List.map_append, hrev]
      rfl

theorem Dispatched.decisions {durable : Bool} {actions : List AgentProposedAction}
    {events : List Event} (h : Dispatched durable actions events) : decisions events = [] := by
  induction h with
  | stopped => rfl
  | failed => rfl
  | succeeded action h ih => exact ih

/-- What one move adds to the trace: calls of writes in a visit only. -/
def Adds (host : Host σ) (cp : Checkpoint) (new : List Event) : Prop :=
  writes new = [] ∨ cp.next = [.executeTasks] ∧ Visit host cp.values new

theorem Adds.nil (host : Host σ) (cp : Checkpoint) : Adds host cp [] := .inl rfl

theorem LogInv.visit {cp : Checkpoint} {log events : List Event}
    (h : LogInv host.sha256 cp.values log cp.next)
    (he : events = [] ∨ cp.next = [.executeTasks] ∧ Visit host cp.values events) :
    LogInv host.sha256 cp.values (log ++ events) cp.next := by
  rcases he with rfl | ⟨hnext, hv⟩
  · rwa [List.append_nil]
  · obtain ⟨q, -, -, hd⟩ := hv.calls
    rw [hnext] at h ⊢
    obtain ⟨p, ds, hp, hds, hchanges⟩ := h
    refine ⟨p, ds, hp, ?_, hchanges⟩
    have hnone := hd.decisions
    unfold decisions at hds hnone ⊢
    rw [List.filterMap_append, hnone, List.append_nil, hds]

theorem advance_log {cp : Checkpoint} {w w' : σ × List Event} {o : Option Checkpoint}
    (hi : Inv host.sha256 host.coercions host.context cp) (hl : LogInv host.sha256 cp.values w.2 cp.next)
    (hs : superstep (logged host) cp none w = (o, w')) :
    (∃ new, w'.2 = w.2 ++ new ∧ Adds host cp new) ∧
      LogInv host.sha256 (o.getD cp).values w'.2 (o.getD cp).next := by
  rcases superstep_cases hi.wellFormed hs with ⟨rfl, rfl⟩ | ⟨node, r, hnext, hr, rfl⟩
  · exact ⟨⟨[], (List.append_nil _).symm, .nil host cp⟩, hl⟩
  · by_cases hnode : node = .requestApproval
    · subst hnode
      have hn := hi.next
      have hl' := hl
      rw [hnext] at hl' hn
      obtain ⟨hu, -⟩ : Undecided cp.values ∧ _ := hn
      have ha : approvalNode (logged host) cp.values none w = (r, w') := hr
      rcases approvalNode_log ha with ⟨hw, hf⟩ | ⟨request, fingerprint, response, hb, rfl, hcase⟩
      · refine ⟨⟨[], by rw [List.append_nil]; exact hw, .nil host cp⟩, ?_⟩
        rw [hw]
        rcases hf with rfl | ⟨value, rfl⟩
        · trivial
        · exact hl
      · rcases hcase with ⟨-, ha, -⟩ | ⟨-, hw⟩
        · cases ha
        · refine ⟨⟨_, hw, .inl rfl⟩, ?_⟩
          obtain ⟨next, hroute⟩ := approval_route hu.errorCode response fingerprint
          rw [hw, committed, hroute]
          exact approval_log hu.errorCode hl' hb response hroute
    · obtain ⟨new, hw, hvisit, hinv⟩ := runNode_log hnode hr
      have hadds : new = [] ∨ cp.next = [.executeTasks] ∧ Visit host cp.values new := by
        refine hvisit.imp_right ?_
        rintro ⟨rfl, hv⟩
        exact ⟨hnext, hv⟩
      refine ⟨⟨new, hw, ?_⟩, ?_⟩
      · rcases hadds with rfl | hv
        · exact .nil host cp
        · exact .inr hv
      · cases r with
        | update u =>
          obtain ⟨next, hroute⟩ := route_isSome (u cp.values) hnode
          rw [hnext] at hl
          rw [committed, hroute]
          exact hinv u next rfl hroute hl
        | interrupt value => exact absurd (runNode_interrupt hr).1 hnode
        | raised =>
          rw [hw]
          exact hl.visit hadds

theorem resume_log {cp : Checkpoint} {response : AgentApprovalResponse} {w : σ} {log : List Event}
    {w' : σ × List Event} {o : Option Checkpoint} (hd : host.durableApproval = true)
    (hi : Inv host.sha256 host.coercions host.context cp) (hwait : cp.interrupts ≠ [])
    (hl : LogInv host.sha256 cp.values log cp.next)
    (hs : superstep (logged host) cp (some response) (w, log ++ answered host cp response) = (o, w')) :
    (∃ new, w'.2 = log ++ new ∧ Adds host cp new) ∧
      LogInv host.sha256 (o.getD cp).values w'.2 (o.getD cp).next := by
  rcases hi.interrupts with hnone | ⟨hnext, request, fingerprint, hb, hrequest⟩
  · exact absurd hnone hwait
  have hinspect := inspect_waiting hnext hb hrequest
  have hn := hi.next
  rw [hnext] at hl hn
  obtain ⟨hu, -⟩ : Undecided cp.values ∧ _ := hn
  have hanswered : answered host cp response = [.decided ⟨request.revision,
      request.proposalFingerprint, response.decision⟩] := by
    rw [answered, hinspect]
    rfl
  obtain ⟨next, hroute⟩ := approval_route hu.errorCode response fingerprint
  have hstep : superstep (logged host) cp (some response)
      (w, log ++ answered host cp response) =
      (some ⟨applyApprovalResponse cp.values response fingerprint cp.values, next, []⟩,
        (w, log ++ answered host cp response)) := by
    have hb' : buildApprovalRequest (logged host).sha256 (logged host).coercions
      (logged host).context cp.values = .ok (request, fingerprint) := hb
    have hd' : (logged host).durableApproval = true := hd
    simp only [superstep, hnext, hi.wellFormed.modelValidate, runNode, approvalNode, hb', hd',
      ↓reduceIte, committed, hroute, Option.map_some]
  cases hstep.symm.trans hs
  refine ⟨⟨_, rfl, ?_⟩, ?_⟩
  · rw [hanswered]
    exact .inl rfl
  · rw [hanswered]
    exact approval_log hu.errorCode hl hb response hroute

theorem step_log {s s' : Checkpoint × σ × List Event} {m : Move σ}
    (hi : Inv host.sha256 host.coercions host.context s.1)
    (hl : LogInv host.sha256 s.1.values s.2.2 s.1.next) (hs : (machine host).step s m = some s') :
    (∃ new, s'.2.2 = s.2.2 ++ new ∧ Adds host s.1 new) ∧
      Inv host.sha256 host.coercions host.context s'.1 ∧
      LogInv host.sha256 s'.1.values s'.2.2 s'.1.next := by
  obtain ⟨cp, w, log⟩ := s
  have hinv (answer : Option AgentApprovalResponse) (x : σ × List Event) {o : Option Checkpoint}
      {x' : σ × List Event} (ho : superstep (logged host) cp answer x = (o, x')) :
      Inv host.sha256 host.coercions host.context (o.getD cp) := by
    cases o with
    | none => exact hi
    | some cp' => exact superstep_inv (logged host) hi ho
  cases m with
  | advance =>
    rcases ho : superstep (logged host) cp none (w, log) with ⟨o, w'⟩
    simp only [machine, ho] at hs
    cases hs
    obtain ⟨hnew, hlog⟩ := advance_log hi hl ho
    exact ⟨hnew, hinv none _ ho, hlog⟩
  | resume response =>
    simp only [machine, Option.ite_none_right_eq_some] at hs
    obtain ⟨⟨hd, hwait⟩, hs⟩ := hs
    rcases ho : superstep (logged host) cp (some response) (w, log ++ answered host cp response)
      with ⟨o, w'⟩
    rw [ho] at hs
    cases hs
    obtain ⟨hnew, hlog⟩ := resume_log hd hi hwait hl ho
    exact ⟨hnew, hinv (some response) _ ho, hlog⟩
  | crash calls =>
    cases hs
    obtain ⟨events, hlog, hadds⟩ := dispatchFirst_log host hi.wellFormed calls (w, log)
    refine ⟨⟨events, hlog, ?_⟩, hi, ?_⟩
    · rcases hadds with rfl | hv
      · exact .nil host cp
      · exact .inr hv
    · rw [hlog]
      exact hl.visit hadds
  | outside w' =>
    cases hs
    exact ⟨⟨[], (List.append_nil _).symm, .nil host cp⟩, hi, hl⟩

theorem log_reachable {s : Checkpoint × σ × List Event} (h : (machine host).Reachable s) :
    Inv host.sha256 host.coercions host.context s.1 ∧
      LogInv host.sha256 s.1.values s.2.2 s.1.next := by
  refine Machine.Reachable.invariant (fun s ↦ Inv host.sha256 host.coercions host.context s.1 ∧
    LogInv host.sha256 s.1.values s.2.2 s.1.next) ?_ (fun s m s' hs hm ↦ (step_log hs.1 hs.2 hm).2) h
  rintro ⟨cp, w, log⟩ ⟨goal, rfl, rfl⟩
  exact ⟨inv_initial goal, rfl, rfl⟩

theorem Visit.highImpact {v : AgentGraphState} {events : List Event} (h : Visit host v events)
    {e : Write} (he : .dispatched e ∈ events) (hi : isHighImpactTool e.tool = true) :
    e.durable = true := by
  obtain ⟨p, -, hall, hd⟩ := h.calls
  obtain ⟨a, ha, htool, -, hdur⟩ := hd.durable he
  have hcheck := List.all_eq_true.mp hall a ha
  rw [← htool, hi] at hcheck
  rw [hdur]
  cases hx : host.executors.actionExecutor with
  | none =>
    have hnone : (logged host).executors.actionExecutor = none := by
      simp only [logged, hx, Option.map_none]
    simp [hnone] at hcheck
  | some executor => rfl

/-- Whenever a write tool is called, the current proposal is valid for the loaded
context, its approval is the last of the decisions, each of which before it asked
for changes of an earlier revision, and the calls are those of its actions. -/
theorem write_safety {s s' : Checkpoint × σ × List Event} {m : Move σ}
    (h : (machine host).Reachable s) (hs : (machine host).step s m = some s') :
    ∃ new, s'.2.2 = s.2.2 ++ new ∧ ((∃ e, .dispatched e ∈ new) →
      ∃ p snapshot ds, s.1.values.proposal = some p ∧ s.1.values.context = some snapshot ∧
        ValidProposal host.coercions host.context snapshot p ∧
        decisions s.2.2 =
          ds ++ [⟨s.1.values.revisionCount, fingerprintPlanProposal host.sha256 p, .approved⟩] ∧
        Changes s.1.values.revisionCount ds ∧ s.1.values.revisionCount ≤ maxPlanRevisions ∧
        Dispatched host.executors.actionExecutor.isSome p.actions new ∧
        (p.actions.map (·.actionKey)).Nodup ∧
        (∀ e, .dispatched e ∈ new → isHighImpactTool e.tool = true → e.durable = true) ∧
        host.context.writeToolsEnabled = true) := by
  obtain ⟨hi, hl⟩ := log_reachable h
  obtain ⟨⟨new, hnew, hadds⟩, -⟩ := step_log hi hl hs
  refine ⟨new, hnew, ?_⟩
  rintro ⟨e, he⟩
  rcases hadds with hnone | ⟨hnext, hv⟩
  · have hmem : e ∈ writes new := List.mem_filterMap.mpr ⟨_, he, rfl⟩
    rw [hnone] at hmem
    cases hmem
  · have hn := hi.next
    rw [hnext] at hl hn
    obtain ⟨p, ds, hp, hds, hchanges⟩ := hl
    obtain ⟨q, snapshot, hq, hsnapshot, hvalid, -⟩ := Approved.validated hn
    cases hp.symm.trans hq
    obtain ⟨q, hq, -, hd⟩ := hv.calls
    cases hp.symm.trans hq
    exact ⟨p, snapshot, ds, hp, hsnapshot, hvalid, hds, hchanges, hi.wellFormed.revisionCount, hd,
      p.unique, fun e he hh ↦ hv.highImpact he hh, hv.enabled⟩

def sampleMoves : List (Move Unit) :=
  [.advance, .advance, .advance, .advance, .advance, .resume sampleConsent]

theorem write_safety_sample :
    ∃ s s', (machine sampleHost).Reachable s ∧ (machine sampleHost).step s .advance = some s' ∧
      ∃ e new p, s'.2.2 = s.2.2 ++ new ∧ .dispatched e ∈ new ∧ s.1.values.proposal = some p ∧
        Dispatched true p.actions new := by
  have hexec : ((machine sampleHost).exec (initialCheckpoint sampleGoal, (), []) sampleMoves).bind
      (fun s ↦ ((machine sampleHost).step s .advance).map fun s' ↦
        ((writes s.2.2).length, (writes s'.2.2).length)) = some (0, 1) := by
    decide +kernel
  obtain ⟨s, hs, ht⟩ := Option.bind_eq_some_iff.mp hexec
  obtain ⟨s', hs', hlen⟩ := Option.map_eq_some_iff.mp ht
  have h0 : (machine sampleHost).Reachable (initialCheckpoint sampleGoal, (), []) :=
    .start ⟨sampleGoal, rfl, rfl⟩
  obtain ⟨new, hnew, hsafe⟩ := write_safety (h0.exec hs) hs'
  have hwrites : writes new ≠ [] := by
    intro hnone
    have hw : writes s'.2.2 = writes s.2.2 := by
      rw [hnew, writes, List.filterMap_append, ← writes, ← writes, hnone, List.append_nil]
    have hlen' := hlen
    rw [hw] at hlen'
    have h1 := congrArg Prod.fst hlen'
    have h2 := congrArg Prod.snd hlen'
    dsimp only at h1 h2
    omega
  obtain ⟨e, he⟩ := List.exists_mem_of_ne_nil _ hwrites
  obtain ⟨event, hmem, hevent⟩ := List.mem_filterMap.mp he
  cases event with
  | decided d => cases hevent
  | dispatched e' =>
    obtain ⟨p, -, -, hp, -, -, -, -, -, hd, -⟩ := hsafe ⟨e', hmem⟩
    exact ⟨s, s', h0.exec hs, hs', e', new, p, hnew, hmem, hp, hd⟩

end LearningTasks.Agent.WriteSafety
