import LearningTasks.Agent.TerminalClassification
import LearningTasks.Services.AgentDomain
import LearningTasks.Services.TaskUpdates
import LearningTasks.Services.ToolCoordinator
import Mathlib.Logic.Function.Basic
import Mathlib.Tactic.IntervalCases

namespace LearningTasks.Services.ToolRecovery

open Library.Strings Library.Serialization Library.Programs Schemas.Scalars Schemas.Task
  Models.Agent Agent.Schemas Agent.State Agent.Tools Agent.Tracing Agent.Execution AgentDomain
  ToolCoordinator
open Agent.Finalization (verifyResult)
open Agent.TerminalClassification (Recorded firstFailure executeActions_recorded)
open Services.Tasks (Db TaskError getOwnedTask requireOwnedTask)
open Services.TaskUpdates (getOwned_some modelValidate_of_constraints)

/-- What is committed: the tables of the domain, the decisions on the plans and the rows of
the actions; and the rows as the open session has them. -/
structure World where
  db : Db
  approvals : UUID → UUID → ℕ → Option AgentApproval
  rows : ExecutionIdentity → Option AgentToolExecution
  pending : ExecutionIdentity → Option AgentToolExecution

namespace World

def reset (w : World) : World := { w with pending := w.rows }

def put (w : World) (id : ExecutionIdentity) (row : AgentToolExecution) : World :=
  { w with pending := Function.update w.pending id (some row) }

def commit (w : World) : World := { w with rows := w.pending }

def store (w : World) (id : ExecutionIdentity) (row : AgentToolExecution) : World :=
  { w with
    rows := Function.update w.rows id (some row)
    pending := Function.update w.rows id (some row) }

def withDb (w : World) (db : Db) : World := { w with db := db }

end World

/-- What a process runs with: its coercions, what the server and its clocks supply, and
`int`, which reads back what `str` writes. -/
structure Setting where
  runId : UUID
  userId : UUID
  coercions : Coercions
  supply : Supply
  clock : World → Datetime
  newId : World → UUID
  int : Text → Option ℤ
  int_natRepr : ∀ n : ℕ, int (natRepr n) = some n

/-- Another process for the same run, with clock readings and row ids of its own. -/
def Setting.restarted (s : Setting) (clock : World → Datetime) (newId : World → UUID) : Setting :=
  { s with
    clock := clock
    newId := newId }

def coordinatorHost (s : Setting) : CoordinatorHost World where
  runId := s.runId
  userId := s.userId
  openSession := fun w ↦ (.ok (), w.reset)
  getOwnedApproval runId userId revision := fun w ↦ (.ok (w.approvals runId userId revision), w)
  getOwnedAction id := fun w ↦ (.ok (w.pending id), w)
  add id row := fun w ↦
    match w.pending id with
    | some _ => (.error (.integrity true), w)
    | none => if row.constraints then (.ok (), w.put id row) else (.error (.integrity false), w)
  flush id loaded edited := fun w ↦
    match w.pending id with
    | some row =>
      if (loaded.flush edited row).constraints then (.ok (), w.put id (loaded.flush edited row))
      else (.error (.integrity false), w)
    | none => (.error (.other []), w)
  commit := fun w ↦ (.ok (), w.commit)
  rollback := fun w ↦ (.ok (), w.reset)
  close := fun w ↦ (.ok (), w.reset)
  clock := fun w ↦ (.ok (s.clock w), w)
  newId := fun w ↦ (.ok (s.newId w), w)
  dispatcher name arguments context := fun w ↦
    match executeTool s.coercions (domainGateway s.supply) name arguments context w.db with
    | (.ok result, db) => (.ok result, w.withDb db)
    | (.error e, db) => (.error (.tool e), w.withDb db)
  taskLoader taskId userId := fun w ↦
    match getOwnedTask taskId userId w.db with
    | .ok task => (.ok task, w)
    | .error e => (.error (.tool (toolError e)), w)
  int := s.int

section

variable (s : Setting) (w : World)

theorem openSession_run : (coordinatorHost s).openSession w = (.ok (), w.reset) := rfl

theorem rollback_run : (coordinatorHost s).rollback w = (.ok (), w.reset) := rfl

theorem clock_run : (coordinatorHost s).clock w = (.ok (s.clock w), w) := rfl

theorem newId_run : (coordinatorHost s).newId w = (.ok (s.newId w), w) := rfl

theorem getOwnedAction_run (id : ExecutionIdentity) :
    (coordinatorHost s).getOwnedAction id w.reset = (.ok (w.rows id), w.reset) := rfl

end

/-- The errors of the coordinator as the loop over the actions tells them apart. -/
def loopError : Raised → ToolError
  | .tool e => e
  | _ => .other

/-- `execute_tasks` with the durable coordinator for its actions. -/
def durable (s : Setting) : Executors World where
  dispatcher name arguments context := fun w ↦
    match executeTool s.coercions (domainGateway s.supply) name arguments context w.db with
    | (outcome, db) => (outcome, w.withDb db)
  actionExecutor := some fun action revision fingerprint context w ↦
    match execute (coordinatorHost s) action revision fingerprint context w with
    | (.ok result, w) => (.ok result, w)
    | (.error e, w) => (.error (loopError e), w)

section

variable {α : Type}

theorem inSession_run (s : Setting) (body : Program Raised World α) (w : World) :
    inSession (coordinatorHost s) body w = ((body w.reset).1, (body w.reset).2.reset) := by
  unfold inSession
  rw [Program.bind_of_ok (openSession_run s w)]
  unfold Program.ensure Program.handle
  rcases body w.reset with ⟨e | a, w'⟩
  · rfl
  · rfl

end

def approvedFor (s : Setting) (w : World) (action : AgentProposedAction) (revision : ℕ)
    (fingerprint : Digest) : Bool :=
  !isHighImpactTool action.toolName || match w.approvals s.runId s.userId revision with
    | none => false
    | some approval => decide (approval.decision = .approved) &&
        decide (approval.proposalFingerprint = fingerprint.text)

structure Claimed (tool : AgentWriteToolName) (row : AgentToolExecution) : Prop where
  status : row.status = .inProgress
  toolName : row.toolName = tool
  constraints : row.constraints = true

section

variable (s : Setting) (action : AgentProposedAction) (revision : ℕ) (fingerprint : Digest)

theorem requirePersistedApproval_run (w : World) :
    requirePersistedApproval (coordinatorHost s) action revision fingerprint w =
      (if approvedFor s w action revision fingerprint then .ok ()
        else .error .agentToolReconciliationRequired, w) := by
  unfold requirePersistedApproval approvedFor
  cases isHighImpactTool action.toolName with
  | false => rfl
  | true =>
    rw [if_pos rfl, Program.bind_of_ok
      (show (coordinatorHost s).getOwnedApproval _ _ revision w = (.ok _, w) from rfl)]
    simp only [coordinatorHost, Bool.not_true, Bool.false_or]
    cases w.approvals s.runId s.userId revision with
    | none => rfl
    | some approval =>
      by_cases hd : approval.decision = .approved
      · by_cases hf : approval.proposalFingerprint = fingerprint.text
        · simp [hd, hf]
        · simp [hd, hf, failClosed]
      · simp [hd, failClosed]

def claimBody {σ : Type} (host : CoordinatorHost σ) (action : AgentProposedAction) (revision : ℕ)
    (fingerprint : Digest) : Program Raised σ (Option ClaimDisposition) := do
  let id := identity host action revision fingerprint
  requirePersistedApproval host action revision fingerprint
  let disposition ← match ← host.getOwnedAction id with
    | none => do
      let now ← host.clock
      let key ← host.newId
      host.add id (createClaim key action.toolName now)
      pure .execute
    | some existing =>
      if existing.toolName ≠ action.toolName then failClosed
      else classifyExisting host id existing
  host.commit
  pure (some disposition)

theorem claimFirst_eq {σ : Type} (host : CoordinatorHost σ) (action : AgentProposedAction)
    (revision : ℕ) (fingerprint : Digest) : claimFirst host action revision fingerprint = (do
      host.openSession
      Program.ensure (Program.handle (claimBody host action revision fingerprint) fun e ↦ do
        host.rollback
        if e = .integrity true then pure none else Program.raise e) host.close) := rfl

theorem claim_of_ok {w w' : World} {disposition : ClaimDisposition}
    (h : claimBody (coordinatorHost s) action revision fingerprint w.reset =
      (.ok (some disposition), w')) :
    claim (coordinatorHost s) action revision fingerprint w = (.ok disposition, w'.reset) := by
  have hfirst : claimFirst (coordinatorHost s) action revision fingerprint w =
      (.ok (some disposition), w'.reset) := by
    rw [claimFirst_eq, Program.bind_of_ok (openSession_run s w), Program.ensure,
      Program.handle_of_ok h]
    rfl
  rw [claim, Program.bind_of_ok hfirst]
  rfl

theorem claim_of_error {w w' : World} {e : Raised} (he : e ≠ .integrity true)
    (h : claimBody (coordinatorHost s) action revision fingerprint w.reset = (.error e, w')) :
    claim (coordinatorHost s) action revision fingerprint w = (.error e, w'.reset) := by
  have hfirst : claimFirst (coordinatorHost s) action revision fingerprint w =
      (.error e, w'.reset) := by
    rw [claimFirst_eq, Program.bind_of_ok (openSession_run s w), Program.ensure,
      Program.handle_of_error h, Program.bind_of_ok (rollback_run s w'), if_neg he]
    rfl
  rw [claim, Program.bind_of_error hfirst]

theorem claim_unapproved {w : World} (h : approvedFor s w action revision fingerprint = false) :
    claim (coordinatorHost s) action revision fingerprint w =
      (.error .agentToolReconciliationRequired, w.reset) := by
  have hne : Raised.agentToolReconciliationRequired ≠ .integrity true := by
    intro h
    cases h
  have happroval := requirePersistedApproval_run s action revision fingerprint w.reset
  rw [show approvedFor s w.reset action revision fingerprint = false from h] at happroval
  have hbody : claimBody (coordinatorHost s) action revision fingerprint w.reset =
      (.error .agentToolReconciliationRequired, w.reset) := Program.bind_of_error happroval _
  have hclaim := claim_of_error s action revision fingerprint hne hbody
  exact hclaim

def claimRow {σ : Type} (host : CoordinatorHost σ) (action : AgentProposedAction)
    (id : ExecutionIdentity) : Option AgentToolExecution → Program Raised σ ClaimDisposition
  | none => do
    let now ← host.clock
    let key ← host.newId
    host.add id (createClaim key action.toolName now)
    pure .execute
  | some existing =>
    if existing.toolName ≠ action.toolName then failClosed
    else classifyExisting host id existing

variable {s action revision fingerprint}

theorem claimBody_approved {w : World} (h : approvedFor s w action revision fingerprint = true) :
    claimBody (coordinatorHost s) action revision fingerprint w.reset =
      (claimRow (coordinatorHost s) action (identity (coordinatorHost s) action revision fingerprint)
        (w.rows (identity (coordinatorHost s) action revision fingerprint)) >>= fun disposition ↦
        (coordinatorHost s).commit >>= fun _ ↦ pure (some disposition)) w.reset := by
  have happroval := requirePersistedApproval_run s action revision fingerprint w.reset
  rw [show approvedFor s w.reset action revision fingerprint = true from h] at happroval
  unfold claimBody
  rw [Program.bind_of_ok happroval, Program.bind_of_ok (getOwnedAction_run s w _)]
  cases w.rows (identity (coordinatorHost s) action revision fingerprint) with
  | none =>
    simp only [claimRow, Program.bind_assoc]
  | some existing =>
    by_cases ht : existing.toolName = action.toolName
    · simp only [claimRow, ht, ne_eq, not_true_eq_false, if_false]
    · simp only [claimRow, ht, ne_eq, not_false_eq_true, if_true]

theorem claim_approved_ok {w w' : World} {disposition : ClaimDisposition}
    (h : approvedFor s w action revision fingerprint = true)
    (hrow : claimRow (coordinatorHost s) action
      (identity (coordinatorHost s) action revision fingerprint)
      (w.rows (identity (coordinatorHost s) action revision fingerprint)) w.reset =
        (.ok disposition, w')) :
    claim (coordinatorHost s) action revision fingerprint w = (.ok disposition, w'.commit.reset) := by
  refine claim_of_ok s action revision fingerprint ((claimBody_approved h).trans ?_)
  rw [Program.bind_of_ok hrow]
  rfl

theorem claim_approved_error {w w' : World} {e : Raised} (he : e ≠ .integrity true)
    (h : approvedFor s w action revision fingerprint = true)
    (hrow : claimRow (coordinatorHost s) action
      (identity (coordinatorHost s) action revision fingerprint)
      (w.rows (identity (coordinatorHost s) action revision fingerprint)) w.reset =
        (.error e, w')) :
    claim (coordinatorHost s) action revision fingerprint w = (.error e, w'.reset) := by
  refine claim_of_error s action revision fingerprint he ((claimBody_approved h).trans ?_)
  rw [Program.bind_of_error hrow]

theorem claim_new {w : World} (h : approvedFor s w action revision fingerprint = true)
    (hrow : w.rows (identity (coordinatorHost s) action revision fingerprint) = none) :
    ∃ row, Claimed action.toolName row ∧
      claim (coordinatorHost s) action revision fingerprint w =
        (.ok .execute, w.store (identity (coordinatorHost s) action revision fingerprint) row) := by
  generalize hid : identity (coordinatorHost s) action revision fingerprint = id at hrow
  have hadd : (coordinatorHost s).add id
      (createClaim (s.newId w.reset) action.toolName (s.clock w.reset)) w.reset =
      (.ok (), w.reset.put id
        (createClaim (s.newId w.reset) action.toolName (s.clock w.reset))) := by
    have hpending : w.reset.pending id = none := hrow
    simp only [coordinatorHost, hpending]
    rfl
  refine ⟨createClaim (s.newId w.reset) action.toolName (s.clock w.reset), ⟨rfl, rfl, rfl⟩, ?_⟩
  have hclaimRow : claimRow (coordinatorHost s) action id none w.reset =
      (.ok .execute, w.reset.put id
        (createClaim (s.newId w.reset) action.toolName (s.clock w.reset))) := by
    rw [claimRow, Program.bind_of_ok (clock_run s w.reset),
      Program.bind_of_ok (newId_run s w.reset), Program.bind_of_ok hadd]
    rfl
  rw [← hid] at hrow hclaimRow ⊢
  rw [← hrow] at hclaimRow
  have hclaim := claim_approved_ok h hclaimRow
  exact hclaim

theorem claim_completed {w : World} (h : approvedFor s w action revision fingerprint = true)
    {row : AgentToolExecution} {taskId : UUID} {summary : Text}
    (hrow : w.rows (identity (coordinatorHost s) action revision fingerprint) = some row)
    (hstatus : row.status = .completed) (htool : row.toolName = action.toolName)
    (hid : row.resultTaskId = some taskId) (hsummary : row.resultSummary = some summary) :
    claim (coordinatorHost s) action revision fingerprint w =
      (.ok (.replay ⟨action.toolName, taskId, summary⟩), w.reset) := by
  have hclaimRow : claimRow (coordinatorHost s) action
      (identity (coordinatorHost s) action revision fingerprint) (some row) w.reset =
      (.ok (.replay ⟨action.toolName, taskId, summary⟩), w.reset) := by
    simp only [claimRow, classifyExisting, hstatus, hid, hsummary, htool, ne_eq,
      not_true_eq_false, if_false]
    rfl
  rw [← hrow] at hclaimRow
  have hclaim := claim_approved_ok h hclaimRow
  exact hclaim

theorem flush_run {w : World} {id : ExecutionIdentity} {loaded edited : AgentToolExecution}
    (hrow : w.rows id = some loaded) (hc : edited.constraints = true) :
    (coordinatorHost s).flush id loaded edited w.reset = (.ok (), w.reset.put id edited) := by
  have hpending : w.reset.pending id = some loaded := hrow
  simp only [coordinatorHost, hpending, AgentToolExecution.flush_self, hc, if_true]

theorem claim_failed {w : World} (h : approvedFor s w action revision fingerprint = true)
    {row : AgentToolExecution}
    (hrow : w.rows (identity (coordinatorHost s) action revision fingerprint) = some row)
    (hstatus : row.status = .failed) (htool : row.toolName = action.toolName) :
    (∃ row', Claimed action.toolName row' ∧
      claim (coordinatorHost s) action revision fingerprint w =
        (.ok .execute, w.store (identity (coordinatorHost s) action revision fingerprint) row')) ∨
    claim (coordinatorHost s) action revision fingerprint w =
      (.error (.integrity false), w.reset) := by
  generalize hid : identity (coordinatorHost s) action revision fingerprint = id at hrow
  have hclaimRow : claimRow (coordinatorHost s) action id (some row) = (do
      let now ← (coordinatorHost s).clock
      (coordinatorHost s).flush id row (restartFailed row now)
      pure .execute) := by
    simp only [claimRow, classifyExisting, hstatus, htool, ne_eq, not_true_eq_false, if_false]
  by_cases hc : (restartFailed row (s.clock w.reset)).constraints = true
  · left
    have hflush := flush_run (s := s) hrow hc
    refine ⟨restartFailed row (s.clock w.reset), ⟨rfl, htool, hc⟩, ?_⟩
    have hrestart : claimRow (coordinatorHost s) action id (some row) w.reset =
        (.ok .execute, w.reset.put id (restartFailed row (s.clock w.reset))) := by
      rw [hclaimRow, Program.bind_of_ok (clock_run s w.reset), Program.bind_of_ok hflush]
      rfl
    rw [← hid] at hrow hrestart ⊢
    rw [← hrow] at hrestart
    have hclaim := claim_approved_ok h hrestart
    exact hclaim
  · right
    have hpending : w.reset.pending id = some row := hrow
    have hflush : (coordinatorHost s).flush id row (restartFailed row (s.clock w.reset)) w.reset =
        (.error (.integrity false), w.reset) := by
      simp only [coordinatorHost, hpending, AgentToolExecution.flush_self, hc]
      rfl
    have hne : Raised.integrity false ≠ .integrity true := by
      intro h
      cases h
    have hrestart : claimRow (coordinatorHost s) action id (some row) w.reset =
        (.error (.integrity false), w.reset) := by
      rw [hclaimRow, Program.bind_of_ok (clock_run s w.reset), Program.bind_of_error hflush]
    rw [← hid] at hrow hrestart
    rw [← hrow] at hrestart
    have hclaim := claim_approved_error hne h hrestart
    exact hclaim

/-- The row of a completed action, with the receipt of its result. -/
structure Completed (tool : AgentWriteToolName) (result : AgentWriteToolResult)
    (row : AgentToolExecution) : Prop where
  status : row.status = .completed
  toolName : row.toolName = tool
  taskId : row.resultTaskId = some (receipt result).1
  summary : row.resultSummary = some (receipt result).2

theorem Claimed.complete_constraints {tool : AgentWriteToolName} {row : AgentToolExecution}
    (h : Claimed tool row) (taskId : UUID) (summary : Text) (now : Datetime) :
    (complete row taskId summary now).constraints = true := by
  have hc := h.constraints
  simp only [AgentToolExecution.constraints, h.status, Bool.and_eq_true] at hc
  obtain ⟨hattempts, ⟨⟨-, -⟩, herror⟩, -⟩ := hc
  simp only [AgentToolExecution.constraints, complete, herror, Option.isSome_some, Bool.and_self,
    Bool.and_true]
  exact hattempts

theorem Claimed.fail_constraints {tool : AgentWriteToolName} {row : AgentToolExecution}
    (h : Claimed tool row) (errorCode : Text) (now : Datetime) :
    (fail row .failed errorCode now).constraints = true := by
  have hc := h.constraints
  simp only [AgentToolExecution.constraints, h.status, Bool.and_eq_true] at hc
  obtain ⟨hattempts, ⟨⟨htask, hsummary⟩, -⟩, -⟩ := hc
  simp only [AgentToolExecution.constraints, fail, htask, hsummary, Option.isSome_some,
    Bool.and_self, Bool.and_true]
  exact hattempts

theorem recordCompletion_run {w : World} {row : AgentToolExecution}
    (hrow : w.rows (identity (coordinatorHost s) action revision fingerprint) = some row)
    (h : Claimed action.toolName row) (result : AgentWriteToolResult) :
    ∃ row', Completed action.toolName result row' ∧
      recordCompletion (coordinatorHost s) action revision fingerprint result w =
        (.ok (), w.store (identity (coordinatorHost s) action revision fingerprint) row') := by
  have hflush := flush_run (s := s) hrow
    (h.complete_constraints (receipt result).1 (receipt result).2 (s.clock w.reset))
  refine ⟨complete row (receipt result).1 (receipt result).2 (s.clock w.reset),
    ⟨rfl, h.toolName, rfl, rfl⟩, ?_⟩
  rw [recordCompletion, inSession_run, Program.bind_of_ok (getOwnedAction_run s w _), hrow]
  simp only [h.status, ne_eq, not_true_eq_false, if_false]
  rw [Program.bind_of_ok (clock_run s w.reset), Program.bind_of_ok hflush]
  rfl

theorem recordFailure_run {w : World} {row : AgentToolExecution}
    (hrow : w.rows (identity (coordinatorHost s) action revision fingerprint) = some row)
    (h : Claimed action.toolName row) :
    ∃ row', row'.status = .failed ∧ row'.toolName = action.toolName ∧
      recordFailure (coordinatorHost s) action revision fingerprint .failed
        agentToolExecutionFailed w =
        (.ok (), w.store (identity (coordinatorHost s) action revision fingerprint) row') := by
  have hne : ¬ row.status = .completed := by
    rw [h.status]
    intro h
    cases h
  have hflush := flush_run (s := s) hrow
    (h.fail_constraints agentToolExecutionFailed (s.clock w.reset))
  refine ⟨fail row .failed agentToolExecutionFailed (s.clock w.reset), rfl, h.toolName, ?_⟩
  rw [recordFailure, inSession_run, Program.bind_of_ok (getOwnedAction_run s w _), hrow]
  simp only [if_neg hne]
  rw [Program.bind_of_ok (clock_run s w.reset), Program.bind_of_ok hflush]
  rfl

variable {context : AgentRuntimeContext}

def attempt (s : Setting) (context : AgentRuntimeContext) (action : AgentProposedAction) :
    Effect Db AgentWriteToolResult :=
  executeTool s.coercions (domainGateway s.supply) action.toolName action.arguments context

theorem validate_of_answers {tool : AgentWriteToolName} {result : AgentWriteToolResult}
    (h : Answers tool result) : validateWriteToolResult tool result = .ok result := by
  cases tool with
  | createTask =>
    obtain ⟨task, rfl⟩ := h
    rfl
  | updateTask =>
    obtain ⟨task, rfl⟩ := h
    rfl
  | batchCreateTasks =>
    obtain ⟨id, n, -, rfl⟩ := h
    rfl
  | deleteTask =>
    obtain ⟨id, rfl⟩ := h
    rfl

variable (s action context) in
theorem dispatcher_run (w : World) :
    (coordinatorHost s).dispatcher action.toolName action.arguments context w =
      ((attempt s context action w.db).1.mapError Raised.tool,
        w.withDb (attempt s context action w.db).2) := by
  change (match attempt s context action w.db with
    | (.ok result, db) => (Except.ok result, w.withDb db)
    | (.error e, db) => (Except.error (Raised.tool e), w.withDb db)) = _
  rcases attempt s context action w.db with ⟨e | result, db⟩
  · rfl
  · rfl

theorem dispatch_ok {w : World} {result : AgentWriteToolResult} {db : Db}
    (h : attempt s context action w.db = (.ok result, db))
    (hanswers : Answers action.toolName result) :
    ToolCoordinator.dispatch (coordinatorHost s) action context w = (.ok result, w.withDb db) := by
  have hrun := dispatcher_run s action context w
  rw [h] at hrun
  rw [ToolCoordinator.dispatch, Program.bind_of_ok hrun, validate_of_answers hanswers]
  rfl

theorem dispatch_error {w : World} {e : ToolError} {db : Db}
    (h : attempt s context action w.db = (.error e, db)) :
    ToolCoordinator.dispatch (coordinatorHost s) action context w =
      (.error (.tool e), w.withDb db) := by
  have hrun := dispatcher_run s action context w
  rw [h] at hrun
  rw [ToolCoordinator.dispatch, Program.bind_of_error hrun]

theorem perform_ok {w : World} {row : AgentToolExecution} {result : AgentWriteToolResult} {db : Db}
    (hrow : w.rows (identity (coordinatorHost s) action revision fingerprint) = some row)
    (h : Claimed action.toolName row) (hattempt : attempt s context action w.db = (.ok result, db))
    (hanswers : Answers action.toolName result) :
    ∃ row', Completed action.toolName result row' ∧
      perform (coordinatorHost s) action revision fingerprint context w = (.ok result,
        (w.withDb db).store (identity (coordinatorHost s) action revision fingerprint) row') := by
  obtain ⟨row', hrow', hcomplete⟩ := recordCompletion_run (w := w.withDb db) hrow h result
  refine ⟨row', hrow', ?_⟩
  rw [perform, Program.bind_of_ok (Program.handle_of_ok (dispatch_ok hattempt hanswers) _),
    Program.bind_of_ok (Program.handle_of_ok hcomplete _)]
  rfl

theorem perform_noWrite {w : World} {row : AgentToolExecution} {e : ToolError}
    (hrow : w.rows (identity (coordinatorHost s) action revision fingerprint) = some row)
    (h : Claimed action.toolName row) (he : noWrite e = true)
    (hattempt : attempt s context action w.db = (.error e, w.db)) :
    ∃ row', row'.status = .failed ∧ row'.toolName = action.toolName ∧
      perform (coordinatorHost s) action revision fingerprint context w = (.error (.tool e),
        w.store (identity (coordinatorHost s) action revision fingerprint) row') := by
  obtain ⟨row', hstatus, htool, hfailure⟩ := recordFailure_run (w := w) hrow h
  have hproven : provenNoWrite (.tool e) = true := by
    cases e <;> first | rfl | cases he
  have hdispatch := dispatch_error hattempt
  refine ⟨row', hstatus, htool, ?_⟩
  rw [perform, Program.bind_run, Program.handle_of_error hdispatch]
  simp only [hproven, if_true]
  rw [Program.bind_of_ok (show recordFailure (coordinatorHost s) action revision fingerprint .failed
    agentToolExecutionFailed (w.withDb w.db) = _ from hfailure)]
  rfl

variable (revision fingerprint) in
theorem perform_error {w : World} {e : ToolError} {db : Db}
    (hattempt : attempt s context action w.db = (.error e, db)) :
    ∃ e' w', perform (coordinatorHost s) action revision fingerprint context w =
      (.error e', w') := by
  have hraises : ∀ status errorCode, ∃ e' w', (recordFailure (coordinatorHost s) action revision
      fingerprint status errorCode >>= fun _ ↦ (Program.raise (.tool e) :
        Program Raised World AgentWriteToolResult)) (w.withDb db) = (.error e', w') :=
    fun status errorCode ↦ Program.bind_raise _ _ _
  rw [perform, Program.bind_run, Program.handle_of_error (dispatch_error hattempt)]
  split
  · next result w' hok =>
    exfalso
    split at hok
    · obtain ⟨e', w₁, h⟩ := hraises .failed agentToolExecutionFailed
      rw [h] at hok
      cases hok
    · obtain ⟨e', w₁, h⟩ := hraises .unknown agentToolExecutionUnknown
      rw [h] at hok
      cases hok
  · exact ⟨_, _, rfl⟩

theorem splitWords_createdSummary {n : ℕ} (h : n ≤ 10) :
    splitWords (createdSummary n) = ["Created".toList, natRepr n, "tasks".toList] := by
  interval_cases n <;> decide

theorem mutationResult_run {result : AgentToolMutationResult} (w : World)
    (hcount : 1 ≤ result.affectedCount ∧ result.affectedCount ≤ 10)
    (hsummary : 1 ≤ result.summary.length ∧ result.summary.length ≤ 100) :
    (mutationResult result : Program Raised World AgentWriteToolResult) w =
      (.ok (.mutation result), w) := by
  have hcheck : result.check = some result := if_pos ⟨hcount, hsummary⟩
  rw [mutationResult, hcheck]
  rfl

theorem createdSummary_length {n : ℕ} (h : n ≤ 10) :
    1 ≤ (createdSummary n).length ∧ (createdSummary n).length ≤ 100 := by
  interval_cases n <;> decide

variable (s) in
theorem loadPublicResult_highImpact {tool : AgentWriteToolName} {result : AgentWriteToolResult}
    (htool : isHighImpactTool tool = true) (h : Answers tool result) (w : World) :
    loadPublicResult (coordinatorHost s) ⟨tool, (receipt result).1, (receipt result).2⟩ w =
      (.ok result, w) := by
  cases tool with
  | createTask => cases htool
  | updateTask => cases htool
  | batchCreateTasks =>
    obtain ⟨id, n, hn, rfl⟩ := h
    have hint : (coordinatorHost s).int (natRepr n) = some n := s.int_natRepr n
    simp only [loadPublicResult, receipt, splitWords_createdSummary hn.2, hint, and_self,
      if_true]
    exact mutationResult_run w hn (createdSummary_length hn.2)
  | deleteTask =>
    obtain ⟨id, rfl⟩ := h
    have hcount : 1 ≤ 1 ∧ 1 ≤ 10 := by omega
    have hsummary : 1 ≤ deletedSummary.length ∧ deletedSummary.length ≤ 100 := by decide
    exact mutationResult_run w hcount hsummary

variable (s) in
theorem loadPublicResult_task {tool : AgentWriteToolName} (htool : isHighImpactTool tool = false)
    (taskId : UUID) (summary : Text) {w : World} (hv : Valid w.db) :
    loadPublicResult (coordinatorHost s) ⟨tool, taskId, summary⟩ w =
      (match w.db.getOwned taskId s.userId with
        | some task => .ok (.task task.public)
        | none => .error .agentToolReconciliationRequired, w.reset) := by
  have hload : loadPublicResult (coordinatorHost s) ⟨tool, taskId, summary⟩ = (do
      (coordinatorHost s).openSession
      Program.ensure (Program.handle (do
          let task ← (coordinatorHost s).taskLoader taskId s.userId
          pure (.task task))
        fun _ ↦ failClosed) (coordinatorHost s).close) := by
    cases tool with
    | createTask => rfl
    | updateTask => rfl
    | batchCreateTasks => cases htool
    | deleteTask => cases htool
  rw [hload, Program.bind_of_ok (openSession_run s w), Program.ensure]
  cases hget : w.db.getOwned taskId s.userId with
  | none =>
    have hservice : getOwnedTask taskId s.userId w.reset.db = .error .taskNotFound := by
      change (requireOwnedTask w.db taskId s.userId).bind _ = _
      rw [requireOwnedTask, hget]
      rfl
    have hloader : (coordinatorHost s).taskLoader taskId s.userId w.reset =
        (.error (.tool .taskNotFound), w.reset) := by
      simp only [coordinatorHost, hservice]
      rfl
    rw [Program.handle_of_error (Program.bind_of_error hloader _)]
    rfl
  | some task =>
    have hvalid := modelValidate_of_constraints (hv task (getOwned_some hget).1)
    have hservice : getOwnedTask taskId s.userId w.reset.db = .ok task.public := by
      change (requireOwnedTask w.db taskId s.userId).bind _ = _
      rw [requireOwnedTask, hget]
      exact hvalid
    have hloader : (coordinatorHost s).taskLoader taskId s.userId w.reset =
        (.ok task.public, w.reset) := by
      simp only [coordinatorHost, hservice]
    have hbody := Program.bind_of_ok hloader fun task ↦
      (pure (.task task) : Program Raised World AgentWriteToolResult)
    rw [Program.handle_of_ok (hbody.trans rfl)]
    rfl

/-- What the replay of an action needs: the task that it answers with. -/
def Kept (s : Setting) (db : Db) (action : AgentProposedAction) (row : AgentToolExecution) : Prop :=
  isHighImpactTool action.toolName = false →
    ∃ taskId, row.resultTaskId = some taskId ∧ (db.getOwned taskId s.userId).isSome = true

/-- What the replay of an action answers with that has once answered with a result. -/
def replayed (s : Setting) (db : Db) (action : AgentProposedAction)
    (result : AgentWriteToolResult) : Except ToolError AgentWriteToolResult :=
  if isHighImpactTool action.toolName then .ok result
  else match db.getOwned (receipt result).1 s.userId with
    | some task => .ok (.task task.public)
    | none => .error (loopError .agentToolReconciliationRequired)

/-- The task that an action has answered with is as it was then. -/
def Unchanged (s : Setting) (db : Db) (action : AgentProposedAction)
    (result : AgentWriteToolResult) : Prop :=
  isHighImpactTool action.toolName = false →
    ∃ task, db.getOwned (receipt result).1 s.userId = some task ∧ result = .task task.public

variable (s) in
theorem replayed_ok_iff (db : Db) {row : AgentToolExecution} {result : AgentWriteToolResult}
    (h : Completed action.toolName result row) :
    (replayed s db action result).toBool = true ↔ Kept s db action row := by
  rw [replayed, Kept]
  cases htool : isHighImpactTool action.toolName with
  | true => simp [Except.toBool]
  | false =>
    cases hget : db.getOwned (receipt result).1 s.userId with
    | none => simp [Except.toBool, h.taskId, hget]
    | some task => simp [Except.toBool, h.taskId, hget]

theorem replayed_eq_iff {db : Db} {result : AgentWriteToolResult} :
    replayed s db action result = .ok result ↔ Unchanged s db action result := by
  rw [replayed, Unchanged]
  cases htool : isHighImpactTool action.toolName with
  | true => simp
  | false =>
    cases hget : db.getOwned (receipt result).1 s.userId with
    | none => simp
    | some task => simp [eq_comm]

def admitted (s : Setting) (context : AgentRuntimeContext) (revision : ℕ) (fingerprint : Digest)
    (w : World) (action : AgentProposedAction) : Bool :=
  (validateToolArguments s.coercions action.toolName action.arguments context).toBool &&
    decide (context.userId = s.userId) && approvedFor s w action revision fingerprint

theorem performAction_ok {w w' : World} {validated : AgentToolArguments}
    {result : AgentWriteToolResult}
    (hv : validateToolArguments s.coercions action.toolName action.arguments context =
      .ok validated)
    (h : execute (coordinatorHost s) action revision fingerprint context w = (.ok result, w'))
    (hresult : validateWriteToolResult action.toolName result = .ok result) :
    performAction s.coercions (durable s) context revision fingerprint action w =
      (.ok result, w') := by
  simp only [performAction, hv, Agent.Execution.dispatch, durable, h]
  change (validateWriteToolResult action.toolName result, w') = _
  rw [hresult]

theorem performAction_error {w w' : World} {validated : AgentToolArguments} {e : Raised}
    (hv : validateToolArguments s.coercions action.toolName action.arguments context =
      .ok validated)
    (h : execute (coordinatorHost s) action revision fingerprint context w = (.error e, w')) :
    performAction s.coercions (durable s) context revision fingerprint action w =
      (.error (loopError e), w') := by
  simp only [performAction, hv, Agent.Execution.dispatch, durable, h]
  rfl

theorem execute_admitted {w : World}
    (h : admitted s context revision fingerprint w action = true) :
    (∃ validated, validateToolArguments s.coercions action.toolName action.arguments context =
      .ok validated) ∧ approvedFor s w action revision fingerprint = true ∧
      execute (coordinatorHost s) action revision fingerprint context =
        claim (coordinatorHost s) action revision fingerprint >>= fun
          | .replay data => loadPublicResult (coordinatorHost s) data
          | .execute => perform (coordinatorHost s) action revision fingerprint context := by
  simp only [admitted, Bool.and_eq_true, decide_eq_true_eq] at h
  obtain ⟨⟨hv, huser⟩, happroved⟩ := h
  cases hvalidate : validateToolArguments s.coercions action.toolName action.arguments context with
  | error e =>
    rw [hvalidate] at hv
    cases hv
  | ok validated =>
    have hwrite := (validateToolArguments_ok hvalidate).1
    have hcontext : ¬ (context.userId ≠ (coordinatorHost s).userId ∨
        context.writeToolsEnabled = false) := by
      rw [hwrite]
      rintro (hne | hf)
      · exact hne huser
      · cases hf
    refine ⟨⟨validated, rfl⟩, happroved, ?_⟩
    exact if_neg hcontext

theorem admitted_of_ok {w w' : World} {result : AgentWriteToolResult}
    (h : performAction s.coercions (durable s) context revision fingerprint action w =
      (.ok result, w')) : admitted s context revision fingerprint w action = true := by
  cases hv : validateToolArguments s.coercions action.toolName action.arguments context with
  | error e =>
    simp only [performAction, hv] at h
    cases h
  | ok validated =>
    by_cases hcontext : context.userId ≠ (coordinatorHost s).userId ∨
        context.writeToolsEnabled = false
    · have hexecute : execute (coordinatorHost s) action revision fingerprint context w =
          (.error .agentToolReconciliationRequired, w) := by
        rw [execute, if_pos hcontext]
        rfl
      rw [performAction_error hv hexecute] at h
      cases h
    · cases happroved : approvedFor s w action revision fingerprint with
      | false =>
        have hexecute : execute (coordinatorHost s) action revision fingerprint context w =
            (.error .agentToolReconciliationRequired, w.reset) := by
          rw [execute, if_neg hcontext, Program.bind_of_error
            (claim_unapproved s action revision fingerprint happroved)]
        rw [performAction_error hv hexecute] at h
        cases h
      | true =>
        have huser : context.userId = s.userId := not_not.mp fun hne ↦ hcontext (.inl hne)
        simp only [admitted, hv, huser, happroved, decide_true, Bool.and_true]
        rfl

theorem performAction_new {w : World} (h : admitted s context revision fingerprint w action = true)
    (hrow : w.rows (identity (coordinatorHost s) action revision fingerprint) = none)
    (hdb : Valid w.db) :
    (∃ result db row, attempt s context action w.db = (.ok result, db) ∧
      Answers action.toolName result ∧ Valid db ∧ Completed action.toolName result row ∧
      performAction s.coercions (durable s) context revision fingerprint action w =
        (.ok result,
          (w.withDb db).store (identity (coordinatorHost s) action revision fingerprint) row)) ∨
    ∃ e db e' w', attempt s context action w.db = (.error e, db) ∧
      performAction s.coercions (durable s) context revision fingerprint action w =
        (.error e', w') := by
  obtain ⟨⟨validated, hv⟩, happroved, hexecute⟩ := execute_admitted h
  obtain ⟨claimed, hclaimed, hclaim⟩ := claim_new happroved hrow
  generalize hid : identity (coordinatorHost s) action revision fingerprint = id at hclaim ⊢
  have hstored : (w.store id claimed).rows id = some claimed := Function.update_self ..
  rcases hattempt : attempt s context action w.db with ⟨e | result, db⟩
  · right
    obtain ⟨e', w', hperform⟩ := perform_error revision fingerprint
      (w := w.store id claimed) hattempt
    refine ⟨e, db, loopError e', w', rfl, performAction_error hv ?_⟩
    rw [hexecute, Program.bind_of_ok hclaim]
    exact hperform
  · left
    obtain ⟨hanswers, hdb'⟩ := executeTool_ok hdb hattempt
    rw [← hid] at hstored
    obtain ⟨row, hcompleted, hperform⟩ := perform_ok (w := w.store id claimed)
      (by rw [← hid]; exact hstored) hclaimed hattempt hanswers
    have hstore : ((w.store id claimed).withDb db).store id row = (w.withDb db).store id row := by
      simp only [World.store, World.withDb, Function.update_idem]
    refine ⟨result, db, row, rfl, hanswers, hdb', hcompleted,
      performAction_ok hv ?_ (validate_of_answers hanswers)⟩
    rw [hexecute, Program.bind_of_ok hclaim]
    rw [hid, hstore] at hperform
    exact hperform

theorem performAction_failed {w : World}
    (h : admitted s context revision fingerprint w action = true) {row : AgentToolExecution}
    (hrow : w.rows (identity (coordinatorHost s) action revision fingerprint) = some row)
    (hstatus : row.status = .failed) (htool : row.toolName = action.toolName) {e : ToolError}
    {db : Db} (hattempt : attempt s context action w.db = (.error e, db)) :
    ∃ e' w', performAction s.coercions (durable s) context revision fingerprint action w =
      (.error e', w') := by
  obtain ⟨⟨validated, hv⟩, happroved, hexecute⟩ := execute_admitted h
  rcases claim_failed happroved hrow hstatus htool with ⟨claimed, -, hclaim⟩ | hclaim
  · obtain ⟨e', w', hperform⟩ := perform_error revision fingerprint
      (w := w.store (identity (coordinatorHost s) action revision fingerprint) claimed) hattempt
    refine ⟨loopError e', w', performAction_error hv ?_⟩
    rw [hexecute, Program.bind_of_ok hclaim]
    exact hperform
  · refine ⟨loopError (.integrity false), w.reset, performAction_error hv ?_⟩
    rw [hexecute, Program.bind_of_error hclaim]

theorem performAction_completed {w : World}
    (h : admitted s context revision fingerprint w action = true) {row : AgentToolExecution}
    {result : AgentWriteToolResult}
    (hrow : w.rows (identity (coordinatorHost s) action revision fingerprint) = some row)
    (hcompleted : Completed action.toolName result row) (hanswers : Answers action.toolName result)
    (hdb : Valid w.db) :
    performAction s.coercions (durable s) context revision fingerprint action w =
      (replayed s w.db action result, w.reset) := by
  obtain ⟨⟨validated, hv⟩, happroved, hexecute⟩ := execute_admitted h
  have hclaim := claim_completed happroved hrow hcompleted.status hcompleted.toolName
    hcompleted.taskId hcompleted.summary
  rw [replayed]
  cases htool : isHighImpactTool action.toolName with
  | true =>
    have hload := loadPublicResult_highImpact s htool hanswers w.reset
    refine performAction_ok hv ?_ (validate_of_answers hanswers)
    rw [hexecute, Program.bind_of_ok hclaim]
    exact hload
  | false =>
    have hload := loadPublicResult_task s htool (receipt result).1 (receipt result).2
      (w := w.reset) hdb
    cases hget : w.db.getOwned (receipt result).1 s.userId with
    | none =>
      rw [show w.reset.db.getOwned (receipt result).1 s.userId = none from hget] at hload
      refine performAction_error hv ?_
      rw [hexecute, Program.bind_of_ok hclaim]
      exact hload
    | some task =>
      rw [show w.reset.db.getOwned (receipt result).1 s.userId = some task from hget] at hload
      have hresult : validateWriteToolResult action.toolName (.task task.public) =
          .ok (.task task.public) := by
        rw [validateWriteToolResult, htool]
        rfl
      refine performAction_ok hv ?_ hresult
      rw [hexecute, Program.bind_of_ok hclaim]
      exact hload

end

end LearningTasks.Services.ToolRecovery
