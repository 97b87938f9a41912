import LearningTasks.Agent.State

namespace LearningTasks.Agent.Tools

open Library.Strings Library.Serialization Library.Records Schemas.Scalars Schemas.Task
  Models.Agent State

inductive ToolError
  | taskNotFound
  | projectNotFound
  | taskDateOrder
  | taskTransition
  | archivedProject
  | toolNotAllowed
  | toolInput
  | other
  deriving DecidableEq

structure AgentRuntimeContext where
  userId : UUID
  writeToolsEnabled : Bool

/-- A call that reads and changes the world outside the workflow. -/
abbrev Effect (σ α : Type) := σ → Except ToolError α × σ

structure AgentToolGateway (σ : Type) where
  createTask : UUID → TaskCreate → Effect σ PublicTask
  updateTask : UUID → UUID → TaskUpdate → Effect σ PublicTask
  batchCreateTasks : UUID → List TaskCreate → Effect σ AgentToolMutationResult
  deleteTask : UUID → UUID → Effect σ AgentToolMutationResult

inductive AgentToolArguments
  | createTask (task : TaskCreate)
  | updateTask (taskId : UUID) (changes : TaskUpdate)
  | batchCreateTasks (tasks : List TaskCreate)
  | deleteTask (taskId : UUID)

def validateCreateTask (c : Coercions) (arguments : Fields) : Option AgentToolArguments :=
  (TaskCreate.modelValidate c (.obj arguments)).map .createTask

/-- `TaskUpdate` with a locator, which does not count as an update field. -/
def validateUpdateTask (c : Coercions) (arguments : Fields) : Option AgentToolArguments :=
  if onlyKeys ("task_id".toList :: TaskUpdate.keys) arguments then do
    let changes ← TaskUpdate.readFields c arguments
    let taskId ← requiredField c.uuid "task_id".toList arguments
    some (.updateTask taskId changes)
  else none

def requireOneProject (tasks : List TaskCreate) : Bool :=
  match tasks with
  | [] => false
  | t :: ts => ts.all fun u ↦ u.projectId = t.projectId

def validateBatchCreateTasks (c : Coercions) (arguments : Fields) : Option AgentToolArguments :=
  if onlyKeys ["tasks".toList] arguments then do
    let tasks ← requiredField (readList (TaskCreate.modelValidate c)) "tasks".toList arguments
    if 1 ≤ tasks.length ∧ tasks.length ≤ 10 ∧ requireOneProject tasks then
      some (.batchCreateTasks tasks)
    else none
  else none

def validateDeleteTask (c : Coercions) (arguments : Fields) : Option AgentToolArguments :=
  if onlyKeys ["task_id".toList] arguments then
    (requiredField c.uuid "task_id".toList arguments).map .deleteTask
  else none

def readArguments (c : Coercions) (name : AgentWriteToolName) (arguments : Fields) :
    Option AgentToolArguments :=
  match name with
  | .createTask => validateCreateTask c arguments
  | .updateTask => validateUpdateTask c arguments
  | .batchCreateTasks => validateBatchCreateTasks c arguments
  | .deleteTask => validateDeleteTask c arguments

/-- `validate_tool_arguments` for the tools that an action can name. -/
def validateToolArguments (c : Coercions) (name : AgentWriteToolName) (arguments : Fields)
    (context : AgentRuntimeContext) : Except ToolError AgentToolArguments :=
  if !context.writeToolsEnabled then .error .toolNotAllowed
  else match readArguments c name arguments with
    | some validated => .ok validated
    | none => .error .toolInput

variable {σ : Type}

def mapResult {α β : Type} (f : α → β) (effect : Effect σ α) : Effect σ β :=
  fun w ↦ ((effect w).1.map f, (effect w).2)

/-- A value that does not validate raises before the gateway is called. -/
def withValid {α β : Type} (value : Option α) (call : α → Effect σ β) : Effect σ β :=
  match value with
  | some a => call a
  | none => fun w ↦ (.error .other, w)

def callGateway (gateway : AgentToolGateway σ) (userId : UUID) :
    AgentToolArguments → Effect σ AgentWriteToolResult
  | .createTask task => withValid task.filled.check fun t ↦
      mapResult .task (gateway.createTask userId t)
  | .updateTask taskId changes => withValid changes.check fun u ↦
      mapResult .task (gateway.updateTask userId taskId u)
  | .batchCreateTasks tasks => mapResult .mutation (gateway.batchCreateTasks userId tasks)
  | .deleteTask taskId => mapResult .mutation (gateway.deleteTask userId taskId)

def executeTool (c : Coercions) (gateway : AgentToolGateway σ) (name : AgentWriteToolName)
    (arguments : Fields) (context : AgentRuntimeContext) : Effect σ AgentWriteToolResult :=
  match validateToolArguments c name arguments context with
  | .error e => fun w ↦ (.error e, w)
  | .ok validated => callGateway gateway context.userId validated

def MutationOperation.tool : MutationOperation → AgentWriteToolName
  | .batchCreateTasks => .batchCreateTasks
  | .deleteTask => .deleteTask

def validateWriteToolResult (name : AgentWriteToolName) (result : AgentWriteToolResult) :
    Except ToolError AgentWriteToolResult :=
  if isHighImpactTool name then
    match result with
    | .mutation m => if MutationOperation.tool m.operation = name then .ok result else .error .other
    | .task _ => .error .other
  else
    match result with
    | .task _ => .ok result
    | .mutation _ => .error .other

theorem validateToolArguments_ok {c : Coercions} {name : AgentWriteToolName} {arguments : Fields}
    {context : AgentRuntimeContext} {a : AgentToolArguments}
    (h : validateToolArguments c name arguments context = .ok a) :
    context.writeToolsEnabled = true ∧ readArguments c name arguments = some a := by
  unfold validateToolArguments at h
  split at h
  · cases h
  · next hw =>
    split at h
    · next hv =>
      cases h
      exact ⟨by simpa using hw, hv⟩
    · cases h

theorem TaskCreate.readFields_checked {c : Coercions} {fields : Fields} {t : TaskCreate}
    (h : TaskCreate.readFields c fields = some t) : t.check = some t := by
  simp only [TaskCreate.readFields, Option.bind_eq_bind, Option.bind_eq_some_iff] at h
  obtain ⟨_, -, _, -, _, -, _, -, _, -, _, -, _, -, h⟩ := h
  exact TaskCreate.check_check h

theorem TaskUpdate.readFields_checked {c : Coercions} {fields : Fields} {u : TaskUpdate}
    (h : TaskUpdate.readFields c fields = some u) : u.check = some u := by
  simp only [TaskUpdate.readFields, Option.bind_eq_bind, Option.bind_eq_some_iff] at h
  obtain ⟨_, -, _, -, _, -, _, -, _, -, _, -, _, -, h⟩ := h
  exact TaskUpdate.check_check h

theorem TaskCreate.modelValidate_checked {c : Coercions} {j : Json} {t : TaskCreate}
    (h : TaskCreate.modelValidate c j = some t) : t.check = some t := by
  cases j with
  | obj fields =>
    simp only [TaskCreate.modelValidate, readModel, Option.ite_none_right_eq_some] at h
    exact TaskCreate.readFields_checked h.2
  | _ => cases h

theorem TaskCreate.filled_check {t : TaskCreate} (h : t.check = some t) :
    t.filled.check = some t.filled := by
  unfold TaskCreate.check at h
  simp only [Option.ite_none_right_eq_some, Option.some.injEq] at h
  obtain ⟨hc, ht⟩ := h
  have htitle : strip t.title = t.title := congrArg TaskCreate.title ht
  have hd : t.description.map normalizeDescription = t.description :=
    congrArg TaskCreate.description ht
  have hjoin : normalizeDescription t.description.join = t.description.join := by
    cases h : t.description with
    | none => rfl
    | some d => simpa [h] using hd
  rw [hd, htitle] at hc
  unfold TaskCreate.check
  simp only [TaskCreate.filled, Option.map_some, Option.join_some, hjoin, htitle]
  exact if_pos hc

def Validated (c : Coercions) (name : AgentWriteToolName) (arguments : Fields) :
    AgentToolArguments → Prop
  | .createTask task => name = .createTask ∧ task.check = some task ∧
      TaskCreate.modelValidate c (.obj arguments) = some task
  | .updateTask _ changes => name = .updateTask ∧ changes.check = some changes
  | .batchCreateTasks tasks => name = .batchCreateTasks ∧
      (1 ≤ tasks.length ∧ tasks.length ≤ 10) ∧ ∀ t ∈ tasks, t.check = some t
  | .deleteTask _ => name = .deleteTask

theorem readArguments_validated {c : Coercions} {name : AgentWriteToolName} {arguments : Fields}
    {a : AgentToolArguments} (h : readArguments c name arguments = some a) :
    Validated c name arguments a := by
  cases name with
  | createTask =>
    simp only [readArguments, validateCreateTask, Option.map_eq_some_iff] at h
    obtain ⟨t, ht, rfl⟩ := h
    exact ⟨rfl, TaskCreate.modelValidate_checked ht, ht⟩
  | updateTask =>
    simp only [readArguments, validateUpdateTask, Option.ite_none_right_eq_some,
      Option.bind_eq_bind, Option.bind_eq_some_iff, Option.some.injEq] at h
    obtain ⟨-, u, hu, taskId, -, rfl⟩ := h
    exact ⟨rfl, TaskUpdate.readFields_checked hu⟩
  | batchCreateTasks =>
    simp only [readArguments, validateBatchCreateTasks, Option.ite_none_right_eq_some,
      Option.bind_eq_bind, Option.bind_eq_some_iff, Option.some.injEq] at h
    obtain ⟨-, ts, hts, ⟨hl, hu, -⟩, rfl⟩ := h
    obtain ⟨j, -, hj⟩ := Option.bind_eq_some_iff.mp hts
    refine ⟨rfl, ⟨hl, hu⟩, fun t ht ↦ ?_⟩
    obtain ⟨x, hx⟩ := readList_mem hj ht
    exact TaskCreate.modelValidate_checked hx
  | deleteTask =>
    simp only [readArguments, validateDeleteTask, Option.ite_none_right_eq_some,
      Option.map_eq_some_iff] at h
    obtain ⟨-, taskId, -, rfl⟩ := h
    exact rfl

theorem callGateway_createTask (gateway : AgentToolGateway σ) (userId : UUID) {t : TaskCreate}
    (h : t.check = some t) : callGateway gateway userId (.createTask t) =
      mapResult .task (gateway.createTask userId t.filled) := by
  rw [callGateway, TaskCreate.filled_check h, withValid]

theorem callGateway_updateTask (gateway : AgentToolGateway σ) (userId taskId : UUID)
    {u : TaskUpdate} (h : u.check = some u) : callGateway gateway userId (.updateTask taskId u) =
      mapResult .task (gateway.updateTask userId taskId u) := by
  rw [callGateway, h, withValid]

end LearningTasks.Agent.Tools
