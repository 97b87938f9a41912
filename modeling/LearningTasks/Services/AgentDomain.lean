import LearningTasks.Agent.Tools
import LearningTasks.Library.Fallible
import LearningTasks.Services.Tasks

namespace LearningTasks.Services.AgentDomain

open Library.Strings Library.Serialization Library.Fallible Schemas.Scalars Schemas.Task
  Models.Agent Agent.Schemas Agent.State Agent.Tools
open Services.Tasks (Db Task TaskError createTask createTasks createTaskBatch updateOwnedTask
  deleteOwnedTask modelValidate requireOwnedTask requireOwnedProject newTask Changes)

/-- What the server supplies to a transaction: the ids of new rows and the time. -/
structure Supply where
  newId : Db → ℕ → UUID
  now : Db → Datetime

def toolError : TaskError → ToolError
  | .projectNotFound => .projectNotFound
  | .taskNotFound => .taskNotFound
  | .taskDateOrder => .taskDateOrder
  | .taskTransition => .taskTransition
  | .value | .validation | .database => .other

variable {α : Type}

/-- A service in a session of its own: an error leaves the tables as they were. -/
def transaction (service : Db → Except TaskError (α × Db)) : Effect Db α := fun db ↦
  match service db with
  | .ok (a, db') => (.ok a, db')
  | .error e => (.error (toolError e), db)

def mutation (receipt : AgentToolMutationResult) : Effect Db AgentToolMutationResult := fun db ↦
  match receipt.check with
  | some receipt => (.ok receipt, db)
  | none => (.error .other, db)

def createdSummary (n : ℕ) : Text := "Created ".toList ++ natRepr n ++ " tasks".toList

def deletedSummary : Text := "Task deleted".toList

def domainGateway (supply : Supply) : AgentToolGateway Db where
  createTask userId task := fun db ↦
    transaction (createTask task userId (supply.newId db 0) (supply.now db)) db
  updateTask userId taskId changes := fun db ↦
    transaction (updateOwnedTask taskId changes userId (supply.now db)) db
  batchCreateTasks userId tasks := fun db ↦
    let inputs := tasks.zipIdx.map fun t ↦ (t.1, supply.newId db t.2)
    match transaction (createTaskBatch inputs userId (supply.now db)) db with
    | (.ok (first :: others), db) =>
      let n := (first :: others).length
      mutation ⟨.batchCreateTasks, first.id, n, createdSummary n⟩ db
    | (.ok [], db) => (.error .other, db)
    | (.error e, db) => (.error e, db)
  deleteTask userId taskId := fun db ↦
    match transaction (fun db ↦ (deleteOwnedTask taskId userId db).map fun db ↦ ((), db)) db with
    | (.ok _, db) => mutation ⟨.deleteTask, taskId, 1, deletedSummary⟩ db
    | (.error e, db) => (.error e, db)

def noWrite : ToolError → Bool
  | .taskNotFound | .projectNotFound | .taskDateOrder | .taskTransition | .archivedProject => true
  | .toolNotAllowed | .toolInput | .other => false

theorem transaction_error {service : Db → Except TaskError (α × Db)} {db db' : Db} {e : ToolError}
    (h : transaction service db = (.error e, db')) : db' = db := by
  unfold transaction at h
  cases hs : service db with
  | error e' =>
    rw [hs] at h
    cases h
    rfl
  | ok x =>
    rw [hs] at h
    cases h

theorem transaction_ok {service : Db → Except TaskError (α × Db)} {db db' : Db} {a : α}
    (h : transaction service db = (.ok a, db')) : service db = .ok (a, db') := by
  unfold transaction at h
  cases hs : service db with
  | error e' =>
    rw [hs] at h
    cases h
  | ok x =>
    obtain ⟨b, db₁⟩ := x
    rw [hs] at h
    cases h
    rfl

def Valid (db : Db) : Prop := ∀ t ∈ db.tasks, t.constraints = true

namespace Valid

variable {db db' : Db}

theorem insert (h : Valid db) {t : Task} (hi : db.insert t = .ok db') : Valid db' := by
  unfold Tasks.Db.insert at hi
  split at hi
  · next hc =>
    cases hi
    intro r hr
    rcases List.mem_append.mp hr with hr | hr
    · exact h r hr
    · rw [List.mem_singleton.mp hr]
      exact hc.1
  · cases hi

theorem update (h : Valid db) {id : UUID} {c : Changes} (hu : db.update id c = .ok db') :
    Valid db' := by
  unfold Tasks.Db.update at hu
  split at hu
  · next hc =>
    cases hu
    intro r hr
    obtain ⟨r', hr', rfl⟩ := List.mem_map.mp hr
    split
    · next hid => exact hc r' hr' hid
    · exact h r' hr'
  · cases hu

theorem flush (h : Valid db) {t : Task} {c : Changes} {p : PublicTask}
    (hf : Tasks.flush t c db = .ok (p, db')) : Valid db' := by
  obtain ⟨db₁, hu, hf⟩ := bind_ok hf
  obtain ⟨q, -, hf⟩ := bind_ok hf
  cases hf
  exact h.update hu

theorem createTask (h : Valid db) {t : TaskCreate} {userId id : UUID} {now : Datetime}
    {p : PublicTask} (hc : Tasks.createTask t userId id now db = .ok (p, db')) : Valid db' := by
  obtain ⟨-, -, hc⟩ := bind_ok hc
  obtain ⟨db₁, hi, hc⟩ := bind_ok hc
  obtain ⟨q, -, hc⟩ := bind_ok hc
  cases hc
  exact h.insert hi

theorem createTasks (h : Valid db) {userId : UUID} {now : Datetime}
    {inputs : List (TaskCreate × UUID)} {ps : List PublicTask}
    (hc : Tasks.createTasks userId now inputs db = .ok (ps, db')) : Valid db' := by
  induction inputs generalizing db ps with
  | nil =>
    cases hc
    exact h
  | cons input inputs ih =>
    obtain ⟨db₁, hi, hc⟩ := bind_ok hc
    obtain ⟨q, -, hc⟩ := bind_ok hc
    obtain ⟨⟨others, db₂⟩, hrest, hc⟩ := bind_ok hc
    cases hc
    exact ih (h.insert hi) hrest

theorem createTaskBatch (h : Valid db) {userId : UUID} {now : Datetime}
    {inputs : List (TaskCreate × UUID)} {ps : List PublicTask}
    (hc : Tasks.createTaskBatch inputs userId now db = .ok (ps, db')) : Valid db' := by
  cases inputs with
  | nil => cases hc
  | cons input inputs =>
    obtain ⟨first, id⟩ := input
    simp only [Tasks.createTaskBatch] at hc
    split at hc
    · cases hc
    · split at hc
      · cases hc
      · obtain ⟨-, -, hc⟩ := bind_ok hc
        exact h.createTasks hc

theorem updateOwnedTask (h : Valid db) {taskId userId : UUID} {u : TaskUpdate} {now : Datetime}
    {p : PublicTask} (hu : Tasks.updateOwnedTask taskId u userId now db = .ok (p, db')) :
    Valid db' := by
  obtain ⟨t, -, hu⟩ := bind_ok hu
  obtain ⟨write, -, hu⟩ := bind_ok hu
  cases write with
  | none =>
    obtain ⟨q, -, hu⟩ := bind_ok hu
    cases hu
    exact h
  | some c => exact h.flush hu

theorem deleteOwnedTask (h : Valid db) {taskId userId : UUID}
    (hd : Tasks.deleteOwnedTask taskId userId db = .ok db') : Valid db' := by
  obtain ⟨t, -, hd⟩ := bind_ok hd
  cases hd
  intro r hr
  exact h r (List.mem_filter.mp hr).1

end Valid

def Answers (name : AgentWriteToolName) (result : AgentWriteToolResult) : Prop :=
  match name with
  | .createTask | .updateTask => ∃ task, result = .task task
  | .batchCreateTasks => ∃ id n, (1 ≤ n ∧ n ≤ 10) ∧
      result = .mutation ⟨.batchCreateTasks, id, n, createdSummary n⟩
  | .deleteTask => ∃ id, result = .mutation ⟨.deleteTask, id, 1, deletedSummary⟩

theorem mapResult_ok {σ β : Type} {f : α → β} {effect : Effect σ α} {w w' : σ} {b : β}
    (h : mapResult f effect w = (.ok b, w')) : ∃ a, effect w = (.ok a, w') ∧ b = f a := by
  unfold mapResult at h
  rcases he : effect w with ⟨e | a, w₁⟩
  · rw [he] at h
    cases h
  · rw [he] at h
    cases h
    exact ⟨a, rfl, rfl⟩

theorem mapResult_error {σ β : Type} {f : α → β} {effect : Effect σ α} {w w' : σ} {e : ToolError}
    (h : mapResult f effect w = (.error e, w')) : effect w = (.error e, w') := by
  unfold mapResult at h
  rcases he : effect w with ⟨e' | a, w₁⟩
  · rw [he] at h
    cases h
    rfl
  · rw [he] at h
    cases h

theorem mutation_ok {receipt result : AgentToolMutationResult} {db db' : Db}
    (h : mutation receipt db = (.ok result, db')) :
    receipt.check = some result ∧ result = receipt ∧ db' = db := by
  unfold mutation at h
  cases hc : receipt.check with
  | none =>
    rw [hc] at h
    cases h
  | some checked =>
    rw [hc] at h
    cases h
    unfold AgentToolMutationResult.check at hc
    split at hc
    · cases hc
      exact ⟨rfl, rfl, rfl⟩
    · cases hc

theorem mutation_error {receipt : AgentToolMutationResult} {db db' : Db} {e : ToolError}
    (h : mutation receipt db = (.error e, db')) : e = .other := by
  unfold mutation at h
  cases hc : receipt.check with
  | none =>
    rw [hc] at h
    cases h
    rfl
  | some checked =>
    rw [hc] at h
    cases h

section

variable {supply : Supply} {userId : UUID} {db db' : Db}

theorem batchCreateTasks_ok (h : Valid db) {tasks : List TaskCreate}
    {result : AgentToolMutationResult}
    (hrun : (domainGateway supply).batchCreateTasks userId tasks db = (.ok result, db')) :
    Answers .batchCreateTasks (.mutation result) ∧ Valid db' := by
  simp only [domainGateway] at hrun
  split at hrun
  · next first others db₁ hservice =>
    obtain ⟨hcheck, rfl, rfl⟩ := mutation_ok hrun
    unfold AgentToolMutationResult.check at hcheck
    split at hcheck
    · next hbounds =>
      exact ⟨⟨first.id, (first :: others).length, hbounds.1, rfl⟩,
        h.createTaskBatch (transaction_ok hservice)⟩
    · cases hcheck
  · cases hrun
  · cases hrun

theorem deleteTask_ok (h : Valid db) {taskId : UUID} {result : AgentToolMutationResult}
    (hrun : (domainGateway supply).deleteTask userId taskId db = (.ok result, db')) :
    Answers .deleteTask (.mutation result) ∧ Valid db' := by
  simp only [domainGateway] at hrun
  split at hrun
  · next u db₁ hservice =>
    obtain ⟨-, rfl, rfl⟩ := mutation_ok hrun
    obtain ⟨db₂, hdelete, heq⟩ := map_ok (transaction_ok hservice)
    cases heq
    exact ⟨⟨taskId, rfl⟩, h.deleteOwnedTask hdelete⟩
  · cases hrun

theorem executeTool_ok {c : Coercions} {name : AgentWriteToolName} {arguments : Fields}
    {context : AgentRuntimeContext} {result : AgentWriteToolResult} (h : Valid db)
    (hrun : executeTool c (domainGateway supply) name arguments context db = (.ok result, db')) :
    Answers name result ∧ Valid db' := by
  unfold executeTool at hrun
  cases hv : validateToolArguments c name arguments context with
  | error e =>
    rw [hv] at hrun
    cases hrun
  | ok validated =>
    have hval := readArguments_validated (validateToolArguments_ok hv).2
    simp only [hv] at hrun
    cases validated with
    | createTask t =>
      obtain ⟨rfl, hcheck, -⟩ := hval
      rw [callGateway_createTask _ _ hcheck] at hrun
      obtain ⟨task, hservice, rfl⟩ := mapResult_ok hrun
      exact ⟨⟨task, rfl⟩, h.createTask (transaction_ok hservice)⟩
    | updateTask taskId u =>
      obtain ⟨rfl, hcheck⟩ := hval
      rw [callGateway_updateTask _ _ _ hcheck] at hrun
      obtain ⟨task, hservice, rfl⟩ := mapResult_ok hrun
      exact ⟨⟨task, rfl⟩, h.updateOwnedTask (transaction_ok hservice)⟩
    | batchCreateTasks ts =>
      obtain ⟨rfl, -⟩ := hval
      obtain ⟨receipt, hservice, rfl⟩ := mapResult_ok hrun
      exact batchCreateTasks_ok h hservice
    | deleteTask taskId =>
      obtain rfl : name = .deleteTask := hval
      obtain ⟨receipt, hservice, rfl⟩ := mapResult_ok hrun
      exact deleteTask_ok h hservice

theorem executeTool_error {c : Coercions} {name : AgentWriteToolName} {arguments : Fields}
    {context : AgentRuntimeContext} {e : ToolError} (he : noWrite e = true)
    (hrun : executeTool c (domainGateway supply) name arguments context db = (.error e, db')) :
    db' = db := by
  unfold executeTool at hrun
  cases hv : validateToolArguments c name arguments context with
  | error e' =>
    rw [hv] at hrun
    cases hrun
    rfl
  | ok validated =>
    have hval := readArguments_validated (validateToolArguments_ok hv).2
    simp only [hv] at hrun
    cases validated with
    | createTask t =>
      rw [callGateway_createTask _ _ hval.2.1] at hrun
      exact transaction_error (mapResult_error hrun)
    | updateTask taskId u =>
      rw [callGateway_updateTask _ _ _ hval.2] at hrun
      exact transaction_error (mapResult_error hrun)
    | batchCreateTasks ts =>
      have hbatch := mapResult_error hrun
      simp only [domainGateway] at hbatch
      split at hbatch
      · rw [mutation_error hbatch] at he
        cases he
      · cases hbatch
        cases he
      · next hservice =>
        cases hbatch
        exact transaction_error hservice
    | deleteTask taskId =>
      have hdelete := mapResult_error hrun
      simp only [domainGateway] at hdelete
      split at hdelete
      · rw [mutation_error hdelete] at he
        cases he
      · next hservice =>
        cases hdelete
        exact transaction_error hservice

end

end LearningTasks.Services.AgentDomain
