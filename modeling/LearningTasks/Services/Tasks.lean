import LearningTasks.Library.ReadCommitted
import LearningTasks.Schemas.Task

namespace LearningTasks.Services.Tasks

open Library.Strings Library.Transition Library.ReadCommitted Schemas.Scalars Schemas.Task

inductive TaskError
  | projectNotFound
  | taskNotFound
  | taskDateOrder
  | taskTransition
  | value
  | validation
  | database
  deriving DecidableEq

structure Task where
  id : UUID
  userId : UUID
  projectId : UUID
  title : Text
  description : Option Text
  status : TaskStatus
  priority : TaskPriority
  plannedDate : Option Date
  dueAt : Option Datetime
  estimatedMinutes : Option ℤ
  completedAt : Option Datetime
  createdAt : Datetime
  updatedAt : Datetime
  deriving DecidableEq

def Task.textsStorable (t : Task) : Bool := storable t.title && t.description.all storable

def Task.constraints (t : Task) : Bool :=
  t.textsStorable && t.title.any (· != ' ') && decide (t.title.length ≤ 300) &&
    descriptionValid t.description && minutesValid t.estimatedMinutes &&
    dateOrderValid t.plannedDate t.dueAt &&
    decide (t.status = .completed) == t.completedAt.isSome

def Task.public (t : Task) : PublicTask where
  id := t.id
  projectId := t.projectId
  title := t.title
  description := t.description
  status := t.status
  priority := t.priority
  plannedDate := t.plannedDate
  dueAt := t.dueAt
  estimatedMinutes := t.estimatedMinutes
  completedAt := t.completedAt
  createdAt := t.createdAt
  updatedAt := t.updatedAt

def modelValidate (t : Task) : Except TaskError PublicTask :=
  match t.public.check with
  | some p => .ok p
  | none => .error .validation

structure Changes where
  title : Option Text
  description : Option (Option Text)
  status : Option TaskStatus
  priority : Option TaskPriority
  plannedDate : Option (Option Date)
  dueAt : Option (Option Datetime)
  estimatedMinutes : Option (Option ℤ)
  completedAt : Option (Option Datetime)
  updatedAt : Option Datetime
  deriving DecidableEq

def Changes.apply (c : Changes) (t : Task) : Task :=
  { t with
    title := c.title.getD t.title
    description := c.description.getD t.description
    status := c.status.getD t.status
    priority := c.priority.getD t.priority
    plannedDate := c.plannedDate.getD t.plannedDate
    dueAt := c.dueAt.getD t.dueAt
    estimatedMinutes := c.estimatedMinutes.getD t.estimatedMinutes
    completedAt := c.completedAt.getD t.completedAt
    updatedAt := c.updatedAt.getD t.updatedAt }

def noChanges : Changes := ⟨none, none, none, none, none, none, none, none, none⟩

def changed {α : Type*} [DecidableEq α] (stored : α) (value : Option α) : Option α :=
  value.filter fun a ↦ a != stored

/-- `TaskRepository.update`: attributes set on the loaded object reach the
UPDATE where they differ from what was loaded. -/
def repositoryUpdate (t : Task) (values : Changes) (updatedAt : Datetime) : Changes where
  title := changed t.title values.title
  description := changed t.description values.description
  status := changed t.status values.status
  priority := changed t.priority values.priority
  plannedDate := changed t.plannedDate values.plannedDate
  dueAt := changed t.dueAt values.dueAt
  estimatedMinutes := changed t.estimatedMinutes values.estimatedMinutes
  completedAt := changed t.completedAt values.completedAt
  updatedAt := changed t.updatedAt (some updatedAt)

def allowedNonCompletedTransitions : List (TaskStatus × TaskStatus) :=
  [(.todo, .inProgress), (.todo, .cancelled), (.inProgress, .todo), (.inProgress, .cancelled),
    (.cancelled, .todo)]

def validateStatusTransition (current target : TaskStatus) : Except TaskError Unit :=
  if current = target then .ok ()
  else if current = .completed then .ok ()
  else if (current, target) ∉ allowedNonCompletedTransitions then .error .taskTransition
  else .ok ()

/-- `completed_at` in the changes of an update: cleared by a reopening. -/
def reopening (t : Task) : Option TaskStatus → Except TaskError (Option (Option Datetime))
  | none => .ok none
  | some target => (validateStatusTransition t.status target).map fun _ ↦
      if t.status = .completed ∧ target ≠ t.status then some none else none

/-- The `changes` that `update_owned_task` collects for the task it has read. -/
def updateChanges (t : Task) (u : TaskUpdate) : Except TaskError Changes :=
  if !dateOrderValid (u.plannedDate.getD t.plannedDate) (u.dueAt.getD t.dueAt) then
    .error .taskDateOrder
  else (reopening t u.status).map fun completedAt ↦ {
    title := changed t.title u.title
    description := changed t.description u.description
    status := changed t.status u.status
    priority := changed t.priority u.priority
    plannedDate := changed t.plannedDate u.plannedDate
    dueAt := changed t.dueAt u.dueAt
    estimatedMinutes := changed t.estimatedMinutes u.estimatedMinutes
    completedAt := completedAt
    updatedAt := none }

/-- The UPDATE of `update_owned_task`, or none where nothing differs. -/
def updateWrite (t : Task) (u : TaskUpdate) (now : Datetime) : Except TaskError (Option Changes) :=
  (updateChanges t u).map fun c ↦
    if c = noChanges then none else some (repositoryUpdate t c now)

/-- The UPDATE of `complete_owned_task`, or none for a completed task. -/
def completeWrite (t : Task) (now : Datetime) : Option Changes :=
  if t.status = .completed then none
  else some (repositoryUpdate t
    { noChanges with status := some .completed, completedAt := some (some now) } now)

/-- The tables behind the task service: projects as pairs of id and owner. -/
structure Db where
  projects : List (UUID × UUID)
  tasks : List Task

def Db.getOwned (db : Db) (taskId userId : UUID) : Option Task :=
  db.tasks.find? fun t ↦ t.id = taskId && t.userId = userId

def requireOwnedTask (db : Db) (taskId userId : UUID) : Except TaskError Task :=
  match db.getOwned taskId userId with
  | some t => .ok t
  | none => .error .taskNotFound

def requireOwnedProject (db : Db) (projectId userId : UUID) : Except TaskError Unit :=
  if (projectId, userId) ∈ db.projects then .ok () else .error .projectNotFound

/-- The row `TaskRepository.create` inserts, with the id and the time that the
server supplies. -/
def newTask (t : TaskCreate) (userId id : UUID) (now : Datetime) : Task where
  id := id
  userId := userId
  projectId := t.projectId
  title := t.title
  description := t.filled.description.join
  status := .todo
  priority := t.priority.getD .medium
  plannedDate := t.filled.plannedDate.join
  dueAt := t.filled.dueAt.join
  estimatedMinutes := t.filled.estimatedMinutes.join
  completedAt := none
  createdAt := now
  updatedAt := now

def Db.insert (db : Db) (t : Task) : Except TaskError Db :=
  if t.constraints ∧ ∀ r ∈ db.tasks, r.id ≠ t.id then .ok { db with tasks := db.tasks ++ [t] }
  else .error .database

def Db.update (db : Db) (id : UUID) (c : Changes) : Except TaskError Db :=
  if ∀ r ∈ db.tasks, r.id = id → (c.apply r).constraints then
    .ok { db with tasks := db.tasks.map fun r ↦ if r.id = id then c.apply r else r }
  else .error .database

def createTask (t : TaskCreate) (userId id : UUID) (now : Datetime) (db : Db) :
    Except TaskError (PublicTask × Db) := do
  requireOwnedProject db t.projectId userId
  let db' ← db.insert (newTask t userId id now)
  return (← modelValidate (newTask t userId id now), db')

def createTasks (userId : UUID) (now : Datetime) :
    List (TaskCreate × UUID) → Db → Except TaskError (List PublicTask × Db)
  | [], db => .ok ([], db)
  | (t, id) :: rest, db => do
    let db' ← db.insert (newTask t userId id now)
    let created ← modelValidate (newTask t userId id now)
    let (others, db'') ← createTasks userId now rest db'
    return (created :: others, db'')

/-- One transaction for all inputs: an error leaves the database as it was. -/
def createTaskBatch (inputs : List (TaskCreate × UUID)) (userId : UUID) (now : Datetime) (db : Db) :
    Except TaskError (List PublicTask × Db) := do
  match inputs with
  | [] => throw .value
  | (first, _) :: _ =>
    if inputs.length > 10 then throw .value
    if inputs.any fun i ↦ i.1.projectId != first.projectId then throw .value
    requireOwnedProject db first.projectId userId
    createTasks userId now inputs db

def getOwnedTask (taskId userId : UUID) (db : Db) : Except TaskError PublicTask := do
  modelValidate (← requireOwnedTask db taskId userId)

/-- The flush and the response of an update, on the task that was read. -/
def flush (t : Task) (c : Changes) (db : Db) : Except TaskError (PublicTask × Db) := do
  let db' ← db.update t.id c
  return (← modelValidate (c.apply t), db')

def updateOwnedTask (taskId : UUID) (u : TaskUpdate) (userId : UUID) (now : Datetime) (db : Db) :
    Except TaskError (PublicTask × Db) := do
  let t ← requireOwnedTask db taskId userId
  match ← updateWrite t u now with
  | none => return (← modelValidate t, db)
  | some c => flush t c db

def completeOwnedTask (taskId userId : UUID) (now : Datetime) (db : Db) :
    Except TaskError (PublicTask × Db) := do
  let t ← requireOwnedTask db taskId userId
  match completeWrite t now with
  | none => return (← modelValidate t, db)
  | some c => flush t c db

def deleteOwnedTask (taskId userId : UUID) (db : Db) : Except TaskError Db := do
  let t ← requireOwnedTask db taskId userId
  return { db with tasks := db.tasks.filter fun r ↦ r.id != t.id }

abbrev ValidUpdate := { u : TaskUpdate // u.check = some u }

inductive Request
  | update (userId : UUID) (u : ValidUpdate) (now : Datetime)
  | complete (userId : UUID) (now : Datetime)

/-- What a request that has read the task writes. A response that does not
validate rolls the write back. -/
def plan (req : Request) (t : Task) : Option (Task → Task) :=
  let write : Option Changes := match req with
    | .update userId u now =>
      if t.userId = userId then (updateWrite t u.1 now).toOption.join else none
    | .complete userId now => if t.userId = userId then completeWrite t now else none
  write.bind fun c ↦ (modelValidate (c.apply t)).toOption.map fun _ ↦ c.apply

def taskEditor : Editor Request Task where
  plan := plan
  check := Task.constraints

def taskMachine (τ : Type) [DecidableEq τ] (row : Task) :
    Machine (State τ Request Task) (Move τ Request) := machine taskEditor row

theorem changed_changed {α : Type*} [DecidableEq α] (stored : α) (value : Option α) :
    changed stored (changed stored value) = changed stored value := by
  simp [changed]

theorem updateChanges_ok {t : Task} {u : TaskUpdate} {c : Changes}
    (h : updateChanges t u = .ok c) :
    (∀ target, u.status = some target → validateStatusTransition t.status target = .ok ()) ∧
      c.status = changed t.status u.status := by
  unfold updateChanges at h
  split at h
  · cases h
  · cases hs : u.status with
    | none =>
      rw [hs] at h
      cases h
      exact ⟨fun _ h ↦ (by cases h), rfl⟩
    | some target =>
      rw [hs, reopening] at h
      cases hv : validateStatusTransition t.status target with
      | error e => simp [hv, Except.map] at h
      | ok v =>
        simp only [hv, Except.map, Except.ok.injEq] at h
        subst h
        exact ⟨fun _ h ↦ by cases h; exact hv, rfl⟩

theorem updateWrite_ok {t : Task} {u : TaskUpdate} {now : Datetime} {c : Changes}
    (h : updateWrite t u now = .ok (some c)) :
    (∀ target, u.status = some target → validateStatusTransition t.status target = .ok ()) ∧
      c.status = changed t.status u.status := by
  unfold updateWrite at h
  cases hc : updateChanges t u with
  | error e => simp [hc, Except.map] at h
  | ok values =>
    obtain ⟨hv, hs⟩ := updateChanges_ok hc
    simp only [hc, Except.map, Except.ok.injEq, Option.ite_none_left_eq_some,
      Option.some.injEq] at h
    obtain ⟨-, rfl⟩ := h
    exact ⟨hv, by simp only [repositoryUpdate, hs, changed_changed]⟩

theorem plan_cases {req : Request} {t : Task} {patch : Task → Task} (h : plan req t = some patch) :
    ∃ c : Changes, patch = c.apply ∧
      ((∃ userId u now, req = .update userId u now ∧ c.status = changed t.status u.1.status ∧
        ∀ target, u.1.status = some target → validateStatusTransition t.status target = .ok ()) ∨
      (∃ userId now, req = .complete userId now ∧ c.status = some .completed)) := by
  unfold plan at h
  simp only [Option.bind_eq_some_iff, Option.map_eq_some_iff] at h
  obtain ⟨c, hc, -, -, rfl⟩ := h
  refine ⟨c, rfl, ?_⟩
  cases req with
  | update userId u now =>
    simp only [Option.ite_none_right_eq_some] at hc
    cases hw : updateWrite t u.1 now with
    | error e => simp [hw, Except.toOption] at hc
    | ok w =>
      simp only [hw, Except.toOption, Option.join_some] at hc
      obtain ⟨-, rfl⟩ := hc
      obtain ⟨hv, hs⟩ := updateWrite_ok hw
      exact .inl ⟨userId, u, now, rfl, hs, hv⟩
  | complete userId now =>
    simp only [Option.ite_none_right_eq_some] at hc
    obtain ⟨-, hc⟩ := hc
    unfold completeWrite at hc
    simp only [Option.ite_none_left_eq_some, Option.some.injEq] at hc
    obtain ⟨hne, rfl⟩ := hc
    refine .inr ⟨userId, now, rfl, ?_⟩
    simp only [repositoryUpdate, changed, Option.filter_some]
    exact if_pos (by simpa using Ne.symm hne)

def LegalChange (old new : TaskStatus) : Prop :=
  (old, new) ∈ allowedNonCompletedTransitions ∨ old = .completed ∨ new = .completed

instance (old new : TaskStatus) : Decidable (LegalChange old new) :=
  inferInstanceAs (Decidable (_ ∨ _ ∨ _))

/-- The write of a request that changes the status it has read finds that
status still there. -/
def StatusFresh (req : Request) (seen row : Task) : Prop :=
  match req with
  | .update _ u _ => (changed seen.status u.1.status).isSome → row.status = seen.status
  | .complete _ _ => True

theorem legalChange_of_validate {current target : TaskStatus} (hne : target ≠ current)
    (h : validateStatusTransition current target = .ok ()) : LegalChange current target := by
  unfold validateStatusTransition at h
  split at h
  · next he => exact absurd he.symm hne
  · split at h
    · next hc => exact .inr (.inl hc)
    · split at h
      · cases h
      · next hm => exact .inl (not_not.mp hm)

theorem legalChange_of_plan {req : Request} {seen row : Task} {patch : Task → Task}
    (h : plan req seen = some patch) (hf : StatusFresh req seen row)
    (hne : (patch row).status ≠ row.status) : LegalChange row.status (patch row).status := by
  obtain ⟨c, rfl, ⟨userId, u, now, rfl, hs, hv⟩ | ⟨userId, now, rfl, hs⟩⟩ := plan_cases h
  · simp only [Changes.apply, hs] at hne ⊢
    cases ht : u.1.status with
    | none => simp [ht, changed] at hne
    | some target =>
      by_cases he : target = seen.status
      · rw [ht, he] at hne
        simp [changed, Option.filter] at hne
      · have hc : changed seen.status (some target) = some target := by
          simpa [changed] using he
        have hr : row.status = seen.status := hf (by simp [ht, hc])
        simp only [ht, hc, Option.getD_some, hr] at hne ⊢
        exact legalChange_of_validate he (hv target ht)
  · exact .inr (.inr (by simp [Changes.apply, hs]))

theorem constraints_status {t : Task} (h : t.constraints = true) :
    (t.completedAt.isSome = true ↔ t.status = .completed) ∧
      dateOrderValid t.plannedDate t.dueAt = true := by
  simp only [Task.constraints, Bool.and_eq_true, beq_iff_eq] at h
  obtain ⟨⟨_, hd⟩, hc⟩ := h
  exact ⟨by rw [← hc]; simp, hd⟩

/-- Every committed version meets the completion and date constraints in any
interleaving, and every committed change of status is legal where no other
status was committed between the read and the write of a request. -/
theorem status_law_of_fresh_writes (τ : Type) [DecidableEq τ] (row : Task)
    (hrow : row.constraints = true) :
    (∀ s, (taskMachine τ row).Reachable s →
      (s.row.completedAt.isSome = true ↔ s.row.status = .completed) ∧
        dateOrderValid s.row.plannedDate s.row.dueAt = true) ∧
    ∀ s, (taskMachine τ row).ReachableUnder (FreshWrites StatusFresh) s →
      ∀ m s', (taskMachine τ row).step s m = some s' → s'.row.status ≠ s.row.status →
        LegalChange s.row.status s'.row.status := by
  refine ⟨fun s h ↦ constraints_status (inv_reachable hrow h).row, fun s h m s' hs hne ↦ ?_⟩
  obtain he | ⟨t, req, seen, patch, -, hp, -, hpl, hr⟩ :=
    row_step (inv_reachable hrow h.reachable) hs
  · exact absurd (congrArg Task.status he) hne
  · have hf := fresh_written hrow h t req seen _ hp
    rw [hr] at hne ⊢
    exact legalChange_of_plan hpl hf hne

def sampleUser : UUID := sampleId 7

def sampleTask : Task :=
  newTask ⟨sampleId 2, "Read".toList, none, none, none, none, none⟩ sampleUser (sampleId 1)
    sampleDate.midnight

def setStatus (status : TaskStatus) (h : status ≠ .completed) : ValidUpdate :=
  ⟨⟨none, none, none, none, none, none, some status⟩, by cases status <;> simp_all [TaskUpdate.check,
    TaskUpdate.isEmpty, descriptionValid, minutesValid]⟩

/-- One request completes a task that it has read before another one has started it. -/
theorem status_law_of_fresh_writes_sample :
    ∃ s s', (taskMachine Bool sampleTask).ReachableUnder (FreshWrites StatusFresh) s ∧
      (taskMachine Bool sampleTask).step s (.commit false) = some s' ∧
      s.row.status = .inProgress ∧ s'.row.status = .completed ∧
      LegalChange s.row.status s'.row.status := by
  have h0 : (taskMachine Bool sampleTask).ReachableUnder (FreshWrites StatusFresh) _ := .init rfl
  have h1 := h0.step (i := Move.read true (.update sampleUser (setStatus .inProgress (by decide))
    sampleDate.midnight)) trivial rfl
  have h2 := h1.step (i := Move.read false (.complete sampleUser sampleDate.midnight)) trivial rfl
  have h3 := h2.step (i := Move.write true) (by rintro req seen ⟨⟩ -; rfl) rfl
  have h4 := h3.step (i := Move.commit true) trivial rfl
  have h5 := h4.step (i := Move.write false) (by rintro req seen ⟨⟩; trivial) rfl
  obtain ⟨s, hs, s', hcommit, hold, hnew⟩ : ∃ s, (taskMachine Bool sampleTask).ReachableUnder
      (FreshWrites StatusFresh) s ∧ ∃ s', (taskMachine Bool sampleTask).step s (.commit false) =
        some s' ∧ s.row.status = .inProgress ∧ s'.row.status = .completed :=
    ⟨_, h5, _, rfl, rfl, rfl⟩
  have hne : s'.row.status ≠ s.row.status := by
    rw [hold, hnew]
    decide
  exact ⟨s, s', hs, hcommit, hold, hnew,
    (status_law_of_fresh_writes Bool sampleTask (by decide)).2 s hs _ s' hcommit hne⟩

/-- One request starts the task while another cancels it: both have read it as
to do, and the task goes from cancelled to in progress. -/
def startAndCancel : List (Move Bool Request) :=
  [.read true (.update sampleUser (setStatus .inProgress (by decide)) sampleDate.midnight),
    .read false (.update sampleUser (setStatus .cancelled (by decide)) sampleDate.midnight),
    .write false, .commit false, .write true]

theorem status_law_fails_on_stale_read :
    ∃ s s', (taskMachine Bool sampleTask).Reachable s ∧
      (taskMachine Bool sampleTask).step s (.commit true) = some s' ∧
      s.row.status = .cancelled ∧ s'.row.status = .inProgress ∧
      ¬ LegalChange .cancelled .inProgress := by
  have hrun : (((taskMachine Bool sampleTask).exec ⟨sampleTask, fun _ ↦ .idle, none⟩
      startAndCancel).map fun s ↦ (s.row.status,
        ((taskMachine Bool sampleTask).step s (.commit true)).map fun s' ↦ s'.row.status)) =
      some (.cancelled, some .inProgress) := by decide
  obtain ⟨s, hs, he⟩ := Option.map_eq_some_iff.mp hrun
  obtain ⟨hc, hi⟩ := Prod.mk.inj he
  obtain ⟨s', hs', hi⟩ := Option.map_eq_some_iff.mp hi
  exact ⟨s, s', (Machine.Reachable.start rfl).exec hs, hs', hc, hi, by decide⟩

end LearningTasks.Services.Tasks
