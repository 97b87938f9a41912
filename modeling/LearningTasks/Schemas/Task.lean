import LearningTasks.Schemas.Scalars

namespace LearningTasks.Schemas.Task

open Library.Strings Library.Serialization Library.Records Scalars

inductive TaskStatus
  | todo
  | inProgress
  | completed
  | cancelled
  deriving DecidableEq

inductive TaskPriority
  | low
  | medium
  | high
  | urgent
  deriving DecidableEq

def TaskStatus.value : TaskStatus → Text
  | .todo => "TODO".toList
  | .inProgress => "IN_PROGRESS".toList
  | .completed => "COMPLETED".toList
  | .cancelled => "CANCELLED".toList

def TaskPriority.value : TaskPriority → Text
  | .low => "LOW".toList
  | .medium => "MEDIUM".toList
  | .high => "HIGH".toList
  | .urgent => "URGENT".toList

def readStatus : Json → Option TaskStatus :=
  readEnum [.todo, .inProgress, .completed, .cancelled] TaskStatus.value

def readPriority : Json → Option TaskPriority :=
  readEnum [.low, .medium, .high, .urgent] TaskPriority.value

/-- `_normalize_description`: trimmed, and blank text made null. -/
def normalizeDescription : Option Text → Option Text
  | none => none
  | some s => if strip s = [] then none else some (strip s)

def dateOrderValid (planned : Option Date) (due : Option Datetime) : Bool :=
  match planned, due with
  | some d, some t => !decide (t < d.midnight)
  | _, _ => true

def lengthBetween (low high : ℕ) (s : Text) : Bool := low ≤ s.length && s.length ≤ high

def minutesValid : Option ℤ → Bool
  | none => true
  | some n => 1 ≤ n && n ≤ 1440

def descriptionValid : Option Text → Bool
  | none => true
  | some s => s.length ≤ 5000

/-- A field left out is `none`; `description := some none` is an explicit null. -/
structure TaskCreate where
  projectId : UUID
  title : Text
  description : Option (Option Text)
  plannedDate : Option (Option Date)
  dueAt : Option (Option Datetime)
  estimatedMinutes : Option (Option ℤ)
  priority : Option TaskPriority
  deriving DecidableEq

/-- The field and model validators of `TaskCreate`, on typed values. -/
def TaskCreate.check (t : TaskCreate) : Option TaskCreate :=
  let title := strip t.title
  let description := t.description.map normalizeDescription
  if lengthBetween 1 300 title && descriptionValid description.join &&
      minutesValid t.estimatedMinutes.join && dateOrderValid t.plannedDate.join t.dueAt.join then
    some { t with title := title, description := description }
  else none

/-- The value with its defaults filled in, as `model_dump()` returns it. -/
def TaskCreate.filled (t : TaskCreate) : TaskCreate :=
  { t with
    description := some t.description.join
    plannedDate := some t.plannedDate.join
    dueAt := some t.dueAt.join
    estimatedMinutes := some t.estimatedMinutes.join
    priority := some (t.priority.getD .medium) }

structure TaskUpdate where
  title : Option Text
  description : Option (Option Text)
  plannedDate : Option (Option Date)
  dueAt : Option (Option Datetime)
  estimatedMinutes : Option (Option ℤ)
  priority : Option TaskPriority
  status : Option TaskStatus
  deriving DecidableEq

def TaskUpdate.isEmpty (u : TaskUpdate) : Bool :=
  u.title.isNone && u.description.isNone && u.plannedDate.isNone && u.dueAt.isNone &&
    u.estimatedMinutes.isNone && u.priority.isNone && u.status.isNone

def TaskUpdate.check (u : TaskUpdate) : Option TaskUpdate :=
  let title := u.title.map strip
  let description := u.description.map normalizeDescription
  if (title.all (lengthBetween 1 300)) && descriptionValid description.join &&
      minutesValid u.estimatedMinutes.join && u.status != some .completed && !u.isEmpty &&
      (u.plannedDate.isNone || u.dueAt.isNone ||
        dateOrderValid u.plannedDate.join u.dueAt.join) then
    some { u with title := title, description := description }
  else none

structure PublicTask where
  id : UUID
  projectId : UUID
  title : Text
  description : Option Text
  status : TaskStatus
  priority : TaskPriority
  plannedDate : Option Date
  dueAt : Option Datetime
  estimatedMinutes : Option ℤ
  completedAt : Option Datetime
  createdAt : Datetime
  updatedAt : Datetime
  deriving DecidableEq

def PublicTask.check (t : PublicTask) : Option PublicTask :=
  if (t.status = .completed) = (t.completedAt.isSome = true) then some t else none

theorem strip_normalizeDescription (d : Option Text) :
    normalizeDescription (normalizeDescription d) = normalizeDescription d := by
  cases d with
  | none => rfl
  | some s =>
    by_cases h : strip s = []
    · simp [normalizeDescription, h]
    · simp [normalizeDescription, h, strip_strip]

theorem TaskCreate.check_check {t u : TaskCreate} (h : t.check = some u) : u.check = some u := by
  unfold TaskCreate.check at h
  simp only [Option.ite_none_right_eq_some, Option.some.injEq] at h
  obtain ⟨hc, rfl⟩ := h
  have hd : (Option.map normalizeDescription t.description).map normalizeDescription =
      t.description.map normalizeDescription := by
    cases t.description with
    | none => rfl
    | some d => simp only [Option.map_some, strip_normalizeDescription]
  unfold TaskCreate.check
  simp only [hd, strip_strip, hc, ↓reduceIte]

theorem TaskUpdate.check_check {t u : TaskUpdate} (h : t.check = some u) : u.check = some u := by
  unfold TaskUpdate.check at h
  simp only [Option.ite_none_right_eq_some, Option.some.injEq] at h
  obtain ⟨hc, rfl⟩ := h
  have hd : (Option.map normalizeDescription t.description).map normalizeDescription =
      t.description.map normalizeDescription := by
    cases t.description with
    | none => rfl
    | some d => simp only [Option.map_some, strip_normalizeDescription]
  have ht : (Option.map strip t.title).map strip = t.title.map strip := by
    cases t.title with
    | none => rfl
    | some d => simp only [Option.map_some, strip_strip]
  have he : TaskUpdate.isEmpty { t with
      title := t.title.map strip, description := t.description.map normalizeDescription } =
      t.isEmpty := by
    cases ht : t.title <;> cases hd : t.description <;> simp [TaskUpdate.isEmpty, ht, hd]
  unfold TaskUpdate.check
  simp only [hd, ht, he, hc, ↓reduceIte]

def TaskCreate.keys : List Text :=
  ["project_id".toList, "title".toList, "description".toList, "planned_date".toList,
    "due_at".toList, "estimated_minutes".toList, "priority".toList]

def TaskCreate.readFields (c : Coercions) (fields : Fields) : Option TaskCreate := do
  let projectId ← requiredField c.uuid "project_id".toList fields
  let title ← requiredField readText "title".toList fields
  let description ← optionalField (readNullable readText) "description".toList fields
  let plannedDate ← optionalField (readNullable c.date) "planned_date".toList fields
  let dueAt ← optionalField (readNullable c.utc) "due_at".toList fields
  let estimatedMinutes ← optionalField (readNullable c.int) "estimated_minutes".toList fields
  let priority ← optionalField readPriority "priority".toList fields
  TaskCreate.check ⟨projectId, title, description, plannedDate, dueAt, estimatedMinutes, priority⟩

def TaskCreate.modelValidate (c : Coercions) : Json → Option TaskCreate :=
  readModel TaskCreate.keys (TaskCreate.readFields c)

def dumpDetails (description : Option (Option Text)) (plannedDate : Option (Option Date))
    (dueAt : Option (Option Datetime)) (estimatedMinutes : Option (Option ℤ))
    (priority : Option TaskPriority) : Fields :=
  given "description".toList (writeNullable .str) description ++
    (given "planned_date".toList (writeNullable (.str ·.iso)) plannedDate ++
    (given "due_at".toList (writeNullable (.str ·.iso)) dueAt ++
    (given "estimated_minutes".toList (writeNullable .int) estimatedMinutes ++
    given "priority".toList (.str ·.value) priority)))

def TaskCreate.dump (t : TaskCreate) : Fields :=
  ("project_id".toList, .str t.projectId.text) :: ("title".toList, .str t.title) ::
    dumpDetails t.description t.plannedDate t.dueAt t.estimatedMinutes t.priority

def TaskUpdate.keys : List Text :=
  ["title".toList, "description".toList, "planned_date".toList, "due_at".toList,
    "estimated_minutes".toList, "priority".toList, "status".toList]

def TaskUpdate.readFields (c : Coercions) (fields : Fields) : Option TaskUpdate := do
  let title ← optionalField readText "title".toList fields
  let description ← optionalField (readNullable readText) "description".toList fields
  let plannedDate ← optionalField (readNullable c.date) "planned_date".toList fields
  let dueAt ← optionalField (readNullable c.utc) "due_at".toList fields
  let estimatedMinutes ← optionalField (readNullable c.int) "estimated_minutes".toList fields
  let priority ← optionalField readPriority "priority".toList fields
  let status ← optionalField readStatus "status".toList fields
  TaskUpdate.check ⟨title, description, plannedDate, dueAt, estimatedMinutes, priority, status⟩

def TaskUpdate.modelValidate (c : Coercions) : Json → Option TaskUpdate :=
  readModel TaskUpdate.keys (TaskUpdate.readFields c)

def TaskUpdate.dump (u : TaskUpdate) : Fields :=
  given "title".toList .str u.title ++
    (dumpDetails u.description u.plannedDate u.dueAt u.estimatedMinutes u.priority ++
    given "status".toList (.str ·.value) u.status)

theorem readPriority_value (p : TaskPriority) : readPriority (.str p.value) = some p := by
  cases p <;> decide

theorem readStatus_value (s : TaskStatus) : readStatus (.str s.value) = some s := by
  cases s <;> decide

theorem readNullable_text (s : Option Text) :
    readNullable readText (writeNullable .str s) = some s :=
  readNullable_write (α := Text) (by simp [readText]) (by simp) s

theorem readNullable_date (c : Coercions) (d : Option Date) :
    readNullable c.date (writeNullable (.str ·.iso) d) = some d :=
  readNullable_write c.date_iso (by simp) d

theorem readNullable_utc (c : Coercions) (t : Option Datetime) :
    readNullable c.utc (writeNullable (.str ·.iso) t) = some t :=
  readNullable_write c.utc_iso (by simp) t

theorem readNullable_int (c : Coercions) (n : Option ℤ) :
    readNullable c.int (writeNullable .int n) = some n :=
  readNullable_write c.int_int (by simp) n

def detailKeys : List Text :=
  ["description".toList, "planned_date".toList, "due_at".toList, "estimated_minutes".toList,
    "priority".toList]

theorem onlyKeys_dumpDetails (keys : List Text) (description : Option (Option Text))
    (plannedDate : Option (Option Date)) (dueAt : Option (Option Datetime))
    (estimatedMinutes : Option (Option ℤ)) (priority : Option TaskPriority)
    (h : detailKeys ⊆ keys) :
    onlyKeys keys (dumpDetails description plannedDate dueAt estimatedMinutes priority) = true := by
  simp only [detailKeys, List.cons_subset, List.nil_subset, and_true] at h
  obtain ⟨hd, hpl, hdue, he, hpr⟩ := h
  simp only [dumpDetails, onlyKeys_append, onlyKeys_given _ _ hd, onlyKeys_given _ _ hpl,
    onlyKeys_given _ _ hdue, onlyKeys_given _ _ he, onlyKeys_given _ _ hpr, Bool.and_true]

theorem read_dumpDetails (c : Coercions) (before after : Fields)
    (hbefore : ∀ key ∈ detailKeys, lookup key before = none)
    (description : Option (Option Text)) (plannedDate : Option (Option Date))
    (dueAt : Option (Option Datetime)) (estimatedMinutes : Option (Option ℤ))
    (priority : Option TaskPriority) (hafter : ∀ key ∈ detailKeys, lookup key after = none) :
    let fields := before ++
      (dumpDetails description plannedDate dueAt estimatedMinutes priority ++ after)
    optionalField (readNullable readText) "description".toList fields = some description ∧
      optionalField (readNullable c.date) "planned_date".toList fields = some plannedDate ∧
      optionalField (readNullable c.utc) "due_at".toList fields = some dueAt ∧
      optionalField (readNullable c.int) "estimated_minutes".toList fields =
        some estimatedMinutes ∧
      optionalField readPriority "priority".toList fields = some priority := by
  simp only [detailKeys, List.forall_mem_cons, List.not_mem_nil, false_imp_iff, implies_true,
    and_true] at hbefore hafter
  obtain ⟨b1, b2, b3, b4, b5⟩ := hbefore
  obtain ⟨a1, a2, a3, a4, a5⟩ := hafter
  refine ⟨optionalField_eq readNullable_text ?_, optionalField_eq (readNullable_date c) ?_,
    optionalField_eq (readNullable_utc c) ?_, optionalField_eq (readNullable_int c) ?_,
    optionalField_eq readPriority_value ?_⟩
  · rw [lookup_append, lookup_append, b1, a1]
    simp [dumpDetails, lookup_append, lookup_given]
  · rw [lookup_append, lookup_append, b2, a2]
    simp [dumpDetails, lookup_append, lookup_given]
  · rw [lookup_append, lookup_append, b3, a3]
    simp [dumpDetails, lookup_append, lookup_given]
  · rw [lookup_append, lookup_append, b4, a4]
    simp [dumpDetails, lookup_append, lookup_given]
  · rw [lookup_append, lookup_append, b5, a5]
    simp [dumpDetails, lookup_append, lookup_given]

theorem TaskCreate.modelValidate_dump (c : Coercions) {t : TaskCreate} (h : t.check = some t) :
    TaskCreate.modelValidate c (.obj t.dump) = some t := by
  have hkeys : onlyKeys TaskCreate.keys t.dump = true := by
    have hd := onlyKeys_dumpDetails TaskCreate.keys t.description t.plannedDate t.dueAt
      t.estimatedMinutes t.priority (by decide)
    simp only [onlyKeys] at hd
    simp only [onlyKeys, TaskCreate.dump, List.all_cons, hd]
    decide
  have hproject : requiredField c.uuid "project_id".toList t.dump = some t.projectId :=
    requiredField_eq (c.uuid_text _) (by simp [TaskCreate.dump, lookup])
  have htitle : requiredField readText "title".toList t.dump = some t.title :=
    requiredField_eq (j := .str t.title) rfl (by simp [TaskCreate.dump, lookup])
  have hbefore : ∀ key ∈ detailKeys, key ∉ ["project_id".toList, "title".toList] := by decide
  obtain ⟨hdescription, hplanned, hdue, hminutes, hpriority⟩ := read_dumpDetails c
    [("project_id".toList, .str t.projectId.text), ("title".toList, .str t.title)] []
    (fun key hk ↦ lookup_eq_none (hbefore key hk)) t.description t.plannedDate t.dueAt
    t.estimatedMinutes t.priority (fun _ _ ↦ rfl)
  have hdump : [("project_id".toList, Json.str t.projectId.text), ("title".toList, .str t.title)] ++
      (dumpDetails t.description t.plannedDate t.dueAt t.estimatedMinutes t.priority ++ []) =
      t.dump := by
    simp [TaskCreate.dump]
  rw [hdump] at hdescription hplanned hdue hminutes hpriority
  simp only [TaskCreate.modelValidate, readModel, hkeys, ↓reduceIte, TaskCreate.readFields, hproject,
    htitle, hdescription, hplanned, hdue, hminutes, hpriority, Option.bind_eq_bind,
    Option.bind_some]
  exact h

theorem TaskUpdate.modelValidate_dump (c : Coercions) {u : TaskUpdate} (h : u.check = some u) :
    TaskUpdate.modelValidate c (.obj u.dump) = some u := by
  have hkeys : onlyKeys TaskUpdate.keys u.dump = true := by
    have hd := onlyKeys_dumpDetails TaskUpdate.keys u.description u.plannedDate u.dueAt
      u.estimatedMinutes u.priority (by decide)
    have ht : onlyKeys TaskUpdate.keys (given "title".toList .str u.title) = true :=
      onlyKeys_given _ _ (by decide)
    have hs : onlyKeys TaskUpdate.keys (given "status".toList (.str ·.value) u.status) = true :=
      onlyKeys_given _ _ (by decide)
    simp only [TaskUpdate.dump, onlyKeys_append, hd, ht, hs, Bool.and_true]
  have htitle : optionalField readText "title".toList u.dump = some u.title := by
    have hread (s : Text) : readText (.str s) = some s := rfl
    refine optionalField_eq hread ?_
    simp [TaskUpdate.dump, dumpDetails, lookup_append, lookup_given]
  have hstatus : optionalField readStatus "status".toList u.dump = some u.status := by
    refine optionalField_eq readStatus_value ?_
    simp [TaskUpdate.dump, dumpDetails, lookup_append, lookup_given]
  obtain ⟨hdescription, hplanned, hdue, hminutes, hpriority⟩ := read_dumpDetails c
    (given "title".toList .str u.title) (given "status".toList (.str ·.value) u.status)
    (by simp [detailKeys, lookup_given]) u.description u.plannedDate u.dueAt
    u.estimatedMinutes u.priority (by simp [detailKeys, lookup_given])
  have hdump : given "title".toList .str u.title ++ (dumpDetails u.description u.plannedDate u.dueAt
      u.estimatedMinutes u.priority ++ given "status".toList (.str ·.value) u.status) = u.dump := rfl
  rw [hdump] at hdescription hplanned hdue hminutes hpriority
  simp only [TaskUpdate.modelValidate, readModel, hkeys, ↓reduceIte, TaskUpdate.readFields, htitle,
    hdescription, hplanned, hdue, hminutes, hpriority, hstatus, Option.bind_eq_bind,
    Option.bind_some]
  exact h

end LearningTasks.Schemas.Task
