import LearningTasks.Schemas.Task

namespace LearningTasks.Schemas.Project

open Library.Strings Schemas.Scalars Schemas.Task

inductive ProjectStatus
  | notStarted
  | inProgress
  | completed
  | archived
  deriving DecidableEq

def ProjectStatus.value : ProjectStatus → Text
  | .notStarted => "NOT_STARTED".toList
  | .inProgress => "IN_PROGRESS".toList
  | .completed => "COMPLETED".toList
  | .archived => "ARCHIVED".toList

structure PublicProject where
  id : UUID
  name : Text
  description : Option Text
  startDate : Option Date
  targetDate : Option Date
  status : ProjectStatus
  createdAt : Datetime
  updatedAt : Datetime
  deriving DecidableEq

/-- `validate_project_date_order`: no target date before a start date. -/
def projectDateOrderValid (start target : Option Date) : Bool :=
  match start, target with
  | some s, some t => !decide (t.ordinal < s.ordinal)
  | _, _ => true

def projectDescriptionValid : Option Text → Bool
  | none => true
  | some s => s.length ≤ 2000

structure ProjectCreate where
  name : Text
  description : Option Text
  startDate : Option Date
  targetDate : Option Date
  deriving DecidableEq

/-- A field left out is `none`; `description := some none` is an explicit null. -/
structure ProjectUpdate where
  name : Option Text
  description : Option (Option Text)
  startDate : Option (Option Date)
  targetDate : Option (Option Date)
  status : Option ProjectStatus
  deriving DecidableEq

def ProjectUpdate.isEmpty (u : ProjectUpdate) : Bool :=
  u.name.isNone && u.description.isNone && u.startDate.isNone && u.targetDate.isNone &&
    u.status.isNone

def ProjectUpdate.check (u : ProjectUpdate) : Option ProjectUpdate :=
  let name := u.name.map strip
  let description := u.description.map normalizeDescription
  if name.all (lengthBetween 1 200) && projectDescriptionValid description.join &&
      u.status != some .archived && !u.isEmpty &&
      (u.startDate.isNone || u.targetDate.isNone ||
        projectDateOrderValid u.startDate.join u.targetDate.join) then
    some { u with name := name, description := description }
  else none

def expectedPages (total pageSize : ℕ) : ℕ :=
  if total = 0 then 0 else (total + pageSize - 1) / pageSize

/-- One page of a list, with the metadata that both list contracts check. -/
structure ListResponse (α : Type*) where
  items : List α
  page : ℕ
  pageSize : ℕ
  total : ℕ
  pages : ℕ
  bounds : 1 ≤ page ∧ 1 ≤ pageSize ∧ pageSize ≤ 100
  metadata : pages = expectedPages total pageSize ∧ items.length ≤ pageSize
  deriving DecidableEq

structure Paging where
  page : ℕ
  pageSize : ℕ
  bounds : 1 ≤ page ∧ 1 ≤ pageSize ∧ pageSize ≤ 100
  deriving DecidableEq

theorem firstPage_bounds : 1 ≤ 1 ∧ 1 ≤ 20 ∧ 20 ≤ 100 := by decide

def emptyPage {α : Type*} : ListResponse α :=
  ⟨[], 1, 20, 0, 0, firstPage_bounds, by simp [expectedPages]⟩

/-- The largest value of a `BIGINT`, the type of an `OFFSET`. -/
def maxBigint : ℕ := 9223372036854775807

def Paging.offset (p : Paging) : ℕ := (p.page - 1) * p.pageSize

/-- The rows of a page: `offset((page - 1) * page_size)` and `limit(page_size)`, where
the database takes the offset. -/
def Paging.slice {α : Type*} (p : Paging) (rows : List α) : Option (List α) :=
  if p.offset ≤ maxBigint then some ((rows.drop p.offset).take p.pageSize) else none

/-- The response of a list service, where the contract takes it. -/
def listResponse {α : Type*} (p : Paging) (items : List α) (total : ℕ) : Option (ListResponse α) :=
  let pages := if total = 0 then 0 else (total + p.pageSize - 1) / p.pageSize
  if h : pages = expectedPages total p.pageSize ∧ items.length ≤ p.pageSize then
    some ⟨items, p.page, p.pageSize, total, pages, p.bounds, h⟩
  else none

abbrev ProjectListResponse := ListResponse PublicProject

abbrev TaskListResponse := ListResponse PublicTask

end LearningTasks.Schemas.Project
