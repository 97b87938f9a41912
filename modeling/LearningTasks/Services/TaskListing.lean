import LearningTasks.Schemas.Project
import LearningTasks.Services.Tasks

namespace LearningTasks.Services.TaskListing

open Library.Strings Schemas.Scalars Schemas.Task Schemas.Project Services.Tasks

/-- What the database makes of texts: the order of its collation, and how it folds
a character. -/
structure Database where
  collate : Text → Text → Ordering
  fold : Char → Char

inductive TaskSortField
  | createdAt
  | updatedAt
  | dueAt
  | plannedDate
  | title
  deriving DecidableEq

inductive SortDirection
  | asc
  | desc
  deriving DecidableEq

structure TaskListQuery where
  paging : Paging
  projectId : Option UUID
  status : Option TaskStatus
  priority : Option TaskPriority
  plannedFrom : Option Date
  plannedTo : Option Date
  dueFrom : Option Datetime
  dueTo : Option Datetime
  overdue : Option Bool
  title : Option Text
  sortBy : TaskSortField
  sortDirection : SortDirection
  search : ∀ t ∈ title, strip t = t ∧ 1 ≤ t.length ∧ t.length ≤ 200
  planned : ∀ s ∈ plannedFrom, ∀ t ∈ plannedTo, s.ordinal ≤ t.ordinal
  due : ∀ s ∈ dueFrom, ∀ t ∈ dueTo, s.ordinal ≤ t.ordinal

structure TaskQueryCriteria where
  userId : UUID
  projectId : Option UUID
  status : Option TaskStatus
  priority : Option TaskPriority
  plannedFrom : Option Date
  plannedTo : Option Date
  dueFrom : Option Datetime
  dueTo : Option Datetime
  overdue : Option Bool
  title : Option Text
  now : Datetime

def replaceChar (c : Char) (s value : Text) : Text := value.flatMap fun d ↦ if d = c then s else [d]

def escapeLike (value : Text) : Text :=
  replaceChar '_' ['\\', '_'] (replaceChar '%' ['\\', '%'] (replaceChar '\\' ['\\', '\\'] value))

def ilike (fold : Char → Char) : Text → Text → Bool
  | [], s => s = []
  | '%' :: p, s => s.tails.any fun t ↦ ilike fold p t
  | '_' :: p, _ :: s => ilike fold p s
  | '\\' :: d :: p, c :: s => fold d = fold c && ilike fold p s
  | d :: p, c :: s => d ≠ '\\' && d ≠ '_' && fold d = fold c && ilike fold p s
  | _ :: _, [] => false

def nonOverdueStatuses : List TaskStatus := [.completed, .cancelled]

/-- The predicates of a query; one on a null column does not hold. -/
def ownedFilters (database : Database) (c : TaskQueryCriteria) (t : Task) : Bool :=
  t.userId = c.userId &&
    c.projectId.all (t.projectId = ·) &&
    c.status.all (t.status = ·) &&
    c.priority.all (t.priority = ·) &&
    c.plannedFrom.all (fun d ↦ t.plannedDate.any fun p ↦ d.ordinal ≤ p.ordinal) &&
    c.plannedTo.all (fun d ↦ t.plannedDate.any fun p ↦ p.ordinal ≤ d.ordinal) &&
    c.dueFrom.all (fun d ↦ t.dueAt.any fun p ↦ d.ordinal ≤ p.ordinal) &&
    c.dueTo.all (fun d ↦ t.dueAt.any fun p ↦ p.ordinal ≤ d.ordinal) &&
    (match c.overdue with
      | none => true
      | some true => (t.dueAt.any fun p ↦ p.ordinal < c.now.ordinal) &&
          t.status ∉ nonOverdueStatuses
      | some false => t.dueAt.isNone || (t.dueAt.any fun p ↦ c.now.ordinal ≤ p.ordinal) ||
          t.status ∈ nonOverdueStatuses) &&
    c.title.all fun s ↦ ilike database.fold ('%' :: (escapeLike s ++ ['%'])) t.title

def directed (direction : SortDirection) (o : Ordering) : Ordering :=
  match direction with
  | .asc => o
  | .desc => o.swap

def nullsLast {α : Type} (order : α → α → Ordering) : Option α → Option α → Ordering
  | none, none => .eq
  | none, some _ => .gt
  | some _, none => .lt
  | some x, some y => order x y

def primaryOrder (database : Database) (sortBy : TaskSortField) (direction : SortDirection)
    (s t : Task) : Ordering :=
  match sortBy with
  | .createdAt => directed direction (compare s.createdAt.ordinal t.createdAt.ordinal)
  | .updatedAt => directed direction (compare s.updatedAt.ordinal t.updatedAt.ordinal)
  | .dueAt => nullsLast (fun x y ↦ directed direction (compare x.ordinal y.ordinal)) s.dueAt t.dueAt
  | .plannedDate =>
    nullsLast (fun x y ↦ directed direction (compare x.ordinal y.ordinal)) s.plannedDate t.plannedDate
  | .title => directed direction (database.collate s.title t.title)

def taskOrder (database : Database) (sortBy : TaskSortField) (direction : SortDirection)
    (s t : Task) : Ordering :=
  (primaryOrder database sortBy direction s t).then (directed direction (compare s.id.value t.id.value))

/-- The driver sends no text with a NUL to the database. -/
def TaskQueryCriteria.bindable (c : TaskQueryCriteria) : Bool := c.title.all storable

def listOwned (database : Database) (criteria : TaskQueryCriteria) (paging : Paging)
    (sortBy : TaskSortField) (direction : SortDirection) (tasks : List Task) :
    Option (List Task) :=
  if criteria.bindable then
    paging.slice ((tasks.filter (ownedFilters database criteria)).mergeSort
      fun s t ↦ taskOrder database sortBy direction s t ≠ .gt)
  else none

def countOwned (database : Database) (criteria : TaskQueryCriteria) (tasks : List Task) :
    Option ℕ :=
  if criteria.bindable then some (tasks.countP (ownedFilters database criteria)) else none

def TaskListQuery.criteria (q : TaskListQuery) (userId : UUID) (now : Datetime) :
    TaskQueryCriteria where
  userId := userId
  projectId := q.projectId
  status := q.status
  priority := q.priority
  plannedFrom := q.plannedFrom
  plannedTo := q.plannedTo
  dueFrom := q.dueFrom
  dueTo := q.dueTo
  overdue := q.overdue
  title := q.title
  now := now

def listOwnedTasks (database : Database) (q : TaskListQuery) (userId : UUID) (now : Datetime)
    (tasks : List Task) : Except TaskError TaskListResponse := do
  let some rows :=
    listOwned database (q.criteria userId now) q.paging q.sortBy q.sortDirection tasks
    | throw .database
  let some total := countOwned database (q.criteria userId now) tasks | throw .database
  let items ← rows.mapM modelValidate
  match listResponse q.paging items total with
  | some response => return response
  | none => throw .validation

end LearningTasks.Services.TaskListing
