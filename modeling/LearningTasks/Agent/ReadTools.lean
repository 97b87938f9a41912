import LearningTasks.Agent.Providers
import LearningTasks.Services.TaskListing

namespace LearningTasks.Agent.ReadTools

open Library.Strings Library.Serialization Library.Records Schemas.Scalars Schemas.Task
  Schemas.Project Services.TaskListing Models.Agent Tools Providers

structure QueryCoercions extends Coercions where
  bool : Json → Option Bool
  bool_bool : ∀ b : Bool, bool (.bool b) = some b

def defaulted {α : Type} (read : Json → Option α) (default : α) (key : Text) (fields : Fields) :
    Option α :=
  (optionalField read key fields).map (·.getD default)

def nullable {α : Type} (read : Json → Option α) (key : Text) (fields : Fields) :
    Option (Option α) :=
  defaulted (readNullable read) none key fields

def readPaging (c : QueryCoercions) (fields : Fields) : Option Paging := do
  let page ← defaulted c.int 1 "page".toList fields
  let pageSize ← defaulted c.int 20 "page_size".toList fields
  if h : 1 ≤ page ∧ 1 ≤ pageSize ∧ pageSize ≤ 100 then
    some ⟨page.toNat, pageSize.toNat, by omega⟩
  else none

structure ListProjectsToolArguments where
  paging : Paging
  includeArchived : Bool

def ListProjectsToolArguments.keys : List Text :=
  ["page".toList, "page_size".toList, "include_archived".toList]

def ListProjectsToolArguments.modelValidate (c : QueryCoercions) :
    Json → Option ListProjectsToolArguments :=
  readModel ListProjectsToolArguments.keys fun fields ↦ do
    let paging ← readPaging c fields
    let includeArchived ← defaulted c.bool false "include_archived".toList fields
    some ⟨paging, includeArchived⟩

def sortFieldValue : TaskSortField → Text
  | .createdAt => "created_at".toList
  | .updatedAt => "updated_at".toList
  | .dueAt => "due_at".toList
  | .plannedDate => "planned_date".toList
  | .title => "title".toList

def sortDirectionValue : SortDirection → Text
  | .asc => "asc".toList
  | .desc => "desc".toList

def readSortField : Json → Option TaskSortField :=
  readEnum [.createdAt, .updatedAt, .dueAt, .plannedDate, .title] sortFieldValue

def readSortDirection : Json → Option SortDirection := readEnum [.asc, .desc] sortDirectionValue

def taskListQueryKeys : List Text :=
  ["page".toList, "page_size".toList, "project_id".toList, "status".toList, "priority".toList,
    "planned_from".toList, "planned_to".toList, "due_from".toList, "due_to".toList,
    "overdue".toList, "title".toList, "sort_by".toList, "sort_direction".toList]

/-- `TaskListQuery.model_validate`, which trims the search before it is measured. -/
def taskListQueryModelValidate (c : QueryCoercions) : Json → Option TaskListQuery :=
  readModel taskListQueryKeys fun fields ↦ do
    let paging ← readPaging c fields
    let projectId ← nullable c.uuid "project_id".toList fields
    let status ← nullable readStatus "status".toList fields
    let priority ← nullable readPriority "priority".toList fields
    let plannedFrom ← nullable c.date "planned_from".toList fields
    let plannedTo ← nullable c.date "planned_to".toList fields
    let dueFrom ← nullable c.utc "due_from".toList fields
    let dueTo ← nullable c.utc "due_to".toList fields
    let overdue ← nullable c.bool "overdue".toList fields
    let title ← nullable readText "title".toList fields
    let sortBy ← defaulted readSortField .createdAt "sort_by".toList fields
    let sortDirection ← defaulted readSortDirection .desc "sort_direction".toList fields
    if ht : ∀ t ∈ title.map strip, strip t = t ∧ 1 ≤ t.length ∧ t.length ≤ 200 then
      if hp : ∀ s ∈ plannedFrom, ∀ t ∈ plannedTo, s.ordinal ≤ t.ordinal then
        if hd : ∀ s ∈ dueFrom, ∀ t ∈ dueTo, s.ordinal ≤ t.ordinal then
          some {
            paging := paging
            projectId := projectId
            status := status
            priority := priority
            plannedFrom := plannedFrom
            plannedTo := plannedTo
            dueFrom := dueFrom
            dueTo := dueTo
            overdue := overdue
            title := title.map strip
            sortBy := sortBy
            sortDirection := sortDirection
            search := ht
            planned := hp
            due := hd }
        else none
      else none
    else none

def maxKnowledgeQueryCharacters : ℕ := 2000

def maxKnowledgeDocumentFilters : ℕ := 20

def maxKnowledgeResults : ℕ := 20

def defaultKnowledgeTopK : ℤ := 10

structure KnowledgeSearchQuery where
  query : Text
  topK : ℕ
  documentIds : Option (List UUID)
  queryBounds : 1 ≤ query.length ∧ query.length ≤ maxKnowledgeQueryCharacters
  topKBounds : 1 ≤ topK ∧ topK ≤ maxKnowledgeResults
  filters : ∀ ids ∈ documentIds, ids.length ≤ maxKnowledgeDocumentFilters

def KnowledgeSearchQuery.keys : List Text :=
  ["query".toList, "top_k".toList, "document_ids".toList]

/-- The query is measured before it is trimmed, and must not be blank. -/
def KnowledgeSearchQuery.modelValidate (c : QueryCoercions) : Json → Option KnowledgeSearchQuery :=
  readModel KnowledgeSearchQuery.keys fun fields ↦ do
    let query ← requiredField readText "query".toList fields
    let topK ← defaulted c.int defaultKnowledgeTopK "top_k".toList fields
    let documentIds ← nullable (readList c.uuid) "document_ids".toList fields
    if hq : query.length ≤ maxKnowledgeQueryCharacters ∧ 1 ≤ (strip query).length then
      if hk : 1 ≤ topK ∧ topK ≤ maxKnowledgeResults then
        if hf : ∀ ids ∈ documentIds, ids.length ≤ maxKnowledgeDocumentFilters then
          some {
            query := strip query
            topK := topK.toNat
            documentIds := documentIds
            queryBounds := ⟨hq.2, (strip_length_le query).trans hq.1⟩
            topKBounds := by omega
            filters := hf }
        else none
      else none
    else none

inductive AnyToolArguments
  | listProjects (arguments : ListProjectsToolArguments)
  | listTasks (query : TaskListQuery)
  | searchKnowledge (query : KnowledgeSearchQuery)
  | write (arguments : AgentToolArguments)

def toolNames : List Text := readToolNames ++ writeToolNames

/-- The branches on the name of an allowed tool, the last of them for what is left. -/
def readAnyArguments (c : QueryCoercions) (name : Text) (arguments : Fields) :
    Option AnyToolArguments :=
  if name = "list_projects".toList then
    (ListProjectsToolArguments.modelValidate c (.obj arguments)).map .listProjects
  else if name = "list_tasks".toList then
    (taskListQueryModelValidate c (.obj arguments)).map .listTasks
  else if name = "search_knowledge".toList then
    (KnowledgeSearchQuery.modelValidate c (.obj arguments)).map .searchKnowledge
  else if name = "create_task".toList then
    (validateCreateTask c.toCoercions arguments).map .write
  else if name = "update_task".toList then
    (validateUpdateTask c.toCoercions arguments).map .write
  else if name = "batch_create_tasks".toList then
    (validateBatchCreateTasks c.toCoercions arguments).map .write
  else (validateDeleteTask c.toCoercions arguments).map .write

def validateAnyToolArguments (c : QueryCoercions) (name : Text) (arguments : Fields)
    (context : AgentRuntimeContext) : Except ToolError AnyToolArguments :=
  if name ∉ toolNames then .error .toolNotAllowed
  else if name ∈ writeToolNames ∧ context.writeToolsEnabled = false then .error .toolNotAllowed
  else match readAnyArguments c name arguments with
    | some validated => .ok validated
    | none => .error .toolInput

theorem validateAnyToolArguments_readOnly {c : QueryCoercions} {name : Text} {arguments : Fields}
    {context : AgentRuntimeContext} {a : AnyToolArguments}
    (h : validateAnyToolArguments c name arguments context = .ok a)
    (hw : context.writeToolsEnabled = false) : name ∈ readToolNames := by
  unfold validateAnyToolArguments at h
  split at h
  · cases h
  · next hn =>
    split at h
    · cases h
    · next hwrite =>
      have hmem : name ∈ readToolNames ++ writeToolNames := not_not.mp hn
      rcases List.mem_append.mp hmem with hr | hr
      · exact hr
      · exact absurd ⟨hr, hw⟩ hwrite

end LearningTasks.Agent.ReadTools
