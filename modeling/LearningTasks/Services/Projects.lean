import LearningTasks.Services.Tasks
import LearningTasks.Schemas.Project

namespace LearningTasks.Services.Projects

open Library.Strings Library.Transition Library.ReadCommitted Schemas.Scalars Schemas.Project
open Services.Tasks (changed)

inductive ProjectError
  | projectNotFound
  | archivedProject
  | projectDateOrder
  | validation
  | database
  deriving DecidableEq

structure Project where
  id : UUID
  userId : UUID
  name : Text
  description : Option Text
  startDate : Option Date
  targetDate : Option Date
  status : ProjectStatus
  createdAt : Datetime
  updatedAt : Datetime
  deriving DecidableEq

def Project.constraints (p : Project) : Bool :=
  storable p.name && p.description.all storable && p.name.any (· != ' ') &&
    decide (p.name.length ≤ 200) && projectDescriptionValid p.description &&
    projectDateOrderValid p.startDate p.targetDate

def Project.public (p : Project) : PublicProject where
  id := p.id
  name := p.name
  description := p.description
  startDate := p.startDate
  targetDate := p.targetDate
  status := p.status
  createdAt := p.createdAt
  updatedAt := p.updatedAt

structure Changes where
  name : Option Text
  description : Option (Option Text)
  startDate : Option (Option Date)
  targetDate : Option (Option Date)
  status : Option ProjectStatus
  updatedAt : Option Datetime
  deriving DecidableEq

def Changes.apply (c : Changes) (p : Project) : Project :=
  { p with
    name := c.name.getD p.name
    description := c.description.getD p.description
    startDate := c.startDate.getD p.startDate
    targetDate := c.targetDate.getD p.targetDate
    status := c.status.getD p.status
    updatedAt := c.updatedAt.getD p.updatedAt }

def noChanges : Changes := ⟨none, none, none, none, none, none⟩

/-- `ProjectRepository.update`: attributes set on the loaded object reach the
UPDATE where they differ from what was loaded. -/
def repositoryUpdate (p : Project) (values : Changes) (updatedAt : Datetime) : Changes where
  name := changed p.name values.name
  description := changed p.description values.description
  startDate := changed p.startDate values.startDate
  targetDate := changed p.targetDate values.targetDate
  status := changed p.status values.status
  updatedAt := changed p.updatedAt (some updatedAt)

/-- The `changes` that `update_owned_project` collects for the project it has
read. -/
def updateChanges (p : Project) (u : ProjectUpdate) : Except ProjectError Changes :=
  if p.status = .archived then .error .archivedProject
  else if !projectDateOrderValid (u.startDate.getD p.startDate) (u.targetDate.getD p.targetDate) then
    .error .projectDateOrder
  else .ok {
    name := changed p.name u.name
    description := changed p.description u.description
    startDate := changed p.startDate u.startDate
    targetDate := changed p.targetDate u.targetDate
    status := changed p.status u.status
    updatedAt := none }

/-- The UPDATE of `update_owned_project`, or none where nothing differs. -/
def updateWrite (p : Project) (u : ProjectUpdate) (now : Datetime) :
    Except ProjectError (Option Changes) :=
  (updateChanges p u).map fun c ↦
    if c = noChanges then none else some (repositoryUpdate p c now)

/-- The UPDATE of `archive_owned_project`, or none for an archived project. -/
def archiveWrite (p : Project) (now : Datetime) : Option Changes :=
  if p.status = .archived then none
  else some (repositoryUpdate p { noChanges with status := some .archived } now)

/-- The row `ProjectRepository.create` inserts, with the id and the time that the
server supplies. -/
def newProject (p : ProjectCreate) (userId id : UUID) (now : Datetime) : Project where
  id := id
  userId := userId
  name := p.name
  description := p.description
  startDate := p.startDate
  targetDate := p.targetDate
  status := .notStarted
  createdAt := now
  updatedAt := now

def getOwned (projects : List Project) (projectId userId : UUID) : Option Project :=
  projects.find? fun p ↦ p.id = projectId && p.userId = userId

def requireOwnedProject (projects : List Project) (projectId userId : UUID) :
    Except ProjectError Project :=
  match getOwned projects projectId userId with
  | some p => .ok p
  | none => .error .projectNotFound

def insert (projects : List Project) (p : Project) : Except ProjectError (List Project) :=
  if p.constraints ∧ ∀ r ∈ projects, r.id ≠ p.id then .ok (projects ++ [p]) else .error .database

def update (projects : List Project) (id : UUID) (c : Changes) :
    Except ProjectError (List Project) :=
  if ∀ r ∈ projects, r.id = id → (c.apply r).constraints then
    .ok (projects.map fun r ↦ if r.id = id then c.apply r else r)
  else .error .database

def createProject (p : ProjectCreate) (userId id : UUID) (now : Datetime)
    (projects : List Project) : Except ProjectError (PublicProject × List Project) :=
  (insert projects (newProject p userId id now)).map fun projects ↦
    ((newProject p userId id now).public, projects)

def getOwnedProject (projectId userId : UUID) (projects : List Project) :
    Except ProjectError PublicProject :=
  (requireOwnedProject projects projectId userId).map Project.public

def ownedFilters (userId : UUID) (includeArchived : Bool) (p : Project) : Bool :=
  p.userId = userId && (includeArchived || p.status ≠ .archived)

def projectOrder (p q : Project) : Ordering :=
  ((compare p.createdAt.ordinal q.createdAt.ordinal).then (compare p.id.value q.id.value)).swap

def listOwned (projects : List Project) (userId : UUID) (paging : Paging)
    (includeArchived : Bool) : Option (List Project) :=
  paging.slice ((projects.filter (ownedFilters userId includeArchived)).mergeSort
    fun p q ↦ projectOrder p q ≠ .gt)

def countOwned (projects : List Project) (userId : UUID) (includeArchived : Bool) : ℕ :=
  projects.countP (ownedFilters userId includeArchived)

def listOwnedProjects (userId : UUID) (paging : Paging) (includeArchived : Bool)
    (projects : List Project) : Except ProjectError ProjectListResponse :=
  match listOwned projects userId paging includeArchived with
  | none => .error .database
  | some rows =>
    match listResponse paging (rows.map Project.public)
        (countOwned projects userId includeArchived) with
    | some response => .ok response
    | none => .error .validation

/-- The flush and the response of an update, on the project that was read. -/
def flush (p : Project) (c : Changes) (projects : List Project) :
    Except ProjectError (PublicProject × List Project) :=
  (update projects p.id c).map fun projects ↦ ((c.apply p).public, projects)

def updateOwnedProject (projectId : UUID) (u : ProjectUpdate) (userId : UUID) (now : Datetime)
    (projects : List Project) : Except ProjectError (PublicProject × List Project) := do
  let p ← requireOwnedProject projects projectId userId
  match ← updateWrite p u now with
  | none => return (p.public, projects)
  | some c => flush p c projects

def archiveOwnedProject (projectId userId : UUID) (now : Datetime) (projects : List Project) :
    Except ProjectError (PublicProject × List Project) := do
  let p ← requireOwnedProject projects projectId userId
  match archiveWrite p now with
  | none => return (p.public, projects)
  | some c => flush p c projects

abbrev ValidUpdate := { u : ProjectUpdate // u.check = some u }

inductive Request
  | update (userId : UUID) (u : ValidUpdate) (now : Datetime)
  | archive (userId : UUID) (now : Datetime)

def plan (req : Request) (p : Project) : Option (Project → Project) :=
  let write : Option Changes := match req with
    | .update userId u now =>
      if p.userId = userId then (updateWrite p u.1 now).toOption.join else none
    | .archive userId now => if p.userId = userId then archiveWrite p now else none
  write.map Changes.apply

def projectEditor : Editor Request Project where
  plan := plan
  check := Project.constraints

/-- The requests of any number of transactions on one project. -/
def projectMachine (τ : Type) [DecidableEq τ] (row : Project) :
    Machine (State τ Request Project) (Move τ Request) := machine projectEditor row

def OpenFresh (_ : Request) (_ row : Project) : Prop := row.status ≠ .archived

/-- Once archived, the committed row stays as it is, where every UPDATE finds
the row open when it runs. -/
theorem archived_absorbing_of_open_writes (τ : Type) [DecidableEq τ] (row : Project)
    (hrow : row.constraints = true) (s t : State τ Request Project)
    (hs : (projectMachine τ row).ReachableUnder (FreshWrites OpenFresh) s)
    (hl : (projectMachine τ row).LeadsUnder (FreshWrites OpenFresh) s t)
    (ha : s.row.status = .archived) : t.row = s.row := by
  refine hl.stable (fun t ↦ t.row = s.row) (fun u m u' hu he hC hm ↦ ?_) hs rfl
  obtain hr | ⟨x, req, seen, patch, -, hp, -, -, -⟩ :=
    row_step (inv_reachable hrow hu.reachable) hm
  · exact hr.trans he
  · have hf : OpenFresh req seen u.row := fresh_written hrow hu x req seen _ hp
    rw [OpenFresh, he] at hf
    exact absurd ha hf

def sampleProject : Project where
  id := sampleId 3
  userId := Tasks.sampleUser
  name := "Algebra".toList
  description := none
  startDate := none
  targetDate := none
  status := .notStarted
  createdAt := sampleDate.midnight
  updatedAt := sampleDate.midnight

def start : ValidUpdate := ⟨⟨none, none, none, none, some .inProgress⟩, by decide⟩

def laterDate : Date := ⟨2026, 7, 2, by decide⟩

def archiving : List (Move Bool Request) :=
  [.read false (.archive Tasks.sampleUser laterDate.midnight), .write false, .commit false]

theorem archived_absorbing_of_open_writes_sample :
    ∃ s t, (projectMachine Bool sampleProject).ReachableUnder (FreshWrites OpenFresh) s ∧
      (projectMachine Bool sampleProject).LeadsUnder (FreshWrites OpenFresh) s t ∧
      s.row.status = .archived ∧ t.row = s.row := by
  have h0 : (projectMachine Bool sampleProject).ReachableUnder (FreshWrites OpenFresh) _ :=
    .init rfl
  have h1 := h0.step (i := Move.read false (.archive Tasks.sampleUser laterDate.midnight)) trivial rfl
  have h2 := h1.step (i := Move.write false)
    (fun _ _ _ ↦ (by decide : ProjectStatus.notStarted ≠ .archived)) rfl
  have h3 := h2.step (i := Move.commit false) trivial rfl
  obtain ⟨s, hs, ha, hidle⟩ : ∃ s, (projectMachine Bool sampleProject).ReachableUnder
      (FreshWrites OpenFresh) s ∧ s.row.status = .archived ∧ s.phase true = .idle :=
    ⟨_, h3, rfl, rfl⟩
  have hread : (projectMachine Bool sampleProject).step s
      (.read true (.update Tasks.sampleUser start laterDate.midnight)) =
      some (s.setPhase true (.read (.update Tasks.sampleUser start laterDate.midnight) s.row)) := by
    simp [projectMachine, machine, step, hidle]
  have hl := (Machine.LeadsUnder.refl (C := FreshWrites OpenFresh) s).tail
    (i := Move.read true (.update Tasks.sampleUser start laterDate.midnight)) trivial hread
  exact ⟨s, _, hs, hl, ha,
    archived_absorbing_of_open_writes Bool sampleProject (by decide) s _ hs hl ha⟩

/-- One request starts the project while another archives it: both have read
it as not started, and the archived project is in progress again. -/
theorem archived_project_reopened_by_stale_read :
    ∃ s s', (projectMachine Bool sampleProject).Reachable s ∧
      (projectMachine Bool sampleProject).Leads s s' ∧
      s.row.status = .archived ∧ s'.row.status = .inProgress := by
  have hrun : (((projectMachine Bool sampleProject).exec ⟨sampleProject, fun _ ↦ .idle, none⟩
      (.read true (.update Tasks.sampleUser start laterDate.midnight) :: archiving)).bind fun s ↦
        ((projectMachine Bool sampleProject).exec s [.write true, .commit true]).map fun s' ↦
          (s.row.status, s'.row.status)) = some (.archived, .inProgress) := by decide
  obtain ⟨s, hs, he⟩ := Option.bind_eq_some_iff.mp hrun
  obtain ⟨s', hs', he⟩ := Option.map_eq_some_iff.mp he
  obtain ⟨ha, hi⟩ := Prod.mk.inj he
  exact ⟨s, s', (Machine.Reachable.start rfl).exec hs, .exec hs', ha, hi⟩

end LearningTasks.Services.Projects
