import LearningTasks.Library.Fallible
import LearningTasks.Library.OwnedRows
import LearningTasks.Library.Unwinding
import LearningTasks.Services.Projects
import LearningTasks.Services.TaskListing
import Mathlib.Data.List.Flatten

namespace LearningTasks.Services.OwnerIsolation

open Library.OwnedRows Library.Unwinding Library.Strings Library.Fallible Schemas.Scalars
  Schemas.Task Schemas.Project TaskListing
open Services.Tasks (Db Task TaskError modelValidate requireOwnedTask requireOwnedProject newTask
  createTask createTasks createTaskBatch getOwnedTask updateOwnedTask completeOwnedTask
  deleteOwnedTask)
open Services.Projects (Project ProjectError)

def projectColumns : Columns Project UUID UUID := ⟨Project.id, Project.userId⟩

def taskColumns : Columns Task UUID UUID := ⟨Task.id, Task.userId⟩

/-- A call that answers from one part of a state, and writes as it may. -/
structure Local {σ ε α : Type} (part : σ → σ) (ready : σ → Prop) (writes : σ → σ → Prop)
    (f : σ → Except ε (α × σ)) : Prop where
  answer : ∀ s, ready s → f (part s) = (f s).map (Prod.map id part)
  kept : ∀ s x s', ready s → f s = .ok (x, s') → writes s s'

theorem Local.read {σ ε α : Type} {part : σ → σ} {ready : σ → Prop} {writes : σ → σ → Prop}
    {g : σ → Except ε α} (hg : ∀ s, ready s → g (part s) = g s) (hw : ∀ s, writes s s) :
    Local part ready writes fun s ↦ (g s).map fun x ↦ (x, s) := by
  refine ⟨fun s hs ↦ ?_, fun s x s' _ h ↦ ?_⟩
  · rw [hg s hs]
    cases g s with
    | error e => rfl
    | ok x => rfl
  · obtain ⟨y, -, hy⟩ := map_ok h
    cases hy
    exact hw s

def part (a : UUID) (db : Db) : Db :=
  ⟨db.projects.filter fun p ↦ p.2 = a, taskColumns.ownedBy a db.tasks⟩

section

variable {a : UUID} {db db' : Db}

theorem requireOwnedTask_part (taskId : UUID) :
    requireOwnedTask (part a db) taskId a = requireOwnedTask db taskId a := by
  have hlookup : (part a db).getOwned taskId a = db.getOwned taskId a :=
    Columns.lookup_ownedBy (T := taskColumns)
  rw [requireOwnedTask, requireOwnedTask, hlookup]

theorem requireOwnedProject_part (projectId : UUID) :
    requireOwnedProject (part a db) projectId a = requireOwnedProject db projectId a := by
  have hmem : (projectId, a) ∈ (part a db).projects ↔ (projectId, a) ∈ db.projects := by
    simp [part]
  simp only [requireOwnedProject, hmem]

theorem requireOwnedTask_ok {taskId : UUID} {t : Task} (h : requireOwnedTask db taskId a = .ok t) :
    t ∈ db.tasks ∧ t.id = taskId ∧ t.userId = a := by
  unfold requireOwnedTask at h
  split at h
  · next t' ht =>
    cases h
    exact Columns.lookup_some (T := taskColumns) ht
  · cases h

theorem insert_part {t : Task} (ho : t.userId = a) (hfresh : ∀ r ∈ db.tasks, r.id ≠ t.id) :
    (part a db).insert t = (db.insert t).map (part a) := by
  have hfresh' : ∀ r ∈ (part a db).tasks, r.id ≠ t.id :=
    fun r hr ↦ hfresh r (Columns.mem_ownedBy.mp hr).1
  unfold Tasks.Db.insert
  by_cases hc : t.constraints = true
  · rw [if_pos ⟨hc, hfresh'⟩, if_pos ⟨hc, hfresh⟩]
    have hrows : taskColumns.ownedBy a (db.tasks ++ [t]) = taskColumns.ownedBy a db.tasks ++ [t] := by
      rw [Columns.ownedBy_append, if_pos (show taskColumns.owner t = a from ho)]
    exact congrArg (fun rows ↦ Except.ok (⟨(part a db).projects, rows⟩ : Db)) hrows.symm
  · rw [if_neg fun h ↦ hc h.1, if_neg fun h ↦ hc h.1]
    rfl

theorem stable_apply (c : Tasks.Changes) : taskColumns.Stable c.apply := ⟨fun _ ↦ rfl, fun _ ↦ rfl⟩

theorem update_part (hk : taskColumns.Keyed db.tasks) {t : Task} (ht : t ∈ db.tasks)
    (ho : t.userId = a) (c : Tasks.Changes) :
    (part a db).update t.id c = (db.update t.id c).map (part a) := by
  have hall : (∀ r ∈ db.tasks, r.id = t.id → (c.apply r).constraints = true) ↔
      (c.apply t).constraints = true := hk.forall_key ht
  have hpart : (∀ r ∈ (part a db).tasks, r.id = t.id → (c.apply r).constraints = true) ↔
      (c.apply t).constraints = true :=
    (hk.ownedBy a).forall_key (Columns.mem_ownedBy.mpr ⟨ht, ho⟩)
  unfold Tasks.Db.update
  by_cases hc : (c.apply t).constraints = true
  · rw [if_pos (hpart.mpr hc), if_pos (hall.mpr hc)]
    have hrows : taskColumns.ownedBy a (taskColumns.modify t.id c.apply db.tasks) =
        taskColumns.modify t.id c.apply (taskColumns.ownedBy a db.tasks) :=
      Columns.ownedBy_modify (stable_apply c) a t.id
    exact congrArg (fun rows ↦ Except.ok (⟨(part a db).projects, rows⟩ : Db)) hrows.symm
  · rw [if_neg fun h ↦ hc (hpart.mp h), if_neg fun h ↦ hc (hall.mp h)]
    rfl

theorem insert_ok {t : Task} (h : db.insert t = .ok db') :
    (∀ r ∈ db.tasks, r.id ≠ t.id) ∧ db' = { db with tasks := db.tasks ++ [t] } := by
  unfold Tasks.Db.insert at h
  split at h
  · next hc =>
    cases h
    exact ⟨hc.2, rfl⟩
  · cases h

theorem update_ok {id : UUID} {c : Tasks.Changes} (h : db.update id c = .ok db') :
    db' = { db with tasks := taskColumns.modify id c.apply db.tasks } := by
  unfold Tasks.Db.update at h
  split at h
  · cases h
    rfl
  · cases h

end

section

variable (a : UUID) (ids : List UUID)

def TasksReady (db : Db) : Prop :=
  taskColumns.Keyed db.tasks ∧ ids.Nodup ∧ ∀ id ∈ ids, ∀ r ∈ db.tasks, r.id ≠ id

def TasksWritten (db db' : Db) : Prop :=
  taskColumns.Writes a ids db.tasks db'.tasks ∧ db'.projects = db.projects

abbrev TaskLocal {α : Type} (f : Db → Except TaskError (α × Db)) : Prop :=
  Local (part a) (TasksReady ids) (TasksWritten a ids) f

end

variable {a : UUID} {ids : List UUID}

theorem getOwnedTask_local (taskId : UUID) :
    TaskLocal a ids fun db ↦ (getOwnedTask taskId a db).map fun x ↦ (x, db) := by
  refine .read (fun db _ ↦ ?_) fun db ↦ ⟨.refl _, rfl⟩
  rw [getOwnedTask, getOwnedTask, requireOwnedTask_part]

theorem flush_part {db : Db} (hk : taskColumns.Keyed db.tasks) {t : Task} (ht : t ∈ db.tasks)
    (ho : t.userId = a) (c : Tasks.Changes) :
    Tasks.flush t c (part a db) = (Tasks.flush t c db).map (Prod.map id (part a)) := by
  unfold Tasks.flush
  rw [update_part hk ht ho]
  cases db.update t.id c with
  | error e => rfl
  | ok db' => cases modelValidate (c.apply t) <;> rfl

theorem flush_written {db db' : Db} {t : Task} (ht : t ∈ db.tasks) (ho : t.userId = a)
    {c : Tasks.Changes} {x : PublicTask} (h : Tasks.flush t c db = .ok (x, db')) :
    TasksWritten a ids db db' := by
  obtain ⟨db₁, hdb, h⟩ := bind_ok h
  obtain ⟨y, -, h⟩ := bind_ok h
  cases h
  obtain rfl := update_ok hdb
  exact ⟨.modify t c.apply ht ho (stable_apply c), rfl⟩

theorem updateOwnedTask_local (taskId : UUID) (u : TaskUpdate) (now : Datetime) :
    TaskLocal a ids (updateOwnedTask taskId u a now) := by
  refine ⟨fun db hdb ↦ ?_, fun db x db' _ h ↦ ?_⟩
  · unfold updateOwnedTask
    rw [requireOwnedTask_part]
    cases ht : requireOwnedTask db taskId a with
    | error e => rfl
    | ok t =>
      obtain ⟨hmem, -, ho⟩ := requireOwnedTask_ok ht
      change (Tasks.updateWrite t u now >>= _) = Except.map _ (Tasks.updateWrite t u now >>= _)
      cases Tasks.updateWrite t u now with
      | error e => rfl
      | ok write =>
        cases write with
        | none =>
          change (modelValidate t >>= _) = Except.map _ (modelValidate t >>= _)
          cases modelValidate t <;> rfl
        | some c => exact flush_part hdb.1 hmem ho c
  · obtain ⟨t, ht, h⟩ := bind_ok h
    obtain ⟨hmem, -, ho⟩ := requireOwnedTask_ok ht
    obtain ⟨write, -, h⟩ := bind_ok h
    cases write with
    | none =>
      obtain ⟨y, -, h⟩ := bind_ok h
      cases h
      exact ⟨.refl _, rfl⟩
    | some c => exact flush_written hmem ho h

theorem completeOwnedTask_local (taskId : UUID) (now : Datetime) :
    TaskLocal a ids (completeOwnedTask taskId a now) := by
  refine ⟨fun db hdb ↦ ?_, fun db x db' _ h ↦ ?_⟩
  · unfold completeOwnedTask
    rw [requireOwnedTask_part]
    cases ht : requireOwnedTask db taskId a with
    | error e => rfl
    | ok t =>
      obtain ⟨hmem, -, ho⟩ := requireOwnedTask_ok ht
      simp only [bind, Except.bind]
      cases Tasks.completeWrite t now with
      | none => cases modelValidate t <;> rfl
      | some c => exact flush_part hdb.1 hmem ho c
  · obtain ⟨t, ht, h⟩ := bind_ok h
    obtain ⟨hmem, -, ho⟩ := requireOwnedTask_ok ht
    cases hc : Tasks.completeWrite t now with
    | none =>
      rw [hc] at h
      obtain ⟨y, -, h⟩ := bind_ok h
      cases h
      exact ⟨.refl _, rfl⟩
    | some c =>
      rw [hc] at h
      exact flush_written hmem ho h

theorem deleteOwnedTask_local (taskId : UUID) :
    TaskLocal a ids fun db ↦ (deleteOwnedTask taskId a db).map fun db ↦ ((), db) := by
  refine ⟨fun db _ ↦ ?_, fun db x db' _ h ↦ ?_⟩
  · unfold deleteOwnedTask
    rw [requireOwnedTask_part]
    cases requireOwnedTask db taskId a with
    | error e => rfl
    | ok t =>
      have hrows : taskColumns.ownedBy a (taskColumns.remove t.id db.tasks) =
          taskColumns.remove t.id (taskColumns.ownedBy a db.tasks) :=
        Columns.ownedBy_remove a t.id
      exact congrArg (fun rows ↦ Except.ok ((), (⟨(part a db).projects, rows⟩ : Db))) hrows.symm
  · obtain ⟨db₁, h, heq⟩ := map_ok h
    cases heq
    obtain ⟨t, ht, h⟩ := bind_ok h
    obtain ⟨hmem, -, ho⟩ := requireOwnedTask_ok ht
    cases h
    exact ⟨.remove t hmem ho, rfl⟩

theorem listOwnedTasks_local (database : Database) (q : TaskListQuery) (now : Datetime) :
    TaskLocal a ids fun db ↦ (listOwnedTasks database q a now db.tasks).map fun x ↦ (x, db) := by
  refine .read (fun db _ ↦ ?_) fun db ↦ ⟨.refl _, rfl⟩
  have howner (t : Task) (h : ownedFilters database (q.criteria a now) t = true) : t.userId = a := by
    simp only [ownedFilters, Bool.and_eq_true, decide_eq_true_eq] at h
    exact h.1.1.1.1.1.1.1.1.1
  have hfilter : (taskColumns.ownedBy a db.tasks).filter (ownedFilters database (q.criteria a now)) =
      db.tasks.filter (ownedFilters database (q.criteria a now)) := by
    rw [Columns.ownedBy, List.filter_filter]
    refine List.filter_congr fun t _ ↦ ?_
    by_cases h : ownedFilters database (q.criteria a now) t = true
    · simp [h, show taskColumns.owner t = a from howner t h]
    · simp [h]
  unfold listOwnedTasks
  simp only [listOwned, countOwned, List.countP_eq_length_filter, part, hfilter]

theorem insert_newTask_part {db : Db} {t : TaskCreate} {id : UUID} {now : Datetime}
    (h : ∀ r ∈ db.tasks, r.id ≠ id) :
    (part a db).insert (newTask t a id now) = (db.insert (newTask t a id now)).map (part a) :=
  insert_part (t := newTask t a id now) rfl h

theorem createTask_local (t : TaskCreate) (id : UUID) (now : Datetime) :
    TaskLocal a [id] (createTask t a id now) := by
  refine ⟨fun db hdb ↦ ?_, fun db x db' _ h ↦ ?_⟩
  · have hfresh := hdb.2.2 id (List.mem_singleton_self id)
    unfold createTask
    rw [requireOwnedProject_part, insert_newTask_part hfresh]
    cases requireOwnedProject db t.projectId a with
    | error e => rfl
    | ok u =>
      simp only [ok_bind]
      cases db.insert (newTask t a id now) with
      | error e => rfl
      | ok db₁ =>
        simp only [ok_map, ok_bind]
        cases modelValidate (newTask t a id now) <;> rfl
  · obtain ⟨-, -, h⟩ := bind_ok h
    obtain ⟨db₁, hdb, h⟩ := bind_ok h
    obtain ⟨y, -, h⟩ := bind_ok h
    cases h
    obtain ⟨hfresh, rfl⟩ := insert_ok hdb
    exact ⟨.append _ rfl (List.mem_singleton_self id) hfresh, rfl⟩

theorem createTasks_local (now : Datetime) (inputs : List (TaskCreate × UUID)) :
    TaskLocal a (inputs.map (·.2)) (createTasks a now inputs) := by
  induction inputs with
  | nil =>
    refine ⟨fun db _ ↦ rfl, fun db x db' _ h ↦ ?_⟩
    cases h
    exact ⟨.refl _, rfl⟩
  | cons input inputs ih =>
    obtain ⟨t, id⟩ := input
    have hready {db db₁ : Db} (hdb : TasksReady (((t, id) :: inputs).map (·.2)) db)
        (hi : db.insert (newTask t a id now) = .ok db₁) : TasksReady (inputs.map (·.2)) db₁ := by
      obtain ⟨hk, hn, hf⟩ := hdb
      obtain ⟨hfresh, rfl⟩ := insert_ok hi
      rw [List.map_cons, List.nodup_cons] at hn
      refine ⟨hk.append hfresh, hn.2, fun id' hid' r hr ↦ ?_⟩
      rcases List.mem_append.mp hr with hr | hr
      · exact hf id' (List.mem_cons_of_mem _ hid') r hr
      · obtain rfl := List.mem_singleton.mp hr
        rintro rfl
        exact hn.1 hid'
    refine ⟨fun db hdb ↦ ?_, fun db x db' hdb h ↦ ?_⟩
    · have hfresh := hdb.2.2 id List.mem_cons_self
      unfold createTasks
      rw [insert_newTask_part hfresh]
      cases hi : db.insert (newTask t a id now) with
      | error e => rfl
      | ok db₁ =>
        have hrest := ih.answer db₁ (hready hdb hi)
        simp only [ok_map, ok_bind]
        cases modelValidate (newTask t a id now) with
        | error e => rfl
        | ok created =>
          simp only [ok_bind, hrest]
          cases createTasks a now inputs db₁ <;> rfl
    · obtain ⟨db₁, hi, h⟩ := bind_ok h
      obtain ⟨created, -, h⟩ := bind_ok h
      obtain ⟨⟨others, db₂⟩, hrest, h⟩ := bind_ok h
      cases h
      obtain ⟨hwrites, hprojects⟩ := ih.kept db₁ others db' (hready hdb hi) hrest
      obtain ⟨hfresh, rfl⟩ := insert_ok hi
      refine ⟨.trans (.append (newTask t a id now) rfl List.mem_cons_self hfresh) ?_, hprojects⟩
      exact hwrites.mono fun k hk ↦ List.mem_cons_of_mem _ hk

theorem createTaskBatch_local (now : Datetime) (inputs : List (TaskCreate × UUID)) :
    TaskLocal a (inputs.map (·.2)) (createTaskBatch inputs a now) := by
  cases inputs with
  | nil => exact ⟨fun db _ ↦ rfl, fun db x db' _ h ↦ by cases h⟩
  | cons input inputs =>
    obtain ⟨first, id⟩ := input
    have hall := createTasks_local (a := a) now ((first, id) :: inputs)
    refine ⟨fun db hdb ↦ ?_, fun db x db' hdb h ↦ ?_⟩
    · simp only [createTaskBatch, requireOwnedProject_part]
      split
      · rfl
      · split
        · rfl
        · cases requireOwnedProject db first.projectId a with
          | error e => rfl
          | ok u => exact hall.answer db hdb
    · simp only [createTaskBatch] at h
      split at h
      · cases h
      · split at h
        · cases h
        · obtain ⟨-, -, h⟩ := bind_ok h
          exact hall.kept db x db' hdb h

section

variable (a : UUID) (ids : List UUID)

def ProjectsReady (projects : List Project) : Prop :=
  projectColumns.Keyed projects ∧ ids.Nodup ∧ ∀ id ∈ ids, ∀ r ∈ projects, r.id ≠ id

abbrev ProjectLocal {α : Type} (f : List Project → Except ProjectError (α × List Project)) : Prop :=
  Local (projectColumns.ownedBy a) (ProjectsReady ids) (projectColumns.Writes a ids) f

end

section

variable {projects projects' : List Project}

theorem requireOwnedProject_ownedBy (projectId : UUID) :
    Projects.requireOwnedProject (projectColumns.ownedBy a projects) projectId a =
      Projects.requireOwnedProject projects projectId a := by
  have hlookup : Projects.getOwned (projectColumns.ownedBy a projects) projectId a =
      Projects.getOwned projects projectId a := Columns.lookup_ownedBy (T := projectColumns)
  rw [Projects.requireOwnedProject, Projects.requireOwnedProject, hlookup]

theorem requireOwnedProject_ok {projectId : UUID} {p : Project}
    (h : Projects.requireOwnedProject projects projectId a = .ok p) :
    p ∈ projects ∧ p.id = projectId ∧ p.userId = a := by
  unfold Projects.requireOwnedProject at h
  split at h
  · next p' hp =>
    cases h
    exact Columns.lookup_some (T := projectColumns) hp
  · cases h

theorem stable_applyProject (c : Projects.Changes) : projectColumns.Stable c.apply :=
  ⟨fun _ ↦ rfl, fun _ ↦ rfl⟩

theorem createProject_local (p : ProjectCreate) (id : UUID) (now : Datetime) :
    ProjectLocal a [id] (Projects.createProject p a id now) := by
  refine ⟨fun projects hp ↦ ?_, fun projects x projects' _ h ↦ ?_⟩
  · have hfresh : ∀ r ∈ projects, r.id ≠ (Projects.newProject p a id now).id :=
      hp.2.2 id (List.mem_singleton_self id)
    have hfresh' : ∀ r ∈ projectColumns.ownedBy a projects,
        r.id ≠ (Projects.newProject p a id now).id :=
      fun r hr ↦ hfresh r (Columns.mem_ownedBy.mp hr).1
    unfold Projects.createProject Projects.insert
    by_cases hc : (Projects.newProject p a id now).constraints = true
    · rw [if_pos ⟨hc, hfresh'⟩, if_pos ⟨hc, hfresh⟩]
      have hrows : projectColumns.ownedBy a (projects ++ [Projects.newProject p a id now]) =
          projectColumns.ownedBy a projects ++ [Projects.newProject p a id now] := by
        rw [Columns.ownedBy_append, if_pos (show projectColumns.owner _ = a from rfl)]
      simp only [ok_map, Prod.map, hrows]
      rfl
    · rw [if_neg fun h ↦ hc h.1, if_neg fun h ↦ hc h.1]
      rfl
  · obtain ⟨rows, h, heq⟩ := map_ok h
    cases heq
    unfold Projects.insert at h
    split at h
    · next hc =>
      cases h
      exact .append (Projects.newProject p a id now) rfl (List.mem_singleton_self id) hc.2
    · cases h

theorem flush_ownedBy (hk : projectColumns.Keyed projects) {p : Project} (hp : p ∈ projects)
    (ho : p.userId = a) (c : Projects.Changes) :
    Projects.flush p c (projectColumns.ownedBy a projects) =
      (Projects.flush p c projects).map (Prod.map id (projectColumns.ownedBy a)) := by
  have hall : (∀ r ∈ projects, r.id = p.id → (c.apply r).constraints = true) ↔
      (c.apply p).constraints = true := hk.forall_key hp
  have hpart : (∀ r ∈ projectColumns.ownedBy a projects, r.id = p.id →
      (c.apply r).constraints = true) ↔ (c.apply p).constraints = true :=
    (hk.ownedBy a).forall_key (Columns.mem_ownedBy.mpr ⟨hp, ho⟩)
  unfold Projects.flush Projects.update
  by_cases hc : (c.apply p).constraints = true
  · rw [if_pos (hpart.mpr hc), if_pos (hall.mpr hc)]
    have hrows : projectColumns.ownedBy a (projectColumns.modify p.id c.apply projects) =
        projectColumns.modify p.id c.apply (projectColumns.ownedBy a projects) :=
      Columns.ownedBy_modify (stable_applyProject c) a p.id
    exact congrArg (fun rows ↦ Except.ok ((c.apply p).public, rows)) hrows.symm
  · rw [if_neg fun h ↦ hc (hpart.mp h), if_neg fun h ↦ hc (hall.mp h)]
    rfl

theorem flush_writes {p : Project} (hp : p ∈ projects) (ho : p.userId = a) {c : Projects.Changes}
    {x : PublicProject} (h : Projects.flush p c projects = .ok (x, projects')) :
    projectColumns.Writes a ids projects projects' := by
  obtain ⟨rows, h, heq⟩ := map_ok h
  cases heq
  unfold Projects.update at h
  split at h
  · cases h
    exact .modify p c.apply hp ho (stable_applyProject c)
  · cases h

theorem updateOwnedProject_local (projectId : UUID) (u : ProjectUpdate) (now : Datetime) :
    ProjectLocal a ids (Projects.updateOwnedProject projectId u a now) := by
  refine ⟨fun projects hready ↦ ?_, fun projects x projects' _ h ↦ ?_⟩
  · unfold Projects.updateOwnedProject
    rw [requireOwnedProject_ownedBy]
    cases hp : Projects.requireOwnedProject projects projectId a with
    | error e => rfl
    | ok p =>
      obtain ⟨hmem, -, ho⟩ := requireOwnedProject_ok hp
      simp only [ok_bind]
      cases Projects.updateWrite p u now with
      | error e => rfl
      | ok write =>
        cases write with
        | none => rfl
        | some c => exact flush_ownedBy hready.1 hmem ho c
  · obtain ⟨p, hp, h⟩ := bind_ok h
    obtain ⟨hmem, -, ho⟩ := requireOwnedProject_ok hp
    obtain ⟨write, -, h⟩ := bind_ok h
    cases write with
    | none =>
      cases h
      exact .refl _
    | some c => exact flush_writes hmem ho h

theorem archiveOwnedProject_local (projectId : UUID) (now : Datetime) :
    ProjectLocal a ids (Projects.archiveOwnedProject projectId a now) := by
  refine ⟨fun projects hready ↦ ?_, fun projects x projects' _ h ↦ ?_⟩
  · unfold Projects.archiveOwnedProject
    rw [requireOwnedProject_ownedBy]
    cases hp : Projects.requireOwnedProject projects projectId a with
    | error e => rfl
    | ok p =>
      obtain ⟨hmem, -, ho⟩ := requireOwnedProject_ok hp
      simp only [ok_bind]
      cases Projects.archiveWrite p now with
      | none => rfl
      | some c => exact flush_ownedBy hready.1 hmem ho c
  · obtain ⟨p, hp, h⟩ := bind_ok h
    obtain ⟨hmem, -, ho⟩ := requireOwnedProject_ok hp
    cases hc : Projects.archiveWrite p now with
    | none =>
      rw [hc] at h
      cases h
      exact .refl _
    | some c =>
      rw [hc] at h
      exact flush_writes hmem ho h

theorem getOwnedProject_local (projectId : UUID) :
    ProjectLocal a ids fun projects ↦
      (Projects.getOwnedProject projectId a projects).map fun x ↦ (x, projects) := by
  refine .read (fun projects _ ↦ ?_) fun projects ↦ .refl _
  rw [Projects.getOwnedProject, Projects.getOwnedProject, requireOwnedProject_ownedBy]

theorem listOwnedProjects_local (paging : Paging) (includeArchived : Bool) :
    ProjectLocal a ids fun projects ↦
      (Projects.listOwnedProjects a paging includeArchived projects).map fun x ↦ (x, projects) := by
  refine .read (fun projects _ ↦ ?_) fun projects ↦ .refl _
  have hfilter : (projectColumns.ownedBy a projects).filter (Projects.ownedFilters a includeArchived) =
      projects.filter (Projects.ownedFilters a includeArchived) := by
    rw [Columns.ownedBy, List.filter_filter]
    refine List.filter_congr fun p _ ↦ ?_
    have howner : projectColumns.owner p = p.userId := rfl
    by_cases h : p.userId = a
    · simp [howner, h]
    · simp [howner, h, Projects.ownedFilters]
  simp only [Projects.listOwnedProjects, Projects.listOwned, Projects.countOwned,
    List.countP_eq_length_filter, hfilter]

end

structure Store where
  projects : List Project
  tasks : List Task

def Store.db (s : Store) : Db := ⟨s.projects.map fun p ↦ (p.id, p.userId), s.tasks⟩

def Store.owned (a : UUID) (s : Store) : Store :=
  ⟨projectColumns.ownedBy a s.projects, taskColumns.ownedBy a s.tasks⟩

inductive Operation
  | createProject (input : ProjectCreate) (id : UUID)
  | getProject (projectId : UUID)
  | listProjects (paging : Paging) (includeArchived : Bool)
  | updateProject (projectId : UUID) (u : ProjectUpdate)
  | archiveProject (projectId : UUID)
  | createTask (input : TaskCreate) (id : UUID)
  | createTaskBatch (inputs : List (TaskCreate × UUID))
  | getTask (taskId : UUID)
  | listTasks (q : TaskListQuery)
  | updateTask (taskId : UUID) (u : TaskUpdate)
  | completeTask (taskId : UUID)
  | deleteTask (taskId : UUID)

def Operation.supplied : Operation → List UUID
  | .createProject _ id | .createTask _ id => [id]
  | .createTaskBatch inputs => inputs.map (·.2)
  | _ => []

structure Call where
  userId : UUID
  now : Datetime
  operation : Operation

inductive Reply
  | project (p : PublicProject)
  | projects (r : ProjectListResponse)
  | task (t : PublicTask)
  | tasks (ts : List PublicTask)
  | taskPage (r : TaskListResponse)
  | deleted
  deriving DecidableEq

inductive Failure
  | project (e : ProjectError)
  | task (e : TaskError)
  deriving DecidableEq

def onProjects {α : Type} (f : List Project → Except ProjectError (α × List Project)) (s : Store) :
    Except ProjectError (α × Store) :=
  (f s.projects).map fun (x, projects) ↦ (x, { s with projects := projects })

def onTasks {α : Type} (f : Db → Except TaskError (α × Db)) (s : Store) :
    Except TaskError (α × Store) :=
  (f s.db).map fun (x, db) ↦ (x, { s with tasks := db.tasks })

/-- The answer to a call; an error leaves the store as it was. -/
def answered {ε α : Type} (failure : ε → Failure) (reply : α → Reply)
    (f : Store → Except ε (α × Store)) (s : Store) : Except Failure Reply × Store :=
  match f s with
  | .ok (x, s) => (.ok (reply x), s)
  | .error e => (.error (failure e), s)

def serve (database : Database) (c : Call) : Store → Except Failure Reply × Store :=
  let a := c.userId
  match c.operation with
  | .createProject input id =>
    answered .project .project (onProjects (Projects.createProject input a id c.now))
  | .getProject projectId => answered .project .project (onProjects fun projects ↦
      (Projects.getOwnedProject projectId a projects).map fun x ↦ (x, projects))
  | .listProjects paging includeArchived => answered .project .projects (onProjects fun projects ↦
      (Projects.listOwnedProjects a paging includeArchived projects).map fun x ↦ (x, projects))
  | .updateProject projectId u =>
    answered .project .project (onProjects (Projects.updateOwnedProject projectId u a c.now))
  | .archiveProject projectId =>
    answered .project .project (onProjects (Projects.archiveOwnedProject projectId a c.now))
  | .createTask input id => answered .task .task (onTasks (createTask input a id c.now))
  | .createTaskBatch inputs => answered .task .tasks (onTasks (createTaskBatch inputs a c.now))
  | .getTask taskId => answered .task .task (onTasks fun db ↦
      (getOwnedTask taskId a db).map fun x ↦ (x, db))
  | .listTasks q => answered .task .taskPage (onTasks fun db ↦
      (listOwnedTasks database q a c.now db.tasks).map fun x ↦ (x, db))
  | .updateTask taskId u => answered .task .task (onTasks (updateOwnedTask taskId u a c.now))
  | .completeTask taskId => answered .task .task (onTasks (completeOwnedTask taskId a c.now))
  | .deleteTask taskId => answered .task (fun _ ↦ .deleted) (onTasks fun db ↦
      (deleteOwnedTask taskId a db).map fun db ↦ ((), db))

def services (database : Database) : Shared Store Call (Except Failure Reply) UUID :=
  ⟨Call.userId, serve database⟩

/-- The ids of the rows are unique, and those that calls are given are new. -/
structure Ready (calls : List Call) (s : Store) : Prop where
  projects : ProjectsReady (calls.flatMap (·.operation.supplied)) s.projects
  tasks : TasksReady (calls.flatMap (·.operation.supplied)) s.db

theorem owned_db (a : UUID) (s : Store) : (s.owned a).db = part a s.db := by
  have hprojects : (projectColumns.ownedBy a s.projects).map (fun p ↦ (p.id, p.userId)) =
      (s.projects.map fun p ↦ (p.id, p.userId)).filter fun p ↦ p.2 = a := by
    rw [List.filter_map]
    rfl
  simp only [Store.db, Store.owned, part, hprojects]

/-- What a call does for its user: the answer comes from the rows of the user, and
so do the writes. -/
structure Served (a : UUID) (ids : List UUID) (f : Store → Except Failure Reply × Store)
    (s : Store) : Prop where
  answer : f (s.owned a) = ((f s).1, (f s).2.owned a)
  projects : projectColumns.Writes a ids s.projects (f s).2.projects
  tasks : taskColumns.Writes a ids s.tasks (f s).2.tasks

theorem Served.of_eq {f : Store → Except Failure Reply × Store} {s : Store}
    (r : Except Failure Reply) (s' : Store) (h : f s = (r, s')) (ho : f (s.owned a) = (r, s'.owned a))
    (hp : projectColumns.Writes a ids s.projects s'.projects)
    (ht : taskColumns.Writes a ids s.tasks s'.tasks) : Served a ids f s := by
  refine ⟨?_, ?_, ?_⟩
  · rw [ho, h]
  · rw [h]
    exact hp
  · rw [h]
    exact ht

theorem served_onProjects {α : Type} {f : List Project → Except ProjectError (α × List Project)}
    (h : ProjectLocal a ids f) (failure : ProjectError → Failure) (reply : α → Reply) {s : Store}
    (hs : ProjectsReady ids s.projects) : Served a ids (answered failure reply (onProjects f)) s := by
  have hanswer : f (s.owned a).projects = _ := h.answer s.projects hs
  cases hf : f s.projects with
  | error e =>
    rw [hf] at hanswer
    refine .of_eq (.error (failure e)) s ?_ ?_ (.refl _) (.refl _)
    · simp only [answered, onProjects, hf, Except.map]
    · simp only [answered, onProjects, hanswer, Except.map]
  | ok p =>
    obtain ⟨x, projects⟩ := p
    have hw := h.kept s.projects x projects hs hf
    rw [hf] at hanswer
    refine .of_eq (.ok (reply x)) { s with projects := projects } ?_ ?_ hw (.refl _)
    · simp only [answered, onProjects, hf, Except.map]
    · simp only [answered, onProjects, hanswer, Except.map]
      rfl

theorem served_onTasks {α : Type} {f : Db → Except TaskError (α × Db)} (h : TaskLocal a ids f)
    (failure : TaskError → Failure) (reply : α → Reply) {s : Store} (hs : TasksReady ids s.db) :
    Served a ids (answered failure reply (onTasks f)) s := by
  have hanswer := h.answer s.db hs
  rw [← owned_db] at hanswer
  cases hf : f s.db with
  | error e =>
    rw [hf] at hanswer
    refine .of_eq (.error (failure e)) s ?_ ?_ (.refl _) (.refl _)
    · simp only [answered, onTasks, hf, Except.map]
    · simp only [answered, onTasks, hanswer, Except.map]
  | ok p =>
    obtain ⟨x, db⟩ := p
    have hw := (h.kept s.db x db hs hf).1
    rw [hf] at hanswer
    refine .of_eq (.ok (reply x)) { s with tasks := db.tasks } ?_ ?_ (.refl _) hw
    · simp only [answered, onTasks, hf, Except.map]
    · simp only [answered, onTasks, hanswer, Except.map]
      rfl

theorem serve_served (database : Database) {c : Call} {s : Store}
    (hp : ProjectsReady c.operation.supplied s.projects)
    (ht : TasksReady c.operation.supplied s.db) :
    Served c.userId c.operation.supplied (serve database c) s := by
  obtain ⟨a, now, operation⟩ := c
  cases operation with
  | createProject input id => exact served_onProjects (createProject_local input id now) _ _ hp
  | getProject projectId => exact served_onProjects (getOwnedProject_local projectId) _ _ hp
  | listProjects paging includeArchived =>
    exact served_onProjects (listOwnedProjects_local paging includeArchived) _ _ hp
  | updateProject projectId u => exact served_onProjects (updateOwnedProject_local projectId u now) _ _ hp
  | archiveProject projectId => exact served_onProjects (archiveOwnedProject_local projectId now) _ _ hp
  | createTask input id => exact served_onTasks (createTask_local input id now) _ _ ht
  | createTaskBatch inputs => exact served_onTasks (createTaskBatch_local now inputs) _ _ ht
  | getTask taskId => exact served_onTasks (getOwnedTask_local taskId) _ _ ht
  | listTasks q => exact served_onTasks (listOwnedTasks_local database q now) _ _ ht
  | updateTask taskId u => exact served_onTasks (updateOwnedTask_local taskId u now) _ _ ht
  | completeTask taskId => exact served_onTasks (completeOwnedTask_local taskId now) _ _ ht
  | deleteTask taskId => exact served_onTasks (deleteOwnedTask_local taskId) _ _ ht

theorem Ready.first {c : Call} {calls : List Call} {s : Store} (h : Ready (c :: calls) s) :
    ProjectsReady c.operation.supplied s.projects ∧ TasksReady c.operation.supplied s.db := by
  obtain ⟨⟨hpk, hn, hpf⟩, htk, -, htf⟩ := h
  rw [List.flatMap_cons] at hn hpf htf
  have hn' := (List.nodup_append.mp hn).1
  exact ⟨⟨hpk, hn', fun id hid ↦ hpf id (List.mem_append_left _ hid)⟩,
    htk, hn', fun id hid ↦ htf id (List.mem_append_left _ hid)⟩

theorem Ready.fewer {calls calls' : List Call} {s : Store} (hc : calls'.Sublist calls)
    (h : Ready calls s) : Ready calls' s := by
  have hsub : (calls'.flatMap (·.operation.supplied)).Sublist
      (calls.flatMap (·.operation.supplied)) := hc.flatMap _
  exact ⟨⟨h.projects.1, hsub.nodup h.projects.2.1, fun id hid ↦ h.projects.2.2 id (hsub.mem hid)⟩,
    h.tasks.1, hsub.nodup h.tasks.2.1, fun id hid ↦ h.tasks.2.2 id (hsub.mem hid)⟩

theorem Ready.next (database : Database) {c : Call} {calls : List Call} {s : Store}
    (h : Ready (c :: calls) s) : Ready calls (serve database c s).2 := by
  have hserved := serve_served database h.first.1 h.first.2
  obtain ⟨hpk, -, hpkeys⟩ := hserved.projects.kept h.projects.1
  obtain ⟨htk, -, htkeys⟩ := hserved.tasks.kept h.tasks.1
  have hn := h.projects.2.1
  rw [List.flatMap_cons, List.nodup_append] at hn
  obtain ⟨-, hn', hdisjoint⟩ := hn
  refine ⟨⟨hpk, hn', fun id hid r hr he ↦ ?_⟩, htk, hn', fun id hid r hr he ↦ ?_⟩
  · rcases hpkeys r hr with ⟨r', hr', hk⟩ | hin
    · refine h.projects.2.2 id ?_ r' hr' (hk.trans he)
      rw [List.flatMap_cons]
      exact List.mem_append_right _ hid
    · exact hdisjoint _ hin id hid he
  · rcases htkeys r hr with ⟨r', hr', hk⟩ | hin
    · refine h.tasks.2.2 id ?_ r' hr' (hk.trans he)
      rw [List.flatMap_cons]
      exact List.mem_append_right _ hid
    · exact hdisjoint _ hin id hid he

theorem services_unwinds (database : Database) (a : UUID) :
    (services database).Unwinds (Store.owned a) a Ready := by
  refine ⟨fun c calls s h ↦ h.next database, fun calls calls' s hc h ↦ h.fewer hc, ?_, ?_⟩
  · intro c calls s h hne
    have hserved := serve_served database h.first.1 h.first.2
    obtain ⟨-, hprojects, -⟩ := hserved.projects.kept h.projects.1
    obtain ⟨-, htasks, -⟩ := hserved.tasks.kept h.tasks.1
    simp only [Store.owned, services, hprojects a hne]
    rw [htasks a hne]
  · intro c calls calls' s t hs ht hu hv
    obtain rfl : c.userId = a := hu
    have hanswer := (serve_served database hs.first.1 hs.first.2).answer
    have hanswer' := (serve_served database ht.first.1 ht.first.2).answer
    rw [hv, hanswer'] at hanswer
    exact ⟨(congrArg Prod.fst hanswer).symm, (congrArg Prod.snd hanswer).symm⟩

/-- The operation with another id for the row that it is about. -/
def Operation.aim (k : UUID) : Operation → Operation
  | .getProject _ => .getProject k
  | .updateProject _ u => .updateProject k u
  | .archiveProject _ => .archiveProject k
  | .createTask input id => .createTask { input with projectId := k } id
  | .createTaskBatch inputs => .createTaskBatch (inputs.map fun i ↦ ({ i.1 with projectId := k }, i.2))
  | .getTask _ => .getTask k
  | .updateTask _ u => .updateTask k u
  | .completeTask _ => .completeTask k
  | .deleteTask _ => .deleteTask k
  | operation => operation

def Unknown (a : UUID) (s : Store) (k : UUID) : Prop :=
  (∀ p ∈ (s.owned a).projects, p.id ≠ k) ∧ ∀ t ∈ (s.owned a).tasks, t.id ≠ k

section

variable {s : Store} {k : UUID}

theorem requireOwnedTask_unknown (h : Unknown a s k) :
    requireOwnedTask s.db k a = .error .taskNotFound := by
  cases ht : requireOwnedTask s.db k a with
  | ok t =>
    obtain ⟨hmem, hk, ho⟩ := requireOwnedTask_ok ht
    exact absurd hk (h.2 t (Columns.mem_ownedBy.mpr ⟨hmem, ho⟩))
  | error e =>
    unfold requireOwnedTask at ht
    split at ht
    · cases ht
    · exact ht.symm

theorem requireOwnedProject_unknown (h : Unknown a s k) :
    Projects.requireOwnedProject s.projects k a = .error .projectNotFound := by
  cases hp : Projects.requireOwnedProject s.projects k a with
  | ok p =>
    obtain ⟨hmem, hk, ho⟩ := requireOwnedProject_ok hp
    exact absurd hk (h.1 p (Columns.mem_ownedBy.mpr ⟨hmem, ho⟩))
  | error e =>
    unfold Projects.requireOwnedProject at hp
    split at hp
    · cases hp
    · exact hp.symm

theorem requireOwnedProject_db_unknown (h : Unknown a s k) :
    requireOwnedProject s.db k a = .error .projectNotFound := by
  refine if_neg fun hmem ↦ ?_
  obtain ⟨p, hp, heq⟩ := List.mem_map.mp hmem
  exact h.1 p (Columns.mem_ownedBy.mpr ⟨hp, congrArg Prod.snd heq⟩) (congrArg Prod.fst heq)

/-- What an operation answers about an id that the user does not own. -/
def notFound : Operation → Option Failure
  | .getProject _ | .updateProject _ _ | .archiveProject _ => some (.project .projectNotFound)
  | .createTask _ _ => some (.task .projectNotFound)
  | .createTaskBatch inputs =>
    if inputs = [] ∨ inputs.length > 10 then some (.task .value) else some (.task .projectNotFound)
  | .getTask _ | .updateTask _ _ | .completeTask _ | .deleteTask _ => some (.task .taskNotFound)
  | _ => none

theorem createTaskBatch_unknown (h : Unknown a s k) (now : Datetime)
    (inputs : List (TaskCreate × UUID)) :
    createTaskBatch (inputs.map fun i ↦ ({ i.1 with projectId := k }, i.2)) a now s.db =
      .error (if inputs = [] ∨ inputs.length > 10 then .value else .projectNotFound) := by
  cases inputs with
  | nil => rfl
  | cons input inputs =>
    have hsame : ((input :: inputs).map fun i ↦ (({ i.1 with projectId := k } : TaskCreate), i.2)).any
        (fun i ↦ i.1.projectId != k) = false := by
      rw [List.any_eq_false]
      intro i hi
      obtain ⟨j, -, rfl⟩ := List.mem_map.mp hi
      simp
    by_cases hlen : (input :: inputs).length > 10
    · simp only [createTaskBatch, List.map_cons, List.length_cons, List.length_map] at hlen ⊢
      simp [hlen]
      rfl
    · simp only [List.map_cons] at hsame
      simp only [createTaskBatch, List.map_cons, List.length_cons, List.length_map, hsame] at hlen ⊢
      simp only [hlen, Bool.false_eq_true, ↓reduceIte, requireOwnedProject_db_unknown h]
      rfl

theorem serve_unknown (database : Database) (now : Datetime) (operation : Operation)
    (h : Unknown a s k) {failure : Failure} (hf : notFound operation = some failure) :
    serve database ⟨a, now, operation.aim k⟩ s = (.error failure, s) := by
  have htask := requireOwnedTask_unknown h
  have hproject := requireOwnedProject_unknown h
  have hdb := requireOwnedProject_db_unknown h
  cases operation with
  | createProject input id => cases hf
  | listProjects paging includeArchived => cases hf
  | listTasks q => cases hf
  | createTaskBatch inputs =>
    have hbatch := createTaskBatch_unknown h now inputs
    simp only [serve, Operation.aim, answered, onTasks, hbatch, Except.map]
    simp only [notFound] at hf
    split at hf
    · next hc =>
      cases hf
      rw [if_pos hc]
    · next hc =>
      cases hf
      rw [if_neg hc]
  | getProject projectId =>
    cases hf
    simp only [serve, Operation.aim, answered, onProjects, Projects.getOwnedProject, hproject,
      Except.map]
  | updateProject projectId u =>
    cases hf
    simp only [serve, Operation.aim, answered, onProjects, Projects.updateOwnedProject, hproject]
    rfl
  | archiveProject projectId =>
    cases hf
    simp only [serve, Operation.aim, answered, onProjects, Projects.archiveOwnedProject, hproject]
    rfl
  | createTask input id =>
    cases hf
    simp only [serve, Operation.aim, answered, onTasks, createTask, hdb]
    rfl
  | getTask taskId =>
    cases hf
    simp only [serve, Operation.aim, answered, onTasks, getOwnedTask, htask]
    rfl
  | updateTask taskId u =>
    cases hf
    simp only [serve, Operation.aim, answered, onTasks, updateOwnedTask, htask]
    rfl
  | completeTask taskId =>
    cases hf
    simp only [serve, Operation.aim, answered, onTasks, completeOwnedTask, htask]
    rfl
  | deleteTask taskId =>
    cases hf
    simp only [serve, Operation.aim, answered, onTasks, deleteOwnedTask, htask]
    rfl

end

/-- Whatever another user does, a user receives the same answers and keeps the same
rows as without it; what a call answers depends on the rows of its user only, and
an id that is not among them is answered as not found, whoever has it. -/
theorem owner_noninterference (database : Database) {a b : UUID} (hab : a ≠ b) {calls : List Call}
    {s : Store} (h : Ready calls s) :
    (Shared.received a ((services database).run calls s).1 =
        Shared.received a ((services database).run (calls.filter (·.userId ≠ b)) s).1 ∧
      ((services database).run calls s).2.owned a =
        ((services database).run (calls.filter (·.userId ≠ b)) s).2.owned a) ∧
    (∀ c t, c.userId = a → Ready [c] t →
      serve database c (t.owned a) = ((serve database c t).1, (serve database c t).2.owned a)) ∧
    ∀ now operation failure t k, Unknown a t k → notFound operation = some failure →
      serve database ⟨a, now, operation.aim k⟩ t = (.error failure, t) := by
  refine ⟨?_, ?_, fun now operation failure t k hk hf ↦ serve_unknown database now operation hk hf⟩
  · have hkeep : ∀ c : Call, c.userId = a → decide (c.userId ≠ b) = true := by
      intro c hc
      rw [decide_eq_true_eq, hc]
      exact hab
    exact (services_unwinds database a).run_filter hkeep h (h.fewer List.filter_sublist) rfl
  · intro c t hc ht
    obtain rfl := hc
    exact (serve_served database ht.first.1 ht.first.2).answer

def sampleDatabase : Database :=
  ⟨fun s t ↦ if s = t then .eq else if s < t then .lt else .gt, Char.toLower⟩

def strangerId : UUID := sampleId 8

/-- Two users create a project each; one of them tries to read that of the other. -/
def sampleCalls : List Call :=
  [⟨Tasks.sampleUser, sampleDate.midnight,
      .createProject ⟨"Algebra".toList, none, none, none⟩ (sampleId 1)⟩,
    ⟨strangerId, sampleDate.midnight,
      .createProject ⟨"Logic".toList, none, none, none⟩ (sampleId 2)⟩,
    ⟨strangerId, sampleDate.midnight, .archiveProject (sampleId 1)⟩,
    ⟨Tasks.sampleUser, sampleDate.midnight, .getProject (sampleId 2)⟩,
    ⟨Tasks.sampleUser, sampleDate.midnight, .listProjects ⟨1, 20, firstPage_bounds⟩ true⟩]

theorem owner_noninterference_sample :
    Shared.received Tasks.sampleUser ((services sampleDatabase).run sampleCalls ⟨[], []⟩).1 =
        Shared.received Tasks.sampleUser ((services sampleDatabase).run
          (sampleCalls.filter (·.userId ≠ strangerId)) ⟨[], []⟩).1 ∧
      (Shared.received Tasks.sampleUser
        ((services sampleDatabase).run sampleCalls ⟨[], []⟩).1)[1]? =
          some (.error (.project .projectNotFound)) := by
  have hn : (sampleCalls.flatMap (·.operation.supplied)).Nodup := by decide
  have hready : Ready sampleCalls ⟨[], []⟩ :=
    ⟨⟨List.nodup_nil, hn, fun _ _ _ hr ↦ (by cases hr)⟩,
      ⟨List.nodup_nil, hn, fun _ _ _ hr ↦ (by cases hr)⟩⟩
  have hne : Tasks.sampleUser ≠ strangerId := by decide
  exact ⟨(owner_noninterference sampleDatabase hne hready).1.1, by decide +kernel⟩

end LearningTasks.Services.OwnerIsolation
