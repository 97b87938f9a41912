import LearningTasks.Library.Sessions
import LearningTasks.Services.Tasks

namespace LearningTasks.Services.TaskUpdates

open Library.Strings Library.Programs Library.Sessions Library.Sessions.Session Schemas.Scalars
  Schemas.Task Services.Tasks

def queryTime : ParsedDatetime → Except TaskError Datetime
  | .naive => .error .value
  | .aware t => .ok t

def writeChanges (faults : Faults TaskError) (t : Task) (c : Changes) :
    Program TaskError (Session Db) PublicTask := do
  statement faults fun db ↦ (db.update t.id c).map fun db' ↦ ((), db')
  Program.ofExcept (modelValidate (c.apply t))

/-- `update_owned_task`, in a session whose statements may fail. The clock is read
only if something differs. -/
def updateOwnedTaskIn (faults : Faults TaskError) (clock : ParsedDatetime) (taskId : UUID)
    (u : TaskUpdate) (userId : UUID) : Program TaskError (Session Db) PublicTask := do
  let found ← statement faults fun db ↦ .ok (db.getOwned taskId userId, db)
  let t ← Program.ofOption .taskNotFound found
  let changes ← Program.ofExcept (updateChanges t u)
  if changes = noChanges then Program.ofExcept (modelValidate t)
  else do
    let changedAt ← Program.ofExcept (queryTime clock)
    transact faults id (writeChanges faults t (repositoryUpdate t changes changedAt))

/-- What a session leaves behind: its response and the committed table, or an error. -/
def settled (x : Except TaskError PublicTask × Session Db) : Except TaskError (PublicTask × Db) :=
  x.1.map fun p ↦ (p, x.2.committed)

theorem writeChanges_run (t : Task) (c : Changes) (db : Db) :
    writeChanges (fun _ ↦ none) t c (⟨db, db, 1⟩ : Session Db) =
      match db.update t.id c with
      | .error e => (.error e, ⟨db, db, 2⟩)
      | .ok db' => (modelValidate (c.apply t), ⟨db, db', 2⟩) := by
  have hrun : writeChanges (fun _ ↦ none) t c (⟨db, db, 1⟩ : Session Db) =
      (statement (fun _ ↦ none) (fun db ↦ (db.update t.id c).map fun db' ↦ ((), db')) >>=
        fun _ ↦ Program.ofExcept (modelValidate (c.apply t))) ⟨db, db, 1⟩ := rfl
  rw [hrun, Program.bind_run, statement]
  dsimp only
  cases db.update t.id c with
  | error e => rfl
  | ok db' =>
    cases modelValidate (c.apply t) with
    | error e => rfl
    | ok p => rfl

theorem updateOwnedTaskIn_eq (taskId : UUID) (u : TaskUpdate) (userId : UUID) (now : Datetime)
    (db : Db) : settled (updateOwnedTaskIn (fun _ ↦ none) (.aware now) taskId u userId (.start db)) =
      updateOwnedTask taskId u userId now db := by
  unfold updateOwnedTaskIn updateOwnedTask requireOwnedTask
  change settled ((Program.ofOption TaskError.taskNotFound (db.getOwned taskId userId) >>= _)
    (⟨db, db, 1⟩ : Session Db)) = _
  cases db.getOwned taskId userId with
  | none => rfl
  | some t =>
    change settled ((Program.ofExcept (updateChanges t u) >>= _) (⟨db, db, 1⟩ : Session Db)) =
      (updateWrite t u now >>= _)
    unfold updateWrite
    cases updateChanges t u with
    | error e => rfl
    | ok c =>
      change settled ((if c = noChanges then Program.ofExcept (modelValidate t) else _)
        (⟨db, db, 1⟩ : Session Db)) =
          ((Except.ok (if c = noChanges then none else some (repositoryUpdate t c now))) >>= _)
      by_cases hc : c = noChanges
      · rw [if_pos hc, if_pos hc]
        change _ = (modelValidate t >>= fun p ↦ pure (p, db))
        cases modelValidate t with
        | error e => rfl
        | ok p => rfl
      · rw [if_neg hc, if_neg hc]
        change settled (transact (fun _ ↦ none) id
          (writeChanges (fun _ ↦ none) t (repositoryUpdate t c now)) (⟨db, db, 1⟩ : Session Db)) =
            flush t (repositoryUpdate t c now) db
        unfold flush
        have hwrite := writeChanges_run t (repositoryUpdate t c now) db
        cases hu : db.update t.id (repositoryUpdate t c now) with
        | error e =>
          rw [hu] at hwrite
          rw [transact_of_error hwrite]
          rfl
        | ok db' =>
          rw [hu] at hwrite
          change _ = (modelValidate ((repositoryUpdate t c now).apply t) >>= fun p ↦ pure (p, db'))
          cases hm : modelValidate ((repositoryUpdate t c now).apply t) with
          | error e =>
            rw [hm] at hwrite
            rw [transact_of_error hwrite]
            rfl
          | ok p =>
            rw [hm] at hwrite
            rw [transact_of_ok hwrite rfl]
            rfl

structure Stored (db : Db) : Prop where
  constraints : ∀ t ∈ db.tasks, t.constraints = true
  unique : (db.tasks.map Task.id).Nodup

/-- The task with the supplied fields of an update, and no completion once it is reopened. -/
def merge (t : Task) (u : TaskUpdate) : Task :=
  { t with
    title := u.title.getD t.title
    description := u.description.getD t.description
    status := u.status.getD t.status
    priority := u.priority.getD t.priority
    plannedDate := u.plannedDate.getD t.plannedDate
    dueAt := u.dueAt.getD t.dueAt
    estimatedMinutes := u.estimatedMinutes.getD t.estimatedMinutes
    completedAt := if t.status = .completed ∧ u.status.getD t.status ≠ .completed then none
      else t.completedAt }

/-- The merged task, with the time of the change if there is one. -/
def updated (t : Task) (u : TaskUpdate) (now : Datetime) : Task :=
  if merge t u = t then t else { merge t u with updatedAt := now }

/-- An update that the rules on dates and on status permit, on the merged values. -/
def permitted (t : Task) (u : TaskUpdate) : Except TaskError Unit :=
  if !dateOrderValid (merge t u).plannedDate (merge t u).dueAt then .error .taskDateOrder
  else validateStatusTransition t.status (merge t u).status

def collected (t : Task) (u : TaskUpdate) : Changes where
  title := changed t.title u.title
  description := changed t.description u.description
  status := changed t.status u.status
  priority := changed t.priority u.priority
  plannedDate := changed t.plannedDate u.plannedDate
  dueAt := changed t.dueAt u.dueAt
  estimatedMinutes := changed t.estimatedMinutes u.estimatedMinutes
  completedAt := if t.status = .completed ∧ (merge t u).status ≠ .completed then some none else none
  updatedAt := none

theorem changed_getD {α : Type} [DecidableEq α] (stored : α) (value : Option α) :
    (changed stored value).getD stored = value.getD stored := by
  cases value with
  | none => rfl
  | some a =>
    by_cases h : a = stored
    · simp [changed, Option.filter, h]
    · simp [changed, Option.filter, h]

theorem changed_eq_none {α : Type} [DecidableEq α] {stored : α} {value : Option α} :
    changed stored value = none ↔ value.getD stored = stored := by
  cases value with
  | none => simp [changed]
  | some a =>
    by_cases h : a = stored
    · simp [changed, h]
    · simp [changed, h]

theorem updateChanges_eq (t : Task) (u : TaskUpdate) :
    updateChanges t u = (permitted t u).map fun _ ↦ collected t u := by
  unfold updateChanges permitted collected
  have hdates : dateOrderValid (merge t u).plannedDate (merge t u).dueAt =
      dateOrderValid (u.plannedDate.getD t.plannedDate) (u.dueAt.getD t.dueAt) := rfl
  rw [hdates]
  by_cases hd : (!dateOrderValid (u.plannedDate.getD t.plannedDate) (u.dueAt.getD t.dueAt)) = true
  · rw [if_pos hd, if_pos hd]
    rfl
  · rw [if_neg hd, if_neg hd]
    have hstatus : (merge t u).status = u.status.getD t.status := rfl
    cases hs : u.status with
    | none =>
      have hself : validateStatusTransition t.status t.status = .ok () := if_pos rfl
      have hno : ¬ (t.status = .completed ∧ t.status ≠ .completed) := fun h ↦ h.2 h.1
      rw [hstatus, hs, Option.getD_none, hself, if_neg hno]
      rfl
    | some target =>
      have hiff : (t.status = .completed ∧ target ≠ t.status) ↔
          (t.status = .completed ∧ target ≠ .completed) := by
        constructor
        · intro h
          exact ⟨h.1, h.1 ▸ h.2⟩
        · intro h
          exact ⟨h.1, h.1.symm ▸ h.2⟩
      rw [hstatus, hs, Option.getD_some, reopening, if_congr hiff rfl rfl]
      cases validateStatusTransition t.status target with
      | error e => rfl
      | ok v => rfl

theorem collected_eq_noChanges (t : Task) (u : TaskUpdate) :
    collected t u = noChanges ↔ merge t u = t := by
  constructor
  · intro h
    have htitle := changed_eq_none.mp (congrArg Changes.title h)
    have hdescription := changed_eq_none.mp (congrArg Changes.description h)
    have hstatus := changed_eq_none.mp (congrArg Changes.status h)
    have hpriority := changed_eq_none.mp (congrArg Changes.priority h)
    have hplanned := changed_eq_none.mp (congrArg Changes.plannedDate h)
    have hdue := changed_eq_none.mp (congrArg Changes.dueAt h)
    have hminutes := changed_eq_none.mp (congrArg Changes.estimatedMinutes h)
    have hno : ¬ (t.status = .completed ∧ t.status ≠ .completed) := fun h ↦ h.2 h.1
    unfold merge
    rw [htitle, hdescription, hstatus, hpriority, hplanned, hdue, hminutes, if_neg hno]
  · intro h
    have hstatus : (merge t u).status = t.status := congrArg Task.status h
    have hno : ¬ (t.status = .completed ∧ (merge t u).status ≠ .completed) := by
      rw [hstatus]
      exact fun h ↦ h.2 h.1
    have htitle : changed t.title u.title = none := changed_eq_none.mpr (congrArg Task.title h)
    have hdescription : changed t.description u.description = none :=
      changed_eq_none.mpr (congrArg Task.description h)
    have hchanged : changed t.status u.status = none := changed_eq_none.mpr hstatus
    have hpriority : changed t.priority u.priority = none :=
      changed_eq_none.mpr (congrArg Task.priority h)
    have hplanned : changed t.plannedDate u.plannedDate = none :=
      changed_eq_none.mpr (congrArg Task.plannedDate h)
    have hdue : changed t.dueAt u.dueAt = none := changed_eq_none.mpr (congrArg Task.dueAt h)
    have hminutes : changed t.estimatedMinutes u.estimatedMinutes = none :=
      changed_eq_none.mpr (congrArg Task.estimatedMinutes h)
    unfold collected noChanges
    rw [htitle, hdescription, hchanged, hpriority, hplanned, hdue, hminutes, if_neg hno]

theorem repositoryUpdate_apply (t : Task) (u : TaskUpdate) (now : Datetime) :
    (repositoryUpdate t (collected t u) now).apply t = { merge t u with updatedAt := now } := by
  have hcompleted : (changed t.completedAt (collected t u).completedAt).getD t.completedAt =
      (merge t u).completedAt := by
    rw [changed_getD]
    unfold collected merge
    dsimp only
    split
    · rfl
    · rfl
  unfold repositoryUpdate Changes.apply
  simp only [hcompleted]
  simp only [collected, changed_changed, changed_getD, Option.getD_some]
  rfl

theorem stripped_any {s : Text} (hs : strip s = s) (hne : s ≠ []) : s.any (· != ' ') = true := by
  have hr : s.rdropWhile isSpace = s := by
    rw [← hs, strip]
    exact List.rdropWhile_idempotent isSpace _
  have hlast := List.rdropWhile_eq_self_iff.mp hr hne
  rw [List.any_eq_true]
  refine ⟨s.getLast hne, List.getLast_mem hne, ?_⟩
  rw [bne_iff_ne]
  intro h
  rw [h] at hlast
  exact hlast (by decide)

theorem check_valid {u : TaskUpdate} (h : u.check = some u) :
    (∀ title ∈ u.title, strip title = title ∧ 1 ≤ title.length ∧ title.length ≤ 300) ∧
      (∀ d ∈ u.description, descriptionValid d = true) ∧
      (∀ n ∈ u.estimatedMinutes, minutesValid n = true) ∧ u.status ≠ some .completed := by
  unfold TaskUpdate.check at h
  simp only [Option.ite_none_right_eq_some, Option.some.injEq, Bool.and_eq_true, bne_iff_ne] at h
  obtain ⟨⟨⟨⟨⟨⟨ht, hd⟩, hm⟩, hs⟩, -⟩, -⟩, hu⟩ := h
  have htitle : u.title.map strip = u.title := congrArg TaskUpdate.title hu
  have hdescription : u.description.map normalizeDescription = u.description :=
    congrArg TaskUpdate.description hu
  rw [htitle] at ht
  rw [hdescription] at hd
  refine ⟨?_, ?_, ?_, hs⟩
  · intro title hmem
    rw [Option.mem_def.mp hmem] at ht htitle
    rw [Option.all_some, lengthBetween, Bool.and_eq_true, decide_eq_true_eq, decide_eq_true_eq] at ht
    exact ⟨Option.some.inj htitle, ht⟩
  · intro d hmem
    rw [Option.mem_def.mp hmem] at hd
    exact hd
  · intro n hmem
    rw [Option.mem_def.mp hmem] at hm
    exact hm

theorem modelValidate_of_constraints {t : Task} (h : t.constraints = true) :
    modelValidate t = .ok t.public := by
  have hc : (t.status = .completed) = (t.completedAt.isSome = true) :=
    propext (constraints_status h).1.symm
  have hcheck : t.public.check = some t.public := if_pos hc
  rw [modelValidate, hcheck]

theorem constraints_texts {t : Task} (h : t.constraints = true) : t.textsStorable = true := by
  simp only [Task.constraints, Bool.and_eq_true] at h
  exact h.1.1.1.1.1.1

theorem merge_constraints {t : Task} {u : TaskUpdate} (ht : t.constraints = true)
    (hu : u.check = some u)
    (hd : dateOrderValid (merge t u).plannedDate (merge t u).dueAt = true)
    (htexts : (merge t u).textsStorable = true) :
    (merge t u).constraints = true := by
  obtain ⟨htitle, hdescription, hminutes, hstatus⟩ := check_valid hu
  simp only [Task.constraints, Bool.and_eq_true, beq_iff_eq, decide_eq_true_eq] at ht ⊢
  obtain ⟨⟨⟨⟨⟨⟨-, h₁⟩, h₂⟩, h₃⟩, h₄⟩, -⟩, h₆⟩ := ht
  refine ⟨⟨⟨⟨⟨⟨htexts, ?_⟩, ?_⟩, ?_⟩, ?_⟩, hd⟩, ?_⟩
  · cases hx : u.title with
    | none => simpa only [merge, hx, Option.getD_none] using h₁
    | some title =>
      obtain ⟨hs, hl, -⟩ := htitle title hx
      simp only [merge, hx, Option.getD_some]
      exact stripped_any hs (List.length_pos_iff.mp hl)
  · cases hx : u.title with
    | none => simpa only [merge, hx, Option.getD_none] using h₂
    | some title => simpa only [merge, hx, Option.getD_some] using (htitle title hx).2.2
  · cases hx : u.description with
    | none => simpa only [merge, hx, Option.getD_none] using h₃
    | some d => simpa only [merge, hx, Option.getD_some] using hdescription d hx
  · cases hx : u.estimatedMinutes with
    | none => simpa only [merge, hx, Option.getD_none] using h₄
    | some n => simpa only [merge, hx, Option.getD_some] using hminutes n hx
  · cases hx : u.status with
    | none =>
      have hno : ¬ (t.status = .completed ∧ t.status ≠ .completed) := fun h ↦ h.2 h.1
      simpa only [merge, hx, Option.getD_none, if_neg hno] using h₆
    | some target =>
      have hne : target ≠ .completed := fun h ↦ hstatus (by rw [hx, h])
      simp only [merge, hx, Option.getD_some, hne, decide_false]
      by_cases hc : t.status = .completed
      · rw [if_pos ⟨hc, hne⟩]
        rfl
      · rw [if_neg fun h ↦ hc h.1, ← h₆, decide_eq_false hc]

def replace (db : Db) (t : Task) : Db :=
  { db with tasks := db.tasks.map fun r ↦ if r.id = t.id then t else r }

namespace Stored

variable {db : Db} {t : Task}

theorem eq_of_id (h : Stored db) {r : Task} (hr : r ∈ db.tasks) (ht : t ∈ db.tasks)
    (hid : r.id = t.id) : r = t := List.inj_on_of_nodup_map h.unique hr ht hid

theorem replace_self (h : Stored db) (ht : t ∈ db.tasks) : replace db t = db := by
  have hmap : db.tasks.map (fun r ↦ if r.id = t.id then t else r) = db.tasks.map id := by
    apply List.map_congr_left
    intro r hr
    split
    · next hid => exact (h.eq_of_id hr ht hid).symm
    · rfl
  rw [replace, hmap, List.map_id]

theorem replace (h : Stored db) (ht : t.constraints = true) : Stored (replace db t) where
  constraints r hr := by
    obtain ⟨r', hr', rfl⟩ := List.mem_map.mp hr
    split
    · exact ht
    · exact h.constraints r' hr'
  unique := by
    have hids : (db.tasks.map fun r ↦ if r.id = t.id then t else r).map Task.id =
        db.tasks.map Task.id := by
      rw [List.map_map]
      apply List.map_congr_left
      intro r _
      dsimp only [Function.comp_apply]
      split
      · next hid => exact hid.symm
      · rfl
    have hu := h.unique
    rw [← hids] at hu
    exact hu

theorem getOwned (h : Stored db) (ht : t ∈ db.tasks) : db.getOwned t.id t.userId = some t := by
  unfold Db.getOwned
  cases hf : db.tasks.find? fun r ↦ r.id = t.id && r.userId = t.userId with
  | none =>
    have hn := List.find?_eq_none.mp hf t ht
    simp at hn
  | some r =>
    have hp := List.find?_some hf
    simp only [Bool.and_eq_true, decide_eq_true_eq] at hp
    rw [h.eq_of_id (List.mem_of_find?_eq_some hf) ht hp.1]

end Stored

theorem getOwned_some {db : Db} {taskId userId : UUID} {t : Task}
    (h : db.getOwned taskId userId = some t) : t ∈ db.tasks ∧ t.id = taskId ∧ t.userId = userId := by
  have hp := List.find?_some h
  simp only [Bool.and_eq_true, decide_eq_true_eq] at hp
  exact ⟨List.mem_of_find?_eq_some h, hp⟩

theorem update_eq_replace {db : Db} (h : Stored db) {t : Task} (ht : t ∈ db.tasks) {c : Changes}
    (hid : (c.apply t).id = t.id) (hc : (c.apply t).constraints = true) :
    db.update t.id c = .ok (replace db (c.apply t)) := by
  have hall : ∀ r ∈ db.tasks, r.id = t.id → (c.apply r).constraints = true := by
    intro r hr hrid
    rw [h.eq_of_id hr ht hrid]
    exact hc
  have hmap : db.tasks.map (fun r ↦ if r.id = t.id then c.apply r else r) =
      db.tasks.map fun r ↦ if r.id = (c.apply t).id then c.apply t else r := by
    apply List.map_congr_left
    intro r hr
    rw [hid]
    split
    · next hrid => rw [h.eq_of_id hr ht hrid]
    · rfl
  rw [Db.update, if_pos hall, hmap, replace]

theorem update_constraints {db db' : Db} {t : Task} (ht : t ∈ db.tasks) {c : Changes}
    (h : db.update t.id c = .ok db') : (c.apply t).constraints = true := by
  unfold Db.update at h
  split at h
  · next hall => exact hall t ht rfl
  · cases h

theorem update_error {db : Db} {taskId : UUID} {c : Changes} {e : TaskError}
    (h : db.update taskId c = .error e) : e = .database := by
  unfold Db.update at h
  split at h
  · cases h
  · cases h
    rfl

theorem writeChanges_keeps (faults : Faults TaskError) (t : Task) (c : Changes) :
    Keeps (writeChanges faults t c) :=
  (Keeps.statement faults _).bind fun _ ↦ .ofExcept _

theorem writeChanges_ok {faults : Faults TaskError} {db : Db} (h : Stored db) {t : Task}
    (ht : t ∈ db.tasks) {c : Changes} (hid : (c.apply t).id = t.id)
    {s s' : Session Db} (hs : s.working = db) {p : PublicTask}
    (hw : writeChanges faults t c s = (.ok p, s')) :
    (c.apply t).constraints = true ∧ p = (c.apply t).public ∧
      s'.working = replace db (c.apply t) := by
  unfold writeChanges at hw
  rcases statement_cases faults (fun db ↦ (db.update t.id c).map fun db' ↦ ((), db')) s with
    ⟨e, he⟩ | ⟨a, w, hf, he⟩
  · rw [Program.bind_of_error he] at hw
    cases hw
  · rw [hs] at hf
    cases hupdate : db.update t.id c with
    | error e =>
      rw [hupdate] at hf
      cases hf
    | ok db' =>
      have hc := update_constraints ht hupdate
      rw [Program.bind_of_ok he, modelValidate_of_constraints hc] at hw
      rw [update_eq_replace h ht hid hc] at hf
      cases hf
      cases hw
      exact ⟨hc, rfl, rfl⟩

theorem writeChanges_noFaults {db : Db} (h : Stored db) {t : Task} (ht : t ∈ db.tasks) {c : Changes}
    (hid : (c.apply t).id = t.id) (hc : (c.apply t).constraints = true) (s : Session Db)
    (hs : s.working = db) : writeChanges (fun _ ↦ none) t c s =
      (.ok (c.apply t).public, ⟨s.committed, replace db (c.apply t), s.sent + 1⟩) := by
  have hf : (fun db : Db ↦ (db.update t.id c).map fun db' ↦ ((), db')) s.working =
      .ok ((), replace db (c.apply t)) := by
    dsimp only
    rw [hs, update_eq_replace h ht hid hc]
    rfl
  unfold writeChanges
  rw [Program.bind_of_ok (statement_of_ok rfl hf), modelValidate_of_constraints hc]
  rfl

/-- How an update ends: nothing is committed by one that raises; another commits the
merged version of the task that was found. -/
inductive UpdateOutcome (db : Db) (taskId userId : UUID) (u : TaskUpdate) (clock : ParsedDatetime) :
    Except TaskError PublicTask × Session Db → Prop
  | raised (e : TaskError) (s : Session Db) (committed : s.committed = db) :
      UpdateOutcome db taskId userId u clock (.error e, s)
  | done (t : Task) (now : Datetime) (s : Session Db) (found : db.getOwned taskId userId = some t)
      (allowed : permitted t u = .ok ()) (texts : (merge t u).textsStorable = true)
      (read : merge t u ≠ t → clock = .aware now)
      (committed : s.committed = replace db (updated t u now)) :
      UpdateOutcome db taskId userId u clock (.ok (updated t u now).public, s)

theorem permitted_dates {t : Task} {u : TaskUpdate} (h : permitted t u = .ok ()) :
    dateOrderValid (merge t u).plannedDate (merge t u).dueAt = true := by
  unfold permitted at h
  split at h
  · cases h
  · next hd => simpa using hd

theorem updateOwnedTaskIn_outcome (faults : Faults TaskError) (clock : ParsedDatetime)
    (taskId userId : UUID) (u : TaskUpdate) {db : Db} (h : Stored db) :
    UpdateOutcome db taskId userId u clock
      (updateOwnedTaskIn faults clock taskId u userId (.start db)) := by
  unfold updateOwnedTaskIn
  rcases statement_cases faults (fun db : Db ↦ .ok (db.getOwned taskId userId, db)) (.start db) with
    ⟨e, he⟩ | ⟨found, w, hf, he⟩
  · rw [Program.bind_of_error he]
    exact .raised _ _ rfl
  · rw [Program.bind_of_ok he]
    cases hf
    change UpdateOutcome db taskId userId u clock
      ((Program.ofOption TaskError.taskNotFound (db.getOwned taskId userId) >>= _) ⟨db, db, 1⟩)
    cases hfound : db.getOwned taskId userId with
    | none => exact .raised _ _ rfl
    | some t =>
      obtain ⟨hmem, hid, huser⟩ := getOwned_some hfound
      have ht := h.constraints t hmem
      change UpdateOutcome db taskId userId u clock
        ((Program.ofExcept (updateChanges t u) >>= _) ⟨db, db, 1⟩)
      rw [updateChanges_eq]
      cases hp : permitted t u with
      | error e => exact .raised _ _ rfl
      | ok v =>
        change UpdateOutcome db taskId userId u clock
          ((if collected t u = noChanges then Program.ofExcept (modelValidate t) else _) ⟨db, db, 1⟩)
        by_cases hsame : merge t u = t
        · rw [if_pos ((collected_eq_noChanges t u).mpr hsame), modelValidate_of_constraints ht]
          have hupdated : updated t u t.updatedAt = t := if_pos hsame
          have hdone : UpdateOutcome db taskId userId u clock
              (.ok (updated t u t.updatedAt).public, ⟨db, db, 1⟩) :=
            .done t t.updatedAt ⟨db, db, 1⟩ hfound hp (hsame.symm ▸ constraints_texts ht)
              (fun hne ↦ absurd hsame hne) (by rw [hupdated, h.replace_self hmem])
          rw [hupdated] at hdone
          exact hdone
        · rw [if_neg fun hn ↦ hsame ((collected_eq_noChanges t u).mp hn)]
          cases clock with
          | naive => exact .raised _ _ rfl
          | aware now =>
            have hupdated : updated t u now = { merge t u with updatedAt := now } := if_neg hsame
            have happly := repositoryUpdate_apply t u now
            change UpdateOutcome db taskId userId u (.aware now)
              (transact faults id (writeChanges faults t (repositoryUpdate t (collected t u) now))
                ⟨db, db, 1⟩)
            have hsettled := transact_settled faults id
              (writeChanges_keeps faults t (repositoryUpdate t (collected t u) now)) ⟨db, db, 1⟩
            generalize transact faults id _ _ = x at hsettled
            cases hsettled with
            | rolledBack e s committed working => exact .raised e s committed
            | committed p done s ran committed working =>
              have hid' : ((repositoryUpdate t (collected t u) now).apply t).id = t.id := by
                rw [happly]
                rfl
              obtain ⟨hc, rfl, hw⟩ := writeChanges_ok h hmem hid' rfl ran
              rw [happly] at hc
              have htexts : (merge t u).textsStorable = true := constraints_texts hc
              rw [happly, ← hupdated] at hw ⊢
              exact .done t now s hfound hp htexts (fun _ ↦ rfl) (committed.trans hw)

def expected (db : Db) (taskId userId : UUID) (u : TaskUpdate) (now : Datetime) :
    Except TaskError PublicTask :=
  match db.getOwned taskId userId with
  | none => .error .taskNotFound
  | some t => (permitted t u).bind fun _ ↦
      if (merge t u).textsStorable then .ok (updated t u now).public else .error .database

theorem updateOwnedTaskIn_noFaults (taskId userId : UUID) {u : TaskUpdate} (hu : u.check = some u)
    {db : Db} (h : Stored db) (now : Datetime) :
    (updateOwnedTaskIn (fun _ ↦ none) (.aware now) taskId u userId (.start db)).1 =
      expected db taskId userId u now := by
  unfold updateOwnedTaskIn expected
  change ((Program.ofOption TaskError.taskNotFound (db.getOwned taskId userId) >>= _)
    (⟨db, db, 1⟩ : Session Db)).1 = _
  cases hfound : db.getOwned taskId userId with
  | none => rfl
  | some t =>
    obtain ⟨hmem, -, -⟩ := getOwned_some hfound
    have ht := h.constraints t hmem
    change ((Program.ofExcept (updateChanges t u) >>= _) (⟨db, db, 1⟩ : Session Db)).1 =
      (permitted t u).bind fun _ ↦
        if (merge t u).textsStorable then .ok (updated t u now).public else .error .database
    rw [updateChanges_eq]
    cases hp : permitted t u with
    | error e => rfl
    | ok v =>
      change ((if collected t u = noChanges then Program.ofExcept (modelValidate t) else _)
        (⟨db, db, 1⟩ : Session Db)).1 =
          if (merge t u).textsStorable then .ok (updated t u now).public else .error .database
      by_cases hsame : merge t u = t
      · have htexts : (merge t u).textsStorable = true := hsame.symm ▸ constraints_texts ht
        have hupdated : updated t u now = t := if_pos hsame
        rw [if_pos ((collected_eq_noChanges t u).mpr hsame), modelValidate_of_constraints ht,
          if_pos htexts, hupdated]
        rfl
      · rw [if_neg fun hn ↦ hsame ((collected_eq_noChanges t u).mp hn)]
        change (transact (fun _ ↦ none) id
          (writeChanges (fun _ ↦ none) t (repositoryUpdate t (collected t u) now)) ⟨db, db, 1⟩).1 = _
        have hupdated : updated t u now = { merge t u with updatedAt := now } := if_neg hsame
        have happly := repositoryUpdate_apply t u now
        cases htexts : (merge t u).textsStorable with
        | true =>
          have hid : ((repositoryUpdate t (collected t u) now).apply t).id = t.id := by
            rw [happly]
            rfl
          have hc : ((repositoryUpdate t (collected t u) now).apply t).constraints = true := by
            rw [happly]
            exact merge_constraints ht hu (permitted_dates hp) htexts
          have hw := writeChanges_noFaults h hmem hid hc ⟨db, db, 1⟩ rfl
          rw [transact_of_ok hw rfl, happly, ← hupdated]
          rfl
        | false =>
          have hw := writeChanges_run t (repositoryUpdate t (collected t u) now) db
          cases hu' : db.update t.id (repositoryUpdate t (collected t u) now) with
          | error e =>
            rw [hu'] at hw
            rw [transact_of_error hw, update_error hu']
            rfl
          | ok db' =>
            have hc := update_constraints hmem hu'
            rw [happly] at hc
            rw [show (merge t u).textsStorable = true from constraints_texts hc] at htexts
            cases htexts

theorem merge_updated {t : Task} {u : TaskUpdate} (hu : u.check = some u) (now : Datetime) :
    merge (updated t u now) u = updated t u now := by
  have hstatus := (check_valid hu).2.2.2
  have hagain : ∀ v : Datetime, merge { merge t u with updatedAt := v } u =
      { merge t u with updatedAt := v } := by
    intro v
    have hget {α : Type} (value : Option α) (a : α) : value.getD (value.getD a) = value.getD a := by
      cases value with
      | none => rfl
      | some b => rfl
    have hcompleted : (if u.status.getD t.status = .completed ∧ u.status.getD t.status ≠ .completed
        then none else (merge t u).completedAt) = (merge t u).completedAt :=
      if_neg fun h ↦ h.2 h.1
    unfold merge at hcompleted ⊢
    simp only [hget]
    rw [hcompleted]
  unfold updated
  split
  · next hsame => exact hsame
  · exact hagain now

theorem permitted_updated {t : Task} {u : TaskUpdate} (hu : u.check = some u) (now : Datetime)
    (h : permitted t u = .ok ()) : permitted (updated t u now) u = .ok () := by
  have hmerge := merge_updated (t := t) hu now
  have hdates := permitted_dates h
  have hsame : dateOrderValid (updated t u now).plannedDate (updated t u now).dueAt = true := by
    unfold updated
    split
    · next hs => rw [← hs]; exact hdates
    · exact hdates
  unfold permitted
  rw [hmerge, hsame]
  exact if_pos rfl

/-- The law of a successful update: the stored version is the merged one, valid again,
and the same update changes nothing more. -/
structure Updated (db db' : Db) (taskId userId : UUID) (u : TaskUpdate) (clock : ParsedDatetime)
    (t : Task) (now : Datetime) (p : PublicTask) : Prop where
  found : db.getOwned taskId userId = some t
  read : merge t u ≠ t → clock = .aware now
  stored : db' = replace db (updated t u now)
  returned : p = (updated t u now).public
  kept : Stored db'
  completion : (updated t u now).completedAt.isSome = true ↔ (updated t u now).status = .completed
  dates : dateOrderValid (updated t u now).plannedDate (updated t u now).dueAt = true
  moved : (updated t u now).updatedAt = if merge t u = t then t.updatedAt else now
  again : ∀ faults clock', (updateOwnedTaskIn faults clock' taskId u userId (.start db')).2.committed =
    db'
  repeated : ∀ later, (updateOwnedTaskIn (fun _ ↦ none) (.aware later) taskId u userId
    (.start db')).1 = .ok p

theorem updated_constraints {t : Task} {u : TaskUpdate} (ht : t.constraints = true)
    (hu : u.check = some u) (hp : permitted t u = .ok ())
    (htexts : (merge t u).textsStorable = true) (now : Datetime) :
    (updated t u now).constraints = true := by
  unfold updated
  split
  · exact ht
  · exact merge_constraints ht hu (permitted_dates hp) htexts

theorem updated_updatedAt (t : Task) (u : TaskUpdate) (now : Datetime) :
    (updated t u now).updatedAt = if merge t u = t then t.updatedAt else now := by
  unfold updated
  split
  · rfl
  · rfl

theorem updated_id (t : Task) (u : TaskUpdate) (now : Datetime) :
    (updated t u now).id = t.id ∧ (updated t u now).userId = t.userId := by
  unfold updated
  split
  · exact ⟨rfl, rfl⟩
  · exact ⟨rfl, rfl⟩

/-- The law of `update_owned_task`, one request at a time, whichever statements fail. Where
none does, the session comes to the update of the table. -/
theorem task_update_law (faults : Faults TaskError) (clock : ParsedDatetime) (taskId userId : UUID)
    (u : ValidUpdate) (db : Db) (h : Stored db) :
    (∀ e s, updateOwnedTaskIn faults clock taskId u.1 userId (.start db) = (.error e, s) →
      s.committed = db) ∧
    (∀ p s, updateOwnedTaskIn faults clock taskId u.1 userId (.start db) = (.ok p, s) →
      ∃ t now, Updated db s.committed taskId userId u.1 clock t now p) ∧
    ∀ now, (updateOwnedTaskIn (fun _ ↦ none) (.aware now) taskId u.1 userId (.start db)).1 =
        expected db taskId userId u.1 now ∧
      settled (updateOwnedTaskIn (fun _ ↦ none) (.aware now) taskId u.1 userId (.start db)) =
        updateOwnedTask taskId u.1 userId now db := by
  have hout := updateOwnedTaskIn_outcome faults clock taskId userId u.1 h
  refine ⟨?_, ?_, fun now ↦ ⟨updateOwnedTaskIn_noFaults taskId userId u.2 h now,
    updateOwnedTaskIn_eq taskId u.1 userId now db⟩⟩
  · intro e s hrun
    rw [hrun] at hout
    cases hout with
    | raised _ _ committed => exact committed
  · intro p s hrun
    rw [hrun] at hout
    generalize hx : (Except.ok p : Except TaskError PublicTask) = x at hout
    cases hout with
    | raised e _ committed => cases hx
    | done t now _ found allowed texts read committed =>
      cases hx
      obtain ⟨hmem, hid, huser⟩ := getOwned_some found
      obtain ⟨hid', huser'⟩ := updated_id t u.1 now
      have hc := updated_constraints (h.constraints t hmem) u.2 allowed texts now
      have hkept : Stored (replace db (updated t u.1 now)) := h.replace hc
      have hnew : updated t u.1 now ∈ (replace db (updated t u.1 now)).tasks :=
        List.mem_map.mpr ⟨t, hmem, if_pos hid'.symm⟩
      have hfound : (replace db (updated t u.1 now)).getOwned taskId userId =
          some (updated t u.1 now) := by
        have hg := hkept.getOwned hnew
        rw [hid', hid, huser', huser] at hg
        exact hg
      have hmerge := merge_updated (t := t) u.2 now
      have hstill (later : Datetime) : updated (updated t u.1 now) u.1 later = updated t u.1 now :=
        if_pos hmerge
      refine ⟨t, now, found, read, committed, rfl, committed ▸ hkept, (constraints_status hc).1,
        (constraints_status hc).2, updated_updatedAt t u.1 now, ?_, ?_⟩
      · intro faults' clock'
        rw [committed]
        have hagain := updateOwnedTaskIn_outcome faults' clock' taskId userId u.1 hkept
        generalize updateOwnedTaskIn faults' clock' taskId u.1 userId
          (.start (replace db (updated t u.1 now))) = x at hagain
        cases hagain with
        | raised e s committed => exact committed
        | done t' later s found' _ _ _ committed =>
          rw [hfound] at found'
          cases found'
          rw [committed, hstill, hkept.replace_self hnew]
      · intro later
        rw [committed, updateOwnedTaskIn_noFaults taskId userId u.2 hkept, expected, hfound]
        dsimp only
        rw [permitted_updated u.2 now allowed, hstill, hmerge]
        exact if_pos (constraints_texts hc)

def sampleTable : Db := ⟨[], [sampleTask]⟩

theorem sampleTable_stored : Stored sampleTable where
  constraints t ht := by
    rw [List.mem_singleton.mp ht]
    decide
  unique := List.nodup_singleton _

/-- A task that is started. -/
theorem task_update_law_sample : ∃ p s t now,
    updateOwnedTaskIn (fun _ ↦ none) (.aware sampleDate.midnight) sampleTask.id
      (setStatus .inProgress (by decide)).1 sampleUser (.start sampleTable) = (.ok p, s) ∧
    p.status = .inProgress ∧
    Updated sampleTable s.committed sampleTask.id sampleUser (setStatus .inProgress (by decide)).1
      (.aware sampleDate.midnight) t now p := by
  obtain ⟨-, hok, hexpected⟩ := task_update_law (fun _ ↦ none) (.aware sampleDate.midnight)
    sampleTask.id sampleUser (setStatus .inProgress (by decide)) sampleTable sampleTable_stored
  have hrun := (hexpected sampleDate.midnight).1
  generalize hx : updateOwnedTaskIn (fun _ ↦ none) (.aware sampleDate.midnight) sampleTask.id
    (setStatus .inProgress (by decide)).1 sampleUser (.start sampleTable) = x at hrun
  obtain ⟨r, s⟩ := x
  have hr : r = .ok (updated sampleTask (setStatus .inProgress (by decide)).1
      sampleDate.midnight).public := hrun
  subst hr
  obtain ⟨t, now, hlaw⟩ := hok _ _ hx
  exact ⟨_, s, t, now, rfl, rfl, hlaw⟩

end LearningTasks.Services.TaskUpdates
