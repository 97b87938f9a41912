import LearningTasks.Services.ToolRecovery

namespace LearningTasks.Services.RecoveryTransparency

open Library.Strings Library.Serialization Library.Programs Schemas.Scalars Schemas.Task
  Models.Agent Agent.Schemas Agent.State Agent.Tools Agent.Execution AgentDomain ToolCoordinator
  ToolRecovery
open Agent.Finalization (verifyResult)
open Services.Tasks (Db)
open Agent.TerminalClassification (Recorded firstFailure executeActions_recorded failedFrom verdict
  binding_of_authorized verifyResult_approved verifyResult_workflowError classifyRecords_eq)

section

variable (s : Setting) (context : AgentRuntimeContext) (revision : ℕ) (fingerprint : Digest)

/-- The actions are performed in their order, and all of them succeed. -/
inductive Completes : List AgentProposedAction → World → World → Prop
  | nil (w : World) : Completes [] w w
  | cons {action : AgentProposedAction} {actions : List AgentProposedAction} {w w₁ w' : World}
      (result : AgentWriteToolResult)
      (first : performAction s.coercions (durable s) context revision fingerprint action w =
        (.ok result, w₁)) (others : Completes actions w₁ w') : Completes (action :: actions) w w'

/-- The row of an action whose tool fails on the tables and has written nothing. -/
structure TriedInVain (w : World) (action : AgentProposedAction) (row : AgentToolExecution) :
    Prop where
  status : row.status = .failed
  toolName : row.toolName = action.toolName
  fails : ∃ e, noWrite e = true ∧ attempt s context action w.db = (.error e, w.db)

/-- The tables at a crash: the first actions are recorded as they have left them, the next
one may have failed, and no other has been claimed. -/
structure Crashed (done rest : List AgentProposedAction) (w crash : World) : Prop where
  db : crash.db = w.db
  approvals : crash.approvals = w.approvals
  recorded : ∀ a ∈ done, crash.rows (identity (coordinatorHost s) a revision fingerprint) =
    w.rows (identity (coordinatorHost s) a revision fingerprint)
  next : ∀ a, rest.head? = some a →
    crash.rows (identity (coordinatorHost s) a revision fingerprint) = none ∨
    ∃ row, crash.rows (identity (coordinatorHost s) a revision fingerprint) = some row ∧
      TriedInVain s context w a row
  unclaimed : ∀ a ∈ rest.tail,
    crash.rows (identity (coordinatorHost s) a revision fingerprint) = none

/-- The action is recorded as completed, with what it has answered. -/
structure Answered (w : World) (action : AgentProposedAction) (result : AgentWriteToolResult) :
    Prop where
  admits : admitted s context revision fingerprint w action = true
  row : ∃ row, w.rows (identity (coordinatorHost s) action revision fingerprint) = some row ∧
    Completed action.toolName result row ∧ Answers action.toolName result

def Recoverable (w : World) (action : AgentProposedAction) : Prop :=
  ∃ result, Answered s context revision fingerprint w action result

end

def outcomes (records : List AgentActionExecutionRecord) : List (Key × AgentExecutionOutcome) :=
  records.map fun r ↦ (r.actionKey, r.outcome)

/-- The execution after the crash ends as the uninterrupted one, and the recorded actions
write nothing in it. -/
def Transparent (s later : Setting) (context : AgentRuntimeContext) (sha256 : Text → Digest)
    (state : AgentGraphState) (p : AgentPlanProposal) (done : List AgentProposedAction)
    (start crash : World) : Prop :=
  ∃ records records',
    (executeTasks sha256 s.coercions (durable s) context state start).1 = some records ∧
    (executeTasks sha256 later.coercions (durable later) context state crash).1 = some records' ∧
    outcomes records' = outcomes records ∧
    (verifyResult sha256 { state with executionRecords := records' }).terminalStatus =
      (verifyResult sha256 { state with executionRecords := records }).terminalStatus ∧
    (executeActions later.coercions (durable later) context state.revisionCount
      (fingerprintPlanProposal sha256 p) done crash).2.db = crash.db

/-- What a run over some actions comes to, by the index of its failure. -/
def outcomesOf (actions : List AgentProposedAction) : Option ℕ → List (Key × AgentExecutionOutcome)
  | none => actions.map fun a ↦ (a.actionKey, .succeeded)
  | some i => ((actions.take i).map fun a ↦ (a.actionKey, .succeeded)) ++
      ((actions.drop i).take 1).map fun a ↦ (a.actionKey, .failed)

theorem outcomes_recorded {actions : List AgentProposedAction} {failure : Option ℕ}
    {records : List AgentActionExecutionRecord} (h : Recorded actions failure records) :
    outcomes records = outcomesOf actions failure := by
  induction h with
  | nil => rfl
  | failed actions key tool outcome =>
    simp only [outcomes, List.map_cons, List.map_nil, key, outcome]
    rfl
  | @succeeded action record actions failure records key tool outcome others ih =>
    have hcons : outcomes (record :: records) = (action.actionKey, .succeeded) :: outcomes records := by
      simp only [outcomes, List.map_cons, key, outcome]
    rw [hcons, ih]
    cases failure with
    | none => rfl
    | some i => rfl

theorem outcomes_eq_iff {actions : List AgentProposedAction} {failure failure' : Option ℕ}
    {records records' : List AgentActionExecutionRecord} (h : Recorded actions failure records)
    (h' : Recorded actions failure' records') :
    outcomes records' = outcomes records ↔ failure' = failure := by
  constructor
  · intro heq
    have hfailed : ∀ records : List AgentActionExecutionRecord, failedFrom 0 records =
        (((outcomes records).zipIdx 0).filter fun p ↦ p.1.2 == .failed).map (·.2) := by
      intro records
      rw [failedFrom, outcomes, List.zipIdx_map, List.filter_map, List.map_map]
      rfl
    have hindex := hfailed records'
    rw [heq, ← hfailed, h.failedFrom_eq, h'.failedFrom_eq] at hindex
    cases failure with
    | none => cases failure' <;> simp at hindex ⊢
    | some i =>
      cases failure' with
      | none => simp at hindex
      | some j => simpa using hindex
  · intro heq
    rw [outcomes_recorded h, outcomes_recorded h', heq]

section

variable {s : Setting} {context : AgentRuntimeContext} {revision : ℕ} {fingerprint : Digest}

theorem identity_injective {a b : AgentProposedAction}
    (h : identity (coordinatorHost s) a revision fingerprint =
      identity (coordinatorHost s) b revision fingerprint) : a.actionKey = b.actionKey :=
  congrArg (·.actionKey) h

theorem admitted_congr {w w' : World} (h : w'.approvals = w.approvals)
    (action : AgentProposedAction) : admitted s context revision fingerprint w' action =
      admitted s context revision fingerprint w action := by
  simp only [admitted, approvedFor, h]

/-- What the completion of some actions, which had no rows, leaves. -/
structure Done (s : Setting) (context : AgentRuntimeContext) (revision : ℕ) (fingerprint : Digest)
    (done : List AgentProposedAction) (w w' : World) : Prop where
  db : Valid w'.db
  approvals : w'.approvals = w.approvals
  others : ∀ id, (∀ a ∈ done, identity (coordinatorHost s) a revision fingerprint ≠ id) →
    w'.rows id = w.rows id
  answered : ∀ a ∈ done, ∃ result, Answered s context revision fingerprint w' a result ∧
    ∀ rest, succeededRecord a result ∈ (executeActions s.coercions (durable s) context revision
      fingerprint (done ++ rest) w).1

theorem Completes.done {done : List AgentProposedAction} {w w' : World}
    (h : Completes s context revision fingerprint done w w') (hdb : Valid w.db)
    (hkeys : (done.map (·.actionKey)).Nodup)
    (hnew : ∀ a ∈ done, w.rows (identity (coordinatorHost s) a revision fingerprint) = none) :
    Done s context revision fingerprint done w w' := by
  induction h with
  | nil w =>
    refine ⟨hdb, rfl, fun id _ ↦ rfl, ?_⟩
    intro a ha
    cases ha
  | @cons action actions w w₁ w' result first others ih =>
    obtain ⟨hkey, hkeys⟩ := List.nodup_cons.mp hkeys
    have hne : ∀ a ∈ actions, identity (coordinatorHost s) action revision fingerprint ≠
        identity (coordinatorHost s) a revision fingerprint := by
      intro a ha heq
      exact hkey (List.mem_map.mpr ⟨a, ha, (identity_injective heq).symm⟩)
    have hadmitted := admitted_of_ok first
    rcases performAction_new hadmitted (hnew action List.mem_cons_self) hdb with
      ⟨result', db, row, -, hanswers, hdb', hcompleted, hrun⟩ | ⟨e, db, e', w', -, hrun⟩
    · rw [hrun] at first
      cases first
      have hrest : ∀ a ∈ actions, ((w.withDb db).store
          (identity (coordinatorHost s) action revision fingerprint) row).rows
            (identity (coordinatorHost s) a revision fingerprint) = none := by
        intro a ha
        exact (Function.update_of_ne (hne a ha).symm _ _).trans
          (hnew a (List.mem_cons_of_mem _ ha))
      have hdone := ih hdb' hkeys hrest
      have hrecords (rest : List AgentProposedAction) : (executeActions s.coercions (durable s)
          context revision fingerprint (action :: actions ++ rest) w).1 =
            succeededRecord action result :: (executeActions s.coercions (durable s) context
              revision fingerprint (actions ++ rest) ((w.withDb db).store
                (identity (coordinatorHost s) action revision fingerprint) row)).1 := by
        rw [List.cons_append, executeActions, hrun]
      refine ⟨hdone.db, hdone.approvals, ?_, ?_⟩
      · intro id hid
        rw [hdone.others id fun a ha ↦ hid a (List.mem_cons_of_mem _ ha)]
        exact Function.update_of_ne (hid action List.mem_cons_self).symm _ _
      · intro a ha
        rcases List.mem_cons.mp ha with rfl | ha
        · refine ⟨_, ⟨(admitted_congr hdone.approvals a).trans hadmitted, row, ?_, hcompleted,
            hanswers⟩, fun rest ↦ ?_⟩
          · rw [hdone.others _ fun b hb ↦ (hne b hb).symm]
            exact Function.update_self ..
          · rw [hrecords rest]
            exact List.mem_cons_self
        · obtain ⟨result, hanswered, hrecord⟩ := hdone.answered a ha
          refine ⟨result, hanswered, fun rest ↦ ?_⟩
          rw [hrecords rest]
          exact List.mem_cons_of_mem _ (hrecord rest)
    · rw [hrun] at first
      cases first

theorem Recoverable.reset {w : World} {action : AgentProposedAction}
    (h : Recoverable s context revision fingerprint w action) :
    Recoverable s context revision fingerprint w.reset action := by
  obtain ⟨result, hadmits, hrow⟩ := h
  exact ⟨result, (admitted_congr rfl action).trans hadmits, hrow⟩

theorem Completes.firstFailure_append {done : List AgentProposedAction} {w w' : World}
    (h : Completes s context revision fingerprint done w w') (rest : List AgentProposedAction) :
    firstFailure s.coercions (durable s) context revision fingerprint (done ++ rest) w =
      (firstFailure s.coercions (durable s) context revision fingerprint rest w').map
        (· + done.length) := by
  induction h with
  | nil w =>
    change _ = Option.map (fun n ↦ n) _
    rw [Option.map_id']
    rfl
  | cons result first others ih =>
    rw [List.cons_append, firstFailure, first]
    dsimp only
    rw [ih, Option.map_map]
    congr 1

theorem replay_kept {done : List AgentProposedAction} {w : World} (hdb : Valid w.db)
    (h : ∀ a ∈ done, Recoverable s context revision fingerprint w a)
    (hkept : ∀ a ∈ done, ∀ row, w.rows (identity (coordinatorHost s) a revision fingerprint) =
      some row → Kept s w.db a row) :
    ∃ w', Completes s context revision fingerprint done w w' ∧ w'.reset = w.reset := by
  induction done generalizing w with
  | nil => exact ⟨w, .nil w, rfl⟩
  | cons action actions ih =>
    obtain ⟨result, hadmits, row, hrow, hcompleted, hanswers⟩ := h action List.mem_cons_self
    have hrun := performAction_completed hadmits hrow hcompleted hanswers hdb
    have hiff := replayed_ok_iff s w.db hcompleted
    generalize replayed s w.db action result = outcome at hrun hiff
    have hok := hiff.mpr (hkept action List.mem_cons_self row hrow)
    cases outcome with
    | error e => cases hok
    | ok result =>
      have hrest : ∀ a ∈ actions, Recoverable s context revision fingerprint w.reset a :=
        fun a ha ↦ (h a (List.mem_cons_of_mem _ ha)).reset
      obtain ⟨w', hcompletes, hreset⟩ := ih (w := w.reset) hdb hrest
        fun a ha ↦ hkept a (List.mem_cons_of_mem _ ha)
      exact ⟨w', .cons result hrun hcompletes, hreset⟩

theorem replay_lost {done : List AgentProposedAction} {w : World} (hdb : Valid w.db)
    (h : ∀ a ∈ done, Recoverable s context revision fingerprint w a)
    {lost : AgentProposedAction} (hlost : lost ∈ done) {row : AgentToolExecution}
    (hrow : w.rows (identity (coordinatorHost s) lost revision fingerprint) = some row)
    (hnot : ¬ Kept s w.db lost row) (rest : List AgentProposedAction) :
    ∃ i, i < done.length ∧ firstFailure s.coercions (durable s) context revision fingerprint
      (done ++ rest) w = some i := by
  induction done generalizing w with
  | nil => cases hlost
  | cons action actions ih =>
    obtain ⟨result, hadmits, row', hrow', hcompleted, hanswers⟩ := h action List.mem_cons_self
    have hrun := performAction_completed hadmits hrow' hcompleted hanswers hdb
    have hiff := replayed_ok_iff s w.db hcompleted
    generalize replayed s w.db action result = outcome at hrun hiff
    rw [List.cons_append, firstFailure, hrun]
    cases outcome with
    | error e => exact ⟨0, Nat.zero_lt_succ _, rfl⟩
    | ok result' =>
      have hlost' : lost ∈ actions := by
        rcases List.mem_cons.mp hlost with rfl | hlost
        · rw [hrow'] at hrow
          cases hrow
          exact absurd (hiff.mp rfl) hnot
        · exact hlost
      have hrest : ∀ a ∈ actions, Recoverable s context revision fingerprint w.reset a :=
        fun a ha ↦ (h a (List.mem_cons_of_mem _ ha)).reset
      obtain ⟨i, hi, hfailure⟩ := ih (w := w.reset) hdb hrest hlost' hrow hnot
      refine ⟨i + 1, Nat.succ_lt_succ hi, ?_⟩
      dsimp only
      rw [hfailure]
      rfl

theorem replay_writes_nothing {done : List AgentProposedAction} {w : World} (hdb : Valid w.db)
    (h : ∀ a ∈ done, Recoverable s context revision fingerprint w a) :
    (executeActions s.coercions (durable s) context revision fingerprint done w).2.db = w.db := by
  induction done generalizing w with
  | nil => rfl
  | cons action actions ih =>
    obtain ⟨result, hadmits, row, hrow, hcompleted, hanswers⟩ := h action List.mem_cons_self
    have hrun := performAction_completed hadmits hrow hcompleted hanswers hdb
    rw [executeActions, hrun]
    cases replayed s w.db action result with
    | error e => rfl
    | ok result' =>
      have hrest : ∀ a ∈ actions, Recoverable s context revision fingerprint w.reset a :=
        fun a ha ↦ (h a (List.mem_cons_of_mem _ ha)).reset
      exact ih (w := w.reset) hdb hrest

theorem firstFailure_of_error {action : AgentProposedAction} {w w' : World} {e : ToolError}
    (h : performAction s.coercions (durable s) context revision fingerprint action w =
      (.error e, w')) (actions : List AgentProposedAction) :
    firstFailure s.coercions (durable s) context revision fingerprint (action :: actions) w =
      some 0 := by
  rw [firstFailure, h]

theorem firstFailure_refused {action : AgentProposedAction} {w : World}
    (h : admitted s context revision fingerprint w action = false)
    (actions : List AgentProposedAction) :
    firstFailure s.coercions (durable s) context revision fingerprint (action :: actions) w =
      some 0 := by
  rcases hrun : performAction s.coercions (durable s) context revision fingerprint action w with
    ⟨e | result, w'⟩
  · exact firstFailure_of_error hrun actions
  · rw [admitted_of_ok hrun] at h
    cases h

variable {clock : World → Datetime} {newId : World → UUID}

theorem firstFailure_congr {rest : List AgentProposedAction} {w crash : World} (hdb : Valid w.db)
    (hsame : crash.db = w.db) (happrovals : crash.approvals = w.approvals)
    (hkeys : (rest.map (·.actionKey)).Nodup)
    (hnew : ∀ a ∈ rest, w.rows (identity (coordinatorHost s) a revision fingerprint) = none)
    (hcrash : ∀ a ∈ rest,
      crash.rows (identity (coordinatorHost s) a revision fingerprint) = none) :
    firstFailure (s.restarted clock newId).coercions (durable (s.restarted clock newId)) context
      revision fingerprint rest crash =
      firstFailure s.coercions (durable s) context revision fingerprint rest w := by
  induction rest generalizing w crash with
  | nil => rfl
  | cons action actions ih =>
    obtain ⟨hkey, hkeys⟩ := List.nodup_cons.mp hkeys
    have hsame' : admitted (s.restarted clock newId) context revision fingerprint crash action =
        admitted s context revision fingerprint w action := admitted_congr happrovals action
    cases hadmitted : admitted s context revision fingerprint w action with
    | false =>
      rw [firstFailure_refused hadmitted, firstFailure_refused (hsame'.trans hadmitted)]
    | true =>
      have hrun := performAction_new hadmitted (hnew action List.mem_cons_self) hdb
      have hrun' := performAction_new (hsame'.trans hadmitted) (hcrash action List.mem_cons_self)
        (hsame ▸ hdb)
      have htool : attempt (s.restarted clock newId) context action = attempt s context action := rfl
      rw [hsame, htool] at hrun'
      rcases hrun with ⟨result, db, row, hattempt, -, hdb₁, -, hrun⟩ | ⟨e, db, e₁, w₁, hattempt, hrun⟩
      · rcases hrun' with ⟨result', db', row', hattempt', -, -, -, hrun'⟩ |
          ⟨e', db', e₂, w₂, hattempt', hrun'⟩
        · rw [hattempt'] at hattempt
          cases hattempt
          have hne : ∀ a ∈ actions, identity (coordinatorHost s) a revision fingerprint ≠
              identity (coordinatorHost s) action revision fingerprint := by
            intro a ha heq
            exact hkey (List.mem_map.mpr ⟨a, ha, identity_injective heq⟩)
          have hsame₁ : ((crash.withDb db).store (identity (coordinatorHost (s.restarted clock newId))
              action revision fingerprint) row').db = ((w.withDb db).store (identity
                (coordinatorHost s) action revision fingerprint) row).db := rfl
          rw [firstFailure, firstFailure, hrun, hrun']
          dsimp only
          rw [ih (w := (w.withDb db).store _ row) hdb₁ hsame₁ happrovals hkeys]
          · intro a ha
            exact (Function.update_of_ne (hne a ha) _ _).trans (hnew a (List.mem_cons_of_mem _ ha))
          · intro a ha
            exact (Function.update_of_ne (hne a ha) _ _).trans
              (hcrash a (List.mem_cons_of_mem _ ha))
        · rw [hattempt'] at hattempt
          cases hattempt
      · rcases hrun' with ⟨result', db', row', hattempt', -, -, -, hrun'⟩ |
          ⟨e', db', e₂, w₂, hattempt', hrun'⟩
        · rw [hattempt'] at hattempt
          cases hattempt
        · rw [firstFailure_of_error hrun, firstFailure_of_error hrun']

theorem Crashed.firstFailure_rest {done rest : List AgentProposedAction} {w crash : World}
    (h : Crashed s context revision fingerprint done rest w crash) (hdb : Valid w.db)
    (hkeys : (rest.map (·.actionKey)).Nodup)
    (hnew : ∀ a ∈ rest, w.rows (identity (coordinatorHost s) a revision fingerprint) = none)
    {resumed : World} (hreset : resumed.reset = crash.reset) :
    firstFailure (s.restarted clock newId).coercions (durable (s.restarted clock newId)) context
      revision fingerprint rest resumed =
      firstFailure s.coercions (durable s) context revision fingerprint rest w := by
  have hrows : resumed.rows = crash.rows := congrArg (·.rows) hreset
  have hsame : resumed.db = w.db := (congrArg (·.db) hreset).trans h.db
  have happrovals : resumed.approvals = w.approvals :=
    (congrArg (·.approvals) hreset).trans h.approvals
  cases rest with
  | nil => rfl
  | cons action actions =>
    rcases h.next action rfl with hnone | ⟨row, hrow, htried⟩
    · refine firstFailure_congr hdb hsame happrovals hkeys hnew fun a ha ↦ ?_
      rw [hrows]
      rcases List.mem_cons.mp ha with rfl | ha
      · exact hnone
      · exact h.unclaimed a ha
    · obtain ⟨e, -, hattempt⟩ := htried.fails
      have hsame' : admitted (s.restarted clock newId) context revision fingerprint resumed action =
          admitted s context revision fingerprint w action := admitted_congr happrovals action
      cases hadmitted : admitted s context revision fingerprint w action with
      | false =>
        rw [firstFailure_refused hadmitted, firstFailure_refused (hsame'.trans hadmitted)]
      | true =>
        rw [← hrows] at hrow
        have hattempt' : attempt (s.restarted clock newId) context action resumed.db =
            (.error e, w.db) := by
          rw [hsame]
          exact hattempt
        obtain ⟨e', w', hrun⟩ := performAction_failed (hsame'.trans hadmitted) hrow htried.status
          htried.toolName hattempt'
        rcases performAction_new hadmitted (hnew action List.mem_cons_self) hdb with
          ⟨result, db, row, hok, -⟩ | ⟨e₁, db, e₂, w₂, -, hfirst⟩
        · rw [hattempt] at hok
          cases hok
        · rw [firstFailure_of_error hrun, firstFailure_of_error hfirst]

theorem crashed_reset (done : List AgentProposedAction) {rest : List AgentProposedAction}
    {w : World}
    (hnew : ∀ a ∈ rest, w.rows (identity (coordinatorHost s) a revision fingerprint) = none) :
    Crashed s context revision fingerprint done rest w w.reset where
  db := rfl
  approvals := rfl
  recorded := fun _ _ ↦ rfl
  next := fun a ha ↦ .inl (hnew a (List.mem_of_mem_head? ha))
  unclaimed := fun a ha ↦ hnew a (List.mem_of_mem_tail ha)

theorem crashed_of_noWrite {done rest : List AgentProposedAction} {action : AgentProposedAction}
    {w : World} (hadmitted : admitted s context revision fingerprint w action = true)
    (hkeys : ((done ++ action :: rest).map (·.actionKey)).Nodup)
    (hnew : ∀ a ∈ action :: rest,
      w.rows (identity (coordinatorHost s) a revision fingerprint) = none) {e : ToolError} {db : Db}
    (he : noWrite e = true) (hattempt : attempt s context action w.db = (.error e, db)) :
    ∃ crash, performAction s.coercions (durable s) context revision fingerprint action w =
      (.error e, crash) ∧ Crashed s context revision fingerprint done (action :: rest) w crash := by
  obtain rfl := executeTool_error he hattempt
  obtain ⟨⟨validated, hv⟩, happroved, hexecute⟩ := execute_admitted hadmitted
  obtain ⟨claimed, hclaimed, hclaim⟩ := claim_new happroved (hnew action List.mem_cons_self)
  have hstored : (w.store (identity (coordinatorHost s) action revision fingerprint) claimed).rows
      (identity (coordinatorHost s) action revision fingerprint) = some claimed :=
    Function.update_self ..
  obtain ⟨row, hstatus, htool, hperform⟩ := perform_noWrite hstored hclaimed he hattempt
  rw [List.map_append, List.nodup_append] at hkeys
  obtain ⟨-, hkeys, hdisjoint⟩ := hkeys
  obtain ⟨hkey, -⟩ := List.nodup_cons.mp hkeys
  have hother : ∀ a : AgentProposedAction, a.actionKey ≠ action.actionKey →
      ((w.store (identity (coordinatorHost s) action revision fingerprint) claimed).store
        (identity (coordinatorHost s) action revision fingerprint) row).rows
          (identity (coordinatorHost s) a revision fingerprint) =
      w.rows (identity (coordinatorHost s) a revision fingerprint) := by
    intro a hne
    have hid : identity (coordinatorHost s) a revision fingerprint ≠
        identity (coordinatorHost s) action revision fingerprint :=
      fun heq ↦ hne (identity_injective heq)
    exact (Function.update_of_ne hid _ _).trans (Function.update_of_ne hid _ _)
  have hrun : execute (coordinatorHost s) action revision fingerprint context w =
      (.error (.tool e),
        (w.store (identity (coordinatorHost s) action revision fingerprint) claimed).store
          (identity (coordinatorHost s) action revision fingerprint) row) := by
    rw [hexecute, Program.bind_of_ok hclaim]
    exact hperform
  refine ⟨_, performAction_error hv hrun, ⟨rfl, rfl, ?_, ?_, ?_⟩⟩
  · intro a ha
    exact hother a (hdisjoint _ (List.mem_map_of_mem ha) _ List.mem_cons_self)
  · rintro a ⟨⟩
    exact .inr ⟨row, Function.update_self .., hstatus, htool, e, he, hattempt⟩
  · intro a ha
    have hne : a.actionKey ≠ action.actionKey :=
      fun heq ↦ hkey (List.mem_map.mpr ⟨a, ha, heq⟩)
    rw [hother a hne]
    exact hnew a (List.mem_cons_of_mem _ ha)

theorem Crashed.answered {done rest : List AgentProposedAction} {start w crash : World}
    (h : Crashed s context revision fingerprint done rest w crash)
    (hdone : Done s context revision fingerprint done start w) {a : AgentProposedAction}
    (ha : a ∈ done) :
    ∃ result, Answered (s.restarted clock newId) context revision fingerprint crash a result ∧
      ∀ rest, succeededRecord a result ∈ (executeActions s.coercions (durable s) context revision
        fingerprint (done ++ rest) start).1 := by
  obtain ⟨result, ⟨hadmits, hrow⟩, hrecord⟩ := hdone.answered a ha
  rw [← h.recorded a ha] at hrow
  exact ⟨result, ⟨(admitted_congr h.approvals a).trans hadmits, hrow⟩, hrecord⟩

/-- After the crash a run fails at the same action as the uninterrupted one exactly where
all that the recorded actions answer with is kept. -/
theorem Crashed.firstFailure_eq_iff {done rest : List AgentProposedAction}
    {start w crash : World} (h : Crashed s context revision fingerprint done rest w crash)
    (hdone : Completes s context revision fingerprint done start w) (hdb : Valid start.db)
    (hkeys : ((done ++ rest).map (·.actionKey)).Nodup)
    (hnew : ∀ a ∈ done ++ rest,
      start.rows (identity (coordinatorHost s) a revision fingerprint) = none) :
    Done s context revision fingerprint done start w ∧ Valid crash.db ∧
    (firstFailure (s.restarted clock newId).coercions (durable (s.restarted clock newId)) context
      revision fingerprint (done ++ rest) crash =
      firstFailure s.coercions (durable s) context revision fingerprint (done ++ rest) start ↔
    ∀ a ∈ done, ∀ row, crash.rows (identity (coordinatorHost s) a revision fingerprint) =
      some row → Kept s crash.db a row) := by
  rw [List.map_append, List.nodup_append] at hkeys
  obtain ⟨hkeysDone, hkeysRest, hdisjoint⟩ := hkeys
  have hleft := hdone.done hdb hkeysDone fun a ha ↦ hnew a (List.mem_append_left _ ha)
  have hrest : ∀ a ∈ rest, w.rows (identity (coordinatorHost s) a revision fingerprint) = none := by
    intro a ha
    rw [hleft.others _ fun b hb heq ↦ hdisjoint _ (List.mem_map_of_mem hb) _
      (List.mem_map_of_mem ha) (identity_injective heq)]
    exact hnew a (List.mem_append_right _ ha)
  have hrecoverable : ∀ a ∈ done,
      Recoverable (s.restarted clock newId) context revision fingerprint crash a := by
    intro a ha
    obtain ⟨result, hanswered, -⟩ := h.answered hleft ha
    exact ⟨result, hanswered⟩
  have hcrash : Valid crash.db := by
    rw [h.db]
    exact hleft.db
  refine ⟨hleft, hcrash, ?_⟩
  rw [hdone.firstFailure_append rest]
  constructor
  · intro heq a ha row hrow
    by_contra hnot
    obtain ⟨i, hi, hfailure⟩ := replay_lost hcrash hrecoverable ha hrow hnot rest
    rw [hfailure] at heq
    obtain ⟨j, -, hj⟩ := Option.map_eq_some_iff.mp heq.symm
    omega
  · intro hkept
    obtain ⟨resumed, hcompletes, hreset⟩ := replay_kept hcrash hrecoverable hkept
    rw [hcompletes.firstFailure_append rest, h.firstFailure_rest hleft.db hkeysRest hrest hreset]

variable {sha256 : Text → Digest} {state : AgentGraphState} {p : AgentPlanProposal}

theorem executeTasks_approved {later : Setting} (hc : later.coercions = s.coercions)
    (hp : state.proposal = some p) {w : World}
    (h : (executeTasks sha256 s.coercions (durable s) context state w).1.isSome = true)
    (w' : World) : requireCurrentAuthorization sha256 state = true ∧
      (executeTasks sha256 later.coercions (durable later) context state w').1 =
        some (executeActions later.coercions (durable later) context state.revisionCount
          (fingerprintPlanProposal sha256 p) p.actions w').1 := by
  simp only [executeTasks, hp] at h ⊢
  split at h
  · next hcond =>
    have hcond' : (requireCurrentAuthorization sha256 state && context.writeToolsEnabled &&
        actionsAuthorized later.coercions context (durable later) p.actions) = true := by
      rw [hc]
      exact hcond
    refine ⟨?_, ?_⟩
    · simp only [Bool.and_eq_true] at hcond
      exact hcond.1.1
    · rw [if_pos hcond']
  · cases h

theorem terminalStatus_congr (hp : state.proposal = some p)
    (ha : requireCurrentAuthorization sha256 state = true) {failure : Option ℕ}
    {records records' : List AgentActionExecutionRecord} (h : Recorded p.actions failure records)
    (h' : Recorded p.actions failure records') :
    (verifyResult sha256 { state with executionRecords := records' }).terminalStatus =
      (verifyResult sha256 { state with executionRecords := records }).terminalStatus := by
  by_cases hw : state.workflowErrorCode.isSome = true
  · rw [verifyResult_workflowError sha256 (s := { state with executionRecords := records' }) hw,
      verifyResult_workflowError sha256 (s := { state with executionRecords := records }) hw]
  · have hnone := Option.not_isSome_iff_eq_none.mp hw
    have hverdict : ∀ records, Recorded p.actions failure records →
        verifyResult sha256 { state with executionRecords := records } =
          verdict p.actions failure := by
      intro records hrecorded
      obtain ⟨hb, hd⟩ := binding_of_authorized (s := { state with executionRecords := records }) ha
      have hv := verifyResult_approved (s := { state with executionRecords := records }) hnone hb hd
        hp
      rw [hv]
      exact classifyRecords_eq p.unique hrecorded
    rw [hverdict records h, hverdict records' h']

/-- The execution of an approved plan after a crash is transparent exactly where every task
that a recorded action has created or updated is still there. A recorded action then answers
with the task as it is by now, and with its first result where that is so still. -/
theorem recovery_transparency (hp : state.proposal = some p) {done rest : List AgentProposedAction}
    {start w crash : World}
    (happroved : (executeTasks sha256 s.coercions (durable s) context state start).1.isSome = true)
    (hdb : Valid start.db)
    (hnew : ∀ a ∈ p.actions, start.rows (identity (coordinatorHost s) a state.revisionCount
      (fingerprintPlanProposal sha256 p)) = none)
    (hactions : p.actions = done ++ rest)
    (hdone : Completes s context state.revisionCount (fingerprintPlanProposal sha256 p) done
      start w)
    (hcrash : Crashed s context state.revisionCount (fingerprintPlanProposal sha256 p) done rest
      w crash) :
    (Transparent s (s.restarted clock newId) context sha256 state p done start crash ↔
      ∀ a ∈ done, ∀ row, crash.rows (identity (coordinatorHost s) a state.revisionCount
        (fingerprintPlanProposal sha256 p)) = some row → Kept s crash.db a row) ∧
    ∀ a ∈ done, ∃ result, (∃ records,
      (executeTasks sha256 s.coercions (durable s) context state start).1 = some records ∧
        succeededRecord a result ∈ records) ∧
      performAction s.coercions (durable (s.restarted clock newId)) context state.revisionCount
        (fingerprintPlanProposal sha256 p) a crash = (replayed s crash.db a result, crash.reset) ∧
      (replayed s crash.db a result = .ok result ↔ Unchanged s crash.db a result) := by
  obtain ⟨ha, hstart⟩ := executeTasks_approved rfl hp happroved start
  have hc : (s.restarted clock newId).coercions = s.coercions := rfl
  obtain ⟨-, hresumed⟩ := executeTasks_approved hc hp happroved crash
  have hrun := executeActions_recorded s.coercions (durable s) context state.revisionCount
    (fingerprintPlanProposal sha256 p) p.actions start
  have hrun' := executeActions_recorded (s.restarted clock newId).coercions
    (durable (s.restarted clock newId)) context state.revisionCount
    (fingerprintPlanProposal sha256 p) p.actions crash
  have hkeys := p.unique
  rw [hactions] at hkeys hnew
  obtain ⟨hleft, hvalid, hiff⟩ := hcrash.firstFailure_eq_iff hdone hdb hkeys hnew
  have hanswered : ∀ a ∈ done, ∃ result, Answered (s.restarted clock newId) context
      state.revisionCount (fingerprintPlanProposal sha256 p) crash a result ∧
      ∀ rest, succeededRecord a result ∈ (executeActions s.coercions (durable s) context
        state.revisionCount (fingerprintPlanProposal sha256 p) (done ++ rest) start).1 :=
    fun a ha ↦ hcrash.answered hleft ha
  refine ⟨?_, ?_⟩
  · rw [← hiff, ← hactions]
    constructor
    · rintro ⟨records, records', heq, heq', houtcomes, -, -⟩
      rw [hstart] at heq
      rw [hresumed] at heq'
      cases heq
      cases heq'
      exact (outcomes_eq_iff hrun hrun').mp houtcomes
    · intro hfailure
      have hwrites := replay_writes_nothing hvalid fun a ha ↦
        (hanswered a ha).imp fun _ h ↦ h.1
      refine ⟨_, _, hstart, hresumed, (outcomes_eq_iff hrun hrun').mpr hfailure, ?_, hwrites⟩
      rw [hfailure] at hrun'
      exact terminalStatus_congr hp ha hrun hrun'
  · intro a ha
    obtain ⟨result, ⟨hadmits, row, hrow, hcompleted, hanswers⟩, hrecord⟩ := hanswered a ha
    refine ⟨result, ⟨_, hstart, ?_⟩, ?_, replayed_eq_iff⟩
    · rw [hactions]
      exact hrecord rest
    · exact performAction_completed hadmits hrow hcompleted hanswers hvalid

end

theorem completes_of_firstFailure {s : Setting} {context : AgentRuntimeContext} {revision : ℕ}
    {fingerprint : Digest} {done : List AgentProposedAction} {w : World}
    (h : firstFailure s.coercions (durable s) context revision fingerprint done w = none) :
    Completes s context revision fingerprint done w
      (executeActions s.coercions (durable s) context revision fingerprint done w).2 := by
  induction done generalizing w with
  | nil => exact .nil w
  | cons action actions ih =>
    rw [firstFailure] at h
    rw [executeActions]
    rcases hrun : performAction s.coercions (durable s) context revision fingerprint action w with
      ⟨e | result, w'⟩
    · rw [hrun] at h
      cases h
    · rw [hrun] at h
      exact .cons result hrun (ih (Option.map_eq_none_iff.mp h))

def digitsInt (t : Text) : Option ℤ :=
  if t.all Char.isDigit then some (readDigits t) else none

theorem digitsInt_natRepr (n : ℕ) : digitsInt (natRepr n) = some (n : ℤ) := by
  have hdigits : (natRepr n).all Char.isDigit = true :=
    List.all_eq_true.mpr fun c hc ↦ natRepr_isDigit hc
  have hread : readDigits (natRepr n) = n := by
    rw [readDigits, natRepr, Nat.ofDigitChars_ten_toDigits]
  rw [digitsInt, if_pos hdigits, hread]

def sampleSetting : Setting where
  runId := sampleId 9
  userId := Tasks.sampleUser
  coercions := isoCoercions
  supply := ⟨fun _ _ ↦ sampleId 5, fun _ ↦ sampleDate.midnight⟩
  clock := fun _ ↦ sampleDate.midnight
  newId := fun _ ↦ sampleId 6
  int := digitsInt
  int_natRepr := digitsInt_natRepr

def sampleDelete : AgentProposedAction where
  actionKey := ⟨"drop".toList, by decide⟩
  toolName := .deleteTask
  arguments := [("task_id".toList, .str Tasks.sampleTask.id.text)]
  size := by decide
  allowed := by simp only [List.forall_mem_cons]; decide

def samplePlan : AgentPlanProposal :=
  ⟨Agent.Approval.sampleResult, [Agent.Approval.sampleUpdate, sampleDelete], by decide, by decide⟩

def sampleContext : AgentRuntimeContext := ⟨Tasks.sampleUser, true⟩

def sampleSha256 (_ : Text) : Digest := Agent.Approval.sampleDigest

def sampleState : AgentGraphState :=
  { graphInput Agent.Approval.sampleGoal with
    proposal := some samplePlan
    validation := some ⟨.valid, 0, some Agent.Approval.sampleDigest, none⟩
    approvalDecision := some .approved
    approvalRevision := some 0
    approvalProposalFingerprint := some Agent.Approval.sampleDigest }

def sampleStart : World where
  db := ⟨[], [Tasks.sampleTask]⟩
  approvals := fun _ _ _ ↦ some ⟨sampleId 8, 0, Agent.Approval.sampleDigest.text, .approved, none,
    some sampleDate.midnight, sampleDate.midnight⟩
  rows := fun _ ↦ none
  pending := fun _ ↦ none

theorem sampleStart_valid : Valid sampleStart.db := by
  intro t ht
  rw [List.mem_singleton.mp ht]
  decide

def sampleAfter (done : List AgentProposedAction) : World :=
  (executeActions sampleSetting.coercions (durable sampleSetting) sampleContext 0
    Agent.Approval.sampleDigest done sampleStart).2

/-- The replay of the update misses the task that the recorded deletion has removed. -/
theorem recovery_not_transparent :
    ¬ ∀ (s : Setting) (clock : World → Datetime) (newId : World → UUID)
      (context : AgentRuntimeContext) (sha256 : Text → Digest) (state : AgentGraphState)
      (p : AgentPlanProposal) (done rest : List AgentProposedAction) (start w crash : World),
      state.proposal = some p →
      (executeTasks sha256 s.coercions (durable s) context state start).1.isSome = true →
      Valid start.db →
      (∀ a ∈ p.actions, start.rows (identity (coordinatorHost s) a state.revisionCount
        (fingerprintPlanProposal sha256 p)) = none) →
      p.actions = done ++ rest →
      Completes s context state.revisionCount (fingerprintPlanProposal sha256 p) done start w →
      Crashed s context state.revisionCount (fingerprintPlanProposal sha256 p) done rest w crash →
      Transparent s (s.restarted clock newId) context sha256 state p done start crash := by
  intro h
  have hrun : (executeTasks sampleSha256 sampleSetting.coercions (durable sampleSetting)
      sampleContext sampleState sampleStart).1.isSome = true := by decide +kernel
  have hdone : firstFailure sampleSetting.coercions (durable sampleSetting) sampleContext 0
      Agent.Approval.sampleDigest samplePlan.actions sampleStart = none := by decide +kernel
  have hdiffer : (executeTasks sampleSha256 sampleSetting.coercions (durable sampleSetting)
      sampleContext sampleState (sampleAfter samplePlan.actions).reset).1.map outcomes ≠
      (executeTasks sampleSha256 sampleSetting.coercions (durable sampleSetting) sampleContext
        sampleState sampleStart).1.map outcomes := by
    decide +kernel
  have hrest : ∀ a ∈ ([] : List AgentProposedAction), (sampleAfter samplePlan.actions).rows
      (identity (coordinatorHost sampleSetting) a 0 Agent.Approval.sampleDigest) = none := by
    intro a ha
    cases ha
  obtain ⟨records, records', hstart, hresumed, heq, -, -⟩ :=
    h sampleSetting sampleSetting.clock sampleSetting.newId sampleContext sampleSha256 sampleState
      samplePlan samplePlan.actions [] sampleStart (sampleAfter samplePlan.actions) _ rfl hrun
      sampleStart_valid (fun _ _ ↦ rfl) (List.append_nil _).symm (completes_of_firstFailure hdone)
      (crashed_reset _ hrest)
  have hresumed' : (executeTasks sampleSha256 sampleSetting.coercions (durable sampleSetting)
      sampleContext sampleState (sampleAfter samplePlan.actions).reset).1 = some records' :=
    hresumed
  apply hdiffer
  rw [hresumed', hstart, Option.map_some, Option.map_some, heq]

def sampleMiss : AgentProposedAction where
  actionKey := ⟨"miss".toList, by decide⟩
  toolName := .deleteTask
  arguments := [("task_id".toList, .str (sampleId 7).text)]
  size := by decide
  allowed := by simp only [List.forall_mem_cons]; decide

def missingPlan : AgentPlanProposal :=
  ⟨Agent.Approval.sampleResult, [Agent.Approval.sampleUpdate, sampleMiss], by decide, by decide⟩

/-- A crash after the update is recorded as completed and the deletion as failed. -/
theorem recovery_transparency_sample :
    ∃ crash row, performAction sampleSetting.coercions (durable sampleSetting) sampleContext 0
        Agent.Approval.sampleDigest sampleMiss (sampleAfter [Agent.Approval.sampleUpdate]) =
          (.error .taskNotFound, crash) ∧
      crash.rows (identity (coordinatorHost sampleSetting) sampleMiss 0
        Agent.Approval.sampleDigest) = some row ∧ row.status = .failed ∧
      Transparent sampleSetting (sampleSetting.restarted sampleSetting.clock sampleSetting.newId)
        sampleContext sampleSha256 { sampleState with proposal := some missingPlan } missingPlan
        [Agent.Approval.sampleUpdate] sampleStart crash := by
  have hrun : (executeTasks sampleSha256 sampleSetting.coercions (durable sampleSetting)
      sampleContext { sampleState with proposal := some missingPlan } sampleStart).1.isSome =
        true := by
    decide +kernel
  have hdone : firstFailure sampleSetting.coercions (durable sampleSetting) sampleContext 0
      Agent.Approval.sampleDigest [Agent.Approval.sampleUpdate] sampleStart = none := by
    decide +kernel
  have hrest : ∀ a ∈ [sampleMiss], (sampleAfter [Agent.Approval.sampleUpdate]).rows
      (identity (coordinatorHost sampleSetting) a 0 Agent.Approval.sampleDigest) = none := by
    intro a ha
    rw [List.mem_singleton.mp ha]
    decide +kernel
  have hadmitted : admitted sampleSetting sampleContext 0 Agent.Approval.sampleDigest
      (sampleAfter [Agent.Approval.sampleUpdate]) sampleMiss = true := by decide +kernel
  have hattempt : (attempt sampleSetting sampleContext sampleMiss
      (sampleAfter [Agent.Approval.sampleUpdate]).db).1 = .error .taskNotFound := by
    decide +kernel
  have hfailed : ((performAction sampleSetting.coercions (durable sampleSetting) sampleContext 0
      Agent.Approval.sampleDigest sampleMiss (sampleAfter [Agent.Approval.sampleUpdate])).2.rows
        (identity (coordinatorHost sampleSetting) sampleMiss 0
          Agent.Approval.sampleDigest)).map (·.status) = some .failed := by
    decide +kernel
  have hkept : (((sampleAfter [Agent.Approval.sampleUpdate]).rows (identity
      (coordinatorHost sampleSetting) Agent.Approval.sampleUpdate 0
        Agent.Approval.sampleDigest)).all fun row ↦ row.resultTaskId.any fun taskId ↦
      ((sampleAfter [Agent.Approval.sampleUpdate]).db.getOwned taskId
        Tasks.sampleUser).isSome) = true := by
    decide +kernel
  have hkeys : (([Agent.Approval.sampleUpdate] ++ [sampleMiss]).map (·.actionKey)).Nodup := by
    decide
  obtain ⟨crash, hperform, hcrash⟩ := crashed_of_noWrite hadmitted hkeys hrest rfl
    (Prod.ext hattempt rfl)
  rw [hperform] at hfailed
  obtain ⟨row, hrow, hstatus⟩ := Option.map_eq_some_iff.mp hfailed
  refine ⟨crash, row, hperform, hrow, hstatus, (recovery_transparency rfl hrun sampleStart_valid
    (fun _ _ ↦ rfl) (rfl : missingPlan.actions = [Agent.Approval.sampleUpdate] ++ [sampleMiss])
    (completes_of_firstFailure hdone) hcrash).1.mpr ?_⟩
  intro a ha row hrow _
  obtain rfl := List.mem_singleton.mp ha
  have hrecorded : (sampleAfter [Agent.Approval.sampleUpdate]).rows (identity
      (coordinatorHost sampleSetting) Agent.Approval.sampleUpdate 0
        Agent.Approval.sampleDigest) = some row :=
    (hcrash.recorded _ List.mem_cons_self).symm.trans hrow
  rw [hrecorded] at hkept
  rw [hcrash.db]
  exact (Option.any_eq_true _ _).mp hkept

end LearningTasks.Services.RecoveryTransparency
