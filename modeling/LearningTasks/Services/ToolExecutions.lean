import LearningTasks.Library.Transition
import LearningTasks.Models.Agent
import Mathlib.Logic.Function.Basic

namespace LearningTasks.Services.ToolExecutions

open Library.Strings Library.Transition Schemas.Scalars Models.Agent

/-- What a claim transaction goes on to do with what it has read. -/
inductive Claim
  | insert (execution : AgentToolExecution)
  | restart (loaded edited : AgentToolExecution)
  | replay (loaded : AgentToolExecution)
  deriving DecidableEq

/-- No claim stands for a closed failure. -/
def classifyExisting (execution : AgentToolExecution) (now : Datetime) : Option Claim :=
  match execution.status with
  | .completed =>
    if execution.resultTaskId.isNone || execution.resultSummary.isNone then none
    else some (.replay execution)
  | .failed => some (.restart execution (restartFailed execution now))
  | .inProgress | .unknown => none

/-- The first session of `_claim`; `approved` is what the approval check of
a high-impact tool reads. -/
def claim (toolName : AgentWriteToolName) (approved : Bool) (existing : Option AgentToolExecution)
    (id : UUID) (now : Datetime) : Option Claim :=
  if isHighImpactTool toolName && !approved then none
  else match existing with
    | none => some (.insert (createClaim id toolName now))
    | some execution =>
      if execution.toolName ≠ toolName then none else classifyExisting execution now

def reclaim (toolName : AgentWriteToolName) (existing : Option AgentToolExecution)
    (now : Datetime) : Option Claim :=
  existing.bind fun execution ↦
    if execution.toolName ≠ toolName then none else classifyExisting execution now

inductive ClaimResult
  | execute (row : AgentToolExecution)
  | replay
  | duplicate
  | rejected
  deriving DecidableEq

def update (row : Option AgentToolExecution) (loaded edited : AgentToolExecution) :
    Option AgentToolExecution :=
  row.bind fun r ↦ if (loaded.flush edited r).constraints then some (loaded.flush edited r) else none

/-- Flush and commit of a claim, on the row of the action as it is by then. -/
def commitClaim (row : Option AgentToolExecution) : Claim → ClaimResult
  | .insert execution =>
    match row with
    | some _ => .duplicate
    | none => if execution.constraints then .execute execution else .rejected
  | .restart loaded edited =>
    match update row loaded edited with
    | some r => .execute r
    | none => .rejected
  | .replay _ => .replay

def agentToolExecutionFailed : Text := "AGENT_ACTION_FAILED".toList

def agentToolExecutionUnknown : Text := "AGENT_ACTION_OUTCOME_UNKNOWN".toList

/-- How a dispatch ends: with a public result, with an error that proves that
nothing was written, or with any other error. -/
inductive Dispatch
  | result (taskId : UUID) (summary : Text)
  | noWriteError
  | otherError

inductive FailureStatus
  | failed
  | unknown
  deriving DecidableEq

def recordedFailure (loaded : AgentToolExecution) (now : Datetime) :
    FailureStatus → AgentToolExecution
  | .failed => fail loaded .failed agentToolExecutionFailed now
  | .unknown => fail loaded .unknown agentToolExecutionUnknown now

inductive Pc
  | idle
  | claiming (toolName : AgentWriteToolName) (claim : Claim)
  | reopening (toolName : AgentWriteToolName)
  | executing
  | dispatched (taskId : UUID) (summary : Text)
  | completing (loaded edited : AgentToolExecution)
  | failing (status : FailureStatus)
  | recording (status : FailureStatus) (loaded edited : AgentToolExecution)
  | done

/-- The committed row of the action, the number of its domain writes that were
committed, and every execution of it. -/
structure State (τ : Type) where
  row : Option AgentToolExecution
  writes : ℕ
  pc : τ → Pc

inductive Move (τ : Type)
  | read (t : τ) (toolName : AgentWriteToolName) (approved : Bool) (id : UUID) (now : Datetime)
  | reread (t : τ) (now : Datetime)
  | commitClaim (t : τ)
  | dispatch (t : τ) (outcome : Dispatch) (wrote : Bool)
  | record (t : τ) (now : Datetime)
  | commit (t : τ)
  | raise (t : τ) (committed : Bool)
  | crash (t : τ)

variable {τ : Type} [DecidableEq τ]

def State.goto (s : State τ) (t : τ) (row : Option AgentToolExecution) (writes : ℕ) (p : Pc) :
    State τ := ⟨row, writes, Function.update s.pc t p⟩

/-- An error before or in the commit of a completion leads to `_record_failure`,
and so does a commit whose acknowledgement is lost. -/
def step (s : State τ) : Move τ → Option (State τ)
  | .read t toolName approved id now =>
    match s.pc t with
    | .idle => some (s.goto t s.row s.writes
        (((claim toolName approved s.row id now).map (Pc.claiming toolName)).getD .done))
    | _ => none
  | .reread t now =>
    match s.pc t with
    | .reopening toolName => some (s.goto t s.row s.writes
        (((reclaim toolName s.row now).map (Pc.claiming toolName)).getD .done))
    | _ => none
  | .commitClaim t =>
    match s.pc t with
    | .claiming toolName c =>
      match commitClaim s.row c with
      | .execute r => some (s.goto t (some r) s.writes .executing)
      | .duplicate => some (s.goto t s.row s.writes (.reopening toolName))
      | .replay | .rejected => some (s.goto t s.row s.writes .done)
    | _ => none
  | .dispatch t outcome wrote =>
    match s.pc t, outcome with
    | .executing, .result taskId summary =>
      some (s.goto t s.row (s.writes + wrote.toNat) (.dispatched taskId summary))
    | .executing, .noWriteError =>
      if wrote then none else some (s.goto t s.row s.writes (.failing .failed))
    | .executing, .otherError => some (s.goto t s.row (s.writes + wrote.toNat) (.failing .unknown))
    | _, _ => none
  | .record t now =>
    match s.pc t with
    | .dispatched taskId summary =>
      match s.row with
      | some r =>
        if r.status = .inProgress then
          some (s.goto t s.row s.writes (.completing r (complete r taskId summary now)))
        else some (s.goto t s.row s.writes (.failing .unknown))
      | none => some (s.goto t s.row s.writes (.failing .unknown))
    | .failing status =>
      match s.row with
      | some r =>
        if r.status = .completed then some (s.goto t s.row s.writes .done)
        else some (s.goto t s.row s.writes (.recording status r (recordedFailure r now status)))
      | none => some (s.goto t s.row s.writes .done)
    | _ => none
  | .commit t =>
    match s.pc t with
    | .completing loaded edited =>
      match update s.row loaded edited with
      | some r => some (s.goto t (some r) s.writes .done)
      | none => some (s.goto t s.row s.writes (.failing .unknown))
    | .recording _ loaded edited =>
      match update s.row loaded edited with
      | some r => some (s.goto t (some r) s.writes .done)
      | none => some (s.goto t s.row s.writes .done)
    | _ => none
  | .raise t committed =>
    match s.pc t with
    | .dispatched _ _ => some (s.goto t s.row s.writes (.failing .unknown))
    | .completing loaded edited =>
      if committed then
        (update s.row loaded edited).map fun r ↦ s.goto t (some r) s.writes (.failing .unknown)
      else some (s.goto t s.row s.writes (.failing .unknown))
    | _ => none
  | .crash t => some (s.goto t s.row s.writes .done)

def executionMachine (τ : Type) [DecidableEq τ] : Machine (State τ) (Move τ) where
  init s := s = ⟨none, 0, fun _ ↦ .idle⟩
  step := step

/-- A restart finds the row still failed, or finds it completed, where the
state constraint turns it down. -/
def FreshRestart (s : State τ) : Move τ → Prop
  | .commitClaim t => ∀ toolName loaded edited, s.pc t = .claiming toolName (.restart loaded edited) →
      ∃ r, s.row = some r ∧ (r.status = .failed ∨ r.status = .completed)
  | _ => True

def Pc.Active : Pc → Prop
  | .executing | .dispatched _ _ | .completing _ _ | .failing _ | .recording _ _ _ => True
  | .idle | .claiming _ _ | .reopening _ | .done => False

def HasStatus (row : Option AgentToolExecution) (status : AgentToolExecutionStatus) : Prop :=
  ∃ r, row = some r ∧ r.status = status

def PcInv (row : Option AgentToolExecution) (writes : ℕ) : Pc → Prop
  | .claiming _ (.insert execution) => execution.status = .inProgress
  | .claiming _ (.restart loaded edited) => loaded.status = .failed ∧ edited.status = .inProgress ∧
      loaded.resultTaskId = edited.resultTaskId
  | .executing => HasStatus row .inProgress ∧ writes = 0
  | .dispatched _ _ => HasStatus row .inProgress
  | .completing loaded edited => row = some loaded ∧ loaded.status = .inProgress ∧
      edited.status = .completed
  | .failing .failed => HasStatus row .inProgress ∧ writes = 0
  | .failing .unknown => HasStatus row .inProgress ∨ HasStatus row .completed
  | .recording .failed loaded edited => row = some loaded ∧ edited.status = .failed ∧ writes = 0
  | .recording .unknown loaded edited => row = some loaded ∧ edited.status = .unknown
  | _ => True

/-- One execution holds the claim at most, and none once the row is absent or
failed; then nothing has been written. -/
structure Inv (s : State τ) : Prop where
  unique : ∀ t u, (s.pc t).Active → (s.pc u).Active → t = u
  open' : s.row = none ∨ HasStatus s.row .failed → s.writes = 0 ∧ ∀ t, ¬ (s.pc t).Active
  writes : s.writes ≤ 1
  valid : ∀ r, s.row = some r → r.constraints = true
  pc : ∀ t, PcInv s.row s.writes (s.pc t)

theorem pcInv_of_inactive {row row' : Option AgentToolExecution} {writes writes' : ℕ} {p : Pc}
    (hp : ¬ p.Active) (h : PcInv row writes p) : PcInv row' writes' p := by
  cases p with
  | claiming toolName c => cases c <;> exact h
  | idle => trivial
  | reopening => trivial
  | done => trivial
  | _ => exact absurd trivial hp

theorem Inv.quiet {s : State τ} (hi : Inv s) {t : τ} {p : Pc} (hp : ¬ p.Active)
    (hpi : PcInv s.row s.writes p) : Inv (s.goto t s.row s.writes p) := by
  have hpc (u : τ) (hu : (Function.update s.pc t p u).Active) :
      u ≠ t ∧ (s.pc u).Active := by
    by_cases hut : u = t
    · subst hut
      rw [Function.update_self] at hu
      exact absurd hu hp
    · rw [Function.update_of_ne hut] at hu
      exact ⟨hut, hu⟩
  refine ⟨fun u v hu hv ↦ hi.unique u v (hpc u hu).2 (hpc v hv).2, fun h ↦ ?_, hi.writes, hi.valid,
    fun u ↦ ?_⟩
  · obtain ⟨hw, hn⟩ := hi.open' h
    exact ⟨hw, fun u hu ↦ hn u (hpc u hu).2⟩
  · by_cases hut : u = t
    · subst hut
      simpa [State.goto] using hpi
    · simpa [State.goto, hut] using hi.pc u

theorem Inv.move {s : State τ} (hi : Inv s) {t : τ} {row : Option AgentToolExecution} {writes : ℕ}
    {p : Pc} (hothers : ∀ u, u ≠ t → ¬ (s.pc u).Active) (hw : writes ≤ 1)
    (hopen : row = none ∨ HasStatus row .failed → writes = 0 ∧ ¬ p.Active)
    (hvalid : ∀ r, row = some r → r.constraints = true)
    (hpi : PcInv row writes p) : Inv (s.goto t row writes p) := by
  have hpc (u : τ) (hu : (Function.update s.pc t p u).Active) : u = t := by
    by_contra hut
    rw [Function.update_of_ne hut] at hu
    exact hothers u hut hu
  refine ⟨fun u v hu hv ↦ (hpc u hu).trans (hpc v hv).symm, fun h ↦ ?_, hw, hvalid, fun u ↦ ?_⟩
  · obtain ⟨hw, hn⟩ := hopen h
    refine ⟨hw, fun u hu ↦ ?_⟩
    have hut := hpc u hu
    subst hut
    simp only [State.goto, Function.update_self] at hu
    exact hn hu
  · by_cases hut : u = t
    · subst hut
      simpa [State.goto] using hpi
    · simpa [State.goto, hut] using pcInv_of_inactive (hothers u hut) (hi.pc u)

omit [DecidableEq τ] in
theorem Inv.others {s : State τ} (hi : Inv s) {t : τ} (ht : (s.pc t).Active) :
    ∀ u, u ≠ t → ¬ (s.pc u).Active := fun u hu ha ↦ hu (hi.unique u t ha ht)

theorem not_open {row : Option AgentToolExecution} {status : AgentToolExecutionStatus}
    (h : HasStatus row status) (hs : status ≠ .failed) : ¬ (row = none ∨ HasStatus row .failed) := by
  obtain ⟨r, rfl, hr⟩ := h
  rintro (h | ⟨r', h, hf⟩)
  · cases h
  · cases h
    exact hs (hr.symm.trans hf)

theorem update_status {row : Option AgentToolExecution} {loaded edited r : AgentToolExecution}
    (h : update row loaded edited = some r) (hne : edited.status ≠ loaded.status) :
    r.status = edited.status ∧ r.constraints = true := by
  simp only [update, Option.bind_eq_some_iff, Option.ite_none_right_eq_some,
    Option.some.injEq] at h
  obtain ⟨r', -, hc, rfl⟩ := h
  exact ⟨if_neg hne, hc⟩

theorem update_loaded {loaded edited r : AgentToolExecution}
    (h : update (some loaded) loaded edited = some r) : r = edited := by
  simp only [update, Option.bind_some, Option.ite_none_right_eq_some, Option.some.injEq,
    AgentToolExecution.flush_self] at h
  exact h.2.symm

/-- A restart of a completed row leaves its result columns, which the state
constraint forbids for a row in progress. -/
theorem restart_completed_rejected {loaded edited r : AgentToolExecution}
    (hc : r.constraints = true) (hr : r.status = .completed)
    (hl : loaded.status = .failed) (he : edited.status = .inProgress)
    (hid : loaded.resultTaskId = edited.resultTaskId) :
    update (some r) loaded edited = none := by
  have hresult : r.resultTaskId.isSome = true := by
    simp only [AgentToolExecution.constraints, hr, Bool.and_eq_true] at hc
    exact hc.2.1.1.1
  have hstatus : (loaded.flush edited r).status = .inProgress := by
    simp [AgentToolExecution.flush, written, hl, he]
  have hkept : (loaded.flush edited r).resultTaskId = r.resultTaskId := by
    simp [AgentToolExecution.flush, written, hid]
  have hfalse : (loaded.flush edited r).constraints = false := by
    have hnone : r.resultTaskId.isNone = false := by
      cases h : r.resultTaskId with
      | none => rw [h] at hresult; cases hresult
      | some x => rfl
    simp [AgentToolExecution.constraints, hstatus, hkept, hnone]
  simp [update, hfalse]

theorem classify_inv {e : AgentToolExecution} {now : Datetime} {c : Claim}
    (h : classifyExisting e now = some c) {row : Option AgentToolExecution} {writes : ℕ}
    {toolName : AgentWriteToolName} : PcInv row writes (.claiming toolName c) := by
  unfold classifyExisting at h
  split at h
  · split at h
    · cases h
    · cases h
      trivial
  · next hs =>
    cases h
    exact ⟨hs, rfl, rfl⟩
  · cases h
  · cases h

theorem claim_inv {toolName : AgentWriteToolName} {approved : Bool}
    {existing : Option AgentToolExecution} {id : UUID} {now : Datetime} {c : Claim}
    (h : claim toolName approved existing id now = some c) {row : Option AgentToolExecution}
    {writes : ℕ} : PcInv row writes (.claiming toolName c) := by
  unfold claim at h
  split at h
  · cases h
  · split at h
    · cases h
      rfl
    · split at h
      · cases h
      · exact classify_inv h

theorem reclaim_inv {toolName : AgentWriteToolName} {existing : Option AgentToolExecution}
    {now : Datetime} {c : Claim} (h : reclaim toolName existing now = some c)
    {row : Option AgentToolExecution} {writes : ℕ} :
    PcInv row writes (.claiming toolName c) := by
  obtain ⟨e, -, h⟩ := Option.bind_eq_some_iff.mp h
  split at h
  · cases h
  · exact classify_inv h

theorem claiming_or_done {toolName : AgentWriteToolName} {c : Option Claim}
    {row : Option AgentToolExecution} {writes : ℕ}
    (h : ∀ x, c = some x → PcInv row writes (.claiming toolName x)) :
    ¬ ((c.map (Pc.claiming toolName)).getD .done).Active ∧
      PcInv row writes ((c.map (Pc.claiming toolName)).getD .done) := by
  cases c with
  | none => exact ⟨id, trivial⟩
  | some x => exact ⟨id, h x rfl⟩

theorem commitClaim_inv {s : State τ} (hi : Inv s) {t : τ} {toolName : AgentWriteToolName}
    {c : Claim} (hpc : s.pc t = .claiming toolName c) (hf : FreshRestart s (.commitClaim t))
    {r : AgentToolExecution} (h : commitClaim s.row c = .execute r) :
    Inv (s.goto t (some r) s.writes .executing) := by
  have hp := hi.pc t
  rw [hpc] at hp
  have key : (s.row = none ∨ HasStatus s.row .failed) ∧ r.status = .inProgress ∧
      r.constraints = true := by
    cases c with
    | insert e =>
      cases hrow : s.row with
      | some r' => simp [commitClaim, hrow] at h
      | none =>
        simp only [commitClaim, hrow] at h
        split at h
        · next hc =>
          cases h
          exact ⟨.inl rfl, hp, hc⟩
        · cases h
    | restart loaded edited =>
      obtain ⟨hl, he, hid⟩ := hp
      simp only [commitClaim] at h
      cases hu : update s.row loaded edited with
      | none => rw [hu] at h; cases h
      | some r' =>
        rw [hu] at h
        cases h
        obtain ⟨hs, hc⟩ := update_status hu (by rw [hl, he]; decide)
        obtain ⟨found, hrow, hfailed | hcompleted⟩ := hf toolName loaded edited hpc
        · exact ⟨.inr ⟨found, hrow, hfailed⟩, hs.trans he, hc⟩
        · rw [hrow, restart_completed_rejected (hi.valid found hrow) hcompleted hl he hid] at hu
          cases hu
    | replay e => cases h
  obtain ⟨hopen, hs, hc⟩ := key
  obtain ⟨hw, hn⟩ := hi.open' hopen
  have hst : HasStatus (some r) .inProgress := ⟨r, rfl, hs⟩
  refine hi.move (fun u _ ↦ hn u) hi.writes (fun h ↦ ?_) ?_ ⟨hst, hw⟩
  · exact absurd h (not_open hst (by decide))
  · intro r' hr'
    cases hr'
    exact hc

theorem dispatch_inv {s s' : State τ} (hi : Inv s) {t : τ} {outcome : Dispatch} {wrote : Bool}
    (h : step s (.dispatch t outcome wrote) = some s') : Inv s' := by
  cases hpc : s.pc t <;> simp only [step, hpc, reduceCtorEq] at h
  have hp := hi.pc t
  rw [hpc] at hp
  obtain ⟨hst, hw⟩ := hp
  have hothers := hi.others (by rw [hpc]; trivial : (s.pc t).Active)
  have hopen {p : Pc} {n : ℕ} (h : s.row = none ∨ HasStatus s.row .failed) :
      n = 0 ∧ ¬ p.Active := absurd h (not_open hst (by decide))
  have hle : s.writes + wrote.toNat ≤ 1 := by
    have := Bool.toNat_le wrote
    omega
  cases outcome with
  | result taskId summary =>
    cases h
    exact hi.move hothers hle hopen hi.valid hst
  | noWriteError =>
    obtain ⟨-, h⟩ := Option.ite_none_left_eq_some.mp h
    cases h
    exact hi.move hothers hi.writes hopen hi.valid ⟨hst, hw⟩
  | otherError =>
    cases h
    exact hi.move hothers hle hopen hi.valid (.inl hst)

theorem record_inv {s s' : State τ} (hi : Inv s) {t : τ} {now : Datetime}
    (h : step s (.record t now) = some s') : Inv s' := by
  cases hpc : s.pc t <;> simp only [step, hpc, reduceCtorEq] at h
  case dispatched taskId summary =>
    have hp := hi.pc t
    rw [hpc] at hp
    obtain ⟨r, hrow, hs⟩ := hp
    simp only [hrow, hs, ↓reduceIte, Option.some.injEq] at h
    subst h
    rw [← hrow]
    have hopen := not_open ⟨r, hrow, hs⟩ (by decide)
    exact hi.move (hi.others (by rw [hpc]; trivial)) hi.writes (fun h ↦ absurd h hopen) hi.valid
      ⟨hrow, hs, rfl⟩
  case failing status =>
    have hp := hi.pc t
    rw [hpc] at hp
    have hothers := hi.others (by rw [hpc]; trivial : (s.pc t).Active)
    have hst : HasStatus s.row .inProgress ∨ HasStatus s.row .completed := by
      cases status with
      | failed => exact .inl hp.1
      | unknown => exact hp
    obtain ⟨r, hrow, hs⟩ | ⟨r, hrow, hs⟩ := hst
    · have hopen := not_open ⟨r, hrow, hs⟩ (by decide)
      simp only [hrow, hs, reduceCtorEq, ↓reduceIte, Option.some.injEq] at h
      subst h
      rw [← hrow]
      refine hi.move hothers hi.writes (fun h ↦ absurd h hopen) hi.valid ?_
      cases status with
      | failed => exact ⟨hrow, rfl, hp.2⟩
      | unknown => exact ⟨hrow, rfl⟩
    · simp only [hrow, hs, ↓reduceIte, Option.some.injEq] at h
      subst h
      rw [← hrow]
      exact hi.quiet id trivial

theorem commit_inv {s s' : State τ} (hi : Inv s) {t : τ} (h : step s (.commit t) = some s') :
    Inv s' := by
  cases hpc : s.pc t <;> simp only [step, hpc, reduceCtorEq] at h
  case completing loaded edited =>
    have hp := hi.pc t
    rw [hpc] at hp
    obtain ⟨hrow, hl, he⟩ := hp
    have hothers := hi.others (by rw [hpc]; trivial : (s.pc t).Active)
    cases hu : update s.row loaded edited with
    | none =>
      rw [hu] at h
      cases h
      have hst : HasStatus s.row .inProgress := ⟨loaded, hrow, hl⟩
      exact hi.move hothers hi.writes (fun h ↦ absurd h (not_open hst (by decide))) hi.valid
        (.inl hst)
    | some r =>
      rw [hu] at h
      cases h
      obtain ⟨hs, hc⟩ := update_status hu (by rw [hl, he]; decide)
      have hst : HasStatus (some r) .completed := ⟨r, rfl, hs.trans he⟩
      refine hi.move hothers hi.writes (fun h ↦ absurd h (not_open hst (by decide))) ?_ trivial
      intro r' hr'
      cases hr'
      exact hc
  case recording status loaded edited =>
    have hp := hi.pc t
    rw [hpc] at hp
    have hothers := hi.others (by rw [hpc]; trivial : (s.pc t).Active)
    cases hu : update s.row loaded edited with
    | none =>
      rw [hu] at h
      cases h
      exact hi.quiet id trivial
    | some r =>
      rw [hu] at h
      cases h
      have hc : ∀ r', some r = some r' → r'.constraints = true := by
        intro r' hr'
        cases hr'
        obtain ⟨r₀, -, hr₀⟩ := Option.bind_eq_some_iff.mp hu
        obtain ⟨hc, hr₀⟩ := Option.ite_none_right_eq_some.mp hr₀
        exact Option.some.inj hr₀ ▸ hc
      cases status with
      | failed =>
        obtain ⟨hrow, he, hw⟩ := hp
        exact hi.move hothers hi.writes (fun _ ↦ ⟨hw, id⟩) hc trivial
      | unknown =>
        obtain ⟨hrow, he⟩ := hp
        rw [hrow] at hu
        have hst : HasStatus (some r) .unknown := ⟨r, rfl, by rw [update_loaded hu, he]⟩
        exact hi.move hothers hi.writes (fun h ↦ absurd h (not_open hst (by decide))) hc trivial

theorem raise_inv {s s' : State τ} (hi : Inv s) {t : τ} {committed : Bool}
    (h : step s (.raise t committed) = some s') : Inv s' := by
  cases hpc : s.pc t <;> simp only [step, hpc, reduceCtorEq] at h
  case dispatched taskId summary =>
    cases h
    have hp := hi.pc t
    rw [hpc] at hp
    exact hi.move (hi.others (by rw [hpc]; trivial)) hi.writes
      (fun h ↦ absurd h (not_open hp (by decide))) hi.valid (.inl hp)
  case completing loaded edited =>
    have hp := hi.pc t
    rw [hpc] at hp
    obtain ⟨hrow, hl, he⟩ := hp
    have hothers := hi.others (by rw [hpc]; trivial : (s.pc t).Active)
    split at h
    · obtain ⟨r, hu, rfl⟩ := Option.map_eq_some_iff.mp h
      obtain ⟨hs, hc⟩ := update_status hu (by rw [hl, he]; decide)
      have hst : HasStatus (some r) .completed := ⟨r, rfl, hs.trans he⟩
      refine hi.move hothers hi.writes (fun h ↦ absurd h (not_open hst (by decide))) ?_ (.inr hst)
      intro r' hr'
      cases hr'
      exact hc
    · cases h
      have hst : HasStatus s.row .inProgress := ⟨loaded, hrow, hl⟩
      exact hi.move hothers hi.writes (fun h ↦ absurd h (not_open hst (by decide))) hi.valid
        (.inl hst)

theorem inv_step {s s' : State τ} {m : Move τ} (hi : Inv s) (hf : FreshRestart s m)
    (h : step s m = some s') : Inv s' := by
  cases m with
  | read t toolName approved id now =>
    cases hpc : s.pc t <;> simp only [step, hpc, reduceCtorEq] at h
    cases h
    obtain ⟨hn, hp⟩ := claiming_or_done fun _ hx ↦ claim_inv hx
    exact hi.quiet hn hp
  | reread t now =>
    cases hpc : s.pc t <;> simp only [step, hpc, reduceCtorEq] at h
    cases h
    obtain ⟨hn, hp⟩ := claiming_or_done fun _ hx ↦ reclaim_inv hx
    exact hi.quiet hn hp
  | commitClaim t =>
    cases hpc : s.pc t <;> simp only [step, hpc, reduceCtorEq] at h
    cases hc : commitClaim s.row _ <;> rw [hc] at h <;> cases h
    · exact commitClaim_inv hi hpc hf hc
    · exact hi.quiet id trivial
    · exact hi.quiet id trivial
    · exact hi.quiet id trivial
  | dispatch t outcome wrote => exact dispatch_inv hi h
  | record t now => exact record_inv hi h
  | commit t => exact commit_inv hi h
  | raise t committed => exact raise_inv hi h
  | crash t =>
    cases h
    exact hi.quiet id trivial

/-- At most one domain write of an action is committed in every run whose
restarts find the row still failed, or completed. -/
theorem writes_le_one_of_fresh_restarts (τ : Type) [DecidableEq τ] {s : State τ}
    (h : (executionMachine τ).ReachableUnder FreshRestart s) : s.writes ≤ 1 := by
  have hi : Inv s := by
    refine h.invariant Inv ?_ (fun s m s' hi hf hs ↦ inv_step hi hf hs)
    rintro s rfl
    exact ⟨fun t u ht ↦ absurd ht id, fun _ ↦ ⟨rfl, fun _ ↦ id⟩, Nat.zero_le 1,
      fun _ h ↦ (by cases h), fun _ ↦ trivial⟩
  exact hi.writes

def sampleNow : Datetime := sampleDate.midnight

def sampleTaskId : UUID := sampleId 9

def restartsFresh (s : State τ) : Move τ → Bool
  | .commitClaim t => match s.pc t with
    | .claiming _ (.restart _ _) => s.row.any fun r ↦ r.status = .failed ∨ r.status = .completed
    | _ => true
  | _ => true

omit [DecidableEq τ] in
theorem freshRestart_of_restartsFresh (s : State τ) (m : Move τ) (h : restartsFresh s m = true) :
    FreshRestart s m := by
  cases m with
  | commitClaim t =>
    intro toolName loaded edited hpc
    simp only [restartsFresh, hpc, Option.any_eq_true, decide_eq_true_eq] at h
    exact h
  | read | reread | dispatch | record | commit | raise | crash => trivial

/-- The first execution fails without a write. The second reads the failed row,
restarts it and writes; the third only reads the outcome. -/
def restartOnce : List (Move ℕ) :=
  [.read 0 .createTask true (sampleId 1) sampleNow, .commitClaim 0, .dispatch 0 .noWriteError false,
    .record 0 sampleNow, .commit 0,
    .read 1 .createTask true (sampleId 2) sampleNow, .commitClaim 1,
    .dispatch 1 (.result sampleTaskId "Done".toList) true, .record 1 sampleNow, .commit 1,
    .read 2 .createTask true (sampleId 3) sampleNow, .commitClaim 2]

theorem writes_le_one_of_fresh_restarts_sample :
    ∃ s r, (executionMachine ℕ).ReachableUnder FreshRestart s ∧ s.row = some r ∧
      r.attemptCount = 2 ∧ s.writes = 1 ∧ s.writes ≤ 1 := by
  have hrun : ((executionMachine ℕ).execChecked restartsFresh ⟨none, 0, fun _ ↦ .idle⟩
      restartOnce).bind (fun s ↦ s.row.map fun r ↦ (r.attemptCount, s.writes)) = some (2, 1) := by
    decide
  obtain ⟨s, hs, hrow⟩ := Option.bind_eq_some_iff.mp hrun
  obtain ⟨r, hr, hcounts⟩ := Option.map_eq_some_iff.mp hrow
  obtain ⟨hattempts, hwrites⟩ := Prod.mk.inj hcounts
  have h := Machine.ReachableUnder.execChecked freshRestart_of_restartsFresh (.init rfl) hs
  exact ⟨s, r, h, hr, hattempts, hwrites, writes_le_one_of_fresh_restarts ℕ h⟩

/-- Two retries read the failed row before either restarts it, and both restart
and write. -/
def restartTwice : List (Move ℕ) :=
  [.read 0 .createTask true (sampleId 1) sampleNow, .commitClaim 0, .dispatch 0 .noWriteError false,
    .record 0 sampleNow, .commit 0,
    .read 1 .createTask true (sampleId 2) sampleNow,
    .read 2 .createTask true (sampleId 3) sampleNow, .commitClaim 1, .commitClaim 2,
    .dispatch 1 (.result sampleTaskId []) true, .dispatch 2 (.result sampleTaskId []) true]

theorem two_writes_after_stale_restart :
    ∃ s, (executionMachine ℕ).Reachable s ∧ s.writes = 2 := by
  have hrun : ((executionMachine ℕ).exec ⟨none, 0, fun _ ↦ .idle⟩ restartTwice).map
      (fun s ↦ s.writes) = some 2 := by decide
  obtain ⟨s, hs, hw⟩ := Option.map_eq_some_iff.mp hrun
  exact ⟨s, (Machine.Reachable.start rfl).exec hs, hw⟩

end LearningTasks.Services.ToolExecutions
