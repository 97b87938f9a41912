import LearningTasks.Library.NamedLocks
import LearningTasks.Services.ApprovalPreview
import LearningTasks.Services.RunLifecycle

namespace LearningTasks.Services.ConcurrentRuns

open Library.Strings Library.Records Library.Transition Library.Simulation Library.NamedLocks
  Schemas.Scalars Models.Agent Agent Agent.Schemas Agent.State Agent.Approval Agent.Graph
  AgentWorkflow ApprovalPreview
open ApprovalProtocol (Call machine)
open RunLedger (ledgerOf ledgerMachine Sound)

def fromBytes (digest : List (Fin 256)) : ℤ :=
  let n : ℕ := digest.foldl (fun n byte ↦ 256 * n + byte.val) 0
  if 2 * n < 256 ^ digest.length then n else n - 256 ^ digest.length

abbrev ShortDigest := { bytes : List (Fin 256) // bytes.length = 8 }

def agentRecoveryLockKey (blake2b : UUID → ShortDigest) (runId : UUID) : ℤ :=
  fromBytes (blake2b runId).1

theorem foldl_bytes_lt (digest : List (Fin 256)) (n : ℕ) :
    digest.foldl (fun n byte ↦ 256 * n + byte.val) n < (n + 1) * 256 ^ digest.length := by
  induction digest generalizing n with
  | nil => simp
  | cons byte digest ih =>
    have hbyte := byte.isLt
    have hle : 256 * n + byte.val + 1 ≤ 256 * (n + 1) := by omega
    calc (byte :: digest).foldl (fun n byte ↦ 256 * n + byte.val) n
        = digest.foldl (fun n byte ↦ 256 * n + byte.val) (256 * n + byte.val) := rfl
      _ < (256 * n + byte.val + 1) * 256 ^ digest.length := ih _
      _ ≤ 256 * (n + 1) * 256 ^ digest.length := Nat.mul_le_mul_right _ hle
      _ = (n + 1) * 256 ^ (byte :: digest).length := by
        rw [List.length_cons, pow_succ]
        ring

theorem agentRecoveryLockKey_bigint (blake2b : UUID → ShortDigest) (runId : UUID) :
    -2 ^ 63 ≤ agentRecoveryLockKey blake2b runId ∧
      agentRecoveryLockKey blake2b runId < 2 ^ 63 := by
  have hlength := (blake2b runId).2
  have hlt := foldl_bytes_lt (blake2b runId).1 0
  unfold agentRecoveryLockKey fromBytes
  rw [hlength] at hlt ⊢
  dsimp only
  split <;> omega

inductive PreviewError
  | notFound
  | conflict
  | unavailable
  deriving DecidableEq

/-- What `get_agent_approval_preview` reads from the tables under the lock. -/
def readPending (rows : Option Rows) (userId : UUID) : Except PreviewError AgentApproval :=
  match getOwnedRun rows userId with
  | none => .error .notFound
  | some rows =>
    match getLatestOwnedApproval rows.approvals with
    | none => .error .conflict
    | some approval =>
      if rows.run.status ≠ .pendingApproval ∨ approval.decision ≠ .pending then .error .conflict
      else .ok approval

def previewOf (sha256 : Text → Digest) (runId : UUID) (approval : AgentApproval)
    (i : AgentCheckpointInspection) : Except PreviewError AgentApprovalPreview :=
  match i.status with
  | .inconsistent => .error .unavailable
  | .terminal | .continuable => .error .conflict
  | .pendingInterrupt =>
    match i.approval with
    | none => .error .conflict
    | some request =>
      if request.revision = approval.revision ∧
          request.proposalFingerprint.text = approval.proposalFingerprint then
        match publishPreview sha256 runId request.preview with
        | some preview => .ok preview
        | none => .error .unavailable
      else .error .conflict

/-- Where a call of `get_agent_approval_preview` stands; a crash leaves no answer. -/
inductive PreviewPhase
  | asked
  | waiting
  | locked
  | pending (approval : AgentApproval)
  | ended (answer : Option (Except PreviewError AgentApprovalPreview))

def PreviewPhase.working : PreviewPhase → Bool
  | .asked | .waiting | .ended _ => false
  | .locked | .pending _ => true

structure PreviewCall where
  userId : UUID
  phase : PreviewPhase

structure Run where
  rows : Option Rows
  checkpoint : Option Checkpoint
  start : ApprovalProtocol.Start
  calls : ℕ → Option Call
  resumed : List ApprovalProtocol.Resumption
  previews : ℕ → Option PreviewCall

inductive Session
  | submission (i : ℕ)
  | preview (j : ℕ)
  deriving DecidableEq

structure Holder where
  runId : UUID
  session : Session
  deriving DecidableEq

def Session.submission? : Session → Option ℕ
  | .submission i => some i
  | .preview _ => none

structure State (σ : Type) where
  runs : UUID → Run
  world : σ
  locks : Locks ℤ Holder

variable {σ : Type} (key : UUID → ℤ)

namespace State

def holder (s : State σ) (runId : UUID) : Option Holder :=
  Library.NamedLocks.holder key Holder.runId s.locks runId

def view (s : State σ) (runId : UUID) : ApprovalProtocol.State σ where
  rows := (s.runs runId).rows
  checkpoint := (s.runs runId).checkpoint
  world := s.world
  start := (s.runs runId).start
  calls := (s.runs runId).calls
  holder := (s.holder key runId).bind fun h ↦ h.session.submission?
  resumed := (s.runs runId).resumed

/-- The locks after a move of a run: an advisory lock is taken where its recovery lock is,
and given back with it. -/
def relock (s : State σ) (runId : UUID) (after : Option ℕ) : Locks ℤ Holder :=
  match (s.view key runId).holder, after with
  | none, some i => acquire key Holder.runId s.locks ⟨runId, .submission i⟩
  | some _, none => release key s.locks runId
  | none, none | some _, some _ => s.locks

def put (s : State σ) (runId : UUID) (t : ApprovalProtocol.State σ) : State σ where
  runs := Function.update s.runs runId
    ⟨t.rows, t.checkpoint, t.start, t.calls, t.resumed, (s.runs runId).previews⟩
  world := t.world
  locks := s.relock key runId t.holder

def setPreview (s : State σ) (runId : UUID) (j : ℕ) (call : PreviewCall) : State σ :=
  { s with runs := Function.update s.runs runId { s.runs runId with
      previews := Function.update (s.runs runId).previews j (some call) } }

/-- The preview returns, raises or crashes while it has the lock. -/
def finishPreview (s : State σ) (runId : UUID) (j : ℕ) (call : PreviewCall)
    (answer : Option (Except PreviewError AgentApprovalPreview)) : State σ :=
  { s.setPreview runId j { call with phase := .ended answer } with
    locks := release key s.locks runId }

end State

inductive PreviewMove
  | ask (userId : UUID)
  | find
  | acquire
  | read
  | publish
  | crash

inductive Move (σ : Type)
  | run (runId : UUID) (m : ApprovalProtocol.Move σ)
  | preview (runId : UUID) (j : ℕ) (m : PreviewMove)

/-- A run is created under its own identifier, and its lock waits for every other run with
the same key. -/
def admits (s : State σ) (runId : UUID) : ApprovalProtocol.Move σ → Bool
  | .start id _ _ _ => id = runId
  | .acquire _ => (s.locks (key runId)).isNone
  | _ => true

def previewStep (host : Host σ) (s : State σ) (runId : UUID) (j : ℕ) :
    Option PreviewCall → PreviewMove → Option (State σ)
  | none, .ask userId => some (s.setPreview runId j ⟨userId, .asked⟩)
  | some call, .find =>
    match call.phase with
    | .asked =>
      match getOwnedRun (s.runs runId).rows call.userId with
      | none => some (s.setPreview runId j { call with phase := .ended (some (.error .notFound)) })
      | some _ => some (s.setPreview runId j { call with phase := .waiting })
    | _ => none
  | some call, .acquire =>
    match call.phase, s.locks (key runId) with
    | .waiting, none => some { s.setPreview runId j { call with phase := .locked } with
        locks := acquire key Holder.runId s.locks ⟨runId, .preview j⟩ }
    | _, _ => none
  | some call, .read =>
    match call.phase with
    | .locked =>
      match readPending (s.runs runId).rows call.userId with
      | .error e => some (s.finishPreview key runId j call (some (.error e)))
      | .ok approval => some (s.setPreview runId j { call with phase := .pending approval })
    | _ => none
  | some call, .publish =>
    match call.phase with
    | .pending approval =>
      let i := match (s.runs runId).checkpoint with
        | none => inconsistentInspection
        | some cp => inspectSnapshot host.sha256 host.coercions cp
      some (s.finishPreview key runId j call (some (previewOf host.sha256 runId approval i)))
    | _ => none
  | some call, .crash =>
    if call.phase.working then some (s.finishPreview key runId j call none)
    else some (s.setPreview runId j { call with phase := .ended none })
  | none, _ | some _, .ask _ => none

variable (host : UUID → Host σ)

def step (s : State σ) : Move σ → Option (State σ)
  | .run runId m =>
    if admits key s runId m then
      (ApprovalProtocol.step (host runId) (s.view key runId) m).map (s.put key runId)
    else none
  | .preview runId j m => previewStep key (host runId) s runId j ((s.runs runId).previews j) m

/-- Any number of runs of any users, with any number of submissions and previews. -/
def system : Machine (State σ) (Move σ) where
  init s := (∀ runId, s.runs runId =
    ⟨none, none, .idle, fun _ ↦ none, [], fun _ ↦ none⟩) ∧ ∀ k, s.locks k = none
  step := step key host

section

variable {key : UUID → ℤ} {host : UUID → Host σ} {s s' : State σ} {runId : UUID}

theorem view_holder {i : ℕ} : (s.view key runId).holder = some i ↔
    s.holder key runId = some ⟨runId, .submission i⟩ := by
  constructor
  · intro h
    obtain ⟨⟨owner, session⟩, hx, hi⟩ := Option.bind_eq_some_iff.mp h
    obtain rfl : owner = runId := (holder_some.mp hx).2
    cases session with
    | submission k =>
      cases hi
      exact hx
    | preview j => cases hi
  · intro h
    exact Option.bind_eq_some_iff.mpr ⟨_, h, rfl⟩

theorem view_holder_of_preview {j : ℕ} (h : s.holder key runId = some ⟨runId, .preview j⟩) :
    (s.view key runId).holder = none := by
  cases hv : (s.view key runId).holder with
  | none => rfl
  | some i =>
    rw [view_holder.mp hv] at h
    cases h

theorem startStep_holder {h : Host σ} {t t' : ApprovalProtocol.State σ}
    {m : ApprovalProtocol.Move σ} (hs : ApprovalProtocol.startStep h t m = some t') :
    t'.holder = t.holder := by
  cases m
  all_goals simp only [ApprovalProtocol.startStep] at hs
  all_goals repeat' split at hs
  all_goals cases hs
  all_goals rfl

theorem step_holder {h : Host σ} {t t' : ApprovalProtocol.State σ}
    {m : ApprovalProtocol.Move σ} (hs : ApprovalProtocol.step h t m = some t') :
    t'.holder = t.holder ∨ t'.holder = none ∨
      ∃ i, m = .acquire i ∧ t.holder = none ∧ t'.holder = some i := by
  rcases ApprovalProtocol.step_cases hs with ⟨i, userId, submission, rfl, -, rfl⟩ |
    ⟨w, rfl, rfl⟩ | ⟨-, hs⟩ | ⟨i, call, hm, -, hs⟩
  · exact .inl rfl
  · exact .inl rfl
  · exact .inl (startStep_holder hs)
  · cases m with
    | acquire j =>
      cases hm
      simp only [ApprovalProtocol.callStep] at hs
      split at hs
      · next hn =>
        cases hs
        exact .inr (.inr ⟨i, rfl, hn, rfl⟩)
      · cases hs
    | _ =>
      simp only [ApprovalProtocol.callStep] at hs
      repeat' split at hs
      all_goals cases hs
      all_goals first
        | exact .inl rfl
        | exact .inr (.inl rfl)

variable {m : ApprovalProtocol.Move σ} {t : ApprovalProtocol.State σ}

theorem relock_cases (ha : admits key s runId m = true)
    (hs : ApprovalProtocol.step (host runId) (s.view key runId) m = some t) :
    (s.relock key runId t.holder = s.locks ∧ t.holder = (s.view key runId).holder) ∨
    (∃ i, s.locks (key runId) = none ∧ t.holder = some i ∧ s.relock key runId t.holder =
      acquire key Holder.runId s.locks ⟨runId, .submission i⟩) ∨
    ∃ i, s.holder key runId = some ⟨runId, .submission i⟩ ∧ t.holder = none ∧
      s.relock key runId t.holder = release key s.locks runId := by
  rcases step_holder hs with h | h | ⟨i, rfl, hn, h⟩
  · refine .inl ⟨?_, h⟩
    rw [State.relock.eq_def, h]
    cases (s.view key runId).holder <;> rfl
  · cases hv : (s.view key runId).holder with
    | none =>
      refine .inl ⟨?_, h⟩
      rw [State.relock.eq_def, h, hv]
    | some i =>
      refine .inr (.inr ⟨i, view_holder.mp hv, h, ?_⟩)
      rw [State.relock.eq_def, h, hv]
  · refine .inr (.inl ⟨i, Option.isNone_iff_eq_none.mp ha, h, ?_⟩)
    rw [State.relock.eq_def, h, hn]

theorem put_runs_self : (s.put key runId t).runs runId =
    ⟨t.rows, t.checkpoint, t.start, t.calls, t.resumed, (s.runs runId).previews⟩ :=
  Function.update_self ..

theorem put_runs_of_ne {other : UUID} (hne : other ≠ runId) :
    (s.put key runId t).runs other = s.runs other := Function.update_of_ne hne ..

theorem put_previews (other : UUID) :
    ((s.put key runId t).runs other).previews = (s.runs other).previews := by
  by_cases hne : other = runId
  · subst hne
    rw [put_runs_self]
  · rw [put_runs_of_ne hne]

theorem put_holder_cases (ha : admits key s runId m = true)
    (hs : ApprovalProtocol.step (host runId) (s.view key runId) m = some t) :
    (t.holder = (s.view key runId).holder ∧
      ∀ other, (s.put key runId t).holder key other = s.holder key other) ∨
    (∃ i, s.holder key runId = none ∧ t.holder = some i ∧
      ∀ other, (s.put key runId t).holder key other =
        if other = runId then some ⟨runId, .submission i⟩ else s.holder key other) ∨
    ∃ i, s.holder key runId = some ⟨runId, .submission i⟩ ∧ t.holder = none ∧
      ∀ other, (s.put key runId t).holder key other =
        if other = runId then none else s.holder key other := by
  have hput : ∀ other, (s.put key runId t).holder key other =
      Library.NamedLocks.holder key Holder.runId (s.relock key runId t.holder) other :=
    fun _ ↦ rfl
  rcases relock_cases ha hs with ⟨h, hsame⟩ | ⟨i, hfree, hi, h⟩ | ⟨i, hheld, hn, h⟩
  · refine .inl ⟨hsame, fun other ↦ ?_⟩
    rw [hput, h]
    rfl
  · refine .inr (.inl ⟨i, holder_of_free hfree, hi, fun other ↦ ?_⟩)
    rw [hput, h]
    exact holder_acquire hfree other
  · refine .inr (.inr ⟨i, hheld, hn, fun other ↦ ?_⟩)
    rw [hput, h]
    exact holder_release hheld other

theorem put_holder_of_ne (ha : admits key s runId m = true)
    (hs : ApprovalProtocol.step (host runId) (s.view key runId) m = some t) {other : UUID}
    (hne : other ≠ runId) : (s.put key runId t).holder key other = s.holder key other := by
  rcases put_holder_cases ha hs with ⟨-, h⟩ | ⟨i, -, -, h⟩ | ⟨i, -, -, h⟩
  · exact h other
  · rw [h, if_neg hne]
  · rw [h, if_neg hne]

theorem put_holder_self (ha : admits key s runId m = true)
    (hs : ApprovalProtocol.step (host runId) (s.view key runId) m = some t) :
    ((s.put key runId t).view key runId).holder = t.holder := by
  change ((s.put key runId t).holder key runId).bind (fun h ↦ h.session.submission?) = _
  rcases put_holder_cases ha hs with ⟨hsame, h⟩ | ⟨i, -, hi, h⟩ | ⟨i, -, hn, h⟩
  · rw [h, hsame]
    rfl
  · rw [h, if_pos rfl, hi]
    rfl
  · rw [h, if_pos rfl, hn]
    rfl

theorem put_holder_preview (ha : admits key s runId m = true)
    (hs : ApprovalProtocol.step (host runId) (s.view key runId) m = some t) (other : UUID)
    (j : ℕ) : (s.put key runId t).holder key other = some ⟨other, .preview j⟩ ↔
      s.holder key other = some ⟨other, .preview j⟩ := by
  by_cases hne : other = runId
  · subst hne
    rcases put_holder_cases ha hs with ⟨-, h⟩ | ⟨i, hfree, -, h⟩ | ⟨i, hheld, -, h⟩
    · rw [h]
    · rw [h, if_pos rfl, hfree]
      simp
    · rw [h, if_pos rfl, hheld]
      simp
  · rw [put_holder_of_ne ha hs hne]

theorem view_put_self (ha : admits key s runId m = true)
    (hs : ApprovalProtocol.step (host runId) (s.view key runId) m = some t) :
    (s.put key runId t).view key runId = t := by
  have hholder := put_holder_self ha hs
  unfold State.view at hholder ⊢
  dsimp only at hholder
  rw [hholder, put_runs_self]
  rfl

theorem view_put_of_ne (ha : admits key s runId m = true)
    (hs : ApprovalProtocol.step (host runId) (s.view key runId) m = some t) {other : UUID}
    (hne : other ≠ runId) :
    (s.put key runId t).view key other = { s.view key other with world := t.world } := by
  unfold State.view
  rw [put_holder_of_ne ha hs hne, put_runs_of_ne hne]
  rfl

theorem setPreview_previews (j : ℕ) (call : PreviewCall) (other : UUID) (k : ℕ) :
    ((s.setPreview runId j call).runs other).previews k =
      if other = runId ∧ k = j then some call else (s.runs other).previews k := by
  by_cases hne : other = runId
  · subst hne
    have hruns : (s.setPreview other j call).runs other = { s.runs other with
        previews := Function.update (s.runs other).previews j (some call) } :=
      Function.update_self ..
    rw [hruns]
    change Function.update (s.runs other).previews j (some call) k = _
    rw [Function.update_apply]
    simp only [true_and]
  · rw [if_neg fun h ↦ hne h.1]
    exact congrArg (fun run : Run ↦ run.previews k) (Function.update_of_ne hne ..)

theorem setPreview_run (j : ℕ) (call : PreviewCall) (other : UUID) :
    (s.setPreview runId j call).runs other = { s.runs other with
      previews := ((s.setPreview runId j call).runs other).previews } := by
  by_cases hne : other = runId
  · subst hne
    have hruns : (s.setPreview other j call).runs other = { s.runs other with
        previews := Function.update (s.runs other).previews j (some call) } :=
      Function.update_self ..
    rw [hruns]
  · have hruns : (s.setPreview runId j call).runs other = s.runs other :=
      Function.update_of_ne hne ..
    rw [hruns]

theorem previewStep_cases {h : Host σ} {j : ℕ} {c : Option PreviewCall} {move : PreviewMove}
    (hs : previewStep key h s runId j c move = some s') :
    (∃ call', s' = s.setPreview runId j call' ∧ call'.phase.working = false ∧
      ∀ call, c = some call → call.phase.working = false) ∨
    (∃ call, c = some call ∧ call.phase.working = false ∧ s.locks (key runId) = none ∧
      s' = { s.setPreview runId j { call with phase := .locked } with
        locks := acquire key Holder.runId s.locks ⟨runId, .preview j⟩ }) ∨
    (∃ call approval, c = some call ∧ call.phase.working = true ∧
      readPending (s.runs runId).rows call.userId = .ok approval ∧
      s' = s.setPreview runId j { call with phase := .pending approval }) ∨
    ∃ call answer, c = some call ∧ call.phase.working = true ∧
      s' = s.finishPreview key runId j call answer := by
  cases c with
  | none =>
    cases move with
    | ask userId =>
      cases hs
      exact .inl ⟨_, rfl, rfl, fun _ hc ↦ by cases hc⟩
    | _ => cases hs
  | some call =>
    have hidle {p : PreviewPhase} (hp : call.phase = p) (hw : p.working = false) :
        ∀ call', some call = some call' → call'.phase.working = false := by
      rintro _ ⟨⟩
      rw [hp, hw]
    cases move with
    | ask userId => cases hs
    | find =>
      simp only [previewStep] at hs
      split at hs
      · next hp =>
        split at hs
        · cases hs
          exact .inl ⟨_, rfl, rfl, hidle hp rfl⟩
        · cases hs
          exact .inl ⟨_, rfl, rfl, hidle hp rfl⟩
      · cases hs
    | acquire =>
      simp only [previewStep] at hs
      split at hs
      · next hp hfree =>
        cases hs
        exact .inr (.inl ⟨call, rfl, hidle hp rfl call rfl, hfree, rfl⟩)
      · cases hs
    | read =>
      simp only [previewStep] at hs
      split at hs
      · next hp =>
        have hw : call.phase.working = true := by rw [hp]; rfl
        split at hs
        · cases hs
          exact .inr (.inr (.inr ⟨call, _, rfl, hw, rfl⟩))
        · next approval hread =>
          cases hs
          exact .inr (.inr (.inl ⟨call, approval, rfl, hw, hread, rfl⟩))
      · cases hs
    | publish =>
      simp only [previewStep] at hs
      split at hs
      · next approval hp =>
        have hw : call.phase.working = true := by rw [hp]; rfl
        cases hs
        exact .inr (.inr (.inr ⟨call, _, rfl, hw, rfl⟩))
      · cases hs
    | crash =>
      simp only [previewStep] at hs
      split at hs
      · next hw =>
        cases hs
        exact .inr (.inr (.inr ⟨call, none, rfl, hw, rfl⟩))
      · next hw =>
        cases hs
        refine .inl ⟨_, rfl, rfl, ?_⟩
        rintro _ ⟨⟩
        exact Bool.eq_false_of_not_eq_true hw

/-- The previews that work are those that hold the locks of their runs. -/
structure HeldInv (key : UUID → ℤ) (s : State σ) : Prop where
  working : ∀ r j call, (s.runs r).previews j = some call → call.phase.working = true →
    s.holder key r = some ⟨r, .preview j⟩
  held : ∀ r j, s.holder key r = some ⟨r, .preview j⟩ →
    ∃ call, (s.runs r).previews j = some call ∧ call.phase.working = true
  keyed : Keyed key Holder.runId s.locks

theorem HeldInv.put (hi : HeldInv key s) (ha : admits key s runId m = true)
    (hs : ApprovalProtocol.step (host runId) (s.view key runId) m = some t) :
    HeldInv key (s.put key runId t) := by
  refine ⟨fun r j call hc hw ↦ ?_, fun r j hheld ↦ ?_, ?_⟩
  · rw [put_previews] at hc
    exact (put_holder_preview ha hs r j).mpr (hi.working r j call hc hw)
  · rw [put_previews]
    exact hi.held r j ((put_holder_preview ha hs r j).mp hheld)
  · change Keyed key Holder.runId (s.relock key runId t.holder)
    rcases relock_cases ha hs with ⟨h, -⟩ | ⟨i, -, -, h⟩ | ⟨i, -, -, h⟩
    · rw [h]
      exact hi.keyed
    · rw [h]
      exact hi.keyed.acquire _
    · rw [h]
      exact hi.keyed.release _

theorem HeldInv.setPreview (hi : HeldInv key s) {j : ℕ} {call' : PreviewCall}
    (hsame : call'.phase.working = true ↔
      ∃ call, (s.runs runId).previews j = some call ∧ call.phase.working = true) :
    HeldInv key (s.setPreview runId j call') := by
  refine ⟨fun r k call hc hw ↦ ?_, fun r k hheld ↦ ?_, hi.keyed⟩
  · rw [setPreview_previews] at hc
    split at hc
    · next heq =>
      obtain ⟨rfl, rfl⟩ := heq
      cases hc
      obtain ⟨call, hc, hw⟩ := hsame.mp hw
      exact hi.working r k call hc hw
    · exact hi.working r k call hc hw
  · rw [setPreview_previews]
    split
    · next heq =>
      obtain ⟨rfl, rfl⟩ := heq
      exact ⟨call', rfl, hsame.mpr (hi.held r k hheld)⟩
    · exact hi.held r k hheld

theorem HeldInv.letIn (hi : HeldInv key s) (hfree : s.locks (key runId) = none) {j : ℕ}
    {call' : PreviewCall} (hw' : call'.phase.working = true) :
    HeldInv key { s.setPreview runId j call' with
      locks := acquire key Holder.runId s.locks ⟨runId, .preview j⟩ } := by
  have hnone : s.holder key runId = none := holder_of_free hfree
  have hholder : ∀ r, State.holder key { s.setPreview runId j call' with
      locks := acquire key Holder.runId s.locks ⟨runId, .preview j⟩ } r =
      if r = runId then some ⟨runId, .preview j⟩ else s.holder key r :=
    holder_acquire (h := (⟨runId, .preview j⟩ : Holder)) hfree
  refine ⟨fun r k call hc hw ↦ ?_, fun r k hheld ↦ ?_, hi.keyed.acquire _⟩
  · rw [hholder]
    change ((s.setPreview runId j call').runs r).previews k = some call at hc
    rw [setPreview_previews] at hc
    split at hc
    · next heq =>
      obtain ⟨rfl, rfl⟩ := heq
      exact if_pos rfl
    · have hold := hi.working r k call hc hw
      have hne : r ≠ runId := by
        rintro rfl
        rw [hnone] at hold
        cases hold
      rw [if_neg hne, hold]
  · rw [hholder] at hheld
    change ∃ call, ((s.setPreview runId j call').runs r).previews k = some call ∧ _
    rw [setPreview_previews]
    split at hheld
    · next heq =>
      cases hheld
      exact ⟨call', if_pos ⟨rfl, rfl⟩, hw'⟩
    · next hne =>
      rw [if_neg fun h ↦ hne h.1]
      exact hi.held r k hheld

theorem HeldInv.finish (hi : HeldInv key s) {j : ℕ} {call : PreviewCall}
    (hc : (s.runs runId).previews j = some call) (hw : call.phase.working = true)
    (answer : Option (Except PreviewError AgentApprovalPreview)) :
    HeldInv key (s.finishPreview key runId j call answer) := by
  have hmine := hi.working runId j call hc hw
  have hholder : ∀ r, (s.finishPreview key runId j call answer).holder key r =
      if r = runId then none else s.holder key r := holder_release hmine
  refine ⟨fun r k call' hc' hw' ↦ ?_, fun r k hheld ↦ ?_, hi.keyed.release _⟩
  · rw [hholder]
    change ((s.setPreview runId j _).runs r).previews k = some call' at hc'
    rw [setPreview_previews] at hc'
    split at hc'
    · cases hc'
      cases hw'
    · next hne =>
      have hold := hi.working r k call' hc' hw'
      rw [if_neg, hold]
      rintro rfl
      rw [hmine] at hold
      cases hold
      exact hne ⟨rfl, rfl⟩
  · rw [hholder] at hheld
    split at hheld
    · cases hheld
    · next hne =>
      change ∃ call', ((s.setPreview runId j _).runs r).previews k = some call' ∧ _
      rw [setPreview_previews, if_neg fun h ↦ hne h.1]
      exact hi.held r k hheld

theorem heldInv_previewStep (hi : HeldInv key s) {h : Host σ} {j : ℕ} {move : PreviewMove}
    (hs : previewStep key h s runId j ((s.runs runId).previews j) move = some s') :
    HeldInv key s' := by
  rcases previewStep_cases hs with ⟨call', rfl, hw', hidle⟩ | ⟨call, -, -, hfree, rfl⟩ |
    ⟨call, approval, hc, hw, -, rfl⟩ | ⟨call, answer, hc, hw, rfl⟩
  · refine hi.setPreview ⟨fun hw ↦ ?_, fun ⟨call, hc, hw⟩ ↦ ?_⟩
    · rw [hw'] at hw
      cases hw
    · rw [hidle call hc] at hw
      cases hw
  · exact hi.letIn hfree rfl
  · exact hi.setPreview ⟨fun _ ↦ ⟨call, hc, hw⟩, fun _ ↦ rfl⟩
  · exact hi.finish hc hw answer

theorem step_cases {move : Move σ} (hs : step key host s move = some s') :
    (∃ r m t, move = .run r m ∧ admits key s r m = true ∧
      ApprovalProtocol.step (host r) (s.view key r) m = some t ∧ s' = s.put key r t) ∨
    ∃ r j m, move = .preview r j m ∧
      previewStep key (host r) s r j ((s.runs r).previews j) m = some s' := by
  cases move with
  | run r m =>
    obtain ⟨ha, hs⟩ := Option.ite_none_right_eq_some.mp hs
    obtain ⟨t, ht, rfl⟩ := Option.map_eq_some_iff.mp hs
    exact .inl ⟨r, m, t, rfl, ha, ht, rfl⟩
  | preview r j m => exact .inr ⟨r, j, m, rfl, hs⟩

theorem heldInv_reachable (h : (system key host).Reachable s) : HeldInv key s := by
  refine Machine.Reachable.invariant (HeldInv key) ?_ ?_ h
  · rintro s ⟨hruns, hlocks⟩
    refine ⟨fun r j call hc ↦ ?_, fun r j hheld ↦ ?_, fun k x hk ↦ ?_⟩
    · rw [hruns] at hc
      cases hc
    · rw [State.holder, holder_of_free (hlocks _)] at hheld
      cases hheld
    · rw [hlocks] at hk
      cases hk
  · intro s move s' hi hs
    rcases step_cases hs with ⟨r, m, t, -, ha, ht, rfl⟩ | ⟨r, j, m, -, hs⟩
    · exact hi.put ha ht
    · exact heldInv_previewStep hi hs

theorem view_of_runs {s' : State σ} {r : UUID} (hworld : s'.world = s.world)
    (hrun : s'.runs r = { s.runs r with previews := (s'.runs r).previews })
    (hholder : (s'.view key r).holder = (s.view key r).holder) :
    s'.view key r = s.view key r := by
  unfold State.view at hholder ⊢
  dsimp only at hholder
  rw [hholder, hworld, hrun]

theorem view_previewStep (hi : HeldInv key s) {h : Host σ} {j : ℕ} {move : PreviewMove}
    (hs : previewStep key h s runId j ((s.runs runId).previews j) move = some s') (r : UUID) :
    s'.view key r = s.view key r := by
  rcases previewStep_cases hs with ⟨call', rfl, -, -⟩ | ⟨call, -, -, hfree, rfl⟩ |
    ⟨call, approval, -, -, -, rfl⟩ | ⟨call, answer, hc, hw, rfl⟩
  · exact view_of_runs rfl (setPreview_run j _ r) rfl
  · refine view_of_runs rfl (setPreview_run j _ r) ?_
    change (Library.NamedLocks.holder key Holder.runId
      (acquire key Holder.runId s.locks ⟨runId, .preview j⟩) r).bind
        (fun h ↦ h.session.submission?) = _
    rw [holder_acquire (h := (⟨runId, .preview j⟩ : Holder)) hfree]
    split
    · next heq =>
      subst heq
      have hnone : s.holder key r = none := holder_of_free hfree
      rw [State.view, hnone]
      rfl
    · rfl
  · exact view_of_runs rfl (setPreview_run j _ r) rfl
  · refine view_of_runs rfl (setPreview_run j _ r) ?_
    change (Library.NamedLocks.holder key Holder.runId (release key s.locks runId) r).bind
      (fun h ↦ h.session.submission?) = _
    have hmine := hi.working runId j call hc hw
    rw [holder_release hmine]
    split
    · next heq =>
      subst heq
      rw [view_holder_of_preview hmine]
      rfl
    · rfl

/-- Whatever the keys, a run moves as if it were alone: the others only change the world. -/
theorem system_projects (key : UUID → ℤ) (host : UUID → Host σ) (r : UUID) :
    Projects (system key host) (machine (host r)) fun s ↦ s.view key r where
  init s h := by
    obtain ⟨hruns, hlocks⟩ := h
    refine ⟨?_, ?_, ?_, ?_, ?_, ?_⟩
    · exact congrArg Run.rows (hruns r)
    · exact congrArg Run.checkpoint (hruns r)
    · exact congrArg Run.start (hruns r)
    · exact congrArg Run.calls (hruns r)
    · have hnone : s.holder key r = none := holder_of_free (hlocks _)
      rw [State.view, hnone]
      rfl
    · exact congrArg Run.resumed (hruns r)
  step s move s' hr hs := by
    rcases step_cases hs with ⟨r', m, t, -, ha, ht, rfl⟩ | ⟨r', j, m, -, hs⟩
    · right
      by_cases hne : r = r'
      · subst hne
        exact ⟨m, by rw [view_put_self ha ht]; exact ht⟩
      · exact ⟨.outside t.world, by rw [view_put_of_ne ha ht hne]; rfl⟩
    · exact .inl (view_previewStep (heldInv_reachable hr) hs r)

/-- While no call holds the lock of a run that has been committed, nothing happens to it. -/
theorem quiet {h : Host σ} {t t' : ApprovalProtocol.State σ} (hi : ApprovalProtocol.Inv h t)
    (hn : t.holder = none) {rows : Rows} (hrows : t.rows = some rows)
    (hs : ApprovalProtocol.step h t m = some t') : t'.rows = t.rows := by
  rcases ApprovalProtocol.step_cases hs with ⟨i, userId, submission, rfl, -, rfl⟩ |
    ⟨w, rfl, rfl⟩ | ⟨-, hs⟩ | ⟨i, call, hm, hc, hs⟩
  · rfl
  · rfl
  · have hstart := hi.start
    rw [hrows] at hstart
    have hended := hstart.ended
    cases m
    all_goals simp only [ApprovalProtocol.startStep, hended] at hs
    all_goals cases hs
    all_goals rfl
  · have hphase : call.phase = .waiting ∨ call.phase = .ended := by
      have hidle : call.phase.working ≠ true := by
        intro hw
        have hheld := hi.working i call hc hw
        rw [hn] at hheld
        cases hheld
      cases hp : call.phase with
      | waiting => exact .inl rfl
      | ended => exact .inr rfl
      | locked | recorded a | advancing answer | returned progress =>
        rw [hp] at hidle
        exact absurd rfl hidle
    cases m with
    | acquire j =>
      simp only [ApprovalProtocol.callStep] at hs
      split at hs
      · cases hs
        rfl
      · cases hs
    | crash j =>
      rcases hphase with hp | hp
      all_goals
        simp only [ApprovalProtocol.callStep, hp] at hs
        cases hs
        rfl
    | record j now | inspect j | advance j | persist j id now =>
      rcases hphase with hp | hp
      all_goals simp [ApprovalProtocol.callStep, hp] at hs
    | call j userId submission => cases hs
    | start id userId goal now => cases hs
    | startAdvance => cases hs
    | startCommit id now => cases hs
    | startCrash => cases hs
    | outside w => cases hs

theorem readPending_ok {rows : Option Rows} {userId : UUID} {approval : AgentApproval}
    (h : readPending rows userId = .ok approval) : ∃ r, rows = some r ∧ r.run.userId = userId ∧
      r.run.status = .pendingApproval ∧ approval ∈ r.approvals ∧ approval.decision = .pending := by
  unfold readPending at h
  split at h
  · cases h
  · next r hr =>
    obtain ⟨hrows, hu⟩ := Option.filter_eq_some_iff.mp hr
    split at h
    · cases h
    · next a ha =>
      split at h
      · cases h
      · next hc =>
        cases h
        rw [not_or, not_not, not_not] at hc
        exact ⟨r, hrows, of_decide_eq_true hu, hc.1, List.mem_of_find?_eq_some ha, hc.2⟩

def Found (s : State σ) : Prop := ∀ r j call approval, (s.runs r).previews j = some call →
  call.phase = .pending approval → readPending (s.runs r).rows call.userId = .ok approval

theorem Found.setPreview (hf : Found s) {j : ℕ} {call' : PreviewCall}
    (hcall : ∀ approval, call'.phase = .pending approval →
      readPending (s.runs runId).rows call'.userId = .ok approval) :
    Found (s.setPreview runId j call') := by
  intro r k call approval hc hp
  have hrows : ((s.setPreview runId j call').runs r).rows = (s.runs r).rows := by
    rw [setPreview_run]
  rw [hrows]
  rw [setPreview_previews] at hc
  split at hc
  · next heq =>
    obtain ⟨rfl, rfl⟩ := heq
    cases hc
    exact hcall approval hp
  · exact hf r k call approval hc hp

theorem Found.put (hf : Found s) (hr : (system key host).Reachable s)
    (hs : ApprovalProtocol.step (host runId) (s.view key runId) m = some t) :
    Found (s.put key runId t) := by
  intro r j call approval hc hp
  rw [put_previews] at hc
  have hread := hf r j call approval hc hp
  by_cases hne : r = runId
  · subst hne
    have hw : call.phase.working = true := by
      rw [hp]
      rfl
    have hheld := (heldInv_reachable hr).working r j call hc hw
    have hinv := ApprovalProtocol.inv_reachable ((system_projects key host r).reachable hr)
    obtain ⟨rows, hrows, -⟩ := readPending_ok hread
    have hsame : t.rows = (s.runs r).rows :=
      quiet hinv (view_holder_of_preview hheld) hrows hs
    rw [put_runs_self]
    dsimp only
    rw [hsame]
    exact hread
  · rw [put_runs_of_ne hne]
    exact hread

theorem found_reachable (h : (system key host).Reachable s) : Found s := by
  induction h with
  | init h0 =>
    intro r j call approval hc
    rw [h0.1] at hc
    cases hc
  | @step s s' move hr _ hs ih =>
    rcases step_cases hs with ⟨r, m, t, -, ha, ht, rfl⟩ | ⟨r, j, m, -, hs⟩
    · exact ih.put hr ht
    · rcases previewStep_cases hs with ⟨call', rfl, hw', -⟩ | ⟨call, -, -, -, rfl⟩ |
        ⟨call, approval, -, -, hread, rfl⟩ | ⟨call, answer, -, -, rfl⟩
      · refine ih.setPreview fun approval hp ↦ ?_
        rw [hp] at hw'
        cases hw'
      · exact ih.setPreview fun approval hp ↦ by cases hp
      · refine ih.setPreview fun approval' hp ↦ ?_
        cases hp
        exact hread
      · exact ih.setPreview fun approval hp ↦ by cases hp

theorem publishPreview_request {sha256 : Text → Digest} {c : Coercions}
    {context : Tools.AgentRuntimeContext} {state : AgentGraphState}
    {request : AgentApprovalInterrupt} {fingerprint : Digest}
    (h : buildApprovalRequest sha256 c context state = .ok (request, fingerprint)) :
    publishPreview sha256 runId request.preview = some ⟨request.preview, runId⟩ := by
  obtain ⟨-, hcheck, -⟩ := buildApprovalRequest_checked h
  obtain ⟨p, q, -, -, -, -, -, hactions⟩ := buildApprovalRequest_spec h
  have hchecked : ∀ shown ∈ request.preview.actions, shown.Checked := by
    intro shown hs
    obtain ⟨a, -, ha⟩ := forall₂_right hactions hs
    exact (previewAction_spec ha).1
  obtain ⟨proposal, -, -, -, hpublished⟩ := publishPreview_eq hcheck hchecked runId
  exact hpublished

/-- A run that waits for its owner, with the request that it waits with. -/
structure Waits (host : Host σ) (run : Run) (userId : UUID) (approval : AgentApproval)
    (request : AgentApprovalInterrupt) : Prop where
  rows : ∃ rows, run.rows = some rows ∧ rows.run.userId = userId ∧
    rows.run.status = .pendingApproval ∧ approval ∈ rows.approvals ∧ approval.decision = .pending
  checkpoint : ∃ cp, run.checkpoint = some cp ∧
    inspectSnapshot host.sha256 host.coercions cp = ⟨.pendingInterrupt, some request, none⟩
  revision : request.revision = approval.revision
  fingerprint : request.proposalFingerprint.text = approval.proposalFingerprint

theorem previewOf_waiting (h : (system key host).Reachable s) {j : ℕ} {call : PreviewCall}
    {approval : AgentApproval} (hc : (s.runs runId).previews j = some call)
    (hp : call.phase = .pending approval) :
    ∃ request cp, (s.runs runId).checkpoint = some cp ∧
      Waits (host runId) (s.runs runId) call.userId approval request ∧
      previewOf (host runId).sha256 runId approval
        (inspectSnapshot (host runId).sha256 (host runId).coercions cp) =
          .ok ⟨request.preview, runId⟩ := by
  have hread := found_reachable h runId j call approval hc hp
  obtain ⟨rows, hrows, huser, hstatus, hmem, hpending⟩ := readPending_ok hread
  have hinv := ApprovalProtocol.inv_reachable ((system_projects key host runId).reachable h)
  obtain ⟨cp, hcp, hcons⟩ := hinv.rows rows hrows
  obtain ⟨-, request, hinspect, hrevision, hfingerprint⟩ := hcons.pending approval hmem hpending
  refine ⟨request, cp, hcp, ⟨⟨rows, hrows, huser, hstatus, hmem, hpending⟩, ⟨cp, hcp, hinspect⟩,
    hrevision, hfingerprint⟩, ?_⟩
  have hpublish : publishPreview (host runId).sha256 runId request.preview =
      some ⟨request.preview, runId⟩ := by
    rcases Checkpoints.inspect_cases hcons.graph with ⟨request', fingerprint, -, hb, hi⟩ |
      ⟨o, -, -, hi⟩ | ⟨-, -, hi⟩ | ⟨-, hi⟩
    · rw [hinspect] at hi
      cases hi
      exact publishPreview_request hb
    all_goals
      rw [hinspect] at hi
      cases hi
  rw [hinspect]
  simp only [previewOf, hrevision, hfingerprint, hpublish, and_self, ↓reduceIte]

/-- A call that has been let in by the lock of its run and has not ended. -/
def State.Working (s : State σ) (x : Holder) : Prop :=
  match x.session with
  | .submission i => ∃ call, (s.runs x.runId).calls i = some call ∧ call.phase.working = true
  | .preview j => ∃ call, (s.runs x.runId).previews j = some call ∧ call.phase.working = true

theorem working_iff (h : (system key host).Reachable s) (x : Holder) :
    s.Working x ↔ s.locks (key x.runId) = some x := by
  have hholder : s.holder key x.runId = some x ↔ s.locks (key x.runId) = some x := by
    rw [State.holder, holder_some, and_iff_left rfl]
  rw [← hholder]
  obtain ⟨owner, session⟩ := x
  cases session with
  | submission i =>
    have hinv := ApprovalProtocol.inv_reachable ((system_projects key host owner).reachable h)
    constructor
    · rintro ⟨call, hc, hw⟩
      exact view_holder.mp (hinv.working i call hc hw)
    · intro hheld
      exact hinv.holder i (view_holder.mpr hheld)
  | preview j =>
    have hinv := heldInv_reachable h
    constructor
    · rintro ⟨call, hc, hw⟩
      exact hinv.working owner j call hc hw
    · exact hinv.held owner j

end

variable {host}

/-- Any number of runs of any users, whose advisory locks may share a key: each run takes the
steps that it would take alone and keeps to its ledger, calls on runs of one key exclude each
other, a lock is held by a call that works and can end, and a preview that found a plan
waiting shows it. -/
theorem concurrent_runs (blake2b : UUID → ShortDigest) {s : State σ}
    (h : (system (agentRecoveryLockKey blake2b) host).Reachable s) :
    (∀ r, (machine (host r)).Reachable (s.view (agentRecoveryLockKey blake2b) r) ∧
      (∀ t, (system (agentRecoveryLockKey blake2b) host).Leads s t →
        (machine (host r)).Leads (s.view (agentRecoveryLockKey blake2b) r)
          (t.view (agentRecoveryLockKey blake2b) r)) ∧
      ∀ rows, (s.runs r).rows = some rows →
        ledgerMachine.Reachable (ledgerOf rows) ∧ Sound (ledgerOf rows)) ∧
    (∀ x y, s.Working x → s.Working y →
      agentRecoveryLockKey blake2b x.runId = agentRecoveryLockKey blake2b y.runId → x = y) ∧
    (∀ k x, s.locks k = some x → agentRecoveryLockKey blake2b x.runId = k ∧
      (-2 ^ 63 ≤ k ∧ k < 2 ^ 63) ∧ s.Working x) ∧
    ∀ r j call approval s', (s.runs r).previews j = some call → call.phase = .pending approval →
      (system (agentRecoveryLockKey blake2b) host).step s (.preview r j .publish) = some s' →
      ∃ request, Waits (host r) (s.runs r) call.userId approval request ∧
        (s'.runs r).previews j =
          some { call with phase := .ended (some (.ok ⟨request.preview, r⟩)) } := by
  have hproject := system_projects (agentRecoveryLockKey blake2b) host
  refine ⟨fun r ↦ ?_, fun x y hx hy hkey ↦ ?_, fun k x hk ↦ ?_, ?_⟩
  · have hreach := (hproject r).reachable h
    refine ⟨hreach, fun t ht ↦ (hproject r).leads h ht, fun rows hrows ↦ ?_⟩
    have hview : (s.view (agentRecoveryLockKey blake2b) r).rows.map ledgerOf =
        some (ledgerOf rows) := congrArg (Option.map ledgerOf) hrows
    have hledger := RunLifecycle.run_simulates.reachable hreach hview
    exact ⟨hledger, RunLedger.sound_reachable hledger⟩
  · have hlock := (working_iff h x).mp hx
    rw [hkey, (working_iff h y).mp hy] at hlock
    exact (Option.some.inj hlock).symm
  · have hkey := (heldInv_reachable h).keyed k x hk
    subst hkey
    exact ⟨rfl, agentRecoveryLockKey_bigint blake2b x.runId, (working_iff h x).mpr hk⟩
  · intro r j call approval s' hc hp hs
    obtain ⟨request, cp, hcp, hwaits, hpreview⟩ := previewOf_waiting h hc hp
    refine ⟨request, hwaits, ?_⟩
    change previewStep _ (host r) s r j ((s.runs r).previews j) .publish = some s' at hs
    simp only [hc, previewStep, hp, hcp, hpreview] at hs
    cases hs
    change ((s.setPreview r j _).runs r).previews j = _
    rw [setPreview_previews, if_pos ⟨rfl, rfl⟩]

def sameDigest : UUID → ShortDigest := fun _ ↦ ⟨List.replicate 8 255, by decide⟩

def sampleSystem : State Unit :=
  ⟨fun _ ↦ ⟨none, none, .idle, fun _ ↦ none, [], fun _ ↦ none⟩, (), fun _ ↦ none⟩

/-- A run that waits for its owner is previewed, while a submission on a run with the same
lock waits. -/
def sampleSystemMoves : List (Move Unit) :=
  [.start (sampleId 1) sampleUserId sampleGoal sampleNow, .startAdvance,
    .startAdvance, .startAdvance, .startAdvance, .startAdvance,
    .startCommit (sampleId 2) sampleNow].map (.run (sampleId 1)) ++
  [.run (sampleId 7) (.call 0 sampleUserId sampleRejection),
    .preview (sampleId 1) 0 (.ask sampleUserId), .preview (sampleId 1) 0 .find,
    .preview (sampleId 1) 0 .acquire, .preview (sampleId 1) 0 .read]

def isPending : PreviewPhase → Bool
  | .pending _ => true
  | _ => false

theorem concurrent_runs_sample :
    ∃ s s' call request,
      (system (agentRecoveryLockKey sameDigest) fun _ ↦ Checkpoints.sampleHost).Reachable s ∧
      (system (agentRecoveryLockKey sameDigest) fun _ ↦ Checkpoints.sampleHost).step s
        (.run (sampleId 7) (.acquire 0)) = none ∧
      (system (agentRecoveryLockKey sameDigest) fun _ ↦ Checkpoints.sampleHost).step s
        (.preview (sampleId 1) 0 .publish) = some s' ∧
      (s'.runs (sampleId 1)).previews 0 =
        some ⟨call, .ended (some (.ok ⟨request, sampleId 1⟩))⟩ := by
  have hexec : ((system (agentRecoveryLockKey sameDigest) fun _ ↦ Checkpoints.sampleHost).exec
      sampleSystem sampleSystemMoves).bind (fun s ↦ ((s.runs (sampleId 1)).previews 0).map
        fun call ↦ (isPending call.phase,
          ((system (agentRecoveryLockKey sameDigest) fun _ ↦ Checkpoints.sampleHost).step s
            (.run (sampleId 7) (.acquire 0))).isNone)) = some (true, true) := by
    decide +kernel
  obtain ⟨s, hs, hcall⟩ := Option.bind_eq_some_iff.mp hexec
  obtain ⟨⟨userId, phase⟩, hc, hstate⟩ := Option.map_eq_some_iff.mp hcall
  obtain ⟨hpending, hnone⟩ := Prod.mk.inj hstate
  have hreach : (system (agentRecoveryLockKey sameDigest)
      fun _ ↦ Checkpoints.sampleHost).Reachable s :=
    Machine.Reachable.exec (.start ⟨fun _ ↦ rfl, fun _ ↦ rfl⟩) hs
  cases phase with
  | pending approval =>
    have hstep : ∃ s', (system (agentRecoveryLockKey sameDigest)
        fun _ ↦ Checkpoints.sampleHost).step s (.preview (sampleId 1) 0 .publish) = some s' := by
      change ∃ s', previewStep _ _ s _ 0 ((s.runs (sampleId 1)).previews 0) .publish = some s'
      rw [hc]
      exact ⟨_, rfl⟩
    obtain ⟨s', hstep⟩ := hstep
    obtain ⟨-, -, -, hpreviews⟩ := concurrent_runs sameDigest hreach
    obtain ⟨request, -, hended⟩ := hpreviews _ _ _ approval s' hc rfl hstep
    exact ⟨s, s', userId, request.preview, hreach, Option.isNone_iff_eq_none.mp hnone, hstep,
      hended⟩
  | _ => cases hpending

end LearningTasks.Services.ConcurrentRuns
