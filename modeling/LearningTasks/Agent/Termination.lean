import LearningTasks.Agent.Checkpoints

namespace LearningTasks.Agent.Termination

open Library.Strings Library.Transition Schemas.Scalars Models.Agent Agent.Schemas State Tools
  Approval Execution Finalization Planning Graph Checkpoints

def agentGraphRecursionLimit : ℕ := 16

/-- The steps that are left from a node on, if no changes are requested. -/
def nodeSteps : AgentRunNode → ℕ
  | .analyzeGoal => 8
  | .loadContext => 7
  | .generatePlan => 6
  | .validatePlan => 5
  | .requestApproval => 4
  | .executeTasks => 3
  | .verifyResult => 2
  | .summarize => 1

/-- A bound of the steps that are left: each revision that is left may take three
more of them. -/
def remaining (cp : Checkpoint) : ℕ :=
  match cp.next with
  | [] => 0
  | node :: _ => nodeSteps node + 3 * (maxPlanRevisions - cp.values.revisionCount)

variable {σ : Type} {host : Host σ}

theorem remaining_node {cp : Checkpoint} {node : AgentRunNode} {nodes : List AgentRunNode}
    (h : cp.next = node :: nodes) :
    remaining cp = nodeSteps node + 3 * (maxPlanRevisions - cp.values.revisionCount) := by
  rw [remaining, h]

theorem remaining_le (cp : Checkpoint) : remaining cp ≤ 14 := by
  have hrev : maxPlanRevisions - cp.values.revisionCount ≤ 2 := Nat.sub_le _ _
  have hsteps (node : AgentRunNode) : nodeSteps node ≤ 8 := by cases node <;> decide
  cases h : cp.next with
  | nil => simp [remaining, h]
  | cons node nodes =>
    have := hsteps node
    rw [remaining_node h]
    omega

theorem nodeSteps_pos (node : AgentRunNode) : 0 < nodeSteps node := by
  cases node <;> decide

theorem continueOrVerify_steps {v : AgentGraphState} {node n : AgentRunNode}
    {nodes : List AgentRunNode} (h : continueOrVerify node v = n :: nodes) :
    n = node ∨ n = .verifyResult := by
  unfold continueOrVerify at h
  split at h
  · cases h
    exact .inr rfl
  · cases h
    exact .inl rfl

/-- Every edge but those of the approval leads on. -/
theorem route_steps {v : AgentGraphState} {node n : AgentRunNode} {nodes : List AgentRunNode}
    (hnode : node ≠ .requestApproval) (h : route v node = some (n :: nodes)) :
    nodeSteps n < nodeSteps node := by
  cases node with
  | requestApproval => exact absurd rfl hnode
  | analyzeGoal | loadContext | generatePlan =>
    rcases continueOrVerify_steps (Option.some.inj h) with rfl | rfl <;> decide
  | validatePlan =>
    simp only [route] at h
    repeat' split at h
    all_goals cases h
    all_goals decide
  | executeTasks | verifyResult =>
    cases h
    decide
  | summarize => cases h

theorem approval_steps {v : AgentGraphState} (he : v.workflowErrorCode = none)
    (response : AgentApprovalResponse) (fingerprint : Digest) {n : AgentRunNode}
    {nodes : List AgentRunNode}
    (h : route (applyApprovalResponse v response fingerprint v) .requestApproval =
      some (n :: nodes)) :
    nodeSteps n + 3 * (maxPlanRevisions -
        (applyApprovalResponse v response fingerprint v).revisionCount) <
      nodeSteps .requestApproval + 3 * (maxPlanRevisions - v.revisionCount) := by
  unfold applyApprovalResponse at h ⊢
  cases hd : response.decision with
  | approved | rejected =>
    simp only [hd, route, he, Option.isSome_none, Bool.false_eq_true, ↓reduceIte,
      Option.some.injEq, List.cons.injEq] at h
    obtain ⟨rfl, -⟩ := h
    simp [nodeSteps]
  | requestChanges =>
    by_cases hl : v.revisionCount ≥ maxPlanRevisions
    · simp only [hd, hl, route, he, Option.isSome_none, Bool.false_eq_true, ↓reduceIte,
        Option.some.injEq, List.cons.injEq] at h
      obtain ⟨rfl, -⟩ := h
      simp [hl, nodeSteps]
    · simp only [hd, hl, route, he, Option.isSome_none, Bool.false_eq_true, ↓reduceIte,
        Option.some.injEq, List.cons.injEq] at h
      obtain ⟨rfl, -⟩ := h
      simp only [hl, ↓reduceIte, nodeSteps]
      omega

theorem route_end {v : AgentGraphState} {node : AgentRunNode} (h : route v node = some []) :
    node = .summarize := by
  cases node with
  | summarize => rfl
  | analyzeGoal | loadContext | generatePlan =>
    simp only [route, continueOrVerify, Option.some.injEq] at h
    split at h <;> cases h
  | validatePlan | requestApproval =>
    simp only [route] at h
    repeat' split at h
    all_goals cases h
  | executeTasks | verifyResult => cases h

def Waiting (cp : Checkpoint) : Prop := cp.next = [.requestApproval] ∧ cp.interrupts ≠ []

def Interrupted (cp cp' : Checkpoint) : Prop :=
  cp.next = [.requestApproval] ∧ ∃ value, cp' = { cp with interrupts := [value] }

theorem Interrupted.waiting {cp cp' : Checkpoint} (h : Interrupted cp cp') : Waiting cp' := by
  obtain ⟨hnext, value, rfl⟩ := h
  exact ⟨hnext, List.cons_ne_nil _ _⟩

structure Progress (cp : Checkpoint) (node : AgentRunNode) (cp' : Checkpoint) : Prop where
  interrupts : cp'.interrupts = []
  remaining : remaining cp' < remaining cp
  forward : node ≠ .requestApproval →
    ∀ n nodes, cp'.next = n :: nodes → nodeSteps n < nodeSteps node
  revision : cp.values.revisionCount ≤ cp'.values.revisionCount
  finished : cp'.next = [] → node = .summarize

theorem progress_of_route {cp : Checkpoint} {node : AgentRunNode} (hnext : cp.next = [node])
    {u : StateUpdate} {next : List AgentRunNode} (hroute : route (u cp.values) node = some next)
    (hless : ∀ n nodes, next = n :: nodes →
      nodeSteps n + 3 * (maxPlanRevisions - (u cp.values).revisionCount) <
        nodeSteps node + 3 * (maxPlanRevisions - cp.values.revisionCount))
    (hrev : cp.values.revisionCount ≤ (u cp.values).revisionCount) :
    Progress cp node ⟨u cp.values, next, []⟩ := by
  refine ⟨rfl, ?_, fun hnode n nodes hn ↦ ?_, hrev, ?_⟩
  · rw [remaining_node hnext]
    cases next with
    | nil =>
      exact Nat.add_pos_left (nodeSteps_pos node) _
    | cons n nodes =>
      rw [remaining_node rfl]
      exact hless n nodes rfl
  · obtain rfl : next = n :: nodes := hn
    exact route_steps hnode hroute
  · rintro rfl
    exact route_end hroute

theorem runNode_progress (host : Host σ) {cp : Checkpoint}
    (hi : Inv host.sha256 host.coercions host.context cp) {node : AgentRunNode}
    (hnext : cp.next = [node]) {answer : Option AgentApprovalResponse} {w w' : σ} {r : NodeResult}
    (hr : runNode host cp.values answer w node = (r, w')) :
    ∃ cp', committed cp node r = some cp' ∧ (Interrupted cp cp' ∨ Progress cp node cp') := by
  have hn := hi.next
  rw [hnext] at hn
  cases r with
  | interrupt value =>
    obtain ⟨rfl, -⟩ := runNode_interrupt hr
    exact ⟨_, rfl, .inl ⟨hnext, value, rfl⟩⟩
  | raised =>
    cases node with
    | summarize =>
      have hv : Verified host.sha256 cp.values := hn
      obtain ⟨output, ho, -⟩ := summarize_of_verified hv.verification hv.terminal
        hi.wellFormed.records
      rw [runNode, ho] at hr
      cases hr
    | requestApproval =>
      rw [runNode, approvalNode] at hr
      repeat' split at hr
      all_goals cases hr
    | loadContext | generatePlan | executeTasks =>
      rw [runNode] at hr
      split at hr <;> cases hr
    | analyzeGoal | validatePlan | verifyResult => cases hr
  | update u =>
    have hrev := runNode_revisionCount hr
    by_cases hnode : node = .requestApproval
    · subst hnode
      obtain ⟨hu, -⟩ : Undecided cp.values ∧ _ := hn
      rcases approvalNode_update hr with rfl | ⟨request, fingerprint, response, -, rfl⟩
      · refine ⟨_, rfl, .inr (progress_of_route hnext rfl (fun n nodes h ↦ ?_) hrev)⟩
        cases h
        exact Nat.add_lt_add_right (by decide) _
      · obtain ⟨next, hroute⟩ := approval_route hu.errorCode response fingerprint
        refine ⟨_, congrArg (Option.map _) hroute,
          .inr (progress_of_route hnext hroute (fun n nodes h ↦ ?_) hrev)⟩
        subst h
        exact approval_steps hu.errorCode response fingerprint hroute
    · obtain ⟨next, hroute⟩ := route_isSome (u cp.values) hnode
      refine ⟨_, congrArg (Option.map _) hroute,
        .inr (progress_of_route hnext hroute (fun n nodes h ↦ ?_) hrev)⟩
      subst h
      have hsteps := route_steps hnode hroute
      omega

theorem superstep_node (host : Host σ) {cp : Checkpoint} (h : WellFormed cp.values) {node : AgentRunNode}
    (hnext : cp.next = [node]) (answer : Option AgentApprovalResponse) (w : σ) :
    superstep host cp answer w = (committed cp node (runNode host cp.values answer w node).1,
      (runNode host cp.values answer w node).2) := by
  simp only [superstep, hnext, h.modelValidate]

theorem superstep_progress {cp : Checkpoint}
    (hi : Inv host.sha256 host.coercions host.context cp) {node : AgentRunNode}
    (hnext : cp.next = [node]) (answer : Option AgentApprovalResponse) (w : σ) :
    ∃ cp' w', superstep host cp answer w = (some cp', w') ∧
      (Interrupted cp cp' ∨ Progress cp node cp') := by
  rcases hr : runNode host cp.values answer w node with ⟨r, w'⟩
  obtain ⟨cp', hc, hp⟩ := runNode_progress host hi hnext hr
  exact ⟨cp', w', by rw [superstep_node host hi.wellFormed hnext, hr, hc], hp⟩

inductive Outcome
  | finished
  | waiting
  | raised
  | recursionError
  deriving DecidableEq

/-- What an invocation of the graph leaves, and the nodes that it ran. -/
structure Invocation (σ : Type) where
  checkpoint : Checkpoint
  world : σ
  nodes : List AgentRunNode
  outcome : Outcome

def Invocation.after {σ : Type} (node : AgentRunNode) (i : Invocation σ) : Invocation σ :=
  { i with nodes := node :: i.nodes }

/-- An invocation runs one node after another, at most as many as its limit. -/
def invoke (host : Host σ) : ℕ → Checkpoint → Option AgentApprovalResponse → σ → Invocation σ
  | limit, cp, answer, w =>
    match cp.next with
    | [] => ⟨cp, w, [], .finished⟩
    | node :: _ =>
      match limit with
      | 0 => ⟨cp, w, [], .recursionError⟩
      | limit + 1 =>
        match superstep host cp answer w with
        | (none, w') => ⟨cp, w', [node], .raised⟩
        | (some cp', w') =>
          if cp'.interrupts = [] then (invoke host limit cp' none w').after node
          else ⟨cp', w', [node], .waiting⟩

theorem next_cases {sha256 : Text → Digest} {c : Coercions}
    {context : AgentRuntimeContext} {cp : Checkpoint} (h : Inv sha256 c context cp) :
    cp.next = [] ∨ ∃ node, cp.next = [node] := by
  have hn := h.next
  cases hnext : cp.next with
  | nil => exact .inl rfl
  | cons node nodes =>
    cases nodes with
    | nil => exact .inr ⟨node, rfl⟩
    | cons n ns =>
      rw [hnext] at hn
      cases node <;> exact False.elim hn

/-- How an invocation ends that was not cut short: at the summary, with a terminal
status, or at a request for approval. -/
inductive Ends (sha256 : Text → Digest) (cp : Checkpoint) (i : Invocation σ) : Prop
  | waiting : i.outcome = .waiting → Waiting i.checkpoint → Ends sha256 cp i
  | finished (output : AgentGraphOutput) : i.outcome = .finished → i.checkpoint.next = [] →
      (cp.next = [] ∨ i.nodes.getLast? = some .summarize) →
      i.checkpoint.values.terminalStatus = some output.status →
      summarize sha256 i.checkpoint.values = some output → Ends sha256 cp i

theorem Ends.after {sha256 : Text → Digest} {cp cp' : Checkpoint}
    {node : AgentRunNode} {i : Invocation σ} (h : Ends sha256 cp' i)
    (hnodes : cp'.next = [] → i.nodes = []) (hlast : cp'.next = [] → node = .summarize) :
    Ends sha256 cp (i.after node) := by
  cases h with
  | waiting ho hw => exact .waiting ho hw
  | finished output ho hnext hl ht hs =>
    refine .finished output ho hnext (.inr ?_) ht hs
    rcases hl with hl | hl
    · rw [Invocation.after, hnodes hl, hlast hl]
      rfl
    · rw [Invocation.after, List.getLast?_cons, hl]
      rfl

theorem invoke_end {cp : Checkpoint} (h : cp.next = []) (limit : ℕ)
    (answer : Option AgentApprovalResponse) (w : σ) :
    invoke host limit cp answer w = ⟨cp, w, [], .finished⟩ := by
  cases limit <;> rw [invoke, h]

theorem finished_ends {cp : Checkpoint} (hi : Inv host.sha256 host.coercions host.context cp)
    (h : cp.next = []) (w : σ) : Ends host.sha256 cp ⟨cp, w, [], .finished⟩ := by
  have hn := hi.next
  rw [h] at hn
  have hv : Verified host.sha256 cp.values := hn
  obtain ⟨output, ho, hstatus⟩ := summarize_of_verified hv.verification hv.terminal
    hi.wellFormed.records
  exact .finished output rfl h (.inl h) (hstatus ▸ hv.terminal) ho

theorem finished_invoke {cp : Checkpoint} (hi : Inv host.sha256 host.coercions host.context cp)
    (h : cp.next = []) (limit : ℕ) (answer : Option AgentApprovalResponse) (w : σ) :
    (invoke host limit cp answer w).nodes.length ≤ remaining cp ∧
      Inv host.sha256 host.coercions host.context (invoke host limit cp answer w).checkpoint ∧
      Ends host.sha256 cp (invoke host limit cp answer w) := by
  rw [invoke_end h]
  exact ⟨Nat.zero_le _, hi, finished_ends hi h w⟩

/-- Within its limit an invocation ends, after no more nodes than were left. -/
theorem invoke_ends {cp : Checkpoint} (hi : Inv host.sha256 host.coercions host.context cp)
    (limit : ℕ) (hlimit : remaining cp ≤ limit) (answer : Option AgentApprovalResponse) (w : σ) :
    (invoke host limit cp answer w).nodes.length ≤ remaining cp ∧
      Inv host.sha256 host.coercions host.context (invoke host limit cp answer w).checkpoint ∧
      Ends host.sha256 cp (invoke host limit cp answer w) := by
  induction limit generalizing cp answer w with
  | zero =>
    rcases next_cases hi with hnext | ⟨node, hnext⟩
    · exact finished_invoke hi hnext 0 answer w
    · have hpos := nodeSteps_pos node
      rw [remaining_node hnext] at hlimit
      omega
  | succ limit ih =>
    rcases next_cases hi with hnext | ⟨node, hnext⟩
    · exact finished_invoke hi hnext (limit + 1) answer w
    · obtain ⟨cp', w', hs, hp⟩ := superstep_progress hi hnext answer w
      have hi' := superstep_inv host hi hs
      have hinvoke : invoke host (limit + 1) cp answer w =
          if cp'.interrupts = [] then (invoke host limit cp' none w').after node
          else ⟨cp', w', [node], .waiting⟩ := by
        rw [invoke, hnext]
        simp only [hs]
      rcases hp with hw | hp
      · have hpos := nodeSteps_pos node
        rw [hinvoke, if_neg hw.waiting.2, remaining_node hnext]
        exact ⟨Nat.le_add_right_of_le hpos, hi', .waiting rfl hw.waiting⟩
      · have hless := hp.remaining
        obtain ⟨hlen, hinv, hends⟩ := ih hi' (by omega) none w'
        rw [hinvoke, if_pos hp.interrupts]
        refine ⟨?_, hinv, hends.after (fun he ↦ ?_) hp.finished⟩
        · simp only [Invocation.after, List.length_cons]
          omega
        · rw [invoke_end he]

/-- A superstep, which traces the node whose result was committed. -/
def visited (s : Checkpoint × σ × List AgentRunNode) (x : Option Checkpoint × σ) :
    Checkpoint × σ × List AgentRunNode :=
  match x with
  | (some cp, w) => (cp, w, if cp.interrupts = [] then s.2.2 ++ s.1.next else s.2.2)
  | (none, w) => (s.1, w, s.2.2)

/-- The runs of the graph of any host, with the nodes that they went through. -/
def machine (host : Host σ) : Machine (Checkpoint × σ × List AgentRunNode) (Move σ) where
  init s := (∃ goal, s.1 = initialCheckpoint goal) ∧ s.2.2 = []
  step s
    | .advance => some (visited s (superstep host s.1 none s.2.1))
    | .resume response =>
      if host.durableApproval = true ∧ s.1.interrupts ≠ [] then
        some (visited s (superstep host s.1 (some response) s.2.1))
      else none
    | .crash w => some (s.1, w, s.2.2)

def rounds (nodes : List AgentRunNode) : ℕ := nodes.count .requestApproval

/-- One round for each revision, and one more once the plan has been decided on. -/
def RoundsInv (cp : Checkpoint) (nodes : List AgentRunNode) : Prop :=
  rounds nodes ≤ cp.values.revisionCount + 1 ∧
    ∀ n ns, cp.next = n :: ns → nodeSteps .requestApproval ≤ nodeSteps n →
      rounds nodes ≤ cp.values.revisionCount

theorem rounds_concat (nodes : List AgentRunNode) (node : AgentRunNode) :
    rounds (nodes ++ [node]) = rounds nodes + if node = .requestApproval then 1 else 0 := by
  rw [rounds, List.count_append, List.count_singleton, rounds]
  cases node <;> rfl

theorem Progress.rounds {cp cp' : Checkpoint} {node : AgentRunNode} {nodes : List AgentRunNode}
    (h : Progress cp node cp') (hnext : cp.next = [node]) (hr : RoundsInv cp nodes) :
    RoundsInv cp' (nodes ++ [node]) := by
  have hrev := h.revision
  have hrem := h.remaining
  rw [RoundsInv, rounds_concat]
  rw [remaining_node hnext] at hrem
  by_cases hnode : node = .requestApproval
  · have hcount := hr.2 node [] hnext (by rw [hnode])
    subst hnode
    refine ⟨by simpa using hcount.trans hrev, fun n ns hn hge ↦ ?_⟩
    rw [remaining_node hn] at hrem
    rw [if_pos rfl]
    omega
  · rw [if_neg hnode]
    refine ⟨hr.1.trans (by omega), fun n ns hn hge ↦ ?_⟩
    have hless := h.forward hnode n ns hn
    exact (hr.2 node [] hnext (by omega)).trans hrev

theorem visited_inv {s : Checkpoint × σ × List AgentRunNode}
    (hi : Inv host.sha256 host.coercions host.context s.1) (hr : RoundsInv s.1 s.2.2)
    (answer : Option AgentApprovalResponse) :
    Inv host.sha256 host.coercions host.context (visited s (superstep host s.1 answer s.2.1)).1 ∧
      RoundsInv (visited s (superstep host s.1 answer s.2.1)).1
        (visited s (superstep host s.1 answer s.2.1)).2.2 := by
  rcases next_cases hi with hnext | ⟨node, hnext⟩
  · have hs : superstep host s.1 answer s.2.1 = (none, s.2.1) := by rw [superstep, hnext]
    rw [hs]
    exact ⟨hi, hr⟩
  · obtain ⟨cp', w', hs, hp⟩ := superstep_progress hi hnext answer s.2.1
    rw [hs]
    refine ⟨superstep_inv host hi hs, ?_⟩
    rcases hp with hw | hp
    · obtain ⟨-, value, rfl⟩ := hw
      simp only [visited, List.cons_ne_nil, ↓reduceIte]
      exact hr
    · simp only [visited, hp.interrupts, ↓reduceIte, hnext]
      exact hp.rounds hnext hr

theorem reachable_inv {s : Checkpoint × σ × List AgentRunNode} (h : (machine host).Reachable s) :
    Inv host.sha256 host.coercions host.context s.1 ∧ RoundsInv s.1 s.2.2 := by
  refine Machine.Reachable.invariant (fun s : Checkpoint × σ × List AgentRunNode ↦
    Inv host.sha256 host.coercions host.context s.1 ∧ RoundsInv s.1 s.2.2) ?_ ?_ h
  · rintro ⟨cp, w, nodes⟩ ⟨⟨goal, rfl⟩, rfl⟩
    exact ⟨inv_initial goal, Nat.zero_le _, fun _ _ _ _ ↦ Nat.zero_le _⟩
  · rintro s m s' ⟨hi, hr⟩ hs
    cases m with
    | advance =>
      cases hs
      exact visited_inv hi hr none
    | resume response =>
      obtain ⟨-, hs⟩ := Option.ite_none_right_eq_some.mp hs
      cases hs
      exact visited_inv hi hr (some response)
    | crash w =>
      cases hs
      exact ⟨hi, hr⟩

theorem reachable_visited {s : Checkpoint × σ × List AgentRunNode}
    (h : (machine host).Reachable s) {answer : Option AgentApprovalResponse}
    (ha : answer ≠ none → host.durableApproval = true ∧ s.1.interrupts ≠ []) :
    (machine host).Reachable (visited s (superstep host s.1 answer s.2.1)) := by
  cases answer with
  | none => exact h.next (i := .advance) rfl
  | some response =>
    have hs : (machine host).step s (.resume response) =
        some (visited s (superstep host s.1 (some response) s.2.1)) := if_pos (ha (by simp))
    exact h.next hs

/-- An invocation is a stretch of a run. -/
theorem invoke_reachable {s : Checkpoint × σ × List AgentRunNode} (h : (machine host).Reachable s)
    {answer : Option AgentApprovalResponse}
    (ha : answer ≠ none → host.durableApproval = true ∧ s.1.interrupts ≠ []) (limit : ℕ) :
    ∃ nodes, (machine host).Reachable ((invoke host limit s.1 answer s.2.1).checkpoint,
      (invoke host limit s.1 answer s.2.1).world, nodes) := by
  have hstep := reachable_visited h ha
  induction limit generalizing s answer with
  | zero =>
    refine ⟨s.2.2, ?_⟩
    rw [invoke]
    split <;> exact h
  | succ limit ih =>
    rw [invoke]
    split
    · exact ⟨s.2.2, h⟩
    · rcases hs : superstep host s.1 answer s.2.1 with ⟨_ | cp', w'⟩
      · rw [hs] at hstep
        exact ⟨_, hstep⟩
      · rw [hs] at hstep
        dsimp only
        split
        · exact ih hstep (fun hne ↦ absurd rfl hne) (reachable_visited hstep fun hne ↦ absurd rfl hne)
        · exact ⟨_, hstep⟩

theorem resume_reachable {i : Invocation σ} {nodes : List AgentRunNode}
    (h : (machine host).Reachable (i.checkpoint, i.world, nodes))
    (hdurable : host.durableApproval = true) (hwaiting : i.checkpoint.interrupts ≠ [])
    (response : AgentApprovalResponse) (limit : ℕ) :
    ∃ nodes, (machine host).Reachable
      ((invoke host limit i.checkpoint (some response) i.world).checkpoint,
        (invoke host limit i.checkpoint (some response) i.world).world, nodes) :=
  invoke_reachable h (fun _ ↦ ⟨hdurable, hwaiting⟩) limit

/-- However a run goes, each invocation ends within the recursion limit, after no
more than three rounds of approval, at a summary or at a request for approval. -/
theorem bounded_runs {s : Checkpoint × σ × List AgentRunNode} (h : (machine host).Reachable s)
    (answer : Option AgentApprovalResponse) (w : σ) :
    s.1.values.revisionCount ≤ maxPlanRevisions ∧ rounds s.2.2 ≤ 3 ∧
      (invoke host agentGraphRecursionLimit s.1 answer w).nodes.length <
        agentGraphRecursionLimit ∧
      Ends host.sha256 s.1 (invoke host agentGraphRecursionLimit s.1 answer w) := by
  obtain ⟨hi, hr⟩ := reachable_inv h
  have hrem := remaining_le s.1
  obtain ⟨hlen, -, hends⟩ := invoke_ends hi agentGraphRecursionLimit (hrem.trans (by decide))
    answer w
  have hrev : s.1.values.revisionCount ≤ 2 := hi.wellFormed.revisionCount
  have hrounds := hr.1
  exact ⟨hrev, by omega, hlen.trans_lt (hrem.trans_lt (by decide)), hends⟩

/-- The sample run up to its first request for approval, and up to the next one. -/
def sampleRequest : Invocation Unit :=
  invoke sampleHost agentGraphRecursionLimit (initialCheckpoint sampleGoal) none ()

def sampleRevision : Invocation Unit :=
  invoke sampleHost agentGraphRecursionLimit sampleRequest.checkpoint (some sampleChanges)
    sampleRequest.world

/-- Once changes have been requested a second request for them is within the bounds too. -/
theorem bounded_runs_sample :
    sampleRevision.checkpoint.values.revisionCount = 1 ∧ sampleRevision.outcome = .waiting ∧
      ∃ nodes, (machine sampleHost).Reachable
          (sampleRevision.checkpoint, sampleRevision.world, nodes) ∧
        rounds nodes ≤ 3 ∧
        (invoke sampleHost agentGraphRecursionLimit sampleRevision.checkpoint
          (some sampleChanges) ()).nodes.length < agentGraphRecursionLimit := by
  have hinitial : (machine sampleHost).Reachable (initialCheckpoint sampleGoal, (), []) :=
    .start ⟨⟨sampleGoal, rfl⟩, rfl⟩
  have hrequest : ∃ nodes, (machine sampleHost).Reachable
      (sampleRequest.checkpoint, sampleRequest.world, nodes) :=
    @invoke_reachable _ sampleHost _ hinitial none (fun hne ↦ absurd rfl hne)
      agentGraphRecursionLimit
  obtain ⟨_, hrequest⟩ := hrequest
  have hwaiting : sampleRequest.checkpoint.interrupts ≠ [] := by decide +kernel
  have hrevision : ∃ nodes, (machine sampleHost).Reachable
      (sampleRevision.checkpoint, sampleRevision.world, nodes) :=
    resume_reachable hrequest rfl hwaiting sampleChanges agentGraphRecursionLimit
  obtain ⟨nodes, hrevision⟩ := hrevision
  obtain ⟨-, hrounds, hlength, -⟩ := bounded_runs hrevision (some sampleChanges) ()
  dsimp only at hrounds hlength
  exact ⟨by decide +kernel, by decide +kernel, nodes, hrevision, hrounds, hlength⟩

end LearningTasks.Agent.Termination
