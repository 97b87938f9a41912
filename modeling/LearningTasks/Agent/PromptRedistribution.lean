import LearningTasks.Agent.PromptSections
import LearningTasks.Library.Budgets

namespace LearningTasks.Agent.PromptRedistribution

open Library.Strings Library.Serialization Library.SerializedLength Library.Budgets Schemas.Scalars
  Schemas.Task Schemas.Project Grounding Agent.Schemas State PromptBudget PromptSections

theorem framing_lengths : planningDataHeading.length = 30 ∧ goalAnalysisOpening.length = 17 ∧
    feedbackOpening.length = 21 ∧ projectsOpening.length = 12 ∧ tasksOpening.length = 9 ∧
    truncationOpening.length = 14 ∧ evidenceHeading.length = 32 := by
  decide +kernel

theorem finalInput_length (r : Redistribution) :
    (r.finalInput.length : ℤ) = r.size + 136 + (dumps r.manifest).length := by
  obtain ⟨h₁, h₂, h₃, h₄, h₅, h₆, h₇⟩ := framing_lengths
  simp only [Redistribution.finalInput, Redistribution.serialized, List.length_append, h₁, h₂, h₃,
    h₄, h₅, h₆, h₇, List.length_singleton, Redistribution.size, BudgetedSection.size]
  omega

structure SmallManifests (r : Redistribution) : Prop where
  goal : SmallManifest r.goal.manifest
  feedback : SmallManifest r.feedback.manifest
  projects : SmallManifest r.projects.manifest
  tasks : SmallManifest r.tasks.manifest
  grounding : SmallManifest r.grounding.manifest

theorem framing_le {r : Redistribution} (h : SmallManifests r) :
    136 + ((dumps r.manifest).length : ℤ) ≤ promptFramingManifestCharacters := by
  have h₁ : escaped "goal_constraints".toList = 16 := by decide
  have h₂ : escaped "revision_feedback".toList = 17 := by decide
  have h₃ : escaped "projects".toList = 8 := by decide
  have h₄ : escaped "tasks".toList = 5 := by decide
  have h₅ : escaped "grounding".toList = 9 := by decide
  have hg := h.goal
  have hf := h.feedback
  have hp := h.projects
  have ht := h.tasks
  have hk := h.grounding
  unfold SmallManifest at hg hf hp ht hk
  rw [Redistribution.manifest, dumps_obj_length]
  simp only [fieldsLength_cons, fieldsLength_nil, h₁, h₂, h₃, h₄, h₅,
    promptFramingManifestCharacters]
  omega

theorem assemble_eq {r : Redistribution} (h : SmallManifests r)
    (hsize : r.size ≤ sectionBudgetTotal) : assemble r = some r.finalInput ∧
      (r.finalInput.length : ℤ) ≤ maxPromptInputCharacters - promptFinalSafetyMarginCharacters := by
  have hf := framing_le h
  have hl := finalInput_length r
  have hle : (r.finalInput.length : ℤ) ≤
      maxPromptInputCharacters - promptFinalSafetyMarginCharacters := by
    simp only [promptFramingManifestCharacters] at hf
    simp only [sectionBudgetTotal, promptGoalAnalysisCharacters, promptRevisionFeedbackCharacters,
      promptProjectsCharacters, promptTasksCharacters, promptGroundingCharacters] at hsize
    simp only [maxPromptInputCharacters, promptFinalSafetyMarginCharacters]
    omega
  refine ⟨if_neg ?_, hle⟩
  rintro (hframing | hlong)
  · unfold Redistribution.framing Redistribution.size at *
    omega
  · omega

section

variable (isMark : Char → Bool) (p : PlanContext)

def sizeOf : Option BudgetedSection → ℤ
  | none => 0
  | some s => s.size

/-- The grounding section has a limit of its own. -/
def buildEvidence (budget : ℤ) : Option BudgetedSection :=
  buildGrounding isMark p.knowledge (min budget maxGroundingContextCharacters)

def goalShare : Share := ⟨promptGoalAnalysisCharacters, fun b ↦ sizeOf (buildGoal isMark p b)⟩

def tasksShare : Share := ⟨promptTasksCharacters, fun b ↦ (buildTasks isMark p b).size⟩

def projectsShare : Share := ⟨promptProjectsCharacters, fun b ↦ (buildProjects isMark p b).size⟩

def evidenceShare : Share := ⟨promptGroundingCharacters, fun b ↦ sizeOf (buildEvidence isMark p b)⟩

def shares : List Share :=
  [goalShare isMark p, tasksShare isMark p, projectsShare isMark p, evidenceShare isMark p]

def feedbackSize : ℤ :=
  sizeOf (buildFeedback isMark p.approvalFeedback promptRevisionFeedbackCharacters)

/-- What the sections leave of the total when each has its own budget. -/
def firstPool : ℤ :=
  sectionBudgetTotal - (feedbackSize isMark p + ((shares isMark p).map fun s ↦ s.size s.base).sum)

/-- The sections with their own budgets fit, and each that is rebuilt leaves as much of
its budget as it left at first. -/
def SlackKept : Prop := 0 ≤ firstPool isMark p ∧ KeepSlack (firstPool isMark p) (shares isMark p)

structure Sound (r : Redistribution) : Prop where
  pools : ∀ u ∈ r.pools, 0 ≤ u
  goalBudget : promptGoalAnalysisCharacters ≤ r.goalBudget
  tasksBudget : promptTasksCharacters ≤ r.tasksBudget
  projectsBudget : promptProjectsCharacters ≤ r.projectsBudget
  groundingBudget : promptGroundingCharacters ≤ r.groundingBudget
  sections : r.size ≤ sectionBudgetTotal

theorem goalShare_size (b : ℤ) : (goalShare isMark p).size b = sizeOf (buildGoal isMark p b) := rfl

theorem evidenceShare_size (b : ℤ) :
    (evidenceShare isMark p).size b = sizeOf (buildEvidence isMark p b) := rfl

variable {isMark p}

theorem buildEvidence_base : buildEvidence isMark p promptGroundingCharacters =
    buildGrounding isMark p.knowledge promptGroundingCharacters := by
  unfold buildEvidence
  rw [min_eq_left (by decide)]

theorem shares_sum : ((shares isMark p).map fun s ↦ s.size s.base).sum =
    sizeOf (buildGoal isMark p promptGoalAnalysisCharacters) +
      ((buildTasks isMark p promptTasksCharacters).size +
        ((buildProjects isMark p promptProjectsCharacters).size +
          sizeOf (buildEvidence isMark p promptGroundingCharacters))) := by
  simp only [shares, goalShare, tasksShare, projectsShare, evidenceShare, List.map_cons,
    List.map_nil, List.sum_cons, List.sum_nil, add_zero]

section

variable {feedback goal grounding : BudgetedSection}

theorem firstPool_eq
    (hf : buildFeedback isMark p.approvalFeedback promptRevisionFeedbackCharacters = some feedback)
    (hg : buildGoal isMark p promptGoalAnalysisCharacters = some goal)
    (hk : buildGrounding isMark p.knowledge promptGroundingCharacters = some grounding) :
    sectionBudgetTotal - (goal.size + feedback.size +
      (buildProjects isMark p promptProjectsCharacters).size +
      (buildTasks isMark p promptTasksCharacters).size + grounding.size) = firstPool isMark p := by
  rw [firstPool, shares_sum, feedbackSize, buildEvidence_base, hf, hg, hk]
  unfold sizeOf
  ring

theorem goal_growth {u : ℤ} {rebuilt : BudgetedSection}
    (hg : buildGoal isMark p promptGoalAnalysisCharacters = some goal)
    (hg' : buildGoal isMark p (promptGoalAnalysisCharacters + u) = some rebuilt) :
    rebuilt.size - goal.size = (goalShare isMark p).growth u := by
  simp only [Share.growth, goalShare, hg, hg']
  rfl

theorem evidence_growth {u : ℤ} {rebuilt : BudgetedSection}
    (hk : buildGrounding isMark p.knowledge promptGroundingCharacters = some grounding)
    (hk' : buildGrounding isMark p.knowledge
      (min (promptGroundingCharacters + u) maxGroundingContextCharacters) = some rebuilt) :
    rebuilt.size - grounding.size = (evidenceShare isMark p).growth u := by
  rw [← buildEvidence_base] at hk
  simp only [Share.growth, evidenceShare, hk]
  rw [buildEvidence, hk']
  rfl

end

variable (isMark p) in
theorem tasks_growth (u : ℤ) : (buildTasks isMark p (promptTasksCharacters + u)).size -
    (buildTasks isMark p promptTasksCharacters).size = (tasksShare isMark p).growth u := rfl

variable (isMark p) in
theorem projects_growth (u : ℤ) : (buildProjects isMark p (promptProjectsCharacters + u)).size -
    (buildProjects isMark p promptProjectsCharacters).size = (projectsShare isMark p).growth u := rfl

theorem redistribute_some {r : Redistribution} (h : redistribute isMark p = some r) :
    r.pools = pools (firstPool isMark p) (shares isMark p) ∧ SmallManifests r ∧
      r.size + lastPool (firstPool isMark p) (shares isMark p) = sectionBudgetTotal := by
  unfold redistribute at h
  obtain ⟨feedback, hf, h⟩ := Option.bind_eq_some_iff.mp h
  obtain ⟨goal, hg, h⟩ := Option.bind_eq_some_iff.mp h
  obtain ⟨grounding, hk, h⟩ := Option.bind_eq_some_iff.mp h
  obtain ⟨rebuiltGoal, hg', h⟩ := Option.bind_eq_some_iff.mp h
  obtain ⟨rebuiltGrounding, hk', h⟩ := Option.bind_eq_some_iff.mp h
  obtain rfl := Option.some.inj h
  have hu := firstPool_eq hf hg hk
  rw [hu] at hg' hk' ⊢
  have hgoal := goal_growth hg hg'
  rw [hgoal, tasks_growth, projects_growth] at hk' ⊢
  have hevidence := evidence_growth hk hk'
  refine ⟨?_, ⟨buildGoalAnalysis_manifest hg', buildFeedback_manifest hf,
    buildListProjection_manifest _ _ _, buildListProjection_manifest _ _ _,
    buildGrounding_manifest hk'⟩, ?_⟩
  · rw [hevidence]
    rfl
  · have htasks := tasks_growth isMark p
      (firstPool isMark p - (goalShare isMark p).growth (firstPool isMark p))
    have hprojects := projects_growth isMark p
      (firstPool isMark p - (goalShare isMark p).growth (firstPool isMark p) -
        (tasksShare isMark p).growth
          (firstPool isMark p - (goalShare isMark p).growth (firstPool isMark p)))
    simp only [Redistribution.size, shares, lastPool]
    linarith

theorem pool_step {s : Share} {u : ℤ} {rest : List Share} (h : KeepSlack u (s :: rest)) :
    0 ≤ u - s.growth u ∧ KeepSlack (u - s.growth u) rest := ⟨Share.keepsSlack_iff.mp h.1, h.2⟩

theorem redistribute_of_slackKept (h : SlackKept isMark p) :
    ∃ r, redistribute isMark p = some r := by
  obtain ⟨h₀, hkeep⟩ := h
  obtain ⟨h₁, hkeep⟩ := pool_step hkeep
  obtain ⟨h₂, hkeep⟩ := pool_step hkeep
  obtain ⟨h₃, -⟩ := pool_step hkeep
  have hf : (buildFeedback isMark p.approvalFeedback promptRevisionFeedbackCharacters).isSome =
      true := buildFeedback_isSome _
  have hg : (buildGoal isMark p promptGoalAnalysisCharacters).isSome = true :=
    buildGoalAnalysis_isSome (by decide)
  have hk : (buildGrounding isMark p.knowledge promptGroundingCharacters).isSome = true :=
    buildGrounding_isSome (by decide)
  have hg' : (buildGoal isMark p (promptGoalAnalysisCharacters + firstPool isMark p)).isSome =
      true := buildGoalAnalysis_isSome (by unfold promptGoalAnalysisCharacters; omega)
  obtain ⟨feedback, hf⟩ := Option.isSome_iff_exists.mp hf
  obtain ⟨goal, hg⟩ := Option.isSome_iff_exists.mp hg
  obtain ⟨grounding, hk⟩ := Option.isSome_iff_exists.mp hk
  obtain ⟨rebuiltGoal, hg'⟩ := Option.isSome_iff_exists.mp hg'
  have hu := firstPool_eq hf hg hk
  have hgoal := goal_growth hg hg'
  have hbudget {u : ℤ} (hu : 0 ≤ u) :
      1 ≤ min (promptGroundingCharacters + u) maxGroundingContextCharacters ∧
        min (promptGroundingCharacters + u) maxGroundingContextCharacters ≤
          maxGroundingContextCharacters := by
    refine ⟨le_min ?_ (by decide), min_le_right _ _⟩
    unfold promptGroundingCharacters
    omega
  have hk' : (buildGrounding isMark p.knowledge _).isSome = true :=
    buildGrounding_isSome (hbudget h₃)
  obtain ⟨rebuiltGrounding, hk'⟩ := Option.isSome_iff_exists.mp hk'
  unfold redistribute
  refine ⟨_, Option.bind_eq_some_iff.mpr ⟨feedback, hf, Option.bind_eq_some_iff.mpr
    ⟨goal, hg, Option.bind_eq_some_iff.mpr ⟨grounding, hk, Option.bind_eq_some_iff.mpr
    ⟨rebuiltGoal, ?_, Option.bind_eq_some_iff.mpr ⟨rebuiltGrounding, ?_, rfl⟩⟩⟩⟩⟩⟩
  · rw [hu]
    exact hg'
  · rw [hu, hgoal, tasks_growth, projects_growth]
    exact hk'

theorem budgets_of_pools {r : Redistribution} (h : redistribute isMark p = some r)
    (hpools : ∀ u ∈ r.pools.dropLast, 0 ≤ u) :
    promptGoalAnalysisCharacters ≤ r.goalBudget ∧ promptTasksCharacters ≤ r.tasksBudget ∧
      promptProjectsCharacters ≤ r.projectsBudget ∧
        promptGroundingCharacters ≤ r.groundingBudget := by
  unfold redistribute at h
  obtain ⟨feedback, -, h⟩ := Option.bind_eq_some_iff.mp h
  obtain ⟨goal, -, h⟩ := Option.bind_eq_some_iff.mp h
  obtain ⟨grounding, -, h⟩ := Option.bind_eq_some_iff.mp h
  obtain ⟨rebuiltGoal, -, h⟩ := Option.bind_eq_some_iff.mp h
  obtain ⟨rebuiltGrounding, -, h⟩ := Option.bind_eq_some_iff.mp h
  obtain rfl := Option.some.inj h
  simp only [List.dropLast, List.forall_mem_cons] at hpools
  obtain ⟨h₀, h₁, h₂, h₃, -⟩ := hpools
  exact ⟨le_add_of_nonneg_right h₀, le_add_of_nonneg_right h₁, le_add_of_nonneg_right h₂,
    le_min (le_add_of_nonneg_right h₃) (by decide)⟩

structure FramesFit (p : PlanContext) : Prop where
  tasks : (renderList p.tasks []).length ≤ promptTasksCharacters
  projects : (renderList p.projects []).length ≤ promptProjectsCharacters
  grounding : (renderGrounding p.knowledge []).length ≤ promptGroundingCharacters

theorem goalShare_within {u : ℤ} (hu : 0 ≤ u) :
    (goalShare isMark p).size (promptGoalAnalysisCharacters + u) ≤
      promptGoalAnalysisCharacters + u := by
  have hb : 104 ≤ promptGoalAnalysisCharacters + u := by
    unfold promptGoalAnalysisCharacters
    omega
  have hsome : (buildGoal isMark p (promptGoalAnalysisCharacters + u)).isSome = true :=
    buildGoalAnalysis_isSome hb
  obtain ⟨s, hs⟩ := Option.isSome_iff_exists.mp hsome
  rw [goalShare_size, hs]
  exact buildGoalAnalysis_length hs

variable (isMark) in
theorem evidenceShare_within (h : FramesFit p) {u : ℤ} (hu : 0 ≤ u) :
    (evidenceShare isMark p).size (promptGroundingCharacters + u) ≤
      promptGroundingCharacters + u := by
  have hmin : promptGroundingCharacters ≤
      min (promptGroundingCharacters + u) maxGroundingContextCharacters :=
    le_min (le_add_of_nonneg_right hu) (by decide)
  have hsome : (buildEvidence isMark p (promptGroundingCharacters + u)).isSome = true :=
    buildGrounding_isSome ⟨le_trans (by decide) hmin, min_le_right _ _⟩
  obtain ⟨s, hs⟩ := Option.isSome_iff_exists.mp hsome
  rw [evidenceShare_size, hs]
  exact (buildGrounding_length (h.grounding.trans hmin) hs).trans (min_le_left _ _)

theorem shares_within (h : FramesFit p) {s : Share} (hs : s ∈ shares isMark p) {u : ℤ}
    (hu : 0 ≤ u) : s.size (s.base + u) ≤ s.base + u := by
  simp only [shares, List.mem_cons, List.not_mem_nil, or_false] at hs
  obtain rfl | rfl | rfl | rfl := hs
  · exact goalShare_within hu
  · exact buildListProjection_length taskRow (h.tasks.trans (le_add_of_nonneg_right hu))
  · exact buildListProjection_length projectRow (h.projects.trans (le_add_of_nonneg_right hu))
  · exact evidenceShare_within isMark h hu

variable (isMark) in
theorem firstPool_nonneg (h : FramesFit p) : 0 ≤ firstPool isMark p := by
  have hbase {s : Share} (hs : s ∈ shares isMark p) : s.size s.base ≤ s.base := by
    have hle := shares_within h hs (le_refl 0)
    rwa [add_zero] at hle
  have hsome : (buildFeedback isMark p.approvalFeedback promptRevisionFeedbackCharacters).isSome =
      true := buildFeedback_isSome p.approvalFeedback
  obtain ⟨feedback, hf⟩ := Option.isSome_iff_exists.mp hsome
  have hfeedback : feedbackSize isMark p ≤ promptRevisionFeedbackCharacters := by
    rw [feedbackSize, hf]
    exact buildFeedback_length (by decide) hf
  have hgoal := hbase (List.mem_cons_self : goalShare isMark p ∈ shares isMark p)
  have htasks := hbase (by simp [shares] : tasksShare isMark p ∈ shares isMark p)
  have hprojects := hbase (by simp [shares] : projectsShare isMark p ∈ shares isMark p)
  have hevidence := hbase (by simp [shares] : evidenceShare isMark p ∈ shares isMark p)
  simp only [firstPool, shares, List.map_cons, List.map_nil, List.sum_cons, List.sum_nil]
  simp only [goalShare, tasksShare, projectsShare, evidenceShare] at hgoal htasks hprojects hevidence ⊢
  unfold sectionBudgetTotal
  linarith

/-- The prompt is built, by a redistribution that never overdraws its pool, and within
its limits, for exactly the inputs whose sections keep their slack. -/
theorem sound_iff_slackKept (isMark : Char → Bool) (p : PlanContext) :
    (∃ r input, redistribute isMark p = some r ∧
      buildBudgetedAgentPlanInput isMark p = some input ∧ Sound r ∧
      (input.length : ℤ) ≤ maxPromptInputCharacters - promptFinalSafetyMarginCharacters) ↔
    SlackKept isMark p := by
  constructor
  · rintro ⟨r, input, hr, -, hsound, -⟩
    have hpools := hsound.pools
    rw [(redistribute_some hr).1, pools_nonneg_iff] at hpools
    exact hpools
  · intro h
    obtain ⟨r, hr⟩ := redistribute_of_slackKept h
    obtain ⟨hpools, hmanifests, hsize⟩ := redistribute_some hr
    have hnonneg : ∀ u ∈ r.pools, 0 ≤ u := by
      rw [hpools]
      exact (pools_nonneg_iff _ _).mpr h
    have hlast : 0 ≤ lastPool (firstPool isMark p) (shares isMark p) := by
      apply hnonneg
      rw [hpools]
      exact lastPool_mem _ _
    have hle : r.size ≤ sectionBudgetTotal := by omega
    obtain ⟨hinput, hlength⟩ := assemble_eq hmanifests hle
    obtain ⟨hgoal, htasks, hprojects, hgrounding⟩ := budgets_of_pools hr fun u hu ↦
      hnonneg u (List.dropLast_subset _ hu)
    refine ⟨r, r.finalInput, hr, ?_, ⟨hnonneg, hgoal, htasks, hprojects, hgrounding, hle⟩, hlength⟩
    rw [buildBudgetedAgentPlanInput, hr]
    exact hinput

end

def longGoal : PlanningGoal where
  objective := ⟨List.replicate 1800 'a', by decide +kernel, by decide +kernel⟩
  constraints := List.replicate 4 ⟨List.replicate 490 'a', by decide +kernel, by decide +kernel⟩
  size := by decide

theorem fullContext_size :
    1 ≤ [AgentContextKind.projects, .tasks, .knowledge].length ∧
      [AgentContextKind.projects, .tasks, .knowledge].length ≤ 3 := by
  decide

theorem fullContext_nodup : [AgentContextKind.projects, .tasks, .knowledge].Nodup := by decide

def longGoalAnalysis : AgentGoalAnalysis where
  objective := longGoal.objective
  constraints := longGoal.constraints
  requiredContext := [.projects, .tasks, .knowledge]
  size := longGoal.size
  contextSize := fullContext_size
  unique := fullContext_nodup

def noProjects : ProjectListResponse := emptyPage

def july : Datetime := sampleDate.midnight

def longTask : PublicTask where
  id := sampleId 1
  projectId := sampleId 2
  title := "Read".toList
  description := some (List.replicate 3400 'a')
  status := .todo
  priority := .medium
  plannedDate := none
  dueAt := none
  estimatedMinutes := none
  completedAt := none
  createdAt := july
  updatedAt := july

def oneTask : TaskListResponse := ⟨[longTask], 1, 20, 1, 1, firstPage_bounds, by decide⟩

def documentUUID (n : Fin 7) : UUID := ⟨n, by omega⟩

def documentCitation (n : Fin 7) : Text :=
  "knowledge:".toList ++ (documentUUID n).text ++ ':' :: (documentUUID n).text

theorem documentCitation_pattern : ∀ n, isCitationId (documentCitation n) = true := by
  decide +kernel

def document (n : Fin 7) : GroundingEvidence where
  citationId := documentCitation n
  documentId := documentUUID n
  chunkId := documentUUID n
  source := List.replicate 190 '<' ++ ".md".toList
  pageNumber := none
  ordinal := 0
  excerpt := "x".toList
  vectorRank := some 1
  lexicalRank := none
  fusionScore := ⟨"0.5".toList, by decide, by decide⟩
  pattern := documentCitation_pattern n
  identity := rfl
  bounds := by decide +kernel
  ranked := by decide

def sevenDocuments : GroundedKnowledgeContext where
  evidence := (List.finRange 7).map document
  size := by decide
  unique := by decide +kernel

def longContext : PlanContext :=
  ⟨longGoal, longGoalAnalysis, noProjects, oneTask, sevenDocuments, none⟩

theorem longGoal_length : (renderGoalAnalysis longGoalAnalysis longGoal.objective.text
    (longGoal.constraints.map (·.text))).length = 3856 := by decide +kernel

theorem longTask_length : (renderList oneTask
    (oneTask.items.map fun t ↦ wholeRow describe (taskRow t))).length = 3772 := by decide +kernel

theorem noProjects_length :
    (renderList noProjects (noProjects.items.map fun q ↦ wholeRow describe (projectRow q))).length =
      56 := by decide +kernel

theorem document_identity : ∀ n, weight (evidenceRow (document n)).identity = 1636 := by
  decide +kernel

theorem document_weight (n : Fin 7) :
    weight (wholeRow attachExcerpt (evidenceRow (document n))) = 1650 := by
  have hexcerpt : fieldsLength
      [("excerpt".toList, .str (escapeGroundingBoundaryText (document n).excerpt))] = 14 := rfl
  have hidentity : (evidenceRow (document n)).identity ≠ [] := List.cons_ne_nil _ _
  change weight ((evidenceRow (document n)).identity ++ _) = 1650
  rw [weight_append hidentity, document_identity n, hexcerpt]

theorem documents_frame : (renderGrounding sevenDocuments []).length = 212 := by decide +kernel

section

variable (isMark : Char → Bool)

theorem longGoal_size {b : ℤ} (h : 3856 ≤ b) : sizeOf (buildGoal isMark longContext b) = 3856 := by
  have hlength := longGoal_length
  have hfull : buildGoal isMark longContext b = _ := buildGoalAnalysis_full (by
    change ((renderGoalAnalysis longGoalAnalysis longGoal.objective.text
      (longGoal.constraints.map (·.text))).length : ℤ) ≤ b
    omega)
  rw [hfull]
  exact congrArg Int.ofNat hlength

theorem oneTask_size {b : ℤ} (h : 3772 ≤ b) : (buildTasks isMark longContext b).size = 3772 := by
  have hlength := longTask_length
  have hfull : (buildTasks isMark longContext b).serialized = _ := buildListProjection_full (by
    change ((renderList oneTask (oneTask.items.map fun t ↦ wholeRow describe (taskRow t))).length :
      ℤ) ≤ b
    omega)
  rw [BudgetedSection.size, hfull]
  exact congrArg Int.ofNat hlength

theorem noProjects_size {b : ℤ} (h : 56 ≤ b) : (buildProjects isMark longContext b).size = 56 := by
  have hlength := noProjects_length
  have hfull : (buildProjects isMark longContext b).serialized = _ := buildListProjection_full (by
    change ((renderList noProjects
      (noProjects.items.map fun q ↦ wholeRow describe (projectRow q))).length : ℤ) ≤ b
    omega)
  rw [BudgetedSection.size, hfull]
  exact congrArg Int.ofNat hlength

theorem documents_weights (k : ℕ) (hk : k ≤ 7) :
    weights (((sevenDocuments.evidence.map evidenceRow).take k).map (wholeRow attachExcerpt)) =
        1650 * k ∧
      weights (((sevenDocuments.evidence.map evidenceRow).take k).map Row.identity) = 1636 * k := by
  have hl : ((sevenDocuments.evidence.map evidenceRow).take k).length = k :=
    List.length_take_of_le hk
  have hrow {row : Row} (h : row ∈ (sevenDocuments.evidence.map evidenceRow).take k) :
      ∃ n, evidenceRow (document n) = row := by
    obtain ⟨e, he, rfl⟩ := List.mem_map.mp (List.mem_of_mem_take h)
    obtain ⟨n, -, rfl⟩ := List.mem_map.mp he
    exact ⟨n, rfl⟩
  constructor
  · rw [weights_const (w := 1650), List.length_map, hl]
    intro fields hf
    obtain ⟨row, h, rfl⟩ := List.mem_map.mp hf
    obtain ⟨n, rfl⟩ := hrow h
    exact document_weight n
  · rw [weights_const (w := 1636), List.length_map, hl]
    intro fields hf
    obtain ⟨row, h, rfl⟩ := List.mem_map.mp hf
    obtain ⟨n, rfl⟩ := hrow h
    exact document_identity n

theorem documents_size {k : ℕ} (hk : 1 ≤ k ∧ k ≤ 7) {b : ℤ} (hb : b ≤ 12000)
    (hfit : 211 + 1650 * k ≤ b) (hstop : k < 7 → b < 211 + 1636 * (k + 1)) :
    sizeOf (buildGrounding isMark sevenDocuments b) = 211 + 1650 * k := by
  have hframe := documents_frame
  obtain ⟨hw, hi⟩ := documents_weights k hk.2
  have hr := renderGrounding_weighted sevenDocuments
  have hwhole := hr (((sevenDocuments.evidence.map evidenceRow).take k).map (wholeRow attachExcerpt))
  have hids := hr (((sevenDocuments.evidence.map evidenceRow).take k).map Row.identity)
  rw [hw, hframe] at hwhole
  rw [hi, hframe] at hids
  have hproject : projectRows isMark (renderGrounding sevenDocuments) attachExcerpt b
      (sevenDocuments.evidence.map evidenceRow) =
        (((sevenDocuments.evidence.map evidenceRow).take k).map (wholeRow attachExcerpt), 0) := by
    refine projectRows_take hr (fun fields _ ↦ weight_le_append fields _) k hk.2 ?_ (by omega) ?_
    · change ((renderGrounding sevenDocuments (((sevenDocuments.evidence.map evidenceRow).take k).map
        (wholeRow attachExcerpt))).length : ℤ) ≤ b
      omega
    intro row hrow
    obtain ⟨e, he, rfl⟩ := List.mem_map.mp (List.mem_of_getElem? hrow)
    obtain ⟨n, -, rfl⟩ := List.mem_map.mp he
    have hlt : k < 7 := (List.getElem?_eq_some_iff.mp hrow).1
    have hnext := hr (((sevenDocuments.evidence.map evidenceRow).take k).map Row.identity ++
      [(evidenceRow (document n)).identity])
    rw [weights_append, hi, weights_cons, document_identity n, hframe] at hnext
    have hnil : weights [] = 0 := rfl
    have := hstop hlt
    omega
  rw [buildGrounding, if_pos ⟨by omega, hb⟩, hproject]
  change ((renderGrounding sevenDocuments (((sevenDocuments.evidence.map evidenceRow).take k).map
    (wholeRow attachExcerpt))).length : ℤ) = 211 + 1650 * k
  omega

theorem documents_base : sizeOf (buildEvidence isMark longContext promptGroundingCharacters) = 3511 :=
  documents_size isMark (k := 2) (b := 5000) (by decide) (by decide) (by decide) (by decide)

theorem documents_rebuilt :
    sizeOf (buildEvidence isMark longContext (promptGroundingCharacters + 6901)) = 11761 :=
  documents_size isMark (k := 7) (b := 11901) (by decide) (by decide) (by decide) (by decide)

theorem longContext_firstPool : firstPool isMark longContext = 6901 := by
  have hfeedback : feedbackSize isMark longContext = 4 := by
    change ((dumps .null).length : ℤ) = 4
    decide
  rw [firstPool, shares_sum, documents_base, hfeedback, longGoal_size isMark (by decide),
    oneTask_size isMark (by decide), noProjects_size isMark (by decide)]
  decide

theorem longContext_lastPool :
    lastPool (firstPool isMark longContext) (shares isMark longContext) = -1349 := by
  have hgoal : (goalShare isMark longContext).growth 6901 = 3856 - 3856 := by
    have hbase : (goalShare isMark longContext).base = 4000 := rfl
    apply Share.growth_of_sizes
    · rw [goalShare_size, longGoal_size isMark (by omega)]
    · rw [goalShare_size, longGoal_size isMark (by omega)]
  have htasks : (tasksShare isMark longContext).growth 6901 = 3772 - 3772 := by
    apply Share.growth_of_sizes
    · exact oneTask_size isMark (b := promptTasksCharacters) (by decide)
    · exact oneTask_size isMark (b := promptTasksCharacters + 6901) (by decide)
  have hprojects : (projectsShare isMark longContext).growth 6901 = 56 - 56 := by
    apply Share.growth_of_sizes
    · exact noProjects_size isMark (b := promptProjectsCharacters) (by decide)
    · exact noProjects_size isMark (b := promptProjectsCharacters + 6901) (by decide)
  have hevidence : (evidenceShare isMark longContext).growth 6901 = 11761 - 3511 := by
    apply Share.growth_of_sizes
    · rw [evidenceShare_size]
      exact documents_base isMark
    · rw [evidenceShare_size]
      exact documents_rebuilt isMark
  rw [longContext_firstPool, shares, lastPool, hgoal, sub_self, sub_zero, lastPool, htasks, sub_self,
    sub_zero, lastPool, hprojects, sub_self, sub_zero, lastPool, hevidence, lastPool]
  decide

theorem longContext_raises : buildBudgetedAgentPlanInput isMark longContext = none := by
  cases hr : redistribute isMark longContext with
  | none => rw [buildBudgetedAgentPlanInput, hr, Option.bind_none]
  | some r =>
    have hsize := (redistribute_some hr).2.2
    have hlength := finalInput_length r
    rw [longContext_lastPool] at hsize
    have htotal : sectionBudgetTotal = 18100 := by decide
    rw [buildBudgetedAgentPlanInput, hr, Option.bind_some, assemble, if_pos]
    right
    unfold maxPromptInputCharacters promptFinalSafetyMarginCharacters
    omega

end

theorem not_sound : ¬ ∀ (isMark : Char → Bool) (p : PlanContext),
    p.projects.page = 1 → p.projects.pageSize = 20 → p.tasks.page = 1 → p.tasks.pageSize = 20 →
      ∃ r input, redistribute isMark p = some r ∧
        buildBudgetedAgentPlanInput isMark p = some input ∧ Sound r ∧
        (input.length : ℤ) ≤ maxPromptInputCharacters - promptFinalSafetyMarginCharacters := by
  intro h
  obtain ⟨r, input, -, hinput, -⟩ := h (fun _ ↦ false) longContext rfl rfl rfl rfl
  rw [longContext_raises] at hinput
  cases hinput

end LearningTasks.Agent.PromptRedistribution
