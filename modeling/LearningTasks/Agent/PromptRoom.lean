import LearningTasks.Agent.TextFitting

namespace LearningTasks.Agent.PromptRoom

open Library.Strings Library.Serialization Library.SerializedLength Library.Budgets Schemas.Scalars
  Schemas.Task Schemas.Project Grounding Agent.Schemas State PromptBudget PromptSections
  PromptRedistribution SectionProjection TextFitting

section

variable {isMark : Char → Bool} {budget : ℤ}

theorem fitText_fills {value kept : Text} {render : Text → Text} (h : Grows render)
    (hfull : budget < (render value).length) (hsafe : SafePrefix isMark kept value)
    (hfill : ((render (kept ++ truncationMarker)).length : ℤ) = budget) :
    ∃ v, (fitText isMark value budget render).1 = some v ∧ ((render v).length : ℤ) = budget := by
  cases hr : (fitText isMark value budget render).1 with
  | none =>
    have hmarker := (fitText_none h hfull).mp hr
    have hle := h.longer (List.nil_prefix (l := kept))
    rw [List.nil_append] at hle
    omega
  | some r =>
    obtain ⟨longest, -, rfl, hbudget, hmax⟩ := fitText_longest h hfull hr
    have hle := h.longer (hmax kept hsafe hfill.le)
    exact ⟨_, rfl, by omega⟩

/-- The objective, or one of the constraints, has a cut that fills the budget. -/
inductive GoalFilled (isMark : Char → Bool) (goal : PlanningGoal) (analysis : AgentGoalAnalysis)
    (budget : ℤ) : Prop
  | objective {kept : Text} : SafePrefix isMark kept goal.objective.text →
      budget < (renderGoalAnalysis analysis goal.objective.text []).length →
      (renderGoalAnalysis analysis (kept ++ truncationMarker) []).length = budget →
        GoalFilled isMark goal analysis budget
  | constraint {before after : List Text} {constraint kept : Text} :
      goal.constraints.map (·.text) = before ++ constraint :: after →
      SafePrefix isMark kept constraint →
      budget < (renderGoalAnalysis analysis goal.objective.text (before ++ [constraint])).length →
      (renderGoalAnalysis analysis goal.objective.text
        (before ++ [kept ++ truncationMarker])).length = budget →
        GoalFilled isMark goal analysis budget

theorem grows_objective (analysis : AgentGoalAnalysis) :
    Grows fun candidate ↦ renderGoalAnalysis analysis candidate [] where
  extended s t := by
    simp only [renderGoalAnalysis_length, escaped_append]
    omega
  longer {p q} h := by
    obtain ⟨t, rfl⟩ := h
    simp only [renderGoalAnalysis_length, escaped_append]
    omega

theorem grows_constraint (analysis : AgentGoalAnalysis) (objective : Text) (included : List Text) :
    Grows fun v ↦ renderGoalAnalysis analysis objective (included ++ [v]) where
  extended s t := by
    simp only [renderGoalAnalysis_length, dumps_arr_length, List.map_append, itemsLength_append,
      List.map_cons, List.map_nil, itemsLength_cons, itemsLength_nil, dumps_str_length,
      escaped_append]
    omega
  longer {p q} h := by
    obtain ⟨t, rfl⟩ := h
    simp only [renderGoalAnalysis_length, dumps_arr_length, List.map_append, itemsLength_append,
      List.map_cons, List.map_nil, itemsLength_cons, itemsLength_nil, dumps_str_length,
      escaped_append]
    omega

variable (isMark budget) in
theorem le_includeConstraints (analysis : AgentGoalAnalysis) (objective : Text)
    (included constraints : List Text) :
    (renderGoalAnalysis analysis objective included).length ≤ (renderGoalAnalysis analysis objective
      (includeConstraints isMark (renderGoalAnalysis analysis objective) budget included
        constraints).1).length := by
  induction constraints generalizing included with
  | nil => exact le_refl _
  | cons c cs ih =>
    rw [includeConstraints]
    split
    · exact (renderGoalAnalysis_append analysis objective included [c]).trans (ih _)
    · split
      · next candidate _ => exact renderGoalAnalysis_append analysis objective included [candidate]
      · exact le_refl _

theorem includeConstraints_fills {analysis : AgentGoalAnalysis} {objective constraint kept : Text}
    {included before after : List Text} (hsafe : SafePrefix isMark kept constraint)
    (hfull : budget <
      (renderGoalAnalysis analysis objective (included ++ before ++ [constraint])).length)
    (hfill : ((renderGoalAnalysis analysis objective
      (included ++ before ++ [kept ++ truncationMarker])).length : ℤ) = budget) :
    ((renderGoalAnalysis analysis objective (includeConstraints isMark
      (renderGoalAnalysis analysis objective) budget included
        (before ++ constraint :: after)).1).length : ℤ) = budget := by
  induction before generalizing included with
  | nil =>
    rw [List.append_nil] at hfull hfill
    obtain ⟨v, hv, hlength⟩ :=
      fitText_fills (grows_constraint analysis objective included) hfull hsafe hfill
    rw [List.nil_append, includeConstraints, if_neg (by omega), hv]
    exact hlength
  | cons c before ih =>
    rw [List.append_cons included] at hfull hfill
    have hle : (renderGoalAnalysis analysis objective (included ++ [c])).length ≤
        (renderGoalAnalysis analysis objective
          (included ++ [c] ++ before ++ [kept ++ truncationMarker])).length := by
      rw [List.append_assoc (included ++ [c])]
      exact renderGoalAnalysis_append analysis objective (included ++ [c]) _
    rw [List.cons_append, includeConstraints, if_pos (by omega)]
    exact ih hfull hfill

theorem buildGoalAnalysis_fills {goal : PlanningGoal} {analysis : AgentGoalAnalysis}
    {s : BudgetedSection} (h : GoalFilled isMark goal analysis budget)
    (hs : buildGoalAnalysis isMark goal analysis budget = some s) : s.size = budget := by
  obtain ⟨objective, hobjective, hs⟩ := buildGoalAnalysis_some hs
  rw [BudgetedSection.size, hs]
  cases h with
  | objective hsafe hfull hfill =>
    obtain ⟨v, hv, hlength⟩ := fitText_fills (grows_objective analysis) hfull hsafe hfill
    obtain rfl := Option.some.inj (hobjective.symm.trans hv)
    have hle := le_includeConstraints isMark budget analysis objective []
      (goal.constraints.map (·.text))
    have hwithin : ((renderGoalAnalysis analysis objective (includeConstraints isMark
        (renderGoalAnalysis analysis objective) budget [] (goal.constraints.map (·.text))).1).length :
          ℤ) ≤ budget := includeConstraints_length _ hlength.le
    omega
  | @constraint before after constraint kept hsplit hsafe hfull hfill =>
    have hle := renderGoalAnalysis_append analysis goal.objective.text []
      (before ++ [kept ++ truncationMarker])
    rw [List.nil_append] at hle
    have hwhole : fitText isMark goal.objective.text budget
        (fun candidate ↦ renderGoalAnalysis analysis candidate []) =
          (some goal.objective.text, false) := fitText_full (by omega)
    rw [hwhole] at hobjective
    obtain rfl := Option.some.inj hobjective
    rw [hsplit]
    exact includeConstraints_fills hsafe hfull hfill

/-- What a text adds to an item is the sum of what its parts add. -/
def Additive (attach : Fields → Text → Fields) : Prop :=
  ∃ measure : Text → ℕ, (∀ s t, measure (s ++ t) = measure s + measure t) ∧
    ∀ fields s, weight (attach fields s) = weight (attach fields []) + measure s

theorem weight_describe (fields : Fields) (s : Text) :
    weight (describe fields s) = weight (describe fields []) + escaped s := by
  simp only [weight, describe, dumps_obj_length, fieldsLength_append, fieldsLength_cons,
    fieldsLength_nil, dumps_str_length]
  have hnil : escaped [] = 0 := rfl
  omega

theorem additive_describe : Additive describe := ⟨escaped, escaped_append, weight_describe⟩

theorem additive_attachExcerpt : Additive attachExcerpt := by
  refine ⟨fun s ↦ escaped (escapeGroundingBoundaryText s), fun s t ↦ ?_, fun fields s ↦ ?_⟩
  · simp only [escapeGroundingBoundaryText, List.flatMap_append, escaped_append]
  · simp only [weight, attachExcerpt, dumps_obj_length, fieldsLength_append, fieldsLength_cons,
      fieldsLength_nil, dumps_str_length]
    have hnil : escaped (escapeGroundingBoundaryText []) = 0 := rfl
    omega

section

variable {render : List Fields → Text} {frame : ℕ} {attach : Fields → Text → Fields}

theorem grows_row (hr : Weighted render frame) (hattach : Additive attach) (before after : List Fields)
    (identity : Fields) : Grows fun v ↦ render (before ++ attach identity v :: after) := by
  obtain ⟨measure, hmeasure, hweight⟩ := hattach
  have hlength (v : Text) : (render (before ++ attach identity v :: after)).length =
      frame + (weights before + (weight (attach identity []) + measure v + weights after) - 1) := by
    rw [hr, weights_append, weights_cons, hweight]
  constructor
  · intro s t
    rw [hlength, hlength, hmeasure]
    omega
  · rintro p q ⟨t, rfl⟩
    rw [hlength, hlength, hmeasure, hmeasure, hmeasure]
    omega

variable (isMark budget) in
theorem le_attachTexts (hr : Weighted render frame)
    (ha : ∀ fields text, weight fields ≤ weight (attach fields text)) (projected : List Fields)
    (rows : List Row) : (render (projected ++ rows.map Row.identity)).length ≤
      (render (attachTexts isMark render attach budget projected rows).1).length := by
  have hstep {projected : List Fields} {row : Row} {rows : List Row} {kept : Fields}
      (hkept : weight row.identity ≤ weight kept)
      (ih : (render (projected ++ [kept] ++ rows.map Row.identity)).length ≤
        (render (attachTexts isMark render attach budget (projected ++ [kept]) rows).1).length) :
      (render (projected ++ (row :: rows).map Row.identity)).length ≤
        (render (attachTexts isMark render attach budget (projected ++ [kept]) rows).1).length := by
    refine le_trans ?_ ih
    rw [← List.append_cons, List.map_cons, hr, hr, weights_append, weights_append, weights_cons,
      weights_cons]
    omega
  induction rows generalizing projected with
  | nil => rw [attachTexts, List.map_nil, List.append_nil]
  | cons row rows ih =>
    obtain ⟨identity, text⟩ := row
    cases text with
    | none =>
      rw [attachTexts]
      exact hstep (le_refl _) (ih _)
    | some text =>
      rw [attachTexts]
      split
      · exact hstep (ha identity text) (ih _)
      · dsimp only
        split
        · next v _ => exact hstep (ha identity v) (ih _)
        · exact hstep (le_refl _) (ih _)

/-- The texts of some rows have a cut that fills the budget: those before it are whole, and
beside the identities of the rows after it there is no room for another one. -/
structure Filling (isMark : Char → Bool) (render : List Fields → Text)
    (attach : Fields → Text → Fields) (budget : ℤ) (before : List Row) (row : Row)
    (after rest : List Row) (text kept : Text) : Prop where
  text_eq : row.text = some text
  safe : SafePrefix isMark kept text
  full : budget < (render (before.map (wholeRow attach) ++
    attach row.identity text :: after.map Row.identity)).length
  filled : (render (before.map (wholeRow attach) ++
    attach row.identity (kept ++ truncationMarker) :: after.map Row.identity)).length = budget
  last : ∀ next ∈ rest.head?, budget <
    (render ((before ++ row :: after).map Row.identity ++ [next.identity])).length

def RowsFilled (isMark : Char → Bool) (render : List Fields → Text)
    (attach : Fields → Text → Fields) (rows : List Row) (budget : ℤ) : Prop :=
  ∃ before row after rest text kept, rows = before ++ row :: after ++ rest ∧
    Filling isMark render attach budget before row after rest text kept

theorem Filling.identities (hr : Weighted render frame)
    (ha : ∀ fields text, weight fields ≤ weight (attach fields text)) {before after rest : List Row}
    {row : Row} {text kept : Text}
    (h : Filling isMark render attach budget before row after rest text kept) :
    (render (before.map (wholeRow attach) ++ (row :: after).map Row.identity)).length ≤ budget ∧
      (render ((before ++ row :: after).map Row.identity)).length ≤ budget := by
  have h₁ := hr (before.map (wholeRow attach) ++ (row :: after).map Row.identity)
  have h₂ := hr ((before ++ row :: after).map Row.identity)
  have h₃ := hr (before.map (wholeRow attach) ++
    attach row.identity (kept ++ truncationMarker) :: after.map Row.identity)
  have h₄ := weights_identities ha before
  have h₅ := ha row.identity (kept ++ truncationMarker)
  have h₆ := h.filled
  have h₇ : weights ((before ++ row :: after).map Row.identity) =
      weights (before.map Row.identity) + weights ((row :: after).map Row.identity) := by
    rw [List.map_append, weights_append]
  have h₈ : weights ((row :: after).map Row.identity) =
      weight row.identity + weights (after.map Row.identity) := by
    rw [List.map_cons, weights_cons]
  rw [weights_append] at h₁
  rw [weights_append, weights_cons] at h₃
  omega

theorem projectRows_fills (hr : Weighted render frame) (hattach : Additive attach)
    (ha : ∀ fields text, weight fields ≤ weight (attach fields text)) {rows : List Row}
    (h : RowsFilled isMark render attach rows budget) :
    ((render (projectRows isMark render attach budget rows).1).length : ℤ) = budget := by
  obtain ⟨before, row, after, rest, text, kept, rfl, h⟩ := h
  obtain ⟨hbefore, hids⟩ := h.identities hr ha
  have hfirst : (before ++ row :: after ++ rest).take (before ++ row :: after).length =
      before ++ row :: after := List.take_left
  have hretained : retainRows render budget [] (before ++ row :: after ++ rest) =
      [] ++ ((before ++ row :: after ++ rest).take (before ++ row :: after).length).map
        Row.identity := by
    refine retainRows_take hr _ (List.prefix_append _ rest).length_le (by rw [hfirst]; exact hids) ?_
    intro next hnext
    rw [List.getElem?_append_right (le_refl _), Nat.sub_self, ← List.head?_eq_getElem?] at hnext
    rw [hfirst]
    exact h.last next hnext
  obtain ⟨v, hv, hlength⟩ := fitText_fills
    (grows_row hr hattach (before.map (wholeRow attach)) (after.map Row.identity) row.identity)
    h.full h.safe h.filled
  have hrun : projectRows isMark render attach budget (before ++ row :: after ++ rest) =
      attachTexts isMark render attach budget (before.map (wholeRow attach)) (row :: after) := by
    rw [projectRows, hretained, hfirst, List.nil_append, List.length_map, hfirst,
      attachTexts_append hr ha hbefore, List.nil_append]
  have hframe : (render []).length ≤ budget := by
    have h₁ := hr []
    have h₂ := hr ((before ++ row :: after).map Row.identity)
    have h₃ : weights [] = 0 := rfl
    omega
  have hwithin : ((render (projectRows isMark render attach budget
      (before ++ row :: after ++ rest)).1).length : ℤ) ≤ budget := projectRows_length _ hframe
  refine le_antisymm hwithin ?_
  obtain ⟨identity, text'⟩ := row
  obtain rfl : text' = some text := h.text_eq
  have hle := le_attachTexts isMark budget hr ha
    (before.map (wholeRow attach) ++ [attach identity v]) after
  rw [hrun, attachTexts, if_neg (not_le.mpr h.full), hv]
  dsimp only at hlength ⊢
  rw [← List.append_cons] at hle
  omega

end

end

theorem meets_of_full {s : Share} {d : Demand} (hbase : s.base = d.base)
    (hwithin : ∀ u, 0 ≤ u → s.size (s.base + u) ≤ s.base + u)
    (hfull : ∀ u, 0 ≤ u → d.whole ≤ s.base + u → s.size (s.base + u) = d.whole)
    (hfilled : d.filled → s.size s.base = s.base) : s.Meets d where
  base := hbase
  within := hwithin
  most u hu := by
    by_cases hle : d.whole ≤ s.base + u
    · exact (hfull u hu hle).le
    · exact (hwithin u hu).trans (not_le.mp hle).le
  whole hle u hu := hfull u hu (hbase ▸ hle.trans (le_add_of_nonneg_right hu))
  filled := hfilled

section

variable (isMark : Char → Bool) (p : PlanContext)

def wholeGoal : ℤ :=
  (renderGoalAnalysis p.analysis p.goal.objective.text (p.goal.constraints.map (·.text))).length

def wholeTasks : ℤ :=
  (renderList p.tasks (p.tasks.items.map fun t ↦ wholeRow describe (taskRow t))).length

def wholeProjects : ℤ :=
  (renderList p.projects (p.projects.items.map fun q ↦ wholeRow describe (projectRow q))).length

def wholeEvidence : ℤ :=
  (renderGrounding p.knowledge
    (p.knowledge.evidence.map fun e ↦ wholeRow attachExcerpt (evidenceRow e))).length

def wholeFeedback : ℤ :=
  match p.approvalFeedback with
  | none => (dumps .null).length
  | some feedback => (dumps (.str feedback)).length

def goalDemand : Demand :=
  ⟨promptGoalAnalysisCharacters, wholeGoal p,
    GoalFilled isMark p.goal p.analysis promptGoalAnalysisCharacters⟩

def tasksDemand : Demand :=
  ⟨promptTasksCharacters, wholeTasks p,
    RowsFilled isMark (renderList p.tasks) describe (p.tasks.items.map taskRow)
      promptTasksCharacters⟩

def projectsDemand : Demand :=
  ⟨promptProjectsCharacters, wholeProjects p,
    RowsFilled isMark (renderList p.projects) describe (p.projects.items.map projectRow)
      promptProjectsCharacters⟩

def evidenceDemand : Demand :=
  ⟨promptGroundingCharacters, min (wholeEvidence p) maxGroundingContextCharacters,
    RowsFilled isMark (renderGrounding p.knowledge) attachExcerpt
      (p.knowledge.evidence.map evidenceRow) promptGroundingCharacters⟩

def demands : List Demand :=
  [goalDemand isMark p, tasksDemand isMark p, projectsDemand isMark p, evidenceDemand isMark p]

/-- The sections have room: each is whole in its own budget, or has a cut that fills it, or can
be had whole beside all that comes before it and the own budgets of the others. -/
structure Room : Prop where
  frames : FramesFit p
  affordable : Affordable sectionBudgetTotal
    (min (wholeFeedback p) promptRevisionFeedbackCharacters) (demands isMark p)

variable {isMark p}

variable (isMark p) in
theorem feedbackSize_le :
    feedbackSize isMark p ≤ min (wholeFeedback p) promptRevisionFeedbackCharacters := by
  have hsome : (buildFeedback isMark p.approvalFeedback promptRevisionFeedbackCharacters).isSome =
      true := buildFeedback_isSome p.approvalFeedback
  obtain ⟨s, hs⟩ := Option.isSome_iff_exists.mp hsome
  have hwithin := buildFeedback_length (by decide) hs
  rw [feedbackSize, hs]
  refine le_min ?_ hwithin
  by_cases hle : wholeFeedback p ≤ promptRevisionFeedbackCharacters
  · unfold wholeFeedback at hle ⊢
    cases hf : p.approvalFeedback with
    | none =>
      rw [hf] at hs
      cases hs
      exact le_refl _
    | some feedback =>
      rw [hf] at hs hle
      have hfull : fitText isMark feedback promptRevisionFeedbackCharacters
          (fun s ↦ dumps (.str s)) = (some feedback, false) := fitText_full hle
      rw [buildFeedback, hfull] at hs
      cases hs
      exact le_refl _
  · exact hwithin.trans (not_le.mp hle).le

theorem goal_meets : (goalShare isMark p).Meets (goalDemand isMark p) := by
  refine meets_of_full rfl (fun u hu ↦ goalShare_within hu) (fun u hu hle ↦ ?_) fun hfilled ↦ ?_
  · rw [goalShare_size, buildGoal, buildGoalAnalysis_full hle]
    rfl
  · have hsome : (buildGoal isMark p promptGoalAnalysisCharacters).isSome = true :=
      buildGoalAnalysis_isSome (by decide)
    obtain ⟨s, hs⟩ := Option.isSome_iff_exists.mp hsome
    have hsize := buildGoalAnalysis_fills hfilled hs
    have hbase : (goalShare isMark p).base = promptGoalAnalysisCharacters := rfl
    rw [goalShare_size, hbase, hs]
    exact hsize

theorem list_meets {α : Type} {response : ListResponse α} {row : α → Row} {base : ℤ}
    (hframe : (renderList response []).length ≤ base) :
    (⟨base, fun b ↦ (buildListProjection isMark response row b).size⟩ : Share).Meets
      ⟨base, (renderList response (response.items.map fun a ↦ wholeRow describe (row a))).length,
        RowsFilled isMark (renderList response) describe (response.items.map row) base⟩ := by
  refine meets_of_full rfl
    (fun u hu ↦ buildListProjection_length row (hframe.trans (le_add_of_nonneg_right hu)))
    (fun u hu hle ↦ ?_) fun hfilled ↦ ?_
  · exact congrArg (fun s : Text ↦ (s.length : ℤ)) (buildListProjection_full hle)
  · exact projectRows_fills (renderList_weighted response) additive_describe
      (fun fields _ ↦ weight_le_append fields _) hfilled

theorem buildGrounding_full {budget : ℤ} (hmin : 1 ≤ budget)
    (hmax : budget ≤ maxGroundingContextCharacters) (h : wholeEvidence p ≤ budget) :
    PromptRedistribution.sizeOf (buildGrounding isMark p.knowledge budget) = wholeEvidence p := by
  have hfit : ((renderGrounding p.knowledge
      ((p.knowledge.evidence.map evidenceRow).map (wholeRow attachExcerpt))).length : ℤ) ≤
        budget := by
    rw [List.map_map]
    exact h
  have hall : projectRows isMark (renderGrounding p.knowledge) attachExcerpt budget
      (p.knowledge.evidence.map evidenceRow) = (_, 0) :=
    projectRows_all (renderGrounding_weighted p.knowledge)
      (fun fields _ ↦ weight_le_append fields _) hfit
  rw [buildGrounding, if_pos ⟨hmin, hmax⟩, hall, List.map_map]
  rfl

theorem evidence_meets (h : FramesFit p) :
    (evidenceShare isMark p).Meets (evidenceDemand isMark p) := by
  have hbase : (evidenceShare isMark p).base = promptGroundingCharacters := rfl
  have hwithin (u : ℤ) (hu : 0 ≤ u) := evidenceShare_within isMark h hu
  have hbudget {u : ℤ} (hu : 0 ≤ u) :
      1 ≤ min (promptGroundingCharacters + u) maxGroundingContextCharacters :=
    le_min ((by decide : (1 : ℤ) ≤ promptGroundingCharacters).trans (le_add_of_nonneg_right hu))
      (by decide)
  have hfull {u : ℤ} (hu : 0 ≤ u) (hle : wholeEvidence p ≤
      min (promptGroundingCharacters + u) maxGroundingContextCharacters) :
      (evidenceShare isMark p).size (promptGroundingCharacters + u) = wholeEvidence p := by
    rw [evidenceShare_size]
    exact buildGrounding_full (hbudget hu) (min_le_right _ _) hle
  have hcapped (u : ℤ) (hu : 0 ≤ u) :
      (evidenceShare isMark p).size (promptGroundingCharacters + u) ≤
        min (promptGroundingCharacters + u) maxGroundingContextCharacters := by
    have hsome : (buildEvidence isMark p (promptGroundingCharacters + u)).isSome = true :=
      buildGrounding_isSome ⟨hbudget hu, min_le_right _ _⟩
    obtain ⟨s, hs⟩ := Option.isSome_iff_exists.mp hsome
    have hmin : promptGroundingCharacters ≤
        min (promptGroundingCharacters + u) maxGroundingContextCharacters :=
      le_min (le_add_of_nonneg_right hu) (by decide)
    rw [evidenceShare_size, hs]
    exact buildGrounding_length (h.grounding.trans hmin) hs
  refine ⟨rfl, hwithin, fun u hu ↦ ?_, fun hle u hu ↦ ?_, fun hfilled ↦ ?_⟩
  · refine le_min ?_ ((hcapped u hu).trans (min_le_right _ _))
    by_cases hle : wholeEvidence p ≤
        min (promptGroundingCharacters + u) maxGroundingContextCharacters
    · exact (hfull hu hle).le
    · exact (hcapped u hu).trans (not_le.mp hle).le
  · have hbelow : promptGroundingCharacters < maxGroundingContextCharacters := by decide
    have hwhole : wholeEvidence p ≤ promptGroundingCharacters :=
      (min_le_iff.mp hle).resolve_right (not_le.mpr hbelow)
    have hevidence : (evidenceDemand isMark p).whole = wholeEvidence p :=
      min_eq_left (hwhole.trans hbelow.le)
    rw [hevidence]
    exact hfull hu (le_min (hwhole.trans (le_add_of_nonneg_right hu)) (hwhole.trans hbelow.le))
  · have hrows := projectRows_fills (renderGrounding_weighted p.knowledge) additive_attachExcerpt
      (fun fields _ ↦ weight_le_append fields _) hfilled
    rw [hbase, evidenceShare_size, buildEvidence_base, buildGrounding, if_pos (by decide)]
    exact hrows

theorem shares_meet (h : FramesFit p) :
    List.Forall₂ Share.Meets (shares isMark p) (demands isMark p) :=
  .cons goal_meets (.cons (list_meets h.tasks) (.cons (list_meets h.projects)
    (.cons (evidence_meets h) .nil)))

variable (p) in
/-- Nothing beside the evidence is cut or left out in the first pass. -/
structure Uncut : Prop where
  frames : FramesFit p
  feedback : wholeFeedback p ≤ promptRevisionFeedbackCharacters
  goal : wholeGoal p ≤ promptGoalAnalysisCharacters
  projects : wholeProjects p ≤ promptProjectsCharacters
  tasks : wholeTasks p ≤ promptTasksCharacters

theorem budgets_of_uncut (h : Uncut p) {r : Redistribution} (hr : redistribute isMark p = some r) :
    promptGoalAnalysisCharacters ≤ r.goalBudget ∧ promptTasksCharacters ≤ r.tasksBudget ∧
      promptProjectsCharacters ≤ r.projectsBudget ∧
        promptGroundingCharacters ≤ r.groundingBudget := by
  have hpool := firstPool_nonneg isMark h.frames
  have hgoal : (goalShare isMark p).growth (firstPool isMark p) = 0 :=
    goal_meets.growth_whole h.goal hpool
  have htasks : (tasksShare isMark p).growth (firstPool isMark p) = 0 :=
    (list_meets h.frames.tasks).growth_whole h.tasks hpool
  have hprojects : (projectsShare isMark p).growth (firstPool isMark p) = 0 :=
    (list_meets h.frames.projects).growth_whole h.projects hpool
  apply budgets_of_pools hr
  rw [(redistribute_some hr).1]
  simp only [shares, pools, hgoal, htasks, hprojects, sub_zero, List.dropLast, List.forall_mem_cons]
  exact ⟨hpool, hpool, hpool, hpool, by simp⟩

theorem slackKept_of_room (h : Room isMark p) : SlackKept isMark p := by
  have hpool := firstPool_nonneg isMark h.frames
  have hfeedback := feedbackSize_le isMark p
  refine ⟨hpool, keepSlack_of_affordable (shares_meet h.frames) hpool ?_ h.affordable⟩
  unfold firstPool
  linarith

theorem room_of_uncut (h : Uncut p) (hevidence : wholeEvidence p ≤ promptGroundingCharacters) :
    Room isMark p :=
  ⟨h.frames, .inl h.goal, .inl h.tasks, .inl h.projects,
    .inl ((min_le_left _ _).trans hevidence), trivial⟩

/-- The prompt is built, by a redistribution that never overdraws its pool, and within its
limits, where its sections have room. -/
theorem sound_of_room (h : Room isMark p) :
    ∃ r input, redistribute isMark p = some r ∧
      buildBudgetedAgentPlanInput isMark p = some input ∧ Sound r ∧
      (input.length : ℤ) ≤ maxPromptInputCharacters - promptFinalSafetyMarginCharacters :=
  (sound_iff_slackKept isMark p).mpr (slackKept_of_room h)

end

def longerTask : PublicTask := { longTask with description := some (List.replicate 4900 'a') }

/-- A goal that is whole, a task that fills its budget, and documents that need some of what the
others leave. -/
def roomyContext : PlanContext where
  goal := longGoal
  analysis := longGoalAnalysis
  projects := noProjects
  tasks := ⟨[longerTask], 1, 20, 1, 1, firstPage_bounds, by decide⟩
  knowledge := ⟨[document 0, document 1, document 2], by decide, by decide +kernel⟩
  approvalFeedback := none

theorem escaped_replicate (n : ℕ) : escaped (List.replicate n 'a') = n := by
  induction n with
  | zero => rfl
  | succ n ih =>
    rw [List.replicate_succ', escaped_append, ih]
    rfl

theorem longerTask_length (description : Text) :
    (renderList roomyContext.tasks [describe (taskRow longerTask).identity description]).length =
      372 + escaped description := by
  have hframe : (renderList roomyContext.tasks []).length = 56 := by decide +kernel
  have hrow : weight (describe (taskRow longerTask).identity []) = 317 := by decide +kernel
  have hlength := renderList_weighted roomyContext.tasks
    [describe (taskRow longerTask).identity description]
  have hweight := weight_describe (taskRow longerTask).identity description
  have hone : weights [describe (taskRow longerTask).identity description] =
      weight (describe (taskRow longerTask).identity description) := List.sum_singleton
  omega

theorem longerTask_cut_length (kept : Text) : (renderList roomyContext.tasks
    [describe (taskRow longerTask).identity (kept ++ truncationMarker)]).length =
      372 + (escaped kept + 12) := by
  have hmarker : escaped truncationMarker = 12 := by decide
  rw [longerTask_length, escaped_append, hmarker]

theorem roomyContext_wholes : wholeFeedback roomyContext = 4 ∧ wholeGoal roomyContext = 3856 ∧
    wholeTasks roomyContext = 5272 ∧ wholeProjects roomyContext = 56 ∧
    wholeEvidence roomyContext = 5161 := by
  have htasks := longerTask_length (List.replicate 4900 'a')
  rw [escaped_replicate] at htasks
  have hframe : (renderGrounding roomyContext.knowledge []).length = 212 := by decide +kernel
  have hlength := renderGrounding_weighted roomyContext.knowledge
    (roomyContext.knowledge.evidence.map fun e ↦ wholeRow attachExcerpt (evidenceRow e))
  have hweights : weights (roomyContext.knowledge.evidence.map
      fun e ↦ wholeRow attachExcerpt (evidenceRow e)) = 3 * 1650 := by
    have hdocument := document_weight
    simp [weights, roomyContext, hdocument]
  refine ⟨rfl, congrArg Int.ofNat longGoal_length, congrArg Int.ofNat htasks,
    congrArg Int.ofNat noProjects_length, ?_⟩
  rw [wholeEvidence]
  omega

theorem roomyContext_filled : RowsFilled (fun _ ↦ false) (renderList roomyContext.tasks) describe
    (roomyContext.tasks.items.map taskRow) promptTasksCharacters := by
  have hwhole := longerTask_length (List.replicate 4900 'a')
  have hcut := longerTask_cut_length (List.replicate 4616 'a')
  rw [escaped_replicate] at hwhole hcut
  have hkept : List.replicate 4616 'a' <+: List.replicate 4900 'a' :=
    ⟨List.replicate 284 'a', List.replicate_append_replicate⟩
  refine ⟨[], taskRow longerTask, [], [], List.replicate 4900 'a', List.replicate 4616 'a', rfl,
    rfl, ⟨hkept, ?_, .inr fun c hc ↦ ?_⟩, ?_, congrArg Int.ofNat hcut,
    fun _ h ↦ absurd h (by simp)⟩
  · rw [List.getLast?_replicate]
    decide
  · obtain rfl := List.eq_of_mem_replicate (List.mem_of_getElem? hc)
    decide
  · exact lt_of_lt_of_eq (by decide) (congrArg Int.ofNat hwhole).symm

theorem roomyContext_room : Room (fun _ ↦ false) roomyContext := by
  obtain ⟨hfeedback, hgoal, htasks, hprojects, hevidence⟩ := roomyContext_wholes
  refine ⟨⟨by decide +kernel, by decide +kernel, by decide +kernel⟩, ?_⟩
  refine ⟨.inl ?_, .inr (.inl roomyContext_filled), .inl ?_, .inr (.inr ?_), trivial⟩
  · change wholeGoal roomyContext ≤ 4000
    omega
  · change wholeProjects roomyContext ≤ 3000
    omega
  · change min (wholeFeedback roomyContext) 1100 + wholeGoal roomyContext +
      wholeTasks roomyContext + wholeProjects roomyContext +
        min (wholeEvidence roomyContext) 12000 + 0 ≤ 18100
    omega

theorem sound_of_room_sample :
    ∃ r input, redistribute (fun _ ↦ false) roomyContext = some r ∧
      buildBudgetedAgentPlanInput (fun _ ↦ false) roomyContext = some input ∧ Sound r ∧
      (input.length : ℤ) ≤ maxPromptInputCharacters - promptFinalSafetyMarginCharacters :=
  sound_of_room roomyContext_room

end LearningTasks.Agent.PromptRoom
