import LearningTasks.Agent.PromptBudget
import LearningTasks.Library.SerializedLength

namespace LearningTasks.Agent.PromptSections

open Library.Strings Library.Serialization Library.SerializedLength Library.Bisection
  Schemas.Scalars Schemas.Task Schemas.Project Grounding Agent.Schemas State
  PromptBudget

section

variable (isMark : Char → Bool)

theorem truncated_zero (value : Text) : truncated isMark value 0 = truncationMarker := by
  cases value with
  | nil => rfl
  | cons c cs => rfl

variable {isMark}

theorem fitText_isSome {value : Text} {budget : ℤ} {render : Text → Text}
    (h : (render truncationMarker).length ≤ budget) :
    (fitText isMark value budget render).1.isSome = true := by
  unfold fitText
  split
  · rfl
  · rw [Option.isSome_map]
    apply bisect_isSome
    left
    refine ⟨Nat.succ_pos _, ?_⟩
    rw [truncated_zero isMark value]
    exact decide_eq_true h

theorem fitText_length {value v : Text} {budget : ℤ} {render : Text → Text}
    (h : (fitText isMark value budget render).1 = some v) : (render v).length ≤ budget := by
  unfold fitText at h
  split at h
  · next hfull =>
    cases h
    exact hfull
  · obtain ⟨n, hn, rfl⟩ := Option.map_eq_some_iff.mp h
    have hb : decide (((render (truncated isMark value n)).length : ℤ) ≤ budget) = true := by
      refine bisect_fits ?_ n hn
      intro m hm
      cases hm
    exact of_decide_eq_true hb

end

theorem renderGoalAnalysis_length (analysis : AgentGoalAnalysis) (objective : Text)
    (constraints : List Text) :
    (renderGoalAnalysis analysis objective constraints).length =
      51 + escaped objective + (dumps (.arr (constraints.map .str))).length +
        (dumps (.arr (analysis.requiredContext.map fun k ↦ .str k.value))).length := by
  have h₁ : escaped "objective".toList = 9 := by decide
  have h₂ : escaped "constraints".toList = 11 := by decide
  have h₃ : escaped "required_context".toList = 16 := by decide
  rw [renderGoalAnalysis, dumps_obj_length]
  simp only [fieldsLength_cons, fieldsLength_nil, h₁, h₂, h₃, dumps_str_length]
  omega

theorem renderGoalAnalysis_append (analysis : AgentGoalAnalysis) (objective : Text)
    (constraints more : List Text) : (renderGoalAnalysis analysis objective constraints).length ≤
      (renderGoalAnalysis analysis objective (constraints ++ more)).length := by
  simp only [renderGoalAnalysis_length, dumps_arr_length, List.map_append, itemsLength_append]
  omega

theorem requiredContext_length (analysis : AgentGoalAnalysis) :
    (dumps (.arr (analysis.requiredContext.map fun k ↦ .str k.value))).length ≤ 37 := by
  have hkind : ∀ k : AgentContextKind, (dumps (.str k.value)).length ≤ 11 := by
    intro k
    cases k <;> decide
  have hitems : ∀ ks : List AgentContextKind,
      itemsLength (ks.map fun k ↦ .str k.value) ≤ 12 * ks.length := by
    intro ks
    induction ks with
    | nil => rfl
    | cons k ks ih =>
      have := hkind k
      rw [List.map_cons, itemsLength_cons, List.length_cons]
      omega
  have hsize := analysis.contextSize.2
  have := hitems analysis.requiredContext
  rw [dumps_arr_length]
  omega

theorem marker_length : (dumps (.str truncationMarker)).length = 14 := by decide

section

variable {isMark : Char → Bool}

theorem buildGoalAnalysis_isSome {goal : PlanningGoal} {analysis : AgentGoalAnalysis} {budget : ℤ}
    (h : 104 ≤ budget) : (buildGoalAnalysis isMark goal analysis budget).isSome = true := by
  have hmarker : escaped truncationMarker = 12 := by decide
  rw [buildGoalAnalysis, Option.isSome_map]
  apply fitText_isSome
  have hc := requiredContext_length analysis
  rw [renderGoalAnalysis_length, hmarker, List.map_nil, dumps_arr_length, itemsLength_nil]
  omega

theorem buildFeedback_isSome (value : Option Text) :
    (buildFeedback isMark value promptRevisionFeedbackCharacters).isSome = true := by
  cases value with
  | none => rfl
  | some value =>
    rw [buildFeedback, Option.isSome_map]
    apply fitText_isSome
    rw [marker_length]
    decide

theorem buildGrounding_isSome {context : GroundedKnowledgeContext} {budget : ℤ}
    (h : 1 ≤ budget ∧ budget ≤ maxGroundingContextCharacters) :
    (buildGrounding isMark context budget).isSome = true := by
  rw [buildGrounding, if_pos h]
  rfl

theorem fitText_full {value : Text} {budget : ℤ} {render : Text → Text}
    (h : (render value).length ≤ budget) : fitText isMark value budget render = (some value, false) := by
  rw [fitText, if_pos h]

theorem includeConstraints_all {analysis : AgentGoalAnalysis} {objective : Text} {budget : ℤ}
    {included constraints : List Text}
    (h : (renderGoalAnalysis analysis objective (included ++ constraints)).length ≤ budget) :
    includeConstraints isMark (renderGoalAnalysis analysis objective) budget included constraints =
      (included ++ constraints, false) := by
  induction constraints generalizing included with
  | nil => rw [includeConstraints, List.append_nil]
  | cons c cs ih =>
    rw [List.append_cons] at h
    have hle := renderGoalAnalysis_append analysis objective (included ++ [c]) cs
    rw [includeConstraints, if_pos (by omega), ih h, List.append_cons included c cs]

theorem buildGoalAnalysis_full {goal : PlanningGoal} {analysis : AgentGoalAnalysis} {budget : ℤ}
    (h : (renderGoalAnalysis analysis goal.objective.text (goal.constraints.map (·.text))).length ≤
      budget) : buildGoalAnalysis isMark goal analysis budget =
        some ⟨renderGoalAnalysis analysis goal.objective.text (goal.constraints.map (·.text)),
          goalManifest false false 0⟩ := by
  have hle := renderGoalAnalysis_append analysis goal.objective.text []
    (goal.constraints.map (·.text))
  rw [List.nil_append] at hle
  have hobjective : fitText isMark goal.objective.text budget
      (fun candidate ↦ renderGoalAnalysis analysis candidate []) =
        (some goal.objective.text, false) := fitText_full (le_trans (Int.ofNat_le.mpr hle) h)
  have hall : includeConstraints isMark (renderGoalAnalysis analysis goal.objective.text) budget []
      (goal.constraints.map (·.text)) = (goal.constraints.map (·.text), false) :=
    includeConstraints_all h
  rw [buildGoalAnalysis, hobjective]
  simp only [Option.map_some, hall, List.length_map, Nat.sub_self, Bool.or_self, gt_iff_lt,
    lt_irrefl, decide_false]

def weight (fields : Fields) : ℕ := (dumps (.obj fields)).length + 1

def weights (items : List Fields) : ℕ := (items.map weight).sum

theorem weights_append (items more : List Fields) :
    weights (items ++ more) = weights items + weights more := by
  simp [weights]

theorem weights_cons (fields : Fields) (items : List Fields) :
    weights (fields :: items) = weight fields + weights items := by
  simp [weights]

theorem weights_const {items : List Fields} {w : ℕ} (h : ∀ f ∈ items, weight f = w) :
    weights items = w * items.length := by
  induction items with
  | nil => rfl
  | cons f fs ih =>
    rw [weights_cons, h f List.mem_cons_self, ih fun g hg ↦ h g (List.mem_cons_of_mem f hg),
      List.length_cons]
    ring

def Weighted (render : List Fields → Text) (frame : ℕ) : Prop :=
  ∀ items, (render items).length = frame + (weights items - 1)

theorem itemsLength_weights (items : List Fields) : itemsLength (items.map .obj) = weights items := by
  induction items with
  | nil => rfl
  | cons fields items ih =>
    rw [List.map_cons, itemsLength_cons, weights_cons, ih, weight]

def wholeRow (attach : Fields → Text → Fields) (row : Row) : Fields :=
  match row.text with
  | none => row.identity
  | some text => attach row.identity text

section

variable {render : List Fields → Text} {frame : ℕ} {attach : Fields → Text → Fields} {budget : ℤ}

theorem retainRows_take (hr : Weighted render frame) {projected : List Fields} {rows : List Row}
    (k : ℕ) (hk : k ≤ rows.length)
    (hfit : (render (projected ++ (rows.take k).map Row.identity)).length ≤ budget)
    (hstop : ∀ row ∈ rows[k]?, budget <
      (render (projected ++ (rows.take k).map Row.identity ++ [row.identity])).length) :
    retainRows render budget projected rows = projected ++ (rows.take k).map Row.identity := by
  induction k generalizing projected rows with
  | zero =>
    cases rows with
    | nil => simp [retainRows]
    | cons row rows =>
      have h := hstop row (by simp)
      simp only [List.take_zero, List.map_nil, List.append_nil] at h ⊢
      rw [retainRows, if_neg (by omega)]
  | succ k ih =>
    cases rows with
    | nil => simp at hk
    | cons row rows =>
      simp only [List.take_succ_cons, List.map_cons, List.getElem?_cons_succ] at hfit hstop ⊢
      rw [List.append_cons projected row.identity] at hfit ⊢
      have hle : (render (projected ++ [row.identity])).length ≤ budget := by
        have h₁ := hr (projected ++ [row.identity])
        have h₂ := hr (projected ++ [row.identity] ++ (rows.take k).map Row.identity)
        rw [weights_append] at h₂
        omega
      rw [retainRows, if_pos hle]
      refine ih (by simpa using hk) hfit ?_
      intro next hnext
      have h := hstop next hnext
      rwa [List.append_cons projected row.identity] at h

theorem weights_identities (ha : ∀ fields text, weight fields ≤ weight (attach fields text))
    (rows : List Row) :
    weights (rows.map Row.identity) ≤ weights (rows.map (wholeRow attach)) := by
  induction rows with
  | nil => exact le_refl _
  | cons row rows ih =>
    have hrow : weight row.identity ≤ weight (wholeRow attach row) := by
      unfold wholeRow
      split
      · exact le_refl _
      · exact ha _ _
    simp only [List.map_cons, weights_cons]
    omega

theorem attachTexts_append (hr : Weighted render frame)
    (ha : ∀ fields text, weight fields ≤ weight (attach fields text)) {projected : List Fields}
    {before rest : List Row}
    (h : (render (projected ++ before.map (wholeRow attach) ++ rest.map Row.identity)).length ≤
      budget) :
    attachTexts isMark render attach budget projected (before ++ rest) =
      attachTexts isMark render attach budget (projected ++ before.map (wholeRow attach)) rest := by
  induction before generalizing projected with
  | nil => rw [List.nil_append, List.map_nil, List.append_nil]
  | cons row before ih =>
    obtain ⟨identity, text⟩ := row
    rw [List.cons_append]
    rw [List.map_cons, List.append_cons] at h ⊢
    cases text with
    | none =>
      rw [attachTexts]
      exact ih h
    | some text =>
      change (render (projected ++ [attach identity text] ++ _ ++ _)).length ≤ budget at h
      have hle : (render (projected ++ attach identity text ::
          (before ++ rest).map Row.identity)).length ≤ budget := by
        have h₁ := hr (projected ++ attach identity text :: (before ++ rest).map Row.identity)
        have h₂ := hr (projected ++ [attach identity text] ++ before.map (wholeRow attach) ++
          rest.map Row.identity)
        have h₃ := weights_identities ha before
        have h₄ : weights [] = 0 := rfl
        have h₅ : weights ((before ++ rest).map Row.identity) =
            weights (before.map Row.identity) + weights (rest.map Row.identity) := by
          rw [List.map_append, weights_append]
        rw [weights_append, weights_cons] at h₁
        rw [weights_append, weights_append, weights_append, weights_cons] at h₂
        omega
      rw [attachTexts, if_pos hle]
      exact ih h

theorem attachTexts_full (hr : Weighted render frame)
    (ha : ∀ fields text, weight fields ≤ weight (attach fields text)) {projected : List Fields}
    {rows : List Row} (h : (render (projected ++ rows.map (wholeRow attach))).length ≤ budget) :
    attachTexts isMark render attach budget projected rows =
      (projected ++ rows.map (wholeRow attach), 0) := by
  rw [← List.append_nil rows]
  rw [attachTexts_append hr ha (by rwa [List.map_nil, List.append_nil]), attachTexts,
    List.append_nil]

theorem projectRows_take (hr : Weighted render frame)
    (ha : ∀ fields text, weight fields ≤ weight (attach fields text)) {rows : List Row} (k : ℕ)
    (hk : k ≤ rows.length)
    (hfit : (render ((rows.take k).map (wholeRow attach))).length ≤ budget)
    (hids : (render ((rows.take k).map Row.identity)).length ≤ budget)
    (hstop : ∀ row ∈ rows[k]?, budget <
      (render ((rows.take k).map Row.identity ++ [row.identity])).length) :
    projectRows isMark render attach budget rows = ((rows.take k).map (wholeRow attach), 0) := by
  have hretained : retainRows render budget [] rows = [] ++ (rows.take k).map Row.identity :=
    retainRows_take hr k hk hids hstop
  rw [List.nil_append] at hretained
  rw [projectRows, hretained, List.length_map, List.length_take, min_eq_left hk]
  exact attachTexts_full hr ha hfit

theorem projectRows_all (hr : Weighted render frame)
    (ha : ∀ fields text, weight fields ≤ weight (attach fields text)) {rows : List Row}
    (hfit : (render (rows.map (wholeRow attach))).length ≤ budget) :
    projectRows isMark render attach budget rows = (rows.map (wholeRow attach), 0) := by
  have hids := weights_identities ha rows
  have h₁ := hr (rows.map Row.identity)
  have h₂ := hr (rows.map (wholeRow attach))
  have hfit' : ((render ((rows.take rows.length).map (wholeRow attach))).length : ℤ) ≤ budget := by
    rwa [List.take_length]
  have hids' : ((render ((rows.take rows.length).map Row.identity)).length : ℤ) ≤ budget := by
    rw [List.take_length]
    omega
  have h : projectRows isMark render attach budget rows =
      ((rows.take rows.length).map (wholeRow attach), 0) := by
    refine projectRows_take hr ha rows.length (le_refl _) hfit' hids' ?_
    intro row hrow
    rw [List.getElem?_length] at hrow
    cases hrow
  rwa [List.take_length] at h

end

theorem renderList_weighted {α : Type} (response : ListResponse α) :
    Weighted (renderList response) (renderList response []).length := by
  intro items
  simp only [renderList, dumps_obj_length, fieldsLength_cons, dumps_arr_length,
    itemsLength_weights, List.map_nil, itemsLength_nil]
  omega

theorem renderGrounding_weighted (context : GroundedKnowledgeContext) :
    Weighted (renderGrounding context) (renderGrounding context []).length := by
  intro items
  simp only [renderGrounding, List.length_append, List.length_cons, dumps_obj_length,
    fieldsLength_cons, dumps_arr_length, itemsLength_weights, List.map_nil, itemsLength_nil]
  omega

theorem weight_le_append (fields more : Fields) : weight fields ≤ weight (fields ++ more) := by
  simp only [weight, dumps_obj_length, fieldsLength_append]
  omega

theorem weight_append {fields : Fields} (h : fields ≠ []) (more : Fields) :
    weight (fields ++ more) = weight fields + fieldsLength more := by
  have hpos : 0 < fieldsLength fields := by
    obtain ⟨f, fs, rfl⟩ := List.exists_cons_of_ne_nil h
    rw [fieldsLength_cons]
    omega
  simp only [weight, dumps_obj_length, fieldsLength_append]
  omega

theorem buildListProjection_full {α : Type} {response : ListResponse α} {row : α → Row}
    {budget : ℤ}
    (h : (renderList response (response.items.map fun a ↦ wholeRow describe (row a))).length ≤ budget) :
    (buildListProjection isMark response row budget).serialized =
      renderList response (response.items.map fun a ↦ wholeRow describe (row a)) := by
  have hfit : ((renderList response ((response.items.map row).map (wholeRow describe))).length : ℤ) ≤
      budget := by
    rw [List.map_map]
    exact h
  have hall : projectRows isMark (renderList response) describe budget (response.items.map row) =
      ((response.items.map row).map (wholeRow describe), 0) :=
    projectRows_all (renderList_weighted response) (fun fields _ ↦ weight_le_append fields _) hfit
  rw [buildListProjection, hall, List.map_map]
  rfl

theorem includeConstraints_length {render : List Text → Text} {budget : ℤ}
    {included : List Text} (constraints : List Text) (h : (render included).length ≤ budget) :
    (render (includeConstraints isMark render budget included constraints).1).length ≤ budget := by
  induction constraints generalizing included with
  | nil => exact h
  | cons c cs ih =>
    rw [includeConstraints]
    split
    · next hfit => exact ih hfit
    · split
      · next candidate hc => exact fitText_length hc
      · exact h

theorem buildGoalAnalysis_some {goal : PlanningGoal} {analysis : AgentGoalAnalysis} {budget : ℤ}
    {s : BudgetedSection} (h : buildGoalAnalysis isMark goal analysis budget = some s) :
    ∃ objective, (fitText isMark goal.objective.text budget
        fun candidate ↦ renderGoalAnalysis analysis candidate []).1 = some objective ∧
      s.serialized = renderGoalAnalysis analysis objective (includeConstraints isMark
        (renderGoalAnalysis analysis objective) budget [] (goal.constraints.map (·.text))).1 := by
  unfold buildGoalAnalysis at h
  cases hfit : fitText isMark goal.objective.text budget
    fun candidate ↦ renderGoalAnalysis analysis candidate [] with
  | mk fitted shortened =>
    rw [hfit] at h
    obtain ⟨objective, rfl, rfl⟩ := Option.map_eq_some_iff.mp h
    exact ⟨objective, rfl, rfl⟩

theorem buildGoalAnalysis_length {goal : PlanningGoal} {analysis : AgentGoalAnalysis} {budget : ℤ}
    {s : BudgetedSection} (h : buildGoalAnalysis isMark goal analysis budget = some s) :
    s.size ≤ budget := by
  obtain ⟨objective, hobjective, hs⟩ := buildGoalAnalysis_some h
  have hl := fitText_length hobjective
  rw [BudgetedSection.size, hs]
  exact includeConstraints_length _ hl

theorem buildFeedback_length {value : Option Text} {budget : ℤ} {s : BudgetedSection}
    (hb : 4 ≤ budget) (h : buildFeedback isMark value budget = some s) : s.size ≤ budget := by
  cases value with
  | none =>
    cases h
    exact hb
  | some value =>
    unfold buildFeedback at h
    cases hfit : fitText isMark value budget fun s ↦ dumps (.str s) with
    | mk fitted shortened =>
      simp only [hfit] at h
      obtain ⟨feedback, rfl, rfl⟩ := Option.map_eq_some_iff.mp h
      have hfeedback : (fitText isMark value budget fun s ↦ dumps (.str s)).1 = some feedback := by
        rw [hfit]
      have hl := fitText_length hfeedback
      exact hl

theorem retainRows_length {render : List Fields → Text} {budget : ℤ} {projected : List Fields}
    (rows : List Row) (h : (render projected).length ≤ budget) :
    (render (retainRows render budget projected rows)).length ≤ budget := by
  induction rows generalizing projected with
  | nil => exact h
  | cons row rows ih =>
    rw [retainRows]
    split
    · next hfit => exact ih hfit
    · exact h

theorem retainRows_prefix (render : List Fields → Text) (budget : ℤ) (projected : List Fields)
    (rows : List Row) : ∃ k ≤ rows.length,
      retainRows render budget projected rows = projected ++ (rows.take k).map Row.identity := by
  induction rows generalizing projected with
  | nil => exact ⟨0, le_refl _, by simp [retainRows]⟩
  | cons row rows ih =>
    rw [retainRows]
    split
    · obtain ⟨k, hk, h⟩ := ih (projected ++ [row.identity])
      refine ⟨k + 1, Nat.succ_le_succ hk, ?_⟩
      rw [h, List.take_succ_cons, List.map_cons, List.append_assoc, List.singleton_append]
    · exact ⟨0, Nat.zero_le _, by simp⟩

theorem attachTexts_length {render : List Fields → Text} {attach : Fields → Text → Fields}
    {budget : ℤ} {projected : List Fields} (rows : List Row)
    (h : (render (projected ++ rows.map Row.identity)).length ≤ budget) :
    (render (attachTexts isMark render attach budget projected rows).1).length ≤ budget := by
  induction rows generalizing projected with
  | nil =>
    rw [List.map_nil, List.append_nil] at h
    exact h
  | cons row rows ih =>
    obtain ⟨identity, text⟩ := row
    rw [List.map_cons, List.append_cons] at h
    cases text with
    | none =>
      rw [attachTexts]
      exact ih h
    | some text =>
      rw [attachTexts]
      split
      · next hfit =>
        apply ih
        rw [← List.append_cons]
        exact hfit
      · apply ih
        split
        · next v hv =>
          have hplace := fitText_length hv
          rw [← List.append_cons]
          exact hplace
        · exact h

theorem projectRows_length {render : List Fields → Text} {attach : Fields → Text → Fields}
    {budget : ℤ} (rows : List Row) (h : (render []).length ≤ budget) :
    (render (projectRows isMark render attach budget rows).1).length ≤ budget := by
  apply attachTexts_length
  obtain ⟨k, hk, hretained⟩ := retainRows_prefix render budget [] rows
  have hlength := retainRows_length rows h
  rw [List.nil_append] at hretained ⊢
  rw [hretained] at hlength ⊢
  rwa [List.length_map, List.length_take, min_eq_left hk]

theorem buildListProjection_length {α : Type} {response : ListResponse α} (row : α → Row)
    {budget : ℤ} (h : (renderList response []).length ≤ budget) :
    (buildListProjection isMark response row budget).size ≤ budget :=
  projectRows_length _ h

theorem buildGrounding_length {context : GroundedKnowledgeContext} {budget : ℤ}
    {s : BudgetedSection} (hb : (renderGrounding context []).length ≤ budget)
    (h : buildGrounding isMark context budget = some s) : s.size ≤ budget := by
  unfold buildGrounding at h
  split at h
  · cases h
    exact projectRows_length _ hb
  · cases h

/-- The manifests of the sections, whose counts stay below a thousand. -/
def SmallManifest (manifest : Json) : Prop := (dumps manifest).length ≤ 77

theorem goalManifest_small {t o : Bool} {n : ℕ} (h : n < 1000) :
    SmallManifest (goalManifest t o n) := by
  have h₁ : escaped "truncated".toList = 9 := by decide
  have h₂ : escaped "objective_truncated".toList = 19 := by decide
  have h₃ : escaped "omitted".toList = 7 := by decide
  have ht := dumps_bool_length_le t
  have ho := dumps_bool_length_le o
  have hn := dumps_nat_length_le (w := 3) (by decide) h
  rw [SmallManifest, goalManifest, dumps_obj_length]
  simp only [fieldsLength_cons, fieldsLength_nil, h₁, h₂, h₃]
  omega

theorem feedbackManifest_small (t : Bool) : SmallManifest (feedbackManifest t) := by
  have h₁ : escaped "truncated".toList = 9 := by decide
  have ht := dumps_bool_length_le t
  rw [SmallManifest, feedbackManifest, dumps_obj_length]
  simp only [fieldsLength_cons, fieldsLength_nil, h₁]
  omega

theorem rowsManifest_small {key : String} (hk : escaped key.toList ≤ 22) {shortened omitted : ℕ}
    (hs : shortened < 1000) (ho : omitted < 1000) :
    SmallManifest (rowsManifest key shortened omitted) := by
  have h₁ : escaped "truncated".toList = 9 := by decide
  have h₂ : escaped "items_omitted".toList = 13 := by decide
  have ht := dumps_bool_length_le (decide (shortened > 0) || decide (omitted > 0))
  have hs' := dumps_nat_length_le (w := 3) (by decide) hs
  have ho' := dumps_nat_length_le (w := 3) (by decide) ho
  rw [SmallManifest, rowsManifest, dumps_obj_length]
  simp only [fieldsLength_cons, fieldsLength_nil, h₁, h₂]
  omega

theorem attachTexts_shortened (render : List Fields → Text) (attach : Fields → Text → Fields)
    (budget : ℤ) (projected : List Fields) (rows : List Row) :
    (attachTexts isMark render attach budget projected rows).2 ≤ rows.length := by
  induction rows generalizing projected with
  | nil => exact le_refl 0
  | cons row rows ih =>
    obtain ⟨identity, text⟩ := row
    cases text with
    | none =>
      rw [attachTexts]
      have := ih (projected ++ [identity])
      rw [List.length_cons]
      omega
    | some text =>
      rw [attachTexts, List.length_cons]
      split
      · have := ih (projected ++ [attach identity text])
        omega
      · apply Nat.succ_le_succ
        exact ih _

theorem projectRows_shortened (render : List Fields → Text) (attach : Fields → Text → Fields)
    (budget : ℤ) (rows : List Row) :
    (projectRows isMark render attach budget rows).2 ≤ rows.length := by
  exact (attachTexts_shortened render attach budget [] _).trans (List.length_take_le' _ _)

theorem buildGoalAnalysis_manifest {goal : PlanningGoal} {analysis : AgentGoalAnalysis}
    {budget : ℤ} {s : BudgetedSection}
    (h : buildGoalAnalysis isMark goal analysis budget = some s) : SmallManifest s.manifest := by
  obtain ⟨objective, -, rfl⟩ := Option.map_eq_some_iff.mp h
  apply goalManifest_small
  have := goal.size
  omega

theorem buildFeedback_manifest {value : Option Text} {budget : ℤ} {s : BudgetedSection}
    (h : buildFeedback isMark value budget = some s) : SmallManifest s.manifest := by
  cases value with
  | none =>
    cases h
    exact feedbackManifest_small false
  | some value =>
    obtain ⟨feedback, -, rfl⟩ := Option.map_eq_some_iff.mp h
    exact feedbackManifest_small _

theorem buildListProjection_manifest {α : Type} (response : ListResponse α) (row : α → Row)
    (budget : ℤ) : SmallManifest (buildListProjection isMark response row budget).manifest := by
  have hsize := response.metadata.2
  have hpage := response.bounds.2.2
  have hs : (projectRows isMark (renderList response) describe budget
      (response.items.map row)).2 ≤ (response.items.map row).length :=
    projectRows_shortened _ _ _ _
  rw [List.length_map] at hs
  apply rowsManifest_small
  · decide
  · exact lt_of_le_of_lt hs (by omega)
  · omega

theorem buildGrounding_manifest {context : GroundedKnowledgeContext} {budget : ℤ}
    {s : BudgetedSection} (h : buildGrounding isMark context budget = some s) :
    SmallManifest s.manifest := by
  have hsize := context.size
  have hs : (projectRows isMark (renderGrounding context) attachExcerpt budget
      (context.evidence.map evidenceRow)).2 ≤ (context.evidence.map evidenceRow).length :=
    projectRows_shortened _ _ _ _
  rw [List.length_map] at hs
  unfold maxGroundingEvidence at hsize
  unfold buildGrounding at h
  split at h
  · cases h
    apply rowsManifest_small
    · decide
    · exact lt_of_le_of_lt hs (by omega)
    · omega
  · cases h

end

end LearningTasks.Agent.PromptSections
