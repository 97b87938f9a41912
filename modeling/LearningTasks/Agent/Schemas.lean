import LearningTasks.Agent.Grounding

namespace LearningTasks.Agent.Schemas

open Library.Strings Library.Serialization Library.Records Schemas.Scalars Grounding

/-- A text as `_bounded_text` leaves it: trimmed, not blank, not too long. -/
structure BoundedText (m : ℕ) where
  text : Text
  stripped : strip text = text
  bounds : text ≠ [] ∧ text.length ≤ m
  deriving DecidableEq

def boundedText (m : ℕ) (value : Text) : Option (BoundedText m) :=
  if h : strip value ≠ [] ∧ (strip value).length ≤ m then
    some ⟨strip value, strip_strip value, h⟩ else none

def readBounded (m : ℕ) (j : Json) : Option (BoundedText m) := (readText j).bind (boundedText m)

/-- The pattern `^[a-z][a-z0-9_-]{0,63}$`. -/
def isKey : Text → Bool
  | [] => false
  | c :: s => ('a' ≤ c && c ≤ 'z') && s.length ≤ 63 &&
      s.all fun d ↦ ('a' ≤ d && d ≤ 'z') || d.isDigit || d == '_' || d == '-'

abbrev Key := { s : Text // isKey s = true }

def readKey (j : Json) : Option Key :=
  (readText j).bind fun s ↦ if h : isKey s = true then some ⟨s, h⟩ else none

structure PlanningGoal where
  objective : BoundedText 2000
  constraints : List (BoundedText 500)
  size : constraints.length ≤ 20
  deriving DecidableEq

def sortCitations (ids : List Text) : List Text := ids.insertionSort fun a b ↦ leText a b

instance : IsTrans Text fun a b ↦ leText a b = true := ⟨fun _ _ _ ↦ leText_trans⟩

instance : Std.Total fun a b : Text ↦ leText a b = true := ⟨leText_total⟩

theorem sortCitations_sorted (ids : List Text) :
    sortCitations (sortCitations ids) = sortCitations ids :=
  (List.pairwise_insertionSort _ ids).insertionSort_eq

theorem sortCitations_perm (ids : List Text) : (sortCitations ids).Perm ids :=
  List.perm_insertionSort _ ids

structure CitationIds where
  ids : List Text
  pattern : ∀ c ∈ ids, isCitationId c = true
  size : ids.length ≤ maxCitationsPerClaim
  unique : ids.Nodup
  sorted : sortCitations ids = ids

def citationIds (ids : List Text) : Option CitationIds :=
  if h : (∀ c ∈ ids, isCitationId c = true) ∧ ids.length ≤ maxCitationsPerClaim ∧ ids.Nodup then
    some {
      ids := sortCitations ids
      pattern := fun c hc ↦ h.1 c ((sortCitations_perm ids).mem_iff.mp hc)
      size := (sortCitations_perm ids).length_eq ▸ h.2.1
      unique := (sortCitations_perm ids).nodup_iff.mpr h.2.2
      sorted := sortCitations_sorted ids }
  else none

/-- A step whose citations were left out has none. -/
structure StudyPlanStep where
  stepKey : Key
  position : ℕ
  title : BoundedText 200
  description : BoundedText 1000
  successCriteria : BoundedText 500
  citationIds : Option CitationIds
  ordinal : 1 ≤ position ∧ position ≤ 20

def StudyPlanStep.citations (s : StudyPlanStep) : List Text :=
  match s.citationIds with
  | none => []
  | some c => c.ids

structure StudyPlan where
  summary : BoundedText 1000
  steps : List StudyPlanStep
  size : 1 ≤ steps.length ∧ steps.length ≤ 20
  unique : (steps.map (·.stepKey)).Nodup
  sequence : steps.map (·.position) = List.range' 1 steps.length

inductive PlanningStatus
  | completed
  deriving DecidableEq

def PlanningStatus.value : PlanningStatus → Text
  | .completed => "completed".toList

def studyPlanPromptVersion : Text := "study-plan.v2".toList

structure PlanningResult where
  promptVersion : Text
  status : PlanningStatus
  plan : StudyPlan
  current : promptVersion = studyPlanPromptVersion

def StudyPlanStep.keys : List Text :=
  ["step_key".toList, "position".toList, "title".toList, "description".toList,
    "success_criteria".toList, "citation_ids".toList]

def readPosition (c : Coercions) (j : Json) : Option { n : ℕ // 1 ≤ n ∧ n ≤ 20 } :=
  (c.int j).bind fun n ↦ if h : 1 ≤ n.toNat ∧ n.toNat ≤ 20 then some ⟨n.toNat, h⟩ else none

def readCitationIds (j : Json) : Option CitationIds := (readList readText j).bind citationIds

def StudyPlanStep.readFields (c : Coercions) (fields : Fields) : Option StudyPlanStep := do
  let stepKey ← requiredField readKey "step_key".toList fields
  let position ← requiredField (readPosition c) "position".toList fields
  let title ← requiredField (readBounded 200) "title".toList fields
  let description ← requiredField (readBounded 1000) "description".toList fields
  let successCriteria ← requiredField (readBounded 500) "success_criteria".toList fields
  let citationIds ← optionalField readCitationIds "citation_ids".toList fields
  some ⟨stepKey, position.1, title, description, successCriteria, citationIds, position.2⟩

def StudyPlanStep.dump (exclude : Bool) (s : StudyPlanStep) : Json :=
  .obj ([("step_key".toList, .str s.stepKey.1), ("position".toList, .int s.position),
    ("title".toList, .str s.title.text), ("description".toList, .str s.description.text),
    ("success_criteria".toList, .str s.successCriteria.text)] ++
    if exclude then given "citation_ids".toList (fun i ↦ .arr (i.ids.map .str)) s.citationIds
    else [("citation_ids".toList, .arr (s.citations.map .str))])

def StudyPlan.ofSteps (summary : BoundedText 1000) (steps : List StudyPlanStep) :
    Option StudyPlan :=
  if h : (1 ≤ steps.length ∧ steps.length ≤ 20) ∧ (steps.map (·.stepKey)).Nodup ∧
      steps.map (·.position) = List.range' 1 steps.length then
    some ⟨summary, steps, h.1, h.2.1, h.2.2⟩
  else none

def StudyPlan.readFields (c : Coercions) (fields : Fields) : Option StudyPlan := do
  let summary ← requiredField (readBounded 1000) "summary".toList fields
  let steps ← requiredField
    (readList (readModel StudyPlanStep.keys (StudyPlanStep.readFields c))) "steps".toList fields
  StudyPlan.ofSteps summary steps

def StudyPlan.dump (exclude : Bool) (p : StudyPlan) : Json :=
  .obj [("summary".toList, .str p.summary.text),
    ("steps".toList, .arr (p.steps.map (StudyPlanStep.dump exclude)))]

def PlanningResult.readFields (c : Coercions) (fields : Fields) : Option PlanningResult := do
  let promptVersion ← requiredField readText "prompt_version".toList fields
  let status ← requiredField (readEnum [.completed] PlanningStatus.value) "status".toList fields
  let plan ← requiredField (readModel ["summary".toList, "steps".toList] (StudyPlan.readFields c))
    "plan".toList fields
  if h : promptVersion = studyPlanPromptVersion then some ⟨promptVersion, status, plan, h⟩ else none

def PlanningResult.modelValidate (c : Coercions) : Json → Option PlanningResult :=
  readModel ["prompt_version".toList, "status".toList, "plan".toList] (PlanningResult.readFields c)

def PlanningResult.dump (exclude : Bool) (r : PlanningResult) : Json :=
  .obj [("prompt_version".toList, .str r.promptVersion), ("status".toList, .str r.status.value),
    ("plan".toList, r.plan.dump exclude)]

def PlanningGoal.readFields (fields : Fields) : Option PlanningGoal := do
  let objective ← requiredField (readBounded 2000) "objective".toList fields
  let constraints ← optionalField (readList (readBounded 500)) "constraints".toList fields
  if h : (constraints.getD []).length ≤ 20 then some ⟨objective, constraints.getD [], h⟩ else none

def PlanningGoal.modelValidate : Json → Option PlanningGoal :=
  readModel ["objective".toList, "constraints".toList] PlanningGoal.readFields

def PlanningGoal.dump (g : PlanningGoal) : Json :=
  .obj [("objective".toList, .str g.objective.text),
    ("constraints".toList, .arr (g.constraints.map fun t ↦ .str t.text))]

theorem boundedText_text {m : ℕ} (t : BoundedText m) : boundedText m t.text = some t := by
  have h : strip t.text ≠ [] ∧ (strip t.text).length ≤ m := t.stripped.symm ▸ t.bounds
  rw [boundedText, dif_pos h]
  cases t with
  | mk text stripped bounds => simp only [stripped]

theorem readBounded_text {m : ℕ} (t : BoundedText m) : readBounded m (.str t.text) = some t := by
  rw [readBounded, readText, Option.bind_some, boundedText_text]

theorem readKey_key (k : Key) : readKey (.str k.1) = some k := by
  rw [readKey, readText, Option.bind_some, dif_pos k.2]

theorem readPosition_int (c : Coercions) (p : { n : ℕ // 1 ≤ n ∧ n ≤ 20 }) :
    readPosition c (.int p.1) = some p := by
  rw [readPosition, c.int_int, Option.bind_some]
  simp only [Int.toNat_natCast]
  rw [dif_pos p.2]

theorem readCitationIds_ids (i : CitationIds) :
    readCitationIds (.arr (i.ids.map .str)) = some i := by
  have hread : readList readText (.arr (i.ids.map .str)) = some i.ids :=
    readList_write fun _ _ ↦ rfl
  rw [readCitationIds, hread, Option.bind_some, citationIds, dif_pos ⟨i.pattern, i.size, i.unique⟩]
  cases i with
  | mk ids pattern size unique sorted => simp only [sorted]

theorem StudyPlanStep.read_dump (c : Coercions) (s : StudyPlanStep) :
    readModel StudyPlanStep.keys (StudyPlanStep.readFields c) (s.dump true) = some s := by
  refine readModel_obj ?_ ?_
  · rw [onlyKeys_append, if_pos rfl, onlyKeys_given _ _ (by decide), Bool.and_true]
    simp only [onlyKeys, List.all_cons, List.all_nil]
    decide
  · simp only [↓reduceIte]
    have hcitations : optionalField readCitationIds "citation_ids".toList
        ([("step_key".toList, .str s.stepKey.1), ("position".toList, .int s.position),
          ("title".toList, .str s.title.text), ("description".toList, .str s.description.text),
          ("success_criteria".toList, .str s.successCriteria.text)] ++
          given "citation_ids".toList (fun i ↦ .arr (i.ids.map .str)) s.citationIds) =
        some s.citationIds := by
      refine optionalField_eq readCitationIds_ids ?_
      rw [lookup_append, lookup_eq_none, lookup_given, if_pos rfl, Option.none_or]
      simp only [List.map_cons, List.map_nil]
      decide
    rw [StudyPlanStep.readFields, hcitations,
      requiredField_eq (readKey_key s.stepKey) (by simp [lookup]),
      requiredField_eq (readPosition_int c ⟨s.position, s.ordinal⟩) (by simp [lookup]),
      requiredField_eq (readBounded_text s.title) (by simp [lookup]),
      requiredField_eq (readBounded_text s.description) (by simp [lookup]),
      requiredField_eq (readBounded_text s.successCriteria) (by simp [lookup])]
    rfl

theorem StudyPlan.read_dump (c : Coercions) (p : StudyPlan) :
    readModel ["summary".toList, "steps".toList] (StudyPlan.readFields c) (p.dump true) = some p := by
  refine readModel_obj ?_ ?_
  · simp only [onlyKeys, List.all_cons, List.all_nil]
    decide
  · have hsteps : readList (readModel StudyPlanStep.keys (StudyPlanStep.readFields c))
        (.arr (p.steps.map (StudyPlanStep.dump true))) = some p.steps :=
      readList_write fun s _ ↦ StudyPlanStep.read_dump c s
    rw [StudyPlan.readFields, requiredField_eq (readBounded_text p.summary) (by simp [lookup]),
      requiredField_eq hsteps (by simp [lookup])]
    exact dif_pos ⟨p.size, p.unique, p.sequence⟩

theorem PlanningResult.modelValidate_dump (c : Coercions) (r : PlanningResult) :
    PlanningResult.modelValidate c (r.dump true) = some r := by
  refine readModel_obj ?_ ?_
  · simp only [onlyKeys, List.all_cons, List.all_nil]
    decide
  · have hversion : readText (.str r.promptVersion) = some r.promptVersion := rfl
    have hstatus : readEnum [.completed] PlanningStatus.value (.str r.status.value) =
        some r.status := by
      cases r.status
      decide
    rw [PlanningResult.readFields, requiredField_eq hversion (by simp [lookup]),
      requiredField_eq hstatus (by simp [lookup]),
      requiredField_eq (StudyPlan.read_dump c r.plan) (by simp [lookup])]
    exact dif_pos r.current

end LearningTasks.Agent.Schemas
