import LearningTasks.Library.Canonical
import LearningTasks.Agent.Approval
import Mathlib.Data.Set.Function

namespace LearningTasks.Agent.Fingerprints

open Library.Strings Library.Serialization Library.Records Library.Canonical Agent.Schemas
  Agent.State Agent.Approval

structure SameStep (s t : StudyPlanStep) : Prop where
  stepKey : s.stepKey = t.stepKey
  position : s.position = t.position
  title : s.title = t.title
  description : s.description = t.description
  successCriteria : s.successCriteria = t.successCriteria
  citations : ∀ c, c ∈ s.citations ↔ c ∈ t.citations

structure SameAction (a b : AgentProposedAction) : Prop where
  actionKey : a.actionKey = b.actionKey
  toolName : a.toolName = b.toolName
  arguments : same (.obj a.arguments) (.obj b.arguments) = true

structure SameContents (p q : AgentPlanProposal) : Prop where
  summary : p.planningResult.plan.summary = q.planningResult.plan.summary
  steps : List.Forall₂ SameStep p.planningResult.plan.steps q.planningResult.plan.steps
  actions : List.Forall₂ SameAction p.actions q.actions

theorem citations_sorted (s : StudyPlanStep) : sortCitations s.citations = s.citations := by
  unfold StudyPlanStep.citations
  cases s.citationIds with
  | none => rfl
  | some c => exact c.sorted

theorem citations_nodup (s : StudyPlanStep) : s.citations.Nodup := by
  unfold StudyPlanStep.citations
  cases s.citationIds with
  | none => exact .nil
  | some c => exact c.unique

theorem citations_eq_iff (s t : StudyPlanStep) :
    s.citations = t.citations ↔ ∀ c, c ∈ s.citations ↔ c ∈ t.citations := by
  rw [← List.perm_ext_iff_of_nodup (citations_nodup s) (citations_nodup t)]
  constructor
  · intro h
    rw [h]
  · intro h
    have hs := List.pairwise_insertionSort (fun a b ↦ leText a b = true) s.citations
    have ht := List.pairwise_insertionSort (fun a b ↦ leText a b = true) t.citations
    have hs' : s.citations.Pairwise fun a b ↦ leText a b = true := by
      rw [← citations_sorted s]
      exact hs
    have ht' : t.citations.Pairwise fun a b ↦ leText a b = true := by
      rw [← citations_sorted t]
      exact ht
    exact h.eq_of_pairwise (fun a b _ _ ↦ leText_antisymm) hs' ht'

theorem canonicalItems_str (texts : List Text) :
    canonicalItems (texts.map .str) = texts.map .str := by
  rw [canonicalItems_eq_map, List.map_map]
  rfl

theorem canonical_step (s : StudyPlanStep) :
    canonical (s.dump false) = .obj [("citation_ids".toList, .arr (s.citations.map .str)),
      ("description".toList, .str s.description.text), ("position".toList, .int s.position),
      ("step_key".toList, .str s.stepKey.1), ("success_criteria".toList, .str s.successCriteria.text),
      ("title".toList, .str s.title.text)] := by
  rw [← canonicalItems_str s.citations]
  rfl

theorem canonical_result (r : PlanningResult) :
    canonical (r.dump false) = .obj [("plan".toList, .obj [
        ("steps".toList, .arr (r.plan.steps.map fun s ↦ canonical (s.dump false))),
        ("summary".toList, .str r.plan.summary.text)]),
      ("prompt_version".toList, .str r.promptVersion), ("status".toList, .str r.status.value)] := by
  have h : canonicalItems (r.plan.steps.map (StudyPlanStep.dump false)) =
      r.plan.steps.map fun s ↦ canonical (s.dump false) := by
    rw [canonicalItems_eq_map, List.map_map]
    rfl
  rw [← h]
  rfl

theorem text_eq_iff {m : ℕ} (s t : BoundedText m) : s.text = t.text ↔ s = t := by
  cases s
  cases t
  simp

theorem step_eq_iff (s t : StudyPlanStep) :
    canonical (s.dump false) = canonical (t.dump false) ↔ SameStep s t := by
  have hcitations : (s.citations.map Json.str = t.citations.map Json.str) ↔
      ∀ c, c ∈ s.citations ↔ c ∈ t.citations := by
    rw [← citations_eq_iff]
    exact (List.map_injective_iff.mpr fun _ _ h ↦ Json.str.inj h).eq_iff
  rw [canonical_step, canonical_step]
  simp only [Json.obj.injEq, List.cons.injEq, Prod.mk.injEq, true_and, and_true, Json.arr.injEq,
    Json.str.injEq, Json.int.injEq, Nat.cast_inj, hcitations, text_eq_iff, Subtype.ext_iff.symm]
  constructor
  · rintro ⟨hc, hd, hp, hk, hs, ht⟩
    exact ⟨hk, hp, ht, hd, hs, hc⟩
  · rintro ⟨hk, hp, ht, hd, hs, hc⟩
    exact ⟨hc, hd, hp, hk, hs, ht⟩

theorem action_eq_iff (a b : AgentProposedAction) :
    canonical a.dump = canonical b.dump ↔ SameAction a b := by
  rw [canonical_action, canonical_action]
  simp only [Json.obj.injEq, List.cons.injEq, Prod.mk.injEq, true_and, and_true, Json.str.injEq,
    canonical_eq_iff, Subtype.ext_iff.symm]
  constructor
  · rintro ⟨hk, ha, ht⟩
    exact ⟨hk, value_injective ht, ha⟩
  · rintro ⟨hk, ht, ha⟩
    exact ⟨hk, ha, congrArg _ ht⟩

theorem map_eq_map_iff {α β : Type} {f : α → β} {R : α → α → Prop} (h : ∀ a b, f a = f b ↔ R a b)
    (l m : List α) : l.map f = m.map f ↔ List.Forall₂ R l m := by
  rw [← List.forall₂_eq_eq_eq, List.forall₂_map_left_iff, List.forall₂_map_right_iff]
  constructor
  · exact List.Forall₂.imp fun a b ↦ (h a b).mp
  · exact List.Forall₂.imp fun a b ↦ (h a b).mpr

theorem canonical_dump_iff (p q : AgentPlanProposal) :
    canonical p.dump = canonical q.dump ↔ SameContents p q := by
  have hversion : p.planningResult.promptVersion = q.planningResult.promptVersion :=
    p.planningResult.current.trans q.planningResult.current.symm
  have hstatus : p.planningResult.status = q.planningResult.status := rfl
  rw [canonical_proposal, canonical_proposal, canonical_result, canonical_result]
  simp only [Json.obj.injEq, List.cons.injEq, Prod.mk.injEq, true_and, and_true, Json.arr.injEq,
    Json.str.injEq, text_eq_iff, hversion, hstatus, map_eq_map_iff action_eq_iff,
    map_eq_map_iff step_eq_iff]
  constructor
  · rintro ⟨ha, hs, hsummary⟩
    exact ⟨hsummary, hs, ha⟩
  · rintro ⟨hsummary, hs, ha⟩
    exact ⟨ha, hs, hsummary⟩

theorem canonicalText_eq_iff (p q : AgentPlanProposal) :
    p.canonicalText = q.canonicalText ↔ canonical p.dump = canonical q.dump :=
  ⟨dumps_injective, congrArg dumps⟩

theorem fingerprint_eq_iff {sha256 : Text → Digest} {p q : AgentPlanProposal}
    (h : Set.InjOn sha256 {p.canonicalText, q.canonicalText}) :
    fingerprintPlanProposal sha256 p = fingerprintPlanProposal sha256 q ↔
      canonical p.dump = canonical q.dump := by
  rw [← canonicalText_eq_iff]
  exact h.eq_iff (by simp) (by simp)

/-- Fingerprints are canonical, for a hash that does not collide on the two texts. -/
theorem fingerprint_canonical (sha256 : Text → Digest) (p q : AgentPlanProposal)
    (h : Set.InjOn sha256 {p.canonicalText, q.canonicalText}) :
    (fingerprintPlanProposal sha256 p = fingerprintPlanProposal sha256 q ↔
      same p.dump q.dump = true) ∧
    (fingerprintPlanProposal sha256 p = fingerprintPlanProposal sha256 q ↔ SameContents p q) ∧
    ∀ (i : ℕ) (a b : AgentProposedAction) (key : Text), p.actions[i]? = some a →
      q.actions[i]? = some b → lookup key a.arguments = none →
      lookup key b.arguments = some .null →
      fingerprintPlanProposal sha256 p ≠ fingerprintPlanProposal sha256 q := by
  refine ⟨?_, ?_, ?_⟩
  · rw [fingerprint_eq_iff h, canonical_eq_iff]
  · rw [fingerprint_eq_iff h, canonical_dump_iff]
  · intro i a b key ha hb hnone hnull heq
    have hcontents := (canonical_dump_iff p q).mp ((fingerprint_eq_iff h).mp heq)
    have haction : SameAction a b := by
      obtain ⟨hi, rfl⟩ := List.getElem?_eq_some_iff.mp ha
      obtain ⟨hj, rfl⟩ := List.getElem?_eq_some_iff.mp hb
      exact hcontents.actions.get hi hj
    have hargs : sameFields a.arguments b.arguments = true := haction.arguments
    have hrel := lookup_same hargs key
    rw [hnone, hnull] at hrel
    cases hrel

def sampleOmitted : AgentProposedAction where
  actionKey := sampleUpdate.actionKey
  toolName := .updateTask
  arguments := [("task_id".toList, .str sampleTaskId.text)]
  size := by decide
  allowed := by simp only [List.forall_mem_cons]; decide

/-- The sample proposal, with a field left out instead of cleared. -/
def sampleOmission : AgentPlanProposal :=
  ⟨sampleResult, [sampleCreate, sampleOmitted], by decide, by decide⟩

def omissionDigest : Digest where
  text := "4ff45f4f8674d1fd1cba820ccf83c590e75a82cf96976919ecc493997785c291".toList
  hex := by decide

def sampleHash (text : Text) : Digest :=
  if text = sampleProposal.canonicalText then sampleDigest else omissionDigest

theorem sampleHash_injOn :
    Set.InjOn sampleHash {sampleOmission.canonicalText, sampleProposal.canonicalText} := by
  have hne : sampleDigest ≠ omissionDigest := by decide
  intro s hs t ht h
  unfold sampleHash at h
  split at h
  · next hs' =>
    split at h
    · next ht' => exact hs'.trans ht'.symm
    · exact absurd h hne
  · next hs' =>
    split at h
    · exact absurd h.symm hne
    · next ht' => exact (hs.resolve_right hs').trans (ht.resolve_right ht').symm

theorem fingerprint_canonical_sample :
    fingerprintPlanProposal sampleHash sampleOmission ≠
      fingerprintPlanProposal sampleHash sampleProposal :=
  (fingerprint_canonical sampleHash sampleOmission sampleProposal sampleHash_injOn).2.2 1
    sampleOmitted sampleUpdate "description".toList rfl rfl rfl rfl

end LearningTasks.Agent.Fingerprints
