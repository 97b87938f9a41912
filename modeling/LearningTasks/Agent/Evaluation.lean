import LearningTasks.Agent.Schemas
import Mathlib.Data.Rat.Defs
import Mathlib.Algebra.Order.Ring.Rat

namespace LearningTasks.Agent.Evaluation

open Library.Strings Library.Serialization Library.Records Schemas.Scalars Agent.Schemas

def minEvaluationCases : ℕ := 30

def maxEvaluationCases : ℕ := 50

inductive EvaluationCategory
  | extraction
  | toolName
  | toolArguments
  | citations
  | planBounds
  | hostileDocument
  | approvalBypass
  | safeErrors
  | recovery
  | duplicates
  | unintendedWrites
  | latencyTokens
  deriving DecidableEq

inductive EvaluationErrorCode
  | none
  | caseInvalid
  | modelFailed
  | embeddingFailed
  | retrievalFailed
  | toolFailed
  | validationFailed
  deriving DecidableEq

inductive EvaluationOutcome
  | succeeded
  | failed
  deriving DecidableEq

inductive EvaluationApprovalStimulus
  | notApplicable
  | pauseOnly
  | approve
  | reject
  deriving DecidableEq

/-- A case, with the part of its scenario that its evidence is judged by later on. -/
structure EvaluationCaseV2 where
  caseId : Key
  category : EvaluationCategory
  approval : EvaluationApprovalStimulus

/-- A row of a dataset; of a malformed one only an identifier is kept. -/
inductive EvaluationEntryV2
  | valid (case : EvaluationCaseV2)
  | malformed (caseId : Text)

structure LoadedEvaluationDatasetV2 where
  entries : List EvaluationEntryV2
  size : minEvaluationCases ≤ entries.length ∧ entries.length ≤ maxEvaluationCases

structure EvaluationObservationV2 where
  writeCount : ℕ
  inputTokens : Option ℕ
  outputTokens : Option ℕ
  totalTokens : Option ℕ
  latencyMs : Option ℚ
  writeBound : writeCount ≤ 3
  tokenBounds : (∀ n ∈ inputTokens, n ≤ 100000) ∧ (∀ n ∈ outputTokens, n ≤ 100000) ∧
    ∀ n ∈ totalTokens, n ≤ 200000
  latencyBounds : ∀ l ∈ latencyMs, 0 ≤ l ∧ l ≤ 60000

structure EvaluationCaseEvidenceV2 where
  caseId : Text
  category : Option EvaluationCategory
  outcome : EvaluationOutcome
  observation : Option EvaluationObservationV2
  errorCode : EvaluationErrorCode

/-- What running a case gives: a verdict on what was observed. -/
structure CaseResult where
  outcome : EvaluationOutcome
  observation : EvaluationObservationV2
  errorCode : EvaluationErrorCode

def caseEvidence (case : EvaluationCaseV2) (result : CaseResult) : EvaluationCaseEvidenceV2 :=
  ⟨case.caseId.1, some case.category, result.outcome, some result.observation, result.errorCode⟩

def malformedEvidence (caseId : Text) : EvaluationCaseEvidenceV2 :=
  ⟨caseId, none, .failed, none, .caseInvalid⟩

structure EvaluationAggregateV2 where
  totalCases : ℕ
  succeeded : ℕ
  failed : ℕ
  malformed : ℕ
  unintendedWrites : ℕ
  writesBound : unintendedWrites ≤ maxEvaluationCases

structure EvaluationReportV2 where
  cases : List EvaluationCaseEvidenceV2
  aggregate : EvaluationAggregateV2
  size : minEvaluationCases ≤ cases.length ∧ cases.length ≤ maxEvaluationCases

def countedWrites (evidence : EvaluationCaseEvidenceV2) (entry : EvaluationEntryV2) : ℕ :=
  match evidence.observation, entry with
  | some observation, .valid case => if case.approval = .approve then 0 else observation.writeCount
  | _, _ => 0

/-- The report on the evidence of a dataset, whose counts are checked. -/
def buildReport (entries : List EvaluationEntryV2) (evidence : List EvaluationCaseEvidenceV2) :
    Option EvaluationReportV2 :=
  if h : (minEvaluationCases ≤ evidence.length ∧ evidence.length ≤ maxEvaluationCases) ∧
      (List.zipWith countedWrites evidence entries).sum ≤ maxEvaluationCases then
    some {
      cases := evidence
      aggregate := {
        totalCases := evidence.length
        succeeded := evidence.countP (·.outcome = .succeeded)
        failed := evidence.length - evidence.countP (·.outcome = .succeeded)
        malformed := evidence.countP (·.observation.isNone)
        unintendedWrites := (List.zipWith countedWrites evidence entries).sum
        writesBound := h.2 }
      size := h.1 }
  else none

theorem buildReport_spec {entries : List EvaluationEntryV2}
    {evidence : List EvaluationCaseEvidenceV2} {report : EvaluationReportV2}
    (h : buildReport entries evidence = some report) : report.cases = evidence ∧
      report.aggregate.unintendedWrites = (List.zipWith countedWrites evidence entries).sum := by
  unfold buildReport at h
  split at h
  · cases h
    exact ⟨rfl, rfl⟩
  · cases h

end LearningTasks.Agent.Evaluation
