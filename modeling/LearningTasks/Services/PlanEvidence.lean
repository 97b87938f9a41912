import LearningTasks.Agent.TracedNodes
import LearningTasks.Services.GroundedSearch
import LearningTasks.Services.WriteAudit

namespace LearningTasks.Services.PlanEvidence

open Library.Strings Library.Serialization Library.Fallible Library.Records Library.Transition
  Library.KeyLocks Library.Programs Schemas.Scalars Models.Agent Agent Agent.State
  Agent.Approval Agent.Tools Agent.Grounding Agent.Retrieval Agent.Graph KnowledgeDocuments
  KnowledgeDocumentIndexing DocumentIndex DocumentUploads KnowledgeRetrieval KnowledgeQueries
  KnowledgeBase GroundedSearch
open Agent.ReadTools (KnowledgeSearchQuery)

/-- The validators of `GroundingEvidence`, on the citation that its fields come from. -/
structure Citable (c : KnowledgeCitation) : Prop where
  pattern : isCitationId c.citationId = true
  size : c.citationId.length ≤ 100
  source : between 1 255 c.source.length = true
  page : c.pageNumber.all (fun n ↦ 1 ≤ n && n ≤ 100) = true
  ordinal : 0 ≤ c.ordinal ∧ c.ordinal ≤ 199
  excerpt : between 1 500 c.excerpt.length = true
  ranks : c.vectorRank.all (between 1 40) = true ∧ c.lexicalRank.all (between 1 40) = true
  fusionScore : 0 < c.fusionScore ∧ c.fusionScore ≤ 1
  identity : c.citationId = "knowledge:".toList ++ c.documentId.text ++ ':' :: c.chunkId.text
  ranked : c.vectorRank.isSome = true ∨ c.lexicalRank.isSome = true

instance (c : KnowledgeCitation) : Decidable (Citable c) :=
  decidable_of_iff
    (isCitationId c.citationId = true ∧ c.citationId.length ≤ 100 ∧
      between 1 255 c.source.length = true ∧
      c.pageNumber.all (fun n ↦ 1 ≤ n && n ≤ 100) = true ∧ (0 ≤ c.ordinal ∧ c.ordinal ≤ 199) ∧
      between 1 500 c.excerpt.length = true ∧
      (c.vectorRank.all (between 1 40) = true ∧ c.lexicalRank.all (between 1 40) = true) ∧
      (0 < c.fusionScore ∧ c.fusionScore ≤ 1) ∧
      c.citationId = "knowledge:".toList ++ c.documentId.text ++ ':' :: c.chunkId.text ∧
      (c.vectorRank.isSome = true ∨ c.lexicalRank.isSome = true))
    ⟨fun ⟨h₁, h₂, h₃, h₄, h₅, h₆, h₇, h₈, h₉, h₁₀⟩ ↦ ⟨h₁, h₂, h₃, h₄, h₅, h₆, h₇, h₈, h₉, h₁₀⟩,
      fun h ↦ ⟨h.pattern, h.size, h.source, h.page, h.ordinal, h.excerpt, h.ranks, h.fusionScore,
        h.identity, h.ranked⟩⟩

theorem toNat_page {c : KnowledgeCitation} (h : Citable c) :
    (c.pageNumber.map Int.toNat).all (between 1 100) = true := by
  have hpage := h.page
  cases hnumber : c.pageNumber with
  | none => rfl
  | some n =>
    rw [hnumber, Option.all_some, Bool.and_eq_true, decide_eq_true_eq, decide_eq_true_eq] at hpage
    rw [Option.map_some, Option.all_some, between, Bool.and_eq_true, decide_eq_true_eq,
      decide_eq_true_eq]
    omega

def evidenceOf (float : ℚ → FloatRepr) (c : KnowledgeCitation) (h : Citable c) :
    GroundingEvidence where
  citationId := c.citationId
  documentId := c.documentId
  chunkId := c.chunkId
  source := c.source
  pageNumber := c.pageNumber.map Int.toNat
  ordinal := c.ordinal.toNat
  excerpt := c.excerpt
  vectorRank := c.vectorRank
  lexicalRank := c.lexicalRank
  fusionScore := float c.fusionScore
  pattern := h.pattern
  identity := h.identity
  bounds := ⟨h.source, toNat_page h, by have := h.ordinal; omega, h.excerpt, h.ranks.1, h.ranks.2⟩
  ranked := h.ranked

def groundingEvidence (float : ℚ → FloatRepr) (c : KnowledgeCitation) : Option GroundingEvidence :=
  if h : Citable c then some (evidenceOf float c h) else none

def buildGroundedKnowledge (float : ℚ → FloatRepr) (items : List KnowledgeCitation) :
    Option GroundedKnowledgeContext := do
  let evidence ← (items.take maxGroundingEvidence).mapM (groundingEvidence float)
  if h : evidence.length ≤ maxGroundingEvidence ∧
      (evidence.map (·.citationId)).Nodup then
    return ⟨evidence, h.1, h.2⟩
  else none

section

variable {p q s t : Text}

end

/-- A citation that a search makes: it has been checked, and has the id of its chunk. -/
structure Checked (c : KnowledgeCitation) : Prop where
  check : c.check = true
  identity : c.citationId = "knowledge:".toList ++ c.documentId.text ++ ':' :: c.chunkId.text

section

variable {order : SetOrder} {g : Gathered}

end

section

variable (parser : Host) (host : IndexHost) (engine : SearchEngine) (order : SetOrder) (τ : Type)
  [DecidableEq τ]

variable {parser host engine order τ}

end

section

variable {σ : Type} {host : Graph.Host σ}

end

section

variable {σ : Type} {parser : Host} {index : IndexHost} {engine : SearchEngine} {order : SetOrder}
  {τ : Type} [DecidableEq τ] {float : ℚ → FloatRepr}

variable {host : Graph.Host σ} {ctx : TracedNodes.ContextHost σ (List KnowledgeCitation)}
  {s : ApprovalProtocol.State (σ × List WriteSafety.Event)}

end

end LearningTasks.Services.PlanEvidence
