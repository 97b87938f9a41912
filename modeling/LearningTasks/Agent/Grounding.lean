import LearningTasks.Schemas.Scalars

namespace LearningTasks.Agent.Grounding

open Library.Strings Library.Serialization Schemas.Scalars

def maxGroundingEvidence : ℕ := 10

def maxCitationsPerClaim : ℕ := 10

def isHexDigit (c : Char) : Bool := c.isDigit || ('a' ≤ c && c ≤ 'f')

/-- A pattern of literal characters, where `x` stands for a hexadecimal digit. -/
def matchesShape : Text → Text → Bool
  | [], [] => true
  | p :: shape, c :: s => (if p = 'x' then isHexDigit c else p == c) && matchesShape shape s
  | _, _ => false

def uuidShape : Text := "xxxxxxxx-xxxx-xxxx-xxxx-xxxxxxxxxxxx".toList

def isCitationId : Text → Bool :=
  matchesShape ("knowledge:".toList ++ uuidShape ++ ':' :: uuidShape)

def between (low high : ℕ) (n : ℕ) : Bool := low ≤ n && n ≤ high

structure GroundingEvidence where
  citationId : Text
  documentId : UUID
  chunkId : UUID
  source : Text
  pageNumber : Option ℕ
  ordinal : ℕ
  excerpt : Text
  vectorRank : Option ℕ
  lexicalRank : Option ℕ
  fusionScore : FloatRepr
  pattern : isCitationId citationId = true
  identity : citationId = "knowledge:".toList ++ documentId.text ++ ':' :: chunkId.text
  bounds : between 1 255 source.length = true ∧ pageNumber.all (between 1 100) = true ∧
    ordinal ≤ 199 ∧ between 1 500 excerpt.length = true ∧
    vectorRank.all (between 1 40) = true ∧ lexicalRank.all (between 1 40) = true
  ranked : vectorRank.isSome = true ∨ lexicalRank.isSome = true

structure GroundedKnowledgeContext where
  evidence : List GroundingEvidence
  size : evidence.length ≤ maxGroundingEvidence
  unique : (evidence.map (·.citationId)).Nodup

def noKnowledge : GroundedKnowledgeContext := ⟨[], by decide, by decide⟩

def groundingFormatVersion : Text := "knowledge-grounding.v1".toList

def GroundedKnowledgeContext.available (context : GroundedKnowledgeContext) : List Text :=
  context.evidence.map (·.citationId)

/-- The test of one group of references, with the message of its error. -/
def validateReferences (available references : List Text) : Except String Unit :=
  if references.length > maxCitationsPerClaim then .error "Too many citations"
  else if ¬ references.Nodup then .error "Duplicate citations"
  else if available ≠ [] ∧ references = [] then .error "Grounded claim requires a citation"
  else if available = [] ∧ references ≠ [] then .error "Citation supplied without evidence"
  else if ∃ r ∈ references, r ∉ available then .error "Unknown citation"
  else .ok ()

def validateCitationReferences : List (List Text) → GroundedKnowledgeContext → Except String Unit
  | [], _ => .ok ()
  | references :: groups, context => do
    validateReferences context.available references
    validateCitationReferences groups context

structure Grounded (context : GroundedKnowledgeContext) (references : List Text) : Prop where
  known : ∀ r ∈ references, r ∈ context.available
  supplied : context.available ≠ [] → references ≠ []

theorem validateReferences_ok {context : GroundedKnowledgeContext} {references : List Text}
    (h : validateReferences context.available references = .ok ()) :
    Grounded context references := by
  unfold validateReferences at h
  split_ifs at h with _ _ h3 _ h5
  exact ⟨fun r hr ↦ by_contra fun hn ↦ h5 ⟨r, hr, hn⟩, fun ha hr ↦ h3 ⟨ha, hr⟩⟩

theorem validateCitationReferences_ok {groups : List (List Text)}
    {context : GroundedKnowledgeContext} (h : validateCitationReferences groups context = .ok ()) :
    ∀ references ∈ groups, Grounded context references := by
  induction groups with
  | nil => simp
  | cons references groups ih =>
    rw [validateCitationReferences] at h
    cases hr : validateReferences context.available references with
    | error e => rw [hr] at h; cases h
    | ok u =>
      rw [hr] at h
      rw [List.forall_mem_cons]
      exact ⟨validateReferences_ok hr, ih h⟩

end LearningTasks.Agent.Grounding
