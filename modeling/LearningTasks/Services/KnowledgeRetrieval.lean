import LearningTasks.Agent.ReadTools
import LearningTasks.Agent.Retrieval
import LearningTasks.Services.DocumentIndex
import Mathlib.Data.List.Forall2

namespace LearningTasks.Services.KnowledgeRetrieval

open Library.Strings Library.Fallible Schemas.Scalars Agent.ReadTools Agent.Retrieval DocumentIndex

def maxKnowledgeExcerptCharacters : ℕ := 500

structure Candidate where
  chunkId : UUID
  documentId : UUID
  source : Text
  pageNumber : Option ℤ
  ordinal : ℤ
  content : Text
  deriving DecidableEq

/-- `KnowledgeDocumentChunkMatch`; the distance is none where it is not finite. -/
structure VectorMatch extends Candidate where
  distance : Option ℚ

/-- `KnowledgeDocumentLexicalMatch`; the score is none where it is not finite. -/
structure LexicalMatch extends Candidate where
  score : Option ℚ

structure KnowledgeCitation where
  citationId : Text
  documentId : UUID
  chunkId : UUID
  source : Text
  pageNumber : Option ℤ
  ordinal : ℤ
  distance : Option ℚ
  vectorRank : Option ℕ
  lexicalRank : Option ℕ
  fusionScore : ℚ
  excerpt : Text
  deriving DecidableEq

def lengthWithin (low high : ℕ) (s : Text) : Bool := low ≤ s.length && s.length ≤ high

def KnowledgeCitation.check (c : KnowledgeCitation) : Bool :=
  lengthWithin 1 100 c.citationId && lengthWithin 1 255 c.source &&
    c.pageNumber.all (fun n ↦ 1 ≤ n && n ≤ 100) && (0 ≤ c.ordinal && c.ordinal ≤ 199) &&
    c.distance.all (fun d ↦ 0 ≤ d && d ≤ 2) &&
    c.vectorRank.all (fun r ↦ 1 ≤ r && r ≤ maxRetrievalCandidates) &&
    c.lexicalRank.all (fun r ↦ 1 ≤ r && r ≤ maxRetrievalCandidates) &&
    (0 < c.fusionScore && c.fusionScore ≤ 1) &&
    lengthWithin 1 maxKnowledgeExcerptCharacters c.excerpt &&
    (c.vectorRank.isSome || c.lexicalRank.isSome) && c.vectorRank.isSome == c.distance.isSome

/-- What a search can fail with; the key is one that the candidates do not have. -/
inductive SearchFailure
  | provider
  | fusion (error : RetrievalFusionError)
  | database
  | validation
  | key
  | other
  deriving DecidableEq

/-- `KnowledgeRetrievalError`, or an exception that the search lets pass. -/
inductive SearchError
  | retrieval
  | unhandled
  deriving DecidableEq

structure SearchRepository where
  searchVectorOwned : UUID → EmbeddingVector → ℕ → Option (List UUID) →
    Except SearchFailure (List VectorMatch)
  searchLexicalOwned : UUID → Text → ℕ → Option (List UUID) →
    Except SearchFailure (List LexicalMatch)

def citationId (m : Candidate) : Text :=
  "knowledge:".toList ++ m.documentId.text ++ ':' :: m.chunkId.text

def candidateIdentity (m : Candidate) : UUID × Text × Option ℤ × ℤ × Text :=
  (m.documentId, m.source, m.pageNumber, m.ordinal, m.content)

structure Gathered where
  candidates : UUID → Option Candidate
  distances : UUID → Option ℚ

def Gathered.put (g : Gathered) (m : Candidate) : Gathered :=
  { g with candidates := Function.update g.candidates m.chunkId (some m) }

def Gathered.putDistance (g : Gathered) (id : UUID) (distance : ℚ) : Gathered :=
  { g with distances := Function.update g.distances id (some distance) }

@[simp] theorem Gathered.put_self (g : Gathered) (m : Candidate) :
    (g.put m).candidates m.chunkId = some m := Function.update_self ..

@[simp] theorem Gathered.put_of_ne (g : Gathered) (m : Candidate) {id : UUID} (h : id ≠ m.chunkId) :
    (g.put m).candidates id = g.candidates id := Function.update_of_ne h ..

def addVector (g : Gathered) (m : VectorMatch) : Except RetrievalFusionError Gathered :=
  match m.distance with
  | none => .error .distance
  | some distance =>
    if 0 ≤ distance ∧ distance ≤ 2 then
      .ok ((g.put m.toCandidate).putDistance m.chunkId distance)
    else .error .distance

def addLexical (g : Gathered) (m : LexicalMatch) : Except RetrievalFusionError Gathered :=
  match m.score with
  | none => .error .score
  | some score =>
    if score < 0 then .error .score
    else match g.candidates m.chunkId with
      | some existing =>
        if candidateIdentity existing ≠ candidateIdentity m.toCandidate then .error .inconsistent
        else .ok g
      | none => .ok (g.put m.toCandidate)

def gather (vectorMatches : List VectorMatch) (lexicalMatches : List LexicalMatch) :
    Except RetrievalFusionError Gathered := do
  let vectors ← vectorMatches.foldlM addVector ⟨fun _ ↦ none, fun _ ↦ none⟩
  lexicalMatches.foldlM addLexical vectors

def toCitation (g : Gathered) (rank : FusedChunkRank) : Except SearchFailure KnowledgeCitation :=
  match g.candidates rank.chunkId with
  | none => .error .key
  | some m =>
    let citation : KnowledgeCitation := {
      citationId := citationId m
      documentId := m.documentId
      chunkId := rank.chunkId
      source := m.source
      pageNumber := m.pageNumber
      ordinal := m.ordinal
      distance := g.distances rank.chunkId
      vectorRank := rank.vectorRank
      lexicalRank := rank.lexicalRank
      fusionScore := rank.fusionScore
      excerpt := m.content.take maxKnowledgeExcerptCharacters }
    if citation.check then .ok citation else .error .validation

/-- A failure of the provider, or of the check of what it returned. -/
def ofProvider {α : Type} : Except IndexError α → Except SearchFailure α
  | .ok a => .ok a
  | .error .provider => .error .provider
  | .error _ => .error .other

def ofFusion {α : Type} : Except RetrievalFusionError α → Except SearchFailure α
  | .ok a => .ok a
  | .error e => .error (.fusion e)

section

variable (order : SetOrder) (host : IndexHost) (repository : SearchRepository)

def cite (vectorMatches : List VectorMatch) (lexicalMatches : List LexicalMatch) (limit : ℕ) :
    Except SearchFailure (List KnowledgeCitation) := do
  let gathered ← ofFusion (gather vectorMatches lexicalMatches)
  let fused ← ofFusion (reciprocalRankFuse order (vectorMatches.map (·.chunkId))
    (lexicalMatches.map (·.chunkId)) limit)
  let citations ← fused.mapM (toCitation gathered)
  if citations.length ≤ maxKnowledgeResults then return citations else .error .validation

def searchBody (query : KnowledgeSearchQuery) (userId : UUID) :
    Except SearchFailure (List KnowledgeCitation) := do
  let raw ← ofProvider (host.embed [query.query])
  let vectors ← ofProvider (validateEmbeddingBatch host raw 1)
  match vectors with
  | [] => .error .other
  | vector :: _ =>
    let vectorMatches ← repository.searchVectorOwned userId vector maxRetrievalCandidates
      query.documentIds
    let lexicalMatches ← repository.searchLexicalOwned userId query.query maxRetrievalCandidates
      query.documentIds
    cite order vectorMatches lexicalMatches query.topK

def searchOwnedKnowledge (query : KnowledgeSearchQuery) (userId : UUID) :
    Except SearchError (List KnowledgeCitation) :=
  match searchBody order host repository query userId with
  | .ok citations => .ok citations
  | .error .key | .error .other => .error .unhandled
  | .error _ => .error .retrieval

end

def Keyed (g : Gathered) : Prop := ∀ id m, g.candidates id = some m → m.chunkId = id

section

variable {g g' : Gathered} {vectorMatches : List VectorMatch} {lexicalMatches : List LexicalMatch}

/-- What is gathered is among some chunks, and kept under its own id. -/
def From (all : List Candidate) (g : Gathered) : Prop :=
  ∀ id m, g.candidates id = some m → m ∈ all ∧ m.chunkId = id

theorem From.put {all : List Candidate} (h : From all g) {m : Candidate} (hm : m ∈ all) :
    From all (g.put m) := by
  intro id c hc
  by_cases hid : id = m.chunkId
  · subst hid
    rw [g.put_self m] at hc
    cases hc
    exact ⟨hm, rfl⟩
  · rw [g.put_of_ne m hid] at hc
    exact h id c hc

def candidates (vectorMatches : List VectorMatch) (lexicalMatches : List LexicalMatch) :
    List Candidate :=
  vectorMatches.map VectorMatch.toCandidate ++ lexicalMatches.map LexicalMatch.toCandidate

/-- A citation of a fused rank: what it shows of the chunk is that chunk's. -/
structure Attached (all : List Candidate) (c : KnowledgeCitation) (rank : FusedChunkRank) :
    Prop where
  ranked : c.chunkId = rank.chunkId ∧ c.vectorRank = rank.vectorRank ∧
    c.lexicalRank = rank.lexicalRank ∧ c.fusionScore = rank.fusionScore
  found : ∃ m ∈ all, m.chunkId = rank.chunkId
  own : ∀ m ∈ all, m.chunkId = rank.chunkId → c.documentId = m.documentId ∧
    c.source = m.source ∧ c.pageNumber = m.pageNumber ∧ c.ordinal = m.ordinal ∧
    c.excerpt = m.content.take maxKnowledgeExcerptCharacters

variable {order : SetOrder}

structure Publishable (m : Candidate) : Prop where
  source : 1 ≤ m.source.length ∧ m.source.length ≤ 255
  page : ∀ n ∈ m.pageNumber, 1 ≤ n ∧ n ≤ 100
  ordinal : 0 ≤ m.ordinal ∧ m.ordinal ≤ 199
  content : m.content ≠ []

/-- Two rankings of chunks, as a database that has one row for each chunk makes them. -/
structure Consistent (vectorMatches : List VectorMatch) (lexicalMatches : List LexicalMatch) :
    Prop where
  vector : Ranking (vectorMatches.map (·.chunkId))
  lexical : Ranking (lexicalMatches.map (·.chunkId))
  distances : ∀ m ∈ vectorMatches, ∃ d, m.distance = some d ∧ 0 ≤ d ∧ d ≤ 2
  scores : ∀ m ∈ lexicalMatches, ∃ s, m.score = some s ∧ 0 ≤ s
  agree : ∀ m ∈ candidates vectorMatches lexicalMatches,
    ∀ m' ∈ candidates vectorMatches lexicalMatches, m.chunkId = m'.chunkId → m = m'
  publishable : ∀ m ∈ candidates vectorMatches lexicalMatches, Publishable m

variable {host : IndexHost} {repository : SearchRepository} {query : KnowledgeSearchQuery}
  {userId : UUID}

end

/-- Sets that are iterated over in the order of their first insertion. -/
def insertionOrder : SetOrder := ⟨List.dedup, fun _ ↦ .refl _⟩

def sampleQuery : KnowledgeSearchQuery :=
  ⟨['a'], 1, none, by decide, by decide, fun _ h ↦ by cases h⟩

end LearningTasks.Services.KnowledgeRetrieval
