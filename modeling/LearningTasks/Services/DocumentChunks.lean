import LearningTasks.Services.KnowledgeDocumentIndexing

namespace LearningTasks.Services.DocumentChunks

open Library.Strings Library.Windows Agent.State Services.KnowledgeDocuments
  Services.KnowledgeDocumentIndexing

/-- The contents of the chunks that carry the number of a page. -/
def contentsOf (i : ℕ) (chunks : List DeterministicDocumentChunk) : List Text :=
  (chunks.filter (·.pageNumber = i + 1)).map (·.content)

structure Lawful (sha256 : Text → Digest) (pages : List Text)
    (chunks : List DeterministicDocumentChunk) : Prop where
  ordinals : chunks.map (·.ordinal) = List.range chunks.length
  count : 1 ≤ chunks.length ∧ chunks.length ≤ maxDocumentChunks
  ordered : chunks.Pairwise (·.pageNumber ≤ ·.pageNumber)
  content : ∀ c ∈ chunks, c.content ≠ [] ∧ c.content.length ≤ maxChunkCharacters ∧
    c.contentFingerprint = sha256 c.content
  page : ∀ c ∈ chunks, 1 ≤ c.pageNumber ∧
    ∃ page, pages[c.pageNumber - 1]? = some page ∧ c.content <:+: page
  overlaps : ∀ i, (contentsOf i chunks).IsChain chunkWindow.Overlaps
  rebuilt : ∀ i page, pages[i]? = some page → chunkWindow.rebuild (contentsOf i chunks) = page
  empty : ∀ i, pages[i]? = some [] → contentsOf i chunks = []

section

variable {sha256 : Text → Digest} {first : ℕ} {contents : List (ℕ × Text)}

end

end LearningTasks.Services.DocumentChunks
