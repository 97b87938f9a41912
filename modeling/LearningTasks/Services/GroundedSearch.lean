import LearningTasks.Services.KnowledgeBase

namespace LearningTasks.Services.GroundedSearch

open Library.Strings Library.Records Library.Transition Library.KeyLocks Schemas.Scalars
  Agent.ReadTools Agent.Retrieval KnowledgeDocuments KnowledgeDocumentIndexing DocumentChunks
  DocumentIndex DocumentUploads KnowledgeRetrieval KnowledgeQueries KnowledgeBase

/-- A citation of a document: what it shows is one of the chunks of the document's text. -/
structure Cites (host : IndexHost) (d : KnowledgeDocument) (query : KnowledgeSearchQuery)
    (userId : UUID) (c : KnowledgeCitation) : Prop where
  owner : c.documentId = d.id ∧ d.userId = userId
  filter : ∀ ids ∈ query.documentIds, d.id ∈ ids
  source : c.source = d.displayName
  status : d.status = .indexed
  chunk : ∃ chunks, chunkDocumentText host.sha256 d.extractedText d.pageCount = some chunks ∧
    ∃ chunk ∈ chunks, c.pageNumber = some (chunk.pageNumber : ℤ) ∧ c.ordinal = chunk.ordinal ∧
      c.excerpt = chunk.content.take maxKnowledgeExcerptCharacters
  passage : ∃ pages, pageTexts d.extractedText d.pageCount = some pages ∧
    ∃ n page, c.pageNumber = some ((n + 1 : ℕ) : ℤ) ∧ pages[n]? = some page ∧ c.excerpt <:+: page

section

variable {parser : Host} {host : IndexHost} {base base' : Base} {userId : UUID}
  {documentIds : Option (List UUID)}

theorem same_chunk (hs : Sane parser host base) (hl : Later base base') {c c' : ChunkRow}
    (hc : c ∈ base.chunks) (hc' : c' ∈ base'.chunks) (hid : c.id = c'.id) : c = c' := by
  rcases hl.chunks c' hc' with hold | hnew
  · exact List.inj_on_of_nodup_map hs.ids hc hold hid
  · exact absurd (hid ▸ (hs.rows c hc).2) hnew

theorem candidate_eq (hs : Sane parser host base) (hs' : Sane parser host base')
    (hl : Later base base') {row row' : ChunkRow × KnowledgeDocument}
    (h : row ∈ joined base.toDb userId documentIds)
    (h' : row' ∈ joined base'.toDb userId documentIds) (hid : row.1.id = row'.1.id) :
    candidate row = candidate row' := by
  obtain ⟨hc, hd, -, -, hkey, -⟩ := mem_joined.mp h
  obtain ⟨hc', hd', -, -, hkey', -⟩ := mem_joined.mp h'
  have hchunk : row.1 = row'.1 := same_chunk hs hl hc hc' hid
  obtain ⟨d, hdmem, ⟨status, updatedAt, rfl⟩, -⟩ := hl.documents row.2 hd
  have hdocument : { row.2 with status := status, updatedAt := updatedAt } = row'.2 := by
    refine List.inj_on_of_nodup_map hs'.unique hdmem hd' ?_
    exact hkey.trans ((congrArg ChunkRow.documentId hchunk).trans hkey'.symm)
  have hname : row.2.displayName = row'.2.displayName := by rw [← hdocument]
  unfold candidate
  rw [hchunk, hname]

theorem publishable (hs : Sane parser host base) {row : ChunkRow × KnowledgeDocument}
    (h : row ∈ joined base.toDb userId documentIds) : Publishable (candidate row) := by
  obtain ⟨hc, hd, -⟩ := mem_joined.mp h
  have hconstraints := (hs.rows row.1 hc).1
  have hdocument := (hs.uploaded row.2 hd).2
  simp only [chunkConstraints, Bool.and_eq_true, decide_eq_true_eq] at hconstraints
  simp only [documentConstraints, Bool.and_eq_true, decide_eq_true_eq] at hdocument
  obtain ⟨⟨hpage, hordinal⟩, hcontent, -⟩ := hconstraints
  obtain ⟨⟨⟨⟨⟨⟨⟨-, -⟩, hlength⟩, hvisible⟩, -⟩, -⟩, -⟩, -⟩ := hdocument
  refine ⟨⟨?_, hlength⟩, ?_, ?_, List.length_pos_iff.mp hcontent⟩
  · refine List.length_pos_iff.mpr fun hnil ↦ hvisible ?_
    change row.2.displayName = [] at hnil
    rw [hnil]
    rfl
  · intro n hn
    cases hn
    omega
  · change 0 ≤ (row.1.ordinal : ℤ) ∧ (row.1.ordinal : ℤ) ≤ 199
    omega

end

section

variable {parser : Host} {host : IndexHost} {engine : SearchEngine} {order : SetOrder}
  {base base' : Base} {userId : UUID} {query : KnowledgeSearchQuery} {vector : EmbeddingVector}

theorem consistent (hs : Sane parser host base) (hs' : Sane parser host base')
    (hl : Later base base')
    (hdistance : ∀ row ∈ joined base.toDb userId query.documentIds,
      ∃ x, engine.cosineDistance row.1.embedding vector = some x ∧ 0 ≤ x ∧ x ≤ 2)
    (hscore : ∀ row ∈ joined base'.toDb userId query.documentIds,
      ∃ x, engine.rankCd row.1.content query.query = some x ∧ 0 ≤ x) :
    Consistent (searchVectorOwned engine base.toDb userId vector maxRetrievalCandidates
        query.documentIds)
      (searchLexicalOwned engine base'.toDb userId query.query maxRetrievalCandidates
        query.documentIds) := by
  have hcandidate : ∀ m ∈ candidates (searchVectorOwned engine base.toDb userId vector
      maxRetrievalCandidates query.documentIds) (searchLexicalOwned engine base'.toDb userId
      query.query maxRetrievalCandidates query.documentIds),
      (∃ row ∈ joined base.toDb userId query.documentIds, m = candidate row) ∨
        ∃ row ∈ joined base'.toDb userId query.documentIds, m = candidate row := by
    intro m hm
    rcases List.mem_append.mp hm with hm | hm
    · obtain ⟨v, hv, rfl⟩ := List.mem_map.mp hm
      obtain ⟨row, hrow, rfl⟩ := mem_searchVectorOwned hv
      exact .inl ⟨row, hrow, rfl⟩
    · obtain ⟨l, hl, rfl⟩ := List.mem_map.mp hm
      obtain ⟨row, hrow, rfl⟩ := mem_searchLexicalOwned hl
      exact .inr ⟨row, hrow, rfl⟩
  refine ⟨searchVectorOwned_ranking hs.unique hs.ids, searchLexicalOwned_ranking hs'.unique hs'.ids,
    fun m hm ↦ ?_, fun m hm ↦ ?_, fun m hm m' hm' hid ↦ ?_, fun m hm ↦ ?_⟩
  · obtain ⟨row, hrow, rfl⟩ := mem_searchVectorOwned hm
    exact hdistance row hrow
  · obtain ⟨row, hrow, rfl⟩ := mem_searchLexicalOwned hm
    exact hscore row hrow
  · rcases hcandidate m hm with ⟨row, hrow, rfl⟩ | ⟨row, hrow, rfl⟩ <;>
      rcases hcandidate m' hm' with ⟨row', hrow', rfl⟩ | ⟨row', hrow', rfl⟩
    · exact candidate_eq hs hs (Later.refl base) hrow hrow' hid
    · exact candidate_eq hs hs' hl hrow hrow' hid
    · exact (candidate_eq hs hs' hl hrow' hrow hid.symm).symm
    · exact candidate_eq hs' hs' (Later.refl base') hrow hrow' hid
  · rcases hcandidate m hm with ⟨row, hrow, rfl⟩ | ⟨row, hrow, rfl⟩
    · exact publishable hs hrow
    · exact publishable hs' hrow

structure Answered (host : IndexHost) (engine : SearchEngine) (base base' : Base)
    (userId : UUID) (query : KnowledgeSearchQuery) (items : List KnowledgeCitation) : Prop where
  distinct : (items.map KnowledgeCitation.chunkId).Nodup
  limit : items.length ≤ query.topK
  cited : ∀ c ∈ items, ∃ d ∈ base.documents, Cites host d query userId c
  found : items = [] → ∀ row ∈ joined base'.toDb userId query.documentIds,
    engine.lexicalMatch row.1.content query.query = false

end

end LearningTasks.Services.GroundedSearch
