import LearningTasks.Library.Sorting
import LearningTasks.Services.KnowledgeRetrieval

namespace LearningTasks.Services.KnowledgeQueries

open Library.Strings Library.Sorting Schemas.Scalars Agent.ReadTools Agent.Retrieval DocumentIndex
  KnowledgeRetrieval

/-- What PostgreSQL computes for a search; a distance or a score that is not a number is
none, and the scan of an approximate index for a vector may miss rows. -/
structure SearchEngine where
  cosineDistance : EmbeddingVector → EmbeddingVector → Option ℚ
  lexicalMatch : Text → Text → Bool
  rankCd : Text → Text → Option ℚ
  scan : EmbeddingVector → List ChunkRow → List ChunkRow
  scanned : ∀ vector rows, (scan vector rows).Sublist rows

/-- The order of PostgreSQL's floats: what is not a number comes after all numbers. -/
def compareFloat : Option ℚ → Option ℚ → Ordering
  | none, none => .eq
  | none, some _ => .gt
  | some _, none => .lt
  | some x, some y => compare x y

/-- The chunks of a user with their documents, as both searches join and filter them. -/
def joined (db : Db) (userId : UUID) (documentIds : Option (List UUID)) :
    List (ChunkRow × KnowledgeDocument) :=
  (db.chunks.filter fun c ↦ c.userId = userId ∧ ∀ ids ∈ documentIds, c.documentId ∈ ids).flatMap
    fun c ↦ (db.documents.filter fun d ↦
      d.id = c.documentId ∧ d.userId = c.userId ∧ d.userId = userId).map fun d ↦ (c, d)

def candidate (row : ChunkRow × KnowledgeDocument) : Candidate where
  chunkId := row.1.id
  documentId := row.1.documentId
  source := row.2.displayName
  pageNumber := some row.1.pageNumber
  ordinal := row.1.ordinal
  content := row.1.content

section

variable (engine : SearchEngine) (db : Db) (userId : UUID)

def vectorMatch (vector : EmbeddingVector) (row : ChunkRow × KnowledgeDocument) : VectorMatch :=
  { candidate row with distance := engine.cosineDistance row.1.embedding vector }

def byDistance (m m' : VectorMatch) : Ordering :=
  (compareFloat m.distance m'.distance).then (compare m.chunkId.value m'.chunkId.value)

def searchVectorOwned (vector : EmbeddingVector) (topK : ℕ) (documentIds : Option (List UUID)) :
    List VectorMatch :=
  (sortBy byDistance ((joined { db with chunks := engine.scan vector db.chunks } userId
    documentIds).map (vectorMatch engine vector))).take topK

def lexicalMatch (query : Text) (row : ChunkRow × KnowledgeDocument) : LexicalMatch :=
  { candidate row with score := engine.rankCd row.1.content query }

def byScore (m m' : LexicalMatch) : Ordering :=
  (compareFloat m'.score m.score).then (compare m.chunkId.value m'.chunkId.value)

def searchLexicalOwned (query : Text) (topK : ℕ) (documentIds : Option (List UUID)) :
    List LexicalMatch :=
  (sortBy byScore (((joined db userId documentIds).filter fun row ↦
    engine.lexicalMatch row.1.content query).map (lexicalMatch engine query))).take topK

end

/-- The two statements of one search, each on what is committed when it is sent. -/
def repository (engine : SearchEngine) (db db' : Db) : SearchRepository where
  searchVectorOwned userId vector topK documentIds :=
    .ok (searchVectorOwned engine db userId vector topK documentIds)
  searchLexicalOwned userId query topK documentIds :=
    .ok (searchLexicalOwned engine db' userId query topK documentIds)

section

variable {db : Db} {userId : UUID} {documentIds : Option (List UUID)}

theorem mem_joined {row : ChunkRow × KnowledgeDocument} :
    row ∈ joined db userId documentIds ↔ row.1 ∈ db.chunks ∧ row.2 ∈ db.documents ∧
      row.1.userId = userId ∧ (∀ ids ∈ documentIds, row.1.documentId ∈ ids) ∧
      row.2.id = row.1.documentId ∧ row.2.userId = userId := by
  obtain ⟨c, d⟩ := row
  simp only [joined, List.mem_flatMap, List.mem_filter, List.mem_map, Prod.mk.injEq,
    decide_eq_true_eq]
  constructor
  · rintro ⟨c', ⟨hc, huser, hids⟩, d', ⟨hd, hid, hsame, howner⟩, rfl, rfl⟩
    exact ⟨hc, hd, huser, hids, hid, howner⟩
  · rintro ⟨hc, hd, huser, hids, hid, howner⟩
    exact ⟨c, ⟨hc, huser, hids⟩, d, ⟨hd, hid, howner.trans huser.symm, howner⟩, rfl, rfl⟩

theorem documents_of_chunk (h : (db.documents.map KnowledgeDocument.id).Nodup) (c : ChunkRow)
    {p : KnowledgeDocument → Bool} (hp : ∀ d, p d = true → d.id = c.documentId) :
    (db.documents.filter p).length ≤ 1 := by
  have hids : ((db.documents.filter p).map KnowledgeDocument.id).Nodup :=
    List.Nodup.sublist (List.filter_sublist.map _) h
  have hsame : ∀ d ∈ db.documents.filter p, d.id = c.documentId :=
    fun d hd ↦ hp d (List.mem_filter.mp hd).2
  rcases hrows : db.documents.filter p with _ | ⟨d, _ | ⟨d', rest⟩⟩
  · exact Nat.zero_le _
  · exact le_rfl
  · rw [hrows] at hids hsame
    have hd := hsame d List.mem_cons_self
    have hd' := hsame d' (List.mem_cons_of_mem _ List.mem_cons_self)
    rw [List.map_cons, List.map_cons, List.nodup_cons, hd, hd'] at hids
    exact absurd List.mem_cons_self hids.1

theorem flatMap_sublist_map {α β : Type} {f : α → β} {g : α → List β}
    (h : ∀ a, (g a).Sublist [f a]) (l : List α) : (l.flatMap g).Sublist (l.map f) := by
  induction l with
  | nil => exact .slnil
  | cons a l ih =>
    rw [List.flatMap_cons, List.map_cons]
    exact (h a).append ih

theorem joined_ids (hdocuments : (db.documents.map KnowledgeDocument.id).Nodup) :
    ((joined db userId documentIds).map fun row ↦ row.1.id).Sublist (db.chunks.map ChunkRow.id) := by
  rw [joined, List.map_flatMap]
  refine (flatMap_sublist_map (fun c ↦ ?_) _).trans (List.filter_sublist.map _)
  rw [List.map_map]
  change ((db.documents.filter _).map fun _ ↦ c.id).Sublist (List.replicate 1 c.id)
  rw [List.map_const', List.replicate_sublist_replicate]
  refine documents_of_chunk hdocuments c fun d hd ↦ ?_
  exact (of_decide_eq_true hd).1

variable {engine : SearchEngine} {vector : EmbeddingVector} {query : Text} {topK : ℕ}

theorem mem_searchVectorOwned {m : VectorMatch}
    (h : m ∈ searchVectorOwned engine db userId vector topK documentIds) :
    ∃ row ∈ joined db userId documentIds, m = vectorMatch engine vector row := by
  obtain ⟨row, hrow, rfl⟩ := List.mem_map.mp (mem_sortBy.mp (List.mem_of_mem_take h))
  obtain ⟨hc, hrest⟩ := mem_joined.mp hrow
  exact ⟨row, mem_joined.mpr ⟨(engine.scanned vector _).subset hc, hrest⟩, rfl⟩

theorem mem_searchLexicalOwned {m : LexicalMatch}
    (h : m ∈ searchLexicalOwned engine db userId query topK documentIds) :
    ∃ row ∈ joined db userId documentIds, m = lexicalMatch engine query row := by
  obtain ⟨row, hrow, rfl⟩ := List.mem_map.mp (mem_sortBy.mp (List.mem_of_mem_take h))
  exact ⟨row, List.mem_of_mem_filter hrow, rfl⟩

theorem ranking_ids {α : Type} {cmp : α → α → Ordering} {id : α → UUID} {l : List α}
    (h : (l.map id).Nodup) : Ranking (((sortBy cmp l).take maxRetrievalCandidates).map id) where
  nodup := by
    refine List.Nodup.sublist ((List.take_sublist _ _).map id) ?_
    exact ((sortBy_perm cmp l).map id).nodup_iff.mpr h
  size := by
    rw [List.length_map]
    exact List.length_take_le _ _

theorem searchVectorOwned_ranking (hdocuments : (db.documents.map KnowledgeDocument.id).Nodup)
    (hchunks : (db.chunks.map ChunkRow.id).Nodup) :
    Ranking ((searchVectorOwned engine db userId vector maxRetrievalCandidates documentIds).map
      (·.chunkId)) := by
  refine ranking_ids ?_
  rw [List.map_map]
  have hjoined := @joined_ids { db with chunks := engine.scan vector db.chunks } userId documentIds
    hdocuments
  exact List.Nodup.sublist (hjoined.trans ((engine.scanned vector _).map _)) hchunks

theorem searchLexicalOwned_ranking (hdocuments : (db.documents.map KnowledgeDocument.id).Nodup)
    (hchunks : (db.chunks.map ChunkRow.id).Nodup) :
    Ranking ((searchLexicalOwned engine db userId query maxRetrievalCandidates documentIds).map
      (·.chunkId)) := by
  refine ranking_ids ?_
  rw [List.map_map]
  exact List.Nodup.sublist ((List.filter_sublist.map _).trans (joined_ids hdocuments)) hchunks

end

end LearningTasks.Services.KnowledgeQueries
