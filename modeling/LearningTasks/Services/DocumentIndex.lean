import LearningTasks.Library.Sessions
import LearningTasks.Library.Records
import LearningTasks.Schemas.Scalars
import LearningTasks.Services.DocumentChunks

namespace LearningTasks.Services.DocumentIndex

open Library.Strings Library.Serialization Library.Records Library.Programs Library.Sessions
  Library.Sessions.Session Schemas.Scalars Agent.State Services.KnowledgeDocumentIndexing

def embeddingDimensions : ℕ := 1536

/-- What a provider puts into a vector: a number of some kind, or something else. -/
inductive RawNumber
  | bool (b : Bool)
  | int (n : ℤ)
  | float (x : FloatRepr)
  | nonFinite
  | other

structure EmbeddingVector where
  values : List FloatRepr
  dimensions : values.length = embeddingDimensions

inductive IndexError
  | notFound
  | indexing
  | provider
  | other
  deriving DecidableEq

/-- What indexing is set up with: its hash, its provider, `float` of an integer, and
what the vector column keeps of a vector, where it takes it. -/
structure IndexHost where
  sha256 : Text → Digest
  embed : List Text → Except IndexError (List (List RawNumber))
  toFloat : ℤ → Option FloatRepr
  column : EmbeddingVector → Option EmbeddingVector

/-- What differs from one call to the next: failing statements, the ids that the
server supplies, and the clock. -/
structure IndexCall where
  faults : Faults IndexError
  newId : ℕ → UUID
  clock : ParsedDatetime

def readNumber (host : IndexHost) : RawNumber → Option FloatRepr
  | .int n => host.toFloat n
  | .float x => some x
  | .bool _ | .nonFinite | .other => none

def validateVector (host : IndexHost) (vector : List RawNumber) : Option EmbeddingVector :=
  if h : vector.length = embeddingDimensions then
    match hv : vector.mapM (readNumber host) with
    | some values => some ⟨values, (mapM_forall₂ hv).length_eq.symm.trans h⟩
    | none => none
  else none

def validateEmbeddingBatch (host : IndexHost) (vectors : List (List RawNumber))
    (expectedCount : ℕ) : Except IndexError (List EmbeddingVector) :=
  if vectors.length ≠ expectedCount then .error .provider
  else match vectors.mapM (validateVector host) with
    | some normalized => .ok normalized
    | none => .error .provider

inductive DocumentStatus
  | parsed
  | indexed
  deriving DecidableEq

structure KnowledgeDocument where
  id : UUID
  userId : UUID
  displayName : Text
  mediaType : Text
  byteCount : ℕ
  contentSha256 : Digest
  pageCount : ℕ
  extractedText : Text
  status : DocumentStatus
  createdAt : Datetime
  updatedAt : Datetime

structure ChunkCreate where
  pageNumber : ℕ
  ordinal : ℕ
  content : Text
  contentFingerprint : Digest
  embedding : EmbeddingVector

structure ChunkRow extends ChunkCreate where
  id : UUID
  documentId : UUID
  userId : UUID

structure Db where
  documents : List KnowledgeDocument
  chunks : List ChunkRow

def Db.getOwned (db : Db) (documentId userId : UUID) : Option KnowledgeDocument :=
  db.documents.find? fun d ↦ d.id = documentId && d.userId = userId

def Db.deleteChunks (db : Db) (documentId userId : UUID) : Db :=
  { db with chunks := db.chunks.filter fun c ↦ ¬ (c.documentId = documentId ∧ c.userId = userId) }

def chunkConstraints (c : ChunkCreate) : Bool :=
  decide (1 ≤ c.pageNumber ∧ c.pageNumber ≤ 100) && decide (c.ordinal ≤ 199) &&
    decide (1 ≤ c.content.length ∧ c.content.length ≤ maxChunkCharacters)

/-- The rows of an INSERT, with the vectors as their column keeps them. -/
def chunkRows (host : IndexHost) (newId : ℕ → UUID) (documentId userId : UUID)
    (values : List ChunkCreate) : Option (List ChunkRow) :=
  (values.zipIdx).mapM fun v ↦ (host.column v.1.embedding).map fun embedding ↦
    { v.1 with
      embedding := embedding
      id := newId v.2
      documentId := documentId
      userId := userId }

/-- The INSERT: it fails on a vector, a constraint, a key that is taken or a
document that is not there. -/
def Db.insertChunks (host : IndexHost) (newId : ℕ → UUID) (documentId userId : UUID)
    (values : List ChunkCreate) (db : Db) : Except IndexError (List ChunkRow × Db) :=
  match chunkRows host newId documentId userId values with
  | none => .error .other
  | some rows =>
    if (rows.all fun c ↦ chunkConstraints c.toChunkCreate) ∧
        ((db.chunks ++ rows).map (·.id)).Nodup ∧
        ((db.chunks ++ rows).map fun c ↦ (c.documentId, c.ordinal)).Nodup ∧
        (db.documents.any fun d ↦ d.id = documentId && d.userId = userId) then
      .ok (rows, { db with chunks := db.chunks ++ rows })
    else .error .other

def KnowledgeDocument.markIndexed (d : KnowledgeDocument) (updatedAt : Datetime) :
    KnowledgeDocument :=
  { d with status := .indexed, updatedAt := updatedAt }

def Db.markIndexed (db : Db) (documentId : UUID) (updatedAt : Datetime) : Db :=
  { db with documents := db.documents.map fun d ↦
      if d.id = documentId then d.markIndexed updatedAt else d }

structure PublicKnowledgeDocument where
  id : UUID
  displayName : Text
  mediaType : Text
  byteCount : ℕ
  pageCount : ℕ
  status : DocumentStatus
  createdAt : Datetime
  updatedAt : Datetime

def KnowledgeDocument.public (d : KnowledgeDocument) : PublicKnowledgeDocument where
  id := d.id
  displayName := d.displayName
  mediaType := d.mediaType
  byteCount := d.byteCount
  pageCount := d.pageCount
  status := d.status
  createdAt := d.createdAt
  updatedAt := d.updatedAt

structure KnowledgeDocumentIndexResponse where
  document : PublicKnowledgeDocument
  chunkCount : ℕ
  bounds : 1 ≤ chunkCount ∧ chunkCount ≤ 200

def indexResponse (d : KnowledgeDocument) (count : ℕ) : Option KnowledgeDocumentIndexResponse :=
  if h : 1 ≤ count ∧ count ≤ 200 then some ⟨d.public, count, h⟩ else none

/-- `zip(chunks, vectors, strict=True)`, as the values to create. -/
def createValues (chunks : List DeterministicDocumentChunk) (vectors : List EmbeddingVector) :
    Except IndexError (List ChunkCreate) :=
  if chunks.length = vectors.length then
    .ok ((chunks.zip vectors).map fun c ↦
      ⟨c.1.pageNumber, c.1.ordinal, c.1.content, c.1.contentFingerprint, c.2⟩)
  else .error .other

def replaceOwned (host : IndexHost) (call : IndexCall) (documentId userId : UUID)
    (values : List ChunkCreate) : Program IndexError (Session Db) (List ChunkRow) := do
  statement call.faults fun db ↦ .ok ((), db.deleteChunks documentId userId)
  statement call.faults fun db ↦ db.insertChunks host call.newId documentId userId values

/-- `mark_indexed`, with a response. One with a naive time does not validate. -/
def markIndexed (call : IndexCall) (d : KnowledgeDocument) (count : ℕ) :
    Program IndexError (Session Db) KnowledgeDocumentIndexResponse :=
  match call.clock with
  | .naive => Program.raise .other
  | .aware updatedAt => do
    statement call.faults fun db ↦ .ok ((), db.markIndexed d.id updatedAt)
    Program.ofOption .other (indexResponse (d.markIndexed updatedAt) count)

/-- The body of the `try` of `index_knowledge_document`, up to its commit. -/
def indexBody (host : IndexHost) (call : IndexCall) (documentId userId : UUID) :
    Program IndexError (Session Db) KnowledgeDocumentIndexResponse := do
  let found ← statement call.faults fun db ↦ .ok (db.getOwned documentId userId, db)
  let document ← Program.ofOption .notFound found
  let chunks ← Program.ofOption .indexing
    (chunkDocumentText host.sha256 document.extractedText document.pageCount)
  let raw ← Program.ofExcept (host.embed (chunks.map (·.content)))
  let vectors ← Program.ofExcept (validateEmbeddingBatch host raw chunks.length)
  let values ← Program.ofExcept (createValues chunks vectors)
  let stored ← replaceOwned host call document.id userId values
  markIndexed call document stored.length

/-- The errors that the `except` clauses raise again under one name. -/
def publicError : IndexError → IndexError
  | .provider | .indexing => .indexing
  | .notFound => .notFound
  | .other => .other

def indexKnowledgeDocument (host : IndexHost) (call : IndexCall) (documentId userId : UUID) :
    Program IndexError (Session Db) KnowledgeDocumentIndexResponse :=
  transact call.faults publicError (indexBody host call documentId userId)

structure Stored (db : Db) : Prop where
  unique : (db.documents.map KnowledgeDocument.id).Nodup
  owned : ∀ c ∈ db.chunks, ∃ d ∈ db.documents, d.id = c.documentId ∧ d.userId = c.userId

/-- The chunks of a document, without the keys that the server supplies. -/
def Db.chunksOf (db : Db) (documentId : UUID) : List ChunkCreate :=
  (db.chunks.filter (·.documentId = documentId)).map ChunkRow.toChunkCreate

def Db.chunksOfOthers (db : Db) (documentId : UUID) : List ChunkRow :=
  db.chunks.filter (·.documentId ≠ documentId)

structure StoredAs (host : IndexHost) (chunk : DeterministicDocumentChunk) (vector : EmbeddingVector)
    (row : ChunkCreate) : Prop where
  pageNumber : row.pageNumber = chunk.pageNumber
  ordinal : row.ordinal = chunk.ordinal
  content : row.content = chunk.content
  contentFingerprint : row.contentFingerprint = chunk.contentFingerprint
  embedding : host.column vector = some row.embedding

theorem getOwned_some {db : Db} {documentId userId : UUID} {d : KnowledgeDocument}
    (h : db.getOwned documentId userId = some d) :
    d ∈ db.documents ∧ d.id = documentId ∧ d.userId = userId := by
  have hp := List.find?_some h
  simp only [Bool.and_eq_true, decide_eq_true_eq] at hp
  exact ⟨List.mem_of_find?_eq_some h, hp⟩

theorem Stored.getOwned {db : Db} (h : Stored db) {d : KnowledgeDocument} (hd : d ∈ db.documents) :
    db.getOwned d.id d.userId = some d := by
  unfold Db.getOwned
  cases hf : db.documents.find? fun r ↦ r.id = d.id && r.userId = d.userId with
  | none =>
    have hn := List.find?_eq_none.mp hf d hd
    simp at hn
  | some r =>
    have hp := List.find?_some hf
    simp only [Bool.and_eq_true, decide_eq_true_eq] at hp
    rw [List.inj_on_of_nodup_map h.unique (List.mem_of_find?_eq_some hf) hd hp.1]

theorem Stored.owner {db : Db} (h : Stored db) {d : KnowledgeDocument} (hd : d ∈ db.documents)
    {c : ChunkRow} (hc : c ∈ db.chunks) (hid : c.documentId = d.id) : c.userId = d.userId := by
  obtain ⟨d', hd', hid', huser⟩ := h.owned c hc
  have heq : d' = d := List.inj_on_of_nodup_map h.unique hd' hd (hid'.trans hid)
  rw [← huser, heq]

theorem chunkRows_some {host : IndexHost} {newId : ℕ → UUID} {documentId userId : UUID}
    {values : List ChunkCreate} {rows : List ChunkRow}
    (h : chunkRows host newId documentId userId values = some rows) :
    (∀ c ∈ rows, c.documentId = documentId ∧ c.userId = userId) ∧
      List.Forall₂ (fun v c ↦ ∃ embedding, host.column v.embedding = some embedding ∧
        ChunkRow.toChunkCreate c = { v with embedding := embedding }) values rows := by
  have hall := mapM_forall₂ h
  constructor
  · intro c hc
    obtain ⟨v, -, hv⟩ := forall₂_right hall hc
    obtain ⟨embedding, -, rfl⟩ := Option.map_eq_some_iff.mp hv
    exact ⟨rfl, rfl⟩
  · have hfst : values = values.zipIdx.map Prod.fst := (List.zipIdx_map_fst 0 values).symm
    rw [hfst, List.forall₂_map_left_iff]
    refine hall.imp fun v c hv ↦ ?_
    obtain ⟨embedding, he, rfl⟩ := Option.map_eq_some_iff.mp hv
    exact ⟨embedding, he, rfl⟩

structure Written (host : IndexHost) (db db' : Db) (d : KnowledgeDocument)
    (values : List ChunkCreate) (now : Datetime) : Prop where
  chunks : List.Forall₂ (fun v row ↦ ∃ embedding, host.column v.embedding = some embedding ∧
    row = { v with embedding := embedding }) values (db'.chunksOf d.id)
  others : db'.chunksOfOthers d.id = db.chunksOfOthers d.id
  documents : db'.documents =
    db.documents.map fun r ↦ if r.id = d.id then r.markIndexed now else r
  kept : Stored db'

theorem insertChunks_ok {host : IndexHost} {newId : ℕ → UUID} {documentId userId : UUID}
    {values : List ChunkCreate} {db db' : Db} {rows : List ChunkRow}
    (h : db.insertChunks host newId documentId userId values = .ok (rows, db')) :
    chunkRows host newId documentId userId values = some rows ∧
      db' = { db with chunks := db.chunks ++ rows } := by
  unfold Db.insertChunks at h
  cases hr : chunkRows host newId documentId userId values with
  | none => rw [hr] at h; cases h
  | some rows' =>
    simp only [hr] at h
    split at h
    · cases h
      exact ⟨rfl, rfl⟩
    · cases h

theorem Written.getOwned {host : IndexHost} {db db' : Db} {d : KnowledgeDocument}
    {values : List ChunkCreate} {now : Datetime} (h : Written host db db' d values now)
    (hd : d ∈ db.documents) : db'.getOwned d.id d.userId = some (d.markIndexed now) := by
  have hmem : d.markIndexed now ∈ db'.documents := by
    rw [h.documents]
    exact List.mem_map.mpr ⟨d, hd, if_pos rfl⟩
  exact h.kept.getOwned hmem

theorem mapM_replicate {α β : Type} {f : α → Option β} {a : α} {b : β} (h : f a = some b) (n : ℕ) :
    (List.replicate n a).mapM f = some (List.replicate n b) := by
  induction n with
  | zero => rfl
  | succ n ih =>
    rw [List.replicate_succ, List.mapM_cons, h, ih]
    rfl

def sampleDigest : Digest := ⟨List.replicate 64 '0', by decide⟩

/-- The vectors stay folded: nothing below computes with their entries. -/
@[irreducible] def zeroVector : EmbeddingVector :=
  ⟨.replicate embeddingDimensions zeroFloat, by rw [List.length_replicate]⟩

@[irreducible] def zeroNumbers : List RawNumber := List.replicate embeddingDimensions (.int 0)

def sampleHost : IndexHost where
  sha256 _ := sampleDigest
  embed texts := .ok (texts.map fun _ ↦ zeroNumbers)
  toFloat _ := some zeroFloat
  column := some

theorem sample_vector : validateVector sampleHost zeroNumbers = some zeroVector := by
  have hmap : zeroNumbers.mapM (readNumber sampleHost) = some zeroVector.values := by
    have hread : readNumber sampleHost (.int 0) = some zeroFloat := rfl
    unfold zeroNumbers zeroVector
    exact mapM_replicate hread embeddingDimensions
  have hlength : zeroNumbers.length = embeddingDimensions := by
    unfold zeroNumbers
    exact List.length_replicate
  unfold validateVector
  rw [dif_pos hlength]
  split
  · next values hv =>
    rw [hmap] at hv
    cases hv
    rfl
  · next hv =>
    rw [hmap] at hv
    cases hv

theorem sample_batch : validateEmbeddingBatch sampleHost [zeroNumbers] 1 = .ok [zeroVector] := by
  have hone : [zeroNumbers].length = 1 := rfl
  rw [validateEmbeddingBatch, if_neg (not_not.mpr hone), List.mapM_cons, sample_vector]
  rfl

def sampleTime : Datetime := sampleDate.midnight

def sampleCall : IndexCall := ⟨fun _ ↦ none, sampleId, .aware sampleTime⟩

def sampleDocument : KnowledgeDocument where
  id := sampleId 500
  userId := sampleId 600
  displayName := "notes.txt".toList
  mediaType := "text/plain".toList
  byteCount := 1
  contentSha256 := sampleDigest
  pageCount := 1
  extractedText := ['a']
  status := .parsed
  createdAt := sampleTime
  updatedAt := sampleTime

def sampleDb : Db where
  documents := [sampleDocument]
  chunks := [⟨⟨1, 0, ['b'], sampleDigest, zeroVector⟩, sampleId 700, sampleId 500, sampleId 600⟩]

theorem sampleDb_stored : Stored sampleDb where
  unique := List.nodup_singleton _
  owned c hc := by
    rw [List.mem_singleton.mp hc]
    exact ⟨sampleDocument, List.mem_cons_self, rfl, rfl⟩

theorem sample_chunks : chunkDocumentText sampleHost.sha256 ['a'] 1 =
    some [⟨1, 0, ['a'], sampleDigest⟩] := by
  have hwindows : pageWindows 1 [['a']] = [(1, ['a'])] := by
    rw [pageWindows_cons, Library.Windows.windows_short chunkWindow (List.cons_ne_nil _ _) (by decide)]
    rfl
  have hpages : pageTexts ['a'] 1 = some [['a']] := rfl
  rw [chunkDocumentText_eq sampleHost.sha256 hpages, hwindows]
  rfl

theorem sample_run : ∃ response s,
    indexKnowledgeDocument sampleHost sampleCall (sampleId 500) (sampleId 600) (.start sampleDb) =
      (.ok response, s) := by
  have hbody : ∃ response done, indexBody sampleHost sampleCall (sampleId 500) (sampleId 600)
      (.start sampleDb) = (.ok response, done) := by
    unfold indexBody
    rw [Program.bind_of_ok (statement_of_ok rfl rfl)]
    change ∃ response done, (Program.ofOption IndexError.indexing
      (chunkDocumentText sampleHost.sha256 ['a'] 1) >>= _) _ = (.ok response, done)
    rw [sample_chunks]
    change ∃ response done, (Program.ofExcept (validateEmbeddingBatch sampleHost
      [zeroNumbers] 1) >>= _) _ = (.ok response, done)
    rw [sample_batch]
    exact ⟨_, _, rfl⟩
  obtain ⟨response, done, hrun⟩ := hbody
  exact ⟨response, _, transact_of_ok hrun rfl⟩

end LearningTasks.Services.DocumentIndex
