import LearningTasks.Library.KeyLocks
import LearningTasks.Services.DocumentUploads
import LearningTasks.Services.KnowledgeQueries

namespace LearningTasks.Services.KnowledgeBase

open Library.Strings Library.Records Library.Programs Library.Sessions Library.Sessions.Session
  Library.Transition Library.KeyLocks Schemas.Scalars Agent.ReadTools
  Agent.Retrieval KnowledgeDocuments KnowledgeDocumentIndexing DocumentIndex DocumentUploads
  KnowledgeRetrieval KnowledgeQueries

/-- The tables, and the ids of all chunks that there have been: the server does not give
one of them to a new row. -/
structure Base extends Db where
  used : List UUID

inductive Key
  | document (id : UUID)
  | chunk (id : UUID)
  | ordinal (documentId : UUID) (ordinal : ℕ)
  deriving DecidableEq

/-- How far a transaction has come: an upload, an indexing or a search. The searches keep
what was committed when their statements were sent. -/
inductive Phase
  | idle
  | uploaded (row : KnowledgeDocument)
  | found (document : KnowledgeDocument)
  | planned (document : KnowledgeDocument) (values : List ChunkCreate)
  | matched (document : KnowledgeDocument) (values : List ChunkCreate) (seen : List ChunkRow)
  | deleted (document : KnowledgeDocument) (values : List ChunkCreate) (taken : List ChunkRow)
  | inserted (document : KnowledgeDocument) (taken rows : List ChunkRow)
  | marked (document : KnowledgeDocument) (taken rows : List ChunkRow) (updatedAt : Datetime)
  | ranked (userId : UUID) (query : KnowledgeSearchQuery)
      (embedded : Except IndexError (List (List RawNumber))) (base : Base)
  | answered (userId : UUID) (query : KnowledgeSearchQuery)
      (embedded : Except IndexError (List (List RawNumber))) (base base' : Base)
      (result : Except SearchError (List KnowledgeCitation))

inductive Action
  | upload (file : Upload) (userId id : UUID) (now : Datetime)
  | find (documentId userId : UUID)
  | embed (raw : List (List RawNumber))
  | delete
  | take
  | insert (newId : ℕ → UUID)
  | mark (updatedAt : Datetime)
  | rank (userId : UUID) (query : KnowledgeSearchQuery)
      (embedded : Except IndexError (List (List RawNumber)))
  | answer

def rowKeys (c : ChunkRow) : List Key := [.chunk c.id, .ordinal c.documentId c.ordinal]

def Phase.holds : Phase → List Key
  | .uploaded row => [.document row.id]
  | .deleted _ _ taken => taken.flatMap rowKeys
  | .inserted _ taken rows => taken.flatMap rowKeys ++ rows.flatMap rowKeys
  | .marked document taken rows _ =>
    .document document.id :: (taken.flatMap rowKeys ++ rows.flatMap rowKeys)
  | _ => []

/-- The chunks to create, from the document that was found and the provider's answer. -/
def plan (host : IndexHost) (document : KnowledgeDocument) (raw : List (List RawNumber)) :
    Option (List ChunkCreate) := do
  let chunks ← chunkDocumentText host.sha256 document.extractedText document.pageCount
  let vectors ← (validateEmbeddingBatch host raw chunks.length).toOption
  (createValues chunks vectors).toOption

def Base.without (base : Base) (taken : List ChunkRow) : Db :=
  { base.toDb with chunks := base.chunks.filter fun c ↦ c.id ∉ taken.map ChunkRow.id }

section

variable (parser : Host) (host : IndexHost) (engine : SearchEngine) (order : SetOrder)

/-- The result of a search whose two statements have seen two states of the tables. -/
def searched (userId : UUID) (query : KnowledgeSearchQuery)
    (embedded : Except IndexError (List (List RawNumber))) (base base' : Base) :
    Except SearchError (List KnowledgeCitation) :=
  searchOwnedKnowledge order { host with embed := fun _ ↦ embedded }
    (repository engine base.toDb base'.toDb) query userId

/-- The statements of the three transactions up to their commits. The DELETE sees the
chunks that are committed when it starts and takes those that are left once it has their
locks. A statement that raises has no next phase: the transaction can only be rolled back. -/
def advance (base : Base) : Phase → Action → Option Phase
  | .idle, .upload file userId id now =>
    match parseKnowledgeDocument parser file.filename file.mediaType file.content with
    | .error _ => none
    | .ok parsed =>
      match insertDocument (newDocument parsed id userId now) base.toDb with
      | .ok (row, _) => some (.uploaded row)
      | .error _ => none
  | .idle, .find documentId userId => (base.getOwned documentId userId).map .found
  | .found document, .embed raw => (plan host document raw).map (.planned document)
  | .planned document values, .delete =>
    some (.matched document values (base.chunks.filter fun c ↦
      c.documentId = document.id ∧ c.userId = document.userId))
  | .matched document values seen, .take =>
    some (.deleted document values (base.chunks.filter fun c ↦ c.id ∈ seen.map ChunkRow.id))
  | .deleted document values taken, .insert newId =>
    match (base.without taken).insertChunks host newId document.id document.userId values with
    | .ok (rows, _) =>
      if ∀ c ∈ rows, c.id ∉ base.used then some (.inserted document taken rows) else none
    | .error _ => none
  | .inserted document taken rows, .mark updatedAt =>
    (indexResponse (document.markIndexed updatedAt) rows.length).map fun _ ↦
      .marked document taken rows updatedAt
  | .idle, .rank userId query embedded => some (.ranked userId query embedded base)
  | .ranked userId query embedded base', .answer =>
    some (.answered userId query embedded base' base
      (searched host engine order userId query embedded base' base))
  | _, _ => none

def commit (base : Base) : Phase → Option Base
  | .uploaded row => some { base with documents := base.documents ++ [row] }
  | .marked document taken rows updatedAt =>
    let replaced := { base.without taken with chunks := (base.without taken).chunks ++ rows }
    some ⟨replaced.markIndexed document.id updatedAt, base.used ++ rows.map ChunkRow.id⟩
  | _ => none

def protocol : Protocol Base Phase Action Key where
  idle := .idle
  holds := Phase.holds
  advance := advance parser host engine order
  commit := commit

def initial (base : Base) : Prop := base.documents = [] ∧ base.chunks = []

/-- Any number of uploads, indexings and searches of any users, from empty tables. -/
def knowledgeMachine (τ : Type) [DecidableEq τ] :
    Machine (State τ Base Phase Key) (Move τ Action) :=
  machine (protocol parser host engine order) initial

end

def Kept (d d' : KnowledgeDocument) : Prop :=
  ∃ status updatedAt, d' = { d with status := status, updatedAt := updatedAt }

def Uploaded (parser : Host) (d : KnowledgeDocument) : Prop :=
  ∃ (file : Upload) (parsed : _),
    parseKnowledgeDocument parser file.filename file.mediaType file.content = .ok parsed ∧
      Kept (newDocument parsed d.id d.userId d.createdAt) d

/-- All chunks of a document, each with its vector in one answer of the provider. -/
def Contents (host : IndexHost) (d : KnowledgeDocument) (values : List ChunkCreate) : Prop :=
  ∃ chunks raw vectors, chunkDocumentText host.sha256 d.extractedText d.pageCount = some chunks ∧
    validateEmbeddingBatch host raw chunks.length = .ok vectors ∧
    chunks.length = vectors.length ∧
    List.Forall₂ (fun c row ↦ StoredAs host c.1 c.2 row) (chunks.zip vectors) values

inductive Whole (host : IndexHost) (base : Base) (d : KnowledgeDocument) : Prop
  | parsed (status : d.status = .parsed) (chunks : base.chunksOf d.id = [])
  | indexed (status : d.status = .indexed) (chunks : Contents host d (base.chunksOf d.id))

structure Sane (parser : Host) (host : IndexHost) (base : Base) : Prop extends
    Stored base.toDb where
  uploaded : ∀ d ∈ base.documents, Uploaded parser d ∧ documentConstraints d = true
  whole : ∀ d ∈ base.documents, Whole host base d
  rows : ∀ c ∈ base.chunks, chunkConstraints c.toChunkCreate = true ∧ c.id ∈ base.used
  ids : (base.chunks.map ChunkRow.id).Nodup

/-- What the tables are later: no document goes, its text stays, it stays indexed, and a
new chunk has a new id. -/
structure Later (base base' : Base) : Prop where
  documents : ∀ d ∈ base.documents, ∃ d' ∈ base'.documents, Kept d d' ∧
    (d.status = .indexed → d'.status = .indexed)
  chunks : ∀ c ∈ base'.chunks, c ∈ base.chunks ∨ c.id ∉ base.used
  used : base.used ⊆ base'.used

def Same : Key → Base → Base → Prop
  | .document id, base, base' => ∀ d, d.id = id → (d ∈ base.documents ↔ d ∈ base'.documents)
  | .chunk id, base, base' => (id ∈ base.used ↔ id ∈ base'.used) ∧
      ∀ c, c.id = id → (c ∈ base.chunks ↔ c ∈ base'.chunks)
  | .ordinal documentId n, base, base' =>
      ∀ c, c.documentId = documentId → c.ordinal = n → (c ∈ base.chunks ↔ c ∈ base'.chunks)

def Known (base : Base) (d : KnowledgeDocument) : Prop := ∃ d' ∈ base.documents, Kept d d'

def Planned (host : IndexHost) (d : KnowledgeDocument) (values : List ChunkCreate) : Prop :=
  ∃ chunks raw vectors, chunkDocumentText host.sha256 d.extractedText d.pageCount = some chunks ∧
    validateEmbeddingBatch host raw chunks.length = .ok vectors ∧
    chunks.length = vectors.length ∧ values = (chunks.zip vectors).map fun c ↦
      ⟨c.1.pageNumber, c.1.ordinal, c.1.content, c.1.contentFingerprint, c.2⟩

/-- Committed chunks of a document that a transaction has locked. -/
def Taken (base : Base) (d : KnowledgeDocument) (taken : List ChunkRow) : Prop :=
  ∀ c ∈ taken, c ∈ base.chunks ∧ c.documentId = d.id

structure Replacing (host : IndexHost) (base : Base) (d : KnowledgeDocument)
    (taken rows : List ChunkRow) : Prop where
  known : Known base d
  locked : Taken base d taken
  complete : ∀ c ∈ base.chunks, c.documentId = d.id → c.id ∈ taken.map ChunkRow.id
  contents : Contents host d (rows.map ChunkRow.toChunkCreate)
  keys : ∀ c ∈ rows, c.documentId = d.id ∧ c.userId = d.userId
  fresh : ∀ c ∈ rows, chunkConstraints c.toChunkCreate = true ∧ c.id ∉ base.used
  ids : (rows.map ChunkRow.id).Nodup

def PhaseInv (parser : Host) (host : IndexHost) (engine : SearchEngine) (order : SetOrder)
    (base : Base) : Phase → Prop
  | .idle => True
  | .uploaded row => Uploaded parser row ∧ documentConstraints row = true ∧
      row.status = .parsed ∧ ∀ d ∈ base.documents, d.id ≠ row.id
  | .found document => Known base document
  | .planned document values => Known base document ∧ Planned host document values
  | .matched document values seen => Known base document ∧ Planned host document values ∧
      (∀ c ∈ seen, c.id ∈ base.used) ∧
      ∀ c ∈ base.chunks, c.id ∈ seen.map ChunkRow.id → c.documentId = document.id
  | .deleted document values taken => Known base document ∧ Planned host document values ∧
      Taken base document taken
  | .inserted document taken rows => Replacing host base document taken rows
  | .marked document taken rows _ => Replacing host base document taken rows
  | .ranked _ _ _ base' => Sane parser host base' ∧ Later base' base
  | .answered userId query embedded base₁ base₂ result => Sane parser host base₁ ∧
      Sane parser host base₂ ∧ Later base₁ base₂ ∧ Later base₂ base ∧
      result = searched host engine order userId query embedded base₁ base₂

section

variable {d d' d'' : KnowledgeDocument} {base base' base'' : Base}

theorem Kept.refl (d : KnowledgeDocument) : Kept d d := ⟨d.status, d.updatedAt, rfl⟩

theorem Kept.trans (h : Kept d d') (h' : Kept d' d'') : Kept d d'' := by
  obtain ⟨status, updatedAt, rfl⟩ := h
  obtain ⟨status', updatedAt', rfl⟩ := h'
  exact ⟨status', updatedAt', rfl⟩

theorem Kept.symm (h : Kept d d') : Kept d' d := by
  obtain ⟨status, updatedAt, rfl⟩ := h
  exact ⟨d.status, d.updatedAt, rfl⟩

theorem Kept.id (h : Kept d d') : d'.id = d.id := by
  obtain ⟨status, updatedAt, rfl⟩ := h
  rfl

theorem Kept.userId (h : Kept d d') : d'.userId = d.userId := by
  obtain ⟨status, updatedAt, rfl⟩ := h
  rfl

theorem kept_markIndexed (d : KnowledgeDocument) (now : Datetime) : Kept d (d.markIndexed now) :=
  ⟨.indexed, now, rfl⟩

theorem Kept.contents {host : IndexHost} {values : List ChunkCreate} (h : Kept d d')
    (hc : Contents host d values) : Contents host d' values := by
  obtain ⟨status, updatedAt, rfl⟩ := h
  exact hc

theorem Kept.uploaded {parser : Host} (h : Kept d d') (hd : Uploaded parser d) :
    Uploaded parser d' := by
  obtain ⟨status, updatedAt, rfl⟩ := h
  obtain ⟨file, parsed, hparse, hkept⟩ := hd
  exact ⟨file, parsed, hparse, hkept.trans ⟨status, updatedAt, rfl⟩⟩

theorem Kept.constraints (h : Kept d d') : documentConstraints d' = documentConstraints d := by
  obtain ⟨status, updatedAt, rfl⟩ := h
  rfl

theorem Later.refl (base : Base) : Later base base where
  documents d hd := ⟨d, hd, Kept.refl d, fun h ↦ h⟩
  chunks _ hc := .inl hc
  used := List.Subset.refl _

theorem Later.trans (h : Later base base') (h' : Later base' base'') : Later base base'' where
  documents d hd := by
    obtain ⟨d', hd', hkept, hstatus⟩ := h.documents d hd
    obtain ⟨d'', hd'', hkept', hstatus'⟩ := h'.documents d' hd'
    exact ⟨d'', hd'', hkept.trans hkept', fun hi ↦ hstatus' (hstatus hi)⟩
  chunks c hc := by
    rcases h'.chunks c hc with hc | hnew
    · exact h.chunks c hc
    · exact .inr fun hused ↦ hnew (h.used hused)
  used _ hid := h'.used (h.used hid)

theorem Known.later (h : Later base base') (hd : Known base d) : Known base' d := by
  obtain ⟨d₁, hd₁, hkept⟩ := hd
  obtain ⟨d₂, hd₂, hkept', -⟩ := h.documents d₁ hd₁
  exact ⟨d₂, hd₂, hkept.trans hkept'⟩

end

section

variable {parser : Host} {host : IndexHost} {engine : SearchEngine} {order : SetOrder}
  {base base' : Base} {d : KnowledgeDocument} {values : List ChunkCreate}
  {taken rows : List ChunkRow}

theorem Contents.ordinals {values' : List ChunkCreate} (h : Contents host d values)
    (h' : Contents host d values') :
    values.map ChunkCreate.ordinal = values'.map ChunkCreate.ordinal := by
  have hall {values : List ChunkCreate} {chunks : List DeterministicDocumentChunk}
      {vectors : List EmbeddingVector} (hlength : chunks.length = vectors.length)
      (hstored : List.Forall₂ (fun c row ↦ StoredAs host c.1 c.2 row) (chunks.zip vectors) values) :
      values.map ChunkCreate.ordinal = chunks.map DeterministicDocumentChunk.ordinal := by
    have hfst : (chunks.zip vectors).map Prod.fst = chunks := List.map_fst_zip hlength.le
    have hsame : List.Forall₂ (fun (c : DeterministicDocumentChunk × EmbeddingVector) row ↦
        c.1.ordinal = ChunkCreate.ordinal row) (chunks.zip vectors) values :=
      hstored.imp fun c row hrow ↦ hrow.ordinal.symm
    rw [← hfst, List.map_map]
    have heq : List.Forall₂ Eq ((chunks.zip vectors).map fun c ↦ c.1.ordinal)
        (values.map ChunkCreate.ordinal) := by
      rw [List.forall₂_map_left_iff, List.forall₂_map_right_iff]
      exact hsame
    exact (List.forall₂_eq_eq_eq ▸ heq).symm
  obtain ⟨chunks, -, vectors, hchunks, -, hlength, hstored⟩ := h
  obtain ⟨chunks', -, vectors', hchunks', -, hlength', hstored'⟩ := h'
  obtain rfl := Option.some.inj (hchunks.symm.trans hchunks')
  rw [hall hlength hstored, hall hlength' hstored']

theorem Sane.ordinal_mem (hs : Sane parser host base) (hknown : Known base d)
    (hcontents : Contents host d values) {c : ChunkRow} (hc : c ∈ base.chunks)
    (hid : c.documentId = d.id) : c.ordinal ∈ values.map ChunkCreate.ordinal := by
  obtain ⟨d', hd', hkept⟩ := hknown
  have hof : c.toChunkCreate ∈ base.chunksOf d'.id := by
    refine List.mem_map_of_mem (List.mem_filter.mpr ⟨hc, ?_⟩)
    exact decide_eq_true (hid.trans hkept.id.symm)
  cases hs.whole d' hd' with
  | parsed status chunks =>
    rw [chunks] at hof
    cases hof
  | indexed status chunks =>
    rw [hcontents.ordinals (hkept.symm.contents chunks)]
    exact List.mem_map_of_mem hof

theorem planned_of_plan {raw : List (List RawNumber)} (h : plan host d raw = some values) :
    Planned host d values := by
  obtain ⟨chunks, hchunks, h⟩ := Option.bind_eq_some_iff.mp h
  obtain ⟨vectors, hvectors, h⟩ := Option.bind_eq_some_iff.mp h
  have hanswer : validateEmbeddingBatch host raw chunks.length = .ok vectors := by
    cases hbatch : validateEmbeddingBatch host raw chunks.length with
    | error e =>
      rw [hbatch] at hvectors
      cases hvectors
    | ok batch =>
      rw [hbatch] at hvectors
      exact congrArg Except.ok (Option.some.inj hvectors)
  unfold createValues at h
  split at h
  · next hlength =>
    cases h
    exact ⟨chunks, raw, vectors, hchunks, hanswer, hlength, rfl⟩
  · cases h

theorem insertChunks_rows {newId : ℕ → UUID} {documentId userId : UUID} {db db' : Db}
    (h : db.insertChunks host newId documentId userId values = .ok (rows, db')) :
    chunkRows host newId documentId userId values = some rows ∧
      (∀ c ∈ rows, chunkConstraints c.toChunkCreate = true) ∧
      ((db.chunks ++ rows).map ChunkRow.id).Nodup ∧
      ((db.chunks ++ rows).map fun c ↦ (c.documentId, c.ordinal)).Nodup := by
  unfold Db.insertChunks at h
  cases hr : chunkRows host newId documentId userId values with
  | none =>
    rw [hr] at h
    cases h
  | some rows' =>
    simp only [hr] at h
    split at h
    · next hc =>
      cases h
      exact ⟨rfl, List.all_eq_true.mp hc.1, hc.2.1, hc.2.2.1⟩
    · cases h

theorem Planned.contents {newId : ℕ → UUID} (h : Planned host d values)
    (hrows : chunkRows host newId d.id d.userId values = some rows) :
    Contents host d (rows.map ChunkRow.toChunkCreate) := by
  obtain ⟨chunks, raw, vectors, hchunks, hanswer, hlength, rfl⟩ := h
  refine ⟨chunks, raw, vectors, hchunks, hanswer, hlength, ?_⟩
  have hall := (chunkRows_some hrows).2
  rw [List.forall₂_map_left_iff] at hall
  rw [List.forall₂_map_right_iff]
  refine hall.imp fun c row hrow ↦ ?_
  obtain ⟨embedding, he, heq⟩ := hrow
  rw [heq]
  exact ⟨rfl, rfl, rfl, rfl, he⟩

theorem replacing_of_insert (hs : Sane parser host base) (hknown : Known base d)
    (hplanned : Planned host d values) (hlocked : Taken base d taken) {newId : ℕ → UUID} {db' : Db}
    (h : (base.without taken).insertChunks host newId d.id d.userId values = .ok (rows, db'))
    (hfresh : ∀ c ∈ rows, c.id ∉ base.used) : Replacing host base d taken rows := by
  obtain ⟨hrows, hconstraints, hids, hordinals⟩ := insertChunks_rows h
  have hkeys := (chunkRows_some hrows).1
  have hcontents := hplanned.contents hrows
  refine ⟨hknown, hlocked, fun c hc hid ↦ ?_, hcontents, hkeys,
    fun c hc ↦ ⟨hconstraints c hc, hfresh c hc⟩, ?_⟩
  · by_contra hleft
    have hmem := hs.ordinal_mem hknown hcontents hc hid
    rw [List.map_map, List.mem_map] at hmem
    obtain ⟨row, hrow, hordinal⟩ := hmem
    have hstays : c ∈ (base.without taken).chunks :=
      List.mem_filter.mpr ⟨hc, decide_eq_true hleft⟩
    rw [List.map_append, List.nodup_append] at hordinals
    refine hordinals.2.2 (c.documentId, c.ordinal) (List.mem_map_of_mem hstays)
      (row.documentId, row.ordinal) (List.mem_map_of_mem hrow) ?_
    rw [hid, (hkeys row hrow).1]
    exact congrArg (Prod.mk d.id) hordinal.symm
  · rw [List.map_append, List.nodup_append] at hids
    exact hids.2.1

theorem advance_inv {p p' : Phase} {a : Action} (hs : Sane parser host base)
    (hp : PhaseInv parser host engine order base p)
    (h : advance parser host engine order base p a = some p') :
    PhaseInv parser host engine order base p' := by
  unfold advance at h
  split at h
  · next file userId id now =>
    split at h
    · cases h
    · next parsed hparse =>
      split at h
      · next row db' hinsert =>
        cases h
        obtain ⟨rfl, -, hconstraints, hfresh⟩ := insertDocument_ok hinsert
        exact ⟨⟨file, parsed, hparse, Kept.refl _⟩, hconstraints, rfl, hfresh⟩
      · cases h
  · next documentId userId =>
    obtain ⟨document, hfound, rfl⟩ := Option.map_eq_some_iff.mp h
    exact ⟨document, (getOwned_some hfound).1, Kept.refl _⟩
  · next document raw =>
    obtain ⟨values, hplan, rfl⟩ := Option.map_eq_some_iff.mp h
    exact ⟨hp, planned_of_plan hplan⟩
  · next document values =>
    cases h
    refine ⟨hp.1, hp.2, fun c hc ↦ (hs.rows c (List.mem_of_mem_filter hc)).2, fun c hc hid ↦ ?_⟩
    obtain ⟨seen, hseen, hsame⟩ := List.mem_map.mp hid
    obtain ⟨hmem, hkey⟩ := List.mem_filter.mp hseen
    rw [List.inj_on_of_nodup_map hs.ids hc hmem hsame.symm]
    exact (of_decide_eq_true hkey).1
  · next document values seen =>
    cases h
    obtain ⟨hknown, hplanned, -, hdocument⟩ := hp
    refine ⟨hknown, hplanned, fun c hc ↦ ?_⟩
    obtain ⟨hmem, hid⟩ := List.mem_filter.mp hc
    exact ⟨hmem, hdocument c hmem (of_decide_eq_true hid)⟩
  · next document values taken newId =>
    split at h
    · next rows db' hinsert =>
      split at h
      · next hfresh =>
        cases h
        exact replacing_of_insert hs hp.1 hp.2.1 hp.2.2 hinsert hfresh
      · cases h
    · cases h
  · next document taken rows updatedAt =>
    obtain ⟨response, -, rfl⟩ := Option.map_eq_some_iff.mp h
    exact hp
  · next userId query embedded =>
    cases h
    exact ⟨hs, Later.refl base⟩
  · next userId query embedded base' =>
    cases h
    exact ⟨hp.1, hs, hp.2, Later.refl base, rfl⟩
  · cases h

/-- The tables once new chunks have replaced the old ones and the document is marked. -/
def replaced (base : Base) (d : KnowledgeDocument) (taken rows : List ChunkRow) (now : Datetime) :
    Base :=
  ⟨Db.markIndexed { base.without taken with chunks := (base.without taken).chunks ++ rows } d.id
      now,
    base.used ++ rows.map ChunkRow.id⟩

theorem mem_replaced_chunks {now : Datetime} {c : ChunkRow} :
    c ∈ (replaced base d taken rows now).chunks ↔
      (c ∈ base.chunks ∧ c.id ∉ taken.map ChunkRow.id) ∨ c ∈ rows := by
  change c ∈ (base.without taken).chunks ++ rows ↔ _
  rw [List.mem_append, Base.without, List.mem_filter, decide_eq_true_eq]

theorem mem_replaced_documents {now : Datetime} {r : KnowledgeDocument} :
    r ∈ (replaced base d taken rows now).documents ↔
      ∃ r' ∈ base.documents, (if r'.id = d.id then r'.markIndexed now else r') = r := List.mem_map

theorem commit_cases {p : Phase} (h : commit base p = some base') :
    (∃ row, p = .uploaded row ∧ base' = { base with documents := base.documents ++ [row] }) ∨
    ∃ document taken rows now, p = .marked document taken rows now ∧
      base' = replaced base document taken rows now := by
  unfold commit at h
  split at h
  · next row =>
    cases h
    exact .inl ⟨row, rfl, rfl⟩
  · next document taken rows now =>
    cases h
    exact .inr ⟨document, taken, rows, now, rfl, rfl⟩
  · cases h

theorem marked_kept (now : Datetime) (d r : KnowledgeDocument) :
    Kept r (if r.id = d.id then r.markIndexed now else r) := by
  split
  · exact kept_markIndexed r now
  · exact Kept.refl r

theorem later_upload (row : KnowledgeDocument) :
    Later base { base with documents := base.documents ++ [row] } where
  documents r hr := ⟨r, List.mem_append_left _ hr, Kept.refl r, fun hi ↦ hi⟩
  chunks _ hc := .inl hc
  used := List.Subset.refl _

theorem Replacing.later (h : Replacing host base d taken rows) (now : Datetime) :
    Later base (replaced base d taken rows now) where
  documents r hr := by
    refine ⟨_, mem_replaced_documents.mpr ⟨r, hr, rfl⟩, marked_kept now d r, fun hi ↦ ?_⟩
    split
    · rfl
    · exact hi
  chunks c hc := by
    rcases mem_replaced_chunks.mp hc with ⟨hc, -⟩ | hc
    · exact .inl hc
    · exact .inr (h.fresh c hc).2
  used _ hid := List.mem_append_left _ hid

theorem Replacing.chunksOf_self (h : Replacing host base d taken rows) (now : Datetime) :
    (replaced base d taken rows now).chunksOf d.id = rows.map ChunkRow.toChunkCreate := by
  have hnone : (base.without taken).chunks.filter (·.documentId = d.id) = [] := by
    rw [List.filter_eq_nil_iff]
    intro c hc hid
    obtain ⟨hmem, hleft⟩ := List.mem_filter.mp hc
    exact of_decide_eq_true hleft (h.complete c hmem (of_decide_eq_true hid))
  have hall : rows.filter (·.documentId = d.id) = rows := by
    rw [List.filter_eq_self]
    exact fun c hc ↦ decide_eq_true (h.keys c hc).1
  change ((((base.without taken).chunks ++ rows).filter (·.documentId = d.id)).map _) = _
  rw [List.filter_append, hnone, hall, List.nil_append]

theorem Replacing.chunksOf_other (h : Replacing host base d taken rows)
    (hs : Sane parser host base) (now : Datetime) {id : UUID} (hne : id ≠ d.id) :
    (replaced base d taken rows now).chunksOf id = base.chunksOf id := by
  have hnone : rows.filter (·.documentId = id) = [] := by
    rw [List.filter_eq_nil_iff]
    intro c hc hid
    exact hne ((of_decide_eq_true hid).symm.trans (h.keys c hc).1)
  have hall : (base.without taken).chunks.filter (·.documentId = id) =
      base.chunks.filter (·.documentId = id) := by
    rw [Base.without, List.filter_filter]
    refine List.filter_congr fun c hc ↦ ?_
    by_cases hid : c.documentId = id
    · have hleft : c.id ∉ taken.map ChunkRow.id := by
        intro htaken
        obtain ⟨t, ht, hsame⟩ := List.mem_map.mp htaken
        obtain ⟨hmem, hdocument⟩ := h.locked t ht
        rw [List.inj_on_of_nodup_map hs.ids hmem hc hsame] at hdocument
        exact hne (hid.symm.trans hdocument)
      simp [hid, hleft]
    · simp [hid]
  change ((((base.without taken).chunks ++ rows).filter (·.documentId = id)).map _) = _
  rw [List.filter_append, hnone, hall, List.append_nil]
  rfl

theorem sane_upload (hs : Sane parser host base) {row : KnowledgeDocument}
    (h : PhaseInv parser host engine order base (.uploaded row)) :
    Sane parser host { base with documents := base.documents ++ [row] } := by
  obtain ⟨huploaded, hconstraints, hstatus, hfresh⟩ := h
  refine ⟨Stored.insert hs.toStored hfresh, fun r hr ↦ ?_, fun r hr ↦ ?_, hs.rows, hs.ids⟩
  · rcases List.mem_append.mp hr with hr | hr
    · exact hs.uploaded r hr
    · rw [List.mem_singleton.mp hr]
      exact ⟨huploaded, hconstraints⟩
  · rcases List.mem_append.mp hr with hr | hr
    · cases hs.whole r hr with
      | parsed status chunks => exact .parsed status chunks
      | indexed status chunks => exact .indexed status chunks
    · rw [List.mem_singleton.mp hr]
      have hnone : base.chunks.filter (·.documentId = row.id) = [] := by
        rw [List.filter_eq_nil_iff]
        intro c hc hid
        obtain ⟨r, hr, hkey, -⟩ := hs.owned c hc
        exact hfresh r hr (hkey.trans (of_decide_eq_true hid))
      refine .parsed hstatus ?_
      change (base.chunks.filter (·.documentId = row.id)).map _ = []
      rw [hnone]
      rfl

theorem Replacing.stored (h : Replacing host base d taken rows) (hs : Sane parser host base)
    (now : Datetime) : Stored (replaced base d taken rows now).toDb where
  unique := by
    have hids : (replaced base d taken rows now).documents.map KnowledgeDocument.id =
        base.documents.map KnowledgeDocument.id := by
      change (base.documents.map _).map _ = _
      rw [List.map_map]
      exact List.map_congr_left fun r _ ↦ (marked_kept now d r).id
    rw [hids]
    exact hs.unique
  owned c hc := by
    have hfound : ∃ r ∈ base.documents, r.id = c.documentId ∧ r.userId = c.userId := by
      rcases mem_replaced_chunks.mp hc with ⟨hc, -⟩ | hc
      · exact hs.owned c hc
      · obtain ⟨r, hr, hkept⟩ := h.known
        obtain ⟨hid, huser⟩ := h.keys c hc
        exact ⟨r, hr, hkept.id.trans hid.symm, hkept.userId.trans huser.symm⟩
    obtain ⟨r, hr, hid, huser⟩ := hfound
    have hkept := marked_kept now d r
    exact ⟨_, mem_replaced_documents.mpr ⟨r, hr, rfl⟩, hkept.id.trans hid, hkept.userId.trans huser⟩

theorem Replacing.whole (h : Replacing host base d taken rows) (hs : Sane parser host base)
    (now : Datetime) {r : KnowledgeDocument} (hr : r ∈ base.documents) :
    Whole host (replaced base d taken rows now) (if r.id = d.id then r.markIndexed now else r) := by
  by_cases hid : r.id = d.id
  · rw [if_pos hid]
    obtain ⟨d', hd', hkept⟩ := h.known
    have heq : d' = r :=
      List.inj_on_of_nodup_map hs.unique hd' hr (hkept.id.trans hid.symm)
    have hkept' : Kept d (r.markIndexed now) := (heq ▸ hkept).trans (kept_markIndexed r now)
    refine .indexed rfl ?_
    rw [hkept'.id, h.chunksOf_self now]
    exact hkept'.contents h.contents
  · rw [if_neg hid]
    cases hs.whole r hr with
    | parsed status chunks =>
      refine .parsed status ?_
      rw [h.chunksOf_other hs now hid, chunks]
    | indexed status chunks =>
      refine .indexed status ?_
      rw [h.chunksOf_other hs now hid]
      exact chunks

theorem Replacing.sane (h : Replacing host base d taken rows) (hs : Sane parser host base)
    (now : Datetime) : Sane parser host (replaced base d taken rows now) := by
  refine ⟨h.stored hs now, fun r hr ↦ ?_, fun r hr ↦ ?_, fun c hc ↦ ?_, ?_⟩
  · obtain ⟨r', hr', rfl⟩ := mem_replaced_documents.mp hr
    obtain ⟨huploaded, hconstraints⟩ := hs.uploaded r' hr'
    have hkept := marked_kept now d r'
    exact ⟨hkept.uploaded huploaded, hkept.constraints.trans hconstraints⟩
  · obtain ⟨r', hr', rfl⟩ := mem_replaced_documents.mp hr
    exact h.whole hs now hr'
  · rcases mem_replaced_chunks.mp hc with ⟨hc, -⟩ | hc
    · exact ⟨(hs.rows c hc).1, List.mem_append_left _ (hs.rows c hc).2⟩
    · exact ⟨(h.fresh c hc).1, List.mem_append_right _ (List.mem_map_of_mem hc)⟩
  · change (((base.without taken).chunks ++ rows).map ChunkRow.id).Nodup
    rw [List.map_append, List.nodup_append]
    refine ⟨List.Nodup.sublist (List.filter_sublist.map _) hs.ids, h.ids, fun id hid id' hid' ↦ ?_⟩
    obtain ⟨c, hc, rfl⟩ := List.mem_map.mp hid
    obtain ⟨c', hc', rfl⟩ := List.mem_map.mp hid'
    intro hsame
    refine (h.fresh c' hc').2 ?_
    rw [← hsame]
    exact (hs.rows c (List.mem_of_mem_filter hc)).2

theorem commit_sane {p : Phase} (hs : Sane parser host base)
    (hp : PhaseInv parser host engine order base p) (h : commit base p = some base') :
    Sane parser host base' := by
  obtain ⟨row, rfl, rfl⟩ | ⟨d, taken, rows, now, rfl, rfl⟩ := commit_cases h
  · exact sane_upload hs hp
  · exact Replacing.sane hp hs now

theorem commit_later {p : Phase} (hp : PhaseInv parser host engine order base p)
    (h : commit base p = some base') : Later base base' := by
  obtain ⟨row, rfl, rfl⟩ | ⟨d, taken, rows, now, rfl, rfl⟩ := commit_cases h
  · exact later_upload row
  · exact Replacing.later hp now

theorem chunk_mem_keys {l : List ChunkRow} {c : ChunkRow} (h : c ∈ l) :
    Key.chunk c.id ∈ l.flatMap rowKeys ∧ Key.ordinal c.documentId c.ordinal ∈ l.flatMap rowKeys :=
  ⟨List.mem_flatMap.mpr ⟨c, h, List.mem_cons_self⟩,
    List.mem_flatMap.mpr ⟨c, h, List.mem_cons_of_mem _ List.mem_cons_self⟩⟩

theorem mem_replaced_of_apart {now : Datetime} {c : ChunkRow}
    (htaken : c.id ∉ taken.map ChunkRow.id) (hrows : c ∉ rows) :
    c ∈ base.chunks ↔ c ∈ (replaced base d taken rows now).chunks := by
  rw [mem_replaced_chunks, or_iff_left hrows, and_iff_left htaken]

theorem Replacing.frame (h : Replacing host base d taken rows) (hs : Sane parser host base)
    (now : Datetime) (k : Key) (hk : k ∉ (Phase.marked d taken rows now).holds) :
    Same k base (replaced base d taken rows now) := by
  rw [Phase.holds, List.mem_cons, List.mem_append, not_or, not_or] at hk
  obtain ⟨hdocument, hlocked, hnew⟩ := hk
  cases k with
  | document id =>
    intro r hid
    have hne : r.id ≠ d.id := fun he ↦ hdocument (congrArg Key.document (hid.symm.trans he))
    rw [mem_replaced_documents]
    constructor
    · exact fun hr ↦ ⟨r, hr, if_neg hne⟩
    · rintro ⟨r', hr', rfl⟩
      rw [(marked_kept now d r').id] at hne
      rwa [if_neg hne]
  | chunk id =>
    have htaken : id ∉ taken.map ChunkRow.id := by
      intro hmem
      obtain ⟨t, ht, rfl⟩ := List.mem_map.mp hmem
      exact hlocked (chunk_mem_keys ht).1
    have hrows : id ∉ rows.map ChunkRow.id := by
      intro hmem
      obtain ⟨c, hc, rfl⟩ := List.mem_map.mp hmem
      exact hnew (chunk_mem_keys hc).1
    refine ⟨?_, fun c hid ↦ mem_replaced_of_apart (hid ▸ htaken) fun hc ↦ ?_⟩
    · change id ∈ base.used ↔ id ∈ base.used ++ rows.map ChunkRow.id
      rw [List.mem_append, or_iff_left hrows]
    · exact hrows (hid ▸ List.mem_map_of_mem hc)
  | ordinal documentId n =>
    intro c hid hordinal
    have hrows : c ∉ rows := by
      intro hc
      have hkey := (chunk_mem_keys hc).2
      rw [hid, hordinal] at hkey
      exact hnew hkey
    rw [mem_replaced_chunks, or_iff_left hrows]
    refine ⟨fun hc ↦ ⟨hc, fun hmem ↦ ?_⟩, And.left⟩
    obtain ⟨t, ht, hsame⟩ := List.mem_map.mp hmem
    obtain rfl := List.inj_on_of_nodup_map hs.ids (h.locked t ht).1 hc hsame
    have hkey := (chunk_mem_keys ht).2
    rw [hid, hordinal] at hkey
    exact hlocked hkey

/-- A commit changes what its locks protect. -/
theorem commit_frame {p : Phase} (hs : Sane parser host base)
    (hp : PhaseInv parser host engine order base p) (h : commit base p = some base') (k : Key)
    (hk : k ∉ p.holds) : Same k base base' := by
  obtain ⟨row, rfl, rfl⟩ | ⟨d, taken, rows, now, rfl, rfl⟩ := commit_cases h
  · cases k with
    | document id =>
      intro r hid
      have hne : r ≠ row := by
        rintro rfl
        exact hk (hid ▸ List.mem_cons_self)
      change r ∈ base.documents ↔ r ∈ base.documents ++ [row]
      rw [List.mem_append, List.mem_singleton, or_iff_left hne]
    | chunk id => exact ⟨Iff.rfl, fun _ _ ↦ Iff.rfl⟩
    | ordinal documentId n => exact fun _ _ _ ↦ Iff.rfl
  · exact Replacing.frame hp hs now k hk

theorem Taken.same (hsame : ∀ k ∈ taken.flatMap rowKeys, Same k base base')
    (h : Taken base d taken) : Taken base' d taken := by
  intro c hc
  obtain ⟨hmem, hdocument⟩ := h c hc
  exact ⟨((hsame _ (chunk_mem_keys hc).1).2 c rfl).mp hmem, hdocument⟩

theorem Replacing.same (hs' : Sane parser host base') (hl : Later base base')
    (hsame : ∀ k ∈ taken.flatMap rowKeys ++ rows.flatMap rowKeys, Same k base base')
    (h : Replacing host base d taken rows) : Replacing host base' d taken rows where
  known := h.known.later hl
  locked := h.locked.same fun k hk ↦ hsame k (List.mem_append_left _ hk)
  complete c hc hid := by
    have hmem := hs'.ordinal_mem (h.known.later hl) h.contents hc hid
    rw [List.map_map, List.mem_map] at hmem
    obtain ⟨row, hrow, hordinal⟩ := hmem
    have hkey := hsame _ (List.mem_append_right _ (chunk_mem_keys hrow).2)
    have hbefore := (hkey c (hid.trans (h.keys row hrow).1.symm) hordinal.symm).mpr hc
    exact h.complete c hbefore hid
  contents := h.contents
  keys := h.keys
  fresh c hc := by
    have hkey := hsame _ (List.mem_append_right _ (chunk_mem_keys hc).1)
    exact ⟨(h.fresh c hc).1, fun hused ↦ (h.fresh c hc).2 (hkey.1.mpr hused)⟩
  ids := h.ids

theorem phase_same {p : Phase} (hs' : Sane parser host base') (hl : Later base base')
    (hsame : ∀ k ∈ p.holds, Same k base base')
    (hp : PhaseInv parser host engine order base p) :
    PhaseInv parser host engine order base' p := by
  cases p with
  | idle => trivial
  | uploaded row =>
    obtain ⟨huploaded, hconstraints, hstatus, hfresh⟩ := hp
    refine ⟨huploaded, hconstraints, hstatus, fun r hr hid ↦ ?_⟩
    exact hfresh r ((hsame _ List.mem_cons_self r hid).mpr hr) hid
  | found document => exact Known.later hl hp
  | planned document values => exact ⟨hp.1.later hl, hp.2⟩
  | matched document values seen =>
    obtain ⟨hknown, hplanned, hused, hdocument⟩ := hp
    refine ⟨hknown.later hl, hplanned, fun c hc ↦ hl.used (hused c hc), fun c hc hid ↦ ?_⟩
    rcases hl.chunks c hc with hc | hnew
    · exact hdocument c hc hid
    · obtain ⟨c', hc', heq⟩ := List.mem_map.mp hid
      exact absurd (heq ▸ hused c' hc') hnew
  | deleted document values taken => exact ⟨hp.1.later hl, hp.2.1, hp.2.2.same hsame⟩
  | inserted document taken rows => exact Replacing.same hs' hl hsame hp
  | marked document taken rows now =>
    exact Replacing.same hs' hl (fun k hk ↦ hsame k (List.mem_cons_of_mem _ hk)) hp
  | ranked userId query embedded base₁ => exact ⟨hp.1, hp.2.trans hl⟩
  | answered userId query embedded base₁ base₂ result =>
    obtain ⟨h₁, h₂, h₁₂, h₂₃, hresult⟩ := hp
    exact ⟨h₁, h₂, h₁₂, h₂₃.trans hl, hresult⟩

variable (parser host engine order) in
theorem sound : Sound (protocol parser host engine order) (Sane parser host)
    (PhaseInv parser host engine order) Same Later where
  idle _ := trivial
  holds_idle := rfl
  advance hs hp h := advance_inv hs hp h
  commit hs hp h := commit_sane hs hp h
  later _ hp h := commit_later hp h
  frame hs hp h := commit_frame hs hp h
  same _ hs' hl hsame hp := phase_same hs' hl hsame hp

theorem initial_sane (h : initial base) : Sane parser host base := by
  obtain ⟨hdocuments, hchunks⟩ := h
  refine ⟨⟨?_, ?_⟩, ?_, ?_, ?_, ?_⟩
  · rw [hdocuments]
    exact List.nodup_nil
  · rw [hchunks]
    exact List.forall_mem_nil _
  · rw [hdocuments]
    exact List.forall_mem_nil _
  · rw [hdocuments]
    exact List.forall_mem_nil _
  · rw [hchunks]
    exact List.forall_mem_nil _
  · rw [hchunks]
    exact List.nodup_nil

variable {τ : Type} [DecidableEq τ]

theorem reachable_inv {s : State τ Base Phase Key}
    (h : (knowledgeMachine parser host engine order τ).Reachable s) :
    Inv (protocol parser host engine order) (Sane parser host)
      (PhaseInv parser host engine order) s :=
  inv_reachable (sound parser host engine order) (fun _ ↦ initial_sane) h

theorem later_of_leads {s s' : State τ Base Phase Key}
    (h : (knowledgeMachine parser host engine order τ).Reachable s)
    (hl : (knowledgeMachine parser host engine order τ).Leads s s') : Later s.db s'.db :=
  later_leads (sound parser host engine order) (fun _ ↦ initial_sane) Later.refl
    (fun _ _ _ ↦ Later.trans) h hl

theorem id_mem_filter {l : List ChunkRow} (hids : (l.map ChunkRow.id).Nodup) {c : ChunkRow}
    (hc : c ∈ l) (p : ChunkRow → Bool) :
    c.id ∈ (l.filter p).map ChunkRow.id ↔ p c = true := by
  constructor
  · intro hmem
    obtain ⟨c', hc', hsame⟩ := List.mem_map.mp hmem
    obtain ⟨hl, hp⟩ := List.mem_filter.mp hc'
    rwa [List.inj_on_of_nodup_map hids hl hc hsame] at hp
  · exact fun hp ↦ List.mem_map_of_mem (List.mem_filter.mpr ⟨hc, hp⟩)

/-- Without a commit in between, the DELETE takes all chunks of the document. -/
theorem without_deleted (hids : (base.chunks.map ChunkRow.id).Nodup) (d : KnowledgeDocument) :
    base.without (base.chunks.filter fun c ↦ c.id ∈ (base.chunks.filter fun c ↦
      c.documentId = d.id ∧ c.userId = d.userId).map ChunkRow.id) =
      base.toDb.deleteChunks d.id d.userId := by
  refine congrArg (Db.mk base.documents) (List.filter_congr fun c hc ↦ ?_)
  have hinner := id_mem_filter hids hc fun c ↦ decide (c.documentId = d.id ∧ c.userId = d.userId)
  have houter := id_mem_filter hids hc fun c ↦ decide (c.id ∈ (base.chunks.filter fun c ↦
    c.documentId = d.id ∧ c.userId = d.userId).map ChunkRow.id)
  rw [decide_eq_true_eq] at hinner houter
  exact decide_eq_decide.mpr (not_congr (houter.trans hinner))

theorem index_statements {call : IndexCall} {documentId userId : UUID} {db : Db}
    {response : KnowledgeDocumentIndexResponse} {s : Session Db}
    (h : indexKnowledgeDocument host call documentId userId (.start db) = (.ok response, s)) :
    ∃ d raw values rows db' now, db.getOwned documentId userId = some d ∧
      plan host d raw = some values ∧
      (db.deleteChunks d.id userId).insertChunks host call.newId d.id userId values =
        .ok (rows, db') ∧
      call.clock = .aware now ∧
      indexResponse (d.markIndexed now) rows.length = some response ∧
      s.committed = db'.markIndexed d.id now := by
  obtain ⟨done, hbody, -, hcommitted⟩ := transact_ok h
  obtain ⟨found, s₁, hfound, h₁⟩ := Program.bind_ok hbody
  obtain ⟨hgot, hread⟩ := Prod.mk.inj (Except.ok.inj (statement_ok hfound))
  obtain ⟨d, s₂, hd, h₂⟩ := Program.bind_ok h₁
  obtain ⟨rfl, rfl⟩ := Program.ofOption_ok hd
  obtain ⟨chunks, s₃, hchunks, h₃⟩ := Program.bind_ok h₂
  obtain ⟨hchunked, rfl⟩ := Program.ofOption_ok hchunks
  obtain ⟨raw, s₄, hraw, h₄⟩ := Program.bind_ok h₃
  obtain ⟨-, rfl⟩ := Program.ofExcept_ok hraw
  obtain ⟨vectors, s₅, hvectors, h₅⟩ := Program.bind_ok h₄
  obtain ⟨hvalid, rfl⟩ := Program.ofExcept_ok hvectors
  obtain ⟨values, s₆, hvalues, h₆⟩ := Program.bind_ok h₅
  obtain ⟨hcreate, rfl⟩ := Program.ofExcept_ok hvalues
  obtain ⟨rows, s₇, hreplace, h₇⟩ := Program.bind_ok h₆
  obtain ⟨u, s₈, hdelete, hinsert⟩ := Program.bind_ok hreplace
  obtain ⟨-, hdeleted⟩ := Prod.mk.inj (Except.ok.inj (statement_ok hdelete))
  have hinserted := statement_ok hinsert
  rw [← hdeleted, ← hread] at hinserted
  have hplan : plan host d raw = some values := by
    rw [plan, hchunked]
    change ((validateEmbeddingBatch host raw chunks.length).toOption >>= _) = _
    rw [hvalid]
    change (createValues chunks vectors).toOption = _
    rw [hcreate]
    rfl
  cases hclock : call.clock with
  | naive =>
    simp only [markIndexed, hclock] at h₇
    cases h₇
  | aware now =>
    simp only [markIndexed, hclock] at h₇
    obtain ⟨v, s₉, hmark, h₈⟩ := Program.bind_ok h₇
    obtain ⟨hresponse, rfl⟩ := Program.ofOption_ok h₈
    obtain ⟨-, hmarked⟩ := Prod.mk.inj (Except.ok.inj (statement_ok hmark))
    exact ⟨d, raw, values, rows, _, now, hgot, hplan, hinserted, rfl, hresponse,
      hcommitted.trans hmarked.symm⟩

theorem index_run {call : IndexCall} {documentId userId : UUID}
    {response : KnowledgeDocumentIndexResponse} {done : Session Db} {s : State τ Base Phase Key}
    {t : τ} (hs : Sane parser host s.db) (hphase : s.phase t = .idle) (halone : s.Alone t)
    (hnew : ∀ i, call.newId i ∉ s.db.used)
    (h : indexKnowledgeDocument host call documentId userId (.start s.db.toDb) =
      (.ok response, done)) :
    ∃ s', (knowledgeMachine parser host engine order τ).Leads s s' ∧
      s'.db.toDb = done.committed ∧ s'.phase t = .idle ∧
      (∀ u, u ≠ t → s'.phase u = s.phase u) ∧ ∀ k, s'.lock k = none := by
  obtain ⟨d, raw, values, rows, db', now, hfound, hplan, hinsert, -, hresponse, hcommitted⟩ :=
    index_statements h
  obtain ⟨-, -, huser⟩ := getOwned_some hfound
  subst huser
  let seen := s.db.chunks.filter fun c ↦ c.documentId = d.id ∧ c.userId = d.userId
  let taken := s.db.chunks.filter fun c ↦ c.id ∈ seen.map ChunkRow.id
  have hwithout : s.db.without taken = s.db.toDb.deleteChunks d.id d.userId :=
    without_deleted hs.ids d
  rw [← hwithout] at hinsert
  obtain ⟨hrows, hdb'⟩ := insertChunks_ok hinsert
  have hfresh : ∀ c ∈ rows, c.id ∉ s.db.used := by
    intro c hc
    obtain ⟨v, -, hv⟩ := forall₂_right (mapM_forall₂ hrows) hc
    obtain ⟨embedding, -, rfl⟩ := Option.map_eq_some_iff.mp hv
    exact hnew v.2
  have hscript : (protocol parser host engine order).script s.db (s.phase t)
      [.find documentId d.userId, .embed raw, .delete, .take, .insert call.newId, .mark now] =
        some (.marked d taken rows now) := by
    have hfind : advance parser host engine order s.db .idle (.find documentId d.userId) =
        some (.found d) := by
      change (s.db.getOwned documentId d.userId).map Phase.found = _
      rw [hfound]
      rfl
    have hembed : advance parser host engine order s.db (.found d) (.embed raw) =
        some (.planned d values) := by
      change (plan host d raw).map (Phase.planned d) = _
      rw [hplan]
      rfl
    have hinserted : advance parser host engine order s.db (.deleted d values taken)
        (.insert call.newId) = some (.inserted d taken rows) := by
      simp only [advance, hinsert]
      exact if_pos hfresh
    have hmarked : advance parser host engine order s.db (.inserted d taken rows) (.mark now) =
        some (.marked d taken rows now) := by
      change (indexResponse (d.markIndexed now) rows.length).map _ = _
      rw [hresponse]
      rfl
    have hdelete : advance parser host engine order s.db (.planned d values) .delete =
        some (.matched d values seen) := rfl
    have htake : advance parser host engine order s.db (.matched d values seen) .take =
        some (.deleted d values taken) := rfl
    simp only [hphase, Protocol.script, protocol, hfind, hembed, hdelete, htake, hinserted, hmarked,
      Option.bind_some]
  have hcommit : (protocol parser host engine order).commit s.db (.marked d taken rows now) =
      some (replaced s.db d taken rows now) := rfl
  obtain ⟨s', hleads, hdb, hidle, hfree⟩ := exec_serial halone hscript hcommit
  refine ⟨s', hleads, ?_, hidle, hfree⟩
  rw [hdb, hcommitted, hdb']
  rfl

theorem upload_run {call : UploadCall} {file : Upload} {userId : UUID}
    {response : PublicKnowledgeDocument} {done : Session Db} {s : State τ Base Phase Key} {t : τ}
    (hphase : s.phase t = .idle) (halone : s.Alone t)
    (h : createKnowledgeDocument parser call file userId (.start s.db.toDb) =
      (.ok response, done)) :
    ∃ s', (knowledgeMachine parser host engine order τ).Leads s s' ∧
      s'.db = ⟨done.committed, s.db.used⟩ ∧ s'.phase t = .idle ∧
      (∀ u, u ≠ t → s'.phase u = s.phase u) ∧ ∀ k, s'.lock k = none := by
  cases hparse : parseKnowledgeDocument parser file.filename file.mediaType file.content with
  | error e =>
    rw [createKnowledgeDocument_refused call userId hparse] at h
    cases h
  | ok parsed =>
    rw [createKnowledgeDocument_parsed call userId hparse] at h
    obtain ⟨working, hbody, -, hcommitted⟩ := transact_ok h
    obtain ⟨-, hinsert, -⟩ := createBody_ok hbody
    have hupload : advance parser host engine order s.db .idle
        (.upload file userId call.id call.now) =
          some (.uploaded (newDocument parsed call.id userId call.now)) := by
      have hrow : insertDocument (newDocument parsed call.id userId call.now) s.db.toDb =
          .ok (newDocument parsed call.id userId call.now, working.working) := hinsert
      simp only [advance, hparse, hrow]
    have hscript : (protocol parser host engine order).script s.db (s.phase t)
        [.upload file userId call.id call.now] =
          some (.uploaded (newDocument parsed call.id userId call.now)) := by
      simp only [hphase, Protocol.script, protocol, hupload, Option.bind_some]
    obtain ⟨s', hleads, hdb, hidle, hfree⟩ := exec_serial halone hscript rfl
    refine ⟨s', hleads, ?_, hidle, hfree⟩
    obtain ⟨-, hworking, -⟩ := insertDocument_ok hinsert
    rw [hdb, hcommitted, hworking]
    rfl

end

/-- In every state that uploads, indexings and searches can reach, at whatever statements
they overlap or break off, each document is one that the parser has accepted and has
none of its chunks or all of them, and none is lost or changed later. -/
theorem documents_whole (parser : Host) (host : IndexHost) (engine : SearchEngine)
    (order : SetOrder) {τ : Type} [DecidableEq τ] {s : State τ Base Phase Key}
    (h : (knowledgeMachine parser host engine order τ).Reachable s) :
    (∀ d ∈ s.db.documents, Uploaded parser d ∧ documentConstraints d = true ∧
      Whole host s.db d) ∧
    (∀ c ∈ s.db.chunks, ∃ d ∈ s.db.documents, d.id = c.documentId ∧ d.userId = c.userId) ∧
    ∀ s', (knowledgeMachine parser host engine order τ).Leads s s' → ∀ d ∈ s.db.documents,
      ∃ d' ∈ s'.db.documents, Kept d d' ∧ (d.status = .indexed → d'.status = .indexed) := by
  have hs := (reachable_inv h).db
  refine ⟨fun d hd ↦ ?_, hs.owned, fun s' hl ↦ (later_of_leads h hl).documents⟩
  obtain ⟨huploaded, hconstraints⟩ := hs.uploaded d hd
  exact ⟨huploaded, hconstraints, hs.whole d hd⟩

def sampleEngine : SearchEngine where
  cosineDistance _ _ := some 0
  lexicalMatch content query := content = query
  rankCd _ _ := some 1
  scan _ rows := rows
  scanned _ rows := .refl rows

def uploadedRow : KnowledgeDocument :=
  newDocument ⟨"notes.txt".toList, "text/plain".toList, 3, sampleDigest, 1, ['a']⟩
    (sampleId 501) (sampleId 600) sampleTime

def indexedDb : Db where
  documents := [uploadedRow.markIndexed sampleTime]
  chunks := [⟨⟨1, 0, ['a'], sampleDigest, zeroVector⟩, sampleId 0, sampleId 501, sampleId 600⟩]

theorem sample_indexed : ∃ response done, indexKnowledgeDocument sampleHost sampleCall
    (sampleId 501) (sampleId 600) (.start ⟨[uploadedRow], []⟩) = (.ok response, done) ∧
      done.committed = indexedDb := by
  have hbody : ∃ response done, indexBody sampleHost sampleCall (sampleId 501) (sampleId 600)
      (.start ⟨[uploadedRow], []⟩) = (.ok response, done) ∧ done.working = indexedDb := by
    unfold indexBody
    rw [Program.bind_of_ok (statement_of_ok rfl rfl)]
    change ∃ response done, (Program.ofOption IndexError.indexing
      (chunkDocumentText sampleHost.sha256 ['a'] 1) >>= _) _ = (.ok response, done) ∧ _
    rw [sample_chunks]
    change ∃ response done, (Program.ofExcept (validateEmbeddingBatch sampleHost
      [zeroNumbers] 1) >>= _) _ = (.ok response, done) ∧ _
    rw [sample_batch]
    exact ⟨_, _, rfl, rfl⟩
  obtain ⟨response, done, hrun, hworking⟩ := hbody
  exact ⟨response, _, transact_of_ok hrun rfl, hworking⟩

theorem sample_uploaded : ∃ response done, createKnowledgeDocument sampleParser sampleUpload
    sampleFile (sampleId 600) (.start ⟨[], []⟩) = (.ok response, done) ∧
      done.committed = ⟨[uploadedRow], []⟩ := ⟨_, _, rfl, rfl⟩

section

variable {order : SetOrder} {τ : Type} [DecidableEq τ]

theorem sample_upload (order : SetOrder) (t : τ) : ∃ s,
    (knowledgeMachine sampleParser sampleHost sampleEngine order τ).Reachable s ∧
      s.db = ⟨⟨[uploadedRow], []⟩, []⟩ ∧ (∀ u, s.phase u = .idle) ∧ ∀ k, s.lock k = none := by
  let empty : State τ Base Phase Key := ⟨⟨⟨[], []⟩, []⟩, fun _ ↦ .idle, fun _ ↦ none⟩
  have hstart : (knowledgeMachine sampleParser sampleHost sampleEngine order τ).Reachable empty :=
    .start ⟨⟨rfl, rfl⟩, fun _ ↦ rfl, fun _ ↦ rfl⟩
  obtain ⟨document, uploaded, hupload, hrow⟩ := sample_uploaded
  have hrun : ∃ s, (knowledgeMachine sampleParser sampleHost sampleEngine order τ).Leads empty s ∧
      s.db = ⟨uploaded.committed, []⟩ ∧ s.phase t = .idle ∧
      (∀ u, u ≠ t → s.phase u = .idle) ∧ ∀ k, s.lock k = none :=
    upload_run rfl (fun _ ↦ .inl rfl) hupload
  obtain ⟨s, hleads, hdb, hidle, hothers, hlocks⟩ := hrun
  refine ⟨s, hleads.reachable hstart, by rw [hdb, hrow], fun u ↦ ?_, hlocks⟩
  by_cases hu : u = t
  · exact hu ▸ hidle
  · exact hothers u hu

theorem sample_index {s : State τ Base Phase Key} {t : τ}
    (h : (knowledgeMachine sampleParser sampleHost sampleEngine order τ).Reachable s)
    (hdb : s.db = ⟨⟨[uploadedRow], []⟩, []⟩) (hidle : s.phase t = .idle)
    (hlocks : ∀ k, s.lock k = none) : ∃ s',
      (knowledgeMachine sampleParser sampleHost sampleEngine order τ).Leads s s' ∧
        s'.db.toDb = indexedDb ∧ s'.phase t = .idle ∧ (∀ u, u ≠ t → s'.phase u = s.phase u) ∧
        ∀ k, s'.lock k = none := by
  obtain ⟨response, done, hindex, hdone⟩ := sample_indexed
  have hnew : ∀ i, sampleCall.newId i ∉ s.db.used := by
    rw [hdb]
    exact fun _ ↦ List.not_mem_nil
  have hindex' : indexKnowledgeDocument sampleHost sampleCall (sampleId 501) (sampleId 600)
      (.start s.db.toDb) = (.ok response, done) := by
    rw [hdb]
    exact hindex
  rw [← hdone]
  exact index_run (reachable_inv h).db hidle (fun k ↦ .inl (hlocks k)) hnew hindex'

end

/-- After an upload and its indexing the document has its chunks. -/
theorem documents_whole_sample : ∃ s,
    (knowledgeMachine sampleParser sampleHost sampleEngine insertionOrder Unit).Reachable s ∧
    ∃ d ∈ s.db.documents, d.status = .indexed ∧ Whole sampleHost s.db d := by
  obtain ⟨s, hreachable, hdb, hidle, hlocks⟩ := sample_upload insertionOrder ()
  obtain ⟨s', hleads, hdb', -⟩ := sample_index hreachable hdb (hidle ()) hlocks
  have hreachable' := hleads.reachable hreachable
  obtain ⟨hwhole, -, -⟩ := documents_whole sampleParser sampleHost sampleEngine insertionOrder
    hreachable'
  have hmem : uploadedRow.markIndexed sampleTime ∈ s'.db.documents := by
    rw [hdb']
    exact List.mem_cons_self
  exact ⟨s', hreachable', _, hmem, rfl, (hwhole _ hmem).2.2⟩

end LearningTasks.Services.KnowledgeBase
