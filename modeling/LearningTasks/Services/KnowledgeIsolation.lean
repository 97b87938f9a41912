import LearningTasks.Library.Isolation
import LearningTasks.Services.KnowledgeBase

namespace LearningTasks.Services.KnowledgeIsolation

open Library.Strings Library.Transition Library.KeyLocks Library.Isolation Schemas.Scalars
  Agent.ReadTools Agent.Retrieval KnowledgeDocuments KnowledgeDocumentIndexing DocumentIndex
  DocumentUploads KnowledgeRetrieval KnowledgeQueries KnowledgeBase

def owners : Owners Phase Action UUID where
  owner
    | .idle => none
    | .uploaded row => some row.userId
    | .found document | .planned document _ | .matched document _ _ | .deleted document _ _
    | .inserted document _ _ | .marked document _ _ _ => some document.userId
    | .ranked userId _ _ _ | .answered userId _ _ _ _ _ => some userId
  actor
    | .upload _ userId _ _ | .find _ userId | .rank userId _ _ => some userId
    | _ => none

/-- The rows of a user, as they are and as they would be without other users. -/
structure View (a : UUID) (base base' : Base) : Prop where
  documents : base'.documents = base.documents.filter (·.userId = a)
  chunks : base'.chunks = base.chunks.filter (·.userId = a)
  used : base'.used ⊆ base.used

/-- A scan that finds of the rows of a user what it finds without the rows of others. -/
def Local (engine : SearchEngine) : Prop :=
  ∀ vector rows userId, (engine.scan vector rows).filter (·.userId = userId) =
    engine.scan vector (rows.filter (·.userId = userId))

/-- A phase of a transaction of a user, as it is and as it would be without other users. -/
inductive Seen (engine : SearchEngine) (a : UUID) : Phase → Phase → Prop
  | idle : Seen engine a .idle .idle
  | uploaded (row) : Seen engine a (.uploaded row) (.uploaded row)
  | found (document) : Seen engine a (.found document) (.found document)
  | planned (document values) : Seen engine a (.planned document values) (.planned document values)
  | matched (document values seen) :
      Seen engine a (.matched document values seen) (.matched document values seen)
  | deleted (document values taken) :
      Seen engine a (.deleted document values taken) (.deleted document values taken)
  | inserted (document taken rows) :
      Seen engine a (.inserted document taken rows) (.inserted document taken rows)
  | marked (document taken rows updatedAt) :
      Seen engine a (.marked document taken rows updatedAt) (.marked document taken rows updatedAt)
  | ranked {userId query embedded base base'} (view : View a base base') :
      Seen engine a (.ranked userId query embedded base) (.ranked userId query embedded base')
  | answered {userId query embedded base₁ base₁' base₂ base₂' result result'}
      (view₁ : View a base₁ base₁') (view₂ : View a base₂ base₂')
      (same : Local engine → result = result') :
      Seen engine a (.answered userId query embedded base₁ base₂ result)
        (.answered userId query embedded base₁' base₂' result')

section

variable {a : UUID} {base base' : Base}

theorem View.mem_documents (h : View a base base') {d : KnowledgeDocument} :
    d ∈ base'.documents ↔ d ∈ base.documents ∧ d.userId = a := by
  rw [h.documents, List.mem_filter, decide_eq_true_eq]

theorem View.mem_chunks (h : View a base base') {c : ChunkRow} :
    c ∈ base'.chunks ↔ c ∈ base.chunks ∧ c.userId = a := by
  rw [h.chunks, List.mem_filter, decide_eq_true_eq]

theorem View.getOwned (h : View a base base') (documentId : UUID) :
    base'.getOwned documentId a = base.getOwned documentId a := by
  rw [Db.getOwned, Db.getOwned, h.documents, List.find?_filter]
  congr 1
  funext d
  by_cases hd : d.userId = a <;> simp [hd]

theorem View.filter_chunks (h : View a base base') {p : ChunkRow → Bool}
    (hp : ∀ c ∈ base.chunks, p c = true → c.userId = a) :
    base'.chunks.filter p = base.chunks.filter p := by
  rw [h.chunks, List.filter_filter]
  refine List.filter_congr fun c hc ↦ ?_
  cases hpc : p c with
  | false => rfl
  | true => exact decide_eq_true (hp c hc hpc)

theorem View.without (h : View a base base') (taken : List ChunkRow) :
    (base'.without taken).chunks = (base.without taken).chunks.filter (·.userId = a) := by
  change base'.chunks.filter _ = (base.chunks.filter _).filter _
  rw [h.chunks, List.filter_comm]

theorem View.joined (h : View a base base') (documentIds : Option (List UUID)) :
    joined base'.toDb a documentIds = joined base.toDb a documentIds := by
  unfold KnowledgeQueries.joined
  rw [h.chunks, h.documents, List.filter_filter]
  have hchunks : base.chunks.filter (fun c ↦
      decide (c.userId = a ∧ ∀ ids ∈ documentIds, c.documentId ∈ ids) && decide (c.userId = a)) =
      base.chunks.filter fun c ↦ c.userId = a ∧ ∀ ids ∈ documentIds, c.documentId ∈ ids := by
    refine List.filter_congr fun c _ ↦ ?_
    by_cases hc : c.userId = a <;> simp [hc]
  rw [hchunks]
  congr 1
  funext c
  rw [List.filter_filter]
  congr 1
  refine List.filter_congr fun d _ ↦ ?_
  by_cases hd : d.userId = a <;> simp [hd]

variable {engine : SearchEngine}

theorem View.searchVectorOwned (hlocal : Local engine) (h : View a base base')
    (vector : EmbeddingVector) (topK : ℕ) (documentIds : Option (List UUID)) :
    searchVectorOwned engine base'.toDb a vector topK documentIds =
      searchVectorOwned engine base.toDb a vector topK documentIds := by
  have hscanned : View a { base with chunks := engine.scan vector base.chunks }
      { base' with chunks := engine.scan vector base'.chunks } := by
    refine ⟨h.documents, ?_, h.used⟩
    rw [h.chunks]
    exact (hlocal vector base.chunks a).symm
  unfold KnowledgeQueries.searchVectorOwned
  exact congrArg _ (congrArg _ (congrArg _ (hscanned.joined documentIds)))

theorem View.searchLexicalOwned (h : View a base base') (query : Text) (topK : ℕ)
    (documentIds : Option (List UUID)) :
    searchLexicalOwned engine base'.toDb a query topK documentIds =
      searchLexicalOwned engine base.toDb a query topK documentIds := by
  unfold KnowledgeQueries.searchLexicalOwned
  rw [h.joined]

variable {parser : Host} {host : IndexHost} {order : SetOrder} {base₁ base₁' : Base}

theorem View.searched (hlocal : Local engine) (h : View a base base') (h₁ : View a base₁ base₁')
    (query : KnowledgeSearchQuery) (embedded : Except IndexError (List (List RawNumber))) :
    searched host engine order a query embedded base' base₁' =
      searched host engine order a query embedded base base₁ := by
  unfold KnowledgeBase.searched searchOwnedKnowledge searchBody
  simp only [repository, h.searchVectorOwned hlocal, h₁.searchLexicalOwned]

theorem insertChunks_view {db db' : Db} (hdocuments : db'.documents =
    db.documents.filter (·.userId = a)) (hchunks : db'.chunks = db.chunks.filter (·.userId = a))
    {newId : ℕ → UUID} {documentId : UUID} {values : List ChunkCreate} {rows : List ChunkRow}
    {db₁ : Db} (h : db.insertChunks host newId documentId a values = .ok (rows, db₁)) :
    ∃ db₁', db'.insertChunks host newId documentId a values = .ok (rows, db₁') := by
  have hrows := (insertChunks_ok h).1
  have hsub {β : Type} (f : ChunkRow → β) :
      ((db'.chunks ++ rows).map f).Sublist ((db.chunks ++ rows).map f) := by
    rw [hchunks]
    exact (List.filter_sublist.append (.refl rows)).map f
  unfold Db.insertChunks at h ⊢
  rw [hrows] at h ⊢
  dsimp only at h ⊢
  split at h
  · next hc =>
    obtain ⟨hall, hids, hordinals, hany⟩ := hc
    refine ⟨_, if_pos ⟨hall, hids.sublist (hsub _), hordinals.sublist (hsub _), ?_⟩⟩
    obtain ⟨d, hd, hkey⟩ := List.any_eq_true.mp hany
    rw [Bool.and_eq_true] at hkey
    refine List.any_eq_true.mpr ⟨d, ?_, Bool.and_eq_true _ _ ▸ hkey⟩
    rw [hdocuments]
    exact List.mem_filter.mpr ⟨hd, hkey.2⟩
  · cases h

variable {p p' q : Phase} {i : Action}

theorem advance_owner (h : advance parser host engine order base p i = some p') :
    owners.owner p' = (owners.owner p).or (owners.actor i) := by
  unfold advance at h
  split at h
  · split at h
    · cases h
    · split at h
      · next row db' hinsert =>
        cases h
        obtain ⟨rfl, -⟩ := insertDocument_ok hinsert
        rfl
      · cases h
  · obtain ⟨document, hfound, rfl⟩ := Option.map_eq_some_iff.mp h
    exact congrArg some (getOwned_some hfound).2.2
  · obtain ⟨values, -, rfl⟩ := Option.map_eq_some_iff.mp h
    rfl
  · cases h
    rfl
  · cases h
    rfl
  · split at h
    · split at h
      · cases h
        rfl
      · cases h
    · cases h
  · obtain ⟨response, -, rfl⟩ := Option.map_eq_some_iff.mp h
    rfl
  · cases h
    rfl
  · cases h
    rfl
  · cases h

theorem advance_view (hs : Sane parser host base)
    (hp : PhaseInv parser host engine order base p) (h : View a base base')
    (hseen : Seen engine a p q) (howner : owners.owner p' = some a)
    (hadvance : advance parser host engine order base p i = some p') :
    ∃ q', advance parser host engine order base' q i = some q' ∧ Seen engine a p' q' ∧
      q'.holds = p'.holds := by
  have huser := (advance_owner hadvance).symm.trans howner
  cases hseen with
  | idle =>
    cases i with
    | upload file userId id now =>
      cases huser
      simp only [advance] at hadvance ⊢
      split at hadvance
      · cases hadvance
      · next parsed hparse =>
        split at hadvance
        · next row db' hinsert =>
          cases hadvance
          obtain ⟨rfl, -, hconstraints, hfresh⟩ := insertDocument_ok hinsert
          have hinsert' : insertDocument (newDocument parsed id a now) base'.toDb =
              .ok (newDocument parsed id a now,
                { base'.toDb with
                  documents := base'.documents ++ [newDocument parsed id a now] }) :=
            if_pos ⟨hconstraints, fun d hd ↦ hfresh d (h.mem_documents.mp hd).1⟩
          rw [hinsert']
          exact ⟨_, rfl, .uploaded _, rfl⟩
        · cases hadvance
    | find documentId userId =>
      cases huser
      simp only [advance] at hadvance ⊢
      rw [h.getOwned]
      obtain ⟨document, hfound, rfl⟩ := Option.map_eq_some_iff.mp hadvance
      exact ⟨_, hadvance, .found document, rfl⟩
    | rank userId query embedded =>
      cases hadvance
      exact ⟨_, rfl, .ranked h, rfl⟩
    | embed | delete | take | insert | mark | answer => cases hadvance
  | uploaded row => cases i <;> cases hadvance
  | found document =>
    cases i with
    | embed raw =>
      simp only [advance] at hadvance ⊢
      obtain ⟨values, hplan, rfl⟩ := Option.map_eq_some_iff.mp hadvance
      exact ⟨_, hadvance, .planned document values, rfl⟩
    | upload | find | delete | take | insert | mark | rank | answer => cases hadvance
  | planned document values =>
    cases i with
    | delete =>
      cases hadvance
      have hsame := h.filter_chunks (p := fun c ↦
        c.documentId = document.id ∧ c.userId = document.userId) fun c _ hc ↦
          (of_decide_eq_true hc).2.trans (Option.some.inj huser)
      refine ⟨_, rfl, ?_, rfl⟩
      rw [hsame]
      exact .matched document values _
    | upload | find | embed | take | insert | mark | rank | answer => cases hadvance
  | matched document values seen =>
    cases i with
    | take =>
      cases hadvance
      obtain ⟨⟨d, hd, hkept⟩, -, -, hdocument⟩ := hp
      have hsame := h.filter_chunks (p := fun c ↦ c.id ∈ seen.map ChunkRow.id) fun c hc hid ↦ by
        rw [hs.owner hd hc ((hdocument c hc (of_decide_eq_true hid)).trans hkept.id.symm),
          hkept.userId]
        exact Option.some.inj huser
      have hphase : Seen engine a (.deleted document values _) (.deleted document values _) :=
        .deleted document values (base.chunks.filter fun c ↦ c.id ∈ seen.map ChunkRow.id)
      refine ⟨_, rfl, hsame.symm ▸ hphase, ?_⟩
      simp only [Phase.holds, hsame]
    | upload | find | embed | delete | insert | mark | rank | answer => cases hadvance
  | deleted document values taken =>
    cases i with
    | insert newId =>
      obtain rfl : document.userId = a := Option.some.inj huser
      simp only [advance] at hadvance ⊢
      split at hadvance
      · next rows db' hinsert =>
        split at hadvance
        · next hfresh =>
          cases hadvance
          have hdocuments : (base'.without taken).documents =
            (base.without taken).documents.filter (·.userId = document.userId) := h.documents
          obtain ⟨db₁, hinsert'⟩ := insertChunks_view hdocuments (h.without taken) hinsert
          rw [hinsert']
          dsimp only
          rw [if_pos fun c hc hused ↦ hfresh c hc (h.used hused)]
          exact ⟨_, rfl, .inserted document taken rows, rfl⟩
        · cases hadvance
      · cases hadvance
    | upload | find | embed | delete | take | mark | rank | answer => cases hadvance
  | inserted document taken rows =>
    cases i with
    | mark updatedAt =>
      simp only [advance] at hadvance ⊢
      obtain ⟨response, hresponse, rfl⟩ := Option.map_eq_some_iff.mp hadvance
      exact ⟨_, hadvance, .marked document taken rows updatedAt, rfl⟩
    | upload | find | embed | delete | take | insert | rank | answer => cases hadvance
  | marked document taken rows updatedAt => cases i <;> cases hadvance
  | ranked view =>
    cases i with
    | answer =>
      cases hadvance
      cases huser
      exact ⟨_, rfl, .answered view h fun hlocal ↦ (view.searched hlocal h _ _).symm, rfl⟩
    | upload | find | embed | delete | take | insert | mark | rank => cases hadvance
  | answered => cases i <;> cases hadvance

theorem filter_marked (documents : List KnowledgeDocument) (d : KnowledgeDocument)
    (now : Datetime) :
    (documents.map fun r ↦ if r.id = d.id then r.markIndexed now else r).filter (·.userId = a) =
      (documents.filter (·.userId = a)).map
        fun r ↦ if r.id = d.id then r.markIndexed now else r := by
  rw [List.filter_map]
  congr 1
  refine List.filter_congr fun r _ ↦ ?_
  exact decide_eq_decide.mpr (by rw [(marked_kept now d r).userId])

theorem commit_view (hp : PhaseInv parser host engine order base p) (h : View a base base')
    (hseen : Seen engine a p q) (howner : owners.owner p = some a)
    (hcommit : commit base p = some base₁) :
    ∃ base₁', commit base' q = some base₁' ∧ View a base₁ base₁' := by
  cases hseen with
  | uploaded row =>
    cases hcommit
    refine ⟨_, rfl, ?_, h.chunks, h.used⟩
    have hrow : [row].filter (·.userId = a) = [row] :=
      List.filter_eq_self.mpr fun r hr ↦ by
        rw [List.mem_singleton.mp hr]
        exact decide_eq_true (Option.some.inj howner)
    change base'.documents ++ [row] = (base.documents ++ [row]).filter _
    rw [List.filter_append, hrow, h.documents]
  | marked document taken rows updatedAt =>
    cases hcommit
    have hp : Replacing host base document taken rows := hp
    have hrows : rows.filter (·.userId = a) = rows := List.filter_eq_self.mpr fun c hc ↦
      decide_eq_true ((hp.keys c hc).2.trans (Option.some.inj howner))
    refine ⟨_, rfl, ?_, ?_, ?_⟩
    · change base'.documents.map _ = (base.documents.map _).filter _
      rw [filter_marked, h.documents]
    · change (base'.without taken).chunks ++ rows = ((base.without taken).chunks ++ rows).filter _
      rw [List.filter_append, hrows, h.without]
    · exact List.append_subset.mpr ⟨fun id hid ↦ List.mem_append_left _ (h.used hid),
        List.subset_append_right _ _⟩
  | idle | found | planned | matched | deleted | inserted | ranked | answered => cases hcommit

theorem commit_hidden (hs : Sane parser host base)
    (hp : PhaseInv parser host engine order base p) (h : View a base base')
    (howner : owners.owner p ≠ some a) (hcommit : commit base p = some base₁) :
    View a base₁ base' := by
  obtain ⟨row, rfl, rfl⟩ | ⟨d, taken, rows, now, rfl, rfl⟩ := commit_cases hcommit
  · refine ⟨?_, h.chunks, h.used⟩
    have hrow : [row].filter (·.userId = a) = [] :=
      List.filter_eq_nil_iff.mpr fun r hr huser ↦ by
        rw [List.mem_singleton.mp hr] at huser
        exact howner (congrArg some (of_decide_eq_true huser))
    change base'.documents = (base.documents ++ [row]).filter _
    rw [List.filter_append, hrow, List.append_nil, h.documents]
  · have hp : Replacing host base d taken rows := hp
    have hd : d.userId ≠ a := fun hd ↦ howner (congrArg some hd)
    obtain ⟨d', hd', hkept⟩ := hp.known
    refine ⟨?_, ?_, fun id hid ↦ List.mem_append_left _ (h.used hid)⟩
    · -- the document that is marked is not among those of the user
      change base'.documents = (base.documents.map _).filter _
      rw [filter_marked, h.documents]
      have hsame : ∀ r ∈ base.documents.filter (·.userId = a),
          (if r.id = d.id then r.markIndexed now else r) = r := by
        intro r hr
        obtain ⟨hmem, huser⟩ := List.mem_filter.mp hr
        refine if_neg fun hid ↦ hd ?_
        rw [← hkept.userId, List.inj_on_of_nodup_map hs.unique hd' hmem (hkept.id.trans hid.symm)]
        exact of_decide_eq_true huser
      exact ((List.map_congr_left hsame).trans (List.map_id _)).symm
    · have hrows : rows.filter (·.userId = a) = [] := List.filter_eq_nil_iff.mpr fun c hc hrow ↦
        hd ((hp.keys c hc).2.symm.trans (of_decide_eq_true hrow))
      change base'.chunks = ((base.without taken).chunks ++ rows).filter _
      rw [List.filter_append, hrows, List.append_nil, ← h.without]
      refine (List.filter_eq_self.mpr fun c hc ↦ ?_).symm
      rw [decide_eq_true_eq]
      intro htaken
      obtain ⟨hc, huser⟩ := h.mem_chunks.mp hc
      obtain ⟨t, ht, hsame⟩ := List.mem_map.mp htaken
      obtain ⟨hmem, hdocument⟩ := hp.locked t ht
      rw [List.inj_on_of_nodup_map hs.ids hmem hc hsame] at hdocument
      refine hd (hkept.userId.symm.trans ?_)
      rw [← hs.owner hd' hc (hdocument.trans hkept.id.symm), huser]

theorem isolated (parser : Host) (host : IndexHost) (engine : SearchEngine) (order : SetOrder)
    (a : UUID) : Isolated (protocol parser host engine order) owners a (Sane parser host)
      (PhaseInv parser host engine order) (View a) (Seen engine a) where
  idle := rfl
  unowned p hp := by cases p <;> first | rfl | cases hp
  seen := .idle
  owner _ h := advance_owner h
  advance hs hp h hseen howner hadvance := advance_view hs hp h hseen howner hadvance
  commit _ hp h hseen howner hcommit := commit_view hp h hseen howner hcommit
  others hs hp h howner hcommit := commit_hidden hs hp h howner hcommit

end

/-- Users do not notice each other: out of any run of uploads, indexings and searches from empty
tables the moves of the transactions of one user are a run on their own. It leaves the documents
and chunks of the user as they are, each of the transactions where it is, and its searches
answered the same, provided that a scan finds of the rows of a user what it finds
without the rows of others. -/
theorem users_unnoticed (parser : Host) (host : IndexHost) (engine : SearchEngine)
    (order : SetOrder) {τ : Type} [DecidableEq τ] (a : UUID) {s s₁ : State τ Base Phase Key}
    {ms : List (Move τ Action)} (h : (knowledgeMachine parser host engine order τ).init s)
    (hrun : (knowledgeMachine parser host engine order τ).exec s ms = some s₁) :
    ∃ s₁', (knowledgeMachine parser host engine order τ).exec s
        (owners.purge (protocol parser host engine order) a s ms) = some s₁' ∧
      View a s₁.db s₁'.db ∧ ∀ t, owners.owner (s₁.phase t) = some a →
        Seen engine a (s₁.phase t) (s₁'.phase t) := by
  have hi := (reachable_inv (.start h))
  obtain ⟨⟨hdocuments, hchunks⟩, hphase, hlock⟩ := h
  have hbeside : Beside (protocol parser host engine order) owners a (View a) (Seen engine a)
      s s := by
    refine ⟨⟨?_, ?_, List.Subset.refl _⟩, fun t ht ↦ ?_, fun t _ ↦ hphase t, fun k t hk ↦ ?_⟩
    · rw [hdocuments]
      rfl
    · rw [hchunks]
      rfl
    · rw [hphase t] at ht
      cases ht
    · rw [hlock k] at hk
      cases hk
  obtain ⟨s₁', hexec, h'⟩ := (isolated parser host engine order a).run
    (sound parser host engine order) hi hbeside hrun
  exact ⟨s₁', hexec, h'.db, h'.mine⟩

def sampleRank : Move Bool Action :=
  .advance false (.rank (sampleId 601) sampleQuery (.ok [zeroNumbers]))

/-- A search of one user, with an upload of another that commits between its statements. -/
def sampleMoves : List (Move Bool Action) :=
  [.advance true (.upload sampleFile (sampleId 600) (sampleId 501) uploadedRow.createdAt),
    sampleRank, .commit true, .advance false .answer]

def sampleStart : State Bool Base Phase Key := ⟨⟨⟨[], []⟩, []⟩, fun _ ↦ .idle, fun _ ↦ none⟩

theorem sample_run : ∃ s₁, (knowledgeMachine sampleParser sampleHost sampleEngine insertionOrder
    Bool).exec sampleStart sampleMoves = some s₁ ∧ s₁.db.documents.length = 1 :=
  ⟨_, rfl, rfl⟩

theorem sample_purge : owners.purge (protocol sampleParser sampleHost sampleEngine insertionOrder)
    (sampleId 601) sampleStart sampleMoves = [sampleRank, .advance false .answer] := rfl

theorem users_unnoticed_sample : ∃ s₁ s₁',
    (knowledgeMachine sampleParser sampleHost sampleEngine insertionOrder Bool).exec sampleStart
      sampleMoves = some s₁ ∧ s₁.db.documents.length = 1 ∧
    (knowledgeMachine sampleParser sampleHost sampleEngine insertionOrder Bool).exec sampleStart
      [sampleRank, .advance false .answer] = some s₁' ∧ View (sampleId 601) s₁.db s₁'.db := by
  obtain ⟨s₁, hrun, hlength⟩ := sample_run
  obtain ⟨s₁', hrun', hview, -⟩ := users_unnoticed sampleParser sampleHost sampleEngine
    insertionOrder (sampleId 601) ⟨⟨rfl, rfl⟩, fun _ ↦ rfl, fun _ ↦ rfl⟩ hrun
  rw [sample_purge] at hrun'
  exact ⟨s₁, s₁', hrun, hlength, hrun', hview⟩

end LearningTasks.Services.KnowledgeIsolation
