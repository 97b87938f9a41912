import LearningTasks.Services.DocumentIndex

namespace LearningTasks.Services.DocumentUploads

open Library.Strings Library.Fallible Library.Programs Library.Sessions Library.Sessions.Session
  Schemas.Scalars Agent.State KnowledgeDocuments DocumentIndex

inductive UploadError
  | document (error : DocumentError)
  | notFound
  | other
  deriving DecidableEq

structure Upload where
  filename : Option Text
  mediaType : Option Text
  content : List UInt8

/-- What differs from one call to the next: failing statements, and what the server
supplies for a new row. -/
structure UploadCall where
  faults : Faults UploadError
  id : UUID
  now : Datetime

/-- PostgreSQL's `btrim`. -/
def btrim (s : Text) : Text := (s.dropWhile (· = ' ')).rdropWhile (· = ' ')

def documentConstraints (d : KnowledgeDocument) : Bool :=
  storable d.displayName && storable d.extractedText && decide (d.displayName.length ≤ 255) &&
    decide (btrim d.displayName ≠ []) &&
    decide (d.mediaType ∈
      ["text/plain".toList, "text/markdown".toList, "application/pdf".toList]) &&
    decide (1 ≤ d.byteCount ∧ d.byteCount ≤ 5242880) &&
    decide (1 ≤ d.pageCount ∧ d.pageCount ≤ 100) &&
    decide (1 ≤ d.extractedText.length ∧ d.extractedText.length ≤ 200000)

def newDocument (parsed : ParsedKnowledgeDocument) (id userId : UUID) (now : Datetime) :
    KnowledgeDocument where
  id := id
  userId := userId
  displayName := parsed.displayName
  mediaType := parsed.mediaType
  byteCount := parsed.byteCount
  contentSha256 := parsed.contentSha256
  pageCount := parsed.pageCount
  extractedText := parsed.extractedText
  status := .parsed
  createdAt := now
  updatedAt := now

/-- The INSERT of a document: it fails on a constraint or a key that is taken. -/
def insertDocument (row : KnowledgeDocument) (db : Db) :
    Except UploadError (KnowledgeDocument × Db) :=
  if documentConstraints row ∧ ∀ d ∈ db.documents, d.id ≠ row.id then
    .ok (row, { db with documents := db.documents ++ [row] })
  else .error .other

/-- The body of the `try` of `create_knowledge_document`, up to its commit. -/
def createBody (call : UploadCall) (parsed : ParsedKnowledgeDocument) (userId : UUID) :
    Program UploadError (Session Db) PublicKnowledgeDocument := do
  let document ← statement call.faults
    (insertDocument (newDocument parsed call.id userId call.now))
  return document.public

def createKnowledgeDocument (host : Host) (call : UploadCall) (upload : Upload) (userId : UUID) :
    Program UploadError (Session Db) PublicKnowledgeDocument :=
  match parseKnowledgeDocument host upload.filename upload.mediaType upload.content with
  | .error e => Program.raise (.document e)
  | .ok parsed => transact call.faults id (createBody call parsed userId)

def getOwnedKnowledgeDocument (faults : Faults UploadError) (documentId userId : UUID) :
    Program UploadError (Session Db) PublicKnowledgeDocument := do
  let found ← statement faults fun db ↦ .ok (db.getOwned documentId userId, db)
  let document ← Program.ofOption .notFound found
  return document.public

/-- What `upload_knowledge_document_endpoint` makes of a file: it reads one byte beyond
the limit at most. -/
def readUpload (file : Upload) : Upload :=
  { file with content := file.content.take (maxDocumentBytes + 1) }

/-- What `parse_knowledge_document` has seen of a file that it accepts. -/
structure Accepted (parsed : ParsedKnowledgeDocument) : Prop where
  displayName : '\x00' ∉ parsed.displayName ∧ parsed.displayName.length ≤ 255 ∧
    ∃ c ∈ parsed.displayName, c ≠ ' '
  mediaType : ∃ extension : Extension, parsed.mediaType = extension.mediaType
  byteCount : 1 ≤ parsed.byteCount ∧ parsed.byteCount ≤ 5242880
  pageCount : 1 ≤ parsed.pageCount ∧ parsed.pageCount ≤ 100
  extractedText : '\x00' ∉ parsed.extractedText ∧ 1 ≤ parsed.extractedText.length ∧
    parsed.extractedText.length ≤ 200000

theorem strip_visible {s : Text} (h : strip s ≠ []) : ∃ c ∈ strip s, c ≠ ' ' := by
  have hdrop : (strip s).dropWhile isSpace = strip s := dropWhile_rdropWhile isSpace s
  refine ⟨(strip s).head h, List.head_mem h, fun hspace ↦ ?_⟩
  have hhead : isSpace ((strip s).head h) = false := by
    have hne : (strip s).dropWhile isSpace ≠ [] := by rwa [hdrop]
    have hnot := List.head_dropWhile_not isSpace hne
    simpa only [hdrop] using hnot
  rw [hspace] at hhead
  exact absurd hhead (by decide)

theorem btrim_visible {s : Text} (h : ∃ c ∈ s, c ≠ ' ') : btrim s ≠ [] := by
  obtain ⟨c, hc, hne⟩ := h
  have hdrop : s.dropWhile (· = ' ') ≠ [] := by
    intro hnil
    rw [List.dropWhile_eq_nil_iff] at hnil
    exact hne (by simpa using hnil c hc)
  rw [btrim, Ne, List.rdropWhile_eq_nil_iff]
  intro hall
  have hhead := List.head_dropWhile_not (· = ' ') hdrop
  exact Bool.false_ne_true (hhead.symm.trans (hall _ (List.head_mem hdrop)))

theorem displayName_ok {filename : Option Text} {name : Text} {extension : Extension}
    (h : displayName filename = .ok (name, extension)) :
    '\x00' ∉ name ∧ name.length ≤ 255 ∧ ∃ c ∈ name, c ≠ ' ' := by
  unfold displayName at h
  cases filename with
  | none => cases h
  | some filename =>
    obtain ⟨stripped, hvalid, h⟩ := bind_ok h
    obtain ⟨rfl, hnul⟩ := validatePersistedText_ok hvalid
    dsimp only at h
    split at h
    · cases h
    · next hfit =>
      rw [not_or, not_lt] at hfit
      split at h
      · cases h
        exact ⟨hnul, hfit.2, strip_visible hfit.1⟩
      · cases h

theorem length_le_joinPages {part : Text} {parts : List Text} (h : part ∈ parts) :
    part.length ≤ (joinPages parts).length := by
  induction parts with
  | nil => cases h
  | cons first parts ih =>
    cases parts with
    | nil =>
      rw [List.mem_singleton.mp h, joinPages, List.intercalate_singleton]
    | cons second parts =>
      simp only [joinPages, List.intercalate_cons_cons, List.length_append] at ih ⊢
      rcases List.mem_cons.mp h with rfl | h
      · omega
      · have hle := ih h
        omega

theorem extractText_ok {host : Host} {content : List UInt8} {extension : Extension} {text : Text}
    {pageCount : ℕ} (h : extractText host content extension = .ok (text, pageCount)) :
    (1 ≤ pageCount ∧ pageCount ≤ 100) ∧ 1 ≤ text.length ∧ text.length ≤ 200000 := by
  have hfile (h : parseTextFile content = .ok (text, pageCount)) :
      (1 ≤ pageCount ∧ pageCount ≤ 100) ∧ 1 ≤ text.length ∧ text.length ≤ 200000 := by
    obtain ⟨rfl, hne, hmax⟩ := parseTextFile_ok h
    exact ⟨by decide, List.length_pos_iff.mpr hne, hmax⟩
  cases extension with
  | txt => exact hfile h
  | md => exact hfile h
  | pdf =>
    change parsePdf host content = _ at h
    unfold parsePdf at h
    split at h
    · cases h
    · split at h
      · cases h
      · next pdf hpdf =>
        split at h
        · cases h
        · obtain ⟨htext, hcount, hpos, hmax, page, hpage, hne⟩ := parsePages_ok h
          have hpages : pdf.pages.length ≤ maxDocumentPages := by
            unfold parsePages at h
            split at h
            · cases h
            · next hlen => exact (not_not.mp hlen).2
          refine ⟨⟨hcount ▸ hpos, hcount ▸ hpages⟩, ?_, hmax⟩
          have hlen : (stripPage page).length ≤ text.length := by
            rw [htext]
            exact length_le_joinPages (List.mem_map_of_mem hpage)
          have hpos := List.length_pos_iff.mpr hne
          omega

theorem accepted_of_parse {host : Host} {filename mediaType : Option Text} {content : List UInt8}
    {parsed : ParsedKnowledgeDocument}
    (h : parseKnowledgeDocument host filename mediaType content = .ok parsed) :
    Accepted parsed := by
  unfold parseKnowledgeDocument at h
  split at h
  · cases h
  · next hmax =>
    split at h
    · cases h
    · next hne =>
      obtain ⟨⟨name, extension⟩, hname, h⟩ := bind_ok h
      dsimp only at h
      split at h
      · cases h
      · obtain ⟨⟨text, pageCount⟩, htext, h⟩ := bind_ok h
        obtain ⟨text', hvalid, h⟩ := bind_ok h
        obtain ⟨rfl, hnul⟩ := validatePersistedText_ok hvalid
        cases h
        obtain ⟨hpages, hlength⟩ := extractText_ok htext
        have hbytes : 1 ≤ content.length ∧ content.length ≤ 5242880 :=
          ⟨List.length_pos_iff.mpr hne, Nat.not_lt.mp hmax⟩
        exact ⟨displayName_ok hname, ⟨extension, rfl⟩, hbytes, hpages, hnul, hlength⟩

/-- No accepted file is refused by a column or a check constraint. -/
theorem Accepted.constraints {parsed : ParsedKnowledgeDocument} (h : Accepted parsed)
    (id userId : UUID) (now : Datetime) :
    documentConstraints (newDocument parsed id userId now) = true := by
  obtain ⟨hnul, hlength, hvisible⟩ := h.displayName
  obtain ⟨extension, hmedia⟩ := h.mediaType
  have hmedia : parsed.mediaType ∈
      ["text/plain".toList, "text/markdown".toList, "application/pdf".toList] := by
    rw [hmedia]
    cases extension <;> decide
  simp only [documentConstraints, storable, Bool.and_eq_true, decide_eq_true_eq]
  exact ⟨⟨⟨⟨⟨⟨⟨hnul, h.extractedText.1⟩, hlength⟩, btrim_visible hvisible⟩, hmedia⟩, h.byteCount⟩,
    h.pageCount⟩, h.extractedText.2⟩

theorem createBody_keeps (call : UploadCall) (parsed : ParsedKnowledgeDocument) (userId : UUID) :
    Keeps (createBody call parsed userId) := (Keeps.statement _ _).bind fun _ ↦ .pure _

theorem insertDocument_eq {row : KnowledgeDocument} (db : Db)
    (h : documentConstraints row = true) : insertDocument row db =
      if ∀ d ∈ db.documents, d.id ≠ row.id then
        .ok (row, { db with documents := db.documents ++ [row] })
      else .error .other := by
  unfold insertDocument
  simp only [h, true_and]

theorem insertDocument_ok {row row' : KnowledgeDocument} {db db' : Db}
    (h : insertDocument row db = .ok (row', db')) :
    row' = row ∧ db' = { db with documents := db.documents ++ [row] } ∧
      documentConstraints row = true ∧ ∀ d ∈ db.documents, d.id ≠ row.id := by
  unfold insertDocument at h
  split at h
  · next hc =>
    cases h
    exact ⟨rfl, rfl, hc⟩
  · cases h

theorem createBody_ok {call : UploadCall} {parsed : ParsedKnowledgeDocument} {userId : UUID}
    {s done : Session Db} {response : PublicKnowledgeDocument}
    (h : createBody call parsed userId s = (.ok response, done)) :
    response = (newDocument parsed call.id userId call.now).public ∧
      insertDocument (newDocument parsed call.id userId call.now) s.working =
        .ok (newDocument parsed call.id userId call.now, done.working) ∧
      call.faults s.sent = none ∧ done.sent = s.sent + 1 := by
  obtain ⟨row, s₁, hinsert, h⟩ := Program.bind_ok h
  cases h
  have hrow := statement_ok hinsert
  obtain ⟨rfl, -, -, -⟩ := insertDocument_ok hrow
  exact ⟨rfl, hrow, statement_sent hinsert⟩

theorem Stored.insert {db : Db} (h : Stored db) {row : KnowledgeDocument}
    (hfresh : ∀ d ∈ db.documents, d.id ≠ row.id) :
    Stored { db with documents := db.documents ++ [row] } where
  unique := by
    rw [List.map_append, List.nodup_append]
    refine ⟨h.unique, List.nodup_singleton _, fun id hid id' hid' ↦ ?_⟩
    obtain ⟨d, hd, rfl⟩ := List.mem_map.mp hid
    obtain rfl := List.mem_singleton.mp hid'
    exact hfresh d hd
  owned c hc := by
    obtain ⟨d, hd, hkey⟩ := h.owned c hc
    exact ⟨d, List.mem_append_left _ hd, hkey⟩

theorem createKnowledgeDocument_parsed {host : Host} {upload : Upload}
    {parsed : ParsedKnowledgeDocument} (call : UploadCall) (userId : UUID)
    (h : parseKnowledgeDocument host upload.filename upload.mediaType upload.content = .ok parsed) :
    createKnowledgeDocument host call upload userId =
      transact call.faults id (createBody call parsed userId) := by
  rw [createKnowledgeDocument, h]

theorem createKnowledgeDocument_refused {host : Host} {upload : Upload} {e : DocumentError}
    (call : UploadCall) (userId : UUID)
    (h : parseKnowledgeDocument host upload.filename upload.mediaType upload.content = .error e) :
    createKnowledgeDocument host call upload userId = Program.raise (.document e) := by
  rw [createKnowledgeDocument, h]

theorem parse_readUpload (host : Host) (file : Upload) :
    parseKnowledgeDocument host (readUpload file).filename (readUpload file).mediaType
        (readUpload file).content =
      parseKnowledgeDocument host file.filename file.mediaType file.content := by
  by_cases hmax : file.content.length > maxDocumentBytes
  · have htaken : (readUpload file).content.length > maxDocumentBytes := by
      rw [readUpload, List.length_take]
      omega
    rw [parseKnowledgeDocument, if_pos htaken, parseKnowledgeDocument, if_pos hmax]
  · have hall : (readUpload file).content = file.content := by
      rw [readUpload]
      exact List.take_of_length_le (by omega)
    rw [hall]
    rfl

structure Readable (db : Db) (response : PublicKnowledgeDocument) (userId : UUID) : Prop where
  owner : ∀ faults : Faults UploadError, faults 0 = none →
    (getOwnedKnowledgeDocument faults response.id userId (.start db)).1 = .ok response
  others : ∀ (faults : Faults UploadError) (other : UUID), faults 0 = none → other ≠ userId →
    (getOwnedKnowledgeDocument faults response.id other (.start db)).1 = .error .notFound

theorem getOwnedKnowledgeDocument_eq {faults : Faults UploadError} (hfault : faults 0 = none)
    (documentId userId : UUID) (db : Db) :
    (getOwnedKnowledgeDocument faults documentId userId (.start db)).1 =
      match db.getOwned documentId userId with
      | some d => .ok d.public
      | none => .error .notFound := by
  have hread :
      statement faults (fun db : Db ↦ .ok (db.getOwned documentId userId, db)) (.start db) =
      (.ok (db.getOwned documentId userId), ⟨db, db, 1⟩) := statement_of_ok hfault rfl
  rw [getOwnedKnowledgeDocument, Program.bind_of_ok hread]
  cases db.getOwned documentId userId with
  | none => rfl
  | some d => rfl

theorem readable_of_mem {db : Db} (h : Stored db) {d : KnowledgeDocument} (hd : d ∈ db.documents) :
    Readable db d.public d.userId where
  owner faults hfault := by
    rw [getOwnedKnowledgeDocument_eq hfault, show d.public.id = d.id from rfl, h.getOwned hd]
  others faults other hfault hne := by
    have hnone : db.getOwned d.id other = none := by
      cases hf : db.getOwned d.id other with
      | none => rfl
      | some d' =>
        obtain ⟨hmem, hid, huser⟩ := getOwned_some hf
        have heq : d' = d := List.inj_on_of_nodup_map h.unique hmem hd hid
        exact absurd (huser ▸ heq ▸ rfl) hne
    rw [getOwnedKnowledgeDocument_eq hfault, show d.public.id = d.id from rfl, hnone]

/-- An upload is stored whole or not at all, and it is stored if and only if the parser
accepts the file: the table then refuses nothing of it. -/
theorem upload_law (host : Host) (call : UploadCall) (file : Upload) (userId : UUID) (db : Db)
    (h : Stored db) :
    (∀ e s, createKnowledgeDocument host call (readUpload file) userId (.start db) =
      (.error e, s) → s.committed = db) ∧
    (∀ response s, createKnowledgeDocument host call (readUpload file) userId (.start db) =
        (.ok response, s) →
      ∃ parsed, parseKnowledgeDocument host file.filename file.mediaType file.content = .ok parsed ∧
        s.committed = { db with documents :=
          db.documents ++ [newDocument parsed call.id userId call.now] } ∧
        documentConstraints (newDocument parsed call.id userId call.now) = true ∧
        Stored s.committed ∧ response = (newDocument parsed call.id userId call.now).public ∧
        Readable s.committed response userId) ∧
    ((∃ response s, createKnowledgeDocument host call (readUpload file) userId (.start db) =
        (.ok response, s)) ↔
      (∃ parsed, parseKnowledgeDocument host file.filename file.mediaType file.content =
        .ok parsed) ∧ (∀ d ∈ db.documents, d.id ≠ call.id) ∧
        call.faults 0 = none ∧ call.faults 1 = none) := by
  have hread := parse_readUpload host file
  cases hparse : parseKnowledgeDocument host file.filename file.mediaType file.content with
  | error e =>
    rw [createKnowledgeDocument_refused call userId (hread.trans hparse)]
    refine ⟨fun e s hrun ↦ ?_, fun response s hrun ↦ ?_, iff_of_false ?_ ?_⟩
    · cases hrun
      rfl
    · cases hrun
    · rintro ⟨response, s, hrun⟩
      cases hrun
    · rintro ⟨⟨parsed, hp⟩, -⟩
      cases hp
  | ok parsed =>
    rw [createKnowledgeDocument_parsed call userId (hread.trans hparse)]
    have hconstraints := (accepted_of_parse hparse).constraints call.id userId call.now
    have hsettled :=
      transact_settled call.faults id (createBody_keeps call parsed userId) (.start db)
    have hinsert := insertDocument_eq db hconstraints
    refine ⟨fun e s hrun ↦ ?_, fun response s hrun ↦ ?_, fun ⟨response, s, hrun⟩ ↦ ?_, ?_⟩
    · rw [hrun] at hsettled
      cases hsettled with
      | rolledBack _ _ committed working => exact committed
    · obtain ⟨done, ran, -, committed⟩ := transact_ok hrun
      obtain ⟨rfl, hrow, -⟩ := createBody_ok ran
      obtain ⟨-, hdb, -, hfresh⟩ := insertDocument_ok hrow
      rw [committed, hdb]
      have hstored := Stored.insert h hfresh
      exact ⟨parsed, rfl, rfl, hconstraints, hstored, rfl,
        readable_of_mem hstored (List.mem_append_right _ List.mem_cons_self)⟩
    · obtain ⟨done, ran, hsecond, -⟩ := transact_ok hrun
      obtain ⟨-, hrow, hfirst, hsent⟩ := createBody_ok ran
      obtain ⟨-, -, -, hfresh⟩ := insertDocument_ok hrow
      rw [hsent] at hsecond
      exact ⟨⟨parsed, rfl⟩, hfresh, hfirst, hsecond⟩
    · rintro ⟨-, hfresh, hfirst, hsecond⟩
      have hrow := hinsert.trans (if_pos hfresh)
      have hbody : createBody call parsed userId (.start db) = (.ok (newDocument parsed call.id
          userId call.now).public, ⟨db, { db with documents :=
            db.documents ++ [newDocument parsed call.id userId call.now] }, 1⟩) := by
        rw [createBody, Program.bind_of_ok (statement_of_ok hfirst hrow)]
        rfl
      exact ⟨_, _, transact_of_ok hbody hsecond⟩

def sampleParser : Host := ⟨fun _ ↦ sampleDigest, fun _ ↦ none⟩

def sampleFile : Upload :=
  ⟨some "notes.txt".toList, some "text/plain".toList, [97, 13, 10]⟩

def sampleUpload : UploadCall := ⟨fun _ ↦ none, sampleId 501, sampleTime⟩

theorem sampleFile_parsed : parseKnowledgeDocument sampleParser sampleFile.filename
    sampleFile.mediaType sampleFile.content =
      .ok ⟨"notes.txt".toList, "text/plain".toList, 3, sampleDigest, 1, ['a']⟩ := rfl

theorem upload_law_sample : ∃ response s,
    createKnowledgeDocument sampleParser sampleUpload (readUpload sampleFile) (sampleId 600)
      (.start sampleDb) = (.ok response, s) ∧
    Stored s.committed ∧ Readable s.committed response (sampleId 600) := by
  obtain ⟨-, hstored, hiff⟩ := upload_law sampleParser sampleUpload sampleFile (sampleId 600)
    sampleDb sampleDb_stored
  have hfresh : ∀ d ∈ sampleDb.documents, d.id ≠ sampleId 501 := by
    intro d hd
    rw [List.mem_singleton.mp hd]
    decide
  have hparsed : ∃ parsed, parseKnowledgeDocument sampleParser sampleFile.filename
      sampleFile.mediaType sampleFile.content = .ok parsed :=
    ⟨⟨"notes.txt".toList, "text/plain".toList, 3, sampleDigest, 1, ['a']⟩, sampleFile_parsed⟩
  obtain ⟨response, s, hrun⟩ := hiff.mpr ⟨hparsed, hfresh, rfl, rfl⟩
  obtain ⟨parsed, -, -, -, hkept, -, hreadable⟩ := hstored response s hrun
  exact ⟨response, s, hrun, hkept, hreadable⟩

end LearningTasks.Services.DocumentUploads
