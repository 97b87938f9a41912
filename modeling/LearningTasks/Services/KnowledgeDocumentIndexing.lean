import LearningTasks.Library.Windows
import LearningTasks.Services.KnowledgeDocuments

namespace LearningTasks.Services.KnowledgeDocumentIndexing

open Library.Strings Library.Windows Agent.State Services.KnowledgeDocuments

def maxChunkCharacters : ℕ := 2000

def chunkOverlapCharacters : ℕ := 200

def maxDocumentChunks : ℕ := 200

def chunkStepCharacters : ℕ := maxChunkCharacters - chunkOverlapCharacters

structure DeterministicDocumentChunk where
  pageNumber : ℕ
  ordinal : ℕ
  content : Text
  contentFingerprint : Digest
  deriving DecidableEq

/-- `_page_texts`: none where the pages do not match their number. -/
def pageTexts (extractedText : Text) (pageCount : ℕ) : Option (List Text) :=
  if pageCount = 1 then some [extractedText]
  else
    let pages := extractedText.splitOn documentPageSeparator
    if pages.length ≠ pageCount then none else some pages

/-- The loop over one page, from a start on; `sha256` is that of the UTF-8 form. -/
def chunkPage (sha256 : Text → Digest) (pageNumber : ℕ) (pageText : Text) (start : ℕ)
    (chunks : List DeterministicDocumentChunk) : Option (List DeterministicDocumentChunk) :=
  if start < pageText.length then
    let content := (pageText.drop start).take maxChunkCharacters
    let chunks := chunks ++ [⟨pageNumber, chunks.length, content, sha256 content⟩]
    if chunks.length > maxDocumentChunks then none
    else if start + maxChunkCharacters ≥ pageText.length then some chunks
    else chunkPage sha256 pageNumber pageText (start + chunkStepCharacters) chunks
  else some chunks
termination_by pageText.length - start
decreasing_by
  have : 0 < chunkStepCharacters := by decide
  omega

def chunkPages (sha256 : Text → Digest) :
    ℕ → List Text → List DeterministicDocumentChunk → Option (List DeterministicDocumentChunk)
  | _, [], chunks => some chunks
  | pageNumber, pageText :: pages, chunks =>
    if pageText = [] then chunkPages sha256 (pageNumber + 1) pages chunks
    else (chunkPage sha256 pageNumber pageText 0 chunks).bind
      (chunkPages sha256 (pageNumber + 1) pages)

def chunkDocumentText (sha256 : Text → Digest) (extractedText : Text) (pageCount : ℕ) :
    Option (List DeterministicDocumentChunk) :=
  ((pageTexts extractedText pageCount).bind fun pages ↦ chunkPages sha256 1 pages []).filter
    (· ≠ [])

def chunkWindow : Sliding := ⟨maxChunkCharacters, chunkStepCharacters, by decide, by decide⟩

/-- The contents of the chunks of a document, with the number of their page. -/
def pageWindows (first : ℕ) (pages : List Text) : List (ℕ × Text) :=
  (pages.zipIdx first).flatMap fun p ↦ (chunkWindow.windows p.1).map fun content ↦ (p.2, content)

def numbered (sha256 : Text → Digest) (first : ℕ) (contents : List (ℕ × Text)) :
    List DeterministicDocumentChunk :=
  (contents.zipIdx first).map fun c ↦ ⟨c.1.1, c.2, c.1.2, sha256 c.1.2⟩

theorem numbered_append (sha256 : Text → Digest) (first : ℕ) (xs ys : List (ℕ × Text)) :
    numbered sha256 first (xs ++ ys) =
      numbered sha256 first xs ++ numbered sha256 (first + xs.length) ys := by
  simp only [numbered, List.zipIdx_append, List.map_append]

@[simp] theorem length_numbered (sha256 : Text → Digest) (first : ℕ) (xs : List (ℕ × Text)) :
    (numbered sha256 first xs).length = xs.length := by
  simp [numbered]

theorem pageWindows_cons (first : ℕ) (page : Text) (pages : List Text) :
    pageWindows first (page :: pages) =
      (chunkWindow.windows page).map (fun content ↦ (first, content)) ++
        pageWindows (first + 1) pages := by
  simp only [pageWindows, List.zipIdx_cons, List.flatMap_cons]

/-- The chunks so far, and those that are left, where there is room for them. -/
def withContents (sha256 : Text → Digest) (chunks : List DeterministicDocumentChunk)
    (contents : List (ℕ × Text)) : Option (List DeterministicDocumentChunk) :=
  if chunks.length + contents.length ≤ maxDocumentChunks then
    some (chunks ++ numbered sha256 chunks.length contents)
  else none

theorem withContents_nil {sha256 : Text → Digest} {chunks : List DeterministicDocumentChunk}
    (h : chunks.length ≤ maxDocumentChunks) : withContents sha256 chunks [] = some chunks := by
  rw [withContents, List.length_nil, Nat.add_zero, if_pos h]
  simp [numbered]

theorem withContents_cons (sha256 : Text → Digest) (chunks : List DeterministicDocumentChunk)
    (page : ℕ) (content : Text) (contents : List (ℕ × Text)) :
    withContents sha256 chunks ((page, content) :: contents) =
      withContents sha256 (chunks ++ [⟨page, chunks.length, content, sha256 content⟩]) contents := by
  have hsplit : numbered sha256 chunks.length ((page, content) :: contents) =
      ⟨page, chunks.length, content, sha256 content⟩ ::
        numbered sha256 (chunks.length + 1) contents :=
    numbered_append sha256 chunks.length [(page, content)] contents
  simp only [withContents, hsplit, List.length_append, List.length_cons, List.length_nil,
    List.append_assoc, List.cons_append, List.nil_append, Nat.add_assoc, Nat.add_comm 1]

theorem withContents_append (sha256 : Text → Digest) (chunks : List DeterministicDocumentChunk)
    (xs ys : List (ℕ × Text)) :
    withContents sha256 chunks (xs ++ ys) =
      withContents sha256 (chunks ++ numbered sha256 chunks.length xs) ys := by
  simp only [withContents, numbered_append, List.length_append, length_numbered, Nat.add_assoc,
    List.append_assoc]

theorem withContents_none {sha256 : Text → Digest} {chunks : List DeterministicDocumentChunk}
    {contents : List (ℕ × Text)} (h : maxDocumentChunks < chunks.length + contents.length) :
    withContents sha256 chunks contents = none := if_neg (Nat.not_le.mpr h)

theorem chunkPage_eq (sha256 : Text → Digest) (pageNumber : ℕ) (pageText : Text) (start : ℕ)
    {chunks : List DeterministicDocumentChunk} (h : chunks.length ≤ maxDocumentChunks) :
    chunkPage sha256 pageNumber pageText start chunks = withContents sha256 chunks
      ((chunkWindow.windows (pageText.drop start)).map fun content ↦ (pageNumber, content)) := by
  have hlen (start : ℕ) : (pageText.drop start).length = pageText.length - start :=
    List.length_drop
  have hsize : chunkWindow.size = maxChunkCharacters := rfl
  fun_induction chunkPage sha256 pageNumber pageText start chunks with
  | case1 start chunks hlt content chunks' hmax =>
    have hne : pageText.drop start ≠ [] := by
      intro he
      have := hlen start
      rw [he, List.length_nil] at this
      omega
    have hpos := List.length_pos_iff.mpr (windows_ne_nil chunkWindow hne)
    have hgrown : chunks'.length = chunks.length + 1 := List.length_append
    rw [withContents_none]
    rw [List.length_map]
    omega
  | case2 start chunks hlt content chunks' hmax hend =>
    have hne : pageText.drop start ≠ [] := by
      intro he
      have := hlen start
      rw [he, List.length_nil] at this
      omega
    have hshort : (pageText.drop start).length ≤ chunkWindow.size := by
      rw [hlen, hsize]
      omega
    have hcontent : content = pageText.drop start := List.take_of_length_le hshort
    rw [windows_short chunkWindow hne hshort, ← hcontent, List.map_singleton, withContents_cons,
      withContents_nil (Nat.not_lt.mp hmax)]
  | case3 start chunks hlt content chunks' hmax hend ih =>
    have hlong : chunkWindow.size < (pageText.drop start).length := by
      rw [hlen, hsize]
      omega
    rw [ih (Nat.not_lt.mp hmax), windows_long chunkWindow hlong, List.map_cons, withContents_cons,
      List.drop_drop]
    rfl
  | case4 start chunks hge =>
    rw [List.drop_eq_nil_of_le (Nat.not_lt.mp hge), windows_nil, List.map_nil, withContents_nil h]

theorem chunkPages_eq (sha256 : Text → Digest) (first : ℕ) (pages : List Text)
    {chunks : List DeterministicDocumentChunk} (h : chunks.length ≤ maxDocumentChunks) :
    chunkPages sha256 first pages chunks = withContents sha256 chunks (pageWindows first pages) := by
  induction pages generalizing first chunks with
  | nil => exact (withContents_nil h).symm
  | cons page pages ih =>
    rw [chunkPages, pageWindows_cons]
    by_cases hp : page = []
    · rw [if_pos hp, ih _ h, hp, windows_nil, List.map_nil, List.nil_append]
    · rw [if_neg hp, chunkPage_eq sha256 first page 0 h, List.drop_zero, withContents_append]
      by_cases hfit : chunks.length +
          ((chunkWindow.windows page).map fun content ↦ (first, content)).length ≤ maxDocumentChunks
      · rw [withContents, if_pos hfit, Option.bind_some, ih]
        rw [List.length_append, length_numbered]
        exact hfit
      · rw [withContents, if_neg hfit, Option.bind_none, withContents_none]
        rw [List.length_append, length_numbered]
        omega

theorem chunkDocumentText_eq (sha256 : Text → Digest) {text : Text} {pageCount : ℕ}
    {pages : List Text} (h : pageTexts text pageCount = some pages) :
    chunkDocumentText sha256 text pageCount =
      if pageWindows 1 pages ≠ [] ∧ (pageWindows 1 pages).length ≤ maxDocumentChunks then
        some (numbered sha256 0 (pageWindows 1 pages))
      else none := by
  rw [chunkDocumentText, h, Option.bind_some, chunkPages_eq sha256 1 pages (Nat.zero_le _),
    withContents, List.length_nil, Nat.zero_add, List.nil_append]
  have hempty : numbered sha256 0 (pageWindows 1 pages) = [] ↔ pageWindows 1 pages = [] := by
    rw [← List.length_eq_zero_iff, length_numbered, List.length_eq_zero_iff]
  by_cases hmax : (pageWindows 1 pages).length ≤ maxDocumentChunks
  · by_cases hne : pageWindows 1 pages = []
    · simp [hne, numbered]
    · simp [hmax, hne, hempty]
  · simp [hmax]

def neededChunks (pages : List Text) : ℕ := (pages.map fun p ↦ chunkWindow.count p.length).sum

theorem length_pageWindows (first : ℕ) (pages : List Text) :
    (pageWindows first pages).length = neededChunks pages := by
  induction pages generalizing first with
  | nil => rfl
  | cons page pages ih =>
    rw [pageWindows_cons, List.length_append, List.length_map, length_windows, ih, neededChunks,
      neededChunks, List.map_cons, List.sum_cons]

theorem pageWindows_bounds {first : ℕ} {pages : List Text} {c : ℕ × Text}
    (h : c ∈ pageWindows first pages) : first ≤ c.1 ∧ c.1 < first + pages.length := by
  simp only [pageWindows, List.mem_flatMap, List.mem_map] at h
  obtain ⟨p, hp, content, -, rfl⟩ := h
  obtain ⟨hlow, hhigh, -⟩ := List.mem_zipIdx hp
  exact ⟨hlow, by omega⟩

theorem filter_pageWindows (first : ℕ) (pages : List Text) {i : ℕ} {page : Text}
    (h : pages[i]? = some page) :
    ((pageWindows first pages).filter (·.1 = first + i)).map (·.2) = chunkWindow.windows page := by
  induction pages generalizing first i with
  | nil => cases h
  | cons p pages ih =>
    rw [pageWindows_cons, List.filter_append, List.map_append]
    cases i with
    | zero =>
      obtain rfl := Option.some.inj h
      have hrest : (pageWindows (first + 1) pages).filter (·.1 = first + 0) = [] := by
        refine List.filter_eq_nil_iff.mpr fun c hc ↦ ?_
        have := (pageWindows_bounds hc).1
        simp only [decide_eq_true_eq]
        omega
      rw [hrest, List.map_nil, List.append_nil, List.filter_map, List.map_map]
      simp [Function.comp_def]
    | succ i =>
      have hfirst : ((chunkWindow.windows p).map fun content ↦ (first, content)).filter
          (·.1 = first + (i + 1)) = [] := by
        refine List.filter_eq_nil_iff.mpr fun c hc ↦ ?_
        obtain ⟨content, -, rfl⟩ := List.mem_map.mp hc
        simp only [decide_eq_true_eq]
        omega
      have hi := ih (first + 1) h
      rw [hfirst, List.map_nil, List.nil_append, ← hi]
      rw [show first + (i + 1) = first + 1 + i by omega]

/-- The chunks with the number of a page make up that page, and there are no
others. -/
structure Recovered (pages : List Text) (chunks : List DeterministicDocumentChunk) : Prop where
  page : ∀ i page, pages[i]? = some page →
    chunkWindow.rebuild ((chunks.filter (·.pageNumber = i + 1)).map (·.content)) = page
  numbers : ∀ c ∈ chunks, 1 ≤ c.pageNumber ∧ c.pageNumber ≤ pages.length

theorem filter_numbered (sha256 : Text → Digest) (first : ℕ) (contents : List (ℕ × Text)) (k : ℕ) :
    ((numbered sha256 first contents).filter (·.pageNumber = k)).map (·.content) =
      (contents.filter (·.1 = k)).map (·.2) := by
  induction contents generalizing first with
  | nil => rfl
  | cons c contents ih =>
    have hsplit : numbered sha256 first (c :: contents) =
        ⟨c.1, first, c.2, sha256 c.2⟩ :: numbered sha256 (first + 1) contents :=
      numbered_append sha256 first [c] contents
    rw [hsplit, List.filter_cons, List.filter_cons]
    by_cases hk : c.1 = k
    · simp only [hk, decide_true, ↓reduceIte, List.map_cons, ih]
    · simp only [hk, decide_false, Bool.false_eq_true, ↓reduceIte, ih]

theorem recovered_numbered (sha256 : Text → Digest) (pages : List Text) :
    Recovered pages (numbered sha256 0 (pageWindows 1 pages)) := by
  refine ⟨fun i page hi ↦ ?_, fun c hc ↦ ?_⟩
  · rw [filter_numbered, Nat.add_comm i 1, filter_pageWindows 1 pages hi, rebuild_windows]
  · obtain ⟨⟨x, k⟩, hx, rfl⟩ := List.mem_map.mp hc
    have hmem : x ∈ pageWindows 1 pages := List.fst_mem_of_mem_zipIdx hx
    obtain ⟨hlow, hhigh⟩ := pageWindows_bounds hmem
    exact ⟨hlow, by dsimp only; omega⟩

theorem mem_of_mem_stripPage {c : Char} {page : Text} (h : c ∈ stripPage page)
    (hc : c ≠ '\n') : c ∈ page := by
  have hcr : c ∈ replaceCr (replaceCrLf page) :=
    (List.dropWhile_sublist _).mem ((List.rdropWhile_prefix _ _).mem h)
  obtain ⟨d, hd, hdc⟩ := List.mem_map.mp hcr
  split at hdc
  · exact absurd hdc.symm hc
  · exact mem_of_mem_replaceCrLf (hdc ▸ hd) hc

theorem pageTexts_joinPages {parts : List Text} (hne : parts ≠ [])
    (h : parts.length ≠ 1 → ∀ part ∈ parts, documentPageSeparator ∉ part) :
    pageTexts (joinPages parts) parts.length = some parts := by
  unfold pageTexts
  split
  · next hone =>
    obtain ⟨part, rfl⟩ := List.length_eq_one_iff.mp hone
    simp [joinPages]
  · next hone =>
    rw [joinPages, List.splitOn_intercalate documentPageSeparator (h hone) hne]
    simp

/-- What an index over a stored document has to do with its pages. -/
structure Agrees (sha256 : Text → Digest) (pages : List Text) (text : Text) (pageCount : ℕ) :
    Prop where
  texts : pageTexts text pageCount = some pages
  succeeds : (chunkDocumentText sha256 text pageCount).isSome ↔ neededChunks pages ≤ maxDocumentChunks
  recovered : ∀ chunks, chunkDocumentText sha256 text pageCount = some chunks →
    Recovered pages chunks

theorem pageWindows_ne_nil {first : ℕ} {pages : List Text} (h : ∃ page ∈ pages, page ≠ []) :
    pageWindows first pages ≠ [] := by
  obtain ⟨page, hpage, hne⟩ := h
  obtain ⟨i, hi⟩ := List.mem_iff_getElem?.mp hpage
  intro hnil
  have hwindows := filter_pageWindows first pages hi
  rw [hnil] at hwindows
  exact windows_ne_nil chunkWindow hne hwindows.symm

theorem agrees_of_pageTexts (sha256 : Text → Digest) {pages : List Text} {text : Text}
    {pageCount : ℕ} (h : pageTexts text pageCount = some pages)
    (hne : ∃ page ∈ pages, page ≠ []) : Agrees sha256 pages text pageCount := by
  have heq := chunkDocumentText_eq sha256 h
  rw [length_pageWindows] at heq
  by_cases hmax : neededChunks pages ≤ maxDocumentChunks
  · rw [if_pos ⟨pageWindows_ne_nil hne, hmax⟩] at heq
    refine ⟨h, by simp [heq, hmax], fun chunks hc ↦ ?_⟩
    obtain rfl := Option.some.inj (heq.symm.trans hc)
    exact recovered_numbered sha256 pages
  · rw [if_neg fun hc ↦ hmax hc.2] at heq
    refine ⟨h, by simp [heq, hmax], fun chunks hc ↦ ?_⟩
    rw [heq] at hc
    cases hc

theorem neededChunks_text {text : Text} (h : text.length ≤ maxDocumentTextCharacters) :
    neededChunks [text] ≤ maxDocumentChunks := by
  have hcount : chunkWindow.count text.length ≤ 1 + (text.length - 2000 + 1800 - 1) / 1800 := by
    unfold Sliding.count
    split
    · omega
    · exact le_rfl
  simp only [maxDocumentTextCharacters] at h
  simp only [neededChunks, List.map_cons, List.map_nil, List.sum_cons, List.sum_nil,
    maxDocumentChunks]
  omega

theorem agrees_of_parsePages (sha256 : Text → Digest) {pages : List Text} {text : Text}
    {pageCount : ℕ} (h : parsePages pages = .ok (text, pageCount))
    (hsep : pageCount ≠ 1 → ∀ page ∈ pages, documentPageSeparator ∉ page) :
    Agrees sha256 (pages.map stripPage) text pageCount := by
  obtain ⟨rfl, rfl, hpos, -, page, hpage, hne⟩ := parsePages_ok h
  refine agrees_of_pageTexts sha256 ?_ ⟨stripPage page, List.mem_map_of_mem hpage, hne⟩
  rw [← List.length_map stripPage]
  refine pageTexts_joinPages ?_ fun hone part hpart hmem ↦ ?_
  · exact List.ne_nil_of_length_pos (by rw [List.length_map]; exact hpos)
  · obtain ⟨page, hpage, rfl⟩ := List.mem_map.mp hpart
    rw [List.length_map] at hone
    exact hsep hone page hpage (mem_of_mem_stripPage hmem (by decide))

/-- Parse and index agree, up to the number of chunks a document may take. -/
theorem index_agrees_with_parse (sha256 : Text → Digest) :
    (∀ pages text pageCount, parsePages pages = .ok (text, pageCount) →
      (pageCount ≠ 1 → ∀ page ∈ pages, documentPageSeparator ∉ page) →
      Agrees sha256 (pages.map stripPage) text pageCount) ∧
    ∀ (host : Host) filename mediaType content document,
      parseKnowledgeDocument host filename mediaType content = .ok document →
      document.mediaType ≠ Extension.pdf.mediaType →
      document.pageCount = 1 ∧ Agrees sha256 [document.extractedText] document.extractedText 1 ∧
        (chunkDocumentText sha256 document.extractedText 1).isSome := by
  refine ⟨fun pages text pageCount h hsep ↦ agrees_of_parsePages sha256 h hsep, ?_⟩
  intro host filename mediaType content document h hpdf
  obtain ⟨extension, hmedia, htext⟩ := parseKnowledgeDocument_ok h
  have hfile : parseTextFile content = .ok (document.extractedText, document.pageCount) := by
    cases extension with
    | pdf => exact absurd hmedia hpdf
    | txt => exact htext
    | md => exact htext
  obtain ⟨hone, hne, hmax⟩ := parseTextFile_ok hfile
  have hagrees : Agrees sha256 [document.extractedText] document.extractedText 1 :=
    agrees_of_pageTexts sha256 rfl ⟨_, List.mem_singleton_self _, hne⟩
  exact ⟨hone, hagrees, hagrees.succeeds.mpr (neededChunks_text hmax)⟩

theorem index_agrees_with_parse_sample :
    Agrees (fun _ ↦ ⟨List.replicate 64 '0', by decide⟩) ["Intro".toList, [], "a\nb".toList]
      "Intro\x0c\x0ca\nb".toList 3 :=
  (index_agrees_with_parse fun _ ↦ ⟨List.replicate 64 '0', by decide⟩).1
    [" Intro\n".toList, "\t".toList, "a\r\nb".toList] "Intro\x0c\x0ca\nb".toList 3
    (by decide +kernel) (by decide +kernel)

/-- Ninety-nine short pages, and one that takes a hundred and two chunks. -/
def lopsidedPages : List Text := List.replicate 99 ['x'] ++ [List.replicate 182001 'x']

theorem stripPage_replicate (n : ℕ) : stripPage (List.replicate n 'x') = List.replicate n 'x' := by
  refine stripPage_of_plain fun c hc ↦ ?_
  obtain rfl := List.eq_of_mem_replicate hc
  decide

theorem map_stripPage_lopsidedPages : lopsidedPages.map stripPage = lopsidedPages := by
  rw [lopsidedPages, List.map_append, List.map_replicate, List.map_singleton,
    stripPage_replicate 182001]
  exact congrArg (List.replicate 99 · ++ _) (stripPage_replicate 1)

theorem neededChunks_lopsidedPages : neededChunks lopsidedPages = 201 := by
  simp only [neededChunks, lopsidedPages, List.map_append, List.map_replicate, List.map_singleton,
    List.sum_append_nat, List.sum_replicate_nat, List.sum_singleton, List.length_replicate]
  decide

theorem notMem_lopsidedPages {c : Char} (hc : c ≠ 'x') {page : Text} (h : page ∈ lopsidedPages) :
    c ∉ page := by
  intro hmem
  obtain h | h := List.mem_append.mp h
  · obtain rfl := List.eq_of_mem_replicate h
    exact hc (List.mem_singleton.mp hmem)
  · obtain rfl := List.mem_singleton.mp h
    exact hc (List.eq_of_mem_replicate hmem)

theorem parsePages_lopsidedPages : parsePages lopsidedPages =
    .ok (joinPages (lopsidedPages.map stripPage), lopsidedPages.length) := by
  have hlengths : (lopsidedPages.map fun page ↦ (stripPage page).length) =
      (lopsidedPages.map stripPage).map List.length := List.map_map.symm
  apply parsePages_of_fit
  · simp only [lopsidedPages, List.length_append, List.length_replicate, List.length_singleton]
    decide
  · intro page hpage
    have hstrip := List.mem_map_of_mem (f := stripPage) hpage
    rw [map_stripPage_lopsidedPages] at hstrip
    exact notMem_lopsidedPages (by decide) hstrip
  · rw [hlengths, map_stripPage_lopsidedPages]
    simp only [lopsidedPages, List.map_append, List.map_replicate, List.map_singleton,
      List.sum_append_nat, List.sum_replicate_nat, List.sum_singleton, List.length_append,
      List.length_replicate, List.length_singleton]
    decide
  · refine ⟨['x'], List.mem_append_left _ ?_, by decide⟩
    exact List.mem_replicate.mpr ⟨by decide, rfl⟩

/-- A document that is stored and then cannot be indexed. -/
theorem accepted_document_with_too_many_chunks :
    ∃ pages text pageCount, parsePages pages = .ok (text, pageCount) ∧
      (∀ page ∈ pages, '\x00' ∉ page ∧ documentPageSeparator ∉ page) ∧
      ∀ sha256 : Text → Digest, chunkDocumentText sha256 text pageCount = none := by
  have hagrees (sha256 : Text → Digest) := agrees_of_parsePages sha256 parsePages_lopsidedPages
    fun _ page hpage ↦ notMem_lopsidedPages (by decide) hpage
  refine ⟨_, _, _, parsePages_lopsidedPages, fun page hpage ↦
    ⟨notMem_lopsidedPages (by decide) hpage, notMem_lopsidedPages (by decide) hpage⟩, fun sha256 ↦ ?_⟩
  have hsucceeds := (hagrees sha256).succeeds
  have hneeded : ¬ neededChunks (lopsidedPages.map stripPage) ≤ maxDocumentChunks := by
    rw [map_stripPage_lopsidedPages, neededChunks_lopsidedPages]
    decide
  exact Option.not_isSome_iff_eq_none.mp fun hsome ↦ hneeded (hsucceeds.mp hsome)

end LearningTasks.Services.KnowledgeDocumentIndexing
