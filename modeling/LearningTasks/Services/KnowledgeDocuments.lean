import LearningTasks.Agent.State
import LearningTasks.Library.Fallible
import Mathlib.Data.List.DropRight

namespace LearningTasks.Services.KnowledgeDocuments

open Library.Strings Library.Fallible Agent.State

def maxDocumentBytes : ℕ := 5 * 1024 * 1024

def maxDocumentPages : ℕ := 100

def maxDocumentTextCharacters : ℕ := 200000

def maxDocumentNameCharacters : ℕ := 255

def pdfSignature : List UInt8 := [0x25, 0x50, 0x44, 0x46, 0x2d]

def documentPageSeparator : Char := '\x0c'

inductive DocumentError
  | invalid
  | tooLarge
  deriving DecidableEq

inductive Extension
  | txt
  | md
  | pdf
  deriving DecidableEq

def Extension.mediaType : Extension → Text
  | .txt => "text/plain".toList
  | .md => "text/markdown".toList
  | .pdf => "application/pdf".toList

/-- What pypdf makes of a file; a page without text has the empty one. -/
structure Pdf where
  encrypted : Bool
  pages : List Text

structure Host where
  sha256 : List UInt8 → Digest
  readPdf : List UInt8 → Option Pdf

structure ParsedKnowledgeDocument where
  displayName : Text
  mediaType : Text
  byteCount : ℕ
  contentSha256 : Digest
  pageCount : ℕ
  extractedText : Text

def validatePersistedText (value : Text) : Except DocumentError Text :=
  if '\x00' ∈ value then .error .invalid else .ok value

def pathName (value : Text) : Text :=
  ((value.splitOn '/').filter fun part ↦ part ≠ [] ∧ part ≠ ['.']).getLastD []

/-- `PurePosixPath(name).suffix` of a last component: from the last dot on, unless
only dots come before it. -/
def pathSuffix (name : Text) : Text :=
  let tail := name.rtakeWhile (· ≠ '.')
  let stem := name.take (name.length - tail.length - 1)
  if tail.length < name.length ∧ stem.any (· ≠ '.') then '.' :: tail else []

/-- The extension whose text is the case-folded suffix; no letter outside ASCII
folds to one of these. -/
def readExtension (suffix : Text) : Option Extension :=
  let folded := suffix.map Char.toLower
  if folded = ".txt".toList then some .txt
  else if folded = ".md".toList then some .md
  else if folded = ".pdf".toList then some .pdf
  else none

def displayName (filename : Option Text) : Except DocumentError (Text × Extension) :=
  match filename with
  | none => .error .invalid
  | some filename => do
    let name ← validatePersistedText
      (strip (pathName (filename.map fun c ↦ if c = '\\' then '/' else c)))
    if name = [] ∨ name.length > maxDocumentNameCharacters then throw .invalid
    match readExtension (pathSuffix name) with
    | some extension => return (name, extension)
    | none => throw .invalid

def replaceCrLf : Text → Text
  | '\r' :: '\n' :: s => '\n' :: replaceCrLf s
  | c :: s => c :: replaceCrLf s
  | [] => []

def replaceCr (value : Text) : Text := value.map fun c ↦ if c = '\r' then '\n' else c

def normalizeText (value : Text) : Except DocumentError Text := do
  let normalized ← validatePersistedText (strip (replaceCr (replaceCrLf value)))
  if normalized = [] ∨ normalized.length > maxDocumentTextCharacters then throw .invalid
  return normalized

def isPageSpace (c : Char) : Bool := c ∈ [' ', '\t', '\n', '\x0b']

def stripPage (value : Text) : Text :=
  ((replaceCr (replaceCrLf value)).dropWhile isPageSpace).rdropWhile isPageSpace

def normalizePdfPage (value : Text) : Except DocumentError Text :=
  validatePersistedText (stripPage value)

/-- The loop over the pages, with the characters that have been counted. -/
def normalizePages : List Text → ℕ → Except DocumentError (List Text)
  | [], _ => .ok []
  | page :: pages, characterCount => do
    let part ← normalizePdfPage page
    if characterCount + part.length > maxDocumentTextCharacters then throw .invalid
    let parts ← normalizePages pages (characterCount + part.length)
    return part :: parts

def joinPages (parts : List Text) : Text := [documentPageSeparator].intercalate parts

def parsePages (pages : List Text) : Except DocumentError (Text × ℕ) := do
  if ¬ (1 ≤ pages.length ∧ pages.length ≤ maxDocumentPages) then throw .invalid
  let parts ← normalizePages pages 0
  if (parts.all fun part ↦ part = []) ∨ (joinPages parts).length > maxDocumentTextCharacters then
    throw .invalid
  return (joinPages parts, pages.length)

def parsePdf (host : Host) (content : List UInt8) : Except DocumentError (Text × ℕ) :=
  if ¬ pdfSignature <+: content then .error .invalid
  else match host.readPdf content with
    | none => .error .invalid
    | some pdf => if pdf.encrypted then .error .invalid else parsePages pdf.pages

def decodeUtf8Sig (content : List UInt8) : Option Text :=
  let bytes := if [0xef, 0xbb, 0xbf] <+: content then content.drop 3 else content
  (String.fromUTF8? ⟨bytes.toArray⟩).map String.toList

def parseTextFile (content : List UInt8) : Except DocumentError (Text × ℕ) :=
  if pdfSignature <+: content then .error .invalid
  else match decodeUtf8Sig content with
    | none => .error .invalid
    | some value => (normalizeText value).map fun text ↦ (text, 1)

def extractText (host : Host) (content : List UInt8) :
    Extension → Except DocumentError (Text × ℕ)
  | .pdf => parsePdf host content
  | .txt | .md => parseTextFile content

def parseKnowledgeDocument (host : Host) (filename mediaType : Option Text)
    (content : List UInt8) : Except DocumentError ParsedKnowledgeDocument :=
  if content.length > maxDocumentBytes then .error .tooLarge
  else if content = [] then .error .invalid
  else displayName filename >>= fun (name, extension) ↦
    if mediaType ≠ some extension.mediaType then .error .invalid
    else do
      let (text, pageCount) ← extractText host content extension
      let text ← validatePersistedText text
      return ⟨name, extension.mediaType, content.length, host.sha256 content, pageCount, text⟩

theorem mem_of_mem_replaceCrLf {c : Char} {value : Text} (h : c ∈ replaceCrLf value)
    (hc : c ≠ '\n') : c ∈ value := by
  fun_induction replaceCrLf value with
  | case1 s ih =>
    have hs := ih ((List.mem_cons.mp h).resolve_left hc)
    exact List.mem_cons_of_mem _ (List.mem_cons_of_mem _ hs)
  | case2 d s _ ih =>
    obtain rfl | hs := List.mem_cons.mp h
    · exact List.mem_cons_self
    · exact List.mem_cons_of_mem _ (ih hs)
  | case3 => exact h

theorem validatePersistedText_ok {value text : Text} (h : validatePersistedText value = .ok text) :
    text = value ∧ '\x00' ∉ value := by
  unfold validatePersistedText at h
  split at h
  · cases h
  · next hn =>
    cases h
    exact ⟨rfl, hn⟩

theorem normalizePages_ok {pages : List Text} {count : ℕ} {parts : List Text}
    (h : normalizePages pages count = .ok parts) : parts = pages.map stripPage := by
  induction pages generalizing count parts with
  | nil =>
    cases h
    rfl
  | cons page pages ih =>
    obtain ⟨part, hpart, h⟩ := bind_ok h
    obtain ⟨rfl, -⟩ := validatePersistedText_ok hpart
    split at h
    · cases h
    · obtain ⟨rest, hrest, h⟩ := bind_ok h
      cases h
      rw [ih hrest, List.map_cons]

theorem replaceCrLf_of_notMem {value : Text} (h : '\r' ∉ value) : replaceCrLf value = value := by
  fun_induction replaceCrLf value with
  | case1 s => exact absurd List.mem_cons_self h
  | case2 c s _ ih => rw [ih fun hs ↦ h (List.mem_cons_of_mem c hs)]
  | case3 => rfl

theorem replaceCr_of_notMem {value : Text} (h : '\r' ∉ value) : replaceCr value = value := by
  induction value with
  | nil => rfl
  | cons c value ih =>
    rw [List.mem_cons, not_or] at h
    have hrest : (value.map fun c ↦ if c = '\r' then '\n' else c) = value := ih h.2
    rw [replaceCr, List.map_cons, hrest, if_neg (Ne.symm h.1)]

theorem stripPage_of_plain {page : Text} (h : ∀ c ∈ page, ¬ isPageSpace c ∧ c ≠ '\r') :
    stripPage page = page := by
  have hcr : '\r' ∉ page := fun hmem ↦ (h _ hmem).2 rfl
  rw [stripPage, replaceCrLf_of_notMem hcr, replaceCr_of_notMem hcr]
  have hdrop : page.dropWhile isPageSpace = page := by
    cases page with
    | nil => rfl
    | cons c page => exact List.dropWhile_cons_of_neg (h c List.mem_cons_self).1
  rw [hdrop, List.rdropWhile_eq_self_iff]
  exact fun hne ↦ (h _ (List.getLast_mem hne)).1

theorem normalizePages_of_fit {pages : List Text} {count : ℕ}
    (hnul : ∀ page ∈ pages, '\x00' ∉ stripPage page)
    (hfit : count + (pages.map fun page ↦ (stripPage page).length).sum ≤ maxDocumentTextCharacters) :
    normalizePages pages count = .ok (pages.map stripPage) := by
  induction pages generalizing count with
  | nil => rfl
  | cons page pages ih =>
    rw [List.map_cons, List.sum_cons] at hfit
    have hpage : normalizePdfPage page = .ok (stripPage page) := if_neg (hnul page List.mem_cons_self)
    have hrest := ih (fun page hp ↦ hnul page (List.mem_cons_of_mem _ hp))
      (by omega : count + (stripPage page).length + _ ≤ _)
    rw [normalizePages, hpage]
    change (if count + (stripPage page).length > maxDocumentTextCharacters then _ else _) = _
    rw [if_neg (by omega), hrest]
    rfl

theorem length_joinPages_le (parts : List Text) :
    (joinPages parts).length ≤ (parts.map List.length).sum + parts.length := by
  induction parts with
  | nil => exact Nat.zero_le _
  | cons part parts ih =>
    cases parts with
    | nil =>
      simp only [joinPages, List.intercalate_singleton, List.map_cons, List.sum_cons]
      omega
    | cons part' parts =>
      simp only [joinPages, List.intercalate_cons_cons, List.length_append, List.map_cons,
        List.sum_cons, List.length_cons, List.length_nil] at ih ⊢
      omega

theorem parsePages_of_fit {pages : List Text} (hlen : pages.length ≤ maxDocumentPages)
    (hnul : ∀ page ∈ pages, '\x00' ∉ stripPage page)
    (hfit : (pages.map fun page ↦ (stripPage page).length).sum + pages.length ≤
      maxDocumentTextCharacters)
    (hne : ∃ page ∈ pages, stripPage page ≠ []) :
    parsePages pages = .ok (joinPages (pages.map stripPage), pages.length) := by
  obtain ⟨page, hpage, hpne⟩ := hne
  have hpos : 1 ≤ pages.length := List.length_pos_of_mem hpage
  have hcount : 0 + (pages.map fun page ↦ (stripPage page).length).sum ≤
      maxDocumentTextCharacters := by omega
  have hparts := normalizePages_of_fit hnul hcount
  have hjoin := length_joinPages_le (pages.map stripPage)
  rw [List.map_map, List.length_map] at hjoin
  have hall : ¬ ((pages.map stripPage).all fun part ↦ part = []) = true := by
    rw [List.all_eq_true]
    intro hall
    exact hpne (by simpa using hall (stripPage page) (List.mem_map_of_mem hpage))
  have hmax : ¬ (joinPages (pages.map stripPage)).length > maxDocumentTextCharacters :=
    Nat.not_lt.mpr (hjoin.trans hfit)
  unfold parsePages
  rw [if_neg (not_not.mpr ⟨hpos, hlen⟩)]
  change (normalizePages pages 0 >>= _) = _
  rw [hparts]
  change (if _ then _ else _) = _
  rw [if_neg (not_or.mpr ⟨hall, hmax⟩)]
  rfl

theorem parsePages_ok {pages : List Text} {text : Text} {pageCount : ℕ}
    (h : parsePages pages = .ok (text, pageCount)) :
    text = joinPages (pages.map stripPage) ∧ pageCount = pages.length ∧ 1 ≤ pages.length ∧
      text.length ≤ maxDocumentTextCharacters ∧ ∃ page ∈ pages, stripPage page ≠ [] := by
  unfold parsePages at h
  split at h
  · cases h
  · next hlen =>
    obtain ⟨parts, hparts, h⟩ := bind_ok h
    obtain rfl := normalizePages_ok hparts
    split at h
    · cases h
    · next hc =>
      cases h
      simp only [not_or, Bool.not_eq_true, List.all_eq_false, not_lt] at hc
      obtain ⟨⟨part, hpart, hne⟩, hmax⟩ := hc
      obtain ⟨page, hpage, rfl⟩ := List.mem_map.mp hpart
      exact ⟨rfl, rfl, (not_not.mp hlen).1, hmax, page, hpage, by simpa using hne⟩

theorem normalizeText_ok {value text : Text} (h : normalizeText value = .ok text) :
    text ≠ [] ∧ text.length ≤ maxDocumentTextCharacters := by
  obtain ⟨normalized, -, h⟩ := bind_ok h
  split at h
  · cases h
  · next hc =>
    cases h
    rw [not_or, not_lt] at hc
    exact hc

theorem parseTextFile_ok {content : List UInt8} {text : Text} {pageCount : ℕ}
    (h : parseTextFile content = .ok (text, pageCount)) :
    pageCount = 1 ∧ text ≠ [] ∧ text.length ≤ maxDocumentTextCharacters := by
  unfold parseTextFile at h
  split at h
  · cases h
  · split at h
    · cases h
    · obtain ⟨t, ht, h⟩ := map_ok h
      cases h
      exact ⟨rfl, normalizeText_ok ht⟩

theorem parseKnowledgeDocument_ok {host : Host} {filename mediaType : Option Text}
    {content : List UInt8} {d : ParsedKnowledgeDocument}
    (h : parseKnowledgeDocument host filename mediaType content = .ok d) :
    ∃ extension : Extension, d.mediaType = extension.mediaType ∧
      extractText host content extension = .ok (d.extractedText, d.pageCount) := by
  unfold parseKnowledgeDocument at h
  split at h
  · cases h
  · split at h
    · cases h
    · obtain ⟨⟨name, extension⟩, -, h⟩ := bind_ok h
      dsimp only at h
      split at h
      · cases h
      · obtain ⟨⟨text, pageCount⟩, htext, h⟩ := bind_ok h
        obtain ⟨text', hvalid, h⟩ := bind_ok h
        obtain ⟨rfl, -⟩ := validatePersistedText_ok hvalid
        cases h
        exact ⟨extension, rfl, htext⟩

end LearningTasks.Services.KnowledgeDocuments
