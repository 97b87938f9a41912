import LearningTasks.Agent.PromptRedistribution

namespace LearningTasks.Agent.SectionProjection

open Library.Strings Library.Serialization Library.SerializedLength Library.Bisection
  Library.Records Schemas.Scalars Schemas.Task Schemas.Project Grounding PromptBudget PromptSections

section

variable (isMark : Char → Bool)

/-- A beginning of a text that takes no grapheme apart: what is kept does not end in a
joiner, and what is left does not start with an extension of it. -/
structure SafePrefix (kept value : Text) : Prop where
  starts : kept <+: value
  joiner : kept.getLast? ≠ some zeroWidthJoiner
  extension : kept = [] ∨ ∀ c ∈ value[kept.length]?, isGraphemeExtension isMark c = false

variable {isMark}

theorem safePrefix_nil (value : Text) : SafePrefix isMark [] value :=
  ⟨List.nil_prefix, by simp, .inl rfl⟩

theorem safePrefix_safeCut {value : Text} {cut : ℕ} (h : cut < value.length) :
    SafePrefix isMark (value.take (safeCut isMark value cut)) value := by
  induction cut with
  | zero =>
    rw [safeCut, List.take_zero]
    exact safePrefix_nil value
  | succ cut ih =>
    rw [safeCut]
    split
    · exact ih (by omega)
    · next hjoiner =>
      split
      · exact ih (by omega)
      · next hextension =>
        have hlength : (value.take (cut + 1)).length = cut + 1 := List.length_take_of_le h.le
        refine ⟨List.take_prefix _ _, ?_, .inr ?_⟩
        · rw [List.getLast?_eq_getElem?, hlength, Nat.add_sub_cancel,
            List.getElem?_take_of_lt (Nat.lt_succ_self cut)]
          exact hjoiner
        · intro c hc
          rw [hlength] at hc
          rw [hc, Option.any_some] at hextension
          exact Bool.not_eq_true _ ▸ hextension

theorem safePrefix_unicodeSafePrefix {value : Text} {n : ℕ} (h : n < value.length) :
    SafePrefix isMark (unicodeSafePrefix isMark value n) value := by
  rw [unicodeSafePrefix, if_neg (by omega)]
  exact safePrefix_safeCut h

theorem fitText_cut {value v : Text} {budget : ℤ} {render : Text → Text}
    (hmono : (render value).length ≤ (render (value ++ truncationMarker)).length)
    (hfull : budget < (render value).length)
    (h : (fitText isMark value budget render).1 = some v) :
    ∃ kept, SafePrefix isMark kept value ∧ v = kept ++ truncationMarker := by
  have hfit := fitText_length h
  rw [fitText, if_neg (by omega)] at h
  obtain ⟨n, -, rfl⟩ := Option.map_eq_some_iff.mp h
  have hn : n < value.length := by
    by_contra hge
    have hwhole : truncated isMark value n = value ++ truncationMarker := by
      rw [truncated, unicodeSafePrefix, if_pos (by omega)]
    rw [hwhole] at hfit
    omega
  exact ⟨_, safePrefix_unicodeSafePrefix hn, rfl⟩

end

section

variable (isMark : Char → Bool) (attach : Fields → Text → Fields)

/-- The items of a section for some rows, with the number of those that are not whole:
their texts are shortened, or left out. -/
inductive Attached : List Row → List Fields → ℕ → Prop
  | nil : Attached [] [] 0
  | whole (row : Row) {rows : List Row} {items : List Fields} {n : ℕ} :
      Attached rows items n → Attached (row :: rows) (wholeRow attach row :: items) n
  | cut (row : Row) {text kept : Text} {rows : List Row} {items : List Fields} {n : ℕ}
      (text_eq : row.text = some text) (safe : SafePrefix isMark kept text)
      (shorter : attach row.identity (kept ++ truncationMarker) ≠ wholeRow attach row) :
      Attached rows items n →
        Attached (row :: rows) (attach row.identity (kept ++ truncationMarker) :: items) (n + 1)
  | dropped (row : Row) {text : Text} {rows : List Row} {items : List Fields} {n : ℕ}
      (text_eq : row.text = some text) (shorter : row.identity ≠ wholeRow attach row) :
      Attached rows items n → Attached (row :: rows) (row.identity :: items) (n + 1)

variable {isMark attach}

theorem Attached.length_eq {rows : List Row} {items : List Fields} {n : ℕ}
    (h : Attached isMark attach rows items n) : items.length = rows.length := by
  induction h with
  | nil => rfl
  | whole row rest ih => exact congrArg Nat.succ ih
  | cut row text_eq safe shorter rest ih => exact congrArg Nat.succ ih
  | dropped row text_eq shorter rest ih => exact congrArg Nat.succ ih

section

variable {render : List Fields → Text} {frame : ℕ} {budget : ℤ}

variable (isMark) in
theorem attachTexts_attached (hr : Weighted render frame)
    (hmono : ∀ fields s t, weight (attach fields s) ≤ weight (attach fields (s ++ t)))
    {projected : List Fields} {rows : List Row}
    (h : (render (projected ++ rows.map Row.identity)).length ≤ budget) :
    ∃ items n, attachTexts isMark render attach budget projected rows = (projected ++ items, n) ∧
      Attached isMark attach rows items n := by
  induction rows generalizing projected with
  | nil => exact ⟨[], 0, by rw [attachTexts, List.append_nil], .nil⟩
  | cons row rows ih =>
    have h₀ := h
    rw [List.map_cons, List.append_cons] at h
    obtain ⟨identity, text⟩ := row
    cases text with
    | none =>
      obtain ⟨items, n, hrun, ha⟩ := ih h
      refine ⟨identity :: items, n, ?_, .whole ⟨identity, none⟩ ha⟩
      rw [attachTexts, hrun, ← List.append_cons]
    | some text =>
      by_cases hfull : ((render (projected ++ attach identity text :: rows.map Row.identity)).length :
          ℤ) ≤ budget
      · rw [attachTexts, if_pos hfull]
        rw [List.append_cons] at hfull
        obtain ⟨items, n, hrun, ha⟩ := ih hfull
        refine ⟨attach identity text :: items, n, ?_, .whole ⟨identity, some text⟩ ha⟩
        rw [hrun, ← List.append_cons]
      · have hlong := not_le.mp hfull
        rw [attachTexts, if_neg hfull]
        split
        · next v hv =>
          have hfit := fitText_length hv
          have hlonger : (render (projected ++ attach identity text :: rows.map Row.identity)).length ≤
              (render (projected ++ attach identity (text ++ truncationMarker) ::
                rows.map Row.identity)).length := by
            have h₁ := hmono identity text truncationMarker
            rw [hr, hr, weights_append, weights_append, weights_cons, weights_cons]
            omega
          obtain ⟨kept, hsafe, rfl⟩ := fitText_cut hlonger hlong hv
          beta_reduce at hfit
          have hshorter : attach identity (kept ++ truncationMarker) ≠ attach identity text := by
            intro he
            rw [he] at hfit
            exact hfull hfit
          rw [List.append_cons] at hfit
          obtain ⟨items, n, hrun, ha⟩ := ih hfit
          refine ⟨attach identity (kept ++ truncationMarker) :: items, n + 1, ?_,
            .cut ⟨identity, some text⟩ rfl hsafe hshorter ha⟩
          dsimp only
          rw [hrun, ← List.append_cons]
        · change (render (projected ++ [identity] ++ rows.map Row.identity)).length ≤ budget at h
          obtain ⟨items, n, hrun, ha⟩ := ih h
          refine ⟨identity :: items, n + 1, ?_, .dropped ⟨identity, some text⟩ rfl ?_ ha⟩
          · dsimp only
            rw [hrun, ← List.append_cons]
          · intro he
            change identity = attach identity text at he
            rw [← he] at hfull
            exact hfull h₀

variable (isMark) in
theorem projectRows_attached (hr : Weighted render frame)
    (hmono : ∀ fields s t, weight (attach fields s) ≤ weight (attach fields (s ++ t)))
    (rows : List Row) (hframe : (render []).length ≤ budget) :
    ∃ items n, projectRows isMark render attach budget rows = (items, n) ∧
      (render items).length ≤ budget ∧ items.length ≤ rows.length ∧
      Attached isMark attach (rows.take items.length) items n := by
  have hsize : ((render (projectRows isMark render attach budget rows).1).length : ℤ) ≤ budget :=
    projectRows_length rows hframe
  obtain ⟨k, hk, hretained⟩ := retainRows_prefix render budget [] rows
  have hids := retainRows_length rows hframe
  rw [List.nil_append] at hretained
  rw [hretained, ← List.nil_append ((rows.take k).map Row.identity)] at hids
  obtain ⟨items, n, hrun, ha⟩ := attachTexts_attached isMark hr hmono hids
  have hlength : items.length = k := by
    rw [ha.length_eq, List.length_take, min_eq_left hk]
  have hproject : projectRows isMark render attach budget rows = (items, n) := by
    rw [projectRows, hretained, List.length_map, List.length_take, min_eq_left hk, hrun,
      List.nil_append]
  rw [hproject] at hsize
  rw [← hlength] at ha hk
  exact ⟨items, n, hproject, hsize, hk, ha⟩

end

end

section

variable {α : Type}

/-- What is emitted of a list: one object for each of its first items, in their order, with
whether the text of the item was shortened. -/
def Emitted (Item : α → Fields → Bool → Prop) (source : List α) (items : List (Fields × Bool)) :
    Prop :=
  List.Forall₂ (fun a item ↦ Item a item.1 item.2) (source.take items.length) items

/-- The manifest counts the shortened texts and the items that are missing, and tells whether
there are any. -/
def Manifested (shortenedKey : String) (total : ℕ) (items : List (Fields × Bool))
    (manifest : Json) : Prop :=
  ∃ fields truncated, manifest = .obj fields ∧
    lookup "truncated".toList fields = some (.bool truncated) ∧
    lookup shortenedKey.toList fields = some (.int (items.countP (·.2))) ∧
    lookup "items_omitted".toList fields = some (.int (total - items.length)) ∧
    (truncated = false ↔ items.length = total ∧ ∀ item ∈ items, item.2 = false)

/-- A text as it stands under its key: exact, or a safe beginning of it with the marker, or
left out. -/
inductive TextKept (isMark : Char → Bool) (Written : Text → Json → Prop) (text : Text) :
    Option Json → Bool → Prop
  | exact {json : Json} : Written text json → TextKept isMark Written text (some json) false
  | shortened {kept : Text} {json : Json} : SafePrefix isMark kept text →
      kept ++ truncationMarker ≠ text → Written (kept ++ truncationMarker) json →
        TextKept isMark Written text (some json) true
  | absent : TextKept isMark Written text none true

def Described (isMark : Char → Bool) (description : Option Text) (item : Fields)
    (shortened : Bool) : Prop :=
  match description with
  | none => lookup "description".toList item = some .null ∧ shortened = false
  | some text => TextKept isMark (fun s json ↦ json = .str s) text
      (lookup "description".toList item) shortened

structure ProjectFields (p : PublicProject) (item : Fields) : Prop where
  id : lookup "id".toList item = some (.str p.id.text)
  name : lookup "name".toList item = some (.str p.name)
  startDate : lookup "start_date".toList item = some (writeNullable (.str ·.iso) p.startDate)
  targetDate : lookup "target_date".toList item = some (writeNullable (.str ·.iso) p.targetDate)
  status : lookup "status".toList item = some (.str p.status.value)
  createdAt : lookup "created_at".toList item = some (.str p.createdAt.iso)
  updatedAt : lookup "updated_at".toList item = some (.str p.updatedAt.iso)

structure TaskFields (t : PublicTask) (item : Fields) : Prop where
  id : lookup "id".toList item = some (.str t.id.text)
  projectId : lookup "project_id".toList item = some (.str t.projectId.text)
  title : lookup "title".toList item = some (.str t.title)
  status : lookup "status".toList item = some (.str t.status.value)
  priority : lookup "priority".toList item = some (.str t.priority.value)
  plannedDate : lookup "planned_date".toList item = some (writeNullable (.str ·.iso) t.plannedDate)
  dueAt : lookup "due_at".toList item = some (writeNullable (.str ·.iso) t.dueAt)
  estimatedMinutes : lookup "estimated_minutes".toList item =
    some (writeNullable .int t.estimatedMinutes)
  completedAt : lookup "completed_at".toList item = some (writeNullable (.str ·.iso) t.completedAt)
  createdAt : lookup "created_at".toList item = some (.str t.createdAt.iso)
  updatedAt : lookup "updated_at".toList item = some (.str t.updatedAt.iso)

/-- A text with its angle brackets spelled out, as no delimiter has them. -/
inductive BoundaryEscaped : Text → Text → Prop
  | nil : BoundaryEscaped [] []
  | less {s t : Text} : BoundaryEscaped s t → BoundaryEscaped ('<' :: s) ("\\u003c".toList ++ t)
  | greater {s t : Text} : BoundaryEscaped s t →
      BoundaryEscaped ('>' :: s) ("\\u003e".toList ++ t)
  | other {c : Char} {s t : Text} : c ≠ '<' → c ≠ '>' → BoundaryEscaped s t →
      BoundaryEscaped (c :: s) (c :: t)

/-- A text that is written with its angle brackets spelled out. -/
def WrittenEscaped (text : Text) (json : Json) : Prop :=
  ∃ escaped, BoundaryEscaped text escaped ∧ json = .str escaped

structure EvidenceFields (e : GroundingEvidence) (item : Fields) : Prop where
  citationId : lookup "citation_id".toList item = some (.str e.citationId)
  documentId : lookup "document_id".toList item = some (.str e.documentId.text)
  chunkId : lookup "chunk_id".toList item = some (.str e.chunkId.text)
  source : ∃ json, lookup "source".toList item = some json ∧ WrittenEscaped e.source json
  pageNumber : lookup "page_number".toList item =
    some (writeNullable (fun n : ℕ ↦ .int n) e.pageNumber)
  ordinal : lookup "ordinal".toList item = some (.int e.ordinal)
  vectorRank : lookup "vector_rank".toList item =
    some (writeNullable (fun n : ℕ ↦ .int n) e.vectorRank)
  lexicalRank : lookup "lexical_rank".toList item =
    some (writeNullable (fun n : ℕ ↦ .int n) e.lexicalRank)
  fusionScore : lookup "fusion_score".toList item = some (.float e.fusionScore)

def ProjectItem (isMark : Char → Bool) (p : PublicProject) (item : Fields) (shortened : Bool) :
    Prop :=
  ProjectFields p item ∧ Described isMark p.description item shortened

def TaskItem (isMark : Char → Bool) (t : PublicTask) (item : Fields) (shortened : Bool) : Prop :=
  TaskFields t item ∧ Described isMark t.description item shortened

def EvidenceItem (isMark : Char → Bool) (e : GroundingEvidence) (item : Fields)
    (shortened : Bool) : Prop :=
  EvidenceFields e item ∧
    TextKept isMark WrittenEscaped e.excerpt (lookup "excerpt".toList item) shortened

/-- A section of a list: the object that is serialised, and what it holds. -/
structure ListSection (Item : α → Fields → Bool → Prop) (response : ListResponse α) (budget : ℤ)
    (s : BudgetedSection) (payload : Fields) (items : List (Fields × Bool)) : Prop where
  size : s.serialized.length ≤ budget
  serialized : s.serialized = dumps (.obj payload)
  listed : lookup "items".toList payload = some (.arr (items.map fun item ↦ .obj item.1))
  page : lookup "page".toList payload = some (.int response.page)
  pageSize : lookup "page_size".toList payload = some (.int response.pageSize)
  total : lookup "total".toList payload = some (.int response.total)
  pages : lookup "pages".toList payload = some (.int response.pages)
  emitted : Emitted Item response.items items
  manifest : Manifested "descriptions_truncated" response.items.length items s.manifest

structure GroundingSection (isMark : Char → Bool) (context : GroundedKnowledgeContext)
    (budget : ℤ) (s : BudgetedSection) (payload : Fields) (items : List (Fields × Bool)) :
    Prop where
  size : s.serialized.length ≤ budget
  serialized : s.serialized = groundingBegin ++ '\n' :: dumps (.obj payload) ++ '\n' :: groundingEnd
  listed : lookup "evidence".toList payload = some (.arr (items.map fun item ↦ .obj item.1))
  emitted : Emitted (EvidenceItem isMark) context.evidence items
  manifest : Manifested "excerpts_truncated" context.evidence.length items s.manifest

end

section

variable {α : Type} {isMark : Char → Bool} {attach : Fields → Text → Fields}

structure Writes (isMark : Char → Bool) (attach : Fields → Text → Fields) (row : α → Row)
    (Item : α → Fields → Bool → Prop) : Prop where
  whole (a : α) : Item a (wholeRow attach (row a)) false
  cut (a : α) {text kept : Text} : (row a).text = some text → SafePrefix isMark kept text →
    kept ++ truncationMarker ≠ text →
      Item a (attach (row a).identity (kept ++ truncationMarker)) true
  dropped (a : α) {text : Text} : (row a).text = some text → Item a (row a).identity true

theorem Attached.emitted {row : α → Row} {Item : α → Fields → Bool → Prop}
    (hw : Writes isMark attach row Item) {source : List α} {rows : List Row} {items : List Fields}
    {n : ℕ} (h : Attached isMark attach rows items n) (hrows : rows = source.map row) :
    ∃ emitted : List (Fields × Bool), items = emitted.map Prod.fst ∧ n = emitted.countP (·.2) ∧
      List.Forall₂ (fun a item ↦ Item a item.1 item.2) source emitted := by
  induction h generalizing source with
  | nil =>
    obtain rfl := List.map_eq_nil_iff.mp hrows.symm
    exact ⟨[], rfl, rfl, .nil⟩
  | whole r rest ih =>
    obtain ⟨a, source, rfl, rfl, hrest⟩ := List.map_eq_cons_iff.mp hrows.symm
    obtain ⟨emitted, rfl, rfl, hall⟩ := ih hrest.symm
    exact ⟨(_, false) :: emitted, rfl, by simp, .cons (hw.whole a) hall⟩
  | cut r htext hsafe hshorter rest ih =>
    obtain ⟨a, source, rfl, rfl, hrest⟩ := List.map_eq_cons_iff.mp hrows.symm
    obtain ⟨emitted, rfl, rfl, hall⟩ := ih hrest.symm
    refine ⟨(_, true) :: emitted, rfl, by simp, .cons (hw.cut a htext hsafe fun he ↦ ?_) hall⟩
    rw [he, wholeRow, htext] at hshorter
    exact hshorter rfl
  | dropped r htext hshorter rest ih =>
    obtain ⟨a, source, rfl, rfl, hrest⟩ := List.map_eq_cons_iff.mp hrows.symm
    obtain ⟨emitted, rfl, rfl, hall⟩ := ih hrest.symm
    exact ⟨(_, true) :: emitted, rfl, by simp, .cons (hw.dropped a htext) hall⟩

theorem rowsManifest_manifested {shortenedKey : String}
    (hkey : shortenedKey.toList ≠ "truncated".toList ∧ shortenedKey.toList ≠ "items_omitted".toList)
    {total : ℕ} {items : List (Fields × Bool)} (hle : items.length ≤ total) :
    Manifested shortenedKey total items
      (rowsManifest shortenedKey (items.countP (·.2)) (total - items.length)) := by
  obtain ⟨htruncated, homitted⟩ := hkey
  refine ⟨_, _, rfl, if_pos rfl, ?_, ?_, ?_⟩
  · rw [lookup, if_neg htruncated.symm, lookup, if_pos rfl]
  · rw [lookup, if_neg (by decide), lookup, if_neg homitted, lookup, if_pos rfl,
      Int.ofNat_sub hle]
  · have hcount : items.countP (·.2) = 0 ↔ ∀ item ∈ items, item.2 = false := by
      simp only [List.countP_eq_zero, Bool.not_eq_true]
    rw [Bool.or_eq_false_iff, decide_eq_false_iff_not, decide_eq_false_iff_not, ← hcount]
    omega

end

theorem weight_describe (fields : Fields) (s t : Text) :
    weight (describe fields s) ≤ weight (describe fields (s ++ t)) := by
  simp only [weight, describe, dumps_obj_length, fieldsLength_append, fieldsLength_cons,
    fieldsLength_nil, dumps_str_length, escaped_append]
  omega

theorem weight_attachExcerpt (fields : Fields) (s t : Text) :
    weight (attachExcerpt fields s) ≤ weight (attachExcerpt fields (s ++ t)) := by
  simp only [weight, attachExcerpt, escapeGroundingBoundaryText, List.flatMap_append,
    dumps_obj_length, fieldsLength_append, fieldsLength_cons, fieldsLength_nil, dumps_str_length,
    escaped_append]
  omega

theorem boundaryEscaped (text : Text) : BoundaryEscaped text (escapeGroundingBoundaryText text) := by
  induction text with
  | nil => exact .nil
  | cons c text ih =>
    rw [escapeGroundingBoundaryText, List.flatMap_cons]
    by_cases hless : c = '<'
    · rw [if_pos hless, hless]
      exact .less ih
    · rw [if_neg hless]
      by_cases hgreater : c = '>'
      · rw [if_pos hgreater, hgreater]
        exact .greater ih
      · rw [if_neg hgreater]
        exact .other hless hgreater ih

theorem nullable_eq_writeNullable {α : Type} (write : α → Json) (a : Option α) :
    nullable write a = writeNullable write a := by
  cases a <;> rfl

theorem projectFields (p : PublicProject) (more : Fields) :
    ProjectFields p (projectIdentity p ++ more) := by
  simp only [projectIdentity, nullable_eq_writeNullable]
  constructor <;> rfl

theorem taskFields (t : PublicTask) (more : Fields) : TaskFields t (taskIdentity t ++ more) := by
  simp only [taskIdentity, nullable_eq_writeNullable]
  constructor <;> rfl

theorem evidenceFields (e : GroundingEvidence) (more : Fields) :
    EvidenceFields e ((evidenceRow e).identity ++ more) := by
  simp only [evidenceRow, nullable_eq_writeNullable]
  constructor
  case source => exact ⟨_, rfl, _, boundaryEscaped e.source, rfl⟩
  all_goals rfl

variable (isMark : Char → Bool)

theorem lookup_describe {fields : Fields} (h : lookup "description".toList fields = none)
    (json : Json) : lookup "description".toList (fields ++ [("description".toList, json)]) =
      some json := by
  rw [lookup_append, h, Option.none_or, lookup, if_pos rfl]

theorem listRow_writes {α : Type} {identity : α → Fields} {description : α → Option Text}
    {ItemFields : α → Fields → Prop} (hfields : ∀ a more, ItemFields a (identity a ++ more))
    (hnew : ∀ a, lookup "description".toList (identity a) = none) :
    Writes isMark describe (fun a ↦ listRow (identity a) (description a))
      fun a item shortened ↦ ItemFields a item ∧
        Described isMark (description a) item shortened where
  whole a := by
    cases hd : description a with
    | none => exact ⟨hfields a _, lookup_describe (hnew a) _, rfl⟩
    | some text =>
      refine ⟨hfields a _, ?_⟩
      dsimp only [wholeRow, listRow, Described, describe]
      rw [lookup_describe (hnew a)]
      exact .exact rfl
  cut a text kept htext hsafe hne := by
    cases hd : description a with
    | none =>
      rw [hd] at htext
      cases htext
    | some text' =>
      rw [hd] at htext
      cases htext
      refine ⟨hfields a _, ?_⟩
      dsimp only [listRow, Described, describe]
      rw [lookup_describe (hnew a)]
      exact .shortened hsafe hne rfl
  dropped a text htext := by
    cases hd : description a with
    | none =>
      rw [hd] at htext
      cases htext
    | some text' =>
      have hbare := hfields a []
      rw [List.append_nil] at hbare
      refine ⟨hbare, ?_⟩
      dsimp only [listRow, Described]
      rw [hnew a]
      exact .absent

theorem evidenceRow_writes : Writes isMark attachExcerpt evidenceRow (EvidenceItem isMark) where
  whole e := by
    refine ⟨evidenceFields e _, ?_⟩
    exact .exact ⟨_, boundaryEscaped e.excerpt, rfl⟩
  cut e text kept htext hsafe hne := by
    cases htext
    exact ⟨evidenceFields e _, .shortened hsafe hne ⟨_, boundaryEscaped _, rfl⟩⟩
  dropped e text htext := by
    have hbare := evidenceFields e []
    rw [List.append_nil] at hbare
    exact ⟨hbare, .absent⟩

theorem buildListProjection_section {α : Type} {row : α → Row} {Item : α → Fields → Bool → Prop}
    (hw : Writes isMark describe row Item) (response : ListResponse α) {budget : ℤ}
    (h : (renderList response []).length ≤ budget) :
    ∃ payload items, ListSection Item response budget
      (buildListProjection isMark response row budget) payload items := by
  obtain ⟨items, n, hrun, hsize, hle, ha⟩ := projectRows_attached isMark
    (renderList_weighted response) weight_describe (response.items.map row) h
  rw [← List.map_take] at ha
  obtain ⟨emitted, rfl, rfl, hall⟩ := ha.emitted hw rfl
  rw [List.length_map] at hall hle
  rw [List.length_map] at hle
  have hitems : (emitted.map Prod.fst).map Json.obj = emitted.map fun item ↦ .obj item.1 :=
    List.map_map
  rw [buildListProjection, hrun]
  dsimp only
  rw [List.length_map]
  exact ⟨_, emitted, hsize, rfl, (if_pos rfl).trans (congrArg (some ∘ Json.arr) hitems), rfl, rfl,
    rfl, rfl, hall, rowsManifest_manifested (by decide) hle⟩

theorem groundingFrame_pos (context : GroundedKnowledgeContext) :
    1 ≤ (renderGrounding context []).length := by
  rw [renderGrounding, List.length_append, List.length_cons]
  omega

theorem buildGrounding_section (context : GroundedKnowledgeContext) {budget : ℤ}
    (h : (renderGrounding context []).length ≤ budget)
    (hmax : budget ≤ maxGroundingContextCharacters) :
    ∃ s payload items, buildGrounding isMark context budget = some s ∧
      GroundingSection isMark context budget s payload items := by
  have hpos := groundingFrame_pos context
  obtain ⟨items, n, hrun, hsize, hle, ha⟩ := projectRows_attached isMark
    (renderGrounding_weighted context) weight_attachExcerpt (context.evidence.map evidenceRow) h
  rw [← List.map_take] at ha
  obtain ⟨emitted, rfl, rfl, hall⟩ := ha.emitted (evidenceRow_writes isMark) rfl
  rw [List.length_map] at hall hle
  rw [List.length_map] at hle
  have hitems : (emitted.map Prod.fst).map Json.obj = emitted.map fun item ↦ .obj item.1 :=
    List.map_map
  rw [buildGrounding, if_pos ⟨by omega, hmax⟩, hrun]
  dsimp only
  rw [List.length_map]
  exact ⟨_, _, emitted, rfl, hsize, rfl, congrArg (some ∘ Json.arr) hitems, hall,
    rowsManifest_manifested (by decide) hle⟩

/-- Every section tells, in the object that is serialised, what it has of its list. -/
theorem section_projection :
    (∀ (response : ProjectListResponse) (budget : ℤ), (renderList response []).length ≤ budget →
      ∃ payload items, ListSection (ProjectItem isMark) response budget
        (buildListProjection isMark response projectRow budget) payload items) ∧
    (∀ (response : TaskListResponse) (budget : ℤ), (renderList response []).length ≤ budget →
      ∃ payload items, ListSection (TaskItem isMark) response budget
        (buildListProjection isMark response taskRow budget) payload items) ∧
    (∀ (context : GroundedKnowledgeContext) (budget : ℤ),
      (renderGrounding context []).length ≤ budget → budget ≤ maxGroundingContextCharacters →
        ∃ s payload items, buildGrounding isMark context budget = some s ∧
          GroundingSection isMark context budget s payload items) ∧
    ∀ (context : GroundedKnowledgeContext) (budget : ℤ), maxGroundingContextCharacters < budget →
      buildGrounding isMark context budget = none := by
  refine ⟨fun response budget h ↦ ?_, fun response budget h ↦ ?_,
    fun context budget h hmax ↦ buildGrounding_section isMark context h hmax,
    fun context budget h ↦ ?_⟩
  · exact buildListProjection_section isMark
      (listRow_writes isMark projectFields fun _ ↦ rfl) response h
  · exact buildListProjection_section isMark
      (listRow_writes isMark taskFields fun _ ↦ rfl) response h
  · rw [buildGrounding, if_neg]
    rintro ⟨-, hmax⟩
    omega

/-- A task whose description does not fit, and evidence with angle brackets in its source. -/
theorem section_projection_sample :
    (∃ payload items, ListSection (TaskItem fun _ ↦ false) PromptRedistribution.oneTask 1000
      (buildListProjection (fun _ ↦ false) PromptRedistribution.oneTask taskRow 1000)
      payload items) ∧
    ∃ s payload items,
      buildGrounding (fun _ ↦ false) PromptRedistribution.sevenDocuments 5000 = some s ∧
      GroundingSection (fun _ ↦ false) PromptRedistribution.sevenDocuments 5000 s payload items := by
  have htasks : (renderList PromptRedistribution.oneTask []).length ≤ (1000 : ℤ) := by
    decide +kernel
  have hdocuments : (renderGrounding PromptRedistribution.sevenDocuments []).length ≤
      (5000 : ℤ) := by
    rw [PromptRedistribution.documents_frame]
    decide
  obtain ⟨-, hlist, hgrounding, -⟩ := section_projection fun _ ↦ false
  exact ⟨hlist PromptRedistribution.oneTask 1000 htasks,
    hgrounding PromptRedistribution.sevenDocuments 5000 hdocuments (by decide)⟩

/-- A grounding section has a largest budget. -/
theorem no_section_beyond_limit :
    ¬ ∀ (isMark : Char → Bool) (context : GroundedKnowledgeContext) (budget : ℤ),
      (renderGrounding context []).length ≤ budget →
        ∃ s payload items, buildGrounding isMark context budget = some s ∧
          GroundingSection isMark context budget s payload items := by
  intro h
  have hdocuments : (renderGrounding PromptRedistribution.sevenDocuments []).length ≤
      (12001 : ℤ) := by
    rw [PromptRedistribution.documents_frame]
    decide
  obtain ⟨s, payload, items, hs, -⟩ := h (fun _ ↦ false) PromptRedistribution.sevenDocuments 12001
    hdocuments
  have hlimit : ¬ ((1 : ℤ) ≤ 12001 ∧ 12001 ≤ maxGroundingContextCharacters) := by decide
  rw [buildGrounding, if_neg hlimit] at hs
  cases hs

end LearningTasks.Agent.SectionProjection
