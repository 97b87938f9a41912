import LearningTasks.Agent.PromptRoom
import LearningTasks.Library.Occurrences

namespace LearningTasks.Agent.PromptDelimiters

open Library.Strings Library.Serialization Library.Occurrences Schemas.Scalars Schemas.Task
  Schemas.Project Grounding Agent.Schemas State PromptBudget PromptSections PromptRedistribution
  PromptRoom

structure IsDelimiter (b : Text) : Prop where
  plain : Plain '<' b.tail
  head : '<' :: b.tail = b
  line : '\n' ∉ b
  ellipsis : '…' ∉ b

theorem isDelimiter_groundingBegin : IsDelimiter groundingBegin where
  plain := ⟨by decide, List.all_iff_forall_prop.mp (by decide), by decide⟩
  head := by decide
  line := by decide
  ellipsis := by decide

theorem isDelimiter_groundingEnd : IsDelimiter groundingEnd where
  plain := ⟨by decide, List.all_iff_forall_prop.mp (by decide), by decide⟩
  head := by decide
  line := by decide
  ellipsis := by decide

/-- The block is in the text once, and so is each of its delimiters. -/
def Delimited (input block : Text) : Prop :=
  ∃ before body, input = before ++ block ∧ block = groundingBegin ++ body ++ groundingEnd ∧
    (∀ i, OccursAt groundingBegin input i ↔ i = before.length) ∧
    ∀ i, OccursAt groundingEnd input i ↔ i = before.length + groundingBegin.length + body.length

section

variable {body : Text}

theorem lengths : groundingBegin.length = 39 ∧ groundingEnd.length = 37 := by decide

theorem groundingEnd_not_in_begin : ∀ j < 3, ¬ OccursAt groundingEnd groundingBegin j := by
  unfold OccursAt
  decide

theorem not_occursAt_of_notMem {b : Text} (hb : IsDelimiter b) (h : '<' ∉ body) (i : ℕ) :
    ¬ OccursAt b body i := by
  intro ho
  have hinfix := infix_iff_occursAt.mpr ⟨i, ho⟩
  rw [← hb.head] at hinfix
  exact not_infix_of_notMem h hinfix

theorem occursAt_block {b : Text} (hb : IsDelimiter b) (h : '<' ∉ body) {i : ℕ}
    (ho : OccursAt b (groundingBegin ++ '\n' :: (body ++ '\n' :: groundingEnd)) i) :
    OccursAt b groundingBegin i ∨ ∃ j, i = 41 + body.length + j ∧ OccursAt b groundingEnd j := by
  obtain hi | ⟨j, hj, hrest⟩ := occursAt_append_cons hb.line ho
  · exact .inl hi
  · obtain hbody | ⟨k, hk, hend⟩ := occursAt_append_cons hb.line hrest
    · exact absurd hbody (not_occursAt_of_notMem hb h j)
    · refine .inr ⟨k, ?_, hend⟩
      rw [hj, hk, lengths.1]
      omega

theorem occursAt_begin_block (h : '<' ∉ body) (i : ℕ) :
    OccursAt groundingBegin (groundingBegin ++ '\n' :: (body ++ '\n' :: groundingEnd)) i ↔
      i = 0 := by
  obtain ⟨h₁, h₂⟩ := lengths
  constructor
  · intro ho
    obtain ho | ⟨j, -, ho⟩ := occursAt_block isDelimiter_groundingBegin h ho
    · have := ho.length_le
      rw [List.length_drop] at this
      omega
    · have := ho.length_le
      rw [List.length_drop] at this
      omega
  · rintro rfl
    exact List.prefix_append _ _

theorem occursAt_end_block (h : '<' ∉ body) (i : ℕ) :
    OccursAt groundingEnd (groundingBegin ++ '\n' :: (body ++ '\n' :: groundingEnd)) i ↔
      i = 41 + body.length := by
  obtain ⟨h₁, h₂⟩ := lengths
  constructor
  · intro ho
    obtain hbegin | ⟨j, hj, hend⟩ := occursAt_block isDelimiter_groundingEnd h ho
    · have hle := hbegin.length_le
      rw [List.length_drop] at hle
      exact absurd hbegin (groundingEnd_not_in_begin i (by omega))
    · have hle := hend.length_le
      rw [List.length_drop] at hle
      omega
  · rintro rfl
    have hsplit : groundingBegin ++ '\n' :: (body ++ '\n' :: groundingEnd) =
        (groundingBegin ++ '\n' :: (body ++ ['\n'])) ++ groundingEnd := by simp
    have hlength : (groundingBegin ++ '\n' :: (body ++ ['\n'])).length = 41 + body.length := by
      simp only [List.length_append, List.length_cons, List.length_nil, h₁]
      omega
    have hdrop : (groundingBegin ++ '\n' :: (body ++ ['\n']) ++ groundingEnd).drop
        (groundingBegin ++ '\n' :: (body ++ ['\n'])).length = groundingEnd := List.drop_left
    rw [hsplit, OccursAt, ← hlength]
    exact hdrop.symm ▸ List.prefix_rfl

theorem delimited_iff_of_block {above : Text} (h : '<' ∉ body) :
    Delimited (above ++ '\n' :: (groundingBegin ++ '\n' :: (body ++ '\n' :: groundingEnd)))
        (groundingBegin ++ '\n' :: (body ++ '\n' :: groundingEnd)) ↔
      ¬ groundingBegin <:+: above ∧ ¬ groundingEnd <:+: above := by
  have habove {b : Text} {i : ℕ} (ho : OccursAt b above i) (hb : IsDelimiter b) :
      i < above.length ∧ OccursAt b
        (above ++ '\n' :: (groundingBegin ++ '\n' :: (body ++ '\n' :: groundingEnd))) i := by
    have hpos : 1 ≤ b.length := by
      rw [← hb.head]
      exact Nat.succ_pos _
    have hle := ho.length_le
    rw [List.length_drop] at hle
    refine ⟨by omega, ?_⟩
    rw [OccursAt, List.drop_append_of_le_length (by omega)]
    exact ho.trans (List.prefix_append _ _)
  have hbelow {b : Text} (j : ℕ) : OccursAt b
      (above ++ '\n' :: (groundingBegin ++ '\n' :: (body ++ '\n' :: groundingEnd)))
        (above.length + 1 + j) ↔
      OccursAt b (groundingBegin ++ '\n' :: (body ++ '\n' :: groundingEnd)) j := by
    have hdrop : (above ++ '\n' :: (groundingBegin ++ '\n' :: (body ++ '\n' :: groundingEnd))).drop
        (above.length + 1 + j) =
          (groundingBegin ++ '\n' :: (body ++ '\n' :: groundingEnd)).drop j := by
      rw [List.drop_append, List.drop_eq_nil_of_le (by omega), List.nil_append,
        show above.length + 1 + j - above.length = j + 1 by omega, List.drop_succ_cons]
    rw [OccursAt, OccursAt, hdrop]
  constructor
  · rintro ⟨before, inner, hinput, hblock, hbegin, hend⟩
    have hlength : before.length = above.length + 1 := by
      have := congrArg List.length hinput
      simp only [List.length_append, List.length_cons] at this
      omega
    refine ⟨?_, ?_⟩
    · intro hinfix
      obtain ⟨i, ho⟩ := infix_iff_occursAt.mp hinfix
      obtain ⟨hlt, ho⟩ := habove ho isDelimiter_groundingBegin
      have := (hbegin i).mp ho
      omega
    · intro hinfix
      obtain ⟨i, ho⟩ := infix_iff_occursAt.mp hinfix
      obtain ⟨hlt, ho⟩ := habove ho isDelimiter_groundingEnd
      have := (hend i).mp ho
      omega
  · rintro ⟨hbegin, hend⟩
    refine ⟨above ++ ['\n'], '\n' :: (body ++ ['\n']), by simp, by simp, ?_, ?_⟩
    · intro i
      rw [List.length_append, List.length_singleton]
      constructor
      · intro ho
        obtain hi | ⟨j, hj, hrest⟩ := occursAt_append_cons isDelimiter_groundingBegin.line ho
        · exact absurd (infix_iff_occursAt.mpr ⟨i, hi⟩) hbegin
        · rw [hj, (occursAt_begin_block h j).mp hrest]
      · rintro rfl
        exact (hbelow 0).mpr ((occursAt_begin_block h 0).mpr rfl)
    · intro i
      have hplace : (above ++ ['\n']).length + groundingBegin.length +
          ('\n' :: (body ++ ['\n'])).length = above.length + 1 + (41 + body.length) := by
        simp only [List.length_append, List.length_cons, List.length_nil, lengths.1]
        omega
      rw [hplace]
      constructor
      · intro ho
        obtain hi | ⟨j, hj, hrest⟩ := occursAt_append_cons isDelimiter_groundingEnd.line ho
        · exact absurd (infix_iff_occursAt.mpr ⟨i, hi⟩) hend
        · rw [hj, (occursAt_end_block h j).mp hrest]
      · rintro rfl
        exact (hbelow _).mpr ((occursAt_end_block h _).mpr rfl)

end

def Inert (j : Json) : Prop := ∀ t ∈ strings j, '<' ∉ t

theorem plain_bracket : Plain '<' [] := ⟨by decide, List.all_iff_forall_prop.mp (by decide), by decide⟩

theorem bracket_infix_iff {t : Text} : ['<'] <:+: t ↔ '<' ∈ t := by
  constructor
  · intro h
    exact h.subset List.mem_cons_self
  · intro h
    obtain ⟨u, v, rfl⟩ := List.append_of_mem h
    exact ⟨u, v, by simp⟩

theorem notMem_dumps {j : Json} (h : Inert j) : '<' ∉ dumps j := by
  intro hmem
  have hinfix := bracket_infix_iff.mpr hmem
  rw [← List.append_nil (dumps j), infix_dumps_iff plain_bracket] at hinfix
  obtain ⟨t, ht, ho⟩ | hnil := hinfix
  · exact h t ht (bracket_infix_iff.mp ho)
  · simp at hnil

structure Carries (s : BudgetedSection) (texts : List Text) : Prop where
  serialized : ∀ b, IsDelimiter b → ∀ rest,
    (b <:+: s.serialized ++ rest ↔ (∃ t ∈ texts, b <:+: t) ∨ b <:+: rest)
  manifest : Inert s.manifest

theorem carries_of_strings {j : Json} {manifest : Json} {texts : List Text}
    (hj : ∀ t ∈ strings j, t ∈ texts ∨ '<' ∉ t) (htexts : ∀ t ∈ texts, t ∈ strings j)
    (hm : Inert manifest) : Carries ⟨dumps j, manifest⟩ texts where
  serialized := by
    intro b hb rest
    have hiff := infix_dumps_iff hb.plain j rest
    rw [hb.head] at hiff
    rw [hiff]
    refine or_congr_left ⟨?_, ?_⟩
    · rintro ⟨t, ht, ho⟩
      obtain hmem | hinert := hj t ht
      · exact ⟨t, hmem, ho⟩
      · rw [← hb.head] at ho
        exact absurd ho (not_infix_of_notMem hinert)
    · rintro ⟨t, ht, ho⟩
      exact ⟨t, htexts t ht, ho⟩
  manifest := hm

theorem itemStrings_map_str (ts : List Text) : itemStrings (ts.map .str) = ts := by
  induction ts with
  | nil => rfl
  | cons t ts ih => rw [List.map_cons, itemStrings, strings, ih, List.singleton_append]

theorem itemStrings_map_obj (items : List Fields) :
    itemStrings (items.map .obj) = items.flatMap fieldStrings := by
  induction items with
  | nil => rfl
  | cons fields items ih => rw [List.map_cons, itemStrings, strings, ih, List.flatMap_cons]

section

variable (isMark : Char → Bool)

/-- The texts of the goal that its section keeps, as it keeps them. -/
def goalTexts (goal : PlanningGoal) (analysis : AgentGoalAnalysis) (budget : ℤ) : List Text :=
  match (fitText isMark goal.objective.text budget
    fun candidate ↦ renderGoalAnalysis analysis candidate []).1 with
  | none => []
  | some objective => objective :: (includeConstraints isMark
      (renderGoalAnalysis analysis objective) budget [] (goal.constraints.map (·.text))).1

def feedbackTexts (value : Option Text) (budget : ℤ) : List Text :=
  match value with
  | none => []
  | some value => (fitText isMark value budget fun s ↦ dumps (.str s)).1.toList

/-- The strings of the items that the section of a list keeps. -/
def listTexts {α : Type} (response : ListResponse α) (row : α → Row) (budget : ℤ) : List Text :=
  (projectRows isMark (renderList response) describe budget
    (response.items.map row)).1.flatMap fieldStrings

def keptTexts (p : PlanContext) (r : Redistribution) : List Text :=
  goalTexts isMark p.goal p.analysis r.goalBudget ++
    (feedbackTexts isMark p.approvalFeedback promptRevisionFeedbackCharacters ++
      (listTexts isMark p.projects projectRow r.projectsBudget ++
        listTexts isMark p.tasks taskRow r.tasksBudget))

variable {isMark}

theorem inert_goalManifest (t o : Bool) (n : ℕ) : Inert (goalManifest t o n) := by
  have hstrings : strings (goalManifest t o n) =
      ["truncated".toList, "objective_truncated".toList, "omitted".toList] := rfl
  rw [Inert, hstrings]
  decide

theorem inert_feedbackManifest (t : Bool) : Inert (feedbackManifest t) := by
  have hstrings : strings (feedbackManifest t) = ["truncated".toList] := rfl
  rw [Inert, hstrings]
  decide

theorem inert_rowsManifest {key : String} (hk : '<' ∉ key.toList) (shortened omitted : ℕ) :
    Inert (rowsManifest key shortened omitted) := by
  have hstrings : strings (rowsManifest key shortened omitted) =
      ["truncated".toList, key.toList, "items_omitted".toList] := rfl
  rw [Inert, hstrings, List.forall_mem_cons, List.forall_mem_cons]
  exact ⟨by decide, hk, by decide⟩

theorem buildGoalAnalysis_inert {goal : PlanningGoal} {analysis : AgentGoalAnalysis}
    {budget : ℤ} {s : BudgetedSection}
    (h : buildGoalAnalysis isMark goal analysis budget = some s) : Inert s.manifest := by
  unfold buildGoalAnalysis at h
  cases hfit : fitText isMark goal.objective.text budget
    fun candidate ↦ renderGoalAnalysis analysis candidate [] with
  | mk fitted shortened =>
    rw [hfit] at h
    obtain ⟨objective, rfl, rfl⟩ := Option.map_eq_some_iff.mp h
    exact inert_goalManifest _ _ _

theorem buildGoalAnalysis_carries {goal : PlanningGoal} {analysis : AgentGoalAnalysis}
    {budget : ℤ} {s : BudgetedSection}
    (h : buildGoalAnalysis isMark goal analysis budget = some s) :
    Carries s (goalTexts isMark goal analysis budget) := by
  have hkind : ∀ k : AgentContextKind, '<' ∉ k.value := by
    intro k
    cases k <;> decide
  have hmanifest := buildGoalAnalysis_inert h
  obtain ⟨objective, hfit, hs⟩ := buildGoalAnalysis_some h
  obtain ⟨serialized, manifest⟩ := s
  obtain rfl : serialized = _ := hs
  rw [goalTexts, hfit]
  have hkinds : analysis.requiredContext.map (fun k ↦ Json.str k.value) =
      (analysis.requiredContext.map (·.value)).map .str := by
    rw [List.map_map]
    rfl
  rw [renderGoalAnalysis, hkinds]
  apply carries_of_strings
  · intro t ht
    simp only [strings, fieldStrings, itemStrings_map_str, List.mem_cons, List.mem_append,
      List.append_nil, List.cons_append, List.nil_append] at ht
    obtain rfl | rfl | rfl | ht | rfl | ht := ht
    · exact .inr (by decide)
    · exact .inl List.mem_cons_self
    · exact .inr (by decide)
    · exact .inl (List.mem_cons_of_mem _ ht)
    · exact .inr (by decide)
    · obtain ⟨k, -, rfl⟩ := List.mem_map.mp ht
      exact .inr (hkind k)
  · intro t ht
    simp only [strings, fieldStrings, itemStrings_map_str, List.mem_cons, List.mem_append,
      List.append_nil, List.cons_append, List.nil_append]
    obtain rfl | ht := List.mem_cons.mp ht
    · exact .inr (.inl rfl)
    · exact .inr (.inr (.inr (.inl ht)))
  · exact hmanifest

theorem buildFeedback_carries {value : Option Text} {budget : ℤ} {s : BudgetedSection}
    (h : buildFeedback isMark value budget = some s) :
    Carries s (feedbackTexts isMark value budget) := by
  cases value with
  | none =>
    cases h
    apply carries_of_strings
    · intro t ht
      cases ht
    · intro t ht
      cases ht
    · exact inert_feedbackManifest false
  | some value =>
    unfold buildFeedback at h
    cases hfit : fitText isMark value budget fun s ↦ dumps (.str s) with
    | mk fitted shortened =>
      simp only [hfit] at h
      obtain ⟨feedback, rfl, rfl⟩ := Option.map_eq_some_iff.mp h
      have htexts : feedbackTexts isMark (some value) budget = [feedback] := by
        simp only [feedbackTexts, hfit, Option.toList_some]
      rw [htexts]
      apply carries_of_strings
      · intro t ht
        exact .inl ht
      · intro t ht
        exact ht
      · exact inert_feedbackManifest shortened

variable (isMark) in
theorem buildListProjection_carries {α : Type} (response : ListResponse α) (row : α → Row)
    (budget : ℤ) : Carries (buildListProjection isMark response row budget)
      (listTexts isMark response row budget) := by
  unfold buildListProjection listTexts
  dsimp only
  generalize projectRows isMark (renderList response) describe budget
    (response.items.map row) = projected
  rw [renderList]
  apply carries_of_strings
  · intro t ht
    simp only [strings, fieldStrings, itemStrings_map_obj, List.mem_cons, List.mem_append,
      List.append_nil, List.not_mem_nil, or_false, List.cons_append, List.nil_append] at ht
    obtain rfl | ht | rfl | rfl | rfl | rfl := ht
    · exact .inr (by decide)
    · exact .inl ht
    all_goals exact .inr (by decide)
  · intro t ht
    simp only [strings, fieldStrings, itemStrings_map_obj, List.mem_cons, List.mem_append,
      List.append_nil, List.cons_append, List.nil_append]
    exact .inr (.inl ht)
  · exact inert_rowsManifest (by decide) _ _

theorem digitChar_ne_bracket : ∀ k < 16, Nat.digitChar k ≠ '<' := by decide

theorem bracket_notMem_toDigits (n : ℕ) : '<' ∉ Nat.toDigits 16 n := by
  induction n using Nat.strong_induction_on with
  | _ n ih =>
    by_cases h : n < 16
    · rw [Nat.toDigits_of_lt_base h, List.mem_singleton]
      exact (digitChar_ne_bracket n h).symm
    · rw [Nat.toDigits_of_base_le (by decide) (by omega), List.mem_append, not_or,
        List.mem_singleton]
      exact ⟨ih (n / 16) (by omega), (digitChar_ne_bracket _ (Nat.mod_lt _ (by decide))).symm⟩

theorem bracket_notMem_uuid (u : UUID) : '<' ∉ u.text := by
  have hdigits : '<' ∉ padded 32 (Nat.toDigits 16 u.value) := by
    intro h
    obtain h | h := List.mem_append.mp h
    · exact absurd (List.eq_of_mem_replicate h) (by decide)
    · exact bracket_notMem_toDigits _ h
  intro h
  unfold UUID.text at h
  generalize padded 32 (Nat.toDigits 16 u.value) = digits at hdigits h
  have hpart (i k : ℕ) : '<' ∉ (digits.drop i).take k := fun hm ↦
    hdigits (List.mem_of_mem_drop (List.mem_of_mem_take hm))
  have hfirst : '<' ∉ digits.take 8 := fun hm ↦ hdigits (List.mem_of_mem_take hm)
  have hlast : '<' ∉ digits.drop 20 := fun hm ↦ hdigits (List.mem_of_mem_drop hm)
  simp only [List.mem_append, List.mem_cons, hfirst, hlast, hpart, false_or, or_false] at h
  revert h
  decide

theorem bracket_notMem_escaped (t : Text) : '<' ∉ escapeGroundingBoundaryText t := by
  intro h
  obtain ⟨c, -, hc⟩ := List.mem_flatMap.mp h
  split at hc
  · revert hc
    decide
  · split at hc
    · revert hc
      decide
    · next hne _ => exact hne (List.mem_singleton.mp hc).symm

/-- A text as a section may keep it: whole, or a beginning of it with the marker. -/
inductive KeptOf (text : Text) : Text → Prop
  | whole : KeptOf text text
  | cut {kept : Text} : kept <+: text → KeptOf text (kept ++ truncationMarker)

theorem KeptOf.not_infix {text v b : Text} (h : KeptOf text v) (hb : IsDelimiter b)
    (hclean : ¬ b <:+: text) : ¬ b <:+: v := by
  cases h with
  | whole => exact hclean
  | @cut kept hprefix =>
    have hmarker : truncationMarker = '…' :: "[truncated]".toList := rfl
    have hrest : ¬ b <:+: "[truncated]".toList := by
      rw [← hb.head]
      exact not_infix_of_notMem (by decide)
    rw [hmarker, infix_append_cons_iff hb.ellipsis, not_or]
    exact ⟨fun ho ↦ hclean (ho.trans hprefix.isInfix), hrest⟩

theorem unicodeSafePrefix_prefix (value : Text) (n : ℕ) :
    unicodeSafePrefix isMark value n <+: value := by
  unfold unicodeSafePrefix
  split
  · exact List.prefix_rfl
  · exact List.take_prefix _ value

theorem fitText_keptOf {value v : Text} {budget : ℤ} {render : Text → Text}
    (h : (fitText isMark value budget render).1 = some v) : KeptOf value v := by
  unfold fitText at h
  split at h
  · obtain rfl := Option.some.inj h
    exact .whole
  · obtain ⟨n, -, rfl⟩ := Option.map_eq_some_iff.mp h
    exact .cut ( unicodeSafePrefix_prefix value n)

theorem mem_includeConstraints {render : List Text → Text} {budget : ℤ}
    {included constraints : List Text} {t : Text}
    (h : t ∈ (includeConstraints isMark render budget included constraints).1) :
    t ∈ included ∨ ∃ constraint ∈ constraints, KeptOf constraint t := by
  induction constraints generalizing included with
  | nil => exact .inl h
  | cons c cs ih =>
    rw [includeConstraints] at h
    split at h
    · obtain hmem | ⟨constraint, hc, hkept⟩ := ih h
      · obtain hmem | hmem := List.mem_append.mp hmem
        · exact .inl hmem
        · rw [List.mem_singleton.mp hmem]
          exact .inr ⟨c, List.mem_cons_self, .whole⟩
      · exact .inr ⟨constraint, List.mem_cons_of_mem c hc, hkept⟩
    · split at h
      · next candidate hfit =>
        obtain hmem | hmem := List.mem_append.mp h
        · exact .inl hmem
        · rw [List.mem_singleton.mp hmem]
          exact .inr ⟨c, List.mem_cons_self, fitText_keptOf hfit⟩
      · exact .inl h

def ItemOf (attach : Fields → Text → Fields) (row : Row) (item : Fields) : Prop :=
  item = row.identity ∨
    ∃ text v, row.text = some text ∧ KeptOf text v ∧ item = attach row.identity v

theorem mem_attachTexts {render : List Fields → Text} {attach : Fields → Text → Fields}
    {budget : ℤ} {projected : List Fields} {rows : List Row} {item : Fields}
    (h : item ∈ (attachTexts isMark render attach budget projected rows).1) :
    item ∈ projected ∨ ∃ row ∈ rows, ItemOf attach row item := by
  induction rows generalizing projected with
  | nil => exact .inl h
  | cons row rows ih =>
    have hstep {kept : Fields} (hkept : ItemOf attach row kept)
        (h : item ∈ (attachTexts isMark render attach budget (projected ++ [kept]) rows).1) :
        item ∈ projected ∨ ∃ row' ∈ row :: rows, ItemOf attach row' item := by
      obtain hp | ⟨row', hrow, hitem⟩ := ih h
      · obtain hp | hp := List.mem_append.mp hp
        · exact .inl hp
        · rw [List.mem_singleton.mp hp]
          exact .inr ⟨row, List.mem_cons_self, hkept⟩
      · exact .inr ⟨row', List.mem_cons_of_mem row hrow, hitem⟩
    obtain ⟨identity, text⟩ := row
    cases text with
    | none =>
      rw [attachTexts] at h
      exact hstep (.inl rfl) h
    | some text =>
      rw [attachTexts] at h
      split at h
      · exact hstep (.inr ⟨text, text, rfl, .whole, rfl⟩) h
      · dsimp only at h
        split at h
        · next v hv => exact hstep (.inr ⟨text, v, rfl, fitText_keptOf hv, rfl⟩) h
        · exact hstep (.inl rfl) h

theorem mem_projectRows {render : List Fields → Text} {attach : Fields → Text → Fields}
    {budget : ℤ} {rows : List Row} {item : Fields}
    (h : item ∈ (projectRows isMark render attach budget rows).1) :
    ∃ row ∈ rows, ItemOf attach row item := by
  obtain hnil | ⟨row, hrow, hitem⟩ := mem_attachTexts h
  · cases hnil
  · exact ⟨row, List.mem_of_mem_take hrow, hitem⟩

theorem inert_evidenceIdentity (e : GroundingEvidence) :
    ∀ t ∈ fieldStrings (evidenceRow e).identity, '<' ∉ t := by
  have hcitation : '<' ∉ e.citationId := by
    rw [e.identity]
    simp only [List.mem_append, List.mem_cons, bracket_notMem_uuid, or_false]
    decide
  have hnullable (o : Option ℕ) : strings (nullable (fun n : ℕ ↦ .int n) o) = [] := by
    cases o <;> rfl
  have hstrings : fieldStrings (evidenceRow e).identity =
      ["citation_id".toList, e.citationId, "document_id".toList, e.documentId.text,
        "chunk_id".toList, e.chunkId.text, "source".toList, escapeGroundingBoundaryText e.source,
        "page_number".toList, "ordinal".toList, "vector_rank".toList, "lexical_rank".toList,
        "fusion_score".toList] := by
    simp only [evidenceRow, fieldStrings, strings, hnullable, List.append_nil, List.nil_append,
      List.cons_append]
  rw [hstrings]
  simp only [List.forall_mem_cons, List.not_mem_nil, false_implies, implies_true, and_true]
  exact ⟨by decide, hcitation, by decide, bracket_notMem_uuid _, by decide, bracket_notMem_uuid _,
    by decide, bracket_notMem_escaped _, by decide, by decide, by decide, by decide, by decide⟩

theorem fieldStrings_append (fields more : Fields) :
    fieldStrings (fields ++ more) = fieldStrings fields ++ fieldStrings more := by
  induction fields with
  | nil => rfl
  | cons f fields ih =>
    obtain ⟨k, x⟩ := f
    rw [List.cons_append, fieldStrings, fieldStrings, ih]
    simp

theorem inert_evidence {context : GroundedKnowledgeContext} {budget : ℤ} {item : Fields}
    (h : item ∈ (projectRows isMark (renderGrounding context) attachExcerpt budget
      (context.evidence.map evidenceRow)).1) : ∀ t ∈ fieldStrings item, '<' ∉ t := by
  obtain ⟨row, hrow, hitem⟩ := mem_projectRows h
  obtain ⟨e, -, rfl⟩ := List.mem_map.mp hrow
  obtain rfl | ⟨-, text, -, -, rfl⟩ := hitem
  · exact inert_evidenceIdentity e
  · intro t ht
    rw [attachExcerpt, fieldStrings_append, List.mem_append] at ht
    obtain ht | ht := ht
    · exact inert_evidenceIdentity e t ht
    · simp only [fieldStrings, strings, List.cons_append, List.nil_append, List.mem_cons,
        List.not_mem_nil, or_false] at ht
      obtain rfl | rfl := ht
      · decide
      · exact bracket_notMem_escaped text

def groundingPayload (context : GroundedKnowledgeContext) (items : List Fields) : Json :=
  .obj [("format_version".toList, .str groundingFormatVersion),
    ("notice".toList,
      .str (if context.evidence = [] then noGroundingEvidence else groundingNotice)),
    ("evidence".toList, .arr (items.map .obj))]

theorem renderGrounding_eq (context : GroundedKnowledgeContext) (items : List Fields) :
    renderGrounding context items =
      groundingBegin ++ '\n' :: (dumps (groundingPayload context items) ++ '\n' :: groundingEnd) := by
  simp [renderGrounding, groundingPayload]

theorem inert_groundingPayload {context : GroundedKnowledgeContext} {items : List Fields}
    (h : ∀ item ∈ items, ∀ t ∈ fieldStrings item, '<' ∉ t) :
    Inert (groundingPayload context items) := by
  have hnotice : '<' ∉ if context.evidence = [] then noGroundingEvidence else groundingNotice := by
    split <;> decide
  intro t ht
  simp only [groundingPayload, strings, fieldStrings, itemStrings_map_obj, List.mem_cons,
    List.append_nil, List.cons_append, List.nil_append, List.mem_flatMap] at ht
  obtain rfl | rfl | rfl | rfl | rfl | ⟨item, hitem, ht⟩ := ht
  · decide
  · decide
  · decide
  · exact hnotice
  · decide
  · exact h item hitem t ht

theorem buildGrounding_block {context : GroundedKnowledgeContext} {budget : ℤ}
    {s : BudgetedSection} (h : buildGrounding isMark context budget = some s) :
    Inert s.manifest ∧ ∃ body, '<' ∉ body ∧
      s.serialized = groundingBegin ++ '\n' :: (body ++ '\n' :: groundingEnd) := by
  unfold buildGrounding at h
  split at h
  · cases h
    exact ⟨inert_rowsManifest (by decide) _ _, _,
      notMem_dumps (inert_groundingPayload fun item hitem ↦ inert_evidence hitem),
      renderGrounding_eq context _⟩
  · cases h

variable (isMark) in
/-- The sections of a redistribution, by the budgets that it gave them. -/
structure Redistributed (p : PlanContext) (r : Redistribution) : Prop where
  goal : buildGoalAnalysis isMark p.goal p.analysis r.goalBudget = some r.goal
  feedback : buildFeedback isMark p.approvalFeedback promptRevisionFeedbackCharacters =
    some r.feedback
  projects : buildListProjection isMark p.projects projectRow r.projectsBudget = r.projects
  tasks : buildListProjection isMark p.tasks taskRow r.tasksBudget = r.tasks
  grounding : buildGrounding isMark p.knowledge r.groundingBudget = some r.grounding

theorem redistributed_of_redistribute {p : PlanContext} {r : Redistribution}
    (h : redistribute isMark p = some r) : Redistributed isMark p r := by
  unfold redistribute at h
  obtain ⟨feedback, hf, h⟩ := Option.bind_eq_some_iff.mp h
  obtain ⟨goal, -, h⟩ := Option.bind_eq_some_iff.mp h
  obtain ⟨grounding, -, h⟩ := Option.bind_eq_some_iff.mp h
  obtain ⟨rebuiltGoal, hg, h⟩ := Option.bind_eq_some_iff.mp h
  obtain ⟨rebuiltGrounding, hk, h⟩ := Option.bind_eq_some_iff.mp h
  obtain rfl := Option.some.inj h
  exact ⟨hg, hf, rfl, rfl, hk⟩

def evidenceTitle : Text := "\n\nRetrieved knowledge evidence:".toList

def above (r : Redistribution) : Text := planningDataHeading ++ (r.serialized ++ evidenceTitle)

theorem finalInput_eq (r : Redistribution) :
    r.finalInput = above r ++ '\n' :: r.grounding.serialized := by
  have htitle : evidenceHeading = evidenceTitle ++ ['\n'] := by decide
  rw [Redistribution.finalInput, htitle, above]
  simp

theorem inert_manifest {r : Redistribution} (hg : Inert r.goal.manifest)
    (hf : Inert r.feedback.manifest) (hp : Inert r.projects.manifest)
    (ht : Inert r.tasks.manifest) (hk : Inert r.grounding.manifest) : Inert r.manifest := by
  intro t hmem
  simp only [Redistribution.manifest, strings, fieldStrings, List.mem_cons, List.mem_append,
    List.append_nil, List.cons_append] at hmem
  obtain rfl | h | rfl | h | rfl | h | rfl | h | rfl | h := hmem
  · decide
  · exact hg t h
  · decide
  · exact hf t h
  · decide
  · exact hp t h
  · decide
  · exact ht t h
  · decide
  · exact hk t h

theorem infix_above_iff {p : PlanContext} {r : Redistribution} (h : Redistributed isMark p r)
    {b : Text} (hb : IsDelimiter b) :
    b <:+: above r ↔ ∃ t ∈ keptTexts isMark p r, b <:+: t := by
  have hinert {a rest : Text} (ha : '<' ∉ a) : b <:+: a ++ rest ↔ b <:+: rest := by
    rw [← hb.head]
    exact infix_append_iff ha
  have hgoal := buildGoalAnalysis_carries h.goal
  have hfeedback := buildFeedback_carries h.feedback
  have hprojects := buildListProjection_carries isMark p.projects projectRow
    r.projectsBudget
  have htasks := buildListProjection_carries isMark p.tasks taskRow r.tasksBudget
  rw [h.projects] at hprojects
  rw [h.tasks] at htasks
  have hmanifest := notMem_dumps (inert_manifest hgoal.manifest hfeedback.manifest
    hprojects.manifest htasks.manifest (buildGrounding_block h.grounding).1)
  have hnone : ¬ b <:+: '\x7d' :: evidenceTitle := by
    rw [← hb.head]
    exact not_infix_of_notMem (by decide)
  have htail : b <:+: truncationOpening ++ (dumps r.manifest ++ '\x7d' :: evidenceTitle) ↔ False := by
    rw [hinert (by decide), hinert hmanifest, iff_false]
    exact hnone
  have hsplit : above r = planningDataHeading ++ (goalAnalysisOpening ++ (r.goal.serialized ++
      (feedbackOpening ++ (r.feedback.serialized ++ (projectsOpening ++ (r.projects.serialized ++
        (tasksOpening ++ (r.tasks.serialized ++ (truncationOpening ++ (dumps r.manifest ++
          '\x7d' :: evidenceTitle)))))))))) := by
    simp [above, Redistribution.serialized]
  rw [hsplit, hinert (by decide), hinert (by decide), hgoal.serialized b hb, hinert (by decide),
    hfeedback.serialized b hb, hinert (by decide), hprojects.serialized b hb, hinert (by decide),
    htasks.serialized b hb, htail]
  simp only [keptTexts, List.mem_append, or_and_right, exists_or, or_false]

end

theorem assemble_of_isSome {r : Redistribution} (h : (assemble r).isSome = true) :
    assemble r = some r.finalInput := by
  unfold assemble at h ⊢
  split at h
  · cases h
  · next hfits => exact if_neg hfits

theorem delimited_iff_kept_clean {isMark : Char → Bool} {p : PlanContext} {r : Redistribution}
    {input : Text} (hr : redistribute isMark p = some r)
    (hb : buildBudgetedAgentPlanInput isMark p = some input) :
    Delimited input r.grounding.serialized ↔
      ∀ t ∈ keptTexts isMark p r, ¬ groundingBegin <:+: t ∧ ¬ groundingEnd <:+: t := by
  have h := redistributed_of_redistribute hr
  have hinput : input = r.finalInput := by
    rw [buildBudgetedAgentPlanInput, hr, Option.bind_some] at hb
    have hsome := assemble_of_isSome (Option.isSome_of_eq_some hb)
    exact Option.some.inj (hb.symm.trans hsome)
  obtain ⟨-, body, hbody, hblock⟩ := buildGrounding_block h.grounding
  rw [hinput, finalInput_eq, hblock, delimited_iff_of_block hbody,
    infix_above_iff h isDelimiter_groundingBegin, infix_above_iff h isDelimiter_groundingEnd]
  constructor
  · rintro ⟨hbegin, hend⟩ t ht
    exact ⟨fun ho ↦ hbegin ⟨t, ht, ho⟩, fun ho ↦ hend ⟨t, ht, ho⟩⟩
  · intro hclean
    constructor
    · rintro ⟨t, ht, ho⟩
      exact (hclean t ht).1 ho
    · rintro ⟨t, ht, ho⟩
      exact (hclean t ht).2 ho

/-- The texts of users, as they are given, beside the evidence. -/
def givenTexts (p : PlanContext) : List Text :=
  (p.goal.objective.text :: p.goal.constraints.map (·.text)) ++
    (p.approvalFeedback.toList ++
      (p.projects.items.flatMap (fun q ↦ q.name :: q.description.toList) ++
        p.tasks.items.flatMap fun t ↦ t.title :: t.description.toList))

def Clean (p : PlanContext) : Prop :=
  ∀ t ∈ givenTexts p, ¬ groundingBegin <:+: t ∧ ¬ groundingEnd <:+: t

theorem bracket_notMem_padded (width n : ℕ) : '<' ∉ padded width (natRepr n) := by
  intro h
  obtain h | h := List.mem_append.mp h
  · exact absurd (List.eq_of_mem_replicate h) (by decide)
  · exact absurd (natRepr_isDigit h) (by decide)

theorem bracket_notMem_date (d : Date) : '<' ∉ d.iso := by
  simp only [Date.iso, List.mem_append, List.mem_cons, bracket_notMem_padded, false_or, or_false]
  decide

theorem bracket_notMem_datetime (t : Datetime) : '<' ∉ t.iso := by
  have hfraction : '<' ∉ if t.micros % 1000000 = 0 then []
      else '.' :: padded 6 (natRepr (t.micros % 1000000)) := by
    split
    · exact List.not_mem_nil
    · rw [List.mem_cons, not_or]
      exact ⟨by decide, bracket_notMem_padded _ _⟩
  simp only [Datetime.iso, List.mem_append, List.mem_cons, bracket_notMem_padded,
    bracket_notMem_date, hfraction, List.not_mem_nil, false_or, or_false]
  decide

theorem inert_nullable {α : Type} {write : α → Json} (h : ∀ a, Inert (write a)) (o : Option α) :
    Inert (nullable write o) := by
  cases o with
  | none =>
    intro t ht
    cases ht
  | some a => exact h a

theorem inert_str {t : Text} (h : '<' ∉ t) : Inert (.str t) := by
  intro u hu
  rw [List.mem_singleton.mp hu]
  exact h

theorem inert_nullableDate (o : Option Date) : Inert (nullable (.str ·.iso) o) :=
  inert_nullable (fun d ↦ inert_str (bracket_notMem_date d)) o

theorem inert_nullableDatetime (o : Option Datetime) : Inert (nullable (.str ·.iso) o) :=
  inert_nullable (fun t ↦ inert_str (bracket_notMem_datetime t)) o

theorem inert_nullableInt (o : Option ℤ) : Inert (nullable .int o) :=
  inert_nullable (fun _ _ h ↦ absurd h List.not_mem_nil) o

theorem strings_of_inert {key name : Text} {json : Json} {fields : Fields} (hkey : '<' ∉ key)
    (hjson : Inert json) (h : ∀ t ∈ fieldStrings fields, '<' ∉ t ∨ t = name) :
    ∀ t ∈ fieldStrings ((key, json) :: fields), '<' ∉ t ∨ t = name := by
  intro t ht
  rw [fieldStrings, List.cons_append, List.mem_cons, List.mem_append] at ht
  obtain rfl | ht | ht := ht
  · exact .inl hkey
  · exact .inl (hjson t ht)
  · exact h t ht

theorem strings_of_name {key name : Text} {fields : Fields} (hkey : '<' ∉ key)
    (h : ∀ t ∈ fieldStrings fields, '<' ∉ t ∨ t = name) :
    ∀ t ∈ fieldStrings ((key, .str name) :: fields), '<' ∉ t ∨ t = name := by
  intro t ht
  rw [fieldStrings, List.cons_append, List.mem_cons, List.mem_append] at ht
  obtain rfl | ht | ht := ht
  · exact .inl hkey
  · exact .inr (List.mem_singleton.mp ht)
  · exact h t ht

theorem projectIdentity_strings (q : PublicProject) :
    ∀ t ∈ fieldStrings (projectIdentity q), '<' ∉ t ∨ t = q.name := by
  have hstatus : ∀ s : ProjectStatus, '<' ∉ s.value := by
    intro s
    cases s <;> decide
  refine strings_of_inert (by decide) (inert_str (bracket_notMem_uuid q.id)) ?_
  refine strings_of_name (by decide) ?_
  refine strings_of_inert (by decide) (inert_nullableDate q.startDate) ?_
  refine strings_of_inert (by decide) (inert_nullableDate q.targetDate) ?_
  refine strings_of_inert (by decide) (inert_str (hstatus q.status)) ?_
  refine strings_of_inert (by decide) (inert_str (bracket_notMem_datetime q.createdAt)) ?_
  refine strings_of_inert (by decide) (inert_str (bracket_notMem_datetime q.updatedAt)) ?_
  exact fun _ ht ↦ nomatch ht

theorem taskIdentity_strings (t : PublicTask) :
    ∀ u ∈ fieldStrings (taskIdentity t), '<' ∉ u ∨ u = t.title := by
  have hstatus : ∀ s : TaskStatus, '<' ∉ s.value := by
    intro s
    cases s <;> decide
  have hpriority : ∀ s : TaskPriority, '<' ∉ s.value := by
    intro s
    cases s <;> decide
  refine strings_of_inert (by decide) (inert_str (bracket_notMem_uuid t.id)) ?_
  refine strings_of_inert (by decide) (inert_str (bracket_notMem_uuid t.projectId)) ?_
  refine strings_of_name (by decide) ?_
  refine strings_of_inert (by decide) (inert_str (hstatus t.status)) ?_
  refine strings_of_inert (by decide) (inert_str (hpriority t.priority)) ?_
  refine strings_of_inert (by decide) (inert_nullableDate t.plannedDate) ?_
  refine strings_of_inert (by decide) (inert_nullableDatetime t.dueAt) ?_
  refine strings_of_inert (by decide) (inert_nullableInt t.estimatedMinutes) ?_
  refine strings_of_inert (by decide) (inert_nullableDatetime t.completedAt) ?_
  refine strings_of_inert (by decide) (inert_str (bracket_notMem_datetime t.createdAt)) ?_
  refine strings_of_inert (by decide) (inert_str (bracket_notMem_datetime t.updatedAt)) ?_
  exact fun _ hu ↦ nomatch hu

section

variable {isMark : Char → Bool} {α : Type} {response : ListResponse α} {identity : α → Fields}
  {name : α → Text} {description : α → Option Text} {budget : ℤ} {t : Text}

theorem listTexts_given (hname : ∀ a, ∀ u ∈ fieldStrings (identity a), '<' ∉ u ∨ u = name a)
    (h : t ∈ listTexts isMark response (fun a ↦ listRow (identity a) (description a)) budget) :
    '<' ∉ t ∨ ∃ given ∈ response.items.flatMap fun a ↦ name a :: (description a).toList,
      KeptOf given t := by
  obtain ⟨item, hitem, ht⟩ := List.mem_flatMap.mp h
  obtain ⟨row, hrow, hitem⟩ := mem_projectRows hitem
  obtain ⟨a, ha, rfl⟩ := List.mem_map.mp hrow
  have hidentity {u : Text} (hu : u ∈ fieldStrings (identity a)) : '<' ∉ u ∨
      ∃ given ∈ response.items.flatMap fun a ↦ name a :: (description a).toList,
        KeptOf given u := by
    obtain hinert | rfl := hname a u hu
    · exact .inl hinert
    · exact .inr ⟨name a, List.mem_flatMap.mpr ⟨a, ha, List.mem_cons_self⟩, .whole⟩
  cases hd : description a with
  | none =>
    rw [hd] at hitem
    obtain rfl | ⟨text, v, htext, -⟩ := hitem
    · rw [listRow, fieldStrings_append, List.mem_append] at ht
      obtain ht | ht := ht
      · exact hidentity ht
      · rw [List.mem_singleton.mp ht]
        exact .inl (by decide)
    · cases htext
  | some d =>
    rw [hd] at hitem
    obtain rfl | ⟨text, v, htext, hkept, rfl⟩ := hitem
    · exact hidentity ht
    · obtain rfl := Option.some.inj htext
      rw [describe, fieldStrings_append, List.mem_append] at ht
      obtain ht | ht := ht
      · exact hidentity ht
      · simp only [fieldStrings, strings, List.cons_append, List.nil_append, List.mem_cons,
          List.not_mem_nil, or_false] at ht
        obtain rfl | rfl := ht
        · exact .inl (by decide)
        · refine .inr ⟨d, List.mem_flatMap.mpr ⟨a, ha, ?_⟩, hkept⟩
          rw [hd]
          exact List.mem_cons_of_mem _ List.mem_cons_self

theorem given_listTexts (hname : ∀ a, name a ∈ fieldStrings (identity a))
    (hwhole : (renderList response (response.items.map fun a ↦
      wholeRow describe (listRow (identity a) (description a)))).length ≤ budget)
    (h : t ∈ response.items.flatMap fun a ↦ name a :: (description a).toList) :
    t ∈ listTexts isMark response (fun a ↦ listRow (identity a) (description a)) budget := by
  have hfit : (renderList response ((response.items.map fun a ↦
      listRow (identity a) (description a)).map (wholeRow describe))).length ≤ budget := by
    rw [List.map_map]
    exact hwhole
  obtain ⟨a, ha, ht⟩ := List.mem_flatMap.mp h
  have hall : projectRows isMark (renderList response) describe budget
      (response.items.map fun a ↦ listRow (identity a) (description a)) = (_, 0) :=
    projectRows_all (renderList_weighted response) (fun fields _ ↦ weight_le_append fields _) hfit
  rw [listTexts, hall, List.mem_flatMap]
  refine ⟨_, List.mem_map_of_mem (List.mem_map_of_mem ha), ?_⟩
  cases hd : description a with
  | none =>
    rw [hd, Option.toList_none, List.mem_singleton] at ht
    rw [ht, wholeRow, listRow, fieldStrings_append]
    exact List.mem_append_left _ (hname a)
  | some d =>
    rw [hd, Option.toList_some, List.mem_cons, List.mem_singleton] at ht
    change t ∈ fieldStrings (describe (identity a) d)
    rw [describe, fieldStrings_append]
    obtain rfl | rfl := ht
    · exact List.mem_append_left _ (hname a)
    · exact List.mem_append_right _ (by simp [fieldStrings, strings])

end

section

variable {isMark : Char → Bool} {p : PlanContext} {r : Redistribution} {t : Text}

theorem keptTexts_given (h : t ∈ keptTexts isMark p r) :
    '<' ∉ t ∨ ∃ given ∈ givenTexts p, KeptOf given t := by
  simp only [keptTexts, List.mem_append] at h
  simp only [givenTexts, List.mem_append]
  obtain hgoal | hfeedback | hprojects | htasks := h
  · right
    unfold goalTexts at hgoal
    split at hgoal
    · cases hgoal
    · next objective hfit =>
      obtain rfl | ht := List.mem_cons.mp hgoal
      · exact ⟨_, .inl List.mem_cons_self, fitText_keptOf hfit⟩
      · obtain hnil | ⟨constraint, hc, hkept⟩ := mem_includeConstraints ht
        · cases hnil
        · exact ⟨constraint, .inl (List.mem_cons_of_mem _ hc), hkept⟩
  · right
    unfold feedbackTexts at hfeedback
    split at hfeedback
    · cases hfeedback
    · next feedback hvalue =>
      refine ⟨feedback, .inr (.inl ?_), fitText_keptOf (Option.mem_toList.mp hfeedback)⟩
      rw [hvalue]
      exact List.mem_cons_self
  · obtain hinert | ⟨given, hgiven, hkept⟩ := listTexts_given projectIdentity_strings hprojects
    · exact .inl hinert
    · exact .inr ⟨given, .inr (.inr (.inl hgiven)), hkept⟩
  · obtain hinert | ⟨given, hgiven, hkept⟩ := listTexts_given taskIdentity_strings htasks
    · exact .inl hinert
    · exact .inr ⟨given, .inr (.inr (.inr hgiven)), hkept⟩

theorem given_keptTexts (hu : Uncut p) (hr : redistribute isMark p = some r)
    (h : t ∈ givenTexts p) : t ∈ keptTexts isMark p r := by
  obtain ⟨hgoal, htasks, hprojects, -⟩ := budgets_of_uncut hu hr
  simp only [givenTexts, List.mem_append] at h
  simp only [keptTexts, List.mem_append]
  obtain h | h | h | h := h
  · left
    have hwhole := hu.goal.trans hgoal
    have hle := renderGoalAnalysis_append p.analysis p.goal.objective.text []
      (p.goal.constraints.map (·.text))
    have hobjective : fitText isMark p.goal.objective.text r.goalBudget
        (fun candidate ↦ renderGoalAnalysis p.analysis candidate []) =
          (some p.goal.objective.text, false) := fitText_full (le_trans (Int.ofNat_le.mpr hle) hwhole)
    have hall : includeConstraints isMark (renderGoalAnalysis p.analysis p.goal.objective.text)
        r.goalBudget [] (p.goal.constraints.map (·.text)) =
          (p.goal.constraints.map (·.text), false) := includeConstraints_all hwhole
    rw [goalTexts, hobjective]
    dsimp only
    rw [hall]
    exact h
  · right; left
    cases hf : p.approvalFeedback with
    | none =>
      rw [hf] at h
      cases h
    | some feedback =>
      rw [hf] at h
      have hwhole := hu.feedback
      rw [wholeFeedback, hf] at hwhole
      have hfull : fitText isMark feedback promptRevisionFeedbackCharacters
          (fun s ↦ dumps (.str s)) = (some feedback, false) := fitText_full hwhole
      rw [feedbackTexts, hfull]
      exact h
  · exact .inr (.inr (.inl (given_listTexts
      (fun q ↦ by simp [projectIdentity, fieldStrings, strings]) (hu.projects.trans hprojects) h)))
  · exact .inr (.inr (.inr (given_listTexts
      (fun q ↦ by simp [taskIdentity, fieldStrings, strings]) (hu.tasks.trans htasks) h)))

/-- The evidence is told from the rest of every prompt whose given texts have no delimiter,
and of no other one where nothing is cut. -/
theorem delimited_of_clean {input : Text} (hr : redistribute isMark p = some r)
    (hb : buildBudgetedAgentPlanInput isMark p = some input) :
    (Clean p → Delimited input r.grounding.serialized) ∧
      (Uncut p → Delimited input r.grounding.serialized → Clean p) := by
  rw [delimited_iff_kept_clean hr hb]
  constructor
  · intro hclean t ht
    obtain hinert | ⟨given, hgiven, hkept⟩ := keptTexts_given ht
    · have hnone {b : Text} (hb : IsDelimiter b) : ¬ b <:+: t := by
        rw [← hb.head]
        exact not_infix_of_notMem hinert
      exact ⟨hnone isDelimiter_groundingBegin, hnone isDelimiter_groundingEnd⟩
    · obtain ⟨hbegin, hend⟩ := hclean given hgiven
      exact ⟨hkept.not_infix isDelimiter_groundingBegin hbegin,
        hkept.not_infix isDelimiter_groundingEnd hend⟩
  · intro hu hkept t ht
    exact hkept t (given_keptTexts hu hr ht)

end

def goalContext (objective : BoundedText 2000) : PlanContext where
  goal := ⟨objective, [], Nat.zero_le _⟩
  analysis := ⟨objective, [], [.projects], Nat.zero_le _, by decide, by decide⟩
  projects := emptyPage
  tasks := emptyPage
  knowledge := noKnowledge
  approvalFeedback := none

def plainObjective : BoundedText 2000 := ⟨"Learn".toList, by decide, by decide⟩

def hostileObjective : BoundedText 2000 := ⟨groundingBegin, by decide, by decide⟩

def bracketContext (objective : BoundedText 2000) : PlanContext where
  goal := ⟨objective, [], Nat.zero_le _⟩
  analysis := ⟨objective, [], [.projects], Nat.zero_le _, by decide, by decide⟩
  projects := emptyPage
  tasks := ⟨[{ longTask with title := "<<<STMS".toList, description := some "END>>>".toList }],
    1, 20, 1, 1, firstPage_bounds, by decide⟩
  knowledge := ⟨[document (Fin.last 6)], by decide, by decide⟩
  approvalFeedback := some "<<<".toList

theorem bracketContext_clean : Clean (bracketContext plainObjective) := by
  unfold Clean
  decide +kernel

theorem bracketContext_fits {objective : BoundedText 2000}
    (h : objective = plainObjective ∨ objective = hostileObjective) :
    Uncut (bracketContext objective) ∧
      wholeEvidence (bracketContext objective) ≤ promptGroundingCharacters := by
  obtain rfl | rfl := h <;>
    exact ⟨⟨⟨by decide +kernel, by decide +kernel, by decide +kernel⟩, by decide +kernel,
      by decide +kernel, by decide +kernel, by decide +kernel⟩, by decide +kernel⟩

theorem bracketContext_built {objective : BoundedText 2000}
    (h : objective = plainObjective ∨ objective = hostileObjective) :
    ∃ r input, redistribute (fun _ ↦ false) (bracketContext objective) = some r ∧
      buildBudgetedAgentPlanInput (fun _ ↦ false) (bracketContext objective) = some input := by
  obtain ⟨huncut, hevidence⟩ := bracketContext_fits h
  have hroom : Room (fun _ ↦ false) (bracketContext objective) := room_of_uncut huncut hevidence
  obtain ⟨r, input, hr, hinput, -⟩ :=
    (sound_iff_slackKept _ (bracketContext objective)).mpr (slackKept_of_room hroom)
  exact ⟨r, input, hr, hinput⟩

theorem delimited_of_clean_sample :
    (∃ r input, redistribute (fun _ ↦ false) (bracketContext plainObjective) = some r ∧
      buildBudgetedAgentPlanInput (fun _ ↦ false) (bracketContext plainObjective) = some input ∧
      Delimited input r.grounding.serialized) ∧
    ∃ r input, redistribute (fun _ ↦ false) (bracketContext hostileObjective) = some r ∧
      buildBudgetedAgentPlanInput (fun _ ↦ false) (bracketContext hostileObjective) = some input ∧
      ¬ Delimited input r.grounding.serialized := by
  obtain ⟨r, input, hr, hinput⟩ := bracketContext_built (.inl rfl)
  obtain ⟨r', input', hr', hinput'⟩ := bracketContext_built (.inr rfl)
  refine ⟨⟨r, input, hr, hinput, (delimited_of_clean hr hinput).1 bracketContext_clean⟩,
    r', input', hr', hinput', fun hdelimited ↦ ?_⟩
  have hclean := (delimited_of_clean hr' hinput').2 (bracketContext_fits (.inr rfl)).1 hdelimited
  exact (hclean groundingBegin List.mem_cons_self).1 List.infix_rfl

/-- A goal that opens a block of its own. -/
theorem goal_opens_block :
    ¬ ∀ (isMark : Char → Bool) (p : PlanContext) (r : Redistribution) (input : Text),
      redistribute isMark p = some r → buildBudgetedAgentPlanInput isMark p = some input →
        Delimited input r.grounding.serialized := by
  intro hall
  have hrun : (redistribute (fun _ ↦ false) (goalContext hostileObjective)).map
      (fun r ↦ ((assemble r).isSome, keptTexts (fun _ ↦ false) (goalContext hostileObjective) r)) =
        some (true, [groundingBegin]) := by decide +kernel
  obtain ⟨r, hr, hrun⟩ := Option.map_eq_some_iff.mp hrun
  obtain ⟨hsome, hkept⟩ := Prod.mk.inj hrun
  have h := redistributed_of_redistribute hr
  obtain ⟨-, body, hbody, hblock⟩ := buildGrounding_block h.grounding
  have hbuild : buildBudgetedAgentPlanInput (fun _ ↦ false) (goalContext hostileObjective) =
      some r.finalInput := by
    rw [buildBudgetedAgentPlanInput, hr, Option.bind_some]
    exact assemble_of_isSome hsome
  have hdelimited := hall _ _ r _ hr hbuild
  rw [finalInput_eq, hblock, delimited_iff_of_block hbody,
    infix_above_iff h isDelimiter_groundingBegin, hkept] at hdelimited
  exact hdelimited.1 ⟨groundingBegin, List.mem_cons_self, List.infix_rfl⟩

end LearningTasks.Agent.PromptDelimiters
