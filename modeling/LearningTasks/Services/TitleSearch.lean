import LearningTasks.Library.Patterns
import LearningTasks.Services.TaskListing

namespace LearningTasks.Services.TitleSearch

open Library.Strings Library.Patterns TaskListing

/-- The grammar of a pattern; none where it ends in the escape character. -/
def readPattern : Text → Option (List (Token Char))
  | [] => some []
  | '%' :: p => (readPattern p).map (.anyString :: ·)
  | '_' :: p => (readPattern p).map (.anyOne :: ·)
  | '\\' :: d :: p => (readPattern p).map (.literal d :: ·)
  | ['\\'] => none
  | d :: p => (readPattern p).map (.literal d :: ·)

section

variable (fold : Char → Char)

abbrev SameFolded (c d : Char) : Prop := fold c = fold d

variable {fold}

theorem ilike_percent (p s : Text) :
    ilike fold ('%' :: p) s = true ↔ ∃ u, u <:+ s ∧ ilike fold p u = true := by
  rw [ilike, List.any_eq_true]
  simp only [List.mem_tails]

/-- The matcher decides what the grammar says of a pattern. -/
theorem ilike_iff_matches {p : Text} {tokens : List (Token Char)}
    (h : readPattern p = some tokens) (s : Text) :
    ilike fold p s = true ↔ Matches (SameFolded fold) tokens s := by
  induction p using readPattern.induct generalizing tokens s with
  | case1 =>
    cases h
    rw [Matches.nil_iff, ilike, decide_eq_true_eq]
  | case2 p ih =>
    obtain ⟨tokens, hp, rfl⟩ := Option.map_eq_some_iff.mp h
    rw [ilike_percent, Matches.anyString_iff]
    exact exists_congr fun u ↦ and_congr_right fun _ ↦ ih hp u
  | case3 p ih =>
    obtain ⟨tokens, hp, rfl⟩ := Option.map_eq_some_iff.mp h
    rw [Matches.anyOne_iff]
    cases s with
    | nil => simp [ilike]
    | cons c s =>
      rw [ilike, ih hp]
      simp
  | case4 d p ih =>
    obtain ⟨tokens, hp, rfl⟩ := Option.map_eq_some_iff.mp h
    rw [Matches.literal_iff]
    cases s with
    | nil => simp [ilike]
    | cons c s =>
      rw [ilike, Bool.and_eq_true, decide_eq_true_eq, ih hp]
      simp
  | case5 => cases h
  | case6 d p hpercent hunderscore hescaped hescape ih =>
    obtain ⟨tokens, hp, rfl⟩ : ∃ tokens', readPattern p = some tokens' ∧
        .literal d :: tokens' = tokens := by
      rw [readPattern] at h
      · exact Option.map_eq_some_iff.mp h
      all_goals assumption
    have hbackslash : d ≠ '\\' := by
      rintro rfl
      cases p with
      | nil => exact hescape rfl rfl
      | cons e p => exact hescaped e p rfl rfl
    rw [Matches.literal_iff]
    cases s with
    | nil => simp [ilike]
    | cons c s =>
      have hstep : ilike fold (d :: p) (c :: s) = (decide (fold d = fold c) && ilike fold p s) := by
        have hne : d ≠ '_' := hunderscore
        rw [ilike]
        · simp [hbackslash, hne]
        all_goals simp_all
      rw [hstep, Bool.and_eq_true, decide_eq_true_eq, ih hp]
      simp

def escaped (c : Char) : Text := if c = '\\' ∨ c = '%' ∨ c = '_' then ['\\', c] else [c]

theorem escapeLike_cons (c : Char) (s : Text) : escapeLike (c :: s) = escaped c ++ escapeLike s := by
  have hpass : escapeLike (c :: s) =
      replaceChar '_' ['\\', '_'] (replaceChar '%' ['\\', '%'] (if c = '\\' then ['\\', '\\'] else [c]))
        ++ escapeLike s := by
    simp only [escapeLike, replaceChar, List.flatMap_cons, List.flatMap_append]
  rw [hpass]
  congr 1
  unfold escaped
  by_cases hb : c = '\\'
  · subst hb
    rfl
  · by_cases hp : c = '%'
    · subst hp
      rfl
    · by_cases hu : c = '_'
      · subst hu
        rfl
      · simp [replaceChar, hb, hp, hu]

theorem readPattern_escapeLike (s p : Text) :
    readPattern (escapeLike s ++ p) = (readPattern p).map (s.map Token.literal ++ ·) := by
  induction s with
  | nil => simp [escapeLike, replaceChar]
  | cons c s ih =>
    have hstep : readPattern (escapeLike (c :: s) ++ p) =
        (readPattern (escapeLike s ++ p)).map (.literal c :: ·) := by
      rw [escapeLike_cons, List.append_assoc, escaped]
      split
      · rfl
      · next h =>
        rw [List.cons_append, List.nil_append, readPattern]
        all_goals simp_all
    rw [hstep, ih, Option.map_map]
    rfl

theorem readPattern_search (s : Text) : readPattern ('%' :: (escapeLike s ++ ['%'])) =
    some (.anyString :: (s.map .literal ++ [.anyString])) := by
  rw [readPattern, readPattern_escapeLike]
  rfl

/-- A search finds the titles that contain its text, whatever characters that has. -/
theorem literal_title_search (fold : Char → Char) (search title : Text) :
    ilike fold ('%' :: (escapeLike search ++ ['%'])) title = true ↔
      search.map fold <:+: title.map fold := by
  rw [ilike_iff_matches (readPattern_search search)]
  exact Matches.contains_map_iff fold

end

end LearningTasks.Services.TitleSearch
