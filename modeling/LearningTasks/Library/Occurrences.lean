import LearningTasks.Library.Serialization
import Mathlib.Data.Bool.AllAny

namespace LearningTasks.Library.Occurrences

open Strings Serialization

section

variable {α : Type*} {p a b : List α} {c d : α}

def OccursAt (p s : List α) (i : ℕ) : Prop := p <+: s.drop i

theorem infix_iff_occursAt {s : List α} : p <:+: s ↔ ∃ i, OccursAt p s i := by
  constructor
  · rintro ⟨u, v, rfl⟩
    refine ⟨u.length, v, ?_⟩
    rw [List.append_assoc, List.drop_left]
  · rintro ⟨i, h⟩
    exact h.isInfix.trans (List.drop_suffix i s).isInfix

theorem prefix_append_cons (hc : c ∉ p) (h : p <+: a ++ c :: b) : p <+: a := by
  obtain ⟨t, ht⟩ := h
  obtain ⟨u, rfl, -⟩ | ⟨u, rfl, hu⟩ := List.append_eq_append_iff.mp ht
  · exact List.prefix_append p u
  · cases u with
    | nil => exact ⟨[], by rw [List.append_nil, List.append_nil]⟩
    | cons x u =>
      rw [List.cons_append, List.cons.injEq] at hu
      rw [← hu.1] at hc
      exact absurd (List.mem_append_right a List.mem_cons_self) hc

theorem occursAt_append_cons (hc : c ∉ p) {i : ℕ}
    (h : OccursAt p (a ++ c :: b) i) :
    OccursAt p a i ∨ ∃ j, i = a.length + 1 + j ∧ OccursAt p b j := by
  unfold OccursAt at h
  obtain hi | hi := Nat.lt_or_ge a.length i
  · right
    refine ⟨i - (a.length + 1), by omega, ?_⟩
    rw [List.drop_append, List.drop_eq_nil_of_le hi.le, List.nil_append,
      List.drop_cons (by omega)] at h
    rw [OccursAt, Nat.sub_add_eq]
    exact h
  · left
    rw [List.drop_append_of_le_length hi] at h
    exact prefix_append_cons hc h

theorem infix_append_cons_iff (hc : c ∉ p) :
    p <:+: a ++ c :: b ↔ p <:+: a ∨ p <:+: b := by
  constructor
  · intro h
    obtain ⟨i, h⟩ := infix_iff_occursAt.mp h
    obtain h | ⟨j, -, h⟩ := occursAt_append_cons hc h
    · exact .inl (infix_iff_occursAt.mpr ⟨i, h⟩)
    · exact .inr (infix_iff_occursAt.mpr ⟨j, h⟩)
  · rintro (h | h)
    · exact h.trans (List.prefix_append a _).isInfix
    · exact h.trans ((List.suffix_cons c b).isInfix.trans (List.suffix_append a _).isInfix)

theorem infix_append_iff (h : d ∉ a) : d :: p <:+: a ++ b ↔ d :: p <:+: b := by
  induction a with
  | nil => rfl
  | cons c a ih =>
    rw [List.mem_cons, not_or] at h
    rw [List.cons_append, List.infix_cons_iff, ih h.2, or_iff_right]
    intro hp
    exact h.1 (List.cons_prefix_cons.mp hp).1

theorem not_infix_of_notMem (h : d ∉ a) : ¬ d :: p <:+: a := by
  intro hp
  exact h (hp.subset List.mem_cons_self)

end

/-- The characters that a serialisation adds to the strings of a value. -/
def syntaxChars : Text := "\"\\[]\x7b\x7d,:nultrefasbcd0123456789-+.".toList

/-- A pattern that is written as it is, and is begun by no syntax. -/
structure Plain (d : Char) (p : Text) : Prop where
  head : d ∉ syntaxChars
  written : ∀ c ∈ d :: p, escapeChar c = [c]
  quote : '"' ∉ d :: p

mutual

def strings : Json → List Text
  | .null => []
  | .bool _ => []
  | .int _ => []
  | .float _ => []
  | .str s => [s]
  | .arr items => itemStrings items
  | .obj fields => fieldStrings fields

def itemStrings : List Json → List Text
  | [] => []
  | x :: xs => strings x ++ itemStrings xs

def fieldStrings : List (Text × Json) → List Text
  | [] => []
  | (k, x) :: xs => k :: strings x ++ fieldStrings xs

end

theorem hexDigits_subset {n : ℕ} : ∀ c ∈ hexDigits n, c ∈ syntaxChars := by
  have hdigit : ∀ k < 16, Nat.digitChar k ∈ syntaxChars := by decide
  intro c hc
  simp only [hexDigits, List.mem_cons, List.not_mem_nil, or_false] at hc
  obtain rfl | rfl := hc
  · exact hdigit _ (Nat.mod_lt _ (by decide))
  · exact hdigit _ (Nat.mod_lt _ (by decide))

theorem escapeChar_cases (c : Char) :
    (escapeChar c = [c] ∧ c ≠ '\\') ∨
      ∃ r, escapeChar c = '\\' :: r ∧ ∀ x ∈ r, x ∈ syntaxChars := by
  unfold escapeChar
  split
  · exact .inr ⟨['"'], rfl, List.all_iff_forall_prop.mp (by decide)⟩
  · split
    · exact .inr ⟨['\\'], rfl, List.all_iff_forall_prop.mp (by decide)⟩
    · next hne =>
      split
      · exact .inr ⟨['n'], rfl, List.all_iff_forall_prop.mp (by decide)⟩
      · split
        · exact .inr ⟨['r'], rfl, List.all_iff_forall_prop.mp (by decide)⟩
        · split
          · exact .inr ⟨['t'], rfl, List.all_iff_forall_prop.mp (by decide)⟩
          · split
            · exact .inr ⟨['f'], rfl, List.all_iff_forall_prop.mp (by decide)⟩
            · split
              · exact .inr ⟨['b'], rfl, List.all_iff_forall_prop.mp (by decide)⟩
              · split
                · refine .inr ⟨'u' :: '0' :: '0' :: hexDigits c.toNat, rfl, ?_⟩
                  simp only [List.forall_mem_cons]
                  exact ⟨by decide, by decide, by decide, hexDigits_subset⟩
                · exact .inl ⟨rfl, hne⟩

theorem escapeChar_backslash : escapeChar '\\' ≠ ['\\'] := by decide

theorem prefix_escaped_iff {q : Text} (hq : ∀ c ∈ q, escapeChar c = [c]) (t : Text) :
    q <+: t.flatMap escapeChar ↔ q <+: t := by
  induction q generalizing t with
  | nil => simp
  | cons x q ih =>
    have hx := hq x List.mem_cons_self
    have hrest := ih fun c hc ↦ hq c (List.mem_cons_of_mem x hc)
    cases t with
    | nil => simp
    | cons c t =>
      rw [List.flatMap_cons]
      obtain ⟨hc, -⟩ | ⟨r, hr, -⟩ := escapeChar_cases c
      · rw [hc, List.singleton_append, List.cons_prefix_cons, List.cons_prefix_cons, hrest]
      · rw [hr, List.cons_append, List.cons_prefix_cons, List.cons_prefix_cons]
        constructor
        · rintro ⟨rfl, -⟩
          exact absurd hx escapeChar_backslash
        · rintro ⟨rfl, -⟩
          rw [hr, List.cons.injEq] at hx
          rw [← hx.1] at hr
          exact absurd (hr.trans (by rw [hx.2])) escapeChar_backslash

section

variable {d : Char} {p : Text}

theorem infix_escaped_iff (hp : Plain d p) (t : Text) :
    d :: p <:+: t.flatMap escapeChar ↔ d :: p <:+: t := by
  induction t with
  | nil => rfl
  | cons c t ih =>
    obtain ⟨hc, -⟩ | ⟨r, hr, hpunct⟩ := escapeChar_cases c
    · have hprefix := prefix_escaped_iff hp.written (c :: t)
      rw [List.flatMap_cons, hc, List.singleton_append] at hprefix
      rw [List.flatMap_cons, hc, List.singleton_append, List.infix_cons_iff, List.infix_cons_iff,
        hprefix, ih]
    · have hprefix := prefix_escaped_iff hp.written (c :: t)
      have hhead : d ∉ '\\' :: r := by
        intro hd
        obtain rfl | hd := List.mem_cons.mp hd
        · exact hp.head (by decide)
        · exact hp.head (hpunct d hd)
      rw [List.flatMap_cons, hr, infix_append_iff hhead, ih, List.infix_cons_iff, or_iff_right]
      rw [← hprefix, List.flatMap_cons, hr, List.cons_append, List.cons_prefix_cons]
      rintro ⟨rfl, -⟩
      exact hhead List.mem_cons_self

theorem infix_dumpString_iff (hp : Plain d p) (t r : Text) :
    d :: p <:+: dumpString t ++ r ↔ d :: p <:+: t ∨ d :: p <:+: r := by
  have hhead : d ∉ ['"'] := by
    intro h
    rw [List.mem_singleton.mp h] at hp
    exact hp.head (by decide)
  have hsplit : dumpString t ++ r = ['"'] ++ (t.flatMap escapeChar ++ '"' :: r) := by
    simp [dumpString]
  rw [hsplit, infix_append_iff hhead, infix_append_cons_iff hp.quote,
    infix_escaped_iff hp]

theorem infix_syntax_iff (hp : Plain d p) {a : Text} (ha : ∀ c ∈ a, c ∈ syntaxChars) (r : Text) :
    d :: p <:+: a ++ r ↔ d :: p <:+: r :=
  infix_append_iff fun h ↦ hp.head (ha d h)

theorem infix_cons_syntax_iff (hp : Plain d p) {c : Char} (hc : c ∈ syntaxChars) (r : Text) :
    d :: p <:+: c :: r ↔ d :: p <:+: r :=
  infix_syntax_iff hp (a := [c]) (by simpa using hc) r

theorem isNumberChar_syntax {c : Char} (h : isNumberChar c = true) : c ∈ syntaxChars := by
  simp only [isNumberChar, Bool.or_eq_true, beq_iff_eq] at h
  obtain (((h | rfl) | rfl) | rfl) | rfl := h
  · have hdigit : ∀ n < 58, 48 ≤ n → Char.ofNat n ∈ syntaxChars := by decide
    simp only [Char.isDigit, Bool.and_eq_true, decide_eq_true_eq, ge_iff_le, UInt32.le_iff_toNat_le]
      at h
    rw [← Char.ofNat_toNat c]
    exact hdigit c.toNat (Nat.lt_succ_of_le h.2) h.1
  all_goals decide

mutual

/-- A plain pattern stands in a serialised value just in case it stands in one of its
strings. -/
theorem infix_dumps_iff (hp : Plain d p) : ∀ (j : Json) (r : Text),
    d :: p <:+: dumps j ++ r ↔ (∃ t ∈ strings j, d :: p <:+: t) ∨ d :: p <:+: r
  | .null, r => by
    rw [dumps, infix_syntax_iff hp (List.all_iff_forall_prop.mp (by decide)), strings]
    simp
  | .bool true, r => by
    rw [dumps, infix_syntax_iff hp (List.all_iff_forall_prop.mp (by decide)), strings]
    simp
  | .bool false, r => by
    rw [dumps, infix_syntax_iff hp (List.all_iff_forall_prop.mp (by decide)), strings]
    simp
  | .int n, r => by
    rw [infix_syntax_iff hp fun c hc ↦ isNumberChar_syntax (dumps_numeric rfl c hc), strings]
    simp
  | .float x, r => by
    rw [infix_syntax_iff hp fun c hc ↦ isNumberChar_syntax (dumps_numeric rfl c hc), strings]
    simp
  | .str s, r => by
    rw [dumps, infix_dumpString_iff hp, strings]
    simp
  | .arr items, r => by
    have hsplit : dumps (.arr items) ++ r = '[' :: (dumpItems items ++ ']' :: r) := by simp [dumps]
    rw [hsplit, infix_cons_syntax_iff hp (by decide), infix_dumpItems_iff hp items,
      infix_cons_syntax_iff hp (by decide), strings]
  | .obj fields, r => by
    have hsplit : dumps (.obj fields) ++ r = '\x7b' :: (dumpFields fields ++ '\x7d' :: r) := by
      simp [dumps]
    rw [hsplit, infix_cons_syntax_iff hp (by decide), infix_dumpFields_iff hp fields,
      infix_cons_syntax_iff hp (by decide), strings]

theorem infix_dumpItems_iff (hp : Plain d p) : ∀ (items : List Json) (r : Text),
    d :: p <:+: dumpItems items ++ r ↔ (∃ t ∈ itemStrings items, d :: p <:+: t) ∨ d :: p <:+: r
  | [], r => by simp [dumpItems, itemStrings]
  | x :: xs, r => by
    rw [dumpItems, List.append_assoc, infix_dumps_iff hp x, infix_dumpMoreItems_iff hp xs,
      itemStrings]
    simp only [List.mem_append, or_and_right, exists_or, or_assoc]

theorem infix_dumpMoreItems_iff (hp : Plain d p) : ∀ (items : List Json) (r : Text),
    d :: p <:+: dumpMoreItems items ++ r ↔
      (∃ t ∈ itemStrings items, d :: p <:+: t) ∨ d :: p <:+: r
  | [], r => by simp [dumpMoreItems, itemStrings]
  | x :: xs, r => by
    have hsplit : dumpMoreItems (x :: xs) ++ r = ',' :: (dumps x ++ (dumpMoreItems xs ++ r)) := by
      simp [dumpMoreItems]
    rw [hsplit, infix_cons_syntax_iff hp (by decide), infix_dumps_iff hp x,
      infix_dumpMoreItems_iff hp xs, itemStrings]
    simp only [List.mem_append, or_and_right, exists_or, or_assoc]

theorem infix_dumpFields_iff (hp : Plain d p) : ∀ (fields : List (Text × Json)) (r : Text),
    d :: p <:+: dumpFields fields ++ r ↔
      (∃ t ∈ fieldStrings fields, d :: p <:+: t) ∨ d :: p <:+: r
  | [], r => by simp [dumpFields, fieldStrings]
  | (k, x) :: xs, r => by
    have hsplit : dumpFields ((k, x) :: xs) ++ r =
        dumpString k ++ ':' :: (dumps x ++ (dumpMoreFields xs ++ r)) := by simp [dumpFields]
    rw [hsplit, infix_dumpString_iff hp, infix_cons_syntax_iff hp (by decide), infix_dumps_iff hp x,
      infix_dumpMoreFields_iff hp xs, fieldStrings]
    simp only [List.cons_append, List.mem_cons, List.mem_append, or_and_right, exists_or, or_assoc,
      exists_eq_left]

theorem infix_dumpMoreFields_iff (hp : Plain d p) : ∀ (fields : List (Text × Json)) (r : Text),
    d :: p <:+: dumpMoreFields fields ++ r ↔
      (∃ t ∈ fieldStrings fields, d :: p <:+: t) ∨ d :: p <:+: r
  | [], r => by simp [dumpMoreFields, fieldStrings]
  | (k, x) :: xs, r => by
    have hsplit : dumpMoreFields ((k, x) :: xs) ++ r =
        ',' :: (dumpString k ++ ':' :: (dumps x ++ (dumpMoreFields xs ++ r))) := by
      simp [dumpMoreFields]
    rw [hsplit, infix_cons_syntax_iff hp (by decide), infix_dumpString_iff hp,
      infix_cons_syntax_iff hp (by decide), infix_dumps_iff hp x, infix_dumpMoreFields_iff hp xs,
      fieldStrings]
    simp only [List.cons_append, List.mem_cons, List.mem_append, or_and_right, exists_or, or_assoc,
      exists_eq_left]

end

end

end LearningTasks.Library.Occurrences
