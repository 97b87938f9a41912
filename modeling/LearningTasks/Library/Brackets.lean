import Mathlib.Data.List.Basic

namespace LearningTasks.Library.Brackets

variable {α : Type*}

section

variable (opens : α → Bool) (mates : α → α → Prop)

inductive Balanced : List α → Prop
  | nil : Balanced []
  | wrap {a b : α} {inner rest : List α} (ha : opens a = true) (hb : opens b = false)
      (hm : mates a b) : Balanced inner → Balanced rest → Balanced (a :: (inner ++ b :: rest))

/-- The letters at two positions of a word are the ends of one bracket. -/
def Matches (l : List α) (i j : ℕ) : Prop :=
  ∃ front a inner b rest, l = front ++ a :: (inner ++ b :: rest) ∧ i = front.length ∧
    j = front.length + 1 + inner.length ∧ opens a = true ∧ opens b = false ∧ mates a b ∧
    Balanced opens mates inner

/-- Each letter that opens has one that closes it after it, and only one, and each that closes
has one that it closes. -/
structure Paired (l : List α) : Prop where
  closed : ∀ i a, l[i]? = some a → opens a = true → ∃! j, Matches opens mates l i j
  opened : ∀ j b, l[j]? = some b → opens b = false → ∃! i, Matches opens mates l i j

end

variable {opens : α → Bool} {mates : α → α → Prop} {l : List α} {i j : ℕ}

theorem Balanced.pair {a b : α} (ha : opens a = true) (hb : opens b = false) (hm : mates a b)
    (h : Balanced opens mates l) : Balanced opens mates (a :: (l ++ [b])) :=
  .wrap ha hb hm h .nil

theorem Balanced.count (h : Balanced opens mates l) :
    l.countP opens = l.countP (fun a ↦ !opens a) := by
  induction h with
  | nil => rfl
  | wrap ha hb hm _ _ ihinner ihrest =>
    simp only [List.countP_cons, List.countP_append, ha, hb, Bool.not_true, Bool.not_false,
      Bool.false_eq_true, ↓reduceIte]
    omega

theorem Balanced.count_front (h : Balanced opens mates l) {p q : List α} (hl : l = p ++ q) :
    p.countP (fun a ↦ !opens a) ≤ p.countP opens := by
  induction h generalizing p q with
  | nil =>
    rw [(List.append_eq_nil_iff.mp hl.symm).1]
    exact Nat.le_refl 0
  | @wrap a b inner rest ha hb hm hinner _ ihinner ihrest =>
    cases p with
    | nil => exact Nat.le_refl 0
    | cons c p =>
      rw [List.cons_append] at hl
      obtain ⟨rfl, htail⟩ := List.cons.inj hl
      obtain ⟨r, rfl, hr⟩ | ⟨r, hr, -⟩ := List.append_eq_append_iff.mp htail
      · have hcount := hinner.count
        cases r with
        | nil =>
          simp only [List.append_nil, List.countP_cons, ha, Bool.not_true, Bool.false_eq_true,
            ↓reduceIte]
          omega
        | cons d r =>
          obtain ⟨rfl, hnext⟩ := List.cons.inj hr
          have hrest := ihrest hnext
          simp only [List.countP_cons, List.countP_append, ha, hb, Bool.not_true, Bool.not_false,
            Bool.false_eq_true, ↓reduceIte]
          omega
      · have hfront := ihinner hr
        simp only [List.countP_cons, ha, Bool.not_true, Bool.false_eq_true, ↓reduceIte]
        omega

theorem Balanced.count_back (h : Balanced opens mates l) {p q : List α} (hl : l = p ++ q) :
    q.countP opens ≤ q.countP (fun a ↦ !opens a) := by
  have hfront := h.count_front hl
  have hcount := h.count
  rw [hl, List.countP_append, List.countP_append] at hcount
  omega

theorem inner_le {inner inner' rest rest' : List α} {b b' : α} (h : Balanced opens mates inner)
    (h' : Balanced opens mates inner') (hb : opens b = false)
    (heq : inner ++ b :: rest = inner' ++ b' :: rest') : inner'.length ≤ inner.length := by
  obtain ⟨r, rfl, hr⟩ | ⟨r, hr, -⟩ := List.append_eq_append_iff.mp heq
  · cases r with
    | nil => exact Nat.le_of_eq (congrArg List.length (List.append_nil _))
    | cons c r =>
      obtain ⟨rfl, -⟩ := List.cons.inj hr
      have hfront := h'.count_front (p := inner ++ [b]) (q := r) (by simp)
      have hcount := h.count
      simp only [List.countP_append, List.countP_singleton, hb, Bool.not_false,
        Bool.false_eq_true, ↓reduceIte] at hfront
      omega
  · rw [hr, List.length_append]
    exact Nat.le_add_right _ _

theorem front_le {front front' inner inner' : List α} {a a' : α}
    (h : Balanced opens mates inner) (h' : Balanced opens mates inner') (ha : opens a' = true)
    (heq : front ++ a :: inner = front' ++ a' :: inner') : front'.length ≤ front.length := by
  obtain ⟨r, rfl, hr⟩ | ⟨r, hr, -⟩ := List.append_eq_append_iff.mp heq
  · cases r with
    | nil => exact Nat.le_of_eq (congrArg List.length (List.append_nil _))
    | cons c r =>
      obtain ⟨-, hr⟩ := List.cons.inj hr
      have hback := h.count_back hr
      have hcount := h'.count
      simp only [List.countP_cons, ha, Bool.not_true, Bool.false_eq_true, ↓reduceIte] at hback
      omega
  · rw [hr, List.length_append]
    exact Nat.le_add_right _ _

namespace Matches

theorem right_unique {j' : ℕ} (h : Matches opens mates l i j) (h' : Matches opens mates l i j') :
    j = j' := by
  obtain ⟨front, a, inner, b, rest, rfl, rfl, rfl, -, hb, -, hinner⟩ := h
  obtain ⟨front', a', inner', b', rest', heq, hi, rfl, -, hb', -, hinner'⟩ := h'
  obtain ⟨rfl, htail⟩ := List.append_inj heq hi
  obtain ⟨-, htail⟩ := List.cons.inj htail
  have hle := inner_le hinner hinner' hb htail
  have hge := inner_le hinner' hinner hb' htail.symm
  omega

theorem left_unique {i' : ℕ} (h : Matches opens mates l i j) (h' : Matches opens mates l i' j) :
    i = i' := by
  obtain ⟨front, a, inner, b, rest, rfl, rfl, rfl, ha, -, -, hinner⟩ := h
  obtain ⟨front', a', inner', b', rest', heq, rfl, hj, ha', -, -, hinner'⟩ := h'
  have hheads : (front ++ a :: inner) ++ b :: rest = (front' ++ a' :: inner') ++ b' :: rest' := by
    simpa using heq
  have hlength : (front ++ a :: inner).length = (front' ++ a' :: inner').length := by
    simp only [List.length_append, List.length_cons]
    omega
  obtain ⟨hheads, -⟩ := List.append_inj hheads hlength
  exact Nat.le_antisymm (front_le hinner' hinner ha hheads.symm)
    (front_le hinner hinner' ha' hheads)

theorem ends (h : Matches opens mates l i j) : i < j ∧ j < l.length ∧
    (∃ a, l[i]? = some a ∧ opens a = true) ∧ ∃ b, l[j]? = some b ∧ opens b = false := by
  obtain ⟨front, a, inner, b, rest, rfl, rfl, rfl, ha, hb, -, -⟩ := h
  refine ⟨by omega, ?_, ⟨a, by simp, ha⟩, b, ?_, hb⟩
  · simp only [List.length_append, List.length_cons]
    omega
  · rw [Nat.add_assoc, List.getElem?_append_right (Nat.le_add_right _ _), Nat.add_sub_cancel_left,
      Nat.add_comm, List.getElem?_cons_succ, List.getElem?_append_right (Nat.le_refl _),
      Nat.sub_self]
    rfl

theorem shift (h : Matches opens mates l i j) (p q : List α) :
    Matches opens mates (p ++ l ++ q) (p.length + i) (p.length + j) := by
  obtain ⟨front, a, inner, b, rest, rfl, rfl, rfl, hends⟩ := h
  refine ⟨p ++ front, a, inner, b, rest ++ q, by simp, by simp, ?_, hends⟩
  rw [List.length_append]
  omega

theorem of_shift {p : List α} (h : Matches opens mates (p ++ l) (p.length + i) j) :
    ∃ j', j = p.length + j' ∧ Matches opens mates l i j' := by
  obtain ⟨front, a, inner, b, rest, heq, hi, rfl, hends⟩ := h
  obtain ⟨r, rfl, hr⟩ : ∃ r, front = p ++ r ∧ l = r ++ a :: (inner ++ b :: rest) := by
    obtain ⟨r, hfront, hl⟩ | ⟨r, hp, hl⟩ := List.append_eq_append_iff.mp heq
    · exact ⟨r, hfront, hl⟩
    · have hnil : r = [] := by
        have hlength := congrArg List.length hp
        rw [List.length_append] at hlength
        exact List.length_eq_zero_iff.mp (by omega)
      subst hnil
      exact ⟨[], by rw [hp, List.append_nil, List.append_nil], hl.symm⟩
  rw [List.length_append] at hi ⊢
  exact ⟨r.length + 1 + inner.length, by omega, r, a, inner, b, rest, hr, by omega, rfl, hends⟩

end Matches

theorem Balanced.matched (h : Balanced opens mates l) {k : ℕ} (hk : k < l.length) :
    ∃ i j, Matches opens mates l i j ∧ (k = i ∨ k = j) := by
  induction h generalizing k with
  | nil => cases hk
  | @wrap a b inner rest ha hb hm hinner _ ihinner ihrest =>
    have hpair : Matches opens mates (a :: (inner ++ b :: rest)) 0 (1 + inner.length) :=
      ⟨[], a, inner, b, rest, rfl, rfl, by simp, ha, hb, hm, hinner⟩
    simp only [List.length_cons, List.length_append] at hk
    obtain rfl | hpos := Nat.eq_zero_or_pos k
    · exact ⟨0, _, hpair, .inl rfl⟩
    · obtain hlt | heq | hgt := Nat.lt_trichotomy k (1 + inner.length)
      · obtain ⟨i, j, hij, hend⟩ := ihinner (k := k - 1) (by omega)
        refine ⟨1 + i, 1 + j, hij.shift [a] (b :: rest), ?_⟩
        omega
      · exact ⟨0, _, hpair, .inr heq⟩
      · obtain ⟨i, j, hij, hend⟩ := ihrest (k := k - (inner.length + 2)) (by omega)
        have hshift := hij.shift (a :: (inner ++ [b])) []
        simp only [List.append_nil, List.cons_append, List.append_assoc, List.nil_append,
          List.length_cons, List.length_append, List.length_nil] at hshift
        exact ⟨_, _, hshift, by omega⟩

theorem Balanced.paired (h : Balanced opens mates l) : Paired opens mates l := by
  refine ⟨fun i a hi ha ↦ ?_, fun j b hj hb ↦ ?_⟩
  · obtain ⟨i', j, hij, rfl | rfl⟩ := h.matched (List.getElem?_eq_some_iff.mp hi).1
    · exact ⟨j, hij, fun j' hij' ↦ hij'.right_unique hij⟩
    · obtain ⟨-, -, -, b, hj, hb⟩ := hij.ends
      rw [hi] at hj
      cases hj
      rw [ha] at hb
      cases hb
  · obtain ⟨i, j', hij, rfl | rfl⟩ := h.matched (List.getElem?_eq_some_iff.mp hj).1
    · obtain ⟨-, -, ⟨a, hi, ha⟩, -⟩ := hij.ends
      rw [hj] at hi
      cases hi
      rw [hb] at ha
      cases ha
    · exact ⟨i, hij, fun i' hij' ↦ hij'.left_unique hij⟩

theorem Paired.after {p : List α} (hp : Balanced opens mates p)
    (h : Paired opens mates (p ++ l)) : Paired opens mates l := by
  refine ⟨fun i a hi ha ↦ ?_, fun j b hj hb ↦ ?_⟩
  · have hi' : (p ++ l)[p.length + i]? = some a := by
      rw [List.getElem?_append_right (Nat.le_add_right _ _), Nat.add_sub_cancel_left, hi]
    obtain ⟨j, hij, -⟩ := h.closed _ a hi' ha
    obtain ⟨j', -, hij'⟩ := hij.of_shift
    exact ⟨j', hij', fun k hk ↦ hk.right_unique hij'⟩
  · have hj' : (p ++ l)[p.length + j]? = some b := by
      rw [List.getElem?_append_right (Nat.le_add_right _ _), Nat.add_sub_cancel_left, hj]
    obtain ⟨i, hij, -⟩ := h.opened _ b hj' hb
    have hafter : p.length ≤ i := by
      by_contra hlt
      obtain ⟨i', k, hik, rfl | rfl⟩ := hp.matched (Nat.not_le.mp hlt)
      · have hwhole := hik.shift [] l
        rw [List.nil_append, List.length_nil, Nat.zero_add, Nat.zero_add] at hwhole
        have hk := hik.ends.2.1
        have heq := hwhole.right_unique hij
        omega
      · obtain ⟨-, -, ⟨a, ha, hopen⟩, -⟩ := hij.ends
        obtain ⟨-, hk, -, c, hc, hclose⟩ := hik.ends
        rw [List.getElem?_append_left hk, hc] at ha
        cases ha
        rw [hopen] at hclose
        cases hclose
    obtain ⟨i, rfl⟩ := Nat.exists_eq_add_of_le hafter
    obtain ⟨j', hj', hij'⟩ := hij.of_shift
    obtain rfl : j = j' := by omega
    exact ⟨i, hij', fun k hk ↦ hk.left_unique hij'⟩

/-- The words that are paired are the well-bracketed ones. -/
theorem paired_iff_balanced : Paired opens mates l ↔ Balanced opens mates l := by
  refine ⟨fun h ↦ ?_, Balanced.paired⟩
  induction hn : l.length using Nat.strongRecOn generalizing l with
  | ind n ih =>
    cases l with
    | nil => exact .nil
    | cons a l =>
      cases ha : opens a with
      | false =>
        obtain ⟨i, hij, -⟩ := h.opened 0 a rfl ha
        exact absurd hij.ends.1 (Nat.not_lt_zero i)
      | true =>
        obtain ⟨j, ⟨front, a', inner, b, rest, heq, hfront, -, -, hb, hm, hinner⟩, -⟩ :=
          h.closed 0 a rfl ha
        obtain rfl := List.length_eq_zero_iff.mp hfront.symm
        obtain ⟨rfl, rfl⟩ := List.cons.inj heq
        have hrest : Paired opens mates rest := by
          refine Paired.after (hinner.pair ha hb hm) ?_
          rw [List.cons_append, List.append_assoc]
          exact h
        refine .wrap ha hb hm hinner (ih rest.length ?_ hrest rfl)
        rw [← hn, List.length_cons, List.length_append, List.length_cons]
        omega

end LearningTasks.Library.Brackets
