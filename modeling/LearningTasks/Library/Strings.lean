import Mathlib.Data.List.DropRight

namespace LearningTasks.Library.Strings

/-- A string as the sequence of its code points. -/
abbrev Text := List Char

instance lawfulBEq_text : LawfulBEq Text := inferInstance

/-- The characters `str.strip` and `str.isspace` treat as white space. -/
def isSpace (c : Char) : Bool :=
  let n := c.toNat
  (9 ≤ n && n ≤ 13) || (28 ≤ n && n ≤ 32) || n == 133 || n == 160 || n == 5760 ||
    (8192 ≤ n && n ≤ 8202) || n == 8232 || n == 8233 || n == 8239 || n == 8287 || n == 12288

def strip (s : Text) : Text := (s.dropWhile isSpace).rdropWhile isSpace

theorem dropWhile_rdropWhile (p : Char → Bool) (s : Text) :
    ((s.dropWhile p).rdropWhile p).dropWhile p = (s.dropWhile p).rdropWhile p := by
  obtain ⟨t, ht⟩ := List.rdropWhile_prefix p (s.dropWhile p)
  cases hr : (s.dropWhile p).rdropWhile p with
  | nil => rfl
  | cons c cs =>
    rw [hr] at ht
    have hne : s.dropWhile p ≠ [] := by rw [← ht]; simp
    have hc : p c = false := by
      have h := List.head_dropWhile_not p hne
      simpa [← ht] using h
    simp [hc]

theorem strip_strip (s : Text) : strip (strip s) = strip s := by
  simp only [strip, dropWhile_rdropWhile, List.rdropWhile_idempotent]

theorem strip_length_le (s : Text) : (strip s).length ≤ s.length :=
  (List.rdropWhile_prefix isSpace _).length_le.trans (List.dropWhile_suffix isSpace).length_le

def leText : Text → Text → Bool
  | [], _ => true
  | _ :: _, [] => false
  | c :: s, d :: t => c.toNat < d.toNat || (c.toNat == d.toNat && leText s t)

theorem leText_refl (s : Text) : leText s s = true := by
  induction s with
  | nil => rfl
  | cons c s ih => simp [leText, ih]

theorem leText_total (s t : Text) : leText s t = true ∨ leText t s = true := by
  induction s generalizing t with
  | nil => exact .inl rfl
  | cons c s ih =>
    cases t with
    | nil => exact .inr rfl
    | cons d t =>
      simp only [leText, Bool.or_eq_true, decide_eq_true_eq, Bool.and_eq_true, beq_iff_eq]
      obtain h | h | h := lt_trichotomy c.toNat d.toNat
      · exact .inl (.inl h)
      · exact (ih t).imp (fun hs ↦ .inr ⟨h, hs⟩) (fun ht ↦ .inr ⟨h.symm, ht⟩)
      · exact .inr (.inl h)

theorem leText_trans {s t u : Text} (hst : leText s t = true) (htu : leText t u = true) :
    leText s u = true := by
  induction s generalizing t u with
  | nil => rfl
  | cons c s ih =>
    cases t with
    | nil => cases hst
    | cons d t =>
      cases u with
      | nil => cases htu
      | cons e u =>
        simp only [leText, Bool.or_eq_true, decide_eq_true_eq, Bool.and_eq_true,
          beq_iff_eq] at hst htu ⊢
        obtain h | ⟨h, hs⟩ := hst <;> obtain h' | ⟨h', ht⟩ := htu
        · exact .inl (h.trans h')
        · exact .inl (h' ▸ h)
        · exact .inl (h ▸ h')
        · exact .inr ⟨h.trans h', ih hs ht⟩

theorem leText_antisymm {s t : Text} (hst : leText s t = true) (hts : leText t s = true) :
    s = t := by
  induction s generalizing t with
  | nil => cases t with
    | nil => rfl
    | cons d t => cases hts
  | cons c s ih =>
    cases t with
    | nil => cases hst
    | cons d t =>
      simp only [leText, Bool.or_eq_true, decide_eq_true_eq, Bool.and_eq_true,
        beq_iff_eq] at hst hts
      obtain h | ⟨h, hs⟩ := hst <;> obtain h' | ⟨h', ht⟩ := hts
      · omega
      · omega
      · omega
      · rw [Char.toNat_inj.mp h, ih hs ht]

end LearningTasks.Library.Strings
