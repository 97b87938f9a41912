import LearningTasks.Library.Strings
import Mathlib.Data.List.Sort
import Mathlib.Data.Nat.Digits.Defs

namespace LearningTasks.Library.Serialization

open Strings

def isNumberChar (c : Char) : Bool := c.isDigit || c == '-' || c == '+' || c == '.' || c == 'e'

def isFloatMark (c : Char) : Bool := c == '.' || c == 'e'

/-- A finite float, kept as the `repr` that determines it. Such a text always
has a fraction or an exponent. -/
structure FloatRepr where
  repr : Text
  numeric : repr.all isNumberChar = true
  marked : repr.any isFloatMark = true
  deriving DecidableEq

def zeroFloat : FloatRepr := ⟨"0.0".toList, by decide, by decide⟩

inductive Json
  | null
  | bool (b : Bool)
  | int (n : ℤ)
  | float (x : FloatRepr)
  | str (s : Text)
  | arr (items : List Json)
  | obj (fields : List (Text × Json))

abbrev Fields := List (Text × Json)

def natRepr (n : ℕ) : Text := Nat.toDigits 10 n

def intRepr : ℤ → Text
  | .ofNat n => natRepr n
  | .negSucc n => '-' :: natRepr (n + 1)

def hexDigits (n : ℕ) : Text := [Nat.digitChar (n / 16 % 16), Nat.digitChar (n % 16)]

/-- One character of a JSON string, as written with `ensure_ascii=False`. -/
def escapeChar (c : Char) : Text :=
  if c = '"' then ['\\', '"']
  else if c = '\\' then ['\\', '\\']
  else if c = '\n' then ['\\', 'n']
  else if c = '\r' then ['\\', 'r']
  else if c = '\t' then ['\\', 't']
  else if c.toNat = 12 then ['\\', 'f']
  else if c.toNat = 8 then ['\\', 'b']
  else if c.toNat < 32 then ['\\', 'u', '0', '0'] ++ hexDigits c.toNat
  else [c]

def dumpString (s : Text) : Text := '"' :: s.flatMap escapeChar ++ ['"']

mutual

/-- `json.dumps(value, ensure_ascii=False, separators=(",", ":"))`. -/
def dumps : Json → Text
  | .null => ['n', 'u', 'l', 'l']
  | .bool true => ['t', 'r', 'u', 'e']
  | .bool false => ['f', 'a', 'l', 's', 'e']
  | .int n => intRepr n
  | .float x => x.repr
  | .str s => dumpString s
  | .arr items => '[' :: dumpItems items ++ [']']
  | .obj fields => '{' :: dumpFields fields ++ ['}']

def dumpItems : List Json → Text
  | [] => []
  | x :: xs => dumps x ++ dumpMoreItems xs

def dumpMoreItems : List Json → Text
  | [] => []
  | x :: xs => ',' :: dumps x ++ dumpMoreItems xs

def dumpFields : List (Text × Json) → Text
  | [] => []
  | (k, x) :: xs => dumpString k ++ ':' :: dumps x ++ dumpMoreFields xs

def dumpMoreFields : List (Text × Json) → Text
  | [] => []
  | (k, x) :: xs => ',' :: dumpString k ++ ':' :: dumps x ++ dumpMoreFields xs

end

def sortByKey (fields : Fields) : Fields := fields.insertionSort fun a b ↦ leText a.1 b.1

mutual

/-- The value with the keys of each of its objects in code point order, as
`sort_keys=True` writes them. -/
def canonical : Json → Json
  | .arr items => .arr (canonicalItems items)
  | .obj fields => .obj (sortByKey (canonicalFields fields))
  | .null => .null
  | .bool b => .bool b
  | .int n => .int n
  | .float x => .float x
  | .str s => .str s

def canonicalItems : List Json → List Json
  | [] => []
  | x :: xs => canonical x :: canonicalItems xs

def canonicalFields : List (Text × Json) → List (Text × Json)
  | [] => []
  | (k, x) :: xs => (k, canonical x) :: canonicalFields xs

end

theorem canonicalItems_eq_map (items : List Json) : canonicalItems items = items.map canonical := by
  induction items with
  | nil => rfl
  | cons x xs ih => simp [canonicalItems, ih]

theorem natRepr_injective {m n : ℕ} (h : natRepr m = natRepr n) : m = n := by
  have h' := congrArg (fun l ↦ Nat.ofDigitChars 10 l 0) h
  simpa only [natRepr, Nat.ofDigitChars_ten_toDigits] using h'

theorem natRepr_isDigit {n : ℕ} {c : Char} (h : c ∈ natRepr n) : c.isDigit = true :=
  Nat.isDigit_of_mem_toDigits (by decide) (by decide) h

theorem intRepr_injective {m n : ℤ} (h : intRepr m = intRepr n) : m = n := by
  have hd (k : ℕ) (l : Text) : natRepr k ≠ '-' :: l := by
    intro hk
    have := natRepr_isDigit (n := k) (c := '-') (by rw [hk]; simp)
    exact absurd this (by decide)
  cases m with
  | ofNat m =>
    cases n with
    | ofNat n => rw [natRepr_injective (show natRepr m = natRepr n from h)]
    | negSucc n => exact absurd h (hd _ _)
  | negSucc m =>
    cases n with
    | ofNat n => exact absurd h.symm (hd _ _)
    | negSucc n =>
      have h' : natRepr (m + 1) = natRepr (n + 1) := (List.cons.inj h).2
      rw [Nat.succ_injective (natRepr_injective h')]

theorem intRepr_numeric {n : ℤ} {c : Char} (h : c ∈ intRepr n) :
    isNumberChar c = true ∧ isFloatMark c = false := by
  have hdigit : ∀ d : Char, d.isDigit = true → isNumberChar d = true ∧ isFloatMark d = false := by
    intro d hd
    refine ⟨by simp [isNumberChar, hd], ?_⟩
    simp only [isFloatMark, Bool.or_eq_false_iff, beq_eq_false_iff_ne, ne_eq]
    exact ⟨by rintro rfl; exact absurd hd (by decide), by rintro rfl; exact absurd hd (by decide)⟩
  cases n with
  | ofNat n => exact hdigit c (natRepr_isDigit h)
  | negSucc n =>
    rcases List.mem_cons.mp h with rfl | h
    · decide
    · exact hdigit c (natRepr_isDigit h)

/-- What may follow a value inside an array or an object, or at the end. -/
def Delimited (r : Text) : Prop := ∀ c ∈ r.head?, c = ',' ∨ c = ']' ∨ c = '}'

theorem delimited_nil : Delimited [] := by simp [Delimited]

theorem Delimited.cons {c : Char} (h : c = ',' ∨ c = ']' ∨ c = '}') (r : Text) :
    Delimited (c :: r) := by
  intro d hd
  simp only [List.head?_cons, Option.mem_def, Option.some.injEq] at hd
  exact hd ▸ h

theorem number_append_inj {a b r s : Text} (ha : ∀ c ∈ a, isNumberChar c = true)
    (hb : ∀ c ∈ b, isNumberChar c = true) (hr : Delimited r) (hs : Delimited s)
    (h : a ++ r = b ++ s) : a = b ∧ r = s := by
  have stop : ∀ t, Delimited t → t.takeWhile isNumberChar = [] := by
    intro t ht
    cases t with
    | nil => rfl
    | cons c t =>
      have hc := ht c (by simp)
      have : isNumberChar c = false := by rcases hc with rfl | rfl | rfl <;> decide
      simp [this]
  have hab : a = b := by
    have h' := congrArg (List.takeWhile isNumberChar) h
    rwa [List.takeWhile_append_of_pos ha, List.takeWhile_append_of_pos hb, stop r hr, stop s hs,
      List.append_nil, List.append_nil] at h'
  subst hab
  exact ⟨rfl, List.append_cancel_left h⟩

def hexValue (c : Char) : ℕ := if c.isDigit then c.toNat - 48 else c.toNat - 87

def readChar : Text → Option (Char × Text)
  | [] => none
  | '\\' :: 'u' :: '0' :: '0' :: a :: b :: r =>
    some (Char.ofNat (16 * hexValue a + hexValue b), r)
  | '\\' :: 'n' :: r => some ('\n', r)
  | '\\' :: 'r' :: r => some ('\r', r)
  | '\\' :: 't' :: r => some ('\t', r)
  | '\\' :: 'f' :: r => some (Char.ofNat 12, r)
  | '\\' :: 'b' :: r => some (Char.ofNat 8, r)
  | '\\' :: c :: r => some (c, r)
  | c :: r => some (c, r)

theorem hexValue_digitChar {k : ℕ} (h : k < 16) : hexValue (Nat.digitChar k) = k := by
  have : ∀ k < 16, hexValue (Nat.digitChar k) = k := by decide
  exact this k h

theorem readChar_escapeChar (c : Char) (x : Text) :
    readChar (escapeChar c ++ x) = some (c, x) := by
  have named : ∀ k : ℕ, c.toNat = k → c = Char.ofNat k := fun k hk ↦ by rw [← hk, Char.ofNat_toNat]
  unfold escapeChar
  split_ifs with h1 h2 h3 h4 h5 h6 h7 h8
  · subst h1; rfl
  · subst h2; rfl
  · subst h3; rfl
  · subst h4; rfl
  · subst h5; rfl
  · rw [named 12 h6]; rfl
  · rw [named 8 h7]; rfl
  · have hh : 16 * (c.toNat / 16 % 16) + c.toNat % 16 = c.toNat := by omega
    simp only [hexDigits, List.cons_append, List.nil_append, readChar,
      hexValue_digitChar (Nat.mod_lt _ (by decide : 16 > 0)), hh, Char.ofNat_toNat]
  · simp only [List.cons_append, List.nil_append]
    unfold readChar
    split <;> simp_all

theorem escapeChar_append_inj {c d : Char} {x y : Text}
    (h : escapeChar c ++ x = escapeChar d ++ y) : c = d ∧ x = y := by
  have h' := congrArg readChar h
  simpa only [readChar_escapeChar, Option.some.injEq, Prod.mk.injEq] using h'

theorem escapeChar_ne_quote (c : Char) (x y : Text) : escapeChar c ++ x ≠ '"' :: y := by
  intro h
  unfold escapeChar at h
  split_ifs at h <;> simp_all

theorem dumpString_append_inj {s t r u : Text} (h : dumpString s ++ r = dumpString t ++ u) :
    s = t ∧ r = u := by
  simp only [dumpString, List.cons_append, List.append_assoc, List.nil_append, List.cons.injEq,
    true_and] at h
  induction s generalizing t with
  | nil =>
    cases t with
    | nil => exact ⟨rfl, (List.cons.inj h).2⟩
    | cons d t =>
      simp only [List.flatMap_nil, List.nil_append, List.flatMap_cons, List.append_assoc] at h
      exact absurd h.symm (escapeChar_ne_quote d _ _)
  | cons c s ih =>
    cases t with
    | nil =>
      simp only [List.flatMap_nil, List.nil_append, List.flatMap_cons, List.append_assoc] at h
      exact absurd h (escapeChar_ne_quote c _ _)
    | cons d t =>
      simp only [List.flatMap_cons, List.append_assoc] at h
      obtain ⟨rfl, h'⟩ := escapeChar_append_inj h
      obtain ⟨rfl, hr⟩ := ih h'
      exact ⟨rfl, hr⟩

/-- The kind of value a serialisation starting with this character is of. -/
def leadKind (c : Char) : ℕ :=
  if c = 'n' then 0 else if c = 't' then 1 else if c = 'f' then 2
  else if isNumberChar c then 3 else if c = '"' then 4 else if c = '[' then 5
  else if c = '{' then 6 else 7

def kind : Json → ℕ
  | .null => 0
  | .bool true => 1
  | .bool false => 2
  | .int _ => 3
  | .float _ => 3
  | .str _ => 4
  | .arr _ => 5
  | .obj _ => 6

theorem intRepr_ne_nil (n : ℤ) : intRepr n ≠ [] := by
  cases n with
  | ofNat n => exact Nat.toDigits_ne_nil
  | negSucc n => simp [intRepr]

theorem FloatRepr.repr_ne_nil (x : FloatRepr) : x.repr ≠ [] := by
  intro h
  have := x.marked
  simp [h] at this

theorem leadKind_number {c : Char} (h : isNumberChar c = true) : leadKind c = 3 := by
  unfold leadKind
  split_ifs with h1 h2 h3
  · subst h1; exact absurd h (by decide)
  · subst h2; exact absurd h (by decide)
  · subst h3; exact absurd h (by decide)
  · rfl

theorem dumps_lead (j : Json) (r : Text) : (dumps j ++ r).head?.map leadKind = some (kind j) := by
  have number : ∀ t : Text, t ≠ [] → (∀ c ∈ t, isNumberChar c = true) →
      (t ++ r).head?.map leadKind = some 3 := by
    intro t ht hc
    obtain ⟨c, t, rfl⟩ := List.exists_cons_of_ne_nil ht
    simp [leadKind_number (hc c (by simp))]
  match j with
  | .null => rfl
  | .bool true => rfl
  | .bool false => rfl
  | .int n =>
    simp only [dumps, kind]
    exact number _ (intRepr_ne_nil n) (fun c hc ↦ (intRepr_numeric hc).1)
  | .float x =>
    simp only [dumps, kind]
    exact number _ x.repr_ne_nil (List.all_eq_true.mp x.numeric)
  | .str _ => rfl
  | .arr _ => rfl
  | .obj _ => rfl

theorem dumpMoreItems_delimited (items : List Json) (r : Text) :
    Delimited (dumpMoreItems items ++ ']' :: r) := by
  cases items with
  | nil => exact .cons (by simp) r
  | cons x xs => exact .cons (by simp) _

theorem dumpMoreFields_delimited (fields : Fields) (r : Text) :
    Delimited (dumpMoreFields fields ++ '}' :: r) := by
  cases fields with
  | nil => exact .cons (by simp) r
  | cons x xs => exact .cons (by simp) _

theorem kind_eq_of_append {a b : Json} {r s : Text} (h : dumps a ++ r = dumps b ++ s) :
    kind a = kind b := by
  have := dumps_lead a r
  rw [h, dumps_lead b s] at this
  exact (Option.some.inj this).symm

theorem number_inj {a b : Json} (ha : kind a = 3) (hb : kind b = 3) (h : dumps a = dumps b) :
    a = b := by
  have clash : ∀ (n : ℤ) (x : FloatRepr), intRepr n ≠ x.repr := by
    intro n x hx
    obtain ⟨c, hc, hm⟩ := List.any_eq_true.mp x.marked
    rw [← hx] at hc
    rw [(intRepr_numeric hc).2] at hm
    cases hm
  match a, b with
  | .int m, .int n => exact congrArg Json.int (intRepr_injective (by simpa [dumps] using h))
  | .int m, .float y => exact absurd (by simpa [dumps] using h) (clash m y)
  | .float x, .int n => exact absurd (by simpa [dumps] using h.symm) (clash n x)
  | .float x, .float y =>
    have hxy : x.repr = y.repr := by simpa [dumps] using h
    cases x; cases y; cases hxy; rfl

theorem dumps_numeric {a : Json} (ha : kind a = 3) : ∀ c ∈ dumps a, isNumberChar c = true := by
  match a with
  | .int n => exact fun c hc ↦ (intRepr_numeric (by simpa [dumps] using hc)).1
  | .float x => exact fun c hc ↦ List.all_eq_true.mp x.numeric c (by simpa [dumps] using hc)

mutual

/-- A value is determined by its serialisation, whatever follows it. -/
theorem dumps_append_inj : ∀ (a b : Json) (r s : Text), Delimited r → Delimited s →
    dumps a ++ r = dumps b ++ s → a = b ∧ r = s
  | .null, b, r, s, _, _, h => by
    have hk := kind_eq_of_append h
    match b with
    | .null => exact ⟨rfl, List.append_cancel_left h⟩
  | .bool true, b, r, s, _, _, h => by
    have hk := kind_eq_of_append h
    match b with
    | .bool true => exact ⟨rfl, List.append_cancel_left h⟩
  | .bool false, b, r, s, _, _, h => by
    have hk := kind_eq_of_append h
    match b with
    | .bool false => exact ⟨rfl, List.append_cancel_left h⟩
  | .int n, b, r, s, hr, hs, h => by
    have hk := kind_eq_of_append h
    obtain ⟨hab, hrs⟩ := number_append_inj (dumps_numeric rfl) (dumps_numeric hk.symm) hr hs h
    exact ⟨number_inj rfl hk.symm hab, hrs⟩
  | .float x, b, r, s, hr, hs, h => by
    have hk := kind_eq_of_append h
    obtain ⟨hab, hrs⟩ := number_append_inj (dumps_numeric rfl) (dumps_numeric hk.symm) hr hs h
    exact ⟨number_inj rfl hk.symm hab, hrs⟩
  | .str t, b, r, s, _, _, h => by
    have hk := kind_eq_of_append h
    match b with
    | .str u =>
      obtain ⟨rfl, hrs⟩ := dumpString_append_inj (by simpa only [dumps] using h)
      exact ⟨rfl, hrs⟩
  | .arr xs, b, r, s, _, _, h => by
    have hk := kind_eq_of_append h
    match b with
    | .arr ys =>
      simp only [dumps, List.cons_append, List.append_assoc, List.nil_append, List.cons.injEq,
        true_and] at h
      obtain ⟨rfl, hrs⟩ := dumpItems_append_inj xs ys r s h
      exact ⟨rfl, hrs⟩
  | .obj xs, b, r, s, _, _, h => by
    have hk := kind_eq_of_append h
    match b with
    | .obj ys =>
      simp only [dumps, List.cons_append, List.append_assoc, List.nil_append, List.cons.injEq,
        true_and] at h
      obtain ⟨rfl, hrs⟩ := dumpFields_append_inj xs ys r s h
      exact ⟨rfl, hrs⟩

theorem dumpItems_append_inj : ∀ (xs ys : List Json) (r s : Text),
    dumpItems xs ++ ']' :: r = dumpItems ys ++ ']' :: s → xs = ys ∧ r = s
  | [], [], r, s, h => ⟨rfl, (List.cons.inj h).2⟩
  | [], y :: ys, r, s, h => by
    have hl := dumps_lead y (dumpMoreItems ys ++ ']' :: s)
    rw [dumpItems, dumpItems, List.append_assoc, List.nil_append] at h
    rw [← h] at hl
    cases y <;> first | cases hl | (rename_i b; cases b <;> cases hl)
  | x :: xs, [], r, s, h => by
    have hl := dumps_lead x (dumpMoreItems xs ++ ']' :: r)
    rw [dumpItems, dumpItems, List.append_assoc, List.nil_append] at h
    rw [h] at hl
    cases x <;> first | cases hl | (rename_i b; cases b <;> cases hl)
  | x :: xs, y :: ys, r, s, h => by
    rw [dumpItems, dumpItems, List.append_assoc, List.append_assoc] at h
    obtain ⟨rfl, h'⟩ := dumps_append_inj x y _ _ (dumpMoreItems_delimited xs r)
      (dumpMoreItems_delimited ys s) h
    obtain ⟨rfl, hrs⟩ := dumpMoreItems_append_inj xs ys r s h'
    exact ⟨rfl, hrs⟩

theorem dumpMoreItems_append_inj : ∀ (xs ys : List Json) (r s : Text),
    dumpMoreItems xs ++ ']' :: r = dumpMoreItems ys ++ ']' :: s → xs = ys ∧ r = s
  | [], [], r, s, h => ⟨rfl, (List.cons.inj h).2⟩
  | [], y :: ys, r, s, h => by simp [dumpMoreItems] at h
  | x :: xs, [], r, s, h => by simp [dumpMoreItems] at h
  | x :: xs, y :: ys, r, s, h => by
    simp only [dumpMoreItems, List.cons_append, List.append_assoc, List.cons.injEq, true_and] at h
    obtain ⟨rfl, h'⟩ := dumps_append_inj x y _ _ (dumpMoreItems_delimited xs r)
      (dumpMoreItems_delimited ys s) h
    obtain ⟨rfl, hrs⟩ := dumpMoreItems_append_inj xs ys r s h'
    exact ⟨rfl, hrs⟩

theorem dumpFields_append_inj : ∀ (xs ys : List (Text × Json)) (r s : Text),
    dumpFields xs ++ '}' :: r = dumpFields ys ++ '}' :: s → xs = ys ∧ r = s
  | [], [], r, s, h => ⟨rfl, (List.cons.inj h).2⟩
  | [], (k, y) :: ys, r, s, h => by simp [dumpFields, dumpString] at h
  | (k, x) :: xs, [], r, s, h => by simp [dumpFields, dumpString] at h
  | (k, x) :: xs, (l, y) :: ys, r, s, h => by
    simp only [dumpFields, List.append_assoc, List.cons_append] at h
    obtain ⟨rfl, hv⟩ := dumpString_append_inj h
    obtain ⟨rfl, h'⟩ := dumps_append_inj x y _ _ (dumpMoreFields_delimited xs r)
      (dumpMoreFields_delimited ys s) (List.cons.inj hv).2
    obtain ⟨rfl, hrs⟩ := dumpMoreFields_append_inj xs ys r s h'
    exact ⟨rfl, hrs⟩

theorem dumpMoreFields_append_inj : ∀ (xs ys : List (Text × Json)) (r s : Text),
    dumpMoreFields xs ++ '}' :: r = dumpMoreFields ys ++ '}' :: s → xs = ys ∧ r = s
  | [], [], r, s, h => ⟨rfl, (List.cons.inj h).2⟩
  | [], (k, y) :: ys, r, s, h => by simp [dumpMoreFields] at h
  | (k, x) :: xs, [], r, s, h => by simp [dumpMoreFields] at h
  | (k, x) :: xs, (l, y) :: ys, r, s, h => by
    simp only [dumpMoreFields, List.append_assoc, List.cons_append, List.cons.injEq, true_and] at h
    obtain ⟨rfl, hv⟩ := dumpString_append_inj h
    obtain ⟨rfl, h'⟩ := dumps_append_inj x y _ _ (dumpMoreFields_delimited xs r)
      (dumpMoreFields_delimited ys s) (List.cons.inj hv).2
    obtain ⟨rfl, hrs⟩ := dumpMoreFields_append_inj xs ys r s h'
    exact ⟨rfl, hrs⟩

end

theorem dumps_injective {a b : Json} (h : dumps a = dumps b) : a = b :=
  (dumps_append_inj a b [] [] delimited_nil delimited_nil (by simpa using h)).1

def Printable (s : Text) : Prop := ∀ c ∈ s, 32 ≤ c.toNat

instance : DecidablePred Printable := fun s ↦ List.decidableBAll (fun c : Char ↦ 32 ≤ c.toNat) s

theorem Printable.append {s t : Text} (hs : Printable s) (ht : Printable t) :
    Printable (s ++ t) := by
  intro c hc
  rcases List.mem_append.mp hc with hc | hc
  · exact hs c hc
  · exact ht c hc

theorem Printable.cons {c : Char} (hc : 32 ≤ c.toNat) {s : Text} (hs : Printable s) :
    Printable (c :: s) := by
  intro d hd
  rcases List.mem_cons.mp hd with rfl | hd
  · exact hc
  · exact hs d hd

theorem Printable.of_numeric {s : Text} (h : ∀ c ∈ s, isNumberChar c = true) : Printable s := by
  intro c hc
  have hn := h c hc
  simp only [isNumberChar, Char.isDigit, Bool.or_eq_true, Bool.and_eq_true, decide_eq_true_eq,
    beq_iff_eq] at hn
  rcases hn with (((⟨hlow, -⟩ | rfl) | rfl) | rfl) | rfl
  · have hlow' : (48 : UInt32).toNat ≤ c.val.toNat := UInt32.le_iff_toNat_le.mp hlow
    change 32 ≤ c.val.toNat
    exact le_trans (by decide) hlow'
  all_goals decide

theorem escapeChar_printable (c : Char) : Printable (escapeChar c) := by
  have hdigit : ∀ k < 16, 32 ≤ (Nat.digitChar k).toNat := by decide
  unfold escapeChar
  split_ifs with h1 h2 h3 h4 h5 h6 h7 h8
  · simp [Printable]
  · simp [Printable]
  · simp [Printable]
  · simp [Printable]
  · simp [Printable]
  · simp [Printable]
  · simp [Printable]
  · refine Printable.append (by simp [Printable]) ?_
    have hhigh := hdigit (c.toNat / 16 % 16) (Nat.mod_lt _ (by decide))
    have hlow := hdigit (c.toNat % 16) (Nat.mod_lt _ (by decide))
    exact .cons hhigh (.cons hlow (by simp [Printable]))
  · exact .cons (Nat.le_of_not_lt h8) (by simp [Printable])

theorem dumpString_printable (s : Text) : Printable (dumpString s) := by
  have hbody : Printable (s.flatMap escapeChar) := by
    intro c hc
    obtain ⟨d, -, hd⟩ := List.mem_flatMap.mp hc
    exact escapeChar_printable d c hd
  exact .append (.cons (by decide) hbody) (.cons (by decide) (by simp [Printable]))

mutual

theorem dumps_printable : ∀ j : Json, Printable (dumps j)
  | .null => by simp [Printable, dumps]
  | .bool true => by simp [Printable, dumps]
  | .bool false => by simp [Printable, dumps]
  | .int n => .of_numeric (dumps_numeric (a := .int n) rfl)
  | .float x => .of_numeric (dumps_numeric (a := .float x) rfl)
  | .str s => dumpString_printable s
  | .arr items => .append (.cons (by decide) (dumpItems_printable items)) (by simp [Printable])
  | .obj fields => .append (.cons (by decide) (dumpFields_printable fields)) (by simp [Printable])

theorem dumpItems_printable : ∀ items : List Json, Printable (dumpItems items)
  | [] => by simp [Printable, dumpItems]
  | x :: xs => .append (dumps_printable x) (dumpMoreItems_printable xs)

theorem dumpMoreItems_printable : ∀ items : List Json, Printable (dumpMoreItems items)
  | [] => by simp [Printable, dumpMoreItems]
  | x :: xs => .append (.cons (by decide) (dumps_printable x)) (dumpMoreItems_printable xs)

theorem dumpFields_printable : ∀ fields : List (Text × Json), Printable (dumpFields fields)
  | [] => by simp [Printable, dumpFields]
  | (k, x) :: xs =>
    .append (.append (dumpString_printable k) (.cons (by decide) (dumps_printable x)))
      (dumpMoreFields_printable xs)

theorem dumpMoreFields_printable : ∀ fields : List (Text × Json), Printable (dumpMoreFields fields)
  | [] => by simp [Printable, dumpMoreFields]
  | (k, x) :: xs => .append (.append (.cons (by decide) (dumpString_printable k))
      (.cons (by decide) (dumps_printable x))) (dumpMoreFields_printable xs)

end

end LearningTasks.Library.Serialization
