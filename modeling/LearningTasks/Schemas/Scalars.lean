import LearningTasks.Library.Records

namespace LearningTasks.Schemas.Scalars

open Library.Strings Library.Serialization Library.Records

structure UUID where
  value : ℕ
  bound : value < 2 ^ 128
  deriving DecidableEq

theorem UUID.eq_of_value {u v : UUID} (h : u.value = v.value) : u = v := by
  cases u
  cases v
  cases h
  rfl

/-- The texts that PostgreSQL takes: its text columns do not hold the NUL character. -/
def storable (s : Text) : Bool := '\x00' ∉ s

def padded (width : ℕ) (digits : Text) : Text :=
  List.replicate (width - digits.length) '0' ++ digits

def UUID.text (u : UUID) : Text :=
  let h := padded 32 (Nat.toDigits 16 u.value)
  h.take 8 ++ '-' :: ((h.drop 8).take 4 ++ '-' :: ((h.drop 12).take 4 ++ '-' ::
    ((h.drop 16).take 4 ++ '-' :: h.drop 20)))

def daysInMonth (year month : ℕ) : ℕ :=
  if month = 2 then
    if year % 4 = 0 ∧ (year % 100 ≠ 0 ∨ year % 400 = 0) then 29 else 28
  else if month ∈ [4, 6, 9, 11] then 30 else 31

structure Date where
  year : ℕ
  month : ℕ
  day : ℕ
  valid : (1 ≤ year ∧ year ≤ 9999) ∧ (1 ≤ month ∧ month ≤ 12) ∧
    (1 ≤ day ∧ day ≤ daysInMonth year month)
  deriving DecidableEq

/-- An instant in UTC, to the microsecond. -/
structure Datetime where
  date : Date
  micros : ℕ
  valid : micros < 86400000000
  deriving DecidableEq

def Date.ordinal (d : Date) : ℕ := (d.year * 13 + d.month) * 32 + d.day

def Datetime.ordinal (t : Datetime) : ℕ := t.date.ordinal * 86400000000 + t.micros

instance : LT Datetime := ⟨fun s t ↦ s.ordinal < t.ordinal⟩

instance (s t : Datetime) : Decidable (s < t) := inferInstanceAs (Decidable (s.ordinal < t.ordinal))

def Date.midnight (d : Date) : Datetime := ⟨d, 0, by decide⟩

def Date.iso (d : Date) : Text :=
  padded 4 (natRepr d.year) ++ '-' :: (padded 2 (natRepr d.month) ++ '-' :: padded 2 (natRepr d.day))

def Datetime.iso (t : Datetime) : Text :=
  let seconds := t.micros / 1000000
  let fraction := t.micros % 1000000
  t.date.iso ++ 'T' :: (padded 2 (natRepr (seconds / 3600)) ++ ':' ::
    (padded 2 (natRepr (seconds / 60 % 60)) ++ ':' :: padded 2 (natRepr (seconds % 60)))) ++
    (if fraction = 0 then [] else '.' :: padded 6 (natRepr fraction)) ++ ['Z']

inductive ParsedDatetime
  | naive
  | aware (t : Datetime)

/-- The readings of scalar fields from a JSON value that pydantic performs.
Nothing is assumed of them but that they read back what it writes. -/
structure Coercions where
  uuid : Json → Option UUID
  date : Json → Option Date
  datetime : Json → Option ParsedDatetime
  int : Json → Option ℤ
  uuid_text : ∀ u : UUID, uuid (.str u.text) = some u
  date_iso : ∀ d : Date, date (.str d.iso) = some d
  datetime_iso : ∀ t : Datetime, datetime (.str t.iso) = some (.aware t)
  int_int : ∀ n : ℤ, int (.int n) = some n

/-- An aware datetime; the `_utc` validators reject the naive ones. -/
def Coercions.utc (c : Coercions) (j : Json) : Option Datetime :=
  match c.datetime j with
  | some (.aware t) => some t
  | _ => none

def hexRead (s : Text) : ℕ := s.foldl (fun n c ↦ 16 * n + hexValue c) 0

theorem Coercions.utc_iso (c : Coercions) (t : Datetime) : c.utc (.str t.iso) = some t := by
  rw [Coercions.utc, c.datetime_iso]

theorem hexRead_toDigits (n : ℕ) : hexRead (Nat.toDigits 16 n) = n := by
  induction n using Nat.strong_induction_on with
  | _ n ih =>
    by_cases h : n < 16
    · rw [Nat.toDigits_of_lt_base h]
      simp [hexRead, hexValue_digitChar h]
    · have hd : n % 16 < 16 := Nat.mod_lt _ (by decide)
      rw [Nat.toDigits_of_base_le (by decide) (by omega)]
      have hr := ih (n / 16) (by omega)
      unfold hexRead at hr ⊢
      rw [List.foldl_append, hr]
      simp only [List.foldl_cons, List.foldl_nil, hexValue_digitChar hd]
      omega

theorem hexRead_padded (width : ℕ) (s : Text) : hexRead (padded width s) = hexRead s := by
  have hz (k : ℕ) : (List.replicate k '0').foldl (fun n c ↦ 16 * n + hexValue c) 0 = 0 := by
    induction k with
    | zero => rfl
    | succ k ih => exact ih
  rw [padded, hexRead, List.foldl_append, hz, hexRead]

def readDigits (s : Text) : ℕ := Nat.ofDigitChars 10 s 0

theorem readDigits_padded (width n : ℕ) : readDigits (padded width (natRepr n)) = n := by
  simp only [readDigits, padded, natRepr, Nat.ofDigitChars_append,
    Nat.ofDigitChars_replicate_zero, mul_zero, Nat.ofDigitChars_ten_toDigits]

theorem length_padded_natRepr {w n : ℕ} (hw : 0 < w) (h : n < 10 ^ w) :
    (padded w (natRepr n)).length = w := by
  have := (Nat.length_toDigits_le_iff (b := 10) (n := n) (k := w) (by decide) hw).mpr h
  simp only [padded, natRepr, List.length_append, List.length_replicate]
  omega

theorem padded_natRepr_injective {width m n : ℕ}
    (h : padded width (natRepr m) = padded width (natRepr n)) : m = n := by
  simpa only [readDigits_padded] using congrArg readDigits h

theorem hex_length (u : UUID) : (padded 32 (Nat.toDigits 16 u.value)).length = 32 := by
  have := (Nat.length_toDigits_le_iff (b := 16) (n := u.value) (k := 32) (by decide)
    (by decide)).mpr (by simpa using u.bound)
  simp only [padded, List.length_append, List.length_replicate]
  omega

theorem UUID.length_text (u : UUID) : u.text.length = 36 := by
  have := hex_length u
  simp only [UUID.text, List.length_append, List.length_take, List.length_drop, List.length_cons]
  omega

theorem take_drop_inj {k : ℕ} {a b r s : Text} (hab : a.length = b.length)
    (h : a.take k ++ '-' :: r = b.take k ++ '-' :: s) : a.take k = b.take k ∧ r = s := by
  obtain ⟨ht, hr⟩ := List.append_inj h (by simp [hab])
  exact ⟨ht, (List.cons.inj hr).2⟩

theorem UUID.text_injective {u v : UUID} (h : u.text = v.text) : u = v := by
  have hp : padded 32 (Nat.toDigits 16 u.value) = padded 32 (Nat.toDigits 16 v.value) := by
    have hlen := (hex_length u).trans (hex_length v).symm
    unfold UUID.text at h
    generalize padded 32 (Nat.toDigits 16 u.value) = a at h hlen
    generalize padded 32 (Nat.toDigits 16 v.value) = b at h hlen
    obtain ⟨h1, h⟩ := take_drop_inj hlen h
    obtain ⟨h2, h⟩ := take_drop_inj (by simp [hlen]) h
    obtain ⟨h3, h⟩ := take_drop_inj (by simp [hlen]) h
    obtain ⟨h4, h⟩ := take_drop_inj (by simp [hlen]) h
    have h16 : a.drop 16 = b.drop 16 := by
      rw [← List.take_append_drop 4 (a.drop 16), ← List.take_append_drop 4 (b.drop 16), h4,
        List.drop_drop, List.drop_drop, h]
    have h12 : a.drop 12 = b.drop 12 := by
      rw [← List.take_append_drop 4 (a.drop 12), ← List.take_append_drop 4 (b.drop 12), h3,
        List.drop_drop, List.drop_drop, h16]
    have h8 : a.drop 8 = b.drop 8 := by
      rw [← List.take_append_drop 4 (a.drop 8), ← List.take_append_drop 4 (b.drop 8), h2,
        List.drop_drop, List.drop_drop, h12]
    rw [← List.take_append_drop 8 a, ← List.take_append_drop 8 b, h1, h8]
  have hv := congrArg hexRead hp
  rw [hexRead_padded, hexRead_padded, hexRead_toDigits, hexRead_toDigits] at hv
  cases u; cases v; cases hv; rfl

theorem UUID.text_append_inj {u v : UUID} {s t : Text} (h : u.text ++ s = v.text ++ t) : u = v :=
  UUID.text_injective (List.append_inj_left h (by rw [u.length_text, v.length_text]))

def readUUID (s : Text) : Option UUID :=
  let n := hexRead (s.filter (· != '-'))
  if h : n < 2 ^ 128 then if UUID.text ⟨n, h⟩ = s then some ⟨n, h⟩ else none else none

def readDate (s : Text) : Option Date :=
  let year := readDigits (s.take 4)
  let month := readDigits ((s.drop 5).take 2)
  let day := readDigits ((s.drop 8).take 2)
  if h : (1 ≤ year ∧ year ≤ 9999) ∧ (1 ≤ month ∧ month ≤ 12) ∧
      (1 ≤ day ∧ day ≤ daysInMonth year month) then
    if Date.iso ⟨year, month, day, h⟩ = s then some ⟨year, month, day, h⟩ else none
  else none

def readDatetime (s : Text) : Option Datetime :=
  (readDate (s.take 10)).bind fun date ↦
    let seconds := (readDigits ((s.drop 11).take 2) * 60 + readDigits ((s.drop 14).take 2)) * 60 +
      readDigits ((s.drop 17).take 2)
    let fraction := if (s.drop 19).length = 1 then 0 else readDigits ((s.drop 20).take 6)
    let micros := seconds * 1000000 + fraction
    if h : micros < 86400000000 then
      if Datetime.iso ⟨date, micros, h⟩ = s then some ⟨date, micros, h⟩ else none
    else none

theorem filter_hex {s : Text} (h : ∀ c ∈ s, c ≠ '-') : s.filter (· != '-') = s :=
  List.filter_eq_self.mpr fun c hc ↦ by simpa using h c hc

theorem digit_of_mem_toDigits (n : ℕ) : ∀ c ∈ Nat.toDigits 16 n, ∃ k < 16, c = Nat.digitChar k := by
  induction n using Nat.strong_induction_on with
  | _ n ih =>
    by_cases h : n < 16
    · rw [Nat.toDigits_of_lt_base h]
      intro c hc
      exact ⟨n, h, List.mem_singleton.mp hc⟩
    · rw [Nat.toDigits_of_base_le (by decide) (by omega)]
      intro c hc
      rcases List.mem_append.mp hc with hc | hc
      · exact ih (n / 16) (by omega) c hc
      · exact ⟨n % 16, Nat.mod_lt _ (by decide), List.mem_singleton.mp hc⟩

theorem digitChar_ne_hyphen : ∀ k < 16, Nat.digitChar k ≠ '-' := by decide

theorem toDigits_ne_hyphen (n : ℕ) : ∀ c ∈ Nat.toDigits 16 n, c ≠ '-' := by
  intro c hc
  obtain ⟨k, hk, rfl⟩ := digit_of_mem_toDigits n c hc
  exact digitChar_ne_hyphen k hk

theorem UUID.mem_text {u : UUID} {c : Char} (h : c ∈ u.text) :
    c = '-' ∨ ∃ k < 16, c = Nat.digitChar k := by
  have hpadded : ∀ c ∈ padded 32 (Nat.toDigits 16 u.value), ∃ k < 16, c = Nat.digitChar k := by
    intro c hc
    rcases List.mem_append.mp hc with hc | hc
    · exact ⟨0, by decide, List.eq_of_mem_replicate hc⟩
    · exact digit_of_mem_toDigits _ c hc
  unfold UUID.text at h
  generalize padded 32 (Nat.toDigits 16 u.value) = digits at h hpadded
  have hpart (i k : ℕ) (hc : c ∈ (digits.drop i).take k) : ∃ k < 16, c = Nat.digitChar k :=
    hpadded c (List.mem_of_mem_drop (List.mem_of_mem_take hc))
  simp only [List.mem_append, List.mem_cons] at h
  rcases h with h | rfl | h | rfl | h | rfl | h | rfl | h
  · exact .inr (hpadded c (List.mem_of_mem_take h))
  · exact .inl rfl
  · exact .inr (hpart 8 4 h)
  · exact .inl rfl
  · exact .inr (hpart 12 4 h)
  · exact .inl rfl
  · exact .inr (hpart 16 4 h)
  · exact .inl rfl
  · exact .inr (hpadded c (List.mem_of_mem_drop h))

theorem hexRead_text (u : UUID) : hexRead (u.text.filter (· != '-')) = u.value := by
  have hh : ∀ c ∈ padded 32 (Nat.toDigits 16 u.value), c ≠ '-' := by
    intro c hc
    rcases List.mem_append.mp hc with hc | hc
    · rw [List.eq_of_mem_replicate hc]
      decide
    · exact toDigits_ne_hyphen _ c hc
  have hf : u.text.filter (· != '-') = padded 32 (Nat.toDigits 16 u.value) := by
    unfold UUID.text
    generalize padded 32 (Nat.toDigits 16 u.value) = h at hh ⊢
    have hpart (t : Text) (ht : t ⊆ h) : t.filter (· != '-') = t :=
      filter_hex fun c hc ↦ hh c (ht hc)
    have hdrop (i k : ℕ) : (h.drop i).take k ⊆ h :=
      List.Subset.trans (List.take_subset _ _) (List.drop_subset _ _)
    simp only [List.filter_append, List.filter_cons, bne_self_eq_false, Bool.false_eq_true,
      ↓reduceIte]
    rw [hpart _ (List.take_subset _ _), hpart _ (hdrop 8 4), hpart _ (hdrop 12 4),
      hpart _ (hdrop 16 4), hpart _ (List.drop_subset _ _)]
    have h16 := List.take_append_drop 4 (h.drop 16)
    have h12 := List.take_append_drop 4 (h.drop 12)
    have h8 := List.take_append_drop 4 (h.drop 8)
    rw [List.drop_drop] at h16 h12 h8
    rw [h16, h12, h8, List.take_append_drop]
  rw [hf, hexRead_padded, hexRead_toDigits]

theorem readUUID_text (u : UUID) : readUUID u.text = some u := by
  simp only [readUUID, hexRead_text]
  rw [dif_pos u.bound, if_pos trivial]

theorem pow_bounds (d : Date) : d.year < 10 ^ 4 ∧ d.month < 10 ^ 2 ∧ d.day < 10 ^ 2 := by
  have hd : daysInMonth d.year d.month ≤ 31 := by
    unfold daysInMonth
    split_ifs <;> decide
  have := d.valid
  omega

theorem Date.length_iso (d : Date) : d.iso.length = 10 := by
  obtain ⟨hy, hm, hd⟩ := pow_bounds d
  simp only [Date.iso, List.length_append, List.length_cons,
    length_padded_natRepr (by decide) hy, length_padded_natRepr (by decide) hm,
    length_padded_natRepr (by decide) hd]

theorem take_append {a b : Text} {n : ℕ} (h : a.length = n) : (a ++ b).take n = a := by
  subst h
  exact List.take_left

theorem drop_append {a b : Text} {n : ℕ} (c : Char) (h : a.length = n) :
    (a ++ c :: b).drop (n + 1) = b := by
  subst h
  rw [List.drop_append, List.drop_eq_nil_of_le (by omega), Nat.add_sub_cancel_left]
  rfl

theorem readDate_iso (d : Date) : readDate d.iso = some d := by
  obtain ⟨hy, hm, hd⟩ := pow_bounds d
  have ly := length_padded_natRepr (by decide) hy
  have lm := length_padded_natRepr (by decide) hm
  have ld := length_padded_natRepr (by decide) hd
  have h0 : d.iso.take 4 = padded 4 (natRepr d.year) := take_append ly
  have h5 : d.iso.drop 5 = padded 2 (natRepr d.month) ++ '-' :: padded 2 (natRepr d.day) :=
    drop_append '-' ly
  have h8 : d.iso.drop 8 = padded 2 (natRepr d.day) := by
    rw [show 8 = 5 + 3 from rfl, ← List.drop_drop, h5]
    exact drop_append '-' lm
  simp only [readDate, h0, h5, h8, take_append lm, List.take_of_length_le ld.le, readDigits_padded]
  rw [dif_pos d.valid, if_pos trivial]

theorem readDatetime_iso (t : Datetime) : readDatetime t.iso = some t := by
  have hv := t.valid
  have ld := t.date.length_iso
  have lh := length_padded_natRepr (w := 2) (n := t.micros / 1000000 / 3600) (by decide)
    (by omega)
  have lm := length_padded_natRepr (w := 2) (n := t.micros / 1000000 / 60 % 60) (by decide)
    (by omega)
  have ls := length_padded_natRepr (w := 2) (n := t.micros / 1000000 % 60) (by decide)
    (by omega)
  have lf := length_padded_natRepr (w := 6) (n := t.micros % 1000000) (by decide) (by omega)
  obtain ⟨tail, htail⟩ : ∃ tail, tail = (if t.micros % 1000000 = 0 then []
    else '.' :: padded 6 (natRepr (t.micros % 1000000))) ++ ['Z'] := ⟨_, rfl⟩
  have hiso : t.iso = t.date.iso ++ 'T' :: (padded 2 (natRepr (t.micros / 1000000 / 3600)) ++
      ':' :: (padded 2 (natRepr (t.micros / 1000000 / 60 % 60)) ++
      ':' :: (padded 2 (natRepr (t.micros / 1000000 % 60)) ++ tail))) := by
    simp [Datetime.iso, htail]
  have h10 : t.iso.take 10 = t.date.iso := by rw [hiso, take_append ld]
  have h11 : t.iso.drop 11 = padded 2 (natRepr (t.micros / 1000000 / 3600)) ++
      ':' :: (padded 2 (natRepr (t.micros / 1000000 / 60 % 60)) ++
      ':' :: (padded 2 (natRepr (t.micros / 1000000 % 60)) ++ tail)) := by
    rw [hiso, drop_append 'T' ld]
  have h14 : t.iso.drop 14 = padded 2 (natRepr (t.micros / 1000000 / 60 % 60)) ++
      ':' :: (padded 2 (natRepr (t.micros / 1000000 % 60)) ++ tail) := by
    rw [show 14 = 11 + 3 from rfl, ← List.drop_drop, h11, drop_append ':' lh]
  have h17 : t.iso.drop 17 = padded 2 (natRepr (t.micros / 1000000 % 60)) ++ tail := by
    rw [show 17 = 14 + 3 from rfl, ← List.drop_drop, h14, drop_append ':' lm]
  have h19 : t.iso.drop 19 = tail := by
    rw [show 19 = 17 + 2 from rfl, ← List.drop_drop, h17, List.drop_left' ls]
  have h20 : t.iso.drop 20 = tail.drop 1 := by
    rw [show 20 = 19 + 1 from rfl, ← List.drop_drop, h19]
  have hf : (if tail.length = 1 then 0 else readDigits ((tail.drop 1).take 6)) =
      t.micros % 1000000 := by
    by_cases h : t.micros % 1000000 = 0
    · simp [htail, h]
    · simp [htail, h, lf, take_append lf, readDigits_padded]
  have hm : ((t.micros / 1000000 / 3600 * 60 + t.micros / 1000000 / 60 % 60) * 60 +
      t.micros / 1000000 % 60) * 1000000 + t.micros % 1000000 = t.micros := by omega
  simp only [readDatetime, h10, readDate_iso, Option.bind_some, h11, h14, h17, h19, h20,
    take_append lh, take_append lm, take_append ls, readDigits_padded, hf, hm]
  rw [dif_pos hv, if_pos trivial]

def readInt : Json → Option ℤ
  | .int n => some n
  | _ => none

def isoCoercions : Coercions where
  uuid j := (readText j).bind readUUID
  date j := (readText j).bind readDate
  datetime j := ((readText j).bind readDatetime).map ParsedDatetime.aware
  int := readInt
  uuid_text u := readUUID_text u
  date_iso d := readDate_iso d
  datetime_iso t := by simp only [readText, Option.bind_some, readDatetime_iso, Option.map_some]
  int_int _ := rfl

def sampleId (n : ℕ) : UUID := ⟨n % 1000, by omega⟩

def sampleDate : Date := ⟨2026, 7, 1, by decide⟩

def sampleInstant (micros : ℕ) : Datetime :=
  ⟨sampleDate, micros % 86400000000, Nat.mod_lt _ (by decide)⟩

end LearningTasks.Schemas.Scalars
