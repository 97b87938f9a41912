import LearningTasks.Agent.SectionProjection

namespace LearningTasks.Agent.TextFitting

open Library.Strings Library.Serialization Library.SerializedLength Library.Bisection PromptBudget
  PromptSections SectionProjection

section

variable {isMark : Char → Bool} {value : Text}

theorem safeCut_le (isMark : Char → Bool) (value : Text) (cut : ℕ) :
    safeCut isMark value cut ≤ cut := by
  induction cut with
  | zero => exact le_rfl
  | succ cut ih =>
    rw [safeCut]
    split_ifs
    · exact ih.trans (Nat.le_succ cut)
    · exact ih.trans (Nat.le_succ cut)
    · exact le_rfl

theorem safeCut_mono (isMark : Char → Bool) (value : Text) :
    Monotone (safeCut isMark value) := by
  refine monotone_nat_of_le_succ fun cut ↦ ?_
  rw [safeCut]
  split_ifs
  · exact le_rfl
  · exact le_rfl
  · exact (safeCut_le isMark value cut).trans (Nat.le_succ cut)

theorem unicodeSafePrefix_starts (n : ℕ) : unicodeSafePrefix isMark value n <+: value := by
  rw [unicodeSafePrefix]
  split_ifs
  · exact List.prefix_rfl
  · exact List.take_prefix _ _

theorem unicodeSafePrefix_length (n : ℕ) : (unicodeSafePrefix isMark value n).length ≤ n := by
  rw [unicodeSafePrefix]
  split_ifs with h
  · exact h
  · exact (List.length_take_le _ _).trans (safeCut_le isMark value n)

theorem unicodeSafePrefix_mono (isMark : Char → Bool) (value : Text) {m n : ℕ} (h : m ≤ n) :
    unicodeSafePrefix isMark value m <+: unicodeSafePrefix isMark value n := by
  by_cases hn : value.length ≤ n
  · have hwhole : unicodeSafePrefix isMark value n = value := if_pos hn
    rw [hwhole]
    exact unicodeSafePrefix_starts m
  · rw [unicodeSafePrefix, unicodeSafePrefix, if_neg hn, if_neg (by omega)]
    exact List.take_prefix_take_left (safeCut_mono isMark value h)

theorem unicodeSafePrefix_of_safe {kept : Text} (h : SafePrefix isMark kept value) :
    unicodeSafePrefix isMark value kept.length = kept := by
  have hkept : value.take kept.length = kept := (List.prefix_iff_eq_take.mp h.starts).symm
  by_cases hwhole : value.length ≤ kept.length
  · rw [unicodeSafePrefix, if_pos hwhole, ← hkept, List.take_of_length_le hwhole]
  · have hcut : safeCut isMark value kept.length = kept.length := by
      cases hlength : kept.length with
      | zero => rfl
      | succ k =>
        have hjoiner : value[k]? ≠ some zeroWidthJoiner := by
          have hlast := h.joiner
          rwa [List.getLast?_eq_getElem?, hlength, Nat.add_sub_cancel, ← hkept, hlength,
            List.getElem?_take_of_lt (Nat.lt_succ_self k)] at hlast
        have hextension : ¬ value[k + 1]?.any (isGraphemeExtension isMark) = true := by
          obtain rfl | hnext := h.extension
          · cases hlength
          · rw [hlength] at hnext
            cases hc : value[k + 1]? with
            | none => exact Bool.false_ne_true
            | some c =>
              rw [Option.any_some, hnext c hc]
              exact Bool.false_ne_true
        rw [safeCut, if_neg hjoiner, if_neg hextension]
    rw [unicodeSafePrefix, if_neg hwhole, hcut, hkept]

/-- A text is no shorter in the prompt with more behind it, or with a longer beginning of it
before the marker. -/
structure Grows (render : Text → Text) : Prop where
  extended (s t : Text) : (render s).length ≤ (render (s ++ t)).length
  longer {p q : Text} (h : p <+: q) :
    (render (p ++ truncationMarker)).length ≤ (render (q ++ truncationMarker)).length

theorem grows_string : Grows fun s ↦ dumps (.str s) where
  extended s t := by
    rw [dumps_str_length, dumps_str_length, escaped_append]
    omega
  longer {p q} h := by
    obtain ⟨t, rfl⟩ := h
    simp only [dumps_str_length, escaped_append]
    omega

theorem fitText_longest {budget : ℤ} {render : Text → Text} {r : Text} (h : Grows render)
    (hfull : budget < (render value).length)
    (hr : (fitText isMark value budget render).1 = some r) :
    ∃ kept, SafePrefix isMark kept value ∧ r = kept ++ truncationMarker ∧
      (render r).length ≤ budget ∧ ∀ q, SafePrefix isMark q value →
        (render (q ++ truncationMarker)).length ≤ budget → q <+: kept := by
  have hbudget := fitText_length hr
  have hcut := hr
  rw [fitText, if_neg (by omega)] at hcut
  obtain ⟨n, hn, rfl⟩ := Option.map_eq_some_iff.mp hcut
  have hshort : n < value.length := by
    by_contra hle
    have hwhole : unicodeSafePrefix isMark value n = value := if_pos (by omega)
    have hextended := h.extended value truncationMarker
    rw [truncated, hwhole] at hbudget
    omega
  refine ⟨unicodeSafePrefix isMark value n, safePrefix_unicodeSafePrefix hshort, rfl, hbudget,
    fun q hq hfits ↦ ?_⟩
  have hmono : ∀ k m, k ≤ m →
      decide (((render (truncated isMark value m)).length : ℤ) ≤ budget) = true →
      decide (((render (truncated isMark value k)).length : ℤ) ≤ budget) = true := by
    intro k m hkm hm
    have hle := h.longer (unicodeSafePrefix_mono isMark value hkm)
    rw [decide_eq_true_eq, truncated] at hm ⊢
    omega
  have hqfits : decide (((render (truncated isMark value q.length)).length : ℤ) ≤ budget) =
      true := by
    rw [truncated, unicodeSafePrefix_of_safe hq]
    exact decide_eq_true hfits
  obtain ⟨b, hb, hle⟩ := le_bisect hmono (fun m hm ↦ absurd hm (Nat.not_lt_zero m)) q.length
    (Nat.lt_succ_of_le hq.starts.length_le) hqfits
  obtain rfl : n = b := Option.some.inj (hn.symm.trans hb)
  rw [← unicodeSafePrefix_of_safe hq]
  exact unicodeSafePrefix_mono isMark value hle

theorem fitText_none {budget : ℤ} {render : Text → Text} (h : Grows render)
    (hfull : budget < (render value).length) :
    (fitText isMark value budget render).1 = none ↔
      budget < (render truncationMarker).length := by
  constructor
  · intro hnone
    by_contra hle
    have hsome : (fitText isMark value budget render).1.isSome = true :=
      fitText_isSome (not_lt.mp hle)
    rw [hnone] at hsome
    cases hsome
  · intro hmarker
    cases hr : (fitText isMark value budget render).1 with
    | none => rfl
    | some r =>
      obtain ⟨kept, -, rfl, hbudget, -⟩ := fitText_longest h hfull hr
      have hle := h.longer (List.nil_prefix (l := kept))
      rw [List.nil_append] at hle
      omega

end

theorem text_fitting (isMark : Char → Bool) (value : Text) :
    (∀ n, unicodeSafePrefix isMark value n <+: value ∧
        (unicodeSafePrefix isMark value n).length ≤ n ∧
        (unicodeSafePrefix isMark value n ≠ value →
          SafePrefix isMark (unicodeSafePrefix isMark value n) value)) ∧
      (∀ m n, m ≤ n → unicodeSafePrefix isMark value m <+: unicodeSafePrefix isMark value n) ∧
      ∀ (budget : ℤ) (render : Text → Text), Grows render →
        ((fitText isMark value budget render).1 = some value ↔ (render value).length ≤ budget) ∧
        (budget < (render value).length →
          (∀ r, (fitText isMark value budget render).1 = some r → ∃ kept,
            SafePrefix isMark kept value ∧ r = kept ++ truncationMarker ∧
              (render r).length ≤ budget ∧ ∀ q, SafePrefix isMark q value →
                (render (q ++ truncationMarker)).length ≤ budget → q <+: kept) ∧
          ((fitText isMark value budget render).1 = none ↔
            budget < (render truncationMarker).length)) := by
  refine ⟨fun n ↦ ⟨unicodeSafePrefix_starts n, unicodeSafePrefix_length n, fun hne ↦ ?_⟩,
    fun m n ↦ unicodeSafePrefix_mono isMark value, fun budget render h ↦
      ⟨⟨fitText_length, fun hfits ↦ ?_⟩, fun hfull ↦
        ⟨fun r ↦ fitText_longest h hfull, fitText_none h hfull⟩⟩⟩
  · apply safePrefix_unicodeSafePrefix
    by_contra hle
    exact hne (if_pos (not_lt.mp hle))
  · rw [fitText_full hfits]

/-- A feedback with a budget of sixteen characters, of which the quotes and the marker take
all but two. -/
theorem text_fitting_sample : ∃ kept,
    SafePrefix (fun _ ↦ false) kept "abcdefghijklmnopq".toList ∧ "ab".toList <+: kept ∧
      (fitText (fun _ ↦ false) "abcdefghijklmnopq".toList 16 fun s ↦ dumps (.str s)).1 =
        some (kept ++ truncationMarker) := by
  have hfull : 16 < (dumps (.str "abcdefghijklmnopq".toList)).length := by decide
  have hmarker : (dumps (.str truncationMarker)).length ≤ 16 := by decide
  have hab : (dumps (.str ("ab".toList ++ truncationMarker))).length ≤ 16 := by decide
  obtain ⟨hlongest, hnone⟩ := ((text_fitting (fun _ ↦ false) "abcdefghijklmnopq".toList).2.2 16
    (fun s ↦ dumps (.str s)) grows_string).2 (Int.ofNat_lt.mpr hfull)
  cases hr : (fitText (fun _ ↦ false) "abcdefghijklmnopq".toList 16 fun s ↦ dumps (.str s)).1 with
  | none =>
    have hlt := hnone.mp hr
    omega
  | some r =>
    obtain ⟨kept, hsafe, rfl, -, hmost⟩ := hlongest r hr
    have hsafe' : SafePrefix (fun _ ↦ false) "ab".toList "abcdefghijklmnopq".toList :=
      ⟨by decide, by decide, .inr fun c hc ↦ by cases hc; decide⟩
    exact ⟨kept, hsafe, hmost _ hsafe' (Int.ofNat_le.mpr hab), rfl⟩

/-- The empty beginning of a text that starts with a variation selector. -/
theorem safe_prefix_before_extension : ¬ ∀ (isMark : Char → Bool) (value : Text) (n : ℕ),
    unicodeSafePrefix isMark value n ≠ value →
      (unicodeSafePrefix isMark value n).getLast? ≠ some zeroWidthJoiner ∧
        ∀ c ∈ value[(unicodeSafePrefix isMark value n).length]?,
          isGraphemeExtension isMark c = false := by
  intro h
  have hcut := h (fun _ ↦ false) [Char.ofNat 0xFE0F, 'a'] 0 (List.cons_ne_nil _ _).symm
  have hextension := hcut.2 (Char.ofNat 0xFE0F) rfl
  have hselector : isGraphemeExtension (fun _ ↦ false) (Char.ofNat 0xFE0F) = true := by decide
  rw [hselector] at hextension
  cases hextension

end LearningTasks.Agent.TextFitting
