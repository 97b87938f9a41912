import LearningTasks.Library.Serialization

namespace LearningTasks.Library.SerializedLength

open Strings Serialization

def escaped (s : Text) : ℕ := (s.flatMap escapeChar).length

theorem dumpString_length (s : Text) : (dumpString s).length = escaped s + 2 := by
  simp [dumpString, escaped]

@[simp] theorem escaped_nil : escaped [] = 0 := rfl

theorem escaped_append (s t : Text) : escaped (s ++ t) = escaped s + escaped t := by
  simp [escaped]

/-- The items of an array between its brackets, each with a comma but the first. -/
def itemsLength (items : List Json) : ℕ := (items.map fun x ↦ (dumps x).length + 1).sum

theorem dumpMoreItems_length (items : List Json) :
    (dumpMoreItems items).length = itemsLength items := by
  induction items with
  | nil => rfl
  | cons x xs ih =>
    simp only [dumpMoreItems, itemsLength, List.length_cons, List.length_append, List.map_cons,
      List.sum_cons] at ih ⊢
    omega

theorem dumpItems_length (items : List Json) :
    (dumpItems items).length = itemsLength items - 1 := by
  cases items with
  | nil => rfl
  | cons x xs =>
    rw [dumpItems, List.length_append, dumpMoreItems_length]
    simp only [itemsLength, List.map_cons, List.sum_cons]
    omega

theorem dumps_arr_length (items : List Json) :
    (dumps (.arr items)).length = itemsLength items - 1 + 2 := by
  simp [dumps, dumpItems_length]

@[simp] theorem itemsLength_nil : itemsLength [] = 0 := rfl

theorem itemsLength_append (items more : List Json) :
    itemsLength (items ++ more) = itemsLength items + itemsLength more := by
  simp [itemsLength]

theorem itemsLength_cons (x : Json) (xs : List Json) :
    itemsLength (x :: xs) = (dumps x).length + 1 + itemsLength xs := by
  simp [itemsLength]

/-- The fields of an object between its braces, each with a comma but the first. -/
def fieldsLength (fields : Fields) : ℕ :=
  (fields.map fun f ↦ escaped f.1 + (dumps f.2).length + 4).sum

theorem dumpMoreFields_length (fields : Fields) :
    (dumpMoreFields fields).length = fieldsLength fields := by
  induction fields with
  | nil => rfl
  | cons f fs ih =>
    obtain ⟨k, x⟩ := f
    simp only [dumpMoreFields, fieldsLength, List.length_cons, List.length_append, List.map_cons,
      List.sum_cons, dumpString_length] at ih ⊢
    omega

theorem dumps_obj_length (fields : Fields) :
    (dumps (.obj fields)).length = fieldsLength fields - 1 + 2 := by
  cases fields with
  | nil => rfl
  | cons f fs =>
    obtain ⟨k, x⟩ := f
    simp only [dumps, dumpFields, fieldsLength, List.length_cons, List.length_append, List.map_cons,
      List.sum_cons, dumpString_length, dumpMoreFields_length, List.length_nil]
    omega

@[simp] theorem fieldsLength_nil : fieldsLength [] = 0 := rfl

theorem fieldsLength_append (fields more : Fields) :
    fieldsLength (fields ++ more) = fieldsLength fields + fieldsLength more := by
  simp [fieldsLength]

theorem fieldsLength_cons (f : Text × Json) (fs : Fields) :
    fieldsLength (f :: fs) = escaped f.1 + (dumps f.2).length + 4 + fieldsLength fs := by
  simp [fieldsLength]

theorem dumps_str_length (s : Text) : (dumps (.str s)).length = escaped s + 2 := by
  rw [dumps, dumpString_length]

theorem dumps_bool_length_le (b : Bool) : (dumps (.bool b)).length ≤ 5 := by
  cases b <;> decide

theorem dumps_nat_length_le {n w : ℕ} (hw : 0 < w) (h : n < 10 ^ w) :
    (dumps (.int n)).length ≤ w := by
  show (natRepr n).length ≤ w
  exact (Nat.length_toDigits_le_iff (by decide) hw).mpr h

end LearningTasks.Library.SerializedLength
