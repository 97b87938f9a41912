import LearningTasks.Library.Serialization

namespace LearningTasks.Library.Records

open Strings Serialization

variable {α : Type*}

def readText : Json → Option Text
  | .str s => some s
  | _ => none

def readNullable (read : Json → Option α) : Json → Option (Option α)
  | .null => some none
  | j => (read j).map some

def writeNullable (write : α → Json) : Option α → Json
  | none => .null
  | some a => write a

def readList (read : Json → Option α) : Json → Option (List α)
  | .arr items => items.mapM read
  | _ => none

def readEnum (values : List α) (value : α → Text) (j : Json) : Option α :=
  (readText j).bind fun s ↦ values.find? fun a ↦ decide (value a = s)

def lookup (key : Text) : Fields → Option Json
  | [] => none
  | (k, x) :: fields => if k = key then some x else lookup key fields

/-- A field that may be absent, read by its type where it is given. -/
def optionalField (read : Json → Option α) (key : Text) (fields : Fields) : Option (Option α) :=
  match lookup key fields with
  | none => some none
  | some j => (read j).map some

def requiredField (read : Json → Option α) (key : Text) (fields : Fields) : Option α :=
  (lookup key fields).bind read

def onlyKeys (keys : List Text) (fields : Fields) : Bool := fields.all fun f ↦ keys.contains f.1

def readModel (keys : List Text) (read : Fields → Option α) : Json → Option α
  | .obj fields => if onlyKeys keys fields then read fields else none
  | _ => none

def given (key : Text) (write : α → Json) : Option α → Fields
  | none => []
  | some a => [(key, write a)]

theorem readNullable_write {read : Json → Option α} {write : α → Json}
    (h : ∀ a, read (write a) = some a) (hn : ∀ a, write a ≠ .null) (a : Option α) :
    readNullable read (writeNullable write a) = some a := by
  cases a with
  | none => rfl
  | some a =>
    have ha := hn a
    have hr := h a
    simp only [writeNullable]
    cases hw : write a with
    | null => exact absurd hw ha
    | _ => rw [hw] at hr; simp only [readNullable, hr, Option.map_some]

theorem readList_write {read : Json → Option α} {write : α → Json} {l : List α}
    (h : ∀ a ∈ l, read (write a) = some a) : readList read (.arr (l.map write)) = some l := by
  simp only [readList]
  induction l with
  | nil => rfl
  | cons a l ih =>
    have ha := h a (by simp)
    have hl := ih fun b hb ↦ h b (by simp [hb])
    simp [List.mapM_cons, ha, hl]

theorem mapM_forall₂ {β γ : Type} {f : β → Option γ} {l : List β} {m : List γ}
    (h : l.mapM f = some m) : List.Forall₂ (fun a b ↦ f a = some b) l m := by
  induction l generalizing m with
  | nil =>
    cases h
    exact .nil
  | cons a l ih =>
    simp only [List.mapM_cons, Option.bind_eq_bind, Option.bind_eq_some_iff, Option.pure_def,
      Option.some.injEq] at h
    obtain ⟨b, hb, bs, hbs, rfl⟩ := h
    exact .cons hb (ih hbs)

theorem mapM_isSome_iff {β γ : Type} {f : β → Option γ} {l : List β} :
    (l.mapM f).isSome = true ↔ ∀ a ∈ l, (f a).isSome = true := by
  induction l with
  | nil => exact iff_of_true rfl (List.forall_mem_nil _)
  | cons a l ih =>
    rw [List.forall_mem_cons, ← ih, List.mapM_cons]
    cases f a with
    | none => exact iff_of_false Bool.false_ne_true fun h ↦ Bool.false_ne_true h.1
    | some b =>
      cases l.mapM f with
      | none => exact iff_of_false Bool.false_ne_true fun h ↦ Bool.false_ne_true h.2
      | some bs => exact iff_of_true rfl ⟨rfl, rfl⟩

theorem forall₂_right {β γ : Type*} {R : β → γ → Prop} {l : List β} {m : List γ}
    (h : List.Forall₂ R l m) {b : γ} (hb : b ∈ m) : ∃ a ∈ l, R a b := by
  induction h with
  | nil => cases hb
  | @cons a b' l m hab h ih =>
    rcases List.mem_cons.mp hb with rfl | hb
    · exact ⟨a, by simp, hab⟩
    · obtain ⟨a', ha', hr⟩ := ih hb
      exact ⟨a', by simp [ha'], hr⟩

theorem readList_mem {β : Type} {read : Json → Option β} {j : Json} {l : List β}
    (h : readList read j = some l) {b : β} (hb : b ∈ l) : ∃ x, read x = some b := by
  cases j with
  | arr items =>
    obtain ⟨x, -, hx⟩ := forall₂_right (mapM_forall₂ h) hb
    exact ⟨x, hx⟩
  | _ => cases h

theorem lookup_eq_none {key : Text} {fields : Fields} (h : key ∉ fields.map Prod.fst) :
    lookup key fields = none := by
  induction fields with
  | nil => rfl
  | cons f fields ih =>
    rw [List.map_cons, List.mem_cons, not_or] at h
    rw [lookup, if_neg (Ne.symm h.1), ih h.2]

theorem lookup_append (key : Text) (a b : Fields) :
    lookup key (a ++ b) = (lookup key a).or (lookup key b) := by
  induction a with
  | nil => rfl
  | cons f a ih =>
    simp only [List.cons_append, lookup]
    split
    · rfl
    · exact ih

theorem lookup_given (key k : Text) (write : α → Json) (a : Option α) :
    lookup key (given k write a) = if k = key then a.map write else none := by
  cases a with
  | none => simp [given, lookup]
  | some a => simp [given, lookup]

theorem optionalField_eq {read : Json → Option α} {write : α → Json} {key : Text} {fields : Fields}
    {a : Option α} (h : ∀ a, read (write a) = some a) (hl : lookup key fields = a.map write) :
    optionalField read key fields = some a := by
  unfold optionalField
  rw [hl]
  cases a with
  | none => rfl
  | some a => simp [h]

theorem requiredField_eq {read : Json → Option α} {key : Text} {fields : Fields} {j : Json} {a : α}
    (h : read j = some a) (hl : lookup key fields = some j) :
    requiredField read key fields = some a := by
  rw [requiredField, hl, Option.bind_some, h]

theorem onlyKeys_append (keys : List Text) (a b : Fields) :
    onlyKeys keys (a ++ b) = (onlyKeys keys a && onlyKeys keys b) := List.all_append

theorem onlyKeys_given {keys : List Text} {key : Text} (write : α → Json) (a : Option α)
    (h : key ∈ keys) : onlyKeys keys (given key write a) = true := by
  cases a with
  | none => rfl
  | some a => simpa [given, onlyKeys] using h

theorem readModel_obj {keys : List Text} {read : Fields → Option α} {fields : Fields} {a : α}
    (hk : onlyKeys keys fields = true) (h : read fields = some a) :
    readModel keys read (.obj fields) = some a := by
  rw [readModel, if_pos hk, h]

end LearningTasks.Library.Records
