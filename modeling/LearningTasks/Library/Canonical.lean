import LearningTasks.Library.Records
import Mathlib.Data.Option.Basic

namespace LearningTasks.Library.Canonical

open Strings Serialization Records

/-- The value of a key of an object, and the object without that field. -/
def takeKey (k : Text) : Fields → Option (Json × Fields)
  | [] => none
  | (l, y) :: ys =>
    if l = k then some (y, ys) else (takeKey k ys).map fun r ↦ (r.1, (l, y) :: r.2)

mutual

/-- Equality of JSON values, up to the order of the keys of their objects. -/
def same : Json → Json → Bool
  | .null, .null => true
  | .bool b, .bool c => b == c
  | .int m, .int n => m == n
  | .float x, .float y => x == y
  | .str s, .str t => s == t
  | .arr xs, .arr ys => sameItems xs ys
  | .obj xs, .obj ys => sameFields xs ys
  | _, _ => false

def sameItems : List Json → List Json → Bool
  | [], [] => true
  | x :: xs, y :: ys => same x y && sameItems xs ys
  | _, _ => false

def sameFields : List (Text × Json) → List (Text × Json) → Bool
  | [], ys => ys.isEmpty
  | (k, x) :: xs, ys =>
    match takeKey k ys with
    | none => false
    | some (y, rest) => same x y && sameFields xs rest

end

def insertKey (f : Text × Json) (fields : Fields) : Fields :=
  fields.orderedInsert (fun a b ↦ leText a.1 b.1) f

def SortedByKey (fields : Fields) : Prop := fields.Pairwise fun a b ↦ leText a.1 b.1 = true

instance : IsTrans (Text × Json) fun a b ↦ leText a.1 b.1 = true := ⟨fun _ _ _ ↦ leText_trans⟩

instance : Std.Total fun a b : Text × Json ↦ leText a.1 b.1 = true := ⟨fun _ _ ↦ leText_total _ _⟩

@[simp] theorem sortByKey_cons (f : Text × Json) (fields : Fields) :
    sortByKey (f :: fields) = insertKey f (sortByKey fields) := List.insertionSort_cons _ _ _

theorem sortByKey_sorted (fields : Fields) : SortedByKey (sortByKey fields) :=
  List.pairwise_insertionSort _ _

theorem insertKey_of_le {f g : Text × Json} (fields : Fields) (h : leText f.1 g.1 = true) :
    insertKey f (g :: fields) = f :: g :: fields := List.orderedInsert_cons_of_le _ _ h

theorem insertKey_of_not_le {f g : Text × Json} (fields : Fields) (h : ¬ leText f.1 g.1 = true) :
    insertKey f (g :: fields) = g :: insertKey f fields := List.orderedInsert_of_not_le _ _ h

theorem insertKey_front {f : Text × Json} {fields : Fields}
    (h : ∀ g ∈ fields, leText f.1 g.1 = true) : insertKey f fields = f :: fields := by
  cases fields with
  | nil => rfl
  | cons g fields => exact insertKey_of_le fields (h g List.mem_cons_self)

theorem takeKey_cons {k : Text} {f : Text × Json} {fields rest : Fields} {y : Json}
    (h : takeKey k (f :: fields) = some (y, rest)) :
    (f = (k, y) ∧ rest = fields) ∨
      (f.1 ≠ k ∧ ∃ rest', takeKey k fields = some (y, rest') ∧ rest = f :: rest') := by
  obtain ⟨l, z⟩ := f
  unfold takeKey at h
  split at h
  · next hk =>
    cases h
    exact .inl ⟨by rw [hk], rfl⟩
  · next hk =>
    obtain ⟨⟨y', rest'⟩, hr, he⟩ := Option.map_eq_some_iff.mp h
    cases he
    exact .inr ⟨hk, rest', hr, rfl⟩

theorem takeKey_mem {k : Text} {fields rest : Fields} {y : Json}
    (h : takeKey k fields = some (y, rest)) : (k, y) ∈ fields := by
  induction fields generalizing rest with
  | nil => cases h
  | cons f fields ih =>
    obtain ⟨rfl, -⟩ | ⟨-, rest', hr, -⟩ := takeKey_cons h
    · exact List.mem_cons_self
    · exact List.mem_cons_of_mem _ (ih hr)

theorem takeKey_insertKey (k : Text) (x : Json) (fields : Fields) :
    takeKey k (insertKey (k, x) fields) = some (x, fields) := by
  induction fields with
  | nil => exact if_pos rfl
  | cons g fields ih =>
    by_cases hle : leText k g.1 = true
    · rw [insertKey_of_le fields hle]
      exact if_pos rfl
    · have hne : g.1 ≠ k := by
        intro h
        rw [h] at hle
        exact hle (leText_refl k)
      rw [insertKey_of_not_le fields hle, takeKey, if_neg hne, ih]
      rfl

theorem takeKey_insertKey_of_ne {k l : Text} (y : Json) (hne : l ≠ k) {fields : Fields}
    (hsorted : SortedByKey fields) : takeKey k (insertKey (l, y) fields) =
      (takeKey k fields).map fun r ↦ (r.1, insertKey (l, y) r.2) := by
  induction fields with
  | nil => exact if_neg hne
  | cons g fields ih =>
    obtain ⟨m, z⟩ := g
    obtain ⟨hfirst, hrest⟩ := List.pairwise_cons.mp hsorted
    by_cases hle : leText l m = true
    · rw [insertKey_of_le fields hle, takeKey, if_neg hne]
      by_cases hm : m = k
      · have hfront : insertKey (l, y) fields = (l, y) :: fields :=
          insertKey_front fun g hg ↦ leText_trans hle (hfirst g hg)
        simp only [takeKey, if_pos hm, Option.map_some, hfront]
      · simp only [takeKey, if_neg hm, Option.map_map]
        congr 1
        funext r
        simp only [Function.comp_apply, insertKey_of_le r.2 (f := (l, y)) (g := (m, z)) hle]
    · rw [insertKey_of_not_le fields hle, takeKey, takeKey]
      by_cases hm : m = k
      · simp only [if_pos hm, Option.map_some]
      · simp only [if_neg hm, ih hrest, Option.map_map]
        congr 1
        funext r
        simp only [Function.comp_apply, insertKey_of_not_le r.2 (f := (l, y)) (g := (m, z)) hle]

theorem takeKey_sortByKey (k : Text) (fields : Fields) :
    takeKey k (sortByKey fields) = (takeKey k fields).map fun r ↦ (r.1, sortByKey r.2) := by
  induction fields with
  | nil => rfl
  | cons f fields ih =>
    obtain ⟨l, y⟩ := f
    rw [sortByKey_cons, takeKey]
    by_cases hk : l = k
    · rw [if_pos hk, hk, takeKey_insertKey]
      rfl
    · rw [if_neg hk, takeKey_insertKey_of_ne y hk (sortByKey_sorted fields), ih, Option.map_map,
        Option.map_map]
      rfl

theorem insertKey_of_takeKey {k : Text} {y : Json} {fields rest : Fields}
    (hsorted : SortedByKey fields) (h : takeKey k fields = some (y, rest)) :
    insertKey (k, y) rest = fields := by
  induction fields generalizing rest with
  | nil => cases h
  | cons g fields ih =>
    obtain ⟨m, z⟩ := g
    obtain ⟨hfirst, hrest⟩ := List.pairwise_cons.mp hsorted
    unfold takeKey at h
    split at h
    · next hm =>
      cases h
      rw [← hm]
      exact insertKey_front hfirst
    · next hm =>
      obtain ⟨⟨y', rest'⟩, hr, he⟩ := Option.map_eq_some_iff.mp h
      cases he
      have hle : ¬ leText k m = true := by
        intro hkm
        exact hm (leText_antisymm (hfirst _ (takeKey_mem hr)) hkm)
      rw [insertKey_of_not_le rest' hle, ih hrest hr]

theorem takeKey_canonicalFields (k : Text) (fields : Fields) :
    takeKey k (canonicalFields fields) =
      (takeKey k fields).map fun r ↦ (canonical r.1, canonicalFields r.2) := by
  induction fields with
  | nil => rfl
  | cons f fields ih =>
    obtain ⟨l, y⟩ := f
    rw [canonicalFields, takeKey, takeKey]
    by_cases hk : l = k
    · rw [if_pos hk, if_pos hk]
      rfl
    · rw [if_neg hk, if_neg hk, ih, Option.map_map, Option.map_map]
      rfl

theorem insertKey_eq_iff {k : Text} {x : Json} {fields others : Fields}
    (hsorted : SortedByKey others) :
    insertKey (k, x) fields = others ↔ takeKey k others = some (x, fields) := by
  constructor
  · intro h
    rw [← h]
    exact takeKey_insertKey k x fields
  · exact insertKey_of_takeKey hsorted

theorem canonicalFields_length (fields : Fields) : (canonicalFields fields).length = fields.length := by
  induction fields with
  | nil => rfl
  | cons f fields ih => simp [canonicalFields, ih]

theorem sortByKey_length (fields : Fields) : (sortByKey fields).length = fields.length :=
  List.length_insertionSort _ _

mutual

/-- Two values have one canonical form where they are the same value. -/
theorem canonical_eq_iff : ∀ a b : Json, canonical a = canonical b ↔ same a b = true
  | .null, b => by cases b <;> simp [canonical, same]
  | .bool _, b => by cases b <;> simp [canonical, same]
  | .int _, b => by cases b <;> simp [canonical, same]
  | .float _, b => by cases b <;> simp [canonical, same]
  | .str _, b => by cases b <;> simp [canonical, same]
  | .arr xs, b => by
    cases b with
    | arr ys =>
      simp only [canonical, same, Json.arr.injEq]
      exact canonicalItems_eq_iff xs ys
    | _ => simp [canonical, same]
  | .obj xs, b => by
    cases b with
    | obj ys =>
      simp only [canonical, same, Json.obj.injEq]
      exact canonicalFields_eq_iff xs ys
    | _ => simp [canonical, same]

theorem canonicalItems_eq_iff : ∀ xs ys : List Json,
    canonicalItems xs = canonicalItems ys ↔ sameItems xs ys = true
  | [], [] => by simp [canonicalItems, sameItems]
  | [], _ :: _ => by simp [canonicalItems, sameItems]
  | _ :: _, [] => by simp [canonicalItems, sameItems]
  | x :: xs, y :: ys => by
    simp only [canonicalItems, sameItems, List.cons.injEq, Bool.and_eq_true]
    rw [canonical_eq_iff x y, canonicalItems_eq_iff xs ys]

theorem canonicalFields_eq_iff : ∀ xs ys : List (Text × Json),
    sortByKey (canonicalFields xs) = sortByKey (canonicalFields ys) ↔ sameFields xs ys = true
  | [], ys => by
    rw [sameFields, List.isEmpty_iff, ← List.length_eq_zero_iff, ← canonicalFields_length ys,
      ← sortByKey_length, List.length_eq_zero_iff]
    exact eq_comm
  | (k, x) :: xs, ys => by
    rw [canonicalFields, sortByKey_cons, insertKey_eq_iff (sortByKey_sorted _), takeKey_sortByKey,
      takeKey_canonicalFields, Option.map_map, sameFields]
    cases hk : takeKey k ys with
    | none => simp
    | some r =>
      obtain ⟨y, rest⟩ := r
      have hx : canonical y = canonical x ↔ same x y = true := by
        rw [← canonical_eq_iff x y]
        exact eq_comm
      have hxs : sortByKey (canonicalFields rest) = sortByKey (canonicalFields xs) ↔
          sameFields xs rest = true := by
        rw [← canonicalFields_eq_iff xs rest]
        exact eq_comm
      simp only [Option.map_some, Function.comp_apply, Option.some.injEq, Prod.mk.injEq,
        Bool.and_eq_true, hx, hxs]

end

theorem lookup_of_takeKey {k : Text} {y : Json} {fields rest : Fields}
    (h : takeKey k fields = some (y, rest)) (key : Text) :
    lookup key fields = if k = key then some y else lookup key rest := by
  induction fields generalizing rest with
  | nil => cases h
  | cons f fields ih =>
    obtain ⟨rfl, rfl⟩ | ⟨hk, rest', hr, rfl⟩ := takeKey_cons h
    · rw [lookup]
    · obtain ⟨l, z⟩ := f
      rw [lookup, lookup, ih hr]
      by_cases hl : l = key
      · have hne : k ≠ key := fun h ↦ hk (hl.trans h.symm)
        rw [if_pos hl, if_pos hl, if_neg hne]
      · rw [if_neg hl, if_neg hl]

theorem lookup_same {xs ys : Fields} (h : sameFields xs ys = true) (key : Text) :
    Option.Rel (fun x y ↦ same x y = true) (lookup key xs) (lookup key ys) := by
  induction xs generalizing ys with
  | nil =>
    rw [sameFields, List.isEmpty_iff] at h
    rw [h]
    exact .none
  | cons f xs ih =>
    obtain ⟨k, x⟩ := f
    rw [sameFields] at h
    cases hk : takeKey k ys with
    | none =>
      rw [hk] at h
      cases h
    | some r =>
      obtain ⟨y, rest⟩ := r
      rw [hk, Bool.and_eq_true] at h
      rw [lookup, lookup_of_takeKey hk]
      by_cases heq : k = key
      · rw [if_pos heq, if_pos heq]
        exact .some h.1
      · rw [if_neg heq, if_neg heq]
        exact ih h.2

end LearningTasks.Library.Canonical
