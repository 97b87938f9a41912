import LearningTasks.Library.Fallible
import LearningTasks.Library.Sorting
import LearningTasks.Library.ThreeValued
import LearningTasks.Services.TaskListing
import LearningTasks.Services.TaskUpdates

namespace LearningTasks.Services.TaskPaging

open Library.Strings Library.Fallible Library.Sorting Library.ThreeValued Schemas.Scalars
  Schemas.Task Schemas.Project Services.Tasks TaskListing
open Services.TaskUpdates (Stored modelValidate_of_constraints)
open Std (TransCmp OrientedCmp ReflCmp)

/-- A predicate that is appended where its criterion is given. -/
def given {α : Type} (criterion : Option α) (predicate : α → Truth) : List Truth :=
  criterion.toList.map predicate

theorem given_holds {α : Type} (criterion : Option α) (predicate : α → Truth) :
    (given criterion predicate).all Truth.holds = criterion.all fun a ↦ (predicate a).holds := by
  cases criterion with
  | none => rfl
  | some a => exact Bool.and_true _

def overduePredicates (c : TaskQueryCriteria) (t : Task) : List Truth :=
  match c.overdue with
  | none => []
  | some true => [t.dueAt.map fun p ↦ decide (p.ordinal < c.now.ordinal),
      some (decide (t.status ∉ nonOverdueStatuses))]
  | some false => [Truth.or (some t.dueAt.isNone)
      (Truth.or (t.dueAt.map fun p ↦ decide (c.now.ordinal ≤ p.ordinal))
        (some (decide (t.status ∈ nonOverdueStatuses))))]

/-- The predicates that `_owned_filters` collects, as the database evaluates them on a row. -/
def ownedPredicates (database : Database) (c : TaskQueryCriteria) (t : Task) : List Truth :=
  [some (decide (t.userId = c.userId))] ++
    given c.projectId (fun p ↦ some (decide (t.projectId = p))) ++
    given c.status (fun s ↦ some (decide (t.status = s))) ++
    given c.priority (fun p ↦ some (decide (t.priority = p))) ++
    given c.plannedFrom (fun d ↦ t.plannedDate.map fun p ↦ decide (d.ordinal ≤ p.ordinal)) ++
    given c.plannedTo (fun d ↦ t.plannedDate.map fun p ↦ decide (p.ordinal ≤ d.ordinal)) ++
    given c.dueFrom (fun d ↦ t.dueAt.map fun p ↦ decide (d.ordinal ≤ p.ordinal)) ++
    given c.dueTo (fun d ↦ t.dueAt.map fun p ↦ decide (p.ordinal ≤ d.ordinal)) ++
    overduePredicates c t ++
    given c.title fun s ↦ some (ilike database.fold ('%' :: (escapeLike s ++ ['%'])) t.title)

theorem ownedFilters_eq (database : Database) (c : TaskQueryCriteria) (t : Task) :
    ownedFilters database c t = (Truth.all (ownedPredicates database c t)).holds := by
  have hoverdue : (overduePredicates c t).all Truth.holds =
      (match c.overdue with
        | none => true
        | some true => (t.dueAt.any fun p ↦ p.ordinal < c.now.ordinal) &&
            t.status ∉ nonOverdueStatuses
        | some false => t.dueAt.isNone || (t.dueAt.any fun p ↦ c.now.ordinal ≤ p.ordinal) ||
            t.status ∈ nonOverdueStatuses) := by
    unfold overduePredicates
    rcases c.overdue with _ | _ | _ <;> simp [Bool.or_assoc]
  rw [Truth.holds_all, ownedPredicates]
  simp only [List.all_append, given_holds, hoverdue, List.all_cons, List.all_nil, Truth.holds_some,
    Truth.holds_map, Bool.and_true]
  rfl

def withOverdue (q : TaskListQuery) (overdue : Option Bool) : TaskListQuery :=
  { q with overdue := overdue }

def atPage (q : TaskListQuery) (i : ℕ) : TaskListQuery :=
  { q with paging := ⟨i + 1, q.paging.pageSize, by have := q.paging.bounds; omega⟩ }

section

variable (database : Database)

def wholeListing (q : TaskListQuery) (userId : UUID) (now : Datetime) (db : Db) : List Task :=
  sortBy (taskOrder database q.sortBy q.sortDirection)
    (db.tasks.filter (ownedFilters database (q.criteria userId now)))

/-- The pages of a query, from the first to the last that the first one names. -/
def allPages (q : TaskListQuery) (userId : UUID) (now : Datetime) (db : Db) :
    Except TaskError (List TaskListResponse) := do
  let first ← listOwnedTasks database (atPage q 0) userId now db.tasks
  (List.range first.pages).mapM fun i ↦ listOwnedTasks database (atPage q i) userId now db.tasks

def isOverdue (now : Datetime) (t : Task) : Bool :=
  (t.dueAt.any fun p ↦ p.ordinal < now.ordinal) && t.status ∉ nonOverdueStatuses

theorem directed_transCmp {α : Type*} {cmp : α → α → Ordering} [TransCmp cmp]
    (direction : SortDirection) : TransCmp fun s t ↦ directed direction (cmp s t) := by
  cases direction with
  | asc => exact inferInstanceAs (TransCmp cmp)
  | desc =>
    have hswap : (fun s t ↦ directed .desc (cmp s t)) = fun s t ↦ cmp t s := by
      funext s t
      have h : cmp t s = (cmp s t).swap := OrientedCmp.eq_swap
      exact h.symm
    rw [hswap]
    exact TransCmp.opposite

theorem nullsLast_transCmp {α : Type} {cmp : α → α → Ordering} [TransCmp cmp] :
    TransCmp (nullsLast cmp) where
  eq_swap {s t} := by
    have h (s t : α) : cmp s t = (cmp t s).swap := OrientedCmp.eq_swap
    cases s <;> cases t <;> first | rfl | exact h _ _
  isLE_trans {s t u} hst htu := by
    have h {s t u : α} : (cmp s t).isLE → (cmp t u).isLE → (cmp s u).isLE := TransCmp.isLE_trans
    cases s with
    | none =>
      cases t with
      | none => exact htu
      | some t => cases hst
    | some s =>
      cases t with
      | none =>
        cases u with
        | none => rfl
        | some u => cases htu
      | some t =>
        cases u with
        | none => rfl
        | some u => exact h hst htu

theorem transCmp_on {α β : Type} (cmp : α → α → Ordering) [TransCmp cmp] (f : β → α) :
    TransCmp fun s t ↦ cmp (f s) (f t) where
  eq_swap := OrientedCmp.eq_swap
  isLE_trans hst htu := TransCmp.isLE_trans hst htu

variable {database}

theorem primaryOrder_transCmp (database : Database) [TransCmp database.collate]
    (sortBy : TaskSortField) (direction : SortDirection) :
    TransCmp (primaryOrder database sortBy direction) := by
  have hdirected : TransCmp fun x y : ℕ ↦ directed direction (compare x y) :=
    directed_transCmp direction
  have hdates := transCmp_on (fun x y : ℕ ↦ directed direction (compare x y)) Date.ordinal
  have htimes := transCmp_on (fun x y : ℕ ↦ directed direction (compare x y)) Datetime.ordinal
  cases sortBy with
  | createdAt =>
    exact transCmp_on (fun x y : Datetime ↦ directed direction (compare x.ordinal y.ordinal))
      Task.createdAt
  | updatedAt =>
    exact transCmp_on (fun x y : Datetime ↦ directed direction (compare x.ordinal y.ordinal))
      Task.updatedAt
  | dueAt =>
    have hnulls : TransCmp (nullsLast fun x y : Datetime ↦
        directed direction (compare x.ordinal y.ordinal)) := nullsLast_transCmp
    exact transCmp_on (nullsLast fun x y : Datetime ↦
      directed direction (compare x.ordinal y.ordinal)) Task.dueAt
  | plannedDate =>
    have hnulls : TransCmp (nullsLast fun x y : Date ↦
        directed direction (compare x.ordinal y.ordinal)) := nullsLast_transCmp
    exact transCmp_on (nullsLast fun x y : Date ↦
      directed direction (compare x.ordinal y.ordinal)) Task.plannedDate
  | title =>
    have htitle : TransCmp fun s t : Text ↦ directed direction (database.collate s t) :=
      directed_transCmp direction
    exact transCmp_on (fun s t : Text ↦ directed direction (database.collate s t)) Task.title

instance taskOrder_transCmp [TransCmp database.collate] (sortBy : TaskSortField)
    (direction : SortDirection) : TransCmp (taskOrder database sortBy direction) := by
  have hprimary := primaryOrder_transCmp database sortBy direction
  have hdirected : TransCmp fun x y : ℕ ↦ directed direction (compare x y) :=
    directed_transCmp direction
  have hids := transCmp_on (fun x y : ℕ ↦ directed direction (compare x y))
    fun t : Task ↦ t.id.value
  exact inferInstanceAs (TransCmp (compareLex (primaryOrder database sortBy direction)
    fun s t ↦ directed direction (compare s.id.value t.id.value)))

theorem taskOrder_ne_eq {sortBy : TaskSortField} {direction : SortDirection} {s t : Task}
    (h : s.id ≠ t.id) : taskOrder database sortBy direction s t ≠ .eq := by
  intro heq
  obtain ⟨-, hids⟩ := Ordering.then_eq_eq.mp heq
  have hvalue : compare s.id.value t.id.value = .eq := by
    cases direction with
    | asc => exact hids
    | desc => exact Ordering.swap_eq_eq.mp hids
  exact h (UUID.eq_of_value (Nat.compare_eq_eq.mp hvalue))

theorem separated_of_stored (database : Database) {db : Db} (h : Stored db) (sortBy : TaskSortField)
    (direction : SortDirection) : Separated (taskOrder database sortBy direction) db.tasks :=
  (List.pairwise_map.mp h.unique).imp taskOrder_ne_eq

variable {q : TaskListQuery} {userId : UUID} {now : Datetime} {db : Db}

theorem wholeListing_length :
    (wholeListing database q userId now db).length =
      db.tasks.countP (ownedFilters database (q.criteria userId now)) := by
  rw [wholeListing, (sortBy_perm _ _).length_eq, List.countP_eq_length_filter]

theorem mem_wholeListing {t : Task} :
    t ∈ wholeListing database q userId now db ↔
      t ∈ db.tasks ∧ ownedFilters database (q.criteria userId now) t = true := by
  rw [wholeListing, mem_sortBy, List.mem_filter]

theorem wholeListing_ascending (database : Database) [TransCmp database.collate]
    (q : TaskListQuery) (userId : UUID) (now : Datetime) (h : Stored db) :
    Ascending (taskOrder database q.sortBy q.sortDirection)
      (wholeListing database q userId now db) :=
  sortBy_ascending ((separated_of_stored database h q.sortBy q.sortDirection).filter _)

/-- What a query hands to the database can be sent: a title without a NUL, and an offset in
the range of its type. -/
def Bindable (q : TaskListQuery) : Prop :=
  (∀ t ∈ q.title, '\x00' ∉ t) ∧ q.paging.offset ≤ maxBigint

theorem bindable_criteria (q : TaskListQuery) (userId : UUID) (now : Datetime) :
    (q.criteria userId now).bindable = true ↔ ∀ t ∈ q.title, '\x00' ∉ t := by
  have htitle : (q.criteria userId now).bindable = q.title.all storable := rfl
  rw [htitle]
  cases q.title <;> simp [storable]

theorem offset_atPage (i : ℕ) : (atPage q i).paging.offset = i * q.paging.pageSize := by
  rw [Paging.offset]
  exact congrArg (· * _) (Nat.add_sub_cancel i 1)

/-- The answer to a page: its rows of the listing, and the counts of the whole. -/
structure PageOf (database : Database) (q : TaskListQuery) (userId : UUID) (now : Datetime)
    (db : Db) (i : ℕ) (r : TaskListResponse) : Prop where
  items : r.items = (((wholeListing database q userId now db).map Task.public).drop
    (i * q.paging.pageSize)).take q.paging.pageSize
  page : r.page = i + 1
  total : r.total = (wholeListing database q userId now db).length
  pages : r.pages = expectedPages r.total q.paging.pageSize
  beyond : r.pages ≤ i → r.items = []

theorem le_expectedPages_mul (total : ℕ) {k : ℕ} (hk : 1 ≤ k) :
    total ≤ expectedPages total k * k := by
  unfold expectedPages
  split
  · omega
  · have hdiv := Nat.lt_div_mul_add (a := total + k - 1) hk
    omega

theorem mul_lt_of_lt_expectedPages {total i k : ℕ} (hk : 1 ≤ k) (h : i < expectedPages total k) :
    i * k < total := by
  unfold expectedPages at h
  split at h
  · exact absurd h (Nat.not_lt_zero i)
  · have hmul := (Nat.le_div_iff_mul_le hk).mp h
    rw [Nat.succ_mul] at hmul
    omega

variable (database userId now) in
theorem listOwnedTasks_page (h : Stored db) {i : ℕ} (hb : Bindable (atPage q i)) :
    ∃ r : TaskListResponse, listOwnedTasks database (atPage q i) userId now db.tasks = .ok r ∧
      PageOf database q userId now db i r := by
  obtain ⟨htitle, hoffset⟩ := hb
  have hbindable := (bindable_criteria (atPage q i) userId now).mpr htitle
  have hrows : listOwned database ((atPage q i).criteria userId now) (atPage q i).paging
      (atPage q i).sortBy (atPage q i).sortDirection db.tasks =
        some (((wholeListing database q userId now db).drop (i * q.paging.pageSize)).take
          q.paging.pageSize) := by
    rw [listOwned, if_pos hbindable, Paging.slice, if_pos hoffset, offset_atPage]
    rfl
  have htotal : countOwned database ((atPage q i).criteria userId now) db.tasks =
      some (wholeListing database q userId now db).length := by
    rw [countOwned, if_pos hbindable, wholeListing_length]
    rfl
  have hitems : (((wholeListing database q userId now db).drop
      (i * q.paging.pageSize)).take q.paging.pageSize).mapM modelValidate =
        .ok ((((wholeListing database q userId now db).drop
          (i * q.paging.pageSize)).take q.paging.pageSize).map Task.public) := by
    refine mapM_ok fun t ht ↦ modelValidate_of_constraints (h.constraints t ?_)
    exact (mem_wholeListing.mp (List.mem_of_mem_drop (List.mem_of_mem_take ht))).1
  have hlength : (((wholeListing database q userId now db).drop
      (i * q.paging.pageSize)).take q.paging.pageSize |>.map Task.public).length ≤
        q.paging.pageSize := by
    rw [List.length_map]
    exact List.length_take_le _ _
  have hall := le_expectedPages_mul (wholeListing database q userId now db).length
    q.paging.bounds.2.1
  simp only [listOwnedTasks, hrows, htotal, hitems, ok_bind]
  rw [listResponse, dif_pos ⟨rfl, hlength⟩]
  refine ⟨_, rfl, List.map_take.trans (congrArg _ List.map_drop), rfl, rfl, rfl, fun hi ↦ ?_⟩
  rw [List.map_eq_nil_iff, List.drop_eq_nil_of_le (hall.trans (Nat.mul_le_mul_right _ hi)),
    List.take_nil]

theorem listOwnedTasks_refused {i : ℕ} (hb : ¬ Bindable (atPage q i)) :
    listOwnedTasks database (atPage q i) userId now db.tasks = .error .database := by
  have hrows : listOwned database ((atPage q i).criteria userId now) (atPage q i).paging
      (atPage q i).sortBy (atPage q i).sortDirection db.tasks = none := by
    by_cases htitle : ((atPage q i).criteria userId now).bindable = true
    · have hoffset : ¬ (atPage q i).paging.offset ≤ maxBigint := fun h ↦
        hb ⟨(bindable_criteria (atPage q i) userId now).mp htitle, h⟩
      rw [listOwned, if_pos htitle, Paging.slice, if_neg hoffset]
    · rw [listOwned, if_neg htitle]
  simp only [listOwnedTasks, hrows]
  rfl

theorem listOwnedTasks_iff (database : Database) (q : TaskListQuery) (userId : UUID)
    (now : Datetime) (h : Stored db) (i : ℕ) :
    (∃ r, listOwnedTasks database (atPage q i) userId now db.tasks = .ok r ∧
      PageOf database q userId now db i r) ↔ Bindable (atPage q i) := by
  refine ⟨fun ⟨r, hr, _⟩ ↦ ?_, listOwnedTasks_page database userId now h⟩
  by_contra hb
  rw [listOwnedTasks_refused hb] at hr
  cases hr

/-- The pages that begin with a row of the listing, and the first, can all be asked for. -/
def AllBindable (database : Database) (q : TaskListQuery) (userId : UUID) (now : Datetime)
    (db : Db) : Prop :=
  ∀ i, i = 0 ∨ i * q.paging.pageSize <
    db.tasks.countP (ownedFilters database (q.criteria userId now)) → Bindable (atPage q i)

theorem allPages_iff (database : Database) (q : TaskListQuery) (userId : UUID) (now : Datetime)
    (h : Stored db) :
    (∃ pages, allPages database q userId now db = .ok pages ∧
      pages.flatMap ListResponse.items =
        (wholeListing database q userId now db).map Task.public) ↔
      AllBindable database q userId now db := by
  have hbindable {i : ℕ} {r : TaskListResponse}
      (hr : listOwnedTasks database (atPage q i) userId now db.tasks = .ok r) :
      Bindable (atPage q i) := by
    by_contra hb
    rw [listOwnedTasks_refused hb] at hr
    cases hr
  have hsize := q.paging.bounds.2.1
  constructor
  · rintro ⟨pages, hpages, -⟩ i hi
    obtain ⟨first, hfirst, hrest⟩ := bind_ok hpages
    obtain rfl | hi := hi
    · exact hbindable hfirst
    · obtain ⟨r, hr, hof⟩ := listOwnedTasks_page database userId now h (hbindable hfirst)
      obtain rfl := Except.ok.inj (hfirst.symm.trans hr)
      rw [← wholeListing_length, ← hof.total] at hi
      have hlast : i < first.pages := by
        rw [hof.pages]
        exact Nat.lt_of_mul_lt_mul_right (hi.trans_le (le_expectedPages_mul first.total hsize))
      obtain ⟨r, hr⟩ := of_mapM_ok hrest i (List.mem_range.mpr hlast)
      exact hbindable hr
  · intro hb
    obtain ⟨first, hfirst, hof⟩ := listOwnedTasks_page database userId now h
      (hb 0 (.inl rfl))
    have hpage (i : ℕ) (hi : i < first.pages) :
        ∃ r, listOwnedTasks database (atPage q i) userId now db.tasks = .ok r ∧
          PageOf database q userId now db i r := by
      rw [hof.pages, hof.total, wholeListing_length] at hi
      exact listOwnedTasks_page database userId now h
        (hb i (.inr (mul_lt_of_lt_expectedPages hsize hi)))
    have hne : Nonempty TaskListResponse := ⟨first⟩
    choose! page hpage hof' using hpage
    refine ⟨(List.range first.pages).map page, ?_, ?_⟩
    · rw [allPages, hfirst, ok_bind]
      exact mapM_ok fun i hi ↦ hpage i (List.mem_range.mp hi)
    · have hall := le_expectedPages_mul first.total hsize
      have hitems := List.flatMap_congr fun i (hi : i ∈ List.range first.pages) ↦
        (hof' i (List.mem_range.mp hi)).items
      rw [List.flatMap_map, hitems, flatMap_pages, hof.pages, List.take_of_length_le]
      rwa [List.length_map, ← hof.total]

theorem ownedFilters_overdue (t : Task) :
    ownedFilters database ((withOverdue q (some true)).criteria userId now) t =
        (isOverdue now t && ownedFilters database ((withOverdue q none).criteria userId now) t) ∧
      ownedFilters database ((withOverdue q (some false)).criteria userId now) t =
        (!isOverdue now t &&
          ownedFilters database ((withOverdue q none).criteria userId now) t) := by
  have hfalse : (t.dueAt.isNone || (t.dueAt.any fun p ↦ now.ordinal ≤ p.ordinal) ||
      decide (t.status ∈ nonOverdueStatuses)) = !isOverdue now t := by
    unfold isOverdue
    cases t.dueAt with
    | none => rfl
    | some p =>
      have hlt : decide (now.ordinal ≤ p.ordinal) = !decide (p.ordinal < now.ordinal) := by
        rw [← decide_not, decide_eq_decide, not_lt]
      rw [Option.isNone_some, Option.any_some, Option.any_some, hlt, decide_not, Bool.not_and,
        Bool.not_not, Bool.false_or]
  have hsplit (a m b : Bool) : (a && m && b) = (m && (a && true && b)) := by
    cases a <;> cases m <;> rfl
  constructor
  · exact hsplit _ _ _
  · rw [← hfalse]
    exact hsplit _ _ _

theorem wholeListing_overdue [TransCmp database.collate] (h : Stored db) :
    wholeListing database (withOverdue q (some true)) userId now db =
        (wholeListing database (withOverdue q none) userId now db).filter (isOverdue now) ∧
      wholeListing database (withOverdue q (some false)) userId now db =
        (wholeListing database (withOverdue q none) userId now db).filter
          fun t ↦ !isOverdue now t := by
  have hsep := (separated_of_stored database h q.sortBy q.sortDirection).filter
    (ownedFilters database ((withOverdue q none).criteria userId now))
  have htrue : db.tasks.filter (ownedFilters database
      ((withOverdue q (some true)).criteria userId now)) = (db.tasks.filter (ownedFilters database
        ((withOverdue q none).criteria userId now))).filter (isOverdue now) := by
    rw [List.filter_filter]
    exact List.filter_congr fun t _ ↦ (ownedFilters_overdue t).1
  have hfalse : db.tasks.filter (ownedFilters database
      ((withOverdue q (some false)).criteria userId now)) = (db.tasks.filter (ownedFilters database
        ((withOverdue q none).criteria userId now))).filter fun t ↦ !isOverdue now t := by
    rw [List.filter_filter]
    exact List.filter_congr fun t _ ↦ (ownedFilters_overdue t).2
  rw [wholeListing, wholeListing, wholeListing, htrue, hfalse]
  exact ⟨sortBy_filter hsep _, sortBy_filter hsep _⟩

/-- The order of the pages: a total one of the rows, by the field of the sort with missing
times last, and by the ids of the rows that tie in it. -/
structure ListingOrder (database : Database) (sortBy : TaskSortField) (direction : SortDirection)
    (rows : List Task) : Prop where
  total : StrictTotal (taskOrder database sortBy direction) rows
  primary {s t : Task} (h : primaryOrder database sortBy direction s t = .lt) :
    taskOrder database sortBy direction s t = .lt
  tie {s t : Task} (h : primaryOrder database sortBy direction s t = .eq) :
    taskOrder database sortBy direction s t =
      directed direction (compare s.id.value t.id.value)
  dueLast (hsort : sortBy = .dueAt) {s t : Task} (hs : s.dueAt.isSome) (ht : t.dueAt = none) :
    taskOrder database sortBy direction s t = .lt
  plannedLast (hsort : sortBy = .plannedDate) {s t : Task} (hs : s.plannedDate.isSome)
    (ht : t.plannedDate = none) : taskOrder database sortBy direction s t = .lt

theorem listingOrder [TransCmp database.collate] (h : Stored db) (sortBy : TaskSortField)
    (direction : SortDirection) : ListingOrder database sortBy direction db.tasks where
  total := (separated_of_stored database h sortBy direction).strictTotal
  primary h := by rw [taskOrder, h, Ordering.lt_then]
  tie h := by rw [taskOrder, h, Ordering.eq_then]
  dueLast hsort s t hs ht := by
    obtain ⟨p, hp⟩ := Option.isSome_iff_exists.mp hs
    rw [taskOrder, hsort, primaryOrder, hp, ht, nullsLast, Ordering.lt_then]
  plannedLast hsort s t hs ht := by
    obtain ⟨p, hp⟩ := Option.isSome_iff_exists.mp hs
    rw [taskOrder, hsort, primaryOrder, hp, ht, nullsLast, Ordering.lt_then]

theorem task_listing (database : Database) [TransCmp database.collate] (q : TaskListQuery)
    (userId : UUID) (now : Datetime) (db : Db) (h : Stored db) :
    ListingOrder database q.sortBy q.sortDirection db.tasks ∧
      Ascending (taskOrder database q.sortBy q.sortDirection)
        (wholeListing database q userId now db) ∧
      (wholeListing database q userId now db).Nodup ∧
      (∀ t, t ∈ wholeListing database q userId now db ↔ t ∈ db.tasks ∧
        (Truth.all (ownedPredicates database (q.criteria userId now) t)).holds = true) ∧
      ((∃ pages, allPages database q userId now db = .ok pages ∧
        pages.flatMap ListResponse.items =
          (wholeListing database q userId now db).map Task.public) ↔
        AllBindable database q userId now db) ∧
      (∀ i, (∃ r, listOwnedTasks database (atPage q i) userId now db.tasks = .ok r ∧
        PageOf database q userId now db i r) ↔ Bindable (atPage q i)) ∧
      wholeListing database (withOverdue q (some true)) userId now db =
        (wholeListing database (withOverdue q none) userId now db).filter (isOverdue now) ∧
      wholeListing database (withOverdue q (some false)) userId now db =
        (wholeListing database (withOverdue q none) userId now db).filter
          fun t ↦ !isOverdue now t := by
  have hordered := wholeListing_ascending database q userId now h
  refine ⟨listingOrder h q.sortBy q.sortDirection, hordered, hordered.nodup, fun t ↦ ?_,
    allPages_iff database q userId now h, listOwnedTasks_iff database q userId now h,
    wholeListing_overdue h⟩
  rw [mem_wholeListing, ownedFilters_eq]

def codePoints : Database := ⟨compare, Char.toLower⟩

def latestTasks (paging : Paging) (title : Option Text)
    (h : ∀ t ∈ title, strip t = t ∧ 1 ≤ t.length ∧ t.length ≤ 200) : TaskListQuery where
  paging := paging
  projectId := none
  status := none
  priority := none
  plannedFrom := none
  plannedTo := none
  dueFrom := none
  dueTo := none
  overdue := none
  title := title
  sortBy := .dueAt
  sortDirection := .desc
  search := h
  planned := by simp
  due := by simp

def twoByTwo : TaskListQuery := latestTasks ⟨1, 2, by decide⟩ none (by simp)

def dueTask (n : ℕ) (h : n < 2 ^ 128) (dueAt : Option Datetime) : Task :=
  { sampleTask with id := ⟨n, h⟩, dueAt := dueAt }

/-- Two tasks that are due at one time, between them one without a due time. -/
def sampleDb : Db where
  projects := []
  tasks := [dueTask 1 (by decide) (some sampleDate.midnight), dueTask 2 (by decide) none,
    dueTask 3 (by decide) (some sampleDate.midnight)]

instance : TransCmp codePoints.collate :=
  inferInstanceAs (TransCmp (compare : Text → Text → Ordering))

theorem sampleDb_stored : Stored sampleDb := ⟨by decide, by decide⟩

theorem twoByTwo_bindable {i : ℕ} (h : i ≤ 3) : Bindable (atPage twoByTwo i) := by
  refine ⟨fun t ht ↦ (by cases ht), ?_⟩
  rw [offset_atPage]
  exact (Nat.mul_le_mul_right 2 h).trans (by decide)

theorem sampleDb_listing :
    wholeListing codePoints twoByTwo sampleUser sampleDate.midnight sampleDb =
      [dueTask 3 (by decide) (some sampleDate.midnight),
        dueTask 1 (by decide) (some sampleDate.midnight), dueTask 2 (by decide) none] := by
  have hascending := wholeListing_ascending codePoints twoByTwo sampleUser sampleDate.midnight
    sampleDb_stored
  refine hascending.eq_of_perm ?_ ((sortBy_perm _ _).trans ?_)
  · unfold Ascending
    decide
  · decide

/-- The last of two pages, and the list that they make up. -/
theorem task_listing_sample :
    (∃ pages, allPages codePoints twoByTwo sampleUser sampleDate.midnight sampleDb = .ok pages ∧
      (pages.flatMap ListResponse.items).map (·.id.value) = [3, 1, 2]) ∧
    ∃ r, listOwnedTasks codePoints (atPage twoByTwo 1) sampleUser sampleDate.midnight
        sampleDb.tasks = .ok r ∧ r.pages = 2 ∧ r.items.map (·.id.value) = [2] := by
  obtain ⟨-, -, -, -, hall, hpage, -⟩ := task_listing codePoints twoByTwo sampleUser
    sampleDate.midnight sampleDb sampleDb_stored
  constructor
  · obtain ⟨pages, hpages, hitems⟩ := hall.mpr fun i hi ↦ twoByTwo_bindable (by
      have hcount : sampleDb.tasks.countP (ownedFilters codePoints
          (twoByTwo.criteria sampleUser sampleDate.midnight)) ≤ 3 := List.countP_le_length
      have hsize : twoByTwo.paging.pageSize = 2 := rfl
      rw [hsize] at hi
      omega)
    refine ⟨pages, hpages, ?_⟩
    rw [hitems, sampleDb_listing]
    rfl
  · obtain ⟨r, hr, hof⟩ := (hpage 1).mpr (twoByTwo_bindable (by decide))
    refine ⟨r, hr, ?_, ?_⟩
    · rw [hof.pages, hof.total, sampleDb_listing]
      rfl
    · rw [hof.items, sampleDb_listing]
      rfl

/-- A page so far beyond the last that its offset is no `BIGINT` is an error, and so is a search
for a NUL. -/
theorem listing_refused :
    listOwnedTasks codePoints (latestTasks ⟨2 ^ 63 + 1, 1, by decide⟩ none (by simp)) sampleUser
        sampleDate.midnight sampleDb.tasks = .error .database ∧
      listOwnedTasks codePoints (latestTasks ⟨1, 20, by decide⟩ (some ['\x00']) (by decide))
        sampleUser sampleDate.midnight sampleDb.tasks = .error .database := by
  constructor
  · rfl
  · rfl

end

end LearningTasks.Services.TaskPaging
