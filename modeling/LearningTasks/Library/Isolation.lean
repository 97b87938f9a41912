import LearningTasks.Library.KeyLocks

namespace LearningTasks.Library.Isolation

open Transition KeyLocks

variable {τ δ π ι κ υ : Type*}

/-- The users that the phases and the statements of transactions are about; a transaction
that has not started is nobody's. -/
structure Owners (π ι υ : Type*) where
  owner : π → Option υ
  actor : ι → Option υ

/-- What is to be shown of single statements and commits for a user who is to notice nothing
of the others. `View` relates a store to what the user would have made of it alone, and
`Seen` a phase of a transaction of the user to what it would be then. -/
structure Isolated (P : Protocol δ π ι κ) (O : Owners π ι υ) (a : υ) (DbInv : δ → Prop)
    (PhaseInv : δ → π → Prop) (View : δ → δ → Prop) (Seen : π → π → Prop) : Prop where
  idle : O.owner P.idle = none
  unowned : ∀ p, O.owner p = none → p = P.idle
  seen : Seen P.idle P.idle
  owner : ∀ {db p i p'}, PhaseInv db p → P.advance db p i = some p' →
    O.owner p' = (O.owner p).or (O.actor i)
  advance : ∀ {db db' p q i p'}, DbInv db → PhaseInv db p → View db db' → Seen p q →
    O.owner p' = some a → P.advance db p i = some p' →
    ∃ q', P.advance db' q i = some q' ∧ Seen p' q' ∧ P.holds q' = P.holds p'
  commit : ∀ {db db' p q db₁}, DbInv db → PhaseInv db p → View db db' → Seen p q →
    O.owner p = some a → P.commit db p = some db₁ →
    ∃ db₁', P.commit db' q = some db₁' ∧ View db₁ db₁'
  others : ∀ {db db' p db₁}, DbInv db → PhaseInv db p → View db db' → O.owner p ≠ some a →
    P.commit db p = some db₁ → View db₁ db'

structure Beside (P : Protocol δ π ι κ) (O : Owners π ι υ) (a : υ) (View : δ → δ → Prop)
    (Seen : π → π → Prop) (s s' : State τ δ π κ) : Prop where
  db : View s.db s'.db
  mine : ∀ t, O.owner (s.phase t) = some a → Seen (s.phase t) (s'.phase t)
  other : ∀ t, O.owner (s.phase t) ≠ some a → s'.phase t = P.idle
  lock : ∀ k t, s'.lock k = some t → s.lock k = some t ∧ O.owner (s.phase t) = some a

variable {P : Protocol δ π ι κ} {O : Owners π ι υ} {a : υ} {DbInv : δ → Prop}
  {PhaseInv : δ → π → Prop} {View : δ → δ → Prop} {Seen : π → π → Prop}
  {s s' s₁ : State τ δ π κ}

theorem Beside.free (h : Beside P O a View Seen s s') {t : τ} {ks : List κ} (hf : s.Free t ks) :
    s'.Free t ks := by
  intro k hk
  cases hl : s'.lock k with
  | none => exact .inl rfl
  | some u =>
    obtain ⟨hlock, -⟩ := h.lock k u hl
    rcases hf k hk with hn | ht
    · rw [hlock] at hn
      cases hn
    · exact .inr (hlock.symm.trans ht)

variable [DecidableEq τ]

theorem Beside.finish (h : Beside P O a View Seen s s') (hidle : O.owner P.idle = none) {t : τ}
    {db db' : δ} (hdb : View db db') :
    Beside P O a View Seen (s.finish P.idle t db) (s'.finish P.idle t db') := by
  have hself (s : State τ δ π κ) (db : δ) : (s.finish P.idle t db).phase t = P.idle :=
    Function.update_self ..
  have hother {u : τ} (hut : u ≠ t) (s : State τ δ π κ) (db : δ) :
      (s.finish P.idle t db).phase u = s.phase u := Function.update_of_ne hut ..
  refine ⟨hdb, fun u hu ↦ ?_, fun u hu ↦ ?_, fun k u hl ↦ ?_⟩
  · by_cases hut : u = t
    · subst hut
      rw [hself, hidle] at hu
      cases hu
    · rw [hother hut] at hu ⊢
      rw [hother hut]
      exact h.mine u hu
  · by_cases hut : u = t
    · subst hut
      exact hself s' db'
    · rw [hother hut] at hu ⊢
      exact h.other u hu
  · simp only [State.finish] at hl
    split_ifs at hl with hkt
    obtain ⟨hlock, hu⟩ := h.lock k u hl
    have hut : u ≠ t := fun heq ↦ hkt (heq ▸ hl)
    rw [hother hut]
    refine ⟨?_, hu⟩
    change (if s.lock k = some t then none else s.lock k) = some u
    rwa [if_neg fun hlt ↦ hut (Option.some.inj (hlock.symm.trans hlt))]

theorem Beside.finish_other (h : Beside P O a View Seen s s') (hidle : O.owner P.idle = none)
    {t : τ} {db : δ} (hbefore : O.owner (s.phase t) ≠ some a) (hdb : View db s'.db) :
    Beside P O a View Seen (s.finish P.idle t db) s' := by
  have hother {u : τ} (hut : u ≠ t) : (s.finish P.idle t db).phase u = s.phase u :=
    Function.update_of_ne hut ..
  refine ⟨hdb, fun u hu ↦ ?_, fun u hu ↦ ?_, fun k u hl ↦ ?_⟩
  · by_cases hut : u = t
    · subst hut
      have hself : (s.finish P.idle u db).phase u = P.idle := Function.update_self ..
      rw [hself, hidle] at hu
      cases hu
    · rw [hother hut] at hu ⊢
      exact h.mine u hu
  · by_cases hut : u = t
    · subst hut
      exact h.other u hbefore
    · rw [hother hut] at hu
      exact h.other u hu
  · obtain ⟨hlock, hu⟩ := h.lock k u hl
    have hut : u ≠ t := fun heq ↦ hbefore (heq ▸ hu)
    rw [hother hut]
    refine ⟨?_, hu⟩
    change (if s.lock k = some t then none else s.lock k) = some u
    rwa [if_neg fun hlt ↦ hut (Option.some.inj (hlock.symm.trans hlt))]

variable [DecidableEq κ]

theorem Beside.enter (h : Beside P O a View Seen s s') {t : τ} {p q : π} {ks : List κ}
    (howner : O.owner p = some a) (hseen : Seen p q) :
    Beside P O a View Seen (s.enter t p ks) (s'.enter t q ks) := by
  refine ⟨h.db, fun u hu ↦ ?_, fun u hu ↦ ?_, fun k u hl ↦ ?_⟩
  · by_cases hut : u = t
    · subst hut
      rwa [enter_phase_self, enter_phase_self]
    · rw [enter_phase_of_ne s p ks hut] at hu ⊢
      rw [enter_phase_of_ne s' q ks hut]
      exact h.mine u hu
  · by_cases hut : u = t
    · subst hut
      rw [enter_phase_self] at hu
      exact absurd howner hu
    · rw [enter_phase_of_ne s p ks hut] at hu
      rw [enter_phase_of_ne s' q ks hut]
      exact h.other u hu
  · rw [enter_lock] at hl ⊢
    by_cases hut : u = t
    · subst hut
      rw [enter_phase_self]
      refine ⟨?_, howner⟩
      split_ifs at hl ⊢
      · rfl
      · exact (h.lock k u hl).1
    · rw [enter_phase_of_ne s p ks hut]
      split_ifs at hl ⊢
      · exact absurd (Option.some.inj hl).symm hut
      · exact h.lock k u hl

theorem Beside.enter_other (h : Beside P O a View Seen s s') {t : τ} {p : π} {ks : List κ}
    (hbefore : O.owner (s.phase t) ≠ some a) (howner : O.owner p ≠ some a) (hf : s.Free t ks) :
    Beside P O a View Seen (s.enter t p ks) s' := by
  refine ⟨h.db, fun u hu ↦ ?_, fun u hu ↦ ?_, fun k u hl ↦ ?_⟩
  · by_cases hut : u = t
    · subst hut
      rw [enter_phase_self] at hu
      exact absurd hu howner
    · rw [enter_phase_of_ne s p ks hut] at hu ⊢
      exact h.mine u hu
  · by_cases hut : u = t
    · subst hut
      exact h.other u hbefore
    · rw [enter_phase_of_ne s p ks hut] at hu
      exact h.other u hu
  · obtain ⟨hlock, hu⟩ := h.lock k u hl
    have hut : u ≠ t := fun heq ↦ hbefore (heq ▸ hu)
    have hk : k ∉ ks := by
      intro hk
      rcases hf k hk with hn | ht
      · rw [hlock] at hn
        cases hn
      · exact hut (Option.some.inj (hlock.symm.trans ht))
    rw [enter_lock, if_neg hk, enter_phase_of_ne s p ks hut]
    exact ⟨hlock, hu⟩

variable [DecidableEq υ]

def Owners.concerns (O : Owners π ι υ) (a : υ) (s : State τ δ π κ) : Move τ ι → Bool
  | .advance t i => (O.owner (s.phase t)).or (O.actor i) = some a
  | .commit t | .abort t => O.owner (s.phase t) = some a

def Owners.purge (O : Owners π ι υ) (P : Protocol δ π ι κ) (a : υ) (s : State τ δ π κ) :
    List (Move τ ι) → List (Move τ ι)
  | [] => []
  | m :: ms =>
    let rest := match step P s m with
      | some s' => O.purge P a s' ms
      | none => []
    if O.concerns a s m then m :: rest else rest

theorem Isolated.step_mine (hP : Isolated P O a DbInv PhaseInv View Seen)
    (hi : Inv P DbInv PhaseInv s) (h : Beside P O a View Seen s s') {m : Move τ ι}
    (hm : O.concerns a s m = true) (hs : step P s m = some s₁) :
    ∃ s₁', step P s' m = some s₁' ∧ Beside P O a View Seen s₁ s₁' := by
  have hseen (t : τ) (hnone : O.owner (s.phase t) = none ∨ O.owner (s.phase t) = some a) :
      Seen (s.phase t) (s'.phase t) := by
    rcases hnone with hnone | hmine
    · rw [h.other t (by rw [hnone]; exact nofun), hP.unowned _ hnone]
      exact hP.seen
    · exact h.mine t hmine
  obtain ⟨t, i, p, rfl, hp, hfree, rfl⟩ | ⟨t, db, rfl, hdb, rfl⟩ | ⟨t, rfl, rfl⟩ := step_cases hs
  · have howner : O.owner p = some a :=
      (hP.owner (hi.phase t) hp).trans (of_decide_eq_true hm)
    have hbefore : O.owner (s.phase t) = none ∨ O.owner (s.phase t) = some a := by
      have hmover := of_decide_eq_true hm
      cases hb : O.owner (s.phase t) with
      | none => exact .inl rfl
      | some b =>
        rw [hb, Option.some_or] at hmover
        exact .inr hmover
    obtain ⟨q, hq, hpq, hholds⟩ :=
      hP.advance hi.db (hi.phase t) h.db (hseen t hbefore) howner hp
    refine ⟨s'.enter t q (P.holds p), ?_, h.enter howner hpq⟩
    rw [step, hq, Option.bind_some, hholds, if_pos (h.free hfree)]
  · have howner := of_decide_eq_true hm
    obtain ⟨db', hdb', hview⟩ :=
      hP.commit hi.db (hi.phase t) h.db (hseen t (.inr howner)) howner hdb
    refine ⟨s'.finish P.idle t db', ?_, h.finish hP.idle hview⟩
    rw [step, hdb']
    rfl
  · exact ⟨s'.finish P.idle t s'.db, rfl, h.finish hP.idle h.db⟩

theorem Isolated.step_other (hP : Isolated P O a DbInv PhaseInv View Seen)
    (hi : Inv P DbInv PhaseInv s) (h : Beside P O a View Seen s s') {m : Move τ ι}
    (hm : ¬ O.concerns a s m = true) (hs : step P s m = some s₁) :
    Beside P O a View Seen s₁ s' := by
  obtain ⟨t, i, p, rfl, hp, hfree, rfl⟩ | ⟨t, db, rfl, hdb, rfl⟩ | ⟨t, rfl, rfl⟩ := step_cases hs
  · have hmover : (O.owner (s.phase t)).or (O.actor i) ≠ some a := fun hmover ↦
      hm (decide_eq_true hmover)
    refine h.enter_other (fun hbefore ↦ hmover ?_) (fun howner ↦ hmover ?_) hfree
    · rw [hbefore, Option.some_or]
    · rw [← hP.owner (hi.phase t) hp, howner]
  · have howner : O.owner (s.phase t) ≠ some a := fun howner ↦ hm (decide_eq_true howner)
    exact h.finish_other hP.idle howner (hP.others hi.db (hi.phase t) h.db howner hdb)
  · exact h.finish_other hP.idle (fun howner ↦ hm (decide_eq_true howner)) h.db

variable {Same : κ → δ → δ → Prop} {Later : δ → δ → Prop}

/-- Out of any run the moves of a user are a run, which shows the user the same. -/
theorem Isolated.run (hP : Isolated P O a DbInv PhaseInv View Seen)
    (hsound : Sound P DbInv PhaseInv Same Later) {init : δ → Prop} {ms : List (Move τ ι)}
    (hi : Inv P DbInv PhaseInv s) (h : Beside P O a View Seen s s')
    (hrun : (machine P init).exec s ms = some s₁) :
    ∃ s₁', (machine P init).exec s' (O.purge P a s ms) = some s₁' ∧
      Beside P O a View Seen s₁ s₁' := by
  induction ms generalizing s s' with
  | nil =>
    obtain rfl := Option.some.inj hrun
    exact ⟨s', rfl, h⟩
  | cons m ms ih =>
    obtain ⟨s₂, hs, hrest⟩ := Option.bind_eq_some_iff.mp hrun
    have hi' := inv_step hsound hi hs
    have hpurge : O.purge P a s (m :: ms) =
        if O.concerns a s m then m :: O.purge P a s₂ ms else O.purge P a s₂ ms := by
      have hstep : step P s m = some s₂ := hs
      rw [Owners.purge, hstep]
    rw [hpurge]
    by_cases hm : O.concerns a s m = true
    · obtain ⟨s₂', hs', h'⟩ := hP.step_mine hi h hm hs
      obtain ⟨s₁', hexec, hbeside⟩ := ih hi' h' hrest
      refine ⟨s₁', ?_, hbeside⟩
      rw [if_pos hm]
      exact Option.bind_eq_some_iff.mpr ⟨s₂', hs', hexec⟩
    · obtain ⟨s₁', hexec, hbeside⟩ := ih hi' (hP.step_other hi h hm hs) hrest
      refine ⟨s₁', ?_, hbeside⟩
      rw [if_neg hm]
      exact hexec

end LearningTasks.Library.Isolation
