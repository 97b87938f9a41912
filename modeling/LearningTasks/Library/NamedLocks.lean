import Mathlib.Data.Option.Basic
import Mathlib.Logic.Function.Basic

namespace LearningTasks.Library.NamedLocks

variable {N K H : Type} [DecidableEq N] [DecidableEq K] (key : N → K) (name : H → N)

/-- Locks that are known by a key, with who holds them. Each of the holders wants the
lock of a name; two names may have the same key. -/
abbrev Locks (K H : Type) := K → Option H

variable {locks : Locks K H} {n : N} {h : H}

def holder (locks : Locks K H) (n : N) : Option H := (locks (key n)).filter fun h ↦ name h = n

def acquire (locks : Locks K H) (h : H) : Locks K H :=
  Function.update locks (key (name h)) (some h)

def release (locks : Locks K H) (n : N) : Locks K H := Function.update locks (key n) none

def Keyed (locks : Locks K H) : Prop := ∀ k h, locks k = some h → key (name h) = k

variable {key name}

omit [DecidableEq K] in
theorem holder_some : holder key name locks n = some h ↔ locks (key n) = some h ∧ name h = n := by
  rw [holder, Option.filter_eq_some_iff, decide_eq_true_eq]

omit [DecidableEq K] in
theorem holder_of_free (hfree : locks (key n) = none) : holder key name locks n = none := by
  rw [holder, hfree, Option.filter_none]

theorem holder_acquire (hfree : locks (key (name h)) = none) (m : N) :
    holder key name (acquire key name locks h) m =
      if m = name h then some h else holder key name locks m := by
  by_cases hm : m = name h
  · rw [if_pos hm, holder_some, hm]
    exact ⟨Function.update_self .., rfl⟩
  · rw [if_neg hm]
    by_cases hkey : key m = key (name h)
    · have hheld : acquire key name locks h (key m) = some h := by
        rw [hkey]
        exact Function.update_self ..
      have hnone : holder key name locks m = none := holder_of_free (hkey ▸ hfree)
      rw [hnone, holder, hheld, Option.filter_some, if_neg (by simpa using Ne.symm hm)]
    · rw [holder, holder, acquire, Function.update_of_ne hkey]

theorem holder_release (hheld : holder key name locks n = some h) (m : N) :
    holder key name (release key locks n) m =
      if m = n then none else holder key name locks m := by
  obtain ⟨hlock, hname⟩ := holder_some.mp hheld
  by_cases hkey : key m = key n
  · have hfree : release key locks n (key m) = none := by
      rw [hkey]
      exact Function.update_self ..
    rw [holder_of_free hfree]
    split
    · rfl
    · next hm =>
      rw [holder, hkey, hlock, Option.filter_some, if_neg]
      rw [hname]
      simpa using Ne.symm hm
  · rw [if_neg fun hm ↦ hkey (congrArg key hm), holder, holder, release,
      Function.update_of_ne hkey]

omit [DecidableEq N] in
theorem Keyed.acquire (hk : Keyed key name locks) (h : H) :
    Keyed key name (acquire key name locks h) := by
  intro k h' hk'
  by_cases hkey : k = key (name h)
  · subst hkey
    rw [NamedLocks.acquire, Function.update_self] at hk'
    cases hk'
    rfl
  · rw [NamedLocks.acquire, Function.update_of_ne hkey] at hk'
    exact hk k h' hk'

omit [DecidableEq N] in
theorem Keyed.release (hk : Keyed key name locks) (n : N) :
    Keyed key name (release key locks n) := by
  intro k h hk'
  by_cases hkey : k = key n
  · subst hkey
    rw [NamedLocks.release, Function.update_self] at hk'
    cases hk'
  · rw [NamedLocks.release, Function.update_of_ne hkey] at hk'
    exact hk k h hk'

end LearningTasks.Library.NamedLocks
