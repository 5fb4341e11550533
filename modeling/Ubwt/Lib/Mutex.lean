import Mathlib.Tactic.ByContra

/-!
# Ubwt.Lib.Mutex

A mutex is the thread that owns it, if any. `OwnedBy m holds` says that the owner is the
one thread whose program counter lies between a lock and its unlock; mutual exclusion
(`OwnedBy.unique`) is then a consequence, and each operation has a rule.
-/

namespace Lib

variable {ι : Type} {m : Option ι} {holds holds' : ι → Bool} {i j : ι}

/-- The owner of `m` is the thread that `holds` it. -/
def OwnedBy (m : Option ι) (holds : ι → Bool) : Prop := ∀ i, m = some i ↔ holds i = true

/-- Mutual exclusion. -/
theorem OwnedBy.unique (h : OwnedBy m holds) (hi : holds i = true) (hj : holds j = true) :
    i = j := by
  have hmi := (h i).mpr hi
  rw [(h j).mpr hj] at hmi
  exact (Option.some.inj hmi).symm

/-- Another thread than the owner does not hold the mutex. -/
theorem OwnedBy.other (h : OwnedBy m holds) (hi : holds i = true) (hne : j ≠ i) :
    holds j = false := by
  by_contra hj
  exact hne (h.unique (Bool.of_not_eq_false hj) hi)

theorem OwnedBy.free (h : OwnedBy none holds) (i : ι) : holds i = false := by
  by_contra hi
  cases (h i).mpr (Bool.of_not_eq_false hi)

/-- A thread that locks a free mutex owns it. -/
theorem OwnedBy.lock (h : OwnedBy none holds) (hi : holds' i = true)
    (hother : ∀ j, j ≠ i → holds' j = holds j) : OwnedBy (some i) holds' := by
  intro j
  by_cases hj : j = i
  · subst hj
    exact ⟨fun _ => hi, fun _ => rfl⟩
  · simp [hother j hj, h.free j, Ne.symm hj]

/-- The owner that unlocks a mutex leaves it free. -/
theorem OwnedBy.unlock (h : OwnedBy m holds) (hi : holds i = true) (hi' : holds' i = false)
    (hother : ∀ j, j ≠ i → holds' j = holds j) : OwnedBy none holds' := by
  intro j
  by_cases hj : j = i
  · subst hj
    simp [hi']
  · simp [hother j hj, h.other hi hj]

/-- A step that takes no part leaves it as it was. -/
theorem OwnedBy.congr (h : OwnedBy m holds) (heq : ∀ j, holds' j = holds j) :
    OwnedBy m holds' := by
  intro j
  rw [heq j]
  exact h j

end Lib
