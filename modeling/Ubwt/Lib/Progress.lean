import Mathlib.Logic.Relation
import Mathlib.Order.WellFounded

/-!
# Ubwt.Lib.Progress

Systems of agents that wait for each other, and runs that a measure bounds.

**Nobody waits for ever if everybody waits for somebody of a lower rank** (`exists_free`): the
agent of the lowest rank has nobody to wait for. With a measure that every step lowers, a
run gets to a state without a step, in at most as many steps (`Lowers.length_le`,
`Lowers.exists_stuck`).
-/

namespace Lib

/-- **No deadlock.** Of the agents that are not done, one is free. -/
theorem exists_free {ι ρ : Type} [LT ρ] [WellFoundedLT ρ] (rank : ι → ρ) {live free : ι → Prop}
    (hlive : ∃ i, live i)
    (hblocked : ∀ i, live i → ¬free i → ∃ j, live j ∧ rank j < rank i) : ∃ i, live i ∧ free i := by
  obtain ⟨i, hi⟩ := hlive
  induction h : rank i using WellFoundedLT.induction generalizing i with
  | _ r ih =>
      subst h
      by_cases hfree : free i
      · exact ⟨i, hi, hfree⟩
      · obtain ⟨j, hj, hlt⟩ := hblocked i hi hfree
        exact ih (rank j) hlt j hj rfl

/-- Two numbers in lexicographic order, the second one below `B`, as one number. -/
theorem digits_lt {B a a' b b' : Nat} (hb' : b' < B) (h : a' < a ∨ a' = a ∧ b' < b) :
    a' * B + b' < a * B + b := by
  rcases h with hlt | ⟨rfl, hlt⟩
  · calc a' * B + b' < a' * B + B := Nat.add_lt_add_left hb' _
      _ = (a' + 1) * B := (Nat.succ_mul a' B).symm
      _ ≤ a * B := Nat.mul_le_mul_right B hlt
      _ ≤ a * B + b := Nat.le_add_right _ _
  · exact Nat.add_lt_add_left hlt _

/-- Every step from a state of the invariant keeps it and lowers the measure. -/
structure Lowers {α : Type} (r : α → α → Prop) (inv : α → Prop) (measure : α → Nat) : Prop where
  keeps : ∀ s s', inv s → r s s' → inv s'
  lowers : ∀ s s', inv s → r s s' → measure s' < measure s

namespace Lowers

variable {α : Type} {r : α → α → Prop} {inv : α → Prop} {measure : α → Nat} {s : α}

/-- What a run of `n` steps leaves of the measure. -/
theorem run_le (h : Lowers r inv measure) {run : Nat → α} (hinv : inv (run 0)) {n : Nat}
    (hrun : ∀ i < n, r (run i) (run (i + 1))) :
    inv (run n) ∧ n + measure (run n) ≤ measure (run 0) := by
  induction n with
  | zero => exact ⟨hinv, Nat.le_of_eq (Nat.zero_add _)⟩
  | succ n ih =>
      obtain ⟨hn, hle⟩ := ih fun i hi => hrun i (Nat.lt_succ_of_lt hi)
      have hstep := hrun n (Nat.lt_succ_self n)
      have hlt := h.lowers _ _ hn hstep
      exact ⟨h.keeps _ _ hn hstep, by omega⟩

/-- **A run has at most as many steps as the measure says.** -/
theorem length_le (h : Lowers r inv measure) {run : Nat → α} (hinv : inv (run 0)) {n : Nat}
    (hrun : ∀ i < n, r (run i) (run (i + 1))) : n ≤ measure (run 0) :=
  Nat.le_trans (Nat.le_add_right _ _) (h.run_le hinv hrun).2

/-- **A run can be taken to its end.** -/
theorem exists_stuck (h : Lowers r inv measure) (hs : inv s) :
    ∃ t, Relation.ReflTransGen r s t ∧ ∀ t', ¬r t t' := by
  induction hm : measure s using Nat.strong_induction_on generalizing s with
  | _ m ih =>
      subst hm
      by_cases hstuck : ∃ s', r s s'
      · obtain ⟨s', hstep⟩ := hstuck
        obtain ⟨t, hreach, ht⟩ := ih _ (h.lowers _ _ hs hstep) (h.keeps _ _ hs hstep) rfl
        exact ⟨t, hreach.head hstep, ht⟩
      · exact ⟨s, .refl, fun s' hstep => hstuck ⟨s', hstep⟩⟩

end Lowers

end Lib
