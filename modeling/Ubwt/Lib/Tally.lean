import Mathlib.Algebra.BigOperators.Group.Finset.Basic
import Mathlib.Data.Fintype.Card

/-!
# Ubwt.Lib.Tally

Counting the members of a finite type that satisfy a Boolean predicate, with the rules
for a predicate that changes at one member.
-/

namespace Lib

variable {ι : Type} [Fintype ι]

/-- How many members satisfy `f`. -/
def tally (f : ι → Bool) : Nat := (Finset.univ.filter (fun i => f i = true)).card

theorem tally_mono {f g : ι → Bool} (h : ∀ i, f i = true → g i = true) : tally f ≤ tally g :=
  Finset.card_le_card (Finset.monotone_filter_right _ (fun i _ => h i))

theorem tally_eq_card {f : ι → Bool} : tally f = Fintype.card ι ↔ ∀ i, f i = true := by
  rw [tally, ← Finset.card_univ, Finset.card_filter_eq_iff]
  simp

theorem tally_eq_zero {f : ι → Bool} : tally f = 0 ↔ ∀ i, f i = false := by
  rw [tally, Finset.card_eq_zero, Finset.filter_eq_empty_iff]
  simp

theorem tally_add_not (f : ι → Bool) : tally f + tally (fun i => !f i) = Fintype.card ι := by
  have hcard := Finset.card_filter_add_card_filter_not (s := Finset.univ) (fun i => f i = true)
  rw [Finset.card_univ] at hcard
  rw [tally, tally, ← hcard]
  simp only [Bool.not_eq_true', Bool.not_eq_true]

/-- Everybody that satisfies `f` satisfies `g`. -/
theorem tally_and_eq_iff {f g : ι → Bool} :
    tally (fun i => f i && g i) = tally f ↔ ∀ i, f i = true → g i = true := by
  constructor
  · intro heq i hi
    have hsub : Finset.univ.filter (fun i => (f i && g i) = true)
        ⊆ Finset.univ.filter (fun i => f i = true) := by
      refine Finset.monotone_filter_right _ fun j _ hj => ?_
      exact (Bool.and_eq_true_iff.mp hj).1
    have hsame := Finset.eq_of_subset_of_card_le hsub heq.ge
    have hmem : i ∈ Finset.univ.filter (fun i => f i = true) :=
      Finset.mem_filter.mpr ⟨Finset.mem_univ i, hi⟩
    rw [← hsame, Finset.mem_filter] at hmem
    exact (Bool.and_eq_true_iff.mp hmem.2).2
  · intro hall
    refine congrArg tally (funext fun i => ?_)
    cases hf : f i with
    | false => rfl
    | true => rw [hall i hf, Bool.and_self]

/-- One member joins. -/
theorem tally_join [DecidableEq ι] {f g : ι → Bool} (i : ι) (hf : f i = false) (hg : g i = true)
    (hother : ∀ j, j ≠ i → g j = f j) : tally g = tally f + 1 := by
  have hset : Finset.univ.filter (fun j => g j = true)
      = insert i (Finset.univ.filter (fun j => f j = true)) := by
    ext j
    by_cases hj : j = i
    · simp [hj, hg]
    · simp [hj, hother j hj]
  rw [tally, hset, Finset.card_insert_of_notMem (by simp [hf]), tally]

/-- A sum to which each of them adds the same. -/
theorem sum_ite_tally (f : ι → Bool) (n : Nat) :
    (∑ i, if f i = true then n else 0) = tally f * n := by
  rw [← Finset.sum_filter, tally]
  exact Finset.sum_const_nat fun _ _ => rfl

end Lib
