import Mathlib.Algebra.Order.BigOperators.Group.Finset

/-!
# Ubwt.Lib.Growth

Counters that only grow. **A run in whose every round one of them grows is no longer than their
bounds are far** (`rounds_le`); which one grows may change from round to round.
-/

namespace Lib

/-- Between two rounds a counter has grown exactly if it has in one of them. -/
theorem lt_iff_exists_growth {f : Nat → Nat} (hmono : ∀ k, f k ≤ f (k + 1)) {k n : Nat}
    (hle : k ≤ n) : f k < f n ↔ ∃ j, k ≤ j ∧ j < n ∧ f j < f (j + 1) := by
  have hmonotone : Monotone f := monotone_nat_of_le_succ hmono
  constructor
  · intro hlt
    by_contra hnone
    have hconst : ∀ m, k ≤ m → m ≤ n → f m = f k := by
      intro m hkm
      induction m, hkm using Nat.le_induction with
      | base => exact fun _ => rfl
      | succ m hkm ih =>
          intro hmn
          have hstay : ¬f m < f (m + 1) := fun hgrow => hnone ⟨m, hkm, hmn, hgrow⟩
          rw [← ih (Nat.le_of_succ_le hmn)]
          exact Nat.le_antisymm (Nat.not_lt.mp hstay) (hmono m)
    exact Nat.lt_irrefl _ (hconst n hle (Nat.le_refl n) ▸ hlt)
  · intro hgrows
    obtain ⟨j, hkj, hjn, hgrow⟩ := hgrows
    calc f k ≤ f j := hmonotone hkj
      _ < f (j + 1) := hgrow
      _ ≤ f n := hmonotone hjn

variable {ι : Type} {s : Finset ι} {f : ι → Nat → Nat} {n bound : Nat}

/-- Each round adds one to the sum. -/
theorem sum_add_rounds_le (hmono : ∀ i ∈ s, ∀ k, f i k ≤ f i (k + 1))
    (hgrow : ∀ k < n, ∃ i ∈ s, f i k < f i (k + 1)) :
    ∑ i ∈ s, f i 0 + n ≤ ∑ i ∈ s, f i n := by
  induction n with
  | zero => exact Nat.le_refl _
  | succ n ih =>
      have hle := ih fun k hk => hgrow k (Nat.lt_succ_of_lt hk)
      have hlt : ∑ i ∈ s, f i n < ∑ i ∈ s, f i (n + 1) :=
        Finset.sum_lt_sum (fun i hi => hmono i hi n) (hgrow n (Nat.lt_succ_self n))
      omega

/-- The number of rounds, from where the counters start and a bound at the end. -/
theorem rounds_le {start : Nat} (hmono : ∀ i ∈ s, ∀ k, f i k ≤ f i (k + 1))
    (hgrow : ∀ k < n, ∃ i ∈ s, f i k < f i (k + 1)) (hstart : ∀ i ∈ s, start ≤ f i 0)
    (hbound : ∀ i ∈ s, f i n ≤ bound) : s.card * start + n ≤ s.card * bound := by
  have hconst : ∀ a, ∑ _i ∈ s, a = s.card * a := fun _ => Finset.sum_const_nat fun _ _ => rfl
  calc s.card * start + n = ∑ _i ∈ s, start + n := by rw [hconst]
    _ ≤ ∑ i ∈ s, f i 0 + n := Nat.add_le_add_right (Finset.sum_le_sum hstart) n
    _ ≤ ∑ i ∈ s, f i n := sum_add_rounds_le hmono hgrow
    _ ≤ ∑ _i ∈ s, bound := Finset.sum_le_sum hbound
    _ = s.card * bound := hconst bound

end Lib
