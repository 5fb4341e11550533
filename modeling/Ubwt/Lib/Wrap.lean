import Mathlib.Algebra.BigOperators.Group.List.Basic
import Mathlib.Algebra.GroupWithZero.Nat

/-!
# Ubwt.Lib.Wrap

Accumulation in machine words: a running sum of words is the sum of their values, **wrapped
once**, whatever the width; and a quotient of a wrapped sum is the quotient of the sum exactly
if the sum has not wrapped.
-/

namespace Lib

variable {α β : Type} [Add α]

/-- A type of words whose addition wraps at `modulus`. -/
structure Wraps (toNat : α → Nat) (modulus : Nat) : Prop where
  lt : ∀ a, toNat a < modulus
  add : ∀ a b, toNat (a + b) = (toNat a + toNat b) % modulus

/-- A running sum, from any start. -/
theorem Wraps.toNat_foldl_add {toNat : α → Nat} {modulus : Nat} (h : Wraps toNat modulus)
    (f : β → α) (xs : List β) (a : α) :
    toNat (xs.foldl (fun s x => s + f x) a)
      = (toNat a + (xs.map (fun x => toNat (f x))).sum) % modulus := by
  induction xs generalizing a with
  | nil => exact (Nat.mod_eq_of_lt (h.lt a)).symm
  | cons x xs ih =>
      rw [List.foldl_cons, ih, h.add, Nat.mod_add_mod, List.map_cons, List.sum_cons, Nat.add_assoc]

theorem wraps_uint32 : Wraps UInt32.toNat (2 ^ 32) where
  lt := UInt32.toNat_lt
  add := UInt32.toNat_add

theorem wraps_uint64 : Wraps UInt64.toNat (2 ^ 64) where
  lt := UInt64.toNat_lt
  add := UInt64.toNat_add

/-- Wrapping a sum takes a whole modulus away, which a quotient by at most the modulus shows. -/
theorem mod_div_eq_iff {s m n : Nat} (hn : 0 < n) (hle : n ≤ m) :
    s % m / n = s / n ↔ s < m := by
  constructor
  · intro heq
    by_contra hge
    have hwrapped : s % m + m ≤ s := by
      rw [Nat.mod_eq_sub_mod (Nat.le_of_not_lt hge)]
      have := Nat.mod_le (s - m) m
      omega
    have hstep : s % m / n + 1 ≤ s / n := by
      rw [← Nat.add_div_right _ hn]
      exact Nat.div_le_div_right (by omega)
    omega
  · intro hlt
    rw [Nat.mod_eq_of_lt hlt]

/-- What contributes nothing can be left out of a sum. -/
theorem sum_map_filter {f : β → Nat} {p : β → Bool} {xs : List β}
    (h : ∀ x ∈ xs, p x = false → f x = 0) : ((xs.filter p).map f).sum = (xs.map f).sum := by
  induction xs with
  | nil => rfl
  | cons x xs ih =>
      obtain ⟨hx, hxs⟩ := List.forall_mem_cons.mp h
      cases hp : p x with
      | true => rw [List.filter_cons_of_pos hp, List.map_cons, List.map_cons, List.sum_cons,
          List.sum_cons, ih hxs]
      | false => rw [List.filter_cons_of_neg (by simp [hp]), List.map_cons, List.sum_cons, hx hp,
          Nat.zero_add, ih hxs]

end Lib
