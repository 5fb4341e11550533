import Mathlib.Algebra.GroupWithZero.Nat

/-!
# Ubwt.Lib.RoundRobin

A cursor that hands out pieces of one length from a store of fixed size, and starts again where
the next piece would not fit. **The pieces come round**: the `k`-th is the one of index
`k % (size / count)`, and the tail that is shorter than a piece is never touched.
-/

namespace Lib.RoundRobin

/-- Where the next piece is taken, if the cursor stands at `cursor`. -/
def start (size count cursor : Nat) : Nat := if cursor + count > size then 0 else cursor

/-- The cursor after that piece. -/
def advance (size count cursor : Nat) : Nat := start size count cursor + count

/-- The cursor after `k` pieces. -/
def cursor (size count : Nat) : Nat → Nat
  | 0 => 0
  | k + 1 => advance size count (cursor size count k)

variable {size count : Nat}

/-- A piece taken anywhere is inside the store. -/
theorem start_add_le (hfits : count ≤ size) (c : Nat) : start size count c + count ≤ size := by
  unfold start
  split
  · omega
  · omega

/-- The piece after the one of index `i`: the next one, or the first if that was the last. -/
theorem start_after (hpos : 0 < count) {i : Nat} (hi : i < size / count) :
    start size count (i * count + count) = (i + 1) % (size / count) * count := by
  have hsucc : i * count + count = (i + 1) * count := (Nat.succ_mul i count).symm
  rcases Nat.lt_or_ge (i + 1) (size / count) with hmore | hlast
  · have hroom : (i + 1 + 1) * count ≤ size :=
      Nat.le_trans (Nat.mul_le_mul_right count hmore) (Nat.div_mul_le_self size count)
    rw [Nat.succ_mul (i + 1)] at hroom
    rw [start, hsucc, if_neg (Nat.not_lt.mpr hroom), Nat.mod_eq_of_lt hmore]
  · have hend : i + 1 = size / count := by omega
    have hfull : size < (i + 1) * count + count := by
      rw [hend, ← Nat.succ_mul, Nat.mul_comm]
      exact Nat.lt_mul_div_succ size hpos
    rw [start, hsucc, if_pos hfull, hend, Nat.mod_self, Nat.zero_mul]

/-- **The run**: the `k`-th piece, by induction on the calls. -/
theorem start_cursor (hpos : 0 < count) (hfits : count ≤ size) (k : Nat) :
    start size count (cursor size count k) = k % (size / count) * count := by
  have hq : 0 < size / count := Nat.div_pos hfits hpos
  induction k with
  | zero =>
      rw [Nat.zero_mod, Nat.zero_mul, cursor, start, if_neg]
      omega
  | succ k ih =>
      rw [cursor, advance, ih, start_after hpos (Nat.mod_lt k hq), Nat.mod_add_mod]

/-- The cursor never leaves the store. -/
theorem cursor_le (hfits : count ≤ size) (k : Nat) : cursor size count k ≤ size := by
  cases k with
  | zero => exact Nat.zero_le size
  | succ k => exact start_add_le hfits _

end Lib.RoundRobin
