import Ubwt.Base

/-!
# Ubwt.Runtime.Clock

`datetime_now_us`, and what its callers make of it: the difference of two readings.

The seconds are multiplied by 1000000 in the width of `tv_sec`, and converted to 64 bits only
then. With 32 bits the product wraps every 4294 seconds, and **a time is exact if and only if
the product has not wrapped between its two readings** (`elapsedExact_iff`).
-/

namespace Ubwt

/-- The width of `long` and `time_t`. -/
inductive LongWidth
  | w32
  | w64
  deriving Repr, DecidableEq

/-- The number of values of the type. -/
def LongWidth.modulus : LongWidth → Nat
  | w32 => 4294967296
  | w64 => 18446744073709551616

/-- What `gettimeofday()` stores. -/
structure Timeval where
  sec : Nat
  usec : Nat
  sec_lt : sec < 2 ^ 31
  usec_lt : usec < 1000000

/-- The reading in microseconds. -/
def Timeval.us (tv : Timeval) : Nat := tv.sec * 1000000 + tv.usec

/-- `tv.tv_sec * 1000000`, in the width of its operand. -/
def secondsProduct (w : LongWidth) (tv : Timeval) : Int :=
  Int.bmod (tv.sec * 1000000) w.modulus

/-- `datetime_now_us()`, when the clock reads `tv`. -/
def datetimeNowUs (w : LongWidth) (tv : Timeval) : UInt64 :=
  UInt64.ofInt (secondsProduct w tv) + UInt64.ofNat tv.usec

/-- The difference of two readings: the time that `_talk_sender_handshake()`,
`_talk_receiver_stream()` and `current_time_elapsed()` go by. -/
def elapsedUs (w : LongWidth) (start now : Timeval) : UInt64 :=
  datetimeNowUs w now - datetimeNowUs w start

/-- How often the product has wrapped, in 32 bits. -/
def wraps32 (tv : Timeval) : Nat := (tv.sec * 1000000 + 2147483648) / 4294967296

/-- The difference is the time between the readings. -/
def ElapsedExact (w : LongWidth) (start now : Timeval) : Prop :=
  (elapsedUs w start now).toNat = now.us - start.us

/-- In 64 bits the product does not wrap. -/
theorem secondsProduct_w64 (tv : Timeval) : secondsProduct .w64 tv = tv.sec * 1000000 := by
  have hsec := tv.sec_lt
  rw [secondsProduct, LongWidth.modulus]
  exact Int.bmod_eq_of_le (by omega) (by omega)

/-- In 32 bits a wrap takes 2^32 away. -/
theorem secondsProduct_w32 (tv : Timeval) :
    secondsProduct .w32 tv = (tv.sec : Int) * 1000000 - 2 ^ 32 * wraps32 tv := by
  rw [secondsProduct, LongWidth.modulus, wraps32, Int.bmod_def]
  split <;> omega

/-- A reading, up to the width of the result. -/
theorem datetimeNowUs_mod (w : LongWidth) (tv : Timeval) :
    ((datetimeNowUs w tv).toNat : Int) = (secondsProduct w tv + tv.usec) % 2 ^ 64 := by
  have hnonneg : 0 ≤ secondsProduct w tv % 2 ^ 64 := Int.emod_nonneg _ (by norm_num)
  rw [datetimeNowUs, UInt64.toNat_add, UInt64.ofInt, UInt64.toNat_ofNat', UInt64.toNat_ofNat']
  omega

/-- A difference of words, up to their width. -/
theorem toNat_sub_emod (a b : UInt64) :
    ((a - b).toNat : Int) = ((a.toNat : Int) - b.toNat) % 2 ^ 64 := by
  have ha := a.toNat_lt
  have hb := b.toNat_lt
  rw [UInt64.toNat_sub]
  omega

/-- A difference of readings, up to the width of the result. -/
theorem elapsedUs_mod (w : LongWidth) (start now : Timeval) :
    ((elapsedUs w start now).toNat : Int)
      = (secondsProduct w now + now.usec - (secondsProduct w start + start.usec)) % 2 ^ 64 := by
  rw [elapsedUs, toNat_sub_emod, datetimeNowUs_mod, datetimeNowUs_mod, ← Int.sub_emod]

theorem elapsedExact_w64 {start now : Timeval} (h : start.us ≤ now.us) :
    ElapsedExact .w64 start now := by
  have hmod := elapsedUs_mod .w64 start now
  have hsec := now.sec_lt
  have husec := now.usec_lt
  rw [secondsProduct_w64, secondsProduct_w64] at hmod
  unfold ElapsedExact
  unfold Timeval.us at *
  omega

theorem elapsedExact_w32 {start now : Timeval} (h : start.us ≤ now.us) :
    ElapsedExact .w32 start now ↔ wraps32 start = wraps32 now := by
  have hmod := elapsedUs_mod .w32 start now
  have hsec := now.sec_lt
  have husec := now.usec_lt
  have hstart := start.sec_lt
  rw [secondsProduct_w32, secondsProduct_w32] at hmod
  -- A product wraps at most 500000 times, so that no difference in wraps is one of 64 bits.
  have hfew : wraps32 now ≤ 500000 := by
    unfold wraps32
    omega
  have hfew' : wraps32 start ≤ 500000 := by
    unfold wraps32
    omega
  unfold ElapsedExact
  unfold Timeval.us at *
  omega

/-- **Elapsed time.** For every two readings in order, their difference is the time between them
if and only if `tv_sec` has 64 bits, or the product has wrapped equally often at both. -/
theorem elapsedExact_iff (w : LongWidth) (start now : Timeval) (h : start.us ≤ now.us) :
    ElapsedExact w start now ↔ w = .w64 ∨ wraps32 start = wraps32 now := by
  cases w with
  | w64 => exact ⟨fun _ => .inl rfl, fun _ => elapsedExact_w64 h⟩
  | w32 =>
      rw [elapsedExact_w32 h]
      constructor
      · exact .inr
      · intro hor
        rcases hor with hw | hwraps
        · cases hw
        · exact hwraps

/-- From 2000.000000 to 2100.500000 seconds. -/
theorem elapsedExact_2100 : ∃ start now : Timeval,
    start.us = 2000000000 ∧ now.us = 2100500000 ∧ ElapsedExact .w32 start now := by
  let start : Timeval := ⟨2000, 0, by norm_num, by norm_num⟩
  let now : Timeval := ⟨2100, 500000, by norm_num, by norm_num⟩
  have hstart : start.us = 2000000000 := by norm_num [Timeval.us, start]
  have hnow : now.us = 2100500000 := by norm_num [Timeval.us, now]
  refine ⟨start, now, hstart, hnow, (elapsedExact_iff .w32 start now (by omega)).mpr (.inr ?_)⟩
  norm_num [wraps32, start, now]

/-- From 2147 to 2148 seconds: instead of 1000000 microseconds, 2^64 - 2^32 + 1000000. -/
theorem elapsedExact_fails_2148 : ∃ start now : Timeval,
    start.sec = 2147 ∧ start.usec = 0 ∧ now.sec = 2148 ∧ now.usec = 0
    ∧ (elapsedUs .w32 start now).toNat = 2 ^ 64 - 2 ^ 32 + 1000000
    ∧ ¬ ElapsedExact .w32 start now := by
  let start : Timeval := ⟨2147, 0, by norm_num, by norm_num⟩
  let now : Timeval := ⟨2148, 0, by norm_num, by norm_num⟩
  have hstart : wraps32 start = 0 := by norm_num [wraps32, start]
  have hnow : wraps32 now = 1 := by norm_num [wraps32, now]
  have hval : (elapsedUs .w32 start now).toNat = 2 ^ 64 - 2 ^ 32 + 1000000 := by
    have hmod := elapsedUs_mod .w32 start now
    rw [secondsProduct_w32, secondsProduct_w32, hstart, hnow] at hmod
    generalize (elapsedUs .w32 start now).toNat = difference at hmod ⊢
    dsimp only [start, now] at hmod
    omega
  refine ⟨start, now, rfl, rfl, rfl, rfl, hval, ?_⟩
  intro hexact
  rw [ElapsedExact, hval] at hexact
  norm_num [Timeval.us, start, now] at hexact

end Ubwt
