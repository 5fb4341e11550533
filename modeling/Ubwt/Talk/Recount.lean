import Mathlib.Data.Rat.Floor
import Mathlib.Tactic.FieldSimp
import Mathlib.Tactic.Linarith
import Mathlib.Tactic.Positivity
import Ubwt.Talk.Count
import Ubwt.Talk.Workers

/-!
# Ubwt.Talk.Recount

The recount of `talk_sender`: the verdict on a stream, the factor that is computed from its
time, and the counts that come of it.

Verdict and factor both start from `talk_stream_minimum_time * 1000000`, a product of `int`s.
**It is the product of the integers up to 2147 seconds** (`verdictExact_iff`); beyond, it is
negative or too small. The factor has a lower bound and no upper one, so a count can pass
`talk_count_max`: **a recount keeps the assertions exactly if the product fits**
(`recounts_asserted_iff`).
-/

namespace Ubwt

open Lib Lib.Posix

/-! ### talk_sender -/

/-- `talk_stream_minimum_time * 1000000`, a product of `int`s, which wraps. -/
def minimumProduct (minimumTime : UInt16) : Int :=
  Int.bmod (minimumTime.toNat * 1000000) (2 ^ 32)

/-- The tolerance of the multiplier, 1.35 in asynchronous mode and 1.20 else. -/
def tolerance (asynchronous : Bool) : ℚ := if asynchronous then 27 / 20 else 6 / 5

/-- 1us at least. -/
def atLeastOne (weakTime : Nat) : Nat := if weakTime = 0 then 1 else weakTime

/-- The multiplier of `talk_sender()` without `-M`; `product` is the one above. -/
def automaticMul (asynchronous : Bool) (product : Int) (weakTime : Nat) : ℚ :=
  let mul := (product : ℚ) / (atLeastOne weakTime : ℚ) * tolerance asynchronous
  if mul < tolerance asynchronous then tolerance asynchronous else mul

/-- The recount with exact products, truncated. -/
def exactRecount (asynchronous : Bool) (minimumTime : UInt16) : RecountArith :=
  { exactArith with
    automatic := fun weakTime count =>
      ⌊(count : ℚ) * automaticMul asynchronous (minimumProduct minimumTime) weakTime⌋₊ }

/-- `talk[d].count` after a recount. -/
def recount (cfg : Config) (weakTime count : Nat) : Nat :=
  talkRecount (exactRecount cfg.asynchronous cfg.talkStreamMinimumTime) cfg weakTime count

/-! ### The product -/

theorem streamThreshold_eq (m : UInt16) :
    streamThreshold m = UInt64.ofInt (minimumProduct m) := by
  unfold streamThreshold minimumProduct
  exact Eq.refl _

/-- The product is reduced by 2^32 until an `int` holds it. -/
theorem minimumProduct_eq (m : UInt16) :
    minimumProduct m = if m.toNat * 1000000 % 2 ^ 32 < 2 ^ 31 then
      ((m.toNat * 1000000 % 2 ^ 32 : Nat) : Int)
    else ((m.toNat * 1000000 % 2 ^ 32 : Nat) : Int) - 2 ^ 32 := by
  unfold minimumProduct
  rw [Int.bmod_def]
  split <;> split <;> omega

/-- The threshold of a weak stream: a negative product becomes a huge one. -/
theorem toNat_streamThreshold (m : UInt16) :
    (streamThreshold m).toNat = if m.toNat * 1000000 % 2 ^ 32 < 2 ^ 31 then
      m.toNat * 1000000 % 2 ^ 32
    else 2 ^ 64 - 2 ^ 32 + m.toNat * 1000000 % 2 ^ 32 := by
  have hlt : m.toNat * 1000000 % 2 ^ 32 < 2 ^ 32 := Nat.mod_lt _ (by decide)
  rw [streamThreshold_eq, UInt64.ofInt, UInt64.toNat_ofNat', minimumProduct_eq]
  generalize m.toNat * 1000000 % 2 ^ 32 = r at hlt ⊢
  split <;> omega

/-- No minimum time is a multiple of 2^32. -/
theorem streamThreshold_pos {m : UInt16} (h : 0 < m.toNat) : 0 < streamThreshold m := by
  have hne : m.toNat * 1000000 % 2 ^ 32 ≠ 0 := by
    intro hzero
    have hdvd : 64 * 2 ^ 26 ∣ 64 * (m.toNat * 15625) := by
      rw [Nat.mul_left_comm]
      exact Nat.dvd_of_mod_eq_zero hzero
    have hcoprime : Nat.Coprime (2 ^ 26) 15625 := Nat.Coprime.pow_left 26 (by decide)
    exact h.ne' (Nat.eq_zero_of_dvd_of_lt
      (hcoprime.dvd_of_dvd_mul_right (Nat.dvd_of_mul_dvd_mul_left (by decide) hdvd))
      (m.toNat_lt.trans (by decide)))
  rw [UInt64.lt_iff_toNat_lt, toNat_streamThreshold]
  split
  · exact Nat.pos_of_ne_zero hne
  · exact Nat.add_pos_left (by decide) _

theorem minimumProduct_exact {m : UInt16} (h : m.toNat ≤ 2147) :
    minimumProduct m = m.toNat * 1000000 := by
  have hr : m.toNat * 1000000 % 2 ^ 32 = m.toNat * 1000000 := Nat.mod_eq_of_lt (by omega)
  rw [minimumProduct_eq, hr, if_pos (by omega)]
  rfl

/-- From 2148 seconds on the product is too small. -/
theorem minimumProduct_lt {m : UInt16} (h : 2147 < m.toNat) :
    minimumProduct m < m.toNat * 1000000 := by
  have hlt : m.toNat * 1000000 % 2 ^ 32 < 2 ^ 32 := Nat.mod_lt _ (by decide)
  rw [minimumProduct_eq]
  split <;> omega

theorem minimumProduct_le (m : UInt16) : minimumProduct m ≤ 2147483647 := by
  have hlt : m.toNat * 1000000 % 2 ^ 32 < 2 ^ 32 := Nat.mod_lt _ (by decide)
  rw [minimumProduct_eq]
  split <;> omega

/-! ### The multiplier -/

variable {asynchronous : Bool} {product product' : Int} {weakTime : Nat}

theorem tolerance_gt_one (asynchronous : Bool) : 1 < tolerance asynchronous := by
  cases asynchronous <;> norm_num [tolerance]

theorem le_tolerance (asynchronous : Bool) : 6 / 5 ≤ tolerance asynchronous := by
  cases asynchronous <;> norm_num [tolerance]

theorem atLeastOne_pos (weakTime : Nat) : 0 < atLeastOne weakTime := by
  unfold atLeastOne
  split <;> omega

/-- The factor is never below its tolerance. -/
theorem automaticMul_eq_max :
    automaticMul asynchronous product weakTime
      = max (product / atLeastOne weakTime * tolerance asynchronous) (tolerance asynchronous) := by
  unfold automaticMul
  dsimp only
  split
  · rename_i hlt
    exact (max_eq_right hlt.le).symm
  · rename_i hge
    exact (max_eq_left (not_lt.mp hge)).symm

/-- A stream that was long enough leaves the tolerance. -/
theorem automaticMul_long (h : product ≤ atLeastOne weakTime) :
    automaticMul asynchronous product weakTime = tolerance asynchronous := by
  have htol := tolerance_gt_one asynchronous
  have hpos : (0 : ℚ) < atLeastOne weakTime := Nat.cast_pos.mpr (atLeastOne_pos weakTime)
  have hratio : (product : ℚ) / atLeastOne weakTime ≤ 1 := by
    rw [div_le_one hpos]
    exact_mod_cast h
  rw [automaticMul_eq_max]
  refine max_eq_right ?_
  calc (product : ℚ) / atLeastOne weakTime * tolerance asynchronous
      ≤ 1 * tolerance asynchronous := mul_le_mul_of_nonneg_right hratio (by linarith)
    _ = tolerance asynchronous := one_mul _

/-- For a stream that was too short the factor tells the products apart. -/
theorem automaticMul_lt (hlt : product < product') (hshort : atLeastOne weakTime < product') :
    automaticMul asynchronous product weakTime < automaticMul asynchronous product' weakTime := by
  have htol : 0 < tolerance asynchronous := by
    have := tolerance_gt_one asynchronous
    linarith
  have hpos : (0 : ℚ) < atLeastOne weakTime := Nat.cast_pos.mpr (atLeastOne_pos weakTime)
  rw [automaticMul_eq_max, automaticMul_eq_max]
  refine lt_max_of_lt_left (max_lt ?_ ?_)
  · refine mul_lt_mul_of_pos_right ?_ htol
    exact (div_lt_div_iff_of_pos_right hpos).mpr (by exact_mod_cast hlt)
  · have hratio : 1 < (product' : ℚ) / atLeastOne weakTime := by
      rw [lt_div_iff₀ hpos, one_mul]
      exact_mod_cast hshort
    calc tolerance asynchronous = 1 * tolerance asynchronous := (one_mul _).symm
      _ < product' / atLeastOne weakTime * tolerance asynchronous :=
        mul_lt_mul_of_pos_right hratio htol

/-! ### The verdict -/

/-- The verdict on a stream, and the multiplier that follows, are those of the integers. -/
structure VerdictExact (asynchronous : Bool) (minimumTime : UInt16) (t : UInt64) : Prop where
  weak : t < streamThreshold minimumTime ↔ t.toNat < minimumTime.toNat * 1000000
  mul : automaticMul asynchronous (minimumProduct minimumTime) t.toNat
    = automaticMul asynchronous (minimumTime.toNat * 1000000) t.toNat

theorem verdictExact_small {m : UInt16} (h : m.toNat ≤ 2147) (asynchronous : Bool) (t : UInt64) :
    VerdictExact asynchronous m t := by
  have hr : m.toNat * 1000000 % 2 ^ 32 = m.toNat * 1000000 := Nat.mod_eq_of_lt (by omega)
  refine ⟨?_, by rw [minimumProduct_exact h]⟩
  rw [UInt64.lt_iff_toNat_lt, toNat_streamThreshold, hr, if_pos (by omega)]

/-- From 2148 seconds on the verdict is right for a stream that was long enough, as long as it
reaches the threshold that a negative product becomes. -/
theorem verdictExact_large {m : UInt16} (h : 2147 < m.toNat) (asynchronous : Bool) (t : UInt64) :
    VerdictExact asynchronous m t ↔ m.toNat * 1000000 ≤ t.toNat ∧
      (m.toNat * 1000000 % 2 ^ 32 < 2 ^ 31 ∨
        2 ^ 64 - 2 ^ 32 + m.toNat * 1000000 % 2 ^ 32 ≤ t.toNat) := by
  have hproduct := minimumProduct_lt h
  have hone : t.toNat ≤ atLeastOne t.toNat ∧ (t.toNat ≠ 0 → atLeastOne t.toNat = t.toNat) := by
    unfold atLeastOne
    split <;> omega
  have hthreshold := toNat_streamThreshold m
  have hmod := Nat.mod_le (m.toNat * 1000000) (2 ^ 32)
  constructor
  · intro hv
    have hlong : m.toNat * 1000000 ≤ t.toNat := by
      by_contra hshort
      have hlt : (atLeastOne t.toNat : Int) < m.toNat * 1000000 := by
        by_cases hzero : t.toNat = 0
        · rw [hzero, show atLeastOne 0 = 1 from rfl]
          omega
        · rw [hone.2 hzero]
          omega
      exact absurd hv.mul (automaticMul_lt hproduct hlt).ne
    refine ⟨hlong, ?_⟩
    have hnot : ¬ t < streamThreshold m := fun hweak => absurd (hv.weak.mp hweak) (by omega)
    rw [UInt64.lt_iff_toNat_lt, hthreshold] at hnot
    split at hnot <;> omega
  · intro hcond
    obtain ⟨hlong, hreach⟩ := hcond
    refine ⟨?_, ?_⟩
    · rw [UInt64.lt_iff_toNat_lt, hthreshold]
      split <;> omega
    · rw [automaticMul_long (by omega), automaticMul_long (by omega)]

/-- **The verdict uses the real minimum time up to 2147 seconds.** For every minimum time that
`-t` accepts and every duration, verdict and multiplier are those of the integers exactly if the
product fits an `int`, or the stream was long enough and reaches the wrapped threshold too; and
they are for all durations exactly if the product fits. -/
theorem verdictExact_iff (m : UInt16) (asynchronous : Bool) :
    (∀ t, VerdictExact asynchronous m t ↔ m.toNat ≤ 2147 ∨
      (m.toNat * 1000000 ≤ t.toNat ∧ (m.toNat * 1000000 % 2 ^ 32 < 2 ^ 31 ∨
        2 ^ 64 - 2 ^ 32 + m.toNat * 1000000 % 2 ^ 32 ≤ t.toNat)))
    ∧ ((∀ t, VerdictExact asynchronous m t) ↔ m.toNat ≤ 2147) := by
  rcases Nat.lt_or_ge 2147 m.toNat with hlarge | hsmall
  · have heach := verdictExact_large hlarge asynchronous
    refine ⟨fun t => ?_, fun hall => ?_, fun hle => absurd hle (by omega)⟩
    · rw [heach t]
      omega
    · have hzero := ((heach 0).mp (hall 0)).1
      rw [show (0 : UInt64).toNat = 0 from rfl] at hzero
      omega
  · have heach := verdictExact_small hsmall asynchronous
    exact ⟨fun t => iff_of_true (heach t) (.inl hsmall), iff_of_true heach hsmall⟩

/-- `ubwt -t 3000 connector 10.0.0.1`: a stream of an hour is weak, and the multiplier after a
stream of a second is 1.2 instead of 3600. -/
theorem verdictExact_fails_3000 :
    ∃ cfg, configInit ⟨false, false, fun _ _ => false⟩
        ["-t".toList, "3000".toList, "connector".toList, "10.0.0.1".toList] = .ok cfg
      ∧ cfg.talkStreamMinimumTime = 3000
      ∧ (3600000000 : UInt64) < streamThreshold 3000
      ∧ automaticMul false (minimumProduct 3000) 1000000 = 6 / 5
      ∧ automaticMul false (3000 * 1000000) 1000000 = 3600
      ∧ ¬ VerdictExact false 3000 3600000000 := by
  have hweak : (3600000000 : UInt64) < streamThreshold 3000 := by decide
  refine ⟨_, rfl, rfl, hweak, ?_, ?_, ?_⟩
  · exact automaticMul_long (by decide)
  · norm_num [automaticMul, atLeastOne, tolerance]
  · intro h
    exact absurd (h.weak.mp hweak) (by decide)

/-! ### The counts -/

/-- The counts after each of a sequence of recounts. -/
def recounts (cfg : Config) : List UInt64 → Nat → List Nat
  | [], _ => []
  | t :: ts, count => recount cfg t.toNat count :: recounts cfg ts (recount cfg t.toNat count)

/-- The product of a count and its factor fits below `talk_count_max`; without `-M` the factor
is the tolerance, or the tolerance times the ratio of the two times. -/
def RecountFits (cfg : Config) (t : UInt64) (count : Nat) : Prop :=
  if cfg.talkCountMul ≠ 0 then count * cfg.talkCountMul.toNat ≤ configTalkCountMax.toNat
  else
    count * tolerance cfg.asynchronous < configTalkCountMax.toNat + 1
    ∧ count * tolerance cfg.asynchronous * minimumProduct cfg.talkStreamMinimumTime
      < (configTalkCountMax.toNat + 1) * atLeastOne t.toNat

/-- Every recount of a sequence fits. -/
def RecountsFit (cfg : Config) : List UInt64 → Nat → Prop
  | [], _ => True
  | t :: ts, count => RecountFits cfg t count ∧ RecountsFit cfg ts (recount cfg t.toNat count)

variable {cfg : Config}

theorem recount_mul (hmul : cfg.talkCountMul ≠ 0) (weakTime count : Nat) :
    recount cfg weakTime count = count * cfg.talkCountMul.toNat := by
  rw [recount, talkRecount, if_pos hmul]
  rfl

theorem recount_automatic (hmul : cfg.talkCountMul = 0) (weakTime count : Nat) :
    recount cfg weakTime count = ⌊(count : ℚ) * automaticMul cfg.asynchronous
      (minimumProduct cfg.talkStreamMinimumTime) weakTime⌋₊ := by
  rw [recount, talkRecount, if_neg (not_not_intro hmul)]
  rfl

/-- A recount does not make a count smaller. -/
theorem le_recount (cfg : Config) (weakTime count : Nat) : count ≤ recount cfg weakTime count := by
  by_cases hmul : cfg.talkCountMul = 0
  · rw [recount_automatic hmul, automaticMul_eq_max]
    refine Nat.le_floor ?_
    have htol := tolerance_gt_one cfg.asynchronous
    have hmax := le_max_right ((minimumProduct cfg.talkStreamMinimumTime : ℚ) / atLeastOne weakTime
      * tolerance cfg.asynchronous) (tolerance cfg.asynchronous)
    calc (count : ℚ) = count * 1 := (mul_one _).symm
      _ ≤ _ := mul_le_mul_of_nonneg_left (htol.le.trans hmax) (Nat.cast_nonneg count)
  · rw [recount_mul hmul]
    have hpos : cfg.talkCountMul.toNat ≠ 0 := fun h => hmul (UInt32.toNat_inj.mp h)
    exact Nat.le_mul_of_pos_right count (Nat.pos_of_ne_zero hpos)

/-- A recount makes a count larger: the factor is an integer above one, or at least the lower
tolerance, and a fifth of the count is a packet at least. -/
theorem lt_recount {env : Env} (hopt : OptInv env cfg) (weakTime : Nat) {count : Nat}
    (hcount : 5 ≤ count) : count < recount cfg weakTime count := by
  by_cases hzero : cfg.talkCountMul = 0
  · rw [recount_automatic hzero, automaticMul_eq_max]
    refine Nat.le_floor ?_
    have htol := le_tolerance cfg.asynchronous
    have hmax := le_max_right ((minimumProduct cfg.talkStreamMinimumTime : ℚ) / atLeastOne weakTime
      * tolerance cfg.asynchronous) (tolerance cfg.asynchronous)
    have hfive : (5 : ℚ) ≤ count := by exact_mod_cast hcount
    calc ((count + 1 : Nat) : ℚ) = count + 1 := Nat.cast_succ count
      _ ≤ count * (6 / 5) := by linarith
      _ ≤ _ := mul_le_mul_of_nonneg_left (htol.trans hmax) (Nat.cast_nonneg count)
  · rw [recount_mul hzero]
    have hone : 1 < cfg.talkCountMul.toNat := by
      rcases hopt.mul with h | ⟨h, -⟩
      · exact absurd (UInt32.toNat_inj.mp h) hzero
      · exact h
    exact (Nat.lt_mul_iff_one_lt_right (by omega)).mpr hone

theorem OptInv.mul_lt {env : Env} (h : OptInv env cfg) : cfg.talkCountMul.toNat < 10000000 := by
  rcases h.mul with hzero | ⟨-, hlt⟩ <;> omega

/-- The factor is at most the greatest `int`, and its tolerance. -/
theorem automaticMul_le (m : UInt16) :
    automaticMul asynchronous (minimumProduct m) weakTime ≤ 2147483647 * (27 / 20) := by
  have htol : 0 ≤ tolerance asynchronous ∧ tolerance asynchronous ≤ 27 / 20 := by
    cases asynchronous <;> norm_num [tolerance]
  have hone : (1 : ℚ) ≤ atLeastOne weakTime := by exact_mod_cast atLeastOne_pos weakTime
  have hint : (minimumProduct m : ℚ) ≤ 2147483647 := by exact_mod_cast minimumProduct_le m
  rw [automaticMul_eq_max]
  refine max_le ?_ (htol.2.trans (by norm_num))
  have hratio : (minimumProduct m : ℚ) / atLeastOne weakTime ≤ 2147483647 := by
    rw [div_le_iff₀ (by linarith)]
    linarith
  calc (minimumProduct m : ℚ) / atLeastOne weakTime * tolerance asynchronous
      ≤ 2147483647 * tolerance asynchronous := mul_le_mul_of_nonneg_right hratio htol.1
    _ ≤ 2147483647 * (27 / 20) := mul_le_mul_of_nonneg_left htol.2 (by norm_num)

/-- A recount of a count that passes the assertions fits a `uint64_t`. -/
theorem recount_lt_size (hmul : cfg.talkCountMul.toNat < 10000000) (weakTime : Nat) {count : Nat}
    (hcount : count ≤ configTalkCountMax.toNat) : recount cfg weakTime count < UInt64.size := by
  have hmax : count ≤ 1000000000 := hcount
  by_cases hzero : cfg.talkCountMul = 0
  · rw [recount_automatic hzero, Nat.floor_lt' (by decide)]
    have hle : (count : ℚ) ≤ 1000000000 := by exact_mod_cast hmax
    calc (count : ℚ) * automaticMul cfg.asynchronous (minimumProduct cfg.talkStreamMinimumTime)
          weakTime
        ≤ count * (2147483647 * (27 / 20)) :=
          mul_le_mul_of_nonneg_left (automaticMul_le _) (Nat.cast_nonneg count)
      _ ≤ 1000000000 * (2147483647 * (27 / 20)) := mul_le_mul_of_nonneg_right hle (by norm_num)
      _ < (UInt64.size : ℚ) := by norm_num [UInt64.size]
  · rw [recount_mul hzero]
    calc count * cfg.talkCountMul.toNat ≤ 1000000000 * 10000000 :=
          Nat.mul_le_mul hmax hmul.le
      _ < UInt64.size := by decide

/-- One recount: the upper bound is kept exactly if the product fits. -/
theorem recount_le_iff (t : UInt64) (count : Nat) :
    recount cfg t.toNat count ≤ configTalkCountMax.toNat ↔ RecountFits cfg t count := by
  unfold RecountFits
  by_cases hmul : cfg.talkCountMul = 0
  · have hpos : (0 : ℚ) < atLeastOne t.toNat := Nat.cast_pos.mpr (atLeastOne_pos t.toNat)
    rw [if_neg (not_not_intro hmul), recount_automatic hmul, automaticMul_eq_max,
      mul_max_of_nonneg _ _ (Nat.cast_nonneg count), ← Nat.lt_succ_iff,
      Nat.floor_lt (le_max_of_le_right
        (mul_nonneg (Nat.cast_nonneg count) (by linarith [tolerance_gt_one cfg.asynchronous]))),
      max_lt_iff, Nat.cast_succ, and_comm]
    refine and_congr_right fun _ => ?_
    have hratio : (count : ℚ) * (minimumProduct cfg.talkStreamMinimumTime / atLeastOne t.toNat
        * tolerance cfg.asynchronous) = count * tolerance cfg.asynchronous
        * minimumProduct cfg.talkStreamMinimumTime / atLeastOne t.toNat := by ring
    rw [hratio, div_lt_iff₀ hpos]
  · rw [if_pos hmul, recount_mul hmul]

/-- The run rule: a sequence of recounts keeps the assertions exactly if each of them fits. -/
theorem recounts_asserted (hdefault : cfg.talkCountDefault = configTalkCountDefault)
    (hmax : cfg.talkCountMax = configTalkCountMax) (ts : List UInt64) {count : Nat}
    (hcount : configTalkCountDefault.toNat ≤ count) :
    (∀ c ∈ recounts cfg ts count, CountAsserted cfg c) ↔ RecountsFit cfg ts count := by
  induction ts generalizing count with
  | nil => simp [recounts, RecountsFit]
  | cons t ts ih =>
      have hle := hcount.trans (le_recount cfg t.toNat count)
      rw [recounts, List.forall_mem_cons, ih hle, RecountsFit, ← recount_le_iff, CountAsserted,
        hdefault, hmax]
      exact and_congr_left fun _ => and_iff_left hle

/-- With `-M` the last count of a sequence is a power of the factor, and the greatest one. -/
theorem recountsFit_mul (hmul : cfg.talkCountMul ≠ 0) (ts : List UInt64) {count : Nat}
    (hcount : count ≤ configTalkCountMax.toNat) :
    RecountsFit cfg ts count ↔ count * cfg.talkCountMul.toNat ^ ts.length
      ≤ configTalkCountMax.toNat := by
  have hpos : 0 < cfg.talkCountMul.toNat :=
    Nat.pos_of_ne_zero fun h => hmul (UInt32.toNat_inj.mp h)
  induction ts generalizing count with
  | nil => simpa [RecountsFit] using hcount
  | cons t ts ih =>
      have hfits : RecountFits cfg t count ↔ count * cfg.talkCountMul.toNat
          ≤ configTalkCountMax.toNat := by rw [RecountFits, if_pos hmul]
      have hpow : count * cfg.talkCountMul.toNat ^ (t :: ts).length
          = count * cfg.talkCountMul.toNat * cfg.talkCountMul.toNat ^ ts.length := by
        rw [List.length_cons, pow_succ']
        ring
      rw [RecountsFit, hfits, recount_mul hmul, hpow]
      constructor
      · intro hfits
        obtain ⟨hfit, hrest⟩ := hfits
        exact (ih hfit).mp hrest
      · intro hlast
        have hfit : count * cfg.talkCountMul.toNat ≤ configTalkCountMax.toNat :=
          (Nat.le_mul_of_pos_right _ (Nat.pow_pos hpos)).trans hlast
        exact ⟨hfit, (ih hfit).mpr hlast⟩

/-- **Recounting stays within its limits as long as the products fit.** For every accepted
command line and every sequence of times of weak streams, the assertions hold after each recount
exactly if each product of a count and its factor fits below `talk_count_max`; with `-M`,
exactly if the product of the default count and the power of the factor does. -/
theorem recounts_asserted_iff {env : Env} {args : List CString}
    (h : configInit env args = .ok cfg) (ts : List UInt64) :
    ((∀ c ∈ recounts cfg ts cfg.talkCountCurrent.toNat, CountAsserted cfg c)
      ↔ RecountsFit cfg ts configTalkCountDefault.toNat)
    ∧ (cfg.talkCountMul ≠ 0 →
      ((∀ c ∈ recounts cfg ts cfg.talkCountCurrent.toNat, CountAsserted cfg c)
        ↔ configTalkCountDefault.toNat * cfg.talkCountMul.toNat ^ ts.length
          ≤ configTalkCountMax.toNat)) := by
  obtain ⟨hcurrent, hdefault, hmax⟩ := (configInit_optInv h).counts
  have hstart : configTalkCountDefault.toNat ≤ cfg.talkCountCurrent.toNat := by rw [hcurrent]
  have hrun := recounts_asserted hdefault hmax ts hstart
  rw [hcurrent] at hrun ⊢
  exact ⟨hrun, fun hmul => hrun.trans (recountsFit_mul hmul ts (by decide))⟩

/-- `ubwt -M 3 connector 10.0.0.1`: three recounts. -/
theorem recounts_asserted_mul3 :
    ∃ cfg, configInit ⟨false, false, fun _ _ => false⟩
        ["-M".toList, "3".toList, "connector".toList, "10.0.0.1".toList] = .ok cfg
      ∧ ∀ c ∈ recounts cfg [500, 1500, 4500] cfg.talkCountCurrent.toNat, CountAsserted cfg c := by
  obtain ⟨cfg, hcfg, hmul⟩ : ∃ cfg, configInit ⟨false, false, fun _ _ => false⟩
        ["-M".toList, "3".toList, "connector".toList, "10.0.0.1".toList] = .ok cfg
      ∧ cfg.talkCountMul = 3 := ⟨_, rfl, rfl⟩
  refine ⟨cfg, hcfg, ((recounts_asserted_iff hcfg _).2 ?_).mpr ?_⟩
  · rw [hmul]
    decide
  · rw [hmul]
    decide

/-- `ubwt -t 2000 connector 10.0.0.1`, and a link on which the first hundred packets take a
hundred microseconds: the new count is 2400000000. -/
theorem recounts_fails_2000 :
    ∃ cfg, configInit ⟨false, false, fun _ _ => false⟩
        ["-t".toList, "2000".toList, "connector".toList, "10.0.0.1".toList] = .ok cfg
      ∧ (100 : UInt64) < streamThreshold cfg.talkStreamMinimumTime
      ∧ recounts cfg [100] cfg.talkCountCurrent.toNat = [2400000000]
      ∧ ¬ ∀ c ∈ recounts cfg [100] cfg.talkCountCurrent.toNat, CountAsserted cfg c := by
  obtain ⟨cfg, hcfg, hmul, htime, hasync, hcount, hmax⟩ : ∃ cfg,
      configInit ⟨false, false, fun _ _ => false⟩
        ["-t".toList, "2000".toList, "connector".toList, "10.0.0.1".toList] = .ok cfg
      ∧ cfg.talkCountMul = 0 ∧ cfg.talkStreamMinimumTime = 2000 ∧ cfg.asynchronous = false
      ∧ cfg.talkCountCurrent = 100 ∧ cfg.talkCountMax = 1000000000 :=
    ⟨_, rfl, rfl, rfl, rfl, rfl, rfl⟩
  have hnew : recounts cfg [100] cfg.talkCountCurrent.toNat = [2400000000] := by
    rw [recounts, recounts, recount_automatic hmul, htime, hasync, hcount,
      minimumProduct_exact (by decide), show (2000 : UInt16).toNat = 2000 from rfl,
      show (100 : UInt64).toNat = 100 from rfl, show (100 : UInt32).toNat = 100 from rfl]
    norm_num [automaticMul, atLeastOne, tolerance]
  refine ⟨cfg, hcfg, ?_, hnew, ?_⟩
  · rw [htime]
    decide
  · rw [hnew]
    intro hall
    have hle := (hall _ (List.mem_singleton_self _)).1
    rw [hmax] at hle
    exact absurd hle (by decide)

end Ubwt
