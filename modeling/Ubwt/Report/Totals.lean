import Mathlib.Algebra.Order.BigOperators.Group.List
import Mathlib.Order.Bounds.Defs
import Ubwt.Config.Basic
import Ubwt.Lib.Wrap
import Ubwt.Report

/-!
# Ubwt.Report.Totals

What `report_worker_combine` makes of the records of all workers.

The totals are accumulated in fields of the width of a single record. **A total is exact as
long as it fits the field** (`exactTotals_iff`), which five workers with a count of 30 bits
are enough to exceed. The earliest start is looked for among the starts **and the zero of the
main record**, so that it is always zero (`earliestStart_iff`).
-/

namespace Ubwt

open Lib

/-! ### The fields of the combined record -/

theorem foldl_combine_count (main : ReportCollect) (rs : List ReportCollect) :
    (rs.foldl combineCollect main).talkCount
      = rs.foldl (fun s r => s + r.talkCount) main.talkCount :=
  (List.foldl_hom ReportCollect.talkCount (fun _ _ => rfl)).symm

theorem foldl_combine_pkts (main : ReportCollect) (rs : List ReportCollect) :
    (rs.foldl combineCollect main).talkStreamRecvPkts
      = rs.foldl (fun s r => s + r.talkStreamRecvPkts) main.talkStreamRecvPkts :=
  (List.foldl_hom ReportCollect.talkStreamRecvPkts (fun _ _ => rfl)).symm

theorem foldl_combine_bytes (main : ReportCollect) (rs : List ReportCollect) :
    (rs.foldl combineCollect main).talkStreamRecvBytes
      = rs.foldl (fun s r => s + r.talkStreamRecvBytes) main.talkStreamRecvBytes :=
  (List.foldl_hom ReportCollect.talkStreamRecvBytes (fun _ _ => rfl)).symm

theorem foldl_combine_latency (main : ReportCollect) (rs : List ReportCollect) :
    (rs.foldl combineCollect main).talkLatencyUs
      = rs.foldl (fun s r => s + r.talkLatencyUs) main.talkLatencyUs :=
  (List.foldl_hom ReportCollect.talkLatencyUs (fun _ _ => rfl)).symm

/-- The lesser value of zero and anything is zero. -/
theorem foldl_combine_start {main : ReportCollect} (hmain : main.talkStreamTimeStart = 0)
    (rs : List ReportCollect) : (rs.foldl combineCollect main).talkStreamTimeStart = 0 := by
  induction rs generalizing main with
  | nil => exact hmain
  | cons r rs ih =>
      refine ih ?_
      show (if main.talkStreamTimeStart > r.talkStreamTimeStart then r.talkStreamTimeStart
        else main.talkStreamTimeStart) = 0
      rw [hmain]
      exact if_neg (by simp)

/-! ### The reports of the workers -/

/-- The report of a worker whose test is over: a record for each direction that it ran, with a
count that `_talk_receiver_negotiate()` has admitted, and no more packets than that. -/
structure WorkerReport where
  ran : Dir → Bool
  results : Dir → ReportCollect
  unrun : ∀ d, ran d = false → results d = .zero
  admitted : ∀ d, (results d).talkCount < configTalkCountMax
  received : ∀ d, (results d).talkStreamRecvPkts ≤ (results d).talkCount

/-- A report of one direction. -/
def WorkerReport.single (d : Dir) (r : ReportCollect) (admitted : r.talkCount < configTalkCountMax)
    (received : r.talkStreamRecvPkts ≤ r.talkCount) : WorkerReport where
  ran := fun d' => decide (d' = d)
  results := fun d' => if d' = d then r else .zero
  unrun := by
    intro d' h
    exact if_neg (of_decide_eq_false h)
  admitted := by
    intro d'
    split
    · exact admitted
    · exact UInt32.lt_iff_toNat_lt.mpr (Nat.succ_pos _)
  received := by
    intro d'
    split
    · exact received
    · exact UInt32.le_refl _

/-- The workers that ran a direction: all of them, or half of them in asynchronous mode. -/
def Manned (asynchronous : Bool) (workers : List WorkerReport) (d : Dir) : Prop :=
  if asynchronous then 2 * workers.countP (fun w => w.ran d) = workers.length
  else workers.countP (fun w => w.ran d) = workers.length

/-- A sum over the workers that ran a direction. -/
def total (workers : List WorkerReport) (d : Dir) (field : ReportCollect → Nat) : Nat :=
  ((workers.filter (fun w => w.ran d)).map (fun w => field (w.results d))).sum

/-- The totals of a direction over the integers, and the mean latency. -/
structure ExactTotals (workers : List WorkerReport) (d : Dir) (r : ReportCollect) : Prop where
  count : r.talkCount.toNat = total workers d (fun r => r.talkCount.toNat)
  pkts : r.talkStreamRecvPkts.toNat = total workers d (fun r => r.talkStreamRecvPkts.toNat)
  bytes : r.talkStreamRecvBytes.toNat = total workers d (fun r => r.talkStreamRecvBytes.toNat)
  latency : r.talkLatencyUs.toNat
    = total workers d (fun r => r.talkLatencyUs.toNat) / workers.countP (fun w => w.ran d)

/-- `report_worker_combine()` with the main record that `current_init()` has zeroed. -/
def combinedReport (asynchronous : Bool) (workers : List WorkerReport) : Dir → ReportCollect :=
  reportWorkerCombine asynchronous (fun _ => .zero) (workers.map (fun w => w.results))

variable {workers : List WorkerReport} {d : Dir}

/-- The records that were not run add nothing. -/
theorem total_eq {field : ReportCollect → Nat} (hzero : field .zero = 0) :
    total workers d field = (workers.map (fun w => field (w.results d))).sum := by
  refine sum_map_filter ?_
  intro w _ hran
  rw [w.unrun d hran, hzero]

theorem map_results (workers : List WorkerReport) (d : Dir) :
    (workers.map (fun w => w.results)).map (fun r => r d) = workers.map (fun w => w.results d) := by
  rw [List.map_map]
  rfl

/-- An accumulated field is the total of its values, wrapped. -/
theorem foldl_total (workers : List WorkerReport) (d : Dir) {α : Type} [Add α] {toNat : α → Nat}
    {modulus : Nat} (h : Wraps toNat modulus) (field : ReportCollect → α)
    (hzero : toNat (field .zero) = 0) :
    toNat ((workers.map (fun w => w.results d)).foldl (fun s r => s + field r) (field .zero))
      = total workers d (fun r => toNat (field r)) % modulus := by
  rw [h.toNat_foldl_add, hzero, Nat.zero_add, List.map_map, total_eq hzero]
  rfl

/-- No more packets come in than are counted on. -/
theorem total_pkts_le (workers : List WorkerReport) (d : Dir) :
    total workers d (fun r => r.talkStreamRecvPkts.toNat)
      ≤ total workers d (fun r => r.talkCount.toNat) :=
  List.sum_le_sum fun w _ => UInt32.le_iff_toNat_le.mp (w.received d)

/-- What the combined record holds before its latency is divided. -/
theorem combinedReport_fields (asynchronous : Bool) (workers : List WorkerReport) (d : Dir) :
    (combinedReport asynchronous workers d).talkCount.toNat
        = total workers d (fun r => r.talkCount.toNat) % 2 ^ 32
      ∧ (combinedReport asynchronous workers d).talkStreamRecvPkts.toNat
        = total workers d (fun r => r.talkStreamRecvPkts.toNat) % 2 ^ 32
      ∧ (combinedReport asynchronous workers d).talkStreamRecvBytes.toNat
        = total workers d (fun r => r.talkStreamRecvBytes.toNat) % 2 ^ 64
      ∧ (combinedReport asynchronous workers d).talkStreamTimeStart = 0 := by
  have hcount := foldl_total workers d wraps_uint32 ReportCollect.talkCount rfl
  have hpkts := foldl_total workers d wraps_uint32 ReportCollect.talkStreamRecvPkts rfl
  have hbytes := foldl_total workers d wraps_uint64 ReportCollect.talkStreamRecvBytes rfl
  rw [← foldl_combine_count] at hcount
  rw [← foldl_combine_pkts] at hpkts
  rw [← foldl_combine_bytes] at hbytes
  have hstart := foldl_combine_start (rfl : ReportCollect.zero.talkStreamTimeStart = 0)
    (workers.map (fun w => w.results d))
  unfold combinedReport reportWorkerCombine
  rw [map_results]
  dsimp only
  split
  · exact ⟨hcount, hpkts, hbytes, hstart⟩
  · exact ⟨hcount, hpkts, hbytes, hstart⟩

/-- The latency is divided by the number of workers that ran the direction. -/
theorem combinedReport_latency {asynchronous : Bool} (hlen : workers.length ≤ 1024)
    (hmanned : Manned asynchronous workers d) :
    (combinedReport asynchronous workers d).talkLatencyUs.toNat
      = total workers d (fun r => r.talkLatencyUs.toNat) % 2 ^ 32
        / workers.countP (fun w => w.ran d) := by
  have hsum := foldl_total workers d wraps_uint32 ReportCollect.talkLatencyUs rfl
  rw [← foldl_combine_latency] at hsum
  have hran : workers.countP (fun w => w.ran d)
      = if asynchronous then workers.length / 2 else workers.length := by
    unfold Manned at hmanned
    cases asynchronous with
    | true =>
        rw [if_pos rfl] at hmanned ⊢
        omega
    | false => exact hmanned
  unfold combinedReport reportWorkerCombine
  rw [map_results, List.length_map, hran]
  dsimp only
  split
  · rename_i hnone
    obtain rfl := List.eq_nil_of_length_eq_zero hnone
    have hzero : total [] d (fun r => r.talkLatencyUs.toNat) = 0 := rfl
    rw [hsum, hzero, Nat.zero_mod, Nat.zero_div]
  · have hdiv : ∀ n : Nat, n ≤ 1024 → (UInt32.ofNat n).toNat = n := by
      intro n hn
      rw [UInt32.toNat_ofNat']
      exact Nat.mod_eq_of_lt (by omega)
    rw [UInt32.toNat_div, hsum, hdiv _ (by split <;> omega)]

/-- **The combined totals are exact as long as they fit their fields.** For any number of
workers up to 1024, in both modes, the record of a direction holds the integer totals and the
mean latency exactly if the counts and the latencies add up to 32 bits and the octets to 64. -/
theorem exactTotals_iff {asynchronous : Bool} (hlen : workers.length ≤ 1024)
    (hmanned : Manned asynchronous workers d) :
    ExactTotals workers d (combinedReport asynchronous workers d) ↔
      total workers d (fun r => r.talkCount.toNat) < 2 ^ 32
      ∧ total workers d (fun r => r.talkLatencyUs.toNat) < 2 ^ 32
      ∧ total workers d (fun r => r.talkStreamRecvBytes.toNat) < 2 ^ 64 := by
  obtain ⟨hcount, hpkts, hbytes, -⟩ := combinedReport_fields asynchronous workers d
  have hlat := combinedReport_latency hlen hmanned
  have hle := total_pkts_le workers d
  constructor
  · intro h
    refine ⟨?_, ?_, ?_⟩
    · have := h.count
      omega
    · rcases Nat.eq_zero_or_pos (workers.countP (fun w => w.ran d)) with hnone | hsome
      · have hnil : workers.filter (fun w => w.ran d) = [] := by
          rw [← List.length_eq_zero_iff, ← List.countP_eq_length_filter, hnone]
        rw [total, hnil]
        exact Nat.two_pow_pos 32
      · have hran := List.countP_le_length (p := fun w : WorkerReport => w.ran d) (l := workers)
        refine (mod_div_eq_iff hsome (by omega)).mp ?_
        rw [← hlat]
        exact h.latency
    · have := h.bytes
      omega
  · intro hfits
    obtain ⟨hc, hl, hb⟩ := hfits
    refine ⟨?_, ?_, ?_, ?_⟩
    · omega
    · omega
    · omega
    · rw [hlat, Nat.mod_eq_of_lt hl]

/-- Two workers of a short synchronous test. -/
theorem exactTotals_two :
    ExactTotals
      [.single .straight ⟨900, 100, 99, 3000000, 5, 141768⟩ (by decide) (by decide),
        .single .straight ⟨1100, 100, 100, 3100000, 7, 143200⟩ (by decide) (by decide)] .straight
      (combinedReport false
        [.single .straight ⟨900, 100, 99, 3000000, 5, 141768⟩ (by decide) (by decide),
          .single .straight ⟨1100, 100, 100, 3100000, 7, 143200⟩ (by decide) (by decide)]
        .straight) :=
  (exactTotals_iff (by decide) (by unfold Manned; decide)).mpr (by decide)

/-- The report of a lossless stream with the greatest count. -/
def greatestReport : WorkerReport :=
  .single .straight ⟨900, 999999999, 999999999, 60000000, 5, 1431999998568⟩
    (UInt32.lt_iff_toNat_lt.mpr (Nat.lt_succ_self _)) (UInt32.le_refl _)

/-- Five workers with the greatest count: the combined count is 705032699, not 4999999995. -/
theorem exactTotals_fails_five :
    Manned false (List.replicate 5 greatestReport) .straight
      ∧ (combinedReport false (List.replicate 5 greatestReport) .straight).talkCount = 705032699
      ∧ total (List.replicate 5 greatestReport) .straight (fun r => r.talkCount.toNat) = 4999999995
      ∧ ¬ ExactTotals (List.replicate 5 greatestReport) .straight
        (combinedReport false (List.replicate 5 greatestReport) .straight) := by
  have hmanned : Manned false (List.replicate 5 greatestReport) .straight := by
    unfold Manned
    decide
  refine ⟨hmanned, by decide, by decide, ?_⟩
  intro h
  exact absurd h.count (by decide)

/-! ### The earliest start -/

/-- The start of a direction is the least one among the workers that ran it. -/
def EarliestStart (workers : List WorkerReport) (d : Dir) (r : ReportCollect) : Prop :=
  IsLeast {t | ∃ w ∈ workers, w.ran d = true ∧ (w.results d).talkStreamTimeStart.toNat = t}
    r.talkStreamTimeStart.toNat

/-- **The combined start is zero**, and so it is the earliest one exactly if some worker has
started at time zero. -/
theorem earliestStart_iff (asynchronous : Bool) (workers : List WorkerReport) (d : Dir) :
    EarliestStart workers d (combinedReport asynchronous workers d) ↔
      ∃ w ∈ workers, w.ran d = true ∧ (w.results d).talkStreamTimeStart = 0 := by
  obtain ⟨-, -, -, hstart⟩ := combinedReport_fields asynchronous workers d
  unfold EarliestStart
  rw [hstart]
  constructor
  · intro hearliest
    obtain ⟨⟨w, hw, hran, hzero⟩, -⟩ := hearliest
    exact ⟨w, hw, hran, UInt64.toNat_inj.mp hzero⟩
  · intro hstart
    obtain ⟨w, hw, hran, hzero⟩ := hstart
    exact ⟨⟨w, hw, hran, by rw [hzero]⟩, fun t _ => Nat.zero_le t⟩

/-- The report of a short stream that started in January 2021. -/
def startedReport : WorkerReport :=
  .single .straight ⟨900, 100, 100, 3000000, 1610000000000000, 143200⟩
    (UInt32.lt_iff_toNat_lt.mpr (Nat.lt_of_sub_pos (Nat.succ_pos _))) (UInt32.le_refl _)

/-- One worker: the combined start is zero, not the start of its stream. -/
theorem earliestStart_fails_one :
    (combinedReport false [startedReport] .straight).talkStreamTimeStart = 0
      ∧ ¬ EarliestStart [startedReport] .straight
        (combinedReport false [startedReport] .straight) := by
  refine ⟨by decide, fun h => ?_⟩
  obtain ⟨w, hw, -, hzero⟩ := (earliestStart_iff false _ _).mp h
  rw [List.mem_singleton.mp hw] at hzero
  exact absurd hzero (by decide)

end Ubwt
