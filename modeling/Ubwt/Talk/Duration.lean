import Ubwt.Talk.Rounds

/-!
# Ubwt.Talk.Duration

The duration of a test. The last stream of a direction is one after which the verdict was no
other stream, so not all of its connections were weak: **one of them took the minimum time**
(`TestEnv.Final.exists_long`), and the duration that `report_worker_combine` comes to is no less
than that of any worker (`le_reportWorkerCombine`).
-/

namespace Ubwt

open Lib

/-! ### A stream that was long enough -/

namespace TestEnv

variable {v : TestEnv} {d : Dir}

/-- In the last stream of a direction one connection took the minimum time. -/
theorem Final.exists_long {K : Nat} (h : v.Final d K) (hd : ∃ c, d ∈ v.dirs c) :
    ∃ c, d ∈ v.dirs c ∧ streamThreshold v.minimumTime ≤ v.time c d K := by
  by_contra hnone
  have hweak : ∀ c, d ∈ v.dirs c → v.weak c d K = true := by
    intro c hc
    rw [weak, decide_eq_true_eq]
    by_contra hlong
    exact hnone ⟨c, hc, UInt64.not_lt.mp hlong⟩
  have hneeds := (needsRecount_iff hd).mpr hweak
  have hrestart : v.restart d K = true := by
    rw [restart_eq]
    cases d <;> simp [hneeds]
  cases h.2.symm.trans hrestart

end TestEnv

/-! ### The combined report -/

theorem le_combine_left (main c : ReportCollect) :
    main.talkStreamTimeDuration ≤ (combineCollect main c).talkStreamTimeDuration := by
  simp only [combineCollect, gt_iff_lt, UInt64.lt_iff_toNat_lt, UInt64.le_iff_toNat_le]
  split <;> omega

theorem le_combine_right (main c : ReportCollect) :
    c.talkStreamTimeDuration ≤ (combineCollect main c).talkStreamTimeDuration := by
  simp only [combineCollect, gt_iff_lt, UInt64.lt_iff_toNat_lt, UInt64.le_iff_toNat_le]
  split <;> omega

theorem le_foldl_combine (main : ReportCollect) (cs : List ReportCollect) :
    main.talkStreamTimeDuration ≤ (cs.foldl combineCollect main).talkStreamTimeDuration ∧
      ∀ c ∈ cs, c.talkStreamTimeDuration
        ≤ (cs.foldl combineCollect main).talkStreamTimeDuration := by
  induction cs generalizing main with
  | nil => exact ⟨UInt64.le_refl _, nofun⟩
  | cons c cs ih =>
      obtain ⟨hmain, hcs⟩ := ih (combineCollect main c)
      refine ⟨UInt64.le_trans (le_combine_left main c) hmain, ?_⟩
      intro c' hc'
      rcases List.mem_cons.mp hc' with rfl | hc'
      · exact UInt64.le_trans (le_combine_right main c') hmain
      · exact hcs c' hc'

/-- The combined duration is no less than that of any worker. -/
theorem le_reportWorkerCombine (asynchronous : Bool) (main : Dir → ReportCollect)
    {workers : List (Dir → ReportCollect)} {r : Dir → ReportCollect} (hr : r ∈ workers) (d : Dir) :
    (r d).talkStreamTimeDuration
      ≤ (reportWorkerCombine asynchronous main workers d).talkStreamTimeDuration := by
  have hle := (le_foldl_combine (main d) (workers.map (· d))).2 (r d) (List.mem_map_of_mem hr)
  unfold reportWorkerCombine
  dsimp only
  split <;> exact hle

/-! ### A completed test -/

namespace TalkTest

variable {v : TestEnv} {s : TalkTest v.workers}

/-- All workers are back from `process_run()`. -/
def Completed (s : TalkTest v.workers) : Prop := ∀ e c, (s.worker e c).dirs = []

/-- The workers of an endpoint have their records in the list, in some order. -/
def Lists (s : TalkTest v.workers) (e : Endpoint) (workers : List (Dir → ReportCollect)) : Prop :=
  workers.Perm ((List.finRange v.workers).map fun c => (s.worker e c).report)

end TalkTest

end Ubwt
