import Ubwt.Talk.Workers

/-!
# Ubwt.Talk.Verdict

The verdict after a stream, from what the receivers of all connections have measured
(`TestEnv.restart`): the value that every worker has to come to, and the numbers of weak
streams that it takes it from.
-/

namespace Ubwt

open Lib

/-! ### The verdicts -/

namespace TestEnv

variable (v : TestEnv)

/-- The number of connections that test a direction and whose stream `k` of it is weak. -/
def flagged (d : Dir) (k : Nat) : Nat :=
  tally (fun c => decide (d ∈ v.dirs c) && v.weak c d k)

/-- The verdict after stream `k`: another stream, if all streams of the direction were weak; in
asynchronous mode, if all streams of one of the directions were. -/
def restart (d : Dir) (k : Nat) : Bool :=
  if v.asynchronous then
    decide (v.flagged .straight k = v.workers / 2) || decide (v.flagged .reverse k = v.workers / 2)
  else decide (v.flagged d k = v.workers)

/-- The direction that a connection tests while others test `d`. -/
def connDir (c : Fin v.workers) (d : Dir) : Dir :=
  if v.asynchronous then (if v.reverse c then .reverse else .straight) else d

/-- The number of weak streams in a process. -/
def weakTotal (d : Dir) (k : Nat) : Nat := tally (fun c => v.weak c (v.connDir c d) k)

/-- The synchronous sender, which uses one barrier for everything. -/
def single (e : Endpoint) (d : Dir) : Bool := !v.asynchronous && decide (d.role e = .sender)

/-- The segments of a stream: after the call before the resets, and after the call before the
increments. -/
def timetable (e : Endpoint) (d : Dir) : Timetable where
  base := if v.single e d then 4 else 2
  period := if v.single e d then 7 else 5
  lag := 3
  base_pos := by split <;> decide
  lag_gt := by decide
  lag_lt := by split <;> decide

variable {v} {c : Fin v.workers} {d : Dir}

theorem reset_eq {e : Endpoint} {k : Nat} :
    (v.timetable e d).reset k = if v.single e d then 4 + 7 * k else 2 + 5 * k := by
  unfold Timetable.reset
  simp only [timetable]
  split <;> rfl

theorem dirs_async (h : v.asynchronous = true) (d : Dir) : v.dirs c = [v.connDir c d] := by
  simp only [dirs, connDir, h, if_true]
  cases v.reverse c <;> simp [processRun]

theorem dirs_sync (h : v.asynchronous = false) (c c' : Fin v.workers) : v.dirs c = v.dirs c' := by
  simp [dirs, h]

theorem nodup_dirs (c : Fin v.workers) : (v.dirs c).Nodup := by
  unfold dirs processRun
  split <;> split <;> decide

theorem connDir_mem (h : v.asynchronous = true) (d : Dir) : v.connDir c d ∈ v.dirs c := by
  rw [dirs_async h d]
  exact List.mem_singleton_self _

theorem joins_main (d : Dir) (c : Fin v.workers) : v.Joins (v.mainBarrier d) c := by
  unfold mainBarrier Joins
  cases h : v.asynchronous with
  | true => simp
  | false => simp

/-- In asynchronous mode both directions are tested by half of the connections. -/
theorem exists_dir (h : v.asynchronous = true) (d : Dir) : ∃ c, d ∈ v.dirs c := by
  have hhalf := v.half h
  have hpos := v.workers_pos
  have hdir : ∀ c, v.dirs c = [if v.reverse c then .reverse else .straight] := by
    intro c
    rw [dirs_async h .straight, connDir, h, if_pos rfl]
  cases d with
  | straight =>
      by_contra hnone
      have hall : ∀ c, v.reverse c = true := by
        intro c
        by_contra hc
        refine hnone ⟨c, ?_⟩
        rw [hdir, if_neg hc]
        exact List.mem_singleton_self _
      rw [tally_eq_card.mpr hall, Fintype.card_fin] at hhalf
      omega
  | reverse =>
      by_contra hnone
      have hall : ∀ c, v.reverse c = false := by
        intro c
        by_contra hc
        refine hnone ⟨c, ?_⟩
        rw [hdir, if_pos (Bool.of_not_eq_false hc)]
        exact List.mem_singleton_self _
      rw [tally_eq_zero.mpr hall] at hhalf
      omega

theorem flagged_le_weakTotal (d : Dir) (k : Nat) (d' : Dir)
    (hd' : v.asynchronous = false → d' = d) : v.flagged d k ≤ v.weakTotal d' k := by
  refine tally_mono ?_
  intro c hc
  rw [Bool.and_eq_true, decide_eq_true_eq] at hc
  cases ha : v.asynchronous with
  | true =>
      rw [dirs_async ha d', List.mem_singleton] at hc
      rw [← hc.1]
      exact hc.2
  | false =>
      rw [connDir, ha, if_neg Bool.false_ne_true, hd' ha]
      exact hc.2

/-- Another stream is run only after a weak one. -/
theorem weakTotal_pos {k : Nat} (h : v.restart d k = true) : 0 < v.weakTotal d k := by
  unfold restart at h
  have hpos := v.workers_pos
  cases ha : v.asynchronous with
  | true =>
      rw [ha, if_pos rfl, Bool.or_eq_true, decide_eq_true_eq, decide_eq_true_eq] at h
      have hhalf : 0 < v.workers / 2 := by
        have := v.half ha
        omega
      have hle : ∀ d', v.flagged d' k ≤ v.weakTotal d k := by
        intro d'
        refine flagged_le_weakTotal d' k d ?_
        simp [ha]
      rcases h with h | h
      · have := hle .straight
        omega
      · have := hle .reverse
        omega
  | false =>
      rw [ha, if_neg Bool.false_ne_true, decide_eq_true_eq] at h
      have := flagged_le_weakTotal (v := v) d k d (fun _ => rfl)
      omega

/-- Stream `K` of a direction is its last one. -/
def Final (v : TestEnv) (d : Dir) (K : Nat) : Prop :=
  (∀ j < K, v.restart d j = true) ∧ v.restart d K = false

end TestEnv

end Ubwt
