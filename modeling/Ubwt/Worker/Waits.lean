import Mathlib.Data.List.Count
import Ubwt.Config.Options
import Ubwt.Talk.Workers

/-!
# Ubwt.Worker.Waits

The barriers of `worker_init` against the workers that `runtime_do` starts.

A wait is named by its barrier, and the waits of a worker are listed in the order of its
calls (`processWaits`); whether another stream is run is given. **In synchronous mode all
workers of a process make the same calls**, so only the sizes have to match. In
asynchronous mode half of them send and half receive: they differ in the waits around the
count, which are all on the barrier of the direction, and agree on barrier 2
(`count_all_talkSenderWaits`, `count_all_talkReceiverWaits`).
-/

namespace Ubwt

open Lib.Posix

/-! ### worker_init -/

/-- `net_im_listener()`, `net_im_connector()`. -/
def Config.endpoint (cfg : Config) : Endpoint := if cfg.imListener then .listener else .connector

/-- `worker_barrier_init()` in `worker_init()` on the barrier of a direction, with the number
of the workers that start with it. -/
def dirBarrierInit (cfg : Config) (first : UInt32) : Option UInt32 :=
  if first != 0 && cfg.bidirectional then some first
  else if first != 0 then some first
  else if cfg.bidirectional then some cfg.workerCount
  else none

/-- The barriers that `worker_init()` initialises, with their counts. -/
def workerInit (cfg : Config) : BarrierId → Option UInt32
  | .dir .straight => dirBarrierInit cfg cfg.workerStraightFirstCount
  | .dir .reverse => dirBarrierInit cfg cfg.workerReverseFirstCount
  | .all => if cfg.asynchronous then some cfg.workerCount else none

/-! ### runtime_do -/

/-- The arguments of `process_run()` for the workers that `runtime_do()` starts. -/
def runtimeTasks (cfg : Config) : List Bool :=
  List.replicate cfg.workerStraightFirstCount.toNat false ++
    List.replicate cfg.workerReverseFirstCount.toNat true

/-! ### The waits of talk.c -/

section Talk

variable (asynchronous : Bool) (d : Dir)

/-- `worker_barrier_global[2]` in asynchronous mode, else the barrier of the direction. -/
def syncBarrier : BarrierId := if asynchronous then .all else .dir d

/-- The waits of `_talk_sender_stream()`: context reset, STREAM START, STREAM END of the
senders and then of all, and around the increments. -/
def talkSenderStreamWaits : List BarrierId :=
  [syncBarrier asynchronous d, syncBarrier asynchronous d, .dir d] ++
    (if asynchronous then [.all] else []) ++
    [syncBarrier asynchronous d, syncBarrier asynchronous d]

/-- The waits of `_talk_receiver_stream()`. -/
def talkReceiverStreamWaits : List BarrierId :=
  [syncBarrier asynchronous d, syncBarrier asynchronous d, .dir d] ++
    (if asynchronous then [.all] else []) ++
    [syncBarrier asynchronous d, syncBarrier asynchronous d]

/-- The loop of `talk_sender()`; a verdict says that another stream is run, and past the last
one none is. -/
def talkSenderLoopWaits : List Bool → List BarrierId
  | true :: verdicts =>
      talkSenderStreamWaits asynchronous d ++ [.dir d, .dir d] ++ talkSenderLoopWaits verdicts
  | _ => talkSenderStreamWaits asynchronous d

/-- The loop of `talk_receiver()`. -/
def talkReceiverLoopWaits : List Bool → List BarrierId
  | true :: verdicts => talkReceiverStreamWaits asynchronous d ++ talkReceiverLoopWaits verdicts
  | _ => talkReceiverStreamWaits asynchronous d

/-- The waits of `talk_sender()`: after `talk_init()`, around the first count, and those of the
streams. -/
def talkSenderWaits (verdicts : List Bool) : List BarrierId :=
  [syncBarrier asynchronous d] ++ [.dir d, .dir d] ++ talkSenderLoopWaits asynchronous d verdicts

/-- The waits of `talk_receiver()`. -/
def talkReceiverWaits (verdicts : List Bool) : List BarrierId :=
  [syncBarrier asynchronous d] ++ talkReceiverLoopWaits asynchronous d verdicts

end Talk

/-- The waits of a worker during `process_run()`, with the verdicts of each direction. -/
def processWaits (cfg : Config) (verdicts : Dir → List Bool) (reverseFirst : Bool) :
    List BarrierId :=
  (processRun reverseFirst cfg.bidirectional cfg.asynchronous).flatMap fun d =>
    match d.role cfg.endpoint with
    | .sender => talkSenderWaits cfg.asynchronous d (verdicts d)
    | .receiver => talkReceiverWaits cfg.asynchronous d (verdicts d)

/-- A barrier that some worker waits on has been initialised for exactly the workers that
wait on it, and these wait on it equally often. -/
structure BarrierMatches (cfg : Config) (verdicts : Dir → List Bool) (b : BarrierId) : Prop where
  initialised : ∃ count, workerInit cfg b = some count ∧
    count.toNat = (runtimeTasks cfg).countP (fun task => b ∈ processWaits cfg verdicts task)
  equally : ∀ task ∈ runtimeTasks cfg, ∀ task' ∈ runtimeTasks cfg,
    b ∈ processWaits cfg verdicts task → b ∈ processWaits cfg verdicts task' →
      (processWaits cfg verdicts task).count b = (processWaits cfg verdicts task').count b

/-! ### What a call of talk_sender or talk_receiver waits on -/

section Counts

variable {asynchronous : Bool} {d : Dir}

/-- The streams that are run. -/
def streams : List Bool → Nat
  | true :: verdicts => streams verdicts + 1
  | _ => 1

theorem mem_talkSenderStreamWaits {b : BarrierId} :
    b ∈ talkSenderStreamWaits asynchronous d ↔ b = .dir d ∨ asynchronous = true ∧ b = .all := by
  cases asynchronous <;> simp [talkSenderStreamWaits, syncBarrier, or_comm]

theorem mem_talkSenderWaits {verdicts : List Bool} {b : BarrierId} :
    b ∈ talkSenderWaits asynchronous d verdicts ↔
      b = .dir d ∨ asynchronous = true ∧ b = .all := by
  have hloop : b ∈ talkSenderLoopWaits asynchronous d verdicts ↔
      b = .dir d ∨ asynchronous = true ∧ b = .all := by
    fun_induction talkSenderLoopWaits with
    | case1 verdicts ih => simp [mem_talkSenderStreamWaits, ih]
    | case2 => exact mem_talkSenderStreamWaits
  cases asynchronous
  · simp [talkSenderWaits, syncBarrier, hloop]
  · simp only [talkSenderWaits, syncBarrier, List.mem_append, hloop]
    simp [or_comm]

theorem mem_talkReceiverWaits {verdicts : List Bool} {b : BarrierId} :
    b ∈ talkReceiverWaits asynchronous d verdicts ↔
      b = .dir d ∨ asynchronous = true ∧ b = .all := by
  have hloop : b ∈ talkReceiverLoopWaits asynchronous d verdicts ↔
      b = .dir d ∨ asynchronous = true ∧ b = .all := by
    fun_induction talkReceiverLoopWaits with
    | case1 verdicts ih =>
        rw [List.mem_append, ih]
        exact or_iff_right_of_imp mem_talkSenderStreamWaits.mp
    | case2 => exact mem_talkSenderStreamWaits
  cases asynchronous
  · simp [talkReceiverWaits, syncBarrier, hloop]
  · simp only [talkReceiverWaits, syncBarrier, List.mem_append, hloop]
    simp [or_comm]

/-- A sender meets the receivers once before the first stream and five times in each. -/
theorem count_all_talkSenderWaits (verdicts : List Bool) :
    (talkSenderWaits true d verdicts).count .all = 1 + 5 * streams verdicts := by
  have hloop : (talkSenderLoopWaits true d verdicts).count .all = 5 * streams verdicts := by
    fun_induction talkSenderLoopWaits with
    | case1 verdicts ih =>
        rw [List.count_append, ih, streams]
        simp [talkSenderStreamWaits, syncBarrier]
        omega
    | case2 verdicts h =>
        rw [streams]
        · simp [talkSenderStreamWaits, syncBarrier]
        · exact h
  rw [talkSenderWaits, List.count_append, hloop]
  simp [syncBarrier]

/-- A receiver meets the senders as often. -/
theorem count_all_talkReceiverWaits (verdicts : List Bool) :
    (talkReceiverWaits true d verdicts).count .all = 1 + 5 * streams verdicts := by
  have hloop : (talkReceiverLoopWaits true d verdicts).count .all = 5 * streams verdicts := by
    fun_induction talkReceiverLoopWaits with
    | case1 verdicts ih =>
        rw [List.count_append, ih, streams]
        simp [talkReceiverStreamWaits, syncBarrier]
        omega
    | case2 verdicts h =>
        rw [streams]
        · simp [talkReceiverStreamWaits, syncBarrier]
        · exact h
  rw [talkReceiverWaits, List.count_append, hloop]
  simp [syncBarrier]

end Counts

theorem mem_processWaits {cfg : Config} {verdicts : Dir → List Bool} {task : Bool}
    {b : BarrierId} :
    b ∈ processWaits cfg verdicts task ↔
      ∃ d ∈ processRun task cfg.bidirectional cfg.asynchronous,
        b = .dir d ∨ cfg.asynchronous = true ∧ b = .all := by
  rw [processWaits, List.mem_flatMap]
  refine exists_congr fun d => and_congr_right fun _ => ?_
  cases d.role cfg.endpoint
  · exact mem_talkSenderWaits
  · exact mem_talkReceiverWaits

/-! ### Synchronous mode -/

section Modes

variable {cfg : Config} {verdicts : Dir → List Bool} {b : BarrierId}

/-- Without `-A` all workers start with the same direction. -/
theorem runtimeTasks_sync (hw : WorkersSettled cfg) (ha : cfg.asynchronous = false) :
    runtimeTasks cfg = List.replicate cfg.workerCount.toNat cfg.reverseFirst := by
  have hsum := hw.sum
  have hfirst := hw.sync ha
  unfold runtimeTasks
  cases hr : cfg.reverseFirst with
  | false =>
      rw [hr] at hfirst
      simp at hfirst
      rw [← hsum, hfirst]
      simp
  | true =>
      rw [hr] at hfirst
      simp at hfirst
      rw [← hsum, hfirst]
      simp

theorem dirBarrierInit_first {first : UInt32} (h : first ≠ 0) :
    dirBarrierInit cfg first = some first := by
  simp [dirBarrierInit, h]

theorem dirBarrierInit_zero (hbi : cfg.bidirectional = true) :
    dirBarrierInit cfg 0 = some cfg.workerCount := by
  simp [dirBarrierInit, hbi]

/-- Without `-A` the barrier of a tested direction is made for all workers. -/
theorem workerInit_sync (hw : WorkersSettled cfg) (ha : cfg.asynchronous = false)
    (hb : b ∈ processWaits cfg verdicts cfg.reverseFirst) :
    workerInit cfg b = some cfg.workerCount := by
  obtain ⟨d, hd, hbd⟩ := mem_processWaits.mp hb
  simp only [ha, Bool.false_eq_true, false_and, or_false] at hbd
  subst hbd
  have hpos : cfg.workerCount ≠ 0 := by
    intro h
    have hlt := hw.pos
    rw [h] at hlt
    exact Nat.lt_irrefl 0 hlt
  have hsum := hw.sum
  have hfirst := hw.sync ha
  -- All workers start with one direction; the barrier of the other needs `-b`.
  cases hr : cfg.reverseFirst with
  | false =>
      rw [hr] at hfirst hd
      simp only [Bool.false_eq_true, if_false] at hfirst
      rw [hfirst] at hsum
      have hall : cfg.workerStraightFirstCount = cfg.workerCount := UInt32.toNat_inj.mp hsum
      cases d with
      | straight =>
          rw [workerInit, hall]
          exact dirBarrierInit_first hpos
      | reverse =>
          rw [workerInit, hfirst]
          refine dirBarrierInit_zero ?_
          by_contra hbi
          simp [processRun, hbi] at hd
  | true =>
      rw [hr] at hfirst hd
      simp only [if_true] at hfirst
      rw [hfirst] at hsum
      have hall : cfg.workerReverseFirstCount = cfg.workerCount :=
        UInt32.toNat_inj.mp ((Nat.zero_add _).symm.trans hsum)
      cases d with
      | straight =>
          rw [workerInit, hfirst]
          refine dirBarrierInit_zero ?_
          by_contra hbi
          simp [processRun, hbi] at hd
      | reverse =>
          rw [workerInit, hall]
          exact dirBarrierInit_first hpos

theorem barrierMatches_sync (hw : WorkersSettled cfg) (ha : cfg.asynchronous = false)
    (hb : ∃ task ∈ runtimeTasks cfg, b ∈ processWaits cfg verdicts task) :
    BarrierMatches cfg verdicts b := by
  have htasks := runtimeTasks_sync hw ha
  have hone : ∀ task ∈ runtimeTasks cfg, task = cfg.reverseFirst := by
    rw [htasks]
    exact fun _ h => List.eq_of_mem_replicate h
  obtain ⟨task, htask, hb⟩ := hb
  rw [hone task htask] at hb
  constructor
  · refine ⟨cfg.workerCount, workerInit_sync hw ha hb, ?_⟩
    rw [htasks, List.countP_replicate]
    simp [hb]
  · intro task htask task' htask' _ _
    rw [hone task htask, hone task' htask']

/-! ### Asynchronous mode -/

/-- With `-A` a worker tests one direction. -/
theorem processRun_async (task : Bool) (bidirectional : Bool) :
    processRun task bidirectional true = [if task then .reverse else .straight] := by
  cases task <;> simp [processRun]

/-- With `-A` all workers wait on barrier 2 equally often. -/
theorem count_all_processWaits (ha : cfg.asynchronous = true)
    (hcommon : verdicts .straight = verdicts .reverse) (task : Bool) :
    (processWaits cfg verdicts task).count .all = 1 + 5 * streams (verdicts .straight) := by
  have hverdicts : ∀ d, verdicts d = verdicts .straight := by
    intro d
    cases d with
    | straight => rfl
    | reverse => exact hcommon.symm
  rw [processWaits, ha, processRun_async, List.flatMap_singleton]
  cases Dir.role (if task then .reverse else .straight) cfg.endpoint
  · rw [count_all_talkSenderWaits, hverdicts]
  · rw [count_all_talkReceiverWaits, hverdicts]

theorem mem_processWaits_async (ha : cfg.asynchronous = true) (task : Bool) :
    b ∈ processWaits cfg verdicts task ↔
      b = .dir (if task then .reverse else .straight) ∨ b = .all := by
  rw [mem_processWaits, ha, processRun_async]
  simp

/-- How many workers wait on a barrier, by the direction they test. -/
theorem countP_async (ha : cfg.asynchronous = true) :
    (runtimeTasks cfg).countP (fun task => b ∈ processWaits cfg verdicts task)
      = (if b = .dir .straight ∨ b = .all then cfg.workerStraightFirstCount.toNat else 0)
        + (if b = .dir .reverse ∨ b = .all then cfg.workerReverseFirstCount.toNat else 0) := by
  simp only [runtimeTasks, mem_processWaits_async ha, List.countP_append, List.countP_replicate,
    decide_eq_true_eq]
  rfl

theorem barrierMatches_async (hw : WorkersSettled cfg) (ha : cfg.asynchronous = true)
    (hcommon : verdicts .straight = verdicts .reverse) : BarrierMatches cfg verdicts b := by
  obtain ⟨-, -, hhalf⟩ := hw.async ha
  have hsum := hw.sum
  have hnonzero : cfg.workerReverseFirstCount ≠ 0 := by
    intro h
    have hpos := hw.pos
    rw [hhalf, h] at hsum
    rw [← hsum] at hpos
    exact absurd hpos (by decide)
  constructor
  · rw [countP_async ha]
    cases b with
    | all => exact ⟨cfg.workerCount, by simp [workerInit, ha], by simp [← hsum]⟩
    | dir d =>
        cases d with
        | straight =>
            refine ⟨cfg.workerStraightFirstCount, ?_, by simp⟩
            rw [workerInit, hhalf]
            exact dirBarrierInit_first hnonzero
        | reverse =>
            refine ⟨cfg.workerReverseFirstCount, ?_, by simp⟩
            rw [workerInit]
            exact dirBarrierInit_first hnonzero
  · intro task _ task' _ hb hb'
    cases b with
    | all => rw [count_all_processWaits ha hcommon, count_all_processWaits ha hcommon]
    | dir d =>
        -- Only the workers of one direction wait here, and they make the same calls.
        have htask : task = task' := by
          simp only [mem_processWaits_async ha, BarrierId.dir.injEq, reduceCtorEq, or_false]
            at hb hb'
          cases task <;> cases task' <;> simp_all
        rw [htask]

end Modes

/-- **The barriers fit their workers**: with a configuration that `config_init` accepted, each
barrier on which a worker of `runtime_do` waits was initialised by `worker_init` for as many
workers as wait on it, and all of these wait on it equally often. The workers have their
verdicts in common: those of a direction in synchronous mode, and all of them in asynchronous
mode. -/
theorem barriers_match {env : Env} {args : List CString} {cfg : Config}
    (hcfg : configInit env args = .ok cfg) (verdicts : Dir → List Bool)
    (hcommon : cfg.asynchronous = true → verdicts .straight = verdicts .reverse) (b : BarrierId)
    (hb : ∃ task ∈ runtimeTasks cfg, b ∈ processWaits cfg verdicts task) :
    BarrierMatches cfg verdicts b := by
  have hw := configInit_settled hcfg
  cases ha : cfg.asynchronous with
  | false => exact barrierMatches_sync hw ha hb
  | true => exact barrierMatches_async hw ha (hcommon ha)

/-- `ubwt -A -W 4 connector 10.0.0.1` with one restart. -/
theorem barriers_match_four :
    ∃ cfg, configInit ⟨false, false, fun _ _ => true⟩
        ["-A".toList, "-W".toList, "4".toList, "connector".toList, "10.0.0.1".toList] = .ok cfg ∧
      BarrierMatches cfg (fun _ => [true]) .all := by
  obtain ⟨cfg, hcfg, hasync, hstraight⟩ : ∃ cfg, configInit ⟨false, false, fun _ _ => true⟩
        ["-A".toList, "-W".toList, "4".toList, "connector".toList, "10.0.0.1".toList] = .ok cfg ∧
      cfg.asynchronous = true ∧ cfg.workerStraightFirstCount = 2 := ⟨_, rfl, rfl, rfl⟩
  refine ⟨cfg, hcfg, barriers_match hcfg _ (fun _ => rfl) .all ⟨false, ?_, ?_⟩⟩
  · simp [runtimeTasks, hstraight]
  · simp [mem_processWaits_async hasync]

end Ubwt
