import Mathlib.Logic.Function.Basic
import Mathlib.Logic.Relation
import Ubwt.Worker.Waits

/-!
# Ubwt.Runtime.Flags

The main thread of a process, which waits in `runtime_do` for the flags READY, RUNNING and
JOINABLE of its workers, and the workers, which set them.

READY and JOINABLE are never cleared; RUNNING is, at the end of `process_run`, and main only
looks at it now and then. The barrier after `talk_init` keeps every worker from ending
before all of them are created, so **no worker can end before main has got to its last wait
for RUNNING** (`Watch.created_of_tested`), but nothing keeps them from ending during it:
`missed_single_worker` is such a run, and main does not get out of it (`Watch.missed_forever`).
While no worker ends that early, no flag is missed (`timely_not_missed`).

The test itself is one step here: what is between the barrier and `talk_destroy` does not
touch the flags.
-/

namespace Ubwt

open Lib.Posix

/-! ### The workers -/

/-- The flags that `runtime_do()` waits for. -/
inductive WorkerFlag
  | ready
  | running
  | joinable
  deriving Repr, DecidableEq

/-- Where a worker is. -/
inductive TaskPc
  | absent
  /-- `current_fork()` has set READY. -/
  | ready
  /-- `talk_init()` has set RUNNING. -/
  | running
  /-- In the first `worker_barrier_wait()` of `talk_sender()` or `talk_receiver()`. -/
  | waiting
  | testing
  /-- `talk_destroy()` has cleared RUNNING. -/
  | ended
  /-- `current_exit()` has set JOINABLE. -/
  | joinable
  deriving Repr, DecidableEq

/-- `bit_test(&c->worker_flags, flag)`. -/
def TaskPc.hasFlag : TaskPc → WorkerFlag → Bool
  | absent, _ => false
  | _, .ready => true
  | running, .running => true
  | waiting, .running => true
  | testing, .running => true
  | joinable, .joinable => true
  | _, _ => false

/-- Has the worker called the first `worker_barrier_wait()`? -/
def TaskPc.entered : TaskPc → Bool
  | waiting | testing | ended | joinable => true
  | _ => false

/-- Has it returned from it? -/
def TaskPc.tested : TaskPc → Bool
  | testing | ended | joinable => true
  | _ => false

/-- Has it cleared RUNNING for good? -/
def TaskPc.cleared : TaskPc → Bool
  | ended | joinable => true
  | _ => false

/-! ### The main thread -/

/-- The calls of `_runtime_wait_worker_flag()`. -/
inductive WaitStage
  | straightReady
  | straightRunning
  | reverseReady
  | reverseRunning
  | joinable
  deriving Repr, DecidableEq

def WaitStage.flag : WaitStage → WorkerFlag
  | straightReady => .ready
  | straightRunning => .running
  | reverseReady => .ready
  | reverseRunning => .running
  | joinable => .joinable

/-- Where main is in `runtime_do()`. -/
inductive MainPc
  /-- About to create worker `i`, in the first and in the second loop. -/
  | createStraight (i : Nat)
  | createReverse (i : Nat)
  /-- In `current_children_has_flag()`: the records still to visit, and how many more have to
  have the flag. -/
  | wait (stage : WaitStage) (rest : List Nat) (count : Nat)
  | report
  deriving Repr, DecidableEq

section

variable (cfg : Config)

/-- The number of workers. -/
def Config.workers : Nat := cfg.workerCount.toNat

/-- The workers of the first loop. -/
def Config.straightFirst : Nat := cfg.workerStraightFirstCount.toNat

/-- How many workers have to have the flag. -/
def WaitStage.required : WaitStage → Nat
  | straightReady | straightRunning => if cfg.asynchronous then cfg.workers / 2 else cfg.workers
  | reverseReady | reverseRunning | joinable => cfg.workers

/-- How many workers exist at a stage. -/
def WaitStage.created : WaitStage → Nat
  | straightReady | straightRunning => cfg.straightFirst
  | reverseReady | reverseRunning | joinable => cfg.workers

/-- Their records, newest first. -/
def WaitStage.children (stage : WaitStage) : List Nat := (List.range (stage.created cfg)).reverse

/-- The start of a walk over the records. -/
def WaitStage.start (stage : WaitStage) : MainPc :=
  .wait stage (stage.children cfg) (stage.required cfg)

/-- What follows a wait. -/
def WaitStage.next : WaitStage → MainPc
  | straightReady => straightRunning.start cfg
  | straightRunning => .createReverse cfg.straightFirst
  | reverseReady => reverseRunning.start cfg
  | reverseRunning => joinable.start cfg
  | joinable => .report

/-- How many workers main has created. -/
def MainPc.created : MainPc → Nat
  | .createStraight i => i
  | .createReverse i => i
  | .wait stage _ _ => stage.created cfg
  | .report => cfg.workers

/-- The bounds of the two loops. -/
def MainPc.Bounded : MainPc → Prop
  | .createStraight i => i ≤ cfg.straightFirst
  | .createReverse i => cfg.straightFirst ≤ i ∧ i ≤ cfg.workers
  | _ => True

/-- The barrier a worker waits on first. -/
def initBarrier (i : Nat) : BarrierId :=
  syncBarrier cfg.asynchronous (if i < cfg.straightFirst then .straight else .reverse)

end

/-! ### The process -/

/-- The main thread and the workers of a process. -/
structure Watch where
  main : MainPc
  worker : Nat → TaskPc

namespace Watch

def init : Watch where
  main := .createStraight 0
  worker := fun _ => .absent

/-- Replace a worker. -/
def setWorker (s : Watch) (i : Nat) (p : TaskPc) : Watch :=
  { s with worker := Function.update s.worker i p }

@[simp] theorem setWorker_main (s : Watch) (i : Nat) (p : TaskPc) :
    (s.setWorker i p).main = s.main := rfl

@[simp] theorem setWorker_self (s : Watch) (i : Nat) (p : TaskPc) :
    (s.setWorker i p).worker i = p := Function.update_self ..

theorem setWorker_of_ne (s : Watch) {i j : Nat} (h : j ≠ i) (p : TaskPc) :
    (s.setWorker i p).worker j = s.worker j := Function.update_of_ne h ..

variable (cfg : Config)

/-- How many workers have called `worker_barrier_wait()` on their first barrier. -/
def enteredAt (s : Watch) (b : BarrierId) : Nat :=
  (List.range cfg.workers).countP (fun i => (s.worker i).entered && initBarrier cfg i = b)

/-- One step of the main thread or of a worker. -/
inductive Step : Watch → Watch → Prop
  | forkStraight {s i} (h : s.main = .createStraight i) (hi : i < cfg.straightFirst) :
      Step s ({ s with main := .createStraight (i + 1) }.setWorker i .ready)
  | straightCreated {s} (h : s.main = .createStraight cfg.straightFirst) :
      Step s { s with main :=
        if 0 < cfg.straightFirst then WaitStage.straightReady.start cfg
        else .createReverse cfg.straightFirst }
  | forkReverse {s i} (h : s.main = .createReverse i)
      (hi : i < cfg.straightFirst + cfg.workerReverseFirstCount.toNat) :
      Step s ({ s with main := .createReverse (i + 1) }.setWorker i .ready)
  | reverseCreated {s}
      (h : s.main = .createReverse (cfg.straightFirst + cfg.workerReverseFirstCount.toNat)) :
      Step s { s with main :=
        if cfg.straightFirst < cfg.straightFirst + cfg.workerReverseFirstCount.toNat then
          WaitStage.reverseReady.start cfg
        else if 0 < cfg.straightFirst + cfg.workerReverseFirstCount.toNat then
          WaitStage.joinable.start cfg
        else .report }
  | visitSet {s stage i rest count} (h : s.main = .wait stage (i :: rest) (count + 1))
      (hf : (s.worker i).hasFlag stage.flag = true) :
      Step s { s with main := .wait stage rest count }
  | visitClear {s stage i rest count} (h : s.main = .wait stage (i :: rest) (count + 1))
      (hf : (s.worker i).hasFlag stage.flag = false) :
      Step s { s with main := .wait stage rest (count + 1) }
  /-- The walk has failed: wait for a signal or a while, and walk again. -/
  | again {s stage count} (h : s.main = .wait stage [] (count + 1)) :
      Step s { s with main := stage.start cfg }
  | found {s stage rest} (h : s.main = .wait stage rest 0) :
      Step s { s with main := stage.next cfg }
  | talkInit {s i} (h : s.worker i = .ready) : Step s (s.setWorker i .running)
  | enter {s i} (h : s.worker i = .running) : Step s (s.setWorker i .waiting)
  | leave {s i count} (h : s.worker i = .waiting)
      (hb : workerInit cfg (initBarrier cfg i) = some count)
      (hall : count.toNat ≤ s.enteredAt cfg (initBarrier cfg i)) :
      Step s (s.setWorker i .testing)
  | talkDestroy {s i} (h : s.worker i = .testing) : Step s (s.setWorker i .ended)
  | exit {s i} (h : s.worker i = .ended) : Step s (s.setWorker i .joinable)

/-- The states that can be reached. -/
def Reachable (s : Watch) : Prop := Relation.ReflTransGen (Step cfg) init s

/-- How many workers hold RUNNING. -/
def runningCount (s : Watch) : Nat :=
  (List.range cfg.workers).countP (fun i => (s.worker i).hasFlag .running)

/-- Main waits for RUNNING, fewer workers than it needs hold it, and one has cleared it for
good. -/
def Missed (s : Watch) : Prop :=
  ∃ stage rest count, s.main = .wait stage rest count ∧ stage.flag = .running ∧
    s.runningCount cfg < stage.required cfg ∧ ∃ i < cfg.workers, (s.worker i).cleared = true

/-- Main has created all its workers and has not left its last wait for RUNNING. -/
def Watching (s : Watch) : Prop :=
  match s.main with
  | .createStraight i => i = cfg.workers
  | .createReverse i => i = cfg.workers ∧ cfg.straightFirst < cfg.workers
  | .wait .straightReady _ _ | .wait .straightRunning _ _ => cfg.straightFirst = cfg.workers
  | .wait .reverseReady _ _ | .wait .reverseRunning _ _ => True
  | .wait .joinable _ _ | .report => False

/-- A step in which no worker clears RUNNING under the eyes of main. -/
def Timely (s s' : Watch) : Prop :=
  Step cfg s s' ∧ ∀ i < cfg.workers, (s.worker i).hasFlag .running = true →
    (s'.worker i).hasFlag .running = false → ¬ s.Watching cfg

/-! ### What the barrier guarantees -/

/-- Main has left its last wait for RUNNING. -/
def Past (s : Watch) : Prop :=
  match s.main with
  | .createReverse _ => cfg.straightFirst = cfg.workers
  | .wait .joinable _ _ | .report => True
  | _ => False

/-- What holds in every reachable state. -/
structure Inv (s : Watch) : Prop where
  bound : s.main.Bounded cfg
  absent : ∀ i, s.main.created cfg ≤ i → s.worker i = .absent
  barrier : ∀ i, (s.worker i).tested = true → ∀ j < cfg.workers, (s.worker j).entered = true

variable {cfg}

theorem inv_init : Inv cfg init where
  bound := Nat.zero_le _
  absent := fun _ _ => rfl
  barrier := fun _ h => by cases h

theorem mem_processRun_first (reverseFirst bidirectional asynchronous : Bool) :
    (if reverseFirst then .reverse else .straight)
      ∈ processRun reverseFirst bidirectional asynchronous := by
  cases reverseFirst <;> cases bidirectional <;> cases asynchronous <;> decide

theorem Inv.created_le {s : Watch} (hw : WorkersSettled cfg) (hi : Inv cfg s) :
    s.main.created cfg ≤ cfg.workers := by
  have hle : cfg.straightFirst ≤ cfg.workers :=
    Nat.le_trans (Nat.le_add_right ..) (Nat.le_of_eq hw.sum)
  have hb := hi.bound
  cases hm : s.main with
  | createStraight i =>
      rw [hm] at hb
      exact Nat.le_trans hb hle
  | createReverse i =>
      rw [hm] at hb
      exact hb.2
  | wait stage rest count =>
      cases stage <;> first | exact hle | exact Nat.le_refl _
  | report => exact Nat.le_refl _

/-- The first barrier is one for all workers. -/
theorem workerInit_initBarrier (hw : WorkersSettled cfg) {i : Nat} (hi : i < cfg.workers) :
    workerInit cfg (initBarrier cfg i) = some cfg.workerCount := by
  cases ha : cfg.asynchronous with
  | true => simp [initBarrier, syncBarrier, workerInit, ha]
  | false =>
      have hmem : initBarrier cfg i ∈ processWaits cfg (fun _ => []) cfg.reverseFirst := ?_
      · exact workerInit_sync hw ha hmem
      rw [mem_processWaits]
      have hsync := hw.sync ha
      have hsum := hw.sum
      have hfirst : (if i < cfg.straightFirst then Dir.straight else .reverse)
          = if cfg.reverseFirst then .reverse else .straight := by
        cases hr : cfg.reverseFirst with
        | false =>
            rw [hr] at hsync
            simp only [Bool.false_eq_true, if_false] at hsync
            rw [hsync] at hsum
            exact if_pos (lt_of_lt_of_eq hi hsum.symm)
        | true =>
            rw [hr] at hsync
            simp only [if_true] at hsync
            rw [Config.straightFirst, hsync]
            exact if_neg (Nat.not_lt_zero i)
      refine ⟨if i < cfg.straightFirst then .straight else .reverse, ?_, .inl ?_⟩
      · rw [hfirst]
        exact mem_processRun_first ..
      · simp [initBarrier, syncBarrier, ha]

/-- A worker that has left the barrier has seen all of them come. -/
theorem entered_of_enteredAt {s : Watch} {b : BarrierId} (h : cfg.workers ≤ s.enteredAt cfg b) :
    ∀ j < cfg.workers, (s.worker j).entered = true := by
  have hlen : s.enteredAt cfg b = (List.range cfg.workers).length := by
    refine Nat.le_antisymm List.countP_le_length ?_
    rw [List.length_range]
    exact h
  intro j hj
  have hj' := List.countP_eq_length.mp hlen j (List.mem_range.mpr hj)
  simp only [Bool.and_eq_true] at hj'
  exact hj'.1

theorem entered_setWorker {s : Watch} {i : Nat} {p : TaskPc} (hp : p.entered = true)
    (h : ∀ j < cfg.workers, (s.worker j).entered = true) :
    ∀ j < cfg.workers, ((s.setWorker i p).worker j).entered = true := by
  intro j hj
  by_cases hji : j = i
  · subst hji
    rw [setWorker_self]
    exact hp
  · rw [setWorker_of_ne s hji]
    exact h j hj

/-- A worker that moves on keeps the invariant when the barrier lets it. -/
theorem inv_setWorker {s : Watch} (hi : Inv cfg s) {i : Nat} {p : TaskPc}
    (hex : s.worker i ≠ .absent) (hent : (s.worker i).entered = true → p.entered = true)
    (htest : p.tested = true → ∀ j < cfg.workers, ((s.setWorker i p).worker j).entered = true) :
    Inv cfg (s.setWorker i p) where
  bound := hi.bound
  absent := by
    intro j hj
    have hne : j ≠ i := fun h => hex (h ▸ hi.absent j hj)
    rw [setWorker_of_ne s hne]
    exact hi.absent j hj
  barrier := by
    intro j hj
    by_cases hji : j = i
    · subst hji
      rw [setWorker_self] at hj
      exact htest hj
    · rw [setWorker_of_ne s hji] at hj
      intro k hk
      have hk' := hi.barrier j hj k hk
      by_cases hki : k = i
      · subst hki
        rw [setWorker_self]
        exact hent hk'
      · rw [setWorker_of_ne s hki]
        exact hk'

/-- Main, when it moves on without a new worker, keeps the invariant. -/
theorem inv_setMain {s : Watch} (hi : Inv cfg s) {m : MainPc} (hbound : m.Bounded cfg)
    (hcreated : s.main.created cfg ≤ m.created cfg) : Inv cfg { s with main := m } where
  bound := hbound
  absent := fun i h => hi.absent i (Nat.le_trans hcreated h)
  barrier := hi.barrier

/-- A new worker is one that was absent. -/
theorem inv_fork {s : Watch} (hi : Inv cfg s) {m : MainPc} (hbound : m.Bounded cfg)
    (hlt : s.main.created cfg < cfg.workers) (hm : m.created cfg = s.main.created cfg + 1) :
    Inv cfg ({ s with main := m }.setWorker (s.main.created cfg) .ready) where
  bound := hbound
  absent := by
    intro j hj
    have hj' : s.main.created cfg + 1 ≤ j := hm ▸ hj
    rw [setWorker_of_ne _ (Nat.ne_of_gt hj')]
    exact hi.absent j (Nat.le_of_succ_le hj')
  barrier := by
    -- The new worker has not come to the barrier, so nobody has left it.
    intro j hj
    exfalso
    have hji : j ≠ s.main.created cfg := by
      rintro rfl
      rw [setWorker_self] at hj
      cases hj
    rw [setWorker_of_ne _ hji] at hj
    have hent := hi.barrier j hj _ hlt
    rw [hi.absent _ (Nat.le_refl _)] at hent
    cases hent

theorem inv_step (hw : WorkersSettled cfg) {s s' : Watch} (hi : Inv cfg s) (h : Step cfg s s') :
    Inv cfg s' := by
  have hsum : cfg.straightFirst + cfg.workerReverseFirstCount.toNat = cfg.workers := hw.sum
  have hle : cfg.straightFirst ≤ cfg.workers := hsum ▸ Nat.le_add_right ..
  have hb := hi.bound
  cases h with
  | @forkStraight i h hlt =>
      have hc : s.main.created cfg = i := by rw [h, MainPc.created]
      subst hc
      exact inv_fork hi hlt (Nat.lt_of_lt_of_le hlt hle) rfl
  | straightCreated h =>
      refine inv_setMain hi ?_ ?_
      · split
        · trivial
        · exact ⟨Nat.le_refl _, hle⟩
      · rw [h]
        split
        · exact Nat.le_refl _
        · exact Nat.le_refl _
  | @forkReverse i h hlt =>
      have hc : s.main.created cfg = i := by rw [h, MainPc.created]
      rw [h] at hb
      subst hc
      exact inv_fork hi ⟨Nat.le_succ_of_le hb.1, hsum ▸ hlt⟩ (hsum ▸ hlt) rfl
  | reverseCreated h =>
      refine inv_setMain hi ?_ ?_
      · split
        · trivial
        · split <;> trivial
      · rw [h, MainPc.created, hsum]
        split
        · exact Nat.le_refl _
        · split <;> exact Nat.le_refl _
  | visitSet h hf =>
      refine inv_setMain hi trivial (Nat.le_of_eq ?_)
      rw [h]
      rfl
  | visitClear h hf =>
      refine inv_setMain hi trivial (Nat.le_of_eq ?_)
      rw [h]
      rfl
  | @again stage count h =>
      refine inv_setMain hi trivial (Nat.le_of_eq ?_)
      rw [h]
      rfl
  | @found stage rest h =>
      refine inv_setMain hi ?_ ?_
      · cases stage <;> trivial
      · rw [h]
        cases stage <;> exact Nat.le_refl _
  | talkInit h =>
      exact inv_setWorker hi (by simp [h]) (by simp [h, TaskPc.entered]) (fun h' => by cases h')
  | enter h => exact inv_setWorker hi (by simp [h]) (fun _ => rfl) (fun h' => by cases h')
  | @leave i count h hinit hall =>
      refine inv_setWorker hi (by simp [h]) (fun _ => rfl) (fun _ => ?_)
      have hlt : i < cfg.workers := by
        by_contra hge
        have habs := hi.absent i (Nat.le_trans (hi.created_le hw) (Nat.le_of_not_lt hge))
        rw [h] at habs
        cases habs
      rw [workerInit_initBarrier hw hlt] at hinit
      cases hinit
      exact entered_setWorker rfl (entered_of_enteredAt hall)
  | @talkDestroy i h =>
      refine inv_setWorker hi (by simp [h]) (fun _ => rfl) (fun _ => ?_)
      exact entered_setWorker rfl (hi.barrier i (by simp [h, TaskPc.tested]))
  | @exit i h =>
      refine inv_setWorker hi (by simp [h]) (fun _ => rfl) (fun _ => ?_)
      exact entered_setWorker rfl (hi.barrier i (by simp [h, TaskPc.tested]))

theorem inv_reachable (hw : WorkersSettled cfg) {s : Watch} (h : Reachable cfg s) :
    Inv cfg s := by
  induction h with
  | refl => exact inv_init
  | tail _ hstep ih => exact inv_step hw ih hstep

/-- No worker leaves the barrier before main has created all of them. -/
theorem created_of_tested {s : Watch} (hi : Inv cfg s) {i : Nat} (ht : (s.worker i).tested = true) :
    cfg.workers ≤ s.main.created cfg := by
  by_contra hlt
  have hlt := Nat.lt_of_not_le hlt
  have hent := hi.barrier i ht _ hlt
  rw [hi.absent _ (Nat.le_refl _)] at hent
  cases hent

/-! ### Runs in which no flag is missed -/

/-- Main has left its last wait for RUNNING once it has all its workers and does not watch
any more. -/
theorem past_of_not_watching (hw : WorkersSettled cfg) {s : Watch} (hi : Inv cfg s)
    (hall : cfg.workers ≤ s.main.created cfg) (hnot : ¬ s.Watching cfg) : s.Past cfg := by
  have hle := hi.created_le hw
  have hb := hi.bound
  have hfirst : cfg.straightFirst ≤ cfg.workers :=
    Nat.le_trans (Nat.le_add_right ..) (Nat.le_of_eq hw.sum)
  unfold Past
  unfold Watching at hnot
  cases hm : s.main with
  | createStraight i =>
      rw [hm] at hnot hall hle
      exact hnot (Nat.le_antisymm hle hall)
  | createReverse i =>
      rw [hm] at hnot hall hle
      refine Nat.le_antisymm hfirst (Nat.le_of_not_lt fun hlt => hnot ⟨?_, hlt⟩)
      exact Nat.le_antisymm hle hall
  | wait stage rest count =>
      rw [hm] at hnot hall
      cases stage with
      | straightReady => exact hnot (Nat.le_antisymm hfirst hall)
      | straightRunning => exact hnot (Nat.le_antisymm hfirst hall)
      | reverseReady => exact hnot trivial
      | reverseRunning => exact hnot trivial
      | joinable => trivial
  | report => trivial

/-- Main does not come back to a wait for RUNNING. -/
theorem past_step (hw : WorkersSettled cfg) {s s' : Watch} (hp : s.Past cfg) (h : Step cfg s s') :
    s'.Past cfg := by
  have hsum : cfg.straightFirst + cfg.workerReverseFirstCount.toNat = cfg.workers := hw.sum
  unfold Past at hp ⊢
  cases h with
  | forkStraight h hlt =>
      rw [h] at hp
      exact hp.elim
  | straightCreated h =>
      rw [h] at hp
      exact hp.elim
  | forkReverse h hlt =>
      rw [h] at hp
      exact hp
  | reverseCreated h =>
      rw [h] at hp
      have hno : ¬ cfg.straightFirst < cfg.straightFirst + cfg.workerReverseFirstCount.toNat := by
        rw [hsum, hp]
        exact Nat.lt_irrefl _
      by_cases hpos : 0 < cfg.straightFirst + cfg.workerReverseFirstCount.toNat
      · simp only [if_neg hno, if_pos hpos]
        trivial
      · simp only [if_neg hno, if_neg hpos]
  | @visitSet stage i rest count h hf =>
      rw [h] at hp
      cases stage <;> exact hp
  | @visitClear stage i rest count h hf =>
      rw [h] at hp
      cases stage <;> exact hp
  | @again stage count h =>
      rw [h] at hp
      cases stage <;> exact hp
  | @found stage rest h =>
      rw [h] at hp
      cases stage <;> first | exact hp.elim | trivial
  | talkInit h => exact hp
  | enter h => exact hp
  | leave h hinit hall => exact hp
  | talkDestroy h => exact hp
  | exit h => exact hp

theorem cleared_setWorker {s : Watch} {i j : Nat} {p : TaskPc}
    (hc : ((s.setWorker j p).worker i).cleared = true) :
    (s.worker i).cleared = true ∨ i = j ∧ p.cleared = true := by
  by_cases hij : i = j
  · subst hij
    rw [setWorker_self] at hc
    exact .inr ⟨rfl, hc⟩
  · rw [setWorker_of_ne s hij] at hc
    exact .inl hc

/-- A step that leaves a worker without RUNNING for good found it so, or it is the
`talk_destroy()` of the worker. -/
theorem cleared_step {s s' : Watch} (h : Step cfg s s') {i : Nat}
    (hc : (s'.worker i).cleared = true) :
    (s.worker i).cleared = true ∨
      s.worker i = .testing ∧ (s'.worker i).hasFlag .running = false := by
  cases h with
  | straightCreated _ | reverseCreated _ | visitSet _ _ | visitClear _ _ | again _ | found _ =>
      exact .inl hc
  | talkDestroy h =>
      rcases cleared_setWorker hc with hc | ⟨rfl, -⟩
      · exact .inl hc
      · refine .inr ⟨h, ?_⟩
        rw [setWorker_self]
        rfl
  | exit h =>
      rcases cleared_setWorker hc with hc | ⟨rfl, -⟩
      · exact .inl hc
      · rw [h]
        exact .inl rfl
  | forkStraight _ _ | forkReverse _ _ | talkInit _ | enter _ | leave _ _ _ =>
      rcases cleared_setWorker hc with hc | ⟨rfl, hp⟩
      · exact .inl hc
      · cases hp

theorem timely_reachable {s : Watch} (h : Relation.ReflTransGen (Timely cfg) init s) :
    Reachable cfg s :=
  Relation.ReflTransGen.mono (fun _ _ ht => ht.1) _ _ h

theorem timely_past (hw : WorkersSettled cfg) {s : Watch}
    (h : Relation.ReflTransGen (Timely cfg) init s) {i : Nat} (hlt : i < cfg.workers)
    (hc : (s.worker i).cleared = true) : s.Past cfg := by
  induction h with
  | refl => cases hc
  | @tail s s' hrun hstep ih =>
      obtain ⟨hstep, htimely⟩ := hstep
      refine past_step hw ?_ hstep
      rcases cleared_step hstep hc with hc | ⟨ht, hclear⟩
      · exact ih hc
      · have hi := inv_reachable hw (timely_reachable hrun)
        have hall := created_of_tested hi (i := i) (by rw [ht]; rfl)
        exact past_of_not_watching hw hi hall (htimely i hlt (by rw [ht]; rfl) hclear)

/-! ### A flag that is missed -/

/-- The last wait is for all workers. -/
theorem required_of_created (hw : WorkersSettled cfg) {stage : WaitStage}
    (hlast : stage.created cfg = cfg.workers) : stage.required cfg = cfg.workers := by
  have hstraight : cfg.straightFirst = cfg.workers → cfg.asynchronous = false := by
    intro hS
    by_contra ha
    obtain ⟨-, -, hhalf⟩ := hw.async (eq_true_of_ne_false ha)
    have hsum : cfg.straightFirst + cfg.workerReverseFirstCount.toNat = cfg.workers := hw.sum
    have hpos : 0 < cfg.workers := hw.pos
    rw [← hhalf] at hsum
    change cfg.straightFirst + cfg.straightFirst = cfg.workers at hsum
    omega
  cases stage with
  | straightReady | straightRunning => simp [WaitStage.required, hstraight hlast]
  | reverseReady | reverseRunning | joinable => rfl

/-- In the wait, with fewer workers left to count than main needs. -/
def Stuck (cfg : Config) (stage : WaitStage) (s : Watch) : Prop :=
  ∃ rest count, s.main = .wait stage rest count ∧
    rest.countP (fun i => !(s.worker i).cleared) < count ∧
    ∃ i < cfg.workers, (s.worker i).cleared = true

theorem stuck_start (hw : WorkersSettled cfg) {stage : WaitStage}
    (hlast : stage.created cfg = cfg.workers) {s : Watch} (hstart : s.main = stage.start cfg)
    (hc : ∃ i < cfg.workers, (s.worker i).cleared = true) : Stuck cfg stage s := by
  refine ⟨_, _, hstart, ?_, hc⟩
  obtain ⟨i, hi, hc⟩ := hc
  rw [required_of_created hw hlast, WaitStage.children, hlast]
  calc (List.range cfg.workers).reverse.countP (fun i => !(s.worker i).cleared)
      < (List.range cfg.workers).reverse.length := by
        refine List.countP_lt_length_iff.mpr ⟨i, ?_, ?_⟩
        · simpa using hi
        · simp [hc]
    _ = cfg.workers := by simp

/-- A worker that has cleared RUNNING for good stays so. -/
theorem cleared_mono {s : Watch} {i j : Nat} {p : TaskPc}
    (hp : (s.worker j).cleared = true → p.cleared = true) (hc : (s.worker i).cleared = true) :
    ((s.setWorker j p).worker i).cleared = true := by
  by_cases hij : i = j
  · subst hij
    rw [setWorker_self]
    exact hp hc
  · rw [setWorker_of_ne s hij]
    exact hc

theorem stuck_setWorker {stage : WaitStage} {s : Watch} (hs : Stuck cfg stage s) {j : Nat}
    {p : TaskPc} (hp : (s.worker j).cleared = true → p.cleared = true) :
    Stuck cfg stage (s.setWorker j p) := by
  obtain ⟨rest, count, hmain, hlt, i, hi, hc⟩ := hs
  refine ⟨rest, count, hmain, Nat.lt_of_le_of_lt (List.countP_mono_left ?_) hlt, i, hi,
    cleared_mono hp hc⟩
  intro k _ hk
  rw [Bool.not_eq_true'] at hk ⊢
  by_contra hck
  exact absurd (hk.symm.trans (cleared_mono hp (eq_true_of_ne_false hck))) (by decide)

theorem stuck_step (hw : WorkersSettled cfg) {stage : WaitStage}
    (hlast : stage.created cfg = cfg.workers) (hflag : stage.flag = .running) {s s' : Watch}
    (hs : Stuck cfg stage s) (h : Step cfg s s') : Stuck cfg stage s' := by
  obtain ⟨rest, count, hmain, hlt, hc⟩ := id hs
  cases h with
  | forkStraight h _ | straightCreated h | forkReverse h _ | reverseCreated h =>
      rw [hmain] at h
      cases h
  | visitSet h hf =>
      rw [hmain] at h
      cases h
      rename_i i rest count
      -- A worker that is counted has not cleared RUNNING.
      have hno : (s.worker i).cleared = false := by
        rw [hflag] at hf
        cases hi : s.worker i <;> rw [hi] at hf <;> first | rfl | cases hf
      rw [List.countP_cons_of_pos (by simp [hno])] at hlt
      exact ⟨rest, count, rfl, Nat.lt_of_succ_lt_succ hlt, hc⟩
  | visitClear h _ =>
      rw [hmain] at h
      cases h
      exact ⟨_, _, rfl, Nat.lt_of_le_of_lt ((List.sublist_cons_self ..).countP_le) hlt, hc⟩
  | again h =>
      rw [hmain] at h
      cases h
      exact stuck_start hw hlast rfl hc
  | found h =>
      rw [hmain] at h
      cases h
      exact absurd hlt (Nat.not_lt_zero _)
  | talkInit h => exact stuck_setWorker hs (by simp [h, TaskPc.cleared])
  | enter h => exact stuck_setWorker hs (by simp [h, TaskPc.cleared])
  | leave h _ _ => exact stuck_setWorker hs (by simp [h, TaskPc.cleared])
  | talkDestroy h => exact stuck_setWorker hs (fun _ => rfl)
  | exit h => exact stuck_setWorker hs (fun _ => rfl)

/-- From a walk that begins when a worker has cleared RUNNING for good, main never gets out of
its wait. -/
theorem missed_forever (hw : WorkersSettled cfg) {stage : WaitStage}
    (hlast : stage.created cfg = cfg.workers) (hflag : stage.flag = .running) {s s' : Watch}
    (hstart : s.main = stage.start cfg) (hc : ∃ i < cfg.workers, (s.worker i).cleared = true)
    (h : Relation.ReflTransGen (Step cfg) s s') : Stuck cfg stage s' := by
  induction h with
  | refl => exact stuck_start hw hlast hstart hc
  | tail _ hstep ih => exact stuck_step hw hlast hflag ih hstep

/-! ### A run in which the only worker is missed -/

/-- A process with one worker. -/
def single (main : MainPc) (p : TaskPc) : Watch where
  main := main
  worker := fun i => if i = 0 then p else .absent

theorem single_setWorker (main : MainPc) (p q : TaskPc) :
    (single main p).setWorker 0 q = single main q := by
  unfold setWorker single
  congr 1
  funext i
  by_cases hi : i = 0
  · subst hi
    simp
  · simp [hi]

/-- The configuration of `ubwt connector 10.0.0.1`, as far as `runtime_do()` goes. -/
structure Alone (cfg : Config) : Prop where
  workers : cfg.workers = 1
  straightFirst : cfg.straightFirst = 1
  asynchronous : cfg.asynchronous = false
  barrier : workerInit cfg (initBarrier cfg 0) = some 1

theorem Alone.start (h : Alone cfg) (stage : WaitStage) : stage.start cfg = .wait stage [0] 1 := by
  cases stage <;>
    simp [WaitStage.start, WaitStage.children, WaitStage.created, WaitStage.required, h.workers,
      h.straightFirst, h.asynchronous]

/-- A step in which the worker keeps RUNNING is timely. -/
theorem timely_single {m m' : MainPc} {p q : TaskPc} (h : Step cfg (single m p) (single m' q))
    (hkeep : p.hasFlag .running = true → q.hasFlag .running = true) :
    Timely cfg (single m p) (single m' q) := by
  refine ⟨h, fun i _ hset hclear => ?_⟩
  by_cases hi : i = 0
  · subst hi
    exact absurd ((hkeep hset).symm.trans hclear) (by decide)
  · simp [single, hi, TaskPc.hasFlag] at hset

theorem timely_main {m m' : MainPc} {p : TaskPc} (h : Step cfg (single m p) (single m' p)) :
    Timely cfg (single m p) (single m' p) :=
  timely_single h id

theorem step_worker {m : MainPc} {p q : TaskPc}
    (h : Step cfg (single m p) ((single m p).setWorker 0 q)) :
    Step cfg (single m p) (single m q) :=
  single_setWorker m p q ▸ h

/-- Main creates the worker, sees that it is READY and begins to wait for RUNNING. -/
theorem Alone.run_created (h : Alone cfg) :
    Relation.ReflTransGen (Timely cfg) init (single (.wait .straightRunning [0] 1) .ready) := by
  have hinit : init = single (.createStraight 0) .absent := by
    simp [init, single]
  have hfork : Step cfg (single (.createStraight 0) .absent) (single (.createStraight 1) .ready) :=
    single_setWorker (.createStraight 1) .absent .ready ▸
      .forkStraight (s := single (.createStraight 0) .absent) rfl (h.straightFirst ▸ Nat.one_pos)
  have hcreated : Step cfg (single (.createStraight 1) .ready)
      (single (.wait .straightReady [0] 1) .ready) := by
    have hstep := Step.straightCreated (s := single (.createStraight 1) .ready)
      (by rw [h.straightFirst]; rfl)
    rw [if_pos (h.straightFirst ▸ Nat.one_pos), h.start] at hstep
    exact hstep
  have hfound : Step cfg (single (.wait .straightReady [] 0) .ready)
      (single (.wait .straightRunning [0] 1) .ready) := by
    have hstep : Step cfg (single (.wait .straightReady [] 0) .ready) _ := .found rfl
    rw [WaitStage.next, h.start] at hstep
    exact hstep
  rw [hinit]
  exact .tail (.tail (.tail (.single (timely_single hfork (fun hf => by cases hf)))
    (timely_main hcreated)) (timely_main (.visitSet rfl rfl))) (timely_main hfound)

/-- The worker runs its test. -/
theorem Alone.run_tested (h : Alone cfg) (m : MainPc) :
    Relation.ReflTransGen (Timely cfg) (single m .running) (single m .testing) := by
  have henter : Step cfg (single m .running) (single m .waiting) := step_worker (.enter rfl)
  have hleave : Step cfg (single m .waiting) (single m .testing) := by
    refine step_worker (.leave rfl h.barrier ?_)
    rw [enteredAt, h.workers]
    simp [single, TaskPc.entered]
  exact .tail (.single (timely_single henter fun _ => rfl)) (timely_single hleave fun _ => rfl)

theorem timely_running {m : MainPc} : Timely cfg (single m .ready) (single m .running) :=
  timely_single (step_worker (.talkInit rfl)) (fun hf => by cases hf)

theorem Alone.of_config (hw : cfg.workerCount = 1) (hs : cfg.workerStraightFirstCount = 1)
    (ha : cfg.asynchronous = false) : Alone cfg where
  workers := by rw [Config.workers, hw]; rfl
  straightFirst := by rw [Config.straightFirst, hs]; rfl
  asynchronous := ha
  barrier := by simp [initBarrier, syncBarrier, ha, Config.straightFirst, hs,
    workerInit, dirBarrierInit]

/-- The worker ends while main has not looked at it. -/
theorem Alone.run_missed (h : Alone cfg) :
    ∃ s, Reachable cfg s ∧ Missed cfg s := by
  have hrun := (h.run_created.tail timely_running).trans (h.run_tested _)
  refine ⟨single (.wait .straightRunning [0] 1) .ended,
    .tail (timely_reachable hrun) (step_worker (.talkDestroy rfl)), ?_⟩
  refine ⟨.straightRunning, [0], 1, rfl, rfl, ?_, 0, h.workers ▸ Nat.one_pos, rfl⟩
  simp [runningCount, WaitStage.required, h.workers, h.asynchronous, single, TaskPc.hasFlag]

/-- Main sees the worker before it ends. -/
theorem Alone.run_seen (h : Alone cfg) :
    Relation.ReflTransGen (Timely cfg) init (single (.createReverse 1) .ended) := by
  have hfound : Step cfg (single (.wait .straightRunning [] 0) .running)
      (single (.createReverse 1) .running) := by
    have hstep : Step cfg (single (.wait .straightRunning [] 0) .running) _ := .found rfl
    rw [WaitStage.next, h.straightFirst] at hstep
    exact hstep
  have hrun := (((h.run_created.tail timely_running).tail (timely_main (.visitSet rfl rfl))).tail
    (timely_main hfound)).trans (h.run_tested _)
  refine hrun.tail ⟨step_worker (.talkDestroy rfl), fun _ _ _ _ hwatch => ?_⟩
  have hlt : cfg.straightFirst < cfg.workers := hwatch.2
  rw [h.straightFirst, h.workers] at hlt
  exact absurd hlt (Nat.lt_irrefl 1)

end Watch

open Watch in
/-- **No flag is missed in time**: in a run in which no worker clears RUNNING between the
creation of the last worker and the end of main's last wait for RUNNING, main never waits for
RUNNING of a worker that has cleared it for good. -/
theorem timely_not_missed {env : Env} {args : List CString} {cfg : Config}
    (hcfg : configInit env args = .ok cfg) {s : Watch}
    (hrun : Relation.ReflTransGen (Timely cfg) init s) : ¬ Missed cfg s := by
  rintro ⟨stage, rest, count, hmain, hflag, -, i, hlt, hc⟩
  have hp := timely_past (configInit_settled hcfg) hrun hlt hc
  unfold Past at hp
  rw [hmain] at hp
  cases stage with
  | joinable => cases hflag
  | _ => exact hp

/-- `ubwt connector 10.0.0.1`, with a main that looks in time. -/
theorem timely_not_missed_single :
    ∃ cfg, configInit ⟨false, false, fun _ _ => true⟩ ["connector".toList, "10.0.0.1".toList]
        = .ok cfg ∧
      Relation.ReflTransGen (Watch.Timely cfg) Watch.init (Watch.single (.createReverse 1) .ended) ∧
      ¬ Watch.Missed cfg (Watch.single (.createReverse 1) .ended) := by
  obtain ⟨cfg, hcfg, hw, hs, ha⟩ : ∃ cfg, configInit ⟨false, false, fun _ _ => true⟩
        ["connector".toList, "10.0.0.1".toList] = .ok cfg ∧ cfg.workerCount = 1 ∧
      cfg.workerStraightFirstCount = 1 ∧ cfg.asynchronous = false := ⟨_, rfl, rfl, rfl, rfl⟩
  have hrun := (Watch.Alone.of_config hw hs ha).run_seen
  exact ⟨cfg, hcfg, hrun, timely_not_missed hcfg hrun⟩

/-- `ubwt connector 10.0.0.1`, with a main that looks too late: its only worker is done. -/
theorem missed_single_worker :
    ∃ cfg, configInit ⟨false, false, fun _ _ => true⟩ ["connector".toList, "10.0.0.1".toList]
        = .ok cfg ∧
      ¬ ∀ s, Watch.Reachable cfg s → ¬ Watch.Missed cfg s := by
  obtain ⟨cfg, hcfg, hw, hs, ha⟩ : ∃ cfg, configInit ⟨false, false, fun _ _ => true⟩
        ["connector".toList, "10.0.0.1".toList] = .ok cfg ∧ cfg.workerCount = 1 ∧
      cfg.workerStraightFirstCount = 1 ∧ cfg.asynchronous = false := ⟨_, rfl, rfl, rfl, rfl⟩
  obtain ⟨s, hreach, hmissed⟩ := (Watch.Alone.of_config hw hs ha).run_missed
  exact ⟨cfg, hcfg, fun hall => hall s hreach hmissed⟩

end Ubwt
