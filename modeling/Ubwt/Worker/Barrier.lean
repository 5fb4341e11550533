import Mathlib.Logic.Function.Basic
import Mathlib.Logic.Relation

/-!
# Ubwt.Worker.Barrier

The barrier of the `UBWT_CONFIG_PTHREAD_CUSTOM_BARRIER` build (`worker.c`):
`worker_barrier_init` and `worker_barrier_wait`, run by `N` threads that each call it any
number of times. A step takes or gives back a mutex, enters or leaves the queue of a
condition variable, broadcasts, or runs the plain statements between two of these.
-/

namespace Ubwt

/-! ### worker_barrier_wait -/

/-- Where a thread is in `worker_barrier_wait()`. -/
inductive BarrierPc
  /-- Not in a call. -/
  | idle
  /-- Takes `mutex[0]`: at the start, and on the way out of the wait on `cond[0]`. -/
  | lock0
  /-- Tests `block_r`. -/
  | test0
  /-- In the queue of `cond[0]`. -/
  | wait0
  /-- Takes `mutex[1]`, holding `mutex[0]`. -/
  | lock1
  /-- `waiting ++`. -/
  | arrive
  /-- Gives `mutex[0]` back. -/
  | unlock0
  /-- Tests `waiting < count`. -/
  | test1
  /-- In the queue of `cond[1]`. -/
  | wait1
  /-- Takes `mutex[1]` on the way out of the wait on `cond[1]`. -/
  | relock1
  /-- `assert(count == waiting)`, then the test whether it is the first thread released. -/
  | check
  /-- The first thread released: takes `mutex[0]`, sets `block_r`, gives `mutex[0]` back and
  broadcasts `cond[1]`. -/
  | firstLock
  | firstSet
  | firstUnlock
  | firstBroadcast
  /-- `count --`, `waiting --`, and the test whether it is the last thread released. -/
  | leave
  /-- The last thread released: takes `mutex[0]`, clears `block_r` and resets `count`,
  broadcasts `cond[0]` and gives `mutex[0]` back. -/
  | lastLock
  | lastReset
  | lastBroadcast
  | lastUnlock
  /-- Gives `mutex[1]` back and returns `serial`. -/
  | unlock1 (serial : Bool)
  /-- The assertion failed. -/
  | failed
  deriving Repr, DecidableEq

/-- A `ubwt_worker_barrier_t`, and the threads that use it. A mutex is its owner, a
condition variable the threads that stand in its queue. -/
structure Barrier (N : Nat) where
  total : Nat
  count : Nat
  waiting : Nat
  blockR : Bool
  mutex0 : Option (Fin N)
  mutex1 : Option (Fin N)
  pc : Fin N → BarrierPc
  /-- What the finished calls of each thread returned. -/
  returns : Fin N → List Bool

variable {N : Nat}

/-- `worker_barrier_init()`, with every thread outside. -/
def workerBarrierInit (N : Nat) : Barrier N where
  total := N
  count := N
  waiting := 0
  blockR := false
  mutex0 := none
  mutex1 := none
  pc := fun _ => .idle
  returns := fun _ => []

namespace Barrier

/-- Thread `i` goes on at `p`. -/
def goto (s : Barrier N) (i : Fin N) (p : BarrierPc) : Barrier N :=
  { s with pc := Function.update s.pc i p }

/-- `pthread_cond_broadcast()` on `cond[0]`. -/
def broadcast0 (s : Barrier N) : Barrier N :=
  { s with pc := fun j => if s.pc j = .wait0 then .lock0 else s.pc j }

/-- `pthread_cond_broadcast()` on `cond[1]`. -/
def broadcast1 (s : Barrier N) : Barrier N :=
  { s with pc := fun j => if s.pc j = .wait1 then .relock1 else s.pc j }

/-- The number of calls a thread has entered. -/
def entered (s : Barrier N) (i : Fin N) : Nat :=
  (s.returns i).length + if s.pc i = .idle then 0 else 1

/-- The number of calls a thread has returned from. -/
def returned (s : Barrier N) (i : Fin N) : Nat := (s.returns i).length

/-- One step of thread `i` in `worker_barrier_wait()`, other than a spurious wake-up. -/
inductive StepOf (i : Fin N) : Barrier N → Barrier N → Prop
  | call {s} (h : s.pc i = .idle) : StepOf i s (s.goto i .lock0)
  | lock0 {s} (h : s.pc i = .lock0) (hfree : s.mutex0 = none) :
      StepOf i s { s.goto i .test0 with mutex0 := some i }
  | block {s} (h : s.pc i = .test0) (hb : s.blockR = true) :
      StepOf i s { s.goto i .wait0 with mutex0 := none }
  | pass {s} (h : s.pc i = .test0) (hb : s.blockR = false) : StepOf i s (s.goto i .lock1)
  | lock1 {s} (h : s.pc i = .lock1) (hfree : s.mutex1 = none) :
      StepOf i s { s.goto i .arrive with mutex1 := some i }
  | arrive {s} (h : s.pc i = .arrive) :
      StepOf i s { s.goto i .unlock0 with waiting := s.waiting + 1 }
  | unlock0 {s} (h : s.pc i = .unlock0) : StepOf i s { s.goto i .test1 with mutex0 := none }
  | sleep {s} (h : s.pc i = .test1) (hw : s.waiting < s.count) :
      StepOf i s { s.goto i .wait1 with mutex1 := none }
  | go {s} (h : s.pc i = .test1) (hw : ¬ s.waiting < s.count) : StepOf i s (s.goto i .check)
  | relock1 {s} (h : s.pc i = .relock1) (hfree : s.mutex1 = none) :
      StepOf i s { s.goto i .test1 with mutex1 := some i }
  | assertFails {s} (h : s.pc i = .check) (hne : s.count ≠ s.waiting) :
      StepOf i s (s.goto i .failed)
  | first {s} (h : s.pc i = .check) (heq : s.count = s.waiting) (hf : s.count = s.total) :
      StepOf i s (s.goto i .firstLock)
  | notFirst {s} (h : s.pc i = .check) (heq : s.count = s.waiting) (hf : s.count ≠ s.total) :
      StepOf i s (s.goto i .leave)
  | firstLock {s} (h : s.pc i = .firstLock) (hfree : s.mutex0 = none) :
      StepOf i s { s.goto i .firstSet with mutex0 := some i }
  | firstSet {s} (h : s.pc i = .firstSet) :
      StepOf i s { s.goto i .firstUnlock with blockR := true }
  | firstUnlock {s} (h : s.pc i = .firstUnlock) :
      StepOf i s { s.goto i .firstBroadcast with mutex0 := none }
  | firstBroadcast {s} (h : s.pc i = .firstBroadcast) :
      StepOf i s (s.broadcast1.goto i .leave)
  | leave {s} (h : s.pc i = .leave) (hl : s.count - 1 ≠ 0) :
      StepOf i s { s.goto i (.unlock1 false) with
        count := s.count - 1, waiting := s.waiting - 1 }
  | leaveLast {s} (h : s.pc i = .leave) (hl : s.count - 1 = 0) :
      StepOf i s { s.goto i .lastLock with count := s.count - 1, waiting := s.waiting - 1 }
  | lastLock {s} (h : s.pc i = .lastLock) (hfree : s.mutex0 = none) :
      StepOf i s { s.goto i .lastReset with mutex0 := some i }
  | lastReset {s} (h : s.pc i = .lastReset) :
      StepOf i s { s.goto i .lastBroadcast with blockR := false, count := s.total }
  | lastBroadcast {s} (h : s.pc i = .lastBroadcast) :
      StepOf i s (s.broadcast0.goto i .lastUnlock)
  | lastUnlock {s} (h : s.pc i = .lastUnlock) :
      StepOf i s { s.goto i (.unlock1 true) with mutex0 := none }
  | unlock1 {s serial} (h : s.pc i = .unlock1 serial) :
      StepOf i s { s.goto i .idle with
        mutex1 := none
        returns := Function.update s.returns i (s.returns i ++ [serial]) }

/-- A step of the system: a step of some thread, or a spurious wake-up. -/
inductive Step : Barrier N → Barrier N → Prop
  | thread {s s'} (i : Fin N) (h : StepOf i s s') : Step s s'
  | spurious0 {s} (i : Fin N) (h : s.pc i = .wait0) : Step s (s.goto i .lock0)
  | spurious1 {s} (i : Fin N) (h : s.pc i = .wait1) : Step s (s.goto i .relock1)

/-- The states that the threads can reach from a new barrier. -/
def Reachable (s : Barrier N) : Prop := Relation.ReflTransGen Step (workerBarrierInit N) s

end Barrier

end Ubwt
