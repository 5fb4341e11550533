import Ubwt.Runtime.Flags
import Ubwt.Runtime.Threads

/-!
# Ubwt.Runtime.Joins

The records of the workers over the whole of `runtime_do`: each worker forks its record, sets and
clears its flags and exits, main looks at the flags, and at the end joins all its workers.

In every order of the steps **the flags in the list are those of the workers, and no operation on
the list ends the program**; and when main has come out of its last wait, every join returns, and
the head is the only record left (`runtime_joins`).
-/

namespace Ubwt

open Lib Lib.LinkedList Lib.Posix

variable {A D : Type} {cfg : Config}

/-! ### What a worker does to its record -/

/-- `worker_flags` after `current_fork()`. -/
def readyFlags : UInt32 := bitSet (bitSet 0 WorkerFlags.typeChild.bit) WorkerFlags.taskReady.bit

/-- `worker_flags` of a worker, while it has a record. -/
def TaskPc.flags : TaskPc → UInt32
  | absent => 0
  | ready => readyFlags
  | running | waiting | testing => bitSet readyFlags WorkerFlags.taskRunning.bit
  | ended => bitClear (bitSet readyFlags WorkerFlags.taskRunning.bit) WorkerFlags.taskRunning.bit
  | joinable => bitSet readyFlags WorkerFlags.taskJoinable.bit

/-- The record of a worker. -/
def TaskPc.record (workerSelf : UInt64) (data : D) : TaskPc → Option (Current D)
  | absent => none
  | p => some ⟨workerSelf, p.flags, data⟩

/-- Where a worker goes from a place. -/
def TaskPc.next : TaskPc → Option TaskPc
  | absent => some ready
  | ready => some running
  | running => some waiting
  | waiting => some testing
  | testing => some ended
  | ended => some joinable
  | joinable => none

/-- The system calls of `current_fork()` succeed. -/
def forkCalls (cfg : Config) : ForkCalls :=
  if cfg.imConnector then .connector true true else .listener

/-- What a worker does to its record on the way from one place to another. -/
def TaskPc.ops (workerSelf : UInt64) (data : D) (calls : ForkCalls) :
    TaskPc → TaskPc → List (CurrentOp D)
  | absent, ready => [.fork workerSelf data calls]
  | ready, running => [.runningSet workerSelf]
  | testing, ended => [.runningUnset workerSelf]
  | ended, joinable => [.exit workerSelf]
  | _, _ => []

/-- The bit of a flag that main waits for. -/
def WorkerFlag.bit : WorkerFlag → Nat
  | ready => WorkerFlags.taskReady.bit
  | running => WorkerFlags.taskRunning.bit
  | joinable => WorkerFlags.taskJoinable.bit

/-- The bits of a record are the flags of its worker. -/
theorem TaskPc.bitTest_flags (p : TaskPc) (flag : WorkerFlag) :
    bitTest p.flags flag.bit = p.hasFlag flag := by
  cases p <;> cases flag <;> decide

@[simp] theorem TaskPc.ops_self (workerSelf : UInt64) (data : D) (calls : ForkCalls) (p : TaskPc) :
    TaskPc.ops workerSelf data calls p p = [] := by
  cases p <;> rfl

theorem TaskPc.record_eq_some {workerSelf : UInt64} {data : D} {p : TaskPc}
    {record : Current D} (h : p.record workerSelf data = some record) :
    p ≠ .absent ∧ record = ⟨workerSelf, p.flags, data⟩ := by
  cases p <;> cases h <;> exact ⟨by simp, rfl⟩

/-! ### The operations of a run -/

/-- The threads of a process: the ids, which differ, and what the records hold beside the
flags. -/
structure ThreadIds (cfg : Config) (D : Type) where
  main : UInt64
  mainData : D
  worker : Nat → UInt64
  data : Nat → D
  apart : ∀ i < cfg.workers, worker i ≠ main
  distinct : ∀ i < cfg.workers, ∀ j < cfg.workers, worker i = worker j → i = j

namespace Watch

variable (ids : ThreadIds cfg D)

/-- What the workers do to their records in a step. -/
def ops (s s' : Watch) : List (CurrentOp D) :=
  (List.range cfg.workers).flatMap fun i =>
    TaskPc.ops (ids.worker i) (ids.data i) (forkCalls cfg) (s.worker i) (s'.worker i)

/-- The operations on the list in a run up to a state. -/
inductive Performed : List (CurrentOp D) → Watch → Prop
  | init : Performed [] Watch.init
  | step {ops s s'} (h : Performed ops s) (hs : Step cfg s s') :
      Performed (ops ++ Watch.ops ids s s') s'

/-- The joins at the end of `runtime_do()`. -/
def joins : List (CurrentOp D) :=
  (List.range cfg.workers).map fun i => .join ids.main (ids.worker i)

/-- The map has the records of the threads, and no others. -/
structure Tracks (m : Threads D) (s : Watch) : Prop where
  main : m ids.main = some ⟨ids.main, 0, ids.mainData⟩
  worker : ∀ i < cfg.workers,
    m (ids.worker i) = (s.worker i).record (ids.worker i) (ids.data i)
  only : ∀ id, id ≠ ids.main → (∀ i < cfg.workers, id ≠ ids.worker i) → m id = none

variable {ids} {m : Threads D} {s s' : Watch}

theorem performed_reachable {ops : List (CurrentOp D)} (h : Performed ids ops s) :
    Reachable cfg s := by
  induction h with
  | init => exact .refl
  | step _ hs ih => exact ih.tail hs

theorem exists_performed (ids : ThreadIds cfg D) (h : Reachable cfg s) :
    ∃ ops, Performed ids ops s := by
  induction h with
  | refl => exact ⟨[], .init⟩
  | tail _ hs ih =>
      obtain ⟨ops, hops⟩ := ih
      exact ⟨_, hops.step hs⟩

/-! ### One step -/

/-- A step moves at most one worker, to its next place. -/
theorem worker_step (hw : WorkersSettled cfg) (hi : Inv cfg s) (h : Step cfg s s') :
    s'.worker = s.worker ∨ ∃ i < cfg.workers, ∃ p, (s.worker i).next = some p
      ∧ s'.worker = Function.update s.worker i p := by
  have hlt : ∀ i, s.worker i ≠ .absent → i < cfg.workers := by
    intro i hne
    by_contra hge
    exact hne (hi.absent i (Nat.le_trans (hi.created_le hw) (Nat.le_of_not_lt hge)))
  have hfirst : cfg.straightFirst ≤ cfg.workers :=
    Nat.le_trans (Nat.le_add_right ..) (Nat.le_of_eq hw.sum)
  have habsent : ∀ i, s.main.created cfg = i → s.worker i = .absent :=
    fun i hc => hi.absent i (Nat.le_of_eq hc)
  cases h with
  | @forkStraight i h hlt =>
      have hi := habsent i (by rw [h, MainPc.created])
      exact .inr ⟨i, Nat.lt_of_lt_of_le hlt hfirst, .ready, by rw [hi]; rfl, rfl⟩
  | @forkReverse i h hlt =>
      have hi := habsent i (by rw [h, MainPc.created])
      exact .inr ⟨i, Nat.lt_of_lt_of_eq hlt hw.sum, .ready, by rw [hi]; rfl, rfl⟩
  | straightCreated _ | reverseCreated _ | visitSet _ _ | visitClear _ _ | again _ | found _ =>
      exact .inl rfl
  | @talkInit i h => exact .inr ⟨i, hlt i (by simp [h]), .running, by rw [h]; rfl, rfl⟩
  | @enter i h => exact .inr ⟨i, hlt i (by simp [h]), .waiting, by rw [h]; rfl, rfl⟩
  | @leave i count h _ _ => exact .inr ⟨i, hlt i (by simp [h]), .testing, by rw [h]; rfl, rfl⟩
  | @talkDestroy i h => exact .inr ⟨i, hlt i (by simp [h]), .ended, by rw [h]; rfl, rfl⟩
  | @exit i h => exact .inr ⟨i, hlt i (by simp [h]), .joinable, by rw [h]; rfl, rfl⟩

theorem flatMap_range_single {α : Type} {f : Nat → List α} {i : Nat} {n : Nat} (hi : i < n)
    (h : ∀ j ≠ i, f j = []) : (List.range n).flatMap f = f i := by
  induction n with
  | zero => cases hi
  | succ n ih =>
      rw [List.range_succ, List.flatMap_append, List.flatMap_singleton]
      by_cases hin : i = n
      · subst hin
        have hnil : (List.range i).flatMap f = [] :=
          List.flatMap_eq_nil_iff.mpr fun j hj => h j (Nat.ne_of_lt (List.mem_range.mp hj))
        rw [hnil, List.nil_append]
      · rw [ih (by omega), h n (Ne.symm hin), List.append_nil]

/-- The operations of a step are those of the worker that it moves. -/
theorem ops_update {i : Nat} (hi : i < cfg.workers) {p : TaskPc}
    (hs' : s'.worker = Function.update s.worker i p) :
    ops ids s s' = TaskPc.ops (ids.worker i) (ids.data i) (forkCalls cfg) (s.worker i) p := by
  rw [ops, hs', flatMap_range_single hi]
  · rw [Function.update_self]
  · intro j hj
    rw [Function.update_of_ne hj, TaskPc.ops_self]

theorem ops_same (hs' : s'.worker = s.worker) : ops ids s s' = [] := by
  rw [ops, hs']
  exact List.flatMap_eq_nil_iff.mpr fun _ _ => TaskPc.ops_self ..

/-- What a worker does to its record on the way to its next place. -/
theorem run_ops {main workerSelf : UInt64} {data : D} {p q : TaskPc}
    (hm : m workerSelf = q.record workerSelf data) (hnext : q.next = some p) (k : Nat) :
    Threads.run main (fun _ => true) k (TaskPc.ops workerSelf data (forkCalls cfg) q p) m
      = .ok (Function.update m workerSelf (p.record workerSelf data)) := by
  -- Where nothing is done, the record is the same.
  have hsame : q.record workerSelf data = p.record workerSelf data →
      m = Function.update m workerSelf (p.record workerSelf data) := by
    intro heq
    rw [← heq, ← hm, Function.update_eq_self]
  cases q with
  | absent =>
      cases hnext
      unfold forkCalls
      cases cfg.imConnector <;> rfl
  | ready =>
      cases hnext
      simp only [TaskPc.ops, Threads.run, Threads.step, Threads.setFlags, hm, TaskPc.record]
      rfl
  | running =>
      cases hnext
      exact congrArg Except.ok (hsame rfl)
  | waiting =>
      cases hnext
      exact congrArg Except.ok (hsame rfl)
  | testing =>
      cases hnext
      simp only [TaskPc.ops, Threads.run, Threads.step, Threads.setFlags, hm, TaskPc.record]
      rfl
  | ended =>
      cases hnext
      simp only [TaskPc.ops, Threads.run, Threads.step, Threads.setFlags, hm, TaskPc.record]
      rfl
  | joinable => cases hnext

theorem Tracks.init (ids : ThreadIds cfg D) :
    Tracks ids (Threads.init ids.main ids.mainData) Watch.init where
  main := Function.update_self ..
  worker := fun i hi => Function.update_of_ne (ids.apart i hi) ..
  only := fun _ hne _ => Function.update_of_ne hne ..

theorem Tracks.update (ht : Tracks ids m s) {i : Nat} (hi : i < cfg.workers) {p : TaskPc}
    (hs' : s'.worker = Function.update s.worker i p) :
    Tracks ids (Function.update m (ids.worker i) (p.record (ids.worker i) (ids.data i))) s' where
  main := by
    rw [Function.update_of_ne (ids.apart i hi).symm]
    exact ht.main
  worker := by
    intro j hj
    rw [hs']
    by_cases hji : j = i
    · subst hji
      rw [Function.update_self, Function.update_self]
    · rw [Function.update_of_ne hji, Function.update_of_ne fun heq =>
        hji (ids.distinct j hj i hi heq)]
      exact ht.worker j hj
  only := by
    intro id hne hnot
    rw [Function.update_of_ne (hnot i hi)]
    exact ht.only id hne hnot

/-! ### Every run -/

theorem forksDistinct_append {main : UInt64} {ops' : List (CurrentOp D)} {ops : List (CurrentOp D)}
    {l : List UInt64} (h : ForksDistinct main l ops)
    (h' : ForksDistinct main (ops.foldl workersAfter l) ops') :
    ForksDistinct main l (ops ++ ops') := by
  induction ops generalizing l with
  | nil => exact h'
  | cons op ops ih => exact ⟨h.1, ih h.2 h'⟩

theorem forkedNotJoined_append (ops ops' : List (CurrentOp D)) :
    forkedNotJoined (ops ++ ops') = ops'.foldl workersAfter (forkedNotJoined ops) :=
  List.foldl_append

/-- What holds of the operations up to a state. -/
structure PerformedInv (ids : ThreadIds cfg D) (ops : List (CurrentOp D)) (s : Watch) : Prop where
  forks : ForksDistinct ids.main [] ops
  forked : ∀ id ∈ forkedNotJoined ops,
    ∃ i < cfg.workers, ids.worker i = id ∧ s.worker i ≠ .absent
  run : ∃ m, Threads.run ids.main (fun _ => true) 0 ops (Threads.init ids.main ids.mainData) = .ok m
    ∧ Tracks ids m s

/-- A worker forks once, since it is absent before. -/
theorem PerformedInv.forks_step {ops : List (CurrentOp D)} (hr : PerformedInv ids ops s) {i : Nat}
    (hi : i < cfg.workers) {p : TaskPc} (hnext : (s.worker i).next = some p) :
    ForksDistinct ids.main (forkedNotJoined ops)
      (TaskPc.ops (ids.worker i) (ids.data i) (forkCalls cfg) (s.worker i) p) := by
  cases hp : s.worker i with
  | absent =>
      rw [hp] at hnext
      cases hnext
      refine ⟨?_, trivial⟩
      intro id data calls heq
      cases heq
      refine ⟨ids.apart i hi, ?_⟩
      intro hmem
      obtain ⟨j, hj, hid, hne⟩ := hr.forked _ hmem
      rw [ids.distinct j hj i hi hid] at hne
      exact hne hp
  | ready | testing | ended =>
      rw [hp] at hnext
      cases hnext
      refine ⟨?_, trivial⟩
      intro id data calls heq
      cases heq
  | running | waiting =>
      rw [hp] at hnext
      cases hnext
      trivial
  | joinable =>
      rw [hp] at hnext
      cases hnext

/-- A worker that has forked stays in the list. -/
theorem PerformedInv.forked_step {ops : List (CurrentOp D)} (hr : PerformedInv ids ops s) {i : Nat}
    (hi : i < cfg.workers) {p : TaskPc} (hnext : (s.worker i).next = some p)
    (hs' : s'.worker = Function.update s.worker i p) {id : UInt64}
    (hmem : id ∈ (TaskPc.ops (ids.worker i) (ids.data i) (forkCalls cfg) (s.worker i) p).foldl
      workersAfter (forkedNotJoined ops)) :
    ∃ j < cfg.workers, ids.worker j = id ∧ s'.worker j ≠ .absent := by
  have hp : p ≠ .absent := by
    intro heq
    subst heq
    cases hq : s.worker i <;> rw [hq] at hnext <;> cases hnext
  have hmem' : id = ids.worker i ∨ id ∈ forkedNotJoined ops := by
    cases hq : s.worker i with
    | absent =>
        rw [hq] at hnext hmem
        cases hnext
        exact List.mem_cons.mp hmem
    | ready | running | waiting | testing | ended =>
        rw [hq] at hnext hmem
        cases hnext
        exact .inr hmem
    | joinable =>
        rw [hq] at hnext
        cases hnext
  rcases hmem' with rfl | hold
  · exact ⟨i, hi, rfl, by rw [hs', Function.update_self]; exact hp⟩
  · obtain ⟨j, hj, hid, hne⟩ := hr.forked id hold
    refine ⟨j, hj, hid, ?_⟩
    rw [hs']
    by_cases hji : j = i
    · rw [hji, Function.update_self]
      exact hp
    · rw [Function.update_of_ne hji]
      exact hne

theorem PerformedInv.step (hw : WorkersSettled cfg) {ops : List (CurrentOp D)}
    (hr : PerformedInv ids ops s) (hi : Inv cfg s) (hs : Step cfg s s') :
    PerformedInv ids (ops ++ Watch.ops ids s s') s' := by
  obtain ⟨m, hrun, ht⟩ := hr.run
  rcases worker_step hw hi hs with hsame | ⟨i, hlt, p, hnext, hs'⟩
  · rw [ops_same hsame, List.append_nil]
    refine ⟨hr.forks, ?_, m, hrun, ht.main, ?_, ht.only⟩
    · rw [hsame]
      exact hr.forked
    · rw [hsame]
      exact ht.worker
  · rw [ops_update hlt hs']
    refine ⟨forksDistinct_append hr.forks (hr.forks_step hlt hnext), ?_, _, ?_,
      ht.update hlt hs'⟩
    · rw [forkedNotJoined_append]
      exact fun id hmem => hr.forked_step hlt hnext hs' hmem
    · rw [Threads.run_append 0 hrun]
      exact run_ops (ht.worker i hlt) hnext _

theorem performed_inv (hw : WorkersSettled cfg) {ops : List (CurrentOp D)}
    (h : Performed ids ops s) : PerformedInv ids ops s := by
  induction h with
  | init =>
      exact ⟨trivial, fun id hmem => absurd hmem List.not_mem_nil, _, rfl, Tracks.init ids⟩
  | step hrec hs ih => exact ih.step hw (inv_reachable hw (performed_reachable hrec)) hs

/-! ### The end of the last wait -/

/-- Main has seen enough workers JOINABLE. -/
def Ending (cfg : Config) (s : Watch) : Prop :=
  match s.main with
  | .wait .joinable rest count => ∃ seen, WaitStage.joinable.children cfg = seen ++ rest
      ∧ cfg.workers ≤ count + seen.countP fun i => s.worker i = .joinable
  | .report => ∀ i < cfg.workers, s.worker i = .joinable
  | _ => True

theorem ending_start (s : Watch) :
    Ending cfg { s with main := WaitStage.joinable.start cfg } :=
  ⟨[], rfl, Nat.le_add_right ..⟩

theorem ending_of_seen {rest : List Nat}
    (h : ∃ seen, WaitStage.joinable.children cfg = seen ++ rest
      ∧ cfg.workers ≤ 0 + seen.countP fun i => s.worker i = .joinable) :
    ∀ i < cfg.workers, s.worker i = .joinable := by
  obtain ⟨seen, hsplit, hcount⟩ := h
  have hlen : seen.length + rest.length = cfg.workers := by
    rw [← List.length_append, ← hsplit, WaitStage.children, List.length_reverse, List.length_range]
    rfl
  have hle := List.countP_le_length (p := fun i => decide (s.worker i = .joinable)) (l := seen)
  have hrest : rest = [] := List.length_eq_zero_iff.mp (by omega)
  have hall : ∀ i ∈ seen, decide (s.worker i = .joinable) = true :=
    List.countP_eq_length.mp (by omega)
  intro i hi
  have hmem : i ∈ seen := by
    rw [hrest, List.append_nil] at hsplit
    rw [← hsplit, WaitStage.children, List.mem_reverse, List.mem_range]
    exact hi
  exact of_decide_eq_true (hall i hmem)

/-- A worker that is JOINABLE stays so, and main does not look away. -/
theorem ending_worker (he : Ending cfg s) (hmain : s'.main = s.main)
    (hkeep : ∀ i, s.worker i = .joinable → s'.worker i = .joinable) : Ending cfg s' := by
  unfold Ending at he ⊢
  rw [hmain]
  cases hm : s.main with
  | wait stage rest count =>
      rw [hm] at he
      cases stage with
      | joinable =>
          obtain ⟨seen, hsplit, hcount⟩ := he
          refine ⟨seen, hsplit, Nat.le_trans hcount (Nat.add_le_add_left ?_ _)⟩
          refine List.countP_mono_left fun i _ hi => ?_
          exact decide_eq_true (hkeep i (of_decide_eq_true hi))
      | _ => trivial
  | report =>
      rw [hm] at he
      exact fun i hi => hkeep i (he i hi)
  | _ => trivial

theorem ending_setWorker (he : Ending cfg s) {j : Nat} {p : TaskPc}
    (hj : s.worker j ≠ .joinable) : Ending cfg (s.setWorker j p) := by
  refine ending_worker he rfl ?_
  intro i hi
  have hne : i ≠ j := fun heq => hj (heq ▸ hi)
  rw [setWorker_of_ne s hne]
  exact hi

/-- The walk goes on behind a record. -/
theorem ending_visit {i count count' : Nat} {rest : List Nat} (hmain :
    s.main = .wait .joinable (i :: rest) (count + 1)) (he : Ending cfg s)
    (hcount : count + 1 ≤ count' + if s.worker i = .joinable then 1 else 0) :
    Ending cfg { s with main := .wait .joinable rest count' } := by
  unfold Ending at he
  rw [hmain] at he
  obtain ⟨seen, hsplit, hseen⟩ := he
  refine ⟨seen ++ [i], by rw [hsplit, List.append_assoc]; rfl, ?_⟩
  rw [List.countP_append, List.countP_singleton]
  simp only [decide_eq_true_eq]
  omega

theorem ending_step (hw : WorkersSettled cfg) (he : Ending cfg s) (hs : Step cfg s s') :
    Ending cfg s' := by
  cases hs with
  | forkStraight _ _ | forkReverse _ _ => trivial
  | straightCreated _ =>
      split
      · trivial
      · trivial
  | reverseCreated h =>
      split
      · trivial
      split
      · exact ending_start s
      · -- There are no workers at all.
        rename_i hnone
        intro i hi
        have hsum : cfg.straightFirst + cfg.workerReverseFirstCount.toNat = cfg.workers := hw.sum
        omega
  | @visitSet stage i rest count h hf =>
      cases stage with
      | joinable =>
          refine ending_visit h he ?_
          have hjoinable : s.worker i = .joinable := by
            cases hp : s.worker i <;> rw [hp] at hf <;> first | rfl | cases hf
          rw [if_pos hjoinable]
      | _ => trivial
  | @visitClear stage i rest count h hf =>
      cases stage with
      | joinable => exact ending_visit h he (Nat.le_add_right ..)
      | _ => trivial
  | @again stage count h =>
      cases stage with
      | joinable => exact ending_start s
      | _ => trivial
  | @found stage rest h =>
      cases stage with
      | reverseRunning => exact ending_start s
      | joinable =>
          unfold Ending at he
          rw [h] at he
          exact ending_of_seen he
      | _ => trivial
  | talkInit h | enter h | leave h _ _ | talkDestroy h | exit h =>
      exact ending_setWorker he (by simp [h])

theorem ending_reachable (hw : WorkersSettled cfg) (h : Reachable cfg s) : Ending cfg s := by
  induction h with
  | refl => trivial
  | tail _ hs ih => exact ending_step hw ih hs

/-! ### The joins -/

/-- Main joins workers that are JOINABLE, one after the other. -/
theorem run_joins (ids : ThreadIds cfg D) (l : List Nat) (hl : ∀ i ∈ l, i < cfg.workers)
    (hnodup : l.Nodup) (m : Threads D) (hm : ∀ i ∈ l,
      m (ids.worker i) = TaskPc.joinable.record (ids.worker i) (ids.data i)) (k : Nat) :
    ∃ m', Threads.run ids.main (fun _ => true) k
        (l.map fun i => .join ids.main (ids.worker i)) m = .ok m'
      ∧ (∀ i ∈ l, m' (ids.worker i) = none)
      ∧ ∀ id, (∀ i ∈ l, id ≠ ids.worker i) → m' id = m id := by
  induction l generalizing m k with
  | nil => exact ⟨m, rfl, fun i hi => absurd hi List.not_mem_nil, fun _ _ => rfl⟩
  | cons j l ih =>
      obtain ⟨hj, hl⟩ := List.forall_mem_cons.mp hl
      obtain ⟨hjl, hnodup⟩ := List.nodup_cons.mp hnodup
      obtain ⟨hmj, hml⟩ := List.forall_mem_cons.mp hm
      have hother : ∀ i ∈ l, ids.worker i ≠ ids.worker j := by
        intro i hi heq
        rw [ids.distinct i (hl i hi) j hj heq] at hi
        exact hjl hi
      have hstep : Threads.step ids.main true m (.join ids.main (ids.worker j))
          = .ok (Function.update m (ids.worker j) none) := by
        have hstop : Threads.joinStop ids.main ids.main
            (⟨ids.worker j, TaskPc.joinable.flags, ids.data j⟩ : Current D) = none := by
          have hmain : (ids.worker j == ids.main) = false :=
            beq_eq_false_iff_ne.mpr (ids.apart j hj)
          simp only [Threads.joinStop, hmain]
          rfl
        simp only [Threads.step, Threads.join, hmj, TaskPc.record, hstop]
      obtain ⟨m', hrun, hgone, hkept⟩ := ih hl hnodup (Function.update m (ids.worker j) none)
        (fun i hi => by rw [Function.update_of_ne (hother i hi)]; exact hml i hi) (k + 1)
      refine ⟨m', ?_, List.forall_mem_cons.mpr ⟨?_, hgone⟩, ?_⟩
      · rw [List.map_cons, Threads.run, hstep]
        exact hrun
      · rw [hkept _ fun i hi => (hother i hi).symm, Function.update_self]
      · intro id hid
        obtain ⟨hidj, hidl⟩ := List.forall_mem_cons.mp hid
        rw [hkept id hidl, Function.update_of_ne hidj]

/-! ### What main sees -/

/-- The list in a state of the process: the record of each worker that has one, none for the
others, and the counts that main waits for. -/
structure RecordsOf (fuel : Nat) (head : A) (ids : ThreadIds cfg D) (h : CurrentHeap A D)
    (s : Watch) : Prop where
  found : ∀ i < cfg.workers, ∀ record,
    (s.worker i).record (ids.worker i) (ids.data i) = some record →
    ∃ c, currentGet fuel head h (ids.worker i) = some (.ok c)
      ∧ (h c).map Node.val = some record
  absent : ∀ i < cfg.workers, s.worker i = .absent →
    currentGet fuel head h (ids.worker i) = some (.error (.assertion "c != NULL"))
  flags : ∀ (flag : WorkerFlag) (count : UInt32), 0 < count →
    currentChildrenHasFlag fuel head h flag.bit count
      = some (.ok (count.toNat ≤ (List.range cfg.workers).countP fun i =>
          (s.worker i).hasFlag flag))

/-- Main counts its workers. -/
theorem Tracks.withFlag_ncard (ht : Tracks ids m s) (flag : WorkerFlag) :
    (m.withFlag ids.main flag.bit).ncard
      = (List.range cfg.workers).countP fun i => (s.worker i).hasFlag flag := by
  have hset : m.withFlag ids.main flag.bit
      = ↑(((List.range cfg.workers).filter fun i => (s.worker i).hasFlag flag).map
          ids.worker).toFinset := by
    ext id
    simp only [Threads.withFlag, Set.mem_ofPred_eq, List.coe_toFinset, List.mem_map,
      List.mem_filter, List.mem_range]
    constructor
    · intro hid
      obtain ⟨hne, record, hrecord, hflag⟩ := hid
      by_contra hnot
      have hworker : ∃ i < cfg.workers, id = ids.worker i := by
        by_contra hnone
        rw [ht.only id hne fun i hi heq => hnone ⟨i, hi, heq⟩] at hrecord
        cases hrecord
      obtain ⟨i, hi, rfl⟩ := hworker
      rw [ht.worker i hi] at hrecord
      obtain ⟨-, rfl⟩ := TaskPc.record_eq_some hrecord
      rw [TaskPc.bitTest_flags] at hflag
      exact hnot ⟨i, ⟨hi, hflag⟩, rfl⟩
    · intro hid
      obtain ⟨i, ⟨hi, hflag⟩, rfl⟩ := hid
      refine ⟨ids.apart i hi, ⟨ids.worker i, (s.worker i).flags, ids.data i⟩, ?_, ?_⟩
      · rw [ht.worker i hi]
        cases hp : s.worker i with
        | absent =>
            rw [hp] at hflag
            cases hflag
        | _ => rfl
      · rw [TaskPc.bitTest_flags]
        exact hflag
  have hnodup : (((List.range cfg.workers).filter fun i => (s.worker i).hasFlag flag).map
      ids.worker).Nodup := by
    refine List.Nodup.map_on ?_ (List.nodup_range.filter _)
    intro i hi j hj heq
    have hi := List.mem_range.mp (List.mem_filter.mp hi).1
    have hj := List.mem_range.mp (List.mem_filter.mp hj).1
    exact ids.distinct i hi j hj heq
  rw [hset, Set.ncard_coe_finset, List.toFinset_card_of_nodup hnodup, List.length_map,
    List.countP_eq_length_filter]

theorem Tracks.recordsOf (ht : Tracks ids m s) {fuel : Nat} {head : A} {h : CurrentHeap A D}
    (hview : ThreadsView fuel head ids.main h m) : RecordsOf fuel head ids h s where
  found := by
    intro i hi record hrecord
    exact hview.found _ _ ((ht.worker i hi).trans hrecord)
  absent := by
    intro i hi habsent
    refine hview.missing _ ((ht.worker i hi).trans ?_)
    rw [habsent]
    rfl
  flags := by
    intro flag count hcount
    rw [← ht.withFlag_ncard flag]
    exact hview.flags flag.bit count hcount

/-- `ubwt connector 10.0.0.1` ends: the worker exits, main sees it and is out of its wait. -/
theorem Alone.run_report (h : Alone cfg) (hw : WorkersSettled cfg) :
    Reachable cfg (single .report .joinable) := by
  have hsum : cfg.straightFirst + cfg.workerReverseFirstCount.toNat = 1 := hw.sum.trans h.workers
  have hexit : Step cfg (single (.createReverse 1) .ended) (single (.createReverse 1) .joinable) :=
    step_worker (.exit rfl)
  have hcreated : Step cfg (single (.createReverse 1) .joinable)
      (single (.wait .joinable [0] 1) .joinable) := by
    have hstep := Step.reverseCreated (s := single (.createReverse 1) .joinable)
      (by rw [hsum]; rfl)
    rw [hsum, h.straightFirst, if_neg (Nat.lt_irrefl 1), if_pos Nat.one_pos, h.start] at hstep
    exact hstep
  have hvisit : Step cfg (single (.wait .joinable [0] 1) .joinable)
      (single (.wait .joinable [] 0) .joinable) := .visitSet rfl rfl
  have hfound : Step cfg (single (.wait .joinable [] 0) .joinable) (single .report .joinable) := by
    have hstep : Step cfg (single (.wait .joinable [] 0) .joinable) _ := .found rfl
    exact hstep
  exact .tail (.tail (.tail (.tail (timely_reachable h.run_seen) hexit) hcreated) hvisit) hfound

theorem forksDistinct_joins (ids : ThreadIds cfg D) (l : List UInt64) :
    ForksDistinct ids.main l (joins ids) := by
  unfold joins
  induction List.range cfg.workers generalizing l with
  | nil => trivial
  | cons i is ih =>
      refine ⟨?_, ih _⟩
      intro id data calls heq
      cases heq

end Watch

open Watch in
/-- **The records over a run**, in which there is memory for them and a connector gets its sockets.
In every state that the process reaches, in whatever order main and the workers step: the
operations on the list up to there have ended the program nowhere, and the list has the records and
the flags of the workers. And when main is out of its last wait, it
joins all its workers, no assertion of `current_join` fails, and no record but the head is left. -/
theorem runtime_joins {env : Env} {args : List CString} {cfg : Config}
    (hcfg : configInit env args = .ok cfg) (ids : ThreadIds cfg D) [DecidableEq A]
    (malloc : Nat → CurrentHeap A D → Option A)
    (hmalloc : ∀ k h a, malloc k h = some a → h a = none)
    (hroom : ∀ k h l, Listed h l → (malloc k h).isSome = true) (head : A) (fuel : Nat)
    {ops : List (CurrentOp D)} {s : Watch} (hrec : Performed ids ops s)
    (hfuel : ops.length + cfg.workers + 1 < fuel) :
    (∃ h, currentRun malloc fuel head 0 ops (currentInit head ids.main ids.mainData) = some (.ok h)
      ∧ RecordsOf fuel head ids h s)
    ∧ (s.main = .report → ∃ h, currentRun malloc fuel head 0 (ops ++ joins ids)
          (currentInit head ids.main ids.mainData) = some (.ok h)
        ∧ ∀ a, h a ≠ none ↔ a = head) := by
  have hw := configInit_settled hcfg
  have hi := performed_inv hw hrec
  obtain ⟨m, hrun, ht⟩ := hi.run
  constructor
  · have hfollows := currentRun_threadsView hmalloc hroom head ids.mainData hi.forks
      (show ops.length + 1 < fuel by omega)
    rw [hrun] at hfollows
    obtain ⟨h, hheap, hview⟩ := hfollows
    exact ⟨h, hheap, ht.recordsOf hview⟩
  · intro hmain
    have hjoinable : ∀ i < cfg.workers, s.worker i = .joinable := by
      have he := ending_reachable hw (performed_reachable hrec)
      unfold Ending at he
      rw [hmain] at he
      exact he
    obtain ⟨m', hjoins, hgone, hkept⟩ := run_joins ids (List.range cfg.workers)
      (fun i hi => List.mem_range.mp hi) List.nodup_range m
      (fun i hi => by
        rw [ht.worker i (List.mem_range.mp hi), hjoinable i (List.mem_range.mp hi)])
      (0 + ops.length)
    have hnone : ∀ id, id ≠ ids.main → m' id = none := by
      intro id hne
      by_cases hid : ∀ i ∈ List.range cfg.workers, id ≠ ids.worker i
      · rw [hkept id hid]
        exact ht.only id hne fun i hi => hid i (List.mem_range.mpr hi)
      · simp only [not_forall, not_not] at hid
        obtain ⟨i, hi, rfl⟩ := hid
        exact hgone i hi
    have hlen : (ops ++ joins ids).length + 1 < fuel := by
      rw [List.length_append, joins, List.length_map, List.length_range]
      exact hfuel
    have hfollows := currentRun_threadsView hmalloc hroom head ids.mainData
      (forksDistinct_append hi.forks (forksDistinct_joins ids _)) hlen
    rw [Threads.run_append 0 hrun, show Threads.run ids.main _ _ (joins ids) m = _ from hjoins]
      at hfollows
    obtain ⟨h, hheap, hview⟩ := hfollows
    refine ⟨h, hheap, fun a => ⟨fun ha => ?_, fun ha => ?_⟩⟩
    · obtain ⟨id, hget⟩ := hview.only a ha
      by_cases hid : id = ids.main
      · rw [hid, hview.start] at hget
        cases hget
        rfl
      · rw [hview.missing id (hnone id hid)] at hget
        cases hget
    · subst ha
      have hmain' : m' ids.main = some ⟨ids.main, 0, ids.mainData⟩ := by
        rw [hkept _ fun i hi => (ids.apart i (List.mem_range.mp hi)).symm]
        exact ht.main
      obtain ⟨c, hget, hval⟩ := hview.found _ _ hmain'
      rw [hview.start] at hget
      cases hget
      intro hfree
      rw [hfree] at hval
      cases hval

/-- `ubwt connector 10.0.0.1`: main joins its only worker. -/
theorem runtime_joins_single :
    ∃ cfg, configInit ⟨false, false, fun _ _ => true⟩ ["connector".toList, "10.0.0.1".toList]
        = .ok cfg ∧
      ∃ (ids : ThreadIds cfg Unit) (ops : List (CurrentOp Unit)) (fuel : Nat)
        (h : CurrentHeap Nat Unit),
        Watch.Performed ids ops (Watch.single .report .joinable) ∧
        currentRun firstFree fuel 0 0 (ops ++ Watch.joins ids)
          (currentInit 0 ids.main ids.mainData) = some (.ok h) ∧
        ∀ a, h a ≠ none ↔ a = 0 := by
  obtain ⟨cfg, hcfg, hw, hs, ha⟩ : ∃ cfg, configInit ⟨false, false, fun _ _ => true⟩
        ["connector".toList, "10.0.0.1".toList] = .ok cfg ∧ cfg.workerCount = 1 ∧
      cfg.workerStraightFirstCount = 1 ∧ cfg.asynchronous = false := ⟨_, rfl, rfl, rfl, rfl⟩
  have halone := Watch.Alone.of_config hw hs ha
  have hone : ∀ i < cfg.workers, i = 0 := by
    intro i hi
    rw [halone.workers] at hi
    omega
  refine ⟨cfg, hcfg, ⟨1, (), fun _ => 2, fun _ => (), fun _ _ => by decide,
    fun i hi j hj _ => (hone i hi).trans (hone j hj).symm⟩, ?_⟩
  obtain ⟨ops, hrec⟩ := Watch.exists_performed _ (halone.run_report (configInit_settled hcfg))
  obtain ⟨h, hrun, honly⟩ := (runtime_joins hcfg _ firstFree (fun _ _ _ => firstFree_free)
    (fun _ _ _ => firstFree_isSome) 0 (ops.length + cfg.workers + 2) hrec
    (Nat.lt_succ_self _)).2 rfl
  exact ⟨ops, _, h, hrec, hrun, honly⟩

end Ubwt
