import Ubwt.Base
import Ubwt.Lib.LinkedList

/-!
# Ubwt.Runtime.Current

The list of the threads (`current.c`): a static head for the main thread, and a record for each
worker, which `current_fork` puts behind the head and `current_join` takes out.

The model has the records in a heap, with the links as the source patches them: a walk that
follows a link to nowhere, or that does not end within its fuel, has no result. **No sequence of
operations gets there, and the list is the workers that are forked and not joined, newest
first** (`currentRun_workerList`).
-/

namespace Ubwt

open Lib Lib.LinkedList

/-! ### worker.h and current.h -/

/-- `ubwt_worker_flags_t`. -/
inductive WorkerFlags
  | typeChild
  | cancelRequested
  | cancelCompleted
  | taskReady
  | taskRunning
  | taskJoinable
  deriving Repr, DecidableEq

/-- The bit of a flag in `worker_flags`. -/
def WorkerFlags.bit : WorkerFlags → Nat
  | typeChild => 1
  | cancelRequested => 2
  | cancelCompleted => 3
  | taskReady => 4
  | taskRunning => 5
  | taskJoinable => 6

/-- `struct ubwt_current` without its links; `data` is what the functions here only copy. -/
structure Current (D : Type) where
  workerId : UInt64
  workerFlags : UInt32
  data : D
  deriving Repr, DecidableEq

/-- The system calls of `current_fork()`: a connector opens a socket and sets its time-out, and
each of the two calls succeeds or fails. -/
inductive ForkCalls
  | listener
  | connector (socket setsockopt : Bool)
  deriving Repr, DecidableEq

/-- The records in memory, by their addresses. -/
abbrev CurrentHeap (A D : Type) := Heap A (Current D)

/-- The ways in which these functions end the program. -/
inductive CurrentStop
  /-- A failed `assert()`. -/
  | assertion (expr : String)
  /-- `error_handler()` at level FATAL. -/
  | fatal (origin : String)
  /-- `error_abort()`. -/
  | abort (func : String)
  deriving Repr, DecidableEq

/-- What a function leaves, if it follows no link to nowhere: the records, or the end of the
program. -/
abbrev CurrentOutcome (A D : Type) := Except CurrentStop (CurrentHeap A D)

variable {A D : Type} [DecidableEq A]

/-! ### current.c -/

section

variable (fuel : Nat) (head : A) (h : CurrentHeap A D)

/-- `current_init()`: the static record of the main thread. -/
def currentInit (main : UInt64) (data : D) : CurrentHeap A D :=
  Function.update (fun _ => none) head (some ⟨none, none, ⟨main, 0, data⟩⟩)

/-- The loop in `current_get()` and `current_join()`. -/
def currentWalk (workerId : UInt64) : Option (Option A) :=
  find h (fun c => c.workerId == workerId) fuel (some head)

/-- `current_get()` without thread-local storage, to go on with the record. -/
def withCurrent {α : Type} (workerId : UInt64) (k : A → Option (Except CurrentStop α)) :
    Option (Except CurrentStop α) :=
  match currentWalk fuel head h workerId with
  | none => none
  | some none => some (.error (.assertion "c != NULL"))
  | some (some c) => k c

/-- A change of `worker_flags` in the record of the calling thread. -/
def currentFlags (workerSelf : UInt64) (f : UInt32 → UInt32) : Option (CurrentOutcome A D) :=
  withCurrent fuel head h workerSelf fun c =>
    (modifyVal h c fun r => { r with workerFlags := f r.workerFlags }).map .ok

/-- `current_running_set()`. -/
def currentRunningSet (workerSelf : UInt64) : Option (CurrentOutcome A D) :=
  currentFlags fuel head h workerSelf fun flags => bitSet flags WorkerFlags.taskRunning.bit

/-- `current_running_unset()`. -/
def currentRunningUnset (workerSelf : UInt64) : Option (CurrentOutcome A D) :=
  currentFlags fuel head h workerSelf fun flags => bitClear flags WorkerFlags.taskRunning.bit

/-- `current_exit()`. -/
def currentExit (workerSelf : UInt64) : Option (CurrentOutcome A D) :=
  currentFlags fuel head h workerSelf fun flags =>
    bitSet (bitClear flags WorkerFlags.taskRunning.bit) WorkerFlags.taskJoinable.bit

/-- The patches of `current_fork()`: `c` becomes `record`, and the first after the head. -/
def currentLink (c : A) (record : Current D) : Option (CurrentHeap A D) := do
  let first ← h head
  let h := Function.update h c (some ⟨first.next, some head, record⟩)
  match first.next with
  | some next =>
      let h ← setPrev h next (some c)
      setNext h head (some c)
  | none => setNext h head (some c)

/-- `error_handler()`, which begins with `current->error`, and then the end of the program. -/
def errorStop (workerSelf : UInt64) (stop : CurrentStop) : Option (CurrentOutcome A D) :=
  withCurrent fuel head h workerSelf fun _ => some (.error stop)

/-- `current_fork()`, when `malloc()` returned `c`: the record of the calling thread. -/
def currentFork (c : Option A) (workerSelf : UInt64) (data : D) (calls : ForkCalls) :
    Option (CurrentOutcome A D) :=
  match c, calls with
  | none, _ => errorStop fuel head h workerSelf (.fatal "current_fork(): malloc()")
  | some _, .connector false _ => some (.error (.abort "socket"))
  -- `net_timeout_set()` warns before it returns -1.
  | some _, .connector true false => errorStop fuel head h workerSelf (.abort "net_timeout_set")
  | some c, .connector true true | some c, .listener =>
      let flags := bitSet (bitSet 0 WorkerFlags.typeChild.bit) WorkerFlags.taskReady.bit
      (currentLink head h c ⟨workerSelf, flags, data⟩).map .ok

/-- The patches of `current_join()` around the record `c`, and its `free()`. -/
def currentUnlink (c : A) : Option (CurrentOutcome A D) := do
  let record ← h c
  match record.prev, record.next with
  | some prev, some next =>
      let h ← setNext h prev (some next)
      let h ← setPrev h next (some prev)
      return .ok (free h c)
  -- The tail.
  | some prev, none =>
      let h ← setNext h prev none
      return .ok (free h c)
  -- The head is static and not manageable.
  | none, _ => return .error (.abort "current_join")

/-- `current_join()`, called by `workerSelf`. -/
def currentJoin (workerSelf workerId : UInt64) : Option (CurrentOutcome A D) :=
  withCurrent fuel head h workerId fun c => do
    let record ← h c
    if record.val.workerId == workerSelf then
      return .error (.assertion "c->worker_id != worker_self()")
    else if bitTest record.val.workerFlags WorkerFlags.taskRunning.bit then
      return .error (.assertion "!bit_test(&c->worker_flags, UBWT_WORKER_FLAG_TASK_RUNNING)")
    else if !bitTest record.val.workerFlags WorkerFlags.taskJoinable.bit then
      return .error (.assertion "bit_test(&c->worker_flags, UBWT_WORKER_FLAG_TASK_JOINABLE)")
    else currentUnlink h c

end

/-- The loop of `current_children_has_flag()`, from the record `c` on: `count` after it. -/
def childrenHasFlagLoop (h : CurrentHeap A D) (flag : Nat) : Nat → A → UInt32 → Option UInt32
  | 0, _, _ => none
  | fuel + 1, c, count =>
      match h c with
      | none => none
      | some record =>
          -- Ignore non-child threads.
          let count := if !bitTest record.val.workerFlags WorkerFlags.typeChild.bit then count
            else if bitTest record.val.workerFlags flag then count - 1 else count
          match record.next with
          | none => some count
          | some next => if count != 0 then childrenHasFlagLoop h flag fuel next count
              else some count

/-- `current_children_has_flag()`. -/
def currentChildrenHasFlag (fuel : Nat) (head : A) (h : CurrentHeap A D) (flag : Nat)
    (count : UInt32) : Option (Except CurrentStop Bool) :=
  if count = 0 then some (.error (.assertion "count > 0"))
  else (childrenHasFlagLoop h flag fuel head count).map fun count => .ok (count == 0)

/-! ### Sequences of operations -/

/-- An operation on the list; a thread that acts on its own record is named by its id. -/
inductive CurrentOp (D : Type)
  | fork (workerSelf : UInt64) (data : D) (calls : ForkCalls := .listener)
  | runningSet (workerSelf : UInt64)
  | runningUnset (workerSelf : UInt64)
  | exit (workerSelf : UInt64)
  | join (workerSelf workerId : UInt64)

section

variable (malloc : Nat → CurrentHeap A D → Option A) (fuel : Nat) (head : A)

/-- One operation, the `k`-th. -/
def currentStep (k : Nat) (h : CurrentHeap A D) : CurrentOp D → Option (CurrentOutcome A D)
  | .fork workerSelf data calls => currentFork fuel head h (malloc k h) workerSelf data calls
  | .runningSet workerSelf => currentRunningSet fuel head h workerSelf
  | .runningUnset workerSelf => currentRunningUnset fuel head h workerSelf
  | .exit workerSelf => currentExit fuel head h workerSelf
  | .join workerSelf workerId => currentJoin fuel head h workerSelf workerId

/-- The operations one after the other, until one of them ends the program. -/
def currentRun : Nat → List (CurrentOp D) → CurrentHeap A D → Option (CurrentOutcome A D)
  | _, [], h => some (.ok h)
  | k, op :: ops, h =>
      match currentStep malloc fuel head k h op with
      | none => none
      | some (.error stop) => some (.error stop)
      | some (.ok h) => currentRun (k + 1) ops h

end

/-- The workers after an operation, newest first. -/
def workersAfter (ids : List UInt64) : CurrentOp D → List UInt64
  | .fork workerSelf _ _ => workerSelf :: ids
  | .join _ workerId => ids.erase workerId
  | _ => ids

/-- The workers that are forked and not joined, newest first. -/
def forkedNotJoined (ops : List (CurrentOp D)) : List UInt64 := ops.foldl workersAfter []

/-- Every worker is forked under an id that no thread has at the time. -/
def ForksDistinct (main : UInt64) : List UInt64 → List (CurrentOp D) → Prop
  | _, [] => True
  | ids, op :: ops => (∀ id data calls, op = .fork id data calls → id ≠ main ∧ id ∉ ids)
      ∧ ForksDistinct main (workersAfter ids op) ops

/-- The list of the threads, as its users see it: a walk from the head meets `l`. -/
structure WorkerList (fuel : Nat) (head : A) (main : UInt64) (ids : List UInt64)
    (h : CurrentHeap A D) (l : List (A × Current D)) : Prop where
  traversal : follow h fuel (some head) = some l
  start : l.head?.map Prod.fst = some head
  workers : l.map (fun x => x.2.workerId) = main :: ids
  once : (l.map Prod.fst).Nodup ∧ (main :: ids).Nodup
  all : ∀ a, h a ≠ none ↔ a ∈ l.map Prod.fst
  inverse : ∀ a b, (∃ n, h a = some n ∧ n.next = some b) ↔ ∃ m, h b = some m ∧ m.prev = some a
  flags : ∀ (flag : Nat) (count : UInt32), 0 < count →
    currentChildrenHasFlag fuel head h flag count
      = some (.ok (count.toNat ≤ l.tail.countP fun x => bitTest x.2.workerFlags flag))
  join : ∀ workerSelf workerId h', currentJoin fuel head h workerSelf workerId = some (.ok h') →
    ∃ c record, (c, record) ∈ l.tail ∧ record.workerId = workerId ∧ h' c = none
      ∧ ∀ a ≠ c, (h' a).map Node.val = (h a).map Node.val

/-! ### The invariant -/

/-- The heap is the list of the head `x` and the workers `l`. -/
structure CurrentInv (head : A) (main : UInt64) (ids : List UInt64) (h : CurrentHeap A D)
    (x : A × Current D) (l : List (A × Current D)) : Prop where
  listed : Listed h (x :: l)
  addr : x.1 = head
  id : x.2.workerId = main
  workers : l.map (fun y => y.2.workerId) = ids
  distinct : (main :: ids).Nodup
  static : bitTest x.2.workerFlags WorkerFlags.typeChild.bit = false
  child : ∀ y ∈ l, bitTest y.2.workerFlags WorkerFlags.typeChild.bit = true

variable {malloc : Nat → CurrentHeap A D → Option A} {fuel : Nat} {head : A} {main : UInt64}
  {ids : List UInt64} {h h' : CurrentHeap A D} {x : A × Current D} {l : List (A × Current D)}

theorem currentInit_inv (head : A) (main : UInt64) (data : D) :
    CurrentInv head main [] (currentInit head main data) (head, ⟨main, 0, data⟩) [] where
  listed := by
    refine ⟨⟨rfl, none, Function.update_self .., rfl⟩, List.nodup_singleton _, ?_⟩
    intro a ha
    by_contra hne
    rw [List.map_singleton, List.mem_singleton] at hne
    rw [currentInit, Function.update_of_ne hne] at ha
    exact ha rfl
  addr := rfl
  id := rfl
  workers := rfl
  distinct := List.nodup_singleton _
  static := (by decide : bitTest 0 WorkerFlags.typeChild.bit = false)
  child := by simp

omit [DecidableEq A] in
/-- The loop finds the thread with an id, if there is one. -/
theorem CurrentInv.walk (hi : CurrentInv head main ids h x l) (hfuel : ids.length + 1 < fuel)
    (workerId : UInt64) : currentWalk fuel head h workerId
      = some (((x :: l).find? fun y => y.2.workerId == workerId).map Prod.fst) := by
  have hlen : (x :: l).length < fuel := by
    rw [List.length_cons, ← List.length_map (fun y : A × Current D => y.2.workerId), hi.workers]
    exact hfuel
  have hseg := hi.listed.seg
  rw [List.head?_cons, Option.map_some, hi.addr] at hseg
  exact hseg.find _ hlen

omit [DecidableEq A] in
/-- What the loop finds: nothing, the head, or a worker. -/
theorem CurrentInv.walk_cases (hi : CurrentInv head main ids h x l) (hfuel : ids.length + 1 < fuel)
    (workerId : UInt64) :
    currentWalk fuel head h workerId = some none
    ∨ currentWalk fuel head h workerId = some (some x.1)
    ∨ ∃ l₁ y l₂, l = l₁ ++ y :: l₂ ∧ y.2.workerId = workerId
      ∧ currentWalk fuel head h workerId = some (some y.1) := by
  rw [hi.walk hfuel]
  cases hfind : (x :: l).find? fun y => y.2.workerId == workerId with
  | none => exact .inl rfl
  | some y =>
      refine .inr ?_
      obtain ⟨hid, l₁, l₂, hsplit, -⟩ := List.find?_eq_some_iff_append.mp hfind
      cases l₁ with
      | nil =>
          obtain ⟨rfl, rfl⟩ := List.cons.inj hsplit
          exact .inl rfl
      | cons z l₁ =>
          obtain ⟨rfl, rfl⟩ := List.cons.inj hsplit
          exact .inr ⟨l₁, y, l₂, rfl, beq_iff_eq.mp hid, rfl⟩

/-- A change of flags other than CHILD. -/
theorem CurrentInv.currentFlags (hi : CurrentInv head main ids h x l)
    (hfuel : ids.length + 1 < fuel) (workerSelf : UInt64) {f : UInt32 → UInt32}
    (hf : ∀ flags, bitTest (f flags) WorkerFlags.typeChild.bit
      = bitTest flags WorkerFlags.typeChild.bit) :
    ∃ outcome, Ubwt.currentFlags fuel head h workerSelf f = some outcome
      ∧ ∀ h', outcome = .ok h' → ∃ x' l', CurrentInv head main ids h' x' l' := by
  unfold Ubwt.currentFlags withCurrent
  rcases hi.walk_cases hfuel workerSelf with hnone | hhead | ⟨l₁, y, l₂, hsplit, -, hworker⟩
  · rw [hnone]
    exact ⟨_, rfl, fun h' heq => by cases heq⟩
  · have hl : Listed h ([] ++ x :: l) := hi.listed
    obtain ⟨h₁, hset, hlisted⟩ := hl.modifyVal
      (fun r => { r with workerFlags := f r.workerFlags })
    rw [hhead]
    dsimp only
    rw [hset]
    refine ⟨_, rfl, ?_⟩
    intro h' heq
    cases heq
    exact ⟨_, l, hlisted, hi.addr, hi.id, hi.workers, hi.distinct, (hf _).trans hi.static, hi.child⟩
  · subst hsplit
    have hl : Listed h ((x :: l₁) ++ y :: l₂) := hi.listed
    obtain ⟨h₁, hset, hlisted⟩ := hl.modifyVal
      (fun r => { r with workerFlags := f r.workerFlags })
    rw [hworker]
    dsimp only
    rw [hset]
    refine ⟨_, rfl, ?_⟩
    intro h' heq
    cases heq
    refine ⟨x, l₁ ++ (y.1, { y.2 with workerFlags := f y.2.workerFlags }) :: l₂, hlisted, hi.addr,
      hi.id, ?_, hi.distinct, hi.static, ?_⟩
    · rw [← hi.workers, List.map_append, List.map_append]
      rfl
    · have hchild := hi.child
      rw [List.forall_mem_append, List.forall_mem_cons] at hchild ⊢
      exact ⟨hchild.1, (hf _).trans hchild.2.1, hchild.2.2⟩

theorem currentLink_eq (head : A) (h : CurrentHeap A D) (c : A) (record : Current D) :
    currentLink head h c record = insertAfter h head c record := by
  unfold currentLink insertAfter
  cases h head with
  | none => rfl
  | some first =>
      obtain ⟨next, prev, val⟩ := first
      cases next <;> rfl

omit [DecidableEq A] in
/-- `error_handler()` ends the program, with the error or because the thread has no record. -/
theorem errorStop_error {fuel : Nat} {workerSelf : UInt64} {found : Option A}
    (hwalk : currentWalk fuel head h workerSelf = some found) (stop : CurrentStop) :
    ∃ stop', errorStop fuel head h workerSelf stop = some (.error stop') := by
  unfold errorStop withCurrent
  rw [hwalk]
  cases found <;> exact ⟨_, rfl⟩

/-- What `current_fork()` does: it ends the program, or links the record. -/
theorem currentFork_cases {fuel : Nat} {c : Option A} {workerSelf : UInt64} {found : Option A}
    (hwalk : currentWalk fuel head h workerSelf = some found) (data : D) (calls : ForkCalls) :
    (∃ stop, Ubwt.currentFork fuel head h c workerSelf data calls = some (.error stop)) ∨
      ∃ a, c = some a ∧ Ubwt.currentFork fuel head h c workerSelf data calls
        = (insertAfter h head a ⟨workerSelf, bitSet (bitSet 0 WorkerFlags.typeChild.bit)
            WorkerFlags.taskReady.bit, data⟩).map .ok := by
  cases c with
  | none => exact .inl (errorStop_error hwalk _)
  | some a =>
      have hlink : ∀ record : Current D, (currentLink head h a record).map Except.ok
          = (insertAfter h head a record).map (Except.ok (ε := CurrentStop)) := by
        intro record
        rw [currentLink_eq]
      match calls with
      | .connector false _ => exact .inl ⟨_, rfl⟩
      | .connector true false => exact .inl (errorStop_error hwalk _)
      | .connector true true => exact .inr ⟨a, rfl, hlink _⟩
      | .listener => exact .inr ⟨a, rfl, hlink _⟩

/-- `current_fork()` under an id that is not in use. -/
theorem CurrentInv.currentFork (hi : CurrentInv head main ids h x l)
    (hfuel : ids.length + 1 < fuel) {c : Option A}
    (hc : ∀ a, c = some a → h a = none) {workerSelf : UInt64} (data : D) (calls : ForkCalls)
    (hfresh : workerSelf ≠ main ∧ workerSelf ∉ ids) :
    ∃ outcome, Ubwt.currentFork fuel head h c workerSelf data calls = some outcome
      ∧ ∀ h', outcome = .ok h' → ∃ x' l', CurrentInv head main (workerSelf :: ids) h' x' l' := by
  rcases currentFork_cases (c := c) (hi.walk hfuel workerSelf) data calls with
    ⟨stop, hstop⟩ | ⟨c, rfl, hlink⟩
  · exact ⟨_, hstop, fun h' heq => by cases heq⟩
  · obtain ⟨h₁, hinsert, hlisted⟩ := hi.listed.insertAfter (hc c rfl) (⟨workerSelf,
        bitSet (bitSet 0 WorkerFlags.typeChild.bit) WorkerFlags.taskReady.bit, data⟩ : Current D)
    rw [hi.addr] at hinsert
    refine ⟨.ok h₁, by rw [hlink, hinsert]; rfl, ?_⟩
    intro h' heq
    cases heq
    have hdistinct := hi.distinct
    rw [List.nodup_cons] at hdistinct
    refine ⟨x, _ :: l, hlisted, hi.addr, hi.id, ?_, ?_, hi.static, ?_⟩
    · rw [List.map_cons, hi.workers]
    · simp only [List.nodup_cons, List.mem_cons, not_or]
      exact ⟨⟨hfresh.1.symm, hdistinct.1⟩, hfresh.2, hdistinct.2⟩
    · refine List.forall_mem_cons.mpr ⟨?_, hi.child⟩
      exact (by decide : bitTest (bitSet (bitSet 0 WorkerFlags.typeChild.bit)
        WorkerFlags.taskReady.bit) WorkerFlags.typeChild.bit = true)

/-- The record of a worker is taken out with the patches of the library. -/
theorem currentUnlink_eq {c : A} {n : Node A (Current D)} (hn : h c = some n)
    (hprev : n.prev ≠ none) :
    currentUnlink h c = (unlink h c).map fun h => .ok (free h c) := by
  obtain ⟨next, prev, val⟩ := n
  cases prev with
  | none => exact absurd rfl hprev
  | some prev =>
      simp only [currentUnlink, unlink, hn, bind, Option.bind_some]
      cases next with
      | none =>
          dsimp only
          cases setNext h prev none <;> rfl
      | some next =>
          dsimp only
          cases setNext h prev (some next) with
          | none => rfl
          | some h₁ =>
              rw [Option.bind_some, Option.bind_some]
              cases setPrev h₁ next (some prev) <;> rfl

/-- What a join does that returns: it takes out a worker, which has the id. -/
structure Joined (h' : CurrentHeap A D) (x : A × Current D) (l : List (A × Current D))
    (workerId : UInt64) (l₁ l₂ : List (A × Current D)) (y : A × Current D) : Prop where
  split : l = l₁ ++ y :: l₂
  id : y.2.workerId = workerId
  listed : Listed h' (x :: (l₁ ++ l₂))

/-- `current_join()` ends the program, or takes out the record of the worker. -/
theorem CurrentInv.currentJoin (hi : CurrentInv head main ids h x l)
    (hfuel : ids.length + 1 < fuel) (workerSelf workerId : UInt64) :
    ∃ outcome, Ubwt.currentJoin fuel head h workerSelf workerId = some outcome
      ∧ ∀ h', outcome = .ok h' → ∃ l₁ y l₂, Joined h' x l workerId l₁ l₂ y := by
  unfold Ubwt.currentJoin withCurrent
  rcases hi.walk_cases hfuel workerId with hnone | hhead | ⟨l₁, y, l₂, hsplit, hid, hworker⟩
  · rw [hnone]
    exact ⟨_, rfl, fun h' heq => by cases heq⟩
  · have hl : Listed h ([] ++ x :: l) := hi.listed
    obtain ⟨next, hx, -⟩ := hl.node
    rw [hhead]
    dsimp only [bind]
    rw [hx, Option.bind_some]
    -- The head has no record before it.
    have habort : currentUnlink h x.1 = some (.error (.abort "current_join")) := by
      rw [currentUnlink, hx]
      rfl
    split
    · exact ⟨_, rfl, fun h' heq => by cases heq⟩
    split
    · exact ⟨_, rfl, fun h' heq => by cases heq⟩
    split
    · exact ⟨_, rfl, fun h' heq => by cases heq⟩
    · rw [habort]
      exact ⟨_, rfl, fun h' heq => by cases heq⟩
  · subst hsplit
    have hl : Listed h ((x :: l₁) ++ y :: l₂) := hi.listed
    obtain ⟨next, hy, -⟩ := hl.node
    obtain ⟨h₁, hunlink, hlisted⟩ := hl.remove (List.cons_ne_nil _ _)
    have hprev : lastOf none (x :: l₁) ≠ none := lastOf_ne_none (List.cons_ne_nil x l₁)
    rw [hworker]
    dsimp only [bind]
    rw [hy, Option.bind_some]
    split
    · exact ⟨_, rfl, fun h' heq => by cases heq⟩
    split
    · exact ⟨_, rfl, fun h' heq => by cases heq⟩
    split
    · exact ⟨_, rfl, fun h' heq => by cases heq⟩
    · rw [currentUnlink_eq hy hprev, hunlink]
      refine ⟨_, rfl, ?_⟩
      intro h' heq
      cases heq
      exact ⟨l₁, y, l₂, rfl, hid, hlisted⟩

omit [DecidableEq A] in
/-- The other workers stay. -/
theorem CurrentInv.joined (hi : CurrentInv head main ids h x l) {workerId : UInt64}
    {l₁ l₂ : List (A × Current D)} {y : A × Current D} (hj : Joined h' x l workerId l₁ l₂ y) :
    CurrentInv head main (ids.erase workerId) h' x (l₁ ++ l₂) := by
  obtain ⟨rfl, rfl, hlisted⟩ := hj
  have hdistinct := hi.distinct
  have hids := hi.workers
  rw [List.nodup_cons] at hdistinct
  rw [List.map_append, List.map_cons] at hids
  have hy : y.2.workerId ∉ l₁.map fun z => z.2.workerId := by
    intro hmem
    have hnodup := hdistinct.2
    rw [← hids, List.nodup_append] at hnodup
    exact hnodup.2.2 _ hmem _ List.mem_cons_self rfl
  have herase : ids.erase y.2.workerId = (l₁ ++ l₂).map fun z => z.2.workerId := by
    rw [← hids, List.erase_append_right _ hy, List.erase_cons_head, List.map_append]
  refine ⟨hlisted, hi.addr, hi.id, herase.symm, ?_, hi.static, ?_⟩
  · rw [List.nodup_cons]
    exact ⟨fun hmem => hdistinct.1 (List.mem_of_mem_erase hmem), hdistinct.2.erase _⟩
  · have hchild := hi.child
    rw [List.forall_mem_append, List.forall_mem_cons] at hchild
    exact List.forall_mem_append.mpr ⟨hchild.1, hchild.2.2⟩

/-! ### Counting flags -/

/-- What the loop counts. -/
def childWithFlag (flag : Nat) (x : A × Current D) : Bool :=
  bitTest x.2.workerFlags WorkerFlags.typeChild.bit && bitTest x.2.workerFlags flag

/-- One record takes one off the count, if it counts. -/
theorem count_step (flags : UInt32) (flag : Nat) {count : UInt32} (hcount : count ≠ 0) :
    (if !bitTest flags WorkerFlags.typeChild.bit then count
      else if bitTest flags flag then count - 1 else count).toNat
      = count.toNat
        - if bitTest flags WorkerFlags.typeChild.bit && bitTest flags flag then 1 else 0 := by
  have hpos : 1 ≤ count := by
    rw [UInt32.le_iff_toNat_le]
    exact Nat.one_le_iff_ne_zero.mpr fun h0 => hcount (UInt32.toNat_inj.mp h0)
  cases bitTest flags WorkerFlags.typeChild.bit with
  | false => rfl
  | true =>
      cases bitTest flags flag with
      | false => rfl
      | true => exact UInt32.toNat_sub_of_le _ _ hpos

omit [DecidableEq A] in
/-- The loop reaches 0 exactly if enough of the records from `y` on count. -/
theorem childrenHasFlagLoop_eq (flag : Nat) {p : Option A} {y : A × Current D}
    {l : List (A × Current D)} (hseg : Seg h p (some y.1) (y :: l) none) {fuel : Nat}
    (hfuel : l.length < fuel) {count : UInt32} (hcount : count ≠ 0) :
    ∃ left, childrenHasFlagLoop h flag fuel y.1 count = some left
      ∧ (left = 0 ↔ count.toNat ≤ (y :: l).countP (childWithFlag flag)) := by
  have hzero : ∀ n : UInt32, n = 0 ↔ n.toNat = 0 := fun n => UInt32.toNat_inj.symm
  induction l generalizing p y fuel count with
  | nil =>
      obtain ⟨-, next, hy, hrest⟩ := hseg
      cases hrest
      obtain ⟨fuel, rfl⟩ := Nat.exists_eq_succ_of_ne_zero (Nat.ne_of_gt hfuel)
      have hstep := count_step y.2.workerFlags flag hcount
      rw [childrenHasFlagLoop, hy]
      refine ⟨_, rfl, ?_⟩
      rw [hzero, hstep, List.countP_cons, List.countP_nil, childWithFlag]
      have hpos := Nat.pos_of_ne_zero (mt (hzero count).mpr hcount)
      omega
  | cons z l ih =>
      obtain ⟨-, next, hy, hrest⟩ := hseg
      have hnext := hrest.1
      subst hnext
      obtain ⟨fuel, rfl⟩ := Nat.exists_eq_succ_of_ne_zero (Nat.ne_of_gt (Nat.zero_lt_of_lt hfuel))
      have hstep := count_step y.2.workerFlags flag hcount
      rw [childrenHasFlagLoop, hy]
      dsimp only
      generalize (if !bitTest y.2.workerFlags WorkerFlags.typeChild.bit then count
        else if bitTest y.2.workerFlags flag then count - 1 else count) = left at hstep ⊢
      rw [List.countP_cons]
      change left.toNat = count.toNat - (if childWithFlag flag y then 1 else 0) at hstep
      by_cases hleft : left = 0
      · rw [hleft]
        refine ⟨0, rfl, ?_⟩
        rw [(hzero left).mp hleft] at hstep
        simp only [true_iff]
        omega
      · rw [if_pos (bne_iff_ne.mpr hleft)]
        obtain ⟨last, hloop, hlast⟩ := ih hrest (Nat.lt_of_succ_lt_succ hfuel) hleft
        refine ⟨last, hloop, ?_⟩
        rw [hlast, hstep]
        omega

omit [DecidableEq A] in
/-- **The count of the flag**: the head does not count, and the workers with the flag do. -/
theorem CurrentInv.childrenHasFlag (hi : CurrentInv head main ids h x l)
    (hfuel : ids.length + 1 < fuel) (flag : Nat) {count : UInt32} (hcount : 0 < count) :
    currentChildrenHasFlag fuel head h flag count
      = some (.ok (count.toNat ≤ l.countP fun y => bitTest y.2.workerFlags flag)) := by
  have hne : count ≠ 0 := fun h0 => by simp [h0] at hcount
  have hlen : l.length < fuel := by
    rw [← List.length_map (fun y : A × Current D => y.2.workerId), hi.workers]
    omega
  have hseg := hi.listed.seg
  obtain ⟨left, hloop, hleft⟩ := childrenHasFlagLoop_eq flag hseg hlen hne
  have hcountP : (x :: l).countP (childWithFlag flag)
      = l.countP fun y => bitTest y.2.workerFlags flag := by
    rw [List.countP_cons, childWithFlag, hi.static]
    refine List.countP_congr fun y hy => ?_
    rw [childWithFlag, hi.child y hy, Bool.true_and]
  rw [hcountP] at hleft
  rw [currentChildrenHasFlag, if_neg hne, ← hi.addr, hloop]
  simp [← hleft, Bool.beq_eq_decide_eq]

/-! ### Every sequence of operations -/

/-- What the invariant says to the users of the list. -/
theorem CurrentInv.workerList (hi : CurrentInv head main ids h x l)
    (hfuel : ids.length + 1 < fuel) : WorkerList fuel head main ids h (x :: l) where
  traversal := by
    have hseg := hi.listed.seg
    rw [List.head?_cons, Option.map_some, hi.addr] at hseg
    refine hseg.follow ?_
    rw [List.length_cons, ← List.length_map (fun y : A × Current D => y.2.workerId), hi.workers]
    exact hfuel
  start := congrArg some hi.addr
  workers := by rw [List.map_cons, hi.id, hi.workers]
  once := ⟨hi.listed.nodup, hi.distinct⟩
  all := by
    intro a
    refine ⟨hi.listed.only a, ?_⟩
    intro hmem hnone
    obtain ⟨v, hv⟩ := mem_keys.mp hmem
    have hval := hi.listed.val hv
    rw [hnone] at hval
    cases hval
  inverse := fun _ _ => hi.listed.prev_iff_next
  flags := fun flag _ hcount => hi.childrenHasFlag hfuel flag hcount
  join := by
    intro workerSelf workerId h' hjoin
    obtain ⟨outcome, heq, hout⟩ := hi.currentJoin hfuel workerSelf workerId
    rw [hjoin] at heq
    cases heq
    obtain ⟨l₁, y, l₂, hj⟩ := hout h' rfl
    have hlisted := hj.listed
    obtain ⟨hsplit, hid, -⟩ := hj
    subst hsplit
    refine ⟨y.1, y.2, by simp, hid, ?_, ?_⟩
    · by_contra hne
      have hmem := hlisted.only y.1 hne
      have hnodup := hi.listed.nodup
      rw [← List.cons_append, List.map_append, List.nodup_append] at hnodup
      obtain ⟨-, hlater, hdisjoint⟩ := hnodup
      rw [← List.cons_append, List.map_append, List.mem_append] at hmem
      rcases hmem with hmem | hmem
      · exact hdisjoint _ hmem _ List.mem_cons_self rfl
      · exact (List.nodup_cons.mp hlater).1 hmem
    · intro a ha
      by_cases hmem : ∃ v, (a, v) ∈ x :: (l₁ ++ l₂)
      · obtain ⟨v, hv⟩ := hmem
        have hv' : (a, v) ∈ x :: (l₁ ++ y :: l₂) := by
          simp only [List.mem_cons, List.mem_append] at hv ⊢
          tauto
        rw [hlisted.val hv, hi.listed.val hv']
      · have hnone' : h' a = none := by
          by_contra hne
          exact hmem (mem_keys.mp (hlisted.only a hne))
        have hnone : h a = none := by
          by_contra hne
          obtain ⟨v, hv⟩ := mem_keys.mp (hi.listed.only a hne)
          refine hmem ⟨v, ?_⟩
          simp only [List.mem_cons, List.mem_append] at hv ⊢
          have hay : (a, v) ≠ y := fun heq => ha (congrArg Prod.fst heq)
          tauto
        rw [hnone, hnone']

/-- One operation. -/
theorem CurrentInv.currentStep (hi : CurrentInv head main ids h x l)
    (hmalloc : ∀ k h a, malloc k h = some a → h a = none) (hfuel : ids.length + 1 < fuel) (k : Nat)
    (op : CurrentOp D) (hfork : ∀ id data calls, op = .fork id data calls → id ≠ main ∧ id ∉ ids) :
    ∃ outcome, Ubwt.currentStep malloc fuel head k h op = some outcome
      ∧ ∀ h', outcome = .ok h' → ∃ x' l', CurrentInv head main (workersAfter ids op) h' x' l' := by
  cases op with
  | fork workerSelf data calls =>
      exact hi.currentFork hfuel (hmalloc k h) data calls (hfork workerSelf data calls rfl)
  | runningSet workerSelf =>
      exact hi.currentFlags hfuel workerSelf (bitTest_bitSet (by decide))
  | runningUnset workerSelf =>
      exact hi.currentFlags hfuel workerSelf (bitTest_bitClear (by decide))
  | exit workerSelf =>
      have hflags : ∀ flags, bitTest (bitSet (bitClear flags WorkerFlags.taskRunning.bit)
          WorkerFlags.taskJoinable.bit) WorkerFlags.typeChild.bit
          = bitTest flags WorkerFlags.typeChild.bit := by
        intro flags
        rw [bitTest_bitSet (by decide), bitTest_bitClear (by decide)]
      exact hi.currentFlags hfuel workerSelf hflags
  | join workerSelf workerId =>
      obtain ⟨outcome, hjoin, hout⟩ := hi.currentJoin hfuel workerSelf workerId
      refine ⟨outcome, hjoin, ?_⟩
      intro h' heq
      obtain ⟨l₁, y, l₂, hj⟩ := hout h' heq
      exact ⟨x, l₁ ++ l₂, hi.joined hj⟩

theorem length_workersAfter (ids : List UInt64) (op : CurrentOp D) :
    (workersAfter ids op).length ≤ ids.length + 1 := by
  cases op with
  | fork workerSelf data calls => exact Nat.le_refl _
  | join workerSelf workerId =>
      exact Nat.le_succ_of_le (List.length_erase_le ..)
  | _ => exact Nat.le_succ _

/-- The run rule: the invariant, by induction on the operations. -/
theorem CurrentInv.currentRun (hmalloc : ∀ k h a, malloc k h = some a → h a = none)
    (ops : List (CurrentOp D)) (k : Nat) (hi : CurrentInv head main ids h x l)
    (hfuel : ids.length + ops.length + 1 < fuel) (hforks : ForksDistinct main ids ops) :
    ∃ outcome, Ubwt.currentRun malloc fuel head k ops h = some outcome
      ∧ ∀ h', outcome = .ok h' →
        ∃ x' l', CurrentInv head main (ops.foldl workersAfter ids) h' x' l'
          ∧ (ops.foldl workersAfter ids).length + 1 < fuel := by
  induction ops generalizing k ids h x l with
  | nil =>
      refine ⟨.ok h, rfl, ?_⟩
      intro h' heq
      cases heq
      exact ⟨x, l, hi, hfuel⟩
  | cons op ops ih =>
      obtain ⟨hfork, hforks⟩ := hforks
      rw [List.length_cons] at hfuel
      have hroom : ids.length + 1 < fuel := by omega
      obtain ⟨outcome, hstep, hout⟩ := hi.currentStep hmalloc hroom k op hfork
      rw [Ubwt.currentRun, hstep]
      cases outcome with
      | error stop => exact ⟨_, rfl, fun h' heq => by cases heq⟩
      | ok h₁ =>
          obtain ⟨x₁, l₁, hi₁⟩ := hout h₁ rfl
          have hlen := length_workersAfter ids op
          refine ih (k + 1) hi₁ ?_ hforks
          omega

/-- **The worker list.** For every sequence of operations in which the forked ids are distinct,
and whatever `malloc()` returns: no link to nowhere is followed, and if no assertion ends the
program, a walk from the head meets the head and the workers that are forked and not joined, each
once, the newest first; the links in the other direction are the inverse; a join takes out the
worker with the id and leaves the other records; and the count of a flag is right. -/
theorem currentRun_workerList (malloc : Nat → CurrentHeap A D → Option A)
    (hmalloc : ∀ k h a, malloc k h = some a → h a = none) (head : A) (main : UInt64) (data : D)
    (ops : List (CurrentOp D)) (hforks : ForksDistinct main [] ops) (fuel : Nat)
    (hfuel : ops.length + 1 < fuel) :
    ∃ outcome, currentRun malloc fuel head 0 ops (currentInit head main data) = some outcome
      ∧ ∀ h, outcome = .ok h → ∃ l, WorkerList fuel head main (forkedNotJoined ops) h l := by
  obtain ⟨outcome, hrun, hout⟩ := (currentInit_inv head main data).currentRun hmalloc ops 0
    (by rw [List.length_nil, Nat.zero_add]; exact hfuel) hforks
  refine ⟨outcome, hrun, ?_⟩
  intro h heq
  obtain ⟨x, l, hi, hlen⟩ := hout h heq
  exact ⟨x :: l, hi.workerList hlen⟩

/-- Two workers, of which the first is joined by the main thread. -/
theorem currentRun_workerList_two : ∃ h l,
    currentRun (fun k (h : CurrentHeap Nat Unit) => if h (k + 1) = none then some (k + 1) else none)
        10 0 0 [.fork 2 (), .fork 3 (), .runningSet 2, .exit 2, .join 1 2] (currentInit 0 1 ())
      = some (.ok h)
    ∧ WorkerList 10 0 1 [3] h l := by
  have hmalloc : ∀ (k : Nat) (h : CurrentHeap Nat Unit) (a : Nat),
      (if h (k + 1) = none then some (k + 1) else none) = some a → h a = none := by
    intro k h a heq
    split at heq
    · cases heq
      assumption
    · cases heq
  have hforks : ForksDistinct 1 [] [.fork 2 (), .fork 3 (), .runningSet 2, .exit 2, .join 1 2] := by
    simp [ForksDistinct, workersAfter]
  obtain ⟨outcome, hrun, hlist⟩ := currentRun_workerList _ hmalloc 0 1 () _ hforks 10 (by decide)
  obtain ⟨h, hok⟩ : ∃ h, outcome = .ok h := by
    cases outcome with
    | ok h => exact ⟨h, rfl⟩
    | error stop => cases hrun
  obtain ⟨l, hl⟩ := hlist h hok
  exact ⟨h, l, hok ▸ hrun, hl⟩

end Ubwt
