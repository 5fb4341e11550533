import Mathlib.Data.Set.Card
import Ubwt.Runtime.Lookup

/-!
# Ubwt.Runtime.Threads

What the list of the threads is for: a map from the ids of the threads to their records.
`Threads` has the operations of `current.c` on the map, with the ways in which they end the
program. **The functions on the records and links do what these do**, for every sequence of
operations (`currentRun_threads`), so that a user of the list need not look at a link.
-/

namespace Ubwt

open Lib Lib.LinkedList

/-- The records of the threads, by their ids. -/
abbrev Threads (D : Type) := UInt64 → Option (Current D)

variable {A D : Type}

/-! ### The operations on the map -/

namespace Threads

/-- The main thread alone. -/
def init (main : UInt64) (data : D) : Threads D :=
  Function.update (fun _ => none) main (some ⟨main, 0, data⟩)

/-- A thread changes its flags. -/
def setFlags (m : Threads D) (workerSelf : UInt64) (f : UInt32 → UInt32) :
    Except CurrentStop (Threads D) :=
  match m workerSelf with
  | none => .error (.assertion "c != NULL")
  | some record =>
      .ok (Function.update m workerSelf (some { record with workerFlags := f record.workerFlags }))

/-- What keeps `workerSelf` from joining the thread of a record. -/
def joinStop (main workerSelf : UInt64) (record : Current D) : Option CurrentStop :=
  if record.workerId == workerSelf then some (.assertion "c->worker_id != worker_self()")
  else if bitTest record.workerFlags WorkerFlags.taskRunning.bit then
    some (.assertion "!bit_test(&c->worker_flags, UBWT_WORKER_FLAG_TASK_RUNNING)")
  else if !bitTest record.workerFlags WorkerFlags.taskJoinable.bit then
    some (.assertion "bit_test(&c->worker_flags, UBWT_WORKER_FLAG_TASK_JOINABLE)")
  else if record.workerId == main then some (.abort "current_join")
  else none

/-- `workerSelf` joins the thread `workerId`. -/
def join (main : UInt64) (m : Threads D) (workerSelf workerId : UInt64) :
    Except CurrentStop (Threads D) :=
  match m workerId with
  | none => .error (.assertion "c != NULL")
  | some record =>
      match joinStop main workerSelf record with
      | some stop => .error stop
      | none => .ok (Function.update m workerId none)

/-- The record of a new thread. -/
def forked (workerSelf : UInt64) (data : D) : Current D :=
  ⟨workerSelf, bitSet (bitSet 0 WorkerFlags.typeChild.bit) WorkerFlags.taskReady.bit, data⟩

/-- An error, which the thread reports with its record. -/
def errorStop (m : Threads D) (workerSelf : UInt64) (stop : CurrentStop) :
    Except CurrentStop (Threads D) :=
  match m workerSelf with
  | none => .error (.assertion "c != NULL")
  | some _ => .error stop

/-- A new thread, if there is memory for its record, and a socket for a connector. -/
def fork (allocated : Bool) (m : Threads D) (workerSelf : UInt64) (data : D) (calls : ForkCalls) :
    Except CurrentStop (Threads D) :=
  match allocated, calls with
  | false, _ => m.errorStop workerSelf (.fatal "current_fork(): malloc()")
  | true, .connector false _ => .error (.abort "socket")
  | true, .connector true false => m.errorStop workerSelf (.abort "net_timeout_set")
  | true, .connector true true | true, .listener =>
      .ok (Function.update m workerSelf (some (forked workerSelf data)))

/-- One operation. -/
def step (main : UInt64) (allocated : Bool) (m : Threads D) :
    CurrentOp D → Except CurrentStop (Threads D)
  | .fork workerSelf data calls => fork allocated m workerSelf data calls
  | .runningSet workerSelf =>
      setFlags m workerSelf fun flags => bitSet flags WorkerFlags.taskRunning.bit
  | .runningUnset workerSelf =>
      setFlags m workerSelf fun flags => bitClear flags WorkerFlags.taskRunning.bit
  | .exit workerSelf =>
      setFlags m workerSelf fun flags =>
        bitSet (bitClear flags WorkerFlags.taskRunning.bit) WorkerFlags.taskJoinable.bit
  | .join workerSelf workerId => join main m workerSelf workerId

/-- The operations one after the other, until one of them ends the program. -/
def run (main : UInt64) (allocated : Nat → Bool) :
    Nat → List (CurrentOp D) → Threads D → Except CurrentStop (Threads D)
  | _, [], m => .ok m
  | k, op :: ops, m =>
      match step main (allocated k) m op with
      | .error stop => .error stop
      | .ok m => run main allocated (k + 1) ops m

/-- Operations after others. -/
theorem run_append {main : UInt64} {allocated : Nat → Bool} {ops ops' : List (CurrentOp D)}
    {m m' : Threads D} (k : Nat) (h : run main allocated k ops m = .ok m') :
    run main allocated k (ops ++ ops') m = run main allocated (k + ops.length) ops' m' := by
  induction ops generalizing k m with
  | nil =>
      cases h
      rfl
  | cons op ops ih =>
      rw [List.cons_append, run]
      rw [run] at h
      cases hstep : step main (allocated k) m op with
      | error stop =>
          rw [hstep] at h
          cases h
      | ok m₁ =>
          rw [hstep] at h
          dsimp only
          rw [ih (k + 1) h, List.length_cons, Nat.add_assoc, Nat.add_comm 1]

/-- The threads other than main that have a flag. -/
def withFlag (main : UInt64) (m : Threads D) (flag : Nat) : Set UInt64 :=
  { id | id ≠ main ∧ ∃ record, m id = some record ∧ bitTest record.workerFlags flag }

end Threads

/-! ### What the users of the list see -/

/-- The functions that read the list read the map, and there are no other records in memory. -/
structure ThreadsView (fuel : Nat) (head : A) (main : UInt64) (h : CurrentHeap A D)
    (m : Threads D) : Prop where
  found : ∀ id record, m id = some record →
    ∃ c, currentGet fuel head h id = some (.ok c) ∧ (h c).map Node.val = some record
  missing : ∀ id, m id = none →
    currentGet fuel head h id = some (.error (.assertion "c != NULL"))
  start : currentGet fuel head h main = some (.ok head)
  only : ∀ a, h a ≠ none → ∃ id, currentGet fuel head h id = some (.ok a)
  flags : ∀ (flag : Nat) (count : UInt32), 0 < count →
    currentChildrenHasFlag fuel head h flag count
      = some (.ok (count.toNat ≤ (m.withFlag main flag).ncard))

/-- A function on the records ends the program as the one on the map does, or both return, and
then `rel` holds of what they return. -/
def Follows (outcome : Option (CurrentOutcome A D)) (spec : Except CurrentStop (Threads D))
    (rel : CurrentHeap A D → Threads D → Prop) : Prop :=
  match spec with
  | .error stop => outcome = some (.error stop)
  | .ok m => ∃ h, outcome = some (.ok h) ∧ rel h m

theorem Follows.mono {outcome : Option (CurrentOutcome A D)}
    {spec : Except CurrentStop (Threads D)} {rel rel' : CurrentHeap A D → Threads D → Prop}
    (hf : Follows outcome spec rel) (hrel : ∀ h m, outcome = some (.ok h) → rel h m → rel' h m) :
    Follows outcome spec rel' := by
  cases spec with
  | error stop => exact hf
  | ok m =>
      obtain ⟨h, hout, hm⟩ := hf
      exact ⟨h, hout, hrel h m hout hm⟩

/-! ### The map of a list -/

/-- The map that a list is for. -/
def threadsOf (l : List (A × Current D)) : Threads D := fun id =>
  (l.find? fun y => y.2.workerId == id).map Prod.snd

variable {l l₁ l₂ : List (A × Current D)} {y : A × Current D}

theorem threadsOf_eq_none_iff {id : UInt64} :
    threadsOf l id = none ↔ id ∉ l.map fun y => y.2.workerId := by
  simp [threadsOf]

/-- A record that is not hidden by one before it. -/
theorem threadsOf_insert (hy : y.2.workerId ∉ l₁.map fun z => z.2.workerId) :
    threadsOf (l₁ ++ y :: l₂)
      = Function.update (threadsOf (l₁ ++ l₂)) y.2.workerId (some y.2) := by
  funext id
  by_cases hid : id = y.2.workerId
  · subst hid
    have hnone : l₁.find? (fun z => z.2.workerId == y.2.workerId) = none := by
      simpa using hy
    rw [Function.update_self, threadsOf, List.find?_append, hnone]
    simp
  · have hne : (y.2.workerId == id) = false := beq_eq_false_iff_ne.mpr (Ne.symm hid)
    rw [Function.update_of_ne hid, threadsOf, threadsOf, List.find?_append, List.find?_append,
      List.find?_cons, hne]

theorem threadsOf_modify (hy : y.2.workerId ∉ l₁.map fun z => z.2.workerId)
    (f : UInt32 → UInt32) :
    threadsOf (l₁ ++ (y.1, { y.2 with workerFlags := f y.2.workerFlags }) :: l₂)
      = Function.update (threadsOf (l₁ ++ y :: l₂)) y.2.workerId
          (some { y.2 with workerFlags := f y.2.workerFlags }) := by
  rw [threadsOf_insert hy, Function.update_idem]
  exact threadsOf_insert hy

theorem threadsOf_remove (hdistinct : ((l₁ ++ y :: l₂).map fun z => z.2.workerId).Nodup) :
    threadsOf (l₁ ++ l₂) = Function.update (threadsOf (l₁ ++ y :: l₂)) y.2.workerId none := by
  rw [List.map_append, List.map_cons, List.nodup_append, List.nodup_cons] at hdistinct
  obtain ⟨-, ⟨hlater, -⟩, hdisjoint⟩ := hdistinct
  have hearlier : y.2.workerId ∉ l₁.map fun z => z.2.workerId :=
    fun hmem => hdisjoint _ hmem _ List.mem_cons_self rfl
  have hnone : threadsOf (l₁ ++ l₂) y.2.workerId = none := by
    rw [threadsOf_eq_none_iff, List.map_append, List.mem_append]
    exact not_or.mpr ⟨hearlier, hlater⟩
  rw [threadsOf_insert hearlier, Function.update_idem, ← hnone, Function.update_eq_self]

/-- The record of an id, and where it stands. -/
theorem threadsOf_eq_some {id : UInt64} {record : Current D} (h : threadsOf l id = some record) :
    ∃ l₁ y l₂, l = l₁ ++ y :: l₂ ∧ y.2 = record ∧ y.2.workerId = id
      ∧ y.2.workerId ∉ l₁.map (fun z => z.2.workerId)
      ∧ (l.find? fun z => z.2.workerId == id) = some y := by
  obtain ⟨y, hfind, hrecord⟩ := Option.map_eq_some_iff.mp h
  obtain ⟨hid, l₁, l₂, hsplit, hbefore⟩ := List.find?_eq_some_iff_append.mp hfind
  refine ⟨l₁, y, l₂, hsplit, hrecord, beq_iff_eq.mp hid, ?_, hfind⟩
  intro hmem
  obtain ⟨z, hz, hzid⟩ := List.mem_map.mp hmem
  have hno := hbefore z hz
  rw [hzid, hid] at hno
  cases hno

theorem threadsOf_of_mem (hdistinct : (l.map fun z => z.2.workerId).Nodup) (hy : y ∈ l) :
    threadsOf l y.2.workerId = some y.2 := by
  obtain ⟨l₁, l₂, rfl⟩ := List.append_of_mem hy
  rw [List.map_append, List.map_cons, List.nodup_append] at hdistinct
  rw [threadsOf_insert fun hmem => hdistinct.2.2 _ hmem _ List.mem_cons_self rfl,
    Function.update_self]

/-! ### One operation -/

section

variable [DecidableEq A] {malloc : Nat → CurrentHeap A D → Option A} {allocated : Nat → Bool}
  {fuel : Nat} {head : A} {main : UInt64} {ids : List UInt64} {h : CurrentHeap A D}
  {x : A × Current D}

/-- The records are a list from the head on, and the map is the one of the list. -/
def HeapLists (head : A) (h : CurrentHeap A D) (m : Threads D) : Prop :=
  ∃ l, Listed h l ∧ l.head?.map Prod.fst = some head ∧ m = threadsOf l

omit [DecidableEq A] in
theorem CurrentInv.start (hi : CurrentInv head main ids h x l) :
    (x :: l).head?.map Prod.fst = some head := congrArg some hi.addr

omit [DecidableEq A] in
theorem CurrentInv.nodup_ids (hi : CurrentInv head main ids h x l) :
    ((x :: l).map fun y => y.2.workerId).Nodup := by
  rw [List.map_cons, hi.id, hi.workers]
  exact hi.distinct

theorem CurrentInv.setFlags_follows (hi : CurrentInv head main ids h x l)
    (hfuel : ids.length + 1 < fuel) (workerSelf : UInt64) (f : UInt32 → UInt32) :
    Follows (Ubwt.currentFlags fuel head h workerSelf f)
      (Threads.setFlags (threadsOf (x :: l)) workerSelf f) (HeapLists head) := by
  unfold Ubwt.currentFlags withCurrent Threads.setFlags
  rw [hi.walk hfuel]
  cases hm : threadsOf (x :: l) workerSelf with
  | none =>
      rw [Option.map_eq_none_iff.mp hm]
      exact rfl
  | some record =>
      obtain ⟨l₁, y, l₂, hsplit, rfl, rfl, hbefore, hfind⟩ := threadsOf_eq_some hm
      have hl := hi.listed
      have hstart := hi.start
      rw [hsplit] at hl hstart
      obtain ⟨h₁, hset, hlisted⟩ := hl.modifyVal
        (fun r => { r with workerFlags := f r.workerFlags })
      rw [hfind]
      dsimp only [Option.map_some]
      rw [hset]
      refine ⟨h₁, rfl, _, hlisted, ?_, ?_⟩
      · cases l₁ <;> exact hstart
      · rw [hsplit]
        exact (threadsOf_modify hbefore f).symm

omit [DecidableEq A] in
theorem CurrentInv.errorStop_follows (hi : CurrentInv head main ids h x l)
    (hfuel : ids.length + 1 < fuel) (workerSelf : UInt64) (stop : CurrentStop) :
    Follows (Ubwt.errorStop fuel head h workerSelf stop)
      ((threadsOf (x :: l)).errorStop workerSelf stop) (HeapLists head) := by
  unfold Ubwt.errorStop withCurrent Threads.errorStop threadsOf
  rw [hi.walk hfuel]
  cases (x :: l).find? fun y => y.2.workerId == workerSelf <;> exact rfl

/-- The record of a new thread stands behind the head, which has another id. -/
theorem CurrentInv.link_follows (hi : CurrentInv head main ids h x l) {c : A} (hc : h c = none)
    {workerSelf : UInt64} (data : D) (hfresh : workerSelf ≠ main) :
    Follows ((currentLink head h c (Threads.forked workerSelf data)).map Except.ok)
      (.ok (Function.update (threadsOf (x :: l)) workerSelf
        (some (Threads.forked workerSelf data)))) (HeapLists head) := by
  obtain ⟨h₁, hinsert, hlisted⟩ := hi.listed.insertAfter hc (Threads.forked workerSelf data)
  rw [hi.addr] at hinsert
  refine ⟨h₁, ?_, _, hlisted, congrArg some hi.addr, ?_⟩
  · rw [currentLink_eq]
    exact congrArg (Option.map Except.ok) hinsert
  · have hnot : workerSelf ∉ [x].map fun z => z.2.workerId := by
      rw [List.map_singleton, List.mem_singleton, hi.id]
      exact hfresh
    have hmap : threadsOf ([x] ++ (c, Threads.forked workerSelf data) :: l) = _ :=
      threadsOf_insert hnot
    exact hmap.symm

theorem CurrentInv.fork_follows (hi : CurrentInv head main ids h x l)
    (hfuel : ids.length + 1 < fuel) {c : Option A}
    (hc : ∀ a, c = some a → h a = none) {workerSelf : UInt64} (data : D) (calls : ForkCalls)
    (hfresh : workerSelf ≠ main) :
    Follows (Ubwt.currentFork fuel head h c workerSelf data calls)
      (Threads.fork c.isSome (threadsOf (x :: l)) workerSelf data calls) (HeapLists head) := by
  cases c with
  | none => exact hi.errorStop_follows hfuel workerSelf _
  | some c =>
      match calls with
      | .connector false _ => exact rfl
      | .connector true false => exact hi.errorStop_follows hfuel workerSelf _
      | .connector true true | .listener => exact hi.link_follows (hc c rfl) data hfresh

/-- The patches of a join fit the record, unless it is the head. -/
theorem CurrentInv.unlink_follows (hi : CurrentInv head main ids h x l)
    {l₁ l₂ : List (A × Current D)} {y : A × Current D} (hsplit : x :: l = l₁ ++ y :: l₂)
    (hne : y.2.workerId ≠ main) :
    ∃ h', currentUnlink h y.1 = some (.ok h')
      ∧ HeapLists head h' (Function.update (threadsOf (x :: l)) y.2.workerId none) := by
  cases l₁ with
  | nil =>
      obtain ⟨rfl, rfl⟩ := List.cons.inj hsplit
      exact absurd hi.id hne
  | cons z l₁ =>
      have hl := hi.listed
      have hdistinct := hi.nodup_ids
      have hstart := hi.start
      rw [hsplit] at hl hdistinct hstart
      obtain ⟨next, hy, -⟩ := hl.node
      obtain ⟨h₁, hunlink, hlisted⟩ := hl.remove (List.cons_ne_nil _ _)
      have hprev : lastOf none (z :: l₁) ≠ none := lastOf_ne_none (List.cons_ne_nil z l₁)
      refine ⟨free h₁ y.1, ?_, _, hlisted, hstart, ?_⟩
      · rw [currentUnlink_eq hy hprev, hunlink]
        rfl
      · rw [hsplit]
        exact (threadsOf_remove hdistinct).symm

theorem CurrentInv.join_follows (hi : CurrentInv head main ids h x l)
    (hfuel : ids.length + 1 < fuel) (workerSelf workerId : UInt64) :
    Follows (Ubwt.currentJoin fuel head h workerSelf workerId)
      (Threads.join main (threadsOf (x :: l)) workerSelf workerId) (HeapLists head) := by
  unfold Ubwt.currentJoin withCurrent Threads.join
  rw [hi.walk hfuel]
  cases hm : threadsOf (x :: l) workerId with
  | none =>
      rw [Option.map_eq_none_iff.mp hm]
      exact rfl
  | some record =>
      obtain ⟨l₁, y, l₂, hsplit, rfl, rfl, -, hfind⟩ := threadsOf_eq_some hm
      have hl := hi.listed
      rw [hsplit] at hl
      obtain ⟨next, hy, -⟩ := hl.node
      rw [hfind]
      dsimp only [Option.map_some, bind]
      rw [hy, Option.bind_some]
      dsimp only [Threads.joinStop]
      by_cases hself : (y.2.workerId == workerSelf) = true
      · rw [if_pos hself, if_pos hself]
        exact rfl
      rw [if_neg hself, if_neg hself]
      by_cases hrunning : bitTest y.2.workerFlags WorkerFlags.taskRunning.bit = true
      · rw [if_pos hrunning, if_pos hrunning]
        exact rfl
      rw [if_neg hrunning, if_neg hrunning]
      by_cases hjoinable : (!bitTest y.2.workerFlags WorkerFlags.taskJoinable.bit) = true
      · rw [if_pos hjoinable, if_pos hjoinable]
        exact rfl
      rw [if_neg hjoinable, if_neg hjoinable]
      by_cases hmain : y.2.workerId = main
      · rw [if_pos (beq_iff_eq.mpr hmain)]
        -- The record with the id of main is the head, which has none before it.
        have hnil : l₁ = [] := by
          cases l₁ with
          | nil => rfl
          | cons z l₁ =>
              obtain ⟨rfl, rfl⟩ := List.cons.inj hsplit
              have hdistinct := hi.nodup_ids
              rw [List.map_cons, List.nodup_cons, hi.id] at hdistinct
              exact absurd (List.mem_map.mpr ⟨y, by simp, hmain⟩) hdistinct.1
        subst hnil
        rw [currentUnlink, hy]
        exact rfl
      · rw [if_neg (mt beq_iff_eq.mp hmain)]
        exact hi.unlink_follows hsplit hmain

theorem CurrentInv.step_follows (hi : CurrentInv head main ids h x l)
    (hmalloc : ∀ k h a, malloc k h = some a → h a = none)
    (hallocated : ∀ k h l, Listed h l → (malloc k h).isSome = allocated k)
    (hfuel : ids.length + 1 < fuel) (k : Nat) (op : CurrentOp D)
    (hfork : ∀ id data calls, op = .fork id data calls → id ≠ main) :
    Follows (Ubwt.currentStep malloc fuel head k h op)
      (Threads.step main (allocated k) (threadsOf (x :: l)) op) (HeapLists head) := by
  cases op with
  | fork workerSelf data calls =>
      rw [← hallocated k h _ hi.listed]
      exact hi.fork_follows hfuel (hmalloc k h) data calls (hfork workerSelf data calls rfl)
  | runningSet workerSelf =>
      unfold Ubwt.currentStep Threads.step currentRunningSet
      exact hi.setFlags_follows hfuel workerSelf _
  | runningUnset workerSelf =>
      unfold Ubwt.currentStep Threads.step currentRunningUnset
      exact hi.setFlags_follows hfuel workerSelf _
  | exit workerSelf =>
      unfold Ubwt.currentStep Threads.step currentExit
      exact hi.setFlags_follows hfuel workerSelf _
  | join workerSelf workerId => exact hi.join_follows hfuel workerSelf workerId

/-! ### Every sequence of operations -/

/-- The records are the list of the threads, and the map is the one of the list. -/
def Represents (fuel : Nat) (head : A) (main : UInt64) (ids : List UInt64) (h : CurrentHeap A D)
    (m : Threads D) : Prop :=
  ids.length + 1 < fuel ∧ ∃ x l, CurrentInv head main ids h x l ∧ m = threadsOf (x :: l)

/-- The run rule: one operation after the other, by induction. -/
theorem CurrentInv.run_follows (hmalloc : ∀ k h a, malloc k h = some a → h a = none)
    (hallocated : ∀ k h l, Listed h l → (malloc k h).isSome = allocated k)
    (ops : List (CurrentOp D)) (k : Nat) (hi : CurrentInv head main ids h x l)
    (hfuel : ids.length + ops.length + 1 < fuel) (hforks : ForksDistinct main ids ops) :
    Follows (Ubwt.currentRun malloc fuel head k ops h)
      (Threads.run main allocated k ops (threadsOf (x :: l)))
      (Represents fuel head main (ops.foldl workersAfter ids)) := by
  induction ops generalizing k ids h x l with
  | nil => exact ⟨h, rfl, hfuel, x, l, hi, rfl⟩
  | cons op ops ih =>
      obtain ⟨hfork, hforks⟩ := hforks
      rw [List.length_cons] at hfuel
      have hroom : ids.length + 1 < fuel := by omega
      have hstep := hi.step_follows hmalloc hallocated hroom k op
        fun id data calls heq => (hfork id data calls heq).1
      unfold Threads.run Ubwt.currentRun
      cases hspec : Threads.step main (allocated k) (threadsOf (x :: l)) op with
      | error stop =>
          rw [hspec] at hstep
          rw [show Ubwt.currentStep malloc fuel head k h op = some (.error stop) from hstep]
          exact rfl
      | ok m =>
          rw [hspec] at hstep
          obtain ⟨h₁, hout, l', hlisted, hstart, hm⟩ := hstep
          obtain ⟨outcome, heq, hinv⟩ := hi.currentStep hmalloc hroom k op hfork
          rw [hout] at heq
          cases heq
          obtain ⟨x₁, l₁, hi₁⟩ := hinv h₁ rfl
          -- The invariant and the step speak of the same list.
          have hl' : x₁ :: l₁ = l' := hi₁.listed.unique hlisted (hi₁.start.trans hstart.symm)
          have hlen := length_workersAfter ids op
          rw [hout, hm, ← hl']
          refine ih (k + 1) hi₁ ?_ hforks
          omega

omit [DecidableEq A] in
/-- The threads with a flag are the workers of the list that have it. -/
theorem CurrentInv.withFlag_ncard (hi : CurrentInv head main ids h x l) (flag : Nat) :
    ((threadsOf (x :: l)).withFlag main flag).ncard
      = l.countP fun y => bitTest y.2.workerFlags flag := by
  have hset : (threadsOf (x :: l)).withFlag main flag
      = ↑((l.filter fun y => bitTest y.2.workerFlags flag).map fun y => y.2.workerId).toFinset := by
    ext id
    simp only [Threads.withFlag, Set.mem_ofPred_eq, List.coe_toFinset, List.mem_map,
      List.mem_filter]
    constructor
    · intro hid
      obtain ⟨hne, record, hrecord, hflag⟩ := hid
      obtain ⟨l₁, y, l₂, hsplit, rfl, rfl, -, -⟩ := threadsOf_eq_some hrecord
      have hmem : y ∈ x :: l := by rw [hsplit]; simp
      rcases List.mem_cons.mp hmem with rfl | hmem
      · exact absurd hi.id hne
      · exact ⟨y, ⟨hmem, hflag⟩, rfl⟩
    · intro hid
      obtain ⟨y, ⟨hmem, hflag⟩, rfl⟩ := hid
      have hdistinct := hi.nodup_ids
      refine ⟨?_, y.2, ?_, hflag⟩
      · rw [List.map_cons, List.nodup_cons, hi.id] at hdistinct
        intro heq
        exact hdistinct.1 (List.mem_map.mpr ⟨y, hmem, heq⟩)
      · exact threadsOf_of_mem hdistinct (List.mem_cons_of_mem x hmem)
  have hnodup : ((l.filter fun y => bitTest y.2.workerFlags flag).map
      fun y => y.2.workerId).Nodup := by
    have hdistinct := hi.nodup_ids
    rw [List.map_cons, List.nodup_cons] at hdistinct
    exact (List.filter_sublist.map _).nodup hdistinct.2
  rw [hset, Set.ncard_coe_finset, List.toFinset_card_of_nodup hnodup, List.length_map,
    List.countP_eq_length_filter]

omit [DecidableEq A] in
theorem Represents.view {m : Threads D} (hr : Represents fuel head main ids h m) :
    ThreadsView fuel head main h m := by
  obtain ⟨hfuel, x, l, hi, rfl⟩ := hr
  have hthreads : ThreadList head h (x :: l) := ⟨hi.listed, hi.start, hi.nodup_ids⟩
  have hlen : (x :: l).length < fuel := by
    rw [List.length_cons, ← List.length_map (fun y : A × Current D => y.2.workerId), hi.workers]
    exact hfuel
  constructor
  · intro id record hrecord
    obtain ⟨l₁, y, l₂, hsplit, rfl, rfl, -, -⟩ := threadsOf_eq_some hrecord
    have hmem : y ∈ x :: l := by rw [hsplit]; simp
    exact ⟨y.1, hthreads.withCurrent_eq hlen hmem _, hi.listed.val hmem⟩
  · intro id hnone
    rw [currentGet, withCurrent, hi.walk hfuel, Option.map_eq_none_iff.mp hnone]
    rfl
  · have hhead : currentGet fuel head h x.2.workerId = some (.ok x.1) :=
      hthreads.withCurrent_eq hlen List.mem_cons_self _
    rw [hi.addr, hi.id] at hhead
    exact hhead
  · intro a ha
    obtain ⟨record, hmem⟩ := mem_keys.mp (hi.listed.only a ha)
    exact ⟨record.workerId, hthreads.withCurrent_eq hlen hmem _⟩
  · intro flag count hcount
    rw [hi.withFlag_ncard flag]
    exact hi.childrenHasFlag hfuel flag hcount

theorem currentRun_threadsView (hmalloc : ∀ k h a, malloc k h = some a → h a = none)
    (hallocated : ∀ k h l, Listed h l → (malloc k h).isSome = allocated k) (head : A) (data : D)
    {ops : List (CurrentOp D)} (hforks : ForksDistinct main [] ops)
    (hfuel : ops.length + 1 < fuel) :
    Follows (currentRun malloc fuel head 0 ops (currentInit head main data))
      (Threads.run main allocated 0 ops (Threads.init main data))
      (ThreadsView fuel head main) := by
  have hinsert : threadsOf ([] ++ (head, (⟨main, 0, data⟩ : Current D)) :: []) = _ :=
    threadsOf_insert List.not_mem_nil
  have hinit : Threads.init main data = threadsOf [(head, ⟨main, 0, data⟩)] := hinsert.symm
  rw [hinit]
  refine Follows.mono ((currentInit_inv head main data).run_follows hmalloc hallocated ops 0 ?_
    hforks) fun _ _ _ hr => hr.view
  rw [List.length_nil, Nat.zero_add]
  exact hfuel

end

/-! ### A memory with room -/

open Classical in
/-- A `malloc()` that finds the first free address. -/
noncomputable def firstFree (_ : Nat) (h : CurrentHeap Nat D) : Option Nat :=
  if hfree : ∃ a, h a = none then some (Nat.find hfree) else none

theorem firstFree_free {k a : Nat} {h : CurrentHeap Nat D} (heq : firstFree k h = some a) :
    h a = none := by
  unfold firstFree at heq
  split at heq
  · cases heq
    exact Nat.find_spec (p := fun a => h a = none) _
  · cases heq

/-- A heap that is a list has room. -/
theorem firstFree_isSome {k : Nat} {h : CurrentHeap Nat D} {l : List (Nat × Current D)}
    (hl : Listed h l) : (firstFree k h).isSome = true := by
  have hfree : ∃ a, h a = none := by
    obtain ⟨a, ha⟩ := Infinite.exists_notMem_finset (l.map Prod.fst).toFinset
    refine ⟨a, ?_⟩
    by_contra hne
    exact ha (List.mem_toFinset.mpr (hl.only a hne))
  simp [firstFree, hfree]

variable [DecidableEq A]

/-- **The list is the map.** For every sequence of operations in which the forked ids are
distinct, and whichever system calls fail: the functions on the records and links end the program
where those on the map do, with the same assertion or error, and if they return, what the users of
the list see is the map, and no other record is left in memory. -/
theorem currentRun_threads (malloc : Nat → CurrentHeap A D → Option A)
    (hmalloc : ∀ k h a, malloc k h = some a → h a = none) (allocated : Nat → Bool)
    (hallocated : ∀ k h l, Listed h l → (malloc k h).isSome = allocated k) (head : A)
    (main : UInt64) (data : D) (ops : List (CurrentOp D)) (hforks : ForksDistinct main [] ops)
    (fuel : Nat) (hfuel : ops.length + 1 < fuel) :
    Follows (currentRun malloc fuel head 0 ops (currentInit head main data))
      (Threads.run main allocated 0 ops (Threads.init main data))
      (ThreadsView fuel head main) :=
  currentRun_threadsView hmalloc hallocated head data hforks hfuel

/-- Main joins the first of two workers when it has ended, in a memory with room. -/
theorem currentRun_threads_two : ∃ malloc h m,
    Threads.run 1 (fun _ => true) 0 [.fork 2 (), .fork 3 (), .runningSet 2, .exit 2, .join 1 2]
        (Threads.init 1 ()) = .ok m
    ∧ currentRun malloc 10 0 0 [.fork 2 (), .fork 3 (), .runningSet 2, .exit 2, .join 1 2]
        (currentInit 0 1 ()) = some (.ok h)
    ∧ ThreadsView 10 0 1 h m ∧ m 2 = none ∧ m 3 = some (Threads.forked 3 ()) := by
  have hforks : ForksDistinct 1 [] [.fork 2 (), .fork 3 (), .runningSet 2, .exit 2, .join 1 2] := by
    simp [ForksDistinct, workersAfter]
  obtain ⟨h, hrun, hview⟩ := currentRun_threads firstFree (fun _ _ _ => firstFree_free)
    (fun _ => true) (fun _ _ _ => firstFree_isSome) 0 1 () _ hforks 10 (by decide)
  exact ⟨_, h, _, rfl, hrun, hview, rfl, rfl⟩

end Ubwt
