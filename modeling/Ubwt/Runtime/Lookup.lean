import Ubwt.Runtime.Current

/-!
# Ubwt.Runtime.Lookup

`current_get()` in the build with `UBWT_CONFIG_PTHREAD_LOCAL_STORAGE`, and the two functions that
look for the record of another thread, `worker_cancel()` and `worker_is_cancelled()`.

A worker keeps the record that its first lookup found, **whatever it asks for later, and whatever
has become of that record**. So a later lookup is right exactly if that record is now the one of the
thread it asks for (`lookupRight_iff`): as long as the thread that was looked up first has not been
joined, if it is for the same id. The main thread keeps nothing. All lookups in the program but
those two are for the own id, and these are right (`ThreadRun.lookupRight_self`).
-/

namespace Ubwt

open Lib Lib.LinkedList

variable {A D : Type}

/-! ### current.c and worker.c -/

section

variable (fuel : Nat) (head : A) (h : CurrentHeap A D)

/-- `current_get()` in the build without thread-local storage. -/
def currentGet (workerId : UInt64) : Option (Except CurrentStop A) :=
  withCurrent fuel head h workerId fun c => some (.ok c)

/-- `current_im_main()`. -/
def currentImMain (workerSelf : UInt64) : Option Bool :=
  (h head).map fun record => record.val.workerId == workerSelf

/-- `current_get()` in the build with thread-local storage, called by `workerSelf`, whose value of
`__worker_key_cptr` is `cptr`: the record, and the value of the key after it. -/
def currentGetLocal (workerSelf : UInt64) (cptr : Option A) (workerId : UInt64) :
    Option (Except CurrentStop (A × Option A)) :=
  match currentImMain head h workerSelf with
  | none => none
  -- No local thread storage for the main thread.
  | some true => withCurrent fuel head h workerId fun c => some (.ok (c, cptr))
  | some false =>
      match cptr with
      | some c => some (.ok (c, some c))
      | none => withCurrent fuel head h workerId fun c => some (.ok (c, some c))

/-- `worker_cancel()`, up to the call of `pthread_cancel()`. -/
def workerCancel [DecidableEq A] (workerSelf : UInt64) (cptr : Option A) (tid : UInt64) :
    Option (CurrentOutcome A D) :=
  match currentGetLocal fuel head h workerSelf cptr tid with
  | none => none
  | some (.error stop) => some (.error stop)
  | some (.ok (c, _)) =>
      (modifyVal h c fun r =>
        { r with workerFlags := bitSet r.workerFlags WorkerFlags.cancelRequested.bit }).map .ok

/-- `worker_is_cancelled()`. -/
def workerIsCancelled (workerSelf : UInt64) (cptr : Option A) (tid : UInt64) :
    Option (Except CurrentStop Bool) :=
  match currentGetLocal fuel head h workerSelf cptr tid with
  | none => none
  | some (.error stop) => some (.error stop)
  | some (.ok (c, _)) =>
      (h c).map fun record =>
        .ok (bitTest record.val.workerFlags WorkerFlags.cancelCompleted.bit)

end

/-! ### Right lookups -/

/-- A list of threads with distinct ids. -/
structure ThreadList (head : A) (h : CurrentHeap A D) (l : List (A × Current D)) : Prop where
  listed : Listed h l
  start : l.head?.map Prod.fst = some head
  distinct : (l.map fun x => x.2.workerId).Nodup

/-- A lookup of `workerId` returns its record, as the walk over the list does, and the functions
that act on the record of another thread act on it. -/
structure LookupRight [DecidableEq A] (fuel : Nat) (head : A) (h : CurrentHeap A D)
    (l : List (A × Current D)) (workerSelf : UInt64) (cptr : Option A) (workerId : UInt64) :
    Prop where
  walk : ∀ c record, (c, record) ∈ l → record.workerId = workerId →
    currentGet fuel head h workerId = some (.ok c)
  lookup : ∀ c record, (c, record) ∈ l → record.workerId = workerId →
    ∃ cptr', currentGetLocal fuel head h workerSelf cptr workerId = some (.ok (c, cptr'))
  cancel : ∀ c record, (c, record) ∈ l → record.workerId = workerId →
    workerCancel fuel head h workerSelf cptr workerId
      = (modifyVal h c fun r =>
          { r with workerFlags := bitSet r.workerFlags WorkerFlags.cancelRequested.bit }).map .ok
  isCancelled : ∀ c record, (c, record) ∈ l → record.workerId = workerId →
    workerIsCancelled fuel head h workerSelf cptr workerId
      = some (.ok (bitTest record.workerFlags WorkerFlags.cancelCompleted.bit))

/-- The first lookup of a thread: the id, the records at the time, and the operations on the list
since. -/
structure FirstLookup (A D : Type) where
  workerId : UInt64
  heap : CurrentHeap A D
  since : List (CurrentOp D)

/-- A run in which a thread looks records up while the threads operate on the list: what its first
lookup was, if it has made one, the records now, and the value of its key. It starts with any list
of threads; a thread is forked under an id that no thread has. Which flags an operation changes
does not matter to a lookup. -/
inductive ThreadRun [DecidableEq A] (malloc : Nat → CurrentHeap A D → Option A) (fuel : Nat)
    (head : A) (workerSelf : UInt64) :
    Option (FirstLookup A D) → CurrentHeap A D → Option A → Prop
  | start {h l} (hl : ThreadList head h l) : ThreadRun malloc fuel head workerSelf none h none
  | op {first h cptr h'} (k : Nat) (op : CurrentOp D)
      (hrun : ThreadRun malloc fuel head workerSelf first h cptr)
      (hfork : ∀ id data calls, op = .fork id data calls →
        currentWalk fuel head h id = some none)
      (hstep : currentStep malloc fuel head k h op = some (.ok h')) :
      ThreadRun malloc fuel head workerSelf
        (first.map fun f => { f with since := f.since ++ [op] }) h' cptr
  | lookup {first h cptr c cptr'} (workerId : UInt64)
      (hrun : ThreadRun malloc fuel head workerSelf first h cptr)
      (hget : currentGetLocal fuel head h workerSelf cptr workerId = some (.ok (c, cptr'))) :
      ThreadRun malloc fuel head workerSelf (some (first.getD ⟨workerId, h, []⟩)) h cptr'

/-- The thread has been joined. -/
def JoinedIn (ops : List (CurrentOp D)) (workerId : UInt64) : Prop :=
  ∃ workerSelf, CurrentOp.join workerSelf workerId ∈ ops

variable {fuel : Nat} {head : A} {h h' : CurrentHeap A D} {l : List (A × Current D)}
  {workerSelf workerId : UInt64} {cptr cptr' : Option A} {c : A} {record : Current D}

/-- The walk finds the record with the id. -/
theorem ThreadList.walk_iff (hl : ThreadList head h l) (hfuel : l.length < fuel) :
    currentWalk fuel head h workerId = some (some c)
      ↔ ∃ record, (c, record) ∈ l ∧ record.workerId = workerId := by
  have hseg := hl.listed.seg
  rw [hl.start] at hseg
  have hfind : currentWalk fuel head h workerId
      = some ((l.find? fun x => x.2.workerId == workerId).map Prod.fst) := hseg.find _ hfuel
  rw [hfind, Option.some.injEq, Option.map_eq_some_iff]
  constructor
  · intro hy
    obtain ⟨y, hy, hyc⟩ := hy
    subst hyc
    have hid := List.find?_some hy
    exact ⟨y.2, List.mem_of_find?_eq_some hy, beq_iff_eq.mp hid⟩
  · intro hrecord
    obtain ⟨record, hmem, hid⟩ := hrecord
    have hsome : (l.find? fun x => x.2.workerId == workerId).isSome :=
      List.find?_isSome.mpr ⟨(c, record), hmem, beq_iff_eq.mpr hid⟩
    obtain ⟨y, hy⟩ := Option.isSome_iff_exists.mp hsome
    have hyid := List.find?_some hy
    have hids : y.2.workerId = record.workerId := (beq_iff_eq.mp hyid).trans hid.symm
    have heq := List.inj_on_of_nodup_map hl.distinct (List.mem_of_find?_eq_some hy) hmem hids
    exact ⟨y, hy, congrArg Prod.fst heq⟩

theorem ThreadList.withCurrent_eq (hl : ThreadList head h l) (hfuel : l.length < fuel)
    (hmem : (c, record) ∈ l) {α : Type} (k : A → Option (Except CurrentStop α)) :
    withCurrent fuel head h record.workerId k = k c := by
  rw [withCurrent, (hl.walk_iff hfuel).mpr ⟨record, hmem, rfl⟩]

theorem ThreadList.addr_unique (hl : ThreadList head h l) {record' : Current D}
    (hmem : (c, record) ∈ l) (hmem' : (c, record') ∈ l) : record = record' :=
  congrArg Prod.snd (List.inj_on_of_nodup_map hl.listed.nodup hmem hmem' rfl)

/-- Everything follows from the record that the lookup returns. -/
theorem ThreadList.lookupRight [DecidableEq A] (hl : ThreadList head h l) (hfuel : l.length < fuel)
    (hlookup : ∀ c record, (c, record) ∈ l → record.workerId = workerId →
      ∃ cptr', currentGetLocal fuel head h workerSelf cptr workerId = some (.ok (c, cptr'))) :
    LookupRight fuel head h l workerSelf cptr workerId where
  walk := by
    intro c record hmem hid
    subst hid
    exact hl.withCurrent_eq hfuel hmem _
  lookup := hlookup
  cancel := by
    intro c record hmem hid
    obtain ⟨cptr', hlocal⟩ := hlookup c record hmem hid
    rw [workerCancel, hlocal]
  isCancelled := by
    intro c record hmem hid
    obtain ⟨cptr', hlocal⟩ := hlookup c record hmem hid
    obtain ⟨n, hn, hval⟩ := Option.map_eq_some_iff.mp (hl.listed.val hmem)
    rw [workerIsCancelled, hlocal]
    dsimp only
    rw [hn, Option.map_some, hval]

/-! ### Lists that change -/

/-- A walk that returned an address found a record with the id there. -/
theorem ThreadList.of_walk (hl : ThreadList head h l)
    (hwalk : currentWalk fuel head h workerId = some (some c)) :
    ∃ record, (c, record) ∈ l ∧ record.workerId = workerId := by
  have hseg := hl.listed.seg
  rw [hl.start] at hseg
  obtain ⟨y, hy, rfl⟩ := Option.map_eq_some_iff.mp (hseg.find_eq hwalk).symm
  have hid := List.find?_some hy
  exact ⟨y.2, List.mem_of_find?_eq_some hy, beq_iff_eq.mp hid⟩

theorem ThreadList.not_mem_of_walk (hl : ThreadList head h l)
    (hwalk : currentWalk fuel head h workerId = some none) :
    workerId ∉ l.map fun x => x.2.workerId := by
  have hseg := hl.listed.seg
  rw [hl.start] at hseg
  have hnone := Option.map_eq_none_iff.mp (hseg.find_eq hwalk).symm
  simpa using hnone

/-- What an operation leaves of a list: the main thread, and every other thread at its address,
unless it is joined. -/
structure ListKept (op : CurrentOp D) (l l' : List (A × Current D)) : Prop where
  main : l'.head?.map (fun x => x.2.workerId) = l.head?.map fun x => x.2.workerId
  other : ∀ c record, (c, record) ∈ l → (∀ workerSelf, op ≠ .join workerSelf record.workerId) →
    ∃ record', (c, record') ∈ l' ∧ record'.workerId = record.workerId

section

variable [DecidableEq A]

theorem ThreadList.currentFlags (hl : ThreadList head h l) {f : UInt32 → UInt32}
    (hset : Ubwt.currentFlags fuel head h workerSelf f = some (.ok h')) (op : CurrentOp D) :
    ∃ l', ThreadList head h' l' ∧ ListKept op l l' := by
  unfold Ubwt.currentFlags withCurrent at hset
  cases hwalk : currentWalk fuel head h workerSelf with
  | none => rw [hwalk] at hset; cases hset
  | some found =>
      cases found with
      | none => rw [hwalk] at hset; cases hset
      | some c =>
          rw [hwalk] at hset
          obtain ⟨record, hmem, -⟩ := hl.of_walk hwalk
          obtain ⟨l₁, l₂, rfl⟩ := List.append_of_mem hmem
          obtain ⟨h₁, hmodify, hlisted⟩ := hl.listed.modifyVal
            (fun r => { r with workerFlags := f r.workerFlags })
          dsimp only at hset
          rw [hmodify] at hset
          cases hset
          have hids : (l₁ ++ (c, { record with workerFlags := f record.workerFlags }) :: l₂).map
              (fun x => (x.1, x.2.workerId)) = (l₁ ++ (c, record) :: l₂).map
              fun x => (x.1, x.2.workerId) := by
            rw [List.map_append, List.map_append]
            rfl
          refine ⟨_, ⟨hlisted, ?_, ?_⟩, ?_, ?_⟩
          · rw [← hl.start]
            cases l₁ <;> rfl
          · have hdistinct := hl.distinct
            rwa [show (fun x : A × Current D => x.2.workerId)
              = Prod.snd ∘ fun x => (x.1, x.2.workerId) from rfl, ← List.map_map, ← hids,
              List.map_map] at hdistinct
          · cases l₁ <;> rfl
          · intro c' record' hmem' _
            have hplace : (c', record'.workerId) ∈ (l₁ ++ (c, record) :: l₂).map
                fun x => (x.1, x.2.workerId) := List.mem_map.mpr ⟨_, hmem', rfl⟩
            rw [← hids] at hplace
            obtain ⟨x, hx, heq⟩ := List.mem_map.mp hplace
            obtain ⟨rfl, hid⟩ := Prod.mk.inj heq
            exact ⟨x.2, hx, hid⟩

theorem ThreadList.currentFork (hl : ThreadList head h l) {c : Option A}
    (hc : ∀ a, c = some a → h a = none) {data : D} {calls : ForkCalls}
    (hfresh : currentWalk fuel head h workerSelf = some none)
    (hfork : Ubwt.currentFork fuel head h c workerSelf data calls = some (.ok h'))
    (op : CurrentOp D) : ∃ l', ThreadList head h' l' ∧ ListKept op l l' := by
  rcases currentFork_cases (c := c) hfresh data calls with ⟨stop, hstop⟩ | ⟨c, rfl, hlink⟩
  · rw [hstop] at hfork
    cases hfork
  · obtain ⟨x, l, rfl⟩ : ∃ x l', l = x :: l' := by
      cases l with
      | nil => cases hl.start
      | cons x l => exact ⟨x, l, rfl⟩
    have haddr : x.1 = head := Option.some.inj hl.start
    obtain ⟨h₁, hinsert, hlisted⟩ := hl.listed.insertAfter (hc c rfl) (⟨workerSelf,
      bitSet (bitSet 0 WorkerFlags.typeChild.bit) WorkerFlags.taskReady.bit, data⟩ : Current D)
    rw [haddr] at hinsert
    rw [hlink, hinsert] at hfork
    cases hfork
    refine ⟨_, ⟨hlisted, congrArg some haddr, ?_⟩, rfl, ?_⟩
    · have hnot := hl.not_mem_of_walk hfresh
      have hdistinct := hl.distinct
      simp only [List.map_cons, List.mem_cons, not_or, List.nodup_cons] at hnot hdistinct ⊢
      exact ⟨⟨fun heq => hnot.1 heq.symm, hdistinct.1⟩, hnot.2, hdistinct.2⟩
    · intro c' record' hmem _
      refine ⟨record', ?_, rfl⟩
      simp only [List.mem_cons] at hmem ⊢
      tauto

theorem ThreadList.currentJoin (hl : ThreadList head h l)
    (hjoin : Ubwt.currentJoin fuel head h workerSelf workerId = some (.ok h')) :
    ∃ l', ThreadList head h' l' ∧ ListKept (.join workerSelf workerId) l l' := by
  unfold Ubwt.currentJoin withCurrent at hjoin
  cases hwalk : currentWalk fuel head h workerId with
  | none => rw [hwalk] at hjoin; cases hjoin
  | some found =>
      cases found with
      | none => rw [hwalk] at hjoin; cases hjoin
      | some c =>
          rw [hwalk] at hjoin
          obtain ⟨record, hmem, rfl⟩ := hl.of_walk hwalk
          obtain ⟨l₁, l₂, rfl⟩ := List.append_of_mem hmem
          obtain ⟨next, hnode, -⟩ := hl.listed.node
          simp only [hnode, bind, Option.bind_some] at hjoin
          split at hjoin
          · cases hjoin
          split at hjoin
          · cases hjoin
          split at hjoin
          · cases hjoin
          cases l₁ with
          | nil =>
              -- The record of the main thread has none before it.
              rw [currentUnlink, hnode] at hjoin
              cases hjoin
          | cons x l₁ =>
              have hprev : lastOf none (x :: l₁) ≠ none := lastOf_ne_none (List.cons_ne_nil x l₁)
              obtain ⟨h₁, hunlink, hlisted⟩ := hl.listed.remove (List.cons_ne_nil x l₁)
              rw [currentUnlink_eq hnode hprev, hunlink] at hjoin
              cases hjoin
              refine ⟨_, ⟨hlisted, hl.start, ?_⟩, rfl, ?_⟩
              · refine hl.distinct.sublist (List.Sublist.map _ ?_)
                exact List.Sublist.append_left (List.sublist_cons_self ..) _
              · intro c' record' hmem' hne
                refine ⟨record', ?_, rfl⟩
                rcases List.mem_append.mp hmem' with hmem' | hmem'
                · exact List.mem_append_left _ hmem'
                rcases List.mem_cons.mp hmem' with heq | hmem'
                · cases heq
                  exact absurd rfl (hne workerSelf)
                · exact List.mem_append_right _ hmem'

/-- **One operation** leaves a list of threads, which has those of before but one that it joins. -/
theorem ThreadList.step (hl : ThreadList head h l) {malloc : Nat → CurrentHeap A D → Option A}
    (hmalloc : ∀ k h a, malloc k h = some a → h a = none) {k : Nat} {op : CurrentOp D}
    (hfork : ∀ id data calls, op = .fork id data calls → currentWalk fuel head h id = some none)
    (hstep : currentStep malloc fuel head k h op = some (.ok h')) :
    ∃ l', ThreadList head h' l' ∧ ListKept op l l' := by
  cases op with
  | fork workerSelf data calls =>
      exact hl.currentFork (hmalloc k h) (hfork _ _ _ rfl) hstep _
  | runningSet workerSelf =>
      unfold currentStep currentRunningSet at hstep
      exact hl.currentFlags hstep _
  | runningUnset workerSelf =>
      unfold currentStep currentRunningUnset at hstep
      exact hl.currentFlags hstep _
  | exit workerSelf =>
      unfold currentStep currentExit at hstep
      exact hl.currentFlags hstep _
  | join workerSelf workerId => exact hl.currentJoin hstep

end

/-! ### A run -/

/-- A worker that has a record in its key gets it. -/
theorem currentGetLocal_cached (hmain : currentImMain head h workerSelf = some false) (c : A)
    (workerId : UInt64) :
    currentGetLocal fuel head h workerSelf (some c) workerId = some (.ok (c, some c)) := by
  rw [currentGetLocal, hmain]

/-- The invariant of a run: a list of threads, with the same main thread, the record that the first
lookup found, which is still the one of the thread unless the thread has been joined, and the key
of a worker, which is empty or has that record. -/
structure ThreadRunInv (fuel : Nat) (head : A) (main workerSelf : UInt64)
    (first : Option (FirstLookup A D)) (h : CurrentHeap A D) (cptr : Option A)
    (l : List (A × Current D)) : Prop where
  list : ThreadList head h l
  mainThread : l.head?.map (fun x => x.2.workerId) = some main
  unlooked : first = none → main ≠ workerSelf → cptr = none
  looked : ∀ f, first = some f → ∃ c, currentWalk fuel head f.heap f.workerId = some (some c)
    ∧ (main ≠ workerSelf → cptr = some c)
    ∧ (¬ JoinedIn f.since f.workerId → ∃ record, (c, record) ∈ l ∧ record.workerId = f.workerId)

variable {first : Option (FirstLookup A D)} {main : UInt64}

theorem ThreadRunInv.imMain (hi : ThreadRunInv fuel head main workerSelf first h cptr l) :
    currentImMain head h workerSelf = some (main == workerSelf) := by
  obtain ⟨x, hx, hmain⟩ := Option.map_eq_some_iff.mp hi.mainThread
  obtain ⟨n, hn, hval⟩ := Option.map_eq_some_iff.mp (hi.list.listed.val (List.mem_of_mem_head? hx))
  have hstart := hi.list.start
  rw [hx, Option.map_some] at hstart
  cases hstart
  rw [currentImMain, hn, Option.map_some, hval, hmain]

theorem ThreadRunInv.op (hi : ThreadRunInv fuel head main workerSelf first h cptr l)
    {op : CurrentOp D} {l' : List (A × Current D)} (hl' : ThreadList head h' l')
    (hkept : ListKept op l l') :
    ThreadRunInv fuel head main workerSelf
      (first.map fun f => { f with since := f.since ++ [op] }) h' cptr l' where
  list := hl'
  mainThread := hkept.main.trans hi.mainThread
  unlooked := fun hnone => hi.unlooked (Option.map_eq_none_iff.mp hnone)
  looked := by
    intro f hf
    obtain ⟨f, hfirst, rfl⟩ := Option.map_eq_some_iff.mp hf
    obtain ⟨c, hwalk, hcptr, hthere⟩ := hi.looked f hfirst
    refine ⟨c, hwalk, hcptr, ?_⟩
    intro hnot
    obtain ⟨record, hmem, hid⟩ :=
      hthere fun ⟨self, hjoin⟩ => hnot ⟨self, List.mem_append_left _ hjoin⟩
    obtain ⟨record', hmem', hid'⟩ := hkept.other c record hmem fun self heq =>
      hnot ⟨self, List.mem_append_right _ (by rw [heq, hid]; exact List.mem_singleton_self _)⟩
    exact ⟨record', hmem', hid'.trans hid⟩

/-- The key after a lookup, if it was empty or this is the main thread. -/
theorem currentGetLocal_walk {imMain : Bool} (hmain : currentImMain head h workerSelf = some imMain)
    (hempty : imMain = false → cptr = none)
    (hget : currentGetLocal fuel head h workerSelf cptr workerId = some (.ok (c, cptr'))) :
    currentWalk fuel head h workerId = some (some c) ∧ (imMain = false → cptr' = some c) := by
  unfold currentGetLocal at hget
  rw [hmain] at hget
  cases imMain with
  | true =>
      dsimp only [withCurrent] at hget
      split at hget
      · cases hget
      · cases hget
      · rename_i hwalk
        cases hget
        exact ⟨hwalk, Bool.noConfusion⟩
  | false =>
      rw [hempty rfl] at hget
      dsimp only [withCurrent] at hget
      split at hget
      · cases hget
      · cases hget
      · rename_i hwalk
        cases hget
        exact ⟨hwalk, fun _ => rfl⟩

theorem ThreadRunInv.lookup (hi : ThreadRunInv fuel head main workerSelf first h cptr l)
    (hget : currentGetLocal fuel head h workerSelf cptr workerId = some (.ok (c, cptr'))) :
    ThreadRunInv fuel head main workerSelf (some (first.getD ⟨workerId, h, []⟩)) h cptr' l where
  list := hi.list
  mainThread := hi.mainThread
  unlooked := fun hnone => by cases hnone
  looked := by
    intro f hf
    cases hf
    cases hfirst : first with
    | none =>
        obtain ⟨hwalk, hkey⟩ := currentGetLocal_walk hi.imMain
          (fun hne => hi.unlooked hfirst (beq_eq_false_iff_ne.mp hne)) hget
        exact ⟨c, hwalk, fun hne => hkey (beq_eq_false_iff_ne.mpr hne),
          fun _ => hi.list.of_walk hwalk⟩
    | some f =>
        obtain ⟨c₁, hwalk, hcptr, hthere⟩ := hi.looked f hfirst
        refine ⟨c₁, hwalk, ?_, hthere⟩
        intro hne
        have hmain := hi.imMain
        rw [beq_eq_false_iff_ne.mpr hne] at hmain
        rw [hcptr hne, currentGetLocal_cached hmain] at hget
        cases hget
        rfl

/-- The run rule. -/
theorem ThreadRun.inv [DecidableEq A] {malloc : Nat → CurrentHeap A D → Option A}
    (hmalloc : ∀ k h a, malloc k h = some a → h a = none)
    (hrun : ThreadRun malloc fuel head workerSelf first h cptr) :
    ∃ main l, ThreadRunInv fuel head main workerSelf first h cptr l := by
  induction hrun with
  | @start h l hl =>
      obtain ⟨x, hx, -⟩ := Option.map_eq_some_iff.mp hl.start
      exact ⟨x.2.workerId, l, hl, by rw [hx]; rfl, fun _ _ => rfl, fun f hf => by cases hf⟩
  | op k op _ hfork hstep ih =>
      obtain ⟨main, l, hi⟩ := ih
      obtain ⟨l', hl', hkept⟩ := hi.list.step hmalloc hfork hstep
      exact ⟨main, l', hi.op hl' hkept⟩
  | lookup workerId _ hget ih =>
      obtain ⟨main, l, hi⟩ := ih
      exact ⟨main, l, hi.lookup hget⟩

/-! ### Which lookups are right -/

/-- A lookup by the walk. -/
theorem ThreadList.lookupRight_of_walk [DecidableEq A] (hl : ThreadList head h l)
    (hfuel : l.length < fuel)
    (hwalks : ∀ workerId, ∃ key : A → Option A,
      currentGetLocal fuel head h workerSelf cptr workerId
        = withCurrent fuel head h workerId fun c => some (.ok (c, key c))) (workerId : UInt64) :
    LookupRight fuel head h l workerSelf cptr workerId := by
  refine hl.lookupRight hfuel ?_
  intro c record hmem hid
  subst hid
  obtain ⟨key, hkey⟩ := hwalks record.workerId
  exact ⟨key c, hkey.trans (hl.withCurrent_eq hfuel hmem _)⟩

/-- A lookup of a worker that has `c` in its key is right if `c` is the record that the walk
finds, and only then. -/
theorem ThreadList.lookupRight_cached [DecidableEq A] (hl : ThreadList head h l)
    (hfuel : l.length < fuel) (hmain : currentImMain head h workerSelf = some false)
    (hlive : workerId ∈ l.map fun x => x.2.workerId) :
    LookupRight fuel head h l workerSelf (some c) workerId
      ↔ currentWalk fuel head h workerId = some (some c) := by
  constructor
  · intro hright
    obtain ⟨⟨a, record⟩, hmem, hid⟩ := List.mem_map.mp hlive
    obtain ⟨cptr', hlocal⟩ := hright.lookup a record hmem hid
    rw [currentGetLocal_cached hmain] at hlocal
    cases hlocal
    exact (hl.walk_iff hfuel).mpr ⟨record, hmem, hid⟩
  · intro hwalk
    refine hl.lookupRight hfuel ?_
    intro a record hmem hid
    rw [(hl.walk_iff hfuel).mpr ⟨record, hmem, hid⟩] at hwalk
    cases hwalk
    exact ⟨some c, currentGetLocal_cached hmain c workerId⟩

theorem ThreadRunInv.lookupRight_iff_walk [DecidableEq A]
    (hi : ThreadRunInv fuel head main workerSelf first h cptr l) (hfuel : l.length < fuel)
    (hlive : workerId ∈ l.map fun x => x.2.workerId) :
    LookupRight fuel head h l workerSelf cptr workerId
      ↔ currentImMain head h workerSelf = some true ∨ first = none ∨ ∃ f, first = some f
        ∧ currentWalk fuel head f.heap f.workerId = currentWalk fuel head h workerId := by
  have hmain := hi.imMain
  cases himMain : main == workerSelf with
  | true =>
      rw [himMain] at hmain
      refine iff_of_true (hi.list.lookupRight_of_walk hfuel (fun id => ⟨fun _ => cptr, ?_⟩) _)
        (.inl hmain)
      unfold currentGetLocal
      rw [hmain]
  | false =>
      rw [himMain] at hmain
      have hne := beq_eq_false_iff_ne.mp himMain
      have hnot : currentImMain head h workerSelf ≠ some true := by
        rw [hmain]
        exact fun heq => by cases heq
      cases hfirst : first with
      | none =>
          refine iff_of_true (hi.list.lookupRight_of_walk hfuel (fun id => ⟨some, ?_⟩) _)
            (.inr (.inl rfl))
          unfold currentGetLocal
          rw [hmain, hi.unlooked hfirst hne]
      | some f =>
          obtain ⟨c, hwalk, hcptr, -⟩ := hi.looked f hfirst
          rw [hcptr hne, hi.list.lookupRight_cached hfuel hmain hlive]
          constructor
          · exact fun heq => .inr (.inr ⟨f, rfl, hwalk.trans heq.symm⟩)
          · rintro (htrue | hnone | ⟨f', hf', heq⟩)
            · exact absurd htrue hnot
            · cases hnone
            · cases hf'
              exact heq.symm.trans hwalk

/-- As long as the thread that was looked up first has not been joined, its record is the one that
was found. -/
theorem ThreadRunInv.walk_iff_of_not_joined
    (hi : ThreadRunInv fuel head main workerSelf first h cptr l) (hfuel : l.length < fuel)
    {f : FirstLookup A D} (hfirst : first = some f) (hnot : ¬ JoinedIn f.since f.workerId) :
    currentWalk fuel head f.heap f.workerId = currentWalk fuel head h workerId
      ↔ f.workerId = workerId := by
  obtain ⟨c, hwalk, -, hthere⟩ := hi.looked f hfirst
  obtain ⟨record, hmem, hid⟩ := hthere hnot
  rw [hwalk]
  constructor
  · intro heq
    obtain ⟨record', hmem', hid'⟩ := (hi.list.walk_iff hfuel).mp heq.symm
    rw [← hid, hi.list.addr_unique hmem hmem', hid']
  · intro heq
    exact ((hi.list.walk_iff hfuel).mpr ⟨record, hmem, hid.trans heq⟩).symm

theorem ThreadRun.inv_list [DecidableEq A] {malloc : Nat → CurrentHeap A D → Option A}
    (hmalloc : ∀ k h a, malloc k h = some a → h a = none)
    (hrun : ThreadRun malloc fuel head workerSelf first h cptr) (hl : ThreadList head h l) :
    ∃ main, ThreadRunInv fuel head main workerSelf first h cptr l := by
  obtain ⟨main, l', hi⟩ := hrun.inv hmalloc
  obtain rfl := hi.list.listed.unique hl.listed (hi.list.start.trans hl.start.symm)
  exact ⟨main, hi⟩

/-- A worker that has looked up nobody but itself, as the workers do, finds itself. -/
theorem ThreadRun.lookupRight_self [DecidableEq A] {malloc : Nat → CurrentHeap A D → Option A}
    (hmalloc : ∀ k h a, malloc k h = some a → h a = none)
    (hrun : ThreadRun malloc fuel head workerSelf first h cptr) (hl : ThreadList head h l)
    (hfuel : l.length < fuel) (hlive : workerSelf ∈ l.map fun x => x.2.workerId)
    (hown : ∀ f, first = some f → f.workerId = workerSelf ∧ ¬ JoinedIn f.since workerSelf) :
    LookupRight fuel head h l workerSelf cptr workerSelf := by
  obtain ⟨main, hi⟩ := hrun.inv_list hmalloc hl
  refine (hi.lookupRight_iff_walk hfuel hlive).mpr (.inr ?_)
  cases hfirst : first with
  | none => exact .inl rfl
  | some f =>
      obtain ⟨hid, hnot⟩ := hown f hfirst
      rw [← hid] at hnot
      exact .inr ⟨f, rfl, (hi.walk_iff_of_not_joined hfuel hfirst hnot).mpr hid⟩

/-- **The lookups that are right.** Whatever a thread has looked up before, and however the list has
changed in between, its lookup of a thread that is in the list returns the record of that thread,
and `worker_cancel` and `worker_is_cancelled` act on it, exactly if the caller is the main thread,
or this is its first lookup, or the record that its first lookup found is now the one of the thread
it asks for. As long as the thread looked up first has not been joined, that is the case exactly if
the first lookup was for the same id. -/
theorem lookupRight_iff [DecidableEq A] {malloc : Nat → CurrentHeap A D → Option A}
    (hmalloc : ∀ k h a, malloc k h = some a → h a = none)
    (hrun : ThreadRun malloc fuel head workerSelf first h cptr) (hl : ThreadList head h l)
    (hfuel : l.length < fuel) (hlive : workerId ∈ l.map fun x => x.2.workerId) :
    (LookupRight fuel head h l workerSelf cptr workerId
      ↔ currentImMain head h workerSelf = some true ∨ first = none ∨ ∃ f, first = some f
        ∧ currentWalk fuel head f.heap f.workerId = currentWalk fuel head h workerId)
    ∧ ∀ f, first = some f → ¬ JoinedIn f.since f.workerId →
        (currentWalk fuel head f.heap f.workerId = currentWalk fuel head h workerId
          ↔ f.workerId = workerId) := by
  obtain ⟨main, hi⟩ := hrun.inv_list hmalloc hl
  exact ⟨hi.lookupRight_iff_walk hfuel hlive, fun f hfirst hnot =>
    hi.walk_iff_of_not_joined hfuel hfirst hnot⟩

/-! ### The lists of the program -/

/-- Every list that operations of the program leave. -/
theorem currentRun_threadList [DecidableEq A] {malloc : Nat → CurrentHeap A D → Option A}
    (hmalloc : ∀ k h a, malloc k h = some a → h a = none) {main : UInt64} {data : D}
    {ops : List (CurrentOp D)} (hforks : ForksDistinct main [] ops) (hfuel : ops.length + 1 < fuel)
    (hrun : currentRun malloc fuel head 0 ops (currentInit head main data) = some (.ok h)) :
    ∃ l, ThreadList head h l ∧ l.map (fun x => x.2.workerId) = main :: forkedNotJoined ops
      ∧ l.length < fuel := by
  obtain ⟨outcome, heq, hout⟩ := (currentInit_inv head main data).currentRun hmalloc ops 0
    (by rw [List.length_nil, Nat.zero_add]; exact hfuel) hforks
  rw [hrun] at heq
  cases heq
  obtain ⟨x, l, hi, hlen⟩ := hout h rfl
  have hids : (x :: l).map (fun y => y.2.workerId) = main :: forkedNotJoined ops := by
    rw [List.map_cons, hi.id, hi.workers]
    rfl
  refine ⟨x :: l, ⟨hi.listed, congrArg some hi.addr, hids ▸ hi.distinct⟩, hids, ?_⟩
  rw [List.length_cons, ← List.length_map (fun y : A × Current D => y.2.workerId), hi.workers]
  exact hlen

/-- A `malloc()` that takes the addresses in their order. -/
def nextFree (k : Nat) (h : CurrentHeap Nat Unit) : Option Nat :=
  if h (k + 1) = none then some (k + 1) else none

theorem nextFree_free (k : Nat) (h : CurrentHeap Nat Unit) (a : Nat) (heq : nextFree k h = some a) :
    h a = none := by
  unfold nextFree at heq
  split at heq
  · cases heq
    assumption
  · cases heq

/-- Worker 2 is forked and looks itself up, and worker 3 is forked. -/
theorem threadRun_two : ∃ (h : CurrentHeap Nat Unit) (l : List (Nat × Current Unit))
    (first : FirstLookup Nat Unit),
    ThreadRun nextFree 10 0 2 (some first) h (some 1)
    ∧ first.workerId = 2 ∧ ¬ JoinedIn first.since 2
    ∧ ThreadList 0 h l ∧ l.map (fun x => x.2.workerId) = [1, 3, 2] ∧ l.length < 10
    ∧ currentImMain 0 h 2 = some false := by
  have hforks : ForksDistinct 1 [] [.fork 2 (), .fork 3 ()] := by
    simp [ForksDistinct, workersAfter]
  obtain ⟨h₁, h, hfork₂, hfork₃, hrun, hwalk₂, hwalk₃, hget, hmain⟩ :
      ∃ h₁ h : CurrentHeap Nat Unit,
        currentStep nextFree 10 0 0 (currentInit 0 1 ()) (.fork 2 ()) = some (.ok h₁)
        ∧ currentStep nextFree 10 0 1 h₁ (.fork 3 ()) = some (.ok h)
        ∧ currentRun nextFree 10 0 0 [.fork 2 (), .fork 3 ()] (currentInit 0 1 ()) = some (.ok h)
        ∧ currentWalk 10 0 (currentInit (D := Unit) 0 1 ()) 2 = some none
        ∧ currentWalk 10 0 h₁ 3 = some none
        ∧ currentGetLocal 10 0 h₁ 2 none 2 = some (.ok (1, some 1))
        ∧ currentImMain 0 h 2 = some false := ⟨_, _, rfl, rfl, rfl, rfl, rfl, rfl, rfl⟩
  obtain ⟨l, hl, hids, hlen⟩ := currentRun_threadList nextFree_free hforks (by decide) hrun
  have hrun₀ : currentRun nextFree 10 0 0 [] (currentInit 0 1 ())
      = some (.ok (currentInit 0 1 ())) := rfl
  have hnone : ForksDistinct 1 [] ([] : List (CurrentOp Unit)) := trivial
  obtain ⟨l₀, hl₀, -, -⟩ := currentRun_threadList nextFree_free hnone (by decide) hrun₀
  have hstart : ThreadRun nextFree 10 0 2 none (currentInit 0 1 ()) none := .start hl₀
  have hforked := hstart.op 0 (.fork 2 ()) (fun _ _ _ heq => by cases heq; exact hwalk₂) hfork₂
  have hlooked := hforked.lookup 2 hget
  have hlast := hlooked.op 1 (.fork 3 ()) (fun _ _ _ heq => by cases heq; exact hwalk₃) hfork₃
  refine ⟨h, l, _, hlast, rfl, ?_, hl, hids, hlen, hmain⟩
  rintro ⟨self, hjoin⟩
  exact absurd (List.mem_singleton.mp hjoin) (fun heq => by cases heq)

/-- Worker 2 looks itself up again. -/
theorem lookupRight_own : ∃ (h : CurrentHeap Nat Unit) (l : List (Nat × Current Unit))
    (first : FirstLookup Nat Unit),
    ThreadRun nextFree 10 0 2 (some first) h (some 1) ∧ first.workerId = 2
    ∧ l.map (fun x => x.2.workerId) = [1, 3, 2] ∧ LookupRight 10 0 h l 2 (some 1) 2 := by
  obtain ⟨h, l, first, hrun, hfirst, hnot, hl, hids, hlen, -⟩ := threadRun_two
  have hlive : (2 : UInt64) ∈ l.map fun x => x.2.workerId := by simp [hids]
  obtain ⟨hright, hsame⟩ := lookupRight_iff nextFree_free hrun hl hlen hlive
  rw [← hfirst] at hnot
  exact ⟨h, l, first, hrun, hfirst, hids,
    hright.mpr (.inr (.inr ⟨first, rfl, (hsame first rfl hnot).mpr hfirst⟩))⟩

/-- Worker 2 has looked itself up, then looks up worker 3, and finds itself. -/
theorem lookupRight_fails_sibling :
    ∃ (h : CurrentHeap Nat Unit) (l : List (Nat × Current Unit)) (first : FirstLookup Nat Unit),
      ThreadRun nextFree 10 0 2 (some first) h (some 1) ∧ first.workerId = 2
      ∧ ThreadList 0 h l ∧ l.map (fun x => x.2.workerId) = [1, 3, 2]
      ∧ currentGetLocal 10 0 h 2 (some 1) 3 = some (.ok (1, some 1))
      ∧ ¬ LookupRight 10 0 h l 2 (some 1) 3 := by
  obtain ⟨h, l, first, hrun, hfirst, hnot, hl, hids, hlen, hmain⟩ := threadRun_two
  refine ⟨h, l, first, hrun, hfirst, hl, hids, currentGetLocal_cached hmain 1 3, ?_⟩
  intro hright
  have hlive : (3 : UInt64) ∈ l.map fun x => x.2.workerId := by simp [hids]
  obtain ⟨hiff, hsame⟩ := lookupRight_iff nextFree_free hrun hl hlen hlive
  rw [← hfirst] at hnot
  rcases hiff.mp hright with htrue | hnone | ⟨f, hf, heq⟩
  · rw [hmain] at htrue
    cases htrue
  · cases hnone
  · cases hf
    have hid := (hsame first rfl hnot).mp heq
    rw [hfirst] at hid
    exact absurd hid (by decide)

end Ubwt
