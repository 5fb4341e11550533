import Ubwt.Worker.BarrierInv

/-!
# Ubwt.Worker.BarrierRuns

What the invariant of the custom barrier says about every run: the threads stay within one
generation of each other, one thread of each generation returns 1, the assertion holds,
and a generation that all threads have entered is always left (`BarrierInvAt.progress`).
-/

namespace Ubwt

open Lib

variable {N : Nat}

/-! ### Reachable states -/

theorem barrierInvAt_init (hN : 0 < N) : BarrierInvAt 0 (workerBarrierInit N) where
  total := rfl
  owner0 := fun _ => by simp [workerBarrierInit]
  owner1 := fun _ => by simp [workerBarrierInit]
  left := fun _ => .inl rfl
  waiting := (tally_eq_zero.mpr (fun _ => rfl)).symm
  count := by
    refine ((tally_eq_card.mpr (fun _ => ?_)).trans (by simp [workerBarrierInit])).symm
    rfl
  inside := fun _ h => by cases h
  leaving := fun h => by cases h
  arriving := fun _ _ => rfl
  knows := fun _ => trivial
  queue0 := fun _ h => by cases h
  queue1 := fun _ h => by cases h
  reset := fun h => absurd h (Nat.ne_of_gt hN)
  past := fun k hk => absurd hk (Nat.not_lt_zero k)
  now := fun i h => by simp [Barrier.results, workerBarrierInit] at h

/-- The invariant along every run. -/
theorem Barrier.Reachable.inv {s : Barrier N} (hN : 0 < N) (hr : s.Reachable) :
    ∃ g, BarrierInvAt g s := by
  induction hr with
  | refl => exact ⟨0, barrierInvAt_init hN⟩
  | tail _ hstep ih =>
      obtain ⟨g, h⟩ := ih
      cases hstep with
      | thread i hs => exact h.stepOf hs
      | spurious0 i hp =>
          refine ⟨g, h.quiet_goto i (Barrier.goto_owner h.owner0 ?_)
            (Barrier.goto_owner h.owner1 ?_) ?_ ?_ ?_ ?_ ?_ ?_ ?_ ?_⟩ <;> simp [hp]
      | spurious1 i hp =>
          refine ⟨g, h.quiet_goto i (Barrier.goto_owner h.owner0 ?_)
            (Barrier.goto_owner h.owner1 ?_) ?_ ?_ ?_ ?_ ?_ ?_ ?_ ?_⟩ <;> simp [hp]

section Consequences

variable {g : Nat} {s : Barrier N}

theorem Barrier.returned_le_left (s : Barrier N) (i : Fin N) : s.returned i ≤ s.left i := by
  simp [Barrier.returned, Barrier.left, Barrier.results]

theorem Barrier.left_le_entered (s : Barrier N) (i : Fin N) : s.left i ≤ s.entered i := by
  simp only [Barrier.left, Barrier.results, List.length_append, Barrier.entered]
  cases hp : s.pc i <;> simp

/-- No thread returns from a generation that some thread has not entered. -/
theorem BarrierInvAt.returned_le_entered (h : BarrierInvAt g s) (i j : Fin N) :
    s.returned i ≤ s.entered j := by
  have hi := s.returned_le_left i
  have hj := s.left_le_entered j
  rcases h.left i with hl | hl
  · have := h.left j
    omega
  · -- Thread `i` has left this generation, so `j` has left it too or is inside.
    have hb : s.blockR = true := by
      by_contra hclear
      have := h.arriving (Bool.of_not_eq_true hclear) i
      omega
    rcases h.left j with hlj | hlj
    · have hin := h.leaving hb j hlj
      have hent : s.entered j = s.left j + 1 := by
        simp only [Barrier.left, Barrier.results, List.length_append, Barrier.entered]
        cases hp : s.pc j <;> simp_all
      omega
    · omega

/-- At most one thread returns 1 from a generation, and one does once all have returned. -/
theorem BarrierInvAt.serial_unique (h : BarrierInvAt g s) {k : Nat} {i j : Fin N}
    (hi : (s.returns i)[k]? = some true) (hj : (s.returns j)[k]? = some true) : i = j := by
  have hres : ∀ l, (s.returns l)[k]? = some true → (s.results l)[k]? = some true ∧
      k < (s.returns l).length := by
    intro l hl
    obtain ⟨hlt, -⟩ := List.getElem?_eq_some_iff.mp hl
    exact ⟨by rw [Barrier.results, List.getElem?_append_left hlt, hl], hlt⟩
  by_cases hk : k < g
  · obtain ⟨_, -, huniq⟩ := h.past k hk
    exact (huniq i (hres i hi).1).trans (huniq j (hres j hj).1).symm
  · -- A thread that returns 1 from the current generation has not returned yet.
    have hlen := (hres i hi).2
    have hle := s.returned_le_left i
    have hkg : k = g := by
      have := h.left i
      unfold Barrier.returned at hle
      omega
    subst hkg
    have hreset := h.now i (hres i hi).1
    have hpend : (s.pc i).pending.length = 1 := by
      cases hp : s.pc i <;> simp_all
    have := h.left i
    simp only [Barrier.left, Barrier.results, List.length_append, hpend] at this
    omega

theorem BarrierInvAt.serial_exists (h : BarrierInvAt g s) {k : Nat}
    (hall : ∀ i, k < s.returned i) : ∃ i, (s.returns i)[k]? = some true := by
  have hkg : k < g := by
    by_contra hge
    -- Otherwise all threads have left this generation, and the one that resets has not returned.
    have hleft : ∀ i, s.left i = g + 1 ∧ s.returned i = g + 1 := by
      intro i
      have := hall i
      have := s.returned_le_left i
      have := h.left i
      omega
    have hzero : s.count = 0 := by
      rw [h.count]
      refine tally_eq_zero.mpr (fun i => ?_)
      simp [(hleft i).1]
    obtain ⟨j, hj⟩ := h.reset hzero
    have hpend : (s.pc j).pending.length = 1 := by
      cases hp : s.pc j <;> simp_all
    have hlj := hleft j
    simp only [Barrier.left, Barrier.results, List.length_append, hpend, Barrier.returned] at hlj
    omega
  obtain ⟨i, hi, -⟩ := h.past k hkg
  refine ⟨i, ?_⟩
  simp only [Barrier.results] at hi
  rwa [List.getElem?_append_left (hall i)] at hi

/-- Some thread that is in a call can go on. -/
def Barrier.Progress (s : Barrier N) : Prop :=
  ∃ i s', s.pc i ≠ .idle ∧ Barrier.StepOf i s s'

theorem Barrier.progress_of {i : Fin N} {s' : Barrier N} (hs : Barrier.StepOf i s s')
    (hp : s.pc i ≠ .idle) : s.Progress :=
  ⟨i, s', hp, hs⟩

/-- A thread that owns `mutex[0]` but not `mutex[1]` can go on, unless it waits for
`mutex[1]`. -/
theorem BarrierInvAt.progress_test0 {i : Fin N} (hp : s.pc i = .test0) : s.Progress := by
  by_cases hb : s.blockR = true
  · exact Barrier.progress_of (.block hp hb) (by simp [hp])
  · exact Barrier.progress_of (.pass hp (Bool.of_not_eq_true hb)) (by simp [hp])

/-- The owner of `mutex[1]` can go on, or the owner of `mutex[0]` it waits for can. -/
theorem BarrierInvAt.progress_owner1 (h : BarrierInvAt g s) {i : Fin N}
    (hi : (s.pc i).holds1 = true) : s.Progress := by
  have hk := h.knows i
  have hother : ∀ j, s.mutex0 = some j → (s.pc j).holds0 = true := fun j => (h.owner0 j).mp
  cases hp : s.pc i with
  | idle | lock0 | test0 | wait0 | lock1 | wait1 | relock1 => simp [hp] at hi
  | failed => simp [hp] at hk
  | arrive => exact Barrier.progress_of (.arrive hp) (by simp [hp])
  | unlock0 => exact Barrier.progress_of (.unlock0 hp) (by simp [hp])
  | test1 =>
      by_cases hw : s.waiting < s.count
      · exact Barrier.progress_of (.sleep hp hw) (by simp [hp])
      · exact Barrier.progress_of (.go hp hw) (by simp [hp])
  | check =>
      rw [hp] at hk
      by_cases hf : s.count = s.total
      · exact Barrier.progress_of (.first hp hk hf) (by simp [hp])
      · exact Barrier.progress_of (.notFirst hp hk hf) (by simp [hp])
  | firstLock =>
      rw [hp] at hk
      cases hm : s.mutex0 with
      | none => exact Barrier.progress_of (.firstLock hp hm) (by simp [hp])
      | some j =>
          -- All threads are inside, and a thread inside with `mutex[0]` has `mutex[1]` too.
          have hin : ∀ l, (s.pc l).inside = true := by
            refine tally_eq_card.mp ?_
            rw [← h.waiting, ← hk.1, hk.2]
            simp
          have hboth : (s.pc j).holds1 = true := by
            have hj := hother j hm
            have hinj := hin j
            cases hpj : s.pc j <;> simp_all
          have hji := h.owner1.unique (i := j) (j := i) hboth hi
          have hj := hother j hm
          rw [hji, hp] at hj
          cases hj
  | firstSet => exact Barrier.progress_of (.firstSet hp) (by simp [hp])
  | firstUnlock => exact Barrier.progress_of (.firstUnlock hp) (by simp [hp])
  | firstBroadcast => exact Barrier.progress_of (.firstBroadcast hp) (by simp [hp])
  | leave =>
      by_cases hl : s.count - 1 = 0
      · exact Barrier.progress_of (.leaveLast hp hl) (by simp [hp])
      · exact Barrier.progress_of (.leave hp hl) (by simp [hp])
  | lastLock =>
      rw [hp] at hk
      cases hm : s.mutex0 with
      | none => exact Barrier.progress_of (.lastLock hp hm) (by simp [hp])
      | some j =>
          -- `block_r` is set, so whoever owns `mutex[0]` is about to give it back.
          have hj := hother j hm
          have hji : j ≠ i := by
            rintro rfl
            rw [hp] at hj
            cases hj
          have hno : (s.pc j).holds1 = false := h.owner1.other hi hji
          have hkj := h.knows j
          have htest : s.pc j = .test0 := by
            cases hpj : s.pc j <;> simp_all
          exact progress_test0 htest
  | lastReset => exact Barrier.progress_of (.lastReset hp) (by simp [hp])
  | lastBroadcast => exact Barrier.progress_of (.lastBroadcast hp) (by simp [hp])
  | lastUnlock => exact Barrier.progress_of (.lastUnlock hp) (by simp [hp])
  | unlock1 serial => exact Barrier.progress_of (.unlock1 hp) (by simp [hp])

/-- Without an owner of `mutex[1]`, every thread outside the queues can go on. -/
theorem BarrierInvAt.progress_or_queued (h : BarrierInvAt g s) (hm : s.mutex1 = none) :
    s.Progress ∨ ∀ i, s.pc i = .idle ∨ s.pc i = .wait0 ∨ s.pc i = .wait1 := by
  have hno : ∀ i, (s.pc i).holds1 = false := by
    have hown := h.owner1
    rw [hm] at hown
    exact hown.free
  by_cases hp : s.Progress
  · exact .inl hp
  · refine .inr (fun i => ?_)
    have hi := hno i
    cases hpi : s.pc i with
    | idle => exact .inl rfl
    | wait0 => exact .inr (.inl rfl)
    | wait1 => exact .inr (.inr rfl)
    | relock1 => exact absurd (Barrier.progress_of (.relock1 hpi hm) (by simp [hpi])) hp
    | lock1 => exact absurd (Barrier.progress_of (.lock1 hpi hm) (by simp [hpi])) hp
    | test0 => exact absurd (progress_test0 hpi) hp
    | lock0 =>
        cases hm0 : s.mutex0 with
        | none => exact absurd (Barrier.progress_of (.lock0 hpi hm0) (by simp [hpi])) hp
        | some j =>
            have hj := (h.owner0 j).mp hm0
            have hnoj := hno j
            have hcase : s.pc j = .test0 ∨ s.pc j = .lock1 := by
              cases hpj : s.pc j <;> simp_all
            rcases hcase with hpj | hpj
            · exact absurd (progress_test0 hpj) hp
            · exact absurd (Barrier.progress_of (.lock1 hpj hm) (by simp [hpj])) hp
    | _ => simp [hpi] at hi

/-- **No deadlock and no lost wake-up**: in a generation that all threads have entered and
some have not returned from, some thread can go on. -/
theorem BarrierInvAt.progress (h : BarrierInvAt g s) {k : Nat} (hent : ∀ i, k < s.entered i)
    (hunf : ∃ j, s.returned j ≤ k) : s.Progress := by
  cases hm : s.mutex1 with
  | some i => exact h.progress_owner1 ((h.owner1 i).mp hm)
  | none =>
      have hno : ∀ i, (s.pc i).holds1 = false := by
        have hown := h.owner1
        rw [hm] at hown
        exact hown.free
      have hnone : ∀ j, (s.pc j).beforeBroadcast1 = false := by
        intro j
        by_contra hj
        have hholds := BarrierPc.holds1_of_beforeBroadcast1 _ (Bool.of_not_eq_false hj)
        rw [hno j] at hholds
        cases hholds
      have hqueue1 : ∀ i, s.pc i = .wait1 → s.waiting < s.count := by
        intro i hi
        refine (h.queue1 i hi).resolve_right ?_
        rintro ⟨-, j, hj⟩
        rw [hnone j] at hj
        cases hj
      refine (h.progress_or_queued hm).resolve_right (fun hq => ?_)
      by_cases hb : s.blockR = true
      · -- Some thread is still inside; it was woken up when `block_r` was set.
        have hcount : s.count ≠ 0 := by
          intro hzero
          obtain ⟨j, hj⟩ := h.reset hzero
          have hholds := BarrierPc.holds1_of_resets _ hj
          rw [hno j] at hholds
          cases hholds
        have hall : s.count ≤ s.waiting := by
          rw [h.waiting, h.count]
          exact tally_mono (fun j hj => h.leaving hb j (of_decide_eq_true hj))
        have hex : ∃ i, s.left i = g := by
          by_contra hnex
          refine hcount ?_
          rw [h.count]
          exact tally_eq_zero.mpr (fun i => decide_eq_false (fun hi => hnex ⟨i, hi⟩))
        obtain ⟨i, hi⟩ := hex
        have hin := h.leaving hb i hi
        rcases hq i with hp | hp | hp
        · simp [hp] at hin
        · simp [hp] at hin
        · have := hqueue1 i hp
          omega
      · -- All threads have arrived, so the last one did not sleep.
        have hclear := Bool.of_not_eq_true hb
        have hN := h.count_eq_of_arriving hclear
        have hwait1 : ∀ i, s.pc i = .idle ∨ s.pc i = .wait1 := by
          intro i
          rcases hq i with hp | hp | hp
          · exact .inl hp
          · rcases h.queue0 i hp with hset | ⟨j, hj⟩
            · exact absurd hset hb
            · have := hno j
              simp [hj] at this
          · exact .inr hp
        have hret : ∀ i, s.returned i = g := by
          intro i
          have := h.arriving hclear i
          rcases hwait1 i with hp | hp <;>
            simpa [Barrier.left, Barrier.results, hp, Barrier.returned] using this
        have hinside : ∀ i, (s.pc i).inside = true := by
          intro i
          rcases hwait1 i with hp | hp
          · obtain ⟨j, hj⟩ := hunf
            have := hent i
            have := hret i
            have := hret j
            simp only [Barrier.entered, hp, if_true] at *
            unfold Barrier.returned at *
            omega
          · rw [hp]
            rfl
        obtain ⟨j, -⟩ := hunf
        have hwj : s.pc j = .wait1 := by
          rcases hwait1 j with hp | hp
          · have := hinside j
            simp [hp] at this
          · exact hp
        have hlt := hqueue1 j hwj
        have hfull : s.waiting = N := by
          rw [h.waiting]
          exact (tally_eq_card.mpr hinside).trans (by simp)
        omega

end Consequences

/-- **The custom barrier.** For every number of threads and every interleaving of their
calls, spurious wake-ups included, in every state that is reached: no thread has returned
from a call that another has not entered; at most one thread returns 1 from a generation,
and exactly one once all have returned from it; the assertion holds where it is made and
has not failed; and in a generation that all threads have entered and some have not
returned from, some thread can go on. -/
theorem workerBarrierWait_correct (N : Nat) (hN : 0 < N) (s : Barrier N) (hr : s.Reachable) :
    (∀ i j, s.returned i ≤ s.entered j) ∧
    (∀ (k : Nat) (i j : Fin N),
      (s.returns i)[k]? = some true → (s.returns j)[k]? = some true → i = j) ∧
    (∀ k : Nat, (∀ i, k < s.returned i) → ∃! i, (s.returns i)[k]? = some true) ∧
    (∀ i, s.pc i = .check → s.count = s.waiting) ∧ (∀ i, s.pc i ≠ .failed) ∧
    (∀ k, (∀ i, k < s.entered i) → (∃ j, s.returned j ≤ k) → s.Progress) := by
  obtain ⟨g, h⟩ := hr.inv hN
  refine ⟨h.returned_le_entered, fun k i j => h.serial_unique, fun k hall => ?_, fun i hp => ?_,
    fun i hp => ?_, fun k hent hunf => h.progress hent hunf⟩
  · obtain ⟨i, hi⟩ := h.serial_exists hall
    exact ⟨i, hi, fun j hj => h.serial_unique hj hi⟩
  · have hk := h.knows i
    rwa [hp] at hk
  · have hk := h.knows i
    rwa [hp] at hk

/-- Both threads have entered a call and the second one has returned from it. -/
def oneOfTwo : Barrier 2 where
  total := 2
  count := 1
  waiting := 1
  blockR := true
  mutex0 := none
  mutex1 := none
  pc := fun i => if i = 0 then .relock1 else .idle
  returns := fun i => if i = 0 then [] else [false]

theorem reachable_oneOfTwo : oneOfTwo.Reachable := by
  -- The first thread sleeps on `cond[1]`.
  have hfirst := (((((((Relation.ReflTransGen.refl (r := Barrier.Step)
    (a := workerBarrierInit 2)).tail
    (.thread 0 (.call rfl))).tail (.thread 0 (.lock0 rfl rfl))).tail
    (.thread 0 (.pass rfl rfl))).tail (.thread 0 (.lock1 rfl rfl))).tail
    (.thread 0 (.arrive rfl))).tail (.thread 0 (.unlock0 rfl))).tail
    (.thread 0 (.sleep rfl (by decide)))
  -- The second one finds that all have arrived, and wakes it.
  have hsecond := ((((((hfirst.tail (.thread 1 (.call rfl))).tail (.thread 1 (.lock0 rfl rfl))).tail
    (.thread 1 (.pass rfl rfl))).tail (.thread 1 (.lock1 rfl rfl))).tail
    (.thread 1 (.arrive rfl))).tail (.thread 1 (.unlock0 rfl))).tail
    (.thread 1 (.go rfl (by decide)))
  have hwoken := ((((hsecond.tail (.thread 1 (.first rfl rfl rfl))).tail
    (.thread 1 (.firstLock rfl rfl))).tail (.thread 1 (.firstSet rfl))).tail
    (.thread 1 (.firstUnlock rfl))).tail (.thread 1 (.firstBroadcast rfl))
  have hreturned := (hwoken.tail (.thread 1 (.leave rfl (by decide)))).tail
    (.thread 1 (.unlock1 rfl))
  refine (congrArg Barrier.Reachable ?_).mpr hreturned
  simp only [oneOfTwo, Barrier.goto, Barrier.broadcast1, workerBarrierInit, Barrier.mk.injEq,
    true_and]
  exact ⟨funext (Fin.forall_fin_two.mpr ⟨rfl, rfl⟩), funext (Fin.forall_fin_two.mpr ⟨rfl, rfl⟩)⟩

/-- The thread that is still in its call has something to do. -/
theorem workerBarrierWait_correct_oneOfTwo :
    oneOfTwo.Reachable ∧ (∀ i, oneOfTwo.entered i = 1) ∧ oneOfTwo.returned 1 = 1 ∧
      oneOfTwo.returned 0 = 0 ∧ (∀ i j, oneOfTwo.returned i ≤ oneOfTwo.entered j) ∧
      (∀ i, oneOfTwo.pc i ≠ .failed) ∧ oneOfTwo.Progress := by
  obtain ⟨hle, -, -, -, hfailed, hprogress⟩ :=
    workerBarrierWait_correct 2 (by decide) oneOfTwo reachable_oneOfTwo
  have hentered : ∀ i, oneOfTwo.entered i = 1 := by decide
  refine ⟨reachable_oneOfTwo, hentered, rfl, rfl, hle, hfailed, hprogress 0 ?_ ⟨0, le_rfl⟩⟩
  intro i
  rw [hentered]
  exact Nat.one_pos

end Ubwt
