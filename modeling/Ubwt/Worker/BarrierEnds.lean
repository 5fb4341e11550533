import Mathlib.Algebra.Order.BigOperators.Group.Finset
import Ubwt.Lib.Progress
import Ubwt.Worker.BarrierCalls

/-!
# Ubwt.Worker.BarrierEnds

**A call of the custom barrier comes to an end** (`workerBarrierWait_ends`): between one new call and
the next, the threads take a bounded number of steps, however they are scheduled, and when none
of them can go on, each has returned from every call that all have entered.

The two loops of `worker_barrier_wait()` and the two broadcasts could keep each other going. They do
not, because a broadcast belongs to a change of `block_r`: after the last thread of a
generation has cleared it, that thread is not inside any more, so `block_r` is not set again
without a new call. `phase` is the number of changes to come, and between two changes each step
takes a thread further on (`ahead`).
-/

namespace Ubwt

open Lib

variable {N : Nat} {g : Nat} {s s' t : Barrier N} {i : Fin N} {p : BarrierPc}

namespace BarrierPc

/-- In a call whose generation the thread has not left. -/
def called : BarrierPc → Bool
  | idle | lastLock | lastReset | lastBroadcast | lastUnlock | unlock1 _ | failed => false
  | _ => true

/-- The steps a thread has before it while `block_r` does not change. A thread that sleeps is
woken up at most once: in the queue of `cond[0]` while `block_r` is clear, in that of `cond[1]`
while it is set. -/
def ahead : Bool → BarrierPc → Nat
  | _, idle | _, failed => 0
  | _, unlock1 _ => 2
  | _, lastUnlock => 3
  | _, lastBroadcast => 4
  | false, wait0 => 20
  | false, lock0 => 19
  | false, test0 => 18
  | false, lock1 => 17
  | false, arrive => 16
  | false, unlock0 => 15
  | false, relock1 => 15
  | false, test1 => 14
  | false, check => 13
  | false, firstLock => 12
  | false, firstSet => 11
  | false, wait1 => 1
  | false, _ => 0
  | true, wait1 => 20
  | true, relock1 => 19
  | true, test1 => 18
  | true, check => 17
  | true, firstLock => 16
  | true, firstSet => 15
  | true, firstUnlock => 14
  | true, firstBroadcast => 13
  | true, leave => 12
  | true, lastLock => 11
  | true, lastReset => 10
  | true, lock0 => 5
  | true, test0 => 4
  | true, wait0 => 3
  | true, _ => 0

theorem ahead_le (b : Bool) (p : BarrierPc) : p.ahead b ≤ 20 := by
  cases b <;> cases p <;> simp [ahead]

theorem called_of_inside : ∀ p : BarrierPc, p.inside = true → p.called = true := by
  intro p hp
  cases p <;> first | rfl | cases hp

end BarrierPc

namespace Barrier

/-! ### What the threads have before them -/

/-- The changes of `block_r` to come: the first thread sets it once all are inside, the last one
clears it. -/
def phase (s : Barrier N) : Nat :=
  if s.blockR then 1 else if ∀ i, (s.pc i).called = true then 2 else 0

def ahead (s : Barrier N) : Nat := ∑ i, (s.pc i).ahead s.blockR

def measure (s : Barrier N) : Nat := s.phase * (20 * N + 1) + s.ahead

theorem phase_le (s : Barrier N) : s.phase ≤ 2 := by
  unfold phase
  split
  · decide
  · split <;> decide

theorem ahead_le (s : Barrier N) : s.ahead ≤ 20 * N := by
  calc s.ahead ≤ ∑ _i : Fin N, 20 := Finset.sum_le_sum fun i _ => (s.pc i).ahead_le s.blockR
    _ = 20 * N := by simp [Nat.mul_comm]

theorem measure_le (s : Barrier N) : s.measure ≤ 60 * N + 2 := by
  have hphase : s.phase * (20 * N + 1) ≤ 2 * (20 * N + 1) := Nat.mul_le_mul_right _ s.phase_le
  have hahead := s.ahead_le
  unfold measure
  omega

/-- A step that does not change `block_r`, and takes a thread further on. -/
structure Sinks (s s' : Barrier N) : Prop where
  blockR : s'.blockR = s.blockR
  le : ∀ j, (s'.pc j).ahead s.blockR ≤ (s.pc j).ahead s.blockR
  lt : ∃ i, (s'.pc i).ahead s.blockR < (s.pc i).ahead s.blockR
  called : ∀ j, (s'.pc j).called = true → (s.pc j).called = true

theorem Sinks.phase_le (h : Sinks s s') : s'.phase ≤ s.phase := by
  unfold phase
  rw [h.blockR]
  split
  · exact Nat.le_refl 1
  · split
    · rename_i hall
      rw [if_pos fun j => h.called j (hall j)]
    · exact Nat.zero_le _

theorem Sinks.measure_lt (h : Sinks s s') : s'.measure < s.measure := by
  have hahead : s'.ahead < s.ahead := by
    unfold ahead
    rw [h.blockR]
    obtain ⟨i, hi⟩ := h.lt
    exact Finset.sum_lt_sum (fun j _ => h.le j) ⟨i, Finset.mem_univ i, hi⟩
  refine digits_lt (Nat.lt_succ_of_le s'.ahead_le) ?_
  exact (Nat.lt_or_eq_of_le h.phase_le).imp_right fun heq => ⟨heq, hahead⟩

theorem measure_lt_of_phase (h : s'.phase < s.phase) : s'.measure < s.measure :=
  digits_lt (Nat.lt_succ_of_le s'.ahead_le) (.inl h)

theorem Sinks.of_goto (hpc : s'.pc = (s.goto i p).pc) (hb : s'.blockR = s.blockR)
    (hlt : p.ahead s.blockR < (s.pc i).ahead s.blockR)
    (hcalled : p.called = true → (s.pc i).called = true) : Sinks s s' := by
  have hother : ∀ j, j ≠ i → s'.pc j = s.pc j := fun j hj => by rw [hpc, goto_other s p hj]
  have hself : s'.pc i = p := by rw [hpc, goto_self]
  refine ⟨hb, fun j => ?_, ⟨i, by rw [hself]; exact hlt⟩, fun j hj => ?_⟩
  · by_cases hji : j = i
    · subst hji
      rw [hself]
      exact Nat.le_of_lt hlt
    · rw [hother j hji]
  · by_cases hji : j = i
    · subst hji
      rw [hself] at hj
      exact hcalled hj
    · rwa [hother j hji] at hj

/-- A broadcast that wakes threads up before the thread goes on. -/
theorem Sinks.of_broadcast (h : Sinks t s') (hb : t.blockR = s.blockR)
    (hlt : (s'.pc i).ahead s.blockR < (s.pc i).ahead s.blockR)
    (hle : ∀ j, (t.pc j).ahead s.blockR ≤ (s.pc j).ahead s.blockR)
    (hcalled : ∀ j, (t.pc j).called = (s.pc j).called) : Sinks s s' where
  blockR := h.blockR.trans hb
  le := fun j => Nat.le_trans (hb ▸ h.le j) (hle j)
  lt := ⟨i, hlt⟩
  called := fun j hj => hcalled j ▸ h.called j hj

/-! ### A step inside a call -/

/-- A step of a thread that is in a call. -/
def Inner (s s' : Barrier N) : Prop := ∃ i, s.pc i ≠ .idle ∧ StepOf i s s'

end Barrier

namespace BarrierInvAt

/-- No thread is put to sleep while `block_r` is set: all that have not left are inside. -/
theorem clear_of_sleep (h : BarrierInvAt g s) (hw : s.waiting < s.count) : s.blockR = false := by
  by_contra hb
  have hle : s.count ≤ s.waiting := by
    rw [h.waiting, h.count]
    exact tally_mono fun j hj => h.leaving (Bool.of_not_eq_false hb) j (of_decide_eq_true hj)
  omega

/-- The last thread has cleared `block_r` when it broadcasts. -/
theorem clear_of_lastBroadcast (h : BarrierInvAt g s) (hp : s.pc i = .lastBroadcast) :
    s.blockR = false := by
  by_contra hb
  rcases h.left i with hl | hl
  · have hin := h.leaving (Bool.of_not_eq_false hb) i hl
    simp [hp] at hin
  · -- It has left this generation with the result 1, so it has yet to reset the barrier.
    have hresult : (s.results i)[g]? = some true := by
      have hlen : (s.returns i).length = g := by
        simpa [Barrier.left, Barrier.results, hp] using hl
      simp [Barrier.results, hp, ← hlen]
    have hresets := h.now i hresult
    simp [hp] at hresets

/-- The first thread sets `block_r` when all are inside. -/
theorem called_of_firstSet (h : BarrierInvAt g s) (hp : s.pc i = .firstSet) (j : Fin N) :
    (s.pc j).called = true := by
  have hk : s.count = s.waiting ∧ s.count = N := by simpa [hp] using h.knows i
  have hin : ∀ j, (s.pc j).inside = true := by
    refine tally_eq_card.mp ?_
    rw [← h.waiting, ← hk.1, hk.2]
    simp
  exact BarrierPc.called_of_inside _ (hin j)

/-- **Every step inside a call takes a thread on, or changes `block_r`.** -/
theorem lowers (h : BarrierInvAt g s) (hstep : Barrier.StepOf i s s') (hp : s.pc i ≠ .idle) :
    s'.measure < s.measure := by
  have hk := h.knows i
  cases hstep with
  | call hi => exact absurd hi hp
  | block hi hb =>
      refine Barrier.Sinks.measure_lt (.of_goto rfl rfl ?_ ?_)
      · rw [hi, hb]
        decide
      · simp [hi, BarrierPc.called]
  | pass hi hb =>
      refine Barrier.Sinks.measure_lt (.of_goto rfl rfl ?_ ?_)
      · rw [hi, hb]
        decide
      · simp [hi, BarrierPc.called]
  | sleep hi hw =>
      refine Barrier.Sinks.measure_lt (.of_goto rfl rfl ?_ ?_)
      · rw [hi, h.clear_of_sleep hw]
        decide
      · simp [hi, BarrierPc.called]
  | lock1 hi | arrive hi | unlock0 hi =>
      have hb : s.blockR = false := by simpa [hi] using hk
      refine Barrier.Sinks.measure_lt (.of_goto rfl rfl ?_ ?_)
      · rw [hi, hb]
        decide
      · simp [hi, BarrierPc.called]
  | assertFails hi hne =>
      rw [hi] at hk
      exact absurd hk hne
  | firstSet hi =>
      have hall := h.called_of_firstSet hi
      cases hb : s.blockR with
      | true =>
          refine Barrier.Sinks.measure_lt (.of_goto rfl hb.symm ?_ ?_)
          · rw [hi, hb]
            decide
          · simp [hi, BarrierPc.called]
      | false =>
          refine Barrier.measure_lt_of_phase ?_
          unfold Barrier.phase
          rw [if_pos rfl, if_neg (by simp [hb]), if_pos hall]
          exact Nat.one_lt_two
  | firstUnlock hi =>
      have hb : s.blockR = true := by
        have hk' : s.count = s.waiting ∧ s.count = N ∧ s.blockR = true := by simpa [hi] using hk
        exact hk'.2.2
      refine Barrier.Sinks.measure_lt (.of_goto rfl rfl ?_ ?_)
      · rw [hi, hb]
        decide
      · simp [hi, BarrierPc.called]
  | firstBroadcast hi =>
      have hb : s.blockR = true := by
        have hk' : s.count = s.waiting ∧ s.count = N ∧ s.blockR = true := by simpa [hi] using hk
        exact hk'.2.2
      refine Barrier.Sinks.measure_lt (.of_broadcast (t := s.broadcast1) (i := i)
        (.of_goto rfl rfl ?_ ?_) rfl ?_ ?_ ?_)
      · simp [Barrier.broadcast1, hi, hb, BarrierPc.ahead]
      · simp [Barrier.broadcast1, hi, BarrierPc.called]
      · simp [hi, hb, BarrierPc.ahead]
      · intro j
        by_cases hj : s.pc j = .wait1 <;> simp [Barrier.broadcast1, hj, hb, BarrierPc.ahead]
      · intro j
        by_cases hj : s.pc j = .wait1 <;> simp [Barrier.broadcast1, hj, BarrierPc.called]
  | leave hi | leaveLast hi =>
      have hb : s.blockR = true := by
        have hk' : s.count = s.waiting ∧ s.blockR = true := by simpa [hi] using hk
        exact hk'.2
      refine Barrier.Sinks.measure_lt (.of_goto rfl rfl ?_ ?_)
      · rw [hi, hb]
        decide
      · simp [hi, BarrierPc.called]
  | lastLock hi =>
      have hb : s.blockR = true := by
        have hk' : s.count = 0 ∧ s.blockR = true := by simpa [hi] using hk
        exact hk'.2
      refine Barrier.Sinks.measure_lt (.of_goto rfl rfl ?_ ?_)
      · rw [hi, hb]
        decide
      · simp [BarrierPc.called]
  | lastReset hi =>
      have hb : s.blockR = true := by
        have hk' : s.count = 0 ∧ s.blockR = true := by simpa [hi] using hk
        exact hk'.2
      refine Barrier.measure_lt_of_phase ?_
      -- The thread itself has left.
      have hnot : ¬ ∀ j, ((s.goto i .lastBroadcast).pc j).called = true := by
        intro hall
        have hi' := hall i
        simp [BarrierPc.called] at hi'
      unfold Barrier.phase
      rw [if_pos hb, if_neg Bool.false_ne_true, if_neg hnot]
      exact Nat.zero_lt_one
  | lastBroadcast hi =>
      have hb := h.clear_of_lastBroadcast hi
      refine Barrier.Sinks.measure_lt (.of_broadcast (t := s.broadcast0) (i := i)
        (.of_goto rfl rfl ?_ ?_) rfl ?_ ?_ ?_)
      · simp [Barrier.broadcast0, hi, BarrierPc.ahead]
      · simp [BarrierPc.called]
      · simp [hi, BarrierPc.ahead]
      · intro j
        by_cases hj : s.pc j = .wait0 <;> simp [Barrier.broadcast0, hj, hb, BarrierPc.ahead]
      · intro j
        by_cases hj : s.pc j = .wait0 <;> simp [Barrier.broadcast0, hj, BarrierPc.called]
  | lock0 hi | go hi | relock1 hi | first hi | notFirst hi | firstLock hi | lastUnlock hi
  | unlock1 hi =>
      refine Barrier.Sinks.measure_lt (.of_goto rfl rfl ?_ ?_)
      · rw [hi]
        cases s.blockR <;> simp [BarrierPc.ahead]
      · simp [hi, BarrierPc.called]

end BarrierInvAt

/-! ### Runs -/

namespace Barrier

/-- A run with `c` new calls, `w` spurious wake-ups and `n` other steps. -/
inductive Runs (s : Barrier N) : Nat → Nat → Nat → Barrier N → Prop
  | start : Runs s 0 0 0 s
  | call {c w n : Nat} {t : Barrier N} (i : Fin N) (h : Runs s c w n t) (hp : t.pc i = .idle) :
      Runs s (c + 1) w n (t.goto i .lock0)
  | spurious0 {c w n : Nat} {t : Barrier N} (i : Fin N) (h : Runs s c w n t)
      (hp : t.pc i = .wait0) : Runs s c (w + 1) n (t.goto i .lock0)
  | spurious1 {c w n : Nat} {t : Barrier N} (i : Fin N) (h : Runs s c w n t)
      (hp : t.pc i = .wait1) : Runs s c (w + 1) n (t.goto i .relock1)
  | inner {c w n : Nat} {t t' : Barrier N} (h : Runs s c w n t) (hstep : t.Inner t') :
      Runs s c w (n + 1) t'

theorem Inner.step (h : s.Inner s') : Step s s' := by
  obtain ⟨i, -, hs⟩ := h
  exact .thread i hs

theorem Runs.reachable {c w n : Nat} (hr : s.Reachable) (h : Runs s c w n t) : t.Reachable := by
  induction h with
  | start => exact hr
  | call i _ hp ih => exact ih.tail (.thread i (.call hp))
  | spurious0 i _ hp ih => exact ih.tail (.spurious0 i hp)
  | spurious1 i _ hp ih => exact ih.tail (.spurious1 i hp)
  | inner _ hstep ih => exact ih.tail hstep.step

/-- A thread that goes on elsewhere in its generation. -/
theorem measure_goto_le (hp : p.called = true) (hi : (s.pc i).called = true) :
    (s.goto i p).measure ≤ s.measure + 20 := by
  have hphase : (s.goto i p).phase = s.phase := by
    have hcalled : ∀ j, ((s.goto i p).pc j).called = (s.pc j).called := by
      intro j
      by_cases hj : j = i
      · subst hj
        rw [goto_self, hp, hi]
      · rw [goto_other s p hj]
    unfold phase
    simp only [hcalled]
    rfl
  have hahead : (s.goto i p).ahead ≤ s.ahead + 20 := by
    have hself : ((s.goto i p).pc i).ahead s.blockR ≤ (s.pc i).ahead s.blockR + 20 :=
      Nat.le_trans (BarrierPc.ahead_le ..) (Nat.le_add_left ..)
    have hrest : ∑ j ∈ Finset.univ.erase i, ((s.goto i p).pc j).ahead s.blockR
        = ∑ j ∈ Finset.univ.erase i, (s.pc j).ahead s.blockR :=
      Finset.sum_congr rfl fun j hj => by rw [goto_other s p (Finset.ne_of_mem_erase hj)]
    show ∑ j, ((s.goto i p).pc j).ahead s.blockR ≤ ∑ j, (s.pc j).ahead s.blockR + 20
    rw [← Finset.add_sum_erase _ _ (Finset.mem_univ i), hrest,
      ← Finset.add_sum_erase _ (fun j => (s.pc j).ahead s.blockR) (Finset.mem_univ i)]
    omega
  unfold measure
  rw [hphase]
  omega

/-- **The steps of a run**: as many as the calls and the spurious wake-ups allow. -/
theorem Runs.length_le {c w n : Nat} (hN : 0 < N) (hr : s.Reachable) (h : Runs s c w n t) :
    n + t.measure ≤ (60 * N + 2) * (c + 1) + 20 * w := by
  induction h with
  | start =>
      have hle := s.measure_le
      omega
  | @call c w n t i _ _ ih =>
      have hle := (t.goto i .lock0).measure_le
      have hmul : (60 * N + 2) * (c + 1 + 1) = (60 * N + 2) * (c + 1) + (60 * N + 2) :=
        Nat.mul_succ ..
      omega
  | @spurious0 c w n t i _ hp ih =>
      have hle := measure_goto_le (s := t) (i := i) (p := .lock0) rfl (by rw [hp]; rfl)
      omega
  | @spurious1 c w n t i _ hp ih =>
      have hle := measure_goto_le (s := t) (i := i) (p := .relock1) rfl (by rw [hp]; rfl)
      omega
  | inner hrun hstep ih =>
      obtain ⟨g, hinv⟩ := (hrun.reachable hr).inv hN
      obtain ⟨i, hp, hs⟩ := hstep
      have hlt := hinv.lowers hs hp
      omega

theorem inner_lowers (hN : 0 < N) : Lowers (Inner (N := N)) Reachable measure where
  keeps := fun _ _ hr h => hr.tail h.step
  lowers := by
    intro s s' hr ⟨i, hp, hs⟩
    obtain ⟨g, hinv⟩ := hr.inv hN
    exact hinv.lowers hs hp

/-- Inside the calls, nobody enters one. -/
theorem Inner.entered (h : s.Inner s') (j : Fin N) : s'.entered j = s.entered j := by
  obtain ⟨i, hp, hs⟩ := h
  have hwaiting : s.calls.waiting i = true := decide_eq_true hp
  rw [← entered_calls, ← entered_calls]
  rcases hs.calls_cases with ⟨hout, -⟩ | ⟨hw, heq⟩ | heq
  · rw [hwaiting] at hout
    cases hout
  · rw [heq, Calls.entered_leave hw]
  · rw [heq]

theorem entered_of_inner (h : Relation.ReflTransGen Inner s t) (j : Fin N) :
    t.entered j = s.entered j := by
  induction h with
  | refl => rfl
  | tail _ hstep ih => rw [hstep.entered j, ih]

/-- Where the threads cannot go on, every call that all have entered has come to its end. -/
theorem returned_of_stuck {k : Nat} (hN : 0 < N) (hr : s.Reachable)
    (hrun : Relation.ReflTransGen Inner s t) (hstuck : ∀ t', ¬t.Inner t')
    (hall : ∀ i, k < s.entered i) (j : Fin N) : k < t.returned j := by
  have ht : t.Reachable := hr.trans (hrun.lift id fun _ _ h => h.step)
  obtain ⟨g, hinv⟩ := ht.inv hN
  by_contra hj
  obtain ⟨i, t', hp, hs⟩ := hinv.progress (fun i => by rw [entered_of_inner hrun]; exact hall i)
    ⟨j, Nat.not_lt.mp hj⟩
  exact hstuck t' ⟨i, hp, hs⟩

end Barrier

/-- **Every call of the custom barrier ends.** From every state that is reached, a run with `c` new
calls and `w` spurious wake-ups has at most `(60 * N + 2) * (c + 1) + 20 * w` other steps, whichever
threads take them; so without new calls and wake-ups the threads come to a state in which none can
go on, and in every such state each thread has returned from every call that all have entered. -/
theorem workerBarrierWait_ends (N : Nat) (hN : 0 < N) (s : Barrier N) (hr : s.Reachable) :
    (∀ c w n t, s.Runs c w n t → n ≤ (60 * N + 2) * (c + 1) + 20 * w) ∧
    (∃ t, Relation.ReflTransGen Barrier.Inner s t ∧ ∀ t', ¬t.Inner t') ∧
    ∀ t, Relation.ReflTransGen Barrier.Inner s t → (∀ t', ¬t.Inner t') →
      ∀ k, (∀ i, k < s.entered i) → ∀ j, k < t.returned j :=
  ⟨fun _ _ _ _ h => Nat.le_trans (Nat.le_add_right ..) (h.length_le hN hr),
    (Barrier.inner_lowers hN).exists_stuck hr,
    fun _ hrun hstuck _ hall => Barrier.returned_of_stuck hN hr hrun hstuck hall⟩

/-- Two threads have called. -/
def bothCalled : Barrier 2 :=
  ((workerBarrierInit 2).goto ⟨0, Nat.zero_lt_two⟩ .lock0).goto ⟨1, Nat.one_lt_two⟩ .lock0

theorem reachable_bothCalled : bothCalled.Reachable :=
  (Relation.ReflTransGen.single (.thread _ (.call rfl))).tail (.thread _ (.call rfl))

theorem workerBarrierWait_ends_bothCalled :
    (∀ n t, bothCalled.Runs 0 0 n t → n ≤ 122) ∧
      ∃ t, Relation.ReflTransGen Barrier.Inner bothCalled t ∧ ∀ j, 0 < t.returned j := by
  obtain ⟨hle, ⟨t, hrun, hstuck⟩, hends⟩ :=
    workerBarrierWait_ends 2 (by decide) bothCalled reachable_bothCalled
  exact ⟨fun n t h => hle 0 0 n t h, t, hrun, hends t hrun hstuck 0 (by decide)⟩

end Ubwt
