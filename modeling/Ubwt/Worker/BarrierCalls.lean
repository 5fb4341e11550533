import Ubwt.Lib.Refinement
import Ubwt.Lib.Rendezvous
import Ubwt.Worker.BarrierRuns

/-!
# Ubwt.Worker.BarrierCalls

What the threads see of the custom barrier: that they enter `worker_barrier_wait()` and return
from it. **This is the machine `Lib.Calls`** (`Barrier.refines`): of all the steps inside, a
thread that calls is an `enter`, the last `pthread_mutex_unlock()` of a call is a `leave` that all
threads have entered for, and the others show nothing.
-/

namespace Ubwt

open Lib

variable {N : Nat} {g : Nat} {s s' : Barrier N} {i : Fin N} {p : BarrierPc}

namespace Barrier

/-- What the threads see. -/
def calls (s : Barrier N) : Calls (Fin N) := ⟨s.returned, fun i => decide (s.pc i ≠ .idle)⟩

theorem entered_calls (s : Barrier N) (i : Fin N) :
    Lib.entered s.calls.passed s.calls.waiting i = s.entered i := by
  unfold Lib.entered entered
  by_cases hp : s.pc i = .idle <;> simp [calls, returned, hp]

theorem calls_goto (hpc : s'.pc = (s.goto i p).pc) (hreturns : s'.returns = s.returns)
    (hs : s.pc i ≠ .idle) (hp : p ≠ .idle) : s'.calls = s.calls := by
  refine Calls.ext (funext fun j => ?_) (funext fun j => ?_)
  · simp only [calls, returned, hreturns]
  · by_cases hj : j = i
    · subst hj
      simp [calls, hpc, hs, hp]
    · simp only [calls, hpc, goto_other s p hj]

theorem calls_broadcast0 (s : Barrier N) : s.broadcast0.calls = s.calls := by
  refine Calls.ext rfl (funext fun j => ?_)
  by_cases hj : s.pc j = .wait0 <;> simp [calls, broadcast0, hj]

theorem calls_broadcast1 (s : Barrier N) : s.broadcast1.calls = s.calls := by
  refine Calls.ext rfl (funext fun j => ?_)
  by_cases hj : s.pc j = .wait1 <;> simp [calls, broadcast1, hj]

theorem calls_call (h : s.pc i = .idle) :
    s.calls.waiting i = false ∧ (s.goto i .lock0).calls = s.calls.enter i := by
  refine ⟨by simp [calls, h], Calls.ext rfl (funext fun j => ?_)⟩
  by_cases hj : j = i
  · subst hj
    simp [calls, Calls.enter]
  · simp [calls, Calls.enter, goto_other s _ hj, Function.update_of_ne hj]

theorem calls_unlock1 {serial : Bool} (h : s.pc i = .unlock1 serial) :
    s.calls.waiting i = true ∧
      ({ s.goto i .idle with
        mutex1 := none
        returns := Function.update s.returns i (s.returns i ++ [serial]) } : Barrier N).calls
        = s.calls.leave i := by
  refine ⟨by simp [calls, h], Calls.ext (funext fun j => ?_) (funext fun j => ?_)⟩
  all_goals
    by_cases hj : j = i
    · subst hj
      simp [calls, Calls.leave, returned]
    · simp [calls, Calls.leave, returned, goto_other s _ hj, Function.update_of_ne hj]

/-- A step inside a call shows nothing, but for its last one. -/
theorem StepOf.calls_cases (h : StepOf i s s') :
    (s.calls.waiting i = false ∧ s'.calls = s.calls.enter i) ∨
    (s.calls.waiting i = true ∧ s'.calls = s.calls.leave i) ∨ s'.calls = s.calls := by
  cases h with
  | call h => exact .inl (calls_call h)
  | unlock1 h => exact .inr (.inl (calls_unlock1 h))
  | firstBroadcast h =>
      have hp : s.broadcast1.pc i ≠ .idle := by simp [broadcast1, h]
      exact .inr (.inr ((calls_goto rfl rfl hp (by simp)).trans (calls_broadcast1 s)))
  | lastBroadcast h =>
      have hp : s.broadcast0.pc i ≠ .idle := by simp [broadcast0, h]
      exact .inr (.inr ((calls_goto rfl rfl hp (by simp)).trans (calls_broadcast0 s)))
  | _ => exact .inr (.inr (calls_goto rfl rfl (by simp [*]) (by simp)))

/-- **The custom barrier is the machine of its callers.** -/
theorem refines (hN : 0 < N) :
    Refines (Step (N := N)) Reachable (Calls.Step fun _ => True) calls where
  keeps := fun _ _ hr hstep => hr.tail hstep
  step := by
    intro s s' hr hstep
    cases hstep with
    | spurious0 i hp => exact .inl (calls_goto rfl rfl (by simp [hp]) (by simp))
    | spurious1 i hp => exact .inl (calls_goto rfl rfl (by simp [hp]) (by simp))
    | thread i hs =>
        rcases hs.calls_cases with ⟨hin, heq⟩ | ⟨hw, heq⟩ | heq
        · exact .inr (heq ▸ .enter i trivial hin)
        · refine .inr (heq ▸ .leave i trivial hw fun j _ => ?_)
          -- The thread that returns has returned from no more calls than the others have entered.
          obtain ⟨g, h⟩ := Reachable.inv hN (hr.tail (.thread i hs))
          have hle := h.returned_le_entered i j
          rw [← entered_calls, show s'.returned i = s'.calls.passed i from rfl, heq,
            Calls.entered_leave hw, Calls.passed_leave] at hle
          simpa [Lib.entered, hw] using hle
        · exact .inl heq

end Barrier

end Ubwt
