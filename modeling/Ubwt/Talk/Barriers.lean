import Ubwt.Talk.Agreement
import Ubwt.Worker.BarrierCalls

/-!
# Ubwt.Talk.Barriers

The barriers that `talk_sender` and `talk_receiver` use, and the one that `worker.c` builds.

What the workers of an endpoint see of a barrier is a run of `Lib.Calls` for the workers that use it
(`TalkTest.refines`), and so is what the threads see of the custom barrier (`Barrier.refines`).
**Nothing that a test relies on is more than what the custom barrier gives**
(`barriers_refine_calls`).
-/

namespace Ubwt

open Lib

variable {v : TestEnv} {e f : Endpoint} {c : Fin v.workers} {d : Dir} {rest : List Dir}
  {w w' : TalkWorker} {sh sh' : TalkContext v.workers} {b b' : BarrierId} {s s' : TalkTest v.workers}

/-! ### A worker and its barriers -/

namespace TalkWorker

/-- A worker waits only at a barrier that it uses. -/
theorem Shape.joins_barrier (h : w.Shape v e c) (hd : w.dirs = d :: rest)
    (hb : w.pc.barrier v d = some b) : v.Joins b c := by
  rcases barrier_cases hb with ⟨rfl, -⟩ | ⟨rfl, -⟩ | ⟨rfl, -⟩ | ⟨rfl, -⟩
  · exact TestEnv.joins_main d c
  · exact h.joins hd
  · exact h.joins hd
  · trivial

theorem sent_waiting {count : Dir → UInt64} :
    (w.sent v e c d rest count).waiting = w.waiting := by
  unfold sent toPing toRun
  repeat' split
  all_goals rfl

theorem heard_waiting {count : Dir → UInt64} {latency : UInt32} {pkt : TalkPayload} :
    (w.heard v e d rest count latency pkt).waiting = w.waiting := by
  unfold heard toPing toRun
  repeat' split
  all_goals rfl

/-- Of the steps of a worker alone, one enters a barrier. -/
theorem Local.waiting_cases (h : Local v e c d w sh w' sh') :
    w'.waiting = w.waiting ∨ ∃ b, w.pc.barrier v d = some b ∧ w' = { w with waiting := true } := by
  cases h with
  | enter hb => exact .inr ⟨_, hb, rfl⟩
  | testWeak =>
      left
      split <;> rfl
  | testImWeak =>
      left
      unfold TalkWorker.testImWeak TalkWorker.again
      repeat' split
      all_goals rfl
  | testImWeakReverse =>
      left
      unfold TalkWorker.again
      repeat' split
      all_goals rfl
  | _ => exact .inl rfl

end TalkWorker

/-! ### What the workers see -/

namespace TalkTest

/-- What the workers of an endpoint see of a barrier. -/
def calls (v : TestEnv) (e : Endpoint) (b : BarrierId) (s : TalkTest v.workers) :
    Calls (Fin v.workers) :=
  ⟨fun c => (s.worker e c).passed b, fun c => (s.worker e c).waitsAt v b⟩

/-- A worker that goes on without the barrier. -/
theorem calls_set_same (hpassed : w.passed b = (s.worker e c).passed b)
    (hwaits : w.waitsAt v b = (s.worker e c).waitsAt v b) :
    (s.set e c w sh).calls v f b = s.calls v f b := by
  have hsame : ∀ j, ((s.set e c w sh).worker f j).passed b = (s.worker f j).passed b ∧
      ((s.set e c w sh).worker f j).waitsAt v b = (s.worker f j).waitsAt v b := by
    intro j
    by_cases hj : f = e ∧ j = c
    · obtain ⟨rfl, rfl⟩ := hj
      rw [worker_set_self]
      exact ⟨hpassed, hwaits⟩
    · rw [worker_set_of_ne hj]
      exact ⟨rfl, rfl⟩
  exact Calls.ext (funext fun j => (hsame j).1) (funext fun j => (hsame j).2)

/-- A worker that goes on from outside any barrier to outside any barrier. -/
theorem calls_set_outside (hpassed : w.passed = (s.worker e c).passed)
    (hw : (s.worker e c).waiting = false) (hw' : w.waiting = false) :
    (s.set e c w sh).calls v f b = s.calls v f b := by
  refine calls_set_same (by rw [hpassed]) ?_
  rw [TalkWorker.waitsAt_of_waiting hw, TalkWorker.waitsAt_of_waiting hw']

/-- A worker enters a barrier. -/
theorem calls_set_enter (hw : (s.worker e c).waiting = false) (hd : (s.worker e c).dirs = d :: rest)
    (hb : (s.worker e c).pc.barrier v d = some b) :
    (s.set e c { s.worker e c with waiting := true } sh).calls v e b
      = (s.calls v e b).enter c := by
  refine Calls.ext (funext fun j => ?_) (funext fun j => ?_)
  all_goals
    by_cases hj : j = c
    · subst hj
      simp [calls, Calls.enter, worker_set_self, TalkWorker.waitsAt, hd, hb]
    · simp [calls, Calls.enter, worker_set_of_ne (fun h : e = e ∧ j = c => hj h.2),
        Function.update_of_ne hj]

/-- A barrier lets a worker go. -/
theorem calls_set_leave (hpassed : w.passed b = (s.worker e c).passed b + 1)
    (hw : w.waiting = false) :
    (s.set e c w sh).calls v e b = (s.calls v e b).leave c := by
  refine Calls.ext (funext fun j => ?_) (funext fun j => ?_)
  all_goals
    by_cases hj : j = c
    · subst hj
      simp [calls, Calls.leave, worker_set_self, TalkWorker.waitsAt, hpassed, hw]
    · simp [calls, Calls.leave, worker_set_of_ne (fun h : e = e ∧ j = c => hj h.2),
        Function.update_of_ne hj]

/-- Nothing that another endpoint does is seen. -/
theorem calls_set_of_ne (hf : f ≠ e) : (s.set e c w sh).calls v f b = s.calls v f b := by
  have hsame : ∀ j, (s.set e c w sh).worker f j = s.worker f j :=
    fun j => worker_set_of_ne fun h => hf h.1
  simp only [calls, hsame]

/-- A step of one worker alone. -/
theorem step_loc (hd : (s.worker e c).dirs = d :: rest) (hw : (s.worker e c).waiting = false)
    (hshape : (s.worker e c).Shape v e c)
    (h : TalkWorker.Local v e c d (s.worker e c) (s.shared e) w sh) :
    (s.set e c w sh).calls v e b = s.calls v e b ∨
      Calls.Step (v.Joins b) (s.calls v e b) ((s.set e c w sh).calls v e b) := by
  rcases h.waiting_cases with hsame | ⟨b', hb, rfl⟩
  · exact .inl (calls_set_outside h.frame.2.1 hw (hsame.trans hw))
  · by_cases hbb : b' = b
    · subst hbb
      rw [calls_set_enter hw hd hb]
      exact .inr (.enter c (hshape.joins_barrier hd hb) (TalkWorker.waitsAt_of_waiting hw b'))
    · refine .inl (calls_set_same rfl ?_)
      rw [TalkWorker.waitsAt_of_waiting hw]
      simp [TalkWorker.waitsAt, hd, hb, hbb]

/-- A barrier lets a worker go: this one, or another. -/
theorem step_leave {serial : Bool} {now : UInt64} (hd : (s.worker e c).dirs = d :: rest)
    (hw : (s.worker e c).waiting = true) (hb : (s.worker e c).pc.barrier v d = some b')
    (hshape : (s.worker e c).Shape v e c)
    (hall : ∀ c', v.Joins b' c' →
      entered (fun c => (s.worker e c).passed b') (fun c => (s.worker e c).waitsAt v b') c
        ≤ entered (fun c => (s.worker e c).passed b') (fun c => (s.worker e c).waitsAt v b') c')
    (hset : w = { (s.worker e c).proceed v e c d serial now with
      waiting := false
      passed := Function.update (s.worker e c).passed b' ((s.worker e c).passed b' + 1) }) :
    (s.set e c w sh).calls v e b = s.calls v e b ∨
      Calls.Step (v.Joins b) (s.calls v e b) ((s.set e c w sh).calls v e b) := by
  subst hset
  have hwaits : (s.worker e c).waitsAt v b = decide (b' = b) := TalkWorker.waitsAt_eq hd hw hb
  by_cases hbb : b' = b
  · subst hbb
    rw [calls_set_leave (Function.update_self ..) rfl]
    exact .inr (.leave c (hshape.joins_barrier hd hb) (hwaits.trans (decide_eq_true rfl)) hall)
  · refine .inl (calls_set_same (Function.update_of_ne (Ne.symm hbb) ..) ?_)
    rw [hwaits, TalkWorker.waitsAt_of_waiting rfl, decide_eq_false hbb]

/-- **A barrier of a test is the machine of its callers.** -/
theorem refines (v : TestEnv) (e : Endpoint) (b : BarrierId) :
    Refines (Step v) (Reachable v) (Calls.Step (v.Joins b)) (calls v e b) where
  keeps := fun _ _ hr hstep => hr.tail hstep
  step := by
    intro s s' hr hstep
    have hcrew := hr.inv.crew
    cases hstep with
    | loc f c hd hw h =>
        by_cases hf : e = f
        · subst hf
          exact step_loc hd hw ((hcrew e).shape c) h
        · exact .inl (calls_set_of_ne hf)
    | leave f c serial now hd hw hb hall =>
        by_cases hf : e = f
        · subst hf
          exact step_leave hd hw hb ((hcrew e).shape c) hall rfl
        · exact .inl (calls_set_of_ne hf)
    | send f c fill fillSize hd hx hrole =>
        have hw := (((hcrew f).shape c).now _ _ hd).waiting_of_exchange hx
        left
        show (s.set f c _ (s.shared f)).calls v e b = s.calls v e b
        exact calls_set_outside TalkWorker.sent_passed hw (TalkWorker.sent_waiting.trans hw)
    | recv f c latency hd hx hrole hchan hcheck =>
        have hw := (((hcrew f).shape c).now _ _ hd).waiting_of_exchange hx
        left
        show (s.set f c _ (s.shared f)).calls v e b = s.calls v e b
        exact calls_set_outside TalkWorker.heard_passed hw (TalkWorker.heard_waiting.trans hw)

/-- Whatever the machine lets a worker do at a barrier, the test does. -/
theorem exists_leave (hw : (s.calls v e b).waiting c = true)
    (hall : ∀ c', v.Joins b c' → entered (s.calls v e b).passed (s.calls v e b).waiting c
      ≤ entered (s.calls v e b).passed (s.calls v e b).waiting c') :
    ∃ s', Step v s s' ∧ s'.calls v e b = (s.calls v e b).leave c := by
  obtain ⟨hwaiting, d, rest, hd, hb⟩ := TalkWorker.dirs_of_waitsAt hw
  exact ⟨_, .leave e c false 0 hd hwaiting hb hall,
    calls_set_leave (Function.update_self ..) rfl⟩

end TalkTest

/-- **The custom barrier is what the tests rely on.** Of every run of `N` threads in the custom
barrier, spurious wake-ups included, they see a run of the machine that lets a caller return once
all have entered. What the workers of an endpoint see of each of the three barriers of a test is a
run of the same machine, for the workers that use the barrier; and a test takes every return of the
machine into account. -/
theorem barriers_refine_calls :
    (∀ (N : Nat) (s : Barrier N), 0 < N → s.Reachable →
      Relation.ReflTransGen (Calls.Step fun _ => True) Calls.start s.calls) ∧
    ∀ (v : TestEnv) (s : TalkTest v.workers), TalkTest.Reachable v s → ∀ e b,
      Relation.ReflTransGen (Calls.Step (v.Joins b)) Calls.start (s.calls v e b) ∧
      ∀ c, (s.calls v e b).waiting c = true →
        (∀ c', v.Joins b c' → entered (s.calls v e b).passed (s.calls v e b).waiting c
          ≤ entered (s.calls v e b).passed (s.calls v e b).waiting c') →
        ∃ s', TalkTest.Step v s s' ∧ s'.calls v e b = (s.calls v e b).leave c := by
  constructor
  · intro N s hN hr
    exact (Barrier.refines hN).run .refl hr
  · intro v s hr e b
    have hstart : (TalkTest.init v).calls v e b = Calls.start := by
      refine Calls.ext rfl (funext fun c => ?_)
      have hw : ((TalkTest.init v).worker e c).waiting = false := rfl
      show ((TalkTest.init v).worker e c).waitsAt v b = false
      exact TalkWorker.waitsAt_of_waiting hw b
    refine ⟨?_, fun c hw hall => TalkTest.exists_leave hw hall⟩
    rw [← hstart]
    exact (TalkTest.refines v e b).run .refl hr

theorem barriers_refine_calls_shortFirst :
    oneOfTwo.calls.waiting 0 = true ∧
      Relation.ReflTransGen (Calls.Step fun _ => True) Calls.start oneOfTwo.calls ∧
      ∀ e b, Relation.ReflTransGen (Calls.Step (envShortFirst.Joins b)) Calls.start
        (endShortFirst.calls envShortFirst e b) :=
  ⟨rfl, barriers_refine_calls.1 2 oneOfTwo (by decide) reachable_oneOfTwo, fun e b =>
    (barriers_refine_calls.2 envShortFirst endShortFirst reachable_endShortFirst e b).1⟩

end Ubwt
