import Ubwt.Lib.Mutex
import Ubwt.Talk.Shape

/-!
# Ubwt.Talk.Crew

What holds of the workers of one endpoint at every moment (`Crew`).

No worker has returned from a call of a barrier that another has not entered, so two workers
that are not in a call are between the same two. **The shared counters are
`Lib.Gathered` counters**: reset between the first two calls of a stream, added to between
the fourth and the fifth, and read after that (`Crew.settled`).
-/

namespace Ubwt

open Lib

/-! ### The counters -/

namespace TestEnv

variable (v : TestEnv)

/-- A direction that every worker tests, or has a counterpart of. -/
def Tested (d : Dir) : Prop := ∀ c, v.connDir c d ∈ v.dirs c

/-- The workers that use a counter: all of them `weak`, those of the direction `im_weak`. -/
def member (im : Bool) (d : Dir) (c : Fin v.workers) : Bool := !im || decide (d ∈ v.dirs c)

variable {v} {c : Fin v.workers} {d : Dir}

theorem mainBarrier_connDir : v.mainBarrier (v.connDir c d) = v.mainBarrier d := by
  unfold mainBarrier connDir
  cases v.asynchronous <;> rfl

theorem timetable_connDir (e : Endpoint) : v.timetable e (v.connDir c d) = v.timetable e d := by
  have hsingle : v.single e (v.connDir c d) = v.single e d := by
    unfold single connDir
    cases v.asynchronous <;> rfl
  simp only [timetable, hsingle]

/-- Two directions of a worker that use one barrier are the same. -/
theorem eq_connDir {d' : Dir} (hd' : d' ∈ v.dirs c) (h : v.mainBarrier d' = v.mainBarrier d) :
    d' = v.connDir c d := by
  cases ha : v.asynchronous with
  | true =>
      rw [dirs_async ha d, List.mem_singleton] at hd'
      exact hd'
  | false =>
      simp only [mainBarrier, ha, Bool.false_eq_true, if_false, BarrierId.dir.injEq] at h
      simp [connDir, ha, h]

theorem connDir_of_mem (h : d ∈ v.dirs c) : v.connDir c d = d :=
  (eq_connDir h rfl).symm

end TestEnv

namespace TalkWorker

/-- The worker is in this direction. -/
def tests (w : TalkWorker) (d : Dir) : Bool := decide (w.dirs.head? = some d)

/-- The worker has set the counter to zero, or has added its one. -/
def done (im : Bool) (w : TalkWorker) : Bool :=
  match w.pc with
  | .resetImWeak | .loadImWeak | .storeImWeak => !im
  | .resetWeakTime | .resetUnlock | .startWait | .setWeakTime | .setUnlock => true
  | .returnWait => w.weak
  | _ => false

end TalkWorker

/-- Before the second half of an increment. -/
def WorkerPc.store (im : Bool) : WorkerPc := if im then .storeImWeak else .storeWeak

/-- `*weak`, or `im_weak` of a direction. -/
def TalkContext.counter {n : Nat} (sh : TalkContext n) (im : Bool) (d : Dir) : Nat :=
  if im then sh.imWeak d else sh.weak

/-- A counter while the workers test a direction. -/
def Ledger (v : TestEnv) (e : Endpoint) (ws : Fin v.workers → TalkWorker) (im : Bool) (d : Dir)
    (val : Nat) : Prop :=
  Gathered (v.timetable e d) (v.member im d) (fun c k => v.weak c (v.connDir c d) k)
    (fun c => (ws c).passed (v.mainBarrier d)) (fun c => (ws c).waitsAt v (v.mainBarrier d))
    (fun c => v.member im d c && (ws c).tests (v.connDir c d) && (ws c).done im)
    (fun c => (ws c).tests (v.connDir c d)) val

/-- What holds of the workers of an endpoint and what they share. -/
structure Crew (v : TestEnv) (e : Endpoint) (ws : Fin v.workers → TalkWorker)
    (sh : TalkContext v.workers) : Prop where
  shape : ∀ c, (ws c).Shape v e c
  meets : ∀ b, Meets (v.Joins b) (fun c => (ws c).passed b) (fun c => (ws c).waitsAt v b)
  mutex : OwnedBy sh.mutex (fun c => (ws c).pc.holdsMutex)
  loaded : ∀ im c d rest, (ws c).dirs = d :: rest → (ws c).pc = .store im →
    (ws c).acc = sh.counter im d
  counters : ∀ im d, v.Tested d → Ledger v e ws im d (sh.counter im d)
  /-- The count of a stream is set before the sender waits for its start. -/
  count : ∀ c d rest, (ws c).dirs = d :: rest → d.role e = .sender → (ws c).pc = .streamStart →
    (ws c).count = (sh.count d).toUInt32

/-! ### A worker at a barrier -/

namespace TalkWorker

variable {v : TestEnv} {e : Endpoint} {c : Fin v.workers} {d : Dir} {w w' : TalkWorker}

theorem tests_eq {rest : List Dir} {d' : Dir} (hd : w.dirs = d :: rest) :
    w.tests d' = decide (d = d') := by
  simp [tests, hd]

theorem dirs_of_tests (h : w.tests d = true) : ∃ rest, w.dirs = d :: rest := by
  unfold tests at h
  rw [decide_eq_true_eq] at h
  cases hdirs : w.dirs with
  | nil => simp [hdirs] at h
  | cons d' rest =>
      simp only [hdirs, List.head?_cons, Option.some.injEq] at h
      exact ⟨rest, by rw [h]⟩

theorem dirs_of_waitsAt {b : BarrierId} (h : w.waitsAt v b = true) :
    w.waiting = true ∧ ∃ d rest, w.dirs = d :: rest ∧ w.pc.barrier v d = some b := by
  unfold waitsAt at h
  rw [Bool.and_eq_true, decide_eq_true_eq] at h
  refine ⟨h.1, ?_⟩
  cases hdirs : w.dirs with
  | nil => simp [hdirs] at h
  | cons d rest =>
      refine ⟨d, rest, rfl, ?_⟩
      simpa [hdirs] using h.2

theorem waitsAt_of_waiting (h : w.waiting = false) (b : BarrierId) : w.waitsAt v b = false := by
  simp [waitsAt, h]

theorem waitsAt_eq {rest : List Dir} {b b' : BarrierId} (hd : w.dirs = d :: rest)
    (hw : w.waiting = true) (hb : w.pc.barrier v d = some b) :
    w.waitsAt v b' = decide (b = b') := by
  simp [waitsAt, hw, hd, hb]

/-- Waiting at the barrier for all workers that test `d`. -/
theorem Shape.of_waitsAt (h : w.Shape v e c) (hw : w.waitsAt v (v.mainBarrier d) = true) :
    ∃ rest, w.dirs = v.connDir c d :: rest ∧
      w.pc.barrier v (v.connDir c d) = some (v.mainBarrier (v.connDir c d)) := by
  obtain ⟨-, d', rest, hd, hb⟩ := dirs_of_waitsAt hw
  have hat := h.now d' rest hd
  have hmain : v.mainBarrier d' = v.mainBarrier d := by
    rcases barrier_cases hb with ⟨hb, -⟩ | ⟨hb, -⟩ | ⟨hb, -⟩ | ⟨hb, hpc⟩
    · exact hb.symm
    · unfold TestEnv.mainBarrier at hb ⊢
      cases ha : v.asynchronous with
      | true => simp [ha] at hb
      | false => simpa [ha] using hb.symm
    · unfold TestEnv.mainBarrier at hb ⊢
      cases ha : v.asynchronous with
      | true => simp [ha] at hb
      | false => simpa [ha] using hb.symm
    · simp [TestEnv.mainBarrier, hat.async (by rw [hpc]; rfl)]
  have heq := TestEnv.eq_connDir (h.mem hd) hmain
  subst heq
  exact ⟨rest, hd, TestEnv.mainBarrier_connDir.symm ▸ hb⟩

/-- The segment of a worker, from the calls it has returned from. -/
theorem At.seg_of_passed {n r : Nat} (hat : w.At v e c d)
    (hpassed : w.passed (v.mainBarrier d) = (v.timetable e d).reset n + r) (hr : r ≤ 3) :
    w.pc.mainSeg = 4 + r ∧ w.k = n := by
  have hle := w.pc.mainSeg_le
  rw [hat.main, TestEnv.reset_eq] at hpassed
  unfold WorkerPc.mainPassed at hpassed
  cases hs : v.single e d <;> simp only [hs, Bool.false_eq_true, if_false, if_true] at hpassed <;>
    split at hpassed <;> omega

/-- The calls a worker has returned from, in its segment. -/
theorem At.passed_of_seg {r : Nat} (hat : w.At v e c d) (hseg : w.pc.mainSeg = 4 + r) (hr : r ≤ 4) :
    w.passed (v.mainBarrier d) = (v.timetable e d).reset w.k + r := by
  rw [hat.main, TestEnv.reset_eq]
  unfold WorkerPc.mainPassed
  cases v.single e d <;> simp only [Bool.false_eq_true, if_false, if_true] <;>
    rw [if_neg (by omega)] <;> omega

/-- A worker that reads the counters is behind the increments of its stream, and before the next
resets. -/
theorem At.between (hat : w.At v e c d) (hreads : w.pc.reads = true) :
    (v.timetable e d).count w.k < w.passed (v.mainBarrier d) ∧
      w.passed (v.mainBarrier d) < (v.timetable e d).reset (w.k + 1) := by
  have hseg : 8 ≤ w.pc.mainSeg := of_decide_eq_true hreads
  have hle := w.pc.mainSeg_le
  rw [hat.main, Timetable.count, TestEnv.reset_eq, TestEnv.reset_eq]
  unfold WorkerPc.mainPassed
  cases v.single e d <;> simp only [Bool.false_eq_true, if_false, if_true, TestEnv.timetable] <;>
    rw [if_neg (by omega)] <;> omega

/-- A worker that waits after the resets has done its own. -/
theorem Shape.startWait {n : Nat} (h : w.Shape v e c) (hw : w.waitsAt v (v.mainBarrier d) = true)
    (hpassed : w.passed (v.mainBarrier d) = (v.timetable e d).reset n) :
    w.tests (v.connDir c d) = true ∧ w.pc = .startWait := by
  obtain ⟨rest, hd, hb⟩ := h.of_waitsAt hw
  rw [← TestEnv.mainBarrier_connDir (c := c), ← TestEnv.timetable_connDir (c := c)] at hpassed
  obtain ⟨hseg, -⟩ := (h.now _ rest hd).seg_of_passed (r := 0) hpassed (Nat.zero_le 3)
  refine ⟨by simp [tests_eq hd], ?_⟩
  exact WorkerPc.eq_startWait (by rw [hb]; rfl) hseg

/-- A worker that waits after the increments has done its own. -/
theorem Shape.returnWait {n : Nat} (h : w.Shape v e c) (hw : w.waitsAt v (v.mainBarrier d) = true)
    (hpassed : w.passed (v.mainBarrier d) = (v.timetable e d).count n) :
    w.tests (v.connDir c d) = true ∧ w.pc = .returnWait ∧ w.weak = v.weak c (v.connDir c d) n := by
  obtain ⟨rest, hd, hb⟩ := h.of_waitsAt hw
  rw [← TestEnv.mainBarrier_connDir (c := c), ← TestEnv.timetable_connDir (c := c)] at hpassed
  have hat := h.now _ rest hd
  obtain ⟨hseg, hk⟩ := hat.seg_of_passed (r := 3) hpassed (Nat.le_refl 3)
  have hpc := WorkerPc.eq_returnWait (by rw [hb]; rfl) hseg
  refine ⟨by simp [tests_eq hd], hpc, ?_⟩
  rw [hat.weak (by rw [hpc]; rfl), hk]

/-- A worker that has used the barrier of a direction in a stream and is not through with it is
in that direction. -/
theorem Shape.tests_of_passed {n : Nat} (h : w.Shape v e c) (hmem : v.connDir c d ∈ v.dirs c)
    (hpassed : w.passed (v.mainBarrier d) = (v.timetable e d).reset n + 1) :
    w.tests (v.connDir c d) = true := by
  rw [← TestEnv.mainBarrier_connDir (c := c), ← TestEnv.timetable_connDir (c := c)] at hpassed
  generalize v.connDir c d = d₀ at hmem hpassed ⊢
  by_cases hd₀ : d₀ ∈ w.dirs
  · cases hd : w.dirs with
    | nil => simp [hd] at hd₀
    | cons d₁ rest =>
        rw [hd] at hd₀
        rcases List.mem_cons.mp hd₀ with rfl | hrest
        · simp [tests_eq hd]
        · rw [h.later d₁ rest hd d₀ hrest] at hpassed
          cases hpassed
  · obtain ⟨K, -, hover, -⟩ := h.past d₀ hmem hd₀
    rw [hover, Timetable.count, TestEnv.reset_eq, TestEnv.reset_eq] at hpassed
    simp only [TestEnv.timetable] at hpassed
    split at hpassed <;> omega

/-! ### Away from the shared variables -/

/-- The worker does not hold the mutex and has nothing to do with a counter. -/
def Plain (w : TalkWorker) : Prop := (∀ im, w.done im = false) ∧ w.pc.holdsMutex = false

/-- Nor does it use the count of a stream. -/
def Aside (w : TalkWorker) : Prop := w.Plain ∧ w.pc ≠ .streamStart

theorem Aside.of_pc (hdone : ∀ im, w.done im = false) (hmutex : w.pc.holdsMutex = false)
    (hpc : decide (w.pc = .streamStart) = false) : w.Aside :=
  ⟨⟨hdone, hmutex⟩, of_decide_eq_false hpc⟩

theorem aside_toPing (i : Nat) : (w.toPing v e d i).Aside := by
  unfold toPing
  split
  · exact .of_pc (fun _ => rfl) rfl rfl
  · cases d.role e <;> exact .of_pc (fun _ => rfl) rfl rfl

theorem aside_toRun (i : Nat) : (w.toRun i).Aside := by
  unfold toRun
  split <;> exact .of_pc (fun _ => rfl) rfl rfl

theorem aside_measure : (w.measure v e c d).Aside := by
  unfold measure
  cases d.role e <;> exact .of_pc (fun _ => rfl) rfl rfl

theorem aside_nextDir (rest : List Dir) : (w.nextDir rest).Aside := by
  cases rest <;> exact .of_pc (fun _ => rfl) rfl rfl

theorem aside_stop : (w.stop d).Aside := .of_pc (fun _ => rfl) rfl rfl

theorem aside_again : (w.again e d).Aside := by
  unfold again
  cases d.role e <;> exact .of_pc (fun _ => rfl) rfl rfl

/-- A worker that returns from a barrier is away from the shared variables. -/
theorem aside_proceed {b : BarrierId} (hb : w.pc.barrier v d = some b) (serial : Bool)
    (now : UInt64) : (w.proceed v e c d serial now).Aside := by
  rcases barrier_cases hb with ⟨-, hpc⟩ | ⟨-, hpc⟩ | ⟨-, hpc⟩ | ⟨-, hpc⟩
  · rcases hpc with hpc | hpc | hpc | hpc | hpc <;> simp only [proceed, hpc]
    · exact aside_toPing 0
    · exact .of_pc (fun _ => rfl) rfl rfl
    · cases d.role e <;> exact aside_toRun 0
    · cases hw : w.weak <;> exact .of_pc (fun _ => rfl) rfl rfl
    · exact .of_pc (fun _ => rfl) rfl rfl
  · rcases hpc with hpc | hpc | hpc | hpc <;> simp only [proceed, hpc] <;>
      cases serial <;> exact .of_pc (fun _ => rfl) rfl rfl
  · simp only [proceed, hpc]
    split
    · exact .of_pc (fun _ => rfl) rfl rfl
    · exact aside_measure
  · simp only [proceed, hpc]
    exact aside_measure

/-- A worker at an exchange is away from the counters, before it ... -/
theorem plain_exchange {step : TalkStep} (hx : w.exchange = some step) : w.Plain := by
  rcases exchange_cases hx with ⟨hpc, -⟩ | ⟨hpc, -⟩ | ⟨hpc, -⟩ | ⟨hpc, -⟩ | ⟨hpc, -⟩ | ⟨hpc, -⟩ |
    ⟨hpc, -⟩ | ⟨hpc, -⟩ <;> simp [Plain, done, hpc, WorkerPc.holdsMutex]

/-- ... and after it; the count of a stream is next only after the negotiation. -/
theorem aside_sent {step : TalkStep} {rest : List Dir} {count : Dir → UInt64}
    (hx : w.exchange = some step) :
    (w.sent v e c d rest count).Plain ∧
      ((w.sent v e c d rest count).pc = .streamStart → w.pc = .negotiate) := by
  have haside : ∀ {w' : TalkWorker}, w'.Aside →
      w'.Plain ∧ (w'.pc = .streamStart → w.pc = .negotiate) :=
    fun h => ⟨h.1, fun hpc => absurd hpc h.2⟩
  rcases exchange_cases hx with ⟨hpc, -⟩ | ⟨hpc, -⟩ | ⟨hpc, -⟩ | ⟨hpc, -⟩ | ⟨hpc, -⟩ | ⟨hpc, -⟩ |
    ⟨hpc, -⟩ | ⟨hpc, -⟩ <;> simp only [sent, hpc]
  case inr.inl => exact hpc ▸ haside (aside_toPing _)
  case inr.inr.inl => exact ⟨⟨fun _ => rfl, rfl⟩, fun _ => trivial⟩
  case inr.inr.inr.inr.inl => exact hpc ▸ haside (aside_toRun _)
  case inr.inr.inr.inr.inr.inr.inr => exact hpc ▸ haside (aside_nextDir _)
  all_goals exact ⟨⟨fun _ => rfl, rfl⟩, fun hf => by cases hf⟩

theorem aside_heard {step : TalkStep} {rest : List Dir} {count : Dir → UInt64} {latency : UInt32}
    {pkt : TalkPayload} (hx : w.exchange = some step) :
    (w.heard v e d rest count latency pkt).Plain ∧
      ((w.heard v e d rest count latency pkt).pc = .streamStart → w.pc = .negotiate) := by
  have haside : ∀ {w' : TalkWorker}, w'.Aside →
      w'.Plain ∧ (w'.pc = .streamStart → w.pc = .negotiate) :=
    fun h => ⟨h.1, fun hpc => absurd hpc h.2⟩
  rcases exchange_cases hx with ⟨hpc, -⟩ | ⟨hpc, -⟩ | ⟨hpc, -⟩ | ⟨hpc, -⟩ | ⟨hpc, -⟩ | ⟨hpc, -⟩ |
    ⟨hpc, -⟩ | ⟨hpc, -⟩ <;> simp only [heard, hpc]
  case inr.inl => split <;> exact hpc ▸ haside (aside_toPing _)
  case inr.inr.inl => exact ⟨⟨fun _ => rfl, rfl⟩, fun _ => trivial⟩
  case inr.inr.inr.inr.inl => exact hpc ▸ haside (aside_toRun _)
  case inr.inr.inr.inr.inr.inr.inr => exact hpc ▸ haside (aside_nextDir _)
  all_goals exact ⟨⟨fun _ => rfl, rfl⟩, fun hf => by cases hf⟩

end TalkWorker

/-! ### The counters, step by step -/

variable {v : TestEnv} {e : Endpoint} {c : Fin v.workers} {d : Dir}
  {ws : Fin v.workers → TalkWorker}
  {w' : TalkWorker} {sh sh' : TalkContext v.workers} {im : Bool} {val : Nat}

/-- A step that has no part in the counter. -/
theorem Ledger.quiet (h : Ledger v e ws im d val)
    (hpassed : w'.passed (v.mainBarrier d) = (ws c).passed (v.mainBarrier d))
    (hwaits : (ws c).waitsAt v (v.mainBarrier d) = true → w'.waitsAt v (v.mainBarrier d) = true)
    (hlive : w'.tests (v.connDir c d) = true →
      (ws c).tests (v.connDir c d) = true ∨ (ws c).passed (v.mainBarrier d) = 0)
    (hdone : v.member im d c = true → (w'.tests (v.connDir c d) && w'.done im)
      = ((ws c).tests (v.connDir c d) && (ws c).done im)) :
    Ledger v e (Function.update ws c w') im d val := by
  refine Gathered.mono h ?_ ?_ ?_ ?_
  · exact (Function.forall_update_iff ws fun j w =>
      w.passed (v.mainBarrier d) = (ws j).passed (v.mainBarrier d)).mpr ⟨hpassed, fun _ _ => rfl⟩
  · exact (Function.forall_update_iff ws fun j w =>
      (ws j).waitsAt v (v.mainBarrier d) = true → w.waitsAt v (v.mainBarrier d) = true).mpr
        ⟨hwaits, fun _ _ => id⟩
  · exact (Function.forall_update_iff ws fun j w => w.tests (v.connDir j d) = true →
      (ws j).tests (v.connDir j d) = true ∨ (ws j).passed (v.mainBarrier d) = 0).mpr
        ⟨hlive, fun _ _ => .inl⟩
  · refine (Function.forall_update_iff ws fun j w =>
      (v.member im d j && w.tests (v.connDir j d) && w.done im)
        = (v.member im d j && (ws j).tests (v.connDir j d) && (ws j).done im)).mpr
          ⟨?_, fun _ _ => rfl⟩
    cases hm : v.member im d c with
    | false => rfl
    | true => rw [Bool.and_assoc, Bool.and_assoc, hdone hm]

/-- Nobody is behind a barrier of the direction. -/
theorem Ledger.of_idle (hdirs : w'.dirs = (ws c).dirs) (hpassed : w'.passed = (ws c).passed)
    (h : ∀ j, (ws j).tests (v.connDir j d) = true → (ws j).passed (v.mainBarrier d) = 0) :
    Ledger v e (Function.update ws c w') im d val := by
  refine Gathered.of_idle ?_
  refine (Function.forall_update_iff ws fun j w =>
    w.tests (v.connDir j d) = true → w.passed (v.mainBarrier d) = 0).mpr ⟨?_, fun j _ => h j⟩
  rw [TalkWorker.tests, hdirs, hpassed]
  exact h c

/-- The worker sets the counter to zero. -/
theorem Ledger.reset {k : Nat} (hmeets : Meets (v.Joins (v.mainBarrier d))
      (fun c => (ws c).passed (v.mainBarrier d)) (fun c => (ws c).waitsAt v (v.mainBarrier d)))
    (hw : (ws c).waiting = false)
    (hreset : (ws c).passed (v.mainBarrier d) = (v.timetable e d).reset k) :
    Ledger v e ws im d 0 :=
  Gathered.reset hmeets (TestEnv.joins_main d) (TalkWorker.waitsAt_of_waiting hw _) hreset

/-- A flagged worker adds its one. -/
theorem Ledger.add {k : Nat} (h : Ledger v e ws im d val)
    (hmeets : Meets (v.Joins (v.mainBarrier d))
      (fun c => (ws c).passed (v.mainBarrier d)) (fun c => (ws c).waitsAt v (v.mainBarrier d)))
    (hw : (ws c).waiting = false)
    (hcount : (ws c).passed (v.mainBarrier d) = (v.timetable e d).count k)
    (hmember : v.member im d c = true) (hflag : v.weak c (v.connDir c d) k = true)
    (htests : (ws c).tests (v.connDir c d) = true) (hnot : (ws c).done im = false)
    (hpassed : w'.passed = (ws c).passed) (hdirs : w'.dirs = (ws c).dirs)
    (hw' : w'.waiting = false) (hdone : w'.done im = true) :
    Ledger v e (Function.update ws c w') im d (val + 1) := by
  have hwaits : ∀ w : TalkWorker, w.waiting = false → w.waitsAt v (v.mainBarrier d) = false :=
    fun w hw => TalkWorker.waitsAt_of_waiting hw _
  have hsame : ∀ j, (Function.update ws c w' j).passed (v.mainBarrier d)
        = (ws j).passed (v.mainBarrier d) ∧
      (Function.update ws c w' j).waitsAt v (v.mainBarrier d) = (ws j).waitsAt v (v.mainBarrier d) ∧
      (Function.update ws c w' j).tests (v.connDir j d) = (ws j).tests (v.connDir j d) := by
    refine (Function.forall_update_iff ws fun j w =>
      w.passed (v.mainBarrier d) = (ws j).passed (v.mainBarrier d) ∧
        w.waitsAt v (v.mainBarrier d) = (ws j).waitsAt v (v.mainBarrier d) ∧
          w.tests (v.connDir j d) = (ws j).tests (v.connDir j d)).mpr
      ⟨⟨?_, ?_, ?_⟩, fun _ _ => ⟨rfl, rfl, rfl⟩⟩
    · rw [hpassed]
    · rw [hwaits _ hw, hwaits _ hw']
    · rw [TalkWorker.tests, hdirs, TalkWorker.tests]
  unfold Ledger
  simp only [hsame]
  refine Gathered.add (i := c) (k := k) hmeets (TestEnv.joins_main d) h (hwaits _ hw) hcount hmember
    hflag ?_ ?_ ?_
  · simp [hnot]
  · simp [hmember, htests, hdone]
  · intro j hj
    simp [Function.update_of_ne hj]

/-- The worker after a barrier has let it go. -/
def TalkWorker.released (v : TestEnv) (e : Endpoint) (c : Fin v.workers) (d : Dir) (b : BarrierId)
    (serial : Bool) (now : UInt64) (w : TalkWorker) : TalkWorker :=
  { w.proceed v e c d serial now with waiting := false, passed := w.passes b }

theorem TalkWorker.released_dirs {w : TalkWorker} {b : BarrierId} (serial : Bool) (now : UInt64) :
    (w.released v e c d b serial now).dirs = w.dirs :=
  (TalkWorker.proceed_keeps serial now).1

theorem TalkWorker.tests_released {w : TalkWorker} {b : BarrierId} (serial : Bool) (now : UInt64)
    (d' : Dir) : (w.released v e c d b serial now).tests d' = w.tests d' := by
  rw [tests, released_dirs, tests]

/-- A counter has no part in the barriers of a direction. -/
theorem TalkWorker.done_of_barrier {w : TalkWorker} {b : BarrierId}
    (hb : w.pc.barrier v d = some b) (hne : b ≠ v.mainBarrier d) : w.done im = false := by
  rcases TalkWorker.barrier_cases hb with ⟨h, -⟩ | ⟨-, hpc⟩ | ⟨-, hpc⟩ | ⟨rfl, hpc⟩
  · exact absurd h hne
  · rcases hpc with hpc | hpc | hpc | hpc <;> simp [TalkWorker.done, hpc]
  · simp [TalkWorker.done, hpc]
  · simp [TalkWorker.done, hpc]

/-- A barrier lets a worker go. -/
theorem Ledger.leave {d₁ : Dir} {rest : List Dir} {b : BarrierId} (h : Ledger v e ws im d val)
    (hshape : ∀ c, (ws c).Shape v e c)
    (hmeets : Meets (v.Joins (v.mainBarrier d)) (fun c => (ws c).passed (v.mainBarrier d))
      (fun c => (ws c).waitsAt v (v.mainBarrier d)))
    (htested : v.Tested d) (hd : (ws c).dirs = d₁ :: rest) (hw : (ws c).waiting = true)
    (hb : (ws c).pc.barrier v d₁ = some b)
    (hall : ∀ c', v.Joins b c' →
      entered (fun c => (ws c).passed b) (fun c => (ws c).waitsAt v b) c
        ≤ entered (fun c => (ws c).passed b) (fun c => (ws c).waitsAt v b) c')
    (serial : Bool) (now : UInt64) :
    Ledger v e (Function.update ws c ((ws c).released v e c d₁ b serial now)) im d val := by
  have hplain : ((ws c).released v e c d₁ b serial now).done im = false :=
    (TalkWorker.aside_proceed hb serial now).1.1 im
  by_cases hbd : b = v.mainBarrier d
  · subst hbd
    refine Gathered.leave (i := c) hmeets (TestEnv.joins_main d) h ?_
      (fun j => hall j (TestEnv.joins_main d j)) ?_ ?_ ?_ ?_ ?_ ?_ ?_ ?_
    · rw [TalkWorker.waitsAt_eq hd hw hb, decide_eq_true_eq]
    · refine (Function.forall_update_iff ws fun j w =>
        w.tests (v.connDir j d) = (ws j).tests (v.connDir j d)).mpr ⟨?_, fun _ _ => rfl⟩
      exact TalkWorker.tests_released serial now _
    · intro j k hpassed
      exact (hshape j).tests_of_passed (htested j) hpassed
    · intro j k hm hwaits hpassed
      obtain ⟨htests, hpc⟩ := (hshape j).startWait hwaits hpassed
      simp [hm, htests, TalkWorker.done, hpc]
    · intro j k hm hflag hwaits hpassed
      obtain ⟨htests, hpc, hweak⟩ := (hshape j).returnWait hwaits hpassed
      simp [hm, htests, TalkWorker.done, hpc, hweak, hflag]
    · simp [TalkWorker.released, TalkWorker.passes]
    · simp [TalkWorker.released, TalkWorker.waitsAt]
    · simp [hplain]
    · intro j hj
      simp [Function.update_of_ne hj]
  · refine h.quiet ?_ ?_ ?_ ?_
    · exact Function.update_of_ne (Ne.symm hbd) _ _
    · rw [TalkWorker.waitsAt_eq hd hw hb, decide_eq_true_eq]
      exact fun heq => absurd heq hbd
    · rw [TalkWorker.tests_released]
      exact .inl
    · intro _
      rw [hplain, Bool.and_false]
      symm
      cases htests : (ws c).tests (v.connDir c d) with
      | false => rfl
      | true =>
          obtain ⟨rest', hd'⟩ := TalkWorker.dirs_of_tests htests
          obtain rfl : d₁ = v.connDir c d := by
            rw [hd] at hd'
            exact (List.cons.inj hd').1
          rw [Bool.true_and]
          refine TalkWorker.done_of_barrier hb ?_
          rw [TestEnv.mainBarrier_connDir]
          exact hbd

/-! ### The crew -/

namespace Crew

variable {rest : List Dir}

/-- **What a worker reads**: with the verdict before it, the counters hold the numbers of weak
streams of all workers, in every direction it asks for. -/
theorem settled (h : Crew v e ws sh) (hd : (ws c).dirs = d :: rest) (hw : (ws c).waiting = false)
    (hreads : (ws c).pc.reads = true) : sh.Settled v d (ws c).k := by
  have hat := (h.shape c).now d rest hd
  have hmem := (h.shape c).mem hd
  have hpassed := hat.between hreads
  have hval : ∀ im d', v.connDir c d' = d → (∃ m, v.member im d' m = true) →
      sh.counter im d' =
        tally (fun j => v.member im d' j && v.weak j (v.connDir j d') (ws c).k) := by
    intro im d' hd' hm
    have htested : v.Tested d' := by
      refine fun c' => ?_
      cases ha : v.asynchronous with
      | true => exact TestEnv.connDir_mem ha d'
      | false =>
          have heq : ∀ c, v.connDir c d' = d' := by simp [TestEnv.connDir, ha]
          rw [heq] at hd' ⊢
          rw [hd', TestEnv.dirs_sync ha c' c]
          exact hmem
    have hbarrier : v.mainBarrier d' = v.mainBarrier d := by
      rw [← hd', TestEnv.mainBarrier_connDir]
    have htimetable : v.timetable e d' = v.timetable e d := by
      rw [← hd', TestEnv.timetable_connDir]
    refine Gathered.val_eq (i := c) (h.meets (v.mainBarrier d')) (TestEnv.joins_main d')
      (h.counters im d' htested) ?_ (TalkWorker.waitsAt_of_waiting hw _) ?_ ?_ ?_ hm
    · rw [hd', TalkWorker.tests_eq hd, decide_eq_true_eq]
    · rw [hbarrier, htimetable]
      exact hpassed.1
    · rw [hbarrier, htimetable]
      exact hpassed.2
    · intro j hm hflag hwaits hcount
      obtain ⟨htests, hpc, hweak⟩ := (h.shape j).returnWait hwaits hcount
      simp [hm, htests, TalkWorker.done, hpc, hweak, hflag]
  refine ⟨?_, ?_⟩
  · have hweak := hval false d (TestEnv.connDir_of_mem hmem) ⟨c, rfl⟩
    simpa [TalkContext.counter, TestEnv.member, TestEnv.weakTotal] using hweak
  · intro d' hd'
    have hconn : v.connDir c d' = d := by
      rcases hd' with ha | rfl
      · have hdirs := TestEnv.dirs_async (c := c) ha d'
        rw [hdirs, List.mem_singleton] at hmem
        exact hmem.symm
      · exact TestEnv.connDir_of_mem hmem
    have hm : ∃ m, v.member true d' m = true := by
      rcases hd' with ha | rfl
      · obtain ⟨m, hm⟩ := TestEnv.exists_dir ha d'
        exact ⟨m, by simp [TestEnv.member, hm]⟩
      · exact ⟨c, by simp [TestEnv.member, hmem]⟩
    have him : sh.imWeak d' = _ := hval true d' hconn hm
    rw [him]
    refine congrArg tally (funext fun j => ?_)
    cases hmj : decide (d' ∈ v.dirs j) with
    | false => simp [TestEnv.member, hmj]
    | true => simp [TestEnv.member, hmj, TestEnv.connDir_of_mem (of_decide_eq_true hmj)]

end Crew

end Ubwt
