import Ubwt.Lib.Progress
import Ubwt.Talk.Duration
import Ubwt.Talk.Rank

/-!
# Ubwt.Talk.Progress

**No test hangs** (`no_deadlock`), as long as no message is lost, no call fails and no assertion
on a count does. In every state that the workers can reach and in which not all of them are back
from `process_run`, one of them has a step, or has heard a number of packets that it does not admit.

A worker without a step waits for another one (`TalkTest.Waits`): at a barrier, for a message, or
for the global mutex. Who holds the mutex has a step, and the others whom it may wait for are not as
far as it is (`TalkWorker.rank`), so the chain of those who wait comes to an end.
-/

namespace Ubwt

open Lib

/-! ### All workers -/

namespace TalkTest

variable {v : TestEnv} {s s' : TalkTest v.workers} {e : Endpoint} {c c' : Fin v.workers} {d : Dir}
  {rest : List Dir} {b : BarrierId}

/-- A worker without a direction before it is back. -/
theorem Reachable.returned (h : s.Reachable v) (hd : (s.worker e c).dirs = []) :
    (s.worker e c).pc = .returned := by
  induction h with
  | refl =>
      have hnil : v.dirs c = [] := hd
      revert hnil
      unfold TestEnv.dirs processRun
      split <;> split <;> nofun
  | @tail s s' hreach hstep ih =>
      by_cases hsame : s'.worker e c = s.worker e c
      · rw [hsame] at hd ⊢
        exact ih hd
      · rcases hstep.dirs_cases e c with ⟨hdirs, -⟩ | ⟨d, rest, -, -, heq⟩
        · -- Only a worker that has a direction takes a step.
          refine absurd ?_ hsame
          rw [hdirs] at hd
          cases hstep with
          | loc e' c' hd' _ _ | leave e' c' _ _ hd' _ _ _ =>
              refine worker_set_of_ne ?_
              rintro ⟨rfl, rfl⟩
              cases hd.symm.trans hd'
          | send e' c' _ _ hd' _ _ | recv e' c' _ hd' _ _ _ _ =>
              rw [worker_setChan]
              refine worker_set_of_ne ?_
              rintro ⟨rfl, rfl⟩
              cases hd.symm.trans hd'
        · rw [heq] at hd ⊢
          obtain rfl : rest = [] := hd
          rfl

/-- A step of a worker that makes no call of a receiver wrong. -/
theorem Reachable.sideMet (h : s.Reachable v) (ha : v.asynchronous = true)
    (hd : (s.worker e c).dirs = d :: rest) (hrole : d.role e = .receiver) :
    (s.worker e c).SideMet d := by
  induction h generalizing rest with
  | refl => rfl
  | @tail s s' hreach hstep ih =>
      have hreach : s.Reachable v := hreach
      -- The one direction of the worker is the one it was in before.
      have hbefore : ∀ {d₁ rest₁}, (s.worker e c).dirs = d₁ :: rest₁ → d₁ = d := by
        intro d₁ rest₁ hd₁
        have hmem := ((hreach.inv.crew e).shape c).mem hd₁
        have hmem' := (((inv_step hreach.inv hstep).crew e).shape c).mem hd
        rw [TestEnv.dirs_async ha d, List.mem_singleton] at hmem hmem'
        exact hmem.trans hmem'.symm
      have hother : ∀ {e' c' w sh}, ¬(e = e' ∧ c = c') →
          ((s.set e' c' w sh).worker e c).dirs = d :: rest →
            ((s.set e' c' w sh).worker e c).SideMet d := by
        intro e' c' w sh hne hd
        rw [worker_set_of_ne hne] at hd ⊢
        exact ih hd
      -- There is no next direction.
      have hlast : ∀ {step rest₁}, (s.worker e c).dirs = d :: rest₁ →
          (s.worker e c).exchange = some step → s'.worker e c = (s.worker e c).nextDir rest₁ →
            False := by
        intro step rest₁ hd₁ _ heq
        have hsuffix := ((hreach.inv.crew e).shape c).suffix
        rw [hd₁, TestEnv.dirs_async ha d] at hsuffix
        rw [heq] at hd
        obtain rfl : rest₁ = d :: rest := hd
        have hle := hsuffix.length_le
        simp at hle
      cases hstep with
      | @loc e' c' d₁ rest₁ w sh hd₁ hw hlocal =>
          by_cases hsame : e = e' ∧ c = c'
          · obtain ⟨rfl, rfl⟩ := hsame
            obtain rfl := hbefore hd₁
            rw [worker_set_self]
            exact (ih hd₁).loc hrole hlocal
          · exact hother hsame hd
      | @leave e' c' d₁ rest₁ b serial now hd₁ hw hb hall =>
          by_cases hsame : e = e' ∧ c = c'
          · obtain ⟨rfl, rfl⟩ := hsame
            obtain rfl := hbefore hd₁
            rw [worker_set_self]
            exact (ih hd₁).released (((hreach.inv.crew e).shape c).now _ _ hd₁) ha hrole hb serial now
          · exact hother hsame hd
      | @send e' c' d₁ rest₁ step fill fillSize hd₁ hx hspeaks =>
          rw [worker_setChan] at hd hlast ⊢
          by_cases hsame : e = e' ∧ c = c'
          · obtain ⟨rfl, rfl⟩ := hsame
            obtain rfl := hbefore hd₁
            rw [worker_set_self] at hlast ⊢
            refine (ih hd₁).sent (((hreach.inv.crew e).shape c).now _ _ hd₁) hx ?_
            rintro rfl
            refine hlast hd₁ hx ?_
            simp only [TalkWorker.sent, TalkWorker.pc_eq_finish hx]
          · exact hother hsame hd
      | @recv e' c' d₁ rest₁ step pkt more latency hd₁ hx hspeaks hchan _ =>
          rw [worker_setChan] at hd hlast ⊢
          by_cases hsame : e = e' ∧ c = c'
          · obtain ⟨rfl, rfl⟩ := hsame
            obtain rfl := hbefore hd₁
            rw [worker_set_self] at hlast ⊢
            refine (ih hd₁).heard (((hreach.inv.crew e).shape c).now _ _ hd₁) hx ?_
            rintro rfl
            refine hlast hd₁ hx ?_
            simp only [TalkWorker.heard, TalkWorker.pc_eq_finish hx]
          · exact hother hsame hd

theorem Reachable.passed_dir (h : s.Reachable v) (ha : v.asynchronous = true)
    (hd : (s.worker e c).dirs = d :: rest) :
    (s.worker e c).passed (.dir d) = (s.worker e c).pc.sideCalls (d.role e) (s.worker e c).k := by
  cases hrole : d.role e with
  | sender => exact (((h.inv.crew e).shape c).now d rest hd).side ha hrole
  | receiver => exact h.sideMet ha hd hrole

/-! ### What a worker waits for -/

/-- The worker has a step. -/
inductive Ready (v : TestEnv) (s : TalkTest v.workers) (e : Endpoint) (c : Fin v.workers) : Prop
  | loc {d : Dir} {rest : List Dir} (hd : (s.worker e c).dirs = d :: rest) (hw : (s.worker e c).waiting = false)
      (h : ∃ w sh, TalkWorker.Local v e c d (s.worker e c) (s.shared e) w sh)
  | leave {d : Dir} {rest : List Dir} {b : BarrierId}
      (hd : (s.worker e c).dirs = d :: rest) (hw : (s.worker e c).waiting = true)
      (hb : (s.worker e c).pc.barrier v d = some b)
      (hall : ∀ c', v.Joins b c' →
        entered (fun c => (s.worker e c).passed b) (fun c => (s.worker e c).waitsAt v b) c
          ≤ entered (fun c => (s.worker e c).passed b) (fun c => (s.worker e c).waitsAt v b) c')
  | send {d : Dir} {rest : List Dir} {step : TalkStep} (hd : (s.worker e c).dirs = d :: rest)
      (hx : (s.worker e c).exchange = some step) (hrole : d.role e = step.speaker)
  | recv {d : Dir} {rest : List Dir} {step : TalkStep} {pkt : TalkPayload}
      {more : List TalkPayload} (hd : (s.worker e c).dirs = d :: rest)
      (hx : (s.worker e c).exchange = some step) (hrole : d.role e ≠ step.speaker)
      (hchan : s.chan c e.peer = pkt :: more) (hcheck : talkCheck v.iter pkt step = .ok ())

/-- The worker is to hear a number of packets that it does not admit. -/
def Refuses (v : TestEnv) (s : TalkTest v.workers) (e : Endpoint) (c : Fin v.workers) : Prop :=
  ∃ d rest k pkt more, (s.worker e c).dirs = d :: rest ∧ d.role e = .receiver ∧
    (s.worker e c).exchange = some (.negotiate k) ∧ s.chan c e.peer = pkt :: more ∧
    configTalkCountMax ≤ pkt.count

/-- The worker waits for another one. -/
inductive Waits (v : TestEnv) (s : TalkTest v.workers) (e : Endpoint) (c : Fin v.workers) : Prop
  | barrier {d : Dir} {rest : List Dir} {b : BarrierId} (c' : Fin v.workers)
      (hd : (s.worker e c).dirs = d :: rest) (hw : (s.worker e c).waiting = true)
      (hb : (s.worker e c).pc.barrier v d = some b)
      (hjoins : v.Joins b c')
      (hlt :
        entered (fun c => (s.worker e c).passed b) (fun c => (s.worker e c).waitsAt v b) c'
          < entered (fun c => (s.worker e c).passed b) (fun c => (s.worker e c).waitsAt v b) c)
  | message {d : Dir} {rest : List Dir} {step : TalkStep} (hd : (s.worker e c).dirs = d :: rest)
      (hx : (s.worker e c).exchange = some step) (hrole : d.role e ≠ step.speaker)
      (hchan : s.chan c e.peer = [])
  | mutex (c' : Fin v.workers) (hm : (s.shared e).mutex = some c')

theorem Ready.exists_step (h : s.Ready v e c) : ∃ s', Step v s s' := by
  cases h with
  | loc hd hw h =>
      obtain ⟨w, sh, hlocal⟩ := h
      exact ⟨_, .loc e c hd hw hlocal⟩
  | leave hd hw hb hall => exact ⟨_, .leave e c false 0 hd hw hb hall⟩
  | send hd hx hrole =>
      exact ⟨_, .send e c (List.replicate (talkPayloadMaxSize - talkHdrSize) 0)
        List.length_replicate hd hx hrole⟩
  | recv hd hx hrole hchan hcheck => exact ⟨_, .recv e c 0 hd hx hrole hchan hcheck⟩

/-- What a worker hears passes its checks, but for a number of packets. -/
theorem Reachable.hears {step : TalkStep} {pkt : TalkPayload} {more : List TalkPayload}
    (h : s.Reachable v) (hd : (s.worker e c).dirs = d :: rest)
    (hx : (s.worker e c).exchange = some step) (hrole : d.role e ≠ step.speaker)
    (hchan : s.chan c e.peer = pkt :: more) : s.Ready v e c ∨ s.Refuses v e c := by
  have hsays : v.Says c ((s.worker e c).pos v).1 pkt :=
    ((h.inv.inStep c).behind (s := e) hchan).2.1
  rw [TalkWorker.pos_of_exchange hd hx] at hsays
  obtain ⟨f, x, -, hpkt, -⟩ := hsays
  by_cases hadm : ∀ k, step = .negotiate k → x.count < configTalkCountMax
  · refine .inl (.recv hd hx hrole hchan ?_)
    exact talkCheck_talkSay (congrArg TalkPayload.flags hpkt) (congrArg TalkPayload.count hpkt) hadm
  · obtain ⟨k, hk⟩ := not_forall.mp hadm
    obtain ⟨rfl, hlarge⟩ := Classical.not_imp.mp hk
    have hreceiver : d.role e = .receiver := by
      cases hr : d.role e with
      | sender => exact absurd hr hrole
      | receiver => rfl
    refine .inr ⟨d, rest, k, pkt, more, hd, hreceiver, hx, hchan, ?_⟩
    rw [hpkt]
    exact UInt32.not_lt.mp hlarge

/-- **Every worker that is not back has a step, refuses a count, or waits.** -/
theorem Reachable.ready_or_waits (h : s.Reachable v) (hd : (s.worker e c).dirs = d :: rest) :
    s.Ready v e c ∨ s.Refuses v e c ∨ s.Waits v e c := by
  have hat := ((h.inv.crew e).shape c).now d rest hd
  cases hw : (s.worker e c).waiting with
  | true =>
      obtain ⟨b, hb⟩ := Option.isSome_iff_exists.mp (hat.barrier hw)
      by_cases hall : ∀ c', v.Joins b c' →
          entered (fun c => (s.worker e c).passed b) (fun c => (s.worker e c).waitsAt v b) c
            ≤ entered (fun c => (s.worker e c).passed b) (fun c => (s.worker e c).waitsAt v b) c'
      · exact .inl (.leave hd hw hb hall)
      · obtain ⟨c', hc'⟩ := not_forall.mp hall
        obtain ⟨hjoins, hlt⟩ := Classical.not_imp.mp hc'
        exact .inr (.inr (.barrier c' hd hw hb hjoins (Nat.not_le.mp hlt)))
  | false =>
      have hloc : (∃ w sh, TalkWorker.Local v e c d (s.worker e c) (s.shared e) w sh) →
          s.Ready v e c ∨ s.Refuses v e c ∨ s.Waits v e c := fun h => .inl (.loc hd hw h)
      have hlock : ∀ {P : Prop}, ((s.shared e).mutex = none → s.Ready v e c ∨ P ∨ s.Waits v e c) →
          s.Ready v e c ∨ P ∨ s.Waits v e c := by
        intro P hfree
        cases hm : (s.shared e).mutex with
        | none => exact hfree hm
        | some c' => exact .inr (.inr (.mutex c' hm))
      have htalk : ∀ {step}, (s.worker e c).exchange = some step →
          s.Ready v e c ∨ s.Refuses v e c ∨ s.Waits v e c := by
        intro step hx
        by_cases hrole : d.role e = step.speaker
        · exact .inl (.send hd hx hrole)
        · cases hchan : s.chan c e.peer with
          | nil => exact .inr (.inr (.message hd hx hrole hchan))
          | cons pkt more => exact (h.hears hd hx hrole hchan).imp_right .inl
      cases hpc : (s.worker e c).pc with
      | returned => exact absurd hpc (h.ne_returned hd)
      | talkInit => exact hloc ⟨_, _, .talkInit hpc⟩
      | countSet => exact hloc ⟨_, _, .countSet hpc⟩
      | resetLock => exact hlock fun hm => .inl (.loc hd hw ⟨_, _, .resetLock hpc hm⟩)
      | resetWeak => exact hloc ⟨_, _, .resetWeak hpc⟩
      | resetImWeak => exact hloc ⟨_, _, .resetImWeak hpc⟩
      | resetWeakTime => exact hloc ⟨_, _, .resetWeakTime hpc⟩
      | resetUnlock => exact hloc ⟨_, _, .resetUnlock hpc⟩
      | setLock => exact hlock fun hm => .inl (.loc hd hw ⟨_, _, .setLock hpc hm⟩)
      | loadWeak => exact hloc ⟨_, _, .loadWeak hpc⟩
      | storeWeak => exact hloc ⟨_, _, .storeWeak hpc⟩
      | loadImWeak => exact hloc ⟨_, _, .loadImWeak hpc⟩
      | storeImWeak => exact hloc ⟨_, _, .storeImWeak hpc⟩
      | setWeakTime => exact hloc ⟨_, _, .setWeakTime hpc⟩
      | setUnlock => exact hloc ⟨_, _, .setUnlock hpc⟩
      | testWeak => exact hloc ⟨_, _, .testWeak hpc⟩
      | testImWeak => exact hloc ⟨_, _, .testImWeak hpc⟩
      | testImWeakReverse => exact hloc ⟨_, _, .testImWeakReverse hpc⟩
      | recount => exact hloc ⟨_, _, .recount 0 hpc⟩
      | ping | pong | negotiate | streamStart | streamRun | streamEnd | report | finish =>
          exact htalk (by rw [TalkWorker.exchange, hpc])
      | initWait | countWait | countSync | resetWait | startWait | endWait | endWaitAll | setWait
      | returnWait | recountWait | recountSync =>
          exact hloc ⟨_, _, .enter (by rw [hpc]; rfl)⟩

/-- The owner of the mutex has a step. -/
theorem Reachable.ready_of_mutex (h : s.Reachable v) (hm : (s.shared e).mutex = some c) :
    s.Ready v e c := by
  have hholds : (s.worker e c).pc.holdsMutex = true := ((h.inv.crew e).mutex c).mp hm
  cases hd : (s.worker e c).dirs with
  | nil =>
      rw [h.returned hd] at hholds
      cases hholds
  | cons d rest =>
      have hw : (s.worker e c).waiting = false := by
        by_contra hw
        have hb := (((h.inv.crew e).shape c).now d rest hd).barrier (Bool.of_not_eq_false hw)
        revert hholds hb
        cases (s.worker e c).pc <;> nofun
      refine .loc hd hw ?_
      cases hpc : (s.worker e c).pc <;> rw [hpc] at hholds <;> try cases hholds
      · exact ⟨_, _, .resetWeak hpc⟩
      · exact ⟨_, _, .resetImWeak hpc⟩
      · exact ⟨_, _, .resetWeakTime hpc⟩
      · exact ⟨_, _, .resetUnlock hpc⟩
      · exact ⟨_, _, .loadWeak hpc⟩
      · exact ⟨_, _, .storeWeak hpc⟩
      · exact ⟨_, _, .loadImWeak hpc⟩
      · exact ⟨_, _, .storeImWeak hpc⟩
      · exact ⟨_, _, .setWeakTime hpc⟩
      · exact ⟨_, _, .setUnlock hpc⟩

/-! ### Whom it waits for -/

/-- At the barrier for all workers a worker waits for one that is not as far. -/
theorem Reachable.rank_lt_of_main (h : s.Reachable v) (hd : (s.worker e c).dirs = d :: rest)
    (hw : (s.worker e c).waiting = true)
    (hb : (s.worker e c).pc.barrier v d = some (v.mainBarrier d))
    (hle : (s.worker e c').passed (v.mainBarrier d)
        + ((s.worker e c').waitsAt v (v.mainBarrier d)).toNat
      ≤ (s.worker e c).passed (v.mainBarrier d)) :
    (s.worker e c').dirs ≠ [] ∧ (s.worker e c').rank < (s.worker e c).rank := by
  have hcrew := h.inv.crew e
  have hat := (hcrew.shape c).now d rest hd
  have hsuffix : d :: rest <:+ v.dirs c := hd ▸ (hcrew.shape c).suffix
  have hsuffix' := (hcrew.shape c').suffix
  have hmem : v.connDir c' d ∈ v.dirs c' := by
    cases ha : v.asynchronous with
    | true => exact TestEnv.connDir_mem ha d
    | false =>
        rw [TestEnv.connDir, ha, if_neg Bool.false_ne_true, TestEnv.dirs_sync ha c' c]
        exact (hcrew.shape c).mem hd
  by_cases hin : v.connDir c' d ∈ (s.worker e c').dirs
  · cases hd' : (s.worker e c').dirs with
    | nil =>
        rw [hd'] at hin
        cases hin
    | cons d₁ rest₁ =>
        refine ⟨List.cons_ne_nil _ _, ?_⟩
        rw [hd'] at hin hsuffix'
        cases ha : v.asynchronous with
        | true =>
            rw [TestEnv.dirs_async ha d] at hsuffix hsuffix'
            have hlen := hsuffix.length_le
            have hlen' := hsuffix'.length_le
            simp only [List.length_cons, List.length_nil] at hlen hlen'
            obtain rfl : rest₁ = [] := List.eq_nil_of_length_eq_zero (by omega)
            rw [List.mem_singleton] at hin
            subst hin
            refine hat.rank_lt_main ((hcrew.shape c').now _ _ hd') ?_ hd' hw hb hle
            rw [hd, hd', List.length_cons, List.length_nil, List.length_cons]
            omega
        | false =>
            have hconn : v.connDir c' d = d := by simp [TestEnv.connDir, ha]
            rw [TestEnv.dirs_sync ha c' c] at hsuffix'
            rw [hconn] at hin
            rcases TalkWorker.cons_suffix_cases (v.nodup_dirs c) hsuffix hsuffix' hin with
              heq | hlen
            · obtain ⟨rfl, rfl⟩ := List.cons.inj heq
              rw [← hconn] at hd'
              exact hat.rank_lt_main ((hcrew.shape c').now _ _ hd') (by rw [hd, hd']; rfl) hd' hw
                hb hle
            · refine TalkWorker.rank_lt_of_dirs ?_ ?_
              · rw [hd, hd', List.length_cons, List.length_cons]
                exact Nat.succ_lt_succ hlen
              · rw [hd']
                exact hsuffix'.length_le.trans (TalkWorker.length_dirs_le c)
  · obtain ⟨K, hfinal, hover, -⟩ := (hcrew.shape c').past _ hmem hin
    rw [TestEnv.mainBarrier_connDir, TestEnv.timetable_connDir] at hover
    have hpassed := hat.passed_lt hb (TalkWorker.final_connDir hfinal)
    omega

/-- So it does at the barrier for the workers of its direction. -/
theorem Reachable.rank_lt_of_side (h : s.Reachable v) (ha : v.asynchronous = true)
    (hd : (s.worker e c).dirs = d :: rest) (hw : (s.worker e c).waiting = true)
    (hb : (s.worker e c).pc.barrier v d = some (.dir d)) (hdirs' : v.dirs c' = [d])
    (hle : (s.worker e c').passed (.dir d) + ((s.worker e c').waitsAt v (.dir d)).toNat
      ≤ (s.worker e c).passed (.dir d)) :
    (s.worker e c').dirs ≠ [] ∧ (s.worker e c').rank < (s.worker e c).rank := by
  have hcrew := h.inv.crew e
  have hat := (hcrew.shape c).now d rest hd
  have hall : v.mainBarrier d = .all := by rw [TestEnv.mainBarrier, if_pos ha]
  -- Nobody is behind the last stream, since the worker is not.
  have hbehind : ∀ K, v.Final d K →
      (s.worker e c').passed (v.mainBarrier d) < (v.timetable e d).count K + 1 := by
    intro K hfinal
    refine Nat.lt_of_le_of_lt ?_ (hat.passed_lt hb hfinal)
    have hmeets := hcrew.meets (v.mainBarrier d) c' c (TestEnv.joins_main d c')
      (TestEnv.joins_main d c)
    dsimp only [entered] at hmeets
    rw [TalkWorker.waitsAt_eq hd hw hb, hall, decide_eq_false (by simp)] at hmeets
    rw [hall]
    exact hmeets
  have hsuffix : d :: rest <:+ v.dirs c := hd ▸ (hcrew.shape c).suffix
  have hsuffix' := (hcrew.shape c').suffix
  rw [hdirs'] at hsuffix'
  rw [TestEnv.dirs_async ha d] at hsuffix
  have hlen := hsuffix.length_le
  simp only [List.length_cons, List.length_nil] at hlen
  cases hd' : (s.worker e c').dirs with
  | nil =>
      obtain ⟨K, hfinal, hover, -⟩ := (hcrew.shape c').past d
        (hdirs' ▸ List.mem_singleton_self d) (by rw [hd']; exact List.not_mem_nil)
      have hlt := hbehind K hfinal
      omega
  | cons d₁ rest₁ =>
      rw [hd'] at hsuffix'
      have hlen' := hsuffix'.length_le
      obtain rfl : d₁ = d := List.mem_singleton.mp (hsuffix'.subset (List.mem_cons_self ..))
      have hat' := (hcrew.shape c').now _ _ hd'
      have hcalls := h.passed_dir ha hd
      have hcalls' := h.passed_dir ha hd'
      refine ⟨List.cons_ne_nil _ _, TalkWorker.At.rank_lt_side hat' ha ?_ hd' hw hb ?_ ?_ ?_⟩
      · simp only [List.length_cons, List.length_nil] at hlen'
        rw [hd, hd', List.length_cons, List.length_cons]
        omega
      · by_contra hreports
        obtain ⟨hfinal, hpassed⟩ := hat'.passed_of_reports (Bool.of_not_eq_false hreports)
        have hlt := hbehind _ hfinal
        omega
      · refine WorkerPc.sideSeg_of_calls hb ha hat.early hat'.early hat.sender ?_
        rw [← hcalls, ← hcalls']
        omega
      · intro hk hpc
        by_contra hwaits
        rw [Bool.of_not_eq_false hwaits, hcalls, hcalls', hk, hpc] at hle
        simp at hle

theorem Reachable.rank_lt_of_barrier (h : s.Reachable v) (hd : (s.worker e c).dirs = d :: rest)
    (hw : (s.worker e c).waiting = true) (hb : (s.worker e c).pc.barrier v d = some b)
    (hjoins : v.Joins b c')
    (hlt : entered (fun c => (s.worker e c).passed b) (fun c => (s.worker e c).waitsAt v b) c'
      < entered (fun c => (s.worker e c).passed b) (fun c => (s.worker e c).waitsAt v b) c) :
    (s.worker e c').dirs ≠ [] ∧ (s.worker e c').rank < (s.worker e c).rank := by
  have hle : (s.worker e c').passed b + ((s.worker e c').waitsAt v b).toNat
      ≤ (s.worker e c).passed b := by
    dsimp only [entered] at hlt
    rw [TalkWorker.waitsAt_eq hd hw hb, decide_eq_true rfl] at hlt
    exact Nat.le_of_lt_succ hlt
  by_cases hmain : b = v.mainBarrier d
  · subst hmain
    exact h.rank_lt_of_main hd hw hb hle
  · -- Only in asynchronous mode there is another barrier, for the workers of the direction.
    have hdir : b = .dir d := by
      rcases TalkWorker.barrier_cases hb with ⟨hb, -⟩ | ⟨hb, -⟩ | ⟨hb, -⟩ | ⟨hb, hpc⟩
      · exact absurd hb hmain
      · exact hb
      · exact hb
      · have ha := (((h.inv.crew e).shape c).now d rest hd).async (by rw [hpc]; rfl)
        rw [TestEnv.mainBarrier, if_pos ha] at hmain
        exact absurd hb hmain
    subst hdir
    have ha : v.asynchronous = true := by
      by_contra ha
      exact hmain (by rw [TestEnv.mainBarrier, if_neg ha])
    exact h.rank_lt_of_side ha hd hw hb (hjoins ha) hle

/-- Who listens to an empty channel is not behind its peer. -/
theorem Reachable.rank_pos_le (h : s.Reachable v) (hchan : s.chan c e.peer = []) :
    ((s.worker e.peer c).pos v).1.rank ≤ ((s.worker e c).pos v).1.rank := by
  have hshort : ((s.worker e.peer c).pos v).1.Short := by
    have hlen := ((h.inv.crew e.peer).shape c).suffix.length_le.trans
      (TalkWorker.length_dirs_le c)
    cases hd : (s.worker e.peer c).dirs with
    | nil =>
        rw [TalkWorker.pos, hd]
        trivial
    | cons d rest =>
        rw [hd] at hlen
        rw [TalkWorker.pos_eq hd]
        exact Nat.le_of_succ_le_succ hlen
  obtain ⟨t, hspoken, -⟩ := h.inv.inStep c
  rcases Endpoint.eq_or_eq_peer e t with rfl | rfl
  · exact TestEnv.rank_le_spoken hspoken hshort
  · rw [hchan] at hspoken
    have heq := hspoken.eq_of_nil
    rw [show (v.connScript c).peer e.peer = e from Endpoint.peer_peer e] at heq
    exact le_of_eq (congrArg (fun p => p.1.rank) heq.symm)

/-- **For a message a worker waits for one that is not as far**: a worker at a barrier. -/
theorem Reachable.rank_lt_of_message {step : TalkStep} (h : s.Reachable v)
    (hd : (s.worker e c).dirs = d :: rest) (hx : (s.worker e c).exchange = some step)
    (hrole : d.role e ≠ step.speaker) (hchan : s.chan c e.peer = [])
    (hready : ∀ e c, ¬s.Ready v e c) (hrefuses : ∀ e c, ¬s.Refuses v e c) :
    (s.worker e.peer c).dirs ≠ [] ∧ (s.worker e.peer c).rank < (s.worker e c).rank := by
  have hle := h.rank_pos_le hchan
  have hat := ((h.inv.crew e).shape c).now d rest hd
  have hpos := TalkWorker.pos_of_exchange (v := v) hd hx
  cases hd' : (s.worker e.peer c).dirs with
  | nil =>
      -- Who is back is ahead of everybody.
      rw [TalkWorker.pos, hd', hpos] at hle
      refine absurd hle (not_le_of_gt (Prod.Lex.toLex_lt_toLex.mpr (.inl ?_)))
      have hone : step.reports.toNat ≤ 1 := Bool.toNat_le _
      show 2 * (1 - rest.length) + step.reports.toNat < 4
      omega
  | cons d' rest' =>
      refine ⟨List.cons_ne_nil _ _, ?_⟩
      rw [hat.rank_eq_pos hd hx]
      refine lt_of_lt_of_le ?_ hle
      have hat' := ((h.inv.crew e.peer).shape c).now d' rest' hd'
      rcases h.ready_or_waits hd' with hready' | hrefuses' | hwaits
      · exact absurd hready' (hready _ _)
      · exact absurd hrefuses' (hrefuses _ _)
      · cases hwaits with
        | barrier _ hd₁ _ hb _ _ => exact (((h.inv.crew e.peer).shape c).now _ _ hd₁).rank_lt_pos hd₁ hb
        | mutex c' hm => exact absurd (h.ready_of_mutex hm) (hready _ _)
        | @message d₁ rest₁ step' hd₁ hx₁ hrole₁ hchan₁ =>
            -- They would both listen.
            rw [Endpoint.peer_peer] at hchan₁
            refine absurd ⟨hchan₁, hchan⟩ ((h.inv.inStep c).not_both_listen (s := e) ?_ ?_)
            · show ((s.worker e c).pos v).1.speaker = some e.peer
              rw [hpos]
              exact (TalkPos.speaker_talk_peer d rest step e).mpr hrole
            · show ((s.worker e.peer c).pos v).1.speaker = some e
              rw [TalkWorker.pos_of_exchange hd₁ hx₁]
              have hspeaker := (TalkPos.speaker_talk_peer d₁ rest₁ step' e.peer).mpr hrole₁
              rw [Endpoint.peer_peer] at hspeaker
              exact hspeaker

/-- **Somebody has a step**, as long as somebody is not back and nobody has heard a count that it
refuses. -/
theorem Reachable.exists_ready (h : s.Reachable v) (hlive : (s.worker e c).dirs ≠ [])
    (hrefuses : ∀ e c, ¬s.Refuses v e c) : ∃ e c, s.Ready v e c := by
  by_contra hnone
  have hready : ∀ e c, ¬s.Ready v e c := fun e c hready => hnone ⟨e, c, hready⟩
  have hblocked : ∀ i : Endpoint × Fin v.workers, (s.worker i.1 i.2).dirs ≠ [] → ¬False →
      ∃ j : Endpoint × Fin v.workers, (s.worker j.1 j.2).dirs ≠ [] ∧
        (s.worker j.1 j.2).rank < (s.worker i.1 i.2).rank := by
    intro ⟨e, c⟩ hlive _
    obtain ⟨d, rest, hd⟩ := List.exists_cons_of_ne_nil hlive
    rcases h.ready_or_waits hd with hready' | hrefuses' | hwaits
    · exact absurd hready' (hready _ _)
    · exact absurd hrefuses' (hrefuses _ _)
    · cases hwaits with
      | barrier c' hd hw hb hjoins hlt => exact ⟨(e, c'), h.rank_lt_of_barrier hd hw hb hjoins hlt⟩
      | message hd hx hrole hchan =>
          exact ⟨(e.peer, c), h.rank_lt_of_message hd hx hrole hchan hready hrefuses⟩
      | mutex c' hm => exact absurd (h.ready_of_mutex hm) (hready _ _)
  obtain ⟨-, -, hfalse⟩ := exists_free _ ⟨(e, c), hlive⟩ hblocked
  exact hfalse

/-- A completed test leaves nothing behind: no message on its way, and no owner of a mutex. -/
structure Clean (s : TalkTest v.workers) : Prop where
  completed : s.Completed
  chan : ∀ c e, s.chan c e = []
  mutex : ∀ e, (s.shared e).mutex = none

theorem Reachable.clean (h : s.Reachable v) (hdone : s.Completed) : s.Clean where
  completed := hdone
  chan := by
    intro c e
    refine (h.inv.inStep c).chan_eq_nil ?_ e
    intro f
    show ((s.worker f c).pos v).1.speaker = none
    rw [TalkWorker.pos, hdone f c]
    rfl
  mutex := by
    intro e
    by_contra hm
    obtain ⟨c, hm⟩ := Option.ne_none_iff_exists'.mp hm
    have hholds : (s.worker e c).pc.holdsMutex = true := ((h.inv.crew e).mutex c).mp hm
    rw [h.returned (hdone e c)] at hholds
    cases hholds

end TalkTest

/-- **No test hangs.** In every state that the workers of both endpoints can reach, in whatever
order they take their steps and whatever their streams take, the test is completed and has left
nothing behind, or one of the workers has a step, or a receiver is to hear a number of packets that
it does not admit. -/
theorem no_deadlock (v : TestEnv) (s : TalkTest v.workers) (h : s.Reachable v) :
    s.Clean ∨ (∃ s', TalkTest.Step v s s') ∨ ∃ e c, s.Refuses v e c := by
  by_cases hdone : s.Completed
  · exact .inl (h.clean hdone)
  · obtain ⟨e, he⟩ := not_forall.mp hdone
    obtain ⟨c, hlive⟩ := not_forall.mp he
    by_cases hrefuses : ∃ e c, s.Refuses v e c
    · exact .inr (.inr hrefuses)
    · have hnone : ∀ e c, ¬s.Refuses v e c := fun e c hr => hrefuses ⟨e, c, hr⟩
      obtain ⟨e, c, hready⟩ := h.exists_ready hlive hnone
      exact .inr (.inl hready.exists_step)

/-- The first stream of two connections: a worker waits for its STREAM END, and the one that is to
say it is at a barrier with one that has not begun to receive. -/
def inFirstStream : TalkTest envShortFirst.workers :=
  (TalkTest.init envShortFirst).run envShortFirst 85

theorem no_deadlock_inFirstStream :
    ((inFirstStream.worker .connector (0 : Fin 2)).pc = .streamEnd ∧
      (inFirstStream.worker .listener (0 : Fin 2)).pc = .endWait ∧
      (inFirstStream.worker .listener (1 : Fin 2)).pc = .startWait) ∧
      (inFirstStream.Clean ∨ (∃ s', TalkTest.Step envShortFirst inFirstStream s') ∨
        ∃ e c, inFirstStream.Refuses envShortFirst e c) :=
  ⟨by decide +kernel,
    no_deadlock envShortFirst inFirstStream (TalkTest.reachable_run 85 .refl)⟩

end Ubwt
