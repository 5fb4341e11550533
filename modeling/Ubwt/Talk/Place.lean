import Ubwt.Talk.Verdict

/-!
# Ubwt.Talk.Place

What holds of one worker in one direction (`TalkWorker.At`).

**Where a worker is fixes how often it has been at each barrier** (`mainPassed`,
`sidePassed`), whether it knows about its stream and which verdict it has come to. A step
of the worker keeps this, if what it reads of the shared counters is right
(`TalkContext.Settled`).
-/

namespace Ubwt

open Lib

/-! ### Where a worker is -/

namespace WorkerPc

/-- The segments that the barrier for all workers cuts a direction into. -/
def mainSeg : WorkerPc → Nat
  | talkInit | initWait | returned => 0
  | ping | pong | countWait => 1
  | countSet | countSync => 2
  | negotiate | streamStart | resetWait => 3
  | resetLock | resetWeak | resetImWeak | resetWeakTime | resetUnlock | startWait => 4
  | streamRun | endWait | endWaitAll => 5
  | streamEnd | setWait => 6
  | setLock | loadWeak | storeWeak | loadImWeak | storeImWeak | setWeakTime | setUnlock
  | returnWait => 7
  | testWeak | testImWeak | testImWeakReverse | recountWait | report | finish => 8
  | recount | recountSync => 9

theorem mainSeg_le (pc : WorkerPc) : pc.mainSeg ≤ 9 := by
  cases pc <;> decide

/-- How often a worker has been at that barrier in stream `k`; a synchronous sender, which uses
one barrier for everything, also counts the waits around the count. -/
def mainPassed (single : Bool) (pc : WorkerPc) (k : Nat) : Nat :=
  match single with
  | true => if pc.mainSeg ≤ 2 then pc.mainSeg else pc.mainSeg + 7 * k
  | false => if pc.mainSeg ≤ 2 then min pc.mainSeg 1 else min pc.mainSeg 8 - 2 + 5 * k

/-- The segments of the senders of a direction in asynchronous mode. -/
def sideSeg : WorkerPc → Nat
  | talkInit | initWait | ping | pong | countWait | returned => 0
  | countSet | countSync => 1
  | negotiate | streamStart | resetWait | resetLock | resetWeak | resetImWeak | resetWeakTime
  | resetUnlock | startWait | streamRun | endWait => 2
  | endWaitAll | streamEnd | setWait | setLock | loadWeak | storeWeak | loadImWeak | storeImWeak
  | setWeakTime | setUnlock | returnWait | testWeak | testImWeak | testImWeakReverse | recountWait
  | report | finish => 3
  | recount | recountSync => 4

def sidePassed (pc : WorkerPc) (k : Nat) : Nat :=
  if pc.sideSeg ≤ 1 then pc.sideSeg else pc.sideSeg + 3 * k

/-- Before the first stream. -/
def early (pc : WorkerPc) : Bool := pc.mainSeg ≤ 2

/-- Only a sender gets here. -/
def senderOnly : WorkerPc → Bool
  | countWait | countSet | countSync | recountWait | recount | recountSync => true
  | _ => false

/-- Only in asynchronous mode. -/
def asyncOnly : WorkerPc → Bool
  | endWaitAll | testImWeakReverse => true
  | _ => false

/-- The worker knows whether its stream was weak. -/
def knowsWeak : WorkerPc → Bool
  | setWait | setLock | loadWeak | storeWeak | loadImWeak | storeImWeak | setWeakTime | setUnlock
  | returnWait => true
  | _ => false

/-- Its stream was weak. -/
def adds : WorkerPc → Bool
  | setLock | loadWeak | storeWeak | loadImWeak | storeImWeak | setWeakTime | setUnlock => true
  | _ => false

/-- The verdict was another stream. -/
def recounts : WorkerPc → Bool
  | recountWait | recount | recountSync => true
  | _ => false

/-- The verdict was no other stream. -/
def reports : WorkerPc → Bool
  | report | finish => true
  | _ => false

/-- The receiver has measured the stream. -/
def measured (pc : WorkerPc) : Bool := decide (6 ≤ pc.mainSeg)

/-- The streams of all workers have been counted. -/
def reads (pc : WorkerPc) : Bool := decide (8 ≤ pc.mainSeg)

/-- Between a lock of the global mutex and its unlock. -/
def holdsMutex : WorkerPc → Bool
  | resetWeak | resetImWeak | resetWeakTime | resetUnlock => true
  | loadWeak | storeWeak | loadImWeak | storeImWeak | setWeakTime | setUnlock => true
  | _ => false

theorem eq_startWait {v : TestEnv} {d : Dir} {pc : WorkerPc} (hb : (pc.barrier v d).isSome = true)
    (hseg : pc.mainSeg = 4) : pc = .startWait := by
  cases pc <;> first | rfl | (cases hb; done) | cases hseg

theorem eq_returnWait {v : TestEnv} {d : Dir} {pc : WorkerPc} (hb : (pc.barrier v d).isSome = true)
    (hseg : pc.mainSeg = 7) : pc = .returnWait := by
  cases pc <;> first | rfl | (cases hb; done) | cases hseg

/-- One segment on within a stream. -/
theorem mainPassed_succ {p p' : WorkerPc} (hseg : p'.mainSeg = p.mainSeg + 1)
    (hlow : 3 ≤ p.mainSeg) (hhigh : p'.mainSeg ≤ 8) (k : Nat) (single : Bool) :
    p'.mainPassed single k = p.mainPassed single k + 1 := by
  unfold mainPassed
  cases single with
  | true =>
      dsimp only
      rw [if_neg (by omega), if_neg (by omega)]
      omega
  | false =>
      dsimp only
      rw [if_neg (by omega), if_neg (by omega), Nat.min_eq_left hhigh, Nat.min_eq_left (by omega)]
      omega

theorem sidePassed_succ {p p' : WorkerPc} (hseg : p'.sideSeg = p.sideSeg + 1)
    (hlow : 2 ≤ p.sideSeg) (k : Nat) : p'.sidePassed k = p.sidePassed k + 1 := by
  unfold sidePassed
  rw [if_neg (by omega), if_neg (by omega)]
  omega

/-- No barrier lies between the two, and whoever is at `p'` is no more than one who was at
`p`. -/
def follows (p p' : WorkerPc) : Bool :=
  decide (p'.mainSeg = p.mainSeg) && decide (p'.sideSeg = p.sideSeg) &&
  (!p'.senderOnly || p.senderOnly) && (!p'.asyncOnly || p.asyncOnly) &&
  (!p'.knowsWeak || p.knowsWeak) && (!p'.adds || p.adds) &&
  (!p'.recounts || p.recounts) && (!p'.reports || p.reports) &&
  decide (p' ≠ .talkInit ∧ p' ≠ .testImWeakReverse ∧ p' ≠ .finish)

end WorkerPc

/-- What holds of a worker in direction `d`. -/
structure TalkWorker.At (v : TestEnv) (e : Endpoint) (c : Fin v.workers) (d : Dir)
    (w : TalkWorker) :
    Prop where
  main : w.passed (v.mainBarrier d) = w.pc.mainPassed (v.single e d) w.k
  side : v.asynchronous = true → d.role e = .sender → w.passed (.dir d) = w.pc.sidePassed w.k
  ran : ∀ j < w.k, v.restart d j = true
  barrier : w.waiting = true → (w.pc.barrier v d).isSome = true
  fresh : w.pc = .talkInit → ∀ b, w.passed b = 0 := by nofun
  early : w.pc.early = true → w.k = 0 := by nofun
  sender : w.pc.senderOnly = true → d.role e = .sender := by nofun
  async : w.pc.asyncOnly = true → v.asynchronous = true := by nofun
  weak : w.pc.knowsWeak = true → w.weak = v.weak c d w.k := by nofun
  adds : w.pc.adds = true → w.weak = true := by nofun
  reverse : w.pc = .testImWeakReverse → v.flagged .straight w.k ≠ v.workers / 2 := by nofun
  recounts : w.pc.recounts = true → v.restart d w.k = true := by nofun
  reports : w.pc.reports = true → v.restart d w.k = false := by nofun
  measured : w.pc.measured = true → d.role e = .receiver →
    (w.report d).talkStreamTimeDuration = v.time c d w.k := by nofun

/-- What the counters hold when the streams of all workers have been counted. -/
structure TalkContext.Settled (v : TestEnv) (d : Dir) (k : Nat) (sh : TalkContext v.workers) :
    Prop where
  weak : sh.weak = v.weakTotal d k
  imWeak : ∀ d', v.asynchronous = true ∨ d' = d → sh.imWeak d' = v.flagged d' k

/-! ### The steps in a direction -/

namespace TalkWorker

variable {v : TestEnv} {e : Endpoint} {c : Fin v.workers} {d : Dir} {w w' : TalkWorker}
  {sh sh' : TalkContext v.workers}

/-- A worker that does not wait is at no barrier. -/
theorem not_waiting {waiting : Bool} {P : Prop} (hw : waiting = false) : waiting = true → P := by
  rw [hw]
  nofun

/-- A claim that is not one of the place. -/
theorem not_claimed {pc p : WorkerPc} {q : Prop} (hpc : pc = p) (f : WorkerPc → Bool)
    (hf : f p = false) (hclaim : f pc = true) : q := by
  rw [hpc, hf] at hclaim
  cases hclaim

/-- A place of which only the counts are known. -/
theorem at_plain {p : WorkerPc} (hpc : w.pc = p)
    (hp : p = .negotiate ∨ p = .resetLock ∨ p = .streamRun)
    (hmain : w.passed (v.mainBarrier d) = p.mainPassed (v.single e d) w.k)
    (hside : v.asynchronous = true → d.role e = .sender → w.passed (.dir d) = p.sidePassed w.k)
    (hran : ∀ j < w.k, v.restart d j = true) (hw : w.waiting = false) : w.At v e c d := by
  rcases hp with rfl | rfl | rfl <;>
    exact {
      main := hmain.trans (by rw [hpc])
      side := fun ha hs => (hside ha hs).trans (by rw [hpc])
      ran := hran
      barrier := not_waiting hw
      fresh := fun h => by cases hpc.symm.trans h
      early := not_claimed hpc WorkerPc.early rfl
      sender := not_claimed hpc WorkerPc.senderOnly rfl
      async := not_claimed hpc WorkerPc.asyncOnly rfl
      weak := not_claimed hpc WorkerPc.knowsWeak rfl
      adds := not_claimed hpc WorkerPc.adds rfl
      reverse := fun h => by cases hpc.symm.trans h
      recounts := not_claimed hpc WorkerPc.recounts rfl
      reports := not_claimed hpc WorkerPc.reports rfl
      measured := not_claimed hpc WorkerPc.measured rfl }

/-- A place after a stream, where nothing is to be added to the counts. -/
theorem at_measured {p : WorkerPc} (hpc : w.pc = p)
    (hp : p = .streamEnd ∨ p = .setWait ∨ p = .returnWait ∨ p = .testWeak ∨ p = .report
      ∨ p = .finish)
    (hmain : w.passed (v.mainBarrier d) = p.mainPassed (v.single e d) w.k)
    (hside : v.asynchronous = true → d.role e = .sender → w.passed (.dir d) = p.sidePassed w.k)
    (hran : ∀ j < w.k, v.restart d j = true) (hw : w.waiting = false)
    (hweak : p.knowsWeak = true → w.weak = v.weak c d w.k)
    (hreports : p.reports = true → v.restart d w.k = false)
    (hmeasured : d.role e = .receiver → (w.report d).talkStreamTimeDuration = v.time c d w.k) :
    w.At v e c d := by
  rcases hp with rfl | rfl | rfl | rfl | rfl | rfl <;>
    exact {
      main := hmain.trans (by rw [hpc])
      side := fun ha hs => (hside ha hs).trans (by rw [hpc])
      ran := hran
      barrier := not_waiting hw
      fresh := fun h => by cases hpc.symm.trans h
      early := not_claimed hpc WorkerPc.early rfl
      sender := not_claimed hpc WorkerPc.senderOnly rfl
      async := not_claimed hpc WorkerPc.asyncOnly rfl
      weak := fun h => hweak (hpc ▸ h)
      adds := not_claimed hpc WorkerPc.adds rfl
      reverse := fun h => by cases hpc.symm.trans h
      recounts := not_claimed hpc WorkerPc.recounts rfl
      reports := fun h => hreports (hpc ▸ h)
      measured := fun _ => hmeasured }

/-- A step between two barriers after which nothing more is known. -/
theorem At.move {p p' : WorkerPc} (h : w.At v e c d) (hpc : w.pc = p) (hpc' : w'.pc = p')
    (hfollows : p.follows p' = true) (hk : w'.k = w.k) (hpassed : w'.passed = w.passed)
    (hwaiting : w'.waiting = false) (hweak : w'.weak = w.weak)
    (hreport : p'.measured = true →
      (w'.report d).talkStreamTimeDuration = (w.report d).talkStreamTimeDuration) :
    w'.At v e c d := by
  subst hpc hpc'
  simp only [WorkerPc.follows, Bool.and_eq_true, decide_eq_true_eq, Bool.or_eq_true,
    Bool.not_eq_true'] at hfollows
  obtain ⟨⟨⟨⟨⟨⟨⟨⟨hmain, hside⟩, hsender⟩, hasync⟩, hknows⟩, hadds⟩, hrecounts⟩, hreports⟩, hinit,
    hreverse, hfinish⟩ := hfollows
  -- A claim of the new place is one of the old place.
  have hold : ∀ {b b' : Bool}, b' = false ∨ b = true → b' = true → b = true := by
    intro b b' h hb
    rcases h with h | h
    · rw [h] at hb
      cases hb
    · exact h
  have hmeasured : w'.pc.measured = w.pc.measured := by
    unfold WorkerPc.measured
    rw [hmain]
  have hearly : w'.pc.early = w.pc.early := by
    unfold WorkerPc.early
    rw [hmain]
  exact {
    main := by
      rw [hpassed, h.main, hk]
      unfold WorkerPc.mainPassed
      rw [hmain]
    side := by
      intro ha hs
      rw [hpassed, h.side ha hs, hk, WorkerPc.sidePassed, WorkerPc.sidePassed, hside]
    ran := hk ▸ h.ran
    barrier := not_waiting hwaiting
    fresh := fun hp => absurd hp hinit
    early := fun hp => hk ▸ h.early (hearly ▸ hp)
    sender := fun hp => h.sender (hold hsender hp)
    async := fun hp => h.async (hold hasync hp)
    weak := fun hp => by rw [hweak, hk, h.weak (hold hknows hp)]
    adds := fun hp => by rw [hweak, h.adds (hold hadds hp)]
    reverse := fun hp => absurd hp hreverse
    recounts := fun hp => hk ▸ h.recounts (hold hrecounts hp)
    reports := fun hp => hk ▸ h.reports (hold hreports hp)
    measured := fun hp hr => by rw [hreport hp, hk, h.measured (hmeasured ▸ hp) hr] }

theorem At.ran_succ (h : w.At v e c d) (hrestart : v.restart d w.k = true) :
    ∀ j < w.k + 1, v.restart d j = true := by
  intro j hj
  rcases Nat.lt_succ_iff_lt_or_eq.mp hj with hlt | rfl
  · exact h.ran j hlt
  · exact hrestart

/-- The verdict that no stream is run any more. -/
theorem At.stop {p : WorkerPc} (h : w.At v e c d) (hpc : w.pc = p) (hp : p.follows .testWeak = true)
    (hw : w.waiting = false) (hrestart : v.restart d w.k = false) : (w.stop d).At v e c d := by
  have hmove : ({ w with pc := .testWeak } : TalkWorker).At v e c d :=
    h.move hpc rfl hp rfl rfl hw rfl (fun _ => rfl)
  exact at_measured (p := .report) rfl (by simp) hmove.main hmove.side h.ran hw
    (fun hp => by cases hp) (fun _ => hrestart) (hmove.measured rfl)

/-- The verdict that another stream is run. -/
theorem At.again {p : WorkerPc} (h : w.At v e c d) (hpc : w.pc = p)
    (hp : p.follows .testWeak = true) (hw : w.waiting = false)
    (hrestart : v.restart d w.k = true) : (w.again e d).At v e c d := by
  have hmove : ({ w with pc := .testWeak } : TalkWorker).At v e c d :=
    h.move hpc rfl hp rfl rfl hw rfl (fun _ => rfl)
  unfold TalkWorker.again
  cases hrole : d.role e with
  | sender =>
      exact {
        main := hmove.main
        side := hmove.side
        ran := h.ran
        barrier := not_waiting hw
        sender := fun _ => hrole
        recounts := fun _ => hrestart
        measured := fun _ hr => by cases hrole.symm.trans hr }
  | receiver =>
      have hsingle : v.single e d = false := by simp [TestEnv.single, hrole]
      refine at_plain rfl (.inl rfl) ?_ (fun _ hs => by cases hrole.symm.trans hs)
        (h.ran_succ hrestart) hw
      have hmain := hmove.main
      rw [hsingle] at hmain ⊢
      change w.passed (v.mainBarrier d) = 6 + 5 * w.k at hmain
      change w.passed (v.mainBarrier d) = 1 + 5 * (w.k + 1)
      omega

/-- A step of the worker alone, with the counters settled where it reads them. -/
theorem At.loc (h : w.At v e c d) (hw : w.waiting = false)
    (hsettled : w.pc.reads = true → sh.Settled v d w.k) (hstep : Local v e c d w sh w' sh') :
    w'.At v e c d := by
  cases hstep with
  | enter hb =>
      exact { h with
        barrier := fun _ => by rw [show w.pc.barrier v d = _ from hb]; rfl }
  | talkInit hpc | countSet hpc | resetWeak hpc | resetImWeak hpc | resetWeakTime hpc
  | resetUnlock hpc | loadWeak hpc | storeWeak hpc | loadImWeak hpc | storeImWeak hpc
  | setWeakTime hpc | setUnlock hpc =>
      exact h.move hpc rfl rfl rfl rfl hw rfl (fun _ => rfl)
  | resetLock hpc hm | setLock hpc hm | recount count hpc =>
      exact h.move hpc rfl rfl rfl rfl hw rfl (fun _ => rfl)
  | testWeak hpc =>
      have hcount := (hsettled (by rw [hpc]; rfl)).weak
      split
      · exact h.move hpc rfl rfl rfl rfl hw rfl (fun _ => rfl)
      · rename_i hzero
        refine h.stop hpc rfl hw ?_
        by_contra hrestart
        have := TestEnv.weakTotal_pos (Bool.of_not_eq_false hrestart)
        omega
  | testImWeak hpc =>
      have hcount := (hsettled (by rw [hpc]; rfl)).imWeak
      unfold testImWeak
      cases ha : v.asynchronous with
      | true =>
          rw [if_pos rfl, hcount .straight (.inl ha)]
          split
          · rename_i hall
            refine h.again hpc rfl hw ?_
            simp [TestEnv.restart, ha, hall]
          · rename_i hall
            have hmove : ({ w with pc := .testImWeak } : TalkWorker).At v e c d :=
              h.move hpc rfl rfl rfl rfl hw rfl (fun _ => rfl)
            exact {
              main := hmove.main
              side := hmove.side
              ran := h.ran
              barrier := not_waiting hw
              async := fun _ => ha
              reverse := fun _ => hall
              measured := fun _ => hmove.measured rfl }
      | false =>
          rw [if_neg Bool.false_ne_true, hcount d (.inr rfl)]
          split
          · rename_i hall
            refine h.again hpc rfl hw ?_
            simp [TestEnv.restart, ha, hall]
          · rename_i hall
            refine h.stop hpc rfl hw ?_
            simp [TestEnv.restart, ha, hall]
  | testImWeakReverse hpc =>
      have hcount := (hsettled (by rw [hpc]; rfl)).imWeak
      have ha := h.async (by rw [hpc]; rfl)
      have hstraight := h.reverse hpc
      rw [hcount .reverse (.inl ha)]
      split
      · rename_i hall
        refine h.again hpc rfl hw ?_
        simp [TestEnv.restart, ha, hall]
      · rename_i hall
        refine h.stop hpc rfl hw ?_
        simp [TestEnv.restart, ha, hall, hstraight]

/-! ### Back from a barrier -/

/-- The calls the worker has returned from, with one more of `b`. -/
def passes (w : TalkWorker) (b : BarrierId) : BarrierId → Nat :=
  Function.update w.passed b (w.passed b + 1)

theorem At.passes_main {p q : WorkerPc} {k : Nat} (h : w.At v e c d) (hpc : w.pc = p)
    (hmain : ∀ single, q.mainPassed single k = p.mainPassed single w.k + 1)
    (hside : q.sidePassed k = p.sidePassed w.k) :
    w.passes (v.mainBarrier d) (v.mainBarrier d) = q.mainPassed (v.single e d) k ∧
      (v.asynchronous = true → d.role e = .sender →
        w.passes (v.mainBarrier d) (.dir d) = q.sidePassed k) := by
  subst hpc
  refine ⟨?_, ?_⟩
  · rw [passes, Function.update_self, h.main, hmain]
  · intro ha hs
    have hne : (.dir d : BarrierId) ≠ v.mainBarrier d := by simp [TestEnv.mainBarrier, ha]
    rw [passes, Function.update_of_ne hne, h.side ha hs, hside]

theorem At.passes_dir {p q : WorkerPc} {k : Nat} (h : w.At v e c d) (hpc : w.pc = p)
    (hsync : v.asynchronous = false →
      q.mainPassed (v.single e d) k = p.mainPassed (v.single e d) w.k + 1)
    (hasync : v.asynchronous = true → q.mainPassed false k = p.mainPassed false w.k)
    (hside : q.sidePassed k = p.sidePassed w.k + 1) :
    w.passes (.dir d) (v.mainBarrier d) = q.mainPassed (v.single e d) k ∧
      (v.asynchronous = true → d.role e = .sender →
        w.passes (.dir d) (.dir d) = q.sidePassed k) := by
  subst hpc
  have hmain := h.main
  refine ⟨?_, ?_⟩
  · cases ha : v.asynchronous with
    | true =>
        have hne : v.mainBarrier d ≠ .dir d := by simp [TestEnv.mainBarrier, ha]
        have hsingle : v.single e d = false := by simp [TestEnv.single, ha]
        rw [passes, Function.update_of_ne hne, hmain, hsingle, hasync ha]
    | false =>
        have heq : v.mainBarrier d = .dir d := by simp [TestEnv.mainBarrier, ha]
        rw [hsync ha, ← hmain, heq, passes, Function.update_self]
  · intro ha hs
    rw [passes, Function.update_self, h.side ha hs, hside]

/-- The head of the handshake loop. -/
theorem at_toPing (i : Nat) (hmain : w.passed (v.mainBarrier d) = 1)
    (hside : v.asynchronous = true → d.role e = .sender → w.passed (.dir d) = 0)
    (hk : w.k = 0) (hw : w.waiting = false) : (w.toPing v e d i).At v e c d := by
  unfold toPing
  split
  · exact {
      main := by
        show w.passed _ = _
        rw [hmain]
        cases v.single e d <;> rfl
      side := hside
      ran := by simp [hk]
      barrier := not_waiting hw
      early := fun _ => hk }
  · cases hrole : d.role e with
    | sender =>
        exact {
          main := by
            show w.passed _ = _
            rw [hmain]
            cases v.single e d <;> rfl
          side := fun ha _ => hside ha hrole
          ran := by simp
          barrier := not_waiting hw
          early := fun _ => rfl
          sender := fun _ => hrole }
    | receiver =>
        refine at_plain rfl (.inl rfl) ?_ (fun _ hs => by cases hrole.symm.trans hs)
          (fun j hj => by cases hj) hw
        show w.passed _ = _
        rw [hmain, TestEnv.single, hrole]
        cases v.asynchronous <;> rfl

/-- The head of the stream loop. -/
theorem At.toRun (i : Nat) (h : ({ w with pc := .streamRun } : TalkWorker).At v e c d)
    (hw : w.waiting = false) : (w.toRun i).At v e c d := by
  unfold TalkWorker.toRun
  split <;> exact h.move rfl rfl rfl rfl rfl hw rfl (fun _ => rfl)

/-- The end of a stream, where the receiver measures it. -/
theorem at_measure (hmain : w.passed (v.mainBarrier d) =
      WorkerPc.mainPassed (v.single e d) .streamEnd w.k)
    (hside : v.asynchronous = true → d.role e = .sender →
      w.passed (.dir d) = WorkerPc.sidePassed .streamEnd w.k)
    (hran : ∀ j < w.k, v.restart d j = true) (hw : w.waiting = false) :
    (w.measure v e c d).At v e c d := by
  unfold measure
  cases hrole : d.role e with
  | sender =>
      exact at_measured rfl (.inl rfl) hmain hside hran hw (fun hp => by cases hp)
        (fun hp => by cases hp) (fun hr => by cases hrole.symm.trans hr)
  | receiver =>
      exact at_measured rfl (.inl rfl) hmain hside hran hw (fun hp => by cases hp)
        (fun hp => by cases hp) (fun _ => by simp [setReport])

theorem toRun_with (i : Nat) (passed : BarrierId → Nat) :
    { w.toRun i with waiting := false, passed := passed }
      = ({ w with waiting := false, passed := passed } : TalkWorker).toRun i := by
  unfold toRun
  split <;> rfl

theorem proceed_with (serial : Bool) (now : UInt64) (passed : BarrierId → Nat) :
    { w.proceed v e c d serial now with waiting := false, passed := passed }
      = ({ w with waiting := false, passed := passed } : TalkWorker).proceed v e c d serial now := by
  obtain ⟨dirs, pc, k, i, count, acc, weak, time, report, waiting, was, decided⟩ := w
  cases pc with
  | initWait =>
      simp only [proceed, toPing]
      split
      · rfl
      · cases d.role e <;> rfl
  | startWait =>
      simp only [proceed]
      cases d.role e <;> exact toRun_with 0 passed
  | endWait =>
      simp only [proceed, measure, setReport]
      split
      · rfl
      · cases d.role e <;> rfl
  | endWaitAll =>
      simp only [proceed, measure, setReport]
      cases d.role e <;> rfl
  | _ => rfl

theorem barrier_cases {b : BarrierId} (h : w.pc.barrier v d = some b) :
    (b = v.mainBarrier d ∧ (w.pc = .initWait ∨ w.pc = .resetWait ∨ w.pc = .startWait ∨
      w.pc = .setWait ∨ w.pc = .returnWait)) ∨
    (b = .dir d ∧ (w.pc = .countWait ∨ w.pc = .countSync ∨ w.pc = .recountWait ∨
      w.pc = .recountSync)) ∨
    (b = .dir d ∧ w.pc = .endWait) ∨
    (b = .all ∧ w.pc = .endWaitAll) := by
  cases hpc : w.pc <;> rw [hpc] at h <;> cases h <;> simp

/-- Back from the barrier for all workers. -/
theorem At.leave_main (h : w.At v e c d)
    (hpc : w.pc = .initWait ∨ w.pc = .resetWait ∨ w.pc = .startWait ∨ w.pc = .setWait ∨
      w.pc = .returnWait) (serial : Bool) (now : UInt64) :
    (({ w with waiting := false, passed := w.passes (v.mainBarrier d) } : TalkWorker).proceed
      v e c d serial now).At v e c d := by
  rcases hpc with hpc | hpc | hpc | hpc | hpc
  · have hk := h.early (by rw [hpc]; rfl)
    obtain ⟨hmain, hside⟩ := h.passes_main (q := .ping) (k := 0) hpc
      (by intro single; cases single <;> rfl) rfl
    simp only [proceed, hpc]
    refine at_toPing 0 (hmain.trans ?_) hside hk rfl
    cases v.single e d <;> rfl
  · obtain ⟨hmain, hside⟩ := h.passes_main (q := .resetLock) hpc
      (WorkerPc.mainPassed_succ rfl (by decide) (by decide) w.k) rfl
    simp only [proceed, hpc]
    exact at_plain rfl (.inr (.inl rfl)) hmain hside h.ran rfl
  · obtain ⟨hmain, hside⟩ := h.passes_main (q := .streamRun) hpc
      (WorkerPc.mainPassed_succ rfl (by decide) (by decide) w.k) rfl
    simp only [proceed, hpc]
    cases d.role e <;>
      exact At.toRun 0 (at_plain rfl (.inr (.inr rfl)) hmain hside h.ran rfl) rfl
  · obtain ⟨hmain, hside⟩ := h.passes_main (q := .setLock) hpc
      (WorkerPc.mainPassed_succ rfl (by decide) (by decide) w.k) rfl
    have hweak := h.weak (by rw [hpc]; rfl)
    have hmeasured := h.measured (by rw [hpc]; rfl)
    simp only [proceed, hpc]
    cases hw : w.weak with
    | true =>
        rw [hw] at hweak
        exact {
          main := hmain
          side := hside
          ran := h.ran
          barrier := not_waiting rfl
          weak := fun _ => hweak
          adds := fun _ => rfl
          measured := fun _ => hmeasured }
    | false =>
        rw [hw] at hweak
        exact at_measured rfl (by simp) hmain hside h.ran rfl (fun _ => hweak)
          (fun hp => by cases hp) hmeasured
  · obtain ⟨hmain, hside⟩ := h.passes_main (q := .testWeak) hpc
      (WorkerPc.mainPassed_succ rfl (by decide) (by decide) w.k) rfl
    have hmeasured := h.measured (by rw [hpc]; rfl)
    simp only [proceed, hpc]
    exact at_measured rfl (by simp) hmain hside h.ran rfl (fun hp => by cases hp)
      (fun hp => by cases hp) hmeasured

/-- A sender is back from a barrier around the count. -/
theorem At.leave_count (h : w.At v e c d)
    (hpc : w.pc = .countWait ∨ w.pc = .countSync ∨ w.pc = .recountWait ∨ w.pc = .recountSync)
    (serial : Bool) (now : UInt64) :
    (({ w with waiting := false, passed := w.passes (.dir d) } : TalkWorker).proceed
      v e c d serial now).At v e c d := by
  have hsender : d.role e = .sender := by
    refine h.sender ?_
    rcases hpc with hpc | hpc | hpc | hpc <;> rw [hpc] <;> rfl
  have hsingle : v.asynchronous = false → v.single e d = true := by
    intro ha
    simp [TestEnv.single, ha, hsender]
  rcases hpc with hpc | hpc | hpc | hpc
  · have hk := h.early (by rw [hpc]; rfl)
    obtain ⟨hmain, hside⟩ := h.passes_dir (q := .countSync) (k := w.k) hpc
      (fun ha => by rw [hsingle ha]; rfl) (fun _ => rfl) rfl
    simp only [proceed, hpc]
    cases serial with
    | true | false =>
        exact {
          main := hmain
          side := hside
          ran := h.ran
          barrier := not_waiting rfl
          early := fun _ => hk
          sender := fun _ => hsender }
  · have hk := h.early (by rw [hpc]; rfl)
    obtain ⟨hmain, hside⟩ := h.passes_dir (q := .negotiate) (k := w.k) hpc
      (fun ha => by rw [hsingle ha, hk]; rfl) (fun _ => by rw [hk]; rfl) (by rw [hk]; rfl)
    simp only [proceed, hpc]
    exact at_plain rfl (.inl rfl) hmain hside h.ran rfl
  · have hrestart := h.recounts (by rw [hpc]; rfl)
    obtain ⟨hmain, hside⟩ := h.passes_dir (q := .recountSync) (k := w.k) hpc
      (fun ha => by
        rw [hsingle ha]
        change 9 + 7 * w.k = 8 + 7 * w.k + 1
        omega)
      (fun _ => rfl) (WorkerPc.sidePassed_succ rfl (by decide) w.k)
    simp only [proceed, hpc]
    cases serial with
    | true | false =>
        exact {
          main := hmain
          side := hside
          ran := h.ran
          barrier := not_waiting rfl
          sender := fun _ => hsender
          recounts := fun _ => hrestart
          measured := fun _ hr => by cases hsender.symm.trans hr }
  · have hrestart := h.recounts (by rw [hpc]; rfl)
    obtain ⟨hmain, hside⟩ := h.passes_dir (q := .negotiate) (k := w.k + 1) hpc
      (fun ha => by
        rw [hsingle ha]
        change 3 + 7 * (w.k + 1) = 9 + 7 * w.k + 1
        omega)
      (fun _ => by
        change 1 + 5 * (w.k + 1) = 6 + 5 * w.k
        omega)
      (by
        change 2 + 3 * (w.k + 1) = 4 + 3 * w.k + 1
        omega)
    simp only [proceed, hpc]
    exact at_plain rfl (.inl rfl) hmain hside (h.ran_succ hrestart) rfl

/-- Back from the barrier of the workers of a direction at the end of a stream. -/
theorem At.leave_end (h : w.At v e c d) (hpc : w.pc = .endWait) (serial : Bool) (now : UInt64) :
    (({ w with waiting := false, passed := w.passes (.dir d) } : TalkWorker).proceed
      v e c d serial now).At v e c d := by
  cases ha : v.asynchronous with
  | true =>
      obtain ⟨hmain, hside⟩ := h.passes_dir (q := .endWaitAll) (k := w.k) hpc
        (fun hs => by cases ha.symm.trans hs) (fun _ => rfl)
        (WorkerPc.sidePassed_succ rfl (by decide) w.k)
      simp only [proceed, hpc, ha, if_true]
      exact {
        main := hmain
        side := hside
        ran := h.ran
        barrier := not_waiting rfl
        async := fun _ => ha }
  | false =>
      obtain ⟨hmain, hside⟩ := h.passes_dir (q := .streamEnd) (k := w.k) hpc
        (fun _ => WorkerPc.mainPassed_succ rfl (by decide) (by decide) w.k _)
        (fun hs => by cases ha.symm.trans hs) (WorkerPc.sidePassed_succ rfl (by decide) w.k)
      simp only [proceed, hpc, ha, Bool.false_eq_true, if_false]
      exact at_measure hmain hside h.ran rfl

/-- **A barrier lets the worker go.** -/
theorem At.leave {b : BarrierId} (h : w.At v e c d) (hb : w.pc.barrier v d = some b) (serial : Bool)
    (now : UInt64) :
    ({ w.proceed v e c d serial now with waiting := false, passed := w.passes b } :
      TalkWorker).At v e c d := by
  rw [proceed_with]
  rcases barrier_cases hb with ⟨rfl, hpc⟩ | ⟨rfl, hpc⟩ | ⟨rfl, hpc⟩ | ⟨rfl, hpc⟩
  · exact h.leave_main hpc serial now
  · exact h.leave_count hpc serial now
  · exact h.leave_end hpc serial now
  · have hall : v.mainBarrier d = .all := by
      simp [TestEnv.mainBarrier, h.async (by rw [hpc]; rfl)]
    obtain ⟨hmain, hside⟩ := h.passes_main (q := .streamEnd) hpc
      (WorkerPc.mainPassed_succ rfl (by decide) (by decide) w.k) rfl
    rw [hall] at hmain hside
    simp only [proceed, hpc]
    exact at_measure (hall.symm ▸ hmain) hside h.ran rfl

/-! ### An exchange with the peer -/

theorem exchange_cases {step : TalkStep} (h : w.exchange = some step) :
    (w.pc = .ping ∧ step = .ping w.i) ∨ (w.pc = .pong ∧ step = .pong w.i) ∨
    (w.pc = .negotiate ∧ step = .negotiate w.k) ∨ (w.pc = .streamStart ∧ step = .streamStart w.k) ∨
    (w.pc = .streamRun ∧ step = .streamRun w.k w.i) ∨ (w.pc = .streamEnd ∧ step = .streamEnd w.k) ∨
    (w.pc = .report ∧ step = .report) ∨ (w.pc = .finish ∧ step = .finish) := by
  unfold exchange at h
  cases hpc : w.pc <;> rw [hpc] at h <;> cases h <;> simp

/-- A worker at an exchange is not at a barrier. -/
theorem At.waiting_of_exchange {step : TalkStep} (h : w.At v e c d) (hx : w.exchange = some step) :
    w.waiting = false := by
  by_contra hw
  have hb := h.barrier (Bool.of_not_eq_false hw)
  rcases exchange_cases hx with ⟨hpc, -⟩ | ⟨hpc, -⟩ | ⟨hpc, -⟩ | ⟨hpc, -⟩ | ⟨hpc, -⟩ | ⟨hpc, -⟩ |
    ⟨hpc, -⟩ | ⟨hpc, -⟩ <;> rw [hpc] at hb <;> cases hb

/-- After a PONG. -/
theorem At.pong (h : w.At v e c d) (hpc : w.pc = .pong) (hw : w.waiting = false)
    (hpassed : w'.passed = w.passed) (hk : w'.k = w.k) (hw' : w'.waiting = w.waiting) (i : Nat) :
    (w'.toPing v e d i).At v e c d := by
  refine at_toPing i ?_ ?_ ?_ (hw'.trans hw)
  · rw [hpassed, h.main, hpc]
    cases v.single e d <;> rfl
  · intro ha hs
    rw [hpassed, h.side ha hs, hpc]
    rfl
  · rw [hk]
    exact h.early (by rw [hpc]; rfl)

/-- After STREAM END, which says whether the stream was weak. -/
theorem At.streamEnd (h : w.At v e c d) (hpc : w.pc = .streamEnd) (hw : w.waiting = false)
    {weak : Bool}
    (time : UInt64) (hweak : weak = v.weak c d w.k) :
    ({ w with pc := .setWait, weak := weak, time := time } : TalkWorker).At v e c d := by
  have hmeasured := h.measured (by rw [hpc]; rfl)
  have hmove : ({ w with pc := .streamEnd } : TalkWorker).At v e c d :=
    h.move hpc rfl rfl rfl rfl hw rfl (fun _ => rfl)
  exact at_measured rfl (by simp) hmove.main hmove.side h.ran hw (fun _ => hweak)
    (fun hp => by cases hp) hmeasured

/-- After the report; the receiver has its own. -/
theorem At.report (h : w.At v e c d) (hpc : w.pc = .report) (hw : w.waiting = false)
    {report : Dir → ReportCollect}
    (hreport : d.role e = .receiver → (report d).talkStreamTimeDuration = v.time c d w.k) :
    ({ w with pc := .finish, report := report } : TalkWorker).At v e c d := by
  have hreports := h.reports (by rw [hpc]; rfl)
  have hmove : ({ w with pc := .report } : TalkWorker).At v e c d :=
    h.move hpc rfl rfl rfl rfl hw rfl (fun _ => rfl)
  exact at_measured rfl (by simp) hmove.main hmove.side h.ran hw (fun hp => by cases hp)
    (fun _ => hreports) hreport

/-- The worker has said what it has to say. -/
theorem At.sent {step : TalkStep} {rest : List Dir} {count : Dir → UInt64} (h : w.At v e c d)
    (hx : w.exchange = some step) (hrole : d.role e = step.speaker) (hstep : step ≠ .finish) :
    (w.sent v e c d rest count).At v e c d := by
  have hw := h.waiting_of_exchange hx
  rcases exchange_cases hx with ⟨hpc, rfl⟩ | ⟨hpc, rfl⟩ | ⟨hpc, rfl⟩ | ⟨hpc, rfl⟩ | ⟨hpc, rfl⟩ |
    ⟨hpc, rfl⟩ | ⟨hpc, rfl⟩ | ⟨hpc, rfl⟩ <;> simp only [TalkWorker.sent, hpc]
  · exact h.move hpc rfl rfl rfl rfl hw rfl (fun _ => rfl)
  · exact h.pong hpc hw rfl rfl rfl _
  · exact h.move hpc rfl rfl rfl rfl hw rfl (fun hm => by cases hm)
  · exact h.move hpc rfl rfl rfl rfl hw rfl (fun _ => rfl)
  · exact At.toRun _ (h.move hpc rfl rfl rfl rfl hw rfl (fun _ => rfl)) hw
  · exact h.streamEnd hpc hw _ rfl
  · exact h.report hpc hw (h.measured (by rw [hpc]; rfl))
  · exact absurd rfl hstep

/-- The worker has heard what its peer had to say. -/
theorem At.heard {step : TalkStep} {rest : List Dir} {count : Dir → UInt64} {latency : UInt32}
    {pkt : TalkPayload} (h : w.At v e c d) (hx : w.exchange = some step)
    (hrole : d.role e ≠ step.speaker) (hstep : step ≠ .finish)
    (hweak : ∀ k, step = .streamEnd k → pkt.has .streamWeak = v.weak c d k) :
    (w.heard v e d rest count latency pkt).At v e c d := by
  have hw := h.waiting_of_exchange hx
  rcases exchange_cases hx with ⟨hpc, rfl⟩ | ⟨hpc, rfl⟩ | ⟨hpc, rfl⟩ | ⟨hpc, rfl⟩ | ⟨hpc, rfl⟩ |
    ⟨hpc, rfl⟩ | ⟨hpc, rfl⟩ | ⟨hpc, rfl⟩ <;> simp only [TalkWorker.heard, hpc]
  · exact h.move hpc rfl rfl rfl rfl hw rfl (fun _ => rfl)
  · split <;> refine h.pong hpc hw ?_ ?_ ?_ _ <;> rfl
  · exact h.move hpc rfl rfl rfl rfl hw rfl (fun hm => by cases hm)
  · exact h.move hpc rfl rfl rfl rfl hw rfl (fun _ => rfl)
  · exact At.toRun _ (h.move hpc rfl rfl rfl rfl hw rfl (fun _ => rfl)) hw
  · exact h.streamEnd hpc hw _ (hweak _ rfl)
  · exact h.report hpc hw fun hr => absurd hr hrole
  · exact absurd rfl hstep

end TalkWorker

end Ubwt
