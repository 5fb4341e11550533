import Ubwt.Lib.Elected
import Ubwt.Talk.Agreement
import Ubwt.Talk.Recount

/-!
# Ubwt.Talk.Rounds

The count of a direction from stream to stream, as the senders of all connections change it.

`TalkTest.Step` leaves open which thread a barrier tells to set the count, and what it comes to.
`TalkTest.Advance` does not: one caller of each call is elected, it computes the count from
`im_weak` and `weak_time`, and nobody starts another stream whose assertions fail.

A sender is a caller of the barrier of its direction in the sense of `Lib.Stand`
(`TalkWorker.At.paced`), and all that it does between two rounds leaves it where it is
(`TalkWorker.Stays`).
-/

namespace Ubwt

open Lib

/-! ### The counts -/

namespace TestEnv

variable (v : TestEnv)

/-- The workers of a direction, `worker_count / (1 + asynchronous)`. -/
def dirWorkers : Nat := if v.asynchronous then v.workers / 2 else v.workers

/-- `_talk_weak_stream_needs_recount()` after stream `k`. -/
def needsRecount (d : Dir) (k : Nat) : Bool := decide (v.flagged d k = v.dirWorkers)

/-- `talk[d].count` for stream `k`, where `weakTime j` is the time that the recount after stream
`j` finds. -/
def streamCount (cfg : Config) (weakTime : Nat → UInt64) (d : Dir) : Nat → Nat
  | 0 => v.countCurrent.toNat
  | k + 1 =>
      if v.needsRecount d k then recount cfg (weakTime k).toNat (streamCount cfg weakTime d k)
      else streamCount cfg weakTime d k

/-- The test runs with this configuration. -/
structure Configured (v : TestEnv) (cfg : Config) : Prop where
  workers : v.workers = cfg.workerCount.toNat
  asynchronous : v.asynchronous = cfg.asynchronous
  bidirectional : v.bidirectional = cfg.bidirectional
  reverseFirst : v.reverseFirst = cfg.reverseFirst
  iter : v.iter = cfg.talkHandshakeIter
  minimumTime : v.minimumTime = cfg.talkStreamMinimumTime
  countCurrent : v.countCurrent.toNat = cfg.talkCountCurrent.toNat

/-- Which of the callers of a barrier of a direction gets the value that is not zero, for each of
its calls. -/
structure Election (v : TestEnv) where
  caller : Endpoint → Dir → Nat → Fin v.workers
  joins : ∀ e d n, v.Joins (.dir d) (caller e d n)

/-- The calls of the barrier of a direction before the first one of a round: around the assignment
of the count, or around the recount after a stream. -/
def firstCall (r : Nat) : Nat := if v.asynchronous then 3 * r else 7 * r + 1

variable {v} {cfg : Config} {weakTime weakTime' : Nat → UInt64} {d : Dir} {k : Nat}

/-- The count that a test starts with. -/
theorem Configured.start {env : Env} (hv : v.Configured cfg) (hopt : OptInv env cfg) :
    v.countCurrent.toNat = 100 := by
  rw [hv.countCurrent, hopt.counts.1]
  rfl

theorem firstCall_succ (r : Nat) : v.firstCall r + 2 ≤ v.firstCall (r + 1) := by
  unfold firstCall
  split <;> omega

theorem restart_eq : v.restart d k = if v.asynchronous then
    v.needsRecount .straight k || v.needsRecount .reverse k else v.needsRecount d k := by
  unfold restart needsRecount dirWorkers
  split <;> rfl

/-- In asynchronous mode half of the connections test a direction. -/
theorem tally_dir (h : v.asynchronous = true) (d : Dir) :
    tally (fun c => decide (d ∈ v.dirs c)) = v.workers / 2 := by
  have hhalf := v.half h
  have hsum := tally_add_not v.reverse
  rw [Fintype.card_fin] at hsum
  have hdirs : ∀ c, v.dirs c = [if v.reverse c then .reverse else .straight] := by
    intro c
    rw [dirs_async h .straight, connDir, h, if_pos rfl]
  cases d with
  | straight =>
      have heq : (fun c => decide (Dir.straight ∈ v.dirs c)) = fun c => !v.reverse c := by
        funext c
        rw [hdirs]
        cases v.reverse c <;> rfl
      rw [heq]
      omega
  | reverse =>
      have heq : (fun c => decide (Dir.reverse ∈ v.dirs c)) = v.reverse := by
        funext c
        rw [hdirs]
        cases v.reverse c <;> rfl
      rw [heq]
      omega

/-- The workers of a direction that is tested. -/
theorem tally_dirs (hd : ∃ c, d ∈ v.dirs c) :
    tally (fun c => decide (d ∈ v.dirs c)) = v.dirWorkers := by
  unfold dirWorkers
  cases ha : v.asynchronous with
  | true => rw [tally_dir ha, if_pos rfl]
  | false =>
      obtain ⟨c, hc⟩ := hd
      have hall : ∀ c', decide (d ∈ v.dirs c') = true := by
        intro c'
        rw [dirs_sync ha c' c]
        exact decide_eq_true hc
      rw [tally_eq_card.mpr hall, Fintype.card_fin, if_neg Bool.false_ne_true]

/-- A direction is recounted when all of its workers were weak. -/
theorem needsRecount_iff (hd : ∃ c, d ∈ v.dirs c) :
    v.needsRecount d k = true ↔ ∀ c, d ∈ v.dirs c → v.weak c d k = true := by
  rw [needsRecount, decide_eq_true_eq, flagged, ← tally_dirs hd, tally_and_eq_iff]
  simp only [decide_eq_true_eq]

/-- The count of a stream depends on the recounts before it. -/
theorem streamCount_congr (h : ∀ j < k, weakTime' j = weakTime j) :
    v.streamCount cfg weakTime' d k = v.streamCount cfg weakTime d k := by
  induction k with
  | zero => rfl
  | succ k ih =>
      rw [streamCount, streamCount, ih fun j hj => h j (Nat.lt_succ_of_lt hj),
        h k (Nat.lt_succ_self k)]

theorem streamCount_le_succ (weakTime : Nat → UInt64) (d : Dir) (k : Nat) :
    v.streamCount cfg weakTime d k ≤ v.streamCount cfg weakTime d (k + 1) := by
  rw [streamCount]
  split
  · exact le_recount cfg _ _
  · exact Nat.le_refl _

theorem le_streamCount (weakTime : Nat → UInt64) (d : Dir) (k : Nat) :
    v.countCurrent.toNat ≤ v.streamCount cfg weakTime d k := by
  induction k with
  | zero => exact Nat.le_refl _
  | succ k ih => exact ih.trans (streamCount_le_succ weakTime d k)

/-- A recount is what makes a count larger. -/
theorem streamCount_lt_succ_iff {env : Env} (hv : v.Configured cfg) (hopt : OptInv env cfg)
    (weakTime : Nat → UInt64) (d : Dir) (k : Nat) :
    v.streamCount cfg weakTime d k < v.streamCount cfg weakTime d (k + 1)
      ↔ v.needsRecount d k = true := by
  rw [streamCount]
  split
  · rename_i hneeds
    have hstart : v.countCurrent.toNat ≤ v.streamCount cfg weakTime d k :=
      le_streamCount weakTime d k
    rw [hv.start hopt] at hstart
    exact iff_of_true (lt_recount hopt _ (by omega)) hneeds
  · rename_i hnot
    exact iff_of_false (Nat.lt_irrefl _) hnot

end TestEnv

/-- `talk[d].count` after the recount of the elected thread. -/
def TalkContext.recounted (cfg : Config) (v : TestEnv) (d : Dir) (sh : TalkContext v.workers) :
    UInt64 :=
  if sh.imWeak d = v.dirWorkers then
    UInt64.ofNat (recount cfg (sh.weakTime d).toNat (sh.count d).toNat)
  else sh.count d

/-! ### Where a sender is in a round -/

namespace WorkerPc

def turn : WorkerPc → Turn
  | countWait | recountWait => .wait
  | countSet | recount => .set
  | countSync | recountSync => .sync
  | _ => .out

/-- The first round sets the count, and each stream has one after it. -/
def round (pc : WorkerPc) (k : Nat) : Nat := if pc.early then 0 else k + 1

variable {v : TestEnv} {d : Dir} {pc : WorkerPc}

theorem of_turn_wait (h : pc.turn = .wait) : pc = .countWait ∨ pc = .recountWait := by
  cases pc <;> first | cases h; done | simp

theorem of_turn_set (h : pc.turn = .set) : pc = .countSet ∨ pc = .recount := by
  cases pc <;> first | cases h; done | simp

theorem of_turn_sync (h : pc.turn = .sync) : pc = .countSync ∨ pc = .recountSync := by
  cases pc <;> first | cases h; done | simp

/-- Between two rounds a sender has not entered the first call of the second. -/
theorem calls_le_firstCall (hturn : pc.turn = .out) (k : Nat) :
    (if v.asynchronous then pc.sidePassed k else pc.mainPassed true k)
      + (decide (pc.barrier v d = some (.dir d))).toNat ≤ v.firstCall (pc.round k) := by
  cases ha : v.asynchronous <;> cases pc <;>
    simp [turn, barrier, TestEnv.mainBarrier, ha, sidePassed, sideSeg, mainPassed, mainSeg, round,
      early, TestEnv.firstCall] at hturn ⊢ <;> omega

end WorkerPc

/-- Another step of a test: one caller of each call of a barrier is elected, the count is the
recomputed one, and the assertions hold for whoever goes on. -/
structure TalkTest.Advance {v : TestEnv} (cfg : Config) (election : v.Election)
    (s s' : TalkTest v.workers) : Prop where
  step : Step v s s'
  elected : ∀ e c d rest, (s.worker e c).dirs = d :: rest → (s.worker e c).pc.turn = .wait →
    (s.worker e c).waiting = true → (s'.worker e c).waiting = false →
      ((s'.worker e c).pc.turn = .set ↔
        election.caller e d ((s.worker e c).passed (.dir d)) = c)
  recounted : ∀ e c d rest, (s.worker e c).dirs = d :: rest → (s.worker e c).pc = .recount →
    (s'.worker e c).pc ≠ .recount → (s'.shared e).count d = (s.shared e).recounted cfg v d
  asserted : ∀ e c d rest, (s.worker e c).dirs = d :: rest → (s.worker e c).pc = .recountSync →
    (s'.worker e c).pc ≠ .recountSync → CountAsserted cfg ((s.shared e).count d).toNat

namespace TalkWorker

variable {v : TestEnv} {e : Endpoint} {c : Fin v.workers} {d : Dir} {rest : List Dir}
  {w w' : TalkWorker} {sh sh' : TalkContext v.workers}

/-- A sender as a caller of the barrier of its direction. -/
def stand (v : TestEnv) (d : Dir) (w : TalkWorker) : Stand where
  round := w.pc.round w.k
  turn := w.pc.turn
  passed := w.passed (.dir d)
  waiting := w.waitsAt v (.dir d)

/-- Its calls of the barrier, in either mode. -/
theorem At.passed_dir (h : w.At v e c d) (hrole : d.role e = .sender) :
    w.passed (.dir d) = if v.asynchronous then w.pc.sidePassed w.k else w.pc.mainPassed true w.k := by
  cases ha : v.asynchronous with
  | true => rw [if_pos rfl, h.side ha hrole]
  | false =>
      have hmain := h.main
      rw [TestEnv.mainBarrier, ha, if_neg Bool.false_ne_true] at hmain
      rw [if_neg Bool.false_ne_true, hmain, TestEnv.single, ha, hrole]
      rfl

theorem At.paced (h : w.At v e c d) (hrole : d.role e = .sender) (hd : w.dirs = d :: rest) :
    (w.stand v d).Paced v.firstCall := by
  have hpassed := h.passed_dir hrole
  have hfirst : ∀ r, v.firstCall r = if v.asynchronous then 3 * r else 7 * r + 1 := fun _ => rfl
  -- The calls at the places of a round.
  have hround : w.pc.turn ≠ .out → w.passed (.dir d)
      = v.firstCall (w.pc.round w.k) + (if w.pc.turn = .wait then 0 else 1) := by
    intro hturn
    rw [hpassed, hfirst]
    cases hpc : w.pc <;> rw [hpc] at hturn <;> cases v.asynchronous <;>
      simp [WorkerPc.turn, WorkerPc.round, WorkerPc.early, WorkerPc.sidePassed, WorkerPc.sideSeg,
        WorkerPc.mainPassed, WorkerPc.mainSeg] at hturn ⊢ <;> omega
  exact {
    out := by
      intro hturn
      have hle := WorkerPc.calls_le_firstCall (v := v) (d := d) hturn w.k
      rw [← hpassed] at hle
      refine Nat.le_trans (Nat.add_le_add_left ?_ _) hle
      refine Bool.toNat_le_toNat fun hwaits => ?_
      obtain ⟨-, d', rest', hd', hb⟩ := dirs_of_waitsAt hwaits
      rw [hd] at hd'
      cases hd'
      exact decide_eq_true hb
    wait := by
      intro hturn
      have hwait : w.pc.turn = .wait := hturn
      have hcalls := hround (by rw [hwait]; decide)
      rwa [if_pos hwait] at hcalls
    set := by
      intro hturn
      have hset : w.pc.turn = .set := hturn
      have hcalls := hround (by rw [hset]; decide)
      rw [if_neg (by rw [hset]; decide)] at hcalls
      refine ⟨hcalls, waitsAt_of_waiting ?_ _⟩
      by_contra hwaiting
      have hb := h.barrier (Bool.of_not_eq_false hwaiting)
      rcases WorkerPc.of_turn_set hset with hpc | hpc <;> rw [hpc] at hb <;> cases hb
    sync := by
      intro hturn
      have hsync : w.pc.turn = .sync := hturn
      have hcalls := hround (by rw [hsync]; decide)
      rwa [if_neg (by rw [hsync]; decide)] at hcalls }

/-! ### What a step does to a round -/

/-- A step that does not take part in a round: the worker stays where it is, or comes to the first
call. -/
structure Stays (w w' : TalkWorker) : Prop where
  early : w'.pc.early = w.pc.early
  k : w'.k = w.k
  turn : w'.pc.turn = w.pc.turn ∧ (w.pc.turn = .wait → w.waiting = false) ∨
    w.pc.turn = .out ∧ w'.pc.turn = .wait

theorem Stays.sees {elected : Nat → Prop} {done : Nat} (h : Stays w w')
    (hsees : (w.stand v d).Sees elected done) : (w'.stand v d).Sees elected done := by
  have hround : w'.pc.round w'.k = w.pc.round w.k := by
    rw [WorkerPc.round, WorkerPc.round, h.early, h.k]
  unfold Stand.Sees stand at hsees ⊢
  dsimp only at hsees ⊢
  rw [hround]
  rcases h.turn with ⟨hturn, hwait⟩ | ⟨hout, hturn⟩
  · rw [hturn]
    cases hcase : w.pc.turn with
    | wait =>
        rw [hcase, waitsAt_of_waiting (hwait hcase)] at hsees
        rcases hsees with hdone | ⟨-, hnot, -⟩
        · exact .inl hdone
        · cases hnot
    | _ =>
        rw [hcase] at hsees
        exact hsees
  · rw [hturn]
    rw [hout] at hsees
    exact .inl hsees

theorem Stays.of_out (hearly : w'.pc.early = w.pc.early) (hk : w'.k = w.k)
    (hout : w.pc.turn = .out) (hout' : w'.pc.turn = .out ∨ w'.pc.turn = .wait) : Stays w w' where
  early := hearly
  k := hk
  turn := by
    rcases hout' with hout' | hwait
    · exact .inl ⟨hout'.trans hout.symm, fun hf => by rw [hout] at hf; cases hf⟩
    · exact .inr ⟨hout, hwait⟩

theorem stays_again (hrole : d.role e = .sender) (hearly : w.pc.early = false)
    (hout : w.pc.turn = .out) : Stays w (w.again e d) := by
  refine .of_out ?_ ?_ hout ?_ <;> unfold again <;> rw [hrole]
  · exact hearly.symm
  · exact .inr rfl

theorem stays_stop (hearly : w.pc.early = false) (hout : w.pc.turn = .out) :
    Stays w (w.stop d) :=
  .of_out hearly.symm rfl hout (.inl rfl)

/-- A step of a sender alone, but for the two assignments. -/
theorem Local.stays (h : Local v e c d w sh w' sh') (hrole : d.role e = .sender)
    (hw : w.waiting = false) (hturn : w.pc.turn ≠ .set) : Stays w w' := by
  cases h with
  | enter => exact ⟨rfl, rfl, .inl ⟨rfl, fun _ => hw⟩⟩
  | countSet hpc | recount _ hpc =>
      rw [hpc] at hturn
      exact absurd rfl hturn
  | testWeak hpc =>
      split
      · exact .of_out (by rw [hpc]; rfl) rfl (by rw [hpc]; rfl) (.inl rfl)
      · exact stays_stop (by rw [hpc]; rfl) (by rw [hpc]; rfl)
  | testImWeak hpc =>
      unfold TalkWorker.testImWeak
      split_ifs
      · exact stays_again hrole (by rw [hpc]; rfl) (by rw [hpc]; rfl)
      · exact .of_out (by rw [hpc]; rfl) rfl (by rw [hpc]; rfl) (.inl rfl)
      · exact stays_again hrole (by rw [hpc]; rfl) (by rw [hpc]; rfl)
      · exact stays_stop (by rw [hpc]; rfl) (by rw [hpc]; rfl)
  | testImWeakReverse hpc =>
      split
      · exact stays_again hrole (by rw [hpc]; rfl) (by rw [hpc]; rfl)
      · exact stays_stop (by rw [hpc]; rfl) (by rw [hpc]; rfl)
  | talkInit hpc | resetWeak hpc | resetImWeak hpc | resetWeakTime hpc | resetUnlock hpc
  | loadWeak hpc | storeWeak hpc | loadImWeak hpc | storeImWeak hpc | setWeakTime hpc
  | setUnlock hpc | resetLock hpc _ | setLock hpc _ =>
      exact .of_out (by rw [hpc]; rfl) rfl (by rw [hpc]; rfl) (.inl rfl)

/-- The two assignments. -/
theorem Local.of_set (h : Local v e c d w sh w' sh') (hturn : w.pc.turn = .set) :
    w'.pc.early = w.pc.early ∧ w'.k = w.k ∧ w'.pc.turn = .sync ∧
      (w.pc = .countSet → sh'.count d = v.countCurrent) := by
  cases h with
  | enter hb => rcases WorkerPc.of_turn_set hturn with hpc | hpc <;> rw [hpc] at hb <;> cases hb
  | countSet hpc =>
      refine ⟨by rw [hpc]; rfl, rfl, rfl, fun _ => Function.update_self ..⟩
  | recount _ hpc =>
      refine ⟨by rw [hpc]; rfl, rfl, rfl, fun hset => ?_⟩
      rw [hpc] at hset
      cases hset
  | talkInit hpc | resetWeak hpc | resetImWeak hpc | resetWeakTime hpc | resetUnlock hpc
  | loadWeak hpc | storeWeak hpc | loadImWeak hpc | storeImWeak hpc | setWeakTime hpc
  | setUnlock hpc | resetLock hpc _ | setLock hpc _ | testWeak hpc | testImWeak hpc
  | testImWeakReverse hpc =>
      rw [hpc] at hturn
      cases hturn

/-- From `talk_init` a worker goes to the first barrier. -/
theorem Local.of_talkInit (h : Local v e c d w sh w' sh') (hinit : w.pc = .talkInit) :
    w'.pc = .initWait := by
  cases h with
  | talkInit => rfl
  | enter hb =>
      rw [hinit] at hb
      cases hb
  | countSet hpc | recount _ hpc | resetWeak hpc | resetImWeak hpc | resetWeakTime hpc
  | resetUnlock hpc | loadWeak hpc | storeWeak hpc | loadImWeak hpc | storeImWeak hpc
  | setWeakTime hpc | setUnlock hpc | resetLock hpc _ | setLock hpc _ | testWeak hpc
  | testImWeak hpc | testImWeakReverse hpc => cases hinit.symm.trans hpc

/-- The head of the handshake loop of a sender. -/
theorem At.stays_toPing (h : w.At v e c d) (hrole : d.role e = .sender)
    (hearly : w.pc.early = true) (hout : w.pc.turn = .out) (hk : w'.k = w.k) (i : Nat) :
    Stays w (w'.toPing v e d i) := by
  unfold toPing
  split
  · exact .of_out hearly.symm hk hout (.inl rfl)
  · rw [hrole]
    exact .of_out hearly.symm (h.early hearly).symm hout (.inr rfl)

theorem stays_toRun (hearly : w.pc.early = false) (hout : w.pc.turn = .out) (i : Nat) :
    Stays w (w.toRun i) := by
  unfold toRun
  split <;> exact .of_out hearly.symm rfl hout (.inl rfl)

/-- A barrier that is not one of a round lets a sender go. -/
theorem At.stays_proceed {b : BarrierId} (h : w.At v e c d) (hrole : d.role e = .sender)
    (hb : w.pc.barrier v d = some b) (hout : w.pc.turn = .out) (serial : Bool) (now : UInt64) :
    Stays w (w.proceed v e c d serial now) := by
  rcases barrier_cases hb with ⟨-, hpc⟩ | ⟨-, hpc⟩ | ⟨-, hpc⟩ | ⟨-, hpc⟩
  · rcases hpc with hpc | hpc | hpc | hpc | hpc <;> simp only [proceed, hpc]
    · exact h.stays_toPing hrole (by rw [hpc]; rfl) hout rfl 0
    · exact .of_out (by rw [hpc]; rfl) rfl hout (.inl rfl)
    · rw [hrole]
      exact stays_toRun (by rw [hpc]; rfl) hout 0
    · cases w.weak <;> exact .of_out (by rw [hpc]; rfl) rfl hout (.inl rfl)
    · exact .of_out (by rw [hpc]; rfl) rfl hout (.inl rfl)
  · rcases hpc with hpc | hpc | hpc | hpc <;> rw [hpc] at hout <;> cases hout
  · simp only [proceed, hpc, measure, hrole]
    split <;> exact .of_out (by rw [hpc]; rfl) rfl hout (.inl rfl)
  · simp only [proceed, hpc, measure, hrole]
    exact .of_out (by rw [hpc]; rfl) rfl hout (.inl rfl)

/-- The first call of a round lets a sender go. -/
theorem released_wait {b : BarrierId} (hturn : w.pc.turn = .wait) (serial : Bool) (now : UInt64) :
    (w.released v e c d b serial now).pc.early = w.pc.early ∧
      (w.released v e c d b serial now).k = w.k ∧
      ((w.released v e c d b serial now).pc.turn = .set ∨
        (w.released v e c d b serial now).pc.turn = .sync) := by
  rcases WorkerPc.of_turn_wait hturn with hpc | hpc <;> cases serial <;>
    simp [released, proceed, hpc, WorkerPc.early, WorkerPc.mainSeg, WorkerPc.turn]

/-- An exchange is not part of a round. -/
theorem At.stays_sent {step : TalkStep} {count : Dir → UInt64} (h : w.At v e c d)
    (hrole : d.role e = .sender) (hx : w.exchange = some step) (hstep : step ≠ .finish) :
    Stays w (w.sent v e c d rest count) := by
  rcases exchange_cases hx with ⟨hpc, rfl⟩ | ⟨hpc, rfl⟩ | ⟨hpc, rfl⟩ | ⟨hpc, rfl⟩ | ⟨hpc, rfl⟩ |
    ⟨hpc, rfl⟩ | ⟨hpc, rfl⟩ | ⟨hpc, rfl⟩ <;> simp only [TalkWorker.sent, hpc]
  case inr.inl =>
    exact h.stays_toPing hrole (by rw [hpc]; rfl) (by rw [hpc]; rfl) rfl _
  case inr.inr.inr.inr.inl => exact stays_toRun (by rw [hpc]; rfl) (by rw [hpc]; rfl) _
  case inr.inr.inr.inr.inr.inr.inr => exact absurd rfl hstep
  all_goals exact .of_out (by rw [hpc]; rfl) rfl (by rw [hpc]; rfl) (.inl rfl)

theorem At.stays_heard {step : TalkStep} {count : Dir → UInt64} {latency : UInt32}
    {pkt : TalkPayload} (h : w.At v e c d) (hrole : d.role e = .sender)
    (hx : w.exchange = some step) (hstep : step ≠ .finish) :
    Stays w (w.heard v e d rest count latency pkt) := by
  rcases exchange_cases hx with ⟨hpc, rfl⟩ | ⟨hpc, rfl⟩ | ⟨hpc, rfl⟩ | ⟨hpc, rfl⟩ | ⟨hpc, rfl⟩ |
    ⟨hpc, rfl⟩ | ⟨hpc, rfl⟩ | ⟨hpc, rfl⟩ <;> simp only [TalkWorker.heard, hpc]
  case inr.inl =>
    split <;> refine h.stays_toPing hrole (by rw [hpc]; rfl) (by rw [hpc]; rfl) ?_ _
    · rfl
    · rfl
  case inr.inr.inr.inr.inl => exact stays_toRun (by rw [hpc]; rfl) (by rw [hpc]; rfl) _
  case inr.inr.inr.inr.inr.inr.inr => exact absurd rfl hstep
  all_goals exact .of_out (by rw [hpc]; rfl) rfl (by rw [hpc]; rfl) (.inl rfl)

end TalkWorker

end Ubwt
