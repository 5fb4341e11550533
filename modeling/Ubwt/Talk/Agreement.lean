import Ubwt.Talk.CrewStep
import Ubwt.Talk.Schedule

/-!
# Ubwt.Talk.Agreement

**All workers of both endpoints agree on another stream.**

The two workers of a connection follow one script (`TestEnv.connScript`), in which the
verdict after a stream is the one that the streams of all connections lead to. So the
sender of a connection hears what its receiver has measured, and with `Crew` for either
endpoint the counters that the verdicts are read from are the numbers of weak streams
(`weak_agreement`).
-/

namespace Ubwt

open Lib

/-! ### The script of a connection -/

/-- The number of packets, at the exchanges that depend on it. -/
def TalkStep.packets (step : TalkStep) (count : UInt32) : UInt32 :=
  match step with
  | streamStart _ => count
  | streamRun _ _ => count
  | _ => 0

namespace TestEnv

variable (v : TestEnv)

/-- What may be said on a connection: the messages of `talkSay`, with a STREAM END as the receiver
has measured the stream. -/
def Says (c : Fin v.workers) : TalkPos → TalkPayload → Prop
  | .talk d _ step, pkt =>
      ∃ e x, d.role e = step.speaker ∧ pkt = talkSay (v.hosts e) v.iter v.size x step ∧
        (∀ k, step = .streamEnd k → x.weak = v.weak c d k)
  | .returned, _ => False

/-- The next exchange, with the number of packets that was negotiated. -/
def posNext (pos : TalkPos × UInt32) (pkt : TalkPayload) : TalkPos × UInt32 :=
  match pos.1 with
  | .returned => (.returned, 0)
  | .talk d rest step =>
      let count := match step with
        | .negotiate _ => pkt.count
        | _ => pos.2
      match step.next v.iter (fun _ => count) (v.restart d) with
      | some step' => (.talk d rest step', step'.packets count)
      | none => (TalkPos.enter v.iter rest, 0)

/-- The script of a connection. -/
def connScript (c : Fin v.workers) : Choreography Endpoint (TalkPos × UInt32) TalkPayload where
  peer := Endpoint.peer
  peer_peer := Endpoint.peer_peer
  peer_ne := Endpoint.peer_ne
  eq_or_eq_peer := Endpoint.eq_or_eq_peer
  speaker := fun pos => pos.1.speaker
  admits := fun pos pkt => v.Says c pos.1 pkt
  next := v.posNext

end TestEnv

namespace TalkWorker

variable {v : TestEnv} {e : Endpoint} {c : Fin v.workers} {d : Dir} {w w' : TalkWorker}
  {sh sh' : TalkContext v.workers} {rest : List Dir}

/-- The exchange a worker gets to next. -/
def nextStep (v : TestEnv) (d : Dir) (w : TalkWorker) : TalkStep :=
  match w.pc with
  | .talkInit | .initWait => .handshake v.iter 0
  | .ping => .ping w.i
  | .pong => .pong w.i
  | .countWait | .countSet | .countSync | .negotiate => .negotiate w.k
  | .streamStart => .streamStart w.k
  | .resetWait | .resetLock | .resetWeak | .resetImWeak | .resetWeakTime | .resetUnlock
  | .startWait => .stream w.count w.k 0
  | .streamRun => .streamRun w.k w.i
  | .endWait | .endWaitAll | .streamEnd => .streamEnd w.k
  | .setWait | .setLock | .loadWeak | .storeWeak | .loadImWeak | .storeImWeak | .setWeakTime
  | .setUnlock | .returnWait | .testWeak | .testImWeak | .testImWeakReverse =>
      if v.restart d w.k then .negotiate (w.k + 1) else .report
  | .recountWait | .recount | .recountSync => .negotiate (w.k + 1)
  | .report => .report
  | .finish | .returned => .finish

/-- The position of a worker in the script. -/
def pos (v : TestEnv) (w : TalkWorker) : TalkPos × UInt32 :=
  match w.dirs with
  | [] => (.returned, 0)
  | d :: rest => (.talk d rest (w.nextStep v d), (w.nextStep v d).packets w.count)

theorem pos_eq (hd : w.dirs = d :: rest) :
    w.pos v = (.talk d rest (w.nextStep v d), (w.nextStep v d).packets w.count) := by
  rw [pos, hd]

theorem nextStep_exchange {step : TalkStep} (hx : w.exchange = some step) :
    w.nextStep v d = step := by
  rcases exchange_cases hx with ⟨hpc, rfl⟩ | ⟨hpc, rfl⟩ | ⟨hpc, rfl⟩ | ⟨hpc, rfl⟩ | ⟨hpc, rfl⟩ |
    ⟨hpc, rfl⟩ | ⟨hpc, rfl⟩ | ⟨hpc, rfl⟩ <;> simp only [nextStep, hpc]

theorem nextStep_stop (hat : (w.stop d).At v e c d)
    (hw : w.nextStep v d = if v.restart d w.k then .negotiate (w.k + 1) else .report) :
    (w.stop d).nextStep v d = w.nextStep v d := by
  have hrestart : v.restart d w.k = false := hat.reports rfl
  rw [hw, hrestart]
  rfl

theorem nextStep_again (hat : (w.again e d).At v e c d)
    (hw : w.nextStep v d = if v.restart d w.k then .negotiate (w.k + 1) else .report) :
    (w.again e d).nextStep v d = w.nextStep v d ∧ (w.again e d).count = w.count := by
  unfold again at hat ⊢
  cases hrole : d.role e with
  | sender =>
      rw [hrole] at hat
      have hrestart : v.restart d w.k = true := hat.recounts rfl
      rw [hw, hrestart]
      exact ⟨rfl, rfl⟩
  | receiver =>
      rw [hrole] at hat
      have hrestart : v.restart d w.k = true := hat.ran w.k (Nat.lt_succ_self _)
      rw [hw, hrestart]
      exact ⟨rfl, rfl⟩

/-- A step of the worker alone keeps its position. -/
theorem Local.nextStep_eq (h : Local v e c d w sh w' sh') (hat : w'.At v e c d) :
    w'.nextStep v d = w.nextStep v d ∧ w'.count = w.count := by
  cases h with
  | enter => exact ⟨rfl, rfl⟩
  | testWeak h =>
      split_ifs at hat ⊢
      · exact ⟨by simp only [nextStep, h], rfl⟩
      · exact ⟨nextStep_stop hat (by simp only [nextStep, h]), rfl⟩
  | testImWeak h =>
      have hw : w.nextStep v d = if v.restart d w.k then .negotiate (w.k + 1) else .report := by
        simp only [nextStep, h]
      unfold TalkWorker.testImWeak at hat ⊢
      split_ifs at hat ⊢
      · exact nextStep_again hat hw
      · exact ⟨hw.symm, rfl⟩
      · exact nextStep_again hat hw
      · exact ⟨nextStep_stop hat hw, rfl⟩
  | testImWeakReverse h =>
      have hw : w.nextStep v d = if v.restart d w.k then .negotiate (w.k + 1) else .report := by
        simp only [nextStep, h]
      split_ifs at hat ⊢
      · exact nextStep_again hat hw
      · exact ⟨nextStep_stop hat hw, rfl⟩
  | talkInit h | countSet h | resetWeak h | resetImWeak h | resetWeakTime h | resetUnlock h
  | loadWeak h | storeWeak h | loadImWeak h | storeImWeak h | setWeakTime h | setUnlock h
  | resetLock h _ | setLock h _ | recount _ h =>
      exact ⟨by simp only [nextStep, h], rfl⟩

theorem Local.pos_eq (h : Local v e c d w sh w' sh') (hd : w.dirs = d :: rest)
    (hat : w'.At v e c d) : w'.pos v = w.pos v := by
  obtain ⟨hstep, hcount⟩ := h.nextStep_eq hat
  rw [TalkWorker.pos_eq hd, TalkWorker.pos_eq (h.frame.1.trans hd), hstep, hcount]

theorem nextStep_toPing (i : Nat) : (w.toPing v e d i).nextStep v d = .handshake v.iter i := by
  unfold toPing TalkStep.handshake
  split
  · rfl
  · cases d.role e <;> rfl

theorem nextStep_toRun (i : Nat) : (w.toRun i).nextStep v d = .stream w.count w.k i := by
  unfold toRun TalkStep.stream
  split <;> rfl

theorem toRun_count (i : Nat) : (w.toRun i).count = w.count := by
  unfold toRun
  split <;> rfl

theorem nextStep_measure : (w.measure v e c d).nextStep v d = .streamEnd w.k := by
  unfold measure
  cases d.role e <;> rfl

theorem packets_handshake (iter : UInt16) (i : Nat) (count : UInt32) :
    (TalkStep.handshake iter i).packets count = 0 := by
  unfold TalkStep.handshake
  split <;> rfl

theorem proceed_count (serial : Bool) (now : UInt64) :
    (w.proceed v e c d serial now).count = w.count := by
  unfold proceed toPing measure
  repeat' split
  all_goals first
    | rfl
    | exact toRun_count 0

theorem proceed_nextStep {b : BarrierId} (hb : w.pc.barrier v d = some b) (serial : Bool)
    (now : UInt64) : (w.proceed v e c d serial now).nextStep v d = w.nextStep v d := by
  rcases barrier_cases hb with ⟨-, hpc⟩ | ⟨-, hpc⟩ | ⟨-, hpc⟩ | ⟨-, hpc⟩
  · rcases hpc with hpc | hpc | hpc | hpc | hpc <;> simp only [proceed, hpc]
    · rw [nextStep_toPing, nextStep, hpc]
    · simp only [nextStep, hpc]
    · cases d.role e with
      | sender =>
          rw [nextStep_toRun]
          simp only [nextStep, hpc]
      | receiver =>
          rw [nextStep_toRun]
          simp only [nextStep, hpc]
          rfl
    · cases hw : w.weak <;> simp only [nextStep, hpc] <;> rfl
    · simp only [nextStep, hpc]
  · rcases hpc with hpc | hpc | hpc | hpc <;> simp only [proceed, hpc] <;> cases serial <;>
      simp only [nextStep, hpc] <;> rfl
  · simp only [proceed, hpc]
    split
    · simp only [nextStep, hpc]
    · rw [nextStep_measure, nextStep, hpc]
  · simp only [proceed, hpc]
    rw [nextStep_measure, nextStep, hpc]

/-- So does a barrier that lets the worker go. -/
theorem pos_released {b : BarrierId} (hd : w.dirs = d :: rest) (hb : w.pc.barrier v d = some b)
    (serial : Bool) (now : UInt64) : (w.released v e c d b serial now).pos v = w.pos v := by
  have hstep : (w.released v e c d b serial now).nextStep v d = w.nextStep v d :=
    proceed_nextStep hb serial now
  have hcount : (w.released v e c d b serial now).count = w.count := proceed_count serial now
  rw [TalkWorker.pos_eq hd, TalkWorker.pos_eq ((released_dirs serial now).trans hd), hstep, hcount]

theorem toPing_dirs (i : Nat) : (w.toPing v e d i).dirs = w.dirs := by
  unfold toPing
  repeat' split
  all_goals rfl

theorem toRun_dirs (i : Nat) : (w.toRun i).dirs = w.dirs := by
  unfold toRun
  split <;> rfl

theorem pos_toPing (hd : w.dirs = d :: rest) (i : Nat) :
    (w.toPing v e d i).pos v = (.talk d rest (.handshake v.iter i), 0) := by
  rw [pos_eq ((toPing_dirs i).trans hd), nextStep_toPing, packets_handshake]

theorem pos_toRun (hd : w.dirs = d :: rest) (i : Nat) :
    (w.toRun i).pos v
      = (.talk d rest (.stream w.count w.k i),
          (TalkStep.stream w.count w.k i).packets w.count) := by
  rw [pos_eq ((toRun_dirs i).trans hd), nextStep_toRun, toRun_count]

theorem pos_setWait (hd : w.dirs = d :: rest) (hpc : w.pc = .setWait) :
    w.pos v = (.talk d rest (if v.restart d w.k then .negotiate (w.k + 1) else .report), 0) := by
  simp only [pos_eq hd, nextStep, hpc]
  cases v.restart d w.k <;> rfl

theorem pos_nextDir : (w.nextDir rest).pos v = (TalkPos.enter v.iter rest, 0) := by
  cases rest with
  | nil => rfl
  | cons d rest =>
      have hd : (w.nextDir (d :: rest)).dirs = d :: rest := rfl
      rw [pos_eq hd]
      have hstep : (w.nextDir (d :: rest)).nextStep v d = .handshake v.iter 0 := rfl
      rw [hstep, packets_handshake]
      rfl

/-- Where an exchange takes both workers. -/
theorem posNext_eq {step : TalkStep} (pkt : TalkPayload) (hd : w.dirs = d :: rest)
    (hx : w.exchange = some step) :
    v.posNext (w.pos v) pkt =
      match step with
      | .ping i => (.talk d rest (.pong i), 0)
      | .pong i => (.talk d rest (.handshake v.iter (i + 1)), 0)
      | .negotiate k => (.talk d rest (.streamStart k), pkt.count)
      | .streamStart k =>
          (.talk d rest (.stream w.count k 0), (TalkStep.stream w.count k 0).packets w.count)
      | .streamRun k i =>
          (.talk d rest (.stream w.count k (i + 1)),
            (TalkStep.stream w.count k (i + 1)).packets w.count)
      | .streamEnd k =>
          (.talk d rest (if v.restart d k then .negotiate (k + 1) else .report), 0)
      | .report => (.talk d rest .finish, 0)
      | .finish => (TalkPos.enter v.iter rest, 0) := by
  rw [pos_eq hd, nextStep_exchange hx]
  cases step with
  | pong i => simp only [TestEnv.posNext, TalkStep.next, packets_handshake]
  | streamEnd k =>
      simp only [TestEnv.posNext, TalkStep.next]
      cases v.restart d k <;> rfl
  | ping | negotiate | streamStart | streamRun | report | finish => rfl

theorem pos_sent {step : TalkStep} {count : Dir → UInt64} {pkt : TalkPayload}
    (hd : w.dirs = d :: rest) (hx : w.exchange = some step)
    (hcount : ∀ k, step = .negotiate k → pkt.count = (count d).toUInt32) :
    (w.sent v e c d rest count).pos v = v.posNext (w.pos v) pkt := by
  rw [posNext_eq pkt hd hx]
  rcases exchange_cases hx with ⟨hpc, rfl⟩ | ⟨hpc, rfl⟩ | ⟨hpc, rfl⟩ | ⟨hpc, rfl⟩ | ⟨hpc, rfl⟩ |
    ⟨hpc, rfl⟩ | ⟨hpc, rfl⟩ | ⟨hpc, rfl⟩ <;> simp only [sent, hpc]
  · exact pos_eq hd
  · exact pos_toPing hd _
  · rw [hcount _ rfl]
    exact pos_eq hd
  · exact pos_eq hd
  · exact pos_toRun hd _
  · exact pos_setWait hd rfl
  · exact pos_eq hd
  · exact pos_nextDir

theorem pos_heard {step : TalkStep} {count : Dir → UInt64} {latency : UInt32} {pkt : TalkPayload}
    (hd : w.dirs = d :: rest) (hx : w.exchange = some step)
    (hcount : ∀ k, step = .streamStart k → (count d).toUInt32 = w.count) :
    (w.heard v e d rest count latency pkt).pos v = v.posNext (w.pos v) pkt := by
  rw [posNext_eq pkt hd hx]
  rcases exchange_cases hx with ⟨hpc, rfl⟩ | ⟨hpc, rfl⟩ | ⟨hpc, rfl⟩ | ⟨hpc, rfl⟩ | ⟨hpc, rfl⟩ |
    ⟨hpc, rfl⟩ | ⟨hpc, rfl⟩ | ⟨hpc, rfl⟩ <;> simp only [heard, hpc]
  · exact pos_eq hd
  · split
    · exact pos_toPing hd _
    · exact pos_toPing (w := w.setReport d _) hd _
  · exact pos_eq hd
  · rw [hcount _ rfl]
    exact pos_eq hd
  · exact pos_toRun hd _
  · exact pos_setWait hd rfl
  · exact pos_eq hd
  · exact pos_nextDir

end TalkWorker

/-! ### What is said -/

theorem has_streamWeak (h : Host) (iter : UInt16) (size : PayloadSize) (x : TalkData) (k : Nat) :
    (talkSay h iter size x (.streamEnd k)).has .streamWeak = x.weak := by
  rw [TalkPayload.has, talkSay_flags]
  generalize x.weak = weak
  dsimp only [TalkStep.flags]
  revert weak
  decide

theorem TestEnv.Final.eq {v : TestEnv} {d : Dir} {K L : Nat} (hK : v.Final d K) (hL : v.Final d L) :
    K = L := by
  rcases Nat.lt_trichotomy K L with hlt | heq | hlt
  · cases hK.2.symm.trans (hL.1 K hlt)
  · exact heq
  · cases hL.2.symm.trans (hK.1 L hlt)

namespace TalkWorker

variable {v : TestEnv} {e : Endpoint} {c : Fin v.workers} {d : Dir} {w : TalkWorker}
  {rest : List Dir} {k : Nat}

theorem pos_of_exchange {step : TalkStep} (hd : w.dirs = d :: rest) (hx : w.exchange = some step) :
    w.pos v = (.talk d rest step, step.packets w.count) := by
  rw [pos_eq hd, nextStep_exchange hx]

theorem pc_of_negotiate (hx : w.exchange = some (.negotiate k)) : w.pc = .negotiate := by
  unfold exchange at hx
  cases hpc : w.pc <;> rw [hpc] at hx <;> cases hx

theorem pc_of_streamStart (hx : w.exchange = some (.streamStart k)) : w.pc = .streamStart := by
  unfold exchange at hx
  cases hpc : w.pc <;> rw [hpc] at hx <;> cases hx

theorem pc_of_report (hx : w.exchange = some .report) : w.pc = .report := by
  unfold exchange at hx
  cases hpc : w.pc <;> rw [hpc] at hx <;> cases hx

theorem k_of_streamEnd (hx : w.exchange = some (.streamEnd k)) : w.k = k := by
  unfold exchange at hx
  cases hpc : w.pc <;> rw [hpc] at hx <;> cases hx
  rfl

/-- What a worker says is what the script has at its place. -/
theorem said {step : TalkStep} {count : Dir → UInt64} (hx : w.exchange = some step) (hrole : d.role e = step.speaker) (fill : List UInt8)
    (fillSize : fill.length = talkPayloadMaxSize - talkHdrSize) :
    v.Says c (.talk d rest step)
      (talkSay (v.hosts e) v.iter v.size (w.data v c d count fill fillSize) step) := by
  refine ⟨e, _, hrole, rfl, ?_⟩
  rintro k rfl
  simp only [data, k_of_streamEnd hx]

end TalkWorker

/-! ### All workers -/

namespace TalkTest

variable {v : TestEnv} {s s' : TalkTest v.workers} {e : Endpoint} {c : Fin v.workers} {d : Dir}
  {rest : List Dir}

/-- The invariant: the workers of each endpoint, and of each connection. -/
structure Inv (v : TestEnv) (s : TalkTest v.workers) : Prop where
  crew : ∀ e, Crew v e (s.worker e) (s.shared e)
  inStep : ∀ c, (v.connScript c).InStep (fun e => (s.worker e c).pos v) (s.chan c)

/-- What holds at each endpoint, after a step at one of them. -/
theorem forall_set {n : Nat} {s : TalkTest n} {c : Fin n}
    (P : Endpoint → (Fin n → TalkWorker) → TalkContext n → Prop) {w : TalkWorker}
    {sh : TalkContext n} (h : ∀ f, P f (s.worker f) (s.shared f))
    (hset : P e (Function.update (s.worker e) c w) sh) (f : Endpoint) :
    P f ((s.set e c w sh).worker f) ((s.set e c w sh).shared f) := by
  by_cases hf : f = e
  · subst hf
    simpa [set] using hset
  · simpa [set, Function.update_of_ne hf] using h f

theorem crew_set {w : TalkWorker} {sh : TalkContext v.workers} (h : s.Inv v)
    (hcrew : Crew v e (Function.update (s.worker e) c w) sh) (f : Endpoint) :
    Crew v f ((s.set e c w sh).worker f) ((s.set e c w sh).shared f) :=
  forall_set (Crew v) h.crew hcrew f

/-- The worker of another endpoint or another connection. -/
theorem worker_set_of_ne {w : TalkWorker} {sh : TalkContext v.workers} {f : Endpoint}
    {c' : Fin v.workers} (h : ¬(f = e ∧ c' = c)) :
    (s.set e c w sh).worker f c' = s.worker f c' := by
  by_cases hf : f = e
  · subst hf
    have hc : c' ≠ c := fun hc => h ⟨rfl, hc⟩
    simp [set, Function.update_of_ne hc]
  · simp [set, Function.update_of_ne hf]

theorem worker_set_self {w : TalkWorker} {sh : TalkContext v.workers} :
    (s.set e c w sh).worker e c = w := by
  simp [set]

theorem worker_setChan {f : Endpoint} {msgs : List TalkPayload} :
    (s.setChan c f msgs).worker = s.worker := rfl

theorem chan_setChan_self {f : Endpoint} {msgs : List TalkPayload} :
    (s.setChan c f msgs).chan c f = msgs := by
  simp [setChan]

theorem chan_setChan_of_ne {f g : Endpoint} {msgs : List TalkPayload} (h : g ≠ f) :
    (s.setChan c f msgs).chan c g = s.chan c g := by
  simp [setChan, Function.update_of_ne h]

/-- A step without a message. -/
theorem Inv.quiet {w : TalkWorker} {sh : TalkContext v.workers} (h : s.Inv v)
    (hcrew : Crew v e (Function.update (s.worker e) c w) sh)
    (hpos : w.pos v = (s.worker e c).pos v) : (s.set e c w sh).Inv v where
  crew := crew_set h hcrew
  inStep := by
    intro c'
    have hsame : (fun f => ((s.set e c w sh).worker f c').pos v)
        = fun f => (s.worker f c').pos v := by
      funext f
      by_cases hf : f = e ∧ c' = c
      · obtain ⟨rfl, rfl⟩ := hf
        rw [worker_set_self, hpos]
      · rw [worker_set_of_ne hf]
    rw [hsame]
    exact h.inStep c'

/-- The other connections do not see a message. -/
theorem inStep_of_ne {w : TalkWorker} {sh : TalkContext v.workers} {f : Endpoint}
    {msgs : List TalkPayload} (h : s.Inv v) {c' : Fin v.workers} (hc : c' ≠ c) :
    (v.connScript c').InStep (fun g => (((s.set e c w sh).setChan c f msgs).worker g c').pos v)
      (((s.set e c w sh).setChan c f msgs).chan c') := by
  have hpos : (fun g => (((s.set e c w sh).setChan c f msgs).worker g c').pos v)
      = fun g => (s.worker g c').pos v := by
    funext g
    show ((s.set e c w sh).worker g c').pos v = _
    rw [worker_set_of_ne (fun h => hc h.2)]
  have hchan : ((s.set e c w sh).setChan c f msgs).chan c' = s.chan c' :=
    Function.update_of_ne hc _ _
  rw [hpos, hchan]
  exact h.inStep c'

theorem Inv.send {step : TalkStep} (h : s.Inv v) (fill : List UInt8)
    (fillSize : fill.length = talkPayloadMaxSize - talkHdrSize)
    (hd : (s.worker e c).dirs = d :: rest) (hx : (s.worker e c).exchange = some step)
    (hrole : d.role e = step.speaker) :
    ((s.set e c ((s.worker e c).sent v e c d rest (s.shared e).count) (s.shared e)).setChan
      c e (s.chan c e ++ [talkSay (v.hosts e) v.iter v.size
        ((s.worker e c).data v c d (s.shared e).count fill fillSize) step])).Inv v where
  crew := crew_set h ((h.crew e).sent hd hx hrole)
  inStep := by
    intro c'
    by_cases hc : c = c'
    · subst hc
      have hpeer : e.peer ≠ e := e.peer_ne
      have hpos := TalkWorker.pos_of_exchange (v := v) hd hx
      refine (h.inStep c).say (s := e) (m := talkSay (v.hosts e) v.iter v.size
        ((s.worker e c).data v c d (s.shared e).count fill fillSize) step) ?_ ?_ ?_ ?_ ?_ ?_
      · show ((s.worker e c).pos v).1.speaker = some e
        rw [hpos]
        exact (TalkPos.speaker_talk d rest step e).mpr hrole
      · show v.Says c ((s.worker e c).pos v).1 _
        rw [hpos]
        exact TalkWorker.said hx hrole fill fillSize
      · simp only [worker_setChan, worker_set_self]
        refine TalkWorker.pos_sent hd hx ?_
        rintro k rfl
        have hpc := TalkWorker.pc_of_negotiate hx
        simp [talkSay, TalkWorker.data, hpc]
      · simp only [worker_setChan]
        exact congrArg (TalkWorker.pos v) (worker_set_of_ne fun h => hpeer h.1)
      · exact chan_setChan_self
      · exact chan_setChan_of_ne hpeer
    · exact inStep_of_ne h (Ne.symm hc)

/-- **What a worker hears** is what the worker at the other end has to say. -/
theorem Inv.recv {step : TalkStep} {pkt : TalkPayload} {more : List TalkPayload} (h : s.Inv v)
    (latency : UInt32) (hd : (s.worker e c).dirs = d :: rest)
    (hx : (s.worker e c).exchange = some step) (hrole : d.role e ≠ step.speaker)
    (hchan : s.chan c e.peer = pkt :: more) :
    ((s.set e c ((s.worker e c).heard v e d rest (s.shared e).count latency pkt)
      (s.shared e)).setChan c e.peer more).Inv v := by
  have hpos := TalkWorker.pos_of_exchange (v := v) hd hx
  have hpeer : e.peer ≠ e := e.peer_ne
  have hsays : v.Says c ((s.worker e c).pos v).1 pkt := ((h.inStep c).behind (s := e) hchan).2.1
  rw [hpos] at hsays
  obtain ⟨f, x, -, rfl, hweak⟩ := hsays
  exact {
    crew := by
      refine crew_set h ((h.crew e).heard hd hx hrole ?_)
      rintro k rfl
      rw [has_streamWeak, hweak k rfl]
    inStep := by
      intro c'
      by_cases hc : c = c'
      · subst hc
        refine ((h.inStep c).hear (s := e) hchan).2.2 ?_ ?_ ?_ ?_
        · simp only [worker_setChan, worker_set_self]
          refine TalkWorker.pos_heard hd hx ?_
          rintro k rfl
          have hsender : d.role e = .sender := by
            cases hr : d.role e with
            | sender => rfl
            | receiver => exact absurd hr hrole
          exact ((h.crew e).count c d rest hd hsender (TalkWorker.pc_of_streamStart hx)).symm
        · simp only [worker_setChan]
          exact congrArg (TalkWorker.pos v) (worker_set_of_ne fun h => hpeer h.1)
        · exact chan_setChan_of_ne hpeer.symm
        · exact chan_setChan_self
      · exact inStep_of_ne h (Ne.symm hc) }

theorem inv_init : (init v).Inv v where
  crew := fun _ => Crew.init
  inStep := by
    intro c
    have : Nonempty Endpoint := ⟨.connector⟩
    exact Choreography.inStep_start (C := v.connScript c) (((init v).worker .connector c).pos v)

theorem inv_step (h : s.Inv v) (hstep : Step v s s') : s'.Inv v := by
  cases hstep with
  | loc e c hd hw hlocal =>
      have hcrew := (h.crew e).loc hd hw hlocal
      refine h.quiet hcrew (hlocal.pos_eq hd ?_)
      refine (((h.crew e).shape c).now _ _ hd).loc hw ?_ hlocal
      exact (h.crew e).settled hd hw
  | leave e c serial now hd hw hb hall =>
      exact h.quiet ((h.crew e).leave hd hw hb hall serial now)
        (TalkWorker.pos_released hd hb serial now)
  | send e c fill fillSize hd hx hrole => exact h.send fill fillSize hd hx hrole
  | recv e c latency hd hx hrole hchan _ => exact h.recv latency hd hx hrole hchan

theorem Reachable.inv (h : s.Reachable v) : s.Inv v := by
  induction h with
  | refl => exact inv_init
  | tail _ hstep ih => exact inv_step ih hstep

/-- The worker is about to compare `im_weak` with the number of workers. -/
def ReadsImWeak (pc : WorkerPc) : Prop :=
  pc = .testImWeak ∨ pc = .testImWeakReverse ∨ pc = .recount

/-- **Weak-stream agreement.** Any two verdicts on stream `k` are the same, of whichever workers of
either endpoint, in whichever directions if both are tested at once; and where a worker reads
`im_weak`, it is the number of connections of the direction whose stream `k` is weak. -/
structure WeakAgreement (v : TestEnv) (s : TalkTest v.workers) : Prop where
  verdict : ∀ e e' c c' d d' k b b', (d, k, b) ∈ (s.worker e c).decided →
    (d', k, b') ∈ (s.worker e' c').decided → v.asynchronous = true ∨ d' = d → b = b'
  imWeak : ∀ e c d rest, (s.worker e c).dirs = d :: rest → ReadsImWeak (s.worker e c).pc →
    ∀ d', v.asynchronous = true ∨ d' = d →
      (s.shared e).imWeak d' = v.flagged d' (s.worker e c).k

theorem restart_congr {d d' : Dir} (h : v.asynchronous = true ∨ d' = d) (k : Nat) :
    v.restart d' k = v.restart d k := by
  rcases h with ha | rfl
  · simp [TestEnv.restart, ha]
  · rfl

end TalkTest

/-- In every state that the 2W workers can reach, from any interleaving, any weak streams and any
number of them. -/
theorem weak_agreement (v : TestEnv) (s : TalkTest v.workers) (h : s.Reachable v) :
    s.WeakAgreement v where
  verdict := by
    intro e e' c c' d d' k b b' hb hb' hdir
    have hverdict := ((h.inv.crew e).shape c).decided _ hb
    have hverdict' := ((h.inv.crew e').shape c').decided _ hb'
    calc b = v.restart d k := hverdict
      _ = v.restart d' k := (TalkTest.restart_congr hdir k).symm
      _ = b' := hverdict'.symm
  imWeak := by
    intro e c d rest hd hreads d' hdir
    have hcrew := h.inv.crew e
    have hat := (hcrew.shape c).now d rest hd
    have hw : (s.worker e c).waiting = false := by
      by_contra hw
      have hb := hat.barrier (Bool.of_not_eq_false hw)
      rcases hreads with hpc | hpc | hpc <;> rw [hpc] at hb <;> cases hb
    refine (hcrew.settled hd hw ?_).imWeak d' hdir
    rcases hreads with hpc | hpc | hpc <;> rw [hpc] <;> rfl

/-- Two connections, one for each direction at a time. The first stream is too short in the straight
direction, the second is long enough in both. -/
def envShortFirst : TestEnv where
  workers := 2
  workers_pos := by decide
  asynchronous := true
  bidirectional := true
  reverseFirst := false
  reverse := fun c => decide (c.val = 1)
  half := by decide
  iter := 1
  size := ⟨configTalkPayloadDefaultSize.toNat, by decide, by decide⟩
  minimumTime := 3
  countCurrent := 1
  hosts := fun _ => ⟨.little, .inlineFunction⟩
  time := fun _ d k => if d = .straight ∧ k = 0 then 900000 else 3100000

/-- The state at the end of a run of its four workers. -/
def endShortFirst : TalkTest envShortFirst.workers :=
  (TalkTest.init envShortFirst).run envShortFirst 300

theorem reachable_endShortFirst : endShortFirst.Reachable envShortFirst :=
  TalkTest.reachable_run 300 .refl

/-- All four workers have run another stream after the first and none after the second. -/
theorem weak_agreement_shortFirst :
    (∀ e ∈ [Endpoint.connector, .listener], ∀ c,
      ((endShortFirst.worker e c).decided.map fun x => x.2) = [(0, true), (1, false)]) ∧
      endShortFirst.WeakAgreement envShortFirst :=
  ⟨by decide +kernel, weak_agreement envShortFirst endShortFirst reachable_endShortFirst⟩

end Ubwt
