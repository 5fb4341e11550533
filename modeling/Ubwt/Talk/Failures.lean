import Ubwt.Lib.Prophecy
import Ubwt.Talk.Records

/-!
# Ubwt.Talk.Failures

The test when messages are lost and calls fail (`TalkTest.Fault`), and what is left of the
agreement then: **a completed test is long enough** (`completed_duration`).

The two endpoints may come to different verdicts now, as a sender may hear of a stream what its
receiver has not said. But the workers of one endpoint still agree on what they have heard: an
endpoint is in a test of its own, in which the streams that it sends took the times that it is
told (`TestEnv.told`). What it is told is chosen along the run, once for each stream, and
`Lib.Prophecy` makes it known from the start. And a sender that is through has a report, which is
the record of a receiver that is through as well.
-/

namespace Ubwt

open Lib

/-! ### Failures -/

/-- What a failed call makes of a worker that goes on after it. -/
inductive TalkWorker.Fails (e : Endpoint) (d : Dir) (rest : List Dir) (w : TalkWorker) :
    TalkWorker → Prop
  /-- `_talk_recv()` fails with EAGAIN before the last packet of a stream, and the loop ends. -/
  | timeout (hrole : d.role e = .receiver) (hpc : w.pc = .streamRun) :
      Fails e d rest w { w with pc := .endWait }
  /-- A FINISH that cannot be sent, or is not received, is worth a warning only. -/
  | finish (hpc : w.pc = .finish) : Fails e d rest w (w.nextDir rest)

namespace TalkTest

variable {v : TestEnv}

/-- A step in which the network or a call fails. Any other call that fails ends the process, and
with it the steps of the worker. -/
inductive Fault (v : TestEnv) : TalkTest v.workers → TalkTest v.workers → Prop
  /-- Messages are lost, come twice or in another order. -/
  | network {s} (c : Fin v.workers) (e : Endpoint) (msgs : List TalkPayload)
      (h : msgs ⊆ s.chan c e) : Fault v s (s.setChan c e msgs)
  /-- A worker takes for a message what nobody has said: the rest of one, and the beginning of the
  next. Nobody takes it for a report. -/
  | garbled {s} (e : Endpoint) (c : Fin v.workers) {d rest step} (latency : UInt32)
      (pkt : TalkPayload) (hd : (s.worker e c).dirs = d :: rest)
      (hx : (s.worker e c).exchange = some step) (hrole : d.role e ≠ step.speaker)
      (hstep : step ≠ .report) (hcheck : talkCheck v.iter pkt step = .ok ()) :
      Fault v s (s.set e c ((s.worker e c).heard v e d rest (s.shared e).count latency pkt)
        (s.shared e))
  | fails {s} (e : Endpoint) (c : Fin v.workers) {d rest w} (hd : (s.worker e c).dirs = d :: rest)
      (h : (s.worker e c).Fails e d rest w) : Fault v s (s.set e c w (s.shared e))

/-- A step, with or without a failure. -/
def AnyStep (v : TestEnv) (s s' : TalkTest v.workers) : Prop := Step v s s' ∨ Fault v s s'

/-- The states that can be reached when messages are lost and calls fail. -/
def FaultyReachable (v : TestEnv) (s : TalkTest v.workers) : Prop :=
  Relation.ReflTransGen (AnyStep v) (init v) s

end TalkTest

namespace TalkWorker

variable {v : TestEnv} {e : Endpoint} {c : Fin v.workers} {d : Dir} {rest : List Dir}
  {w w' : TalkWorker} {sh sh' : TalkContext v.workers} {msgs said : List TalkPayload} {k : Nat}

/-- What a worker does in a step that may fail, with the messages before it and what it says. -/
def MovesAnyhow (v : TestEnv) (e : Endpoint) (c : Fin v.workers) (d : Dir) (rest : List Dir)
    (w : TalkWorker) (sh : TalkContext v.workers) (msgs : List TalkPayload) (w' : TalkWorker)
    (said : List TalkPayload) : Prop :=
  w.Moves v e c d rest sh msgs w' said ∨
    said = [] ∧ (w.Fails e d rest w' ∨
      w.exchange ≠ some .report ∧ ∃ pkt, w.Moves v e c d rest sh [pkt] w' [])

theorem Fails.goes (h : w.Fails e d rest w') : w.Goes d rest w' := by
  cases h with
  | timeout hrole hpc => exact .inr ⟨by rw [hpc]; nofun, rfl, fun _ _ => rfl⟩
  | finish hpc => exact .inl ⟨hpc, rfl⟩

theorem MovesAnyhow.goes (h : w.MovesAnyhow v e c d rest sh msgs w' said) : w.Goes d rest w' := by
  rcases h with hmove | ⟨-, hfails | ⟨-, pkt, hmove⟩⟩
  · exact hmove.goes
  · exact hfails.goes
  · exact hmove.goes

/-- Failures or not, FINISH comes after the report. -/
theorem MovesAnyhow.finish_cases (h : w.MovesAnyhow v e c d rest sh msgs w' said)
    (hpc : w'.pc = .finish) :
    w.exchange = some .report ∧
      ((d.role e = .receiver ∧ w'.report = w.report ∧
          said = [reportPayload (v.hosts e) v.size (w.report d)]) ∨
        d.role e = .sender ∧ ∃ pkt more, msgs = pkt :: more ∧ pkt.has .report = true ∧
          w'.report d = reportUnmarshal (v.hosts e) pkt.buf) := by
  rcases h with hmove | ⟨-, hfails | ⟨hx, pkt, hmove⟩⟩
  · exact hmove.finish_cases hpc
  · cases hfails with
    | timeout => cases hpc
    | finish => exact absurd hpc pc_ne_finish_nextDir
  · exact absurd (hmove.finish_cases hpc).1 hx

end TalkWorker

namespace TalkTest

variable {v : TestEnv} {s s' : TalkTest v.workers} {e : Endpoint} {c : Fin v.workers} {d : Dir}

theorem Fault.own_cases (h : Fault v s s') (e : Endpoint) (c : Fin v.workers) :
    (s'.worker e c = s.worker e c ∨ ∃ d rest, (s.worker e c).dirs = d :: rest ∧
      (s.worker e c).MovesAnyhow v e c d rest (s.shared e) (s.chan c e.peer) (s'.worker e c) []) ∧
      s'.chan c e ⊆ s.chan c e := by
  cases h with
  | network c' e' msgs hmsgs =>
      refine ⟨.inl rfl, ?_⟩
      by_cases hsame : e = e' ∧ c = c'
      · obtain ⟨rfl, rfl⟩ := hsame
        rw [chan_setChan_self]
        exact hmsgs
      · rw [chan_setChan_other hsame]
        exact List.Subset.refl _
  | @garbled e' c' d rest step latency pkt hd hx hrole hstep hcheck =>
      refine ⟨?_, List.Subset.refl _⟩
      by_cases hsame : e = e' ∧ c = c'
      · obtain ⟨rfl, rfl⟩ := hsame
        rw [worker_set_self]
        refine .inr ⟨d, rest, hd, .inr ⟨rfl, .inr ⟨?_, pkt, .recv latency hx hrole rfl hcheck⟩⟩⟩
        rw [hx]
        exact fun heq => hstep (Option.some.inj heq)
      · exact .inl (worker_set_of_ne hsame)
  | @fails e' c' d rest w hd hfails =>
      refine ⟨?_, List.Subset.refl _⟩
      by_cases hsame : e = e' ∧ c = c'
      · obtain ⟨rfl, rfl⟩ := hsame
        rw [worker_set_self]
        exact .inr ⟨d, rest, hd, .inr ⟨rfl, .inl hfails⟩⟩
      · exact .inl (worker_set_of_ne hsame)

/-- A step is one of the worker itself, or adds nothing to the messages on their way. -/
theorem AnyStep.own_cases (h : AnyStep v s s') (e : Endpoint) (c : Fin v.workers) :
    (s'.worker e c = s.worker e c ∧ s'.chan c e ⊆ s.chan c e) ∨
      ∃ d rest said, (s.worker e c).dirs = d :: rest ∧
        (s.worker e c).MovesAnyhow v e c d rest (s.shared e) (s.chan c e.peer) (s'.worker e c)
          said ∧ s'.chan c e ⊆ s.chan c e ++ said := by
  rcases h with hstep | hfault
  · rcases hstep.own_cases e c with ⟨hsame, hsuffix⟩ | ⟨d, rest, said, hd, hmove, hchan⟩
    · exact .inl ⟨hsame, hsuffix.subset⟩
    · exact .inr ⟨d, rest, said, hd, .inl hmove, fun _ hmem => hchan ▸ hmem⟩
  · obtain ⟨hsame | ⟨d, rest, hd, hmove⟩, hchan⟩ := hfault.own_cases e c
    · exact .inl ⟨hsame, hchan⟩
    · exact .inr ⟨d, rest, [], hd, hmove, fun pkt hmem => List.mem_append_left _ (hchan hmem)⟩

end TalkTest

/-! ### What a worker is told -/

/-- The worker knows whether the stream was weak, or is past that. -/
def WorkerPc.told (pc : WorkerPc) : Bool := decide (6 ≤ pc.mainSeg ∧ pc ≠ .streamEnd)

namespace TalkWorker

variable {v : TestEnv} {e : Endpoint} {c : Fin v.workers} {d : Dir} {rest : List Dir}
  {w w' : TalkWorker} {sh sh' : TalkContext v.workers} {msgs said : List TalkPayload}
  {k : Nat} {weak : Bool}

/-- The worker gets from STREAM END of stream `k` of a direction whether the stream was weak. -/
structure Told (d : Dir) (k : Nat) (weak : Bool) (w w' : TalkWorker) : Prop where
  dir : w.dirs.head? = some d
  pc : w.pc = .streamEnd
  stream : w.k = k
  next : w'.pc = .setWait
  flag : w'.weak = weak

/-- STREAM END of stream `k` of a direction is still to come. -/
def Ahead (d : Dir) (k : Nat) (w : TalkWorker) : Prop :=
  d ∈ w.dirs ∧ (w.dirs.head? = some d →
    w.pc.early = true ∨ w.k < k ∨ w.k = k ∧ w.pc.told = false)

/-- A step within a direction takes the worker on. -/
def Onward (w w' : TalkWorker) : Prop :=
  w.pc.early = true ∨ w'.pc.early = false ∧
    (w'.k = w.k + 1 ∨ w'.k = w.k ∧ (w.pc.told = true → w'.pc.told = true))

theorem onward_of_early {p : WorkerPc} (hpc : w.pc = p) (hp : p.early = true) : w.Onward w' :=
  .inl (hpc ▸ hp)

/-- Onward in the same stream. -/
theorem onward_of_told {p : WorkerPc} (hpc : w.pc = p) (hearly : w'.pc.early = false)
    (hk : w'.k = w.k) (htold : p.told = false ∨ w'.pc.told = true) : w.Onward w' := by
  refine .inr ⟨hearly, .inr ⟨hk, fun hw => ?_⟩⟩
  rcases htold with hp | hw'
  · rw [hpc, hp] at hw
    cases hw
  · exact hw'

theorem onward_toRun {p : WorkerPc} (hpc : w.pc = p) (hp : p.told = false) {w' : TalkWorker}
    (hk : w'.k = w.k) (i : Nat) : w.Onward (w'.toRun i) := by
  unfold toRun
  split
  · exact onward_of_told hpc rfl hk (.inl hp)
  · exact onward_of_told hpc rfl hk (.inl hp)

theorem onward_again {p : WorkerPc} (hpc : w.pc = p) : w.Onward (w.again e d) := by
  unfold again
  cases d.role e with
  | sender => exact onward_of_told hpc rfl rfl (.inr rfl)
  | receiver => exact .inr ⟨rfl, .inl rfl⟩

theorem Local.onward (h : Local v e c d w sh w' sh') : w.Onward w' := by
  cases h with
  | enter hb =>
      cases hearly : w.pc.early with
      | true => exact .inl hearly
      | false => exact .inr ⟨hearly, .inr ⟨rfl, id⟩⟩
  | talkInit hpc | countSet hpc => exact onward_of_early hpc rfl
  | resetLock hpc _ | resetWeak hpc | resetImWeak hpc | resetWeakTime hpc | resetUnlock hpc =>
      exact onward_of_told hpc rfl rfl (.inl rfl)
  | setLock hpc _ | loadWeak hpc | storeWeak hpc | loadImWeak hpc | storeImWeak hpc
  | setWeakTime hpc | setUnlock hpc | recount _ hpc =>
      exact onward_of_told hpc rfl rfl (.inr rfl)
  | testWeak hpc =>
      split
      · exact onward_of_told hpc rfl rfl (.inr rfl)
      · exact onward_of_told hpc rfl rfl (.inr rfl)
  | testImWeak hpc =>
      unfold TalkWorker.testImWeak
      split_ifs
      · exact onward_again hpc
      · exact onward_of_told hpc rfl rfl (.inr rfl)
      · exact onward_again hpc
      · exact onward_of_told hpc rfl rfl (.inr rfl)
  | testImWeakReverse hpc =>
      split
      · exact onward_again hpc
      · exact onward_of_told hpc rfl rfl (.inr rfl)

theorem onward_measure {p : WorkerPc} (hpc : w.pc = p) (hp : p.told = false) :
    w.Onward (w.measure v e c d) := by
  unfold measure
  cases d.role e with
  | sender => exact onward_of_told hpc rfl rfl (.inl hp)
  | receiver => exact onward_of_told hpc rfl rfl (.inl hp)

theorem onward_proceed {b : BarrierId} (hb : w.pc.barrier v d = some b) (serial : Bool)
    (now : UInt64) : w.Onward (w.proceed v e c d serial now) := by
  rcases barrier_cases hb with ⟨-, hpc⟩ | ⟨-, hpc⟩ | ⟨-, hpc⟩ | ⟨-, hpc⟩
  · rcases hpc with hpc | hpc | hpc | hpc | hpc <;> simp only [proceed, hpc]
    · exact onward_of_early hpc rfl
    · exact onward_of_told hpc rfl rfl (.inl rfl)
    · cases d.role e with
      | sender => exact onward_toRun hpc rfl rfl 0
      | receiver =>
          refine onward_toRun hpc rfl ?_ 0
          rfl
    · cases w.weak with
      | true => exact onward_of_told hpc rfl rfl (.inr rfl)
      | false => exact onward_of_told hpc rfl rfl (.inr rfl)
    · exact onward_of_told hpc rfl rfl (.inr rfl)
  · rcases hpc with hpc | hpc | hpc | hpc <;> simp only [proceed, hpc]
    · exact onward_of_early hpc rfl
    · exact onward_of_early hpc rfl
    · cases serial with
      | true => exact onward_of_told hpc rfl rfl (.inr rfl)
      | false => exact onward_of_told hpc rfl rfl (.inr rfl)
    · exact .inr ⟨rfl, .inl rfl⟩
  · simp only [proceed, hpc]
    split
    · exact onward_of_told hpc rfl rfl (.inl rfl)
    · exact onward_measure hpc rfl
  · simp only [proceed, hpc]
    exact onward_measure hpc rfl

theorem onward_sent {step : TalkStep} {count : Dir → UInt64} (hx : w.exchange = some step)
    (hpc : w.pc ≠ .finish) : w.Onward (w.sent v e c d rest count) := by
  rcases exchange_cases hx with ⟨hw, -⟩ | ⟨hw, -⟩ | ⟨hw, -⟩ | ⟨hw, -⟩ | ⟨hw, -⟩ | ⟨hw, -⟩ |
    ⟨hw, -⟩ | ⟨hw, -⟩ <;> simp only [TalkWorker.sent, hw]
  · exact onward_of_early hw rfl
  · exact onward_of_early hw rfl
  · exact onward_of_told hw rfl rfl (.inl rfl)
  · exact onward_of_told hw rfl rfl (.inl rfl)
  · exact onward_toRun hw rfl rfl _
  · exact onward_of_told hw rfl rfl (.inr rfl)
  · exact onward_of_told hw rfl rfl (.inr rfl)
  · exact absurd hw hpc

theorem onward_heard {step : TalkStep} {count : Dir → UInt64} {latency : UInt32}
    {pkt : TalkPayload} (hx : w.exchange = some step) (hpc : w.pc ≠ .finish) :
    w.Onward (w.heard v e d rest count latency pkt) := by
  rcases exchange_cases hx with ⟨hw, -⟩ | ⟨hw, -⟩ | ⟨hw, -⟩ | ⟨hw, -⟩ | ⟨hw, -⟩ | ⟨hw, -⟩ |
    ⟨hw, -⟩ | ⟨hw, -⟩ <;> simp only [TalkWorker.heard, hw]
  · exact onward_of_early hw rfl
  · exact onward_of_early hw rfl
  · exact onward_of_told hw rfl rfl (.inl rfl)
  · exact onward_of_told hw rfl rfl (.inl rfl)
  · exact onward_toRun hw rfl rfl _
  · exact onward_of_told hw rfl rfl (.inr rfl)
  · exact onward_of_told hw rfl rfl (.inr rfl)
  · exact absurd hw hpc

theorem Moves.onward (h : w.Moves v e c d rest sh msgs w' said) (hpc : w.pc ≠ .finish) :
    w.Onward w' := by
  cases h with
  | loc hlocal => exact hlocal.onward
  | leave hb serial now => exact onward_proceed hb serial now
  | send fill fillSize hx hspeaks => exact onward_sent hx hpc
  | recv latency hx hlistens hmsgs hcheck => exact onward_heard hx hpc

theorem MovesAnyhow.onward (h : w.MovesAnyhow v e c d rest sh msgs w' said)
    (hpc : w.pc ≠ .finish) : w.Onward w' := by
  rcases h with hmove | ⟨-, hfails | ⟨-, pkt, hmove⟩⟩
  · exact hmove.onward hpc
  · cases hfails with
    | timeout hrole hrun => exact onward_of_told hrun rfl rfl (.inl rfl)
    | finish hfinish => exact absurd hfinish hpc
  · exact hmove.onward hpc

theorem Told.ahead (h : w.Told d k weak w') : w.Ahead d k := by
  refine ⟨?_, fun _ => .inr (.inr ⟨h.stream, by rw [h.pc]; rfl⟩)⟩
  exact List.mem_of_mem_head? h.dir

/-- **No STREAM END comes twice.** -/
theorem MovesAnyhow.ahead {d₁ : Dir} (h : w.MovesAnyhow v e c d₁ rest sh msgs w' said)
    (hd : w.dirs = d₁ :: rest) (hnodup : w.dirs.Nodup) (hahead : w'.Ahead d k) :
    w.Ahead d k ∧ ∀ weak, ¬w.Told d k weak w' := by
  obtain ⟨hmem, hplace⟩ := hahead
  by_cases hne : d₁ = d
  · subst hne
    have hhead : w.dirs.head? = some d₁ := by rw [hd]; rfl
    rcases h.goes with ⟨-, rfl⟩ | ⟨hpc, hdirs, -⟩
    · rw [hd] at hnodup
      exact absurd hmem (List.nodup_cons.mp hnodup).1
    · have hplace := hplace (hdirs ▸ hhead)
      refine ⟨⟨hdirs ▸ hmem, fun _ => ?_⟩, fun weak htold => ?_⟩
      · rcases h.onward hpc with hearly | ⟨hearly', hk | ⟨hk, htold⟩⟩
        · exact .inl hearly
        · rw [hearly', hk] at hplace
          exact .inr (.inl (by simp at hplace; omega))
        · rw [hearly', hk] at hplace
          rcases hplace with hf | hlt | ⟨heq, hnot⟩
          · cases hf
          · exact .inr (.inl hlt)
          · refine .inr (.inr ⟨heq, ?_⟩)
            by_contra hw
            cases hnot.symm.trans (htold (Bool.of_not_eq_false hw))
      · rcases h.onward hpc with hearly | ⟨-, hk⟩
        · rw [htold.pc] at hearly
          cases hearly
        · have hstream := htold.stream
          rcases hplace with hearly | hlt | ⟨heq, hnot⟩
          · rw [htold.next] at hearly
            cases hearly
          · rcases hk with hk | ⟨hk, -⟩ <;> omega
          · rw [htold.next] at hnot
            cases hnot
  · have hhead : w.dirs.head? ≠ some d := by
      rw [hd]
      exact fun heq => hne (Option.some.inj heq)
    refine ⟨⟨?_, fun heq => absurd heq hhead⟩, fun _ htold => hhead htold.dir⟩
    rcases h.goes with ⟨-, rfl⟩ | ⟨-, hdirs, -⟩
    · rw [hd]
      exact List.mem_cons_of_mem d₁ hmem
    · exact hdirs ▸ hmem

end TalkWorker

namespace TalkTest

variable {v : TestEnv} {s s' : TalkTest v.workers} {e : Endpoint} {c : Fin v.workers} {d : Dir}

/-- What the workers are told in a step, by endpoint, connection, direction and stream. -/
def Tells (s s' : TalkTest v.workers) (key : Endpoint × Fin v.workers × Dir × Nat) (weak : Bool) :
    Prop :=
  (s.worker key.1 key.2.1).Told key.2.2.1 key.2.2.2 weak (s'.worker key.1 key.2.1)

/-- What they will be told. -/
def Ahead (s : TalkTest v.workers) (key : Endpoint × Fin v.workers × Dir × Nat) : Prop :=
  (s.worker key.1 key.2.1).Ahead key.2.2.1 key.2.2.2

/-- No worker has a direction twice before it. -/
def DirsNodup (s : TalkTest v.workers) : Prop := ∀ e c, (s.worker e c).dirs.Nodup

theorem tells_choose : Chooses (AnyStep v) DirsNodup Ahead Tells where
  keeps := by
    intro s s' hs hstep e c
    rcases hstep.own_cases e c with ⟨hsame, -⟩ | ⟨d, rest, said, hd, hmove, -⟩
    · rw [hsame]
      exact hs e c
    · rcases hmove.goes with ⟨-, heq⟩ | ⟨-, hdirs, -⟩
      · have hnodup := hs e c
        rw [hd] at hnodup
        rw [heq]
        exact (List.nodup_cons.mp hnodup).2
      · rw [hdirs]
        exact hs e c
  unique := fun s s' key a b ha hb => ha.flag.symm.trans hb.flag
  was_ahead := fun s s' key a _ _ ha => TalkWorker.Told.ahead ha
  still_ahead := by
    rintro s s' ⟨e, c, d, k⟩ hs hstep hahead
    rcases hstep.own_cases e c with ⟨hsame, -⟩ | ⟨d₁, rest, said, hd, hmove, -⟩
    · refine ⟨?_, fun weak htold => ?_⟩
      · unfold Ahead at hahead ⊢
        rw [hsame] at hahead
        exact hahead
      · have hnext := htold.next
        rw [hsame, htold.pc] at hnext
        cases hnext
    · exact hmove.ahead hd (hs e c) hahead

end TalkTest

/-! ### The test of one endpoint -/

/-- The test as an endpoint is told about it: the streams that it sends took no time if they were
weak, and else as long as can be. -/
@[reducible] def TestEnv.told (v : TestEnv) (weak : Endpoint × Fin v.workers × Dir × Nat → Bool)
    (e : Endpoint) : TestEnv :=
  { v with
    time := fun c d k => match d.role e with
      | .sender => if weak (e, c, d, k) then 0 else -1
      | .receiver => v.time c d k }

namespace TestEnv

variable {v : TestEnv} {e : Endpoint} {c : Fin v.workers} {d : Dir} {k : Nat}
  {weak : Endpoint × Fin v.workers × Dir × Nat → Bool}

theorem told_time (hrole : d.role e = .receiver) : (v.told weak e).time c d k = v.time c d k := by
  simp only [hrole]

theorem told_weak_receiver (hrole : d.role e = .receiver) :
    (v.told weak e).weak c d k = v.weak c d k := by
  rw [TestEnv.weak, told_time hrole]
  rfl

/-- A sender is told that a stream was weak, if that can be. -/
theorem told_weak_sender (hrole : d.role e = .sender)
    (hpos : 0 < streamThreshold v.minimumTime) :
    (v.told weak e).weak c d k = weak (e, c, d, k) := by
  have htime : (v.told weak e).time c d k = if weak (e, c, d, k) then 0 else -1 := by
    simp only [hrole]
  rw [TestEnv.weak, htime]
  cases weak (e, c, d, k) with
  | true => exact decide_eq_true hpos
  | false =>
      refine decide_eq_false ?_
      rw [UInt64.not_lt, UInt64.le_iff_toNat_le]
      exact Nat.le_of_lt_succ (streamThreshold v.minimumTime).toNat_lt

end TestEnv

namespace TalkWorker

variable {v : TestEnv} {e : Endpoint} {c : Fin v.workers} {d : Dir} {rest : List Dir}
  {w w' : TalkWorker} {sh sh' : TalkContext v.workers}
  {weak : Endpoint × Fin v.workers × Dir × Nat → Bool}

theorem Local.told (h : Local v e c d w sh w' sh') :
    Local (v.told weak e) e c d w sh w' sh' := by
  cases h with
  | talkInit h => exact .talkInit h
  | enter hb => exact .enter hb
  | countSet h => exact .countSet h
  | resetLock h hm => exact .resetLock h hm
  | resetWeak h => exact .resetWeak h
  | resetImWeak h => exact .resetImWeak h
  | resetWeakTime h => exact .resetWeakTime h
  | resetUnlock h => exact .resetUnlock h
  | setLock h hm => exact .setLock h hm
  | loadWeak h => exact .loadWeak h
  | storeWeak h => exact .storeWeak h
  | loadImWeak h => exact .loadImWeak h
  | storeImWeak h => exact .storeImWeak h
  | setWeakTime h => exact .setWeakTime h
  | setUnlock h => exact .setUnlock h
  | testWeak h => exact .testWeak h
  | testImWeak h => exact .testImWeak h
  | testImWeakReverse h => exact .testImWeakReverse h
  | recount count h => exact .recount count h

theorem measure_told : w.measure (v.told weak e) e c d = w.measure v e c d := by
  unfold measure
  cases hrole : d.role e with
  | sender => rfl
  | receiver => rw [TestEnv.told_time hrole]

theorem proceed_told (serial : Bool) (now : UInt64) :
    w.proceed (v.told weak e) e c d serial now = w.proceed v e c d serial now := by
  unfold proceed
  rw [measure_told]
  rfl

theorem sent_told {step : TalkStep} {count : Dir → UInt64} (hx : w.exchange = some step)
    (hrole : d.role e = step.speaker) :
    w.sent (v.told weak e) e c d rest count = w.sent v e c d rest count := by
  rcases exchange_cases hx with ⟨hw, rfl⟩ | ⟨hw, rfl⟩ | ⟨hw, rfl⟩ | ⟨hw, rfl⟩ | ⟨hw, rfl⟩ |
    ⟨hw, rfl⟩ | ⟨hw, rfl⟩ | ⟨hw, rfl⟩ <;> simp only [TalkWorker.sent, hw]
  case inr.inr.inr.inr.inr.inl =>
    rw [TestEnv.told_weak_receiver hrole]
    simp only [show d.role e = .receiver from hrole]
  all_goals rfl

end TalkWorker

namespace Crew

variable {v : TestEnv} {e : Endpoint} {c : Fin v.workers} {d : Dir} {rest : List Dir}
  {ws : Fin v.workers → TalkWorker} {w' : TalkWorker} {sh : TalkContext v.workers}

/-- **A failure is kept as well.** -/
theorem fails (h : Crew v e ws sh) (hd : (ws c).dirs = d :: rest)
    (hfails : (ws c).Fails e d rest w') : Crew v e (Function.update ws c w') sh := by
  have hshape := h.shape c
  have hat := hshape.now d rest hd
  cases hfails with
  | timeout hrole hpc =>
      have hx : (ws c).exchange = some (.streamRun (ws c).k (ws c).i) := by
        rw [TalkWorker.exchange, hpc]
      have hw := hat.waiting_of_exchange hx
      have haside : ({ ws c with pc := .endWait } : TalkWorker).Aside :=
        .of_pc (fun _ => rfl) rfl rfl
      refine h.talk hw ?_ rfl (fun _ => .inl) (TalkWorker.plain_exchange hx) haside.1 ?_
      · exact hshape.step hd rfl (fun _ _ _ => rfl) (fun _ _ => rfl) (fun _ hx => .inl hx)
          (hat.move hpc rfl rfl rfl rfl hw rfl (fun _ => rfl))
      · exact fun _ _ _ _ hpc => absurd hpc haside.2
  | finish hpc =>
      have hx : (ws c).exchange = some .finish := by rw [TalkWorker.exchange, hpc]
      have hw := hat.waiting_of_exchange hx
      have haside : ((ws c).nextDir rest).Aside := TalkWorker.aside_nextDir rest
      exact h.talk hw (hshape.nextDir hd hpc hw) rfl (fun _ => h.tests_nextDir hd)
        (TalkWorker.plain_exchange hx) haside.1 (fun _ _ _ _ hpc => absurd hpc haside.2)

end Crew

namespace TalkTest

variable {v : TestEnv} {s s' : TalkTest v.workers} {e : Endpoint} {c : Fin v.workers} {d : Dir}
  {rest : List Dir} {weak : Endpoint × Fin v.workers × Dir × Nat → Bool}

/-- Each endpoint is in the test that it is told about. -/
def ToldCrews (weak : Endpoint × Fin v.workers × Dir × Nat → Bool) (s : TalkTest v.workers) :
    Prop :=
  ∀ e, Crew (v.told weak e) e (s.worker e) (s.shared e)

/-- What a worker hears is what it is told. -/
theorem ToldCrews.heard {step : TalkStep} {latency : UInt32} {pkt : TalkPayload}
    (h : s.ToldCrews weak) (hpos : 0 < streamThreshold v.minimumTime)
    (hd : (s.worker e c).dirs = d :: rest) (hx : (s.worker e c).exchange = some step)
    (hrole : d.role e ≠ step.speaker)
    (htells : ∀ key b, s.Tells (s.set e c ((s.worker e c).heard v e d rest (s.shared e).count
      latency pkt) (s.shared e)) key b → b = weak key) :
    (s.set e c ((s.worker e c).heard v e d rest (s.shared e).count latency pkt)
      (s.shared e)).ToldCrews weak := by
  refine forall_set (fun e => Crew (v.told weak e) e) h ((h e).heard hd hx hrole ?_)
  rintro k rfl
  have hsender : d.role e = .sender := by
    cases hr : d.role e with
    | sender => rfl
    | receiver => exact absurd hr hrole
  rw [TestEnv.told_weak_sender hsender hpos]
  rcases TalkWorker.exchange_cases hx with ⟨-, hs⟩ | ⟨-, hs⟩ | ⟨-, hs⟩ | ⟨-, hs⟩ | ⟨-, hs⟩ |
    ⟨hpc, -⟩ | ⟨-, hs⟩ | ⟨-, hs⟩
  case inr.inr.inr.inr.inr.inl =>
    refine htells (e, c, d, k) _ {
      dir := by rw [hd]; rfl
      pc := hpc
      stream := TalkWorker.k_of_streamEnd hx
      next := ?_
      flag := ?_ }
    · simp only [worker_set_self, TalkWorker.heard, hpc]
    · simp only [worker_set_self, TalkWorker.heard, hpc]
  all_goals cases hs

/-- **A step, with or without a failure.** -/
theorem toldCrews_step (hpos : 0 < streamThreshold v.minimumTime) (h : s.ToldCrews weak)
    (hstep : Foretold (AnyStep v) Tells weak s s') : s'.ToldCrews weak := by
  obtain ⟨hstep | hfault, htells⟩ := hstep
  · cases hstep with
    | loc e c hd hw hlocal =>
        exact forall_set (fun e => Crew (v.told weak e) e) h ((h e).loc hd hw hlocal.told)
    | leave e c serial now hd hw hb hall =>
        have hleave := (h e).leave hd hw hb hall serial now
        rw [TalkWorker.released, TalkWorker.proceed_told] at hleave
        exact forall_set (fun e => Crew (v.told weak e) e) h hleave
    | send e c fill fillSize hd hx hrole =>
        have hsent := (h e).sent hd hx hrole
        rw [TalkWorker.sent_told hx hrole] at hsent
        exact forall_set (fun e => Crew (v.told weak e) e) h hsent
    | recv e c latency hd hx hrole hchan hcheck => exact h.heard hpos hd hx hrole htells
  · cases hfault with
    | network c e msgs hmsgs => exact h
    | garbled e c latency pkt hd hx hrole hstep hcheck => exact h.heard hpos hd hx hrole htells
    | fails e c hd hfails =>
        exact forall_set (fun e => Crew (v.told weak e) e) h ((h e).fails hd hfails)

end TalkTest

/-! ### The reports -/

theorem Dir.eq_of_receiver {d d' : Dir} (h : d'.role d.receiver = .receiver) : d' = d := by
  cases d <;> cases d' <;> first | rfl | cases h

theorem Dir.role_receiver (d : Dir) : d.role d.receiver = .receiver := by cases d <;> rfl

theorem Dir.role_sender (d : Dir) : d.role d.sender = .sender := by cases d <;> rfl

/-- Said or not, a report is the record of a receiver that is through with its streams. -/
theorem TalkWorker.MovesAnyhow.report_said {v : TestEnv} {e : Endpoint} {c : Fin v.workers}
    {d : Dir} {rest : List Dir} {w w' : TalkWorker} {sh : TalkContext v.workers}
    {msgs said : List TalkPayload} (h : w.MovesAnyhow v e c d rest sh msgs w' said)
    {pkt : TalkPayload} (hmem : pkt ∈ said) (hhas : pkt.has .report = true) :
    w.pc = .report ∧ d.role e = .receiver ∧
      pkt = reportPayload (v.hosts e) v.size (w.report d) := by
  rcases h with hmove | ⟨rfl, -⟩
  · cases hmove with
    | send fill fillSize hx hspeaks =>
        rw [List.mem_singleton] at hmem
        subst hmem
        obtain rfl := TalkTest.report_of_has hhas
        exact ⟨pc_of_report hx, hspeaks, rfl⟩
    | loc => cases hmem
    | leave => cases hmem
    | recv => cases hmem
  · cases hmem

/-- The time of the last stream of a direction, for the endpoint that receives it. -/
def TestEnv.LastTime (v : TestEnv) (weak : Endpoint × Fin v.workers × Dir × Nat → Bool)
    (c : Fin v.workers) (d : Dir) (t : UInt64) : Prop :=
  ∃ K, (v.told weak d.receiver).Final d K ∧ t = v.time c d K

namespace TalkTest

variable {v : TestEnv} {s s' : TalkTest v.workers} {e : Endpoint} {c : Fin v.workers} {d : Dir}
  {weak : Endpoint × Fin v.workers × Dir × Nat → Bool}

/-- The reports that are on their way, and those that have been heard. -/
structure Reported (weak : Endpoint × Fin v.workers × Dir × Nat → Bool) (s : TalkTest v.workers) :
    Prop where
  said : ∀ c d, ∀ pkt ∈ s.chan c d.receiver, pkt.has .report = true →
    ∃ r, pkt = reportPayload (v.hosts d.receiver) v.size r ∧
      v.LastTime weak c d r.talkStreamTimeDuration
  heard : ∀ c d, d ∈ v.dirs c → (s.worker d.sender c).Through d →
    v.LastTime weak c d ((s.worker d.sender c).report d).talkStreamTimeDuration

theorem reported_init : (init v).Reported weak where
  said := fun _ _ _ hmem => absurd hmem List.not_mem_nil
  heard := by
    intro c d hmem hthrough
    rcases hthrough with hnot | ⟨-, -, hpc⟩
    · exact absurd hmem hnot
    · cases hpc

theorem Reported.step (h : s.Reported weak) (hcrews : s.ToldCrews weak) (hstep : AnyStep v s s') :
    s'.Reported weak where
  said := by
    intro c d pkt hmem hhas
    rcases hstep.own_cases d.receiver c with
      ⟨-, hchan⟩ | ⟨d₁, rest, said, hd, hmove, hchan⟩
    · exact h.said c d pkt (hchan hmem) hhas
    · rcases List.mem_append.mp (hchan hmem) with hmem | hsaid
      · exact h.said c d pkt hmem hhas
      · obtain ⟨hpc, hrole, hpkt⟩ := hmove.report_said hsaid hhas
        obtain rfl := Dir.eq_of_receiver hrole
        have hat := ((hcrews d₁.receiver).shape c).now d₁ rest hd
        refine ⟨_, hpkt, _, ⟨hat.ran, hat.reports (by rw [hpc]; rfl)⟩, ?_⟩
        exact (hat.measured (by rw [hpc]; rfl) hrole).trans (TestEnv.told_time hrole)
  heard := by
    intro c d hmem hthrough
    rcases hstep.own_cases d.sender c with ⟨hsame, -⟩ | ⟨d₁, rest, said, hd, hmove, -⟩
    · rw [hsame] at hthrough ⊢
      exact h.heard c d hmem hthrough
    · by_cases hbefore : (s.worker d.sender c).Through d
      · have hsuffix := ((hcrews d.sender).shape c).suffix
        have hnodup := (v.nodup_dirs c).sublist hsuffix.sublist
        rw [(hmove.goes.through hd hnodup hbefore).2]
        exact h.heard c d hmem hbefore
      · obtain ⟨rfl, hpc⟩ := (hmove.goes.through_cases hd hthrough).resolve_left hbefore
        obtain ⟨-, ⟨hreceiver, -⟩ | ⟨-, pkt, more, hchan, hhas, hreport⟩⟩ := hmove.finish_cases hpc
        · cases d.role_sender.symm.trans hreceiver
        · rw [Dir.sender, Endpoint.peer_peer] at hchan
          obtain ⟨r, rfl, hlast⟩ := h.said c d pkt (hchan ▸ List.mem_cons_self ..) hhas
          rw [hreport, reportUnmarshal_reportPayload]
          exact hlast

/-- **A run with failures, told from its start.** -/
theorem FaultyReachable.exists_told (h : s.FaultyReachable v)
    (hpos : 0 < streamThreshold v.minimumTime) :
    ∃ weak, s.ToldCrews weak ∧ s.Reported weak := by
  have hnodup : (init v).DirsNodup := fun _ c => v.nodup_dirs c
  obtain ⟨weak, hrun⟩ := tells_choose.exists_foretold hnodup h
  refine ⟨weak, ?_⟩
  clear h
  induction hrun with
  | refl => exact ⟨fun _ => Crew.init, reported_init⟩
  | tail _ hstep ih =>
      exact ⟨toldCrews_step hpos ih.1 hstep, ih.2.step ih.1 hstep.1⟩

/-- What a worker that is back has in its record is the time of the last stream. -/
theorem lastTime_of_back (hcrews : s.ToldCrews weak) (hreported : s.Reported weak)
    (hmem : d ∈ v.dirs c) (hnot : d ∉ (s.worker e c).dirs) :
    v.LastTime weak c d ((s.worker e c).report d).talkStreamTimeDuration := by
  rcases Endpoint.eq_or_eq_peer d.receiver e with rfl | rfl
  · obtain ⟨K, hfinal, -, htime⟩ := ((hcrews d.receiver).shape c).past d hmem hnot
    exact ⟨K, hfinal, (htime d.role_receiver).trans (TestEnv.told_time d.role_receiver)⟩
  · exact hreported.heard c d hmem (.inl hnot)

/-- One of the connections took the minimum time, and its record is in the list. -/
theorem FaultyReachable.le_combine (h : s.FaultyReachable v)
    (hdone : ∀ c, (s.worker e c).dirs = []) {workers : List (Dir → ReportCollect)}
    (hworkers : s.Lists e workers) (hd : ∃ c, d ∈ v.dirs c) :
    streamThreshold v.minimumTime
      ≤ (reportWorkerCombine v.asynchronous (fun _ => .zero) workers d).talkStreamTimeDuration := by
  by_cases hpos : 0 < streamThreshold v.minimumTime
  · obtain ⟨weak, hcrews, hreported⟩ := h.exists_told hpos
    have hlast : ∀ c, d ∈ v.dirs c →
        v.LastTime weak c d ((s.worker e c).report d).talkStreamTimeDuration := by
      intro c hc
      refine lastTime_of_back hcrews hreported hc ?_
      rw [hdone c]
      exact List.not_mem_nil
    obtain ⟨c₀, hc₀⟩ := hd
    obtain ⟨K, hfinal, -⟩ := hlast c₀ hc₀
    obtain ⟨c, hc, hlong⟩ := hfinal.exists_long ⟨c₀, hc₀⟩
    obtain ⟨L, hfinal', htime⟩ := hlast c hc
    rw [TestEnv.told_time d.role_receiver, hfinal.eq hfinal', ← htime] at hlong
    refine UInt64.le_trans hlong (le_reportWorkerCombine _ _ (hworkers.mem_iff.mpr ?_) d)
    exact List.mem_map_of_mem (List.mem_finRange c)
  · exact UInt64.le_trans (UInt64.not_lt.mp hpos) (UInt64.zero_le ..)

/-- A run without failures. -/
theorem FaultyReachable.steps (h : s.FaultyReachable v)
    (hrun : Relation.ReflTransGen (Step v) s s') : s'.FaultyReachable v := by
  induction hrun with
  | refl => exact h
  | tail _ hstep ih => exact Relation.ReflTransGen.tail ih (.inl hstep)

theorem Reachable.faulty (h : s.Reachable v) : s.FaultyReachable v :=
  FaultyReachable.steps .refl h

end TalkTest

/-- One connection, on which two packets are sent in the straight direction. -/
def envLost : TestEnv :=
  { envShortFirst with
    workers := 1
    workers_pos := Nat.one_pos
    asynchronous := false
    bidirectional := false
    reverse := fun _ => false
    half := fun h => absurd h Bool.false_ne_true
    countCurrent := 2
    time := fun _ _ _ => 3100000 }

def onlyWorker : Fin envLost.workers := ⟨0, envLost.workers_pos⟩

/-- The receiver has the first packet, and the second is on its way. -/
def oneOfTwoPackets : TalkTest envLost.workers := (TalkTest.init envLost).run envLost 42

/-- The second packet is lost, and the receiver has waited long enough. -/
def lostPacket : TalkTest envLost.workers :=
  let s := oneOfTwoPackets.setChan onlyWorker .connector []
  s.set .listener onlyWorker { s.worker .listener onlyWorker with pc := .endWait }
    (s.shared .listener)

def endLost : TalkTest envLost.workers := lostPacket.run envLost 100

theorem faultyReachable_endLost : endLost.FaultyReachable envLost := by
  have hone : oneOfTwoPackets.FaultyReachable envLost :=
    TalkTest.FaultyReachable.steps .refl (TalkTest.steps_run envLost 42 _)
  have hlost := hone.tail (.inr (.network onlyWorker .connector [] (List.nil_subset _)))
  refine TalkTest.FaultyReachable.steps (hlost.tail (.inr ?_)) (TalkTest.steps_run envLost 100 _)
  have hd : (oneOfTwoPackets.worker .listener onlyWorker).dirs = [.straight] := by decide +kernel
  exact .fails .listener onlyWorker hd (.timeout rfl (by decide +kernel))

end Ubwt
