import Ubwt.Lib.Growth
import Ubwt.Talk.Counting
import Ubwt.Talk.Duration

/-!
# Ubwt.Talk.Restart

**The restarts come to an end** (`restarts_end`). Each of them makes the count of a direction
larger whose workers were all weak, and no count smaller, and no sender starts a stream of more
than `talk_count_max` packets. Either direction restarts both, and each is counted by its own
sender on its own host; so the bound is one for the two counts together, and what makes it one for
every worker is that no worker gets far ahead of the others: those of its process meet it at the
barriers, and the one at the other end follows the script of the connection.
-/

namespace Ubwt

open Lib Lib.Posix

/-! ### The two ends of a connection -/

/-- The exchange is not before stream `K`; behind the streams it is of no stream at all. -/
def TalkStep.AtLeast (K : Nat) : TalkStep → Prop
  | ping _ | pong _ => K = 0
  | negotiate k | streamStart k | streamRun k _ | streamEnd k => K ≤ k
  | report | finish => True

/-- The position is not before stream `K` of a direction. -/
def TalkPos.Beyond (d : Dir) (K : Nat) : TalkPos → Prop
  | talk d' rest step => d ∉ rest ∧ (d' = d → step.AtLeast K)
  | returned => True

namespace TalkStep

variable {K K' : Nat} {step step' : TalkStep} {iter : UInt16} {count : Nat → UInt32}
  {restart : Nat → Bool}

theorem AtLeast.mono (hle : K' ≤ K) (h : step.AtLeast K) : step.AtLeast K' := by
  cases step <;> simp only [AtLeast] at h ⊢ <;> omega

/-- The start of the first stream is not before it. -/
theorem atLeast_handshake (i : Nat) : (handshake iter i).AtLeast K ↔ K = 0 := by
  unfold handshake
  split <;> simp [AtLeast]

theorem atLeast_stream {n : UInt32} {k i : Nat} : (stream n k i).AtLeast K ↔ K ≤ k := by
  unfold stream
  split <;> simp [AtLeast]

/-- The next exchange is not before this one. -/
theorem AtLeast.next (h : step.AtLeast K) (hnext : step.next iter count restart = some step') :
    step'.AtLeast K := by
  cases step with
  | ping i =>
      cases hnext
      exact h
  | pong i =>
      cases hnext
      exact (atLeast_handshake _).mpr h
  | negotiate k =>
      cases hnext
      exact h
  | streamStart k | streamRun k i =>
      cases hnext
      exact atLeast_stream.mpr h
  | streamEnd k =>
      cases hnext
      split
      · exact Nat.le_succ_of_le h
      · trivial
  | report =>
      cases hnext
      trivial
  | finish => cases hnext

/-- What the receiver says takes a connection to the next stream only from the end of this one. -/
theorem AtLeast.prev (hnext : step.next iter count restart = some step')
    (hspeaker : step.speaker = .receiver) (hran : ∀ j ≤ K, restart j = true)
    (hstep' : step'.speaker = .receiver → step'.AtLeast K)
    (hsender : step'.speaker = .sender → step'.AtLeast (K + 1)) : step.AtLeast K := by
  cases step with
  | pong i =>
      cases hnext
      cases hrole : (handshake iter (i + 1)).speaker with
      | sender => exact absurd ((atLeast_handshake _).mp (hsender hrole)) (Nat.succ_ne_zero K)
      | receiver => exact (atLeast_handshake _).mp (hstep' hrole)
  | streamStart k =>
      cases hnext
      cases hrole : (stream (count k) k 0).speaker with
      | sender => exact Nat.le_of_succ_le (atLeast_stream.mp (hsender hrole))
      | receiver => exact atLeast_stream.mp (hstep' hrole)
  | streamEnd k =>
      cases hnext
      by_cases hrestart : restart k = true
      · rw [if_pos hrestart] at hsender
        exact Nat.le_of_succ_le_succ (hsender rfl)
      · by_contra hlt
        exact hrestart (hran k (Nat.le_of_lt (Nat.not_le.mp hlt)))
  | report => trivial
  | ping i => cases hspeaker
  | negotiate k => cases hspeaker
  | streamRun k i => cases hspeaker
  | finish => cases hspeaker

end TalkStep

namespace TalkPos

variable {d : Dir} {rest : List Dir} {K K' : Nat} {pos : TalkPos}

theorem Beyond.mono (hle : K' ≤ K) (h : pos.Beyond d K) : pos.Beyond d K' := by
  cases pos with
  | talk d' rest step => exact ⟨h.1, fun hd => (h.2 hd).mono hle⟩
  | returned => trivial

theorem beyond_enter {iter : UInt16} (h : d ∉ rest) : (enter iter rest).Beyond d K := by
  cases rest with
  | nil => trivial
  | cons d' rest =>
      rw [List.mem_cons, not_or] at h
      exact ⟨h.2, fun hd => absurd hd.symm h.1⟩

/-- At its start a direction is not beyond its first stream. -/
theorem notMem_of_beyond_enter {iter : UInt16} (h : (enter iter rest).Beyond d (K + 1)) :
    d ∉ rest := by
  cases rest with
  | nil => exact List.not_mem_nil
  | cons d' rest =>
      rw [List.mem_cons, not_or]
      refine ⟨fun hd => ?_, h.1⟩
      exact absurd ((TalkStep.atLeast_handshake 0).mp (h.2 hd.symm)) (Nat.succ_ne_zero K)

end TalkPos

namespace TestEnv

variable {v : TestEnv} {c : Fin v.workers} {d d' : Dir} {rest : List Dir} {K : Nat}
  {step : TalkStep} {p q : TalkPos × UInt32} {pkt : TalkPayload} {pkts : List TalkPayload}
  {e : Endpoint}

/-- The next position of a connection: of this direction, or the start of the one after it. -/
theorem posNext_talk (v : TestEnv) (d : Dir) (rest : List Dir) (step : TalkStep) (n : UInt32)
    (pkt : TalkPayload) :
    (∃ count step', step.next v.iter count (v.restart d) = some step' ∧
      (v.posNext (.talk d rest step, n) pkt).1 = .talk d rest step') ∨
    (step = .finish ∧ (v.posNext (.talk d rest step, n) pkt).1 = .enter v.iter rest) := by
  simp only [posNext]
  split
  · rename_i step' hnext
    exact .inl ⟨_, step', hnext, rfl⟩
  · rename_i hnext
    refine .inr ⟨?_, rfl⟩
    cases step <;> first | rfl | cases hnext

theorem beyond_next (h : p.1.Beyond d K) : (v.posNext p pkt).1.Beyond d K := by
  obtain ⟨pos, n⟩ := p
  cases pos with
  | returned => trivial
  | talk d' rest step =>
      rcases v.posNext_talk d' rest step n pkt with ⟨count, step', hnext, heq⟩ | ⟨-, heq⟩
      · rw [heq]
        exact ⟨h.1, fun hd => (h.2 hd).next hnext⟩
      · rw [heq]
        exact TalkPos.beyond_enter h.1

/-- Who is ahead is not in an earlier stream. -/
theorem beyond_spoken (h : (v.connScript c).Spoken e p pkts q) (hp : p.1.Beyond d K) :
    q.1.Beyond d K := by
  induction h with
  | nil => exact hp
  | cons _ _ _ ih => exact ih (beyond_next hp)

/-- The receiver is ahead by one stream at most. -/
theorem beyond_of_spoken (hrole : d.role e = .receiver)
    (h : (v.connScript c).Spoken e p pkts q) (hran : ∀ j ≤ K, v.restart d j = true)
    (hq : q.1.Beyond d (K + 1)) : p.1.Beyond d K := by
  induction h with
  | nil => exact hq.mono (Nat.le_succ K)
  | @cons p pkt pkts q hspeaker _ hrest ih =>
      have hnext := ih hq
      obtain ⟨pos, n⟩ := p
      cases pos with
      | returned => cases hspeaker
      | talk d' rest step =>
          have hspeaks : d'.role e = step.speaker := (TalkPos.speaker_talk d' rest step e).mp hspeaker
          -- Where the receiver does not speak, it gets no further.
          have hstuck : ∀ {pos'}, (v.posNext (.talk d' rest step, n) pkt).1 = pos' →
              pos'.speaker ≠ some e → pos'.Beyond d (K + 1) := by
            intro pos' heq hsilent
            rw [← heq] at hsilent ⊢
            rw [← (hrest.of_silent hsilent).2] at hq
            exact hq
          rcases v.posNext_talk d' rest step n pkt with ⟨count, step', hnext', heq⟩ | ⟨hfin, heq⟩
          · have hnext₁ : (TalkPos.talk d' rest step').Beyond d K := heq ▸ hnext
            refine ⟨hnext₁.1, ?_⟩
            intro heq
            subst heq
            refine TalkStep.AtLeast.prev hnext' (hspeaks.symm.trans hrole) hran
              (fun _ => hnext₁.2 rfl) fun hsender => ?_
            refine (hstuck heq ?_).2 rfl
            rw [ne_eq, TalkPos.speaker_talk, hrole, hsender]
            nofun
          · subst hfin
            have hne : d' ≠ d := by
              intro heq
              subst heq
              cases hrole.symm.trans hspeaks
            refine ⟨?_, fun hd => absurd hd hne⟩
            cases rest with
            | nil => exact List.not_mem_nil
            | cons d₂ rest =>
                have hnext₁ : (TalkPos.enter v.iter (d₂ :: rest)).Beyond d K := heq ▸ hnext
                by_cases hd₂ : d₂ = d
                · subst hd₂
                  refine TalkPos.notMem_of_beyond_enter (hstuck heq ?_)
                  rw [TalkPos.enter, ne_eq, TalkPos.speaker_talk, hrole]
                  unfold TalkStep.handshake
                  split <;> nofun
                · rw [List.mem_cons, not_or]
                  exact ⟨Ne.symm hd₂, hnext₁.1⟩

end TestEnv

/-! ### A worker in its direction -/

namespace TalkWorker

variable {v : TestEnv} {e : Endpoint} {c : Fin v.workers} {d : Dir} {rest : List Dir}
  {w w' : TalkWorker} {sh sh' : TalkContext v.workers}

theorem toPing_ne_returned (i : Nat) : (w.toPing v e d i).pc ≠ .returned := by
  unfold toPing
  split
  · nofun
  · cases d.role e <;> nofun

theorem toRun_ne_returned (i : Nat) : (w.toRun i).pc ≠ .returned := by
  unfold toRun
  split <;> nofun

theorem measure_ne_returned : (w.measure v e c d).pc ≠ .returned := by
  unfold measure
  cases d.role e <;> nofun

theorem again_ne_returned : (w.again e d).pc ≠ .returned := by
  unfold again
  cases d.role e <;> nofun

/-- A worker returns from `process_run()` after the last FINISH. -/
theorem Local.ne_returned (h : Local v e c d w sh w' sh') (hpc : w.pc ≠ .returned) :
    w'.pc ≠ .returned := by
  cases h with
  | enter => exact hpc
  | testWeak => split <;> rintro ⟨⟩
  | testImWeak =>
      unfold TalkWorker.testImWeak
      split_ifs
      · exact again_ne_returned
      · intro heq
        cases heq
      · exact again_ne_returned
      · intro heq
        cases heq
  | testImWeakReverse =>
      split
      · exact again_ne_returned
      · intro heq
        cases heq
  | _ => exact fun heq => by cases heq

theorem proceed_ne_returned {b : BarrierId} (hb : w.pc.barrier v d = some b) (serial : Bool)
    (now : UInt64) : (w.proceed v e c d serial now).pc ≠ .returned := by
  rcases barrier_cases hb with ⟨-, hpc⟩ | ⟨-, hpc⟩ | ⟨-, hpc⟩ | ⟨-, hpc⟩
  · rcases hpc with hpc | hpc | hpc | hpc | hpc <;> simp only [proceed, hpc]
    · exact toPing_ne_returned 0
    · intro heq
      cases heq
    · cases d.role e <;> exact toRun_ne_returned 0
    · cases w.weak <;> rintro ⟨⟩
    · intro heq
      cases heq
  · rcases hpc with hpc | hpc | hpc | hpc <;> simp only [proceed, hpc] <;>
      cases serial <;> rintro ⟨⟩
  · simp only [proceed, hpc]
    split
    · intro heq
      cases heq
    · exact measure_ne_returned
  · simp only [proceed, hpc]
    exact measure_ne_returned

theorem sent_ne_returned {step : TalkStep} {count : Dir → UInt64} (hx : w.exchange = some step)
    (hstep : step ≠ .finish) : (w.sent v e c d rest count).pc ≠ .returned := by
  rcases exchange_cases hx with ⟨hpc, rfl⟩ | ⟨hpc, rfl⟩ | ⟨hpc, rfl⟩ | ⟨hpc, rfl⟩ | ⟨hpc, rfl⟩ |
    ⟨hpc, rfl⟩ | ⟨hpc, rfl⟩ | ⟨hpc, rfl⟩ <;> simp only [sent, hpc]
  case inr.inl => exact toPing_ne_returned _
  case inr.inr.inr.inr.inl => exact toRun_ne_returned _
  case inr.inr.inr.inr.inr.inr.inr => exact absurd rfl hstep
  all_goals rintro ⟨⟩

theorem heard_ne_returned {step : TalkStep} {count : Dir → UInt64} {latency : UInt32}
    {pkt : TalkPayload} (hx : w.exchange = some step) (hstep : step ≠ .finish) :
    (w.heard v e d rest count latency pkt).pc ≠ .returned := by
  rcases exchange_cases hx with ⟨hpc, rfl⟩ | ⟨hpc, rfl⟩ | ⟨hpc, rfl⟩ | ⟨hpc, rfl⟩ | ⟨hpc, rfl⟩ |
    ⟨hpc, rfl⟩ | ⟨hpc, rfl⟩ | ⟨hpc, rfl⟩ <;> simp only [heard, hpc]
  case inr.inl => split <;> exact toPing_ne_returned _
  case inr.inr.inr.inr.inl => exact toRun_ne_returned _
  case inr.inr.inr.inr.inr.inr.inr => exact absurd rfl hstep
  all_goals rintro ⟨⟩

/-- Where the next exchange of a worker is. -/
theorem At.nextStep_cases (h : w.At v e c d) (hpc : w.pc ≠ .returned) :
    (∀ K, (w.nextStep v d).AtLeast K ↔ K ≤ w.k) ∨ w.nextStep v d = .negotiate (w.k + 1) ∨
      (∀ K, (w.nextStep v d).AtLeast K) ∧ v.restart d w.k = false := by
  have hstart : w.pc.early = true → ∀ i K, (TalkStep.handshake v.iter i).AtLeast K ↔ K ≤ w.k := by
    intro hearly i K
    rw [TalkStep.atLeast_handshake, h.early hearly, Nat.le_zero]
  have hverdict : w.nextStep v d = (if v.restart d w.k then .negotiate (w.k + 1) else .report) →
      w.nextStep v d = .negotiate (w.k + 1) ∨
      (∀ K, (w.nextStep v d).AtLeast K) ∧ v.restart d w.k = false := by
    intro hstep
    rw [hstep]
    split
    · exact .inl rfl
    · rename_i hrestart
      exact .inr ⟨fun _ => trivial, Bool.of_not_eq_true hrestart⟩
  unfold nextStep at hverdict ⊢
  cases hcase : w.pc with
  | returned => exact absurd hcase hpc
  | talkInit | initWait => exact .inl (hstart (by rw [hcase]; rfl) 0)
  | ping | pong =>
      refine .inl fun K => ?_
      rw [h.early (by rw [hcase]; rfl)]
      exact Nat.le_zero.symm
  | report | finish => exact .inr (.inr ⟨fun _ => trivial, h.reports (by rw [hcase]; rfl)⟩)
  | recountWait | recount | recountSync => exact .inr (.inl rfl)
  | setWait | setLock | loadWeak | storeWeak | loadImWeak | storeImWeak | setWeakTime | setUnlock
  | returnWait | testWeak | testImWeak | testImWeakReverse =>
      rw [hcase] at hverdict
      exact .inr (hverdict rfl)
  | resetWait | resetLock | resetWeak | resetImWeak | resetWeakTime | resetUnlock | startWait =>
      exact .inl fun K => TalkStep.atLeast_stream
  | _ => exact .inl fun K => Iff.rfl

end TalkWorker

namespace TalkTest

variable {v : TestEnv} {e : Endpoint} {c : Fin v.workers} {d d' : Dir} {rest : List Dir}
  {s s' : TalkTest v.workers}

/-- A step of a test leaves a worker in its direction, or takes it to the next one. -/
theorem Step.dirs_cases (hstep : Step v s s') (e : Endpoint) (c : Fin v.workers) :
    ((s'.worker e c).dirs = (s.worker e c).dirs ∧
      ((s.worker e c).pc ≠ .returned → (s'.worker e c).pc ≠ .returned)) ∨
    ∃ d rest, (s.worker e c).dirs = d :: rest ∧ (s.worker e c).pc = .finish ∧
      s'.worker e c = (s.worker e c).nextDir rest := by
  have hother : ∀ {e' c' w sh}, ¬(e = e' ∧ c = c') →
      ((s.set e' c' w sh).worker e c).dirs = (s.worker e c).dirs ∧
        ((s.worker e c).pc ≠ .returned → ((s.set e' c' w sh).worker e c).pc ≠ .returned) := by
    intro e' c' w sh hne
    rw [worker_set_of_ne hne]
    exact ⟨rfl, id⟩
  cases hstep with
  | @loc e' c' d rest w sh hd hw hlocal =>
      refine .inl ?_
      by_cases hsame : e = e' ∧ c = c'
      · obtain ⟨rfl, rfl⟩ := hsame
        rw [worker_set_self]
        exact ⟨hlocal.frame.1, hlocal.ne_returned⟩
      · exact hother hsame
  | @leave e' c' d rest b serial now hd hw hb hall =>
      refine .inl ?_
      by_cases hsame : e = e' ∧ c = c'
      · obtain ⟨rfl, rfl⟩ := hsame
        rw [worker_set_self]
        exact ⟨(TalkWorker.proceed_keeps serial now).1,
          fun _ => TalkWorker.proceed_ne_returned hb serial now⟩
      · exact hother hsame
  | @send e' c' d rest step fill fillSize hd hx hrole =>
      by_cases hsame : e = e' ∧ c = c'
      · obtain ⟨rfl, rfl⟩ := hsame
        rw [worker_setChan, worker_set_self]
        by_cases hfin : step = .finish
        · subst hfin
          have hpc := TalkWorker.pc_eq_finish hx
          refine .inr ⟨d, rest, hd, hpc, ?_⟩
          simp only [TalkWorker.sent, hpc]
        · exact .inl ⟨(TalkWorker.sent_keeps (TalkWorker.pc_ne_finish hx hfin)).1,
            fun _ => TalkWorker.sent_ne_returned hx hfin⟩
      · rw [worker_setChan]
        exact .inl (hother hsame)
  | @recv e' c' d rest step pkt more latency hd hx hrole hchan _ =>
      by_cases hsame : e = e' ∧ c = c'
      · obtain ⟨rfl, rfl⟩ := hsame
        rw [worker_setChan, worker_set_self]
        by_cases hfin : step = .finish
        · subst hfin
          have hpc := TalkWorker.pc_eq_finish hx
          refine .inr ⟨d, rest, hd, hpc, ?_⟩
          simp only [TalkWorker.heard, hpc]
        · exact .inl ⟨(TalkWorker.heard_keeps (TalkWorker.pc_ne_finish hx hfin)).1,
            fun _ => TalkWorker.heard_ne_returned hx hfin⟩
      · rw [worker_setChan]
        exact .inl (hother hsame)

theorem Reachable.ne_returned (h : s.Reachable v) (hd : (s.worker e c).dirs = d :: rest) :
    (s.worker e c).pc ≠ .returned := by
  induction h generalizing d rest with
  | refl => nofun
  | tail _ hstep ih =>
      rcases hstep.dirs_cases e c with ⟨hdirs, hkeeps⟩ | ⟨d₁, rest₁, -, -, heq⟩
      · rw [hdirs] at hd
        exact hkeeps (ih hd)
      · rw [heq] at hd ⊢
        have hrest : rest₁ = d :: rest := hd
        subst hrest
        nofun

/-- **The sender of a connection is not far behind its receiver.** -/
theorem Reachable.sender_near (h : s.Reachable v) (hd : (s.worker e c).dirs = d :: rest)
    (hrole : d.role e = .receiver) (hk : 0 < (s.worker e c).k)
    (hin : d ∈ (s.worker e.peer c).dirs) :
    ∃ rest', (s.worker e.peer c).dirs = d :: rest' ∧
      (s.worker e c).k ≤ (s.worker e.peer c).k + 2 := by
  obtain ⟨K, hK⟩ : ∃ K, (s.worker e c).k = K + 1 := ⟨(s.worker e c).k - 1, by omega⟩
  have hat := ((h.inv.crew e).shape c).now d rest hd
  have hran := hat.ran
  rw [hK] at hran
  -- The position of the receiver, and from it that of the sender.
  have hpos : ((s.worker e c).pos v).1.Beyond d (K + 1) := by
    rw [TalkWorker.pos_eq hd]
    refine ⟨fun hmem => (((h.inv.crew e).shape c).mem_rest hd hmem).2 rfl, fun _ => ?_⟩
    rcases hat.nextStep_cases (h.ne_returned hd) with hiff | hnext | ⟨hany, -⟩
    · exact (hiff _).mpr hK.ge
    · rw [hnext, hK]
      exact Nat.le_succ _
    · exact hany _
  have hposSender : ((s.worker e.peer c).pos v).1.Beyond d K := by
    obtain ⟨t, hspoken, -⟩ := h.inv.inStep c
    rcases Endpoint.eq_or_eq_peer e t with rfl | rfl
    · exact TestEnv.beyond_of_spoken hrole hspoken (fun j hj => hran j (Nat.lt_succ_of_le hj)) hpos
    · have hspoken' : (v.connScript c).Spoken e.peer ((s.worker e c).pos v) (s.chan c e.peer)
          ((s.worker e.peer c).pos v) := by
        have heq : (v.connScript c).peer e.peer = e := Endpoint.peer_peer e
        rw [heq] at hspoken
        exact hspoken
      exact (TestEnv.beyond_spoken hspoken' hpos).mono (Nat.le_succ K)
  -- It is in the direction, so it is in stream `K` or just before it.
  obtain ⟨rest', hd'⟩ := TalkWorker.dirs_of_mem hin fun d' rest' hdirs => by
    rw [TalkWorker.pos_eq hdirs] at hposSender
    exact hposSender.1
  refine ⟨rest', hd', ?_⟩
  rw [TalkWorker.pos_eq hd'] at hposSender
  have hstep := hposSender.2 rfl
  have hat' := ((h.inv.crew e.peer).shape c).now d rest' hd'
  rcases hat'.nextStep_cases (h.ne_returned hd') with hiff | hnext | ⟨-, hlast⟩
  · have := (hiff K).mp hstep
    omega
  · rw [hnext] at hstep
    have hle : K ≤ (s.worker e.peer c).k + 1 := hstep
    omega
  · by_contra hfar
    have := hran (s.worker e.peer c).k (by omega)
    cases hlast.symm.trans this

/-- **The workers of a process are not far apart.** -/
theorem Reachable.worker_near (h : s.Reachable v) (hd : (s.worker e c).dirs = d :: rest)
    (hk : 0 < (s.worker e c).k) {c' : Fin v.workers}
    (hbarrier : v.mainBarrier d' = v.mainBarrier d) (hin : d' ∈ (s.worker e c').dirs) :
    ∃ rest', (s.worker e c').dirs = d' :: rest' ∧ (s.worker e c).k ≤ (s.worker e c').k + 1 := by
  have hcrew := h.inv.crew e
  have hat := (hcrew.shape c).now d rest hd
  have hlate : ¬(s.worker e c).pc.mainSeg ≤ 2 := by
    intro hearly
    have := hat.early (decide_eq_true hearly)
    omega
  have hsingle : v.single e d' = v.single e d := by
    unfold TestEnv.single TestEnv.mainBarrier at *
    cases ha : v.asynchronous with
    | true => rfl
    | false =>
        simp only [ha, Bool.false_eq_true, if_false, BarrierId.dir.injEq] at hbarrier
        rw [hbarrier]
  have hpos : 0 < (s.worker e c).passed (v.mainBarrier d) := by
    rw [hat.main]
    unfold WorkerPc.mainPassed
    cases v.single e d <;> dsimp only <;> rw [if_neg hlate] <;> omega
  obtain ⟨rest', hd'⟩ := TalkWorker.dirs_of_mem hin fun _ _ =>
    hcrew.not_later (hbarrier.symm ▸ hpos)
  refine ⟨rest', hd', ?_⟩
  have hat' := (hcrew.shape c').now d' rest' hd'
  have hle := hcrew.meets (v.mainBarrier d) c c' (TestEnv.joins_main d c) (TestEnv.joins_main d c')
  have hone : ((s.worker e c').waitsAt v (v.mainBarrier d)).toNat ≤ 1 := Bool.toNat_le _
  have hseg := (s.worker e c').pc.mainSeg_le
  dsimp only [entered] at hle
  rw [← hbarrier, hat'.main, hbarrier, hat.main, hsingle] at hle
  unfold WorkerPc.mainPassed at hle
  cases hs : v.single e d <;> simp only [hs] at hle <;> rw [if_neg hlate] at hle <;>
    split at hle <;> omega

end TalkTest

/-! ### The bound -/

namespace TestEnv

variable {v : TestEnv} {cfg : Config} {env : Env} {d d' : Dir} {k n : Nat}

/-- The directions that are started again together with `d`. -/
def together (v : TestEnv) (d : Dir) : Finset Dir :=
  if v.asynchronous then {.straight, .reverse} else {d}

theorem mem_together : d' ∈ v.together d ↔ v.asynchronous = true ∨ d' = d := by
  unfold together
  cases v.asynchronous <;> cases d' <;> simp

theorem card_together : (v.together d).card = 2 ∨ (v.together d).card = 1 := by
  unfold together
  split
  · exact .inl rfl
  · exact .inr (Finset.card_singleton d)

theorem together_congr (h : d' ∈ v.together d) : v.together d' = v.together d := by
  rcases mem_together.mp h with ha | rfl
  · rw [together, together, ha, if_pos rfl, if_pos rfl]
  · rfl

/-- After a restart there is a direction to recount. -/
theorem exists_needsRecount (h : v.restart d k = true) :
    ∃ d' ∈ v.together d, v.needsRecount d' k = true := by
  rw [restart_eq] at h
  cases ha : v.asynchronous with
  | true =>
      rw [ha, if_pos rfl, Bool.or_eq_true] at h
      rcases h with h | h
      · exact ⟨.straight, mem_together.mpr (.inl ha), h⟩
      · exact ⟨.reverse, mem_together.mpr (.inl ha), h⟩
  | false =>
      rw [ha, if_neg Bool.false_ne_true] at h
      exact ⟨d, mem_together.mpr (.inr rfl), h⟩

/-- **Each restart adds to the counts of the directions that go together**, so their limits bound
the number of restarts. -/
theorem restarts_le (hv : v.Configured cfg) (hopt : OptInv env cfg)
    (weakTime : Dir → Nat → UInt64) (hran : ∀ j < n, v.restart d j = true)
    (hbound : ∀ d' ∈ v.together d,
      v.streamCount cfg (weakTime d') d' n ≤ configTalkCountMax.toNat) :
    n + 100 ≤ 2 * configTalkCountMax.toNat := by
  have hstart := hv.start hopt
  have hrounds := rounds_le (s := v.together d)
    (f := fun d' => v.streamCount cfg (weakTime d') d') (n := n)
    (fun d' _ k => streamCount_le_succ (weakTime d') d' k) ?_
    (fun d' _ => hstart.ge) hbound
  · rcases v.card_together (d := d) with hcard | hcard <;> rw [hcard] at hrounds <;> omega
  · intro k hk
    obtain ⟨d', hd', hneeds⟩ := exists_needsRecount (hran k hk)
    refine ⟨d', hd', ?_⟩
    exact (streamCount_lt_succ_iff hv hopt (weakTime d') d' k).mpr hneeds

end TestEnv

namespace TalkTest

variable {v : TestEnv} {cfg : Config} {env : Env} {election : v.Election} {e : Endpoint}
  {c : Fin v.workers} {d d' : Dir} {rest : List Dir} {s s' : TalkTest v.workers}

/-- Nobody is through with a direction that goes together with `d`. -/
def AllIn (d : Dir) (s : TalkTest v.workers) : Prop :=
  ∀ e c, ∀ d' ∈ v.together d, d' ∈ v.dirs c → d' ∈ (s.worker e c).dirs

/-- Then each of these directions has a sender that is not far behind. -/
theorem Reachable.exists_sender (h : s.Reachable v) (hin : s.AllIn d)
    (hd : (s.worker e c).dirs = d :: rest) (hk : 1 < (s.worker e c).k) (hd' : d' ∈ v.together d) :
    ∃ e' c' rest', d'.role e' = .sender ∧ (s.worker e' c').dirs = d' :: rest' ∧
      (s.worker e c).k ≤ (s.worker e' c').k + 3 := by
  have hmem := ((h.inv.crew e).shape c).mem hd
  rw [TestEnv.mem_together] at hd'
  have hbarrier : v.mainBarrier d' = v.mainBarrier d := by
    rcases hd' with ha | rfl
    · simp [TestEnv.mainBarrier, ha]
    · rfl
  obtain ⟨c', hc'⟩ : ∃ c', d' ∈ v.dirs c' := by
    rcases hd' with ha | rfl
    · exact TestEnv.exists_dir ha d'
    · exact ⟨c, hmem⟩
  have htogether : d' ∈ v.together d := TestEnv.mem_together.mpr hd'
  obtain ⟨rest', hdirs, hnear⟩ :=
    h.worker_near hd (by omega) hbarrier (hin e c' d' htogether hc')
  cases hrole : d'.role e with
  | sender => exact ⟨e, c', rest', hrole, hdirs, by omega⟩
  | receiver =>
      obtain ⟨rest'', hdirs', hnear'⟩ :=
        h.sender_near hdirs hrole (by omega) (hin e.peer c' d' htogether hc')
      refine ⟨e.peer, c', rest'', ?_, hdirs', by omega⟩
      cases d' <;> cases e <;> first | rfl | cases hrole

/-- No stream has a number beyond the bound. -/
theorem Reaches.stream_le_of_allIn (hv : v.Configured cfg) (hopt : OptInv env cfg)
    (h : s.Reaches cfg election) (hin : s.AllIn d) (hd : (s.worker e c).dirs = d :: rest) :
    (s.worker e c).k ≤ 2 * configTalkCountMax.toNat := by
  have hmax : configTalkCountMax.toNat = 1000000000 := rfl
  have hstart := hv.start hopt
  by_cases hk : 1 < (s.worker e c).k
  · have hreachable := h.reachable
    have hcount : ∀ d', ∃ weakTime, d' ∈ v.together d →
        v.streamCount cfg weakTime d' ((s.worker e c).k - 3) ≤ configTalkCountMax.toNat := by
      intro d'
      by_cases hd' : d' ∈ v.together d
      · obtain ⟨e', c', rest', hrole, hdirs, hnear⟩ := hreachable.exists_sender hin hd hk hd'
        have hmem := ((hreachable.inv.crew e').shape c').mem hdirs
        obtain ⟨weakTime, done, hcounted⟩ := h.counted hv hopt hrole ⟨c', hmem⟩
        refine ⟨weakTime, fun _ => ?_⟩
        refine Nat.le_trans (monotone_nat_of_le_succ (TestEnv.streamCount_le_succ weakTime d')
          (show (s.worker e c).k - 3 ≤ (s.worker e' c').k by omega)) ?_
        cases hearly : (s.worker e' c').pc.early with
        | false => exact hcounted.asserted c' rest' hdirs hearly
        | true =>
            have hat := ((hreachable.inv.crew e').shape c').now d' rest' hdirs
            rw [hat.early hearly, TestEnv.streamCount]
            omega
      · exact ⟨fun _ => 0, fun hmem => absurd hmem hd'⟩
    choose weakTime hle using hcount
    have hat := ((hreachable.inv.crew e).shape c).now d rest hd
    have hrestarts := TestEnv.restarts_le hv hopt weakTime
      (n := (s.worker e c).k - 3) (fun j hj => hat.ran j (by omega)) hle
    omega
  · omega

/-- As long as the verdicts are another stream, nobody is through. -/
theorem Reaches.allIn (hv : v.Configured cfg) (hopt : OptInv env cfg)
    (hagain : ∀ k ≤ 2 * configTalkCountMax.toNat, v.restart d k = true)
    (h : s.Reaches cfg election) : s.AllIn d := by
  induction h with
  | refl => exact fun _ _ _ _ hmem => hmem
  | @tail s s' hreaches hadvance ih =>
      intro e c d' hd' hmem
      have hin := ih e c d' hd' hmem
      rcases hadvance.step.dirs_cases e c with ⟨hdirs, -⟩ | ⟨d₁, rest, hdirs, hpc, heq⟩
      · rw [hdirs]
        exact hin
      · rw [heq]
        show d' ∈ rest
        rw [hdirs] at hin
        refine (List.mem_cons.mp hin).resolve_left ?_
        intro heq
        subst heq
        have hle : (s.worker e c).k ≤ 2 * configTalkCountMax.toNat := by
          refine Reaches.stream_le_of_allIn hv hopt hreaches ?_ hdirs
          rw [AllIn, TestEnv.together_congr hd']
          exact ih
        have hlast := (((Reaches.reachable hreaches).inv.crew e).shape c).now d' rest hdirs |>.reports
          (by rw [hpc]; rfl)
        rw [restart_congr (TestEnv.mem_together.mp hd'), hagain _ hle] at hlast
        cases hlast

/-- **The number of streams is bounded.** -/
theorem Reaches.stream_le (hv : v.Configured cfg) (hopt : OptInv env cfg)
    (h : s.Reaches cfg election) (hd : (s.worker e c).dirs = d :: rest) :
    (s.worker e c).k ≤ 2 * configTalkCountMax.toNat := by
  by_cases hagain : ∀ k ≤ 2 * configTalkCountMax.toNat, v.restart d k = true
  · exact h.stream_le_of_allIn hv hopt (h.allIn hv hopt hagain) hd
  · obtain ⟨K, hK⟩ := not_forall.mp hagain
    obtain ⟨hle, hlast⟩ := Classical.not_imp.mp hK
    have hran := (((h.reachable.inv.crew e).shape c).now d rest hd).ran
    by_contra hfar
    exact hlast (hran K (by omega))

end TalkTest

/-! ### The end of the restarts -/

namespace TestEnv

variable {v : TestEnv} {d : Dir} {k : Nat}

/-- The first stream without a restart is the last one. -/
theorem exists_final (h : ¬v.restart d k = true) : ∃ K ≤ k, v.Final d K := by
  have hex : ∃ K, ¬v.restart d K = true := ⟨k, h⟩
  refine ⟨Nat.find hex, Nat.find_min' hex h, ?_, Bool.of_not_eq_true (Nat.find_spec hex)⟩
  exact fun j hj => not_not.mp (Nat.find_min hex hj)

/-- A direction whose workers were all weak is a tested one. -/
theorem exists_dir_of_needsRecount (h : v.needsRecount d k = true) : ∃ c, d ∈ v.dirs c := by
  by_contra hnone
  rw [not_exists] at hnone
  have hzero : v.flagged d k = 0 := tally_eq_zero.mpr fun c => by simp [hnone c]
  have hpos := v.workers_pos
  rw [needsRecount, decide_eq_true_eq, hzero, dirWorkers] at h
  cases ha : v.asynchronous with
  | true =>
      have := v.half ha
      rw [ha, if_pos rfl] at h
      omega
  | false =>
      rw [ha, if_neg Bool.false_ne_true] at h
      omega

/-- Nothing is sent again while no stream is too short. -/
theorem restart_of_long (hlong : ∀ c d k, v.weak c d k = false) (d : Dir) (k : Nat) :
    v.restart d k = false := by
  by_contra hrestart
  obtain ⟨d', -, hneeds⟩ := exists_needsRecount (Bool.of_not_eq_false hrestart)
  obtain ⟨c, hc⟩ := exists_dir_of_needsRecount hneeds
  cases ((needsRecount_iff ⟨c, hc⟩).mp hneeds c hc).symm.trans (hlong c d' k)

theorem Final.eq_zero_of_long {d : Dir} {K : Nat} (hK : v.Final d K)
    (hlong : ∀ c d k, v.weak c d k = false) : K = 0 := by
  by_contra hne
  cases (hK.1 0 (by omega)).symm.trans (restart_of_long hlong d 0)

end TestEnv

/-- In a stream, from its negotiation to the recount after it. -/
def TalkWorker.InStream (w : TalkWorker) : Prop := w.pc.early = false ∧ w.pc.turn = .out

theorem Counted.toNat_count {v : TestEnv} {cfg : Config} {election : v.Election} {e : Endpoint}
    {d : Dir} {weakTime : Nat → UInt64} {ws : Fin v.workers → TalkWorker}
    {sh : TalkContext v.workers} {done : Nat} {c : Fin v.workers} {rest : List Dir}
    (h : Counted v cfg election e d weakTime ws sh done) (hd : (ws c).dirs = d :: rest)
    (hin : (ws c).InStream) : done = (ws c).k + 1 ∧
      (sh.count d).toNat = v.streamCount cfg weakTime d (ws c).k := by
  have hdone : done = (ws c).k + 1 := by
    have hround := (Stand.sees_out (p := (ws c).stand v d) hin.2).mp (h.sees c rest hd)
    rw [hround, TalkWorker.stand, WorkerPc.round, hin.1, if_neg Bool.false_ne_true]
  exact ⟨hdone, h.count _ hdone⟩

/-- What the restarts of a test do, in all its runs. -/
structure RestartsEnd {v : TestEnv} (cfg : Config) (election : v.Election) : Prop where
  /-- Whoever is in a stream is there after a restart of each stream before it, and of few. -/
  bounded : ∀ s : TalkTest v.workers, s.Reaches cfg election → ∀ e c d rest,
    (s.worker e c).dirs = d :: rest →
      (s.worker e c).k ≤ 2 * configTalkCountMax.toNat ∧
        ∀ j < (s.worker e c).k, v.restart d j = true
  /-- There is a last stream, or a count that is too large for another one. -/
  stops : ∀ d, (∃ K ≤ 2 * configTalkCountMax.toNat, v.Final d K) ∨
    ∀ weakTime : Dir → Nat → UInt64, ∃ d' ∈ v.together d, ∃ K ≤ 2 * configTalkCountMax.toNat,
      configTalkCountMax.toNat < v.streamCount cfg (weakTime d') d' K
  /-- A restart is one of a direction whose workers were all weak. -/
  cause : ∀ d k, v.restart d k = true → ∃ d' ∈ v.together d, (∃ c, d' ∈ v.dirs c) ∧
    ∀ c, d' ∈ v.dirs c → v.weak c d' k = true
  /-- The count of a stream is the one that follows from the restarts before it. -/
  counts : ∀ s : TalkTest v.workers, s.Reaches cfg election → ∀ e c d rest,
    d.role e = .sender → (s.worker e c).dirs = d :: rest → (s.worker e c).InStream →
      ((s.shared e).count d).toNat ≤ configTalkCountMax.toNat ∧ ∃ weakTime,
        ((s.shared e).count d).toNat = v.streamCount cfg weakTime d (s.worker e c).k
  /-- From stream to stream no count gets smaller, and it grows exactly after those in which the
  workers of its direction were all weak. -/
  grows : ∀ s s' : TalkTest v.workers, s.Reaches cfg election →
    Relation.ReflTransGen (TalkTest.Advance cfg election) s s' → ∀ e c c' d rest rest',
      d.role e = .sender → (s.worker e c).dirs = d :: rest → (s.worker e c).InStream →
      (s'.worker e c').dirs = d :: rest' → (s'.worker e c').InStream →
        (s.shared e).count d ≤ (s'.shared e).count d ∧
        ((s.shared e).count d < (s'.shared e).count d ↔
          ∃ j, (s.worker e c).k ≤ j ∧ j < (s'.worker e c').k ∧
            ∀ i, d ∈ v.dirs i → v.weak i d j = true)

/-- **The restart loop ends**, for every accepted command line, all durations of the streams of all
workers of both endpoints, every interleaving and every choice of the elected threads. -/
theorem restarts_end {env : Env} {args : List CString} {cfg : Config}
    (h : configInit env args = .ok cfg) {v : TestEnv} (hv : v.Configured cfg)
    (election : v.Election) : RestartsEnd cfg election := by
  have hopt := configInit_optInv h
  exact {
    bounded := by
      intro s hs e c d rest hd
      exact ⟨hs.stream_le hv hopt hd, (((hs.reachable.inv.crew e).shape c).now d rest hd).ran⟩
    stops := by
      intro d
      by_cases hagain : ∀ k ≤ 2 * configTalkCountMax.toNat, v.restart d k = true
      · refine .inr fun weakTime => ?_
        by_contra hsmall
        have hle := TestEnv.restarts_le hv hopt weakTime (fun k hk => hagain k (Nat.le_of_lt hk))
          fun d' hd' => Nat.not_lt.mp fun hlt => hsmall ⟨d', hd', _, Nat.le_refl _, hlt⟩
        omega
      · obtain ⟨k, hk⟩ := not_forall.mp hagain
        obtain ⟨hle, hlast⟩ := Classical.not_imp.mp hk
        obtain ⟨K, hK, hfinal⟩ := TestEnv.exists_final hlast
        exact .inl ⟨K, hK.trans hle, hfinal⟩
    cause := by
      intro d k hrestart
      obtain ⟨d', hd', hneeds⟩ := TestEnv.exists_needsRecount hrestart
      have htested := TestEnv.exists_dir_of_needsRecount hneeds
      exact ⟨d', hd', htested, (TestEnv.needsRecount_iff htested).mp hneeds⟩
    counts := by
      intro s hs e c d rest hrole hd hin
      have hmem := ((hs.reachable.inv.crew e).shape c).mem hd
      obtain ⟨weakTime, done, hcounted⟩ := hs.counted hv hopt hrole ⟨c, hmem⟩
      have hcount := (hcounted.toNat_count hd hin).2
      refine ⟨?_, weakTime, hcount⟩
      rw [hcount]
      exact hcounted.asserted c rest hd hin.1
    grows := by
      intro s s' hs hrun e c c' d rest rest' hrole hd hin hd' hin'
      have htested : ∃ c, d ∈ v.dirs c := ⟨c, ((hs.reachable.inv.crew e).shape c).mem hd⟩
      obtain ⟨weakTime, done, hcounted⟩ := hs.counted hv hopt hrole htested
      obtain ⟨-, weakTime', done', hext, hcounted'⟩ :=
        TalkTest.counted_run hv hopt hs.reachable.inv hrole htested hcounted hrun
      obtain ⟨hdone, hcount⟩ := hcounted.toNat_count hd hin
      obtain ⟨hdone', hcount'⟩ := hcounted'.toNat_count hd' hin'
      have hle : (s.worker e c).k ≤ (s'.worker e c').k := by
        have := hext.le
        omega
      rw [← hext.streamCount_eq (by omega)] at hcount
      rw [UInt64.le_iff_toNat_le, UInt64.lt_iff_toNat_lt, hcount, hcount']
      have hmono : ∀ k, v.streamCount cfg weakTime' d k ≤ v.streamCount cfg weakTime' d (k + 1) :=
        TestEnv.streamCount_le_succ weakTime' d
      refine ⟨monotone_nat_of_le_succ hmono hle, ?_⟩
      rw [lt_iff_exists_growth hmono hle]
      simp only [TestEnv.streamCount_lt_succ_iff hv hopt, TestEnv.needsRecount_iff htested] }

/-- Two connections in asynchronous mode, with the configuration of the command line below. -/
def envBothWays : TestEnv :=
  { envShortFirst with iter := 20, countCurrent := 100 }

theorem zero_lt_envBothWays : 0 < envBothWays.workers := Nat.two_pos

theorem one_lt_envBothWays : 1 < envBothWays.workers := Nat.one_lt_two

/-- The worker of a direction. -/
def callerBothWays : Dir → Fin envBothWays.workers
  | .straight => ⟨0, zero_lt_envBothWays⟩
  | .reverse => ⟨1, one_lt_envBothWays⟩

theorem joins_callerBothWays (d : Dir) : envBothWays.Joins (.dir d) (callerBothWays d) := by
  cases d <;> exact fun _ => rfl

def electionBothWays : envBothWays.Election where
  caller := fun _ d _ => callerBothWays d
  joins := fun _ d _ => joins_callerBothWays d

/-- `ubwt -A -W 2 connector 10.0.0.1`. -/
theorem restarts_end_bothWays :
    ∃ cfg, configInit ⟨false, false, fun _ _ => false⟩
        ["-A".toList, "-W".toList, "2".toList, "connector".toList, "10.0.0.1".toList] = .ok cfg
      ∧ envBothWays.Configured cfg ∧ RestartsEnd cfg electionBothWays := by
  obtain ⟨cfg, hcfg, hv⟩ : ∃ cfg, configInit ⟨false, false, fun _ _ => false⟩
        ["-A".toList, "-W".toList, "2".toList, "connector".toList, "10.0.0.1".toList] = .ok cfg
      ∧ envBothWays.Configured cfg := ⟨_, rfl, rfl, rfl, rfl, rfl, rfl, rfl, rfl⟩
  exact ⟨cfg, hcfg, hv, restarts_end hcfg hv electionBothWays⟩

end Ubwt
