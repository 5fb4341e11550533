import Mathlib.Data.List.Forall2
import Ubwt.Lib.Clocks
import Ubwt.Talk.Latency
import Ubwt.Talk.Pair

/-!
# Ubwt.Talk.ReverseDelay

The two directions of a bidirectional, synchronous test and the time between them: `process_run`
at both ends of a connection, with what each exchange takes.

Between the directions the listener sleeps, whichever of the two it has to send in. If the straight
direction is first, it is the listener that starts the second one, and its sleep is over when it
does. **If the reverse direction is first, the connector starts it**, at once: its first PING waits
for the listener to wake up, and the time it waits is a part of the round trip.

What the round trips do depend on is `delayIndependent_iff`.
-/

namespace Ubwt

open Lib

/-! ### Both endpoints -/

/-- The settings of a test, and what its exchanges take, in microseconds. What a worker waits for
at a barrier is a part of the time until it is ready: all workers of a process sleep alike. -/
structure TimedEnv where
  iter : UInt16
  iter_pos : 0 < iter.toNat
  /-- `talk_handshake_interval`, in milliseconds. -/
  interval : UInt16
  reverseFirst : Bool
  /-- The packets of a stream, and whether another one follows. -/
  count : Dir → Nat → UInt32
  restart : Dir → Nat → Bool
  /-- When `talk_init()` is done. -/
  connected : Endpoint → Nat
  times : Dir → TalkStep → Times Endpoint

/-- `_talk_sender_handshake()` goes from its `_talk_send()` straight to its `_talk_recv()`. -/
def TimedEnv.exchange (v : TimedEnv) (d : Dir) (step : TalkStep) : Times Endpoint :=
  match step with
  | .pong i =>
      { v.times d (.pong i) with
        ready := Function.update (v.times d (.pong i)).ready d.sender 0 }
  | step => v.times d step

/-- The readings of a handshake. -/
structure Handshake where
  start : Nat
  stop : Nat
  deriving Repr, DecidableEq

/-- The time between the readings. -/
def Handshake.us (h : Handshake) : Nat := h.stop - h.start

/-- What `_talk_sender_handshake()` returns. -/
def Handshake.ret (h : Handshake) : Int64 :=
  talkSenderHandshake ⟨UInt64.ofNat h.start, UInt64.ofNat h.stop⟩

/-- Both endpoints. -/
structure TimedTalk where
  pos : TalkPos
  /-- When each is done with its last exchange. -/
  clock : Endpoint → Nat
  /-- The first reading of the handshake that is under way. -/
  started : Nat
  /-- The handshakes that were measured. -/
  handshakes : Dir → List Handshake
  /-- When the listener went to sleep, and when it woke up. -/
  slept : Option (Nat × Nat)
  /-- A handshake has returned less than zero. -/
  failed : Bool

namespace TimedTalk

variable (s : TimedTalk)

/-- The handshake loop, after a handshake: `usleep(talk_handshake_interval * 1000)`. -/
def measured (d : Dir) (interval : UInt16) : TimedTalk :=
  let h : Handshake := ⟨s.started, s.clock d.sender⟩
  { s with
    clock := Function.update s.clock d.sender (s.clock d.sender + interval.toNat * 1000)
    handshakes := Function.update s.handshakes d (s.handshakes d ++ [h])
    failed := decide (h.ret.toInt32 < 0) }

/-- `sleep(process_reverse_delay)`, of the listener. -/
def sleeping (delay : UInt16) : TimedTalk :=
  let wake := s.clock .listener + delay.toNat * 1000000
  { s with
    clock := Function.update s.clock .listener wake
    slept := some (s.clock .listener, wake) }

/-- What `report_talk_latency_set()` gets in a direction, once its handshakes are over. -/
def reported (iter : UInt16) (d : Dir) : Option UInt32 :=
  if (s.handshakes d).length = iter.toNat then
    (talkSenderLatency iter (((s.handshakes d).map Handshake.ret).getD · 0) .zero).map
      ReportCollect.talkLatencyUs
  else none

/-- The sleep is not a part of a handshake. -/
def SleepOutside : Prop :=
  ∀ asleep awake, s.slept = some (asleep, awake) →
    ∀ d, ∀ h ∈ s.handshakes d, h.stop ≤ asleep ∨ awake ≤ h.start

end TimedTalk

/-- The endpoint that speaks at an exchange. -/
def Dir.speaker (d : Dir) (step : TalkStep) : Endpoint :=
  match step.speaker with
  | .sender => d.sender
  | .receiver => d.receiver

namespace TimedEnv

variable (v : TimedEnv) (delay : UInt16)

/-- One exchange. -/
def exchanged (s : TimedTalk) (d : Dir) (step : TalkStep) : TimedTalk :=
  { s with
    pos := s.pos.next v.iter v.count v.restart
    clock := (v.exchange d step).after s.clock (d.speaker step) }

/-- One exchange, with what both endpoints do before and after it. -/
def next (s : TimedTalk) : TimedTalk :=
  if s.failed then s else
  match s.pos with
  | .returned => s
  | .talk d rest step =>
      match step, rest with
      | .ping i, _ =>
          { v.exchanged s d (.ping i) with
            started := (v.exchange d (.ping i)).start s.clock d.sender }
      | .pong i, _ => (v.exchanged s d (.pong i)).measured d v.interval
      | .finish, _ :: _ => (v.exchanged s d .finish).sleeping delay
      | step, _ => v.exchanged s d step

/-- Before the first exchange. -/
def init : TimedTalk where
  pos := .enter v.iter (processRun v.reverseFirst true false)
  clock := v.connected
  started := 0
  handshakes := fun _ => []
  slept := none
  failed := false

/-- After `n` exchanges. -/
def run : Nat → TimedTalk
  | 0 => v.init
  | n + 1 => v.next delay (run n)

/-- The directions. -/
def firstDir : Dir := if v.reverseFirst then .reverse else .straight

def secondDir : Dir := if v.reverseFirst then .straight else .reverse

/-- Nobody is late for the first handshake of the second direction: the listener is awake when it
starts, and the receiver is there when the PING arrives. -/
structure OnTime (s : TimedTalk) : Prop where
  awake : s.clock .listener
    ≤ (v.exchange v.secondDir (.ping 0)).start s.clock v.secondDir.sender
  waits : (v.exchange v.secondDir (.ping 0)).Waits s.clock v.secondDir.sender
    v.secondDir.receiver

/-- Whenever the second direction is about to start, nobody is late. -/
def InTime : Prop :=
  ∀ n, (v.run delay n).pos = .talk v.secondDir [] (.ping 0) → v.OnTime (v.run delay n)

/-- Two runs that differ only in their delays measure the same round trips, report the same
latencies, and measure no sleep. -/
structure DelayIndependent (delay delay' : UInt16) : Prop where
  trips : ∀ n d, ((v.run delay n).handshakes d).map Handshake.us
    = ((v.run delay' n).handshakes d).map Handshake.us
  latency : ∀ n d, (v.run delay n).reported v.iter d = (v.run delay' n).reported v.iter d
  outside : ∀ n, (v.run delay n).SleepOutside ∧ (v.run delay' n).SleepOutside

end TimedEnv

/-! ### What is measured -/

/-- A handshake that took place later, by as much at its end as at its start. -/
def Handshake.Later (h h' : Handshake) : Prop := ∃ k, h' = ⟨h.start + k, h.stop + k⟩

theorem Handshake.Later.refl (h : Handshake) : h.Later h := ⟨0, rfl⟩

theorem Handshake.Later.us {h h' : Handshake} (hl : h.Later h') : h'.us = h.us := by
  obtain ⟨k, rfl⟩ := hl
  exact Nat.add_sub_add_right ..

/-- The difference of the readings does not tell when they were made. -/
theorem Handshake.Later.ret {h h' : Handshake} (hl : h.Later h') : h'.ret = h.ret := by
  obtain ⟨k, rfl⟩ := hl
  have hdiff : UInt64.ofNat (h.stop + k) - UInt64.ofNat (h.start + k)
      = UInt64.ofNat h.stop - UInt64.ofNat h.start := by
    rw [← UInt64.toNat_inj]
    simp only [UInt64.toNat_sub, UInt64.toNat_ofNat']
    omega
  rw [Handshake.ret, talkSenderHandshake, hdiff]
  rfl

/-- What does not tell two handshakes apart does not tell two lists of them apart. -/
theorem map_eq_of_later {β : Type} {f : Handshake → β} {hs hs' : List Handshake}
    (hf : ∀ {h h'}, h.Later h' → f h' = f h) (hlater : List.Forall₂ Handshake.Later hs hs') :
    hs.map f = hs'.map f := by
  induction hlater with
  | nil => rfl
  | cons h _ ih => rw [List.map_cons, List.map_cons, hf h, ih]

namespace TimedTalk

variable (s : TimedTalk) (d : Dir) (interval delay : UInt16)

@[simp] theorem measured_pos : (s.measured d interval).pos = s.pos := rfl

@[simp] theorem measured_clock : (s.measured d interval).clock
    = Function.update s.clock d.sender (s.clock d.sender + interval.toNat * 1000) := rfl

@[simp] theorem measured_started : (s.measured d interval).started = s.started := rfl

@[simp] theorem measured_handshakes : (s.measured d interval).handshakes
    = Function.update s.handshakes d (s.handshakes d ++ [⟨s.started, s.clock d.sender⟩]) := rfl

@[simp] theorem measured_slept : (s.measured d interval).slept = s.slept := rfl

@[simp] theorem measured_failed : (s.measured d interval).failed
    = decide ((Handshake.ret ⟨s.started, s.clock d.sender⟩).toInt32 < 0) := rfl

@[simp] theorem sleeping_pos : (s.sleeping delay).pos = s.pos := rfl

@[simp] theorem sleeping_clock : (s.sleeping delay).clock
    = Function.update s.clock .listener (s.clock .listener + delay.toNat * 1000000) := rfl

@[simp] theorem sleeping_handshakes : (s.sleeping delay).handshakes = s.handshakes := rfl

@[simp] theorem sleeping_slept : (s.sleeping delay).slept
    = some (s.clock .listener, s.clock .listener + delay.toNat * 1000000) := rfl

@[simp] theorem sleeping_failed : (s.sleeping delay).failed = s.failed := rfl

end TimedTalk

/-- The same state, later by `k`. -/
structure Shifted (k : Nat) (s s' : TimedTalk) : Prop where
  pos : s'.pos = s.pos
  clock : ∀ e, s'.clock e = s.clock e + k
  started : s'.started = s.started + k
  failed : s'.failed = s.failed
  handshakes : ∀ d, List.Forall₂ Handshake.Later (s.handshakes d) (s'.handshakes d)

variable {v : TimedEnv} {delay delay' : UInt16} {s s' : TimedTalk} {k : Nat} {d : Dir}

theorem forall₂_later_refl (hs : List Handshake) : List.Forall₂ Handshake.Later hs hs :=
  List.forall₂_same.mpr fun h _ => .refl h

/-- One more handshake, that was later. -/
theorem Shifted.measured (h : Shifted k s s') (d : Dir) (interval : UInt16) :
    Shifted k (s.measured d interval) (s'.measured d interval) := by
  have hlater : Handshake.Later ⟨s.started, s.clock d.sender⟩ ⟨s'.started, s'.clock d.sender⟩ :=
    ⟨k, by rw [h.started, h.clock]⟩
  refine ⟨h.pos, ?_, h.started, ?_, ?_⟩
  · intro e
    by_cases he : e = d.sender
    · subst he
      simp only [TimedTalk.measured_clock, Function.update_self, h.clock]
      omega
    · simp only [TimedTalk.measured_clock, Function.update_of_ne he, h.clock]
  · simp only [TimedTalk.measured_failed, hlater.ret]
  · intro d'
    by_cases hd : d' = d
    · subst hd
      simp only [TimedTalk.measured_handshakes, Function.update_self]
      exact List.rel_append (h.handshakes d') (.cons hlater .nil)
    · simp only [TimedTalk.measured_handshakes, Function.update_of_ne hd, h.handshakes]

/-! ### One exchange -/

namespace TimedEnv

variable {rest : List Dir} {step : TalkStep} {i : Nat}

theorem next_failed (hfailed : s.failed = true) : v.next delay s = s := if_pos hfailed

theorem next_returned (hpos : s.pos = .returned) : v.next delay s = s := by
  unfold next
  rw [hpos]
  split <;> rfl

theorem next_ping (hfailed : s.failed = false) (hpos : s.pos = .talk d rest (.ping i)) :
    v.next delay s = { v.exchanged s d (.ping i) with
      started := (v.exchange d (.ping i)).start s.clock d.sender } := by
  unfold next
  rw [hfailed, hpos]
  rfl

theorem next_pong (hfailed : s.failed = false) (hpos : s.pos = .talk d rest (.pong i)) :
    v.next delay s = (v.exchanged s d (.pong i)).measured d v.interval := by
  unfold next
  rw [hfailed, hpos]
  rfl

theorem next_finish {d' : Dir} (hfailed : s.failed = false)
    (hpos : s.pos = .talk d (d' :: rest) .finish) :
    v.next delay s = (v.exchanged s d .finish).sleeping delay := by
  unfold next
  rw [hfailed, hpos]
  rfl

/-- An exchange outside of a handshake, and not the last one before the sleep. -/
theorem next_quiet (hfailed : s.failed = false) (hpos : s.pos = .talk d rest step)
    (hping : ∀ i, step ≠ .ping i) (hpong : ∀ i, step ≠ .pong i)
    (hfinish : step = .finish → rest = []) : v.next delay s = v.exchanged s d step := by
  unfold next
  rw [hfailed, hpos]
  cases step with
  | ping i => exact absurd rfl (hping i)
  | pong i => exact absurd rfl (hpong i)
  | finish =>
      obtain rfl := hfinish rfl
      rfl
  | negotiate | streamStart | streamRun | streamEnd | report => rfl

end TimedEnv

theorem Shifted.exchanged (h : Shifted k s s') (d : Dir) (step : TalkStep) :
    Shifted k (v.exchanged s d step) (v.exchanged s' d step) where
  pos := congrArg (TalkPos.next v.iter v.count v.restart) h.pos
  clock := fun _ => Times.after_add h.clock
  started := h.started
  failed := h.failed
  handshakes := h.handshakes

/-- There is no direction after this one. -/
def TalkPos.Last (pos : TalkPos) : Prop := ∀ d rest step, pos = .talk d rest step → rest = []

/-- What relates two states at one exchange of the last direction still does after it, if it does
after each kind of exchange. -/
theorem TimedEnv.next_last (delay delay' : UInt16) {R : TimedTalk → TimedTalk → Prop}
    (hlast : s.pos.Last) (hpos : s'.pos = s.pos) (hfailed : s'.failed = s.failed) (hstay : R s s')
    (hping : ∀ d i,
      R { v.exchanged s d (.ping i) with
          started := (v.exchange d (.ping i)).start s.clock d.sender }
        { v.exchanged s' d (.ping i) with
          started := (v.exchange d (.ping i)).start s'.clock d.sender })
    (hpong : ∀ d i,
      R ((v.exchanged s d (.pong i)).measured d v.interval)
        ((v.exchanged s' d (.pong i)).measured d v.interval))
    (hquiet : ∀ d step, R (v.exchanged s d step) (v.exchanged s' d step)) :
    R (v.next delay s) (v.next delay' s') := by
  cases hfail : s.failed with
  | true =>
      rw [next_failed hfail, next_failed (hfailed.trans hfail)]
      exact hstay
  | false =>
      have hfail' := hfailed.trans hfail
      cases hp : s.pos with
      | returned =>
          rw [next_returned hp, next_returned (hpos.trans hp)]
          exact hstay
      | talk d rest step =>
          obtain rfl := hlast d rest step hp
          have hp' := hpos.trans hp
          cases step with
          | ping i =>
              rw [next_ping hfail hp, next_ping hfail' hp']
              exact hping d i
          | pong i =>
              rw [next_pong hfail hp, next_pong hfail' hp']
              exact hpong d i
          | negotiate | streamStart | streamRun | streamEnd | report | finish =>
              rw [next_quiet hfail hp (fun _ heq => by cases heq) (fun _ heq => by cases heq)
                  (fun _ => rfl),
                next_quiet hfail' hp' (fun _ heq => by cases heq) (fun _ heq => by cases heq)
                  (fun _ => rfl)]
              exact hquiet d _

/-- **In the last direction a run does not tell when it takes place.** -/
theorem Shifted.next (h : Shifted k s s') (hlast : s.pos.Last) :
    Shifted k (v.next delay s) (v.next delay' s') := by
  refine TimedEnv.next_last delay delay' hlast h.pos h.failed h ?_ ?_ h.exchanged
  · intro d i
    exact { h.exchanged d (.ping i) with started := Times.start_add (h.clock d.sender) }
  · exact fun d i => (h.exchanged d (.pong i)).measured d v.interval

/-! ### Where a run is -/

/-- A run is past the start of its last direction. -/
structure TalkPos.Over (pos : TalkPos) : Prop where
  last : pos.Last
  started : ∀ d rest, pos ≠ .talk d rest (.ping 0)

/-- Only FINISH is followed by nothing, and nothing by the first PING. -/
theorem stepNext_cases (iter : UInt16) (count : Nat → UInt32) (restart : Nat → Bool)
    (step : TalkStep) :
    step = .finish ∨ ∃ step', step.next iter count restart = some step' ∧ step' ≠ .ping 0 := by
  cases step with
  | finish => exact .inl rfl
  | ping i => exact .inr ⟨.pong i, rfl, fun h => by cases h⟩
  | pong i =>
      refine .inr ⟨_, rfl, ?_⟩
      unfold TalkStep.handshake
      split
      · exact fun h => by cases h
      · exact fun h => by cases h
  | negotiate k => exact .inr ⟨.streamStart k, rfl, fun h => by cases h⟩
  | streamStart k | streamRun k i =>
      refine .inr ⟨_, rfl, ?_⟩
      unfold TalkStep.stream
      split
      · exact fun h => by cases h
      · exact fun h => by cases h
  | streamEnd k =>
      refine .inr ⟨_, rfl, ?_⟩
      split
      · exact fun h => by cases h
      · exact fun h => by cases h
  | report => exact .inr ⟨.finish, rfl, fun h => by cases h⟩

/-- A direction stays the last one. -/
theorem TalkPos.Last.next {pos : TalkPos} (h : pos.Last) (iter : UInt16)
    (count : Dir → Nat → UInt32) (restart : Dir → Nat → Bool) :
    (pos.next iter count restart).Over := by
  have hreturned : TalkPos.returned.Over :=
    ⟨fun _ _ _ heq => (by cases heq), fun _ _ heq => (by cases heq)⟩
  cases pos with
  | returned => exact hreturned
  | talk d rest step =>
      obtain rfl := h d rest step rfl
      rcases stepNext_cases iter (count d) (restart d) step with rfl | ⟨step', hnext, hne⟩
      · exact hreturned
      · rw [TalkPos.next, hnext]
        refine ⟨?_, ?_⟩
        · intro _ _ _ heq
          cases heq
          rfl
        · intro _ _ heq
          cases heq
          exact hne rfl

namespace TimedEnv

theorem processRun_dirs (v : TimedEnv) :
    processRun v.reverseFirst true false = [v.firstDir, v.secondDir] := by
  unfold processRun firstDir secondDir
  cases v.reverseFirst <;> rfl

theorem receiver_ne_sender (d : Dir) : d.receiver ≠ d.sender := (Endpoint.peer_ne d.receiver).symm

/-- A direction starts with its first PING. -/
theorem enter_secondDir (v : TimedEnv) :
    TalkPos.enter v.iter [v.secondDir] = .talk v.secondDir [] (.ping 0) := by
  rw [TalkPos.enter, TalkStep.handshake, if_pos v.iter_pos]

theorem init_pos (v : TimedEnv) :
    v.init.pos = .talk v.firstDir [v.secondDir] (.ping 0) := by
  rw [init, processRun_dirs, TalkPos.enter, TalkStep.handshake, if_pos v.iter_pos]

end TimedEnv

/-! ### The sleep -/

/-- The sleep is over and was not measured, nor is it a part of the handshake that is under way. -/
structure Clear (awake : Nat) (s : TimedTalk) : Prop where
  outside : s.SleepOutside
  slept : ∃ asleep, s.slept = some (asleep, awake)
  clock : ∀ e, awake ≤ s.clock e
  started : awake ≤ s.started

theorem Clear.exchanged {awake : Nat} (h : Clear awake s) (d : Dir) (step : TalkStep) :
    Clear awake (v.exchanged s d step) where
  outside := h.outside
  slept := h.slept
  clock := fun e => Nat.le_trans (h.clock e) Times.le_after
  started := h.started

theorem Clear.measured {awake : Nat} (h : Clear awake s) (d : Dir) (interval : UInt16) :
    Clear awake (s.measured d interval) where
  outside := by
    intro asleep awake' hslept d' hs hmem
    obtain ⟨_, hslept'⟩ := h.slept
    rw [TimedTalk.measured_slept] at hslept
    by_cases hd : d' = d
    · subst hd
      rw [TimedTalk.measured_handshakes, Function.update_self] at hmem
      rcases List.mem_append.mp hmem with hold | hnew
      · exact h.outside asleep awake' hslept d' hs hold
      · obtain rfl := List.mem_singleton.mp hnew
        rw [hslept'] at hslept
        cases hslept
        exact .inr h.started
    · rw [TimedTalk.measured_handshakes, Function.update_of_ne hd] at hmem
      exact h.outside asleep awake' hslept d' hs hmem
  slept := h.slept
  clock := by
    intro e
    by_cases he : e = d.sender
    · subst he
      rw [TimedTalk.measured_clock, Function.update_self]
      exact Nat.le_trans (h.clock _) (Nat.le_add_right ..)
    · rw [TimedTalk.measured_clock, Function.update_of_ne he]
      exact h.clock e
  started := h.started

/-- A handshake that starts after the sleep does not measure it. -/
theorem Clear.next {awake : Nat} (h : Clear awake s) (hlast : s.pos.Last) :
    Clear awake (v.next delay s) := by
  refine TimedEnv.next_last delay delay (R := fun s _ => Clear awake s) hlast rfl rfl h
    ?_ ?_ h.exchanged
  · intro d i
    exact { h.exchanged d (.ping i) with
      started := Nat.le_trans (h.clock d.sender) (Nat.le_add_right ..) }
  · exact fun d i => (h.exchanged d (.pong i)).measured d v.interval

/-! ### Two runs -/

/-- A run stays past the start of its last direction. -/
theorem over_next (hover : s.pos.Over) : (v.next delay s).pos.Over := by
  have hnext := hover.last.next v.iter v.count v.restart
  exact TimedEnv.next_last delay delay (R := fun s _ => s.pos.Over) hover.last rfl rfl hover
    (fun _ _ => hnext) (fun _ _ => hnext) (fun _ _ => hnext)

/-- Two runs at the same exchange: in the first direction they are one; when the second one is
about to start, they differ in what the listener has slept; and from then on, if nobody was late,
one is the other at a later time. -/
inductive Paired (v : TimedEnv) (delay delay' : UInt16) : TimedTalk → TimedTalk → Prop
  | first {s : TimedTalk} {step : TalkStep}
      (hpos : s.pos = .talk v.firstDir [v.secondDir] step) (hslept : s.slept = none)
      (hstop : ∀ d, ∀ h ∈ s.handshakes d, h.stop ≤ s.clock v.firstDir.sender) :
      Paired v delay delay' s s
  | woken {s : TimedTalk} (hpos : s.pos = .talk v.secondDir [] (.ping 0))
      (hfailed : s.failed = false) (hsaid : ∀ e, s.clock v.firstDir.sender ≤ s.clock e)
      (hstop : ∀ d, ∀ h ∈ s.handshakes d, h.stop ≤ s.clock .listener) :
      Paired v delay delay' (s.sleeping delay) (s.sleeping delay')
  | second {s s' : TimedTalk} (hover : s.pos.Over) (hover' : s'.pos.Over)
      (hshift : v.InTime delay → v.InTime delay' → ∃ k, Shifted k s s')
      (hclear : v.InTime delay → ∃ awake, Clear awake s)
      (hclear' : v.InTime delay' → ∃ awake, Clear awake s') : Paired v delay delay' s s'

/-- The first direction does not know the delay, up to its last message. -/
theorem Paired.next_first {step : TalkStep} (hpos : s.pos = .talk v.firstDir [v.secondDir] step)
    (hslept : s.slept = none)
    (hstop : ∀ d, ∀ h ∈ s.handshakes d, h.stop ≤ s.clock v.firstDir.sender) :
    Paired v delay delay' (v.next delay s) (v.next delay' s) := by
  have hmono : ∀ step, s.clock v.firstDir.sender
      ≤ (v.exchanged s v.firstDir step).clock v.firstDir.sender := fun _ => Times.le_after
  have hkept : ∀ step, ∀ d, ∀ h ∈ s.handshakes d,
      h.stop ≤ (v.exchanged s v.firstDir step).clock v.firstDir.sender :=
    fun step d h hmem => Nat.le_trans (hstop d h hmem) (hmono step)
  have hnext : ∀ step', step.next v.iter (v.count v.firstDir) (v.restart v.firstDir) = some step' →
      (v.exchanged s v.firstDir step).pos = .talk v.firstDir [v.secondDir] step' := by
    intro step' heq
    rw [TimedEnv.exchanged, hpos]
    dsimp only
    rw [TalkPos.next, heq]
  cases hfailed : s.failed with
  | true =>
      rw [TimedEnv.next_failed hfailed, TimedEnv.next_failed hfailed]
      exact .first hpos hslept hstop
  | false =>
      cases step with
      | ping i =>
          rw [TimedEnv.next_ping hfailed hpos, TimedEnv.next_ping hfailed hpos]
          exact .first (hnext _ rfl) hslept (hkept _)
      | pong i =>
          rw [TimedEnv.next_pong hfailed hpos, TimedEnv.next_pong hfailed hpos]
          refine .first (hnext _ rfl) hslept ?_
          intro d h hmem
          rw [TimedTalk.measured_clock, Function.update_self]
          refine Nat.le_trans ?_ (Nat.le_add_right ..)
          by_cases hd : d = v.firstDir
          · subst hd
            rw [TimedTalk.measured_handshakes, Function.update_self] at hmem
            rcases List.mem_append.mp hmem with hold | hnew
            · exact hkept _ _ h hold
            · obtain rfl := List.mem_singleton.mp hnew
              exact Nat.le_refl _
          · rw [TimedTalk.measured_handshakes, Function.update_of_ne hd] at hmem
            exact hkept _ d h hmem
      | finish =>
          rw [TimedEnv.next_finish hfailed hpos, TimedEnv.next_finish hfailed hpos]
          have hspeaker : v.firstDir.speaker .finish = v.firstDir.sender := rfl
          have hsaid : ∀ e, (v.exchanged s v.firstDir .finish).clock v.firstDir.sender
              ≤ (v.exchanged s v.firstDir .finish).clock e := by
            intro e
            simp only [TimedEnv.exchanged, hspeaker, Times.after_self]
            exact Times.said_le_after
          refine .woken ?_ hfailed hsaid ?_
          · rw [TimedEnv.exchanged, hpos]
            exact v.enter_secondDir
          · exact fun d h hmem => Nat.le_trans (hkept _ d h hmem) (hsaid .listener)
      | negotiate | streamStart | streamRun | streamEnd | report =>
          rw [TimedEnv.next_quiet hfailed hpos (fun _ heq => by cases heq)
              (fun _ heq => by cases heq) (fun heq => by cases heq),
            TimedEnv.next_quiet hfailed hpos (fun _ heq => by cases heq)
              (fun _ heq => by cases heq) (fun heq => by cases heq)]
          exact .first (hnext _ rfl) hslept (hkept _)

/-- If the receiver of a PING is there in both runs, they differ only in when it is sent. -/
theorem Shifted.of_waits {i : Nat} (hpos : s.pos = .talk d [] (.ping i)) (hpos' : s'.pos = s.pos)
    (hfailed : s.failed = false) (hfailed' : s'.failed = false)
    (hhandshakes : s'.handshakes = s.handshakes) (hclock : s'.clock d.sender = s.clock d.sender + k)
    (hw : (v.exchange d (.ping i)).Waits s.clock d.sender d.receiver)
    (hw' : (v.exchange d (.ping i)).Waits s'.clock d.sender d.receiver) :
    Shifted k (v.next delay s) (v.next delay' s') := by
  have honly : ∀ e, e ≠ d.sender → e = d.receiver := by
    intro e he
    rcases Endpoint.eq_or_eq_peer d.receiver e with heq | heq
    · exact heq
    · exact absurd heq he
  rw [TimedEnv.next_ping hfailed hpos, TimedEnv.next_ping hfailed' (hpos'.trans hpos)]
  refine ⟨congrArg (TalkPos.next v.iter v.count v.restart) hpos', ?_, Times.start_add hclock,
    hfailed'.trans hfailed.symm, ?_⟩
  · intro e
    refine Times.after_of_waits hclock ?_ ?_
    · intro e' he'
      obtain rfl := honly e' he'
      exact hw
    · intro e' he'
      obtain rfl := honly e' he'
      exact hw'
  · intro d'
    change List.Forall₂ Handshake.Later (s.handshakes d') (s'.handshakes d')
    rw [hhandshakes]
    exact forall₂_later_refl _

/-- A listener that is awake in time has slept outside of the handshakes. -/
theorem Clear.of_onTime (hpos : s.pos = .talk v.secondDir [] (.ping 0)) (hfailed : s.failed = false)
    (hstop : ∀ d, ∀ h ∈ s.handshakes d, h.stop ≤ s.clock .listener)
    (htime : v.OnTime (s.sleeping delay)) :
    Clear (s.clock .listener + delay.toNat * 1000000) (v.next delay (s.sleeping delay)) := by
  have hawake := htime.awake
  rw [TimedTalk.sleeping_clock, Function.update_self] at hawake
  have hfailed' : (s.sleeping delay).failed = false := hfailed
  rw [TimedEnv.next_ping hfailed' hpos]
  refine ⟨?_, ⟨_, rfl⟩, ?_, hawake⟩
  · intro asleep awake hslept d h hmem
    cases hslept
    exact .inl (hstop d h hmem)
  · exact fun e => Nat.le_trans hawake (Nat.le_trans Times.start_le_said Times.said_le_after)

/-- A longer delay makes no clock earlier. -/
theorem sleeping_clock_le (hle : delay ≤ delay') (s : TimedTalk) (e : Endpoint) :
    (s.sleeping delay).clock e ≤ (s.sleeping delay').clock e := by
  have hnat := Nat.mul_le_mul_right 1000000 (UInt16.le_iff_toNat_le.mp hle)
  by_cases he : e = .listener
  · subst he
    simp only [TimedTalk.sleeping_clock, Function.update_self]
    omega
  · simp only [TimedTalk.sleeping_clock, Function.update_of_ne he, Nat.le_refl]

/-- **Two runs, one exchange further.** -/
theorem Paired.next (hle : delay ≤ delay') (h : Paired v delay delay' s s')
    (htime : v.InTime delay → s.pos = .talk v.secondDir [] (.ping 0) → v.OnTime s)
    (htime' : v.InTime delay' → s'.pos = .talk v.secondDir [] (.ping 0) → v.OnTime s') :
    Paired v delay delay' (v.next delay s) (v.next delay' s') := by
  cases h with
  | first hpos hslept hstop => exact next_first hpos hslept hstop
  | @woken s hpos hfailed hsaid hstop =>
      have hlast : s.pos.Last := by
        rw [hpos]
        intro _ _ _ heq
        cases heq
        rfl
      have hover : ∀ delay : UInt16, (v.next delay (s.sleeping delay)).pos.Over := by
        intro delay
        have hfailed' : (s.sleeping delay).failed = false := hfailed
        rw [TimedEnv.next_ping hfailed' hpos]
        exact hlast.next v.iter v.count v.restart
      refine .second (hover delay) (hover delay') ?_ ?_ ?_
      · intro hin hin'
        obtain ⟨k, hk⟩ := Nat.exists_eq_add_of_le (sleeping_clock_le hle s v.secondDir.sender)
        have hpos' : (s.sleeping delay').pos = (s.sleeping delay).pos := rfl
        exact ⟨k, .of_waits hpos hpos' hfailed hfailed rfl hk (htime hin hpos).waits
          (htime' hin' hpos).waits⟩
      · exact fun hin => ⟨_, .of_onTime hpos hfailed hstop (htime hin hpos)⟩
      · exact fun hin' => ⟨_, .of_onTime hpos hfailed hstop (htime' hin' hpos)⟩
  | second hover hover' hshift hclear hclear' =>
      refine .second (over_next hover) (over_next hover') ?_ ?_ ?_
      · intro hin hin'
        obtain ⟨k, hk⟩ := hshift hin hin'
        exact ⟨k, hk.next hover.last⟩
      · intro hin
        obtain ⟨awake, hawake⟩ := hclear hin
        exact ⟨awake, hawake.next hover.last⟩
      · intro hin'
        obtain ⟨awake, hawake⟩ := hclear' hin'
        exact ⟨awake, hawake.next hover'.last⟩

/-- **Two runs, after as many exchanges.** -/
theorem paired_run (hle : delay ≤ delay') (n : Nat) :
    Paired v delay delay' (v.run delay n) (v.run delay' n) := by
  induction n with
  | zero => exact .first v.init_pos rfl (fun _ _ hmem => by cases hmem)
  | succ n ih => exact ih.next hle (fun hin => hin n) (fun hin => hin n)

/-! ### In time -/

theorem Paired.outside (h : Paired v delay delay' s s') (hin : v.InTime delay)
    (hin' : v.InTime delay') : s.SleepOutside ∧ s'.SleepOutside := by
  cases h with
  | first hpos hslept hstop =>
      have hout : s.SleepOutside := by
        intro asleep awake hsome
        rw [hslept] at hsome
        cases hsome
      exact ⟨hout, hout⟩
  | woken hpos hfailed hsaid hstop =>
      refine ⟨?_, ?_⟩
      · intro asleep awake hsome d h hmem
        cases hsome
        exact .inl (hstop d h hmem)
      · intro asleep awake hsome d h hmem
        cases hsome
        exact .inl (hstop d h hmem)
  | second hover hover' hshift hclear hclear' =>
      obtain ⟨_, hawake⟩ := hclear hin
      obtain ⟨_, hawake'⟩ := hclear' hin'
      exact ⟨hawake.outside, hawake'.outside⟩

theorem Paired.handshakes (h : Paired v delay delay' s s') (hin : v.InTime delay)
    (hin' : v.InTime delay') (d : Dir) :
    List.Forall₂ Handshake.Later (s.handshakes d) (s'.handshakes d) := by
  cases h with
  | first hpos hslept hstop => exact forall₂_later_refl _
  | woken hpos hfailed hsaid hstop => exact forall₂_later_refl _
  | second hover hover' hshift hclear hclear' =>
      obtain ⟨k, hk⟩ := hshift hin hin'
      exact hk.handshakes d

namespace TimedEnv

theorem DelayIndependent.symm (h : v.DelayIndependent delay delay') :
    v.DelayIndependent delay' delay :=
  ⟨fun n d => (h.trips n d).symm, fun n d => (h.latency n d).symm, fun n => (h.outside n).symm⟩

/-- If nobody is late, the delay does not matter. -/
theorem independent_of_inTime (hle : delay ≤ delay') (hin : v.InTime delay)
    (hin' : v.InTime delay') : v.DelayIndependent delay delay' := by
  have hlater : ∀ n d, List.Forall₂ Handshake.Later ((v.run delay n).handshakes d)
      ((v.run delay' n).handshakes d) := fun n => (paired_run hle n).handshakes hin hin'
  refine ⟨fun n d => map_eq_of_later Handshake.Later.us (hlater n d), ?_,
    fun n => (paired_run hle n).outside hin hin'⟩
  intro n d
  rw [TimedTalk.reported, TimedTalk.reported, (hlater n d).length_eq,
    map_eq_of_later Handshake.Later.ret (hlater n d)]

end TimedEnv

/-! ### Late -/

/-- From the arrival of the first PING at its receiver to the end of the handshake. -/
def TimedEnv.answerUs (v : TimedEnv) (d : Dir) : Nat :=
  let t := v.exchange d (.pong 0)
  t.ready d.receiver + t.send + t.transit + t.handle

/-- **The first handshake of a direction**: from when the sender starts until the receiver has
heard the PING, and the answer. -/
theorem TimedEnv.first_handshake (v : TimedEnv) (delay₁ delay₂ : UInt16)
    (hpos : s.pos = .talk d [] (.ping 0)) (hfailed : s.failed = false) :
    (v.next delay₂ (v.next delay₁ s)).slept = s.slept ∧
    (v.next delay₂ (v.next delay₁ s)).handshakes d = s.handshakes d
      ++ [⟨(v.exchange d (.ping 0)).start s.clock d.sender,
        (v.exchange d (.ping 0)).heard s.clock d.sender d.receiver + v.answerUs d⟩] := by
  have hne := TimedEnv.receiver_ne_sender d
  have hping : v.next delay₁ s = _ := TimedEnv.next_ping hfailed hpos
  have hpos₁ : (v.next delay₁ s).pos = .talk d [] (.pong 0) := by
    rw [hping, TimedEnv.exchanged, hpos]
    rfl
  have hfailed₁ : (v.next delay₁ s).failed = false := by
    rw [hping]
    exact hfailed
  have hpong : v.next delay₂ (v.next delay₁ s) = _ := TimedEnv.next_pong hfailed₁ hpos₁
  have hsender : (v.next delay₁ s).clock d.sender
      = (v.exchange d (.ping 0)).said s.clock d.sender := by
    rw [hping]
    exact Times.after_self
  have hreceiver : (v.next delay₁ s).clock d.receiver
      = (v.exchange d (.ping 0)).heard s.clock d.sender d.receiver := by
    rw [hping]
    exact Times.after_of_ne hne
  have hready : (v.exchange d (.pong 0)).ready d.sender = 0 := Function.update_self ..
  have hstop : (v.exchanged (v.next delay₁ s) d (.pong 0)).clock d.sender
      = (v.exchange d (.ping 0)).heard s.clock d.sender d.receiver + v.answerUs d := by
    have hheard : (v.exchange d (.ping 0)).said s.clock d.sender
        ≤ (v.exchange d (.ping 0)).heard s.clock d.sender d.receiver := Times.said_le_heard
    have hafter : (v.exchanged (v.next delay₁ s) d (.pong 0)).clock d.sender
        = (v.exchange d (.pong 0)).heard (v.next delay₁ s).clock d.receiver d.sender :=
      Times.after_of_ne hne.symm
    rw [hafter, Times.heard, Times.arrived, Times.said, Times.start, hsender, hreceiver, hready,
      TimedEnv.answerUs]
    omega
  rw [hpong]
  refine ⟨?_, ?_⟩
  · rw [TimedTalk.measured_slept, TimedEnv.exchanged, hping]
    rfl
  · rw [TimedTalk.measured_handshakes, Function.update_self, hstop]
    change (v.next delay₁ s).handshakes d ++ [⟨(v.next delay₁ s).started, _⟩] = _
    rw [hping]
    rfl

/-- Two round trips that differ only in when the listener woke up are the same only if the receiver
was there both times. -/
theorem waits_of_same_trip {t : Times Endpoint} {clock : Endpoint → Nat} {awake awake' answer : Nat}
    (hne : awake ≠ awake')
    (hsame : t.heard (Function.update clock .listener awake) d.sender d.receiver + answer
        - t.start (Function.update clock .listener awake) d.sender
      = t.heard (Function.update clock .listener awake') d.sender d.receiver + answer
        - t.start (Function.update clock .listener awake') d.sender) :
    t.Waits (Function.update clock .listener awake) d.sender d.receiver := by
  unfold Times.Waits
  unfold Times.heard at hsame
  unfold Times.arrived Times.said at *
  unfold Times.start at *
  cases d with
  | straight =>
      simp only [Dir.sender, Dir.receiver, Endpoint.peer, Function.update_self, ne_eq, reduceCtorEq,
        not_false_eq_true, Function.update_of_ne] at hsame ⊢
      omega
  | reverse =>
      simp only [Dir.sender, Dir.receiver, Endpoint.peer, Function.update_self, ne_eq, reduceCtorEq,
        not_false_eq_true, Function.update_of_ne] at hsame ⊢
      omega

/-- The listener takes part in the handshake, and is awake then. -/
theorem awake_le_heard (d : Dir) (t : Times Endpoint) (clock : Endpoint → Nat) (awake : Nat) :
    awake ≤ t.heard (Function.update clock .listener awake) d.sender d.receiver := by
  cases d with
  | straight =>
      have hle : Function.update clock .listener awake Dir.straight.receiver
            + t.ready Dir.straight.receiver
          ≤ t.heard (Function.update clock .listener awake) Dir.straight.sender
            Dir.straight.receiver := Times.le_heard
      rw [Dir.receiver, Function.update_self] at hle
      exact Nat.le_trans (Nat.le_add_right ..) hle
  | reverse =>
      refine Nat.le_trans ?_ (Nat.le_trans Times.start_le_said Times.said_le_heard)
      rw [Times.start, Dir.sender, Dir.receiver, Endpoint.peer, Function.update_self]
      exact Nat.le_add_right ..

/-- Where the second direction is about to start, two runs differ in the sleep. -/
theorem Paired.exists_woken (h : Paired v delay delay' s s')
    (hpos : s.pos = .talk v.secondDir [] (.ping 0) ∨ s'.pos = .talk v.secondDir [] (.ping 0)) :
    ∃ s₀ : TimedTalk, s₀.pos = .talk v.secondDir [] (.ping 0) ∧ s₀.failed = false
      ∧ (∀ e, s₀.clock v.firstDir.sender ≤ s₀.clock e)
      ∧ s = s₀.sleeping delay ∧ s' = s₀.sleeping delay' := by
  cases h with
  | first hfirst hslept hstop =>
      have hboth := (or_self_iff.mp hpos).symm.trans hfirst
      exact absurd (TalkPos.talk.inj hboth).2.1.symm (List.cons_ne_nil _ _)
  | woken hwoken hfailed hsaid hstop => exact ⟨_, hwoken, hfailed, hsaid, rfl, rfl⟩
  | second hover hover' hshift hclear hclear' =>
      rcases hpos with hpos | hpos
      · exact absurd hpos (hover.started _ _)
      · exact absurd hpos (hover'.started _ _)

theorem exists_woken {n : Nat} (hpos : (v.run delay n).pos = .talk v.secondDir [] (.ping 0))
    (delay' : UInt16) :
    ∃ s : TimedTalk, s.pos = .talk v.secondDir [] (.ping 0) ∧ s.failed = false
      ∧ (∀ e, s.clock v.firstDir.sender ≤ s.clock e)
      ∧ v.run delay n = s.sleeping delay ∧ v.run delay' n = s.sleeping delay' := by
  rcases UInt16.le_total delay delay' with hle | hle
  · exact (paired_run hle n).exists_woken (.inl hpos)
  · obtain ⟨s, hs, hfailed, hsaid, hrun', hrun⟩ := (paired_run hle n).exists_woken (.inr hpos)
    exact ⟨s, hs, hfailed, hsaid, hrun, hrun'⟩

namespace TimedEnv

/-- If the delay does not matter, nobody is late. -/
theorem inTime_of_independent (hne : delay ≠ delay') (hdelay : 0 < delay.toNat)
    (h : v.DelayIndependent delay delay') : v.InTime delay := by
  intro n hpos
  obtain ⟨s, hs, hfailed, -, hrun, hrun'⟩ := exists_woken hpos delay'
  have hwoken : ∀ delay : UInt16, (s.sleeping delay).pos = .talk v.secondDir [] (.ping 0)
      ∧ (s.sleeping delay).failed = false := fun _ => ⟨hs, hfailed⟩
  obtain ⟨hslept, hfirst⟩ := v.first_handshake delay delay (hwoken delay).1 (hwoken delay).2
  obtain ⟨-, hfirst'⟩ := v.first_handshake delay' delay' (hwoken delay').1 (hwoken delay').2
  have htrips := h.trips (n + 2) v.secondDir
  have houtside := (h.outside (n + 2)).1
  simp only [run, hrun, hrun'] at htrips houtside
  rw [hfirst, hfirst', List.map_append, List.map_append, TimedTalk.sleeping_handshakes,
    TimedTalk.sleeping_handshakes] at htrips
  have hus := (List.cons.inj (List.append_cancel_left htrips)).1
  have hawake : s.clock .listener + delay.toNat * 1000000
      ≠ s.clock .listener + delay'.toNat * 1000000 := by
    intro heq
    exact hne (UInt16.toNat_inj.mp (by omega))
  rw [hrun]
  refine ⟨?_, waits_of_same_trip hawake hus⟩
  have hlistener : (s.sleeping delay).clock .listener
      = s.clock .listener + delay.toNat * 1000000 := by
    rw [TimedTalk.sleeping_clock, Function.update_self]
  have hstop := awake_le_heard v.secondDir (v.exchange v.secondDir (.ping 0)) s.clock
    (s.clock .listener + delay.toNat * 1000000)
  have hmem := List.mem_append_right ((s.sleeping delay).handshakes v.secondDir)
    (List.mem_singleton_self (Handshake.mk
      ((v.exchange v.secondDir (.ping 0)).start (s.sleeping delay).clock v.secondDir.sender)
      ((v.exchange v.secondDir (.ping 0)).heard (s.sleeping delay).clock v.secondDir.sender
        v.secondDir.receiver + v.answerUs v.secondDir)))
  rw [← hfirst] at hmem
  rcases houtside _ _ hslept v.secondDir _ hmem with hbefore | hafter
  · rw [TimedTalk.sleeping_clock] at hbefore
    dsimp only at hbefore
    omega
  · rw [hlistener]
    exact hafter

/-- In the straight order nobody is late if the connector takes no longer than the delay to get
ready for the second direction. -/
theorem inTime_straightFirst (hfirst : v.reverseFirst = false)
    (hready : (v.times .reverse (.ping 0)).ready .connector ≤ delay.toNat * 1000000) :
    v.InTime delay := by
  intro n hpos
  obtain ⟨s, hs, -, hsaid, hrun, -⟩ := exists_woken hpos delay
  have hsecond : v.secondDir = .reverse := by
    rw [secondDir, hfirst]
    rfl
  have hsender : v.firstDir.sender = .connector := by
    rw [firstDir, hfirst]
    rfl
  have hle := hsaid .listener
  rw [hsender] at hle
  rw [hrun]
  have hexchange : v.exchange .reverse (.ping 0) = v.times .reverse (.ping 0) := rfl
  refine ⟨?_, ?_⟩
  · rw [hsecond]
    exact Nat.le_add_right ..
  · rw [hsecond, Times.Waits, Times.arrived, Times.said, Times.start, hexchange]
    simp only [TimedTalk.sleeping_clock, Dir.sender, Dir.receiver, Endpoint.peer,
      Function.update_self, ne_eq, reduceCtorEq, not_false_eq_true, Function.update_of_ne]
    omega

/-- **What the latencies depend on.** For both orders of the directions, all settings of the
handshake, all times of the exchanges and every two delays: the two runs measure the same round
trips, report the same latencies and measure no sleep if and only if in both of them, when the
second direction starts, the listener is awake before the first handshake and the receiver is there
when its PING arrives. -/
theorem delayIndependent_iff (v : TimedEnv) {delay delay' : UInt16} (hne : delay ≠ delay')
    (hdelay : 0 < delay.toNat) (hdelay' : 0 < delay'.toNat) :
    v.DelayIndependent delay delay' ↔ v.InTime delay ∧ v.InTime delay' := by
  constructor
  · intro h
    exact ⟨inTime_of_independent hne hdelay h, inTime_of_independent hne.symm hdelay' h.symm⟩
  · rintro ⟨hin, hin'⟩
    rcases UInt16.le_total delay delay' with hle | hle
    · exact independent_of_inTime hle hin hin'
    · exact (independent_of_inTime hle hin' hin).symm

/-- The default handshakes, over a link of 100 microseconds. -/
def link (reverseFirst : Bool) : TimedEnv where
  iter := configTalkHandshakeIter
  iter_pos := by decide
  interval := configTalkHandshakeIntervalMsec
  reverseFirst := reverseFirst
  count := fun _ _ => 1
  restart := fun _ _ => false
  connected := fun _ => 0
  times := fun _ _ => ⟨fun _ => 10, 5, 100, 5⟩

/-- The straight direction first, with delays of 1 and of 3 seconds. -/
theorem delayIndependent_link : (link false).DelayIndependent 1 3 :=
  (delayIndependent_iff (link false) (by decide) (by decide) (by decide)).mpr
    ⟨inTime_straightFirst rfl (by decide), inTime_straightFirst rfl (by decide)⟩

/-- The reverse direction first: a latency of 50 milliseconds for a delay of 1 second, and of 150
milliseconds for one of 3 seconds. -/
theorem delayIndependent_fails_reverseFirst :
    ((link true).run 1 86).reported configTalkHandshakeIter .straight = some 50219
    ∧ ((link true).run 3 86).reported configTalkHandshakeIter .straight = some 150219
    ∧ ¬ (link true).DelayIndependent 1 3 := by
  have hone : ((link true).run 1 86).reported configTalkHandshakeIter .straight = some 50219 := by
    decide +kernel
  have hthree : ((link true).run 3 86).reported configTalkHandshakeIter .straight
      = some 150219 := by
    decide +kernel
  refine ⟨hone, hthree, ?_⟩
  intro h
  have hsame := h.latency 86 .straight
  change ((link true).run 1 86).reported configTalkHandshakeIter .straight
    = ((link true).run 3 86).reported configTalkHandshakeIter .straight at hsame
  rw [hone, hthree] at hsame
  exact absurd hsame (by decide)

end TimedEnv

end Ubwt
